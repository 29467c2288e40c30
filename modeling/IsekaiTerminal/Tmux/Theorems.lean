import IsekaiTerminal.Tmux.Lemmas.CtlSocket

/-!
# ctl-socket のパスの伝播の性質

接続と登録がどの順に交互に進み、リモートのコマンドがどう失敗しても、追い越しのない操作だけの実行では、進行中の
呼び出しがないとき、書き込みに成功した最も新しいパスをレジストリも tmux も持ち、退避したままのパスはない。
-/

namespace IsekaiTerminal.Tmux

open Lib

/-- 追い越しのない操作だけの実行では、どの状態でもパスが届いていて、どの操作も書かれた値を古くしない。 -/
theorem delivered_of_run {as : List Action} {p : State}
    (h : Run (Guarded State.Steps Ordered) State.start as p) :
    p.Delivered ∧ ∀ a p', Guarded State.Steps Ordered p a p' → p.shared.Advances p'.shared := by
  have hI := State.invariant_of_run h
  refine ⟨?_, fun a p' hstep => State.advances_of_step hI hstep.1⟩
  intro hq e he
  rw [hq] at hI
  have hnone (m : Nat) : ¬ Coming [] m := by
    rintro ⟨op, hop, -⟩
    cases hop
  refine ⟨?_, ?_⟩
  · cases hp : p.shared.pendingCtlSocketPath with
    | none => rfl
    | some r => cases he.symm.trans (hI.noted r hp).1
  · intro m hm
    refine ⟨(hI.recorded e he m hm).resolve_right ?_, (hI.written e he m hm).resolve_right (hnone m)⟩
    rintro (hop | hc)
    · cases hop
    · exact hnone m hc

/-! ## 実行の例 -/

/-- 支障のないコマンドの選択。ロケータは `w` である。 -/
def done : Choice := ⟨true, "w"⟩

/-- 最初の接続のパスが退避され、登録のときに書き込まれる。次の接続のパスがその後に書き込まれる。 -/
def deliveredRun : List Action :=
  [.call .connect, .run 0 done, .run 0 done, .call .ensureTmuxTabWindow] ++ List.replicate 6 (.run 1 done) ++
    .call .connect :: List.replicate 4 (.run 2 done)

theorem any_deliveredRun : ((deliveredRun.foldlM (fun p a => if Ordered p a then p.step a else none) State.start).any
    fun p => p.pending = [] ∧ p.shared.entry = some ⟨"w", some 1⟩ ∧ p.shared.newest = some 1) = true := by
  decide +kernel

theorem delivered_deliveredRun : ∃ p, Run (Guarded State.Steps Ordered) State.start deliveredRun p ∧ p.pending = [] ∧
    p.shared.entry = some ⟨"w", some 1⟩ ∧ p.shared.newest = some 1 ∧ p.Delivered := by
  obtain ⟨p, hp, hfacts⟩ := (Option.any_eq_true _ _).mp any_deliveredRun
  obtain ⟨hq, hentry, hnewest⟩ := of_decide_eq_true hfacts
  have hrun : Run (Guarded State.Steps Ordered) State.start deliveredRun p := Run.guarded_of_foldlM hp
  exact ⟨p, hrun, hq, hentry, hnewest, (delivered_of_run hrun).1⟩

/-- ロケータを引いた後、退避する前に、登録が終わる。 -/
def lostRun : List Action :=
  [.call .connect, .run 0 done, .call .ensureTmuxTabWindow, .run 1 done, .run 1 done, .run 0 done]

/-- 登録の後の 2 つの接続の書き込みが、逆の順に終わる。 -/
def staleRun : List Action :=
  [.call .ensureTmuxTabWindow, .run 0 done, .run 0 done, .call .connect, .run 1 done, .run 1 done, .call .connect] ++
    List.replicate 4 (.run 2 done) ++ [.run 1 done, .run 1 done]

/-- 前の接続の書き込みが成功した後、次の接続の書き込みが失敗する。 -/
def failedRun : List Action :=
  [.call .ensureTmuxTabWindow, .run 0 done, .run 0 done, .call .connect] ++ List.replicate 4 (.run 1 done) ++
    [.call .connect, .run 2 done, .run 2 ⟨false, ""⟩, .run 2 done]

theorem any_runs :
    ((lostRun.foldlM State.step State.start).any fun p => p.pending = [] ∧ p.shared.entry = some ⟨"w", none⟩ ∧
      p.shared.pendingCtlSocketPath = some 0) = true ∧
    ((staleRun.foldlM State.step State.start).any fun p => p.pending = [] ∧ p.shared.entry = some ⟨"w", some 0⟩ ∧
      p.shared.options "w" = some 0 ∧ p.shared.newest = some 1) = true ∧
    ((failedRun.foldlM State.step State.start).any fun p => p.pending = [] ∧ p.shared.entry = some ⟨"w", some 1⟩ ∧
      p.shared.newest = some 0) = true := by
  decide +kernel

/-- 退避したパスが登録の後に残る実行、古いパスが新しいパスを上書きする実行、書き込みに失敗したパスをレジストリが持つ
実行が在る。 -/
theorem exists_run_undelivered :
    (∃ p, Run State.Steps State.start lostRun p ∧ p.pending = [] ∧ p.shared.pendingCtlSocketPath = some 0 ∧
      ¬ p.Delivered) ∧
    (∃ p, Run State.Steps State.start staleRun p ∧ p.pending = [] ∧ p.shared.newest = some 1 ∧
      p.shared.options "w" = some 0 ∧ ¬ p.Delivered) ∧
    ∃ p, Run State.Steps State.start failedRun p ∧ p.pending = [] ∧ p.shared.newest = some 0 ∧
      p.shared.ctlSocketPathFor = some 1 ∧ ¬ p.Delivered := by
  obtain ⟨hlost, hstale, hfailed⟩ := any_runs
  obtain ⟨p₁, hp₁, hf₁⟩ := (Option.any_eq_true _ _).mp hlost
  obtain ⟨p₂, hp₂, hf₂⟩ := (Option.any_eq_true _ _).mp hstale
  obtain ⟨p₃, hp₃, hf₃⟩ := (Option.any_eq_true _ _).mp hfailed
  obtain ⟨hq₁, he₁, hpending⟩ := of_decide_eq_true hf₁
  obtain ⟨hq₂, he₂, ho₂, hn₂⟩ := of_decide_eq_true hf₂
  obtain ⟨hq₃, he₃, hn₃⟩ := of_decide_eq_true hf₃
  refine ⟨⟨p₁, Run.of_foldlM hp₁, hq₁, hpending, ?_⟩, ⟨p₂, Run.of_foldlM hp₂, hq₂, hn₂, ho₂, ?_⟩,
    ⟨p₃, Run.of_foldlM hp₃, hq₃, hn₃, by simp [Shared.ctlSocketPathFor, he₃], ?_⟩⟩
  · intro hd
    cases hpending.symm.trans (hd hq₁ _ he₁).1
  · intro hd
    cases ho₂.symm.trans ((hd hq₂ _ he₂).2 1 hn₂).2
  · intro hd
    cases ((hd hq₃ _ he₃).2 0 hn₃).1

end IsekaiTerminal.Tmux
