import IsekaiTerminal.Tty.Lemmas.Output
import IsekaiTerminal.Tty.Lemmas.Step

/-!
# tty デーモンの主結果

占有者には出力がすべて届くが、`Exit` の直前の再生を読んだ後に来た出力は届かない。
占有者でなくなったクライアントの入力は、検査の後に入れ替わったときには pty に届く。
-/

namespace IsekaiTerminal.Tty

open Lib

/-! ## 出力 -/

/-- 占有者が空のチャネルを待つときには、書いたフレームがこれまでの出力を覆っている。 -/
def Daemon.Covered (s : Daemon) : Prop :=
  ∀ g, s.slot.occupant = some g → (s.clients g).writer = .waiting → (s.clients g).queue = [] →
    Covers s.dropped (s.clients g).written s.output

/-- `Exit` を書くときには、その直前に、これまでの出力の全体の再生を書いている。 -/
def Daemon.ExitComplete (s : Daemon) : Prop :=
  ∀ g code, (s.clients g).writer = .exiting code →
    ∃ before, (s.clients g).written = before ++ [.stdout (replayBytes s.output)]

theorem channelCapacity_run {s s' : Daemon} {as : List Label} (h : Run Step s as s') :
    s'.channelCapacity = s.channelCapacity := by
  induction h with
  | nil => rfl
  | cons hstep _ ih => rw [ih, hstep.channelCapacity_eq]

/-- 捨てた出力があれば、待つ前にチャネルから取り出すものがある。 -/
theorem Daemon.Tracked.covered {s : Daemon} (h : s.Tracked) (hfits : s.Fits) (hcap : 0 < s.channelCapacity) :
    s.Covered := by
  intro g hocc hwaiting hqueue
  have hserves := h.serves hfits g hocc
  have hmissed : s.slot.missed = false := by
    by_contra hm
    have hfull := hserves.full (by rw [hwaiting]; rfl) (Bool.eq_true_of_not_eq_false hm)
    rw [hqueue, List.length_nil] at hfull
    omega
  have hcov := hserves.covers (by rw [hwaiting]; rfl) hmissed
  simpa [Client.planned, Client.queued, hwaiting, hqueue, Writer.inFlight] using hcov

/-- 出力の全体が再生バッファに収まるかぎり、占有者に出力は失われない。
終了の通知は、その直前の再生を読んでから書き終えるまでに出力が来なければ、すべての出力の後に書かれる。 -/
theorem output_delivered (ringCapacity channelCapacity : Nat) (hcap : 0 < channelCapacity) (as : List Label)
    (s : Daemon) (hrun : Run (Guarded Step UndisturbedExit) (.init ringCapacity channelCapacity) as s)
    (hfits : s.output.flatten.length ≤ s.slot.ring.capacity) : s.Covered ∧ s.ExitComplete := by
  have hinv : s.Tracked ∧ s.ExitsReady := by
    refine Run.invariant_of_guarded (I := fun s => s.Tracked ∧ s.ExitsReady) ?_ hrun
      ⟨.init ringCapacity channelCapacity, ?_⟩
    · rintro s a s' ⟨hT, hE⟩ hstep hc
      exact ⟨hT.step hstep, hE.step hT hstep hc⟩
    · intro _ g
      exact .of_not_closing rfl
  have hrun' : Run Step (.init ringCapacity channelCapacity) as s := hrun.mono fun _ _ _ hstep => hstep.1
  refine ⟨hinv.1.covered hfits ?_, ?_⟩
  · rw [channelCapacity_run hrun']
    exact hcap
  · intro g code hexiting
    exact (hinv.2 hfits g).2 code hexiting

/-- 占有者への配送は、終了の通知の時機によらない。 -/
theorem occupant_covered (ringCapacity channelCapacity : Nat) (hcap : 0 < channelCapacity) (as : List Label)
    (s : Daemon) (hrun : Run Step (.init ringCapacity channelCapacity) as s)
    (hfits : s.output.flatten.length ≤ s.slot.ring.capacity) : s.Covered := by
  have hT : s.Tracked := hrun.invariant (fun _ _ _ hT hstep => hT.step hstep) (.init ringCapacity channelCapacity)
  refine hT.covered hfits ?_
  rw [channelCapacity_run hrun]
  exact hcap

/-! ### 実行の例 -/

/-- 挨拶を書き終えて、チャネルを待つまで。 -/
def greeted (g : Nat) : List Label := [.install, .writer g, .writer g, .writer g]

/-- 条件がラベルだけで満たされる部分を、条件付きの実行として続ける。 -/
theorem guarded_of_exec {C : Daemon → Label → Prop} {D : Label → Prop} (hDC : ∀ s a, D a → C s a) {s s' : Daemon}
    {as : List Label} (hexec : as.foldlM Daemon.step s = some s') (hD : ∀ a ∈ as, D a) :
    Run (Guarded Step C) s as s' := by
  have hrun : Run Step s as s' := Run.of_foldlM hexec
  refine (hrun.guarded_of_forall hD).mono ?_
  rintro s a s' ⟨hstep, ha⟩
  exact ⟨hstep, hDC s a ha⟩

/-- 出力の後に接続し、終了の通知を受け取って、再生を書くまで。最初の broadcast は含まない。 -/
def quietExit : List Label := greeted 1 ++ [.notifyExit 7, .writer 1, .writer 1, .writer 1]

/-- 出力、接続、終了の順に進めば、終了の前の再生は出力の全体である。 -/
theorem output_delivered_quietExit :
    ∃ s, Run Step (.init 8 1) (.broadcast [65] :: quietExit) s ∧ (s.clients 1).writer = .exiting 7 ∧
      ∃ before, (s.clients 1).written = before ++ [.stdout (replayBytes [[65]])] := by
  obtain ⟨s, hexec, hexiting, hcap, hout⟩ :
      ∃ s, quietExit.foldlM Daemon.step ((Daemon.init 8 1).broadcast [65]) = some s ∧
        (s.clients 1).writer = .exiting 7 ∧ s.slot.ring.capacity = 8 ∧ s.output = [[65]] :=
    ⟨_, rfl, rfl, rfl, rfl⟩
  have hrest : Run (Guarded Step UndisturbedExit) ((Daemon.init 8 1).broadcast [65]) quietExit s := by
    refine guarded_of_exec (D := fun a => ∀ data, a ≠ .broadcast data) ?_ hexec (by simp [quietExit, greeted])
    intro _ a ha data hdata
    exact absurd hdata (ha data)
  have hrun : Run (Guarded Step UndisturbedExit) (.init 8 1) (.broadcast [65] :: quietExit) s :=
    .cons ⟨rfl, fun _ _ _ _ => rfl⟩ hrest
  have hready := (output_delivered 8 1 (by decide) _ s hrun (by rw [hout, hcap]; decide)).2 1 7 hexiting
  rw [hout] at hready
  exact ⟨s, hrun.mono fun _ _ _ hstep => hstep.1, hexiting, hready⟩

/-- 終了の前の再生を読んでから書くまでのあいだに、出力が来る実行。 -/
def lateOutput : List Label := greeted 1 ++ [.notifyExit 7, .writer 1, .writer 1, .broadcast [65], .writer 1]

/-- 終了の前の再生を読んだ後に来た出力は、書かれないまま `Exit` が書かれる。 -/
theorem not_output_delivered :
    ¬ ∀ (ringCapacity channelCapacity : Nat), 0 < channelCapacity → ∀ (as : List Label) (s : Daemon),
      Run Step (.init ringCapacity channelCapacity) as s → s.output.flatten.length ≤ s.slot.ring.capacity →
        s.Covered ∧ s.ExitComplete := by
  intro hall
  obtain ⟨s, hexec, hexiting, hwritten, hcap, hout⟩ :
      ∃ s, lateOutput.foldlM Daemon.step (Daemon.init 8 1) = some s ∧ (s.clients 1).writer = .exiting 7 ∧
        (s.clients 1).written = [.helloAck, .stdout []] ∧ s.slot.ring.capacity = 8 ∧ s.output = [[65]] :=
    ⟨_, rfl, rfl, rfl, rfl, rfl⟩
  have hfits : s.output.flatten.length ≤ s.slot.ring.capacity := by
    rw [hout, hcap]
    decide
  obtain ⟨before, hbefore⟩ := (hall 8 1 (by decide) _ s (Run.of_foldlM hexec) hfits).2 1 7 hexiting
  rw [hwritten, hout] at hbefore
  have hlast := congrArg List.getLast? hbefore
  rw [List.getLast?_concat] at hlast
  exact absurd hlast (by decide)

/-! ## 入力 -/

/-- 検査を終えたクライアントが作用し終えるまで占有者が入れ替わらなければ、
pty に作用するのは、そのときの世代のクライアントだけである。 -/
theorem input_exclusive (ringCapacity channelCapacity : Nat) (as : List Label) (s : Daemon)
    (hrun : Run (Guarded Step SettledInstall) (.init ringCapacity channelCapacity) as s) :
    ∀ e ∈ s.pty, e.Fresh :=
  (Daemon.Exclusive.run hrun).fresh

/-- 接続した後、1 バイトの `Stdin` を書き終えるまで。 -/
def typedOne : List Label :=
  [.writer 1, .writer 1, .readFrame 1 (some (.stdin [65])), .isCurrent 1, .ptyWrite 1 1, .ptyWrite 1 1]

/-- 書き終えてから次のクライアントが入り、その後に前のクライアントが読んだフレームは捨てられる。 -/
theorem input_exclusive_typedOne :
    ∃ s as, Run Step (.init 8 1) as s ∧ s.slot.generation = 2 ∧ s.pty = [⟨some 1, 1, .stdin [65]⟩] ∧
      ∀ e ∈ s.pty, e.Fresh := by
  obtain ⟨s₁, hexec₁, hreader, hgen⟩ :
      ∃ s, typedOne.foldlM Daemon.step (Daemon.init 8 1).install = some s ∧
        (s.clients 1).reader.active = false ∧ s.slot.generation = 1 :=
    ⟨_, rfl, rfl, rfl⟩
  have hlabels : ∀ s a, a ≠ Label.install → SettledInstall s a := fun _ _ ha hinstall => absurd hinstall ha
  have hrun₁ : Run (Guarded Step SettledInstall) (.init 8 1) (.install :: typedOne) s₁ :=
    .cons ⟨rfl, fun _ _ => rfl⟩ (guarded_of_exec hlabels hexec₁ (by simp [typedOne]))
  have hsettled : ∀ g, (s₁.clients g).reader.active = false := by
    intro g
    by_contra hactive
    have hg := (Daemon.Exclusive.run hrun₁).current g (Bool.eq_true_of_not_eq_false hactive)
    rw [hgen] at hg
    subst hg
    exact hactive hreader
  obtain ⟨s, hexec, hgen', hpty⟩ :
      ∃ s, [Label.readFrame 1 (some (.stdin [66])), .isCurrent 1].foldlM Daemon.step s₁.install = some s ∧
        s.slot.generation = 2 ∧ s.pty = [⟨some 1, 1, .stdin [65]⟩] := by
    cases hexec₁
    exact ⟨_, rfl, rfl, rfl⟩
  have hinstall : Guarded Step SettledInstall s₁ .install s₁.install := ⟨rfl, fun _ => hsettled⟩
  have hrun := hrun₁.append (.cons hinstall (guarded_of_exec hlabels hexec (by simp)))
  exact ⟨s, _, hrun.mono fun _ _ _ hstep => hstep.1, hgen', hpty, input_exclusive 8 1 _ s hrun⟩

/-- 2 バイトの書き込みの途中で、次のクライアントが入る実行。 -/
def halfTyped : List Label :=
  greeted 1 ++ [.readFrame 1 (some (.stdin [65, 66])), .isCurrent 1, .ptyWrite 1 1, .install, .ptyWrite 1 1]

/-- 書き込みの途中で占有者が入れ替わると、残りは次のクライアントの session に届く。 -/
theorem not_input_exclusive :
    ¬ ∀ (ringCapacity channelCapacity : Nat) (as : List Label) (s : Daemon),
      Run Step (.init ringCapacity channelCapacity) as s → ∀ e ∈ s.pty, e.Fresh := by
  intro hall
  obtain ⟨s, hexec, hpty⟩ :
      ∃ s, halfTyped.foldlM Daemon.step (Daemon.init 8 1) = some s ∧
        s.pty = [⟨some 1, 1, .stdin [65]⟩, ⟨some 1, 2, .stdin [66]⟩] :=
    ⟨_, rfl, rfl⟩
  have hfresh := hall 8 1 _ s (Run.of_foldlM hexec) ⟨some 1, 2, .stdin [66]⟩ (by simp [hpty])
  exact absurd (hfresh 1 rfl) (by decide)

end IsekaiTerminal.Tty
