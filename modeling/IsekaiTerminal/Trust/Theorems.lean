import IsekaiTerminal.Trust.Lemmas.HostKey

/-!
# SSH ホスト鍵の照合の性質

いくつの照合がどの順に交互に進み、どの読み書きが失敗しても、置き場を見ずに他の指紋を見逃す操作がなければ、
ピン留めした指紋は変わらず、受け入れた鍵はピン留めした鍵か、利用者が承認した鍵である。
-/

namespace IsekaiTerminal.Trust

open Lib

/-- 置き場を見ずに他の指紋を見逃す操作のない実行では、返した結果と尋ねた照合は正しく、どの操作もピン留めした指紋を保ち、
承認した鍵はピン留めされるか、置き場が変わらない。 -/
theorem sound_of_run {hosts : Hosts} {as : List Action} {p : State}
    (h : Run (Guarded State.Steps Sighted) (State.start hosts) as p) :
    (∀ v ∈ p.shared.verdicts, v.Sound) ∧ (∀ c ∈ p.shared.prompts, c.Askable) ∧
      hosts.Keeps p.shared.hosts ∧
      (∀ a p', Guarded State.Steps Sighted p a p' → p.shared.hosts.Keeps p'.shared.hosts) ∧
      ∀ i k c p', p.next? i = some (.recheck c) → Guarded State.Steps Sighted p (.run i k) p' →
        c.Persists p.shared.hosts p'.shared.hosts := by
  obtain ⟨hgood, hready⟩ := State.invariant_of_run h
  refine ⟨hgood.verdicts, hgood.prompts, hgood.keeps, ?_, ?_⟩
  · rintro a p' ⟨hstep, hC⟩
    cases a with
    | call c =>
        obtain ⟨ops, hcall, -⟩ := Pool.step_call hstep
        obtain ⟨heq, -⟩ := Prod.mk.inj (Option.some.inj hcall)
        rw [← heq]
        exact .refl _
    | run i k =>
        obtain ⟨op, hnext, hshared, -⟩ := Pool.step_run hstep
        rw [hshared]
        exact (Shared.advances hgood (hready op (Pool.mem_pending hnext)) (hC op hnext)).keeps
  · rintro i k c p' hnext ⟨hstep, hC⟩
    obtain ⟨op, hnext', hshared, -⟩ := Pool.step_run hstep
    obtain rfl := Option.some.inj (hnext.symm.trans hnext')
    rw [hshared]
    exact Shared.persists_recheck (hC _ hnext)

/-! ## 実行の例 -/

/-- 支障のない操作の選択。 -/
def ready : Choice := ⟨.ok, true, "2026-01-01T00:00:00Z", some true⟩

/-- 同じ新しいホストの 2 つの照合が、どちらも利用者の承認を得て、前のものが指紋 `a` をピン留めする。 -/
def untilPinned : List Action :=
  [.call ⟨"h:22", "a"⟩, .call ⟨"h:22", "b"⟩, .run 0 ready, .run 1 ready, .run 0 ready, .run 1 ready, .run 0 ready]

/-- 後の照合も置き場を見られる。 -/
def rejectedRun : List Action := untilPinned ++ [.run 1 ready]

/-- 後の照合がロックを取れない。 -/
def swallowedRun : List Action := untilPinned ++ [.run 1 { ready with read := .failed }]

/-- 他のホストの項目がある置き場を、承認の後で空と読み違える。 -/
def lostRun : List Action :=
  [.call ⟨"h:22", "b"⟩, .run 0 ready, .run 0 ready, .run 0 { ready with read := .absent }]

/-- 他のホストの項目だけがある置き場。 -/
def otherHost : Hosts := Function.update (fun _ => none) "g:22" (some ⟨"c", "", ""⟩)

theorem any_runs :
    ((rejectedRun.foldlM State.step (State.start fun _ => none)).any fun p =>
      p.shared.verdicts.map (·.outcome) = [.accepted, .rejected .changed] ∧
        p.shared.hosts.pinned "h:22" = some "a") = true ∧
    ((swallowedRun.foldlM State.step (State.start fun _ => none)).any fun p =>
      p.shared.verdicts.getLast? =
        some ⟨⟨"h:22", "b", none, some none, true⟩, .accepted, some "a"⟩) = true ∧
    ((lostRun.foldlM State.step (State.start otherHost)).any fun p =>
      p.shared.hosts.pinned "g:22" = none) = true := by
  decide +kernel

/-- 置き場をいつも読める操作。 -/
def Readable : Action → Prop
  | .call _ => True
  | .run _ k => k.read = .ok

theorem sighted_of_readable (p : State) {a : Action} (h : Readable a) : Sighted p a := by
  cases a with
  | call c => trivial
  | run i k =>
      have hread : k.read = .ok := h
      intro op _
      cases op with
      | resolveLocked c => exact fun habsent => (by cases hread.symm.trans habsent)
      | resolveReadOnly c => exact fun habsent => (by cases hread.symm.trans habsent)
      | confirmNewHost c => trivial
      | recheck c => simp [Op.Sighted, hread]

theorem sound_rejectedRun : ∃ p, Run (Guarded State.Steps Sighted) (State.start fun _ => none) rejectedRun p ∧
    p.shared.verdicts.map (·.outcome) = [.accepted, .rejected .changed] ∧ (∀ v ∈ p.shared.verdicts, v.Sound) := by
  obtain ⟨p, hp, hfacts⟩ := (Option.any_eq_true _ _).mp any_runs.1
  have hreadable : ∀ a ∈ rejectedRun, Readable a := by
    simp [rejectedRun, untilPinned, Readable, ready]
  have hrun : Run (Guarded State.Steps Sighted) (State.start fun _ => none) rejectedRun p := by
    refine ((Run.of_foldlM hp).guarded_of_forall hreadable).mono ?_
    exact fun s a s' hs => ⟨hs.1, sighted_of_readable s hs.2⟩
  exact ⟨p, hrun, (of_decide_eq_true hfacts).1, (sound_of_run hrun).1⟩

/-- 承認の後でロックを取れない照合が、他の指紋がピン留めされたホストの鍵を受け入れる。
空と読み違えた置き場への保存が、他のホストのピン留めを失わせる。 -/
theorem exists_run_overlooked :
    (∃ p, Run State.Steps (State.start fun _ => none) swallowedRun p ∧
      ∃ v ∈ p.shared.verdicts, v.outcome = .accepted ∧ v.pinned = some "a" ∧ v.check.fingerprint = "b" ∧ ¬ v.Sound) ∧
    ∃ p, Run State.Steps (State.start otherHost) lostRun p ∧ ¬ otherHost.Keeps p.shared.hosts := by
  obtain ⟨-, hswallowed, hlost⟩ := any_runs
  obtain ⟨p, hp, hfacts⟩ := (Option.any_eq_true _ _).mp hswallowed
  obtain ⟨p', hp', hfacts'⟩ := (Option.any_eq_true _ _).mp hlost
  have hlast := of_decide_eq_true hfacts
  refine ⟨⟨p, Run.of_foldlM hp, _, List.mem_of_getLast? hlast, rfl, rfl, rfl, ?_⟩, p', Run.of_foldlM hp', ?_⟩
  · intro hsound
    rcases hsound.accepted rfl with hlooked | ⟨-, ha⟩
    · cases hlooked
    · exact absurd (ha "a" rfl) (by decide)
  · intro hkeeps
    have hp := hkeeps "g:22" "c" rfl
    rw [of_decide_eq_true hfacts'] at hp
    cases hp

end IsekaiTerminal.Trust
