import IsekaiTerminal.Transport.Fallback

/-!
# 走査の不変条件

1 回の試行の後に走査が続くのは、候補を飛ばしたときと世代を進めたときだけである。
それぞれについて、行われた試行の列とループの変数との関係が保たれることを示す。
-/

namespace IsekaiTerminal.Transport

open Protocol

variable {ε τ : Type}

/-! ## 世代 -/

theorem GenerationCoordinator.checkedNext_lt {g g' : ConnectionGeneration} (h : checkedNext g = .ok g') :
    g < g' := by
  unfold checkedNext at h
  split at h
  · rename_i hlt
    cases h
    rw [UInt64.lt_iff_toNat_lt, UInt64.toNat_add]
    have hone : (1 : UInt64).toNat = 1 := rfl
    rw [hone, Nat.mod_eq_of_lt hlt]
    exact Nat.lt_succ_self _
  · cases h

theorem GenerationCoordinator.lt_max {g a b : ConnectionGeneration} (h : g < a ∨ g < b) : g < max a b := by
  have hmax : max a b = if a ≤ b then b else a := rfl
  rw [hmax]
  split
  · rename_i hle
    exact h.elim (fun hg => UInt64.lt_of_lt_of_le hg hle) id
  · rename_i hle
    exact h.elim id fun hg => UInt64.lt_trans hg (UInt64.not_le.mp hle)

theorem GenerationCoordinator.advanceGeneration_ok {c c' : GenerationCoordinator}
    {serverFloor : Option ConnectionGeneration} (h : c.advanceGeneration serverFloor = .ok c') :
    c'.sessionId = c.sessionId ∧ c'.maxGenerationAdvances = c.maxGenerationAdvances ∧
      c'.generationAdvances = c.generationAdvances + 1 ∧ c.generationAdvances < c.maxGenerationAdvances ∧
      c.currentGeneration < c'.currentGeneration ∧
      ∀ floor, serverFloor = some floor → floor < c'.currentGeneration := by
  unfold advanceGeneration at h
  split at h
  · cases h
  · rename_i hbudget
    cases hself : checkedNext c.currentGeneration with
    | error e => simp [hself, bind, Except.bind] at h
    | ok fromSelf =>
        have hlt := checkedNext_lt hself
        cases serverFloor with
        | none =>
            simp only [hself, bind, Except.bind, pure, Except.pure] at h
            cases h
            exact ⟨rfl, rfl, rfl, by omega, hlt, by simp⟩
        | some floor =>
            cases hfloor : checkedNext floor with
            | error e => simp [hself, hfloor, bind, Except.bind] at h
            | ok fromFloor =>
                have hflt := checkedNext_lt hfloor
                simp only [hself, hfloor, bind, Except.bind, pure, Except.pure] at h
                cases h
                refine ⟨rfl, rfl, rfl, by omega, lt_max (.inl hlt), ?_⟩
                rintro _ ⟨⟩
                exact lt_max (.inr hflt)

section

variable {candidates : List (SequentialRelayCandidate τ)} {h : 0 < candidates.length}

/-! ## 1 回の試行 -/

/-- 走査が続くのは、候補を飛ばしたときか、世代を進めたときである。 -/
theorem Rounds.attempt_inl {r r' : Rounds ε τ} {outcome : AttemptOutcome ε}
    (hr : r.attempt candidates h outcome = .inl r') :
    (∃ f, outcome.failure? = some f ∧ f.mayRetryPreFencing = true ∧ r.offset + 1 < candidates.length ∧
        ∃ failures, r' = { r with offset := r.offset + 1, failures }) ∨
      ∃ f c, outcome.failure? = some f ∧ f.mayRetryPreFencing = false ∧
        (f.isAmbiguous = true ∨ f.serverFloor?.isSome = true) ∧
        r.coordinator.advanceGeneration f.serverFloor? = .ok c ∧
        r' = { r with
          coordinator := c
          startIndex := (r.idx candidates + 1) % candidates.length
          offset := 0
          lastAmbiguousTarget :=
            if f.isAmbiguous then some (r.candidate candidates h).target else r.lastAmbiguousTarget } := by
  have hskip : ∀ {f}, r.skip candidates h f = .inl r' → r.offset + 1 < candidates.length ∧
      ∃ failures, r' = { r with offset := r.offset + 1, failures } := by
    intro f hf
    unfold Rounds.skip at hf
    split at hf
    · cases hf
      exact ⟨‹_›, _, rfl⟩
    · cases hf
  have hadvance : ∀ {q : Rounds ε τ} {f floor}, q.advance candidates h f floor = .inl r' →
      ∃ c, q.coordinator.advanceGeneration floor = .ok c ∧
        r' = { q with coordinator := c, startIndex := (q.idx candidates + 1) % candidates.length, offset := 0 } := by
    intro q f floor hf
    unfold Rounds.advance at hf
    split at hf
    · cases hf
      exact ⟨_, ‹_›, rfl⟩
    · cases hf
  cases outcome with
  | bindFailed source =>
      obtain ⟨hlt, hr'⟩ := hskip hr
      exact .inl ⟨_, rfl, rfl, hlt, hr'⟩
  | attached control => cases control <;> cases hr
  | handshakeFailed stage source =>
      simp only [Rounds.attempt] at hr
      cases hf : AttemptFailure.ofConnectAttemptError stage source with
      | retryablePreAttach s =>
          simp only [hf] at hr
          obtain ⟨hlt, hr'⟩ := hskip hr
          exact .inl ⟨_, congrArg some hf, rfl, hlt, hr'⟩
      | ambiguousAfterAttach s =>
          simp only [hf] at hr
          obtain ⟨c, hc, hr'⟩ := hadvance hr
          exact .inr ⟨_, c, congrArg some hf, rfl, .inl rfl, hc, hr'⟩
      | staleAttempt s g =>
          simp only [hf] at hr
          obtain ⟨c, hc, hr'⟩ := hadvance hr
          exact .inr ⟨_, c, congrArg some hf, rfl, .inr rfl, hc, hr'⟩
      | mustResume s =>
          simp only [hf] at hr
          split at hr <;> cases hr
      | _ => simp [hf] at hr

/-- `MUST_RESUME` の試行は、最後に曖昧になった宛先があればそこへの resume に、なければ失敗に終わる。 -/
theorem Rounds.attempt_mustResume {r : Rounds ε τ} {outcome : AttemptOutcome ε} {source : ε}
    (hf : outcome.failure? = some (.mustResume source)) :
    r.attempt candidates h outcome = .inr (match r.lastAmbiguousTarget with
      | some resumeTarget => .finishViaResume resumeTarget r.coordinator.sessionId (r.candidate candidates h).candidateId
      | none => .failed (.stoppedEarly (r.candidate candidates h).candidateId (.mustResume source))) := by
  cases outcome with
  | bindFailed s => cases hf
  | attached control => cases hf
  | handshakeFailed stage s =>
      have hclass : AttemptFailure.ofConnectAttemptError stage s = .mustResume source := Option.some.inj hf
      simp only [Rounds.attempt, hclass]
      cases r.lastAmbiguousTarget <;> rfl

/-! ## 試行の列 -/

variable (candidates) in
/-- 行われた試行の列とループの変数の関係。 -/
structure Tracked (coordinator : GenerationCoordinator) (past : List (Attempt ε τ)) (r : Rounds ε τ) : Prop where
  safe : Safe candidates past
  session : r.coordinator.sessionId = coordinator.sessionId
  max : r.coordinator.maxGenerationAdvances = coordinator.maxGenerationAdvances
  advances : r.coordinator.generationAdvances ≤ coordinator.maxGenerationAdvances
  offset_lt : r.offset < candidates.length
  length_le : past.length ≤ r.coordinator.generationAdvances * candidates.length + r.offset
  behind : ∀ a ∈ past, a.round.generation ≤ r.coordinator.currentGeneration
  fenced : ∀ a ∈ past, a.unsafeToRepeat → a.FencedBelow r.coordinator.currentGeneration
  last : ∀ a, past.getLast? = some a →
    r.idx candidates = (a.idx + 1) % candidates.length ∧ (a.preAttach → r.coordinator.currentRound = a.round)
  visited : ∀ a ∈ past, a.round = r.coordinator.currentRound →
    ∃ k < r.offset, a.idx = (r.startIndex + k) % candidates.length
  ambiguous : r.lastAmbiguousTarget = lastAmbiguous past
  continued : ∀ a ∈ past, a.preAttach ∨ a.unsafeToRepeat

theorem Tracked.start (coordinator : GenerationCoordinator) (hfresh : coordinator.generationAdvances = 0)
    (hpos : 0 < candidates.length) : Tracked candidates coordinator [] (.start coordinator : Rounds ε τ) where
  safe := ⟨by simp, .nil, .nil, .nil, .nil⟩
  session := rfl
  max := rfl
  advances := by simp [Rounds.start, hfresh]
  offset_lt := hpos
  length_le := Nat.zero_le _
  behind := by simp
  fenced := by simp
  last := by simp
  visited := by simp
  ambiguous := rfl
  continued := by simp

theorem isChain_concat {α : Type} {R : α → α → Prop} {l : List α} {a : α} (hl : l.IsChain R)
    (ha : ∀ b, l.getLast? = some b → R b a) : (l ++ [a]).IsChain R := by
  refine List.isChain_append.mpr ⟨hl, .singleton a, ?_⟩
  rintro b hb _ ⟨⟩
  exact ha b hb

theorem pairwise_concat {α : Type} {R : α → α → Prop} {l : List α} {a : α} (hl : l.Pairwise R)
    (ha : ∀ b ∈ l, R b a) : (l ++ [a]).Pairwise R := by
  refine List.pairwise_append.mpr ⟨hl, List.pairwise_singleton R a, ?_⟩
  rintro b hb _ (_ | ⟨_, ⟨⟩⟩)
  exact ha b hb

theorem mod_add_ne {n s k m : Nat} (hk : k < m) (hm : m < n) : (s + k) % n ≠ (s + m) % n := by
  intro heq
  have hmod : k % n = m % n := Nat.ModEq.add_left_cancel' s heq
  rw [Nat.mod_eq_of_lt (hk.trans hm), Nat.mod_eq_of_lt hm] at hmod
  exact hk.ne hmod

/-- これから行う試行を加えても、列の性質は保たれる。 -/
theorem Tracked.safe_concat {coordinator : GenerationCoordinator} {past : List (Attempt ε τ)} {r : Rounds ε τ}
    (hT : Tracked candidates coordinator past r) (outcome : AttemptOutcome ε) :
    Safe candidates (past ++ [r.record candidates h outcome]) where
  listed := by
    intro a ha
    rcases List.mem_append.mp ha with ha | ha
    · exact hT.safe.listed a ha
    · rw [List.mem_singleton.mp ha]
      exact List.getElem?_eq_getElem _
  fenced := pairwise_concat hT.safe.fenced hT.fenced
  steady := isChain_concat hT.safe.steady fun b hb => (hT.last b hb).2
  ring := isChain_concat hT.safe.ring fun b hb => (hT.last b hb).1
  once := by
    refine pairwise_concat hT.safe.once ?_
    intro b hb hround
    obtain ⟨k, hk, hidx⟩ := hT.visited b hb hround
    rw [hidx]
    exact mod_add_ne hk hT.offset_lt

theorem lastAmbiguous_concat (past : List (Attempt ε τ)) (a : Attempt ε τ) :
    lastAmbiguous (past ++ [a]) = if a.ambiguous then some a.candidate.target else lastAmbiguous past := by
  unfold lastAmbiguous
  rw [List.filter_append]
  by_cases ha : a.ambiguous = true
  · simp [ha]
  · simp [ha]

/-- 候補を飛ばしても、周回は変わらない。 -/
theorem Tracked.skip {coordinator : GenerationCoordinator} {past : List (Attempt ε τ)} {r : Rounds ε τ}
    (hT : Tracked candidates coordinator past r) {outcome : AttemptOutcome ε} {f : AttemptFailure ε}
    (hf : outcome.failure? = some f) (hpre : f.mayRetryPreFencing = true)
    (hlt : r.offset + 1 < candidates.length) (failures : List (SequentialFailure ε)) :
    Tracked candidates coordinator (past ++ [r.record candidates h outcome])
      { r with offset := r.offset + 1, failures } where
  safe := hT.safe_concat outcome
  session := hT.session
  max := hT.max
  advances := hT.advances
  offset_lt := hlt
  length_le := by
    have hlen := hT.length_le
    simp only [List.length_append, List.length_singleton]
    omega
  behind := by
    intro a ha
    rcases List.mem_append.mp ha with ha | ha
    · exact hT.behind a ha
    · rw [List.mem_singleton.mp ha]
      exact UInt64.le_refl _
  fenced := by
    intro a ha hrisky
    rcases List.mem_append.mp ha with ha | ha
    · exact hT.fenced a ha hrisky
    · rw [List.mem_singleton.mp ha] at hrisky
      -- 接続の前の失敗は、曖昧でも `STALE_GENERATION` でもない。
      cases f with
      | retryablePreAttach s =>
          simp [Attempt.unsafeToRepeat, Attempt.ambiguous, Attempt.serverFloor?, Rounds.record, hf,
            AttemptFailure.isAmbiguous, AttemptFailure.serverFloor?] at hrisky
      | _ => cases hpre
  last := by
    intro a ha
    rw [List.getLast?_append, List.getLast?_singleton, Option.some_or, Option.some.injEq] at ha
    subst ha
    refine ⟨?_, fun _ => rfl⟩
    simp [Rounds.record, Rounds.idx, Nat.add_assoc]
  visited := by
    intro a ha hround
    rcases List.mem_append.mp ha with ha | ha
    · obtain ⟨k, hk, hidx⟩ := hT.visited a ha hround
      exact ⟨k, Nat.lt_succ_of_lt hk, hidx⟩
    · rw [List.mem_singleton.mp ha]
      exact ⟨r.offset, Nat.lt_succ_self _, rfl⟩
  ambiguous := by
    have hamb : (r.record candidates h outcome).ambiguous = false := by
      cases f with
      | retryablePreAttach s => simp [Attempt.ambiguous, Rounds.record, hf, AttemptFailure.isAmbiguous]
      | _ => cases hpre
    rw [lastAmbiguous_concat, hamb]
    exact hT.ambiguous
  continued := by
    intro a ha
    rcases List.mem_append.mp ha with ha | ha
    · exact hT.continued a ha
    · rw [List.mem_singleton.mp ha]
      exact .inl ⟨f, hf, hpre⟩

/-- 世代を進めると、これまでのどの試行よりも大きい世代で、失敗した候補の次から始まる。 -/
theorem Tracked.advance {coordinator : GenerationCoordinator} {past : List (Attempt ε τ)} {r : Rounds ε τ}
    (hT : Tracked candidates coordinator past r) {outcome : AttemptOutcome ε} {f : AttemptFailure ε}
    {c : GenerationCoordinator} (hf : outcome.failure? = some f) (hpre : f.mayRetryPreFencing = false)
    (hrisky : f.isAmbiguous = true ∨ f.serverFloor?.isSome = true)
    (hc : r.coordinator.advanceGeneration f.serverFloor? = .ok c) :
    Tracked candidates coordinator (past ++ [r.record candidates h outcome])
      { r with
        coordinator := c
        startIndex := (r.idx candidates + 1) % candidates.length
        offset := 0
        lastAmbiguousTarget :=
          if f.isAmbiguous then some (r.candidate candidates h).target else r.lastAmbiguousTarget } := by
  obtain ⟨hsession, hmax, hadv, hbudget, hgen, hfloor⟩ := GenerationCoordinator.advanceGeneration_ok hc
  have hbehind : ∀ a ∈ past ++ [r.record candidates h outcome], a.round.generation < c.currentGeneration := by
    intro a ha
    rcases List.mem_append.mp ha with ha | ha
    · exact UInt64.lt_of_le_of_lt (hT.behind a ha) hgen
    · rw [List.mem_singleton.mp ha]
      exact hgen
  exact {
    safe := hT.safe_concat outcome
    session := hsession.trans hT.session
    max := hmax.trans hT.max
    advances := by
      have hm := hT.max
      show c.generationAdvances ≤ _
      omega
    offset_lt := h
    length_le := by
      have hlen := hT.length_le
      have hlt := hT.offset_lt
      show _ ≤ c.generationAdvances * _ + 0
      rw [hadv, Nat.add_mul, Nat.one_mul, List.length_append, List.length_singleton]
      omega
    behind := fun a ha => UInt64.le_of_lt (hbehind a ha)
    fenced := by
      intro a ha hrisky
      refine ⟨hbehind a ha, ?_⟩
      intro floor hfl
      rcases List.mem_append.mp ha with ha | ha
      · exact UInt64.lt_trans ((hT.fenced a ha hrisky).2 floor hfl) hgen
      · rw [List.mem_singleton.mp ha] at hfl
        exact hfloor floor (by simpa [Attempt.serverFloor?, Rounds.record, hf] using hfl)
    last := by
      intro a ha
      rw [List.getLast?_append, List.getLast?_singleton, Option.some_or, Option.some.injEq] at ha
      subst ha
      refine ⟨by simp [Rounds.record, Rounds.idx], ?_⟩
      rintro ⟨f', hf', hpre'⟩
      have hff : f' = f := Option.some.inj (hf'.symm.trans hf)
      rw [hff, hpre] at hpre'
      cases hpre'
    visited := by
      intro a ha hround
      have hlt := hbehind a ha
      rw [hround] at hlt
      exact absurd hlt (UInt64.lt_irrefl _)
    ambiguous := by
      rw [lastAmbiguous_concat, ← hT.ambiguous]
      simp [Attempt.ambiguous, Rounds.record, hf]
    continued := by
      intro a ha
      rcases List.mem_append.mp ha with ha | ha
      · exact hT.continued a ha
      · rw [List.mem_singleton.mp ha]
        refine .inr ?_
        simpa [Attempt.unsafeToRepeat, Attempt.ambiguous, Attempt.serverFloor?, Rounds.record, hf] using hrisky }

/-- 続いている走査の試行に、`MUST_RESUME` はない。 -/
theorem Tracked.not_mustResume {coordinator : GenerationCoordinator} {past : List (Attempt ε τ)} {r : Rounds ε τ}
    (hT : Tracked candidates coordinator past r) {a : Attempt ε τ} (ha : a ∈ past) (source : ε) :
    a.outcome.failure? ≠ some (.mustResume source) := by
  intro hmust
  rcases hT.continued a ha with ⟨f, hf, hpre⟩ | hrisky
  · rw [hmust, Option.some.injEq] at hf
    subst hf
    cases hpre
  · simp [Attempt.unsafeToRepeat, Attempt.ambiguous, Attempt.serverFloor?, hmust, AttemptFailure.isAmbiguous,
      AttemptFailure.serverFloor?] at hrisky

/-! ## 実行 -/

/-- 走査は、続いているか、直前までの関係が成り立つところで最後の試行をして終わっている。 -/
theorem drive_tracked {coordinator : GenerationCoordinator} {past : List (Attempt ε τ)} {r : Rounds ε τ}
    (hT : Tracked candidates coordinator past r) (outcomes : List (AttemptOutcome ε)) :
    (∃ r', (drive candidates h r outcomes).2 = .trying r' ∧
        (drive candidates h r outcomes).1.length = outcomes.length ∧
        Tracked candidates coordinator (past ++ (drive candidates h r outcomes).1) r') ∨
      ∃ before r' outcome result, (drive candidates h r outcomes).2 = .finished result ∧
        past ++ (drive candidates h r outcomes).1 = before ++ [r'.record candidates h outcome] ∧
        Tracked candidates coordinator before r' ∧ r'.attempt candidates h outcome = .inr result := by
  induction outcomes generalizing past r with
  | nil => exact .inl ⟨r, rfl, rfl, by simpa [drive] using hT⟩
  | cons outcome outcomes ih =>
      cases hr : r.attempt candidates h outcome with
      | inr result =>
          refine .inr ⟨past, r, outcome, result, ?_, ?_, hT, hr⟩
          · simp [drive, hr]
          · simp [drive, hr]
      | inl r' =>
          have hT' : Tracked candidates coordinator (past ++ [r.record candidates h outcome]) r' := by
            rcases Rounds.attempt_inl hr with ⟨f, hf, hpre, hlt, failures, rfl⟩ | ⟨f, c, hf, hpre, hrisky, hc, rfl⟩
            · exact hT.skip hf hpre hlt failures
            · exact hT.advance hf hpre hrisky hc
          have hcons : past ++ (drive candidates h r (outcome :: outcomes)).1 =
              past ++ [r.record candidates h outcome] ++ (drive candidates h r' outcomes).1 := by
            simp [drive, hr]
          have hend : (drive candidates h r (outcome :: outcomes)).2 = (drive candidates h r' outcomes).2 := by
            simp [drive, hr]
          rw [hcons, hend]
          rcases ih hT' with ⟨r'', htry, hlen, htracked⟩ | hfin
          · refine .inl ⟨r'', htry, ?_, htracked⟩
            simp [drive, hr, hlen]
          · exact .inr hfin

end

end IsekaiTerminal.Transport
