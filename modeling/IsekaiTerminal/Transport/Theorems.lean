import IsekaiTerminal.Transport.Lemmas.CandidatePool
import IsekaiTerminal.Transport.Lemmas.Fallback

/-!
# 候補の順次フォールバックと、候補のプールの主結果
-/

namespace IsekaiTerminal.Transport

open Protocol

variable {ε τ : Type}

/-- 走査が続いているうちは、試行の回数が上限に達していない。 -/
theorem Tracked.length_lt {candidates : List (SequentialRelayCandidate τ)} {coordinator : GenerationCoordinator}
    {past : List (Attempt ε τ)} {r : Rounds ε τ} (hT : Tracked candidates coordinator past r) :
    past.length < (coordinator.maxGenerationAdvances + 1) * candidates.length := by
  have hlen := hT.length_le
  have hoff := hT.offset_lt
  have hmul := Nat.mul_le_mul_right candidates.length hT.advances
  rw [Nat.add_mul, Nat.one_mul]
  omega

/-- 順次フォールバックは、候補の数と世代の予算で抑えられる回数の試行で必ず終わる。
サーバに届いたかもしれない試行の後は、それまでのどの世代よりも大きい世代で、次の候補を試す。 -/
theorem fallback_fenced (sessionId : SessionId) (max : Nat) (candidates : List (SequentialRelayCandidate τ))
    (outcomes : List (AttemptOutcome ε)) :
    let run := connectViaRelayResumableWithFallback (.withMaxGenerationAdvances sessionId max) candidates outcomes
    run.1.length ≤ (max + 1) * candidates.length ∧
      ((max + 1) * candidates.length ≤ outcomes.length → ∃ result, run.2 = .finished result) ∧
      Safe candidates run.1 ∧
      ∀ before a source, run.1 = before ++ [a] → a.outcome.failure? = some (.mustResume source) →
        run.2 = .finished (match lastAmbiguous before with
          | some target => .finishViaResume target sessionId a.candidate.candidateId
          | none => .failed (.stoppedEarly a.candidate.candidateId (.mustResume source))) := by
  intro run
  by_cases hpos : 0 < candidates.length
  · have hrun : run = drive candidates hpos (.start (.withMaxGenerationAdvances sessionId max)) outcomes :=
      dif_pos hpos
    have hstart : Tracked candidates (.withMaxGenerationAdvances sessionId max) []
        (.start (.withMaxGenerationAdvances sessionId max) : Rounds ε τ) := Tracked.start _ rfl hpos
    rw [hrun]
    rcases drive_tracked (h := hpos) hstart outcomes with
      ⟨r, htry, hlen, hT⟩ | ⟨before, r, outcome, result, hfin, htrace, hT, hend⟩
    · rw [List.nil_append] at hT
      have hlt := hT.length_lt
      refine ⟨hlt.le, ?_, hT.safe, ?_⟩
      · intro henough
        rw [hlen] at hlt
        exact absurd henough (Nat.not_le.mpr hlt)
      · intro before a source htrace hmust
        refine absurd hmust (hT.not_mustResume ?_ source)
        rw [htrace]
        exact List.mem_append_right _ List.mem_cons_self
    · rw [List.nil_append] at htrace
      have hlt := hT.length_lt
      rw [htrace, hfin]
      refine ⟨?_, fun _ => ⟨result, rfl⟩, hT.safe_concat outcome, ?_⟩
      · rw [List.length_append, List.length_singleton]
        exact hlt
      · intro before' a source htrace' hmust
        obtain ⟨rfl, ha⟩ := List.append_inj' htrace' rfl
        cases ha
        have hres : r.attempt candidates hpos outcome = _ := Rounds.attempt_mustResume hmust
        rw [hend, hT.ambiguous, hT.session, Sum.inr.injEq] at hres
        rw [hres]
        rfl
  · have hrun : run = ([], .finished (.failed .noCandidates)) := dif_neg hpos
    rw [hrun]
    refine ⟨Nat.zero_le _, fun _ => ⟨_, rfl⟩, ⟨by simp, .nil, .nil, .nil, .nil⟩, ?_⟩
    intro before a source htrace
    simp at htrace

/-- 1 番目の候補が応答を返さずに曖昧になり、2 番目の候補が確立済みと答えたときは、1 番目の候補へ resume する。 -/
theorem fallback_fenced_lostAck :
    (connectViaRelayResumableWithFallback (.withMaxGenerationAdvances (Bytes.fill 16 7) 2)
      [⟨"a", 10⟩, ⟨"b", 20⟩]
      [.handshakeFailed .ackRead (), .handshakeFailed (.rejected .attachAlreadyEstablished) ()]).2 =
      .finished (.finishViaResume 10 (Bytes.fill 16 7) "b") :=
  (fallback_fenced (Bytes.fill 16 7) 2 [⟨"a", 10⟩, ⟨"b", 20⟩]
    [.handshakeFailed .ackRead (), .handshakeFailed (.rejected .attachAlreadyEstablished) ()]).2.2.2
    [_] _ () rfl rfl

/-! ## 候補のプール -/

section Pool

open CandidatePool

/-- 受け付けた呼び出しの後のプール `p'`。時計の読みは、最初が `clock 0`、最後が `clock batch.candidates.length` である。 -/
structure AcceptedBatch (p : CandidatePool) (clock : Nat → Nat) (batch : CandidateDraftBatch) (p' : CandidatePool) :
    Prop where
  generation : p'.currentGeneration = some batch.generation
  drafted : ∀ k, (p'.get? k).isSome → ∃ d ∈ batch.candidates, d.key = k
  /-- 組は、プールに残っていた記録と、その鍵の候補を合わせたものである。 -/
  merged : ∀ k, p.NoLeftover (clock 0) k → (p'.get? k).isSome → p'.held k = p.held k ⊔ joinOf batch.candidates k
  /-- 合わせた有効期間が 0 の鍵は残らない。 -/
  lasting : ∀ k, p.NoLeftover (clock 0) k → (p'.get? k).isSome →
    lifetimeOf (p.held k ⊔ joinOf batch.candidates k) ≠ 0
  /-- 合わせた有効期間が呼び出しの長さを超える鍵は残る。 -/
  complete : ∀ k, p.NoLeftover (clock 0) k → (∃ d ∈ batch.candidates, d.key = k) →
    ((clock batch.candidates.length - clock 0 : Nat) : WithTop Nat) <
      lifetimeOf (p.held k ⊔ joinOf batch.candidates k) → (p'.get? k).isSome

theorem CandidatePool.WellFormed.acceptedBatch {p : CandidatePool} (h : p.WellFormed) {clock : Nat → Nat}
    (hclock : Monotone clock) (batch : CandidateDraftBatch) :
    AcceptedBatch p clock batch ((p.refreshed clock batch).pruneExpired (clock batch.candidates.length)) where
  generation := rfl
  drafted k hk := by
    obtain ⟨r, hr⟩ := Option.isSome_iff_exists.1 hk
    exact ((accepted_get? h).1 hr).2.1
  merged k _ hk := accepted_held h hk
  lasting k _ hk := by
    obtain ⟨r, hr⟩ := Option.isSome_iff_exists.1 hk
    rw [← accepted_held h hk, lifetimeOf_held hr]
    exact accepted_lifetime_ne_zero h hclock hr
  complete k _ hdrafted hlife := accepted_isSome h hclock hdrafted hlife

/-- 候補の順序と重複は、由来、優先度、有効期間に影響しない。 -/
theorem replaceGeneration_reorder {p : CandidatePool} (h : p.WellFormed) (clock clock' : Nat → Nat)
    {batch batch' : CandidateDraftBatch} (hgen : batch.generation = batch'.generation)
    (hmem : ∀ d, d ∈ batch.candidates ↔ d ∈ batch'.candidates) {k : CandidateKey} {r r' : CandidateRecord}
    (hr : (p.replaceGeneration clock batch).2.get? k = some r)
    (hr' : (p.replaceGeneration clock' batch').2.get? k = some r') :
    r.candidate.origins = r'.candidate.origins ∧ r.candidate.priority = r'.candidate.priority ∧
      r.candidate.validity = r'.candidate.validity := by
  by_cases hnew : ∀ current ∈ p.currentGeneration, current ≤ batch.generation
  · have hnew' : ∀ current ∈ p.currentGeneration, current ≤ batch'.generation := by rwa [← hgen]
    rw [replaceGeneration_of_le hnew] at hr
    rw [replaceGeneration_of_le hnew'] at hr'
    have hwf := (h.refreshed clock batch).pruneExpired (clock batch.candidates.length)
    have hwf' := (h.refreshed clock' batch').pruneExpired (clock' batch'.candidates.length)
    have hheld := accepted_held h (Option.isSome_iff_exists.2 ⟨r, hr⟩)
    have hheld' := accepted_held h (Option.isSome_iff_exists.2 ⟨r', hr'⟩)
    rw [held_of_get? hr] at hheld
    rw [held_of_get? hr', ← joinOf_congr hmem] at hheld'
    exact eq_of_provenance_eq (hwf.stored _ (Lib.mem_of_assoc?_eq_some hr)).origins
      (hwf'.stored _ (Lib.mem_of_assoc?_eq_some hr')).origins (WithBot.coe_injective (hheld.trans hheld'.symm))
  · push Not at hnew
    obtain ⟨current, hcurrent, hlt⟩ := hnew
    rw [replaceGeneration_of_lt clock hcurrent hlt] at hr
    rw [replaceGeneration_of_lt clock' hcurrent (hgen ▸ hlt), hr] at hr'
    cases hr'
    exact ⟨rfl, rfl, rfl⟩

/-- どの呼び出しの列の後でも、古い世代は断られ、受け付けた候補は鍵ごとに合わさる。番号は重ならず、鍵が残る間は同じ鍵を指し、
別の鍵に使い回されない。期限の来た候補が返ることはない。 -/
theorem candidatePool_algebra (calls later : List (Call × (Nat → Nat))) (clock clock' : Nat → Nat)
    (batch batch' : CandidateDraftBatch) (call : Call) :
    let p := CandidatePool.new.run calls
    (∀ current, p.currentGeneration = some current → batch.generation < current →
        p.replaceGeneration clock batch = (.error ⟨current, batch.generation⟩, p)) ∧
      (Monotone clock → (∀ current ∈ p.currentGeneration, current ≤ batch.generation) →
        ∃ snapshot p', p.replaceGeneration clock batch = (.ok snapshot, p') ∧ AcceptedBatch p clock batch p') ∧
      (batch.generation = batch'.generation → (∀ d, d ∈ batch.candidates ↔ d ∈ batch'.candidates) → ∀ k r r',
        (p.replaceGeneration clock batch).2.get? k = some r → (p.replaceGeneration clock' batch').2.get? k = some r' →
          r.candidate.origins = r'.candidate.origins ∧ r.candidate.priority = r'.candidate.priority ∧
            r.candidate.validity = r'.candidate.validity) ∧
      (p.entries.map fun e => e.2.candidate.id).Nodup ∧
      (∀ k i, p.idOf? k = some i → (Stays k p later → (p.run later).idOf? k = some i) ∧
        ∀ k', (p.run later).idOf? k' = some i → k' = k) ∧
      (∀ k r, p.get? k = some r → r.candidate.origins.Pairwise (· < ·)) ∧
      ∀ c ∈ (p.step clock call).1, ∃ r, (p.step clock call).2.get? c.route.key = some r ∧ r.candidate = c ∧
        ∀ ttl, c.validity = .lease ttl → call.endsAt clock < r.observedAt + ttl := by
  intro p
  have h : p.WellFormed := WellFormed.new.run calls
  refine ⟨fun current => replaceGeneration_of_lt clock, fun hclock hnew => ?_, fun hgen hmem k r r' => ?_, h.ids,
    fun k i hi => ⟨fun hstays => ?_, fun k' hk' => ?_⟩, fun k r hr => ?_, fun c hc => ?_⟩
  · exact ⟨_, _, replaceGeneration_of_le hnew, h.acceptedBatch hclock batch⟩
  · exact replaceGeneration_reorder h clock clock' hgen hmem
  · rw [idOf?_of_stays h later hstays, hi]
  · obtain hold | hle := (ids_run h later).2 k' i hk'
    · exact h.key_eq_of_id_eq hold hi
    · exact absurd (h.id_lt hi) (not_lt.2 hle)
  · exact (h.stored _ (Lib.mem_of_assoc?_eq_some hr)).origins
  · obtain ⟨r, hget, rfl, halive⟩ := returned_step h clock call hc
    have hstored := (h.step clock call).stored _ (Lib.mem_of_assoc?_eq_some hget)
    refine ⟨r, hget, rfl, fun ttl httl => halive _ ?_⟩
    rw [hstored.expires, httl]
    rfl

def relayRoute : CandidateRoute := .relay ⟨List.replicate 32 0, rfl⟩ (.v4 0 443) ⟨"helper".toList⟩

def relayDraft (providerId : List Char) (validity : CandidateValidity) : CandidateDraft :=
  { route := relayRoute, origin := ⟨.configRelay, providerId⟩, priority := ⟨0⟩, validity }

/-- 期限のない候補が残っていれば、有効期間 0 の候補だけが届いた鍵も残る。 -/
theorem exists_key_kept :
    ¬∀ (calls : List (Call × (Nat → Nat))) (now : Nat) (batch : CandidateDraftBatch),
      (∀ current ∈ (CandidatePool.new.run calls).currentGeneration, current ≤ batch.generation) → ∀ k,
        (((CandidatePool.new.run calls).replaceGeneration (fun _ => now) batch).2.get? k).isSome = true ↔
          ∃ d ∈ batch.candidates, d.key = k ∧ d.validity ≠ .lease 0 := by
  intro h
  have hkey := h [(.replaceGeneration ⟨0, [relayDraft [] .static]⟩, fun _ => 0)] 0 ⟨1, [relayDraft [] (.lease 0)]⟩
    (by decide) relayRoute.key
  obtain ⟨d, hd, -, hne⟩ := hkey.1 (by decide)
  rw [List.mem_singleton.1 hd] at hne
  exact hne rfl

/-- 前の呼び出しの期限が来た記録も、除く前に届いた候補と合わさる。 -/
theorem origins_replaceGeneration_expired :
    (((CandidatePool.new.run [(.replaceGeneration ⟨0, [relayDraft ['a'] (.lease 1)]⟩, fun _ => 0)]).replaceGeneration
      (fun _ => 5) ⟨1, [relayDraft ['b'] (.lease 1)]⟩).2.get? relayRoute.key).map (·.candidate.origins) =
      some [⟨.configRelay, ['a']⟩, ⟨.configRelay, ['b']⟩] := by
  decide

end Pool

end IsekaiTerminal.Transport
