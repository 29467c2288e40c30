import IsekaiTerminal.Recovery.Lemmas.Fsm

/-!
# isekai-ssh の接続の回復の性質
-/

namespace IsekaiTerminal.Recovery

open Lib Protocol ConnectRecoveryFsm

variable (nextDelay : NextDelay) (es : List RecoveryEvent)

/-! ## あきらめる条件 -/

theorem getLast?_recover_eq_giveUp_iff {nextDelay : NextDelay} {s s' : ConnectRecoveryFsm} {now : Millis}
    {cls : Option ConnectOutcomeClass} {shouldBootstrap hasRemoteCommand sessionEstablished : Bool} {seed : Nat}
    {fx : List RecoveryEffect}
    (h : FailureOutcome nextDelay s now cls shouldBootstrap hasRemoteCommand sessionEstablished seed s' fx) :
    fx.getLast? = some .giveUp ↔
      Refuses s.budget.lightweightRetries cls shouldBootstrap hasRemoteCommand sessionEstablished ∨
        FallsToBackoff s.gate s.budget.lightweightRetries now cls ∧ BudgetSpent s.budget.lostSince now := by
  cases h with
  | refused budget lines hr => simp [hr]
  | redeploys origin line hr hf _ => simp [hr, hf]
  | backsOff hr hf =>
      rcases backoff_cases nextDelay s now seed with ⟨hspent, budget, heq⟩ | ⟨hleft, delay, heq⟩
      · simp [heq, hf, hspent]
      · simp [heq, hr, hleft]

/-- あきらめた後は、何も起きない。 -/
theorem outputs_of_done {s : ConnectRecoveryFsm} (h : s.awaiting = .done) (later : List RecoveryEvent) :
    Reducer.outputs (ConnectRecoveryFsm.apply nextDelay) s later = [] := by
  induction later with
  | nil => rfl
  | cons e later ih =>
      have hp : Pending s.awaiting (some .giveUp) := by
        rw [h]
        exact Or.inl rfl
      have heq : s.apply nextDelay e = (s, []) := apply_of_not_answers hp id
      rw [Reducer.outputs_cons, heq, List.nil_append]
      exact ih

/-- 待っている返事には、次に何をするかを決める作用をちょうど 1 つ末尾に出し、ほかのイベントは何も変えない。
試行の失敗であきらめるのは、待機にも再配備にも進めないか、待機に進んで予算を使い切ったときである。 -/
theorem connectRecovery_giveUp_law :
    (∀ e, e.Answers (outstanding (effects nextDelay es)) →
      ∃ last, EndsWith ((after nextDelay es).apply nextDelay e).2 last) ∧
    (∀ e, ¬ e.Answers (outstanding (effects nextDelay es)) →
      (after nextDelay es).apply nextDelay e = (after nextDelay es, [])) ∧
    GivesUpWhen nextDelay Storm.firstBackoff es ∧
    (∀ token started now cls shouldBootstrap seed,
      let e := RecoveryEvent.attemptFailed token started now cls shouldBootstrap true true seed
      e.Answers (outstanding (effects nextDelay es)) →
        ((after nextDelay es).apply nextDelay e).2.getLast? = some .giveUp ∧
          ∀ later, Reducer.outputs (ConnectRecoveryFsm.apply nextDelay)
            ((after nextDelay es).apply nextDelay e).1 later = []) := by
  have htracks := tracks nextDelay es
  refine ⟨?_, ?_, ?_, ?_⟩
  · intro e he
    exact (answered_of_answers htracks.pending he).endsWith
  · intro e he
    exact apply_of_not_answers htracks.pending he
  · intro token started now cls shouldBootstrap hasRemoteCommand sessionEstablished seed _ _ he
    obtain ⟨hdone, houtcome⟩ := apply_attemptFailed nextDelay htracks.pending he
    obtain ⟨hmid, hfirst⟩ := counted_resetIfStable (htracks.midSession hdone) (htracks.firstBackoff hdone)
      started now cls
    have hiff := getLast?_recover_eq_giveUp_iff houtcome
    rwa [hmid, hfirst, counted_gate] at hiff
  · intro token started now cls shouldBootstrap seed _ he
    obtain ⟨_, houtcome⟩ := apply_attemptFailed nextDelay htracks.pending he
    have hrefuses (n : Nat) : Refuses n cls shouldBootstrap true true := .inr (.inr (.inl ⟨rfl, .inl rfl⟩))
    refine ⟨(getLast?_recover_eq_giveUp_iff houtcome).mpr (.inl (hrefuses _)), ?_⟩
    refine outputs_of_done nextDelay ?_
    generalize (after nextDelay es).apply nextDelay _ = r at houtcome ⊢
    generalize r.1 = s' at houtcome ⊢
    generalize r.2 = fx at houtcome
    cases houtcome with
    | refused => rfl
    | redeploys _ _ hno => exact absurd (hrefuses _) hno
    | backsOff hno => exact absurd (hrefuses _) hno

/-! ## 再配備をまたぐ嵐の時計 -/

/-- 揺らさない待ち時間。 -/
def steadyDelay : NextDelay := fun p attempt _ => p.baseDelay attempt

/-- 接続の途中で 6 回切れ、再配備に成功するまでのイベント。 -/
def redeployedRun : List RecoveryEvent :=
  (List.range 5).flatMap (fun i => [
    .attemptFailed ⟨2 * i⟩ 0 0 (some .midSessionDisconnect) true false false 0,
    .backoffElapsed ⟨2 * i + 1⟩]) ++
  [.attemptFailed ⟨10⟩ 0 0 (some .midSessionDisconnect) true false false 0,
    .redeployFinished ⟨11⟩ 0 0 .succeeded]

/-- 嵐の時計は、`LightweightExhausted` の再配備をしても、最初の待機から動き続ける。 -/
theorem not_givesUpWhen_sinceRedeploy :
    ¬ GivesUpWhen steadyDelay Storm.firstBackoffSinceRedeploy redeployedRun := by
  intro h
  have hiff := h ⟨12⟩ 86400000 86400000 (some .midSessionDisconnect) true false false 0
    ⟨_, _, _, _, _, _, _, rfl⟩
  have hgiveUp : ((after steadyDelay redeployedRun).apply steadyDelay (.attemptFailed ⟨12⟩ 86400000 86400000
      (some .midSessionDisconnect) true false false 0)).2.getLast? = some .giveUp := by decide +kernel
  have hlog : (storm steadyDelay redeployedRun).fail 86400000 86400000 (some .midSessionDisconnect) =
      ⟨1, some 0, none, true⟩ := by decide +kernel
  rw [hlog] at hiff
  rcases hiff.mp hgiveUp with (h | ⟨h, _⟩ | ⟨h, _⟩ | ⟨_, _, h⟩) | ⟨_, _, h, _⟩
  · cases h
  · simp at h
  · cases h
  · exact absurd h (by decide)
  · cases h

/-! ## 再配備の間隔 -/

/-- 安定した試行を挟まない 2 つの再配備は、時刻の上限で止まらない限り、先の再配備の番号で決まる間隔だけ離れる。
嵐の最初の再配備は待たされず、制限が閉じている間の失敗は、予算が残っていれば今の配備への再接続を待つ。 -/
theorem redeploys_spaced (hj : nextDelay.WithinJitter) :
    Spaced (redeploys nextDelay es) ∧
    (∀ token started now cls shouldBootstrap hasRemoteCommand sessionEstablished seed,
      let e := RecoveryEvent.attemptFailed token started now cls shouldBootstrap hasRemoteCommand
        sessionEstablished seed
      let log := (storm nextDelay es).fail started now cls
      e.Answers (outstanding (effects nextDelay es)) →
      ¬ Refuses log.midSession cls shouldBootstrap hasRemoteCommand sessionEstablished →
        (redeploys nextDelay es = [] ∨ wasStable started now →
          (cls = some .midSessionDisconnect → maxLightweightRetries < log.midSession) →
            ∃ token, .redeploy token ∈ ((after nextDelay es).apply nextDelay e).2) ∧
        (¬ ((after nextDelay es).gate.resetIfStable started now).due now →
          ¬ BudgetSpent log.firstBackoff now →
            ∃ n token delay, ((after nextDelay es).apply nextDelay e).2 =
              [.announceReconnect n, .backoff token delay])) := by
  have htracks := tracks nextDelay es
  have hgate := gateFollows hj es
  refine ⟨hgate.spaced, ?_⟩
  intro token started now cls shouldBootstrap hasRemoteCommand sessionEstablished seed _ _ he hno
  obtain ⟨hdone, houtcome⟩ := apply_attemptFailed nextDelay htracks.pending he
  obtain ⟨hmid, hfirst⟩ := counted_resetIfStable (htracks.midSession hdone) (htracks.firstBackoff hdone)
    started now cls
  rw [← hmid] at hno ⊢
  refine ⟨fun hfirstRedeploy hcls => ?_, fun hclosed hleft => ?_⟩
  · refine houtcome.redeploy_of_due hno ?_ hcls
    have hreset := hgate.resetIfStable started now
    have hempty : (if wasStable started now then [] else redeploys nextDelay es) = [] := by
      rcases hfirstRedeploy with h | h <;> simp [h]
    rw [hempty] at hreset
    rw [counted_gate]
    exact hreset.due now
  · rw [← hfirst] at hleft
    exact houtcome.backoff_of_closed hno (by rwa [counted_gate]) hleft

theorem steadyDelay_withinJitter : steadyDelay.WithinJitter := by
  intro p attempt seed h0 h1
  have hbase : p.baseDelay attempt ≤ p.max := by
    refine le_trans (Nat.mul_le_mul_right _ (min_le_right _ _)) ?_
    refine le_trans (Nat.mul_le_mul_right _ (min_le_left _ _)) ?_
    exact Nat.div_mul_le_self _ _
  have hnonneg : (0 : ℚ) ≤ p.baseDelay attempt := Nat.cast_nonneg _
  refine ⟨by unfold steadyDelay; nlinarith, le_min (by unfold steadyDelay; nlinarith) (by exact_mod_cast hbase)⟩

theorem redeploys_spaced_steadyDelay : Spaced (redeploys steadyDelay redeployedRun) :=
  (redeploys_spaced steadyDelay redeployedRun steadyDelay_withinJitter).1

/-- 時刻の上限で再配備すると、次の再配備の時刻も上限になり、同じ時刻に再配備できる。 -/
def saturatedRun : List RecoveryEvent :=
  [.attemptFailed ⟨0⟩ (2 ^ 64 - 1) (2 ^ 64 - 1) (some .unreachable) true false false 0,
    .redeployFinished ⟨1⟩ (2 ^ 64 - 1) 0 .succeeded,
    .attemptFailed ⟨2⟩ (2 ^ 64 - 1) (2 ^ 64 - 1) (some .unreachable) true false false 0]

theorem not_spaced_saturated : ¬ ∀ nextDelay : NextDelay, nextDelay.WithinJitter → ∀ es i j t u, i < j →
    (redeploys nextDelay es)[i]? = some t → (redeploys nextDelay es)[j]? = some u →
      t + 3 * redeployBaseMillis i / 4 ≤ u := by
  intro h
  have hlog : redeploys steadyDelay saturatedRun = [2 ^ 64 - 1, 2 ^ 64 - 1] := by decide +kernel
  have hle := h steadyDelay steadyDelay_withinJitter saturatedRun 0 1 (2 ^ 64 - 1) (2 ^ 64 - 1) (by decide)
    (by rw [hlog]; rfl) (by rw [hlog]; rfl)
  exact absurd hle (by decide)

end IsekaiTerminal.Recovery
