import IsekaiTerminal.Recovery.Fsm

/-!
# 回復の reducer の 1 回の適用
-/

namespace IsekaiTerminal.Recovery

open Lib Protocol ConnectRecoveryFsm

section

variable {nextDelay : NextDelay} {s : ConnectRecoveryFsm} {started now : Millis} {seed : Nat}
  {cls : Option ConnectOutcomeClass} {shouldBootstrap hasRemoteCommand sessionEstablished : Bool}

/-! ## 待機 -/

theorem budgetSpent_iff (firstBackoff : Option Millis) (now : Millis) : BudgetSpent firstBackoff now ↔
    RecoveryBudget.spent now (firstBackoff.getD now) := by
  rw [RecoveryBudget.spent_iff]
  cases firstBackoff with
  | none => exact iff_of_false (fun ⟨_, h, _⟩ => nomatch h) (Nat.not_le_of_lt (Nat.lt_add_of_pos_right (by norm_num)))
  | some at_ => exact ⟨fun ⟨_, hat, h⟩ => Option.some.inj hat ▸ h, fun h => ⟨at_, rfl, h⟩⟩

theorem nextBackoff_spent {b : RecoveryBudget} (h : BudgetSpent b.lostSince now) :
    b.nextBackoff nextDelay now seed = ({ b with lostSince := some (b.lostSince.getD now) }, none) :=
  if_pos ((budgetSpent_iff _ _).mp h)

theorem nextBackoff_left {b : RecoveryBudget} (h : ¬ BudgetSpent b.lostSince now) :
    b.nextBackoff nextDelay now seed = (⟨b.attempt + 1, some (b.lostSince.getD now), b.lightweightRetries⟩,
      some (nextDelay reconnectBackoff b.attempt seed)) :=
  if_neg fun hle => h ((budgetSpent_iff _ _).mpr hle)

/-- 待機は、予算が残っていれば `Backoff` を、使い切っていれば `GiveUp` を出す。 -/
theorem backoff_cases (nextDelay : NextDelay) (s : ConnectRecoveryFsm) (now : Millis) (seed : Nat) :
    (BudgetSpent s.budget.lostSince now ∧ ∃ budget, s.backoff nextDelay now seed =
      ({ s with budget, awaiting := .done }, [.announceReconnect (s.budget.attempt + 1), .giveUp])) ∨
    (¬ BudgetSpent s.budget.lostSince now ∧ ∃ delay, s.backoff nextDelay now seed =
      ({ s with
          budget := ⟨s.budget.attempt + 1, some (s.budget.lostSince.getD now), s.budget.lightweightRetries⟩
          nextToken := s.nextToken + 1
          awaiting := .backoff ⟨s.nextToken⟩ },
        [.announceReconnect (s.budget.attempt + 1), .backoff ⟨s.nextToken⟩ delay])) := by
  unfold ConnectRecoveryFsm.backoff
  by_cases h : BudgetSpent s.budget.lostSince now
  · rw [nextBackoff_spent h]
    exact Or.inl ⟨h, _, rfl⟩
  · rw [nextBackoff_left h]
    exact Or.inr ⟨h, _, rfl⟩

/-! ## 試行の失敗 -/

/-- `MidSessionDisconnect` を数えた状態。 -/
def counted (s : ConnectRecoveryFsm) (cls : Option ConnectOutcomeClass) : ConnectRecoveryFsm :=
  if cls = some .midSessionDisconnect then
    { s with budget := { s.budget with lightweightRetries := s.budget.lightweightRetries + 1 } }
  else s

@[simp] theorem counted_gate (s : ConnectRecoveryFsm) (cls : Option ConnectOutcomeClass) :
    (counted s cls).gate = s.gate := by
  unfold counted
  split <;> rfl

inductive FailureOutcome (nextDelay : NextDelay) (s : ConnectRecoveryFsm) (now : Millis)
    (cls : Option ConnectOutcomeClass) (shouldBootstrap hasRemoteCommand sessionEstablished : Bool) (seed : Nat) :
    ConnectRecoveryFsm → List RecoveryEffect → Prop
  | refused (budget : RecoveryBudget) (lines : List RecoveryLog) :
      Refuses s.budget.lightweightRetries cls shouldBootstrap hasRemoteCommand sessionEstablished →
      FailureOutcome nextDelay s now cls shouldBootstrap hasRemoteCommand sessionEstablished seed
        { s with budget, awaiting := .done } (lines.map .log ++ [.giveUp])
  | redeploys (origin : RedeployOrigin) (line : RecoveryLog) :
      ¬ Refuses s.budget.lightweightRetries cls shouldBootstrap hasRemoteCommand sessionEstablished →
      ¬ FallsToBackoff s.gate s.budget.lightweightRetries now cls →
      (line = .lightweightExhaustedRedeploying ↔ origin = .lightweightExhausted) →
      FailureOutcome nextDelay s now cls shouldBootstrap hasRemoteCommand sessionEstablished seed
        { s with
          gate := s.gate.recordAttempt nextDelay now seed
          nextToken := s.nextToken + 1
          awaiting := .redeploy ⟨s.nextToken⟩ origin }
        [.log line, .redeploy ⟨s.nextToken⟩]
  | backsOff :
      ¬ Refuses s.budget.lightweightRetries cls shouldBootstrap hasRemoteCommand sessionEstablished →
      FallsToBackoff s.gate s.budget.lightweightRetries now cls →
      FailureOutcome nextDelay s now cls shouldBootstrap hasRemoteCommand sessionEstablished seed
        (s.backoff nextDelay now seed).1 (s.backoff nextDelay now seed).2

/-- 再配備の制限が開いていれば再配備し、閉じていれば待機する。 -/
theorem FailureOutcome.gated (nextDelay : NextDelay) (s : ConnectRecoveryFsm) (now : Millis) (seed : Nat) (origin : RedeployOrigin)
    (line : RecoveryLog)
    (hno : ¬ Refuses s.budget.lightweightRetries cls shouldBootstrap hasRemoteCommand sessionEstablished)
    (hcls : ¬ (cls = some .midSessionDisconnect ∧ s.budget.lightweightRetries ≤ maxLightweightRetries))
    (hline : line = .lightweightExhaustedRedeploying ↔ origin = .lightweightExhausted) :
    let r :=
      if (s.gate.tryConsume nextDelay now seed).2 then
        ((({ s with gate := (s.gate.tryConsume nextDelay now seed).1 } : ConnectRecoveryFsm).redeploy origin).1,
          [.log line,
            (({ s with gate := (s.gate.tryConsume nextDelay now seed).1 } : ConnectRecoveryFsm).redeploy origin).2])
      else ({ s with gate := (s.gate.tryConsume nextDelay now seed).1 } : ConnectRecoveryFsm).backoff nextDelay now seed
    FailureOutcome nextDelay s now cls shouldBootstrap hasRemoteCommand sessionEstablished seed r.1 r.2 := by
  by_cases hdue : s.gate.due now
  · simp only [RedeployGate.tryConsume, hdue, if_true]
    exact .redeploys origin line hno (fun h => h.elim (fun hg => hg hdue) hcls) hline
  · simp only [RedeployGate.tryConsume, hdue, if_false, Bool.false_eq_true]
    exact .backsOff hno (.inl hdue)

theorem remoteCommandForbidsRetryAfter_iff {c : ConnectOutcomeClass} :
    remoteCommandForbidsRetryAfter c hasRemoteCommand sessionEstablished = true ↔ hasRemoteCommand = true ∧
      (sessionEstablished = true ∨ some c ∈ [some ConnectOutcomeClass.midSessionDisconnect, some .unknown]) := by
  cases c <;> cases hasRemoteCommand <;> cases sessionEstablished <;>
    simp [remoteCommandForbidsRetryAfter, remoteCommandForbidsRetry]

/-- 軽い再接続を持たない分類の失敗。 -/
theorem recover_rebootstrap {c : ConnectOutcomeClass} (hc : c ≠ .midSessionDisconnect) :
    FailureOutcome nextDelay s now (some c) shouldBootstrap hasRemoteCommand sessionEstablished seed
      (s.recover nextDelay now (some c) shouldBootstrap hasRemoteCommand sessionEstablished seed).1
      (s.recover nextDelay now (some c) shouldBootstrap hasRemoteCommand sessionEstablished seed).2 := by
  have hmem : some c ∈ [some ConnectOutcomeClass.staleTrust, some .unreachable, some .unknown] := by
    cases c <;> simp at hc ⊢
  have haction : decideConnectFailureRecovery (some c) shouldBootstrap =
      if shouldBootstrap then .rebootstrapAndRetry else .autoBootstrapDisabled := by
    cases c <;> first | exact absurd rfl hc | rfl
  have hcls (n : Nat) : ¬ (some c = some .midSessionDisconnect ∧ n ≤ maxLightweightRetries) :=
    fun h => hc (Option.some.inj h.1)
  unfold recover
  rw [haction]
  by_cases hboot : shouldBootstrap = true
  · by_cases hforbid : remoteCommandForbidsRetryAfter c hasRemoteCommand sessionEstablished = true
    · simp only [hboot, hforbid, if_true]
      exact .refused s.budget [.remoteCommandNotRetried]
        (.inr (.inr (.inl (remoteCommandForbidsRetryAfter_iff.mp hforbid))))
    · have hno : ¬ Refuses s.budget.lightweightRetries (some c) shouldBootstrap hasRemoteCommand
          sessionEstablished := by
        rintro (h | ⟨_, h⟩ | h | ⟨h, _⟩)
        · cases h
        · rw [hboot] at h
          cases h
        · exact hforbid (remoteCommandForbidsRetryAfter_iff.mpr h)
        · exact hc (Option.some.inj h)
      have hgated := FailureOutcome.gated nextDelay s now seed .rebootstrap .rebootstrapDecision hno (hcls _) (by simp)
      simpa only [hboot, if_true, hforbid, if_false, Bool.false_eq_true] using hgated
  · simp only [hboot, if_false, Bool.false_eq_true]
    exact .refused s.budget [.autoBootstrapDisabled] (.inr (.inl ⟨hmem, by simp⟩))

/-- 接続の途中で切れた失敗。 -/
theorem recover_lightweight :
    FailureOutcome nextDelay (counted s (some .midSessionDisconnect)) now (some .midSessionDisconnect)
      shouldBootstrap hasRemoteCommand sessionEstablished seed
      (s.recover nextDelay now (some .midSessionDisconnect) shouldBootstrap hasRemoteCommand
        sessionEstablished seed).1
      (s.recover nextDelay now (some .midSessionDisconnect) shouldBootstrap hasRemoteCommand
        sessionEstablished seed).2 := by
  have haction : decideConnectFailureRecovery (some .midSessionDisconnect) shouldBootstrap =
      .retryConnectLightweight := rfl
  have hcounted : counted s (some .midSessionDisconnect) = { s with budget := { s.budget with
      lightweightRetries := s.budget.lightweightRetries + 1 } } := if_pos rfl
  rw [hcounted]
  unfold recover
  rw [haction]
  by_cases hforbid : remoteCommandForbidsRetryAfter .midSessionDisconnect hasRemoteCommand sessionEstablished = true
  · simp only [hforbid, if_true]
    exact .refused s.budget [.remoteCommandNotRetried]
      (.inr (.inr (.inl (remoteCommandForbidsRetryAfter_iff.mp hforbid))))
  · simp only [hforbid, if_false, Bool.false_eq_true]
    have hno (h : maxLightweightRetries < s.budget.lightweightRetries + 1 → shouldBootstrap = true) :
        ¬ Refuses (s.budget.lightweightRetries + 1) (some .midSessionDisconnect) shouldBootstrap hasRemoteCommand
          sessionEstablished := by
      rintro (h' | ⟨h', _⟩ | h' | ⟨_, hboot, hcount⟩)
      · cases h'
      · simp at h'
      · exact hforbid (remoteCommandForbidsRetryAfter_iff.mpr h')
      · rw [h hcount] at hboot
        cases hboot
    by_cases hcount : maxLightweightRetries < s.budget.lightweightRetries + 1
    · by_cases hboot : shouldBootstrap = false
      · simp only [hcount, hboot, if_true]
        exact .refused _ [.lightweightExhaustedNoBootstrap] (.inr (.inr (.inr ⟨rfl, rfl, hcount⟩)))
      · obtain rfl : shouldBootstrap = true := by simpa using hboot
        have hgated := FailureOutcome.gated nextDelay { s with budget := { s.budget with
          lightweightRetries := s.budget.lightweightRetries + 1 } } now seed .lightweightExhausted
          .lightweightExhaustedRedeploying (hno fun _ => rfl) (fun h => absurd hcount (Nat.not_lt_of_le h.2))
          (by simp)
        simpa only [hcount, if_true, if_false, Bool.true_eq_false] using hgated
    · simp only [hcount, if_false]
      exact .backsOff (hno fun h => absurd h hcount) (.inr ⟨rfl, Nat.le_of_not_lt hcount⟩)

theorem recover_outcome (nextDelay : NextDelay) (s : ConnectRecoveryFsm) (now : Millis)
    (cls : Option ConnectOutcomeClass) (shouldBootstrap hasRemoteCommand sessionEstablished : Bool) (seed : Nat) :
    FailureOutcome nextDelay (counted s cls) now cls shouldBootstrap hasRemoteCommand sessionEstablished seed
      (s.recover nextDelay now cls shouldBootstrap hasRemoteCommand sessionEstablished seed).1
      (s.recover nextDelay now cls shouldBootstrap hasRemoteCommand sessionEstablished seed).2 := by
  cases cls with
  | none => exact .refused s.budget [] (.inl rfl)
  | some c =>
      by_cases hc : c = .midSessionDisconnect
      · subst hc
        exact recover_lightweight
      · rw [counted, if_neg fun h => hc (Option.some.inj h)]
        exact recover_rebootstrap hc

end

/-!
## 再配備の制限と再配備の記録の対応
-/

/-! ## 回復の状態と嵐の記録の対応 -/

section

variable {nextDelay : NextDelay} {s : ConnectRecoveryFsm} {e : RecoveryEvent} {now started : Millis} {seed : Nat}
  {cls : Option ConnectOutcomeClass} {shouldBootstrap hasRemoteCommand sessionEstablished : Bool}
  {fx new : List RecoveryEffect} {log : Storm} {o : Option RecoveryEffect}

/-! ## 返事 -/

/-- 状態が待っている返事は、作用 `o` への返事である。 -/
def Pending : Awaiting → Option RecoveryEffect → Prop
  | .notStarted, o => o = none
  | .attempt token, o => ∃ silent, o = some (.attempt token silent)
  | .redeploy token _, o => o = some (.redeploy token)
  | .backoff token, o => ∃ delay, o = some (.backoff token delay)
  | .done, o => o = some .giveUp ∨ o = some .failWithRedeployError

theorem outstanding_append {last : RecoveryEffect} (h : EndsWith new last) :
    outstanding (fx ++ new) = some last := by
  obtain ⟨init, rfl, hlast, _⟩ := h
  simp [outstanding, List.filter_append, hlast]

theorem ne_nil_of_endsWith {last : RecoveryEffect} (h : EndsWith new last) : new ≠ [] := by
  obtain ⟨init, rfl, _, _⟩ := h
  simp

/-- 待っている返事が届いた適用。 -/
inductive Answered (nextDelay : NextDelay) (s : ConnectRecoveryFsm) : RecoveryEvent → Prop
  | attempt (token : Token) (started now : Millis) (cls : Option ConnectOutcomeClass)
      (shouldBootstrap hasRemoteCommand sessionEstablished : Bool) (seed : Nat) :
      s.awaiting = .attempt token →
      s.apply nextDelay (.attemptFailed token started now cls shouldBootstrap hasRemoteCommand
          sessionEstablished seed) =
        (s.resetIfStable started now).recover nextDelay now cls shouldBootstrap hasRemoteCommand
          sessionEstablished seed →
      Answered nextDelay s (.attemptFailed token started now cls shouldBootstrap hasRemoteCommand
        sessionEstablished seed)
  | redeploy (token : Token) (origin : RedeployOrigin) (now : Millis) (seed : Nat) (result : RedeployResult) :
      s.awaiting = .redeploy token origin →
      s.apply nextDelay (.redeployFinished token now seed result) =
        s.onRedeployFinished nextDelay origin now seed result →
      Answered nextDelay s (.redeployFinished token now seed result)
  | backoff (token : Token) : s.awaiting = .backoff token →
      s.apply nextDelay (.backoffElapsed token) = ((s.attempt false).1, [.rebuildIntent, (s.attempt false).2]) →
      Answered nextDelay s (.backoffElapsed token)

theorem answered_of_answers (hp : Pending s.awaiting o) (h : e.Answers o) : Answered nextDelay s e := by
  cases ha : s.awaiting with
  | notStarted =>
      rw [ha] at hp
      obtain rfl := hp
      cases h
  | attempt token =>
      rw [ha] at hp
      obtain ⟨silent, rfl⟩ := hp
      obtain ⟨started, now, cls, shouldBootstrap, hasRemoteCommand, sessionEstablished, seed, rfl⟩ := h
      exact .attempt token started now cls shouldBootstrap hasRemoteCommand sessionEstablished seed ha
        (by simp [apply, ha, onAttemptFailed])
  | redeploy token origin =>
      rw [ha] at hp
      obtain rfl := hp
      obtain ⟨now, seed, result, rfl⟩ := h
      exact .redeploy token origin now seed result ha (by simp [apply, ha])
  | backoff token =>
      rw [ha] at hp
      obtain ⟨delay, rfl⟩ := hp
      obtain rfl := h
      exact .backoff token ha (by simp [apply, ha])
  | done =>
      rw [ha] at hp
      rcases hp with rfl | rfl <;> cases h

/-- 待っている試行の失敗への適用。 -/
theorem apply_attemptFailed (nextDelay : NextDelay) {token : Token} (hp : Pending s.awaiting o)
    (h : (RecoveryEvent.attemptFailed token started now cls shouldBootstrap hasRemoteCommand sessionEstablished
      seed).Answers o) :
    s.awaiting ≠ .done ∧
      FailureOutcome nextDelay (counted (s.resetIfStable started now) cls) now cls shouldBootstrap hasRemoteCommand
        sessionEstablished seed
        (s.apply nextDelay (.attemptFailed token started now cls shouldBootstrap hasRemoteCommand
          sessionEstablished seed)).1
        (s.apply nextDelay (.attemptFailed token started now cls shouldBootstrap hasRemoteCommand
          sessionEstablished seed)).2 := by
  have hanswered : Answered nextDelay s (.attemptFailed token started now cls shouldBootstrap hasRemoteCommand
    sessionEstablished seed) := answered_of_answers hp h
  cases hanswered with
  | attempt _ _ _ _ _ _ _ _ ha heq =>
      rw [heq]
      exact ⟨by simp [ha], recover_outcome nextDelay _ now cls _ _ _ seed⟩

theorem apply_of_not_answers (hp : Pending s.awaiting o) (h : ¬ e.Answers o) : s.apply nextDelay e = (s, []) := by
  unfold apply
  split
  · rename_i current token started now cls shouldBootstrap hasRemoteCommand sessionEstablished seed ha
    rw [ha] at hp
    obtain ⟨silent, rfl⟩ := hp
    refine if_neg fun hc => h ?_
    exact ⟨started, now, cls, shouldBootstrap, hasRemoteCommand, sessionEstablished, seed, by rw [hc]⟩
  · rename_i current origin token now seed result ha
    rw [ha] at hp
    obtain rfl := hp
    exact if_neg fun hc => h ⟨now, seed, result, by rw [hc]⟩
  · rename_i current token ha
    rw [ha] at hp
    obtain ⟨delay, rfl⟩ := hp
    exact if_neg fun hc => h (by rw [hc]; rfl)
  · rfl

/-! ## 嵐の記録との対応 -/

structure Tracks (fx : List RecoveryEffect) (log : Storm) (s : ConnectRecoveryFsm) : Prop where
  pending : Pending s.awaiting (outstanding fx)
  midSession : s.awaiting ≠ .done → s.budget.lightweightRetries = log.midSession
  firstBackoff : s.awaiting ≠ .done → s.budget.lostSince = log.firstBackoff
  origin : ∀ token origin, s.awaiting = .redeploy token origin →
    (log.lightweightRedeploy = true ↔ origin = .lightweightExhausted)

theorem Tracks.of_done (hnew : EndsWith new .giveUp ∨ EndsWith new .failWithRedeployError)
    (hs : s.awaiting = .done) : Tracks (fx ++ new) log s := by
  refine ⟨?_, fun h => absurd hs h, fun h => absurd hs h, fun token origin h => ?_⟩
  · rw [hs]
    exact hnew.imp outstanding_append outstanding_append
  · rw [hs] at h
    cases h

theorem endsWith_backoff_giveUp (n : Nat) : EndsWith [.announceReconnect n, .giveUp] .giveUp :=
  ⟨[.announceReconnect n], rfl, rfl, by simp [RecoveryEffect.isNext]⟩

theorem endsWith_backoff (n : Nat) (token : Token) (delay : Duration) :
    EndsWith [.announceReconnect n, .backoff token delay] (.backoff token delay) :=
  ⟨[.announceReconnect n], rfl, rfl, by simp [RecoveryEffect.isNext]⟩

theorem endsWith_refused (lines : List RecoveryLog) : EndsWith (lines.map .log ++ [.giveUp]) .giveUp :=
  ⟨lines.map .log, rfl, rfl, by simp [RecoveryEffect.isNext]⟩

theorem endsWith_redeploy (line : RecoveryLog) (token : Token) :
    EndsWith [.log line, .redeploy token] (.redeploy token) :=
  ⟨[.log line], rfl, rfl, by simp [RecoveryEffect.isNext]⟩

/-- 待機を始めた適用は、嵐の時計が止まっていれば動かし始める。 -/
theorem Tracks.of_backoff (hmid : s.budget.lightweightRetries = log.midSession)
    (hfirst : s.budget.lostSince = log.firstBackoff) {log' : Storm}
    (hmid' : log'.midSession = (log.backoff now (s.backoff nextDelay now seed).2).midSession)
    (hfirst' : log'.firstBackoff = (log.backoff now (s.backoff nextDelay now seed).2).firstBackoff) :
    Tracks (fx ++ (s.backoff nextDelay now seed).2) log' (s.backoff nextDelay now seed).1 := by
  rcases backoff_cases nextDelay s now seed with ⟨_, budget, heq⟩ | ⟨_, delay, heq⟩
  · rw [heq]
    exact .of_done (.inl (endsWith_backoff_giveUp _)) rfl
  · rw [heq] at hmid' hfirst' ⊢
    refine ⟨⟨delay, outstanding_append (endsWith_backoff _ _ _)⟩, fun _ => ?_, fun _ => ?_, nofun⟩
    · rw [hmid']
      simpa [Storm.backoff] using hmid
    · rw [hfirst']
      simp [Storm.backoff, hfirst]

/-- 失敗を数えた状態は、失敗を数えた記録に対応する。 -/
theorem counted_resetIfStable (hmid : s.budget.lightweightRetries = log.midSession)
    (hfirst : s.budget.lostSince = log.firstBackoff) (started now : Millis) (cls : Option ConnectOutcomeClass) :
    (counted (s.resetIfStable started now) cls).budget.lightweightRetries = (log.fail started now cls).midSession ∧
      (counted (s.resetIfStable started now) cls).budget.lostSince = (log.fail started now cls).firstBackoff := by
  unfold counted Storm.fail resetIfStable RecoveryBudget.resetIfStable
  by_cases hstable : wasStable started now
  · by_cases hcls : cls = some .midSessionDisconnect <;>
      simp [hstable, hcls, RecoveryBudget.default, Storm.calm]
  · by_cases hcls : cls = some .midSessionDisconnect <;> simp [hstable, hcls, hmid, hfirst]

theorem Storm.backoff_of_notMem (log : Storm) (now : Millis) (h : ∀ n, .announceReconnect n ∉ fx) :
    log.backoff now fx = log := by
  refine if_neg fun hany => ?_
  obtain ⟨x, hx, hm⟩ := List.any_eq_true.mp hany
  cases x with
  | announceReconnect n => exact h n hx
  | _ => simp at hm

theorem Tracks.recover (hmid : s.budget.lightweightRetries = log.midSession)
    (hfirst : s.budget.lostSince = log.firstBackoff) {s' : ConnectRecoveryFsm}
    (h : FailureOutcome nextDelay s now cls shouldBootstrap hasRemoteCommand sessionEstablished seed s' new) :
    Tracks (fx ++ new)
      { log.backoff now new with lightweightRedeploy := decide (.log .lightweightExhaustedRedeploying ∈ new) } s' := by
  cases h with
  | refused budget lines _ => exact .of_done (.inl (endsWith_refused lines)) rfl
  | redeploys origin line _ _ hline =>
      rw [Storm.backoff_of_notMem log now (by simp)]
      refine ⟨outstanding_append (endsWith_redeploy _ _), fun _ => hmid, fun _ => hfirst, fun token origin' ho => ?_⟩
      obtain ⟨_, rfl⟩ := Awaiting.redeploy.inj ho
      simpa [eq_comm] using hline
  | backsOff _ _ => exact .of_backoff hmid hfirst (by dsimp only) (by dsimp only)

theorem backoff_endsWith (nextDelay : NextDelay) (s : ConnectRecoveryFsm) (now : Millis) (seed : Nat) :
    ∃ last, EndsWith (s.backoff nextDelay now seed).2 last := by
  rcases backoff_cases nextDelay s now seed with ⟨_, budget, heq⟩ | ⟨_, delay, heq⟩
  · rw [heq]
    exact ⟨_, endsWith_backoff_giveUp _⟩
  · rw [heq]
    exact ⟨_, endsWith_backoff _ _ _⟩

theorem FailureOutcome.endsWith {s' : ConnectRecoveryFsm}
    (h : FailureOutcome nextDelay s now cls shouldBootstrap hasRemoteCommand sessionEstablished seed s' new) :
    ∃ last, EndsWith new last := by
  cases h with
  | refused budget lines _ => exact ⟨_, endsWith_refused lines⟩
  | redeploys origin line _ _ _ => exact ⟨_, endsWith_redeploy _ _⟩
  | backsOff _ _ => exact backoff_endsWith nextDelay s now seed

theorem endsWith_singleton {last : RecoveryEffect} (h : last.isNext = true) : EndsWith [last] last :=
  ⟨[], rfl, h, nofun⟩

theorem onRedeployFinished_endsWith (nextDelay : NextDelay) (s : ConnectRecoveryFsm) (origin : RedeployOrigin)
    (now : Millis) (seed : Nat) (result : RedeployResult) :
    ∃ last, EndsWith (s.onRedeployFinished nextDelay origin now seed result).2 last := by
  cases result with
  | succeeded => exact ⟨_, endsWith_singleton rfl⟩
  | retryableFailure => exact backoff_endsWith nextDelay s now seed
  | fatal => exact ⟨_, endsWith_singleton rfl⟩

theorem Answered.endsWith (h : Answered nextDelay s e) : ∃ last, EndsWith (s.apply nextDelay e).2 last := by
  cases h with
  | attempt token started now cls shouldBootstrap hasRemoteCommand sessionEstablished seed _ heq =>
      rw [heq]
      exact (recover_outcome nextDelay _ now cls _ _ _ seed).endsWith
  | redeploy token origin now seed result _ heq =>
      rw [heq]
      exact onRedeployFinished_endsWith nextDelay s origin now seed result
  | backoff token _ heq =>
      rw [heq]
      exact ⟨_, [.rebuildIntent], rfl, rfl, by simp [RecoveryEffect.isNext]⟩

theorem Tracks.redeploySucceeded {token : Token} {origin : RedeployOrigin} (h : Tracks fx log s)
    (ha : s.awaiting = .redeploy token origin) :
    Tracks (fx ++ [.attempt ⟨s.nextToken⟩ true])
      (if log.lightweightRedeploy then { log with midSession := 0, firstBackoffSinceRedeploy := none } else log)
      (s.onRedeployFinished nextDelay origin now seed .succeeded).1 := by
  have hmid := h.midSession (by simp [ha])
  have hfirst := h.firstBackoff (by simp [ha])
  have horigin := h.origin token origin ha
  cases origin with
  | lightweightExhausted =>
      rw [if_pos (horigin.mpr rfl)]
      exact ⟨⟨true, outstanding_append (endsWith_singleton rfl)⟩, fun _ => rfl, fun _ => hfirst, nofun⟩
  | rebootstrap =>
      rw [if_neg (horigin.not.mpr (by simp))]
      exact ⟨⟨true, outstanding_append (endsWith_singleton rfl)⟩, fun _ => hmid, fun _ => hfirst, nofun⟩

theorem Tracks.redeployFinished {token : Token} {origin : RedeployOrigin} (h : Tracks fx log s)
    (ha : s.awaiting = .redeploy token origin) (result : RedeployResult) :
    Tracks (fx ++ (s.onRedeployFinished nextDelay origin now seed result).2)
      (log.next (.redeployFinished token now seed result) (s.onRedeployFinished nextDelay origin now seed result).2)
      (s.onRedeployFinished nextDelay origin now seed result).1 := by
  cases result with
  | succeeded =>
      have hnext : log.next (.redeployFinished token now seed .succeeded) [.attempt ⟨s.nextToken⟩ true] =
          if log.lightweightRedeploy then { log with midSession := 0, firstBackoffSinceRedeploy := none }
          else log := if_neg (by simp)
      have hfx : (s.onRedeployFinished nextDelay origin now seed .succeeded).2 = [.attempt ⟨s.nextToken⟩ true] := by
        cases origin <;> rfl
      rw [hfx, hnext]
      exact h.redeploySucceeded ha
  | retryableFailure =>
      obtain ⟨last, hends⟩ := backoff_endsWith nextDelay s now seed
      have hnext : log.next (.redeployFinished token now seed .retryableFailure) (s.backoff nextDelay now seed).2 =
          log.backoff now (s.backoff nextDelay now seed).2 := if_neg (ne_nil_of_endsWith hends)
      have hred : s.onRedeployFinished nextDelay origin now seed .retryableFailure =
          s.backoff nextDelay now seed := rfl
      rw [hred, hnext]
      exact .of_backoff (h.midSession (by simp [ha])) (h.firstBackoff (by simp [ha])) rfl rfl
  | fatal => exact .of_done (.inr (endsWith_singleton rfl)) rfl

/-- 適用は、状態と嵐の記録の対応を保つ。 -/
theorem Tracks.step (h : Tracks fx log s) (e : RecoveryEvent) :
    Tracks (fx ++ (s.apply nextDelay e).2) (log.next e (s.apply nextDelay e).2) (s.apply nextDelay e).1 := by
  by_cases hans : e.Answers (outstanding fx)
  · have hanswered : Answered nextDelay s e := answered_of_answers h.pending hans
    have hnil := (hanswered.endsWith.elim fun _ => ne_nil_of_endsWith)
    cases hanswered with
    | attempt token started now cls shouldBootstrap hasRemoteCommand sessionEstablished seed ha heq =>
        have hc := counted_resetIfStable (h.midSession (by simp [ha])) (h.firstBackoff (by simp [ha])) started now cls
        rw [Storm.next, if_neg hnil, heq]
        exact .recover hc.1 hc.2 (recover_outcome nextDelay _ now cls _ _ _ seed)
    | redeploy token origin now seed result ha heq =>
        rw [heq]
        exact h.redeployFinished ha result
    | backoff token ha heq =>
        rw [Storm.next, if_neg hnil, heq]
        refine ⟨⟨false, outstanding_append ⟨[.rebuildIntent], rfl, rfl, by simp [RecoveryEffect.isNext]⟩⟩,
          fun _ => h.midSession (by simp [ha]), fun _ => h.firstBackoff (by simp [ha]), nofun⟩
  · have hnext : log.next e [] = log := if_pos rfl
    rw [apply_of_not_answers h.pending hans, List.append_nil, hnext]
    exact h

/-! ## 実行 -/

variable (nextDelay)

theorem effects_concat (es : List RecoveryEvent) (e : RecoveryEvent) :
    effects nextDelay (es ++ [e]) = effects nextDelay es ++ ((after nextDelay es).apply nextDelay e).2 := by
  rw [effects, Reducer.outputs_concat, ← List.append_assoc]

theorem storm_concat (es : List RecoveryEvent) (e : RecoveryEvent) : storm nextDelay (es ++ [e]) =
    (storm nextDelay es).next e ((after nextDelay es).apply nextDelay e).2 :=
  Reducer.watch_concat _ _ _ es e

theorem tracks (es : List RecoveryEvent) :
    Tracks (effects nextDelay es) (storm nextDelay es) (after nextDelay es) := by
  refine Reducer.run_history (J := fun es s => Tracks (effects nextDelay es) (storm nextDelay es) s) ?_ ?_ es
  · exact ⟨⟨false, rfl⟩, fun _ => rfl, fun _ => rfl, nofun⟩
  · intro es e h
    rw [effects_concat, storm_concat]
    exact h.step e

end

section

variable {nextDelay : NextDelay} {s s' : ConnectRecoveryFsm} {e : RecoveryEvent} {now started : Millis}
  {seed : Nat} {cls : Option ConnectOutcomeClass} {shouldBootstrap hasRemoteCommand sessionEstablished : Bool}
  {fx : List RecoveryEffect} {log : List Millis}

/-! ## 間隔 -/

theorem baseDelay_redeployBackoff (k : Nat) :
    redeployBackoff.baseDelay k = Duration.fromMillis (redeployBaseMillis k) := by
  have hinitial : min redeployBackoff.initial.asMillis (maxOf 64) = 60000 := by decide
  have hmax : min redeployBackoff.max.asMillis (maxOf 64) = 300000 := by decide
  have hword : 300000 ≤ maxOf 64 := by decide
  simp only [BackoffPolicy.baseDelay, hinitial, hmax, redeployBaseMillis]
  congr 1
  by_cases hk : k ≤ 32
  · rw [min_eq_left hk]
    omega
  · have h32 : 2 ^ 32 ≤ 2 ^ k := Nat.pow_le_pow_right (by norm_num) (le_of_not_ge hk)
    rw [min_eq_right (le_of_not_ge hk)]
    omega

theorem millis_le_of_nanos_le {b d : Nat} (h : 3 * (b * 1000000) ≤ 4 * d) : 3 * b / 4 ≤ (d + 999999) / 1000000 := by
  omega

/-- 揺れで縮んだ間隔は、基準の間隔の 4 分の 3 より短くならない。 -/
theorem satAdd_le_addCeil (h : nextDelay.WithinJitter) (t : Millis) (k seed : Nat) :
    satAdd 64 t (3 * redeployBaseMillis k / 4) ≤ addCeil t (nextDelay redeployBackoff k seed) := by
  obtain ⟨hlow, _⟩ := h redeployBackoff k seed (by norm_num [redeployBackoff]) (by norm_num [redeployBackoff])
  have hnat : 3 * redeployBackoff.baseDelay k ≤ 4 * nextDelay redeployBackoff k seed := by
    have hq : (3 : ℚ) * redeployBackoff.baseDelay k ≤ 4 * nextDelay redeployBackoff k seed := by
      have hj : redeployBackoff.jitter = 1 / 4 := rfl
      rw [hj] at hlow
      linarith
    exact_mod_cast hq
  rw [baseDelay_redeployBackoff, Duration.fromMillis] at hnat
  refine satAdd_mono (le_min ?_ ?_)
  · exact millis_le_of_nanos_le hnat
  · have hb : redeployBaseMillis k ≤ 300000 := min_le_right _ _
    have hword : 300000 ≤ maxOf 64 := by decide
    omega

theorem spaced_nil : Spaced [] := by
  intro i j t u _ hi
  simp at hi

theorem spaced_singleton (t : Millis) : Spaced [t] := by
  intro i j t' u hij _ hj
  obtain ⟨hlt, _⟩ := List.getElem?_eq_some_iff.mp hj
  simp at hlt
  omega

theorem Spaced.concat {t : Millis} (h : Spaced (log ++ [t]))
    (hnow : satAdd 64 t (3 * redeployBaseMillis log.length / 4) ≤ now) : Spaced (log ++ [t] ++ [now]) := by
  intro i j a b hij hi hj
  obtain ⟨hlt, _⟩ := List.getElem?_eq_some_iff.mp hj
  rw [List.length_append, List.length_singleton] at hlt
  by_cases hj' : j < (log ++ [t]).length
  · rw [List.getElem?_append_left (Nat.lt_trans hij hj')] at hi
    rw [List.getElem?_append_left hj'] at hj
    exact h i j a b hij hi hj
  · obtain rfl : j = (log ++ [t]).length := by omega
    rw [List.getElem?_concat_length, Option.some.injEq] at hj
    subst hj
    rw [List.getElem?_append_left hij] at hi
    rw [List.length_append, List.length_singleton] at hij
    by_cases hlast : i = log.length
    · subst hlast
      rw [List.getElem?_concat_length, Option.some.injEq] at hi
      exact hi ▸ hnow
    · -- 前の再配備からの間隔は、直前の再配備の時刻までに過ぎている。
      have hprev : satAdd 64 a (3 * redeployBaseMillis i / 4) ≤ t :=
        h i log.length a t (by omega) hi List.getElem?_concat_length
      exact (le_min (hprev.trans (Nat.le_add_right _ _)) (satAdd_le_maxOf _ _ _)).trans hnow

/-! ## 制限の状態 -/

/-- 制限は、記録の最後の再配備から、その間隔が過ぎるまで閉じている。 -/
structure GateFollows (log : List Millis) (g : RedeployGate) : Prop where
  spaced : Spaced log
  attempt : g.attempt = log.length
  opened : log = [] → g.nextDueAt = none
  closed : ∀ ts t, log = ts ++ [t] →
    ∃ at_, g.nextDueAt = some at_ ∧ satAdd 64 t (3 * redeployBaseMillis ts.length / 4) ≤ at_

theorem gateFollows_new : GateFollows [] .new :=
  ⟨spaced_nil, rfl, fun _ => rfl, fun ts t h => by simp at h⟩

variable {g : RedeployGate}

theorem GateFollows.resetIfStable (h : GateFollows log g) (started now : Millis) :
    GateFollows (if wasStable started now then [] else log) (g.resetIfStable started now) := by
  unfold RedeployGate.resetIfStable
  split
  · exact gateFollows_new
  · exact h

theorem GateFollows.due (h : GateFollows [] g) (now : Millis) : g.due now := by
  rw [RedeployGate.due, h.opened rfl]
  nofun

theorem GateFollows.recordAttempt (h : GateFollows log g) (hj : nextDelay.WithinJitter) (hdue : g.due now) :
    GateFollows (log ++ [now]) (g.recordAttempt nextDelay now seed) := by
  have hgap := satAdd_le_addCeil hj now g.attempt seed
  rw [h.attempt] at hgap
  refine ⟨?_, by simp [RedeployGate.recordAttempt, h.attempt], fun hnil => by simp at hnil, fun ts t heq => ?_⟩
  · rcases List.eq_nil_or_concat log with rfl | ⟨ts, t, rfl⟩
    · exact spaced_singleton now
    · rw [List.concat_eq_append] at h ⊢
      obtain ⟨at_, hat, hle⟩ := h.closed ts t rfl
      exact h.spaced.concat (hle.trans (hdue at_ hat))
  · obtain ⟨rfl, hlast⟩ := List.append_inj' heq rfl
    obtain rfl := List.singleton_inj.mp hlast
    exact ⟨_, rfl, by rwa [h.attempt]⟩

/-! ## 適用 -/

/-- 待機は、再配備の制限を変えず、再配備を始めない。 -/
theorem backoff_gate (nextDelay : NextDelay) (s : ConnectRecoveryFsm) (now : Millis) (seed : Nat) :
    (s.backoff nextDelay now seed).1.gate = s.gate ∧
      ∀ token, .redeploy token ∉ (s.backoff nextDelay now seed).2 := by
  rcases backoff_cases nextDelay s now seed with ⟨_, budget, heq⟩ | ⟨_, delay, heq⟩ <;> simp [heq]

theorem any_redeploy_eq_false (h : ∀ token, .redeploy token ∉ fx) :
    (fx.any fun x => x matches .redeploy _) = false := by
  refine List.any_eq_false.mpr fun x hx => ?_
  cases x with
  | redeploy token => exact absurd hx (h token)
  | _ => simp

theorem FailureOutcome.gateFollows (hj : nextDelay.WithinJitter) (hg : GateFollows log s.gate)
    (h : FailureOutcome nextDelay s now cls shouldBootstrap hasRemoteCommand sessionEstablished seed s' fx) :
    GateFollows (log ++ if fx.any fun x => x matches .redeploy _ then [now] else []) s'.gate := by
  cases h with
  | refused budget lines _ =>
      rw [any_redeploy_eq_false (by simp)]
      simpa using hg
  | redeploys origin line _ hf _ =>
      have hdue : s.gate.due now := by
        by_contra hno
        exact hf (.inl hno)
      simpa using hg.recordAttempt hj hdue
  | backsOff _ _ =>
      obtain ⟨hgate, hno⟩ := backoff_gate nextDelay s now seed
      rw [any_redeploy_eq_false hno, hgate]
      simpa using hg

/-- 制限が開いていて、軽い再接続の回数も残っていなければ、再配備する。 -/
theorem FailureOutcome.redeploy_of_due
    (h : FailureOutcome nextDelay s now cls shouldBootstrap hasRemoteCommand sessionEstablished seed s' fx)
    (hno : ¬ Refuses s.budget.lightweightRetries cls shouldBootstrap hasRemoteCommand sessionEstablished)
    (hdue : s.gate.due now)
    (hcls : cls = some .midSessionDisconnect → maxLightweightRetries < s.budget.lightweightRetries) :
    ∃ token, .redeploy token ∈ fx := by
  cases h with
  | refused budget lines hr => exact absurd hr hno
  | redeploys origin line _ _ _ => exact ⟨_, List.mem_cons_of_mem _ List.mem_cons_self⟩
  | backsOff _ hf =>
      rcases hf with hclosed | ⟨hmid, hle⟩
      · exact absurd hdue hclosed
      · exact absurd hle (Nat.not_le_of_lt (hcls hmid))

/-- 制限が閉じていて、予算が残っていれば、待機する。 -/
theorem FailureOutcome.backoff_of_closed
    (h : FailureOutcome nextDelay s now cls shouldBootstrap hasRemoteCommand sessionEstablished seed s' fx)
    (hno : ¬ Refuses s.budget.lightweightRetries cls shouldBootstrap hasRemoteCommand sessionEstablished)
    (hclosed : ¬ s.gate.due now) (hleft : ¬ BudgetSpent s.budget.lostSince now) :
    ∃ n token delay, fx = [.announceReconnect n, .backoff token delay] := by
  cases h with
  | refused budget lines hr => exact absurd hr hno
  | redeploys origin line _ hf _ => exact absurd (.inl hclosed) hf
  | backsOff _ _ =>
      rcases backoff_cases nextDelay s now seed with ⟨hspent, _⟩ | ⟨_, delay, heq⟩
      · exact absurd hspent hleft
      · exact ⟨_, _, delay, by rw [heq]⟩

theorem onRedeployFinished_gate (nextDelay : NextDelay) (s : ConnectRecoveryFsm) (origin : RedeployOrigin)
    (now : Millis) (seed : Nat) (result : RedeployResult) :
    (s.onRedeployFinished nextDelay origin now seed result).1.gate = s.gate := by
  cases result with
  | succeeded => cases origin <;> rfl
  | retryableFailure => exact (backoff_gate nextDelay s now seed).1
  | fatal => rfl

theorem GateFollows.step {o : Option RecoveryEffect} (hj : nextDelay.WithinJitter) (hp : Pending s.awaiting o)
    (hg : GateFollows log s.gate) (e : RecoveryEvent) :
    GateFollows (nextRedeploys log e (s.apply nextDelay e).2) (s.apply nextDelay e).1.gate := by
  by_cases hans : e.Answers o
  · have hanswered : Answered nextDelay s e := answered_of_answers hp hans
    have hnil := (hanswered.endsWith.elim fun _ => ne_nil_of_endsWith)
    cases hanswered with
    | attempt token started now cls shouldBootstrap hasRemoteCommand sessionEstablished seed ha heq =>
        have houtcome := (apply_attemptFailed nextDelay hp hans).2
        have hreset : GateFollows (if wasStable started now then [] else log)
            (counted (s.resetIfStable started now) cls).gate := by
          rw [counted_gate]
          exact hg.resetIfStable started now
        rw [nextRedeploys, if_neg hnil]
        exact houtcome.gateFollows hj hreset
    | redeploy token origin now seed result ha heq =>
        rw [heq, onRedeployFinished_gate]
        exact hg
    | backoff token ha heq =>
        rw [heq]
        exact hg
  · rw [apply_of_not_answers hp hans]
    cases e with
    | attemptFailed => exact hg
    | redeployFinished => exact hg
    | backoffElapsed => exact hg

theorem redeploys_concat (nextDelay : NextDelay) (es : List RecoveryEvent) (e : RecoveryEvent) :
    redeploys nextDelay (es ++ [e]) =
      nextRedeploys (redeploys nextDelay es) e ((after nextDelay es).apply nextDelay e).2 :=
  Reducer.watch_concat _ _ _ es e

theorem gateFollows (hj : nextDelay.WithinJitter) (es : List RecoveryEvent) :
    GateFollows (redeploys nextDelay es) (after nextDelay es).gate := by
  have hstart : GateFollows (redeploys nextDelay []) started.gate := gateFollows_new
  refine Reducer.run_history (J := fun es (s : ConnectRecoveryFsm) => GateFollows (redeploys nextDelay es) s.gate)
    hstart ?_ es
  intro es e h
  rw [redeploys_concat]
  exact h.step hj (tracks nextDelay es).pending e

end

end IsekaiTerminal.Recovery
