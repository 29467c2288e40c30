import IsekaiTerminal.Resume.Planner

/-!
# `ResumePlanner::apply` の場合分け

`apply` の分岐を関係 `Step` として 1 度だけ述べる。経路の切り替えとループの先頭は、それぞれ `Switch` と
`LoopTop` に分ける。
-/

namespace IsekaiTerminal.Resume

open Protocol Lib

/-! ## 時刻の算術 -/

@[simp] theorem asMillis_fromMillis (n : Nat) : (Duration.fromMillis n).asMillis = n := by
  simp [Duration.fromMillis, Duration.asMillis]

theorem fromMillis_add (m n : Nat) :
    Duration.fromMillis (m + n) = Duration.fromMillis m + Duration.fromMillis n :=
  Nat.add_mul _ _ _

theorem millisAfter_mono (t : Millis) {d d' : Duration} (h : d ≤ d') : millisAfter t d ≤ millisAfter t d' :=
  satAdd_mono (min_le_min_right _ (Nat.div_le_div_right h))

/-- 飽和しなければ、ミリ秒に切り捨てた和である。 -/
theorem millisAfter_eq {t : Millis} {d : Duration} (h : t + d.asMillis ≤ maxOf 64) :
    millisAfter t d = t + d.asMillis := by
  have hd : d.asMillis ≤ maxOf 64 := le_trans (Nat.le_add_left _ _) h
  rw [millisAfter, min_eq_left hd, satAdd_eq_add h]

theorem clampResumeWindow_le (w : Duration) (m : Option Duration) : clampResumeWindow w m ≤ w := by
  cases m with
  | none => exact le_refl w
  | some max => exact min_le_left w max

theorem effectiveResumeWindow_le (secs : UInt32) (m : Option Duration) :
    effectiveResumeWindow secs m ≤ resumeWindowFor secs :=
  clampResumeWindow_le _ _

namespace ResumePlanner

@[simp] theorem dialPath_ne_warmStandby (p : ResumePlanner) (ep : Episode) :
    p.dialPath ep ≠ .warmStandby := by
  unfold dialPath
  split <;> simp

variable {nextDelay : Nat → UInt64 → Duration}

/-! ## ループの先頭 -/

def wait (p : ResumePlanner) (ep : Episode) : ResumePlanner :=
  { p with
    nextToken := satAdd 64 p.nextToken 1
    phase := .recovering
      { ep with attempt := satAdd 32 ep.attempt 1, awaiting := .backoff ⟨satAdd 64 p.nextToken 1⟩ } }

inductive LoopTop (p : ResumePlanner) (ep : Episode) (now : Millis) : ResumePlanner × List ResumeCmd → Prop
  | exceeded (h : ep.deadline ≤ now) :
      LoopTop p ep now (p.giveUp ep (.deadlineExceeded (now.saturatingSub ep.deadline)) .relayUnreachable)
  | waits {after} (h : now < ep.deadline) (hafter : after ≤ ep.deadline.saturatingSub now) :
      LoopTop p ep now (p.wait ep, [.backoff ⟨satAdd 64 p.nextToken 1⟩ after])

theorem loopTop_cases (p : ResumePlanner) (ep : Episode) (now : Millis) (jitterSeed : UInt64) :
    LoopTop p ep now (p.loopTop nextDelay ep now jitterSeed) := by
  unfold loopTop
  by_cases h : ep.deadline ≤ now
  · rw [if_pos h]
    exact .exceeded h
  · rw [if_neg h]
    exact .waits (Nat.lt_of_not_le h) (min_le_right _ _)

/-! ## 経路の切り替え -/

/-- 切り替えの判定の結果。切り替えるのは、元の経路へ 1 回以上失敗し、期限までに 1 回は試せるときに限る。 -/
inductive Switch (p : ResumePlanner) (ep : Episode) (now : Millis) : Episode → List ResumeCmd → Prop
  | stays : Switch p ep now ep []
  | switches {trigger} (hn : ep.switchedThisCall = false) (hf : 1 ≤ ep.stunFailures)
      (hfits : crossFamilyProbeFits (ep.deadline.saturatingSub now) = true)
      (hav : p.crossFamilyAvailable = true) :
      Switch p ep now (p.switchToCrossFamily ep now) [.switchedToCrossFamily trigger]

def dialNext (p : ResumePlanner) (ep : Episode) : ResumePlanner :=
  { p with
    nextToken := satAdd 64 p.nextToken 1
    phase := .recovering { ep with awaiting := .dial ⟨satAdd 64 p.nextToken 1⟩ (p.dialPath ep) } }

theorem onBackoffElapsed_cases (p : ResumePlanner) (ep : Episode) (now : Millis) (networkChanged : Bool) :
    ∃ ep' cmds, Switch p ep now ep' cmds ∧ p.onBackoffElapsed ep now networkChanged =
      (p.dialNext ep', cmds ++ [.dial ⟨satAdd 64 p.nextToken 1⟩ (p.dialPath ep')]) := by
  unfold onBackoffElapsed
  cases hs : !ep.switchedThisCall && networkChanged && decide (1 ≤ ep.stunFailures) &&
    crossFamilyProbeFits (ep.deadline.saturatingSub now) && p.crossFamilyAvailable with
  | false => exact ⟨ep, [], .stays, rfl⟩
  | true =>
      simp only [Bool.and_eq_true, Bool.not_eq_true', decide_eq_true_eq] at hs
      obtain ⟨⟨⟨⟨hn, -⟩, hf⟩, hfits⟩, hav⟩ := hs
      exact ⟨p.switchToCrossFamily ep now, _, .switches hn hf hfits hav, rfl⟩

end ResumePlanner

/-! ## 失敗 -/

/-- 元の経路への失敗を数えた切断の状態。 -/
def Episode.countFailure (ep : Episode) : Episode :=
  if ep.switchedThisCall then ep else { ep with stunFailures := satAdd 32 ep.stunFailures 1 }

@[simp] theorem Episode.countFailure_switchedThisCall (ep : Episode) :
    ep.countFailure.switchedThisCall = ep.switchedThisCall := by
  unfold Episode.countFailure
  split <;> rfl

@[simp] theorem Episode.countFailure_disconnectedAt (ep : Episode) :
    ep.countFailure.disconnectedAt = ep.disconnectedAt := by
  unfold Episode.countFailure
  split <;> rfl

@[simp] theorem Episode.countFailure_resumeWindow (ep : Episode) :
    ep.countFailure.resumeWindow = ep.resumeWindow := by
  unfold Episode.countFailure
  split <;> rfl

namespace ResumePlanner

variable {nextDelay : Nat → UInt64 → Duration}

def withStreak (p : ResumePlanner) (streak : Nat) : ResumePlanner :=
  { p with consecutiveUnknownSession := streak }

def streakAfter (p : ResumePlanner) (kind : AttemptFailure) : Nat :=
  if kind = .unknownSession then satAdd 32 p.consecutiveUnknownSession 1 else 0

/-- UnknownSession による断念の条件。 -/
def Gone (p : ResumePlanner) (ep : Episode) (kind : AttemptFailure) (now : Millis) : Prop :=
  kind = .unknownSession ∧ unknownSessionConfirmThreshold ≤ p.streakAfter kind ∧
    unknownSessionMinElapsedFloor ≤ now.saturatingSub ep.disconnectedAt

theorem updateUnknownSessionStreak_fst (p : ResumePlanner) (kind : AttemptFailure) (elapsed : Duration) :
    (updateUnknownSessionStreak p.consecutiveUnknownSession (decide (kind = .unknownSession)) elapsed).1 =
      p.streakAfter kind := by
  by_cases hk : kind = .unknownSession <;> simp [updateUnknownSessionStreak, streakAfter, hk]

theorem updateUnknownSessionStreak_snd (p : ResumePlanner) (ep : Episode) (kind : AttemptFailure)
    (now : Millis) :
    (updateUnknownSessionStreak p.consecutiveUnknownSession (decide (kind = .unknownSession))
      (now.saturatingSub ep.disconnectedAt)).2 = true ↔ p.Gone ep kind now := by
  by_cases hk : kind = .unknownSession <;> simp [updateUnknownSessionStreak, Gone, streakAfter, hk]

/-- 元の経路または cross-family への、再試行しうる失敗の処理。 -/
theorem onAttemptFailed_counted (nextDelay : Nat → UInt64 → Duration) (p : ResumePlanner) (ep : Episode)
    {path : DialPath} (now : Millis) {kind : AttemptFailure} (jitterSeed : UInt64) (hpath : path ≠ .warmStandby)
    (hkind : kind = .unknownSession ∨ kind = .other) :
    (p.Gone ep kind now ∧ p.onAttemptFailed nextDelay ep path now kind jitterSeed =
      (p.withStreak (p.streakAfter kind)).giveUp ep.countFailure .sessionGone .sessionGone) ∨
    (¬ p.Gone ep kind now ∧ ∃ ep' cmds,
      Switch (p.withStreak (p.streakAfter kind)) ep.countFailure now ep' cmds ∧
      p.onAttemptFailed nextDelay ep path now kind jitterSeed =
        (((p.withStreak (p.streakAfter kind)).loopTop nextDelay ep' now jitterSeed).1,
          cmds ++ .reportAttemptFailure ep'.attempt ::
            ((p.withStreak (p.streakAfter kind)).loopTop nextDelay ep' now jitterSeed).2)) := by
  have hgone := updateUnknownSessionStreak_snd p ep kind now
  have hdisc := ep.countFailure_disconnectedAt
  have heq : p.onAttemptFailed nextDelay ep path now kind jitterSeed =
      if (updateUnknownSessionStreak p.consecutiveUnknownSession (decide (kind = .unknownSession))
          (now.saturatingSub ep.countFailure.disconnectedAt)).2 then
        (p.withStreak (p.streakAfter kind)).giveUp ep.countFailure .sessionGone .sessionGone
      else
        let switches := !ep.countFailure.switchedThisCall &&
          shouldSwitchToCrossFamily ep.countFailure.stunFailures
            ep.countFailure.switchAttemptsBeforeCrossFamily
            (ep.countFailure.deadline.saturatingSub now) && p.crossFamilyAvailable
        let ep' := if switches then p.switchToCrossFamily ep.countFailure now else ep.countFailure
        let cmds := if switches then [.switchedToCrossFamily .failuresOrDeadline] else []
        (((p.withStreak (p.streakAfter kind)).loopTop nextDelay ep' now jitterSeed).1,
          cmds ++ .reportAttemptFailure ep'.attempt ::
            ((p.withStreak (p.streakAfter kind)).loopTop nextDelay ep' now jitterSeed).2) := by
    rw [← updateUnknownSessionStreak_fst p kind (now.saturatingSub ep.countFailure.disconnectedAt)]
    cases path with
    | warmStandby => exact absurd rfl hpath
    | primary | crossFamily => rcases hkind with rfl | rfl <;> rfl
  rw [heq, hdisc]
  by_cases hg : p.Gone ep kind now
  · rw [if_pos (hgone.mpr hg)]
    exact Or.inl ⟨hg, rfl⟩
  rw [if_neg (fun h => hg (hgone.mp h))]
  refine Or.inr ⟨hg, ?_⟩
  cases hs : !ep.countFailure.switchedThisCall &&
      shouldSwitchToCrossFamily ep.countFailure.stunFailures
        ep.countFailure.switchAttemptsBeforeCrossFamily
        (ep.countFailure.deadline.saturatingSub now) && p.crossFamilyAvailable with
  | false => exact ⟨ep.countFailure, [], .stays, rfl⟩
  | true =>
      simp only [Bool.and_eq_true, Bool.not_eq_true', shouldSwitchToCrossFamily] at hs
      obtain ⟨⟨hn, hfits, -⟩, hav⟩ := hs
      refine ⟨_, _, .switches hn ?_ hfits hav, rfl⟩
      -- いま数えたばかりの失敗がある。
      have hep : ep.switchedThisCall = false := ep.countFailure_switchedThisCall ▸ hn
      simp [Episode.countFailure, hep, satAdd, maxOf]

/-! ## `apply` -/

/-- 受け付けるイベント。切断は接続中だけ、応答は待っている token のものだけである。 -/
def Heeds (p : ResumePlanner) : ResumeEvent → Prop
  | .disconnected _ _ _ => p.phase = .connected
  | .backoffElapsed token _ _ => ∃ ep, p.phase = .recovering ep ∧ ep.awaiting = .backoff token
  | .attemptOk token _ => ∃ ep path, p.phase = .recovering ep ∧ ep.awaiting = .dial token path
  | .attemptFailed token _ _ _ => ∃ ep path, p.phase = .recovering ep ∧ ep.awaiting = .dial token path
  | .tick _ => False

def resume (p : ResumePlanner) (ep : Episode) : ResumePlanner :=
  if ep.switchedThisCall then
    { p with
      consecutiveUnknownSession := 0
      onCrossFamily := true
      maxResumeWindow := none
      resumeWindow := effectiveResumeWindow p.effectiveResumeGraceSecs none
      phase := .connected }
  else { p with consecutiveUnknownSession := 0, phase := .connected }

def dialStandby (p : ResumePlanner) (ep : Episode) : ResumePlanner :=
  { p with
    nextToken := satAdd 64 p.nextToken 1
    phase := .recovering { ep with awaiting := .dial ⟨satAdd 64 p.nextToken 1⟩ .warmStandby } }

inductive Step (p : ResumePlanner) : ResumeEvent → ResumePlanner × List ResumeCmd → Prop
  | idle {e} (h : ¬ p.Heeds e) : Step p e (p, [])
  | notify {now ep} (hp : p.phase = .recovering ep) :
      Step p (.tick now)
        (p, [.showReconnecting (now.saturatingSub ep.disconnectedAt) ep.resumeWindow])
  | beginStandby {now byNetworkChange jitterSeed} (hp : p.phase = .connected)
      (hw : p.hasWarmStandby = true) :
      Step p (.disconnected now byNetworkChange jitterSeed)
        (p.dialStandby (p.newEpisode now byNetworkChange),
          [.dial ⟨satAdd 64 p.nextToken 1⟩ .warmStandby])
  | beginLoop {now byNetworkChange jitterSeed r} (hp : p.phase = .connected)
      (hw : p.hasWarmStandby = false) (hl : LoopTop p (p.newEpisode now byNetworkChange) now r) :
      Step p (.disconnected now byNetworkChange jitterSeed) r
  | elapsed {token now networkChanged ep ep' cmds} (hp : p.phase = .recovering ep)
      (ha : ep.awaiting = .backoff token) (hs : Switch p ep now ep' cmds) :
      Step p (.backoffElapsed token now networkChanged)
        (p.dialNext ep', cmds ++ [.dial ⟨satAdd 64 p.nextToken 1⟩ (p.dialPath ep')])
  | standbyOk {token now ep} (hp : p.phase = .recovering ep)
      (ha : ep.awaiting = .dial token .warmStandby) :
      Step p (.attemptOk token now) ({ p with phase := .connected },
        [.resumed .warmStandby (reconnectNotifyDue ep.disconnectedAt now) false])
  | ok {token now ep path} (hp : p.phase = .recovering ep) (ha : ep.awaiting = .dial token path)
      (hw : path ≠ .warmStandby) :
      Step p (.attemptOk token now) (p.resume ep,
        [.resumed path (reconnectNotifyDue ep.disconnectedAt now) ep.switchedThisCall])
  | standbyFailed {token now kind jitterSeed ep r} (hp : p.phase = .recovering ep)
      (ha : ep.awaiting = .dial token .warmStandby) (hl : LoopTop p ep now r) :
      Step p (.attemptFailed token now kind jitterSeed) r
  | unrecoverable {token now jitterSeed ep path} (hp : p.phase = .recovering ep)
      (ha : ep.awaiting = .dial token path) (hw : path ≠ .warmStandby) :
      Step p (.attemptFailed token now .unrecoverable jitterSeed)
        (p.giveUp ep .sessionUnrecoverable .sessionGone)
  | replayFailed {token now jitterSeed ep path r} (hp : p.phase = .recovering ep)
      (ha : ep.awaiting = .dial token path) (hw : path ≠ .warmStandby)
      (hl : LoopTop (p.withStreak 0) ep now r) :
      Step p (.attemptFailed token now .replayFailed jitterSeed)
        (r.1, .reportAttemptFailure ep.attempt :: r.2)
  | gone {token now kind jitterSeed ep path} (hp : p.phase = .recovering ep)
      (ha : ep.awaiting = .dial token path) (hw : path ≠ .warmStandby)
      (hk : kind = .unknownSession ∨ kind = .other) (hg : p.Gone ep kind now) :
      Step p (.attemptFailed token now kind jitterSeed)
        ((p.withStreak (p.streakAfter kind)).giveUp ep.countFailure .sessionGone .sessionGone)
  | failed {token now kind jitterSeed ep path ep' cmds r} (hp : p.phase = .recovering ep)
      (ha : ep.awaiting = .dial token path) (hw : path ≠ .warmStandby)
      (hk : kind = .unknownSession ∨ kind = .other) (hg : ¬ p.Gone ep kind now)
      (hs : Switch (p.withStreak (p.streakAfter kind)) ep.countFailure now ep' cmds)
      (hl : LoopTop (p.withStreak (p.streakAfter kind)) ep' now r) :
      Step p (.attemptFailed token now kind jitterSeed)
        (r.1, cmds ++ .reportAttemptFailure ep'.attempt :: r.2)

theorem onAttemptOk_step {p : ResumePlanner} {ep : Episode} {token : ResumeToken} {path : DialPath}
    (hp : p.phase = .recovering ep) (ha : ep.awaiting = .dial token path) (now : Millis) :
    Step p (.attemptOk token now) (p.onAttemptOk ep path now) := by
  have hok (hw : path ≠ .warmStandby) : p.onAttemptOk ep path now =
      (p.resume ep, [.resumed path (reconnectNotifyDue ep.disconnectedAt now) ep.switchedThisCall]) := by
    cases path with
    | warmStandby => exact absurd rfl hw
    | primary | crossFamily => cases hs : ep.switchedThisCall <;> simp [onAttemptOk, resume, hs]
  cases path with
  | warmStandby => exact .standbyOk hp ha
  | primary | crossFamily =>
      rw [hok (by simp)]
      exact .ok hp ha (by simp)

theorem onAttemptFailed_step {p : ResumePlanner} {ep : Episode} {token : ResumeToken} {path : DialPath}
    (hp : p.phase = .recovering ep) (ha : ep.awaiting = .dial token path) (now : Millis)
    (kind : AttemptFailure) (jitterSeed : UInt64) :
    Step p (.attemptFailed token now kind jitterSeed)
      (p.onAttemptFailed nextDelay ep path now kind jitterSeed) := by
  by_cases hw : path = .warmStandby
  · subst hw
    exact .standbyFailed hp ha (loopTop_cases p ep now jitterSeed)
  have hcounted (hk : kind = .unknownSession ∨ kind = .other) :
      Step p (.attemptFailed token now kind jitterSeed)
        (p.onAttemptFailed nextDelay ep path now kind jitterSeed) := by
    rcases onAttemptFailed_counted nextDelay p ep now jitterSeed hw hk with
      ⟨hg, heq⟩ | ⟨hg, ep', cmds, hs, heq⟩ <;> rw [heq]
    · exact .gone hp ha hw hk hg
    · exact .failed hp ha hw hk hg hs (loopTop_cases _ ep' now jitterSeed)
  cases kind with
  | unknownSession => exact hcounted (Or.inl rfl)
  | other => exact hcounted (Or.inr rfl)
  | replayFailed =>
      have heq : p.onAttemptFailed nextDelay ep path now .replayFailed jitterSeed =
          (((p.withStreak 0).loopTop nextDelay ep now jitterSeed).1, .reportAttemptFailure ep.attempt ::
            ((p.withStreak 0).loopTop nextDelay ep now jitterSeed).2) := by
        cases path with
        | warmStandby => exact absurd rfl hw
        | primary | crossFamily => rfl
      rw [heq]
      exact .replayFailed hp ha hw (loopTop_cases _ ep now jitterSeed)
  | unrecoverable =>
      have heq : p.onAttemptFailed nextDelay ep path now .unrecoverable jitterSeed =
          p.giveUp ep .sessionUnrecoverable .sessionGone := by
        cases path with
        | warmStandby => exact absurd rfl hw
        | primary | crossFamily => rfl
      rw [heq]
      exact .unrecoverable hp ha hw

theorem apply_step (nextDelay : Nat → UInt64 → Duration) (p : ResumePlanner) (e : ResumeEvent) :
    Step p e (p.apply nextDelay e) := by
  have hidle (h : ¬ p.Heeds e) (heq : p.apply nextDelay e = (p, [])) : Step p e (p.apply nextDelay e) :=
    heq ▸ .idle h
  cases hp : p.phase with
  | connected =>
      cases e with
      | disconnected now byNetworkChange jitterSeed =>
          simp only [apply, hp, beginEpisode]
          cases hw : p.hasWarmStandby with
          | true => exact .beginStandby hp hw
          | false => exact .beginLoop hp hw (loopTop_cases _ _ now jitterSeed)
      | backoffElapsed | attemptOk | attemptFailed | tick =>
          exact hidle (by simp [Heeds, hp]) (by simp [apply, hp])
  | gaveUp => exact hidle (by cases e <;> simp [Heeds, hp]) (by cases e <;> simp [apply, hp])
  | recovering ep =>
      cases e with
      | disconnected => exact hidle (by simp [Heeds, hp]) (by simp [apply, hp])
      | backoffElapsed token now networkChanged =>
          by_cases ha : ep.awaiting = .backoff token
          · obtain ⟨ep', cmds, hs, heq⟩ := onBackoffElapsed_cases p ep now networkChanged
            simp only [apply, hp, ha, ne_eq, not_true, if_false, heq]
            exact .elapsed hp ha hs
          · exact hidle (by simp [Heeds, hp, ha]) (by simp [apply, hp, ha])
      | attemptOk token now =>
          cases ha : ep.awaiting with
          | backoff => exact hidle (by simp [Heeds, hp, ha]) (by simp [apply, hp, ha])
          | dial awaited path =>
              by_cases ht : awaited = token
              · subst ht
                simp only [apply, hp, ha, ne_eq, not_true, if_false]
                exact onAttemptOk_step hp ha now
              · exact hidle (by simp [Heeds, hp, ha, ht]) (by simp [apply, hp, ha, ht])
      | attemptFailed token now kind jitterSeed =>
          cases ha : ep.awaiting with
          | backoff => exact hidle (by simp [Heeds, hp, ha]) (by simp [apply, hp, ha])
          | dial awaited path =>
              by_cases ht : awaited = token
              · subst ht
                simp only [apply, hp, ha, ne_eq, not_true, if_false]
                exact onAttemptFailed_step hp ha now kind jitterSeed
              · exact hidle (by simp [Heeds, hp, ha, ht]) (by simp [apply, hp, ha, ht])
      | tick now =>
          by_cases hd : reconnectNotifyDue ep.disconnectedAt now = true
          · simp only [apply, hp, hd, if_true]
            exact .notify hp
          · exact hidle (by simp [Heeds]) (by simp [apply, hp, hd])

end ResumePlanner

/-!
## `BusyOtherSessionRetry` の 1 回の判断と、呼び出しの列
-/

section

variable {ρ : Type} {seedFromU64 : UInt64 → ρ} {scaled : Duration → Rat → ρ → Duration}

/-! ## 時刻と長さ -/

theorem fromMillis_asMillis_le (d : Duration) : Duration.fromMillis d.asMillis ≤ d := Nat.div_mul_le_self d 1000000

theorem add_remaining_le {now deadline : Millis} {d : Duration} (hle : now ≤ deadline)
    (h : d ≤ deadline.saturatingSub now) : Duration.fromMillis now + d ≤ Duration.fromMillis deadline :=
  calc Duration.fromMillis now + d
      ≤ Duration.fromMillis now + Duration.fromMillis (deadline - now) := Nat.add_le_add_left h _
    _ = Duration.fromMillis (now + (deadline - now)) := (Nat.add_mul _ _ _).symm
    _ = Duration.fromMillis deadline := by rw [Nat.add_sub_cancel' hle]

theorem lt_of_fromMillis_add_le {a b : Millis} {d : Duration} (hd : Duration.fromMillis 1 ≤ d)
    (h : Duration.fromMillis a + d ≤ Duration.fromMillis b) : a < b := by
  have hstep : Duration.fromMillis a < Duration.fromMillis b :=
    Nat.lt_of_lt_of_le (Nat.lt_add_of_pos_right (Nat.lt_of_lt_of_le (by decide) hd)) h
  exact Nat.lt_of_mul_lt_mul_right hstep

/-! ## バックオフの長さ -/

namespace BackoffPolicy

/-- どれだけ試行を重ねても、基準の長さは上限を超えない。 -/
theorem baseDelay_le (p : BackoffPolicy) (attempt : Nat) : p.baseDelay attempt ≤ p.max := by
  have hmillis : min (satMul 64 (min p.initial.asMillis (maxOf 64)) (2 ^ min attempt 32)) (min p.max.asMillis (maxOf 64)) ≤
      p.max.asMillis := (min_le_right _ _).trans (min_le_left _ _)
  calc p.baseDelay attempt
      ≤ Duration.fromMillis p.max.asMillis := Nat.mul_le_mul_right _ hmillis
    _ ≤ p.max := fromMillis_asMillis_le p.max

theorem nextDelay_le (seedFromU64 : UInt64 → ρ) (scaled : Duration → Rat → ρ → Duration) (p : BackoffPolicy)
    (attempt : Nat) (seed : UInt64) :
    p.nextDelay seedFromU64 scaled attempt seed ≤ p.max := by
  simp only [nextDelay, delayForAttempt]
  split
  · exact p.baseDelay_le attempt
  · exact min_le_right _ _

end BackoffPolicy

/-! ## 1 回の判断 -/

namespace BusyOtherSessionRetry

variable {r : BusyOtherSessionRetry} {f : Failure} {calls : Nat → Failure} {n : Nat}

/-- 諦めるか、残りの期限と上限を超えない長さだけ待つ。期限は変わらない。 -/
theorem onFailure_cases (seedFromU64 : UInt64 → ρ) (scaled : Duration → Rat → ρ → Duration)
    (r : BusyOtherSessionRetry) (f : Failure) :
    (f.busyOtherSession = false ∨ r.deadline ≤ f.now) ∧ r.onFailure seedFromU64 scaled f = (r, .giveUp) ∨
    (f.busyOtherSession = true ∧ f.now < r.deadline) ∧
      ∃ r' after, r.onFailure seedFromU64 scaled f = (r', .retryAfter after) ∧ r'.deadline = r.deadline ∧
        after ≤ r.deadline.saturatingSub f.now ∧ after ≤ Duration.fromSecs 10 := by
  by_cases h : f.busyOtherSession = false ∨ r.deadline ≤ f.now
  · exact .inl ⟨h, by simp [onFailure, h]⟩
  · refine .inr ⟨by simpa using h, ?_⟩
    have hdelay := resumeBackoff.nextDelay_le seedFromU64 scaled r.attempt f.jitterSeed
    have hrun : r.onFailure seedFromU64 scaled f = ({ r with attempt := satAdd 32 r.attempt 1 }, .retryAfter
        (min (resumeBackoff.nextDelay seedFromU64 scaled r.attempt f.jitterSeed) (r.deadline.saturatingSub f.now))) := by
      simp [onFailure, h]
    exact ⟨_, _, hrun, rfl, min_le_right _ _, (min_le_left _ _).trans hdelay⟩

theorem deadline_before (seedFromU64 : UInt64 → ρ) (scaled : Duration → Rat → ρ → Duration)
    (r : BusyOtherSessionRetry) (calls : Nat → Failure) (n : Nat) :
    (r.before seedFromU64 scaled calls n).deadline = r.deadline := by
  induction n with
  | zero => rfl
  | succ n ih =>
      rw [before]
      obtain ⟨-, h⟩ | ⟨-, r', after, h, hdeadline, -⟩ :=
        onFailure_cases seedFromU64 scaled (r.before seedFromU64 scaled calls n) (calls n)
      · rw [h, ih]
      · rw [h, hdeadline, ih]

theorem decision_eq_giveUp_iff :
    r.decision seedFromU64 scaled calls n = .giveUp ↔
      (calls n).busyOtherSession = false ∨ r.deadline ≤ (calls n).now := by
  rw [← deadline_before seedFromU64 scaled r calls n]
  obtain ⟨hcond, h⟩ | ⟨hcond, r', after, h, -⟩ :=
    onFailure_cases seedFromU64 scaled (r.before seedFromU64 scaled calls n) (calls n)
  · simp [decision, h, hcond]
  · simp [decision, h, hcond.1, hcond.2]

/-- 待つなら、失敗は BUSY であり、期限はまだである。待つ長さは期限も上限も超えない。 -/
theorem decision_retryAfter {after : Duration} (h : r.decision seedFromU64 scaled calls n = .retryAfter after) :
    (calls n).busyOtherSession = true ∧ (calls n).now < r.deadline ∧
      Duration.fromMillis (calls n).now + after ≤ Duration.fromMillis r.deadline ∧ after ≤ Duration.fromSecs 10 := by
  rw [← deadline_before seedFromU64 scaled r calls n]
  obtain ⟨-, hrun⟩ | ⟨hcond, r', waited, hrun, -, hremaining, hmax⟩ :=
    onFailure_cases seedFromU64 scaled (r.before seedFromU64 scaled calls n) (calls n)
  · simp [decision, hrun] at h
  · obtain rfl : waited = after := by simpa [decision, hrun] using h
    exact ⟨hcond.1, hcond.2, add_remaining_le hcond.2.le hremaining, hmax⟩

theorem exists_retryAfter (h : r.decision seedFromU64 scaled calls n ≠ .giveUp) :
    ∃ after, r.decision seedFromU64 scaled calls n = .retryAfter after := by
  cases hd : r.decision seedFromU64 scaled calls n with
  | giveUp => exact absurd hd h
  | retryAfter after => exact ⟨after, rfl⟩

/-! ## 間を空けた呼び出しの列 -/

/-- 待つたびに、残りの期限は 1 ミリ秒以上減る。 -/
theorem Spaced.lt_now (h : r.Spaced seedFromU64 scaled calls) (hretry : r.decision seedFromU64 scaled calls n ≠ .giveUp) :
    (calls n).now < (calls (n + 1)).now := by
  obtain ⟨after, hafter⟩ := exists_retryAfter hretry
  have hspace := h n after hafter
  exact lt_of_fromMillis_add_le (le_max_right after (Duration.fromMillis 1)) hspace

theorem Spaced.now_add_le (h : r.Spaced seedFromU64 scaled calls)
    (hretry : ∀ i < n, r.decision seedFromU64 scaled calls i ≠ .giveUp) : (calls 0).now + n ≤ (calls n).now := by
  induction n with
  | zero => rfl
  | succ n ih =>
      have hprev := ih fun i hi => hretry i (Nat.lt_succ_of_lt hi)
      exact Nat.succ_le_of_lt (hprev.trans_lt (h.lt_now (hretry n (Nat.lt_succ_self n))))

/-- 残りのミリ秒の数だけ呼び出す前に、諦める。 -/
theorem Spaced.exists_giveUp (h : r.Spaced seedFromU64 scaled calls) :
    ∃ n ≤ r.deadline - (calls 0).now, r.decision seedFromU64 scaled calls n = .giveUp ∧
      ∀ i < n, r.decision seedFromU64 scaled calls i ≠ .giveUp := by
  have hexists : ∃ n, r.decision seedFromU64 scaled calls n = .giveUp := by
    by_contra hnone
    simp only [not_exists] at hnone
    have hlast := h.now_add_le (n := r.deadline) fun i _ => hnone i
    exact hnone r.deadline (decision_eq_giveUp_iff.mpr (.inr ((Nat.le_add_left _ _).trans hlast)))
  classical
  refine ⟨Nat.find hexists, ?_, Nat.find_spec hexists, fun i hi => Nat.find_min hexists hi⟩
  by_contra hlong
  -- 期限に着いた回が、最初の断念より前にある。
  have hbefore : r.deadline - (calls 0).now < Nat.find hexists := Nat.lt_of_not_le hlong
  have hreach := h.now_add_le fun i hi => Nat.find_min hexists (hi.trans hbefore)
  exact Nat.find_min hexists hbefore (decision_eq_giveUp_iff.mpr (.inr (le_add_tsub.trans hreach)))

end BusyOtherSessionRetry

end

end IsekaiTerminal.Resume
