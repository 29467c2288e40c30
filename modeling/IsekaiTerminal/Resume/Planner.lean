import IsekaiTerminal.Lib.Saturating
import IsekaiTerminal.Protocol.Attach

/-!
# `isekai-pipe connect` の resume の判断（`ResumePlanner`）

`isekai-pipe/src/resume_fsm.rs` の reducer を定める。時刻はイベントが運び、逆行してもよい。
バックオフの長さ `RESUME_BACKOFF.next_delay(attempt, seed)` は乱数生成器に依るので、関数 `nextDelay` として受け取る。
-/

namespace IsekaiTerminal.Resume

open Protocol Lib

/-! ## 方針の定数 -/

/-- `isekai_pipe_core::DEFAULT_RESUME_GRACE_SECS`。 -/
def defaultResumeWindow : Duration := Duration.fromSecs 864000

def stunToCrossFamilySwitchAttempts : Nat := 5

def crossFamilySwitchDeadline : Duration := Duration.fromSecs 45

/-- `isekai_transport::resume::TRANSPORT_STEP_TIMEOUT`。 -/
def transportStepTimeoutSecs : Nat := 15

def crossFamilyMinProbeBudget : Duration := Duration.fromSecs (transportStepTimeoutSecs + 1)

def reconnectNotifyGrace : Duration := Duration.fromSecs 15

def unknownSessionConfirmThreshold : Nat := 3

def unknownSessionMinElapsedFloor : Duration := Duration.fromSecs 30

/-! ## 判断の純粋な部分 -/

/-- 時刻の飽和加算。`Duration` はミリ秒に切り捨てる。 -/
def millisAfter (t : Millis) (d : Duration) : Millis := satAdd 64 t (min d.asMillis (maxOf 64))

def resumeWindowFor (effectiveResumeGraceSecs : UInt32) : Duration :=
  if effectiveResumeGraceSecs = 0 then defaultResumeWindow
  else Duration.fromSecs effectiveResumeGraceSecs.toNat

def clampResumeWindow (resumeWindow : Duration) (maxResumeWindow : Option Duration) : Duration :=
  match maxResumeWindow with
  | some max => min resumeWindow max
  | none => resumeWindow

def effectiveResumeWindow (effectiveResumeGraceSecs : UInt32) (maxResumeWindow : Option Duration) : Duration :=
  clampResumeWindow (resumeWindowFor effectiveResumeGraceSecs) maxResumeWindow

/-- 連続した UnknownSession の数と、諦めるべきか。数と経過時間の両方が下限に達したときだけ諦める。 -/
def updateUnknownSessionStreak (previousStreak : Nat) (isUnknownSession : Bool)
    (elapsedSinceDisconnect : Duration) : Nat × Bool :=
  if isUnknownSession = false then (0, false)
  else
    let streak := satAdd 32 previousStreak 1
    (streak, decide (unknownSessionConfirmThreshold ≤ streak ∧
      unknownSessionMinElapsedFloor ≤ elapsedSinceDisconnect))

def crossFamilyProbeFits (remainingBeforeDeadline : Duration) : Bool :=
  decide (crossFamilyMinProbeBudget ≤ remainingBeforeDeadline)

def shouldSwitchToCrossFamily (stunFailures switchAttemptsBeforeCrossFamily : Nat)
    (remainingBeforeDeadline : Duration) : Bool :=
  crossFamilyProbeFits remainingBeforeDeadline &&
    decide (switchAttemptsBeforeCrossFamily ≤ stunFailures ∨
      remainingBeforeDeadline ≤ crossFamilySwitchDeadline)

structure CrossFamilySwitchBudget where
  maxResumeWindow : Option Duration
  resumeWindow : Duration
  deadline : Millis

def crossFamilySwitchBudget (disconnectedAt now : Millis) (effectiveResumeGraceSecs : UInt32) :
    CrossFamilySwitchBudget :=
  let elapsedSinceDisconnect := now.saturatingSub disconnectedAt
  let maxResumeWindow :=
    some (max (elapsedSinceDisconnect + crossFamilySwitchDeadline) unknownSessionMinElapsedFloor)
  let resumeWindow := effectiveResumeWindow effectiveResumeGraceSecs maxResumeWindow
  { maxResumeWindow, resumeWindow, deadline := millisAfter disconnectedAt resumeWindow }

def reconnectNotifyDue (disconnectedAt now : Millis) : Bool :=
  decide (reconnectNotifyGrace ≤ now.saturatingSub disconnectedAt)

/-! ## イベントとコマンド -/

structure ResumeToken where
  raw : Nat
deriving DecidableEq

inductive DialPath
  | warmStandby
  | primary
  | crossFamily
deriving DecidableEq

inductive AttemptFailure
  | unknownSession
  | other
  | replayFailed
  | unrecoverable
deriving DecidableEq

inductive ResumeEvent
  | disconnected (now : Millis) (byNetworkChange : Bool) (jitterSeed : UInt64)
  | backoffElapsed (token : ResumeToken) (now : Millis) (networkChanged : Bool)
  | attemptOk (token : ResumeToken) (now : Millis)
  | attemptFailed (token : ResumeToken) (now : Millis) (kind : AttemptFailure) (jitterSeed : UInt64)
  | tick (now : Millis)
deriving DecidableEq

inductive SwitchTrigger
  | networkChangeWhileBackingOff
  | failuresOrDeadline
deriving DecidableEq

inductive GiveUpReason
  | deadlineExceeded (exceededBy : Duration)
  | sessionGone
  | sessionUnrecoverable
deriving DecidableEq

inductive ContinuityLost
  | relayUnreachable
  | sessionGone
deriving DecidableEq

inductive ResumeCmd
  | showReconnecting (elapsed resumeWindow : Duration)
  | backoff (token : ResumeToken) (after : Duration)
  | dial (token : ResumeToken) (path : DialPath)
  | switchedToCrossFamily (trigger : SwitchTrigger)
  | reportAttemptFailure (attempt : Nat)
  | resumed (via : DialPath) (announce crossFamilySwitched : Bool)
  | giveUp (reason : GiveUpReason) (resumeWindow : Duration) (notifyOs : Bool)
      (continuityLost : Option ContinuityLost)
deriving DecidableEq

/-! ## 状態 -/

structure ResumePlannerConfig where
  effectiveResumeGraceSecs : UInt32
  maxResumeWindow : Option Duration
  hasCrossFamilyTarget : Bool
  hasWarmStandby : Bool
deriving DecidableEq

inductive Awaiting
  | backoff (token : ResumeToken)
  | dial (token : ResumeToken) (path : DialPath)
deriving DecidableEq

structure Episode where
  disconnectedAt : Millis
  resumeWindow : Duration
  deadline : Millis
  maxResumeWindow : Option Duration
  switchedThisCall : Bool
  stunFailures : Nat
  switchAttemptsBeforeCrossFamily : Nat
  attempt : Nat
  awaiting : Awaiting
deriving DecidableEq

inductive Phase
  | connected
  | recovering (ep : Episode)
  | gaveUp
deriving DecidableEq

/-- 1 つの session の再接続の判断。`maxResumeWindow` から `nextToken` までは切断をまたいで持ち越す。 -/
structure ResumePlanner where
  effectiveResumeGraceSecs : UInt32
  hasCrossFamilyTarget : Bool
  hasWarmStandby : Bool
  maxResumeWindow : Option Duration
  resumeWindow : Duration
  onCrossFamily : Bool
  consecutiveUnknownSession : Nat
  nextToken : Nat
  phase : Phase
deriving DecidableEq

namespace ResumePlanner

def new (config : ResumePlannerConfig) : ResumePlanner where
  effectiveResumeGraceSecs := config.effectiveResumeGraceSecs
  hasCrossFamilyTarget := config.hasCrossFamilyTarget
  hasWarmStandby := config.hasWarmStandby
  maxResumeWindow := config.maxResumeWindow
  resumeWindow := effectiveResumeWindow config.effectiveResumeGraceSecs config.maxResumeWindow
  onCrossFamily := false
  consecutiveUnknownSession := 0
  nextToken := 0
  phase := .connected

def crossFamilyAvailable (p : ResumePlanner) : Bool := p.hasCrossFamilyTarget && !p.onCrossFamily

def dialPath (p : ResumePlanner) (ep : Episode) : DialPath :=
  if p.onCrossFamily || ep.switchedThisCall then .crossFamily else .primary

def continuityLostIfApplicable (p : ResumePlanner) (ep : Episode) (reason : ContinuityLost) :
    Option ContinuityLost :=
  if p.onCrossFamily || ep.switchedThisCall then some reason else none

def freshToken (p : ResumePlanner) : ResumeToken × ResumePlanner :=
  let nextToken := satAdd 64 p.nextToken 1
  (⟨nextToken⟩, { p with nextToken })

def switchToCrossFamily (p : ResumePlanner) (ep : Episode) (now : Millis) : Episode :=
  let budget := crossFamilySwitchBudget ep.disconnectedAt now p.effectiveResumeGraceSecs
  { ep with
    maxResumeWindow := budget.maxResumeWindow
    resumeWindow := budget.resumeWindow
    deadline := budget.deadline
    switchedThisCall := true
    attempt := 0 }

/-- 諦める。どの理由でも、経路に応じた `continuity_lost` と、切断の窓を報告する。 -/
def giveUp (p : ResumePlanner) (ep : Episode) (reason : GiveUpReason) (lost : ContinuityLost) :
    ResumePlanner × List ResumeCmd :=
  ({ p with phase := .gaveUp },
    [.giveUp reason ep.resumeWindow ep.maxResumeWindow.isNone (p.continuityLostIfApplicable ep lost)])

variable (nextDelay : Nat → UInt64 → Duration)

/-- ループの先頭。期限を過ぎていれば諦め、そうでなければ残りの期限を超えない長さだけ待つ。 -/
def loopTop (p : ResumePlanner) (ep : Episode) (now : Millis) (jitterSeed : UInt64) :
    ResumePlanner × List ResumeCmd :=
  if ep.deadline ≤ now then
    p.giveUp ep (.deadlineExceeded (now.saturatingSub ep.deadline)) .relayUnreachable
  else
    let after := min (nextDelay ep.attempt jitterSeed) (ep.deadline.saturatingSub now)
    let (token, p) := p.freshToken
    ({ p with phase := .recovering { ep with attempt := satAdd 32 ep.attempt 1, awaiting := .backoff token } },
      [.backoff token after])

/-- 切断の始まりの状態。`awaiting` は呼び出し側が必ず上書きする。 -/
def newEpisode (p : ResumePlanner) (disconnectedAt : Millis) (byNetworkChange : Bool) : Episode where
  disconnectedAt := disconnectedAt
  resumeWindow := p.resumeWindow
  deadline := millisAfter disconnectedAt p.resumeWindow
  maxResumeWindow := p.maxResumeWindow
  switchedThisCall := false
  stunFailures := 0
  switchAttemptsBeforeCrossFamily := if byNetworkChange then 1 else stunToCrossFamilySwitchAttempts
  attempt := 0
  awaiting := .backoff ⟨0⟩

def beginEpisode (p : ResumePlanner) (disconnectedAt : Millis) (byNetworkChange : Bool)
    (firstCheckAt : Millis) (jitterSeed : UInt64) : ResumePlanner × List ResumeCmd :=
  let ep := p.newEpisode disconnectedAt byNetworkChange
  if p.hasWarmStandby then
    let (token, p) := p.freshToken
    ({ p with phase := .recovering { ep with awaiting := .dial token .warmStandby } },
      [.dial token .warmStandby])
  else p.loopTop nextDelay ep firstCheckAt jitterSeed

/-! ### `apply` の分岐 -/

/-- バックオフが終わった。ネットワークの変化で終わり、元の経路へ 1 回以上失敗していれば、先に経路を切り替える。 -/
def onBackoffElapsed (p : ResumePlanner) (ep : Episode) (now : Millis) (networkChanged : Bool) :
    ResumePlanner × List ResumeCmd :=
  let switches := !ep.switchedThisCall && networkChanged && decide (1 ≤ ep.stunFailures) &&
    crossFamilyProbeFits (ep.deadline.saturatingSub now) && p.crossFamilyAvailable
  let ep := if switches then p.switchToCrossFamily ep now else ep
  let cmds := if switches then [.switchedToCrossFamily .networkChangeWhileBackingOff] else []
  let (token, p) := p.freshToken
  let path := p.dialPath ep
  ({ p with phase := .recovering { ep with awaiting := .dial token path } }, cmds ++ [.dial token path])

def onAttemptOk (p : ResumePlanner) (ep : Episode) (path : DialPath) (now : Millis) :
    ResumePlanner × List ResumeCmd :=
  let announce := reconnectNotifyDue ep.disconnectedAt now
  match path with
  | .warmStandby => ({ p with phase := .connected }, [.resumed path announce false])
  | .primary | .crossFamily =>
      let p := { p with consecutiveUnknownSession := 0 }
      let p :=
        if ep.switchedThisCall then
          { p with
            onCrossFamily := true
            maxResumeWindow := none
            resumeWindow := effectiveResumeWindow p.effectiveResumeGraceSecs none }
        else p
      ({ p with phase := .connected }, [.resumed path announce ep.switchedThisCall])

def onAttemptFailed (p : ResumePlanner) (ep : Episode) (path : DialPath) (now : Millis)
    (kind : AttemptFailure) (jitterSeed : UInt64) : ResumePlanner × List ResumeCmd :=
  match path, kind with
  | .warmStandby, _ => p.loopTop nextDelay ep now jitterSeed
  | _, .unrecoverable => p.giveUp ep .sessionUnrecoverable .sessionGone
  | _, .replayFailed =>
      let (p', cmds) := { p with consecutiveUnknownSession := 0 }.loopTop nextDelay ep now jitterSeed
      (p', .reportAttemptFailure ep.attempt :: cmds)
  | _, kind =>
      let ep := if ep.switchedThisCall then ep else { ep with stunFailures := satAdd 32 ep.stunFailures 1 }
      let (streak, shouldGiveUp) := updateUnknownSessionStreak p.consecutiveUnknownSession
        (decide (kind = .unknownSession)) (now.saturatingSub ep.disconnectedAt)
      let p := { p with consecutiveUnknownSession := streak }
      if shouldGiveUp then p.giveUp ep .sessionGone .sessionGone
      else
        let switches := !ep.switchedThisCall &&
          shouldSwitchToCrossFamily ep.stunFailures ep.switchAttemptsBeforeCrossFamily
            (ep.deadline.saturatingSub now) && p.crossFamilyAvailable
        let ep := if switches then p.switchToCrossFamily ep now else ep
        let cmds := if switches then [.switchedToCrossFamily .failuresOrDeadline] else []
        let (p, more) := p.loopTop nextDelay ep now jitterSeed
        (p, cmds ++ .reportAttemptFailure ep.attempt :: more)

def apply (p : ResumePlanner) (event : ResumeEvent) : ResumePlanner × List ResumeCmd :=
  match event, p.phase with
  | .disconnected now byNetworkChange jitterSeed, .connected =>
      p.beginEpisode nextDelay now byNetworkChange now jitterSeed
  | .backoffElapsed token now networkChanged, .recovering ep =>
      if ep.awaiting ≠ .backoff token then (p, []) else p.onBackoffElapsed ep now networkChanged
  | .attemptOk token now, .recovering ep =>
      match ep.awaiting with
      | .dial awaited path => if awaited ≠ token then (p, []) else p.onAttemptOk ep path now
      | .backoff _ => (p, [])
  | .attemptFailed token now kind jitterSeed, .recovering ep =>
      match ep.awaiting with
      | .dial awaited path =>
          if awaited ≠ token then (p, []) else p.onAttemptFailed nextDelay ep path now kind jitterSeed
      | .backoff _ => (p, [])
  | .tick now, .recovering ep =>
      if reconnectNotifyDue ep.disconnectedAt now then
        (p, [.showReconnecting (now.saturatingSub ep.disconnectedAt) ep.resumeWindow])
      else (p, [])
  | _, _ => (p, [])

end ResumePlanner

/-!
## `BUSY_OTHER_SESSION` の再試行の期限

`isekai-transport/src/backoff.rs` の `BackoffPolicy` と、`isekai-pipe/src/resume_fsm.rs` の `BusyOtherSessionRetry` を
定める。揺らぎの乱数と浮動小数の積は、種から定まる乱数生成器 `seedFromU64` と、基準の長さを伸び縮みさせる `scaled` に置く。
-/

/-! ## バックオフの長さ -/

structure BackoffPolicy where
  initial : Duration
  max : Duration
  jitter : Rat

namespace BackoffPolicy

/-- `initial * 2^attempt` を `max` に切り詰める。どちらも 64 ビットのミリ秒に直して計算する。 -/
def baseDelay (p : BackoffPolicy) (attempt : Nat) : Duration :=
  let shift := min attempt 32
  let multiplier := 2 ^ shift
  let initialMillis := min p.initial.asMillis (maxOf 64)
  let maxMillis := min p.max.asMillis (maxOf 64)
  Duration.fromMillis (min (satMul 64 initialMillis multiplier) maxMillis)

variable {ρ : Type} (seedFromU64 : UInt64 → ρ) (scaled : Duration → Rat → ρ → Duration)

/-- `scaled base jitter rng` は、`base` に `1 ± jitter` の乱数を掛けて、負にならないように丸めた長さである。 -/
def delayForAttempt (p : BackoffPolicy) (attempt : Nat) (rng : ρ) : Duration :=
  let base := p.baseDelay attempt
  if p.jitter ≤ 0 then base
  else
    let jitter := min p.jitter 1
    min (scaled base jitter rng) p.max

def nextDelay (p : BackoffPolicy) (attempt : Nat) (seed : UInt64) : Duration :=
  p.delayForAttempt scaled attempt (seedFromU64 seed)

end BackoffPolicy

def resumeBackoff : BackoffPolicy where
  initial := Duration.fromMillis 500
  max := Duration.fromSecs 10
  jitter := 1 / 4

/-! ## 再試行 -/

structure BusyOtherSessionRetry where
  deadline : Millis
  attempt : Nat
deriving DecidableEq

inductive BusyRetryDecision
  | giveUp
  | retryAfter (after : Duration)
deriving DecidableEq

/-- `on_failure` の 1 回の呼び出しの引数。 -/
structure Failure where
  now : Millis
  busyOtherSession : Bool
  jitterSeed : UInt64
deriving DecidableEq

namespace BusyOtherSessionRetry

def start (now : Millis) (window : Duration) : BusyOtherSessionRetry := ⟨millisAfter now window, 0⟩

variable {ρ : Type} (seedFromU64 : UInt64 → ρ) (scaled : Duration → Rat → ρ → Duration)

def onFailure (r : BusyOtherSessionRetry) (f : Failure) : BusyOtherSessionRetry × BusyRetryDecision :=
  if f.busyOtherSession = false ∨ r.deadline ≤ f.now then (r, .giveUp)
  else
    let after := min (resumeBackoff.nextDelay seedFromU64 scaled r.attempt f.jitterSeed) (r.deadline.saturatingSub f.now)
    ({ r with attempt := satAdd 32 r.attempt 1 }, .retryAfter after)

/-- 呼び出しの列の `n` 回目の直前の状態。 -/
def before (r : BusyOtherSessionRetry) (calls : Nat → Failure) : Nat → BusyOtherSessionRetry
  | 0 => r
  | n + 1 => ((before r calls n).onFailure seedFromU64 scaled (calls n)).1

/-- 呼び出しの列の `n` 回目の判断。 -/
def decision (r : BusyOtherSessionRetry) (calls : Nat → Failure) (n : Nat) : BusyRetryDecision :=
  ((r.before seedFromU64 scaled calls n).onFailure seedFromU64 scaled (calls n)).2

end BusyOtherSessionRetry

namespace BusyOtherSessionRetry

/-- 次の呼び出しは、待つ長さと 1 ミリ秒の長い方よりも後である。 -/
def Spaced {ρ : Type} (seedFromU64 : UInt64 → ρ) (scaled : Duration → Rat → ρ → Duration) (r : BusyOtherSessionRetry)
    (calls : Nat → Failure) : Prop :=
  ∀ n after, r.decision seedFromU64 scaled calls n = .retryAfter after →
    Duration.fromMillis (calls n).now + max after (Duration.fromMillis 1) ≤ Duration.fromMillis (calls (n + 1)).now

end BusyOtherSessionRetry

end IsekaiTerminal.Resume
