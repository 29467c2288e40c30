import IsekaiTerminal.Lib.Saturating
import IsekaiTerminal.Protocol.Attach
import IsekaiTerminal.Lib.Transition

/-!
# isekai-ssh の接続の失敗からの回復

`connect_recovery_fsm.rs` の reducer。
-/

namespace IsekaiTerminal.Recovery

open Lib Protocol

/-!
## 再接続の待ち時間と予算

`backoff.rs` の `BackoffPolicy` と、`reconnect_backoff.rs` の `RedeployGate`、`RecoveryBudget`。乱数で揺らした待ち時間は、
パラメータ `nextDelay` で表す。
-/

structure BackoffPolicy where
  initial : Duration
  max : Duration
  jitter : ℚ

def BackoffPolicy.baseDelay (p : BackoffPolicy) (attempt : Nat) : Duration :=
  let shift := min attempt 32
  let multiplier := 2 ^ shift
  let initialMillis := min p.initial.asMillis (maxOf 64)
  let maxMillis := min p.max.asMillis (maxOf 64)
  .fromMillis (min (min (initialMillis * multiplier) (maxOf 64)) maxMillis)

/-- `next_delay`。方針、試行の番号、乱数の種から待ち時間を決める。 -/
abbrev NextDelay := BackoffPolicy → Nat → Nat → Duration

/-- `next_delay` の範囲。基準の待ち時間の `jitter` の割合までの揺れを、上限で切り詰める。 -/
def NextDelay.WithinJitter (nextDelay : NextDelay) : Prop :=
  ∀ p attempt seed, 0 ≤ p.jitter → p.jitter ≤ 1 →
    (1 - p.jitter) * p.baseDelay attempt ≤ nextDelay p attempt seed ∧
      (nextDelay p attempt seed : ℚ) ≤ min ((1 + p.jitter) * p.baseDelay attempt) p.max

def reconnectBudget : Duration := .fromSecs (24 * 60 * 60)

def reconnectBackoff : BackoffPolicy := ⟨.fromMillis 500, .fromSecs 10, 1 / 4⟩

def reconnectStableThreshold : Duration := .fromSecs 200

def redeployBackoff : BackoffPolicy := ⟨.fromSecs 60, .fromSecs 300, 1 / 4⟩

def addCeil (at_ : Millis) (delay : Duration) : Millis :=
  satAdd 64 at_ (min ((delay + 999999) / 1000000) (maxOf 64))

def wasStable (attemptStarted now : Millis) : Prop :=
  reconnectStableThreshold ≤ now.saturatingSub attemptStarted

/-- 秒の長さと時刻の差の比較を、ミリ秒の比較にする。 -/
theorem fromSecs_le_saturatingSub {n now earlier : Nat} :
    Duration.fromSecs n ≤ Millis.saturatingSub now earlier ↔ n * 1000 ≤ now - earlier := by
  have hsecs : Duration.fromSecs n = n * 1000 * 1000000 := by
    rw [Duration.fromSecs, Nat.mul_assoc]
  rw [hsecs, Millis.saturatingSub, Duration.fromMillis, Nat.mul_le_mul_right_iff (by norm_num)]

instance (attemptStarted now : Millis) : Decidable (wasStable attemptStarted now) :=
  decidable_of_iff (200 * 1000 ≤ now - attemptStarted) fromSecs_le_saturatingSub.symm

/-! ## RedeployGate -/

structure RedeployGate where
  nextDueAt : Option Millis
  attempt : Nat
  deriving DecidableEq

namespace RedeployGate

variable (nextDelay : NextDelay)

def new : RedeployGate := ⟨none, 0⟩

def due (g : RedeployGate) (now : Millis) : Prop := ∀ at_ ∈ g.nextDueAt, at_ ≤ now

instance (g : RedeployGate) (now : Millis) : Decidable (g.due now) :=
  inferInstanceAs (Decidable (∀ at_ ∈ g.nextDueAt, at_ ≤ now))

def recordAttempt (g : RedeployGate) (now : Millis) (seed : Nat) : RedeployGate :=
  ⟨some (addCeil now (nextDelay redeployBackoff g.attempt seed)), g.attempt + 1⟩

def tryConsume (g : RedeployGate) (now : Millis) (seed : Nat) : RedeployGate × Bool :=
  if g.due now then (g.recordAttempt nextDelay now seed, true) else (g, false)

def resetIfStable (g : RedeployGate) (attemptStarted now : Millis) : RedeployGate :=
  if wasStable attemptStarted now then new else g

end RedeployGate

/-! ## RecoveryBudget -/

structure RecoveryBudget where
  attempt : Nat
  lostSince : Option Millis
  lightweightRetries : Nat
  deriving DecidableEq

namespace RecoveryBudget

variable (nextDelay : NextDelay)

def spent (now lostAt : Millis) : Prop := reconnectBudget ≤ now.saturatingSub lostAt

theorem spent_iff {now lostAt : Nat} : spent now lostAt ↔ lostAt + 24 * 60 * 60 * 1000 ≤ now := by
  refine fromSecs_le_saturatingSub.trans ?_
  omega

instance (now lostAt : Millis) : Decidable (spent now lostAt) :=
  decidable_of_iff (24 * 60 * 60 * 1000 ≤ now - lostAt) fromSecs_le_saturatingSub.symm

def default : RecoveryBudget := ⟨0, none, 0⟩

def resetIfStable (b : RecoveryBudget) (attemptStarted now : Millis) : RecoveryBudget :=
  if wasStable attemptStarted now then default else b

def nextBackoff (b : RecoveryBudget) (now : Millis) (seed : Nat) : RecoveryBudget × Option Duration :=
  let lostAt := b.lostSince.getD now
  let b := { b with lostSince := some lostAt }
  if spent now lostAt then (b, none)
  else ({ b with attempt := b.attempt + 1 }, some (nextDelay reconnectBackoff b.attempt seed))

end RecoveryBudget

def maxLightweightRetries : Nat := 5

inductive ConnectOutcomeClass
  | staleTrust
  | unreachable
  | midSessionDisconnect
  | unknown
  deriving DecidableEq

inductive ConnectFailureRecoveryAction
  | noRecoverableSignal
  | autoBootstrapDisabled
  | rebootstrapAndRetry
  | retryConnectLightweight
  deriving DecidableEq

def decideConnectFailureRecovery (outcomeClass : Option ConnectOutcomeClass) (shouldBootstrap : Bool) :
    ConnectFailureRecoveryAction :=
  match outcomeClass with
  | none => .noRecoverableSignal
  | some .midSessionDisconnect => .retryConnectLightweight
  | some .staleTrust | some .unreachable | some .unknown =>
      if shouldBootstrap then .rebootstrapAndRetry else .autoBootstrapDisabled

def remoteCommandForbidsRetry (cls : ConnectOutcomeClass) (hasRemoteCommand : Bool) : Bool :=
  match cls with
  | .midSessionDisconnect | .unknown => hasRemoteCommand
  | .staleTrust | .unreachable => false

def remoteCommandForbidsRetryAfter (cls : ConnectOutcomeClass) (hasRemoteCommand sessionEstablished : Bool) :
    Bool :=
  remoteCommandForbidsRetry cls hasRemoteCommand || (hasRemoteCommand && sessionEstablished)

structure Token where
  id : Nat
  deriving DecidableEq

inductive RedeployResult
  | succeeded
  | retryableFailure
  | fatal
  deriving DecidableEq

inductive RecoveryEvent
  | attemptFailed (token : Token) (started now : Millis) (cls : Option ConnectOutcomeClass)
      (shouldBootstrap hasRemoteCommand sessionEstablished : Bool) (seed : Nat)
  | redeployFinished (token : Token) (now : Millis) (seed : Nat) (result : RedeployResult)
  | backoffElapsed (token : Token)
  deriving DecidableEq

inductive RecoveryLog
  | autoBootstrapDisabled
  | rebootstrapDecision
  | remoteCommandNotRetried
  | lightweightExhaustedNoBootstrap
  | lightweightExhaustedRedeploying
  deriving DecidableEq

inductive RecoveryEffect
  | attempt (token : Token) (silent : Bool)
  | redeploy (token : Token)
  | backoff (token : Token) (delay : Duration)
  | rebuildIntent
  | announceReconnect (attempt : Nat)
  | log (line : RecoveryLog)
  | giveUp
  | failWithRedeployError
  deriving DecidableEq

inductive RedeployOrigin
  | rebootstrap
  | lightweightExhausted
  deriving DecidableEq

inductive Awaiting
  | notStarted
  | attempt (token : Token)
  | redeploy (token : Token) (origin : RedeployOrigin)
  | backoff (token : Token)
  | done
  deriving DecidableEq

structure ConnectRecoveryFsm where
  budget : RecoveryBudget
  gate : RedeployGate
  nextToken : Nat
  awaiting : Awaiting
  deriving DecidableEq

namespace ConnectRecoveryFsm

variable (nextDelay : NextDelay)

def new : ConnectRecoveryFsm := ⟨.default, .new, 0, .notStarted⟩

variable (s : ConnectRecoveryFsm)

def issue : ConnectRecoveryFsm × Token := ({ s with nextToken := s.nextToken + 1 }, ⟨s.nextToken⟩)

def attempt (silent : Bool) : ConnectRecoveryFsm × RecoveryEffect :=
  let (s, token) := s.issue
  ({ s with awaiting := .attempt token }, .attempt token silent)

def redeploy (origin : RedeployOrigin) : ConnectRecoveryFsm × RecoveryEffect :=
  let (s, token) := s.issue
  ({ s with awaiting := .redeploy token origin }, .redeploy token)

def finish (effects : List RecoveryEffect) (last : RecoveryEffect) :
    ConnectRecoveryFsm × List RecoveryEffect :=
  ({ s with awaiting := .done }, effects ++ [last])

def start : ConnectRecoveryFsm × List RecoveryEffect :=
  if s.awaiting ≠ .notStarted then (s, [])
  else
    let (s, effect) := s.attempt false
    (s, [effect])

/-- 予算の結果に応じて、待機を始めるか、あきらめる。 -/
def armBackoff (announce : RecoveryEffect) :
    RecoveryBudget × Option Duration → ConnectRecoveryFsm × List RecoveryEffect
  | (budget, none) => { s with budget }.finish [announce] .giveUp
  | (budget, some delay) =>
      let (s, token) := { s with budget }.issue
      ({ s with awaiting := .backoff token }, [announce, .backoff token delay])

def backoff (now : Millis) (seed : Nat) : ConnectRecoveryFsm × List RecoveryEffect :=
  s.armBackoff (.announceReconnect (s.budget.attempt + 1)) (s.budget.nextBackoff nextDelay now seed)

def resetIfStable (started now : Millis) : ConnectRecoveryFsm :=
  { s with gate := s.gate.resetIfStable started now, budget := s.budget.resetIfStable started now }

/-- 嵐の記録を整えた後の `onAttemptFailed` の続き。 -/
def recover (now : Millis) (cls : Option ConnectOutcomeClass)
    (shouldBootstrap hasRemoteCommand sessionEstablished : Bool) (seed : Nat) :
    ConnectRecoveryFsm × List RecoveryEffect :=
  match decideConnectFailureRecovery cls shouldBootstrap, cls with
  | .noRecoverableSignal, _ | _, none => s.finish [] .giveUp
  | .autoBootstrapDisabled, some _ => s.finish [.log .autoBootstrapDisabled] .giveUp
  | .rebootstrapAndRetry, some cls =>
      if remoteCommandForbidsRetryAfter cls hasRemoteCommand sessionEstablished then
        s.finish [.log .remoteCommandNotRetried] .giveUp
      else
        let (gate, consumed) := s.gate.tryConsume nextDelay now seed
        let s := { s with gate }
        if consumed then
          let (s, effect) := s.redeploy .rebootstrap
          (s, [.log .rebootstrapDecision, effect])
        else s.backoff nextDelay now seed
  | .retryConnectLightweight, some cls =>
      if remoteCommandForbidsRetryAfter cls hasRemoteCommand sessionEstablished then
        s.finish [.log .remoteCommandNotRetried] .giveUp
      else
        let s := { s with budget := { s.budget with lightweightRetries := s.budget.lightweightRetries + 1 } }
        if maxLightweightRetries < s.budget.lightweightRetries then
          if shouldBootstrap = false then s.finish [.log .lightweightExhaustedNoBootstrap] .giveUp
          else
            let (gate, consumed) := s.gate.tryConsume nextDelay now seed
            let s := { s with gate }
            if consumed then
              let (s, effect) := s.redeploy .lightweightExhausted
              (s, [.log .lightweightExhaustedRedeploying, effect])
            else s.backoff nextDelay now seed
        else s.backoff nextDelay now seed

def onAttemptFailed (started now : Millis) (cls : Option ConnectOutcomeClass)
    (shouldBootstrap hasRemoteCommand sessionEstablished : Bool) (seed : Nat) :
    ConnectRecoveryFsm × List RecoveryEffect :=
  (s.resetIfStable started now).recover nextDelay now cls shouldBootstrap hasRemoteCommand sessionEstablished seed

def onRedeployFinished (origin : RedeployOrigin) (now : Millis) (seed : Nat) (result : RedeployResult) :
    ConnectRecoveryFsm × List RecoveryEffect :=
  match result with
  | .succeeded =>
      let s :=
        match origin with
        | .lightweightExhausted => { s with budget := { s.budget with lightweightRetries := 0 } }
        | .rebootstrap => s
      let (s, effect) := s.attempt true
      (s, [effect])
  | .retryableFailure => s.backoff nextDelay now seed
  | .fatal => s.finish [] .failWithRedeployError

def apply (event : RecoveryEvent) : ConnectRecoveryFsm × List RecoveryEffect :=
  match s.awaiting, event with
  | .attempt current, .attemptFailed token started now cls shouldBootstrap hasRemoteCommand
      sessionEstablished seed =>
      if token = current then
        s.onAttemptFailed nextDelay started now cls shouldBootstrap hasRemoteCommand sessionEstablished seed
      else (s, [])
  | .redeploy current origin, .redeployFinished token now seed result =>
      if token = current then s.onRedeployFinished nextDelay origin now seed result else (s, [])
  | .backoff current, .backoffElapsed token =>
      if token = current then
        let (s, effect) := s.attempt false
        (s, [.rebuildIntent, effect])
      else (s, [])
  | _, _ => (s, [])

end ConnectRecoveryFsm

/-!
## 接続の回復の履歴

reducer の内部の状態を見ずに、届いたイベントと出た作用だけから定まる値を定める。
-/

section

variable (nextDelay : NextDelay)

/-! ## 返事を待っている作用 -/

/-- 次に何をするかを決める作用。 -/
def RecoveryEffect.isNext : RecoveryEffect → Bool
  | .attempt _ _ | .redeploy _ | .backoff _ _ | .giveUp | .failWithRedeployError => true
  | .rebuildIntent | .announceReconnect _ | .log _ => false

/-- 最後に出た、次に何をするかを決める作用。 -/
def outstanding (effects : List RecoveryEffect) : Option RecoveryEffect :=
  (effects.filter RecoveryEffect.isNext).getLast?

/-- 作用の列は、次に何をするかを決める作用をちょうど 1 つ、末尾に持つ。 -/
def EndsWith (fx : List RecoveryEffect) (last : RecoveryEffect) : Prop :=
  ∃ init, fx = init ++ [last] ∧ last.isNext = true ∧ ∀ x ∈ init, x.isNext = false

/-- イベント `e` は、作用 `effect` への返事である。 -/
def RecoveryEvent.Answers (e : RecoveryEvent) : Option RecoveryEffect → Prop
  | some (.attempt token _) => ∃ started now cls shouldBootstrap hasRemoteCommand sessionEstablished seed,
      e = .attemptFailed token started now cls shouldBootstrap hasRemoteCommand sessionEstablished seed
  | some (.redeploy token) => ∃ now seed result, e = .redeployFinished token now seed result
  | some (.backoff token _) => e = .backoffElapsed token
  | _ => False

/-! ## 嵐の記録 -/

/-- 嵐の間の出来事。

- `midSession` は、最後の安定した試行または成功した `LightweightExhausted` の再配備から後の `MidSessionDisconnect` の数。
- `firstBackoff` は、最後の安定した試行から後の最初の待機の時刻。
- `firstBackoffSinceRedeploy` は、それを成功した `LightweightExhausted` の再配備でも数え直したもの。
- `lightweightRedeploy` は、終わるのを待っている再配備が `LightweightExhausted` のものか。 -/
structure Storm where
  midSession : Nat
  firstBackoff : Option Millis
  firstBackoffSinceRedeploy : Option Millis
  lightweightRedeploy : Bool
  deriving DecidableEq

namespace Storm

def calm : Storm := ⟨0, none, none, false⟩

def backoff (log : Storm) (now : Millis) (effects : List RecoveryEffect) : Storm :=
  if effects.any fun x => x matches .announceReconnect _ then
    { log with
      firstBackoff := some (log.firstBackoff.getD now)
      firstBackoffSinceRedeploy := some (log.firstBackoffSinceRedeploy.getD now) }
  else log

/-- 試行の失敗が届いたとき、この失敗を数えた後の記録。 -/
def fail (log : Storm) (started now : Millis) (cls : Option ConnectOutcomeClass) : Storm :=
  let log := if wasStable started now then calm else log
  if cls = some .midSessionDisconnect then { log with midSession := log.midSession + 1 } else log

def next (log : Storm) (e : RecoveryEvent) (effects : List RecoveryEffect) : Storm :=
  if effects = [] then log
  else
    match e with
    | .attemptFailed _ started now cls _ _ _ _ =>
        { (log.fail started now cls).backoff now effects with
          lightweightRedeploy := decide (.log .lightweightExhaustedRedeploying ∈ effects) }
    | .redeployFinished _ _ _ .succeeded =>
        if log.lightweightRedeploy then { log with midSession := 0, firstBackoffSinceRedeploy := none } else log
    | .redeployFinished _ now _ _ => log.backoff now effects
    | .backoffElapsed _ => log

end Storm

/-! ## 再配備の記録 -/

/-- 最後の安定した試行から後の、再配備を始めた時刻。 -/
def nextRedeploys (log : List Millis) (e : RecoveryEvent) (effects : List RecoveryEffect) : List Millis :=
  match e with
  | .attemptFailed _ started now _ _ _ _ _ =>
      if effects = [] then log
      else (if wasStable started now then [] else log) ++
        if effects.any fun x => x matches .redeploy _ then [now] else []
  | .redeployFinished _ _ _ _ | .backoffElapsed _ => log

/-! ## 実行 -/

abbrev started : ConnectRecoveryFsm := ConnectRecoveryFsm.new.start.1

abbrev after (es : List RecoveryEvent) : ConnectRecoveryFsm :=
  Reducer.run (ConnectRecoveryFsm.apply nextDelay) started es

abbrev effects (es : List RecoveryEvent) : List RecoveryEffect :=
  ConnectRecoveryFsm.new.start.2 ++ Reducer.outputs (ConnectRecoveryFsm.apply nextDelay) started es

abbrev storm (es : List RecoveryEvent) : Storm :=
  Reducer.watch (ConnectRecoveryFsm.apply nextDelay) Storm.next started .calm es

abbrev redeploys (es : List RecoveryEvent) : List Millis :=
  Reducer.watch (ConnectRecoveryFsm.apply nextDelay) nextRedeploys started [] es

/-! ## あきらめる条件 -/

/-- 待機にも再配備にも進まない失敗。`midSession` は、この失敗を数えた後の `MidSessionDisconnect` の数である。 -/
def Refuses (midSession : Nat) (cls : Option ConnectOutcomeClass)
    (shouldBootstrap hasRemoteCommand sessionEstablished : Bool) : Prop :=
  cls = none ∨
  cls ∈ [some .staleTrust, some .unreachable, some .unknown] ∧ shouldBootstrap = false ∨
  hasRemoteCommand = true ∧
    (sessionEstablished = true ∨ cls ∈ [some .midSessionDisconnect, some .unknown]) ∨
  cls = some .midSessionDisconnect ∧ shouldBootstrap = false ∧ 6 ≤ midSession

/-- 再配備の制限がまだ開いていないか、軽い再接続の回数が残っている。 -/
def FallsToBackoff (gate : RedeployGate) (midSession : Nat) (now : Millis)
    (cls : Option ConnectOutcomeClass) : Prop :=
  ¬ gate.due now ∨ cls = some .midSessionDisconnect ∧ midSession ≤ maxLightweightRetries

/-- 嵐の最初の待機の時刻 `firstBackoff` から 24 時間が過ぎた。 -/
def BudgetSpent (firstBackoff : Option Millis) (now : Millis) : Prop :=
  ∃ at_ ∈ firstBackoff, at_ + 24 * 60 * 60 * 1000 ≤ now

/-- 試行の失敗であきらめる条件。`firstBackoff` は、嵐の最初の待機の時刻を記録から読み取る。 -/
def GivesUpWhen (firstBackoff : Storm → Option Millis) (es : List RecoveryEvent) : Prop :=
  ∀ token started now cls shouldBootstrap hasRemoteCommand sessionEstablished seed,
    let e := RecoveryEvent.attemptFailed token started now cls shouldBootstrap hasRemoteCommand
      sessionEstablished seed
    let log := (storm nextDelay es).fail started now cls
    e.Answers (outstanding (effects nextDelay es)) →
      (((after nextDelay es).apply nextDelay e).2.getLast? = some .giveUp ↔
        Refuses log.midSession cls shouldBootstrap hasRemoteCommand sessionEstablished ∨
          FallsToBackoff ((after nextDelay es).gate.resetIfStable started now) log.midSession now cls ∧
            BudgetSpent (firstBackoff log) now)

/-! ## 再配備の間隔 -/

/-- `k` 回目の再配備から次までの基準の間隔（ミリ秒）。 -/
def redeployBaseMillis (k : Nat) : Nat := min (60 * 1000 * 2 ^ k) (300 * 1000)

end

/-- 再配備の時刻は、前の再配備のどれからも、その間隔だけ離れている。 -/
def Spaced (log : List Millis) : Prop :=
  ∀ i j t u, i < j → log[i]? = some t → log[j]? = some u → satAdd 64 t (3 * redeployBaseMillis i / 4) ≤ u

end IsekaiTerminal.Recovery
