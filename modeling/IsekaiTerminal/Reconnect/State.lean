import IsekaiTerminal.Lib.Saturating
import IsekaiTerminal.Protocol.Attach
import IsekaiTerminal.Lib.Transition

/-!
# モバイルの自動再接続の判断（`ReconnectState`）

`rust-core/src/reconnect_fsm.rs` の reducer を定める。ループの生存を示す `reconnect_epoch` は 64 ビットで折り返す。
session の世代は比較にしか使わないので、上限のない自然数とする。
-/

namespace IsekaiTerminal.Reconnect

open Protocol Lib

/-! ## 方針 -/

structure ReconnectPolicy where
  tick : Duration
  retryInterval : Duration
  timeout : Duration
  timeout_le : timeout ≤ Duration.max
deriving DecidableEq

/-- 何 tick ごとに 1 回試みるか。 -/
def ReconnectPolicy.ticksPerRetry (policy : ReconnectPolicy) : Nat :=
  max (policy.retryInterval / max policy.tick 1) 1

/-- `as u32` は下位 32 ビットを取る。 -/
def ReconnectPolicy.timeoutSecs (policy : ReconnectPolicy) : Nat := policy.timeout.asSecs % 2 ^ 32

instance : Inhabited ReconnectPolicy :=
  ⟨⟨.fromSecs 1, .fromSecs 3, .fromSecs 60, by decide⟩⟩

/-- 動作中のループ 1 本分の会計。満了したタイマーだけを数える。 -/
structure LoopClock where
  elapsed : Duration
  tickCount : Nat
  armed : ReconnectPolicy
deriving DecidableEq

/-- 満了したタイマーを設定したときの方針で会計を進める。 -/
def LoopClock.tick (clock : LoopClock) : LoopClock :=
  { clock with
    elapsed := clock.elapsed.saturatingAdd clock.armed.tick
    tickCount := satAdd 64 clock.tickCount 1 }

/-! ## 状態 -/

inductive ConnPhase
  | idle
  | connecting
  | connected
deriving DecidableEq

inductive BackgroundState
  | foreground
  | quiescing
  | suspended
deriving DecidableEq

inductive DisconnectKind
  | gracefulRemoteExit
  | networkLost
  | transportError
deriving DecidableEq

inductive ConnectionIssueHint
  | localNetworkPermissionPossiblyDenied
deriving DecidableEq

/-- 直前の手動接続を指す不透明な参照。 -/
structure AttemptRef where
  raw : UInt64
deriving DecidableEq

def AttemptRef.nextAfter : Option AttemptRef → AttemptRef
  | none => ⟨0⟩
  | some prev => ⟨prev.raw + 1⟩

inductive AttemptSource
  | tick
  | pendingWake
  | networkWake
deriving DecidableEq

structure ReconnectState where
  phase : ConnPhase
  reconnectEpoch : UInt64
  reconnectLoopActive : Bool
  retryAttemptInFlight : Bool
  pendingWake : Bool
  userInitiatedDisconnect : Bool
  backgroundState : BackgroundState
  lastAttempt : Option AttemptRef
  edgeOpen : Option Nat
  lastEstablished : Option Nat
  loopClock : Option LoopClock
deriving DecidableEq

/-- `ReconnectState::default()`。 -/
def ReconnectState.start : ReconnectState where
  phase := .idle
  reconnectEpoch := 0
  reconnectLoopActive := false
  retryAttemptInFlight := false
  pendingWake := false
  userInitiatedDisconnect := false
  backgroundState := .foreground
  lastAttempt := none
  edgeOpen := none
  lastEstablished := none
  loopClock := none

/-! ## イベントと作用 -/

inductive ReconnectEvent
  | attemptConnected (generation : Nat)
  | attemptDisconnected (generation : Nat) (kind : DisconnectKind) (targetsLocalNetwork : Bool)
  | sessionCreated (newGeneration : Nat)
  | manualConnectStarted (attempt : AttemptRef)
  | reconnectSessionStarting
  | foregroundReconnectFailedSync
  | loopStarted (epoch : UInt64) (policy : ReconnectPolicy)
  | reconnectWake (epoch : UInt64) (policy : ReconnectPolicy)
  | reconnectTick (epoch : UInt64) (policy : ReconnectPolicy)
  | attemptFailedSync (epoch : UInt64)
  | cancelReconnect
  | userDisconnect
  | manualConnectFailedSync
  | loopStartAborted (epoch : UInt64)
deriving DecidableEq

inductive ReconnectEffect
  | invalidatePathObserver
  | wakeReconnectLoop
  | startReconnectLoop (attempt : AttemptRef) (epoch : UInt64)
  | publishDisconnected (issueHint : Option ConnectionIssueHint)
  | publishConnected
  | startAttempt (epoch : UInt64) (source : AttemptSource)
  | pendingWakeRecorded (epoch : UInt64)
  | publishConnecting
  | manualConnectRejected
  | edgeEstablished (generation : Nat)
  | edgeLost (generation : Nat)
  | armLoopTimer (epoch : UInt64) (after : Duration) (elapsedSecs : Nat)
  | publishReconnecting (elapsedSecs timeoutSecs : Nat)
  | publishReconnectTimedOut (timeoutSecs : Nat)
  | loopWokeEarly (epoch : UInt64)
  | loopTicked (epoch : UInt64) (tickCount elapsedSecs : Nat)
  | abortInFlightAttempt
  | disconnectSession
deriving DecidableEq

/-! ## 遷移 -/

namespace ReconnectState

def closeEdge (s : ReconnectState) : ReconnectState × List ReconnectEffect :=
  match s.edgeOpen with
  | some generation => ({ s with edgeOpen := none }, [.edgeLost generation])
  | none => (s, [])

/-- `phase` の唯一の書き手。Connected 以外へ動かすときは、開いている edge を閉じる。 -/
def setPhase (s : ReconnectState) (phase : ConnPhase) : ReconnectState × List ReconnectEffect :=
  if phase ≠ .connected then ({ s.closeEdge.1 with phase := phase }, s.closeEdge.2)
  else ({ s with phase := phase }, [])

def stopLoop (s : ReconnectState) : ReconnectState :=
  { s with
    reconnectEpoch := s.reconnectEpoch + 1
    reconnectLoopActive := false
    retryAttemptInFlight := false
    pendingWake := false
    loopClock := none }

def abortLoopAttempt (s : ReconnectState) : ReconnectState × List ReconnectEffect :=
  ((s.setPhase .idle).1, (s.setPhase .idle).2 ++ [.abortInFlightAttempt])

def loopIsLive (s : ReconnectState) (epoch : UInt64) : Bool :=
  epoch == s.reconnectEpoch && s.reconnectLoopActive && s.loopClock.isSome

def armLoopTimer (s : ReconnectState) (epoch : UInt64) (policy : ReconnectPolicy) :
    ReconnectState × List ReconnectEffect :=
  match s.loopClock with
  | some clock =>
      ({ s with loopClock := some { clock with armed := policy } },
        [.armLoopTimer epoch policy.tick clock.elapsed.asSecs])
  | none => (s, [])

def onLoopStarted (s : ReconnectState) (epoch : UInt64) (policy : ReconnectPolicy) :
    ReconnectState × List ReconnectEffect :=
  if epoch ≠ s.reconnectEpoch ∨ s.reconnectLoopActive = false ∨ s.loopClock.isSome then (s, [])
  else
    let r := { s with loopClock := some ⟨0, 0, policy⟩ }.armLoopTimer epoch policy
    (r.1, .publishReconnecting 0 policy.timeoutSecs :: r.2)

def onAttemptConnected (s : ReconnectState) (generation : Nat) :
    ReconnectState × List ReconnectEffect :=
  -- 別の世代の edge が開いたままなら、先に閉じる。
  let r := if s.edgeOpen.any (· ≠ generation) then s.closeEdge else (s, [])
  let s := (r.1.setPhase .connected).1.stopLoop
  let effects := r.2 ++ (r.1.setPhase .connected).2 ++ [.publishConnected]
  if s.edgeOpen.isNone ∧ ¬ s.lastEstablished.any (generation ≤ ·) then
    ({ s with edgeOpen := some generation, lastEstablished := some generation },
      effects ++ [.edgeEstablished generation])
  else (s, effects)

def onManualConnectStarted (s : ReconnectState) (attempt : AttemptRef) :
    ReconnectState × List ReconnectEffect :=
  if s.phase = .connecting then (s, [.manualConnectRejected])
  else
    let r := s.setPhase .connecting
    ({ { r.1 with lastAttempt := some attempt, userInitiatedDisconnect := false }.stopLoop with
        backgroundState := .foreground },
      r.2 ++ [.invalidatePathObserver, .publishConnecting])

/-- 予期しない切断。既にループが動作中なら、ループの次の tick に任せる。 -/
def onAttemptDisconnected (s : ReconnectState) (kind : DisconnectKind) (targetsLocalNetwork : Bool) :
    ReconnectState × List ReconnectEffect :=
  let wasConnected := decide (s.phase = .connected)
  let wakeReconnectLoop := s.reconnectLoopActive && s.pendingWake
  let r := { s with userInitiatedDisconnect := false }.setPhase .idle
  let s' := { r.1 with retryAttemptInFlight := false }
  let effects := .invalidatePathObserver :: r.2
  if s.reconnectLoopActive then
    -- `pendingWake` は、起こされたループの次の試行が下ろす。
    (s', effects ++ if wakeReconnectLoop then [.wakeReconnectLoop] else [])
  else if wasConnected ∧ s.userInitiatedDisconnect = false ∧ kind ≠ .gracefulRemoteExit then
    let s' := { s' with pendingWake := false }
    match s.lastAttempt with
    | some attempt =>
        ({ s' with
            reconnectLoopActive := true
            reconnectEpoch := s.reconnectEpoch + 1
            loopClock := none },
          effects ++ [.startReconnectLoop attempt (s.reconnectEpoch + 1)])
    | none => ({ s' with backgroundState := .foreground }, effects ++ [.publishDisconnected none])
  else
    let issueHint := if wasConnected = false ∧ targetsLocalNetwork then
      some .localNetworkPermissionPossiblyDenied else none
    ({ s' with pendingWake := false, backgroundState := .foreground },
      effects ++ [.publishDisconnected issueHint])

def onReconnectWake (s : ReconnectState) (epoch : UInt64) (policy : ReconnectPolicy) :
    ReconnectState × List ReconnectEffect :=
  if s.loopIsLive epoch = false then (s, [])
  else if s.retryAttemptInFlight = false then
    let r := { s with retryAttemptInFlight := true, pendingWake := false }.armLoopTimer epoch policy
    (r.1, .loopWokeEarly epoch :: .startAttempt epoch .networkWake :: r.2)
  else
    let r := { s with pendingWake := true }.armLoopTimer epoch policy
    (r.1, .loopWokeEarly epoch :: .pendingWakeRecorded epoch :: r.2)

def onReconnectTick (s : ReconnectState) (epoch : UInt64) (policy : ReconnectPolicy) :
    ReconnectState × List ReconnectEffect :=
  if s.loopIsLive epoch = false then (s, [])
  else match s.loopClock with
  | none => (s, [])
  | some clock =>
      let armed := clock.armed
      let clock := clock.tick
      let s := { s with loopClock := some clock }
      let effects := [.loopTicked epoch clock.tickCount clock.elapsed.asSecs]
      if armed.timeout ≤ clock.elapsed then
        let r := s.stopLoop.abortLoopAttempt
        (r.1, effects ++ r.2 ++ [.publishReconnectTimedOut armed.timeoutSecs])
      else
        let effects := effects ++ [.publishReconnecting (clock.elapsed.asSecs % 2 ^ 32) armed.timeoutSecs]
        let due := clock.tickCount % armed.ticksPerRetry == 0
        if s.retryAttemptInFlight = false ∧ (due || s.pendingWake) then
          let source := if s.pendingWake then AttemptSource.pendingWake else .tick
          let r := { s with retryAttemptInFlight := true, pendingWake := false }.armLoopTimer epoch policy
          (r.1, effects ++ .startAttempt epoch source :: r.2)
        else
          let r := s.armLoopTimer epoch policy
          (r.1, effects ++ r.2)

def apply (s : ReconnectState) : ReconnectEvent → ReconnectState × List ReconnectEffect
  | .attemptConnected generation => s.onAttemptConnected generation
  | .attemptDisconnected _ kind targetsLocalNetwork => s.onAttemptDisconnected kind targetsLocalNetwork
  | .sessionCreated newGeneration => if s.edgeOpen.any (· ≠ newGeneration) then s.closeEdge else (s, [])
  | .manualConnectStarted attempt => s.onManualConnectStarted attempt
  | .reconnectSessionStarting => s.setPhase .connecting
  | .foregroundReconnectFailedSync =>
      ((s.setPhase .idle).1, (s.setPhase .idle).2 ++ [.publishDisconnected none])
  | .loopStarted epoch policy => s.onLoopStarted epoch policy
  | .reconnectWake epoch policy => s.onReconnectWake epoch policy
  | .reconnectTick epoch policy => s.onReconnectTick epoch policy
  | .attemptFailedSync epoch =>
      if epoch = s.reconnectEpoch then
        let s := { s with retryAttemptInFlight := false }
        -- 試行は、`phase` を Connecting にしてから同期的に失敗する。
        if s.phase = .connecting then s.setPhase .idle else (s, [])
      else (s, [])
  | .cancelReconnect =>
      if s.reconnectLoopActive then
        let r := { s.stopLoop with backgroundState := .foreground }.abortLoopAttempt
        (r.1, r.2 ++ [.publishDisconnected none])
      else (s.stopLoop, [])
  | .userDisconnect =>
      if s.reconnectLoopActive then
        let r := { s.stopLoop with
          userInitiatedDisconnect := false, backgroundState := .foreground }.abortLoopAttempt
        (r.1, .invalidatePathObserver :: r.2 ++ [.publishDisconnected none])
      else ({ s with userInitiatedDisconnect := true }, [.disconnectSession])
  | .manualConnectFailedSync => if s.phase = .connecting then s.setPhase .idle else (s, [])
  | .loopStartAborted epoch =>
      if epoch ≠ s.reconnectEpoch then (s, [])
      else
        ({ s with reconnectLoopActive := false, loopClock := none, backgroundState := .foreground },
          [.publishDisconnected none])

end ReconnectState

/-!
## 自動再接続の履歴

reducer の内部の状態を見ずに、届いたイベントと出た作用だけから定まる値を定める。
-/

/-! ## 接続の edge -/

inductive Edge
  | established (generation : Nat)
  | lost (generation : Nat)
deriving DecidableEq

def ReconnectEffect.edge? : ReconnectEffect → Option Edge
  | .edgeEstablished generation => some (.established generation)
  | .edgeLost generation => some (.lost generation)
  | _ => none

def edges (effects : List ReconnectEffect) : List Edge := effects.filterMap ReconnectEffect.edge?

/-- 閉じた edge の世代の列と、まだ開いている edge の世代から成る edge の列。 -/
def edgesOf (closed : List Nat) (edgeOpen : Option Nat) : List Edge :=
  closed.flatMap (fun g => [.established g, .lost g]) ++ edgeOpen.toList.map .established

/-! ## ユーザーの切断 -/

/-- いまの接続。`stale` は、確立したとき前のユーザー切断がまだ残っていたか、`userDisconnected` は、確立した後に
ユーザーが切断したかを表す。 -/
structure Connection where
  generation : Nat
  stale : Bool
  userDisconnected : Bool

/-- `pending` は、切断の通知をまだ受けていないユーザー切断があるかを表す。 -/
structure DisconnectLog where
  pending : Bool
  connection : Option Connection

namespace DisconnectLog

def start : DisconnectLog := ⟨false, none⟩

def next (log : DisconnectLog) (e : ReconnectEvent) (effects : List ReconnectEffect) : DisconnectLog :=
  match e with
  | .attemptConnected generation =>
      if log.connection.any (·.generation = generation) then log
      else { log with connection := some ⟨generation, log.pending, false⟩ }
  | .attemptDisconnected _ _ _ => ⟨false, none⟩
  | .manualConnectStarted _ => if effects = [.manualConnectRejected] then log else ⟨false, none⟩
  | .reconnectSessionStarting | .foregroundReconnectFailedSync => { log with connection := none }
  | .userDisconnect =>
      ⟨decide (effects = [.disconnectSession]),
        log.connection.map fun c => { c with userDisconnected := true }⟩
  | .sessionCreated _ | .loopStarted _ _ | .reconnectWake _ _ | .reconnectTick _ _ | .attemptFailedSync _
  | .cancelReconnect | .manualConnectFailedSync | .loopStartAborted _ => log

/-- いまの接続が確立した後に、ユーザーが切断した。 -/
def userDisconnected (log : DisconnectLog) : Bool := log.connection.any (·.userDisconnected)

/-- いまの接続が確立したとき、前のユーザー切断がまだ残っていた。 -/
def stale (log : DisconnectLog) : Bool := log.connection.any (·.stale)

end DisconnectLog

/-- 接続中の予期しない切断で、再接続の相手が分かっている。 -/
def Interrupts (s : ReconnectState) (e : ReconnectEvent) (attempt : AttemptRef) : Prop :=
  s.phase = .connected ∧ s.reconnectLoopActive = false ∧ s.lastAttempt = some attempt ∧
    ∃ generation kind targetsLocalNetwork, e = .attemptDisconnected generation kind targetsLocalNetwork ∧
      kind ≠ .gracefulRemoteExit

/-! ## 自動再接続ループ -/

def ReconnectEffect.isArm : ReconnectEffect → Bool
  | .armLoopTimer _ _ _ => true
  | _ => false

def ReconnectEffect.isTicked : ReconnectEffect → Bool
  | .loopTicked _ _ _ => true
  | _ => false

def ReconnectEffect.isTimedOut : ReconnectEffect → Bool
  | .publishReconnectTimedOut _ => true
  | _ => false

def ReconnectEvent.Drives (e : ReconnectEvent) (epoch : UInt64) : Prop :=
  ∃ policy, e = .reconnectTick epoch policy ∨ e = .reconnectWake epoch policy

/-- epoch `epoch` のループの試行が終わったという知らせ。 -/
def ReconnectEvent.EndsAttempt (e : ReconnectEvent) (epoch : UInt64) : Prop :=
  e = .attemptFailedSync epoch ∨
    ∃ generation kind targetsLocalNetwork, e = .attemptDisconnected generation kind targetsLocalNetwork

/-- `armed` は最後にタイマーを設定した方針、`elapsed` は満了したタイマーの長さの和である。 -/
structure LoopLog where
  armed : Option ReconnectPolicy
  elapsed : Duration

namespace LoopLog

def start : LoopLog := ⟨none, 0⟩

def next (log : LoopLog) (e : ReconnectEvent) (effects : List ReconnectEffect) : LoopLog :=
  match e with
  | .loopStarted _ policy => if effects.any ReconnectEffect.isArm then ⟨some policy, 0⟩ else log
  | .reconnectWake _ policy =>
      if effects.any ReconnectEffect.isArm then { log with armed := some policy } else log
  | .reconnectTick _ policy =>
      if effects.any ReconnectEffect.isTicked then
        { armed := if effects.any ReconnectEffect.isArm then some policy else log.armed
          elapsed := log.elapsed + log.armed.elim 0 ReconnectPolicy.tick }
      else log
  | _ => log

end LoopLog

/-! ## 実行 -/

abbrev after (es : List ReconnectEvent) : ReconnectState := Reducer.run ReconnectState.apply .start es

abbrev effects (es : List ReconnectEvent) : List ReconnectEffect :=
  Reducer.outputs ReconnectState.apply .start es

abbrev disconnectLog (es : List ReconnectEvent) : DisconnectLog :=
  Reducer.watch ReconnectState.apply DisconnectLog.next .start .start es

abbrev loopLog (es : List ReconnectEvent) : LoopLog :=
  Reducer.watch ReconnectState.apply LoopLog.next .start .start es

/-- 状態 `s` からイベントの列を適用する間、epoch `epoch` のループが動き続ける。 -/
def LiveThroughout (s : ReconnectState) (epoch : UInt64) (es : List ReconnectEvent) : Prop :=
  ∀ before, before <+: es → (Reducer.run ReconnectState.apply s before).loopIsLive epoch = true

/-- ユーザーの切断が、それより後に確立した接続の自動再接続を妨げない。 -/
def AutoReconnects (es : List ReconnectEvent) : Prop :=
  ∀ before e later attempt, es = before ++ e :: later → Interrupts (after before) e attempt →
    (disconnectLog before).userDisconnected = false →
      .startReconnectLoop attempt ((after before).reconnectEpoch + 1) ∈ ((after before).apply e).2

end IsekaiTerminal.Reconnect
