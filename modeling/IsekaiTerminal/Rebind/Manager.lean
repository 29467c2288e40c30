import IsekaiTerminal.Lib.Saturating
import IsekaiTerminal.Lib.Timed
import IsekaiTerminal.Protocol.Attach

/-!
# WiFi とセルラーの切替の状態機械

`rebind_manager.rs` の `RebindManager`。
-/

namespace IsekaiTerminal.Rebind

open Lib Protocol

inductive RebindEvent
  | noViablePath
  | wifiProbeSucceeded
  | wifiProbeFailed
  | trafficQuietDetected
  | trafficBusyDetected
  | manualForceReturnRequested
  | upstreamHealthDegraded
  deriving DecidableEq

inductive RebindPublicState
  | onWifi
  | failedOverToCellular
  | waitingQuietToReturn
  deriving DecidableEq

inductive RebindAction
  | performRebindToCellular
  | startWifiProbe
  | performRebindToWifi
  | publishState (state : RebindPublicState)
  | startQuietWatch
  | stopQuietWatch
  deriving DecidableEq

inductive RebindTimer
  | cellularMinDwell
  | stabilityWindow
  | probeCadence
  | quietWait
  | backoff
  deriving DecidableEq

def cellularMinDwell : Duration := .fromSecs 60

def stabilityWindow : Duration := .fromSecs 15

def stabilityConsecutiveSuccesses : Nat := 5

def probeCadence : Duration := .fromSecs 10

def quietWaitTimeout : Duration := .fromSecs 90

def backoffSteps : List Duration := [.fromSecs 120, .fromSecs 300, .fromSecs 600]

inductive Phase
  | onWifi
  | failedOverToCellular
  | waitingQuietToReturn
  deriving DecidableEq

structure RebindManager where
  phase : Phase
  consecutiveWifiProbeSuccesses : Nat
  stabilitySatisfied : Bool
  cellularMinDwellSatisfied : Bool
  manualForcePending : Bool
  backoffIndex : Nat
  deriving DecidableEq

namespace RebindManager

abbrev Reply := Response RebindAction RebindTimer

def new : RebindManager := ⟨.onWifi, 0, false, false, false, 0⟩

variable (m : RebindManager)

def publicState : RebindPublicState :=
  match m.phase with
  | .onWifi => .onWifi
  | .failedOverToCellular => .failedOverToCellular
  | .waitingQuietToReturn => .waitingQuietToReturn

def resetReturnRound : RebindManager :=
  { m with consecutiveWifiProbeSuccesses := 0, stabilitySatisfied := false }

def resetEpisode : RebindManager :=
  { m.resetReturnRound with cellularMinDwellSatisfied := false, manualForcePending := false }

def currentBackoff : Duration :=
  backoffSteps.get ⟨min m.backoffIndex (backoffSteps.length - 1),
    Nat.lt_of_le_of_lt (Nat.min_le_right _ _) (by decide)⟩

def advanceBackoffIndex : RebindManager :=
  if m.backoffIndex < backoffSteps.length - 1 then { m with backoffIndex := m.backoffIndex + 1 } else m

def handleNoViablePath : RebindManager × Reply :=
  if m.phase ≠ .onWifi then (m, .consume)
  else
    ({ m with phase := .failedOverToCellular }.resetEpisode,
      Response.emit [.performRebindToCellular, .publishState .failedOverToCellular, .startWifiProbe]
        |>.withTimer .cellularMinDwell cellularMinDwell
        |>.withTimer .probeCadence probeCadence)

def maybeEnterWaitingQuiet (resp : Reply) : RebindManager × Reply :=
  if m.phase ≠ .failedOverToCellular ∨ m.consecutiveWifiProbeSuccesses < stabilityConsecutiveSuccesses ∨
      m.stabilitySatisfied = false ∨ m.cellularMinDwellSatisfied = false then (m, resp)
  else
    ({ m with phase := .waitingQuietToReturn },
      ⟨true, resp.actions ++ [.publishState .waitingQuietToReturn, .startQuietWatch],
        resp.timers ++ [.set .quietWait quietWaitTimeout]⟩)

def completeAutomaticReturn : RebindManager × Reply :=
  ({ m with phase := .onWifi, backoffIndex := 0 }.resetEpisode,
    Response.emit [.performRebindToWifi, .publishState .onWifi, .stopQuietWatch]
      |>.withKillTimer .quietWait
      |>.withKillTimer .probeCadence
      |>.withKillTimer .stabilityWindow
      |>.withKillTimer .backoff
      |>.withKillTimer .cellularMinDwell)

def completeManualReturn : RebindManager × Reply :=
  let m := { m with manualForcePending := false }
  if m.phase = .onWifi then (m, .consume) else m.completeAutomaticReturn

def giveUpRound : RebindManager × Reply :=
  let m := { m with phase := .failedOverToCellular }.resetReturnRound
  (m.advanceBackoffIndex,
    Response.emit [.publishState .failedOverToCellular, .stopQuietWatch]
      |>.withKillTimer .quietWait
      |>.withKillTimer .probeCadence
      |>.withTimer .backoff m.currentBackoff)

def handleProbeSucceeded : RebindManager × Reply :=
  if m.manualForcePending then m.completeManualReturn
  else
    match m.phase with
    | .onWifi => (m, .consume)
    | .failedOverToCellular | .waitingQuietToReturn =>
        let m := { m with consecutiveWifiProbeSuccesses := satAdd 32 m.consecutiveWifiProbeSuccesses 1 }
        m.maybeEnterWaitingQuiet <|
          if m.consecutiveWifiProbeSuccesses = 1 then
            Response.consume.withTimer .stabilityWindow stabilityWindow
          else .consume

def handleProbeFailed : RebindManager × Reply :=
  if m.manualForcePending then ({ m with manualForcePending := false }, .consume)
  else
    match m.phase with
    | .onWifi => (m, .consume)
    | .failedOverToCellular =>
        ({ m with consecutiveWifiProbeSuccesses := 0 }, Response.consume.withKillTimer .stabilityWindow)
    | .waitingQuietToReturn => m.giveUpRound

def handleQuietDetected : RebindManager × Reply :=
  if m.phase ≠ .waitingQuietToReturn then (m, .consume) else m.completeAutomaticReturn

def handleManualForceReturn : RebindManager × Reply :=
  if m.phase = .onWifi then (m, .consume)
  else ({ m with manualForcePending := true }, .emit [.startWifiProbe])

def onEvent : RebindEvent → RebindManager × Reply
  | .noViablePath | .upstreamHealthDegraded => m.handleNoViablePath
  | .wifiProbeSucceeded => m.handleProbeSucceeded
  | .wifiProbeFailed => m.handleProbeFailed
  | .trafficQuietDetected => m.handleQuietDetected
  | .trafficBusyDetected => (m, .consume)
  | .manualForceReturnRequested => m.handleManualForceReturn

def onTimeout : RebindTimer → RebindManager × Reply
  | .cellularMinDwell =>
      if m.phase = .onWifi then (m, .passThrough)
      else { m with cellularMinDwellSatisfied := true }.maybeEnterWaitingQuiet .consume
  | .stabilityWindow =>
      if m.phase = .onWifi then (m, .passThrough)
      else { m with stabilitySatisfied := true }.maybeEnterWaitingQuiet .consume
  | .probeCadence =>
      if m.phase = .onWifi then (m, .passThrough)
      else (m, (Response.emit [.startWifiProbe]).withTimer .probeCadence Rebind.probeCadence)
  | .quietWait => if m.phase ≠ .waitingQuietToReturn then (m, .passThrough) else m.giveUpRound
  | .backoff =>
      if m.phase = .onWifi then (m, .passThrough)
      else (m, (Response.emit [.startWifiProbe]).withTimer .probeCadence Rebind.probeCadence)

def machine : TimedStateMachine RebindManager RebindEvent RebindAction RebindTimer := ⟨onEvent, onTimeout⟩

abbrev Config := TimedStateMachine.Config RebindManager RebindTimer

abbrev Entry := TimedStateMachine.Entry RebindManager RebindEvent RebindAction RebindTimer

/-- 生成した直後。どのタイマーも動いていない。 -/
def start : Config := ⟨new, fun _ => false⟩

abbrev Reaches (es : List Entry) (c : Config) : Prop := machine.Reaches start es c

end RebindManager

section

open RebindManager

/-!
## 切替の履歴

反応の列から、切替の順、最後に公開した状態、直近のセルラーへの切替より後の反応を読み取る。
-/

def actions (es : List Entry) : List RebindAction := es.flatMap (·.response.actions)

/-! ## 切替の順と公開した状態 -/

def rebinds (es : List Entry) : List RebindAction :=
  (actions es).filter fun a => a = .performRebindToCellular ∨ a = .performRebindToWifi

/-- セルラーへの切替から始まり、両方向の切替が交互に並ぶ。 -/
def Alternates (as : List RebindAction) : Prop :=
  ∃ n, as <+: (List.replicate n [RebindAction.performRebindToCellular, .performRebindToWifi]).flatten

def published? : RebindAction → Option RebindPublicState
  | .publishState s => some s
  | _ => none

def watched? : RebindAction → Option Bool
  | .startQuietWatch => some true
  | .stopQuietWatch => some false
  | _ => none

def lastPublished (es : List Entry) : RebindPublicState :=
  ((actions es).filterMap published?).getLast?.getD .onWifi

def quietWatched (es : List Entry) : Bool := ((actions es).filterMap watched?).getLast?.getD false

/-! ## 現在の episode -/

/-- 直近のセルラーへの切替より後の反応。 -/
def episode (es : List Entry) : List Entry :=
  es.rtakeWhile fun x => .performRebindToCellular ∉ x.response.actions

def ProbeResult (x : Entry) : Prop :=
  x.input = .event .wifiProbeSucceeded ∨ x.input = .event .wifiProbeFailed

/-- 手動の要求の後、まだ疎通確認の結果が届いていない。 -/
def ManualRequested (es : List Entry) : Prop :=
  ∃ before x later, episode es = before ++ x :: later ∧ x.input = .event .manualForceReturnRequested ∧
    ∀ y ∈ later, ¬ ProbeResult y

/-- 手動の要求への応答ではない失敗。 -/
def OrdinaryFailure (x : Entry) : Prop :=
  x.input = .event .wifiProbeFailed ∧ x.before.manualForcePending = false

def StartsWindow (x : Entry) : Prop := .set .stabilityWindow stabilityWindow ∈ x.response.timers

/-- `fails` を間に挟まない成功の並び。先頭の成功だけが `StabilityWindow` を動かし始める。 -/
structure Streak (fails : Entry → Prop) (seg : List Entry) : Prop where
  first : ∃ x rest, seg = x :: rest ∧ x.input = .event .wifiProbeSucceeded ∧ StartsWindow x ∧
    ∀ y ∈ rest, ¬ StartsWindow y
  unbroken : ∀ x ∈ seg, ¬ fails x

def successes (seg : List Entry) : Nat := seg.countP fun x => x.input = .event .wifiProbeSucceeded

/-- 並びの先頭の成功で動かし始めた `StabilityWindow` が、並びの中で満了した。 -/
def WindowExpired (seg : List Entry) : Prop := ∃ x ∈ seg, x.input = .timeout .stabilityWindow

/-- `es` の後の反応 `e` による復帰が、最小滞在と静けさの条件を満たし、episode の中に、性質 `P` を満たす十分な回数の成功の並びがある。 -/
def Damped (fails : Entry → Prop) (P : List Entry → Prop) (es : List Entry) (e : Entry) : Prop :=
  e.input = .event .trafficQuietDetected ∧ (∃ x ∈ episode es, x.input = .timeout .cellularMinDwell) ∧
    ∃ seg, seg <:+: episode es ∧ Streak fails seg ∧ stabilityConsecutiveSuccesses ≤ successes seg ∧ P seg

/-- 手動の要求の後の最初の成功による復帰。 -/
def ByManualRequest (es : List Entry) (e : Entry) : Prop :=
  e.input = .event .wifiProbeSucceeded ∧ ManualRequested es

/-- `StabilityWindow` が満了した後に、同じ episode の中で普通の失敗が届いた。 -/
def FailsAfterExpiry (es : List Entry) : Prop :=
  ∃ x ∈ episode es, OrdinaryFailure x ∧ x.before.phase = .failedOverToCellular ∧
    x.before.stabilitySatisfied = true

structure Hysteresis (es : List Entry) (m : RebindManager) : Prop where
  alternates : Alternates (rebinds es)
  damped : ∀ before e later, es = before ++ e :: later → .performRebindToWifi ∈ e.response.actions →
    ByManualRequest before e ∨
      Damped (fun x => x.input = .event .wifiProbeFailed) WindowExpired before e
  published : lastPublished es = m.publicState
  watched : quietWatched es = true ↔ m.phase = .waitingQuietToReturn

end

end IsekaiTerminal.Rebind
