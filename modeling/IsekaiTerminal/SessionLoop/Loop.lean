import IsekaiTerminal.Emulator.SessionState
import IsekaiTerminal.Trzsz.Fsm

/-!
# `session_event_loop`

`rust-core/src/session.rs` の event loop の 1 回の反復と、外で進むタイマーのタスクと時刻を、1 つの遷移とする。
続けて届いた `Stdout` は 1 つのバッチである。vte と APC の解釈は、バイト列を端末のイベントの列に変える `parse` に置く。
callback と transport への送信は、画面の反映のほかは載せない。
-/

namespace IsekaiTerminal.SessionLoop

open Lib

/-!
## event loop のタイマー

`rust-core/src/session.rs` の `RepaintThrottle`、`TokioTimerRuntime`、同期出力の safety-net のタイマーを定める。
時刻の単位はナノ秒である。`abort` は眠っているタスクを止めるが、既にチャネルに入った通知は取り消せない。
-/

def millis (n : Nat) : Nat := n * 1000000

def secs (n : Nat) : Nat := n * 1000000000

/-! ## 画面の反映の間引き -/

structure RepaintThrottle where
  minInterval : Nat
  lastEmit : Option Nat
  armedDeadline : Option Nat
deriving DecidableEq

inductive RepaintDecision
  | emitNow
  | arm (deadline : Nat)
  | alreadyArmed
deriving DecidableEq

def repaintMinInterval : Nat := millis 16

namespace RepaintThrottle

def new (minInterval : Nat) : RepaintThrottle := ⟨minInterval, none, none⟩

def onDirty (t : RepaintThrottle) (now : Nat) : RepaintThrottle × RepaintDecision :=
  if t.armedDeadline.isSome then (t, .alreadyArmed)
  else
    match t.lastEmit with
    | some last =>
        if now < last + t.minInterval then
          ({ t with armedDeadline := some (last + t.minInterval) }, .arm (last + t.minInterval))
        else (t, .emitNow)
    | none => (t, .emitNow)

def noteEmitted (t : RepaintThrottle) (now : Nat) : RepaintThrottle :=
  { t with lastEmit := some now, armedDeadline := none }

def timerArmed (t : RepaintThrottle) : Bool := t.armedDeadline.isSome

end RepaintThrottle

/-! ## trzsz のタイマー -/

/-- `handle` は眠っているタスクの、送る番号と起きる時刻である。通知は容量 16 のチャネル `rx` に入る。 -/
structure TokioTimerRuntime (τ : Type) where
  handle : Option (τ × Nat)
  rx : List τ

namespace TokioTimerRuntime

variable {τ : Type}

def capacity : Nat := 16

def new : TokioTimerRuntime τ := ⟨none, []⟩

def kill (t : TokioTimerRuntime τ) : TokioTimerRuntime τ := { t with handle := none }

def set (t : TokioTimerRuntime τ) (id : τ) (now dur : Nat) : TokioTimerRuntime τ :=
  { t.kill with handle := some (id, now + dur) }

def command (now : Nat) (t : TokioTimerRuntime τ) : TimerCommand τ → TokioTimerRuntime τ
  | .set id duration => t.set id now (secs duration)
  | .kill _ => t.kill

/-- 眠り終えたタスクが、番号をチャネルに入れる。 -/
def wake (t : TokioTimerRuntime τ) (now : Nat) : Option (TokioTimerRuntime τ) :=
  match t.handle with
  | some (id, deadline) =>
      if deadline ≤ now ∧ t.rx.length < capacity then some ⟨none, t.rx ++ [id]⟩ else none
  | none => none

end TokioTimerRuntime

/-! ## 同期出力の safety-net -/

def syncOutputSafetyTimeout : Nat := millis 250

/-- `handle` は `sync_output_timer_handle` の有無、`task` は眠っているタスクの世代と起きる時刻、`rx` は容量 1 のチャネルである。 -/
structure SafetyNet where
  handle : Bool
  task : Option (Nat × Nat)
  generation : Nat
  armedGeneration : Option Nat
  rx : List Nat

namespace SafetyNet

def new : SafetyNet := ⟨false, none, 0, none, []⟩

def timeoutIsCurrent (firedGeneration : Nat) (armedGeneration : Option Nat) : Bool :=
  armedGeneration = some firedGeneration

/-- ループの末尾で、端末の状態と突き合わせる。 -/
def reconcile (s : SafetyNet) (now : Nat) (active : Bool) : SafetyNet :=
  if active then
    if s.handle then s
    else
      { s with
        handle := true
        task := some (s.generation + 1, now + syncOutputSafetyTimeout)
        generation := s.generation + 1
        armedGeneration := some (s.generation + 1) }
  else { s with handle := false, task := none, armedGeneration := none }

def wake (s : SafetyNet) (now : Nat) : Option SafetyNet :=
  match s.task with
  | some (gen, deadline) =>
      if deadline ≤ now ∧ s.rx = [] then some { s with task := none, rx := [gen] } else none
  | none => none

end SafetyNet

section

open Emulator Trzsz

variable {π : Type}

/-! ## 入力 -/

/-- 端末に反映する ctl メッセージ。`other` は、端末もタイマーも変えないメッセージである。 -/
inductive CtlMessage
  | setTitle (value : List Char)
  | setTabColor (rgb : UInt8 × UInt8 × UInt8)
  | setProgress (state : ProgressState) (progress : UInt8)
  | notify (kind : NotifyKind × List Char × List Char)
  | other

inductive TransportEvent
  | stdout (bytes : List UInt8)
  | resized (cols rows : Nat)
  | ctlMessage (msg : CtlMessage)
  | disconnected
  | other

/-- `query` は、フォーカスの変化やプロンプトの検索など、端末を読むだけの命令である。 -/
inductive SessionCmd
  | trzszAcceptUpload (transferId fileName : String) (fileSize : Nat)
  | trzszChunk (transferId : String) (data : List UInt8) (isLast : Bool)
  | trzszAcceptDownload (transferId : String)
  | trzszCancel (transferId : String)
  | setTheme (theme : Theme)
  | setPanelEnabled (enabled : Bool)
  | query

/-- `elapse`、`timerTask`、`safetyTask` は event loop の外で進む。残りは 1 回の反復である。 -/
inductive Action
  | elapse (duration : Nat)
  | timerTask
  | safetyTask
  | event (ev : TransportEvent)
  | timeout
  | command (cmd : SessionCmd)
  | flushStdin
  | safetyTimeout
  | repaint

/-! ## 状態 -/

structure Externals (π : Type) where
  env : Env
  codec : Codec
  parse : Nat → π → List UInt8 → π × List Event

/-- 1 回の `on_screen_update`。`active` は、その時点で同期出力の区間の中かどうかである。 -/
structure Emission where
  time : Nat
  update : ScreenUpdate
  active : Bool

/-- event loop の状態と履歴。`regionStart` は今の同期出力の区間が始まった時刻、`forced` は safety-net が終わらせた区間の
始まりと終わり、`lastCommand` は `Kill` の後でなければ最後の `Set` の時刻と長さ、`timeouts` は `on_timeout` を呼んだときの
`lastCommand` と時刻である。 -/
structure Loop (π : Type) where
  now : Nat
  running : Bool
  session : SessionState
  fsm : TrzszTransferFsm
  parser : π
  throttle : RepaintThrottle
  timers : TokioTimerRuntime TrzszTimer
  safety : SafetyNet
  emissions : List Emission
  regionStart : Option Nat
  forced : List (Nat × Nat)
  lastCommand : Option (Nat × Nat)
  timeouts : List (Option (Nat × Nat) × Nat)

/-- `session_state.rs` の `ProcessResult` のうち、event loop が使う欄。 -/
structure ProcessResult where
  timerCmds : List (TimerCommand TrzszTimer)
  screenDirty : Bool

def ProcessResult.default : ProcessResult := ⟨[], false⟩

namespace Loop

def start (cols rows : Nat) (theme : Theme) (parser : π) : Loop π :=
  { now := 0, running := true, session := .new cols rows theme, fsm := .new, parser,
    throttle := .new repaintMinInterval, timers := .new, safety := .new, emissions := [], regionStart := none,
    forced := [], lastCommand := none, timeouts := [] }

def syncActive (l : Loop π) : Bool := l.session.terminal.modes.synchronizedOutputActive

/-! ## 同期出力の区間 -/

/-- イベントの列を処理した後の区間の始まり。区間が途中で終わって始まり直せば、始まりは `now` になる。 -/
def track (env : Env) (now : Nat) : Option Nat → Terminal → List Event → Option Nat
  | region, _, [] => region
  | region, t, ev :: events =>
      match t.step env ev with
      | none => region
      | some t => track env now (if t.modes.synchronizedOutputActive then some (region.getD now) else none) t events

/-- 端末の操作の中のイベントの列。 -/
def eventsOf : SessionState.Op → List Event
  | .stdout events => events
  | .resize cols rows => [.resize cols rows]
  | .setTitleFromCtl _ | .setTabColorFromCtl _ | .setTabProgressFromCtl _ _ | .notifyFromCtl _ | .setTheme _
  | .setPanelEnabled _ | .forceEndSynchronizedOutput => []

def regionAfter (env : Env) (l : Loop π) (op : SessionState.Op) : Option Nat :=
  match op with
  | .forceEndSynchronizedOutput => none
  | op => track env l.now l.regionStart l.session.terminal (eventsOf op)

/-! ## select の腕 -/

variable (x : Externals π)

def applyOp (l : Loop π) (op : SessionState.Op) : Option (ProcessResult × Loop π) := do
  let (r, session) ← l.session.apply x.env op
  return (⟨[], r.screenDirty⟩, { l with session, regionStart := regionAfter x.env l op })

def flushed : TrzszEffect → Option (List UInt8)
  | .flushVte bytes => some bytes
  | _ => none

/-- `FlushVte` のバイト列を、順に端末のイベントに変える。 -/
def parseAll (now : Nat) (parser : π) (chunks : List (List UInt8)) : π × List Event :=
  chunks.foldl (fun r bytes => ((x.parse now r.1 bytes).1, r.2 ++ (x.parse now r.1 bytes).2)) (parser, [])

/-- trzsz の状態機械の反応。 -/
def reaction (l : Loop π) (i : TrzszInput) : TrzszTransferFsm × Reply :=
  (TrzszTransferFsm.machine x.codec).react l.fsm i

/-- 反応が端末に流すイベントの列。 -/
def parsed (l : Loop π) (i : TrzszInput) : π × List Event :=
  parseAll x l.now l.parser ((l.reaction x i).2.actions.filterMap flushed)

/-- `SessionState::apply` は、端末に流すバイト列があり、同期出力の区間の外で終われば、画面の反映を求める。 -/
def onFsm (l : Loop π) (i : TrzszInput) : Option (ProcessResult × Loop π) := do
  let resp := (l.reaction x i).2
  let (r, l') ← l.applyOp x (.stdout (l.parsed x i).2)
  return (⟨resp.timers, !(resp.actions.filterMap flushed).isEmpty && r.screenDirty⟩,
    { l' with fsm := (l.reaction x i).1, parser := (l.parsed x i).1 })

def emitScreenUpdate (l : Loop π) : Option (Loop π) := do
  let (update, session) ← l.session.makeScreenUpdate
  return { l with
    session
    throttle := l.throttle.noteEmitted l.now
    emissions := ⟨l.now, update, l.syncActive⟩ :: l.emissions }

def onCtl (l : Loop π) : CtlMessage → Option (Option ProcessResult × Loop π)
  | .setTitle value => (l.applyOp x (.setTitleFromCtl value)).map fun r => (some r.1, r.2)
  | .setTabColor rgb => (l.applyOp x (.setTabColorFromCtl rgb)).map fun r => (some r.1, r.2)
  | .setProgress state progress =>
      (l.applyOp x (.setTabProgressFromCtl state progress)).map fun r => (some r.1, r.2)
  | .notify kind => (l.applyOp x (.notifyFromCtl kind)).map fun r => (some r.1, r.2)
  | .other => some (none, l)

def dispatchTransportEvent (l : Loop π) : TransportEvent → Option (Option ProcessResult × Loop π)
  | .stdout bytes => (l.onFsm x (.event (.stdoutBytes bytes))).map fun r => (some r.1, r.2)
  | .resized cols rows => (l.applyOp x (.resize cols rows)).map fun r => (some r.1, r.2)
  | .ctlMessage msg => l.onCtl x msg
  | .disconnected => some (none, { l with running := false })
  | .other => some (none, l)

def handleSessionCmd (l : Loop π) : SessionCmd → Option (ProcessResult × Loop π)
  | .trzszAcceptUpload transferId fileName fileSize =>
      l.onFsm x (.event (.kotlinAcceptUpload transferId fileName fileSize))
  | .trzszChunk transferId data isLast => l.onFsm x (.event (.kotlinChunk transferId data isLast))
  | .trzszAcceptDownload transferId => l.onFsm x (.event (.kotlinAcceptDownload transferId))
  | .trzszCancel transferId => l.onFsm x (.event (.kotlinCancel transferId))
  | .setTheme theme => l.applyOp x (.setTheme theme)
  | .setPanelEnabled enabled => l.applyOp x (.setPanelEnabled enabled)
  | .query => some (.default, l)

/-- `select!` の 1 つの腕。受け取る通知の無い腕は進まない。 -/
def select (l : Loop π) : Action → Option (Option ProcessResult × Loop π)
  | .event ev => l.dispatchTransportEvent x ev
  | .timeout =>
      match l.timers.rx with
      | [] => none
      | id :: rx =>
          let l' := { l with
            timers := { l.timers with rx }
            timeouts := (l.lastCommand, l.now) :: l.timeouts }
          (onFsm x l' (.timeout id)).map fun r => (some r.1, r.2)
  | .command cmd => (l.handleSessionCmd x cmd).map fun r => (some r.1, r.2)
  | .flushStdin => some (none, l)
  | .safetyTimeout =>
      match l.safety.rx with
      | [] => none
      | gen :: rx =>
          let l' := { l with safety := { l.safety with rx } }
          if SafetyNet.timeoutIsCurrent gen l.safety.armedGeneration then
            let l' := { l' with forced := (l.regionStart.toList.map fun s => (s, l.now)) ++ l.forced }
            (applyOp x l' .forceEndSynchronizedOutput).map fun r => (some r.1, r.2)
          else some (none, l')
  | .repaint =>
      match l.throttle.armedDeadline with
      | some deadline => if deadline ≤ l.now then l.emitScreenUpdate.map fun l' => (none, l') else none
      | none => none
  | .elapse _ | .timerTask | .safetyTask => none

/-! ## ループの末尾 -/

def reconcile (l : Loop π) : Loop π := { l with safety := l.safety.reconcile l.now l.syncActive }

/-- 画面の反映を求めるバッチの後。 -/
def noteDirty (l : Loop π) : Option (Loop π) :=
  let r := l.throttle.onDirty l.now
  match r.2 with
  | .emitNow => { l with throttle := r.1 }.emitScreenUpdate
  | .arm _ | .alreadyArmed => some { l with throttle := r.1 }

/-- `dispatch_result` のタイマーの命令。 -/
def runTimerCmd (l : Loop π) (cmd : TimerCommand TrzszTimer) : Loop π :=
  { l with
    timers := l.timers.command l.now cmd
    lastCommand := match cmd with
      | .set _ duration => some (l.now, secs duration)
      | .kill _ => none }

def finish (l : Loop π) : Option ProcessResult → Option (Loop π)
  | none => some l.reconcile
  | some r => do
      let l ← if r.screenDirty then l.reconcile.noteDirty else some l.reconcile
      return r.timerCmds.foldl runTimerCmd l

/-- 1 回の反復。`Disconnected` は末尾を実行せずにループを抜ける。 -/
def iterate (l : Loop π) (a : Action) : Option (Loop π) := do
  let (r, l') ← l.select x a
  if l'.running then l'.finish r else some l'

def step (l : Loop π) : Action → Option (Loop π)
  | .elapse duration => some { l with now := l.now + duration }
  | .timerTask => (l.timers.wake l.now).map fun timers => { l with timers }
  | .safetyTask => (l.safety.wake l.now).map fun safety => { l with safety }
  | a => if l.running then l.iterate x a else none

abbrev Steps (l : Loop π) (a : Action) (l' : Loop π) : Prop := l.step x a = some l'

end Loop

/-!
## 反復の仕様

どの順に反復しても成り立つべき条件と、それを保つ反復を定める。
-/

/-! ## 画面の中身 -/

/-- 端末が同期出力の区間の中にある。 -/
abbrev synced (t : Terminal) : Bool := t.modes.synchronizedOutputActive

/-- 番号と差分を除いた、発行する値。 -/
def content (u : ScreenUpdate) : ScreenUpdate := { u with updateSeq := 0, dirtyRows := none }

/-- 端末から初めて発行する画面の中身。 -/
def shown (t : Terminal) : Option ScreenUpdate :=
  SessionState.makeScreenUpdate { SessionState.new t.cols t.rows t.theme with
    terminal := { t with fullDamagePending := true } } |>.map fun r => content r.1

namespace Loop

/-! ## 入力の分類 -/

/-- 端末を直接変える入力。 -/
def opOf : Action → Option SessionState.Op
  | .event (.resized cols rows) => some (.resize cols rows)
  | .event (.ctlMessage (.setTitle value)) => some (.setTitleFromCtl value)
  | .event (.ctlMessage (.setTabColor rgb)) => some (.setTabColorFromCtl rgb)
  | .event (.ctlMessage (.setProgress state progress)) => some (.setTabProgressFromCtl state progress)
  | .event (.ctlMessage (.notify kind)) => some (.notifyFromCtl kind)
  | .command (.setTheme theme) => some (.setTheme theme)
  | .command (.setPanelEnabled enabled) => some (.setPanelEnabled enabled)
  | _ => none

/-- trzsz の状態機械への入力。 -/
def inputOf (l : Loop π) : Action → Option TrzszInput
  | .event (.stdout bytes) => some (.event (.stdoutBytes bytes))
  | .command (.trzszAcceptUpload transferId fileName fileSize) =>
      some (.event (.kotlinAcceptUpload transferId fileName fileSize))
  | .command (.trzszChunk transferId data isLast) => some (.event (.kotlinChunk transferId data isLast))
  | .command (.trzszAcceptDownload transferId) => some (.event (.kotlinAcceptDownload transferId))
  | .command (.trzszCancel transferId) => some (.event (.kotlinCancel transferId))
  | .timeout => l.timers.rx.head?.map .timeout
  | _ => none

/-- `timeout_rx` から取り出した後の状態。 -/
def dequeued (l : Loop π) : Action → Loop π
  | .timeout => { l with timers := { l.timers with rx := l.timers.rx.tail }, timeouts := (l.lastCommand, l.now) :: l.timeouts }
  | _ => l

/-! ## trzsz の時間切れ -/

/-- 反応がタイマーの命令を含むなら、通知はチャネルに残っていない。 -/
def Unqueued (x : Externals π) (l : Loop π) (a : Action) : Prop :=
  ((l.inputOf a).all fun i =>
    (l.reaction x i).2.timers.isEmpty || (l.dequeued a).timers.rx.isEmpty) = true

instance (x : Externals π) (l : Loop π) (a : Action) : Decidable (Unqueued x l a) :=
  inferInstanceAs (Decidable (_ = true))

/-- 最後の命令が `Set` で、時刻 `time` にはその長さが過ぎている。 -/
def Expired (command : Option (Nat × Nat)) (time : Nat) : Prop :=
  ∃ issued duration, command = some (issued, duration) ∧ issued + duration ≤ time

/-- `on_timeout` は、最後の命令が `Set` で、その長さが過ぎてから呼ばれる。 -/
def Timely (l : Loop π) : Prop := ∀ p ∈ l.timeouts, Expired p.1 p.2

/-! ## 同期出力 -/

/-- イベントの列の途中か終わりで、区間の外に出る。 -/
def leaves (env : Env) : Terminal → List Event → Bool
  | _, [] => false
  | t, ev :: events =>
      match t.step env ev with
      | none => false
      | some t => !synced t || leaves env t events

/-- 画面の反映を求める操作。 -/
def redraws : SessionState.Op → Bool
  | .setTheme _ | .setPanelEnabled _ => false
  | .stdout _ | .resize _ _ | .setTitleFromCtl _ | .setTabColorFromCtl _ | .setTabProgressFromCtl _ _ | .notifyFromCtl _
  | .forceEndSynchronizedOutput => true

/-- バッチが区間を閉じて、開き直す。 -/
def reopens (env : Env) (t : Terminal) (events : List Event) : Bool :=
  leaves env t events && (t.exec env events).any synced

def isRepaint : Action → Bool
  | .repaint => true
  | _ => false

def emitsNow (l : Loop π) : Bool := (l.throttle.onDirty l.now).2 = .emitNow

/-- 間引きのタイマーの発火、即座の反映になる `Resized` か ctl、区間を閉じて開き直すバッチのどれか。 -/
def breaks (x : Externals π) (l : Loop π) (a : Action) : Bool :=
  isRepaint a || ((opOf a).any redraws && l.emitsNow) ||
    (l.inputOf a).any fun i => reopens x.env l.session.terminal (l.parsed x i).2

def Unbroken (x : Externals π) (l : Loop π) (a : Action) : Prop := (l.syncActive && l.breaks x a) = false

instance (x : Externals π) (l : Loop π) (a : Action) : Decidable (Unbroken x l a) :=
  inferInstanceAs (Decidable (_ = false))

/-- 反映はどれも区間の外で起き、safety-net が終わらせた区間はどれも 250ms 続いている。 -/
structure Undivided (l : Loop π) : Prop where
  emissions : ∀ e ∈ l.emissions, e.active = false
  forced : ∀ p ∈ l.forced, p.1 + syncOutputSafetyTimeout ≤ p.2

/-! ## 画面の反映 -/

/-- 続く 2 つの反映（新しいものが先）は 16ms 以上離れ、番号は 1 つ増える。 -/
def Follows (e e' : Emission) : Prop :=
  e'.time + repaintMinInterval ≤ e.time ∧ e.update.updateSeq = e'.update.updateSeq + 1

/-- 最後に反映した中身。反映の前は、始まりの端末 `t₀` の中身とする。 -/
def lastShown (t₀ : Terminal) (l : Loop π) : Option ScreenUpdate :=
  match l.emissions with
  | [] => shown t₀
  | e :: _ => some (content e.update)

/-- ループが終わるのは、間引きのタイマーが動いていないときである。 -/
def Flushed (l : Loop π) : Action → Prop
  | .event .disconnected => l.throttle.armedDeadline = none
  | _ => True

instance (l : Loop π) (a : Action) : Decidable (Flushed l a) := by
  unfold Flushed
  split <;> infer_instance

/-- 発火した間引きのタイマーは、その時点の中身を反映する。 -/
structure Fired (l l' : Loop π) : Prop where
  due : ∃ d ∈ l.throttle.armedDeadline, d ≤ l.now
  emitted : ∃ e, l'.emissions = e :: l.emissions ∧ e.time = l.now ∧ shown l.session.terminal = some (content e.update)
  disarmed : l'.throttle.armedDeadline = none

end Loop

end

end IsekaiTerminal.SessionLoop
