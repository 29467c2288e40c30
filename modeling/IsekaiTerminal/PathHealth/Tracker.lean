import IsekaiTerminal.Lib.Timed
import IsekaiTerminal.Lib.Saturating
import IsekaiTerminal.Lib.Table

/-!
# 1 本の path のヘルスチェック

`rust-core/isekai-transport/src/path_health_fsm.rs` の `PathHealthFsm` と、`path_health.rs` の判定の関数。時間の単位は
ナノ秒である。`f64` の比によるロス率の判定は、増分の組から真偽への関数 `lossy` とする。
-/

namespace IsekaiTerminal.PathHealth

open Lib

def millis (n : Nat) : Nat := n * 1000000

def healthCheckInterval : Nat := millis 3000

def pingSettleDelay : Nat := millis 300

def degradedRttThreshold : Nat := millis 800

def recoveryConsecutiveChecks : Nat := 2

def noResponseConsecutiveChecks : Nat := 3

/-- `noq::PathStats` のうち、判定に使う計数。`udpTx` と `udpRx` はデータグラムの数である。 -/
structure PathStats where
  rtt : Nat
  udpTx : Nat
  udpRx : Nat
  lostPackets : Nat
  blackHolesDetected : Nat
deriving DecidableEq, Repr

section Judge

variable (lossy : Nat → Nat → Bool)

def classifyPathHealth (prev : Option PathStats) (curr : PathStats) : Bool :=
  if curr.rtt > degradedRttThreshold then false
  else
    match prev with
    | none => true
    | some prev =>
        let sentDelta := curr.udpTx - prev.udpTx
        let lostDelta := curr.lostPackets - prev.lostPackets
        if sentDelta > 0 ∧ lossy lostDelta sentDelta then false
        else !(curr.blackHolesDetected > prev.blackHolesDetected)

def hasZeroResponse (prev : Option PathStats) (curr : PathStats) : Bool :=
  match prev with
  | none => false
  | some prev => curr.udpTx - prev.udpTx > 0 ∧ curr.udpRx - prev.udpRx = 0

/-- 1 回の読み取りの判定。 -/
structure Verdict where
  zeroResponse : Bool
  healthy : Bool
deriving DecidableEq, Repr

def judge (prev : Option PathStats) (curr : PathStats) : Verdict :=
  let zeroResponse := hasZeroResponse prev curr
  ⟨zeroResponse, classifyPathHealth lossy prev curr && !zeroResponse⟩

end Judge

inductive PathHealthFsmEvent
  | start
  | statsReceived (stats : PathStats)
deriving DecidableEq

inductive PathHealthAction
  | sendPing
  | readStats
  | degradeZeroResponse (consecutive : Nat)
  | degradeUnhealthy (rtt : Nat)
  | recover
deriving DecidableEq, Repr

inductive PathHealthTimer
  | checkInterval
  | settleDelay
deriving DecidableEq, Repr

structure PathHealthFsm where
  prevStats : Option PathStats
  consecutiveHealthy : Nat
  consecutiveNoResponse : Nat
  degraded : Bool
deriving DecidableEq

namespace PathHealthFsm

def new : PathHealthFsm := ⟨none, 0, 0, false⟩

/-- 無応答の判定だけを受け取る。 -/
def noteResponse (m : PathHealthFsm) (zeroResponse : Bool) : PathHealthFsm × List PathHealthAction :=
  if zeroResponse then
    let m := { m with consecutiveNoResponse := satAdd 32 m.consecutiveNoResponse 1 }
    if m.consecutiveNoResponse ≥ noResponseConsecutiveChecks then
      ({ m with degraded := true }, [.degradeZeroResponse m.consecutiveNoResponse])
    else (m, [])
  else ({ m with consecutiveNoResponse := 0 }, [])

/-- 健全かどうかの判定だけを受け取る。 -/
def noteHealth (m : PathHealthFsm) (healthy : Bool) (rtt : Nat) : PathHealthFsm × List PathHealthAction :=
  if healthy then
    let m := { m with consecutiveHealthy := satAdd 32 m.consecutiveHealthy 1 }
    if m.degraded ∧ m.consecutiveHealthy ≥ recoveryConsecutiveChecks then
      ({ m with degraded := false }, [.recover])
    else (m, [])
  else
    let m := { m with consecutiveHealthy := 0 }
    if m.degraded then (m, []) else ({ m with degraded := true }, [.degradeUnhealthy rtt])

variable (lossy : Nat → Nat → Bool)

def handleStats (m : PathHealthFsm) (stats : PathStats) : PathHealthFsm × List PathHealthAction :=
  let v := judge lossy m.prevStats stats
  let r := { m with prevStats := some stats }.noteResponse v.zeroResponse
  let r' := r.1.noteHealth v.healthy stats.rtt
  (r'.1, r.2 ++ r'.2)

def onEvent (m : PathHealthFsm) :
    PathHealthFsmEvent → PathHealthFsm × Response PathHealthAction PathHealthTimer
  | .start => (m, Response.consume.withTimer .checkInterval healthCheckInterval)
  | .statsReceived stats =>
      let r := m.handleStats lossy stats
      (r.1, (Response.emit r.2).withTimer .checkInterval healthCheckInterval)

def onTimeout (m : PathHealthFsm) : PathHealthTimer → PathHealthFsm × Response PathHealthAction PathHealthTimer
  | .checkInterval => (m, (Response.emit [.sendPing]).withTimer .settleDelay pingSettleDelay)
  | .settleDelay => (m, Response.emit [.readStats])

def machine : TimedStateMachine PathHealthFsm PathHealthFsmEvent PathHealthAction PathHealthTimer where
  onEvent := onEvent lossy
  onTimeout := onTimeout

end PathHealthFsm

/-! ## 読み取りの履歴 -/

section

variable (lossy : Nat → Nat → Bool)

/-- 読み取りの列の判定。 -/
def verdicts (prev : Option PathStats) : List PathStats → List Verdict
  | [] => []
  | s :: ss => judge lossy prev s :: verdicts (some s) ss

/-- 最後の読み取りまで途切れずに続く、条件を満たす読み取りの数。 -/
def trailing (p : Verdict → Bool) (readings : List PathStats) : Nat :=
  ((verdicts lossy none readings).rtakeWhile p).length

/-- 読み取りの列を受け取った後の状態機械。 -/
def after (readings : List PathStats) : PathHealthFsm :=
  Reducer.run (PathHealthFsm.handleStats lossy) .new readings

/-- 最後の読み取りが返す作用。 -/
def emitted (readings : List PathStats) (stats : PathStats) : List PathHealthAction :=
  ((after lossy readings).handleStats lossy stats).2

/-- 格下げは真、復帰は偽とする。 -/
def switch? : PathHealthAction → Option Bool
  | .degradeUnhealthy _ => some true
  | .recover => some false
  | .sendPing | .readStats | .degradeZeroResponse _ => none

def switches (readings : List PathStats) : List Bool :=
  (Reducer.outputs (PathHealthFsm.handleStats lossy) .new readings).filterMap switch?

/-- 格下げから始まり、格下げと復帰が交互に並ぶ。 -/
def alternating : Nat → List Bool
  | 0 => []
  | n + 1 => alternating n ++ [n % 2 == 0]

end

/-!
## path の状態の追跡と `NoViablePath` の通知

`rust-core/isekai-transport/src/path_health.rs` の `PathHealthTracker` と `notify_if_no_viable_path` を、不可分な操作に
分けて定める。監視のスレッドと path のイベントのスレッドは、操作の間でどの順にも交互に進む。
-/

section

variable {ℓ : Type} [DecidableEq ℓ]

inductive PathState
  | unknown
  | validated
  | degraded
  | failed
deriving DecidableEq, Repr

/-- 追跡への呼び出し。 -/
inductive Request (ℓ : Type)
  | set (label : ℓ) (state : PathState)
  | notify
deriving DecidableEq

/-- 途中まで進んだ呼び出しの、次の操作。`episode` は、通知の判定を始めた期間の番号である。 -/
inductive Pending (ℓ : Type)
  | insertValidated (label : ℓ)
  | swap (episode : Nat)
  | trySend (episode : Nat)
  | retract (episode : Nat)
deriving DecidableEq

/-- 1 つのスレッド。監視のスレッドは、自分の path のヘルスチェックの状態を持つ。 -/
structure Thread (ℓ : Type) where
  label : ℓ
  fsm : PathHealthFsm
  pending : Option (Pending ℓ)
  requests : List (Request ℓ)

/-- 追跡の状態と履歴。`episode` は Validated な path の無い期間の番号、`won` は通知の権利を取った期間、`sent` は通知を
送った期間、`completed` は始めから終わりまで 1 つの期間に収まった呼び出しの期間である。 -/
structure World (ℓ : Type) where
  states : List (ℓ × PathState)
  noViableNotified : Bool
  threads : List (Thread ℓ)
  episode : Nat
  won : List Nat
  sent : List Nat
  completed : List Nat

namespace World

def start : World ℓ := ⟨[], false, [], 0, [], [], []⟩

def anyValidated (w : World ℓ) : Bool := w.states.any fun s => s.2 = .validated

/-- 状態を書き込む。Validated な path が無くなれば、新しい期間が始まる。 -/
def insert (w : World ℓ) (label : ℓ) (state : PathState) : World ℓ :=
  let w' := { w with states := (label, state) :: w.states.filter fun s => s.1 ≠ label }
  if w.anyValidated && !w'.anyValidated then { w' with episode := w.episode + 1 } else w'

/-- 呼び出しの終わり。Validated な path の無い期間 `episode` の中で終わったことを記録する。 -/
def finish (w : World ℓ) (episode : Nat) : World ℓ :=
  if w.episode = episode ∧ w.anyValidated = false then { w with completed := episode :: w.completed } else w

/-- 呼び出しの最初の操作。 -/
def begin (w : World ℓ) : Request ℓ → World ℓ × Option (Pending ℓ)
  | .set label .validated => ({ w with noViableNotified := false }, some (.insertValidated label))
  | .set label state => (w.insert label state, none)
  | .notify => if w.anyValidated then (w, none) else (w, some (.swap w.episode))

/-- 途中の呼び出しの次の操作。`full` は、通知のチャネルが一杯かどうかである。 -/
def resume (w : World ℓ) (full : Bool) : Pending ℓ → World ℓ × Option (Pending ℓ)
  | .insertValidated label => (w.insert label .validated, none)
  | .swap episode =>
      if w.noViableNotified then (w.finish episode, none)
      else ({ w with noViableNotified := true, won := w.episode :: w.won }, some (.trySend episode))
  | .trySend episode =>
      if full then (w, some (.retract episode))
      else ({ w with sent := episode :: w.sent }.finish episode, none)
  | .retract episode => ({ w with noViableNotified := false }.finish episode, none)

end World

/-- 監視のスレッドが作用を実行するときの、追跡への呼び出し。 -/
def requestsOf (label : ℓ) : PathHealthAction → List (Request ℓ)
  | .sendPing | .readStats => []
  | .degradeZeroResponse _ => [.set label .degraded, .notify]
  | .degradeUnhealthy _ => [.set label .degraded]
  | .recover => [.set label .validated]

/-- `spawn` は監視の開始、`reading` は監視の読み取り、`event` は path の確立や喪失の通知、`run` は 1 つの操作である。 -/
inductive Action (ℓ : Type)
  | spawn (label : ℓ)
  | reading (i : Nat) (stats : PathStats)
  | event (i : Nat) (requests : List (Request ℓ))
  | run (i : Nat) (full : Bool)
deriving DecidableEq

namespace Thread

def idle (t : Thread ℓ) : Bool := t.pending.isNone && t.requests.isEmpty

/-- 次の操作の対象となる呼び出し。 -/
def next? (t : Thread ℓ) : Option (Pending ℓ ⊕ Request ℓ) :=
  match t.pending, t.requests with
  | some p, _ => some (.inl p)
  | none, r :: _ => some (.inr r)
  | none, [] => none

end Thread

namespace World

variable (lossy : Nat → Nat → Bool)

/-- スレッド `i` が 1 つの操作を行う。 -/
def runThread (w : World ℓ) (i : Nat) (full : Bool) (t : Thread ℓ) : Option (World ℓ) :=
  match t.pending, t.requests with
  | some p, rest =>
      let r := w.resume full p
      some { r.1 with threads := w.threads.set i { t with pending := r.2, requests := rest } }
  | none, req :: rest =>
      let r := w.begin req
      some { r.1 with threads := w.threads.set i { t with pending := r.2, requests := rest } }
  | none, [] => none

def step (w : World ℓ) : Action ℓ → Option (World ℓ)
  | .spawn label => some { w with threads := w.threads ++ [⟨label, .new, none, []⟩] }
  | .reading i stats => do
      let t ← (w.threads[i]?).filter Thread.idle
      let r := t.fsm.handleStats lossy stats
      some { w with threads := w.threads.set i { t with fsm := r.1, requests := r.2.flatMap (requestsOf t.label) } }
  | .event i requests => do
      let t ← (w.threads[i]?).filter Thread.idle
      some { w with threads := w.threads.set i { t with requests } }
  | .run i full => do
      let t ← w.threads[i]?
      w.runThread i full t

abbrev Steps (w : World ℓ) (a : Action ℓ) (w' : World ℓ) : Prop := w.step lossy a = some w'

/-! ## 重なりの無い実行 -/

def inserts : Pending ℓ → Bool
  | .insertValidated _ => true
  | .swap _ | .trySend _ | .retract _ => false

def swaps : Pending ℓ → Bool
  | .swap _ => true
  | .insertValidated _ | .trySend _ | .retract _ => false

def sends (episode : Nat) (p : Pending ℓ) : Bool := p = .trySend episode

/-- 途中の呼び出しが条件 `p` を満たすスレッドの数。 -/
def count (p : Pending ℓ → Bool) (w : World ℓ) : Nat := w.threads.countP fun t => t.pending.any p

/-- `set(Validated)` の途中、つまり旗を下ろした後で状態を書き込む前のスレッドの数。 -/
def settling (w : World ℓ) : Nat := w.count inserts

/-- 通知の判定の途中、つまり Validated な path の無いことを確かめた後で旗を立てる前のスレッドの数。 -/
def checking (w : World ℓ) : Nat := w.count swaps

/-- 期間 `episode` の通知を送る直前のスレッドの数。 -/
def inFlight (w : World ℓ) (episode : Nat) : Nat := w.count (sends episode)

def roomy : Action ℓ → Bool
  | .run _ full => !full
  | .spawn _ | .reading _ _ | .event _ _ => true

/-- `set(Validated)` を始めるときに通知の判定の途中のスレッドが無く、通知の判定を始めるときに `set(Validated)` の途中の
スレッドが無い。 -/
def separate (w : World ℓ) (a : Action ℓ) : Bool :=
  match a with
  | .run i _ =>
      match (w.threads[i]?).bind Thread.next? with
      | some (.inr (.set _ .validated)) => w.checking = 0
      | some (.inr .notify) => w.anyValidated || w.settling = 0
      | _ => true
  | _ => true

/-- 通知のチャネルが一杯にならず、呼び出しが重ならない。 -/
def Separated (w : World ℓ) (a : Action ℓ) : Prop := (w.separate a && roomy a) = true

instance (w : World ℓ) (a : Action ℓ) : Decidable (w.Separated a) := by
  unfold Separated
  infer_instance

/-- 実行を試す。 -/
def exec (w : World ℓ) (as : List (Action ℓ)) : Option (World ℓ) :=
  as.foldlM (fun w a => if w.Separated a then w.step lossy a else none) w

/-- 通知のチャネルが一杯にならない実行。 -/
def execRoomy (w : World ℓ) (as : List (Action ℓ)) : Option (World ℓ) :=
  as.foldlM (fun w a => if roomy a then w.step lossy a else none) w

/-- 始めから終わりまで 1 つの期間に収まった呼び出しのある期間では、通知をちょうど 1 回送る。他の期間でも高々 1 回である。
`inFlight` は、まだ送っていない 1 回である。 -/
structure Notified (w : World ℓ) : Prop where
  once : ∀ episode, w.sent.count episode ≤ 1
  reported : ∀ episode ∈ w.completed, w.sent.count episode + w.inFlight episode = 1

end World

end

end IsekaiTerminal.PathHealth
