import IsekaiTerminal.Lib.Transition
import IsekaiTerminal.Lib.Table

/-!
# mux の holder

`isekai-ssh/src/native/mux/owner.rs` の `serve_clients` と、クライアントごとの `relay_client` のタスクを、1 つの遷移系にする。
`select!` の 1 回の poll は腕を順に調べるので、腕ごとに 1 つの遷移とする。共有の接続の `Mutex` は短い間だけ取られるので載せない。
時刻の単位はミリ秒である。
-/

namespace IsekaiTerminal.Mux

open Lib

/-! ## チャネルを開けない理由 -/

inductive RusshError
  | channelOpenFailure
  | requestDenied
  | other
deriving DecidableEq

/-- `anyhow::Error::chain` の 1 つの原因。 -/
inductive Cause
  | channelOpenTimedOut
  | russh (e : RusshError)
  | sessionChannel (e : RusshError)
  | other
deriving DecidableEq

def serverAnswered : RusshError → Bool
  | .channelOpenFailure | .requestDenied => true
  | .other => false

def channelOpenFailureImpliesDeadHandle (chain : List Cause) : Bool :=
  if chain.any (· = .channelOpenTimedOut) then false
  else !chain.any fun
    | .russh e | .sessionChannel e => serverAnswered e
    | .channelOpenTimedOut | .other => false

/-! ## 状態 -/

def warmupGrace : Nat := 30000

def idleGrace : Nat := 10000

def handleHealthPollInterval : Nat := 1000

def graceFor (everServed : Bool) : Nat := if everServed then idleGrace else warmupGrace

/-- クライアントのタスク。`signalling` は `notify_waiters` の前、`leaving` は `fetch_sub` の前、`notifying` は
`notify_one` の前である。 -/
inductive Phase
  | serving
  | signalling
  | leaving
  | notifying
  | done
deriving DecidableEq

/-- 数えられているタスク。 -/
def Phase.isCounted : Phase → Bool
  | .serving | .signalling | .leaving => true
  | .notifying | .done => false

/-- `wait_for_idle_exit` の中断点。 -/
inductive Idle
  | loading
  | waiting
  | sleeping (deadline : Nat)
deriving DecidableEq

/-- `select!` の future。`shutdown` は、作られてから `notify_waiters` が呼ばれたかを表す。 -/
structure Select where
  grace : Nat
  checkAt : Nat
  shutdown : Bool
  idle : Idle
deriving DecidableEq

/-- `Ok` で戻った時点の記録。 -/
structure Exit where
  time : Nat
  handleClosed : Bool
  deadOpen : Bool
  zeroSince : Option Nat
  everServed : Bool
deriving DecidableEq

/-- `Ok` で戻るのは、接続が閉じたか、接続の死を示す失敗があったか、猶予の間ずっとクライアントがいなかったときである。 -/
def Exit.Justified (e : Exit) : Prop :=
  e.handleClosed = true ∨ e.deadOpen = true ∨ ∃ z, e.zeroSince = some z ∧ z + graceFor e.everServed ≤ e.time

/-- `serve_clients` の中断点。`accepted` から `looping` までは future が無い。`returned none` は `accept` の失敗である。 -/
inductive Serve
  | looping
  | selecting (s : Select)
  | accepted
  | counted
  | notified
  | returned (exit : Option Exit)
deriving DecidableEq

/-- 数えた接続を、まだタスクにしていない。 -/
def Serve.isCounting : Serve → Bool
  | .counted | .notified => true
  | .looping | .selecting _ | .accepted | .returned _ => false

/-- `arrivals` は `accept` を待つ接続、`countChanged` は `count_changed` の残っている通知である。`deadOpen` は接続の死を示す失敗が
あったか、`zeroSince` は `activeClients` が 0 になった時刻の履歴である。 -/
structure Holder where
  now : Nat
  handleClosed : Bool
  arrivals : Nat
  serve : Serve
  everServed : Bool
  activeClients : Nat
  countChanged : Bool
  tasks : List Phase
  deadOpen : Bool
  zeroSince : Option Nat
deriving DecidableEq

/-- 外から起きるのは `elapse` から `acceptFailed` まで、残りはタスクの 1 歩である。 -/
inductive HolderAction
  | elapse (duration : Nat)
  | connect
  | closeHandle
  | openFailed (i : Nat) (chain : List Cause)
  | relayEnded (i : Nat) (transportDead : Bool)
  | acceptFailed
  | accept
  | countUp
  | notifyCount
  | spawn
  | listen
  | checkHandle
  | observeShutdown
  | loadCount
  | takeCountChanged
  | expire
  | signal (i : Nat)
  | leave (i : Nat)
  | notifyLeft (i : Nat)
deriving DecidableEq

namespace Holder

def start : Holder :=
  { now := 0, handleClosed := false, arrivals := 0, serve := .looping, everServed := false, activeClients := 0,
    countChanged := false, tasks := [], deadOpen := false, zeroSince := some 0 }

def exit (w : Holder) : Exit := ⟨w.now, w.handleClosed, w.deadOpen, w.zeroSince, w.everServed⟩

def returnOk (w : Holder) : Holder := { w with serve := .returned (some w.exit) }

/-- `select!` が終わらずに、future の 1 つだけが進む。 -/
def setSelect (w : Holder) (s : Select) : Holder := { w with serve := .selecting s }

def setTask (w : Holder) (i : Nat) (p : Phase) : Holder := { w with tasks := w.tasks.set i p }

/-- `Notify::notify_waiters`。作られている future だけが知らせを受ける。 -/
def notifyWaiters (w : Holder) : Holder :=
  match w.serve with
  | .selecting s => w.setSelect { s with shutdown := true }
  | _ => w

/-! ## `serve_clients` -/

def serveStep (w : Holder) : HolderAction → Option Holder
  | .listen =>
      if w.serve = .looping then some (w.setSelect ⟨graceFor w.everServed, w.now, false, .loading⟩) else none
  | .countUp =>
      if w.serve = .accepted then
        some { w with serve := .counted, everServed := true, activeClients := w.activeClients + 1, zeroSince := none }
      else none
  | .notifyCount => if w.serve = .counted then some { w with serve := .notified, countChanged := true } else none
  | .spawn => if w.serve = .notified then some { w with serve := .looping, tasks := w.tasks ++ [.serving] } else none
  | a =>
      match w.serve with
      | .selecting s =>
          match a with
          | .acceptFailed => some { w with serve := .returned none }
          | .accept => if 0 < w.arrivals then some { w with serve := .accepted, arrivals := w.arrivals - 1 } else none
          | .checkHandle =>
              if s.checkAt ≤ w.now then
                if w.handleClosed then some w.returnOk
                else some (w.setSelect { s with checkAt := w.now + handleHealthPollInterval })
              else none
          | .observeShutdown => if s.shutdown then some w.returnOk else none
          | .loadCount =>
              if s.idle = .loading then
                some (w.setSelect { s with
                  idle := if 0 < w.activeClients then .waiting else .sleeping (w.now + s.grace) })
              else none
          | .takeCountChanged =>
              if s.idle ≠ .loading ∧ w.countChanged then
                some { w.setSelect { s with idle := .loading } with countChanged := false }
              else none
          | .expire =>
              match s.idle with
              | .sleeping deadline => if deadline ≤ w.now then some w.returnOk else none
              | .loading | .waiting => none
          | _ => none
      | _ => none

/-! ## クライアントのタスク -/

/-- チャネルを開けないと、接続の死を示す失敗か、閉じた接続のときに、`shutdown` を知らせる。 -/
def openFailed (w : Holder) (i : Nat) (chain : List Cause) : Holder :=
  { w.setTask i (if channelOpenFailureImpliesDeadHandle chain || w.handleClosed then .signalling else .leaving) with
    deadOpen := w.deadOpen || channelOpenFailureImpliesDeadHandle chain }

def taskStep (w : Holder) : HolderAction → Option Holder
  | .openFailed i chain => if w.tasks[i]? = some .serving then some (w.openFailed i chain) else none
  | .relayEnded i transportDead =>
      if w.tasks[i]? = some .serving then
        some (w.setTask i (if transportDead && w.handleClosed then .signalling else .leaving))
      else none
  | .signal i => if w.tasks[i]? = some .signalling then some (w.notifyWaiters.setTask i .leaving) else none
  | .leave i =>
      if w.tasks[i]? = some .leaving then
        some { w.setTask i .notifying with
          activeClients := w.activeClients - 1
          zeroSince := if w.activeClients = 1 then some w.now else none }
      else none
  | .notifyLeft i =>
      if w.tasks[i]? = some .notifying then some { w.setTask i .done with countChanged := true } else none
  | _ => none

def step (w : Holder) (a : HolderAction) : Option Holder :=
  match a with
  | .elapse duration => some { w with now := w.now + duration }
  | .connect => some { w with arrivals := w.arrivals + 1 }
  | .closeHandle => some { w with handleClosed := true }
  | .openFailed _ _ | .relayEnded _ _ | .signal _ | .leave _ | .notifyLeft _ => w.taskStep a
  | .acceptFailed | .accept | .countUp | .notifyCount | .spawn | .listen | .checkHandle | .observeShutdown
  | .loadCount | .takeCountChanged | .expire => w.serveStep a

abbrev Steps (w : Holder) (a : HolderAction) (w' : Holder) : Prop := w.step a = some w'

/-! ## russh の約束 -/

/-- russh のチャネルを開く操作が `SendError` か `Disconnect` を返すのは、セッションのタスクが終わって受け手が捨てられた後であり、
`Handle::is_closed()` はその受け手を見る。よって接続の死を示す失敗のときには、接続はもう閉じている。 -/
def DeadOpenIsClosed (w : Holder) : HolderAction → Prop
  | .openFailed _ chain => channelOpenFailureImpliesDeadHandle chain = true → w.handleClosed = true
  | _ => True

instance (w : Holder) (a : HolderAction) : Decidable (DeadOpenIsClosed w a) :=
  match a with
  | .openFailed _ chain =>
      inferInstanceAs (Decidable (channelOpenFailureImpliesDeadHandle chain = true → w.handleClosed = true))
  | .elapse _ | .connect | .closeHandle | .relayEnded _ _ | .acceptFailed | .accept | .countUp | .notifyCount | .spawn
  | .listen | .checkHandle | .observeShutdown | .loadCount | .takeCountChanged | .expire | .signal _ | .leave _
  | .notifyLeft _ => inferInstanceAs (Decidable True)

/-! ## 外からの入力の無い遷移 -/

def internal : HolderAction → Bool
  | .elapse _ | .connect | .closeHandle | .openFailed _ _ | .relayEnded _ _ | .acceptFailed => false
  | _ => true

/-- 眠っている future が、次に起きる時刻。 -/
def nextDeadline (w : Holder) : Option Nat :=
  match w.serve with
  | .selecting s =>
      match s.idle with
      | .sleeping deadline => some (min s.checkAt deadline)
      | .loading | .waiting => some s.checkAt
  | _ => none

/-- タスクの 1 歩か、どのタスクも進めないときに、次に起きる時刻まで経つ時間。 -/
def Unprompted (w : Holder) (a : HolderAction) : Prop :=
  internal a = true ∨
    ∃ d, a = .elapse d ∧ 0 < d ∧ (∀ b w', internal b = true → ¬ w.Steps b w') ∧ w.nextDeadline = some (w.now + d)

abbrev Quiet : Holder → HolderAction → Holder → Prop := Guarded Steps Unprompted

/-! ## 戻ること -/

/-- 戻る理由と、接続の数。数えられているのは、`fetch_sub` の前のタスクと、タスクにする前の接続である。 -/
structure Faithful (w : Holder) : Prop where
  justified : ∀ e, w.serve = .returned (some e) → e.Justified
  counted : w.activeClients = w.tasks.countP Phase.isCounted + w.serve.isCounting.toNat

def Returned (w : Holder) : Prop := ∃ e, w.serve = .returned (some e)

/-- 終わる理由。接続が閉じたか、接続の死を示す失敗があったか、待つ接続も数えたクライアントも無い。 -/
def Due (w : Holder) : Prop :=
  w.handleClosed = true ∨ w.deadOpen = true ∨
    (w.activeClients = 0 ∧ w.arrivals = 0 ∧ (w.serve = .looping ∨ ∃ s, w.serve = .selecting s))

end Holder

end IsekaiTerminal.Mux
