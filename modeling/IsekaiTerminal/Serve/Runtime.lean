import IsekaiTerminal.Serve.Aggregate

/-!
# 作用の実行（`AttachRuntime`）

`engine/attach_runtime.rs` の `AttachRuntime` を、タスクの交互実行として定める。`core` のロックの中の 1 回の
`apply` と、`leases` の表の 1 回の臨界区間を、それぞれ 1 つの不可分な動作とする。`apply` が返した作用は、ロックを
離した後に、呼び出したタスクが順に実行する。

タスクの残りの仕事は `Instr` の列で表す。`abort` されたタスクは、次の待ちまで進むことも、その前に消えることもある。
ロックの中の作用（`SessionIo` の表の更新）と、HELLO の結果を待つ側の表は、`leases` にも `core` の状態にも
影響しないので省く。
-/

namespace IsekaiTerminal.Serve

open Protocol Lib

abbrev TaskId := Nat

/-- lease の資源。接続中のタスクか、確立した target と承認待ちの timer である。 -/
inductive LeaseResource
  | connecting (task : TaskId)
  | pendingTarget (timer : Option TaskId)
deriving DecidableEq

inductive Instr
  /-- `apply_and_execute`。 -/
  | apply (event : ServeEvent)
  /-- `activate` の `apply_with`。 -/
  | activate (key : AttachKey) (attachToken : AttachToken) (negotiatedGraceSecs : Option UInt32)
  /-- `execute_effects` の 1 つの作用。 -/
  | effect (effect : AttachEffect)
  /-- `activate` の `StartRelay`。資源を取り出す臨界区間である。 -/
  | startRelay (lease : LeaseId)
  /-- `TcpStream::connect` の完了を待つ。 -/
  | connecting (lease : LeaseId)
  /-- 接続したタスクが、資源を `PendingTarget` にする臨界区間。 -/
  | storeTarget (lease : LeaseId) (target : TargetHandleId) (attachToken : AttachToken)
  | connectFailed (lease : LeaseId)
  /-- `forget_connecting` の臨界区間。 -/
  | forgetConnecting (lease : LeaseId)
  /-- `cancel_lease` が、中断したタスクの終わりを待つ。 -/
  | awaitTask (task : TaskId) (lease : LeaseId)
  /-- `arm_pending_timeout` が、timer を資源に記録する臨界区間。 -/
  | storeTimer (lease : LeaseId) (timer : TaskId)
  | sleep (lease : LeaseId)
deriving DecidableEq

/-- タスクの種類。公開のメソッドを呼ぶ接続のタスクと、内部で起こした接続と timer のタスクがある。 -/
inductive TaskKind
  | caller
  | connect
  | timer
deriving DecidableEq

structure Task where
  kind : TaskKind
  code : List Instr
  aborted : Bool
deriving DecidableEq

structure AttachRuntime where
  core : ServeAggregate
  leases : LeaseId → Option LeaseResource
  tasks : List Task
  nextTargetId : UInt64

inductive Choice
  | call (event : ServeEvent)
  | callActivate (key : AttachKey) (attachToken : AttachToken) (negotiatedGraceSecs : Option UInt32)
  | run (task : TaskId)
  /-- target への接続が確立する。 -/
  | connected (task : TaskId) (attachToken : AttachToken)
  /-- target への接続が失敗するか、時間切れになる。 -/
  | refused (task : TaskId)
  /-- 中断されたタスクが消える。 -/
  | kill (task : TaskId)
deriving DecidableEq

/-- 公開のメソッドが適用するイベント。lease の完了を告げるイベントは、内部のタスクだけが適用する。 -/
def ServeEvent.isCall : ServeEvent → Bool
  | .admitRequested _ | .cancelReceived _ | .relayEnded _ | .parked _ _ _ | .relayTerminated _ _ _
  | .resumeUnavailable _ _ | .sweep _ _ | .resumeRequested _ => true
  | .targetConnected _ _ _ | .targetConnectFailed _ | .leaseStopped _ | .pendingExpired _
  | .activated _ _ _ => false

/-- ロックの外で実行する作用。 -/
def attachEffects (effects : List ServeEffect) : List AttachEffect :=
  effects.filterMap fun
    | .attach effect => some effect
    | .registerIo _ _ _ | .discard _ _ _ | .storeParked _ _ | .resumeGranted _ _
    | .requestPreempt _ _ | .resumeRejected _ => none

/-- `activate` が実行する作用。`StartRelay` のほかは記録だけして捨てる。 -/
def relayInstr : AttachEffect → Option Instr
  | .startRelay lease _ => some (.startRelay lease)
  | .connectTarget _ | .cancelLease _ | .sendReady _ _ | .sendReject _ _ | .schedulePendingTimeout _ => none

def LeaseResource.isConnecting : LeaseResource → Bool
  | .connecting _ => true
  | .pendingTarget _ => false

/-- `lease` は追い越されて、停止を待っている。 -/
def AttachArbiter.Closing (a : AttachArbiter) (lease : LeaseId) : Prop :=
  ∃ id next, a.stateFor id = some (.closingForSupersede lease next)

namespace AttachRuntime

def new (maxSessions : Nat) : AttachRuntime := ⟨.new maxSessions, fun _ => none, [], 0⟩

def setLease (s : AttachRuntime) (lease : LeaseId) (resource : Option LeaseResource) : AttachRuntime :=
  { s with leases := Function.update s.leases lease resource }

def setCode (s : AttachRuntime) (t : TaskId) (code : List Instr) : AttachRuntime :=
  { s with tasks := s.tasks.modify t fun task => { task with code } }

def spawn (s : AttachRuntime) (kind : TaskKind) (code : List Instr) : AttachRuntime :=
  { s with tasks := s.tasks ++ [⟨kind, code, false⟩] }

def nextTask (s : AttachRuntime) : TaskId := s.tasks.length

def abort (s : AttachRuntime) (t : TaskId) : AttachRuntime :=
  { s with tasks := s.tasks.modify t fun task => { task with aborted := true } }

def abortTimer (s : AttachRuntime) : Option TaskId → AttachRuntime
  | none => s
  | some timer => s.abort timer

def code (s : AttachRuntime) (t : TaskId) : List Instr := (s.tasks[t]?.map (·.code)).getD []

/-- `core` のロックの中の 1 回の `apply`。 -/
def applyCore (s : AttachRuntime) (event : ServeEvent) : AttachRuntime × List AttachEffect :=
  let (core, effects) := s.core.apply event
  ({ s with core }, attachEffects effects)

/-- `execute_effects` の 1 つの作用。`rest` はタスクの残りの仕事である。 -/
def runEffect (s : AttachRuntime) (t : TaskId) (rest : List Instr) : AttachEffect → AttachRuntime
  | .connectTarget lease =>
      -- 表のロックを持ったまま、タスクを起こして登録する。
      ((s.spawn .connect [.connecting lease]).setLease lease (some (.connecting s.nextTask))).setCode t rest
  | .cancelLease lease =>
      match s.leases lease with
      | some (.connecting task) =>
          ((s.setCode t (.awaitTask task lease :: rest)).abort task).setLease lease none
      | some (.pendingTarget timer) =>
          ((s.setCode t (.apply (.leaseStopped lease) :: rest)).abortTimer timer).setLease lease none
      | none => s.setCode t rest
  | .sendReady _ _ => s.setCode t rest
  | .sendReject _ _ => s.setCode t rest
  | .schedulePendingTimeout lease =>
      (s.spawn .timer [.sleep lease]).setCode t (.storeTimer lease s.nextTask :: rest)
  | .startRelay _ _ => s.setCode t rest

/-- タスク `t` の先頭の仕事 `i` を実行する。待ちが終わっていなければ `none` である。 -/
def runInstr (s : AttachRuntime) (t : TaskId) (rest : List Instr) : Instr → Option AttachRuntime
  | .apply event =>
      let (s, effects) := s.applyCore event
      some (s.setCode t (effects.map .effect ++ rest))
  | .activate key attachToken negotiatedGraceSecs =>
      let (s, effects) := s.applyCore (.activated key attachToken negotiatedGraceSecs)
      some (s.setCode t (effects.filterMap relayInstr ++ rest))
  | .effect effect => some (s.runEffect t rest effect)
  | .startRelay lease =>
      match s.leases lease with
      | some (.pendingTarget timer) => some (((s.setLease lease none).abortTimer timer).setCode t rest)
      | some (.connecting task) =>
          some (((s.setLease lease none).abort task).setCode t (.apply (.relayEnded lease) :: rest))
      | none => some (s.setCode t (.apply (.relayEnded lease) :: rest))
  | .connecting _ => none
  | .storeTarget lease target attachToken =>
      if (s.leases lease).any LeaseResource.isConnecting then
        some ((s.setLease lease (some (.pendingTarget none))).setCode t
          (.apply (.targetConnected lease target attachToken) :: rest))
      else some (s.setCode t [])
  | .connectFailed lease =>
      let (s, effects) := s.applyCore (.targetConnectFailed lease)
      let forget := if effects.isEmpty then [] else [Instr.forgetConnecting lease]
      some (s.setCode t (forget ++ effects.map .effect ++ rest))
  | .forgetConnecting lease =>
      if (s.leases lease).any LeaseResource.isConnecting then some ((s.setLease lease none).setCode t rest)
      else some (s.setCode t rest)
  | .awaitTask task lease =>
      if s.code task = [] then some (s.setCode t (.apply (.leaseStopped lease) :: rest)) else none
  | .storeTimer lease timer =>
      match s.leases lease with
      | some (.pendingTarget _) =>
          some ((s.setLease lease (some (.pendingTarget (some timer)))).setCode t rest)
      | some (.connecting _) => some ((s.abort timer).setCode t rest)
      | none => some ((s.abort timer).setCode t rest)
  | .sleep lease => some (s.setCode t (.apply (.pendingExpired lease) :: rest))

def step (s : AttachRuntime) : Choice → Option AttachRuntime
  | .call event => if event.isCall then some (s.spawn .caller [.apply event]) else none
  | .callActivate key attachToken negotiatedGraceSecs =>
      some (s.spawn .caller [.activate key attachToken negotiatedGraceSecs])
  | .run t =>
      match s.code t with
      | [] => none
      | i :: rest => s.runInstr t rest i
  | .connected t attachToken =>
      match s.code t with
      | .connecting lease :: rest =>
          some { s.setCode t (.storeTarget lease ⟨s.nextTargetId⟩ attachToken :: rest) with
            nextTargetId := s.nextTargetId + 1 }
      | _ => none
  | .refused t =>
      match s.code t with
      | .connecting lease :: rest => some (s.setCode t (.connectFailed lease :: rest))
      | _ => none
  | .kill t => if (s.tasks[t]?).any (·.aborted) then some (s.setCode t []) else none

/-- `step` を遷移の関係として見たもの。 -/
def Step (s : AttachRuntime) (c : Choice) (s' : AttachRuntime) : Prop := s.step c = some s'

/-- どのタスクも仕事を残していない。timer が満了を待っていてもよい。 -/
def Quiescent (s : AttachRuntime) : Prop :=
  ∀ task ∈ s.tasks, task.code = [] ∨ ∃ lease, task.code = [.sleep lease]

/-- `lease` の `start_connect` が、まだどのタスクにも残っていない。 -/
def ConnectStarted (s : AttachRuntime) (lease : LeaseId) : Prop :=
  ∀ task ∈ s.tasks, .effect (.connectTarget lease) ∉ task.code

/-- 追い越された lease の `cancel_lease` が、その lease の `start_connect` より先に表を引かない。 -/
def CancelsAfterConnect (s : AttachRuntime) : Choice → Prop
  | .run t => ∀ lease rest, s.code t = .effect (.cancelLease lease) :: rest →
      s.core.arbiter.Closing lease → s.ConnectStarted lease
  | _ => True

end AttachRuntime

namespace AttachRuntime

/-- 実行 `choices` の中で、`lease` の `LeaseStopped` が適用される。 -/
def StopApplied (s : AttachRuntime) (choices : List Choice) (lease : LeaseId) : Prop :=
  ∃ before t after s' rest, choices = before ++ .run t :: after ∧ Run Step s before s' ∧
    s'.code t = .apply (.leaseStopped lease) :: rest

end AttachRuntime

end IsekaiTerminal.Serve
