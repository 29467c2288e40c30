import IsekaiTerminal.Lib.Transition
import IsekaiTerminal.Serve.Slot

/-!
# serve の集約（`ServeAggregate`）

`engine/serve_fsm.rs` の reducer を定める。fencing の `AttachArbiter` と resume 用の索引を 1 つの値にまとめ、
`apply` がイベントごとに両方を進める。容量 `maxSessions` は `usize` だが、上限としてしか使わないので自然数で表す。
-/

namespace IsekaiTerminal.Serve

open Protocol Lib

/-- 索引の鍵。`SessionId` と同じ `[u8; 16]` である。 -/
abbrev SessionKey := SessionId

/-- session の現在の incarnation について reducer が知っていること。 -/
structure IndexEntry where
  lease : LeaseId
  /-- park した時刻。`none` は中継中を表す。 -/
  parkedSince : Option Millis
  negotiatedGraceSecs : Option UInt32
  unresumable : Bool
deriving DecidableEq

inductive DiscardCause
  | expired
  | evicted
  | tcpDied
  | guardDropped
  | unresumable
deriving DecidableEq

inductive TerminateReason
  | tcpDied
  | guardDropped
deriving DecidableEq

inductive ServeEvent
  | admitRequested (key : AttachKey)
  | targetConnected (lease : LeaseId) (target : TargetHandleId) (attachToken : AttachToken)
  | targetConnectFailed (lease : LeaseId)
  | cancelReceived (key : AttachKey)
  | leaseStopped (lease : LeaseId)
  | pendingExpired (lease : LeaseId)
  | activated (key : AttachKey) (attachToken : AttachToken) (negotiatedGraceSecs : Option UInt32)
  | relayEnded (lease : LeaseId)
  | parked (id : SessionKey) (lease : LeaseId) (now : Millis)
  | relayTerminated (id : SessionKey) (lease : LeaseId) (reason : TerminateReason)
  | resumeUnavailable (id : SessionKey) (lease : LeaseId)
  | sweep (now : Millis) (maxParked : Duration)
  | resumeRequested (id : SessionKey)
deriving DecidableEq

inductive ServeEffect
  | attach (effect : AttachEffect)
  | registerIo (id : SessionKey) (lease : LeaseId) (unresumable : Bool)
  | discard (id : SessionKey) (lease : LeaseId) (cause : DiscardCause)
  | storeParked (id : SessionKey) (lease : LeaseId)
  | resumeGranted (id : SessionKey) (lease : LeaseId)
  | requestPreempt (id : SessionKey) (lease : LeaseId)
  | resumeRejected (id : SessionKey)
deriving DecidableEq

def ServeEvent.lease? : ServeEvent → Option LeaseId
  | .targetConnected lease _ _ => some lease
  | .targetConnectFailed lease => some lease
  | .leaseStopped lease => some lease
  | .pendingExpired lease => some lease
  | .relayEnded lease => some lease
  | .parked _ lease _ => some lease
  | .relayTerminated _ lease _ => some lease
  | .resumeUnavailable _ lease => some lease
  | .admitRequested _ | .cancelReceived _ | .activated _ _ _ | .sweep _ _ | .resumeRequested _ => none

structure ServeAggregate where
  arbiter : AttachArbiter
  index : Std.ExtTreeMap SessionKey IndexEntry
  maxSessions : Nat

/-- park の締切。サーバ全体の上限と、ACK で約束した値の短い方である。 -/
def effectiveDeadline (entry : IndexEntry) (maxParked : Duration) : Duration :=
  match entry.negotiatedGraceSecs with
  | some secs => min maxParked (Duration.fromSecs secs.toNat)
  | none => maxParked

/-- park の時刻が早いほう、同時刻なら id の小さいほうが先である。 -/
def parkedBefore (p q : Millis × SessionKey) : Bool :=
  (compare p.1 q.1).then (compare p.2 q.2) == .lt

def minBy? {α : Type} (lt : α → α → Bool) : List α → Option α
  | [] => none
  | a :: as =>
      match minBy? lt as with
      | none => some a
      | some b => if lt b a then some b else some a

namespace ServeAggregate

def new (maxSessions : Nat) : ServeAggregate := ⟨.new, ∅, maxSessions⟩

def indexEntry (agg : ServeAggregate) (id : SessionKey) : Option IndexEntry := agg.index[id]?

def insertEntry (agg : ServeAggregate) (id : SessionKey) (entry : IndexEntry) : ServeAggregate :=
  { agg with index := agg.index.insert id entry }

def removeEntry (agg : ServeAggregate) (id : SessionKey) : ServeAggregate :=
  { agg with index := agg.index.erase id }

/-- 索引に関わらない ATTACH のイベントを、そのまま arbiter に渡す。 -/
def forward (agg : ServeAggregate) (event : AttachEvent) : ServeAggregate × List ServeEffect :=
  let (arbiter, effects) := agg.arbiter.apply event
  ({ agg with arbiter }, effects.map .attach)

def establishedLease (agg : ServeAggregate) (id : SessionKey) : Option LeaseId :=
  match agg.arbiter.stateFor id with
  | some (.established _ lease) => some lease
  | some (.connecting _ _) => none
  | some (.pendingActivation _ _ _ _) => none
  | some (.closingForSupersede _ _) => none
  | none => none

/-- park した時刻と id の組のうち、最も早いものの session。 -/
def oldestParked (agg : ServeAggregate) : Option SessionKey :=
  (minBy? parkedBefore
    (agg.index.toList.filterMap fun p => p.2.parkedSince.map fun since => (since, p.1))).map (·.2)

/-- 唯一の除去の経路。索引の項目の除去と slot の解放を同じ遷移で行う。 -/
def discard (agg : ServeAggregate) (id : SessionKey) (cause : DiscardCause) :
    ServeAggregate × List ServeEffect :=
  match agg.indexEntry id with
  | none => (agg, [])
  | some entry =>
      let (agg, effects) := (agg.removeEntry id).forward (.relayEnded entry.lease)
      (agg, .discard id entry.lease cause :: effects)

def onActivated (agg : ServeAggregate) (key : AttachKey) (attachToken : AttachToken)
    (negotiatedGraceSecs : Option UInt32) : ServeAggregate × List ServeEffect :=
  let id := key.sessionId
  let wasEstablished := (agg.establishedLease id).isSome
  let (arbiter, attachEffects) := agg.arbiter.apply (.activated key attachToken)
  let agg := { agg with arbiter }
  match wasEstablished, agg.establishedLease id with
  | false, some lease =>
      let live := (agg.index.toList.filter fun p => !p.2.unresumable).length
      -- 容量を超えていれば、最古の parked を立ち退かせるか、resume できない項目として登録する。
      let (agg, out, unresumable) :=
        if live ≥ agg.maxSessions ∧ (agg.indexEntry id).isNone then
          match agg.oldestParked with
          | some victim =>
              let (agg, out) := agg.discard victim .evicted
              (agg, out, false)
          | none => (agg, [], true)
        else (agg, [], false)
      (agg.insertEntry id ⟨lease, none, negotiatedGraceSecs, unresumable⟩,
        out ++ [.registerIo id lease unresumable] ++ attachEffects.map .attach)
  | _, _ => (agg, attachEffects.map .attach)

def onRelayEnded (agg : ServeAggregate) (lease : LeaseId) : ServeAggregate × List ServeEffect :=
  match agg.index.toList.find? (fun p => p.2.lease == lease) with
  | some p => agg.discard p.1 .tcpDied
  | none => agg.forward (.relayEnded lease)

def onParked (agg : ServeAggregate) (id : SessionKey) (lease : LeaseId) (now : Millis) :
    ServeAggregate × List ServeEffect :=
  match agg.indexEntry id with
  | none => (agg, [])
  | some entry =>
      if entry.lease ≠ lease then (agg, [])
      else if entry.unresumable then agg.discard id .unresumable
      else (agg.insertEntry id { entry with parkedSince := some now }, [.storeParked id lease])

def onResumeUnavailable (agg : ServeAggregate) (id : SessionKey) (lease : LeaseId) :
    ServeAggregate × List ServeEffect :=
  match agg.indexEntry id with
  | none => (agg, [])
  | some entry =>
      if entry.lease = lease ∧ entry.parkedSince.isNone then
        (agg.insertEntry id { entry with unresumable := true }, [])
      else (agg, [])

def onRelayTerminated (agg : ServeAggregate) (id : SessionKey) (lease : LeaseId)
    (reason : TerminateReason) : ServeAggregate × List ServeEffect :=
  if (agg.indexEntry id).map (·.lease) ≠ some lease then (agg, [])
  else
    let cause := match reason with
      | .tcpDied => DiscardCause.tcpDied
      | .guardDropped => DiscardCause.guardDropped
    agg.discard id cause

def expired (agg : ServeAggregate) (now : Millis) (maxParked : Duration) : List SessionKey :=
  agg.index.toList.filterMap fun p =>
    p.2.parkedSince.bind fun since =>
      if now.saturatingSub since ≥ effectiveDeadline p.2 maxParked then some p.1 else none

def onSweep (agg : ServeAggregate) (now : Millis) (maxParked : Duration) :
    ServeAggregate × List ServeEffect :=
  let discardExpired := fun (agg : ServeAggregate) id => agg.discard id .expired
  (Reducer.run discardExpired agg (agg.expired now maxParked),
    Reducer.outputs discardExpired agg (agg.expired now maxParked))

def onResumeRequested (agg : ServeAggregate) (id : SessionKey) : ServeAggregate × List ServeEffect :=
  match agg.indexEntry id with
  | none => (agg, [.resumeRejected id])
  | some entry =>
      if entry.unresumable ∨ agg.establishedLease id ≠ some entry.lease then (agg, [.resumeRejected id])
      else
        match entry.parkedSince with
        | some _ => (agg.insertEntry id { entry with parkedSince := none }, [.resumeGranted id entry.lease])
        | none => (agg, [.requestPreempt id entry.lease])

def onAdmitRequested (agg : ServeAggregate) (key : AttachKey) : ServeAggregate × List ServeEffect :=
  if agg.arbiter.hasSession key.sessionId = false ∧ agg.arbiter.sessionCount ≥ agg.maxSessions then
    match agg.oldestParked with
    | some victim =>
        let (agg, out) := agg.discard victim .evicted
        let (agg, effects) := agg.forward (.helloReceived key)
        (agg, out ++ effects)
    | none => (agg, [.attach (.sendReject key .busyOtherSession)])
  else agg.forward (.helloReceived key)

def apply (agg : ServeAggregate) : ServeEvent → ServeAggregate × List ServeEffect
  | .admitRequested key => agg.onAdmitRequested key
  | .targetConnected lease target attachToken => agg.forward (.targetConnected lease target attachToken)
  | .targetConnectFailed lease => agg.forward (.targetConnectFailed lease)
  | .cancelReceived key => agg.forward (.cancelReceived key)
  | .leaseStopped lease => agg.forward (.leaseStopped lease)
  | .pendingExpired lease => agg.forward (.pendingExpired lease)
  | .activated key attachToken negotiatedGraceSecs => agg.onActivated key attachToken negotiatedGraceSecs
  | .relayEnded lease => agg.onRelayEnded lease
  | .parked id lease now => agg.onParked id lease now
  | .relayTerminated id lease reason => agg.onRelayTerminated id lease reason
  | .resumeUnavailable id lease => agg.onResumeUnavailable id lease
  | .sweep now maxParked => agg.onSweep now maxParked
  | .resumeRequested id => agg.onResumeRequested id

end ServeAggregate

/-! ## 履歴 -/

namespace ServeAggregate

abbrev after (maxSessions : Nat) (es : List ServeEvent) : ServeAggregate :=
  Reducer.run ServeAggregate.apply (.new maxSessions) es

/-- イベントの lease が、そのイベントの対象である slot または項目の現在の lease である。 -/
def Current (agg : ServeAggregate) : ServeEvent → Prop
  | .targetConnected lease _ _ => ∃ id key, agg.arbiter.stateFor id = some (.connecting key lease)
  | .targetConnectFailed lease => ∃ id key, agg.arbiter.stateFor id = some (.connecting key lease)
  | .pendingExpired lease =>
      ∃ id key token target, agg.arbiter.stateFor id = some (.pendingActivation key lease token target)
  | .leaseStopped lease => ∃ id next, agg.arbiter.stateFor id = some (.closingForSupersede lease next)
  | .relayEnded lease => ∃ id key, agg.arbiter.stateFor id = some (.established key lease)
  | .parked id lease _ => ∃ entry, agg.indexEntry id = some entry ∧ entry.lease = lease
  | .relayTerminated id lease _ => ∃ entry, agg.indexEntry id = some entry ∧ entry.lease = lease
  | .resumeUnavailable id lease => ∃ entry, agg.indexEntry id = some entry ∧ entry.lease = lease
  | .admitRequested _ | .cancelReceived _ | .activated _ _ _ | .sweep _ _ | .resumeRequested _ => True

/-- いま保持している lease の完了を告げるイベント。 -/
def Completes (agg : ServeAggregate) : ServeEvent → Prop
  | .targetConnectFailed lease => ∃ id key, agg.arbiter.stateFor id = some (.connecting key lease)
  | .pendingExpired lease =>
      ∃ id key token target, agg.arbiter.stateFor id = some (.pendingActivation key lease token target)
  | .leaseStopped lease => ∃ id next, agg.arbiter.stateFor id = some (.closingForSupersede lease next)
  | .relayEnded lease => ∃ id key, agg.arbiter.stateFor id = some (.established key lease)
  | _ => False

/-- 完了の事実だけによる実行。 -/
abbrev Completion : ServeAggregate → List ServeEvent → ServeAggregate → Prop :=
  Run (Guarded (fun agg e agg' => agg' = (agg.apply e).1) Completes)

/-- `victim` は parked で、park した時刻と id の組が最小である。 -/
def OldestParked (agg : ServeAggregate) (victim : SessionKey) (lease : LeaseId) : Prop :=
  ∃ entry since, agg.indexEntry victim = some entry ∧ entry.lease = lease ∧ entry.parkedSince = some since ∧
    ∀ id entry' since', agg.indexEntry id = some entry' → entry'.parkedSince = some since' →
      since < since' ∨ since = since' ∧ (compare victim id).isLE = true

/-- park してからの時間が、サーバ全体の上限と、約束した値の短いほうに達している。 -/
def Overdue (agg : ServeAggregate) (now : Millis) (maxParked : Duration) (id : SessionKey) : Prop :=
  ∃ entry since, agg.indexEntry id = some entry ∧ entry.parkedSince = some since ∧
    (entry.negotiatedGraceSecs.elim maxParked fun secs => min maxParked (Duration.fromSecs secs.toNat)) ≤
      now.saturatingSub since

/-- `ids` の session だけを除いた結果。作用は `ids` の順に 1 つずつである。 -/
structure Removed (agg : ServeAggregate) (ids : List SessionKey) (cause : DiscardCause)
    (r : ServeAggregate × List ServeEffect) : Prop where
  gone : ∀ id ∈ ids, r.1.indexEntry id = none ∧ r.1.arbiter.stateFor id = none
  kept : ∀ id ∉ ids, r.1.indexEntry id = agg.indexEntry id ∧ r.1.arbiter.stateFor id = agg.arbiter.stateFor id
  held : ∀ id ∈ ids, ∃ key lease, agg.arbiter.stateFor id = some (.established key lease)
  effects : List.Forall₂ (fun id eff => ∃ entry, agg.indexEntry id = some entry ∧
    eff = .discard id entry.lease cause) ids r.2

/-- 最古の parked の session だけを立ち退かせ、`key` の接続を 1 つだけ始めた結果。 -/
structure Replaced (agg : ServeAggregate) (key : AttachKey) (victim : SessionKey) (victimLease : LeaseId)
    (r : ServeAggregate × List ServeEffect) : Prop where
  oldest : agg.OldestParked victim victimLease
  effects : r.2 = [.discard victim victimLease .evicted, .attach (.connectTarget ⟨agg.arbiter.nextLease⟩)]
  index : ∀ id, r.1.indexEntry id = if id = victim then none else agg.indexEntry id
  slots : ∀ id, r.1.arbiter.stateFor id =
    if id = key.sessionId then some (.connecting key ⟨agg.arbiter.nextLease⟩)
    else if id = victim then none else agg.arbiter.stateFor id

end ServeAggregate

end IsekaiTerminal.Serve
