import IsekaiTerminal.Lib.Transition
import IsekaiTerminal.Protocol.Attach

/-!
# 1 つの session の slot の遷移

fencing の規則は session ごとに独立である。ここでは `AttachArbiter` を離れて、1 つの slot が
イベントによってどう変わり、どの作用を出すかを関係 `SlotStep` として述べる。
`Lemmas/Arbiter.lean` で、`AttachArbiter::apply` が高々 1 つの slot をこの関係に沿って変えることを示す。
-/

namespace IsekaiTerminal.Serve

open Protocol Lib

/-!
## fencing の reducer（`AttachArbiter`）

`engine/attach_arbiter.rs` の状態、イベント、作用と、`AttachArbiter::apply` の各分岐を定める。
session ごとに 1 つの slot を持ち、slot の無い session は表に現れない。

lease の番号は `u64` の増分だが、一周するまでに 2^64 回の接続を要するので、自然数で表す。
`sessions` の元の型は `HashMap` であり反復の順序を持たない。ここでは鍵の順に反復する
（lease は高々 1 つの slot にしか現れないので、`session_for_lease` の結果は順序によらない）。
-/

/-- 受理した 1 つの試行の資源を結びつける番号。 -/
structure LeaseId where
  raw : Nat
deriving DecidableEq, Inhabited

/-- 確立済みの target への TCP 接続の番号。 -/
structure TargetHandleId where
  raw : UInt64
deriving DecidableEq, Inhabited

inductive AttachState
  | connecting (key : AttachKey) (lease : LeaseId)
  | pendingActivation (key : AttachKey) (lease : LeaseId) (attachToken : AttachToken)
      (target : TargetHandleId)
  | established (key : AttachKey) (lease : LeaseId)
  | closingForSupersede (oldLease : LeaseId) (next : AttachKey)
deriving DecidableEq

inductive AttachEvent
  | helloReceived (key : AttachKey)
  | targetConnected (lease : LeaseId) (target : TargetHandleId) (attachToken : AttachToken)
  | targetConnectFailed (lease : LeaseId)
  | activated (key : AttachKey) (attachToken : AttachToken)
  | cancelReceived (key : AttachKey)
  | leaseStopped (lease : LeaseId)
  | pendingExpired (lease : LeaseId)
  | relayEnded (lease : LeaseId)
deriving DecidableEq

inductive AttachEffect
  | connectTarget (lease : LeaseId)
  | cancelLease (lease : LeaseId)
  | sendReady (key : AttachKey) (attachToken : AttachToken)
  | sendReject (key : AttachKey) (reason : AttachRejectReason)
  | schedulePendingTimeout (lease : LeaseId)
  | startRelay (lease : LeaseId) (target : TargetHandleId)
deriving DecidableEq

/-- `sessions` は slot の表、`nextLease` は次に割り当てる lease の番号である。 -/
structure AttachArbiter where
  sessions : Std.ExtTreeMap SessionId AttachState
  nextLease : Nat

def AttachState.lease : AttachState → LeaseId
  | .connecting _ l => l
  | .pendingActivation _ l _ _ => l
  | .established _ l => l
  | .closingForSupersede l _ => l

/-- slot が次に確立しようとする、または確立した試行。 -/
def AttachState.key : AttachState → AttachKey
  | .connecting k _ => k
  | .pendingActivation k _ _ _ => k
  | .established k _ => k
  | .closingForSupersede _ k => k

namespace AttachArbiter

def new : AttachArbiter := ⟨∅, 0⟩

def stateFor (a : AttachArbiter) (id : SessionId) : Option AttachState := a.sessions[id]?

def sessionCount (a : AttachArbiter) : Nat := a.sessions.size

def hasSession (a : AttachArbiter) (id : SessionId) : Bool := a.sessions.contains id

def insertSlot (a : AttachArbiter) (id : SessionId) (st : AttachState) : AttachArbiter :=
  { a with sessions := a.sessions.insert id st }

def removeSlot (a : AttachArbiter) (id : SessionId) : AttachArbiter :=
  { a with sessions := a.sessions.erase id }

def mintLease (a : AttachArbiter) : LeaseId × AttachArbiter :=
  (⟨a.nextLease⟩, { a with nextLease := a.nextLease + 1 })

/-- `lease` を保持する slot の session を線形に探す。 -/
def sessionForLease (a : AttachArbiter) (lease : LeaseId) : Option SessionId :=
  a.sessions.toList.findSome? fun p => if p.2.lease = lease then some p.1 else none

/-- まだ確立していない試行 `cur` に対して、同じ session の `key` が届いたときの判定。 -/
def decideAgainstInFlight (a : AttachArbiter) (key cur : AttachKey) (curLease : LeaseId)
    (pendingAttachToken : Option AttachToken) : AttachArbiter × List AttachEffect :=
  if key.generation < cur.generation then
    (a, [.sendReject key (.staleGeneration cur.generation)])
  else if key.generation = cur.generation then
    if key.attemptId = cur.attemptId then
      match pendingAttachToken with
      | some attachToken => (a, [.sendReady key attachToken])
      | none => (a, [])
    else (a, [.sendReject key .alreadyAttached])
  else
    -- 世代が真に大きい。`cur` の lease の片付けが終わるまで `key` の接続は始めない。
    (a.insertSlot key.sessionId (.closingForSupersede curLease key),
      [.sendReject cur (.staleGeneration key.generation), .cancelLease curLease])

def onHelloReceived (a : AttachArbiter) (key : AttachKey) : AttachArbiter × List AttachEffect :=
  match a.stateFor key.sessionId with
  | none =>
      let (lease, a) := a.mintLease
      (a.insertSlot key.sessionId (.connecting key lease), [.connectTarget lease])
  | some (.connecting cur lease) => a.decideAgainstInFlight key cur lease none
  | some (.pendingActivation cur lease attachToken _) =>
      a.decideAgainstInFlight key cur lease (some attachToken)
  | some (.established _ _) => (a, [.sendReject key .attachAlreadyEstablished])
  | some (.closingForSupersede oldLease next) =>
      if key = next then (a, [])
      else if next.generation < key.generation then
        (a.insertSlot key.sessionId (.closingForSupersede oldLease key),
          [.sendReject next (.staleGeneration key.generation)])
      else if key.generation < next.generation then
        (a, [.sendReject key (.staleGeneration next.generation)])
      else (a, [.sendReject key .alreadyAttached])

def onTargetConnected (a : AttachArbiter) (lease : LeaseId) (target : TargetHandleId)
    (attachToken : AttachToken) : AttachArbiter × List AttachEffect :=
  match a.sessionForLease lease with
  | none => (a, [])
  | some id =>
      match a.stateFor id with
      | some (.connecting key _) =>
          (a.insertSlot id (.pendingActivation key lease attachToken target),
            [.sendReady key attachToken, .schedulePendingTimeout lease])
      | _ => (a, [])

def onTargetConnectFailed (a : AttachArbiter) (lease : LeaseId) : AttachArbiter × List AttachEffect :=
  match a.sessionForLease lease with
  | none => (a, [])
  | some id =>
      match a.stateFor id with
      | some (.connecting key _) => (a.removeSlot id, [.sendReject key .target])
      | _ => (a, [])

def onActivated (a : AttachArbiter) (key : AttachKey) (attachToken : AttachToken) :
    AttachArbiter × List AttachEffect :=
  match a.stateFor key.sessionId with
  | some (.pendingActivation cur lease curToken target) =>
      if cur ≠ key ∨ curToken.ctEq attachToken = false then (a, [])
      else (a.insertSlot key.sessionId (.established key lease), [.startRelay lease target])
  | _ => (a, [])

def onCancelReceived (a : AttachArbiter) (key : AttachKey) : AttachArbiter × List AttachEffect :=
  match a.stateFor key.sessionId with
  | some (.connecting cur lease) =>
      if cur = key then
        (a.removeSlot key.sessionId, [.sendReject key .alreadyAttached, .cancelLease lease])
      else (a, [])
  | some (.pendingActivation cur lease _ _) =>
      if cur = key then
        (a.removeSlot key.sessionId, [.sendReject key .alreadyAttached, .cancelLease lease])
      else (a, [])
  | _ => (a, [])

def onLeaseStopped (a : AttachArbiter) (lease : LeaseId) : AttachArbiter × List AttachEffect :=
  match a.sessionForLease lease with
  | none => (a, [])
  | some id =>
      match a.stateFor id with
      | some (.closingForSupersede _ next) =>
          let (newLease, a) := a.mintLease
          (a.insertSlot id (.connecting next newLease), [.connectTarget newLease])
      | _ => (a, [])

def onPendingExpired (a : AttachArbiter) (lease : LeaseId) : AttachArbiter × List AttachEffect :=
  match a.sessionForLease lease with
  | none => (a, [])
  | some id =>
      match a.stateFor id with
      | some (.pendingActivation _ _ _ _) => (a.removeSlot id, [.cancelLease lease])
      | _ => (a, [])

def onRelayEnded (a : AttachArbiter) (lease : LeaseId) : AttachArbiter × List AttachEffect :=
  match a.sessionForLease lease with
  | none => (a, [])
  | some id =>
      match a.stateFor id with
      | some (.established _ _) => (a.removeSlot id, [])
      | _ => (a, [])

def apply (a : AttachArbiter) : AttachEvent → AttachArbiter × List AttachEffect
  | .helloReceived key => a.onHelloReceived key
  | .targetConnected lease target attachToken => a.onTargetConnected lease target attachToken
  | .targetConnectFailed lease => a.onTargetConnectFailed lease
  | .activated key attachToken => a.onActivated key attachToken
  | .cancelReceived key => a.onCancelReceived key
  | .leaseStopped lease => a.onLeaseStopped lease
  | .pendingExpired lease => a.onPendingExpired lease
  | .relayEnded lease => a.onRelayEnded lease

end AttachArbiter

/-- 届いた試行 `key` を、slot の状態だけから拒否する理由。世代が小さい、同じ世代を別の試行が得ている、
または session が既に確立している場合に限る。 -/
def AttachState.rejection (st : AttachState) (key : AttachKey) : Option AttachRejectReason :=
  match st with
  | .established _ _ => some .attachAlreadyEstablished
  | _ =>
      if key.generation < st.key.generation then some (.staleGeneration st.key.generation)
      else if key.generation = st.key.generation ∧ key.attemptId ≠ st.key.attemptId then
        some .alreadyAttached
      else none

/-- 同じ試行の再送に対する応答。token を既に送っていれば送り直す。 -/
def AttachState.resend : AttachState → List AttachEffect
  | .pendingActivation key _ token _ => [.sendReady key token]
  | _ => []

/-- 接続中または承認待ち。より大きい世代に追い越されうる状態である。 -/
def AttachState.InFlight : AttachState → Prop
  | .connecting _ _ => True
  | .pendingActivation _ _ _ _ => True
  | .established _ _ => False
  | .closingForSupersede _ _ => False

/-- イベント `e` は、session `id` の slot `st` を動かしうる。HELLO はその session の slot に、ほかのイベントは
運ぶ lease または鍵を、対応する状態で保持する slot にだけ関わる。 -/
def AttachEvent.Concerns (id : SessionId) (st : Option AttachState) : AttachEvent → Prop
  | .helloReceived key => key.sessionId = id
  | .targetConnected lease _ _ => ∃ key, st = some (.connecting key lease)
  | .targetConnectFailed lease => ∃ key, st = some (.connecting key lease)
  | .activated key token => ∃ lease target, st = some (.pendingActivation key lease token target)
  | .cancelReceived key => ∃ t, st = some t ∧ t.InFlight ∧ t.key = key
  | .leaseStopped lease => ∃ next, st = some (.closingForSupersede lease next)
  | .pendingExpired lease => ∃ key token target, st = some (.pendingActivation key lease token target)
  | .relayEnded lease => ∃ key, st = some (.established key lease)

def AttachEvent.lease? : AttachEvent → Option LeaseId
  | .targetConnected lease _ _ => some lease
  | .targetConnectFailed lease => some lease
  | .leaseStopped lease => some lease
  | .pendingExpired lease => some lease
  | .relayEnded lease => some lease
  | .helloReceived _ | .activated _ _ | .cancelReceived _ => none

/-- session `id` の slot の遷移。`n` は次に割り当てる lease の番号、`n'` は遷移の後のその番号である。 -/
inductive SlotStep (id : SessionId) (n : Nat) :
    AttachEvent → Option AttachState → Option AttachState → Nat → List AttachEffect → Prop
  | connect {key} (hid : key.sessionId = id) :
      SlotStep id n (.helloReceived key) none (some (.connecting key ⟨n⟩)) (n + 1) [.connectTarget ⟨n⟩]
  | reject {key st reason} (hid : key.sessionId = id) (hr : st.rejection key = some reason) :
      SlotStep id n (.helloReceived key) (some st) (some st) n [.sendReject key reason]
  | resend {key st} (hid : key.sessionId = id) (hk : st.key = key) (hr : st.rejection key = none) :
      SlotStep id n (.helloReceived key) (some st) (some st) n st.resend
  | supersede {key st} (hid : key.sessionId = id) (hf : st.InFlight)
      (hg : st.key.generation < key.generation) :
      SlotStep id n (.helloReceived key) (some st) (some (.closingForSupersede st.lease key)) n
        [.sendReject st.key (.staleGeneration key.generation), .cancelLease st.lease]
  | replaceNext {key old next} (hid : key.sessionId = id) (hg : next.generation < key.generation) :
      SlotStep id n (.helloReceived key) (some (.closingForSupersede old next))
        (some (.closingForSupersede old key)) n [.sendReject next (.staleGeneration key.generation)]
  | connected {key lease target token} :
      SlotStep id n (.targetConnected lease target token) (some (.connecting key lease))
        (some (.pendingActivation key lease token target)) n
        [.sendReady key token, .schedulePendingTimeout lease]
  | connectFailed {key lease} :
      SlotStep id n (.targetConnectFailed lease) (some (.connecting key lease)) none n
        [.sendReject key .target]
  | activate {key lease token target} (hid : key.sessionId = id) :
      SlotStep id n (.activated key token) (some (.pendingActivation key lease token target))
        (some (.established key lease)) n [.startRelay lease target]
  | cancel {key st} (hid : key.sessionId = id) (hf : st.InFlight) (hk : st.key = key) :
      SlotStep id n (.cancelReceived key) (some st) none n
        [.sendReject key .alreadyAttached, .cancelLease st.lease]
  | restart {lease next} :
      SlotStep id n (.leaseStopped lease) (some (.closingForSupersede lease next))
        (some (.connecting next ⟨n⟩)) (n + 1) [.connectTarget ⟨n⟩]
  | expire {key lease token target} :
      SlotStep id n (.pendingExpired lease) (some (.pendingActivation key lease token target)) none n
        [.cancelLease lease]
  | finish {key lease} :
      SlotStep id n (.relayEnded lease) (some (.established key lease)) none n []

theorem AttachEvent.Concerns.lease {id : SessionId} {st : Option AttachState} {e : AttachEvent}
    {lease : LeaseId} (h : e.Concerns id st) (he : e.lease? = some lease) :
    ∃ t, st = some t ∧ t.lease = lease := by
  cases e with
  | helloReceived | activated | cancelReceived => cases he
  | targetConnected l =>
      cases he
      obtain ⟨key, rfl⟩ := h
      exact ⟨_, rfl, rfl⟩
  | targetConnectFailed l | leaseStopped l | relayEnded l =>
      cases he
      obtain ⟨key, rfl⟩ := h
      exact ⟨_, rfl, rfl⟩
  | pendingExpired l =>
      cases he
      obtain ⟨key, token, target, rfl⟩ := h
      exact ⟨_, rfl, rfl⟩

theorem AttachEvent.Concerns.session {id : SessionId} {st : Option AttachState} {e : AttachEvent}
    (h : e.Concerns id st) (hk : ∀ t, st = some t → t.key.sessionId = id) {key : AttachKey}
    (he : e = .helloReceived key ∨ (∃ token, e = .activated key token) ∨ e = .cancelReceived key) :
    key.sessionId = id := by
  rcases he with rfl | ⟨token, rfl⟩ | rfl
  · exact h
  · obtain ⟨lease, target, rfl⟩ := h
    exact hk _ rfl
  · obtain ⟨t, rfl, -, rfl⟩ := h
    exact hk _ rfl

namespace SlotStep

variable {id : SessionId} {n n' : Nat} {e : AttachEvent} {st st' : Option AttachState}
  {effs : List AttachEffect}

theorem concerns (h : SlotStep id n e st st' n' effs) : e.Concerns id st := by
  cases h with
  | connect hid | reject hid | resend hid | supersede hid | replaceNext hid => exact hid
  | connected | connectFailed | restart | finish => exact ⟨_, rfl⟩
  | activate => exact ⟨_, _, rfl⟩
  | cancel _ hf hk => exact ⟨_, rfl, hf, hk⟩
  | expire => exact ⟨_, _, _, rfl⟩

theorem le_next (h : SlotStep id n e st st' n' effs) : n ≤ n' := by
  cases h <;> omega

/-- 遷移の後の lease は、遷移の前の lease であるか、新しく割り当てた番号である。 -/
theorem lease_of_next (h : SlotStep id n e st st' n' effs) {t' : AttachState} (ht : st' = some t') :
    (∃ t, st = some t ∧ t'.lease = t.lease) ∨ (t'.lease = ⟨n⟩ ∧ n' = n + 1) := by
  subst ht
  cases h with
  | connect | restart => exact Or.inr ⟨rfl, rfl⟩
  | reject | resend => exact Or.inl ⟨_, rfl, rfl⟩
  | supersede | replaceNext | connected | activate => exact Or.inl ⟨_, rfl, rfl⟩

theorem keyed_next (h : SlotStep id n e st st' n' effs)
    (hst : ∀ t, st = some t → t.key.sessionId = id) {t' : AttachState} (ht : st' = some t') :
    t'.key.sessionId = id := by
  subst ht
  cases h with
  | connect hid => exact hid
  | reject | resend => exact hst _ rfl
  | supersede hid | replaceNext hid | activate hid => exact hid
  | connected | restart => have h := hst _ rfl; exact h

/-- 番号を割り当てるのは、空の slot への HELLO と、追い越された lease の停止だけである。 -/
theorem connectTarget_mem (h : SlotStep id n e st st' n' effs) {lease : LeaseId}
    (hm : AttachEffect.connectTarget lease ∈ effs) :
    ∃ key, lease = ⟨n⟩ ∧ st' = some (.connecting key ⟨n⟩) ∧
      ((e = .helloReceived key ∧ key.sessionId = id ∧ st = none) ∨
        ∃ old, e = .leaseStopped old ∧ st = some (.closingForSupersede old key)) := by
  cases h with
  | connect hid =>
      obtain rfl := AttachEffect.connectTarget.inj (List.mem_singleton.mp hm)
      exact ⟨_, rfl, rfl, Or.inl ⟨rfl, hid, rfl⟩⟩
  | restart =>
      obtain rfl := AttachEffect.connectTarget.inj (List.mem_singleton.mp hm)
      exact ⟨_, rfl, rfl, Or.inr ⟨_, rfl, rfl⟩⟩
  | resend => rename_i t _ _ _; cases t <;> simp [AttachState.resend] at hm
  | _ => simp at hm

end SlotStep

/-!
## fencing の履歴

ある時点の slot の状態だけからは言えない性質のために、それまでに適用したイベントの列について、
待っている試行、slot に入った lease、終わりが届いた lease、target の接続を告げた承認待ちを定める。
-/

/-- `key` の HELLO を待つ側に、結果を明示して届ける作用。 -/
def AttachEffect.Resolves (key : AttachKey) : AttachEffect → Prop
  | .sendReady k _ => k = key
  | .sendReject k _ => k = key
  | _ => False

/-- slot が `key` を、`Connecting` の鍵または `ClosingForSupersede` の次の鍵として保持している。 -/
def AttachState.Awaits (key : AttachKey) : AttachState → Prop
  | .connecting k _ => k = key
  | .closingForSupersede _ next => next = key
  | .pendingActivation _ _ _ _ => False
  | .established _ _ => False

/-- lease の片付けが済んだことを告げるイベント。 -/
def AttachEvent.Finishes (lease : LeaseId) : AttachEvent → Prop
  | .targetConnectFailed l => l = lease
  | .leaseStopped l => l = lease
  | .relayEnded l => l = lease
  | _ => False

/-- 片付けを待たずに slot を空ける遷移。CANCEL と、承認待ちの期限切れがこれにあたる。 -/
def AttachEvent.Drops (e : AttachEvent) (st : AttachState) : Prop :=
  (∃ key, e = .cancelReceived key ∧ st.InFlight ∧ st.key = key) ∨
    (∃ key lease token target, e = .pendingExpired lease ∧ st = .pendingActivation key lease token target)

def AttachEffect.relayLease : AttachEffect → Option LeaseId
  | .startRelay lease _ => some lease
  | _ => none

namespace AttachArbiter

abbrev after (es : List AttachEvent) : AttachArbiter := Reducer.run AttachArbiter.apply .new es

/-- `key` の結果を待つ HELLO が、その session の slot に残っている。 -/
def Waiting (a : AttachArbiter) (key : AttachKey) : Prop :=
  ∃ st, a.stateFor key.sessionId = some st ∧ st.Awaits key

def Held (es : List AttachEvent) (id : SessionId) (lease : LeaseId) : Prop :=
  ∃ pre post st, es = pre ++ post ∧ (after pre).stateFor id = some st ∧ st.lease = lease

def Finished (es : List AttachEvent) (lease : LeaseId) : Prop := ∃ e ∈ es, e.Finishes lease

/-- `es` の中の CANCEL または期限切れが、`lease` の終わりを待たずに session `id` の slot を空けた。 -/
def Dropped (es : List AttachEvent) (id : SessionId) (lease : LeaseId) : Prop :=
  ∃ pre e post st, es = pre ++ e :: post ∧ (after pre).stateFor id = some st ∧ st.lease = lease ∧ e.Drops st

/-- `ConnectTarget` が session の slot に lease を入れるときには、その slot に入ったことのあるどの lease も、
既に終わりが届いている。 -/
def AtMostOneLive (es : List AttachEvent) : Prop :=
  ∀ pre e post, es = pre ++ e :: post → ∀ lease id st,
    .connectTarget lease ∈ ((after pre).apply e).2 →
      (after (pre ++ [e])).stateFor id = some st → st.lease = lease →
        ∀ l, Held pre id l → Finished (pre ++ [e]) l

/-- 空の slot を HELLO が埋めるときに、片付けの終わっていない lease が無い。 -/
def VacancySettled (es : List AttachEvent) : Prop :=
  ∀ pre key post, es = pre ++ .helloReceived key :: post → (after pre).stateFor key.sessionId = none →
    ∀ lease, Dropped pre key.sessionId lease → Finished pre lease

/-- `e` は、`key` の承認待ち `lease` を終わらせるイベントではない。より大きい世代の HELLO、`key` の CANCEL、
`lease` の期限切れのいずれでもない。 -/
def Retains (key : AttachKey) (lease : LeaseId) (e : AttachEvent) : Prop :=
  (∀ k, e = .helloReceived k → k.sessionId = key.sessionId → ¬ key.generation < k.generation) ∧
    e ≠ .cancelReceived key ∧ e ≠ .pendingExpired lease

/-- `es` の中の `TargetConnected` が `key` と `token` の `SendReady` を出し、その後に承認待ちを終わらせる
イベントは無い。 -/
def Authorized (es : List AttachEvent) (key : AttachKey) (lease : LeaseId) (token : AttachToken)
    (target : TargetHandleId) : Prop :=
  ∃ pre mid, es = pre ++ .targetConnected lease target token :: mid ∧
    .sendReady key token ∈ ((after pre).apply (.targetConnected lease target token)).2 ∧
    ∀ e ∈ mid, Retains key lease e

end AttachArbiter

end IsekaiTerminal.Serve
