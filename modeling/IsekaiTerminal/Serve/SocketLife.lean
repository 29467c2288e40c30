import IsekaiTerminal.Lib.Transition
import IsekaiTerminal.Serve.Aggregate

/-!
# park されたソケットの一生

1 つの lease のソケットは、登録され、中継と park を繰り返し、高々 1 回捨てられる。この規約を
オートマトン `SocketPhase.step` として述べ、受理される列が満たす性質を示す。ここは `ServeAggregate` の
コードに触れない。作用の列が受理されることは `Lemmas/SocketLife.lean` で示す。
-/

namespace IsekaiTerminal.Serve

open Lib

inductive SocketEvent
  | register
  | storeParked
  | resumeGranted
  | requestPreempt
  | discard (cause : DiscardCause)
deriving DecidableEq

inductive SocketPhase
  | unregistered
  | active
  | parked
  | discarded
deriving DecidableEq

/-- 期限切れと立ち退きは、park されたソケットだけを捨てる。 -/
def DiscardCause.ofParked (cause : DiscardCause) : Bool := cause = .expired ∨ cause = .evicted

/-- 許される作用と、その後の状態。 -/
def SocketPhase.step : SocketPhase → SocketEvent → Option SocketPhase
  | .unregistered, .register => some .active
  | .active, .storeParked => some .parked
  | .active, .requestPreempt => some .active
  | .active, .discard cause => if cause.ofParked then none else some .discarded
  | .parked, .storeParked => some .parked
  | .parked, .resumeGranted => some .active
  | .parked, .discard _ => some .discarded
  | _, _ => none

/-- 作用のうち `lease` のソケットに対するもの。 -/
def ServeEffect.socket (lease : LeaseId) : ServeEffect → Option SocketEvent
  | .registerIo _ l _ => if l = lease then some .register else none
  | .storeParked _ l => if l = lease then some .storeParked else none
  | .resumeGranted _ l => if l = lease then some .resumeGranted else none
  | .requestPreempt _ l => if l = lease then some .requestPreempt else none
  | .discard _ l cause => if l = lease then some (.discard cause) else none
  | .attach _ | .resumeRejected _ => none

namespace ServeEffect

variable (lease l : LeaseId) (id : SessionKey)

@[simp] theorem socket_attach (effect : AttachEffect) : (attach effect).socket lease = none := rfl

@[simp] theorem socket_resumeRejected : (resumeRejected id).socket lease = none := rfl

@[simp] theorem socket_registerIo (unresumable : Bool) :
    (registerIo id l unresumable).socket lease = if l = lease then some .register else none := rfl

@[simp] theorem socket_storeParked :
    (storeParked id l).socket lease = if l = lease then some .storeParked else none := rfl

@[simp] theorem socket_resumeGranted :
    (resumeGranted id l).socket lease = if l = lease then some .resumeGranted else none := rfl

@[simp] theorem socket_requestPreempt :
    (requestPreempt id l).socket lease = if l = lease then some .requestPreempt else none := rfl

@[simp] theorem socket_discard (cause : DiscardCause) :
    (discard id l cause).socket lease = if l = lease then some (.discard cause) else none := rfl

end ServeEffect

/-- 実行の間に `lease` のソケットに出た作用の列。 -/
def ServeAggregate.socketEvents (maxSessions : Nat) (es : List ServeEvent) (lease : LeaseId) :
    List SocketEvent :=
  (Reducer.outputs ServeAggregate.apply (.new maxSessions) es).filterMap (·.socket lease)

/-- 登録、park、再開のいずれか。ソケットの持ち主を決める作用である。 -/
def SocketEvent.Owns : SocketEvent → Bool
  | .register | .storeParked | .resumeGranted => true
  | .requestPreempt | .discard _ => false

namespace SocketPhase

/-- 状態 `x` から列 `evs` を受理して `y` に至る。 -/
def Accepts (x : SocketPhase) (evs : List SocketEvent) (y : SocketPhase) : Prop :=
  evs.foldlM SocketPhase.step x = some y

variable {x y : SocketPhase} {evs evs' : List SocketEvent} {ev : SocketEvent}

theorem Accepts.append_iff : x.Accepts (evs ++ evs') y ↔ ∃ z, x.Accepts evs z ∧ z.Accepts evs' y := by
  simp only [Accepts, List.foldlM_append]
  exact Option.bind_eq_some_iff

theorem Accepts.cons_iff : x.Accepts (ev :: evs) y ↔ ∃ z, x.step ev = some z ∧ z.Accepts evs y := by
  simp only [Accepts, List.foldlM_cons]
  exact Option.bind_eq_some_iff

theorem Accepts.nil_iff : x.Accepts [] y ↔ x = y := by
  simp [Accepts]

/-! ## 1 つの作用 -/

theorem step_register (h : x.step .register = some y) : x = .unregistered ∧ y = .active := by
  cases x <;> cases h
  exact ⟨rfl, rfl⟩

theorem step_resumeGranted (h : x.step .resumeGranted = some y) : x = .parked ∧ y = .active := by
  cases x <;> cases h
  exact ⟨rfl, rfl⟩

theorem step_discard {cause : DiscardCause} (h : x.step (.discard cause) = some y) :
    y = .discarded ∧ (cause.ofParked = true → x = .parked) := by
  cases x with
  | active =>
      simp only [step] at h
      split at h
      · cases h
      · cases h
        exact ⟨rfl, fun hc => absurd hc ‹_›⟩
  | parked => cases h; exact ⟨rfl, fun _ => rfl⟩
  | unregistered | discarded => cases h

theorem step_discarded : SocketPhase.discarded.step ev = none := by
  cases ev <;> rfl

theorem step_registered (h : x.step ev = some y) : y ≠ .unregistered := by
  rintro rfl
  cases x <;> cases ev <;> simp [step] at h

theorem step_not_parked (h : x.step ev = some y) (hev : ev ≠ .storeParked) : y ≠ .parked := by
  rintro rfl
  cases ev with
  | storeParked => exact hev rfl
  | register | resumeGranted | requestPreempt | discard => cases x <;> simp [step] at h

/-! ## 受理される列 -/

theorem Accepts.of_discarded (h : SocketPhase.discarded.Accepts evs y) : evs = [] := by
  cases evs with
  | nil => rfl
  | cons ev evs =>
      obtain ⟨z, hz, -⟩ := Accepts.cons_iff.mp h
      rw [step_discarded] at hz
      cases hz

theorem Accepts.register_notMem (h : x.Accepts evs y) (hx : x ≠ .unregistered) :
    SocketEvent.register ∉ evs := by
  induction evs generalizing x with
  | nil => simp
  | cons ev evs ih =>
      obtain ⟨z, hz, h⟩ := Accepts.cons_iff.mp h
      intro hmem
      rcases List.mem_cons.mp hmem with rfl | hmem
      · exact hx (step_register hz).1
      · exact ih h (step_registered hz) hmem

/-- park されていないソケットは、`StoreParked` が無い限り park されない。 -/
theorem Accepts.not_parked (h : x.Accepts evs y) (hx : x ≠ .parked) (hevs : SocketEvent.storeParked ∉ evs) :
    y ≠ .parked := by
  induction evs generalizing x with
  | nil => rwa [← Accepts.nil_iff.mp h]
  | cons ev evs ih =>
      obtain ⟨z, hz, h⟩ := Accepts.cons_iff.mp h
      simp only [List.mem_cons, not_or] at hevs
      exact ih h (step_not_parked hz (Ne.symm hevs.1)) hevs.2

/-- park されているのは、持ち主を決める最後の作用が `StoreParked` だったときである。 -/
theorem Accepts.last_storeParked (h : SocketPhase.unregistered.Accepts evs y) (hy : y = .parked) :
    (evs.filter SocketEvent.Owns).getLast? = some .storeParked := by
  cases evs using List.reverseRecOn with
  | nil =>
      rw [← Accepts.nil_iff.mp h] at hy
      cases hy
  | append_singleton evs ev =>
      obtain ⟨z, -, h⟩ := Accepts.append_iff.mp h
      obtain ⟨w, hw, h⟩ := Accepts.cons_iff.mp h
      obtain rfl := Accepts.nil_iff.mp h
      by_cases hev : ev = .storeParked
      · simp [hev, SocketEvent.Owns]
      · exact absurd hy (step_not_parked hw hev)

end SocketPhase

end IsekaiTerminal.Serve
