import IsekaiTerminal.Lib.Saturating
import IsekaiTerminal.Lib.Transition

/-!
# 共有する SSH 接続のプール

`rust-core/src/pool.rs` の汎用の操作。1 つの操作は `PoolMap` の錠の中で行い、不可分である。`Arc` と `watch` の
チャネルは、作った順の番号で区別する。
-/

namespace IsekaiTerminal.SshPool

open Lib

/-!
## 接続プールの参照カウントと猶予タイマーの台帳

`rust-core/src/pool_idle_fsm.rs` の `IdleLedger`。1 つのエントリの参照カウントは 32 ビットで飽和し、世代は 64 ビットで
一周する。
-/

structure IdleLedger where
  refcount : Nat
  generation : Nat
deriving DecidableEq, Repr

/-- 台帳に起きた事実。 -/
inductive IdleEvent
  | attached
  | released (idleGrace : Nat)
  | idleExpired (generation : Nat)
deriving DecidableEq, Repr

inductive IdleEffect
  | armIdleTimer (generation after : Nat)
  | remove
deriving DecidableEq, Repr

namespace IdleLedger

/-- エントリを作ったアタッチの台帳。 -/
def firstHolder : IdleLedger := ⟨1, 0⟩

def wrappingNext (generation : Nat) : Nat := (generation + 1) % 2 ^ 64

def apply (l : IdleLedger) : IdleEvent → IdleLedger × List IdleEffect
  | .attached => (⟨satAdd 32 l.refcount 1, wrappingNext l.generation⟩, [])
  | .released idleGrace =>
      let refcount := l.refcount - 1
      if refcount ≠ 0 then (⟨refcount, l.generation⟩, [])
      else
        let generation := wrappingNext l.generation
        (⟨refcount, generation⟩, [.armIdleTimer generation idleGrace])
  | .idleExpired generation =>
      (l, if l.refcount = 0 ∧ l.generation = generation then [.remove] else [])

theorem apply_released_refcount (l : IdleLedger) (idleGrace : Nat) :
    (l.apply (.released idleGrace)).1.refcount = l.refcount - 1 := by
  simp only [apply]
  split <;> rfl

/-- 満了は台帳を変えない。 -/
@[simp] theorem apply_idleExpired_fst (l : IdleLedger) (generation : Nat) :
    (l.apply (.idleExpired generation)).1 = l := rfl

end IdleLedger

variable {κ T : Type} [DecidableEq κ]

/-! ## 共有の値とチャネル -/

/-- 共有の値。`addr` は `Arc::ptr_eq` が比べる番地である。 -/
structure Arc (T : Type) where
  addr : Nat
  value : T
deriving DecidableEq

abbrev Established (T : Type) := Except String (Arc T)

/-- `watch` のチャネル。`closed` は送信側を手放したことを表す。 -/
structure Watch (T : Type) where
  value : Option (Established T)
  closed : Bool

def Watch.new : Watch T := ⟨none, false⟩

def Watch.send (r : Established T) (w : Watch T) : Watch T := { w with value := some r }

def Watch.dropSender (w : Watch T) : Watch T := { w with closed := true }

/-- 結果が公開されるか、送信側が無くなるまで待つ。 -/
def waitForEstablish (rx : Watch T) : Option (Established T) :=
  match rx.value with
  | some r => some r
  | none => if rx.closed then some (.error "pool: establishing task ended without a result") else none

/-! ## エントリ -/

inductive EntryState (T : Type)
  | connecting (tx : Nat)
  | ready (v : Arc T)
  | dead

structure PoolEntry (T : Type) where
  state : EntryState T
  idle : IdleLedger

inductive PoolEffect (κ : Type)
  | armIdleTimer (key : κ) (generation after : Nat)
deriving DecidableEq

/-- プールと、作ったチャネルと共有の値。 -/
structure Pool (κ T : Type) where
  map : κ → Option (PoolEntry T)
  watch : Nat → Watch T
  channels : Nat
  arcs : Nat

def Pool.new : Pool κ T := ⟨fun _ => none, fun _ => .new, 0, 0⟩

namespace Pool

def insert (p : Pool κ T) (key : κ) (e : PoolEntry T) : Pool κ T :=
  { p with map := Function.update p.map key (some e) }

def send (p : Pool κ T) (tx : Nat) (r : Established T) : Pool κ T :=
  { p with watch := Function.update p.watch tx ((p.watch tx).send r) }

/-- エントリの状態を手放す。確立中なら送信側も無くなる。 -/
def dropState (p : Pool κ T) : EntryState T → Pool κ T
  | .connecting tx => { p with watch := Function.update p.watch tx (p.watch tx).dropSender }
  | .ready _ | .dead => p

/-- `watch::channel(None)` を作って、鍵のエントリを確立中にする。 -/
def connect (p : Pool κ T) (key : κ) (idle : IdleLedger) : Pool κ T :=
  { p.insert key ⟨.connecting p.channels, idle⟩ with
    watch := Function.update p.watch p.channels .new
    channels := p.channels + 1 }

/-- `Arc::new` は新しい番地を割り当てる。 -/
def newArc (p : Pool κ T) : Pool κ T := ⟨p.map, p.watch, p.channels, p.arcs + 1⟩

def setState (p : Pool κ T) (key : κ) (e : PoolEntry T) (state : EntryState T) : Pool κ T :=
  (p.insert key { e with state }).dropState e.state

def remove (p : Pool κ T) (key : κ) (e : PoolEntry T) : Pool κ T :=
  { p with map := Function.update p.map key none }.dropState e.state

end Pool

/-! ## 操作 -/

inductive AttachOutcome (T : Type)
  | ready (v : Arc T)
  | waiter (rx : Nat)
  | establisher

def tryAttachWith (pool : Pool κ T) (key : κ) (isAlive : Arc T → Bool) : Pool κ T × AttachOutcome T :=
  match pool.map key with
  | none => (pool.connect key .firstHolder, .establisher)
  | some entry =>
      let idle := (entry.idle.apply .attached).1
      match entry.state with
      | .connecting tx => (pool.insert key { entry with idle }, .waiter tx)
      | .ready v =>
          if isAlive v then (pool.insert key { entry with idle }, .ready v)
          else (pool.connect key idle, .establisher)
      | .dead => (pool.connect key idle, .establisher)

def publish (pool : Pool κ T) (key : κ) (r : Established T) (state : EntryState T) : Pool κ T :=
  match pool.map key with
  | none => pool
  | some entry =>
      match entry.state with
      | .connecting tx => (pool.send tx r).setState key entry state
      | .ready _ | .dead => pool.setState key entry state

def publishSuccess (pool : Pool κ T) (key : κ) (value : T) : Pool κ T × Arc T :=
  let arc : Arc T := ⟨pool.arcs, value⟩
  (publish pool.newArc key (.ok arc) (.ready arc), arc)

def publishFailure (pool : Pool κ T) (key : κ) (message : String) : Pool κ T :=
  publish pool key (.error message) .dead

def markDeadIfSame (pool : Pool κ T) (key : κ) (value : Arc T) : Pool κ T :=
  match pool.map key with
  | some ⟨.ready current, idle⟩ =>
      if current.addr = value.addr then pool.insert key ⟨.dead, idle⟩ else pool
  | _ => pool

/-- 台帳の副作用の 1 つを錠の中で実行する。 -/
def applyIdleEffect (key : κ) (entry : PoolEntry T) (r : Pool κ T × List (PoolEffect κ)) :
    IdleEffect → Pool κ T × List (PoolEffect κ)
  | .armIdleTimer generation after => (r.1, r.2 ++ [.armIdleTimer key generation after])
  | .remove => (r.1.remove key entry, r.2)

def applyIdleInLock (pool : Pool κ T) (key : κ) (event : IdleEvent) : Pool κ T × List (PoolEffect κ) :=
  match pool.map key with
  | none => (pool, [])
  | some entry =>
      let r := entry.idle.apply event
      let entry := { entry with idle := r.1 }
      r.2.foldl (applyIdleEffect key entry) (pool.insert key entry, [])

def releaseStep (pool : Pool κ T) (key : κ) (idleGrace : Nat) : Pool κ T × List (PoolEffect κ) :=
  applyIdleInLock pool key (.released idleGrace)

def idleExpiredStep (pool : Pool κ T) (key : κ) (generation : Nat) : Pool κ T × List (PoolEffect κ) :=
  applyIdleInLock pool key (.idleExpired generation)

/-! ## タブの実行 -/

/-- 確立役と待ち手の番号は、結果を送るチャネルである。 -/
inductive Role
  | establisher (tx : Nat)
  | waiter (tx : Nat)
  | ready
deriving DecidableEq

/-- 1 回のアタッチ。`outcome` は公開した結果、受け取った結果、または再利用した値である。 -/
structure Attach (κ T : Type) where
  key : κ
  role : Role
  outcome : Option (Established T)
  released : Bool

/-- プールを使うタブの全体。`timers` は眠っている猶予タイマー、`marked` は死んだと知らせた値である。 -/
structure World (κ T : Type) where
  pool : Pool κ T
  isAlive : Nat → Bool
  attaches : List (Attach κ T)
  timers : List (PoolEffect κ)
  marked : List (κ × Nat)

def World.start : World κ T := ⟨.new, fun _ => true, [], [], []⟩

inductive Action (κ T : Type)
  | tryAttach (key : κ)
  | publishSuccess (i : Nat) (value : T)
  | publishFailure (i : Nat) (message : String)
  | waitForEstablish (i : Nat)
  | release (i idleGrace : Nat)
  | idleExpired (j : Nat)
  | markDeadIfSame (i : Nat)
  | dies (addr : Nat)

namespace Attach

variable (a : Attach κ T)

/-- 確立役がまだ結果を公開していない。 -/
def establishing : Bool :=
  match a.role with
  | .establisher _ => a.outcome.isNone
  | .waiter _ | .ready => false

/-- 待ち手がまだ結果を受け取っていない。 -/
def waiting? : Option Nat :=
  match a.role, a.outcome with
  | .waiter rx, none => some rx
  | _, _ => none

def value? : Option (Arc T) :=
  match a.outcome with
  | some (.ok v) => some v
  | some (.error _) | none => none

end Attach

namespace World

def outstanding (w : World κ T) (key : κ) : Nat :=
  w.attaches.countP fun a => a.key = key && !a.released

def establishing (w : World κ T) (key : κ) : Nat :=
  w.attaches.countP fun a => a.key = key && a.establishing

def refcount (w : World κ T) (key : κ) : Nat := ((w.pool.map key).map fun e => e.idle.refcount).getD 0

def state? (w : World κ T) (key : κ) : Option (EntryState T) := (w.pool.map key).map PoolEntry.state

/-- 公開の前の確立役 `i`。 -/
def establishing? (w : World κ T) (i : Nat) : Option (Attach κ T) :=
  (w.attaches[i]?).filter Attach.establishing

def setOutcome (w : World κ T) (pool : Pool κ T) (i : Nat) (a : Attach κ T) (r : Established T) : World κ T :=
  { w with pool, attaches := w.attaches.set i { a with outcome := some r } }

def attach (w : World κ T) (key : κ) (pool : Pool κ T) : AttachOutcome T → World κ T
  | .establisher =>
      { w with pool, attaches := w.attaches ++ [⟨key, .establisher w.pool.channels, none, false⟩] }
  | .waiter rx => { w with pool, attaches := w.attaches ++ [⟨key, .waiter rx, none, false⟩] }
  | .ready v => { w with pool, attaches := w.attaches ++ [⟨key, .ready, some (.ok v), false⟩] }

def step (w : World κ T) : Action κ T → Option (World κ T)
  | .tryAttach key =>
      let r := tryAttachWith w.pool key fun v => w.isAlive v.addr
      some (w.attach key r.1 r.2)
  | .publishSuccess i value => do
      let a ← w.establishing? i
      let r := SshPool.publishSuccess w.pool a.key value
      some (w.setOutcome r.1 i a (.ok r.2))
  | .publishFailure i message => do
      let a ← w.establishing? i
      some (w.setOutcome (SshPool.publishFailure w.pool a.key message) i a (.error message))
  | .waitForEstablish i => do
      let a ← w.attaches[i]?
      let rx ← a.waiting?
      let r ← SshPool.waitForEstablish (w.pool.watch rx)
      some (w.setOutcome w.pool i a r)
  | .release i idleGrace => do
      -- 確立役は公開の後、待ち手は結果を受け取った後に、1 回だけ `release` する。
      let a ← (w.attaches[i]?).filter fun a => a.outcome.isSome && !a.released
      let r := releaseStep w.pool a.key idleGrace
      some { w with
        pool := r.1
        attaches := w.attaches.set i { a with released := true }
        timers := w.timers ++ r.2 }
  | .idleExpired j => do
      let .armIdleTimer key generation _ ← w.timers[j]?
      let r := idleExpiredStep w.pool key generation
      some { w with pool := r.1, timers := w.timers.eraseIdx j ++ r.2 }
  | .markDeadIfSame i => do
      let a ← w.attaches[i]?
      let v ← a.value?
      some { w with pool := SshPool.markDeadIfSame w.pool a.key v, marked := (a.key, v.addr) :: w.marked }
  | .dies addr => some { w with isAlive := Function.update w.isAlive addr false }

abbrev Steps (w : World κ T) (a : Action κ T) (w' : World κ T) : Prop := w.step a = some w'

/-- 鍵ごとの、返していないアタッチの数が、参照カウントの幅に収まる。 -/
def Counted (w : World κ T) (a : Action κ T) : Prop :=
  match a with
  | .tryAttach key => w.outstanding key < maxOf 32
  | _ => True

instance (w : World κ T) (a : Action κ T) : Decidable (w.Counted a) := by
  unfold Counted
  split <;> infer_instance

/-- 参照カウントの幅に収まる実行。 -/
def exec (w : World κ T) (as : List (Action κ T)) : Option (World κ T) :=
  as.foldlM (fun w a => if w.Counted a then w.step a else none) w

end World

end IsekaiTerminal.SshPool
