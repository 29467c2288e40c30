import IsekaiTerminal.Lib.ThreadPool

/-!
# ctl-socket のパスの伝播

`rust-core/src/tmux_locator.rs` の `TmuxLocatorRegistry` と `push_ctl_socket_to_tmux`、`orchestrator.rs` の
`ensure_tmux_tab_window` を、1 つのタブについて定める。レジストリのロックの臨界区間とリモートの tmux のコマンドが
1 つの操作であり、操作の間では他の呼び出しがどの順にも進む。パスは、それを発行した接続の番号で表し、番号が大きいほど
新しい。リモートのコマンドは、成功するか、効果なく失敗するか、いつまでも遅れる。接続の終わりの後始末と通知フックは載せない。
-/

namespace IsekaiTerminal.Tmux

open Lib

/-! ## 状態 -/

structure TmuxTabEntry where
  locator : String
  ctlSocketPath : Option Nat
deriving DecidableEq

/-- `options` はウィンドウごとの `@isekai_ctl_sock`、`connections` は確立した接続の数である。
`newest` は履歴変数で、tmux への書き込みに成功した最も新しいパスである。 -/
structure Shared where
  entry : Option TmuxTabEntry
  pendingCtlSocketPath : Option Nat
  options : String → Option Nat
  connections : Nat
  newest : Option Nat

inductive Op
  | locatorFor (path : Nat)
  | resolve (locator : String) (path : Nat)
  | setOption (locator : String) (path : Nat)
  | setCtlSocketPath (path : Nat)
  | notePendingCtlSocketPath (path : Nat)
  | ensureTabWindow
  | register (locator : String)
deriving DecidableEq

inductive Call
  | connect
  | ensureTmuxTabWindow
deriving DecidableEq

/-- 外から決まる選択。リモートのコマンドの成否と、`ensure_tab_window` が解決したロケータである。 -/
structure Choice where
  ok : Bool
  locator : String
deriving DecidableEq

/-! ## 操作 -/

namespace Shared

def start : Shared := ⟨none, none, fun _ => none, 0, none⟩

def ctlSocketPathFor (s : Shared) : Option Nat := s.entry.bind (·.ctlSocketPath)

/-- `push_ctl_socket_to_tmux` は、接続ごとに新しいパスで始まる。 -/
def call (s : Shared) : Call → Option (Shared × List Op)
  | .connect => some ({ s with connections := s.connections + 1 }, [.locatorFor s.connections])
  | .ensureTmuxTabWindow => some (s, [.ensureTabWindow])

/-- 未登録なら何もしない。 -/
def setCtlSocketPath (s : Shared) (path : Nat) : Shared :=
  { s with entry := s.entry.map fun e => { e with ctlSocketPath := some path } }

def written (s : Shared) (locator : String) (path : Nat) : Shared :=
  { s with
    options := Function.update s.options locator (some path)
    newest := some (match s.newest with
      | some m => max m path
      | none => path) }

/-- 退避したパスか、登録済みの項目のパス。 -/
def recovered (s : Shared) : Option Nat := s.pendingCtlSocketPath.or s.ctlSocketPathFor

/-- 取り出しと登録の臨界区間。取り出したパスがあれば、改めて書き込む。 -/
def register (s : Shared) (locator : String) : Shared × List Op :=
  ({ s with entry := some ⟨locator, s.recovered⟩, pendingCtlSocketPath := none },
    match s.recovered with
    | some path => [.locatorFor path]
    | none => [])

def exec (s : Shared) (op : Op) (k : Choice) : Shared × List Op × List (List Op) :=
  match op with
  | .locatorFor path =>
      match s.entry with
      | some e => (s, [.resolve e.locator path], [])
      | none => (s, [.notePendingCtlSocketPath path], [])
  | .resolve locator path => (s, if k.ok then [.setOption locator path] else [.setCtlSocketPath path], [])
  | .setOption locator path => (if k.ok then s.written locator path else s, [.setCtlSocketPath path], [])
  | .setCtlSocketPath path => (s.setCtlSocketPath path, [], [])
  | .notePendingCtlSocketPath path => ({ s with pendingCtlSocketPath := some path }, [], [])
  | .ensureTabWindow => (s, if k.ok then [.register k.locator] else [], [])
  | .register locator => ((s.register locator).1, (s.register locator).2, [])

end Shared

abbrev State := Pool Shared Op

abbrev Action := PoolAction Call Choice

namespace State

def start : State := ⟨.start, []⟩

abbrev step (p : State) (a : Action) : Option State := Pool.step Shared.call Shared.exec p a

abbrev Steps (p : State) (a : Action) (p' : State) : Prop := p.step a = some p'

end State

/-! ## 仕様 -/

/-- 進行中の呼び出しがなく、ロケータが登録されているなら、書き込みに成功した最も新しいパスをレジストリも tmux も持ち、
退避したままのパスはない。 -/
def State.Delivered (p : State) : Prop :=
  p.pending = [] → ∀ e ∈ p.shared.entry, p.shared.pendingCtlSocketPath = none ∧
    ∀ m ∈ p.shared.newest, e.ctlSocketPath = some m ∧ p.shared.options e.locator = some m

/-- 書き換えられた値は、前の値より新しいか等しい。 -/
def Shared.Advances (s s' : Shared) : Prop :=
  (∀ locator, ∀ v ∈ s.options locator, ∃ v' ∈ s'.options locator, v ≤ v') ∧
    ∀ v ∈ s.ctlSocketPathFor, ∃ v' ∈ s'.ctlSocketPathFor, v ≤ v'

/-! ## 追い越しのない操作 -/

/-- 書き込みの呼び出しが運ぶパス。 -/
def Op.path? : Op → Option Nat
  | .locatorFor path | .resolve _ path | .setOption _ path | .setCtlSocketPath path | .notePendingCtlSocketPath path =>
      some path
  | .ensureTabWindow | .register _ => none

/-- これから tmux に書き込むパス。 -/
def Op.unwritten? : Op → Option Nat
  | .locatorFor path | .resolve _ path | .setOption _ path => some path
  | .setCtlSocketPath _ | .notePendingCtlSocketPath _ | .ensureTabWindow | .register _ => none

/-- ロケータを引いた後の、書き込みの呼び出しの途中である。 -/
def Op.located : Op → Bool
  | .resolve _ _ | .setOption _ _ | .setCtlSocketPath _ | .notePendingCtlSocketPath _ => true
  | .locatorFor _ | .ensureTabWindow | .register _ => false

/-- `path` より古いパスの呼び出しが進んでいない。 -/
def Oldest (ops : List Op) (path : Nat) : Prop := ∀ op ∈ ops, ∀ q ∈ op.path?, path ≤ q

/-- `path` 以上のパスの呼び出しが、これから tmux に書き込む。 -/
def Coming (ops : List Op) (path : Nat) : Prop := ∃ op ∈ ops, ∃ q ∈ op.unwritten?, path ≤ q

instance (ops : List Op) (path : Nat) : Decidable (Oldest ops path) :=
  inferInstanceAs (Decidable (∀ op ∈ ops, ∀ q ∈ op.path?, path ≤ q))

instance (ops : List Op) (path : Nat) : Decidable (Coming ops path) :=
  inferInstanceAs (Decidable (∃ op ∈ ops, ∃ q ∈ op.unwritten?, path ≤ q))

/-- 進行中の他の操作が `rest` であるときの、追い越しのない操作。tmux への書き込みも、レジストリへの記録も、退避も、より古いパスの
呼び出しが終わってから行う。リモートのコマンドが失敗するのは、より新しいパスの呼び出しがこれから書き込むときである。登録は、
どの呼び出しも、ロケータを引いてから終わるまでの間にないときに行う。 -/
def Op.Ordered (rest : List Op) (k : Choice) : Op → Prop
  | .locatorFor _ | .ensureTabWindow => True
  | .resolve _ path => k.ok = false → Coming rest (path + 1)
  | .setOption _ path => (k.ok = true → Oldest rest path) ∧ (k.ok = false → Coming rest (path + 1))
  | .setCtlSocketPath path | .notePendingCtlSocketPath path => Oldest rest path
  | .register _ => ∀ op ∈ rest, op.located = false

instance (rest : List Op) (k : Choice) : DecidablePred (Op.Ordered rest k)
  | .locatorFor _ | .ensureTabWindow => inferInstanceAs (Decidable True)
  | .resolve _ _ => inferInstanceAs (Decidable (_ → _))
  | .setOption _ _ => inferInstanceAs (Decidable (_ ∧ _))
  | .setCtlSocketPath _ | .notePendingCtlSocketPath _ => inferInstanceAs (Decidable (Oldest _ _))
  | .register _ => inferInstanceAs (Decidable (∀ op ∈ _, _))

def Ordered (p : State) : Action → Prop
  | .call _ => True
  | .run i k => ∀ op ∈ p.next? i, op.Ordered (p.pending.erase op) k

instance (p : State) : DecidablePred (Ordered p)
  | .call _ => inferInstanceAs (Decidable True)
  | .run _ _ => inferInstanceAs (Decidable (∀ op ∈ _, _))

end IsekaiTerminal.Tmux
