import IsekaiTerminal.Lib.ThreadPool

/-!
# SSH ホスト鍵の照合

`isekai-trust/src/host_key_verifier.rs` の `FileBackedHostKeyVerifier::verify` と、`store.rs` の
`with_locked_ssh_host_key_trust_store` を定める。置き場を見る 1 回の処理と、利用者の 1 回の答えが 1 つの操作であり、
操作の間では他の照合がどの順にも進む。置き場は、保存が rename で終わるので、保存に失敗すれば変わらない。
ログと、拒否の理由の文面は載せない。
-/

namespace IsekaiTerminal.Trust

open Lib

/-! ## 置き場 -/

structure SshHostKeyTrust where
  fingerprint : String
  trustedAt : String
  lastSeenAt : String
deriving DecidableEq

/-- `SshHostKeyTrustStore`。`host:port` で引く。 -/
abbrev Hosts := String → Option SshHostKeyTrust

def Hosts.pinned (hosts : Hosts) (hostPort : String) : Option String := (hosts hostPort).map (·.fingerprint)

/-- 置き場の読み方。`absent` は、メタデータを読めないために `Path::exists` が偽を返し、空の置き場として読むことを表す。 -/
inductive Reading
  | ok
  | failed
  | absent
  | panicked
deriving DecidableEq

/-- 外から決まる選択。読み方、保存の成否、時刻、利用者の答えを表す。答えの `none` は確認のタスクの panic である。 -/
structure Choice where
  read : Reading
  saves : Bool
  now : String
  answer : Option Bool
deriving DecidableEq

/-- `load_ssh_host_key_trust_store`。 -/
def Hosts.load (hosts : Hosts) : Reading → Option Hosts
  | .ok => some hosts
  | .absent => some fun _ => none
  | .failed | .panicked => none

/-! ## 1 回の照合 -/

inductive Reason
  | changed
  | unreadable
  | declined
  | panicked
deriving DecidableEq

inductive VerifyOutcome
  | accepted
  | rejected (reason : Reason)
deriving DecidableEq

inductive Resolved
  | decided (outcome : VerifyOutcome)
  | storeFailed
  | needsConfirmation
deriving DecidableEq

/-- RFC 3339 の時刻の、時まで (`get(..13)`)。 -/
def hourOf (time : String) : Option (List Char) := if 13 ≤ time.length then some (time.toList.take 13) else none

/-- `resolve_locked` がロックの中で行う判断。 -/
def decideLocked (store : Hosts) (hostPort fingerprint : String) (insertIfUnknown : Bool) (now : String) :
    Hosts × Resolved :=
  match store hostPort with
  | some known =>
      if known.fingerprint = fingerprint then
        (if hourOf known.lastSeenAt ≠ hourOf now then
          Function.update store hostPort (some { known with lastSeenAt := now })
        else store, .decided .accepted)
      else (store, .decided (.rejected .changed))
  | none =>
      if insertIfUnknown then
        (Function.update store hostPort (some ⟨fingerprint, now, now⟩), .decided .accepted)
      else (store, .needsConfirmation)

/-- 判断が置き場を変えたときだけ保存する。判断は `hostPort` の項目だけを変える。 -/
def resolveLocked (hosts : Hosts) (hostPort fingerprint : String) (insertIfUnknown : Bool) (k : Choice) :
    Hosts × Resolved :=
  if k.read = .panicked then (hosts, .decided (.rejected .panicked))
  else
    match hosts.load k.read with
    | none => (hosts, .storeFailed)
    | some store =>
        let r := decideLocked store hostPort fingerprint insertIfUnknown k.now
        if r.1 hostPort = store hostPort then (hosts, r.2)
        else if k.saves then r
        else (hosts, .storeFailed)

def resolveReadOnly (hosts : Hosts) (hostPort fingerprint : String) (k : Choice) : Resolved :=
  match hosts.load k.read with
  | none => .storeFailed
  | some store =>
      match store hostPort with
      | some known =>
          if known.fingerprint = fingerprint then .decided .accepted else .decided (.rejected .changed)
      | none => .needsConfirmation

/-! ## 照合の実行 -/

/-- 1 回の `verify`。`initial` は始まったときの、`looked` は置き場を最後に見たときの、ホストの指紋であり、
`confirmed` は利用者が承認したことを表す。この 3 つは履歴変数である。 -/
structure Check where
  hostPort : String
  fingerprint : String
  initial : Option String
  looked : Option (Option String)
  confirmed : Bool
deriving DecidableEq

/-- 返した結果。`pinned` は、返したときのホストの指紋である。 -/
structure Verdict where
  check : Check
  outcome : VerifyOutcome
  pinned : Option String
deriving DecidableEq

inductive Op
  | resolveLocked (c : Check)
  | resolveReadOnly (c : Check)
  | confirmNewHost (c : Check)
  | recheck (c : Check)
deriving DecidableEq

structure Call where
  hostPort : String
  fingerprint : String
deriving DecidableEq

/-- `prompts` は利用者に尋ねた照合の、`verdicts` は返した結果の履歴である。 -/
structure Shared where
  hosts : Hosts
  prompts : List Check
  verdicts : List Verdict

namespace Shared

def start (hosts : Hosts) : Shared := ⟨hosts, [], []⟩

def verify (s : Shared) (c : Call) : Option (Shared × List Op) :=
  some (s, [.resolveLocked ⟨c.hostPort, c.fingerprint, s.hosts.pinned c.hostPort, none, false⟩])

/-- 置き場を見た照合。 -/
def look (s : Shared) (c : Check) (read : Reading) : Check :=
  match s.hosts.load read with
  | some _ => { c with looked := some (s.hosts.pinned c.hostPort) }
  | none => c

def give (s : Shared) (c : Check) (outcome : VerifyOutcome) : Shared :=
  { s with verdicts := s.verdicts ++ [⟨c, outcome, s.hosts.pinned c.hostPort⟩] }

def ask (s : Shared) (c : Check) : Shared × List Op := ({ s with prompts := s.prompts ++ [c] }, [.confirmNewHost c])

def exec (s : Shared) (op : Op) (k : Choice) : Shared × List Op × List (List Op) :=
  match op with
  | .resolveLocked c =>
      let c' := s.look c k.read
      let r := Trust.resolveLocked s.hosts c.hostPort c.fingerprint false k
      let s := { s with hosts := r.1 }
      match r.2 with
      | .decided outcome => (s.give c' outcome, [], [])
      | .needsConfirmation => ((s.ask c').1, (s.ask c').2, [])
      | .storeFailed => (s, [.resolveReadOnly c'], [])
  | .resolveReadOnly c =>
      let c' := s.look c k.read
      match Trust.resolveReadOnly s.hosts c.hostPort c.fingerprint k with
      | .decided outcome => (s.give c' outcome, [], [])
      | .needsConfirmation => ((s.ask c').1, (s.ask c').2, [])
      | .storeFailed => (s.give c' (.rejected .unreadable), [], [])
  | .confirmNewHost c =>
      match k.answer with
      | some true => (s, [.recheck { c with confirmed := true }], [])
      | some false => (s.give c (.rejected .declined), [], [])
      | none => (s.give c (.rejected .panicked), [], [])
  | .recheck c =>
      let c' := s.look c k.read
      let r := Trust.resolveLocked s.hosts c.hostPort c.fingerprint true k
      let s := { s with hosts := r.1 }
      match r.2 with
      | .decided outcome => (s.give c' outcome, [], [])
      | .storeFailed => (s.give c' .accepted, [], [])
      -- `unreachable!`
      | .needsConfirmation => (s.give c' (.rejected .panicked), [], [])

end Shared

abbrev State := Pool Shared Op

abbrev Action := PoolAction Call Choice

namespace State

def start (hosts : Hosts) : State := ⟨.start hosts, []⟩

abbrev step (p : State) (a : Action) : Option State := Pool.step Shared.verify Shared.exec p a

abbrev Steps (p : State) (a : Action) (p' : State) : Prop := p.step a = some p'

end State

/-! ## 仕様 -/

/-- ホストの指紋は、あるなら照合する指紋である。 -/
def Admits (pinned : Option String) (c : Check) : Prop := ∀ fingerprint, pinned = some fingerprint →
  fingerprint = c.fingerprint

/-- 受け入れた結果は、最後に見た指紋と等しいか、利用者が承認し、返したときに他の指紋がない。
始まったときか最後に見たときに他の指紋があれば、受け入れない。 -/
structure Verdict.Sound (v : Verdict) : Prop where
  accepted : v.outcome = .accepted → v.check.looked = some (some v.check.fingerprint) ∨
    v.check.confirmed = true ∧ Admits v.pinned v.check
  initial : v.outcome = .accepted → Admits v.check.initial v.check
  looked : ∀ pinned, v.outcome = .accepted → v.check.looked = some pinned → Admits pinned v.check

/-- 利用者に尋ねた照合では、始まったときにも最後に見たときにも、他の指紋がない。 -/
structure Check.Askable (c : Check) : Prop where
  initial : Admits c.initial c
  looked : ∀ pinned, c.looked = some pinned → Admits pinned c

/-- ピン留めした指紋は変わらず、失われない。 -/
def Hosts.Keeps (hosts hosts' : Hosts) : Prop :=
  ∀ hostPort fingerprint, hosts.pinned hostPort = some fingerprint → hosts'.pinned hostPort = some fingerprint

/-- 承認した指紋はピン留めされているか、置き場は変わらない。他のホストの項目は変わらない。 -/
def Check.Persists (c : Check) (hosts hosts' : Hosts) : Prop :=
  (hosts'.pinned c.hostPort = some c.fingerprint ∨ hosts' = hosts) ∧
    ∀ hostPort, hostPort ≠ c.hostPort → hosts' hostPort = hosts hostPort

/-- 置き場を見ずに他の指紋を見逃すことのない操作。空と読み違えるときと、承認の後で置き場を見られないときは、
ホストに他の指紋がなく、空と読み違えた置き場を保存するときは、他のホストの項目もない。 -/
def Op.Sighted (s : Shared) (k : Choice) : Op → Prop
  | .resolveLocked c | .resolveReadOnly c => k.read = .absent → Admits (s.hosts.pinned c.hostPort) c
  | .confirmNewHost _ => True
  | .recheck c =>
      (k.read = .absent ∨ k.read = .failed → Admits (s.hosts.pinned c.hostPort) c) ∧
        (k.read = .absent → k.saves = true → ∀ hostPort, hostPort ≠ c.hostPort → s.hosts hostPort = none)

def Sighted (p : State) : Action → Prop
  | .call _ => True
  | .run i k => ∀ op, p.next? i = some op → op.Sighted p.shared k

end IsekaiTerminal.Trust
