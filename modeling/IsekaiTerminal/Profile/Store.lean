import IsekaiTerminal.Lib.PrefixCode
import IsekaiTerminal.Lib.Transition

/-!
# 永続プロファイルの置き場

`isekai-pipe-core/src/profile.rs` の `write_persistent_profile`、`update_persistent_profile`、`load_persistent_profile` と
`ProfileLock` を、プロセスごとのファイルの操作の列として表す。1 つのプロセスは 1 度に 1 つの呼び出しを実行し、
ファイルの操作 1 つを不可分とする。`PersistentProfile` の `profile` 以外のフィールドは、まとめて型 `β` とする。
置き場のディレクトリの外のパスの解決は `outside` とする。名前は 1 文字も違わず等しいときだけ同じファイルを指す
（大文字と小文字を区別するファイルシステム）。ディレクトリの作成と権限の設定の失敗は、呼び出しの中断に含める。
-/

namespace IsekaiTerminal.Profile

open Lib

abbrev Text := List Char

structure PersistentProfile (β : Type) where
  profile : Text
  body : β

/-- `serde_json::to_vec_pretty` と `serde_json::from_slice`。 -/
structure Serde (β : Type) where
  toVecPretty : PersistentProfile β → ByteArray
  fromSlice : ByteArray → Option (PersistentProfile β)
  fromSlice_toVecPretty : ∀ p, fromSlice (toVecPretty p) = some p

/-! ## ファイルの名前 -/

/-- `format!("{:02X}", n)`。 -/
def format02X (n : Nat) : Text := ((Nat.toDigits 16 n).map Char.toUpper).leftpad 2 '0'

def reserved : List Char := ['<', '>', ':', '"', '/', '\\', '|', '?', '*']

/-- `sanitize_filename_component` が 1 文字に施す置き換え。 -/
def sanitizeChar (c : Char) : Text :=
  if c ∈ reserved then '%' :: format02X c.toNat
  else if c.toNat < 0x20 then '%' :: format02X c.toNat
  else [c]

def sanitizeFilenameComponent (key : Text) : Text := key.flatMap sanitizeChar

def dataName (key : Text) : Text := sanitizeFilenameComponent key ++ ['.', 'j', 's', 'o', 'n']

def tmpName (key : Text) (pid : Nat) : Text :=
  sanitizeFilenameComponent key ++ '.' :: Nat.toDigits 10 pid ++ ['.', 't', 'm', 'p']

/-- `ProfileLock::acquire` が開くファイル。鍵をそのまま名前に使うので、`/` を含む名前は置き場の外のパスになる。
開けないとき `none`。 -/
def lockFile (outside : Text → Option Text) (key : Text) : Option Text :=
  let name := key ++ ['.', 'l', 'o', 'c', 'k']
  if '\x00' ∈ name then none
  else if '/' ∈ name then outside name
  else some name

/-! ## 状態 -/

/-- 置き換えた 1 回の書き込み。`origin` は、それを行った更新の鍵と、更新が読んだ値。 -/
structure Commit (β : Type) where
  origin : Option (Text × Option (PersistentProfile β))
  profile : PersistentProfile β

/-- プロセスが次に実行するところ。 -/
inductive Phase (β : Type)
  | idle
  | acquiring (key : Text) (update : Option (PersistentProfile β) → PersistentProfile β)
  | loading (key : Text) (update : Option (PersistentProfile β) → PersistentProfile β)
  | writing (origin : Option (Text × Option (PersistentProfile β))) (profile : PersistentProfile β)
  | staged (origin : Option (Text × Option (PersistentProfile β))) (profile : PersistentProfile β)

/-- `commits` と `refused` は履歴変数。`refused` は、ロックのファイルを開けずに失敗した更新の鍵。 -/
structure Store (β : Type) where
  files : Text → Option ByteArray
  locks : Text → Option Nat
  procs : Nat → Phase β
  commits : List (Commit β)
  refused : List Text

def Store.new (β : Type) : Store β where
  files _ := none
  locks _ := none
  procs _ := .idle
  commits := []
  refused := []

inductive Action (β : Type)
  | write (pid : Nat) (profile : PersistentProfile β)
  | update (pid : Nat) (key : Text) (update : Option (PersistentProfile β) → PersistentProfile β)
  | step (pid : Nat)
  /-- 入出力の失敗か、プロセスの終了。書きかけの一時ファイルが残りうる。 -/
  | abort (pid : Nat) (partialBytes : Option ByteArray)

/-! ## 操作 -/

variable {β : Type} (serde : Serde β) (outside : Text → Option Text)

/-- 読めないとき `none`、ファイルがないとき `some none`。 -/
def loadPersistentProfile (files : Text → Option ByteArray) (key : Text) : Option (Option (PersistentProfile β)) :=
  match files (dataName key) with
  | some bytes => (serde.fromSlice bytes).map some
  | none => some none

namespace Store

def setPhase (s : Store β) (pid : Nat) (phase : Phase β) : Store β :=
  { s with procs := Function.update s.procs pid phase }

/-- `ProfileLock` の `Drop`。 -/
def release (s : Store β) (key : Text) : Store β :=
  match lockFile outside key with
  | some file => { s with locks := Function.update s.locks file none }
  | none => s

/-- 呼び出しの終わり。更新はロックを手放す。 -/
def finish (s : Store β) (pid : Nat) (key? : Option Text) : Store β :=
  let s := s.setPhase pid .idle
  match key? with
  | some key => s.release outside key
  | none => s

/-- ロックを持つ更新の鍵。 -/
def heldKey : Phase β → Option Text
  | .loading key _ => some key
  | .writing origin _ | .staged origin _ => origin.map Prod.fst
  | .idle | .acquiring _ _ => none

def stepProc (s : Store β) (pid : Nat) : Option (Store β) :=
  match s.procs pid with
  | .idle => none
  | .acquiring key update =>
      match lockFile outside key with
      | none => some { s.setPhase pid .idle with refused := s.refused ++ [key] }
      | some file =>
          if s.locks file = none then
            some { s.setPhase pid (.loading key update) with locks := Function.update s.locks file (some pid) }
          else none
  | .loading key update =>
      match loadPersistentProfile serde s.files key with
      | none => some (s.finish outside pid (some key))
      | some current => some (s.setPhase pid (.writing (some (key, current)) (update current)))
  | .writing origin profile =>
      some { s.setPhase pid (.staged origin profile) with
        files := Function.update s.files (tmpName profile.profile pid) (some (serde.toVecPretty profile)) }
  | .staged origin profile =>
      let tmp := tmpName profile.profile pid
      match s.files tmp with
      | none => some (s.finish outside pid (origin.map Prod.fst))
      | some bytes =>
          let files := Function.update (Function.update s.files tmp none) (dataName profile.profile) (some bytes)
          let s : Store β := { s with files := files, commits := s.commits ++ [⟨origin, profile⟩] }
          some (s.finish outside pid (origin.map Prod.fst))

/-- `fs::write` が途中まで書いた一時ファイル。 -/
def leavePartial (s : Store β) (pid : Nat) (partialBytes : Option ByteArray) : Store β :=
  match s.procs pid, partialBytes with
  | .writing _ profile, some bytes =>
      { s with files := Function.update s.files (tmpName profile.profile pid) (some bytes) }
  | _, _ => s

def abortProc (s : Store β) (pid : Nat) (partialBytes : Option ByteArray) : Store β :=
  (s.leavePartial pid partialBytes).finish outside pid (heldKey (s.procs pid))

def step (s : Store β) : Action β → Option (Store β)
  | .write pid profile =>
      match s.procs pid with
      | .idle => some (s.setPhase pid (.writing none profile))
      | _ => none
  | .update pid key update =>
      match s.procs pid with
      | .idle => some (s.setPhase pid (.acquiring key update))
      | _ => none
  | .step pid => s.stepProc serde outside pid
  | .abort pid partialBytes => some (s.abortProc outside pid partialBytes)

abbrev Steps (s : Store β) (a : Action β) (s' : Store β) : Prop := s.step serde outside a = some s'

end Store

/-! ## 仕様 -/

/-- 鍵 `key` に最後に書いたプロファイル。 -/
def lastUnder (key : Text) (commits : List (Commit β)) : Option (PersistentProfile β) :=
  (commits.filter fun c => c.profile.profile = key).getLast?.map Commit.profile

/-- `current` は、`key` の更新の最後の書き込み以後のどこかの時点で、`key` に最後に書いた値である。 -/
def SeesLatest (key : Text) (current : Option (PersistentProfile β)) (commits : List (Commit β)) : Prop :=
  ∃ before after, commits = before ++ after ∧ current = lastUnder key before ∧
    ∀ c ∈ after, c.origin.map Prod.fst ≠ some key

/-- 鍵の集合 `K` の上で、置き場は鍵からプロファイルへの写像である。 -/
structure Coherent (K : Set Text) (s : Store β) : Prop where
  loads : ∀ key ∈ K, loadPersistentProfile serde s.files key = some (lastUnder key s.commits)
  sees : ∀ before c after key current, s.commits = before ++ c :: after → c.origin = some (key, current) →
    SeesLatest key current before
  updatable : s.refused = []

/-- 1 つの鍵への書き込みは、`K` の他の鍵が読む値を変えない。 -/
def Isolated (K : Set Text) (s s' : Store β) : Prop :=
  ∀ c, s'.commits = s.commits ++ [c] → ∀ key ∈ K, c.profile.profile ≠ key →
    loadPersistentProfile serde s'.files key = loadPersistentProfile serde s.files key

/-- 操作の使う鍵は `K` に属する。 -/
def Action.Within (K : Set Text) : Action β → Prop
  | .write _ profile => profile.profile ∈ K
  | .update _ key next => key ∈ K ∧ ∀ current, (next current).profile ∈ K
  | .step _ | .abort _ _ => True

end IsekaiTerminal.Profile
