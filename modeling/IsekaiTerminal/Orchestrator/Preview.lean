import IsekaiTerminal.Lib.ThreadPool

/-!
# ファイルプレビューの要求

`rust-core/src/orchestrator.rs` の `file_preview_request` と、その結果、失敗、session の差し替えを定める。状態のロックと
session のロックの臨界区間、コールバックの呼び出しが 1 つの操作であり、操作の間では他のスレッドがどの順にも進む。
再接続の判断は載せず、手動接続、再接続の試行、試行の中断はいつでも始まりうるとする。session はいつでも終わりうるので、
`disconnect` はここに載せた状態を変えない。
-/

namespace IsekaiTerminal.Orchestrator.Preview

open Lib

/-! ## 状態 -/

inductive FilePreviewRequestKind
  | ls (path : String)
  | cat (path : String) (offset : UInt64) (length : Option UInt64)
  | info (path : String)
deriving DecidableEq

/-- `on_file_preview_result` に渡す結果。`parsed` は `parse_result` の引数のまま載せる。 -/
inductive FilePreviewOutcome
  | parsed (kind : FilePreviewRequestKind) (exitStatus : Option UInt32) (stdout : List UInt8)
  | error (message : String)
deriving DecidableEq

/-- `accepting` はコマンドの受信端が残っているか、`execs` は渡されてまだ結果を返していない要求である。 -/
structure Session where
  generation : Nat
  accepting : Bool
  ended : Bool
  execs : List String
deriving DecidableEq

/-- `requests` は呼ばれた要求、`results` は呼んだコールバックの履歴である。 -/
structure Shared where
  sessionGeneration : Nat
  pendingFilePreviews : List (String × FilePreviewRequestKind)
  session : Option Nat
  sessions : List Session
  requests : List (String × FilePreviewRequestKind)
  results : List (String × FilePreviewOutcome)
deriving DecidableEq

def Shared.start : Shared := ⟨0, [], none, [], [], []⟩

inductive Op
  | filePreviewExec (requestId : String)
  | removeUnqueued (requestId : String)
  | removeFinished (requestId : String) (stdout : List UInt8) (exitStatus : Option UInt32)
  | onFilePreviewResult (requestId : String) (outcome : FilePreviewOutcome)
  | failPendingFilePreviews
  | handleUnexpectedDisconnect (generation : Nat)
  | newAdapter
  | connect (generation : Nat)
  | store (index : Nat)
deriving DecidableEq

inductive Call
  | filePreviewRequest (requestId : String) (kind : FilePreviewRequestKind)
  | onFilePreviewExecResult (index : Nat) (requestId : String) (stdout : List UInt8) (exitStatus : Option UInt32)
  | onDisconnected (index : Nat)
  | commandsClosed (index : Nat)
  | connect
  | abortInFlightAttempt
  | networkLost (generation : Nat)
deriving DecidableEq

/-! ## 臨界区間 -/

namespace Shared

def pendingIds (s : Shared) : List String := s.pendingFilePreviews.map (·.1)

def pendingKind (s : Shared) (requestId : String) : Option FilePreviewRequestKind :=
  (s.pendingFilePreviews.find? (·.1 = requestId)).map (·.2)

def removePending (s : Shared) (requestId : String) : Shared :=
  { s with pendingFilePreviews := s.pendingFilePreviews.filter (·.1 ≠ requestId) }

def setSession (s : Shared) (index : Nat) (session : Session) : Shared :=
  { s with sessions := s.sessions.set index session }

/-- 表に登録する臨界区間。呼び出し側は、要求ごとに一意な番号を振る。 -/
def filePreviewRequest (s : Shared) (requestId : String) (kind : FilePreviewRequestKind) :
    Option (Shared × List Op) :=
  if requestId ∈ s.requests.map (·.1) then none
  else some ({ s.removePending requestId with
      pendingFilePreviews := (requestId, kind) :: (s.removePending requestId).pendingFilePreviews
      requests := (requestId, kind) :: s.requests }, [.filePreviewExec requestId])

/-- `is_current` の臨界区間。session は、渡された要求の結果を高々 1 回返す。 -/
def onFilePreviewExecResult (s : Shared) (index : Nat) (requestId : String) (stdout : List UInt8)
    (exitStatus : Option UInt32) : Option (Shared × List Op) :=
  match s.sessions[index]? with
  | some session =>
      if session.ended = false ∧ requestId ∈ session.execs then
        some (s.setSession index { session with execs := session.execs.erase requestId },
          if session.generation = s.sessionGeneration then [.removeFinished requestId stdout exitStatus] else [])
      else none
  | none => none

/-- 世代の確認と状態の更新の臨界区間。現行の世代なら、ロックを外してから片付ける。 -/
def handleUnexpectedDisconnect (s : Shared) (generation : Nat) : List Op :=
  if generation = s.sessionGeneration then [.failPendingFilePreviews] else []

def call (s : Shared) : Call → Option (Shared × List Op)
  | .filePreviewRequest requestId kind => s.filePreviewRequest requestId kind
  | .onFilePreviewExecResult index requestId stdout exitStatus =>
      s.onFilePreviewExecResult index requestId stdout exitStatus
  | .onDisconnected index =>
      match s.sessions[index]? with
      | some session =>
          if session.ended then none
          else some (s.setSession index { session with ended := true },
            s.handleUnexpectedDisconnect session.generation)
      | none => none
  | .commandsClosed index =>
      s.sessions[index]?.map fun session => (s.setSession index { session with accepting := false }, [])
  | .connect => some (s, [.newAdapter])
  | .abortInFlightAttempt =>
      some ({ s with sessionGeneration := s.sessionGeneration + 1 }, [.failPendingFilePreviews])
  | .networkLost generation =>
      some (s, if generation = s.sessionGeneration then [.handleUnexpectedDisconnect generation] else [])

/-- コマンドの列に入れる。`hasRoom` は列に空きがあるかを表す。 -/
def filePreviewExec (s : Shared) (requestId : String) (hasRoom : Bool) : Shared × List Op :=
  match s.session with
  | some index =>
      match s.sessions[index]? with
      | some session =>
          if session.accepting = true ∧ hasRoom = true then
            (s.setSession index { session with execs := requestId :: session.execs }, [])
          else (s, [.removeUnqueued requestId])
      | none => (s, [.removeUnqueued requestId])
  | none => (s, [.removeUnqueued requestId])

def removeFinished (s : Shared) (requestId : String) (stdout : List UInt8) (exitStatus : Option UInt32) :
    Shared × List Op :=
  (s.removePending requestId, [.onFilePreviewResult requestId (match s.pendingKind requestId with
    | some kind => .parsed kind exitStatus stdout
    | none => .error s!"file_preview: unknown or already-resolved request_id {requestId}")])

/-- `k` は外から決まる選択である。`filePreviewExec` では列に空きがあるか、`connect` では成功したかを表す。 -/
def exec (s : Shared) (op : Op) (k : Bool) : Shared × List Op × List (List Op) :=
  match op with
  | .filePreviewExec requestId =>
      let r := s.filePreviewExec requestId k
      (r.1, r.2, [])
  | .removeUnqueued requestId =>
      (s.removePending requestId, [.onFilePreviewResult requestId (.error "not connected")], [])
  | .removeFinished requestId stdout exitStatus =>
      let r := s.removeFinished requestId stdout exitStatus
      (r.1, r.2, [])
  | .onFilePreviewResult requestId outcome => ({ s with results := s.results ++ [(requestId, outcome)] }, [], [])
  | .failPendingFilePreviews =>
      ({ s with pendingFilePreviews := [] }, s.pendingIds.map fun requestId =>
        .onFilePreviewResult requestId (.error "connection lost before the file preview completed"), [])
  | .handleUnexpectedDisconnect generation => (s, s.handleUnexpectedDisconnect generation, [])
  | .newAdapter =>
      ({ s with sessionGeneration := s.sessionGeneration + 1 }, [.connect (s.sessionGeneration + 1)], [])
  | .connect generation =>
      ({ s with sessions := s.sessions ++ [⟨generation, k, false, []⟩] },
        if k then [.store s.sessions.length] else [], [])
  | .store index =>
      ({ s with session := some index }, if s.session.isSome then [.failPendingFilePreviews] else [], [])

end Shared

/-! ## 実行 -/

abbrev State := Pool Shared Op

abbrev Action := PoolAction Call Bool

namespace State

def start : State := ⟨.start, []⟩

abbrev step (p : State) (a : Action) : Option State := Pool.step Shared.call Shared.exec p a

abbrev Steps (p : State) (a : Action) (p' : State) : Prop := p.step a = some p'

end State

/-! ## 結果の届く見込み -/

/-- その要求を手にしている呼び出しの操作。 -/
def Op.Carries (requestId : String) : Op → Prop
  | .filePreviewExec requestId' | .removeUnqueued requestId' => requestId' = requestId
  | .removeFinished requestId' _ _ => requestId' = requestId
  | _ => False

instance (requestId : String) : DecidablePred (Op.Carries requestId)
  | .filePreviewExec _ | .removeUnqueued _ | .removeFinished _ _ _ => inferInstanceAs (Decidable (_ = _))
  | .onFilePreviewResult _ _ | .failPendingFilePreviews | .handleUnexpectedDisconnect _ | .newAdapter | .connect _
  | .store _ => inferInstanceAs (Decidable False)

/-- 片付けか、片付けに至る接続の操作。網断の後始末は、その世代が現行のままなら片付ける。 -/
def Op.Cleans (generation : Nat) : Op → Prop
  | .failPendingFilePreviews | .newAdapter | .connect _ | .store _ => True
  | .handleUnexpectedDisconnect generation' => generation' = generation
  | _ => False

instance (generation : Nat) : DecidablePred (Op.Cleans generation)
  | .failPendingFilePreviews | .newAdapter | .connect _ | .store _ => inferInstanceAs (Decidable True)
  | .handleUnexpectedDisconnect _ => inferInstanceAs (Decidable (_ = _))
  | .filePreviewExec _ | .removeUnqueued _ | .removeFinished _ _ _ | .onFilePreviewResult _ _ =>
      inferInstanceAs (Decidable False)

/-- 現行の世代の、終わっていない session。 -/
def Shared.Live (s : Shared) (session : Session) : Prop :=
  session.generation = s.sessionGeneration ∧ session.ended = false

instance (s : Shared) : DecidablePred s.Live := fun _ => inferInstanceAs (Decidable (_ ∧ _))

/-- 待っている要求を、呼び出しが手にしているか、現行の session が抱えているか、片付けか接続が控えている。 -/
def Shared.Awaited (s : Shared) (ops : List Op) (requestId : String) : Prop :=
  (∃ op ∈ ops, op.Carries requestId) ∨ (∃ session ∈ s.sessions, s.Live session ∧ requestId ∈ session.execs) ∨
    ∃ op ∈ ops, op.Cleans s.sessionGeneration

instance (s : Shared) (ops : List Op) (requestId : String) : Decidable (s.Awaited ops requestId) :=
  inferInstanceAs (Decidable (_ ∨ _))

/-- 取り違えない操作。表から要求を取り出す操作は、その要求がまだ表に在るときに行う。要求を渡す先は、現行の世代の
終わっていない session か、片付けか接続が控えている session である。接続が同期的に失敗するときは、待っている要求の見込みが
その接続によらない。 -/
def Op.Uncrossed (p : State) (k : Bool) : Op → Prop
  | .removeUnqueued requestId => requestId ∈ p.shared.pendingIds
  | .removeFinished requestId _ _ => requestId ∈ p.shared.pendingIds
  | .filePreviewExec _ =>
      k = true → ∀ index ∈ p.shared.session, ∀ session ∈ p.shared.sessions[index]?,
        session.accepting = true → p.shared.Live session ∨ ∃ op ∈ p.pending, op.Cleans p.shared.sessionGeneration
  | .connect generation =>
      k = false → ∀ requestId ∈ p.shared.pendingIds,
        p.shared.Awaited (p.pending.erase (.connect generation)) requestId
  | _ => True

instance (p : State) (k : Bool) : DecidablePred (Op.Uncrossed p k)
  | .removeUnqueued _ | .removeFinished _ _ _ => inferInstanceAs (Decidable (_ ∈ _))
  | .filePreviewExec _ => inferInstanceAs (Decidable (_ → _))
  | .connect _ => inferInstanceAs (Decidable (_ → _))
  | .onFilePreviewResult _ _ | .failPendingFilePreviews | .handleUnexpectedDisconnect _ | .newAdapter | .store _ =>
      inferInstanceAs (Decidable True)

def Uncrossed (p : State) : Action → Prop
  | .call _ => True
  | .run i k => ∀ op ∈ p.next? i, op.Uncrossed p k

instance (p : State) : DecidablePred (Uncrossed p)
  | .call _ => inferInstanceAs (Decidable True)
  | .run _ _ => inferInstanceAs (Decidable (∀ op ∈ _, _))

/-! ## 応答の保証 -/

/-- 要求は高々 1 回だけ、自分の種別で応答される。操作の残っていない状態では、要求を渡された session がどれも結果を
返したか終わっていれば、要求はちょうど 1 回応答されている。 -/
structure State.Answered (p : State) : Prop where
  distinct : (p.shared.requests.map (·.1)).Nodup
  once : (p.shared.results.map (·.1)).Nodup
  owned : ∀ requestId kind status stdout, (requestId, .parsed kind status stdout) ∈ p.shared.results →
    (requestId, kind) ∈ p.shared.requests
  settled : p.pending = [] → ∀ r ∈ p.shared.requests,
    (∀ session ∈ p.shared.sessions, r.1 ∈ session.execs → session.ended = true) →
      (p.shared.results.map (·.1)).count r.1 = 1

end IsekaiTerminal.Orchestrator.Preview
