import IsekaiTerminal.Lib.ThreadPool

/-!
# trzsz の転送

`rust-core/src/orchestrator.rs` の trzsz のコールバック、`trzsz_cancel`、`trzsz_dismiss`、session の差し替えのときの
片付けを定める。状態のロックの臨界区間と、コールバックの呼び出しが 1 つの操作である。session のイベントループは
`loop` の操作で表し、ループの中のコールバックは順に終わる。再接続の判断は載せず、手動接続、再接続の試行、試行の
中断はいつでも始まりうるとする。進捗の通知と `set_interactive_busy` は載せない。
-/

namespace IsekaiTerminal.Orchestrator.Transfer

open Lib

/-! ## 状態 -/

inductive TrzszMode
  | upload
  | download
  | dir
deriving DecidableEq

/-- 転送。session ごとに番号を振るので、session との組で見分ける。 -/
structure Key where
  session : Nat
  transferId : String
deriving DecidableEq

/-- `Done` に載る文言。`own` は転送の FSM のもの、`tooLarge` と `lost` は orchestrator のものである。 -/
inductive DoneMessage
  | own
  | tooLarge
  | lost
deriving DecidableEq

/-- アプリへの公開。どの転送のものかを添える。 -/
inductive Published
  | waitingUser (key : Key)
  | onDownloadComplete (key : Key) (data : List UInt8)
  | done (key : Key) (success : Bool) (message : DoneMessage)
  | idle
deriving DecidableEq

/-- session の FSM が出したもの。 -/
structure Emission where
  mode : TrzszMode
  chunks : List UInt8
  finished : Option Bool
deriving DecidableEq

structure Session where
  generation : Nat
  ended : Bool
deriving DecidableEq

/-- `currentTransferId` には、それを立てた session を添える。`emissions` は FSM の出力、`opened` は公開を約束した転送、
`outstanding` はそのうち `Done` を約束していないもの、`cancelled` は取り消した転送、`published` は公開の履歴である。 -/
structure Shared where
  sessionGeneration : Nat
  currentTransferId : Option Key
  trzszMode : Option TrzszMode
  downloadBuf : List UInt8
  sizeLimitExceededFor : Option String
  session : Option Nat
  sessions : List Session
  emissions : Key → Option Emission
  opened : List Key
  outstanding : Option Key
  cancelled : List Key
  published : List Published

/-- `notify` は残りの公開と、その後に戻る session のイベントループである。 -/
inductive Op
  | loop (index : Nat)
  | request (key : Key) (mode : TrzszMode)
  | chunk (key : Key) (data : List UInt8)
  | finish (key : Key) (success : Bool)
  | notify (events : List Published) (back : Option Nat)
  | abort
  | handleUnexpectedDisconnect (generation : Nat)
  | newAdapter
  | connect (generation : Nat)
  | store (index : Nat)
deriving DecidableEq

/-- session のイベントループで起きること。 -/
inductive Callback
  | onTrzszRequest (transferId : String) (mode : TrzszMode)
  | onTrzszDownloadChunk (transferId : String) (data : List UInt8)
  | onTrzszFinished (transferId : String) (success : Bool)
  | onDisconnected
deriving DecidableEq

inductive Choice
  | ok
  | err
  | event (callback : Callback)
deriving DecidableEq

inductive Call
  | trzszCancel
  | trzszDismiss
  | connect
  | abortInFlightAttempt
  | networkLost (generation : Nat)
deriving DecidableEq

def maxDownloadBufBytes : Nat := 2 * 1024 * 1024 * 1024

namespace Shared

def start : Shared := ⟨0, none, none, [], none, none, [], fun _ => none, [], none, [], []⟩

def emit (s : Shared) (key : Key) (emission : Emission) : Shared :=
  { s with emissions := Function.update s.emissions key (some emission) }

def publish (s : Shared) (e : Published) : Shared := { s with published := s.published ++ [e] }

/-- 残りの公開を続け、なければイベントループに戻る。 -/
def resume (events : List Published) (back : Option Nat) : List Op :=
  if events = [] then back.toList.map .loop else [.notify events back]

/-- `is_current` の確認。古い世代の session のコールバックは何もしない。 -/
def ifCurrent (s : Shared) (index generation : Nat) (op : Op) : List Op :=
  [if generation = s.sessionGeneration then op else .loop index]

/-! ## session のコールバック -/

/-- FSM は、番号ごとに高々 1 回の要求、その後の chunk、高々 1 回の完了の順に出す。それ以外の選択では何も起きない。 -/
def callback (s : Shared) (index : Nat) (session : Session) : Callback → Shared × List Op
  | .onTrzszRequest transferId mode =>
      match s.emissions ⟨index, transferId⟩ with
      | none => (s.emit ⟨index, transferId⟩ ⟨mode, [], none⟩,
          s.ifCurrent index session.generation (.request ⟨index, transferId⟩ mode))
      | some _ => (s, [.loop index])
  | .onTrzszDownloadChunk transferId data =>
      match s.emissions ⟨index, transferId⟩ with
      | some emission =>
          if emission.finished = none then
            (s.emit ⟨index, transferId⟩ { emission with chunks := emission.chunks ++ data },
              s.ifCurrent index session.generation (.chunk ⟨index, transferId⟩ data))
          else (s, [.loop index])
      | none => (s, [.loop index])
  | .onTrzszFinished transferId success =>
      match s.emissions ⟨index, transferId⟩ with
      | some emission =>
          if emission.finished = none then
            (s.emit ⟨index, transferId⟩ { emission with finished := some success },
              s.ifCurrent index session.generation (.finish ⟨index, transferId⟩ success))
          else (s, [.loop index])
      | none => (s, [.loop index])
  | .onDisconnected =>
      ({ s with sessions := s.sessions.set index { session with ended := true } },
        if session.generation = s.sessionGeneration then [.abort] else [])

def loop (s : Shared) (index : Nat) (k : Choice) : Shared × List Op :=
  match s.sessions[index]?, k with
  | some session, .event c => s.callback index session c
  | _, _ => (s, [.loop index])

def currentId (s : Shared) : Option String := s.currentTransferId.map (·.transferId)

def onTrzszRequest (s : Shared) (key : Key) (mode : TrzszMode) : Shared :=
  { s with
    currentTransferId := some key
    trzszMode := some mode
    downloadBuf := []
    sizeLimitExceededFor := none
    opened := key :: s.opened
    outstanding := some key }

/-- 上限を超えたら捨てて、転送の中止を頼む。 -/
def onTrzszDownloadChunk (s : Shared) (key : Key) (data : List UInt8) : Shared :=
  if s.currentId = some key.transferId then
    if maxDownloadBufBytes < s.downloadBuf.length + data.length then
      { s with downloadBuf := [], sizeLimitExceededFor := some key.transferId }
    else { s with downloadBuf := s.downloadBuf ++ data }
  else s

def accepts (s : Shared) (transferId : String) : Bool :=
  s.currentId.isNone || s.currentId = some transferId

/-- 完了のときの公開。上限を超えていれば、成功にはしない。 -/
def completion (s : Shared) (key : Key) (success : Bool) : List Published :=
  if s.sizeLimitExceededFor = some key.transferId then [.done key false .tooLarge]
  else if success = true ∧ s.trzszMode = some .download ∧ s.downloadBuf ≠ [] then
    [.onDownloadComplete key s.downloadBuf, .done key success .own]
  else [.done key success .own]

/-- 別の転送が始まっていれば何もしない。 -/
def onTrzszFinished (s : Shared) (key : Key) (success : Bool) : Shared × List Op :=
  if s.accepts key.transferId then
    ({ s with currentTransferId := none, sizeLimitExceededFor := none, downloadBuf := [], outstanding := none },
      [.notify (s.completion key success) (some key.session)])
  else (s, [.loop key.session])

/-! ## 片付けと、アプリの操作 -/

/-- `abort_trzsz_transfer_state` の臨界区間。 -/
def abort (s : Shared) : Shared × List Op :=
  ({ s with
      currentTransferId := none
      trzszMode := none
      downloadBuf := []
      sizeLimitExceededFor := none
      outstanding := if s.currentTransferId.isSome then none else s.outstanding },
    s.currentTransferId.toList.map fun key => .notify [.done key false .lost] none)

def handleUnexpectedDisconnect (s : Shared) (generation : Nat) : List Op :=
  if generation = s.sessionGeneration then [.abort] else []

def trzszCancel (s : Shared) : Shared :=
  { s with currentTransferId := none, cancelled := s.currentTransferId.toList ++ s.cancelled }

def call (s : Shared) : Call → Option (Shared × List Op)
  | .trzszCancel => some (s.trzszCancel, [])
  | .trzszDismiss => some ({ s with trzszMode := none, currentTransferId := none }, [.notify [.idle] none])
  | .connect => some (s, [.newAdapter])
  | .abortInFlightAttempt => some ({ s with sessionGeneration := s.sessionGeneration + 1 }, [.abort])
  | .networkLost generation =>
      some (s, if generation = s.sessionGeneration then [.handleUnexpectedDisconnect generation] else [])

/-- 操作の実行と、その直後に行う操作、起動する session のイベントループ。 -/
def exec (s : Shared) (op : Op) (k : Choice) : Shared × List Op × List (List Op) :=
  match op with
  | .loop index => ((s.loop index k).1, (s.loop index k).2, [])
  | .request key mode => (s.onTrzszRequest key mode, [.notify [.waitingUser key] (some key.session)], [])
  | .chunk key data => (s.onTrzszDownloadChunk key data, [.loop key.session], [])
  | .finish key success => ((s.onTrzszFinished key success).1, (s.onTrzszFinished key success).2, [])
  | .notify [] back => (s, resume [] back, [])
  | .notify (e :: events) back => (s.publish e, resume events back, [])
  | .abort => (s.abort.1, s.abort.2, [])
  | .handleUnexpectedDisconnect generation => (s, s.handleUnexpectedDisconnect generation, [])
  | .newAdapter =>
      ({ s with sessionGeneration := s.sessionGeneration + 1 }, [.connect (s.sessionGeneration + 1)], [])
  | .connect generation =>
      if k = .err then (s, [], [])
      else ({ s with sessions := s.sessions ++ [⟨generation, false⟩] }, [.store s.sessions.length],
        [[.loop s.sessions.length]])
  | .store index => ({ s with session := some index }, if s.session.isSome then [.abort] else [], [])

end Shared

/-! ## 実行 -/

abbrev State := Pool Shared Op

abbrev Action := PoolAction Call Choice

namespace State

def start : State := ⟨.start, []⟩

abbrev step (p : State) (a : Action) : Option State := Pool.step Shared.call Shared.exec p a

abbrev Steps (p : State) (a : Action) (p' : State) : Prop := p.step a = some p'

end State

/-! ## 仕様 -/

namespace Published

def isWaiting (key : Key) : Published → Bool
  | waitingUser key' => key' = key
  | _ => false

def isComplete (key : Key) : Published → Bool
  | onDownloadComplete key' _ => key' = key
  | _ => false

def isDone (key : Key) : Published → Bool
  | done key' _ _ => key' = key
  | _ => false

/-- `before` の後の `done` の中身。成功したダウンロードは、その前に全部の chunk を渡している。 -/
def DoneJustified (before : List Published) (key : Key) (success : Bool) (e : Emission) : DoneMessage → Prop
  | .own => e.finished = some success ∧
      (success = true → e.mode = .download → .onDownloadComplete key e.chunks ∈ before)
  | .tooLarge => success = false ∧ maxDownloadBufBytes < e.chunks.length
  | .lost => success = false

/-- 公開の中身は、その転送の FSM の出力と合う。 -/
def Justified (s : Shared) (before : List Published) : Published → Prop
  | waitingUser key => key ∈ s.opened
  | onDownloadComplete key data =>
      key ∉ s.cancelled ∧ ∃ e, s.emissions key = some e ∧ e.mode = .download ∧ e.finished = some true ∧ data = e.chunks
  | done key success message => ∃ e, s.emissions key = some e ∧ DoneJustified before key success e message
  | idle => True

/-- 公開は順に並ぶ。どの転送も、`WaitingUser` が 1 回あり、その後に高々 1 回の `Done` があり、ファイルを渡すのは
その間の高々 1 回である。 -/
def InOrder (before : List Published) : Published → Prop
  | waitingUser key => before.any (isWaiting key) = false
  | onDownloadComplete key _ =>
      before.any (isWaiting key) = true ∧ before.any (isComplete key) = false ∧ before.any (isDone key) = false
  | done key _ _ => before.any (isWaiting key) = true ∧ before.any (isDone key) = false
  | idle => True

end Published

/-- 残る操作は、次のコールバックを待つイベントループだけである。 -/
def State.Quiet (p : State) : Prop := ∀ op ∈ p.pending, ∃ index, op = .loop index

/-- 転送は続いている。session は今の世代で終わっておらず、FSM は完了を出していない。 -/
def Shared.Running (s : Shared) (key : Key) : Prop :=
  s.sessions[key.session]? = some ⟨s.sessionGeneration, false⟩ ∧
    (s.emissions key).any (fun e => e.finished.isNone) = true

/-- どの公開も順に並んで FSM の出力と合い、待つ操作がないとき、`WaitingUser` を公開した転送は、続いているか、
`Done` を公開している。 -/
structure State.Faithful (p : State) : Prop where
  log : ∀ before e after, p.shared.published = before ++ e :: after → e.InOrder before ∧ e.Justified p.shared before
  settled : p.Quiet → ∀ key, .waitingUser key ∈ p.shared.published →
    p.shared.Running key ∨ p.shared.published.any (Published.isDone key) = true

/-! ## 行き違いのない操作 -/

def Op.finishes (key : Key) : Op → Bool
  | .finish key' _ => key' = key
  | _ => false

/-- session の差し替えの途中の操作。 -/
def Op.replaces : Op → Bool
  | .newAdapter | .connect _ | .store _ => true
  | _ => false

/-- 約束した公開。 -/
def Op.owed : Op → List Published
  | .notify events _ => events
  | _ => []

namespace Shared

/-- 今の転送の片付けが、いずれ行われる。 -/
def Cleaning (s : Shared) (ops : List Op) : Prop :=
  Op.abort ∈ ops ∨ 2 ≤ (if s.session.isSome then 1 else 0) + ops.countP Op.replaces

/-- 転送の FSM は、完了を出した。 -/
def Concluded (s : Shared) (key : Key) : Prop := (s.emissions key).any (fun e => e.finished.isSome) = true

instance (s : Shared) (key : Key) : Decidable (s.Running key) := inferInstanceAs (Decidable (_ ∧ _))

instance (s : Shared) (ops : List Op) : Decidable (s.Cleaning ops) := inferInstanceAs (Decidable (_ ∨ _))

instance (s : Shared) (key : Key) : Decidable (s.Concluded key) := inferInstanceAs (Decidable (_ = _))

end Shared

/-- 他の操作が `rest` であるときの、行き違いのない操作。要求は、前の転送が終わり、取り消した転送の完了も扱った後に、続いているか
片付けられる session から届く。chunk と完了は、受け付けられるなら、今の転送か、完了なら取り消した転送のものである。成功した
ダウンロードは、取り消されておらず、空でない。片付けは、`WaitingUser` の公開の後に行われる。session は、取り消した転送の
完了を FSM が出すまで失われない。接続の失敗は、今の転送の完了か片付けを残す。 -/
def Op.Orderly (s : Shared) (rest : List Op) (k : Choice) : Op → Prop
  | .loop index => k = .event .onDisconnected → ∀ key ∈ s.cancelled, key.session = index → s.Concluded key
  | .request key _ => s.currentTransferId = none ∧
      (∀ key' ∈ s.cancelled, s.Concluded key' ∧ rest.any (Op.finishes key') = false) ∧ (s.Running key ∨ s.Cleaning rest)
  | .chunk key _ => s.currentId = some key.transferId → s.currentTransferId = some key
  | .finish key success => s.accepts key.transferId = true → (s.currentTransferId = some key ∨ key ∈ s.cancelled) ∧
      (success = true → s.sizeLimitExceededFor ≠ some key.transferId →
        (s.emissions key).any (fun e => e.mode = .download) = true → key ∉ s.cancelled ∧ s.downloadBuf ≠ [])
  | .abort => ∀ key ∈ s.currentTransferId, rest.any (fun op => op.owed.any (Published.isWaiting key)) = false
  | .newAdapter => ∀ key ∈ s.cancelled, s.Concluded key
  | .connect _ => k = .err → ∀ key ∈ s.currentTransferId,
      rest.any (Op.finishes key) = true ∨ s.Running key ∨ s.Cleaning rest
  | .notify _ _ | .handleUnexpectedDisconnect _ | .store _ => True

/-- 行き違いのない呼び出し。取り消しは、session が続いている間に行う。閉じる操作は、転送がないときに行う。 -/
def Call.Orderly (s : Shared) (ops : List Op) : Call → Prop
  | .trzszCancel => ∀ key ∈ s.currentTransferId, ops.any (Op.finishes key) = true ∨ s.Running key
  | .trzszDismiss => s.currentTransferId = none
  | .abortInFlightAttempt => ∀ key ∈ s.cancelled, s.Concluded key
  | .connect | .networkLost _ => True

instance (s : Shared) (rest : List Op) (k : Choice) : DecidablePred (Op.Orderly s rest k)
  | .loop _ => inferInstanceAs (Decidable (_ → _))
  | .request _ _ => inferInstanceAs (Decidable (_ ∧ _ ∧ _))
  | .chunk _ _ => inferInstanceAs (Decidable (_ → _))
  | .finish _ _ => inferInstanceAs (Decidable (_ → _))
  | .abort => inferInstanceAs (Decidable (∀ key ∈ _, _))
  | .newAdapter => inferInstanceAs (Decidable (∀ key ∈ _, _))
  | .connect _ => inferInstanceAs (Decidable (_ → _))
  | .notify _ _ | .handleUnexpectedDisconnect _ | .store _ => inferInstanceAs (Decidable True)

instance (s : Shared) (ops : List Op) : DecidablePred (Call.Orderly s ops)
  | .trzszCancel => inferInstanceAs (Decidable (∀ key ∈ _, _))
  | .trzszDismiss => inferInstanceAs (Decidable (_ = _))
  | .abortInFlightAttempt => inferInstanceAs (Decidable (∀ key ∈ _, _))
  | .connect | .networkLost _ => inferInstanceAs (Decidable True)

def Orderly (p : State) : Action → Prop
  | .call c => c.Orderly p.shared p.pending
  | .run i k => ∀ op ∈ p.next? i, op.Orderly p.shared (p.pending.erase op) k

instance (p : State) : DecidablePred (Orderly p)
  | .call _ => inferInstanceAs (Decidable (Call.Orderly _ _ _))
  | .run _ _ => inferInstanceAs (Decidable (∀ op ∈ _, _))

end IsekaiTerminal.Orchestrator.Transfer
