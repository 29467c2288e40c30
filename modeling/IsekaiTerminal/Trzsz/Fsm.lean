import IsekaiTerminal.Lib.Transition
import IsekaiTerminal.Lib.Timed
import IsekaiTerminal.Trzsz.Codec

/-!
# trzsz の転送の状態機械

`rust-core/src/trzsz.rs` の `TrzszTransferFsm` を定める。SSH の stdout は、この状態機械を通って端末へ流れる。
カウンタは自然数で表す。
-/

namespace IsekaiTerminal.Trzsz

open Lib
open Emulator (parseUnsigned?)

/-! ## 入出力 -/

inductive TrzszEvent
  | stdoutBytes (bytes : List UInt8)
  | kotlinAcceptUpload (transferId fileName : String) (fileSize : Nat)
  | kotlinChunk (transferId : String) (data : List UInt8) (isLast : Bool)
  | kotlinAcceptDownload (transferId : String)
  | kotlinCancel (transferId : String)
deriving DecidableEq

inductive TrzszEffect
  | flushVte (bytes : List UInt8)
  | sendStdin (bytes : List UInt8)
  | onTrzszRequest (transferId : String) (mode : TrzszMode) (suggestedName : Option String)
      (expectedSize : Option Nat)
  | onDownloadChunk (transferId : String) (data : List UInt8) (isLast : Bool)
  | onProgress (transferId : String) (transferred : Nat) (total : Option Nat)
  | onFinished (transferId : String) (success : Bool) (message : Option String)
deriving DecidableEq

inductive TrzszTimer
  | transfer
deriving DecidableEq

/-- `TRANSFER_TIMEOUT`（秒）。 -/
def transferTimeout : Nat := 120

def maxDeclaredTrzszSize : Nat := 2 ^ 40

/-! ## 内部の状態 -/

inductive UploadStep
  | waitCfg
  | waitNumAck
  | waitNameAck
  | waitSizeAck
  | sendingData
  | waitMd5Ack
deriving DecidableEq

inductive DownloadStep
  | waitCfg
  | waitNum
  | waitName
  | waitSize
  | receiving
  | waitMd5
deriving DecidableEq

/-- `md5Ctx` は、MD5 に読ませたバイトの全体である。 -/
structure Upload where
  step : UploadStep
  fileName : String
  fileSize : Nat
  md5Ctx : List UInt8
  /-- 送信して SUCC を待つ DATA の長さと `is_last`。 -/
  pending : List (Nat × Bool)
  /-- `SendingData` に着く前に届いたチャンク。 -/
  unsent : List (List UInt8 × Bool)
deriving DecidableEq

inductive TransferPhase
  | upload (u : Upload)
  | download (step : DownloadStep)
deriving DecidableEq

/-- `TrzszFsmState::Transferring` の欄。 -/
structure Transfer where
  transferId : String
  protoBuf : List UInt8
  transferred : Nat
  total : Option Nat
  phase : TransferPhase
deriving DecidableEq

inductive TrzszFsmState
  | normal
  | waitingKotlin (transferId : String) (mode : TrzszMode) (protoBuf : List UInt8)
  | transferring (t : Transfer)
  | recovering
deriving DecidableEq

structure TrzszTransferFsm where
  state : TrzszFsmState
  tailBuf : List UInt8
  nextId : Nat
deriving DecidableEq

abbrev Reply := Response TrzszEffect TrzszTimer

abbrev TrzszInput := Input TrzszEvent TrzszTimer

/-! ## 1 行の処理 -/

/-- 1 行を処理した後の転送と、出た作用。`terminal` は転送の終わりで、その成否を持つ。 -/
structure LineResult where
  transfer : Transfer
  effects : List TrzszEffect
  terminal : Option Bool

namespace Transfer

variable (codec : Codec) (t : Transfer)

def stay (effects : List TrzszEffect) : LineResult := ⟨t, effects, none⟩

def progress : TrzszEffect := .onProgress t.transferId t.transferred t.total

def dataFrame (data : List UInt8) : TrzszEffect := .sendStdin (frameBin codec "DATA" data)

/-- 先に届いていたチャンクを送る。 -/
def flushUnsent (u : Upload) : Upload :=
  { u with
    md5Ctx := u.md5Ctx ++ u.unsent.flatMap Prod.fst
    pending := u.pending ++ u.unsent.map fun c => (c.1.length, c.2)
    unsent := [] }

def onUploadLine (u : Upload) (typ : String) : LineResult :=
  match u.step with
  | .waitCfg =>
      if typ = "CFG" then
        { t with phase := .upload { u with step := .waitNumAck } }.stay
          [.sendStdin (frameInt "NUM" 1), .sendStdin (frameBin codec "NAME" (utf8 u.fileName)),
            .sendStdin (frameInt "SIZE" u.fileSize)]
      else t.stay []
  | .waitNumAck =>
      if typ = "SUCC" then { t with phase := .upload { u with step := .waitNameAck } }.stay [] else t.stay []
  | .waitNameAck =>
      if typ = "SUCC" then { t with phase := .upload { u with step := .waitSizeAck } }.stay [] else t.stay []
  | .waitSizeAck =>
      if typ = "SUCC" then
        { t with phase := .upload { flushUnsent u with step := .sendingData } }.stay
          (t.progress :: u.unsent.map fun c : List UInt8 × Bool => dataFrame codec c.1)
      else t.stay []
  | .sendingData =>
      if typ = "SUCC" then
        match u.pending with
        | [] => t.stay []
        | (len, isLast) :: pending =>
            let t := { t with transferred := t.transferred + len }
            if isLast then
              { t with phase := .upload { u with pending, step := .waitMd5Ack } }.stay
                [t.progress, .sendStdin (frameBin codec "MD5" (codec.md5 u.md5Ctx))]
            else { t with phase := .upload { u with pending } }.stay [t.progress]
      else t.stay []
  | .waitMd5Ack =>
      if typ = "SUCC" then ⟨t, [.onFinished t.transferId true none], some true⟩ else t.stay []

def parseU64? (payload : String) : Option Nat := parseUnsigned? (2 ^ 64 - 1) payload.toList

def tooLarge : String := "ファイルが大きすぎるため転送を中断しました"

def onSize (n : Nat) : LineResult :=
  if n > maxDeclaredTrzszSize then
    ⟨t, [.sendStdin [0x03], .onFinished t.transferId false (some tooLarge)], some false⟩
  else
    let t := { t with total := some n }
    { t with phase := .download .receiving }.stay [.sendStdin (frameInt "SUCC" n), t.progress]

def onData (data : List UInt8) : LineResult :=
  let t := { t with transferred := t.transferred + data.length }
  let isLast := t.total.any (· ≤ t.transferred)
  (if isLast then { t with phase := .download .waitMd5 } else t).stay
    [.onDownloadChunk t.transferId data isLast, .sendStdin (frameInt "SUCC" data.length), t.progress]

def onDownloadLine (step : DownloadStep) (typ payload : String) : LineResult :=
  if typ = "CFG" ∧ step = .waitCfg then { t with phase := .download .waitNum }.stay []
  else if typ = "NUM" ∧ step = .waitNum then
    { t with phase := .download .waitName }.stay
      [.sendStdin (frameInt "SUCC" ((parseU64? payload).getD 1))]
  else if typ = "NAME" ∧ step = .waitName then
    { t with phase := .download .waitSize }.stay [.sendStdin (frame "SUCC" payload)]
  else if typ = "SIZE" ∧ step = .waitSize then t.onSize ((parseU64? payload).getD 0)
  else if typ = "DATA" ∧ step = .receiving then
    match codec.decodeBytes payload with
    | none => t.stay []
    | some data => t.onData data
  else if typ = "MD5" ∧ step = .waitMd5 then
    ⟨t, [.sendStdin (frame "SUCC" payload), .onFinished t.transferId true none], some true⟩
  else t.stay []

def onFail (payload : String) : LineResult :=
  ⟨t, [.onFinished t.transferId false (some (((codec.decodeBytes payload).map fromUtf8Lossy).getD payload))],
    some false⟩

def onFrame (typ payload : String) : LineResult :=
  if typ = "FAIL" ∨ typ = "fail" then t.onFail codec payload
  else match t.phase with
    | .upload u => t.onUploadLine codec u typ
    | .download step => t.onDownloadLine codec step typ payload

end Transfer

/-! ## 行のループ -/

/-- 改行で終わる行と、その後ろに残るバイト列。 -/
def splitLines : List UInt8 → List (List UInt8) × List UInt8
  | [] => ([], [])
  | b :: bs =>
      let r := splitLines bs
      if b = newline then ([] :: r.1, r.2)
      else match r.1 with
        | [] => ([], b :: r.2)
        | line :: lines => ((b :: line) :: lines, r.2)

def stripCr (line : List UInt8) : List UInt8 :=
  if line.getLast? = some carriageReturn then line.dropLast else line

/-- ループを抜けたときの転送と、出た作用。`activity` は、フレームを 1 つでも読んだかを表す。 -/
structure LoopResult where
  transfer : Transfer
  effects : List TrzszEffect
  activity : Bool
  terminal : Option Bool

/-- `proto_buf` の行を先頭から処理する。転送が終わった行で止まり、残りの行は `protoBuf` に残る。 -/
def Transfer.loop (codec : Codec) (rest : List UInt8) : Transfer → List (List UInt8) → LoopResult
  | t, [] => ⟨{ t with protoBuf := rest }, [], false, none⟩
  | t, line :: lines =>
      match parseLine (stripCr line) with
      | none => loop codec rest t lines
      | some (typ, payload) =>
          let r := t.onFrame codec typ payload
          match r.terminal with
          | some ok =>
              ⟨{ r.transfer with protoBuf := lines.flatMap (· ++ [newline]) ++ rest }, r.effects, true, some ok⟩
          | none =>
              let q := loop codec rest r.transfer lines
              ⟨q.transfer, r.effects ++ q.effects, true, q.terminal⟩

def Transfer.receive (codec : Codec) (t : Transfer) (bytes : List UInt8) : LoopResult :=
  let r := splitLines (t.protoBuf ++ bytes)
  t.loop codec r.2 r.1

/-! ## 状態機械 -/

namespace TrzszTransferFsm

def new : TrzszTransferFsm := ⟨.normal, [], 0⟩

def abortTransfer (s : TrzszTransferFsm) (tid message : String) : TrzszTransferFsm × Reply :=
  ({ s with state := .recovering, tailBuf := [] },
    .emit [.sendStdin [0x03], .onFinished tid false (some message)])

def transferIdOf (id : Nat) : String := "trzsz-" ++ toString id

def allocTransferId (s : TrzszTransferFsm) : TrzszTransferFsm × String :=
  ({ s with nextId := s.nextId + 1 }, transferIdOf s.nextId)

def flush (bytes : List UInt8) : List TrzszEffect := if bytes.isEmpty then [] else [.flushVte bytes]

variable (codec : Codec)

def processNormalBytes (s : TrzszTransferFsm) (bytes : List UInt8) : TrzszTransferFsm × List TrzszEffect :=
  let tail := s.tailBuf ++ bytes
  match rfind tail trzszMagic with
  | some magicPos =>
      let candidate := tail.drop magicPos
      match parseTrzszTrigger candidate with
      | some detection =>
          let r := { s with tailBuf := [] }.allocTransferId
          ({ r.1 with state := .waitingKotlin r.2 detection.mode [] },
            flush (tail.take magicPos) ++
              [.sendStdin (actMsg codec), .onTrzszRequest r.2 detection.mode none none])
      | none => ({ s with tailBuf := candidate }, flush (tail.take magicPos))
  | none =>
      let flushEnd := tail.length - magicSuffixLen tail
      ({ s with tailBuf := tail.drop flushEnd }, flush (tail.take flushEnd))

def onTransferringBytes (s : TrzszTransferFsm) (bytes : List UInt8) : TrzszTransferFsm × Reply :=
  match s.state with
  | .transferring t =>
      let r := t.receive codec bytes
      match r.terminal with
      | some true =>
          ({ s with state := .normal, tailBuf := [] }, (Response.emit r.effects).withKillTimer .transfer)
      | some false =>
          ({ s with state := .recovering, tailBuf := [] }, (Response.emit r.effects).withKillTimer .transfer)
      | none =>
          ({ s with state := .transferring r.transfer },
            if r.activity then (Response.emit r.effects).withTimer .transfer transferTimeout
            else .emit r.effects)
  | _ => (s, .consume)

def onStdoutBytes (s : TrzszTransferFsm) (bytes : List UInt8) : TrzszTransferFsm × Reply :=
  match s.state with
  | .normal =>
      let r := s.processNormalBytes codec bytes
      (r.1, if r.1.state matches .waitingKotlin _ _ _ then
        (Response.emit r.2).withTimer .transfer transferTimeout else .emit r.2)
  | .waitingKotlin tid mode protoBuf =>
      ({ s with state := .waitingKotlin tid mode (protoBuf ++ bytes) }, .consume)
  | .transferring _ => s.onTransferringBytes codec bytes
  | .recovering =>
      (if newline ∈ bytes then { s with state := .normal, tailBuf := [] } else s, .emit [.flushVte bytes])

/-- 溜めておいたバイト列を引き継いで、転送を始める。 -/
def startTransfer (s : TrzszTransferFsm) (tid : String) (protoBuf : List UInt8) (total : Option Nat)
    (phase : TransferPhase) : TrzszTransferFsm × Reply :=
  let r := { s with state := .transferring ⟨tid, protoBuf, 0, total, phase⟩ }.onTransferringBytes codec []
  (r.1, r.2.withTimer .transfer transferTimeout)

def uploadPhase (fileName : String) (fileSize : Nat) : TransferPhase :=
  .upload ⟨.waitCfg, fileName, fileSize, [], [], []⟩

def onChunk (s : TrzszTransferFsm) (tid : String) (data : List UInt8) (isLast : Bool) : TrzszTransferFsm × Reply :=
  match s.state with
  | .transferring t =>
      match t.phase with
      | .upload u =>
          if t.transferId = tid then
            if u.step = .sendingData then
              let u := { u with md5Ctx := u.md5Ctx ++ data, pending := u.pending ++ [(data.length, isLast)] }
              ({ s with state := .transferring { t with phase := .upload u } },
                (Response.emit [Transfer.dataFrame codec data]).withTimer .transfer transferTimeout)
            else
              let u := { u with unsent := u.unsent ++ [(data, isLast)] }
              ({ s with state := .transferring { t with phase := .upload u } }, .consume)
          else (s, .consume)
      | .download _ => (s, .consume)
  | _ => (s, .consume)

/-- 進行中の転送。 -/
def activeId (s : TrzszTransferFsm) : Option String :=
  match s.state with
  | .waitingKotlin tid _ _ => some tid
  | .transferring t => some t.transferId
  | _ => none

def onEvent (s : TrzszTransferFsm) : TrzszEvent → TrzszTransferFsm × Reply
  | .stdoutBytes bytes => s.onStdoutBytes codec bytes
  | .kotlinAcceptUpload transferId fileName fileSize =>
      match s.state with
      | .waitingKotlin tid .upload protoBuf =>
          if tid = transferId then
            s.startTransfer codec tid protoBuf (some fileSize) (uploadPhase fileName fileSize)
          else (s, .consume)
      | _ => (s, .consume)
  | .kotlinAcceptDownload transferId =>
      match s.state with
      | .waitingKotlin tid .download protoBuf =>
          if tid = transferId then s.startTransfer codec tid protoBuf none (.download .waitCfg)
          else (s, .consume)
      | _ => (s, .consume)
  | .kotlinChunk transferId data isLast => s.onChunk codec transferId data isLast
  | .kotlinCancel transferId =>
      if s.activeId = some transferId then
        let r := s.abortTransfer transferId "Cancelled"
        (r.1, r.2.withKillTimer .transfer)
      else (s, .consume)

def onTimeout (s : TrzszTransferFsm) : TrzszTimer → TrzszTransferFsm × Reply
  | .transfer =>
      match s.activeId with
      | some tid => s.abortTransfer tid "Transfer timeout"
      | none => (s, .passThrough)

def machine : TimedStateMachine TrzszTransferFsm TrzszEvent TrzszEffect TrzszTimer where
  onEvent := onEvent codec
  onTimeout := onTimeout

/-- イベントか時間切れを 1 つ受け取る。 -/
def apply (s : TrzszTransferFsm) (i : TrzszInput) : TrzszTransferFsm × List TrzszEffect :=
  let r := (machine codec).react s i
  (r.1, r.2.actions)

abbrev run (s : TrzszTransferFsm) (is : List TrzszInput) : TrzszTransferFsm := Reducer.run (apply codec) s is

abbrev outputs (s : TrzszTransferFsm) (is : List TrzszInput) : List TrzszEffect :=
  Reducer.outputs (apply codec) s is

end TrzszTransferFsm

end IsekaiTerminal.Trzsz
