import IsekaiTerminal.Trzsz.Fsm

/-!
# 転送の実行

作用を、それを出した転送の識別子と組にする。`SendStdin` は識別子を持たないので、その手順で進行している転送のものとする。
その上で、転送の一生と、アップロードの作用の列が満たすことを定める。
-/

namespace IsekaiTerminal.Trzsz

open Lib

/-! ## 識別子 -/

/-- Kotlin からのイベントが名指す転送。 -/
def TrzszEvent.named : TrzszEvent → Option String
  | .stdoutBytes _ => none
  | .kotlinAcceptUpload transferId _ _ => some transferId
  | .kotlinChunk transferId _ _ => some transferId
  | .kotlinAcceptDownload transferId => some transferId
  | .kotlinCancel transferId => some transferId

namespace TrzszEffect

/-- 転送 `current` が進行しているときに出た作用の持ち主。 -/
def owner (current : Option String) : TrzszEffect → Option String
  | .flushVte _ => none
  | .sendStdin _ => current
  | .onTrzszRequest id _ _ _ => some id
  | .onDownloadChunk id _ _ => some id
  | .onProgress id _ _ => some id
  | .onFinished id _ _ => some id

def requested : TrzszEffect → Option String
  | .onTrzszRequest id _ _ _ => some id
  | _ => none

def finished : TrzszEffect → Option String
  | .onFinished id _ _ => some id
  | _ => none

end TrzszEffect

abbrev Owned := Option String × TrzszEffect

/-- 持ち主を付けた作用の列の、転送の一生。 -/
structure Lifecycle (trace : List Owned) : Prop where
  /-- 要求の識別子は、どの 2 つも異なる。 -/
  requestsDistinct : (trace.filterMap (·.2.requested)).Nodup
  finishedOnce : ∀ id, (trace.filter fun o => o.2.finished = some id).length ≤ 1
  /-- 終わった転送は、もう何も出さない。 -/
  finalQuiet : trace.Pairwise fun before after => ∀ id, before.2.finished = some id → after.1 ≠ some id
  /-- 転送の外では、サーバーへ何も送らない。 -/
  stdinOwned : ∀ o ∈ trace, ∀ bytes, o.2 = .sendStdin bytes → o.1 ≠ none
  ownersRequested : ∀ o ∈ trace, ∀ id, o.1 = some id → id ∈ trace.filterMap (·.2.requested)

/-! ## 実行 -/

namespace TrzszTransferFsm

variable (codec : Codec)

/-- 手順の前か後で進行している転送。 -/
def ongoing (s s' : TrzszTransferFsm) : Option String := s.activeId <|> s'.activeId

def ownedApply (s : TrzszTransferFsm) (i : TrzszInput) : TrzszTransferFsm × List Owned :=
  let r := s.apply codec i
  (r.1, r.2.map fun e => (e.owner (ongoing s r.1), e))

abbrev trace (s : TrzszTransferFsm) (is : List TrzszInput) : List Owned :=
  Reducer.outputs (ownedApply codec) s is

/-- 起動した直後。タイマーは動いていない。 -/
def initial : TimedStateMachine.Config TrzszTransferFsm TrzszTimer := ⟨new, fun _ => false⟩

theorem run_ownedApply (s : TrzszTransferFsm) (is : List TrzszInput) :
    Reducer.run (ownedApply codec) s is = s.run codec is := by
  induction is generalizing s with
  | nil => rfl
  | cons i is ih => exact ih _

/-- 持ち主を除くと、`outputs` である。 -/
theorem trace_effects (s : TrzszTransferFsm) (is : List TrzszInput) :
    (s.trace codec is).map Prod.snd = s.outputs codec is := by
  induction is generalizing s with
  | nil => rfl
  | cons i is ih =>
      have hstep : (ownedApply codec s i).2.map Prod.snd = (s.apply codec i).2 := by simp [ownedApply, Function.comp_def]
      rw [trace, Reducer.outputs_cons, List.map_append, hstep]
      exact congrArg _ (ih _)

/-- 転送 `tid` の作用の列。 -/
def effectsOf (s : TrzszTransferFsm) (tid : String) (is : List TrzszInput) : List TrzszEffect :=
  ((s.trace codec is).filter fun o => o.1 = some tid).map Prod.snd

end TrzszTransferFsm

/-! ## 届いたフレーム -/

/-- サーバーから届いた、フレームの型の列。 -/
def frameTypes (stream : List UInt8) : List String :=
  (splitLines stream).1.filterMap fun line => (parseLine (stripCr line)).map Prod.fst

def stdinFrames (es : List TrzszEffect) : List (List UInt8) :=
  es.filterMap fun
    | .sendStdin bytes => some bytes
    | _ => none

def progresses (es : List TrzszEffect) : List Nat :=
  es.filterMap fun
    | .onProgress _ transferred _ => some transferred
    | _ => none

/-! ## アップロード -/

abbrev Chunk := List UInt8 × Bool

def TrzszEvent.chunk : TrzszEvent → Option Chunk
  | .kotlinChunk _ data isLast => some (data, isLast)
  | _ => none

def TrzszEvent.stdout : TrzszEvent → List UInt8
  | .stdoutBytes bytes => bytes
  | _ => []

/-- アプリが送るファイル。 -/
structure UploadPlan where
  transferId : String
  fileName : String
  fileSize : Nat
  chunks : List Chunk

namespace UploadPlan

variable (codec : Codec) (p : UploadPlan)

/-- `is_last` は、最後のチャンクだけに立つ。 -/
def Marked : Prop := ∃ before data, p.chunks = before ++ [(data, true)] ∧ ∀ c ∈ before, c.2 = false

def accept : TrzszEvent := .kotlinAcceptUpload p.transferId p.fileName p.fileSize

/-- サーバーの出力か、この転送のチャンクである。 -/
def Feeds : TrzszEvent → Prop
  | .stdoutBytes _ => True
  | .kotlinChunk transferId _ _ => transferId = p.transferId
  | _ => False

def header : List (List UInt8) :=
  [frameInt "NUM" 1, frameBin codec "NAME" (utf8 p.fileName), frameInt "SIZE" p.fileSize]

def dataFrames (chunks : List Chunk) : List (List UInt8) := chunks.map fun c => frameBin codec "DATA" c.1

def contents (chunks : List Chunk) : List UInt8 := chunks.flatMap Prod.fst

/-- 送りきったときの、サーバーへのフレームの列。 -/
def frames : List (List UInt8) :=
  p.header codec ++ dataFrames codec p.chunks ++ [frameBin codec "MD5" (codec.md5 (contents p.chunks))]

/-- 先頭から `k` 個のフレームで送った、ファイルのバイト数。 -/
def sentLength (k : Nat) : Nat := (contents (p.chunks.take (k - 3))).length

/-- サーバーから型 `types` のフレームが届くまでに出る、アップロードの作用の列。 -/
structure Output (types : List String) (es : List TrzszEffect) : Prop where
  framesInOrder : stdinFrames es <+: p.frames codec
  dataAfterHandshake : 3 < (stdinFrames es).length → ["CFG", "SUCC", "SUCC", "SUCC"].Sublist types
  /-- MD5 は、最後のチャンクまで数えた確認の後に送る。 -/
  digestAfterAcks : stdinFrames es = p.frames codec →
    ("CFG" :: List.replicate (3 + p.chunks.length) "SUCC").Sublist types
  progressMonotone : (progresses es).Pairwise (· ≤ ·)
  progressBounded : ∀ before id transferred total after, es = before ++ .onProgress id transferred total :: after →
    transferred ≤ p.sentLength (stdinFrames before).length
  finishAfterDigest : ∀ before id message after, es = before ++ .onFinished id true message :: after →
    stdinFrames before = p.frames codec

end UploadPlan

/-! ## ダウンロード -/

def downloadChunks (es : List TrzszEffect) : List Chunk :=
  es.filterMap fun
    | .onDownloadChunk _ data isLast => some (data, isLast)
    | _ => none

/-- 1 行が、型と中身の組 `f` のフレームである。 -/
structure IsFrame (line : List UInt8) (f : String × String) : Prop where
  newline : newline ∉ line
  parse : parseLine (stripCr line) = some f

instance (line : List UInt8) (f : String × String) : Decidable (IsFrame line f) :=
  decidable_of_iff (newline ∉ line ∧ parseLine (stripCr line) = some f) ⟨fun h => ⟨h.1, h.2⟩, fun h => ⟨h.newline, h.parse⟩⟩

/-- サーバーが送るファイル。DATA は、符号化した列とその中身の組である。 -/
structure DownloadPlan where
  transferId : String
  cfg : String
  name : String
  size : Nat
  data : List (String × List UInt8)
  md5 : String

namespace DownloadPlan

variable (codec : Codec) (p : DownloadPlan)

def frames : List (String × String) :=
  [("CFG", p.cfg), ("NUM", "1"), ("NAME", p.name), ("SIZE", toString p.size)] ++
    (p.data.map fun d => ("DATA", d.1)) ++ [("MD5", p.md5)]

def contents : List UInt8 := p.data.flatMap Prod.snd

structure Conforms : Prop where
  sizeBound : p.size ≤ maxDeclaredTrzszSize
  decodes : ∀ d ∈ p.data, codec.decodeBytes d.1 = some d.2
  total : p.contents.length = p.size
  noData : p.size = 0 → p.data = []

def Sends (stream : List UInt8) : Prop :=
  ∃ lines, stream = lines.flatMap (· ++ [newline]) ∧ List.Forall₂ IsFrame lines p.frames

def accept : TrzszEvent := .kotlinAcceptDownload p.transferId

/-- アプリの受け入れをどこかに挟んで、サーバーの出力の全体が届く。 -/
def Delivers (events : List TrzszEvent) : Prop :=
  ∃ before after : List (List UInt8), events = before.map .stdoutBytes ++ p.accept :: after.map .stdoutBytes ∧
    p.Sends (before ++ after).flatten

/-- サーバーへの応答の列。 -/
def replies : List (List UInt8) :=
  [frameInt "SUCC" 1, frame "SUCC" p.name, frameInt "SUCC" p.size] ++
    (p.data.map fun d => frameInt "SUCC" d.2.length) ++ [frame "SUCC" p.md5]

/-- ダウンロードの作用の列 `es` と、そのうち最後のイベントの作用 `last` が、ファイルの全体を渡して終わる。 -/
structure Completed (es last : List TrzszEffect) : Prop where
  contents : (downloadChunks es).flatMap Prod.fst = p.contents
  lastOnce : ∃ before data, downloadChunks es = before ++ [(data, true)] ∧ ∀ c ∈ before, c.2 = false
  acknowledged : stdinFrames es = p.replies
  finished : .onFinished p.transferId true none ∈ last

end DownloadPlan

end IsekaiTerminal.Trzsz
