import IsekaiTerminal.Lib.Base64
import IsekaiTerminal.Trzsz.Lemmas.Download

/-!
# trzsz の転送の性質
-/

namespace IsekaiTerminal.Trzsz

open Lib

namespace TrzszTransferFsm

variable (codec : Codec)

/-- どのイベントと時間切れの列でも、転送は 1 回だけ始まり、高々 1 回終わる。ほかの転送を名指すイベントは何も変えない。
進行中の転送があればタイマーが動いており、その時間切れは転送を終えて回復へ移る。 -/
theorem transfer_lifecycle :
    (∀ is, Lifecycle (new.trace codec is) ∧ (new.trace codec is).map Prod.snd = new.outputs codec is) ∧
    (∀ (s : TrzszTransferFsm) e id, e.named = some id → s.activeId ≠ some id →
      (machine codec).onEvent s e = (s, .consume)) ∧
    ∀ es c, (machine codec).Reaches initial es c → ∀ tid, c.machine.activeId = some tid →
      c.armed .transfer = true ∧
      (machine codec).onTimeout c.machine .transfer = ({ c.machine with state := .recovering, tailBuf := [] },
        .emit [.sendStdin [0x03], .onFinished tid false (some "Transfer timeout")]) := by
  refine ⟨?_, ?_, ?_⟩
  · intro is
    exact ⟨lifecycle_of_traced (traced_trace is), trace_effects codec new is⟩
  · intro s e id hnamed hid
    exact onEvent_of_named hnamed hid
  · intro es c hreaches tid hid
    refine ⟨armed_of_reaches hreaches ?_, onTimeout_active hid⟩
    rw [hid]
    exact Option.some_ne_none tid

/-! ## アップロード -/

variable {codec}

/-- どの時点までの列でも、アプリのチャンクは 1 回ずつ順に送られ、MD5 は全体のものである。 -/
theorem upload_exact {p : UploadPlan} (hp : p.Marked) {before : List TrzszInput} {buffered : List UInt8}
    (hwaiting : (new.run codec before).state = .waitingKotlin p.transferId .upload buffered)
    {events : List TrzszEvent} (hfeeds : ∀ e ∈ events, p.Feeds e)
    (hchunks : events.filterMap (·.chunk) <+: p.chunks) :
    p.Output codec (frameTypes (buffered ++ events.flatMap (·.stdout)))
      ((new.run codec before).effectsOf codec p.transferId ((p.accept :: events).map .event)) := by
  have hactive : (new.run codec before).activeId = some p.transferId := by rw [activeId, hwaiting]
  rw [List.map_cons, effectsOf_cons]
  exact uploading_run hp (uploading_accept hp hwaiting ((traced_trace before).active p.transferId hactive).1) hfeeds hchunks

/-- zlib の結果の見本。 -/
def zlibSamples : List (List UInt8 × List UInt8) :=
  [([], [120, 156, 3, 0, 0, 0, 0, 1]),
    (utf8 "a", [120, 156, 75, 4, 0, 0, 98, 0, 98]),
    (utf8 "b", [120, 156, 75, 2, 0, 0, 99, 0, 99]),
    (utf8 "ab", [120, 156, 75, 76, 2, 0, 1, 38, 0, 196]),
    (utf8 "a.txt", [120, 156, 75, 212, 43, 169, 40, 1, 0, 5, 98, 1, 240]),
    ([24, 126, 244, 67, 97, 34, 209, 204, 47, 64, 220, 43, 146, 240, 235, 160],
      [120, 156, 147, 168, 251, 226, 156, 168, 116, 241, 140, 190, 195, 29, 237, 73, 31, 94, 47, 0, 0, 63, 206, 8, 113])]

/-- MD5 の結果の見本。 -/
def md5Samples : List (List UInt8 × List UInt8) :=
  [(utf8 "ab", [24, 126, 244, 67, 97, 34, 209, 204, 47, 64, 220, 43, 146, 240, 235, 160])]

/-- 見本の入力では、実際の zlib と MD5 と同じ結果を返す。 -/
def sampleCodec : Codec where
  base64Encode bytes := String.ofList (Base64.encode bytes)
  base64Decode s := Base64.decode s.toList
  zlibCompress bytes := (zlibSamples.lookup bytes).getD bytes
  zlibDecompress bytes := (zlibSamples.find? (·.2 = bytes)).map Prod.fst
  md5 bytes := (md5Samples.lookup bytes).getD []

def samplePlan : UploadPlan :=
  { transferId := transferIdOf 0, fileName := "a.txt", fileSize := 2, chunks := [(utf8 "a", false), (utf8 "b", true)] }

/-- 1 つ目のチャンクを溜めてから送り、最後のチャンクの確認の後に MD5 を送る。 -/
def sampleFeed : List TrzszEvent :=
  [.kotlinChunk (transferIdOf 0) (utf8 "a") false, .stdoutBytes (utf8 "#CFG:x\n#SUCC:1\n#SUCC:x\n#SU"),
    .stdoutBytes (utf8 "CC:2\n#SUCC:1\n"), .kotlinChunk (transferIdOf 0) (utf8 "b") true,
    .stdoutBytes (utf8 "#SUCC:1\n#SUCC:x\n")]

def sampleRequest : List TrzszInput := [.event (.stdoutBytes (utf8 "::TRZSZ:TRANSFER:R:1.1.5:1\n"))]

theorem upload_exact_sample :
    samplePlan.Output sampleCodec (frameTypes ([] ++ sampleFeed.flatMap (·.stdout)))
      ((new.run sampleCodec sampleRequest).effectsOf sampleCodec samplePlan.transferId
        ((samplePlan.accept :: sampleFeed).map .event)) ∧
    stdinFrames ((new.run sampleCodec sampleRequest).effectsOf sampleCodec samplePlan.transferId
      ((samplePlan.accept :: sampleFeed).map .event)) = samplePlan.frames sampleCodec := by
  refine ⟨upload_exact ⟨[(utf8 "a", false)], utf8 "b", rfl, by decide⟩ (by decide +kernel) ?_ (by decide), by decide +kernel⟩
  intro e he
  fin_cases he <;> first | exact trivial | rfl

/-! ## ダウンロード -/

/-- 計画どおりのサーバーからのダウンロードが、全体を渡し、DATA ごとに確認を送り、MD5 を受け取ったところで終わるのは、
最後の DATA が空でないときである。 -/
theorem download_completed_iff {p : DownloadPlan} (hp : p.Conforms codec) {s : TrzszTransferFsm}
    (hwaiting : s.state = .waitingKotlin p.transferId .download []) {events : List TrzszEvent} {e : TrzszEvent}
    (hdelivers : p.Delivers (events ++ [e])) (hunfinished : ¬ p.Delivers events) :
    p.Completed (s.outputs codec ((events ++ [e]).map .event))
        ((s.run codec (events.map .event)).apply codec (.event e)).2 ↔
      ∃ d, p.data.getLast? = some d ∧ d.2 ≠ [] := by
  refine completed_iff hp (finale_of_delivers hp hwaiting hdelivers hunfinished) fun effect hmem => ?_
  rw [List.map_append, List.map_singleton, outputs_concat]
  exact List.mem_append_right _ hmem

def downloadRequest : List TrzszInput := [.event (.stdoutBytes (utf8 "::TRZSZ:TRANSFER:S:1.1.5:1\n"))]

/-- 1 バイトのファイル。 -/
def oneBytePlan : DownloadPlan :=
  { transferId := transferIdOf 0, cfg := "x", name := "x", size := 1,
    data := [(sampleCodec.encodeBytes (utf8 "a"), utf8 "a")], md5 := "x" }

def oneByteLines : List (List UInt8) :=
  [utf8 "#CFG:x", utf8 "#NUM:1\r", utf8 "#NAME:x", utf8 "#SIZE:1", utf8 ("#DATA:" ++ sampleCodec.encodeBytes (utf8 "a")),
    utf8 "junk#MD5:x"]

theorem download_completed_oneByte :
    oneBytePlan.Completed
      ((new.run sampleCodec downloadRequest).outputs sampleCodec
        ([.stdoutBytes (oneByteLines.flatMap (· ++ [newline])), oneBytePlan.accept].map .event))
      (((new.run sampleCodec downloadRequest).run sampleCodec
        ([.stdoutBytes (oneByteLines.flatMap (· ++ [newline]))].map .event)).apply sampleCodec (.event oneBytePlan.accept)).2 := by
  have hconforms : oneBytePlan.Conforms sampleCodec := ⟨by decide, by decide +kernel, by decide +kernel, by decide⟩
  have hframes : List.Forall₂ IsFrame oneByteLines oneBytePlan.frames := by decide +kernel
  have hdelivers : oneBytePlan.Delivers ([.stdoutBytes (oneByteLines.flatMap (· ++ [newline]))] ++ [oneBytePlan.accept]) :=
    ⟨[oneByteLines.flatMap (· ++ [newline])], [], rfl, oneByteLines, by simp, hframes⟩
  have hunfinished : ¬ oneBytePlan.Delivers [.stdoutBytes (oneByteLines.flatMap (· ++ [newline]))] := by
    rintro ⟨before, after, heq, _⟩
    have hmem : oneBytePlan.accept ∈ [TrzszEvent.stdoutBytes (oneByteLines.flatMap (· ++ [newline]))] := by
      rw [heq]
      simp
    cases List.mem_singleton.mp hmem
  exact (download_completed_iff hconforms (by decide +kernel) hdelivers hunfinished).mpr ⟨_, rfl, by decide +kernel⟩

def emptyPlan : DownloadPlan :=
  { transferId := transferIdOf 0, cfg := "x", name := "x", size := 0, data := [], md5 := "x" }

def emptyLines : List (List UInt8) := [utf8 "#CFG:x", utf8 "#NUM:1", utf8 "#NAME:x", utf8 "#SIZE:0", utf8 "#MD5:x"]

/-- 空のファイルでは、MD5 を読み飛ばすので終わらない。 -/
theorem not_download_completed_empty :
    emptyPlan.Conforms sampleCodec ∧
      emptyPlan.Delivers [emptyPlan.accept, .stdoutBytes (emptyLines.flatMap (· ++ [newline]))] ∧
      ¬ emptyPlan.Completed
        ((new.run sampleCodec downloadRequest).outputs sampleCodec
          ([emptyPlan.accept, .stdoutBytes (emptyLines.flatMap (· ++ [newline]))].map .event))
        (((new.run sampleCodec downloadRequest).run sampleCodec ([emptyPlan.accept].map .event)).apply sampleCodec
          (.event (.stdoutBytes (emptyLines.flatMap (· ++ [newline]))))).2 := by
  refine ⟨⟨by decide, by decide, rfl, fun _ => rfl⟩, ?_, fun h => ?_⟩
  · exact ⟨[], [emptyLines.flatMap (· ++ [newline])], rfl, emptyLines, by simp, by decide +kernel⟩
  · exact absurd h.finished (by decide +kernel)

end TrzszTransferFsm

end IsekaiTerminal.Trzsz
