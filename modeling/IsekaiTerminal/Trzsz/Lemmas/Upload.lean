import IsekaiTerminal.Trzsz.Lemmas.Lifecycle

/-!
# 行のループについての補題

行への分割は、バイト列の切り方によらない。
-/

namespace IsekaiTerminal.Trzsz

/-! ## 行への分割 -/

@[simp] theorem splitLines_nil : splitLines [] = ([], []) := rfl

theorem splitLines_newline (bs : List UInt8) :
    splitLines (newline :: bs) = ([] :: (splitLines bs).1, (splitLines bs).2) := by
  rw [splitLines, if_pos rfl]

/-- 残りのバイト列に続きを足して分割すると、全体の分割の続きになる。 -/
theorem splitLines_append (as bs : List UInt8) :
    splitLines (as ++ bs) = ((splitLines as).1 ++ (splitLines ((splitLines as).2 ++ bs)).1,
      (splitLines ((splitLines as).2 ++ bs)).2) := by
  induction as with
  | nil => simp
  | cons a as ih =>
      rw [List.cons_append]
      by_cases ha : a = newline
      · simp only [splitLines, if_pos ha, ih, List.cons_append]
      · cases hlines : (splitLines as).1 with
        | nil => simp only [splitLines, if_neg ha, ih, hlines, List.nil_append, List.cons_append]
        | cons line lines => simp only [splitLines, if_neg ha, ih, hlines, List.cons_append]

def lineType (line : List UInt8) : Option String := (parseLine (stripCr line)).map Prod.fst

theorem frameTypes_eq (bytes : List UInt8) : frameTypes bytes = (splitLines bytes).1.filterMap lineType := rfl

theorem frameTypes_append (as bs : List UInt8) :
    frameTypes (as ++ bs) = frameTypes as ++ frameTypes ((splitLines as).2 ++ bs) := by
  rw [frameTypes, splitLines_append, List.filterMap_append]
  rfl

/-!
## アップロードについての補題

段階ごとに、渡されたチャンクと送ったフレームの関係を定め、1 行の処理とチャンクの受け取りがそれを保つことを示す。
-/

section

open Lib

/-! ## 列の分割 -/

section

variable {α : Type} {l l' before after : List α} {a x : α}

theorem split_concat (h : l ++ [a] = before ++ x :: after) :
    (before = l ∧ x = a) ∨ ∃ after', l = before ++ x :: after' := by
  rcases List.eq_nil_or_concat after with rfl | ⟨after', b, rfl⟩
  · obtain ⟨hbefore, hx⟩ := List.append_inj' h rfl
    exact .inl ⟨hbefore.symm, (List.singleton_inj.mp hx).symm⟩
  · have hassoc : l ++ [a] = (before ++ x :: after') ++ [b] := by simpa using h
    exact .inr ⟨after', (List.append_inj' hassoc rfl).1⟩

theorem split_append_of_notMem (hx : x ∉ l') (h : l ++ l' = before ++ x :: after) :
    ∃ after', l = before ++ x :: after' := by
  rcases List.append_eq_append_iff.mp h with ⟨rest, rfl, hl'⟩ | ⟨rest, rfl, hrest⟩
  · rw [hl'] at hx
    exact absurd (List.mem_append_right _ List.mem_cons_self) hx
  · cases rest with
    | nil =>
        rw [List.nil_append] at hrest
        exact absurd (hrest ▸ List.mem_cons_self) hx
    | cons y rest =>
        obtain ⟨rfl, _⟩ := List.cons.inj hrest
        exact ⟨rest, rfl⟩

end

/-! ## 作用の列 -/

@[simp] theorem stdinFrames_nil : stdinFrames [] = [] := rfl

@[simp] theorem stdinFrames_append (es es' : List TrzszEffect) :
    stdinFrames (es ++ es') = stdinFrames es ++ stdinFrames es' := List.filterMap_append

@[simp] theorem stdinFrames_send (frames : List (List UInt8)) :
    stdinFrames (frames.map TrzszEffect.sendStdin) = frames := by
  induction frames with
  | nil => rfl
  | cons f frames ih => exact congrArg (f :: ·) ih

@[simp] theorem stdinFrames_progress (id : String) (transferred : Nat) (total : Option Nat) :
    stdinFrames [.onProgress id transferred total] = [] := rfl

@[simp] theorem stdinFrames_finished (id : String) (ok : Bool) (message : Option String) :
    stdinFrames [.onFinished id ok message] = [] := rfl

@[simp] theorem progresses_append (es es' : List TrzszEffect) :
    progresses (es ++ es') = progresses es ++ progresses es' := List.filterMap_append

@[simp] theorem progresses_send (frames : List (List UInt8)) :
    progresses (frames.map TrzszEffect.sendStdin) = [] := by
  induction frames with
  | nil => rfl
  | cons f frames ih => exact ih

@[simp] theorem progresses_progress (id : String) (transferred : Nat) (total : Option Nat) :
    progresses [.onProgress id transferred total] = [transferred] := rfl

@[simp] theorem progresses_finished (id : String) (ok : Bool) (message : Option String) :
    progresses [.onFinished id ok message] = [] := rfl

@[simp] theorem TrzszEvent.chunk_stdoutBytes (bytes : List UInt8) : (TrzszEvent.stdoutBytes bytes).chunk = none := rfl

@[simp] theorem TrzszEvent.chunk_kotlinChunk (id : String) (data : List UInt8) (isLast : Bool) :
    (TrzszEvent.kotlinChunk id data isLast).chunk = some (data, isLast) := rfl

@[simp] theorem TrzszEvent.stdout_kotlinChunk (id : String) (data : List UInt8) (isLast : Bool) :
    (TrzszEvent.kotlinChunk id data isLast).stdout = [] := rfl

/-! ## 計画 -/

namespace UploadPlan

variable {codec : Codec} {p : UploadPlan} {given : List Chunk} {types types' : List String} {es : List TrzszEffect}

theorem length_frames : (p.frames codec).length = 4 + p.chunks.length := by
  simp [frames, header, dataFrames]
  omega

/-- 渡されたチャンクの DATA までは、送る列の真の接頭辞である。 -/
theorem frames_of_given {rest : List Chunk} (hgiven : given ++ rest = p.chunks) :
    p.frames codec = p.header codec ++ dataFrames codec given ++
      (dataFrames codec rest ++ [frameBin codec "MD5" (codec.md5 (contents p.chunks))]) := by
  rw [frames, ← hgiven]
  simp [dataFrames]

theorem data_prefix (hgiven : given <+: p.chunks) :
    p.header codec ++ dataFrames codec given <+: p.frames codec := by
  obtain ⟨rest, hrest⟩ := hgiven
  exact ⟨_, (frames_of_given hrest).symm⟩

theorem data_ne_frames (hgiven : given <+: p.chunks) :
    p.header codec ++ dataFrames codec given ≠ p.frames codec := by
  intro h
  have hlength := congrArg List.length h
  rw [length_frames, List.length_append, header, dataFrames, List.length_map] at hlength
  have hle := hgiven.length_le
  simp only [List.length_cons, List.length_nil] at hlength
  omega

/-- 渡されたチャンクを送ったところまでの、ファイルのバイト数。 -/
theorem sentLength_data (hgiven : given <+: p.chunks) :
    p.sentLength (p.header codec ++ dataFrames codec given).length = (contents given).length := by
  have hk : (p.header codec ++ dataFrames codec given).length - 3 = given.length := by
    simp [header, dataFrames]
  rw [sentLength, hk, ← List.prefix_iff_eq_take.mp hgiven]

/-- `is_last` のチャンクが確認されるのは、すべてのチャンクが渡された後である。 -/
theorem given_of_last (hp : p.Marked) {acked rest : List Chunk} {data : List UInt8}
    (hgiven : acked ++ (data, true) :: rest <+: p.chunks) :
    rest = [] ∧ acked ++ [(data, true)] = p.chunks := by
  obtain ⟨before, last, hchunks, hbefore⟩ := hp
  obtain ⟨later, hlater⟩ := hgiven
  have hsplit : before ++ [(last, true)] = acked ++ (data, true) :: (rest ++ later) := by
    rw [← hchunks, ← hlater]
    simp
  rcases split_concat hsplit with ⟨rfl, hdata⟩ | ⟨after, hafter⟩
  · have hnil : rest ++ later = [] := by
      rw [← hdata] at hsplit
      exact (List.cons.inj (List.append_cancel_left hsplit)).2.symm
    obtain ⟨hrest, _⟩ := List.append_eq_nil_iff.mp hnil
    exact ⟨hrest, by rw [hchunks, hdata]⟩
  · have hfalse := hbefore (data, true) (hafter ▸ List.mem_append_right _ List.mem_cons_self)
    cases hfalse

namespace Output

theorem nil : p.Output codec [] [] where
  framesInOrder := List.nil_prefix
  dataAfterHandshake h := by simp at h
  digestAfterAcks h := by
    have hlength := congrArg List.length h
    rw [length_frames, stdinFrames_nil, List.length_nil] at hlength
    omega
  progressMonotone := List.Pairwise.nil
  progressBounded _ _ _ _ _ h := by simp at h
  finishAfterDigest _ _ _ _ h := by simp at h

theorem mono (h : p.Output codec types es) (htypes : types.Sublist types') : p.Output codec types' es :=
  { h with
    dataAfterHandshake := fun hlength => (h.dataAfterHandshake hlength).trans htypes
    digestAfterAcks := fun hframes => (h.digestAfterAcks hframes).trans htypes }

theorem send (h : p.Output codec types es) {frames : List (List UInt8)}
    (hsent : stdinFrames es ++ frames <+: p.frames codec)
    (hdata : 3 < (stdinFrames es ++ frames).length → ["CFG", "SUCC", "SUCC", "SUCC"].Sublist types)
    (hdigest : stdinFrames es ++ frames = p.frames codec →
      ("CFG" :: List.replicate (3 + p.chunks.length) "SUCC").Sublist types) :
    p.Output codec types (es ++ frames.map .sendStdin) where
  framesInOrder := by rwa [stdinFrames_append, stdinFrames_send]
  dataAfterHandshake := by rwa [stdinFrames_append, stdinFrames_send]
  digestAfterAcks := by rwa [stdinFrames_append, stdinFrames_send]
  progressMonotone := by
    rw [progresses_append, progresses_send, List.append_nil]
    exact h.progressMonotone
  progressBounded before id transferred total after hsplit := by
    obtain ⟨after', hes⟩ := split_append_of_notMem (by simp) hsplit
    exact h.progressBounded before id transferred total after' hes
  finishAfterDigest before id message after hsplit := by
    obtain ⟨after', hes⟩ := split_append_of_notMem (by simp) hsplit
    exact h.finishAfterDigest before id message after' hes

theorem progress (h : p.Output codec types es) {transferred : Nat} (hmono : ∀ v ∈ progresses es, v ≤ transferred)
    (hbound : transferred ≤ p.sentLength (stdinFrames es).length) (id : String) (total : Option Nat) :
    p.Output codec types (es ++ [.onProgress id transferred total]) where
  framesInOrder := by rw [stdinFrames_append, stdinFrames_progress, List.append_nil]; exact h.framesInOrder
  dataAfterHandshake := by rw [stdinFrames_append, stdinFrames_progress, List.append_nil]; exact h.dataAfterHandshake
  digestAfterAcks := by rw [stdinFrames_append, stdinFrames_progress, List.append_nil]; exact h.digestAfterAcks
  progressMonotone := by
    rw [progresses_append, progresses_progress]
    refine List.pairwise_append.mpr ⟨h.progressMonotone, List.pairwise_singleton _ _, ?_⟩
    intro v hv w hw
    rw [List.mem_singleton.mp hw]
    exact hmono v hv
  progressBounded before id' transferred' total' after hsplit := by
    rcases split_concat hsplit with ⟨rfl, heq⟩ | ⟨after', hes⟩
    · cases heq
      exact hbound
    · exact h.progressBounded before id' transferred' total' after' hes
  finishAfterDigest before id' message after hsplit := by
    obtain ⟨after', hes⟩ := split_append_of_notMem (by simp) hsplit
    exact h.finishAfterDigest before id' message after' hes

theorem finish (h : p.Output codec types es) {ok : Bool} (hok : ok = true → stdinFrames es = p.frames codec)
    (id : String) (message : Option String) : p.Output codec types (es ++ [.onFinished id ok message]) where
  framesInOrder := by rw [stdinFrames_append, stdinFrames_finished, List.append_nil]; exact h.framesInOrder
  dataAfterHandshake := by rw [stdinFrames_append, stdinFrames_finished, List.append_nil]; exact h.dataAfterHandshake
  digestAfterAcks := by rw [stdinFrames_append, stdinFrames_finished, List.append_nil]; exact h.digestAfterAcks
  progressMonotone := by
    rw [progresses_append, progresses_finished, List.append_nil]
    exact h.progressMonotone
  progressBounded before id' transferred total after hsplit := by
    obtain ⟨after', hes⟩ := split_append_of_notMem (by simp) hsplit
    exact h.progressBounded before id' transferred total after' hes
  finishAfterDigest before id' message' after hsplit := by
    rcases split_concat hsplit with ⟨rfl, heq⟩ | ⟨after', hes⟩
    · cases heq
      exact hok rfl
    · exact h.finishAfterDigest before id' message' after' hes

end Output

/-! ## 段階 -/

/-- `SendingData` に着くまで、チャンクは溜めておく。 -/
structure Held (given : List Chunk) (u : Upload) (transferred : Nat) : Prop where
  unsent : u.unsent = given
  pending : u.pending = []
  md5Ctx : u.md5Ctx = []
  transferred : transferred = 0

/-- 数えた確認の数。 -/
def acks : UploadStep → Nat
  | .waitNameAck => 1
  | .waitSizeAck => 2
  | _ => 0

/-- 送ったフレーム `frames` と、アップロードの段階の関係。 -/
inductive Stage (codec : Codec) (p : UploadPlan) (given : List Chunk) (types : List String) (u : Upload)
    (transferred : Nat) (frames : List (List UInt8)) : Prop
  | waitCfg : u.step = .waitCfg → Held given u transferred → frames = [] → Stage codec p given types u transferred frames
  | handshake : u.step = .waitNumAck ∨ u.step = .waitNameAck ∨ u.step = .waitSizeAck → Held given u transferred →
      frames = p.header codec → ("CFG" :: List.replicate (acks u.step) "SUCC").Sublist types →
      Stage codec p given types u transferred frames
  | sendingData (acked rest : List Chunk) : u.step = .sendingData → given = acked ++ rest →
      u.pending = rest.map (fun c => (c.1.length, c.2)) → u.unsent = [] → u.md5Ctx = contents given →
      transferred = (contents acked).length → frames = p.header codec ++ dataFrames codec given →
      ("CFG" :: List.replicate (3 + acked.length) "SUCC").Sublist types → Stage codec p given types u transferred frames
  | waitMd5Ack : u.step = .waitMd5Ack → given = p.chunks → frames = p.frames codec →
      Stage codec p given types u transferred frames

theorem Stage.mono {u : Upload} {transferred : Nat} {frames : List (List UInt8)}
    (h : Stage codec p given types u transferred frames) (htypes : types.Sublist types') :
    Stage codec p given types' u transferred frames := by
  cases h with
  | waitCfg hstep hheld hframes => exact .waitCfg hstep hheld hframes
  | handshake hstep hheld hframes hacks => exact .handshake hstep hheld hframes (hacks.trans htypes)
  | sendingData acked rest hstep hgiven hpending hunsent hmd5 htransferred hframes hacks =>
      exact .sendingData acked rest hstep hgiven hpending hunsent hmd5 htransferred hframes (hacks.trans htypes)
  | waitMd5Ack hstep hgiven hframes => exact .waitMd5Ack hstep hgiven hframes

/-- 進行中のアップロード。 -/
structure Sending (codec : Codec) (p : UploadPlan) (given : List Chunk) (types : List String) (t : Transfer) (u : Upload)
    (es : List TrzszEffect) : Prop where
  transferId : t.transferId = p.transferId
  phase : t.phase = .upload u
  file : u.fileName = p.fileName ∧ u.fileSize = p.fileSize
  within : given <+: p.chunks
  output : p.Output codec types es
  counted : ∀ v ∈ progresses es, v ≤ t.transferred
  stage : Stage codec p given types u t.transferred (stdinFrames es)

/-- 1 行の処理の後。 -/
def After (codec : Codec) (p : UploadPlan) (given : List Chunk) (types : List String) (es : List TrzszEffect)
    (r : LineResult) : Prop :=
  match r.terminal with
  | none => ∃ u, Sending codec p given types r.transfer u (es ++ r.effects)
  | some _ => p.Output codec types (es ++ r.effects)

namespace Sending

variable {t : Transfer} {u : Upload}

theorem mono (h : Sending codec p given types t u es) (htypes : types.Sublist types') :
    Sending codec p given types' t u es :=
  { h with output := h.output.mono htypes, stage := h.stage.mono htypes }

/-- 待っていない型の行は、何も変えない。 -/
theorem ignored (h : Sending codec p given types t u es) (typ : String) :
    After codec p given (types ++ [typ]) es (t.stay []) := by
  refine ⟨u, ?_⟩
  rw [Transfer.stay, List.append_nil]
  exact h.mono (List.sublist_append_left _ _)

theorem acks_concat {n : Nat} (h : ("CFG" :: List.replicate n "SUCC").Sublist types) :
    ("CFG" :: List.replicate (n + 1) "SUCC").Sublist (types ++ ["SUCC"]) := by
  rw [List.replicate_succ', ← List.cons_append]
  exact h.append (List.Sublist.refl _)

/-- CFG に、NUM と NAME と SIZE を返す。 -/
theorem onCfg (h : Sending codec p given types t u es) (hheld : Held given u t.transferred)
    (hframes : stdinFrames es = []) :
    Sending codec p given (types ++ ["CFG"]) { t with phase := .upload { u with step := .waitNumAck } }
      { u with step := .waitNumAck } (es ++ [.sendStdin (frameInt "NUM" 1),
        .sendStdin (frameBin codec "NAME" (utf8 u.fileName)), .sendStdin (frameInt "SIZE" u.fileSize)]) := by
  have hsend : [.sendStdin (frameInt "NUM" 1), .sendStdin (frameBin codec "NAME" (utf8 u.fileName)),
      .sendStdin (frameInt "SIZE" u.fileSize)] = (p.header codec).map TrzszEffect.sendStdin := by
    rw [header, h.file.1, h.file.2]
    rfl
  have hafter : stdinFrames es ++ p.header codec = p.header codec := by rw [hframes, List.nil_append]
  have hheader : (p.header codec).length = 3 := rfl
  have htypes : types.Sublist (types ++ ["CFG"]) := List.sublist_append_left _ _
  rw [hsend]
  refine ⟨h.transferId, rfl, h.file, h.within, (h.output.mono htypes).send ?_ ?_ ?_, ?_, ?_⟩
  · rw [hafter, frames, List.append_assoc]
    exact List.prefix_append _ _
  · intro hlength
    rw [hafter, hheader] at hlength
    omega
  · intro heq
    have hlength := congrArg List.length heq
    rw [hafter, hheader, length_frames] at hlength
    omega
  · rw [progresses_append, progresses_send, List.append_nil]
    exact h.counted
  · rw [stdinFrames_append, stdinFrames_send, hafter]
    exact .handshake (.inl rfl) ⟨hheld.unsent, hheld.pending, hheld.md5Ctx, hheld.transferred⟩ rfl
      (List.sublist_append_right types ["CFG"])

/-- NUM と NAME への確認を数える。 -/
theorem onAck (h : Sending codec p given types t u es) (hheld : Held given u t.transferred)
    (hframes : stdinFrames es = p.header codec) {step : UploadStep} (hstep : step = .waitNameAck ∨ step = .waitSizeAck)
    (hacks : ("CFG" :: List.replicate (acks step) "SUCC").Sublist (types ++ ["SUCC"])) :
    Sending codec p given (types ++ ["SUCC"]) { t with phase := .upload { u with step } } { u with step }
      (es ++ []) := by
  rw [List.append_nil]
  exact ⟨h.transferId, rfl, h.file, h.within, h.output.mono (List.sublist_append_left _ _), h.counted,
    .handshake (.inr hstep) ⟨hheld.unsent, hheld.pending, hheld.md5Ctx, hheld.transferred⟩ hframes hacks⟩

theorem handshake_of_acks {n : Nat} (h : ("CFG" :: List.replicate (3 + n) "SUCC").Sublist types) :
    ["CFG", "SUCC", "SUCC", "SUCC"].Sublist types := by
  refine List.Sublist.trans ?_ h
  rw [List.replicate_add]
  exact List.sublist_append_left ("CFG" :: List.replicate 3 "SUCC") _

/-- SIZE への確認で、溜めたチャンクをすべて送る。 -/
theorem onSizeAck (h : Sending codec p given types t u es) (hheld : Held given u t.transferred)
    (hframes : stdinFrames es = p.header codec)
    (hacks : ("CFG" :: List.replicate 2 "SUCC").Sublist types) :
    Sending codec p given (types ++ ["SUCC"])
      { t with phase := .upload { Transfer.flushUnsent u with step := .sendingData } }
      { Transfer.flushUnsent u with step := .sendingData }
      (es ++ (t.progress :: u.unsent.map fun c : List UInt8 × Bool => Transfer.dataFrame codec c.1)) := by
  have hacks' : ("CFG" :: List.replicate 3 "SUCC").Sublist (types ++ ["SUCC"]) := acks_concat hacks
  have hsend : (u.unsent.map fun c : List UInt8 × Bool => Transfer.dataFrame codec c.1) =
      (dataFrames codec given).map TrzszEffect.sendStdin := by
    rw [hheld.unsent, dataFrames, List.map_map]
    rfl
  have hprogress : p.Output codec (types ++ ["SUCC"]) (es ++ [t.progress]) := by
    refine (h.output.mono (List.sublist_append_left _ _)).progress h.counted ?_ _ _
    rw [hheld.transferred]
    exact Nat.zero_le _
  have hstdin : stdinFrames (es ++ [t.progress]) = p.header codec := by
    rw [stdinFrames_append, Transfer.progress, stdinFrames_progress, List.append_nil, hframes]
  rw [hsend, List.append_cons es]
  refine ⟨h.transferId, rfl, h.file, h.within, hprogress.send ?_ ?_ ?_, ?_, ?_⟩
  · rw [hstdin]
    exact data_prefix h.within
  · exact fun _ => hacks'
  · intro heq
    rw [hstdin] at heq
    exact absurd heq (data_ne_frames h.within)
  · rw [progresses_append, progresses_send, List.append_nil, progresses_append]
    intro v hv
    rcases List.mem_append.mp hv with hv | hv
    · exact h.counted v hv
    · rw [Transfer.progress, progresses_progress, List.mem_singleton] at hv
      exact hv.le
  · rw [stdinFrames_append, stdinFrames_send, hstdin]
    refine .sendingData [] given rfl rfl ?_ rfl ?_ ?_ rfl hacks'
    · simp [Transfer.flushUnsent, hheld.pending, hheld.unsent]
    · simp [Transfer.flushUnsent, hheld.md5Ctx, hheld.unsent, contents]
    · exact hheld.transferred

/-- DATA への確認を 1 つ数える。 -/
theorem onDataAck (h : Sending codec p given types t u es) {acked rest : List Chunk} {data : List UInt8}
    (hgiven : given = acked ++ (data, false) :: rest) (hunsent : u.unsent = [])
    (hmd5 : u.md5Ctx = contents given) (htransferred : t.transferred = (contents acked).length)
    (hframes : stdinFrames es = p.header codec ++ dataFrames codec given)
    (hacks : ("CFG" :: List.replicate (3 + acked.length) "SUCC").Sublist types) :
    Sending codec p given (types ++ ["SUCC"])
      { t with
        transferred := t.transferred + data.length
        phase := .upload { u with step := .sendingData, pending := rest.map fun c => (c.1.length, c.2) } }
      { u with step := .sendingData, pending := rest.map fun c => (c.1.length, c.2) }
      (es ++ [{ t with transferred := t.transferred + data.length }.progress]) := by
  have hcontents : t.transferred + data.length = (contents (acked ++ [(data, false)])).length := by
    rw [htransferred, contents, contents, List.flatMap_append, List.length_append]
    simp
  have hbound : t.transferred + data.length ≤ p.sentLength (stdinFrames es).length := by
    rw [hframes, sentLength_data h.within, hcontents, hgiven, List.append_cons acked (data, false) rest]
    exact ((List.prefix_append _ _).flatMap _).length_le
  have hcounted : ∀ v ∈ progresses es, v ≤ t.transferred + data.length :=
    fun v hv => (h.counted v hv).trans (Nat.le_add_right _ _)
  refine ⟨h.transferId, rfl, h.file, h.within, ?_, ?_, ?_⟩
  · exact (h.output.mono (List.sublist_append_left _ _)).progress hcounted hbound _ _
  · rw [progresses_append]
    intro v hv
    rcases List.mem_append.mp hv with hv | hv
    · exact hcounted v hv
    · rw [Transfer.progress, progresses_progress, List.mem_singleton] at hv
      exact hv.le
  · rw [stdinFrames_append, Transfer.progress, stdinFrames_progress, List.append_nil]
    refine .sendingData (acked ++ [(data, false)]) rest rfl ?_ rfl hunsent hmd5 hcontents hframes ?_
    · rw [hgiven, List.append_cons]
    · rw [List.length_append, List.length_singleton, ← Nat.add_assoc]
      exact acks_concat hacks

/-- 最後の DATA への確認で、MD5 を送る。 -/
theorem onLastAck (hp : p.Marked) (h : Sending codec p given types t u es) {acked rest : List Chunk} {data : List UInt8}
    (hgiven : given = acked ++ (data, true) :: rest)
    (hmd5 : u.md5Ctx = contents given) (htransferred : t.transferred = (contents acked).length)
    (hframes : stdinFrames es = p.header codec ++ dataFrames codec given)
    (hacks : ("CFG" :: List.replicate (3 + acked.length) "SUCC").Sublist types) (pending : List (Nat × Bool)) :
    Sending codec p given (types ++ ["SUCC"])
      { t with
        transferred := t.transferred + data.length
        phase := .upload { u with pending, step := .waitMd5Ack } }
      { u with pending, step := .waitMd5Ack }
      (es ++ [{ t with transferred := t.transferred + data.length }.progress,
        .sendStdin (frameBin codec "MD5" (codec.md5 u.md5Ctx))]) := by
  obtain ⟨rfl, hchunks⟩ := given_of_last hp (hgiven ▸ h.within)
  have hall : given = p.chunks := hgiven.trans hchunks
  have hcontents : t.transferred + data.length = (contents given).length := by
    rw [htransferred, hgiven, contents, contents, List.flatMap_append, List.length_append]
    simp
  have hcounted : ∀ v ∈ progresses es, v ≤ t.transferred + data.length :=
    fun v hv => (h.counted v hv).trans (Nat.le_add_right _ _)
  have hacks' : ("CFG" :: List.replicate (3 + p.chunks.length) "SUCC").Sublist (types ++ ["SUCC"]) := by
    rw [← hchunks, List.length_append, List.length_singleton, ← Nat.add_assoc]
    exact acks_concat hacks
  have hfull : stdinFrames es ++ [frameBin codec "MD5" (codec.md5 u.md5Ctx)] = p.frames codec := by
    rw [hframes, hmd5, hall, frames]
  have hprogress : p.Output codec (types ++ ["SUCC"])
      (es ++ [{ t with transferred := t.transferred + data.length }.progress]) := by
    refine (h.output.mono (List.sublist_append_left _ _)).progress hcounted ?_ _ _
    rw [hframes, sentLength_data h.within, hcontents]
  have hstdin : stdinFrames (es ++ [{ t with transferred := t.transferred + data.length }.progress]) =
      stdinFrames es := by
    rw [stdinFrames_append, Transfer.progress, stdinFrames_progress, List.append_nil]
  have hsent : p.Output codec (types ++ ["SUCC"])
      (es ++ [{ t with transferred := t.transferred + data.length }.progress] ++
        [frameBin codec "MD5" (codec.md5 u.md5Ctx)].map .sendStdin) := by
    refine hprogress.send ?_ (fun _ => handshake_of_acks hacks') fun _ => hacks'
    rw [hstdin, hfull]
  rw [List.append_cons es]
  refine ⟨h.transferId, rfl, h.file, h.within, hsent, ?_, ?_⟩
  · rw [progresses_append, progresses_append]
    intro v hv
    rcases List.mem_append.mp hv with hv | hv
    · rcases List.mem_append.mp hv with hv | hv
      · exact hcounted v hv
      · rw [Transfer.progress, progresses_progress, List.mem_singleton] at hv
        exact hv.le
    · cases hv
  · rw [stdinFrames_append, hstdin]
    exact .waitMd5Ack rfl hall hfull

/-- アップロードの 1 行。 -/
theorem onUploadLine (hp : p.Marked) (h : Sending codec p given types t u es) (typ : String) :
    After codec p given (types ++ [typ]) es (t.onUploadLine codec u typ) := by
  unfold Transfer.onUploadLine
  cases h.stage with
  | waitCfg hstep hheld hframes =>
      rw [hstep]
      dsimp only
      by_cases htyp : typ = "CFG"
      · rw [if_pos htyp, htyp]
        exact ⟨_, h.onCfg hheld hframes⟩
      · rw [if_neg htyp]
        exact h.ignored typ
  | handshake hsteps hheld hframes hacks =>
      rcases hsteps with hstep | hstep | hstep
      · rw [hstep] at hacks ⊢
        dsimp only
        by_cases htyp : typ = "SUCC"
        · rw [if_pos htyp, htyp]
          exact ⟨_, h.onAck hheld hframes (.inl rfl) (acks_concat hacks)⟩
        · rw [if_neg htyp]
          exact h.ignored typ
      · rw [hstep] at hacks ⊢
        dsimp only
        by_cases htyp : typ = "SUCC"
        · rw [if_pos htyp, htyp]
          exact ⟨_, h.onAck hheld hframes (.inr rfl) (acks_concat hacks)⟩
        · rw [if_neg htyp]
          exact h.ignored typ
      · rw [hstep] at hacks ⊢
        dsimp only
        by_cases htyp : typ = "SUCC"
        · rw [if_pos htyp, htyp]
          exact ⟨_, h.onSizeAck hheld hframes hacks⟩
        · rw [if_neg htyp]
          exact h.ignored typ
  | sendingData acked rest hstep hgiven hpending hunsent hmd5 htransferred hframes hacks =>
      rw [hstep]
      dsimp only
      by_cases htyp : typ = "SUCC"
      · rw [if_pos htyp, htyp]
        cases rest with
        | nil =>
            rw [hpending]
            exact h.ignored "SUCC"
        | cons c rest =>
            obtain ⟨data, isLast⟩ := c
            rw [hpending, List.map_cons]
            dsimp only
            cases isLast with
            | false => exact ⟨_, h.onDataAck hgiven hunsent hmd5 htransferred hframes hacks⟩
            | true => exact ⟨_, h.onLastAck hp hgiven hmd5 htransferred hframes hacks _⟩
      · rw [if_neg htyp]
        exact h.ignored typ
  | waitMd5Ack hstep hgiven hframes =>
      rw [hstep]
      dsimp only
      by_cases htyp : typ = "SUCC"
      · rw [if_pos htyp]
        exact (h.output.mono (List.sublist_append_left _ _)).finish (fun _ => hframes) _ _
      · rw [if_neg htyp]
        exact h.ignored typ

theorem onFrame (hp : p.Marked) (h : Sending codec p given types t u es) (typ payload : String) :
    After codec p given (types ++ [typ]) es (t.onFrame codec typ payload) := by
  unfold Transfer.onFrame
  by_cases hfail : typ = "FAIL" ∨ typ = "fail"
  · rw [if_pos hfail]
    exact (h.output.mono (List.sublist_append_left _ _)).finish (fun hok => absurd hok Bool.false_ne_true) _ _
  · rw [if_neg hfail, h.phase]
    exact h.onUploadLine hp typ

/-! ## 行のループとチャンク -/

/-- 行のループの後。 -/
def AfterLoop (codec : Codec) (p : UploadPlan) (given : List Chunk) (types : List String) (es : List TrzszEffect)
    (rest : List UInt8) (r : LoopResult) : Prop :=
  match r.terminal with
  | none => r.transfer.protoBuf = rest ∧ ∃ u, Sending codec p given types r.transfer u (es ++ r.effects)
  | some _ => p.Output codec types (es ++ r.effects)

theorem onLines (hp : p.Marked) (h : Sending codec p given types t u es) (rest : List UInt8) (lines : List (List UInt8)) :
    AfterLoop codec p given (types ++ lines.filterMap lineType) es rest (t.loop codec rest lines) := by
  induction lines generalizing t u types es with
  | nil =>
      refine ⟨rfl, u, ?_⟩
      rw [List.filterMap_nil, List.append_nil, Transfer.loop, List.append_nil]
      exact { h with }
  | cons line lines ih =>
      cases hline : parseLine (stripCr line) with
      | none =>
          have htypes : (line :: lines).filterMap lineType = lines.filterMap lineType :=
            List.filterMap_cons_none (by rw [lineType, hline]; rfl)
          rw [htypes, Transfer.loop, hline]
          exact ih h
      | some frame =>
          obtain ⟨typ, payload⟩ := frame
          have htypes : types ++ (line :: lines).filterMap lineType =
              (types ++ [typ]) ++ lines.filterMap lineType := by
            rw [List.filterMap_cons_some (by rw [lineType, hline]; rfl), List.append_cons]
          have hafter := h.onFrame hp typ payload
          rw [htypes]
          cases hok : (t.onFrame codec typ payload).terminal with
          | some ok =>
              simp only [After, hok] at hafter
              simp only [AfterLoop, Transfer.loop, hline, hok]
              exact hafter.mono (List.sublist_append_left _ _)
          | none =>
              simp only [After, hok] at hafter
              obtain ⟨u', hu'⟩ := hafter
              have hrest := ih hu'
              simp only [AfterLoop, Transfer.loop, hline, hok, ← List.append_assoc]
              exact hrest

/-- アプリから次のチャンクを受け取る。 -/
theorem sendChunk (h : Sending codec p given types t u es) {c : Chunk} (hgiven : given ++ [c] <+: p.chunks)
    (hstep : u.step = .sendingData) :
    Sending codec p (given ++ [c]) types
      { t with phase := .upload { u with md5Ctx := u.md5Ctx ++ c.1, pending := u.pending ++ [(c.1.length, c.2)] } }
      { u with md5Ctx := u.md5Ctx ++ c.1, pending := u.pending ++ [(c.1.length, c.2)] }
      (es ++ [Transfer.dataFrame codec c.1]) := by
  cases h.stage with
  | waitCfg hstep' => rw [hstep] at hstep'; cases hstep'
  | handshake hsteps => rw [hstep] at hsteps; rcases hsteps with hstep' | hstep' | hstep' <;> cases hstep'
  | waitMd5Ack hstep' => rw [hstep] at hstep'; cases hstep'
  | sendingData acked rest _ hsplit hpending hunsent hmd5 htransferred hframes hacks =>
      have hsent : stdinFrames es ++ [frameBin codec "DATA" c.1] = p.header codec ++ dataFrames codec (given ++ [c]) := by
        rw [hframes, dataFrames, dataFrames, List.map_append, List.append_assoc]
        rfl
      have houtput : p.Output codec types (es ++ [frameBin codec "DATA" c.1].map .sendStdin) := by
        refine h.output.send ?_ (fun _ => handshake_of_acks hacks) ?_
        · rw [hsent]
          exact data_prefix hgiven
        · intro heq
          rw [hsent] at heq
          exact absurd heq (data_ne_frames hgiven)
      refine ⟨h.transferId, rfl, h.file, hgiven, houtput, ?_, ?_⟩
      · rw [progresses_append]
        exact fun v hv => h.counted v ((List.mem_append.mp hv).resolve_right (List.not_mem_nil))
      · rw [stdinFrames_append]
        refine .sendingData acked (rest ++ [c]) hstep ?_ ?_ hunsent ?_ htransferred hsent hacks
        · rw [hsplit, List.append_assoc]
        · rw [hpending, List.map_append]
          rfl
        · simp [hmd5, contents]

theorem holdChunk (h : Sending codec p given types t u es) {c : Chunk} (hgiven : given ++ [c] <+: p.chunks)
    (hstep : u.step ≠ .sendingData) :
    Sending codec p (given ++ [c]) types { t with phase := .upload { u with unsent := u.unsent ++ [c] } }
      { u with unsent := u.unsent ++ [c] } es := by
  have hheld : Held given u t.transferred → Held (given ++ [c]) { u with unsent := u.unsent ++ [c] } t.transferred :=
    fun hheld => ⟨congrArg (· ++ [c]) hheld.unsent, hheld.pending, hheld.md5Ctx, hheld.transferred⟩
  refine ⟨h.transferId, rfl, h.file, hgiven, h.output, h.counted, ?_⟩
  cases h.stage with
  | waitCfg hstep' hheld' hframes => exact .waitCfg hstep' (hheld hheld') hframes
  | handshake hsteps hheld' hframes hacks => exact .handshake hsteps (hheld hheld') hframes hacks
  | sendingData _ _ hstep' => exact absurd hstep' hstep
  | waitMd5Ack _ hall =>
      -- 最後のチャンクまで確認した後に、チャンクはもう来ない
      have hlength := hgiven.length_le
      rw [hall, List.length_append, List.length_singleton] at hlength
      omega

end Sending

end UploadPlan

/-! ## 実行 -/

namespace TrzszTransferFsm

open UploadPlan

variable {codec : Codec} {p : UploadPlan} {given : List Chunk} {stream : List UInt8} {es : List TrzszEffect}
  {s : TrzszTransferFsm}

/-- 途中のアップロード。`stream` は、それまでに届いたサーバーの出力である。 -/
inductive Uploading (codec : Codec) (p : UploadPlan) (given : List Chunk) (stream : List UInt8) (es : List TrzszEffect)
    (s : TrzszTransferFsm) : Prop
  | active (t : Transfer) (u : Upload) : s.state = .transferring t → t.protoBuf = (splitLines stream).2 →
      (∃ k < s.nextId, transferIdOf k = p.transferId) → Sending codec p given (frameTypes stream) t u es →
      Uploading codec p given stream es s
  | retired : Retired s p.transferId → p.Output codec (frameTypes stream) es → Uploading codec p given stream es s

theorem Uploading.output (h : Uploading codec p given stream es s) : p.Output codec (frameTypes stream) es := by
  cases h with
  | active t u _ _ _ hsending => exact hsending.output
  | retired _ houtput => exact houtput

theorem activeId_transferring {t : Transfer} (hstate : s.state = .transferring t) : s.activeId = some t.transferId := by
  rw [activeId, hstate]

/-- 届いていたバイト列と新しいバイト列を処理した後。 -/
theorem uploading_receive (hp : p.Marked) {t : Transfer} {u : Upload} {types : List String} {bytes stream' : List UInt8}
    (hstate : s.state = .transferring t) (hid : ∃ k < s.nextId, transferIdOf k = p.transferId)
    (h : Sending codec p given types t u es)
    (htypes : types ++ frameTypes (t.protoBuf ++ bytes) = frameTypes stream')
    (hrest : (splitLines (t.protoBuf ++ bytes)).2 = (splitLines stream').2) :
    Uploading codec p given stream' (es ++ (s.onTransferringBytes codec bytes).2.actions)
      (s.onTransferringBytes codec bytes).1 := by
  have hlines := h.onLines hp (splitLines (t.protoBuf ++ bytes)).2 (splitLines (t.protoBuf ++ bytes)).1
  rw [← frameTypes_eq, htypes, ← Transfer.receive] at hlines
  cases hok : (t.receive codec bytes).terminal with
  | none =>
      simp only [Sending.AfterLoop, hok] at hlines
      obtain ⟨hbuf, u', hu'⟩ := hlines
      rw [onTransferringBytes_continued hstate hok]
      have hactions : ∀ activity : Bool, (if activity then
          (Response.emit (t.receive codec bytes).effects).withTimer TrzszTimer.transfer transferTimeout
          else .emit (t.receive codec bytes).effects).actions = (t.receive codec bytes).effects := by
        intro activity
        cases activity <;> rfl
      rw [hactions]
      exact .active _ u' rfl (hbuf.trans hrest) hid hu'
  | some ok =>
      simp only [Sending.AfterLoop, hok] at hlines
      rw [onTransferringBytes_ended hstate hok]
      refine .retired ⟨?_, hid⟩ hlines
      cases ok <;> exact (Option.some_ne_none _).symm

/-- サーバーの出力か、次のチャンクを 1 つ受け取る。 -/
theorem uploading_step (hp : p.Marked) (h : Uploading codec p given stream es s) {e : TrzszEvent} (hfeed : p.Feeds e)
    (hgiven : given ++ e.chunk.toList <+: p.chunks) :
    Uploading codec p (given ++ e.chunk.toList) (stream ++ e.stdout)
      (es ++ s.stepEffects codec p.transferId (.event e)) (s.apply codec (.event e)).1 := by
  cases h with
  | retired hretired houtput =>
      have hstep : Advance codec s (s.apply codec (.event e)).1 ((machine codec).react s (.event e)).2 :=
        advance_react codec s (.event e)
      obtain ⟨hne, hretired'⟩ := retired_advance hretired hstep
      rw [stepEffects_other hne, List.append_nil]
      refine .retired hretired' (houtput.mono ?_)
      rw [frameTypes_append]
      exact List.sublist_append_left _ _
  | active t u hstate hbuf hid hsending =>
      rw [stepEffects_active (hsending.transferId ▸ activeId_transferring hstate)]
      cases e with
      | stdoutBytes bytes =>
          have hreact : s.onEvent codec (.stdoutBytes bytes) = s.onTransferringBytes codec bytes := by
            simp only [onEvent, onStdoutBytes, hstate]
          rw [apply_event, hreact]
          rw [TrzszEvent.chunk_stdoutBytes, Option.toList_none, List.append_nil]
          refine uploading_receive hp hstate hid hsending ?_ ?_
          · rw [hbuf, ← frameTypes_append]
            rfl
          · rw [hbuf, splitLines_append stream]
            rfl
      | kotlinChunk transferId data isLast =>
          cases (hfeed : transferId = p.transferId)
          rw [TrzszEvent.chunk_kotlinChunk, Option.toList_some] at hgiven ⊢
          rw [TrzszEvent.stdout_kotlinChunk, List.append_nil, apply_event]
          simp only [onEvent, onChunk, hstate, hsending.phase, if_pos hsending.transferId]
          by_cases hstep : u.step = .sendingData
          · rw [if_pos hstep]
            exact .active _ _ rfl hbuf hid (hsending.sendChunk hgiven hstep)
          · rw [if_neg hstep]
            rw [Response.actions_consume, List.append_nil]
            exact .active _ _ rfl hbuf hid (hsending.holdChunk hgiven hstep)
      | kotlinAcceptUpload _ _ _ => exact hfeed.elim
      | kotlinAcceptDownload _ => exact hfeed.elim
      | kotlinCancel _ => exact hfeed.elim

theorem uploading_run (hp : p.Marked) {events : List TrzszEvent} (h : Uploading codec p given stream es s)
    (hfeeds : ∀ e ∈ events, p.Feeds e) (hchunks : given ++ events.filterMap (·.chunk) <+: p.chunks) :
    p.Output codec (frameTypes (stream ++ events.flatMap (·.stdout)))
      (es ++ s.effectsOf codec p.transferId (events.map .event)) := by
  induction events generalizing given stream es s with
  | nil =>
      rw [List.flatMap_nil, List.append_nil, List.map_nil, effectsOf_nil, List.append_nil]
      exact h.output
  | cons e events ih =>
      have hsplit : given ++ (e :: events).filterMap (·.chunk) =
          (given ++ e.chunk.toList) ++ events.filterMap (·.chunk) := by
        rw [List.append_assoc]
        cases hc : e.chunk with
        | none => rw [List.filterMap_cons_none hc]; rfl
        | some c => rw [List.filterMap_cons_some hc]; rfl
      rw [hsplit] at hchunks
      have hstep := uploading_step hp h (hfeeds e List.mem_cons_self) ((List.prefix_append _ _).trans hchunks)
      rw [List.flatMap_cons, ← List.append_assoc, List.map_cons, effectsOf_cons, ← List.append_assoc]
      exact ih hstep (fun e' he' => hfeeds e' (List.mem_cons_of_mem _ he')) hchunks

/-- 受け入れは、溜めておいたサーバーの出力を処理する。 -/
theorem uploading_accept (hp : p.Marked) {buffered : List UInt8}
    (hstate : s.state = .waitingKotlin p.transferId .upload buffered)
    (hid : ∃ k < s.nextId, transferIdOf k = p.transferId) :
    Uploading codec p [] buffered (s.stepEffects codec p.transferId (.event p.accept))
      (s.apply codec (.event p.accept)).1 := by
  have hactive : s.activeId = some p.transferId := by rw [activeId, hstate]
  have hreact : s.onEvent codec p.accept =
      s.startTransfer codec p.transferId buffered (some p.fileSize) (uploadPhase p.fileName p.fileSize) := by
    simp only [onEvent, UploadPlan.accept, hstate, if_true]
  rw [stepEffects_active hactive, apply_event, hreact]
  have hstart : Sending codec p [] [] ⟨p.transferId, buffered, 0, some p.fileSize, uploadPhase p.fileName p.fileSize⟩
      ⟨.waitCfg, p.fileName, p.fileSize, [], [], []⟩ [] :=
    ⟨rfl, rfl, ⟨rfl, rfl⟩, List.nil_prefix, Output.nil, List.forall_mem_nil _,
      .waitCfg rfl ⟨rfl, rfl, rfl, rfl⟩ rfl⟩
  exact @uploading_receive codec p [] [] { s with state := .transferring _ } hp _ _ [] [] buffered rfl hid hstart
    (by rw [List.append_nil, List.nil_append]) (by rw [List.append_nil])

end TrzszTransferFsm

end

end IsekaiTerminal.Trzsz
