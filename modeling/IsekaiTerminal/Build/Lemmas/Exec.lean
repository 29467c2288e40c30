import IsekaiTerminal.Build.Exec

/-!
# 応答のメッセージの性質

書いた JSON の文は、切れ端と区別でき、改行を含まず、検査を通る値では長さの制限に収まる。
-/

namespace IsekaiTerminal.Build

open Lib

/-! ## 接頭符号 -/

theorem BuildOutputStream.name_injective : Function.Injective BuildOutputStream.name := by
  have hne : BuildOutputStream.name .stdout ≠ BuildOutputStream.name .stderr := by decide +kernel
  intro s t heq
  cases s with
  | stdout =>
      cases t with
      | stdout => rfl
      | stderr => exact absurd heq hne
  | stderr =>
      cases t with
      | stdout => exact absurd heq.symm hne
      | stderr => rfl

/-! 文の決まった部分の文字。 -/

theorem chunkHead_eq :
    chunkHead = ['\x7b', '"', 'o', 'p', '"', ':', '"', 'b', 'u', 'i', 'l', 'd', '_', 'o', 'u', 't', 'p', 'u', 't',
      '_', 'c', 'h', 'u', 'n', 'k', '"', ',', '"', 's', 't', 'r', 'e', 'a', 'm', '"', ':'] :=
  String.toList_ofList

theorem chunkData_eq :
    chunkData = [',', '"', 'd', 'a', 't', 'a', '_', 'b', '6', '4', '"', ':'] :=
  String.toList_ofList

theorem finishedHead_eq :
    finishedHead = ['\x7b', '"', 'o', 'p', '"', ':', '"', 'b', 'u', 'i', 'l', 'd', '_', 'f', 'i', 'n', 'i', 's', 'h',
      'e', 'd', '"', ',', '"', 'e', 'x', 'i', 't', '_', 'c', 'o', 'd', 'e', '"', ':'] :=
  String.toList_ofList

theorem finishedPaths_eq :
    finishedPaths = ['"', 'r', 'e', 's', 'u', 'l', 't', '_', 'p', 'a', 't', 'h', 's', '"', ':'] :=
  String.toList_ofList

theorem closing_eq :
    closing = ['\x7d'] :=
  String.toList_ofList

/-- 2 つの種類の文は、`op` の値で異なる。 -/
theorem heads_ne (xs ys : Text) : chunkHead ++ xs ≠ finishedHead ++ ys := by
  have hfinished : finishedHead.length ≤ chunkHead.length := by
    rw [finishedHead_eq, chunkHead_eq]
    decide
  have hprefix : ¬ finishedHead <+: chunkHead := by
    rw [finishedHead_eq, chunkHead_eq]
    decide
  intro heq
  have hpre : finishedHead <+: chunkHead ++ xs := by
    rw [heq]
    exact List.prefix_append finishedHead ys
  exact hprefix (List.prefix_of_prefix_length_le hpre (List.prefix_append chunkHead xs) hfinished)

theorem BuildMessage.text_ne_nil (m : BuildMessage) : m.text ≠ [] := by
  have hchunk : chunkHead ≠ [] := by
    rw [chunkHead_eq]
    exact List.cons_ne_nil _ _
  have hfinished : finishedHead ≠ [] := by
    rw [finishedHead_eq]
    exact List.cons_ne_nil _ _
  cases m with
  | buildOutputChunk stream dataB64 => simp [BuildMessage.text, hchunk]
  | buildFinished exitCode resultPaths => simp [BuildMessage.text, hfinished]

theorem prefixCode_intComma : PrefixCode (fun n : Int => Json.int n ++ [',']) Set.univ :=
  .of_injOn (Json.int_injective.injOn) fun n _ => Json.notMem_int (by decide) (by decide) n

theorem prefixCode_text : PrefixCode BuildMessage.text Set.univ := by
  refine .of_append (fun m _ => m.text_ne_nil) ?_
  intro m _ m' _ rest heq
  cases m with
  | buildOutputChunk stream dataB64 =>
      cases m' with
      | buildOutputChunk stream' dataB64' =>
          simp only [BuildMessage.text, List.append_assoc] at heq
          obtain ⟨hname, hdata⟩ := Json.prefixCode_string.append_inj (Set.mem_univ _) (Set.mem_univ _)
            (List.append_cancel_left heq)
          obtain ⟨rfl, -⟩ := Json.prefixCode_string.append_inj (Set.mem_univ _) (Set.mem_univ _)
            (List.append_cancel_left hdata)
          rw [BuildOutputStream.name_injective hname]
      | buildFinished exitCode resultPaths =>
          simp only [BuildMessage.text, List.append_assoc] at heq
          exact absurd heq (heads_ne _ _)
  | buildFinished exitCode resultPaths =>
      cases m' with
      | buildOutputChunk stream' dataB64' =>
          simp only [BuildMessage.text, List.append_assoc] at heq
          exact absurd heq.symm (heads_ne _ _)
      | buildFinished exitCode' resultPaths' =>
          rw [BuildMessage.text, BuildMessage.text, List.append_assoc] at heq
          have hvalues := List.append_cancel_left heq
          rw [List.append_assoc] at hvalues
          obtain ⟨hcode, hpaths⟩ := prefixCode_intComma.append_inj (Set.mem_univ exitCode.toInt)
            (Set.mem_univ exitCode'.toInt) hvalues
          rw [List.append_assoc] at hpaths
          have hpaths := List.append_cancel_left hpaths
          rw [List.append_assoc] at hpaths
          obtain ⟨rfl, -⟩ := Json.prefixCode_strings.append_inj (Set.mem_univ _) (Set.mem_univ _) hpaths
          rw [Int32.toInt_inj.mp hcode]

theorem eq_of_prefix_toVec {m m' : BuildMessage} (h : toVec m <+: toVec m') : m = m' :=
  prefixCode_text.eq_of_prefix m (Set.mem_univ m) m' (Set.mem_univ m') (prefix_of_encodeUtf8 h)

theorem toVec_ne_nil (m : BuildMessage) : toVec m ≠ [] := by
  intro hnil
  have hlength := length_le_encodeUtf8 m.text
  rw [toVec] at hnil
  rw [hnil, List.length_nil] at hlength
  exact m.text_ne_nil (List.length_eq_zero_iff.mp (by omega))

/-- 書いた文だけを読む読み取り。 -/
noncomputable def inverseSerde : Serde where
  fromSlice := fun bytes => by
    classical
    exact if h : ∃ m, toVec m = bytes then some (.build h.choose) else none
  fromSlice_toVec := by
    intro m
    have h : ∃ m', toVec m' = toVec m := ⟨m, rfl⟩
    have hsame : toVec h.choose <+: toVec m := by
      rw [h.choose_spec]
    rw [dif_pos h, eq_of_prefix_toVec hsame]
  fromSlice_of_cut := by
    intro m cut hcut hne
    rw [dif_neg]
    rintro ⟨m', rfl⟩
    exact hne (congrArg toVec (eq_of_prefix_toVec hcut))

/-! ## 改行 -/

theorem newline_notMem_text (m : BuildMessage) : '\n' ∉ m.text := by
  have hfixed : '\n' ∉ chunkHead ++ chunkData ++ finishedHead ++ finishedPaths ++ closing := by
    rw [chunkHead_eq, chunkData_eq, finishedHead_eq, finishedPaths_eq, closing_eq]
    decide +kernel
  simp only [List.mem_append, not_or] at hfixed
  cases m with
  | buildOutputChunk stream dataB64 =>
      simp only [BuildMessage.text, List.mem_append, not_or]
      exact ⟨hfixed.1.1.1.1, Json.newline_notMem_string _, hfixed.1.1.1.2, Json.newline_notMem_string _, hfixed.2⟩
  | buildFinished exitCode resultPaths =>
      simp only [BuildMessage.text, List.mem_append, not_or]
      exact ⟨hfixed.1.1.2, ⟨Json.notMem_int (by decide) (by decide) _, by decide⟩, hfixed.1.2,
        Json.newline_notMem_strings _, hfixed.2⟩

theorem newline_notMem_toVec (m : BuildMessage) : (10 : UInt8) ∉ toVec m :=
  newline_notMem_encodeUtf8 (newline_notMem_text m)

/-! ## 長さ -/

theorem length_fixed_lt :
    chunkHead.length + chunkData.length + finishedHead.length + finishedPaths.length + closing.length < 128 := by
  rw [chunkHead_eq, chunkData_eq, finishedHead_eq, finishedPaths_eq, closing_eq]
  decide

theorem length_toVec_chunk_le {stream : BuildOutputStream} {bytes : Bytes}
    (h : bytes.length ≤ maxBuildChunkDecodedLen) :
    (toVec (.buildOutputChunk stream (Base64.encode bytes))).length ≤ maxCtlMessageLineLen := by
  have hfixed := length_fixed_lt
  have hname : stream.name.length = 6 := by cases stream <;> decide +kernel
  have hstream := Json.length_string_le stream.name
  have hdata := Json.length_string_le (Base64.encode bytes)
  have hencode := Base64.length_encode bytes
  have htext : (BuildMessage.text (.buildOutputChunk stream (Base64.encode bytes))).length ≤ maxCtlMessageLineLen / 4 := by
    simp only [maxBuildChunkDecodedLen, maxCtlMessageLineLen] at h ⊢
    simp only [BuildMessage.text, List.length_append]
    omega
  have hutf8 := length_encodeUtf8_le (BuildMessage.text (.buildOutputChunk stream (Base64.encode bytes)))
  simp only [maxCtlMessageLineLen] at htext ⊢
  rw [toVec]
  omega

theorem length_toVec_finished_le {exitCode : Int32} {resultPaths : List Text}
    (hcount : resultPaths.length ≤ maxBuildResultPaths)
    (h : ∀ path ∈ resultPaths, (encodeUtf8 path).length ≤ maxBuildResultPathLen) :
    (toVec (.buildFinished exitCode resultPaths)).length ≤ maxCtlMessageLineLen := by
  have hfixed := length_fixed_lt
  have hcode : (Json.int exitCode.toInt).length ≤ 11 := by
    refine Json.length_int_le ?_
    have hlower := exitCode.le_toInt
    have hupper := exitCode.toInt_lt
    omega
  have hpaths := Json.length_strings_le fun path hpath => (length_le_encodeUtf8 path).trans (h path hpath)
  have hproduct := Nat.mul_le_mul_right (6 * maxBuildResultPathLen + 3) hcount
  have htext : (BuildMessage.text (.buildFinished exitCode resultPaths)).length ≤ maxCtlMessageLineLen / 4 := by
    simp only [maxBuildResultPaths, maxBuildResultPathLen, maxCtlMessageLineLen] at hpaths hproduct ⊢
    simp only [BuildMessage.text, List.length_append, List.length_cons, List.length_nil]
    omega
  have hutf8 := length_encodeUtf8_le (BuildMessage.text (.buildFinished exitCode resultPaths))
  simp only [maxCtlMessageLineLen] at htext ⊢
  rw [toVec]
  omega

/-! ## 復号 -/

section

variable (serde : Serde)

theorem decodeCtlMessage_toVec {m : BuildMessage} (h : (toVec m).length ≤ maxCtlMessageLineLen) :
    decodeCtlMessage serde (toVec m) = if validateCtlMessage (.build m) then some (.build m) else none := by
  rw [decodeCtlMessage, if_neg (by omega), serde.fromSlice_toVec, Option.filter_some]

theorem rdropWhile_toVec (m : BuildMessage) : (toVec m).rdropWhile (· = 10) = toVec m := by
  rw [List.rdropWhile_eq_self_iff]
  intro hne
  have hlast := List.getLast_mem hne
  simp only [decide_eq_true_eq]
  exact fun heq => newline_notMem_toVec m (heq ▸ hlast)

theorem decodeLine_toVec (m : BuildMessage) : decodeLine serde (toVec m) = decodeCtlMessage serde (toVec m) := by
  have hvalid : isUtf8 (toVec m) := isUtf8_encodeUtf8 _
  rw [decodeLine, if_pos hvalid, rdropWhile_toVec]

theorem decodeLine_frame (m : BuildMessage) : decodeLine serde (toVec m ++ [10]) = decodeCtlMessage serde (toVec m) := by
  have hvalid : isUtf8 (toVec m ++ [10]) := by
    have hframe : toVec m ++ [10] = encodeUtf8 (m.text ++ ['\n']) := by
      simp only [toVec, encodeUtf8, List.flatMap_append]
      rfl
    rw [hframe]
    exact isUtf8_encodeUtf8 _
  have hdrop : (toVec m ++ [10]).rdropWhile (· = 10) = toVec m := by
    rw [List.rdropWhile_concat_pos _ _ _ (by decide), rdropWhile_toVec]
  rw [decodeLine, if_pos hvalid, hdrop]

/-- 文の途中で切れた行は読めない。 -/
theorem decodeLine_cut {m : BuildMessage} {cut : Bytes} (hcut : cut <+: toVec m) (hne : cut ≠ toVec m) :
    decodeLine serde cut = none := by
  have hdrop : cut.rdropWhile (· = 10) = cut := by
    rw [List.rdropWhile_eq_self_iff]
    intro hnil
    have hlast := hcut.subset (List.getLast_mem hnil)
    simp only [decide_eq_true_eq]
    exact fun heq => newline_notMem_toVec m (heq ▸ hlast)
  rw [decodeLine, hdrop, decodeCtlMessage, serde.fromSlice_of_cut m cut hcut hne]
  simp

theorem decodeCtlMessage_chunk {stream : BuildOutputStream} {bytes : Bytes}
    (h : bytes.length ≤ maxBuildChunkDecodedLen) :
    decodeCtlMessage serde (toVec (.buildOutputChunk stream (Base64.encode bytes))) =
      some (.build (.buildOutputChunk stream (Base64.encode bytes))) := by
  have hvalid : validateCtlMessage (.build (.buildOutputChunk stream (Base64.encode bytes))) := by
    simpa [validateCtlMessage, Base64.decode_encode] using h
  rw [decodeCtlMessage_toVec serde (length_toVec_chunk_le h), if_pos hvalid]

theorem decodeCtlMessage_finished {exitCode : Int32} {resultPaths : List Text}
    (hcount : resultPaths.length ≤ maxBuildResultPaths)
    (h : ∀ path ∈ resultPaths, (encodeUtf8 path).length ≤ maxBuildResultPathLen) :
    decodeCtlMessage serde (toVec (.buildFinished exitCode resultPaths)) =
      some (.build (.buildFinished exitCode resultPaths)) := by
  have hvalid : validateCtlMessage (.build (.buildFinished exitCode resultPaths)) := by
    simpa [validateCtlMessage] using ⟨hcount, h⟩
  rw [decodeCtlMessage_toVec serde (length_toVec_finished_le hcount h), if_pos hvalid]

theorem eq_of_decodeCtlMessage {m m' : BuildMessage} (h : decodeCtlMessage serde (toVec m) = some (.build m')) :
    m = m' := by
  unfold decodeCtlMessage at h
  split_ifs at h
  rw [serde.fromSlice_toVec] at h
  have hsome := (Option.filter_eq_some_iff.mp h).1
  injection hsome with hsome
  injection hsome

variable {serde} in
theorem validate_of_decodeCtlMessage {bytes : Bytes} {m : CtlMessage} (h : decodeCtlMessage serde bytes = some m) :
    validateCtlMessage m = true := by
  unfold decodeCtlMessage at h
  split_ifs at h
  exact (Option.filter_eq_some_iff.mp h).2

/-- 検査を通らないメッセージは、届いても読めない。 -/
theorem decodeCtlMessage_of_invalid {m : BuildMessage} (h : validateCtlMessage (.build m) = false) :
    decodeCtlMessage serde (toVec m) = none := by
  unfold decodeCtlMessage
  split_ifs
  · rfl
  · rw [serde.fromSlice_toVec, Option.filter_some, h]
    rfl

end

/-!
## ビルドの実行の不変条件

渡したチャンク、待つチャンク、パイプに残るバイト列を順につなぐと、子プロセスの出力になる。
-/

/-!
## 届いた応答の読み取り

渡した行の列の接頭辞を読んだとき、完了が届けば出力と終了コードが定まり、届かなければ `stream_build` は失敗する。
-/

section

variable {serde : Serde}

/-! ## チャンクの列 -/

/-- チャンクのうち `stream` のもののバイト列。 -/
def streamBytes (stream : BuildOutputStream) (chunks : List (BuildOutputStream × Bytes)) : Bytes :=
  chunks.flatMap fun chunk => if chunk.1 = stream then chunk.2 else []

theorem streamBytes_append (stream : BuildOutputStream) (chunks chunks' : List (BuildOutputStream × Bytes)) :
    streamBytes stream (chunks ++ chunks') = streamBytes stream chunks ++ streamBytes stream chunks' :=
  List.flatMap_append

theorem streamLines_chunks {chunks : List (BuildOutputStream × Bytes)}
    (h : ∀ chunk ∈ chunks, chunk.2.length ≤ maxBuildChunkDecodedLen) (lines : List Bytes) (stdout stderr : Bytes) :
    streamLines serde (chunks.map (fun chunk => encodeBuildOutputChunk chunk.1 chunk.2) ++ lines) stdout stderr =
      streamLines serde lines (stdout ++ streamBytes .stdout chunks) (stderr ++ streamBytes .stderr chunks) := by
  induction chunks generalizing stdout stderr with
  | nil => simp [streamBytes]
  | cons chunk chunks ih =>
      obtain ⟨stream, bytes⟩ := chunk
      have hline : decodeLine serde (toVec (.buildOutputChunk stream (Base64.encode bytes)) ++ [10]) =
          some (.build (.buildOutputChunk stream (Base64.encode bytes))) := by
        rw [decodeLine_frame]
        exact decodeCtlMessage_chunk serde (h _ List.mem_cons_self)
      have hrest := ih fun chunk hchunk => h chunk (List.mem_cons_of_mem _ hchunk)
      rw [List.map_cons, List.cons_append, encodeBuildOutputChunk, streamLines, hline]
      simp only [Base64.decode_encode]
      cases stream with
      | stdout => simp [hrest, streamBytes]
      | stderr => simp [hrest, streamBytes]

/-- 完了の行がなければ `stream_build` は失敗する。 -/
theorem code_streamLines_eq_none {lines : List Bytes}
    (h : ∀ line ∈ lines, ∀ exitCode paths, decodeLine serde line ≠ some (.build (.buildFinished exitCode paths)))
    (stdout stderr : Bytes) : (streamLines serde lines stdout stderr).code = none := by
  induction lines generalizing stdout stderr with
  | nil => rfl
  | cons line lines ih =>
      have hrest := ih fun line hline => h line (List.mem_cons_of_mem _ hline)
      rw [streamLines]
      split
      · split
        · rfl
        · split
          · exact hrest _ _
          · exact hrest _ _
      · next exitCode paths hfinished => exact absurd hfinished (h line List.mem_cons_self exitCode paths)
      · rfl
      · rfl

/-! ## 渡したメッセージ -/

def chunkMessage (chunk : BuildOutputStream × Bytes) : BuildMessage := .buildOutputChunk chunk.1 (Base64.encode chunk.2)

def finishedMessage (finished : Int32 × List Text) : BuildMessage := .buildFinished finished.1 finished.2

def Client.messages (c : Client) : List BuildMessage :=
  c.chunks.map chunkMessage ++ (c.finished.map finishedMessage).toList

theorem Client.offered_eq (c : Client) : c.offered = (c.messages.map toVec).map (· ++ [10]) := by
  cases hfinished : c.finished with
  | none => simp [Client.offered, Client.messages, hfinished, encodeBuildOutputChunk, chunkMessage]
  | some finished =>
      simp [Client.offered, Client.messages, hfinished, encodeBuildOutputChunk, chunkMessage, encodeBuildFinished,
        finishedMessage]

theorem chunkFrames_eq (chunks : List (BuildOutputStream × Bytes)) :
    ((chunks.map chunkMessage).map toVec).map (· ++ [10]) =
      chunks.map fun chunk => encodeBuildOutputChunk chunk.1 chunk.2 := by
  simp [encodeBuildOutputChunk, chunkMessage]

theorem newline_notMem_bodies (messages : List BuildMessage) : ∀ body ∈ messages.map toVec, (10 : UInt8) ∉ body := by
  intro body hbody
  obtain ⟨m, -, rfl⟩ := List.mem_map.mp hbody
  exact newline_notMem_toVec m

/-! ## 完了の到着 -/

variable {c : Client} {received : Bytes} {exitCode : Int32} {paths : List Text}

/-- 完了が届いたとき、読んだ行はチャンクの行と、完了の 1 行である。 -/
theorem Client.Arrived.lines (serde : Serde) (h : c.Arrived received exitCode paths) (hpre : received <+: c.offered.flatten) :
    ∃ line, splitLines 10 received = c.chunks.map (fun chunk => encodeBuildOutputChunk chunk.1 chunk.2) ++ [line] ∧
      decodeLine serde line = decodeCtlMessage serde (toVec (.buildFinished exitCode paths)) := by
  obtain ⟨hfinished, tail, hreceived⟩ := h
  have htail : tail <+: [10] := by
    rw [← hreceived, Client.offered, hfinished, List.flatten_append, List.append_assoc] at hpre
    have hrest := (List.prefix_append_right_inj _).mp hpre
    simp only [Option.map_some, Option.toList_some, List.flatten_cons, List.flatten_nil, List.append_nil,
      encodeBuildFinished] at hrest
    exact (List.prefix_append_right_inj _).mp hrest
  have hsplit (rest : Bytes) : splitLines 10
      ((c.chunks.map fun chunk => encodeBuildOutputChunk chunk.1 chunk.2).flatten ++ rest) =
        (c.chunks.map fun chunk => encodeBuildOutputChunk chunk.1 chunk.2) ++ splitLines 10 rest := by
    rw [← chunkFrames_eq]
    exact splitLines_frames (newline_notMem_bodies _) rest
  rw [← hreceived, List.append_assoc, hsplit]
  rcases List.prefix_concat_iff.mp (show tail <+: [] ++ [10] from htail) with rfl | hnil
  · refine ⟨toVec (.buildFinished exitCode paths) ++ [10], ?_, decodeLine_frame serde _⟩
    rw [List.nil_append, splitLines_append (newline_notMem_toVec _) []]
    rfl
  · obtain rfl := List.prefix_nil.mp hnil
    refine ⟨toVec (.buildFinished exitCode paths), ?_, decodeLine_toVec serde _⟩
    rw [List.append_nil, splitLines_of_notMem (toVec_ne_nil _) (newline_notMem_toVec _)]

/-- 完了が届いたときの結果。 -/
theorem streamBuild_of_arrived (hchunks : ∀ chunk ∈ c.chunks, chunk.2.length ≤ maxBuildChunkDecodedLen)
    (h : c.Arrived received exitCode paths) (hpre : received <+: c.offered.flatten)
    (hdecode : decodeCtlMessage serde (toVec (.buildFinished exitCode paths)) =
      some (.build (.buildFinished exitCode paths))) :
    streamBuild serde received =
      ⟨streamBytes .stdout c.chunks, streamBytes .stderr c.chunks ++ resultNotice paths,
        some (clampExitCode exitCode)⟩ := by
  obtain ⟨line, hlines, hline⟩ := h.lines serde hpre
  rw [hdecode] at hline
  rw [streamBuild, hlines, streamLines_chunks hchunks, streamLines, hline]
  simp

theorem Client.finished_notMem_chunks (c : Client) (exitCode : Int32) (paths : List Text) :
    BuildMessage.buildFinished exitCode paths ∉ c.chunks.map chunkMessage := by
  simp [chunkMessage]

theorem Client.finished_of_mem (h : BuildMessage.buildFinished exitCode paths ∈ c.messages) :
    c.finished = some (exitCode, paths) := by
  rcases List.mem_append.mp h with hchunk | hfinished
  · exact absurd hchunk (c.finished_notMem_chunks exitCode paths)
  · obtain ⟨finished, hsome, hmessage⟩ := Option.map_eq_some_iff.mp (Option.mem_toList.mp hfinished)
    obtain ⟨code, files⟩ := finished
    injection hmessage with hcode hfiles
    rw [hsome, ← hcode, ← hfiles]

theorem Client.length_messages_le (c : Client) : c.messages.length ≤ (c.chunks.map chunkMessage).length + 1 := by
  have hone := Option.length_toList_le (o := c.finished.map finishedMessage)
  rw [Client.messages, List.length_append]
  omega

/-- 完了は最後のメッセージである。 -/
theorem Client.take_of_mem {k : Nat} (h : BuildMessage.buildFinished exitCode paths ∈ c.messages.take k) :
    c.messages.take k = c.messages := by
  refine List.take_of_length_le ?_
  by_contra hk
  have hlength : k ≤ (c.chunks.map chunkMessage).length := by
    have htotal := c.length_messages_le
    omega
  rw [Client.messages, List.take_append_of_le_length hlength] at h
  exact c.finished_notMem_chunks exitCode paths (List.mem_of_mem_take h)

theorem Client.take_of_getElem? {k : Nat} (h : c.messages[k]? = some (.buildFinished exitCode paths)) :
    c.messages.take k = c.chunks.map chunkMessage := by
  have hk : (c.chunks.map chunkMessage).length = k := by
    have htotal := c.length_messages_le
    have hbound := (List.getElem?_eq_some_iff.mp h).1
    by_contra hne
    rw [Client.messages, List.getElem?_append_left (by omega)] at h
    exact c.finished_notMem_chunks exitCode paths (List.mem_of_getElem? h)
  rw [Client.messages, ← hk, List.take_left]

theorem Client.messages_of_finished (h : c.finished = some (exitCode, paths)) :
    c.messages = c.chunks.map chunkMessage ++ [.buildFinished exitCode paths] := by
  rw [Client.messages, h]
  rfl

/-- 完了の行を読んだとき、完了は届いている。 -/
theorem Client.arrived_of_line (hpre : received <+: c.offered.flatten) {line : Bytes}
    (hline : line ∈ splitLines 10 received)
    (hdecode : decodeLine serde line = some (.build (.buildFinished exitCode paths))) :
    c.Arrived received exitCode paths := by
  rw [Client.offered_eq] at hpre
  have hframe : ∀ k, line ∈ ((c.messages.map toVec).take k).map (· ++ [10]) →
      BuildMessage.buildFinished exitCode paths ∈ c.messages.take k := by
    intro k hmem
    obtain ⟨body, hbody, rfl⟩ := List.mem_map.mp hmem
    rw [← List.map_take] at hbody
    obtain ⟨m, hm, rfl⟩ := List.mem_map.mp hbody
    rw [decodeLine_frame] at hdecode
    exact eq_of_decodeCtlMessage serde hdecode ▸ hm
  have hwhole : ∀ k rest, BuildMessage.buildFinished exitCode paths ∈ c.messages.take k →
      received = (((c.messages.map toVec).take k).map (· ++ [10])).flatten ++ rest →
      c.Arrived received exitCode paths := by
    intro k rest hmem hreceived
    have hfinished := Client.finished_of_mem (List.mem_of_mem_take hmem)
    refine ⟨hfinished, 10 :: rest, ?_⟩
    rw [hreceived, ← List.map_take, Client.take_of_mem hmem, Client.messages_of_finished hfinished, ← chunkFrames_eq]
    simp
  rcases splitLines_of_prefix (newline_notMem_bodies c.messages) hpre with
    ⟨k, hreceived, hsplit⟩ | ⟨k, body, cut, hbody, hne, hcut, hreceived, hsplit⟩
  · rw [hsplit] at hline
    exact hwhole k [] (hframe k hline) (by rw [hreceived, List.append_nil])
  · rw [hsplit] at hline
    rcases List.mem_append.mp hline with hline | hline
    · exact hwhole k cut (hframe k hline) hreceived
    · obtain rfl := List.mem_singleton.mp hline
      rw [List.getElem?_map] at hbody
      obtain ⟨m, hm, rfl⟩ := Option.map_eq_some_iff.mp hbody
      by_cases hfull : line = toVec m
      · rw [hfull, decodeLine_toVec] at hdecode
        obtain rfl := eq_of_decodeCtlMessage serde hdecode
        refine ⟨Client.finished_of_mem (List.mem_of_getElem? hm), [], ?_⟩
        rw [hreceived, ← List.map_take, Client.take_of_getElem? hm, chunkFrames_eq, hfull, List.append_nil]
      · rw [decodeLine_cut serde hcut hfull] at hdecode
        cases hdecode

theorem code_streamBuild_eq_none (hpre : received <+: c.offered.flatten)
    (h : ∀ exitCode paths, ¬ c.Arrived received exitCode paths) : (streamBuild serde received).code = none :=
  code_streamLines_eq_none (fun _ hline exitCode paths hdecode =>
    h exitCode paths (Client.arrived_of_line hpre hline hdecode)) [] []

end

section

variable {env : Env} {host profileName : Text}

/-! ## 結果のファイル -/

theorem length_collectMatches_le {entries : List (Option Text)} {found paths : List Text}
    (hfound : found.length < maxBuildResultPaths) (h : collectMatches entries found = some paths) :
    paths.length ≤ maxBuildResultPaths := by
  induction entries generalizing found with
  | nil =>
      injection h with h
      rw [← h]
      omega
  | cons entry entries ih =>
      cases entry with
      | none => cases h
      | some path =>
          have hlength : (found ++ [path]).length = found.length + 1 := by rw [List.length_append, List.length_singleton]
          rw [collectMatches] at h
          split_ifs at h with hfull
          · injection h with h
            rw [← h]
            omega
          · exact ih (by omega) h

theorem length_resultPaths_le (profile : BuildProfile) : (resultPaths env profile).length ≤ maxBuildResultPaths := by
  unfold resultPaths
  split
  · next glob _ _ _ =>
      cases hpaths : globResults env profile.dir glob with
      | none => exact Nat.zero_le _
      | some paths =>
          obtain ⟨entries, -, hcollect⟩ := Option.bind_eq_some_iff.mp hpaths
          exact length_collectMatches_le (by decide) hcollect
  · exact Nat.zero_le _

/-! ## 不変条件 -/

/-- 実行中の子プロセスの出力は、失われず、順に並ぶ。 -/
structure Relayed (env : Env) (host profileName : Text) (c : Client) (profile : BuildProfile)
    (wait : Option (Option Int32)) : Prop where
  running : ∃ stdout stderr, env.findProfile host profileName = some profile ∧
    env.spawn profile = .spawned stdout stderr wait ∧
    streamBytes .stdout (c.chunks ++ c.queue) ++ c.unread .stdout = stdout ∧
    streamBytes .stderr (c.chunks ++ c.queue) ++ c.unread .stderr = stderr
  small : ∀ chunk ∈ c.chunks ++ c.queue, chunk.2.length ≤ maxBuildChunkDecodedLen
  unfinished : c.finished = none

/-- 完了を送った実行。チャンクは子プロセスの出力の全体であるか、道具の 1 行である。 -/
inductive Reported (env : Env) (host profileName : Text) (c : Client) : Prop
  | refused {notice : Bytes} {exitCode : Int32} (hcode : 0 < exitCode.toInt)
      (hchild : child env host profileName = (⟨[], [], none⟩, notice)) (hchunks : c.chunks = [(.stderr, notice)])
      (hfinished : c.finished = some (exitCode, []))
  | exited {profile : BuildProfile} {stdout stderr : Bytes} {status : Option Int32}
      (hfound : env.findProfile host profileName = some profile)
      (hspawn : env.spawn profile = .spawned stdout stderr (some status))
      (hstdout : streamBytes .stdout c.chunks = stdout) (hstderr : streamBytes .stderr c.chunks = stderr)
      (hsmall : ∀ chunk ∈ c.chunks, chunk.2.length ≤ maxBuildChunkDecodedLen)
      (hfinished : c.finished = some (status.getD (-1), resultPaths env profile))

inductive Client.Valid (env : Env) (host profileName : Text) (c : Client) : Prop
  | starting (hphase : c.phase = .starting) (hchunks : c.chunks = []) (hqueue : c.queue = []) (hfinished : c.finished = none)
  | relaying {profile : BuildProfile} {wait : Option (Option Int32)} (hphase : c.phase = .relaying profile wait)
      (hrelayed : Relayed env host profileName c profile wait)
  | waiting {profile : BuildProfile} {wait : Option (Option Int32)} (hphase : c.phase = .waiting profile wait)
      (hrelayed : Relayed env host profileName c profile wait) (hqueue : c.queue = [])
      (hstdout : c.unread .stdout = []) (hstderr : c.unread .stderr = [])
  | stopped (hphase : c.phase = .done) (hfinished : c.finished = none)
  | reported (hphase : c.phase = .done) (hreported : Reported env host profileName c)

theorem Client.valid_new : Client.new.Valid env host profileName := .starting rfl rfl rfl rfl

variable {c c' : Client}

theorem Client.valid_start (hchunks : c.chunks = []) (hqueue : c.queue = []) (hfinished : c.finished = none) :
    (c.start env host profileName).Valid env host profileName := by
  unfold Client.start
  cases hfound : env.findProfile host profileName with
  | none => exact .reported rfl (.refused (by decide) (by simp [child, hfound]) rfl rfl)
  | some profile =>
      cases hspawn : env.spawn profile with
      | failed error =>
          simp only [hspawn]
          exact .reported rfl (.refused (by decide) (by simp [child, hfound, hspawn]) rfl rfl)
      | spawned stdout stderr wait =>
          simp only [hspawn]
          refine .relaying rfl ⟨⟨stdout, stderr, hfound, hspawn, ?_, ?_⟩, ?_, hfinished⟩
          · simp [hchunks, hqueue, streamBytes]
          · simp [hchunks, hqueue, streamBytes]
          · simp [hchunks, hqueue]

/-- パイプの先頭を待ち行列の末尾に移しても、つないだ出力は変わらない。 -/
theorem streamBytes_pump (chunks queue : List (BuildOutputStream × Bytes)) (unread : BuildOutputStream → Bytes)
    (stream s : BuildOutputStream) (n : Nat) :
    streamBytes s (chunks ++ (queue ++ [(stream, (unread stream).take n)])) ++
        Function.update unread stream ((unread stream).drop n) s =
      streamBytes s (chunks ++ queue) ++ unread s := by
  rw [← List.append_assoc, streamBytes_append, List.append_assoc]
  by_cases heq : s = stream
  · subst heq
    simp [streamBytes]
  · simp [streamBytes, Function.update_of_ne heq, Ne.symm heq]

theorem Relayed.pump {profile : BuildProfile} {wait : Option (Option Int32)} {stream : BuildOutputStream} {n : Nat}
    (h : Relayed env host profileName c profile wait) (hn : n ≤ pumpBufLen) (phase : Phase) :
    Relayed env host profileName
      { c with
        phase := phase
        unread := Function.update c.unread stream ((c.unread stream).drop n)
        queue := c.queue ++ [(stream, (c.unread stream).take n)] } profile wait := by
  obtain ⟨stdout, stderr, hfound, hspawn, hstdout, hstderr⟩ := h.running
  refine ⟨⟨stdout, stderr, hfound, hspawn, ?_, ?_⟩, ?_, h.unfinished⟩
  · exact (streamBytes_pump _ _ _ _ _ _).trans hstdout
  · exact (streamBytes_pump _ _ _ _ _ _).trans hstderr
  · intro chunk hchunk
    simp only [← List.append_assoc] at hchunk
    rcases List.mem_append.mp hchunk with hold | hnew
    · exact h.small chunk hold
    · obtain rfl := List.mem_singleton.mp hnew
      have hlength := List.length_take_le n (c.unread stream)
      simp only [pumpBufLen, maxBuildChunkDecodedLen] at hn ⊢
      omega

theorem Relayed.relay {profile : BuildProfile} {wait : Option (Option Int32)} {chunk : BuildOutputStream × Bytes}
    {queue : List (BuildOutputStream × Bytes)} (h : Relayed env host profileName c profile wait)
    (hqueue : c.queue = chunk :: queue) (phase : Phase) :
    Relayed env host profileName { c with phase := phase, queue := queue, chunks := c.chunks ++ [chunk] } profile wait := by
  have hsame : c.chunks ++ [chunk] ++ queue = c.chunks ++ c.queue := by
    rw [hqueue, List.append_assoc]
    rfl
  obtain ⟨running, small, unfinished⟩ := h
  rw [← hsame] at running small
  exact ⟨running, small, unfinished⟩

theorem Client.valid_step {a : Action} (h : c.Valid env host profileName) (hs : c.Steps env host profileName a c') :
    c'.Valid env host profileName := by
  cases h with
  | starting hphase hchunks hqueue hfinished =>
      cases a <;> simp only [Client.Steps, Client.step, hphase] at hs <;> try cases hs
      exact Client.valid_start hchunks hqueue hfinished
  | relaying hphase hrelayed =>
      cases a with
      | start => simp [Client.Steps, Client.step, hphase] at hs
      | pump stream n =>
          simp only [Client.Steps, Client.step, hphase, Option.ite_none_right_eq_some, Option.some.injEq] at hs
          obtain ⟨⟨-, hn, -, -⟩, rfl⟩ := hs
          exact .relaying rfl (hrelayed.pump hn _)
      | relay sent =>
          cases hqueue : c.queue with
          | nil => simp [Client.Steps, Client.step, hphase, hqueue] at hs
          | cons chunk queue =>
              simp only [Client.Steps, Client.step, hphase, hqueue, Option.some.injEq] at hs
              obtain rfl := hs
              cases sent with
              | true => exact .relaying rfl (hrelayed.relay hqueue _)
              | false => exact .stopped rfl hrelayed.unfinished
      | watch =>
          simp only [Client.Steps, Client.step, hphase, Option.some.injEq] at hs
          obtain rfl := hs
          exact .stopped rfl hrelayed.unfinished
      | drain =>
          simp only [Client.Steps, Client.step, hphase, Option.ite_none_right_eq_some, Option.some.injEq] at hs
          obtain ⟨⟨hqueue, hstdout, hstderr⟩, rfl⟩ := hs
          exact .waiting rfl ⟨hrelayed.running, hrelayed.small, hrelayed.unfinished⟩ hqueue hstdout hstderr
      | wait => simp [Client.Steps, Client.step, hphase] at hs
  | @waiting profile wait hphase hrelayed hqueue hstdout hstderr =>
      cases a <;> simp only [Client.Steps, Client.step, hphase] at hs <;> try cases hs
      obtain ⟨stdout, stderr, hfound, hspawn, hout, herr⟩ := hrelayed.running
      rw [hqueue, List.append_nil, hstdout, List.append_nil] at hout
      rw [hqueue, List.append_nil, hstderr, List.append_nil] at herr
      have hsmall := hrelayed.small
      rw [hqueue, List.append_nil] at hsmall
      cases wait with
      | none => exact .stopped rfl hrelayed.unfinished
      | some status => exact .reported rfl (.exited hfound hspawn hout herr hsmall rfl)
  | stopped hphase hfinished =>
      cases a <;> simp [Client.Steps, Client.step, hphase] at hs
  | reported hphase hreported =>
      cases a <;> simp [Client.Steps, Client.step, hphase] at hs

theorem Client.valid_of_run {as : List Action} (h : Run (Client.Steps env host profileName) Client.new as c) :
    c.Valid env host profileName :=
  h.invariant (fun _ _ _ hvalid hs => Client.valid_step hvalid hs) Client.valid_new

/-! ## 最後まで進む実行 -/

/-- パイプに残る `stream` のバイト列を、1 バイトずつ渡す。 -/
theorem Client.exists_run_emptied (env : Env) (host profileName : Text) (c : Client) {profile : BuildProfile} {wait : Option (Option Int32)}
    (hphase : c.phase = .relaying profile wait) (hqueue : c.queue = []) (stream : BuildOutputStream) :
    ∃ as c', Run (Client.Steps env host profileName) c as c' ∧ c'.phase = .relaying profile wait ∧ c'.queue = [] ∧
      c'.unread = Function.update c.unread stream [] := by
  generalize hbytes : c.unread stream = bytes
  induction bytes generalizing c with
  | nil => exact ⟨[], c, .nil c, hphase, hqueue, by rw [← hbytes, Function.update_eq_self]⟩
  | cons b rest ih =>
      let c₁ : Client := { c with unread := Function.update c.unread stream rest, queue := [(stream, [b])] }
      let c₂ : Client := { c₁ with queue := [], chunks := c.chunks ++ [(stream, [b])] }
      have hpump : Client.Steps env host profileName c (.pump stream 1) c₁ := by
        simp [Client.Steps, Client.step, hphase, hbytes, hqueue, pumpBufLen, relayCapacity, c₁]
      have hrelay : Client.Steps env host profileName c₁ (.relay true) c₂ := by
        simp [Client.Steps, Client.step, hphase, c₁, c₂]
      obtain ⟨as, c', hrun, hphase', hqueue', hunread⟩ := ih c₂ hphase rfl (by simp [c₁, c₂])
      refine ⟨_, c', .cons hpump (.cons hrelay hrun), hphase', hqueue', ?_⟩
      simpa [c₁, c₂] using hunread

/-- 待てる子プロセスの実行は、完了を送るところまで進められる。 -/
theorem exists_run_finished {profile : BuildProfile} {stdout stderr : Bytes} {status : Option Int32}
    (hfound : env.findProfile host profileName = some profile)
    (hspawn : env.spawn profile = .spawned stdout stderr (some status)) :
    ∃ as c, Run (Client.Steps env host profileName) Client.new as c ∧
      c.finished = some (status.getD (-1), resultPaths env profile) := by
  let c₀ := Client.new.start env host profileName
  have hphase : c₀.phase = .relaying profile (some status) := by simp [c₀, Client.start, hfound, hspawn]
  have hqueue : c₀.queue = [] := by simp [c₀, Client.start, hfound, hspawn, Client.new]
  obtain ⟨as₁, c₁, hrun₁, hphase₁, hqueue₁, hunread₁⟩ :=
    c₀.exists_run_emptied env host profileName hphase hqueue .stdout
  obtain ⟨as₂, c₂, hrun₂, hphase₂, hqueue₂, hunread₂⟩ :=
    c₁.exists_run_emptied env host profileName hphase₁ hqueue₁ .stderr
  have hempty : c₂.unread .stdout = [] ∧ c₂.unread .stderr = [] := by simp [hunread₂, hunread₁]
  have hstart : Client.Steps env host profileName Client.new .start c₀ := rfl
  let c₃ : Client := { c₂ with phase := .waiting profile (some status) }
  have hdrain : Client.Steps env host profileName c₂ .drain c₃ := by
    simp [Client.Steps, Client.step, hphase₂, hqueue₂, hempty, c₃]
  have hwait : Client.Steps env host profileName c₃ .wait (c₃.finish env profile (some status)) := rfl
  exact ⟨_, _, .cons hstart (hrun₁.append (hrun₂.append (.cons hdrain (.single hwait)))), rfl⟩

end

end IsekaiTerminal.Build
