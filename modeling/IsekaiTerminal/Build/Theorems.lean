import IsekaiTerminal.Build.Lemmas.Exec

/-!
# ビルドの応答の忠実さ

終了コードと出力が届くのは、終了コードが負でなく、結果のパスと知らせる行が受信側の制限に収まるときである。
-/

namespace IsekaiTerminal.Build

open Lib

variable {serde : Serde} {env : Env} {host profileName : Text} {c : Client} {received : Bytes}

/-! ## 終了コード -/

theorem clampExitCode_eq_zero_iff {exitCode : Int32} : clampExitCode exitCode = 0 ↔ exitCode.toInt ≤ 0 := by
  rw [clampExitCode, ← UInt8.toNat_inj, UInt8.toNat_ofNat']
  simp only [UInt8.toNat_ofNat]
  omega

theorem getD_eq_zero_iff {status : Option Int32} (h : 0 ≤ (status.getD (-1)).toInt) :
    (status.getD (-1)).toInt ≤ 0 ↔ status = some 0 := by
  cases status with
  | none => exact absurd h (by decide)
  | some code =>
      simp only [Option.getD_some, Option.some.injEq] at h ⊢
      constructor
      · intro hle
        exact Int32.toInt_inj.mp (by rw [Int32.toInt_zero]; omega)
      · rintro rfl
        decide

/-! ## 実行の結果 -/

theorem not_arrived (h : c.finished = none) (exitCode : Int32) (paths : List Text) :
    ¬ c.Arrived received exitCode paths := by
  rintro ⟨hfinished, -⟩
  rw [h] at hfinished
  cases hfinished

/-- 完了が届かないとき、終了コードは 0 でない。 -/
theorem exitCode_ne_zero (hpre : received <+: c.offered.flatten)
    (h : ∀ exitCode paths, ¬ c.Arrived received exitCode paths) : (streamBuild serde received).exitCode ≠ 0 := by
  rw [Remote.exitCode, code_streamBuild_eq_none hpre h]
  decide

/-- 完了を送っていない実行は、途中で切れた応答になる。 -/
theorem faithful_of_unfinished (hpre : received <+: c.offered.flatten) (h : c.finished = none) :
    Faithful env host profileName serde c received where
  success := by
    refine iff_of_false (exitCode_ne_zero hpre (not_arrived h)) ?_
    rintro ⟨-, exitCode, paths, harrived⟩
    exact not_arrived h exitCode paths harrived
  accepted exitCode paths hfinished := by
    rw [h] at hfinished
    cases hfinished
  complete exitCode paths harrived := absurd harrived (not_arrived h exitCode paths)

/-- チャンクと完了が制限に収まる実行の応答は、終了コードの対応だけで忠実になる。 -/
theorem faithful_of_finished {exitCode : Int32} {paths : List Text} (hpre : received <+: c.offered.flatten)
    (hfinished : c.finished = some (exitCode, paths))
    (hsmall : ∀ chunk ∈ c.chunks, chunk.2.length ≤ maxBuildChunkDecodedLen)
    (hcount : paths.length ≤ maxBuildResultPaths)
    (hpaths : ∀ path ∈ paths, (encodeUtf8 path).length ≤ maxBuildResultPathLen)
    (hcode : exitCode.toInt ≤ 0 ↔ (child env host profileName).1.wait = some (some 0))
    (hstdout : streamBytes .stdout c.chunks = (child env host profileName).1.stdout)
    (hstderr : streamBytes .stderr c.chunks = (child env host profileName).2 ++ (child env host profileName).1.stderr) :
    Faithful env host profileName serde c received := by
  have hdecode : decodeCtlMessage serde (toVec (.buildFinished exitCode paths)) =
      some (.build (.buildFinished exitCode paths)) := decodeCtlMessage_finished serde hcount hpaths
  have hsame : ∀ {exitCode' paths'}, c.finished = some (exitCode', paths') → exitCode' = exitCode ∧ paths' = paths := by
    intro exitCode' paths' h
    rw [hfinished] at h
    injection h with h
    injection h with hcode hpaths
    exact ⟨hcode.symm, hpaths.symm⟩
  have hresult : ∀ {exitCode' paths'}, c.Arrived received exitCode' paths' → streamBuild serde received =
      ⟨(child env host profileName).1.stdout,
        (child env host profileName).2 ++ (child env host profileName).1.stderr ++ resultNotice paths',
        some (clampExitCode exitCode')⟩ := by
    intro exitCode' paths' harrived
    obtain ⟨rfl, rfl⟩ := hsame harrived.1
    rw [streamBuild_of_arrived hsmall harrived hpre hdecode, hstdout, hstderr]
  refine ⟨?_, ?_, ?_⟩
  · by_cases harrived : ∃ exitCode' paths', c.Arrived received exitCode' paths'
    · obtain ⟨exitCode', paths', harrived⟩ := harrived
      have hexit : (streamBuild serde received).exitCode = clampExitCode exitCode' := by
        rw [hresult harrived]
        rfl
      obtain ⟨rfl, rfl⟩ := hsame harrived.1
      rw [hexit, clampExitCode_eq_zero_iff, hcode]
      exact ⟨fun h => ⟨h, _, _, harrived⟩, fun h => h.1⟩
    · refine iff_of_false (exitCode_ne_zero hpre ?_) fun h => harrived h.2
      exact fun exitCode' paths' h => harrived ⟨exitCode', paths', h⟩
  · intro exitCode' paths' h
    obtain ⟨rfl, rfl⟩ := hsame h
    rw [encodeBuildFinished, decodeLine_frame, hdecode]
  · intro exitCode' paths' harrived
    exact ⟨_, hresult harrived⟩

theorem representable_of_unknown (hfound : env.findProfile host profileName = none) :
    Representable env host profileName ↔
      (unknownProfileNotice env host profileName).length ≤ maxBuildChunkDecodedLen := by
  rw [Representable, hfound]

theorem representable_of_failed {profile : BuildProfile} {error : Text}
    (hfound : env.findProfile host profileName = some profile) (hspawn : env.spawn profile = .failed error) :
    Representable env host profileName ↔
      (spawnFailedNotice env host profileName error).length ≤ maxBuildChunkDecodedLen := by
  simp only [Representable, hfound, hspawn]

theorem representable_of_spawned {profile : BuildProfile} {stdout stderr : Bytes} {status : Option Int32}
    (hfound : env.findProfile host profileName = some profile)
    (hspawn : env.spawn profile = .spawned stdout stderr (some status)) :
    Representable env host profileName ↔ 0 ≤ (status.getD (-1)).toInt ∧
      ∀ path ∈ resultPaths env profile, (encodeUtf8 path).length ≤ maxBuildResultPathLen := by
  simp only [Representable, hfound, hspawn]

theorem Representable.notice (h : Representable env host profileName) :
    (child env host profileName).2.length ≤ maxBuildChunkDecodedLen := by
  cases hfound : env.findProfile host profileName with
  | none => simpa only [child, hfound] using (representable_of_unknown hfound).mp h
  | some profile =>
      cases hspawn : env.spawn profile with
      | failed error => simpa only [child, hfound, hspawn] using (representable_of_failed hfound hspawn).mp h
      | spawned stdout stderr wait => simp [child, hfound, hspawn]

theorem faithful_of_representable (h : Representable env host profileName) {as : List Action}
    (hrun : Run (Client.Steps env host profileName) Client.new as c) (hpre : received <+: c.offered.flatten) :
    Faithful env host profileName serde c received := by
  cases Client.valid_of_run hrun with
  | starting _ _ _ hfinished => exact faithful_of_unfinished hpre hfinished
  | relaying _ hrelayed => exact faithful_of_unfinished hpre hrelayed.unfinished
  | waiting _ hrelayed => exact faithful_of_unfinished hpre hrelayed.unfinished
  | stopped _ hfinished => exact faithful_of_unfinished hpre hfinished
  | reported _ hreported =>
      cases hreported with
      | @refused notice exitCode hcode hchild hchunks hfinished =>
          have hnotice := h.notice
          rw [hchild] at hnotice
          refine faithful_of_finished hpre hfinished ?_ (Nat.zero_le _) (by simp) ?_ ?_ ?_
          · simpa [hchunks] using hnotice
          · rw [hchild]
            exact iff_of_false (by omega) (by simp)
          · simp [hchild, hchunks, streamBytes]
          · simp [hchild, hchunks, streamBytes]
      | @exited profile stdout stderr status hfound hspawn hstdout hstderr hsmall hfinished =>
          have hchild : child env host profileName = (⟨stdout, stderr, some status⟩, []) := by
            simp [child, hfound, hspawn]
          rw [representable_of_spawned hfound hspawn] at h
          refine faithful_of_finished hpre hfinished hsmall (length_resultPaths_le profile) h.2 ?_ ?_ ?_
          · rw [getD_eq_zero_iff h.1, hchild, Option.some.injEq]
          · rw [hstdout, hchild]
          · rw [hstderr, hchild, List.nil_append]

/-! ## 制限に収まらない応答 -/

/-- 知らせる行が長すぎると、届いた応答の全体を受信側が拒否する。 -/
theorem code_eq_none_of_long (serde : Serde) {notice : Bytes} {exitCode : Int32} (hchunks : c.chunks = [(.stderr, notice)])
    (hfinished : c.finished = some (exitCode, [])) (hlong : maxBuildChunkDecodedLen < notice.length) :
    (streamBuild serde c.offered.flatten).code = none := by
  have hinvalid : validateCtlMessage (.build (.buildOutputChunk .stderr (Base64.encode notice))) = false := by
    simpa [validateCtlMessage, Base64.decode_encode] using hlong
  have hline : decodeLine serde (encodeBuildOutputChunk .stderr notice) = none := by
    rw [encodeBuildOutputChunk, decodeLine_frame, decodeCtlMessage_of_invalid serde hinvalid]
  have hlines : splitLines 10 c.offered.flatten =
      [encodeBuildOutputChunk .stderr notice, encodeBuildFinished exitCode []] := by
    have hframes := splitLines_frames (newline_notMem_bodies c.messages) []
    rw [← Client.offered_eq, List.append_nil] at hframes
    rw [hframes]
    simp [Client.offered, hchunks, hfinished, splitLines]
  rw [streamBuild, hlines, streamLines, hline]

theorem Client.arrived_offered {exitCode : Int32} {paths : List Text} (hfinished : c.finished = some (exitCode, paths)) :
    c.Arrived c.offered.flatten exitCode paths := by
  refine ⟨hfinished, [10], ?_⟩
  simp [Client.offered, hfinished, encodeBuildFinished]

theorem not_faithful_of_long {notice : Bytes} (exitCode : Int32) (hchunks : c.chunks = [(.stderr, notice)])
    (hfinished : c.finished = some (exitCode, [])) (hlong : maxBuildChunkDecodedLen < notice.length) :
    ¬ Faithful env host profileName serde c c.offered.flatten := by
  intro hfaithful
  obtain ⟨code, hresult⟩ := hfaithful.complete exitCode [] (Client.arrived_offered hfinished)
  have hnone := code_eq_none_of_long serde hchunks hfinished hlong
  rw [hresult] at hnone
  cases hnone

/-- 負の終了コードは 0 になる。 -/
theorem exitCode_eq_zero_of_negative (serde : Serde) {exitCode : Int32} {paths : List Text}
    (hsmall : ∀ chunk ∈ c.chunks, chunk.2.length ≤ maxBuildChunkDecodedLen)
    (hfinished : c.finished = some (exitCode, paths)) (hcount : paths.length ≤ maxBuildResultPaths)
    (hpaths : ∀ path ∈ paths, (encodeUtf8 path).length ≤ maxBuildResultPathLen) (hneg : exitCode.toInt < 0) :
    (streamBuild serde c.offered.flatten).exitCode = 0 := by
  rw [streamBuild_of_arrived hsmall (Client.arrived_offered hfinished) List.prefix_rfl
    (decodeCtlMessage_finished serde hcount hpaths)]
  exact clampExitCode_eq_zero_iff.mpr (by omega)

theorem small_of_finished (hvalid : c.Valid env host profileName) {profile : BuildProfile} {stdout stderr : Bytes}
    {status : Option Int32} (hfound : env.findProfile host profileName = some profile)
    (hspawn : env.spawn profile = .spawned stdout stderr (some status)) (hfinished : c.finished ≠ none) :
    ∀ chunk ∈ c.chunks, chunk.2.length ≤ maxBuildChunkDecodedLen := by
  cases hvalid with
  | starting _ _ _ hnone => exact absurd hnone hfinished
  | relaying _ hrelayed => exact absurd hrelayed.unfinished hfinished
  | waiting _ hrelayed => exact absurd hrelayed.unfinished hfinished
  | stopped _ hnone => exact absurd hnone hfinished
  | reported _ hreported =>
      cases hreported with
      | refused _ hchild => simp [child, hfound, hspawn] at hchild
      | exited _ _ _ _ hsmall => exact hsmall

/-- 送った完了を受信側がいつも認め、成功だけが終了コード 0 になるなら、完了の値は表せる。 -/
theorem representable_of_faithful
    (h : ∀ as c received, Run (Client.Steps env host profileName) Client.new as c → received <+: c.offered.flatten →
      Faithful env host profileName serde c received) : Representable env host profileName := by
  have hstart : Run (Client.Steps env host profileName) Client.new [.start] (Client.new.start env host profileName) :=
    .single rfl
  cases hfound : env.findProfile host profileName with
  | none =>
      rw [representable_of_unknown hfound]
      by_contra hlong
      refine not_faithful_of_long 127 ?_ ?_ (Nat.lt_of_not_le hlong) (h _ _ _ hstart List.prefix_rfl)
      · simp [Client.start, hfound, Client.refuse]
      · simp [Client.start, hfound, Client.refuse]
  | some profile =>
      cases hspawn : env.spawn profile with
      | failed error =>
          rw [representable_of_failed hfound hspawn]
          by_contra hlong
          refine not_faithful_of_long 126 ?_ ?_ (Nat.lt_of_not_le hlong) (h _ _ _ hstart List.prefix_rfl)
          · simp [Client.start, hfound, hspawn, Client.refuse]
          · simp [Client.start, hfound, hspawn, Client.refuse]
      | spawned stdout stderr wait =>
          cases wait with
          | none => simp [Representable, hfound, hspawn]
          | some status =>
              rw [representable_of_spawned hfound hspawn]
              obtain ⟨as, c, hrun, hfinished⟩ := exists_run_finished hfound hspawn
              have hfaithful := h as c _ hrun List.prefix_rfl
              have hpaths : ∀ path ∈ resultPaths env profile, (encodeUtf8 path).length ≤ maxBuildResultPathLen := by
                have haccepted := hfaithful.accepted _ _ hfinished
                rw [encodeBuildFinished, decodeLine_frame] at haccepted
                have hvalid := validate_of_decodeCtlMessage haccepted
                simp only [validateCtlMessage, Bool.and_eq_true, List.all_eq_true, decide_eq_true_eq] at hvalid
                exact hvalid.2
              refine ⟨?_, hpaths⟩
              by_contra hneg
              have hsmall := small_of_finished (Client.valid_of_run hrun) hfound hspawn (by simp [hfinished])
              have hzero := exitCode_eq_zero_of_negative serde hsmall hfinished
                (length_resultPaths_le profile) hpaths (by omega)
              have hsuccess := (hfaithful.success.mp hzero).1
              simp only [child, hfound, hspawn, Option.some.injEq] at hsuccess
              rw [hsuccess] at hneg
              exact hneg (by decide)

/-- どの実行のどこで接続が閉じても応答が忠実であるのは、完了の値が表せるとき、そのときに限る。 -/
theorem faithful_iff_representable (serde : Serde) (env : Env) (host profileName : Text) :
    (∀ as c received, Run (Client.Steps env host profileName) Client.new as c → received <+: c.offered.flatten →
      Faithful env host profileName serde c received) ↔ Representable env host profileName :=
  ⟨representable_of_faithful, fun h _ _ _ hrun hpre => faithful_of_representable h hrun hpre⟩

/-- 標準出力に `out`、標準エラーに `err` を書いて `status` で終わる子プロセスを起動する環境。 -/
def oneChildEnv (out err : Bytes) (status : Option Int32) : Env where
  findProfile := fun _ _ => some ⟨[], [], none, none⟩
  spawn := fun _ => .spawned out err (some status)
  glob := fun _ _ => none
  debug := id

/-- 2 つの出力を書いて成功するビルドの応答は、どこで切れても忠実である。 -/
theorem faithful_succeededBuild : ∀ as c received,
    Run (Client.Steps (oneChildEnv [111, 107] [33] (some 0)) [] []) Client.new as c → received <+: c.offered.flatten →
      Faithful (oneChildEnv [111, 107] [33] (some 0)) [] [] inverseSerde c received := by
  refine (faithful_iff_representable inverseSerde _ [] []).mpr ?_
  exact (representable_of_spawned rfl rfl).mpr ⟨by decide, fun path hpath => by cases hpath⟩

/-- シグナルで終わったビルドを、受信側は終了コード 0 とする。 -/
theorem exists_run_signalled : ∃ c,
    Run (Client.Steps (oneChildEnv [] [] none) [] []) Client.new [.start, .drain, .wait] c ∧
      (child (oneChildEnv [] [] none) [] []).1.wait = some none ∧
      (streamBuild inverseSerde c.offered.flatten).exitCode = 0 ∧
      ¬ Faithful (oneChildEnv [] [] none) [] [] inverseSerde c c.offered.flatten := by
  let c₀ := Client.new.start (oneChildEnv [] [] none) [] []
  let c₁ : Client := { c₀ with phase := .waiting ⟨[], [], none, none⟩ (some none) }
  let c₂ := c₁.finish (oneChildEnv [] [] none) ⟨[], [], none, none⟩ (some none)
  have hdrain : Client.Steps (oneChildEnv [] [] none) [] [] c₀ .drain c₁ := by
    simp [Client.Steps, Client.step, c₀, c₁, Client.start, oneChildEnv, Client.new]
  have hfinished : c₂.finished = some (-1, []) := rfl
  have hzero : (streamBuild inverseSerde c₂.offered.flatten).exitCode = 0 :=
    exitCode_eq_zero_of_negative inverseSerde
      (by simp [c₂, c₁, c₀, Client.start, oneChildEnv, Client.new, Client.finish]) hfinished (Nat.zero_le _)
      (fun path hpath => by cases hpath) (by decide)
  refine ⟨c₂, .cons rfl (.cons hdrain (.single rfl)), rfl, hzero, fun hfaithful => ?_⟩
  have hwait := (hfaithful.success.mp hzero).1
  cases hwait

end IsekaiTerminal.Build
