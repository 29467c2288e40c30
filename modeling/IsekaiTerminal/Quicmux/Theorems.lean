import IsekaiTerminal.Quicmux.Resume

/-!
# RESUME の要求の復号
-/

namespace IsekaiTerminal.Quicmux

open Lib

/-! ## 1 つの欄 -/

theorem boundedFieldLen_beEncode {len : Nat} (h : len ≤ maxResumeFieldLen) (field : String) :
    boundedFieldLen (beEncode 2 (len % 2 ^ 16)) field = .ok len := by
  have hlt : len < 2 ^ 16 := Nat.lt_of_le_of_lt h (by decide)
  have hdecode : beDecode (beEncode 2 (len % 2 ^ 16)) = len := by
    rw [Nat.mod_eq_of_lt hlt, beDecode_beEncode (by simpa using hlt)]
  rw [boundedFieldLen, hdecode]
  exact if_neg (Nat.not_lt.mpr h)

theorem boundedFieldLen_eq_ok {lenBytes : List UInt8} {field : String} {len : Nat}
    (h : boundedFieldLen lenBytes field = .ok len) : beDecode lenBytes = len ∧ len ≤ maxResumeFieldLen := by
  simp only [boundedFieldLen] at h
  split at h
  · cases h
  · next hle =>
      cases h
      exact ⟨rfl, Nat.not_lt.mp hle⟩

theorem yields_readField (bytes : List UInt8) : ReadM.Yields (readField bytes.length) bytes bytes :=
  (ReadM.Yields.alloc _).bind_nil (.readExact _ rfl)

theorem pending_of_readField {len : Nat} {s s' : Source UInt8 MuxError} {bytes : List UInt8}
    (h : readField len s = (.ok bytes, s')) : bytes.length = len ∧ s.pending = bytes ++ s'.pending := by
  obtain ⟨_, mid, halloc, hread⟩ := ReadM.bind_eq_ok_iff.mp h
  obtain ⟨hlen, hpending, -⟩ := ReadM.pending_of_readExact hread
  rw [ReadM.pending_of_alloc halloc] at hpending
  exact ⟨hlen, hpending⟩

/-- 長さの前置きと欄を読み、`next` へ続ける。復号の 2 つの欄に共通する部分である。 -/
theorem yields_lengthPrefixed {γ : Type} {field : List UInt8} (hfield : field.length ≤ maxResumeFieldLen) (name : String)
    {next : List UInt8 → ReadM UInt8 MuxError γ} {bytes : List UInt8} {c : γ} (hnext : ReadM.Yields (next field) bytes c) :
    ReadM.Yields (do
      let lenBytes ← readExact 2
      let len ← ReadM.lift (boundedFieldLen lenBytes name)
      let field ← readField len
      next field) (beEncode 2 (field.length % 2 ^ 16) ++ (field ++ bytes)) c :=
  (ReadM.Yields.readExact endedEarly (length_beEncode 2 _)).bind
    ((ReadM.Yields.lift (boundedFieldLen_beEncode hfield name)).bind_nil ((yields_readField field).bind hnext))

theorem pending_of_lengthPrefixed {γ : Type} {name : String} {next : List UInt8 → ReadM UInt8 MuxError γ}
    {s s' : Source UInt8 MuxError} {c : γ}
    (h : (do
      let lenBytes ← readExact 2
      let len ← ReadM.lift (boundedFieldLen lenBytes name)
      let field ← readField len
      next field) s = (.ok c, s')) :
    ∃ field mid, field.length ≤ maxResumeFieldLen ∧
      s.pending = beEncode 2 (field.length % 2 ^ 16) ++ (field ++ mid.pending) ∧ next field mid = (.ok c, s') := by
  obtain ⟨lenBytes, s₁, hlen, h⟩ := ReadM.bind_eq_ok_iff.mp h
  obtain ⟨len, s₂, hlift, h⟩ := ReadM.bind_eq_ok_iff.mp h
  obtain ⟨hbound, rfl⟩ := ReadM.lift_eq_ok_iff.mp hlift
  obtain ⟨field, mid, hfield, hnext⟩ := ReadM.bind_eq_ok_iff.mp h
  obtain ⟨hlenBytes, hpending, -⟩ := ReadM.pending_of_readExact hlen
  obtain ⟨hdecode, hle⟩ := boundedFieldLen_eq_ok hbound
  obtain ⟨rfl, hpending'⟩ := pending_of_readField hfield
  have hlt : field.length < 2 ^ 16 := Nat.lt_of_le_of_lt hle (by decide)
  refine ⟨field, mid, hle, ?_, hnext⟩
  rw [hpending, hpending', Nat.mod_eq_of_lt hlt, ← hdecode, ← hlenBytes, beEncode_beDecode]

theorem allocates_lengthPrefixed {γ : Type} (name : String) {next : List UInt8 → ReadM UInt8 MuxError γ}
    (hnext : ∀ field, ReadM.AllocatesAtMost maxResumeFieldLen (next field)) :
    ReadM.AllocatesAtMost maxResumeFieldLen (do
      let lenBytes ← readExact 2
      let len ← ReadM.lift (boundedFieldLen lenBytes name)
      let field ← readField len
      next field) := by
  refine (ReadM.AllocatesAtMost.readExact _ _ _).bind fun lenBytes => ReadM.AllocatesAtMost.lift_bind fun len hlen => ?_
  have hle := (boundedFieldLen_eq_ok hlen).2
  exact ((ReadM.AllocatesAtMost.alloc hle).bind fun _ => ReadM.AllocatesAtMost.readExact _ _ _).bind hnext

/-! ## offset の欄 -/

theorem ofNat_beDecode_beEncode (offset : UInt64) : UInt64.ofNat (beDecode (beEncode 8 offset.toNat)) = offset := by
  rw [beDecode_beEncode offset.toNat_lt, UInt64.ofNat_toNat]

theorem beEncode_toNat_ofNat {bytes : List UInt8} (h : bytes.length = 8) :
    beEncode 8 (UInt64.ofNat (beDecode bytes)).toNat = bytes := by
  have hlt : beDecode bytes < 2 ^ 64 := by
    have hdecode := beDecode_lt bytes
    rwa [h] at hdecode
  rw [UInt64.toNat_ofNat_of_lt' hlt, ← h, beEncode_beDecode]

/-! ## 要求の全体 -/

theorem encodeResumeRequest_eq_ok_iff {req : ResumeRequestToSend} {buf : List UInt8} :
    encodeResumeRequest req = .ok buf ↔
      (req.token.length ≤ maxResumeFieldLen ∧ req.authBlob.length ≤ maxResumeFieldLen) ∧
        buf = frameResume :: resumeRequestBody req := by
  rw [encodeResumeRequest]
  split
  · next htoken => simp [Nat.not_le.mpr htoken]
  · next htoken =>
      split
      · next hauth => simp [Nat.not_le.mpr hauth]
      · next hauth => simp [Nat.not_lt.mp htoken, Nat.not_lt.mp hauth, eq_comm]

theorem yields_decodeResumeRequest {req : ResumeRequestToSend} (htoken : req.token.length ≤ maxResumeFieldLen)
    (hauth : req.authBlob.length ≤ maxResumeFieldLen) (connExporter : Vector UInt8 32) :
    ReadM.Yields (decodeResumeRequest connExporter) (resumeRequestBody req)
      ⟨req.token, req.authBlob, connExporter, req.clientSentOffset, req.clientDeliveredOffset⟩ := by
  refine yields_lengthPrefixed htoken "token" (yields_lengthPrefixed hauth "auth_blob" ?_)
  refine (ReadM.Yields.readExact endedEarly (length_beEncode 8 _)).bind ?_
  rw [← List.append_nil (beEncode 8 req.clientDeliveredOffset.toNat)]
  refine (ReadM.Yields.readExact endedEarly (length_beEncode 8 _)).bind ?_
  rw [ofNat_beDecode_beEncode, ofNat_beDecode_beEncode]
  exact .pure _

/-- 復号が返した要求を送る形に戻したもの。 -/
def ResumeRequest.toSend (req : ResumeRequest) : ResumeRequestToSend :=
  ⟨req.token, req.authBlob, req.clientSentOffset, req.clientDeliveredOffset⟩

theorem pending_of_decodeResumeRequest {connExporter : Vector UInt8 32} {s s' : Source UInt8 MuxError}
    {req : ResumeRequest} (h : decodeResumeRequest connExporter s = (.ok req, s')) :
    (req.token.length ≤ maxResumeFieldLen ∧ req.authBlob.length ≤ maxResumeFieldLen) ∧
      req.connExporter = connExporter ∧ s.pending = resumeRequestBody req.toSend ++ s'.pending := by
  obtain ⟨token, s₁, htoken, hpending₁, h⟩ := pending_of_lengthPrefixed h
  obtain ⟨authBlob, s₂, hauth, hpending₂, h⟩ := pending_of_lengthPrefixed h
  obtain ⟨sent, s₃, hsent, h⟩ := ReadM.bind_eq_ok_iff.mp h
  obtain ⟨delivered, s₄, hdelivered, h⟩ := ReadM.bind_eq_ok_iff.mp h
  obtain ⟨rfl, rfl⟩ := ReadM.pure_eq_ok_iff.mp h
  obtain ⟨hsentLen, hpending₃, -⟩ := ReadM.pending_of_readExact hsent
  obtain ⟨hdeliveredLen, hpending₄, -⟩ := ReadM.pending_of_readExact hdelivered
  refine ⟨⟨htoken, hauth⟩, rfl, ?_⟩
  simp only [resumeRequestBody, ResumeRequest.toSend, beEncode_toNat_ofNat hsentLen, beEncode_toNat_ofNat hdeliveredLen,
    hpending₁, hpending₂, hpending₃, hpending₄, List.append_assoc]

theorem allocates_decodeResumeRequest (connExporter : Vector UInt8 32) :
    ReadM.AllocatesAtMost maxResumeFieldLen (decodeResumeRequest connExporter) :=
  allocates_lengthPrefixed "token" fun _ => allocates_lengthPrefixed "auth_blob" fun _ =>
    (ReadM.AllocatesAtMost.readExact _ _ _).bind fun _ =>
      (ReadM.AllocatesAtMost.readExact _ _ _).bind fun _ => ReadM.AllocatesAtMost.pure _ _

/-!
## RESUME の要求の符号の主結果

符号化できる要求は、どのように分かれて届いても、後ろに何が続いても、もとの要求に戻り、符号化した長さだけを消費する。
復号は、符号化の像だけを受け入れ、上限より長い欄を確保しない。
-/

/-- `body` で始まる列からは、切れ目によらず、`body` だけを消費して `req` を復元する。 -/
def Restores (req : ResumeRequestToSend) (body : List UInt8) : Prop :=
  ∀ connExporter s rest, s.pending = body ++ rest →
    ∃ s', decodeResumeRequest connExporter s =
        (.ok ⟨req.token, req.authBlob, connExporter, req.clientSentOffset, req.clientDeliveredOffset⟩, s') ∧
      s'.pending = rest

theorem resumeRequest_codec :
    (∀ req, (∃ buf, encodeResumeRequest req = .ok buf) ↔
        req.token.length ≤ maxResumeFieldLen ∧ req.authBlob.length ≤ maxResumeFieldLen) ∧
      (∀ req buf, encodeResumeRequest req = .ok buf → ∃ body, buf = frameResume :: body ∧ Restores req body) ∧
      (∀ connExporter s req s', decodeResumeRequest connExporter s = (.ok req, s') →
        req.connExporter = connExporter ∧
          ∃ body, encodeResumeRequest req.toSend = .ok (frameResume :: body) ∧ s.pending = body ++ s'.pending) ∧
      ∀ connExporter s, s.allocated = [] →
        ∀ size ∈ (decodeResumeRequest connExporter s).2.allocated, size ≤ maxResumeFieldLen := by
  refine ⟨fun req => ?_, fun req buf h => ?_, fun connExporter s req s' h => ?_, fun connExporter s h => ?_⟩
  · simp only [encodeResumeRequest_eq_ok_iff, exists_and_left, exists_eq, and_true]
  · obtain ⟨⟨htoken, hauth⟩, rfl⟩ := encodeResumeRequest_eq_ok_iff.mp h
    refine ⟨_, rfl, fun connExporter s rest hpending => ?_⟩
    obtain ⟨s', hrun, hrest, -⟩ := yields_decodeResumeRequest htoken hauth connExporter s rest hpending
    exact ⟨s', hrun, hrest⟩
  · obtain ⟨hbounds, hexporter, hpending⟩ := pending_of_decodeResumeRequest h
    exact ⟨hexporter, _, encodeResumeRequest_eq_ok_iff.mpr ⟨hbounds, rfl⟩, hpending⟩
  · exact allocates_decodeResumeRequest connExporter s (by simp [h])

/-- 1 バイトずつ届く要求の後に、利用者のバイトが続く。 -/
example :
    (decodeResumeRequest (Vector.replicate 32 0)
      ⟨((resumeRequestBody ⟨[7], [8, 9], 1, 2⟩ ++ [42]).map fun b => [b]), by decide, none, []⟩).2.pending = [42] := by
  decide

end IsekaiTerminal.Quicmux
