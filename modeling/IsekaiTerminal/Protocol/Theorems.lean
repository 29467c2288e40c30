import IsekaiTerminal.Protocol.AttachCodec

/-!
# 欄とフレームの符号の補題

各欄の復号は符号化の像だけを受け入れる。フレームの復号は、長さの検査と、欄ごとの前方一致に分解される。
-/

namespace IsekaiTerminal.Protocol

open Lib

attribute [simp] Bytes.length_eq

theorem Bytes.toList_injective {n : Nat} {a b : Bytes n} (h : a.toList = b.toList) : a = b := by
  cases a
  cases b
  simpa using h

@[simp] theorem length_u64ToBeBytes (x : UInt64) : (u64ToBeBytes x).length = 8 := length_beEncode 8 _

@[simp] theorem length_u32ToBeBytes (x : UInt32) : (u32ToBeBytes x).length = 4 := length_beEncode 4 _

@[simp] theorem length_u16ToBeBytes (x : UInt16) : (u16ToBeBytes x).length = 2 := length_beEncode 2 _

/-! ## 欄 -/

theorem decodeFixed_exact (n : Nat) : Exact Bytes.toList (decodeFixed n) := by
  intro bs a
  unfold decodeFixed
  constructor
  · intro h
    split at h
    · cases h
      rfl
    · cases h
  · rintro rfl
    simp

theorem decodeGeneration_exact : Exact u64ToBeBytes decodeGeneration := by
  intro bs g
  simp only [decodeGeneration, bind_eq_ok_iff, pure, Except.pure, Except.ok.injEq]
  constructor
  · rintro ⟨bytes, hbytes, rfl⟩
    have hlt := beDecode_lt bytes.toList
    rw [bytes.length_eq] at hlt
    have henc := beEncode_beDecode bytes.toList
    rw [bytes.length_eq] at henc
    rw [← (decodeFixed_exact _).encode_decode hbytes, u64ToBeBytes,
      UInt64.toNat_ofNat_of_lt' (by simpa [generationLen] using hlt), henc]
  · rintro rfl
    refine ⟨⟨u64ToBeBytes g, length_u64ToBeBytes g⟩, (decodeFixed_exact _ _ _).mpr rfl, ?_⟩
    have hdec : beDecode (beEncode 8 g.toNat) = g.toNat := beDecode_beEncode (by simpa using g.toNat_lt)
    simp only [u64ToBeBytes, hdec, UInt64.ofNat_toNat]

theorem decodeGraceSecs_exact : Exact u32ToBeBytes decodeGraceSecs := by
  intro bs x
  simp only [decodeGraceSecs, bind_eq_ok_iff, pure, Except.pure, Except.ok.injEq]
  constructor
  · rintro ⟨bytes, hbytes, rfl⟩
    have hlt := beDecode_lt bytes.toList
    rw [bytes.length_eq] at hlt
    have henc := beEncode_beDecode bytes.toList
    rw [bytes.length_eq] at henc
    rw [← (decodeFixed_exact _).encode_decode hbytes, u32ToBeBytes,
      UInt32.toNat_ofNat_of_lt' (by simpa using hlt), henc]
  · rintro rfl
    refine ⟨⟨u32ToBeBytes x, length_u32ToBeBytes x⟩, (decodeFixed_exact _ _ _).mpr rfl, ?_⟩
    have hdec : beDecode (beEncode 4 x.toNat) = x.toNat := beDecode_beEncode (by simpa using x.toNat_lt)
    simp only [u32ToBeBytes, hdec, UInt32.ofNat_toNat]

theorem decodeAttachToken_exact : Exact (fun t : AttachToken => t.bytes.toList) decodeAttachToken := by
  rintro bs ⟨t⟩
  have h := decodeFixed_exact attachTokenLen bs t
  simp only [decodeAttachToken, bind_eq_ok_iff, pure, Except.pure, Except.ok.injEq, AttachToken.mk.injEq,
    exists_eq_right, h]

theorem decodeAttachProof_exact : Exact (fun p : AttachProof => p.bytes.toList) decodeAttachProof := by
  rintro bs ⟨p⟩
  have h := decodeFixed_exact attachProofLen bs p
  simp only [decodeAttachProof, bind_eq_ok_iff, pure, Except.pure, Except.ok.injEq, AttachProof.mk.injEq,
    exists_eq_right, h]

theorem expectFrame_eq_ok_iff {buf : List UInt8} {len : Nat} {type : UInt8} (hlen : 0 < len) :
    expectFrame buf len type = .ok () ↔ buf.length = len ∧ [type] <+: buf := by
  cases buf with
  | nil => simp [expectFrame, hlen.ne]
  | cons b rest =>
      by_cases hl : rest.length + 1 = len
      · by_cases hb : b = type
        · simp [expectFrame, hl, hb]
        · simp [expectFrame, hl, hb, Ne.symm hb]
      · simp [expectFrame, hl]

/-! ## 切り出した欄の復号 -/

section

variable {buf : List UInt8}

theorem decodeSessionId_slice_iff (pos : Nat) (a : SessionId) :
    decodeSessionId (slice buf pos sessionIdLen) = .ok a ↔ a.toList <+: buf.drop pos :=
  (decodeFixed_exact sessionIdLen).slice_iff (fun a => a.length_eq) buf pos a

theorem decodeAttemptId_slice_iff (pos : Nat) (a : AttemptId) :
    decodeAttemptId (slice buf pos attemptIdLen) = .ok a ↔ a.toList <+: buf.drop pos :=
  (decodeFixed_exact attemptIdLen).slice_iff (fun a => a.length_eq) buf pos a

theorem decodeGeneration_slice_iff (pos : Nat) (g : ConnectionGeneration) :
    decodeGeneration (slice buf pos generationLen) = .ok g ↔ u64ToBeBytes g <+: buf.drop pos :=
  decodeGeneration_exact.slice_iff length_u64ToBeBytes buf pos g

theorem decodeGraceSecs_slice_iff (pos : Nat) (x : UInt32) :
    decodeGraceSecs (slice buf pos 4) = .ok x ↔ u32ToBeBytes x <+: buf.drop pos :=
  decodeGraceSecs_exact.slice_iff length_u32ToBeBytes buf pos x

theorem decodeAttachToken_slice_iff (pos : Nat) (t : AttachToken) :
    decodeAttachToken (slice buf pos attachTokenLen) = .ok t ↔ t.bytes.toList <+: buf.drop pos :=
  decodeAttachToken_exact.slice_iff (fun t => t.bytes.length_eq) buf pos t

theorem decodeAttachProof_slice_iff (pos : Nat) (p : AttachProof) :
    decodeAttachProof (slice buf pos attachProofLen) = .ok p ↔ p.bytes.toList <+: buf.drop pos :=
  decodeAttachProof_exact.slice_iff (fun p => p.bytes.length_eq) buf pos p

/-! ## フレーム -/

theorem decodeAttachHello_exact : Exact encodeAttachHello decodeAttachHello := by
  intro buf frame
  have hlen : (encodeAttachHello frame).length = attachHelloFrameLen := by
    simp [encodeAttachHello, attachHelloFrameLen, sessionIdLen, generationLen, attemptIdLen, attachProofLen]
  rw [← prefix_and_length_iff, hlen]
  obtain ⟨sessionId, generation, attemptId, graceSecs, proof⟩ := frame
  simp only [decodeAttachHello, bind_eq_ok_iff, expectFrame_eq_ok_iff (show 0 < attachHelloFrameLen by decide),
    decodeSessionId_slice_iff, decodeGeneration_slice_iff, decodeAttemptId_slice_iff, decodeGraceSecs_slice_iff,
    decodeAttachProof_slice_iff, encodeAttachHello, append_prefix_iff]
  simp [pure, Except.pure, and_assoc, and_left_comm, and_comm]

theorem decodeAttachActivate_exact : Exact encodeAttachActivate decodeAttachActivate := by
  intro buf frame
  have hlen : (encodeAttachActivate frame).length = attachActivateFrameLen := by
    simp [encodeAttachActivate, attachActivateFrameLen, sessionIdLen, generationLen, attemptIdLen,
      attachTokenLen]
  rw [← prefix_and_length_iff, hlen]
  obtain ⟨sessionId, generation, attemptId, attachToken⟩ := frame
  simp only [decodeAttachActivate, bind_eq_ok_iff,
    expectFrame_eq_ok_iff (show 0 < attachActivateFrameLen by decide), decodeSessionId_slice_iff,
    decodeGeneration_slice_iff, decodeAttemptId_slice_iff, decodeAttachToken_slice_iff, encodeAttachActivate,
    append_prefix_iff]
  simp [pure, Except.pure, and_assoc, and_left_comm, and_comm]

theorem decodeCancelAttach_exact : Exact encodeCancelAttach decodeCancelAttach := by
  intro buf frame
  have hlen : (encodeCancelAttach frame).length = cancelAttachFrameLen := by
    simp [encodeCancelAttach, cancelAttachFrameLen, sessionIdLen, generationLen, attemptIdLen, attachProofLen]
  rw [← prefix_and_length_iff, hlen]
  obtain ⟨sessionId, generation, attemptId, proof⟩ := frame
  simp only [decodeCancelAttach, bind_eq_ok_iff, expectFrame_eq_ok_iff (show 0 < cancelAttachFrameLen by decide),
    decodeSessionId_slice_iff, decodeGeneration_slice_iff, decodeAttemptId_slice_iff,
    decodeAttachProof_slice_iff, encodeCancelAttach, append_prefix_iff]
  simp [pure, Except.pure, and_assoc, and_left_comm, and_comm]

/-! ## 拒否と応答 -/

theorem bareRejectReason?_eq_some_iff {type : UInt8} {reason : AttachRejectReason} :
    bareRejectReason? type = some reason ↔ encodeAttachReject reason = [type] := by
  unfold bareRejectReason?
  constructor
  · intro h
    split_ifs at h <;> cases h <;> simp_all [encodeAttachReject]
  · intro h
    cases reason with
    | staleGeneration g =>
        have hlen := congrArg List.length h
        simp [encodeAttachReject] at hlen
    | _ =>
        simp only [encodeAttachReject, List.cons.injEq, and_true] at h
        subst h
        rfl

theorem decodeAttachReject_exact : Exact encodeAttachReject decodeAttachReject := by
  intro buf reason
  constructor
  · intro h
    cases buf with
    | nil => cases h
    | cons type rest =>
        simp only [decodeAttachReject] at h
        cases hbare : bareRejectReason? type with
        | some r =>
            simp only [hbare] at h
            split at h
            · cases h
            · rename_i hlen
              cases h
              have hrest : rest = [] := by simpa using hlen
              rw [hrest, bareRejectReason?_eq_some_iff.mp hbare]
        | none =>
            simp only [hbare] at h
            split at h
            · rename_i htype
              split at h
              · cases h
              · obtain ⟨g, hg, hr⟩ := bind_eq_ok_iff.mp h
                cases hr
                rw [encodeAttachReject, decodeGeneration_exact.encode_decode hg, htype]
                rfl
            · cases h
  · rintro rfl
    cases reason with
    | staleGeneration g =>
        have hbare : bareRejectReason? frameRejectStaleGeneration = none := by decide
        simp [encodeAttachReject, decodeAttachReject, hbare, staleGenerationRejectFrameLen, generationLen,
          decodeGeneration_exact.decode_encode g, bind, Except.bind, pure, Except.pure]
    | _ => rfl

theorem decodeAttachResponse_exact : Exact encodeAttachResponse decodeAttachResponse := by
  intro buf response
  cases buf with
  | nil =>
      cases response with
      | ready => simp [decodeAttachResponse, encodeAttachResponse]
      | reject reason => cases reason <;> simp [decodeAttachResponse, encodeAttachResponse, encodeAttachReject]
  | cons type rest =>
      simp only [decodeAttachResponse, List.head?_cons]
      split
      · rename_i htype
        subst htype
        cases response with
        | reject reason =>
            -- 拒否の種別のバイトは `ATTACH_READY` のものと異なる。
            have hne : encodeAttachReject reason ≠ frameAttachReady :: rest := by
              cases reason <;> simp [encodeAttachReject, frameAttachReady, frameRejectAuth, frameRejectTarget,
                frameRejectUnsupported, frameRejectAlreadyAttached, frameRejectStaleGeneration,
                frameRejectBusyOtherSession, frameRejectAttachAlreadyEstablished]
            simp only [encodeAttachResponse, hne, iff_false]
            split
            · simp
            · simp [bind_eq_ok_iff, pure, Except.pure]
        | ready sessionId generation attemptId graceSecs attachToken =>
            have hlen : (encodeAttachResponse (.ready sessionId generation attemptId graceSecs attachToken)).length =
                attachReadyFrameLen := by
              simp [encodeAttachResponse, attachReadyFrameLen, sessionIdLen, generationLen, attemptIdLen,
                attachTokenLen]
            rw [← prefix_and_length_iff, hlen]
            split
            · rename_i hbuf
              simp only [reduceCtorEq, false_iff, not_and]
              exact fun _ => hbuf
            · rename_i hbuf
              simp only [bind_eq_ok_iff, decodeSessionId_slice_iff, decodeGeneration_slice_iff,
                decodeAttemptId_slice_iff, decodeGraceSecs_slice_iff, decodeAttachToken_slice_iff,
                encodeAttachResponse, append_prefix_iff]
              simp only [not_not] at hbuf
              simp [pure, Except.pure, and_assoc, and_left_comm, and_comm, hbuf]
      · rename_i htype
        cases response with
        | ready sessionId generation attemptId graceSecs attachToken =>
            simp [encodeAttachResponse, bind_eq_ok_iff, pure, Except.pure, Ne.symm htype]
        | reject reason =>
            simp only [bind_eq_ok_iff, decodeAttachReject_exact _ _, encodeAttachResponse]
            simp [pure, Except.pure]

end

/-!
## ATTACH v2 の符号と transcript の主結果

4 種類のフレームの符号化は、どの 2 つも同じバイト列にならず、復号は符号化の像だけを受け入れる。
MAC へ入力するバイト列も、フレームの種別とすべての欄を決める。
-/

/-! ## フレームの全体 -/

/-- 線上を流れるフレーム。 -/
inductive Frame
  | hello (frame : AttachHello)
  | activate (frame : AttachActivate)
  | cancel (frame : CancelAttach)
  | response (resp : AttachResponse)
deriving DecidableEq

def Frame.encode : Frame → List UInt8
  | .hello frame => encodeAttachHello frame
  | .activate frame => encodeAttachActivate frame
  | .cancel frame => encodeCancelAttach frame
  | .response resp => encodeAttachResponse resp

/-- フレームの種別に応じた復号が、バイト列 `buf` をそのフレームとして受け入れる。 -/
def Frame.DecodedFrom (buf : List UInt8) : Frame → Prop
  | .hello frame => decodeAttachHello buf = .ok frame
  | .activate frame => decodeAttachActivate buf = .ok frame
  | .cancel frame => decodeCancelAttach buf = .ok frame
  | .response resp => decodeAttachResponse buf = .ok resp

theorem Frame.decodedFrom_iff {buf : List UInt8} {frame : Frame} : frame.DecodedFrom buf ↔ frame.encode = buf := by
  cases frame with
  | hello frame => exact decodeAttachHello_exact buf frame
  | activate frame => exact decodeAttachActivate_exact buf frame
  | cancel frame => exact decodeCancelAttach_exact buf frame
  | response resp => exact decodeAttachResponse_exact buf resp

/-- 先頭のバイト。応答では拒否の理由ごとに異なる。 -/
def Frame.typeByte : Frame → UInt8
  | .hello _ => frameAttachHello
  | .activate _ => frameAttachActivate
  | .cancel _ => frameAttachCancel
  | .response resp => (encodeAttachResponse resp).headD 0

theorem Frame.head?_encode (frame : Frame) : frame.encode.head? = some frame.typeByte := by
  cases frame with
  | response resp =>
      cases resp with
      | ready => simp [Frame.encode, Frame.typeByte, encodeAttachResponse]
      | reject reason => cases reason <;> rfl
  | _ => simp [Frame.encode, Frame.typeByte, encodeAttachHello, encodeAttachActivate, encodeCancelAttach]

theorem typeByte_response_ne (resp : AttachResponse) :
    (Frame.response resp).typeByte ≠ frameAttachHello ∧ (Frame.response resp).typeByte ≠ frameAttachActivate ∧
      (Frame.response resp).typeByte ≠ frameAttachCancel := by
  cases resp with
  | ready =>
      simp only [Frame.typeByte, encodeAttachResponse, List.append_assoc, List.cons_append, List.headD_cons]
      decide
  | reject reason =>
      cases reason with
      | staleGeneration g =>
          simp only [Frame.typeByte, encodeAttachResponse, encodeAttachReject, List.cons_append, List.headD_cons]
          decide
      | _ => decide

theorem Frame.encode_injective {p q : Frame} (h : p.encode = q.encode) : p = q := by
  have htype : p.typeByte = q.typeByte := by
    have hhead := congrArg List.head? h
    rw [head?_encode, head?_encode] at hhead
    exact Option.some.inj hhead
  have hdec := decodedFrom_iff.mpr h
  have hself := decodedFrom_iff.mpr (rfl : q.encode = q.encode)
  cases p with
  | hello p =>
      cases q with
      | hello q => exact congrArg Frame.hello (Except.ok.inj (hdec.symm.trans hself))
      | response q => exact absurd htype.symm (typeByte_response_ne q).1
      | _ => exact absurd htype (by simp only [typeByte]; decide)
  | activate p =>
      cases q with
      | activate q => exact congrArg Frame.activate (Except.ok.inj (hdec.symm.trans hself))
      | response q => exact absurd htype.symm (typeByte_response_ne q).2.1
      | _ => exact absurd htype (by simp only [typeByte]; decide)
  | cancel p =>
      cases q with
      | cancel q => exact congrArg Frame.cancel (Except.ok.inj (hdec.symm.trans hself))
      | response q => exact absurd htype.symm (typeByte_response_ne q).2.2
      | _ => exact absurd htype (by simp only [typeByte]; decide)
  | response p =>
      cases q with
      | response q => exact congrArg Frame.response (Except.ok.inj (hdec.symm.trans hself))
      | hello q => exact absurd htype (typeByte_response_ne p).1
      | activate q => exact absurd htype (typeByte_response_ne p).2.1
      | cancel q => exact absurd htype (typeByte_response_ne p).2.2

/-- 復号は符号化の逆であり、1 つのバイト列を受け入れる復号は高々 1 つである。 -/
theorem wire_exact :
    (∀ frame : Frame, frame.DecodedFrom frame.encode) ∧
      ∀ (buf : List UInt8) (frame : Frame), frame.DecodedFrom buf →
        frame.encode = buf ∧ ∀ other : Frame, other.DecodedFrom buf → other = frame := by
  refine ⟨fun frame => Frame.decodedFrom_iff.mpr rfl, ?_⟩
  intro buf frame h
  have henc := Frame.decodedFrom_iff.mp h
  refine ⟨henc, ?_⟩
  intro other hother
  exact Frame.encode_injective ((Frame.decodedFrom_iff.mp hother).trans henc.symm)

/-! ## transcript -/

/-- `extra` の長さ。種別ごとに異なる。 -/
def ProvedFrame.extraLen : ProvedFrame → Nat
  | .attachHello .. => 74
  | .cancelAttach .. => 71
  | .standbyHold => 27
  | .resume _ => 16
  | .controlHello => 0

theorem ProvedFrame.length_extra (frame : ProvedFrame) : frame.extra.length = frame.extraLen := by
  cases frame with
  | attachHello =>
      have hdomain : attachHelloProofDomain.length = 27 := by decide
      simp [extra, extraLen, attachHelloProofTranscript, hdomain]
  | cancelAttach =>
      have hdomain : cancelAttachProofDomain.length = 28 := by decide
      simp [extra, extraLen, cancelAttachProofTranscript, hdomain]
  | standbyHold => decide
  | resume sessionId => exact sessionId.length_eq
  | controlHello => rfl

theorem u64ToBeBytes_injective {x y : UInt64} (h : u64ToBeBytes x = u64ToBeBytes y) : x = y := by
  have hx := decodeGeneration_exact.decode_encode x
  rw [h, decodeGeneration_exact.decode_encode y] at hx
  exact (Except.ok.inj hx).symm

theorem u32ToBeBytes_injective {x y : UInt32} (h : u32ToBeBytes x = u32ToBeBytes y) : x = y := by
  have hx := decodeGraceSecs_exact.decode_encode x
  rw [h, decodeGraceSecs_exact.decode_encode y] at hx
  exact (Except.ok.inj hx).symm

/-- 固定長の欄だけを並べた列は、後ろの欄から順に読み取れる。 -/
theorem ProvedFrame.extra_injective {p q : ProvedFrame} (h : p.extra = q.extra) : p = q := by
  have hlen : p.extraLen = q.extraLen := by rw [← length_extra, ← length_extra, h]
  cases p with
  | attachHello =>
      cases q with
      | attachHello =>
          simp only [extra, attachHelloProofTranscript] at h
          obtain ⟨h, hgrace⟩ := List.append_inj' h (by simp)
          obtain ⟨h, hattempt⟩ := List.append_inj' h (by simp)
          obtain ⟨h, hgeneration⟩ := List.append_inj' h (by simp)
          obtain ⟨-, hsession⟩ := List.append_inj' h (by simp)
          rw [Bytes.toList_injective hsession, u64ToBeBytes_injective hgeneration,
            Bytes.toList_injective hattempt, u32ToBeBytes_injective hgrace]
      | _ => exact absurd hlen (by simp only [extraLen]; decide)
  | cancelAttach =>
      cases q with
      | cancelAttach =>
          simp only [extra, cancelAttachProofTranscript] at h
          obtain ⟨h, hattempt⟩ := List.append_inj' h (by simp)
          obtain ⟨h, hgeneration⟩ := List.append_inj' h (by simp)
          obtain ⟨-, hsession⟩ := List.append_inj' h (by simp)
          rw [Bytes.toList_injective hsession, u64ToBeBytes_injective hgeneration,
            Bytes.toList_injective hattempt]
      | _ => exact absurd hlen (by simp only [extraLen]; decide)
  | standbyHold =>
      cases q with
      | standbyHold => rfl
      | _ => exact absurd hlen (by simp only [extraLen]; decide)
  | resume =>
      cases q with
      | resume => rw [Bytes.toList_injective h]
      | _ => exact absurd hlen (by simp only [extraLen]; decide)
  | controlHello =>
      cases q with
      | controlHello => rfl
      | _ => exact absurd hlen (by simp only [extraLen]; decide)

/-- MAC へ入力するバイト列が等しいのは、exporter も、フレームの種別とすべての欄も等しいときに限る。 -/
theorem macInput_inj (exporter exporter' : Bytes 32) (p q : ProvedFrame) :
    macInput exporter p = macInput exporter' q ↔ exporter = exporter' ∧ p = q := by
  constructor
  · intro h
    obtain ⟨hexporter, hextra⟩ := List.append_inj h (by simp)
    exact ⟨Bytes.toList_injective hexporter, ProvedFrame.extra_injective hextra⟩
  · rintro ⟨rfl, rfl⟩
    rfl

end IsekaiTerminal.Protocol
