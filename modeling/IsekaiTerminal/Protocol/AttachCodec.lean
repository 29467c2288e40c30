import IsekaiTerminal.Lib.Wire
import IsekaiTerminal.Protocol.Attach

/-!
# ATTACH v2 のフレーム

`isekai-protocol/src/attach.rs` の符号化と復号、および HMAC へ渡す transcript を定める。
-/

namespace IsekaiTerminal.Protocol

open Lib

/-- `ProtocolError` のうち、ATTACH の復号が返すもの。 -/
inductive ProtocolError
  | frameLengthMismatch (got expected : Nat)
  | unknownFrameType (b : UInt8)
deriving DecidableEq

/-! ## 定数 -/

abbrev sessionIdLen : Nat := 16
abbrev attemptIdLen : Nat := 16
abbrev attachTokenLen : Nat := 16
abbrev attachProofLen : Nat := 32
abbrev generationLen : Nat := 8

def frameAttachHello : UInt8 := 0x30
def frameAttachReady : UInt8 := 0x31
def frameAttachActivate : UInt8 := 0x32
def frameAttachCancel : UInt8 := 0x33

def frameRejectAlreadyAttached : UInt8 := 0xF0
def frameRejectStaleGeneration : UInt8 := 0xF1
def frameRejectBusyOtherSession : UInt8 := 0xF2
def frameRejectAttachAlreadyEstablished : UInt8 := 0xF3

def frameRejectTarget : UInt8 := 0xFC
def frameRejectUnsupported : UInt8 := 0xFD
def frameRejectAuth : UInt8 := 0xFF

def attachHelloFrameLen : Nat := 1 + sessionIdLen + generationLen + attemptIdLen + 4 + attachProofLen
def attachReadyFrameLen : Nat := 1 + sessionIdLen + generationLen + attemptIdLen + 4 + attachTokenLen
def attachActivateFrameLen : Nat := 1 + sessionIdLen + generationLen + attemptIdLen + attachTokenLen
def cancelAttachFrameLen : Nat := 1 + sessionIdLen + generationLen + attemptIdLen + attachProofLen
def staleGenerationRejectFrameLen : Nat := 1 + generationLen

/-! ## 欄 -/

/-- `HMAC-SHA256` の値。 -/
structure AttachProof where
  bytes : Bytes attachProofLen
deriving DecidableEq, Inhabited

/-- `u64::to_be_bytes`。 -/
def u64ToBeBytes (x : UInt64) : List UInt8 := beEncode 8 x.toNat

/-- `u32::to_be_bytes`。 -/
def u32ToBeBytes (x : UInt32) : List UInt8 := beEncode 4 x.toNat

/-- `u16::to_be_bytes`。 -/
def u16ToBeBytes (x : UInt16) : List UInt8 := beEncode 2 x.toNat

def decodeFixed (n : Nat) (buf : List UInt8) : Except ProtocolError (Bytes n) :=
  if h : buf.length = n then .ok ⟨buf, h⟩ else .error (.frameLengthMismatch buf.length n)

def decodeSessionId (buf : List UInt8) : Except ProtocolError SessionId := decodeFixed sessionIdLen buf

def decodeAttemptId (buf : List UInt8) : Except ProtocolError AttemptId := decodeFixed attemptIdLen buf

def decodeGeneration (buf : List UInt8) : Except ProtocolError ConnectionGeneration := do
  let bytes ← decodeFixed generationLen buf
  return UInt64.ofNat (beDecode bytes.toList)

def decodeGraceSecs (buf : List UInt8) : Except ProtocolError UInt32 := do
  let bytes ← decodeFixed 4 buf
  return UInt32.ofNat (beDecode bytes.toList)

def decodeAttachToken (buf : List UInt8) : Except ProtocolError AttachToken := do
  return ⟨← decodeFixed attachTokenLen buf⟩

def decodeAttachProof (buf : List UInt8) : Except ProtocolError AttachProof := do
  return ⟨← decodeFixed attachProofLen buf⟩

/-- 固定長のフレームの復号が最初に行う、全体の長さと種別のバイトの検査。 -/
def expectFrame (buf : List UInt8) (len : Nat) (type : UInt8) : Except ProtocolError Unit :=
  if buf.length ≠ len then .error (.frameLengthMismatch buf.length len)
  else if buf.headD 0 ≠ type then .error (.unknownFrameType (buf.headD 0))
  else .ok ()

/-! ## `ATTACH_HELLO` -/

structure AttachHello where
  sessionId : SessionId
  generation : ConnectionGeneration
  attemptId : AttemptId
  requestedResumeGraceSecs : UInt32
  proof : AttachProof
deriving DecidableEq

def encodeAttachHello (frame : AttachHello) : List UInt8 :=
  [frameAttachHello] ++ frame.sessionId.toList ++ u64ToBeBytes frame.generation ++ frame.attemptId.toList ++
    u32ToBeBytes frame.requestedResumeGraceSecs ++ frame.proof.bytes.toList

def decodeAttachHello (buf : List UInt8) : Except ProtocolError AttachHello := do
  expectFrame buf attachHelloFrameLen frameAttachHello
  let sessionId ← decodeSessionId (slice buf 1 sessionIdLen)
  let generation ← decodeGeneration (slice buf 17 generationLen)
  let attemptId ← decodeAttemptId (slice buf 25 attemptIdLen)
  let requestedResumeGraceSecs ← decodeGraceSecs (slice buf 41 4)
  let proof ← decodeAttachProof (slice buf 45 attachProofLen)
  return { sessionId, generation, attemptId, requestedResumeGraceSecs, proof }

/-! ## 応答 -/

def encodeAttachReject : AttachRejectReason → List UInt8
  | .auth => [frameRejectAuth]
  | .target => [frameRejectTarget]
  | .unsupported => [frameRejectUnsupported]
  | .alreadyAttached => [frameRejectAlreadyAttached]
  | .staleGeneration currentGeneration => [frameRejectStaleGeneration] ++ u64ToBeBytes currentGeneration
  | .busyOtherSession => [frameRejectBusyOtherSession]
  | .attachAlreadyEstablished => [frameRejectAttachAlreadyEstablished]

/-- 種別のバイトだけからなる拒否の理由。 -/
def bareRejectReason? (type : UInt8) : Option AttachRejectReason :=
  if type = frameRejectAuth then some .auth
  else if type = frameRejectTarget then some .target
  else if type = frameRejectUnsupported then some .unsupported
  else if type = frameRejectAlreadyAttached then some .alreadyAttached
  else if type = frameRejectBusyOtherSession then some .busyOtherSession
  else if type = frameRejectAttachAlreadyEstablished then some .attachAlreadyEstablished
  else none

def decodeAttachReject (buf : List UInt8) : Except ProtocolError AttachRejectReason :=
  match buf with
  | [] => .error (.frameLengthMismatch 0 1)
  | type :: rest =>
    match bareRejectReason? type with
    | some reason => if buf.length ≠ 1 then .error (.frameLengthMismatch buf.length 1) else .ok reason
    | none =>
      if type = frameRejectStaleGeneration then
        if buf.length ≠ staleGenerationRejectFrameLen then
          .error (.frameLengthMismatch buf.length staleGenerationRejectFrameLen)
        else do
          return .staleGeneration (← decodeGeneration rest)
      else .error (.unknownFrameType type)

inductive AttachResponse
  | ready (sessionId : SessionId) (generation : ConnectionGeneration) (attemptId : AttemptId)
      (negotiatedResumeGraceSecs : UInt32) (attachToken : AttachToken)
  | reject (reason : AttachRejectReason)
deriving DecidableEq

def encodeAttachResponse : AttachResponse → List UInt8
  | .ready sessionId generation attemptId negotiatedResumeGraceSecs attachToken =>
    [frameAttachReady] ++ sessionId.toList ++ u64ToBeBytes generation ++ attemptId.toList ++
      u32ToBeBytes negotiatedResumeGraceSecs ++ attachToken.bytes.toList
  | .reject reason => encodeAttachReject reason

def decodeAttachResponse (buf : List UInt8) : Except ProtocolError AttachResponse :=
  match buf.head? with
  | none => .error (.frameLengthMismatch 0 1)
  | some type =>
    if type = frameAttachReady then
      if buf.length ≠ attachReadyFrameLen then .error (.frameLengthMismatch buf.length attachReadyFrameLen)
      else do
        let sessionId ← decodeSessionId (slice buf 1 sessionIdLen)
        let generation ← decodeGeneration (slice buf 17 generationLen)
        let attemptId ← decodeAttemptId (slice buf 25 attemptIdLen)
        let negotiatedResumeGraceSecs ← decodeGraceSecs (slice buf 41 4)
        let attachToken ← decodeAttachToken (slice buf 45 attachTokenLen)
        return .ready sessionId generation attemptId negotiatedResumeGraceSecs attachToken
    else do
      return .reject (← decodeAttachReject buf)

/-! ## `ATTACH_ACTIVATE` と `CANCEL_ATTACH` -/

structure AttachActivate where
  sessionId : SessionId
  generation : ConnectionGeneration
  attemptId : AttemptId
  attachToken : AttachToken
deriving DecidableEq

def encodeAttachActivate (frame : AttachActivate) : List UInt8 :=
  [frameAttachActivate] ++ frame.sessionId.toList ++ u64ToBeBytes frame.generation ++ frame.attemptId.toList ++
    frame.attachToken.bytes.toList

def decodeAttachActivate (buf : List UInt8) : Except ProtocolError AttachActivate := do
  expectFrame buf attachActivateFrameLen frameAttachActivate
  let sessionId ← decodeSessionId (slice buf 1 sessionIdLen)
  let generation ← decodeGeneration (slice buf 17 generationLen)
  let attemptId ← decodeAttemptId (slice buf 25 attemptIdLen)
  let attachToken ← decodeAttachToken (slice buf 41 attachTokenLen)
  return { sessionId, generation, attemptId, attachToken }

structure CancelAttach where
  sessionId : SessionId
  generation : ConnectionGeneration
  attemptId : AttemptId
  proof : AttachProof
deriving DecidableEq

def encodeCancelAttach (frame : CancelAttach) : List UInt8 :=
  [frameAttachCancel] ++ frame.sessionId.toList ++ u64ToBeBytes frame.generation ++ frame.attemptId.toList ++
    frame.proof.bytes.toList

def decodeCancelAttach (buf : List UInt8) : Except ProtocolError CancelAttach := do
  expectFrame buf cancelAttachFrameLen frameAttachCancel
  let sessionId ← decodeSessionId (slice buf 1 sessionIdLen)
  let generation ← decodeGeneration (slice buf 17 generationLen)
  let attemptId ← decodeAttemptId (slice buf 25 attemptIdLen)
  let proof ← decodeAttachProof (slice buf 41 attachProofLen)
  return { sessionId, generation, attemptId, proof }

/-! ## HMAC へ渡すバイト列 -/

/-- ASCII のバイト列リテラル。 -/
def ascii (s : String) : List UInt8 := s.toList.map fun c => UInt8.ofNat c.toNat

def attachHelloProofDomain : List UInt8 := ascii "isekai-pipe/attach/v2/hello"
def cancelAttachProofDomain : List UInt8 := ascii "isekai-pipe/attach/v2/cancel"
def standbyHoldProofDomain : List UInt8 := ascii "isekai-pipe/standby/v1/hold"

def currentProtocolVersion : UInt16 := 1

def attachHelloProofTranscript (sessionId : SessionId) (generation : ConnectionGeneration)
    (attemptId : AttemptId) (requestedResumeGraceSecs : UInt32) : List UInt8 :=
  attachHelloProofDomain ++ u16ToBeBytes currentProtocolVersion ++ [frameAttachHello] ++ sessionId.toList ++
    u64ToBeBytes generation ++ attemptId.toList ++ u32ToBeBytes requestedResumeGraceSecs

def cancelAttachProofTranscript (sessionId : SessionId) (generation : ConnectionGeneration)
    (attemptId : AttemptId) : List UInt8 :=
  cancelAttachProofDomain ++ u16ToBeBytes currentProtocolVersion ++ [frameAttachCancel] ++ sessionId.toList ++
    u64ToBeBytes generation ++ attemptId.toList

/-- proof を付けるフレーム。 -/
inductive ProvedFrame
  | attachHello (sessionId : SessionId) (generation : ConnectionGeneration) (attemptId : AttemptId)
      (requestedResumeGraceSecs : UInt32)
  | cancelAttach (sessionId : SessionId) (generation : ConnectionGeneration) (attemptId : AttemptId)
  | standbyHold
  | resume (sessionId : SessionId)
  | controlHello
deriving DecidableEq

/-- `compute_proof` と `proof_from_exporter` の `extra`。 -/
def ProvedFrame.extra : ProvedFrame → List UInt8
  | .attachHello sessionId generation attemptId requestedResumeGraceSecs =>
    attachHelloProofTranscript sessionId generation attemptId requestedResumeGraceSecs
  | .cancelAttach sessionId generation attemptId => cancelAttachProofTranscript sessionId generation attemptId
  | .standbyHold => standbyHoldProofDomain
  | .resume sessionId => sessionId.toList
  | .controlHello => []

/-- `proof_from_exporter` が MAC へ入力するバイト列。 -/
def macInput (exporter : Bytes 32) (frame : ProvedFrame) : List UInt8 := exporter.toList ++ frame.extra

end IsekaiTerminal.Protocol
