import IsekaiTerminal.Lib.Wire

/-!
# STUN の応答の解析

`isekai-stun/src/lib.rs` の `parse_binding_response` を定める。範囲外の添字の参照は `none` とする。
属性を読むループは、残りの長さで停止する。
-/

namespace IsekaiTerminal.Stun

open Lib

def magicCookie : UInt32 := 0x2112A442
def bindingSuccessResponse : UInt16 := 0x0101
def xorMappedAddress : UInt16 := 0x0020
def mappedAddress : UInt16 := 0x0001
def headerLen : Nat := 20

inductive StunError
  | tooShort
  | notBindingSuccess (messageType : UInt16)
  | badMagicCookie
  | transactionIdMismatch
  | noMappedAddress
  | unknownFamily
  | truncatedAddress
deriving DecidableEq

structure Ipv4Addr where
  octets : List UInt8
  length_eq : octets.length = 4
deriving DecidableEq

structure Ipv6Addr where
  octets : List UInt8
  length_eq : octets.length = 16
deriving DecidableEq

/-- `SocketAddr::new` が作る宛先。 -/
inductive SocketAddr
  | v4 (ip : Ipv4Addr) (port : UInt16)
  | v6 (ip : Ipv6Addr) (port : UInt16)
deriving DecidableEq

structure TransactionId where
  bytes : List UInt8
  length_eq : bytes.length = 12
deriving DecidableEq

/-! ## 範囲を検査する参照 -/

/-- `&data[lo..hi]`。 -/
def range? (data : List UInt8) (lo hi : Nat) : Option (List UInt8) :=
  if lo ≤ hi ∧ hi ≤ data.length then some (slice data lo (hi - lo)) else none

/-- `u16::from_be_bytes([data[i], data[i + 1]])`。 -/
def u16At (data : List UInt8) (i : Nat) : Option UInt16 :=
  (range? data i (i + 2)).map fun bytes => UInt16.ofNat (beDecode bytes)

/-- `u32::from_be_bytes([data[i], .., data[i + 3]])`。 -/
def u32At (data : List UInt8) (i : Nat) : Option UInt32 :=
  (range? data i (i + 4)).map fun bytes => UInt32.ofNat (beDecode bytes)

/-- 4 バイトの配列からの変換。 -/
def ipv4? (octets : List UInt8) : Option Ipv4Addr := if h : octets.length = 4 then some ⟨octets, h⟩ else none

/-- 16 バイトの配列からの変換。 -/
def ipv6? (octets : List UInt8) : Option Ipv6Addr := if h : octets.length = 16 then some ⟨octets, h⟩ else none

/-! ## 属性の値 -/

def cookieAndTx (transactionId : TransactionId) : List UInt8 := beEncode 4 magicCookie.toNat ++ transactionId.bytes

def decodeXorMappedAddress (value : List UInt8) (transactionId : TransactionId) :
    Option (Except StunError SocketAddr) :=
  if value.length < 4 then some (.error .truncatedAddress)
  else do
    let family ← value[1]?
    let xport ← u16At value 2
    let port := xport ^^^ (magicCookie >>> 16).toUInt16
    if family = 0x01 then
      if value.length < 8 then some (.error .truncatedAddress)
      else do
        let xaddr ← u32At value 4
        let addr := xaddr ^^^ magicCookie
        let ip ← ipv4? (beEncode 4 addr.toNat)
        some (.ok (.v4 ip port))
    else if family = 0x02 then
      if value.length < 20 then some (.error .truncatedAddress)
      else do
        let xoctets ← range? value 4 20
        let ip ← ipv6? (List.zipWith (· ^^^ ·) xoctets (cookieAndTx transactionId))
        some (.ok (.v6 ip port))
    else some (.error .unknownFamily)

def decodeMappedAddress (value : List UInt8) : Option (Except StunError SocketAddr) :=
  if value.length < 4 then some (.error .truncatedAddress)
  else do
    let family ← value[1]?
    let port ← u16At value 2
    if family = 0x01 then
      if value.length < 8 then some (.error .truncatedAddress)
      else do
        let ip ← ipv4? (← range? value 4 8)
        some (.ok (.v4 ip port))
    else if family = 0x02 then
      if value.length < 20 then some (.error .truncatedAddress)
      else do
        let ip ← ipv6? (← range? value 4 20)
        some (.ok (.v6 ip port))
    else some (.error .unknownFamily)

/-! ## 属性の列 -/

/-- 属性を 1 つ処理した後。 -/
inductive Flow
  | returned (addr : SocketAddr)
  | proceed (fallback : Option SocketAddr) (xorError : Option StunError)

def onAttribute (transactionId : TransactionId) (attrType : UInt16) (value : List UInt8)
    (fallback : Option SocketAddr) (xorError : Option StunError) : Option Flow :=
  if attrType = xorMappedAddress then
    (decodeXorMappedAddress value transactionId).map fun
      | .ok addr => .returned addr
      | .error e => .proceed fallback (some e)
  else if attrType = mappedAddress ∧ fallback = none then
    (decodeMappedAddress value).map fun decoded => .proceed decoded.toOption xorError
  else some (.proceed fallback xorError)

/-- `fallback_mapped_address.ok_or(xor_error.unwrap_or(NoMappedAddress))`。 -/
def conclude (fallback : Option SocketAddr) (xorError : Option StunError) : Except StunError SocketAddr :=
  match fallback with
  | some addr => .ok addr
  | none => .error (xorError.getD .noMappedAddress)

/-- `attr_len.div_ceil(4) * 4`。 -/
def paddedLen (attrLen : Nat) : Nat := (attrLen + 3) / 4 * 4

def parseAttributes (transactionId : TransactionId) (attrs : List UInt8) (fallback : Option SocketAddr)
    (xorError : Option StunError) : Option (Except StunError SocketAddr) :=
  if _hlen : 4 ≤ attrs.length then do
    let attrType ← u16At attrs 0
    let attrLen := (← u16At attrs 2).toNat
    if attrs.length < 4 + attrLen then some (conclude fallback xorError)
    else do
      let value ← range? attrs 4 (4 + attrLen)
      match ← onAttribute transactionId attrType value fallback xorError with
      | .returned addr => some (.ok addr)
      | .proceed fallback xorError =>
          if attrs.length < 4 + paddedLen attrLen then some (conclude fallback xorError)
          else parseAttributes transactionId (attrs.drop (4 + paddedLen attrLen)) fallback xorError
  else some (conclude fallback xorError)
termination_by attrs.length
decreasing_by
  rw [List.length_drop]
  omega

/-! ## 応答の全体 -/

def parseBindingResponse (data : List UInt8) (expectedTransactionId : TransactionId) :
    Option (Except StunError SocketAddr) :=
  if data.length < headerLen then some (.error .tooShort)
  else do
    let messageType ← u16At data 0
    if messageType ≠ bindingSuccessResponse then some (.error (.notBindingSuccess messageType))
    else do
      let messageLength := (← u16At data 2).toNat
      let cookie ← u32At data 4
      if cookie ≠ magicCookie then some (.error .badMagicCookie)
      else do
        let transactionId ← range? data 8 20
        if transactionId ≠ expectedTransactionId.bytes then some (.error .transactionIdMismatch)
        else do
          let bodyEnd := min (headerLen + messageLength) data.length
          let attrs ← range? data headerLen bodyEnd
          parseAttributes expectedTransactionId attrs none none

/-!
## STUN の応答の意味

Binding Success Response のバイト列と、そこに載る属性の列と、属性が表す宛先を、解析の手順によらずに定める。
-/

/-! ## 宛先の表現 -/

namespace SocketAddr

def family : SocketAddr → UInt8
  | .v4 _ _ => 0x01
  | .v6 _ _ => 0x02

def port : SocketAddr → UInt16
  | .v4 _ port => port
  | .v6 _ port => port

def octets : SocketAddr → List UInt8
  | .v4 ip _ => ip.octets
  | .v6 ip _ => ip.octets

end SocketAddr

def xorBytes (bytes mask : List UInt8) : List UInt8 := List.zipWith (· ^^^ ·) bytes mask

/-- `MAPPED-ADDRESS` の値。先頭のバイトは予約されている。 -/
def mappedBytes (reserved : UInt8) (addr : SocketAddr) : List UInt8 :=
  reserved :: addr.family :: (beEncode 2 addr.port.toNat ++ addr.octets)

/-- `XOR-MAPPED-ADDRESS` の値。ポートは magic cookie の上位 16 ビット、アドレスは magic cookie と
transaction id との排他的論理和である。 -/
def xorMappedBytes (transactionId : TransactionId) (reserved : UInt8) (addr : SocketAddr) : List UInt8 :=
  reserved :: addr.family :: (xorBytes (beEncode 2 addr.port.toNat) (cookieAndTx transactionId) ++
    xorBytes addr.octets (cookieAndTx transactionId))

/-- 属性の値が、`addr` を表す `MAPPED-ADDRESS` である。後ろの余りは問わない。 -/
def IsMapped (value : List UInt8) (addr : SocketAddr) : Prop :=
  ∃ reserved rest, value = mappedBytes reserved addr ++ rest

def IsXorMapped (transactionId : TransactionId) (value : List UInt8) (addr : SocketAddr) : Prop :=
  ∃ reserved rest, value = xorMappedBytes transactionId reserved addr ++ rest

/-! ## 応答 -/

/-- 値の長さが 4 の倍数になるまでの埋め草。 -/
def padLen (attrLen : Nat) : Nat := paddedLen attrLen - attrLen

/-- `data` は、`body` を持つ、`transactionId` への Binding Success Response である。`body` は、宣言された長さと
届いた長さの短い方で終わる。 -/
def IsResponse (data : List UInt8) (transactionId : TransactionId) (body : List UInt8) : Prop :=
  ∃ lenBytes rest, lenBytes.length = 2 ∧
    data = beEncode 2 bindingSuccessResponse.toNat ++ (lenBytes ++
      (beEncode 4 magicCookie.toNat ++ (transactionId.bytes ++ rest))) ∧
    body = rest.take (beDecode lenBytes)

/-- 述語 `P` を満たす最初の属性が表す宛先。 -/
def FirstOf (P : Tlv → SocketAddr → Prop) (attrs : List Tlv) (addr : SocketAddr) : Prop :=
  ∃ before attr after, attrs = before ++ attr :: after ∧ P attr addr ∧ ∀ a ∈ before, ∀ other, ¬P a other

def XorMapped (transactionId : TransactionId) (attr : Tlv) (addr : SocketAddr) : Prop :=
  attr.type = xorMappedAddress ∧ IsXorMapped transactionId attr.value addr

def Mapped (attr : Tlv) (addr : SocketAddr) : Prop := attr.type = mappedAddress ∧ IsMapped attr.value addr

/-- 最初の正しい `XOR-MAPPED-ADDRESS`、それが無ければ最初の正しい `MAPPED-ADDRESS`。 -/
def Chosen (transactionId : TransactionId) (attrs : List Tlv) (addr : SocketAddr) : Prop :=
  FirstOf (XorMapped transactionId) attrs addr ∨
    (∀ attr ∈ attrs, ∀ other, ¬XorMapped transactionId attr other) ∧ FirstOf Mapped attrs addr

end IsekaiTerminal.Stun
