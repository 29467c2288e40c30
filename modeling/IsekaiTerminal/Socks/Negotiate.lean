import IsekaiTerminal.Lib.Duplex
import IsekaiTerminal.Lib.IpText
import IsekaiTerminal.Lib.Wire
import IsekaiTerminal.Trzsz.Codec

/-!
# SOCKS の handshake

`rust-core/src/socks.rs` の `negotiate` を定める。クライアントのバイト列は、任意の切れ目で届き、どこかで終わるか誤りになる。
書き込みは成功するものとし、書いたバイト列を残す。
-/

namespace IsekaiTerminal.Socks

open Lib
open Trzsz (fromUtf8?)

inductive SocksError
  | io (text : String)
  | unsupportedVersion (version : UInt8)
  | unsupportedCommand (command : UInt8)
  | unsupportedAddressType (atyp : UInt8)
  | malformed (msg : String)
deriving DecidableEq

abbrev TcpStream := Duplex UInt8 SocksError

abbrev SocksM := DuplexM UInt8 SocksError

/-! ## 読み書き -/

/-- 列の途中の終わりの誤り。 -/
def earlyEof (_size _filled : Nat) : SocksError := .io "early eof"

def readExact (size : Nat) : SocksM (List UInt8) := DuplexM.ofRead (ReadM.readExact earlyEof size)

def readU8 : SocksM UInt8 := do
  let bytes ← readExact 1
  pure (bytes.headD 0)

def readU16 : SocksM UInt16 := do
  let bytes ← readExact 2
  pure (UInt16.ofNat (beDecode bytes))

/-- `buf` に続けて、NUL の前まで読む。読むたびに `buf` が伸びるので、`fuel` は 256 で足りる。 -/
def readUntilNulLoop : Nat → List UInt8 → SocksM (List UInt8)
  | 0, _ => DuplexM.throw (.malformed "field too long")
  | fuel + 1, buf => do
      let b ← readU8
      if b = 0 then pure buf
      else
        let buf := buf ++ [b]
        if buf.length > 255 then DuplexM.throw (.malformed "field too long")
        else readUntilNulLoop fuel buf

def readUntilNul : SocksM (List UInt8) := readUntilNulLoop 256 []

/-- `String::from_utf8`。 -/
def hostname (bytes : List UInt8) (msg : String) : Except SocksError String :=
  match fromUtf8? bytes with
  | some host => .ok host
  | none => .error (.malformed msg)

def ipv4ToString (octets : List UInt8) : String := String.ofList (ipv4Text octets)

def ipv6ToString (octets : List UInt8) : String := String.ofList (ipv6Text octets)

/-! ## SOCKS4 と SOCKS4a -/

def socks4Reply (granted : Bool) : List UInt8 := [0, if granted then 0x5A else 0x5B, 0, 0, 0, 0, 0, 0]

def writeSocks4Reply (granted : Bool) : SocksM Unit := DuplexM.writeAll (socks4Reply granted)

/-- `0.0.0.x` の形のアドレスは、ドメイン名が続く合図である。 -/
def isDomainMarker (ip : List UInt8) : Bool := ip.take 3 = [0, 0, 0] && ip[3]? ≠ some 0

/-- SOCKS4a では、userid の後にドメイン名が続く。 -/
def readSocks4Host (ip : List UInt8) : SocksM String :=
  if isDomainMarker ip then do
    let domain ← readUntilNul
    DuplexM.lift (hostname domain "invalid SOCKS4a hostname")
  else pure (ipv4ToString ip)

def negotiateSocks4 : SocksM (String × UInt16) := do
  let cmd ← readU8
  if cmd ≠ 0x01 then
    writeSocks4Reply false
    DuplexM.throw (.unsupportedCommand cmd)
  else
    let port ← readU16
    let ip ← readExact 4
    let _userid ← readUntilNul
    let host ← readSocks4Host ip
    writeSocks4Reply true
    pure (host, port)

/-! ## SOCKS5 -/

def socks5Reply (rep : UInt8) : List UInt8 := [0x05, rep, 0x00, 0x01, 0, 0, 0, 0, 0, 0]

def writeSocks5Reply (rep : UInt8) : SocksM Unit := DuplexM.writeAll (socks5Reply rep)

/-- 宛先の種別ごとの読み取り。 -/
def readSocks5Host (atyp : UInt8) : SocksM String :=
  if atyp = 0x01 then do
    let octets ← readExact 4
    pure (ipv4ToString octets)
  else if atyp = 0x03 then do
    let len ← readU8
    let name ← readExact len.toNat
    DuplexM.lift (hostname name "invalid SOCKS5 hostname")
  else if atyp = 0x04 then do
    let octets ← readExact 16
    pure (ipv6ToString octets)
  else do
    writeSocks5Reply 0x08
    DuplexM.throw (.unsupportedAddressType atyp)

/-- 提示された方式の一覧は読み飛ばし、常に認証無しを選ぶ。 -/
def negotiateSocks5 : SocksM (String × UInt16) := do
  let nmethods ← readU8
  let _methods ← readExact nmethods.toNat
  DuplexM.writeAll [0x05, 0x00]
  let ver ← readU8
  if ver ≠ 0x05 then DuplexM.throw (.unsupportedVersion ver)
  else
    let cmd ← readU8
    let _rsv ← readU8
    let atyp ← readU8
    if cmd ≠ 0x01 then
      writeSocks5Reply 0x07
      DuplexM.throw (.unsupportedCommand cmd)
    else
      let host ← readSocks5Host atyp
      let port ← readU16
      writeSocks5Reply 0x00
      pure (host, port)

def negotiate : SocksM (String × UInt16) := do
  let version ← readU8
  if version = 0x04 then negotiateSocks4
  else if version = 0x05 then negotiateSocks5
  else DuplexM.throw (.unsupportedVersion version)

/-!
## SOCKS の要求の文法

クライアントが送る要求の全体を、種別ごとの欄と、欄の並びで定める。要求が受け入れられる条件と、名指す宛先と、
受け入れと拒否のそれぞれの応答も、ここで定める。
-/

open Trzsz (utf8)

/-- 名前が文字列を表す。 -/
def IsUtf8 (bytes : List UInt8) : Prop := ∃ s, utf8 s = bytes

/-! ## SOCKS4 と SOCKS4a -/

/-- 宛先の名前は、アドレスが合図であるときだけ続く。 -/
structure Socks4Request where
  cmd : UInt8
  port : UInt16
  ip : List UInt8
  userid : List UInt8
  name : Option (List UInt8)
  ip_length : ip.length = 4
  userid_noNul : 0 ∉ userid
  name_noNul : ∀ bytes ∈ name, 0 ∉ bytes
  name_isSome : name.isSome = isDomainMarker ip

namespace Socks4Request

def nameBytes (name : Option (List UInt8)) : List UInt8 := name.elim [] (· ++ [0])

def bytes (r : Socks4Request) : List UInt8 :=
  4 :: ([r.cmd] ++ (beEncode 2 r.port.toNat ++ (r.ip ++ ((r.userid ++ [0]) ++ nameBytes r.name))))

/-- 欄の長さと名前の文字が受け入れられる。 -/
def Wellformed (r : Socks4Request) : Prop :=
  r.userid.length ≤ 255 ∧ ∀ bytes ∈ r.name, bytes.length ≤ 255 ∧ IsUtf8 bytes

def Names (r : Socks4Request) (host : String) : Prop :=
  match r.name with
  | some bytes => utf8 host = bytes
  | none => DenotesIpv4 host.toList r.ip

end Socks4Request

/-! ## SOCKS5 -/

/-- 宛先。知らない種別の宛先は、種別の後の形が決まらない。 -/
inductive Socks5Address
  | ipv4 (octets : List UInt8) (length_eq : octets.length = 4)
  | name (bytes : List UInt8) (length_le : bytes.length ≤ 255)
  | ipv6 (octets : List UInt8) (length_eq : octets.length = 16)
  | unknown (atyp : UInt8) (notKnown : atyp ∉ ([1, 3, 4] : List UInt8))

namespace Socks5Address

def atyp : Socks5Address → UInt8
  | ipv4 _ _ => 1
  | name _ _ => 3
  | ipv6 _ _ => 4
  | unknown atyp _ => atyp

/-- 種別の後に続く、宛先の欄。 -/
def field : Socks5Address → List UInt8
  | ipv4 octets _ => octets
  | name bytes _ => UInt8.ofNat bytes.length :: bytes
  | ipv6 octets _ => octets
  | unknown _ _ => []

def portBytes (port : UInt16) : Socks5Address → List UInt8
  | unknown _ _ => []
  | _ => beEncode 2 port.toNat

def Names (host : String) : Socks5Address → Prop
  | ipv4 octets _ => DenotesIpv4 host.toList octets
  | name bytes _ => utf8 host = bytes
  | ipv6 octets _ => DenotesIpv6 host.toList (segments octets)
  | unknown _ _ => False

/-- 宛先の種別を知っている。 -/
def Known : Socks5Address → Prop
  | unknown _ _ => False
  | _ => True

/-- 名前であれば、文字列を表す。 -/
def Textual : Socks5Address → Prop
  | name bytes _ => IsUtf8 bytes
  | _ => True

end Socks5Address

structure Socks5Request where
  methods : List UInt8
  cmd : UInt8
  rsv : UInt8
  address : Socks5Address
  port : UInt16
  methods_length : methods.length ≤ 255

namespace Socks5Request

def bytes (r : Socks5Request) : List UInt8 :=
  5 :: ([UInt8.ofNat r.methods.length] ++ (r.methods ++ ([5] ++ ([r.cmd] ++ ([r.rsv] ++ ([r.address.atyp] ++
    (r.address.field ++ r.address.portBytes r.port)))))))

end Socks5Request

/-! ## 要求 -/

inductive Request
  | socks4 (r : Socks4Request)
  | socks5 (r : Socks5Request)

namespace Request

def bytes : Request → List UInt8
  | socks4 r => r.bytes
  | socks5 r => r.bytes

def cmd : Request → UInt8
  | socks4 r => r.cmd
  | socks5 r => r.cmd

def port : Request → UInt16
  | socks4 r => r.port
  | socks5 r => r.port

/-- 長さと文字の制限を守る。 -/
def Wellformed : Request → Prop
  | socks4 r => r.Wellformed
  | socks5 r => r.address.Textual

def AddressKnown : Request → Prop
  | socks4 _ => True
  | socks5 r => r.address.Known

/-- 受け入れられる CONNECT の要求。 -/
def Accepted (r : Request) : Prop := r.cmd = 1 ∧ r.AddressKnown ∧ r.Wellformed

def Names (host : String) : Request → Prop
  | socks4 r => r.Names host
  | socks5 r => r.address.Names host

/-- 受け入れたときに書く列の全体。 -/
def successReply : Request → List UInt8
  | socks4 _ => [0, 0x5A, 0, 0, 0, 0, 0, 0]
  | socks5 _ => [5, 0] ++ [5, 0, 0, 1, 0, 0, 0, 0, 0, 0]

/-- 拒否したときに書く列の全体。SOCKS5 の理由は 0 でない。 -/
def FailureReply (written : List UInt8) : Request → Prop
  | socks4 _ => written = [0, 0x5B, 0, 0, 0, 0, 0, 0]
  | socks5 _ => ∃ rep : UInt8, rep ≠ 0 ∧ written = [5, 0] ++ [5, rep, 0, 1, 0, 0, 0, 0, 0, 0]

end Request

/-! ## 対話の仕様 -/

/-- `d` から始まる対話が、文法どおりに進む。 -/
structure Speaks (d : TcpStream) : Prop where
  /-- 値を返したなら、要求だけを読み、その版の成功の応答を書いた。 -/
  sound : ∀ host port d', negotiate d = (.ok (host, port), d') →
    ∃ r : Request, r.Accepted ∧ r.Names host ∧ r.port = port ∧ d.pending = r.bytes ++ d'.pending ∧
      d'.written = d.written ++ r.successReply
  complete : ∀ (r : Request) rest, r.Accepted → d.pending = r.bytes ++ rest →
    ∃ host d', negotiate d = (.ok (host, r.port), d') ∧ r.Names host ∧ d'.pending = rest ∧
      d'.written = d.written ++ r.successReply
  refused : ∀ (r : Request) rest, ¬r.Accepted → d.pending = r.bytes ++ rest →
    ∃ e d' out, negotiate d = (.error e, d') ∧ d'.written = d.written ++ out ∧ r.FailureReply out
  bounded : ∃ bytes, d.pending = bytes ++ (negotiate d).2.pending ∧ bytes.length ≤ 520

/-- CONNECT の要求の全体が、長さか文字の制限を破って始まっている。 -/
def StartsIllFormed (d : TcpStream) : Prop :=
  ∃ (r : Request) (rest : List UInt8), d.pending = r.bytes ++ rest ∧ r.cmd = 1 ∧ ¬r.Wellformed

end IsekaiTerminal.Socks
