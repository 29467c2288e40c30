import IsekaiTerminal.Socks.Negotiate
import IsekaiTerminal.Trzsz.Codec

/-!
# SOCKS の対話の補題

欄ごとの読み取りが欄の並びをちょうど読むこと、値を返した読み取りが欄を読んだこと、読む長さの上限の 3 つを、
欄から版へ組み立てる。
-/

namespace IsekaiTerminal.Socks

open Lib Lib.DuplexM
open Trzsz (utf8 fromUtf8? fromUtf8?_utf8 utf8_of_fromUtf8?)

/-! ## 欄の読み取り -/

theorem conducts_readExact {bytes : List UInt8} {size : Nat} (h : bytes.length = size) :
    Conducts (readExact size) bytes [] (.ok bytes) := Conducts.ofRead (ReadM.Yields.readExact earlyEof h)

theorem conducts_readU8 (b : UInt8) : Conducts readU8 [b] [] (.ok b) :=
  Conducts.last_read_bind (conducts_readExact rfl) (Conducts.pure b)

theorem ofNat_beDecode_beEncode (port : UInt16) : UInt16.ofNat (beDecode (beEncode 2 port.toNat)) = port := by
  rw [beDecode_beEncode (by simpa using port.toNat_lt), UInt16.ofNat_toNat]

theorem conducts_readU16 (port : UInt16) : Conducts readU16 (beEncode 2 port.toNat) [] (.ok port) := by
  refine Conducts.last_read_bind (conducts_readExact (length_beEncode 2 port.toNat)) ?_
  rw [ofNat_beDecode_beEncode]
  exact Conducts.pure port

/-- `buf` は読んだ分で、残りの `bytes` を読んでも 255 を超えない。 -/
theorem conducts_readUntilNulLoop {bytes : List UInt8} (hnul : 0 ∉ bytes) {fuel : Nat} (hfuel : bytes.length < fuel)
    (buf : List UInt8) (hlen : buf.length + bytes.length ≤ 255) :
    Conducts (readUntilNulLoop fuel buf) (bytes ++ [0]) [] (.ok (buf ++ bytes)) := by
  induction bytes generalizing fuel buf with
  | nil =>
      cases fuel with
      | zero => exact absurd hfuel (Nat.lt_irrefl 0)
      | succ fuel =>
          refine Conducts.read_cons (conducts_readU8 0) ?_
          rw [if_pos rfl, List.append_nil]
          exact Conducts.pure buf
  | cons b bytes ih =>
      cases fuel with
      | zero => exact absurd hfuel (Nat.not_lt_zero _)
      | succ fuel =>
          simp only [List.mem_cons, not_or] at hnul
          simp only [List.length_cons] at hfuel hlen
          have hb : b ≠ 0 := fun hzero => hnul.1 hzero.symm
          have hbuf : ¬(buf ++ [b]).length > 255 := by
            rw [List.length_append, List.length_singleton]
            omega
          have hrest := ih hnul.2 (Nat.lt_of_succ_lt_succ hfuel) (buf ++ [b])
            (by rw [List.length_append, List.length_singleton]; omega)
          rw [List.append_assoc] at hrest
          refine Conducts.read_cons (conducts_readU8 b) ?_
          simp only [if_neg hb, if_neg hbuf]
          exact hrest

theorem conducts_readUntilNul {bytes : List UInt8} (hnul : 0 ∉ bytes) (hlen : bytes.length ≤ 255) :
    Conducts readUntilNul (bytes ++ [0]) [] (.ok bytes) :=
  conducts_readUntilNulLoop hnul (Nat.lt_succ_of_le hlen) [] (by simpa using hlen)

/-- NUL の無い 256 バイトで止まる。 -/
theorem conducts_readUntilNulLoop_of_long {bytes : List UInt8} (hnul : 0 ∉ bytes) {fuel : Nat}
    (hfuel : bytes.length = fuel) (buf : List UInt8) (hlen : buf.length + bytes.length = 256) (hne : bytes ≠ []) :
    Conducts (readUntilNulLoop fuel buf) bytes [] (.error (.malformed "field too long")) := by
  induction bytes generalizing fuel buf with
  | nil => exact absurd rfl hne
  | cons b bytes ih =>
      subst hfuel
      simp only [List.mem_cons, not_or] at hnul
      simp only [List.length_cons] at hlen
      have hb : b ≠ 0 := fun hzero => hnul.1 hzero.symm
      refine Conducts.read_cons (conducts_readU8 b) ?_
      simp only [if_neg hb]
      by_cases hnil : bytes = []
      · subst hnil
        have hbuf : (buf ++ [b]).length > 255 := by
          rw [List.length_append, List.length_singleton]
          simp only [List.length_nil] at hlen
          omega
        rw [if_pos hbuf]
        exact Conducts.throw _
      · have hpos := List.length_pos_of_ne_nil hnil
        have hbuf : ¬(buf ++ [b]).length > 255 := by
          rw [List.length_append, List.length_singleton]
          omega
        have hrest := ih hnul.2 rfl (buf ++ [b]) (by rw [List.length_append, List.length_singleton]; omega) hnil
        rw [if_neg hbuf]
        exact hrest

theorem conducts_readUntilNul_of_long {bytes : List UInt8} (hnul : 0 ∉ bytes) (hlen : 255 < bytes.length) :
    Conducts readUntilNul (bytes.take 256) [] (.error (.malformed "field too long")) := by
  have htake : (bytes.take 256).length = 256 := List.length_take_of_le hlen
  refine conducts_readUntilNulLoop_of_long (fun hmem => hnul (List.mem_of_mem_take hmem)) htake [] ?_ ?_
  · rw [htake, List.length_nil]
  · exact List.ne_nil_of_length_pos (by omega)

theorem hostname_of_utf8 {bytes : List UInt8} {host : String} (h : utf8 host = bytes) (msg : String) :
    hostname bytes msg = .ok host := by
  rw [hostname, ← h, fromUtf8?_utf8]

theorem hostname_of_not_isUtf8 {bytes : List UInt8} (h : ¬IsUtf8 bytes) (msg : String) :
    hostname bytes msg = .error (.malformed msg) := by
  rw [hostname]
  cases hread : fromUtf8? bytes with
  | none => rfl
  | some s => exact absurd ⟨s, utf8_of_fromUtf8? hread⟩ h

theorem utf8_of_hostname {bytes : List UInt8} {msg host : String} (h : hostname bytes msg = .ok host) :
    utf8 host = bytes := by
  rw [hostname] at h
  cases hread : fromUtf8? bytes with
  | none =>
      rw [hread] at h
      cases h
  | some s =>
      rw [hread] at h
      cases h
      exact utf8_of_fromUtf8? hread

/-! ## SOCKS4 の対話 -/

theorem socks4_isDomainMarker {r : Socks4Request} {name : Option (List UInt8)} (h : r.name = name) :
    isDomainMarker r.ip = name.isSome := by
  rw [← r.name_isSome, h]

/-- userid までを読んだ後の計算。 -/
def answerSocks4 (ip : List UInt8) (port : UInt16) : SocksM (String × UInt16) := do
  let host ← readSocks4Host ip
  writeSocks4Reply true
  pure (host, port)

theorem conducts_negotiateSocks4 {r : Socks4Request} (hcmd : r.cmd = 1) {field out : List UInt8}
    {result : Except SocksError (String × UInt16)}
    (hrest : Conducts (readUntilNul >>= fun _ => answerSocks4 r.ip r.port) field out result) :
    Conducts negotiate (4 :: r.cmd :: (beEncode 2 r.port.toNat ++ (r.ip ++ field))) out result := by
  refine Conducts.read_cons (conducts_readU8 4) ?_
  rw [if_pos rfl]
  refine Conducts.read_cons (conducts_readU8 r.cmd) ?_
  rw [if_neg (not_not_intro hcmd)]
  refine Conducts.read_bind (conducts_readU16 r.port) ?_
  exact Conducts.read_bind (conducts_readExact r.ip_length) hrest

theorem conducts_answerSocks4 {ip field : List UInt8} {host : String} (port : UInt16)
    (hhost : Conducts (readSocks4Host ip) field [] (.ok host)) :
    Conducts (answerSocks4 ip port) field (socks4Reply true) (.ok (host, port)) :=
  Conducts.last_read_bind hhost (Conducts.last_write_bind (Conducts.writeAll _) (Conducts.pure _))

theorem conducts_readSocks4Host {r : Socks4Request} (hwf : ∀ bytes ∈ r.name, bytes.length ≤ 255 ∧ IsUtf8 bytes) :
    ∃ host, r.Names host ∧ Conducts (readSocks4Host r.ip) (Socks4Request.nameBytes r.name) [] (.ok host) := by
  cases hname : r.name with
  | none =>
      have hmarker := socks4_isDomainMarker hname
      refine ⟨ipv4ToString r.ip, ?_, ?_⟩
      · rw [Socks4Request.Names, hname, ipv4ToString, String.toList_ofList]
        exact denotesIpv4_ipv4Text r.ip_length
      · rw [readSocks4Host, hmarker]
        exact Conducts.pure _
  | some bytes =>
      have hmarker := socks4_isDomainMarker hname
      obtain ⟨hlen, host, hhost⟩ := hwf bytes hname
      refine ⟨host, ?_, ?_⟩
      · rw [Socks4Request.Names, hname]
        exact hhost
      · rw [readSocks4Host, hmarker]
        refine Conducts.last_read_bind (conducts_readUntilNul (r.name_noNul bytes hname) hlen) ?_
        rw [hostname_of_utf8 hhost]
        exact Conducts.lift _

theorem negotiate_of_socks4 {r : Socks4Request} (hcmd : r.cmd = 1) (hwf : r.Wellformed) :
    ∃ host, r.Names host ∧ Conducts negotiate r.bytes (socks4Reply true) (.ok (host, r.port)) := by
  obtain ⟨host, hnames, hhost⟩ := conducts_readSocks4Host hwf.2
  refine ⟨host, hnames, conducts_negotiateSocks4 hcmd ?_⟩
  exact Conducts.read_bind (conducts_readUntilNul r.userid_noNul hwf.1) (conducts_answerSocks4 r.port hhost)

/-! ## SOCKS5 の対話 -/

/-- 要求の種別までを読んだ後の計算。 -/
def answerSocks5 (atyp : UInt8) : SocksM (String × UInt16) := do
  let host ← readSocks5Host atyp
  let port ← readU16
  writeSocks5Reply 0x00
  pure (host, port)

theorem toNat_ofNat_length {bytes : List UInt8} (h : bytes.length ≤ 255) :
    (UInt8.ofNat bytes.length).toNat = bytes.length := by
  rw [UInt8.toNat_ofNat']
  exact Nat.mod_eq_of_lt (Nat.lt_succ_of_le h)

/-- 種別までの列。 -/
def Socks5Request.header (r : Socks5Request) : List UInt8 :=
  5 :: UInt8.ofNat r.methods.length :: (r.methods ++ [5, r.cmd, r.rsv, r.address.atyp])

theorem Socks5Request.bytes_eq (r : Socks5Request) :
    r.bytes = r.header ++ (r.address.field ++ r.address.portBytes r.port) := by
  simp [Socks5Request.bytes, Socks5Request.header]

theorem conducts_negotiateSocks5 (r : Socks5Request) {field out : List UInt8}
    {result : Except SocksError (String × UInt16)}
    (hrest : Conducts
      (if r.cmd ≠ 0x01 then do
        writeSocks5Reply 0x07
        DuplexM.throw (.unsupportedCommand r.cmd)
      else answerSocks5 r.address.atyp) field out result) :
    Conducts negotiate (r.header ++ field) ([5, 0] ++ out) result := by
  have hheader : r.header ++ field =
      5 :: UInt8.ofNat r.methods.length :: (r.methods ++ 5 :: r.cmd :: r.rsv :: r.address.atyp :: field) := by
    simp [Socks5Request.header]
  rw [hheader]
  refine Conducts.read_cons (conducts_readU8 5) ?_
  rw [if_neg (by decide), if_pos rfl]
  refine Conducts.read_cons (conducts_readU8 _) ?_
  refine Conducts.read_bind (conducts_readExact (toNat_ofNat_length r.methods_length).symm) ?_
  refine Conducts.write_bind (Conducts.writeAll _) ?_
  refine Conducts.read_cons (conducts_readU8 5) ?_
  rw [if_neg (by decide)]
  refine Conducts.read_cons (conducts_readU8 r.cmd) ?_
  refine Conducts.read_cons (conducts_readU8 r.rsv) ?_
  exact Conducts.read_cons (conducts_readU8 r.address.atyp) hrest

theorem conducts_readSocks5Host {address : Socks5Address} (hknown : address.Known) (htext : address.Textual) :
    ∃ host, address.Names host ∧ Conducts (readSocks5Host address.atyp) address.field [] (.ok host) := by
  cases address with
  | ipv4 octets hlen =>
      refine ⟨ipv4ToString octets, ?_, Conducts.last_read_bind (conducts_readExact hlen) (Conducts.pure _)⟩
      rw [Socks5Address.Names, ipv4ToString, String.toList_ofList]
      exact denotesIpv4_ipv4Text hlen
  | name bytes hlen =>
      obtain ⟨host, hhost⟩ := htext
      refine ⟨host, hhost, ?_⟩
      refine Conducts.read_cons (conducts_readU8 _) ?_
      refine Conducts.last_read_bind (conducts_readExact (toNat_ofNat_length hlen).symm) ?_
      rw [hostname_of_utf8 hhost]
      exact Conducts.lift _
  | ipv6 octets hlen =>
      refine ⟨ipv6ToString octets, ?_, Conducts.last_read_bind (conducts_readExact hlen) (Conducts.pure _)⟩
      rw [Socks5Address.Names, ipv6ToString, String.toList_ofList]
      exact denotesIpv6_ipv6Text hlen
  | unknown atyp hatyp => exact absurd hknown id

theorem portBytes_of_known {address : Socks5Address} (hknown : address.Known) (port : UInt16) :
    address.portBytes port = beEncode 2 port.toNat := by
  cases address with
  | ipv4 octets hlen => rfl
  | name bytes hlen => rfl
  | ipv6 octets hlen => rfl
  | unknown atyp hatyp => exact absurd hknown id

theorem negotiate_of_socks5 {r : Socks5Request} (hcmd : r.cmd = 1) (hknown : r.address.Known)
    (htext : r.address.Textual) :
    ∃ host, r.address.Names host ∧ Conducts negotiate r.bytes ([5, 0] ++ socks5Reply 0) (.ok (host, r.port)) := by
  obtain ⟨host, hnames, hhost⟩ := conducts_readSocks5Host hknown htext
  refine ⟨host, hnames, ?_⟩
  rw [r.bytes_eq, portBytes_of_known hknown]
  refine conducts_negotiateSocks5 r ?_
  rw [if_neg (not_not_intro hcmd)]
  refine Conducts.read_bind hhost (Conducts.last_read_bind (conducts_readU16 r.port) ?_)
  exact Conducts.last_write_bind (Conducts.writeAll _) (Conducts.pure _)

/-! ## 拒否する要求 -/

/-- 要求の先頭を読んだところで、`out` を書いて誤りで終わる。 -/
def Refuses (r : Request) (out : List UInt8) : Prop :=
  ∃ first e, first <+: r.bytes ∧ Conducts negotiate first out (.error e)

theorem Refuses.run {r : Request} {out : List UInt8} (h : Refuses r out) {d : TcpStream} {rest : List UInt8}
    (hpending : d.pending = r.bytes ++ rest) :
    ∃ e d', negotiate d = (.error e, d') ∧ d'.written = d.written ++ out := by
  obtain ⟨first, e, ⟨tail, htail⟩, hconducts⟩ := h
  obtain ⟨d', hrun, -, hwritten⟩ := hconducts d (tail ++ rest) (by rw [hpending, ← htail, List.append_assoc])
  exact ⟨e, d', hrun, hwritten⟩

theorem socks4_refuses_command {r : Socks4Request} (hcmd : r.cmd ≠ 1) : Refuses (.socks4 r) (socks4Reply false) := by
  refine ⟨[4, r.cmd], .unsupportedCommand r.cmd, ⟨_, rfl⟩, ?_⟩
  refine Conducts.read_cons (conducts_readU8 4) ?_
  rw [if_pos rfl]
  refine Conducts.read_cons (conducts_readU8 r.cmd) ?_
  rw [if_pos hcmd]
  exact Conducts.last_write_bind (Conducts.writeAll _) (Conducts.throw _)

/-- userid までは正しく、名前が制限を破っているときの、宛先の読み取り。 -/
theorem conducts_readSocks4Host_error {r : Socks4Request} {bytes : List UInt8} (hname : r.name = some bytes)
    (hbad : ¬(bytes.length ≤ 255 ∧ IsUtf8 bytes)) :
    ∃ first e, first <+: bytes ++ [0] ∧ Conducts (readSocks4Host r.ip) first [] (.error e) := by
  have hmarker := socks4_isDomainMarker hname
  have hnul := r.name_noNul bytes hname
  rw [readSocks4Host, hmarker]
  by_cases hlen : bytes.length ≤ 255
  · have hutf8 : ¬IsUtf8 bytes := fun h => hbad ⟨hlen, h⟩
    refine ⟨bytes ++ [0], .malformed "invalid SOCKS4a hostname", List.prefix_rfl, ?_⟩
    refine Conducts.last_read_bind (conducts_readUntilNul hnul hlen) ?_
    rw [hostname_of_not_isUtf8 hutf8]
    exact Conducts.lift _
  · have hlong := conducts_readUntilNul_of_long hnul (Nat.lt_of_not_le hlen)
    exact ⟨bytes.take 256, _, (List.take_prefix _ _).trans (List.prefix_append _ _), Conducts.bind_error hlong _⟩

theorem socks4_refuses_illFormed {r : Socks4Request} (hcmd : r.cmd = 1) (hwf : ¬r.Wellformed) :
    Refuses (.socks4 r) [] := by
  by_cases hid : r.userid.length ≤ 255
  · cases hname : r.name with
    | none => exact absurd ⟨hid, by simp [hname]⟩ hwf
    | some bytes =>
        have hbad : ¬(bytes.length ≤ 255 ∧ IsUtf8 bytes) := fun h => hwf ⟨hid, by simpa [hname] using h⟩
        obtain ⟨first, e, ⟨tail, htail⟩, hhost⟩ := conducts_readSocks4Host_error hname hbad
        refine ⟨_, e, ⟨tail, ?_⟩, conducts_negotiateSocks4 hcmd
          (Conducts.read_bind (conducts_readUntilNul r.userid_noNul hid) (Conducts.bind_error hhost _))⟩
        simp [Request.bytes, Socks4Request.bytes, Socks4Request.nameBytes, hname, ← htail]
  · have hlong := conducts_readUntilNul_of_long r.userid_noNul (Nat.lt_of_not_le hid)
    refine ⟨_, _, ⟨r.userid.drop 256 ++ ([0] ++ Socks4Request.nameBytes r.name), ?_⟩,
      conducts_negotiateSocks4 hcmd (Conducts.bind_error hlong _)⟩
    simp only [Request.bytes, Socks4Request.bytes, List.cons_append, List.append_assoc, List.nil_append,
      List.cons.injEq, List.append_cancel_left_eq, true_and]
    rw [← List.append_assoc, List.take_append_drop]

theorem header_prefix_bytes (r : Socks5Request) : r.header ++ [] <+: (Request.socks5 r).bytes := by
  rw [List.append_nil, Request.bytes, r.bytes_eq]
  exact List.prefix_append _ _

theorem socks5_refuses_command {r : Socks5Request} (hcmd : r.cmd ≠ 1) :
    Refuses (.socks5 r) ([5, 0] ++ socks5Reply 0x07) := by
  refine ⟨_, .unsupportedCommand r.cmd, header_prefix_bytes r, conducts_negotiateSocks5 r ?_⟩
  rw [if_pos hcmd]
  exact Conducts.last_write_bind (Conducts.writeAll _) (Conducts.throw _)

theorem socks5_refuses_unknown {r : Socks5Request} (hcmd : r.cmd = 1) (hknown : ¬r.address.Known) :
    Refuses (.socks5 r) ([5, 0] ++ socks5Reply 0x08) := by
  refine ⟨_, .unsupportedAddressType r.address.atyp, header_prefix_bytes r, conducts_negotiateSocks5 r ?_⟩
  rw [if_neg (not_not_intro hcmd)]
  cases haddress : r.address with
  | ipv4 octets hlen => exact absurd (by simp [haddress, Socks5Address.Known]) hknown
  | name bytes hlen => exact absurd (by simp [haddress, Socks5Address.Known]) hknown
  | ipv6 octets hlen => exact absurd (by simp [haddress, Socks5Address.Known]) hknown
  | unknown atyp hatyp =>
      simp only [List.mem_cons, List.not_mem_nil, or_false, not_or] at hatyp
      rw [answerSocks5, readSocks5Host, Socks5Address.atyp, if_neg hatyp.1, if_neg hatyp.2.1, if_neg hatyp.2.2]
      refine Conducts.bind_error ?_ _
      exact Conducts.last_write_bind (Conducts.writeAll _) (Conducts.throw _)

theorem socks5_refuses_illFormed {r : Socks5Request} (hcmd : r.cmd = 1) (htext : ¬r.address.Textual) :
    Refuses (.socks5 r) ([5, 0] ++ []) := by
  cases haddress : r.address with
  | ipv4 octets hlen => exact absurd (by simp [haddress, Socks5Address.Textual]) htext
  | ipv6 octets hlen => exact absurd (by simp [haddress, Socks5Address.Textual]) htext
  | unknown atyp hatyp => exact absurd (by simp [haddress, Socks5Address.Textual]) htext
  | name bytes hlen =>
      have hutf8 : ¬IsUtf8 bytes := by simpa [haddress, Socks5Address.Textual] using htext
      refine ⟨r.header ++ r.address.field, .malformed "invalid SOCKS5 hostname", ?_, conducts_negotiateSocks5 r ?_⟩
      · rw [Request.bytes, r.bytes_eq, ← List.append_assoc]
        exact List.prefix_append _ _
      · rw [if_neg (not_not_intro hcmd), haddress]
        refine Conducts.bind_error ?_ _
        refine Conducts.read_cons (conducts_readU8 _) ?_
        refine Conducts.last_read_bind (conducts_readExact (toNat_ofNat_length hlen).symm) ?_
        rw [hostname_of_not_isUtf8 hutf8]
        exact Conducts.lift _

/-! ## 値を返した読み取り -/

theorem achieves_readU8 : Achieves readU8 fun bytes out b => bytes = [b] ∧ out = [] := by
  refine (Achieves.readExact earlyEof 1).bind fun bytes out read hread => Achieves.pure ?_
  obtain ⟨hlen, rfl, rfl⟩ := hread
  obtain ⟨b, rfl⟩ := List.length_eq_one_iff.mp hlen
  simp

theorem achieves_readU16 : Achieves readU16 fun bytes out port => bytes = beEncode 2 port.toNat ∧ out = [] := by
  refine (Achieves.readExact earlyEof 2).bind fun bytes out read hread => Achieves.pure ?_
  obtain ⟨hlen, rfl, rfl⟩ := hread
  have hlt : beDecode read < 2 ^ 16 := by simpa [hlen] using beDecode_lt read
  have hencode := beEncode_beDecode read
  rw [hlen] at hencode
  simp [UInt16.toNat_ofNat_of_lt' hlt, hencode]

theorem achieves_readUntilNulLoop (fuel : Nat) (buf : List UInt8) (hbuf : buf.length ≤ 255) :
    Achieves (readUntilNulLoop fuel buf) fun bytes out read =>
      ∃ field, read = buf ++ field ∧ bytes = field ++ [0] ∧ 0 ∉ field ∧ read.length ≤ 255 ∧ out = [] := by
  induction fuel generalizing buf with
  | zero => exact Achieves.throw _ _
  | succ fuel ih =>
      refine achieves_readU8.bind fun bytes out b hread => ?_
      obtain ⟨rfl, rfl⟩ := hread
      by_cases hb : b = 0
      · rw [if_pos hb]
        exact Achieves.pure ⟨[], by simp [hb, hbuf]⟩
      · rw [if_neg hb]
        by_cases hlen : (buf ++ [b]).length > 255
        · simp only [if_pos hlen]
          exact Achieves.throw _ _
        · simp only [if_neg hlen]
          refine (ih (buf ++ [b]) (Nat.le_of_not_lt hlen)).mono fun bytes out read hfield => ?_
          obtain ⟨field, rfl, rfl, hnul, hlen, rfl⟩ := hfield
          refine ⟨b :: field, by simp, by simp, ?_, by simpa using hlen, rfl⟩
          simp only [List.mem_cons, not_or]
          exact ⟨fun hzero => hb hzero.symm, hnul⟩

theorem achieves_readUntilNul :
    Achieves readUntilNul fun bytes out field => bytes = field ++ [0] ∧ 0 ∉ field ∧ field.length ≤ 255 ∧ out = [] := by
  refine (achieves_readUntilNulLoop 256 [] (Nat.zero_le _)).mono fun bytes out read hfield => ?_
  obtain ⟨field, rfl, hrest⟩ := hfield
  exact hrest

theorem achieves_hostname (bytes : List UInt8) (msg : String) :
    Achieves (DuplexM.lift (hostname bytes msg) : SocksM String) fun read out host =>
      read = [] ∧ out = [] ∧ utf8 host = bytes :=
  Achieves.lift fun _ hok => ⟨rfl, rfl, utf8_of_hostname hok⟩

theorem achieves_readSocks4Host {ip : List UInt8} (hip : ip.length = 4) :
    Achieves (readSocks4Host ip) fun bytes out host => out = [] ∧
      ∃ name, bytes = Socks4Request.nameBytes name ∧ name.isSome = isDomainMarker ip ∧
        (∀ field ∈ name, 0 ∉ field ∧ field.length ≤ 255 ∧ utf8 host = field) ∧
        (name = none → DenotesIpv4 host.toList ip) := by
  rw [readSocks4Host]
  cases hmarker : isDomainMarker ip with
  | false =>
      refine Achieves.pure ⟨rfl, none, rfl, rfl, by simp, fun _ => ?_⟩
      rw [ipv4ToString, String.toList_ofList]
      exact denotesIpv4_ipv4Text hip
  | true =>
      refine achieves_readUntilNul.bind fun bytes out field hfield => ?_
      obtain ⟨rfl, hnul, hlen, rfl⟩ := hfield
      refine (achieves_hostname field _).mono fun bytes out host hhost => ?_
      obtain ⟨rfl, rfl, hhost⟩ := hhost
      exact ⟨rfl, some field, by simp [Socks4Request.nameBytes], rfl, by simp [hnul, hlen, hhost], by simp⟩

theorem achieves_negotiateSocks4 :
    Achieves negotiateSocks4 fun bytes out target => ∃ r : Socks4Request, r.cmd = 1 ∧ r.Wellformed ∧
      r.Names target.1 ∧ r.port = target.2 ∧ 4 :: bytes = r.bytes ∧ out = socks4Reply true := by
  refine achieves_readU8.bind fun _ _ cmd hread => ?_
  obtain ⟨rfl, rfl⟩ := hread
  by_cases hcmd : cmd = 1
  · rw [if_neg (not_not_intro hcmd)]
    refine achieves_readU16.bind fun _ _ port hread => ?_
    obtain ⟨rfl, rfl⟩ := hread
    refine (Achieves.readExact earlyEof 4).bind fun _ _ ip hread => ?_
    obtain ⟨hip, rfl, rfl⟩ := hread
    refine achieves_readUntilNul.bind fun _ _ userid hread => ?_
    obtain ⟨rfl, hnul, hid, rfl⟩ := hread
    refine (achieves_readSocks4Host hip).bind fun _ _ host hread => ?_
    obtain ⟨rfl, name, rfl, hsome, hname, hnone⟩ := hread
    refine (Achieves.writeAll (socks4Reply true)).bind fun _ _ _ hwrite => Achieves.pure ?_
    obtain ⟨rfl, rfl⟩ := hwrite
    refine ⟨⟨cmd, port, ip, userid, name, hip, hnul, fun field hmem => (hname field hmem).1, hsome⟩, hcmd, ?_, ?_, rfl,
      ?_, ?_⟩
    · exact ⟨hid, fun field hmem => ⟨(hname field hmem).2.1, host, (hname field hmem).2.2⟩⟩
    · cases name with
      | none => exact hnone rfl
      | some field => exact (hname field rfl).2.2
    · simp [Socks4Request.bytes]
    · simp
  · rw [if_pos hcmd]
    exact (Achieves.writeAll (socks4Reply false)).bind fun _ _ _ _ => Achieves.throw _ _

theorem achieves_readSocks5Host (atyp : UInt8) :
    Achieves (readSocks5Host atyp) fun bytes out host => out = [] ∧
      ∃ address : Socks5Address, address.atyp = atyp ∧ address.field = bytes ∧ address.Known ∧ address.Textual ∧
        address.Names host := by
  rw [readSocks5Host]
  by_cases hipv4 : atyp = 1
  · rw [if_pos hipv4]
    refine (Achieves.readExact earlyEof 4).bind fun _ _ octets hread => Achieves.pure ?_
    obtain ⟨hlen, rfl, rfl⟩ := hread
    refine ⟨rfl, .ipv4 _ hlen, hipv4.symm, (List.append_nil _).symm, trivial, trivial, ?_⟩
    rw [Socks5Address.Names, ipv4ToString, String.toList_ofList]
    exact denotesIpv4_ipv4Text hlen
  rw [if_neg hipv4]
  by_cases hname : atyp = 3
  · rw [if_pos hname]
    refine achieves_readU8.bind fun _ _ len hread => ?_
    obtain ⟨rfl, rfl⟩ := hread
    refine (Achieves.readExact earlyEof len.toNat).bind fun _ _ name hread => ?_
    obtain ⟨hlen, rfl, rfl⟩ := hread
    refine (achieves_hostname _ _).mono fun _ _ host hhost => ?_
    obtain ⟨rfl, rfl, hhost⟩ := hhost
    have hle : name.length ≤ 255 := by
      rw [hlen]
      exact Nat.le_of_lt_succ len.toNat_lt
    refine ⟨rfl, .name name hle, hname.symm, ?_, trivial, ⟨host, hhost⟩, hhost⟩
    simp [Socks5Address.field, hlen]
  rw [if_neg hname]
  by_cases hipv6 : atyp = 4
  · rw [if_pos hipv6]
    refine (Achieves.readExact earlyEof 16).bind fun _ _ octets hread => Achieves.pure ?_
    obtain ⟨hlen, rfl, rfl⟩ := hread
    refine ⟨rfl, .ipv6 _ hlen, hipv6.symm, (List.append_nil _).symm, trivial, trivial, ?_⟩
    rw [Socks5Address.Names, ipv6ToString, String.toList_ofList]
    exact denotesIpv6_ipv6Text hlen
  rw [if_neg hipv6]
  exact (Achieves.writeAll (socks5Reply 8)).bind fun _ _ _ _ => Achieves.throw _ _

theorem achieves_negotiateSocks5 :
    Achieves negotiateSocks5 fun bytes out target => ∃ r : Socks5Request, r.cmd = 1 ∧ r.address.Known ∧
      r.address.Textual ∧ r.address.Names target.1 ∧ r.port = target.2 ∧ 5 :: bytes = r.bytes ∧
      out = [5, 0] ++ socks5Reply 0 := by
  refine achieves_readU8.bind fun _ _ nmethods hread => ?_
  obtain ⟨rfl, rfl⟩ := hread
  refine (Achieves.readExact earlyEof nmethods.toNat).bind fun _ _ methods hread => ?_
  obtain ⟨hmethods, rfl, rfl⟩ := hread
  refine (Achieves.writeAll [5, 0]).bind fun _ _ _ hwrite => ?_
  obtain ⟨rfl, rfl⟩ := hwrite
  refine achieves_readU8.bind fun _ _ ver hread => ?_
  obtain ⟨rfl, rfl⟩ := hread
  by_cases hver : ver = 5
  · rw [if_neg (not_not_intro hver)]
    refine achieves_readU8.bind fun _ _ cmd hread => ?_
    obtain ⟨rfl, rfl⟩ := hread
    refine achieves_readU8.bind fun _ _ rsv hread => ?_
    obtain ⟨rfl, rfl⟩ := hread
    refine achieves_readU8.bind fun _ _ atyp hread => ?_
    obtain ⟨rfl, rfl⟩ := hread
    by_cases hcmd : cmd = 1
    · rw [if_neg (not_not_intro hcmd)]
      refine (achieves_readSocks5Host atyp).bind fun field _ host hread => ?_
      obtain ⟨rfl, address, rfl, rfl, hknown, htext, hnames⟩ := hread
      refine achieves_readU16.bind fun _ _ port hread => ?_
      obtain ⟨rfl, rfl⟩ := hread
      refine (Achieves.writeAll (socks5Reply 0)).bind fun _ _ _ hwrite => Achieves.pure ?_
      obtain ⟨rfl, rfl⟩ := hwrite
      have hle : methods.length ≤ 255 := by
        rw [hmethods]
        exact Nat.le_of_lt_succ nmethods.toNat_lt
      refine ⟨⟨methods, cmd, rsv, address, port, hle⟩, hcmd, hknown, htext, hnames, rfl, ?_, ?_⟩
      · simp [Socks5Request.bytes, portBytes_of_known hknown, hmethods, hver]
      · simp
    · rw [if_pos hcmd]
      exact (Achieves.writeAll (socks5Reply 7)).bind fun _ _ _ _ => Achieves.throw _ _
  · rw [if_pos hver]
    exact Achieves.throw _ _

theorem achieves_negotiate :
    Achieves negotiate fun bytes out target => ∃ r : Request, r.Accepted ∧ r.Names target.1 ∧ r.port = target.2 ∧
      bytes = r.bytes ∧ out = r.successReply := by
  refine achieves_readU8.bind fun _ _ version hread => ?_
  obtain ⟨rfl, rfl⟩ := hread
  by_cases h4 : version = 4
  · subst h4
    rw [if_pos rfl]
    refine achieves_negotiateSocks4.mono fun bytes out target h => ?_
    obtain ⟨r, hcmd, hwf, hnames, hport, hbytes, hout⟩ := h
    exact ⟨.socks4 r, ⟨hcmd, trivial, hwf⟩, hnames, hport, hbytes, hout⟩
  rw [if_neg h4]
  by_cases h5 : version = 5
  · subst h5
    rw [if_pos rfl]
    refine achieves_negotiateSocks5.mono fun bytes out target h => ?_
    obtain ⟨r, hcmd, hknown, htext, hnames, hport, hbytes, hout⟩ := h
    exact ⟨.socks5 r, ⟨hcmd, hknown, htext⟩, hnames, hport, hbytes, hout⟩
  rw [if_neg h5]
  exact Achieves.throw _ _

/-! ## 読む長さの上限 -/

theorem readsAtMost_readU8 : ReadsAtMost 1 readU8 :=
  (ReadsAtMost.readExact earlyEof 1).bind fun _ => ReadsAtMost.pure 0 _

theorem readsAtMost_readU16 : ReadsAtMost 2 readU16 :=
  (ReadsAtMost.readExact earlyEof 2).bind fun _ => ReadsAtMost.pure 0 _

theorem readsAtMost_readUntilNulLoop (fuel : Nat) (buf : List UInt8) : ReadsAtMost fuel (readUntilNulLoop fuel buf) := by
  induction fuel generalizing buf with
  | zero => exact ReadsAtMost.lift 0 _
  | succ fuel ih =>
      rw [Nat.add_comm fuel 1, Nat.add_comm 1 fuel, readUntilNulLoop, Nat.add_comm fuel 1]
      refine readsAtMost_readU8.bind fun b => ?_
      split
      · exact ReadsAtMost.pure _ _
      · simp only
        split
        · exact ReadsAtMost.lift _ _
        · exact ih _

theorem readsAtMost_readUntilNul : ReadsAtMost 256 readUntilNul := readsAtMost_readUntilNulLoop 256 []

theorem readsAtMost_refuse (reply : List UInt8) (e : SocksError) (n : Nat) :
    ReadsAtMost n (DuplexM.writeAll reply >>= fun _ => DuplexM.throw e : SocksM (String × UInt16)) :=
  ((ReadsAtMost.writeAll 0 reply).bind fun _ => ReadsAtMost.lift 0 _).mono (Nat.zero_le n)

theorem readsAtMost_readSocks4Host (ip : List UInt8) : ReadsAtMost 256 (readSocks4Host ip) := by
  rw [readSocks4Host]
  split
  · exact readsAtMost_readUntilNul.bind fun _ => ReadsAtMost.lift 0 _
  · exact ReadsAtMost.pure _ _

theorem readsAtMost_negotiateSocks4 : ReadsAtMost 519 negotiateSocks4 := by
  refine readsAtMost_readU8.bind (k := 518) fun cmd => ?_
  split
  · exact readsAtMost_refuse _ _ _
  refine readsAtMost_readU16.bind (k := 516) fun port => ?_
  refine (ReadsAtMost.readExact earlyEof 4).bind (k := 512) fun ip => ?_
  refine readsAtMost_readUntilNul.bind (k := 256) fun _ => ?_
  refine (readsAtMost_readSocks4Host ip).bind (k := 0) fun host => ?_
  exact (ReadsAtMost.writeAll 0 _).bind fun _ => ReadsAtMost.pure 0 _

theorem readsAtMost_readSocks5Host (atyp : UInt8) : ReadsAtMost 256 (readSocks5Host atyp) := by
  rw [readSocks5Host]
  split
  · exact ((ReadsAtMost.readExact earlyEof 4).bind fun _ => ReadsAtMost.pure 0 _).mono (by decide)
  split
  · refine readsAtMost_readU8.bind (k := 255) fun len => ?_
    refine ReadsAtMost.mono ?_ (Nat.le_of_lt_succ len.toNat_lt)
    exact (ReadsAtMost.readExact earlyEof len.toNat).bind fun _ => ReadsAtMost.lift 0 _
  split
  · exact ((ReadsAtMost.readExact earlyEof 16).bind fun _ => ReadsAtMost.pure 0 _).mono (by decide)
  · exact ((ReadsAtMost.writeAll 0 _).bind fun _ => ReadsAtMost.lift 0 _).mono (Nat.zero_le _)

theorem readsAtMost_negotiateSocks5 : ReadsAtMost 519 negotiateSocks5 := by
  refine readsAtMost_readU8.bind (k := 518) fun nmethods => ?_
  refine (((ReadsAtMost.readExact earlyEof nmethods.toNat).mono (Nat.le_of_lt_succ nmethods.toNat_lt)).bind (k := 262)
    fun _ => ?_).mono (by decide)
  refine (ReadsAtMost.writeAll 0 _).bind (k := 262) fun _ => ?_
  refine readsAtMost_readU8.bind (k := 261) fun ver => ?_
  split
  · exact ReadsAtMost.lift _ _
  refine readsAtMost_readU8.bind (k := 260) fun cmd => ?_
  refine readsAtMost_readU8.bind (k := 259) fun _ => ?_
  refine readsAtMost_readU8.bind (k := 258) fun atyp => ?_
  split
  · exact readsAtMost_refuse _ _ _
  refine (readsAtMost_readSocks5Host atyp).bind (k := 2) fun host => ?_
  refine readsAtMost_readU16.bind (k := 0) fun port => ?_
  exact (ReadsAtMost.writeAll 0 _).bind fun _ => ReadsAtMost.pure 0 _

theorem readsAtMost_negotiate : ReadsAtMost 520 negotiate := by
  refine readsAtMost_readU8.bind (k := 519) fun version => ?_
  split
  · exact readsAtMost_negotiateSocks4
  split
  · exact readsAtMost_negotiateSocks5
  · exact ReadsAtMost.lift _ _

end IsekaiTerminal.Socks
