import IsekaiTerminal.Stun.Parse

/-!
# 属性の値の復号
-/

namespace IsekaiTerminal.Stun

open Lib

/-! ## 参照 -/

theorem range?_append {pre mid post : List UInt8} {lo hi : Nat} (hlo : pre.length = lo) (hhi : lo + mid.length = hi) :
    range? (pre ++ (mid ++ post)) lo hi = some mid := by
  subst hlo hhi
  have hle : pre.length ≤ pre.length + mid.length ∧ pre.length + mid.length ≤ (pre ++ (mid ++ post)).length := by
    simp only [List.length_append]
    omega
  rw [range?, if_pos hle, slice, List.drop_left, Nat.add_sub_cancel_left, List.take_left]

theorem u16At_append {pre mid post : List UInt8} {i : Nat} (hpre : pre.length = i) (hmid : mid.length = 2) :
    u16At (pre ++ (mid ++ post)) i = some (UInt16.ofNat (beDecode mid)) := by
  rw [u16At, range?_append hpre (by rw [hmid]), Option.map_some]

theorem u32At_append {pre mid post : List UInt8} {i : Nat} (hpre : pre.length = i) (hmid : mid.length = 4) :
    u32At (pre ++ (mid ++ post)) i = some (UInt32.ofNat (beDecode mid)) := by
  rw [u32At, range?_append hpre (by rw [hmid]), Option.map_some]

theorem beEncode_ofNat_two {bytes : List UInt8} (h : bytes.length = 2) :
    beEncode 2 (UInt16.ofNat (beDecode bytes)).toNat = bytes := by
  have hlt : beDecode bytes < 2 ^ 16 := by
    have hbytes := beDecode_lt bytes
    rwa [h] at hbytes
  rw [UInt16.toNat_ofNat', Nat.mod_eq_of_lt hlt, ← h, beEncode_beDecode]

theorem beEncode_ofNat_four {bytes : List UInt8} (h : bytes.length = 4) :
    beEncode 4 (UInt32.ofNat (beDecode bytes)).toNat = bytes := by
  have hlt : beDecode bytes < 2 ^ 32 := by
    have hbytes := beDecode_lt bytes
    rwa [h] at hbytes
  rw [UInt32.toNat_ofNat', Nat.mod_eq_of_lt hlt, ← h, beEncode_beDecode]

theorem ofNat_beDecode_beEncode (x : UInt16) : UInt16.ofNat (beDecode (beEncode 2 x.toNat)) = x := by
  rw [beDecode_beEncode x.toNat_lt, UInt16.ofNat_toNat]

/-- 値を、予約のバイト、族、ポート、残りに分ける。 -/
theorem exists_parts {value : List UInt8} (h : 4 ≤ value.length) :
    ∃ reserved family portBytes rest, portBytes.length = 2 ∧ value = reserved :: family :: (portBytes ++ rest) := by
  match value, h with
  | reserved :: family :: high :: low :: rest, _ => exact ⟨reserved, family, [high, low], rest, rfl, rfl⟩

theorem exists_take {rest : List UInt8} {n : Nat} (h : n ≤ rest.length) :
    ∃ front back, front.length = n ∧ rest = front ++ back :=
  ⟨rest.take n, rest.drop n, List.length_take_of_le h, (List.take_append_drop n rest).symm⟩

/-! ## 排他的論理和 -/

theorem length_xorBytes {bytes mask : List UInt8} (h : bytes.length ≤ mask.length) :
    (xorBytes bytes mask).length = bytes.length := by
  rw [xorBytes, List.length_zipWith, Nat.min_eq_left h]

theorem xorBytes_xorBytes {bytes mask : List UInt8} (h : bytes.length ≤ mask.length) :
    xorBytes (xorBytes bytes mask) mask = bytes := by
  induction bytes generalizing mask with
  | nil => rfl
  | cons b bytes ih =>
      cases mask with
      | nil => exact absurd h (Nat.not_succ_le_zero _)
      | cons m mask =>
          have hhead : (b ^^^ m) ^^^ m = b := by rw [UInt8.xor_assoc, UInt8.xor_self, UInt8.xor_zero]
          have htail := ih (Nat.le_of_succ_le_succ h)
          simp only [xorBytes, List.zipWith_cons_cons] at htail ⊢
          rw [hhead, htail]

theorem xorBytes_append {bytes mask : List UInt8} (h : bytes.length = mask.length) (rest : List UInt8) :
    xorBytes bytes (mask ++ rest) = xorBytes bytes mask := by
  have happend : List.zipWith (· ^^^ ·) (bytes ++ []) (mask ++ rest) =
      List.zipWith (· ^^^ ·) bytes mask ++ List.zipWith (· ^^^ ·) [] rest := List.zipWith_append h
  rw [List.append_nil, List.zipWith_nil_left, List.append_nil] at happend
  exact happend

theorem length_cookieAndTx (transactionId : TransactionId) : (cookieAndTx transactionId).length = 16 := by
  rw [cookieAndTx, List.length_append, length_beEncode, transactionId.length_eq]

theorem xorBytes_port {bytes : List UInt8} (h : bytes.length = 2) (transactionId : TransactionId) :
    xorBytes bytes (cookieAndTx transactionId) =
      beEncode 2 (UInt16.ofNat (beDecode bytes) ^^^ (magicCookie >>> 16).toUInt16).toNat := by
  have hmask : cookieAndTx transactionId =
      beEncode 2 (magicCookie >>> 16).toUInt16.toNat ++ (beEncode 2 0xA442 ++ transactionId.bytes) := rfl
  rw [hmask, xorBytes_append (by rw [h, length_beEncode]), UInt16.toNat_xor, beEncode_xor, beEncode_ofNat_two h]
  rfl

theorem xorBytes_ipv4 {bytes : List UInt8} (h : bytes.length = 4) (transactionId : TransactionId) :
    xorBytes bytes (cookieAndTx transactionId) =
      beEncode 4 (UInt32.ofNat (beDecode bytes) ^^^ magicCookie).toNat := by
  rw [cookieAndTx, xorBytes_append (by rw [h, length_beEncode]), UInt32.toNat_xor, beEncode_xor, beEncode_ofNat_four h]
  rfl

/-! ## 値の形 -/

theorem SocketAddr.length_octets_le (addr : SocketAddr) : addr.octets.length ≤ 16 := by
  cases addr with
  | v4 ip port => exact ip.length_eq.trans_le (by decide)
  | v6 ip port => exact ip.length_eq.le

theorem isMapped_iff {reserved family : UInt8} {portBytes rest : List UInt8} (hport : portBytes.length = 2)
    {addr : SocketAddr} :
    IsMapped (reserved :: family :: (portBytes ++ rest)) addr ↔
      family = addr.family ∧ portBytes = beEncode 2 addr.port.toNat ∧ addr.octets <+: rest := by
  constructor
  · rintro ⟨reserved', rest', heq⟩
    simp only [mappedBytes, List.cons_append, List.cons.injEq, List.append_assoc] at heq
    obtain ⟨-, hfamily, heq⟩ := heq
    obtain ⟨hbytes, hrest⟩ := List.append_inj heq (by rw [hport, length_beEncode])
    exact ⟨hfamily, hbytes, rest', hrest.symm⟩
  · rintro ⟨hfamily, hbytes, rest', hrest⟩
    exact ⟨reserved, rest', by
      simp only [mappedBytes, hfamily, hbytes, ← hrest, List.cons_append, List.append_assoc]⟩

theorem isXorMapped_iff {reserved family : UInt8} {portBytes rest : List UInt8} (hport : portBytes.length = 2)
    {transactionId : TransactionId} {addr : SocketAddr} :
    IsXorMapped transactionId (reserved :: family :: (portBytes ++ rest)) addr ↔
      family = addr.family ∧ portBytes = xorBytes (beEncode 2 addr.port.toNat) (cookieAndTx transactionId) ∧
        xorBytes addr.octets (cookieAndTx transactionId) <+: rest := by
  have hlen : (xorBytes (beEncode 2 addr.port.toNat) (cookieAndTx transactionId)).length = 2 := by
    rw [length_xorBytes (by rw [length_beEncode, length_cookieAndTx]; decide), length_beEncode]
  constructor
  · rintro ⟨reserved', rest', heq⟩
    simp only [xorMappedBytes, List.cons_append, List.cons.injEq, List.append_assoc] at heq
    obtain ⟨-, hfamily, heq⟩ := heq
    obtain ⟨hbytes, hrest⟩ := List.append_inj heq (by rw [hport, hlen])
    exact ⟨hfamily, hbytes, rest', hrest.symm⟩
  · rintro ⟨hfamily, hbytes, rest', hrest⟩
    exact ⟨reserved, rest', by
      simp only [xorMappedBytes, hfamily, hbytes, ← hrest, List.cons_append, List.append_assoc]⟩

/-- 族と残りの長さが、`addr` を載せられる。 -/
def Carries (family : UInt8) (rest : List UInt8) (addr : SocketAddr) : Prop :=
  family = addr.family ∧ addr.octets.length ≤ rest.length

theorem IsMapped.carries {reserved family : UInt8} {portBytes rest : List UInt8} (hport : portBytes.length = 2)
    {addr : SocketAddr} (h : IsMapped (reserved :: family :: (portBytes ++ rest)) addr) : Carries family rest addr := by
  obtain ⟨hfamily, -, hoctets⟩ := (isMapped_iff hport).mp h
  exact ⟨hfamily, hoctets.length_le⟩

theorem IsXorMapped.carries {reserved family : UInt8} {portBytes rest : List UInt8} (hport : portBytes.length = 2)
    {transactionId : TransactionId} {addr : SocketAddr}
    (h : IsXorMapped transactionId (reserved :: family :: (portBytes ++ rest)) addr) : Carries family rest addr := by
  obtain ⟨hfamily, -, hoctets⟩ := (isXorMapped_iff hport).mp h
  have hlen := hoctets.length_le
  rw [length_xorBytes (addr.length_octets_le.trans_eq (length_cookieAndTx transactionId).symm)] at hlen
  exact ⟨hfamily, hlen⟩

theorem Carries.le_of_v4 {family : UInt8} {rest : List UInt8} {addr : SocketAddr} (h : Carries family rest addr)
    (hfamily : family = 0x01) : 4 ≤ rest.length := by
  cases addr with
  | v4 ip port => exact ip.length_eq.symm.trans_le h.2
  | v6 ip port => exact absurd (hfamily.symm.trans h.1) (by simp [SocketAddr.family])

theorem Carries.le_of_v6 {family : UInt8} {rest : List UInt8} {addr : SocketAddr} (h : Carries family rest addr)
    (hfamily : family = 0x02) : 16 ≤ rest.length := by
  cases addr with
  | v4 ip port => exact absurd (hfamily.symm.trans h.1) (by simp [SocketAddr.family])
  | v6 ip port => exact ip.length_eq.symm.trans_le h.2

theorem Carries.family_eq {family : UInt8} {rest : List UInt8} {addr : SocketAddr} (h : Carries family rest addr) :
    family = 0x01 ∨ family = 0x02 := by
  cases addr with
  | v4 ip port => exact .inl h.1
  | v6 ip port => exact .inr h.1

/-! ## 表す宛先の一意性 -/

theorem SocketAddr.eq_of_parts {a b : SocketAddr} (hfamily : a.family = b.family) (hport : a.port = b.port)
    (hoctets : a.octets = b.octets) : a = b := by
  cases a with
  | v4 ip port =>
      cases b with
      | v4 ip' port' =>
          obtain ⟨octets, hlen⟩ := ip
          obtain ⟨octets', hlen'⟩ := ip'
          simp only [SocketAddr.port, SocketAddr.octets] at hport hoctets
          subst hport hoctets
          rfl
      | v6 ip' port' => exact absurd hfamily (by simp [SocketAddr.family])
  | v6 ip port =>
      cases b with
      | v4 ip' port' => exact absurd hfamily (by simp [SocketAddr.family])
      | v6 ip' port' =>
          obtain ⟨octets, hlen⟩ := ip
          obtain ⟨octets', hlen'⟩ := ip'
          simp only [SocketAddr.port, SocketAddr.octets] at hport hoctets
          subst hport hoctets
          rfl

theorem SocketAddr.length_octets {a b : SocketAddr} (h : a.family = b.family) :
    a.octets.length = b.octets.length := by
  cases a with
  | v4 ip port =>
      cases b with
      | v4 ip' port' => exact ip.length_eq.trans ip'.length_eq.symm
      | v6 ip' port' => exact absurd h (by simp [SocketAddr.family])
  | v6 ip port =>
      cases b with
      | v4 ip' port' => exact absurd h (by simp [SocketAddr.family])
      | v6 ip' port' => exact ip.length_eq.trans ip'.length_eq.symm

theorem beEncode_port_inj {a b : UInt16} (h : beEncode 2 a.toNat = beEncode 2 b.toNat) : a = b := by
  rw [← ofNat_beDecode_beEncode a, h, ofNat_beDecode_beEncode]

theorem IsMapped.unique {value : List UInt8} {a b : SocketAddr} (ha : IsMapped value a) (hb : IsMapped value b) :
    a = b := by
  obtain ⟨reserved, rest, rfl⟩ := ha
  obtain ⟨reserved', rest', heq⟩ := hb
  simp only [mappedBytes, List.cons_append, List.cons.injEq, List.append_assoc] at heq
  obtain ⟨-, hfamily, heq⟩ := heq
  obtain ⟨hport, heq⟩ := List.append_inj heq (by rw [length_beEncode, length_beEncode])
  obtain ⟨hoctets, -⟩ := List.append_inj heq (SocketAddr.length_octets hfamily)
  exact SocketAddr.eq_of_parts hfamily (beEncode_port_inj hport) hoctets

theorem xorBytes_inj {a b mask : List UInt8} (ha : a.length ≤ mask.length) (hb : b.length ≤ mask.length)
    (h : xorBytes a mask = xorBytes b mask) : a = b := by
  rw [← xorBytes_xorBytes ha, h, xorBytes_xorBytes hb]

theorem IsXorMapped.unique {transactionId : TransactionId} {value : List UInt8} {a b : SocketAddr}
    (ha : IsXorMapped transactionId value a) (hb : IsXorMapped transactionId value b) : a = b := by
  have hmask : ∀ addr : SocketAddr, addr.octets.length ≤ (cookieAndTx transactionId).length := fun addr =>
    addr.length_octets_le.trans_eq (length_cookieAndTx transactionId).symm
  have hportMask : ∀ port : UInt16, (beEncode 2 port.toNat).length ≤ (cookieAndTx transactionId).length := by
    intro port
    rw [length_beEncode, length_cookieAndTx]
    decide
  obtain ⟨reserved, rest, rfl⟩ := ha
  obtain ⟨reserved', rest', heq⟩ := hb
  simp only [xorMappedBytes, List.cons_append, List.cons.injEq, List.append_assoc] at heq
  obtain ⟨-, hfamily, heq⟩ := heq
  obtain ⟨hport, heq⟩ := List.append_inj heq (by
    rw [length_xorBytes (hportMask _), length_xorBytes (hportMask _), length_beEncode, length_beEncode])
  obtain ⟨hoctets, -⟩ := List.append_inj heq (by
    rw [length_xorBytes (hmask a), length_xorBytes (hmask b), SocketAddr.length_octets hfamily])
  exact SocketAddr.eq_of_parts hfamily (beEncode_port_inj (xorBytes_inj (hportMask _) (hportMask _) hport))
    (xorBytes_inj (hmask a) (hmask b) hoctets)

/-! ## 復号の結果 -/

/-- 復号は範囲の外を読まず、`P` を満たす宛先を、あればちょうど返す。 -/
def Decodes (decoded : Option (Except StunError SocketAddr)) (P : SocketAddr → Prop) : Prop :=
  ∃ r, decoded = some r ∧ ∀ addr, r = .ok addr ↔ P addr

theorem Decodes.ok {decoded : Option (Except StunError SocketAddr)} {P : SocketAddr → Prop} {addr : SocketAddr}
    (h : decoded = some (.ok addr)) (hP : P addr) (hunique : ∀ other, P other → other = addr) : Decodes decoded P := by
  refine ⟨_, h, fun other => Iff.intro (fun heq => Except.ok.inj heq ▸ hP) fun hother => ?_⟩
  rw [hunique other hother]

theorem Decodes.error {decoded : Option (Except StunError SocketAddr)} {P : SocketAddr → Prop} {e : StunError}
    (h : decoded = some (.error e)) (hP : ∀ addr, ¬P addr) : Decodes decoded P :=
  ⟨_, h, fun addr => iff_of_false (fun heq => by cases heq) (hP addr)⟩

section Decode

variable {reserved family : UInt8} {portBytes : List UInt8}

theorem u16At_port (hport : portBytes.length = 2) (rest : List UInt8) :
    u16At (reserved :: family :: (portBytes ++ rest)) 2 = some (UInt16.ofNat (beDecode portBytes)) := by
  have hpre : [reserved, family].length = 2 := rfl
  exact u16At_append hpre hport

theorem range?_octets (hport : portBytes.length = 2) {front : List UInt8} {hi : Nat} (hfront : 4 + front.length = hi)
    (back : List UInt8) : range? (reserved :: family :: (portBytes ++ (front ++ back))) 4 hi = some front := by
  have hpre : (reserved :: family :: portBytes).length = 4 := by
    rw [List.length_cons, List.length_cons, hport]
  exact range?_append hpre hfront

theorem length_value (hport : portBytes.length = 2) (rest : List UInt8) :
    (reserved :: family :: (portBytes ++ rest)).length = 4 + rest.length := by
  simp only [List.length_cons, List.length_append, hport]
  omega

end Decode

theorem ipv4?_eq_some {octets : List UInt8} (h : octets.length = 4) : ipv4? octets = some ⟨octets, h⟩ := dif_pos h

theorem ipv6?_eq_some {octets : List UInt8} (h : octets.length = 16) : ipv6? octets = some ⟨octets, h⟩ := dif_pos h

theorem decodeMappedAddress_decodes (value : List UInt8) : Decodes (decodeMappedAddress value) (IsMapped value) := by
  by_cases hshort : value.length < 4
  · refine .error (if_pos hshort) fun addr ⟨reserved, rest, heq⟩ => ?_
    simp only [heq, mappedBytes, List.length_append, List.length_cons, length_beEncode] at hshort
    omega
  obtain ⟨reserved, family, portBytes, rest, hport, rfl⟩ := exists_parts (Nat.not_lt.mp hshort)
  have hcarries : ∀ addr, IsMapped (reserved :: family :: (portBytes ++ rest)) addr → Carries family rest addr :=
    fun addr => IsMapped.carries hport
  rw [length_value hport] at hshort
  simp only [decodeMappedAddress, length_value hport, if_neg hshort, u16At_port hport, List.getElem?_cons_succ,
    List.getElem?_cons_zero, bind, Option.bind]
  by_cases hone : family = 0x01
  · rw [if_pos hone]
    by_cases hfull : 4 ≤ rest.length
    · obtain ⟨front, back, hfront, rfl⟩ := exists_take hfull
      rw [if_neg (by omega), range?_octets hport (by omega)]
      simp only [ipv4?_eq_some hfront]
      refine .ok rfl ?_ fun other hother => hother.unique ?_
      all_goals exact (isMapped_iff hport).mpr ⟨hone, (beEncode_ofNat_two hport).symm, List.prefix_append front back⟩
    · exact .error (if_pos (by omega)) fun addr h => hfull ((hcarries addr h).le_of_v4 hone)
  · rw [if_neg hone]
    by_cases htwo : family = 0x02
    · rw [if_pos htwo]
      by_cases hfull : 16 ≤ rest.length
      · obtain ⟨front, back, hfront, rfl⟩ := exists_take hfull
        rw [if_neg (by omega), range?_octets hport (by omega)]
        simp only [ipv6?_eq_some hfront]
        refine .ok rfl ?_ fun other hother => hother.unique ?_
        all_goals exact (isMapped_iff hport).mpr ⟨htwo, (beEncode_ofNat_two hport).symm, List.prefix_append front back⟩
      · exact .error (if_pos (by omega)) fun addr h => hfull ((hcarries addr h).le_of_v6 htwo)
    · rw [if_neg htwo]
      exact .error rfl fun addr h => (hcarries addr h).family_eq.elim hone htwo

theorem decodeXorMappedAddress_decodes (value : List UInt8) (transactionId : TransactionId) :
    Decodes (decodeXorMappedAddress value transactionId) (IsXorMapped transactionId value) := by
  by_cases hshort : value.length < 4
  · refine .error (if_pos hshort) fun addr ⟨reserved, rest, heq⟩ => ?_
    have hportLen : (xorBytes (beEncode 2 addr.port.toNat) (cookieAndTx transactionId)).length = 2 := by
      rw [length_xorBytes (by rw [length_beEncode, length_cookieAndTx]; decide), length_beEncode]
    simp only [heq, xorMappedBytes, List.length_append, List.length_cons, hportLen] at hshort
    omega
  obtain ⟨reserved, family, portBytes, rest, hport, rfl⟩ := exists_parts (Nat.not_lt.mp hshort)
  have hcarries : ∀ addr, IsXorMapped transactionId (reserved :: family :: (portBytes ++ rest)) addr →
      Carries family rest addr := fun addr => IsXorMapped.carries hport
  have hmasked : portBytes = xorBytes (beEncode 2 (UInt16.ofNat (beDecode portBytes) ^^^
      (magicCookie >>> 16).toUInt16).toNat) (cookieAndTx transactionId) := by
    rw [← xorBytes_port hport transactionId, xorBytes_xorBytes (by rw [hport, length_cookieAndTx]; decide)]
  rw [length_value hport] at hshort
  simp only [decodeXorMappedAddress, length_value hport, if_neg hshort, u16At_port hport, List.getElem?_cons_succ,
    List.getElem?_cons_zero, bind, Option.bind]
  by_cases hone : family = 0x01
  · rw [if_pos hone]
    by_cases hfull : 4 ≤ rest.length
    · obtain ⟨front, back, hfront, rfl⟩ := exists_take hfull
      have hoctets : xorBytes (beEncode 4 (UInt32.ofNat (beDecode front) ^^^ magicCookie).toNat)
          (cookieAndTx transactionId) = front := by
        rw [← xorBytes_ipv4 hfront transactionId, xorBytes_xorBytes (by rw [hfront, length_cookieAndTx]; decide)]
      rw [if_neg (by omega), u32At, range?_octets hport (by omega), Option.map_some]
      simp only [ipv4?_eq_some (length_beEncode 4 _)]
      refine .ok rfl ?_ fun other hother => hother.unique ?_
      all_goals exact (isXorMapped_iff hport).mpr ⟨hone, hmasked, by
        rw [SocketAddr.octets, hoctets]
        exact List.prefix_append front back⟩
    · exact .error (if_pos (by omega)) fun addr h => hfull ((hcarries addr h).le_of_v4 hone)
  · rw [if_neg hone]
    by_cases htwo : family = 0x02
    · rw [if_pos htwo]
      by_cases hfull : 16 ≤ rest.length
      · obtain ⟨front, back, hfront, rfl⟩ := exists_take hfull
        have hle : front.length ≤ (cookieAndTx transactionId).length := by rw [hfront, length_cookieAndTx]
        have hlen : (List.zipWith (· ^^^ ·) front (cookieAndTx transactionId)).length = 16 :=
          (length_xorBytes hle).trans hfront
        rw [if_neg (by omega), range?_octets hport (by omega)]
        simp only [ipv6?_eq_some hlen]
        refine .ok rfl ?_ fun other hother => hother.unique ?_
        all_goals exact (isXorMapped_iff hport).mpr ⟨htwo, hmasked, by
          show xorBytes (xorBytes front (cookieAndTx transactionId)) (cookieAndTx transactionId) <+: front ++ back
          rw [xorBytes_xorBytes hle]
          exact List.prefix_append front back⟩
      · exact .error (if_pos (by omega)) fun addr h => hfull ((hcarries addr h).le_of_v6 htwo)
    · rw [if_neg htwo]
      exact .error rfl fun addr h => (hcarries addr h).family_eq.elim hone htwo

/-!
## 属性のループと応答の解析
-/

/-! ## 最初の属性 -/

theorem not_firstOf_nil {P : Tlv → SocketAddr → Prop} {addr : SocketAddr} : ¬FirstOf P [] addr := by
  rintro ⟨before, attr, after, heq, -⟩
  cases before <;> cases heq

theorem firstOf_cons {P : Tlv → SocketAddr → Prop} {attr : Tlv} {attrs : List Tlv} {addr : SocketAddr} :
    FirstOf P (attr :: attrs) addr ↔ P attr addr ∨ (∀ other, ¬P attr other) ∧ FirstOf P attrs addr := by
  constructor
  · rintro ⟨before, first, after, heq, hfirst, hbefore⟩
    cases before with
    | nil =>
        cases heq
        exact .inl hfirst
    | cons head before =>
        cases heq
        rw [List.forall_mem_cons] at hbefore
        exact .inr ⟨hbefore.1, before, first, after, rfl, hfirst, hbefore.2⟩
  · rintro (hfirst | ⟨hnone, before, first, after, rfl, hfirst, hbefore⟩)
    · exact ⟨[], attr, attrs, rfl, hfirst, fun a ha => absurd ha List.not_mem_nil⟩
    · exact ⟨attr :: before, first, after, rfl, hfirst, List.forall_mem_cons.mpr ⟨hnone, hbefore⟩⟩

/-- これまでに見つけた `MAPPED-ADDRESS` の下で選ばれる宛先。 -/
def ChosenFrom (transactionId : TransactionId) (fallback : Option SocketAddr) (attrs : List Tlv)
    (addr : SocketAddr) : Prop :=
  FirstOf (XorMapped transactionId) attrs addr ∨
    (∀ attr ∈ attrs, ∀ other, ¬XorMapped transactionId attr other) ∧
      (fallback = some addr ∨ fallback = none ∧ FirstOf Mapped attrs addr)

section

variable {transactionId : TransactionId} {fallback : Option SocketAddr} {xorError : Option StunError}

theorem chosenFrom_nil {addr : SocketAddr} : ChosenFrom transactionId fallback [] addr ↔ fallback = some addr := by
  simp only [ChosenFrom, not_firstOf_nil, false_or, List.not_mem_nil, false_implies, implies_true, true_and, and_false,
    or_false]

/-- 属性を 1 つ処理した結果の意味。 -/
inductive FlowOf (transactionId : TransactionId) (attr : Tlv) (fallback : Option SocketAddr) : Flow → Prop
  | returned {addr : SocketAddr} (h : XorMapped transactionId attr addr) :
      FlowOf transactionId attr fallback (.returned addr)
  | proceed {next : Option SocketAddr} {xorError : Option StunError}
      (hnone : ∀ other, ¬XorMapped transactionId attr other)
      (hnext : ∀ addr, next = some addr ↔ fallback = some addr ∨ fallback = none ∧ Mapped attr addr) :
      FlowOf transactionId attr fallback (.proceed next xorError)

theorem chosenFrom_cons {attr : Tlv} {attrs : List Tlv} {next : Option SocketAddr} {addr : SocketAddr}
    (hnone : ∀ other, ¬XorMapped transactionId attr other)
    (hnext : ∀ addr, next = some addr ↔ fallback = some addr ∨ fallback = none ∧ Mapped attr addr) :
    ChosenFrom transactionId fallback (attr :: attrs) addr ↔ ChosenFrom transactionId next attrs addr := by
  have hfallback : (fallback = some addr ∨ fallback = none ∧ FirstOf Mapped (attr :: attrs) addr) ↔
      (next = some addr ∨ next = none ∧ FirstOf Mapped attrs addr) := by
    rw [firstOf_cons, hnext]
    have hnextNone : next = none ↔ fallback = none ∧ ∀ other, ¬Mapped attr other := by
      rw [Option.eq_none_iff_forall_ne_some]
      constructor
      · intro h
        refine ⟨Option.eq_none_iff_forall_ne_some.mpr fun a ha => h a ((hnext a).mpr (.inl ha)), fun other hother => ?_⟩
        cases hf : fallback with
        | none => exact h other ((hnext other).mpr (.inr ⟨hf, hother⟩))
        | some a => exact h a ((hnext a).mpr (.inl hf))
      · rintro ⟨hf, hmapped⟩ a ha
        rcases (hnext a).mp ha with hsome | ⟨-, ha⟩
        · rw [hf] at hsome
          cases hsome
        · exact hmapped a ha
    rw [hnextNone]
    tauto
  have hattr : ¬XorMapped transactionId attr addr := hnone addr
  rw [ChosenFrom, ChosenFrom, hfallback, firstOf_cons, List.forall_mem_cons]
  tauto

theorem onAttribute_flowOf (transactionId : TransactionId) (fallback : Option SocketAddr)
    (xorError : Option StunError) (attr : Tlv) : ∃ flow,
    onAttribute transactionId attr.type attr.value fallback xorError = some flow ∧
      FlowOf transactionId attr fallback flow := by
  rw [onAttribute]
  by_cases hxor : attr.type = xorMappedAddress
  · have hmapped : ∀ addr, ¬Mapped attr addr := fun addr h => absurd (hxor.symm.trans h.1) (by decide)
    rw [if_pos hxor]
    obtain ⟨r, hr, hspec⟩ := decodeXorMappedAddress_decodes attr.value transactionId
    cases r with
    | ok addr => exact ⟨.returned addr, by rw [hr]; rfl, .returned ⟨hxor, (hspec addr).mp rfl⟩⟩
    | error e =>
        refine ⟨.proceed fallback (some e), by rw [hr]; rfl, .proceed (fun other h => ?_) fun addr => ?_⟩
        · cases (hspec other).mpr h.2
        · simp only [hmapped addr, and_false, or_false]
  · have hnone : ∀ other, ¬XorMapped transactionId attr other := fun other h => hxor h.1
    rw [if_neg hxor]
    by_cases hmapped : attr.type = mappedAddress ∧ fallback = none
    · rw [if_pos hmapped]
      obtain ⟨r, hr, hspec⟩ := decodeMappedAddress_decodes attr.value
      refine ⟨.proceed r.toOption xorError, by rw [hr]; rfl, .proceed hnone fun addr => ?_⟩
      simp only [hmapped.2, reduceCtorEq, false_or, true_and, Mapped, hmapped.1]
      rw [← hspec]
      cases r with
      | ok a => simp [Except.toOption]
      | error e => simp [Except.toOption]
    · rw [if_neg hmapped]
      refine ⟨.proceed fallback xorError, rfl, .proceed hnone fun addr => ?_⟩
      constructor
      · exact .inl
      · rintro (h | ⟨hfallback, htype, -⟩)
        · exact h
        · exact absurd ⟨htype, hfallback⟩ hmapped

/-! ## ループ -/

theorem le_paddedLen (n : Nat) : n ≤ paddedLen n := by
  rw [paddedLen]
  omega

theorem Decodes.congr {decoded : Option (Except StunError SocketAddr)} {P Q : SocketAddr → Prop} (h : Decodes decoded P)
    (hPQ : ∀ addr, P addr ↔ Q addr) : Decodes decoded Q := by
  obtain ⟨r, hr, hspec⟩ := h
  exact ⟨r, hr, fun addr => (hspec addr).trans (hPQ addr)⟩

/-- 属性が無くなると、見つけておいた `MAPPED-ADDRESS` を返す。 -/
theorem conclude_decodes (transactionId : TransactionId) (fallback : Option SocketAddr) (xorError : Option StunError) :
    Decodes (some (conclude fallback xorError)) (ChosenFrom transactionId fallback []) := by
  refine ⟨_, rfl, fun addr => Iff.trans ?_ chosenFrom_nil.symm⟩
  cases fallback with
  | none => simp [conclude]
  | some a => simp [conclude]

theorem returned_decodes {attr : Tlv} {addr : SocketAddr} (h : XorMapped transactionId attr addr)
    (fallback : Option SocketAddr) (attrs : List Tlv) :
    Decodes (some (.ok addr)) (ChosenFrom transactionId fallback (attr :: attrs)) := by
  refine .ok rfl (.inl (firstOf_cons.mpr (.inl h))) fun other hother => ?_
  rcases hother with hfirst | ⟨hnone, -⟩
  · rcases firstOf_cons.mp hfirst with hattr | ⟨hnone, -⟩
    · exact hattr.2.unique h.2
    · exact absurd h (hnone addr)
  · exact absurd h (hnone attr List.mem_cons_self addr)

section Encoded

variable (t : Tlv) (rest : List UInt8)

theorem u16At_type : u16At (t.encode ++ rest) 0 = some t.type := by
  have hread : u16At ([] ++ (beEncode 2 t.type.toNat ++ ((beEncode 2 t.value.length ++ t.value) ++ rest))) 0 =
      some (UInt16.ofNat (beDecode (beEncode 2 t.type.toNat))) := u16At_append rfl (length_beEncode 2 _)
  rwa [ofNat_beDecode_beEncode, List.nil_append, ← List.append_assoc] at hread

theorem u16At_len : u16At (t.encode ++ rest) 2 = some (UInt16.ofNat t.value.length) := by
  have hread : u16At (beEncode 2 t.type.toNat ++ (beEncode 2 t.value.length ++ (t.value ++ rest))) 2 =
      some (UInt16.ofNat (beDecode (beEncode 2 t.value.length))) :=
    u16At_append (length_beEncode 2 _) (length_beEncode 2 _)
  rw [beDecode_beEncode (n := 2) t.fits] at hread
  rwa [← List.append_assoc, ← List.append_assoc, List.append_assoc _ _ t.value, ← Tlv.encode] at hread

theorem range?_value : range? (t.encode ++ rest) 4 (4 + t.value.length) = some t.value := by
  have hread : range? ((beEncode 2 t.type.toNat ++ beEncode 2 t.value.length) ++ (t.value ++ rest)) 4
      (4 + t.value.length) = some t.value :=
    range?_append (by rw [List.length_append, length_beEncode, length_beEncode]) rfl
  rwa [← List.append_assoc, List.append_assoc _ _ t.value, ← Tlv.encode] at hread

theorem toNat_len : (UInt16.ofNat t.value.length).toNat = t.value.length := by
  rw [UInt16.toNat_ofNat']
  exact Nat.mod_eq_of_lt t.fits

/-- 値まで揃った項目が先頭にあるときの、ループの 1 回。 -/
theorem parseAttributes_encode {flow : Flow}
    (hflow : onAttribute transactionId t.type t.value fallback xorError = some flow) :
    parseAttributes transactionId (t.encode ++ rest) fallback xorError =
      match flow with
      | .returned addr => some (.ok addr)
      | .proceed next nextError =>
          if rest.length < padLen t.value.length then some (conclude next nextError)
          else parseAttributes transactionId (rest.drop (padLen t.value.length)) next nextError := by
  have hlen : (t.encode ++ rest).length = 4 + t.value.length + rest.length := by
    rw [List.length_append, Tlv.length_encode]
  have hpadded := le_paddedLen t.value.length
  rw [parseAttributes, dif_pos (by omega)]
  simp only [u16At_type, u16At_len, toNat_len, range?_value, hflow, bind, Option.bind, hlen]
  rw [if_neg (by omega)]
  cases flow with
  | returned addr => rfl
  | proceed next nextError =>
      have hdrop : (t.encode ++ rest).drop (4 + paddedLen t.value.length) = rest.drop (padLen t.value.length) := by
        have hsplit : 4 + paddedLen t.value.length = t.encode.length + padLen t.value.length := by
          rw [Tlv.length_encode, padLen]
          omega
        rw [hsplit, List.drop_length_add_append]
      have hcond : 4 + t.value.length + rest.length < 4 + paddedLen t.value.length ↔
          rest.length < padLen t.value.length := by
        rw [padLen]
        omega
      simp only [hdrop, hcond]

end Encoded

theorem parseAttributes_of_stop {body : List UInt8} (h : ∀ t rest, body ≠ Tlv.encode t ++ rest) :
    parseAttributes transactionId body fallback xorError = some (conclude fallback xorError) := by
  rw [parseAttributes]
  by_cases hlen : 4 ≤ body.length
  · obtain ⟨typeBytes, rest, htype, rfl⟩ := exists_take (n := 2) (le_trans (by decide) hlen)
    rw [List.length_append, htype] at hlen
    have htail : 2 ≤ rest.length := by omega
    obtain ⟨lenBytes, rest, hlenBytes, rfl⟩ := exists_take htail
    have hvalue : rest.length < beDecode lenBytes := by
      by_contra hge
      obtain ⟨t, ht⟩ := Tlv.exists_of_header htype hlenBytes (Nat.not_lt.mp hge)
      exact h _ _ ht
    have hdecode : (UInt16.ofNat (beDecode lenBytes)).toNat = beDecode lenBytes := by
      have hlt := beDecode_lt lenBytes
      rw [hlenBytes] at hlt
      rw [UInt16.toNat_ofNat']
      exact Nat.mod_eq_of_lt hlt
    have htypeRead : u16At ([] ++ (typeBytes ++ (lenBytes ++ rest))) 0 = some (UInt16.ofNat (beDecode typeBytes)) :=
      u16At_append rfl htype
    have hlenRead : u16At (typeBytes ++ (lenBytes ++ rest)) 2 = some (UInt16.ofNat (beDecode lenBytes)) :=
      u16At_append htype hlenBytes
    have hshort : (typeBytes ++ (lenBytes ++ rest)).length < 4 + beDecode lenBytes := by
      rw [List.length_append, List.length_append, htype, hlenBytes]
      omega
    rw [dif_pos (by rw [List.length_append, htype]; omega)]
    rw [List.nil_append] at htypeRead
    simp only [htypeRead, hlenRead, hdecode, bind, Option.bind, if_pos hshort]
  · rw [dif_neg hlen]

theorem parseAttributes_decodes {body : List UInt8} {attrs : List Tlv} (h : Items padLen body attrs) :
    Decodes (parseAttributes transactionId body fallback xorError) (ChosenFrom transactionId fallback attrs) := by
  induction h generalizing fallback xorError with
  | stop hstop =>
      rw [parseAttributes_of_stop hstop]
      exact conclude_decodes transactionId fallback xorError
  | @last t rest hshort =>
      obtain ⟨flow, hflow, hmeaning⟩ := onAttribute_flowOf transactionId fallback xorError t
      rw [parseAttributes_encode t rest hflow]
      cases hmeaning with
      | returned haddr => exact returned_decodes haddr fallback []
      | proceed hnone hnext =>
          simp only [if_pos hshort]
          exact (conclude_decodes transactionId _ _).congr fun addr => (chosenFrom_cons hnone hnext).symm
  | @cons t padding rest ts hpad _ ih =>
      obtain ⟨flow, hflow, hmeaning⟩ := onAttribute_flowOf transactionId fallback xorError t
      rw [parseAttributes_encode t (padding ++ rest) hflow]
      cases hmeaning with
      | returned haddr => exact returned_decodes haddr fallback ts
      | proceed hnone hnext =>
          have hfull : ¬(padding ++ rest).length < padLen t.value.length := by
            rw [List.length_append, hpad]
            omega
          simp only [if_neg hfull]
          rw [← hpad, List.drop_left]
          exact ih.congr fun addr => (chosenFrom_cons hnone hnext).symm

/-! ## 応答の全体 -/

theorem chosen_iff {attrs : List Tlv} {addr : SocketAddr} :
    Chosen transactionId attrs addr ↔ ChosenFrom transactionId none attrs addr := by
  simp only [Chosen, ChosenFrom, reduceCtorEq, false_or, true_and]

/-- 選ばれた宛先を、応答のバイト列から述べたもの。 -/
def Answers (data : List UInt8) (transactionId : TransactionId) (addr : SocketAddr) : Prop :=
  ∃ body attrs, IsResponse data transactionId body ∧ Items padLen body attrs ∧ Chosen transactionId attrs addr

theorem exists_header {data : List UInt8} (h : headerLen ≤ data.length) :
    ∃ typeBytes lenBytes cookie tx rest, typeBytes.length = 2 ∧ lenBytes.length = 2 ∧ cookie.length = 4 ∧
      tx.length = 12 ∧ data = typeBytes ++ (lenBytes ++ (cookie ++ (tx ++ rest))) := by
  have hlen : 20 ≤ data.length := h
  obtain ⟨typeBytes, rest, htype, rfl⟩ := exists_take (n := 2) (le_trans (by decide) hlen)
  rw [List.length_append, htype] at hlen
  have hrest : 18 ≤ rest.length := by omega
  obtain ⟨lenBytes, rest, hlenBytes, rfl⟩ := exists_take (n := 2) (le_trans (by decide) hrest)
  rw [List.length_append, hlenBytes] at hrest
  have hrest : 16 ≤ rest.length := by omega
  obtain ⟨cookie, rest, hcookie, rfl⟩ := exists_take (n := 4) (le_trans (by decide) hrest)
  rw [List.length_append, hcookie] at hrest
  have hrest : 12 ≤ rest.length := by omega
  obtain ⟨tx, rest, htx, rfl⟩ := exists_take hrest
  exact ⟨typeBytes, lenBytes, cookie, tx, rest, htype, hlenBytes, hcookie, htx, rfl⟩

section Header

variable {typeBytes lenBytes cookie tx rest : List UInt8}

theorem isResponse_iff (htype : typeBytes.length = 2) (hlen : lenBytes.length = 2) (hcookie : cookie.length = 4)
    (htx : tx.length = 12) {body : List UInt8} :
    IsResponse (typeBytes ++ (lenBytes ++ (cookie ++ (tx ++ rest)))) transactionId body ↔
      UInt16.ofNat (beDecode typeBytes) = bindingSuccessResponse ∧ UInt32.ofNat (beDecode cookie) = magicCookie ∧
        tx = transactionId.bytes ∧ body = rest.take (beDecode lenBytes) := by
  constructor
  · rintro ⟨lenBytes', rest', hlen', heq, rfl⟩
    obtain ⟨rfl, hafterType⟩ := List.append_inj heq (by rw [htype, length_beEncode])
    obtain ⟨rfl, hafterLen⟩ := List.append_inj hafterType (hlen.trans hlen'.symm)
    obtain ⟨rfl, hafterCookie⟩ := List.append_inj hafterLen (by rw [hcookie, length_beEncode])
    obtain ⟨rfl, rfl⟩ := List.append_inj hafterCookie (htx.trans transactionId.length_eq.symm)
    exact ⟨rfl, rfl, rfl, rfl⟩
  · rintro ⟨htype', hcookie', rfl, rfl⟩
    refine ⟨lenBytes, rest, hlen, ?_, rfl⟩
    rw [← htype', ← hcookie', beEncode_ofNat_two htype, beEncode_ofNat_four hcookie]

theorem range?_body (htype : typeBytes.length = 2) (hlen : lenBytes.length = 2) (hcookie : cookie.length = 4)
    (htx : tx.length = 12) (n : Nat) :
    range? (typeBytes ++ (lenBytes ++ (cookie ++ (tx ++ rest)))) headerLen
      (min (headerLen + n) (typeBytes ++ (lenBytes ++ (cookie ++ (tx ++ rest)))).length) = some (rest.take n) := by
  have hpre : (typeBytes ++ (lenBytes ++ (cookie ++ tx))).length = headerLen := by
    simp only [List.length_append, htype, hlen, hcookie, htx]
    rfl
  have hsplit : typeBytes ++ (lenBytes ++ (cookie ++ (tx ++ rest))) =
      (typeBytes ++ (lenBytes ++ (cookie ++ tx))) ++ (rest.take n ++ rest.drop n) := by
    rw [List.take_append_drop]
    simp only [List.append_assoc]
  rw [hsplit]
  refine range?_append hpre ?_
  rw [List.length_append, hpre, List.take_append_drop, List.length_take]
  omega

/-- 先頭の 20 バイトが揃ったときの解析。 -/
theorem parseBindingResponse_header (htype : typeBytes.length = 2) (hlen : lenBytes.length = 2)
    (hcookie : cookie.length = 4) (htx : tx.length = 12) (transactionId : TransactionId) :
    parseBindingResponse (typeBytes ++ (lenBytes ++ (cookie ++ (tx ++ rest)))) transactionId =
      if UInt16.ofNat (beDecode typeBytes) ≠ bindingSuccessResponse then
        some (.error (.notBindingSuccess (UInt16.ofNat (beDecode typeBytes))))
      else if UInt32.ofNat (beDecode cookie) ≠ magicCookie then some (.error .badMagicCookie)
      else if tx ≠ transactionId.bytes then some (.error .transactionIdMismatch)
      else parseAttributes transactionId (rest.take (beDecode lenBytes)) none none := by
  have hfull : ¬(typeBytes ++ (lenBytes ++ (cookie ++ (tx ++ rest)))).length < headerLen := by
    simp only [List.length_append, htype, hlen, hcookie, htx, headerLen]
    omega
  have htypeRead : u16At ([] ++ (typeBytes ++ (lenBytes ++ (cookie ++ (tx ++ rest))))) 0 =
      some (UInt16.ofNat (beDecode typeBytes)) := u16At_append rfl htype
  have hlenRead : u16At (typeBytes ++ (lenBytes ++ (cookie ++ (tx ++ rest)))) 2 =
      some (UInt16.ofNat (beDecode lenBytes)) := u16At_append htype hlen
  have hcookieRead : u32At ((typeBytes ++ lenBytes) ++ (cookie ++ (tx ++ rest))) 4 =
      some (UInt32.ofNat (beDecode cookie)) := u32At_append (by rw [List.length_append, htype, hlen]) hcookie
  have htxRead : range? ((typeBytes ++ (lenBytes ++ cookie)) ++ (tx ++ rest)) 8 20 = some tx :=
    range?_append (by simp only [List.length_append, htype, hlen, hcookie]) (by rw [htx])
  have hdecode : (UInt16.ofNat (beDecode lenBytes)).toNat = beDecode lenBytes := by
    have hlt := beDecode_lt lenBytes
    rw [hlen] at hlt
    rw [UInt16.toNat_ofNat']
    exact Nat.mod_eq_of_lt hlt
  rw [List.nil_append] at htypeRead
  rw [List.append_assoc] at hcookieRead
  rw [List.append_assoc, List.append_assoc] at htxRead
  rw [parseBindingResponse, if_neg hfull]
  simp only [htypeRead, hlenRead, hcookieRead, htxRead, hdecode, range?_body htype hlen hcookie htx, bind, Option.bind]

end Header

theorem parseBindingResponse_decodes (data : List UInt8) (transactionId : TransactionId) :
    Decodes (parseBindingResponse data transactionId) (Answers data transactionId) := by
  by_cases hshort : data.length < headerLen
  · refine .error (if_pos hshort) fun addr ⟨body, attrs, ⟨lenBytes, rest, hlenBytes, heq, _⟩, _, _⟩ => ?_
    have hlen := congrArg List.length heq
    simp only [List.length_append, length_beEncode, hlenBytes, transactionId.length_eq] at hlen
    have hlt : data.length < 20 := hshort
    omega
  obtain ⟨typeBytes, lenBytes, cookie, tx, rest, htype, hlen, hcookie, htx, rfl⟩ := exists_header (Nat.not_lt.mp hshort)
  rw [parseBindingResponse_header htype hlen hcookie htx]
  by_cases htypeOk : UInt16.ofNat (beDecode typeBytes) = bindingSuccessResponse
  · rw [if_neg (not_not.mpr htypeOk)]
    by_cases hcookieOk : UInt32.ofNat (beDecode cookie) = magicCookie
    · rw [if_neg (not_not.mpr hcookieOk)]
      by_cases htxOk : tx = transactionId.bytes
      · rw [if_neg (not_not.mpr htxOk)]
        obtain ⟨attrs, hattrs⟩ := exists_items padLen (rest.take (beDecode lenBytes))
        refine (parseAttributes_decodes hattrs).congr fun addr => chosen_iff.symm.trans (Iff.intro (fun h => ?_) ?_)
        · exact ⟨_, attrs, (isResponse_iff htype hlen hcookie htx).mpr ⟨htypeOk, hcookieOk, htxOk, rfl⟩, hattrs, h⟩
        · rintro ⟨body, others, hbody, hothers, h⟩
          obtain ⟨-, -, -, rfl⟩ := (isResponse_iff htype hlen hcookie htx).mp hbody
          rwa [hattrs.unique hothers]
      · rw [if_pos htxOk]
        exact .error rfl fun addr ⟨_, _, h, _⟩ => htxOk ((isResponse_iff htype hlen hcookie htx).mp h).2.2.1
    · rw [if_pos hcookieOk]
      exact .error rfl fun addr ⟨_, _, h, _⟩ => hcookieOk ((isResponse_iff htype hlen hcookie htx).mp h).2.1
  · rw [if_pos htypeOk]
    exact .error rfl fun addr ⟨_, _, h, _⟩ => htypeOk ((isResponse_iff htype hlen hcookie htx).mp h).1

end

end IsekaiTerminal.Stun
