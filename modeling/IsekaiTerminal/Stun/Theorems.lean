import IsekaiTerminal.Stun.Lemmas.Parse

/-!
# STUN の応答の解析の主結果

解析は、どのバイト列に対しても範囲の外を読まずに終わり、応答に載る宛先だけを返す。規格に従うサーバーの応答からは、
前後にどの属性があっても、サーバーの見た宛先が得られる。
-/

namespace IsekaiTerminal.Stun

open Lib

/-- `body` を載せた応答。その後ろの余りは問わない。 -/
def responseBytes (transactionId : TransactionId) (body trailing : List UInt8) : List UInt8 :=
  beEncode 2 bindingSuccessResponse.toNat ++ (beEncode 2 body.length ++
    (beEncode 4 magicCookie.toNat ++ (transactionId.bytes ++ (body ++ trailing))))

/-- 規格に従うサーバーが `addr` を載せた応答。`legacy` は、`XOR-MAPPED-ADDRESS` を持たない古いサーバーである。 -/
inductive Conforming (transactionId : TransactionId) (addr : SocketAddr) : List UInt8 → Prop
  | xor {before after : List Tlv} {attr : Tlv} {reserved : UInt8} {body : List UInt8} (trailing : List UInt8)
      (htype : attr.type = xorMappedAddress) (hvalue : attr.value = xorMappedBytes transactionId reserved addr)
      (hbefore : ∀ a ∈ before, a.type ≠ xorMappedAddress)
      (hbody : Packed padLen body (before ++ attr :: after)) (hlen : body.length < 2 ^ 16) :
      Conforming transactionId addr (responseBytes transactionId body trailing)
  | legacy {before after : List Tlv} {attr : Tlv} {reserved : UInt8} {body : List UInt8} (trailing : List UInt8)
      (htype : attr.type = mappedAddress) (hvalue : attr.value = mappedBytes reserved addr)
      (hbefore : ∀ a ∈ before, a.type ≠ xorMappedAddress ∧ a.type ≠ mappedAddress)
      (hafter : ∀ a ∈ after, a.type ≠ xorMappedAddress)
      (hbody : Packed padLen body (before ++ attr :: after)) (hlen : body.length < 2 ^ 16) :
      Conforming transactionId addr (responseBytes transactionId body trailing)

theorem isResponse_responseBytes (transactionId : TransactionId) {body : List UInt8} (hlen : body.length < 2 ^ 16)
    (trailing : List UInt8) : IsResponse (responseBytes transactionId body trailing) transactionId body := by
  refine ⟨beEncode 2 body.length, body ++ trailing, length_beEncode 2 _, rfl, ?_⟩
  rw [beDecode_beEncode hlen, List.take_left]

theorem firstOf_of_type {P : Tlv → SocketAddr → Prop} {type : UInt16} {before after : List Tlv} {attr : Tlv}
    {addr : SocketAddr} (hP : ∀ a other, P a other → a.type = type) (hattr : P attr addr)
    (hbefore : ∀ a ∈ before, a.type ≠ type) : FirstOf P (before ++ attr :: after) addr :=
  ⟨before, attr, after, rfl, hattr, fun a ha other h => hbefore a ha (hP a other h)⟩

theorem answers_of_conforming {transactionId : TransactionId} {addr : SocketAddr} {data : List UInt8}
    (h : Conforming transactionId addr data) : Answers data transactionId addr := by
  cases h with
  | @xor before after attr reserved body trailing htype hvalue hbefore hbody hlen =>
      have hattr : XorMapped transactionId attr addr := ⟨htype, reserved, [], by rw [hvalue, List.append_nil]⟩
      exact ⟨body, _, isResponse_responseBytes transactionId hlen trailing, hbody.items,
        .inl (firstOf_of_type (fun _ _ h => h.1) hattr hbefore)⟩
  | @legacy before after attr reserved body trailing htype hvalue hbefore hafter hbody hlen =>
      have hattr : Mapped attr addr := ⟨htype, reserved, [], by rw [hvalue, List.append_nil]⟩
      have hnone : ∀ a ∈ before ++ attr :: after, ∀ other, ¬XorMapped transactionId a other := by
        rw [List.forall_mem_append, List.forall_mem_cons]
        refine ⟨fun a ha _ h => (hbefore a ha).1 h.1, fun _ h => ?_, fun a ha _ h => hafter a ha h.1⟩
        exact absurd (htype.symm.trans h.1) (by decide)
      exact ⟨body, _, isResponse_responseBytes transactionId hlen trailing, hbody.items,
        .inr ⟨hnone, firstOf_of_type (fun _ _ h => h.1) hattr fun a ha => (hbefore a ha).2⟩⟩

/-- 正しい属性が 1 つでもあれば、選ばれる宛先がある。 -/
theorem exists_firstOf {P : Tlv → SocketAddr → Prop} {attrs : List Tlv} (h : ∃ attr ∈ attrs, ∃ addr, P attr addr) :
    ∃ addr, FirstOf P attrs addr := by
  induction attrs with
  | nil =>
      obtain ⟨attr, hattr, -⟩ := h
      exact absurd hattr List.not_mem_nil
  | cons head attrs ih =>
      by_cases hhead : ∃ addr, P head addr
      · obtain ⟨addr, haddr⟩ := hhead
        exact ⟨addr, firstOf_cons.mpr (.inl haddr)⟩
      · obtain ⟨attr, hattr, haddr⟩ := h
        rcases List.mem_cons.mp hattr with rfl | hattr
        · exact absurd haddr hhead
        · obtain ⟨addr, hfirst⟩ := ih ⟨attr, hattr, haddr⟩
          exact ⟨addr, firstOf_cons.mpr (.inr ⟨not_exists.mp hhead, hfirst⟩)⟩

theorem exists_chosen_iff {transactionId : TransactionId} {attrs : List Tlv} :
    (∃ addr, Chosen transactionId attrs addr) ↔
      ∃ attr ∈ attrs, ∃ addr, XorMapped transactionId attr addr ∨ Mapped attr addr := by
  constructor
  · rintro ⟨addr, ⟨before, attr, after, rfl, hattr, -⟩ | ⟨-, before, attr, after, rfl, hattr, -⟩⟩
    · exact ⟨attr, by simp, addr, .inl hattr⟩
    · exact ⟨attr, by simp, addr, .inr hattr⟩
  · rintro ⟨attr, hmem, addr, hattr⟩
    by_cases hxor : ∃ a ∈ attrs, ∃ other, XorMapped transactionId a other
    · obtain ⟨other, hfirst⟩ := exists_firstOf hxor
      exact ⟨other, .inl hfirst⟩
    · have hnone : ∀ a ∈ attrs, ∀ other, ¬XorMapped transactionId a other :=
        fun a ha other h => hxor ⟨a, ha, other, h⟩
      obtain ⟨other, hfirst⟩ : ∃ other, FirstOf Mapped attrs other :=
        exists_firstOf ⟨attr, hmem, addr, hattr.resolve_left (hnone attr hmem addr)⟩
      exact ⟨other, .inr ⟨hnone, hfirst⟩⟩

/-- 解析は必ず終わり、返す宛先は応答の属性から選ばれたものである。 -/
theorem parseBindingResponse_correct :
    (∀ data transactionId, ∃ r, parseBindingResponse data transactionId = some r ∧
      (∀ addr, r = .ok addr ↔ ∃ body attrs, IsResponse data transactionId body ∧ Items padLen body attrs ∧
        Chosen transactionId attrs addr) ∧
      ((∃ addr, r = .ok addr) ↔ ∃ body attrs, IsResponse data transactionId body ∧ Items padLen body attrs ∧
        ∃ attr ∈ attrs, ∃ addr, XorMapped transactionId attr addr ∨ Mapped attr addr)) ∧
    ∀ data transactionId addr, Conforming transactionId addr data →
      parseBindingResponse data transactionId = some (.ok addr) := by
  refine ⟨fun data transactionId => ?_, fun data transactionId addr h => ?_⟩
  · obtain ⟨r, hr, hspec⟩ := parseBindingResponse_decodes data transactionId
    refine ⟨r, hr, hspec, ?_⟩
    simp only [hspec, Answers, ← exists_chosen_iff]
    constructor
    · rintro ⟨addr, body, attrs, hbody, hattrs, hchosen⟩
      exact ⟨body, attrs, hbody, hattrs, addr, hchosen⟩
    · rintro ⟨body, attrs, hbody, hattrs, addr, hchosen⟩
      exact ⟨addr, body, attrs, hbody, hattrs, hchosen⟩
  · obtain ⟨r, hr, hspec⟩ := parseBindingResponse_decodes data transactionId
    rw [hr, (hspec addr).mpr (answers_of_conforming h)]

/-- どの宛先にも、それを載せた応答がある。 -/
theorem exists_conforming (transactionId : TransactionId) (addr : SocketAddr) :
    ∃ data, Conforming transactionId addr data := by
  have hportLen : (xorBytes (beEncode 2 addr.port.toNat) (cookieAndTx transactionId)).length = 2 := by
    rw [length_xorBytes (by rw [length_beEncode, length_cookieAndTx]; decide), length_beEncode]
  have hoctetsLen : (xorBytes addr.octets (cookieAndTx transactionId)).length = addr.octets.length :=
    length_xorBytes (addr.length_octets_le.trans_eq (length_cookieAndTx transactionId).symm)
  have hle := addr.length_octets_le
  have hlen : (xorMappedBytes transactionId 0 addr).length = 4 + addr.octets.length := by
    simp only [xorMappedBytes, List.length_cons, List.length_append, hportLen, hoctetsLen]
    omega
  let attr : Tlv := ⟨xorMappedAddress, xorMappedBytes transactionId 0 addr, by omega⟩
  let padding := List.replicate (padLen attr.value.length) (0 : UInt8)
  have hbody : Packed padLen (attr.encode ++ (padding ++ [])) ([] ++ attr :: []) :=
    .cons (List.length_replicate) .nil
  refine ⟨_, .xor [] rfl rfl (fun a ha => absurd ha List.not_mem_nil) hbody ?_⟩
  have hvalueLen : attr.value.length = 4 + addr.octets.length := hlen
  have hpadding : padding.length = padLen (4 + addr.octets.length) := by rw [List.length_replicate, hvalueLen]
  rw [List.length_append, Tlv.length_encode, List.append_nil, hpadding, hvalueLen, padLen, paddedLen]
  omega

end IsekaiTerminal.Stun
