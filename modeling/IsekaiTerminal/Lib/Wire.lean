import Mathlib

/-!
# 固定長の欄を並べたバイト列の符号

big-endian の整数、バイト列の切り出し、符号化と復号が互いに逆であることを、特定のフレームによらずに定める。
-/

namespace IsekaiTerminal.Lib

/-! ## big-endian の整数 -/

/-- 自然数の下位 `n` バイトを、上位のバイトから並べる。 -/
def beEncode : Nat → Nat → List UInt8
  | 0, _ => []
  | n + 1, x => beEncode n (x / 256) ++ [UInt8.ofNat x]

def beDecode (bs : List UInt8) : Nat := bs.foldl (fun acc b => acc * 256 + b.toNat) 0

@[simp] theorem length_beEncode (n x : Nat) : (beEncode n x).length = n := by
  induction n generalizing x with
  | zero => rfl
  | succ n ih => simp [beEncode, ih]

theorem beDecode_concat (bs : List UInt8) (b : UInt8) : beDecode (bs ++ [b]) = beDecode bs * 256 + b.toNat := by
  simp [beDecode]

theorem beDecode_lt (bs : List UInt8) : beDecode bs < 256 ^ bs.length := by
  induction bs using List.reverseRecOn with
  | nil => simp [beDecode]
  | append_singleton bs b ih =>
      rw [beDecode_concat, List.length_append, List.length_singleton, pow_succ]
      have hb := b.toNat_lt
      omega

theorem beDecode_beEncode {n x : Nat} (h : x < 256 ^ n) : beDecode (beEncode n x) = x := by
  induction n generalizing x with
  | zero =>
      rw [pow_zero, Nat.lt_one_iff] at h
      subst h
      rfl
  | succ n ih =>
      have hdiv : x / 256 < 256 ^ n := Nat.div_lt_of_lt_mul (by rwa [pow_succ'] at h)
      rw [beEncode, beDecode_concat, ih hdiv, UInt8.toNat_ofNat']
      omega

theorem beEncode_beDecode (bs : List UInt8) : beEncode bs.length (beDecode bs) = bs := by
  induction bs using List.reverseRecOn with
  | nil => rfl
  | append_singleton bs b ih =>
      have hb := b.toNat_lt
      have hdiv : (beDecode bs * 256 + b.toNat) / 256 = beDecode bs := by omega
      have hmod : UInt8.ofNat (beDecode bs * 256 + b.toNat) = b := by
        rw [← UInt8.toNat_inj, UInt8.toNat_ofNat']
        omega
      rw [beDecode_concat, List.length_append, List.length_singleton, beEncode, hdiv, hmod, ih]

theorem beEncode_xor (n x y : Nat) :
    beEncode n (x ^^^ y) = List.zipWith (· ^^^ ·) (beEncode n x) (beEncode n y) := by
  induction n generalizing x y with
  | zero => rfl
  | succ n ih =>
      have hdiv : (x ^^^ y) / 256 = x / 256 ^^^ y / 256 := Nat.xor_div_two_pow (n := 8)
      have hlow : UInt8.ofNat (x ^^^ y) = UInt8.ofNat x ^^^ UInt8.ofNat y := by
        rw [← UInt8.toNat_inj, UInt8.toNat_xor, UInt8.toNat_ofNat', UInt8.toNat_ofNat', UInt8.toNat_ofNat',
          Nat.xor_mod_two_pow]
      simp only [beEncode]
      rw [hdiv, ih, hlow, List.zipWith_append (by simp)]
      rfl

/-! ## 切り出し -/

section

variable {α β γ ε : Type}

/-- 位置 `pos` から長さ `n` の部分列 `buf[pos..pos + n]`。 -/
def slice (buf : List β) (pos n : Nat) : List β := (buf.drop pos).take n

theorem append_prefix_iff {l₁ l₂ l : List β} :
    l₁ ++ l₂ <+: l ↔ l₁ <+: l ∧ l₂ <+: l.drop l₁.length := by
  constructor
  · rintro ⟨rest, rfl⟩
    rw [List.append_assoc, List.drop_left]
    exact ⟨List.prefix_append _ _, List.prefix_append _ _⟩
  · rintro ⟨⟨rest, rfl⟩, h⟩
    rw [List.drop_left] at h
    obtain ⟨rest', rfl⟩ := h
    exact ⟨rest', List.append_assoc _ _ _⟩

/-! ## 厳密な符号 -/

/-- 復号 `dec` は、符号化 `enc` の値だけを受け入れ、元の値を返す。 -/
def Exact (enc : α → List β) (dec : List β → Except ε α) : Prop := ∀ bs a, dec bs = .ok a ↔ enc a = bs

theorem Exact.decode_encode {enc : α → List β} {dec : List β → Except ε α} (h : Exact enc dec) (a : α) :
    dec (enc a) = .ok a := (h _ _).mpr rfl

theorem Exact.encode_decode {enc : α → List β} {dec : List β → Except ε α} (h : Exact enc dec) {bs : List β}
    {a : α} (hdec : dec bs = .ok a) : enc a = bs := (h _ _).mp hdec

/-- 固定長の欄の復号は、欄の位置から先が符号化された値で始まることと同じである。 -/
theorem Exact.slice_iff {enc : α → List β} {dec : List β → Except ε α} {n : Nat} (h : Exact enc dec)
    (hlen : ∀ a, (enc a).length = n) (buf : List β) (pos : Nat) (a : α) :
    dec (slice buf pos n) = .ok a ↔ enc a <+: buf.drop pos := by
  rw [h, slice, List.prefix_iff_eq_take, hlen]

theorem bind_eq_ok_iff {x : Except ε α} {f : α → Except ε γ} {c : γ} :
    (x >>= f) = .ok c ↔ ∃ a, x = .ok a ∧ f a = .ok c := by
  cases x with
  | error e => simp [bind, Except.bind]
  | ok a => simp [bind, Except.bind]

theorem prefix_and_length_iff {l₁ l₂ : List β} : l₁ <+: l₂ ∧ l₂.length = l₁.length ↔ l₁ = l₂ := by
  constructor
  · rintro ⟨h, hlen⟩
    exact h.eq_of_length hlen.symm
  · rintro rfl
    exact ⟨List.prefix_rfl, rfl⟩

end

/-!
## 種別と長さを前に置いた項目の列

項目は、2 バイトの種別、2 バイトの長さ、値、埋め草の順に並ぶ。埋め草の長さは、値の長さの関数 `pad` が決める。
完全な項目の列を関係として定め、どの列もそれをちょうど 1 つ持つことを示す。
-/

structure Tlv where
  type : UInt16
  value : List UInt8
  fits : value.length < 2 ^ 16
deriving DecidableEq

/-- 埋め草を除いた項目。 -/
def Tlv.encode (t : Tlv) : List UInt8 := beEncode 2 t.type.toNat ++ (beEncode 2 t.value.length ++ t.value)

@[simp] theorem Tlv.length_encode (t : Tlv) : t.encode.length = 4 + t.value.length := by
  simp only [Tlv.encode, List.length_append, length_beEncode]
  omega

theorem Tlv.encode_append_inj {t u : Tlv} {rest rest' : List UInt8} (h : t.encode ++ rest = u.encode ++ rest') :
    t = u ∧ rest = rest' := by
  simp only [Tlv.encode, List.append_assoc] at h
  obtain ⟨htype, h⟩ := List.append_inj h (by simp)
  obtain ⟨hlen, h⟩ := List.append_inj h (by simp)
  have hvalueLen : t.value.length = u.value.length := by
    rw [← beDecode_beEncode (n := 2) t.fits, ← beDecode_beEncode (n := 2) u.fits, hlen]
  obtain ⟨hvalue, hrest⟩ := List.append_inj h hvalueLen
  have htype' : t.type = u.type := by
    rw [← UInt16.toNat_inj, ← beDecode_beEncode (n := 2) t.type.toNat_lt, ← beDecode_beEncode (n := 2) u.type.toNat_lt,
      htype]
  obtain ⟨type, value, fits⟩ := t
  obtain ⟨type', value', fits'⟩ := u
  simp only at htype' hvalue
  subst htype' hvalue
  exact ⟨rfl, hrest⟩

/-- 宣言された長さの値が揃えば、項目がある。 -/
theorem Tlv.exists_of_header {typeBytes lenBytes rest : List UInt8} (htype : typeBytes.length = 2)
    (hlen : lenBytes.length = 2) (hvalue : beDecode lenBytes ≤ rest.length) :
    ∃ t : Tlv, typeBytes ++ (lenBytes ++ rest) = t.encode ++ rest.drop (beDecode lenBytes) := by
  have htypeLt : beDecode typeBytes < 2 ^ 16 := by
    have hlt := beDecode_lt typeBytes
    rwa [htype] at hlt
  have hlenLt : beDecode lenBytes < 2 ^ 16 := by
    have hlt := beDecode_lt lenBytes
    rwa [hlen] at hlt
  have htake : (rest.take (beDecode lenBytes)).length = beDecode lenBytes := List.length_take_of_le hvalue
  have htypeNat : (UInt16.ofNat (beDecode typeBytes)).toNat = beDecode typeBytes := by
    rw [UInt16.toNat_ofNat']
    exact Nat.mod_eq_of_lt htypeLt
  have htypeBytes : beEncode 2 (beDecode typeBytes) = typeBytes := by rw [← htype, beEncode_beDecode]
  have hlenBytes : beEncode 2 (beDecode lenBytes) = lenBytes := by rw [← hlen, beEncode_beDecode]
  have hfits : (rest.take (beDecode lenBytes)).length < 2 ^ 16 := by
    rw [htake]
    exact hlenLt
  refine ⟨⟨.ofNat (beDecode typeBytes), rest.take (beDecode lenBytes), hfits⟩, ?_⟩
  simp only [Tlv.encode]
  rw [htypeNat, htake, htypeBytes, hlenBytes, List.append_assoc, List.append_assoc, List.take_append_drop]

/-! ## 完全な項目の列 -/

section

variable {pad : Nat → Nat}

/-- `body` の完全な項目の列。値まで揃った項目が無くなるか、埋め草が揃わなくなるところで終わる。 -/
inductive Items (pad : Nat → Nat) : List UInt8 → List Tlv → Prop
  | stop {body : List UInt8} (h : ∀ t rest, body ≠ Tlv.encode t ++ rest) : Items pad body []
  | last {t : Tlv} {rest : List UInt8} (h : rest.length < pad t.value.length) : Items pad (t.encode ++ rest) [t]
  | cons {t : Tlv} {padding rest : List UInt8} {ts : List Tlv} (h : padding.length = pad t.value.length)
      (hrest : Items pad rest ts) : Items pad (t.encode ++ (padding ++ rest)) (t :: ts)

theorem exists_items (pad : Nat → Nat) (body : List UInt8) : ∃ ts, Items pad body ts := by
  induction hlen : body.length using Nat.strong_induction_on generalizing body with
  | _ n ih =>
      by_cases hitem : ∃ t rest, body = Tlv.encode t ++ rest
      · obtain ⟨t, rest, rfl⟩ := hitem
        rcases Nat.lt_or_ge rest.length (pad t.value.length) with hshort | hfull
        · exact ⟨[t], .last hshort⟩
        · have hlt : (rest.drop (pad t.value.length)).length < n := by
            rw [← hlen, List.length_append, Tlv.length_encode, List.length_drop]
            omega
          obtain ⟨ts, hts⟩ := ih _ hlt (rest.drop (pad t.value.length)) rfl
          refine ⟨t :: ts, ?_⟩
          have hcons := Items.cons (t := t) (List.length_take_of_le hfull) hts
          rwa [List.take_append_drop] at hcons
      · exact ⟨[], .stop fun t rest heq => hitem ⟨t, rest, heq⟩⟩

theorem Items.unique {body : List UInt8} {ts us : List Tlv} (hts : Items pad body ts) (hus : Items pad body us) :
    ts = us := by
  induction hts generalizing us with
  | stop h =>
      cases hus with
      | stop _ => rfl
      | last _ => exact absurd rfl (h _ _)
      | cons _ _ => exact absurd rfl (h _ _)
  | @last t rest h =>
      generalize heq : t.encode ++ rest = body at hus
      cases hus with
      | stop hnone => exact absurd heq.symm (hnone _ _)
      | last _ => rw [(Tlv.encode_append_inj heq).1]
      | cons hpad _ =>
          obtain ⟨rfl, rfl⟩ := Tlv.encode_append_inj heq
          rw [List.length_append] at h
          omega
  | @cons t padding rest ts h _ ih =>
      generalize heq : t.encode ++ (padding ++ rest) = body at hus
      cases hus with
      | stop hnone => exact absurd heq.symm (hnone _ _)
      | last hshort =>
          obtain ⟨rfl, rfl⟩ := Tlv.encode_append_inj heq
          rw [List.length_append] at hshort
          omega
      | cons hpad hrest =>
          obtain ⟨rfl, hinner⟩ := Tlv.encode_append_inj heq
          obtain ⟨-, rfl⟩ := List.append_inj hinner (h.trans hpad.symm)
          rw [ih hrest]

/-! ## 組み立てた列 -/

/-- どの項目にも、決まった長さの埋め草を続けた列。埋め草の値は問わない。 -/
inductive Packed (pad : Nat → Nat) : List UInt8 → List Tlv → Prop
  | nil : Packed pad [] []
  | cons {t : Tlv} {padding rest : List UInt8} {ts : List Tlv} (h : padding.length = pad t.value.length)
      (hrest : Packed pad rest ts) : Packed pad (t.encode ++ (padding ++ rest)) (t :: ts)

theorem Packed.items {body : List UInt8} {ts : List Tlv} (h : Packed pad body ts) : Items pad body ts := by
  induction h with
  | nil =>
      refine .stop fun t rest heq => ?_
      have hlen := congrArg List.length heq
      rw [List.length_append, Tlv.length_encode, List.length_nil] at hlen
      omega
  | cons hpad _ ih => exact .cons hpad ih

end

/-!
## 区切りで終わる枠の読み取り

1 行ずつ読む読み手は、届いた列を区切りの直後で分ける。送った枠の列の接頭辞だけが届くと、送った順の枠がいくつかと、
切れた枠が多くても 1 つ読める。
-/

section

variable {α : Type*} [DecidableEq α]

/-- 区切り `d` の直後で分ける。最後の行は区切りで終わらないことがある。 -/
def splitLines (d : α) : List α → List (List α)
  | [] => []
  | a :: rest =>
      if a = d then [a] :: splitLines d rest
      else
        match splitLines d rest with
        | [] => [[a]]
        | line :: lines => (a :: line) :: lines

theorem splitLines_of_notMem {d : α} {line : List α} (hne : line ≠ []) (h : d ∉ line) : splitLines d line = [line] := by
  induction line with
  | nil => exact absurd rfl hne
  | cons a rest ih =>
      have ha : a ≠ d := fun ha => h (ha ▸ List.mem_cons_self)
      rw [splitLines, if_neg ha]
      cases rest with
      | nil => rfl
      | cons b rest => rw [ih (by simp) fun hmem => h (List.mem_cons_of_mem _ hmem)]

theorem splitLines_append {d : α} {body : List α} (h : d ∉ body) (rest : List α) :
    splitLines d (body ++ d :: rest) = (body ++ [d]) :: splitLines d rest := by
  induction body with
  | nil => rw [List.nil_append, splitLines, if_pos rfl, List.nil_append]
  | cons a body ih =>
      have ha : a ≠ d := fun ha => h (ha ▸ List.mem_cons_self)
      rw [List.cons_append, splitLines, if_neg ha, ih fun hmem => h (List.mem_cons_of_mem _ hmem)]
      rfl

theorem splitLines_frames {d : α} {bodies : List (List α)} (h : ∀ body ∈ bodies, d ∉ body) (rest : List α) :
    splitLines d ((bodies.map (· ++ [d])).flatten ++ rest) = bodies.map (· ++ [d]) ++ splitLines d rest := by
  induction bodies with
  | nil => rfl
  | cons body bodies ih =>
      simp only [List.map_cons, List.flatten_cons, List.append_assoc, List.cons_append, List.nil_append]
      rw [splitLines_append (h body List.mem_cons_self), ih fun b hb => h b (List.mem_cons_of_mem _ hb)]

/-- 枠の列の接頭辞を読むと、枠がいくつかと、その次の枠の切れ端が多くても 1 つ読める。 -/
theorem splitLines_of_prefix {d : α} {bodies : List (List α)} (h : ∀ body ∈ bodies, d ∉ body) {received : List α}
    (hpre : received <+: (bodies.map (· ++ [d])).flatten) :
    (∃ k, received = ((bodies.take k).map (· ++ [d])).flatten ∧
        splitLines d received = (bodies.take k).map (· ++ [d])) ∨
      ∃ k body cut, bodies[k]? = some body ∧ cut ≠ [] ∧ cut <+: body ∧
        received = ((bodies.take k).map (· ++ [d])).flatten ++ cut ∧
        splitLines d received = (bodies.take k).map (· ++ [d]) ++ [cut] := by
  induction bodies generalizing received with
  | nil =>
      obtain rfl := List.prefix_nil.mp hpre
      exact .inl ⟨0, rfl, rfl⟩
  | cons body bodies ih =>
      rw [List.map_cons, List.flatten_cons] at hpre
      rcases List.prefix_or_prefix_of_prefix hpre (List.prefix_append (body ++ [d]) _) with hshort | hlong
      · by_cases hwhole : received = body ++ [d]
        · refine .inl ⟨1, by simp [hwhole], ?_⟩
          rw [hwhole, splitLines_append (h body List.mem_cons_self)]
          rfl
        · have hcut : received <+: body := by
            rcases List.prefix_concat_iff.mp hshort with heq | hcut
            · exact absurd heq hwhole
            · exact hcut
          by_cases hnil : received = []
          · exact .inl ⟨0, by simp [hnil], by rw [hnil]; rfl⟩
          · refine .inr ⟨0, body, received, rfl, hnil, hcut, by simp, ?_⟩
            rw [splitLines_of_notMem hnil fun hmem => h body List.mem_cons_self (hcut.subset hmem)]
            rfl
      · obtain ⟨tail, rfl⟩ := hlong
        have htail : tail <+: (bodies.map (· ++ [d])).flatten := (List.prefix_append_right_inj _).mp hpre
        have hlines : splitLines d (body ++ [d] ++ tail) = (body ++ [d]) :: splitLines d tail := by
          rw [List.append_assoc]
          exact splitLines_append (h body List.mem_cons_self) tail
        rcases ih (fun b hb => h b (List.mem_cons_of_mem _ hb)) htail with
          ⟨k, hreceived, hsplit⟩ | ⟨k, next, cut, hnext, hne, hcut, hreceived, hsplit⟩
        · refine .inl ⟨k + 1, ?_, ?_⟩
          · rw [hreceived, List.take_succ_cons, List.map_cons, List.flatten_cons]
          · rw [hlines, hsplit, List.take_succ_cons, List.map_cons]
        · refine .inr ⟨k + 1, next, cut, hnext, hne, hcut, ?_, ?_⟩
          · simp only [hreceived, List.take_succ_cons, List.map_cons, List.flatten_cons, List.append_assoc]
          · rw [hlines, hsplit, List.take_succ_cons, List.map_cons, List.cons_append]

end

end IsekaiTerminal.Lib
