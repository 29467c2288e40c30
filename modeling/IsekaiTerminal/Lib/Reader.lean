import Mathlib

/-!
# 届いた分ずつ読む読み手

列は、いくつかの空でない部分に分かれて届く。1 回の読み取りは、先頭の部分から求めた長さまでを返す。
読み手の計算が、列の切れ目によらずに、ある列をちょうど消費することを、計算の組み立てに沿って示す規則を定める。
-/

namespace IsekaiTerminal.Lib

/-- 読み取りの元。`pieces` が尽きた後の読み取りは、`ending` の誤りか、列の終わりを表す空の列を返す。
`allocated` は、読み取りのために確保した長さの記録である。 -/
structure Source (β ε : Type) where
  pieces : List (List β)
  nonempty : [] ∉ pieces
  ending : Option ε
  allocated : List Nat

variable {β ε α γ : Type}

namespace Source

/-- まだ読んでいない列の全体。 -/
def pending (s : Source β ε) : List β := s.pieces.flatten

theorem notMem_drop_cons {size : Nat} {piece : List β} {pieces : List (List β)} (hlen : ¬piece.length ≤ size)
    (h : [] ∉ piece :: pieces) : [] ∉ piece.drop size :: pieces := by
  simp only [List.mem_cons, not_or] at h ⊢
  refine ⟨fun hnil => hlen ?_, h.2⟩
  exact List.drop_eq_nil_iff.mp hnil.symm

/-- 1 回の読み取り。`size` が 0 でなければ、空の列は列の終わりを表す。 -/
def read (size : Nat) : Source β ε → Except ε (List β) × Source β ε
  | ⟨[], nonempty, ending, allocated⟩ => (ending.elim (.ok []) .error, ⟨[], nonempty, ending, allocated⟩)
  | ⟨piece :: pieces, nonempty, ending, allocated⟩ =>
      if hlen : piece.length ≤ size then
        (.ok piece, ⟨pieces, fun hmem => nonempty (List.mem_cons_of_mem _ hmem), ending, allocated⟩)
      else
        (.ok (piece.take size), ⟨piece.drop size :: pieces, notMem_drop_cons hlen nonempty, ending, allocated⟩)

theorem read_of_pending {s : Source β ε} {size : Nat} (hsize : 0 < size) (h : s.pending ≠ []) :
    ∃ chunk s', s.read size = (.ok chunk, s') ∧ chunk ≠ [] ∧ chunk.length ≤ size ∧
      s.pending = chunk ++ s'.pending ∧ s'.ending = s.ending ∧ s'.allocated = s.allocated := by
  obtain ⟨pieces, nonempty, ending, allocated⟩ := s
  cases pieces with
  | nil => exact absurd rfl h
  | cons piece pieces =>
      have hpiece : piece ≠ [] := fun hnil => nonempty (hnil ▸ List.mem_cons_self)
      by_cases hlen : piece.length ≤ size
      · have hread : read size (⟨piece :: pieces, nonempty, ending, allocated⟩ : Source β ε) =
            (.ok piece, ⟨pieces, fun hmem => nonempty (List.mem_cons_of_mem _ hmem), ending, allocated⟩) := dif_pos hlen
        exact ⟨piece, _, hread, hpiece, hlen, rfl, rfl, rfl⟩
      · have hread : read size (⟨piece :: pieces, nonempty, ending, allocated⟩ : Source β ε) =
            (.ok (piece.take size), ⟨piece.drop size :: pieces, notMem_drop_cons hlen nonempty, ending, allocated⟩) :=
          dif_neg hlen
        refine ⟨piece.take size, _, hread, ?_, List.length_take_le _ _, ?_, rfl, rfl⟩
        · rw [Ne, List.take_eq_nil_iff]
          exact fun hnil => hnil.elim (by omega) hpiece
        · simp only [pending, List.flatten_cons, ← List.append_assoc, List.take_append_drop]

theorem read_of_nil {s : Source β ε} (h : s.pending = []) (size : Nat) :
    s.read size = (s.ending.elim (.ok []) .error, s) := by
  obtain ⟨pieces, nonempty, ending, allocated⟩ := s
  cases pieces with
  | nil => rfl
  | cons piece pieces =>
      have hnil : piece = [] := (List.append_eq_nil_iff.mp h).1
      exact absurd (hnil ▸ List.mem_cons_self) nonempty

end Source

/-! ## 読み手の計算 -/

/-- 読み取りの元を進めながら、値か誤りを返す計算。 -/
def ReadM (β ε α : Type) := Source β ε → Except ε α × Source β ε

namespace ReadM

instance : Monad (ReadM β ε) where
  pure a := fun s => (.ok a, s)
  bind m f := fun s =>
    match m s with
    | (.ok a, s') => f a s'
    | (.error e, s') => (.error e, s')

def lift (x : Except ε α) : ReadM β ε α := fun s => (x, s)

/-- 1 回の読み取り。 -/
def read (size : Nat) : ReadM β ε (List β) := Source.read size

/-- 長さ `size` の領域を確保する。 -/
def alloc (size : Nat) : ReadM β ε Unit := fun s => (.ok (), { s with allocated := s.allocated ++ [size] })

/-- `filled` が `size` に届くまで読む。列が途中で終わると、`eof size filled` の誤りである。 -/
def fillLoop (eof : Nat → Nat → ε) (size : Nat) : Nat → List β → ReadM β ε (List β)
  | 0, filled => pure filled
  | fuel + 1, filled =>
      if filled.length < size then do
        let chunk ← read (size - filled.length)
        if chunk.length = 0 then lift (.error (eof size filled.length))
        else fillLoop eof size fuel (filled ++ chunk)
      else pure filled

/-- ちょうど `size` を読む。どの読み取りも 1 以上を返すか終わりなので、`size` 回で足りる。 -/
def readExact (eof : Nat → Nat → ε) (size : Nat) : ReadM β ε (List β) := fillLoop eof size size []

theorem bind_apply (m : ReadM β ε α) (f : α → ReadM β ε γ) (s : Source β ε) :
    (m >>= f) s = match m s with
      | (.ok a, s') => f a s'
      | (.error e, s') => (.error e, s') := rfl

theorem pure_apply (a : α) (s : Source β ε) : (pure a : ReadM β ε α) s = (.ok a, s) := rfl

theorem bind_of_ok {m : ReadM β ε α} {s s' : Source β ε} {a : α} (h : m s = (.ok a, s')) (f : α → ReadM β ε γ) :
    (m >>= f) s = f a s' := by
  rw [bind_apply, h]

theorem bind_of_error {m : ReadM β ε α} {s s' : Source β ε} {e : ε} (h : m s = (.error e, s'))
    (f : α → ReadM β ε γ) : (m >>= f) s = (.error e, s') := by
  rw [bind_apply, h]

theorem bind_eq_ok_iff {m : ReadM β ε α} {f : α → ReadM β ε γ} {s s' : Source β ε} {c : γ} :
    (m >>= f) s = (.ok c, s') ↔ ∃ a mid, m s = (.ok a, mid) ∧ f a mid = (.ok c, s') := by
  rw [bind_apply]
  rcases m s with ⟨_ | a, mid⟩
  · simp
  · simp

theorem lift_eq_ok_iff {x : Except ε α} {s s' : Source β ε} {a : α} :
    (lift x : ReadM β ε α) s = (.ok a, s') ↔ x = .ok a ∧ s = s' := by
  simp [lift]

theorem pure_eq_ok_iff {s s' : Source β ε} {a b : α} :
    (pure a : ReadM β ε α) s = (.ok b, s') ↔ a = b ∧ s = s' := by
  simp [pure_apply]

theorem pending_of_alloc {size : Nat} {s s' : Source β ε} {u : Unit} (h : alloc size s = (.ok u, s')) :
    s'.pending = s.pending := by
  rw [alloc, Prod.mk.injEq] at h
  exact h.2 ▸ rfl

/-! ## ちょうど読む計算 -/

theorem fillLoop_of_le {eof : Nat → Nat → ε} {size fuel : Nat} (filled : List β) {s : Source β ε}
    (hfuel : size ≤ filled.length + fuel) (hle : filled.length ≤ size)
    (h : size - filled.length ≤ s.pending.length) :
    ∃ s', fillLoop eof size fuel filled s = (.ok (filled ++ s.pending.take (size - filled.length)), s') ∧
      s'.pending = s.pending.drop (size - filled.length) ∧ s'.ending = s.ending ∧ s'.allocated = s.allocated := by
  induction fuel generalizing filled s with
  | zero =>
      have hzero : size - filled.length = 0 := by omega
      exact ⟨s, by simp [fillLoop, hzero, pure_apply], by simp [hzero], rfl, rfl⟩
  | succ fuel ih =>
      by_cases hlt : filled.length < size
      · have hpending : s.pending ≠ [] := fun hnil => by simp only [hnil, List.length_nil] at h; omega
        obtain ⟨chunk, mid, hread, hne, hchunk, hsplit, hending, halloc⟩ :=
          Source.read_of_pending (Nat.sub_pos_of_lt hlt) hpending
        have hpos : chunk.length ≠ 0 := fun hzero => hne (List.eq_nil_of_length_eq_zero hzero)
        have hlen : s.pending.length = chunk.length + mid.pending.length := by rw [hsplit, List.length_append]
        obtain ⟨s', hrun, hrest, hending', halloc'⟩ :=
          ih (filled ++ chunk) (s := mid) (by rw [List.length_append]; omega)
            (by rw [List.length_append]; omega) (by rw [List.length_append]; omega)
        have hsub : size - filled.length = chunk.length + (size - (filled ++ chunk).length) := by
          rw [List.length_append]
          omega
        refine ⟨s', ?_, ?_, hending'.trans hending, halloc'.trans halloc⟩
        · rw [fillLoop, if_pos hlt, bind_of_ok (m := ReadM.read _) hread, if_neg hpos, hrun, hsub, hsplit,
            List.take_length_add_append, List.append_assoc]
        · rw [hrest, hsub, hsplit, List.drop_length_add_append]
      · have hzero : size - filled.length = 0 := by omega
        exact ⟨s, by simp [fillLoop, hlt, hzero, pure_apply], by simp [hzero], rfl, rfl⟩

theorem fillLoop_of_lt {eof : Nat → Nat → ε} {size fuel : Nat} (filled : List β) {s : Source β ε}
    (hfuel : size ≤ filled.length + fuel) (h : filled.length + s.pending.length < size) :
    ∃ s', fillLoop eof size fuel filled s =
        (.error (s.ending.getD (eof size (filled.length + s.pending.length))), s') ∧
      s'.allocated = s.allocated := by
  induction fuel generalizing filled s with
  | zero => omega
  | succ fuel ih =>
      have hlt : filled.length < size := by omega
      by_cases hnil : s.pending = []
      · have hread := Source.read_of_nil hnil (size - filled.length)
        cases hending : s.ending with
        | none =>
            rw [hending] at hread
            refine ⟨s, ?_, rfl⟩
            rw [fillLoop, if_pos hlt, bind_of_ok (m := ReadM.read _) hread, if_pos List.length_nil, hnil]
            rfl
        | some e =>
            rw [hending] at hread
            refine ⟨s, ?_, rfl⟩
            rw [fillLoop, if_pos hlt, bind_of_error (m := ReadM.read _) hread]
            rfl
      · obtain ⟨chunk, mid, hread, hne, hchunk, hsplit, hending, halloc⟩ :=
          Source.read_of_pending (Nat.sub_pos_of_lt hlt) hnil
        have hpos : chunk.length ≠ 0 := fun hzero => hne (List.eq_nil_of_length_eq_zero hzero)
        have hlen : s.pending.length = chunk.length + mid.pending.length := by rw [hsplit, List.length_append]
        obtain ⟨s', hrun, halloc'⟩ :=
          ih (filled ++ chunk) (s := mid) (by rw [List.length_append]; omega)
            (by rw [List.length_append]; omega)
        refine ⟨s', ?_, halloc'.trans halloc⟩
        rw [fillLoop, if_pos hlt, bind_of_ok (m := ReadM.read _) hread, if_neg hpos, hrun, hending, hlen,
          List.length_append, Nat.add_assoc]

/-- 途中で終わっても、足りない長さより多くは読まない。 -/
theorem pending_of_fillLoop (eof : Nat → Nat → ε) (size fuel : Nat) (filled : List β) (s : Source β ε) :
    ∃ bytes, s.pending = bytes ++ (fillLoop eof size fuel filled s).2.pending ∧ bytes.length ≤ size - filled.length := by
  induction fuel generalizing filled s with
  | zero => exact ⟨[], rfl, Nat.zero_le _⟩
  | succ fuel ih =>
      by_cases hlt : filled.length < size
      · by_cases hnil : s.pending = []
        · have hread := Source.read_of_nil hnil (size - filled.length)
          refine ⟨[], ?_, Nat.zero_le _⟩
          cases hending : s.ending with
          | none =>
              rw [hending] at hread
              rw [fillLoop, if_pos hlt, bind_of_ok (m := ReadM.read _) hread, if_pos List.length_nil]
              rfl
          | some e =>
              rw [hending] at hread
              rw [fillLoop, if_pos hlt, bind_of_error (m := ReadM.read _) hread]
              rfl
        · obtain ⟨chunk, mid, hread, hne, hchunk, hsplit, -⟩ := Source.read_of_pending (Nat.sub_pos_of_lt hlt) hnil
          have hpos : chunk.length ≠ 0 := fun hzero => hne (List.eq_nil_of_length_eq_zero hzero)
          obtain ⟨bytes, hpending, hlength⟩ := ih (filled ++ chunk) mid
          rw [List.length_append] at hlength
          refine ⟨chunk ++ bytes, ?_, by rw [List.length_append]; omega⟩
          rw [fillLoop, if_pos hlt, bind_of_ok (m := ReadM.read _) hread, if_neg hpos, List.append_assoc, ← hpending, hsplit]
      · exact ⟨[], by rw [fillLoop, if_neg hlt]; rfl, Nat.zero_le _⟩

theorem readExact_of_le (eof : Nat → Nat → ε) {size : Nat} {s : Source β ε} (h : size ≤ s.pending.length) :
    ∃ s', readExact eof size s = (.ok (s.pending.take size), s') ∧ s'.pending = s.pending.drop size ∧
      s'.ending = s.ending ∧ s'.allocated = s.allocated :=
  fillLoop_of_le [] (Nat.le_add_left _ _) (Nat.zero_le _) h

theorem readExact_of_lt (eof : Nat → Nat → ε) {size : Nat} {s : Source β ε} (h : s.pending.length < size) :
    ∃ s', readExact eof size s = (.error (s.ending.getD (eof size s.pending.length)), s') ∧
      s'.allocated = s.allocated := by
  obtain ⟨s', hrun, halloc⟩ : ∃ s', fillLoop eof size size [] s =
      (.error (s.ending.getD (eof size (0 + s.pending.length))), s') ∧ s'.allocated = s.allocated :=
    fillLoop_of_lt [] (Nat.le_add_left _ _) (by simpa using h)
  exact ⟨s', by rw [readExact, hrun, Nat.zero_add], halloc⟩

theorem pending_of_readExact {eof : Nat → Nat → ε} {size : Nat} {s s' : Source β ε} {bytes : List β}
    (h : readExact eof size s = (.ok bytes, s')) :
    bytes.length = size ∧ s.pending = bytes ++ s'.pending ∧ s'.ending = s.ending ∧ s'.allocated = s.allocated := by
  rcases Nat.lt_or_ge s.pending.length size with hlt | hle
  · obtain ⟨mid, hrun, -⟩ := readExact_of_lt eof hlt
    rw [hrun] at h
    simp at h
  · obtain ⟨mid, hrun, hpending, hending, halloc⟩ := readExact_of_le eof hle
    rw [hrun, Prod.mk.injEq, Except.ok.injEq] at h
    obtain ⟨rfl, rfl⟩ := h
    exact ⟨List.length_take_of_le hle, by rw [hpending, List.take_append_drop], hending, halloc⟩

/-! ## ちょうど消費する計算 -/

/-- `bytes` で始まるどの列からも、切れ目によらず、`bytes` だけを消費して `a` を返す。 -/
def Yields (m : ReadM β ε α) (bytes : List β) (a : α) : Prop :=
  ∀ s rest, s.pending = bytes ++ rest → ∃ s', m s = (.ok a, s') ∧ s'.pending = rest ∧ s'.ending = s.ending

theorem Yields.pure (a : α) : Yields (pure a : ReadM β ε α) [] a := fun s _ h => ⟨s, rfl, h, rfl⟩

theorem Yields.bind {m : ReadM β ε α} {f : α → ReadM β ε γ} {first second : List β} {a : α} {c : γ}
    (hm : Yields m first a) (hf : Yields (f a) second c) : Yields (m >>= f) (first ++ second) c := by
  intro s rest h
  obtain ⟨mid, hrun, hpending, hending⟩ := hm s (second ++ rest) (h.trans (List.append_assoc _ _ _))
  obtain ⟨s', hrun', hpending', hending'⟩ := hf mid rest hpending
  exact ⟨s', (bind_of_ok hrun f).trans hrun', hpending', hending'.trans hending⟩

/-- 何も消費しない計算の後に続ける。 -/
theorem Yields.bind_nil {m : ReadM β ε α} {f : α → ReadM β ε γ} {bytes : List β} {a : α} {c : γ}
    (hm : Yields m [] a) (hf : Yields (f a) bytes c) : Yields (m >>= f) bytes c := hm.bind hf

theorem Yields.lift {x : Except ε α} {a : α} (h : x = .ok a) : Yields (lift x : ReadM β ε α) [] a := by
  subst h
  exact Yields.pure a

theorem Yields.alloc (size : Nat) : Yields (alloc size : ReadM β ε Unit) [] () :=
  fun s _ h => ⟨{ s with allocated := s.allocated ++ [size] }, rfl, h, rfl⟩

theorem Yields.readExact (eof : Nat → Nat → ε) {size : Nat} {bytes : List β} (h : bytes.length = size) :
    Yields (readExact eof size) bytes bytes := by
  intro s rest hpending
  subst h
  have hle : bytes.length ≤ s.pending.length := by rw [hpending, List.length_append]; omega
  obtain ⟨s', hrun, hrest, hending, -⟩ := readExact_of_le eof hle
  refine ⟨s', ?_, ?_, hending⟩
  · rw [hrun, hpending, List.take_left]
  · rw [hrest, hpending, List.drop_left]

/-! ## 確保する長さ -/

/-- どの列に対しても、`n` より長い領域を確保しない。 -/
def AllocatesAtMost (n : Nat) (m : ReadM β ε α) : Prop :=
  ∀ s, (∀ k ∈ s.allocated, k ≤ n) → ∀ k ∈ (m s).2.allocated, k ≤ n

theorem AllocatesAtMost.pure (n : Nat) (a : α) : AllocatesAtMost n (pure a : ReadM β ε α) := fun _ h => h

theorem AllocatesAtMost.bind {n : Nat} {m : ReadM β ε α} {f : α → ReadM β ε γ} (hm : AllocatesAtMost n m)
    (hf : ∀ a, AllocatesAtMost n (f a)) : AllocatesAtMost n (m >>= f) := by
  intro s hs
  have hmid := hm s hs
  rcases hrun : m s with ⟨e | a, mid⟩
  · rw [bind_of_error hrun]
    rwa [hrun] at hmid
  · rw [bind_of_ok hrun]
    rw [hrun] at hmid
    exact hf a mid hmid

/-- 検査が成功したときだけ、続きを調べればよい。 -/
theorem AllocatesAtMost.lift_bind {n : Nat} {x : Except ε α} {f : α → ReadM β ε γ}
    (hf : ∀ a, x = .ok a → AllocatesAtMost n (f a)) : AllocatesAtMost n (lift x >>= f) := by
  intro s hs
  cases x with
  | error e => exact hs
  | ok a => exact hf a rfl s hs

theorem AllocatesAtMost.alloc {n size : Nat} (h : size ≤ n) : AllocatesAtMost n (alloc size : ReadM β ε Unit) := by
  intro s hs k hk
  rcases List.mem_append.mp hk with hk | hk
  · exact hs k hk
  · rw [List.mem_singleton.mp hk]
    exact h

theorem AllocatesAtMost.readExact (n : Nat) (eof : Nat → Nat → ε) (size : Nat) :
    AllocatesAtMost n (readExact eof size : ReadM β ε (List β)) := by
  intro s hs
  have halloc : (ReadM.readExact eof size s).2.allocated = s.allocated := by
    rcases Nat.lt_or_ge s.pending.length size with hlt | hle
    · obtain ⟨s', hrun, halloc⟩ := readExact_of_lt eof hlt
      rw [hrun, halloc]
    · obtain ⟨s', hrun, -, -, halloc⟩ := readExact_of_le eof hle
      rw [hrun, halloc]
  rwa [halloc]

end ReadM

end IsekaiTerminal.Lib
