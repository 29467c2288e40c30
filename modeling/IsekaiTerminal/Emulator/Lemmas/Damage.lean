import IsekaiTerminal.Emulator.Lemmas.Restructure

/-!
# 差分は変化を覆う

行ごとの差分と、カーソルの行を広げた損傷が、変わった位置を覆うことを示す。
-/

namespace IsekaiTerminal.Emulator

/-! ## 行の差分 -/

/-- 条件を満たす最初と最後の列。 -/
def span (p : Nat → Bool) (n : Nat) : Option (Nat × Nat) :=
  (List.range n).foldl (fun range col => if p col then some ((range.map (·.1)).getD col, col) else range) none

theorem span_succ (p : Nat → Bool) (n : Nat) :
    span p (n + 1) = if p n then some (((span p n).map (·.1)).getD n, n) else span p n := by
  rw [span, List.range_succ, List.foldl_append]
  rfl

theorem span_eq_none {p : Nat → Bool} {n : Nat} : span p n = none ↔ ∀ col < n, p col = false := by
  induction n with
  | zero => exact ⟨fun _ _ h => absurd h (Nat.not_lt_zero _), fun _ => rfl⟩
  | succ n ih =>
      rw [span_succ]
      cases hn : p n with
      | true => simpa using ⟨n, Nat.le_refl n, hn⟩
      | false =>
          simp only [Bool.false_eq_true, ↓reduceIte, ih]
          refine ⟨fun h col hcol => ?_, fun h col hcol => h col (Nat.lt_succ_of_lt hcol)⟩
          rcases Nat.lt_succ_iff_lt_or_eq.mp hcol with hlt | rfl
          · exact h col hlt
          · exact hn

/-- `left` と `right` は条件を満たし、条件を満たす列はその間にある。 -/
theorem span_eq_some {p : Nat → Bool} {n left right : Nat} (h : span p n = some (left, right)) :
    left ≤ right ∧ right < n ∧ p left = true ∧ p right = true ∧ ∀ col < n, p col = true → left ≤ col ∧ col ≤ right := by
  induction n generalizing left right with
  | zero => exact nomatch h
  | succ n ih =>
      rw [span_succ] at h
      cases hn : p n with
      | false =>
          rw [hn, if_neg Bool.false_ne_true] at h
          obtain ⟨hle, hlt, hl, hr, hall⟩ := ih h
          refine ⟨hle, Nat.lt_succ_of_lt hlt, hl, hr, fun col hcol hp => ?_⟩
          rcases Nat.lt_succ_iff_lt_or_eq.mp hcol with hcol | rfl
          · exact hall col hcol hp
          · exact absurd (hn.symm.trans hp) Bool.false_ne_true
      | true =>
          rw [hn, if_pos rfl] at h
          injection h with h
          injection h with hleft hright
          subst hright
          cases hspan : span p n with
          | none =>
              rw [hspan] at hleft
              subst hleft
              refine ⟨Nat.le_refl _, Nat.lt_succ_self n, hn, hn, fun col hcol hp => ?_⟩
              rcases Nat.lt_succ_iff_lt_or_eq.mp hcol with hcol | rfl
              · exact absurd (hp.symm.trans (span_eq_none.mp hspan col hcol)) (Bool.false_ne_true ∘ Eq.symm)
              · exact ⟨Nat.le_refl _, Nat.le_refl _⟩
          | some range =>
              obtain ⟨l, r⟩ := range
              rw [hspan] at hleft
              obtain rfl : l = left := hleft
              obtain ⟨hle, hlt, hl, -, hall⟩ := ih hspan
              refine ⟨by omega, Nat.lt_succ_self n, hl, hn, fun col hcol hp => ?_⟩
              rcases Nat.lt_succ_iff_lt_or_eq.mp hcol with hcol | rfl
              · exact ⟨(hall col hcol hp).1, hcol.le⟩
              · exact ⟨by omega, Nat.le_refl _⟩

/-- 位置 `(row, col)` のセルが異なる。 -/
def differs (current prev : List TermCell) (cols row col : Nat) : Bool :=
  current[row * cols + col]? ≠ prev[row * cols + col]?

theorem diffRow_eq {current prev : List TermCell} {row cols : Nat} (hcurrent : (row + 1) * cols ≤ current.length)
    (hprev : (row + 1) * cols ≤ prev.length) :
    diffRow current prev (row * cols) cols = some (span (differs current prev cols row) cols) := by
  have hprefix (n : Nat) (hn : n ≤ cols) :
      (List.range n).foldlM (fun range col => do
        let a ← current[row * cols + col]?
        let b ← prev[row * cols + col]?
        return if a ≠ b then some ((range.map (·.1)).getD col, col) else range) none =
      some (span (differs current prev cols row) n) := by
    induction n with
    | zero => rfl
    | succ n ih =>
        have hbound : row * cols + n < (row + 1) * cols := by
          rw [Nat.succ_mul]
          omega
        obtain ⟨a, ha⟩ : ∃ a, current[row * cols + n]? = some a :=
          ⟨_, List.getElem?_eq_getElem (hbound.trans_le hcurrent)⟩
        obtain ⟨b, hb⟩ : ∃ b, prev[row * cols + n]? = some b :=
          ⟨_, List.getElem?_eq_getElem (hbound.trans_le hprev)⟩
        rw [List.range_succ, List.foldlM_append, ih (Nat.le_of_succ_le hn), span_succ]
        simp [differs, ha, hb]
  exact hprefix cols (Nat.le_refl _)

/-- 行 `row` の損傷。 -/
def rowDamage (current prev : List TermCell) (cols row : Nat) : Option LineDamage :=
  (span (differs current prev cols row) cols).map fun (left, right) =>
    { line := UInt16.ofNat row, left := UInt16.ofNat left, right := UInt16.ofNat right }

/-- 要素ごとに末尾へ足すだけの畳み込み。 -/
theorem foldlM_eq_append {α β : Type*} {f : List β → α → Option (List β)} (g : α → List β) {as : List α}
    (h : ∀ a ∈ as, ∀ bs, f bs a = some (bs ++ g a)) (bs : List β) :
    as.foldlM f bs = some (bs ++ as.flatMap g) := by
  induction as generalizing bs with
  | nil => simp
  | cons a as ih =>
      obtain ⟨ha, has⟩ := List.forall_mem_cons.mp h
      simp [ha, ih has]

theorem diffRows_eq {current prev : List TermCell} {cols rows : Nat} (hcurrent : current.length = cols * rows)
    (hprev : prev.length = cols * rows) :
    diffRows current prev cols rows = some ((List.range rows).filterMap (rowDamage current prev cols)) := by
  have hrow (row : Nat) (hn : row < rows) : diffRow current prev (row * cols) cols =
      some (span (differs current prev cols row) cols) := by
    have hbound : (row + 1) * cols ≤ cols * rows := by
      rw [Nat.mul_comm]
      exact Nat.mul_le_mul_left _ hn
    exact diffRow_eq (hbound.trans_eq hcurrent.symm) (hbound.trans_eq hprev.symm)
  rw [diffRows, foldlM_eq_append fun row => (rowDamage current prev cols row).toList]
  · rw [List.nil_append, List.filterMap_eq_flatMap_toList]
  · intro row hmem damages
    rw [hrow row (List.mem_range.mp hmem)]
    cases hspan : span (differs current prev cols row) cols with
    | none => simp [rowDamage, hspan]
    | some range => simp [rowDamage, hspan]

/-- 変わった位置は、どれも `u16` に収まる。 -/
def Fits (current prev : List TermCell) (cols rows : Nat) : Prop :=
  ∀ row < rows, ∀ col < cols, differs current prev cols row col = true → row < 2 ^ 16 ∧ col < 2 ^ 16

section Rows

variable {current prev : List TermCell} {cols rows : Nat}

theorem rowDamage_eq_some {row : Nat} {d : LineDamage} (hfits : Fits current prev cols rows) (hrow : row < rows)
    (h : rowDamage current prev cols row = some d) :
    d.line.toNat = row ∧ span (differs current prev cols row) cols = some (d.left.toNat, d.right.toNat) := by
  obtain ⟨⟨left, right⟩, hspan, rfl⟩ := Option.map_eq_some_iff.mp h
  obtain ⟨hle, hlt, hl, hr, -⟩ := span_eq_some hspan
  have hleft := hfits row hrow left (hle.trans_lt hlt) hl
  have hright := hfits row hrow right hlt hr
  rw [hspan]
  refine ⟨UInt16.toNat_ofNat_of_lt' hleft.1, ?_⟩
  rw [UInt16.toNat_ofNat_of_lt' hleft.2, UInt16.toNat_ofNat_of_lt' hright.2]

theorem rowDamages_damaged (hfits : Fits current prev cols rows) {row col : Nat} :
    Damaged ((List.range rows).filterMap (rowDamage current prev cols)) row col ↔
      row < rows ∧ ∃ left right, span (differs current prev cols row) cols = some (left, right) ∧ left ≤ col ∧ col ≤ right := by
  constructor
  · rintro ⟨d, hd, hline, hleft, hright⟩
    obtain ⟨r, hr, hdamage⟩ := List.mem_filterMap.mp hd
    obtain ⟨rfl, hspan⟩ := rowDamage_eq_some hfits (List.mem_range.mp hr) hdamage
    exact ⟨hline ▸ List.mem_range.mp hr, _, _, hline ▸ hspan, hleft, hright⟩
  · rintro ⟨hrow, left, right, hspan, hleft, hright⟩
    obtain ⟨d, hdamage⟩ : ∃ d, rowDamage current prev cols row = some d := ⟨_, by rw [rowDamage, hspan]; rfl⟩
    obtain ⟨hline, hspan'⟩ := rowDamage_eq_some hfits hrow hdamage
    obtain ⟨hl, hr⟩ := Prod.mk.inj (Option.some_inj.mp (hspan'.symm.trans hspan))
    exact ⟨_, List.mem_filterMap.mpr ⟨row, List.mem_range.mpr hrow, hdamage⟩, hline, hl ▸ hleft, hr ▸ hright⟩

theorem rowDamages_increasing (hfits : Fits current prev cols rows) :
    ((List.range rows).filterMap (rowDamage current prev cols)).Pairwise fun a b => a.line < b.line := by
  rw [List.pairwise_filterMap]
  refine List.Pairwise.imp_of_mem ?_ (List.pairwise_lt_range (n := rows))
  intro a b ha hb hlt d hd d' hd'
  rw [UInt16.lt_iff_toNat_lt, (rowDamage_eq_some hfits (List.mem_range.mp ha) hd).1,
    (rowDamage_eq_some hfits (List.mem_range.mp hb) hd').1]
  exact hlt

end Rows

/-! ## 損傷の列 -/

def LineDamage.Inside (d : LineDamage) (cols rows : Nat) : Prop :=
  d.left ≤ d.right ∧ d.right.toNat < cols ∧ d.line.toNat < rows

theorem rowDamages_inside {current prev : List TermCell} {cols rows : Nat} (hfits : Fits current prev cols rows) :
    ∀ d ∈ (List.range rows).filterMap (rowDamage current prev cols), d.Inside cols rows := by
  intro d hd
  obtain ⟨row, hrow, hdamage⟩ := List.mem_filterMap.mp hd
  obtain ⟨hline, hspan⟩ := rowDamage_eq_some hfits (List.mem_range.mp hrow) hdamage
  obtain ⟨hle, hlt, -⟩ := span_eq_some hspan
  exact ⟨UInt16.le_iff_toNat_le.mpr hle, hlt, hline ▸ List.mem_range.mp hrow⟩

theorem toNat_min (a b : UInt16) : (min a b).toNat = min a.toNat b.toNat := by
  have hmin : min a b = if a ≤ b then a else b := rfl
  rw [hmin, Nat.min_def]
  simp only [UInt16.le_iff_toNat_le]
  split <;> rfl

theorem toNat_max (a b : UInt16) : (max a b).toNat = max a.toNat b.toNat := by
  have hmax : max a b = if a ≤ b then b else a := rfl
  rw [hmax, Nat.max_def]
  simp only [UInt16.le_iff_toNat_le]
  split <;> rfl

/-- 広げても、覆っていた位置は覆ったままである。 -/
theorem LineDamage.Covers.widen {d : LineDamage} {row col : Nat} (h : d.Covers row col) (c : UInt16) :
    (d.widen c).Covers row col := by
  obtain ⟨hline, hleft, hright⟩ := h
  refine ⟨hline, ?_, ?_⟩
  · simp only [LineDamage.widen, toNat_min]
    omega
  · simp only [LineDamage.widen, toNat_max]
    omega

theorem LineDamage.widen_covers (d : LineDamage) (c : UInt16) (h : d.left ≤ d.right) :
    (d.widen c).Covers d.line.toNat c.toNat := by
  have := UInt16.le_iff_toNat_le.mp h
  refine ⟨rfl, ?_, ?_⟩
  · simp only [LineDamage.widen, toNat_min]
    omega
  · simp only [LineDamage.widen, toNat_max]
    omega

theorem LineDamage.Inside.widen {d : LineDamage} {cols rows : Nat} (h : d.Inside cols rows) {c : UInt16}
    (hc : c.toNat < cols) : (d.widen c).Inside cols rows := by
  obtain ⟨hle, hright, hline⟩ := h
  have := UInt16.le_iff_toNat_le.mp hle
  refine ⟨UInt16.le_iff_toNat_le.mpr ?_, ?_, hline⟩
  · simp only [LineDamage.widen, toNat_min, toNat_max]
    omega
  · simp only [LineDamage.widen, toNat_max]
    omega

section Widen

variable {damages : List LineDamage} {line c : UInt16}

theorem Damaged.widenLine {row col : Nat} (h : Damaged damages row col) : Damaged (widenLine line c damages) row col := by
  induction damages with
  | nil =>
      obtain ⟨_, hd, -⟩ := h
      exact nomatch hd
  | cons d damages ih =>
      obtain ⟨d', hd', hcovers⟩ := h
      rw [Emulator.widenLine]
      rcases List.mem_cons.mp hd' with rfl | hd'
      · split
        · exact ⟨_, List.mem_cons_self, hcovers.widen c⟩
        · exact ⟨_, List.mem_cons_self, hcovers⟩
      · split
        · exact ⟨_, List.mem_cons_of_mem _ hd', hcovers⟩
        · obtain ⟨d'', hd'', hcovers'⟩ := ih ⟨d', hd', hcovers⟩
          exact ⟨d'', List.mem_cons_of_mem _ hd'', hcovers'⟩

theorem widenLine_damaged (h : ∀ d ∈ damages, d.left ≤ d.right) :
    Damaged (widenLine line c damages) line.toNat c.toNat := by
  induction damages with
  | nil => exact ⟨_, List.mem_singleton_self _, rfl, Nat.le_refl _, Nat.le_refl _⟩
  | cons d damages ih =>
      rw [widenLine]
      split
      · rename_i hline
        exact ⟨_, List.mem_cons_self, hline ▸ d.widen_covers c (h d List.mem_cons_self)⟩
      · obtain ⟨d', hd', hcovers⟩ := ih fun d hd => h d (List.mem_cons_of_mem _ hd)
        exact ⟨d', List.mem_cons_of_mem _ hd', hcovers⟩

theorem widenLine_inside {cols rows : Nat} (h : ∀ d ∈ damages, d.Inside cols rows) (hline : line.toNat < rows)
    (hc : c.toNat < cols) : ∀ d ∈ widenLine line c damages, d.Inside cols rows := by
  induction damages with
  | nil =>
      intro d hd
      obtain rfl := List.mem_singleton.mp hd
      exact ⟨UInt16.le_refl _, hc, hline⟩
  | cons d damages ih =>
      intro d' hd'
      rw [widenLine] at hd'
      split at hd'
      · rcases List.mem_cons.mp hd' with rfl | hd'
        · exact (h d List.mem_cons_self).widen hc
        · exact h d' (List.mem_cons_of_mem _ hd')
      · rcases List.mem_cons.mp hd' with rfl | hd'
        · exact h _ List.mem_cons_self
        · exact ih (fun d hd => h d (List.mem_cons_of_mem _ hd)) d' hd'

theorem mem_map_line_widenLine {l : UInt16} (h : l ∈ (widenLine line c damages).map (·.line)) :
    l = line ∨ l ∈ damages.map (·.line) := by
  induction damages with
  | nil => exact .inl (List.mem_singleton.mp h)
  | cons d damages ih =>
      rw [widenLine] at h
      split at h
      · exact .inr h
      · rcases List.mem_cons.mp h with rfl | h
        · exact .inr List.mem_cons_self
        · exact (ih h).imp_right (List.mem_cons_of_mem _)

theorem widenLine_nodup (h : (damages.map (·.line)).Nodup) : ((widenLine line c damages).map (·.line)).Nodup := by
  induction damages with
  | nil => exact List.nodup_singleton _
  | cons d damages ih =>
      obtain ⟨hd, hrest⟩ := List.nodup_cons.mp h
      rw [widenLine]
      split
      · exact h
      · rename_i hline
        refine List.nodup_cons.mpr ⟨fun hmem => ?_, ih hrest⟩
        exact (mem_map_line_widenLine hmem).elim hline hd

end Widen

end IsekaiTerminal.Emulator
