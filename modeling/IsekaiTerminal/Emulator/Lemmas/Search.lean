import IsekaiTerminal.Emulator.Search
import IsekaiTerminal.Lib.Occurrence

/-!
# 履歴の検索の補題

行の展開は、文字ごとの塊をつないだ列である。文字は隙間なく並ぶので、両端の列の差が表示幅の合計になる。
-/

namespace IsekaiTerminal.Emulator

open Lib

section

variable {env : Env} {row : Row}

/-! ## 文字の並び -/

/-- `c` 列目から始まる残りの行の文字。 -/
def glyphsFrom (env : Env) (row : Row) (c : Nat) (cells : Row) : List Glyph :=
  (cells.zipIdx c).filterMap fun (cell, c) =>
    if cell.isWidePlaceholder then none else some ⟨c, displayWidthAt env row c cell, cell.ch⟩

@[simp] theorem glyphsFrom_nil (c : Nat) : glyphsFrom env row c [] = [] := rfl

theorem glyphsFrom_cons (c : Nat) (cell : TermCell) (rest : Row) :
    glyphsFrom env row c (cell :: rest) =
      if cell.isWidePlaceholder then glyphsFrom env row (c + 1) rest
      else ⟨c, displayWidthAt env row c cell, cell.ch⟩ :: glyphsFrom env row (c + 1) rest := by
  by_cases hp : cell.isWidePlaceholder = true
  · simp only [glyphsFrom, List.zipIdx_cons, List.filterMap_cons, hp, ↓reduceIte]
  · simp only [glyphsFrom, List.zipIdx_cons, List.filterMap_cons, hp, Bool.false_eq_true, ↓reduceIte]

theorem getElem?_length_append {before rest : Row} (hrow : row = before ++ rest) : row[before.length]? = rest.head? := by
  rw [hrow, List.getElem?_append_right (Nat.le_refl _), Nat.sub_self, List.head?_eq_getElem?]

theorem getElem?_length_succ_append {before rest : Row} {cell : TermCell} (hrow : row = before ++ cell :: rest) :
    row[before.length + 1]? = rest.head? := by
  rw [hrow, List.getElem?_append_right (Nat.le_succ _), show before.length + 1 - before.length = 0 + 1 by omega,
    List.getElem?_cons_succ, List.head?_eq_getElem?]

/-- 右が占有のセルであるのは、行の終わりでない幅 2 の本体であるときに限る。 -/
theorem width_eq_displayWidthAt (hpair : PairedRow env row) {before rest : Row} {cell : TermCell}
    (hrow : row = before ++ cell :: rest) :
    (if rest.head?.any (·.isWidePlaceholder) then 2 else 1) = displayWidthAt env row before.length cell := by
  have hcell : row[before.length]? = some cell := getElem?_length_append hrow
  have hright := getElem?_length_succ_append hrow
  rw [displayWidthAt]
  by_cases hp : rest.head?.any (·.isWidePlaceholder) = true
  · obtain ⟨right, hhead, hwide⟩ := (Option.any_eq_true _ _).1 hp
    rw [hhead] at hright
    obtain ⟨-, left, hleft, hlw⟩ := (hpair.placeholder _ _ hright).1 hwide
    rw [Nat.add_sub_cancel, hcell] at hleft
    cases hleft
    rw [if_pos hp, if_pos ⟨hlw, (List.getElem?_eq_some_iff.1 hright).1⟩]
  · rw [if_neg hp, if_neg]
    rintro ⟨hlw, hlt⟩
    obtain ⟨right, hat, hwide⟩ := hpair.head _ _ hcell hlw hlt
    rw [hright] at hat
    rw [hat] at hp
    exact hp hwide

/-- 隣り合う文字の間に、隙間も重なりもない。 -/
def Contiguous (gs : List Glyph) : Prop := gs.IsChain fun g g' => g'.col = g.col + g.width

theorem contiguous_glyphsFrom (hpair : PairedRow env row) (before cells : Row) (hrow : row = before ++ cells) :
    Contiguous (glyphsFrom env row before.length cells) ∧
      ∀ g ∈ (glyphsFrom env row before.length cells).head?,
        g.col = before.length + if cells.head?.any (·.isWidePlaceholder) then 1 else 0 := by
  induction cells generalizing before with
  | nil => exact ⟨.nil, fun g hg => by cases hg⟩
  | cons cell rest ih =>
      have hnext := ih (before ++ [cell]) (by rw [hrow, List.append_assoc, List.singleton_append])
      rw [List.length_append, List.length_singleton] at hnext
      obtain ⟨hchain, hhead⟩ := hnext
      rw [glyphsFrom_cons]
      by_cases hp : cell.isWidePlaceholder = true
      · have hrest : rest.head?.any (·.isWidePlaceholder) = false := by
          rw [Bool.eq_false_iff]
          intro hany
          obtain ⟨right, hr, hwide⟩ := (Option.any_eq_true _ _).1 hany
          have hright := getElem?_length_succ_append hrow
          rw [hr] at hright
          obtain ⟨-, left, hleft, hlw⟩ := (hpair.placeholder _ _ hright).1 hwide
          rw [Nat.add_sub_cancel, getElem?_length_append hrow] at hleft
          cases hleft
          simp only [isWideHead, hp, Bool.not_true, Bool.false_and, Bool.false_eq_true] at hlw
        rw [if_pos hp]
        refine ⟨hchain, fun g hg => ?_⟩
        rw [hhead g hg, hrest, List.head?_cons, Option.any_some, hp]
        rfl
      · rw [if_neg hp]
        refine ⟨List.isChain_cons.2 ⟨fun g hg => ?_, hchain⟩, fun g hg => ?_⟩
        · change g.col = before.length + displayWidthAt env row before.length cell
          rw [hhead g hg, ← width_eq_displayWidthAt hpair hrow]
          split <;> omega
        · cases hg
          rw [List.head?_cons, Option.any_some, if_neg hp]
          rfl

theorem contiguous_glyphs (hpair : PairedRow env row) : Contiguous (glyphs env row) :=
  (contiguous_glyphsFrom hpair [] row rfl).1

/-- 隙間なく並ぶ文字の右端は、先頭の列に表示幅の合計を足した列である。 -/
theorem end_eq_of_contiguous (g : Glyph) (gs : List Glyph) (h : Contiguous (g :: gs)) :
    ((g :: gs).getLast (List.cons_ne_nil _ _)).col + ((g :: gs).getLast (List.cons_ne_nil _ _)).width =
      g.col + ((g :: gs).map (·.width)).sum := by
  induction gs generalizing g with
  | nil => rfl
  | cons next gs ih =>
      obtain ⟨hnext, hrest⟩ := List.isChain_cons_cons.1 h
      rw [List.getLast_cons (List.cons_ne_nil _ _), ih next hrest, hnext, List.map_cons (l := next :: gs), List.sum_cons]
      omega

theorem pairwise_col_of_contiguous {gs : List Glyph} (h : Contiguous gs) (hwidth : ∀ g ∈ gs, 0 < g.width) :
    gs.Pairwise fun g g' => g.col < g'.col := by
  induction gs with
  | nil => exact .nil
  | cons g gs ih =>
      have hrest := ih (List.isChain_cons.1 h).2 fun x hx => hwidth x (List.mem_cons_of_mem _ hx)
      refine List.pairwise_cons.2 ⟨fun x hx => ?_, hrest⟩
      obtain _ | ⟨next, gs⟩ := gs
      · cases hx
      · have hnext := (List.isChain_cons_cons.1 h).1
        have hpos := hwidth g List.mem_cons_self
        obtain rfl | hx := List.mem_cons.1 hx
        · omega
        · have hlt := (List.pairwise_cons.1 hrest).1 x hx
          omega

/-! ## 行の展開 -/

/-- 通し番号 `k` の文字を展開した塊。 -/
def block (caseSensitive : Bool) : Glyph × Nat → List HayChar
  | (g, k) => g.text.map fun ch => ⟨foldCase caseSensitive ch, g.col, g.width, k⟩

theorem expandFrom_eq (hpair : PairedRow env row) (caseSensitive : Bool) (before cells : Row)
    (hrow : row = before ++ cells) (k : Nat) :
    expandFrom caseSensitive before.length k cells =
      (((glyphsFrom env row before.length cells).zipIdx k).map (block caseSensitive)).flatten := by
  induction cells generalizing before k with
  | nil => rfl
  | cons cell rest ih =>
      have hnext := ih (before ++ [cell]) (by rw [hrow, List.append_assoc, List.singleton_append])
      rw [List.length_append, List.length_singleton] at hnext
      rw [expandFrom, glyphsFrom_cons]
      split
      · exact hnext k
      · rw [hnext, List.zipIdx_cons, List.map_cons, List.flatten_cons, block]
        simp only [width_eq_displayWidthAt hpair hrow]

theorem expand_eq (hpair : PairedRow env row) (caseSensitive : Bool) :
    expandFrom caseSensitive 0 0 row = ((glyphs env row).zipIdx.map (block caseSensitive)).flatten :=
  expandFrom_eq hpair caseSensitive [] row rfl 0

theorem numbered_blocks (caseSensitive : Bool) (gs : List Glyph) (htext : ∀ g ∈ gs, g.text ≠ []) (k : Nat) :
    Numbered HayChar.cellSeq k ((gs.zipIdx k).map (block caseSensitive)) := by
  induction gs generalizing k with
  | nil => exact trivial
  | cons g gs ih =>
      rw [List.zipIdx_cons, List.map_cons]
      refine ⟨?_, ?_, ih (fun x hx => htext x (List.mem_cons_of_mem _ hx)) (k + 1)⟩
      · rw [block, ne_eq, List.map_eq_nil_iff]
        exact htext g List.mem_cons_self
      · intro e he
        obtain ⟨ch, -, rfl⟩ := List.mem_map.1 he
        rfl

theorem map_ch_flatten_blocks (caseSensitive : Bool) (r : List (Glyph × Nat)) :
    ((r.map (block caseSensitive)).flatten).map (·.ch) = (textOf (r.map Prod.fst)).map (foldCase caseSensitive) := by
  induction r with
  | nil => rfl
  | cons p r ih =>
      obtain ⟨g, k⟩ := p
      simp only [List.map_cons, List.flatten_cons, List.map_append, ih, textOf, List.flatMap_cons, block, List.map_map]
      rfl

theorem text_ne_nil_of_mem_glyphs (htext : HasText row) {g : Glyph} (hg : g ∈ glyphs env row) : g.text ≠ [] := by
  obtain ⟨⟨cell, c⟩, hcell, hsome⟩ := List.mem_filterMap.1 hg
  have hmem : cell ∈ row := List.fst_mem_of_mem_zipIdx hcell
  by_cases hp : cell.isWidePlaceholder = true
  · simp only [hp, ↓reduceIte, reduceCtorEq] at hsome
  · simp only [hp, Bool.false_eq_true, ↓reduceIte, Option.some.injEq] at hsome
    rw [← hsome]
    exact htext cell hmem (Bool.eq_false_iff.2 hp)

theorem width_pos_of_mem_glyphs {g : Glyph} (hg : g ∈ glyphs env row) : 0 < g.width := by
  obtain ⟨⟨cell, c⟩, -, hsome⟩ := List.mem_filterMap.1 hg
  by_cases hp : cell.isWidePlaceholder = true
  · simp only [hp, ↓reduceIte, reduceCtorEq] at hsome
  · simp only [hp, Bool.false_eq_true, ↓reduceIte, Option.some.injEq] at hsome
    rw [← hsome, displayWidthAt]
    split <;> exact Nat.succ_pos _

/-! ## 一致の桁 -/

/-- 展開した文字の並びから、一致を作る。 -/
def matchOfSlice (rowIdx : Nat) (slice : List HayChar) : Option ScrollbackSearchMatch := do
  let first ← slice.head?
  let last ← slice.getLast?
  some { row := rowIdx, col := first.col, len := last.col + last.width - first.col }

theorem matchAt_eq {needle : List Char} (hneedle : needle ≠ []) {haystack : List HayChar} (rowIdx : Nat) {start : Nat}
    (hfit : start + needle.length ≤ haystack.length) :
    matchAt needle haystack rowIdx start =
      (occurrenceAt HayChar.cellSeq HayChar.ch needle haystack start).bind (matchOfSlice rowIdx) := by
  have hpos : 0 < needle.length := List.length_pos_iff.2 hneedle
  have hhead : ((haystack.drop start).take needle.length).head? = haystack[start]? := by
    rw [List.head?_take, if_neg (by omega), List.head?_drop]
  have hlast : ((haystack.drop start).take needle.length).getLast? = haystack[start + needle.length - 1]? := by
    rw [List.getLast?_eq_getElem?, List.length_take, List.length_drop, min_eq_left (by omega),
      List.getElem?_take_of_lt (by omega), List.getElem?_drop]
    congr 1
    omega
  simp only [matchAt, occurrenceAt, show start + needle.length - 1 + 1 = start + needle.length by omega]
  split_ifs <;> simp_all [matchOfSlice]

/-- 文字の並びを展開した列の一致は、先頭の列と表示幅の合計である。 -/
theorem matchOfSlice_flatten_blocks (caseSensitive : Bool) (rowIdx : Nat) {r : List (Glyph × Nat)} (hne : r ≠ [])
    (htext : ∀ g ∈ r.map Prod.fst, g.text ≠ []) (hcont : Contiguous (r.map Prod.fst)) :
    matchOfSlice rowIdx (r.map (block caseSensitive)).flatten = some (matchOf rowIdx (r.map Prod.fst)) := by
  have hfirst : ∃ e, ((r.map (block caseSensitive)).flatten).head? = some e ∧
      ∀ g ∈ (r.map Prod.fst).head?, e.col = g.col := by
    obtain _ | ⟨⟨g, k⟩, r⟩ := r
    · exact absurd rfl hne
    · obtain ⟨ch, chs, hg⟩ := List.exists_cons_of_ne_nil (htext g List.mem_cons_self)
      refine ⟨⟨foldCase caseSensitive ch, g.col, g.width, k⟩, ?_, ?_⟩
      · simp only [List.map_cons, List.flatten_cons, block, hg, List.cons_append, List.head?_cons]
      · rintro x ⟨⟩
        rfl
  have hlast : ∃ e, ((r.map (block caseSensitive)).flatten).getLast? = some e ∧
      ∀ g ∈ (r.map Prod.fst).getLast?, e.col + e.width = g.col + g.width := by
    obtain rfl | ⟨init, ⟨g, k⟩, rfl⟩ := List.eq_nil_or_concat r
    · exact absurd rfl hne
    · rw [List.concat_eq_append] at htext ⊢
      have hg : g.text ≠ [] := htext g (by simp)
      obtain ⟨chs, ch, hchs⟩ := (List.eq_nil_or_concat g.text).resolve_left hg
      refine ⟨⟨foldCase caseSensitive ch, g.col, g.width, k⟩, ?_, ?_⟩
      · simp [block, hchs]
      · intro x hx
        simp only [List.map_append, List.map_cons, List.map_nil, List.getLast?_append, List.getLast?_singleton,
          Option.some_or, Option.mem_some_iff] at hx
        rw [hx]
  obtain ⟨first, hfirst, hcol⟩ := hfirst
  obtain ⟨last, hlast, hend⟩ := hlast
  obtain ⟨g, gs, hgs⟩ := List.exists_cons_of_ne_nil (show r.map Prod.fst ≠ [] by rwa [ne_eq, List.map_eq_nil_iff])
  rw [hgs] at hcol hend hcont ⊢
  have hsum := end_eq_of_contiguous g gs hcont
  have hfirstCol : first.col = g.col := hcol g rfl
  have hlastEnd := hend _ (List.getLast?_eq_getLast_of_ne_nil (List.cons_ne_nil g gs))
  simp only [matchOfSlice, hfirst, hlast, Option.bind_eq_bind, Option.bind_some, matchOf, List.head?_cons,
    Option.map_some, Option.getD_some]
  congr 2
  omega

/-! ## 1 行の検索 -/

/-- 1 行の検索の結果は、つないだ文字列が語に等しい並びの一致である。 -/
theorem searchRow_eq (hpair : PairedRow env row) (htext : HasText row) (caseSensitive : Bool) {needle : List Char}
    (hneedle : needle ≠ []) (rowIdx : Nat) :
    searchRow caseSensitive needle row rowIdx =
      ((runs (glyphs env row)).filter fun r => (textOf r).map (foldCase caseSensitive) = needle).map
        (matchOf rowIdx) := by
  have hpos : 0 < needle.length := List.length_pos_iff.2 hneedle
  have htexts : ∀ g ∈ glyphs env row, g.text ≠ [] := fun g hg => text_ne_nil_of_mem_glyphs htext hg
  have hnum := numbered_blocks caseSensitive (glyphs env row) htexts 0
  have hscan := @filterMap_occurrenceAt Char HayChar _ HayChar.cellSeq HayChar.ch needle hneedle 0 _ hnum
  have hfst : (glyphs env row).zipIdx.map Prod.fst = glyphs env row := List.zipIdx_map_fst 0 _
  have hruns : runs (glyphs env row) = (runs (glyphs env row).zipIdx).map (List.map Prod.fst) := by
    rw [← runs_map, hfst]
  have hrange : searchRow caseSensitive needle row rowIdx =
      ((List.range ((expandFrom caseSensitive 0 0 row).length + 1 - needle.length)).filterMap
        (occurrenceAt HayChar.cellSeq HayChar.ch needle (expandFrom caseSensitive 0 0 row))).filterMap
          (matchOfSlice rowIdx) := by
    rw [searchRow, List.filterMap_filterMap]
    split
    · rename_i hshort
      rw [show (expandFrom caseSensitive 0 0 row).length + 1 - needle.length = 0 by omega]
      rfl
    · rename_i hfit
      rw [show (expandFrom caseSensitive 0 0 row).length - needle.length + 1 =
        (expandFrom caseSensitive 0 0 row).length + 1 - needle.length by omega]
      refine List.filterMap_congr fun start hstart => ?_
      exact matchAt_eq hneedle rowIdx (by rw [List.mem_range] at hstart; omega)
  rw [hrange, expand_eq hpair, hscan, runs_map, hruns, List.filter_map, List.filter_map, List.filterMap_map,
    List.map_map, List.filterMap_map]
  simp only [Function.comp_def, map_ch_flatten_blocks]
  refine (List.filterMap_congr fun r hr => ?_).trans
    (congrFun (List.filterMap_eq_map (f := fun r : List (Glyph × Nat) => matchOf rowIdx (r.map Prod.fst))) _)
  obtain ⟨hne, hsub⟩ := mem_runs.1 (List.mem_filter.1 hr).1
  have hsub' : r.map Prod.fst <:+: glyphs env row := by
    rw [← hfst]
    exact hsub.map Prod.fst
  exact matchOfSlice_flatten_blocks caseSensitive rowIdx hne (fun g hg => htexts g (hsub'.subset hg))
    ( List.IsChain.infix (contiguous_glyphs hpair) hsub')

/-- 1 行の一致は、左から右へ並ぶ。 -/
theorem pairwise_searchRow (hpair : PairedRow env row) (htext : HasText row) (caseSensitive : Bool) {needle : List Char}
    (hneedle : needle ≠ []) (rowIdx : Nat) :
    (searchRow caseSensitive needle row rowIdx).Pairwise fun m m' => m.row = m'.row ∧ m.col < m'.col := by
  have htexts : ∀ g ∈ glyphs env row, g.text ≠ [] := fun g hg => text_ne_nil_of_mem_glyphs htext hg
  have hcols : (glyphs env row).Pairwise fun g g' => g.col < g'.col :=
    pairwise_col_of_contiguous (contiguous_glyphs hpair) fun g hg => width_pos_of_mem_glyphs hg
  have hfst : (glyphs env row).zipIdx.map Prod.fst = glyphs env row := List.zipIdx_map_fst 0 _
  have hblocks : ((glyphs env row).zipIdx.map (block caseSensitive)).Pairwise
      fun b b' => ∀ e ∈ b, ∀ e' ∈ b', e.col < e'.col := by
    rw [← hfst, List.pairwise_map] at hcols
    refine List.pairwise_map.2 (hcols.imp fun {p p'} hlt e he e' he' => ?_)
    obtain ⟨ch, -, rfl⟩ := List.mem_map.1 he
    obtain ⟨ch', -, rfl⟩ := List.mem_map.1 he'
    exact hlt
  have hnum := numbered_blocks caseSensitive (glyphs env row) htexts 0
  have hpairs := @pairwise_filter_runs Char HayChar _ HayChar.cellSeq HayChar.ch needle hneedle 0 _ hnum _ hblocks
  have hruns : runs (glyphs env row) = (runs (glyphs env row).zipIdx).map (List.map Prod.fst) := by
    rw [← runs_map, hfst]
  rw [runs_map, List.filter_map, List.pairwise_map] at hpairs
  simp only [Function.comp_def, map_ch_flatten_blocks] at hpairs
  rw [searchRow_eq hpair htext caseSensitive hneedle, hruns, List.filter_map, List.map_map, List.pairwise_map]
  refine hpairs.imp_of_mem fun {r r'} hr hr' hlt => ⟨rfl, ?_⟩
  obtain ⟨hne, hsub⟩ := mem_runs.1 (List.mem_filter.1 hr).1
  obtain ⟨hne', hsub'⟩ := mem_runs.1 (List.mem_filter.1 hr').1
  obtain ⟨⟨g, k⟩, r, rfl⟩ := List.exists_cons_of_ne_nil hne
  obtain ⟨⟨g', k'⟩, r', rfl⟩ := List.exists_cons_of_ne_nil hne'
  have hg := htexts g (hfst ▸ (hsub.map Prod.fst).subset List.mem_cons_self)
  have hg' := htexts g' (hfst ▸ (hsub'.map Prod.fst).subset List.mem_cons_self)
  obtain ⟨ch, chs, hch⟩ := List.exists_cons_of_ne_nil hg
  obtain ⟨ch', chs', hch'⟩ := List.exists_cons_of_ne_nil hg'
  exact hlt _ rfl _ rfl ⟨foldCase caseSensitive ch, g.col, g.width, k⟩ (by simp [block, hch])
    ⟨foldCase caseSensitive ch', g'.col, g'.width, k'⟩ (by simp [block, hch'])

theorem row_eq_of_mem_searchRow (hpair : PairedRow env row) (htext : HasText row) {caseSensitive : Bool}
    {needle : List Char} (hneedle : needle ≠ []) {rowIdx : Nat} {m : ScrollbackSearchMatch}
    (hm : m ∈ searchRow caseSensitive needle row rowIdx) : m.row = rowIdx := by
  rw [searchRow_eq hpair htext caseSensitive hneedle] at hm
  obtain ⟨r, -, rfl⟩ := List.mem_map.1 hm
  rfl

end

/-!
## プロンプトへのジャンプの補題

基準の行から見て次の行を返す関数と、位置から行への読み替えとに分ける。
-/

namespace Terminal

variable {t : Terminal}

/-! ## 次の行 -/

def previousRow (t : Terminal) (reference : Nat) : Option Nat :=
  (t.promptAnchorRows.filter fun r => r < reference && t.isPromptRowReachable r t.scrollbackLen).max?

def nextRow (t : Terminal) (reference : Nat) : Option Nat :=
  (t.promptAnchorRows.filter fun r => r > reference && t.isPromptRowReachable r t.scrollbackLen).min?

/-- 履歴の中の、次の行。 -/
def nextHistoryRow (t : Terminal) (reference : Nat) : Option Nat :=
  (t.nextRow reference).filter fun r => r < t.totalScrolledLines

def reachableRows (t : Terminal) : Finset Nat :=
  (t.promptAnchorRows.filter fun r => t.isPromptRowReachable r t.scrollbackLen).toFinset

theorem mem_reachableRows {r : Nat} : r ∈ t.reachableRows ↔ t.Reachable r := by
  rw [reachableRows, List.mem_toFinset, List.mem_filter]
  rfl

theorem mem_before {reference r : Nat} :
    r ∈ (t.promptAnchorRows.filter fun r => r < reference && t.isPromptRowReachable r t.scrollbackLen) ↔
      t.Reachable r ∧ r < reference := by
  rw [List.mem_filter, Bool.and_eq_true, decide_eq_true_eq, Reachable, and_assoc, and_comm (a := r < reference)]

theorem mem_after {reference r : Nat} :
    r ∈ (t.promptAnchorRows.filter fun r => r > reference && t.isPromptRowReachable r t.scrollbackLen) ↔
      t.Reachable r ∧ reference < r := by
  rw [List.mem_filter, Bool.and_eq_true, decide_eq_true_eq, Reachable, and_assoc, and_comm (a := r > reference)]

theorem nearest_previousRow (t : Terminal) : Nearest (· > ·) t.reachableRows t.previousRow where
  mem h := by
    obtain ⟨hreach, hlt⟩ := mem_before.1 (List.max?_eq_some_iff.1 h).1
    exact ⟨mem_reachableRows.2 hreach, hlt⟩
  least h c hc hlt := by
    have hle := (List.max?_eq_some_iff.1 h).2 c (mem_before.2 ⟨mem_reachableRows.1 hc, hlt⟩)
    exact (Nat.lt_or_eq_of_le hle).symm
  none h c hc hlt := by
    have hmem := mem_before.2 ⟨mem_reachableRows.1 hc, hlt⟩
    rw [List.max?_eq_none_iff.1 h] at hmem
    exact List.not_mem_nil hmem

theorem nextHistoryRow_eq_some {reference r : Nat} :
    t.nextHistoryRow reference = some r ↔ t.nextRow reference = some r ∧ r < t.totalScrolledLines := by
  rw [nextHistoryRow, Option.filter_eq_some_iff, decide_eq_true_eq]

theorem nearest_nextHistoryRow (t : Terminal) :
    Nearest (· < ·) (t.reachableRows.filter (· < t.totalScrolledLines)) t.nextHistoryRow where
  mem h := by
    obtain ⟨hnext, hhistory⟩ := nextHistoryRow_eq_some.1 h
    obtain ⟨hreach, hlt⟩ := mem_after.1 (List.min?_eq_some_iff.1 hnext).1
    exact ⟨Finset.mem_filter.2 ⟨mem_reachableRows.2 hreach, hhistory⟩, hlt⟩
  least h c hc hlt := by
    have hreach := mem_reachableRows.1 (Finset.mem_filter.1 hc).1
    have hle := (List.min?_eq_some_iff.1 (nextHistoryRow_eq_some.1 h).1).2 c (mem_after.2 ⟨hreach, hlt⟩)
    exact (Nat.lt_or_eq_of_le hle).symm.imp_left Eq.symm
  none {a} h c hc hlt := by
    obtain ⟨hmem, hhistory⟩ := Finset.mem_filter.1 hc
    have hafter := mem_after.2 ⟨mem_reachableRows.1 hmem, hlt⟩
    cases hnext : t.nextRow a with
    | none =>
        rw [List.min?_eq_none_iff.1 hnext] at hafter
        exact List.not_mem_nil hafter
    | some b =>
        have hle := (List.min?_eq_some_iff.1 hnext).2 c hafter
        exact Option.some_ne_none b ((nextHistoryRow_eq_some.2 ⟨hnext, hle.trans_lt hhistory⟩).symm.trans h)

/-! ## 位置 -/

theorem resolve_of_live {r : Nat} (h : t.totalScrolledLines ≤ r) : t.resolvePromptRowTarget r = .live := if_pos h

/-- 履歴の行の位置は、桁あふれしない。 -/
theorem resolve_of_history {r : Nat} (h : t.Reachable r) (hhistory : r < t.totalScrolledLines) :
    t.resolvePromptRowTarget r = { scrollOffset := t.totalScrolledLines - 1 - r, isLive := false } ∧
      t.totalScrolledLines - 1 - r < t.scrollbackLen := by
  have hlt : t.totalScrolledLines - 1 - r < t.scrollbackLen := by
    have hreach := h.2
    rw [isPromptRowReachable, if_neg (Nat.not_le.2 hhistory)] at hreach
    exact of_decide_eq_true hreach
  have hsmall : t.totalScrolledLines - 1 - r ≤ 2 ^ 32 - 1 := by
    have hlen : t.scrollbackLen ≤ 1000 := Nat.min_le_left _ _
    omega
  refine ⟨?_, hlt⟩
  rw [resolvePromptRowTarget, if_neg (Nat.not_le.2 hhistory), Nat.min_eq_left hsmall]

theorem jump_previous_live (t : Terminal) :
    t.jump true .live = (t.previousRow (t.totalScrolledLines + t.cursor.row)).map t.resolvePromptRowTarget := rfl

/-- 位置から読み替えた行は、元の行である。 -/
theorem jump_previous_history {r : Nat} (h : t.Reachable r) (hhistory : r < t.totalScrolledLines) :
    t.jump true (t.resolvePromptRowTarget r) = (t.previousRow r).map t.resolvePromptRowTarget := by
  have hreference : t.totalScrolledLines - 1 - (t.totalScrolledLines - 1 - r) = r := by omega
  have hjump : t.jump true { scrollOffset := t.totalScrolledLines - 1 - r, isLive := false } =
      (t.previousRow (t.totalScrolledLines - 1 - (t.totalScrolledLines - 1 - r))).map t.resolvePromptRowTarget := rfl
  rw [(resolve_of_history h hhistory).1, hjump, hreference]

theorem jump_next (t : Terminal) (offset : Nat) :
    t.jump false { scrollOffset := offset, isLive := false } =
      some (((t.nextRow (t.totalScrolledLines - 1 - offset)).map t.resolvePromptRowTarget).getD .live) := by
  unfold jump promptJumpTarget nextRow
  dsimp only
  rw [if_neg Bool.false_ne_true]
  split
  · rename_i r hmin
    rw [Bool.not_false, if_pos rfl] at hmin
    rw [hmin]
    rfl
  · rename_i hmin
    rw [Bool.not_false, if_pos rfl] at hmin
    rw [hmin]
    rfl

/-- 履歴の中に次の行がなければ、ライブ画面へ戻る。 -/
theorem jump_next_history (t : Terminal) (offset : Nat) :
    t.jump false { scrollOffset := offset, isLive := false } =
      some (((t.nextHistoryRow (t.totalScrolledLines - 1 - offset)).map t.resolvePromptRowTarget).getD .live) := by
  rw [jump_next, nextHistoryRow]
  cases t.nextRow (t.totalScrolledLines - 1 - offset) with
  | none => rfl
  | some r =>
      by_cases hhistory : r < t.totalScrolledLines
      · rw [Option.filter_some, if_pos (decide_eq_true hhistory)]
      · rw [Option.filter_some, if_neg (by rwa [decide_eq_true_eq])]
        exact congrArg some (resolve_of_live (Nat.le_of_not_lt hhistory))

/-! ## くり返し -/

/-- ライブ画面にカーソルより上の行がなければ、前のプロンプトを 1 度ずつ訪れて終わる。 -/
theorem exists_previous_visits
    (hlive : ∀ r, t.Reachable r → r < t.totalScrolledLines + t.cursor.row → r < t.totalScrolledLines) :
    ∃ rows : List Nat, rows.Pairwise (· > ·) ∧
      (∀ r, r ∈ rows ↔ t.Reachable r ∧ t.totalScrolledLines + t.cursor.row > r) ∧
      Visits (t.jump true) .live (rows.map t.resolvePromptRowTarget) := by
  obtain ⟨rows, hsorted, hmem, hvisits⟩ := t.nearest_previousRow.exists_visits (t.totalScrolledLines + t.cursor.row)
  simp only [mem_reachableRows] at hmem
  have hstart : t.resolvePromptRowTarget (t.totalScrolledLines + t.cursor.row) = .live :=
    resolve_of_live (Nat.le_add_right _ _)
  refine ⟨rows, hsorted, hmem, ?_⟩
  rw [← hstart]
  refine hvisits.map fun r hr => ?_
  obtain rfl | hr := List.mem_cons.1 hr
  · rw [hstart]
    exact t.jump_previous_live
  · obtain ⟨hreach, hlt⟩ := (hmem r).1 hr
    exact jump_previous_history hreach (hlive r hreach hlt)

/-- ライブ画面にカーソルより上の行があれば、前へのジャンプは、ライブ画面から動かない。 -/
theorem jump_previous_fixed {r : Nat} (h : t.Reachable r) (hlive : t.totalScrolledLines ≤ r)
    (hlt : r < t.totalScrolledLines + t.cursor.row) : t.jump true .live = some .live := by
  rw [jump_previous_live]
  cases hprevious : t.previousRow (t.totalScrolledLines + t.cursor.row) with
  | none => exact absurd hlt (t.nearest_previousRow.none hprevious r (mem_reachableRows.2 h))
  | some m =>
      have hle := (List.max?_eq_some_iff.1 hprevious).2 r (mem_before.2 ⟨h, hlt⟩)
      exact congrArg some (resolve_of_live (hlive.trans hle))

/-- 履歴の行を順に訪れて、ライブ画面へ戻る。 -/
theorem next_chain {offset : Nat} {rows : List Nat}
    (hrows : ∀ r ∈ rows, t.Reachable r ∧ r < t.totalScrolledLines)
    (hvisits : Visits t.nextHistoryRow (t.totalScrolledLines - 1 - offset) rows) :
    List.IsChain (fun p q => t.jump false p = some q)
      ({ scrollOffset := offset, isLive := false } :: (rows.map t.resolvePromptRowTarget ++ [.live])) := by
  induction rows generalizing offset with
  | nil =>
      have hstops : t.nextHistoryRow (t.totalScrolledLines - 1 - offset) = none := hvisits.stops
      refine List.isChain_cons_cons.2 ⟨?_, List.isChain_singleton _⟩
      rw [jump_next_history, hstops]
      rfl
  | cons r rows ih =>
      obtain ⟨hstep, hchain⟩ := List.isChain_cons_cons.1 hvisits.chain
      have hstops := hvisits.stops
      rw [List.getLastD_cons] at hstops
      obtain ⟨hreach, hhistory⟩ := hrows r List.mem_cons_self
      have hback : t.totalScrolledLines - 1 - (t.totalScrolledLines - 1 - r) = r := by omega
      have hresolve := (resolve_of_history hreach hhistory).1
      have hrest := @ih (t.totalScrolledLines - 1 - r) (fun r hr => hrows r (List.mem_cons_of_mem _ hr))
        (by rw [hback]; exact ⟨hchain, hstops⟩)
      rw [List.map_cons, List.cons_append]
      refine List.isChain_cons_cons.2 ⟨?_, by rw [hresolve]; exact hrest⟩
      rw [jump_next_history, hstep]
      rfl

theorem exists_next_chain (t : Terminal) (offset : Nat) :
    ∃ rows : List Nat, rows.Pairwise (· < ·) ∧
      (∀ r, r ∈ rows ↔ t.Reachable r ∧ t.totalScrolledLines - 1 - offset < r ∧ r < t.totalScrolledLines) ∧
      List.IsChain (fun p q => t.jump false p = some q)
        ({ scrollOffset := offset, isLive := false } :: (rows.map t.resolvePromptRowTarget ++ [.live])) := by
  obtain ⟨rows, hsorted, hmem, hvisits⟩ := t.nearest_nextHistoryRow.exists_visits (t.totalScrolledLines - 1 - offset)
  have hrow (r : Nat) :
      r ∈ rows ↔ t.Reachable r ∧ t.totalScrolledLines - 1 - offset < r ∧ r < t.totalScrolledLines := by
    rw [hmem r, Finset.mem_filter, mem_reachableRows, and_assoc, and_comm (a := r < t.totalScrolledLines)]
  exact ⟨rows, hsorted, hrow, next_chain (fun r hr => ⟨((hrow r).1 hr).1, ((hrow r).1 hr).2.2⟩) hvisits⟩

/-- 履歴の位置は、履歴の中にある。 -/
theorem offset_lt {wantPrevious : Bool} {start target : PromptJumpTarget} (h : t.jump wantPrevious start = some target)
    (hhistory : target.isLive = false) : target.scrollOffset < t.scrollbackLen := by
  have hrow {r : Nat} (hreach : t.Reachable r) (heq : t.resolvePromptRowTarget r = target) :
      target.scrollOffset < t.scrollbackLen := by
    by_cases hlt : r < t.totalScrolledLines
    · obtain ⟨hresolve, hoffset⟩ := resolve_of_history hreach hlt
      rw [← heq, hresolve]
      exact hoffset
    · rw [← heq, resolve_of_live (Nat.le_of_not_lt hlt)] at hhistory
      cases hhistory
  unfold jump promptJumpTarget at h
  dsimp only at h
  split at h
  · obtain ⟨r, hmax, heq⟩ := Option.map_eq_some_iff.1 h
    exact hrow (mem_before.1 (List.max?_eq_some_iff.1 hmax).1).1 heq
  · split at h
    · rename_i r hmin
      exact hrow (mem_after.1 (List.min?_eq_some_iff.1 hmin).1).1 (Option.some.inj h)
    · split at h
      · rw [← Option.some.inj h] at hhistory
        cases hhistory
      · cases h

end Terminal

end IsekaiTerminal.Emulator
