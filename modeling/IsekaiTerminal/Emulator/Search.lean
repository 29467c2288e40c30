import IsekaiTerminal.Emulator.WellFormed
import IsekaiTerminal.Lib.Descent

/-!
# 履歴の検索

`rust-core/src/session.rs` の `search_scrollback` を定める。並列の 4 本のベクタは、1 本の記録の列で表す。
列と行の番号は `u32` であり、行の長さと履歴の行数は、その範囲にある。
-/

namespace IsekaiTerminal.Emulator

structure ScrollbackSearchMatch where
  row : Nat
  col : Nat
  len : Nat
deriving DecidableEq

/-- 占有のセルを除いて展開した 1 文字。`col`、`width`、`cellSeq` は、由来するセルの列、表示幅、通し番号である。 -/
structure HayChar where
  ch : Char
  col : Nat
  width : Nat
  cellSeq : Nat
deriving DecidableEq

/-- 大文字と小文字は、ASCII の範囲でだけ同一視する。 -/
def foldCase (caseSensitive : Bool) (c : Char) : Char := if caseSensitive then c else c.toLower

/-- 行を展開するループ。 -/
def expandFrom (caseSensitive : Bool) (col cellSeq : Nat) : Row → List HayChar
  | [] => []
  | cell :: rest =>
      if cell.isWidePlaceholder then expandFrom caseSensitive (col + 1) cellSeq rest
      else
        let width := if rest.head?.any (·.isWidePlaceholder) then 2 else 1
        cell.ch.map (fun ch => ⟨foldCase caseSensitive ch, col, width, cellSeq⟩) ++
          expandFrom caseSensitive (col + 1) (cellSeq + 1) rest

/-- `start` から始まる一致。 -/
def matchAt (needle : List Char) (haystack : List HayChar) (rowIdx start : Nat) : Option ScrollbackSearchMatch :=
  let stop := start + needle.length - 1
  let startsAtCellBoundary :=
    start = 0 ∨ haystack[start - 1]?.map (·.cellSeq) ≠ haystack[start]?.map (·.cellSeq)
  let endsAtCellBoundary :=
    stop + 1 = haystack.length ∨ haystack[stop]?.map (·.cellSeq) ≠ haystack[stop + 1]?.map (·.cellSeq)
  if startsAtCellBoundary ∧ endsAtCellBoundary then
    if ((haystack.drop start).take needle.length).map (·.ch) = needle then do
      let first ← haystack[start]?
      let last ← haystack[stop]?
      some { row := rowIdx, col := first.col, len := last.col + last.width - first.col }
    else none
  else none

def searchRow (caseSensitive : Bool) (needle : List Char) (row : Row) (rowIdx : Nat) : List ScrollbackSearchMatch :=
  let haystack := expandFrom caseSensitive 0 0 row
  if haystack.length < needle.length then []
  else (List.range (haystack.length - needle.length + 1)).filterMap (matchAt needle haystack rowIdx)

/-- `scrollback` の先頭は、最も新しい行である。 -/
def searchScrollback (scrollback : List Row) (query : List Char) (caseSensitive : Bool) : List ScrollbackSearchMatch :=
  let needle := query.map (foldCase caseSensitive)
  if needle.isEmpty then []
  else scrollback.zipIdx.flatMap fun (row, rowIdx) => searchRow caseSensitive needle row rowIdx

/-! ## 行の文字 -/

/-- 行に並ぶ文字。先頭の列と、行の中で占める列の数と、合成文字を含む文字列をもつ。 -/
structure Glyph where
  col : Nat
  width : Nat
  text : List Char

/-- 行の中での表示幅。最後の列の幅 2 の文字は、1 列だけを占める。 -/
def displayWidthAt (env : Env) (row : Row) (c : Nat) (cell : TermCell) : Nat :=
  if isWideHead env cell ∧ c + 1 < row.length then 2 else 1

/-- 占有のセルを除いた、行の文字の並び。 -/
def glyphs (env : Env) (row : Row) : List Glyph :=
  row.zipIdx.filterMap fun (cell, c) =>
    if cell.isWidePlaceholder then none else some ⟨c, displayWidthAt env row c cell, cell.ch⟩

def textOf (run : List Glyph) : List Char := run.flatMap (·.text)

/-- 並びの先頭の列と、表示幅の合計。 -/
def matchOf (rowIdx : Nat) (run : List Glyph) : ScrollbackSearchMatch :=
  { row := rowIdx, col := (run.head?.map (·.col)).getD 0, len := (run.map (·.width)).sum }

/-- 占有のセルでないどのセルも、文字をもつ。 -/
def HasText (row : Row) : Prop := ∀ cell ∈ row, cell.isWidePlaceholder = false → cell.ch ≠ []

/-!
## プロンプトへのジャンプ

`terminal.rs` の `prompt_jump_target` と、それが呼ぶ関数を定める。
-/

/-- 表示する位置。履歴の `scroll_offset` は、新しい行から数える。 -/
structure PromptJumpTarget where
  scrollOffset : Nat
  isLive : Bool
deriving DecidableEq

def PromptJumpTarget.live : PromptJumpTarget := { scrollOffset := 0, isLive := true }

/-- 1 つの周期につき 1 行である。A を優先し、A のない周期では B を使う。 -/
def anchorRows : Bool → List PromptMark → List Nat
  | _, [] => []
  | cycleAnchored, mark :: marks =>
    match mark.kind with
    | .promptStart => mark.row :: anchorRows true marks
    | .commandStart => if !cycleAnchored then mark.row :: anchorRows true marks else anchorRows cycleAnchored marks
    | .commandExecuted | .commandFinished _ => anchorRows false marks

namespace Terminal

def promptAnchorRows (t : Terminal) : List Nat := anchorRows false t.prompt.promptMarks

def isPromptRowReachable (t : Terminal) (absRow scrollbackLen : Nat) : Bool :=
  if absRow ≥ t.totalScrolledLines then absRow - t.totalScrolledLines < t.rows
  else
    let offset := t.totalScrolledLines - 1 - absRow
    offset < scrollbackLen

def resolvePromptRowTarget (t : Terminal) (absRow : Nat) : PromptJumpTarget :=
  if absRow ≥ t.totalScrolledLines then { scrollOffset := 0, isLive := true }
  else { scrollOffset := min (t.totalScrolledLines - 1 - absRow) (2 ^ 32 - 1), isLive := false }

def promptJumpTarget (t : Terminal) (wantPrevious : Bool) (fromScrollOffset : Nat) (fromShowingScrollback : Bool)
    (scrollbackLen : Nat) : Option PromptJumpTarget :=
  let reference :=
    if fromShowingScrollback then t.totalScrolledLines - 1 - fromScrollOffset else t.totalScrolledLines + t.cursor.row
  let anchors := t.promptAnchorRows
  if wantPrevious then
    (anchors.filter fun r => r < reference && t.isPromptRowReachable r scrollbackLen).max?.map t.resolvePromptRowTarget
  else
    match (anchors.filter fun r => r > reference && t.isPromptRowReachable r scrollbackLen).min? with
    | some r => some (t.resolvePromptRowTarget r)
    | none => if fromShowingScrollback then some { scrollOffset := 0, isLive := true } else none

/-! ## くり返し -/

/-- 履歴に残る行数。 -/
def scrollbackLen (t : Terminal) : Nat := min scrollbackLimit t.totalScrolledLines

/-- 返された位置からの、次のジャンプ。 -/
def jump (t : Terminal) (wantPrevious : Bool) (current : PromptJumpTarget) : Option PromptJumpTarget :=
  t.promptJumpTarget wantPrevious current.scrollOffset (!current.isLive) t.scrollbackLen

/-- 表示できるプロンプトの行。 -/
def Reachable (t : Terminal) (r : Nat) : Prop :=
  r ∈ t.promptAnchorRows ∧ t.isPromptRowReachable r t.scrollbackLen = true

end Terminal

/-- ジャンプは進み、飛ばさない。ライブ画面の中の行は、どれもライブ画面という 1 つの位置にある。 -/
structure Navigates (t : Terminal) : Prop where
  previous : ∃ rows : List Nat, rows.Pairwise (· > ·) ∧
    (∀ r, r ∈ rows ↔ t.Reachable r ∧ t.totalScrolledLines + t.cursor.row > r) ∧
    Lib.Visits (t.jump true) .live (rows.map t.resolvePromptRowTarget)
  next : ∀ offset < t.scrollbackLen, ∃ rows : List Nat, rows.Pairwise (· < ·) ∧
    (∀ r, r ∈ rows ↔ t.Reachable r ∧ t.totalScrolledLines - 1 - offset < r ∧ r < t.totalScrolledLines) ∧
    List.IsChain (fun p q => t.jump false p = some q)
      ({ scrollOffset := offset, isLive := false } :: (rows.map t.resolvePromptRowTarget ++ [.live]))
  offset : ∀ wantPrevious start target, t.jump wantPrevious start = some target → target.isLive = false →
    target.scrollOffset < t.scrollbackLen

end IsekaiTerminal.Emulator
