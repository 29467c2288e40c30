import IsekaiTerminal.Emulator.WellFormed

/-!
# ずらす操作

行と文字をずらす 9 つの制御を並べ、それぞれが画面の行の列に行うことを、列の操作として述べる。
-/

namespace IsekaiTerminal.Emulator

open Lib (onRegion shiftUp shiftDown)

inductive Shift
  | su (n : Nat)
  | lf
  | sd (n : Nat)
  | ri
  | il (n : Nat)
  | dl (n : Nat)
  | ich (n : Nat)
  | dch (n : Nat)
  | ech (n : Nat)
deriving DecidableEq

/-- 操作を行う関数。 -/
def Terminal.shift (env : Env) (t : Terminal) : Shift → Option Terminal
  | .su n => t.scrollUpRegion n
  | .lf => t.newline
  | .sd n => t.scrollDownRegion n
  | .ri => t.reverseIndex
  | .il n => t.insertLines n
  | .dl n => t.deleteLines n
  | .ich n => t.insertChars env n
  | .dch n => t.deleteChars env n
  | .ech n => t.eraseChars env n

namespace Shift

def count : Shift → Nat
  | su n | sd n | il n | dl n | ich n | dch n | ech n => n
  | lf | ri => 1

/-- 最初の引数。省いたときと 0 は、1 とする。 -/
def countOf (params : Params) : Nat := max ((params.map Param.head)[0]?.getD 0).toNat 1

/-- 操作を送る遷移。 -/
inductive Sends : Event → Shift → Prop
  | su (params : Params) : Sends (.csiDispatch params [] 'S') (.su (countOf params))
  | lf {byte : UInt8} (h : byte = 0x0A ∨ byte = 0x0B ∨ byte = 0x0C) : Sends (.execute byte) .lf
  | sd {params : Params} (h : params.count ≤ 1) : Sends (.csiDispatch params [] 'T') (.sd (countOf params))
  | ri : Sends (.escDispatch [] 0x4d) .ri
  | il (params : Params) : Sends (.csiDispatch params [] 'L') (.il (countOf params))
  | dl (params : Params) : Sends (.csiDispatch params [] 'M') (.dl (countOf params))
  | ich (params : Params) : Sends (.csiDispatch params [] '@') (.ich (countOf params))
  | dch (params : Params) : Sends (.csiDispatch params [] 'P') (.dch (countOf params))
  | ech (params : Params) : Sends (.csiDispatch params [] 'X') (.ech (countOf params))

/-- LF は領域の下端で、RI は上端で、画面をずらす。 -/
def AtMargin (t : Terminal) : Shift → Prop
  | lf => t.cursor.row = t.scrollBottom
  | ri => t.cursor.row = t.scrollTop
  | _ => True

/-- カーソルは、スクロール領域の中にある。 -/
def CursorInRegion (t : Terminal) : Prop := t.scrollTop ≤ t.cursor.row ∧ t.cursor.row ≤ t.scrollBottom

instance (t : Terminal) : Decidable (CursorInRegion t) :=
  inferInstanceAs (Decidable (t.scrollTop ≤ t.cursor.row ∧ t.cursor.row ≤ t.scrollBottom))

/-! ## 列の操作 -/

/-- 行の列への操作。文字の操作は、カーソルの行の、見えている列からの操作である。 -/
def onRows (env : Env) (t : Terminal) : Shift → List Row → List Row
  | su n => onRegion (shiftUp n t.blankRow) t.scrollTop (t.scrollBottom + 1)
  | lf => onRegion (shiftUp 1 t.blankRow) t.scrollTop (t.scrollBottom + 1)
  | sd n => onRegion (shiftDown n t.blankRow) t.scrollTop (t.scrollBottom + 1)
  | ri => onRegion (shiftDown 1 t.blankRow) t.scrollTop (t.scrollBottom + 1)
  | il n => fun rows =>
      if CursorInRegion t then onRegion (shiftDown n t.blankRow) t.cursor.row (t.scrollBottom + 1) rows else rows
  | dl n => fun rows =>
      if CursorInRegion t then onRegion (shiftUp n t.blankRow) t.cursor.row (t.scrollBottom + 1) rows else rows
  | ich n => fun rows => rows.modify t.cursor.row fun row =>
      sanitizeWideCells env (onRegion (shiftDown n t.blank) t.visibleCol t.cols row)
  | dch n => fun rows => rows.modify t.cursor.row fun row =>
      sanitizeWideCells env (onRegion (shiftUp n t.blank) t.visibleCol t.cols row)
  | ech n => fun rows => rows.modify t.cursor.row fun row =>
      sanitizeWideCells env (onRegion (fun old => List.replicate old.length t.blank) t.visibleCol
        (t.visibleCol + min n (t.cols - t.visibleCol)) row)

/-- 操作が触れてよい行。 -/
def Touches (t : Terminal) (r : Nat) : Shift → Prop
  | su _ | lf | sd _ | ri => t.scrollTop ≤ r ∧ r ≤ t.scrollBottom
  | il _ | dl _ => CursorInRegion t ∧ t.cursor.row ≤ r ∧ r ≤ t.scrollBottom
  | ich _ | dch _ | ech _ => r = t.cursor.row

/-- main の画面を一番上から送り出す操作。 -/
def Scrolls (t : Terminal) : Shift → Prop
  | su _ | lf => t.scrollTop = 0 ∧ t.altActive = false
  | _ => False

/-- 履歴へ送る行。領域の行数で抑えた個数を、上から順に送る。 -/
def scrolledOff (t : Terminal) (s : Shift) : List Row :=
  t.cells.take (min s.count (t.scrollBottom - t.scrollTop + 1))

end Shift

/-- 操作の結果。履歴へ送った行は、待ち行列の上限で間引く。 -/
structure Shifted (env : Env) (s : Shift) (t t' : Terminal) : Prop where
  cells : t'.cells = s.onRows env t t.cells
  hidden : if t.altActive then t'.mainCells = t.mainCells else t'.altCells = t.altCells
  outside : ∀ r, ¬s.Touches t r → t'.cells[r]? = t.cells[r]?
  cursor : t'.cursor = t.cursor
  margins : t'.scrollTop = t.scrollTop ∧ t'.scrollBottom = t.scrollBottom
  pushed : s.Scrolls t → t'.pendingScrollback = trimmed (t.pendingScrollback ++ s.scrolledOff t)
  unpushed : ¬s.Scrolls t → t'.pendingScrollback = t.pendingScrollback

end IsekaiTerminal.Emulator
