import IsekaiTerminal.Console.Stdin

/-!
# コンソールの入力の補題

渡した列とこれから渡す列の全体が、1 回の遷移でどう変わるかを示す。短くなるのは、読み残しを捨てるときだけである。
-/

namespace IsekaiTerminal.Console

open Lib

namespace Process

/-! ## 1 回の遷移 -/

theorem bytes_drain (s : Process) (remaining : Nat) : (s.drain remaining).2.bytes = s.bytes := by
  simp only [drain, bytes, ConsoleStdin.leftover, slice]
  split
  · rename_i hle
    have htake : (s.reader.buf.drop s.reader.pos).take (min (s.reader.buf.length - s.reader.pos) remaining) =
        s.reader.buf.drop s.reader.pos := List.take_of_length_le (by rw [List.length_drop]; omega)
    simp [htake]
  · rw [← List.drop_drop]
    simp [← List.append_assoc (List.take _ _)]

theorem bytes_pollRead (s : Process) (remaining : Nat) : (s.pollRead remaining).2.bytes = s.bytes := by
  rw [pollRead]
  split
  · exact s.bytes_drain remaining
  · rename_i hpos
    have hleftover : s.reader.leftover = [] := List.drop_of_length_le (Nat.le_of_not_lt hpos)
    split
    · next data queue hqueue =>
        simp only [bytes, hqueue, hleftover]
        split
        · simp [ConsoleStdin.leftover, ← List.append_assoc (List.take _ _)]
        · rename_i hle
          have htake : data.take (min data.length remaining) = data := List.take_of_length_le (Nat.le_of_not_lt hle)
          simp [hleftover, htake]
    · rfl

/-- 遷移が生む列。 -/
def produced : Action → List UInt8
  | .readConsole units => encodeUtf8 (fromUtf16Lossy units)
  | _ => []

theorem bytes_of_step {s s' : Process} {a : Action} (h : Steps s a s') (ha : a = .reopen → s.reader.leftover = []) :
    s'.bytes = s.bytes ++ produced a := by
  cases a with
  | readConsole units =>
      obtain ⟨-, heq⟩ := Option.ite_none_right_eq_some.mp h
      cases heq
      simp [bytes, produced]
  | endConsole =>
      cases h
      exact (List.append_nil _).symm
  | poll remaining =>
      cases h
      rw [bytes_pollRead]
      exact (List.append_nil _).symm
  | reopen =>
      cases h
      have hempty : ConsoleStdin.opened.leftover = [] := rfl
      simp only [bytes, produced, ha rfl, hempty, List.append_nil]

/-- 捨てた読み残しの分だけ短くなる。 -/
theorem sublist_of_step {s s' : Process} {a : Action} (h : Steps s a s') :
    s'.bytes.Sublist (s.bytes ++ produced a) ∧
      (s'.bytes.length = (s.bytes ++ produced a).length → a = .reopen → s.reader.leftover = []) := by
  by_cases ha : a = .reopen
  · subst ha
    cases h
    have hempty : ConsoleStdin.opened.leftover = [] := rfl
    simp only [bytes, produced, hempty, List.append_nil, List.nil_append]
    refine ⟨List.Sublist.append_left (List.sublist_append_right _ _) _, fun hlen _ => ?_⟩
    simp only [List.length_append] at hlen
    exact List.eq_nil_of_length_eq_zero (by omega)
  · have hbytes := bytes_of_step h fun hreopen => absurd hreopen ha
    exact ⟨hbytes ▸ List.Sublist.refl _, fun _ hreopen => absurd hreopen ha⟩

/-! ## 実行 -/

/-- 読み残しを捨てない。 -/
def Unspilled (s : Process) (a : Action) : Prop := a = .reopen → s.reader.leftover = []

theorem bytes_of_run {s s' : Process} {as : List Action} (h : Run (Guarded Steps Unspilled) s as s') :
    s'.bytes = s.bytes ++ as.flatMap produced := by
  induction h with
  | nil s => exact (List.append_nil _).symm
  | cons hstep _ ih => rw [ih, bytes_of_step hstep.1 hstep.2, List.flatMap_cons, List.append_assoc]

theorem sublist_of_run {s s' : Process} {as : List Action} (h : Run Steps s as s') :
    s'.bytes.Sublist (s.bytes ++ as.flatMap produced) := by
  induction h with
  | nil s => simp
  | cons hstep _ ih =>
      have hmid := (sublist_of_step hstep).1
      rw [List.flatMap_cons, ← List.append_assoc]
      exact ih.trans (hmid.append_right _)

/-- 長さが足りていれば、読み残しを捨てていない。 -/
theorem unspilled_of_length {s s' : Process} {as : List Action} (h : Run Steps s as s')
    (hlen : s'.bytes.length = (s.bytes ++ as.flatMap produced).length) : Run (Guarded Steps Unspilled) s as s' := by
  induction h with
  | nil s => exact .nil s
  | @cons s a mid as s' hstep hrun ih =>
      obtain ⟨hmid, hkept⟩ := sublist_of_step hstep
      have hmid := hmid.length_le
      have hrest := (sublist_of_run hrun).length_le
      simp only [List.flatMap_cons, List.length_append] at hlen hmid hrest
      refine .cons ⟨hstep, hkept ?_⟩ (ih ?_)
      · rw [List.length_append]
        omega
      · rw [List.length_append]
        omega

theorem flatMap_produced (as : List Action) :
    as.flatMap produced = encodeUtf8 ((consoleReads as).flatMap fromUtf16Lossy) := by
  induction as with
  | nil => rfl
  | cons a as ih =>
      cases a with
      | readConsole units =>
          have hreads : consoleReads (.readConsole units :: as) = units :: consoleReads as := rfl
          rw [List.flatMap_cons, ih, hreads, List.flatMap_cons, encodeUtf8, encodeUtf8, List.flatMap_append]
          rfl
      | _ => exact ih

theorem guarded_kept {s s' : Process} {as : List Action} (h : Run (Guarded Steps Unspilled) s as s')
    (hreads : ∀ units ∈ consoleReads as, WellFormedUtf16 units) : Run (Guarded Steps Kept) s as s' := by
  induction h with
  | nil s => exact .nil s
  | @cons s a mid as s' hstep _ ih =>
      have hrest : ∀ units ∈ consoleReads as, WellFormedUtf16 units := by
        intro units hmem
        refine hreads units ?_
        cases a <;> simp_all [consoleReads]
      refine .cons ⟨hstep.1, ?_⟩ (ih hrest)
      cases a with
      | readConsole units => exact hreads units List.mem_cons_self
      | reopen => exact hstep.2 rfl
      | _ => trivial

theorem unspilled_of_kept {s s' : Process} {as : List Action} (h : Run (Guarded Steps Kept) s as s') :
    Run (Guarded Steps Unspilled) s as s' ∧ ∀ units ∈ consoleReads as, WellFormedUtf16 units := by
  induction h with
  | nil s => exact ⟨.nil s, by simp [consoleReads]⟩
  | @cons s a mid as s' hstep _ ih =>
      obtain ⟨hstep, hkept⟩ := hstep
      refine ⟨.cons ⟨hstep, ?_⟩ ih.1, ?_⟩
      · rintro rfl
        exact hkept
      · cases a with
        | readConsole units => exact List.forall_mem_cons.mpr ⟨hkept, ih.2⟩
        | _ => exact ih.2

end Process

/-!
## コンソールの入力の性質

正しい UTF-16 の列が、どう区切って読まれ、どの大きさの領域に渡されても、渡した列がその UTF-8 の符号化になるのは、
読み取りの境目がサロゲートの対を分けず、読み残しを捨てない実行で、ちょうどそのときである。
-/

section

open Process

/-- コンソールが `text` を返した実行の後で、渡した列とこれから渡す列が、`text` の UTF-8 である。 -/
def Lossless (text : List Char) (s : Process) : Prop :=
  s.delivered ++ (s.reader.leftover ++ s.queue.flatten) = encodeUtf8 text

instance (text : List Char) (s : Process) : Decidable (Lossless text s) := inferInstanceAs (Decidable (_ = _))

theorem lossless_iff {as : List Action} {s : Process} {text : List Char} (h : Run Steps .start as s)
    (htext : (consoleReads as).flatten = encodeUtf16 text) : Lossless text s ↔ Run (Guarded Steps Kept) .start as s := by
  constructor
  · intro hlossless
    have hbytes : s.bytes = encodeUtf8 text := hlossless
    have hsublist : (encodeUtf8 text).Sublist (encodeUtf8 ((consoleReads as).flatMap fromUtf16Lossy)) := by
      rw [← hbytes, ← flatMap_produced]
      exact sublist_of_run h
    -- 4 バイトになる文字は、対を分けると減り、読み残しを捨てても増えない
    have hle : astral text ≤ ((consoleReads as).map fun c => astral (fromUtf16Lossy c)).sum := by
      have hcount := hsublist.countP_le (p := fun b => 0xF0 ≤ b)
      rw [countP_encodeUtf8, countP_encodeUtf8, astral, astral, List.countP_flatMap] at hcount
      exact hcount
    have hreads := wellFormedUtf16_of_astral_le htext hle
    refine guarded_kept (unspilled_of_length h ?_) hreads
    rw [hbytes, flatMap_produced, flatMap_fromUtf16Lossy htext hreads]
    rfl
  · intro hkept
    obtain ⟨hunspilled, hreads⟩ := unspilled_of_kept hkept
    have hbytes := bytes_of_run hunspilled
    rw [flatMap_produced, flatMap_fromUtf16Lossy htext hreads] at hbytes
    exact hbytes

/-- サロゲートの対を 1 つの読み取りで受け、1 バイトずつ渡し、読み残しの無いところで開き直す実行。 -/
def pairedReads : List Action :=
  [.readConsole [0x61, 0xD83D, 0xDE00], .poll 1, .poll 3, .poll 16, .reopen, .readConsole [0x62], .poll 1]

def pairedState : Process := ⟨[], false, .opened, [0x61, 0xF0, 0x9F, 0x98, 0x80, 0x62]⟩

theorem lossless_pairedReads : Lossless ['a', '😀', 'b'] pairedState := by
  have hrun : Run Steps .start pairedReads pairedState := Run.of_foldlM (by decide)
  exact (lossless_iff hrun (by decide)).mpr (Run.guarded_of_foldlM (by decide))

/-- 対が 2 つの読み取りに分かれると置き換わり、読み残しのあるまま開き直すと失われる。 -/
theorem exists_run_lossy :
    (∃ s, Run Steps .start [.readConsole [0xD83D], .readConsole [0xDE00], .poll 16, .poll 16] s ∧
      s.queue = [] ∧ s.delivered = [0xEF, 0xBF, 0xBD, 0xEF, 0xBF, 0xBD] ∧ ¬Lossless ['😀'] s) ∧
    ∃ s, Run Steps .start [.readConsole [0x61, 0x62], .poll 1, .reopen, .poll 1] s ∧
      s.queue = [] ∧ s.delivered = [0x61] ∧ ¬Lossless ['a', 'b'] s := by
  constructor
  · exact ⟨⟨[], false, .opened, [0xEF, 0xBF, 0xBD, 0xEF, 0xBF, 0xBD]⟩, Run.of_foldlM (by decide), rfl, rfl, by decide⟩
  · exact ⟨⟨[], false, .opened, [0x61]⟩, Run.of_foldlM (by decide), rfl, rfl, by decide⟩

end

end IsekaiTerminal.Console
