import IsekaiTerminal.Escape.Scan

/-!
# 走査と ssh(1) の対応

走査を 1 バイトずつの機械として読み、ssh(1) の機械と同時に進める。2 つの状態の組は、同じであるか、`~~` の直後であるか、
`~~` の後の `~` を走査だけが待っているかのどれかである。
-/

namespace IsekaiTerminal.Escape

open Lib

/-! ## 走査の機械 -/

def Step.toTriple : Step → Flags × List UInt8 × Option EscapeAction
  | .proceed flags sent action => (flags, sent, action)
  | .disconnect flags => (flags, [], some .disconnect)

def scanner : Machine Flags UInt8 EscapeAction := ⟨fun flags b => (onByte flags b).toTriple, (· = .disconnect)⟩

theorem onByte_proceed {flags next : Flags} {b : UInt8} {sent : List UInt8} {action : Option EscapeAction}
    (h : onByte flags b = .proceed next sent action) : action ≠ some .disconnect := by
  have hplain : ∀ {flags : Flags} {sent' : List UInt8}, plainByte flags b sent' = .proceed next sent action →
      action = none := by
    intro flags sent' hplain
    simp only [plainByte] at hplain
    split at hplain
    · cases hplain
      rfl
    · cases hplain
      rfl
  rw [onByte] at h
  split_ifs at h
  · cases h
    decide
  · cases h
    decide
  · cases h
    decide
  · cases h
    decide
  · rw [hplain h]
    decide
  · rw [hplain h]
    decide

theorem scanLoop_eq (flags : Flags) (toSend : List UInt8) (action : Option EscapeAction) (data : List UInt8) :
    scanLoop flags toSend action data =
      (toSend ++ (scanner.run flags data).sent, (scanner.run flags data).actions.getLast?.or action,
        (scanner.run flags data).state) := by
  induction data generalizing flags toSend action with
  | nil => simp [scanLoop, Machine.run, Outcome.start]
  | cons b rest ih =>
      rw [scanLoop, Machine.run_cons]
      cases hstep : onByte flags b with
      | disconnect next => simp [scanner, hstep, Step.toTriple]
      | proceed next sent found =>
          have hfound := onByte_proceed hstep
          have hrun : (scanner.step flags b).2.2.any scanner.halting = false := by
            cases found with
            | none => simp [scanner, hstep, Step.toTriple]
            | some a => simpa [scanner, hstep, Step.toTriple] using fun h => hfound (congrArg some h)
          rw [hrun]
          simp only [ih, scanner, hstep, Step.toTriple, Bool.false_eq_true, ↓reduceIte, Outcome.prepend,
            List.append_assoc, List.getLast?_append]
          cases found with
          | none => simp
          | some a => simp

theorem halted_iff (flags : Flags) (data : List UInt8) :
    (scanner.run flags data).halted = true ↔ (scanner.run flags data).actions.getLast? = some .disconnect := by
  induction data generalizing flags with
  | nil => simp [Machine.run, Outcome.start]
  | cons b rest ih =>
      rw [Machine.run_cons]
      cases haction : (scanner.step flags b).2.2 with
      | none => simp [Outcome.prepend, ih]
      | some a =>
          by_cases ha : a = .disconnect
          · simp [ha, scanner]
          · have hhalting : scanner.halting a = false := by simpa [scanner] using ha
            simp only [Option.any_some, hhalting, Bool.false_eq_true, ↓reduceIte, Outcome.prepend, ih, Option.toList_some,
              List.getLast?_append]
            cases hlast : (scanner.run (scanner.step flags b).1 rest).actions.getLast? with
            | none => simp [ha]
            | some l => simp

/-- 読み取りごとの観測は、機械の 1 回ごとの最後の動作を残したものである。 -/
theorem observe_eq (flags : Flags) (reads : List (List UInt8)) : observe flags reads = scanner.runSlots flags reads := by
  induction reads generalizing flags with
  | nil => rfl
  | cons read reads ih =>
      rw [observe, Machine.runSlots]
      simp only [processStdinBytes, scanLoop_eq, List.nil_append, Option.or_none]
      by_cases h : (scanner.run flags read).halted = true
      · have hlast := (halted_iff flags read).mp h
        simp only [hlast, ↓reduceIte, Outcome.andThen, Outcome.lastOnly, h, Option.toList_some]
      · have hlast : (scanner.run flags read).actions.getLast? ≠ some .disconnect :=
          fun hlast => h ((halted_iff flags read).mpr hlast)
        simp only [if_neg hlast, Outcome.andThen, Outcome.lastOnly, h, Bool.false_eq_true, ↓reduceIte, ih]

/-! ## 2 つの機械の状態の組 -/

/-- 走査だけが `~` を待っている。ssh(1) はその `~` を既に送った。 -/
def Held (r c : Flags) : Prop := r.pendingEscape = false ∧ c.pendingEscape = true

instance (r c : Flags) : Decidable (Held r c) := inferInstanceAs (Decidable (_ ∧ _))

/-- 同じ入力を読んだ ssh(1) の状態と走査の状態。 -/
inductive Paired : Flags → Flags → Prop
  | same (flags : Flags) : Paired flags flags
  | relaxed : Paired ⟨false, false⟩ ⟨true, false⟩
  | held : Paired ⟨false, false⟩ ⟨true, true⟩

def heldBytes (r c : Flags) : List UInt8 := if Held r c then [tilde] else []

/-- 命令を待たされていなければ、1 バイトの動作は同じであり、送る列の差は待っている `~` だけである。 -/
theorem step_clean {r c : Flags} (h : Paired r c) {b : UInt8} (hb : ¬(Held r c ∧ IsCommand b)) :
    (scanner.step c b).2.2 = (ssh.step r b).2.2 ∧ Paired (ssh.step r b).1 (scanner.step c b).1 ∧
      (scanner.step c b).2.1 ++ heldBytes (ssh.step r b).1 (scanner.step c b).1 =
        heldBytes r c ++ (ssh.step r b).2.1 := by
  cases h with
  | same =>
      obtain ⟨line, pending⟩ := r
      cases pending with
      | true =>
          by_cases hdot : b = dot
          · subst hdot
            exact ⟨rfl, .same _, rfl⟩
          by_cases htilde : b = tilde
          · subst htilde
            cases line with
            | true => exact ⟨rfl, .relaxed, rfl⟩
            | false => exact ⟨rfl, .same _, rfl⟩
          by_cases hquestion : b = question
          · subst hquestion
            exact ⟨rfl, .same _, rfl⟩
          by_cases hctrlZ : b = ctrlZ
          · subst hctrlZ
            exact ⟨rfl, .same _, rfl⟩
          by_cases hnewline : b = carriageReturn ∨ b = lineFeed
          · simp [scanner, ssh, onByte, sshByte, Step.toTriple, heldBytes, Held, isNewline, hdot, htilde, hquestion,
              hctrlZ, hnewline, Paired.same]
          · obtain ⟨hcr, hlf⟩ := not_or.mp hnewline
            simp [scanner, ssh, onByte, sshByte, plainByte, Step.toTriple, heldBytes, Held, isNewline, hdot, htilde,
              hquestion, hctrlZ, hcr, hlf, Paired.same]
      | false =>
          by_cases hescape : line = true ∧ b = tilde
          · obtain ⟨rfl, rfl⟩ := hescape
            exact ⟨rfl, .same _, rfl⟩
          · simp [scanner, ssh, onByte, sshByte, plainByte, Step.toTriple, heldBytes, Held, hescape, Paired.same]
  | relaxed =>
      by_cases htilde : b = tilde
      · subst htilde
        exact ⟨rfl, .held, rfl⟩
      · simp [scanner, ssh, onByte, sshByte, plainByte, Step.toTriple, heldBytes, Held, htilde, Paired.same]
  | held =>
      have hcommand : ¬IsCommand b := fun h => hb ⟨⟨rfl, rfl⟩, h⟩
      simp only [IsCommand, not_or] at hcommand
      obtain ⟨hdot, htilde, hquestion, hctrlZ⟩ := hcommand
      by_cases hnewline : b = carriageReturn ∨ b = lineFeed
      · simp [scanner, ssh, onByte, sshByte, Step.toTriple, heldBytes, Held, isNewline, hdot, htilde, hquestion,
          hctrlZ, hnewline, Paired.same]
      · obtain ⟨hcr, hlf⟩ := not_or.mp hnewline
        simp [scanner, ssh, onByte, sshByte, plainByte, Step.toTriple, heldBytes, Held, isNewline, hdot, htilde,
          hquestion, hctrlZ, hcr, hlf, Paired.same]

/-- 待っている `~` の後の命令では、ssh(1) は動作せずに送り、走査は送るはずのバイトを失う。 -/
theorem step_dirty {r c : Flags} (h : Paired r c) {b : UInt8} (hheld : Held r c) (hb : IsCommand b) :
    (ssh.step r b).2.2 = none ∧ (ssh.step r b).2.1.length = 1 ∧
      ((scanner.step c b).2.2 = some .disconnect ∧ (scanner.step c b).2.1 = [] ∨
        (scanner.step c b).2.2.any scanner.halting = false ∧ Paired (ssh.step r b).1 (scanner.step c b).1 ∧
          heldBytes (ssh.step r b).1 (scanner.step c b).1 = [] ∧ (scanner.step c b).2.1.length ≤ 1) := by
  cases h with
  | same => exact absurd (hheld.1.symm.trans hheld.2) Bool.false_ne_true
  | relaxed => exact absurd hheld.2 Bool.false_ne_true
  | held =>
      rcases hb with rfl | rfl | rfl | rfl
      · exact ⟨rfl, rfl, .inl ⟨rfl, rfl⟩⟩
      · exact ⟨rfl, rfl, .inr ⟨rfl, .relaxed, rfl, by decide⟩⟩
      · exact ⟨rfl, rfl, .inr ⟨rfl, .relaxed, rfl, by decide⟩⟩
      · exact ⟨rfl, rfl, .inr ⟨rfl, .relaxed, rfl, by decide⟩⟩

/-! ## 送る列の比較 -/

/-- 走査が待っている `~` の後に、命令も入力の終わりも来ない。 -/
def Clean (r c : Flags) : List UInt8 → Prop
  | [] => ¬Held r c
  | b :: rest =>
      ¬(Held r c ∧ IsCommand b) ∧
        ((ssh.step r b).2.2.any ssh.halting = false → Clean (ssh.step r b).1 (scanner.step c b).1 rest)

theorem halting_eq : scanner.halting = ssh.halting := rfl

theorem pending_of_disconnect {c : Flags} {b : UInt8} (h : (scanner.step c b).2.2 = some .disconnect) :
    (scanner.step c b).1.pendingEscape = false := by
  by_cases hpending : c.pendingEscape = true
  · by_cases hdot : b = dot
    · simp [scanner, onByte, hpending, hdot, Step.toTriple]
    · exfalso
      cases hstep : onByte c b with
      | disconnect next =>
          rw [onByte, if_pos hpending] at hstep
          simp only [if_neg hdot, plainByte] at hstep
          split_ifs at hstep
      | proceed next sent action => exact onByte_proceed hstep (by simpa [scanner, hstep, Step.toTriple] using h)
  · exfalso
    cases hstep : onByte c b with
    | disconnect next =>
        rw [onByte, if_neg hpending, plainByte] at hstep
        split_ifs at hstep
    | proceed next sent action => exact onByte_proceed hstep (by simpa [scanner, hstep, Step.toTriple] using h)

theorem any_halting_iff {action : Option EscapeAction} : action.any ssh.halting = true ↔ action = some .disconnect := by
  cases action with
  | none => simp
  | some a => simp [ssh]

theorem run_of_clean {r c : Flags} (h : Paired r c) {bytes : List UInt8} (hclean : Clean r c bytes) :
    (scanner.run c bytes).sent = heldBytes r c ++ (ssh.run r bytes).sent ∧
      (scanner.run c bytes).actions = (ssh.run r bytes).actions := by
  induction bytes generalizing r c with
  | nil => simp [Machine.run, Outcome.start, heldBytes, show ¬Held r c from hclean]
  | cons b rest ih =>
      obtain ⟨hb, hrest⟩ := hclean
      obtain ⟨haction, hpaired, hsent⟩ := step_clean h hb
      rw [Machine.run_cons, Machine.run_cons, haction, halting_eq]
      by_cases hhalt : (ssh.step r b).2.2.any ssh.halting = true
      · have hdisconnect := haction.trans (any_halting_iff.mp hhalt)
        have hnone : heldBytes (ssh.step r b).1 (scanner.step c b).1 = [] :=
          if_neg fun hheld => absurd (pending_of_disconnect hdisconnect) (by simp [hheld.2])
        rw [hnone, List.append_nil] at hsent
        simp only [hhalt, ↓reduceIte, hsent, and_self]
      · have hnot : (ssh.step r b).2.2.any ssh.halting = false := Bool.eq_false_iff.mpr hhalt
        obtain ⟨hsent', hactions'⟩ := ih hpaired (hrest hnot)
        simp only [hnot, Bool.false_eq_true, ↓reduceIte, Outcome.prepend, hsent', hactions', and_true]
        rw [← List.append_assoc, hsent, List.append_assoc]

/-- どの入力でも、走査は、ssh(1) より多くを送らない。 -/
theorem length_sent_le {r c : Flags} (h : Paired r c) (bytes : List UInt8) :
    (scanner.run c bytes).sent.length ≤ (heldBytes r c).length + (ssh.run r bytes).sent.length := by
  induction bytes generalizing r c with
  | nil => exact Nat.zero_le _
  | cons b rest ih =>
      rw [Machine.run_cons, Machine.run_cons, halting_eq]
      by_cases hb : Held r c ∧ IsCommand b
      · obtain ⟨hnone, hone, hstep⟩ := step_dirty h hb.1 hb.2
        have hheld : heldBytes r c = [tilde] := if_pos hb.1
        rw [hnone, hheld]
        rcases hstep with ⟨haction, hsent⟩ | ⟨hnot, hpaired, hnext, hlen⟩
        · simp [haction, hsent, ssh]
        · rw [halting_eq] at hnot
          have hrest := ih hpaired
          rw [hnext] at hrest
          simp only [hnot, Option.any_none, Bool.false_eq_true, ↓reduceIte, Outcome.prepend, List.length_append,
            List.length_cons, List.length_nil, hone] at hrest ⊢
          omega
      · obtain ⟨haction, hpaired, hsent⟩ := step_clean h hb
        have hlen := congrArg List.length hsent
        rw [List.length_append, List.length_append] at hlen
        rw [haction]
        by_cases hhalt : (ssh.step r b).2.2.any ssh.halting = true
        · simp only [hhalt, ↓reduceIte]
          omega
        · have hrest := ih hpaired
          simp only [hhalt, Bool.false_eq_true, ↓reduceIte, Outcome.prepend, List.length_append] at hrest ⊢
          omega

/-- 待っている `~` の後に命令か終わりが来ると、走査の送る列は短くなり、その後も追いつかない。 -/
theorem length_sent_lt {r c : Flags} (h : Paired r c) {bytes : List UInt8} (hdirty : ¬Clean r c bytes) :
    (scanner.run c bytes).sent.length < (heldBytes r c).length + (ssh.run r bytes).sent.length := by
  induction bytes generalizing r c with
  | nil =>
      have hheld : heldBytes r c = [tilde] := if_pos (not_not.mp hdirty)
      simp [hheld, Machine.run, Outcome.start]
  | cons b rest ih =>
      rw [Machine.run_cons, Machine.run_cons, halting_eq]
      by_cases hb : Held r c ∧ IsCommand b
      · obtain ⟨hnone, hone, hstep⟩ := step_dirty h hb.1 hb.2
        have hheld : heldBytes r c = [tilde] := if_pos hb.1
        rw [hnone, hheld]
        rcases hstep with ⟨haction, hsent⟩ | ⟨hnot, hpaired, hnext, hlen⟩
        · simp [haction, hsent, ssh]
        · rw [halting_eq] at hnot
          have hrest := length_sent_le hpaired rest
          rw [hnext] at hrest
          simp only [hnot, Option.any_none, Bool.false_eq_true, ↓reduceIte, Outcome.prepend, List.length_append,
            List.length_cons, List.length_nil, hone] at hrest ⊢
          omega
      · obtain ⟨haction, hpaired, hsent⟩ := step_clean h hb
        have hlen := congrArg List.length hsent
        rw [List.length_append, List.length_append] at hlen
        rw [haction]
        have hlater : ¬((ssh.step r b).2.2.any ssh.halting = false →
            Clean (ssh.step r b).1 (scanner.step c b).1 rest) := fun hlater => hdirty ⟨hb, hlater⟩
        obtain ⟨hnot, hrestDirty⟩ := Classical.not_imp.mp hlater
        have hrest := ih hpaired hrestDirty
        simp only [hnot, Bool.false_eq_true, ↓reduceIte, Outcome.prepend, List.length_append] at hrest ⊢
        omega

/-! ## 入力の条件 -/

theorem not_falseStart_nil (flags : Flags) : ¬FalseStart flags [] := by
  rintro ⟨pre, post, heq, -⟩
  cases pre <;> cases heq

theorem falseStart_cons {flags : Flags} {b : UInt8} {rest : List UInt8} :
    FalseStart flags (b :: rest) ↔
      (flags = .start ∧ b = tilde ∧ ∃ post, rest = tilde :: tilde :: post ∧ Spoils post) ∨
        (ssh.step flags b).2.2.any ssh.halting = false ∧ FalseStart (ssh.step flags b).1 rest := by
  constructor
  · rintro ⟨pre, post, heq, hhalted, hstate, hspoils⟩
    cases pre with
    | nil =>
        cases heq
        exact .inl ⟨hstate, rfl, post, rfl, hspoils⟩
    | cons head pre =>
        cases heq
        rw [Machine.run_cons] at hhalted hstate
        by_cases hhalt : (ssh.step flags b).2.2.any ssh.halting = true
        · simp only [hhalt, ↓reduceIte, Bool.true_eq_false] at hhalted
        · simp only [hhalt, Bool.false_eq_true, ↓reduceIte, Outcome.prepend] at hhalted hstate
          exact .inr ⟨Bool.eq_false_iff.mpr hhalt, pre, post, rfl, hhalted, hstate, hspoils⟩
  · rintro (⟨rfl, rfl, post, rfl, hspoils⟩ | ⟨hnot, pre, post, rfl, hhalted, hstate, hspoils⟩)
    · exact ⟨[], post, rfl, rfl, rfl, hspoils⟩
    · refine ⟨b :: pre, post, rfl, ?_, ?_, hspoils⟩
      · rw [Machine.run_cons]
        simpa only [hnot, Bool.false_eq_true, ↓reduceIte, Outcome.prepend] using hhalted
      · rw [Machine.run_cons]
        simpa only [hnot, Bool.false_eq_true, ↓reduceIte, Outcome.prepend] using hstate

/-- 状態の組ごとの、これから走査が外れる入力。 -/
def Trouble (r c : Flags) (bytes : List UInt8) : Prop :=
  FalseStart r bytes ∨
    (r = ⟨true, true⟩ ∧ c = ⟨true, true⟩ ∧ ∃ post, bytes = tilde :: tilde :: post ∧ Spoils post) ∨
    (r = ⟨false, false⟩ ∧ c = ⟨true, false⟩ ∧ ∃ post, bytes = tilde :: post ∧ Spoils post) ∨
    (Held r c ∧ Spoils bytes)

theorem spoils_cons {b : UInt8} {rest : List UInt8} : Spoils (b :: rest) ↔ IsCommand b := by
  constructor
  · rintro (h | ⟨b', rest', heq, hb⟩)
    · cases h
    · cases heq
      exact hb
  · exact fun hb => .inr ⟨b, rest, rfl, hb⟩

theorem trouble_same {flags : Flags} (h : flags.pendingEscape = false) (bytes : List UInt8) :
    Trouble flags flags bytes ↔ FalseStart flags bytes := by
  have hnotHeld : ¬Held flags flags := fun hheld => Bool.false_ne_true (h.symm.trans hheld.2)
  obtain ⟨line, pending⟩ := flags
  cases h
  cases line <;> simp [Trouble, hnotHeld]

/-- 次のバイトで 2 つの状態が揃うときの、条件の進み方。 -/
theorem trouble_of_same_next {r c : Flags} {b : UInt8} {rest : List UInt8} (hstart : ¬(r = .start ∧ b = tilde))
    (hnext : (scanner.step c b).1 = (ssh.step r b).1) (hpending : (ssh.step r b).1.pendingEscape = false)
    (hdouble : ¬(r = ⟨true, true⟩ ∧ b = tilde)) (hrelaxed : ¬(r = ⟨false, false⟩ ∧ c = ⟨true, false⟩ ∧ b = tilde))
    (hheld : ¬(Held r c ∧ IsCommand b)) :
    Trouble r c (b :: rest) ↔
      (ssh.step r b).2.2.any ssh.halting = false ∧ Trouble (ssh.step r b).1 (scanner.step c b).1 rest := by
  rw [hnext, trouble_same hpending, Trouble, falseStart_cons, spoils_cons]
  constructor
  · rintro ((⟨rfl, rfl, -⟩ | h) | ⟨rfl, rfl, post, heq, -⟩ | ⟨rfl, rfl, post, heq, -⟩ | h)
    · exact absurd ⟨rfl, rfl⟩ hstart
    · exact h
    · exact absurd ⟨rfl, (List.cons.inj heq).1⟩ hdouble
    · exact absurd ⟨rfl, rfl, (List.cons.inj heq).1⟩ hrelaxed
    · exact absurd h hheld
  · exact fun h => .inl (.inr h)

/-- `~` でないバイトは、2 つの状態を揃える。 -/
theorem next_same {r c : Flags} (h : Paired r c) {b : UInt8} (htilde : b ≠ tilde) (hb : ¬(Held r c ∧ IsCommand b)) :
    (scanner.step c b).1 = (ssh.step r b).1 ∧ (ssh.step r b).1.pendingEscape = false := by
  have hpending : (ssh.step r b).1.pendingEscape = false := by
    simp only [ssh, sshByte]
    split_ifs with hpending hdot hquestion hctrlZ hescape
    · rfl
    · rfl
    · rfl
    · rfl
    · exact absurd hescape.2 htilde
    · exact Bool.eq_false_iff.mpr hpending
  refine ⟨?_, hpending⟩
  cases h with
  | same =>
      simp only [scanner, ssh, onByte, sshByte, plainByte, if_neg htilde]
      split_ifs <;> simp_all [Step.toTriple, isNewline]
  | relaxed => simp [scanner, ssh, onByte, sshByte, plainByte, Step.toTriple, htilde]
  | held =>
      have hcommand : ¬IsCommand b := fun h => hb ⟨⟨rfl, rfl⟩, h⟩
      simp only [IsCommand, not_or] at hcommand
      obtain ⟨hdot, -, hquestion, hctrlZ⟩ := hcommand
      by_cases hnewline : b = carriageReturn ∨ b = lineFeed
      · simp [scanner, ssh, onByte, sshByte, Step.toTriple, isNewline, hdot, htilde, hquestion, hctrlZ, hnewline]
      · obtain ⟨hcr, hlf⟩ := not_or.mp hnewline
        simp [scanner, ssh, onByte, sshByte, plainByte, Step.toTriple, isNewline, hdot, htilde, hquestion, hctrlZ, hcr,
          hlf]

theorem trouble_cons {r c : Flags} (h : Paired r c) {b : UInt8} (hb : ¬(Held r c ∧ IsCommand b)) (rest : List UInt8) :
    Trouble r c (b :: rest) ↔
      (ssh.step r b).2.2.any ssh.halting = false ∧ Trouble (ssh.step r b).1 (scanner.step c b).1 rest := by
  by_cases htilde : b = tilde
  · subst htilde
    cases h with
    | same =>
        obtain ⟨line, pending⟩ := r
        cases line with
        | true =>
            cases pending with
            | true =>
                have hssh : ssh.step ⟨true, true⟩ tilde = (⟨false, false⟩, [tilde], none) := rfl
                have hscanner : (scanner.step ⟨true, true⟩ tilde).1 = ⟨true, false⟩ := rfl
                simp [Trouble, falseStart_cons, hssh, hscanner, Flags.start, Held]
            | false =>
                have hssh : ssh.step ⟨true, false⟩ tilde = (⟨true, true⟩, [], none) := rfl
                have hscanner : (scanner.step ⟨true, false⟩ tilde).1 = ⟨true, true⟩ := rfl
                simp [Trouble, falseStart_cons, hssh, hscanner, Flags.start, Held]
                exact or_comm
        | false =>
            exact trouble_of_same_next (by simp [Flags.start]) (by cases pending <;> rfl) (by cases pending <;> rfl)
              (by simp) (by simp) hb
    | relaxed =>
        have hssh : ssh.step ⟨false, false⟩ tilde = (⟨false, false⟩, [tilde], none) := rfl
        have hscanner : (scanner.step ⟨true, false⟩ tilde).1 = ⟨true, true⟩ := rfl
        simp [Trouble, falseStart_cons, hssh, hscanner, Flags.start, Held]
    | held => exact absurd ⟨⟨rfl, rfl⟩, .inr (.inl rfl)⟩ hb
  · have hsame := next_same h htilde hb
    exact trouble_of_same_next (fun h => htilde h.2) hsame.1 hsame.2 (fun h => htilde h.2) (fun h => htilde h.2.2) hb

theorem clean_iff {r c : Flags} (h : Paired r c) (bytes : List UInt8) : Clean r c bytes ↔ ¬Trouble r c bytes := by
  induction bytes generalizing r c with
  | nil =>
      have hiff : Trouble r c [] ↔ Held r c := by simp [Trouble, not_falseStart_nil, Spoils]
      rw [hiff, Clean]
  | cons b rest ih =>
      by_cases hb : Held r c ∧ IsCommand b
      · have htrouble : Trouble r c (b :: rest) := .inr (.inr (.inr ⟨hb.1, spoils_cons.mpr hb.2⟩))
        exact iff_of_false (fun hclean => hclean.1 hb) (not_not.mpr htrouble)
      · obtain ⟨-, hpaired, -⟩ := step_clean h hb
        rw [trouble_cons h hb, Clean, ih hpaired]
        tauto

end IsekaiTerminal.Escape
