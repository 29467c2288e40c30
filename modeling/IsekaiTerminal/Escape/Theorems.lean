import IsekaiTerminal.Escape.Lemmas.Scan

/-!
# 標準入力のエスケープの走査の主結果

送る列とフラグは、入力の分け方によらない。動作まで含めて ssh(1) と一致するのは、1 回の読み取りに動作が多くても 1 つで、
行の先頭の `~~` の直後の `~` に、命令も入力の終わりも続かない場合である。
-/

namespace IsekaiTerminal.Escape

open Lib

/-- 送った列と報告された動作が、入力の全体を ssh(1) に読ませたものと一致する。 -/
def FollowsSsh (reads : List (List UInt8)) : Prop :=
  (observe .start reads).sent = (ssh.run .start reads.flatten).sent ∧
    (observe .start reads).actions = (ssh.run .start reads.flatten).actions

instance (reads : List (List UInt8)) : Decidable (FollowsSsh reads) := inferInstanceAs (Decidable (_ ∧ _))

/-- 行の先頭。終わった `~?` と `~^Z` は数えない。 -/
inductive LineStart : List UInt8 → Prop
  | start : LineStart []
  | newline {pre : List UInt8} {b : UInt8} (h : isNewline b = true) : LineStart (pre ++ [b])
  | command {pre : List UInt8} {b : UInt8} (h : LineStart pre) (hb : b = question ∨ b = ctrlZ) :
      LineStart (pre ++ [tilde, b])

/-- 待っているエスケープは、行の先頭の `~` である。 -/
structure AtLineStart (pre : List UInt8) (flags : Flags) : Prop where
  line : flags = .start → LineStart pre
  pending : flags.pendingEscape = true → ∃ p, pre = p ++ [tilde] ∧ LineStart p

theorem atLineStart_step {pre : List UInt8} {flags : Flags} (h : AtLineStart pre flags) {b : UInt8}
    (hb : (sshByte flags b).2.2 ≠ some .disconnect) : AtLineStart (pre ++ [b]) (sshByte flags b).1 := by
  have hplain : AtLineStart (pre ++ [b]) ⟨isNewline b, false⟩ :=
    ⟨fun hstart => .newline (congrArg Flags.atLineStart hstart), fun hpending => absurd hpending (by simp)⟩
  rw [sshByte] at hb ⊢
  by_cases hpending : flags.pendingEscape = true
  · obtain ⟨p, rfl, hp⟩ := h.pending hpending
    rw [if_pos hpending] at hb ⊢
    split_ifs at hb ⊢ with hdot hquestion hctrlZ
    · exact absurd rfl hb
    · refine ⟨fun _ => ?_, fun hpending => absurd hpending (by simp)⟩
      rw [List.append_assoc]
      exact .command hp (.inl hquestion)
    · refine ⟨fun _ => ?_, fun hpending => absurd hpending (by simp)⟩
      rw [List.append_assoc]
      exact .command hp (.inr hctrlZ)
    · exact hplain
    · exact hplain
  · have hfalse : flags.pendingEscape = false := Bool.eq_false_iff.mpr hpending
    rw [if_neg hpending]
    split_ifs with hescape
    · refine ⟨fun hstart => absurd (congrArg Flags.pendingEscape hstart) (by simp [Flags.start]), fun _ => ?_⟩
      have hstart : flags = .start := by
        obtain ⟨line, pending⟩ := flags
        simp only at hescape hfalse
        rw [hescape.1, hfalse]
        rfl
      exact ⟨pre, by rw [hescape.2], h.line hstart⟩
    · rw [hfalse]
      exact hplain

theorem atLineStart_of_run {pre : List UInt8} (h : (ssh.run .start pre).halted = false) :
    AtLineStart pre (ssh.run .start pre).state := by
  induction pre using List.reverseRecOn with
  | nil => exact ⟨fun _ => .start, fun hpending => absurd hpending (by decide)⟩
  | append_singleton pre b ih =>
      rw [Machine.run_append] at h ⊢
      by_cases hhalted : (ssh.run .start pre).halted = true
      · simp only [Outcome.andThen, hhalted, ↓reduceIte, Bool.true_eq_false] at h
      · simp only [Outcome.andThen, hhalted, Bool.false_eq_true, ↓reduceIte, Outcome.prepend, Machine.run_cons] at h ⊢
        by_cases hstep : (ssh.step (ssh.run .start pre).state b).2.2.any ssh.halting = true
        · simp only [hstep, ↓reduceIte, Bool.true_eq_false] at h
        · simp only [hstep, Bool.false_eq_true, ↓reduceIte]
          have hprev := ih (Bool.eq_false_iff.mpr hhalted)
          exact atLineStart_step hprev fun hdisconnect => hstep (any_halting_iff.mpr hdisconnect)

/-- ssh(1) の動作は、行の先頭の `~` に続く命令からだけ生じる。 -/
theorem lineStart_of_action {pre : List UInt8} {b : UInt8} {action : EscapeAction}
    (h : (ssh.run .start pre).halted = false) (haction : (sshByte (ssh.run .start pre).state b).2.2 = some action) :
    ∃ p, pre = p ++ [tilde] ∧ LineStart p := by
  refine (atLineStart_of_run h).pending ?_
  by_contra hpending
  rw [sshByte, if_neg hpending] at haction
  split_ifs at haction

/-! ## 1 回の読み取りごとの動作 -/

/-- 途中まで読んでも、動作と、止まったかどうかは ssh(1) と同じである。 -/
theorem run_of_clean_append {r c : Flags} (h : Paired r c) {xs ys : List UInt8} (hclean : Clean r c (xs ++ ys)) :
    (scanner.run c xs).actions = (ssh.run r xs).actions ∧ (scanner.run c xs).halted = (ssh.run r xs).halted ∧
      ((ssh.run r xs).halted = false →
        Paired (ssh.run r xs).state (scanner.run c xs).state ∧ Clean (ssh.run r xs).state (scanner.run c xs).state ys) := by
  induction xs generalizing r c with
  | nil => exact ⟨rfl, rfl, fun _ => ⟨h, hclean⟩⟩
  | cons b xs ih =>
      obtain ⟨hb, hrest⟩ := hclean
      obtain ⟨haction, hpaired, -⟩ := step_clean h hb
      rw [Machine.run_cons, Machine.run_cons, haction, halting_eq]
      by_cases hhalt : (ssh.step r b).2.2.any ssh.halting = true
      · simp only [hhalt, ↓reduceIte, Bool.true_eq_false, false_implies, and_self]
      · have hnot : (ssh.step r b).2.2.any ssh.halting = false := Bool.eq_false_iff.mpr hhalt
        obtain ⟨hactions, hhalted, hnext⟩ := ih hpaired (hrest hnot)
        simp only [hnot, Bool.false_eq_true, ↓reduceIte, Outcome.prepend, hactions, true_and]
        exact ⟨hhalted, hnext⟩

/-- 走査が ssh(1) と同じに進む間は、1 回ごとの動作の数も同じである。 -/
theorem singleAction_iff {r c : Flags} (h : Paired r c) {reads : List (List UInt8)} (hclean : Clean r c reads.flatten) :
    scanner.SingleAction c reads ↔ ssh.SingleAction r reads := by
  induction reads generalizing r c with
  | nil => exact Iff.rfl
  | cons read reads ih =>
      rw [List.flatten_cons] at hclean
      obtain ⟨hactions, hhalted, hnext⟩ := run_of_clean_append h hclean
      rw [Machine.SingleAction, Machine.SingleAction, hactions, hhalted]
      refine and_congr_right fun _ => forall_congr' fun hnot => ?_
      obtain ⟨hpaired, hclean'⟩ := hnext hnot
      exact ih hpaired hclean'

/-! ## 主結果 -/

theorem followsSsh_iff (reads : List (List UInt8)) :
    FollowsSsh reads ↔ ¬FalseStart .start reads.flatten ∧ ssh.SingleAction .start reads := by
  have hspec := Machine.runSlots_spec (m := scanner) .start reads
  have hactions := Machine.runSlots_actions_iff (m := scanner) .start reads
  rw [Machine.runReads_eq] at hspec hactions
  have htrouble : Trouble .start .start reads.flatten ↔ FalseStart .start reads.flatten := trouble_same rfl _
  have hiff : Clean .start .start reads.flatten ↔ ¬FalseStart .start reads.flatten := by
    rw [← htrouble]
    exact clean_iff (.same .start) _
  rw [FollowsSsh, observe_eq, hspec.2.2.1, ← hiff]
  constructor
  · rintro ⟨hsent, hact⟩
    have hclean : Clean .start .start reads.flatten := by
      by_contra hdirty
      have hlt := length_sent_lt (.same .start) hdirty
      have hheld : heldBytes .start .start = [] := rfl
      rw [hsent, hheld, List.length_nil] at hlt
      omega
    refine ⟨hclean, (singleAction_iff (.same .start) hclean).mp (hactions.mp ?_)⟩
    rw [hact, (run_of_clean (.same .start) hclean).2]
  · rintro ⟨hclean, hsingle⟩
    obtain ⟨hsent, hact⟩ := run_of_clean (.same .start) hclean
    exact ⟨hsent, (hactions.mpr ((singleAction_iff (.same .start) hclean).mpr hsingle)).trans hact⟩

theorem observe_cut {reads reads' : List (List UInt8)} (h : reads.flatten = reads'.flatten) :
    (observe .start reads).sent = (observe .start reads').sent ∧
      (observe .start reads).state = (observe .start reads').state ∧
      (observe .start reads).halted = (observe .start reads').halted := by
  have hspec := Machine.runSlots_spec (m := scanner) .start reads
  have hspec' := Machine.runSlots_spec (m := scanner) .start reads'
  rw [Machine.runReads_eq] at hspec hspec'
  rw [observe_eq, observe_eq, hspec.1, hspec.2.1, hspec.2.2.1, hspec'.1, hspec'.2.1, hspec'.2.2.1, h]
  exact ⟨rfl, rfl, rfl⟩

/-- 送る列とフラグは分け方によらない。動作まで ssh(1) と一致するための、入力と分け方の条件を与える。ssh(1) の動作は、
行の先頭の `~` に続く命令からだけ生じる。 -/
theorem escapeScan_iff (reads reads' : List (List UInt8)) (pre : List UInt8) (b : UInt8) (action : EscapeAction) :
    (FollowsSsh reads ↔ ¬FalseStart .start reads.flatten ∧ ssh.SingleAction .start reads) ∧
      (reads.flatten = reads'.flatten →
        (observe .start reads).sent = (observe .start reads').sent ∧
          (observe .start reads).state = (observe .start reads').state ∧
          (observe .start reads).halted = (observe .start reads').halted) ∧
      ((ssh.run .start pre).halted = false →
        (ssh.step (ssh.run .start pre).state b).2.2 = some action → ∃ p, pre = p ++ [tilde] ∧ LineStart p) :=
  ⟨followsSsh_iff reads, observe_cut, lineStart_of_action⟩

/-- 1 回の読み取りの `~?~^Z` は、`Suspend` だけを報告する。`~~~.` は、行の先頭でない `~` から `Disconnect` になる。 -/
theorem exists_reads_lost :
    (∃ reads, ¬FollowsSsh reads ∧ (observe .start reads).actions = [.suspend]) ∧
      ∃ reads, ¬FollowsSsh reads ∧ (observe .start reads).actions = [.disconnect] :=
  ⟨⟨[[tilde, question, tilde, ctrlZ]], by decide⟩, ⟨[[tilde, tilde, tilde, dot]], by decide⟩⟩

end IsekaiTerminal.Escape
