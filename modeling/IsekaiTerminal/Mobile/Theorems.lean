import IsekaiTerminal.Lib.Window
import IsekaiTerminal.Mobile.Reattach

/-!
# モバイル側の再接続の不変条件

再送のバッファが、helper に書き終えた列の窓であることと、helper に届いた列が受け取った列の先頭で
あることを、再接続の offset がバッファの範囲にある限り保つ。
-/

namespace IsekaiTerminal.Mobile

open Protocol Lib

/-! ## 再送のバッファ -/

namespace ReplayBuffer

theorem evict_eq (capacity : Nat) (data : List UInt8) (start : Nat) :
    evict capacity data start =
      (data.drop (data.length - capacity), start + (data.length - capacity)) := by
  induction data generalizing start with
  | nil => simp [evict]
  | cons b data ih =>
      rw [evict, ih]
      by_cases h : (b :: data).length > capacity
      · have hsub : (b :: data).length - capacity = data.length - capacity + 1 := by
          simp only [List.length_cons] at h ⊢
          omega
        rw [if_pos h, hsub, List.drop_succ_cons, Nat.add_right_comm, Nat.add_assoc start]
      · rw [if_neg h, Nat.sub_eq_zero_of_le (not_lt.mp h)]
        simp

theorem discard_eq (confirmedOffset : Nat) (data : List UInt8) (start : Nat) :
    discard confirmedOffset data start =
      (data.drop (min (confirmedOffset - start) data.length),
        start + min (confirmedOffset - start) data.length) := by
  induction data generalizing start with
  | nil => simp [discard]
  | cons b data ih =>
      rw [discard, ih]
      by_cases h : start < confirmedOffset
      · have hmin : min (confirmedOffset - start) (b :: data).length =
            min (confirmedOffset - (start + 1)) data.length + 1 := by
          simp only [List.length_cons]
          omega
        rw [if_pos h, hmin, List.drop_succ_cons, Nat.add_right_comm, Nat.add_assoc start]
      · rw [if_neg h, Nat.sub_eq_zero_of_le (not_lt.mp h)]
        simp

variable {buffer : ReplayBuffer} {sent : List UInt8}

theorem window_append (h : Window sent buffer.data buffer.startOffset) (bytes : List UInt8) :
    Window (sent ++ bytes) (buffer.append bytes).data (buffer.append bytes).startOffset := by
  simp only [append, evict_eq]
  exact (h.append bytes).drop (Nat.sub_le _ _)

theorem window_advanceStart (h : Window sent buffer.data buffer.startOffset) (confirmedOffset : Nat) :
    Window sent (buffer.advanceStart confirmedOffset).data
      (buffer.advanceStart confirmedOffset).startOffset := by
  simp only [advanceStart, discard_eq]
  exact h.drop (min_le_right _ _)

theorem replayFrom_advanceStart (h : Window sent buffer.data buffer.startOffset) {offset : Nat}
    (hs : buffer.startOffset ≤ offset) (he : offset ≤ buffer.endOffset) :
    (buffer.advanceStart offset).replayFrom offset = some (sent.drop offset) := by
  have hw := window_advanceStart h offset
  have hstart : (buffer.advanceStart offset).startOffset = offset := by
    simp only [advanceStart, discard_eq]
    simp only [endOffset] at he
    omega
  have hend : offset ≤ (buffer.advanceStart offset).endOffset := by
    simp only [endOffset, hstart]
    omega
  rw [replayFrom, if_neg (by simp only [hstart]; omega), hw.drop_sub hstart.le]

theorem replayFrom_advanceStart_eq_none {offset : Nat}
    (h : ¬ (buffer.startOffset ≤ offset ∧ offset ≤ buffer.endOffset)) :
    (buffer.advanceStart offset).replayFrom offset = none := by
  rw [replayFrom, if_pos]
  simp only [advanceStart, endOffset, discard_eq, List.length_drop] at h ⊢
  omega

end ReplayBuffer

namespace State

/-! ## 述べること -/

/-- helper が確定した列は受け取った列の先頭であり、待ち受けている間は、届いた列が受け取った列と一致する。 -/
def ExactlyOnce (s : State) : Prop :=
  s.helper.committed <+: s.accepted ∧
    (s.pump = .idle → s.helper.committed ++ s.helper.inflight = s.accepted)

/-- helper が確定した位置が、再送のバッファの範囲にある。 -/
def InReplayRange (s : State) : Prop :=
  s.resume.replayBuffer.startOffset ≤ s.helper.committed.length ∧
    s.helper.committed.length ≤ s.resume.replayBuffer.endOffset

/-- pump の場所ごとの、helper に届いた列 `arrived`、書き終えた列 `sent`、受け取った列 `accepted` の関係。 -/
def Agrees (arrived sent accepted : List UInt8) : Pump → Prop
  | .idle => arrived = sent ∧ accepted = sent
  | .writing chunk => arrived = sent ∧ accepted = sent ++ chunk
  | .reattaching _ _ pending => arrived <+: accepted ∧ accepted = sent ++ pending.getD []
  | .backoff _ _ pending => arrived <+: accepted ∧ accepted = sent ++ pending.getD []
  | .replaying bytes _ _ pending => arrived ++ bytes = sent ∧ accepted = sent ++ pending.getD []
  | .failed _ => arrived <+: accepted
  | .closed => arrived <+: accepted

/-- バッファは書き終えた列の窓であり、届いた列は pump の場所に応じた位置まで一致する。 -/
def Inv (s : State) : Prop :=
  ∃ sent, Window sent s.resume.replayBuffer.data s.resume.replayBuffer.startOffset ∧
    Agrees (s.helper.committed ++ s.helper.inflight) sent s.accepted s.pump

theorem Agrees.isPrefix {arrived sent accepted : List UInt8} {pump : Pump}
    (h : Agrees arrived sent accepted pump) : arrived <+: accepted := by
  cases pump with
  | idle => obtain ⟨rfl, rfl⟩ := h; exact List.prefix_rfl
  | writing => obtain ⟨rfl, rfl⟩ := h; exact List.prefix_append _ _
  | reattaching | backoff => exact h.1
  | replaying bytes =>
      obtain ⟨rfl, rfl⟩ := h
      rw [List.append_assoc]
      exact List.prefix_append _ _
  | failed | closed => exact h

theorem Inv.exactlyOnce {s : State} (h : s.Inv) : s.ExactlyOnce := by
  obtain ⟨sent, -, hag⟩ := h
  refine ⟨(List.prefix_append _ _).trans hag.isPrefix, ?_⟩
  intro hidle
  rw [hidle] at hag
  exact hag.1.trans hag.2.symm

theorem Inv.init (capacity : Nat) (sessionId : Option SessionId) : (init capacity sessionId).Inv :=
  ⟨[], Window.nil, rfl, rfl⟩

/-! ## 1 つの待ちの結果 -/

variable {s s' : State} {sent : List UInt8}

theorem inv_startAttempt {attempt bonus : Nat} {pending : Option (List UInt8)}
    (hw : Window sent s.resume.replayBuffer.data s.resume.replayBuffer.startOffset)
    (hpre : s.helper.committed ++ s.helper.inflight <+: s.accepted)
    (hacc : s.accepted = sent ++ pending.getD []) : (s.startAttempt attempt bonus pending).Inv := by
  unfold startAttempt
  cases s.resume.sessionId with
  | none => exact ⟨sent, hw, hpre⟩
  | some id => exact ⟨sent, hw, hpre, hacc⟩

theorem inv_attemptFailed {message : String} {attempt bonus : Nat} {pending : Option (List UInt8)}
    (hw : Window sent s.resume.replayBuffer.data s.resume.replayBuffer.startOffset)
    (hpre : s.helper.committed ++ s.helper.inflight <+: s.accepted)
    (hacc : s.accepted = sent ++ pending.getD []) :
    (s.attemptFailed message attempt bonus pending).Inv := by
  unfold attemptFailed
  split
  · exact ⟨sent, hw, hpre⟩
  · exact ⟨sent, hw, hpre, hacc⟩

theorem inv_resumed {pending : Option (List UInt8)}
    (hw : Window sent s.resume.replayBuffer.data s.resume.replayBuffer.startOffset)
    (harr : s.helper.committed ++ s.helper.inflight = sent)
    (hacc : s.accepted = sent ++ pending.getD []) : (s.resumed pending).Inv := by
  cases pending with
  | none => exact ⟨sent, hw, harr, by simpa [resumed] using hacc⟩
  | some chunk => exact ⟨sent, hw, harr, hacc⟩

/-- 範囲の中の位置での再接続は、確定した列のちょうど続きから再送する。 -/
theorem inv_reattached {attempt bonus : Nat} {pending : Option (List UInt8)}
    (hw : Window sent s.resume.replayBuffer.data s.resume.replayBuffer.startOffset)
    (hpre : s.helper.committed ++ s.helper.inflight <+: s.accepted)
    (hacc : s.accepted = sent ++ pending.getD []) (hr : s.InReplayRange) :
    (s.reattached attempt bonus pending).Inv := by
  have hwa := ReplayBuffer.window_advanceStart hw s.helper.committed.length
  -- 確定した列は書き終えた列より長くないので、その先頭である。
  have hcom : s.helper.committed <+: sent := by
    have hlen : s.helper.committed.length ≤ sent.length := hr.2.trans_eq hw.end_eq
    refine List.prefix_of_prefix_length_le ((List.prefix_append _ _).trans hpre) ?_ hlen
    rw [hacc]
    exact List.prefix_append _ _
  have hrest : s.helper.committed ++ sent.drop s.helper.committed.length = sent :=
    prefix_append_drop hcom
  simp only [reattached, ReplayBuffer.replayFrom_advanceStart hw hr.1 hr.2]
  cases hd : sent.drop s.helper.committed.length with
  | nil =>
      rw [hd] at hrest
      exact inv_resumed hwa hrest hacc
  | cons b bytes =>
      rw [hd] at hrest
      exact ⟨sent, hwa, by simpa using hrest, hacc⟩

theorem reattached_out_of_range {attempt bonus : Nat} {pending : Option (List UInt8)}
    (hr : ¬ s.InReplayRange) (message : String) :
    (s.reattached attempt bonus pending).pump ≠ .failed message := by
  simp only [reattached, ReplayBuffer.replayFrom_advanceStart_eq_none hr]
  cases pending <;> simp [resumed]

/-- 範囲の中の位置で再接続する限り、どの待ちの結果も不変条件を保つ。 -/
theorem Inv.step (h : s.Inv) {e : Event} (hs : s.step e = some s')
    (hr : e = .reattachOk → s.InReplayRange) : s'.Inv := by
  obtain ⟨sent, hw, hag⟩ := h
  have hpre := hag.isPrefix
  cases e with
  | fromCaller chunk =>
      cases hp : s.pump <;> simp only [State.step, hp, reduceCtorEq, Option.some.injEq] at hs
      rw [hp] at hag
      subst hs
      exact ⟨sent, hw, hag.1, by rw [hag.2]⟩
  | fromCallerClosed =>
      cases hp : s.pump <;> simp only [State.step, hp, reduceCtorEq, Option.some.injEq] at hs
      subst hs
      exact ⟨sent, hw, hpre⟩
  | fromHelper chunk deliveredOk =>
      cases hp : s.pump <;> simp only [State.step, hp, reduceCtorEq] at hs
      rw [hp] at hag
      split at hs
      · cases hs
      split at hs
      · cases hs
        exact ⟨sent, hw, hag⟩
      · cases hs
        exact ⟨sent, hw, hpre⟩
  | fromHelperClosed =>
      cases hp : s.pump <;> simp only [State.step, hp, reduceCtorEq] at hs
      rw [hp] at hag
      split at hs
      · cases hs
      · cases hs
        exact ⟨sent, hw, hag⟩
  | readFailed message =>
      cases hp : s.pump <;> simp only [State.step, hp, reduceCtorEq] at hs
      rw [hp] at hag
      split at hs
      · cases hs
      · cases hs
        exact inv_startAttempt hw hpre (by simpa using hag.2)
  | writeOk =>
      cases hp : s.pump <;> simp only [State.step, hp, reduceCtorEq, Option.some.injEq] at hs
      rename_i chunk
      rw [hp] at hag
      subst hs
      -- 成功した chunk は、届いた列とバッファの両方の末尾に加わる。
      refine ⟨sent ++ chunk, ReplayBuffer.window_append hw chunk, ?_, hag.2⟩
      simp only [send]
      rw [← List.append_assoc, hag.1]
  | writeErr delivered message =>
      cases hp : s.pump <;> simp only [State.step, hp, reduceCtorEq, Option.some.injEq] at hs
      rename_i chunk
      rw [hp] at hag
      subst hs
      refine inv_startAttempt (s := s.send _) hw ?_ hag.2
      simp only [send]
      rw [← List.append_assoc, hag.1, hag.2]
      exact isPrefix_append_take List.prefix_rfl delivered
  | reattachOk =>
      cases hp : s.pump <;> simp only [State.step, hp, reduceCtorEq, Option.some.injEq] at hs
      rw [hp] at hag
      subst hs
      exact inv_reattached hw hpre hag.2 (hr rfl)
  | reattachErr message =>
      cases hp : s.pump <;> simp only [State.step, hp, reduceCtorEq, Option.some.injEq] at hs
      rw [hp] at hag
      subst hs
      exact inv_attemptFailed hw hpre hag.2
  | replayOk =>
      cases hp : s.pump <;> simp only [State.step, hp, reduceCtorEq, Option.some.injEq] at hs
      rename_i bytes attempt bonus pending
      rw [hp] at hag
      subst hs
      refine inv_resumed (s := s.send bytes) hw ?_ hag.2
      simp only [send]
      rw [← List.append_assoc, hag.1]
  | replayErr delivered message =>
      cases hp : s.pump <;> simp only [State.step, hp, reduceCtorEq, Option.some.injEq] at hs
      rename_i bytes attempt bonus pending
      rw [hp] at hag
      subst hs
      refine inv_attemptFailed (s := s.send _) hw ?_ hag.2
      simp only [send]
      rw [← List.append_assoc, hag.2]
      refine (isPrefix_append_take ?_ delivered).trans (List.prefix_append _ _)
      exact hag.1 ▸ List.prefix_rfl
  | backoffEnded networkWake =>
      cases hp : s.pump <;> simp only [State.step, hp, reduceCtorEq] at hs
      rw [hp] at hag
      split at hs <;> cases hs <;> exact inv_startAttempt hw hpre hag.2
  | commit n =>
      simp only [State.step, Option.some.injEq] at hs
      subst hs
      refine ⟨sent, hw, ?_⟩
      rw [List.append_assoc, List.take_append_drop]
      exact hag

theorem Inv.exec {capacity : Nat} {sessionId : Option SessionId} {es : List Event}
    (hr : ∀ pre post s s', es = pre ++ .reattachOk :: post → exec capacity sessionId pre = some s →
      s.step .reattachOk = some s' → s.InReplayRange)
    {s : State} (hs : exec capacity sessionId es = some s) : s.Inv := by
  induction es using List.reverseRecOn generalizing s with
  | nil =>
      obtain rfl := Option.some.inj hs
      exact Inv.init capacity sessionId
  | append_singleton es e ih =>
      rw [State.exec, List.foldlM_append] at hs
      obtain ⟨t, ht, hstep⟩ := Option.bind_eq_some_iff.mp hs
      have hstep' : t.step e = some s := by simpa using hstep
      have hinv : t.Inv := by
        refine ih ?_ ht
        rintro pre post s s' rfl hpre hok
        exact hr pre (post ++ [e]) s s' (by simp) hpre hok
      refine hinv.step hstep' ?_
      rintro rfl
      exact hr es [] t s rfl ht hstep'

end State

/-!
## モバイル側の再接続の主結果
-/

namespace State

/-- helper が受け取った列が重複も欠落もなく一致し、再送できない位置での再接続が必ず `terminal_error` で終わることは、
すべての再接続が再送のバッファの範囲の中の位置で行われることと同値である。 -/
theorem exactlyOnce_iff (capacity : Nat) (sessionId : Option SessionId) (es : List Event) :
    ((∀ pre post s, es = pre ++ post → exec capacity sessionId pre = some s → s.ExactlyOnce) ∧
      ∀ pre post s s', es = pre ++ .reattachOk :: post → exec capacity sessionId pre = some s →
        s.step .reattachOk = some s' → ¬ s.InReplayRange → ∃ message, s'.pump = .failed message) ↔
    ∀ pre post s s', es = pre ++ .reattachOk :: post → exec capacity sessionId pre = some s →
      s.step .reattachOk = some s' → s.InReplayRange := by
  constructor
  · rintro ⟨-, hstop⟩ pre post s s' heq hs hstep
    by_contra hr
    obtain ⟨message, hfail⟩ := hstop pre post s s' heq hs hstep hr
    -- 範囲の外でも、コードは `terminal_error` を立てずに続ける。
    cases hp : s.pump <;> simp only [step, hp, reduceCtorEq, Option.some.injEq] at hstep
    exact reattached_out_of_range hr message (hstep ▸ hfail)
  · intro hr
    refine ⟨?_, ?_⟩
    · rintro pre post s rfl hs
      refine (Inv.exec ?_ hs).exactlyOnce
      rintro pre' post' s s' rfl hpre hok
      exact hr pre' (post' ++ post) s s' (by simp) hpre hok
    · intro pre post s s' heq hs hstep hn
      exact absurd (hr pre post s s' heq hs hstep) hn

/-- 2 バイトの chunk の書き込みが、1 バイトだけ届いて失敗する。再接続は確定した 1 バイトを読み飛ばさず、
chunk の全体を書き直すので、先頭の 1 バイトが重複する。 -/
theorem not_exactlyOnce_partial_write :
    ¬ ∀ (capacity : Nat) (sessionId : Option SessionId) (es : List Event) (s : State),
      exec capacity sessionId es = some s → (∀ message, s.pump ≠ .failed message) → s.ExactlyOnce := by
  intro h
  have hdup : exec 1024 (some (.fill 16 7)) [.fromCaller [1, 2], .writeErr 1 "lost", .commit 1, .reattachOk,
      .writeOk, .commit 2] = some ⟨⟨⟨[1, 2], 0, 1024⟩, 0, some (.fill 16 7)⟩, false, .idle, ⟨[1, 1, 2], []⟩,
      [1, 2]⟩ := by decide
  have hpre := (h _ _ _ _ hdup (by simp)).1.length_le
  simp at hpre

end State

end IsekaiTerminal.Mobile
