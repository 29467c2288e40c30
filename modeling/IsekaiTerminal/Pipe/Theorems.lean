import IsekaiTerminal.Pipe.Lemmas.H2c

/-!
# 再開できる中継の主結果

最初の接続からの、どの実行でも成り立つ性質を述べる。
-/

namespace IsekaiTerminal.Pipe

open Lib

namespace State

/-! ## client から server への列 -/

/-- どの実行でも、target に書いた列は標準入力から読んだ列の先頭である。`helper_committed_offset` は、書き終えて
まだ数えていない `write` の分だけ書いた長さより小さく、`RESUME_ACK` が運ぶ値は書いた長さと一致する。再開は、その値が
再送のバッファの範囲にあるときだけ受け入れられて、ちょうど続きを再送し、範囲の外なら何も再送せずに失敗する。 -/
theorem c2h_exactly_once {replayCapacity outputCapacity : Nat} {acts : List Act} {s : State}
    (hrun : Run Step (init replayCapacity outputCapacity) acts s) :
    s.target <+: s.stdin ∧
    s.session.helperCommittedOffset ≤ s.target.length ∧
    (s.owner ≠ .closed → s.session.helperCommittedOffset + s.owner.uncounted = s.target.length) ∧
    (∀ conn b bytes, s.owner = .acking conn b bytes → b = s.target.length) ∧
    ∀ conn w b, s.phase = .dialing conn w → s.ack conn = some b →
      s.Step (.client .resumeAcked)
        (if s.replay.startOffset ≤ b ∧ b ≤ s.replay.endOffset then
          { s with phase := .replaying conn b (s.stdin.drop b) }
        else { s.finishC2s conn with phase := if w then .disconnected else .ended }) := by
  have h : s.C2hInv := C2hInv.run (.init replayCapacity outputCapacity) hrun
  refine ⟨h.written, h.counted_le, h.counted, ?_, ?_⟩
  · intro conn b bytes hp
    rw [h.acking conn b bytes hp]
    exact h.counted_eq hp (by simp) rfl
  · intro conn w b hp hack
    simp only [Step, step, clientStep, hp, hack, Option.map_some, Option.some.injEq]
    by_cases hin : s.replay.startOffset ≤ b ∧ b ≤ s.replay.endOffset
    · have hreplay := h.holds.replayFrom_eq_some.mpr ⟨hin.1, hin.2, rfl⟩
      have hrange : committedOffsetOutOfReplayRange s.replay b = false := by
        simp [committedOffsetOutOfReplayRange, hin]
      simp [resumeAccepted, hrange, hreplay, hin]
    · have hout : b < s.replay.startOffset ∨ s.replay.endOffset < b := by omega
      have hrange : committedOffsetOutOfReplayRange s.replay b = true := by
        simpa [committedOffsetOutOfReplayRange] using hout
      cases w <;> simp [resumeAccepted, hrange, ReplayBuffer.replayFrom_eq_none.mpr hout, hin]

/-- 1 つ目の接続が 2 バイト送って失われ、server はそのうち 1 バイトを書いている。2 つ目の接続は、その続きから
再送する。 -/
theorem c2h_exactly_once_resume : ∃ acts s, Run Step (init 64 64) acts s ∧ s.nextConn = 2 ∧
    s.target = [1, 2, 3] ∧ s.stdin = [1, 2, 3] ∧ s.target <+: s.stdin ∧
    s.session.helperCommittedOffset ≤ s.target.length := by
  let acts : List Act :=
    [.client .checkSpace, .client (.readStdin [1, 2, 3]), .client (.sendC2h 2), .server (.readClient 1),
      .server (.writeTarget 1), .server .count, .client (.pumpFailed false), .client (.dial false),
      .server .dataStreamDied, .server (.resumeRequested 1), .server .snapshot, .server .sendAck,
      .client .resumeAcked, .client (.sendReplay 2), .client .controlReestablished, .server (.sendReplay 0),
      .server (.readClient 2), .server (.writeTarget 2), .server .count]
  have heval : (acts.foldlM step (init 64 64)).any
      (fun s => decide (s.nextConn = 2 ∧ s.target = [1, 2, 3] ∧ s.stdin = [1, 2, 3])) = true := by decide
  obtain ⟨s, hs, hend⟩ := (Option.any_eq_true _ _).mp heval
  obtain ⟨hconn, htarget, hstdin⟩ := of_decide_eq_true hend
  have hrun : Run Step (init 64 64) acts s := Run.of_foldlM hs
  obtain ⟨hpre, hle, -⟩ := c2h_exactly_once hrun
  exact ⟨acts, s, hrun, hconn, htarget, hstdin, hpre, hle⟩

/-- `write` が 1 バイトを書いて返ってから、`session` のロックを取って数えるまでの間、数えた位置は書いた長さより
小さい。 -/
theorem not_committed_eq_written : ¬ ∀ (replayCapacity outputCapacity : Nat) (acts : List Act) (s : State),
    Run Step (init replayCapacity outputCapacity) acts s →
      s.target <+: s.stdin ∧ s.session.helperCommittedOffset = s.target.length := by
  intro h
  let acts : List Act :=
    [.client .checkSpace, .client (.readStdin [1]), .client (.sendC2h 1), .server (.readClient 1),
      .server (.writeTarget 1)]
  have heval : (acts.foldlM step (init 64 64)).any
      (fun s => decide (s.session.helperCommittedOffset = 0 ∧ s.target = [1])) = true := by decide
  obtain ⟨s, hs, hend⟩ := (Option.any_eq_true _ _).mp heval
  obtain ⟨hcount, htarget⟩ := of_decide_eq_true hend
  have heq := (h 64 64 acts s (Run.of_foldlM hs)).2
  rw [hcount, htarget] at heq
  cases heq

/-! ## server から client への列 -/

/-- 標準出力に渡した列を数え終える前に再開のために pump を捨てない限り、どの実行でも、標準出力に渡した列は target の
列の先頭である。RESUME が運ぶ `client_delivered_offset` は、渡した長さと一致し、server が再送する列は、そのちょうど
続きである。 -/
theorem h2c_exactly_once {replayCapacity outputCapacity : Nat} {acts : List Act} {s : State}
    (hrun : Run (Guarded Step CountedBeforeResume) (init replayCapacity outputCapacity) acts s) :
    s.stdout <+: s.targetSent ∧
    (∀ conn w, s.phase = .dialing conn w → s.deliveredOffset conn = s.stdout.length) ∧
    ∀ conn w b bytes, s.phase = .dialing conn w → s.owner = .acking conn b bytes →
      s.stdout ++ bytes = s.targetSent := by
  obtain ⟨hc, h⟩ : s.C2hInv ∧ s.H2cInv :=
    H2cInv.run (.init replayCapacity outputCapacity) (.init replayCapacity outputCapacity) hrun
  have hdialing {conn : ConnId} {w : Bool} (hp : s.phase = .dialing conn w) :
      s.deliveredOffset conn = s.stdout.length := by
    obtain ⟨-, hlen, -⟩ := h.receiving conn .readingRemote (by rw [hp]; rfl)
    rw [h.unread conn w hp] at hlen
    exact hlen.symm
  refine ⟨h.delivered, fun conn w hp => hdialing hp, ?_⟩
  intro conn w b bytes hp hack
  obtain ⟨-, hsent⟩ := h.unsent conn bytes (by rw [hack]; rfl)
  -- まだ何も送っていない接続では、再送する列がそのまま続きになる。
  rw [h.silent conn (hc.unacked conn (by rw [hack]; rfl)).1, List.nil_append, hdialing hp] at hsent
  rw [hsent]
  exact prefix_append_drop h.delivered

/-- 受け取った chunk を数え終えてから接続が失われる実行。次の接続は、まだ届いていない 1 バイトだけを再送する。 -/
theorem h2c_exactly_once_resume : ∃ acts s, Run (Guarded Step CountedBeforeResume) (init 64 64) acts s ∧
    s.nextConn = 2 ∧ s.stdout = [1, 2] ∧ s.targetSent = [1, 2] ∧ s.stdout <+: s.targetSent := by
  let acts : List Act :=
    [.server (.readTarget [1, 2]), .server .append, .server (.sendS2c 2), .client (.readRemote 1),
      .client (.writeStdout 1), .client .flushStdout, .client (.pumpFailed false), .client (.dial false),
      .server .dataStreamDied, .server (.resumeRequested 1), .server .snapshot, .server .sendAck,
      .server (.sendReplay 1), .client .resumeAcked, .client (.sendReplay 0), .client .controlReestablished,
      .client (.readRemote 1), .client (.writeStdout 1)]
  have heval : (acts.foldlM checkedStep (init 64 64)).any
      (fun s => decide (s.nextConn = 2 ∧ s.stdout = [1, 2] ∧ s.targetSent = [1, 2])) = true := by decide
  obtain ⟨s, hs, hend⟩ := (Option.any_eq_true _ _).mp heval
  obtain ⟨hconn, hstdout, htarget⟩ := of_decide_eq_true hend
  have hrun : Run (Guarded Step CountedBeforeResume) (init 64 64) acts s :=
    (Run.of_foldlM hs).mono fun _ _ _ h => guarded_of_checkedStep h
  exact ⟨acts, s, hrun, hconn, hstdout, htarget, (h2c_exactly_once hrun).1⟩

/-- 標準出力に渡したバイトを数える前に network の変化で pump が捨てられる。RESUME はそのバイトを受け取っていないと
告げるので、server がもう一度送り、標準出力に重複する。 -/
theorem not_h2c_exactly_once_uncounted :
    ¬ ∀ (replayCapacity outputCapacity : Nat) (acts : List Act) (s : State),
      Run Step (init replayCapacity outputCapacity) acts s →
        s.stdout <+: s.targetSent ∧
          ∀ conn w, s.phase = .dialing conn w → s.deliveredOffset conn = s.stdout.length := by
  intro h
  let acts : List Act :=
    [.server (.readTarget [1]), .server .append, .server (.sendS2c 1), .client (.readRemote 1),
      .client (.writeStdout 1), .client (.pumpFailed false), .client (.dial false), .server .dataStreamDied,
      .server (.resumeRequested 1), .server .snapshot, .server .sendAck, .server (.sendReplay 1),
      .client .resumeAcked, .client (.sendReplay 0), .client .controlReestablished, .client (.readRemote 1),
      .client (.writeStdout 1)]
  have heval : (acts.foldlM step (init 64 64)).any
      (fun s => decide (s.stdout = [1, 1] ∧ s.targetSent = [1])) = true := by decide
  obtain ⟨s, hs, hend⟩ := (Option.any_eq_true _ _).mp heval
  obtain ⟨hstdout, htarget⟩ := of_decide_eq_true hend
  have hpre := (h 64 64 acts s (Run.of_foldlM hs)).1.length_le
  rw [hstdout, htarget] at hpre
  exact absurd hpre (by decide)

end State

end IsekaiTerminal.Pipe
