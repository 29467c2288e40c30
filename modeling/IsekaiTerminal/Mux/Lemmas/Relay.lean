import IsekaiTerminal.Mux.Relay

/-!
# セッションの不変条件
-/

namespace IsekaiTerminal.Mux

open Lib

section

variable {s s' : Session} {r : BreakReason}

/-- 列に `Frame::Exit` は無い。 -/
def NoExit (frames : List OwnerFrame) : Prop := ∀ code, .exit code ∉ frames

/-- 抜けた後に owner がチャネルを閉じる回数。 -/
def BreakReason.closes : BreakReason → Nat
  | .clientGone | .closeDeadline => 1
  | .remoteExitReported | .transportDead => 0

namespace Session

/-- ループを抜けた理由が、起きたことに合っている。 -/
def Explained (s : Session) : BreakReason → Prop
  | .remoteExitReported => s.exitCode.isSome = true ∧ s.remoteEnded = true ∧ s.writeFailed = false
  | .clientGone | .closeDeadline => s.remoteEnded = false ∧ s.writeFailed = false
  | .transportDead => s.exitCode = none ∧ s.remoteEnded = true ∧ s.writeFailed = false ∨
      s.remoteEnded = false ∧ s.writeFailed = true

/-- ループの段階と、閉じた回数。 -/
def Staged (s : Session) : Prop :=
  match s.phase with
  | .relaying =>
      s.reason = none ∧ s.remoteEnded = false ∧ s.writeFailed = false ∧ s.closes = 0 ∧ s.ownerClosed = false
  | .broken r =>
      s.reason = some r ∧ s.Explained r ∧ s.closes = (if r = .closeDeadline then 1 else 0) ∧ s.ownerClosed = false
  | .checking => s.reason = some .transportDead ∧ s.Explained .transportDead ∧ s.closes = 0 ∧ s.ownerClosed = true
  | .done => ∃ r, s.reason = some r ∧ s.Explained r ∧ s.closes = r.closes ∧ s.ownerClosed = true

/-- クライアントに届くもの。`Frame::Exit` は、`TransportDead` のほかの理由の後にだけ届く。 -/
structure Delivered (s : Session) : Prop where
  silent : s.phase = .done ∧ s.reason ≠ some .transportDead ∨
    NoExit s.toClient ∧ ∀ code, s.outcome ≠ some (.exited code)
  quiet : s.connLost = false → s.ownerClosed = false → s.outcome = none
  exit : s.phase = .done → s.reason ≠ some .transportDead → s.connLost = false →
    s.outcome = some (.exited s.finalCode) ∨
      s.outcome = none ∧ ∃ frames, s.toClient = frames ++ [.exit s.finalCode] ∧ NoExit frames

structure SessionInv (s : Session) : Prop where
  staged : s.Staged
  delivered : s.Delivered
  woken : s.woken = true → s.handleClosed = true ∧ (s.remoteEnded = true ∨ s.writeFailed = true)

theorem SessionInv.start : SessionInv start where
  staged := ⟨rfl, rfl, rfl, rfl, rfl⟩
  delivered := by
    refine ⟨Or.inr ⟨?_, ?_⟩, fun _ _ => rfl, ?_⟩
    · intro code h
      cases h
    · intro code h
      cases h
    · intro h
      cases h
  woken := by
    intro h
    cases h

theorem NoExit.concat {frames : List OwnerFrame} {frame : OwnerFrame} (h : NoExit frames)
    (hframe : ∀ code, frame ≠ .exit code) : NoExit (frames ++ [frame]) := by
  intro code hmem
  rcases List.mem_append.mp hmem with hmem | hmem
  · exact h code hmem
  · exact hframe code (List.mem_singleton.mp hmem).symm

/-! ## ループの腕 -/

/-- ループの中では、終わりの報告は届いていない。 -/
theorem SessionInv.relaying (h : SessionInv s) (hphase : s.phase = .relaying) :
    (s.reason = none ∧ s.remoteEnded = false ∧ s.writeFailed = false ∧ s.closes = 0 ∧ s.ownerClosed = false) ∧
      NoExit s.toClient ∧ ∀ code, s.outcome ≠ some (.exited code) := by
  have hstaged := h.staged
  rw [Staged, hphase] at hstaged
  refine ⟨hstaged, h.delivered.silent.resolve_left ?_⟩
  rintro ⟨hdone, _⟩
  cases hphase.symm.trans hdone

/-- ループの 1 歩の後も続くなら、届くものは変わらない。 -/
theorem SessionInv.continue (h : SessionInv s) (hphase : s.phase = .relaying) (hsame : s'.phase = .relaying)
    (hreason : s'.reason = s.reason) (hremote : s'.remoteEnded = s.remoteEnded) (hwrite : s'.writeFailed = s.writeFailed)
    (hcloses : s'.closes = s.closes) (howner : s'.ownerClosed = s.ownerClosed) (houtcome : s'.outcome = s.outcome)
    (hlost : s'.connLost = s.connLost) (hwoken : s'.woken = s.woken) (hclosed : s'.handleClosed = s.handleClosed)
    (hqueue : NoExit s'.toClient) : SessionInv s' := by
  obtain ⟨hstaged, _, hexited⟩ := h.relaying hphase
  refine ⟨?_, ⟨Or.inr ⟨hqueue, ?_⟩, ?_, ?_⟩, ?_⟩
  · rw [Staged, hsame, hreason, hremote, hwrite, hcloses, howner]
    exact hstaged
  · rw [houtcome]
    exact hexited
  · rw [hlost, howner, houtcome]
    exact h.delivered.quiet
  · intro hdone
    cases hsame.symm.trans hdone
  · rw [hwoken, hclosed, hremote, hwrite]
    exact h.woken

/-- ループを抜ける。 -/
theorem SessionInv.break (h : SessionInv s) (hphase : s.phase = .relaying) (hbroken : s'.phase = .broken r)
    (hreason : s'.reason = some r) (hexplained : s'.Explained r) (hcloses : s'.closes = if r = .closeDeadline then 1 else 0)
    (howner : s'.ownerClosed = s.ownerClosed) (houtcome : s'.outcome = s.outcome) (hlost : s'.connLost = s.connLost)
    (hwoken : s'.woken = s.woken) (hqueue : s'.toClient = s.toClient) : SessionInv s' := by
  obtain ⟨hstaged, hsilent, hexited⟩ := h.relaying hphase
  refine ⟨?_, ⟨Or.inr ⟨?_, ?_⟩, ?_, ?_⟩, ?_⟩
  · rw [Staged, hbroken]
    exact ⟨hreason, hexplained, hcloses, howner.trans hstaged.2.2.2.2⟩
  · rw [hqueue]
    exact hsilent
  · rw [houtcome]
    exact hexited
  · rw [hlost, howner, houtcome]
    exact h.delivered.quiet
  · intro hdone
    cases hbroken.symm.trans hdone
  · rw [hwoken]
    intro hset
    rcases (h.woken hset).2 with hremote | hwrite
    · cases hstaged.2.1.symm.trans hremote
    · cases hstaged.2.2.1.symm.trans hwrite

theorem SessionInv.relay (h : SessionInv s) (hphase : s.phase = .relaying) {frame : OwnerFrame} {written : Bool}
    (hframe : ∀ code, frame ≠ .exit code) : SessionInv (s.relay frame written) := by
  obtain ⟨hstaged, hsilent, _⟩ := h.relaying hphase
  cases written with
  | true => exact h.continue hphase hphase rfl rfl rfl rfl rfl rfl rfl rfl rfl (NoExit.concat hsilent hframe)
  | false => exact h.break hphase rfl rfl ⟨hstaged.2.1, hstaged.2.2.1⟩ hstaged.2.2.2.1 rfl rfl rfl rfl rfl

theorem SessionInv.onClientFrame (h : SessionInv s) (hphase : s.phase = .relaying) (written : Bool) (frame : ClientFrame) :
    SessionInv (s.onClientFrame written frame) := by
  obtain ⟨hstaged, hsilent, _⟩ := h.relaying hphase
  cases frame with
  | resize _ _ => exact h
  | ctl _ => exact h
  | shutdown =>
      rw [Session.onClientFrame]
      split
      · exact h
      · exact h.continue hphase hphase rfl rfl rfl rfl rfl rfl rfl rfl rfl hsilent
  | stdin _ =>
      rw [Session.onClientFrame]
      split
      · exact h
      · split
        · exact h
        · exact h.break hphase rfl rfl (Or.inr ⟨hstaged.2.1, rfl⟩) hstaged.2.2.2.1 rfl rfl rfl rfl rfl

theorem SessionInv.onChannelMsg (h : SessionInv s) (hphase : s.phase = .relaying) (written : Bool) (msg : ChannelMsg) :
    SessionInv (s.onChannelMsg written msg) := by
  obtain ⟨hstaged, hsilent, _⟩ := h.relaying hphase
  have hend : SessionInv
      { s.breakWith (if s.exitCode.isSome then .remoteExitReported else .transportDead) with remoteEnded := true } := by
    cases hcode : s.exitCode with
    | some code =>
        have hsome : s.exitCode.isSome = true := by simp [hcode]
        exact h.break hphase rfl rfl ⟨hsome, rfl, hstaged.2.2.1⟩ hstaged.2.2.2.1 rfl rfl rfl rfl rfl
    | none => exact h.break hphase rfl rfl (Or.inl ⟨hcode, rfl, hstaged.2.2.1⟩) hstaged.2.2.2.1 rfl rfl rfl rfl rfl
  cases msg with
  | data _ => exact h.relay hphase (by simp)
  | extendedData _ => exact h.relay hphase (by simp)
  | exitStatus _ => exact h.continue hphase hphase rfl rfl rfl rfl rfl rfl rfl rfl rfl hsilent
  | exitSignal => exact h.continue hphase hphase rfl rfl rfl rfl rfl rfl rfl rfl rfl hsilent
  | eof => exact h
  | other => exact h
  | close => exact hend
  | ended => exact hend

/-! ## 終わり -/

/-- `TransportDead` のほかの理由の始末は、残りのフレームの後に `Frame::Exit` を届ける。 -/
theorem SessionInv.reportExit (h : SessionInv s) (hphase : s.phase = .broken r) (hr : r ≠ .transportDead)
    {written : Bool} (hwritten : written = true ∨ s.connLost = true) {closes : Nat} (hcloses : closes = r.closes) :
    SessionInv (Session.reportExit { s with closes } written) := by
  have hstaged := h.staged
  rw [Staged, hphase] at hstaged
  obtain ⟨hreason, hexplained, _, howner⟩ := hstaged
  have hreason' : s.reason ≠ some .transportDead := by
    rw [hreason]
    exact fun heq => hr (Option.some.inj heq)
  have hsilent := h.delivered.silent.resolve_left fun hdone => by cases hphase.symm.trans hdone.1
  refine ⟨⟨r, hreason, hexplained, hcloses, rfl⟩, ⟨Or.inl ⟨rfl, hreason'⟩, ?_, ?_⟩, h.woken⟩
  · intro _ hopen
    cases hopen
  · intro _ _ hintact
    right
    refine ⟨h.delivered.quiet hintact howner, s.toClient, ?_, hsilent.1⟩
    rcases hwritten with rfl | hlost
    · rfl
    · cases hlost.symm.trans hintact

theorem SessionInv.tearDown (h : SessionInv s) (hphase : s.phase = .broken r) {written : Bool}
    (hwritten : written = true ∨ s.connLost = true) : SessionInv (s.tearDown written r) := by
  have hstaged := h.staged
  rw [Staged, hphase] at hstaged
  obtain ⟨hreason, hexplained, hcloses, _⟩ := hstaged
  cases r with
  | clientGone => exact h.reportExit hphase (by simp) hwritten (congrArg (· + 1) hcloses)
  | remoteExitReported => exact h.reportExit hphase (by simp) hwritten hcloses
  | closeDeadline => exact h.reportExit hphase (by simp) hwritten hcloses
  | transportDead =>
      have hsilent := h.delivered.silent.resolve_left fun hdone => by cases hphase.symm.trans hdone.1
      refine ⟨⟨hreason, hexplained, hcloses, rfl⟩, ⟨Or.inr hsilent, ?_, ?_⟩, h.woken⟩
      · intro _ hopen
        cases hopen
      · intro hdone
        cases hdone

theorem SessionInv.checkShared (h : SessionInv s) (hphase : s.phase = .checking) :
    SessionInv { s with phase := .done, woken := s.woken || s.handleClosed } := by
  have hstaged := h.staged
  rw [Staged, hphase] at hstaged
  obtain ⟨hreason, hexplained, hcloses, howner⟩ := hstaged
  have hsilent := h.delivered.silent.resolve_left fun hdone => by cases hphase.symm.trans hdone.1
  refine ⟨⟨.transportDead, hreason, hexplained, hcloses, howner⟩, ⟨Or.inr hsilent, h.delivered.quiet, ?_⟩, ?_⟩
  · intro _ hne
    exact absurd hreason hne
  · intro hwoken
    rw [Bool.or_eq_true] at hwoken
    rcases hwoken with hwoken | hclosed
    · exact h.woken hwoken
    · refine ⟨hclosed, ?_⟩
      rcases hexplained with ⟨_, hremote, _⟩ | ⟨_, hwrite⟩
      · exact Or.inl hremote
      · exact Or.inr hwrite

/-! ## クライアント -/

/-- 受け取る前のフレームの列。 -/
theorem SessionInv.clientReceive (h : SessionInv s) {frame : OwnerFrame} {rest : List OwnerFrame}
    (hqueue : s.toClient = frame :: rest) (hrunning : s.outcome = none) :
    SessionInv (Session.onOwnerFrame { s with toClient := rest } frame) := by
  have hexit (hdone : s.phase = .done) (hreason : s.reason ≠ some .transportDead) (hintact : s.connLost = false) :
      ∃ frames, frame :: rest = frames ++ [.exit s.finalCode] ∧ NoExit frames := by
    rcases h.delivered.exit hdone hreason hintact with hexited | ⟨_, frames, heq, hno⟩
    · cases hrunning.symm.trans hexited
    · exact ⟨frames, hqueue.symm.trans heq, hno⟩
  -- `Frame::Exit` でないフレームは、クライアントを終わらせない。
  have hother (hframe : ∀ code, frame ≠ .exit code) : SessionInv { s with toClient := rest } := by
    refine ⟨h.staged, ⟨?_, h.delivered.quiet, ?_⟩, h.woken⟩
    · rcases h.delivered.silent with hdone | ⟨hno, hexited⟩
      · exact Or.inl hdone
      · exact Or.inr ⟨fun code hmem => hno code (hqueue ▸ List.mem_cons_of_mem _ hmem), hexited⟩
    · intro hdone hreason hintact
      obtain ⟨frames, heq, hno⟩ := hexit hdone hreason hintact
      right
      refine ⟨hrunning, ?_⟩
      cases frames with
      | nil => exact absurd (List.cons.inj heq).1 (hframe _)
      | cons frame' frames =>
          exact ⟨frames, (List.cons.inj heq).2, fun code hmem => hno code (List.mem_cons_of_mem _ hmem)⟩
  cases frame with
  | stdout _ => exact hother (by simp)
  | stderr _ => exact hother (by simp)
  | ctl _ => exact hother (by simp)
  | exit code =>
      have hdone : s.phase = .done ∧ s.reason ≠ some .transportDead := by
        refine h.delivered.silent.resolve_right ?_
        rintro ⟨hno, _⟩
        exact hno code (hqueue ▸ List.mem_cons_self)
      refine ⟨h.staged, ⟨Or.inl hdone, ?_, ?_⟩, h.woken⟩
      · intro _ hopen
        have hstaged := h.staged
        rw [Staged, hdone.1] at hstaged
        obtain ⟨_, _, _, _, howner⟩ := hstaged
        cases howner.symm.trans hopen
      · intro _ hreason hintact
        left
        obtain ⟨frames, heq, hno⟩ := hexit hdone.1 hreason hintact
        cases frames with
        | nil =>
            obtain ⟨hcode, _⟩ := List.cons.inj heq
            cases hcode
            rfl
        | cons frame' frames =>
            obtain ⟨hframe, _⟩ := List.cons.inj heq
            exact absurd (hframe ▸ List.mem_cons_self) (hno code)

theorem SessionInv.clientEof (h : SessionInv s)
    (heof : s.connLost = true ∨ s.toClient = [] ∧ s.ownerClosed = true) (hrunning : s.outcome = none) :
    SessionInv { s with outcome := some .ownerLost } := by
  refine ⟨h.staged, ⟨?_, ?_, ?_⟩, h.woken⟩
  · rcases h.delivered.silent with hdone | ⟨hno, _⟩
    · exact Or.inl hdone
    · exact Or.inr ⟨hno, by simp⟩
  · intro hintact hopen
    rcases heof with hlost | ⟨_, hclosed⟩
    · cases hlost.symm.trans hintact
    · cases hclosed.symm.trans hopen
  · intro hdone hreason hintact
    exfalso
    rcases heof with hlost | ⟨hempty, _⟩
    · cases hlost.symm.trans hintact
    · rcases h.delivered.exit hdone hreason hintact with hexited | ⟨_, frames, heq, _⟩
      · cases hrunning.symm.trans hexited
      · exact List.cons_ne_nil _ _ ((List.append_eq_nil_iff.mp (heq.symm.trans hempty)).2)

/-- 送り出しは、届くものを変えない。 -/
theorem SessionInv.of_sent (h : SessionInv s) {toOwner : List ClientFrame} {stdinOpen : Bool} :
    SessionInv { s with toOwner, stdinOpen } := ⟨h.staged, ⟨h.delivered.silent, h.delivered.quiet, h.delivered.exit⟩, h.woken⟩

/-! ## 実行 -/

theorem clientReceive_cases (hs : s.clientStep .clientReceive = some s') :
    ∃ frame rest, s.toClient = frame :: rest ∧ s' = onOwnerFrame { s with toClient := rest } frame := by
  unfold Session.clientStep at hs
  dsimp only at hs
  split at hs
  · cases hs
  · exact ⟨_, _, ‹_›, (Option.some.inj hs).symm⟩

theorem SessionInv.clientStep (h : SessionInv s) (hrunning : s.outcome = none) {a : SessionAction}
    (hs : s.clientStep a = some s') : SessionInv s' := by
  cases a with
  | typed data =>
      obtain ⟨_, hs⟩ := Option.ite_none_right_eq_some.mp hs
      cases hs
      exact h.of_sent
  | localEof =>
      obtain ⟨_, hs⟩ := Option.ite_none_right_eq_some.mp hs
      cases hs
      exact h.of_sent
  | resized _ _ =>
      cases hs
      exact h.of_sent
  | buildOutput _ =>
      cases hs
      exact h.of_sent
  | clientWriteFailed =>
      obtain ⟨_, hs⟩ := Option.ite_none_right_eq_some.mp hs
      cases hs
      exact h.of_sent
  | clientReceive =>
      obtain ⟨frame, rest, hqueue, rfl⟩ := clientReceive_cases hs
      exact h.clientReceive hqueue hrunning
  | clientEof =>
      obtain ⟨heof, hs⟩ := Option.ite_none_right_eq_some.mp hs
      cases hs
      exact h.clientEof heof hrunning
  | _ => cases hs

theorem SessionInv.relayStep (h : SessionInv s) (hphase : s.phase = .relaying) {a : SessionAction}
    (hs : s.relayStep a = some s') : SessionInv s' := by
  obtain ⟨hstaged, _, _⟩ := h.relaying hphase
  cases a with
  | ownerReceive written =>
      cases hqueue : s.toOwner with
      | nil => simp [Session.relayStep, hqueue] at hs
      | cons frame rest =>
          have hrest : SessionInv { s with toOwner := rest } := h.of_sent
          rw [Session.relayStep, hqueue] at hs
          exact Option.some.inj hs ▸ hrest.onClientFrame hphase written frame
  | ownerReadEnded =>
      cases hs
      exact h.break hphase rfl rfl ⟨hstaged.2.1, hstaged.2.2.1⟩ hstaged.2.2.2.1 rfl rfl rfl rfl rfl
  | remote msg written =>
      cases hs
      exact h.onChannelMsg hphase written msg
  | ctl event written =>
      cases hs
      cases event with
      | write bytes => exact h.relay hphase (by simp)
      | other => exact h
  | closeDeadline =>
      cases hdone : s.stdinDoneAt with
      | none => simp [Session.relayStep, hdone] at hs
      | some t =>
          simp only [Session.relayStep, hdone, Option.ite_none_right_eq_some, Option.some.injEq] at hs
          obtain ⟨_, hs⟩ := hs
          cases hs
          exact h.break hphase rfl rfl ⟨hstaged.2.1, hstaged.2.2.1⟩ (congrArg (· + 1) hstaged.2.2.2.1) rfl rfl rfl rfl rfl
  | _ => cases hs

theorem SessionInv.endStep (h : SessionInv s) {a : SessionAction} (hs : s.endStep a = some s') : SessionInv s' := by
  cases a with
  | teardown written =>
      cases hphase : s.phase with
      | broken r =>
          simp only [Session.endStep, hphase, Option.ite_none_right_eq_some, Option.some.injEq] at hs
          obtain ⟨hwritten, hs⟩ := hs
          cases hs
          exact h.tearDown hphase hwritten
      | relaying | checking | done => simp [Session.endStep, hphase] at hs
  | checkShared =>
      obtain ⟨hphase, hs⟩ := Option.ite_none_right_eq_some.mp hs
      cases hs
      exact h.checkShared hphase
  | _ => cases hs

theorem SessionInv.step {a : SessionAction} (h : SessionInv s) (hs : s.Steps a s') : SessionInv s' := by
  cases a with
  | elapse _ =>
      cases hs
      exact ⟨h.staged, ⟨h.delivered.silent, h.delivered.quiet, h.delivered.exit⟩, h.woken⟩
  | closeHandle =>
      cases hs
      exact ⟨h.staged, ⟨h.delivered.silent, h.delivered.quiet, h.delivered.exit⟩, fun hwoken => ⟨rfl, (h.woken hwoken).2⟩⟩
  | loseConnection =>
      cases hs
      refine ⟨h.staged, ⟨h.delivered.silent, ?_, ?_⟩, h.woken⟩
      · intro hintact
        cases hintact
      · intro _ _ hintact
        cases hintact
  | typed _ | localEof | resized _ _ | buildOutput _ | clientWriteFailed | clientReceive | clientEof =>
      obtain ⟨hrunning, hs⟩ := Option.ite_none_right_eq_some.mp hs
      exact h.clientStep hrunning hs
  | ownerReceive _ | ownerReadEnded | remote _ _ | ctl _ _ | closeDeadline =>
      obtain ⟨hphase, hs⟩ := Option.ite_none_right_eq_some.mp hs
      exact h.relayStep hphase hs
  | teardown written =>
      have hend : s.endStep (.teardown written) = some s' := hs
      exact h.endStep hend
  | checkShared =>
      have hend : s.endStep .checkShared = some s' := hs
      exact h.endStep hend

theorem sessionInv_of_run {as : List SessionAction} (h : Run Steps start as s) : SessionInv s :=
  Run.invariant (fun _ _ _ hinv hs => hinv.step hs) h .start

/-! ## チャネルへの書き込み -/

theorem clientStep_writeFailed {a : SessionAction} (hs : s.clientStep a = some s') : s'.writeFailed = s.writeFailed := by
  cases a with
  | clientReceive =>
      obtain ⟨frame, _, _, rfl⟩ := clientReceive_cases hs
      cases frame <;> rfl
  | typed _ | localEof | clientWriteFailed | clientEof =>
      obtain ⟨_, hs⟩ := Option.ite_none_right_eq_some.mp hs
      cases hs
      rfl
  | resized _ _ | buildOutput _ =>
      cases hs
      rfl
  | _ => cases hs

theorem relay_writeFailed (s : Session) (frame : OwnerFrame) (written : Bool) :
    (s.relay frame written).writeFailed = s.writeFailed := by
  cases written <;> rfl

theorem onClientFrame_writeFailed {frame : ClientFrame} {written : Bool} (h : s.writeFailed = false)
    (hw : ∀ data, frame = .stdin data → written = true) : (s.onClientFrame written frame).writeFailed = false := by
  cases frame with
  | stdin data =>
      obtain rfl := hw data rfl
      simp [onClientFrame, h]
  | shutdown => by_cases hdone : s.stdinDone = true <;> simp [onClientFrame, hdone, h]
  | resize _ _ | ctl _ => exact h

theorem relayStep_writeFailed {a : SessionAction} (h : s.writeFailed = false) (hs : s.relayStep a = some s')
    (hw : s.Written a) : s'.writeFailed = false := by
  cases a with
  | ownerReceive written =>
      cases hqueue : s.toOwner with
      | nil => simp [Session.relayStep, hqueue] at hs
      | cons frame rest =>
          rw [Session.relayStep, hqueue] at hs
          rw [← Option.some.inj hs]
          refine onClientFrame_writeFailed h ?_
          rintro data rfl
          simpa [Written, hqueue] using hw
  | ownerReadEnded =>
      cases hs
      exact h
  | remote msg written =>
      cases hs
      cases msg with
      | data _ | extendedData _ => exact (relay_writeFailed ..).trans h
      | _ => exact h
  | ctl event written =>
      cases hs
      cases event with
      | write _ => exact (relay_writeFailed ..).trans h
      | other => exact h
  | closeDeadline =>
      cases hdone : s.stdinDoneAt with
      | none => simp [Session.relayStep, hdone] at hs
      | some t =>
          simp only [Session.relayStep, hdone, Option.ite_none_right_eq_some, Option.some.injEq] at hs
          obtain ⟨_, hs⟩ := hs
          cases hs
          exact h
  | _ => cases hs

theorem endStep_writeFailed {a : SessionAction} (hs : s.endStep a = some s') : s'.writeFailed = s.writeFailed := by
  cases a with
  | teardown written =>
      cases hphase : s.phase with
      | broken r =>
          simp only [Session.endStep, hphase, Option.ite_none_right_eq_some, Option.some.injEq] at hs
          obtain ⟨_, hs⟩ := hs
          cases hs
          cases r <;> rfl
      | relaying | checking | done => simp [Session.endStep, hphase] at hs
  | checkShared =>
      obtain ⟨_, hs⟩ := Option.ite_none_right_eq_some.mp hs
      cases hs
      rfl
  | _ => cases hs

theorem writeFailed_of_written {a : SessionAction} (h : s.writeFailed = false) (hs : s.Steps a s') (hw : s.Written a) :
    s'.writeFailed = false := by
  cases a with
  | elapse _ | closeHandle | loseConnection =>
      cases hs
      exact h
  | typed _ | localEof | resized _ _ | buildOutput _ | clientWriteFailed | clientReceive | clientEof =>
      obtain ⟨_, hs⟩ := Option.ite_none_right_eq_some.mp hs
      exact (clientStep_writeFailed hs).trans h
  | ownerReceive _ | ownerReadEnded | remote _ _ | ctl _ _ | closeDeadline =>
      obtain ⟨_, hs⟩ := Option.ite_none_right_eq_some.mp hs
      exact relayStep_writeFailed h hs hw
  | teardown written =>
      have hend : s.endStep (.teardown written) = some s' := hs
      exact (endStep_writeFailed hend).trans h
  | checkShared =>
      have hend : s.endStep .checkShared = some s' := hs
      exact (endStep_writeFailed hend).trans h

end Session

end

/-!
## ループを抜けた後の実行
-/

section

variable {s s' : Session} {code : UInt8}

namespace Session

/-- 残りの歩数の上限。 -/
def rank (s : Session) : Nat :=
  s.toClient.length + match s.phase with
    | .relaying | .done => 0
    | .broken _ => 2
    | .checking => 1

inductive Drained (s : Session) : Session → Prop
  | receive {frame rest} (hrunning : s.outcome = none) (hqueue : s.toClient = frame :: rest) :
      Drained s (onOwnerFrame { s with toClient := rest } frame)
  | eof (hrunning : s.outcome = none) (h : s.connLost = true ∨ s.toClient = [] ∧ s.ownerClosed = true) :
      Drained s { s with outcome := some .ownerLost }
  | teardown {written r} (hphase : s.phase = .broken r) (hwritten : written = true ∨ s.connLost = true) :
      Drained s (s.tearDown written r)
  | checkShared (hphase : s.phase = .checking) :
      Drained s { s with phase := .done, woken := s.woken || s.handleClosed }

theorem drained_of_drain {a : SessionAction} (h : Drain s a s') : Drained s s' := by
  obtain ⟨hs, ha⟩ := h
  cases a with
  | clientReceive =>
      obtain ⟨hrunning, hs⟩ := Option.ite_none_right_eq_some.mp hs
      obtain ⟨frame, rest, hqueue, rfl⟩ := clientReceive_cases hs
      exact .receive hrunning hqueue
  | clientEof =>
      obtain ⟨hrunning, hs⟩ := Option.ite_none_right_eq_some.mp hs
      obtain ⟨heof, hs⟩ := Option.ite_none_right_eq_some.mp hs
      cases hs
      exact .eof hrunning heof
  | teardown written =>
      have hend : s.endStep (.teardown written) = some s' := hs
      cases hphase : s.phase with
      | broken r =>
          simp only [Session.endStep, hphase, Option.ite_none_right_eq_some, Option.some.injEq] at hend
          obtain ⟨hwritten, rfl⟩ := hend
          exact .teardown hphase hwritten
      | relaying | checking | done => simp [Session.endStep, hphase] at hend
  | checkShared =>
      have hend : s.endStep .checkShared = some s' := hs
      obtain ⟨hphase, hend⟩ := Option.ite_none_right_eq_some.mp hend
      cases hend
      exact .checkShared hphase
  | _ => cases ha

/-- ループを抜けた後のクライアントは、届いたフレームを読める。 -/
theorem exists_receive (hrunning : s.outcome = none) (hqueue : s.toClient ≠ []) : ∃ a s', Drain s a s' := by
  cases hframes : s.toClient with
  | nil => exact absurd hframes hqueue
  | cons frame rest =>
      refine ⟨.clientReceive, onOwnerFrame { s with toClient := rest } frame, ?_, rfl⟩
      unfold Steps Session.step Session.clientStep
      simp [hrunning, hframes]

theorem exists_eof (hrunning : s.outcome = none) (h : s.toClient = [] ∧ s.ownerClosed = true) : ∃ a s', Drain s a s' := by
  refine ⟨.clientEof, { s with outcome := some .ownerLost }, ?_, rfl⟩
  unfold Steps Session.step Session.clientStep
  simp [hrunning, h]

theorem exists_teardown {r : BreakReason} (hphase : s.phase = .broken r) : ∃ a s', Drain s a s' := by
  refine ⟨.teardown true, s.tearDown true r, ?_, rfl⟩
  unfold Steps Session.step Session.endStep
  simp [hphase]

theorem exists_checkShared (hphase : s.phase = .checking) : ∃ a s', Drain s a s' := by
  refine ⟨.checkShared, { s with phase := .done, woken := s.woken || s.handleClosed }, ?_, rfl⟩
  unfold Steps Session.step Session.endStep
  simp [hphase]

/-- ループを抜けた後の 1 歩は、報告と、起きた失敗を変えない。 -/
theorem Drained.kept (h : Drained s s') (hended : s.phase ≠ .relaying) :
    s'.phase ≠ .relaying ∧ s'.exitCode = s.exitCode ∧ s'.connLost = s.connLost ∧ s'.writeFailed = s.writeFailed ∧
      s'.remoteEnded = s.remoteEnded := by
  cases h with
  | @receive frame _ _ _ => cases frame <;> exact ⟨hended, rfl, rfl, rfl, rfl⟩
  | eof _ _ => exact ⟨hended, rfl, rfl, rfl, rfl⟩
  | @teardown _ r _ _ => cases r <;> exact ⟨by simp [tearDown, reportExit], rfl, rfl, rfl, rfl⟩
  | checkShared _ => exact ⟨by simp, rfl, rfl, rfl, rfl⟩

/-- クライアントが終わらない 1 歩は、残りの歩数を減らす。 -/
theorem Drained.rank_lt (h : Drained s s') (hrunning : s'.outcome = none) : s'.rank < s.rank := by
  cases h with
  | @receive frame _ _ hqueue =>
      cases frame with
      | exit _ => cases hrunning
      | stdout _ | stderr _ | ctl _ => simp [rank, onOwnerFrame, hqueue]
  | eof _ _ => cases hrunning
  | @teardown written r hphase _ =>
      have hlength : ((if written then s.toClient ++ [.exit s.finalCode] else s.toClient) : List OwnerFrame).length ≤
          s.toClient.length + 1 := by
        cases written <;> simp
      cases r with
      | clientGone | remoteExitReported | closeDeadline =>
          simp only [rank, hphase, tearDown, closeChannel, reportExit, finalCode] at hlength ⊢
          omega
      | transportDead => simp [rank, hphase, tearDown]
  | checkShared hphase => simp [rank, hphase]

/-! ## 報告された終わり -/

/-- 終わりが報告され、チャネルへの書き込みは失敗せず、接続が在る。 -/
structure Reported (code : UInt8) (s : Session) : Prop where
  inv : SessionInv s
  ended : s.phase ≠ .relaying
  intact : s.connLost = false
  reported : s.exitCode = some code
  written : s.writeFailed = false

theorem Reported.not_transportDead (h : Reported code s) : ¬ s.Explained .transportDead := by
  rintro (⟨hcode, _⟩ | ⟨_, hfailed⟩)
  · cases h.reported.symm.trans hcode
  · cases h.written.symm.trans hfailed

/-- 抜けた直後のクライアントは待っており、始末の後は、終わりを受け取ったか、これから受け取る。 -/
theorem Reported.cases (h : Reported code s) :
    (∃ r, s.phase = .broken r) ∧ s.outcome = none ∧ s.ownerClosed = false ∨
      s.phase = .done ∧ (s.outcome = some (.exited code) ∨
        s.outcome = none ∧ ∃ frames, s.toClient = frames ++ [.exit code] ∧ NoExit frames) := by
  have hstaged := h.inv.staged
  cases hphase : s.phase with
  | relaying => exact absurd hphase h.ended
  | broken r =>
      rw [Staged, hphase] at hstaged
      exact Or.inl ⟨⟨r, rfl⟩, h.inv.delivered.quiet h.intact hstaged.2.2.2, hstaged.2.2.2⟩
  | checking =>
      rw [Staged, hphase] at hstaged
      exact absurd hstaged.2.1 h.not_transportDead
  | done =>
      rw [Staged, hphase] at hstaged
      obtain ⟨r, hreason, hexplained, _⟩ := hstaged
      have hdead : s.reason ≠ some .transportDead := by
        rw [hreason]
        rintro ⟨⟩
        exact h.not_transportDead hexplained
      have hexit := h.inv.delivered.exit hphase hdead h.intact
      rw [finalCode, h.reported] at hexit
      exact Or.inr ⟨rfl, hexit⟩

theorem Reported.inevitable (h : Reported code s) :
    Inevitable Drain (fun s => s.outcome = some (.exited code)) s := by
  refine Inevitable.of_rank Nat.lt_wfRel.wf rank (I := Reported code) ?_ ?_ h
  · intro s h hexited
    rcases h.cases with ⟨⟨r, hphase⟩, _⟩ | ⟨_, hdone | ⟨hrunning, frames, hqueue, _⟩⟩
    · exact exists_teardown hphase
    · exact absurd hdone hexited
    · exact exists_receive hrunning (by simp [hqueue])
  · intro s a s' h hexited hstep
    have hdrained := drained_of_drain hstep
    obtain ⟨hended, hcode, hlost, hfailed, _⟩ := hdrained.kept h.ended
    have h' : Reported code s' :=
      ⟨h.inv.step hstep.1, hended, hlost.trans h.intact, hcode.trans h.reported, hfailed.trans h.written⟩
    refine ⟨h', ?_⟩
    rcases h'.cases with ⟨_, hrunning, _⟩ | ⟨_, hdone | ⟨hrunning, _⟩⟩
    · exact Or.inr (hdrained.rank_lt hrunning)
    · exact Or.inl hdone
    · exact Or.inr (hdrained.rank_lt hrunning)

/-! ## 報告の無い終わり -/

/-- 終わりは報告されず、リモートがチャネルを閉じたか、チャネルへの書き込みが失敗した。 -/
structure Unreported (s : Session) : Prop where
  inv : SessionInv s
  ended : s.phase ≠ .relaying
  unreported : s.exitCode = none
  failed : s.remoteEnded = true ∨ s.writeFailed = true

/-- 抜けた理由は `TransportDead` である。 -/
theorem Unreported.transportDead {r : BreakReason} (h : Unreported s) (hexplained : s.Explained r) : r = .transportDead := by
  cases r with
  | transportDead => rfl
  | remoteExitReported =>
      rw [Explained, h.unreported] at hexplained
      cases hexplained.1
  | clientGone | closeDeadline =>
      obtain ⟨hremote, hwritten⟩ := hexplained
      rcases h.failed with hended | hfailed
      · cases hremote.symm.trans hended
      · cases hwritten.symm.trans hfailed

theorem Unreported.silent (h : Unreported s) : NoExit s.toClient ∧ ∀ code, s.outcome ≠ some (.exited code) := by
  refine h.inv.delivered.silent.resolve_left ?_
  rintro ⟨hdone, hreason⟩
  have hstaged := h.inv.staged
  rw [Staged, hdone] at hstaged
  obtain ⟨r, heq, hexplained, _⟩ := hstaged
  rw [heq, h.transportDead hexplained] at hreason
  exact hreason rfl

theorem Unreported.running (h : Unreported s) (hlost : s.outcome ≠ some .ownerLost) : s.outcome = none := by
  cases houtcome : s.outcome with
  | none => rfl
  | some outcome =>
      cases outcome with
      | exited code => exact absurd houtcome (h.silent.2 code)
      | ownerLost => exact absurd houtcome hlost

theorem Unreported.inevitable (h : Unreported s) : Inevitable Drain (fun s => s.outcome = some .ownerLost) s := by
  refine Inevitable.of_rank Nat.lt_wfRel.wf rank (I := Unreported) ?_ ?_ h
  · intro s h hlost
    have hstaged := h.inv.staged
    cases hphase : s.phase with
    | relaying => exact absurd hphase h.ended
    | broken r => exact exists_teardown hphase
    | checking => exact exists_checkShared hphase
    | done =>
        rw [Staged, hphase] at hstaged
        obtain ⟨_, _, _, _, hclosed⟩ := hstaged
        by_cases hqueue : s.toClient = []
        · exact exists_eof (h.running hlost) ⟨hqueue, hclosed⟩
        · exact exists_receive (h.running hlost) hqueue
  · intro s a s' h hlost hstep
    have hdrained := drained_of_drain hstep
    obtain ⟨hended, hcode, _, hfailed, hremote⟩ := hdrained.kept h.ended
    have h' : Unreported s' :=
      ⟨h.inv.step hstep.1, hended, hcode.trans h.unreported, by rw [hremote, hfailed]; exact h.failed⟩
    refine ⟨h', ?_⟩
    by_cases hlost' : s'.outcome = some .ownerLost
    · exact Or.inl hlost'
    · exact Or.inr (hdrained.rank_lt (h'.running hlost'))

end Session

end

end IsekaiTerminal.Mux
