import IsekaiTerminal.SessionLoop.Loop
import IsekaiTerminal.Emulator.Lemmas.Restructure

/-!
# 1 回の反復の形
-/

namespace IsekaiTerminal.SessionLoop

open Lib Emulator Trzsz

section

variable {π : Type} {x : Externals π} {l l' : Loop π}

namespace Loop

/-! ## `select!` の結果 -/

/-- `select!` の結果。 -/
inductive Selected (x : Externals π) (l : Loop π) : Action → Option ProcessResult → Loop π → Prop
  | stop : Selected x l (.event .disconnected) none { l with running := false }
  | idle {a : Action} {r : Option ProcessResult} (hr : r = none ∨ r = some .default) : Selected x l a r l
  | op {a : Action} {op : SessionState.Op} {r : Emulator.ProcessResult} {session : SessionState}
      (hop : opOf a = some op) (h : l.session.apply x.env op = some (r, session)) :
      Selected x l a (some ⟨[], r.screenDirty⟩) { l with session, regionStart := regionAfter x.env l op }
  | fsm {a : Action} {i : TrzszInput} {r : Emulator.ProcessResult} {session : SessionState}
      (hi : l.inputOf a = some i)
      (h : l.session.apply x.env (.stdout (l.parsed x i).2) = some (r, session)) :
      Selected x l a
        (some ⟨(l.reaction x i).2.timers,
          !((l.reaction x i).2.actions.filterMap flushed).isEmpty && r.screenDirty⟩)
        { l.dequeued a with
          session
          regionStart := regionAfter x.env l (.stdout (l.parsed x i).2)
          fsm := (l.reaction x i).1
          parser := (l.parsed x i).1 }
  | stale {gen : Nat} {rx : List Nat} (hrx : l.safety.rx = gen :: rx) (hgen : l.safety.armedGeneration ≠ some gen) :
      Selected x l .safetyTimeout none { l with safety := { l.safety with rx } }
  | force {gen : Nat} {rx : List Nat} {r : Emulator.ProcessResult} {session : SessionState}
      (hrx : l.safety.rx = gen :: rx) (hgen : l.safety.armedGeneration = some gen)
      (h : l.session.apply x.env .forceEndSynchronizedOutput = some (r, session)) :
      Selected x l .safetyTimeout (some ⟨[], r.screenDirty⟩)
        { l with
          session
          safety := { l.safety with rx }
          regionStart := none
          forced := (l.regionStart.toList.map fun s => (s, l.now)) ++ l.forced }
  | repaint {deadline : Nat} {l' : Loop π} (hd : l.throttle.armedDeadline = some deadline) (hle : deadline ≤ l.now)
      (h : l.emitScreenUpdate = some l') : Selected x l .repaint none l'

theorem applyOp_eq_some {op : SessionState.Op} {r : ProcessResult} (h : l.applyOp x op = some (r, l')) :
    ∃ r' session, l.session.apply x.env op = some (r', session) ∧ r = ⟨[], r'.screenDirty⟩ ∧
      l' = { l with session, regionStart := regionAfter x.env l op } := by
  obtain ⟨⟨r', session⟩, happly, h⟩ := Option.bind_eq_some_iff.mp h
  cases h
  exact ⟨r', session, happly, rfl, rfl⟩

theorem selected_of_applyOp {a : Action} {op : SessionState.Op} {r : Option ProcessResult} (hop : opOf a = some op)
    (h : ((l.applyOp x op).map fun r => (some r.1, r.2)) = some (r, l')) : Selected x l a r l' := by
  obtain ⟨⟨r', l''⟩, happly, h⟩ := Option.map_eq_some_iff.mp h
  cases h
  obtain ⟨r'', session, hsome, rfl, rfl⟩ := applyOp_eq_some happly
  exact .op hop hsome

theorem selected_of_onFsm {a : Action} {i : TrzszInput} {r : Option ProcessResult} (hi : l.inputOf a = some i)
    (h : (((l.dequeued a).onFsm x i).map fun r => (some r.1, r.2)) = some (r, l')) : Selected x l a r l' := by
  have hsame : (l.dequeued a).session = l.session ∧ (l.dequeued a).fsm = l.fsm ∧ (l.dequeued a).now = l.now ∧
      (l.dequeued a).parser = l.parser ∧ (l.dequeued a).regionStart = l.regionStart := by
    cases a <;> exact ⟨rfl, rfl, rfl, rfl, rfl⟩
  have hreaction : (l.dequeued a).reaction x i = l.reaction x i := by rw [reaction, hsame.2.1]; rfl
  have hparsed : (l.dequeued a).parsed x i = l.parsed x i := by
    rw [parsed, hreaction, hsame.2.2.1, hsame.2.2.2.1]
    rfl
  obtain ⟨⟨r', l''⟩, hfsm, h⟩ := Option.map_eq_some_iff.mp h
  cases h
  obtain ⟨⟨r'', l₁⟩, happly, h⟩ := Option.bind_eq_some_iff.mp hfsm
  cases h
  obtain ⟨r₁, session, hsome, rfl, rfl⟩ := applyOp_eq_some happly
  rw [hreaction, hparsed]
  rw [hparsed, hsame.1] at hsome
  have hregion : regionAfter x.env (l.dequeued a) (.stdout (l.parsed x i).2) =
      regionAfter x.env l (.stdout (l.parsed x i).2) := by
    simp only [regionAfter, hsame]
  rw [hregion]
  exact .fsm hi hsome

theorem selected_of_select {a : Action} {r : Option ProcessResult} (h : l.select x a = some (r, l')) :
    Selected x l a r l' := by
  cases a with
  | elapse d => cases h
  | timerTask => cases h
  | safetyTask => cases h
  | flushStdin =>
      cases h
      exact .idle (Or.inl rfl)
  | event ev =>
      cases ev with
      | stdout bytes => exact selected_of_onFsm rfl h
      | resized cols rows => exact selected_of_applyOp rfl h
      | disconnected =>
          cases h
          exact .stop
      | other =>
          cases h
          exact .idle (Or.inl rfl)
      | ctlMessage msg =>
          cases msg with
          | setTitle value => exact selected_of_applyOp rfl h
          | setTabColor rgb => exact selected_of_applyOp rfl h
          | setProgress state progress => exact selected_of_applyOp rfl h
          | notify kind => exact selected_of_applyOp rfl h
          | other =>
              cases h
              exact .idle (Or.inl rfl)
  | timeout =>
      cases hrx : l.timers.rx with
      | nil => simp [select, hrx] at h
      | cons id rx =>
          simp only [select, hrx] at h
          refine selected_of_onFsm (i := .timeout id) (by simp [inputOf, hrx]) ?_
          simpa [dequeued, hrx] using h
  | command cmd =>
      cases cmd with
      | trzszAcceptUpload transferId fileName fileSize => exact selected_of_onFsm rfl h
      | trzszChunk transferId data isLast => exact selected_of_onFsm rfl h
      | trzszAcceptDownload transferId => exact selected_of_onFsm rfl h
      | trzszCancel transferId => exact selected_of_onFsm rfl h
      | setTheme theme => exact selected_of_applyOp rfl h
      | setPanelEnabled enabled => exact selected_of_applyOp rfl h
      | query =>
          cases h
          exact .idle (Or.inr rfl)
  | safetyTimeout =>
      cases hrx : l.safety.rx with
      | nil => simp [select, hrx] at h
      | cons gen rx =>
          simp only [select, hrx] at h
          split at h
          · rename_i hgen
            obtain ⟨⟨r', l''⟩, happly, h⟩ := Option.map_eq_some_iff.mp h
            cases h
            obtain ⟨r'', session, hsome, rfl, rfl⟩ := applyOp_eq_some happly
            exact .force hrx (of_decide_eq_true hgen) hsome
          · rename_i hgen
            cases h
            exact .stale hrx fun heq => hgen (decide_eq_true heq)
  | repaint =>
      cases hd : l.throttle.armedDeadline with
      | none => simp [select, hd] at h
      | some deadline =>
          simp only [select, hd] at h
          split at h
          · rename_i hle
            obtain ⟨l'', hemit, h⟩ := Option.map_eq_some_iff.mp h
            cases h
            exact .repaint hd hle hemit
          · cases h

/-! ## 1 回の遷移 -/

def dirtyOf (r : Option ProcessResult) : Bool := r.any (·.screenDirty)

def timerCmdsOf (r : Option ProcessResult) : List (TimerCommand TrzszTimer) := (r.map (·.timerCmds)).getD []

/-- 末尾の画面の反映。 -/
inductive Settled (l : Loop π) : Bool → Loop π → Prop
  | clean : Settled l false l
  | dirty {l' : Loop π} (h : l.noteDirty = some l') : Settled l true l'

inductive Stepped (x : Externals π) (l : Loop π) : Action → Loop π → Prop
  | elapse (duration : Nat) : Stepped x l (.elapse duration) { l with now := l.now + duration }
  | timerTask {timers : TokioTimerRuntime TrzszTimer} (h : l.timers.wake l.now = some timers) :
      Stepped x l .timerTask { l with timers }
  | safetyTask {safety : SafetyNet} (h : l.safety.wake l.now = some safety) : Stepped x l .safetyTask { l with safety }
  | stop (hrunning : l.running = true) : Stepped x l (.event .disconnected) { l with running := false }
  | iterate {a : Action} {r : Option ProcessResult} {l₁ l₂ : Loop π} (hrunning : l.running = true)
      (hrunning' : l₁.running = true) (hselected : Selected x l a r l₁)
      (hsettled : Settled l₁.reconcile (dirtyOf r) l₂) : Stepped x l a ((timerCmdsOf r).foldl runTimerCmd l₂)

theorem settled_of_finish {r : Option ProcessResult} (h : l.finish r = some l') :
    ∃ l₂, Settled l.reconcile (dirtyOf r) l₂ ∧ l' = (timerCmdsOf r).foldl runTimerCmd l₂ := by
  cases r with
  | none =>
      cases h
      exact ⟨_, .clean, rfl⟩
  | some r =>
      cases hdirty : r.screenDirty with
      | false =>
          simp only [finish, hdirty, Bool.false_eq_true, if_false] at h
          cases h
          refine ⟨l.reconcile, ?_, rfl⟩
          rw [dirtyOf, Option.any_some, hdirty]
          exact .clean
      | true =>
          simp only [finish, hdirty, if_true] at h
          obtain ⟨l₂, hl₂, h⟩ := Option.bind_eq_some_iff.mp h
          cases h
          refine ⟨l₂, ?_, rfl⟩
          rw [dirtyOf, Option.any_some, hdirty]
          exact .dirty hl₂

theorem running_of_selected {a : Action} {r : Option ProcessResult} (h : Selected x l a r l') :
    (a = .event .disconnected ∧ r = none ∧ l' = { l with running := false }) ∨ l'.running = l.running := by
  cases h with
  | stop => exact Or.inl ⟨rfl, rfl, rfl⟩
  | idle _ => exact Or.inr rfl
  | op _ _ => exact Or.inr rfl
  | fsm _ _ =>
      right
      cases a <;> rfl
  | stale _ _ => exact Or.inr rfl
  | force _ _ _ => exact Or.inr rfl
  | repaint _ _ hemit =>
      obtain ⟨_, _, hemit⟩ := Option.bind_eq_some_iff.mp hemit
      cases hemit
      exact Or.inr rfl

theorem stepped_of_iterate {a : Action} (hrunning : l.running = true) (h : l.iterate x a = some l') :
    Stepped x l a l' := by
  obtain ⟨⟨r, l₁⟩, hselect, h⟩ := Option.bind_eq_some_iff.mp h
  have hselected := selected_of_select hselect
  dsimp only at h
  split at h
  · rename_i hrunning'
    obtain ⟨l₂, hsettled, rfl⟩ := settled_of_finish h
    exact .iterate hrunning hrunning' hselected hsettled
  · rename_i hstopped
    cases h
    rcases running_of_selected hselected with ⟨rfl, rfl, rfl⟩ | hsame
    · exact .stop hrunning
    · exact absurd (hsame.trans hrunning) hstopped

theorem stepped_of_step {a : Action} (h : l.step x a = some l') : Stepped x l a l' := by
  cases a with
  | elapse duration =>
      cases h
      exact .elapse duration
  | timerTask =>
      obtain ⟨timers, hwake, rfl⟩ := Option.map_eq_some_iff.mp h
      exact .timerTask hwake
  | safetyTask =>
      obtain ⟨safety, hwake, rfl⟩ := Option.map_eq_some_iff.mp h
      exact .safetyTask hwake
  | event _ | timeout | command _ | flushStdin | safetyTimeout | repaint =>
      obtain ⟨hrunning, h⟩ := Option.ite_none_right_eq_some.mp h
      exact stepped_of_iterate hrunning h

/-! ## 画面の反映 -/

theorem emitScreenUpdate_eq (h : l.emitScreenUpdate = some l') :
    ∃ update session, l.session.makeScreenUpdate = some (update, session) ∧
      l' = { l with
        session
        throttle := l.throttle.noteEmitted l.now
        emissions := ⟨l.now, update, l.syncActive⟩ :: l.emissions } := by
  obtain ⟨⟨update, session⟩, hupdate, h⟩ := Option.bind_eq_some_iff.mp h
  cases h
  exact ⟨update, session, hupdate, rfl⟩

/-- 反映は、画面と間引きの状態だけを変える。 -/
structure SameTimers (l l' : Loop π) : Prop where
  now : l'.now = l.now
  running : l'.running = l.running
  timers : l'.timers = l.timers
  safety : l'.safety = l.safety
  regionStart : l'.regionStart = l.regionStart
  forced : l'.forced = l.forced
  lastCommand : l'.lastCommand = l.lastCommand
  timeouts : l'.timeouts = l.timeouts

theorem SameTimers.of_emit (h : l.emitScreenUpdate = some l') : SameTimers l l' := by
  obtain ⟨update, session, _, rfl⟩ := emitScreenUpdate_eq h
  exact ⟨rfl, rfl, rfl, rfl, rfl, rfl, rfl, rfl⟩

theorem SameTimers.of_settled {dirty : Bool} (h : Settled l dirty l') : SameTimers l l' := by
  cases h with
  | clean => exact ⟨rfl, rfl, rfl, rfl, rfl, rfl, rfl, rfl⟩
  | dirty h =>
      rw [noteDirty] at h
      split at h
      · have hsame := SameTimers.of_emit h
        exact ⟨hsame.now, hsame.running, hsame.timers, hsame.safety, hsame.regionStart, hsame.forced,
          hsame.lastCommand, hsame.timeouts⟩
      · cases h
        exact ⟨rfl, rfl, rfl, rfl, rfl, rfl, rfl, rfl⟩
      · cases h
        exact ⟨rfl, rfl, rfl, rfl, rfl, rfl, rfl, rfl⟩

/-- タイマーの命令は、trzsz のタイマーだけを変える。 -/
theorem foldl_runTimerCmd_eq (cmds : List (TimerCommand TrzszTimer)) (l : Loop π) :
    ∃ timers lastCommand, cmds.foldl runTimerCmd l = { l with timers, lastCommand } := by
  induction cmds generalizing l with
  | nil => exact ⟨_, _, rfl⟩
  | cons cmd cmds ih =>
      obtain ⟨timers, lastCommand, heq⟩ := ih (l.runTimerCmd cmd)
      exact ⟨timers, lastCommand, heq⟩

end Loop

end

/-!
## trzsz の時間切れ

通知がチャネルに無いときだけタイマーの命令を実行すれば、チャネルの通知は、いつも最後の `Set` の満了である。
-/

section

variable {π : Type} {x : Externals π} {l l' : Loop π}

namespace Loop

/-- 眠っているタスクは最後の `Set` のもので、そのときチャネルは空である。 -/
structure TimerInv (l : Loop π) : Prop where
  handle : ∀ id deadline, l.timers.handle = some (id, deadline) →
    l.timers.rx = [] ∧ ∃ issued duration, l.lastCommand = some (issued, duration) ∧ issued + duration = deadline
  queued : l.timers.rx ≠ [] → Expired l.lastCommand l.now
  single : l.timers.rx.length ≤ 1
  timely : l.Timely

theorem TimerInv.start (cols rows : Nat) (theme : Theme) (parser : π) : TimerInv (start cols rows theme parser) where
  handle := by
    intro id deadline h
    cases h
  queued h := absurd rfl h
  single := Nat.zero_le 1
  timely := by
    intro p hp
    cases hp

theorem TimerInv.of_same (h : TimerInv l) (hnow : l'.now = l.now) (htimers : l'.timers = l.timers)
    (hcommand : l'.lastCommand = l.lastCommand) (htimeouts : l'.timeouts = l.timeouts) : TimerInv l' := by
  refine ⟨?_, ?_, ?_, ?_⟩
  · rw [htimers, hcommand]
    exact h.handle
  · rw [htimers, hcommand, hnow]
    exact h.queued
  · rw [htimers]
    exact h.single
  · rw [Timely, htimeouts]
    exact h.timely

theorem Expired.mono {command : Option (Nat × Nat)} {time time' : Nat} (h : Expired command time)
    (hle : time ≤ time') : Expired command time' := by
  obtain ⟨issued, duration, heq, hexpired⟩ := h
  exact ⟨issued, duration, heq, hexpired.trans hle⟩

theorem TimerInv.elapse (h : TimerInv l) (d : Nat) : TimerInv { l with now := l.now + d } where
  handle := h.handle
  queued hrx := (h.queued hrx).mono (Nat.le_add_right _ _)
  single := h.single
  timely := h.timely

/-- 眠り終えたタスクの通知は、最後の `Set` の満了である。 -/
theorem TimerInv.wake (h : TimerInv l) {timers : TokioTimerRuntime TrzszTimer} (hwake : l.timers.wake l.now = some timers) :
    TimerInv { l with timers } := by
  cases hhandle : l.timers.handle with
  | none => simp [TokioTimerRuntime.wake, hhandle] at hwake
  | some p =>
      obtain ⟨id, deadline⟩ := p
      obtain ⟨hrx, issued, duration, hcommand, hdeadline⟩ := h.handle id deadline hhandle
      simp only [TokioTimerRuntime.wake, hhandle, Option.ite_none_right_eq_some] at hwake
      obtain ⟨⟨hle, _⟩, hwake⟩ := hwake
      cases hwake
      refine ⟨?_, ?_, ?_, h.timely⟩
      · intro id' deadline' h'
        cases h'
      · intro _
        exact ⟨issued, duration, hcommand, hdeadline.trans_le hle⟩
      · simp [hrx]

/-! ## タイマーの命令 -/

theorem TimerInv.runTimerCmd (h : TimerInv l) (hrx : l.timers.rx = []) (cmd : TimerCommand TrzszTimer) :
    TimerInv (l.runTimerCmd cmd) ∧ (l.runTimerCmd cmd).timers.rx = [] := by
  have hrx' : (l.runTimerCmd cmd).timers.rx = [] := by cases cmd <;> exact hrx
  refine ⟨⟨?_, fun hne => absurd hrx' hne, ?_, h.timely⟩, hrx'⟩
  · intro id deadline hhandle
    cases cmd with
    | set id' duration =>
        obtain ⟨rfl, rfl⟩ := Prod.ext_iff.mp (Option.some.inj hhandle)
        exact ⟨hrx', _, _, rfl, rfl⟩
    | kill id' => cases hhandle
  · rw [hrx']
    exact Nat.zero_le 1

theorem TimerInv.foldl_runTimerCmd {cmds : List (TimerCommand TrzszTimer)} (h : TimerInv l)
    (hrx : cmds ≠ [] → l.timers.rx = []) : TimerInv (cmds.foldl Loop.runTimerCmd l) := by
  induction cmds generalizing l with
  | nil => exact h
  | cons cmd cmds ih =>
      obtain ⟨hinv, hempty⟩ := h.runTimerCmd (hrx (by simp)) cmd
      exact ih hinv fun _ => hempty

/-! ## select の腕 -/

/-- 取り出した通知で `on_timeout` を呼ぶとき、最後の `Set` の長さは過ぎている。 -/
theorem TimerInv.dequeued (h : TimerInv l) {a : Action} {i : TrzszInput} (hi : l.inputOf a = some i) :
    TimerInv (l.dequeued a) := by
  cases a with
  | timeout =>
      have hne : l.timers.rx ≠ [] := by
        intro hrx
        simp [inputOf, hrx] at hi
      have hempty : l.timers.rx.tail = [] := by
        have hsingle := h.single
        cases hrx : l.timers.rx with
        | nil => rfl
        | cons id rx =>
            rw [hrx, List.length_cons] at hsingle
            exact List.eq_nil_of_length_eq_zero (Nat.le_zero.mp (Nat.le_of_succ_le_succ hsingle))
      refine ⟨?_, fun hrx => absurd hempty hrx, ?_, ?_⟩
      · intro id deadline hhandle
        exact ⟨hempty, (h.handle id deadline hhandle).2⟩
      · exact (congrArg List.length hempty).le.trans (Nat.zero_le 1)
      · intro p hp
        rcases List.mem_cons.mp hp with rfl | hp
        · exact h.queued hne
        · exact h.timely p hp
  | elapse _ | timerTask | safetyTask | event _ | command _ | flushStdin | safetyTimeout | repaint => exact h

theorem TimerInv.select {a : Action} {r : Option ProcessResult} (h : TimerInv l) (hs : Selected x l a r l')
    (hguard : Unqueued x l a) : TimerInv l' ∧ (timerCmdsOf r ≠ [] → l'.timers.rx = []) := by
  cases hs with
  | stop => exact ⟨h.of_same rfl rfl rfl rfl, fun hne => absurd rfl hne⟩
  | idle hr =>
      refine ⟨h, fun hne => absurd ?_ hne⟩
      rcases hr with rfl | rfl <;> rfl
  | op _ _ => exact ⟨h.of_same rfl rfl rfl rfl, fun hne => absurd rfl hne⟩
  | fsm hi _ =>
      refine ⟨(h.dequeued hi).of_same rfl rfl rfl rfl, ?_⟩
      intro hne
      rw [Unqueued, hi, Option.all_some, Bool.or_eq_true, List.isEmpty_iff, List.isEmpty_iff] at hguard
      exact hguard.resolve_left hne
  | stale _ _ => exact ⟨h.of_same rfl rfl rfl rfl, fun hne => absurd rfl hne⟩
  | force _ _ _ => exact ⟨h.of_same rfl rfl rfl rfl, fun hne => absurd rfl hne⟩
  | repaint _ _ hemit =>
      have hsame := SameTimers.of_emit hemit
      exact ⟨h.of_same hsame.now hsame.timers hsame.lastCommand hsame.timeouts, fun hne => absurd rfl hne⟩

theorem TimerInv.step {a : Action} (h : TimerInv l) (hs : Steps x l a l') (hguard : Unqueued x l a) : TimerInv l' := by
  cases stepped_of_step hs with
  | elapse d => exact h.elapse d
  | timerTask hwake => exact h.wake hwake
  | safetyTask _ => exact h.of_same rfl rfl rfl rfl
  | stop _ => exact h.of_same rfl rfl rfl rfl
  | iterate _ _ hselected hsettled =>
      obtain ⟨hinv, hrx⟩ := h.select hselected hguard
      have hsame := SameTimers.of_settled hsettled
      refine TimerInv.foldl_runTimerCmd (hinv.of_same hsame.now hsame.timers hsame.lastCommand hsame.timeouts) ?_
      intro hne
      rw [hsame.timers]
      exact hrx hne

theorem timerInv_of_run {cols rows : Nat} {theme : Theme} {parser : π} {as : List Action}
    (h : Run (Guarded (Steps x) (Unqueued x)) (Loop.start cols rows theme parser) as l) : TimerInv l :=
  Run.invariant_of_guarded (fun _ _ _ hinv hstep hguard => hinv.step hstep hguard) h (.start cols rows theme parser)

end Loop

end

end IsekaiTerminal.SessionLoop
