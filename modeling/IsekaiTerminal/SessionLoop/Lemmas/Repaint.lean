import IsekaiTerminal.Emulator.Lemmas.ScreenUpdate
import IsekaiTerminal.SessionLoop.Lemmas.Sync

/-!
# 画面の反映の間引き

反映していない変更があり、同期出力の区間の外なら、間引きのタイマーが動いている。
-/

namespace IsekaiTerminal.SessionLoop

open Lib Emulator Trzsz

variable {π : Type} {x : Externals π} {l l' : Loop π} {t₀ : Terminal} {s s' : SessionState}

/-! ## 画面の中身 -/

theorem shown_of_makeScreenUpdate {u : ScreenUpdate} (h : s.makeScreenUpdate = some (u, s')) :
    shown s.terminal = some (content u) ∧ shown s'.terminal = some (content u) ∧ u.updateSeq = s'.updateSeq ∧
      s'.updateSeq = s.updateSeq + 1 := by
  obtain ⟨dirtyRows, _, h⟩ := Option.bind_eq_some_iff.mp h
  cases h
  exact ⟨rfl, rfl, rfl, rfl⟩

/-- 反映を求めない操作は、画面の中身も区間も変えない。 -/
theorem shown_of_not_dirty {env : Env} {op : SessionState.Op} {r : Emulator.ProcessResult} {a : Action}
    (hop : Loop.opOf a = some op) (h : s.apply env op = some (r, s')) (hdirty : r.screenDirty = false) :
    shown s'.terminal = shown s.terminal := by
  cases op with
  | setTheme theme =>
      cases h
      rfl
  | setPanelEnabled enabled =>
      cases h
      rfl
  | resize cols rows =>
      obtain ⟨t, _, h⟩ := Option.bind_eq_some_iff.mp h
      cases h
      cases hdirty
  | setTitleFromCtl _ | setTabColorFromCtl _ | setTabProgressFromCtl _ _ | notifyFromCtl _ | forceEndSynchronizedOutput =>
      cases h
      cases hdirty
  | stdout events =>
      exfalso
      unfold Loop.opOf at hop
      split at hop <;> cases hop

theorem shown_of_no_events {env : Env} {r : Emulator.ProcessResult} (h : s.apply env (.stdout []) = some (r, s')) :
    shown s'.terminal = shown s.terminal ∧ synced s'.terminal = synced s.terminal := by
  cases h
  exact ⟨rfl, rfl⟩

theorem consistent_of_apply {env : Env} {op : SessionState.Op} {r : Emulator.ProcessResult} (hs : s.Consistent)
    (h : s.apply env op = some (r, s')) : s'.Consistent ∧ s'.updateSeq = s.updateSeq := by
  obtain ⟨_, u, happly, hwf, hsame⟩ := SessionState.apply_some env hs.terminal op
  cases Option.some_inj.mp (h.symm.trans happly)
  refine ⟨⟨hwf, ?_⟩, hsame.seq⟩
  rw [hsame.cells, hsame.cols, hsame.rows]
  exact hs.emitted

namespace Loop

/-! ## 不変条件 -/

structure FrameInv (l : Loop π) : Prop where
  consistent : l.session.Consistent
  seq : ∀ e ∈ l.emissions.head?, e.update.updateSeq = l.session.updateSeq
  interval : l.throttle.minInterval = repaintMinInterval
  lastEmit : l.throttle.lastEmit = l.emissions.head?.map (·.time)
  past : ∀ e ∈ l.emissions.head?, e.time ≤ l.now
  armed : ∀ d ∈ l.throttle.armedDeadline, ∃ e ∈ l.emissions.head?, d = e.time + repaintMinInterval
  chain : l.emissions.IsChain Follows

/-- 反映していない変更が残っているのは、区間の中か、間引きのタイマーが動いている間だけである。 -/
def Fresh (t₀ : Terminal) (l : Loop π) : Prop :=
  l.throttle.armedDeadline = none → l.syncActive = false → shown l.session.terminal = lastShown t₀ l

theorem FrameInv.of_session (h : FrameInv l) (hconsistent : l'.session.Consistent)
    (hseq : l'.session.updateSeq = l.session.updateSeq) (hthrottle : l'.throttle = l.throttle)
    (hemissions : l'.emissions = l.emissions) (hnow : l.now ≤ l'.now) : FrameInv l' where
  consistent := hconsistent
  seq := by
    rw [hemissions, hseq]
    exact h.seq
  interval := by
    rw [hthrottle]
    exact h.interval
  lastEmit := by
    rw [hthrottle, hemissions]
    exact h.lastEmit
  past := by
    rw [hemissions]
    exact fun e he => (h.past e he).trans hnow
  armed := by
    rw [hthrottle, hemissions]
    exact h.armed
  chain := by
    rw [hemissions]
    exact h.chain

theorem FrameInv.start (cols rows : Nat) (theme : Theme) (parser : π) : FrameInv (start cols rows theme parser) where
  consistent := ⟨.new cols rows theme, fun _ hcells => by cases hcells⟩
  seq := by
    intro e he
    cases he
  interval := rfl
  lastEmit := rfl
  past := by
    intro e he
    cases he
  armed := by
    intro d hd
    cases hd
  chain := .nil

/-- 16ms 以上空いた反映。 -/
theorem FrameInv.emit (h : FrameInv l) (hspaced : ∀ e ∈ l.emissions.head?, e.time + repaintMinInterval ≤ l.now)
    (hemit : l.emitScreenUpdate = some l') :
    FrameInv l' ∧ l'.throttle.armedDeadline = none ∧ ∃ update, l'.emissions = ⟨l.now, update, l.syncActive⟩ :: l.emissions ∧
      shown l.session.terminal = some (content update) ∧ shown l'.session.terminal = some (content update) := by
  obtain ⟨update, session, hupdate, rfl⟩ := emitScreenUpdate_eq hemit
  obtain ⟨hbefore, hafter, hseq, hsucc⟩ := shown_of_makeScreenUpdate hupdate
  refine ⟨⟨?_, ?_, h.interval, rfl, ?_, ?_, ?_⟩, rfl, update, rfl, hbefore, hafter⟩
  · obtain ⟨rfl, -, -⟩ := SessionState.makeScreenUpdate_eq hupdate
    exact SessionState.emitted_consistent h.consistent.terminal
  · intro e he
    cases he
    exact hseq
  · intro e he
    cases he
    exact le_rfl
  · intro d hd
    cases hd
  · refine h.chain.cons ?_
    intro e he
    refine ⟨hspaced e he, ?_⟩
    rw [h.seq e he, hseq]
    exact hsucc

/-! ## 間引き -/

theorem emitScreenUpdate_isSome (h : l.session.Consistent) : ∃ l', l.emitScreenUpdate = some l' := by
  obtain ⟨update, hupdate⟩ := SessionState.makeScreenUpdate_some (SessionState.dirtyRows_ne_none h)
  rw [emitScreenUpdate, hupdate]
  exact ⟨_, rfl⟩

theorem onDirty_cases (t : RepaintThrottle) (now : Nat) :
    (∃ d, t.armedDeadline = some d ∧ t.onDirty now = (t, .alreadyArmed)) ∨
      (t.armedDeadline = none ∧ ∃ last, t.lastEmit = some last ∧
        t.onDirty now =
          ({ t with armedDeadline := some (last + t.minInterval) }, .arm (last + t.minInterval))) ∨
      (t.armedDeadline = none ∧ (∀ last ∈ t.lastEmit, last + t.minInterval ≤ now) ∧ t.onDirty now = (t, .emitNow)) := by
  cases harmed : t.armedDeadline with
  | some d => exact Or.inl ⟨d, rfl, by simp [RepaintThrottle.onDirty, harmed]⟩
  | none =>
      right
      cases hlast : t.lastEmit with
      | none =>
          refine Or.inr ⟨rfl, ?_, by simp [RepaintThrottle.onDirty, harmed, hlast]⟩
          intro last h
          cases h
      | some last =>
          by_cases hsoon : now < last + t.minInterval
          · exact Or.inl ⟨rfl, last, rfl, by simp [RepaintThrottle.onDirty, harmed, hlast, hsoon]⟩
          · refine Or.inr ⟨rfl, ?_, by simp [RepaintThrottle.onDirty, harmed, hlast, hsoon]⟩
            intro last' h
            cases h
            exact Nat.le_of_not_lt hsoon

/-- 反映を求める操作の後は、反映したか、タイマーが動いている。 -/
theorem FrameInv.noteDirty (h : FrameInv l) (t₀ : Terminal) (hnote : l.noteDirty = some l') :
    FrameInv l' ∧ Fresh t₀ l' ∧ ∀ d ∈ l.throttle.armedDeadline,
      l'.throttle.armedDeadline = some d ∧ l'.emissions = l.emissions := by
  rw [Loop.noteDirty] at hnote
  rcases onDirty_cases l.throttle l.now with ⟨d, harmed, heq⟩ | ⟨harmed, last, hlast, heq⟩ | ⟨harmed, hspaced, heq⟩
  · rw [heq] at hnote
    cases hnote
    refine ⟨h, ?_, ?_⟩
    · intro hnone
      rw [harmed] at hnone
      cases hnone
    · intro d' hd'
      exact ⟨hd', rfl⟩
  · rw [heq] at hnote
    cases hnote
    obtain ⟨e, he, rfl⟩ := Option.map_eq_some_iff.mp (h.lastEmit.symm.trans hlast)
    refine ⟨⟨h.consistent, h.seq, h.interval, h.lastEmit, h.past, ?_, h.chain⟩, ?_, ?_⟩
    · intro d hd
      cases hd
      exact ⟨e, he, by rw [h.interval]⟩
    · intro hnone
      cases hnone
    · intro d hd
      rw [harmed] at hd
      cases hd
  · rw [heq] at hnote
    have hlater : ∀ e ∈ l.emissions.head?, e.time + repaintMinInterval ≤ l.now := by
      intro e he
      have hlast : l.throttle.lastEmit = some e.time := by
        rw [h.lastEmit, he]
        rfl
      rw [← h.interval]
      exact hspaced e.time hlast
    obtain ⟨hinv, _, update, hemissions, _, hafter⟩ := h.emit hlater hnote
    refine ⟨hinv, ?_, ?_⟩
    · intro _ _
      rw [hafter, lastShown, hemissions]
    · intro d hd
      rw [harmed] at hd
      cases hd

/-! ## select の腕 -/

/-- 反映もループの終わりも起こさない腕。反映を求めないのは、中身が変わらないか、区間の中で終わるときである。 -/
structure Edited (l : Loop π) (r : Option ProcessResult) (l' : Loop π) : Prop where
  throttle : l'.throttle = l.throttle
  emissions : l'.emissions = l.emissions
  now : l'.now = l.now
  running : l'.running = l.running
  consistent : l.session.Consistent → l'.session.Consistent ∧ l'.session.updateSeq = l.session.updateSeq
  clean : dirtyOf r = false → l'.syncActive = false →
    l.syncActive = false ∧ shown l'.session.terminal = shown l.session.terminal

theorem Edited.refl (l : Loop π) (r : Option ProcessResult) : Edited l r l :=
  ⟨rfl, rfl, rfl, rfl, fun h => ⟨h, rfl⟩, fun _ hactive => ⟨hactive, rfl⟩⟩

theorem selected_cases {a : Action} {r : Option ProcessResult} (hs : Selected x l a r l') :
    (a = .event .disconnected ∧ l' = { l with running := false }) ∨
      (a = .repaint ∧ r = none ∧ (∃ d ∈ l.throttle.armedDeadline, d ≤ l.now) ∧ l.emitScreenUpdate = some l') ∨
      Edited l r l' := by
  cases hs with
  | stop => exact Or.inl ⟨rfl, rfl⟩
  | repaint hd hle hemit => exact Or.inr (Or.inl ⟨rfl, rfl, ⟨_, hd, hle⟩, hemit⟩)
  | idle _ => exact Or.inr (Or.inr (.refl l r))
  | stale _ _ => exact Or.inr (Or.inr ⟨rfl, rfl, rfl, rfl, fun h => ⟨h, rfl⟩, fun _ hactive => ⟨hactive, rfl⟩⟩)
  | force _ _ happly =>
      refine Or.inr (Or.inr ⟨rfl, rfl, rfl, rfl, fun h => consistent_of_apply h happly, ?_⟩)
      intro hdirty
      cases happly
      cases hdirty
  | op hop happly =>
      refine Or.inr (Or.inr ⟨rfl, rfl, rfl, rfl, fun h => consistent_of_apply h happly, ?_⟩)
      intro hdirty hactive
      exact ⟨(synced_apply hop happly).symm.trans hactive, shown_of_not_dirty hop happly hdirty⟩
  | @fsm _ i _ session hi happly =>
      have hsame : (l.dequeued a).throttle = l.throttle ∧ (l.dequeued a).emissions = l.emissions ∧
          (l.dequeued a).now = l.now ∧ (l.dequeued a).running = l.running := by
        cases a <;> exact ⟨rfl, rfl, rfl, rfl⟩
      refine Or.inr (Or.inr
        ⟨hsame.1, hsame.2.1, hsame.2.2.1, hsame.2.2.2, fun h => consistent_of_apply h happly, ?_⟩)
      intro hdirty hactive
      rw [dirtyOf, Option.any_some, Bool.and_eq_false_iff] at hdirty
      rcases hdirty with hflushed | hscreen
      · -- 端末に流すバイト列が無い。
        have hnil : (l.reaction x i).2.actions.filterMap flushed = [] := by simpa using hflushed
        have hevents : (l.parsed x i).2 = [] := by rw [parsed, hnil]; rfl
        rw [hevents] at happly
        obtain ⟨hshown, hsynced⟩ := shown_of_no_events happly
        exact ⟨hsynced.symm.trans hactive, hshown⟩
      · obtain ⟨t, _, hsynced, hdirty⟩ := exec_of_onStdout happly
        have hinactive : synced session.terminal = false := hactive
        rw [hscreen, ← hsynced, hinactive] at hdirty
        cases hdirty

/-! ## 実行 -/

/-- 反復の間の不変条件。 -/
structure Framed (t₀ : Terminal) (l : Loop π) : Prop extends FrameInv l where
  fresh : Fresh t₀ l
  stopped : l.running = false → l.throttle.armedDeadline = none

theorem Framed.start (cols rows : Nat) (theme : Theme) (parser : π) :
    Framed (.new cols rows theme) (Loop.start cols rows theme parser) where
  toFrameInv := .start cols rows theme parser
  fresh _ _ := rfl
  stopped := by
    intro h
    cases h

/-- 反復は、間引きのタイマーの発火か、動いているタイマーと反映の列を変えない遷移である。 -/
theorem Framed.step {a : Action} (h : Framed t₀ l) (hs : Steps x l a l') (hguard : Flushed l a) :
    Framed t₀ l' ∧ ((a = .repaint ∧ Fired l l') ∨
      ∀ d ∈ l.throttle.armedDeadline, l'.throttle.armedDeadline = some d ∧ l'.emissions = l.emissions) := by
  cases stepped_of_step hs with
  | elapse d =>
      exact ⟨⟨h.of_session h.consistent rfl rfl rfl (Nat.le_add_right _ _), h.fresh, h.stopped⟩,
        Or.inr fun d hd => ⟨hd, rfl⟩⟩
  | timerTask _ =>
      exact ⟨⟨h.of_session h.consistent rfl rfl rfl le_rfl, h.fresh, h.stopped⟩, Or.inr fun d hd => ⟨hd, rfl⟩⟩
  | safetyTask _ =>
      exact ⟨⟨h.of_session h.consistent rfl rfl rfl le_rfl, h.fresh, h.stopped⟩, Or.inr fun d hd => ⟨hd, rfl⟩⟩
  | stop _ =>
      exact ⟨⟨h.of_session h.consistent rfl rfl rfl le_rfl, h.fresh, fun _ => hguard⟩, Or.inr fun d hd => ⟨hd, rfl⟩⟩
  | @iterate _ r l₁ l₂ hrunning hrunning' hselected hsettled =>
      have hsame := SameTimers.of_settled hsettled
      obtain ⟨timers, lastCommand, heq⟩ := foldl_runTimerCmd_eq (timerCmdsOf r) l₂
      have hrun : l₂.running = true := hsame.running.trans hrunning'
      -- タイマーの命令は、画面にも間引きにも触れない。
      have hlift (hinv : FrameInv l₂) (hfresh : Fresh t₀ l₂) : Framed t₀ ((timerCmdsOf r).foldl runTimerCmd l₂) := by
        rw [heq]
        exact ⟨hinv.of_session hinv.consistent rfl rfl rfl le_rfl, hfresh, fun hstop => by simp [hrun] at hstop⟩
      have hsame' : ((timerCmdsOf r).foldl runTimerCmd l₂).throttle = l₂.throttle ∧
          ((timerCmdsOf r).foldl runTimerCmd l₂).emissions = l₂.emissions := by
        rw [heq]
        exact ⟨rfl, rfl⟩
      rcases selected_cases hselected with ⟨_, rfl⟩ | ⟨rfl, rfl, ⟨d, hd, hle⟩, hemit⟩ | hedited
      · cases hrunning'
      · have hspaced : ∀ e ∈ l.emissions.head?, e.time + repaintMinInterval ≤ l.now := by
          intro e he
          obtain ⟨e', he', rfl⟩ := h.armed d hd
          obtain rfl := Option.some.inj (he.symm.trans he')
          exact hle
        obtain ⟨hinv, hnone, update, hemissions, hbefore, hafter⟩ := h.emit hspaced hemit
        cases hsettled
        refine ⟨hlift ⟨hinv.consistent, hinv.seq, hinv.interval, hinv.lastEmit, hinv.past, hinv.armed, hinv.chain⟩ ?_,
          Or.inl ⟨rfl, ⟨d, hd, hle⟩, ⟨_, hsame'.2.trans hemissions, rfl, hbefore⟩,
            (congrArg RepaintThrottle.armedDeadline hsame'.1).trans hnone⟩⟩
        intro _ _
        change shown l₁.session.terminal = lastShown t₀ l₁
        rw [hafter, lastShown, hemissions]
      · obtain ⟨hconsistent, hseq⟩ := hedited.consistent h.consistent
        have hinv : FrameInv l₁.reconcile :=
          h.toFrameInv.of_session hconsistent hseq hedited.throttle hedited.emissions hedited.now.ge
        have harmed (d : Nat) (hd : d ∈ l.throttle.armedDeadline) : d ∈ l₁.reconcile.throttle.armedDeadline := by
          change d ∈ l₁.throttle.armedDeadline
          rw [hedited.throttle]
          exact hd
        cases hdirty : dirtyOf r with
        | true =>
            rw [hdirty] at hsettled
            cases hsettled with
            | dirty hnote =>
                obtain ⟨hinv', hfresh, hkeep⟩ := hinv.noteDirty t₀ hnote
                refine ⟨hlift hinv' hfresh, Or.inr ?_⟩
                intro d hd
                obtain ⟨hsome, hemissions⟩ := hkeep d (harmed d hd)
                rw [hsame'.1, hsame'.2]
                exact ⟨hsome, hemissions.trans hedited.emissions⟩
        | false =>
            rw [hdirty] at hsettled
            cases hsettled
            refine ⟨hlift hinv ?_, Or.inr ?_⟩
            · intro hnone hactive
              obtain ⟨hactive', hshown⟩ := hedited.clean hdirty hactive
              change shown l₁.session.terminal = lastShown t₀ l₁
              have hnone' : l.throttle.armedDeadline = none := by
                rw [← hedited.throttle]
                exact hnone
              have hlast : lastShown t₀ l₁ = lastShown t₀ l := by rw [lastShown, hedited.emissions]; rfl
              rw [hshown, hlast]
              exact h.fresh hnone' hactive'
            · intro d hd
              rw [hsame'.1, hsame'.2]
              exact ⟨harmed d hd, hedited.emissions⟩

theorem framed_of_run {as : List Action} (h : Framed t₀ l) (hr : Run (Guarded (Steps x) Flushed) l as l') :
    Framed t₀ l' :=
  Run.invariant_of_guarded (fun _ _ _ hinv hstep hguard => (hinv.step hstep hguard).1) hr h

/-- 満了した間引きのタイマーは、いつでも発火できる。 -/
theorem Framed.enabled {d : Nat} (h : Framed t₀ l) (hd : d ∈ l.throttle.armedDeadline) (hle : d ≤ l.now) :
    ∃ l', Steps x l .repaint l' := by
  have hrunning : l.running = true := by
    cases hrunning : l.running with
    | true => rfl
    | false =>
        have hnone := h.stopped hrunning
        rw [hnone] at hd
        cases hd
  obtain ⟨l', hemit⟩ := emitScreenUpdate_isSome h.consistent
  refine ⟨l'.reconcile, ?_⟩
  have hselect : l.select x .repaint = some (none, l') := by simp [select, Option.mem_def.mp hd, hle, hemit]
  have hrunning' : l'.running = true := (SameTimers.of_emit hemit).running.trans hrunning
  change (if l.running = true then l.iterate x .repaint else none) = some l'.reconcile
  rw [if_pos hrunning, iterate, hselect]
  exact if_pos hrunning'

/-- 動いている間引きのタイマーは、発火するまで残り、発火してその時点の中身を反映する。 -/
theorem Framed.leads {d : Nat} {as : List Action} (h : Framed t₀ l) (hd : d ∈ l.throttle.armedDeadline)
    (hr : Run (Guarded (Steps x) Flushed) l as l') :
    (l'.throttle.armedDeadline = some d ∧ l'.emissions = l.emissions) ∨
      ∃ bs cs s s', as = bs ++ .repaint :: cs ∧ Run (Steps x) l bs s ∧ s.throttle.armedDeadline = some d ∧
        s.emissions = l.emissions ∧ Steps x s .repaint s' ∧ Fired s s' ∧ Run (Steps x) s' cs l' := by
  induction hr with
  | nil => exact Or.inl ⟨hd, rfl⟩
  | @cons l a l₁ as l' hs hrun ih =>
      obtain ⟨hframed, hcase⟩ := h.step hs.1 hs.2
      rcases hcase with ⟨rfl, hfired⟩ | hkeep
      · exact Or.inr ⟨[], as, l, l₁, rfl, .nil l, hd, rfl, hs.1, hfired, hrun.mono fun _ _ _ hs => hs.1⟩
      · obtain ⟨hd', hemissions⟩ := hkeep d hd
        rcases ih hframed hd' with ⟨hlast, heq⟩ | ⟨bs, cs, s, s', rfl, hbs, hsome, heq, hrest⟩
        · exact Or.inl ⟨hlast, heq.trans hemissions⟩
        · exact Or.inr ⟨a :: bs, cs, s, s', rfl, .cons hs.1 hbs, hsome, heq.trans hemissions, hrest⟩

/-! ## ループの終わった後 -/

/-- 終わったループは、何も反映しない。 -/
theorem stopped_of_run {as : List Action} (hr : Run (Steps x) l as l') (hstopped : l.running = false) :
    l'.running = false ∧ l'.emissions = l.emissions := by
  induction hr with
  | nil => exact ⟨hstopped, rfl⟩
  | @cons l a l₁ as l' hs _ ih =>
      have hstep : l₁.running = false ∧ l₁.emissions = l.emissions := by
        cases stepped_of_step hs with
        | elapse _ => exact ⟨hstopped, rfl⟩
        | timerTask _ => exact ⟨hstopped, rfl⟩
        | safetyTask _ => exact ⟨hstopped, rfl⟩
        | stop _ => exact ⟨rfl, rfl⟩
        | iterate hrunning _ _ _ => simp [hstopped] at hrunning
      obtain ⟨hlast, heq⟩ := ih hstep.1
      exact ⟨hlast, heq.trans hstep.2⟩

end Loop

end IsekaiTerminal.SessionLoop
