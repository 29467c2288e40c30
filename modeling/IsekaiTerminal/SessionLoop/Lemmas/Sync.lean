import IsekaiTerminal.SessionLoop.Lemmas.Loop

/-!
# 同期出力の safety-net

眠っているタスクとチャネルの通知は、今の世代のものなら、今の区間が始まってから 250ms の後のものである。
-/

namespace IsekaiTerminal.SessionLoop

open Lib Emulator Trzsz

/-!
## 同期出力の区間

区間の始まりの記録は、端末が区間の中にあるときに限り在る。
1 つのバッチが区間を閉じて開き直さなければ、始まりは変わらない。
-/

section

variable {π : Type} {x : Externals π} {l l' : Loop π} {env : Env} {t t' : Terminal}

namespace Loop

theorem exec_cons_eq_some {ev : Event} {events : List Event} (h : t.exec env (ev :: events) = some t') :
    ∃ u, t.step env ev = some u ∧ u.exec env events = some t' := by
  rw [Terminal.exec, List.foldlM_cons] at h
  exact Option.bind_eq_some_iff.mp h

theorem isSome_track {n : Nat} {region : Option Nat} {events : List Event} (hregion : region.isSome = synced t)
    (h : t.exec env events = some t') : (track env n region t events).isSome = synced t' := by
  induction events generalizing region t with
  | nil =>
      cases h
      exact hregion
  | cons ev events ih =>
      obtain ⟨u, hstep, h⟩ := exec_cons_eq_some h
      simp only [track, hstep]
      refine ih ?_ h
      cases hsynced : synced u <;> simp [synced] at hsynced ⊢ <;> exact hsynced

theorem track_le {now r : Nat} {region : Option Nat} {events : List Event} (hregion : ∀ r ∈ region, r ≤ now)
    (h : track env now region t events = some r) : r ≤ now := by
  induction events generalizing region t with
  | nil => exact hregion r h
  | cons ev events ih =>
      simp only [track] at h
      split at h
      · exact hregion r h
      · refine ih ?_ h
        intro r hr
        rw [Option.mem_def, Option.ite_none_right_eq_some] at hr
        obtain ⟨_, hr⟩ := hr
        cases hr
        cases region with
        | none => exact le_rfl
        | some r => exact hregion r rfl

/-- 区間を閉じないバッチでは、始まりは変わらない。 -/
theorem track_of_not_leaves {now r : Nat} {events : List Event} (hleaves : leaves env t events = false) :
    track env now (some r) t events = some r := by
  induction events generalizing t with
  | nil => rfl
  | cons ev events ih =>
      cases hstep : t.step env ev with
      | none => simp only [track, hstep]
      | some u =>
          simp only [leaves, hstep, Bool.or_eq_false_iff, Bool.not_eq_false'] at hleaves
          simp only [track, hstep, hleaves.1, if_true, Option.getD_some]
          exact ih hleaves.2

/-! ## 端末の操作 -/

theorem modes_resizePreservingState {cols rows : Nat} (h : t.resizePreservingState env cols rows = some t') :
    t'.modes = t.modes := by
  rw [Terminal.resizePreservingState] at h
  split at h
  · cases h
    rfl
  · obtain ⟨⟨pushed, mainCells⟩, _, h⟩ := Option.bind_eq_some_iff.mp h
    obtain ⟨⟨_, altCells⟩, _, h⟩ := Option.bind_eq_some_iff.mp h
    cases h
    exact Eq.trans (by rw [Terminal.trimPendingScrollback]; split <;> rfl) rfl

/-- 画面の反映を求める操作は、端末の区間を変えない。 -/
theorem synced_apply {s s' : SessionState} {op : SessionState.Op} {r : Emulator.ProcessResult} {a : Action}
    (hop : opOf a = some op) (h : s.apply env op = some (r, s')) : synced s'.terminal = synced s.terminal := by
  cases op with
  | stdout events =>
      exfalso
      unfold opOf at hop
      split at hop <;> cases hop
  | forceEndSynchronizedOutput =>
      exfalso
      unfold opOf at hop
      split at hop <;> cases hop
  | resize cols rows =>
      obtain ⟨t, hresize, h⟩ := Option.bind_eq_some_iff.mp h
      cases h
      have hmodes := modes_resizePreservingState hresize
      exact congrArg Modes.synchronizedOutputActive hmodes
  | setTitleFromCtl _ | setTabColorFromCtl _ | setTabProgressFromCtl _ _ | notifyFromCtl _ | setTheme _ | setPanelEnabled _ =>
      cases h
      rfl

theorem exec_of_onStdout {s s' : SessionState} {events : List Event} {r : Emulator.ProcessResult}
    (h : s.apply env (.stdout events) = some (r, s')) :
    ∃ t, s.terminal.exec env events = some t ∧ synced s'.terminal = synced t ∧ r.screenDirty = !synced t := by
  obtain ⟨t, hexec, h⟩ := Option.bind_eq_some_iff.mp h
  cases h
  exact ⟨t, hexec, rfl, rfl⟩

/-- 操作の後の区間の始まりは、端末の区間と一致する。 -/
theorem isSome_regionAfter {op : SessionState.Op} {r : Emulator.ProcessResult} {session : SessionState}
    (hregion : l.regionStart.isSome = l.syncActive) (h : l.session.apply x.env op = some (r, session)) :
    (regionAfter x.env l op).isSome = synced session.terminal := by
  cases op with
  | stdout events =>
      obtain ⟨t, hexec, hsynced, _⟩ := exec_of_onStdout h
      rw [hsynced]
      exact isSome_track hregion hexec
  | resize cols rows =>
      obtain ⟨t, hresize, h⟩ := Option.bind_eq_some_iff.mp h
      cases h
      have hexec : l.session.terminal.exec x.env [.resize cols rows] = some t := by
        rw [Terminal.exec, List.foldlM_cons]
        exact Option.bind_eq_some_iff.mpr ⟨t, hresize, rfl⟩
      have htrack := isSome_track (n := l.now) hregion hexec
      exact htrack
  | setTitleFromCtl _ | setTabColorFromCtl _ | setTabProgressFromCtl _ _ | notifyFromCtl _ | setTheme _ | setPanelEnabled _ =>
      cases h
      exact hregion
  | forceEndSynchronizedOutput =>
      cases h
      rfl

theorem regionAfter_le {op : SessionState.Op} {r : Nat} (hle : ∀ r ∈ l.regionStart, r ≤ l.now)
    (h : regionAfter x.env l op = some r) : r ≤ l.now := by
  cases op with
  | forceEndSynchronizedOutput => cases h
  | stdout _ | resize _ _ | setTitleFromCtl _ | setTabColorFromCtl _ | setTabProgressFromCtl _ _ | notifyFromCtl _
  | setTheme _ | setPanelEnabled _ => exact track_le hle h

/-- `Resized` と ctl は、区間の始まりを変えない。 -/
theorem regionAfter_of_opOf {a : Action} {op : SessionState.Op} {r : Emulator.ProcessResult} {session : SessionState}
    (hregion : l.regionStart.isSome = l.syncActive) (hop : opOf a = some op)
    (h : l.session.apply x.env op = some (r, session)) : regionAfter x.env l op = l.regionStart := by
  cases op with
  | stdout events =>
      exfalso
      unfold opOf at hop
      split at hop <;> cases hop
  | forceEndSynchronizedOutput =>
      exfalso
      unfold opOf at hop
      split at hop <;> cases hop
  | resize cols rows =>
      obtain ⟨t, hresize, _⟩ := Option.bind_eq_some_iff.mp h
      have hstep : l.session.terminal.step x.env (.resize cols rows) = some t := hresize
      simp only [regionAfter, eventsOf, track, hstep, modes_resizePreservingState hresize]
      change l.regionStart.isSome = l.session.terminal.modes.synchronizedOutputActive at hregion
      rw [← hregion]
      cases l.regionStart <;> rfl
  | setTitleFromCtl _ | setTabColorFromCtl _ | setTabProgressFromCtl _ _ | notifyFromCtl _ | setTheme _ | setPanelEnabled _ => rfl

end Loop

end

section

variable {π : Type} {x : Externals π} {l l' : Loop π}

namespace Loop

/-! ## 条件 -/

theorem Undivided.of_same (h : Undivided l) (hemissions : l'.emissions = l.emissions) (hforced : l'.forced = l.forced) :
    Undivided l' := by
  refine ⟨?_, ?_⟩
  · rw [hemissions]
    exact h.emissions
  · rw [hforced]
    exact h.forced

/-! ## 不変条件 -/

structure SyncInv (l : Loop π) : Prop where
  region : l.regionStart.isSome = l.syncActive
  started : ∀ r ∈ l.regionStart, r ≤ l.now
  handle : l.safety.handle = l.safety.armedGeneration.isSome
  current : ∀ g ∈ l.safety.armedGeneration, g = l.safety.generation
  sleeping : ∀ g deadline, l.safety.task = some (g, deadline) →
    l.safety.armedGeneration = some g ∧ ∀ r ∈ l.regionStart, r + syncOutputSafetyTimeout ≤ deadline
  queued : ∀ g ∈ l.safety.rx, g ≤ l.safety.generation ∧
    (l.safety.armedGeneration = some g → ∀ r ∈ l.regionStart, r + syncOutputSafetyTimeout ≤ l.now)
  undivided : l.Undivided

/-- 反復の間では、タイマーは区間の中にあるときに限り動いている。 -/
structure SyncArmed (l : Loop π) : Prop extends SyncInv l where
  armed : l.safety.armedGeneration.isSome = l.syncActive

theorem SyncArmed.start (cols rows : Nat) (theme : Theme) (parser : π) : SyncArmed (start cols rows theme parser) where
  region := rfl
  started := by
    intro r hr
    cases hr
  handle := rfl
  current := by
    intro g hg
    cases hg
  sleeping := by
    intro g deadline h
    cases h
  queued := by
    intro g hg
    cases hg
  undivided := by
    constructor
    · intro e he
      cases he
    · intro p hp
      cases hp
  armed := rfl

/-- 区間が閉じるか、始まりが変わらないか、タイマーが動いていなければ、操作の後も不変条件は成り立つ。 -/
theorem SyncInv.of_region (h : SyncInv l) (hnow : l'.now = l.now) (hsafety : l'.safety = l.safety)
    (hemissions : l'.emissions = l.emissions) (hforced : l'.forced = l.forced)
    (hregion : l'.regionStart.isSome = l'.syncActive) (hle : ∀ r ∈ l'.regionStart, r ≤ l.now)
    (hsub : l.safety.armedGeneration = none ∨ ∀ r ∈ l'.regionStart, r ∈ l.regionStart) : SyncInv l' where
  region := hregion
  started := by
    rw [hnow]
    exact hle
  handle := by
    rw [hsafety]
    exact h.handle
  current := by
    rw [hsafety]
    exact h.current
  sleeping := by
    rw [hsafety]
    intro g deadline htask
    obtain ⟨harmed, hdeadline⟩ := h.sleeping g deadline htask
    refine ⟨harmed, ?_⟩
    intro r hr
    rcases hsub with hnone | hsub
    · rw [hnone] at harmed
      cases harmed
    · exact hdeadline r (hsub r hr)
  queued := by
    rw [hsafety, hnow]
    intro g hg
    obtain ⟨hgen, hdeadline⟩ := h.queued g hg
    refine ⟨hgen, ?_⟩
    intro harmed r hr
    rcases hsub with hnone | hsub
    · rw [hnone] at harmed
      cases harmed
    · exact hdeadline harmed r (hsub r hr)
  undivided := h.undivided.of_same hemissions hforced

/-- 不変条件は、チャネルから取り出した後も成り立つ。 -/
theorem SyncInv.receive {gen : Nat} {rx : List Nat} (h : SyncInv l) (hrx : l.safety.rx = gen :: rx) :
    SyncInv { l with safety := { l.safety with rx } } where
  region := h.region
  started := h.started
  handle := h.handle
  current := h.current
  sleeping := h.sleeping
  queued g hg := h.queued g (hrx ▸ List.mem_cons_of_mem gen hg)
  undivided := h.undivided.of_same rfl rfl

theorem SyncInv.emit (h : SyncInv l) (hactive : l.syncActive = false) (hemit : l.emitScreenUpdate = some l') :
    SyncInv l' := by
  obtain ⟨update, session, hupdate, rfl⟩ := emitScreenUpdate_eq hemit
  have hsynced : synced session.terminal = l.syncActive := by
    obtain ⟨dirtyRows, _, hupdate⟩ := Option.bind_eq_some_iff.mp hupdate
    cases hupdate
    rfl
  refine ⟨h.region.trans hsynced.symm, h.started, h.handle, h.current, h.sleeping, h.queued, ⟨?_, h.undivided.forced⟩⟩
  intro e he
  rcases List.mem_cons.mp he with rfl | he
  · exact hactive
  · exact h.undivided.emissions e he

/-! ## 時間の経過 -/

theorem SyncArmed.elapse (h : SyncArmed l) (d : Nat) : SyncArmed { l with now := l.now + d } where
  region := h.region
  started r hr := (h.started r hr).trans (Nat.le_add_right _ _)
  handle := h.handle
  current := h.current
  sleeping := h.sleeping
  queued g hg :=
    ⟨(h.queued g hg).1, fun harmed r hr => ((h.queued g hg).2 harmed r hr).trans (Nat.le_add_right _ _)⟩
  undivided := h.undivided.of_same rfl rfl
  armed := h.armed

theorem SyncArmed.wake (h : SyncArmed l) {safety : SafetyNet} (hwake : l.safety.wake l.now = some safety) :
    SyncArmed { l with safety } := by
  cases htask : l.safety.task with
  | none => simp [SafetyNet.wake, htask] at hwake
  | some p =>
      obtain ⟨gen, deadline⟩ := p
      obtain ⟨harmed, hdeadline⟩ := h.sleeping gen deadline htask
      simp only [SafetyNet.wake, htask, Option.ite_none_right_eq_some] at hwake
      obtain ⟨⟨hle, _⟩, hwake⟩ := hwake
      cases hwake
      refine ⟨⟨h.region, h.started, h.handle, h.current, ?_, ?_, h.undivided.of_same rfl rfl⟩, h.armed⟩
      · intro g t hsome
        cases hsome
      · intro g hg
        obtain rfl := List.mem_singleton.mp hg
        exact ⟨(h.current g harmed).le, fun _ r hr => (hdeadline r hr).trans hle⟩

/-! ## ループの末尾 -/

theorem SyncInv.reconcile (h : SyncInv l) : SyncArmed l.reconcile := by
  cases hactive : l.syncActive with
  | false =>
      have heq : l.reconcile =
          { l with safety := { l.safety with handle := false, task := none, armedGeneration := none } } := by
        simp [Loop.reconcile, SafetyNet.reconcile, hactive]
      rw [heq]
      refine ⟨⟨h.region, h.started, rfl, ?_, ?_, ?_, h.undivided.of_same rfl rfl⟩, hactive.symm⟩
      · intro g hg
        cases hg
      · intro g deadline htask
        cases htask
      · intro g hg
        refine ⟨(h.queued g hg).1, ?_⟩
        intro harmed
        cases harmed
  | true =>
      cases hhandle : l.safety.handle with
      | true =>
          have heq : l.reconcile = l := by simp [Loop.reconcile, SafetyNet.reconcile, hactive, hhandle]
          rw [heq]
          exact ⟨h, (h.handle.symm.trans hhandle).trans hactive.symm⟩
      | false =>
          have heq : l.reconcile = { l with safety := { l.safety with
              handle := true
              task := some (l.safety.generation + 1, l.now + syncOutputSafetyTimeout)
              generation := l.safety.generation + 1
              armedGeneration := some (l.safety.generation + 1) } } := by
            simp [Loop.reconcile, SafetyNet.reconcile, hactive, hhandle]
          rw [heq]
          refine ⟨⟨h.region, h.started, rfl, ?_, ?_, ?_, h.undivided.of_same rfl rfl⟩, hactive.symm⟩
          · intro g hg
            cases hg
            rfl
          · intro g deadline htask
            cases htask
            exact ⟨rfl, fun r hr => Nat.add_le_add_right (h.started r hr) _⟩
          · intro g hg
            have hgen := (h.queued g hg).1
            refine ⟨hgen.trans (Nat.le_succ _), ?_⟩
            -- 前の世代の通知は、新しい区間のものではない。
            intro harmed
            have hsucc : l.safety.generation + 1 = g := Option.some.inj harmed
            omega

theorem SyncArmed.settled {dirty : Bool} (h : SyncArmed l)
    (hquiet : dirty = true → l.emitsNow = true → l.syncActive = false) (hs : Settled l dirty l') : SyncArmed l' := by
  have hsame := SameTimers.of_settled hs
  cases hs with
  | clean => exact h
  | dirty hnote =>
      rw [noteDirty] at hnote
      split at hnote
      · rename_i hnow
        have hinv : SyncInv { l with throttle := (l.throttle.onDirty l.now).1 } :=
          ⟨h.region, h.started, h.handle, h.current, h.sleeping, h.queued, h.undivided.of_same rfl rfl⟩
        have hemitted := hinv.emit (hquiet rfl (decide_eq_true hnow)) hnote
        refine ⟨hemitted, ?_⟩
        rw [← hemitted.region, hsame.safety, hsame.regionStart, h.region]
        exact h.armed
      · cases hnote
        exact ⟨⟨h.region, h.started, h.handle, h.current, h.sleeping, h.queued, h.undivided.of_same rfl rfl⟩, h.armed⟩
      · cases hnote
        exact ⟨⟨h.region, h.started, h.handle, h.current, h.sleeping, h.queued, h.undivided.of_same rfl rfl⟩, h.armed⟩

/-! ## select の腕 -/

theorem SyncInv.dequeued (h : SyncInv l) (a : Action) : SyncInv (l.dequeued a) := by
  cases a with
  | timeout =>
      exact ⟨h.region, h.started, h.handle, h.current, h.sleeping, h.queued, h.undivided.of_same rfl rfl⟩
  | elapse _ | timerTask | safetyTask | event _ | command _ | flushStdin | safetyTimeout | repaint => exact h

/-- 閉じて開き直さないバッチの後の区間は、前の区間か、前に区間が無かったときの新しい区間である。 -/
theorem SyncArmed.regionAfter_sub (h : SyncArmed l) {events : List Event} {r : Emulator.ProcessResult}
    {session : SessionState} (hguard : (l.syncActive && reopens x.env l.session.terminal events) = false)
    (happly : l.session.apply x.env (.stdout events) = some (r, session)) :
    l.safety.armedGeneration = none ∨ ∀ r ∈ regionAfter x.env l (.stdout events), r ∈ l.regionStart := by
  cases hactive : l.syncActive with
  | false =>
      left
      have harmed := h.armed
      rw [hactive] at harmed
      exact Option.not_isSome_iff_eq_none.mp (by simp [harmed])
  | true =>
      right
      obtain ⟨start, hstart⟩ := Option.isSome_iff_exists.mp (h.region.trans hactive)
      rw [hactive, Bool.true_and, reopens, Bool.and_eq_false_iff] at hguard
      intro r hr
      rcases hguard with hleaves | hclosed
      · change track x.env l.now l.regionStart l.session.terminal events = some r at hr
        rw [hstart, track_of_not_leaves hleaves] at hr
        rwa [hstart]
      · obtain ⟨t, hexec, hsynced, _⟩ := exec_of_onStdout happly
        rw [hexec, Option.any_some] at hclosed
        have hnone := isSome_regionAfter h.region happly
        rw [hsynced, hclosed, hr] at hnone
        cases hnone

theorem SyncArmed.select {a : Action} {r : Option ProcessResult} (h : SyncArmed l) (hs : Selected x l a r l')
    (hguard : Unbroken x l a) : SyncInv l' := by
  cases hs with
  | stop =>
      exact ⟨h.region, h.started, h.handle, h.current, h.sleeping, h.queued, h.undivided.of_same rfl rfl⟩
  | idle _ => exact h.toSyncInv
  | op hop happly =>
      refine h.of_region rfl rfl rfl rfl (isSome_regionAfter h.region happly)
        (fun r hr => regionAfter_le h.started hr) (Or.inr ?_)
      rw [regionAfter_of_opOf h.region hop happly]
      exact fun r hr => hr
  | @fsm _ i _ _ hi happly =>
      have hreopens : (l.syncActive && reopens x.env l.session.terminal (l.parsed x i).2) = false := by
        rw [Unbroken, breaks, hi, Option.any_some] at hguard
        cases hactive : l.syncActive with
        | false => rfl
        | true =>
            rw [hactive, Bool.true_and, Bool.or_eq_false_iff] at hguard
            exact hguard.2
      have hdequeued := h.toSyncInv.dequeued a
      have hsame : (l.dequeued a).now = l.now ∧ (l.dequeued a).safety = l.safety ∧
          (l.dequeued a).regionStart = l.regionStart := by
        cases a <;> exact ⟨rfl, rfl, rfl⟩
      refine hdequeued.of_region rfl rfl rfl rfl (isSome_regionAfter h.region happly) ?_ ?_
      · rw [hsame.1]
        intro r hr
        have hr' : regionAfter x.env l (.stdout (l.parsed x i).2) = some r := hr
        exact regionAfter_le h.started hr'
      · rw [hsame.2.1, hsame.2.2]
        exact h.regionAfter_sub hreopens happly
  | stale hrx _ => exact h.receive hrx
  | force hrx hgen happly =>
      have hreceived := h.receive hrx
      cases happly
      refine ⟨rfl, ?_, h.handle, h.current, ?_, ?_, h.undivided.emissions, ?_⟩
      · intro r hr
        cases hr
      · intro g deadline htask
        refine ⟨(h.sleeping g deadline htask).1, ?_⟩
        intro r hr
        cases hr
      · intro g hg
        refine ⟨(hreceived.queued g hg).1, ?_⟩
        intro _ r hr
        cases hr
      · intro p hp
        rcases List.mem_append.mp hp with hp | hp
        · obtain ⟨start, hstart, rfl⟩ := List.mem_map.mp hp
          have hmem : start ∈ l.regionStart := Option.mem_toList.mp hstart
          exact (h.queued _ (hrx ▸ List.mem_cons_self)).2 hgen start hmem
        · exact h.undivided.forced p hp
  | repaint _ _ hemit =>
      refine h.emit ?_ hemit
      simpa [Unbroken, breaks, isRepaint] using hguard

/-- 区間の中では、反映を求める操作も即座の反映にはならない。 -/
theorem quiet_of_selected {a : Action} {r : Option ProcessResult} (hs : Selected x l a r l') (hguard : Unbroken x l a)
    (hdirty : dirtyOf r = true) (hnow : l'.emitsNow = true) : l'.syncActive = false := by
  cases hs with
  | stop => cases hdirty
  | idle hr => rcases hr with rfl | rfl <;> cases hdirty
  | stale _ _ => cases hdirty
  | repaint _ _ _ => cases hdirty
  | force _ _ happly =>
      cases happly
      rfl
  | fsm hi happly =>
      obtain ⟨t, _, hsynced, hscreen⟩ := exec_of_onStdout happly
      rw [dirtyOf, Option.any_some, Bool.and_eq_true, hscreen] at hdirty
      exact hsynced.trans (by simpa using hdirty.2)
  | @op _ op _ _ hop happly =>
      have hsynced := synced_apply hop happly
      have hredraws : redraws op = true := by
        cases op with
        | setTheme _ | setPanelEnabled _ =>
            cases happly
            cases hdirty
        | stdout _ | resize _ _ | setTitleFromCtl _ | setTabColorFromCtl _ | setTabProgressFromCtl _ _ | notifyFromCtl _
        | forceEndSynchronizedOutput => rfl
      have hemits : l.emitsNow = true := hnow
      rw [Unbroken, breaks, hop, Option.any_some, hredraws, hemits] at hguard
      simp only [Bool.and_self, Bool.or_true, Bool.true_or, Bool.and_true] at hguard
      exact hsynced.trans hguard

/-! ## 実行 -/

theorem SyncArmed.step {a : Action} (h : SyncArmed l) (hs : Steps x l a l') (hguard : Unbroken x l a) : SyncArmed l' := by
  cases stepped_of_step hs with
  | elapse d => exact h.elapse d
  | timerTask _ =>
      exact ⟨⟨h.region, h.started, h.handle, h.current, h.sleeping, h.queued, h.undivided.of_same rfl rfl⟩, h.armed⟩
  | safetyTask hwake => exact h.wake hwake
  | stop _ =>
      exact ⟨⟨h.region, h.started, h.handle, h.current, h.sleeping, h.queued, h.undivided.of_same rfl rfl⟩, h.armed⟩
  | @iterate _ r l₁ l₂ _ _ hselected hsettled =>
      have hinv := h.select hselected hguard
      have hsettled' : SyncArmed l₂ := by
        have hquiet (hdirty : dirtyOf r = true) (hnow : l₁.emitsNow = true) : l₁.syncActive = false :=
          quiet_of_selected hselected hguard hdirty hnow
        exact hinv.reconcile.settled hquiet hsettled
      obtain ⟨timers, lastCommand, heq⟩ := foldl_runTimerCmd_eq (timerCmdsOf r) l₂
      rw [heq]
      exact ⟨⟨hsettled'.region, hsettled'.started, hsettled'.handle, hsettled'.current, hsettled'.sleeping,
        hsettled'.queued, hsettled'.undivided.of_same rfl rfl⟩, hsettled'.armed⟩

theorem syncArmed_of_run {cols rows : Nat} {theme : Theme} {parser : π} {as : List Action}
    (h : Run (Guarded (Steps x) (Unbroken x)) (Loop.start cols rows theme parser) as l) : SyncArmed l :=
  Run.invariant_of_guarded (fun _ _ _ hinv hstep hguard => hinv.step hstep hguard) h (.start cols rows theme parser)

end Loop

end

end IsekaiTerminal.SessionLoop
