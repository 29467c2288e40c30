import IsekaiTerminal.Reconnect.Lemmas.State

/-!
# 自動再接続ループの試行とタイマー
-/

namespace IsekaiTerminal.Reconnect

open Protocol Lib ReconnectState

/-! ## 1 回の適用 -/

@[simp] def ReconnectEffect.isLoop : ReconnectEffect → Bool
  | .armLoopTimer _ _ _ | .loopTicked _ _ _ | .publishReconnectTimedOut _ | .startAttempt _ _ => true
  | _ => false

structure KeepsLoop (s s' : ReconnectState) : Prop where
  active : s'.reconnectLoopActive = s.reconnectLoopActive
  epoch : s'.reconnectEpoch = s.reconnectEpoch
  clock : s'.loopClock = s.loopClock
  inFlight : s'.retryAttemptInFlight = s.retryAttemptInFlight
  pendingWake : s'.pendingWake = s.pendingWake

/-- 1 回の適用がループにしうること。 -/
inductive LoopStep (s : ReconnectState) : ReconnectEvent → ReconnectState × List ReconnectEffect → Prop
  | idle {e r} (hk : KeepsLoop s r.1) (hq : r.2.any ReconnectEffect.isLoop = false) : LoopStep s e r
  | stops {e r} (hl : r.1.reconnectLoopActive = false) (hc : r.1.loopClock = none)
      (hq : r.2.any ReconnectEffect.isLoop = false) : LoopStep s e r
  | fails {r} (hk : KeepsLoop { s with retryAttemptInFlight := false } r.1)
      (hq : r.2.any ReconnectEffect.isLoop = false) : LoopStep s (.attemptFailedSync s.reconnectEpoch) r
  | disconnects {g kind b r} (hl : s.reconnectLoopActive = true)
      (hk : KeepsLoop { s with retryAttemptInFlight := false } r.1)
      (hq : r.2.any ReconnectEffect.isLoop = false) : LoopStep s (.attemptDisconnected g kind b) r
  | restarts {g kind b r} (hl : s.reconnectLoopActive = false)
      (hc : r.1.loopClock = none ∨ (r.1.loopClock = s.loopClock ∧ r.1.reconnectLoopActive = false))
      (hq : r.2.any ReconnectEffect.isLoop = false) : LoopStep s (.attemptDisconnected g kind b) r
  | starts {policy} (hl : s.reconnectLoopActive = true) (hc : s.loopClock = none) :
      LoopStep s (.loopStarted s.reconnectEpoch policy)
        ({ s with loopClock := some ⟨0, 0, policy⟩ },
          [.publishReconnecting 0 policy.timeoutSecs, .armLoopTimer s.reconnectEpoch policy.tick (Duration.asSecs 0)])
  | wakes {policy clock r} (hl : s.loopIsLive s.reconnectEpoch = true) (hc : s.loopClock = some clock)
      (hw : Wakes s s.reconnectEpoch policy clock r) : LoopStep s (.reconnectWake s.reconnectEpoch policy) r
  | ticks {policy clock r} (hl : s.loopIsLive s.reconnectEpoch = true) (hc : s.loopClock = some clock)
      (ht : Ticks s s.reconnectEpoch policy clock r) : LoopStep s (.reconnectTick s.reconnectEpoch policy) r

section

variable {s s' : ReconnectState} {e : ReconnectEvent} {r : ReconnectState × List ReconnectEffect}
  {epoch : UInt64}

theorem KeepsLoop.refl (s : ReconnectState) : KeepsLoop s s := ⟨rfl, rfl, rfl, rfl, rfl⟩

theorem LoopStep.refl (s : ReconnectState) (e : ReconnectEvent) : LoopStep s e (s, []) := .idle (.refl s) rfl

theorem setPhase_loop (s : ReconnectState) (phase : ConnPhase) (e : ReconnectEvent) :
    LoopStep s e (s.setPhase phase) := by
  by_cases h : phase = .connected
  · rw [h, setPhase_connected]
    exact .idle ⟨rfl, rfl, rfl, rfl, rfl⟩ rfl
  · rw [setPhase_of_ne s h]
    exact .idle ⟨rfl, rfl, rfl, rfl, rfl⟩ (by simp)

theorem ReconnectState.Disconnects.loop {g : Nat} {kind : DisconnectKind} {b : Bool}
    (h : Disconnects s kind r) : LoopStep s (.attemptDisconnected g kind b) r := by
  cases h with
  | loops hl ht =>
      refine .disconnects hl ⟨rfl, rfl, rfl, rfl, rfl⟩ ?_
      rcases ht with rfl | rfl <;> simp
  | starts hl => exact .restarts hl (Or.inl rfl) (by simp)
  | ends hl => exact .restarts hl (Or.inr ⟨rfl, hl⟩) (by simp)

theorem onAttemptConnected_loop (s : ReconnectState) (g : Nat) :
    LoopStep s (.attemptConnected g) (s.onAttemptConnected g) := by
  refine .stops (by rw [onAttemptConnected_fst]; rfl) (by rw [onAttemptConnected_fst]; rfl) ?_
  simp only [onAttemptConnected, setPhase_connected]
  split <;> split <;> simp [closeEdge_snd]

theorem apply_loop (s : ReconnectState) (e : ReconnectEvent) : LoopStep s e (s.apply e) := by
  cases e with
  | attemptConnected g => exact onAttemptConnected_loop s g
  | attemptDisconnected g kind b => exact (onAttemptDisconnected_cases s kind b).loop
  | sessionCreated g =>
      simp only [apply]
      split
      · refine .idle ?_ (by simp [closeEdge_snd])
        rw [closeEdge_fst]
        exact ⟨rfl, rfl, rfl, rfl, rfl⟩
      · exact .refl s _
  | manualConnectStarted attempt =>
      simp only [apply, onManualConnectStarted]
      split
      · exact .idle (.refl s) rfl
      · exact .stops rfl rfl (by simp)
  | reconnectSessionStarting => exact setPhase_loop s _ _
  | foregroundReconnectFailedSync =>
      simp only [apply, setPhase_idle]
      exact .idle ⟨rfl, rfl, rfl, rfl, rfl⟩ (by simp)
  | loopStarted epoch policy =>
      simp only [apply, onLoopStarted]
      split
      · exact .refl s _
      · rename_i h
        simp only [not_or, not_not, Bool.not_eq_false, Bool.not_eq_true, Option.isSome_eq_false_iff,
          Option.isNone_iff_eq_none] at h
        obtain ⟨rfl, hl, hc⟩ := h
        exact .starts hl hc
  | reconnectWake epoch policy =>
      simp only [apply]
      rcases onReconnectWake_step s epoch policy with hr | ⟨clock, hl, hc, hw⟩
      · rw [hr]
        exact .refl s _
      · obtain ⟨rfl, -⟩ := loopIsLive_iff.mp hl
        exact .wakes hl hc hw
  | reconnectTick epoch policy =>
      simp only [apply]
      rcases onReconnectTick_step s epoch policy with hr | ⟨clock, hl, hc, ht⟩
      · rw [hr]
        exact .refl s _
      · obtain ⟨rfl, -⟩ := loopIsLive_iff.mp hl
        exact .ticks hl hc ht
  | attemptFailedSync epoch =>
      simp only [apply]
      split
      · rename_i h
        subst h
        split
        · simp only [setPhase_idle]
          exact .fails ⟨rfl, rfl, rfl, rfl, rfl⟩ (by simp)
        · exact .fails (.refl _) rfl
      · exact .refl s _
  | cancelReconnect =>
      simp only [apply, abortLoopAttempt, setPhase_idle]
      split
      · exact .stops rfl rfl (by simp)
      · exact .stops rfl rfl rfl
  | userDisconnect =>
      simp only [apply, abortLoopAttempt, setPhase_idle]
      split
      · exact .stops rfl rfl (by simp)
      · exact .idle ⟨rfl, rfl, rfl, rfl, rfl⟩ rfl
  | manualConnectFailedSync =>
      simp only [apply]
      split
      · exact setPhase_loop s _ _
      · exact .refl s _
  | loopStartAborted epoch =>
      simp only [apply]
      split
      · exact .refl s _
      · exact .stops rfl rfl rfl

/-! ## 作用の数え方 -/

theorem ReconnectEffect.isLoop_of_isArm {c : ReconnectEffect} (h : c.isArm = true) : c.isLoop = true := by
  cases c <;> first | rfl | cases h

theorem ReconnectEffect.isLoop_of_isTicked {c : ReconnectEffect} (h : c.isTicked = true) : c.isLoop = true := by
  cases c <;> first | rfl | cases h

theorem not_mem_of_quiet {c : ReconnectEffect} {cs : List ReconnectEffect}
    (hq : cs.any ReconnectEffect.isLoop = false) (hc : c.isLoop = true) : c ∉ cs := by
  intro hm
  rw [List.any_eq_false] at hq
  exact hq c hm hc

theorem any_eq_false_of_quiet {f : ReconnectEffect → Bool} {cs : List ReconnectEffect}
    (hq : cs.any ReconnectEffect.isLoop = false) (hf : ∀ c, f c = true → c.isLoop = true) : cs.any f = false := by
  rw [List.any_eq_false] at hq ⊢
  exact fun c hm hc => hq c hm (hf c hc)

/-- 試行を始めるのは、動作中のループの、試行中でないときの wake か tick だけである。 -/
theorem LoopStep.starts_attempt (h : LoopStep s e r) {source : AttemptSource}
    (hm : .startAttempt epoch source ∈ r.2) :
    e.Drives epoch ∧ epoch = s.reconnectEpoch ∧ s.reconnectLoopActive = true ∧ s.retryAttemptInFlight = false ∧
      r.1.reconnectLoopActive = true ∧ r.1.reconnectEpoch = epoch ∧ r.1.retryAttemptInFlight = true := by
  cases h with
  | idle hk hq => exact absurd hm (not_mem_of_quiet hq rfl)
  | stops hl hc hq => exact absurd hm (not_mem_of_quiet hq rfl)
  | fails hk hq => exact absurd hm (not_mem_of_quiet hq rfl)
  | disconnects hl hk hq => exact absurd hm (not_mem_of_quiet hq rfl)
  | restarts hl hc hq => exact absurd hm (not_mem_of_quiet hq rfl)
  | starts => simp at hm
  | @wakes policy clock r hl hc hw =>
      obtain ⟨-, hactive, -⟩ := loopIsLive_iff.mp hl
      cases hw with
      | attempts hf =>
          simp only [List.mem_cons, reduceCtorEq, ReconnectEffect.startAttempt.injEq, List.not_mem_nil,
            or_false, false_or] at hm
          obtain ⟨rfl, -⟩ := hm
          exact ⟨⟨policy, Or.inr rfl⟩, rfl, hactive, hf, hactive, rfl, rfl⟩
      | pends => simp at hm
  | @ticks policy clock r hl hc ht =>
      obtain ⟨-, hactive, -⟩ := loopIsLive_iff.mp hl
      cases ht with
      | timesOut => simp at hm
      | attempts ht hf =>
          simp only [List.mem_cons, reduceCtorEq, ReconnectEffect.startAttempt.injEq, List.not_mem_nil,
            or_false, false_or] at hm
          obtain ⟨rfl, -⟩ := hm
          exact ⟨⟨policy, Or.inl rfl⟩, rfl, hactive, hf, hactive, rfl, rfl⟩
      | waits => simp at hm

/-! ## 試行は重ならない -/

/-- epoch `epoch` の試行が終わっていない。ループが動いていれば、まだその試行の最中である。 -/
def Attempting (epoch : UInt64) (s : ReconnectState) : Prop :=
  s.reconnectLoopActive = true → s.reconnectEpoch = epoch ∧ s.retryAttemptInFlight = true

theorem LoopStep.attempting (h : LoopStep s e r) (ha : Attempting epoch s) (he : ¬ e.EndsAttempt epoch) :
    Attempting epoch r.1 := by
  cases h with
  | idle hk => intro hl; rw [hk.epoch, hk.inFlight]; exact ha (hk.active ▸ hl)
  | stops hl => intro hl'; rw [hl] at hl'; cases hl'
  | fails hk =>
      intro hl
      obtain ⟨rfl, -⟩ := ha (hk.active ▸ hl)
      exact absurd (Or.inl rfl) he
  | disconnects | restarts => exact absurd (Or.inr ⟨_, _, _, rfl⟩) he
  | starts => exact ha
  | wakes hl hc hw =>
      cases hw with
      | attempts => exact fun h => ⟨(ha h).1, rfl⟩
      | pends => exact ha
  | ticks hl hc ht =>
      cases ht with
      | timesOut => intro h; cases h
      | attempts => exact fun h => ⟨(ha h).1, rfl⟩
      | waits => exact ha

theorem run_attempting {es : List ReconnectEvent} (ha : Attempting epoch s)
    (he : ∀ f ∈ es, ¬ f.EndsAttempt epoch) : Attempting epoch (Reducer.run ReconnectState.apply s es) :=
  Reducer.run_invariant_of (fun s e he ha => (apply_loop s e).attempting ha he) ha he

/-! ## tick と wake -/

theorem apply_drives (hl : s.loopIsLive epoch = true) (he : e.Drives epoch) :
    ((s.apply e).2.countP ReconnectEffect.isArm = 1 ∧ (s.apply e).2.any ReconnectEffect.isTimedOut = false) ∨
      ((s.apply e).2.countP ReconnectEffect.isArm = 0 ∧ (s.apply e).2.any ReconnectEffect.isTimedOut = true ∧
        (s.apply e).1.reconnectLoopActive = false) := by
  obtain ⟨-, -, clock, hc⟩ := loopIsLive_iff.mp hl
  obtain ⟨policy, rfl | rfl⟩ := he
  · have ht := onReconnectTick_cases hl hc policy
    simp only [apply]
    generalize s.onReconnectTick epoch policy = r at ht
    cases ht with
    | timesOut =>
        refine Or.inr ⟨?_, ?_, rfl⟩
        · simp [List.countP_append, List.countP_map, Function.comp_def, ReconnectEffect.isArm]
        · simp [ReconnectEffect.isTimedOut]
    | attempts | waits => exact Or.inl ⟨rfl, rfl⟩
  · have hw := onReconnectWake_cases hl hc policy
    simp only [apply]
    generalize s.onReconnectWake epoch policy = r at hw
    cases hw with
    | attempts | pends => exact Or.inl ⟨rfl, rfl⟩

/-- 覚えておいた wake があれば、試行中でないときの tick と wake は、試みるか、時間切れでループを終える。 -/
theorem apply_drives_pending (hl : s.loopIsLive epoch = true) (he : e.Drives epoch)
    (hf : s.retryAttemptInFlight = false) (hw : s.pendingWake = true) :
    (∃ source, .startAttempt epoch source ∈ (s.apply e).2) ∨
      (s.apply e).2.any ReconnectEffect.isTimedOut = true := by
  obtain ⟨-, -, clock, hc⟩ := loopIsLive_iff.mp hl
  obtain ⟨policy, rfl | rfl⟩ := he
  · have ht := onReconnectTick_cases hl hc policy
    simp only [apply]
    generalize s.onReconnectTick epoch policy = r at ht
    cases ht with
    | timesOut => exact Or.inr (by simp [ReconnectEffect.isTimedOut])
    | attempts => exact Or.inl ⟨_, by simp; rfl⟩
    | waits ht hf' => simp [hf, hw] at hf'
  · have hwakes := onReconnectWake_cases hl hc policy
    simp only [apply]
    generalize s.onReconnectWake epoch policy = r at hwakes
    cases hwakes with
    | attempts => exact Or.inl ⟨_, by simp; rfl⟩
    | pends hf' => rw [hf] at hf'; cases hf'

theorem apply_endsAttempt (hl : s.loopIsLive epoch = true) (he : e.EndsAttempt epoch) :
    KeepsLoop { s with retryAttemptInFlight := false } (s.apply e).1 := by
  obtain ⟨rfl, hactive, -⟩ := loopIsLive_iff.mp hl
  obtain rfl | ⟨generation, kind, targetsLocalNetwork, rfl⟩ := he
  · simp only [apply, if_true]
    split
    · rw [setPhase_idle]
      exact ⟨rfl, rfl, rfl, rfl, rfl⟩
    · exact .refl _
  · have hd := onAttemptDisconnected_cases s kind targetsLocalNetwork
    simp only [apply]
    generalize s.onAttemptDisconnected kind targetsLocalNetwork = r at hd
    cases hd with
    | loops => exact ⟨rfl, rfl, rfl, rfl, rfl⟩
    | starts hl' | ends hl' => rw [hactive] at hl'; cases hl'

/-! ## 試行中に届いた wake -/

theorem LiveThroughout.cons {es : List ReconnectEvent} (h : LiveThroughout s epoch (e :: es)) :
    s.loopIsLive epoch = true ∧ LiveThroughout (s.apply e).1 epoch es :=
  ⟨h [] List.nil_prefix, fun before hb => h (e :: before) (List.cons_prefix_cons.mpr ⟨rfl, hb⟩)⟩

theorem LiveThroughout.append {es es' : List ReconnectEvent} (h : LiveThroughout s epoch (es ++ es')) :
    LiveThroughout s epoch es ∧ LiveThroughout (Reducer.run ReconnectState.apply s es) epoch es' := by
  refine ⟨fun before hb => h before (hb.trans (List.prefix_append _ _)), fun before hb => ?_⟩
  rw [← Reducer.run_append]
  exact h _ ((List.prefix_append_right_inj _).mpr hb)

/-- ループが動き続ける間、1 回の適用で保たれる性質。 -/
theorem LiveThroughout.invariant {I : ReconnectState → Prop} {P : ReconnectEvent → Prop}
    (hstep : ∀ s e, s.loopIsLive epoch = true → (s.apply e).1.loopIsLive epoch = true → P e → I s →
      I (s.apply e).1) {es : List ReconnectEvent} (h : LiveThroughout s epoch es) (hes : ∀ e ∈ es, P e)
    (hs : I s) : I (Reducer.run ReconnectState.apply s es) := by
  induction es generalizing s with
  | nil => exact hs
  | cons e es ih =>
      obtain ⟨hl, h'⟩ := h.cons
      refine ih h' (fun e' hm => hes e' (List.mem_cons_of_mem _ hm)) ?_
      exact hstep s e hl (h' [] List.nil_prefix) (hes e List.mem_cons_self) hs

theorem LoopStep.keeps_inFlight (h : LoopStep s e r) (hl : s.loopIsLive epoch = true)
    (hl' : r.1.loopIsLive epoch = true) (he : ¬ e.EndsAttempt epoch) (hf : s.retryAttemptInFlight = true)
    (hw : s.pendingWake = true) : r.1.retryAttemptInFlight = true ∧ r.1.pendingWake = true := by
  obtain ⟨rfl, hactive, clock, hc⟩ := loopIsLive_iff.mp hl
  obtain ⟨-, hactive', -⟩ := loopIsLive_iff.mp hl'
  cases h with
  | idle hk => exact ⟨hk.inFlight.trans hf, hk.pendingWake.trans hw⟩
  | stops hl => rw [hl] at hactive'; cases hactive'
  | fails => exact absurd (Or.inl rfl) he
  | disconnects | restarts => exact absurd (Or.inr ⟨_, _, _, rfl⟩) he
  | starts _ hn => rw [hn] at hc; cases hc
  | wakes _ _ hwakes =>
      cases hwakes with
      | attempts hf' => rw [hf] at hf'; cases hf'
      | pends => exact ⟨hf, rfl⟩
  | ticks _ _ ht =>
      cases ht with
      | timesOut => cases hactive'
      | attempts _ hf' => rw [hf] at hf'; cases hf'
      | waits => exact ⟨hf, hw⟩

theorem LoopStep.keeps_pending (h : LoopStep s e r) (hl : s.loopIsLive epoch = true)
    (hl' : r.1.loopIsLive epoch = true) (he : ¬ e.Drives epoch) (hf : s.retryAttemptInFlight = false)
    (hw : s.pendingWake = true) : r.1.retryAttemptInFlight = false ∧ r.1.pendingWake = true := by
  obtain ⟨rfl, hactive, clock, hc⟩ := loopIsLive_iff.mp hl
  obtain ⟨-, hactive', -⟩ := loopIsLive_iff.mp hl'
  cases h with
  | idle hk => exact ⟨hk.inFlight.trans hf, hk.pendingWake.trans hw⟩
  | stops hl => rw [hl] at hactive'; cases hactive'
  | fails hk => exact ⟨hk.inFlight, hk.pendingWake.trans hw⟩
  | disconnects _ hk => exact ⟨hk.inFlight, hk.pendingWake.trans hw⟩
  | restarts hl => rw [hl] at hactive; cases hactive
  | starts _ hn => rw [hn] at hc; cases hc
  | wakes => exact absurd ⟨_, Or.inr rfl⟩ he
  | ticks => exact absurd ⟨_, Or.inl rfl⟩ he

/-- 試行中に届いた wake は、その試行が終わった後の最初の tick か wake で試みる。 -/
theorem wake_leads_to_attempt {policy : ReconnectPolicy} {mid later : List ReconnectEvent} {f : ReconnectEvent}
    (hlive : LiveThroughout s epoch (.reconnectWake epoch policy :: mid ++ f :: later))
    (hf : s.retryAttemptInFlight = true) (hmid : ∀ e ∈ mid, ¬ e.EndsAttempt epoch) (hend : f.EndsAttempt epoch)
    (hlater : ∀ e ∈ later, ¬ e.Drives epoch) (he : e.Drives epoch) :
    (∃ source, .startAttempt epoch source ∈
      ((Reducer.run ReconnectState.apply s (.reconnectWake epoch policy :: mid ++ f :: later)).apply e).2) ∨
      ((Reducer.run ReconnectState.apply s (.reconnectWake epoch policy :: mid ++ f :: later)).apply e).2.any
        ReconnectEffect.isTimedOut = true := by
  have hend_live := hlive _ List.prefix_rfl
  obtain ⟨hl, hrest⟩ := hlive.cons
  obtain ⟨hmidLive, hrest⟩ := hrest.append
  obtain ⟨hlf, hlaterLive⟩ := hrest.cons
  obtain ⟨-, -, clock, hc⟩ := loopIsLive_iff.mp hl
  -- wake は、試行中なら覚えておくだけである。
  have hwake : (s.apply (.reconnectWake epoch policy)).1.retryAttemptInFlight = true ∧
      (s.apply (.reconnectWake epoch policy)).1.pendingWake = true := by
    have hw := onReconnectWake_cases hl hc policy
    simp only [apply]
    generalize s.onReconnectWake epoch policy = r at hw
    cases hw with
    | attempts hf' => rw [hf] at hf'; cases hf'
    | pends => exact ⟨hf, rfl⟩
  have h₁ := hmidLive.invariant (I := fun s => s.retryAttemptInFlight = true ∧ s.pendingWake = true)
    (fun s e hl hl' he hs => (apply_loop s e).keeps_inFlight hl hl' he hs.1 hs.2) hmid hwake
  have h₂ := apply_endsAttempt hlf hend
  have h₃ := hlaterLive.invariant (I := fun s => s.retryAttemptInFlight = false ∧ s.pendingWake = true)
    (fun s e hl hl' he hs => (apply_loop s e).keeps_pending hl hl' he hs.1 hs.2) hlater
    ⟨h₂.inFlight, h₂.pendingWake.trans h₁.2⟩
  rw [List.cons_append, Reducer.run_cons, Reducer.run_append, Reducer.run_cons] at hend_live ⊢
  exact apply_drives_pending hend_live he h₃.1 h₃.2

/-! ## タイマーの会計 -/

theorem saturatingAdd_min (a b : Duration) :
    Duration.saturatingAdd (min a Duration.max) b = min (a + b) Duration.max := by
  have h (a b m : Nat) : min (min a m + b) m = min (a + b) m := by omega
  exact h a b Duration.max

/-- ループの会計は、履歴の和を `Duration::MAX` で切り詰めたものである。 -/
def TracksClock (s : ReconnectState) (log : LoopLog) : Prop :=
  ∀ clock, s.loopClock = some clock →
    log.armed = some clock.armed ∧ clock.elapsed = min log.elapsed Duration.max

theorem LoopLog.next_quiet {log : LoopLog} (hq : r.2.any ReconnectEffect.isLoop = false) :
    log.next e r.2 = log := by
  have harm := any_eq_false_of_quiet hq fun _ => ReconnectEffect.isLoop_of_isArm
  have htick := any_eq_false_of_quiet hq fun _ => ReconnectEffect.isLoop_of_isTicked
  cases e <;> simp [LoopLog.next, harm, htick]

theorem LoopStep.tracksClock {log : LoopLog} (h : LoopStep s e r) (ht : TracksClock s log) :
    TracksClock r.1 (log.next e r.2) := by
  cases h with
  | idle hk hq =>
      rw [LoopLog.next_quiet hq]
      intro clock hc
      exact ht clock (hk.clock ▸ hc)
  | stops hl hc hq =>
      intro clock hc'
      rw [hc] at hc'
      cases hc'
  | fails hk hq =>
      rw [LoopLog.next_quiet hq]
      intro clock hc
      exact ht clock (hk.clock ▸ hc)
  | disconnects hl hk hq =>
      rw [LoopLog.next_quiet hq]
      intro clock hc
      exact ht clock (hk.clock ▸ hc)
  | restarts hl hc hq =>
      rw [LoopLog.next_quiet hq]
      intro clock hc'
      rcases hc with hc | ⟨hc, -⟩
      · rw [hc] at hc'; cases hc'
      · exact ht clock (hc ▸ hc')
  | starts =>
      rintro clock ⟨⟩
      exact ⟨rfl, rfl⟩
  | @wakes policy clock r hl hc hw =>
      obtain ⟨-, helapsed⟩ := ht clock hc
      cases hw with
      | attempts | pends =>
          rintro clock ⟨⟩
          exact ⟨rfl, helapsed⟩
  | @ticks policy clock r hl hc hticks =>
      obtain ⟨harmed, helapsed⟩ := ht clock hc
      have hsum : clock.tick.elapsed = min (log.elapsed + clock.armed.tick) Duration.max := by
        rw [LoopClock.tick, helapsed, saturatingAdd_min]
      cases hticks with
      | timesOut => rintro clock ⟨⟩
      | attempts | waits =>
          rintro clock ⟨⟩
          refine ⟨rfl, ?_⟩
          simp only [LoopLog.next, harmed]
          exact hsum

theorem loopLog_concat (es : List ReconnectEvent) (e : ReconnectEvent) :
    loopLog (es ++ [e]) = (loopLog es).next e ((after es).apply e).2 :=
  Reducer.watch_concat _ _ _ _ _

theorem tracksClock_after (es : List ReconnectEvent) : TracksClock (after es) (loopLog es) :=
  Reducer.watch_invariant (fun s _ e h => (apply_loop s e).tracksClock h)
    (by simp [TracksClock, ReconnectState.start]) es

theorem ReconnectEffect.isLoop_of_isTimedOut {c : ReconnectEffect} (h : c.isTimedOut = true) :
    c.isLoop = true := by
  cases c <;> first | rfl | cases h

theorem LoopStep.not_timedOut (h : LoopStep s e r)
    (he : ¬ ∃ epoch policy, e = .reconnectTick epoch policy ∧ s.loopIsLive epoch = true) :
    r.2.any ReconnectEffect.isTimedOut = false := by
  have hquiet (hq : r.2.any ReconnectEffect.isLoop = false) : r.2.any ReconnectEffect.isTimedOut = false :=
    any_eq_false_of_quiet hq fun _ => ReconnectEffect.isLoop_of_isTimedOut
  cases h with
  | idle hk hq => exact hquiet hq
  | stops hl hc hq => exact hquiet hq
  | fails hk hq => exact hquiet hq
  | disconnects hl hk hq => exact hquiet hq
  | restarts hl hc hq => exact hquiet hq
  | starts => rfl
  | wakes hl hc hw => cases hw <;> rfl
  | ticks hl => exact absurd ⟨_, _, rfl, hl⟩ he

/-- 時間切れになるのは、動作中のループの tick で、満了したタイマーの長さの和が、そのタイマーを設定した方針の
`timeout` に達したときである。 -/
theorem timesOut_iff {log : LoopLog} (ht : TracksClock s log) (e : ReconnectEvent) :
    (s.apply e).2.any ReconnectEffect.isTimedOut = true ↔
      ∃ epoch policy armed, e = .reconnectTick epoch policy ∧ s.loopIsLive epoch = true ∧
        log.armed = some armed ∧ armed.timeout ≤ (log.next e (s.apply e).2).elapsed := by
  constructor
  · intro htimed
    have he : ∃ epoch policy, e = .reconnectTick epoch policy ∧ s.loopIsLive epoch = true := by
      by_contra he
      rw [(apply_loop s e).not_timedOut he] at htimed
      cases htimed
    obtain ⟨epoch, policy, rfl, hl⟩ := he
    obtain ⟨-, -, clock, hc⟩ := loopIsLive_iff.mp hl
    obtain ⟨harmed, helapsed⟩ := ht clock hc
    refine ⟨epoch, policy, clock.armed, rfl, hl, harmed, ?_⟩
    have hticks := onReconnectTick_cases hl hc policy
    simp only [apply] at htimed ⊢
    generalize s.onReconnectTick epoch policy = r at hticks htimed ⊢
    cases hticks with
    | timesOut hle =>
        simp only [LoopLog.next, harmed, List.any_cons, ReconnectEffect.isTicked, Bool.true_or, if_true]
        rw [LoopClock.tick, helapsed, saturatingAdd_min] at hle
        exact hle.trans (min_le_left _ _)
    | attempts | waits => cases htimed
  · rintro ⟨epoch, policy, armed, rfl, hl, harmed, hle⟩
    obtain ⟨-, -, clock, hc⟩ := loopIsLive_iff.mp hl
    obtain ⟨harmed', helapsed⟩ := ht clock hc
    obtain rfl := Option.some.inj (harmed.symm.trans harmed')
    have htick : clock.armed.timeout ≤ log.elapsed + clock.armed.tick → clock.armed.timeout ≤ clock.tick.elapsed := by
      intro h
      rw [LoopClock.tick, helapsed, saturatingAdd_min]
      exact le_min h clock.armed.timeout_le
    have hticks := onReconnectTick_cases hl hc policy
    simp only [apply] at hle ⊢
    generalize s.onReconnectTick epoch policy = r at hticks hle ⊢
    cases hticks with
    | timesOut => simp [ReconnectEffect.isTimedOut]
    | attempts hn | waits hn =>
        simp only [LoopLog.next, harmed] at hle
        exact absurd (htick hle) hn

/-- 時間切れのループは、進行中の試行を中断して止まる。 -/
theorem timesOut_aborts {e : ReconnectEvent} (h : (s.apply e).2.any ReconnectEffect.isTimedOut = true) :
    .abortInFlightAttempt ∈ (s.apply e).2 ∧ (s.apply e).1.reconnectLoopActive = false := by
  have he : ∃ epoch policy, e = .reconnectTick epoch policy ∧ s.loopIsLive epoch = true := by
    by_contra he
    rw [(apply_loop s e).not_timedOut he] at h
    cases h
  obtain ⟨epoch, policy, rfl, hl⟩ := he
  obtain ⟨-, -, clock, hc⟩ := loopIsLive_iff.mp hl
  have hticks := onReconnectTick_cases hl hc policy
  simp only [apply] at h ⊢
  generalize s.onReconnectTick epoch policy = r at hticks h ⊢
  cases hticks with
  | timesOut => exact ⟨by simp, rfl⟩
  | attempts | waits => cases h

end

end IsekaiTerminal.Reconnect
