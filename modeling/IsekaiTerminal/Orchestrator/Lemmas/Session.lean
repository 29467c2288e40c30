import IsekaiTerminal.Reconnect.Lemmas.Loop
import IsekaiTerminal.Orchestrator.Session

/-!
# 適用と公開
-/

namespace IsekaiTerminal.Orchestrator

open Protocol Lib Reconnect ReconnectState

/-! ## 呼び出し側から見た reducer の適用 -/

/-- 適用は epoch を高々 1 だけ進め、ループの起動は切断からだけ、接続の公開は接続の知らせからだけ出る。ループが
動いていなければ、接続の知らせのほかは Connected へ移らず、試行の中断もしない。 -/
structure ShellStep (s : ReconnectState) (e : ReconnectEvent) (r : ReconnectState × List ReconnectEffect) :
    Prop where
  epoch : r.1.reconnectEpoch = s.reconnectEpoch ∨ r.1.reconnectEpoch = s.reconnectEpoch + 1
  loop : ∀ attempt epoch, .startReconnectLoop attempt epoch ∈ r.2 →
    epoch = r.1.reconnectEpoch ∧ ∃ generation kind b, e = .attemptDisconnected generation kind b
  connected : .publishConnected ∈ r.2 → ∃ generation, e = .attemptConnected generation
  stopped : s.phase ≠ .connected → s.reconnectLoopActive = false → (∀ generation, e ≠ .attemptConnected generation) →
    r.1.phase ≠ .connected ∧ r.1.reconnectLoopActive = false ∧ .abortInFlightAttempt ∉ r.2

section

variable {s : ReconnectState} {e : ReconnectEvent} {r : ReconnectState × List ReconnectEffect}

theorem ShellStep.refl (s : ReconnectState) (e : ReconnectEvent) : ShellStep s e (s, []) :=
  ⟨Or.inl rfl, by simp, by simp, fun hp hl _ => ⟨hp, hl, by simp⟩⟩

theorem apply_shell (s : ReconnectState) (e : ReconnectEvent) : ShellStep s e (s.apply e) := by
  cases e with
  | attemptConnected g =>
      refine ⟨Or.inr (by simp only [apply]; rw [onAttemptConnected_fst]; rfl), ?_, fun _ => ⟨g, rfl⟩,
        fun _ _ h => absurd rfl (h g)⟩
      intro attempt epoch hm
      simp only [apply, onAttemptConnected, setPhase_connected] at hm
      split at hm <;> split at hm <;> simp [closeEdge_snd] at hm
  | attemptDisconnected g kind b =>
      have hd := onAttemptDisconnected_cases s kind b
      simp only [apply]
      generalize s.onAttemptDisconnected kind b = r at hd
      cases hd with
      | loops hl ht =>
          rcases ht with rfl | rfl <;>
            exact ⟨Or.inl rfl, by simp, by simp, fun _ hl' => absurd hl (by simp [hl'])⟩
      | starts hl hp => exact ⟨Or.inr rfl, by simp, by simp, fun hp' => absurd hp hp'⟩
      | ends hl => exact ⟨Or.inl rfl, by simp, by simp, fun _ hl' _ => ⟨by simp [disconnected], hl', by simp⟩⟩
  | sessionCreated g =>
      simp only [apply]
      split
      · refine ⟨Or.inl ?_, ?_, ?_, ?_⟩
        · rw [closeEdge_fst]
        · simp [closeEdge_snd]
        · simp [closeEdge_snd]
        · intro hp hl _
          rw [closeEdge_fst, closeEdge_snd]
          exact ⟨hp, hl, by simp⟩
      · exact .refl s _
  | manualConnectStarted attempt =>
      simp only [apply, onManualConnectStarted]
      split
      · exact ⟨Or.inl rfl, by simp, by simp, fun hp hl _ => ⟨hp, hl, by simp⟩⟩
      · refine ⟨Or.inr ?_, ?_, ?_, ?_⟩
        · simp [stopLoop, setPhase_connecting]
        · simp [setPhase_connecting]
        · simp [setPhase_connecting]
        · intro hp _ _
          exact ⟨by simp [stopLoop, setPhase_connecting], rfl, by simp [setPhase_connecting]⟩
  | reconnectSessionStarting =>
      simp only [apply, setPhase_connecting]
      exact ⟨Or.inl rfl, by simp, by simp, fun _ hl _ => ⟨by simp, hl, by simp⟩⟩
  | foregroundReconnectFailedSync =>
      simp only [apply, setPhase_idle]
      exact ⟨Or.inl rfl, by simp, by simp, fun _ hl _ => ⟨by simp, hl, by simp⟩⟩
  | loopStarted epoch policy =>
      simp only [apply, onLoopStarted]
      split
      · exact .refl s _
      · exact ⟨Or.inl rfl, by simp [armLoopTimer], by simp [armLoopTimer],
          fun hp hl _ => ⟨hp, hl, by simp [armLoopTimer]⟩⟩
  | reconnectWake epoch policy =>
      simp only [apply]
      rcases onReconnectWake_step s epoch policy with hr | ⟨clock, hl, -, hw⟩
      · rw [hr]
        exact .refl s _
      · obtain ⟨-, hactive, -⟩ := loopIsLive_iff.mp hl
        generalize s.onReconnectWake epoch policy = r at hw
        cases hw with
        | attempts | pends => exact ⟨Or.inl rfl, by simp, by simp, fun _ hl' => absurd hactive (by simp [hl'])⟩
  | reconnectTick epoch policy =>
      simp only [apply]
      rcases onReconnectTick_step s epoch policy with hr | ⟨clock, hl, -, ht⟩
      · rw [hr]
        exact .refl s _
      · obtain ⟨-, hactive, -⟩ := loopIsLive_iff.mp hl
        generalize s.onReconnectTick epoch policy = r at ht
        cases ht with
        | timesOut => exact ⟨Or.inr rfl, by simp, by simp, fun _ hl' => absurd hactive (by simp [hl'])⟩
        | attempts | waits => exact ⟨Or.inl rfl, by simp, by simp, fun _ hl' => absurd hactive (by simp [hl'])⟩
  | attemptFailedSync epoch =>
      simp only [apply]
      split
      · split
        · simp only [setPhase_idle]
          exact ⟨Or.inl rfl, by simp, by simp, fun _ hl _ => ⟨by simp, hl, by simp⟩⟩
        · exact ⟨Or.inl rfl, by simp, by simp, fun hp hl _ => ⟨hp, hl, by simp⟩⟩
      · exact .refl s _
  | cancelReconnect =>
      simp only [apply, abortLoopAttempt, setPhase_idle]
      split
      · rename_i hl
        exact ⟨Or.inr rfl, by simp, by simp, fun _ hl' => absurd hl (by simp [hl'])⟩
      · exact ⟨Or.inr rfl, by simp, by simp, fun hp _ _ => ⟨hp, rfl, by simp⟩⟩
  | userDisconnect =>
      simp only [apply, abortLoopAttempt, setPhase_idle]
      split
      · rename_i hl
        exact ⟨Or.inr rfl, by simp, by simp, fun _ hl' => absurd hl (by simp [hl'])⟩
      · exact ⟨Or.inl rfl, by simp, by simp, fun hp hl _ => ⟨hp, hl, by simp⟩⟩
  | manualConnectFailedSync =>
      simp only [apply, setPhase_idle]
      split
      · exact ⟨Or.inl rfl, by simp, by simp, fun _ hl _ => ⟨by simp, hl, by simp⟩⟩
      · exact .refl s _
  | loopStartAborted epoch =>
      simp only [apply]
      split
      · exact .refl s _
      · exact ⟨Or.inl rfl, by simp, by simp, fun hp _ _ => ⟨hp, rfl, by simp⟩⟩

end

section

open OrchestratorShared

variable {τ : Type} {s s' s'' : OrchestratorShared τ} {ctx : EffectContext τ}

/-! ## 公開 -/

/-- 公開と世代は進むだけである。接続を公開するのは `publishConnected` だけで、試行の中断は必ず世代を進める。 -/
structure Stages (s : OrchestratorShared τ) (effects : List ReconnectEffect) (s' : OrchestratorShared τ) :
    Prop where
  published : ∃ pubs, s'.publications = s.publications ++ pubs ∧
    ∀ target, .connected target ∈ pubs → .publishConnected ∈ effects
  generation : s.sessionGeneration ≤ s'.sessionGeneration
  aborts : .abortInFlightAttempt ∈ effects → s.sessionGeneration < s'.sessionGeneration
  frame : s' = { s with publications := s'.publications, sessionGeneration := s'.sessionGeneration }

theorem Stages.refl (s : OrchestratorShared τ) : Stages s [] s :=
  ⟨⟨[], by simp, by simp⟩, le_rfl, by simp, rfl⟩

theorem Stages.trans {effects effects' : List ReconnectEffect} (h : Stages s effects s')
    (h' : Stages s' effects' s'') : Stages s (effects ++ effects') s'' := by
  obtain ⟨pubs, hp, hc⟩ := h.published
  obtain ⟨pubs', hp', hc'⟩ := h'.published
  refine ⟨⟨pubs ++ pubs', by rw [hp', hp, List.append_assoc], ?_⟩, h.generation.trans h'.generation, ?_, ?_⟩
  · intro target hm
    rcases List.mem_append.mp hm with hm | hm
    · exact List.mem_append_left _ (hc target hm)
    · exact List.mem_append_right _ (hc' target hm)
  · intro hm
    rcases List.mem_append.mp hm with hm | hm
    · exact (h.aborts hm).trans_le h'.generation
    · exact h.generation.trans_lt (h'.aborts hm)
  · rw [h'.frame, h.frame]

theorem stagePublication_stages (ctx : EffectContext τ) (s : OrchestratorShared τ) (effect : ReconnectEffect) :
    Stages s [effect] (s.stagePublication ctx effect) := by
  cases effect with
  | publishDisconnected | publishConnecting | publishReconnecting | publishReconnectTimedOut
  | edgeEstablished | edgeLost | publishConnected =>
      exact ⟨⟨[_], rfl, by simp⟩, le_rfl, by simp, rfl⟩
  | abortInFlightAttempt =>
      exact ⟨⟨[], by simp [stagePublication], by simp⟩, Nat.le_succ _, fun _ => Nat.lt_succ_self _, rfl⟩
  | invalidatePathObserver | wakeReconnectLoop | startReconnectLoop | manualConnectRejected | startAttempt
  | pendingWakeRecorded | armLoopTimer | loopWokeEarly | loopTicked | disconnectSession =>
      exact ⟨⟨[], by simp [stagePublication], by simp⟩, le_rfl, by simp, rfl⟩

theorem stagePublications_stages (ctx : EffectContext τ) (s : OrchestratorShared τ)
    (effects : List ReconnectEffect) : Stages s effects (s.stagePublications effects ctx) := by
  induction effects generalizing s with
  | nil => exact .refl s
  | cons effect effects ih => exact (stagePublication_stages ctx s effect).trans (ih _)

theorem applyThen_stages (s : OrchestratorShared τ) (e : ReconnectEvent) (ctx : EffectContext τ)
    (ops : List (Op τ)) :
    Stages { s with reconnect := (s.reconnect.apply e).1 } (s.reconnect.apply e).2 (s.applyThen e ctx ops).1 :=
  stagePublications_stages ctx _ _

/-! ## 適用の後の状態 -/

section

variable (s : OrchestratorShared τ) (e : ReconnectEvent) (ctx : EffectContext τ) (ops : List (Op τ))

@[simp] theorem applyThen_reconnect : (s.applyThen e ctx ops).1.reconnect = (s.reconnect.apply e).1 := by
  rw [(applyThen_stages s e ctx ops).frame]

@[simp] theorem applyThen_lastConnectAttempt :
    (s.applyThen e ctx ops).1.lastConnectAttempt = s.lastConnectAttempt := by
  rw [(applyThen_stages s e ctx ops).frame]

@[simp] theorem applyThen_session : (s.applyThen e ctx ops).1.session = s.session := by
  rw [(applyThen_stages s e ctx ops).frame]

@[simp] theorem applyThen_adapters : (s.applyThen e ctx ops).1.adapters = s.adapters := by
  rw [(applyThen_stages s e ctx ops).frame]

theorem mem_applyThen {op : Op τ} : op ∈ (s.applyThen e ctx ops).2 ↔
    (∃ effect ∈ (s.reconnect.apply e).2, op = .effect ctx effect) ∨ op ∈ ops := by
  simp [applyThen, interpret, applyReconnect, eq_comm]

end

theorem resolveStartLoopAttempt_some {effects : List ReconnectEffect} {resolved : AttemptRef × LastConnectAttempt τ}
    (h : s.resolveStartLoopAttempt effects = some resolved) :
    s.lastConnectAttempt = some resolved.2 := by
  unfold resolveStartLoopAttempt at h
  split at h
  · obtain ⟨ref, -, h⟩ := Option.bind_eq_some_iff.mp h
    obtain ⟨attempt, ha, rfl⟩ := Option.map_eq_some_iff.mp h
    exact ha
  · cases h

/-- 現行の世代の切断だけを適用する。起動するループの相手は、いまの接続先である。 -/
theorem handleUnexpectedDisconnect_cases (s : OrchestratorShared τ) (generation : Nat) (kind : DisconnectKind) :
    s.handleUnexpectedDisconnect generation kind = (s, []) ∨
      ∃ b ctx, s.handleUnexpectedDisconnect generation kind =
          s.applyThen (.attemptDisconnected generation kind b) ctx [] ∧
        ctx.loopAttempt = none ∧
        ∀ resolved, ctx.resolvedAttempt = some resolved → s.lastConnectAttempt = some resolved.2 := by
  unfold handleUnexpectedDisconnect
  split
  · exact Or.inl rfl
  · let r := s.reconnect.apply (.attemptDisconnected generation kind (s.lastConnectAttempt.any (·.localNetwork)))
    refine Or.inr ⟨s.lastConnectAttempt.any (·.localNetwork),
      ⟨{ s with reconnect := r.1 }.resolveStartLoopAttempt r.2, none⟩, ?_, rfl, ?_⟩
    · rw [applyThen, List.append_nil]
      rfl
    · intro resolved h
      exact resolveStartLoopAttempt_some (s := { s with reconnect := r.1 }) h

/-! ## 進むだけの値 -/

/-- 1 回の適用で、接続先は変わらず、epoch と世代は戻らない。 -/
structure Advances (s s' : OrchestratorShared τ) : Prop where
  epoch : s.reconnect.reconnectEpoch.toNat ≤ s'.reconnect.reconnectEpoch.toNat
  generation : s.sessionGeneration ≤ s'.sessionGeneration
  last : s'.lastConnectAttempt = s.lastConnectAttempt

theorem Advances.refl (s : OrchestratorShared τ) : Advances s s := ⟨le_rfl, le_rfl, rfl⟩

theorem Advances.trans (h : Advances s s') (h' : Advances s' s'') : Advances s s'' :=
  ⟨h.epoch.trans h'.epoch, h.generation.trans h'.generation, h'.last.trans h.last⟩

theorem toNat_succ {epoch : UInt64} (h : epoch.toNat + 1 < 2 ^ 64) : (epoch + 1).toNat = epoch.toNat + 1 := by
  rw [UInt64.toNat_add, UInt64.toNat_one, Nat.mod_eq_of_lt h]

theorem applyThen_advances (hw : s.reconnect.reconnectEpoch.toNat + 1 < 2 ^ 64) (e : ReconnectEvent)
    (ctx : EffectContext τ) (ops : List (Op τ)) : Advances s (s.applyThen e ctx ops).1 := by
  refine ⟨?_, (applyThen_stages s e ctx ops).generation, by simp⟩
  rw [applyThen_reconnect]
  rcases (apply_shell s.reconnect e).epoch with h | h
  · rw [h]
  · rw [h, toNat_succ hw]
    exact Nat.le_succ _

end

end IsekaiTerminal.Orchestrator
