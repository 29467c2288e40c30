import IsekaiTerminal.Orchestrator.Lemmas.Session

/-!
# 作りかけの session は、いまの接続先を向いている

主導権の移るときに作りかけの session が無ければ、作りかけの session は常に、最後に受理した手動接続の接続先へ向かう。
再接続ループは、その epoch が現行の間だけ、同じ接続先を向いている。
-/

namespace IsekaiTerminal.Orchestrator

open Protocol Lib Reconnect OrchestratorShared

section

variable {τ : Type} {n : Nat} {s s' : OrchestratorShared τ} {op : Op τ} {ctx : EffectContext τ}

/-- ループを起動するか、動かす操作なら、その epoch と接続先。 -/
def Op.loopTarget? : Op τ → Option (UInt64 × LastConnectAttempt τ)
  | .effect ctx (.startReconnectLoop _ epoch) => ctx.resolvedAttempt.map fun resolved => (epoch, resolved.2)
  | .loopStarted epoch attempt | .waitTimer epoch attempt => some (epoch, attempt)
  | _ => none

/-- 残りの操作の接続先と世代は古くない。ループの試行の epoch は `n` 以上である。 -/
structure Fresh (n : Nat) (s : OrchestratorShared τ) (op : Op τ) : Prop where
  build : ∀ attempt, op.buildTarget = some attempt → s.lastConnectAttempt = some attempt
  loop : ∀ epoch attempt, op.loopTarget? = some (epoch, attempt) →
    epoch.toNat ≤ s.reconnect.reconnectEpoch.toNat ∧
      (epoch = s.reconnect.reconnectEpoch → s.lastConnectAttempt = some attempt)
  adapter : ∀ origin attempt generation, op = .connect origin attempt generation →
    generation ≤ s.sessionGeneration
  attempt : ∀ epoch, op.attemptEpoch? = some epoch → n ≤ epoch.toNat

/-- 格納した session の接続先は、最後に受理した接続先より新しくない。 -/
structure Current (n : Nat) (s : OrchestratorShared τ) : Prop where
  epoch : n ≤ s.reconnect.reconnectEpoch.toNat
  adapters : ∀ generation ∈ s.adapters, generation ≤ s.sessionGeneration
  session : ∀ prev, s.session = some prev →
    ∃ last, s.lastConnectAttempt = some last ∧ prev.attempt.accepted ≤ last.accepted

structure Keeps (n : Nat) (s s' : OrchestratorShared τ) (ops : List (Op τ)) : Prop where
  advances : Advances s s'
  current : Current n s'
  fresh : ∀ op ∈ ops, Fresh n s' op

/-! ## 操作 1 つの新しさ -/

/-- session を作らず、ループにも関わらない操作は、いつでも古くない。 -/
theorem Fresh.of_none (hb : op.buildTarget = none) (hl : op.loopTarget? = none)
    (ha : op.attemptEpoch? = none) : Fresh n s op where
  build attempt h := by rw [hb] at h; cases h
  loop epoch attempt h := by rw [hl] at h; cases h
  adapter origin attempt generation h := by subst h; cases hb
  attempt epoch h := by rw [ha] at h; cases h

theorem Fresh.advance (h : Fresh n s op) (ha : Advances s s') : Fresh n s' op where
  build attempt hb := ha.last.trans (h.build attempt hb)
  loop epoch attempt hl := by
    obtain ⟨hle, hlast⟩ := h.loop epoch attempt hl
    refine ⟨hle.trans ha.epoch, fun he => ha.last.trans (hlast ?_)⟩
    subst he
    exact UInt64.toNat_inj.mp (Nat.le_antisymm hle ha.epoch)
  adapter origin attempt generation he := (h.adapter origin attempt generation he).trans ha.generation
  attempt := h.attempt

theorem fresh_effect_default (effect : ReconnectEffect) : Fresh n s (.effect .default effect) := by
  refine .of_none ?_ ?_ ?_ <;> cases effect <;> rfl

theorem Fresh.build_of {op' : Op τ} (h : Fresh n s op) (hb : op'.buildTarget = op.buildTarget)
    (ha : op'.attemptEpoch? = op.attemptEpoch?) (hl : op'.loopTarget? = none)
    (hg : ∀ origin attempt generation, op' = .connect origin attempt generation →
      generation ≤ s.sessionGeneration) : Fresh n s op' where
  build attempt hb' := h.build attempt (hb ▸ hb')
  loop epoch attempt hl' := by rw [hl] at hl'; cases hl'
  adapter := hg
  attempt epoch ha' := h.attempt epoch (ha ▸ ha')

theorem Op.attemptEpoch?_eq_none (hb : op.buildTarget = none) : op.attemptEpoch? = none := by
  cases op with
  | effect ctx effect => cases effect <;> simp_all [Op.buildTarget, Op.attemptEpoch?]
  | beginReconnectSession | newAdapter | connect | store => cases hb
  | connectFailed | handleUnexpectedDisconnect | loopStarted | waitTimer => rfl

theorem Fresh.loop_of {op' : Op τ} (h : Fresh n s op) (hl : op'.loopTarget? = op.loopTarget?)
    (hb : op'.buildTarget = none) (ha : op'.attemptEpoch? = none) : Fresh n s op' where
  build attempt hb' := by rw [hb] at hb'; cases hb'
  loop epoch attempt hl' := h.loop epoch attempt (hl ▸ hl')
  adapter origin attempt generation he := by subst he; cases hb
  attempt epoch ha' := by rw [ha] at ha'; cases ha'

/-! ## 適用 -/

theorem Current.advance (h : Current n s) (ha : Advances s s') (hs : s'.session = s.session)
    (hd : s'.adapters = s.adapters) : Current n s' where
  epoch := h.epoch.trans ha.epoch
  adapters generation hm := (h.adapters generation (hd ▸ hm)).trans ha.generation
  session prev hp := by
    rw [ha.last]
    exact h.session prev (hs ▸ hp)

theorem Keeps.refl (h : Current n s) : Keeps n s s [] := ⟨.refl s, h, by simp⟩

theorem Keeps.trans {s'' : OrchestratorShared τ} {ops : List (Op τ)} (h : Advances s s')
    (h' : Keeps n s' s'' ops) : Keeps n s s'' ops := ⟨h.trans h'.advances, h'.current, h'.fresh⟩

theorem applyThen_keeps {e : ReconnectEvent} {ops : List (Op τ)} (h : Current n s)
    (hw : s.reconnect.reconnectEpoch.toNat + 1 < 2 ^ 64)
    (hctx : ∀ effect ∈ (s.reconnect.apply e).2, Fresh n (s.applyThen e ctx ops).1 (.effect ctx effect))
    (hops : ∀ op ∈ ops, Fresh n s op) :
    Keeps n s (s.applyThen e ctx ops).1 (s.applyThen e ctx ops).2 := by
  have ha := applyThen_advances hw e ctx ops
  refine ⟨ha, h.advance ha (by simp) (by simp), ?_⟩
  intro op hm
  rcases (mem_applyThen s e ctx ops).mp hm with ⟨effect, he, rfl⟩ | ho
  · exact hctx effect he
  · exact (hops op ho).advance ha

theorem applyThen_default_keeps {e : ReconnectEvent} {ops : List (Op τ)} (h : Current n s)
    (hw : s.reconnect.reconnectEpoch.toNat + 1 < 2 ^ 64) (hops : ∀ op ∈ ops, Fresh n s op) :
    Keeps n s (s.applyThen e .default ops).1 (s.applyThen e .default ops).2 :=
  applyThen_keeps h hw (fun effect _ => fresh_effect_default effect) hops

theorem handleUnexpectedDisconnect_keeps (h : Current n s)
    (hw : s.reconnect.reconnectEpoch.toNat + 1 < 2 ^ 64) (generation : Nat) (kind : DisconnectKind) :
    Keeps n s (s.handleUnexpectedDisconnect generation kind).1 (s.handleUnexpectedDisconnect generation kind).2 := by
  rcases handleUnexpectedDisconnect_cases s generation kind with heq | ⟨b, ctx, heq, hctx, hresolved⟩
  · rw [heq]
    exact .refl h
  · rw [heq]
    refine applyThen_keeps h hw ?_ (by simp)
    intro effect hm
    by_cases hs : ∃ attempt epoch, effect = .startReconnectLoop attempt epoch
    · obtain ⟨attempt, epoch, rfl⟩ := hs
      obtain ⟨rfl, -⟩ := (apply_shell s.reconnect _).loop attempt epoch hm
      refine ⟨by simp [Op.buildTarget], ?_, by simp, by simp [Op.attemptEpoch?]⟩
      intro epoch target hl
      obtain ⟨resolved, hr, heq⟩ := Option.map_eq_some_iff.mp hl
      cases heq
      rw [applyThen_reconnect, applyThen_lastConnectAttempt]
      exact ⟨le_rfl, fun _ => hresolved resolved hr⟩
    · refine .of_none ?_ ?_ ?_ <;> cases effect <;> simp_all [Op.buildTarget, Op.loopTarget?, Op.attemptEpoch?]

/-- 試行を始めるのは、epoch が現行のループのステップだけである。 -/
theorem runReconnectLoopStep_keeps (h : Current n s) (hw : s.reconnect.reconnectEpoch.toNat + 1 < 2 ^ 64)
    {e : ReconnectEvent} {epoch : UInt64} {target : LastConnectAttempt τ}
    (he : ∀ epoch', e.Drives epoch' → epoch' = epoch)
    (hf : Fresh n s (.waitTimer epoch target)) :
    Keeps n s (s.runReconnectLoopStep e epoch target).1 (s.runReconnectLoopStep e epoch target).2 := by
  refine applyThen_keeps h hw ?_ ?_
  · intro effect hm
    by_cases hs : ∃ epoch source, effect = .startAttempt epoch source
    · obtain ⟨epoch', source, rfl⟩ := hs
      obtain ⟨hdrives, hcur, -⟩ := (apply_loop s.reconnect e).starts_attempt hm
      obtain rfl := he epoch' hdrives
      refine ⟨?_, by simp [Op.loopTarget?], by simp, ?_⟩
      · rintro attempt hb
        obtain rfl := Option.some.inj hb
        rw [applyThen_lastConnectAttempt]
        exact (hf.loop epoch' target rfl).2 hcur
      · intro epoch hep
        obtain rfl := Option.some.inj hep
        rw [hcur]
        exact h.epoch
    · refine .of_none ?_ ?_ ?_ <;> cases effect <;> simp_all [Op.buildTarget, Op.loopTarget?, Op.attemptEpoch?]
  · intro op hm
    split at hm
    · obtain rfl := List.mem_singleton.mp hm
      exact hf
    · cases hm

/-! ## 操作の実行 -/

theorem execEffect_keeps (h : Current n s) (hw : s.reconnect.reconnectEpoch.toNat + 1 < 2 ^ 64)
    {effect : ReconnectEffect} (hf : Fresh n s (.effect ctx effect)) :
    Keeps n s (s.execEffect ctx effect).1
      ((s.execEffect ctx effect).2.1 ++ (s.execEffect ctx effect).2.2.flatten) := by
  unfold execEffect
  split
  · split
    · rename_i attempt epoch _ resolved hr
      refine ⟨.refl s, h, ?_⟩
      intro op hm
      obtain rfl : op = .loopStarted epoch resolved.2 := by simpa using hm
      refine hf.loop_of ?_ rfl rfl
      simp [Op.loopTarget?, (Option.filter_eq_some_iff.mp hr).1]
    · simpa using applyThen_default_keeps h hw (by simp)
  · split
    · rename_i epoch _ _ attempt ha
      refine ⟨.refl s, h, ?_⟩
      intro op hm
      obtain rfl : op = .beginReconnectSession (.attempt epoch) attempt := by simpa using hm
      refine hf.build_of ?_ ?_ rfl (by simp)
      · simp [Op.buildTarget, ha]
      · simp [Op.attemptEpoch?, Origin.epoch?, ha]
    · simpa using applyThen_default_keeps h hw (by simp)
  · simpa using Keeps.refl h

theorem newAdapter_keeps (h : Current n s) (hw : s.reconnect.reconnectEpoch.toNat + 1 < 2 ^ 64)
    {origin : Origin} {attempt : LastConnectAttempt τ} (hf : Fresh n s (.newAdapter origin attempt)) (k : Bool) :
    Keeps n s (s.exec (.newAdapter origin attempt) k).1 (s.exec (.newAdapter origin attempt) k).2.1 := by
  have ha : Advances s { s with sessionGeneration := s.sessionGeneration + 1 } := ⟨le_rfl, Nat.le_succ _, rfl⟩
  refine Keeps.trans ha (applyThen_default_keeps (h.advance ha rfl rfl) hw ?_)
  intro op hm
  obtain rfl := List.mem_singleton.mp hm
  refine (hf.advance ha).build_of rfl rfl rfl ?_
  intro origin attempt generation he
  cases he
  exact le_rfl

theorem exec_keeps (h : Current n s) (hw : s.reconnect.reconnectEpoch.toNat + 1 < 2 ^ 64)
    (hf : Fresh n s op) (k : Bool) :
    Keeps n s (s.exec op k).1 ((s.exec op k).2.1 ++ (s.exec op k).2.2.flatten) := by
  cases op with
  | effect ctx effect => exact execEffect_keeps h hw hf
  | beginReconnectSession origin attempt =>
      simp only [exec, List.flatten_nil, List.append_nil]
      refine applyThen_default_keeps h hw ?_
      intro op hm
      obtain rfl := List.mem_singleton.mp hm
      exact hf.build_of rfl rfl rfl (by simp)
  | newAdapter origin attempt => simpa [exec] using newAdapter_keeps h hw hf k
  | connect origin attempt generation =>
      have hg := hf.adapter origin attempt generation rfl
      refine ⟨⟨le_rfl, le_rfl, rfl⟩, ⟨h.epoch, ?_, h.session⟩, ?_⟩
      · intro g hm
        rcases List.mem_cons.mp hm with rfl | hm
        · exact hg
        · exact h.adapters g hm
      · intro op hm
        have hf' : Fresh n { s with adapters := generation :: s.adapters } (.connect origin attempt generation) :=
          hf.advance ⟨le_rfl, le_rfl, rfl⟩
        obtain rfl : op = if k then .store origin attempt generation else .connectFailed origin generation := by
          simpa [exec] using hm
        cases k with
        | true => exact hf'.build_of rfl rfl rfl (by simp)
        | false => exact .of_none rfl rfl rfl
  | store origin attempt generation =>
      refine ⟨⟨le_rfl, le_rfl, rfl⟩, ⟨h.epoch, h.adapters, ?_⟩, by simp [exec]⟩
      rintro prev hp
      obtain rfl := Option.some.inj hp
      exact ⟨attempt, hf.build attempt rfl, le_rfl⟩
  | connectFailed origin generation =>
      simp only [exec, List.flatten_nil, List.append_nil, OrchestratorShared.connectFailed]
      split
      · split
        · exact .refl h
        · exact applyThen_default_keeps h hw (by simp)
      · exact applyThen_default_keeps h hw (by simp)
      · exact applyThen_default_keeps h hw (by simp)
  | handleUnexpectedDisconnect generation kind =>
      simpa [exec] using handleUnexpectedDisconnect_keeps h hw generation kind
  | loopStarted epoch attempt =>
      simp only [exec, List.flatten_nil, List.append_nil]
      refine runReconnectLoopStep_keeps h hw ?_ (hf.loop_of rfl rfl rfl)
      rintro epoch' ⟨policy, he | he⟩ <;> cases he
  | waitTimer epoch attempt =>
      simp only [exec, List.flatten_nil, List.append_nil]
      refine runReconnectLoopStep_keeps h hw ?_ hf
      rintro epoch' ⟨policy, he | he⟩ <;> split at he <;> cases he <;> rfl

/-! ## 呼び出し -/

theorem beginConnect_rejected (hp : s.reconnect.phase = .connecting) (config : τ) (localNetwork : Bool) :
    s.beginConnect config localNetwork = (s, []) := by
  simp [beginConnect, ReconnectState.apply, ReconnectState.onManualConnectStarted, hp]

/-- 受理した手動接続は、接続先を書き換えてから適用したのと同じである。 -/
theorem beginConnect_accepted (hp : s.reconnect.phase ≠ .connecting) (config : τ) (localNetwork : Bool) :
    s.beginConnect config localNetwork =
      applyThen { s with lastConnectAttempt := some ⟨config, localNetwork, s.acceptedCount⟩ }
        (.manualConnectStarted (.nextAfter s.reconnect.lastAttempt)) .default
        [.newAdapter .manual ⟨config, localNetwork, s.acceptedCount⟩] := by
  simp [beginConnect, ReconnectState.apply, ReconnectState.onManualConnectStarted, hp, applyThen, applyReconnect]

theorem manualConnectStarted_epoch {s : ReconnectState} (hp : s.phase ≠ .connecting) (attempt : AttemptRef) :
    (s.apply (.manualConnectStarted attempt)).1.reconnectEpoch = s.reconnectEpoch + 1 := by
  simp [ReconnectState.apply, ReconnectState.onManualConnectStarted, hp, ReconnectState.stopLoop]

theorem Current.accept (h : Current n s) (config : τ) (localNetwork : Bool) :
    Current n { s with lastConnectAttempt := some ⟨config, localNetwork, s.acceptedCount⟩ } := by
  refine ⟨h.epoch, h.adapters, ?_⟩
  intro prev hp
  obtain ⟨last, hlast, hle⟩ := h.session prev hp
  refine ⟨_, rfl, ?_⟩
  simp only [acceptedCount, hlast, Option.elim_some]
  exact Nat.le_succ_of_le hle

theorem Fresh.accept (h : Fresh n s op) (hb : op.buildTarget = none)
    (he : s.reconnect.reconnectEpoch.toNat < s'.reconnect.reconnectEpoch.toNat) : Fresh n s' op where
  build attempt hb' := by rw [hb] at hb'; cases hb'
  loop epoch attempt hl := by
    have hle := (h.loop epoch attempt hl).1
    refine ⟨hle.trans he.le, fun heq => ?_⟩
    rw [heq] at hle
    omega
  adapter origin attempt generation he := by subst he; cases hb
  attempt epoch ha := by rw [Op.attemptEpoch?_eq_none hb] at ha; cases ha

theorem beginConnect_keeps (h : Current n s) (hw : s.reconnect.reconnectEpoch.toNat + 1 < 2 ^ 64)
    (hp : s.reconnect.phase ≠ .connecting) (config : τ) (localNetwork : Bool) :
    s.reconnect.reconnectEpoch.toNat < (s.beginConnect config localNetwork).1.reconnect.reconnectEpoch.toNat ∧
      Current n (s.beginConnect config localNetwork).1 ∧
      ∀ op ∈ (s.beginConnect config localNetwork).2, Fresh n (s.beginConnect config localNetwork).1 op := by
  rw [beginConnect_accepted hp]
  have hnew (op : Op τ) (hm : op ∈ [Op.newAdapter .manual ⟨config, localNetwork, s.acceptedCount⟩]) :
      Fresh n { s with lastConnectAttempt := some ⟨config, localNetwork, s.acceptedCount⟩ } op := by
    obtain rfl := List.mem_singleton.mp hm
    exact ⟨fun attempt hb => hb, by simp [Op.loopTarget?], by simp, by simp [Op.attemptEpoch?, Origin.epoch?]⟩
  have hk := applyThen_default_keeps (e := .manualConnectStarted (.nextAfter s.reconnect.lastAttempt))
    (h.accept config localNetwork) hw hnew
  refine ⟨?_, hk.current, hk.fresh⟩
  rw [applyThen_reconnect, manualConnectStarted_epoch hp, toNat_succ hw]
  exact Nat.lt_succ_self _

theorem call_keeps (h : Current n s) (hw : s.reconnect.reconnectEpoch.toNat + 1 < 2 ^ 64) {c : Call τ}
    {ops : List (Op τ)} (hc : s.call c = some (s', ops))
    (hn : ∀ config localNetwork, c = .connect config localNetwork → s.reconnect.phase = .connecting) :
    Keeps n s s' ops := by
  have hset (b : BackgroundState) : Keeps n s (s.setBackground b) [] :=
    ⟨⟨le_rfl, le_rfl, rfl⟩, ⟨h.epoch, h.adapters, h.session⟩, by simp⟩
  cases c with
  | connect config localNetwork =>
      rw [call, beginConnect_rejected (hn config localNetwork rfl)] at hc
      cases hc
      exact .refl h
  | disconnect | cancelReconnect =>
      cases hc
      exact applyThen_default_keeps h hw (by simp)
  | didEnterBackground | backgroundBudgetExpired | memoryWarning =>
      cases hc
      split
      · first | exact .refl h | exact hset _
      · first | exact .refl h | exact hset _
  | willEnterForeground =>
      cases hc
      refine ⟨(hset _).advances, (hset _).current, ?_⟩
      intro op hm
      obtain ⟨attempt, ha, rfl⟩ := List.mem_map.mp hm
      rw [Option.mem_toList, foregroundAttempt, Option.ite_none_right_eq_some] at ha
      refine ⟨?_, by simp [Op.loopTarget?], by simp, by simp [Op.attemptEpoch?, Origin.epoch?]⟩
      intro attempt' hb
      obtain rfl := Option.some.inj hb
      exact ha.2
  | policyChanged policy =>
      cases hc
      exact ⟨⟨le_rfl, le_rfl, rfl⟩, ⟨h.epoch, h.adapters, h.session⟩, by simp⟩
  | networkPathLost phase generation =>
      cases hc
      refine ⟨.refl s, h, ?_⟩
      intro op hm
      split at hm
      · obtain rfl := List.mem_singleton.mp hm
        exact .of_none rfl rfl rfl
      · cases hm
  | onConnected generation =>
      rw [call, Option.ite_none_right_eq_some] at hc
      obtain ⟨rfl, rfl⟩ := Prod.ext_iff.mp (Option.some.inj hc.2)
      split
      · exact .refl h
      · exact applyThen_default_keeps h hw (by simp)
  | onDisconnected generation kind =>
      rw [call, Option.ite_none_right_eq_some] at hc
      obtain ⟨rfl, rfl⟩ := Prod.ext_iff.mp (Option.some.inj hc.2)
      exact handleUnexpectedDisconnect_keeps h hw generation kind

/-! ## 実行 -/

/-- 作りかけの session が無いときに主導権が移る実行で、作りかけの session は古くならない。 -/
theorem UndisturbedRun.fresh {p p' : OrchestratorState τ} {as : List (Action τ)} (h : UndisturbedRun p as p')
    (hp : p.Holds (Current n) (Fresh n)) : p'.Holds (Current n) (Fresh n) := by
  refine Pool.holds_of_run ?_ ?_ h hp
  · intro p c s ops hp hu hc
    by_cases hn : ∀ config localNetwork, c = .connect config localNetwork → p.shared.reconnect.phase = .connecting
    · have hk := call_keeps hp.shared hu.2 hc hn
      exact ⟨hk.current, fun op hm => (hp.pending op hm).advance hk.advances, hk.fresh⟩
    simp only [not_forall] at hn
    obtain ⟨config, localNetwork, rfl, hphase⟩ := hn
    obtain ⟨rfl, rfl⟩ := Prod.ext_iff.mp (Option.some.inj hc)
    obtain ⟨he, hcur, hfresh⟩ := beginConnect_keeps hp.shared hu.2 hphase config localNetwork
    exact ⟨hcur, fun op hm => (hp.pending op hm).accept (hu.1 hphase op hm) he, hfresh⟩
  · intro p i k op hp hu hop
    have hk := exec_keeps hp.shared hu.2 (hp.pending op hop) k
    refine ⟨hk.current, fun op' hm => (hp.pending op' hm).advance hk.advances, ?_, ?_⟩
    · exact fun op' hm => hk.fresh op' (List.mem_append_left _ hm)
    · exact fun op' hm => hk.fresh op' (List.mem_append_right _ hm)

end

/-!
## ループを止めた後
-/

section

variable {τ : Type} {s s' : OrchestratorShared τ} {p p' : OrchestratorState τ} {a : Action τ} {op : Op τ}
  {e : ReconnectEvent} {ctx : EffectContext τ} {ops : List (Op τ)}

/-! ## 止める適用 -/

structure Halts (s : ReconnectState) (e : ReconnectEvent) : Prop where
  active : (s.apply e).1.reconnectLoopActive = false
  epoch : (s.apply e).1.reconnectEpoch = s.reconnectEpoch + 1

theorem manualConnectStarted_halts {s : ReconnectState} (hp : s.phase ≠ .connecting) (attempt : AttemptRef) :
    Halts s (.manualConnectStarted attempt) := by
  refine ⟨?_, manualConnectStarted_epoch hp attempt⟩
  simp [ReconnectState.apply, ReconnectState.onManualConnectStarted, hp, ReconnectState.stopLoop]

/-- ユーザーの中止と切断は、動作中のループを止め、試行を中断し、Connected でなくなる。 -/
theorem userStop_halts {s : ReconnectState} (hl : s.reconnectLoopActive = true)
    (he : e = .cancelReconnect ∨ e = .userDisconnect) :
    Halts s e ∧ (s.apply e).1.phase ≠ .connected ∧ .abortInFlightAttempt ∈ (s.apply e).2 := by
  have hstop : (s.apply e).1.reconnectLoopActive = false ∧
      (s.apply e).1.reconnectEpoch = s.reconnectEpoch + 1 ∧ (s.apply e).1.phase = .idle ∧
      .abortInFlightAttempt ∈ (s.apply e).2 := by
    rcases he with rfl | rfl <;>
      simp [ReconnectState.apply, hl, ReconnectState.abortLoopAttempt, ReconnectState.stopLoop]
  obtain ⟨hactive, hepoch, hphase, habort⟩ := hstop
  exact ⟨⟨hactive, hepoch⟩, by simp [hphase], habort⟩

theorem reconnectTick_halts {s : ReconnectState} {epoch : UInt64} {policy : ReconnectPolicy}
    (h : (s.apply (.reconnectTick epoch policy)).2.any ReconnectEffect.isTimedOut = true) :
    Halts s (.reconnectTick epoch policy) := by
  have hstep : (s.apply (.reconnectTick epoch policy)).1.reconnectLoopActive = false ∧
      (s.apply (.reconnectTick epoch policy)).1.reconnectEpoch = s.reconnectEpoch + 1 := by
    simp only [ReconnectState.apply] at h ⊢
    rcases ReconnectState.onReconnectTick_step s epoch policy with hr | ⟨clock, -, -, ht⟩
    · simp [hr] at h
    · generalize s.onReconnectTick epoch policy = r at h ht
      cases ht with
      | timesOut => exact ⟨rfl, rfl⟩
      | attempts | waits => simp [ReconnectEffect.isTimedOut] at h
  exact ⟨hstep.1, hstep.2⟩

/-- ループが動いていない状態で終わる適用からは、試行は始まらない。 -/
theorem buildTarget_effect (hl : (s.reconnect.apply e).1.reconnectLoopActive = false) {effect : ReconnectEffect}
    (hm : effect ∈ (s.reconnect.apply e).2) : (Op.effect ctx effect).buildTarget = none := by
  cases effect with
  | startAttempt epoch source =>
      obtain ⟨-, -, -, -, hactive, -⟩ := (apply_loop s.reconnect e).starts_attempt hm
      rw [hl] at hactive
      cases hactive
  | _ => rfl

theorem applyThen_halts (h : Halts s.reconnect e) (hops : ∀ op ∈ ops, op.attemptEpoch? = none) :
    (s.applyThen e ctx ops).1.reconnect.reconnectEpoch = s.reconnect.reconnectEpoch + 1 ∧
      ∀ op ∈ (s.applyThen e ctx ops).2, op.attemptEpoch? = none := by
  refine ⟨by rw [applyThen_reconnect]; exact h.epoch, ?_⟩
  intro op hm
  rcases (mem_applyThen s e ctx ops).mp hm with ⟨effect, he, rfl⟩ | ho
  · exact Op.attemptEpoch?_eq_none (buildTarget_effect h.active he)
  · exact hops op ho

theorem call_halts {c : Call τ} (hi : Interrupting p (.call c))
    (hl : p.shared.reconnect.reconnectLoopActive = true) (hc : p.shared.call c = some (s', ops)) :
    s'.reconnect.reconnectEpoch = p.shared.reconnect.reconnectEpoch + 1 ∧ ∀ op ∈ ops, op.attemptEpoch? = none := by
  cases c with
  | connect config localNetwork =>
      rw [call, beginConnect_accepted hi] at hc
      obtain ⟨rfl, rfl⟩ := Prod.ext_iff.mp (Option.some.inj hc)
      refine applyThen_halts (manualConnectStarted_halts hi _) ?_
      intro op hm
      obtain rfl := List.mem_singleton.mp hm
      rfl
  | disconnect =>
      obtain ⟨rfl, rfl⟩ := Prod.ext_iff.mp (Option.some.inj hc)
      exact applyThen_halts (userStop_halts hl (Or.inr rfl)).1 (by simp)
  | cancelReconnect =>
      obtain ⟨rfl, rfl⟩ := Prod.ext_iff.mp (Option.some.inj hc)
      exact applyThen_halts (userStop_halts hl (Or.inl rfl)).1 (by simp)
  | _ => cases hi

theorem runReconnectLoopStep_halts {epoch : UInt64} {policy : ReconnectPolicy} (epoch' : UInt64)
    (attempt : LastConnectAttempt τ)
    (h : (s.reconnect.apply (.reconnectTick epoch policy)).2.any ReconnectEffect.isTimedOut = true) :
    (s.runReconnectLoopStep (.reconnectTick epoch policy) epoch' attempt).1.reconnect.reconnectEpoch =
        s.reconnect.reconnectEpoch + 1 ∧
      ∀ op ∈ (s.runReconnectLoopStep (.reconnectTick epoch policy) epoch' attempt).2, op.attemptEpoch? = none := by
  refine applyThen_halts (reconnectTick_halts h) ?_
  intro op hm
  split at hm
  · obtain rfl := List.mem_singleton.mp hm
    rfl
  · cases hm

theorem Op.timesOut_iff (op : Op τ) : op.timesOut s = true ↔ ∃ epoch attempt, op = .waitTimer epoch attempt ∧
    (s.reconnect.apply (.reconnectTick epoch s.reconnectPolicy)).2.any ReconnectEffect.isTimedOut = true := by
  cases op <;> simp [Op.timesOut]

/-- ループを止めた操作の後、epoch は進み、再接続ループの試行は残っていない。 -/
theorem StopsLoop.stopped {epoch : UInt64} (h : StopsLoop p a epoch) (hu : Undisturbed p a)
    (hs : OrchestratorState.Steps p a p') :
    p'.shared.reconnect.reconnectEpoch = epoch + 1 ∧ ∀ op ∈ p'.pending, op.attemptEpoch? = none := by
  obtain ⟨hi, hl, rfl⟩ := h
  have hold (op : Op τ) (hm : op ∈ p.pending) : op.attemptEpoch? = none :=
    Op.attemptEpoch?_eq_none (hu.1 hi op hm)
  cases a with
  | call c =>
      obtain ⟨ops, hc, hmem⟩ := Pool.step_call hs
      obtain ⟨he, hnew⟩ := call_halts hi hl hc
      exact ⟨he, fun op hm => ((hmem op).mp hm).elim (hold op) (hnew op)⟩
  | run i k =>
      obtain ⟨rfl, ht⟩ := hi
      obtain ⟨op, hnext, hshared, hmem⟩ := Pool.step_run hs
      rw [hnext, Option.any_some] at ht
      obtain ⟨epoch, attempt, rfl, ht⟩ := op.timesOut_iff.mp ht
      obtain ⟨he, hnew⟩ := runReconnectLoopStep_halts epoch attempt ht
      refine ⟨by rw [hshared]; exact he, ?_⟩
      intro op hm
      rcases hmem op hm with hm | hm | hm
      · exact hold op hm
      · exact hnew op hm
      · cases hm

/-! ## 中止または切断の後 -/

/-- 止めたループの session はもう届かない。`base` は、止めたときまでの公開である。 -/
structure Stopped (base : List (Publication τ)) (s : OrchestratorShared τ) : Prop where
  phase : s.reconnect.phase ≠ .connected
  loop : s.reconnect.reconnectLoopActive = false
  adapters : ∀ generation ∈ s.adapters, generation < s.sessionGeneration
  published : ∃ extra, s.publications = base ++ extra ∧ ∀ target, .connected target ∉ extra

section

variable {base : List (Publication τ)}

theorem applyThen_stopped (h : Stopped base s) (he : ∀ generation, e ≠ .attemptConnected generation)
    (hops : ∀ op ∈ ops, op.buildTarget = none) :
    Stopped base (s.applyThen e ctx ops).1 ∧ ∀ op ∈ (s.applyThen e ctx ops).2, op.buildTarget = none := by
  have hst := applyThen_stages s e ctx ops
  obtain ⟨hphase, hloop, -⟩ := (apply_shell s.reconnect e).stopped h.phase h.loop he
  refine ⟨⟨?_, ?_, ?_, ?_⟩, ?_⟩
  · rwa [applyThen_reconnect]
  · rwa [applyThen_reconnect]
  · rw [applyThen_adapters]
    exact fun generation hm => (h.adapters generation hm).trans_le hst.generation
  · obtain ⟨extra, hp, hn⟩ := h.published
    obtain ⟨pubs, hp', hn'⟩ := hst.published
    refine ⟨extra ++ pubs, by rw [hp', hp, List.append_assoc], ?_⟩
    intro target hm
    rcases List.mem_append.mp hm with hm | hm
    · exact hn target hm
    · obtain ⟨generation, hg⟩ := (apply_shell s.reconnect e).connected (hn' target hm)
      exact he generation hg
  · intro op hm
    rcases (mem_applyThen s e ctx ops).mp hm with ⟨effect, he', rfl⟩ | ho
    · exact buildTarget_effect hloop he'
    · exact hops op ho

theorem handleUnexpectedDisconnect_stopped (h : Stopped base s) (generation : Nat) (kind : DisconnectKind) :
    Stopped base (s.handleUnexpectedDisconnect generation kind).1 ∧
      ∀ op ∈ (s.handleUnexpectedDisconnect generation kind).2, op.buildTarget = none := by
  rcases handleUnexpectedDisconnect_cases s generation kind with heq | ⟨b, ctx, heq, -, -⟩
  · rw [heq]
    exact ⟨h, by simp⟩
  · rw [heq]
    exact applyThen_stopped h (by simp) (by simp)

theorem runReconnectLoopStep_stopped (h : Stopped base s) (he : ∀ generation, e ≠ .attemptConnected generation)
    (epoch : UInt64) (attempt : LastConnectAttempt τ) :
    Stopped base (s.runReconnectLoopStep e epoch attempt).1 ∧
      ∀ op ∈ (s.runReconnectLoopStep e epoch attempt).2, op.buildTarget = none := by
  refine applyThen_stopped h he ?_
  intro op hm
  split at hm
  · obtain rfl := List.mem_singleton.mp hm
    rfl
  · cases hm

theorem exec_stopped (h : Stopped base s) (hb : op.buildTarget = none) (k : Bool) :
    Stopped base (s.exec op k).1 ∧
      ∀ op' ∈ (s.exec op k).2.1 ++ (s.exec op k).2.2.flatten, op'.buildTarget = none := by
  cases op with
  | effect ctx effect =>
      simp only [exec, execEffect]
      split
      · split
        · exact ⟨h, by simp [Op.buildTarget]⟩
        · simpa using applyThen_stopped h (by simp) (by simp)
      · split
        · rename_i ha
          simp [Op.buildTarget, ha] at hb
        · simpa using applyThen_stopped h (by simp) (by simp)
      · exact ⟨h, by simp⟩
  | beginReconnectSession | newAdapter | connect | store => cases hb
  | connectFailed origin generation =>
      simp only [exec, List.flatten_nil, List.append_nil, OrchestratorShared.connectFailed]
      split
      · split
        · exact ⟨h, by simp⟩
        · exact applyThen_stopped h (by simp) (by simp)
      · exact applyThen_stopped h (by simp) (by simp)
      · exact applyThen_stopped h (by simp) (by simp)
  | handleUnexpectedDisconnect generation kind =>
      simpa [exec] using handleUnexpectedDisconnect_stopped h generation kind
  | loopStarted epoch attempt =>
      simpa [exec] using runReconnectLoopStep_stopped h (by simp) epoch attempt
  | waitTimer epoch attempt =>
      simp only [exec, List.flatten_nil, List.append_nil]
      refine runReconnectLoopStep_stopped h ?_ epoch attempt
      intro generation
      split <;> simp

theorem call_stopped (h : Stopped base s) {c : Call τ} (hc : s.call c = some (s', ops))
    (hn : ¬ Action.Reconnects (.call c)) : Stopped base s' ∧ ∀ op ∈ ops, op.buildTarget = none := by
  have hset (b : BackgroundState) : Stopped base (s.setBackground b) :=
    ⟨h.phase, h.loop, h.adapters, h.published⟩
  cases c with
  | connect | willEnterForeground => exact absurd trivial hn
  | disconnect | cancelReconnect =>
      cases hc
      exact applyThen_stopped h (by simp) (by simp)
  | didEnterBackground | backgroundBudgetExpired | memoryWarning =>
      cases hc
      split
      · exact ⟨by first | exact h | exact hset _, by simp⟩
      · exact ⟨by first | exact h | exact hset _, by simp⟩
  | policyChanged policy =>
      cases hc
      exact ⟨⟨h.phase, h.loop, h.adapters, h.published⟩, by simp⟩
  | networkPathLost phase generation =>
      cases hc
      refine ⟨h, ?_⟩
      intro op hm
      split at hm
      · obtain rfl := List.mem_singleton.mp hm
        rfl
      · cases hm
  | onConnected generation =>
      rw [call, Option.ite_none_right_eq_some] at hc
      obtain ⟨hm, hc⟩ := hc
      rw [if_pos (h.adapters generation hm).ne'] at hc
      cases hc
      exact ⟨h, by simp⟩
  | onDisconnected generation kind =>
      rw [call, Option.ite_none_right_eq_some] at hc
      obtain ⟨rfl, rfl⟩ := Prod.ext_iff.mp (Option.some.inj hc.2)
      exact handleUnexpectedDisconnect_stopped h generation kind

/-- 止めた後は、手動接続も前面への復帰も無ければ、止めた後の状態が続く。 -/
theorem Stopped.run {as : List (Action τ)} (h : Run OrchestratorState.Steps p as p')
    (hn : ∀ a ∈ as, ¬ Action.Reconnects a)
    (hp : p.Holds (Stopped base) (fun _ op => op.buildTarget = none)) :
    p'.Holds (Stopped base) (fun _ op => op.buildTarget = none) := by
  refine Pool.holds_of_run ?_ ?_ (h.guarded_of_forall hn) hp
  · intro p c s ops hp hu hc
    obtain ⟨hs, hops⟩ := call_stopped hp.shared hc hu
    exact ⟨hs, hp.pending, hops⟩
  · intro p i k op hp _ hop
    obtain ⟨hs, hops⟩ := exec_stopped hp.shared (hp.pending op hop) k
    refine ⟨hs, hp.pending, ?_, ?_⟩
    · exact fun op' hm => hops op' (List.mem_append_left _ hm)
    · exact fun op' hm => hops op' (List.mem_append_right _ hm)

end

end

end IsekaiTerminal.Orchestrator
