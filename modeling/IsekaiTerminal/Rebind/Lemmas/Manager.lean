import IsekaiTerminal.Rebind.Manager

/-!
# 切替の状態機械の 1 回の反応

反応の分類 `Reaction` と、動いているタイマーの不変条件 `Rearmed` を示す。
-/

namespace IsekaiTerminal.Rebind

open Lib RebindManager TimedStateMachine

section

variable {m m' : RebindManager} {c c' : Config} {x : Entry} {es : List Entry}

/-! ## 状態の更新 -/

@[simp] theorem advanceBackoffIndex_phase (m : RebindManager) : m.advanceBackoffIndex.phase = m.phase := by
  unfold advanceBackoffIndex
  split <;> rfl

@[simp] theorem completeAutomaticReturn_phase (m : RebindManager) :
    m.completeAutomaticReturn.1.phase = .onWifi := rfl

@[simp] theorem advanceBackoffIndex_consecutiveWifiProbeSuccesses (m : RebindManager) :
    m.advanceBackoffIndex.consecutiveWifiProbeSuccesses = m.consecutiveWifiProbeSuccesses := by
  unfold advanceBackoffIndex
  split <;> rfl

@[simp] theorem advanceBackoffIndex_stabilitySatisfied (m : RebindManager) :
    m.advanceBackoffIndex.stabilitySatisfied = m.stabilitySatisfied := by
  unfold advanceBackoffIndex
  split <;> rfl

@[simp] theorem advanceBackoffIndex_cellularMinDwellSatisfied (m : RebindManager) :
    m.advanceBackoffIndex.cellularMinDwellSatisfied = m.cellularMinDwellSatisfied := by
  unfold advanceBackoffIndex
  split <;> rfl

@[simp] theorem advanceBackoffIndex_manualForcePending (m : RebindManager) :
    m.advanceBackoffIndex.manualForcePending = m.manualForcePending := by
  unfold advanceBackoffIndex
  split <;> rfl

@[simp] theorem giveUpRound_phase (m : RebindManager) : m.giveUpRound.1.phase = .failedOverToCellular :=
  advanceBackoffIndex_phase _

/-! ## 反応の分類 -/

/-- 復帰の条件のうち 1 つが進む入力。 -/
inductive Progress (m : RebindManager) : Input RebindEvent RebindTimer → RebindManager → Reply → Prop
  | firstSuccess : m.manualForcePending = false → satAdd 32 m.consecutiveWifiProbeSuccesses 1 = 1 →
      Progress m (.event .wifiProbeSucceeded) { m with consecutiveWifiProbeSuccesses := 1 }
        (Response.consume.withTimer .stabilityWindow stabilityWindow)
  | nextSuccess : m.manualForcePending = false → satAdd 32 m.consecutiveWifiProbeSuccesses 1 ≠ 1 →
      Progress m (.event .wifiProbeSucceeded)
        { m with consecutiveWifiProbeSuccesses := satAdd 32 m.consecutiveWifiProbeSuccesses 1 } .consume
  | dwell : Progress m (.timeout .cellularMinDwell) { m with cellularMinDwellSatisfied := true } .consume
  | stability : Progress m (.timeout .stabilityWindow) { m with stabilitySatisfied := true } .consume

/-- 状態も作用もタイマーも変えない入力。 -/
def Ignores (m : RebindManager) (i : Input RebindEvent RebindTimer) : Prop :=
  m.phase = .onWifi ∨
    i ∈ [.event .noViablePath, .event .upstreamHealthDegraded, .event .trafficBusyDetected] ∨
    m.phase = .failedOverToCellular ∧ i ∈ [.event .trafficQuietDetected, .timeout .quietWait]

inductive Reaction (m : RebindManager) : Input RebindEvent RebindTimer → RebindManager → Reply → Prop
  | ignore {i : Input RebindEvent RebindTimer} {r : Reply} : Ignores m i → r.actions = [] → r.timers = [] → Reaction m i m r
  | failOver {i : Input RebindEvent RebindTimer} : m.phase = .onWifi → Reaction m i m.handleNoViablePath.1 m.handleNoViablePath.2
  | progress {i : Input RebindEvent RebindTimer} {m₁ : RebindManager} {r₁ : Reply} : m.phase ≠ .onWifi → Progress m i m₁ r₁ →
      Reaction m i (m₁.maybeEnterWaitingQuiet r₁).1 (m₁.maybeEnterWaitingQuiet r₁).2
  | manualReturn : m.phase ≠ .onWifi → m.manualForcePending = true →
      Reaction m (.event .wifiProbeSucceeded) { m with manualForcePending := false }.completeAutomaticReturn.1
        { m with manualForcePending := false }.completeAutomaticReturn.2
  | quietReturn : m.phase = .waitingQuietToReturn →
      Reaction m (.event .trafficQuietDetected) m.completeAutomaticReturn.1 m.completeAutomaticReturn.2
  | manualAnswer {i : Input RebindEvent RebindTimer} : m.manualForcePending = true →
      i = .event .wifiProbeFailed ∨ m.phase = .onWifi →
      Reaction m i { m with manualForcePending := false } .consume
  | failure : m.manualForcePending = false → m.phase = .failedOverToCellular →
      Reaction m (.event .wifiProbeFailed) { m with consecutiveWifiProbeSuccesses := 0 }
        (Response.consume.withKillTimer .stabilityWindow)
  | giveUp {i : Input RebindEvent RebindTimer} : m.phase = .waitingQuietToReturn →
      i = .event .wifiProbeFailed ∧ m.manualForcePending = false ∨ i = .timeout .quietWait →
      Reaction m i m.giveUpRound.1 m.giveUpRound.2
  | manualRequest : m.phase ≠ .onWifi →
      Reaction m (.event .manualForceReturnRequested) { m with manualForcePending := true }
        (.emit [.startWifiProbe])
  | probe {i : Input RebindEvent RebindTimer} : m.phase ≠ .onWifi → i = .timeout .probeCadence ∨ i = .timeout .backoff →
      Reaction m i m ((Response.emit [.startWifiProbe]).withTimer .probeCadence probeCadence)

theorem handleProbeSucceeded_progress (hp : m.phase ≠ .onWifi) (hmanual : m.manualForcePending = false) :
    Reaction m (.event .wifiProbeSucceeded) m.handleProbeSucceeded.1 m.handleProbeSucceeded.2 := by
  have heq : m.handleProbeSucceeded = RebindManager.maybeEnterWaitingQuiet
      { m with consecutiveWifiProbeSuccesses := satAdd 32 m.consecutiveWifiProbeSuccesses 1 }
      (if satAdd 32 m.consecutiveWifiProbeSuccesses 1 = 1 then
        Response.consume.withTimer .stabilityWindow stabilityWindow else .consume) := by
    unfold handleProbeSucceeded
    cases hphase : m.phase with
    | onWifi => exact absurd hphase hp
    | failedOverToCellular | waitingQuietToReturn => simp [hmanual]
  rw [heq]
  by_cases hfirst : satAdd 32 m.consecutiveWifiProbeSuccesses 1 = 1
  · rw [if_pos hfirst, hfirst]
    exact .progress hp (.firstSuccess hmanual hfirst)
  · rw [if_neg hfirst]
    exact .progress hp (.nextSuccess hmanual hfirst)

theorem handleProbeSucceeded_reaction (m : RebindManager) :
    Reaction m (.event .wifiProbeSucceeded) m.handleProbeSucceeded.1 m.handleProbeSucceeded.2 := by
  by_cases hp : m.phase = .onWifi
  · by_cases hmanual : m.manualForcePending = true
    · simpa [handleProbeSucceeded, completeManualReturn, hmanual, hp] using
        Reaction.manualAnswer hmanual (.inr hp)
    · simpa [handleProbeSucceeded, hmanual, hp] using
        Reaction.ignore (m := m) (r := Response.consume) (.inl hp) rfl rfl
  · by_cases hmanual : m.manualForcePending = true
    · simpa [handleProbeSucceeded, completeManualReturn, hmanual, hp] using Reaction.manualReturn hp hmanual
    · exact handleProbeSucceeded_progress hp (by simpa using hmanual)

theorem handleProbeFailed_reaction (m : RebindManager) :
    Reaction m (.event .wifiProbeFailed) m.handleProbeFailed.1 m.handleProbeFailed.2 := by
  unfold handleProbeFailed
  split
  · rename_i hmanual
    exact .manualAnswer hmanual (.inl rfl)
  · rename_i hmanual
    split
    · rename_i hp
      exact .ignore (.inl hp) rfl rfl
    · rename_i hp
      exact .failure (by simpa using hmanual) hp
    · rename_i hp
      exact .giveUp hp (.inl ⟨rfl, by simpa using hmanual⟩)

theorem onEvent_reaction (m : RebindManager) (e : RebindEvent) :
    Reaction m (.event e) (m.onEvent e).1 (m.onEvent e).2 := by
  cases e with
  | noViablePath | upstreamHealthDegraded =>
      by_cases hp : m.phase = .onWifi
      · exact .failOver hp
      · simpa [RebindManager.onEvent, handleNoViablePath, hp] using
          Reaction.ignore (m := m) (r := Response.consume) (.inr (.inl (by simp))) rfl rfl
  | wifiProbeSucceeded => exact handleProbeSucceeded_reaction m
  | wifiProbeFailed => exact handleProbeFailed_reaction m
  | trafficQuietDetected =>
      cases hp : m.phase with
      | waitingQuietToReturn => simpa [RebindManager.onEvent, handleQuietDetected, hp] using Reaction.quietReturn hp
      | onWifi =>
          simpa [RebindManager.onEvent, handleQuietDetected, hp] using
            Reaction.ignore (m := m) (r := Response.consume) (.inl hp) rfl rfl
      | failedOverToCellular =>
          simpa [RebindManager.onEvent, handleQuietDetected, hp] using
            Reaction.ignore (m := m) (r := Response.consume) (.inr (.inr ⟨hp, by simp⟩)) rfl rfl
  | trafficBusyDetected => exact .ignore (.inr (.inl (by simp))) rfl rfl
  | manualForceReturnRequested =>
      by_cases hp : m.phase = .onWifi
      · simpa [RebindManager.onEvent, handleManualForceReturn, hp] using
          Reaction.ignore (m := m) (r := Response.consume) (.inl hp) rfl rfl
      · simpa [RebindManager.onEvent, handleManualForceReturn, hp] using Reaction.manualRequest hp

theorem onTimeout_reaction (m : RebindManager) (id : RebindTimer) :
    Reaction m (.timeout id) (m.onTimeout id).1 (m.onTimeout id).2 := by
  by_cases hp : m.phase = .onWifi
  · have hidle : m.onTimeout id = (m, .passThrough) := by cases id <;> simp [RebindManager.onTimeout, hp]
    rw [hidle]
    exact .ignore (.inl hp) rfl rfl
  cases id with
  | cellularMinDwell => simpa [RebindManager.onTimeout, hp] using Reaction.progress hp .dwell
  | stabilityWindow => simpa [RebindManager.onTimeout, hp] using Reaction.progress hp .stability
  | probeCadence => simpa [RebindManager.onTimeout, hp] using Reaction.probe hp (.inl rfl)
  | backoff => simpa [RebindManager.onTimeout, hp] using Reaction.probe hp (.inr rfl)
  | quietWait =>
      by_cases hw : m.phase = .waitingQuietToReturn
      · simpa [RebindManager.onTimeout, hw] using Reaction.giveUp hw (.inr rfl)
      · have hf : m.phase = .failedOverToCellular := by cases h : m.phase <;> simp_all
        simpa [RebindManager.onTimeout, hw] using
          Reaction.ignore (m := m) (r := Response.passThrough) (.inr (.inr ⟨hf, by simp⟩)) rfl rfl

theorem reaction (m : RebindManager) (i : Input RebindEvent RebindTimer) :
    Reaction m i (machine.react m i).1 (machine.react m i).2 := by
  cases i with
  | event e => exact onEvent_reaction m e
  | timeout id => exact onTimeout_reaction m id

/-- 静けさ待ちに入るか、条件がそろわずにとどまる。 -/
theorem maybeEnterWaitingQuiet_cases (m : RebindManager) (r : Reply) :
    m.maybeEnterWaitingQuiet r = (m, r) ∨
      m.phase = .failedOverToCellular ∧ stabilityConsecutiveSuccesses ≤ m.consecutiveWifiProbeSuccesses ∧
        m.stabilitySatisfied = true ∧ m.cellularMinDwellSatisfied = true ∧
        m.maybeEnterWaitingQuiet r = ({ m with phase := .waitingQuietToReturn },
          ⟨true, r.actions ++ [.publishState .waitingQuietToReturn, .startQuietWatch],
            r.timers ++ [.set .quietWait quietWaitTimeout]⟩) := by
  unfold maybeEnterWaitingQuiet
  split
  · exact Or.inl rfl
  · rename_i h
    push Not at h
    exact Or.inr ⟨h.1, h.2.1, by simpa using h.2.2.1, by simpa using h.2.2.2, rfl⟩

/-! ## 動いているタイマー -/

structure Rearmed (c : Config) : Prop where
  onWifi : c.machine.phase = .onWifi → ∀ id, c.armed id = false
  probing : c.machine.phase ≠ .onWifi → c.armed .probeCadence = true ∨ c.armed .backoff = true
  waiting : c.machine.phase = .waitingQuietToReturn → c.armed .quietWait = true

theorem Progress.phase {i : Input RebindEvent RebindTimer} {r : Reply} (h : Progress m i m' r) :
    m'.phase = m.phase := by
  cases h <;> rfl

/-- 条件が進んでも、確認の再開と静けさ待ちのタイマーは変わらない。 -/
theorem Progress.armed {i : Input RebindEvent RebindTimer} {r : Reply} (h : Progress m i m' r)
    (armed : RebindTimer → Bool) {id : RebindTimer}
    (hid : id = .probeCadence ∨ id = .backoff ∨ id = .quietWait) :
    r.timers.foldl command (disarm armed i) id = armed id := by
  cases h <;> rcases hid with rfl | rfl | rfl <;> simp

theorem Rearmed.step (hc : Rearmed c) (h : machine.Steps c x c') : Rearmed c' := by
  cases h with
  | intro i hi =>
      rcases c with ⟨m, armed⟩
      obtain ⟨hwifi, hprobing, hwaiting⟩ := hc
      have hr := reaction m i
      rw [next]
      generalize hm' : (machine.react m i).1 = m' at hr ⊢
      generalize (machine.react m i).2 = r at hr ⊢
      cases hr with
      | ignore hig _ ht =>
          rw [ht]
          refine ⟨fun hp id => disarm_eq_false i (hwifi hp id), fun hp => ?_, fun hp => ?_⟩
          · have hne : i ≠ .timeout .probeCadence ∧ i ≠ .timeout .backoff := by
              rcases hig with h | h | h
              · exact absurd h hp
              · constructor <;> rintro rfl <;> simp at h
              · constructor <;> rintro rfl <;> simp at h
            simpa [disarm_of_ne hne.1, disarm_of_ne hne.2] using hprobing hp
          · have hne : i ≠ .timeout .quietWait := by
              rintro rfl
              rcases hig with h | h | h
              · exact absurd (h.symm.trans hp) (by simp)
              · simp at h
              · exact absurd (h.1.symm.trans hp) (by simp)
            simpa [disarm_of_ne hne] using hwaiting hp
      | failOver hp => constructor <;> simp [handleNoViablePath, hp, resetEpisode, resetReturnRound]
      | progress hp hprog =>
          rename_i m₁ r₁
          have hprobing' : r₁.timers.foldl command (disarm armed i) .probeCadence = true ∨
              r₁.timers.foldl command (disarm armed i) .backoff = true := by
            rw [hprog.armed armed (.inl rfl), hprog.armed armed (.inr (.inl rfl))]
            exact hprobing hp
          rcases maybeEnterWaitingQuiet_cases m₁ r₁ with heq | ⟨_, _, _, _, heq⟩
          · rw [heq]
            refine ⟨fun hp' => absurd (hprog.phase.symm.trans hp') hp, fun _ => hprobing', fun hp' => ?_⟩
            exact (hprog.armed armed (.inr (.inr rfl))).trans (hwaiting (hprog.phase.symm.trans hp'))
          · rw [heq]
            exact ⟨by simp, fun _ => by simpa using hprobing', by simp⟩
      | manualReturn hp _ =>
          refine ⟨fun _ id => ?_, by simp, by simp⟩
          cases id <;> simp [completeAutomaticReturn]
      | quietReturn hp =>
          refine ⟨fun _ id => ?_, by simp, by simp⟩
          cases id <;> simp [completeAutomaticReturn]
      | manualAnswer hmanual hi' =>
          rcases hi' with rfl | hp
          · exact ⟨hwifi, hprobing, hwaiting⟩
          · refine ⟨fun _ id => disarm_eq_false i (hwifi hp id), fun hp' => absurd hp hp', fun hp' => ?_⟩
            exact absurd (hp.symm.trans hp') (by simp)
      | failure _ hp => exact ⟨by simp [hp], fun hp' => by simpa using hprobing hp', by simp [hp]⟩
      | giveUp hp hi' =>
          exact ⟨by simp, fun _ => Or.inr (by simp [giveUpRound]), by simp⟩
      | manualRequest hp => exact ⟨fun hp' => absurd hp' hp, hprobing, hwaiting⟩
      | probe hp hi' =>
          refine ⟨fun hp' => absurd hp' hp, fun _ => Or.inl (by simp), fun hp' => ?_⟩
          rcases hi' with rfl | rfl <;> simpa using hwaiting hp'

theorem Rearmed.of_reaches (h : RebindManager.Reaches es c) : Rearmed c := by
  refine h.invariant (fun _ _ _ hc hst => hc.step hst) ?_
  exact ⟨fun _ _ => rfl, fun hp => absurd rfl hp, fun hp => by cases hp⟩

end

/-!
## 復帰の条件と履歴

状態の計数と旗が、履歴のどの並びを表すかを示す。
-/

section

variable {m m' : RebindManager} {c c' : Config} {x : Entry} {es seg : List Entry}

/-! ## episode の延長 -/

theorem forall_mem_concat {α : Type*} {P : α → Prop} {l : List α} {a : α} (hl : ∀ b ∈ l, P b) (ha : P a) :
    ∀ b ∈ l ++ [a], P b := by
  intro b hb
  rcases List.mem_append.mp hb with hb | hb
  · exact hl b hb
  · obtain rfl := List.mem_singleton.mp hb
    exact ha

theorem episode_concat (hx : .performRebindToCellular ∉ x.response.actions) :
    episode (es ++ [x]) = episode es ++ [x] :=
  List.rtakeWhile_concat_pos _ _ _ (by simpa using hx)

theorem episode_suffix_concat (hx : .performRebindToCellular ∉ x.response.actions)
    (h : seg <:+ episode es) : seg ++ [x] <:+ episode (es ++ [x]) := by
  obtain ⟨a, ha⟩ := h
  exact ⟨a, by rw [episode_concat hx, ← ha, List.append_assoc]⟩

theorem not_ordinaryFailure (h : x.input ≠ .event .wifiProbeFailed) : ¬ OrdinaryFailure x :=
  fun hf => h hf.1

theorem FailsAfterExpiry.concat (hx : .performRebindToCellular ∉ x.response.actions)
    (h : FailsAfterExpiry es) : FailsAfterExpiry (es ++ [x]) := by
  obtain ⟨y, hy, hf⟩ := h
  refine ⟨y, ?_, hf⟩
  rw [episode_concat hx]
  exact List.mem_append_left _ hy

theorem ManualRequested.concat (hx : .performRebindToCellular ∉ x.response.actions)
    (hp : ¬ ProbeResult x) (h : ManualRequested es) : ManualRequested (es ++ [x]) := by
  obtain ⟨before, y, later, hes, hy, hlater⟩ := h
  exact ⟨before, y, later ++ [x], by simp [episode_concat hx, hes], hy, forall_mem_concat hlater hp⟩

theorem Streak.concat {fails : Entry → Prop} (h : Streak fails seg) (hx : ¬ fails x)
    (hw : ¬ StartsWindow x) : Streak fails (seg ++ [x]) := by
  obtain ⟨⟨y, rest, rfl, hy, hset, hrest⟩, hseg⟩ := h
  exact ⟨⟨y, rest ++ [x], rfl, hy, hset, forall_mem_concat hrest hw⟩, forall_mem_concat hseg hx⟩

theorem successes_concat (seg : List Entry) (x : Entry) : successes (seg ++ [x]) =
    successes seg + if x.input = .event .wifiProbeSucceeded then 1 else 0 := by
  simp [successes, List.countP_append, List.countP_singleton]

/-! ## 復帰のラウンド -/

/-- 連続した成功の回数と安定確認の旗が、episode の末尾の成功の並びを表す。 -/
structure Round (es : List Entry) (m : RebindManager) (window : Bool) : Prop where
  streak : 0 < m.consecutiveWifiProbeSuccesses → ∃ seg, seg <:+ episode es ∧ Streak OrdinaryFailure seg ∧
    m.consecutiveWifiProbeSuccesses ≤ successes seg ∧
    (¬ FailsAfterExpiry es → m.stabilitySatisfied = true → WindowExpired seg)
  stale : ¬ FailsAfterExpiry es → m.consecutiveWifiProbeSuccesses = 0 → m.stabilitySatisfied = false
  idle : ¬ FailsAfterExpiry es → m.consecutiveWifiProbeSuccesses = 0 ∨ m.stabilitySatisfied = true →
    window = false

variable {w w' : Bool}

theorem Round.extend (h : Round es m w) (hx : .performRebindToCellular ∉ x.response.actions)
    (hf : ¬ OrdinaryFailure x) (hset : ¬ StartsWindow x)
    (hsucc : m'.consecutiveWifiProbeSuccesses = m.consecutiveWifiProbeSuccesses)
    (hstab : m'.stabilitySatisfied = m.stabilitySatisfied) (hw : w = false → w' = false) :
    Round (es ++ [x]) m' w' := by
  constructor
  · intro hpos
    rw [hsucc] at hpos ⊢
    obtain ⟨seg, hsuf, hseg, hle, hexp⟩ := h.streak hpos
    refine ⟨seg ++ [x], episode_suffix_concat hx hsuf, hseg.concat hf hset, ?_, fun hno hs => ?_⟩
    · rw [successes_concat]
      exact hle.trans (Nat.le_add_right _ _)
    · obtain ⟨y, hy, hyt⟩ := hexp (fun hf => hno (hf.concat hx)) (hstab ▸ hs)
      exact ⟨y, List.mem_append_left _ hy, hyt⟩
  · intro hno hzero
    rw [hsucc] at hzero
    rw [hstab]
    exact h.stale (fun hf => hno (hf.concat hx)) hzero
  · intro hno hor
    rw [hsucc, hstab] at hor
    exact hw (h.idle (fun hf => hno (hf.concat hx)) hor)

theorem Round.of_zero (hsucc : m.consecutiveWifiProbeSuccesses = 0)
    (hstab : ¬ FailsAfterExpiry es → m.stabilitySatisfied = false ∧ w = false) : Round es m w := by
  constructor
  · intro hpos
    exact absurd hsucc hpos.ne'
  · intro hno _
    exact (hstab hno).1
  · intro hno _
    exact (hstab hno).2

theorem Round.enter (h : Round es m w) : Round es { m with phase := .waitingQuietToReturn } w :=
  ⟨h.streak, h.stale, h.idle⟩

/-- 最初の成功は、並びを始める。 -/
theorem Round.firstSuccess (h : Round es m w) (hzero : m.consecutiveWifiProbeSuccesses = 0)
    (hx : .performRebindToCellular ∉ x.response.actions) (hi : x.input = .event .wifiProbeSucceeded)
    (hset : StartsWindow x) (hsucc : m'.consecutiveWifiProbeSuccesses = 1) (hstab : m'.stabilitySatisfied = m.stabilitySatisfied) :
    Round (es ++ [x]) m' w' := by
  have hstale (hno : ¬ FailsAfterExpiry (es ++ [x])) : m'.stabilitySatisfied = false := by
    rw [hstab]
    exact h.stale (fun hf => hno (hf.concat hx)) hzero
  constructor
  · intro _
    refine ⟨[x], ⟨episode es, (episode_concat hx).symm⟩, ⟨⟨x, [], rfl, hi, hset, List.forall_mem_nil _⟩, ?_⟩, ?_, ?_⟩
    · intro y hy
      obtain rfl := List.mem_singleton.mp hy
      exact not_ordinaryFailure (by simp [hi])
    · simp [hsucc, successes, hi]
    · intro hno hs
      rw [hstale hno] at hs
      cases hs
  · intro _ hz
    omega
  · intro hno hor
    rcases hor with hz | hs
    · omega
    · rw [hstale hno] at hs
      cases hs

theorem Round.nextSuccess (h : Round es m w) (hpos : 0 < m.consecutiveWifiProbeSuccesses)
    (hx : .performRebindToCellular ∉ x.response.actions) (hi : x.input = .event .wifiProbeSucceeded)
    (hset : ¬ StartsWindow x) (hpos' : 0 < m'.consecutiveWifiProbeSuccesses)
    (hsucc : m'.consecutiveWifiProbeSuccesses ≤ m.consecutiveWifiProbeSuccesses + 1)
    (hstab : m'.stabilitySatisfied = m.stabilitySatisfied) : Round (es ++ [x]) m' w := by
  have hf : ¬ OrdinaryFailure x := not_ordinaryFailure (by simp [hi])
  constructor
  · intro _
    obtain ⟨seg, hsuf, hseg, hle, hexp⟩ := h.streak hpos
    refine ⟨seg ++ [x], episode_suffix_concat hx hsuf, hseg.concat hf hset, ?_, fun hno hs => ?_⟩
    · rw [successes_concat, if_pos hi]
      omega
    · obtain ⟨y, hy, hyt⟩ := hexp (fun hf => hno (hf.concat hx)) (hstab ▸ hs)
      exact ⟨y, List.mem_append_left _ hy, hyt⟩
  · intro _ hz
    omega
  · intro hno hor
    rcases hor with hz | hs
    · omega
    · exact h.idle (fun hf => hno (hf.concat hx)) (.inr (hstab ▸ hs))

/-- 安定確認の満了は、並びの中で起きる。 -/
theorem Round.expire (h : Round es m true) (hx : .performRebindToCellular ∉ x.response.actions)
    (hi : x.input = .timeout .stabilityWindow) (hset : ¬ StartsWindow x)
    (hsucc : m'.consecutiveWifiProbeSuccesses = m.consecutiveWifiProbeSuccesses) :
    Round (es ++ [x]) m' false := by
  have hf : ¬ OrdinaryFailure x := not_ordinaryFailure (by simp [hi])
  constructor
  · intro hpos
    rw [hsucc] at hpos ⊢
    obtain ⟨seg, hsuf, hseg, hle, -⟩ := h.streak hpos
    refine ⟨seg ++ [x], episode_suffix_concat hx hsuf, hseg.concat hf hset, ?_, fun _ _ => ⟨x, by simp, hi⟩⟩
    rw [successes_concat]
    exact hle.trans (Nat.le_add_right _ _)
  · intro hno hzero
    rw [hsucc] at hzero
    cases h.idle (fun hf => hno (hf.concat hx)) (.inl hzero)
  · intro _ _
    rfl

/-! ## 履歴との対応 -/

structure Follows (es : List Entry) (c : Config) : Prop where
  dwell : c.machine.cellularMinDwellSatisfied = true →
    ∃ x ∈ episode es, x.input = .timeout .cellularMinDwell
  manual : c.machine.manualForcePending = true → ManualRequested es
  round : Round es c.machine (c.armed .stabilityWindow)
  waiting : c.machine.phase = .waitingQuietToReturn →
    stabilityConsecutiveSuccesses ≤ c.machine.consecutiveWifiProbeSuccesses ∧
      c.machine.stabilitySatisfied = true ∧ c.machine.cellularMinDwellSatisfied = true

variable {armed armed' : RebindTimer → Bool} {r : Reply}

theorem dwell_concat (hx : .performRebindToCellular ∉ x.response.actions)
    (h : ∃ y ∈ episode es, y.input = .timeout .cellularMinDwell) :
    ∃ y ∈ episode (es ++ [x]), y.input = .timeout .cellularMinDwell := by
  obtain ⟨y, hy, hyt⟩ := h
  refine ⟨y, ?_, hyt⟩
  rw [episode_concat hx]
  exact List.mem_append_left _ hy

/-- 復帰のラウンドを変えない反応。 -/
theorem Follows.keep {b : Bool} (h : Follows es ⟨m, armed⟩)
    (hx : .performRebindToCellular ∉ x.response.actions) (hf : ¬ OrdinaryFailure x) (hset : ¬ StartsWindow x)
    (hb : b = true → ManualRequested (es ++ [x]))
    (hw : armed .stabilityWindow = false → armed' .stabilityWindow = false) :
    Follows (es ++ [x]) ⟨{ m with manualForcePending := b }, armed'⟩ :=
  ⟨fun hd => dwell_concat hx (h.dwell hd), hb, h.round.extend hx hf hset rfl rfl hw, h.waiting⟩

theorem Follows.progress (h : Follows es ⟨m, armed⟩) (hi : Accepts ⟨m, armed⟩ x.input)
    (hx : .performRebindToCellular ∉ x.response.actions) (hprog : Progress m x.input m' r)
    (hset : ∀ d, .set .stabilityWindow d ∈ r.timers ↔ .set .stabilityWindow d ∈ x.response.timers) :
    Follows (es ++ [x]) ⟨m', r.timers.foldl command (disarm armed x.input)⟩ := by
  have hnoset (hr : r.timers = []) : ¬ StartsWindow x := by
    intro hs
    have hmem := (hset _).mpr hs
    simp [hr] at hmem
  generalize hin : x.input = i at hi hprog ⊢
  cases hprog with
  | firstSuccess hm hfirst =>
      have hzero : m.consecutiveWifiProbeSuccesses = 0 := by
        simp only [satAdd, maxOf] at hfirst
        omega
      refine ⟨fun hd => dwell_concat hx (h.dwell hd), fun hm' => ?_, ?_, fun hw => ?_⟩
      · rw [hm] at hm'
        cases hm'
      · exact h.round.firstSuccess hzero hx hin ((hset _).mp (by simp)) rfl rfl
      · have hle := (h.waiting hw).1
        rw [hzero] at hle
        cases hle
  | nextSuccess hm hnext =>
      have hpos : 0 < m.consecutiveWifiProbeSuccesses ∧
          0 < satAdd 32 m.consecutiveWifiProbeSuccesses 1 ∧
          satAdd 32 m.consecutiveWifiProbeSuccesses 1 ≤ m.consecutiveWifiProbeSuccesses + 1 := by
        simp only [satAdd, maxOf] at hnext ⊢
        omega
      refine ⟨fun hd => dwell_concat hx (h.dwell hd), fun hm' => ?_, ?_, fun hw => ?_⟩
      · rw [hm] at hm'
        cases hm'
      · exact h.round.nextSuccess hpos.1 hx hin (hnoset rfl) hpos.2.1 hpos.2.2 rfl
      · obtain ⟨hle, hs, hd⟩ := h.waiting hw
        refine ⟨?_, hs, hd⟩
        simp only [satAdd, maxOf, stabilityConsecutiveSuccesses] at hle ⊢
        omega
  | dwell =>
      have hp : ¬ ProbeResult x := by simp [ProbeResult, hin]
      refine ⟨fun _ => ⟨x, by simp [episode_concat hx], hin⟩, fun hm => (h.manual hm).concat hx hp,
        h.round.extend hx (not_ordinaryFailure (by simp [hin])) (hnoset rfl) rfl rfl (by simp), fun hw => ?_⟩
      obtain ⟨hle, hs, -⟩ := h.waiting hw
      exact ⟨hle, hs, rfl⟩
  | stability =>
      have hp : ¬ ProbeResult x := by simp [ProbeResult, hin]
      have hround : Round es m true := by
        have hr : Round es m (armed .stabilityWindow) := h.round
        rwa [show armed .stabilityWindow = true from hi] at hr
      refine ⟨fun hd => dwell_concat hx (h.dwell hd), fun hm => (h.manual hm).concat hx hp, ?_, fun hw => ?_⟩
      · have hround' : Round (es ++ [x]) { m with stabilitySatisfied := true } false := hround.expire hx hin (hnoset rfl) rfl
        simpa using hround'
      · obtain ⟨hle, -, hd⟩ := h.waiting hw
        exact ⟨hle, rfl, hd⟩

theorem Reaction.not_failOver {i : Input RebindEvent RebindTimer} (h : Reaction m i m' r)
    (hp : m.phase ≠ .onWifi) : .performRebindToCellular ∉ r.actions := by
  cases h with
  | ignore _ ha _ => simp [ha]
  | failOver hp' => exact absurd hp' hp
  | progress hp' hprog =>
      rename_i m₁ r₁
      have hr₁ : r₁.actions = [] := by cases hprog <;> rfl
      rcases maybeEnterWaitingQuiet_cases m₁ r₁ with heq | ⟨_, _, _, _, heq⟩ <;> simp [heq, hr₁]
  | manualReturn | quietReturn => simp [completeAutomaticReturn]
  | manualAnswer | failure | manualRequest | probe => simp
  | giveUp => simp [giveUpRound]

/-- セルラー側にいる間の反応は、履歴との対応を保つ。 -/
theorem Follows.step (hf : Follows es c) (h : machine.Steps c x c') (hp : c.machine.phase ≠ .onWifi)
    (hp' : c'.machine.phase ≠ .onWifi) : Follows (es ++ [x]) c' := by
  cases h with
  | intro i hi =>
      rcases c with ⟨m, armed⟩
      have hr := reaction m i
      generalize hx : machine.entry m i = x
      have hin : x.input = i := hx ▸ rfl
      have hb : x.before = m := hx ▸ rfl
      have hresp : x.response = (machine.react m i).2 := hx ▸ rfl
      have hcell : .performRebindToCellular ∉ x.response.actions := hresp ▸ hr.not_failOver hp
      rw [next] at hp' ⊢
      generalize (machine.react m i).1 = m' at hr hp' ⊢
      generalize (machine.react m i).2 = r at hr hresp ⊢
      cases hr with
      | ignore hig _ ht =>
          have hne : i ≠ .event .wifiProbeSucceeded ∧ i ≠ .event .wifiProbeFailed := by
            rcases hig with h | h | h
            · exact absurd h hp
            · constructor <;> rintro rfl <;> simp at h
            · constructor <;> rintro rfl <;> simp at h
          rw [ht]
          refine hf.keep hcell (not_ordinaryFailure (hin ▸ hne.2)) (by simp [StartsWindow, hresp, ht]) (fun hm => (hf.manual hm).concat hcell ?_)
            (disarm_eq_false i)
          simpa [ProbeResult, hin] using hne
      | failOver hw => exact absurd hw hp
      | progress hp₁ hprog =>
          rename_i m₁ r₁
          have hkeep := hf.progress (x := x) (hin ▸ hi) hcell (hin ▸ hprog)
          rcases maybeEnterWaitingQuiet_cases m₁ r₁ with heq | ⟨_, hle, hs, hd, heq⟩
          · rw [heq] at hresp ⊢
            exact hin ▸ hkeep fun d => by rw [hresp]
          · rw [heq] at hresp ⊢
            have h₁ := hkeep fun d => by simp [hresp]
            refine ⟨h₁.dwell, h₁.manual, ?_, fun _ => ⟨hle, hs, hd⟩⟩
            simpa [hin] using h₁.round.enter
      | manualReturn => exact absurd rfl hp'
      | quietReturn => exact absurd rfl hp'
      | manualAnswer hmanual hi' =>
          obtain rfl : i = .event .wifiProbeFailed := hi'.resolve_right hp
          refine hf.keep hcell (fun hfail => ?_) (by simp [StartsWindow, hresp]) (fun hm => by cases hm) id
          exact absurd (hmanual.symm.trans (hb ▸ hfail.2)) (by simp)
      | failure hmanual hphase =>
          refine ⟨fun hd => dwell_concat hcell (hf.dwell hd), fun hm => ?_, ?_, fun hw => ?_⟩
          · exact absurd (hmanual.symm.trans hm) (by simp)
          · refine Round.of_zero rfl fun hno => ⟨?_, by simp⟩
            by_contra hs
            refine hno ⟨x, by simp [episode_concat hcell], ⟨hin, hb ▸ hmanual⟩, hb ▸ hphase, ?_⟩
            rw [hb]
            simpa using hs
          · exact absurd (hphase.symm.trans hw) (by simp)
      | giveUp hphase hi' =>
          obtain ⟨-, hs, -⟩ := hf.waiting hphase
          refine ⟨fun hd => dwell_concat hcell (hf.dwell ?_), fun hm => ?_, ?_, fun hw => ?_⟩
          · simpa [giveUpRound, resetReturnRound] using hd
          · have hm' : m.manualForcePending = true := by simpa [giveUpRound, resetReturnRound] using hm
            rcases hi' with ⟨_, hno⟩ | rfl
            · exact absurd (hno.symm.trans hm') (by simp)
            · exact (hf.manual hm').concat hcell (by simp [ProbeResult, hin])
          · refine Round.of_zero (by simp [giveUpRound, resetReturnRound]) fun hno => ?_
            have hidle : armed .stabilityWindow = false :=
              hf.round.idle (fun hfa => hno (hfa.concat hcell)) (.inr hs)
            refine ⟨by simp [giveUpRound, resetReturnRound], ?_⟩
            simpa [giveUpRound] using disarm_eq_false i hidle
          · simp at hw
      | manualRequest hp =>
          refine hf.keep hcell (not_ordinaryFailure (by simp [hin])) (by simp [StartsWindow, hresp]) (fun _ => ?_) id
          exact ⟨episode es, x, [], episode_concat hcell, hin, by simp⟩
      | probe hp hi' =>
          have hpr : ¬ ProbeResult x ∧ ¬ OrdinaryFailure x := by
            rcases hi' with rfl | rfl <;> simp [ProbeResult, OrdinaryFailure, hin]
          refine hf.keep hcell hpr.2 (by simp [StartsWindow, hresp])
            (fun hm => (hf.manual hm).concat hcell hpr.1) fun hw => ?_
          simpa using disarm_eq_false i hw

/-! ## 1 回の反応の作用 -/

theorem Reaction.published {i : Input RebindEvent RebindTimer} (h : Reaction m i m' r) :
    (r.actions.filterMap published?).getLast?.getD m.publicState = m'.publicState := by
  cases h with
  | ignore _ ha _ => simp [ha]
  | failOver hp => simp [handleNoViablePath, hp, published?, publicState, List.filterMap_cons, resetEpisode, resetReturnRound]
  | progress hp hprog =>
      rename_i m₁ r₁
      have hr₁ : r₁.actions = [] ∧ m₁.phase = m.phase := ⟨by cases hprog <;> rfl, hprog.phase⟩
      rcases maybeEnterWaitingQuiet_cases m₁ r₁ with heq | ⟨_, _, _, _, heq⟩
      · simp [heq, hr₁, publicState]
      · simp [heq, hr₁, published?, publicState, List.filterMap_cons]
  | manualReturn | quietReturn =>
      simp [completeAutomaticReturn, published?, publicState, List.filterMap_cons, resetEpisode, resetReturnRound]
  | giveUp => simp [giveUpRound, published?, publicState, List.filterMap_cons, resetReturnRound]
  | manualAnswer | failure | manualRequest | probe => simp [published?, publicState, List.filterMap_cons]

theorem Reaction.watched {i : Input RebindEvent RebindTimer} (h : Reaction m i m' r) :
    (r.actions.filterMap watched?).getLast?.getD (decide (m.phase = .waitingQuietToReturn)) =
      decide (m'.phase = .waitingQuietToReturn) := by
  cases h with
  | ignore _ ha _ => simp [ha]
  | failOver hp => simp [handleNoViablePath, hp, watched?, List.filterMap_cons, resetEpisode, resetReturnRound]
  | progress hp hprog =>
      rename_i m₁ r₁
      have hr₁ : r₁.actions = [] ∧ m₁.phase = m.phase := ⟨by cases hprog <;> rfl, hprog.phase⟩
      rcases maybeEnterWaitingQuiet_cases m₁ r₁ with heq | ⟨_, _, _, _, heq⟩
      · simp [heq, hr₁]
      · simp [heq, hr₁, watched?, List.filterMap_cons]
  | manualReturn | quietReturn => simp [completeAutomaticReturn, watched?, List.filterMap_cons, resetEpisode, resetReturnRound]
  | giveUp => simp [giveUpRound, watched?, List.filterMap_cons, resetReturnRound]
  | manualAnswer | failure | manualRequest | probe => simp [watched?, List.filterMap_cons]

/-- 片方の側からもう片方の側へ移る切替。 -/
def switch (m m' : RebindManager) : List RebindAction :=
  if m.phase = .onWifi then if m'.phase = .onWifi then [] else [.performRebindToCellular]
  else if m'.phase = .onWifi then [.performRebindToWifi] else []

theorem switch_of_phase_eq (h : m'.phase = m.phase) : switch m m' = [] := by
  unfold switch
  split <;> simp_all

theorem Reaction.switch {i : Input RebindEvent RebindTimer} (h : Reaction m i m' r) :
    (r.actions.filter fun a => a = .performRebindToCellular ∨ a = .performRebindToWifi) =
      Rebind.switch m m' := by
  cases h with
  | ignore _ ha _ => simp [ha, switch_of_phase_eq]
  | failOver hp => simp [handleNoViablePath, hp, Rebind.switch, resetEpisode, resetReturnRound]
  | progress hp hprog =>
      rename_i m₁ r₁
      have hr₁ : r₁.actions = [] ∧ m₁.phase = m.phase := ⟨by cases hprog <;> rfl, hprog.phase⟩
      rcases maybeEnterWaitingQuiet_cases m₁ r₁ with heq | ⟨_, _, _, _, heq⟩
      · simp [heq, hr₁, switch_of_phase_eq]
      · simp [heq, hr₁, Rebind.switch, hp]
  | manualReturn hp | quietReturn hp => simp [completeAutomaticReturn, Rebind.switch, resetEpisode, resetReturnRound, hp]
  | giveUp hp => simp [giveUpRound, Rebind.switch, resetReturnRound, hp]
  | manualAnswer | failure | manualRequest | probe => simp [switch_of_phase_eq]

theorem Reaction.returns {i : Input RebindEvent RebindTimer} (h : Reaction m i m' r)
    (hr : .performRebindToWifi ∈ r.actions) : m.phase ≠ .onWifi ∧
      (i = .event .wifiProbeSucceeded ∧ m.manualForcePending = true ∨
        i = .event .trafficQuietDetected ∧ m.phase = .waitingQuietToReturn) := by
  cases h with
  | ignore _ ha _ => simp [ha] at hr
  | failOver hp => simp [handleNoViablePath, hp] at hr
  | progress hp hprog =>
      rename_i m₁ r₁
      have hr₁ : r₁.actions = [] := by cases hprog <;> rfl
      rcases maybeEnterWaitingQuiet_cases m₁ r₁ with heq | ⟨_, _, _, _, heq⟩ <;> simp [heq, hr₁] at hr
  | manualReturn hp hmanual => exact ⟨hp, .inl ⟨rfl, hmanual⟩⟩
  | quietReturn hp => exact ⟨by simp [hp], .inr ⟨rfl, hp⟩⟩
  | giveUp => simp [giveUpRound] at hr
  | manualAnswer | failure | manualRequest | probe => simp at hr

/-! ## 実行の履歴 -/

theorem exists_drop_take_of_infix {α : Type*} {seg l : List α} (h : seg <:+: l) :
    ∃ i j, i ≤ l.length ∧ j ≤ l.length ∧ seg = (l.drop i).take j := by
  obtain ⟨a, b, rfl⟩ := h
  exact ⟨a.length, seg.length, by simp, by simp; omega, by simp⟩

theorem Follows.failOver (hc : Rearmed c) (h : machine.Steps c x c') (hp : c.machine.phase = .onWifi)
    (hp' : c'.machine.phase ≠ .onWifi) : Follows (es ++ [x]) c' := by
  cases h with
  | intro i hi =>
      rcases c with ⟨m, armed⟩
      have hr := reaction m i
      generalize hx : machine.entry m i = x
      have hresp : x.response = (machine.react m i).2 := hx ▸ rfl
      rw [next] at hp' ⊢
      generalize (machine.react m i).1 = m' at hr hp' ⊢
      generalize (machine.react m i).2 = r at hr hresp ⊢
      cases hr with
      | failOver hw =>
          have hm' : m.handleNoViablePath.1 = { m with phase := .failedOverToCellular }.resetEpisode := by
            simp [handleNoViablePath, hw]
          have hidle : disarm armed i .stabilityWindow = false := disarm_eq_false i (hc.onWifi hp _)
          rw [hm']
          refine ⟨?_, ?_, Round.of_zero rfl fun _ => ⟨rfl, ?_⟩, ?_⟩
          · simp [resetEpisode]
          · simp [resetEpisode]
          · simpa [handleNoViablePath, hw] using hidle
          · simp [resetEpisode, resetReturnRound]
      | ignore | manualAnswer => exact absurd hp hp'
      | progress hp₁ | manualReturn hp₁ | manualRequest hp₁ | probe hp₁ => exact absurd hp hp₁
      | quietReturn hp₁ | failure _ hp₁ | giveUp hp₁ => exact absurd (hp.symm.trans hp₁) (by simp)

theorem follows_of_reaches (h : RebindManager.Reaches es c) : c.machine.phase ≠ .onWifi → Follows es c := by
  refine h.history (J := fun es c => c.machine.phase ≠ .onWifi → Follows es c) (fun hp => absurd rfl hp) ?_
  intro es x c c' hreach ih hstep hp'
  by_cases hp : c.machine.phase = .onWifi
  · exact Follows.failOver (.of_reaches hreach) hstep hp hp'
  · exact (ih hp).step hstep hp hp'

theorem Steps.reaction (h : machine.Steps c x c') :
    x.before = c.machine ∧ Reaction c.machine x.input c'.machine x.response := by
  cases h with
  | intro i hi => exact ⟨rfl, Rebind.reaction _ _⟩

/-- WiFi への復帰は、手動の要求によるか、復帰の条件がそろってからである。 -/
theorem returns_of_reaches (h : RebindManager.Reaches es c) (hs : machine.Steps c x c')
    (hx : .performRebindToWifi ∈ x.response.actions) :
    ByManualRequest es x ∨ Damped OrdinaryFailure (fun _ => True) es x ∧
      (¬ FailsAfterExpiry es → Damped OrdinaryFailure WindowExpired es x) := by
  obtain ⟨hp, hcases⟩ := (Steps.reaction hs).2.returns hx
  have hf := follows_of_reaches h hp
  rcases hcases with ⟨hi, hm⟩ | ⟨hi, hw⟩
  · exact Or.inl ⟨hi, hf.manual hm⟩
  · obtain ⟨hle, hstab, hd⟩ := hf.waiting hw
    obtain ⟨seg, hsuf, hseg, hcount, hexp⟩ := hf.round.streak (Nat.lt_of_lt_of_le (by decide) hle)
    refine Or.inr ⟨⟨hi, hf.dwell hd, seg, hsuf.isInfix, hseg, hle.trans hcount, trivial⟩, fun hno => ?_⟩
    exact ⟨hi, hf.dwell hd, seg, hsuf.isInfix, hseg, hle.trans hcount, hexp hno hstab⟩

theorem lastPublished_concat (es : List Entry) (x : Entry) : lastPublished (es ++ [x]) =
    (x.response.actions.filterMap published?).getLast?.getD (lastPublished es) := by
  simp [lastPublished, actions, List.getLast?_append, Option.getD_or]

theorem quietWatched_concat (es : List Entry) (x : Entry) : quietWatched (es ++ [x]) =
    (x.response.actions.filterMap watched?).getLast?.getD (quietWatched es) := by
  simp [quietWatched, actions, List.getLast?_append, Option.getD_or]

theorem rebinds_concat (es : List Entry) (x : Entry) : rebinds (es ++ [x]) = rebinds es ++
    x.response.actions.filter fun a => a = .performRebindToCellular ∨ a = .performRebindToWifi := by
  simp [rebinds, actions]

theorem lastPublished_of_reaches (h : RebindManager.Reaches es c) :
    lastPublished es = c.machine.publicState := by
  refine h.history (J := fun es c => lastPublished es = c.machine.publicState) rfl ?_
  intro es x c c' _ ih hstep
  rw [lastPublished_concat, ih]
  exact (Steps.reaction hstep).2.published

theorem quietWatched_of_reaches (h : RebindManager.Reaches es c) :
    quietWatched es = decide (c.machine.phase = .waitingQuietToReturn) := by
  refine h.history (J := fun es c => quietWatched es = decide (c.machine.phase = .waitingQuietToReturn)) rfl ?_
  intro es x c c' _ ih hstep
  rw [quietWatched_concat, ih]
  exact (Steps.reaction hstep).2.watched

/-- 往復した回数だけの切替の組と、セルラー側にいるときの最後の切替。 -/
theorem rebinds_of_reaches (h : RebindManager.Reaches es c) : ∃ n, rebinds es =
    (List.replicate n [RebindAction.performRebindToCellular, .performRebindToWifi]).flatten ++
      if c.machine.phase = .onWifi then [] else [.performRebindToCellular] := by
  refine h.history (J := fun es c => ∃ n, rebinds es =
    (List.replicate n [RebindAction.performRebindToCellular, .performRebindToWifi]).flatten ++
      if c.machine.phase = .onWifi then [] else [.performRebindToCellular]) ⟨0, rfl⟩ ?_
  intro es x c c' _ ih hstep
  obtain ⟨n, ih⟩ := ih
  rw [rebinds_concat, ih, (Steps.reaction hstep).2.switch]
  by_cases hp : c.machine.phase = .onWifi
  · exact ⟨n, by simp [Rebind.switch, hp]⟩
  · by_cases hp' : c'.machine.phase = .onWifi
    · exact ⟨n + 1, by simp [Rebind.switch, hp, hp', List.replicate_succ']⟩
    · exact ⟨n, by simp [Rebind.switch, hp, hp']⟩

theorem alternates_of_reaches (h : RebindManager.Reaches es c) : Alternates (rebinds es) := by
  obtain ⟨n, hn⟩ := rebinds_of_reaches h
  refine ⟨n + 1, ?_⟩
  rw [hn, List.replicate_succ', List.flatten_append]
  refine (List.prefix_append_right_inj _).mpr ?_
  split
  · exact List.nil_prefix
  · exact List.prefix_append [_] [_]

end

end IsekaiTerminal.Rebind
