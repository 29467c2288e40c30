import IsekaiTerminal.Rebind.Lemmas.Manager

/-!
# WiFi とセルラーの切替の性質
-/

namespace IsekaiTerminal.Rebind

open Lib RebindManager TimedStateMachine

variable {es : List Entry} {c : Config}

/-! ## 復帰のヒステリシス -/

/-- 切替は交互に起き、自動の復帰は、最小滞在と静けさの条件と、普通の失敗を挟まない十分な回数の成功がそろってから起きる。
`StabilityWindow` の満了より後に普通の失敗が届かなければ、満了もその成功の並びの中で起きる。 -/
theorem returns_damped (h : RebindManager.Reaches es c) :
    Alternates (rebinds es) ∧
    (∀ before e later, es = before ++ e :: later → .performRebindToWifi ∈ e.response.actions →
      ByManualRequest before e ∨ Damped OrdinaryFailure (fun _ => True) before e ∧
        (¬ FailsAfterExpiry before → Damped OrdinaryFailure WindowExpired before e)) ∧
    lastPublished es = c.machine.publicState ∧
    (quietWatched es = true ↔ c.machine.phase = .waitingQuietToReturn) := by
  refine ⟨alternates_of_reaches h, ?_, lastPublished_of_reaches h, ?_⟩
  · intro before e later hes he
    subst hes
    obtain ⟨c₁, c₂, hreach, hstep⟩ := h.exists_step
    exact returns_of_reaches hreach hstep he
  · rw [quietWatched_of_reaches h, decide_eq_true_iff]

/-- 失敗を挟まない成功の並びが足りないまま、静けさの検知で復帰する実行は、文書どおりのヒステリシスを破る。 -/
theorem not_hysteresis_of_exec {is : List (Input RebindEvent RebindTimer)} {r : List Entry × Config}
    (hr : machine.exec start is = some r)
    (hret : .performRebindToWifi ∈ (machine.entry r.2.machine (.event .trafficQuietDetected)).response.actions)
    (hno : ∀ i ∈ List.range ((episode r.1).length + 1), ∀ j ∈ List.range ((episode r.1).length + 1),
      (∀ x ∈ ((episode r.1).drop i).take j, x.input ≠ .event .wifiProbeFailed) →
      stabilityConsecutiveSuccesses ≤ successes (((episode r.1).drop i).take j) →
      ∀ x ∈ ((episode r.1).drop i).take j, x.input ≠ .timeout .stabilityWindow) :
    ∃ es c, RebindManager.Reaches es c ∧ es.map (·.input) = is ++ [.event .trafficQuietDetected] ∧
      ¬ Hysteresis es c.machine := by
  obtain ⟨before, c⟩ := r
  refine ⟨before ++ [machine.entry c.machine (.event .trafficQuietDetected)],
    machine.next c (.event .trafficQuietDetected),
    (reaches_of_exec hr).append (.single (.intro c _ trivial)), ?_, fun hyst => ?_⟩
  · rw [List.map_append, inputs_of_exec hr]
    rfl
  · rcases hyst.damped before _ [] rfl hret with ⟨hi, _⟩ | ⟨_, _, seg, hinfix, hseg, hle, x, hx, hxi⟩
    · cases hi
    · obtain ⟨i, j, hi, hj, rfl⟩ := exists_drop_take_of_infix hinfix
      exact hno i (List.mem_range.mpr (Nat.lt_succ_of_le hi)) j (List.mem_range.mpr (Nat.lt_succ_of_le hj))
        hseg.unbroken hle x hx hxi

/-- 失敗の前に満了した `StabilityWindow` を、失敗の後の成功の並びが使い回す実行。 -/
def staleWindowRun : List (Input RebindEvent RebindTimer) :=
  [.event .noViablePath, .event .wifiProbeSucceeded, .timeout .stabilityWindow, .timeout .cellularMinDwell,
    .event .wifiProbeFailed] ++ List.replicate 5 (.event .wifiProbeSucceeded)

/-- 手動の要求への応答の失敗を挟んで、成功を数え続ける実行。 -/
def answeredRequestRun : List (Input RebindEvent RebindTimer) :=
  [.event .noViablePath, .timeout .cellularMinDwell] ++ List.replicate 4 (.event .wifiProbeSucceeded) ++
    [.timeout .stabilityWindow, .event .manualForceReturnRequested, .event .wifiProbeFailed,
      .event .wifiProbeSucceeded]

theorem answered_isSome : (machine.exec start answeredRequestRun).isSome = true := by decide +kernel

/-- 静けさの検知が復帰を起こし、普通の失敗を挟まない成功の並びの中で `StabilityWindow` が満了している。 -/
theorem returns_damped_answeredRequest :
    .performRebindToWifi ∈
      (machine.entry ((machine.exec start answeredRequestRun).get answered_isSome).2.machine
        (.event .trafficQuietDetected)).response.actions ∧
    Damped OrdinaryFailure WindowExpired ((machine.exec start answeredRequestRun).get answered_isSome).1
      (machine.entry ((machine.exec start answeredRequestRun).get answered_isSome).2.machine
        (.event .trafficQuietDetected)) := by
  have hret : .performRebindToWifi ∈
      (machine.entry ((machine.exec start answeredRequestRun).get answered_isSome).2.machine
        (.event .trafficQuietDetected)).response.actions := by
    decide +kernel
  have hkept : ¬ FailsAfterExpiry ((machine.exec start answeredRequestRun).get answered_isSome).1 := by
    unfold FailsAfterExpiry OrdinaryFailure
    decide +kernel
  have hreach := (reaches_get answered_isSome).append
    (.single (.intro ((machine.exec start answeredRequestRun).get answered_isSome).2 (.event .trafficQuietDetected) trivial))
  rcases (returns_damped hreach).2.1 _ _ [] rfl hret with ⟨hinput, -⟩ | ⟨-, hwindow⟩
  · cases hinput
  · exact ⟨hret, hwindow hkept⟩

/-- 文書どおりのヒステリシスは、どちらの実行でも破れる。 -/
theorem not_hysteresis :
    (∃ es c, RebindManager.Reaches es c ∧
      es.map (·.input) = answeredRequestRun ++ [.event .trafficQuietDetected] ∧ ¬ Hysteresis es c.machine) ∧
    ∃ es c, RebindManager.Reaches es c ∧
      es.map (·.input) = staleWindowRun ++ [.event .trafficQuietDetected] ∧ ¬ Hysteresis es c.machine :=
  ⟨not_hysteresis_of_exec (r := (machine.exec start answeredRequestRun).get (by decide +kernel))
      (Option.some_get _).symm (by decide +kernel) (by decide +kernel),
    not_hysteresis_of_exec (r := (machine.exec start staleWindowRun).get (by decide +kernel))
      (Option.some_get _).symm (by decide +kernel) (by decide +kernel)⟩

/-! ## セルラーからの復帰の探索 -/

/-- セルラー側にいる間は、疎通確認を再開するタイマーが必ず動いていて、満了するたびに確認を始めて動き直す。
WiFi 側では、どのタイマーも動いていない。 -/
theorem probes_until_return (h : RebindManager.Reaches es c) :
    (c.machine.phase ≠ .onWifi → c.armed .probeCadence = true ∨ c.armed .backoff = true) ∧
    (c.machine.phase = .waitingQuietToReturn → c.armed .quietWait = true) ∧
    (∀ x c', machine.Steps c x c' → x.input = .timeout .probeCadence ∨ x.input = .timeout .backoff →
      c.machine.phase ≠ .onWifi → .startWifiProbe ∈ x.response.actions ∧ c'.armed .probeCadence = true) ∧
    (c.machine.phase = .onWifi → ∀ id, c.armed id = false) := by
  have hc := Rearmed.of_reaches h
  refine ⟨hc.probing, hc.waiting, ?_, hc.onWifi⟩
  intro x c' hstep hx hp
  cases hstep with
  | intro i hi =>
      rcases hx with hx | hx
      · obtain rfl : i = .timeout .probeCadence := hx
        constructor <;> simp [entry, next, react, machine, RebindManager.onTimeout, hp]
      · obtain rfl : i = .timeout .backoff := hx
        constructor <;> simp [entry, next, react, machine, RebindManager.onTimeout, hp]

theorem probes_until_return_answeredRequest :
    ((machine.exec start answeredRequestRun).get answered_isSome).2.armed .quietWait = true := by
  have hwait := (probes_until_return (reaches_get answered_isSome)).2.1
  exact hwait (by decide +kernel)

end IsekaiTerminal.Rebind
