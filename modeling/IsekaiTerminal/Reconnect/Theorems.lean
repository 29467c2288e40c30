import IsekaiTerminal.Reconnect.Lemmas.State
import IsekaiTerminal.Reconnect.Lemmas.Loop

/-!
# モバイルの自動再接続の性質
-/

namespace IsekaiTerminal.Reconnect

open Protocol Lib ReconnectState

variable (es : List ReconnectEvent)

/-! ## 予期しない切断 -/

/-- 予期しない切断が必ずループを起動するのは、その接続が確立したとき、前のユーザー切断が残っていなかったときである。 -/
theorem autoReconnects_iff : AutoReconnects es ↔
    ∀ before e later attempt, es = before ++ e :: later → Interrupts (after before) e attempt →
      (disconnectLog before).userDisconnected = false → (disconnectLog before).stale = false := by
  have hflag (before : List ReconnectEvent) (hp : (after before).phase = .connected) :
      (after before).userInitiatedDisconnect =
        ((disconnectLog before).stale || (disconnectLog before).userDisconnected) := by
    have h := TracksDisconnect.after before
    obtain ⟨c, hc⟩ := Option.isSome_iff_exists.mp (h.connected.mp hp)
    rw [h.pending, h.flag c hc, DisconnectLog.stale, DisconnectLog.userDisconnected, hc]
    rfl
  constructor
  · intro h before e later attempt hes hi hu
    have hf := (startReconnectLoop_mem_iff hi).mp (h before e later attempt hes hi hu)
    rw [hflag before hi.1, hu, Bool.or_false] at hf
    exact hf
  · intro h before e later attempt hes hi hu
    rw [startReconnectLoop_mem_iff hi, hflag before hi.1, hu, h before e later attempt hes hi hu]
    rfl

/-- ユーザーが切断した後、その通知が届く前に復帰の再接続が始まると、次の接続の予期しない切断で再接続しない。 -/
theorem not_autoReconnects_foreground : ¬ AutoReconnects
    [.manualConnectStarted ⟨0⟩, .attemptConnected 1, .userDisconnect, .reconnectSessionStarting,
      .sessionCreated 2, .attemptConnected 2, .attemptDisconnected 2 .transportError false] := by
  intro h
  have hmem := h
    [.manualConnectStarted ⟨0⟩, .attemptConnected 1, .userDisconnect, .reconnectSessionStarting,
      .sessionCreated 2, .attemptConnected 2]
    (.attemptDisconnected 2 .transportError false) [] ⟨0⟩ rfl
    ⟨by decide, by decide, by decide, 2, .transportError, false, rfl, by decide⟩ (by decide)
  revert hmem
  decide

/-! ## 接続の edge -/

theorem count_edgesOf (closed : List Nat) (edgeOpen : Option Nat) (g : Nat) :
    (edgesOf closed edgeOpen).count (.established g) = (closed ++ edgeOpen.toList).count g := by
  have hclosed : (closed.flatMap fun g => [Edge.established g, .lost g]).count (.established g) =
      closed.count g := by
    induction closed with
    | nil => rfl
    | cons a closed ih => simp [List.count_cons, ih]
  cases edgeOpen <;> simp [edgesOf, List.count_append, hclosed, List.count_cons]

/-- edge は、世代の真に増える `Established` と、その世代の `Lost` とが交互に出たものである。edge が開いているのは
Connected の間だけで、Connected を離れる適用は、その適用の中で `Lost` を出す。 -/
theorem edges_alternate :
    (∃ closed, edges (effects es) = edgesOf closed (after es).edgeOpen ∧
      (closed ++ (after es).edgeOpen.toList).Pairwise (· < ·)) ∧
    (∀ g, (edges (effects es)).count (.established g) ≤ 1) ∧
    ((after es).edgeOpen ≠ none → (after es).phase = .connected) ∧
    (∀ e g, (after es).phase = .connected → (after es).edgeOpen = some g →
      ((after es).apply e).1.phase ≠ .connected → .edgeLost g ∈ ((after es).apply e).2) := by
  obtain ⟨closed, h⟩ := edgeHistory es
  refine ⟨⟨closed, h.trace, h.increasing⟩, ?_, h.connected, ?_⟩
  · intro g
    rw [h.trace, count_edgesOf]
    exact List.nodup_iff_count_le_one.mp (h.increasing.imp Nat.ne_of_lt) g
  · intro e g hp ho hp'
    cases apply_edge (after es) e with
    | kept hopen hlast hphase hedges =>
        rcases hphase with hphase | hphase
        · exact absurd (hphase.trans hp) hp'
        · exact absurd hphase hp'
    | closed hopen hlast hedges =>
        have hm : Edge.lost g ∈ edges ((after es).apply e).2 := by simp [hedges, ho]
        obtain ⟨c, hc, hedge⟩ := List.mem_filterMap.mp hm
        cases c <;> simp [ReconnectEffect.edge?] at hedge
        exact hedge ▸ hc
    | opened hopen hlast hlt hphase hedges => exact absurd hphase hp'

/-! ## 自動再接続ループ -/

/-- 動作中のループは、tick と wake のたびに次のタイマーを 1 つだけ設定するか、時間切れで終わる。試行は重ならず、
試行中に届いた wake は、その試行が終わった後の最初の tick か wake で試みる。時間切れになるのは、満了したタイマーの
長さの和が、満了したタイマーを設定した方針の `timeout` に達した tick である。 -/
theorem loop_law :
    (∀ policy, (after es).reconnectLoopActive = true → (after es).loopClock = none →
      ((after es).apply (.loopStarted (after es).reconnectEpoch policy)).2.countP ReconnectEffect.isArm = 1) ∧
    (∀ epoch e, (after es).loopIsLive epoch = true → e.Drives epoch →
      (((after es).apply e).2.countP ReconnectEffect.isArm = 1 ∧
          ((after es).apply e).2.any ReconnectEffect.isTimedOut = false) ∨
        (((after es).apply e).2.countP ReconnectEffect.isArm = 0 ∧
          ((after es).apply e).2.any ReconnectEffect.isTimedOut = true ∧
          ((after es).apply e).1.reconnectLoopActive = false)) ∧
    (∀ epoch policy, (after es).loopIsLive epoch = true →
      (after es).apply (.loopStarted epoch policy) = (after es, [])) ∧
    (∀ epoch e, epoch ≠ (after es).reconnectEpoch → e.Drives epoch ∨ e = .attemptFailedSync epoch →
      (after es).apply e = (after es, [])) ∧
    (∀ before e mid e' later epoch source epoch' source', es = before ++ e :: mid ++ e' :: later →
      .startAttempt epoch source ∈ ((after before).apply e).2 →
      .startAttempt epoch' source' ∈ ((after (before ++ e :: mid)).apply e').2 →
        ∃ f ∈ mid, f.EndsAttempt epoch) ∧
    (∀ before policy mid f later e epoch,
      es = before ++ .reconnectWake epoch policy :: mid ++ f :: later →
      LiveThroughout (after before) epoch (.reconnectWake epoch policy :: mid ++ f :: later) →
      (after before).retryAttemptInFlight = true → (∀ e ∈ mid, ¬ e.EndsAttempt epoch) → f.EndsAttempt epoch →
      (∀ e ∈ later, ¬ e.Drives epoch) → e.Drives epoch →
        (∃ source, .startAttempt epoch source ∈ ((after es).apply e).2) ∨
          ((after es).apply e).2.any ReconnectEffect.isTimedOut = true) ∧
    (∀ e, ((after es).apply e).2.any ReconnectEffect.isTimedOut = true ↔
      ∃ epoch policy armed, e = .reconnectTick epoch policy ∧ (after es).loopIsLive epoch = true ∧
        (loopLog es).armed = some armed ∧ armed.timeout ≤ (loopLog (es ++ [e])).elapsed) ∧
    (∀ e, ((after es).apply e).2.any ReconnectEffect.isTimedOut = true →
      .abortInFlightAttempt ∈ ((after es).apply e).2 ∧
        ((after es).apply e).1.reconnectLoopActive = false) := by
  refine ⟨?_, fun _ _ => apply_drives, ?_, ?_, ?_, ?_, ?_, fun _ => timesOut_aborts⟩
  · intro policy hl hc
    simp [apply, onLoopStarted, hl, hc, armLoopTimer, ReconnectEffect.isArm]
  · intro epoch policy hl
    obtain ⟨-, -, clock, hc⟩ := loopIsLive_iff.mp hl
    simp [apply, onLoopStarted, hc]
  · rintro epoch e hn (⟨policy, rfl | rfl⟩ | rfl)
    · simp [apply, onReconnectTick, loopIsLive, hn]
    · simp [apply, onReconnectWake, loopIsLive, hn]
    · simp [apply, hn]
  · intro before e mid e' later epoch source epoch' source' _ hm hm'
    by_contra hne
    obtain ⟨-, -, -, -, hl, hepoch, hf⟩ := (apply_loop (after before) e).starts_attempt hm
    obtain ⟨-, -, hl', hf', -⟩ := (apply_loop (after (before ++ e :: mid)) e').starts_attempt hm'
    rw [after, Reducer.run_append, Reducer.run_cons] at hl' hf'
    have hmid := run_attempting (s := ((after before).apply e).1) (fun _ => ⟨hepoch, hf⟩)
      fun f hfm hend => hne ⟨f, hfm, hend⟩
    rw [(hmid hl').2] at hf'
    cases hf'
  · rintro before policy mid f later e epoch rfl hlive hf hmid hend hlater he
    have := wake_leads_to_attempt hlive hf hmid hend hlater he
    rwa [← Reducer.run_append, ← List.append_assoc] at this
  · intro e
    rw [loopLog_concat]
    exact timesOut_iff (tracksClock_after es) e

/-- 動作中のループへの 2 回目の `LoopStarted` は、タイマーを設定しない。 -/
theorem not_loopStarted_arms : ¬ ∀ (es : List ReconnectEvent) (epoch : UInt64) (policy : ReconnectPolicy),
    (after es).loopIsLive epoch = true →
      ((after es).apply (.loopStarted epoch policy)).2.countP ReconnectEffect.isArm = 1 ∨
        ((after es).apply (.loopStarted epoch policy)).2.any ReconnectEffect.isTimedOut = true := by
  intro h
  have := h [.manualConnectStarted ⟨0⟩, .attemptConnected 1, .attemptDisconnected 1 .transportError false,
    .loopStarted 3 default] 3 default (by decide)
  revert this
  decide

end IsekaiTerminal.Reconnect
