import IsekaiTerminal.Reconnect.State

/-!
# reducer の 1 回の適用

適用が edge、ユーザーの切断、ループのそれぞれに何をしうるかを一度だけ数え上げる。
-/

namespace IsekaiTerminal.Reconnect

open Protocol Lib

@[simp] theorem edges_nil : edges [] = [] := rfl

@[simp] theorem edges_cons (c : ReconnectEffect) (cs : List ReconnectEffect) :
    edges (c :: cs) = c.edge?.toList ++ edges cs := by
  cases h : c.edge? <;> simp [edges, h]

@[simp] theorem edges_append (cs cs' : List ReconnectEffect) : edges (cs ++ cs') = edges cs ++ edges cs' :=
  List.filterMap_append

namespace ReconnectState

variable {s : ReconnectState} {phase : ConnPhase} {policy : ReconnectPolicy} {epoch : UInt64}

/-! ## edge と `phase` -/

theorem closeEdge_fst (s : ReconnectState) : s.closeEdge.1 = { s with edgeOpen := none } := by
  unfold closeEdge
  split
  · rfl
  · rename_i h
    rw [← h]

theorem closeEdge_snd (s : ReconnectState) : s.closeEdge.2 = s.edgeOpen.toList.map .edgeLost := by
  unfold closeEdge
  split <;> rename_i h <;> rw [h] <;> rfl

theorem setPhase_connected (s : ReconnectState) :
    s.setPhase .connected = ({ s with phase := .connected }, []) := rfl

theorem setPhase_of_ne (s : ReconnectState) (h : phase ≠ .connected) :
    s.setPhase phase = ({ s with phase := phase, edgeOpen := none }, s.edgeOpen.toList.map .edgeLost) := by
  rw [setPhase, if_pos h, closeEdge_fst, closeEdge_snd]

@[simp] theorem setPhase_idle (s : ReconnectState) :
    s.setPhase .idle = ({ s with phase := .idle, edgeOpen := none }, s.edgeOpen.toList.map .edgeLost) :=
  setPhase_of_ne s (by simp)

@[simp] theorem setPhase_connecting (s : ReconnectState) :
    s.setPhase .connecting =
      ({ s with phase := .connecting, edgeOpen := none }, s.edgeOpen.toList.map .edgeLost) :=
  setPhase_of_ne s (by simp)

@[simp] theorem edges_map_edgeLost (gs : List Nat) : edges (gs.map .edgeLost) = gs.map .lost := by
  simp [edges, List.filterMap_map, Function.comp_def, ReconnectEffect.edge?]

/-- edge のほかは、ループを止めて Connected へ移るだけである。 -/
theorem onAttemptConnected_fst (s : ReconnectState) (generation : Nat) :
    (s.onAttemptConnected generation).1 = { s.stopLoop with
      phase := .connected
      edgeOpen := (s.onAttemptConnected generation).1.edgeOpen
      lastEstablished := (s.onAttemptConnected generation).1.lastEstablished } := by
  simp only [onAttemptConnected, setPhase_connected, stopLoop]
  split <;> split <;> simp [closeEdge_fst]

/-! ## 切断 -/

/-- 切断の後の状態のうち、ループに依らない部分。 -/
def disconnected (s : ReconnectState) : ReconnectState :=
  { s with phase := .idle, edgeOpen := none, userInitiatedDisconnect := false, retryAttemptInFlight := false }

/-- 動作中のループがあればそれに任せ、無ければ、予期しない切断のときだけ新しいループを起動する。 -/
inductive Disconnects (s : ReconnectState) (kind : DisconnectKind) :
    ReconnectState × List ReconnectEffect → Prop
  | loops {tail} (hl : s.reconnectLoopActive = true) (ht : tail = [] ∨ tail = [.wakeReconnectLoop]) :
      Disconnects s kind (s.disconnected, .invalidatePathObserver :: s.edgeOpen.toList.map .edgeLost ++ tail)
  | starts {attempt} (hl : s.reconnectLoopActive = false) (hp : s.phase = .connected)
      (hu : s.userInitiatedDisconnect = false) (hk : kind ≠ .gracefulRemoteExit)
      (ha : s.lastAttempt = some attempt) :
      Disconnects s kind
        ({ s.disconnected with
            pendingWake := false
            reconnectLoopActive := true
            reconnectEpoch := s.reconnectEpoch + 1
            loopClock := none },
          .invalidatePathObserver :: s.edgeOpen.toList.map .edgeLost ++
            [.startReconnectLoop attempt (s.reconnectEpoch + 1)])
  | ends {hint} (hl : s.reconnectLoopActive = false)
      (hn : s.userInitiatedDisconnect = true ∨ ¬ (s.phase = .connected ∧ kind ≠ .gracefulRemoteExit ∧
        s.lastAttempt.isSome)) :
      Disconnects s kind
        ({ s.disconnected with pendingWake := false, backgroundState := .foreground },
          .invalidatePathObserver :: s.edgeOpen.toList.map .edgeLost ++ [.publishDisconnected hint])

theorem onAttemptDisconnected_cases (s : ReconnectState) (kind : DisconnectKind) (targetsLocalNetwork : Bool) :
    Disconnects s kind (s.onAttemptDisconnected kind targetsLocalNetwork) := by
  simp only [onAttemptDisconnected, setPhase_idle, decide_eq_true_eq]
  by_cases hl : s.reconnectLoopActive = true
  · rw [if_pos hl]
    refine .loops hl ?_
    split <;> simp
  rw [if_neg hl]
  rw [Bool.not_eq_true] at hl
  by_cases hc : s.phase = .connected ∧ s.userInitiatedDisconnect = false ∧ kind ≠ .gracefulRemoteExit
  · rw [if_pos hc]
    obtain ⟨hp, hu, hk⟩ := hc
    split
    · rename_i attempt ha
      exact .starts hl hp hu hk ha
    · rename_i ha
      exact .ends hl (Or.inr (by simp [ha]))
  · rw [if_neg hc]
    refine .ends hl ?_
    cases hu : s.userInitiatedDisconnect with
    | true => exact Or.inl rfl
    | false => exact Or.inr fun h => hc ⟨h.1, hu, h.2.1⟩

/-! ## ループの wake と tick -/

/-- wake は会計に触れず、試行中でなければ 1 回試み、試行中なら覚えておく。 -/
inductive Wakes (s : ReconnectState) (epoch : UInt64) (policy : ReconnectPolicy) (clock : LoopClock) :
    ReconnectState × List ReconnectEffect → Prop
  | attempts (hf : s.retryAttemptInFlight = false) :
      Wakes s epoch policy clock
        ({ s with
            retryAttemptInFlight := true
            pendingWake := false
            loopClock := some { clock with armed := policy } },
          [.loopWokeEarly epoch, .startAttempt epoch .networkWake,
            .armLoopTimer epoch policy.tick clock.elapsed.asSecs])
  | pends (hf : s.retryAttemptInFlight = true) :
      Wakes s epoch policy clock
        ({ s with pendingWake := true, loopClock := some { clock with armed := policy } },
          [.loopWokeEarly epoch, .pendingWakeRecorded epoch,
            .armLoopTimer epoch policy.tick clock.elapsed.asSecs])

/-- 満了したタイマーを数え、時間が尽きれば諦め、試みる時なら 1 回試みる。 -/
inductive Ticks (s : ReconnectState) (epoch : UInt64) (policy : ReconnectPolicy) (clock : LoopClock) :
    ReconnectState × List ReconnectEffect → Prop
  | timesOut (ht : clock.armed.timeout ≤ clock.tick.elapsed) :
      Ticks s epoch policy clock
        ({ s.stopLoop with phase := .idle, edgeOpen := none },
          .loopTicked epoch clock.tick.tickCount clock.tick.elapsed.asSecs ::
            (s.edgeOpen.toList.map .edgeLost ++
              [.abortInFlightAttempt, .publishReconnectTimedOut clock.armed.timeoutSecs]))
  | attempts {source} (ht : ¬ clock.armed.timeout ≤ clock.tick.elapsed)
      (hf : s.retryAttemptInFlight = false) :
      Ticks s epoch policy clock
        ({ s with
            retryAttemptInFlight := true
            pendingWake := false
            loopClock := some { clock.tick with armed := policy } },
          [.loopTicked epoch clock.tick.tickCount clock.tick.elapsed.asSecs,
            .publishReconnecting (clock.tick.elapsed.asSecs % 2 ^ 32) clock.armed.timeoutSecs,
            .startAttempt epoch source, .armLoopTimer epoch policy.tick clock.tick.elapsed.asSecs])
  | waits (ht : ¬ clock.armed.timeout ≤ clock.tick.elapsed)
      (hf : s.retryAttemptInFlight = true ∨ s.pendingWake = false) :
      Ticks s epoch policy clock
        ({ s with loopClock := some { clock.tick with armed := policy } },
          [.loopTicked epoch clock.tick.tickCount clock.tick.elapsed.asSecs,
            .publishReconnecting (clock.tick.elapsed.asSecs % 2 ^ 32) clock.armed.timeoutSecs,
            .armLoopTimer epoch policy.tick clock.tick.elapsed.asSecs])

theorem loopIsLive_iff : s.loopIsLive epoch = true ↔
    epoch = s.reconnectEpoch ∧ s.reconnectLoopActive = true ∧ ∃ clock, s.loopClock = some clock := by
  simp [loopIsLive, and_assoc, Option.isSome_iff_exists]

theorem onReconnectWake_cases {clock : LoopClock} (hl : s.loopIsLive epoch = true)
    (hc : s.loopClock = some clock) (policy : ReconnectPolicy) :
    Wakes s epoch policy clock (s.onReconnectWake epoch policy) := by
  simp only [onReconnectWake, hl, Bool.true_eq_false, if_false]
  by_cases hf : s.retryAttemptInFlight = false
  · rw [if_pos hf]
    simp only [armLoopTimer, hc]
    exact .attempts hf
  · rw [if_neg hf]
    simp only [armLoopTimer, hc]
    exact .pends (by simpa using hf)

theorem onReconnectTick_cases {clock : LoopClock} (hl : s.loopIsLive epoch = true)
    (hc : s.loopClock = some clock) (policy : ReconnectPolicy) :
    Ticks s epoch policy clock (s.onReconnectTick epoch policy) := by
  simp only [onReconnectTick, hl, hc, Bool.true_eq_false, if_false]
  by_cases ht : clock.armed.timeout ≤ clock.tick.elapsed
  · rw [if_pos ht]
    simp only [abortLoopAttempt, setPhase_idle, List.cons_append, List.nil_append, List.append_assoc]
    exact .timesOut ht
  rw [if_neg ht]
  split
  · rename_i h
    exact .attempts ht h.1
  · rename_i h
    refine .waits ht ?_
    cases hf : s.retryAttemptInFlight with
    | true => exact Or.inl rfl
    | false => simp [hf] at h; exact Or.inr h.2

/-- 動作中のループのものでない wake と tick は、何もしない。 -/
theorem onReconnectWake_step (s : ReconnectState) (epoch : UInt64) (policy : ReconnectPolicy) :
    s.onReconnectWake epoch policy = (s, []) ∨
      ∃ clock, s.loopIsLive epoch = true ∧ s.loopClock = some clock ∧
        Wakes s epoch policy clock (s.onReconnectWake epoch policy) := by
  cases hl : s.loopIsLive epoch with
  | false => exact Or.inl (by simp [onReconnectWake, hl])
  | true =>
      obtain ⟨-, -, clock, hc⟩ := loopIsLive_iff.mp hl
      exact Or.inr ⟨clock, rfl, hc, onReconnectWake_cases hl hc policy⟩

theorem onReconnectTick_step (s : ReconnectState) (epoch : UInt64) (policy : ReconnectPolicy) :
    s.onReconnectTick epoch policy = (s, []) ∨
      ∃ clock, s.loopIsLive epoch = true ∧ s.loopClock = some clock ∧
        Ticks s epoch policy clock (s.onReconnectTick epoch policy) := by
  cases hl : s.loopIsLive epoch with
  | false => exact Or.inl (by simp [onReconnectTick, hl])
  | true =>
      obtain ⟨-, -, clock, hc⟩ := loopIsLive_iff.mp hl
      exact Or.inr ⟨clock, rfl, hc, onReconnectTick_cases hl hc policy⟩

end ReconnectState

/-!
## 接続の edge の列
-/

section

open ReconnectState

/-! ## ユーザーの切断の印と履歴の対応 -/

/-- `user_initiated_disconnect` の印は、まだ通知を受けていないユーザー切断である。 -/
structure TracksDisconnect (s : ReconnectState) (log : DisconnectLog) : Prop where
  pending : s.userInitiatedDisconnect = log.pending
  connected : s.phase = .connected ↔ log.connection.isSome = true
  loopStopped : s.phase = .connected → s.reconnectLoopActive = false
  flag : ∀ c, log.connection = some c → log.pending = (c.stale || c.userDisconnected)

section

variable {s s' : ReconnectState} {log : DisconnectLog} {r : ReconnectState × List ReconnectEffect}

theorem TracksDisconnect.start : TracksDisconnect .start .start :=
  ⟨rfl, by simp [ReconnectState.start, DisconnectLog.start], by simp [ReconnectState.start],
    by simp [DisconnectLog.start]⟩

theorem TracksDisconnect.not_connected (h : TracksDisconnect s log) (hl : s.reconnectLoopActive = true) :
    s.phase ≠ .connected := by
  intro hp
  rw [h.loopStopped hp] at hl
  cases hl

theorem TracksDisconnect.connection_none (h : TracksDisconnect s log) (hp : s.phase ≠ .connected) :
    log.connection = none := by
  rw [Ne, h.connected, Bool.not_eq_true, Option.isSome_eq_false_iff] at hp
  exact Option.isNone_iff_eq_none.mp hp

theorem TracksDisconnect.leave {pending : Bool} (hflag : s'.userInitiatedDisconnect = pending)
    (hp : s'.phase ≠ .connected) : TracksDisconnect s' ⟨pending, none⟩ :=
  ⟨hflag, by simp [hp], fun h => absurd h hp, by simp⟩

theorem TracksDisconnect.congr (h : TracksDisconnect s log)
    (hflag : s'.userInitiatedDisconnect = s.userInitiatedDisconnect)
    (hphase : s'.phase = s.phase ∨ (s.phase ≠ .connected ∧ s'.phase ≠ .connected))
    (hactive : s'.reconnectLoopActive = true → s.reconnectLoopActive = true) : TracksDisconnect s' log := by
  have hiff : s'.phase = .connected ↔ s.phase = .connected := by
    rcases hphase with hp | ⟨hp, hp'⟩
    · rw [hp]
    · exact ⟨fun h => absurd h hp', fun h => absurd h hp⟩
  refine ⟨hflag.trans h.pending, hiff.trans h.connected, ?_, h.flag⟩
  intro hp
  rw [← Bool.not_eq_true]
  intro ha
  exact h.not_connected (hactive ha) (hiff.mp hp)

/-- 局面の移り先が Connected でないなら、移る前も Connected でなければ接続の記録は変わらない。 -/
theorem TracksDisconnect.setPhase (h : TracksDisconnect s log) {phase : ConnPhase} (hp : s.phase ≠ .connected)
    (hp' : phase ≠ .connected) : TracksDisconnect (s.setPhase phase).1 log := by
  rw [setPhase_of_ne s hp']
  exact h.congr rfl (Or.inr ⟨hp, hp'⟩) id

theorem TracksDisconnect.attemptConnected (h : TracksDisconnect s log) (generation : Nat) :
    TracksDisconnect (s.onAttemptConnected generation).1
      (log.next (.attemptConnected generation) (s.onAttemptConnected generation).2) := by
  have hflag : (s.onAttemptConnected generation).1.userInitiatedDisconnect = log.pending := by
    rw [onAttemptConnected_fst]
    exact h.pending
  have hphase : (s.onAttemptConnected generation).1.phase = .connected := by
    rw [onAttemptConnected_fst]
  have hactive : (s.onAttemptConnected generation).1.reconnectLoopActive = false := by
    rw [onAttemptConnected_fst]
    rfl
  simp only [DisconnectLog.next]
  split
  · rename_i hg
    refine ⟨hflag, iff_of_true hphase ?_, fun _ => hactive, h.flag⟩
    cases hc : log.connection with
    | none => simp [hc] at hg
    | some c => rfl
  · refine ⟨hflag, iff_of_true hphase rfl, fun _ => hactive, ?_⟩
    rintro c ⟨⟩
    simp

theorem TracksDisconnect.manualConnectStarted (h : TracksDisconnect s log) (attempt : AttemptRef) :
    TracksDisconnect (s.onManualConnectStarted attempt).1
      (log.next (.manualConnectStarted attempt) (s.onManualConnectStarted attempt).2) := by
  by_cases hp : s.phase = .connecting
  · simpa [onManualConnectStarted, hp, DisconnectLog.next] using h
  · have hne : s.edgeOpen.toList.map ReconnectEffect.edgeLost ++ [.invalidatePathObserver, .publishConnecting] ≠
        [.manualConnectRejected] := by
      cases s.edgeOpen <;> simp
    simp only [onManualConnectStarted, hp, if_false, setPhase_connecting, DisconnectLog.next, if_neg hne]
    exact .leave rfl (by simp [stopLoop])

theorem TracksDisconnect.cancelReconnect (h : TracksDisconnect s log) :
    TracksDisconnect (s.apply .cancelReconnect).1 log := by
  by_cases hl : s.reconnectLoopActive = true
  · simp only [apply, hl, if_true, abortLoopAttempt, setPhase_idle]
    exact h.congr rfl (Or.inr ⟨h.not_connected hl, by simp⟩) (by simp [stopLoop])
  · simp only [apply, hl]
    exact h.congr rfl (Or.inl rfl) (by simp [stopLoop])

theorem TracksDisconnect.userDisconnect (h : TracksDisconnect s log) :
    TracksDisconnect (s.apply .userDisconnect).1 (log.next .userDisconnect (s.apply .userDisconnect).2) := by
  by_cases hl : s.reconnectLoopActive = true
  · have hc := h.connection_none (h.not_connected hl)
    simp only [apply, hl, if_true, abortLoopAttempt, setPhase_idle, DisconnectLog.next, hc, Option.map_none]
    exact .leave (by simp) (by simp)
  · simp only [apply, if_neg hl, DisconnectLog.next]
    refine ⟨by simp, ?_, h.loopStopped, ?_⟩
    · simp [h.connected]
    · intro c hc
      obtain ⟨c₀, -, rfl⟩ := Option.map_eq_some_iff.mp hc
      simp

theorem TracksDisconnect.apply (h : TracksDisconnect s log) (e : ReconnectEvent) :
    TracksDisconnect (s.apply e).1 (log.next e (s.apply e).2) := by
  cases e with
  | attemptConnected generation => exact h.attemptConnected generation
  | attemptDisconnected generation kind targetsLocalNetwork =>
      have hd := onAttemptDisconnected_cases s kind targetsLocalNetwork
      simp only [ReconnectState.apply, DisconnectLog.next]
      generalize s.onAttemptDisconnected kind targetsLocalNetwork = r at hd
      cases hd with
      | loops | starts | ends => exact .leave rfl (by simp [disconnected])
  | sessionCreated generation =>
      simp only [ReconnectState.apply, DisconnectLog.next]
      split
      · rw [closeEdge_fst]
        exact h.congr rfl (Or.inl rfl) id
      · exact h
  | manualConnectStarted attempt => exact h.manualConnectStarted attempt
  | reconnectSessionStarting =>
      simp only [ReconnectState.apply, setPhase_connecting, DisconnectLog.next]
      exact .leave h.pending (by simp)
  | foregroundReconnectFailedSync =>
      simp only [ReconnectState.apply, setPhase_idle, DisconnectLog.next]
      exact .leave h.pending (by simp)
  | loopStarted epoch policy =>
      simp only [ReconnectState.apply, onLoopStarted, DisconnectLog.next]
      split
      · exact h
      · exact h.congr rfl (Or.inl rfl) id
  | reconnectWake epoch policy =>
      simp only [ReconnectState.apply, DisconnectLog.next]
      rcases onReconnectWake_step s epoch policy with hr | ⟨clock, -, -, hw⟩
      · rw [hr]
        exact h
      · generalize s.onReconnectWake epoch policy = r at hw
        cases hw with
        | attempts | pends => exact h.congr rfl (Or.inl rfl) id
  | reconnectTick epoch policy =>
      simp only [ReconnectState.apply, DisconnectLog.next]
      rcases onReconnectTick_step s epoch policy with hr | ⟨clock, hl, -, ht⟩
      · rw [hr]
        exact h
      · obtain ⟨-, hactive, -⟩ := loopIsLive_iff.mp hl
        generalize s.onReconnectTick epoch policy = r at ht
        cases ht with
        | timesOut => exact h.congr rfl (Or.inr ⟨h.not_connected hactive, by simp⟩) (by simp [stopLoop])
        | attempts | waits => exact h.congr rfl (Or.inl rfl) id
  | attemptFailedSync epoch =>
      simp only [ReconnectState.apply, DisconnectLog.next]
      split
      · have h' : TracksDisconnect { s with retryAttemptInFlight := false } log := h.congr rfl (Or.inl rfl) id
        split
        · rename_i hp
          exact h'.setPhase (by simp [hp]) (by simp)
        · exact h'
      · exact h
  | cancelReconnect => exact h.cancelReconnect
  | userDisconnect => exact h.userDisconnect
  | manualConnectFailedSync =>
      simp only [ReconnectState.apply, DisconnectLog.next]
      split
      · rename_i hp
        exact h.setPhase (by simp [hp]) (by simp)
      · exact h
  | loopStartAborted epoch =>
      simp only [ReconnectState.apply, DisconnectLog.next]
      split
      · exact h
      · exact h.congr rfl (Or.inl rfl) (by simp)

theorem TracksDisconnect.after (es : List ReconnectEvent) : TracksDisconnect (after es) (disconnectLog es) :=
  Reducer.watch_invariant (fun _ _ e h => h.apply e) TracksDisconnect.start es

/-! ## ループの起動 -/

/-- 予期しない切断でループが起動するのは、印が下りているときに限る。 -/
theorem startReconnectLoop_mem_iff {attempt : AttemptRef} {e : ReconnectEvent} (h : Interrupts s e attempt) :
    .startReconnectLoop attempt (s.reconnectEpoch + 1) ∈ (s.apply e).2 ↔ s.userInitiatedDisconnect = false := by
  obtain ⟨hp, hl, ha, generation, kind, targetsLocalNetwork, rfl, hk⟩ := h
  have hd := onAttemptDisconnected_cases s kind targetsLocalNetwork
  simp only [ReconnectState.apply]
  generalize s.onAttemptDisconnected kind targetsLocalNetwork = r at hd
  cases hd with
  | loops hl' => rw [hl] at hl'; cases hl'
  | starts hl' hp' hu hk' ha' =>
      obtain rfl := Option.some.inj (ha.symm.trans ha')
      exact iff_of_true (by simp) hu
  | ends hl' hn =>
      refine iff_of_false (by simp) ?_
      rcases hn with hn | hn
      · simp [hn]
      · exact absurd ⟨hp, hk, by simp [ha]⟩ hn

end

/-- 1 回の適用は、edge に触れないか、開いた edge を閉じるか、新しい世代の edge を開く。 -/
inductive EdgeStep (s : ReconnectState) (r : ReconnectState × List ReconnectEffect) : Prop
  | kept (hopen : r.1.edgeOpen = s.edgeOpen) (hlast : r.1.lastEstablished = s.lastEstablished)
      (hphase : r.1.phase = s.phase ∨ r.1.phase = .connected) (hedges : edges r.2 = [])
  | closed (hopen : r.1.edgeOpen = none) (hlast : r.1.lastEstablished = s.lastEstablished)
      (hedges : edges r.2 = s.edgeOpen.toList.map .lost)
  | opened {g} (hopen : r.1.edgeOpen = some g) (hlast : r.1.lastEstablished = some g)
      (hlt : ∀ l, s.lastEstablished = some l → l < g) (hphase : r.1.phase = .connected)
      (hedges : edges r.2 = s.edgeOpen.toList.map .lost ++ [.established g])

section

variable {s : ReconnectState}

theorem onAttemptConnected_edge (s : ReconnectState) (g : Nat) : EdgeStep s (s.onAttemptConnected g) := by
  have hlt (h : ¬ s.lastEstablished.any (g ≤ ·) = true) (l : Nat) (hl : s.lastEstablished = some l) : l < g := by
    simpa [hl] using h
  cases ho : s.edgeOpen with
  | none =>
      by_cases h : s.lastEstablished.any (g ≤ ·) = true
      · refine .kept ?_ ?_ ?_ ?_ <;>
          simp [onAttemptConnected, setPhase_connected, stopLoop, ho, h, ReconnectEffect.edge?]
      · refine .opened (g := g) ?_ ?_ (hlt h) ?_ ?_ <;>
          simp [onAttemptConnected, setPhase_connected, stopLoop, ho, h, ReconnectEffect.edge?]
  | some g' =>
      by_cases hg : g' = g
      · refine .kept ?_ ?_ ?_ ?_ <;>
          simp [onAttemptConnected, setPhase_connected, stopLoop, ho, hg, ReconnectEffect.edge?]
      · by_cases h : s.lastEstablished.any (g ≤ ·) = true
        · refine .closed ?_ ?_ ?_ <;>
            simp [onAttemptConnected, setPhase_connected, stopLoop, closeEdge, ho, hg, h, ReconnectEffect.edge?]
        · refine .opened (g := g) ?_ ?_ (hlt h) ?_ ?_ <;>
            simp [onAttemptConnected, setPhase_connected, stopLoop, closeEdge, ho, hg, h, ReconnectEffect.edge?]

theorem EdgeStep.refl (s : ReconnectState) : EdgeStep s (s, []) := .kept rfl rfl (Or.inl rfl) rfl

theorem setPhase_edge (s : ReconnectState) {phase : ConnPhase} (h : phase ≠ .connected) :
    EdgeStep s (s.setPhase phase) := by
  rw [setPhase_of_ne s h]
  exact .closed rfl rfl (by simp)

theorem ReconnectState.Disconnects.edge {kind : DisconnectKind} {r : ReconnectState × List ReconnectEffect}
    (h : Disconnects s kind r) : EdgeStep s r := by
  cases h with
  | loops hl ht =>
      refine .closed rfl rfl ?_
      rcases ht with rfl | rfl <;> simp [ReconnectEffect.edge?]
  | starts | ends => exact .closed rfl rfl (by simp [ReconnectEffect.edge?])

theorem ReconnectState.Wakes.edge {epoch : UInt64} {policy : ReconnectPolicy} {clock : LoopClock}
    {r : ReconnectState × List ReconnectEffect} (h : Wakes s epoch policy clock r) : EdgeStep s r := by
  cases h with
  | attempts | pends => exact .kept rfl rfl (Or.inl rfl) rfl

theorem ReconnectState.Ticks.edge {epoch : UInt64} {policy : ReconnectPolicy} {clock : LoopClock}
    {r : ReconnectState × List ReconnectEffect} (h : Ticks s epoch policy clock r) : EdgeStep s r := by
  cases h with
  | timesOut => exact .closed rfl rfl (by simp [ReconnectEffect.edge?])
  | attempts | waits => exact .kept rfl rfl (Or.inl rfl) rfl

theorem apply_edge (s : ReconnectState) (e : ReconnectEvent) : EdgeStep s (s.apply e) := by
  cases e with
  | attemptConnected g => exact onAttemptConnected_edge s g
  | attemptDisconnected g kind b => exact (onAttemptDisconnected_cases s kind b).edge
  | sessionCreated g =>
      simp only [apply]
      split
      · exact .closed (by simp [closeEdge_fst]) (by simp [closeEdge_fst]) (by simp [closeEdge_snd])
      · exact .refl s
  | manualConnectStarted attempt =>
      simp only [apply, onManualConnectStarted]
      split
      · exact .kept rfl rfl (Or.inl rfl) rfl
      · exact .closed (by simp [stopLoop]) (by simp [stopLoop]) (by simp [ReconnectEffect.edge?])
  | reconnectSessionStarting => exact setPhase_edge s (by simp)
  | foregroundReconnectFailedSync => exact .closed (by simp [apply]) (by simp [apply]) (by simp [apply, ReconnectEffect.edge?])
  | loopStarted epoch policy =>
      simp only [apply, onLoopStarted]
      split
      · exact .refl s
      · exact .kept rfl rfl (Or.inl rfl) rfl
  | reconnectWake epoch policy =>
      simp only [apply]
      rcases onReconnectWake_step s epoch policy with hr | ⟨clock, -, -, hw⟩
      · rw [hr]
        exact .refl s
      · exact hw.edge
  | reconnectTick epoch policy =>
      simp only [apply]
      rcases onReconnectTick_step s epoch policy with hr | ⟨clock, -, -, ht⟩
      · rw [hr]
        exact .refl s
      · exact ht.edge
  | attemptFailedSync epoch =>
      simp only [apply]
      split
      · split
        · exact .closed (by simp) (by simp) (by simp)
        · exact .kept rfl rfl (Or.inl rfl) rfl
      · exact .refl s
  | cancelReconnect =>
      simp only [apply]
      split
      · exact .closed (by simp [abortLoopAttempt]) (by simp [abortLoopAttempt, stopLoop])
          (by simp [abortLoopAttempt, stopLoop, ReconnectEffect.edge?])
      · exact .kept rfl rfl (Or.inl rfl) rfl
  | userDisconnect =>
      simp only [apply]
      split
      · exact .closed (by simp [abortLoopAttempt]) (by simp [abortLoopAttempt, stopLoop])
          (by simp [abortLoopAttempt, stopLoop, ReconnectEffect.edge?])
      · exact .kept rfl rfl (Or.inl rfl) rfl
  | manualConnectFailedSync =>
      simp only [apply]
      split
      · exact setPhase_edge s (by simp)
      · exact .refl s
  | loopStartAborted epoch =>
      simp only [apply]
      split
      · exact .refl s
      · exact .kept rfl rfl (Or.inl rfl) rfl

/-! ## 実行 -/

/-- 閉じた edge の世代の列 `closed` が、いまの状態までの edge の列を説明する。 -/
structure EdgeHistory (closed : List Nat) (s : ReconnectState) (trace : List Edge) : Prop where
  trace : trace = edgesOf closed s.edgeOpen
  increasing : (closed ++ s.edgeOpen.toList).Pairwise (· < ·)
  bounded : ∀ g ∈ closed ++ s.edgeOpen.toList, ∃ l, s.lastEstablished = some l ∧ g ≤ l
  connected : s.edgeOpen ≠ none → s.phase = .connected

theorem edgesOf_closed (closed : List Nat) (edgeOpen : Option Nat) :
    edgesOf closed edgeOpen ++ edgeOpen.toList.map .lost = edgesOf (closed ++ edgeOpen.toList) none := by
  cases edgeOpen <;> simp [edgesOf]

theorem EdgeHistory.step {closed : List Nat} {trace : List Edge} (h : EdgeHistory closed s trace)
    {r : ReconnectState × List ReconnectEffect} (hs : EdgeStep s r) :
    ∃ closed', EdgeHistory closed' r.1 (trace ++ edges r.2) := by
  cases hs with
  | kept hopen hlast hphase hedges =>
      refine ⟨closed, ?_, ?_, ?_, ?_⟩
      · rw [hedges, List.append_nil, hopen]; exact h.trace
      · rw [hopen]; exact h.increasing
      · rw [hopen, hlast]; exact h.bounded
      · intro ho
        rcases hphase with hp | hp
        · exact hp.trans (h.connected (hopen ▸ ho))
        · exact hp
  | closed hopen hlast hedges =>
      refine ⟨closed ++ s.edgeOpen.toList, ?_, ?_, ?_, fun ho => absurd hopen ho⟩
      · rw [hedges, h.trace, hopen, edgesOf_closed]
      · simpa [hopen] using h.increasing
      · simpa [hopen, hlast] using h.bounded
  | @opened g hopen hlast hlt hphase hedges =>
      have hle (g' : Nat) (hg : g' ∈ closed ++ s.edgeOpen.toList) : g' < g := by
        obtain ⟨l, hl, hle⟩ := h.bounded g' hg
        exact Nat.lt_of_le_of_lt hle (hlt l hl)
      refine ⟨closed ++ s.edgeOpen.toList, ?_, ?_, ?_, fun _ => hphase⟩
      · rw [hedges, ← List.append_assoc, h.trace, edgesOf_closed, hopen]
        simp [edgesOf]
      · rw [hopen]
        refine List.pairwise_append.mpr ⟨h.increasing, List.pairwise_singleton _ _, ?_⟩
        intro a ha b hb
        obtain rfl := List.mem_singleton.mp hb
        exact hle a ha
      · intro g' hg
        refine ⟨g, hlast, ?_⟩
        rw [hopen] at hg
        rcases List.mem_append.mp hg with hg | hg
        · exact (hle g' hg).le
        · exact (List.mem_singleton.mp hg).le

theorem edgeHistory (es : List ReconnectEvent) :
    ∃ closed, EdgeHistory closed (after es) (edges (effects es)) := by
  induction es using List.reverseRecOn with
  | nil => exact ⟨[], rfl, List.Pairwise.nil, by simp [ReconnectState.start], by simp [ReconnectState.start]⟩
  | append_singleton es e ih =>
      obtain ⟨closed, h⟩ := ih
      rw [after, effects, Reducer.run_concat, Reducer.outputs_concat, edges_append]
      exact h.step (apply_edge _ e)

end

end

end IsekaiTerminal.Reconnect
