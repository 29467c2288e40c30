import IsekaiTerminal.Resume.Lemmas.Trace

/-!
# cross-family への切り替え

切り替えは必ず 1 回の試行の時間を残し、どの実行も `RelayWatch` に受理される。
-/

namespace IsekaiTerminal.Resume

open Protocol Lib ResumePlanner

/-!
## 生きている token

`Recovering` の間に応答を受け付ける token は、最後に出た `Backoff` または `Dial` のものただ 1 つである。
-/

section

variable {nextDelay : Nat → UInt64 → Duration} {cfg : ResumePlannerConfig} {p : ResumePlanner} {ep : Episode}
  {c : ResumeCmd} {e : ResumeEvent}

/-! ## 最後に出たコマンド -/

def Awaiting.token : Awaiting → ResumeToken
  | .backoff token => token
  | .dial token _ => token

def ResumeCmd.awaiting? : ResumeCmd → Option Awaiting
  | .backoff token _ => some (.backoff token)
  | .dial token path => some (.dial token path)
  | _ => none

theorem ResumeCmd.token?_of_awaiting {a : Awaiting} (h : c.awaiting? = some a) : c.token? = some a.token := by
  cases c <;> cases h <;> rfl

theorem lastAwaited_concat (cmds : List ResumeCmd) (c : ResumeCmd) :
    lastAwaited (cmds ++ [c]) = if c.token?.isSome then some c else lastAwaited cmds := by
  cases h : c.token?.isSome <;> simp [lastAwaited, List.filter_append, h]

/-- コマンドの列から見て待っているなら、その待ちは最後の `Backoff` または `Dial` が始めたものである。 -/
theorem lastAwaited_of_status {cmds : List ResumeCmd} {a : Awaiting}
    (h : cmds.foldl Status.after .connected = .awaiting a) :
    ∃ c, lastAwaited cmds = some c ∧ c.awaiting? = some a := by
  induction cmds using List.reverseRecOn with
  | nil => cases h
  | append_singleton cmds c ih =>
      rw [List.foldl_append] at h
      rw [lastAwaited_concat]
      cases c with
      | backoff | dial =>
          obtain rfl := Status.awaiting.inj h
          exact ⟨_, rfl, rfl⟩
      | resumed | giveUp => cases h
      | showReconnecting | switchedToCrossFamily | reportAttemptFailure => exact ih h

theorem observed_status (nextDelay : Nat → UInt64 → Duration) (cfg : ResumePlannerConfig)
    (es : List ResumeEvent) :
    (observed nextDelay cfg es).status = (commands nextDelay cfg es).foldl Status.after .connected := by
  induction es using List.reverseRecOn with
  | nil => rfl
  | append_singleton es e ih =>
      rw [observed_concat, commands, Reducer.outputs_concat, List.foldl_append, ← ih]
      rfl

theorem lastAwaited_of_recovering {es : List ResumeEvent} (hp : (after nextDelay cfg es).phase = .recovering ep) :
    ∃ c, lastAwaited (commands nextDelay cfg es) = some c ∧ c.awaiting? = some ep.awaiting := by
  apply lastAwaited_of_status
  rw [← observed_status, (Tracks.after nextDelay cfg es).status, hp]
  rfl

/-! ## 応答 -/

theorem heeds_of_answers (hp : p.phase = .recovering ep) (hc : c.awaiting? = some ep.awaiting)
    (ha : e.Answers c) : p.Heeds e := by
  cases e <;> cases c <;> first | exact ha.elim | skip
  · obtain rfl : _ = _ := ha
    exact ⟨ep, hp, (Option.some.inj hc).symm⟩
  all_goals
    obtain rfl : _ = _ := ha
    exact ⟨ep, _, hp, (Option.some.inj hc).symm⟩

theorem answers_of_heeds {token : ResumeToken} (he : e.token? = some token) (h : p.Heeds e)
    (hp : p.phase = .recovering ep) (hc : c.awaiting? = some ep.awaiting) : e.Answers c ∧ token = ep.awaiting.token := by
  cases e with
  | disconnected | tick => cases he
  | backoffElapsed token' now networkChanged =>
      obtain ⟨ep', hp', ha⟩ := h
      obtain rfl := Option.some.inj he
      obtain rfl : ep' = ep := Phase.recovering.inj (hp'.symm.trans hp)
      rw [ha] at hc
      cases c <;> cases hc
      exact ⟨rfl, by rw [ha]; rfl⟩
  | attemptOk token' | attemptFailed token' =>
      obtain ⟨ep', path, hp', ha⟩ := h
      obtain rfl := Option.some.inj he
      obtain rfl : ep' = ep := Phase.recovering.inj (hp'.symm.trans hp)
      rw [ha] at hc
      cases c <;> cases hc
      exact ⟨rfl, by rw [ha]; rfl⟩

theorem heeds_iff_recovering {token : ResumeToken} (he : e.token? = some token) (h : p.Heeds e) :
    ∃ ep, p.phase = .recovering ep := by
  cases e with
  | disconnected | tick => cases he
  | backoffElapsed =>
      obtain ⟨ep, hp, -⟩ := h
      exact ⟨ep, hp⟩
  | attemptOk | attemptFailed =>
      obtain ⟨ep, -, hp, -⟩ := h
      exact ⟨ep, hp⟩

theorem apply_eq_of_not_heeds {token : ResumeToken} (he : e.token? = some token) (h : ¬ p.Heeds e) :
    p.apply nextDelay e = (p, []) := by
  refine (apply_step _ p e).of_not_heeds h (Or.inr ?_)
  rintro now rfl
  cases he

theorem live_iff (hp : p.phase = .recovering ep) (token : ResumeToken) :
    Live nextDelay p token ↔ token = ep.awaiting.token := by
  constructor
  · rintro ⟨e, he, hne⟩
    have h : p.Heeds e := by
      by_contra hn
      exact hne (apply_eq_of_not_heeds he hn)
    cases ha : ep.awaiting with
    | backoff token' =>
        rw [← ha]
        exact (answers_of_heeds (c := .backoff token' 0) he h hp (by rw [ha]; rfl)).2
    | dial token' path =>
        rw [← ha]
        exact (answers_of_heeds (c := .dial token' path) he h hp (by rw [ha]; rfl)).2
  · rintro rfl
    have hlive {e : ResumeEvent} (he : e.token? = some ep.awaiting.token) (h : p.Heeds e) :
        Live nextDelay p ep.awaiting.token := by
      refine ⟨e, he, ?_⟩
      intro heq
      obtain ⟨init, last, hr, -⟩ := (apply_step nextDelay p e).concludes h
      rw [heq] at hr
      exact absurd hr.symm (by simp)
    cases ha : ep.awaiting with
    | backoff token' => exact ha ▸ hlive (e := .backoffElapsed token' 0 false) (by rw [ha]; rfl) ⟨ep, hp, ha⟩
    | dial token' path => exact ha ▸ hlive (e := .attemptOk token' 0) (by rw [ha]; rfl) ⟨ep, path, hp, ha⟩

/-! ## 使い回さない -/

/-- 番号が飽和するまで、token は出た順に真に増える。 -/
theorem tokens_increasing (nextDelay : Nat → UInt64 → Duration) (cfg : ResumePlannerConfig)
    (es : List ResumeEvent) (hsat : (after nextDelay cfg es).nextToken < maxOf 64) :
    (tokens (commands nextDelay cfg es)).Pairwise (fun a b => a.raw < b.raw) ∧
      ∀ token ∈ tokens (commands nextDelay cfg es), token.raw ≤ (after nextDelay cfg es).nextToken := by
  induction es using List.reverseRecOn with
  | nil => exact ⟨List.Pairwise.nil, by simp [commands, tokens]⟩
  | append_singleton es e ih =>
      simp only [after, commands, Reducer.run_concat, Reducer.outputs_concat, tokens_append] at hsat ih ⊢
      rcases (apply_step nextDelay (Reducer.run (ResumePlanner.apply nextDelay) (.new cfg) es)
        e).tokens with ⟨ht, hn⟩ | ⟨ht, hn⟩ <;> rw [ht]
      · rw [hn] at hsat ⊢
        rw [List.append_nil]
        exact ih hsat
      · rw [hn] at hsat
        have hnext := hn.trans (satAdd_eq_add_of_lt hsat)
        rw [satAdd_eq_add_of_lt hsat] at hsat
        obtain ⟨hpair, hle⟩ := ih (Nat.lt_of_succ_lt hsat)
        rw [hnext]
        refine ⟨List.pairwise_append.mpr ⟨hpair, List.pairwise_singleton _ _, ?_⟩, ?_⟩
        · intro a ha b hb
          obtain rfl := List.mem_singleton.mp hb
          exact Nat.lt_succ_of_le (hle a ha)
        · intro token hm
          rcases List.mem_append.mp hm with hm | hm
          · exact (hle token hm).trans (Nat.le_succ _)
          · obtain rfl := List.mem_singleton.mp hm
            exact le_refl _

end

section

variable {cfg : ResumePlannerConfig} {p : ResumePlanner} {o : Observed} {ep ep' : Episode} {now : Millis}
  {cmds : List ResumeCmd} {r : ResumePlanner × List ResumeCmd} {token : ResumeToken} {path : DialPath}
  {e : ResumeEvent} {w w' : RelayWatch}

/-! ## 切り替えた後の期限 -/

theorem crossFamilyProbeFits_iff (deadline now : Nat) :
    crossFamilyProbeFits (Millis.saturatingSub deadline now) = true ↔ now + 16000 ≤ deadline := by
  have hms : crossFamilyMinProbeBudget = 16000 * 1000000 := rfl
  rw [crossFamilyProbeFits, decide_eq_true_iff, hms, Millis.saturatingSub, Duration.fromMillis,
    Nat.mul_le_mul_right_iff (by decide)]
  omega

theorem asMillis_switchWindow (disconnectedAt now : Nat) :
    (Millis.saturatingSub now disconnectedAt + crossFamilySwitchDeadline).asMillis =
      now - disconnectedAt + 45000 := by
  have hms : crossFamilySwitchDeadline = Duration.fromMillis 45000 := rfl
  rw [Millis.saturatingSub, hms, ← fromMillis_add, asMillis_fromMillis]

/-- 切り替える前の期限に 1 回分の時間が残っていれば、切り替えた後の期限にも残っている。 -/
theorem millisAfter_switch {disconnectedAt now : Nat} {grant window : Duration} (hw : window ≤ grant)
    (hfits : now + 16000 ≤ millisAfter disconnectedAt window) :
    now + 16000 ≤ millisAfter disconnectedAt (min grant
      (max (Millis.saturatingSub now disconnectedAt + crossFamilySwitchDeadline) unknownSessionMinElapsedFloor)) := by
  have hmax : now + 16000 ≤ maxOf 64 := le_trans hfits (satAdd_le_maxOf _ _ _)
  rcases le_total grant (max (Millis.saturatingSub now disconnectedAt + crossFamilySwitchDeadline)
      unknownSessionMinElapsedFloor) with hle | hle
  · -- サーバの認めた窓が短ければ、期限は元の期限より早くならない。
    rw [min_eq_left hle]
    exact le_trans hfits (millisAfter_mono _ hw)
  · rw [min_eq_right hle]
    refine le_trans ?_ (millisAfter_mono _ (le_max_left _ _))
    rw [millisAfter, asMillis_switchWindow, satAdd]
    omega

theorem ResumePlanner.Switch.deadline_fits (hs : Switch p ep now ep' cmds) (he : TracksEpisode cfg p o ep)
    (hg : p.effectiveResumeGraceSecs = cfg.effectiveResumeGraceSecs)
    (hc : cmds.any ResumeCmd.isSwitch = true) : now + 16000 ≤ ep'.deadline := by
  cases hs with
  | stays => cases hc
  | switches hn hf hfits hav =>
      rw [crossFamilyProbeFits_iff, he.deadline] at hfits
      have h := millisAfter_switch he.window_le hfits
      rw [← hg] at h
      exact h

/-- 切り替えるのは、元の経路への失敗を数えた後で、まだ cross-family にいないときに限る。 -/
theorem ResumePlanner.Switch.primaryFailures (hs : Switch p ep now ep' cmds) (he : TracksEpisode cfg p o ep)
    (hc : cmds.any ResumeCmd.isSwitch = true) : p.hasCrossFamilyTarget = true ∧ 1 ≤ o.primaryFailures := by
  cases hs with
  | stays => cases hc
  | switches hn hf hfits hav =>
      simp only [crossFamilyAvailable, Bool.and_eq_true, Bool.not_eq_true'] at hav
      refine ⟨hav.1, (he.failures hf).resolve_left ?_⟩
      simp [hav.2]

/-- 切り替えた適用は諦めず、1 回の試行の時間を残して再接続を続ける。 -/
theorem Tracks.switched (h : Tracks cfg p o) (hs : Step p e r) (hc : r.2.any ResumeCmd.isSwitch = true) :
    (∃ ep, p.phase = .recovering ep) ∧ (∃ ep', r.1.phase = .recovering ep' ∧ e.now + 16000 ≤ ep'.deadline) ∧
      p.hasCrossFamilyTarget = true ∧ 1 ≤ (o.next cfg e r.2).primaryFailures ∧
      ∀ reason, ¬ GivesUp r.2 reason := by
  cases hs with
  | idle | notify | beginStandby | standbyOk | ok | unrecoverable | gone => cases hc
  | beginLoop _ _ hl | standbyFailed _ _ hl => rw [hl.not_switch] at hc; cases hc
  | replayFailed _ _ _ hl => simp [hl.not_switch, ResumeCmd.isSwitch] at hc
  | @elapsed token now networkChanged ep ep' cmds hp ha hs =>
      have hc' : cmds.any ResumeCmd.isSwitch = true := by simpa [ResumeCmd.isSwitch] using hc
      have he := h.episode ep hp
      obtain ⟨htarget, hf⟩ := hs.primaryFailures he hc'
      refine ⟨⟨ep, hp⟩, ⟨_, rfl, hs.deadline_fits he h.session.grace hc'⟩, htarget, ?_, ?_⟩
      · simpa [Observed.next, Observed.primaryFailuresAfter, h.not_begins hp, Status.answeredDial] using hf
      · intro reason
        rw [givesUp_append, not_or]
        exact ⟨hs.not_givesUp reason, by simp [GivesUp]⟩
  | @failed token now kind seed ep path ep' cmds r hp ha hw hk hg hs hl =>
      have hc' : cmds.any ResumeCmd.isSwitch = true := by simpa [hl.not_switch, ResumeCmd.isSwitch] using hc
      have he := (h.countFailure hp ha hw hk now seed).withStreak (p.streakAfter kind)
      obtain ⟨htarget, hf⟩ := hs.primaryFailures he hc'
      have hfits := hs.deadline_fits he h.session.grace hc'
      have hlt : now < ep'.deadline := Nat.lt_of_lt_of_le (by simp) hfits
      refine ⟨⟨ep, hp⟩, ?_, htarget, hf, ?_⟩
      · cases hl with
        | exceeded hle => exact absurd hle (Nat.not_le_of_lt hlt)
        | waits => exact ⟨_, rfl, hfits⟩
      · intro reason
        rw [givesUp_append, givesUp_cons (c := .reportAttemptFailure _) (fun h => h), not_or, hl.givesUp_iff]
        exact ⟨hs.not_givesUp reason, fun hle => absurd hle.1 (Nat.not_le_of_lt hlt)⟩

/-! ## 監視 -/

theorem RelayWatch.step_eq_some {c : ResumeCmd} :
    w.step c = some w' ↔
      w.allows c = true ∧ w' = ⟨w.switched || c.isSwitch, w.dialed || c.isRelayDial⟩ := by
  cases h : w.allows c <;> simp [step, h, eq_comm]

theorem RelayWatch.foldlM_cons_iff {c : ResumeCmd} :
    (c :: cmds).foldlM RelayWatch.step w = some w' ↔
      ∃ w₁, w.step c = some w₁ ∧ cmds.foldlM RelayWatch.step w₁ = some w' := by
  rw [List.foldlM_cons]
  exact Option.bind_eq_some_iff

theorem RelayWatch.run_eq (h : cmds.foldlM RelayWatch.step w = some w') :
    w'.switched = (w.switched || cmds.any ResumeCmd.isSwitch) ∧
      w'.dialed = (w.dialed || cmds.any ResumeCmd.isRelayDial) := by
  induction cmds generalizing w with
  | nil =>
      obtain rfl := Option.some.inj h
      simp
  | cons c cmds ih =>
      obtain ⟨w₁, h₁, h⟩ := RelayWatch.foldlM_cons_iff.mp h
      obtain ⟨-, rfl⟩ := RelayWatch.step_eq_some.mp h₁
      obtain ⟨hs, hd⟩ := ih h
      rw [hs, hd, List.any_cons, List.any_cons, Bool.or_assoc, Bool.or_assoc]
      exact ⟨rfl, rfl⟩

theorem RelayWatch.countP_le (h : cmds.foldlM RelayWatch.step w = some w') :
    cmds.countP ResumeCmd.isSwitch + w.switched.toNat ≤ 1 := by
  induction cmds generalizing w with
  | nil => cases w.switched <;> simp
  | cons c cmds ih =>
      obtain ⟨w₁, h₁, h⟩ := RelayWatch.foldlM_cons_iff.mp h
      obtain ⟨hallow, rfl⟩ := RelayWatch.step_eq_some.mp h₁
      have hle := ih h
      rw [List.countP_cons]
      cases hc : c.isSwitch with
      | false => simpa [hc] using hle
      | true =>
          have hw : w.switched = false := by
            cases c <;> first | simpa [allows] using hallow | cases hc
          simpa [hc, hw] using hle

theorem RelayWatch.allowed {pre post : List ResumeCmd} {c : ResumeCmd}
    (h : (pre ++ c :: post).foldlM RelayWatch.step w = some w') :
    RelayWatch.allows ⟨w.switched || pre.any ResumeCmd.isSwitch, w.dialed || pre.any ResumeCmd.isRelayDial⟩ c =
      true := by
  rw [List.foldlM_append] at h
  obtain ⟨w₁, hpre, h⟩ := Option.bind_eq_some_iff.mp h
  obtain ⟨w₂, h₂, -⟩ := RelayWatch.foldlM_cons_iff.mp h
  obtain ⟨hs, hd⟩ := RelayWatch.run_eq hpre
  rw [← hs, ← hd]
  exact (RelayWatch.step_eq_some.mp h₂).1

/-! ## reducer との対応 -/

def Phase.switched : Phase → Bool
  | .recovering ep => ep.switchedThisCall
  | .connected | .gaveUp => false

/-- reducer の状態は、監視の状態を覚えている。 -/
structure Watches (p : ResumePlanner) (w : RelayWatch) : Prop where
  switched : p.phase = .gaveUp ∨ w.switched = (p.onCrossFamily || p.phase.switched)
  relayed : p.onCrossFamily = true → w.dialed = true
  dialed : ∀ ep token, p.phase = .recovering ep → ep.awaiting = .dial token .crossFamily → w.dialed = true

theorem Watches.giveUp (hr : p.onCrossFamily = true → w.dialed = true) (reason : GiveUpReason)
    (lost : ContinuityLost) (hd : (p.onCrossFamily || ep.switchedThisCall) = true → w.dialed = true) :
    ∃ w', (p.giveUp ep reason lost).2.foldlM RelayWatch.step w = some w' ∧
      Watches (p.giveUp ep reason lost).1 w' := by
  have hallow : w.allows (.giveUp reason ep.resumeWindow ep.maxResumeWindow.isNone
      (p.continuityLostIfApplicable ep lost)) = true := by
    cases hc : p.onCrossFamily || ep.switchedThisCall with
    | false => simp [continuityLostIfApplicable, hc, RelayWatch.allows]
    | true => simp [continuityLostIfApplicable, hc, RelayWatch.allows, hd hc]
  refine ⟨_, RelayWatch.foldlM_cons_iff.mpr ⟨_, RelayWatch.step_eq_some.mpr ⟨hallow, rfl⟩, rfl⟩, Or.inl rfl,
    ?_, by simp [ResumePlanner.giveUp]⟩
  intro hon
  simp [hr hon]

theorem ResumePlanner.LoopTop.watches (hl : LoopTop p ep now r)
    (hs : w.switched = (p.onCrossFamily || ep.switchedThisCall)) (hr : p.onCrossFamily = true → w.dialed = true)
    (hd : ep.deadline ≤ now → (p.onCrossFamily || ep.switchedThisCall) = true → w.dialed = true) :
    ∃ w', r.2.foldlM RelayWatch.step w = some w' ∧ Watches r.1 w' := by
  cases hl with
  | exceeded h => exact Watches.giveUp hr _ _ (hd h)
  | @waits after =>
      have hw : w.step (.backoff ⟨satAdd 64 p.nextToken 1⟩ after) = some w := by
        simp [RelayWatch.step, RelayWatch.allows, ResumeCmd.isSwitch, ResumeCmd.isRelayDial]
      refine ⟨w, RelayWatch.foldlM_cons_iff.mpr ⟨w, hw, rfl⟩, Or.inr hs, hr, ?_⟩
      rintro ep' token ⟨⟩ ha
      cases ha

/-- 切り替えの有無にかかわらず、監視は切り替えの後の状態と合う。 -/
theorem ResumePlanner.Switch.watches (hs : Switch p ep now ep' cmds)
    (hw : w.switched = (p.onCrossFamily || ep.switchedThisCall)) :
    ∃ w', cmds.foldlM RelayWatch.step w = some w' ∧ w'.switched = (p.onCrossFamily || ep'.switchedThisCall) ∧
      w'.dialed = w.dialed := by
  cases hs with
  | stays => exact ⟨w, rfl, hw, rfl⟩
  | @switches trigger hn hf hfits hav =>
      have hoff : p.onCrossFamily = false := by
        simp only [crossFamilyAvailable, Bool.and_eq_true, Bool.not_eq_true'] at hav
        exact hav.2
      rw [hoff, hn] at hw
      have hallow : w.allows (.switchedToCrossFamily trigger) = true := by simp [RelayWatch.allows, hw]
      exact ⟨_, RelayWatch.foldlM_cons_iff.mpr ⟨_, RelayWatch.step_eq_some.mpr ⟨hallow, rfl⟩, rfl⟩,
        by simp [switchToCrossFamily, ResumeCmd.isSwitch], by simp [ResumeCmd.isRelayDial]⟩

theorem Watches.dialNext (hs : w.switched = (p.onCrossFamily || ep.switchedThisCall))
    (hr : p.onCrossFamily = true → w.dialed = true) :
    ∃ w', [ResumeCmd.dial ⟨satAdd 64 p.nextToken 1⟩ (p.dialPath ep)].foldlM RelayWatch.step w = some w' ∧
      Watches (p.dialNext ep) w' := by
  have hallow : w.allows (.dial ⟨satAdd 64 p.nextToken 1⟩ (p.dialPath ep)) = true := by
    cases hc : p.onCrossFamily || ep.switchedThisCall <;> simp [dialPath, hc, RelayWatch.allows, hs]
  refine ⟨_, RelayWatch.foldlM_cons_iff.mpr ⟨_, RelayWatch.step_eq_some.mpr ⟨hallow, rfl⟩, rfl⟩, Or.inr ?_, ?_, ?_⟩
  · simp [hs, ResumeCmd.isSwitch, ResumePlanner.dialNext, Phase.switched]
  · intro hon
    simp [hr hon]
  · rintro ep' token ⟨⟩ ha
    simp only [Awaiting.dial.injEq] at ha
    simp [ha.2, ResumeCmd.isRelayDial]

/-- 元の経路または cross-family の `Dial` を待っているなら、cross-family にいれば監視は `Dial` を見ている。 -/
theorem Watches.dialed_of_awaiting (h : Watches p w) (ha : Awaits p ep) (hp : p.phase = .recovering ep)
    (hd : ep.awaiting = .dial token path) (hw : path ≠ .warmStandby)
    (hon : (p.onCrossFamily || ep.switchedThisCall) = true) : w.dialed = true := by
  have hpath : path = p.dialPath ep := (ha token path hd).resolve_right fun hn => hw hn.1
  rw [dialPath, if_pos hon] at hpath
  exact h.dialed ep token hp (hpath ▸ hd)

theorem Watches.apply (h : Watches p w) (ht : Tracks cfg p o) (hs : Step p e r) :
    ∃ w', r.2.foldlM RelayWatch.step w = some w' ∧ Watches r.1 w' := by
  have hswitched {ep} (hp : p.phase = .recovering ep) :
      w.switched = (p.onCrossFamily || ep.switchedThisCall) := by
    have hsw := h.switched
    rw [hp] at hsw
    exact hsw.resolve_left (by simp)
  have hconnected (hp : p.phase = .connected) : w.switched = p.onCrossFamily := by
    have hsw := h.switched
    rw [hp] at hsw
    simpa [Phase.switched] using hsw
  cases hs with
  | idle => exact ⟨w, rfl, h⟩
  | notify => exact ⟨_, rfl, by simpa [ResumeCmd.isSwitch, ResumeCmd.isRelayDial] using h⟩
  | beginStandby hp hw =>
      refine ⟨_, rfl, Or.inr ?_, ?_, ?_⟩
      · simp [hconnected hp, ResumeCmd.isSwitch, dialStandby, Phase.switched, newEpisode]
      · intro hon
        simp [h.relayed hon]
      · rintro ep token ⟨⟩ ha
        cases ha
  | beginLoop hp hw hl =>
      refine hl.watches (by simp [hconnected hp, newEpisode]) h.relayed ?_
      intro _ hon
      exact h.relayed (by simpa [newEpisode] using hon)
  | elapsed hp ha hs =>
      obtain ⟨w₁, h₁, hsw, hd⟩ := hs.watches (hswitched hp)
      obtain ⟨w₂, h₂, hw₂⟩ := Watches.dialNext hsw (hd ▸ h.relayed)
      refine ⟨w₂, ?_, hw₂⟩
      rw [List.foldlM_append, h₁]
      exact h₂
  | standbyOk hp ha =>
      have hoff := ((ht.awaits _ hp _ _ ha).resolve_left fun hn => (dialPath_ne_warmStandby _ _ hn.symm)).2
      refine ⟨_, rfl, Or.inr ?_, ?_, by simp⟩
      · simp [hswitched hp, hoff, ResumeCmd.isSwitch, Phase.switched]
      · intro hon
        simp [h.relayed hon]
  | @ok token now ep path hp ha hw =>
      have hdial := h.dialed_of_awaiting (ht.awaits _ hp) hp ha hw
      refine ⟨_, rfl, Or.inr ?_, ?_, ?_⟩ <;> cases hsw : ep.switchedThisCall <;>
        simp only [resume, hsw, if_true, Bool.false_eq_true, if_false]
      · simpa [hsw, ResumeCmd.isSwitch, Phase.switched] using hswitched hp
      · simpa [hsw, ResumeCmd.isSwitch, Phase.switched] using hswitched hp
      · intro hon
        simp [h.relayed hon]
      · intro _
        simp [hdial (by simp [hsw])]
      · simp
      · simp
  | standbyFailed hp ha hl =>
      have hoff := ((ht.awaits _ hp _ _ ha).resolve_left fun hn => (dialPath_ne_warmStandby _ _ hn.symm)).2
      refine hl.watches (hswitched hp) h.relayed ?_
      intro _ hon
      exact h.relayed (by simpa [hoff] using hon)
  | unrecoverable hp ha hw =>
      exact Watches.giveUp h.relayed _ _ (h.dialed_of_awaiting (ht.awaits _ hp) hp ha hw)
  | replayFailed hp ha hw hl =>
      obtain ⟨w₁, h₁, hw₁⟩ := hl.watches (hswitched hp) h.relayed
        fun _ => h.dialed_of_awaiting (ht.awaits _ hp) hp ha hw
      refine ⟨w₁, RelayWatch.foldlM_cons_iff.mpr ⟨w, ?_, h₁⟩, hw₁⟩
      simp [RelayWatch.step, RelayWatch.allows, ResumeCmd.isSwitch, ResumeCmd.isRelayDial]
  | @gone token now kind seed ep path hp ha hw hk hg =>
      have hsw := ep.countFailure_switchedThisCall
      have hdial := h.dialed_of_awaiting (ht.awaits _ hp) hp ha hw
      rw [← hsw] at hdial
      exact Watches.giveUp (p := p.withStreak (p.streakAfter kind)) h.relayed _ _ hdial
  | @failed token now kind seed ep path ep' cmds r hp ha hw hk hg hs hl =>
      have hsw := ep.countFailure_switchedThisCall
      -- 切り替えた直後の期限は、まだ過ぎていない。
      have hfits := hs.deadline_fits ((ht.countFailure hp ha hw hk now seed).withStreak _) ht.session.grace
      obtain ⟨w₁, h₁, hsw₁, hd₁⟩ := hs.watches (by rw [hsw]; exact hswitched hp)
      obtain ⟨w₂, h₂, hw₂⟩ := hl.watches hsw₁ (hd₁ ▸ h.relayed) (by
        intro hle hon
        cases hs with
        | stays =>
            rw [hsw] at hon
            exact hd₁ ▸ h.dialed_of_awaiting (ht.awaits _ hp) hp ha hw hon
        | switches => exact absurd hle (Nat.not_le_of_lt (Nat.lt_of_lt_of_le (by simp) (hfits rfl))))
      refine ⟨w₂, ?_, hw₂⟩
      rw [List.foldlM_append, h₁]
      change (ResumeCmd.reportAttemptFailure ep'.attempt :: r.2).foldlM RelayWatch.step w₁ = some w₂
      refine RelayWatch.foldlM_cons_iff.mpr ⟨w₁, ?_, h₂⟩
      simp [RelayWatch.step, RelayWatch.allows, ResumeCmd.isSwitch, ResumeCmd.isRelayDial]

theorem commands_accepted (nextDelay : Nat → UInt64 → Duration) (cfg : ResumePlannerConfig)
    (es : List ResumeEvent) :
    ∃ w, (commands nextDelay cfg es).foldlM RelayWatch.step ⟨false, false⟩ = some w := by
  have hstart : Watches (.new cfg) ⟨false, false⟩ :=
    ⟨Or.inr rfl, by simp [ResumePlanner.new], by simp [ResumePlanner.new]⟩
  obtain ⟨w, hw, -⟩ := Reducer.run_simulates (f := ResumePlanner.apply nextDelay) (π := some)
    (I := fun p => ∃ o, Tracks cfg p o) (R := Watches)
    (fun p e h => h.elim fun _ h => ⟨_, h.apply (apply_step nextDelay p e)⟩)
    (fun p e w ht h => by
      obtain ⟨o, ht⟩ := ht
      rw [List.filterMap_some]
      exact h.apply ht (apply_step nextDelay p e))
    ⟨.start, Tracks.new cfg⟩ hstart es
  rw [List.filterMap_some] at hw
  exact ⟨w, hw⟩

end

end IsekaiTerminal.Resume
