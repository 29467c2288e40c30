import IsekaiTerminal.Resume.Lemmas.Planner
import IsekaiTerminal.Resume.Trace

/-!
# reducer の状態と履歴の対応

どの実行の後でも、`ResumePlanner` の状態は履歴 `Observed` から定まる値と一致する。
-/

namespace IsekaiTerminal.Resume

open Protocol Lib ResumePlanner

def Phase.status : Phase → Status
  | .connected => .connected
  | .recovering ep => .awaiting ep.awaiting
  | .gaveUp => .gaveUp

theorem startWindow_le (cfg : ResumePlannerConfig) (crossSucceeded : Bool) :
    startWindow cfg crossSucceeded ≤ resumeWindowFor cfg.effectiveResumeGraceSecs := by
  unfold startWindow
  split
  · exact min_le_left _ _
  · exact le_refl _

/-! ## 対応 -/

structure TracksSession (cfg : ResumePlannerConfig) (p : ResumePlanner) (o : Observed) : Prop where
  grace : p.effectiveResumeGraceSecs = cfg.effectiveResumeGraceSecs
  target : p.hasCrossFamilyTarget = cfg.hasCrossFamilyTarget
  standby : p.hasWarmStandby = cfg.hasWarmStandby
  relayed : p.onCrossFamily = o.crossSucceeded
  maxWindow : p.maxResumeWindow = if o.crossSucceeded then none else cfg.maxResumeWindow
  window : p.resumeWindow = startWindow cfg o.crossSucceeded
  streak : p.consecutiveUnknownSession = min o.unknown (maxOf 32)

structure TracksEpisode (cfg : ResumePlannerConfig) (p : ResumePlanner) (o : Observed) (ep : Episode) :
    Prop where
  disconnectedAt : ep.disconnectedAt = o.disconnectedAt
  window : ep.resumeWindow = o.window
  deadline : ep.deadline = millisAfter ep.disconnectedAt ep.resumeWindow
  window_le : ep.resumeWindow ≤ resumeWindowFor cfg.effectiveResumeGraceSecs
  switched : ep.switchedThisCall = true → p.crossFamilyAvailable = true
  failures : 1 ≤ ep.stunFailures → p.onCrossFamily = true ∨ 1 ≤ o.primaryFailures

/-- 待っている `Dial` の経路。warm standby へは、切り替える前にしか試みない。 -/
def Awaits (p : ResumePlanner) (ep : Episode) : Prop :=
  ∀ token path, ep.awaiting = .dial token path →
    path = p.dialPath ep ∨ (path = .warmStandby ∧ ep.switchedThisCall = false)

structure Tracks (cfg : ResumePlannerConfig) (p : ResumePlanner) (o : Observed) : Prop where
  session : TracksSession cfg p o
  status : o.status = p.phase.status
  episode : ∀ ep, p.phase = .recovering ep → TracksEpisode cfg p o ep
  awaits : ∀ ep, p.phase = .recovering ep → Awaits p ep

theorem Tracks.new (cfg : ResumePlannerConfig) : Tracks cfg (.new cfg) .start where
  session := by
    refine ⟨rfl, rfl, rfl, rfl, rfl, ?_, rfl⟩
    cases h : cfg.maxResumeWindow <;>
      simp [ResumePlanner.new, effectiveResumeWindow, clampResumeWindow, startWindow, Observed.start, h]
  status := rfl
  episode := by simp [ResumePlanner.new]
  awaits := by simp [ResumePlanner.new]

section

variable {cfg : ResumePlannerConfig} {p : ResumePlanner} {o : Observed} {ep ep' : Episode} {now : Millis}
  {cmds : List ResumeCmd} {r : ResumePlanner × List ResumeCmd} {token : ResumeToken} {path : DialPath}

/-! ## 履歴が読む値 -/

theorem Tracks.begins_iff (h : Tracks cfg p o) (e : ResumeEvent) :
    o.begins e = true ↔ p.phase = .connected ∧ ∃ now b seed, e = .disconnected now b seed := by
  cases e with
  | disconnected =>
      cases hp : p.phase <;> simp [Observed.begins, h.status, hp, Phase.status]
  | backoffElapsed | attemptOk | attemptFailed | tick => simp [Observed.begins]

theorem Tracks.not_begins (h : Tracks cfg p o) (hp : p.phase = .recovering ep) (e : ResumeEvent) :
    o.begins e = false := by
  rw [← Bool.not_eq_true, h.begins_iff, hp]
  simp

theorem Tracks.liveDial_iff (h : Tracks cfg p o) :
    o.status.liveDial token = some path ↔
      ∃ ep, p.phase = .recovering ep ∧ ep.awaiting = .dial token path := by
  rw [h.status]
  cases hp : p.phase with
  | connected | gaveUp => simp [Phase.status, Status.liveDial]
  | recovering ep =>
      cases ha : ep.awaiting with
      | backoff => simp [Phase.status, Status.liveDial, ha]
      | dial token' path' =>
          by_cases ht : token' = token <;> simp [Phase.status, Status.liveDial, ha, ht]

theorem Observed.unknownAfter_failed (hl : o.status.liveDial token = some path) (hw : path ≠ .warmStandby)
    (now : Millis) (kind : AttemptFailure) (jitterSeed : UInt64) :
    o.unknownAfter (.attemptFailed token now kind jitterSeed) =
      if kind = .unknownSession then o.unknown + 1
      else if kind = .unrecoverable then o.unknown else 0 := by
  cases path with
  | warmStandby => exact absurd rfl hw
  | primary | crossFamily => cases kind <;> simp [Observed.unknownAfter, Status.answeredDial, hl]

/-- 元の経路と cross-family の失敗は、UnknownSession の連続をどちらの側でも同じに進める。 -/
theorem TracksSession.streakAfter (h : TracksSession cfg p o) (hl : o.status.liveDial token = some path)
    (hw : path ≠ .warmStandby) (now : Millis) {kind : AttemptFailure} (jitterSeed : UInt64)
    (hk : kind ≠ .unrecoverable) :
    p.streakAfter kind =
      min (o.unknownAfter (.attemptFailed token now kind jitterSeed)) (maxOf 32) := by
  rw [Observed.unknownAfter_failed hl hw]
  by_cases hu : kind = .unknownSession
  · rw [ResumePlanner.streakAfter, if_pos hu, if_pos hu, h.streak, satAdd_min_one]
  · rw [ResumePlanner.streakAfter, if_neg hu, if_neg hu, if_neg hk, Nat.zero_min]

theorem Tracks.next_idle (h : Tracks cfg p o) {e : ResumeEvent} (he : ¬ p.Heeds e) :
    o.next cfg e [] = o := by
  have hb : o.begins e = false := by
    rw [← Bool.not_eq_true, h.begins_iff]
    rintro ⟨hp, now, b, seed, rfl⟩
    exact he hp
  have ha : o.status.answeredDial e = none := by
    cases e with
    | disconnected | backoffElapsed | tick => rfl
    | attemptOk token | attemptFailed token =>
        rw [Option.eq_none_iff_forall_ne_some]
        intro path hl
        obtain ⟨ep, hp, ha⟩ := h.liveDial_iff.mp hl
        exact he ⟨ep, path, hp, ha⟩
  simp [Observed.next, Observed.disconnectedAtAfter, Observed.windowAfter, Observed.unknownAfter,
    Observed.primaryFailuresAfter, hb, ha]

/-! ## ループの先頭と切り替え -/

theorem ResumePlanner.LoopTop.not_switch (h : LoopTop p ep now r) : r.2.any ResumeCmd.isSwitch = false := by
  cases h <;> rfl

theorem ResumePlanner.LoopTop.not_resume (h : LoopTop p ep now r) : r.2.any ResumeCmd.isRelayResume = false := by
  cases h <;> rfl

theorem ResumePlanner.LoopTop.status (h : LoopTop p ep now r) (s : Status) :
    r.2.foldl Status.after s = r.1.phase.status := by
  cases h <;> rfl

theorem TracksSession.withPhase (h : TracksSession cfg p o) (phase : Phase) (nextToken : Nat) :
    TracksSession cfg { p with phase := phase, nextToken := nextToken } o :=
  ⟨h.grace, h.target, h.standby, h.relayed, h.maxWindow, h.window, h.streak⟩

theorem TracksEpisode.withPhase (h : TracksEpisode cfg p o ep) (phase : Phase) (nextToken attempt : Nat)
    (awaiting : Awaiting) :
    TracksEpisode cfg { p with phase := phase, nextToken := nextToken } o
      { ep with attempt := attempt, awaiting := awaiting } :=
  ⟨h.disconnectedAt, h.window, h.deadline, h.window_le, h.switched, h.failures⟩

theorem ResumePlanner.LoopTop.tracks (h : LoopTop p ep now r) (hs : TracksSession cfg p o)
    (he : TracksEpisode cfg p o ep) (hst : o.status = r.1.phase.status) : Tracks cfg r.1 o := by
  cases h with
  | exceeded =>
      exact ⟨hs.withPhase _ _, hst, by simp [giveUp], by simp [giveUp]⟩
  | waits =>
      refine ⟨hs.withPhase _ _, hst, ?_, ?_⟩
      · rintro ep' ⟨⟩
        exact he.withPhase _ _ _ _
      · rintro ep' ⟨⟩ token path ha
        cases ha

/-- 切り替えは、窓と期限だけを履歴のとおりに張り直す。 -/
theorem ResumePlanner.Switch.tracks (h : Switch p ep now ep' cmds)
    (hg : p.effectiveResumeGraceSecs = cfg.effectiveResumeGraceSecs) (he : TracksEpisode cfg p o ep) :
    TracksEpisode cfg p
      { o with window := if cmds.any ResumeCmd.isSwitch then switchWindow cfg (now.saturatingSub o.disconnectedAt)
               else o.window } ep' := by
  cases h with
  | stays => exact ⟨he.disconnectedAt, he.window, he.deadline, he.window_le, he.switched, he.failures⟩
  | switches hn hf hfits hav =>
      refine ⟨he.disconnectedAt, ?_, rfl, ?_, fun _ => hav, he.failures⟩
      · simp only [switchToCrossFamily, crossFamilySwitchBudget, effectiveResumeWindow, clampResumeWindow, hg,
          he.disconnectedAt, switchWindow, List.any_cons, ResumeCmd.isSwitch, Bool.true_or, if_true]
      · rw [← hg]
        exact effectiveResumeWindow_le p.effectiveResumeGraceSecs (some _)

theorem ResumePlanner.Switch.not_resume (h : Switch p ep now ep' cmds) : cmds.any ResumeCmd.isRelayResume = false := by
  cases h <;> rfl

theorem ResumePlanner.Switch.status (h : Switch p ep now ep' cmds) (s : Status) : cmds.foldl Status.after s = s := by
  cases h <;> rfl

theorem newEpisode_tracks (h : TracksSession cfg p o) (now : Millis) (byNetworkChange : Bool)
    (hd : o.disconnectedAt = now) (hw : o.window = startWindow cfg o.crossSucceeded) :
    TracksEpisode cfg p o (p.newEpisode now byNetworkChange) where
  disconnectedAt := hd.symm
  window := h.window.trans hw.symm
  deadline := rfl
  window_le := h.window.trans_le (startWindow_le cfg _)
  switched := by simp [newEpisode]
  failures := by simp [newEpisode]

/-- 失敗を数えても対応は保たれる。数えるのは、元の経路への失敗か、既に cross-family にいるときの失敗である。 -/
theorem TracksEpisode.countFailure (he : TracksEpisode cfg p o ep) {n : Nat} (hn : o.primaryFailures ≤ n)
    (hc : p.onCrossFamily = true ∨ ep.switchedThisCall = true ∨ 1 ≤ n) :
    TracksEpisode cfg p { o with primaryFailures := n } ep.countFailure := by
  cases hs : ep.switchedThisCall with
  | true =>
      rw [Episode.countFailure, if_pos hs]
      exact ⟨he.disconnectedAt, he.window, he.deadline, he.window_le, he.switched,
        fun h1 => (he.failures h1).imp_right fun h => le_trans h hn⟩
  | false =>
      rw [Episode.countFailure, if_neg (by simp [hs])]
      refine ⟨he.disconnectedAt, he.window, he.deadline, he.window_le, he.switched, fun _ => ?_⟩
      rw [hs] at hc
      simpa using hc

/-! ## 1 回の適用 -/

theorem TracksEpisode.congr (he : TracksEpisode cfg p o ep) {o' : Observed}
    (hd : o'.disconnectedAt = o.disconnectedAt) (hw : o'.window = o.window)
    (hf : o'.primaryFailures = o.primaryFailures) : TracksEpisode cfg p o' ep :=
  ⟨he.disconnectedAt.trans hd.symm, he.window.trans hw.symm, he.deadline, he.window_le, he.switched,
    fun h => hf ▸ he.failures h⟩

theorem TracksEpisode.withStreak (he : TracksEpisode cfg p o ep) (streak : Nat) :
    TracksEpisode cfg (p.withStreak streak) o ep :=
  ⟨he.disconnectedAt, he.window, he.deadline, he.window_le, he.switched, he.failures⟩

theorem Observed.next_disconnectedAt {e : ResumeEvent} (hb : o.begins e = false) :
    (o.next cfg e cmds).disconnectedAt = o.disconnectedAt := by
  simp [Observed.next, Observed.disconnectedAtAfter, hb]

theorem Observed.next_window {e : ResumeEvent} (hb : o.begins e = false) :
    (o.next cfg e cmds).window =
      if cmds.any ResumeCmd.isSwitch then switchWindow cfg (e.now.saturatingSub o.disconnectedAt)
      else o.window := by
  simp [Observed.next, Observed.windowAfter, Observed.disconnectedAtAfter, hb]

/-- 切り替えも成功も無ければ、持ち越す値は UnknownSession の連続のほかは変わらない。 -/
theorem TracksSession.next (h : TracksSession cfg p o) (e : ResumeEvent) (cmds : List ResumeCmd)
    (streak : Nat) (hc : cmds.any ResumeCmd.isRelayResume = false)
    (hu : streak = min (o.unknownAfter e) (maxOf 32)) :
    TracksSession cfg (p.withStreak streak) (o.next cfg e cmds) := by
  have hcross : (o.next cfg e cmds).crossSucceeded = o.crossSucceeded := by simp [Observed.next, hc]
  refine ⟨h.grace, h.target, h.standby, h.relayed.trans hcross.symm, ?_, ?_, hu⟩
  · rw [hcross]; exact h.maxWindow
  · rw [hcross]; exact h.window

theorem TracksEpisode.next (he : TracksEpisode cfg p o ep) {e : ResumeEvent} (hb : o.begins e = false)
    (hs : cmds.any ResumeCmd.isSwitch = false) (hf : o.primaryFailuresAfter e = o.primaryFailures) :
    TracksEpisode cfg p (o.next cfg e cmds) ep :=
  he.congr (Observed.next_disconnectedAt hb) (by rw [Observed.next_window hb, hs]; rfl) hf

theorem Tracks.begin (h : Tracks cfg p o) (hp : p.phase = .connected) (now : Millis) (b : Bool)
    (seed : UInt64) (cmds : List ResumeCmd) (hs : cmds.any ResumeCmd.isSwitch = false) :
    TracksEpisode cfg p (o.next cfg (.disconnected now b seed) cmds) (p.newEpisode now b) := by
  have hb : o.begins (.disconnected now b seed) = true := (h.begins_iff _).mpr ⟨hp, _, _, _, rfl⟩
  have hses : TracksSession cfg p
      { o with disconnectedAt := now, window := startWindow cfg o.crossSucceeded } :=
    ⟨h.session.grace, h.session.target, h.session.standby, h.session.relayed, h.session.maxWindow,
      h.session.window, h.session.streak⟩
  have he := newEpisode_tracks hses now b rfl rfl
  refine ⟨?_, ?_, he.deadline, he.window_le, he.switched, by simp [newEpisode]⟩
  · simp [newEpisode, Observed.next, Observed.disconnectedAtAfter, hb, ResumeEvent.now]
  · rw [he.window]
    simp [Observed.next, Observed.windowAfter, hs, hb]

/-- バックオフが終わると、切り替えを済ませた切断の状態で `Dial` を待つ。 -/
theorem Tracks.elapsed (h : Tracks cfg p o) (hp : p.phase = .recovering ep) (hs : Switch p ep now ep' cmds)
    (token : ResumeToken) (networkChanged : Bool) :
    Tracks cfg (p.dialNext ep') (o.next cfg (.backoffElapsed token now networkChanged)
      (cmds ++ [.dial ⟨satAdd 64 p.nextToken 1⟩ (p.dialPath ep')])) := by
  have hb := h.not_begins hp (.backoffElapsed token now networkChanged)
  have hses := h.session.next (.backoffElapsed token now networkChanged)
    (cmds ++ [.dial ⟨satAdd 64 p.nextToken 1⟩ (p.dialPath ep')]) _
    (by simp [hs.not_resume, ResumeCmd.isRelayResume]) h.session.streak
  have he : TracksEpisode cfg p (o.next cfg (.backoffElapsed token now networkChanged)
      (cmds ++ [.dial ⟨satAdd 64 p.nextToken 1⟩ (p.dialPath ep')])) ep' := by
    refine (hs.tracks h.session.grace (h.episode ep hp)).congr (Observed.next_disconnectedAt hb) ?_ ?_
    · simp [Observed.next_window hb, ResumeCmd.isSwitch, ResumeEvent.now]
    · simp [Observed.next, Observed.primaryFailuresAfter, hb, Status.answeredDial]
  refine ⟨hses.withPhase _ _, by simp [Observed.next, Status.after, dialNext, Phase.status], ?_, ?_⟩
  · rintro ep₁ ⟨⟩
    exact he.withPhase _ _ _ _
  · rintro ep₁ ⟨⟩ token' path ha
    cases ha
    exact Or.inl rfl

theorem Tracks.standbyOk (h : Tracks cfg p o) (hp : p.phase = .recovering ep)
    (ha : ep.awaiting = .dial token .warmStandby) (now : Millis) (announce switched : Bool) :
    Tracks cfg { p with phase := .connected }
      (o.next cfg (.attemptOk token now) [.resumed .warmStandby announce switched]) := by
  have hl := h.liveDial_iff.mpr ⟨ep, hp, ha⟩
  have hses := h.session.next (.attemptOk token now) [.resumed .warmStandby announce switched]
    p.consecutiveUnknownSession rfl
    (by simp [Observed.unknownAfter, Status.answeredDial, hl, h.session.streak])
  exact ⟨hses.withPhase _ _, rfl, by simp, by simp⟩

theorem Tracks.ok (h : Tracks cfg p o) (hp : p.phase = .recovering ep)
    (ha : ep.awaiting = .dial token path) (hw : path ≠ .warmStandby) (now : Millis)
    (announce switched : Bool) :
    Tracks cfg (p.resume ep) (o.next cfg (.attemptOk token now) [.resumed path announce switched]) := by
  have hl := h.liveDial_iff.mpr ⟨ep, hp, ha⟩
  have hpath : path = p.dialPath ep := (h.awaits ep hp token path ha).resolve_right fun hn => hw hn.1
  have hu : o.unknownAfter (.attemptOk token now) = 0 := by
    cases path with
    | warmStandby => exact absurd rfl hw
    | primary | crossFamily => simp [Observed.unknownAfter, Status.answeredDial, hl]
  have hphase : (p.resume ep).phase = .connected := by unfold resume; split <;> rfl
  refine ⟨?_, by rw [hphase]; rfl, by simp [hphase], by simp [hphase]⟩
  cases hs : ep.switchedThisCall with
  | true =>
      -- 切り替えた後の経路は cross-family なので、履歴も cross-family の成功を数える。
      have hcross : (o.next cfg (.attemptOk token now) [.resumed path announce switched]).crossSucceeded = true := by
        simp [Observed.next, hpath, ResumePlanner.dialPath, hs, ResumeCmd.isRelayResume]
      rw [resume, if_pos hs]
      refine ⟨h.session.grace, h.session.target, h.session.standby, hcross.symm, by rw [hcross]; rfl, ?_, ?_⟩
      · rw [hcross]
        simp [startWindow, effectiveResumeWindow, clampResumeWindow, h.session.grace]
      · simp [Observed.next, hu]
  | false =>
      have hcross : (o.next cfg (.attemptOk token now) [.resumed path announce switched]).crossSucceeded =
          o.crossSucceeded := by
        cases hc : p.onCrossFamily <;>
          simp [Observed.next, hpath, ResumePlanner.dialPath, hs, hc, ← h.session.relayed, ResumeCmd.isRelayResume]
      rw [resume, if_neg (by simp [hs])]
      refine ⟨h.session.grace, h.session.target, h.session.standby, h.session.relayed.trans hcross.symm, ?_, ?_, ?_⟩
      · rw [hcross]; exact h.session.maxWindow
      · rw [hcross]; exact h.session.window
      · simp [Observed.next, hu]

theorem TracksSession.giveUp (h : TracksSession cfg p o) (ep : Episode) (reason : GiveUpReason)
    (lost : ContinuityLost) (hst : o.status = .gaveUp) : Tracks cfg (p.giveUp ep reason lost).1 o :=
  ⟨h.withPhase _ _, hst, by simp [ResumePlanner.giveUp], by simp [ResumePlanner.giveUp]⟩

/-- 元の経路への失敗は、切断の側と履歴の側で同じ回数だけ数える。 -/
theorem Tracks.countFailure (h : Tracks cfg p o) (hp : p.phase = .recovering ep)
    (ha : ep.awaiting = .dial token path) (hw : path ≠ .warmStandby) {kind : AttemptFailure}
    (hk : kind = .unknownSession ∨ kind = .other) (now : Millis) (seed : UInt64) :
    TracksEpisode cfg p
      { o with primaryFailures := o.primaryFailuresAfter (.attemptFailed token now kind seed) }
      ep.countFailure := by
  have hl := h.liveDial_iff.mpr ⟨ep, hp, ha⟩
  have hpath : path = p.dialPath ep := (h.awaits ep hp token path ha).resolve_right fun hn => hw hn.1
  have hafter : o.primaryFailuresAfter (.attemptFailed token now kind seed) =
      if path = .primary then o.primaryFailures + 1 else o.primaryFailures := by
    have hb := h.not_begins hp (.attemptFailed token now kind seed)
    cases path with
    | warmStandby => exact absurd rfl hw
    | primary | crossFamily =>
        rcases hk with rfl | rfl <;> simp [Observed.primaryFailuresAfter, hb, Status.answeredDial, hl]
  refine (h.episode ep hp).countFailure ?_ ?_
  · rw [hafter]; split <;> omega
  · rw [hafter, hpath, ResumePlanner.dialPath]
    cases p.onCrossFamily <;> cases ep.switchedThisCall <;> simp

/-! ### ループの先頭に渡る切断の状態 -/

theorem TracksEpisode.deadline_eq (he : TracksEpisode cfg p o ep) : ep.deadline = o.deadline := by
  rw [he.deadline, he.disconnectedAt, he.window, Observed.deadline]

theorem Tracks.standbyFailed_episode (h : Tracks cfg p o) (hp : p.phase = .recovering ep)
    (ha : ep.awaiting = .dial token .warmStandby) (hl : LoopTop p ep now r) (kind : AttemptFailure)
    (seed : UInt64) : TracksEpisode cfg p (o.next cfg (.attemptFailed token now kind seed) r.2) ep := by
  have hlive := h.liveDial_iff.mpr ⟨ep, hp, ha⟩
  have hb := h.not_begins hp (.attemptFailed token now kind seed)
  refine (h.episode ep hp).next hb hl.not_switch ?_
  simp [Observed.primaryFailuresAfter, hb, Status.answeredDial, hlive]

theorem Tracks.replayFailed_episode (h : Tracks cfg p o) (hp : p.phase = .recovering ep)
    (ha : ep.awaiting = .dial token path) (hl : LoopTop (p.withStreak 0) ep now r) (seed : UInt64) :
    TracksEpisode cfg (p.withStreak 0) (o.next cfg (.attemptFailed token now .replayFailed seed)
      (.reportAttemptFailure ep.attempt :: r.2)) ep := by
  have hlive := h.liveDial_iff.mpr ⟨ep, hp, ha⟩
  have hb := h.not_begins hp (.attemptFailed token now .replayFailed seed)
  refine ((h.episode ep hp).next hb ?_ ?_).withStreak 0
  · simp [hl.not_switch, ResumeCmd.isSwitch]
  · cases path <;> simp [Observed.primaryFailuresAfter, hb, Status.answeredDial, hlive]

theorem Tracks.failed_episode (h : Tracks cfg p o) (hp : p.phase = .recovering ep)
    (ha : ep.awaiting = .dial token path) (hw : path ≠ .warmStandby) {kind : AttemptFailure}
    (hk : kind = .unknownSession ∨ kind = .other)
    (hs : Switch (p.withStreak (p.streakAfter kind)) ep.countFailure now ep' cmds)
    (hl : LoopTop (p.withStreak (p.streakAfter kind)) ep' now r) (seed : UInt64) :
    TracksEpisode cfg (p.withStreak (p.streakAfter kind)) (o.next cfg (.attemptFailed token now kind seed)
      (cmds ++ .reportAttemptFailure ep'.attempt :: r.2)) ep' := by
  have hb := h.not_begins hp (.attemptFailed token now kind seed)
  refine (hs.tracks (o := { o with
      primaryFailures := o.primaryFailuresAfter (.attemptFailed token now kind seed) })
    h.session.grace ((h.countFailure hp ha hw hk now seed).withStreak _)).congr
    (Observed.next_disconnectedAt hb) ?_ rfl
  simp [Observed.next_window hb, ResumeCmd.isSwitch, ResumeEvent.now, hl.not_switch]

theorem Tracks.apply (h : Tracks cfg p o) {e : ResumeEvent} (hstep : Step p e r) :
    Tracks cfg r.1 (o.next cfg e r.2) := by
  cases hstep with
  | idle he => rw [h.next_idle he]; exact h
  | @notify now ep hp =>
      have hb := h.not_begins hp (.tick now)
      have ho : o.next cfg (.tick now)
          [.showReconnecting (now.saturatingSub ep.disconnectedAt) ep.resumeWindow] = o := by
        simp [Observed.next, Observed.disconnectedAtAfter, Observed.windowAfter, Observed.unknownAfter,
          Observed.primaryFailuresAfter, hb, Status.answeredDial, Status.after, ResumeCmd.isSwitch,
          ResumeCmd.isRelayResume]
      rw [ho]
      exact h
  | @beginStandby now b seed hp hw =>
      have hses := h.session.next (.disconnected now b seed)
        [.dial ⟨satAdd 64 p.nextToken 1⟩ .warmStandby] _ rfl h.session.streak
      have he := h.begin hp now b seed [.dial ⟨satAdd 64 p.nextToken 1⟩ .warmStandby] rfl
      refine ⟨hses.withPhase _ _, rfl, ?_, ?_⟩
      · rintro ep ⟨⟩
        exact he.withPhase _ _ _ _
      · rintro ep ⟨⟩ token path ha
        cases ha
        exact Or.inr ⟨rfl, rfl⟩
  | @beginLoop now b seed r hp hw hl =>
      have hses := h.session.next (.disconnected now b seed) r.2 _ hl.not_resume h.session.streak
      exact hl.tracks hses (h.begin hp _ _ _ _ hl.not_switch) (hl.status _)
  | elapsed hp ha hs => exact h.elapsed hp hs _ _
  | standbyOk hp ha => exact h.standbyOk hp ha _ _ _
  | ok hp ha hw => exact h.ok hp ha hw _ _ _
  | @standbyFailed token now kind seed ep r hp ha hl =>
      have hlive := h.liveDial_iff.mpr ⟨ep, hp, ha⟩
      have hses := h.session.next (.attemptFailed token now kind seed) r.2 p.consecutiveUnknownSession
        hl.not_resume (by simp [Observed.unknownAfter, Status.answeredDial, hlive, h.session.streak])
      exact hl.tracks hses (h.standbyFailed_episode hp ha hl kind seed) (hl.status _)
  | @unrecoverable token now seed ep path hp ha hw =>
      have hlive := h.liveDial_iff.mpr ⟨ep, hp, ha⟩
      have hses := h.session.next (.attemptFailed token now .unrecoverable seed)
        (p.giveUp ep .sessionUnrecoverable .sessionGone).2 p.consecutiveUnknownSession rfl
        (by simp [Observed.unknownAfter_failed hlive hw, h.session.streak])
      exact hses.giveUp ep _ _ rfl
  | @replayFailed token now seed ep path r hp ha hw hl =>
      have hlive := h.liveDial_iff.mpr ⟨ep, hp, ha⟩
      have hses := h.session.next (.attemptFailed token now .replayFailed seed)
        (.reportAttemptFailure ep.attempt :: r.2) 0
        (by simp [hl.not_resume, ResumeCmd.isRelayResume]) (by simp [Observed.unknownAfter_failed hlive hw])
      exact hl.tracks hses (h.replayFailed_episode hp ha hl seed) (hl.status _)
  | @gone token now kind seed ep path hp ha hw hk hg =>
      have hlive := h.liveDial_iff.mpr ⟨ep, hp, ha⟩
      have hses := h.session.next (.attemptFailed token now kind seed)
        ((p.withStreak (p.streakAfter kind)).giveUp ep.countFailure .sessionGone .sessionGone).2 _ rfl
        (h.session.streakAfter hlive hw now seed (by rcases hk with rfl | rfl <;> simp))
      exact hses.giveUp _ _ _ rfl
  | @failed token now kind seed ep path ep' cmds r hp ha hw hk hg hs hl =>
      have hlive := h.liveDial_iff.mpr ⟨ep, hp, ha⟩
      have hses := h.session.next (.attemptFailed token now kind seed)
        (cmds ++ .reportAttemptFailure ep'.attempt :: r.2) _
        (by simp [hs.not_resume, hl.not_resume, ResumeCmd.isRelayResume])
        (h.session.streakAfter hlive hw now seed (by rcases hk with rfl | rfl <;> simp))
      refine hl.tracks hses (h.failed_episode hp ha hw hk hs hl seed) ?_
      simp only [Observed.next, List.foldl_append, hs.status, List.foldl_cons, hl.status]

theorem observed_concat (nextDelay : Nat → UInt64 → Duration) (cfg : ResumePlannerConfig)
    (es : List ResumeEvent) (e : ResumeEvent) :
    observed nextDelay cfg (es ++ [e]) =
      (observed nextDelay cfg es).next cfg e ((after nextDelay cfg es).apply nextDelay e).2 :=
  Reducer.watch_concat _ _ _ _ _

theorem Tracks.after (nextDelay : Nat → UInt64 → Duration) (cfg : ResumePlannerConfig)
    (es : List ResumeEvent) : Tracks cfg (after nextDelay cfg es) (observed nextDelay cfg es) :=
  Reducer.watch_invariant (fun _ _ e h => h.apply (apply_step _ _ e)) (Tracks.new cfg) es

end

/-!
## 1 回の適用の結末

応答を受けた `apply` は、結末のコマンドをちょうど 1 つ、最後に出す。どの理由で諦めるかは履歴だけで決まる。
-/

section

variable {cfg : ResumePlannerConfig} {p : ResumePlanner} {o : Observed} {ep ep' : Episode} {now : Millis}
  {cmds : List ResumeCmd} {r : ResumePlanner × List ResumeCmd} {token : ResumeToken} {path : DialPath}
  {e : ResumeEvent} {nextDelay : Nat → UInt64 → Duration}

/-! ## 結末のコマンド -/

theorem Concludes.single {c : ResumeCmd} (ho : c.isOutcome = true) (h : c.EndsIn p.phase) :
    Concludes (p, [c]) :=
  ⟨[], c, rfl, ho, h, by simp⟩

theorem Concludes.prepend {c : ResumeCmd} (hc : c.isOutcome = false) (h : Concludes r) :
    Concludes (r.1, c :: r.2) := by
  obtain ⟨init, last, hr, ho, he, hi⟩ := h
  refine ⟨c :: init, last, by rw [hr]; rfl, ho, he, ?_⟩
  intro c' hc'
  cases hc' with
  | head => exact hc
  | tail _ hm => exact hi c' hm

theorem ResumePlanner.Switch.prepend (hs : Switch p ep now ep' cmds) (h : Concludes r) :
    Concludes (r.1, cmds ++ r.2) := by
  cases hs with
  | stays => exact h
  | switches => exact h.prepend rfl

theorem ResumePlanner.LoopTop.concludes (h : LoopTop p ep now r) : Concludes r := by
  cases h with
  | exceeded => exact .single rfl trivial
  | waits => exact .single rfl trivial

theorem ResumePlanner.Step.concludes (h : Step p e r) (he : p.Heeds e) : Concludes r := by
  cases h with
  | idle hn => exact absurd he hn
  | notify => exact he.elim
  | beginStandby => exact .single rfl trivial
  | beginLoop _ _ hl | standbyFailed _ _ hl => exact hl.concludes
  | @elapsed _ _ _ _ ep' _ _ _ hs =>
      exact hs.prepend (r := (p.dialNext ep', [.dial _ (p.dialPath ep')])) (.single rfl trivial)
  | standbyOk => exact .single rfl trivial
  | ok =>
      refine .single rfl ?_
      unfold resume
      split <;> exact trivial
  | unrecoverable | gone => exact .single rfl trivial
  | replayFailed _ _ _ hl => exact hl.concludes.prepend rfl
  | failed _ _ _ _ _ hs hl => exact hs.prepend (r := (_, _ :: _)) (hl.concludes.prepend rfl)

theorem ResumeCmd.EndsIn.connected {c : ResumeCmd} (h : c.EndsIn .connected) :
    ∃ via announce switched, c = .resumed via announce switched := by
  cases c <;> first | exact h.elim | exact ⟨_, _, _, rfl⟩

theorem ResumeCmd.EndsIn.gaveUp {c : ResumeCmd} (h : c.EndsIn .gaveUp) :
    ∃ reason, GivesUp [c] reason := by
  cases c <;> first | exact h.elim | exact ⟨_, _, _, _, List.mem_singleton.mpr rfl⟩

theorem ResumePlanner.Step.heeds_of_phase_ne (h : Step p e r) (hne : r.1.phase ≠ p.phase) : p.Heeds e := by
  cases h with
  | idle | notify => exact absurd rfl hne
  | beginStandby hp | beginLoop hp => exact hp
  | elapsed hp ha => exact ⟨_, hp, ha⟩
  | standbyOk hp ha | ok hp ha | standbyFailed hp ha | unrecoverable hp ha | replayFailed hp ha
  | gone hp ha | failed hp ha => exact ⟨_, _, hp, ha⟩

theorem ResumePlanner.Step.of_not_heeds (h : Step p e r) (hn : ¬ p.Heeds e) (ht : p.phase = .gaveUp ∨ ∀ now, e ≠ .tick now) :
    r = (p, []) := by
  cases h with
  | idle => rfl
  | notify hp =>
      rcases ht with hg | ht
      · rw [hg] at hp; cases hp
      · exact absurd rfl (ht _)
  | beginStandby hp | beginLoop hp => exact absurd hp hn
  | elapsed hp ha => exact absurd ⟨_, hp, ha⟩ hn
  | standbyOk hp ha | ok hp ha | standbyFailed hp ha | unrecoverable hp ha | replayFailed hp ha
  | gone hp ha | failed hp ha => exact absurd ⟨_, _, hp, ha⟩ hn

/-! ## token -/

theorem tokens_append (cmds cmds' : List ResumeCmd) : tokens (cmds ++ cmds') = tokens cmds ++ tokens cmds' :=
  List.filterMap_append

theorem ResumePlanner.LoopTop.tokens (h : LoopTop p ep now r) :
    (tokens r.2 = [] ∧ r.1.nextToken = p.nextToken) ∨
      (tokens r.2 = [⟨r.1.nextToken⟩] ∧ r.1.nextToken = satAdd 64 p.nextToken 1) := by
  cases h with
  | exceeded => exact Or.inl ⟨rfl, rfl⟩
  | waits => exact Or.inr ⟨rfl, rfl⟩

theorem ResumePlanner.Switch.tokens (h : Switch p ep now ep' cmds) : tokens cmds = [] := by
  cases h <;> rfl

theorem ResumePlanner.Step.tokens (h : Step p e r) :
    (tokens r.2 = [] ∧ r.1.nextToken = p.nextToken) ∨
      (tokens r.2 = [⟨r.1.nextToken⟩] ∧ r.1.nextToken = satAdd 64 p.nextToken 1) := by
  cases h with
  | idle | notify | standbyOk | unrecoverable | gone => exact Or.inl ⟨rfl, rfl⟩
  | ok =>
      refine Or.inl ⟨rfl, ?_⟩
      unfold resume
      split <;> rfl
  | beginStandby => exact Or.inr ⟨rfl, rfl⟩
  | beginLoop _ _ hl | standbyFailed _ _ hl => exact hl.tokens
  | elapsed _ _ hs => exact Or.inr ⟨by rw [tokens_append, hs.tokens]; rfl, rfl⟩
  | replayFailed _ _ _ hl => exact hl.tokens
  | failed _ _ _ _ _ hs hl =>
      rw [tokens_append, hs.tokens]
      exact hl.tokens

/-! ## 諦める理由 -/

theorem givesUp_append {cmds' : List ResumeCmd} {reason : GiveUpReason} :
    GivesUp (cmds ++ cmds') reason ↔ GivesUp cmds reason ∨ GivesUp cmds' reason := by
  simp only [GivesUp, List.mem_append, exists_or]

theorem givesUp_cons {c : ResumeCmd} (hc : c.EndsIn .gaveUp → False) {reason : GiveUpReason} :
    GivesUp (c :: cmds) reason ↔ GivesUp cmds reason := by
  refine exists_congr fun w => exists_congr fun n => exists_congr fun l => ?_
  rw [List.mem_cons, or_iff_right]
  rintro rfl
  exact hc trivial

theorem not_givesUp_nil {reason : GiveUpReason} : ¬ GivesUp [] reason := by
  rintro ⟨w, n, l, hm⟩
  cases hm

theorem givesUp_giveUp (p : ResumePlanner) (ep : Episode) (reason reason' : GiveUpReason) (lost : ContinuityLost) :
    GivesUp (p.giveUp ep reason lost).2 reason' ↔ reason' = reason := by
  simp [GivesUp, giveUp]

theorem ResumePlanner.Switch.not_givesUp (h : Switch p ep now ep' cmds) (reason : GiveUpReason) :
    ¬ GivesUp cmds reason := by
  cases h with
  | stays => exact not_givesUp_nil
  | switches => simp [GivesUp]

theorem ResumePlanner.LoopTop.givesUp_iff (h : LoopTop p ep now r) (reason : GiveUpReason) :
    GivesUp r.2 reason ↔ ep.deadline ≤ now ∧ reason = .deadlineExceeded (now.saturatingSub ep.deadline) := by
  cases h with
  | exceeded hd => rw [givesUp_giveUp, and_iff_right hd]
  | waits hd =>
      rw [givesUp_cons (c := .backoff _ _) (fun h => h)]
      simp [not_givesUp_nil, Nat.not_le_of_lt hd]

theorem Tracks.gone_iff (h : Tracks cfg p o) (hp : p.phase = .recovering ep)
    (ha : ep.awaiting = .dial token path) (hw : path ≠ .warmStandby) {kind : AttemptFailure}
    (hk : kind ≠ .unrecoverable) (now : Millis) (seed : UInt64) (cmds : List ResumeCmd) :
    p.Gone ep kind now ↔ (o.next cfg (.attemptFailed token now kind seed) cmds).SessionGone kind now := by
  have hlive := h.liveDial_iff.mpr ⟨ep, hp, ha⟩
  have hstreak := h.session.streakAfter hlive hw now seed hk
  have hdisc : (o.next cfg (.attemptFailed token now kind seed) cmds).disconnectedAt = o.disconnectedAt :=
    Observed.next_disconnectedAt (h.not_begins hp _)
  have hmax : unknownSessionConfirmThreshold ≤ maxOf 32 := by decide
  simp only [Gone, Observed.SessionGone, Observed.elapsed, hstreak, hdisc, (h.episode ep hp).disconnectedAt,
    le_min_iff, hmax, and_true]
  rfl

/-- 失敗の応答が履歴の上でどの理由に当たるか。 -/
theorem Observed.verdict_failed (cfg : ResumePlannerConfig) (now : Millis) (kind : AttemptFailure)
    (seed : UInt64) (o' : Observed) (hb : ∀ e, o.begins e = false)
    (hlive : o.status.liveDial token = some path) (hd : o'.disconnectedAt = o.disconnectedAt)
    (hu : o'.unknown = o.unknownAfter (.attemptFailed token now kind seed)) (reason : GiveUpReason) :
    o.Verdict cfg (.attemptFailed token now kind seed) o' reason ↔
      match reason with
      | .sessionGone => path ≠ .warmStandby ∧ o'.SessionGone kind now
      | .sessionUnrecoverable => path ≠ .warmStandby ∧ kind = .unrecoverable
      | .deadlineExceeded exceededBy =>
          (path = .warmStandby ∨ (kind ≠ .unrecoverable ∧ ¬ o'.SessionGone kind now)) ∧
            o'.deadline ≤ now ∧ exceededBy = now.saturatingSub o'.deadline := by
  have hgone (k : AttemptFailure) (t : Millis) :
      Observed.SessionGone { o with unknown := o.unknownAfter (.attemptFailed token now kind seed) } k t ↔
        o'.SessionGone k t := by
    simp only [Observed.SessionGone, Observed.elapsed, hd, hu]
  cases reason with
  | sessionGone => simp [Observed.Verdict, hlive]
  | sessionUnrecoverable => simp [Observed.Verdict, hlive, and_comm]
  | deadlineExceeded =>
      simp [Observed.Verdict, Observed.ReachesLoopTop, hb, hlive, hgone, ResumeEvent.now]

/-- ループの先頭で諦める理由は、そこへ渡った切断の期限だけで決まる。 -/
theorem TracksEpisode.loopTop_givesUp {p' : ResumePlanner} (he : TracksEpisode cfg p' o ep) (hl : LoopTop p ep now r)
    (reason : GiveUpReason) : GivesUp r.2 reason ↔
      match reason with
      | .sessionGone => False
      | .sessionUnrecoverable => False
      | .deadlineExceeded exceededBy => o.deadline ≤ now ∧ exceededBy = now.saturatingSub o.deadline := by
  rw [hl.givesUp_iff, he.deadline_eq]
  cases reason <;> simp

/-- 切断の始まりでも、待っている `Dial` の失敗でもなければ、諦める理由は無い。 -/
theorem Observed.not_verdict {o' : Observed} (hb : o.begins e = true → cfg.hasWarmStandby = true)
    (hf : ∀ token now kind seed path, e = .attemptFailed token now kind seed →
      o.status.liveDial token ≠ some path) (reason : GiveUpReason) : ¬ o.Verdict cfg e o' reason := by
  cases reason with
  | sessionGone =>
      rintro ⟨token, now, kind, seed, path, he, hl, -⟩
      exact hf _ _ _ _ _ he hl
  | sessionUnrecoverable =>
      rintro ⟨token, now, seed, path, he, hl, -⟩
      exact hf _ _ _ _ _ he hl
  | deadlineExceeded =>
      rintro ⟨⟨hbegin, hw⟩ | ⟨token, now, kind, seed, path, he, hl, -⟩, -⟩
      · rw [hb hbegin] at hw; cases hw
      · exact hf _ _ _ _ _ he hl

theorem Tracks.givesUp_iff (h : Tracks cfg p o) (hs : Step p e r) (reason : GiveUpReason) :
    GivesUp r.2 reason ↔ o.Verdict cfg e (o.next cfg e r.2) reason := by
  have hfailed {ep token now kind seed path} (hp : p.phase = .recovering ep)
      (ha : ep.awaiting = .dial token path) (cmds : List ResumeCmd) :=
    Observed.verdict_failed cfg now kind seed (o.next cfg (.attemptFailed token now kind seed) cmds)
      (h.not_begins hp) (h.liveDial_iff.mpr ⟨ep, hp, ha⟩) (Observed.next_disconnectedAt (h.not_begins hp _)) rfl
  cases hs with
  | idle he =>
      refine iff_of_false not_givesUp_nil (Observed.not_verdict ?_ ?_ reason)
      · rw [h.begins_iff]
        rintro ⟨hp, now, b, seed, rfl⟩
        exact absurd hp he
      · rintro token now kind seed path rfl hl
        obtain ⟨ep, hp, ha⟩ := h.liveDial_iff.mp hl
        exact he ⟨ep, path, hp, ha⟩
  | notify hp =>
      exact iff_of_false (by simp [GivesUp]) (Observed.not_verdict (by simp [h.not_begins hp]) (by simp) reason)
  | beginStandby hp hw =>
      exact iff_of_false (by simp [GivesUp])
        (Observed.not_verdict (fun _ => h.session.standby.symm.trans hw) (by simp) reason)
  | @beginLoop now b seed r hp hw hl =>
      have hb : o.begins (.disconnected now b seed) = true := (h.begins_iff _).mpr ⟨hp, _, _, _, rfl⟩
      rw [(h.begin hp now b seed _ hl.not_switch).loopTop_givesUp hl]
      cases reason <;>
        simp [Observed.Verdict, Observed.ReachesLoopTop, hb, ← h.session.standby, hw, ResumeEvent.now]
  | elapsed hp ha hs =>
      refine iff_of_false ?_ (Observed.not_verdict (by simp [h.not_begins hp]) (by simp) reason)
      rw [givesUp_append, or_iff_right (hs.not_givesUp reason)]
      simp [GivesUp]
  | standbyOk hp | ok hp =>
      exact iff_of_false (by simp [GivesUp]) (Observed.not_verdict (by simp [h.not_begins hp]) (by simp) reason)
  | @standbyFailed token now kind seed ep r hp ha hl =>
      rw [(h.standbyFailed_episode hp ha hl kind seed).loopTop_givesUp hl, hfailed hp ha]
      cases reason <;> simp
  | @unrecoverable token now seed ep path hp ha hw =>
      rw [givesUp_giveUp, hfailed hp ha]
      cases reason <;> simp [hw, Observed.SessionGone]
  | @replayFailed token now seed ep path r hp ha hw hl =>
      rw [givesUp_cons (c := .reportAttemptFailure _) (fun h => h),
        (h.replayFailed_episode hp ha hl seed).loopTop_givesUp hl, hfailed hp ha]
      cases reason <;> simp [hw, Observed.SessionGone]
  | @gone token now kind seed ep path hp ha hw hk hg =>
      have hne : kind ≠ .unrecoverable := by rcases hk with rfl | rfl <;> simp
      have hgone := fun cmds => (h.gone_iff hp ha hw hne now seed cmds).mp hg
      rw [givesUp_giveUp, hfailed hp ha]
      cases reason <;> simp [hw, hne, hgone]
  | @failed token now kind seed ep path ep' cmds r hp ha hw hk hg hs hl =>
      have hne : kind ≠ .unrecoverable := by rcases hk with rfl | rfl <;> simp
      have hgone := fun cmds => (h.gone_iff hp ha hw hne now seed cmds).not.mp hg
      rw [givesUp_append, or_iff_right (hs.not_givesUp reason), givesUp_cons (c := .reportAttemptFailure _) (fun h => h),
        (h.failed_episode hp ha hw hk hs hl seed).loopTop_givesUp hl, hfailed hp ha]
      cases reason <;> simp [hw, hne, hgone]

/-! ## 期限と窓 -/

theorem ResumePlanner.LoopTop.waitsWithin (h : LoopTop p ep now r) : WaitsWithin r now := by
  intro token after hm
  cases h with
  | exceeded => simp [giveUp] at hm
  | waits hlt hafter =>
      obtain ⟨rfl, rfl⟩ := ResumeCmd.backoff.inj (List.mem_singleton.mp hm)
      refine ⟨_, rfl, hlt, ?_⟩
      have hsplit : ep.deadline = now + (ep.deadline - now) := (Nat.add_sub_cancel' hlt.le).symm
      change _ ≤ Duration.fromMillis ep.deadline
      rw [hsplit, fromMillis_add]
      exact Nat.add_le_add_left hafter _

theorem ResumePlanner.Step.waitsWithin (h : Step p e r) : WaitsWithin r e.now := by
  cases h with
  | beginLoop _ _ hl | standbyFailed _ _ hl => exact hl.waitsWithin
  | replayFailed _ _ _ hl =>
      intro token after hm
      exact hl.waitsWithin token after (by simpa using hm)
  | failed _ _ _ _ _ hs hl =>
      intro token after hm
      refine hl.waitsWithin token after ?_
      cases hs <;> simpa using hm
  | elapsed _ _ hs => cases hs <;> intro token after hm <;> simp at hm
  | idle | notify | beginStandby | standbyOk | ok | unrecoverable | gone =>
      intro token after hm
      simp [giveUp] at hm

theorem Tracks.giveUp_window (h : Tracks cfg p o) (hs : Step p e r) {reason : GiveUpReason}
    {window : Duration} {notify : Bool} {lost : Option ContinuityLost}
    (hm : .giveUp reason window notify lost ∈ r.2) : window = (o.next cfg e r.2).window := by
  have hloop {p' : ResumePlanner} {ep} {now} {r' : ResumePlanner × List ResumeCmd} {o' : Observed}
      (hl : LoopTop p' ep now r') (he : TracksEpisode cfg p' o' ep)
      (hm : .giveUp reason window notify lost ∈ r'.2) : window = o'.window := by
    cases hl with
    | exceeded =>
        obtain ⟨-, rfl, -, -⟩ := ResumeCmd.giveUp.inj (List.mem_singleton.mp hm)
        exact he.window
    | waits => simp at hm
  have hgive {p' : ResumePlanner} {ep : Episode} {reason'} {lost'} {o' : Observed}
      (he : ep.resumeWindow = o'.window) (hm : .giveUp reason window notify lost ∈ (p'.giveUp ep reason' lost').2) :
      window = o'.window := by
    obtain ⟨-, rfl, -, -⟩ := ResumeCmd.giveUp.inj (List.mem_singleton.mp hm)
    exact he
  cases hs with
  | idle | notify | beginStandby | standbyOk | ok => simp at hm
  | elapsed _ _ hs => cases hs <;> simp at hm
  | beginLoop hp hw hl => exact hloop hl (h.begin hp _ _ _ _ hl.not_switch) hm
  | standbyFailed hp ha hl => exact hloop hl (h.standbyFailed_episode hp ha hl _ _) hm
  | replayFailed hp ha hw hl => exact hloop hl (h.replayFailed_episode hp ha hl _) (by simpa using hm)
  | failed hp ha hw hk hg hs hl =>
      refine hloop hl (h.failed_episode hp ha hw hk hs hl _) ?_
      cases hs <;> simpa using hm
  | unrecoverable hp ha hw =>
      refine hgive ?_ hm
      rw [Observed.next_window (h.not_begins hp _)]
      exact (h.episode _ hp).window
  | @gone token now kind seed ep path hp ha hw hk hg =>
      refine hgive ?_ hm
      rw [Observed.next_window (h.not_begins hp _)]
      rw [Episode.countFailure_resumeWindow]
      exact (h.episode _ hp).window

end

end IsekaiTerminal.Resume
