import IsekaiTerminal.Resume.Lemmas.Planner
import IsekaiTerminal.Resume.Lemmas.Relay

/-!
# `ResumePlanner` の主結果

`ResumePlanner::new` からの、どの設定とどのイベントの列でも成り立つ性質を述べる。時刻は逆行してもよく、
token は古いものでもよい。
-/

namespace IsekaiTerminal.Resume

open Protocol Lib ResumePlanner

variable (nextDelay : Nat → UInt64 → Duration) (cfg : ResumePlannerConfig) (es : List ResumeEvent)

/-! ## 取り残されない -/

/-- `Recovering` の間は最後に出た `Backoff` または `Dial` の token だけが生きていて、その応答は次の結末をちょうど
1 つ、最後に出す。ほかの応答は何も変えず、`Connected` へは `Resumed` でだけ、`GaveUp` へは `GiveUp` でだけ移る。 -/
theorem planner_responsive :
    (∀ ep, (after nextDelay cfg es).phase = .recovering ep → ∃ c token,
      lastAwaited (commands nextDelay cfg es) = some c ∧ c.token? = some token ∧
        ∀ token', Live nextDelay (after nextDelay cfg es) token' ↔ token' = token) ∧
    (∀ ep c e, (after nextDelay cfg es).phase = .recovering ep →
      lastAwaited (commands nextDelay cfg es) = some c → e.Answers c →
        Concludes ((after nextDelay cfg es).apply nextDelay e)) ∧
    (∀ e, ((∃ token, e.token? = some token ∧ ¬ ∃ ep c, (after nextDelay cfg es).phase = .recovering ep ∧
          lastAwaited (commands nextDelay cfg es) = some c ∧ e.Answers c) ∨
        ((∃ now b seed, e = .disconnected now b seed) ∧ (after nextDelay cfg es).phase ≠ .connected) ∨
        (after nextDelay cfg es).phase = .gaveUp) →
      (after nextDelay cfg es).apply nextDelay e = (after nextDelay cfg es, [])) ∧
    (∀ e, (after nextDelay cfg es).phase ≠ .connected →
      ((after nextDelay cfg es).apply nextDelay e).1.phase = .connected →
        ∃ via announce switched, .resumed via announce switched ∈
          ((after nextDelay cfg es).apply nextDelay e).2) ∧
    (∀ e, (after nextDelay cfg es).phase ≠ .gaveUp →
      ((after nextDelay cfg es).apply nextDelay e).1.phase = .gaveUp →
        ∃ reason, GivesUp ((after nextDelay cfg es).apply nextDelay e).2 reason) ∧
    ((after nextDelay cfg es).nextToken < maxOf 64 → (tokens (commands nextDelay cfg es)).Nodup) := by
  have hlast {ep} (hp : (after nextDelay cfg es).phase = .recovering ep) := lastAwaited_of_recovering hp
  have hstep (e : ResumeEvent) := apply_step nextDelay (after nextDelay cfg es) e
  refine ⟨?_, ?_, ?_, ?_, ?_, ?_⟩
  · intro ep hp
    obtain ⟨c, hc, ha⟩ := hlast hp
    exact ⟨c, ep.awaiting.token, hc, c.token?_of_awaiting ha, live_iff hp⟩
  · intro ep c e hp hc ha
    obtain ⟨c', hc', ha'⟩ := hlast hp
    obtain rfl := Option.some.inj (hc.symm.trans hc')
    exact (hstep e).concludes (heeds_of_answers hp ha' ha)
  · rintro e (⟨token, he, hn⟩ | ⟨⟨now, b, seed, rfl⟩, hp⟩ | hp)
    · refine apply_eq_of_not_heeds he ?_
      intro h
      obtain ⟨ep, hp⟩ := heeds_iff_recovering he h
      obtain ⟨c, hc, ha⟩ := hlast hp
      exact hn ⟨ep, c, hp, hc, (answers_of_heeds he h hp ha).1⟩
    · exact (hstep _).of_not_heeds hp (Or.inr (by simp))
    · refine (hstep e).of_not_heeds ?_ (Or.inl hp)
      cases e <;> simp [Heeds, hp]
  · intro e hp hp'
    obtain ⟨init, last, hr, -, hends, -⟩ := (hstep e).concludes ((hstep e).heeds_of_phase_ne (by simp [hp', hp.symm]))
    rw [hp'] at hends
    obtain ⟨via, announce, switched, rfl⟩ := hends.connected
    exact ⟨via, announce, switched, by simp [hr]⟩
  · intro e hp hp'
    obtain ⟨init, last, hr, -, hends, -⟩ := (hstep e).concludes ((hstep e).heeds_of_phase_ne (by simp [hp', hp.symm]))
    rw [hp'] at hends
    obtain ⟨reason, hg⟩ := hends.gaveUp
    exact ⟨reason, by rw [hr, givesUp_append]; exact Or.inr hg⟩
  · intro hsat
    refine (tokens_increasing nextDelay cfg es hsat).1.imp ?_
    rintro a b hlt rfl
    exact lt_irrefl _ hlt

/-! ## 諦めの規則 -/

/-- どの理由で諦めるかは、届いたイベントと出たコマンドの履歴だけで決まる。UnknownSession の断念は、元の経路か
cross-family への `Dial` が、連続 3 回以上、切断から 30 秒以上で失敗したときに限る。期限の断念は、ループの先頭に
期限以後に達したときに限り、超過と、ミリ秒に切り捨てた窓との和は経過時間に等しい。 -/
theorem giveUp_law (e : ResumeEvent) :
    (GivesUp ((after nextDelay cfg es).apply nextDelay e).2 .sessionGone ↔
      ∃ token now kind seed path, e = .attemptFailed token now kind seed ∧
        (observed nextDelay cfg es).status.liveDial token = some path ∧ path ≠ .warmStandby ∧
        kind = .unknownSession ∧ 3 ≤ (observed nextDelay cfg (es ++ [e])).unknown ∧
        Duration.fromSecs 30 ≤ (observed nextDelay cfg (es ++ [e])).elapsed now) ∧
    (GivesUp ((after nextDelay cfg es).apply nextDelay e).2 .sessionUnrecoverable ↔
      ∃ token now seed path, e = .attemptFailed token now .unrecoverable seed ∧
        (observed nextDelay cfg es).status.liveDial token = some path ∧ path ≠ .warmStandby) ∧
    ((∃ exceededBy, GivesUp ((after nextDelay cfg es).apply nextDelay e).2 (.deadlineExceeded exceededBy)) ↔
      (observed nextDelay cfg es).ReachesLoopTop cfg e ∧
        (observed nextDelay cfg (es ++ [e])).deadline ≤ e.now) ∧
    (∀ exceededBy window notify lost, .giveUp (.deadlineExceeded exceededBy) window notify lost ∈
        ((after nextDelay cfg es).apply nextDelay e).2 →
      (observed nextDelay cfg (es ++ [e])).disconnectedAt + window.asMillis ≤ maxOf 64 →
        exceededBy + Duration.fromMillis window.asMillis =
          (observed nextDelay cfg (es ++ [e])).elapsed e.now) := by
  have h := Tracks.after nextDelay cfg es
  have hstep := apply_step nextDelay (after nextDelay cfg es) e
  have hverdict := h.givesUp_iff hstep
  rw [observed_concat]
  refine ⟨hverdict _, hverdict _, ?_, ?_⟩
  · constructor
    · rintro ⟨exceededBy, hg⟩
      obtain ⟨hreach, hle, -⟩ := (hverdict _).mp hg
      exact ⟨hreach, hle⟩
    · rintro ⟨hreach, hle⟩
      exact ⟨_, (hverdict _).mpr ⟨hreach, hle, rfl⟩⟩
  · intro exceededBy window notify lost hm hsat
    obtain ⟨-, hle, rfl⟩ := (hverdict _).mp ⟨_, _, _, hm⟩
    obtain rfl := h.giveUp_window hstep hm
    rw [Observed.deadline, millisAfter_eq hsat] at hle ⊢
    rw [Millis.saturatingSub, Observed.elapsed, Millis.saturatingSub, ← fromMillis_add]
    rw [Nat.sub_add_eq, Nat.sub_add_cancel (Nat.le_sub_of_add_le' hle)]

/-- client 側の上限がミリ秒の端数を持つと、超過と窓の和は経過時間に等しくない。 -/
theorem not_exceededBy_add_window : ¬ ∀ (nextDelay : Nat → UInt64 → Duration) (cfg : ResumePlannerConfig)
    (es : List ResumeEvent) (e : ResumeEvent) (exceededBy window : Duration) (notify : Bool)
    (lost : Option ContinuityLost),
    .giveUp (.deadlineExceeded exceededBy) window notify lost ∈ ((after nextDelay cfg es).apply nextDelay e).2 →
      (observed nextDelay cfg (es ++ [e])).disconnectedAt + window.asMillis ≤ maxOf 64 →
        exceededBy + window = (observed nextDelay cfg (es ++ [e])).elapsed e.now := by
  intro h
  have := h (fun _ _ => 0) ⟨600, some 500000, false, false⟩ [] (.disconnected 7 false 0) 0 500000 false none
    (by decide) (by decide)
  revert this
  decide

/-! ## 期限と窓 -/

/-- 窓はサーバの認めた長さを超えず、期限は切断の時刻に窓を足したものである。切断の時刻は切断の間は変わらない。
バックオフは期限を越えない。切断の始めの窓は cross-family で再開したことがあるかで決まり、経路の切り替えは窓を
切り替えの時刻から定まる値に張り直す。 -/
theorem deadline_law :
    (∀ ep, (after nextDelay cfg es).phase = .recovering ep →
      ep.resumeWindow ≤ resumeWindowFor cfg.effectiveResumeGraceSecs ∧
        ep.deadline = millisAfter ep.disconnectedAt ep.resumeWindow ∧
        ep.disconnectedAt = (observed nextDelay cfg es).disconnectedAt ∧
        ep.resumeWindow = (observed nextDelay cfg es).window) ∧
    (∀ e, WaitsWithin ((after nextDelay cfg es).apply nextDelay e) e.now) ∧
    (∀ now b seed, (after nextDelay cfg es).phase = .connected →
      (observed nextDelay cfg (es ++ [.disconnected now b seed])).disconnectedAt = now ∧
        (observed nextDelay cfg (es ++ [.disconnected now b seed])).window =
          startWindow cfg (observed nextDelay cfg es).crossSucceeded) ∧
    (∀ e ep, (after nextDelay cfg es).phase = .recovering ep →
      (observed nextDelay cfg (es ++ [e])).disconnectedAt = (observed nextDelay cfg es).disconnectedAt ∧
        (observed nextDelay cfg (es ++ [e])).window =
          if ((after nextDelay cfg es).apply nextDelay e).2.any ResumeCmd.isSwitch then
            min (resumeWindowFor cfg.effectiveResumeGraceSecs)
              (max (e.now.saturatingSub ep.disconnectedAt + Duration.fromSecs 45) (Duration.fromSecs 30))
          else (observed nextDelay cfg es).window) ∧
    (∀ e reason window notify lost, .giveUp reason window notify lost ∈
        ((after nextDelay cfg es).apply nextDelay e).2 →
      window = (observed nextDelay cfg (es ++ [e])).window) := by
  have h := Tracks.after nextDelay cfg es
  have hstep (e : ResumeEvent) := apply_step nextDelay (after nextDelay cfg es) e
  refine ⟨?_, fun e => (hstep e).waitsWithin, ?_, ?_, ?_⟩
  · intro ep hp
    have he := h.episode ep hp
    exact ⟨he.window_le, he.deadline, he.disconnectedAt, he.window⟩
  · intro now b seed hp
    have hb : (observed nextDelay cfg es).begins (.disconnected now b seed) = true :=
      (h.begins_iff _).mpr ⟨hp, _, _, _, rfl⟩
    have hswitch : ((after nextDelay cfg es).apply nextDelay (.disconnected now b seed)).2.any
        ResumeCmd.isSwitch = false := by
      rw [← Bool.not_eq_true]
      intro hc
      obtain ⟨⟨ep, hp'⟩, -⟩ := h.switched (hstep _) hc
      rw [hp] at hp'
      cases hp'
    rw [observed_concat]
    simp [Observed.next, Observed.disconnectedAtAfter, Observed.windowAfter, hb, hswitch, ResumeEvent.now]
  · intro e ep hp
    rw [observed_concat]
    refine ⟨Observed.next_disconnectedAt (h.not_begins hp e), ?_⟩
    rw [Observed.next_window (h.not_begins hp e), (h.episode ep hp).disconnectedAt]
    rfl
  · intro e reason window notify lost hm
    rw [observed_concat]
    exact h.giveUp_window (hstep e) hm

/-! ## cross-family への切り替え -/

/-- 切り替えは高々 1 度で、切り替え先があり、この切断で元の経路への `Dial` が 1 度は失敗した後に限る。切り替えた
適用は諦めず、1 回の試行の時間を残す。切り替えの前の `Dial` は元の経路へ、後の `Dial` は cross-family へ向かい、
`continuity_lost` を伴う断念の前には cross-family への `Dial` がある。 -/
theorem crossFamily_switch_law :
    (commands nextDelay cfg es).countP ResumeCmd.isSwitch ≤ 1 ∧
    (∀ e trigger, .switchedToCrossFamily trigger ∈ ((after nextDelay cfg es).apply nextDelay e).2 →
      cfg.hasCrossFamilyTarget = true ∧ 1 ≤ (observed nextDelay cfg (es ++ [e])).primaryFailures ∧
        (∀ reason, ¬ GivesUp ((after nextDelay cfg es).apply nextDelay e).2 reason) ∧
        ∃ ep, ((after nextDelay cfg es).apply nextDelay e).1.phase = .recovering ep ∧
          crossFamilyMinProbeBudget ≤ ep.deadline.saturatingSub e.now) ∧
    (∀ before token path later, commands nextDelay cfg es = before ++ .dial token path :: later →
      path ≠ .warmStandby →
        (path = .crossFamily ↔ ∃ trigger, .switchedToCrossFamily trigger ∈ before)) ∧
    (∀ before reason window notify lost later,
      commands nextDelay cfg es = before ++ .giveUp reason window notify (some lost) :: later →
        ∃ token, .dial token .crossFamily ∈ before) := by
  have h := Tracks.after nextDelay cfg es
  obtain ⟨w, hw⟩ := commands_accepted nextDelay cfg es
  have hswitch (cmds : List ResumeCmd) :
      cmds.any ResumeCmd.isSwitch = true ↔ ∃ trigger, .switchedToCrossFamily trigger ∈ cmds := by
    rw [List.any_eq_true]
    constructor
    · rintro ⟨c, hm, hc⟩
      cases c <;> first | exact ⟨_, hm⟩ | cases hc
    · rintro ⟨trigger, hm⟩
      exact ⟨_, hm, rfl⟩
  refine ⟨by simpa using RelayWatch.countP_le hw, ?_, ?_, ?_⟩
  · intro e trigger hm
    obtain ⟨-, ⟨ep, hp, hfits⟩, htarget, hf, hgive⟩ :=
      h.switched (apply_step nextDelay _ e) ((hswitch _).mpr ⟨trigger, hm⟩)
    refine ⟨h.session.target.symm.trans htarget, ?_, hgive, ep, hp, ?_⟩
    · rw [observed_concat]
      exact hf
    · simpa [crossFamilyProbeFits] using (crossFamilyProbeFits_iff ep.deadline e.now).mpr hfits
  · intro before token path later hc hpath
    rw [hc] at hw
    have hallow := RelayWatch.allowed hw
    rw [← hswitch]
    cases path with
    | warmStandby => exact absurd rfl hpath
    | primary => simpa [RelayWatch.allows] using hallow
    | crossFamily => simpa [RelayWatch.allows] using hallow
  · intro before reason window notify lost later hc
    rw [hc] at hw
    have hallow : before.any ResumeCmd.isRelayDial = true := by
      simpa [RelayWatch.allows] using RelayWatch.allowed hw
    obtain ⟨c, hm, hc⟩ := List.any_eq_true.mp hallow
    cases c with
    | dial token path =>
        cases path with
        | crossFamily => exact ⟨token, hm⟩
        | warmStandby | primary => cases hc
    | _ => cases hc

/-! ## BUSY の再試行 -/

section Busy

open BusyOtherSessionRetry

variable {ρ : Type} (seedFromU64 : UInt64 → ρ) (scaled : Duration → Rat → ρ → Duration)

/-- 諦めるのは、BUSY でない失敗か、開始からミリ秒に切り捨てた窓が過ぎた失敗に限る。ほかの失敗では、期限も 10 秒も超えない
長さだけ待つ。BUSY の失敗が待つ長さと 1 ミリ秒の長い方だけ間を空けて続けば、有限回の後に、期限以後の時刻で諦める。 -/
theorem busyRetry_law {startedAt : Millis} {window : Duration} (hsat : startedAt + window.asMillis ≤ maxOf 64)
    (calls : Nat → Failure) :
    (∀ n, (start startedAt window).decision seedFromU64 scaled calls n = .giveUp ↔
      (calls n).busyOtherSession = false ∨ startedAt + window.asMillis ≤ (calls n).now) ∧
    (∀ n, (start startedAt window).decision seedFromU64 scaled calls n ≠ .giveUp →
      ∃ after, (start startedAt window).decision seedFromU64 scaled calls n = .retryAfter after ∧
        Duration.fromMillis (calls n).now + after ≤ Duration.fromMillis (startedAt + window.asMillis) ∧
        after ≤ Duration.fromSecs 10) ∧
    ((∀ n, (calls n).busyOtherSession = true) → (start startedAt window).Spaced seedFromU64 scaled calls →
      ∃ n ≤ startedAt + window.asMillis - (calls 0).now,
        (start startedAt window).decision seedFromU64 scaled calls n = .giveUp ∧
        startedAt + window.asMillis ≤ (calls n).now ∧
        ∀ i < n, (calls i).now < startedAt + window.asMillis ∧
          ∃ after, (start startedAt window).decision seedFromU64 scaled calls i = .retryAfter after) := by
  have hdeadline : (start startedAt window).deadline = startedAt + window.asMillis := millisAfter_eq hsat
  rw [← hdeadline]
  refine ⟨fun n => decision_eq_giveUp_iff, ?_, ?_⟩
  · intro n hretry
    obtain ⟨after, hafter⟩ := exists_retryAfter hretry
    obtain ⟨-, -, hwithin, hmax⟩ := decision_retryAfter hafter
    exact ⟨after, hafter, hwithin, hmax⟩
  · intro hbusy hspaced
    obtain ⟨n, hn, hgive, hbefore⟩ := hspaced.exists_giveUp
    refine ⟨n, hn, hgive, ?_, ?_⟩
    · simpa [hbusy n] using decision_eq_giveUp_iff.mp hgive
    · intro i hi
      obtain ⟨after, hafter⟩ := exists_retryAfter (hbefore i hi)
      exact ⟨(decision_retryAfter hafter).2.1, after, hafter⟩

/-- 10 ミリ秒ごとの BUSY の失敗は、5 ミリ秒の窓では 1 度待ってから諦める。 -/
theorem busyRetry_fiveMillis :
    (start 1000 (Duration.fromMillis 5)).decision (fun _ => ()) (fun d _ _ => d) (fun n => ⟨1000 + 10 * n, true, 0⟩) 0 =
        .retryAfter (Duration.fromMillis 5) ∧
      ∃ n ≤ 5, (start 1000 (Duration.fromMillis 5)).decision (fun _ => ()) (fun d _ _ => d)
        (fun n => ⟨1000 + 10 * n, true, 0⟩) n = .giveUp := by
  have hspaced : (start 1000 (Duration.fromMillis 5)).Spaced (fun _ => ()) (fun d _ _ => d)
      (fun n => ⟨1000 + 10 * n, true, 0⟩) := by
    have hgap (n after : Nat) (h : (1000 + 10 * n) * 1000000 + after ≤ 1005 * 1000000) :
        (1000 + 10 * n) * 1000000 + max after 1000000 ≤ (1000 + 10 * (n + 1)) * 1000000 := by omega
    intro n after h
    exact hgap n after (decision_retryAfter h).2.2.1
  have hsat : 1000 + (Duration.fromMillis 5).asMillis ≤ maxOf 64 := by decide
  obtain ⟨n, hn, hgive, -⟩ := (busyRetry_law (fun _ => ()) (fun d _ _ => d) hsat _).2.2 (fun _ => rfl) hspaced
  exact ⟨by decide +kernel, n, hn, hgive⟩

/-- 窓がミリ秒の端数を持つと、窓が過ぎる前に諦める。 -/
theorem not_giveUp_iff_window : ¬ ∀ (startedAt : Millis) (window : Duration) (calls : Nat → Failure) (n : Nat),
    startedAt + window.asMillis ≤ maxOf 64 →
      ((start startedAt window).decision (fun _ => ()) (fun d _ _ => d) calls n = .giveUp ↔
        (calls n).busyOtherSession = false ∨ Duration.fromMillis startedAt + window ≤ Duration.fromMillis (calls n).now) := by
  intro h
  have := h 0 1500000 (fun _ => ⟨1, true, 0⟩) 0 (by decide)
  rw [decision_eq_giveUp_iff] at this
  revert this
  decide

end Busy

end IsekaiTerminal.Resume
