import IsekaiTerminal.Serve.Lemmas.Sweep
import IsekaiTerminal.Serve.Lemmas.Runtime
import IsekaiTerminal.Serve.Lemmas.SocketLife

/-!
# serve の reducer の主結果

`AttachArbiter::new()` と `ServeAggregate::new` からの、どのイベントの列でも成り立つ性質を述べる。
-/

namespace IsekaiTerminal.Serve

open Protocol Lib

namespace AttachArbiter

/-! ## HELLO を待つ側は取り残されない -/

/-- 届いた HELLO の試行は、その後のどの時点でも、結果が明示して届いているか、その session の slot に
`Connecting` の鍵または `ClosingForSupersede` の次の鍵として残っている。 -/
theorem hello_resolved_or_waiting (pre post : List AttachEvent) (key : AttachKey) :
    (∃ eff ∈ Reducer.outputs AttachArbiter.apply (after pre) (.helloReceived key :: post),
        eff.Resolves key) ∨
      (after (pre ++ .helloReceived key :: post)).Waiting key := by
  have hinv := Inv.after pre
  rcases hello_waiting hinv key with ⟨eff, hm, hr⟩ | hw
  · exact Or.inl ⟨eff, List.mem_append_left _ hm, hr⟩
  rcases hw.run (hinv.apply _) post with ⟨eff, hm, hr⟩ | hw
  · exact Or.inl ⟨eff, List.mem_append_right _ hm, hr⟩
  · exact Or.inr (by rw [after_append]; exact hw)

/-! ## session ごとの lease は高々 1 つが生きている -/

/-- 生きている lease が高々 1 つであることは、空の slot を HELLO が埋めるたびに、CANCEL または期限切れが
空けた lease の片付けが済んでいることと同値である。 -/
theorem atMostOneLive_iff (es : List AttachEvent) : AtMostOneLive es ↔ VacancySettled es := by
  constructor
  · rintro h pre key post rfl hv lease hd
    have happly : (after pre).apply (.helloReceived key) =
        ((after pre).mintLease.2.insertSlot key.sessionId (.connecting key ⟨(after pre).nextLease⟩),
          [.connectTarget ⟨(after pre).nextLease⟩]) := by
      simp [AttachArbiter.apply, onHelloReceived, hv]
    have hst : (after (pre ++ [.helloReceived key])).stateFor key.sessionId =
        some (.connecting key ⟨(after pre).nextLease⟩) := by
      rw [after_concat, happly]; simp
    obtain ⟨e, he, hf⟩ := h pre _ post rfl _ key.sessionId _ (by rw [happly]; exact List.mem_singleton.mpr rfl)
      hst rfl lease hd.held
    -- HELLO 自身は lease の終わりを告げない。
    rcases List.mem_append.mp he with he | he
    · exact ⟨e, he, hf⟩
    · rw [List.mem_singleton.mp he] at hf
      exact hf.elim
  · rintro h pre e post rfl lease id st hm hst hl l hheld
    have hinv := Inv.after pre
    have hacc := LeaseAccounted.after (VacancySettled.of_append h) id l hheld
    cases apply_decomposes hinv e with
    | ignored _ hr => simp [hr] at hm
    | acts id₀ hs =>
        obtain ⟨key, rfl, hst', hcase⟩ := hs.slot.connectTarget_mem hm
        rw [after_concat] at hst
        obtain rfl := (hinv.apply e).unique id id₀ st _ hst hst' hl
        rcases hcase with ⟨rfl, rfl, hnone⟩ | ⟨old, rfl, hclosing⟩
        · rcases hacc with ⟨t, ht, -⟩ | hf | ⟨-, hd⟩
          · rw [hnone] at ht; cases ht
          · exact hf.mono _
          · exact (h pre key post rfl hnone l hd).mono _
        · rcases hacc with ⟨t, ht, htl⟩ | hf | ⟨hnone, -⟩
          · -- 追い越された lease は、この `LeaseStopped` 自身が終わりを告げている。
            obtain rfl := Option.some.inj (hclosing.symm.trans ht)
            exact ⟨.leaseStopped old, by simp, htl⟩
          · exact hf.mono _
          · rw [hclosing] at hnone; cases hnone

/-- CANCEL は片付けを待たずに slot を空けるので、直後の HELLO が 2 つ目の接続を始める。 -/
theorem not_atMostOneLive_cancel : ¬ ∀ es : List AttachEvent, AtMostOneLive es := by
  intro h
  let key (g : UInt64) : AttachKey := ⟨.fill 16 1, g, .fill 16 2⟩
  obtain ⟨e, he, hf⟩ := h [.helloReceived (key 0), .cancelReceived (key 0), .helloReceived (key 1)]
    [.helloReceived (key 0), .cancelReceived (key 0)] (.helloReceived (key 1)) [] rfl ⟨1⟩ (.fill 16 1)
    (.connecting (key 1) ⟨1⟩) (by decide) (by decide) rfl ⟨0⟩
    ⟨[.helloReceived (key 0)], [.cancelReceived (key 0)], .connecting (key 0) ⟨0⟩, rfl, by decide, rfl⟩
  simp only [List.mem_append, List.mem_cons, List.not_mem_nil, or_false] at he
  rcases he with (rfl | rfl) | rfl <;> exact hf.elim

/-! ## 中継の開始 -/

/-- `StartRelay` は lease ごとに高々 1 回、承認待ちの鍵と token を持つ `Activated` だけが出す。その承認待ちは
同じ鍵と token の `SendReady` に由来し、間に追い越しも取り消しも期限切れも無い。中継の間、slot は
`Established` のままで、同じ session のほかの `Activated` は何も起こさない。 -/
theorem startRelay_exclusive (es : List AttachEvent) :
    ((Reducer.outputs AttachArbiter.apply .new es).filterMap AttachEffect.relayLease).Nodup ∧
    (∀ pre e post, es = pre ++ e :: post → ∀ lease target,
      .startRelay lease target ∈ ((after pre).apply e).2 →
        ∃ key token, e = .activated key token ∧ Authorized pre key lease token target ∧
          ∀ mid post', post = mid ++ post' → .relayEnded lease ∉ mid →
            (after (pre ++ e :: mid)).stateFor key.sessionId = some (.established key lease) ∧
            ∀ key' token', key'.sessionId = key.sessionId →
              (after (pre ++ e :: mid)).apply (.activated key' token') = (after (pre ++ e :: mid), [])) ∧
    (∀ pre key token post, es = pre ++ .activated key token :: post →
      (after pre).apply (.activated key token) = (after pre, []) ∨
        ∃ lease target, Authorized pre key lease token target ∧
          ((after pre).apply (.activated key token)).2 = [.startRelay lease target]) := by
  refine ⟨(relayLeases_nodup es).1, ?_, ?_⟩
  · rintro pre e post - lease target hm
    obtain ⟨key, token, rfl, hst, hst', -⟩ := startRelay_apply (Inv.after pre) hm
    refine ⟨key, token, rfl, authorized_of_pendingActivation pre hst, ?_⟩
    rintro mid post' - hmid
    have hest : (after (pre ++ .activated key token :: mid)).stateFor key.sessionId =
        some (.established key lease) := by
      rw [after_append]
      exact established_run ((Inv.after pre).apply _) hst' hmid
    refine ⟨hest, ?_⟩
    intro key' token' hsid
    simp only [AttachArbiter.apply, onActivated, hsid, hest]
  · rintro pre key token post -
    cases apply_decomposes (Inv.after pre) (.activated key token) with
    | ignored _ hr => exact Or.inl hr
    | acts id hs =>
        obtain ⟨lease, target, hst, heffs⟩ := hs.slot.activated
        exact Or.inr ⟨lease, target, authorized_of_pendingActivation pre hst, heffs⟩

end AttachArbiter

namespace ServeAggregate

/-! ## 索引と slot -/

/-- どの実行の後でも、索引の項目と `Established` の slot は同じ lease で一致し、resume できない項目は park されず、
slot は容量を超えず、lease は一意で割り当て済みである。したがって、どのイベントも resume できない登録をせず、
承認は何も捨てない。 -/
theorem structure_invariant (maxSessions : Nat) (es : List ServeEvent) :
    (∀ id lease, (∃ entry, (after maxSessions es).indexEntry id = some entry ∧ entry.lease = lease) ↔
      ∃ key, (after maxSessions es).arbiter.stateFor id = some (.established key lease)) ∧
    (∀ id entry, (after maxSessions es).indexEntry id = some entry →
      ¬ (entry.unresumable = true ∧ entry.parkedSince.isSome = true)) ∧
    (after maxSessions es).arbiter.sessionCount ≤ maxSessions ∧
    (∀ id id' st st', (after maxSessions es).arbiter.stateFor id = some st →
      (after maxSessions es).arbiter.stateFor id' = some st' → st.lease = st'.lease → id = id') ∧
    (∀ id st, (after maxSessions es).arbiter.stateFor id = some st →
      st.lease.raw < (after maxSessions es).arbiter.nextLease) ∧
    (∀ e id lease, .registerIo id lease true ∉ ((after maxSessions es).apply e).2) ∧
    (∀ key token grace id lease cause,
      .discard id lease cause ∉ ((after maxSessions es).apply (.activated key token grace)).2) := by
  have h := Inv.after maxSessions es
  refine ⟨h.coupled, h.parkable, ?_, h.arbiter.unique, h.arbiter.fresh, ?_, ?_⟩
  · exact h.capacity.trans_eq (maxSessions_run (Inv.new maxSessions) es)
  · exact registerIo_notMem_apply h
  · intro key token grace id lease cause hm
    rcases onActivated_cases h key token grace with heq | ⟨l, target, -, heq⟩ <;>
      simp [ServeAggregate.apply, heq] at hm

/-! ## 古い事実 -/

/-- 現在の lease を運ばない事実は、どの状態でも作用を出さず、何も変えない。slot を離れた lease を運ぶ事実は、
同じ session が新しい lease で確立し直した後も、二度と何も変えない。 -/
theorem stale_inert (maxSessions : Nat) (es : List ServeEvent) :
    (∀ e, ¬ (after maxSessions es).Current e →
      (after maxSessions es).apply e = (after maxSessions es, [])) ∧
    (∀ pre mid post id st e, es = pre ++ mid ++ post →
      (after maxSessions pre).arbiter.stateFor id = some st →
      (∀ st', (after maxSessions (pre ++ mid)).arbiter.stateFor id = some st' → st'.lease ≠ st.lease) →
      e.lease? = some st.lease → (after maxSessions es).apply e = (after maxSessions es, [])) := by
  have h := Inv.after maxSessions es
  refine ⟨fun e hn => apply_of_not_current h hn, ?_⟩
  rintro pre mid post id st e rfl hst hleft he
  exact apply_of_not_current h (not_current_of_retired h (retired_of_left hst hleft) he)

/-! ## slot は漏れない -/

/-- どの実行の後でも、保持している lease の完了の事実だけを続ければ、slot も索引も空になる。新しい要求は要らず、
要する事実は slot 1 つにつき高々 2 つである。 -/
theorem drains (maxSessions : Nat) (es : List ServeEvent) :
    ∃ es' agg', Completion (after maxSessions es) es' agg' ∧ agg' = after maxSessions (es ++ es') ∧
      es'.length ≤ 2 * (after maxSessions es).arbiter.sessionCount ∧
      agg'.arbiter.sessions = ∅ ∧ agg'.index = ∅ := by
  have h := Inv.after maxSessions es
  obtain ⟨es', agg', hrun, hlen, hempty⟩ := h.drain rfl
  have hagg : agg' = after maxSessions (es ++ es') := by
    rw [hrun.run, after, after, Reducer.run_append]
  exact ⟨es', agg', hrun, hagg, hlen, hempty, (hrun.inv h).index_empty hempty⟩

/-! ## park されたソケット -/

/-- どの lease についても、ソケットの登録は最初の 1 回だけで、再開と再開の間には必ず park があり、再開は最後の
持ち主が park だったときに限り、捨てた後には何も無い。期限切れと立ち退きが再開の後に起こるには、
もう一度 park されていなければならない。 -/
theorem parkedSocket_linear (maxSessions : Nat) (es : List ServeEvent) (lease : LeaseId) :
    (socketEvents maxSessions es lease = [] ∨
      ∃ rest, socketEvents maxSessions es lease = .register :: rest ∧ .register ∉ rest) ∧
    (∀ pre mid post, socketEvents maxSessions es lease =
      pre ++ .resumeGranted :: (mid ++ .resumeGranted :: post) → .storeParked ∈ mid) ∧
    (∀ pre post, socketEvents maxSessions es lease = pre ++ .resumeGranted :: post →
      (pre.filter SocketEvent.Owns).getLast? = some .storeParked) ∧
    (∀ pre cause post, socketEvents maxSessions es lease = pre ++ .discard cause :: post → post = []) ∧
    (∀ pre mid cause post, socketEvents maxSessions es lease =
      pre ++ .resumeGranted :: (mid ++ .discard cause :: post) →
        cause.ofParked = true → .storeParked ∈ mid) := by
  obtain ⟨y, hacc⟩ := socketEvents_accepted maxSessions es lease
  generalize socketEvents maxSessions es lease = evs at hacc
  -- 再開の直前は park、直後は中継中である。
  have hgrant : ∀ pre post, evs = pre ++ .resumeGranted :: post →
      SocketPhase.unregistered.Accepts pre .parked ∧ SocketPhase.active.Accepts post y := by
    rintro pre post rfl
    obtain ⟨x, hpre, h⟩ := SocketPhase.Accepts.append_iff.mp hacc
    obtain ⟨z, hz, hpost⟩ := SocketPhase.Accepts.cons_iff.mp h
    obtain ⟨rfl, rfl⟩ := SocketPhase.step_resumeGranted hz
    exact ⟨hpre, hpost⟩
  refine ⟨?_, ?_, ?_, ?_, ?_⟩
  · cases evs with
    | nil => exact Or.inl rfl
    | cons ev rest =>
        obtain ⟨z, hz, hrest⟩ := SocketPhase.Accepts.cons_iff.mp hacc
        have hev : ev = .register := by cases ev <;> first | rfl | cases hz
        subst hev
        exact Or.inr ⟨rest, rfl, hrest.register_notMem (SocketPhase.step_registered hz)⟩
  · intro pre mid post hevs
    by_contra hmid
    obtain ⟨x, hacc', h⟩ := SocketPhase.Accepts.append_iff.mp (hgrant pre _ hevs).2
    obtain ⟨z, hz, -⟩ := SocketPhase.Accepts.cons_iff.mp h
    exact hacc'.not_parked (by simp) hmid (SocketPhase.step_resumeGranted hz).1
  · intro pre post hevs
    exact (hgrant pre post hevs).1.last_storeParked rfl
  · rintro pre cause post rfl
    obtain ⟨x, -, h⟩ := SocketPhase.Accepts.append_iff.mp hacc
    obtain ⟨z, hz, hpost⟩ := SocketPhase.Accepts.cons_iff.mp h
    obtain ⟨rfl, -⟩ := SocketPhase.step_discard hz
    exact hpost.of_discarded
  · intro pre mid cause post hevs hcause
    by_contra hmid
    obtain ⟨x, hacc', h⟩ := SocketPhase.Accepts.append_iff.mp (hgrant pre _ hevs).2
    obtain ⟨z, hz, -⟩ := SocketPhase.Accepts.cons_iff.mp h
    exact hacc'.not_parked (by simp) hmid ((SocketPhase.step_discard hz).2 hcause)

/-! ## 期限切れと立ち退き -/

/-- どの実行の後でも、sweep は締切に達した parked の session をちょうど 1 回ずつ、slot とともに除き、ほかには触れない。
slot を持つ session か空きの在るときの承認は、何も除かず索引も変えない。満杯のときの新しい session の承認は、最古の
parked の session 1 つを除いて接続を 1 つ始め、parked が無ければ断るだけで何も変えない。中継中の session は、
どのイベントでも期限切れや立ち退きにならない。 -/
theorem sweep_and_admission (maxSessions : Nat) (es : List ServeEvent) :
    (∀ now maxParked, ∃ ids, ids.Nodup ∧ (∀ id, id ∈ ids ↔ (after maxSessions es).Overdue now maxParked id) ∧
      (after maxSessions es).Removed ids .expired ((after maxSessions es).apply (.sweep now maxParked))) ∧
    (∀ key, (after maxSessions es).arbiter.hasSession key.sessionId = true ∨
        (after maxSessions es).arbiter.sessionCount < maxSessions →
      (∀ id, ((after maxSessions es).apply (.admitRequested key)).1.indexEntry id =
        (after maxSessions es).indexEntry id) ∧
      ∀ id lease cause, .discard id lease cause ∉ ((after maxSessions es).apply (.admitRequested key)).2) ∧
    (∀ key, (after maxSessions es).arbiter.hasSession key.sessionId = false →
      maxSessions ≤ (after maxSessions es).arbiter.sessionCount →
        (∃ victim lease, (after maxSessions es).Replaced key victim lease
          ((after maxSessions es).apply (.admitRequested key))) ∨
        (∀ id entry, (after maxSessions es).indexEntry id = some entry → entry.parkedSince = none) ∧
          (after maxSessions es).apply (.admitRequested key) =
            (after maxSessions es, [.attach (.sendReject key .busyOtherSession)])) ∧
    (∀ e id lease cause, cause = .expired ∨ cause = .evicted →
      .discard id lease cause ∈ ((after maxSessions es).apply e).2 →
        ∃ entry, (after maxSessions es).indexEntry id = some entry ∧ entry.lease = lease ∧
          entry.parkedSince.isSome = true) := by
  have h := Inv.after maxSessions es
  have hmax : (after maxSessions es).maxSessions = maxSessions := maxSessions_run (Inv.new maxSessions) es
  refine ⟨?_, ?_, ?_, fun e id lease cause hcause hmem => parked_of_discard_mem h hcause hmem⟩
  · intro now maxParked
    exact ⟨_, expired_nodup _ now maxParked, mem_expired_iff _ now maxParked, onSweep_removed h now maxParked⟩
  · intro key hroom
    rw [ServeAggregate.apply, onAdmitRequested_of_room (hroom.imp_right fun hlt => hlt.trans_eq hmax.symm)]
    exact ⟨fun id => rfl, discard_notMem_forward _ _⟩
  · intro key hnew hfull
    exact onAdmitRequested_of_full h hnew (hmax.trans_le hfull)

end ServeAggregate

namespace AttachRuntime

/-! ## 停止を待つ session は残らない -/

/-- `cancel_lease` が、追い越された lease の `start_connect` より先に表を引かない限り、どの交互実行でも、仕事の
残っていない状態に `ClosingForSupersede` の slot は無い。途中で追い越された lease の `LeaseStopped` は、それまでに
必ず適用されている。 -/
theorem no_closing_at_quiescence {maxSessions : Nat} {pre post : List Choice} {s₁ s : AttachRuntime}
    (hpre : Run (Guarded Step CancelsAfterConnect) (new maxSessions) pre s₁)
    (hpost : Run (Guarded Step CancelsAfterConnect) s₁ post s) (hq : s.Quiescent) :
    (∀ id lease next, s.core.arbiter.stateFor id ≠ some (.closingForSupersede lease next)) ∧
      ∀ lease, s₁.core.arbiter.Closing lease → s₁.StopApplied post lease := by
  have hinv₁ : s₁.Inv := (Inv.new maxSessions).run hpre
  refine ⟨?_, fun lease hc => hinv₁.stopApplied hpost hq hc⟩
  intro id lease next hst
  exact (hinv₁.run hpost).not_closing_of_quiescent hq lease ⟨id, next, hst⟩

/-- 追い越しの実行。古い lease の接続を中断し、次の鍵の接続が確立して、timer だけが残る。 -/
theorem no_closing_after_supersede : ∃ pre post s₁ s,
    Run (Guarded Step CancelsAfterConnect) (new 8) pre s₁ ∧
    Run (Guarded Step CancelsAfterConnect) s₁ post s ∧ s₁.core.arbiter.Closing ⟨0⟩ ∧ s.Quiescent ∧
    (∀ id lease next, s.core.arbiter.stateFor id ≠ some (.closingForSupersede lease next)) ∧
    s₁.StopApplied post ⟨0⟩ := by
  let key (g : UInt64) : AttachKey := ⟨.fill 16 1, g, .fill 16 2⟩
  let pre : List Choice := [.call (.admitRequested (key 0)), .run 0, .run 0, .call (.admitRequested (key 1)), .run 2]
  let post : List Choice := [.run 2, .run 2, .kill 1, .run 2, .run 2, .run 2, .connected 3 ⟨.fill 16 3⟩, .run 3,
    .run 3, .run 3, .run 3, .run 3]
  have hguard {choices : List Choice} {s s' : AttachRuntime} (h : choices.foldlM checkedStep s = some s') :
      Run (Guarded Step CancelsAfterConnect) s choices s' :=
    (Run.of_foldlM h).mono fun _ _ _ h => guarded_of_checkedStep h
  have heval : (pre.foldlM checkedStep (new 8)).any (fun s₁ =>
      decide (s₁.core.arbiter.stateFor (.fill 16 1) = some (.closingForSupersede ⟨0⟩ (key 1))) &&
        (post.foldlM checkedStep s₁).any
          (fun s => decide (s.tasks.map Task.code = [[], [], [], [], [.sleep ⟨1⟩]]))) = true := by decide
  obtain ⟨s₁, hs₁, hrest⟩ := (Option.any_eq_true _ _).mp heval
  obtain ⟨hst, hrest⟩ := Bool.and_eq_true_iff.mp hrest
  obtain ⟨s, hs, hcodes⟩ := (Option.any_eq_true _ _).mp hrest
  have hclosing : s₁.core.arbiter.Closing ⟨0⟩ := ⟨_, _, of_decide_eq_true hst⟩
  have hq : s.Quiescent := by
    intro task htask
    have hmem : task.code ∈ s.tasks.map Task.code := List.mem_map_of_mem htask
    rw [of_decide_eq_true hcodes] at hmem
    simp only [List.mem_cons, List.not_mem_nil, or_false] at hmem
    rcases hmem with h | h | h | h | h
    · exact Or.inl h
    · exact Or.inl h
    · exact Or.inl h
    · exact Or.inl h
    · exact Or.inr ⟨_, h⟩
  obtain ⟨hnone, hstop⟩ := no_closing_at_quiescence (hguard hs₁) (hguard hs) hq
  exact ⟨pre, post, s₁, s, hguard hs₁, hguard hs, hclosing, hq, hnone, hstop _ hclosing⟩

/-- 2 つ目の HELLO のタスクが、1 つ目の `start_connect` より先に `cancel_lease` を終える。表に項目が無いので
`LeaseStopped` は誰も適用せず、後から始まった接続の結果は古い事実として捨てられる。 -/
theorem not_no_closing_late_connect : ¬ ∀ (maxSessions : Nat) (choices : List Choice) (s : AttachRuntime),
    Run Step (new maxSessions) choices s → s.Quiescent →
      ∀ id lease next, s.core.arbiter.stateFor id ≠ some (.closingForSupersede lease next) := by
  intro h
  let key (g : UInt64) : AttachKey := ⟨.fill 16 1, g, .fill 16 2⟩
  let choices : List Choice :=
    [.call (.admitRequested (key 0)), .run 0, .call (.admitRequested (key 1)), .run 1, .run 1, .run 1,
      .run 0, .connected 2 ⟨.fill 16 3⟩, .run 2, .run 2]
  have heval : (choices.foldlM step (new 8)).any
      (fun s => decide (s.tasks.map Task.code = [[], [], []] ∧
        s.core.arbiter.stateFor (.fill 16 1) = some (.closingForSupersede ⟨0⟩ (key 1)))) = true := by decide
  obtain ⟨s, hs, hend⟩ := (Option.any_eq_true _ _).mp heval
  obtain ⟨hcodes, hst⟩ := of_decide_eq_true hend
  refine h 8 choices s (Run.of_foldlM hs) ?_ _ _ _ hst
  intro task htask
  have hmem : task.code ∈ s.tasks.map Task.code := List.mem_map_of_mem htask
  rw [hcodes] at hmem
  simp only [List.mem_cons, List.not_mem_nil, or_false, or_self] at hmem
  exact Or.inl hmem

end AttachRuntime

end IsekaiTerminal.Serve
