import IsekaiTerminal.Mux.Holder

/-!
# holder の不変条件
-/

namespace IsekaiTerminal.Mux

open Lib

variable {w w' : Holder} {s : Select} {i : Nat}

namespace Holder

/-! ## 1 歩の形 -/

inductive Stepped (w : Holder) : HolderAction → Holder → Prop
  | elapse (d : Nat) : Stepped w (.elapse d) { w with now := w.now + d }
  | connect : Stepped w .connect { w with arrivals := w.arrivals + 1 }
  | closeHandle : Stepped w .closeHandle { w with handleClosed := true }
  | openFailed {i : Nat} {chain : List Cause} (h : w.tasks[i]? = some .serving) :
      Stepped w (.openFailed i chain) (w.openFailed i chain)
  | relayEnded {i : Nat} {transportDead : Bool} (h : w.tasks[i]? = some .serving) :
      Stepped w (.relayEnded i transportDead)
        (w.setTask i (if transportDead && w.handleClosed then .signalling else .leaving))
  | signal {i : Nat} (h : w.tasks[i]? = some .signalling) : Stepped w (.signal i) (w.notifyWaiters.setTask i .leaving)
  | leave {i : Nat} (h : w.tasks[i]? = some .leaving) :
      Stepped w (.leave i) { w.setTask i .notifying with
        activeClients := w.activeClients - 1
        zeroSince := if w.activeClients = 1 then some w.now else none }
  | notifyLeft {i : Nat} (h : w.tasks[i]? = some .notifying) :
      Stepped w (.notifyLeft i) { w.setTask i .done with countChanged := true }
  | listen (h : w.serve = .looping) :
      Stepped w .listen (w.setSelect ⟨graceFor w.everServed, w.now, false, .loading⟩)
  | countUp (h : w.serve = .accepted) :
      Stepped w .countUp
        { w with serve := .counted, everServed := true, activeClients := w.activeClients + 1, zeroSince := none }
  | notifyCount (h : w.serve = .counted) : Stepped w .notifyCount { w with serve := .notified, countChanged := true }
  | spawn (h : w.serve = .notified) : Stepped w .spawn { w with serve := .looping, tasks := w.tasks ++ [.serving] }
  | acceptFailed {s : Select} (h : w.serve = .selecting s) : Stepped w .acceptFailed { w with serve := .returned none }
  | accept {s : Select} (h : w.serve = .selecting s) (hpos : 0 < w.arrivals) :
      Stepped w .accept { w with serve := .accepted, arrivals := w.arrivals - 1 }
  | died {s : Select} (h : w.serve = .selecting s) (hclosed : w.handleClosed = true) : Stepped w .checkHandle w.returnOk
  | alive {s : Select} (h : w.serve = .selecting s) (hdue : s.checkAt ≤ w.now) (hopen : w.handleClosed = false) :
      Stepped w .checkHandle (w.setSelect { s with checkAt := w.now + handleHealthPollInterval })
  | observeShutdown {s : Select} (h : w.serve = .selecting s) (hflag : s.shutdown = true) :
      Stepped w .observeShutdown w.returnOk
  | loadCount {s : Select} (h : w.serve = .selecting s) (hidle : s.idle = .loading) :
      Stepped w .loadCount
        (w.setSelect { s with idle := if 0 < w.activeClients then .waiting else .sleeping (w.now + s.grace) })
  | takeCountChanged {s : Select} (h : w.serve = .selecting s) (hidle : s.idle ≠ .loading)
      (hchanged : w.countChanged = true) :
      Stepped w .takeCountChanged { w.setSelect { s with idle := .loading } with countChanged := false }
  | expire {s : Select} {deadline : Nat} (h : w.serve = .selecting s) (hidle : s.idle = .sleeping deadline)
      (hle : deadline ≤ w.now) : Stepped w .expire w.returnOk

theorem stepped_of_serveStep {a : HolderAction} (h : w.serveStep a = some w') : Stepped w a w' := by
  cases hserve : w.serve with
  | selecting s =>
      cases a with
      | listen | countUp | notifyCount | spawn => simp [serveStep, hserve] at h
      | acceptFailed =>
          simp only [serveStep, hserve] at h
          cases h
          exact .acceptFailed hserve
      | accept =>
          simp only [serveStep, hserve, Option.ite_none_right_eq_some] at h
          obtain ⟨hpos, h⟩ := h
          cases h
          exact .accept hserve hpos
      | checkHandle =>
          simp only [serveStep, hserve, Option.ite_none_right_eq_some] at h
          obtain ⟨hdue, h⟩ := h
          cases hclosed : w.handleClosed with
          | true =>
              rw [hclosed, if_pos rfl] at h
              cases h
              exact .died hserve hclosed
          | false =>
              rw [hclosed, if_neg Bool.false_ne_true] at h
              cases h
              exact .alive hserve hdue hclosed
      | observeShutdown =>
          simp only [serveStep, hserve, Option.ite_none_right_eq_some] at h
          obtain ⟨hflag, h⟩ := h
          cases h
          exact .observeShutdown hserve hflag
      | loadCount =>
          simp only [serveStep, hserve, Option.ite_none_right_eq_some] at h
          obtain ⟨hidle, h⟩ := h
          cases h
          exact .loadCount hserve hidle
      | takeCountChanged =>
          simp only [serveStep, hserve, Option.ite_none_right_eq_some] at h
          obtain ⟨⟨hidle, hchanged⟩, h⟩ := h
          cases h
          exact .takeCountChanged hserve hidle hchanged
      | expire =>
          simp only [serveStep, hserve] at h
          split at h
          · rename_i deadline hidle
            obtain ⟨hle, h⟩ := Option.ite_none_right_eq_some.mp h
            cases h
            exact .expire hserve hidle hle
          · cases h
          · cases h
      | elapse _ | connect | closeHandle | openFailed _ _ | relayEnded _ _ | signal _ | leave _ | notifyLeft _ =>
          simp [serveStep, hserve] at h
  | looping =>
      cases a with
      | listen =>
          simp only [serveStep, hserve, if_true] at h
          cases h
          exact .listen hserve
      | _ => simp [serveStep, hserve] at h
  | accepted =>
      cases a with
      | countUp =>
          simp only [serveStep, hserve, if_true] at h
          cases h
          exact .countUp hserve
      | _ => simp [serveStep, hserve] at h
  | counted =>
      cases a with
      | notifyCount =>
          simp only [serveStep, hserve, if_true] at h
          cases h
          exact .notifyCount hserve
      | _ => simp [serveStep, hserve] at h
  | notified =>
      cases a with
      | spawn =>
          simp only [serveStep, hserve, if_true] at h
          cases h
          exact .spawn hserve
      | _ => simp [serveStep, hserve] at h
  | returned e => cases a <;> simp [serveStep, hserve] at h

theorem stepped_of_taskStep {a : HolderAction} (h : w.taskStep a = some w') : Stepped w a w' := by
  cases a with
  | openFailed i chain =>
      obtain ⟨htask, h⟩ := Option.ite_none_right_eq_some.mp h
      cases h
      exact .openFailed htask
  | relayEnded i transportDead =>
      obtain ⟨htask, h⟩ := Option.ite_none_right_eq_some.mp h
      cases h
      exact .relayEnded htask
  | signal i =>
      obtain ⟨htask, h⟩ := Option.ite_none_right_eq_some.mp h
      cases h
      exact .signal htask
  | leave i =>
      obtain ⟨htask, h⟩ := Option.ite_none_right_eq_some.mp h
      cases h
      exact .leave htask
  | notifyLeft i =>
      obtain ⟨htask, h⟩ := Option.ite_none_right_eq_some.mp h
      cases h
      exact .notifyLeft htask
  | _ => cases h

theorem stepped_of_step {a : HolderAction} (h : w.Steps a w') : Stepped w a w' := by
  cases a with
  | elapse d =>
      cases h
      exact .elapse d
  | connect =>
      cases h
      exact .connect
  | closeHandle =>
      cases h
      exact .closeHandle
  | openFailed _ _ | relayEnded _ _ | signal _ | leave _ | notifyLeft _ => exact stepped_of_taskStep h
  | acceptFailed | accept | countUp | notifyCount | spawn | listen | checkHandle | observeShutdown | loadCount
  | takeCountChanged | expire => exact stepped_of_serveStep h

/-! ## 不変条件 -/

/-- `select!` の future の状態。眠っている間は、猶予の始まりからずっとクライアントがいない。 -/
structure Watched (w : Holder) (s : Select) : Prop where
  grace : s.grace = graceFor w.everServed
  flagged : s.shutdown = true → w.handleClosed = true ∨ w.deadOpen = true
  sleeping : ∀ d, s.idle = .sleeping d →
    w.activeClients = 0 ∧ ∃ z, w.zeroSince = some z ∧ z + graceFor w.everServed ≤ d
  waiting : s.idle = .waiting → w.activeClients = 0 → w.countChanged = true ∨ ∃ i : Nat, w.tasks[i]? = some .notifying

structure HolderInv (w : Holder) : Prop where
  count : w.activeClients = w.tasks.countP Phase.isCounted + w.serve.isCounting.toNat
  told : ∀ i : Nat, w.tasks[i]? = some .signalling → w.handleClosed = true ∨ w.deadOpen = true
  zero : w.activeClients = 0 → ∃ z, w.zeroSince = some z ∧ z ≤ w.now
  watched : ∀ s, w.serve = .selecting s → Watched w s
  justified : ∀ e, w.serve = .returned (some e) → e.Justified

theorem HolderInv.start : HolderInv start where
  count := rfl
  told := by
    intro i h
    cases h
  zero _ := ⟨0, rfl, le_rfl⟩
  watched := by
    intro s h
    cases h
  justified := by
    intro e h
    cases h

/-- 数と履歴が同じで、通知が残る限り、future の状態は保たれる。 -/
theorem Watched.of_same (h : Watched w s) (hserved : w'.everServed = w.everServed)
    (hclosed : w.handleClosed = true → w'.handleClosed = true) (hdead : w.deadOpen = true → w'.deadOpen = true)
    (hclients : w'.activeClients = w.activeClients) (hzero : w'.zeroSince = w.zeroSince)
    (hchanged : w.countChanged = true → w'.countChanged = true)
    (htasks : ∀ i : Nat, w.tasks[i]? = some .notifying → w'.tasks[i]? = some .notifying ∨ w'.countChanged = true) :
    Watched w' s where
  grace := by
    rw [hserved]
    exact h.grace
  flagged hflag := (h.flagged hflag).imp hclosed hdead
  sleeping := by
    rw [hclients, hzero, hserved]
    exact h.sleeping
  waiting := by
    rw [hclients]
    intro hidle hnone
    rcases h.waiting hidle hnone with hset | ⟨i, hi⟩
    · exact Or.inl (hchanged hset)
    · rcases htasks i hi with hi | hset
      · exact Or.inr ⟨i, hi⟩
      · exact Or.inl hset

/-! ## タスクの 1 歩 -/

/-- 数えられたかどうかが変わらないタスク。 -/
theorem HolderInv.count_setTask (h : HolderInv w) {p q : Phase} (hi : w.tasks[i]? = some p)
    (hsame : q.isCounted = p.isCounted) :
    w.activeClients = (w.setTask i q).tasks.countP Phase.isCounted + w.serve.isCounting.toNat := by
  have htasks : (w.setTask i q).tasks.countP Phase.isCounted = w.tasks.countP Phase.isCounted :=
    countP_set_of_eq hi hsame
  rw [htasks]
  exact h.count

theorem signalling_of_setTask {p : Phase} {j : Nat} (hj : (w.setTask i p).tasks[j]? = some .signalling) :
    p = .signalling ∨ w.tasks[j]? = some .signalling := by
  rcases getElem?_set_cases hj with ⟨_, heq⟩ | ⟨_, hold⟩
  · exact Or.inl heq.symm
  · exact Or.inr hold

theorem notifying_setTask {p q : Phase} {j : Nat} (hi : w.tasks[i]? = some p) (hp : p ≠ .notifying)
    (hj : w.tasks[j]? = some .notifying) : (w.setTask i q).tasks[j]? = some .notifying := by
  have hne : j ≠ i := by
    rintro rfl
    exact hp (Option.some.inj (hi.symm.trans hj))
  rw [setTask, List.getElem?_set_ne (Ne.symm hne)]
  exact hj

/-- 数を変えないタスクの 1 歩。 -/
theorem HolderInv.setTask (h : HolderInv w) {p q : Phase} {dead : Bool} (hi : w.tasks[i]? = some p)
    (hp : p ≠ .notifying) (hsame : q.isCounted = p.isCounted)
    (htold : q = .signalling → w.handleClosed = true ∨ dead = true) (hdead : w.deadOpen = true → dead = true) :
    HolderInv { w.setTask i q with deadOpen := dead } where
  count := h.count_setTask hi hsame
  told := by
    intro j hj
    rcases signalling_of_setTask hj with hq | hold
    · exact htold hq
    · exact (h.told j hold).imp_right hdead
  zero := h.zero
  watched s hs :=
    (h.watched s hs).of_same rfl id hdead rfl rfl id fun _ hj => Or.inl (notifying_setTask hi hp hj)
  justified := h.justified

theorem HolderInv.notifyWaiters (h : HolderInv w) (htold : w.handleClosed = true ∨ w.deadOpen = true) :
    HolderInv w.notifyWaiters := by
  rw [Holder.notifyWaiters]
  split
  · rename_i s hserve
    have hwatched := h.watched s hserve
    refine ⟨?_, h.told, h.zero, ?_, ?_⟩
    · have hcount := h.count
      rw [hserve] at hcount
      exact hcount
    · intro s' hs'
      cases hs'
      exact ⟨hwatched.grace, fun _ => htold, hwatched.sleeping, hwatched.waiting⟩
    · intro e he
      cases he
  · exact h

theorem notifyWaiters_tasks (w : Holder) :
    w.notifyWaiters.tasks = w.tasks ∧ w.notifyWaiters.deadOpen = w.deadOpen ∧
      w.notifyWaiters.handleClosed = w.handleClosed := by
  rw [notifyWaiters]
  split <;> exact ⟨rfl, rfl, rfl⟩

/-- 数えられたタスクが抜ける。 -/
theorem HolderInv.leave (h : HolderInv w) (hi : w.tasks[i]? = some .leaving) :
    HolderInv { w.setTask i .notifying with
      activeClients := w.activeClients - 1
      zeroSince := if w.activeClients = 1 then some w.now else none } := by
  have hadd : (w.setTask i .notifying).tasks.countP Phase.isCounted + 1 = w.tasks.countP Phase.isCounted :=
    countP_set_add (b := Phase.notifying) Phase.isCounted hi
  have hcount := h.count
  refine ⟨?_, ?_, ?_, ?_, h.justified⟩
  · change w.activeClients - 1 = (w.setTask i .notifying).tasks.countP Phase.isCounted + w.serve.isCounting.toNat
    omega
  · intro j hj
    rcases signalling_of_setTask hj with hq | hold
    · cases hq
    · exact h.told j hold
  · intro hnone
    have hone : w.activeClients = 1 := by
      change w.activeClients - 1 = 0 at hnone
      omega
    exact ⟨w.now, if_pos hone, le_rfl⟩
  · intro s hs
    have hwatched := h.watched s hs
    refine ⟨hwatched.grace, hwatched.flagged, ?_, ?_⟩
    · -- 眠っている間は、数えられたタスクが無い。
      intro d hidle
      have hzero := (hwatched.sleeping d hidle).1
      omega
    · intro _ _
      exact Or.inr ⟨i, getElem?_set_self_of_some hi⟩

theorem HolderInv.notifyLeft (h : HolderInv w) (hi : w.tasks[i]? = some .notifying) :
    HolderInv { w.setTask i .done with countChanged := true } where
  count := h.count_setTask hi rfl
  told := by
    intro j hj
    rcases signalling_of_setTask hj with hq | hold
    · cases hq
    · exact h.told j hold
  zero := h.zero
  watched s hs :=
    (h.watched s hs).of_same rfl id id rfl rfl (fun _ => rfl) fun _ _ => Or.inr rfl
  justified := h.justified

/-! ## `serve_clients` の 1 歩 -/

/-- future を作り直すか、future の 1 つだけが進む。 -/
theorem HolderInv.setSelect (h : HolderInv w) (hserve : w.serve.isCounting = false) (hs : Watched w s) :
    HolderInv (w.setSelect s) where
  count := by
    have hcount := h.count
    rw [hserve] at hcount
    exact hcount
  told := h.told
  zero := h.zero
  watched := by
    rintro s' ⟨⟩
    exact ⟨hs.grace, hs.flagged, hs.sleeping, hs.waiting⟩
  justified := by
    intro e he
    cases he

theorem HolderInv.returnOk (h : HolderInv w) (hs : w.serve = .selecting s) (hjustified : w.exit.Justified) :
    HolderInv w.returnOk where
  count := by
    have hcount := h.count
    rw [hs] at hcount
    exact hcount
  told := h.told
  zero := h.zero
  watched := by
    intro s' hs'
    cases hs'
  justified := by
    rintro e ⟨⟩
    exact hjustified

/-- future を捨てる。 -/
theorem HolderInv.drop (h : HolderInv w) {serve : Serve} {arrivals : Nat} (hs : w.serve = .selecting s)
    (hserve : serve = .accepted ∨ serve = .returned none) : HolderInv { w with serve, arrivals } := by
  have hcount := h.count
  rw [hs] at hcount
  refine ⟨?_, h.told, h.zero, ?_, ?_⟩
  · rcases hserve with rfl | rfl <;> exact hcount
  · intro s' hs'
    rcases hserve with rfl | rfl <;> cases hs'
  · intro e he
    rcases hserve with rfl | rfl <;> cases he

theorem HolderInv.step {a : HolderAction} (h : HolderInv w) (hs : w.Steps a w') : HolderInv w' := by
  cases stepped_of_step hs with
  | elapse d =>
      refine ⟨h.count, h.told, ?_, ?_, h.justified⟩
      · intro hnone
        obtain ⟨z, hz, hle⟩ := h.zero hnone
        exact ⟨z, hz, hle.trans (Nat.le_add_right _ _)⟩
      · intro s hs
        exact (h.watched s hs).of_same rfl id id rfl rfl id fun _ hj => Or.inl hj
  | connect =>
      exact ⟨h.count, h.told, h.zero, fun s hs => (h.watched s hs).of_same rfl id id rfl rfl id fun _ hj => Or.inl hj,
        h.justified⟩
  | closeHandle =>
      refine ⟨h.count, fun _ _ => Or.inl rfl, h.zero, ?_, h.justified⟩
      intro s hs
      exact (h.watched s hs).of_same rfl (fun _ => rfl) id rfl rfl id fun _ hj => Or.inl hj
  | @openFailed i chain hi =>
      refine h.setTask hi (by simp) ?_ ?_ ?_
      · split <;> rfl
      · cases channelOpenFailureImpliesDeadHandle chain <;> cases w.handleClosed <;> simp
      · intro hdead
        simp [hdead]
  | @relayEnded i transportDead hi =>
      refine h.setTask hi (by simp) ?_ ?_ id
      · split <;> rfl
      · cases transportDead <;> cases w.handleClosed <;> simp
  | @signal i hi =>
      have htasks := notifyWaiters_tasks w
      refine (h.notifyWaiters (h.told i hi)).setTask (p := .signalling) (by rw [htasks.1]; exact hi) (by simp) rfl ?_ id
      intro hq
      cases hq
  | leave hi => exact h.leave hi
  | notifyLeft hi => exact h.notifyLeft hi
  | listen hserve =>
      refine h.setSelect (by rw [hserve]; rfl) ⟨rfl, ?_, ?_, ?_⟩
      · intro hflag
        cases hflag
      · intro d hidle
        cases hidle
      · intro hidle
        cases hidle
  | countUp hserve =>
      have hcount := h.count
      rw [hserve] at hcount
      refine ⟨?_, h.told, ?_, ?_, ?_⟩
      · exact congrArg (· + 1) hcount
      · intro hnone
        cases hnone
      · intro s hs
        cases hs
      · intro e he
        cases he
  | notifyCount hserve =>
      have hcount := h.count
      rw [hserve] at hcount
      refine ⟨hcount, h.told, h.zero, ?_, ?_⟩
      · intro s hs
        cases hs
      · intro e he
        cases he
  | spawn hserve =>
      have hcount := h.count
      rw [hserve] at hcount
      refine ⟨?_, ?_, h.zero, ?_, ?_⟩
      · change w.activeClients = (w.tasks ++ [Phase.serving]).countP Phase.isCounted + 0
        rw [List.countP_append]
        exact hcount
      · intro j hj
        rcases getElem?_concat_cases hj with hj | ⟨_, heq⟩
        · exact h.told j hj
        · cases heq
      · intro s hs
        cases hs
      · intro e he
        cases he
  | acceptFailed hserve => exact h.drop hserve (Or.inr rfl)
  | accept hserve _ => exact h.drop hserve (Or.inl rfl)
  | died hserve hclosed => exact h.returnOk hserve (Or.inl hclosed)
  | @alive s hserve _ _ =>
      have hwatched := h.watched s hserve
      exact h.setSelect (by rw [hserve]; rfl) ⟨hwatched.grace, hwatched.flagged, hwatched.sleeping, hwatched.waiting⟩
  | @observeShutdown s hserve hflag =>
      have hreason := (h.watched s hserve).flagged hflag
      exact h.returnOk hserve (hreason.imp_right Or.inl)
  | @loadCount s hserve _ =>
      have hwatched := h.watched s hserve
      refine h.setSelect (by rw [hserve]; rfl) ⟨hwatched.grace, hwatched.flagged, ?_, ?_⟩
      · intro d hidle
        rcases Nat.eq_zero_or_pos w.activeClients with hnone | hpos
        · obtain ⟨z, hz, hle⟩ := h.zero hnone
          simp only [hnone, lt_irrefl, if_false, Idle.sleeping.injEq] at hidle
          refine ⟨hnone, z, hz, ?_⟩
          rw [← hidle, hwatched.grace]
          exact Nat.add_le_add_right hle _
        · simp [hpos] at hidle
      · intro hidle hnone
        simp [hnone] at hidle
  | @takeCountChanged s hserve _ _ =>
      have hwatched := h.watched s hserve
      have hinv : HolderInv (w.setSelect { s with idle := .loading }) := by
        refine h.setSelect (by rw [hserve]; rfl) ⟨hwatched.grace, hwatched.flagged, ?_, ?_⟩
        · intro d hidle
          cases hidle
        · intro hidle
          cases hidle
      refine ⟨hinv.count, hinv.told, hinv.zero, ?_, hinv.justified⟩
      rintro s' ⟨⟩
      refine ⟨hwatched.grace, hwatched.flagged, ?_, ?_⟩
      · intro d hidle
        cases hidle
      · intro hidle
        cases hidle
  | @expire s deadline hserve hidle hle =>
      obtain ⟨_, z, hz, hgrace⟩ := (h.watched s hserve).sleeping deadline hidle
      exact h.returnOk hserve (Or.inr (Or.inr ⟨z, hz, hgrace.trans hle⟩))

theorem holderInv_of_run {as : List HolderAction} (h : Run Steps start as w) : HolderInv w :=
  Run.invariant (fun _ _ _ hinv hs => hinv.step hs) h .start

end Holder

end IsekaiTerminal.Mux
