import IsekaiTerminal.Orchestrator.Lemmas.Transfer

/-!
# trzsz の転送の操作

行き違いのない操作と呼び出しは、どれも勘定の不変条件を保つ。
-/

namespace IsekaiTerminal.Orchestrator.Transfer

open Lib

variable {s s' : Shared} {op : Op} {ops new rest : List Op} {key : Key} {k : Choice}

/-! ## session の差し替え -/

/-- 転送の状態に触れない操作。 -/
theorem Inv.control (h : Inv s (op :: rest)) (hthreads : Threads s' (new ++ rest)) (hcare : Care s' (new ++ rest))
    (hcurrent : s'.currentTransferId = s.currentTransferId) (hmode : s'.trzszMode = s.trzszMode)
    (hbuf : s'.downloadBuf = s.downloadBuf) (hlimit : s'.sizeLimitExceededFor = s.sizeLimitExceededFor)
    (hemissions : s'.emissions = s.emissions) (hopened : s'.opened = s.opened)
    (houtstanding : s'.outstanding = s.outstanding) (hcancelled : s'.cancelled = s.cancelled)
    (hpublished : s'.published = s.published) (hages : s.Ages s') (hop : ∀ key, op.isChunk key = false) (hnew : ∀ op' ∈ new, op'.Empty)
    (howed : new.flatMap Op.owed = op.owed) (hvalid : ∀ op' ∈ new, op'.Valid s') : Inv s' (new ++ rest) where
  threads := hthreads
  valid op' hop' := by
    rcases List.mem_append.mp hop' with hop' | hop'
    · exact hvalid op' hop'
    · refine (h.valid op' (List.mem_cons_of_mem _ hop')).mono (.of_eq hopened hpublished hemissions) ?_ ?_
      · intro key _ hk
        exact hcancelled ▸ hk
      · intro key mode _
        exact ⟨by rw [hemissions], fun hk => hopened ▸ hk⟩
  ledger := h.ledger.congr howed hopened houtstanding hpublished (.of_eq hopened hpublished hemissions) fun key hk =>
    Or.inl (hcancelled ▸ hk)
  current := h.current.congr hcurrent hmode hbuf hlimit hemissions hopened houtstanding hcancelled hages hop hnew
  care := hcare

theorem Running.congr (h : s.Running key) (hsessions : ∀ session, s.sessions[key.session]? = some session → s'.sessions[key.session]? = some session)
    (hgeneration : s'.sessionGeneration = s.sessionGeneration) (hemissions : s'.emissions = s.emissions) : s'.Running key :=
  ⟨by rw [hgeneration]; exact hsessions _ h.1, by rw [hemissions]; exact h.2⟩

/-- 見込みは、完了の途中の操作と片付けが残り、続く転送が続けば、残る。 -/
theorem Tended.mono (h : s.Tended (op :: rest) key) (hfinishes : op.finishes key = true → s'.Tended (new ++ rest) key)
    (hrunning : s.Running key → s'.Tended (new ++ rest) key) (hcancelled : s'.cancelled = s.cancelled)
    (hcleaning : s.Cleaning (op :: rest) → s'.Cleaning (new ++ rest)) : s'.Tended (new ++ rest) key := by
  rcases h with h | h | ⟨hc, h⟩
  · rw [List.any_cons, Bool.or_eq_true] at h
    rcases h with h | h
    · exact hfinishes h
    · exact Or.inl (by rw [List.any_append, h, Bool.or_true])
  · exact hrunning h
  · exact Or.inr (Or.inr ⟨hcancelled ▸ hc, hcleaning h⟩)

/-- session に触れない操作。 -/
theorem Care.frame (h : Care s (op :: rest)) (hawaited : ∀ key ∈ s'.outstanding, s'.Tended (new ++ rest) key)
    (hsessions : s'.sessions = s.sessions) (hsession : s'.session = s.session)
    (hgeneration : s'.sessionGeneration = s.sessionGeneration) (hop : op.replaces = false)
    (hnew : ∀ op' ∈ new, op'.replaces = false) : Care s' (new ++ rest) where
  awaited := hawaited
  stored := by
    rw [hsessions, hsession]
    rcases h.stored with hs | hs | ⟨index, hs⟩
    · exact Or.inl hs
    · exact Or.inr (Or.inl hs)
    · refine Or.inr (Or.inr ⟨index, List.mem_append_right _ ?_⟩)
      rcases List.mem_cons.mp hs with heq | hs
      · rw [← heq] at hop
        cases hop
      · exact hs
  generations := by
    rw [hsessions, hgeneration]
    exact h.generations
  connecting generation hm := by
    rw [hgeneration]
    rcases List.mem_append.mp hm with hm | hm
    · cases hnew _ hm
    · exact h.connecting generation (List.mem_cons_of_mem _ hm)

/-- 片付けは、差し替えでない操作が終わっても残る。 -/
theorem Cleaning.congr (h : s.Cleaning (op :: rest)) (hsession : s'.session = s.session) (hop : op.replaces = false)
    (habort : op = .abort → .abort ∈ new) : s'.Cleaning (new ++ rest) := by
  rcases h with hm | hcount
  · rcases List.mem_cons.mp hm with heq | hm
    · exact Or.inl (List.mem_append_left _ (habort heq.symm))
    · exact Or.inl (List.mem_append_right _ hm)
  · right
    rw [List.countP_cons_of_neg (by rw [hop]; exact Bool.false_ne_true)] at hcount
    rw [hsession, List.countP_append]
    exact hcount.trans (Nat.add_le_add_left (Nat.le_add_left _ _) _)

theorem Inv.handleUnexpectedDisconnect {generation : Nat} (h : Inv s (.handleUnexpectedDisconnect generation :: rest)) :
    Inv s (s.handleUnexpectedDisconnect generation ++ rest) := by
  have hnew : s.handleUnexpectedDisconnect generation = [.abort] ∨ s.handleUnexpectedDisconnect generation = [] := by
    rw [Shared.handleUnexpectedDisconnect]
    split
    · exact Or.inl rfl
    · exact Or.inr rfl
  have hmem : ∀ op' ∈ s.handleUnexpectedDisconnect generation, op' = .abort := by
    intro op' hop'
    rcases hnew with hnew | hnew
    · rw [hnew] at hop'
      exact List.mem_singleton.mp hop'
    · rw [hnew] at hop'
      cases hop'
  refine h.control ?_ (h.care.frame ?_ rfl rfl rfl rfl ?_) rfl rfl rfl rfl rfl rfl rfl rfl rfl (.refl s) (fun _ => rfl) ?_ ?_ ?_
  · refine h.threads.replace rfl fun index => ?_
    rcases hnew with hnew | hnew <;> rw [hnew] <;> exact Nat.zero_le _
  · intro key hk
    refine Tended.mono (h.care.awaited key hk) (fun hf => by cases hf) (fun hr => Or.inr (Or.inl hr)) rfl fun hc => ?_
    exact Cleaning.congr hc rfl rfl fun heq => by cases heq
  · intro op' hop'
    rw [hmem op' hop']
    rfl
  · intro op' hop' key
    rw [hmem op' hop']
    rfl
  · rcases hnew with hnew | hnew <;> rw [hnew] <;> rfl
  · intro op' hop'
    rw [hmem op' hop']
    trivial

theorem Care.exists_session (h : Care s ops) {session : Session} {index : Nat} (hs : s.sessions[index]? = some session) :
    1 ≤ (if s.session.isSome then 1 else 0) + (ops.filter fun op => op != .newAdapter).countP Op.replaces := by
  rcases h.stored with hnil | hsome | ⟨i, hstore⟩
  · rw [hnil] at hs
    cases hs
  · rw [if_pos hsome]
    omega
  · have hpos : 0 < (ops.filter fun op => op != .newAdapter).countP Op.replaces := by
      refine List.countP_pos_iff.mpr ⟨.store i, List.mem_filter.mpr ⟨hstore, rfl⟩, rfl⟩
    omega

theorem Inv.newAdapter (h : Inv s (.newAdapter :: rest))
    (ho : ∀ key ∈ s.outstanding, key ∈ s.cancelled → rest.any (Op.finishes key) = true) :
    Inv { s with sessionGeneration := s.sessionGeneration + 1 } ([.connect (s.sessionGeneration + 1)] ++ rest) := by
  refine h.control ?_ ⟨?_, ?_, ?_, ?_⟩ rfl rfl rfl rfl rfl rfl rfl rfl rfl ⟨fun _ session hs => ⟨session, hs, rfl⟩, Nat.le_succ _⟩
    (fun _ => rfl) (by simp [Op.Empty, Op.carries]) rfl (by simp [Op.Valid])
  · exact h.threads.replace rfl fun index => Nat.zero_le _
  · intro key hk
    by_cases hc : key ∈ s.cancelled
    · exact Or.inl (by rw [List.any_append, ho key hk hc, Bool.or_true])
    · have hcount : ([Op.connect (s.sessionGeneration + 1)] ++ rest).countP Op.replaces = 1 + rest.countP Op.replaces := by
        rw [List.countP_append]
        rfl
      rcases h.care.awaited key hk with hf | hr | ⟨-, hm | hcount'⟩
      · refine Or.inl ?_
        rw [List.any_append]
        exact (Bool.or_eq_true _ _).mpr (Or.inr hf)
      · refine Or.inr (Or.inr ⟨hc, Or.inr ?_⟩)
        have hone := h.care.exists_session hr.1
        have hle : ((Op.newAdapter :: rest).filter fun op => op != .newAdapter).countP Op.replaces ≤
            rest.countP Op.replaces := by
          rw [List.filter_cons_of_neg (by decide)]
          exact (List.filter_sublist).countP_le
        show 2 ≤ (if s.session.isSome then 1 else 0) + ([Op.connect (s.sessionGeneration + 1)] ++ rest).countP Op.replaces
        omega
      · refine Or.inr (Or.inr ⟨hc, Or.inl (List.mem_append_right _ ?_)⟩)
        simpa using hm
      · refine Or.inr (Or.inr ⟨hc, Or.inr ?_⟩)
        rw [List.countP_cons_of_pos rfl] at hcount'
        show 2 ≤ (if s.session.isSome then 1 else 0) + ([Op.connect (s.sessionGeneration + 1)] ++ rest).countP Op.replaces
        omega
  · rcases h.care.stored with hs | hs | ⟨index, hs⟩
    · exact Or.inl hs
    · exact Or.inr (Or.inl hs)
    · refine Or.inr (Or.inr ⟨index, List.mem_append_right _ ?_⟩)
      simpa using hs
  · intro session hs
    exact (h.care.generations session hs).trans (Nat.le_succ _)
  · intro generation hm
    rcases List.mem_append.mp hm with hm | hm
    · obtain rfl := Op.connect.inj (List.mem_singleton.mp hm)
      exact le_rfl
    · exact (h.care.connecting generation (List.mem_cons_of_mem _ hm)).trans (Nat.le_succ _)

theorem Inv.connectErr {generation : Nat} (h : Inv s (.connect generation :: rest))
    (ho : ∀ key ∈ s.outstanding, s.Tended rest key) : Inv s ([] ++ rest) := by
  refine h.control (h.threads.replace rfl fun index => Nat.zero_le _)
    ⟨ho, ?_, h.care.generations, fun generation hm => h.care.connecting generation (List.mem_cons_of_mem _ hm)⟩
    rfl rfl rfl rfl rfl rfl rfl rfl rfl (.refl s) (fun _ => rfl)
    (fun op' hop' => by cases hop') rfl fun op' hop' => by cases hop'
  rcases h.care.stored with hs | hs | ⟨index, hs⟩
  · exact Or.inl hs
  · exact Or.inr (Or.inl hs)
  · refine Or.inr (Or.inr ⟨index, ?_⟩)
    simpa using hs

theorem Inv.connectOk {generation : Nat} (h : Inv s (.connect generation :: rest)) :
    Inv { s with sessions := s.sessions ++ [⟨generation, false⟩] }
      ([.store s.sessions.length, .loop s.sessions.length] ++ rest) := by
  refine h.control ?_ ⟨?_, ?_, ?_, ?_⟩ rfl rfl rfl rfl rfl rfl rfl rfl rfl ⟨fun index session hs => ⟨session, ?_, rfl⟩, le_rfl⟩
    (fun _ => rfl) (by simp [Op.Empty, Op.carries]) rfl (by simp [Op.Valid])
  · intro index
    have hold := h.threads index
    rw [List.countP_cons_of_neg (by simp [Op.inLoop])] at hold
    rw [List.countP_append, List.length_append, List.length_singleton]
    have hnew : ([.store s.sessions.length, .loop s.sessions.length] : List Op).countP (Op.inLoop index) =
        if s.sessions.length = index then 1 else 0 := by
      simp [List.countP_cons, Op.inLoop]
    rw [hnew]
    split at hold <;> split <;> split <;> omega
  · intro key hk
    refine Tended.mono (h.care.awaited key hk) (fun hf => by cases hf) (fun hr => Or.inr (Or.inl ?_)) rfl ?_
    · refine Running.congr hr (fun session hs => ?_) rfl rfl
      exact List.getElem?_append_left (List.getElem?_eq_some_iff.mp hs).1 ▸ hs
    · rintro (hm | hcount)
      · refine Or.inl (List.mem_append_right _ ?_)
        simpa using hm
      · right
        rw [List.countP_cons_of_pos rfl] at hcount
        rw [List.countP_append, show ([.store s.sessions.length, .loop s.sessions.length] : List Op).countP Op.replaces = 1 from rfl]
        show 2 ≤ (if s.session.isSome then 1 else 0) + (1 + rest.countP Op.replaces)
        omega
  · exact Or.inr (Or.inr ⟨s.sessions.length, List.mem_append_left _ List.mem_cons_self⟩)
  · intro session hs
    rcases List.mem_append.mp hs with hs | hs
    · exact h.care.generations session hs
    · rw [List.mem_singleton.mp hs]
      exact h.care.connecting generation List.mem_cons_self
  · intro generation' hm
    rcases List.mem_append.mp hm with hm | hm
    · simp at hm
    · exact h.care.connecting generation' (List.mem_cons_of_mem _ hm)
  · exact List.getElem?_append_left (List.getElem?_eq_some_iff.mp hs).1 ▸ hs

theorem Inv.store {index : Nat} (h : Inv s (.store index :: rest)) :
    Inv { s with session := some index } ((if s.session.isSome then [.abort] else []) ++ rest) := by
  refine h.control ?_ ⟨?_, Or.inr (Or.inl rfl), h.care.generations, ?_⟩ rfl rfl rfl rfl rfl rfl rfl rfl rfl
    ⟨fun _ session hs => ⟨session, hs, rfl⟩, le_rfl⟩ (fun _ => rfl) ?_ ?_ ?_
  · refine h.threads.replace rfl fun index => ?_
    split <;> exact Nat.zero_le _
  · intro key hk
    refine Tended.mono (h.care.awaited key hk) (fun hf => by cases hf) (fun hr => Or.inr (Or.inl ?_)) rfl ?_
    · exact Running.congr hr (fun session hs => hs) rfl rfl
    · rintro (hm | hcount)
      · refine Or.inl (List.mem_append_right _ ?_)
        simpa using hm
      · split
        · exact Or.inl (List.mem_append_left _ List.mem_cons_self)
        · rename_i hsession
          right
          rw [List.countP_cons_of_pos rfl, if_neg hsession] at hcount
          show 2 ≤ 1 + ([] ++ rest).countP Op.replaces
          rw [List.nil_append]
          omega
  · intro generation hm
    rcases List.mem_append.mp hm with hm | hm
    · split at hm <;> simp at hm
    · exact h.care.connecting generation (List.mem_cons_of_mem _ hm)
  · split <;> simp [Op.Empty, Op.carries]
  · split <;> rfl
  · split <;> simp [Op.Valid]

/-! ## 公開 -/

theorem any_eq_true_of_countP {events : List Published} {f : Published → Bool} (h : 0 < events.countP f) :
    events.any f = true := by
  obtain ⟨e, he, hf⟩ := List.countP_pos_iff.mp h
  exact List.any_eq_true.mpr ⟨e, he, hf⟩

theorem countP_eq_zero_of_any {events : List Published} {f : Published → Bool} (h : events.any f = false) :
    events.countP f = 0 := by
  refine List.countP_eq_zero.mpr fun e he hf => ?_
  rw [List.any_eq_true.mpr ⟨e, he, hf⟩] at h
  cases h

theorem any_eq_false_of_countP {events : List Published} {f : Published → Bool} (h : events.countP f = 0) :
    events.any f = false := by
  rw [Bool.eq_false_iff]
  intro hany
  obtain ⟨e, he, hf⟩ := List.any_eq_true.mp hany
  exact List.countP_eq_zero.mp h e he hf

theorem countP_events (f : Published → Bool) :
    (s.events ops).countP f = s.published.countP f + (ops.flatMap Op.owed).countP f := by
  rw [Shared.events, List.countP_append]

namespace Published

@[simp] theorem isWaiting_waitingUser (key : Key) : (waitingUser key).isWaiting key = true := decide_eq_true rfl

@[simp] theorem isComplete_onDownloadComplete (key : Key) (data : List UInt8) :
    (onDownloadComplete key data).isComplete key = true := decide_eq_true rfl

@[simp] theorem isDone_done (key : Key) (success : Bool) (message : DoneMessage) :
    (done key success message).isDone key = true := decide_eq_true rfl

end Published

/-- 先頭の公開は順に並ぶ。 -/
theorem Ledger.inOrder {e : Published} {events : List Published} {back : Option Nat}
    (h : Ledger s (.notify (e :: events) back :: rest)) (ha : Announcement s (e :: events)) : e.InOrder s.published := by
  have hwaiting (key : Key) := (countP_events (s := s) (Published.isWaiting key)).symm.trans (h.waiting key)
  have hdone (key : Key) := h.done key
  have hcomplete (key : Key) := h.complete key
  have howed : ((.notify (e :: events) back :: rest : List Op).flatMap Op.owed) = e :: events ++ rest.flatMap Op.owed := by
    rw [List.flatMap_cons, Op.owed]
  simp only [countP_events, howed, List.countP_append] at hwaiting hdone hcomplete
  -- 閉じる公開を約束した転送の `WaitingUser` は、公開されている
  have hopen (key : Key) (hc : (e :: events).any (Published.closes key) = true)
      (hone : (if key ∈ s.opened then 1 else 0) = 1) : s.published.any (Published.isWaiting key) = true := by
    have hearly := h.early key (by rw [howed, List.any_append, hc, Bool.true_or])
    have hzero := countP_eq_zero_of_any hearly
    rw [howed, List.countP_append] at hzero
    have hw := hwaiting key
    exact any_eq_true_of_countP (by omega)
  cases ha with
  | waitingUser key hk =>
      have hw := hwaiting key
      rw [if_pos hk, List.countP_cons_of_pos (Published.isWaiting_waitingUser key)] at hw
      exact any_eq_false_of_countP (by omega)
  | complete key data hj hjd =>
      have hd := hdone key
      have hc := hcomplete key
      rw [List.countP_cons_of_neg (by simp [Published.isDone]), List.countP_cons_of_pos (Published.isDone_done _ _ _)] at hd
      rw [List.countP_cons_of_pos (Published.isComplete_onDownloadComplete _ _)] at hc
      have hone : (if key ∈ s.opened then 1 else 0) = 1 := by
        have hle : (if key ∈ s.opened then 1 else 0) ≤ 1 := by split <;> omega
        omega
      refine ⟨hopen key (by simp [Published.closes]) hone, ?_, ?_⟩
      · exact any_eq_false_of_countP (by omega)
      · exact any_eq_false_of_countP (by omega)
  | done key success message hj =>
      have hd := hdone key
      rw [List.countP_cons_of_pos (Published.isDone_done _ _ _)] at hd
      have hone : (if key ∈ s.opened then 1 else 0) = 1 := by
        have hle : (if key ∈ s.opened then 1 else 0) ≤ 1 := by split <;> omega
        omega
      exact ⟨hopen key (by simp [Published.closes]) hone, any_eq_false_of_countP (by omega)⟩
  | idle => trivial

theorem flatMap_resume (events : List Published) (back : Option Nat) :
    (Shared.resume events back).flatMap Op.owed = events := by
  rw [Shared.resume]
  split
  · rename_i hnil
    subst hnil
    cases back <;> rfl
  · simp [Op.owed]

theorem countP_resume (events : List Published) (back : Option Nat) (index : Nat) :
    (Shared.resume events back).countP (Op.inLoop index) ≤ if back = some index then 1 else 0 := by
  rw [Shared.resume]
  split
  · cases back <;> simp [Op.inLoop, List.countP_cons]
  · simp [Op.inLoop, List.countP_cons]

theorem log_snoc {s : Shared} {e : Published}
    (hlog : ∀ before e after, s.published = before ++ e :: after → e.InOrder before ∧ e.Justified s before)
    (horder : e.InOrder s.published) (hjustified : e.Justified s s.published) (before : List Published) (e' : Published)
    (after : List Published) (heq : s.published ++ [e] = before ++ e' :: after) : e'.InOrder before ∧ e'.Justified s before := by
  rcases List.eq_nil_or_concat after with rfl | ⟨after, last, rfl⟩
  · obtain ⟨rfl, h⟩ := List.append_inj' heq rfl
    obtain rfl := List.singleton_injective h
    exact ⟨horder, hjustified⟩
  · rw [List.concat_eq_append, ← List.cons_append, ← List.append_assoc] at heq
    obtain ⟨heq, -⟩ := List.append_inj' heq rfl
    exact hlog before e' after heq

theorem Ledger.notify {e : Published} {events : List Published} {back : Option Nat}
    (h : Ledger s (.notify (e :: events) back :: rest)) (ha : Announcement s (e :: events))
    (hjustified : e.Justified s s.published) : Ledger (s.publish e) (Shared.resume events back ++ rest) := by
  have howed : (Shared.resume events back ++ rest).flatMap Op.owed = events ++ rest.flatMap Op.owed := by
    rw [List.flatMap_append, flatMap_resume]
  have hevents : (s.publish e).events (Shared.resume events back ++ rest) = s.events (.notify (e :: events) back :: rest) := by
    rw [Shared.events, howed, Shared.events, List.flatMap_cons, Shared.publish, Op.owed]
    simp
  refine ⟨h.emitted, ?_, ?_, ?_, ?_, log_snoc h.log (h.inOrder ha) hjustified⟩
  · rw [hevents]
    exact h.waiting
  · rw [hevents]
    exact h.done
  · rw [hevents]
    exact h.complete
  · intro key hc
    rw [howed] at hc ⊢
    have hearly := h.early key (by rw [List.flatMap_cons, Op.owed, List.cons_append, List.any_cons, hc, Bool.or_true])
    rw [List.flatMap_cons, Op.owed, List.cons_append, List.any_cons, Bool.or_eq_false_iff] at hearly
    exact hearly.2

theorem Inv.notify {e : Published} {events : List Published} {back : Option Nat}
    (h : Inv s (.notify (e :: events) back :: rest)) : Inv (s.publish e) (Shared.resume events back ++ rest) := by
  have ha : Announcement s (e :: events) := (h.valid _ List.mem_cons_self).1
  have hle : s.Le (s.publish e) := ⟨fun _ hk => hk, fun _ he => List.mem_append_left _ he, fun _ e he => ⟨e, he, .refl e⟩⟩
  have hjustified : e.Justified s s.published := by
    cases ha with
    | waitingUser key hk => exact hk
    | complete key data hj _ => exact hj
    | done key success message hj => exact hj
    | idle => trivial
  have hnext : events = [] ∨ Announcement (s.publish e) events := by
    cases ha with
    | complete key data _ hdone => exact Or.inr (.done key true .own hdone)
    | _ => exact Or.inl rfl
  have hresume : ∀ op' ∈ Shared.resume events back, op'.Empty ∧ op'.replaces = false := by
    rw [Shared.resume]
    split
    · cases back <;> simp [Op.Empty, Op.carries, Op.replaces]
    · simp [Op.Empty, Op.carries, Op.replaces]
  refine ⟨h.threads.replace rfl fun index => ?_, ?_, h.ledger.notify ha hjustified,
    h.current.congr rfl rfl rfl rfl rfl rfl rfl rfl ⟨fun _ session hs => ⟨session, hs, rfl⟩, le_rfl⟩ (fun _ => rfl)
      (fun op' hop' => (hresume op' hop').1),
    h.care.frame ?_ rfl rfl rfl rfl fun op' hop' => (hresume op' hop').2⟩
  · refine (countP_resume events back index).trans ?_
    simp [Op.inLoop]
  · intro op' hop'
    rcases List.mem_append.mp hop' with hop' | hop'
    · rw [Shared.resume] at hop'
      split at hop'
      · cases back with
        | none => cases hop'
        | some index =>
            obtain rfl := List.mem_singleton.mp hop'
            trivial
      · rename_i hne
        obtain rfl := List.mem_singleton.mp hop'
        refine ⟨hnext.resolve_left hne, fun key hw => ?_⟩
        cases ha with
        | complete key' data _ _ => cases hw
        | _ => exact (hne rfl).elim
    · exact (h.valid op' (List.mem_cons_of_mem _ hop')).mono hle (fun _ _ hk => hk) fun _ _ _ => ⟨rfl, fun hk => hk⟩
  · intro key hk
    refine Tended.mono (h.care.awaited key hk) (fun hf => by cases hf) (fun hr => Or.inr (Or.inl hr)) rfl fun hc => ?_
    exact Cleaning.congr hc rfl rfl fun heq => by cases heq

/-! ## 転送の始まりと chunk -/

theorem isDone_waitingUser (key key' : Key) : (Published.waitingUser key).isDone key' = false := rfl

theorem isComplete_waitingUser (key key' : Key) : (Published.waitingUser key).isComplete key' = false := rfl

theorem isWaiting_eq (key key' : Key) : (Published.waitingUser key).isWaiting key' = decide (key = key') := rfl

theorem Ledger.request {mode : TrzszMode} (h : Ledger s (.request key mode :: rest)) (ho : s.outstanding = none)
    (hemission : (s.emissions key).isSome = true) (hnew : key ∉ s.opened) :
    Ledger (s.onTrzszRequest key mode) ([.notify [.waitingUser key] (some key.session)] ++ rest) := by
  have hold (f : Published → Bool) : (s.events (.request key mode :: rest)).countP f =
      s.published.countP f + (rest.flatMap Op.owed).countP f := countP_events f
  have hcount (f : Published → Bool) :
      ((s.onTrzszRequest key mode).events ([.notify [.waitingUser key] (some key.session)] ++ rest)).countP f =
        s.published.countP f + ((if f (.waitingUser key) then 1 else 0) + (rest.flatMap Op.owed).countP f) := by
    rw [countP_events, List.flatMap_append, List.countP_append]
    simp [Shared.onTrzszRequest, Op.owed, List.countP_cons]
  have hwaiting (key' : Key) := (hold _).symm.trans (h.waiting key')
  have hdone (key' : Key) := h.done key'
  have hcomplete (key' : Key) := h.complete key'
  simp only [hold, ho] at hdone hcomplete
  have hself : key ∈ (s.onTrzszRequest key mode).opened := List.mem_cons_self
  have hout : (s.onTrzszRequest key mode).outstanding = some key := rfl
  have hother {key' : Key} (hne : key ≠ key') : key' ∈ (s.onTrzszRequest key mode).opened ↔ key' ∈ s.opened := by
    simp [Shared.onTrzszRequest, Ne.symm hne]
  refine ⟨?_, ?_, ?_, ?_, ?_, ?_⟩
  · intro key' hk
    rcases List.mem_cons.mp hk with rfl | hk
    · exact hemission
    · exact h.emitted key' hk
  · intro key'
    have hw := hwaiting key'
    rw [hcount, isWaiting_eq]
    by_cases heq : key = key'
    · subst heq
      rw [if_neg hnew] at hw
      rw [if_pos (decide_eq_true rfl), if_pos hself]
      omega
    · rw [if_neg (by simpa using heq), if_congr (hother heq) rfl rfl]
      omega
  · intro key'
    have hd := hdone key'
    rw [if_neg (Option.some_ne_none key').symm] at hd
    rw [hcount, isDone_waitingUser, if_neg Bool.false_ne_true]
    by_cases heq : key = key'
    · subst heq
      rw [if_neg hnew] at hd
      rw [if_pos hout, if_pos hself]
      omega
    · have hne : (s.onTrzszRequest key mode).outstanding ≠ some key' := fun ho => heq (Option.some.inj ho)
      rw [if_neg hne, if_congr (hother heq) rfl rfl]
      omega
  · intro key'
    have hc := hcomplete key'
    rw [hcount, isComplete_waitingUser, if_neg Bool.false_ne_true]
    by_cases heq : key = key'
    · subst heq
      rw [if_pos (Or.inr hnew)] at hc
      rw [if_pos (Or.inl hout)]
      omega
    · have hiff : ((s.onTrzszRequest key mode).outstanding = some key' ∨ key' ∉ (s.onTrzszRequest key mode).opened) ↔
          (none = some key' ∨ key' ∉ s.opened) := by
        refine or_congr ⟨fun ho => (heq (Option.some.inj ho)).elim, fun ho => by cases ho⟩ (not_congr (hother heq))
      rw [if_congr hiff rfl rfl]
      omega
  · intro key' hc
    rw [List.flatMap_append] at hc ⊢
    have howed : ([.notify [.waitingUser key] (some key.session)] : List Op).flatMap Op.owed = [.waitingUser key] := rfl
    rw [howed, List.any_append, Bool.or_eq_true] at hc
    rw [howed, List.any_append, Bool.or_eq_false_iff]
    have hc : (rest.flatMap Op.owed).any (Published.closes key') = true := hc.resolve_left (by simp [Published.closes, Published.isDone, Published.isComplete])
    refine ⟨?_, h.early key' hc⟩
    rw [List.any_cons, List.any_nil, Bool.or_false, isWaiting_eq, decide_eq_false_iff_not]
    rintro rfl
    -- まだ公開を約束していない転送を閉じる公開はない
    obtain ⟨e, he, hcl⟩ := List.any_eq_true.mp hc
    have hd := hdone key
    have hco := hcomplete key
    rw [if_neg hnew] at hd
    rw [if_pos (Or.inr hnew)] at hco
    rcases (Bool.or_eq_true _ _).mp hcl with hcl | hcl
    · have hpos : 0 < (rest.flatMap Op.owed).countP (Published.isDone key) := List.countP_pos_iff.mpr ⟨e, he, hcl⟩
      omega
    · have hpos : 0 < (rest.flatMap Op.owed).countP (Published.isComplete key) := List.countP_pos_iff.mpr ⟨e, he, hcl⟩
      omega
  · intro before e after heq
    obtain ⟨horder, hjustified⟩ := h.log before e after heq
    refine ⟨horder, hjustified.mono ?_ (fun _ hb => hb) fun _ _ hk => hk⟩
    exact ⟨fun _ hk => List.mem_cons_of_mem _ hk, fun _ he => he, fun _ e he => ⟨e, he, .refl e⟩⟩

theorem Inv.request {mode : TrzszMode} (h : Inv s (.request key mode :: rest)) (ho : s.outstanding = none)
    (hcare : s.Running key ∨ s.Cleaning rest) :
    Inv (s.onTrzszRequest key mode) ([.notify [.waitingUser key] (some key.session)] ++ rest) := by
  obtain ⟨hemission, hnew⟩ := h.valid _ List.mem_cons_self
  have htail := h.threads.tail key.session (decide_eq_true rfl)
  have hle : s.Le (s.onTrzszRequest key mode) :=
    ⟨fun _ hk => List.mem_cons_of_mem _ hk, fun _ he => he, fun _ e he => ⟨e, he, .refl e⟩⟩
  refine ⟨h.threads.replace rfl fun index => ?_, ?_, ?_, ⟨?_, ?_, ?_, ?_, ?_⟩, h.care.frame ?_ rfl rfl rfl rfl ?_⟩
  · simp [Op.inLoop, List.countP_cons]
  · intro op' hop'
    rcases List.mem_append.mp hop' with hop' | hop'
    · obtain rfl := List.mem_singleton.mp hop'
      refine ⟨.waitingUser key List.mem_cons_self, fun key' hw => ?_⟩
      rw [List.any_cons, List.any_nil, Bool.or_false, isWaiting_eq, decide_eq_true_iff] at hw
      rw [hw]
    · refine (h.valid op' (List.mem_cons_of_mem _ hop')).mono hle (fun _ _ hk => hk) ?_
      intro key' mode' heq
      refine ⟨rfl, fun hk => (List.mem_cons.mp hk).resolve_left fun hkey => ?_⟩
      -- 同じ session の操作は他にない
      have hfalse := htail op' hop'
      rw [heq, hkey] at hfalse
      simp [Op.inLoop] at hfalse
  · exact h.ledger.request ho (by rw [hemission]; rfl) hnew
  · have hc : key ∉ s.cancelled := fun hc => hnew (h.current.cancelled key hc)
    show some key = (some key).filter (· ∉ s.cancelled)
    rw [Option.filter_some, if_pos (by simpa using hc)]
  · intro key' hk
    exact List.mem_cons_of_mem _ (h.current.cancelled key' hk)
  · intro key' hk
    obtain rfl := Option.some.inj hk
    refine ⟨_, hemission, rfl, Or.inr (Or.inl ⟨fun data hd => ?_, fun _ => rfl⟩)⟩
    rcases List.mem_append.mp hd with hd | hd
    · cases List.mem_singleton.mp hd
    · have hfalse := htail _ hd
      simp [Op.inLoop] at hfalse
  · intro key' hk mode' hmode
    obtain rfl := Option.some.inj hk
    obtain rfl := Option.some.inj hmode
    show (s.emissions key).any _ = true
    rw [hemission]
    exact decide_eq_true rfl
  · intro key' _ hlimit
    cases hlimit
  · intro key' hk
    obtain rfl := Option.some.inj hk
    rcases hcare with hr | hm | hcount
    · exact Or.inr (Or.inl hr)
    · exact Or.inr (Or.inr ⟨fun hc => hnew (h.current.cancelled key hc), Or.inl (List.mem_append_right _ hm)⟩)
    · refine Or.inr (Or.inr ⟨fun hc => hnew (h.current.cancelled key hc), Or.inr ?_⟩)
      rw [List.countP_append]
      exact hcount.trans (Nat.add_le_add_left (Nat.le_add_left _ _) _)
  · intro op' hop'
    obtain rfl := List.mem_singleton.mp hop'
    rfl

/-- 取り消していない転送は、今の転送である。 -/
theorem Current.eq_of_not_cancelled (h : Current s ops) (ho : s.outstanding = some key) (hc : key ∉ s.cancelled) :
    s.currentTransferId = some key := by
  rw [h.current, ho, Option.filter_some, if_pos (by simpa using hc)]

theorem Current.outstanding_of_current (h : Current s ops) (hk : s.currentTransferId = some key) :
    s.outstanding = some key ∧ key ∉ s.cancelled := by
  have hcurrent := h.current
  rw [hk] at hcurrent
  obtain ⟨ho, hc⟩ := Option.filter_eq_some_iff.mp hcurrent.symm
  exact ⟨ho, by simpa using hc⟩

/-- `Done` を約束していない転送の完了は、受け付けられる。 -/
theorem Current.accepts (h : Current s ops) (ho : s.outstanding = some key) : s.accepts key.transferId = true := by
  by_cases hc : key ∈ s.cancelled
  · have hnone : s.currentTransferId = none := by
      rw [h.current, ho, Option.filter_some, if_neg (by simpa using hc)]
    simp [Shared.accepts, Shared.currentId, hnone]
  · simp [Shared.accepts, Shared.currentId, h.eq_of_not_cancelled ho hc]

/-- 積む chunk を替える。 -/
theorem Inv.buffer {data buf : List UInt8} {limit : Option String} (h : Inv s (.chunk key data :: rest))
    (hcurrent : Current { s with downloadBuf := buf, sizeLimitExceededFor := limit } ([.loop key.session] ++ rest)) :
    Inv { s with downloadBuf := buf, sizeLimitExceededFor := limit } ([.loop key.session] ++ rest) where
  threads := h.threads.replace rfl fun index => by simp [Op.inLoop, List.countP_cons]
  valid op' hop' := by
    rcases List.mem_append.mp hop' with hop' | hop'
    · obtain rfl := List.mem_singleton.mp hop'
      trivial
    · exact (h.valid op' (List.mem_cons_of_mem _ hop')).mono (.of_eq rfl rfl rfl) (fun _ _ hk => hk) fun _ _ _ =>
        ⟨rfl, fun hk => hk⟩
  ledger := h.ledger.congr rfl rfl rfl rfl (.of_eq rfl rfl rfl) fun _ hk => Or.inl hk
  current := hcurrent
  care := by
    refine h.care.frame (fun key' hk => ?_) rfl rfl rfl rfl fun op' hop' => ?_
    · refine Tended.mono (h.care.awaited key' hk) (fun hf => by cases hf) (fun hr => Or.inr (Or.inl hr)) rfl fun hc => ?_
      exact Cleaning.congr hc rfl rfl fun heq => by cases heq
    · obtain rfl := List.mem_singleton.mp hop'
      rfl

theorem Inv.chunk {data : List UInt8} (h : Inv s (.chunk key data :: rest))
    (ho : s.currentId = some key.transferId → s.outstanding = some key) :
    Inv (s.onTrzszDownloadChunk key data) ([.loop key.session] ++ rest) := by
  have htail := h.threads.tail key.session (decide_eq_true rfl)
  have hrest (data' : List UInt8) : .chunk key data' ∉ [.loop key.session] ++ rest := by
    intro hd
    rcases List.mem_append.mp hd with hd | hd
    · cases List.mem_singleton.mp hd
    · have hfalse := htail _ hd
      simp [Op.inLoop] at hfalse
  rw [Shared.onTrzszDownloadChunk]
  split
  · rename_i hid
    obtain ⟨key', hcur, hkey'⟩ := Option.map_eq_some_iff.mp hid
    obtain ⟨hout, hc⟩ := h.current.outstanding_of_current hcur
    obtain rfl : key' = key := Option.some.inj (hout.symm.trans (ho hid))
    obtain ⟨em, hem, hmode, hbuffered⟩ := h.current.buffered key' hcur
    -- chunk が残る間は、捨てられていない
    have hbuffered : s.sizeLimitExceededFor = some key'.transferId ∨ s.downloadBuf ++ data = em.chunks := by
      rcases hbuffered with hlimit | hb | hstale
      · exact Or.inl hlimit
      · exact Or.inr (hb.1 data List.mem_cons_self)
      · have hfalse := hstale.2 _ List.mem_cons_self
        simp [Op.carries] at hfalse
    split
    · rename_i hover
      refine h.buffer ⟨h.current.current, h.current.cancelled, ?_, h.current.mode, ?_⟩
      · intro key hk
        obtain rfl := Option.some.inj (hcur.symm.trans hk)
        exact ⟨em, hem, hmode, Or.inl rfl⟩
      · intro key hk _
        obtain rfl := Option.some.inj (hout.symm.trans hk)
        rcases hbuffered with hlimit | hb
        · exact h.current.exceeded key' hout hlimit
        · refine ⟨em, hem, ?_⟩
          rw [← hb, List.length_append]
          exact hover
    · refine h.buffer ⟨h.current.current, h.current.cancelled, ?_, h.current.mode, h.current.exceeded⟩
      intro key hk
      obtain rfl := Option.some.inj (hcur.symm.trans hk)
      refine ⟨em, hem, hmode, hbuffered.imp_right fun hb => Or.inl ?_⟩
      exact ⟨fun data' hd => (hrest data' hd).elim, fun _ => hb⟩
  · rename_i hid
    refine h.buffer ⟨h.current.current, h.current.cancelled, ?_, h.current.mode, h.current.exceeded⟩
    intro key' hk
    obtain ⟨em, hem, hmode, hbuffered⟩ := h.current.buffered key' hk
    -- 別の転送の chunk である
    have hne : key ≠ key' := by
      rintro rfl
      exact hid (by rw [Shared.currentId, hk]; rfl)
    refine ⟨em, hem, hmode, hbuffered.imp_right (Or.imp (fun hb => ⟨fun data' hd => hb.1 data' ?_, fun hd => hb.2 fun data' hm => ?_⟩)
      fun hstale => hstale.congr (.refl s) fun op' hop' => ?_)⟩
    · rcases List.mem_append.mp hd with hd | hd
      · cases List.mem_singleton.mp hd
      · exact List.mem_cons_of_mem _ hd
    · rcases List.mem_cons.mp hm with heq | hm
      · exact hne (Op.chunk.inj heq).1.symm
      · exact hd data' (List.mem_append_right _ hm)
    · obtain rfl := List.mem_singleton.mp hop'
      rfl

/-! ## 転送の完了と片付け -/

/-- 転送 `key` を閉じる公開の列。 -/
inductive Closing (key : Key) : List Published → Prop
  | complete (data : List UInt8) : Closing key [.onDownloadComplete key data, .done key true .own]
  | done (success : Bool) (message : DoneMessage) : Closing key [.done key success message]

namespace Closing

variable {events : List Published}

theorem countP_isWaiting (h : Closing key events) (key' : Key) : events.countP (Published.isWaiting key') = 0 := by
  cases h <;> rfl

theorem countP_isDone (h : Closing key events) (key' : Key) :
    events.countP (Published.isDone key') = if key = key' then 1 else 0 := by
  cases h <;> simp [List.countP_cons, Published.isDone]

theorem countP_isComplete (h : Closing key events) (key' : Key) :
    events.countP (Published.isComplete key') ≤ if key = key' then 1 else 0 := by
  cases h <;> simp [List.countP_cons, Published.isComplete]

theorem any_closes (h : Closing key events) {key' : Key} (hne : key ≠ key') : events.any (Published.closes key') = false := by
  cases h <;> simp [Published.closes, Published.isComplete, Published.isDone, hne]

end Closing

theorem Ledger.mem_opened (h : Ledger s ops) (ho : s.outstanding = some key) : key ∈ s.opened := by
  have hd := h.done key
  rw [if_pos ho] at hd
  by_contra hn
  rw [if_neg hn] at hd
  omega

/-- `Done` を約束する。 -/
theorem Ledger.close {events : List Published} {back : Option Nat} (h : Ledger s (op :: rest)) (howed : op.owed = [])
    (hout : s.outstanding = some key) (hclosing : Closing key events) (hopened : s'.opened = s.opened)
    (hpublished : s'.published = s.published) (hemissions : s'.emissions = s.emissions)
    (hcancelled : s'.cancelled = s.cancelled) (hnone : s'.outstanding = none)
    (hearly : (rest.flatMap Op.owed).any (Published.isWaiting key) = false) : Ledger s' ([.notify events back] ++ rest) := by
  have hold (f : Published → Bool) : (s.events (op :: rest)).countP f =
      s.published.countP f + (rest.flatMap Op.owed).countP f := by
    rw [countP_events, List.flatMap_cons, howed, List.nil_append]
  have hflat : ([.notify events back] ++ rest : List Op).flatMap Op.owed = events ++ rest.flatMap Op.owed := by
    rw [List.flatMap_append]
    simp [Op.owed]
  have hcount (f : Published → Bool) : (s'.events ([.notify events back] ++ rest)).countP f =
      s.published.countP f + (events.countP f + (rest.flatMap Op.owed).countP f) := by
    rw [countP_events, hflat, hpublished, List.countP_append]
  have hmem : key ∈ s.opened := h.mem_opened hout
  refine ⟨?_, ?_, ?_, ?_, ?_, ?_⟩
  · rw [hopened, hemissions]
    exact h.emitted
  · intro key'
    have hw := (hold _).symm.trans (h.waiting key')
    rw [hcount, hopened, hclosing.countP_isWaiting]
    omega
  · intro key'
    have hd := h.done key'
    rw [hold, hout] at hd
    rw [hcount, hopened, hnone, hclosing.countP_isDone, if_neg (Option.some_ne_none key').symm]
    simp only [Option.some.injEq] at hd
    omega
  · intro key'
    have hc := h.complete key'
    have hle := hclosing.countP_isComplete key'
    rw [hold, hout] at hc
    rw [hcount, hopened, hnone]
    simp only [Option.some.injEq, reduceCtorEq, false_or] at hc ⊢
    by_cases heq : key = key'
    · subst heq
      rw [if_pos (Or.inl rfl)] at hc
      rw [if_pos rfl] at hle
      rw [if_neg (not_not_intro hmem)]
      omega
    · rw [if_neg heq] at hle
      simp only [heq, false_or] at hc
      omega
  · intro key' hc
    rw [hflat, List.any_append, Bool.or_eq_true] at hc
    rw [hflat, List.any_append, any_eq_false_of_countP (hclosing.countP_isWaiting key'), Bool.false_or]
    by_cases heq : key = key'
    · exact heq ▸ hearly
    · rw [hclosing.any_closes heq] at hc
      have hearly' := h.early key'
      rw [List.flatMap_cons, howed, List.nil_append] at hearly'
      exact hearly' (hc.resolve_left Bool.false_ne_true)
  · rw [hpublished]
    intro before e after heq
    obtain ⟨horder, hjustified⟩ := h.log before e after heq
    exact ⟨horder, hjustified.mono (.of_eq hopened hpublished hemissions) (fun _ hb => hb) fun _ _ hk => hcancelled ▸ hk⟩

/-- 転送を閉じる。 -/
theorem Inv.close {events : List Published} {back : Option Nat} (h : Inv s (op :: rest)) (howed : op.owed = [])
    (hout : s.outstanding = some key) (hclosing : Closing key events) (hannouncement : Announcement s' events)
    (hthread : ∀ index, back = some index → op.inLoop index = true)
    (hearly : (rest.flatMap Op.owed).any (Published.isWaiting key) = false)
    (hopened : s'.opened = s.opened) (hpublished : s'.published = s.published) (hemissions : s'.emissions = s.emissions)
    (hcancelled : s'.cancelled = s.cancelled) (hnone : s'.outstanding = none) (hcurrent : s'.currentTransferId = none)
    (hsessions : s'.sessions = s.sessions) (hsession : s'.session = s.session)
    (hgeneration : s'.sessionGeneration = s.sessionGeneration) (hop : op.replaces = false) : Inv s' ([.notify events back] ++ rest) where
  threads := h.threads.replace (by rw [hsessions]) fun index => by
    have hcount : [Op.notify events back].countP (Op.inLoop index) = if back = some index then 1 else 0 := by
      simp [List.countP_cons, Op.inLoop]
    rw [hcount]
    split
    · rename_i hb
      rw [hthread index hb, if_pos rfl]
    · exact Nat.zero_le _
  valid op' hop' := by
    rcases List.mem_append.mp hop' with hop' | hop'
    · obtain rfl := List.mem_singleton.mp hop'
      refine ⟨hannouncement, fun key' hw => ?_⟩
      rw [any_eq_false_of_countP (hclosing.countP_isWaiting key')] at hw
      cases hw
    · refine (h.valid op' (List.mem_cons_of_mem _ hop')).mono (.of_eq hopened hpublished hemissions) ?_ ?_
      · intro key _ hk
        exact hcancelled ▸ hk
      · intro key mode _
        exact ⟨by rw [hemissions], fun hk => hopened ▸ hk⟩
  ledger := h.ledger.close howed hout hclosing hopened hpublished hemissions hcancelled hnone hearly
  current := {
    current := by rw [hcurrent, hnone, Option.filter_none]
    cancelled := by rw [hcancelled, hopened]; exact h.current.cancelled
    buffered := fun key hk => by rw [hcurrent] at hk; cases hk
    mode := fun key hk => by rw [hnone] at hk; cases hk
    exceeded := fun key hk => by rw [hnone] at hk; cases hk }
  care := by
    refine h.care.frame (fun key hk => by rw [hnone] at hk; cases hk) hsessions hsession hgeneration hop fun op' hop' => ?_
    obtain rfl := List.mem_singleton.mp hop'
    rfl

theorem any_owed_eq_false {ops : List Op} {f : Published → Bool} (h : ops.any (fun op => op.owed.any f) = false) :
    (ops.flatMap Op.owed).any f = false := by
  rw [List.any_flatMap]
  exact h

/-- 完了のときの公開は、FSM の出力と合う。 -/
theorem Inv.completion {success : Bool} (h : Inv s (.finish key success :: rest)) (hout : s.outstanding = some key)
    (ho : success = true → s.sizeLimitExceededFor ≠ some key.transferId →
      (s.emissions key).any (fun e => e.mode = .download) = true → key ∉ s.cancelled ∧ s.downloadBuf ≠ []) :
    Closing key (s.completion key success) ∧ Announcement s (s.completion key success) := by
  obtain ⟨em, hem, hfinished⟩ := h.valid _ List.mem_cons_self
  have htail := h.threads.tail key.session (decide_eq_true rfl)
  have hchunk (data : List UInt8) : .chunk key data ∉ .finish key success :: rest := by
    intro hd
    rcases List.mem_cons.mp hd with hd | hd
    · cases hd
    · have hfalse := htail _ hd
      simp [Op.inLoop] at hfalse
  have hdownload (hmode : em.mode = .download) : (s.emissions key).any (fun e => e.mode = .download) = true := by
    rw [hem]
    exact decide_eq_true hmode
  rw [Shared.completion]
  split
  · rename_i hlimit
    obtain ⟨em', hem', hover⟩ := h.current.exceeded key hout hlimit
    exact ⟨.done false .tooLarge, .done key false .tooLarge ⟨em', hem', rfl, hover⟩⟩
  · rename_i hlimit
    split
    · rename_i hcomplete
      obtain ⟨rfl, htrzsz, hbuf⟩ := hcomplete
      have hmode : em.mode = .download := by
        have hm := h.current.mode key hout _ htrzsz
        rw [hem] at hm
        exact of_decide_eq_true hm
      obtain ⟨hc, -⟩ := ho rfl hlimit (hdownload hmode)
      obtain ⟨em', hem', -, hb⟩ := h.current.buffered key (h.current.eq_of_not_cancelled hout hc)
      obtain rfl := Option.some.inj (hem.symm.trans hem')
      have hdata : s.downloadBuf = em.chunks := by
        refine ((hb.resolve_left hlimit).resolve_right fun hstale => ?_).2 hchunk
        have hfalse := hstale.2 _ List.mem_cons_self
        simp [Op.carries] at hfalse
      refine ⟨.complete s.downloadBuf, .complete key s.downloadBuf ⟨hc, em, hem, hmode, hfinished, hdata⟩ ⟨em, hem, hfinished, ?_⟩⟩
      intro _ _
      rw [hdata]
      exact List.mem_append_right _ (List.mem_singleton_self _)
    · rename_i hnot
      refine ⟨.done success .own, .done key success .own ⟨em, hem, hfinished, ?_⟩⟩
      intro hsuccess hmode
      -- 成功したダウンロードは、今の転送のものであり、空でない
      obtain ⟨hc, hbuf⟩ := ho hsuccess hlimit (hdownload hmode)
      obtain ⟨em', hem', htrzsz, -⟩ := h.current.buffered key (h.current.eq_of_not_cancelled hout hc)
      obtain rfl := Option.some.inj (hem.symm.trans hem')
      exact (hnot ⟨hsuccess, by rw [htrzsz, hmode], hbuf⟩).elim

theorem Inv.finish {success : Bool} (h : Inv s (.finish key success :: rest))
    (hout : s.accepts key.transferId = true → s.outstanding = some key) (ho : (Op.finish key success).Orderly s rest k) :
    Inv (s.onTrzszFinished key success).1 ((s.onTrzszFinished key success).2 ++ rest) := by
  rw [Shared.onTrzszFinished]
  split
  · rename_i haccepts
    obtain ⟨hclosing, hannouncement⟩ := h.completion (hout haccepts) (ho haccepts).2
    refine h.close rfl (hout haccepts) hclosing (hannouncement.mono (.of_eq rfl rfl rfl) fun _ _ hk => hk) ?_ ?_ rfl rfl rfl rfl rfl rfl
      rfl rfl rfl rfl
    · intro index hb
      exact decide_eq_true (Option.some.inj hb)
    · -- `WaitingUser` の公開は同じ session の操作なので、残っていない
      have htail := h.threads.tail key.session (decide_eq_true rfl)
      rw [Bool.eq_false_iff]
      intro hany
      rw [List.any_flatMap] at hany
      obtain ⟨op', hop', hw⟩ := List.any_eq_true.mp hany
      have hvalid := h.valid op' (List.mem_cons_of_mem _ hop')
      have hfalse := htail op' hop'
      cases op' with
      | notify events back =>
          rw [Op.inLoop, hvalid.2 key hw] at hfalse
          simp at hfalse
      | _ => cases hw
  · rename_i haccepts
    refine h.control ?_ (h.care.frame ?_ rfl rfl rfl rfl (by simp [Op.replaces])) rfl rfl rfl rfl rfl rfl rfl rfl rfl (.refl s) (fun _ => rfl)
      (by simp [Op.Empty, Op.carries]) rfl (by simp [Op.Valid])
    · exact h.threads.replace rfl fun index => by simp [Op.inLoop, List.countP_cons]
    · intro key' hk
      refine Tended.mono (h.care.awaited key' hk) (fun hf => ?_) (fun hr => Or.inr (Or.inl hr)) rfl fun hc => ?_
      · obtain rfl : key = key' := of_decide_eq_true hf
        exact (haccepts (h.current.accepts hk)).elim
      · exact Cleaning.congr hc rfl rfl fun heq => by cases heq

theorem Inv.abort (h : Inv s (.abort :: rest)) (ho : Op.abort.Orderly s rest k) :
    Inv s.abort.1 (s.abort.2 ++ rest) := by
  rw [Shared.abort]
  cases hcur : s.currentTransferId with
  | some key =>
      obtain ⟨hout, hc⟩ := h.current.outstanding_of_current hcur
      obtain ⟨em, hem⟩ := Option.isSome_iff_exists.mp (h.ledger.emitted key (h.ledger.mem_opened hout))
      exact h.close rfl hout (.done false .lost) (.done key false .lost ⟨em, hem, rfl⟩) (fun _ hb => by cases hb)
        (any_owed_eq_false (ho key hcur)) rfl rfl rfl rfl rfl rfl rfl rfl rfl rfl
  | none =>
      have hcancelled (key : Key) (hk : s.outstanding = some key) : key ∈ s.cancelled := by
        by_contra hn
        cases hcur.symm.trans (h.current.eq_of_not_cancelled hk hn)
      refine ⟨h.threads.replace rfl fun index => Nat.zero_le _, ?_, h.ledger.congr rfl rfl rfl rfl (.of_eq rfl rfl rfl) fun _ hk => Or.inl hk,
        ⟨?_, h.current.cancelled, fun _ hk => (by cases hk), fun _ _ _ hm => (by cases hm), fun _ _ hl => (by cases hl)⟩,
        h.care.frame ?_ rfl rfl rfl rfl fun _ hop' => by cases hop'⟩
      · intro op' hop'
        exact (h.valid op' (List.mem_cons_of_mem _ hop')).mono (.of_eq rfl rfl rfl) (fun _ _ hk => hk) fun _ _ _ =>
          ⟨rfl, fun hk => hk⟩
      · exact hcur.symm.trans h.current.current
      · intro key hk
        rcases h.care.awaited key hk with hf | hr | ⟨hn, -⟩
        · refine Or.inl ?_
          simpa [Op.finishes] using hf
        · exact Or.inr (Or.inl hr)
        · exact (hn (hcancelled key hk)).elim

end IsekaiTerminal.Orchestrator.Transfer
