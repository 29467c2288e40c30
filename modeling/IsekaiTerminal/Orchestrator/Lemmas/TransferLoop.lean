import IsekaiTerminal.Orchestrator.Lemmas.TransferSteps

/-!
# trzsz の転送の session と呼び出し

session のイベントループで起きること、アプリの呼び出し、そして実行の全体が、勘定の不変条件を保つ。
-/

namespace IsekaiTerminal.Orchestrator.Transfer

open Lib

variable {s s' : Shared} {op op' : Op} {ops new rest : List Op} {key : Key} {k : Choice} {em em' : Emission} {index : Nat}
  {session : Session}

/-! ## FSM の出力 -/

theorem emissions_emit_self (s : Shared) (key : Key) (em : Emission) : (s.emit key em).emissions key = some em :=
  Function.update_self _ _ _

theorem emissions_emit_of_ne {key' : Key} (h : key' ≠ key) : (s.emit key em).emissions key' = s.emissions key' :=
  Function.update_of_ne h _ _

theorem le_emit (hle : ∀ em, s.emissions key = some em → em.Le em') : s.Le (s.emit key em') where
  opened _ hk := hk
  published _ he := he
  emissions key' em hem := by
    by_cases heq : key' = key
    · subst heq
      exact ⟨em', emissions_emit_self s _ em', hle em hem⟩
    · exact ⟨em, (emissions_emit_of_ne heq).trans hem, .refl em⟩

/-- 完了を出していないことは、他の転送の出力では変わらない。 -/
theorem running_emit_of_ne {key' : Key} (h : s.Running key') (hne : key' ≠ key) : (s.emit key em).Running key' :=
  ⟨h.1, by rw [emissions_emit_of_ne hne]; exact h.2⟩

theorem Current.emit (h : Current s (op :: rest)) (hle : ∀ em, s.emissions key = some em → em.Le em')
    (hchunk : ∀ key', op.carries key' = false) (hother : ∀ key', key' ≠ key → op'.carries key' = false)
    (hself : ∀ em, s.emissions key = some em → Buffered s (op :: rest) key em ∨ s.Stale (op :: rest) key →
      Buffered (s.emit key em') ([op'] ++ rest) key em' ∨ (s.emit key em').Stale ([op'] ++ rest) key) :
    Current (s.emit key em') ([op'] ++ rest) where
  current := h.current
  cancelled := h.cancelled
  buffered key' hk := by
    obtain ⟨em, hem, hmode, hb⟩ := h.buffered key' hk
    by_cases heq : key' = key
    · subst heq
      refine ⟨em', emissions_emit_self s _ em', ?_, hb.imp_right (hself em hem)⟩
      rw [(hle em hem).mode]
      exact hmode
    · have hnew : ∀ op'' ∈ [op'], op''.carries key' = false := by
        intro op'' hop''
        rw [List.mem_singleton.mp hop'']
        exact hother key' heq
      refine ⟨em, (emissions_emit_of_ne heq).trans hem, hmode, hb.imp_right (Or.imp (fun hb => ?_) fun hstale => ?_)⟩
      · exact hb.congr rfl (Op.isChunk_of_carries (hchunk key')) fun op'' hop'' => Op.isChunk_of_carries (hnew op'' hop'')
      · exact hstale.congr ⟨fun _ session hs => ⟨session, hs, rfl⟩, le_rfl⟩ hnew
  mode key' hk mode hm := by
    have hold := h.mode key' hk mode hm
    by_cases heq : key' = key
    · subst heq
      obtain ⟨em, hem, hmode⟩ := (Option.any_eq_true _ _).mp hold
      rw [emissions_emit_self]
      refine decide_eq_true ?_
      rw [(hle em hem).mode]
      exact of_decide_eq_true hmode
    · rw [emissions_emit_of_ne heq]
      exact hold
  exceeded key' hk hlimit := by
    obtain ⟨em, hem, hlt⟩ := h.exceeded key' hk hlimit
    obtain ⟨em'', hem'', hle''⟩ := (le_emit hle).emissions key' em hem
    exact ⟨em'', hem'', hlt.trans_le hle''.chunks⟩

/-- FSM が転送の出力を加え、その続きの操作が 1 つ残る。 -/
theorem Inv.emit (h : Inv s (.loop index :: rest)) (hkey : key.session = index)
    (hle : ∀ em, s.emissions key = some em → em.Le em') (hvalid : op'.Valid (s.emit key em'))
    (hthread : ∀ i, op'.inLoop i = decide (index = i)) (howed : op'.owed = []) (hreplaces : op'.replaces = false)
    (hcurrent : Current (s.emit key em') ([op'] ++ rest))
    (hrunning : s.outstanding = some key → s.Running key → (s.emit key em').Tended ([op'] ++ rest) key) :
    Inv (s.emit key em') ([op'] ++ rest) where
  threads := h.threads.replace rfl fun i => by
    rw [List.countP_singleton, hthread]
    exact le_rfl
  valid op'' hop'' := by
    rcases List.mem_append.mp hop'' with hop'' | hop''
    · rw [List.mem_singleton.mp hop'']
      exact hvalid
    · refine (h.valid op'' (List.mem_cons_of_mem _ hop'')).mono (le_emit hle) (fun _ _ hk => hk) ?_
      intro key' mode heq
      have hne : key' ≠ key := by
        rintro rfl
        have hfalse := h.threads.tail index (decide_eq_true rfl) op'' hop''
        rw [heq] at hfalse
        simp [Op.inLoop, hkey] at hfalse
      exact ⟨emissions_emit_of_ne hne, fun hk => hk⟩
  ledger := by
    refine h.ledger.congr ?_ rfl rfl rfl (le_emit hle) fun _ hk => Or.inl hk
    rw [List.flatMap_cons, howed]
    rfl
  current := hcurrent
  care := by
    refine h.care.frame (fun key' hk => ?_) rfl rfl rfl rfl fun op'' hop'' => ?_
    · refine Tended.mono (h.care.awaited key' hk) (fun hf => by cases hf) (fun hr => ?_) rfl fun hc => ?_
      · by_cases heq : key' = key
        · subst heq
          exact hrunning hk hr
        · exact Or.inr (Or.inl (running_emit_of_ne hr heq))
      · exact Cleaning.congr hc rfl rfl fun heq => by cases heq
    · rw [List.mem_singleton.mp hop'']
      exact hreplaces

/-- 同じ session の操作は、他にない。 -/
theorem Threads.carries (h : Threads s (.loop index :: rest)) (key : Key) (hkey : key.session = index) :
    ∀ op ∈ .loop index :: rest, op.carries key = false := by
  intro op hop
  rcases List.mem_cons.mp hop with rfl | hop
  · rfl
  · have hfalse := h.tail index (decide_eq_true rfl) op hop
    cases op with
    | chunk key' data =>
        refine decide_eq_false fun heq => ?_
        simp [Op.inLoop, heq, hkey] at hfalse
    | finish key' success =>
        refine decide_eq_false fun heq => ?_
        simp [Op.inLoop, heq, hkey] at hfalse
    | _ => rfl

/-- 今の世代の session は、古くない。 -/
theorem Shared.Stale.not_current (h : s.Stale ops key) (hs : s.sessions[key.session]? = some session) :
    session.generation ≠ s.sessionGeneration := by
  obtain ⟨⟨session', hs', hlt⟩, -⟩ := h
  obtain rfl := Option.some.inj (hs.symm.trans hs')
  exact hlt.ne

theorem Inv.onTrzszRequest {transferId : String} {mode : TrzszMode} (h : Inv s (.loop index :: rest))
    (hnone : s.emissions ⟨index, transferId⟩ = none) :
    Inv (s.emit ⟨index, transferId⟩ ⟨mode, [], none⟩)
      (s.ifCurrent index session.generation (.request ⟨index, transferId⟩ mode) ++ rest) := by
  have hle (em : Emission) (hem : s.emissions ⟨index, transferId⟩ = some em) : em.Le ⟨mode, [], none⟩ := by
    cases hnone.symm.trans hem
  have hnew : (⟨index, transferId⟩ : Key) ∉ s.opened := by
    intro hk
    have hsome := h.ledger.emitted _ hk
    rw [hnone] at hsome
    cases hsome
  rw [Shared.ifCurrent]
  split
  · refine h.emit rfl hle ⟨emissions_emit_self _ _ _, hnew⟩ (fun i => rfl) rfl rfl ?_ ?_
    · exact h.current.emit hle (fun _ => rfl) (fun _ _ => rfl) fun em hem => by cases hnone.symm.trans hem
    · intro ho
      exact (hnew (h.ledger.mem_opened ho)).elim
  · refine h.emit rfl hle trivial (fun i => rfl) rfl rfl ?_ ?_
    · exact h.current.emit hle (fun _ => rfl) (fun _ _ => rfl) fun em hem => by cases hnone.symm.trans hem
    · intro ho
      exact (hnew (h.ledger.mem_opened ho)).elim

theorem Inv.onTrzszDownloadChunk {transferId : String} {data : List UInt8} (h : Inv s (.loop index :: rest))
    (hs : s.sessions[index]? = some session) (hem : s.emissions ⟨index, transferId⟩ = some em) (hf : em.finished = none) :
    Inv (s.emit ⟨index, transferId⟩ { em with chunks := em.chunks ++ data })
      (s.ifCurrent index session.generation (.chunk ⟨index, transferId⟩ data) ++ rest) := by
  have hle (em' : Emission) (hem' : s.emissions ⟨index, transferId⟩ = some em') :
      em'.Le { em with chunks := em.chunks ++ data } := by
    obtain rfl := Option.some.inj (hem.symm.trans hem')
    refine ⟨rfl, ?_, fun hsome => ?_⟩
    · rw [List.length_append]
      exact Nat.le_add_right _ _
    · rw [hf] at hsome
      cases hsome
  have hrunning (hr : s.Running ⟨index, transferId⟩) :
      (s.emit ⟨index, transferId⟩ { em with chunks := em.chunks ++ data }).Running ⟨index, transferId⟩ := by
    refine ⟨hr.1, ?_⟩
    rw [emissions_emit_self]
    simp [hf]
  have hcarries := h.threads.carries ⟨index, transferId⟩ rfl
  rw [Shared.ifCurrent]
  split
  · rename_i hgeneration
    refine h.emit rfl hle trivial (fun i => rfl) rfl rfl ?_ fun _ hr => Or.inr (Or.inl (hrunning hr))
    refine h.current.emit hle (fun _ => rfl) (fun key' hne => decide_eq_false (Ne.symm hne)) fun em' hem' hb => Or.inl ?_
    obtain rfl := Option.some.inj (hem.symm.trans hem')
    have hb : Buffered s (.loop index :: rest) ⟨index, transferId⟩ em :=
      hb.resolve_right fun hstale => hstale.not_current hs hgeneration
    have hbuf : s.downloadBuf = em.chunks := by
      refine hb.2 fun data' hd => ?_
      have hfalse := hcarries _ hd
      simp [Op.carries] at hfalse
    refine ⟨fun data' hd => ?_, fun hd => (hd data (List.mem_append_left _ List.mem_cons_self)).elim⟩
    rcases List.mem_append.mp hd with hd | hd
    · obtain ⟨-, rfl⟩ := Op.chunk.inj (List.mem_singleton.mp hd)
      exact congrArg (· ++ data') hbuf
    · have hfalse := hcarries _ (List.mem_cons_of_mem _ hd)
      simp [Op.carries] at hfalse
  · rename_i hgeneration
    refine h.emit rfl hle trivial (fun i => rfl) rfl rfl ?_ fun _ hr => Or.inr (Or.inl (hrunning hr))
    refine h.current.emit hle (fun _ => rfl) (fun _ _ => rfl) fun em' hem' _ => Or.inr ⟨⟨session, hs, ?_⟩, hcarries⟩
    exact lt_of_le_of_ne (h.care.generations session (List.mem_of_getElem? hs)) hgeneration

theorem Inv.onTrzszFinished {transferId : String} {success : Bool} (h : Inv s (.loop index :: rest))
    (hs : s.sessions[index]? = some session) (hem : s.emissions ⟨index, transferId⟩ = some em) (hf : em.finished = none) :
    Inv (s.emit ⟨index, transferId⟩ { em with finished := some success })
      (s.ifCurrent index session.generation (.finish ⟨index, transferId⟩ success) ++ rest) := by
  have hle (em' : Emission) (hem' : s.emissions ⟨index, transferId⟩ = some em') :
      em'.Le { em with finished := some success } := by
    obtain rfl := Option.some.inj (hem.symm.trans hem')
    refine ⟨rfl, le_rfl, fun hsome => ?_⟩
    rw [hf] at hsome
    cases hsome
  rw [Shared.ifCurrent]
  split
  · rename_i hgeneration
    refine h.emit rfl hle ⟨_, emissions_emit_self _ _ _, rfl⟩ (fun i => rfl) rfl rfl ?_ fun _ _ => Or.inl ?_
    · refine h.current.emit hle (fun _ => rfl) (fun key' hne => decide_eq_false (Ne.symm hne)) fun em' hem' hb => Or.inl ?_
      obtain rfl := Option.some.inj (hem.symm.trans hem')
      have hb : Buffered s (.loop index :: rest) ⟨index, transferId⟩ em :=
        hb.resolve_right fun hstale => hstale.not_current hs hgeneration
      exact hb.congr rfl rfl fun op' hop' => by rw [List.mem_singleton.mp hop']; rfl
    · rw [List.any_append, List.any_cons, Op.finishes, decide_eq_true rfl, Bool.true_or, Bool.true_or]
  · rename_i hgeneration
    refine h.emit rfl hle trivial (fun i => rfl) rfl rfl ?_ fun _ hr => (hgeneration ?_).elim
    · refine h.current.emit hle (fun _ => rfl) (fun _ _ => rfl) fun em' hem' hb => ?_
      obtain rfl := Option.some.inj (hem.symm.trans hem')
      refine hb.imp (fun hb => ?_) fun hstale => ?_
      · exact hb.congr rfl rfl fun op' hop' => by rw [List.mem_singleton.mp hop']; rfl
      · refine hstale.congr ⟨fun _ session hs => ⟨session, hs, rfl⟩, le_rfl⟩ fun op' hop' => ?_
        rw [List.mem_singleton.mp hop']
        rfl
    · exact congrArg Session.generation (Option.some.inj (hs.symm.trans hr.1))

/-! ## session の終わり -/

theorem Inv.onDisconnected (h : Inv s (.loop index :: rest)) (hs : s.sessions[index]? = some session)
    (ho : ∀ key ∈ s.outstanding, key ∈ s.cancelled → key.session ≠ index) :
    Inv { s with sessions := s.sessions.set index { session with ended := true } }
      ((if session.generation = s.sessionGeneration then [.abort] else []) ++ rest) := by
  have hother {i : Nat} (hne : i ≠ index) :
      (s.sessions.set index { session with ended := true })[i]? = s.sessions[i]? := List.getElem?_set_ne hne.symm
  have hself : (s.sessions.set index { session with ended := true })[index]? = some { session with ended := true } := by
    rw [List.getElem?_set_self (List.getElem?_eq_some_iff.mp hs).1]
  have hnew : ∀ op' ∈ (if session.generation = s.sessionGeneration then [.abort] else [] : List Op), op' = .abort := by
    intro op' hop'
    split at hop'
    · exact List.mem_singleton.mp hop'
    · cases hop'
  refine h.control ?_ ⟨fun key hk => ?_, ?_, ?_, ?_⟩ rfl rfl rfl rfl rfl rfl rfl rfl rfl ⟨fun i session' hs' => ?_, le_rfl⟩ (fun _ => rfl)
    ?_ ?_ ?_
  · refine h.threads.replace (List.length_set ..) fun i => ?_
    split <;> exact Nat.zero_le _
  · refine Tended.mono (h.care.awaited key hk) (fun hf => by cases hf) (fun hr => ?_) rfl fun hc => ?_
    · by_cases hkey : key.session = index
      · -- 今の世代の session が終われば、片付けを行う
        have hgeneration : session.generation = s.sessionGeneration := by
          have hsession := hr.1
          rw [hkey] at hsession
          exact congrArg Session.generation (Option.some.inj (hs.symm.trans hsession))
        refine Or.inr (Or.inr ⟨fun hc => ho key hk hc hkey, Or.inl ?_⟩)
        rw [if_pos hgeneration]
        exact List.mem_append_left _ List.mem_cons_self
      · exact Or.inr (Or.inl ⟨(hother hkey).trans hr.1, hr.2⟩)
    · exact Cleaning.congr hc rfl rfl fun heq => by cases heq
  · rcases h.care.stored with hnil | hsome | ⟨i, hstore⟩
    · rw [hnil] at hs
      cases hs
    · exact Or.inr (Or.inl hsome)
    · refine Or.inr (Or.inr ⟨i, List.mem_append_right _ ?_⟩)
      simpa using hstore
  · intro session' hs'
    rcases List.mem_or_eq_of_mem_set hs' with hs' | rfl
    · exact h.care.generations session' hs'
    · exact h.care.generations session (List.mem_of_getElem? hs)
  · intro generation hm
    rcases List.mem_append.mp hm with hm | hm
    · cases hnew _ hm
    · exact h.care.connecting generation (List.mem_cons_of_mem _ hm)
  · by_cases hi : i = index
    · subst hi
      obtain rfl := Option.some.inj (hs.symm.trans hs')
      exact ⟨_, hself, rfl⟩
    · exact ⟨session', (hother hi).trans hs', rfl⟩
  · intro op' hop' key
    rw [hnew op' hop']
    rfl
  · split <;> rfl
  · intro op' hop'
    rw [hnew op' hop']
    trivial

theorem Inv.callback (h : Inv s (.loop index :: rest)) (hs : s.sessions[index]? = some session) (c : Callback)
    (ho : c = .onDisconnected → ∀ key ∈ s.outstanding, key ∈ s.cancelled → key.session ≠ index) :
    Inv (s.callback index session c).1 ((s.callback index session c).2 ++ rest) := by
  cases c with
  | onTrzszRequest transferId mode =>
      simp only [Shared.callback]
      split
      · rename_i hnone
        exact h.onTrzszRequest hnone
      · exact h
  | onTrzszDownloadChunk transferId data =>
      simp only [Shared.callback]
      split
      · rename_i em hem
        split
        · rename_i hf
          exact h.onTrzszDownloadChunk hs hem hf
        · exact h
      · exact h
  | onTrzszFinished transferId success =>
      simp only [Shared.callback]
      split
      · rename_i em hem
        split
        · rename_i hf
          exact h.onTrzszFinished hs hem hf
        · exact h
      · exact h
  | onDisconnected => exact h.onDisconnected hs (ho rfl)

theorem Inv.loop (h : Inv s (.loop index :: rest))
    (ho : k = .event .onDisconnected → ∀ key ∈ s.outstanding, key ∈ s.cancelled → key.session ≠ index) :
    Inv (s.loop index k).1 ((s.loop index k).2 ++ rest) := by
  cases hs : s.sessions[index]? with
  | none =>
      simp only [Shared.loop, hs]
      exact h
  | some session =>
      cases k with
      | event c =>
          simp only [Shared.loop, hs]
          exact h.callback hs c fun hc => ho (congrArg Choice.event hc)
      | ok =>
          simp only [Shared.loop, hs]
          exact h
      | err =>
          simp only [Shared.loop, hs]
          exact h

/-- 何も変えない操作を加える。 -/
theorem Inv.idle (h : Inv s ops) : Inv s (.handleUnexpectedDisconnect 0 :: ops) where
  threads index := by
    rw [List.countP_cons_of_neg (by simp [Op.inLoop])]
    exact h.threads index
  valid op hop := by
    rcases List.mem_cons.mp hop with rfl | hop
    · trivial
    · exact h.valid op hop
  ledger := ⟨h.ledger.emitted, h.ledger.waiting, h.ledger.done, h.ledger.complete, h.ledger.early, h.ledger.log⟩
  current := by
    refine ⟨h.current.current, h.current.cancelled, fun key hk => ?_, h.current.mode, h.current.exceeded⟩
    obtain ⟨em, hem, hmode, hb⟩ := h.current.buffered key hk
    refine ⟨em, hem, hmode, hb.imp_right ?_⟩
    rintro (hb | hstale)
    · refine Or.inl ⟨fun data hd => hb.1 data (by simpa using hd), fun hd => hb.2 fun data hm => ?_⟩
      exact hd data (List.mem_cons_of_mem _ hm)
    · refine Or.inr ⟨hstale.1, fun op hop => ?_⟩
      rcases List.mem_cons.mp hop with rfl | hop
      · rfl
      · exact hstale.2 op hop
  care := by
    refine ⟨fun key hk => ?_, ?_, h.care.generations, fun generation hm => h.care.connecting generation (by simpa using hm)⟩
    · rcases h.care.awaited key hk with hf | hr | ⟨hc, hm | hcount⟩
      · exact Or.inl (by rw [List.any_cons, hf, Bool.or_true])
      · exact Or.inr (Or.inl hr)
      · exact Or.inr (Or.inr ⟨hc, Or.inl (List.mem_cons_of_mem _ hm)⟩)
      · exact Or.inr (Or.inr ⟨hc, Or.inr hcount⟩)
    · rcases h.care.stored with hs | hs | ⟨index, hs⟩
      · exact Or.inl hs
      · exact Or.inr (Or.inl hs)
      · exact Or.inr (Or.inr ⟨index, List.mem_cons_of_mem _ hs⟩)

theorem Inv.trzszCancel (h : Inv s ops) (ho : Call.trzszCancel.Orderly s ops) : Inv s.trzszCancel ops := by
  cases hcur : s.currentTransferId with
  | none =>
      have heq : s.trzszCancel = s := by
        rw [Shared.trzszCancel, hcur]
        cases s
        simp_all
      rw [heq]
      exact h
  | some key =>
      obtain ⟨hout, hc⟩ := h.current.outstanding_of_current hcur
      have hcancelled : s.trzszCancel.cancelled = key :: s.cancelled := by
        rw [Shared.trzszCancel, hcur]
        rfl
      have honly : ∀ key' ∈ s.trzszCancel.cancelled, key' ∈ s.cancelled ∨ s.outstanding = some key' := by
        intro key' hk
        rw [hcancelled] at hk
        rcases List.mem_cons.mp hk with rfl | hk
        · exact Or.inr hout
        · exact Or.inl hk
      refine ⟨h.threads, fun op hop => ?_, ?_, ⟨?_, fun key' hk => ?_, fun _ hk => (by cases hk), h.current.mode, h.current.exceeded⟩,
        ⟨fun key' hk => ?_, h.care.stored, h.care.generations, h.care.connecting⟩⟩
      · exact (h.valid op hop).mono (.of_eq rfl rfl rfl) (h.ledger.cancelled_of_owed hop honly) fun _ _ _ => ⟨rfl, fun hk => hk⟩
      · have hledger : Ledger s.trzszCancel ([] ++ ops) := h.idle.ledger.congr rfl rfl rfl rfl (.of_eq rfl rfl rfl) honly
        exact hledger
      · show none = s.outstanding.filter (· ∉ s.trzszCancel.cancelled)
        rw [hout, hcancelled, Option.filter_some, if_neg (by simp)]
      · rcases honly key' hk with hk | hk
        · exact h.current.cancelled key' hk
        · exact h.ledger.mem_opened hk
      · obtain rfl := Option.some.inj (hout.symm.trans hk)
        rcases ho key hcur with hf | hr
        · exact Or.inl hf
        · exact Or.inr (Or.inl hr)

theorem countP_idle {f : Published → Bool} (hf : f .idle = false) :
    (s.events (.notify [.idle] none :: ops)).countP f = (s.events ops).countP f := by
  rw [countP_events, countP_events, List.flatMap_cons, Op.owed, List.countP_append, List.countP_cons, hf]
  simp

/-- 転送がないときに閉じる。 -/
theorem Inv.trzszDismiss (h : Inv s ops) (ho : s.currentTransferId = none) :
    Inv { s with trzszMode := none, currentTransferId := none } (.notify [.idle] none :: ops) where
  threads index := by
    rw [List.countP_cons_of_neg (by simp [Op.inLoop])]
    exact h.threads index
  valid op hop := by
    rcases List.mem_cons.mp hop with rfl | hop
    · exact ⟨.idle, fun key hw => by cases hw⟩
    · exact (h.valid op hop).mono (.of_eq rfl rfl rfl) (fun _ _ hk => hk) fun _ _ _ => ⟨rfl, fun hk => hk⟩
  ledger := by
    refine ⟨h.ledger.emitted, fun key => ?_, fun key => ?_, fun key => ?_, fun key hc => h.ledger.early key hc, ?_⟩
    · exact (countP_idle rfl).trans (h.ledger.waiting key)
    · rw [countP_idle rfl]
      exact h.ledger.done key
    · rw [countP_idle rfl]
      exact h.ledger.complete key
    · intro before e after heq
      obtain ⟨horder, hjustified⟩ := h.ledger.log before e after heq
      exact ⟨horder, hjustified.mono (.of_eq rfl rfl rfl) (fun _ hb => hb) fun _ _ hk => hk⟩
  current := ⟨ho ▸ h.current.current, h.current.cancelled, fun _ hk => (by cases hk), fun _ _ _ hm => (by cases hm), h.current.exceeded⟩
  care := by
    refine ⟨fun key hk => ?_, ?_, h.care.generations, fun generation hm => h.care.connecting generation (by simpa using hm)⟩
    · rcases h.care.awaited key hk with hf | hr | ⟨hc, hm | hcount⟩
      · exact Or.inl (by rw [List.any_cons, hf, Bool.or_true])
      · exact Or.inr (Or.inl hr)
      · exact Or.inr (Or.inr ⟨hc, Or.inl (List.mem_cons_of_mem _ hm)⟩)
      · exact Or.inr (Or.inr ⟨hc, Or.inr hcount⟩)
    · rcases h.care.stored with hs | hs | ⟨index, hs⟩
      · exact Or.inl hs
      · exact Or.inr (Or.inl hs)
      · exact Or.inr (Or.inr ⟨index, List.mem_cons_of_mem _ hs⟩)

theorem Inv.connect (h : Inv s ops) : Inv s ([.newAdapter] ++ ops) := by
  refine h.idle.control (fun index => ?_) ⟨fun key hk => ?_, ?_, h.care.generations, fun generation hm => ?_⟩ rfl rfl rfl rfl rfl rfl rfl
    rfl rfl (.refl s) (fun _ => rfl) (by simp [Op.Empty, Op.carries]) rfl (by simp [Op.Valid])
  · rw [List.countP_append, List.countP_singleton, if_neg (by simp [Op.inLoop]), Nat.zero_add]
    exact h.threads index
  · rcases h.care.awaited key hk with hf | hr | ⟨hc, hm | hcount⟩
    · exact Or.inl (by rw [List.any_append, hf, Bool.or_true])
    · exact Or.inr (Or.inl hr)
    · exact Or.inr (Or.inr ⟨hc, Or.inl (List.mem_append_right _ hm)⟩)
    · refine Or.inr (Or.inr ⟨hc, Or.inr ?_⟩)
      rw [List.countP_append]
      exact hcount.trans (Nat.add_le_add_left (Nat.le_add_left _ _) _)
  · rcases h.care.stored with hs | hs | ⟨index, hs⟩
    · exact Or.inl hs
    · exact Or.inr (Or.inl hs)
    · exact Or.inr (Or.inr ⟨index, List.mem_append_right _ hs⟩)
  · exact h.care.connecting generation (by simpa using hm)

theorem Inv.abortInFlightAttempt (h : Inv s ops)
    (ho : ∀ key ∈ s.outstanding, key ∈ s.cancelled → ops.any (Op.finishes key) = true) :
    Inv { s with sessionGeneration := s.sessionGeneration + 1 } ([.abort] ++ ops) := by
  refine h.idle.control (fun index => ?_) ⟨fun key hk => ?_, ?_, fun session hs => ?_, fun generation hm => ?_⟩ rfl rfl rfl rfl rfl rfl rfl
    rfl rfl ⟨fun _ session hs => ⟨session, hs, rfl⟩, Nat.le_succ _⟩ (fun _ => rfl) (by simp [Op.Empty, Op.carries]) rfl
    (by simp [Op.Valid])
  · rw [List.countP_append, List.countP_singleton, if_neg (by simp [Op.inLoop]), Nat.zero_add]
    exact h.threads index
  · by_cases hc : key ∈ s.cancelled
    · exact Or.inl (by rw [List.any_append, ho key hk hc, Bool.or_true])
    · exact Or.inr (Or.inr ⟨hc, Or.inl (List.mem_append_left _ List.mem_cons_self)⟩)
  · rcases h.care.stored with hs | hs | ⟨index, hs⟩
    · exact Or.inl hs
    · exact Or.inr (Or.inl hs)
    · exact Or.inr (Or.inr ⟨index, List.mem_append_right _ hs⟩)
  · exact (h.care.generations session hs).trans (Nat.le_succ _)
  · exact (h.care.connecting generation (by simpa using hm)).trans (Nat.le_succ _)

theorem Inv.networkLost (h : Inv s ops) (generation : Nat) :
    Inv s ((if generation = s.sessionGeneration then [.handleUnexpectedDisconnect generation] else []) ++ ops) := by
  have hnew : ∀ op' ∈ (if generation = s.sessionGeneration then [.handleUnexpectedDisconnect generation] else [] : List Op),
      op' = .handleUnexpectedDisconnect generation := by
    intro op' hop'
    split at hop'
    · exact List.mem_singleton.mp hop'
    · cases hop'
  refine h.idle.control ?_ (h.idle.care.frame (fun key hk => ?_) rfl rfl rfl rfl ?_) rfl rfl rfl rfl rfl rfl rfl rfl rfl (.refl s)
    (fun _ => rfl) ?_ ?_ ?_
  · refine h.idle.threads.replace rfl fun index => ?_
    split <;> exact Nat.zero_le _
  · refine Tended.mono (h.idle.care.awaited key hk) (fun hf => by cases hf) (fun hr => Or.inr (Or.inl hr)) rfl fun hc => ?_
    exact Cleaning.congr hc rfl rfl fun heq => by cases heq
  · intro op' hop'
    rw [hnew op' hop']
    rfl
  · intro op' hop' key
    rw [hnew op' hop']
    rfl
  · split <;> rfl
  · intro op' hop'
    rw [hnew op' hop']
    trivial

/-! ## 取り消した転送 -/

/-- 取り消した転送は、`Done` を約束していないか、FSM が完了を出し、それも扱われた。 -/
def Retired (s : Shared) (ops : List Op) : Prop :=
  ∀ key ∈ s.cancelled, s.outstanding ≠ some key → s.Concluded key ∧ ops.any (Op.finishes key) = false

theorem Retired.perm {ops' : List Op} (h : Retired s ops) (hp : ops.Perm ops') : Retired s ops' := by
  intro key hk hout
  rw [← hp.any_eq]
  exact h key hk hout

theorem Retired.frame (h : Retired s ops) (hsub : rest ⊆ ops) (hconcluded : ∀ key, s.Concluded key → s'.Concluded key)
    (hcancelled : ∀ key ∈ s'.cancelled, s'.outstanding ≠ some key → key ∈ s.cancelled ∧ s.outstanding ≠ some key)
    (hnew : ∀ key, s.Concluded key → new.any (Op.finishes key) = false) : Retired s' (new ++ rest) := by
  intro key hk hout
  obtain ⟨hc, hany⟩ := (hcancelled key hk hout).elim (h key)
  refine ⟨hconcluded key hc, ?_⟩
  rw [List.any_append, hnew key hc, Bool.false_or, List.any_eq_false]
  exact fun op hop => List.any_eq_false.mp hany op (hsub hop)

/-- 転送の状態に触れない操作。 -/
theorem Retired.control (h : Retired s (op :: rest)) (hemissions : s'.emissions = s.emissions)
    (houtstanding : s'.outstanding = s.outstanding) (hcancelled : s'.cancelled = s.cancelled)
    (hnew : ∀ key, new.any (Op.finishes key) = false) : Retired s' (new ++ rest) := by
  refine h.frame (List.subset_cons_self op rest) (fun key hc => ?_) (fun key hk hout => ?_) fun key _ => hnew key
  · rw [Shared.Concluded, hemissions]
    exact hc
  · exact ⟨hcancelled ▸ hk, houtstanding ▸ hout⟩

theorem Shared.Running.not_concluded (h : s.Running key) : ¬ s.Concluded key := by
  intro hc
  obtain ⟨em, hem, hnone⟩ := (Option.any_eq_true _ _).mp h.2
  rw [Shared.Concluded, hem, Option.any_some] at hc
  rw [Option.isNone_iff_eq_none.mp hnone] at hc
  cases hc

/-- FSM が完了を出した、取り消した転送は、その完了をこれから扱う。 -/
theorem Inv.finishes_of_concluded (h : Inv s ops) (hout : s.outstanding = some key) (hk : key ∈ s.cancelled)
    (hc : s.Concluded key) : ops.any (Op.finishes key) = true := by
  rcases h.care.awaited key hout with hf | hr | ⟨hn, -⟩
  · exact hf
  · exact (hr.not_concluded hc).elim
  · exact (hn hk).elim

theorem Inv.outstanding_eq_none {mode : TrzszMode} (h : Inv s (.request key mode :: rest)) (hcur : s.currentTransferId = none)
    (hcancelled : ∀ key' ∈ s.cancelled, s.Concluded key' ∧ rest.any (Op.finishes key') = false) : s.outstanding = none := by
  cases hout : s.outstanding with
  | none => rfl
  | some key' =>
      by_cases hk : key' ∈ s.cancelled
      · obtain ⟨hc, hf⟩ := hcancelled key' hk
        exact (Bool.eq_false_iff.mp hf (h.finishes_of_concluded hout hk hc)).elim
      · cases hcur.symm.trans (h.current.eq_of_not_cancelled hout hk)

theorem Inv.loop_of_orderly (h : Inv s (.loop index :: rest)) (ho : (Op.loop index).Orderly s rest k)
    (hk : k = .event .onDisconnected) : ∀ key ∈ s.outstanding, key ∈ s.cancelled → key.session ≠ index := by
  intro key hout hc hkey
  obtain ⟨op, hop, hf⟩ := List.any_eq_true.mp (h.finishes_of_concluded hout hc (ho hk key hc hkey))
  have hfalse := h.threads.carries key hkey op hop
  cases op with
  | finish key' success => exact Bool.eq_false_iff.mp hfalse hf
  | _ => cases hf

theorem Inv.finish_of_orderly {success : Bool} (h : Inv s (.finish key success :: rest))
    (hr : Retired s (.finish key success :: rest)) (ho : (Op.finish key success).Orderly s rest k)
    (haccepts : s.accepts key.transferId = true) : s.outstanding = some key := by
  rcases (ho haccepts).1 with hcur | hc
  · exact (h.current.outstanding_of_current hcur).1
  · by_contra hout
    have hf := (hr key hc hout).2
    rw [List.any_cons, Op.finishes, decide_eq_true rfl, Bool.true_or] at hf
    cases hf

theorem Inv.connect_of_orderly {generation : Nat} (h : Inv s (.connect generation :: rest))
    (ho : (Op.connect generation).Orderly s rest .err) : ∀ key ∈ s.outstanding, s.Tended rest key := by
  intro key hout
  by_cases hc : key ∈ s.cancelled
  · rcases h.care.awaited key hout with hf | hr | ⟨hn, -⟩
    · exact Or.inl hf
    · exact Or.inr (Or.inl hr)
    · exact (hn hc).elim
  · exact (ho rfl key (h.current.eq_of_not_cancelled hout hc)).imp_right (Or.imp_right fun hcleaning => ⟨hc, hcleaning⟩)

/-! ## 取り消した転送の勘定 -/

theorem Retired.emit (h : Retired s (.loop index :: rest)) (hn : ¬ s.Concluded key) (generation : Nat)
    (hop : ∀ key', op.finishes key' = true → key' = key) :
    Retired (s.emit key em) (s.ifCurrent index generation op ++ rest) := by
  refine h.frame (List.subset_cons_self _ rest) (fun key' hc => ?_) (fun key' hk hout => ⟨hk, hout⟩) fun key' hc => ?_
  · have hne : key' ≠ key := fun heq => hn (heq ▸ hc)
    rw [Shared.Concluded, emissions_emit_of_ne hne]
    exact hc
  · rw [Shared.ifCurrent, List.any_cons, List.any_nil, Bool.or_false]
    split
    · exact Bool.eq_false_iff.mpr fun hf => hn (hop key' hf ▸ hc)
    · rfl

theorem Retired.callback (h : Retired s (.loop index :: rest)) (c : Callback) :
    Retired (s.callback index session c).1 ((s.callback index session c).2 ++ rest) := by
  have hunfinished {key : Key} {em : Emission} (hem : s.emissions key = some em) (hf : em.finished = none) : ¬ s.Concluded key := by
    rw [Shared.Concluded, hem, Option.any_some, hf]
    exact Bool.false_ne_true
  cases c with
  | onTrzszRequest transferId mode =>
      simp only [Shared.callback]
      split
      · rename_i hnone
        refine h.emit ?_ session.generation ?_
        · rw [Shared.Concluded, hnone]
          exact Bool.false_ne_true
        · intro key' hf
          cases hf
      · exact h
  | onTrzszDownloadChunk transferId data =>
      simp only [Shared.callback]
      split
      · rename_i em hem
        split
        · rename_i hf
          refine h.emit (hunfinished hem hf) session.generation ?_
          intro key' hf
          cases hf
        · exact h
      · exact h
  | onTrzszFinished transferId success =>
      simp only [Shared.callback]
      split
      · rename_i em hem
        split
        · rename_i hf
          refine h.emit (hunfinished hem hf) session.generation ?_
          intro key' hf
          exact (of_decide_eq_true hf).symm
        · exact h
      · exact h
  | onDisconnected =>
      simp only [Shared.callback]
      refine h.control rfl rfl rfl fun key => ?_
      split <;> rfl

theorem Retired.loop (h : Retired s (.loop index :: rest)) : Retired (s.loop index k).1 ((s.loop index k).2 ++ rest) := by
  cases hs : s.sessions[index]? with
  | none =>
      simp only [Shared.loop, hs]
      exact h
  | some session =>
      cases k with
      | event c =>
          simp only [Shared.loop, hs]
          exact h.callback c
      | ok =>
          simp only [Shared.loop, hs]
          exact h
      | err =>
          simp only [Shared.loop, hs]
          exact h

theorem Retired.finish {success : Bool} (h : Retired s (.finish key success :: rest))
    (hi : Inv s (.finish key success :: rest)) (hout : s.accepts key.transferId = true → s.outstanding = some key) :
    Retired (s.onTrzszFinished key success).1 ((s.onTrzszFinished key success).2 ++ rest) := by
  rw [Shared.onTrzszFinished]
  split
  · rename_i haccepts
    intro key' hk _
    by_cases heq : key = key'
    · -- 完了を扱うのは、この操作だけである
      subst heq
      obtain ⟨em, hem, hfinished⟩ := hi.valid _ List.mem_cons_self
      have htail := hi.threads.tail key.session (decide_eq_true rfl)
      refine ⟨?_, List.any_eq_false.mpr fun op hop => ?_⟩
      · show (s.emissions key).any _ = true
        rw [hem, Option.any_some, hfinished]
        rfl
      · rcases List.mem_cons.mp hop with rfl | hmem
        · exact Bool.false_ne_true
        · have hfalse := htail op hmem
          cases op with
          | finish key' success' =>
              intro hf
              obtain rfl : key' = key := of_decide_eq_true hf
              exact Bool.eq_false_iff.mp hfalse (decide_eq_true rfl)
          | _ => exact Bool.false_ne_true
    · have hne : s.outstanding ≠ some key' := by
        rw [hout haccepts]
        exact fun ho => heq (Option.some.inj ho)
      obtain ⟨hc, hf⟩ := h key' hk hne
      rw [List.any_cons, Bool.or_eq_false_iff] at hf
      exact ⟨hc, hf.2⟩
  · exact h.control rfl rfl rfl fun _ => rfl

theorem Retired.abort (h : Retired s (.abort :: rest)) (hi : Inv s (.abort :: rest)) :
    Retired s.abort.1 (s.abort.2 ++ rest) := by
  refine h.frame (List.subset_cons_self _ rest) (fun _ hc => hc) (fun key hk hout => ⟨hk, ?_⟩) fun key _ => ?_
  · intro ho
    cases hcur : s.currentTransferId with
    | none =>
        refine hout ?_
        rw [Shared.abort, hcur]
        exact ho
    | some key' =>
        obtain ⟨hout', hc⟩ := hi.current.outstanding_of_current hcur
        obtain rfl := Option.some.inj (hout'.symm.trans ho)
        exact hc hk
  · rw [Shared.abort]
    cases s.currentTransferId <;> rfl

theorem Retired.exec (h : Retired s (op :: rest)) (hi : Inv s (op :: rest)) (ho : op.Orderly s rest k) :
    Retired (s.exec op k).1 ((s.exec op k).2.1 ++ (s.exec op k).2.2.flatten ++ rest) := by
  cases op with
  | loop index => simpa only [Shared.exec, List.flatten_nil, List.append_nil] using h.loop
  | request key mode =>
      refine h.frame (List.subset_cons_self _ rest) (fun _ hc => hc) (fun key' hk _ => ⟨hk, ?_⟩) fun _ _ => rfl
      rw [hi.outstanding_eq_none ho.1 ho.2.1]
      exact (Option.some_ne_none key').symm
  | chunk key data =>
      simp only [Shared.exec, Shared.onTrzszDownloadChunk]
      split
      · split <;> exact h.control rfl rfl rfl fun _ => rfl
      · exact h.control rfl rfl rfl fun _ => rfl
  | finish key success =>
      simpa only [Shared.exec, List.flatten_nil, List.append_nil] using h.finish hi (hi.finish_of_orderly h ho)
  | notify events back =>
      have hresume (events : List Published) (key : Key) : (Shared.resume events back).any (Op.finishes key) = false := by
        rw [Shared.resume]
        split
        · cases back <;> rfl
        · rfl
      cases events with
      | nil =>
          simp only [Shared.exec, List.flatten_nil, List.append_nil]
          exact h.control rfl rfl rfl (hresume [])
      | cons e events =>
          simp only [Shared.exec, List.flatten_nil, List.append_nil]
          exact h.control rfl rfl rfl (hresume events)
  | abort => simpa only [Shared.exec, List.flatten_nil, List.append_nil] using h.abort hi
  | handleUnexpectedDisconnect generation =>
      refine h.control rfl rfl rfl fun key => ?_
      rw [Shared.exec, Shared.handleUnexpectedDisconnect]
      split <;> rfl
  | newAdapter => exact h.control rfl rfl rfl fun _ => rfl
  | connect generation =>
      simp only [Shared.exec]
      split <;> exact h.control rfl rfl rfl fun _ => rfl
  | store index =>
      refine h.control rfl rfl rfl fun key => ?_
      rw [Shared.exec]
      split <;> rfl

theorem Retired.call {c : Call} (h : Retired s ops) (hi : Inv s ops) (hcall : s.call c = some (s', new)) :
    Retired s' (new ++ ops) := by
  have hsame (hemissions : s'.emissions = s.emissions) (houtstanding : s'.outstanding = s.outstanding)
      (hcancelled : ∀ key ∈ s'.cancelled, key ∈ s.cancelled ∨ s.outstanding = some key)
      (hnew : ∀ key, new.any (Op.finishes key) = false) : Retired s' (new ++ ops) := by
    refine h.frame (List.Subset.refl ops) (fun key hc => ?_) (fun key hk hout => ?_) fun key _ => hnew key
    · rw [Shared.Concluded, hemissions]
      exact hc
    · rw [houtstanding] at hout
      exact ⟨(hcancelled key hk).resolve_right hout, hout⟩
  cases c with
  | trzszCancel =>
      obtain ⟨rfl, rfl⟩ := Prod.mk.inj (Option.some.inj hcall)
      refine hsame rfl rfl (fun key hk => ?_) fun _ => rfl
      refine (List.mem_append.mp hk).symm.imp_right fun hcur => ?_
      exact (hi.current.outstanding_of_current (Option.mem_toList.mp hcur)).1
  | networkLost generation =>
      obtain ⟨rfl, rfl⟩ := Prod.mk.inj (Option.some.inj hcall)
      refine hsame rfl rfl (fun _ hk => Or.inl hk) fun key => ?_
      split <;> rfl
  | _ =>
      obtain ⟨rfl, rfl⟩ := Prod.mk.inj (Option.some.inj hcall)
      exact hsame rfl rfl (fun _ hk => Or.inl hk) fun _ => rfl

/-! ## 実行 -/

theorem Inv.exec (h : Inv s (op :: rest)) (hr : Retired s (op :: rest)) (ho : op.Orderly s rest k) :
    Inv (s.exec op k).1 ((s.exec op k).2.1 ++ (s.exec op k).2.2.flatten ++ rest) := by
  cases op with
  | loop index => simpa only [Shared.exec, List.flatten_nil, List.append_nil] using h.loop (h.loop_of_orderly ho)
  | request key mode =>
      simpa only [Shared.exec, List.flatten_nil, List.append_nil] using
        h.request (h.outstanding_eq_none ho.1 ho.2.1) ho.2.2
  | chunk key data =>
      simpa only [Shared.exec, List.flatten_nil, List.append_nil] using
        h.chunk fun hid => (h.current.outstanding_of_current (ho hid)).1
  | finish key success =>
      simpa only [Shared.exec, List.flatten_nil, List.append_nil] using h.finish (h.finish_of_orderly hr ho) ho
  | notify events back =>
      cases events with
      | nil =>
          have hvalid := (h.valid _ List.mem_cons_self).1
          cases hvalid
      | cons e events => simpa only [Shared.exec, List.flatten_nil, List.append_nil] using h.notify
  | abort => simpa only [Shared.exec, List.flatten_nil, List.append_nil] using h.abort ho
  | handleUnexpectedDisconnect generation =>
      simpa only [Shared.exec, List.flatten_nil, List.append_nil] using h.handleUnexpectedDisconnect
  | newAdapter =>
      simpa only [Shared.exec, List.flatten_nil, List.append_nil] using
        h.newAdapter fun key hout hc => h.finishes_of_concluded hout hc (ho key hc)
  | connect generation =>
      simp only [Shared.exec]
      split
      · rename_i herr
        exact h.connectErr (h.connect_of_orderly (herr ▸ ho))
      · exact h.connectOk
  | store index => simpa only [Shared.exec, List.flatten_nil, List.append_nil] using h.store

theorem Inv.call {c : Call} (h : Inv s ops) (ho : c.Orderly s ops) (hcall : s.call c = some (s', new)) : Inv s' (new ++ ops) := by
  cases c with
  | trzszCancel =>
      obtain ⟨rfl, rfl⟩ := Prod.mk.inj (Option.some.inj hcall)
      exact h.trzszCancel ho
  | trzszDismiss =>
      obtain ⟨rfl, rfl⟩ := Prod.mk.inj (Option.some.inj hcall)
      exact h.trzszDismiss ho
  | connect =>
      obtain ⟨rfl, rfl⟩ := Prod.mk.inj (Option.some.inj hcall)
      exact h.connect
  | abortInFlightAttempt =>
      obtain ⟨rfl, rfl⟩ := Prod.mk.inj (Option.some.inj hcall)
      exact h.abortInFlightAttempt fun key hout hc => h.finishes_of_concluded hout hc (ho key hc)
  | networkLost generation =>
      obtain ⟨rfl, rfl⟩ := Prod.mk.inj (Option.some.inj hcall)
      exact h.networkLost generation

namespace State

theorem inv_of_run {as : List Action} {p : State} (h : Run (Guarded Steps Orderly) start as p) : Inv p.shared p.pending := by
  have hboth : Inv p.shared p.pending ∧ Retired p.shared p.pending := by
    refine Pool.invariant_of_run (I := fun s ops => Inv s ops ∧ Retired s ops) ?_ ?_ ?_ h ⟨.start, fun _ hk => by cases hk⟩
    · exact fun s ops ops' hperm hI => ⟨hI.1.perm hperm, hI.2.perm hperm⟩
    · intro p c s new hC hcall hI
      exact ⟨hI.1.call hC hcall, hI.2.call hI.1 hcall⟩
    · intro p i k op rest hC hnext hperm hI
      have herase : (p.pending.erase op).Perm rest := by
        have := hperm.erase op
        rwa [List.erase_cons_head] at this
      have hinv : Inv p.shared (op :: p.pending.erase op) := hI.1.perm (herase.symm.cons op)
      have hretired : Retired p.shared (op :: p.pending.erase op) := hI.2.perm (herase.symm.cons op)
      have horderly := hC op hnext
      exact ⟨(hinv.exec hretired horderly).perm (herase.append_left _),
        (hretired.exec hinv horderly).perm (herase.append_left _)⟩
  exact hboth.1

end State

end IsekaiTerminal.Orchestrator.Transfer
