import IsekaiTerminal.Orchestrator.Preview

/-!
# ファイルプレビューの要求の勘定

どの要求も、表で待つか、応答の途中か、応答済みかのどれか 1 つであり、待つ要求には応答の見込みがあることを示す。
-/

namespace IsekaiTerminal.Orchestrator.Preview

open Lib

/-! ## 応答の勘定 -/

def Op.answered? : Op → Option String
  | .onFilePreviewResult requestId _ => some requestId
  | _ => none

/-- 待つ要求と、応答の途中の要求と、応答済みの要求の列。 -/
def Shared.tickets (s : Shared) (ops : List Op) : List String :=
  s.pendingIds ++ ops.filterMap Op.answered? ++ s.results.map (·.1)

/-- 待っている要求の見込み。session がまだ無ければ、呼び出しが手にしている。 -/
def Shared.Assured (s : Shared) (ops : List Op) (requestId : String) : Prop :=
  (∃ op ∈ ops, op.Carries requestId) ∨ s.session.isSome = true ∧ s.Awaited ops requestId

structure Inv (s : Shared) (ops : List Op) : Prop where
  once : ∀ requestId, (s.tickets ops).count requestId = if requestId ∈ s.requests.map (·.1) then 1 else 0
  distinct : (s.requests.map (·.1)).Nodup
  requested : ∀ r ∈ s.pendingFilePreviews, r ∈ s.requests
  notifying : ∀ requestId kind status stdout, .onFilePreviewResult requestId (.parsed kind status stdout) ∈ ops →
    (requestId, kind) ∈ s.requests
  parsed : ∀ requestId kind status stdout, (requestId, .parsed kind status stdout) ∈ s.results →
    (requestId, kind) ∈ s.requests
  awaited : ∀ requestId ∈ s.pendingIds, s.Assured ops requestId

variable {s s' : Shared} {op : Op} {ops ops' rest new : List Op} {requestId : String} {p : State} {k : Bool}

@[simp] theorem Shared.count_tickets (s : Shared) (ops : List Op) (requestId : String) :
    (s.tickets ops).count requestId = s.pendingIds.count requestId +
      (ops.filterMap Op.answered?).count requestId + (s.results.map (·.1)).count requestId := by
  rw [tickets, List.count_append, List.count_append]

theorem Shared.Awaited.perm (hp : ops.Perm ops') (h : s.Awaited ops requestId) : s.Awaited ops' requestId := by
  rcases h with ⟨op, hm, hc⟩ | hl | ⟨op, hm, hc⟩
  · exact Or.inl ⟨op, hp.mem_iff.mp hm, hc⟩
  · exact Or.inr (Or.inl hl)
  · exact Or.inr (Or.inr ⟨op, hp.mem_iff.mp hm, hc⟩)

theorem Shared.Assured.perm (hp : ops.Perm ops') (h : s.Assured ops requestId) : s.Assured ops' requestId := by
  rcases h with ⟨op, hm, hc⟩ | ⟨hs, h⟩
  · exact Or.inl ⟨op, hp.mem_iff.mp hm, hc⟩
  · exact Or.inr ⟨hs, h.perm hp⟩

theorem Inv.perm (hp : ops.Perm ops') (h : Inv s ops) : Inv s ops' where
  once := by
    intro requestId
    have := h.once requestId
    rwa [Shared.count_tickets, (hp.filterMap _).count_eq, ← Shared.count_tickets] at this
  distinct := h.distinct
  requested := h.requested
  notifying requestId kind status stdout hm := h.notifying requestId kind status stdout (hp.mem_iff.mpr hm)
  parsed := h.parsed
  awaited requestId hm := (h.awaited requestId hm).perm hp

theorem Inv.start : Inv .start [] :=
  ⟨by simp [Shared.start, Shared.pendingIds], by simp [Shared.start], by simp [Shared.start], by simp,
    by simp [Shared.start], by simp [Shared.start, Shared.pendingIds]⟩

/-! ## 見込みの引き継ぎ -/

theorem exists_mem_set {sessions : List Session} {index : Nat} {old new x : Session}
    (hi : sessions[index]? = some old) (hx : x ∈ sessions) :
    x ∈ sessions.set index new ∨ x = old ∧ new ∈ sessions.set index new := by
  obtain ⟨j, hj⟩ := List.getElem?_of_mem hx
  by_cases hij : index = j
  · subst hij
    obtain rfl := Option.some.inj (hj.symm.trans hi)
    exact Or.inr ⟨rfl, List.mem_set (List.getElem?_eq_some_iff.mp hi).1 _⟩
  · exact Or.inl (List.mem_of_getElem? ((List.getElem?_set_ne hij).trans hj))

theorem Shared.Assured.of_live {session : Session} (hs : s.session.isSome = true) (hm : session ∈ s.sessions)
    (hl : s.Live session) (he : requestId ∈ session.execs) : s.Assured ops requestId :=
  Or.inr ⟨hs, Or.inr (Or.inl ⟨session, hm, hl, he⟩)⟩

theorem Shared.Assured.of_cleans (hs : s.session.isSome = true) (h : ∃ op ∈ ops, op.Cleans s.sessionGeneration) :
    s.Assured ops requestId := Or.inr ⟨hs, Or.inr (Or.inr h)⟩

/-- 要求を手にする操作と片付けが残り、session の抱える要求の見込みが移れば、見込みは続く。 -/
theorem Shared.Assured.mono (h : s.Assured ops requestId)
    (hcarries : (∃ op ∈ ops, op.Carries requestId) → ∃ op ∈ ops', op.Carries requestId)
    (hclean : (∃ op ∈ ops, op.Cleans s.sessionGeneration) → ∃ op ∈ ops', op.Cleans s'.sessionGeneration)
    (hsession : s.session = s'.session)
    (hlive : ∀ session ∈ s.sessions, s.Live session → requestId ∈ session.execs → s.session.isSome = true →
      s'.Assured ops' requestId) : s'.Assured ops' requestId := by
  rcases h with h | ⟨hs, h | ⟨session, hm, hl, he⟩ | h⟩
  · exact Or.inl (hcarries h)
  · exact Or.inl (hcarries h)
  · exact hlive session hm hl he hs
  · exact .of_cleans (hsession ▸ hs) (hclean h)

/-- session の表も世代も変わらないときの引き継ぎ。 -/
theorem Shared.Assured.of_eq (h : s.Assured ops requestId)
    (hcarries : (∃ op ∈ ops, op.Carries requestId) → ∃ op ∈ ops', op.Carries requestId)
    (hclean : (∃ op ∈ ops, op.Cleans s.sessionGeneration) → ∃ op ∈ ops', op.Cleans s.sessionGeneration)
    (hsession : s.session = s'.session) (hsessions : s.sessions = s'.sessions)
    (hgeneration : s.sessionGeneration = s'.sessionGeneration) : s'.Assured ops' requestId := by
  refine h.mono hcarries (hgeneration ▸ hclean) hsession ?_
  intro session hm hl he hs
  exact .of_live (hsession ▸ hs) (hsessions ▸ hm) ⟨hgeneration ▸ hl.1, hl.2⟩ he

/-- 片付けが控えていれば、手にされていない要求の見込みは続く。 -/
theorem Shared.Assured.cleaned (h : s.Assured ops requestId)
    (hcarries : (∃ op ∈ ops, op.Carries requestId) → ∃ op ∈ ops', op.Carries requestId)
    (hsession : s.session.isSome = true → s'.session.isSome = true)
    (hclean : ∃ op ∈ ops', op.Cleans s'.sessionGeneration) : s'.Assured ops' requestId := by
  rcases h with h | ⟨hs, -⟩
  · exact Or.inl (hcarries h)
  · exact .of_cleans (hsession hs) hclean

theorem exists_mem_of_cons (new : List Op) {P : Op → Prop} (hop : ¬ P op) (h : ∃ op' ∈ op :: rest, P op') :
    ∃ op' ∈ new ++ rest, P op' := by
  obtain ⟨op', hm, hP⟩ := h
  rcases List.mem_cons.mp hm with rfl | hm
  · exact (hop hP).elim
  · exact ⟨op', List.mem_append_right _ hm, hP⟩

theorem exists_mem_append {P : Op → Prop} (h : ∃ op ∈ ops, P op) : ∃ op ∈ new ++ ops, P op := by
  obtain ⟨op, hm, hP⟩ := h
  exact ⟨op, List.mem_append_right _ hm, hP⟩

/-! ## 表の更新 -/

theorem pendingIds_removePending (s : Shared) (requestId : String) :
    (s.removePending requestId).pendingIds = s.pendingIds.filter (· ≠ requestId) := by
  simp only [Shared.removePending, Shared.pendingIds, List.filter_map]
  rfl

theorem count_pendingIds_removePending (s : Shared) (requestId requestId' : String) :
    (s.removePending requestId).pendingIds.count requestId' =
      if requestId' = requestId then 0 else s.pendingIds.count requestId' := by
  rw [pendingIds_removePending]
  split
  · rename_i heq
    simp [List.count_eq_zero, heq]
  · rename_i hne
    exact List.count_filter (by simpa using hne)

theorem mem_pendingIds_removePending {s : Shared} {requestId requestId' : String} :
    requestId' ∈ (s.removePending requestId).pendingIds ↔ requestId' ∈ s.pendingIds ∧ requestId' ≠ requestId := by
  rw [pendingIds_removePending, List.mem_filter]
  simp

/-- 表から取り出した要求は、応答の途中へ移る。 -/
theorem Inv.count_removed (h : Inv s (op :: rest)) (hop : op.answered? = none) (hmem : requestId ∈ s.pendingIds)
    (outcome : FilePreviewOutcome) (requestId' : String) :
    ((s.removePending requestId).tickets (.onFilePreviewResult requestId outcome :: rest)).count requestId' =
      if requestId' ∈ s.requests.map (·.1) then 1 else 0 := by
  rw [← h.once requestId']
  have hone : s.pendingIds.count requestId ≤ 1 := by
    have := h.once requestId
    rw [Shared.count_tickets] at this
    split at this <;> omega
  have hpos : 0 < s.pendingIds.count requestId := List.count_pos_iff.mpr hmem
  have hanswer : (Op.onFilePreviewResult requestId outcome :: rest).filterMap Op.answered? =
      requestId :: rest.filterMap Op.answered? := rfl
  rw [Shared.count_tickets, Shared.count_tickets, count_pendingIds_removePending, hanswer, List.count_cons,
    List.filterMap_cons_none hop]
  simp only [beq_iff_eq, eq_comm (b := requestId')]
  simp only [Shared.removePending]
  split
  · rename_i heq
    subst heq
    omega
  · omega

theorem pendingKind_requested (h : Inv s ops) {kind : FilePreviewRequestKind}
    (hk : s.pendingKind requestId = some kind) : (requestId, kind) ∈ s.requests := by
  obtain ⟨r, hr, rfl⟩ := Option.map_eq_some_iff.mp hk
  have hid : r.1 = requestId := by simpa using List.find?_some hr
  subst hid
  exact h.requested r (List.mem_of_find?_eq_some hr)

/-! ## 操作の 1 歩 -/

/-- 表から取り出して、結果を渡す。 -/
theorem Inv.removed (h : Inv s (op :: rest)) (hop : op.answered? = none)
    (hcarries : ∀ requestId', op.Carries requestId' → requestId' = requestId) (hclean : ¬ op.Cleans s.sessionGeneration)
    (hmem : requestId ∈ s.pendingIds) {outcome : FilePreviewOutcome}
    (hparsed : ∀ kind status stdout, outcome = .parsed kind status stdout → (requestId, kind) ∈ s.requests) :
    Inv (s.removePending requestId) (.onFilePreviewResult requestId outcome :: rest) where
  once := h.count_removed hop hmem outcome
  distinct := h.distinct
  requested r hr := h.requested r (List.mem_of_mem_filter hr)
  notifying := by
    intro requestId' kind status stdout hm
    rcases List.mem_cons.mp hm with heq | hm
    · obtain ⟨rfl, rfl⟩ := Op.onFilePreviewResult.inj heq
      exact hparsed kind status stdout rfl
    · exact h.notifying requestId' kind status stdout (List.mem_cons_of_mem _ hm)
  parsed := h.parsed
  awaited := by
    intro requestId' hm
    obtain ⟨hm, hne⟩ := mem_pendingIds_removePending.mp hm
    exact (h.awaited requestId' hm).of_eq (exists_mem_of_cons [_] fun hc => hne (hcarries requestId' hc))
      (exists_mem_of_cons [_] hclean) rfl rfl rfl

/-- 応答の勘定に関わらない変化は、見込みさえ引き継げばよい。 -/
theorem Inv.of_answered (h : Inv s ops) (hanswered : ops'.filterMap Op.answered? = ops.filterMap Op.answered?)
    (hsub : ∀ op ∈ ops', op.answered? ≠ none → op ∈ ops)
    (hpending : s'.pendingFilePreviews = s.pendingFilePreviews) (hrequests : s'.requests = s.requests)
    (hresults : s'.results = s.results)
    (hawaited : ∀ requestId ∈ s.pendingIds, s.Assured ops requestId → s'.Assured ops' requestId) : Inv s' ops' where
  once := by
    intro requestId
    have hids : s'.pendingIds = s.pendingIds := by rw [Shared.pendingIds, Shared.pendingIds, hpending]
    rw [hrequests, ← h.once requestId, Shared.count_tickets, Shared.count_tickets, hids, hresults, hanswered]
  distinct := by
    rw [hrequests]
    exact h.distinct
  requested r hr := hrequests ▸ h.requested r (hpending ▸ hr)
  notifying := by
    intro requestId kind status stdout hm
    rw [hrequests]
    exact h.notifying requestId kind status stdout (hsub _ hm (by simp [Op.answered?]))
  parsed := by
    intro requestId kind status stdout hm
    rw [hrequests]
    exact h.parsed requestId kind status stdout (hresults ▸ hm)
  awaited := by
    intro requestId hm
    have hm' : requestId ∈ s.pendingIds := by simpa [Shared.pendingIds, hpending] using hm
    exact hawaited requestId hm' (h.awaited requestId hm')

theorem filterMap_unanswered (hnew : ∀ op ∈ new, op.answered? = none) :
    (new ++ ops).filterMap Op.answered? = ops.filterMap Op.answered? := by
  rw [List.filterMap_append, List.filterMap_eq_nil_iff.mpr hnew, List.nil_append]

theorem Inv.unanswered (h : Inv s (op :: rest)) (hop : op.answered? = none) (hnew : ∀ op ∈ new, op.answered? = none)
    (hpending : s'.pendingFilePreviews = s.pendingFilePreviews) (hrequests : s'.requests = s.requests)
    (hresults : s'.results = s.results)
    (hawaited : ∀ requestId ∈ s.pendingIds, s.Assured (op :: rest) requestId → s'.Assured (new ++ rest) requestId) :
    Inv s' (new ++ rest) := by
  refine h.of_answered ?_ ?_ hpending hrequests hresults hawaited
  · rw [filterMap_unanswered hnew, List.filterMap_cons_none hop]
  · intro op' hm hne
    exact List.mem_cons_of_mem _ ((List.mem_append.mp hm).resolve_left fun hm => hne (hnew op' hm))

theorem Inv.called (h : Inv s ops) (hnew : ∀ op ∈ new, op.answered? = none)
    (hpending : s'.pendingFilePreviews = s.pendingFilePreviews) (hrequests : s'.requests = s.requests)
    (hresults : s'.results = s.results)
    (hawaited : ∀ requestId ∈ s.pendingIds, s.Assured ops requestId → s'.Assured (new ++ ops) requestId) :
    Inv s' (new ++ ops) := by
  refine h.of_answered (filterMap_unanswered hnew) ?_ hpending hrequests hresults hawaited
  intro op' hm hne
  exact (List.mem_append.mp hm).resolve_left fun hm => hne (hnew op' hm)

theorem filePreviewExec_cases (s : Shared) (requestId : String) (k : Bool) :
    (∃ index session, s.session = some index ∧ s.sessions[index]? = some session ∧ session.accepting = true ∧
      k = true ∧ s.filePreviewExec requestId k =
        (s.setSession index { session with execs := requestId :: session.execs }, [])) ∨
      s.filePreviewExec requestId k = (s, [.removeUnqueued requestId]) := by
  simp only [Shared.filePreviewExec]
  split
  · split
    · split
      · rename_i _ index hs _ session hi hq
        exact Or.inl ⟨index, session, hs, hi, hq.1, hq.2, rfl⟩
      · exact Or.inr rfl
    · exact Or.inr rfl
  · exact Or.inr rfl

theorem Inv.filePreviewExec (h : Inv s (.filePreviewExec requestId :: rest))
    (hc : k = true → ∀ index ∈ s.session, ∀ session ∈ s.sessions[index]?,
      session.accepting = true → s.Live session ∨ ∃ op ∈ rest, op.Cleans s.sessionGeneration) :
    Inv (s.filePreviewExec requestId k).1 ((s.filePreviewExec requestId k).2 ++ rest) := by
  rcases filePreviewExec_cases s requestId k with ⟨index, session, hs, hi, haccepting, hk, heq⟩ | heq <;> rw [heq]
  · refine h.unanswered rfl (by simp) rfl rfl rfl ?_
    intro requestId' _ ha
    by_cases hid : requestId = requestId'
    · subst hid
      have hnew : { session with execs := requestId :: session.execs } ∈
          s.sessions.set index { session with execs := requestId :: session.execs } :=
        List.mem_set (List.getElem?_eq_some_iff.mp hi).1 _
      have hsome : (s.setSession index { session with execs := requestId :: session.execs }).session.isSome = true := by
        simp [Shared.setSession, hs]
      rcases hc hk index hs session hi haccepting with hl | hclean
      · exact .of_live hsome hnew hl List.mem_cons_self
      · exact .of_cleans hsome hclean
    · refine ha.mono (exists_mem_of_cons _ hid) (exists_mem_of_cons _ id) rfl ?_
      intro x hx hl he hsome
      rcases exists_mem_set hi hx with hx | ⟨rfl, hx⟩
      · exact .of_live hsome hx hl he
      · exact .of_live hsome hx hl (List.mem_cons_of_mem _ he)
  · refine h.unanswered rfl (by simp [Op.answered?]) rfl rfl rfl ?_
    intro requestId' _ ha
    refine ha.of_eq ?_ (exists_mem_of_cons _ id) rfl rfl rfl
    intro hcarries
    by_cases hid : requestId = requestId'
    · exact ⟨_, List.mem_cons_self, hid⟩
    · have hop : ¬ (Op.filePreviewExec requestId).Carries requestId' := hid
      exact exists_mem_of_cons _ hop hcarries

theorem Inv.failPendingFilePreviews (h : Inv s (.failPendingFilePreviews :: rest)) :
    Inv { s with pendingFilePreviews := [] } (s.pendingIds.map (fun requestId =>
      .onFilePreviewResult requestId (.error "connection lost before the file preview completed")) ++ rest) where
  once := by
    intro requestId
    have hids (ids : List String) : (ids.map fun requestId => Op.onFilePreviewResult requestId
        (.error "connection lost before the file preview completed")).filterMap Op.answered? = ids := by
      rw [List.filterMap_map]
      exact List.filterMap_some
    have hnil : ({ s with pendingFilePreviews := [] } : Shared).pendingIds = [] := rfl
    rw [← h.once requestId, Shared.count_tickets, Shared.count_tickets, List.filterMap_append, hids, hnil,
      List.count_append, List.filterMap_cons_none rfl]
    simp
  distinct := h.distinct
  requested := by simp
  notifying := by
    intro requestId kind status stdout hm
    rcases List.mem_append.mp hm with hm | hm
    · simp at hm
    · exact h.notifying requestId kind status stdout (List.mem_cons_of_mem _ hm)
  parsed := h.parsed
  awaited := by simp [Shared.pendingIds]

/-- 結果を渡し終える。 -/
theorem Inv.onFilePreviewResult {outcome : FilePreviewOutcome}
    (h : Inv s (.onFilePreviewResult requestId outcome :: rest)) :
    Inv { s with results := s.results ++ [(requestId, outcome)] } rest where
  once := by
    intro requestId'
    have hanswer : (Op.onFilePreviewResult requestId outcome :: rest).filterMap Op.answered? =
      requestId :: rest.filterMap Op.answered? := rfl
    have hids : ({ s with results := s.results ++ [(requestId, outcome)] } : Shared).pendingIds = s.pendingIds := rfl
    rw [← h.once requestId', Shared.count_tickets, Shared.count_tickets, hanswer, hids, List.map_append,
      List.count_append, List.count_cons, List.map_singleton, List.count_singleton]
    dsimp only
    omega
  distinct := h.distinct
  requested := h.requested
  notifying requestId kind status stdout hm := h.notifying requestId kind status stdout (List.mem_cons_of_mem _ hm)
  parsed := by
    intro requestId' kind status stdout hm
    rcases List.mem_append.mp hm with hm | hm
    · exact h.parsed requestId' kind status stdout hm
    · obtain ⟨rfl, rfl⟩ := Prod.ext_iff.mp (List.mem_singleton.mp hm)
      exact h.notifying _ kind status stdout List.mem_cons_self
  awaited := by
    intro requestId' hm
    exact (h.awaited requestId' hm).of_eq (exists_mem_of_cons [] id) (exists_mem_of_cons [] id)
      rfl rfl rfl

theorem Inv.connect {generation : Nat} (h : Inv s (.connect generation :: rest))
    (hc : k = false → ∀ requestId ∈ s.pendingIds, s.Awaited rest requestId) :
    Inv { s with sessions := s.sessions ++ [⟨generation, k, false, []⟩] }
      ((if k then [.store s.sessions.length] else []) ++ rest) := by
  refine h.unanswered rfl ?_ rfl rfl rfl ?_
  · cases k <;> simp [Op.answered?]
  · intro requestId hm ha
    cases k with
    | true => exact ha.cleaned (exists_mem_of_cons _ id) id ⟨_, List.mem_cons_self, trivial⟩
    | false =>
        have hrest : s.Assured rest requestId := by
          rcases ha with ha | ⟨hs, -⟩
          · exact Or.inl (exists_mem_of_cons [] id ha)
          · exact Or.inr ⟨hs, hc rfl requestId hm⟩
        refine hrest.mono id id rfl ?_
        intro session hm hl he hs
        exact .of_live hs (List.mem_append_left _ hm) hl he

theorem Inv.exec {i : Nat} (hc : ∀ op ∈ p.next? i, op.Uncrossed p k) (hnext : p.next? i = some op)
    (hperm : p.pending.Perm (op :: rest)) (h : Inv p.shared (op :: rest)) :
    Inv (p.shared.exec op k).1 ((p.shared.exec op k).2.1 ++ (p.shared.exec op k).2.2.flatten ++ rest) := by
  have hc := hc op hnext
  cases op with
  | filePreviewExec requestId =>
      rw [Shared.exec, List.flatten_nil, List.append_nil]
      refine h.filePreviewExec ?_
      intro hk index hs session hi haccepting
      refine (hc hk index hs session hi haccepting).imp_right ?_
      rintro ⟨op, hm, hclean⟩
      rcases List.mem_cons.mp (hperm.mem_iff.mp hm) with rfl | hm
      · exact hclean.elim
      · exact ⟨op, hm, hclean⟩
  | removeUnqueued requestId => exact h.removed rfl (fun _ hid => hid.symm) id hc (by simp)
  | removeFinished requestId stdout exitStatus =>
      refine h.removed rfl (fun _ hid => hid.symm) id hc ?_
      intro kind status stdout heq
      split at heq
      · rename_i hk
        obtain ⟨rfl, -⟩ := FilePreviewOutcome.parsed.inj heq
        exact pendingKind_requested h hk
      · cases heq
  | onFilePreviewResult requestId outcome => exact h.onFilePreviewResult
  | failPendingFilePreviews =>
      rw [Shared.exec, List.flatten_nil, List.append_nil]
      exact h.failPendingFilePreviews
  | handleUnexpectedDisconnect generation =>
      rw [Shared.exec, List.flatten_nil, List.append_nil]
      refine h.unanswered rfl ?_ rfl rfl rfl ?_
      · unfold Shared.handleUnexpectedDisconnect
        split <;> simp [Op.answered?]
      · intro requestId _ ha
        refine ha.of_eq (exists_mem_of_cons _ id) ?_ rfl rfl rfl
        rintro ⟨op, hm, hclean⟩
        rcases List.mem_cons.mp hm with rfl | hm
        · have hcurrent : generation = p.shared.sessionGeneration := hclean
          rw [Shared.handleUnexpectedDisconnect, if_pos hcurrent]
          exact ⟨_, List.mem_cons_self, trivial⟩
        · exact ⟨op, List.mem_append_right _ hm, hclean⟩
  | newAdapter =>
      change Inv _ ([_] ++ rest)
      refine h.unanswered rfl (by simp [Op.answered?]) rfl rfl rfl ?_
      intro requestId _ ha
      exact ha.cleaned (exists_mem_of_cons _ id) id ⟨_, List.mem_cons_self, trivial⟩
  | connect generation =>
      rw [Shared.exec, List.flatten_nil, List.append_nil]
      refine h.connect ?_
      intro hk requestId hm
      have herase : (p.pending.erase (.connect generation)).Perm rest := by
        simpa using hperm.erase (.connect generation)
      exact (hc hk requestId hm).perm herase
  | store index =>
      rw [Shared.exec, List.flatten_nil, List.append_nil]
      refine h.unanswered rfl ?_ rfl rfl rfl ?_
      · split <;> simp [Op.answered?]
      · intro requestId _ ha
        rcases ha with ha | ⟨hs, -⟩
        · exact Or.inl (exists_mem_of_cons _ id ha)
        · rw [if_pos hs]
          exact .of_cleans rfl ⟨_, List.mem_cons_self, trivial⟩

/-! ## 呼び出し -/

theorem Inv.filePreviewRequest {kind : FilePreviewRequestKind} (h : Inv s ops)
    (hc : s.filePreviewRequest requestId kind = some (s', new)) : Inv s' (new ++ ops) := by
  unfold Shared.filePreviewRequest at hc
  split at hc
  · cases hc
  · rename_i hfresh
    obtain ⟨rfl, rfl⟩ := Prod.mk.inj (Option.some.inj hc)
    have hzero := h.once requestId
    rw [if_neg hfresh, Shared.count_tickets] at hzero
    constructor
    · intro requestId'
      have hids : ({ s.removePending requestId with
          pendingFilePreviews := (requestId, kind) :: (s.removePending requestId).pendingFilePreviews
          requests := (requestId, kind) :: s.requests } : Shared).pendingIds =
            requestId :: (s.removePending requestId).pendingIds := rfl
      have hold := h.once requestId'
      rw [Shared.count_tickets] at hold ⊢
      rw [hids, filterMap_unanswered (by simp [Op.answered?]), List.count_cons, count_pendingIds_removePending]
      by_cases hid : requestId' = requestId
      · subst hid
        simp [Shared.removePending]
        omega
      · simp only [hid, Ne.symm hid, List.map_cons, List.mem_cons, false_or, beq_iff_eq, if_false, add_zero]
        exact hold
    · exact List.nodup_cons.mpr ⟨hfresh, h.distinct⟩
    · intro r hr
      rcases List.mem_cons.mp hr with rfl | hr
      · exact List.mem_cons_self
      · exact List.mem_cons_of_mem _ (h.requested r (List.mem_of_mem_filter hr))
    · intro requestId' kind' status stdout hm
      exact List.mem_cons_of_mem _ (h.notifying requestId' kind' status stdout (by simpa using hm))
    · intro requestId' kind' status stdout hm
      exact List.mem_cons_of_mem _ (h.parsed requestId' kind' status stdout hm)
    · intro requestId' hm
      rcases List.mem_cons.mp hm with rfl | hm
      · exact Or.inl ⟨_, List.mem_cons_self, rfl⟩
      · refine (h.awaited requestId' (mem_pendingIds_removePending.mp hm).1).of_eq exists_mem_append
          exists_mem_append rfl rfl rfl

/-- session を 1 つ更新したときは、その session の抱えていた要求の見込みが移ればよい。 -/
theorem Inv.setSession {index : Nat} {old updated : Session} (h : Inv s ops) (hi : s.sessions[index]? = some old)
    (hnew : ∀ op ∈ new, op.answered? = none)
    (hlive : ∀ requestId, s.Live old → requestId ∈ old.execs →
      (∃ op ∈ new, op.Carries requestId ∨ op.Cleans s.sessionGeneration) ∨ s.Live updated ∧ requestId ∈ updated.execs) :
    Inv (s.setSession index updated) (new ++ ops) := by
  refine h.called hnew rfl rfl rfl ?_
  intro requestId _ ha
  refine ha.mono exists_mem_append exists_mem_append rfl ?_
  intro x hx hl he hs
  rcases exists_mem_set hi hx with hx | ⟨rfl, hx⟩
  · exact .of_live hs hx hl he
  · rcases hlive requestId hl he with ⟨op, hm, hcarries | hclean⟩ | ⟨hl, he⟩
    · exact Or.inl ⟨op, List.mem_append_left _ hm, hcarries⟩
    · exact .of_cleans hs ⟨op, List.mem_append_left _ hm, hclean⟩
    · exact .of_live hs hx hl he

theorem Inv.onFilePreviewExecResult {index : Nat} {stdout : List UInt8} {exitStatus : Option UInt32} (h : Inv s ops)
    (hc : s.onFilePreviewExecResult index requestId stdout exitStatus = some (s', new)) : Inv s' (new ++ ops) := by
  unfold Shared.onFilePreviewExecResult at hc
  split at hc
  · rename_i session hi
    obtain ⟨-, hc⟩ := Option.ite_none_right_eq_some.mp hc
    obtain ⟨rfl, rfl⟩ := Prod.mk.inj (Option.some.inj hc)
    refine h.setSession hi ?_ ?_
    · split <;> simp [Op.answered?]
    · intro requestId' hl he
      by_cases hid : requestId' = requestId
      · subst hid
        rw [if_pos hl.1]
        exact Or.inl ⟨_, List.mem_singleton_self _, Or.inl rfl⟩
      · exact Or.inr ⟨hl, (List.mem_erase_of_ne hid).mpr he⟩
  · cases hc

theorem Inv.onDisconnected {index : Nat} {session : Session} (h : Inv s ops) (hi : s.sessions[index]? = some session) :
    Inv (s.setSession index { session with ended := true })
      (s.handleUnexpectedDisconnect session.generation ++ ops) := by
  refine h.setSession hi ?_ ?_
  · unfold Shared.handleUnexpectedDisconnect
    split <;> simp [Op.answered?]
  · intro requestId hl _
    rw [Shared.handleUnexpectedDisconnect, if_pos hl.1]
    exact Or.inl ⟨_, List.mem_singleton_self _, Or.inr trivial⟩

theorem Inv.call {c : Call} (hc : s.call c = some (s', new)) (h : Inv s ops) : Inv s' (new ++ ops) := by
  cases c with
  | filePreviewRequest requestId kind => exact h.filePreviewRequest hc
  | onFilePreviewExecResult index requestId stdout exitStatus => exact h.onFilePreviewExecResult hc
  | onDisconnected index =>
      simp only [Shared.call] at hc
      split at hc
      · rename_i session hi
        split at hc
        · cases hc
        · obtain ⟨rfl, rfl⟩ := Prod.mk.inj (Option.some.inj hc)
          exact h.onDisconnected hi
      · cases hc
  | commandsClosed index =>
      obtain ⟨session, hi, heq⟩ := Option.map_eq_some_iff.mp hc
      obtain ⟨rfl, rfl⟩ := Prod.mk.inj heq
      exact h.setSession hi (by simp) fun _ hl he => Or.inr ⟨hl, he⟩
  | connect =>
      obtain ⟨rfl, rfl⟩ := Prod.mk.inj (Option.some.inj hc)
      refine h.called (by simp [Op.answered?]) rfl rfl rfl ?_
      intro requestId _ ha
      exact ha.of_eq exists_mem_append exists_mem_append rfl rfl rfl
  | abortInFlightAttempt =>
      obtain ⟨rfl, rfl⟩ := Prod.mk.inj (Option.some.inj hc)
      refine h.called (by simp [Op.answered?]) rfl rfl rfl ?_
      intro requestId _ ha
      exact ha.cleaned exists_mem_append id ⟨_, List.mem_cons_self, trivial⟩
  | networkLost generation =>
      obtain ⟨rfl, rfl⟩ := Prod.mk.inj (Option.some.inj hc)
      refine h.called ?_ rfl rfl rfl ?_
      · split <;> simp [Op.answered?]
      · intro requestId _ ha
        exact ha.of_eq exists_mem_append exists_mem_append rfl rfl rfl

/-! ## 応答の保証 -/

theorem Inv.answered {p : State} (h : Inv p.shared p.pending) : p.Answered where
  distinct := h.distinct
  once := by
    rw [List.nodup_iff_count_le_one]
    intro requestId
    have := h.once requestId
    rw [Shared.count_tickets] at this
    split at this <;> omega
  owned := h.parsed
  settled := by
    intro hq r hr hdone
    have hrequested : r.1 ∈ p.shared.requests.map (·.1) := List.mem_map_of_mem hr
    have hcount := h.once r.1
    rw [if_pos hrequested, Shared.count_tickets, hq, List.filterMap_nil, List.count_nil] at hcount
    -- 表で待っていれば、抱えている session は現行で終わっていない。
    have hidle : r.1 ∉ p.shared.pendingIds := by
      intro hm
      have ha := h.awaited r.1 hm
      rw [hq] at ha
      rcases ha with ⟨op, hop, -⟩ | ⟨-, ⟨op, hop, -⟩ | ⟨session, hs, hl, he⟩ | ⟨op, hop, -⟩⟩
      · cases hop
      · cases hop
      · have hended := hdone session hs he
        rw [hl.2] at hended
        cases hended
      · cases hop
    rw [List.count_eq_zero.mpr hidle] at hcount
    omega

/-- 取り違えない実行は、勘定と見込みを保つ。 -/
theorem inv_of_run {p : State} {as : List Action} (h : Run (Guarded State.Steps Uncrossed) .start as p) :
    Inv p.shared p.pending :=
  Pool.invariant_of_run (C := Uncrossed) (fun _ _ _ hp hI => hI.perm hp) (fun _ _ _ _ _ hc hI => hI.call hc)
    (fun _ _ _ _ _ hc hnext hperm hI => hI.exec hc hnext hperm) h Inv.start

end IsekaiTerminal.Orchestrator.Preview
