import IsekaiTerminal.Orchestrator.Transfer

/-!
# trzsz の転送の勘定

どの転送も、`Done` を約束していないか、約束したか、公開したかのどれか 1 つであり、約束していない転送には `Done` の見込みが
あることを示す。
-/

namespace IsekaiTerminal.Orchestrator.Transfer

open Lib

variable {s s' : Shared} {op : Op} {ops ops' new rest : List Op} {key : Key} {k : Choice} {e : Published}

/-! ## 操作の持ち主 -/

/-- session `index` のイベントループが行う操作。 -/
def Op.inLoop (index : Nat) : Op → Bool
  | .loop i => i = index
  | .request key _ | .chunk key _ | .finish key _ => key.session = index
  | .notify _ back => back = some index
  | _ => false

/-- session ごとに、高々 1 つの操作が進む。 -/
def Threads (s : Shared) (ops : List Op) : Prop :=
  ∀ index, ops.countP (Op.inLoop index) ≤ if index < s.sessions.length then 1 else 0

theorem Threads.perm (h : Threads s ops) (hp : ops.Perm ops') : Threads s ops' := by
  intro index
  rw [← hp.countP_eq]
  exact h index

/-- 同じイベントループの操作に替える。 -/
theorem Threads.replace (h : Threads s (op :: rest)) (hlen : s'.sessions.length = s.sessions.length)
    (hnew : ∀ index, new.countP (Op.inLoop index) ≤ if op.inLoop index then 1 else 0) : Threads s' (new ++ rest) := by
  intro index
  have hold := h index
  have hle := hnew index
  rw [List.countP_cons] at hold
  rw [List.countP_append, hlen]
  omega

theorem Threads.tail (h : Threads s (op :: rest)) (index : Nat) (hop : op.inLoop index = true) :
    ∀ op' ∈ rest, op'.inLoop index = false := by
  intro op' hop'
  have hold := h index
  rw [List.countP_cons, hop, if_pos rfl] at hold
  have hzero : rest.countP (Op.inLoop index) = 0 := by
    split at hold <;> omega
  exact Bool.eq_false_iff.mpr (List.countP_eq_zero.mp hzero op' hop')

/-! ## 公開の中身 -/

/-- FSM の出力は伸び、完了の後は変わらない。 -/
structure Emission.Le (e e' : Emission) : Prop where
  mode : e'.mode = e.mode
  chunks : e.chunks.length ≤ e'.chunks.length
  finished : e.finished.isSome = true → e' = e

theorem Emission.Le.refl (e : Emission) : e.Le e := ⟨rfl, le_rfl, fun _ => rfl⟩

structure Shared.Le (s s' : Shared) : Prop where
  opened : ∀ key ∈ s.opened, key ∈ s'.opened
  published : ∀ e ∈ s.published, e ∈ s'.published
  emissions : ∀ key e, s.emissions key = some e → ∃ e', s'.emissions key = some e' ∧ e.Le e'

theorem Shared.Le.of_eq (hopened : s'.opened = s.opened) (hpublished : s'.published = s.published)
    (hemissions : s'.emissions = s.emissions) : s.Le s' where
  opened _ hk := hopened ▸ hk
  published _ he := hpublished ▸ he
  emissions _ e he := ⟨e, hemissions ▸ he, .refl e⟩

namespace Published

theorem DoneJustified.mono {before before' : List Published} {success : Bool} {em em' : Emission} {message : DoneMessage}
    (h : DoneJustified before key success em message) (hbefore : ∀ e ∈ before, e ∈ before') (hle : em.Le em') :
    DoneJustified before' key success em' message := by
  cases message with
  | own =>
      have heq : em' = em := hle.finished (by rw [h.1]; rfl)
      subst heq
      exact ⟨h.1, fun hs hm => hbefore _ (h.2 hs hm)⟩
  | tooLarge => exact ⟨h.1, h.2.trans_le hle.chunks⟩
  | lost => exact h

theorem Justified.mono {before before' : List Published} (h : e.Justified s before) (hle : s.Le s')
    (hbefore : ∀ e ∈ before, e ∈ before')
    (hcancelled : ∀ key, e.isComplete key = true → key ∈ s'.cancelled → key ∈ s.cancelled) : e.Justified s' before' := by
  cases e with
  | waitingUser key => exact hle.opened key h
  | onDownloadComplete key data =>
      obtain ⟨hc, em, hem, hmode, hfinished, hdata⟩ := h
      obtain ⟨em', hem', hle'⟩ := hle.emissions key em hem
      have heq : em' = em := hle'.finished (by rw [hfinished]; rfl)
      subst heq
      exact ⟨fun hm => hc (hcancelled key (decide_eq_true rfl) hm), em', hem', hmode, hfinished, hdata⟩
  | done key success message =>
      obtain ⟨em, hem, hj⟩ := h
      obtain ⟨em', hem', hle'⟩ := hle.emissions key em hem
      exact ⟨em', hem', hj.mono hbefore hle'⟩
  | idle => trivial

/-- 転送を閉じる公開。 -/
def closes (key : Key) (e : Published) : Bool := e.isDone key || e.isComplete key

end Published

/-- 1 つの操作が約束する公開。 -/
inductive Announcement (s : Shared) : List Published → Prop
  | waitingUser (key : Key) (h : key ∈ s.opened) : Announcement s [.waitingUser key]
  | complete (key : Key) (data : List UInt8) (h : (Published.onDownloadComplete key data).Justified s s.published)
      (hdone : (Published.done key true .own).Justified s (s.published ++ [.onDownloadComplete key data])) :
      Announcement s [.onDownloadComplete key data, .done key true .own]
  | done (key : Key) (success : Bool) (message : DoneMessage)
      (h : (Published.done key success message).Justified s s.published) : Announcement s [.done key success message]
  | idle : Announcement s [.idle]

theorem Announcement.mono {events : List Published} (h : Announcement s events) (hle : s.Le s')
    (hcancelled : ∀ key, events.any (Published.isComplete key) = true → key ∈ s'.cancelled → key ∈ s.cancelled) :
    Announcement s' events := by
  cases h with
  | waitingUser key h => exact .waitingUser key (hle.opened key h)
  | complete key data h hdone =>
      refine .complete key data (h.mono hle hle.published fun key' hk => hcancelled key' ?_) (hdone.mono hle ?_ ?_)
      · rw [List.any_cons, hk, Bool.true_or]
      · intro e he
        rcases List.mem_append.mp he with he | he
        · exact List.mem_append_left _ (hle.published e he)
        · exact List.mem_append_right _ he
      · intro key' hk
        cases hk
  | done key success message h => exact .done key success message (h.mono hle hle.published fun key' hk => by cases hk)
  | idle => exact .idle

/-- `WaitingUser` は、その転送の session のイベントループで公開する。 -/
def Op.Valid (s : Shared) : Op → Prop
  | .request key mode => s.emissions key = some ⟨mode, [], none⟩ ∧ key ∉ s.opened
  | .finish key success => ∃ e, s.emissions key = some e ∧ e.finished = some success
  | .notify events back => Announcement s events ∧
      ∀ key, events.any (Published.isWaiting key) = true → back = some key.session
  | _ => True

/-! ## 公開の勘定 -/

/-- 公開したものと、約束したもの。 -/
def Shared.events (s : Shared) (ops : List Op) : List Published := s.published ++ ops.flatMap Op.owed

structure Ledger (s : Shared) (ops : List Op) : Prop where
  emitted : ∀ key ∈ s.opened, (s.emissions key).isSome = true
  waiting : ∀ key, (s.events ops).countP (Published.isWaiting key) = if key ∈ s.opened then 1 else 0
  done : ∀ key, (s.events ops).countP (Published.isDone key) + (if s.outstanding = some key then 1 else 0) =
    if key ∈ s.opened then 1 else 0
  complete : ∀ key, (s.events ops).countP (Published.isComplete key) +
    (if s.outstanding = some key ∨ key ∉ s.opened then 1 else 0) ≤ 1
  early : ∀ key, (ops.flatMap Op.owed).any (Published.closes key) = true →
    (ops.flatMap Op.owed).any (Published.isWaiting key) = false
  log : ∀ before e after, s.published = before ++ e :: after → e.InOrder before ∧ e.Justified s before

theorem Shared.events_perm (s : Shared) (hp : ops.Perm ops') : (s.events ops).Perm (s.events ops') :=
  (hp.flatMap_right Op.owed).append_left _

theorem Ledger.perm (h : Ledger s ops) (hp : ops.Perm ops') : Ledger s ops' where
  emitted := h.emitted
  waiting key := by rw [← (s.events_perm hp).countP_eq]; exact h.waiting key
  done key := by rw [← (s.events_perm hp).countP_eq]; exact h.done key
  complete key := by rw [← (s.events_perm hp).countP_eq]; exact h.complete key
  early key hc := by
    rw [← (hp.flatMap_right Op.owed).any_eq] at hc ⊢
    exact h.early key hc
  log := h.log

/-! ## 今の転送 -/

/-- 積んだ chunk と、これから積む chunk が、FSM の出した全部である。 -/
def Buffered (s : Shared) (ops : List Op) (key : Key) (e : Emission) : Prop :=
  (∀ data, .chunk key data ∈ ops → s.downloadBuf ++ data = e.chunks) ∧
    ((∀ data, .chunk key data ∉ ops) → s.downloadBuf = e.chunks)

/-- 転送の chunk か完了を、これから扱う。 -/
def Op.carries (key : Key) : Op → Bool
  | .chunk key' _ | .finish key' _ => key' = key
  | _ => false

/-- 転送の session は古い世代になり、これから来る chunk と完了は捨てられる。 -/
def Shared.Stale (s : Shared) (ops : List Op) (key : Key) : Prop :=
  (∃ session, s.sessions[key.session]? = some session ∧ session.generation < s.sessionGeneration) ∧
    ∀ op ∈ ops, op.carries key = false

structure Current (s : Shared) (ops : List Op) : Prop where
  current : s.currentTransferId = s.outstanding.filter (· ∉ s.cancelled)
  cancelled : ∀ key ∈ s.cancelled, key ∈ s.opened
  buffered : ∀ key ∈ s.currentTransferId, ∃ e, s.emissions key = some e ∧ s.trzszMode = some e.mode ∧
    (s.sizeLimitExceededFor = some key.transferId ∨ Buffered s ops key e ∨ s.Stale ops key)
  mode : ∀ key ∈ s.outstanding, ∀ mode ∈ s.trzszMode, (s.emissions key).any (fun e => e.mode = mode) = true
  exceeded : ∀ key ∈ s.outstanding, s.sizeLimitExceededFor = some key.transferId →
    ∃ e, s.emissions key = some e ∧ maxDownloadBufBytes < e.chunks.length

theorem Buffered.perm {em : Emission} (h : Buffered s ops key em) (hp : ops.Perm ops') : Buffered s ops' key em :=
  ⟨fun data hd => h.1 data (hp.mem_iff.mpr hd), fun hd => h.2 fun data hm => hd data (hp.mem_iff.mp hm)⟩

theorem Shared.Stale.perm (h : s.Stale ops key) (hp : ops.Perm ops') : s.Stale ops' key :=
  ⟨h.1, fun op hop => h.2 op (hp.mem_iff.mpr hop)⟩

theorem Current.perm (h : Current s ops) (hp : ops.Perm ops') : Current s ops' where
  current := h.current
  cancelled := h.cancelled
  buffered key hk := by
    obtain ⟨e, he, hmode, hb⟩ := h.buffered key hk
    exact ⟨e, he, hmode, hb.imp_right (Or.imp (·.perm hp) (·.perm hp))⟩
  mode := h.mode
  exceeded := h.exceeded

/-! ## `Done` の見込み -/

/-- `Done` を約束していない転送は、完了を扱う途中であるか、続いているか、これから片付けられる。 -/
def Shared.Tended (s : Shared) (ops : List Op) (key : Key) : Prop :=
  ops.any (Op.finishes key) = true ∨ s.Running key ∨ key ∉ s.cancelled ∧ s.Cleaning ops

structure Care (s : Shared) (ops : List Op) : Prop where
  awaited : ∀ key ∈ s.outstanding, s.Tended ops key
  stored : s.sessions = [] ∨ s.session.isSome = true ∨ ∃ index, .store index ∈ ops
  generations : ∀ session ∈ s.sessions, session.generation ≤ s.sessionGeneration
  connecting : ∀ generation, .connect generation ∈ ops → generation ≤ s.sessionGeneration

theorem Shared.Cleaning.perm (h : s.Cleaning ops) (hp : ops.Perm ops') : s.Cleaning ops' := by
  rcases h with h | h
  · exact Or.inl (hp.mem_iff.mp h)
  · exact Or.inr (by rw [← hp.countP_eq]; exact h)

theorem Shared.Tended.perm (h : s.Tended ops key) (hp : ops.Perm ops') : s.Tended ops' key := by
  rcases h with h | h | ⟨hc, h⟩
  · exact Or.inl (by rw [← hp.any_eq]; exact h)
  · exact Or.inr (Or.inl h)
  · exact Or.inr (Or.inr ⟨hc, h.perm hp⟩)

theorem Care.perm (h : Care s ops) (hp : ops.Perm ops') : Care s ops' where
  awaited key hk := (h.awaited key hk).perm hp
  stored := by
    rcases h.stored with hs | hs | ⟨index, hs⟩
    · exact Or.inl hs
    · exact Or.inr (Or.inl hs)
    · exact Or.inr (Or.inr ⟨index, hp.mem_iff.mp hs⟩)
  generations := h.generations
  connecting generation hm := h.connecting generation (hp.mem_iff.mpr hm)

/-! ## 変わらないもの -/

theorem Op.Valid.mono (h : op.Valid s) (hle : s.Le s')
    (hcancelled : ∀ key, op.owed.any (Published.isComplete key) = true → key ∈ s'.cancelled → key ∈ s.cancelled)
    (hrequest : ∀ key mode, op = .request key mode → s'.emissions key = s.emissions key ∧ (key ∈ s'.opened → key ∈ s.opened)) :
    op.Valid s' := by
  cases op with
  | request key mode =>
      obtain ⟨hemissions, hopened⟩ := hrequest key mode rfl
      exact ⟨hemissions.trans h.1, fun hk => h.2 (hopened hk)⟩
  | finish key success =>
      obtain ⟨e, he, hfinished⟩ := h
      obtain ⟨e', he', hle'⟩ := hle.emissions key e he
      have heq : e' = e := hle'.finished (by rw [hfinished]; rfl)
      exact ⟨e', he', heq ▸ hfinished⟩
  | notify events back => exact ⟨h.1.mono hle hcancelled, h.2⟩
  | _ => trivial

theorem Ledger.not_mem_of_complete (h : Ledger s ops) (hk : s.outstanding = some key) :
    (s.events ops).any (Published.isComplete key) = false := by
  have hcomplete := h.complete key
  rw [if_pos (Or.inl hk)] at hcomplete
  have hzero : (s.events ops).countP (Published.isComplete key) = 0 := by omega
  rw [Bool.eq_false_iff]
  intro hany
  obtain ⟨e, he, hc⟩ := List.any_eq_true.mp hany
  exact List.countP_eq_zero.mp hzero e he hc

theorem mem_events_of_owed (hop : op ∈ ops) {e : Published} (he : e ∈ op.owed) : e ∈ s.events ops :=
  List.mem_append_right _ (List.mem_flatMap.mpr ⟨op, hop, he⟩)

/-- 取り消しうるのは `Done` を約束していない転送だけなので、渡したファイルの転送は取り消されない。 -/
theorem Ledger.cancelled_of_owed (h : Ledger s ops) (hop : op ∈ ops)
    (hcancelled : ∀ key ∈ s'.cancelled, key ∈ s.cancelled ∨ s.outstanding = some key) (key : Key)
    (hany : op.owed.any (Published.isComplete key) = true) (hk : key ∈ s'.cancelled) : key ∈ s.cancelled := by
  refine (hcancelled key hk).resolve_right fun ho => ?_
  obtain ⟨e, he, hc⟩ := List.any_eq_true.mp hany
  have hfalse := h.not_mem_of_complete ho
  rw [List.any_eq_true.mpr ⟨e, mem_events_of_owed hop he, hc⟩] at hfalse
  cases hfalse

/-- 公開も約束も変わらない。 -/
theorem Ledger.congr (h : Ledger s (op :: rest)) (howed : new.flatMap Op.owed = op.owed) (hopened : s'.opened = s.opened)
    (houtstanding : s'.outstanding = s.outstanding) (hpublished : s'.published = s.published) (hle : s.Le s')
    (hcancelled : ∀ key ∈ s'.cancelled, key ∈ s.cancelled ∨ s.outstanding = some key) : Ledger s' (new ++ rest) := by
  have howed' : (new ++ rest).flatMap Op.owed = (op :: rest).flatMap Op.owed := by
    rw [List.flatMap_append, howed, List.flatMap_cons]
  have hevents : s'.events (new ++ rest) = s.events (op :: rest) := by
    rw [Shared.events, Shared.events, hpublished, howed']
  refine ⟨?_, ?_, ?_, ?_, ?_, ?_⟩
  · intro key hk
    obtain ⟨e, he⟩ := Option.isSome_iff_exists.mp (h.emitted key (hopened ▸ hk))
    obtain ⟨e', he', -⟩ := hle.emissions key e he
    rw [he']
    rfl
  · rw [hevents, hopened]
    exact h.waiting
  · rw [hevents, hopened, houtstanding]
    exact h.done
  · rw [hevents, hopened, houtstanding]
    exact h.complete
  · rw [howed']
    exact h.early
  · intro before e after heq
    rw [hpublished] at heq
    obtain ⟨horder, hjustified⟩ := h.log before e after heq
    refine ⟨horder, hjustified.mono hle (fun _ hb => hb) ?_⟩
    intro key hc hk
    refine (hcancelled key hk).resolve_right fun ho => ?_
    have hmem : e ∈ s.events (op :: rest) := by
      refine List.mem_append_left _ ?_
      rw [heq]
      exact List.mem_append_right _ List.mem_cons_self
    have hfalse := h.not_mem_of_complete ho
    rw [List.any_eq_true.mpr ⟨e, hmem, hc⟩] at hfalse
    cases hfalse

def Op.isChunk (key : Key) : Op → Bool
  | .chunk key' _ => key' = key
  | _ => false

/-- どの転送の chunk も完了も扱わない。 -/
def Op.Empty (op : Op) : Prop := ∀ key, op.carries key = false

theorem Buffered.congr {em : Emission} (h : Buffered s (op :: rest) key em) (hbuf : s'.downloadBuf = s.downloadBuf)
    (hop : op.isChunk key = false) (hnew : ∀ op' ∈ new, op'.isChunk key = false) : Buffered s' (new ++ rest) key em := by
  have hne (data : List UInt8) : .chunk key data ∈ op :: rest ↔ .chunk key data ∈ new ++ rest := by
    rw [List.mem_cons, List.mem_append]
    refine or_congr ?_ Iff.rfl
    refine ⟨fun heq => ?_, fun hm => ?_⟩
    · rw [← heq] at hop
      simp [Op.isChunk] at hop
    · have hfalse := hnew _ hm
      simp [Op.isChunk] at hfalse
  refine ⟨fun data hd => ?_, fun hd => ?_⟩
  · rw [hbuf]
    exact h.1 data ((hne data).mpr hd)
  · rw [hbuf]
    exact h.2 fun data hm => hd data ((hne data).mp hm)

theorem Op.isChunk_of_carries (h : op.carries key = false) : op.isChunk key = false := by
  cases op with
  | chunk key' data => exact h
  | _ => rfl

/-- session の世代は変わらず、今の世代は進む。 -/
structure Shared.Ages (s s' : Shared) : Prop where
  sessions : ∀ (index : Nat) (session : Session), s.sessions[index]? = some session →
    ∃ session', s'.sessions[index]? = some session' ∧ session'.generation = session.generation
  generation : s.sessionGeneration ≤ s'.sessionGeneration

theorem Shared.Ages.refl (s : Shared) : s.Ages s := ⟨fun _ session hs => ⟨session, hs, rfl⟩, le_rfl⟩

theorem Shared.Stale.congr (h : s.Stale (op :: rest) key) (hages : s.Ages s')
    (hnew : ∀ op' ∈ new, op'.carries key = false) : s'.Stale (new ++ rest) key := by
  obtain ⟨⟨session, hs, hlt⟩, hops⟩ := h
  obtain ⟨session', hs', hgeneration⟩ := hages.sessions _ session hs
  refine ⟨⟨session', hs', ?_⟩, fun op' hop' => ?_⟩
  · rw [hgeneration]
    exact hlt.trans_le hages.generation
  · rcases List.mem_append.mp hop' with hop' | hop'
    · exact hnew op' hop'
    · exact hops op' (List.mem_cons_of_mem _ hop')

theorem Current.congr (h : Current s (op :: rest)) (hcurrent : s'.currentTransferId = s.currentTransferId)
    (hmode : s'.trzszMode = s.trzszMode) (hbuf : s'.downloadBuf = s.downloadBuf)
    (hlimit : s'.sizeLimitExceededFor = s.sizeLimitExceededFor) (hemissions : s'.emissions = s.emissions)
    (hopened : s'.opened = s.opened) (houtstanding : s'.outstanding = s.outstanding) (hcancelled : s'.cancelled = s.cancelled)
    (hages : s.Ages s') (hop : ∀ key, op.isChunk key = false) (hnew : ∀ op' ∈ new, op'.Empty) : Current s' (new ++ rest) where
  current := by
    rw [hcurrent, houtstanding, hcancelled]
    exact h.current
  cancelled := by
    rw [hcancelled, hopened]
    exact h.cancelled
  buffered := by
    rw [hcurrent, hmode, hlimit, hemissions]
    intro key hk
    obtain ⟨e, he, hm, hb⟩ := h.buffered key hk
    exact ⟨e, he, hm, hb.imp_right (Or.imp (·.congr hbuf (hop key) fun op' hop' => Op.isChunk_of_carries (hnew op' hop' key))
      (·.congr hages fun op' hop' => hnew op' hop' key))⟩
  mode := by
    rw [houtstanding, hmode, hemissions]
    exact h.mode
  exceeded := by
    rw [houtstanding, hlimit, hemissions]
    exact h.exceeded

/-! ## 不変条件 -/

structure Inv (s : Shared) (ops : List Op) : Prop where
  threads : Threads s ops
  valid : ∀ op ∈ ops, op.Valid s
  ledger : Ledger s ops
  current : Current s ops
  care : Care s ops

theorem Inv.perm (h : Inv s ops) (hp : ops.Perm ops') : Inv s ops' :=
  ⟨h.threads.perm hp, fun op hop => h.valid op (hp.mem_iff.mpr hop), h.ledger.perm hp, h.current.perm hp, h.care.perm hp⟩

theorem Inv.start : Inv .start [] where
  threads index := Nat.zero_le _
  valid _ hop := by cases hop
  ledger := {
    emitted := fun _ hk => by cases hk
    waiting := fun _ => rfl
    done := fun _ => rfl
    complete := fun _ => by simp [Shared.events, Shared.start]
    early := fun _ hc => by cases hc
    log := fun before e after h => by cases before <;> cases h }
  current := {
    current := rfl
    cancelled := fun _ hk => by cases hk
    buffered := fun _ hk => by cases hk
    mode := fun _ hk => by cases hk
    exceeded := fun _ hk => by cases hk }
  care := ⟨fun _ hk => (by cases hk), Or.inl rfl, fun _ hs => (by cases hs), fun _ hm => by cases hm⟩

end IsekaiTerminal.Orchestrator.Transfer
