import IsekaiTerminal.Mux.Lemmas.Holder

/-!
# holder の終わり

終わる理由が在る holder は、外からの入力が無くても必ず終わる。`notify_waiters` の知らせは失われることがあるが、そのときの接続は
閉じているので、次の確認で終わる。
-/

namespace IsekaiTerminal.Mux

open Lib

variable {w w' : Holder} {s : Select}

/-- タスクの残りの歩数の重み。 -/
def Phase.weight : Phase → Nat
  | .signalling => 6
  | .leaving => 5
  | .notifying => 4
  | .serving | .done => 0

def Serve.weight : Serve → Nat
  | .accepted => 15
  | .counted => 14
  | .notified => 10
  | .looping => 9
  | .selecting s => if s.idle = .loading then 2 else 0
  | .returned _ => 0

namespace Holder

/-! ## 接続の死を示す失敗 -/

/-- 接続の死を示す失敗があれば、接続は閉じている。 -/
def DeadClosed (w : Holder) : Prop := w.deadOpen = true → w.handleClosed = true

theorem DeadClosed.step {a : HolderAction} (h : DeadClosed w) (hs : w.Steps a w') (hguard : DeadOpenIsClosed w a) :
    DeadClosed w' := by
  cases stepped_of_step hs with
  | closeHandle => exact fun _ => rfl
  | @openFailed i chain _ =>
      intro hdead
      rcases Bool.or_eq_true _ _ ▸ hdead with hold | himplies
      · exact h hold
      · exact hguard himplies
  | signal _ =>
      have htasks := notifyWaiters_tasks w
      intro hdead
      exact htasks.2.2.trans (h (htasks.2.1.symm.trans hdead))
  | _ => exact h

theorem deadClosed_of_run {as : List HolderAction} (h : Run (Guarded Steps DeadOpenIsClosed) start as w) :
    DeadClosed w := by
  refine Run.invariant_of_guarded (fun _ _ _ hdead hs hguard => hdead.step hs hguard) h ?_
  intro hdead
  cases hdead

/-- 外からの入力の無い遷移では、チャネルを開かない。 -/
theorem deadOpenIsClosed_of_unprompted {a : HolderAction} (h : Unprompted w a) : DeadOpenIsClosed w a := by
  cases a with
  | openFailed i chain =>
      rcases h with hinternal | ⟨_, heq, _⟩
      · cases hinternal
      · cases heq
  | _ => trivial

/-! ## 進めること -/

structure QuietInv (w : Holder) : Prop where
  inv : HolderInv w
  dead : DeadClosed w
  due : Due w
  running : w.serve ≠ .returned none

section Enabled

variable (hserve : w.serve = .selecting s)

include hserve

theorem steps_checkHandle (hdue : s.checkAt ≤ w.now) : ∃ w', w.Steps .checkHandle w' := by
  simp only [Steps, Holder.step, serveStep, hserve, hdue, if_true]
  split <;> exact ⟨_, rfl⟩

theorem steps_loadCount (hidle : s.idle = .loading) : ∃ w', w.Steps .loadCount w' := by
  simp only [Steps, Holder.step, serveStep, hserve, hidle, if_true]
  exact ⟨_, rfl⟩

theorem steps_takeCountChanged (hidle : s.idle ≠ .loading) (hchanged : w.countChanged = true) :
    ∃ w', w.Steps .takeCountChanged w' := by
  simp only [Steps, Holder.step, serveStep, hserve]
  exact ⟨_, if_pos ⟨hidle, hchanged⟩⟩

theorem steps_expire {deadline : Nat} (hidle : s.idle = .sleeping deadline) (hle : deadline ≤ w.now) :
    w.Steps .expire w.returnOk := by
  simp only [Steps, Holder.step, serveStep, hserve, hidle, hle, if_true]

end Enabled

/-- 終わっていなければ、どれかのタスクが進めるか、次に起きる時刻が在る。 -/
theorem exists_quiet (h : QuietInv w) (hrunning : ¬ Returned w) : ∃ a w', Quiet w a w' := by
  cases hserve : w.serve with
  | looping => exact ⟨.listen, _, if_pos hserve, Or.inl rfl⟩
  | accepted => exact ⟨.countUp, _, if_pos hserve, Or.inl rfl⟩
  | counted => exact ⟨.notifyCount, _, if_pos hserve, Or.inl rfl⟩
  | notified => exact ⟨.spawn, _, if_pos hserve, Or.inl rfl⟩
  | returned e =>
      cases e with
      | none => exact absurd hserve h.running
      | some e => exact absurd ⟨e, hserve⟩ hrunning
  | selecting s =>
      by_cases hinternal : ∃ b w', internal b = true ∧ w.Steps b w'
      · obtain ⟨b, w', hb, hstep⟩ := hinternal
        exact ⟨b, w', hstep, Or.inl hb⟩
      · have hnone (b : HolderAction) (w' : Holder) (hb : internal b = true) : ¬ w.Steps b w' :=
          fun hstep => hinternal ⟨b, w', hb, hstep⟩
        have hcheck : w.now < s.checkAt := by
          by_contra hle
          obtain ⟨w', hstep⟩ := steps_checkHandle hserve (Nat.le_of_not_lt hle)
          exact hnone .checkHandle w' rfl hstep
        have hsleep (deadline : Nat) (hidle : s.idle = .sleeping deadline) : w.now < deadline := by
          by_contra hle
          exact hnone .expire _ rfl (steps_expire hserve hidle (Nat.le_of_not_lt hle))
        have hdeadline : ∃ t, w.nextDeadline = some t ∧ w.now < t := by
          simp only [nextDeadline, hserve]
          cases hidle : s.idle with
          | loading => exact ⟨s.checkAt, rfl, hcheck⟩
          | waiting => exact ⟨s.checkAt, rfl, hcheck⟩
          | sleeping deadline => exact ⟨_, rfl, Nat.lt_min.mpr ⟨hcheck, hsleep deadline hidle⟩⟩
        obtain ⟨t, hnext, hlt⟩ := hdeadline
        refine ⟨.elapse (t - w.now), _, rfl, Or.inr ⟨t - w.now, rfl, ?_, hnone, ?_⟩⟩
        · omega
        · rw [hnext, Nat.add_sub_cancel' hlt.le]

/-! ## 順位 -/

/-- 待つ接続、残っている通知、タスクの残りの歩数の重みの和。 -/
def tokens (w : Holder) : Nat :=
  20 * w.arrivals + 3 * w.countChanged.toNat + (w.tasks.map Phase.weight).sum + w.serve.weight

/-- 猶予の残り。 -/
def remaining (w : Holder) : Nat :=
  match w.serve with
  | .selecting s =>
      match s.idle with
      | .sleeping deadline => deadline - w.now
      | .loading | .waiting => 0
  | _ => 0

/-- 次の確認まで。接続が開いていれば、確認の残りの回数。 -/
def pendingCheck (w : Holder) : Nat :=
  match w.serve with
  | .selecting s => if w.handleClosed then s.checkAt - w.now else if s.checkAt ≤ w.now then 1 else 0
  | _ => 0

def rank (w : Holder) : Nat × Nat × Nat := (w.tokens, w.remaining, w.pendingCheck)

def Below : Nat × Nat × Nat → Nat × Nat × Nat → Prop := Prod.Lex (· < ·) (Prod.Lex (· < ·) (· < ·))

theorem below_wellFounded : WellFounded Below := wellFounded_lt.prod_lex (wellFounded_lt.prod_lex wellFounded_lt)

theorem below_of_tokens (h : w'.tokens < w.tokens) : Below w'.rank w.rank := .left _ _ h

theorem tokens_setTask {p q : Phase} {i : Nat} (hi : w.tasks[i]? = some p) :
    (w.setTask i q).tokens + p.weight = w.tokens + q.weight := by
  have hsum := sum_map_set_add (b := q) Phase.weight hi
  simp only [tokens, setTask]
  omega

theorem tokens_notifyWaiters (w : Holder) : w.notifyWaiters.tokens = w.tokens := by
  rw [notifyWaiters]
  split
  · rename_i s hserve
    simp [tokens, setSelect, hserve, Serve.weight]
  · rfl

theorem selecting_of_nextDeadline {t : Nat} (h : w.nextDeadline = some t) : ∃ s, w.serve = .selecting s := by
  cases hserve : w.serve with
  | selecting s => exact ⟨s, rfl⟩
  | looping | accepted | counted | notified | returned _ => simp [nextDeadline, hserve] at h

/-- 眠っている future のほかに進めるタスクが無ければ、接続は閉じている。 -/
theorem closed_of_waiting (h : QuietInv w) (hserve : w.serve = .selecting s) (hidle : s.idle = .waiting)
    (hnone : ∀ b w', internal b = true → ¬ w.Steps b w') : w.handleClosed = true := by
  rcases h.due with hclosed | hdead | ⟨hclients, _, _⟩
  · exact hclosed
  · exact h.dead hdead
  · exfalso
    rcases (h.inv.watched s hserve).waiting hidle hclients with hchanged | ⟨i, hi⟩
    · obtain ⟨w', hstep⟩ := steps_takeCountChanged hserve (by simp [hidle]) hchanged
      exact hnone .takeCountChanged w' rfl hstep
    · exact absurd (if_pos hi) (hnone (.notifyLeft i) _ rfl)

/-- 時間が経つのは、終わる時刻か、閉じた接続の次の確認に近づくときである。 -/
theorem below_elapse (h : QuietInv w) {d : Nat} (hd : 0 < d)
    (hnone : ∀ b w', internal b = true → ¬ w.Steps b w') (hnext : w.nextDeadline = some (w.now + d)) :
    Below (rank { w with now := w.now + d }) w.rank := by
  obtain ⟨s, hserve⟩ := selecting_of_nextDeadline hnext
  have htokens : tokens { w with now := w.now + d } = w.tokens := rfl
  simp only [nextDeadline, hserve] at hnext
  rw [rank, rank, htokens]
  refine .right _ ?_
  cases hidle : s.idle with
  | sleeping deadline =>
      simp only [hidle, Option.some.injEq] at hnext
      refine .left _ _ ?_
      simp only [remaining, hserve, hidle]
      omega
  | loading =>
      obtain ⟨w', hstep⟩ := steps_loadCount hserve hidle
      exact absurd hstep (hnone .loadCount w' rfl)
  | waiting =>
      simp only [hidle, Option.some.injEq] at hnext
      have hclosed := closed_of_waiting h hserve hidle hnone
      have hremaining : remaining { w with now := w.now + d } = w.remaining := by
        simp only [remaining, hserve, hidle]
      rw [hremaining]
      refine .right _ ?_
      simp only [pendingCheck, hserve, hclosed, if_true]
      omega

/-- 外からの入力の無い遷移は、終わるか、順位を下げる。 -/
theorem below_of_quiet (h : QuietInv w) {a : HolderAction} (hs : Quiet w a w') : Returned w' ∨ Below w'.rank w.rank := by
  obtain ⟨hstep, hquiet⟩ := hs
  cases stepped_of_step hstep with
  | elapse d =>
      rcases hquiet with hinternal | ⟨d', heq, hd, hnone, hnext⟩
      · cases hinternal
      · cases heq
        exact Or.inr (below_elapse h hd hnone hnext)
  | connect | closeHandle | openFailed _ | relayEnded _ | acceptFailed _ =>
      rcases hquiet with hinternal | ⟨_, heq, _⟩
      · cases hinternal
      · cases heq
  | died _ _ => exact Or.inl ⟨_, rfl⟩
  | observeShutdown _ _ => exact Or.inl ⟨_, rfl⟩
  | expire _ _ _ => exact Or.inl ⟨_, rfl⟩
  | @signal i hi =>
      right
      have htasks := tokens_setTask (w := w.notifyWaiters) (q := .leaving) (by rw [(notifyWaiters_tasks w).1]; exact hi)
      rw [tokens_notifyWaiters] at htasks
      simp only [Phase.weight] at htasks
      exact below_of_tokens (by omega)
  | @leave i hi =>
      right
      have htasks := tokens_setTask (q := .notifying) hi
      simp only [Phase.weight] at htasks
      refine below_of_tokens ?_
      change (w.setTask i .notifying).tokens < w.tokens
      omega
  | @notifyLeft i hi =>
      right
      have htasks := tokens_setTask (q := .done) hi
      simp only [Phase.weight] at htasks
      refine below_of_tokens ?_
      have hset : tokens { w.setTask i .done with countChanged := true } ≤ (w.setTask i .done).tokens + 3 := by
        simp only [tokens, Bool.toNat_true]
        omega
      omega
  | listen hserve =>
      right
      refine below_of_tokens ?_
      simp only [tokens, setSelect, hserve, Serve.weight, if_true]
      omega
  | countUp hserve =>
      right
      refine below_of_tokens ?_
      simp only [tokens, hserve, Serve.weight]
      omega
  | notifyCount hserve =>
      right
      refine below_of_tokens ?_
      simp only [tokens, hserve, Serve.weight, Bool.toNat_true]
      omega
  | spawn hserve =>
      right
      refine below_of_tokens ?_
      simp only [tokens, hserve, Serve.weight, List.map_append, List.map_cons, List.map_nil, List.sum_append,
        List.sum_singleton, Phase.weight]
      omega
  | accept hserve hpos =>
      right
      refine below_of_tokens ?_
      simp only [tokens, hserve, Serve.weight]
      omega
  | @loadCount s hserve hidle =>
      right
      refine below_of_tokens ?_
      simp only [tokens, setSelect, hserve, Serve.weight, hidle, if_true]
      split <;> simp
  | @takeCountChanged s hserve hidle hchanged =>
      right
      refine below_of_tokens ?_
      simp only [tokens, setSelect, hserve, Serve.weight, hidle, hchanged, if_true, if_false, Bool.toNat_true,
        Bool.toNat_false]
      omega
  | @alive s hserve hdue hopen =>
      right
      have htokens : (w.setSelect { s with checkAt := w.now + handleHealthPollInterval }).tokens = w.tokens := by
        simp only [tokens, setSelect, hserve, Serve.weight]
      have hremaining : (w.setSelect { s with checkAt := w.now + handleHealthPollInterval }).remaining = w.remaining := by
        simp only [remaining, setSelect, hserve]
      rw [rank, rank, htokens, hremaining]
      refine .right _ (.right _ ?_)
      have hinterval : ¬ w.now + handleHealthPollInterval ≤ w.now := by
        simp [handleHealthPollInterval]
      simp only [pendingCheck, setSelect, hserve, hopen, hdue, hinterval, Bool.false_eq_true, if_true, if_false,
        Nat.zero_lt_one]

theorem Due.step (h : Due w) {a : HolderAction} (hinv : HolderInv w) (hs : Quiet w a w') (hrunning : ¬ Returned w') :
    Due w' := by
  obtain ⟨hstep, hquiet⟩ := hs
  have hstepped := stepped_of_step hstep
  rcases h with hclosed | hdead | ⟨hclients, harrivals, hserve⟩
  · left
    cases hstepped with
    | signal _ =>
        change w.notifyWaiters.handleClosed = true
        rw [(notifyWaiters_tasks w).2.2]
        exact hclosed
    | closeHandle => rfl
    | _ => exact hclosed
  · right
    left
    cases hstepped with
    | signal _ =>
        change w.notifyWaiters.deadOpen = true
        rw [(notifyWaiters_tasks w).2.1]
        exact hdead
    | openFailed _ => simp [openFailed, hdead]
    | _ => exact hdead
  · have hnone (i : Nat) (p : Phase) (hi : w.tasks[i]? = some p) (hp : p.isCounted = true) : False := by
      have hpos := countP_pos_of_getElem? hi hp
      have hcount := hinv.count
      omega
    cases hstepped with
    | elapse d => exact Or.inr (Or.inr ⟨hclients, harrivals, hserve⟩)
    | connect | closeHandle | openFailed _ | relayEnded _ | acceptFailed _ =>
        rcases hquiet with hinternal | ⟨_, heq, _⟩
        · cases hinternal
        · cases heq
    | signal hi => exact (hnone _ _ hi rfl).elim
    | leave hi => exact (hnone _ _ hi rfl).elim
    | notifyLeft _ => exact Or.inr (Or.inr ⟨hclients, harrivals, hserve⟩)
    | countUp h' | notifyCount h' | spawn h' => rcases hserve with hserve | ⟨s, hserve⟩ <;> cases h'.symm.trans hserve
    | accept _ hpos => omega
    | died _ _ => exact (hrunning ⟨_, rfl⟩).elim
    | observeShutdown _ _ => exact (hrunning ⟨_, rfl⟩).elim
    | expire _ _ _ => exact (hrunning ⟨_, rfl⟩).elim
    | listen _ => exact Or.inr (Or.inr ⟨hclients, harrivals, Or.inr ⟨_, rfl⟩⟩)
    | alive _ _ _ => exact Or.inr (Or.inr ⟨hclients, harrivals, Or.inr ⟨_, rfl⟩⟩)
    | loadCount _ _ => exact Or.inr (Or.inr ⟨hclients, harrivals, Or.inr ⟨_, rfl⟩⟩)
    | takeCountChanged _ _ _ => exact Or.inr (Or.inr ⟨hclients, harrivals, Or.inr ⟨_, rfl⟩⟩)

theorem returned_none_of_quiet {a : HolderAction} (hs : Quiet w a w') (h : w'.serve = .returned none) :
    w.serve = .returned none := by
  obtain ⟨hstep, hquiet⟩ := hs
  cases stepped_of_step hstep with
  | acceptFailed _ =>
      rcases hquiet with hinternal | ⟨_, heq, _⟩
      · cases hinternal
      · cases heq
  | signal _ =>
      rw [setTask, notifyWaiters] at h
      split at h
      · cases h
      · exact h
  | listen _ | countUp _ | notifyCount _ | spawn _ | accept _ _ | died _ _ | alive _ _ _ | observeShutdown _ _
  | loadCount _ _ | takeCountChanged _ _ _ | expire _ _ _ => cases h
  | elapse _ | connect | closeHandle | openFailed _ | relayEnded _ | leave _ | notifyLeft _ => exact h

/-- 終わる理由が在れば、外からの入力が無くても必ず終わる。 -/
theorem inevitable_returned (hinv : HolderInv w) (hdead : DeadClosed w) (hdue : Due w) (hrunning : w.serve ≠ .returned none) :
    Inevitable Quiet Returned w := by
  refine Inevitable.of_rank (I := fun w => Returned w ∨ QuietInv w) below_wellFounded rank ?_ ?_
    (Or.inr ⟨hinv, hdead, hdue, hrunning⟩)
  · intro w h hrunning
    exact exists_quiet (h.resolve_left hrunning) hrunning
  · intro w a w' h hrunning hs
    have hquiet := h.resolve_left hrunning
    by_cases hreturned : Returned w'
    · exact ⟨Or.inl hreturned, Or.inl hreturned⟩
    · have hdead := hquiet.dead.step hs.1 (deadOpenIsClosed_of_unprompted hs.2)
      refine ⟨Or.inr ⟨hquiet.inv.step hs.1, hdead, hquiet.due.step hquiet.inv hs hreturned, ?_⟩,
        below_of_quiet hquiet hs⟩
      exact fun h => hquiet.running (returned_none_of_quiet hs h)

end Holder

end IsekaiTerminal.Mux
