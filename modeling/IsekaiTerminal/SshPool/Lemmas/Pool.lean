import IsekaiTerminal.SshPool.Pool
import IsekaiTerminal.Lib.Table

/-!
# プールの操作の結果
-/

namespace IsekaiTerminal.SshPool

open Lib

section

variable {κ T : Type} [DecidableEq κ] {p : Pool κ T} {w w' : World κ T}

/-! ## 操作 -/

/-- 確立役の公開は、エントリを新しい状態に移し、結果を送って送信側を手放す。 -/
theorem publish_connecting {key : κ} {tx : Nat} {s : IdleLedger} (r : Established T) (state : EntryState T)
    (h : p.map key = some ⟨.connecting tx, s⟩) :
    publish p key r state =
      ⟨Function.update p.map key (some ⟨state, s⟩), Function.update p.watch tx ⟨some r, true⟩,
        p.channels, p.arcs⟩ := by
  simp [publish, h, Pool.setState, Pool.dropState, Pool.insert, Pool.send, Watch.send, Watch.dropSender]

/-- `release` は台帳だけを進める。 -/
theorem releaseStep_fst (p : Pool κ T) (key : κ) (idleGrace : Nat) :
    (releaseStep p key idleGrace).1 =
      match p.map key with
      | none => p
      | some e => p.insert key { e with idle := (e.idle.apply (.released idleGrace)).1 } := by
  cases hmap : p.map key with
  | none => simp [releaseStep, applyIdleInLock, hmap]
  | some e =>
      simp only [releaseStep, applyIdleInLock, hmap, IdleLedger.apply]
      split <;> simp [applyIdleEffect]

theorem releaseStep_kept (p : Pool κ T) (key : κ) (idleGrace : Nat) :
    (releaseStep p key idleGrace).1.watch = p.watch ∧ (releaseStep p key idleGrace).1.channels = p.channels ∧
      (releaseStep p key idleGrace).1.arcs = p.arcs := by
  rw [releaseStep_fst]
  cases p.map key <;> simp [Pool.insert]

theorem remove_kept (p : Pool κ T) (key : κ) (e : PoolEntry T) :
    (p.remove key e).map = Function.update p.map key none ∧ (p.remove key e).arcs = p.arcs ∧
      ∀ tx, ((p.remove key e).watch tx).value = (p.watch tx).value := by
  cases hs : e.state with
  | ready v => simp [Pool.remove, Pool.dropState, hs]
  | dead => simp [Pool.remove, Pool.dropState, hs]
  | connecting tx =>
      refine ⟨by simp [Pool.remove, Pool.dropState, hs], by simp [Pool.remove, Pool.dropState, hs], fun tx' => ?_⟩
      simp only [Pool.remove, Pool.dropState, hs, Function.update_apply]
      split
      · rename_i heq
        rw [heq]
        rfl
      · rfl

/-- 満了は、参照カウントが 0 で世代が現行のエントリだけを除く。 -/
theorem idleExpiredStep_cases (p : Pool κ T) (key : κ) (generation : Nat) :
    idleExpiredStep p key generation = (p, []) ∨
      ∃ e, p.map key = some e ∧ e.idle.refcount = 0 ∧
        idleExpiredStep p key generation = (p.remove key e, []) := by
  cases hmap : p.map key with
  | none => exact Or.inl (by simp [idleExpiredStep, applyIdleInLock, hmap])
  | some e =>
      have hsame : p.insert key e = p := by
        simp only [Pool.insert, ← hmap, Function.update_eq_self]
      by_cases h : e.idle.refcount = 0 ∧ e.idle.generation = generation
      · refine Or.inr ⟨e, rfl, h.1, ?_⟩
        simp [idleExpiredStep, applyIdleInLock, hmap, IdleLedger.apply, h, applyIdleEffect, hsame]
      · refine Or.inl ?_
        simp [idleExpiredStep, applyIdleInLock, hmap, IdleLedger.apply, h, hsame]

/-- 死んだという知らせは、その値を持つエントリだけを変える。 -/
theorem markDeadIfSame_cases (p : Pool κ T) (key : κ) (value : Arc T) :
    (∃ v idle, p.map key = some ⟨.ready v, idle⟩ ∧ v.addr = value.addr ∧
      markDeadIfSame p key value = p.insert key ⟨.dead, idle⟩) ∨
    (∀ v idle, p.map key = some ⟨.ready v, idle⟩ → v.addr ≠ value.addr) ∧ markDeadIfSame p key value = p := by
  cases hmap : p.map key with
  | none => exact Or.inr (by simp [markDeadIfSame, hmap])
  | some e =>
      obtain ⟨state, idle⟩ := e
      cases state with
      | connecting tx => exact Or.inr (by simp [markDeadIfSame, hmap])
      | dead => exact Or.inr (by simp [markDeadIfSame, hmap])
      | ready v =>
          by_cases haddr : v.addr = value.addr
          · exact Or.inl ⟨v, idle, rfl, haddr, by simp [markDeadIfSame, hmap, haddr]⟩
          · refine Or.inr ⟨?_, by simp [markDeadIfSame, hmap, haddr]⟩
            intro v' idle' h
            cases h
            exact haddr

/-! ## 遷移の形 -/

omit [DecidableEq κ] in
theorem establishing?_eq_some {i : Nat} {a : Attach κ T} :
    w.establishing? i = some a ↔ w.attaches[i]? = some a ∧ ∃ tx, a.role = .establisher tx ∧ a.outcome = none := by
  simp only [World.establishing?, Option.filter_eq_some_iff, Attach.establishing]
  refine and_congr_right fun _ => ?_
  cases a.role <;> simp

omit [DecidableEq κ] in
theorem waiting?_eq_some {a : Attach κ T} {rx : Nat} :
    a.waiting? = some rx ↔ a.role = .waiter rx ∧ a.outcome = none := by
  obtain ⟨key, role, outcome, released⟩ := a
  cases role <;> cases outcome <;> simp [Attach.waiting?]

/-- アタッチは、確立役になるか、確立中の結果を待つか、生きている値を使う。どれも参照カウントを 1 つ進める。 -/
theorem steps_tryAttach {key : κ} (h : w.Steps (.tryAttach key) w') :
    ∃ idle, idle.refcount = satAdd 32 (w.refcount key) 1 ∧
      ((∀ tx, w.state? key ≠ some (.connecting tx)) ∧
        w' = { w with
          pool := w.pool.connect key idle
          attaches := w.attaches ++ [⟨key, .establisher w.pool.channels, none, false⟩] } ∨
      (∃ tx, w.state? key = some (.connecting tx) ∧
        w' = { w with
          pool := w.pool.insert key ⟨.connecting tx, idle⟩
          attaches := w.attaches ++ [⟨key, .waiter tx, none, false⟩] }) ∨
      ∃ v, w.state? key = some (.ready v) ∧ w.isAlive v.addr = true ∧
        w' = { w with
          pool := w.pool.insert key ⟨.ready v, idle⟩
          attaches := w.attaches ++ [⟨key, .ready, some (.ok v), false⟩] }) := by
  obtain rfl := Option.some.inj h
  cases hmap : w.pool.map key with
  | none =>
      refine ⟨.firstHolder, by simp [World.refcount, hmap, IdleLedger.firstHolder, satAdd, maxOf], Or.inl ?_⟩
      simp [tryAttachWith, hmap, World.state?, World.attach]
  | some e =>
      obtain ⟨state, idle⟩ := e
      refine ⟨(idle.apply .attached).1, by simp [World.refcount, hmap, IdleLedger.apply], ?_⟩
      cases state with
      | connecting tx =>
          refine Or.inr (Or.inl ⟨tx, ?_⟩)
          simp [tryAttachWith, hmap, World.state?, World.attach]
      | dead =>
          refine Or.inl ?_
          simp [tryAttachWith, hmap, World.state?, World.attach]
      | ready v =>
          by_cases halive : w.isAlive v.addr = true
          · refine Or.inr (Or.inr ⟨v, ?_⟩)
            simp [tryAttachWith, hmap, World.state?, World.attach, halive]
          · refine Or.inl ?_
            simp [tryAttachWith, hmap, World.state?, World.attach, halive]

/-- タブの操作の遷移を、操作ごとの条件と結果に分ける。 -/
theorem steps_publishSuccess {i : Nat} {value : T} (h : w.Steps (.publishSuccess i value) w') :
    ∃ a tx, w.attaches[i]? = some a ∧ a.role = .establisher tx ∧ a.outcome = none ∧
      w' = w.setOutcome (publish w.pool.newArc a.key (.ok ⟨w.pool.arcs, value⟩)
        (.ready ⟨w.pool.arcs, value⟩)) i a (.ok ⟨w.pool.arcs, value⟩) := by
  obtain ⟨a, ha, h⟩ := Option.bind_eq_some_iff.mp h
  obtain ⟨hi, tx, hrole, hout⟩ := establishing?_eq_some.mp ha
  exact ⟨a, tx, hi, hrole, hout, (Option.some.inj h).symm⟩

theorem steps_publishFailure {i : Nat} {message : String} (h : w.Steps (.publishFailure i message) w') :
    ∃ a tx, w.attaches[i]? = some a ∧ a.role = .establisher tx ∧ a.outcome = none ∧
      w' = w.setOutcome (publish w.pool a.key (.error message) .dead) i a (.error message) := by
  obtain ⟨a, ha, h⟩ := Option.bind_eq_some_iff.mp h
  obtain ⟨hi, tx, hrole, hout⟩ := establishing?_eq_some.mp ha
  exact ⟨a, tx, hi, hrole, hout, (Option.some.inj h).symm⟩

theorem steps_waitForEstablish {i : Nat} (h : w.Steps (.waitForEstablish i) w') :
    ∃ a rx r, w.attaches[i]? = some a ∧ a.role = .waiter rx ∧ a.outcome = none ∧
      waitForEstablish (w.pool.watch rx) = some r ∧ w' = w.setOutcome w.pool i a r := by
  obtain ⟨a, hi, h⟩ := Option.bind_eq_some_iff.mp h
  obtain ⟨rx, hrx, h⟩ := Option.bind_eq_some_iff.mp h
  obtain ⟨r, hr, h⟩ := Option.bind_eq_some_iff.mp h
  obtain ⟨hrole, hout⟩ := waiting?_eq_some.mp hrx
  exact ⟨a, rx, r, hi, hrole, hout, hr, (Option.some.inj h).symm⟩

theorem steps_release {i idleGrace : Nat} (h : w.Steps (.release i idleGrace) w') :
    ∃ a timers, w.attaches[i]? = some a ∧ a.outcome ≠ none ∧ a.released = false ∧
      w' = { w with
        pool := (releaseStep w.pool a.key idleGrace).1
        attaches := w.attaches.set i { a with released := true }
        timers } := by
  obtain ⟨a, ha, h⟩ := Option.bind_eq_some_iff.mp h
  obtain ⟨hi, hout⟩ := Option.filter_eq_some_iff.mp ha
  rw [Bool.and_eq_true, Option.isSome_iff_ne_none, Bool.not_eq_true'] at hout
  exact ⟨a, _, hi, hout.1, hout.2, (Option.some.inj h).symm⟩

theorem steps_idleExpired {j : Nat} (h : w.Steps (.idleExpired j) w') :
    ∃ timers, w' = { w with timers } ∨
      ∃ key e, w.pool.map key = some e ∧ e.idle.refcount = 0 ∧
        w' = { w with pool := w.pool.remove key e, timers } := by
  obtain ⟨⟨key, generation, after⟩, hj, h⟩ := Option.bind_eq_some_iff.mp h
  obtain rfl := Option.some.inj h
  rcases idleExpiredStep_cases w.pool key generation with hsame | ⟨e, hmap, hzero, hremove⟩
  · exact ⟨_, Or.inl (by rw [hsame])⟩
  · exact ⟨_, Or.inr ⟨key, e, hmap, hzero, by rw [hremove]⟩⟩

theorem steps_markDeadIfSame {i : Nat} (h : w.Steps (.markDeadIfSame i) w') :
    ∃ a v, w.attaches[i]? = some a ∧ a.outcome = some (.ok v) ∧
      w' = { w with pool := markDeadIfSame w.pool a.key v, marked := (a.key, v.addr) :: w.marked } := by
  obtain ⟨a, hi, h⟩ := Option.bind_eq_some_iff.mp h
  obtain ⟨v, hv, h⟩ := Option.bind_eq_some_iff.mp h
  refine ⟨a, v, hi, ?_, (Option.some.inj h).symm⟩
  cases hout : a.outcome with
  | none => simp [Attach.value?, hout] at hv
  | some r => cases r <;> simp_all [Attach.value?]

end

section

open World

/-! ## 参照カウントの不変条件 -/

variable {κ T : Type} [DecidableEq κ] {w w' : World κ T} {a : Action κ T}

/-- 参照カウントは、返していないアタッチの数に等しい。 -/
def Balanced (w : World κ T) : Prop := ∀ key, w.refcount key = w.outstanding key

omit [DecidableEq κ] in
theorem refcount_of_map {key : κ} {e : PoolEntry T} (h : w.pool.map key = some e) :
    w.refcount key = e.idle.refcount := by
  rw [World.refcount, h]
  rfl

/-- 鍵のエントリを差し替えたときの参照カウント。 -/
theorem refcount_of_update {v : World κ T} {k : κ} {e : Option (PoolEntry T)}
    (h : v.pool.map = Function.update w.pool.map k e) (key : κ) :
    v.refcount key = if key = k then (e.map fun e => e.idle.refcount).getD 0 else w.refcount key := by
  rw [World.refcount, h, Function.update_apply]
  split <;> rfl

/-- 参照カウントを変えない差し替えでは、どの鍵の参照カウントも変わらない。 -/
theorem refcount_of_same {k : κ} {e f : PoolEntry T} (hmap : w.pool.map k = some e)
    (hsame : f.idle.refcount = e.idle.refcount)
    (h : w'.pool.map = Function.update w.pool.map k (some f)) (key : κ) :
    w'.refcount key = w.refcount key := by
  rw [refcount_of_update h]
  split
  · rename_i heq
    rw [heq, refcount_of_map hmap]
    exact hsame
  · rfl

theorem balanced_of_same (hw : Balanced w) (hr : ∀ key, w'.refcount key = w.refcount key)
    (ho : ∀ key, w'.outstanding key = w.outstanding key) : Balanced w' := by
  intro key
  rw [hr, ho, hw]

/-- アタッチの 1 つの結果だけを変えても、返していないアタッチの数は変わらない。 -/
theorem outstanding_setOutcome {i : Nat} {a : Attach κ T} (hi : w.attaches[i]? = some a)
    (pool : Pool κ T) (r : Established T) (key : κ) :
    (w.setOutcome pool i a r).outstanding key = w.outstanding key :=
  countP_set_of_eq hi rfl

theorem balanced_concat {key : κ} {e : PoolEntry T} {a : Attach κ T} (hw : Balanced w)
    (hmap : w'.pool.map = Function.update w.pool.map key (some e))
    (he : e.idle.refcount = w.refcount key + 1) (hatt : w'.attaches = w.attaches ++ [a])
    (hkey : a.key = key) (hrel : a.released = false) : Balanced w' := by
  intro key'
  have hout : w'.outstanding key' = w.outstanding key' + if key = key' then 1 else 0 := by
    simp [World.outstanding, hatt, hkey, hrel]
  rw [refcount_of_update hmap, hout]
  by_cases heq : key' = key
  · subst heq
    simpa [he] using hw key'
  · rw [if_neg heq, if_neg (Ne.symm heq), hw key', Nat.add_zero]

theorem balanced_tryAttach {key : κ} (hw : Balanced w) (h : w.Steps (.tryAttach key) w')
    (hc : w.outstanding key < maxOf 32) : Balanced w' := by
  obtain ⟨idle, hidle, hcases⟩ := steps_tryAttach h
  have he : idle.refcount = w.refcount key + 1 := by
    rw [hidle]
    exact satAdd_eq_add (by rw [hw key]; omega)
  rcases hcases with ⟨_, rfl⟩ | ⟨tx, _, rfl⟩ | ⟨v, _, _, rfl⟩
  · exact balanced_concat hw rfl he rfl rfl rfl
  · exact balanced_concat hw rfl he rfl rfl rfl
  · exact balanced_concat hw rfl he rfl rfl rfl

/-- 公開は参照カウントを変えない。 -/
theorem refcount_publish {key : κ} {r : Established T} {state : EntryState T} {p : Pool κ T}
    (hmap : p.map = w.pool.map) (hw : w'.pool = publish p key r state) (key' : κ) :
    w'.refcount key' = w.refcount key' := by
  cases hkey : w.pool.map key with
  | none => simp [World.refcount, hw, publish, hmap, hkey]
  | some e =>
      obtain ⟨st, idle⟩ := e
      refine refcount_of_same (f := ⟨state, idle⟩) hkey rfl ?_ key'
      rw [hw, publish, hmap, hkey]
      cases st <;> simp [Pool.setState, Pool.dropState, Pool.insert, Pool.send, hmap]

theorem balanced_release {i idleGrace : Nat} (hw : Balanced w) (h : w.Steps (.release i idleGrace) w') :
    Balanced w' := by
  obtain ⟨a, timers, hi, _, hrel, rfl⟩ := steps_release h
  intro key
  have hout := countP_set_add (b := { a with released := true })
    (fun b : Attach κ T => decide (b.key = key) && !b.released) hi
  have hbal := hw key
  simp only [World.outstanding] at hbal ⊢
  cases hmap : w.pool.map a.key with
  | none =>
      -- エントリが無ければ、返していないアタッチも無い。
      have hzero : w.outstanding a.key = 0 := by
        rw [← hw, World.refcount, hmap]
        rfl
      have hpos : 0 < w.outstanding a.key := countP_pos_of_getElem? hi (by simp [hrel])
      omega
  | some e =>
      rw [refcount_of_update (w := w) (k := a.key)
        (e := some { e with idle := (e.idle.apply (.released idleGrace)).1 })
        (by simp [releaseStep_fst, hmap, Pool.insert])]
      by_cases heq : key = a.key
      · subst heq
        rw [refcount_of_map hmap] at hbal
        simp [hrel, IdleLedger.apply_released_refcount] at hout ⊢
        omega
      · have hne : ¬ a.key = key := fun h => heq h.symm
        simp [hne, heq] at hout ⊢
        omega

theorem balanced_step (hw : Balanced w) (h : w.Steps a w') (hc : w.Counted a) : Balanced w' := by
  cases a with
  | tryAttach key => exact balanced_tryAttach hw h hc
  | release i idleGrace => exact balanced_release hw h
  | publishSuccess i value =>
      obtain ⟨a, tx, hi, _, _, rfl⟩ := steps_publishSuccess h
      exact balanced_of_same hw (refcount_publish (p := w.pool.newArc) rfl rfl)
        (outstanding_setOutcome hi _ _)
  | publishFailure i message =>
      obtain ⟨a, tx, hi, _, _, rfl⟩ := steps_publishFailure h
      exact balanced_of_same hw (refcount_publish rfl rfl) (outstanding_setOutcome hi _ _)
  | waitForEstablish i =>
      obtain ⟨a, rx, r, hi, _, _, _, rfl⟩ := steps_waitForEstablish h
      exact balanced_of_same hw (fun _ => rfl) (outstanding_setOutcome hi _ _)
  | idleExpired j =>
      obtain ⟨timers, rfl | ⟨key, e, hmap, hzero, rfl⟩⟩ := steps_idleExpired h
      · exact hw
      · refine balanced_of_same hw (fun key' => ?_) fun _ => rfl
        rw [refcount_of_update (w := w) (k := key) (e := none)
          (by cases hst : e.state <;> simp [Pool.remove, Pool.dropState, hst])]
        split
        · rename_i heq
          rw [heq, refcount_of_map hmap, hzero]
          rfl
        · rfl
  | markDeadIfSame i =>
      obtain ⟨a, v, hi, _, rfl⟩ := steps_markDeadIfSame h
      refine balanced_of_same hw (fun key' => ?_) fun _ => rfl
      rcases markDeadIfSame_cases w.pool a.key v with ⟨v', idle, hmap, _, hdead⟩ | ⟨_, hsame⟩
      · exact refcount_of_same (f := ⟨.dead, idle⟩) hmap rfl (by rw [hdead]; rfl) key'
      · simp only [World.refcount, hsame]
  | dies addr =>
      obtain rfl := Option.some.inj h
      exact hw

theorem balanced_start : Balanced (World.start : World κ T) := fun _ => rfl

end

end IsekaiTerminal.SshPool
