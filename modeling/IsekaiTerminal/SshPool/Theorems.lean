import IsekaiTerminal.SshPool.Lemmas.Brokered

/-!
# 共有する接続のプールの性質
-/

namespace IsekaiTerminal.SshPool

open Lib World

variable {κ T : Type} [DecidableEq κ] {w w' : World κ T}

/-- プールの規約。確立役は鍵ごとに高々 1 つで、待ち手は購読した確立役の結果だけを受け取り、猶予の満了は使われている
エントリを除かない。 -/
structure Coherent (w : World κ T) : Prop where
  establisher : ∀ key, w.establishing key ≤ 1 ∧
    ((∃ tx, w.state? key = some (.connecting tx)) ↔ w.establishing key = 1)
  refcount : ∀ key, w.refcount key = w.outstanding key
  removed : ∀ a w' key, w.Steps a w' → w.state? key ≠ none → w'.state? key = none → w.outstanding key = 0
  waiter : ∀ (i : Nat) (a : Attach κ T) tx, w.attaches[i]? = some a → a.role = .waiter tx →
    ∃ e ∈ w.attaches, e.key = a.key ∧ e.role = .establisher tx ∧
      (∀ e' ∈ w.attaches, e'.role = .establisher tx → e' = e) ∧
      (∀ r, a.outcome = some r → e.outcome = some r) ∧
      ∀ r, e.outcome = some r → a.outcome = none →
        w.step (.waitForEstablish i) = some (w.setOutcome w.pool i a r)
  handed : ∀ key v, (tryAttachWith w.pool key fun v => w.isAlive v.addr).2 = .ready v →
    (key, v.addr) ∉ w.marked ∧ w.isAlive v.addr = true

theorem establishing_iff {a : Attach κ T} {key : κ} :
    (decide (a.key = key) && a.establishing) = true ↔
      a.key = key ∧ ∃ tx, a.role = .establisher tx ∧ a.outcome = none := by
  rw [Bool.and_eq_true, decide_eq_true_iff, Attach.establishing]
  refine and_congr_right fun _ => ?_
  cases a.role <;> simp

/-- 鍵の公開の前の確立役は、どれも同じチャネルを持つ。 -/
theorem establishing_le_one (hw : Brokered w) (key : κ) : w.establishing key ≤ 1 := by
  refine countP_le_one fun i j a b hi hj ha hb => ?_
  obtain ⟨hka, tx, hra, hoa⟩ := establishing_iff.mp ha
  obtain ⟨hkb, tx', hrb, hob⟩ := establishing_iff.mp hb
  have hsa := ((hw.establisher i a tx hi hra).2.2 hoa).1
  have hsb := ((hw.establisher j b tx' hj hrb).2.2 hob).1
  rw [hka] at hsa
  rw [hkb, hsa] at hsb
  obtain rfl : tx = tx' := by simpa using hsb
  exact hw.distinct i j a b tx hi hj hra hrb

theorem connecting_iff (hw : Brokered w) (key : κ) :
    (∃ tx, w.state? key = some (.connecting tx)) ↔ w.establishing key = 1 := by
  constructor
  · rintro ⟨tx, hst⟩
    obtain ⟨i, a, hi, hkey, hrole, hout⟩ := hw.connecting key tx hst
    have hpos : 0 < w.establishing key :=
      countP_pos_of_getElem? hi (establishing_iff.mpr ⟨hkey, tx, hrole, hout⟩)
    have hle := establishing_le_one hw key
    omega
  · intro hone
    obtain ⟨a, ha, hp⟩ := List.countP_pos_iff.mp (hone ▸ Nat.one_pos : 0 < w.establishing key)
    obtain ⟨hkey, tx, hrole, hout⟩ := establishing_iff.mp hp
    obtain ⟨i, hi⟩ := List.getElem?_of_mem ha
    exact ⟨tx, hkey ▸ ((hw.establisher i a tx hi hrole).2.2 hout).1⟩

/-- エントリを別のエントリに差し替えても、エントリは残る。 -/
theorem state?_ne_none_of_update {key key' : κ} {e : PoolEntry T}
    (h : w'.pool.map = Function.update w.pool.map key (some e)) (hsome : w.state? key' ≠ none) :
    w'.state? key' ≠ none := by
  rw [state?_of_update h]
  split
  · exact Option.some_ne_none _
  · exact hsome

/-- エントリを除くのは、参照カウントが 0 のときの猶予の満了だけである。 -/
theorem refcount_of_removed (hw : Brokered w) {a : Action κ T} {key : κ} (h : w.Steps a w')
    (hsome : w.state? key ≠ none) (hnone : w'.state? key = none) : w.refcount key = 0 := by
  have hpublish {i tx : Nat} {a : Attach κ T} {p : Pool κ T} (r : Established T) (state : EntryState T)
      (hi : w.attaches[i]? = some a) (hrole : a.role = .establisher tx) (hout : a.outcome = none)
      (hmap : p.map = w.pool.map) : (w.setOutcome (publish p a.key r state) i a r).state? key ≠ none := by
    obtain ⟨idle, hentry⟩ := exists_map_of_state? ((hw.establisher i a tx hi hrole).2.2 hout).1
    rw [publish_connecting (s := idle) r state (hmap ▸ hentry), hmap]
    exact state?_ne_none_of_update rfl hsome
  cases a with
  | tryAttach key' =>
      obtain ⟨idle, _, ⟨_, rfl⟩ | ⟨tx, _, rfl⟩ | ⟨v, _, _, rfl⟩⟩ := steps_tryAttach h
      · exact (state?_ne_none_of_update rfl hsome hnone).elim
      · exact (state?_ne_none_of_update rfl hsome hnone).elim
      · exact (state?_ne_none_of_update rfl hsome hnone).elim
  | publishSuccess i value =>
      obtain ⟨a, tx, hi, hrole, hout, rfl⟩ := steps_publishSuccess h
      exact (hpublish (p := w.pool.newArc) _ _ hi hrole hout rfl hnone).elim
  | publishFailure i message =>
      obtain ⟨a, tx, hi, hrole, hout, rfl⟩ := steps_publishFailure h
      exact (hpublish _ _ hi hrole hout rfl hnone).elim
  | waitForEstablish i =>
      obtain ⟨a, rx, r, _, _, _, _, rfl⟩ := steps_waitForEstablish h
      exact (hsome hnone).elim
  | release i idleGrace =>
      obtain ⟨a, timers, _, _, _, rfl⟩ := steps_release h
      rw [state?_of_release (w := w) rfl] at hnone
      exact (hsome hnone).elim
  | idleExpired j =>
      obtain ⟨timers, rfl | ⟨key', e, hmap, hzero, rfl⟩⟩ := steps_idleExpired h
      · exact (hsome hnone).elim
      · rw [state?_of_update (w := w) (remove_kept w.pool key' e).1] at hnone
        split at hnone
        · rename_i heq
          rw [heq, refcount_of_map hmap, hzero]
        · exact (hsome hnone).elim
  | markDeadIfSame i =>
      obtain ⟨a, v, _, _, rfl⟩ := steps_markDeadIfSame h
      rcases markDeadIfSame_cases w.pool a.key v with ⟨v', idle, _, _, hdead⟩ | ⟨_, hsame⟩
      · rw [hdead] at hnone
        exact (state?_ne_none_of_update rfl hsome hnone).elim
      · rw [hsame] at hnone
        exact (hsome hnone).elim
  | dies addr =>
      obtain rfl := Option.some.inj h
      exact (hsome hnone).elim

/-- 待ち手の購読先は、その鍵の 1 つの確立役であり、結果もその確立役のものである。 -/
theorem waiter_establisher (hw : Brokered w) {i tx : Nat} {a : Attach κ T} (hi : w.attaches[i]? = some a)
    (hrole : a.role = .waiter tx) :
    ∃ e ∈ w.attaches, e.key = a.key ∧ e.role = .establisher tx ∧
      (∀ e' ∈ w.attaches, e'.role = .establisher tx → e' = e) ∧
      (∀ r, a.outcome = some r → e.outcome = some r) ∧
      ∀ r, e.outcome = some r → a.outcome = none →
        w.step (.waitForEstablish i) = some (w.setOutcome w.pool i a r) := by
  obtain ⟨⟨j, e, hj, hkey, he⟩, hval⟩ := hw.waiter i a tx hi hrole
  have hsent := (hw.establisher j e tx hj he).2.1
  refine ⟨e, List.mem_of_getElem? hj, hkey, he, ?_, ?_, ?_⟩
  · intro e' hmem he'
    obtain ⟨k, hk⟩ := List.getElem?_of_mem hmem
    obtain rfl := hw.distinct k j e' e tx hk hj he' he
    exact Option.some.inj (hk.symm.trans hj)
  · intro r hr
    exact hsent.symm.trans (hval r hr)
  · intro r hr hout
    have hready : waitForEstablish (w.pool.watch tx) = some r := by
      rw [waitForEstablish, hsent, hr]
    simp [World.step, hi, Attach.waiting?, hrole, hout, hready]

/-- 再利用に渡す値は生きていて、死んだと知らせた値ではない。 -/
theorem handed_alive (hw : Buried w) {key : κ} {v : Arc T}
    (h : (tryAttachWith w.pool key fun v => w.isAlive v.addr).2 = .ready v) :
    (key, v.addr) ∉ w.marked ∧ w.isAlive v.addr = true := by
  cases hmap : w.pool.map key with
  | none => simp [tryAttachWith, hmap] at h
  | some e =>
      obtain ⟨state, idle⟩ := e
      cases state with
      | connecting tx => simp [tryAttachWith, hmap] at h
      | dead => simp [tryAttachWith, hmap] at h
      | ready v' =>
          by_cases halive : w.isAlive v'.addr = true
          · obtain rfl : v' = v := by simpa [tryAttachWith, hmap, halive] using h
            exact ⟨fun hm => hw.gone key v'.addr v' hm (state?_of_map hmap) rfl, halive⟩
          · simp [tryAttachWith, hmap, halive] at h

theorem invariants_of_run {as : List (Action κ T)} (h : Run (Guarded Steps Counted) .start as w) :
    Balanced w ∧ Brokered w ∧ Buried w := by
  refine Run.invariant_of_guarded (I := fun w => Balanced w ∧ Brokered w ∧ Buried w) ?_ h
    ⟨balanced_start, brokered_start, buried_start⟩
  intro w a w' hw hs hc
  obtain ⟨hb, hbr, hbu⟩ := hw
  exact ⟨balanced_step hb hs hc, hbr.step hb hs, hbu.step hbr hs⟩

/-- アタッチの数が参照カウントの幅に収まる実行は、プールの規約を守る。 -/
theorem coherent_of_run {as : List (Action κ T)} (h : Run (Guarded Steps Counted) .start as w) :
    Coherent w := by
  obtain ⟨hb, hbr, hbu⟩ := invariants_of_run h
  constructor
  · exact fun key => ⟨establishing_le_one hbr key, connecting_iff hbr key⟩
  · exact hb
  · intro a w' key hs hsome hnone
    rw [← hb key]
    exact refcount_of_removed hbr hs hsome hnone
  · intro i a tx hi hrole
    exact waiter_establisher hbr hi hrole
  · intro key v hv
    exact handed_alive hbu hv

/-- 1 つの鍵を 2 つのタブが共有し、どちらも返した後に猶予が満了する実行。 -/
def sharedRun : List (Action Unit Nat) :=
  [.tryAttach (), .tryAttach (), .publishSuccess 0 7, .waitForEstablish 1, .markDeadIfSame 1, .tryAttach (),
    .release 0 30, .publishFailure 2 "refused", .release 1 30, .release 2 30, .idleExpired 0]

theorem shared_isSome : (World.start.exec sharedRun).isSome = true := by decide +kernel

theorem coherent_sharedRun : Coherent ((World.start.exec sharedRun).get shared_isSome) :=
  coherent_of_run (Run.guarded_of_foldlM (Option.some_get _).symm)

/-! ## 参照カウントの飽和 -/

theorem exists_run_attaches (key : κ) (n : Nat) :
    ∃ w : World κ T, Run Steps .start (List.replicate (n + 1) (.tryAttach key)) w ∧
      w.state? key = some (.connecting 0) ∧ w.refcount key = min (n + 1) (maxOf 32) ∧
      w.outstanding key = n + 1 := by
  induction n with
  | zero =>
      refine ⟨_, .single rfl, ?_, ?_, ?_⟩
      · simp [World.attach, tryAttachWith, World.start, Pool.new, Pool.connect, Pool.insert, World.state?]
      · simp [World.attach, tryAttachWith, World.start, Pool.new, Pool.connect, Pool.insert, World.refcount,
          IdleLedger.firstHolder, maxOf]
      · simp [World.attach, tryAttachWith, World.start, Pool.new, World.outstanding]
  | succ n ih =>
      obtain ⟨w, hrun, hst, hcount, hout⟩ := ih
      obtain ⟨idle, hmap⟩ := exists_map_of_state? hst
      replace hcount : idle.refcount = min (n + 1) (maxOf 32) := (refcount_of_map hmap).symm.trans hcount
      refine ⟨w.attach key (w.pool.insert key ⟨.connecting 0, (idle.apply .attached).1⟩) (.waiter 0), ?_, ?_,
        ?_, ?_⟩
      · rw [List.replicate_succ']
        refine hrun.append (.single ?_)
        simp [World.Steps, World.step, tryAttachWith, hmap]
      · simp [World.attach, Pool.insert, World.state?]
      · simp [World.attach, Pool.insert, World.refcount, IdleLedger.apply, hcount, satAdd_min_one]
      · simpa [World.attach, World.outstanding] using hout

/-- 返していないアタッチが 2 の 32 乗になると、参照カウントは実際の数より少ない。 -/
theorem exists_run_saturated :
    ∃ w : World Unit Unit, Run Steps .start (List.replicate (2 ^ 32) (.tryAttach ())) w ∧
      w.refcount () ≠ w.outstanding () := by
  obtain ⟨w, hrun, _, hcount, hout⟩ := exists_run_attaches (T := Unit) () (2 ^ 32 - 1)
  refine ⟨w, hrun, ?_⟩
  rw [hcount, hout]
  decide

end IsekaiTerminal.SshPool
