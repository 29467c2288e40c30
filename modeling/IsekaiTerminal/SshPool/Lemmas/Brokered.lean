import IsekaiTerminal.SshPool.Lemmas.Pool

/-!
# 確立役と待ち手の不変条件
-/

namespace IsekaiTerminal.SshPool

open Lib World

section

variable {κ T : Type} {w w' : World κ T}

/-- 確立中のエントリには公開の前の確立役が 1 つあり、待ち手はその確立役のチャネルを購読している。 -/
structure Brokered (w : World κ T) : Prop where
  connecting : ∀ key tx, w.state? key = some (.connecting tx) →
    ∃ (i : Nat) (a : Attach κ T), w.attaches[i]? = some a ∧ a.key = key ∧ a.role = .establisher tx ∧ a.outcome = none
  establisher : ∀ (i : Nat) (a : Attach κ T) tx, w.attaches[i]? = some a → a.role = .establisher tx →
    tx < w.pool.channels ∧ (w.pool.watch tx).value = a.outcome ∧
      (a.outcome = none → w.state? a.key = some (.connecting tx) ∧ a.released = false)
  distinct : ∀ (i j : Nat) (a b : Attach κ T) tx, w.attaches[i]? = some a → w.attaches[j]? = some b →
    a.role = .establisher tx → b.role = .establisher tx → i = j
  waiter : ∀ (i : Nat) (a : Attach κ T) tx, w.attaches[i]? = some a → a.role = .waiter tx →
    (∃ (j : Nat) (e : Attach κ T), w.attaches[j]? = some e ∧ e.key = a.key ∧ e.role = .establisher tx) ∧
      ∀ r, a.outcome = some r → (w.pool.watch tx).value = some r
  sent : ∀ tx, (w.pool.watch tx).closed = true → (w.pool.watch tx).value ≠ none

theorem brokered_start : Brokered (World.start : World κ T) := by
  constructor <;> simp [World.start, World.state?, Pool.new, Watch.new]

theorem state?_of_map {key : κ} {e : PoolEntry T} (h : w.pool.map key = some e) :
    w.state? key = some e.state := by
  rw [World.state?, h]
  rfl

theorem exists_map_of_state? {key : κ} {st : EntryState T} (h : w.state? key = some st) :
    ∃ idle, w.pool.map key = some ⟨st, idle⟩ := by
  obtain ⟨e, hmap, rfl⟩ := Option.map_eq_some_iff.mp h
  exact ⟨e.idle, hmap⟩

namespace Brokered

/-- 確立中かどうかとチャネルとアタッチが同じなら、成り立ったままである。 -/
theorem of_state (hw : Brokered w)
    (hstate : ∀ key tx, w'.state? key = some (.connecting tx) ↔ w.state? key = some (.connecting tx))
    (hwatch : w'.pool.watch = w.pool.watch) (hchannels : w'.pool.channels = w.pool.channels)
    (hatt : w'.attaches = w.attaches) : Brokered w' := by
  obtain ⟨hconn, hest, hdist, hwait, hsent⟩ := hw
  constructor
  · intro key tx h
    rw [hatt]
    exact hconn key tx ((hstate key tx).mp h)
  · intro i a tx hi hrole
    rw [hatt] at hi
    obtain ⟨hlt, hval, hnone⟩ := hest i a tx hi hrole
    refine ⟨by rwa [hchannels], by rwa [hwatch], fun hout => ?_⟩
    exact ⟨(hstate _ _).mpr (hnone hout).1, (hnone hout).2⟩
  · rw [hatt]
    exact hdist
  · rw [hatt, hwatch]
    exact hwait
  · rw [hwatch]
    exact hsent

/-- 確立役でないアタッチを加える。 -/
theorem concat (hw : Brokered w) {a : Attach κ T} (hatt : w'.attaches = w.attaches ++ [a])
    (hstate : w'.state? = w.state?) (hwatch : w'.pool.watch = w.pool.watch)
    (hchannels : w'.pool.channels = w.pool.channels) (hrole : ∀ tx, a.role ≠ .establisher tx)
    (hwait : ∀ tx, a.role = .waiter tx → w.state? a.key = some (.connecting tx) ∧ a.outcome = none) :
    Brokered w' := by
  have hkeep (i : Nat) (b : Attach κ T) (hi : w.attaches[i]? = some b) : w'.attaches[i]? = some b := by
    rw [hatt]
    exact getElem?_concat_of_some hi
  have hold (i : Nat) (b : Attach κ T) (tx : Nat) (hi : w'.attaches[i]? = some b)
      (hb : b.role = .establisher tx) : w.attaches[i]? = some b := by
    rw [hatt] at hi
    rcases getElem?_concat_cases hi with hi | ⟨_, rfl⟩
    · exact hi
    · exact (hrole tx hb).elim
  constructor
  · intro key tx h
    rw [hstate] at h
    obtain ⟨i, b, hi, hb⟩ := hw.connecting key tx h
    exact ⟨i, b, hkeep i b hi, hb⟩
  · intro i b tx hi hb
    rw [hchannels, hwatch, hstate]
    exact hw.establisher i b tx (hold i b tx hi hb) hb
  · intro i j b c tx hi hj hb hc
    exact hw.distinct i j b c tx (hold i b tx hi hb) (hold j c tx hj hc) hb hc
  · intro i b tx hi hb
    rw [hatt] at hi
    rw [hwatch]
    rcases getElem?_concat_cases hi with hi | ⟨_, rfl⟩
    · obtain ⟨⟨j, e, hj, he⟩, hval⟩ := hw.waiter i b tx hi hb
      exact ⟨⟨j, e, hkeep j e hj, he⟩, hval⟩
    · obtain ⟨hconn, hout⟩ := hwait tx hb
      obtain ⟨j, e, hj, hkey, he, _⟩ := hw.connecting _ tx hconn
      exact ⟨⟨j, e, hkeep j e hj, hkey, he⟩, by simp [hout]⟩
  · rw [hwatch]
    exact hw.sent

/-- アタッチ `i` の役割と鍵を変えずに書き換える。公開の前の確立役は書き換えない。 -/
theorem overwrite (hw : Brokered w) {i : Nat} {a b : Attach κ T} (hi : w.attaches[i]? = some a)
    (hkey : b.key = a.key) (hrole : b.role = a.role)
    (hest : ∀ tx, a.role = .establisher tx → a.outcome ≠ none ∧ b.outcome = a.outcome)
    (hwait : ∀ tx r, a.role = .waiter tx → b.outcome = some r → (w.pool.watch tx).value = some r)
    (hpool : w'.pool.watch = w.pool.watch) (hchannels : w'.pool.channels = w.pool.channels)
    (hstate : w'.state? = w.state?) (hatt : w'.attaches = w.attaches.set i b) : Brokered w' := by
  -- 役割と鍵の列は、書き換えの前後で同じである。
  have hcases (j : Nat) (c : Attach κ T) (hj : w'.attaches[j]? = some c) :
      j = i ∧ c = b ∨ j ≠ i ∧ w.attaches[j]? = some c := by
    rw [hatt] at hj
    exact getElem?_set_cases hj
  have hsame (j : Nat) (c : Attach κ T) (hj : w'.attaches[j]? = some c) :
      ∃ c', w.attaches[j]? = some c' ∧ c'.role = c.role ∧ c'.key = c.key := by
    rcases hcases j c hj with ⟨rfl, rfl⟩ | ⟨_, hj⟩
    · exact ⟨a, hi, hrole.symm, hkey.symm⟩
    · exact ⟨c, hj, rfl, rfl⟩
  have hkeep (j : Nat) (c : Attach κ T) (hj : w.attaches[j]? = some c) :
      ∃ c', w'.attaches[j]? = some c' ∧ c'.role = c.role ∧ c'.key = c.key := by
    rw [hatt]
    by_cases hij : j = i
    · subst hij
      obtain rfl := Option.some.inj (hi.symm.trans hj)
      exact ⟨b, getElem?_set_self_of_some hi, hrole, hkey⟩
    · exact ⟨c, (List.getElem?_set_ne (Ne.symm hij)).trans hj, rfl, rfl⟩
  constructor
  · intro key tx h
    rw [hstate] at h
    obtain ⟨j, c, hj, hckey, hcrole, hout⟩ := hw.connecting key tx h
    have hij : j ≠ i := by
      rintro rfl
      obtain rfl := Option.some.inj (hi.symm.trans hj)
      exact (hest tx hcrole).1 hout
    refine ⟨j, c, ?_, hckey, hcrole, hout⟩
    rw [hatt, List.getElem?_set_ne (Ne.symm hij)]
    exact hj
  · intro j c tx hj hc
    rw [hpool, hchannels, hstate]
    rcases hcases j c hj with ⟨rfl, rfl⟩ | ⟨_, hj⟩
    · obtain ⟨hlt, hval, _⟩ := hw.establisher j a tx hi (hrole ▸ hc)
      obtain ⟨hne, hout⟩ := hest tx (hrole ▸ hc)
      exact ⟨hlt, hval.trans hout.symm, fun hnone => (hne (hout ▸ hnone)).elim⟩
    · exact hw.establisher j c tx hj hc
  · intro j k c d tx hj hk hc hd
    obtain ⟨c', hj, hcr, _⟩ := hsame j c hj
    obtain ⟨d', hk, hdr, _⟩ := hsame k d hk
    exact hw.distinct j k c' d' tx hj hk (hcr.trans hc) (hdr.trans hd)
  · intro j c tx hj hc
    obtain ⟨c', hj', hcr, hck⟩ := hsame j c hj
    obtain ⟨⟨k, e, hk, hek, her⟩, hval⟩ := hw.waiter j c' tx hj' (hcr.trans hc)
    obtain ⟨e', hk', her', hek'⟩ := hkeep k e hk
    refine ⟨⟨k, e', hk', hek'.trans (hek.trans hck), her'.trans her⟩, fun r hr => ?_⟩
    rw [hpool]
    rcases hcases j c hj with ⟨rfl, rfl⟩ | ⟨_, hj⟩
    · exact hwait tx r (hrole ▸ hc) hr
    · obtain rfl := Option.some.inj (hj'.symm.trans hj)
      exact hval r hr
  · rw [hpool]
    exact hw.sent

end Brokered

variable [DecidableEq κ]

theorem state?_of_update {v : World κ T} {k : κ} {e : Option (PoolEntry T)}
    (h : v.pool.map = Function.update w.pool.map k e) (key : κ) :
    v.state? key = if key = k then e.map PoolEntry.state else w.state? key := by
  rw [World.state?, h, Function.update_apply]
  split <;> rfl

/-- 同じ状態のエントリへの差し替えでは、どの鍵の状態も変わらない。 -/
theorem state?_of_same {key : κ} {st : EntryState T} {idle : IdleLedger} (hst : w.state? key = some st)
    (h : w'.pool.map = Function.update w.pool.map key (some ⟨st, idle⟩)) : w'.state? = w.state? := by
  funext key'
  rw [state?_of_update h]
  split
  · rename_i heq
    rw [heq, hst]
    rfl
  · rfl

theorem state?_of_release {v : World κ T} {k : κ} {idleGrace : Nat} (h : v.pool = (releaseStep w.pool k idleGrace).1) :
    v.state? = w.state? := by
  rw [releaseStep_fst] at h
  cases hmap : w.pool.map k with
  | none =>
      rw [hmap] at h
      funext key
      rw [World.state?, h]
      rfl
  | some e =>
      rw [hmap] at h
      exact state?_of_same (state?_of_map hmap) (by rw [h]; rfl)

namespace Brokered

/-- 新しいチャネルの確立役を加える。 -/
theorem connect (hw : Brokered w) {key : κ} {idle : IdleLedger}
    (hidle : ∀ tx, w.state? key ≠ some (.connecting tx)) :
    Brokered { w with
      pool := w.pool.connect key idle
      attaches := w.attaches ++ [⟨key, .establisher w.pool.channels, none, false⟩] } := by
  have hstate := state?_of_update (w := w) (v := { w with
    pool := w.pool.connect key idle
    attaches := w.attaches ++ [⟨key, .establisher w.pool.channels, none, false⟩] })
    (k := key) (e := some ⟨.connecting w.pool.channels, idle⟩) rfl
  have hfresh (i : Nat) (a : Attach κ T) (hi : w.attaches[i]? = some a) :
      a.role ≠ .establisher w.pool.channels := by
    intro ha
    exact (hw.establisher i a _ hi ha).1.false
  have hwatch (tx : Nat) (h : tx ≠ w.pool.channels) :
      (w.pool.connect key idle).watch tx = w.pool.watch tx := Function.update_of_ne h _ _
  constructor
  · intro key' tx h
    rw [hstate] at h
    split at h
    · rename_i heq
      obtain rfl : w.pool.channels = tx := by simpa using h
      exact ⟨_, _, List.getElem?_concat_length, heq.symm, rfl, rfl⟩
    · obtain ⟨i, a, hi, ha⟩ := hw.connecting key' tx h
      exact ⟨i, a, getElem?_concat_of_some hi, ha⟩
  · intro i a tx hi ha
    rw [hstate]
    rcases getElem?_concat_cases hi with hi | ⟨_, rfl⟩
    · have hne : tx ≠ w.pool.channels := fun h => hfresh i a hi (h ▸ ha)
      obtain ⟨hlt, hval, hnone⟩ := hw.establisher i a tx hi ha
      refine ⟨Nat.lt_succ_of_lt hlt, (hwatch tx hne).symm ▸ hval, fun hout => ⟨?_, (hnone hout).2⟩⟩
      have hkey : a.key ≠ key := fun heq => hidle tx (heq ▸ (hnone hout).1)
      rw [if_neg hkey]
      exact (hnone hout).1
    · obtain rfl : w.pool.channels = tx := by simpa using ha
      refine ⟨Nat.lt_succ_self _, ?_, ?_⟩
      · simp [Pool.connect, Watch.new]
      · simp
  · intro i j a b tx hi hj ha hb
    rcases getElem?_concat_cases hi with hi | ⟨hlen, rfl⟩
    · rcases getElem?_concat_cases hj with hj | ⟨_, rfl⟩
      · exact hw.distinct i j a b tx hi hj ha hb
      · obtain rfl : w.pool.channels = tx := by simpa using hb
        exact (hfresh i a hi ha).elim
    · rcases getElem?_concat_cases hj with hj | ⟨hlen', rfl⟩
      · obtain rfl : w.pool.channels = tx := by simpa using ha
        exact (hfresh j b hj hb).elim
      · exact hlen.trans hlen'.symm
  · intro i a tx hi ha
    rcases getElem?_concat_cases hi with hi | ⟨_, rfl⟩
    · obtain ⟨⟨j, e, hj, hkey, he⟩, hval⟩ := hw.waiter i a tx hi ha
      have hne : tx ≠ w.pool.channels := fun h => hfresh j e hj (h ▸ he)
      refine ⟨⟨j, e, getElem?_concat_of_some hj, hkey, he⟩, fun r hr => ?_⟩
      rw [hwatch tx hne]
      exact hval r hr
    · cases ha
  · intro tx hclosed
    by_cases htx : tx = w.pool.channels
    · subst htx
      simp [Pool.connect, Watch.new] at hclosed
    · rw [hwatch tx htx] at hclosed ⊢
      exact hw.sent tx hclosed

/-- 確立役 `i` が結果を公開する。 -/
theorem publish (hw : Brokered w) {i tx : Nat} {a : Attach κ T} {p : Pool κ T} {r : Established T}
    {state : EntryState T} (hi : w.attaches[i]? = some a) (hrole : a.role = .establisher tx)
    (hout : a.outcome = none) (hstate : ∀ tx, state ≠ .connecting tx) (hmap : p.map = w.pool.map)
    (hwatch : p.watch = w.pool.watch) (hchannels : p.channels = w.pool.channels) :
    Brokered (w.setOutcome (SshPool.publish p a.key r state) i a r) := by
  obtain ⟨hlt, _, hnone⟩ := hw.establisher i a tx hi hrole
  obtain ⟨idle, hentry⟩ := exists_map_of_state? (hnone hout).1
  rw [publish_connecting (s := idle) r state (hmap ▸ hentry), hmap, hwatch, hchannels]
  have hstate' := state?_of_update (w := w) (v := w.setOutcome
    ⟨Function.update w.pool.map a.key (some ⟨state, idle⟩), Function.update w.pool.watch tx ⟨some r, true⟩,
      w.pool.channels, p.arcs⟩ i a r) (k := a.key) (e := some ⟨state, idle⟩) rfl
  have hother (j : Nat) (b : Attach κ T) (tx' : Nat) (hj : w.attaches[j]? = some b)
      (hb : b.role = .establisher tx') (hij : j ≠ i) : tx' ≠ tx := by
    rintro rfl
    exact hij (hw.distinct j i b a tx' hj hi hb hrole)
  constructor
  · intro key tx' h
    rw [hstate'] at h
    split at h
    · exact (hstate tx' (Option.some.inj h)).elim
    · rename_i hkey
      obtain ⟨j, b, hj, hbkey, hb⟩ := hw.connecting key tx' h
      have hij : j ≠ i := by
        rintro rfl
        obtain rfl := Option.some.inj (hi.symm.trans hj)
        exact hkey hbkey.symm
      exact ⟨j, b, (List.getElem?_set_ne (Ne.symm hij)).trans hj, hbkey, hb⟩
  · intro j b tx' hj hb
    rw [hstate']
    rcases getElem?_set_cases hj with ⟨rfl, rfl⟩ | ⟨hij, hj⟩
    · obtain rfl : tx = tx' := by simpa [hrole] using hb
      simp [World.setOutcome, hlt]
    · obtain ⟨hlt', hval, hnone'⟩ := hw.establisher j b tx' hj hb
      have hne : tx' ≠ tx := hother j b tx' hj hb hij
      refine ⟨hlt', ?_, fun hbout => ⟨?_, (hnone' hbout).2⟩⟩
      · simpa [World.setOutcome, Function.update_of_ne hne] using hval
      · -- 同じ鍵で公開の前の確立役は `i` だけである。
        have hkey : b.key ≠ a.key := by
          intro hkey
          have hconn := (hnone' hbout).1
          rw [hkey, (hnone hout).1] at hconn
          simp only [Option.some.injEq, EntryState.connecting.injEq] at hconn
          exact hne hconn.symm
        rw [if_neg hkey]
        exact (hnone' hbout).1
  · intro j k b c tx' hj hk hb hc
    have hold (j : Nat) (b : Attach κ T)
        (hj : (w.attaches.set i { a with outcome := some r })[j]? = some b) :
        ∃ b', w.attaches[j]? = some b' ∧ b'.role = b.role := by
      rcases getElem?_set_cases hj with ⟨rfl, rfl⟩ | ⟨_, hj⟩
      · exact ⟨a, hi, rfl⟩
      · exact ⟨b, hj, rfl⟩
    obtain ⟨b', hj, hbr⟩ := hold j b hj
    obtain ⟨c', hk, hcr⟩ := hold k c hk
    exact hw.distinct j k b' c' tx' hj hk (hbr.trans hb) (hcr.trans hc)
  · intro j b tx' hj hb
    rcases getElem?_set_cases hj with ⟨rfl, rfl⟩ | ⟨_, hj⟩
    · simp [hrole] at hb
    · obtain ⟨⟨k, e, hk, hek, her⟩, hval⟩ := hw.waiter j b tx' hj hb
      constructor
      · by_cases hik : k = i
        · subst hik
          obtain rfl := Option.some.inj (hi.symm.trans hk)
          exact ⟨k, { a with outcome := some r }, getElem?_set_self_of_some hi, hek, her⟩
        · exact ⟨k, e, (List.getElem?_set_ne (Ne.symm hik)).trans hk, hek, her⟩
      · intro r' hr'
        -- 受け取った待ち手のチャネルには、既に結果がある。
        have hne : tx' ≠ tx := by
          rintro rfl
          have hsome := hval r' hr'
          rw [(hw.establisher i a tx' hi hrole).2.1, hout] at hsome
          cases hsome
        simpa [World.setOutcome, Function.update_of_ne hne] using hval r' hr'
  · intro tx' hclosed
    by_cases htx : tx' = tx
    · subst htx
      simp [World.setOutcome]
    · simp only [World.setOutcome, Function.update_of_ne htx] at hclosed ⊢
      exact hw.sent tx' hclosed

/-- 参照カウントが 0 のエントリには確立役がいないので、除いてよい。 -/
theorem remove (hw : Brokered w) (hb : Balanced w) {key : κ} {e : PoolEntry T} {timers : List (PoolEffect κ)}
    (hmap : w.pool.map key = some e) (hzero : e.idle.refcount = 0) :
    Brokered { w with pool := w.pool.remove key e, timers } := by
  have hconn (tx : Nat) : w.state? key ≠ some (.connecting tx) := by
    intro h
    obtain ⟨i, a, hi, hkey, hrole, hout⟩ := hw.connecting key tx h
    have hrel := ((hw.establisher i a tx hi hrole).2.2 hout).2
    have hpos : 0 < w.outstanding key := countP_pos_of_getElem? hi (by simp [hkey, hrel])
    rw [← hb key, refcount_of_map hmap] at hpos
    omega
  have hst (tx : Nat) : e.state ≠ .connecting tx := fun h => hconn tx (by rw [state?_of_map hmap, h])
  have hremove : w.pool.remove key e = { w.pool with map := Function.update w.pool.map key none } := by
    cases hs : e.state with
    | connecting tx => exact (hst tx hs).elim
    | ready v => simp [Pool.remove, Pool.dropState, hs]
    | dead => simp [Pool.remove, Pool.dropState, hs]
  rw [hremove]
  refine hw.of_state (fun key' tx => ?_) rfl rfl rfl
  rw [state?_of_update (w := w) (k := key) (e := none) rfl]
  split
  · rename_i heq
    subst heq
    simpa using hconn tx
  · rfl

theorem step (hw : Brokered w) (hb : Balanced w) {a : Action κ T} (h : w.Steps a w') : Brokered w' := by
  cases a with
  | tryAttach key =>
      obtain ⟨idle, _, ⟨hidle, rfl⟩ | ⟨tx, hst, rfl⟩ | ⟨v, hst, _, rfl⟩⟩ := steps_tryAttach h
      · exact hw.connect hidle
      · refine hw.concat rfl (state?_of_same hst rfl) rfl rfl (by simp) ?_
        intro tx' htx
        simp only [Role.waiter.injEq] at htx
        exact ⟨htx ▸ hst, rfl⟩
      · exact hw.concat rfl (state?_of_same hst rfl) rfl rfl (by simp) (by simp)
  | publishSuccess i value =>
      obtain ⟨a, tx, hi, hrole, hout, rfl⟩ := steps_publishSuccess h
      exact hw.publish hi hrole hout (by simp) rfl rfl rfl
  | publishFailure i message =>
      obtain ⟨a, tx, hi, hrole, hout, rfl⟩ := steps_publishFailure h
      exact hw.publish hi hrole hout (by simp) rfl rfl rfl
  | waitForEstablish i =>
      obtain ⟨a, rx, r, hi, hrole, _, hr, rfl⟩ := steps_waitForEstablish h
      refine hw.overwrite (b := { a with outcome := some r }) hi rfl rfl ?_ ?_ rfl rfl rfl rfl
      · intro tx htx
        rw [hrole] at htx
        cases htx
      · intro tx r' htx hr'
        obtain rfl : rx = tx := by simpa [hrole] using htx
        obtain rfl : r = r' := by simpa using hr'
        cases hval : (w.pool.watch rx).value with
        | some r' => simpa [waitForEstablish, hval] using hr
        | none =>
            cases hclosed : (w.pool.watch rx).closed with
            | true => exact (hw.sent rx hclosed hval).elim
            | false => simp [waitForEstablish, hval, hclosed] at hr
  | release i idleGrace =>
      obtain ⟨a, timers, hi, hout, _, rfl⟩ := steps_release h
      obtain ⟨hwatch, hchannels, _⟩ := releaseStep_kept w.pool a.key idleGrace
      refine hw.overwrite (b := { a with released := true }) hi rfl rfl (fun _ _ => ⟨hout, rfl⟩) ?_ hwatch
        hchannels (state?_of_release rfl) rfl
      intro tx r hrole hr
      exact (hw.waiter i a tx hi hrole).2 r hr
  | idleExpired j =>
      obtain ⟨timers, rfl | ⟨key, e, hmap, hzero, rfl⟩⟩ := steps_idleExpired h
      · exact hw.of_state (fun _ _ => Iff.rfl) rfl rfl rfl
      · exact hw.remove hb hmap hzero
  | markDeadIfSame i =>
      obtain ⟨a, v, _, _, rfl⟩ := steps_markDeadIfSame h
      rcases markDeadIfSame_cases w.pool a.key v with ⟨v', idle, hmap, _, hdead⟩ | ⟨_, hsame⟩
      · rw [hdead]
        refine hw.of_state (fun key tx => ?_) rfl rfl rfl
        rw [state?_of_update (w := w) (k := a.key) rfl]
        split
        · rename_i heq
          rw [heq, state?_of_map hmap]
          simp
        · rfl
      · rw [hsame]
        exact hw.of_state (fun _ _ => Iff.rfl) rfl rfl rfl
  | dies addr =>
      obtain rfl := Option.some.inj h
      exact hw.of_state (fun _ _ => Iff.rfl) rfl rfl rfl

end Brokered

end

/-!
## 死んだ値の不変条件
-/

section

variable {κ T : Type} {w w' : World κ T}

/-- 値 `v` を、プールの鍵、チャネル、アタッチのどれかが持つ。 -/
inductive Holds (w : World κ T) (v : Arc T) : Prop
  | ready (key : κ) (h : w.state? key = some (.ready v))
  | sent (tx : Nat) (h : (w.pool.watch tx).value = some (.ok v))
  | taken (i : Nat) (a : Attach κ T) (h : w.attaches[i]? = some a) (hv : a.outcome = some (.ok v))

/-- 死んだと知らせた値は、どの鍵でも再利用の対象に戻らない。新しい値の番地は、どの値とも違う。 -/
structure Buried (w : World κ T) : Prop where
  allocated : ∀ v, Holds w v → v.addr < w.pool.arcs
  marked : ∀ key addr, (key, addr) ∈ w.marked → addr < w.pool.arcs
  gone : ∀ key addr v, (key, addr) ∈ w.marked → w.state? key = some (.ready v) → v.addr ≠ addr

theorem buried_start : Buried (World.start : World κ T) := by
  constructor
  · intro v h
    cases h with
    | ready key h => simp [World.start, World.state?, Pool.new] at h
    | sent tx h => simp [World.start, Pool.new, Watch.new] at h
    | taken i a h => simp [World.start] at h
  · simp [World.start]
  · simp [World.start]

/-- 再利用できる値が増えない遷移。 -/
theorem Buried.of_holds (hw : Buried w) (hholds : ∀ v, Holds w' v → Holds w v)
    (hready : ∀ key v, w'.state? key = some (.ready v) → w.state? key = some (.ready v))
    (harcs : w'.pool.arcs = w.pool.arcs) (hmarked : w'.marked = w.marked) : Buried w' := by
  constructor
  · intro v hv
    rw [harcs]
    exact hw.allocated v (hholds v hv)
  · rw [harcs, hmarked]
    exact hw.marked
  · intro key addr v hm hst
    rw [hmarked] at hm
    exact hw.gone key addr v hm (hready key v hst)

theorem Holds.mono {v : Arc T} (h : Holds w' v)
    (hst : ∀ key, w'.state? key = some (.ready v) → w.state? key = some (.ready v))
    (hwatch : ∀ tx, (w'.pool.watch tx).value = some (.ok v) → (w.pool.watch tx).value = some (.ok v))
    (hatt : ∀ (i : Nat) (a : Attach κ T), w'.attaches[i]? = some a → w.attaches[i]? = some a) : Holds w v := by
  cases h with
  | ready key h => exact .ready key (hst key h)
  | sent tx h => exact .sent tx (hwatch tx h)
  | taken i a hi hv => exact .taken i a (hatt i a hi) hv

variable [DecidableEq κ]

/-- 確立役の公開の後に持つ値は、公開した値か、前から持つ値である。 -/
theorem holds_of_publish {p : Pool κ T} {i tx : Nat} {a : Attach κ T} {r : Established T}
    {state : EntryState T} {v : Arc T} (hi : w.attaches[i]? = some a)
    (hst : w.state? a.key = some (.connecting tx)) (hmap : p.map = w.pool.map) (hwatch : p.watch = w.pool.watch)
    (hstate : ∀ v, state = .ready v → r = .ok v)
    (h : Holds (w.setOutcome (publish p a.key r state) i a r) v) : r = .ok v ∨ Holds w v := by
  obtain ⟨idle, hentry⟩ := exists_map_of_state? hst
  rw [publish_connecting (s := idle) r state (hmap ▸ hentry), hmap, hwatch] at h
  cases h with
  | ready key h =>
      rw [state?_of_update (w := w) (k := a.key) rfl] at h
      split at h
      · exact Or.inl (hstate v (Option.some.inj h))
      · exact Or.inr (.ready key h)
  | sent tx' h =>
      simp only [World.setOutcome, Function.update_apply] at h
      split at h
      · exact Or.inl (Option.some.inj h)
      · exact Or.inr (.sent tx' h)
  | taken j b hj hv =>
      rcases getElem?_set_cases hj with ⟨rfl, rfl⟩ | ⟨_, hj⟩
      · exact Or.inl (Option.some.inj hv)
      · exact Or.inr (.taken j b hj hv)

theorem ready_of_publish {p : Pool κ T} {i tx : Nat} {a : Attach κ T} {r : Established T}
    {state : EntryState T} (hst : w.state? a.key = some (.connecting tx)) (hmap : p.map = w.pool.map)
    {key : κ} {v : Arc T} (h : (w.setOutcome (publish p a.key r state) i a r).state? key = some (.ready v)) :
    state = .ready v ∨ w.state? key = some (.ready v) := by
  obtain ⟨idle, hentry⟩ := exists_map_of_state? hst
  rw [publish_connecting (s := idle) r state (hmap ▸ hentry), hmap,
    state?_of_update (w := w) (k := a.key) rfl] at h
  split at h
  · exact Or.inl (Option.some.inj h)
  · exact Or.inr h

/-- アタッチを加えた後に持つ値は、前から持つ値である。 -/
theorem Buried.concat (hw : Buried w) {k : κ} {e : PoolEntry T} {a : Attach κ T}
    (hmap : w'.pool.map = Function.update w.pool.map k (some e))
    (hwatch : ∀ tx, (w'.pool.watch tx).value = (w.pool.watch tx).value ∨ (w'.pool.watch tx).value = none)
    (hatt : w'.attaches = w.attaches ++ [a]) (harcs : w'.pool.arcs = w.pool.arcs)
    (hmarked : w'.marked = w.marked) (hready : ∀ v, e.state = .ready v → w.state? k = some (.ready v))
    (hout : ∀ v, a.outcome = some (.ok v) → w.state? k = some (.ready v)) : Buried w' := by
  have hold (key' : κ) (v : Arc T) (h : w'.state? key' = some (.ready v)) :
      w.state? key' = some (.ready v) := by
    rw [state?_of_update hmap] at h
    split at h
    · rename_i heq
      exact heq ▸ hready v (Option.some.inj h)
    · exact h
  refine hw.of_holds (fun v hv => ?_) hold harcs hmarked
  cases hv with
  | ready key' h => exact .ready key' (hold key' v h)
  | sent tx h =>
      rcases hwatch tx with heq | heq
      · exact .sent tx (heq ▸ h)
      · rw [heq] at h
        cases h
  | taken j b hj hv =>
      rw [hatt] at hj
      rcases getElem?_concat_cases hj with hj | ⟨_, rfl⟩
      · exact .taken j b hj hv
      · exact .ready k (hout v hv)

/-- 知らせた値を持つエントリは、知らせの後はその値を持たない。 -/
theorem Buried.markDead (hw : Buried w) {key : κ} {v : Arc T} (hv : v.addr < w.pool.arcs) :
    Buried { w with pool := markDeadIfSame w.pool key v, marked := (key, v.addr) :: w.marked } := by
  have hcases := markDeadIfSame_cases w.pool key v
  have hkept : (markDeadIfSame w.pool key v).watch = w.pool.watch ∧
      (markDeadIfSame w.pool key v).arcs = w.pool.arcs := by
    rcases hcases with ⟨_, _, _, _, hdead⟩ | ⟨_, hsame⟩
    · rw [hdead]
      exact ⟨rfl, rfl⟩
    · rw [hsame]
      exact ⟨rfl, rfl⟩
  have hsub (key' : κ) (v' : Arc T)
      (h : World.state? { w with pool := markDeadIfSame w.pool key v, marked := (key, v.addr) :: w.marked }
        key' = some (.ready v')) :
      w.state? key' = some (.ready v') ∧ (key' = key → v'.addr ≠ v.addr) := by
    rcases hcases with ⟨_, idle, _, _, hdead⟩ | ⟨hne, hsame⟩
    · rw [hdead, state?_of_update (w := w) (k := key) rfl] at h
      split at h
      · cases h
      · rename_i hkey
        exact ⟨h, fun heq => (hkey heq).elim⟩
    · rw [hsame] at h
      refine ⟨h, ?_⟩
      rintro rfl
      obtain ⟨idle, hmap⟩ := exists_map_of_state? h
      exact hne v' idle hmap
  constructor
  · intro v' hv'
    refine hkept.2.symm ▸ hw.allocated v' (hv'.mono (fun key' h => (hsub key' v' h).1) ?_ fun _ _ h => h)
    intro tx h
    exact hkept.1 ▸ h
  · intro key' addr hm
    rw [show (markDeadIfSame w.pool key v).arcs = w.pool.arcs from hkept.2]
    rcases List.mem_cons.mp hm with heq | hm
    · cases heq
      exact hv
    · exact hw.marked key' addr hm
  · intro key' addr v' hm h
    rcases List.mem_cons.mp hm with heq | hm
    · cases heq
      exact (hsub key v' h).2 rfl
    · exact hw.gone key' addr v' hm (hsub key' v' h).1

theorem Buried.step (hw : Buried w) (hb : Brokered w) {a : Action κ T} (h : w.Steps a w') : Buried w' := by
  cases a with
  | tryAttach key =>
      obtain ⟨idle, _, ⟨hidle, rfl⟩ | ⟨tx, hst, rfl⟩ | ⟨v, hst, _, rfl⟩⟩ := steps_tryAttach h
      · refine hw.concat (k := key) rfl (fun tx => ?_) rfl rfl rfl (by simp) (by simp)
        simp only [Pool.connect, Function.update_apply]
        split
        · exact Or.inr rfl
        · exact Or.inl rfl
      · exact hw.concat (k := key) rfl (fun _ => Or.inl rfl) rfl rfl rfl (by simp) (by simp)
      · refine hw.concat (k := key) rfl (fun _ => Or.inl rfl) rfl rfl rfl ?_ ?_
        · intro v' hv'
          exact hst.trans (congrArg some hv')
        · intro v' hv'
          obtain rfl : v = v' := by simpa using hv'
          exact hst
  | publishSuccess i value =>
      obtain ⟨a, tx, hi, hrole, hout, rfl⟩ := steps_publishSuccess h
      have hst := ((hb.establisher i a tx hi hrole).2.2 hout).1
      have harcs (state : EntryState T) (r : Established T) :
          (publish w.pool.newArc a.key r state).arcs = w.pool.arcs + 1 := by
        obtain ⟨idle, hentry⟩ := exists_map_of_state? hst
        rw [publish_connecting (p := w.pool.newArc) (s := idle) r state hentry, Pool.newArc]
      constructor
      · intro v hv
        simp only [World.setOutcome, harcs]
        rcases holds_of_publish (p := w.pool.newArc) hi hst rfl rfl (by simp) hv with hv | hv
        · obtain rfl : _ = v := by simpa using hv
          exact Nat.lt_succ_self _
        · exact Nat.lt_succ_of_lt (hw.allocated v hv)
      · intro key addr hm
        simp only [World.setOutcome, harcs]
        exact Nat.lt_succ_of_lt (hw.marked key addr hm)
      · intro key addr v hm h
        rcases ready_of_publish (p := w.pool.newArc) hst rfl h with hv | hv
        · -- 新しい番地は、知らせのあったどの番地とも違う。
          obtain rfl : _ = v := by simpa using hv
          exact (hw.marked key addr hm).ne'
        · exact hw.gone key addr v hm hv
  | publishFailure i message =>
      obtain ⟨a, tx, hi, hrole, hout, rfl⟩ := steps_publishFailure h
      have hst := ((hb.establisher i a tx hi hrole).2.2 hout).1
      refine hw.of_holds (fun v hv => ?_) (fun key v hv => ?_) ?_ rfl
      · rcases holds_of_publish hi hst rfl rfl (by simp) hv with hv | hv
        · cases hv
        · exact hv
      · rcases ready_of_publish hst rfl hv with hv | hv
        · cases hv
        · exact hv
      · obtain ⟨idle, hentry⟩ := exists_map_of_state? hst
        simp only [World.setOutcome, publish_connecting (s := idle) (.error message) .dead hentry]
  | waitForEstablish i =>
      obtain ⟨a, rx, r, hi, hrole, hout, hr, rfl⟩ := steps_waitForEstablish h
      refine hw.of_holds (fun v hv => ?_) (fun _ _ hv => hv) rfl rfl
      cases hv with
      | ready key h => exact .ready key h
      | sent tx h => exact .sent tx h
      | taken j b hj hv =>
          rcases getElem?_set_cases hj with ⟨rfl, rfl⟩ | ⟨_, hj⟩
          · refine .sent rx ?_
            obtain rfl := Option.some.inj hv
            cases hval : (w.pool.watch rx).value with
            | some r' => simpa [waitForEstablish, hval] using hr
            | none => simp [waitForEstablish, hval] at hr
          · exact .taken j b hj hv
  | release i idleGrace =>
      obtain ⟨a, timers, hi, _, _, rfl⟩ := steps_release h
      obtain ⟨hwatch, _, harcs⟩ := releaseStep_kept w.pool a.key idleGrace
      have hstate := state?_of_release (w := w) (v := { w with
          pool := (releaseStep w.pool a.key idleGrace).1
          attaches := w.attaches.set i { a with released := true }
          timers }) rfl
      refine hw.of_holds (fun v hv => ?_) (fun key v hv => hstate ▸ hv) harcs rfl
      cases hv with
      | ready key h => exact .ready key (hstate ▸ h)
      | sent tx h => exact .sent tx (hwatch ▸ h)
      | taken j b hj hv =>
          rcases getElem?_set_cases hj with ⟨rfl, rfl⟩ | ⟨_, hj⟩
          · exact .taken j a hi hv
          · exact .taken j b hj hv
  | idleExpired j =>
      obtain ⟨timers, rfl | ⟨key, e, hmap, _, rfl⟩⟩ := steps_idleExpired h
      · exact hw.of_holds (fun v hv => hv.mono (fun _ h => h) (fun _ h => h) fun _ _ h => h) (fun _ _ h => h)
          rfl rfl
      · obtain ⟨hupdate, harcs, hwatch⟩ := remove_kept w.pool key e
        have hsub (key' : κ) (v : Arc T)
            (hv : World.state? { w with pool := w.pool.remove key e, timers } key' = some (.ready v)) :
            w.state? key' = some (.ready v) := by
          rw [state?_of_update (w := w) hupdate] at hv
          split at hv
          · cases hv
          · exact hv
        exact hw.of_holds (fun v hv => hv.mono (hsub · v) (fun tx h => (hwatch tx).symm.trans h) fun _ _ h => h)
          hsub harcs rfl
  | markDeadIfSame i =>
      obtain ⟨a, v, hi, hv, rfl⟩ := steps_markDeadIfSame h
      exact hw.markDead (hw.allocated v (.taken i a hi hv))
  | dies addr =>
      obtain rfl := Option.some.inj h
      exact hw.of_holds (fun v hv => hv.mono (fun _ h => h) (fun _ h => h) fun _ _ h => h) (fun _ _ h => h)
        rfl rfl

end

end IsekaiTerminal.SshPool
