import IsekaiTerminal.PathHealth.Tracker

/-!
# ヘルスチェックの履歴
-/

namespace IsekaiTerminal.PathHealth

open Lib PathHealthFsm

section

variable {lossy : Nat → Nat → Bool}

theorem verdicts_concat (prev : Option PathStats) (readings : List PathStats) (stats : PathStats) :
    verdicts lossy prev (readings ++ [stats]) =
      verdicts lossy prev readings ++ [judge lossy (readings.getLast?.or prev) stats] := by
  induction readings generalizing prev with
  | nil => rfl
  | cons s ss ih =>
      rw [List.cons_append, verdicts, verdicts, ih, List.cons_append]
      cases ss with
      | nil => rfl
      | cons s' ss =>
          obtain ⟨last, hlast⟩ := Option.isSome_iff_exists.mp (List.getLast?_isSome.mpr (List.cons_ne_nil s' ss))
          rw [List.getLast?_cons_cons, hlast, Option.some_or, Option.some_or]

theorem trailing_concat (p : Verdict → Bool) (readings : List PathStats) (stats : PathStats) :
    trailing lossy p (readings ++ [stats]) =
      if p (judge lossy readings.getLast? stats) then trailing lossy p readings + 1 else 0 := by
  rw [trailing, verdicts_concat, List.rtakeWhile_concat, Option.or_none]
  split
  · rw [List.length_append]
    rfl
  · rfl

/-- 無応答の読み取りは健全ではない。 -/
theorem not_healthy_of_zeroResponse {prev : Option PathStats} {stats : PathStats}
    (h : (judge lossy prev stats).zeroResponse = true) : (judge lossy prev stats).healthy = false := by
  simp only [judge] at h ⊢
  rw [h, Bool.not_true, Bool.and_false]

/-! ## 1 回の読み取り -/

section

variable (m : PathHealthFsm) (stats : PathStats)

theorem noteHealth_prevStats (healthy : Bool) (rtt : Nat) :
    (m.noteHealth healthy rtt).1.prevStats = m.prevStats := by
  cases healthy <;> simp [noteHealth] <;> split <;> rfl

theorem noteHealth_noResponse (healthy : Bool) (rtt : Nat) :
    (m.noteHealth healthy rtt).1.consecutiveNoResponse = m.consecutiveNoResponse := by
  cases healthy <;> simp [noteHealth] <;> split <;> rfl

theorem noteHealth_healthy (healthy : Bool) (rtt : Nat) :
    (m.noteHealth healthy rtt).1.consecutiveHealthy =
      if healthy then satAdd 32 m.consecutiveHealthy 1 else 0 := by
  cases healthy <;> simp [noteHealth] <;> split <;> rfl

/-- 健全でない読み取りは必ず格下げした状態にし、健全な読み取りは復帰するときだけ状態を変える。 -/
theorem noteHealth_cases (healthy : Bool) (rtt : Nat) :
    (healthy = false ∧ m.degraded = false ∧ (m.noteHealth healthy rtt).1.degraded = true ∧
      (m.noteHealth healthy rtt).2 = [.degradeUnhealthy rtt]) ∨
    (healthy = true ∧ m.degraded = true ∧ (m.noteHealth healthy rtt).1.degraded = false ∧
      2 ≤ satAdd 32 m.consecutiveHealthy 1 ∧ (m.noteHealth healthy rtt).2 = [.recover]) ∨
    ((healthy = false → m.degraded = true) ∧ (m.noteHealth healthy rtt).1.degraded = m.degraded ∧
      (m.noteHealth healthy rtt).2 = []) := by
  cases healthy with
  | false =>
      cases hd : m.degraded with
      | false => exact Or.inl (by simp [noteHealth, hd])
      | true => exact Or.inr (Or.inr (by simp [noteHealth, hd]))
  | true =>
      by_cases h : m.degraded = true ∧ satAdd 32 m.consecutiveHealthy 1 ≥ recoveryConsecutiveChecks
      · refine Or.inr (Or.inl ⟨rfl, h.1, ?_, h.2, ?_⟩)
        · simp [noteHealth, h]
        · simp [noteHealth, h]
      · refine Or.inr (Or.inr ⟨by simp, ?_, ?_⟩)
        · simp [noteHealth, h]
        · simp [noteHealth, h]

/-- 読み取りの後の、無応答の連続の数。 -/
def noResponseCount (zeroResponse : Bool) : Nat :=
  if zeroResponse then satAdd 32 m.consecutiveNoResponse 1 else 0

theorem noteResponse_eq (zeroResponse : Bool) :
    m.noteResponse zeroResponse =
      if noResponseConsecutiveChecks ≤ noResponseCount m zeroResponse then
        (⟨m.prevStats, m.consecutiveHealthy, noResponseCount m zeroResponse, true⟩,
          [.degradeZeroResponse (noResponseCount m zeroResponse)])
      else (⟨m.prevStats, m.consecutiveHealthy, noResponseCount m zeroResponse, m.degraded⟩, []) := by
  cases zeroResponse <;> simp [noteResponse, noResponseConsecutiveChecks, noResponseCount]

theorem noteResponse_kept (zeroResponse : Bool) :
    (m.noteResponse zeroResponse).1.prevStats = m.prevStats ∧
      (m.noteResponse zeroResponse).1.consecutiveHealthy = m.consecutiveHealthy ∧
      (m.noteResponse zeroResponse).1.consecutiveNoResponse = noResponseCount m zeroResponse := by
  rw [noteResponse_eq]
  split <;> simp

end

/-! ## 履歴 -/

/-- 状態機械の計数は、途切れずに続く判定の数である。無応答の続く間は格下げされている。 -/
structure Tracks (lossy : Nat → Nat → Bool) (readings : List PathStats) (m : PathHealthFsm) : Prop where
  prevStats : m.prevStats = readings.getLast?
  noResponse : m.consecutiveNoResponse = min (trailing lossy Verdict.zeroResponse readings) (maxOf 32)
  healthy : m.consecutiveHealthy = min (trailing lossy Verdict.healthy readings) (maxOf 32)
  down : 0 < trailing lossy Verdict.zeroResponse readings → m.degraded = true
  alternates : ∃ n, switches lossy readings = alternating n ∧ (m.degraded = true ↔ n % 2 = 1)

theorem switches_concat (readings : List PathStats) (stats : PathStats) :
    switches lossy (readings ++ [stats]) =
      switches lossy readings ++ (emitted lossy readings stats).filterMap switch? := by
  rw [switches, Reducer.outputs_concat, List.filterMap_append]
  rfl

/-- 1 回の読み取りの後の計数。 -/
theorem count_concat (p : Verdict → Bool) (readings : List PathStats) (stats : PathStats) {count : Nat}
    (h : count = min (trailing lossy p readings) (maxOf 32)) :
    (if p (judge lossy readings.getLast? stats) then satAdd 32 count 1 else 0) =
      min (trailing lossy p (readings ++ [stats])) (maxOf 32) := by
  rw [trailing_concat]
  split
  · rw [h, satAdd_min_one]
  · rw [Nat.zero_min]

theorem three_le_min {n : Nat} : noResponseConsecutiveChecks ≤ min n (maxOf 32) ↔ 3 ≤ n := by
  rw [le_min_iff]
  exact and_iff_left (by decide)

section

variable {readings : List PathStats} {m : PathHealthFsm} (stats : PathStats)

theorem noResponseCount_eq (hn : m.consecutiveNoResponse = min (trailing lossy Verdict.zeroResponse readings)
    (maxOf 32)) :
    noResponseCount m (judge lossy readings.getLast? stats).zeroResponse =
      min (trailing lossy Verdict.zeroResponse (readings ++ [stats])) (maxOf 32) :=
  count_concat Verdict.zeroResponse readings stats hn

/-- 3 回目以降の無応答では、既に格下げされている。 -/
theorem noteResponse_degraded (hn : m.consecutiveNoResponse =
      min (trailing lossy Verdict.zeroResponse readings) (maxOf 32))
    (hdown : 0 < trailing lossy Verdict.zeroResponse readings → m.degraded = true) :
    (m.noteResponse (judge lossy readings.getLast? stats).zeroResponse).1.degraded = m.degraded := by
  rw [noteResponse_eq]
  split
  · rename_i hle
    rw [noResponseCount_eq stats hn, three_le_min, trailing_concat] at hle
    have hpos : 0 < trailing lossy Verdict.zeroResponse readings := by
      split at hle <;> omega
    exact (hdown hpos).symm
  · rfl

theorem noteResponse_snd (hn : m.consecutiveNoResponse =
      min (trailing lossy Verdict.zeroResponse readings) (maxOf 32)) :
    (m.noteResponse (judge lossy readings.getLast? stats).zeroResponse).2 =
      if 3 ≤ trailing lossy Verdict.zeroResponse (readings ++ [stats]) then
        [.degradeZeroResponse (noResponseCount m (judge lossy readings.getLast? stats).zeroResponse)]
      else [] := by
  have hiff : noResponseConsecutiveChecks ≤
      noResponseCount m (judge lossy readings.getLast? stats).zeroResponse ↔
        3 ≤ trailing lossy Verdict.zeroResponse (readings ++ [stats]) := by
    rw [noResponseCount_eq stats hn, three_le_min]
  rw [noteResponse_eq]
  by_cases h : 3 ≤ trailing lossy Verdict.zeroResponse (readings ++ [stats])
  · rw [if_pos (hiff.mpr h), if_pos h]
  · rw [if_neg (hiff.not.mpr h), if_neg h]

end

/-! ## 1 回の読み取り -/

/-- 読み取りの前の状態から、1 回の読み取りが返す作用と、読み取りの後の状態を求める。 -/
theorem handleStats_eq {readings : List PathStats} {m : PathHealthFsm} (h : Tracks lossy readings m)
    (stats : PathStats) : ∃ m₁ : PathHealthFsm,
      m₁.degraded = m.degraded ∧ m₁.consecutiveHealthy = m.consecutiveHealthy ∧ m₁.prevStats = some stats ∧
      m₁.consecutiveNoResponse =
        min (trailing lossy Verdict.zeroResponse (readings ++ [stats])) (maxOf 32) ∧
      (m.handleStats lossy stats).1 =
        (m₁.noteHealth (judge lossy readings.getLast? stats).healthy stats.rtt).1 ∧
      ∃ n, (m.handleStats lossy stats).2 =
        (if 3 ≤ trailing lossy Verdict.zeroResponse (readings ++ [stats]) then
          [.degradeZeroResponse n] else []) ++
        (m₁.noteHealth (judge lossy readings.getLast? stats).healthy stats.rtt).2 := by
  obtain ⟨hprev, hhealthy, hcount⟩ := noteResponse_kept { m with prevStats := some stats }
    (judge lossy readings.getLast? stats).zeroResponse
  refine ⟨({ m with prevStats := some stats }.noteResponse
    (judge lossy readings.getLast? stats).zeroResponse).1, ?_, hhealthy, hprev, ?_, ?_, ?_⟩
  · exact noteResponse_degraded (m := { m with prevStats := some stats }) stats h.noResponse h.down
  · rw [hcount]
    exact noResponseCount_eq (m := { m with prevStats := some stats }) stats h.noResponse
  · rw [handleStats, h.prevStats]
  · have hsnd := noteResponse_snd (m := { m with prevStats := some stats }) stats h.noResponse
    refine ⟨noResponseCount { m with prevStats := some stats }
      (judge lossy readings.getLast? stats).zeroResponse, ?_⟩
    rw [handleStats, h.prevStats, hsnd]

theorem tracks_new : Tracks lossy [] .new :=
  ⟨rfl, by simp [trailing, verdicts, new], by simp [trailing, verdicts, new], by simp [trailing, verdicts],
    0, rfl, by simp [new]⟩

theorem tracks_concat {readings : List PathStats} (h : Tracks lossy readings (after lossy readings))
    (stats : PathStats) : Tracks lossy (readings ++ [stats]) (after lossy (readings ++ [stats])) := by
  have hafter : after lossy (readings ++ [stats]) = ((after lossy readings).handleStats lossy stats).1 :=
    Reducer.run_concat _ _ _
  obtain ⟨m₁, hdeg, hhealthy, hprev, hcount, hfst, n, hsnd⟩ := handleStats_eq h stats
  obtain ⟨k, halt, hodd⟩ := h.alternates
  have hswitch : (emitted lossy readings stats).filterMap switch? =
      (m₁.noteHealth (judge lossy readings.getLast? stats).healthy stats.rtt).2.filterMap switch? := by
    rw [emitted, hsnd, List.filterMap_append]
    split <;> rfl
  rw [hafter, hfst]
  have hcases := noteHealth_cases m₁ (judge lossy readings.getLast? stats).healthy stats.rtt
  refine ⟨?_, ?_, ?_, ?_, ?_⟩
  · rw [noteHealth_prevStats, hprev, List.getLast?_concat]
  · rw [noteHealth_noResponse, hcount]
  · rw [noteHealth_healthy, hhealthy]
    exact count_concat Verdict.healthy readings stats h.healthy
  · intro hpos
    -- 無応答の読み取りは健全ではないので、復帰しない。
    rw [trailing_concat] at hpos
    have hzero : (judge lossy readings.getLast? stats).zeroResponse = true := by
      by_contra hne
      rw [if_neg hne] at hpos
      exact hpos.false
    have hun := not_healthy_of_zeroResponse hzero
    rcases hcases with ⟨_, _, hdown, _⟩ | ⟨hok, _⟩ | ⟨hdown, hsame, _⟩
    · exact hdown
    · rw [hun] at hok
      cases hok
    · exact hsame.trans (hdown hun)
  · rw [switches_concat, hswitch, halt]
    rcases hcases with ⟨_, hup, hdown, hact⟩ | ⟨_, hdown, hup, _, hact⟩ | ⟨_, hsame, hact⟩
    · have heven : ¬ k % 2 = 1 := by rw [← hodd, ← hdeg, hup]; simp
      refine ⟨k + 1, ?_, ?_⟩
      · rw [hact, alternating, show (k % 2 == 0) = true by simp; omega]
        rfl
      · rw [hdown]
        simp
        omega
    · have hkodd : k % 2 = 1 := hodd.mp (hdeg.symm.trans hdown)
      refine ⟨k + 1, ?_, ?_⟩
      · rw [hact, alternating, show (k % 2 == 0) = false by simp; omega]
        rfl
      · rw [hup]
        simp
        omega
    · refine ⟨k, ?_, ?_⟩
      · rw [hact]
        exact List.append_nil _
      · rw [hsame, hdeg]
        exact hodd

theorem tracks_after (readings : List PathStats) : Tracks lossy readings (after lossy readings) := by
  induction readings using List.reverseRecOn with
  | nil => exact tracks_new
  | append_singleton readings stats ih => exact tracks_concat ih stats

/-! ## 作用 -/

theorem degradeZeroResponse_mem (readings : List PathStats) (stats : PathStats) :
    (∃ n, .degradeZeroResponse n ∈ emitted lossy readings stats) ↔
      3 ≤ trailing lossy Verdict.zeroResponse (readings ++ [stats]) := by
  obtain ⟨m₁, _, _, _, _, _, n, hsnd⟩ := handleStats_eq (tracks_after readings) stats
  have hno (k : Nat) : PathHealthAction.degradeZeroResponse k ∉
      (m₁.noteHealth (judge lossy readings.getLast? stats).healthy stats.rtt).2 := by
    rcases noteHealth_cases m₁ (judge lossy readings.getLast? stats).healthy stats.rtt with
      ⟨_, _, _, hact⟩ | ⟨_, _, _, _, hact⟩ | ⟨_, _, hact⟩ <;> simp [hact]
  rw [emitted, hsnd]
  split
  · rename_i hle
    exact iff_of_true ⟨n, by simp⟩ hle
  · rename_i hle
    exact iff_of_false (fun hex => hex.elim fun k hk => hno k (by simpa using hk)) hle

/-- 無応答による格下げの後は、必ず格下げされた状態である。 -/
theorem degraded_of_degradeZeroResponse {readings : List PathStats} {stats : PathStats} {n : Nat}
    (h : .degradeZeroResponse n ∈ emitted lossy readings stats) :
    (after lossy (readings ++ [stats])).degraded = true := by
  have hle := (degradeZeroResponse_mem readings stats).mp ⟨n, h⟩
  exact (tracks_after (readings ++ [stats])).down (by omega)

/-- 復帰は、最後の健全でない読み取りより後に、健全な読み取りが 2 回以上続いてから起きる。 -/
theorem healthy_of_recover {readings : List PathStats} {stats : PathStats}
    (h : .recover ∈ emitted lossy readings stats) :
    2 ≤ trailing lossy Verdict.healthy (readings ++ [stats]) := by
  have ht : Tracks lossy readings (after lossy readings) := tracks_after readings
  obtain ⟨m₁, _, hhealthy, _, _, _, n, hsnd⟩ := handleStats_eq ht stats
  have hmem : .recover ∈ (m₁.noteHealth (judge lossy readings.getLast? stats).healthy stats.rtt).2 := by
    rw [emitted, hsnd] at h
    split at h <;> simpa using h
  rcases noteHealth_cases m₁ (judge lossy readings.getLast? stats).healthy stats.rtt with
    ⟨_, _, _, hact⟩ | ⟨hok, _, _, htwo, _⟩ | ⟨_, _, hact⟩
  · simp [hact] at hmem
  · have hcount := count_concat Verdict.healthy readings stats ht.healthy
    rw [if_pos hok, ← hhealthy] at hcount
    rw [hcount] at htwo
    exact (le_min_iff.mp htwo).1
  · simp [hact] at hmem

end

/-!
## 通知の不変条件
-/

section

open World

variable {ℓ : Type} [DecidableEq ℓ] {lossy : Nat → Nat → Bool} {w w' : World ℓ} {t t' : Thread ℓ} {i : Nat}

/-! ## 書き込み -/

theorem insert_states (w : World ℓ) (label : ℓ) (state : PathState) :
    (w.insert label state).states = (label, state) :: w.states.filter fun s => s.1 ≠ label := by
  simp only [World.insert]
  split <;> rfl

theorem insert_episode (w : World ℓ) (label : ℓ) (state : PathState) :
    (w.insert label state).episode =
      if w.anyValidated && !(w.insert label state).anyValidated then w.episode + 1 else w.episode := by
  have hany : (w.insert label state).anyValidated =
      { w with states := (label, state) :: w.states.filter fun s => s.1 ≠ label }.anyValidated := by
    simp only [World.anyValidated, insert_states]
  rw [hany]
  simp only [World.insert]
  split <;> rfl

theorem insert_frame (w : World ℓ) (label : ℓ) (state : PathState) :
    w.insert label state =
      { w with states := (w.insert label state).states, episode := (w.insert label state).episode } := by
  simp only [World.insert]
  split <;> rfl

theorem anyValidated_insert_validated (w : World ℓ) (label : ℓ) :
    (w.insert label .validated).anyValidated = true := by
  simp [World.anyValidated, insert_states]

/-- Validated でない状態の書き込みは、Validated な path を増やさない。 -/
theorem anyValidated_insert_of_ne {label : ℓ} {state : PathState} (hne : state ≠ .validated)
    (h : w.anyValidated = false) : (w.insert label state).anyValidated = false := by
  rw [World.anyValidated, List.any_eq_false] at h
  rw [World.anyValidated, insert_states, List.any_cons, Bool.or_eq_false_iff, List.any_eq_false]
  refine ⟨by simpa using hne, fun s hs => h s (List.mem_filter.mp hs).1⟩

/-! ## スレッドの数 -/

omit [DecidableEq ℓ] in
theorem count_set {v : World ℓ} {u : Thread ℓ} {p : Pending ℓ → Bool} (hi : w.threads[i]? = some t)
    (ht : v.threads = w.threads.set i u) :
    v.count p + (t.pending.any p).toNat = w.count p + (u.pending.any p).toNat := by
  rw [World.count, World.count, ht]
  exact countP_set_add _ hi

omit [DecidableEq ℓ] in
theorem count_pos {p : Pending ℓ → Bool} {q : Pending ℓ} (hi : w.threads[i]? = some t)
    (hq : t.pending = some q) (hp : p q = true) : 0 < w.count p :=
  countP_pos_of_getElem? hi (by simpa [hq] using hp)

/-- 途中の呼び出しの数だけが、通知の不変条件に関わる。 -/
structure Inv (w : World ℓ) : Prop where
  checked : ∀ (i : Nat) (t : Thread ℓ) e, w.threads[i]? = some t → t.pending = some (.swap e) →
    w.anyValidated = false ∧ w.episode = e ∧ w.settling = 0
  raised : w.noViableNotified = true →
    w.anyValidated = false ∧ w.settling = 0 ∧ w.won.count w.episode = 1
  lowered : w.noViableNotified = false → w.anyValidated = false → w.settling = 0 →
    w.won.count w.episode = 0
  future : ∀ e, w.episode < e → w.won.count e = 0
  once : ∀ e, w.won.count e ≤ 1
  balance : ∀ e, w.sent.count e + w.inFlight e = w.won.count e
  completed : ∀ e ∈ w.completed, w.won.count e = 1
  unretracted : ∀ (i : Nat) (t : Thread ℓ) e, w.threads[i]? = some t → t.pending ≠ some (.retract e)

theorem inv_start : Inv (World.start : World ℓ) := by
  constructor <;> simp [World.start, World.inFlight, World.count]

/-- 途中の呼び出しを変えない遷移。 -/
theorem Inv.of_threads (hw : Inv w) (hi : w.threads[i]? = some t) (hpending : t'.pending = t.pending) :
    Inv { w with threads := w.threads.set i t' } := by
  have hcount (p : Pending ℓ → Bool) : World.count p { w with threads := w.threads.set i t' } = w.count p := by
    have := count_set (w := w) (v := { w with threads := w.threads.set i t' }) (p := p) hi rfl
    rw [hpending] at this
    omega
  have hold (j : Nat) (u : Thread ℓ) (hj : (w.threads.set i t')[j]? = some u) :
      ∃ u', w.threads[j]? = some u' ∧ u'.pending = u.pending := by
    rcases getElem?_set_cases hj with ⟨rfl, rfl⟩ | ⟨_, hj⟩
    · exact ⟨t, hi, hpending.symm⟩
    · exact ⟨u, hj, rfl⟩
  obtain ⟨hchecked, hraised, hlowered, hfuture, honce, hbalance, hcompleted, hunretracted⟩ := hw
  have hsettling : World.settling { w with threads := w.threads.set i t' } = w.settling := hcount _
  constructor
  · intro j u e hj hu
    obtain ⟨u', hj, hu'⟩ := hold j u hj
    rw [hsettling]
    exact hchecked j u' e hj (hu'.trans hu)
  · rw [hsettling]
    exact hraised
  · rw [hsettling]
    exact hlowered
  · exact hfuture
  · exact honce
  · intro e
    rw [show World.inFlight { w with threads := w.threads.set i t' } e = w.inFlight e from hcount _]
    exact hbalance e
  · exact hcompleted
  · intro j u e hj
    obtain ⟨u', hj, hu'⟩ := hold j u hj
    exact hu' ▸ hunretracted j u' e hj

/-! ## 1 つの操作 -/

omit [DecidableEq ℓ] in
/-- 操作の後の、別のスレッドの判定と送信の途中。 -/
theorem pending_set {j : Nat} {u : Thread ℓ} (hj : (w.threads.set i t')[j]? = some u) {q : Pending ℓ}
    (hu : u.pending = some q) (hq : t'.pending ≠ some q) : w.threads[j]? = some u := by
  rcases getElem?_set_cases hj with ⟨_, rfl⟩ | ⟨_, hj⟩
  · exact (hq hu).elim
  · exact hj

section

variable (hw : Inv w) (hi : w.threads[i]? = some t)

include hw hi

/-- `set(Validated)` の始め。判定の途中のスレッドが無いので、旗を下ろしてよい。 -/
theorem Inv.lower (ht : t.pending = none) {label : ℓ} (hpending : t'.pending = some (.insertValidated label))
    (hchecking : w.checking = 0) :
    Inv { w with noViableNotified := false, threads := w.threads.set i t' } := by
  have hset (p : Pending ℓ → Bool) := count_set (w := w) (t := t) (u := t')
    (v := { w with noViableNotified := false, threads := w.threads.set i t' }) (p := p) hi rfl
  simp only [ht, hpending, Option.any_none, Option.any_some, Bool.toNat_false, Nat.add_zero] at hset
  have hsettling : 0 < World.settling { w with noViableNotified := false, threads := w.threads.set i t' } := by
    have := hset inserts
    simp only [inserts, Bool.toNat_true] at this
    rw [World.settling]
    omega
  constructor
  · intro j u e hj hu
    have hj := pending_set hj hu (by simp [hpending])
    have := count_pos (p := swaps) hj hu rfl
    rw [World.checking] at hchecking
    omega
  · simp
  · intro _ _ hzero
    omega
  · exact hw.future
  · exact hw.once
  · intro e
    have hsame := hset (sends e)
    simp only [sends, reduceCtorEq, decide_false, Bool.toNat_false, Nat.add_zero] at hsame
    exact (congrArg _ hsame).trans (hw.balance e)
  · exact hw.completed
  · intro j u e hj hu
    exact hw.unretracted j u e (pending_set hj hu (by simp [hpending])) hu

/-- Validated な path を書き込む。`set(Validated)` の途中なので、旗は下りていて、判定の途中のスレッドは無い。 -/
theorem Inv.insert_validated (hpending : t'.pending = none) {label : ℓ}
    (ht : t.pending = some (.insertValidated label)) :
    Inv { w.insert label .validated with threads := w.threads.set i t' } := by
  have hany := anyValidated_insert_validated w label
  have hepisode : (w.insert label .validated).episode = w.episode := by
    rw [insert_episode, hany]
    simp
  have hset (p : Pending ℓ → Bool) := count_set (w := w) (t := t) (u := t')
    (v := { w.insert label .validated with threads := w.threads.set i t' }) (p := p) hi rfl
  simp only [ht, hpending, Option.any_none, Option.any_some, Bool.toNat_false, Nat.add_zero] at hset
  have hsettling : 0 < w.settling := count_pos (p := inserts) hi ht rfl
  rw [insert_frame, hepisode]
  constructor
  · intro j u e hj hu
    have := (hw.checked j u e (pending_set hj hu (by simp [hpending])) hu).2.2
    omega
  · intro hflag
    have := (hw.raised hflag).2.1
    omega
  · intro _ hfalse _
    rw [show World.anyValidated { w with
        states := (w.insert label .validated).states
        threads := w.threads.set i t' } = true from hany] at hfalse
    cases hfalse
  · exact hw.future
  · exact hw.once
  · intro e
    have hsame := hset (sends e)
    simp only [sends, reduceCtorEq, decide_false, Bool.toNat_false, Nat.add_zero] at hsame
    exact (congrArg _ hsame).trans (hw.balance e)
  · exact hw.completed
  · intro j u e hj hu
    exact hw.unretracted j u e (pending_set hj hu (by simp [hpending])) hu

/-- 判定の始め。`set(Validated)` の途中のスレッドが無ければ、判定の途中に Validated な path は現れない。 -/
theorem Inv.check (ht : t.pending = none) (hpending : t'.pending = some (.swap w.episode))
    (hany : w.anyValidated = false) (hsettling : w.settling = 0) :
    Inv { w with threads := w.threads.set i t' } := by
  have hset (p : Pending ℓ → Bool) := count_set (w := w) (t := t) (u := t')
    (v := { w with threads := w.threads.set i t' }) (p := p) hi rfl
  simp only [ht, hpending, Option.any_none, Option.any_some, Bool.toNat_false, Nat.add_zero] at hset
  have hsettling' : World.settling { w with threads := w.threads.set i t' } = w.settling := hset inserts
  constructor
  · intro j u e hj hu
    rw [hsettling']
    rcases getElem?_set_cases hj with ⟨_, rfl⟩ | ⟨_, hj⟩
    · obtain rfl : w.episode = e := by simpa [hpending] using hu
      exact ⟨hany, rfl, hsettling⟩
    · exact hw.checked j u e hj hu
  · rw [hsettling']
    exact hw.raised
  · rw [hsettling']
    exact hw.lowered
  · exact hw.future
  · exact hw.once
  · intro e
    have hsame := hset (sends e)
    simp only [sends, reduceCtorEq, decide_false, Bool.toNat_false, Nat.add_zero] at hsame
    exact (congrArg _ hsame).trans (hw.balance e)
  · exact hw.completed
  · intro j u e hj hu
    exact hw.unretracted j u e (pending_set hj hu (by simp [hpending])) hu

/-- 旗を初めて立てたスレッドが、その期間の通知の権利を取る。 -/
theorem Inv.win {e : Nat} (ht : t.pending = some (.swap e)) (hpending : t'.pending = some (.trySend e))
    (hflag : w.noViableNotified = false) :
    Inv { w with noViableNotified := true, won := w.episode :: w.won, threads := w.threads.set i t' } := by
  obtain ⟨hany, rfl, hsettling⟩ := hw.checked i t e hi ht
  have hzero := hw.lowered hflag hany hsettling
  have hset (p : Pending ℓ → Bool) := count_set (w := w) (t := t) (u := t')
    (v := { w with noViableNotified := true, won := w.episode :: w.won, threads := w.threads.set i t' })
    (p := p) hi rfl
  simp only [ht, hpending, Option.any_some] at hset
  have hsettling' : World.settling { w with
      noViableNotified := true
      won := w.episode :: w.won
      threads := w.threads.set i t' } = w.settling := hset inserts
  have hcount (e : Nat) : (w.episode :: w.won).count e = w.won.count e + if w.episode = e then 1 else 0 := by
    rw [List.count_cons]
    simp
  constructor
  · intro j u e hj hu
    rw [hsettling']
    exact hw.checked j u e (pending_set hj hu (by simp [hpending])) hu
  · intro _
    rw [hsettling']
    exact ⟨hany, hsettling, by rw [hcount, hzero, if_pos rfl]⟩
  · simp
  · intro e hlt
    rw [hcount, hw.future e hlt, if_neg (Nat.ne_of_lt hlt)]
  · intro e
    rw [hcount]
    split
    · rename_i heq
      rw [← heq, hzero]
    · exact hw.once e
  · intro e
    have hsend := hset (sends e)
    have hbal := hw.balance e
    rw [hcount]
    simp only [World.inFlight]
    rw [World.inFlight] at hbal
    by_cases heq : w.episode = e
    · simp [sends, heq] at hsend ⊢
      omega
    · simp [sends, heq] at hsend ⊢
      omega
  · intro e he
    have hone := hw.completed e he
    have hne : w.episode ≠ e := by
      rintro rfl
      omega
    rw [hcount, if_neg hne, hone]
  · intro j u e hj hu
    exact hw.unretracted j u e (pending_set hj hu (by simp [hpending])) hu

/-- 旗が既に立っていれば、その期間の通知の権利は他のスレッドが取っている。 -/
theorem Inv.lose {e : Nat} (ht : t.pending = some (.swap e)) (hpending : t'.pending = none) :
    Inv { w with threads := w.threads.set i t' } := by
  have hset (p : Pending ℓ → Bool) := count_set (w := w) (t := t) (u := t')
    (v := { w with threads := w.threads.set i t' }) (p := p) hi rfl
  simp only [ht, hpending, Option.any_none, Option.any_some, Bool.toNat_false, Nat.add_zero] at hset
  have hsettling' : World.settling { w with threads := w.threads.set i t' } = w.settling := hset inserts
  constructor
  · intro j u e hj hu
    rw [hsettling']
    exact hw.checked j u e (pending_set hj hu (by simp [hpending])) hu
  · rw [hsettling']
    exact hw.raised
  · rw [hsettling']
    exact hw.lowered
  · exact hw.future
  · exact hw.once
  · intro e
    have hsame := hset (sends e)
    simp only [sends, reduceCtorEq, decide_false, Bool.toNat_false, Nat.add_zero] at hsame
    exact (congrArg _ hsame).trans (hw.balance e)
  · exact hw.completed
  · intro j u e hj hu
    exact hw.unretracted j u e (pending_set hj hu (by simp [hpending])) hu

/-- 通知を送る。 -/
theorem Inv.send {e : Nat} (ht : t.pending = some (.trySend e)) (hpending : t'.pending = none) :
    Inv { w with sent := e :: w.sent, threads := w.threads.set i t' } := by
  have hset (p : Pending ℓ → Bool) := count_set (w := w) (t := t) (u := t')
    (v := { w with sent := e :: w.sent, threads := w.threads.set i t' }) (p := p) hi rfl
  simp only [ht, hpending, Option.any_none, Option.any_some, Bool.toNat_false, Nat.add_zero] at hset
  have hsettling' : World.settling { w with sent := e :: w.sent, threads := w.threads.set i t' } = w.settling :=
    hset inserts
  constructor
  · intro j u e hj hu
    rw [hsettling']
    exact hw.checked j u e (pending_set hj hu (by simp [hpending])) hu
  · rw [hsettling']
    exact hw.raised
  · rw [hsettling']
    exact hw.lowered
  · exact hw.future
  · exact hw.once
  · intro e'
    have hsent := hset (sends e')
    have hbal := hw.balance e'
    simp only [World.inFlight] at hbal ⊢
    by_cases heq : e = e'
    · simp [sends, heq] at hsent ⊢
      omega
    · simp [sends, heq] at hsent ⊢
      omega
  · exact hw.completed
  · intro j u e hj hu
    exact hw.unretracted j u e (pending_set hj hu (by simp [hpending])) hu

end

/-- 呼び出しの終わりを記録する。 -/
theorem Inv.finish (hw : Inv w) {e : Nat} (he : w.episode = e → w.anyValidated = false → w.won.count e = 1) :
    Inv (w.finish e) := by
  rw [World.finish]
  split
  · rename_i h
    refine ⟨hw.checked, hw.raised, hw.lowered, hw.future, hw.once, hw.balance, ?_, hw.unretracted⟩
    intro e' he'
    rcases List.mem_cons.mp he' with rfl | he'
    · exact he h.1 h.2
    · exact hw.completed e' he'
  · exact hw

/-- Validated でない状態の書き込み。Validated な path が無くなれば、新しい期間では誰もまだ旗を立てていない。 -/
theorem Inv.insert_other (hw : Inv w) {label : ℓ} {state : PathState} (hne : state ≠ .validated) :
    Inv (w.insert label state) := by
  have hepisode := insert_episode w label state
  have hkeep (h : w.anyValidated = false) :
      (w.insert label state).anyValidated = false ∧ (w.insert label state).episode = w.episode := by
    rw [hepisode, h]
    exact ⟨anyValidated_insert_of_ne hne h, rfl⟩
  have hle : w.episode ≤ (w.insert label state).episode := by
    rw [hepisode]
    split <;> omega
  rw [insert_frame]
  constructor
  · intro j u e hj hu
    obtain ⟨hany, he, hsettling⟩ := hw.checked j u e hj hu
    exact ⟨(hkeep hany).1, (hkeep hany).2.trans he, hsettling⟩
  · intro hflag
    obtain ⟨hany, hsettling, hone⟩ := hw.raised hflag
    exact ⟨(hkeep hany).1, hsettling, by rw [(hkeep hany).2]; exact hone⟩
  · intro hflag hany hsettling
    replace hany : (w.insert label state).anyValidated = false := hany
    cases hold : w.anyValidated with
    | false =>
        rw [(hkeep hold).2]
        exact hw.lowered hflag hold hsettling
    | true =>
        rw [hepisode, hold, hany]
        exact hw.future _ (Nat.lt_succ_self _)
  · intro e hlt
    exact hw.future e (hle.trans_lt hlt)
  · exact hw.once
  · exact hw.balance
  · exact hw.completed
  · exact hw.unretracted

/-! ## 実行 -/

omit [DecidableEq ℓ] in
theorem finish_threads (w : World ℓ) (e : Nat) (ts : List (Thread ℓ)) :
    { w.finish e with threads := ts } = World.finish { w with threads := ts } e := by
  by_cases h : w.episode = e ∧ w.anyValidated = false
  · have h' : World.episode { w with threads := ts } = e ∧ World.anyValidated { w with threads := ts } = false := h
    simp only [World.finish, if_pos h, if_pos h']
  · have h' : ¬ (World.episode { w with threads := ts } = e ∧
        World.anyValidated { w with threads := ts } = false) := h
    simp only [World.finish, if_neg h, if_neg h']

/-- 途中の呼び出しの 1 つの操作。 -/
theorem Inv.resume (hw : Inv w) (hi : w.threads[i]? = some t) {p : Pending ℓ} (ht : t.pending = some p)
    {rest : List (Request ℓ)} :
    Inv { (w.resume false p).1 with
      threads := w.threads.set i { t with pending := (w.resume false p).2, requests := rest } } := by
  cases p with
  | insertValidated label => exact hw.insert_validated hi rfl ht
  | retract e => exact (hw.unretracted i t e hi ht).elim
  | trySend e =>
      have hone : w.won.count e = 1 := by
        have hpos : 0 < w.inFlight e := count_pos (p := World.sends e) hi ht (by simp [World.sends])
        have hbal := hw.balance e
        have hle := hw.once e
        omega
      simp only [World.resume, Bool.false_eq_true, if_false, finish_threads]
      exact (hw.send hi ht rfl).finish fun _ _ => hone
  | swap e =>
      obtain ⟨_, rfl, _⟩ := hw.checked i t e hi ht
      cases hflag : w.noViableNotified with
      | true =>
          have hlost : w.resume false (.swap w.episode) = (w.finish w.episode, none) := by
            rw [World.resume, if_pos hflag]
          rw [hlost, finish_threads]
          refine Inv.finish ?_ fun _ _ => (hw.raised hflag).2.2
          exact hw.lose hi ht rfl
      | false =>
          simp only [World.resume, hflag, Bool.false_eq_true, if_false]
          exact hw.win hi ht rfl hflag

/-- 呼び出しの最初の操作。 -/
theorem Inv.begin (hw : Inv w) (hi : w.threads[i]? = some t) (ht : t.pending = none) {r : Request ℓ}
    {rest : List (Request ℓ)} (hrest : t.requests = r :: rest) {full : Bool}
    (hc : w.separate (.run i full) = true) :
    Inv { (w.begin r).1 with
      threads := w.threads.set i { t with pending := (w.begin r).2, requests := rest } } := by
  have hnext : (w.threads[i]?).bind Thread.next? = some (.inr r) := by
    simp [hi, Thread.next?, ht, hrest]
  rw [World.separate, hnext] at hc
  cases r with
  | set label state =>
      have hother (hne : state ≠ .validated) : Inv { w.insert label state with
          threads := w.threads.set i { t with pending := none, requests := rest } } := by
        have hthreads : (w.insert label state).threads = w.threads := by rw [insert_frame]
        rw [← hthreads]
        exact (hw.insert_other hne).of_threads (hthreads ▸ hi) ht.symm
      cases state with
      | validated => exact hw.lower hi ht rfl (of_decide_eq_true hc)
      | unknown => exact hother (by simp)
      | degraded => exact hother (by simp)
      | failed => exact hother (by simp)
  | notify =>
      cases hany : w.anyValidated with
      | true =>
          simp only [World.begin, hany, if_true]
          exact hw.of_threads hi ht.symm
      | false =>
          simp only [World.begin, hany, Bool.false_eq_true, if_false]
          rw [hany, Bool.false_or] at hc
          exact hw.check hi ht rfl hany (of_decide_eq_true hc)

/-- 監視の開始。新しいスレッドは、まだ何も呼び出していない。 -/
theorem Inv.spawn (hw : Inv w) (ht : t.pending = none) : Inv { w with threads := w.threads ++ [t] } := by
  have hcount (p : Pending ℓ → Bool) : World.count p { w with threads := w.threads ++ [t] } = w.count p := by
    simp [World.count, ht]
  have hold {j : Nat} {u : Thread ℓ} {q : Pending ℓ} (hj : (w.threads ++ [t])[j]? = some u)
      (hu : u.pending = some q) : w.threads[j]? = some u := by
    rcases getElem?_concat_cases hj with hj | ⟨_, rfl⟩
    · exact hj
    · rw [ht] at hu
      cases hu
  have hsettling : World.settling { w with threads := w.threads ++ [t] } = w.settling := hcount _
  constructor
  · intro j u e hj hu
    rw [hsettling]
    exact hw.checked j u e (hold hj hu) hu
  · rw [hsettling]
    exact hw.raised
  · rw [hsettling]
    exact hw.lowered
  · exact hw.future
  · exact hw.once
  · intro e
    exact (congrArg _ (hcount (World.sends e))).trans (hw.balance e)
  · exact hw.completed
  · intro j u e hj hu
    exact hw.unretracted j u e (hold hj hu) hu

theorem Inv.step {a : Action ℓ} (hw : Inv w) (h : w.Steps lossy a w') (hc : w.Separated a) : Inv w' := by
  obtain ⟨hsep, hroomy⟩ := Bool.and_eq_true_iff.mp hc
  cases a with
  | spawn label =>
      obtain rfl := Option.some.inj h
      exact hw.spawn rfl
  | reading i stats =>
      obtain ⟨t, ht, h⟩ := Option.bind_eq_some_iff.mp h
      obtain rfl := Option.some.inj h
      exact hw.of_threads (Option.filter_eq_some_iff.mp ht).1 rfl
  | event i requests =>
      obtain ⟨t, ht, h⟩ := Option.bind_eq_some_iff.mp h
      obtain rfl := Option.some.inj h
      exact hw.of_threads (Option.filter_eq_some_iff.mp ht).1 rfl
  | run i full =>
      obtain ⟨t, hi, h⟩ := Option.bind_eq_some_iff.mp h
      obtain rfl : full = false := by simpa [roomy] using hroomy
      cases hp : t.pending with
      | some p =>
          simp only [World.runThread, hp, Option.some.injEq] at h
          subst h
          exact hw.resume hi hp
      | none =>
          cases hr : t.requests with
          | nil => simp [World.runThread, hp, hr] at h
          | cons r rest =>
              simp only [World.runThread, hp, hr, Option.some.injEq] at h
              subst h
              exact hw.begin hi hp hr hsep

theorem inv_of_run {as : List (Action ℓ)} (h : Run (Guarded (Steps lossy) Separated) .start as w) : Inv w := by
  refine h.invariant_of_guarded ?_ inv_start
  intro w a w' hw hs hc
  exact hw.step hs hc

theorem Inv.notified (hw : Inv w) : Notified w := by
  refine ⟨fun e => ?_, fun e he => ?_⟩
  · have hbal := hw.balance e
    have hle := hw.once e
    omega
  · rw [hw.balance e]
    exact hw.completed e he

end

end IsekaiTerminal.PathHealth
