import IsekaiTerminal.Transport.CandidatePool

/-!
# 候補のプールの補題

鍵ごとの由来、優先度、有効期間の組は、和集合と、小さい方と、長い方を合わせる半束をなす。候補を入れることは、
その鍵の組へ合わせることである。候補の番号は、鍵が残る間は変わらず、別の鍵に使い回されない。
-/

namespace IsekaiTerminal.Transport

open Lib

/-! ## 由来の半束 -/

theorem lifetime_merge (a b : CandidateValidity) : (a.merge b).lifetime = a.lifetime ⊔ b.lifetime := by
  cases a with
  | static => exact (top_sup_eq _).symm
  | lease ttl =>
      cases b with
      | static => exact (sup_top_eq _).symm
      | lease ttl' => exact WithTop.coe_max ttl ttl'

theorem lifetime_injective : Function.Injective CandidateValidity.lifetime := by
  intro a b h
  cases a <;> cases b <;> simp_all [CandidateValidity.lifetime]

theorem rank_betterPriority (a b : CandidatePriority) : (betterPriority a b).rank = min a.rank b.rank := by
  rw [betterPriority]
  split
  · rename_i h
    rw [min_eq_left h]
  · rename_i h
    rw [min_eq_right (by omega)]

theorem mem_dedupAdjacent {l : List CandidateOrigin} {x : CandidateOrigin} : x ∈ dedupAdjacent l ↔ x ∈ l := by
  induction l using dedupAdjacent.induct with
  | case1 => rfl
  | case2 a => rfl
  | case3 b rest ih => 
      rw [dedupAdjacent, if_pos rfl, ih]
      simp only [List.mem_cons, or_self_left]
  | case4 a b rest hne ih => rw [dedupAdjacent, if_neg hne, List.mem_cons, ih, List.mem_cons (a := x) (b := a)]

/-- 並べ替えた列は、隣り合う等しい要素を除くと、真に増える列になる。 -/
theorem pairwise_dedupAdjacent {l : List CandidateOrigin} (h : l.Pairwise (· ≤ ·)) :
    (dedupAdjacent l).Pairwise (· < ·) := by
  induction l using dedupAdjacent.induct with
  | case1 => exact .nil
  | case2 a => exact List.pairwise_singleton _ _
  | case3 b rest ih =>
      rw [dedupAdjacent, if_pos rfl]
      exact ih (List.pairwise_cons.1 h).2
  | case4 a b rest hne ih =>
      obtain ⟨hle, hrest⟩ := List.pairwise_cons.1 h
      rw [dedupAdjacent, if_neg hne]
      refine List.pairwise_cons.2 ⟨fun x hx => ?_, ih hrest⟩
      have hab : a < b := lt_of_le_of_ne (hle b List.mem_cons_self) hne
      obtain rfl | hx := List.mem_cons.1 (mem_dedupAdjacent.1 hx)
      · exact hab
      · exact hab.trans_le ((List.pairwise_cons.1 hrest).1 x hx)

theorem mem_mergeOrigin {origins : List CandidateOrigin} {o x : CandidateOrigin} :
    x ∈ mergeOrigin origins o ↔ x ∈ origins ∨ x = o := by
  rw [mergeOrigin, mem_dedupAdjacent, List.mem_insertionSort]
  split
  · rename_i ho
    constructor
    · exact .inl
    · rintro (hx | rfl)
      · exact hx
      · exact ho
  · rw [List.mem_append, List.mem_singleton]

theorem pairwise_mergeOrigin (origins : List CandidateOrigin) (o : CandidateOrigin) :
    (mergeOrigin origins o).Pairwise (· < ·) :=
  pairwise_dedupAdjacent (List.pairwise_insertionSort _ _)

theorem provenance_mergeDraft (now generation : Nat) (existing : CandidateRecord) (d : CandidateDraft) :
    (CandidatePool.mergeDraft now generation existing d).candidate.provenance =
      existing.candidate.provenance ⊔ d.provenance := by
  refine Prod.ext ?_ (Prod.ext ?_ ?_)
  · ext x
    change x ∈ (mergeOrigin _ _).toFinset ↔ x ∈ existing.candidate.origins.toFinset ∪ {d.origin}
    rw [List.mem_toFinset, mem_mergeOrigin, Finset.mem_union, List.mem_toFinset, Finset.mem_singleton]
  · exact congrArg OrderDual.toDual (rank_betterPriority _ _)
  · exact lifetime_merge _ _

/-- 由来の列が真に増えるなら、組は由来、優先度、有効期間を定める。 -/
theorem eq_of_provenance_eq {c c' : Candidate} (hc : c.origins.Pairwise (· < ·)) (hc' : c'.origins.Pairwise (· < ·))
    (h : c.provenance = c'.provenance) :
    c.origins = c'.origins ∧ c.priority = c'.priority ∧ c.validity = c'.validity := by
  obtain ⟨horigins, hrest⟩ := Prod.mk.inj h
  obtain ⟨hrank, hlife⟩ := Prod.mk.inj hrest
  refine ⟨?_, ?_, lifetime_injective hlife⟩
  · refine hc.eq_of_mem_iff hc' fun x => ?_
    rw [← List.mem_toFinset, horigins, List.mem_toFinset]
  · cases hp : c.priority
    cases hp' : c'.priority
    rw [hp, hp'] at hrank
    exact congrArg CandidatePriority.mk (OrderDual.toDual.injective hrank)

theorem joinOf_cons (d : CandidateDraft) (drafts : List CandidateDraft) (k : CandidateKey) :
    joinOf (d :: drafts) k =
      (if k = d.key then (d.provenance : WithBot Provenance) else ⊥) ⊔ joinOf drafts k := by
  rw [joinOf, List.toFinset_cons, Finset.filter_insert]
  by_cases h : d.key = k
  · rw [if_pos h, if_pos h.symm, Finset.sup_insert]
    rfl
  · rw [if_neg h, if_neg (Ne.symm h), bot_sup_eq]
    rfl

theorem joinOf_congr {drafts drafts' : List CandidateDraft} (h : ∀ d, d ∈ drafts ↔ d ∈ drafts') (k : CandidateKey) :
    joinOf drafts k = joinOf drafts' k := by
  rw [joinOf, joinOf, List.toFinset.ext h]

namespace CandidatePool

/-! ## 構造 -/

/-- 1 つの記録の不変条件。 -/
structure Stored (key : CandidateKey) (r : CandidateRecord) : Prop where
  route : r.candidate.route.key = key
  origins : r.candidate.origins.Pairwise (· < ·)
  expires : r.expiresAt = expiresAtFor r.observedAt r.candidate.validity

structure WellFormed (p : CandidatePool) : Prop where
  keys : (p.entries.map Prod.fst).Nodup
  ids : (p.entries.map fun e => e.2.candidate.id).Nodup
  below : ∀ e ∈ p.entries, e.2.candidate.id < p.nextId
  stored : ∀ e ∈ p.entries, Stored e.1 e.2

variable {p : CandidatePool} {now generation : Nat} {d : CandidateDraft} {k : CandidateKey}

theorem WellFormed.new : WellFormed .new := by
  refine ⟨List.nodup_nil, List.nodup_nil, ?_, ?_⟩
  · intro e he
    cases he
  · intro e he
    cases he

theorem WellFormed.filter (h : p.WellFormed) (f : CandidateKey × CandidateRecord → Bool) (g : Option Nat) :
    WellFormed { p with currentGeneration := g, entries := p.entries.filter f } :=
  ⟨h.keys.sublist (List.filter_sublist.map _), h.ids.sublist (List.filter_sublist.map _),
    fun e he => h.below e (List.mem_of_mem_filter he), fun e he => h.stored e (List.mem_of_mem_filter he)⟩

theorem stored_mergeDraft {existing : CandidateRecord} (h : Stored k existing) (now generation : Nat)
    (d : CandidateDraft) : Stored k (mergeDraft now generation existing d) :=
  ⟨h.route, pairwise_mergeOrigin _ _, rfl⟩

theorem stored_freshRecord (id now generation : Nat) (d : CandidateDraft) :
    Stored d.key (freshRecord id now generation d) :=
  ⟨rfl, List.pairwise_singleton _ _, rfl⟩

/-- 鍵の記録は 1 つだけである。 -/
theorem WellFormed.eq_of_mem (h : p.WellFormed) {r : CandidateRecord} (hget : p.get? k = some r)
    {e : CandidateKey × CandidateRecord} (he : e ∈ p.entries) (hk : e.1 = k) : e.2 = r := by
  have hsome : p.get? k = some e.2 := assoc?_eq_some_of_mem h.keys (by rw [← hk]; exact he)
  rw [hget] at hsome
  exact (Option.some.inj hsome).symm

theorem WellFormed.insertDraft (h : p.WellFormed) : (p.insertDraft now generation d).WellFormed := by
  rw [CandidatePool.insertDraft]
  split
  · rename_i existing hget
    have hmem := mem_of_assoc?_eq_some hget
    have hid : ∀ e ∈ p.entries, (if e.1 = d.key then (e.1, mergeDraft now generation existing d) else e).2.candidate.id =
        e.2.candidate.id := by
      intro e he
      split
      · rename_i hk
        rw [h.eq_of_mem hget he hk]
        rfl
      · rfl
    refine ⟨?_, ?_, ?_, ?_⟩
    · have hfst : ∀ e : CandidateKey × CandidateRecord,
          (if e.1 = d.key then (e.1, mergeDraft now generation existing d) else e).1 = e.1 := by
        intro e
        split <;> rfl
      simpa only [List.map_map, Function.comp_def, hfst] using h.keys
    · have hmap := List.map_congr_left hid
      simpa only [List.map_map, Function.comp_def, hmap] using h.ids
    · intro e he
      obtain ⟨e', he', rfl⟩ := List.mem_map.1 he
      rw [hid e' he']
      exact h.below e' he'
    · intro e he
      obtain ⟨e', he', rfl⟩ := List.mem_map.1 he
      split
      · rename_i hk
        rw [hk]
        exact stored_mergeDraft (h.stored _ hmem) _ _ _
      · exact h.stored e' he'
  · rename_i hget
    have hfresh := assoc?_eq_none_iff.1 hget
    refine ⟨?_, ?_, ?_, ?_⟩
    · rw [List.map_append, List.map_singleton, ← List.concat_eq_append]
      exact h.keys.concat hfresh
    · rw [List.map_append, List.map_singleton, ← List.concat_eq_append]
      refine h.ids.concat fun hin => ?_
      obtain ⟨e, he, heq⟩ := List.mem_map.1 hin
      have hlt := h.below e he
      rw [heq] at hlt
      exact lt_irrefl _ hlt
    · intro e he
      obtain he | he := List.mem_append.1 he
      · exact (h.below e he).trans (Nat.lt_succ_self _)
      · rw [List.mem_singleton.1 he]
        exact Nat.lt_succ_self _
    · intro e he
      obtain he | he := List.mem_append.1 he
      · exact h.stored e he
      · rw [List.mem_singleton.1 he]
        exact stored_freshRecord _ _ _ _

theorem WellFormed.insertDrafts (h : p.WellFormed) (clock : Nat → Nat) (i : Nat) (drafts : List CandidateDraft) :
    (p.insertDrafts clock generation i drafts).WellFormed := by
  induction drafts generalizing p i with
  | nil => exact h
  | cons d drafts ih => exact ih h.insertDraft (i + 1)

/-! ## 候補を入れる -/

theorem get?_insertDraft (k : CandidateKey) :
    (p.insertDraft now generation d).get? k =
      if k = d.key then
        some (match p.get? d.key with
          | some existing => mergeDraft now generation existing d
          | none => freshRecord p.nextId now generation d)
      else p.get? k := by
  rw [CandidatePool.insertDraft]
  cases hget : p.get? d.key with
  | none => exact assoc?_concat hget k _
  | some existing =>
      change assoc? (p.entries.map _) k = _
      rw [assoc?_map_replace, show assoc? p.entries d.key = some existing from hget]
      rfl

theorem held_insertDraft (k : CandidateKey) :
    (p.insertDraft now generation d).held k =
      p.held k ⊔ if k = d.key then (d.provenance : WithBot Provenance) else ⊥ := by
  rw [held, held, get?_insertDraft]
  by_cases h : k = d.key
  · subst h
    rw [if_pos rfl, if_pos rfl]
    cases p.get? d.key with
    | none => exact (bot_sup_eq _).symm
    | some existing => exact congrArg _ (provenance_mergeDraft _ _ _ _)
  · rw [if_neg h, if_neg h, sup_bot_eq]

/-- 候補の列を入れた後の組は、前の組と候補の組を合わせたものである。 -/
theorem held_insertDrafts (clock : Nat → Nat) (i : Nat) (drafts : List CandidateDraft) (k : CandidateKey) :
    (p.insertDrafts clock generation i drafts).held k = p.held k ⊔ joinOf drafts k := by
  induction drafts generalizing p i with
  | nil => exact (sup_bot_eq _).symm
  | cons d drafts ih => rw [CandidatePool.insertDrafts, ih, held_insertDraft, joinOf_cons, sup_assoc]

/-- 候補のある鍵の記録は、その呼び出しの中で観測されたものになる。 -/
theorem observedAt_insertDrafts (clock : Nat → Nat) (drafts : List CandidateDraft) (i : Nat) {r : CandidateRecord}
    (hget : (p.insertDrafts clock generation i drafts).get? k = some r) :
    (∃ j, i ≤ j ∧ j < i + drafts.length ∧ r.observedAt = clock j) ∨
      p.get? k = some r ∧ ∀ d ∈ drafts, d.key ≠ k := by
  induction drafts generalizing p i with
  | nil => exact .inr ⟨hget, fun d hd => by cases hd⟩
  | cons d drafts ih =>
      obtain ⟨j, hij, hj, hobs⟩ | ⟨hget, hrest⟩ := ih (i + 1) hget
      · exact .inl ⟨j, by omega, by rw [List.length_cons]; omega, hobs⟩
      · rw [get?_insertDraft] at hget
        split at hget
        · refine .inl ⟨i, le_rfl, by rw [List.length_cons]; omega, ?_⟩
          cases hget
          split <;> rfl
        · rename_i hne
          refine .inr ⟨hget, fun x hx => ?_⟩
          obtain rfl | hx := List.mem_cons.1 hx
          · exact Ne.symm hne
          · exact hrest x hx

theorem get?_insertDrafts_isSome (clock : Nat → Nat) (drafts : List CandidateDraft) (i : Nat)
    (h : (p.get? k).isSome ∨ ∃ d ∈ drafts, d.key = k) :
    ((p.insertDrafts clock generation i drafts).get? k).isSome := by
  induction drafts generalizing p i with
  | nil =>
      obtain h | ⟨d, hd, -⟩ := h
      · exact h
      · cases hd
  | cons d drafts ih =>
      refine ih (i + 1) ?_
      rw [get?_insertDraft]
      by_cases hk : k = d.key
      · rw [if_pos hk]
        exact .inl rfl
      · rw [if_neg hk]
        obtain h | ⟨x, hx, hxk⟩ := h
        · exact .inl h
        · obtain rfl | hx := List.mem_cons.1 hx
          · exact absurd hxk.symm hk
          · exact .inr ⟨x, hx, hxk⟩

/-! ## 番号 -/

/-- 候補を入れる間、残る鍵の番号は変わらず、新しい鍵の番号は使われたことがない。 -/
structure Grows (p q : CandidatePool) : Prop where
  nextId : p.nextId ≤ q.nextId
  keeps : ∀ k i, p.idOf? k = some i → q.idOf? k = some i
  fresh : ∀ k i, q.idOf? k = some i → p.idOf? k = some i ∨ p.nextId ≤ i

theorem Grows.refl (p : CandidatePool) : Grows p p := ⟨le_rfl, fun _ _ h => h, fun _ _ h => .inl h⟩

theorem Grows.trans {p q r : CandidatePool} (h : Grows p q) (h' : Grows q r) : Grows p r := by
  refine ⟨h.nextId.trans h'.nextId, fun k i hi => h'.keeps k i (h.keeps k i hi), fun k i hi => ?_⟩
  obtain hq | hq := h'.fresh k i hi
  · exact h.fresh k i hq
  · exact .inr (h.nextId.trans hq)

theorem grows_insertDraft (p : CandidatePool) (now generation : Nat) (d : CandidateDraft) :
    Grows p (p.insertDraft now generation d) := by
  refine ⟨?_, fun k i hi => ?_, fun k i hi => ?_⟩
  · rw [CandidatePool.insertDraft]
    split
    · exact le_rfl
    · exact Nat.le_succ _
  · rw [idOf?, get?_insertDraft]
    split
    · rename_i hk
      subst hk
      obtain ⟨r, hr, rfl⟩ := Option.map_eq_some_iff.1 hi
      rw [hr]
      rfl
    · exact hi
  · rw [idOf?, get?_insertDraft] at hi
    split at hi
    · rename_i hk
      subst hk
      cases hget : p.get? d.key with
      | none =>
          rw [hget] at hi
          cases hi
          exact .inr le_rfl
      | some existing =>
          rw [hget] at hi
          cases hi
          exact .inl (by rw [idOf?, hget]; rfl)
    · exact .inl hi

theorem grows_insertDrafts (clock : Nat → Nat) (generation i : Nat) (drafts : List CandidateDraft) (p : CandidatePool) :
    Grows p (p.insertDrafts clock generation i drafts) := by
  induction drafts generalizing p i with
  | nil => exact .refl p
  | cons d drafts ih => exact (grows_insertDraft p (clock i) generation d).trans (ih (i + 1) _)

/-- 1 回の呼び出しの前後で残る鍵の番号は変わらず、新しい鍵の番号は使われたことがない。 -/
structure Follows (p p' : CandidatePool) : Prop where
  nextId : p.nextId ≤ p'.nextId
  ids : ∀ k i, p'.idOf? k = some i → p.idOf? k = some i ∨ p.idOf? k = none ∧ p.nextId ≤ i

theorem get?_filter (h : p.WellFormed) (f : CandidateKey × CandidateRecord → Bool) (g : Option Nat) (k : CandidateKey) :
    ({ p with currentGeneration := g, entries := p.entries.filter f } : CandidatePool).get? k =
      (p.get? k).filter fun r => f (k, r) :=
  assoc?_filter h.keys f k

theorem Grows.follows {q : CandidatePool} (h : Grows p q) : Follows p q := by
  refine ⟨h.nextId, fun k i hi => ?_⟩
  cases hp : p.idOf? k with
  | none =>
      obtain hold | hnew := h.fresh k i hi
      · rw [hp] at hold
        cases hold
      · exact .inr ⟨rfl, hnew⟩
  | some j =>
      have hqj := h.keeps k j hp
      rw [hi] at hqj
      exact .inl hqj.symm

/-- 記録を除いても、残る記録の番号は変わらない。 -/
theorem Follows.filter {q : CandidatePool} (h : Follows p q) (hq : q.WellFormed)
    (f : CandidateKey × CandidateRecord → Bool) (g : Option Nat) :
    Follows p { q with currentGeneration := g, entries := q.entries.filter f } := by
  refine ⟨h.nextId, fun k i hi => h.ids k i ?_⟩
  rw [idOf?, get?_filter hq] at hi
  obtain ⟨r, hr, rfl⟩ := Option.map_eq_some_iff.1 hi
  rw [idOf?, (Option.filter_eq_some_iff.1 hr).1]
  rfl

theorem WellFormed.key_eq_of_id_eq (h : p.WellFormed) {k k' : CandidateKey} {i : Nat} (hk : p.idOf? k = some i)
    (hk' : p.idOf? k' = some i) : k = k' := by
  obtain ⟨r, hr, hi⟩ := Option.map_eq_some_iff.1 hk
  obtain ⟨r', hr', hi'⟩ := Option.map_eq_some_iff.1 hk'
  have heq := List.inj_on_of_nodup_map h.ids (mem_of_assoc?_eq_some hr) (mem_of_assoc?_eq_some hr')
    (hi.trans hi'.symm)
  exact congrArg Prod.fst heq

theorem WellFormed.id_lt (h : p.WellFormed) {k : CandidateKey} {i : Nat} (hk : p.idOf? k = some i) : i < p.nextId := by
  obtain ⟨r, hr, rfl⟩ := Option.map_eq_some_iff.1 hk
  exact h.below _ (mem_of_assoc?_eq_some hr)

/-! ## 呼び出し -/

theorem get?_pruneExpired (h : p.WellFormed) {r : CandidateRecord} :
    (p.pruneExpired now).get? k = some r ↔ p.get? k = some r ∧ Alive now r := by
  rw [pruneExpired, get?_filter h (g := p.currentGeneration), Option.filter_eq_some_iff]
  refine and_congr_right fun _ => ?_
  rw [Alive]
  cases r.expiresAt <;> simp

theorem WellFormed.pruneExpired (h : p.WellFormed) (now : Nat) : (p.pruneExpired now).WellFormed := h.filter _ _

/-- 受け付けた呼び出しの、期限の来た記録を除く前のプール。 -/
def refreshed (clock : Nat → Nat) (batch : CandidateDraftBatch) (p : CandidatePool) : CandidatePool :=
  { (p.insertDrafts clock batch.generation 0 batch.candidates).retainKeys (batch.candidates.map (·.key)) with
    currentGeneration := some batch.generation }

theorem WellFormed.refreshed (h : p.WellFormed) (clock : Nat → Nat) (batch : CandidateDraftBatch) :
    (p.refreshed clock batch).WellFormed :=
  (h.insertDrafts clock 0 batch.candidates).filter _ _

theorem get?_refreshed (h : p.WellFormed) {clock : Nat → Nat} {batch : CandidateDraftBatch} {r : CandidateRecord} :
    (p.refreshed clock batch).get? k = some r ↔
      (p.insertDrafts clock batch.generation 0 batch.candidates).get? k = some r ∧
        ∃ d ∈ batch.candidates, d.key = k := by
  have hwf : (p.insertDrafts clock batch.generation 0 batch.candidates).WellFormed := h.insertDrafts clock 0 _
  rw [refreshed, retainKeys, get?_filter hwf, Option.filter_eq_some_iff, decide_eq_true_eq, List.mem_map]

/-- 新しい世代は受け付ける。 -/
theorem replaceGeneration_of_le {clock : Nat → Nat} {batch : CandidateDraftBatch}
    (hgen : ∀ current ∈ p.currentGeneration, current ≤ batch.generation) :
    p.replaceGeneration clock batch =
      (.ok ((p.refreshed clock batch).eligibleCandidates (clock batch.candidates.length)).1,
        (p.refreshed clock batch).pruneExpired (clock batch.candidates.length)) := by
  rw [replaceGeneration]
  split
  · rename_i current hcurrent
    rw [if_neg (not_lt.2 (hgen current hcurrent))]
    rfl
  · rfl

theorem replaceGeneration_of_lt (clock : Nat → Nat) {batch : CandidateDraftBatch} {current : Nat}
    (hcurrent : p.currentGeneration = some current) (hlt : batch.generation < current) :
    p.replaceGeneration clock batch = (.error ⟨current, batch.generation⟩, p) := by
  simp only [replaceGeneration, hcurrent, if_pos hlt]

/-- 古い世代は断り、ほかは受け付ける。 -/
theorem replaceGeneration_cases (clock : Nat → Nat) (batch : CandidateDraftBatch) (p : CandidatePool) :
    (∃ current, p.replaceGeneration clock batch = (.error ⟨current, batch.generation⟩, p)) ∨
      p.replaceGeneration clock batch =
        (.ok ((p.refreshed clock batch).eligibleCandidates (clock batch.candidates.length)).1,
          (p.refreshed clock batch).pruneExpired (clock batch.candidates.length)) := by
  by_cases hgen : ∀ current ∈ p.currentGeneration, current ≤ batch.generation
  · exact .inr (replaceGeneration_of_le hgen)
  · push Not at hgen
    obtain ⟨current, hcurrent, hlt⟩ := hgen
    exact .inl ⟨current, replaceGeneration_of_lt clock hcurrent hlt⟩

theorem WellFormed.step (h : p.WellFormed) (clock : Nat → Nat) (call : Call) : (p.step clock call).2.WellFormed := by
  cases call with
  | replaceGeneration batch =>
      rw [CandidatePool.step]
      obtain ⟨current, heq⟩ | heq := replaceGeneration_cases clock batch p
      · rw [heq]
        exact h
      · rw [heq]
        exact (h.refreshed clock batch).pruneExpired _
  | eligibleCandidates => exact h.pruneExpired _
  | getIfFresh id => exact h.pruneExpired _
  | pruneExpired => exact h.pruneExpired _

theorem WellFormed.run (h : p.WellFormed) (calls : List (Call × (Nat → Nat))) : (p.run calls).WellFormed := by
  induction calls generalizing p with
  | nil => exact h
  | cons c calls ih => exact ih (h.step c.2 c.1)

theorem follows_pruneExpired (h : p.WellFormed) (now : Nat) : Follows p (p.pruneExpired now) :=
  (Grows.refl p).follows.filter h _ _

theorem follows_step (h : p.WellFormed) (clock : Nat → Nat) (call : Call) : Follows p (p.step clock call).2 := by
  cases call with
  | replaceGeneration batch =>
      rw [CandidatePool.step]
      obtain ⟨current, heq⟩ | heq := replaceGeneration_cases clock batch p
      · rw [heq]
        exact ⟨le_rfl, fun k i hi => .inl hi⟩
      · rw [heq]
        have hinserted := (grows_insertDrafts clock batch.generation 0 batch.candidates p).follows
        exact (hinserted.filter (h.insertDrafts clock 0 batch.candidates) _ _).filter (h.refreshed clock batch) _ _
  | eligibleCandidates => exact follows_pruneExpired h _
  | getIfFresh id => exact follows_pruneExpired h _
  | pruneExpired => exact follows_pruneExpired h _

/-- 別の鍵の番号が使い回されることはない。 -/
theorem ids_run (h : p.WellFormed) (calls : List (Call × (Nat → Nat))) :
    p.nextId ≤ (p.run calls).nextId ∧
      ∀ k i, (p.run calls).idOf? k = some i → p.idOf? k = some i ∨ p.nextId ≤ i := by
  induction calls generalizing p with
  | nil => exact ⟨le_rfl, fun k i hi => .inl hi⟩
  | cons c calls ih =>
      have hstep := follows_step h c.2 c.1
      obtain ⟨hle, hids⟩ := ih (h.step c.2 c.1)
      refine ⟨hstep.nextId.trans hle, fun k i hi => ?_⟩
      obtain hi | hi := hids k i hi
      · exact (hstep.ids k i hi).imp id And.right
      · exact .inr (hstep.nextId.trans hi)

theorem Stays.isSome {k : CandidateKey} {calls : List (Call × (Nat → Nat))} (h : Stays k p calls) :
    (p.idOf? k).isSome := by
  cases calls with
  | nil => exact h
  | cons c calls => exact h.1

theorem idOf?_of_stays (h : p.WellFormed) (calls : List (Call × (Nat → Nat))) (hstays : Stays k p calls) :
    (p.run calls).idOf? k = p.idOf? k := by
  induction calls generalizing p with
  | nil => rfl
  | cons c calls ih =>
      obtain ⟨hnow, hrest⟩ := hstays
      obtain ⟨i, hi⟩ := Option.isSome_iff_exists.1 hrest.isSome
      have hstep := ih (h.step c.2 c.1) hrest
      obtain hold | ⟨hnone, -⟩ := (follows_step h c.2 c.1).ids k i hi
      · exact hstep.trans (hi.trans hold.symm)
      · rw [hnone] at hnow
        cases hnow

/-! ## 受け付けた呼び出し -/

theorem held_of_get? {r : CandidateRecord} (hget : p.get? k = some r) : p.held k = r.candidate.provenance := by
  rw [held, hget]
  rfl

theorem lifetimeOf_held {r : CandidateRecord} (hget : p.get? k = some r) :
    lifetimeOf (p.held k) = r.candidate.validity.lifetime := by
  rw [held_of_get? hget]
  rfl

section Accept

variable {clock : Nat → Nat} {batch : CandidateDraftBatch}

theorem accepted_get? (h : p.WellFormed) {r : CandidateRecord} :
    ((p.refreshed clock batch).pruneExpired (clock batch.candidates.length)).get? k = some r ↔
      (p.insertDrafts clock batch.generation 0 batch.candidates).get? k = some r ∧
        (∃ d ∈ batch.candidates, d.key = k) ∧ Alive (clock batch.candidates.length) r := by
  rw [get?_pruneExpired (h.refreshed clock batch), get?_refreshed h, and_assoc]

/-- 残った鍵の組は、前の組と候補の組を合わせたものである。 -/
theorem accepted_held (h : p.WellFormed)
    (hsome : (((p.refreshed clock batch).pruneExpired (clock batch.candidates.length)).get? k).isSome) :
    ((p.refreshed clock batch).pruneExpired (clock batch.candidates.length)).held k =
      p.held k ⊔ joinOf batch.candidates k := by
  obtain ⟨r, hr⟩ := Option.isSome_iff_exists.1 hsome
  have hinserted := (accepted_get? h).1 hr
  rw [held_of_get? hr, ← held_of_get? hinserted.1, held_insertDrafts]

/-- この呼び出しの中で観測された記録は、有効期間が呼び出しより長ければ残る。 -/
theorem alive_of_lifetime (hclock : Monotone clock) {r : CandidateRecord} (hstored : Stored k r) {n j : Nat} (hj : j ≤ n)
    (hobs : r.observedAt = clock j) (hlife : ((clock n - clock 0 : Nat) : WithTop Nat) < r.candidate.validity.lifetime) :
    Alive (clock n) r := by
  intro expiresAt hexpires
  rw [hstored.expires] at hexpires
  cases hvalidity : r.candidate.validity with
  | static =>
      rw [hvalidity] at hexpires
      cases hexpires
  | lease ttl =>
      rw [hvalidity] at hexpires hlife
      cases hexpires
      have httl : clock n - clock 0 < ttl := WithTop.coe_lt_coe.1 hlife
      have hfirst := hclock (Nat.zero_le j)
      have hlast := hclock hj
      rw [hobs]
      omega

theorem lifetime_ne_zero_of_alive (hclock : Monotone clock) {r : CandidateRecord} (hstored : Stored k r) {n j : Nat}
    (hj : j ≤ n) (hobs : r.observedAt = clock j) (halive : Alive (clock n) r) :
    r.candidate.validity.lifetime ≠ 0 := by
  cases hvalidity : r.candidate.validity with
  | static => exact WithTop.top_ne_zero
  | lease ttl =>
      intro hzero
      have httl : ttl = 0 := WithTop.coe_eq_zero.1 hzero
      have hlt := halive (r.observedAt + ttl) (by rw [hstored.expires, hvalidity]; rfl)
      have hlast := hclock hj
      omega

theorem accepted_lifetime_ne_zero (h : p.WellFormed) (hclock : Monotone clock) {r : CandidateRecord}
    (hr : ((p.refreshed clock batch).pruneExpired (clock batch.candidates.length)).get? k = some r) :
    r.candidate.validity.lifetime ≠ 0 := by
  obtain ⟨hinserted, ⟨d, hd, hk⟩, halive⟩ := (accepted_get? h).1 hr
  have hwf : (p.insertDrafts clock batch.generation 0 batch.candidates).WellFormed := h.insertDrafts clock 0 _
  obtain ⟨j, -, hj, hobs⟩ | ⟨-, hnone⟩ := observedAt_insertDrafts clock batch.candidates 0 hinserted
  · exact lifetime_ne_zero_of_alive hclock (hwf.stored _ (mem_of_assoc?_eq_some hinserted)) (by omega) hobs halive
  · exact absurd hk (hnone d hd)

theorem accepted_isSome (h : p.WellFormed) (hclock : Monotone clock) (hdrafted : ∃ d ∈ batch.candidates, d.key = k)
    (hlife : ((clock batch.candidates.length - clock 0 : Nat) : WithTop Nat) <
      lifetimeOf (p.held k ⊔ joinOf batch.candidates k)) :
    (((p.refreshed clock batch).pruneExpired (clock batch.candidates.length)).get? k).isSome := by
  have hwf : (p.insertDrafts clock batch.generation 0 batch.candidates).WellFormed := h.insertDrafts clock 0 _
  obtain ⟨r, hr⟩ := Option.isSome_iff_exists.1
    (@get?_insertDrafts_isSome p batch.generation k clock batch.candidates 0 (.inr hdrafted))
  rw [← @held_insertDrafts p batch.generation clock 0, lifetimeOf_held hr] at hlife
  obtain ⟨j, -, hj, hobs⟩ | ⟨-, hnone⟩ := observedAt_insertDrafts clock batch.candidates 0 hr
  · have halive := alive_of_lifetime hclock (hwf.stored _ (mem_of_assoc?_eq_some hr)) (by omega) hobs hlife
    exact Option.isSome_iff_exists.2 ⟨r, (accepted_get? h).2 ⟨hr, hdrafted, halive⟩⟩
  · obtain ⟨d, hd, hk⟩ := hdrafted
    exact absurd hk (hnone d hd)

end Accept

/-! ## 返る候補 -/

/-- 返る候補は、プールに残る、期限の来ていない記録である。 -/
theorem returned_pruneExpired (h : p.WellFormed) {e : CandidateKey × CandidateRecord}
    (he : e ∈ (p.pruneExpired now).entries) :
    (p.pruneExpired now).get? e.2.candidate.route.key = some e.2 ∧ Alive now e.2 := by
  have hwf := h.pruneExpired now
  have hget : (p.pruneExpired now).get? e.2.candidate.route.key = some e.2 := by
    rw [(hwf.stored e he).route]
    exact assoc?_eq_some_of_mem hwf.keys he
  exact ⟨hget, ((get?_pruneExpired h).1 hget).2⟩

theorem mem_eligibleCandidates {c : Candidate} (h : c ∈ (p.eligibleCandidates now).1.candidates) :
    ∃ e ∈ (p.pruneExpired now).entries, e.2.candidate = c := by
  rw [eligibleCandidates, List.mem_insertionSort] at h
  exact List.mem_map.1 h

theorem returned_step (h : p.WellFormed) (clock : Nat → Nat) (call : Call) {c : Candidate}
    (hc : c ∈ (p.step clock call).1) :
    ∃ r, (p.step clock call).2.get? c.route.key = some r ∧ r.candidate = c ∧ Alive (call.endsAt clock) r := by
  cases call with
  | replaceGeneration batch =>
      simp only [CandidatePool.step] at hc ⊢
      obtain ⟨current, heq⟩ | heq := replaceGeneration_cases clock batch p
      · rw [heq] at hc
        cases hc
      · rw [heq] at hc ⊢
        obtain ⟨e, he, rfl⟩ := mem_eligibleCandidates hc
        obtain ⟨hget, halive⟩ := returned_pruneExpired (h.refreshed clock batch) he
        exact ⟨e.2, hget, rfl, halive⟩
  | eligibleCandidates =>
      obtain ⟨e, he, rfl⟩ := mem_eligibleCandidates hc
      obtain ⟨hget, halive⟩ := returned_pruneExpired h he
      exact ⟨e.2, hget, rfl, halive⟩
  | getIfFresh id =>
      obtain ⟨e, he, rfl⟩ := Option.map_eq_some_iff.1 (Option.mem_toList.1 hc)
      obtain ⟨hget, halive⟩ := returned_pruneExpired h (List.mem_of_find?_eq_some he)
      exact ⟨e.2, hget, rfl, halive⟩
  | pruneExpired => cases hc

end CandidatePool

end IsekaiTerminal.Transport
