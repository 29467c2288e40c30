import Mathlib

/-!
# 次の要素をたどる列

有限の集合の中で、順序 `R` の次の要素を返す関数をくり返すと、始点より後の要素を、1 度ずつ順に訪れて終わる。
-/

namespace IsekaiTerminal.Lib

variable {α : Type} {R : α → α → Prop} {S : Finset α} {next : α → Option α}

/-- `next` は、`S` のうち `R` で次に来る要素を返す。 -/
structure Nearest (R : α → α → Prop) (S : Finset α) (next : α → Option α) : Prop where
  mem : ∀ {a b}, next a = some b → b ∈ S ∧ R a b
  least : ∀ {a b}, next a = some b → ∀ c ∈ S, R a c → c = b ∨ R b c
  none : ∀ {a}, next a = none → ∀ c ∈ S, ¬R a c

/-- `f` をくり返すと、`start` から `visits` を順に訪れて終わる。 -/
structure Visits (f : α → Option α) (start : α) (visits : List α) : Prop where
  chain : List.IsChain (fun a b => f a = some b) (start :: visits)
  stops : f (visits.getLastD start) = none

theorem Visits.nil {f : α → Option α} {start : α} (h : f start = none) : Visits f start [] :=
  ⟨List.isChain_singleton _, h⟩

theorem Visits.cons {f : α → Option α} {start a : α} {visits : List α} (h : f start = some a) (hrest : Visits f a visits) :
    Visits f start (a :: visits) where
  chain := List.isChain_cons_cons.2 ⟨h, hrest.chain⟩
  stops := by
    rw [List.getLastD_cons]
    exact hrest.stops

/-- 要素ごとの対応は、訪れる列を写す。 -/
theorem Visits.map {β : Type} {f : α → Option α} {f' : β → Option β} {g : α → β} {start : α} {visits : List α}
    (h : Visits f start visits) (hg : ∀ a ∈ start :: visits, f' (g a) = (f a).map g) :
    Visits f' (g start) (visits.map g) := by
  induction visits generalizing start with
  | nil =>
      refine Visits.nil ?_
      rw [hg start List.mem_cons_self, show f start = none from h.stops]
      rfl
  | cons a visits ih =>
      obtain ⟨hstep, hchain⟩ := List.isChain_cons_cons.1 h.chain
      have hstops := h.stops
      rw [List.getLastD_cons] at hstops
      refine Visits.cons ?_ (ih ⟨hchain, hstops⟩ fun b hb => hg b (List.mem_cons_of_mem _ hb))
      rw [hg start List.mem_cons_self, hstep]
      rfl

/-- 同じ所へ戻る始点からは、終わらない。 -/
theorem Visits.ne_of_fixed {f : α → Option α} {start : α} {visits : List α} (h : Visits f start visits)
    (hfixed : f start = some start) : False := by
  induction visits with
  | nil => exact Option.some_ne_none _ (hfixed.symm.trans h.stops)
  | cons a visits ih =>
      obtain ⟨hstep, hchain⟩ := List.isChain_cons_cons.1 h.chain
      obtain rfl := Option.some.inj (hfixed.symm.trans hstep)
      have hstops := h.stops
      rw [List.getLastD_cons] at hstops
      exact ih ⟨hchain, hstops⟩

/-- 始点より後の要素を、1 度ずつ順に訪れる。 -/
theorem Nearest.exists_visits [DecidableRel R] [IsStrictOrder α R] (h : Nearest R S next) (a : α) :
    ∃ visits, visits.Pairwise R ∧ (∀ b, b ∈ visits ↔ b ∈ S ∧ R a b) ∧ Visits next a visits := by
  induction hn : (S.filter (R a ·)).card using Nat.strong_induction_on generalizing a with
  | _ n ih =>
    cases hnext : next a with
    | none =>
        refine ⟨[], List.Pairwise.nil, fun b => ?_, Visits.nil hnext⟩
        exact iff_of_false List.not_mem_nil fun hb => h.none hnext b hb.1 hb.2
    | some b =>
        obtain ⟨hmem, hab⟩ := h.mem hnext
        -- `b` より後の要素は、`a` より後の要素から `b` を除いたものに含まれる。
        have hcard : (S.filter (R b ·)).card < n := by
          rw [← hn]
          refine Finset.card_lt_card (Finset.ssubset_iff_of_subset ?_ |>.2 ⟨b, ?_, ?_⟩)
          · intro c hc
            rw [Finset.mem_filter] at hc ⊢
            exact ⟨hc.1, IsTrans.trans _ _ _ hab hc.2⟩
          · exact Finset.mem_filter.2 ⟨hmem, hab⟩
          · exact fun hb => irrefl b (Finset.mem_filter.1 hb).2
        obtain ⟨visits, hsorted, hvisits, hrest⟩ := ih _ hcard b rfl
        refine ⟨b :: visits, List.pairwise_cons.2 ⟨fun c hc => ((hvisits c).1 hc).2, hsorted⟩, fun c => ?_,
          hrest.cons hnext⟩
        rw [List.mem_cons, hvisits c]
        constructor
        · rintro (rfl | ⟨hc, hbc⟩)
          · exact ⟨hmem, hab⟩
          · exact ⟨hc, IsTrans.trans _ _ _ hab hbc⟩
        · rintro ⟨hc, hac⟩
          exact (h.least hnext c hc hac).imp_right fun hbc => ⟨hc, hbc⟩

end IsekaiTerminal.Lib
