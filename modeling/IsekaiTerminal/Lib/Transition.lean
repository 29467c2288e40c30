import Mathlib

/-!
# ラベル付きの遷移の実行

遷移の関係 `Step : σ → α → σ → Prop` の有限の実行と、その不変条件を扱う。
条件 `C` を満たす遷移だけの実行は、`Guarded Step C` の実行として表す。
-/

namespace IsekaiTerminal.Lib

section

variable {σ α : Type*}

/-- 状態 `s` から、ラベルの列に沿って状態 `s'` に至る実行。 -/
inductive Run (Step : σ → α → σ → Prop) : σ → List α → σ → Prop
  | nil (s : σ) : Run Step s [] s
  | cons {s a s₁ as s₂} : Step s a s₁ → Run Step s₁ as s₂ → Run Step s (a :: as) s₂

/-- 遷移の前の状態とラベルが条件 `C` を満たす遷移。 -/
def Guarded (Step : σ → α → σ → Prop) (C : σ → α → Prop) (s : σ) (a : α) (s' : σ) : Prop :=
  Step s a s' ∧ C s a

namespace Run

variable {Step Step' : σ → α → σ → Prop} {C : σ → α → Prop}

theorem single {s a s'} (h : Step s a s') : Run Step s [a] s' := .cons h (.nil _)

theorem append {s s' s'' as bs} (h : Run Step s as s') (h' : Run Step s' bs s'') :
    Run Step s (as ++ bs) s'' := by
  induction h with
  | nil => exact h'
  | cons hs _ ih => exact .cons hs (ih h')

theorem exists_of_append {s s' as bs} (h : Run Step s (as ++ bs) s') :
    ∃ s₁, Run Step s as s₁ ∧ Run Step s₁ bs s' := by
  induction as generalizing s with
  | nil => exact ⟨s, .nil s, h⟩
  | cons a as ih =>
      cases h with
      | cons hs h =>
          obtain ⟨s₁, h₁, h₂⟩ := ih h
          exact ⟨s₁, .cons hs h₁, h₂⟩

/-- 実行の途中の遷移と、その前までの実行。 -/
theorem exists_step {s s' as a bs} (h : Run Step s (as ++ a :: bs) s') :
    ∃ s₁ s₂, Run Step s as s₁ ∧ Step s₁ a s₂ := by
  obtain ⟨s₁, h₁, h₂⟩ := h.exists_of_append
  cases h₂ with
  | cons hs _ => exact ⟨s₁, _, h₁, hs⟩

theorem mono (hm : ∀ s a s', Step s a s' → Step' s a s') {s as s'} (h : Run Step s as s') :
    Run Step' s as s' := by
  induction h with
  | nil => exact .nil _
  | cons hs _ ih => exact .cons (hm _ _ _ hs) ih

theorem invariant {I : σ → Prop} (hstep : ∀ s a s', I s → Step s a s' → I s') {s as s'}
    (h : Run Step s as s') (hs : I s) : I s' := by
  induction h with
  | nil => exact hs
  | cons hst _ ih => exact ih (hstep _ _ _ hs hst)

/-- 履歴の不変条件。最後に遷移を 1 つ加えるたびに保たれる性質は、どの実行でも成り立つ。 -/
theorem history {s : σ} {J : List α → σ → Prop} (hnil : J [] s)
    (hstep : ∀ as a s₁ s₂, Run Step s as s₁ → J as s₁ → Step s₁ a s₂ → J (as ++ [a]) s₂) {as s'}
    (h : Run Step s as s') : J as s' := by
  have key (bs : List α) (s₁ : σ) (hbs : Run Step s bs s₁) (hJ : J bs s₁) (as : List α) (s' : σ)
      (h : Run Step s₁ as s') : J (bs ++ as) s' := by
    induction h generalizing bs with
    | nil => simpa using hJ
    | cons hst _ ih => simpa using ih _ (hbs.append (.single hst)) (hstep _ _ _ _ hbs hJ hst)
  exact key [] s (.nil s) hnil as s' h

/-- 条件を満たす遷移で保たれる性質は、条件を満たす遷移だけの実行で保たれる。 -/
theorem invariant_of_guarded {I : σ → Prop} (hstep : ∀ s a s', I s → Step s a s' → C s a → I s')
    {s as s'} (h : Run (Guarded Step C) s as s') (hs : I s) : I s' := by
  refine Run.invariant ?_ h hs
  intro s a s' hI hst
  exact hstep s a s' hI hst.1 hst.2

/-- 条件 `C` の下で保たれる性質が条件 `D` を導くなら、`C` を満たす遷移だけの実行は、`D` も満たす。 -/
theorem guarded_of_invariant {I : σ → Prop} {D : σ → α → Prop} (hstep : ∀ s a s', I s → Step s a s' → C s a → I s' ∧ D s a)
    {s as s'} (h : Run (Guarded Step C) s as s') (hs : I s) : Run (Guarded Step D) s as s' := by
  induction h with
  | nil => exact .nil _
  | cons hst _ ih =>
      obtain ⟨hI, hD⟩ := hstep _ _ _ hs hst.1 hst.2
      exact .cons ⟨hst.1, hD⟩ (ih hI)

/-- ラベルだけの条件は、実行の全部のラベルが満たせばよい。 -/
theorem guarded_of_forall {D : α → Prop} {s as s'} (h : Run Step s as s') (hD : ∀ a ∈ as, D a) :
    Run (Guarded Step fun _ a => D a) s as s' := by
  induction h with
  | nil => exact .nil _
  | cons hs _ ih =>
      obtain ⟨ha, has⟩ := List.forall_mem_cons.mp hD
      exact .cons ⟨hs, ha⟩ (ih has)

/-- 関数で与えた遷移は、ラベルの列を順に適用して実行できる。 -/
theorem of_foldlM {step : σ → α → Option σ} {s s' : σ} {as : List α} (h : as.foldlM step s = some s') :
    Run (fun s a s' => step s a = some s') s as s' := by
  induction as generalizing s with
  | nil =>
      obtain rfl := Option.some.inj h
      exact .nil s
  | cons a as ih =>
      obtain ⟨s₁, hs, h⟩ := Option.bind_eq_some_iff.mp h
      exact .cons hs (ih h)

theorem guarded_of_foldlM [∀ s a, Decidable (C s a)] {step : σ → α → Option σ} {s s' : σ} {as : List α}
    (h : as.foldlM (fun s a => if C s a then step s a else none) s = some s') :
    Run (Guarded (fun s a s' => step s a = some s') C) s as s' := by
  refine (of_foldlM h).mono ?_
  intro s a s' hs
  obtain ⟨hc, hs⟩ := Option.ite_none_right_eq_some.mp hs
  exact ⟨hs, hc⟩

end Run

end

/-!
## 必ず起きること

外からの入力の無い遷移だけを続ければ、どの順序でも有限回で性質 `P` に至ることを表す。
-/

section

variable {σ α ι : Type*} {Step : σ → α → σ → Prop} {P Q : σ → Prop}

/-- 状態が `P` を満たすか、遷移が在って、どの遷移の後でも `P` が必ず起きる。 -/
inductive Inevitable (Step : σ → α → σ → Prop) (P : σ → Prop) : σ → Prop
  | now {s : σ} (h : P s) : Inevitable Step P s
  | later {s : σ} (hstep : ∃ a s', Step s a s') (h : ∀ a s', Step s a s' → Inevitable Step P s') :
      Inevitable Step P s

namespace Inevitable

/-- `P` の前では遷移が在り、どの遷移も順位を下げるなら、`P` は必ず起きる。 -/
theorem of_rank {r : ι → ι → Prop} (hr : WellFounded r) (rank : σ → ι) {I : σ → Prop}
    (hprogress : ∀ s, I s → ¬ P s → ∃ a s', Step s a s')
    (hdecrease : ∀ s a s', I s → ¬ P s → Step s a s' → I s' ∧ (P s' ∨ r (rank s') (rank s))) {s : σ} (hs : I s) :
    Inevitable Step P s := by
  suffices h : ∀ i, ∀ s, rank s = i → I s → Inevitable Step P s from h _ s rfl hs
  intro i
  induction i using hr.induction with
  | _ i ih =>
      rintro s rfl hs
      by_cases hP : P s
      · exact .now hP
      · refine .later (hprogress s hs hP) ?_
        intro a s' hstep
        obtain ⟨hs', hP' | hlt⟩ := hdecrease s a s' hs hP hstep
        · exact .now hP'
        · exact ih _ hlt s' rfl hs'

theorem mono (hPQ : ∀ s, P s → Q s) {s : σ} (h : Inevitable Step P s) : Inevitable Step Q s := by
  induction h with
  | now h => exact .now (hPQ _ h)
  | later hstep _ ih => exact .later hstep ih

end Inevitable

end

end IsekaiTerminal.Lib

/-!
## 純粋 reducer の実行

状態とイベントから、次の状態と作用の列を返す関数 `f : σ → ε → σ × List ω` を reducer と呼ぶ。
reducer をイベントの列に沿って実行したときの不変条件、履歴の不変条件、
作用の列を監視するオートマトンへの模倣を、どの reducer にも使える形で示す。
-/

namespace IsekaiTerminal.Lib.Reducer

section

variable {σ ε ω ι κ : Type*} (f : σ → ε → σ × List ω)

/-! ## 実行 -/

def run (s : σ) : List ε → σ
  | [] => s
  | e :: es => run (f s e).1 es

def outputs (s : σ) : List ε → List ω
  | [] => []
  | e :: es => (f s e).2 ++ outputs (f s e).1 es

/-- 履歴変数。状態を見ずに、イベントと、それに応じて出た作用の列だけから `g` で進む。 -/
def watch (g : κ → ε → List ω → κ) (s : σ) (x : κ) : List ε → κ
  | [] => x
  | e :: es => watch g (f s e).1 (g x e (f s e).2) es

variable {f}

@[simp] theorem run_nil (s : σ) : run f s [] = s := rfl

@[simp] theorem run_cons (s : σ) (e : ε) (es : List ε) : run f s (e :: es) = run f (f s e).1 es := rfl

@[simp] theorem outputs_nil (s : σ) : outputs f s [] = [] := rfl

@[simp] theorem outputs_cons (s : σ) (e : ε) (es : List ε) :
    outputs f s (e :: es) = (f s e).2 ++ outputs f (f s e).1 es := rfl

theorem run_append (s : σ) (es es' : List ε) : run f s (es ++ es') = run f (run f s es) es' := by
  induction es generalizing s with
  | nil => rfl
  | cons e es ih => exact ih _

theorem outputs_append (s : σ) (es es' : List ε) :
    outputs f s (es ++ es') = outputs f s es ++ outputs f (run f s es) es' := by
  induction es generalizing s with
  | nil => rfl
  | cons e es ih => simp [ih]

theorem run_concat (s : σ) (es : List ε) (e : ε) : run f s (es ++ [e]) = (f (run f s es) e).1 := by
  simp [run_append]

theorem outputs_concat (s : σ) (es : List ε) (e : ε) :
    outputs f s (es ++ [e]) = outputs f s es ++ (f (run f s es) e).2 := by
  simp [outputs_append]

/-! ## 不変条件 -/

/-- 1 回の適用で保たれる性質は、実行で保たれる。 -/
theorem run_invariant {I : σ → Prop} (hstep : ∀ s e, I s → I (f s e).1) {s : σ} (h : I s)
    (es : List ε) : I (run f s es) := by
  induction es generalizing s with
  | nil => exact h
  | cons e es ih => exact ih (hstep s e h)

/-- 許されたイベントだけで保たれる性質は、許されたイベントだけの実行で保たれる。 -/
theorem run_invariant_of {I : σ → Prop} {P : ε → Prop} (hstep : ∀ s e, P e → I s → I (f s e).1)
    {s : σ} (h : I s) {es : List ε} (hes : ∀ e ∈ es, P e) : I (run f s es) := by
  induction es generalizing s with
  | nil => exact h
  | cons e es ih =>
      exact ih (hstep s e (hes e List.mem_cons_self) h) fun e' he' => hes e' (List.mem_cons_of_mem _ he')

/-- 履歴の不変条件。イベントの列の末尾に 1 つ加えるたびに保たれる性質は、どの列でも成り立つ。 -/
theorem run_history {J : List ε → σ → Prop} {s : σ} (h : J [] s)
    (hstep : ∀ es e, J es (run f s es) → J (es ++ [e]) (f (run f s es) e).1) (es : List ε) :
    J es (run f s es) := by
  induction es using List.reverseRecOn with
  | nil => exact h
  | append_singleton es e ih => rw [run_concat]; exact hstep es e ih

/-! ## 履歴変数 -/

theorem watch_concat (g : κ → ε → List ω → κ) (s : σ) (x : κ) (es : List ε) (e : ε) :
    watch f g s x (es ++ [e]) = g (watch f g s x es) e (f (run f s es) e).2 := by
  induction es generalizing s x with
  | nil => rfl
  | cons e' es ih => exact ih _ _

/-- 状態と履歴変数の関係が 1 回の適用で保たれるなら、実行で保たれる。 -/
theorem watch_invariant {g : κ → ε → List ω → κ} {R : σ → κ → Prop}
    (hstep : ∀ s x e, R s x → R (f s e).1 (g x e (f s e).2)) {s : σ} {x : κ} (h : R s x) (es : List ε) :
    R (run f s es) (watch f g s x es) := by
  induction es generalizing s x with
  | nil => exact h
  | cons e es ih => exact ih (hstep s x e h)

/-! ## 監視オートマトンへの模倣 -/

/-- 状態 `s` と監視オートマトンの状態 `x` の関係 `R` が 1 回の適用で進むなら、実行でも進む。
`π` は作用のうち監視する部分を取り出す。 -/
theorem run_simulates {δ : κ → ι → Option κ} {π : ω → Option ι} {I : σ → Prop} {R : σ → κ → Prop}
    (hI : ∀ s e, I s → I (f s e).1)
    (hstep : ∀ s e x, I s → R s x →
      ∃ x', ((f s e).2.filterMap π).foldlM δ x = some x' ∧ R (f s e).1 x')
    {s : σ} {x : κ} (hs : I s) (hR : R s x) (es : List ε) :
    ∃ x', ((outputs f s es).filterMap π).foldlM δ x = some x' ∧ R (run f s es) x' := by
  induction es generalizing s x with
  | nil => exact ⟨x, rfl, hR⟩
  | cons e es ih =>
      obtain ⟨x₁, h₁, hR₁⟩ := hstep s e x hs hR
      obtain ⟨x₂, h₂, hR₂⟩ := ih (hI s e hs) hR₁
      refine ⟨x₂, ?_, hR₂⟩
      rw [outputs_cons, List.filterMap_append, List.foldlM_append, h₁]
      exact h₂

end

end IsekaiTerminal.Lib.Reducer
