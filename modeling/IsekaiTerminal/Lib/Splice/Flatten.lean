import IsekaiTerminal.Lib.Splice.Walk

/-!
# 取り込みの行の置き換え

`flatten` は取り込みの行を、読んでいる途中でないファイルの行で置き換えた列である。その列を左から順に畳み込んだ結果と、
一度だけ読む走査の結果を比べる。
-/

namespace IsekaiTerminal.Lib.Splice

variable {π κ ε ℓ L σ α τ : Type*}

/-! ## 取り込みの行を置き換えた列 -/

/-- 行の種類。`select` は、その後の行が効くかを決める。 -/
inductive Item (π ε σ : Type*)
  | splice (targets : List (Except ε (List π)))
  | select (guard : σ → Bool)
  | text (apply : σ → σ)

/-- 取り込みと本文は、効くところでだけ効く。 -/
def Item.effect (active : Bool) (s : σ) : Item π ε σ → Effect π ε Bool σ
  | .splice targets => if active then .visit targets else .skip
  | .select guard => .select (guard s)
  | .text apply => if active then .update (apply s) else .skip

/-- 置き換えた後の列。`enter` と `leave` は、取り込まれた行の前後に在る。 -/
inductive Tok (κ ε ℓ : Type*)
  | enter (k : κ)
  | leave
  | line (line : ℓ)
  | fault (e : Fault ε)

def flattenTarget (enter : π → List (Tok κ ε ℓ)) : Except ε (List π) → List (Tok κ ε ℓ)
  | .error e => [.fault (.raised e)]
  | .ok paths => paths.flatMap enter

def flattenLine (item : ℓ → Item π ε σ) (enter : π → List (Tok κ ε ℓ)) (line : ℓ) : List (Tok κ ε ℓ) :=
  match item line with
  | .splice targets => targets.flatMap (flattenTarget enter)
  | .select _ | .text _ => [.line line]

/-- 読んでいる途中の鍵を `reading` に持ち、途中のファイルは飛ばす。 -/
def Source.flatten [DecidableEq κ] (source : Source π κ ε ℓ) (item : ℓ → Item π ε σ) :
    Nat → List κ → π → List (Tok κ ε ℓ)
  | 0, _, _ => [.fault .stuck]
  | n + 1, reading, path =>
      if source.key path ∈ reading then []
      else
        .enter (source.key path) :: (match source.read path with
          | .error e => [.fault (.raised e)]
          | .ok lines => lines.flatMap (flattenLine item (source.flatten item n (source.key path :: reading)))) ++ [.leave]

/-- 畳み込みの途中。`scopes` は取り込みの入れ子ごとの、行が効くかで、`none` は効かないところでの取り込みである。
`entered` は効くところで取り込んだ鍵を、新しい順に並べる。 -/
structure Folding (κ ε σ : Type*) where
  scopes : List (Option Bool)
  entered : List κ
  state : Except (Fault ε) σ

namespace Folding

def start (s : σ) : Folding κ ε σ := { scopes := [some true], entered := [], state := .ok s }

def isActive (f : Folding κ ε σ) : Bool := f.scopes.head? = some (some true)

def enter (f : Folding κ ε σ) (k : κ) : Folding κ ε σ :=
  if f.isActive then { f with scopes := some true :: f.scopes, entered := k :: f.entered }
  else { f with scopes := none :: f.scopes }

def leave (f : Folding κ ε σ) : Folding κ ε σ := { f with scopes := f.scopes.tail }

/-- 効かない取り込みの中では、`select` も効かない。 -/
def select (f : Folding κ ε σ) (active : Bool) : Folding κ ε σ :=
  match f.scopes with
  | [] => f
  | scope :: scopes => { f with scopes := scope.map (fun _ => active) :: scopes }

def line (f : Folding κ ε σ) (s : σ) : Item π ε σ → Folding κ ε σ
  | .splice _ => f
  | .select guard => f.select (guard s)
  | .text apply => if f.isActive then { f with state := .ok (apply s) } else f

/-- 失敗した後は、何も変えない。 -/
def step (item : ℓ → Item π ε σ) (f : Folding κ ε σ) (tok : Tok κ ε ℓ) : Folding κ ε σ :=
  match f.state with
  | .error _ => f
  | .ok s =>
      match tok with
      | .enter k => f.enter k
      | .leave => f.leave
      | .fault e => if f.isActive then { f with state := .error e } else f
      | .line l => f.line s (item l)

def run (item : ℓ → Item π ε σ) (f : Folding κ ε σ) (toks : List (Tok κ ε ℓ)) : Folding κ ε σ := toks.foldl (step item) f

variable {item : ℓ → Item π ε σ} {f : Folding κ ε σ}

@[simp] theorem run_nil : f.run item [] = f := rfl

@[simp] theorem run_cons (tok : Tok κ ε ℓ) (toks : List (Tok κ ε ℓ)) : f.run item (tok :: toks) = (f.step item tok).run item toks := rfl

@[simp] theorem run_append (toks toks' : List (Tok κ ε ℓ)) : f.run item (toks ++ toks') = (f.run item toks).run item toks' :=
  List.foldl_append

theorem run_of_error {e : Fault ε} (h : f.state = .error e) (toks : List (Tok κ ε ℓ)) : f.run item toks = f := by
  induction toks with
  | nil => rfl
  | cons tok toks ih =>
      have hstep : f.step item tok = f := by rw [step, h]
      rw [run_cons, hstep, ih]

/-- 取り込んだ鍵は忘れない。 -/
theorem entered_step (tok : Tok κ ε ℓ) : f.entered <:+ (f.step item tok).entered := by
  rw [step]
  cases f.state with
  | error e => exact List.suffix_refl _
  | ok s =>
      cases tok with
      | enter k =>
          dsimp only [enter]
          split
          · exact List.suffix_cons _ _
          · exact List.suffix_refl _
      | leave => exact List.suffix_refl _
      | fault e =>
          dsimp only
          split <;> exact List.suffix_refl _
      | line l =>
          dsimp only
          cases item l with
          | splice targets => exact List.suffix_refl _
          | select guard =>
              dsimp only [line, select]
              split <;> exact List.suffix_refl _
          | text apply =>
              dsimp only [line]
              split <;> exact List.suffix_refl _

theorem entered_run (toks : List (Tok κ ε ℓ)) : f.entered <:+ (f.run item toks).entered := by
  induction toks generalizing f with
  | nil => exact List.suffix_refl _
  | cons tok toks ih => exact (entered_step tok).trans ih

theorem nodup_of_run {toks : List (Tok κ ε ℓ)} (h : (f.run item toks).entered.Nodup) : f.entered.Nodup :=
  h.sublist (entered_run toks).sublist

/-! ### 効かない取り込み -/

theorem run_flatMap_of_forall {xs : List α} {toks : α → List (Tok κ ε ℓ)} (h : ∀ x, f.run item (toks x) = f) :
    f.run item (xs.flatMap toks) = f := by
  induction xs with
  | nil => rfl
  | cons x xs ih => rw [List.flatMap_cons, run_append, h x, ih]

theorem run_fault_of_inactive (h : f.isActive = false) (e : Fault ε) : f.run item [.fault e] = f := by
  rw [run_cons, run_nil, step]
  cases f.state with
  | error _ => rfl
  | ok s => simp [h]

theorem run_targets_of_inactive {enter : π → List (Tok κ ε ℓ)} (h : f.isActive = false)
    (henter : ∀ path, f.run item (enter path) = f) (targets : List (Except ε (List π))) :
    f.run item (targets.flatMap (flattenTarget enter)) = f := by
  refine run_flatMap_of_forall ?_
  intro target
  cases target with
  | error e => exact run_fault_of_inactive h _
  | ok paths => exact run_flatMap_of_forall henter

/-- 効かない取り込みの行は、`select` も含めて何も変えない。 -/
theorem run_lines_of_none {enter : π → List (Tok κ ε ℓ)} {scopes : List (Option Bool)} (h : f.scopes = none :: scopes)
    (henter : ∀ path, f.run item (enter path) = f) (lines : List ℓ) :
    f.run item (lines.flatMap (flattenLine item enter)) = f := by
  have hinactive : f.isActive = false := by simp [isActive, h]
  refine run_flatMap_of_forall ?_
  intro line
  rw [flattenLine]
  cases hitem : item line with
  | splice targets => exact run_targets_of_inactive hinactive henter targets
  | select guard =>
      obtain ⟨_, entered, state⟩ := f
      cases h
      cases state with
      | error _ => rfl
      | ok s => simp [step, hitem, Folding.line, select]
  | text apply =>
      cases hstate : f.state with
      | error _ => simp [step, hstate]
      | ok s => simp [step, hstate, hitem, Folding.line, hinactive]

theorem run_flatten_of_inactive [DecidableEq κ] {source : Source π κ ε ℓ} {n : Nat} {reading : List κ} {path : π}
    (h : f.isActive = false) : f.run item (source.flatten item n reading path) = f := by
  induction n generalizing f reading path with
  | zero => exact run_fault_of_inactive h _
  | succ n ih =>
      rw [Source.flatten]
      split
      · rfl
      cases hstate : f.state with
      | error e => exact run_of_error hstate _
      | ok s =>
          obtain ⟨scopes, entered, state⟩ := f
          cases hstate
          have henter : step item (⟨scopes, entered, .ok s⟩ : Folding κ ε σ) (.enter (source.key path) : Tok κ ε ℓ) =
              ⟨none :: scopes, entered, .ok s⟩ := by simp [step, Folding.enter, h]
          have hinactive : isActive (⟨none :: scopes, entered, .ok s⟩ : Folding κ ε σ) = false := by simp [isActive]
          rw [List.cons_append, run_cons, henter, run_append]
          cases source.read path with
          | error e =>
              dsimp only
              rw [run_fault_of_inactive hinactive]
              rfl
          | ok lines =>
              dsimp only
              rw [run_lines_of_none rfl fun path => ih hinactive]
              rfl

/-! ### 走査との一致 -/

/-- 畳み込みの結果を、走査の結果の形にする。 -/
def walked (f : Folding κ ε σ) : Except (Fault ε) (List κ × σ) := f.state.map fun s => (f.entered, s)

/-- `known` の鍵を読んだ後の走査 `walk` は、列 `toks` の畳み込みに、取り込んだ鍵が重ならない限り一致する。 -/
def Agree (item : ℓ → Item π ε σ) (known : List κ) (walk : List κ × σ → Except (Fault ε) (List κ × σ))
    (toks : List (Tok κ ε ℓ)) : Prop :=
  ∀ ⦃f : Folding κ ε σ⦄ ⦃s : σ⦄, f.state = .ok s → f.isActive = true → known ⊆ f.entered →
    (f.run item toks).entered.Nodup → walk (f.entered, s) = (f.run item toks).walked ∧
      ∀ s', (f.run item toks).state = .ok s' → (f.run item toks).scopes = f.scopes

variable {known : List κ} {walk : List κ × σ → Except (Fault ε) (List κ × σ)} {toks : List (Tok κ ε ℓ)}

theorem Agree.nil : Agree item known .ok ([] : List (Tok κ ε ℓ)) := by
  intro f s hstate _ _ _
  refine ⟨?_, fun _ _ => rfl⟩
  rw [run_nil, walked, hstate]
  rfl

theorem Agree.append {walk' : List κ × σ → Except (Fault ε) (List κ × σ)} {toks' : List (Tok κ ε ℓ)}
    (h : Agree item known walk toks) (h' : Agree item known walk' toks') :
    Agree item known (fun t => walk t >>= walk') (toks ++ toks') := by
  intro f s hstate hactive hknown hnodup
  rw [run_append] at hnodup ⊢
  obtain ⟨hwalk, hscopes⟩ := h hstate hactive hknown (nodup_of_run hnodup)
  dsimp only
  rw [hwalk]
  cases hmid : (f.run item toks).state with
  | error e =>
      rw [run_of_error hmid]
      refine ⟨?_, ?_⟩
      · rw [walked, hmid]
        rfl
      · intro s' hs'
        cases hmid.symm.trans hs'
  | ok s₁ =>
      have hscopes₁ := hscopes s₁ hmid
      have hactive₁ : (f.run item toks).isActive = true := by rw [isActive, hscopes₁, ← isActive, hactive]
      have hknown₁ : known ⊆ (f.run item toks).entered := fun k hk => (entered_run toks).subset (hknown hk)
      obtain ⟨hwalk', hscopes'⟩ := h' hmid hactive₁ hknown₁ hnodup
      refine ⟨?_, fun s' hs' => (hscopes' s' hs').trans hscopes₁⟩
      rw [walked, hmid]
      exact hwalk'

theorem Agree.foldlM {xs : List α} {walk : α → List κ × σ → Except (Fault ε) (List κ × σ)} {toks : α → List (Tok κ ε ℓ)}
    (h : ∀ x, Agree item known (walk x) (toks x)) :
    Agree item known (fun t => xs.foldlM (fun t x => walk x t) t) (xs.flatMap toks) := by
  induction xs with
  | nil => exact .nil
  | cons x xs ih => exact (h x).append ih

theorem Agree.visitTargets {enter : π → List κ × σ → Except (Fault ε) (List κ × σ)} {toks : π → List (Tok κ ε ℓ)}
    (h : ∀ path, Agree item known (enter path) (toks path)) (targets : List (Except ε (List π))) :
    Agree item known (Splice.visitTargets enter targets) (targets.flatMap (flattenTarget toks)) := by
  suffices htarget : ∀ target, Agree item known (fun t => visitTarget enter t target) (flattenTarget toks target) from
    Agree.foldlM htarget
  intro target
  cases target with
  | ok paths => exact Agree.foldlM h
  | error e =>
      intro f s hstate hactive _ _
      have hstep : f.run item (flattenTarget toks (.error e)) = { f with state := .error (.raised e) } := by
        simp [flattenTarget, step, hstate, hactive]
      rw [hstep]
      refine ⟨rfl, ?_⟩
      intro s' hs'
      cases hs'

theorem run_select {line : ℓ} {guard : σ → Bool} (hitem : item line = .select guard) (active : Bool)
    (scopes : List (Option Bool)) (entered : List κ) (s : σ) :
    run item ⟨some active :: scopes, entered, .ok s⟩ [.line line] = ⟨some (guard s) :: scopes, entered, .ok s⟩ := by
  simp [step, hitem, Folding.line, select]

theorem run_text {line : ℓ} {apply : σ → σ} (hitem : item line = .text apply) (active : Bool)
    (scopes : List (Option Bool)) (entered : List κ) (s : σ) :
    run item ⟨some active :: scopes, entered, .ok s⟩ [.line line] =
      ⟨some active :: scopes, entered, .ok (if active then apply s else s)⟩ := by
  cases active <;> simp [step, hitem, Folding.line, isActive]

/-- ファイルの行の走査は、行の列の畳み込みに一致する。 -/
theorem walkLines_eq {enter : π → List κ × σ → Except (Fault ε) (List κ × σ)} {toks : π → List (Tok κ ε ℓ)}
    (h : ∀ path, Agree item known (enter path) (toks path))
    (hdead : ∀ path (f : Folding κ ε σ), f.isActive = false → f.run item (toks path) = f) {lines : List ℓ} {active : Bool}
    {entered : List κ} {s : σ} {scopes : List (Option Bool)} (hknown : known ⊆ entered)
    (hnodup : (run item ⟨some active :: scopes, entered, .ok s⟩ (lines.flatMap (flattenLine item toks))).entered.Nodup) :
    walkLines (fun active s line => (item line).effect active s) enter lines active (entered, s) =
        (run item ⟨some active :: scopes, entered, .ok s⟩ (lines.flatMap (flattenLine item toks))).walked ∧
      ∀ s', (run item ⟨some active :: scopes, entered, .ok s⟩ (lines.flatMap (flattenLine item toks))).state = .ok s' →
        (run item ⟨some active :: scopes, entered, .ok s⟩ (lines.flatMap (flattenLine item toks))).scopes.tail = scopes := by
  induction lines generalizing active entered s with
  | nil => exact ⟨rfl, fun _ _ => rfl⟩
  | cons line lines ih =>
      rw [List.flatMap_cons, run_append] at hnodup ⊢
      rw [walkLines]
      cases hitem : item line with
      | select guard =>
          have hline : flattenLine item toks line = [.line line] := by rw [flattenLine, hitem]
          rw [hline, run_select hitem] at hnodup ⊢
          exact ih hknown hnodup
      | text apply =>
          have hline : flattenLine item toks line = [.line line] := by rw [flattenLine, hitem]
          rw [hline, run_text hitem] at hnodup ⊢
          cases active with
          | true => exact ih hknown hnodup
          | false => exact ih hknown hnodup
      | splice targets =>
          have hline : flattenLine item toks line = targets.flatMap (flattenTarget toks) := by rw [flattenLine, hitem]
          rw [hline] at hnodup ⊢
          cases active with
          | false =>
              have hinactive : isActive (⟨some false :: scopes, entered, .ok s⟩ : Folding κ ε σ) = false := by
                simp [isActive]
              rw [run_targets_of_inactive hinactive fun path => hdead path _ hinactive] at hnodup ⊢
              exact ih hknown hnodup
          | true =>
              have hactive : isActive (⟨some true :: scopes, entered, .ok s⟩ : Folding κ ε σ) = true := by simp [isActive]
              obtain ⟨hwalk, hscopes⟩ := Agree.visitTargets h targets rfl hactive hknown (nodup_of_run hnodup)
              have heffect : Item.effect true s (Item.splice targets : Item π ε σ) = .visit targets := rfl
              dsimp only at hwalk hscopes
              rw [heffect]
              dsimp only
              rw [hwalk]
              have hsuffix : entered <:+
                  (run item ⟨some true :: scopes, entered, .ok s⟩ (targets.flatMap (flattenTarget toks))).entered :=
                entered_run (f := ⟨some true :: scopes, entered, .ok s⟩) _
              have hsubset := hsuffix.subset
              generalize run item ⟨some true :: scopes, entered, .ok s⟩ (targets.flatMap (flattenTarget toks)) = f₁
                at hnodup hscopes hsubset ⊢
              obtain ⟨scopes₁, entered₁, state₁⟩ := f₁
              cases state₁ with
              | error e =>
                  rw [run_of_error rfl]
                  refine ⟨rfl, ?_⟩
                  intro s' hs'
                  cases hs'
              | ok s₁ =>
                  obtain rfl := hscopes s₁ rfl
                  exact ih (fun k hk => hsubset (hknown hk)) hnodup

variable [DecidableEq κ] {source : Source π κ ε ℓ}

/-- 効くところの取り込みで、読み終えたファイルに再び着かない限り、一度だけ読む走査は、置き換えた列の畳み込みに一致する。 -/
theorem agree_walkOnce (source : Source π κ ε ℓ) (item : ℓ → Item π ε σ) (n : Nat) (reading : List κ) (path : π) :
    Agree item reading (source.walkOnce (fun _ active s line => (item line).effect active s) true n path)
      (source.flatten item n reading path) := by
  induction n generalizing reading path with
  | zero =>
      intro f s hstate hactive _ _
      have hrun : f.run item (source.flatten item 0 reading path) = { f with state := .error .stuck } := by
        simp [Source.flatten, step, hstate, hactive]
      rw [hrun]
      refine ⟨rfl, ?_⟩
      intro s' hs'
      cases hs'
  | succ n ih =>
      intro f s hstate hactive hknown hnodup
      rw [Source.flatten] at hnodup ⊢
      rw [Source.walkOnce]
      by_cases hreading : source.key path ∈ reading
      · rw [if_pos hreading, if_pos (hknown hreading), run_nil, walked, hstate]
        exact ⟨rfl, fun _ _ => rfl⟩
      obtain ⟨scopes, entered, state⟩ := f
      cases hstate
      have henter : step item (⟨scopes, entered, .ok s⟩ : Folding κ ε σ) (.enter (source.key path) : Tok κ ε ℓ) =
          ⟨some true :: scopes, source.key path :: entered, .ok s⟩ := by simp [step, Folding.enter, hactive]
      rw [if_neg hreading, List.cons_append, run_cons, henter, run_append] at hnodup ⊢
      have hnew : source.key path ∉ entered := (List.nodup_cons.mp (nodup_of_run (nodup_of_run hnodup))).1
      rw [if_neg hnew]
      cases hread : source.read path with
      | error e =>
          have hactive' : isActive (⟨some true :: scopes, source.key path :: entered, .ok s⟩ : Folding κ ε σ) = true := by
            simp [isActive]
          have hfault : run item ⟨some true :: scopes, source.key path :: entered, .ok s⟩
              ([.fault (.raised e)] : List (Tok κ ε ℓ)) =
                ⟨some true :: scopes, source.key path :: entered, .error (.raised e)⟩ := by
            simp [step, hactive']
          dsimp only
          rw [hfault, run_of_error rfl]
          refine ⟨rfl, ?_⟩
          intro s' hs'
          cases hs'
      | ok lines =>
          rw [hread] at hnodup
          dsimp only at hnodup ⊢
          have hknown' : source.key path :: reading ⊆ source.key path :: entered := List.cons_subset_cons _ hknown
          obtain ⟨hwalk, hscopes⟩ := walkLines_eq (ih (source.key path :: reading))
            (fun path f hinactive => run_flatten_of_inactive hinactive) hknown' (nodup_of_run hnodup)
          rw [hwalk]
          generalize run item ⟨some true :: scopes, source.key path :: entered, .ok s⟩
            (lines.flatMap (flattenLine item (source.flatten item n (source.key path :: reading)))) = f₁ at hscopes ⊢
          obtain ⟨scopes₁, entered₁, state₁⟩ := f₁
          cases state₁ with
          | error e =>
              rw [run_of_error rfl]
              refine ⟨rfl, ?_⟩
              intro s' hs'
              cases hs'
          | ok s₁ =>
              refine ⟨rfl, fun _ _ => ?_⟩
              exact hscopes s₁ rfl

end Folding

/-! ## 置き換えの深さ -/

section Depth

variable [DecidableEq κ] {source : Source π κ ε ℓ} {item : ℓ → Item π ε σ} {enter : π → List (Tok κ ε ℓ)}

omit [DecidableEq κ] in
theorem stuck_notMem_flattenTarget (h : ∀ path, .fault .stuck ∉ enter path) (target : Except ε (List π)) :
    .fault .stuck ∉ flattenTarget enter target := by
  intro hmem
  cases target with
  | error e => simp [flattenTarget] at hmem
  | ok paths =>
      obtain ⟨path, _, hmem⟩ := List.mem_flatMap.mp hmem
      exact h path hmem

omit [DecidableEq κ] in
theorem stuck_notMem_flattenLine (h : ∀ path, .fault .stuck ∉ enter path) (line : ℓ) :
    .fault .stuck ∉ flattenLine item enter line := by
  intro hmem
  rw [flattenLine] at hmem
  cases hitem : item line with
  | select _ | text _ => simp [hitem] at hmem
  | splice targets =>
      rw [hitem] at hmem
      obtain ⟨target, _, hmem⟩ := List.mem_flatMap.mp hmem
      exact stuck_notMem_flattenTarget h target hmem

/-- 読んでいない鍵より深い入れ子まで許せば、列は上限に達しない。 -/
theorem stuck_notMem_flatten {n : Nat} {reading : List κ} {path : π} (h : source.unread reading < n) :
    .fault .stuck ∉ source.flatten item n reading path := by
  induction n generalizing reading path with
  | zero => exact absurd h (Nat.not_lt_zero _)
  | succ n ih =>
      rw [Source.flatten]
      by_cases hreading : source.key path ∈ reading
      · simp [hreading]
      rw [if_neg hreading]
      cases hread : source.read path with
      | error e => simp
      | ok lines =>
          have hlt := Source.unread_cons_lt (source.mem_keys path lines hread) hreading
          have hlines : .fault .stuck ∉
              lines.flatMap (flattenLine item (source.flatten item n (source.key path :: reading))) := by
            intro hmem
            obtain ⟨line, _, hmem⟩ := List.mem_flatMap.mp hmem
            exact stuck_notMem_flattenLine (fun path => ih (by omega)) line hmem
          simp [hlines]

omit [DecidableEq κ] in
theorem Folding.run_ne_stuck {f : Folding κ ε σ} {toks : List (Tok κ ε ℓ)} (hf : f.state ≠ .error .stuck)
    (h : .fault .stuck ∉ toks) : (f.run item toks).state ≠ .error .stuck := by
  induction toks generalizing f with
  | nil => exact hf
  | cons tok toks ih =>
      obtain ⟨hhead, htail⟩ := List.ne_and_not_mem_of_not_mem_cons h
      refine ih ?_ htail
      rw [Folding.step]
      cases hstate : f.state with
      | error e =>
          dsimp only
          exact hf
      | ok s =>
          cases tok with
          | enter k => simp [Folding.enter, apply_ite Folding.state, hstate]
          | leave => simp [Folding.leave, hstate]
          | fault e =>
              dsimp only
              split
              · intro heq
                cases heq
                exact hhead rfl
              · exact hf
          | line l =>
              dsimp only
              cases item l with
              | splice targets => exact hf
              | select guard =>
                  dsimp only [Folding.line, Folding.select]
                  split <;> exact hf
              | text apply =>
                  dsimp only [Folding.line]
                  split
                  · simp
                  · exact hf

end Depth

/-! ## 状態の対応 -/

/-- 行の種類が、状態の対応 `g` のもとで同じである。 -/
inductive Item.Maps (g : σ → τ) : Item π ε σ → Item π ε τ → Prop
  | splice (targets : List (Except ε (List π))) : Maps g (.splice targets) (.splice targets)
  | select {guard : σ → Bool} {guard' : τ → Bool} (h : ∀ s, guard' (g s) = guard s) : Maps g (.select guard) (.select guard')
  | text {apply : σ → σ} {apply' : τ → τ} (h : ∀ s, apply' (g s) = g (apply s)) : Maps g (.text apply) (.text apply')

section Maps

variable {item : ℓ → Item π ε σ} {item' : ℓ → Item π ε τ} {g : σ → τ}

theorem flatten_congr [DecidableEq κ] (source : Source π κ ε ℓ) (h : ∀ line, (item line).Maps g (item' line)) (n : Nat)
    (reading : List κ) (path : π) : source.flatten item' n reading path = source.flatten item n reading path := by
  induction n generalizing reading path with
  | zero => rfl
  | succ n ih =>
      have hline : flattenLine item' (source.flatten item' n (source.key path :: reading)) =
          flattenLine item (source.flatten item n (source.key path :: reading)) := by
        funext line
        rw [funext fun path' => ih (source.key path :: reading) path', flattenLine, flattenLine]
        have hmaps := h line
        generalize item line = i, item' line = i' at hmaps
        cases hmaps <;> rfl
      rw [Source.flatten, Source.flatten, hline]

def Folding.map (g : σ → τ) (f : Folding κ ε σ) : Folding κ ε τ :=
  { scopes := f.scopes, entered := f.entered, state := f.state.map g }

theorem Folding.map_step (h : ∀ line, (item line).Maps g (item' line)) (f : Folding κ ε σ) (tok : Tok κ ε ℓ) :
    (f.map g).step item' tok = (f.step item tok).map g := by
  obtain ⟨scopes, entered, state⟩ := f
  cases state with
  | error e => rfl
  | ok s =>
      cases tok with
      | enter k => by_cases hactive : scopes.head? = some (some true) <;> simp [step, map, Except.map, enter, isActive, hactive]
      | leave => rfl
      | fault e => by_cases hactive : scopes.head? = some (some true) <;> simp [step, map, Except.map, isActive, hactive]
      | line l =>
          have hmaps := h l
          simp only [step, map, Except.map]
          generalize item l = i, item' l = i' at hmaps
          cases hmaps with
          | splice targets => rfl
          | select hguard => cases scopes <;> simp [line, select, hguard]
          | text happly => by_cases hactive : scopes.head? = some (some true) <;> simp [line, isActive, hactive, happly]

theorem Folding.map_run (h : ∀ line, (item line).Maps g (item' line)) (toks : List (Tok κ ε ℓ)) (f : Folding κ ε σ) :
    (f.map g).run item' toks = (f.run item toks).map g := by
  induction toks generalizing f with
  | nil => rfl
  | cons tok toks ih => rw [run_cons, run_cons, map_step h, ih]

end Maps

end IsekaiTerminal.Lib.Splice
