import Mathlib

/-!
# 取り込みの行を持つファイルの走査

行が別のファイルを取り込むテキストの走査を、ファイルの読み方、行の効果を引数にして扱う。
`walkOnce` は一度読んだファイルを二度と読まない走査である。
-/

namespace IsekaiTerminal.Lib.Splice

variable {π κ ε ℓ L σ α τ : Type*}

/-- 走査の失敗。`stuck` は、入れ子の深さの上限に達したことを表す。 -/
inductive Fault (ε : Type*)
  | stuck
  | raised (e : ε)
deriving DecidableEq

/-- 読めるファイルの鍵は、有限個の `keys` のどれかである。 -/
structure Source (π κ ε ℓ : Type*) where
  key : π → κ
  read : π → Except ε (List ℓ)
  keys : List κ
  mem_keys : ∀ path lines, read path = .ok lines → key path ∈ keys

/-- 1 行の効果。`visit` の取り込み先は、書かれた順の組で、組の展開は失敗することがある。 -/
inductive Effect (π ε L σ : Type*)
  | skip
  | select (l : L)
  | update (s : σ)
  | fail (e : ε)
  | visit (targets : List (Except ε (List π)))

def Effect.map (f : σ → τ) : Effect π ε L σ → Effect π ε L τ
  | .skip => .skip
  | .select l => .select l
  | .update s => .update (f s)
  | .fail e => .fail e
  | .visit targets => .visit targets

/-! ## 失敗しうる計算の規則 -/

/-- 成功すれば `Q`、失敗すれば `E` が成り立つ。 -/
def Ends (r : Except ε τ) (Q : τ → Prop) (E : ε → Prop) : Prop :=
  match r with
  | .ok t => Q t
  | .error e => E e

theorem Ends.mono {r : Except ε τ} {Q Q' : τ → Prop} {E : ε → Prop} (h : Ends r Q E) (hQ : ∀ t, Q t → Q' t) :
    Ends r Q' E := by
  cases r with
  | ok t => exact hQ t h
  | error e => exact h

theorem Ends.bind {r : Except ε τ} {f : τ → Except ε τ} {Q Q' : τ → Prop} {E : ε → Prop} (h : Ends r Q E)
    (hf : ∀ t, Q t → Ends (f t) Q' E) : Ends (r >>= f) Q' E := by
  cases r with
  | ok t => exact hf t h
  | error e => exact h

theorem Ends.foldlM {f : τ → α → Except ε τ} {I : τ → Prop} {E : ε → Prop} (hf : ∀ t x, I t → Ends (f t x) I E)
    (xs : List α) {t : τ} (ht : I t) : Ends (xs.foldlM f t) I E := by
  induction xs generalizing t with
  | nil => exact ht
  | cons x xs ih =>
      rw [List.foldlM_cons]
      exact Ends.bind (hf t x ht) fun t ht => ih ht

/-! ## 一度だけ読む走査 -/

def visitTarget (enter : π → τ → Except (Fault ε) τ) (t : τ) : Except ε (List π) → Except (Fault ε) τ
  | .error e => .error (.raised e)
  | .ok paths => paths.foldlM (fun t path => enter path t) t

def visitTargets (enter : π → τ → Except (Fault ε) τ) (targets : List (Except ε (List π))) (t : τ) :
    Except (Fault ε) τ := targets.foldlM (visitTarget enter) t

/-- 1 つのファイルの行を順に読む。`l` はファイルの中だけの状態、`t.2` は全体の状態である。 -/
def walkLines (effect : L → σ → ℓ → Effect π ε L σ) (enter : π → α × σ → Except (Fault ε) (α × σ)) :
    List ℓ → L → α × σ → Except (Fault ε) (α × σ)
  | [], _, t => .ok t
  | line :: lines, l, t =>
      match effect l t.2 line with
      | .skip => walkLines effect enter lines l t
      | .select l => walkLines effect enter lines l t
      | .update s => walkLines effect enter lines l (t.1, s)
      | .fail e => .error (.raised e)
      | .visit targets => do
          let t ← visitTargets enter targets t
          walkLines effect enter lines l t

theorem Ends.visitTargets {enter : π → τ → Except (Fault ε) τ} {I : τ → Prop} {E : Fault ε → Prop}
    (henter : ∀ path t, I t → Ends (enter path t) I E) (hraised : ∀ e, E (.raised e))
    (targets : List (Except ε (List π))) {t : τ} (ht : I t) : Ends (visitTargets enter targets t) I E := by
  refine Ends.foldlM ?_ targets ht
  intro t target ht
  cases target with
  | error e => exact hraised e
  | ok paths => exact Ends.foldlM (fun t path ht => henter path t ht) paths ht

/-- 取り込みと更新が保つ性質は、ファイルの行を読んでも保たれる。 -/
theorem Ends.walkLines {effect : L → σ → ℓ → Effect π ε L σ} {enter : π → α × σ → Except (Fault ε) (α × σ)}
    {I : α × σ → Prop} {E : Fault ε → Prop} (henter : ∀ path t, I t → Ends (enter path t) I E)
    (hraised : ∀ e, E (.raised e)) (hupdate : ∀ a s s', I (a, s) → I (a, s')) (lines : List ℓ) {l : L} {t : α × σ}
    (ht : I t) : Ends (walkLines effect enter lines l t) I E := by
  induction lines generalizing l t with
  | nil => exact ht
  | cons line lines ih =>
      rw [Splice.walkLines]
      cases effect l t.2 line with
      | skip => exact ih ht
      | select l => exact ih ht
      | update s => exact ih (hupdate _ _ _ ht)
      | fail e => exact hraised e
      | visit targets => exact Ends.bind (Ends.visitTargets henter hraised targets ht) fun t ht => ih ht

theorem foldlM_congr_of_ne {f g : τ → α → Except ε τ} {e : ε} (hfg : ∀ t x, f t x ≠ .error e → g t x = f t x) (xs : List α)
    {t : τ} (h : xs.foldlM f t ≠ .error e) : xs.foldlM g t = xs.foldlM f t := by
  induction xs generalizing t with
  | nil => rfl
  | cons x xs ih =>
      rw [List.foldlM_cons] at h ⊢
      rw [List.foldlM_cons]
      cases hx : f t x with
      | error e' =>
          rw [hx] at h
          rw [hfg t x (by rw [hx]; exact h), hx]
          rfl
      | ok t' =>
          rw [hx] at h
          rw [hfg t x (by rw [hx]; simp), hx]
          exact ih h

theorem visitTargets_congr_of_ne {enter enter' : π → τ → Except (Fault ε) τ}
    (henter : ∀ path t, enter path t ≠ .error .stuck → enter' path t = enter path t) {targets : List (Except ε (List π))}
    {t : τ} (h : visitTargets enter targets t ≠ .error .stuck) : visitTargets enter' targets t = visitTargets enter targets t := by
  refine foldlM_congr_of_ne ?_ targets h
  intro t target htarget
  cases target with
  | error e => rfl
  | ok paths => exact foldlM_congr_of_ne (fun t path hpath => henter path t hpath) paths htarget

theorem walkLines_congr_of_ne {effect : L → σ → ℓ → Effect π ε L σ} {enter enter' : π → α × σ → Except (Fault ε) (α × σ)}
    (henter : ∀ path t, enter path t ≠ .error .stuck → enter' path t = enter path t) {lines : List ℓ} {l : L} {t : α × σ}
    (h : walkLines effect enter lines l t ≠ .error .stuck) :
    walkLines effect enter' lines l t = walkLines effect enter lines l t := by
  induction lines generalizing l t with
  | nil => rfl
  | cons line lines ih =>
      rw [walkLines] at h ⊢
      rw [walkLines]
      cases heffect : effect l t.2 line with
      | skip | select _ | update _ =>
          rw [heffect] at h
          exact ih h
      | fail e => rfl
      | visit targets =>
          rw [heffect] at h
          dsimp only at h ⊢
          cases htargets : visitTargets enter targets t with
          | error e =>
              rw [htargets] at h
              rw [visitTargets_congr_of_ne henter (by rw [htargets]; exact h), htargets]
              rfl
          | ok t' =>
              rw [htargets] at h
              rw [visitTargets_congr_of_ne henter (by rw [htargets]; simp), htargets]
              exact ih h

namespace Source

variable [DecidableEq κ] (source : Source π κ ε ℓ)

/-- 読んだファイルの鍵を `visited` に残し、残っているファイルは読まない。 -/
def walkOnce (effect : π → L → σ → ℓ → Effect π ε L σ) (start : L) :
    Nat → π → List κ × σ → Except (Fault ε) (List κ × σ)
  | 0, _, _ => .error .stuck
  | n + 1, path, t =>
      if source.key path ∈ t.1 then .ok t
      else
        match source.read path with
        | .error e => .error (.raised e)
        | .ok lines => walkLines (effect path) (walkOnce effect start n) lines start (source.key path :: t.1, t.2)

/-- まだ読んでいない鍵の数。 -/
def unread (visited : List κ) : Nat := source.keys.countP fun k => k ∉ visited

variable {source}

theorem unread_le_of_subset {visited visited' : List κ} (h : visited ⊆ visited') :
    source.unread visited' ≤ source.unread visited := by
  refine List.countP_mono_left ?_
  intro k _ hk
  simp only [decide_eq_true_eq] at hk ⊢
  exact fun hmem => hk (h hmem)

theorem unread_cons_lt {visited : List κ} {k : κ} (hk : k ∈ source.keys) (hnew : k ∉ visited) :
    source.unread (k :: visited) < source.unread visited := by
  obtain ⟨before, after, heq⟩ := List.append_of_mem hk
  have hmono (ks : List κ) : (ks.countP fun k' => k' ∉ k :: visited) ≤ ks.countP fun k' => k' ∉ visited := by
    refine List.countP_mono_left ?_
    intro k' _ hk'
    simp only [decide_eq_true_eq] at hk' ⊢
    exact fun hmem => hk' (List.mem_cons_of_mem _ hmem)
  have hbefore := hmono before
  have hafter := hmono after
  have hold : decide (k ∉ visited) = true := by simpa using hnew
  have hread : decide (k ∉ k :: visited) = false := by simp
  rw [unread, unread, heq, List.countP_append, List.countP_append, List.countP_cons, List.countP_cons, hold, hread]
  simp only [Bool.false_eq_true, if_false, if_true]
  omega

theorem unread_nil_le (source : Source π κ ε ℓ) : source.unread [] ≤ source.keys.length := List.countP_le_length

/-- 読んでいない鍵より深い入れ子まで許せば、走査は上限に達せず、読んだファイルを忘れない。 -/
theorem ends_walkOnce {effect : π → L → σ → ℓ → Effect π ε L σ} {start : L} {n : Nat} {path : π} {t : List κ × σ}
    (h : source.unread t.1 < n) :
    Ends (source.walkOnce effect start n path t) (fun t' => t.1 ⊆ t'.1) (· ≠ .stuck) := by
  induction n generalizing path t with
  | zero => exact absurd h (Nat.not_lt_zero _)
  | succ n ih =>
      rw [walkOnce]
      by_cases hvisited : source.key path ∈ t.1
      · rw [if_pos hvisited]
        exact List.Subset.refl _
      · rw [if_neg hvisited]
        cases hread : source.read path with
        | error e =>
            intro hstuck
            cases hstuck
        | ok lines =>
            have hlt := unread_cons_lt (source.mem_keys path lines hread) hvisited
            refine Ends.walkLines (I := fun t' => source.key path :: t.1 ⊆ t'.1) ?_ ?_ ?_ lines ?_ |>.mono ?_
            · intro path' t' hsubset
              have hunread : source.unread t'.1 ≤ source.unread (source.key path :: t.1) := unread_le_of_subset hsubset
              exact (ih (by omega)).mono fun t'' ht'' => List.Subset.trans hsubset ht''
            · intro e hstuck
              cases hstuck
            · intro _ _ _ hsubset
              exact hsubset
            · exact List.Subset.refl _
            · intro t' hsubset
              exact List.Subset.trans (List.subset_cons_self _ _) hsubset

theorem walkOnce_ne_stuck {effect : π → L → σ → ℓ → Effect π ε L σ} {start : L} {n : Nat} {path : π} {t : List κ × σ}
    (h : source.unread t.1 < n) : source.walkOnce effect start n path t ≠ .error .stuck := by
  intro hstuck
  have hends : Ends (source.walkOnce effect start n path t) (fun t' => t.1 ⊆ t'.1) (· ≠ .stuck) := ends_walkOnce h
  rw [hstuck] at hends
  exact hends rfl

/-- 上限に達しない走査は、上限を上げても変わらない。 -/
theorem walkOnce_succ {effect : π → L → σ → ℓ → Effect π ε L σ} {start : L} {n : Nat} {path : π} {t : List κ × σ}
    (h : source.walkOnce effect start n path t ≠ .error .stuck) :
    source.walkOnce effect start (n + 1) path t = source.walkOnce effect start n path t := by
  induction n generalizing path t with
  | zero => exact absurd rfl h
  | succ n ih =>
      rw [walkOnce] at h ⊢
      rw [walkOnce]
      by_cases hvisited : source.key path ∈ t.1
      · rw [if_pos hvisited, if_pos hvisited]
      · rw [if_neg hvisited] at h ⊢
        rw [if_neg hvisited]
        cases hread : source.read path with
        | error e => rfl
        | ok lines =>
            rw [hread] at h
            exact walkLines_congr_of_ne (fun path t hne => ih hne) h

/-! ## 走査が読むもの

走査が読む行と、取り込みで着くファイルが、もう 1 つの走査の読み方と合うことを、走査に沿って調べる。`peers` は、もう 1 つの走査の
取り込み先であり、失敗の後は調べない。
-/

section Followed

/-- 組のファイルに順に着く。 -/
def pathsFollowed (enter : π → τ → Except (Fault ε) τ) (ok : π → π → τ → Bool) : List π → List π → τ → Bool
  | [], [], _ => true
  | path :: paths, peer :: peers, t =>
      ok path peer t &&
        match enter path t with
        | .ok t => pathsFollowed enter ok paths peers t
        | .error _ => true
  | _, _, _ => false

def targetsFollowed (enter : π → τ → Except (Fault ε) τ) (ok : π → π → τ → Bool) :
    List (Except ε (List π)) → List (Option (List π)) → τ → Bool
  | [], [], _ => true
  | .error _ :: _, none :: _, _ => true
  | .ok paths :: targets, some peer :: peers, t =>
      pathsFollowed enter ok paths peer t &&
        match visitTarget enter t (.ok paths) with
        | .ok t => targetsFollowed enter ok targets peers t
        | .error _ => true
  | _, _, _ => false

def linesFollowed (effect : L → σ → ℓ → Effect π ε L σ) (enter : π → α × σ → Except (Fault ε) (α × σ))
    (ok : π → π → α × σ → Bool) (good : L → ℓ → Bool) (peers : ℓ → List (Option (List π))) :
    List ℓ → L → α × σ → Bool
  | [], _, _ => true
  | line :: lines, l, t =>
      good l line &&
        match effect l t.2 line with
        | .skip => linesFollowed effect enter ok good peers lines l t
        | .select l => linesFollowed effect enter ok good peers lines l t
        | .update s => linesFollowed effect enter ok good peers lines l (t.1, s)
        | .fail _ => true
        | .visit targets =>
            targetsFollowed enter ok targets (peers line) t &&
              match visitTargets enter targets t with
              | .ok t => linesFollowed effect enter ok good peers lines l t
              | .error _ => true

/-- `same` は 2 つのパスが同じファイルを指すこと、`good` は行が同じ種類に読まれることである。 -/
def followed (effect : π → L → σ → ℓ → Effect π ε L σ) (start : L)
    (same : π → π → Bool) (good : π → π → L → ℓ → Bool) (peers : π → ℓ → List (Option (List π))) :
    Nat → π → π → List κ × σ → Bool
  | 0, _, _, _ => true
  | n + 1, path, peer, t =>
      same path peer &&
        (decide (source.key path ∈ t.1) ||
          match source.read path with
          | .error _ => true
          | .ok lines =>
              linesFollowed (effect path) (source.walkOnce effect start n)
                (followed effect start same good peers n) (good path peer) (peers peer) lines start
                (source.key path :: t.1, t.2))

end Followed

end Source

/-! ## 2 つの走査の対応 -/

/-- 両方が成功して対応するか、両方が失敗する。 -/
def Lockstep {ε₁ ε₂ τ₁ τ₂ : Type*} (R : τ₁ → τ₂ → Prop) : Except ε₁ τ₁ → Except ε₂ τ₂ → Prop
  | .ok t₁, .ok t₂ => R t₁ t₂
  | .error _, .error _ => True
  | _, _ => False

section Lockstep

variable {ε₁ ε₂ σ₁ σ₂ τ₁ τ₂ L₁ L₂ : Type*} {R : τ₁ → τ₂ → Prop}

theorem Lockstep.bind {r₁ : Except ε₁ τ₁} {r₂ : Except ε₂ τ₂} {f₁ : τ₁ → Except ε₁ τ₁} {f₂ : τ₂ → Except ε₂ τ₂}
    (h : Lockstep R r₁ r₂) (hf : ∀ t₁ t₂, r₁ = .ok t₁ → R t₁ t₂ → Lockstep R (f₁ t₁) (f₂ t₂)) :
    Lockstep R (r₁ >>= f₁) (r₂ >>= f₂) := by
  cases r₁ with
  | ok t₁ =>
      cases r₂ with
      | ok t₂ => exact hf t₁ t₂ rfl h
      | error e₂ => exact False.elim h
  | error e₁ =>
      cases r₂ with
      | ok t₂ => exact False.elim h
      | error e₂ => exact h

/-- ファイルの中の位置を変えない効果と、その後の状態。 -/
inductive Idles (s : σ) : Effect π ε L σ → σ → Prop
  | skip : Idles s .skip s
  | update (s' : σ) : Idles s (.update s') s'
  | visitNone : Idles s (.visit []) s

theorem walkLines_idle {effect : L → σ → ℓ → Effect π ε L σ} {enter : π → α × σ → Except (Fault ε) (α × σ)} {line : ℓ}
    {l : L} {t : α × σ} {s' : σ} (h : Idles t.2 (effect l t.2 line) s') (lines : List ℓ) :
    walkLines effect enter (line :: lines) l t = walkLines effect enter lines l (t.1, s') := by
  rw [walkLines]
  generalize effect l t.2 line = e at h
  cases h with
  | skip | update | visitNone => rfl

theorem linesFollowed_idle {effect : L → σ → ℓ → Effect π ε L σ} {enter : π → α × σ → Except (Fault ε) (α × σ)}
    {ok : π → π → α × σ → Bool} {good : L → ℓ → Bool} {peers : ℓ → List (Option (List π))} {line : ℓ} {lines : List ℓ}
    {l : L} {t : α × σ} {s' : σ} (h : Idles t.2 (effect l t.2 line) s')
    (hf : Source.linesFollowed effect enter ok good peers (line :: lines) l t = true) :
    Source.linesFollowed effect enter ok good peers lines l (t.1, s') = true := by
  rw [Source.linesFollowed, Bool.and_eq_true] at hf
  have hrest := hf.2
  generalize effect l t.2 line = e at h hrest
  cases h with
  | skip | update => exact hrest
  | visitNone =>
      rw [Bool.and_eq_true] at hrest
      exact hrest.2

/-- 1 行の効果が対応する。`RL` はファイルの中の位置の対応、`peers` は第 2 の走査の取り込み先である。 -/
inductive EffectAlike (peers : List (Option (List π))) (RL : L₁ → L₂ → Prop) (RS : σ₁ → σ₂ → Prop) (l₁ : L₁) (l₂ : L₂)
    (s₁ : σ₁) (s₂ : σ₂) : Effect π ε₁ L₁ σ₁ → Effect π ε₂ L₂ σ₂ → Prop
  | idle {effect₁ : Effect π ε₁ L₁ σ₁} {effect₂ : Effect π ε₂ L₂ σ₂} {s₁' : σ₁} {s₂' : σ₂} (h₁ : Idles s₁ effect₁ s₁')
      (h₂ : Idles s₂ effect₂ s₂') (hl : RL l₁ l₂) (hs : RS s₁' s₂') :
      EffectAlike peers RL RS l₁ l₂ s₁ s₂ effect₁ effect₂
  | select {l₁' : L₁} {l₂' : L₂} (hl : RL l₁' l₂') : EffectAlike peers RL RS l₁ l₂ s₁ s₂ (.select l₁') (.select l₂')
  | visit {targets₁ : List (Except ε₁ (List π))} {targets₂ : List (Except ε₂ (List π))} (hl : RL l₁ l₂)
      (h : targets₂.map Except.toOption = peers) :
      EffectAlike peers RL RS l₁ l₂ s₁ s₂ (.visit targets₁) (.visit targets₂)

variable {RS : σ₁ → σ₂ → Prop}

/-- 覚えていることが同じで、状態が対応する。 -/
def SameMemory (RS : σ₁ → σ₂ → Prop) (t₁ : α × σ₁) (t₂ : α × σ₂) : Prop := t₁.1 = t₂.1 ∧ RS t₁.2 t₂.2

section Enter

variable {enter₁ : π → α × σ₁ → Except (Fault ε₁) (α × σ₁)} {enter₂ : π → α × σ₂ → Except (Fault ε₂) (α × σ₂)}
  {ok : π → π → α × σ₁ → Bool}
  (henter : ∀ path peer t₁ t₂, ok path peer t₁ = true → SameMemory RS t₁ t₂ →
    Lockstep (SameMemory RS) (enter₁ path t₁) (enter₂ peer t₂))

include henter

theorem Lockstep.paths {paths peers : List π} {t₁ : α × σ₁} {t₂ : α × σ₂}
    (h : Source.pathsFollowed enter₁ ok paths peers t₁ = true) (ht : SameMemory RS t₁ t₂) :
    Lockstep (SameMemory RS) (visitTarget enter₁ t₁ (.ok paths)) (visitTarget enter₂ t₂ (.ok peers)) := by
  rw [visitTarget, visitTarget]
  induction paths generalizing peers t₁ t₂ with
  | nil =>
      cases peers with
      | nil => exact ht
      | cons peer peers => cases h
  | cons path paths ih =>
      cases peers with
      | nil => cases h
      | cons peer peers =>
          rw [Source.pathsFollowed, Bool.and_eq_true] at h
          rw [List.foldlM_cons, List.foldlM_cons]
          refine (henter path peer t₁ t₂ h.1 ht).bind ?_
          intro t₁' t₂' ht₁ ht'
          have hrest := h.2
          rw [ht₁] at hrest
          exact ih hrest ht'

theorem Lockstep.visitTargets {targets₁ : List (Except ε₁ (List π))} {targets₂ : List (Except ε₂ (List π))} {t₁ : α × σ₁}
    {t₂ : α × σ₂} (h : Source.targetsFollowed enter₁ ok targets₁ (targets₂.map Except.toOption) t₁ = true)
    (ht : SameMemory RS t₁ t₂) :
    Lockstep (SameMemory RS) (Splice.visitTargets enter₁ targets₁ t₁) (Splice.visitTargets enter₂ targets₂ t₂) := by
  rw [Splice.visitTargets, Splice.visitTargets]
  induction targets₁ generalizing targets₂ t₁ t₂ with
  | nil =>
      cases targets₂ with
      | nil => exact ht
      | cons target₂ targets₂ => cases h
  | cons target₁ targets₁ ih =>
      cases targets₂ with
      | nil => cases target₁ <;> cases h
      | cons target₂ targets₂ =>
          rw [List.foldlM_cons, List.foldlM_cons]
          cases target₁ with
          | error e₁ =>
              cases target₂ with
              | error e₂ => exact True.intro
              | ok paths => cases h
          | ok paths =>
              cases target₂ with
              | error e₂ => cases h
              | ok peers =>
                  rw [List.map_cons, Except.toOption, Source.targetsFollowed, Bool.and_eq_true] at h
                  refine (Lockstep.paths henter h.1 ht).bind ?_
                  intro t₁' t₂' ht₁ ht'
                  have hrest := h.2
                  rw [ht₁] at hrest
                  exact ih hrest ht'

theorem Lockstep.walkLines {effect₁ : L₁ → σ₁ → ℓ → Effect π ε₁ L₁ σ₁} {effect₂ : L₂ → σ₂ → ℓ → Effect π ε₂ L₂ σ₂}
    {good : L₁ → ℓ → Bool} {peers : ℓ → List (Option (List π))} {RL : L₁ → L₂ → Prop}
    (hgood : ∀ line l₁ l₂ s₁ s₂, good l₁ line = true → RL l₁ l₂ → RS s₁ s₂ →
      EffectAlike (peers line) RL RS l₁ l₂ s₁ s₂ (effect₁ l₁ s₁ line) (effect₂ l₂ s₂ line)) {lines : List ℓ} {l₁ : L₁}
    {l₂ : L₂} {t₁ : α × σ₁} {t₂ : α × σ₂} (h : Source.linesFollowed effect₁ enter₁ ok good peers lines l₁ t₁ = true)
    (hl : RL l₁ l₂) (ht : SameMemory RS t₁ t₂) :
    Lockstep (SameMemory RS) (Splice.walkLines effect₁ enter₁ lines l₁ t₁) (Splice.walkLines effect₂ enter₂ lines l₂ t₂) := by
  induction lines generalizing l₁ l₂ t₁ t₂ with
  | nil => exact ht
  | cons line lines ih =>
      have hline : good l₁ line = true := by
        rw [Source.linesFollowed, Bool.and_eq_true] at h
        exact h.1
      have halike := hgood line l₁ l₂ t₁.2 t₂.2 hline hl ht.2
      generalize heffect₁ : effect₁ l₁ t₁.2 line = e₁ at halike
      generalize heffect₂ : effect₂ l₂ t₂.2 line = e₂ at halike
      cases halike with
      | idle h₁ h₂ hl hs =>
          rw [← heffect₁] at h₁
          rw [← heffect₂] at h₂
          rw [walkLines_idle h₁, walkLines_idle h₂]
          exact ih (linesFollowed_idle h₁ h) hl ⟨ht.1, hs⟩
      | select hl =>
          rw [Source.linesFollowed, heffect₁, Bool.and_eq_true] at h
          rw [Splice.walkLines, Splice.walkLines, heffect₁, heffect₂]
          exact ih h.2 hl ht
      | visit hl htargets =>
          rw [Source.linesFollowed, heffect₁, Bool.and_eq_true, Bool.and_eq_true, ← htargets] at h
          rw [Splice.walkLines, Splice.walkLines, heffect₁, heffect₂]
          refine (Lockstep.visitTargets henter h.2.1 ht).bind ?_
          intro t₁' t₂' ht₁ ht'
          have hrest := h.2.2
          rw [ht₁] at hrest
          exact ih hrest hl ht'

end Enter

/-- 走査が読む行と着くファイルが、もう 1 つの走査の読み方と合えば、2 つの走査は対応する。 -/
theorem Lockstep.walkOnce [DecidableEq κ] {source₁ : Source π κ ε₁ ℓ} {source₂ : Source π κ ε₂ ℓ}
    {effect₁ : π → L₁ → σ₁ → ℓ → Effect π ε₁ L₁ σ₁} {effect₂ : π → L₂ → σ₂ → ℓ → Effect π ε₂ L₂ σ₂} {start₁ : L₁}
    {start₂ : L₂} {same : π → π → Bool} {good : π → π → L₁ → ℓ → Bool} {peers : π → ℓ → List (Option (List π))}
    {RL : L₁ → L₂ → Prop}
    (hsame : ∀ path peer, same path peer = true →
      source₁.key path = source₂.key peer ∧ Lockstep Eq (source₁.read path) (source₂.read peer))
    (hgood : ∀ path peer line l₁ l₂ s₁ s₂, good path peer l₁ line = true → RL l₁ l₂ → RS s₁ s₂ →
      EffectAlike (peers peer line) RL RS l₁ l₂ s₁ s₂ (effect₁ path l₁ s₁ line) (effect₂ peer l₂ s₂ line))
    (hstart : RL start₁ start₂) (n : Nat) {path peer : π} {t₁ : List κ × σ₁} {t₂ : List κ × σ₂}
    (h : source₁.followed effect₁ start₁ same good peers n path peer t₁ = true) (ht : SameMemory RS t₁ t₂) :
    Lockstep (SameMemory RS) (source₁.walkOnce effect₁ start₁ n path t₁) (source₂.walkOnce effect₂ start₂ n peer t₂) := by
  induction n generalizing path peer t₁ t₂ with
  | zero => exact True.intro
  | succ n ih =>
      rw [Source.followed, Bool.and_eq_true] at h
      obtain ⟨hfile, h⟩ := h
      obtain ⟨hkey, hread⟩ := hsame path peer hfile
      rw [Source.walkOnce, Source.walkOnce, ← hkey, ← ht.1]
      by_cases hvisited : source₁.key path ∈ t₁.1
      · rw [if_pos hvisited, if_pos hvisited]
        exact ht
      rw [if_neg hvisited, if_neg hvisited]
      rw [decide_eq_false hvisited, Bool.false_or] at h
      cases hlines : source₁.read path with
      | error e₁ =>
          rw [hlines] at hread
          cases hlines₂ : source₂.read peer with
          | error e₂ => exact True.intro
          | ok lines =>
              rw [hlines₂] at hread
              exact False.elim hread
      | ok lines =>
          rw [hlines] at hread h
          cases hlines₂ : source₂.read peer with
          | error e₂ =>
              rw [hlines₂] at hread
              exact False.elim hread
          | ok lines₂ =>
              rw [hlines₂] at hread
              obtain rfl : lines = lines₂ := hread
              have henter (path peer : π) (t₁ : List κ × σ₁) (t₂ : List κ × σ₂)
                  (hok : source₁.followed effect₁ start₁ same good peers n path peer t₁ = true) (ht : SameMemory RS t₁ t₂) :
                  Lockstep (SameMemory RS) (source₁.walkOnce effect₁ start₁ n path t₁)
                    (source₂.walkOnce effect₂ start₂ n peer t₂) := ih hok ht
              exact Lockstep.walkLines henter (hgood path peer) h hstart ⟨by rw [ht.1], ht.2⟩

end Lockstep

/-! ## 記録を加えた走査 -/

section Project

variable {σ' : Type*} {g : σ' → σ}

/-- 記録を除けば同じ効果である。 -/
inductive EffectProject (g : σ' → σ) (s' : σ') : Effect π ε L σ' → Effect π ε L σ → Prop
  | skip : EffectProject g s' .skip .skip
  | select (l : L) : EffectProject g s' (.select l) (.select l)
  | update {s'' : σ'} {s : σ} (h : g s'' = s) : EffectProject g s' (.update s'') (.update s)
  | fail (e : ε) : EffectProject g s' (.fail e) (.fail e)
  | visit (targets : List (Except ε (List π))) : EffectProject g s' (.visit targets) (.visit targets)

theorem map_foldlM {f' : α × σ' → τ → Except (Fault ε) (α × σ')} {f : α × σ → τ → Except (Fault ε) (α × σ)}
    (h : ∀ t x, (f' t x).map (Prod.map id g) = f (Prod.map id g t) x) (xs : List τ) (t : α × σ') :
    (xs.foldlM f' t).map (Prod.map id g) = xs.foldlM f (Prod.map id g t) := by
  induction xs generalizing t with
  | nil => rfl
  | cons x xs ih =>
      rw [List.foldlM_cons, List.foldlM_cons, ← h]
      cases f' t x with
      | error e => rfl
      | ok t' => exact ih t'

theorem map_walkLines {effect' : L → σ' → ℓ → Effect π ε L σ'} {effect : L → σ → ℓ → Effect π ε L σ}
    {enter' : π → α × σ' → Except (Fault ε) (α × σ')} {enter : π → α × σ → Except (Fault ε) (α × σ)}
    (heffect : ∀ l s' line, EffectProject g s' (effect' l s' line) (effect l (g s') line))
    (henter : ∀ path t, (enter' path t).map (Prod.map id g) = enter path (Prod.map id g t)) (lines : List ℓ) (l : L)
    (t : α × σ') :
    (walkLines effect' enter' lines l t).map (Prod.map id g) = walkLines effect enter lines l (Prod.map id g t) := by
  induction lines generalizing l t with
  | nil => rfl
  | cons line lines ih =>
      have hproject := heffect l t.2 line
      rw [walkLines, walkLines, Prod.map_snd]
      generalize effect' l t.2 line = e' at hproject ⊢
      generalize effect l (g t.2) line = e at hproject ⊢
      cases hproject with
      | skip => exact ih l t
      | select l => exact ih l t
      | update h =>
          subst h
          exact ih l (t.1, _)
      | fail e => rfl
      | visit targets =>
          have htargets : (visitTargets enter' targets t).map (Prod.map id g) =
              visitTargets enter targets (Prod.map id g t) := by
            refine map_foldlM ?_ targets t
            intro t target
            cases target with
            | error e => rfl
            | ok paths => exact map_foldlM (fun t path => henter path t) paths t
          dsimp only
          rw [← htargets]
          cases visitTargets enter' targets t with
          | error e => rfl
          | ok t' => exact ih l t'

theorem map_walkOnce [DecidableEq κ] {source : Source π κ ε ℓ} {effect' : π → L → σ' → ℓ → Effect π ε L σ'}
    {effect : π → L → σ → ℓ → Effect π ε L σ} {start : L}
    (heffect : ∀ path l s' line, EffectProject g s' (effect' path l s' line) (effect path l (g s') line)) (n : Nat) (path : π)
    (t : List κ × σ') :
    (source.walkOnce effect' start n path t).map (Prod.map id g) =
      source.walkOnce effect start n path (Prod.map id g t) := by
  induction n generalizing path t with
  | zero => rfl
  | succ n ih =>
      rw [Source.walkOnce, Source.walkOnce, Prod.map_fst, id_eq]
      by_cases hvisited : source.key path ∈ t.1
      · rw [if_pos hvisited, if_pos hvisited]
        rfl
      rw [if_neg hvisited, if_neg hvisited]
      cases source.read path with
      | error e => rfl
      | ok lines => exact map_walkLines (heffect path) ih lines start _

end Project

end IsekaiTerminal.Lib.Splice
