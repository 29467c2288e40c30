import IsekaiTerminal.Profile.Lemmas.Store

/-!
# 永続プロファイルの置き場の性質

どのプロセスの操作のどの交互の実行でも、使う鍵のファイル名が互いに異なり、ロックのファイルを開けるなら、
置き場は鍵からプロファイルへの写像である。鍵のどちらかの条件が欠けると、写像でない実行がある。
-/

namespace IsekaiTerminal.Profile

open Lib

variable {β : Type} {serde : Serde β} {outside : Text → Option Text}

/-! ## 鍵の集合の条件 -/

/-- `%` と `/` と NUL を含まない鍵だけを使う実行では、置き場は鍵からプロファイルへの写像である。 -/
theorem coherent_of_plain {as : List (Action β)} {s : Store β}
    (has : ∀ a ∈ as, a.Within {key | '%' ∉ key ∧ '/' ∉ key ∧ '\x00' ∉ key})
    (h : Run (Store.Steps serde outside) (Store.new β) as s) :
    Coherent serde {key | '%' ∉ key ∧ '/' ∉ key ∧ '\x00' ∉ key} s := by
  refine represented_of_run ?_ ?_ has h
  · exact sanitizeFilenameComponent_injOn.mono fun key hkey => hkey.1
  · rintro key ⟨-, hslash, hnul⟩
    simp [lockFile, hslash, hnul]

/-- 書き込みだけの実行。 -/
theorem exists_run_write (serde : Serde β) (outside : Text → Option Text) (pid : Nat)
    (profile : PersistentProfile β) :
    ∃ s, Run (Store.Steps serde outside) (Store.new β) [.write pid profile, .step pid, .step pid] s ∧
      s.commits = [⟨none, profile⟩] := by
  let s₁ := (Store.new β).setPhase pid (.writing none profile)
  let s₂ : Store β := { s₁.setPhase pid (.staged none profile) with
    files := Function.update s₁.files (tmpName profile.profile pid) (some (serde.toVecPretty profile)) }
  have h₁ : s₁.procs pid = .writing none profile := Function.update_self _ _ _
  have h₂ : s₂.procs pid = .staged none profile := Function.update_self _ _ _
  have hfile : s₂.files (tmpName profile.profile pid) = some (serde.toVecPretty profile) := Function.update_self _ _ _
  have hstep₁ : s₁.stepProc serde outside pid = some s₂ := by simp only [Store.stepProc, h₁, s₂]
  have hstep₂ : ∃ s₃, s₂.stepProc serde outside pid = some s₃ ∧ s₃.commits = [⟨none, profile⟩] := by
    simp only [Store.stepProc, h₂, hfile]
    exact ⟨_, rfl, rfl⟩
  obtain ⟨s₃, hs₃, hcommits⟩ := hstep₂
  exact ⟨s₃, .cons rfl (.cons hstep₁ (.cons hs₃ (.nil _))), hcommits⟩

/-- ロックのファイルを開けない鍵の更新は失敗する。 -/
theorem exists_run_refused (serde : Serde β) (pid : Nat) {key : Text} (hkey : lockFile outside key = none)
    (update : Option (PersistentProfile β) → PersistentProfile β) :
    ∃ s, Run (Store.Steps serde outside) (Store.new β) [.update pid key update, .step pid] s ∧ s.refused = [key] := by
  let s₁ := (Store.new β).setPhase pid (.acquiring key update)
  have h₁ : s₁.procs pid = .acquiring key update := Function.update_self _ _ _
  have hstep : ∃ s₂, s₁.stepProc serde outside pid = some s₂ ∧ s₂.refused = [key] := by
    simp only [Store.stepProc, h₁, hkey]
    exact ⟨_, rfl, rfl⟩
  obtain ⟨s₂, hs₂, hrefused⟩ := hstep
  exact ⟨s₂, .cons rfl (.cons hs₂ (.nil _)), hrefused⟩

/-- 置き場が、鍵の集合 `K` を使うどの実行でも鍵からプロファイルへの写像であるのは、`K` の鍵のファイル名が互いに異なり、
どの鍵のロックのファイルも開けるとき、かつそのときに限る。 -/
theorem coherent_iff [Inhabited β] (serde : Serde β) (outside : Text → Option Text) (K : Set Text) :
    (∀ as s, (∀ a ∈ as, a.Within K) → Run (Store.Steps serde outside) (Store.new β) as s →
        Coherent serde K s ∧ ∀ a s', a.Within K → s.Steps serde outside a s' → Isolated serde K s s') ↔
      Set.InjOn sanitizeFilenameComponent K ∧ ∀ key ∈ K, (lockFile outside key).isSome := by
  constructor
  · intro h
    constructor
    · intro key hkey key' hkey' heq
      obtain ⟨s, hrun, hcommits⟩ := exists_run_write serde outside 0 ⟨key', default⟩
      have hcoherent := (h _ s (by simp [Action.Within, hkey']) hrun).1
      have hload := (Store.invariant_of_run hrun).load key
      rw [hcoherent.loads key hkey, hcommits] at hload
      by_contra hne
      simp [lastUnder, lastNamed, heq, Ne.symm hne] at hload
    · intro key hkey
      by_contra hnone
      obtain ⟨s, hrun, hrefused⟩ := exists_run_refused serde 0 (Option.not_isSome_iff_eq_none.mp hnone)
        fun _ => ⟨key, default⟩
      have hcoherent := (h _ s (by simp [Action.Within, hkey]) hrun).1
      cases hrefused.symm.trans hcoherent.updatable
  · rintro ⟨hinj, hlock⟩ as s has hrun
    have hcoherent := represented_of_run hinj hlock has hrun
    refine ⟨hcoherent, ?_⟩
    intro a s' ha hs
    have hrun' := hrun.append (.single hs)
    refine hcoherent.isolated (represented_of_run hinj hlock ?_ hrun')
    intro a' ha'
    rcases List.mem_append.mp ha' with ha' | ha'
    · exact has a' ha'
    · obtain rfl := List.mem_singleton.mp ha'
      exact ha

/-- 名前だけのプロファイルの、UTF-8 による直列化。 -/
def nameSerde : Serde Unit where
  toVecPretty p := (String.ofList p.profile).toUTF8
  fromSlice bytes := (String.fromUTF8? bytes).map fun s => ⟨s.toList, ()⟩
  fromSlice_toVecPretty p := by
    have htext : (String.ofList p.profile).toList = p.profile := String.toList_ofList
    simp only [String.fromUTF8?, Option.map_eq_some_iff, Option.dite_none_right_eq_some]
    exact ⟨_, ⟨(String.ofList p.profile).isValidUTF8, rfl⟩, congrArg (PersistentProfile.mk · ()) htext⟩

/-- `a%3Ab` に書いた値を `a:b` が読む。`t/p` は書けるが、更新できない。 -/
theorem exists_run_misread :
    (∃ s, Run (Store.Steps nameSerde fun _ => none) (Store.new Unit)
        [.write 0 ⟨['a', '%', '3', 'A', 'b'], ()⟩, .step 0, .step 0] s ∧
      loadPersistentProfile nameSerde s.files ['a', ':', 'b'] = some (some ⟨['a', '%', '3', 'A', 'b'], ()⟩) ∧
      lastUnder ['a', ':', 'b'] s.commits = none) ∧
    (∃ s, Run (Store.Steps nameSerde fun _ => none) (Store.new Unit)
        [.write 0 ⟨['t', '/', 'p'], ()⟩, .step 0, .step 0] s ∧ s.commits = [⟨none, ⟨['t', '/', 'p'], ()⟩⟩]) ∧
    ∃ s, Run (Store.Steps nameSerde fun _ => none) (Store.new Unit)
        [.update 0 ['t', '/', 'p'] fun _ => ⟨['t', '/', 'p'], ()⟩, .step 0] s ∧ s.refused = [['t', '/', 'p']] := by
  refine ⟨?_, exists_run_write nameSerde _ 0 _, exists_run_refused nameSerde 0 (by decide) _⟩
  obtain ⟨s, hrun, hcommits⟩ := exists_run_write nameSerde (fun _ => none) 0 ⟨['a', '%', '3', 'A', 'b'], ()⟩
  refine ⟨s, hrun, ?_, ?_⟩
  · rw [(Store.invariant_of_run hrun).load, hcommits]
    have hname : sanitizeFilenameComponent ['a', '%', '3', 'A', 'b'] = sanitizeFilenameComponent ['a', ':', 'b'] := by
      decide
    simp [lastNamed, hname]
  · rw [hcommits]
    simp [lastUnder]

end IsekaiTerminal.Profile
