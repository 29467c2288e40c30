import IsekaiTerminal.Profile.Store

/-!
# 置き場の不変条件

データのファイルは、同じファイル名になる鍵に最後に書いた値を持つ。ロックを持つ更新は、ロックのファイルごとに高々 1 つである。
更新が読んだ値は、その後に同じ鍵の他の更新が書き換えていない。
-/

namespace IsekaiTerminal.Profile

open Lib

/-!
## ファイルの名前

置き場のファイルの名前の間の関係。一時ファイルの名前はプロセスごとに異なり、データのファイルの名前とも異なる。
データのファイルの名前は、`%` を含まない鍵の間では鍵ごとに異なる。
-/

theorem dataName_inj {key key' : Text} :
    dataName key = dataName key' ↔ sanitizeFilenameComponent key = sanitizeFilenameComponent key' :=
  List.append_left_inj _

theorem tmpName_ne_dataName (key key' : Text) (pid : Nat) : tmpName key pid ≠ dataName key' := by
  intro heq
  have hlast := congrArg List.getLast? heq
  rw [tmpName, dataName, List.getLast?_append_of_ne_nil _ (by simp), List.getLast?_append_of_ne_nil _ (by simp)]
    at hlast
  simp at hlast

theorem dot_notMem_digits (pid : Nat) : '.' ∉ Nat.toDigits 10 pid := by
  intro hmem
  have hdigit := Nat.isDigit_of_mem_toDigits (by decide) (by decide) hmem
  simp at hdigit

theorem toDigits_inj {m n : Nat} (heq : Nat.toDigits 10 m = Nat.toDigits 10 n) : m = n :=
  Nat.repr_injective (congrArg String.ofList heq)

theorem takeWhile_append_dot {xs ys : Text} (h : '.' ∉ xs) : (xs ++ '.' :: ys).takeWhile (· ≠ '.') = xs := by
  have hall (c : Char) (hc : c ∈ xs) : decide (c ≠ '.') = true := decide_eq_true (ne_of_mem_of_not_mem hc h)
  rw [List.takeWhile_append_of_pos hall]
  simp

theorem tmpName_pid_inj {key key' : Text} {pid pid' : Nat} (heq : tmpName key pid = tmpName key' pid') :
    pid = pid' := by
  have heq := congrArg List.reverse (List.append_cancel_right heq)
  simp only [List.reverse_append, List.reverse_cons, List.append_assoc, List.singleton_append] at heq
  have hdot (pid : Nat) : '.' ∉ (Nat.toDigits 10 pid).reverse := by simpa using dot_notMem_digits pid
  have hdigits := congrArg (List.takeWhile (· ≠ '.')) heq
  rw [takeWhile_append_dot (hdot pid), takeWhile_append_dot (hdot pid')] at hdigits
  exact toDigits_inj (List.reverse_injective hdigits)

/-! ## 置き換えの単射性 -/

/-- 置き換える文字。 -/
def Escaped (c : Char) : Prop := c ∈ reserved ∨ c.toNat < 0x20

theorem sanitizeChar_of_escaped {c : Char} (h : Escaped c) : sanitizeChar c = '%' :: format02X c.toNat := by
  unfold sanitizeChar
  split
  · rfl
  · rename_i hr
    rw [if_pos (h.resolve_left hr)]

theorem sanitizeChar_of_not_escaped {c : Char} (h : ¬ Escaped c) : sanitizeChar c = [c] := by
  rw [sanitizeChar, if_neg fun hr => h (Or.inl hr), if_neg fun hc => h (Or.inr hc)]

theorem Escaped.toNat_lt {c : Char} (h : Escaped c) : c.toNat < 128 := by
  rcases h with h | h
  · have hall : ∀ c ∈ reserved, c.toNat < 128 := by simp [reserved]
    exact hall c h
  · omega

/-- 16 進の数字の値。 -/
def hexValue (c : Char) : Nat := if c.isDigit then c.toNat - '0'.toNat else c.toNat - 'A'.toNat + 10

/-- `format02X` の逆。 -/
def parse02X (word : Text) : Nat := word.foldl (fun n c => n * 16 + hexValue c) 0

theorem format02X_spec {n : Nat} (h : n < 128) : parse02X (format02X n) = n ∧ (format02X n).length = 2 := by
  have hall : ((List.range 128).all fun n => parse02X (format02X n) = n ∧ (format02X n).length = 2) = true := by
    decide +kernel
  exact of_decide_eq_true (List.all_eq_true.mp hall n (List.mem_range.mpr h))

/-- `%` 以外の文字の置き換えは接頭符号である。`%` は置き換えないので、置き換えた文字の符号語の接頭辞になる。 -/
theorem prefixCode_sanitizeChar : PrefixCode sanitizeChar {c | c ≠ '%'} where
  ne_nil c _ := by
    by_cases hc : Escaped c
    · simp [sanitizeChar_of_escaped hc]
    · simp [sanitizeChar_of_not_escaped hc]
  eq_of_prefix := by
    intro a ha b hb hpre
    by_cases hea : Escaped a
    · rw [sanitizeChar_of_escaped hea] at hpre
      by_cases heb : Escaped b
      · rw [sanitizeChar_of_escaped heb, List.cons_prefix_cons] at hpre
        obtain ⟨hparse, hlen⟩ := format02X_spec hea.toNat_lt
        obtain ⟨hparse', hlen'⟩ := format02X_spec heb.toNat_lt
        have hword := congrArg parse02X (hpre.2.eq_of_length (hlen.trans hlen'.symm))
        rw [hparse, hparse'] at hword
        exact Char.toNat_inj.mp hword
      · rw [sanitizeChar_of_not_escaped heb, List.cons_prefix_cons] at hpre
        exact absurd hpre.1.symm hb
    · rw [sanitizeChar_of_not_escaped hea] at hpre
      by_cases heb : Escaped b
      · rw [sanitizeChar_of_escaped heb, List.cons_prefix_cons] at hpre
        exact absurd hpre.1 ha
      · rw [sanitizeChar_of_not_escaped heb, List.cons_prefix_cons] at hpre
        exact hpre.1

theorem sanitizeFilenameComponent_injOn : Set.InjOn sanitizeFilenameComponent {key | '%' ∉ key} := by
  refine prefixCode_sanitizeChar.flatMap_injOn.mono ?_
  intro key hkey c hc
  exact ne_of_mem_of_not_mem hc hkey

variable {β : Type} {serde : Serde β} {outside : Text → Option Text}

/-! ## 書き込みの履歴 -/

/-- ファイル名が `key` のものと同じになる鍵に、最後に書いたプロファイル。 -/
def lastNamed (key : Text) (commits : List (Commit β)) : Option (PersistentProfile β) :=
  (commits.filter fun c =>
    sanitizeFilenameComponent c.profile.profile = sanitizeFilenameComponent key).getLast?.map Commit.profile

/-- `current` は `commits` のどこかの時点で `key` のファイルにあり、その後に `key` の更新の書き込みがない。 -/
def Fresh (key : Text) (current : Option (PersistentProfile β)) (commits : List (Commit β)) : Prop :=
  ∃ before after, commits = before ++ after ∧ current = lastNamed key before ∧
    ∀ c ∈ after, c.origin.map Prod.fst ≠ some key

theorem lastNamed_concat_of_eq {key : Text} {commits : List (Commit β)} {c : Commit β}
    (h : sanitizeFilenameComponent c.profile.profile = sanitizeFilenameComponent key) :
    lastNamed key (commits ++ [c]) = some c.profile := by
  simp [lastNamed, h]

theorem lastNamed_concat_of_ne {key : Text} {commits : List (Commit β)} {c : Commit β}
    (h : sanitizeFilenameComponent c.profile.profile ≠ sanitizeFilenameComponent key) :
    lastNamed key (commits ++ [c]) = lastNamed key commits := by
  simp [lastNamed, h]

theorem fresh_self (key : Text) (commits : List (Commit β)) : Fresh key (lastNamed key commits) commits :=
  ⟨commits, [], (List.append_nil _).symm, rfl, by simp⟩

theorem Fresh.concat {key : Text} {current : Option (PersistentProfile β)} {commits : List (Commit β)}
    {c : Commit β} (h : Fresh key current commits) (hc : c.origin.map Prod.fst ≠ some key) :
    Fresh key current (commits ++ [c]) := by
  obtain ⟨before, after, rfl, hcur, hafter⟩ := h
  refine ⟨before, after ++ [c], List.append_assoc _ _ _, hcur, ?_⟩
  intro c' hc'
  rcases List.mem_append.mp hc' with hc' | hc'
  · exact hafter c' hc'
  · obtain rfl := List.mem_singleton.mp hc'
    exact hc

/-! ## 不変条件 -/

/-- 書こうとしている値の出どころ。 -/
def Phase.origin : Phase β → Option (Text × Option (PersistentProfile β))
  | .writing origin _ | .staged origin _ => origin
  | .idle | .acquiring _ _ | .loading _ _ => none

theorem heldKey_of_origin {phase : Phase β} {key : Text} {current : Option (PersistentProfile β)}
    (h : phase.origin = some (key, current)) : Store.heldKey phase = some key := by
  cases phase with
  | writing origin profile => exact congrArg (Option.map Prod.fst) h
  | staged origin profile => exact congrArg (Option.map Prod.fst) h
  | idle => cases h
  | acquiring key update => cases h
  | loading key update => cases h

namespace Store

/-- `key` のロックを `pid` が持っている。 -/
def Holds (outside : Text → Option Text) (locks : Text → Option Nat) (pid : Nat) (key : Text) : Prop :=
  ∃ file, lockFile outside key = some file ∧ locks file = some pid

structure Invariant (serde : Serde β) (outside : Text → Option Text) (s : Store β) : Prop where
  staged : ∀ pid origin profile, s.procs pid = .staged origin profile →
    s.files (tmpName profile.profile pid) = some (serde.toVecPretty profile)
  stored : ∀ key, s.files (dataName key) = (lastNamed key s.commits).map serde.toVecPretty
  locked : ∀ pid key, heldKey (s.procs pid) = some key → Holds outside s.locks pid key
  seen : ∀ pid key current, (s.procs pid).origin = some (key, current) → Fresh key current s.commits
  committed : ∀ before c after key current, s.commits = before ++ c :: after →
    c.origin = some (key, current) → Fresh key current before

namespace Invariant

variable {s : Store β} {pid : Nat}

theorem new : (Store.new β).Invariant serde outside where
  staged _ _ _ h := by cases h
  stored _ := rfl
  locked _ _ h := by cases h
  seen _ _ _ h := by cases h
  committed before _ _ _ _ h := by simp [Store.new] at h

theorem load (h : s.Invariant serde outside) (key : Text) :
    loadPersistentProfile serde s.files key = some (lastNamed key s.commits) := by
  rw [loadPersistentProfile, h.stored]
  cases lastNamed key s.commits with
  | none => rfl
  | some profile => simp [serde.fromSlice_toVecPretty]

theorem setPhase (h : s.Invariant serde outside) {phase : Phase β}
    (hstaged : ∀ origin profile, phase = .staged origin profile →
      s.files (tmpName profile.profile pid) = some (serde.toVecPretty profile))
    (hlocked : ∀ key, heldKey phase = some key → Holds outside s.locks pid key)
    (hseen : ∀ key current, phase.origin = some (key, current) → Fresh key current s.commits) :
    (s.setPhase pid phase).Invariant serde outside where
  staged pid' := by
    by_cases hp : pid' = pid
    · subst hp
      simpa [Store.setPhase] using hstaged
    · simpa [Store.setPhase, hp] using h.staged pid'
  stored := h.stored
  locked pid' := by
    by_cases hp : pid' = pid
    · subst hp
      simpa [Store.setPhase] using hlocked
    · simpa [Store.setPhase, hp] using h.locked pid'
  seen pid' := by
    by_cases hp : pid' = pid
    · subst hp
      simpa [Store.setPhase] using hseen
    · simpa [Store.setPhase, hp] using h.seen pid'
  committed := h.committed

theorem idle (h : s.Invariant serde outside) : (s.setPhase pid .idle).Invariant serde outside :=
  h.setPhase (fun _ _ heq => by cases heq) (fun _ heq => by cases heq) fun _ _ heq => by cases heq

/-- 同じロックのファイルを持つプロセスは 1 つである。 -/
theorem holder_unique (h : s.Invariant serde outside) {pid pid' : Nat} {key key' file : Text}
    (hk : heldKey (s.procs pid) = some key) (hk' : heldKey (s.procs pid') = some key')
    (hf : lockFile outside key = some file) (hf' : lockFile outside key' = some file) : pid = pid' := by
  obtain ⟨file₁, hf₁, hl₁⟩ := h.locked pid key hk
  obtain ⟨file₂, hf₂, hl₂⟩ := h.locked pid' key' hk'
  obtain rfl := Option.some.inj (hf.symm.trans hf₁)
  obtain rfl := Option.some.inj (hf'.symm.trans hf₂)
  exact Option.some.inj (hl₁.symm.trans hl₂)

theorem release (h : s.Invariant serde outside) {key : Text}
    (hfree : ∀ pid' key', heldKey (s.procs pid') = some key' → lockFile outside key' ≠ lockFile outside key) :
    (s.release outside key).Invariant serde outside := by
  unfold Store.release
  split
  · rename_i file hfile
    exact {
      staged := h.staged
      stored := h.stored
      locked := by
        intro pid' key' hk
        obtain ⟨file', hf, hl⟩ := h.locked pid' key' hk
        have hne : file' ≠ file := by
          rintro rfl
          exact hfree pid' key' hk (hf.trans hfile.symm)
        exact ⟨file', hf, by simpa [hne] using hl⟩
      seen := h.seen
      committed := h.committed }
  · exact h

/-- 終わるプロセスの他に、そのロックのファイルを持つプロセスはない。 -/
theorem release_of_idle (h : s.Invariant serde outside) {t : Store β} {key : Text}
    (hk : heldKey (s.procs pid) = some key) (hprocs : t.procs = Function.update s.procs pid .idle)
    (ht : t.Invariant serde outside) : (t.release outside key).Invariant serde outside := by
  refine ht.release ?_
  intro pid' key' hk' heq
  by_cases hp : pid' = pid
  · subst hp
    simp [hprocs, heldKey] at hk'
  · rw [hprocs, Function.update_of_ne hp] at hk'
    obtain ⟨file, hf, -⟩ := h.locked pid key hk
    exact hp (h.holder_unique hk' hk (heq.trans hf) hf)

theorem finish (h : s.Invariant serde outside) {t : Store β} {key? : Option Text}
    (hk : heldKey (s.procs pid) = key?) (hprocs : t.procs = s.procs)
    (ht : (t.setPhase pid .idle).Invariant serde outside) : (t.finish outside pid key?).Invariant serde outside := by
  cases key? with
  | none => exact ht
  | some key =>
      have hidle : (t.setPhase pid .idle).procs = Function.update s.procs pid .idle := by
        rw [Store.setPhase, hprocs]
      exact h.release_of_idle hk hidle ht

theorem acquire (h : s.Invariant serde outside) {key file : Text}
    {update : Option (PersistentProfile β) → PersistentProfile β} (hfile : lockFile outside key = some file)
    (hfree : s.locks file = none) :
    ({ s.setPhase pid (.loading key update) with
      locks := Function.update s.locks file (some pid) } : Store β).Invariant serde outside := by
  have hlocks : ({ s with locks := Function.update s.locks file (some pid) } : Store β).Invariant serde outside :=
    { staged := h.staged
      stored := h.stored
      locked := by
        intro pid' key' hk
        obtain ⟨file', hf, hl⟩ := h.locked pid' key' hk
        have hne : file' ≠ file := by
          rintro rfl
          simp [hfree] at hl
        exact ⟨file', hf, by simpa [hne] using hl⟩
      seen := h.seen
      committed := h.committed }
  refine hlocks.setPhase (fun _ _ heq => by cases heq) ?_ fun _ _ heq => by cases heq
  intro key' hk
  obtain rfl := Option.some.inj hk
  exact ⟨file, hfile, by simp⟩

/-- 一時ファイルの書き込みは、他のプロセスの一時ファイルと、データのファイルを変えない。 -/
theorem putTmp (h : s.Invariant serde outside) (pid : Nat) (key : Text) (bytes : ByteArray)
    (hphase : ∀ origin profile, s.procs pid ≠ .staged origin profile) :
    ({ s with files := Function.update s.files (tmpName key pid) (some bytes) } : Store β).Invariant serde outside where
  staged pid' origin profile hp := by
    have hne : tmpName profile.profile pid' ≠ tmpName key pid := by
      intro heq
      obtain rfl := tmpName_pid_inj heq
      exact hphase origin profile hp
    simpa [hne] using h.staged pid' origin profile hp
  stored key' := by
    simpa [(tmpName_ne_dataName key key' pid).symm] using h.stored key'
  locked := h.locked
  seen := h.seen
  committed := h.committed

theorem commit (h : s.Invariant serde outside) {origin : Option (Text × Option (PersistentProfile β))}
    {profile : PersistentProfile β} {bytes : ByteArray} (hp : s.procs pid = .staged origin profile)
    (hbytes : s.files (tmpName profile.profile pid) = some bytes) :
    (Store.setPhase { s with
      files := Function.update (Function.update s.files (tmpName profile.profile pid) none)
        (dataName profile.profile) (some bytes)
      commits := s.commits ++ [⟨origin, profile⟩] } pid .idle).Invariant serde outside where
  staged pid' origin' profile' hp' := by
    have hne : pid' ≠ pid := by
      rintro rfl
      simp [Store.setPhase] at hp'
    have htmp : tmpName profile'.profile pid' ≠ tmpName profile.profile pid := fun heq => hne (tmpName_pid_inj heq)
    simp only [Store.setPhase, Function.update_of_ne hne] at hp'
    simpa [Store.setPhase, tmpName_ne_dataName, htmp] using h.staged pid' origin' profile' hp'
  stored key := by
    have hdecoded := Option.some.inj ((h.staged pid origin profile hp).symm.trans hbytes)
    by_cases hkey : sanitizeFilenameComponent profile.profile = sanitizeFilenameComponent key
    · have hlast : lastNamed key (s.commits ++ [⟨origin, profile⟩]) = some profile := lastNamed_concat_of_eq hkey
      simp [Store.setPhase, hlast, hdecoded, dataName_inj.mpr hkey.symm]
    · have hlast : lastNamed key (s.commits ++ [⟨origin, profile⟩]) = lastNamed key s.commits :=
        lastNamed_concat_of_ne hkey
      have hne : dataName key ≠ dataName profile.profile := fun heq => hkey (dataName_inj.mp heq).symm
      simpa [Store.setPhase, hlast, hne, (tmpName_ne_dataName _ _ _).symm] using h.stored key
  locked pid' key' hk := by
    have hne : pid' ≠ pid := by
      rintro rfl
      simp [Store.setPhase, heldKey] at hk
    simp only [Store.setPhase, Function.update_of_ne hne] at hk
    exact h.locked pid' key' hk
  seen pid' key' current ho := by
    have hne : pid' ≠ pid := by
      rintro rfl
      simp [Store.setPhase, Phase.origin] at ho
    simp only [Store.setPhase, Function.update_of_ne hne] at ho
    refine (h.seen pid' key' current ho).concat ?_
    -- 同じ鍵の更新が 2 つロックを持つことはない
    intro hkey
    have hk' := heldKey_of_origin ho
    have hk : heldKey (s.procs pid) = some key' := by rw [hp]; exact hkey
    obtain ⟨file, hf, -⟩ := h.locked pid key' hk
    exact hne (h.holder_unique hk' hk hf hf)
  committed before c after key' current heq ho := by
    rcases List.eq_nil_or_concat after with rfl | ⟨after', c', rfl⟩
    · obtain ⟨rfl, hc⟩ := List.append_inj' heq rfl
      obtain rfl := List.singleton_inj.mp hc
      exact h.seen pid key' current (by rw [hp]; exact ho)
    · rw [List.concat_eq_append, ← List.cons_append, ← List.append_assoc] at heq
      exact h.committed before c after' key' current (List.append_inj' heq rfl).1 ho

theorem stepProc (h : s.Invariant serde outside) {s' : Store β} (hs : s.stepProc serde outside pid = some s') :
    s'.Invariant serde outside := by
  unfold Store.stepProc at hs
  split at hs
  · cases hs
  · split at hs
    · obtain rfl := Option.some.inj hs
      have hidle : (s.setPhase pid .idle).Invariant serde outside := h.idle
      exact ⟨hidle.staged, hidle.stored, hidle.locked, hidle.seen, hidle.committed⟩
    · rename_i key update hp file hfile
      split at hs
      · rename_i hfree
        obtain rfl := Option.some.inj hs
        exact h.acquire hfile hfree
      · cases hs
  · rename_i key update hp
    rw [h.load key] at hs
    obtain rfl := Option.some.inj hs
    refine h.setPhase (fun _ _ heq => by cases heq) ?_ ?_
    · intro key' hk
      obtain rfl := Option.some.inj hk
      exact h.locked pid key (by rw [hp]; rfl)
    · intro key' current ho
      obtain ⟨rfl, rfl⟩ := Prod.mk.inj (Option.some.inj ho)
      exact fresh_self key s.commits
  · rename_i origin profile hp
    obtain rfl := Option.some.inj hs
    have hput := h.putTmp pid profile.profile (serde.toVecPretty profile) (by simp [hp])
    refine hput.setPhase ?_ ?_ ?_
    · intro origin' profile' heq
      obtain ⟨rfl, rfl⟩ := Phase.staged.inj heq
      simp
    · intro key hk
      exact h.locked pid key (by rw [hp]; exact hk)
    · intro key current ho
      exact h.seen pid key current (by rw [hp]; exact ho)
  · rename_i origin profile hp
    dsimp only at hs
    have hk : heldKey (s.procs pid) = origin.map Prod.fst := by rw [hp]; rfl
    split at hs
    · obtain rfl := Option.some.inj hs
      exact h.finish hk rfl h.idle
    · rename_i bytes hbytes
      obtain rfl := Option.some.inj hs
      exact h.finish hk rfl (h.commit hp hbytes)

theorem abortProc (h : s.Invariant serde outside) {partialBytes : Option ByteArray} :
    (s.abortProc outside pid partialBytes).Invariant serde outside := by
  unfold Store.abortProc leavePartial
  split
  · rename_i origin profile bytes hp
    exact h.finish rfl rfl (h.putTmp pid profile.profile bytes (by simp [hp])).idle
  · exact h.finish rfl rfl h.idle

theorem step (h : s.Invariant serde outside) {a : Action β} {s' : Store β} (hs : s.Steps serde outside a s') :
    s'.Invariant serde outside := by
  cases a with
  | write pid profile =>
      simp only [Steps, Store.step] at hs
      split at hs
      · obtain rfl := Option.some.inj hs
        exact h.setPhase (fun _ _ heq => by cases heq) (fun _ heq => by cases heq) fun _ _ heq => by cases heq
      · cases hs
  | update pid key update =>
      simp only [Steps, Store.step] at hs
      split at hs
      · obtain rfl := Option.some.inj hs
        exact h.setPhase (fun _ _ heq => by cases heq) (fun _ heq => by cases heq) fun _ _ heq => by cases heq
      · cases hs
  | step pid => exact h.stepProc hs
  | abort pid partialBytes =>
      obtain rfl := Option.some.inj hs
      exact h.abortProc

end Invariant

theorem invariant_of_run {as : List (Action β)} {s : Store β}
    (h : Run (Steps serde outside) (Store.new β) as s) : s.Invariant serde outside :=
  h.invariant (fun _ _ _ hI hs => hI.step hs) .new

end Store

/-! ## 使う鍵 -/

/-- プロセスがこれから使う鍵は `K` に属する。 -/
def Phase.Within (K : Set Text) : Phase β → Prop
  | .idle => True
  | .acquiring key update | .loading key update => key ∈ K ∧ ∀ current, (update current).profile ∈ K
  | .writing origin profile | .staged origin profile =>
      (∀ key current, origin = some (key, current) → key ∈ K) ∧ profile.profile ∈ K

namespace Store

structure Within (K : Set Text) (s : Store β) : Prop where
  procs : ∀ pid, (s.procs pid).Within K
  profiles : ∀ c ∈ s.commits, c.profile.profile ∈ K
  origins : ∀ c ∈ s.commits, ∀ key current, c.origin = some (key, current) → key ∈ K
  refused : s.refused = []

namespace Within

variable {K : Set Text} {s : Store β} {pid : Nat}

theorem new : (Store.new β).Within K := ⟨fun _ => trivial, by simp [Store.new], by simp [Store.new], rfl⟩

theorem setPhase (h : s.Within K) {phase : Phase β} (hphase : phase.Within K) : (s.setPhase pid phase).Within K where
  procs pid' := by
    by_cases hp : pid' = pid
    · subst hp
      simpa [Store.setPhase] using hphase
    · simpa [Store.setPhase, hp] using h.procs pid'
  profiles := h.profiles
  origins := h.origins
  refused := h.refused

theorem finish (h : s.Within K) {key? : Option Text} : (s.finish outside pid key?).Within K := by
  have hidle : (s.setPhase pid .idle).Within K := h.setPhase trivial
  cases key? with
  | none => exact hidle
  | some key =>
      unfold Store.finish release
      dsimp only
      split
      · exact ⟨hidle.procs, hidle.profiles, hidle.origins, hidle.refused⟩
      · exact hidle

theorem putFiles (h : s.Within K) (files : Text → Option ByteArray) :
    ({ s with files := files } : Store β).Within K :=
  ⟨h.procs, h.profiles, h.origins, h.refused⟩

theorem commit (h : s.Within K) {files : Text → Option ByteArray} {profile : PersistentProfile β}
    {origin : Option (Text × Option (PersistentProfile β))}
    (horigin : ∀ key current, origin = some (key, current) → key ∈ K) (hprofile : profile.profile ∈ K) :
    ({ s with files := files, commits := s.commits ++ [⟨origin, profile⟩] } : Store β).Within K where
  procs := h.procs
  profiles := by
    intro c hc
    rcases List.mem_append.mp hc with hc | hc
    · exact h.profiles c hc
    · obtain rfl := List.mem_singleton.mp hc
      exact hprofile
  origins := by
    intro c hc
    rcases List.mem_append.mp hc with hc | hc
    · exact h.origins c hc
    · obtain rfl := List.mem_singleton.mp hc
      exact horigin
  refused := h.refused

theorem stepProc (h : s.Within K) (hlock : ∀ key ∈ K, (lockFile outside key).isSome) {s' : Store β}
    (hs : s.stepProc serde outside pid = some s') : s'.Within K := by
  have hphase := h.procs pid
  unfold Store.stepProc at hs
  split at hs
  · cases hs
  · rename_i key update hp
    rw [hp] at hphase
    split at hs
    · rename_i hnone
      simpa [hnone] using hlock key hphase.1
    · split at hs
      · obtain rfl := Option.some.inj hs
        have hset : (s.setPhase pid (.loading key update)).Within K := h.setPhase hphase
        exact ⟨hset.procs, hset.profiles, hset.origins, hset.refused⟩
      · cases hs
  · rename_i key update hp
    rw [hp] at hphase
    split at hs
    · obtain rfl := Option.some.inj hs
      exact h.finish
    · rename_i current hcur
      obtain rfl := Option.some.inj hs
      refine h.setPhase ⟨?_, hphase.2 current⟩
      intro key' current' ho
      obtain ⟨rfl, -⟩ := Prod.mk.inj (Option.some.inj ho)
      exact hphase.1
  · rename_i origin profile hp
    rw [hp] at hphase
    obtain rfl := Option.some.inj hs
    have hset : (s.setPhase pid (.staged origin profile)).Within K := h.setPhase hphase
    exact ⟨hset.procs, hset.profiles, hset.origins, hset.refused⟩
  · rename_i origin profile hp
    rw [hp] at hphase
    dsimp only at hs
    split at hs
    · obtain rfl := Option.some.inj hs
      exact h.finish
    · obtain rfl := Option.some.inj hs
      exact (h.commit hphase.1 hphase.2).finish

theorem step (h : s.Within K) (hlock : ∀ key ∈ K, (lockFile outside key).isSome) {a : Action β} {s' : Store β}
    (hs : s.Steps serde outside a s') (ha : a.Within K) : s'.Within K := by
  cases a with
  | write pid profile =>
      simp only [Steps, Store.step] at hs
      split at hs
      · obtain rfl := Option.some.inj hs
        exact h.setPhase ⟨fun _ _ ho => (by cases ho), ha⟩
      · cases hs
  | update pid key update =>
      simp only [Steps, Store.step] at hs
      split at hs
      · obtain rfl := Option.some.inj hs
        exact h.setPhase ha
      · cases hs
  | step pid => exact h.stepProc hlock hs
  | abort pid partialBytes =>
      obtain rfl := Option.some.inj hs
      unfold Store.abortProc leavePartial
      split
      · exact (h.putFiles _).finish
      · exact h.finish

end Within

theorem within_of_run {K : Set Text} (hlock : ∀ key ∈ K, (lockFile outside key).isSome) {as : List (Action β)}
    {s : Store β} (has : ∀ a ∈ as, a.Within K) (h : Run (Steps serde outside) (Store.new β) as s) : s.Within K :=
  (h.guarded_of_forall has).invariant_of_guarded (fun _ _ _ hI hs ha => hI.step hlock hs ha) .new

end Store

/-! ## 鍵の集合の上の写像 -/

variable {K : Set Text}

theorem lastUnder_concat_of_ne {key : Text} {commits : List (Commit β)} {c : Commit β} (h : c.profile.profile ≠ key) :
    lastUnder key (commits ++ [c]) = lastUnder key commits := by
  simp [lastUnder, h]

theorem lastNamed_eq_lastUnder (hinj : Set.InjOn sanitizeFilenameComponent K) {key : Text} (hkey : key ∈ K)
    {commits : List (Commit β)} (hc : ∀ c ∈ commits, c.profile.profile ∈ K) :
    lastNamed key commits = lastUnder key commits := by
  have hfilter : (commits.filter fun c =>
      sanitizeFilenameComponent c.profile.profile = sanitizeFilenameComponent key) =
      commits.filter fun c => c.profile.profile = key := by
    refine List.filter_congr ?_
    intro c hmem
    simp [hinj.eq_iff (hc c hmem) hkey]
  rw [lastNamed, lastUnder, hfilter]

/-- ファイル名が鍵ごとに異なり、ロックのファイルを開ける鍵だけを使う実行では、置き場は鍵からプロファイルへの写像である。 -/
theorem represented_of_run (hinj : Set.InjOn sanitizeFilenameComponent K)
    (hlock : ∀ key ∈ K, (lockFile outside key).isSome) {as : List (Action β)} {s : Store β}
    (has : ∀ a ∈ as, a.Within K) (h : Run (Store.Steps serde outside) (Store.new β) as s) : Coherent serde K s := by
  have hI := Store.invariant_of_run h
  have hW := Store.within_of_run hlock has h
  refine ⟨?_, ?_, hW.refused⟩
  · intro key hkey
    rw [hI.load key, lastNamed_eq_lastUnder hinj hkey hW.profiles]
  · intro before c after key current heq ho
    obtain ⟨before', after', rfl, hcur, hafter⟩ := hI.committed before c after key current heq ho
    have hmem : ∀ c' ∈ before' ++ after' ++ c :: after, c'.profile.profile ∈ K := heq ▸ hW.profiles
    have hkey : key ∈ K := hW.origins c (heq ▸ by simp) key current ho
    refine ⟨before', after', rfl, ?_, hafter⟩
    rw [hcur, lastNamed_eq_lastUnder hinj hkey]
    intro c' hc'
    exact hmem c' (List.mem_append_left _ (List.mem_append_left _ hc'))

theorem Coherent.isolated {s s' : Store β} (h : Coherent serde K s) (h' : Coherent serde K s') :
    Isolated serde K s s' := by
  intro c hc key hkey hne
  rw [h'.loads key hkey, h.loads key hkey, hc, lastUnder_concat_of_ne hne]

end IsekaiTerminal.Profile
