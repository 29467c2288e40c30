import IsekaiTerminal.HelperCache.Lemmas.Exec

/-!
# 重ならない実行

どの場所でも 1 つの実行だけが進み、その間に「最新」が動かないなら、落とすファイルは始めから終わりまで同じであり、どの操作も
追い越さない。
-/

namespace IsekaiTerminal.HelperCache

open Lib SshConfig

variable {W : World} {s s' : Shared} {t : Task} {d : Download} {op op' : Op} {rest : List Op} {k : Choice}

/-! ## 実行が独りで進む間に成り立つこと -/

namespace Shared

/-- 今落とすファイルが、もう置き場にある。 -/
def Placed (W : World) (s : Shared) (t : Task) : Prop :=
  ∃ d, s.download W t.source t.assetName = some d ∧ (s.entryAt W t).binary = some d.bytes

theorem download_congr {source : ReleaseSource} (name : Text) (h : s'.latest source.repo = s.latest source.repo) :
    s'.download W source name = s.download W source name := by
  rw [download, download, resolve, resolve, h]

theorem Placed.congr (h : s.Placed W t) (hlatest : s'.latest t.source.repo = s.latest t.source.repo)
    (hbinary : (s'.entryAt W t).binary = (s.entryAt W t).binary) : s'.Placed W t := by
  obtain ⟨d, hd, hb⟩ := h
  exact ⟨d, (download_congr _ hlatest).trans hd, hbinary.trans hb⟩

/-- 「最新」を求める実行が置いたファイルは、今の「最新」のファイルである。 -/
theorem Placed.asset (h : s.Placed W t) (hsource : t.source.tag = none) {tag : Text}
    (htag : s.latest t.source.repo = some tag) : W.asset t.source.repo tag t.assetName = (s.entryAt W t).binary := by
  obtain ⟨d, hd, hb⟩ := h
  obtain ⟨tag', hresolve, hd⟩ := Option.bind_eq_some_iff.mp hd
  obtain ⟨bytes, hasset, hd⟩ := Option.bind_eq_some_iff.mp hd
  obtain rfl := Option.some.inj hd
  rw [resolve, hsource, Option.none_or, htag] at hresolve
  obtain rfl := Option.some.inj hresolve
  exact hasset.trans hb.symm

end Shared

/-- 印を書く実行に成り立つこと。 -/
def Marking.Settled (W : World) (s : Shared) (t : Task) : Marking → Prop
  | .digest _ | .checked _ true => s.Placed W t
  | .checked _ false => True
  | .releaseTag _ => s.Placed W t ∧ t.source.tag = none

/-- 読んだものと落としたものは、今も変わらない。 -/
def Op.Unchanged (W : World) (s : Shared) : Op → Prop
  | .fetchLatest t | .readReleaseTag t _ | .fetchBefore t => t.source.tag = none
  | .get t previous => ∀ bytes ∈ previous, (s.entryAt W t).binary = some bytes
  | .getSidecar t d previous | .createDirAll t d previous =>
      s.download W t.source t.assetName = some d ∧ ∀ bytes ∈ previous, (s.entryAt W t).binary = some bytes
  | .createTemp t d | .writeTemp t d _ | .setPermissions t d | .rename t d => s.download W t.source t.assetName = some d
  | .createMark t m | .writeMark t m _ => m.Settled W s t
  | .fetchAfter t _ => s.Placed W t ∧ t.source.tag = none
  | .pathExists _ | .readBinary _ | .readLocalSha256 _ _ | .readMetadata _ | .readLastChecked _ | .readPrevious _
  | .finish _ => True

structure Op.Settled (W : World) (s : Shared) (op : Op) : Prop where
  unpinned : op.task.tagBefore = none ∨ op.task.source.tag = none
  unchanged : op.Unchanged W s

theorem Marking.Settled.congr {m : Marking} (h : m.Settled W s t) (hlatest : s'.latest t.source.repo = s.latest t.source.repo)
    (hbinary : (s'.entryAt W t).binary = (s.entryAt W t).binary) : m.Settled W s' t := by
  cases m with
  | digest d => exact Shared.Placed.congr h hlatest hbinary
  | checked secs downloaded =>
      cases downloaded with
      | false => trivial
      | true => exact Shared.Placed.congr h hlatest hbinary
  | releaseTag tag => exact ⟨h.1.congr hlatest hbinary, h.2⟩

/-- 他の場所の実行は、成り立つことを変えない。 -/
theorem Op.Settled.congr (h : op.Settled W s) (hlatest : s'.latest op.task.source.repo = s.latest op.task.source.repo)
    (hbinary : (s'.entryAt W op.task).binary = (s.entryAt W op.task).binary) : op.Settled W s' := by
  refine ⟨h.unpinned, ?_⟩
  have hdownload := Shared.download_congr (W := W) op.task.assetName hlatest
  have hu := h.unchanged
  cases op with
  | get t previous => exact fun bytes hbytes => hbinary.trans (hu bytes hbytes)
  | getSidecar t d previous => exact ⟨hdownload.trans hu.1, fun bytes hbytes => hbinary.trans (hu.2 bytes hbytes)⟩
  | createDirAll t d previous => exact ⟨hdownload.trans hu.1, fun bytes hbytes => hbinary.trans (hu.2 bytes hbytes)⟩
  | createTemp t d => exact hdownload.trans hu
  | writeTemp t d written => exact hdownload.trans hu
  | setPermissions t d => exact hdownload.trans hu
  | rename t d => exact hdownload.trans hu
  | createMark t m => exact Marking.Settled.congr hu hlatest hbinary
  | writeMark t m written => exact Marking.Settled.congr hu hlatest hbinary
  | fetchAfter t tagBefore => exact ⟨hu.1.congr hlatest hbinary, hu.2⟩
  | _ => exact hu

/-! ## 1 回の操作の続き -/

/-- `op'` は `op` と同じ実行の続きである。 -/
structure Op.Follows (W : World) (s : Shared) (op op' : Op) : Prop where
  source : op'.task.source = op.task.source
  assetName : op'.task.assetName = op.task.assetName
  settled : op'.Settled W s

namespace Op.Settled

theorem next (h : op.Settled W s) (htask : op'.task = op.task) (hu : op'.Unchanged W s') : op.Follows W s' op' where
  source := by rw [htask]
  assetName := by rw [htask]
  settled := ⟨by rw [htask]; exact h.unpinned, hu⟩

theorem fail (h : op.Settled W s) : ∀ op' ∈ op.task.fail, op.Follows W s' op' := by
  intro op' hop'
  rw [Task.fail] at hop'
  split at hop'
  · obtain rfl := List.mem_singleton.mp hop'
    exact h.next rfl trivial
  · cases hop'

theorem revalidate (h : op.Settled W s) (cacheExisted : Bool) : op.Follows W s' (op.task.revalidate cacheExisted) := by
  rw [Task.revalidate]
  dsimp only
  split
  · exact ⟨rfl, rfl, h.unpinned, trivial⟩
  · rename_i htag
    have hsource : op.task.source.tag = none := Option.not_isSome_iff_eq_none.mp htag
    split
    · exact ⟨rfl, rfl, h.unpinned, hsource⟩
    · exact ⟨rfl, rfl, h.unpinned, hsource⟩

theorem marked (h : op.Settled W s) (now : Nat) {m : Marking} (hm : m.Settled W s' op.task) :
    op.Follows W s' (op.task.marked now m) := by
  cases m with
  | digest d => exact h.next rfl hm
  | checked secs downloaded =>
      cases downloaded with
      | false => exact h.next rfl trivial
      | true =>
          rw [Task.marked, Task.downloaded]
          split
          · rename_i tag htag
            have hsource : op.task.source.tag = none := h.unpinned.resolve_left fun hnone => by
              rw [hnone] at htag
              cases htag
            exact h.next rfl ⟨hm, hsource⟩
          · exact h.next rfl trivial
  | releaseTag tag => exact h.next rfl trivial

theorem unmarked (h : op.Settled W s) (m : Marking) : ∀ op' ∈ op.task.unmarked m, op.Follows W s' op' := by
  cases m with
  | digest d => exact h.fail
  | checked secs downloaded => exact h.fail
  | releaseTag tag =>
      intro op' hop'
      obtain rfl := List.mem_singleton.mp hop'
      exact h.next rfl trivial

/-! ## 操作 -/

theorem pathExists (h : (Op.pathExists t).Settled W s) (hk : k.alive = true) :
    ∀ op' ∈ (s.exec W (.pathExists t) k).2.1, (Op.pathExists t).Follows W (s.exec W (.pathExists t) k).1 op' := by
  simp only [Shared.exec, hk, if_true, List.forall_mem_singleton]
  split
  · exact h.next rfl trivial
  · exact h.revalidate false

theorem readBinary (h : (Op.readBinary t).Settled W s) (hk : k.alive = true) :
    ∀ op' ∈ (s.exec W (.readBinary t) k).2.1, (Op.readBinary t).Follows W (s.exec W (.readBinary t) k).1 op' := by
  simp only [Shared.exec, hk, if_true]
  split
  · exact List.forall_mem_singleton.mpr (h.next rfl trivial)
  · exact List.forall_mem_singleton.mpr (h.revalidate false)

theorem readLocalSha256 {bytes : Bytes} (h : (Op.readLocalSha256 t bytes).Settled W s) (hk : k.alive = true) :
    ∀ op' ∈ (s.exec W (.readLocalSha256 t bytes) k).2.1,
      (Op.readLocalSha256 t bytes).Follows W (s.exec W (.readLocalSha256 t bytes) k).1 op' := by
  simp only [Shared.exec, hk, if_true]
  split
  · refine List.forall_mem_singleton.mpr ?_
    split
    · exact h.next rfl trivial
    · exact h.revalidate false
  · exact List.forall_mem_singleton.mpr (h.revalidate false)

theorem readMetadata (h : (Op.readMetadata t).Settled W s) (hk : k.alive = true) :
    ∀ op' ∈ (s.exec W (.readMetadata t) k).2.1, (Op.readMetadata t).Follows W (s.exec W (.readMetadata t) k).1 op' := by
  simp only [Shared.exec, hk, if_true, List.forall_mem_singleton]
  split
  · split
    · exact h.next rfl trivial
    · exact h.next rfl trivial
  · exact h.revalidate false

theorem readLastChecked (h : (Op.readLastChecked t).Settled W s) (hk : k.alive = true) :
    ∀ op' ∈ (s.exec W (.readLastChecked t) k).2.1,
      (Op.readLastChecked t).Follows W (s.exec W (.readLastChecked t) k).1 op' := by
  simp only [Shared.exec, hk, if_true, List.forall_mem_singleton]
  split
  · exact h.next rfl trivial
  · exact h.revalidate true

theorem fetchLatest (h : (Op.fetchLatest t).Settled W s) (hk : k.alive = true) :
    ∀ op' ∈ (s.exec W (.fetchLatest t) k).2.1, (Op.fetchLatest t).Follows W (s.exec W (.fetchLatest t) k).1 op' := by
  have hsource : t.source.tag = none := h.unchanged
  simp only [Shared.exec, hk, if_true]
  split
  · exact List.forall_mem_singleton.mpr (h.next rfl hsource)
  · exact h.fail

theorem readReleaseTag {latestTag : Text} (h : (Op.readReleaseTag t latestTag).Settled W s) (hk : k.alive = true) :
    ∀ op' ∈ (s.exec W (.readReleaseTag t latestTag) k).2.1,
      (Op.readReleaseTag t latestTag).Follows W (s.exec W (.readReleaseTag t latestTag) k).1 op' := by
  have hsource : t.source.tag = none := h.unchanged
  simp only [Shared.exec, hk, if_true]
  split
  · exact List.forall_mem_singleton.mpr (h.next rfl trivial)
  · exact List.forall_mem_singleton.mpr ⟨rfl, rfl, Or.inr hsource, trivial⟩

theorem fetchBefore (h : (Op.fetchBefore t).Settled W s) (hk : k.alive = true) :
    ∀ op' ∈ (s.exec W (.fetchBefore t) k).2.1, (Op.fetchBefore t).Follows W (s.exec W (.fetchBefore t) k).1 op' := by
  have hsource : t.source.tag = none := h.unchanged
  simp only [Shared.exec, hk, if_true, List.forall_mem_singleton]
  exact ⟨rfl, rfl, Or.inr hsource, trivial⟩

theorem readPrevious (h : (Op.readPrevious t).Settled W s) (hk : k.alive = true) :
    ∀ op' ∈ (s.exec W (.readPrevious t) k).2.1, (Op.readPrevious t).Follows W (s.exec W (.readPrevious t) k).1 op' := by
  simp only [Shared.exec, hk, if_true, List.forall_mem_singleton]
  refine h.next rfl ?_
  intro bytes hbytes
  exact (Option.ite_none_right_eq_some.mp hbytes).2

theorem get {previous : Option Bytes} (h : (Op.get t previous).Settled W s) (hk : k.alive = true) :
    ∀ op' ∈ (s.exec W (.get t previous) k).2.1, (Op.get t previous).Follows W (s.exec W (.get t previous) k).1 op' := by
  simp only [Shared.exec, hk, if_true]
  split
  · rename_i d hd
    exact List.forall_mem_singleton.mpr (h.next rfl ⟨(Option.ite_none_right_eq_some.mp hd).2, h.unchanged⟩)
  · exact h.fail

theorem getSidecar {previous : Option Bytes} (h : (Op.getSidecar t d previous).Settled W s) (hk : k.alive = true) :
    ∀ op' ∈ (s.exec W (.getSidecar t d previous) k).2.1,
      (Op.getSidecar t d previous).Follows W (s.exec W (.getSidecar t d previous) k).1 op' := by
  simp only [Shared.exec, hk, if_true]
  split
  · exact List.forall_mem_singleton.mpr (h.next rfl h.unchanged)
  · exact h.fail

theorem createDirAll {previous : Option Bytes} (h : (Op.createDirAll t d previous).Settled W s) (hk : k.alive = true) :
    ∀ op' ∈ (s.exec W (.createDirAll t d previous) k).2.1,
      (Op.createDirAll t d previous).Follows W (s.exec W (.createDirAll t d previous) k).1 op' := by
  obtain ⟨hd, hprevious⟩ := h.unchanged
  simp only [Shared.exec, hk, if_true]
  split
  · refine List.forall_mem_singleton.mpr ?_
    split
    · rename_i heq
      exact h.next rfl ⟨d, hd, hprevious _ heq⟩
    · exact h.next rfl hd
  · exact h.fail

theorem createTemp (h : (Op.createTemp t d).Settled W s) (hk : k.alive = true) :
    ∀ op' ∈ (s.exec W (.createTemp t d) k).2.1, (Op.createTemp t d).Follows W (s.exec W (.createTemp t d) k).1 op' := by
  simp only [Shared.exec, hk, if_true]
  split
  · exact List.forall_mem_singleton.mpr (h.next rfl h.unchanged)
  · exact h.fail

theorem writeTemp {written : Nat} (h : (Op.writeTemp t d written).Settled W s) (hk : k.alive = true) :
    ∀ op' ∈ (s.exec W (.writeTemp t d written) k).2.1,
      (Op.writeTemp t d written).Follows W (s.exec W (.writeTemp t d written) k).1 op' := by
  simp only [Shared.exec, hk, if_true]
  split <;> split
  · exact List.forall_mem_singleton.mpr (h.next rfl h.unchanged)
  · exact h.fail
  · exact List.forall_mem_singleton.mpr (h.next rfl h.unchanged)
  · exact h.fail

theorem setPermissions (h : (Op.setPermissions t d).Settled W s) (hk : k.alive = true) :
    ∀ op' ∈ (s.exec W (.setPermissions t d) k).2.1,
      (Op.setPermissions t d).Follows W (s.exec W (.setPermissions t d) k).1 op' := by
  simp only [Shared.exec, hk, if_true]
  split
  · exact List.forall_mem_singleton.mpr (h.next rfl h.unchanged)
  · exact h.fail

theorem rename (h : (Op.rename t d).Settled W s) (hstored : (Op.rename t d).Stored W s) (hk : k.alive = true) :
    ∀ op' ∈ (s.exec W (.rename t d) k).2.1, (Op.rename t d).Follows W (s.exec W (.rename t d) k).1 op' := by
  simp only [Shared.exec, hk, if_true]
  split
  · rename_i bytes htemp
    obtain ⟨-, htemp⟩ := Option.ite_none_right_eq_some.mp htemp
    obtain rfl : d.bytes = bytes := Option.some.inj (hstored.symm.trans htemp)
    refine List.forall_mem_singleton.mpr (h.next rfl ⟨d, h.unchanged, ?_⟩)
    rw [Shared.setBinary, Shared.Invariant.entries_setEntry_self]
  · exact h.fail

theorem binary_setMark (s : Shared) (t : Task) (m : Mark) (content : Bytes) :
    ((s.setMark W t m content).entryAt W t).binary = (s.entryAt W t).binary := by
  rw [Shared.setMark, Shared.Invariant.entries_setEntry_self]

theorem createMark {m : Marking} (h : (Op.createMark t m).Settled W s) (hk : k.alive = true) :
    ∀ op' ∈ (s.exec W (.createMark t m) k).2.1, (Op.createMark t m).Follows W (s.exec W (.createMark t m) k).1 op' := by
  simp only [Shared.exec, hk, if_true]
  split
  · exact List.forall_mem_singleton.mpr (h.next rfl (Marking.Settled.congr h.unchanged rfl (binary_setMark s t _ _)))
  · exact h.unmarked m

theorem writeMark {m : Marking} {written : Nat} (h : (Op.writeMark t m written).Settled W s) (hk : k.alive = true) :
    ∀ op' ∈ (s.exec W (.writeMark t m written) k).2.1,
      (Op.writeMark t m written).Follows W (s.exec W (.writeMark t m written) k).1 op' := by
  have hm (content : Bytes) : m.Settled W (s.setMark W t m.file content) t :=
    Marking.Settled.congr h.unchanged rfl (binary_setMark s t _ _)
  simp only [Shared.exec, hk, if_true]
  split <;> split
  · exact List.forall_mem_singleton.mpr (h.marked k.now (hm _))
  · exact h.unmarked m
  · exact List.forall_mem_singleton.mpr (h.next rfl (hm _))
  · exact h.unmarked m

theorem fetchAfter {tagBefore : Text} (h : (Op.fetchAfter t tagBefore).Settled W s) (hk : k.alive = true) :
    ∀ op' ∈ (s.exec W (.fetchAfter t tagBefore) k).2.1,
      (Op.fetchAfter t tagBefore).Follows W (s.exec W (.fetchAfter t tagBefore) k).1 op' := by
  simp only [Shared.exec, hk, if_true, List.forall_mem_singleton]
  split
  · exact h.next rfl h.unchanged
  · exact h.next rfl trivial

theorem exec (h : op.Settled W s) (hstored : op.Stored W s) :
    ∀ op' ∈ (s.exec W op k).2.1, op.Follows W (s.exec W op k).1 op' := by
  by_cases hk : k.alive = true
  · cases op with
    | pathExists t => exact h.pathExists hk
    | readBinary t => exact h.readBinary hk
    | readLocalSha256 t bytes => exact h.readLocalSha256 hk
    | readMetadata t => exact h.readMetadata hk
    | readLastChecked t => exact h.readLastChecked hk
    | fetchLatest t => exact h.fetchLatest hk
    | readReleaseTag t latestTag => exact h.readReleaseTag hk
    | fetchBefore t => exact h.fetchBefore hk
    | readPrevious t => exact h.readPrevious hk
    | get t previous => exact h.get hk
    | getSidecar t d previous => exact h.getSidecar hk
    | createDirAll t d previous => exact h.createDirAll hk
    | createTemp t d => exact h.createTemp hk
    | writeTemp t d written => exact h.writeTemp hk
    | setPermissions t d => exact h.setPermissions hk
    | rename t d => exact h.rename hstored hk
    | createMark t m => exact h.createMark hk
    | writeMark t m written => exact h.writeMark hk
    | fetchAfter t tagBefore => exact h.fetchAfter hk
    | finish t =>
        simp only [Shared.exec, hk, if_true]
        exact fun op' hop' => by cases hop'
  · simp only [Shared.exec, hk]
    exact fun op' hop' => by cases hop'

end Op.Settled

/-! ## 共有の状態 -/

/-- 操作は、自分の場所だけを変える。特定のタグを求める実行は、タグを記録しない。 -/
structure Shared.Confined (W : World) (s s' : Shared) (t : Task) : Prop where
  started : s'.started = s.started
  latest : s'.latest = s.latest
  entries : ∀ e, e ≠ t.entry W → s'.entries e = s.entries e
  recorded : t.source.tag ≠ none → s'.recorded W t = s.recorded W t

namespace Shared

theorem Confined.of_entries (hstarted : s'.started = s.started) (hlatest : s'.latest = s.latest)
    (hentries : s'.entries = s.entries) : s.Confined W s' t := by
  refine ⟨hstarted, hlatest, fun e _ => congrFun hentries e, ?_⟩
  intro _
  rw [Shared.recorded, Shared.recorded, entryAt, entryAt, hentries]

theorem Confined.setEntry (s : Shared) (t : Task) (e : Entry)
    (hrecorded : t.source.tag ≠ none → e.marks .releaseTag = (s.entryAt W t).marks .releaseTag) :
    s.Confined W (s.setEntry W t e) t := by
  refine ⟨rfl, rfl, fun _ he => Invariant.entries_setEntry_of_ne s t e he, ?_⟩
  intro htag
  rw [Shared.recorded, Shared.recorded, Invariant.entries_setEntry_self, hrecorded htag]

theorem Confined.setMark {m : Marking} (h : m.Settled W s t) (content : Bytes) :
    s.Confined W (s.setMark W t m.file content) t := by
  refine Confined.setEntry s t _ ?_
  intro htag
  cases m with
  | digest d => rfl
  | checked secs downloaded => rfl
  | releaseTag tag => exact absurd h.2 htag

theorem exec_confined (h : op.Settled W s) : s.Confined W (s.exec W op k).1 op.task := by
  by_cases hk : k.alive = true
  · cases op with
    | rename t d =>
        simp only [exec, hk, if_true]
        split
        · rename_i bytes htemp
          obtain ⟨hstarted, hlatest, hentries, hrecorded⟩ := Confined.setEntry (W := W) (s.setTemp W t none) t
            { s.entryAt W t with binary := some bytes } fun _ => rfl
          exact ⟨hstarted, hlatest, hentries, hrecorded⟩
        · exact .of_entries rfl rfl rfl
    | createMark t m =>
        simp only [exec, hk, if_true]
        split
        · exact Confined.setMark h.unchanged []
        · exact .of_entries rfl rfl rfl
    | writeMark t m written =>
        simp only [exec, hk, if_true]
        split <;> exact Confined.setMark h.unchanged _
    | _ =>
        simp only [exec, hk, if_true]
        repeat' split
        all_goals exact .of_entries rfl rfl rfl
  · simp only [exec, hk]
    exact .of_entries rfl rfl rfl

theorem exec_length_le (s : Shared) (op : Op) (k : Choice) : (s.exec W op k).2.1.length ≤ 1 := by
  have hfail (t : Task) : t.fail.length ≤ 1 := by
    rw [Task.fail]
    split <;> simp
  have hunmarked (t : Task) (m : Marking) : (t.unmarked m).length ≤ 1 := by
    cases m <;> simp [Task.unmarked, hfail]
  cases op <;> simp only [exec] <;> (repeat' split) <;> simp [hfail, hunmarked]

/-! ## 不変条件 -/

structure Serialized (W : World) (s : Shared) (ops : List Op) : Prop where
  entries : (ops.map fun op => op.task.entry W).Nodup
  settled : ∀ op ∈ ops, op.Settled W s
  pinned : ∀ t ∈ s.started, t.source.tag ≠ none → s.recorded W t = none

namespace Serialized

theorem perm {ops ops' : List Op} (h : s.Serialized W ops) (hp : ops.Perm ops') : s.Serialized W ops' where
  entries := (hp.map _).nodup_iff.mp h.entries
  settled op hop := h.settled op (hp.mem_iff.mpr hop)
  pinned := h.pinned

theorem head (h : s.Serialized W (op :: rest)) : op.Settled W s := h.settled op List.mem_cons_self

theorem entry_ne (h : s.Serialized W (op :: rest)) (hop' : op' ∈ rest) : op'.task.entry W ≠ op.task.entry W := by
  intro heq
  exact (List.nodup_cons.mp h.entries).1 (List.mem_map.mpr ⟨op', hop', heq⟩)

/-- 独りで場所を使う実行が知るのは、今の「最新」だけである。 -/
theorem latest_of_known (h : s.Serialized W (op :: rest)) {tag : Text} (hk : s.Known W rest op.task tag) :
    s.latest op.task.source.repo = some tag := by
  rcases hk with hk | ⟨op', hop', hk⟩
  · exact hk
  · cases op' with
    | readReleaseTag t latestTag =>
        obtain ⟨heq, -⟩ := Option.ite_none_right_eq_some.mp hk
        exact absurd heq (h.entry_ne hop')
    | _ => cases hk

/-- 特定のタグを求める実行の場所に、タグの記録はない。 -/
theorem recorded_eq_none (h : s.Serialized W (op :: rest)) (hI : s.Invariant W (op :: rest))
    (htag : op.task.source.tag ≠ none) : s.recorded W op.task = none := by
  obtain ⟨t, ht, hsource, hname⟩ := hI.head.started
  have hat : s.entryAt W op.task = s.entryAt W t := entryAt_congr (entry_congr hsource hname)
  rw [recorded, hat]
  exact h.pinned t ht (hsource ▸ htag)

/-- 独りで場所を使う実行は、追い越さない。 -/
theorem ordered (h : s.Serialized W (op :: rest)) (hI : s.Invariant W (op :: rest)) : op.Ordered W s rest k := by
  cases op with
  | rename t d =>
      intro _ _ tag htag hk
      have hlatest := h.latest_of_known hk
      by_cases hsource : t.source.tag = none
      · obtain ⟨tag', hresolve, hd⟩ := Option.bind_eq_some_iff.mp h.head.unchanged
        obtain ⟨bytes, hasset, hd⟩ := Option.bind_eq_some_iff.mp hd
        obtain rfl := Option.some.inj hd
        rw [resolve, hsource, Option.none_or] at hresolve
        obtain rfl := Option.some.inj (hlatest.symm.trans hresolve)
        exact hasset
      · cases (h.recorded_eq_none hI hsource).symm.trans htag
  | writeMark t m written =>
      cases m with
      | digest d => trivial
      | checked secs downloaded => trivial
      | releaseTag tagBefore =>
          intro _ tag _ hk
          obtain ⟨hplaced, hsource⟩ : s.Placed W t ∧ t.source.tag = none := h.head.unchanged
          exact hplaced.asset hsource (h.latest_of_known hk)
  | _ => trivial

theorem exec (h : s.Serialized W (op :: rest)) (hI : s.Invariant W (op :: rest)) :
    (s.exec W op k).1.Serialized W ((s.exec W op k).2.1 ++ rest) := by
  have hnew := h.head.exec (k := k) hI.head.stored
  have hconfined := exec_confined (k := k) h.head
  have hlength := exec_length_le (W := W) s op k
  generalize (s.exec W op k).1 = s' at hnew hconfined
  generalize (s.exec W op k).2.1 = new at hnew hlength
  refine ⟨?_, ?_, ?_⟩
  · have hentries := List.nodup_cons.mp h.entries
    cases new with
    | nil => exact hentries.2
    | cons op' tail =>
        obtain rfl : tail = [] := List.eq_nil_of_length_eq_zero (Nat.le_zero.mp (Nat.le_of_succ_le_succ hlength))
        obtain ⟨hsource, hname, -⟩ := hnew op' List.mem_cons_self
        have hentry : op'.task.entry W = op.task.entry W := entry_congr hsource hname
        rw [List.singleton_append, List.map_cons, hentry]
        exact List.nodup_cons.mpr hentries
  · intro op' hop'
    rcases List.mem_append.mp hop' with hop' | hop'
    · exact (hnew op' hop').settled
    · refine (h.settled op' (List.mem_cons_of_mem _ hop')).congr (by rw [hconfined.latest]) ?_
      exact congrArg Entry.binary (hconfined.entries _ (h.entry_ne hop'))
  · intro t ht htag
    rw [hconfined.started] at ht
    by_cases he : t.entry W = op.task.entry W
    · obtain ⟨hsource, -⟩ := hI.sound.sameTask hI.head ht he
      have htag' : op.task.source.tag ≠ none := hsource ▸ htag
      have hat : s'.entryAt W t = s'.entryAt W op.task := entryAt_congr he
      rw [recorded, hat]
      exact (hconfined.recorded htag').trans (h.recorded_eq_none hI htag')
    · have hat : s'.entryAt W t = s.entryAt W t := hconfined.entries _ he
      rw [recorded, hat]
      exact h.pinned t ht htag

theorem start (latest : Text → Option Text) : (Shared.start latest).Serialized W [] where
  entries := List.nodup_nil
  settled _ hop := by cases hop
  pinned _ ht := by cases ht

/-- 新しい実行は、誰もいない場所で始まる。 -/
theorem begin (h : s.Serialized W rest) (hI : s.Invariant W rest) (t : Task) (htag : t.tagBefore = none)
    (halone : ∀ op ∈ rest, op.task.entry W ≠ t.entry W)
    (hseparate : ∀ t' ∈ s.started, t'.entry W = t.entry W → t'.source = t.source) :
    ({ s with started := s.started ++ [t] } : Shared).Serialized W (.pathExists t :: rest) where
  entries := by
    refine List.nodup_cons.mpr ⟨?_, h.entries⟩
    intro hm
    obtain ⟨op, hop, heq⟩ := List.mem_map.mp hm
    exact halone op hop heq
  settled op hop := by
    rcases List.mem_cons.mp hop with rfl | hop
    · exact ⟨Or.inl htag, trivial⟩
    · exact (h.settled op hop).congr rfl rfl
  pinned t' ht' hpinned := by
    rcases List.mem_append.mp ht' with ht' | ht'
    · exact h.pinned t' ht' hpinned
    · obtain rfl := List.mem_singleton.mp ht'
      by_cases hused : ∃ t₁ ∈ s.started, t₁.entry W = t'.entry W
      · obtain ⟨t₁, ht₁, heq⟩ := hused
        have hat : s.entryAt W t₁ = s.entryAt W t' := entryAt_congr heq
        have hnone := h.pinned t₁ ht₁ (by rw [hseparate t₁ ht₁ heq]; exact hpinned)
        rw [recorded, hat] at hnone
        exact hnone
      · exact hI.sound.fresh (t'.entry W) fun t₁ ht₁ heq => hused ⟨t₁, ht₁, heq⟩

theorem release (h : s.Serialized W rest) {repo : Text} {tag : Option Text} (hidle : ∀ op ∈ rest, op.task.source.repo ≠ repo) :
    (s.setLatest repo tag).Serialized W rest where
  entries := h.entries
  settled op hop := (h.settled op hop).congr (Function.update_of_ne (hidle op hop) _ _) rfl
  pinned := h.pinned

end Serialized

end Shared

/-! ## 実行 -/

namespace State

variable {p p' : State} {a : Action}

theorem ordered_of_serial (h : p.shared.Serialized W p.pending) (hI : p.shared.Invariant W p.pending)
    (hc : Serial W p a) : Ordered W p a := by
  cases a with
  | call c =>
      cases c with
      | start pid source arch => exact hc.1
      | release repo latest => exact hc.1
  | run i k =>
      intro op hop
      have hperm := List.perm_cons_erase (Pool.mem_pending hop)
      exact (h.perm hperm).ordered (hI.perm hperm)

theorem serialized_of_run {as : List Action} (h : Run (Guarded (Steps W) (Serial W)) p as p')
    (hp : p.shared.Invariant W p.pending ∧ p.shared.Serialized W p.pending) :
    p'.shared.Invariant W p'.pending ∧ p'.shared.Serialized W p'.pending := by
  have hrun : Run (Guarded (Pool.Steps Shared.call (Shared.exec W)) fun p a => Serial W p a ∧ Fresh p a) p as p' := by
    refine h.mono ?_
    intro p a p' hstep
    obtain ⟨hfresh, hs⟩ := Option.ite_none_right_eq_some.mp hstep.1
    exact ⟨hs, hstep.2, hfresh⟩
  refine Pool.invariant_of_run (I := fun s ops => s.Invariant W ops ∧ s.Serialized W ops) ?_ ?_ ?_ hrun hp
  · exact fun s ops ops' hperm hI => ⟨hI.1.perm hperm, hI.2.perm hperm⟩
  · intro p c s new hC hcall hI
    cases c with
    | start pid source arch =>
        obtain ⟨⟨hseparate, halone⟩, hpid⟩ := hC
        refine ⟨hI.1.call hcall hseparate ?_, ?_⟩
        · rintro _ _ _ ⟨⟩
          exact hpid
        · obtain ⟨assetName, hname, hcall⟩ := Option.bind_eq_some_iff.mp hcall
          obtain ⟨rfl, rfl⟩ := Prod.mk.inj (Option.some.inj hcall)
          exact hI.2.begin hI.1 ⟨pid, source, assetName, false, none⟩ rfl (halone assetName hname)
            fun t' ht' heq => hseparate assetName hname t' ht' heq
    | release repo tag =>
        refine ⟨hI.1.call hcall hC.1.1 fun _ _ _ hc => (by cases hc), ?_⟩
        obtain ⟨rfl, rfl⟩ := Prod.mk.inj (Option.some.inj hcall)
        exact hI.2.release hC.1.2
  · intro p i k op rest hC hnext hperm hI
    rw [Shared.exec_spawns, List.flatten_nil, List.append_nil]
    exact ⟨hI.1.exec (hI.2.ordered hI.1), hI.2.exec hI.1⟩

/-- 重ならない実行では、どの操作も追い越さない。 -/
theorem orderedRun_of_serialRun {latest : Text → Option Text} {as : List Action}
    (h : Run (Guarded (Steps W) (Serial W)) (start latest) as p) : Run (Guarded (Steps W) (Ordered W)) (start latest) as p := by
  refine h.guarded_of_invariant (I := fun p => p.shared.Invariant W p.pending ∧ p.shared.Serialized W p.pending) ?_
    ⟨.start latest, .start latest⟩
  intro p a p' hI hstep hc
  exact ⟨serialized_of_run (.single ⟨hstep, hc⟩) hI, ordered_of_serial hI.2 hI.1 hc⟩

end State

end IsekaiTerminal.HelperCache
