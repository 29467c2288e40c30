import IsekaiTerminal.HelperCache.Lemmas.Cache

/-!
# リリースのバイナリの置き場の操作

どの操作も不変条件を保つ。
-/

namespace IsekaiTerminal.HelperCache

open Lib SshConfig

variable {W : World} {s : Shared} {t : Task} {d : Download} {op : Op} {rest : List Op} {k : Choice}

namespace Shared

namespace Invariant

/-! ## 検査 -/

theorem pathExists (h : s.Invariant W (.pathExists t :: rest)) (hk : k.alive = true) :
    (s.exec W (.pathExists t) k).1.Invariant W ((s.exec W (.pathExists t) k).2.1 ++ rest) := by
  simp only [exec, hk, if_true]
  split
  · exact h.next rfl rfl rfl (fun d hd => by cases hd) trivial (fun hp => by cases hp) fun e => rfl
  · exact h.revalidate fun hf => by cases hf

theorem readBinary (h : s.Invariant W (.readBinary t :: rest)) (hk : k.alive = true) :
    (s.exec W (.readBinary t) k).1.Invariant W ((s.exec W (.readBinary t) k).2.1 ++ rest) := by
  simp only [exec, hk, if_true]
  split
  · rename_i bytes hread
    refine h.next rfl rfl rfl (fun d hd => by cases hd) trivial (fun _ => ?_) fun e => rfl
    exact Option.isSome_iff_exists.mpr ⟨bytes, (Option.ite_none_right_eq_some.mp hread).2⟩
  · exact h.revalidate fun hf => by cases hf

theorem readLocalSha256 {bytes : Bytes} (h : s.Invariant W (.readLocalSha256 t bytes :: rest)) (hk : k.alive = true) :
    (s.exec W (.readLocalSha256 t bytes) k).1.Invariant W ((s.exec W (.readLocalSha256 t bytes) k).2.1 ++ rest) := by
  simp only [exec, hk, if_true]
  split
  · split
    · exact h.next rfl rfl rfl (fun d hd => by cases hd) trivial (fun _ => h.head.present rfl) fun e => rfl
    · exact h.revalidate fun hf => by cases hf
  · exact h.revalidate fun hf => by cases hf

theorem readMetadata (h : s.Invariant W (.readMetadata t :: rest)) (hk : k.alive = true) :
    (s.exec W (.readMetadata t) k).1.Invariant W ((s.exec W (.readMetadata t) k).2.1 ++ rest) := by
  have hpresent := h.head.present rfl
  simp only [exec, hk, if_true]
  split
  · split
    · exact h.next rfl rfl rfl (fun d hd => by cases hd) trivial (fun _ => hpresent) fun e => rfl
    · exact h.next rfl rfl rfl (fun d hd => by cases hd) trivial (fun _ => hpresent) fun e => rfl
  · exact h.revalidate fun hf => by cases hf

theorem readLastChecked (h : s.Invariant W (.readLastChecked t :: rest)) (hk : k.alive = true) :
    (s.exec W (.readLastChecked t) k).1.Invariant W ((s.exec W (.readLastChecked t) k).2.1 ++ rest) := by
  have hpresent := h.head.present rfl
  simp only [exec, hk, if_true]
  split
  · exact h.next rfl rfl rfl (fun d hd => by cases hd) trivial (fun _ => hpresent) fun e => rfl
  · exact h.revalidate fun _ => hpresent

/-! ## 「最新」のタグ -/

theorem fetchLatest (h : s.Invariant W (.fetchLatest t :: rest)) (hk : k.alive = true) :
    (s.exec W (.fetchLatest t) k).1.Invariant W ((s.exec W (.fetchLatest t) k).2.1 ++ rest) := by
  simp only [exec, hk, if_true]
  split
  · rename_i tag hlatest
    refine h.advance ⟨h.head.started, fun d hd => (by cases hd), trivial, fun _ => h.head.present rfl⟩ rfl ?_
    intro t' ht' op' hop' tag' hcomparing
    obtain rfl := List.mem_singleton.mp hop'
    obtain ⟨he, htag⟩ := Option.ite_none_right_eq_some.mp hcomparing
    obtain rfl := Option.some.inj htag
    obtain ⟨hsource, -⟩ := h.sound.sameTask h.head ht' he.symm
    have hsource : t.source = t'.source := hsource
    rw [← hsource]
    exact (Option.ite_none_right_eq_some.mp hlatest).2
  · exact h.fail fun _ => rfl

theorem readReleaseTag {latestTag : Text} (h : s.Invariant W (.readReleaseTag t latestTag :: rest)) (hk : k.alive = true) :
    (s.exec W (.readReleaseTag t latestTag) k).1.Invariant W ((s.exec W (.readReleaseTag t latestTag) k).2.1 ++ rest) := by
  have hpresent := h.head.present rfl
  simp only [exec, hk, if_true]
  split
  · rename_i hsame
    have hrecorded : s.recorded W t = some latestTag := by
      rw [Bool.and_eq_true, beq_iff_eq] at hsame
      exact hsame.2
    have hv : (Op.createMark t (.checked k.now false)).Valid W
        { s with unchanged := s.unchanged ++ [s.sight W t (some latestTag)] } :=
      ⟨h.head.started, fun d hd => (by cases hd), trivial, fun _ => hpresent⟩
    refine h.stay ⟨rfl, fun _ hd => hd, fun _ _ _ => rfl, fun _ hb => hb⟩ le_rfl ?_ ?_ rfl rfl ?_
    · intro op' hop'
      obtain rfl := List.mem_singleton.mp hop'
      exact ⟨hv, rfl⟩
    · refine ⟨h.sound.separate, h.sound.plain, h.sound.downloads, h.sound.binaries, h.sound.fresh, h.sound.returned, ?_⟩
      intro v hv
      rcases List.mem_append.mp hv with hv | hv
      · exact h.sound.unchanged v hv
      · obtain rfl := List.mem_singleton.mp hv
        refine ⟨hpresent, ?_⟩
        intro tag htag
        obtain rfl := Option.some.inj htag
        exact h.upToDate hrecorded
    · intro t' ht' op' hop' tag htag
      obtain rfl := List.mem_singleton.mp hop'
      cases htag
  · exact h.next rfl rfl rfl (fun d hd => by cases hd) trivial (fun _ => hpresent) fun e => rfl

theorem fetchBefore (h : s.Invariant W (.fetchBefore t :: rest)) (hk : k.alive = true) :
    (s.exec W (.fetchBefore t) k).1.Invariant W ((s.exec W (.fetchBefore t) k).2.1 ++ rest) := by
  simp only [exec, hk, if_true]
  exact h.next rfl rfl rfl (fun d hd => by cases hd) trivial (fun hp => h.head.present hp) fun e => rfl

theorem fetchAfter {tagBefore : Text} (h : s.Invariant W (.fetchAfter t tagBefore :: rest)) (hk : k.alive = true) :
    (s.exec W (.fetchAfter t tagBefore) k).1.Invariant W ((s.exec W (.fetchAfter t tagBefore) k).2.1 ++ rest) := by
  simp only [exec, hk, if_true]
  split <;> exact h.next rfl rfl rfl (fun d hd => by cases hd) trivial (fun _ => h.head.present rfl) fun e => rfl

/-! ## ダウンロード -/

theorem readPrevious (h : s.Invariant W (.readPrevious t :: rest)) (hk : k.alive = true) :
    (s.exec W (.readPrevious t) k).1.Invariant W ((s.exec W (.readPrevious t) k).2.1 ++ rest) := by
  simp only [exec, hk, if_true]
  refine h.next rfl rfl rfl (fun d hd => by cases hd) trivial ?_ fun e => rfl
  intro hp
  rcases (Bool.or_eq_true _ _).mp hp with hp | hp
  · exact h.head.present hp
  · split at hp
    · exact hp
    · cases hp

theorem get {previous : Option Bytes} (h : s.Invariant W (.get t previous :: rest)) (hk : k.alive = true) :
    (s.exec W (.get t previous) k).1.Invariant W ((s.exec W (.get t previous) k).2.1 ++ rest) := by
  simp only [exec, hk, if_true]
  split
  · rename_i d hd
    have hd := (Option.ite_none_right_eq_some.mp hd).2
    obtain ⟨tag, hresolve, hd⟩ := Option.bind_eq_some_iff.mp hd
    obtain ⟨bytes, hasset, hd⟩ := Option.bind_eq_some_iff.mp hd
    obtain rfl := Option.some.inj hd
    obtain ⟨t', ht', hsource, hname⟩ := h.head.started
    have hpinned : ∀ tag' ∈ t.source.tag, tag = tag' := by
      intro tag' htag'
      rw [resolve, Option.mem_def.mp htag', Option.some_or] at hresolve
      exact (Option.some.inj hresolve).symm
    have hmem := List.mem_append_right s.downloads (List.mem_singleton_self (⟨t.source, t.assetName, tag, bytes⟩ : Download))
    refine h.stay ⟨rfl, fun _ hd => List.mem_append_left _ hd, fun _ _ _ => rfl, fun _ hb => hb⟩ le_rfl ?_ ?_ rfl rfl ?_
    · intro op' hop'
      obtain rfl := List.mem_singleton.mp hop'
      refine ⟨⟨⟨t', ht', hsource, hname⟩, ?_, trivial, fun hp => h.head.present hp⟩, rfl⟩
      intro d hd
      obtain rfl := Option.some.inj hd
      exact ⟨hmem, rfl, rfl⟩
    · refine ⟨h.sound.separate, h.sound.plain, ?_, ?_, h.sound.fresh, ?_, h.sound.unchanged⟩
      · intro d hd
        rcases List.mem_append.mp hd with hd | hd
        · exact h.sound.downloads d hd
        · obtain rfl := List.mem_singleton.mp hd
          exact ⟨⟨t', ht', hsource, hname⟩, hasset, hpinned⟩
      · intro e b hb
        obtain ⟨d, hd, hbytes⟩ := h.sound.binaries e b hb
        exact ⟨d, List.mem_append_left _ hd, hbytes⟩
      · intro v hv
        obtain ⟨d, hd, hgenuine⟩ := h.sound.returned v hv
        exact ⟨d, List.mem_append_left _ hd, hgenuine⟩
    · intro t'' ht'' op' hop' tag' htag'
      obtain rfl := List.mem_singleton.mp hop'
      cases htag'
  · exact h.fail fun hexisted => by rw [Op.present, show t.cacheExisted = true from hexisted, Bool.true_or]

theorem getSidecar {previous : Option Bytes} (h : s.Invariant W (.getSidecar t d previous :: rest)) (hk : k.alive = true) :
    (s.exec W (.getSidecar t d previous) k).1.Invariant W ((s.exec W (.getSidecar t d previous) k).2.1 ++ rest) := by
  simp only [exec, hk, if_true]
  split
  · exact h.next rfl rfl rfl (fun d hd => hd) trivial (fun hp => h.head.present hp) fun e => rfl
  · exact h.fail fun hexisted => by rw [Op.present, show t.cacheExisted = true from hexisted, Bool.true_or]

theorem createDirAll {previous : Option Bytes} (h : s.Invariant W (.createDirAll t d previous :: rest))
    (hk : k.alive = true) :
    (s.exec W (.createDirAll t d previous) k).1.Invariant W ((s.exec W (.createDirAll t d previous) k).2.1 ++ rest) := by
  have hexisted (hexisted : t.cacheExisted = true) : (Op.createDirAll t d previous).present = true := by
    rw [Op.present, hexisted, Bool.true_or]
  simp only [exec, hk, if_true]
  split
  · split
    · rename_i hprevious
      refine h.next rfl rfl rfl (fun d hd => by cases hd) trivial (fun _ => h.head.present ?_) fun e => rfl
      rw [Op.present, hprevious, Option.isSome_some, Bool.or_true]
    · exact h.next rfl rfl rfl (fun d hd => hd) trivial (fun hp => h.head.present (hexisted hp)) fun e => rfl
  · exact h.fail hexisted

/-! ## 一時ファイル -/

/-- 自分の一時ファイルだけを書く。 -/
theorem extends_setTemp (s : Shared) (t : Task) (content : Option Bytes) : s.Extends (s.setTemp W t content) t.pid where
  started := rfl
  downloads _ hd := hd
  temps e q hq := by
    by_cases he : e = t.entry W
    · subst he
      simp [setTemp, Function.update_of_ne hq]
    · simp [setTemp, Function.update_of_ne he]
  binary _ hb := hb

theorem temps_setTemp (s : Shared) (t : Task) (content : Option Bytes) :
    (s.setTemp W t content).temps (t.entry W) t.pid = content := by
  simp [setTemp]

/-- 一時ファイルを書いて、続きに進む。 -/
theorem setTemp (h : s.Invariant W (op :: rest)) (op' : Op) (content : Option Bytes) (htask : op'.task = op.task)
    (hdownload : op'.download = op.download) (hpresent : op'.present = true → op.present = true)
    (hstored : op'.Stored W (s.setTemp W op.task content)) (hcomparing : ∀ e, op'.comparing W e = none) :
    (s.setTemp W op.task content).Invariant W ([op'] ++ rest) := by
  refine h.stay (extends_setTemp s _ _) le_rfl ?_ ?_ rfl rfl ?_
  · intro op'' hop''
    obtain rfl := List.mem_singleton.mp hop''
    refine ⟨⟨?_, ?_, hstored, ?_⟩, by rw [htask]⟩
    · rw [htask]
      exact h.head.started
    · rw [htask, hdownload]
      exact h.head.download
    · rw [htask]
      exact fun hp => h.head.present (hpresent hp)
  · exact ⟨h.sound.separate, h.sound.plain, h.sound.downloads, h.sound.binaries, h.sound.fresh, h.sound.returned,
      h.sound.unchanged⟩
  · intro t ht op'' hop'' tag htag
    obtain rfl := List.mem_singleton.mp hop''
    rw [hcomparing] at htag
    cases htag

theorem createTemp (h : s.Invariant W (.createTemp t d :: rest)) (hk : k.alive = true) :
    (s.exec W (.createTemp t d) k).1.Invariant W ((s.exec W (.createTemp t d) k).2.1 ++ rest) := by
  simp only [exec, hk, if_true]
  split
  · exact h.setTemp (.writeTemp t d 0) (some []) rfl rfl (fun hp => hp) ⟨temps_setTemp s t _, Nat.zero_le _⟩ fun e => rfl
  · exact h.fail fun hexisted => hexisted

theorem writeTemp {written : Nat} (h : s.Invariant W (.writeTemp t d written :: rest)) (hk : k.alive = true) :
    (s.exec W (.writeTemp t d written) k).1.Invariant W ((s.exec W (.writeTemp t d written) k).2.1 ++ rest) := by
  obtain ⟨hstored, hle⟩ := h.head.stored
  have hle' : written + ((d.bytes.drop written).take k.length).length ≤ d.bytes.length := by
    rw [List.length_take, List.length_drop]
    omega
  have hcontent : (s.temps (t.entry W) t.pid).map (writeAt · written ((d.bytes.drop written).take k.length)) =
      some (d.bytes.take (written + ((d.bytes.drop written).take k.length).length)) := by
    rw [hstored, Option.map_some, take_writeAt d.bytes written k.length hle]
  have hwritten := h.setTemp (.writeTemp t d (written + ((d.bytes.drop written).take k.length).length)) _ rfl rfl (fun hp => hp) ⟨(temps_setTemp s t _).trans hcontent, hle'⟩ fun e => rfl
  simp only [exec, hk, if_true]
  split
  · rename_i hlength
    split
    · refine hwritten.next rfl rfl rfl (fun d hd => hd) ?_ (fun hp => hwritten.head.present hp) fun e => rfl
      refine ((temps_setTemp s t _).trans hcontent).trans ?_
      rw [hlength, List.take_length]
    · exact hwritten.fail fun hexisted => hexisted
  · split
    · exact hwritten
    · exact hwritten.fail fun hexisted => hexisted

theorem setPermissions (h : s.Invariant W (.setPermissions t d :: rest)) (hk : k.alive = true) :
    (s.exec W (.setPermissions t d) k).1.Invariant W ((s.exec W (.setPermissions t d) k).2.1 ++ rest) := by
  simp only [exec, hk, if_true]
  split
  · exact h.next rfl rfl rfl (fun d hd => hd) h.head.stored (fun hp => h.head.present hp) fun e => rfl
  · exact h.fail fun hexisted => hexisted

/-! ## 置き場 -/

theorem entries_setEntry_self (s : Shared) (t : Task) (e : Entry) : (s.setEntry W t e).entryAt W t = e := by
  simp [setEntry, entryAt]

theorem entries_setEntry_of_ne (s : Shared) (t : Task) (e : Entry) {place : List Text} (h : place ≠ t.entry W) :
    (s.setEntry W t e).entries place = s.entries place := by
  simp [setEntry, Function.update_of_ne h]

/-- 自分の場所に、バイナリを失わずに書く。 -/
theorem extends_setEntry (s : Shared) (t : Task) (e : Entry) (hbinary : (s.entryAt W t).binary.isSome = true → e.binary.isSome = true) :
    s.Extends (s.setEntry W t e) t.pid where
  started := rfl
  downloads _ hd := hd
  temps _ _ _ := rfl
  binary place hb := by
    by_cases he : place = t.entry W
    · subst he
      rw [show (s.setEntry W t e).entries (t.entry W) = e from entries_setEntry_self s t e]
      exact hbinary hb
    · rw [entries_setEntry_of_ne s t e he]
      exact hb

/-- 自分の場所に、自分のための完全なバイナリを書く。 -/
theorem sound_setEntry (h : s.Sound W) (hv : op.Valid W s) {e : Entry}
    (hbinary : e.binary = (s.entryAt W op.task).binary ∨ ∃ d ∈ op.download, e.binary = some d.bytes) :
    (s.setEntry W op.task e).Sound W where
  separate := h.separate
  plain := h.plain
  downloads := h.downloads
  binaries place b hb := by
    by_cases he : place = op.task.entry W
    · subst he
      rw [show (s.setEntry W op.task e).entries (op.task.entry W) = e from entries_setEntry_self s op.task e] at hb
      rcases hbinary with hbinary | ⟨d, hd, hbinary⟩
      · exact h.binaries _ b (hbinary ▸ hb)
      · obtain ⟨hmem, hsource, hname⟩ := hv.download d hd
        refine ⟨d, hmem, ?_, Option.some.inj (hbinary.symm.trans hb)⟩
        rw [hsource, hname]
        rfl
    · rw [entries_setEntry_of_ne s op.task e he] at hb
      exact h.binaries _ b hb
  fresh place hplace := by
    obtain ⟨t, ht, hsource, hname⟩ := hv.started
    have he : place ≠ op.task.entry W := fun he => hplace t ht (he.trans (entry_congr hsource hname)).symm
    rw [entries_setEntry_of_ne s op.task e he]
    exact h.fresh place hplace
  returned := h.returned
  unchanged := h.unchanged

/-- 自分の場所に書いて、印のファイルを書く操作へ進む。 -/
theorem setEntry (h : s.Invariant W (op :: rest)) {e : Entry} {m : Marking} {op' : Op} (hbinary : e.binary.isSome = true)
    (hsound : e.binary = (s.entryAt W op.task).binary ∨ ∃ d ∈ op.download, e.binary = some d.bytes)
    (hpaired : ∀ tag ∈ readCachedTag (e.marks .releaseTag), s.Known W rest op.task tag →
      W.asset op.task.source.repo tag op.task.assetName = e.binary)
    (hop' : op' = .createMark op.task m ∨ ∃ written, op' = .writeMark op.task m written) :
    (s.setEntry W op.task e).Invariant W ([op'] ++ rest) := by
  have hself : (s.setEntry W op.task e).entryAt W op.task = e := entries_setEntry_self s op.task e
  have hpresent : ((s.setEntry W op.task e).entryAt W op.task).binary.isSome = true := by
    rw [hself]
    exact hbinary
  refine h.step (extends_setEntry s op.task e fun _ => hbinary) le_rfl ?_ (sound_setEntry h.sound h.head hsound) ?_
  · intro op'' hop''
    obtain rfl := List.mem_singleton.mp hop''
    rcases hop' with rfl | ⟨written, rfl⟩
    · exact ⟨⟨h.head.started, fun d hd => (by cases hd), trivial, fun _ => hpresent⟩, rfl⟩
    · exact ⟨⟨h.head.started, fun d hd => (by cases hd), trivial, fun _ => hpresent⟩, rfl⟩
  · refine h.paired.update h.sound h.head rfl rfl (fun _ he => entries_setEntry_of_ne s op.task e he) ?_ ?_
    · intro t ht op'' hop'' tag htag
      obtain rfl := List.mem_singleton.mp hop''
      rcases hop' with rfl | ⟨written, rfl⟩ <;> cases htag
    · intro tag htag hk
      rw [recorded, hself] at htag
      rw [hself]
      exact hpaired tag htag hk

theorem rename (h : s.Invariant W (.rename t d :: rest)) (hk : k.alive = true) (ho : (Op.rename t d).Ordered W s rest k) :
    (s.exec W (.rename t d) k).1.Invariant W ((s.exec W (.rename t d) k).2.1 ++ rest) := by
  simp only [exec, hk, if_true]
  split
  · rename_i bytes htemp
    obtain ⟨hok, htemp⟩ := Option.ite_none_right_eq_some.mp htemp
    obtain rfl : d.bytes = bytes := Option.some.inj (h.head.stored.symm.trans htemp)
    -- 一時ファイルがなくなってから、バイナリが替わる
    have hmoved := h.setTemp (.createTemp t d) none rfl rfl (fun hp => hp) trivial fun e => rfl
    exact hmoved.setEntry rfl (Or.inr ⟨d, rfl, rfl⟩) (ho hk hok) (Or.inl rfl)
  · exact h.fail fun hexisted => hexisted

theorem marks_update_releaseTag (marks : Mark → Option Bytes) {m : Mark} (content : Option Bytes) (hm : m ≠ .releaseTag) :
    Function.update marks m content .releaseTag = marks .releaseTag := Function.update_of_ne hm.symm _ _

/-- 印のファイルの中身を替える。 -/
theorem setMark (h : s.Invariant W (op :: rest)) {m : Marking} (op' : Op) (content : Bytes) (hpresent : op.present = true)
    (hpaired : m.file = .releaseTag → ∀ tag ∈ readCachedTag (some content), s.Known W rest op.task tag →
      W.asset op.task.source.repo tag op.task.assetName = (s.entryAt W op.task).binary)
    (hop' : op' = .createMark op.task m ∨ ∃ written, op' = .writeMark op.task m written) :
    (s.setMark W op.task m.file content).Invariant W ([op'] ++ rest) := by
  refine h.setEntry (h.head.present hpresent) (Or.inl rfl) ?_ hop'
  intro tag htag hk
  dsimp only at htag
  by_cases hm : m.file = .releaseTag
  · rw [hm, Function.update_self] at htag
    exact hpaired hm tag htag hk
  · rw [marks_update_releaseTag _ _ hm] at htag
    exact h.paired_head tag htag hk

theorem createMark {m : Marking} (h : s.Invariant W (.createMark t m :: rest)) (hk : k.alive = true) :
    (s.exec W (.createMark t m) k).1.Invariant W ((s.exec W (.createMark t m) k).2.1 ++ rest) := by
  simp only [exec, hk, if_true]
  split
  · refine h.setMark (.writeMark t m 0) [] rfl ?_ (Or.inr ⟨0, rfl⟩)
    intro _ tag htag
    rw [readCachedTag_nil] at htag
    cases htag
  · exact h.unmarked rfl m

theorem writeMark {m : Marking} {written : Nat} (h : s.Invariant W (.writeMark t m written :: rest)) (hk : k.alive = true)
    (ho : (Op.writeMark t m written).Ordered W s rest k) :
    (s.exec W (.writeMark t m written) k).1.Invariant W ((s.exec W (.writeMark t m written) k).2.1 ++ rest) := by
  have hwritten := h.setMark (m := m)
    (.writeMark t m (written + (((m.content W).drop written).take k.length).length))
    (writeAt (((s.entryAt W t).marks m.file).getD []) written (((m.content W).drop written).take k.length)) rfl ?_
    (Or.inr ⟨_, rfl⟩)
  · simp only [exec, hk, if_true]
    split
    · split
      · exact hwritten.marked rfl k.now m
      · exact hwritten.unmarked rfl m
    · split
      · exact hwritten
      · exact hwritten.unmarked rfl m
  · intro hm
    cases m with
    | digest d => cases hm
    | checked secs downloaded => cases hm
    | releaseTag tag => exact ho hk

/-! ## 終わり -/

theorem finish (h : s.Invariant W (.finish t :: rest)) (hk : k.alive = true) :
    (s.exec W (.finish t) k).1.Invariant W ((s.exec W (.finish t) k).2.1 ++ rest) := by
  simp only [exec, hk, if_true]
  refine h.stay ⟨rfl, fun _ hd => hd, fun _ _ _ => rfl, fun _ hb => hb⟩ (Nat.zero_le _) (fun op' hop' => by cases hop') ?_
    rfl rfl fun _ _ op' hop' => by cases hop'
  refine ⟨h.sound.separate, h.sound.plain, h.sound.downloads, h.sound.binaries, h.sound.fresh, ?_, h.sound.unchanged⟩
  intro v hv
  rcases List.mem_append.mp hv with hv | hv
  · exact h.sound.returned v hv
  · obtain rfl := List.mem_singleton.mp hv
    exact h.sound.genuine h.head rfl none

theorem exec (h : s.Invariant W (op :: rest)) (ho : op.Ordered W s rest k) :
    (s.exec W op k).1.Invariant W ((s.exec W op k).2.1 ++ rest) := by
  by_cases hk : k.alive = true
  · cases op with
    | pathExists t => exact h.pathExists hk
    | readBinary t => exact h.readBinary hk
    | readLocalSha256 t bytes => exact h.readLocalSha256 hk
    | readMetadata t => exact h.readMetadata hk
    | readLastChecked t => exact h.readLastChecked hk
    | fetchLatest t => exact h.fetchLatest hk
    | readReleaseTag t latestTag => exact h.readReleaseTag hk
    | fetchBefore t => exact h.fetchBefore hk
    | readPrevious t => exact h.readPrevious hk
    | get t previous => exact h.get hk
    | getSidecar t d previous => exact h.getSidecar hk
    | createDirAll t d previous => exact h.createDirAll hk
    | createTemp t d => exact h.createTemp hk
    | writeTemp t d written => exact h.writeTemp hk
    | setPermissions t d => exact h.setPermissions hk
    | rename t d => exact h.rename hk ho
    | createMark t m => exact h.createMark hk
    | writeMark t m written => exact h.writeMark hk ho
    | fetchAfter t tagBefore => exact h.fetchAfter hk
    | finish t => exact h.finish hk
  · simp only [Shared.exec, hk]
    exact h.drop

end Invariant

theorem exec_spawns (s : Shared) (op : Op) (k : Choice) : (s.exec W op k).2.2 = [] := by
  cases op <;> simp only [exec] <;> (repeat' split) <;> rfl

/-! ## 呼び出し -/

namespace Invariant

theorem start (latest : Text → Option Text) : (Shared.start latest).Invariant W [] where
  sound := {
    separate := fun _ ht => by cases ht
    plain := fun _ ht => by cases ht
    downloads := fun _ hd => by cases hd
    binaries := fun _ _ hb => by cases hb
    fresh := fun _ _ => rfl
    returned := fun _ hv => by cases hv
    unchanged := fun _ hv => by cases hv }
  valid _ hop := by cases hop
  pids := List.nodup_nil
  paired _ ht := by cases ht

theorem release (h : s.Invariant W rest) {repo : Text} {tag : Option Text} (hc : (Call.release repo tag).Ordered W s) :
    (s.setLatest repo tag).Invariant W rest where
  sound := ⟨h.sound.separate, h.sound.plain, h.sound.downloads, h.sound.binaries, h.sound.fresh, h.sound.returned,
    h.sound.unchanged⟩
  valid op hop := ⟨(h.valid op hop).started, (h.valid op hop).download, (h.valid op hop).stored.congr rfl,
    (h.valid op hop).present⟩
  pids := h.pids
  paired := by
    intro t ht tag' htag' hk
    rcases hk with hk | hk
    · by_cases hrepo : t.source.repo = repo
      · have hk : Function.update s.latest repo tag t.source.repo = some tag' := hk
        rw [hrepo, Function.update_self] at hk
        rw [hrepo]
        exact hc t ht hrepo tag' hk htag'
      · have hk : Function.update s.latest repo tag t.source.repo = some tag' := hk
        rw [Function.update_of_ne hrepo] at hk
        exact h.paired t ht tag' htag' (Or.inl hk)
    · exact h.paired t ht tag' htag' (Or.inr hk)

/-- 新しい実行は、誰も使っていない場所か、同じ `ReleaseSource` の場所を使う。 -/
theorem begin (h : s.Invariant W rest) (t : Task) (hname : PlainName t.assetName)
    (hpid : ∀ op ∈ rest, op.task.pid ≠ t.pid)
    (hseparate : ∀ t' ∈ s.started, t'.entry W = t.entry W → t'.source = t.source) :
    ({ s with started := s.started ++ [t] } : Shared).Invariant W (.pathExists t :: rest) where
  sound := by
    refine ⟨?_, ?_, ?_, h.sound.binaries, ?_, h.sound.returned, h.sound.unchanged⟩
    · intro t₁ ht₁ t₂ ht₂ heq
      rcases List.mem_append.mp ht₁ with hm₁ | hm₁ <;> rcases List.mem_append.mp ht₂ with hm₂ | hm₂
      · exact h.sound.separate t₁ hm₁ t₂ hm₂ heq
      · obtain rfl := List.mem_singleton.mp hm₂
        exact hseparate t₁ hm₁ heq
      · obtain rfl := List.mem_singleton.mp hm₁
        exact (hseparate t₂ hm₂ heq.symm).symm
      · rw [List.mem_singleton.mp hm₁, List.mem_singleton.mp hm₂]
    · intro t' ht'
      rcases List.mem_append.mp ht' with ht' | ht'
      · exact h.sound.plain t' ht'
      · obtain rfl := List.mem_singleton.mp ht'
        exact hname
    · intro d hd
      obtain ⟨⟨t', ht', hd'⟩, hasset, hpinned⟩ := h.sound.downloads d hd
      exact ⟨⟨t', List.mem_append_left _ ht', hd'⟩, hasset, hpinned⟩
    · intro e he
      exact h.sound.fresh e fun t' ht' => he t' (List.mem_append_left _ ht')
  valid op hop := by
    rcases List.mem_cons.mp hop with rfl | hop
    · exact ⟨⟨t, List.mem_append_right _ (List.mem_singleton_self t), rfl, rfl⟩, fun d hd => (by cases hd), trivial,
        fun hp => by cases hp⟩
    · obtain ⟨⟨t', ht', heq⟩, hdownload, hstored, hpresent⟩ := h.valid op hop
      exact ⟨⟨t', List.mem_append_left _ ht', heq⟩, hdownload, hstored.congr rfl, hpresent⟩
  pids := by
    refine List.nodup_cons.mpr ⟨?_, h.pids⟩
    intro hm
    obtain ⟨op, hop, heq⟩ := List.mem_map.mp hm
    exact hpid op hop heq
  paired := by
    intro t' ht' tag htag hk
    have hknown : s.Known W rest t' tag := by
      rcases hk with hk | ⟨op, hop, hk⟩
      · exact Or.inl hk
      · rcases List.mem_cons.mp hop with rfl | hop
        · cases hk
        · exact Or.inr ⟨op, hop, hk⟩
    rcases List.mem_append.mp ht' with hm | hm
    · exact h.paired t' hm tag htag hknown
    · obtain rfl := List.mem_singleton.mp hm
      by_cases hused : ∃ t₁ ∈ s.started, t₁.entry W = t'.entry W
      · -- 前の実行と同じ場所で、同じファイルを求める
        obtain ⟨t₁, ht₁, heq⟩ := hused
        have hsource : t₁.source = t'.source := hseparate t₁ ht₁ heq
        have hasset : t₁.assetName = t'.assetName :=
          assetName_eq_of_entryOf (h.sound.plain t₁ ht₁) hname heq
        have hat : s.entryAt W t₁ = s.entryAt W t' := entryAt_congr heq
        have htag₁ : tag ∈ s.recorded W t₁ := by
          rw [recorded, hat]
          exact htag
        have hk₁ : s.Known W rest t₁ tag := by
          rw [Known, heq, hsource]
          exact hknown
        have hpaired := h.paired t₁ ht₁ tag htag₁ hk₁
        rw [hat, hsource, hasset] at hpaired
        exact hpaired
      · have hnone := h.sound.fresh (t'.entry W) fun t₁ ht₁ heq => hused ⟨t₁, ht₁, heq⟩
        cases hnone.symm.trans htag

theorem call (h : s.Invariant W rest) {c : Call} {s' : Shared} {new : List Op} (hcall : s.call c = some (s', new))
    (hc : c.Ordered W s) (hpid : ∀ pid source arch, c = .start pid source arch → ∀ op ∈ rest, op.task.pid ≠ pid) :
    s'.Invariant W (new ++ rest) := by
  cases c with
  | start pid source arch =>
      obtain ⟨assetName, hname, hcall⟩ := Option.bind_eq_some_iff.mp hcall
      obtain ⟨rfl, rfl⟩ := Prod.mk.inj (Option.some.inj hcall)
      exact h.begin ⟨pid, source, assetName, false, none⟩ (plainName_of_assetNameForArch hname) (hpid _ _ _ rfl)
        fun t' ht' heq => hc assetName hname t' ht' heq
  | release repo tag =>
      obtain ⟨rfl, rfl⟩ := Prod.mk.inj (Option.some.inj hcall)
      exact h.release hc

end Invariant

end Shared

/-! ## 実行 -/

namespace State

theorem invariant_of_run {latest : Text → Option Text} {as : List Action} {p : State}
    (h : Run (Guarded (Steps W) (Ordered W)) (start latest) as p) : p.shared.Invariant W p.pending := by
  have hrun : Run (Guarded (Pool.Steps Shared.call (Shared.exec W)) fun p a => Ordered W p a ∧ Fresh p a) (start latest) as p := by
    refine h.mono ?_
    intro p a p' hstep
    obtain ⟨hfresh, hs⟩ := Option.ite_none_right_eq_some.mp hstep.1
    exact ⟨hs, hstep.2, hfresh⟩
  refine Pool.invariant_of_run (I := Shared.Invariant W) ?_ ?_ ?_ hrun (Shared.Invariant.start latest)
  · exact fun s ops ops' hperm hI => hI.perm hperm
  · intro p c s new hC hcall hI
    refine hI.call hcall hC.1 ?_
    intro pid source arch hc
    subst hc
    exact hC.2
  · intro p i k op rest hC hnext hperm hI
    rw [Shared.exec_spawns, List.flatten_nil, List.append_nil]
    have herase : (p.pending.erase op).Perm rest := by
      have := hperm.erase op
      rwa [List.erase_cons_head] at this
    have hI' : p.shared.Invariant W (op :: p.pending.erase op) := hI.perm (herase.symm.cons op)
    exact (hI'.exec (hC.1 op hnext)).perm (herase.append_left _)

end State

/-! ## ASCII の印 -/

theorem fromUtf8_asBytes (s : Text) : fromUtf8 (asBytes s) = some s := by
  have hbytes : (⟨(asBytes s).toArray⟩ : ByteArray) = (String.ofList s).toByteArray := by
    rw [String.toByteArray_ofList]
    exact ByteArray.ext List.data_toByteArray.symm
  rw [fromUtf8, hbytes, String.fromUTF8?, dif_pos (String.ofList s).isValidUTF8]
  exact congrArg some String.toList_ofList

theorem utf8EncodeChar_ofNat {b : UInt8} (h : b < 128) : String.utf8EncodeChar (Char.ofNat b.toNat) = [b] := by
  have hlt : b.toNat < 128 := h
  have hval : (Char.ofNat b.toNat).val.toNat = b.toNat := by
    rw [Char.ofNat, dif_pos (Or.inl (by omega))]
    rfl
  have hsize : (Char.ofNat b.toNat).utf8Size = 1 := by
    refine if_pos ?_
    rw [UInt32.le_iff_toNat_le, hval]
    exact Nat.le_of_lt_succ hlt
  rw [String.utf8EncodeChar_eq_singleton hsize]
  congr 1
  apply UInt8.toNat_inj.mp
  rw [UInt32.toNat_toUInt8, hval]
  omega

/-- ASCII のファイルは、1 バイトが 1 文字である。 -/
def asciiText (bytes : Bytes) : Option Text :=
  if bytes.all (· < 128) then some (bytes.map fun b => Char.ofNat b.toNat) else fromUtf8 bytes

theorem fromUtf8_eq_asciiText (bytes : Bytes) : fromUtf8 bytes = asciiText bytes := by
  unfold asciiText
  split_ifs with hascii
  · have hbytes : asBytes (bytes.map fun b => Char.ofNat b.toNat) = bytes := by
      simp only [List.all_eq_true, decide_eq_true_eq] at hascii
      induction bytes with
      | nil => rfl
      | cons b rest ih =>
          rw [List.map_cons, asBytes, List.flatMap_cons, utf8EncodeChar_ofNat (hascii b List.mem_cons_self)]
          exact congrArg (b :: ·) (ih fun c hc => hascii c (List.mem_cons_of_mem b hc))
    exact (congrArg fromUtf8 hbytes.symm).trans (fromUtf8_asBytes _)
  · rfl

namespace Shared

/-- `exec` と同じで、`.local-sha256` を ASCII として読む。 -/
def execAscii (W : World) (s : Shared) (op : Op) (k : Choice) : Shared × List Op × List (List Op) :=
  match op with
  | .readLocalSha256 t bytes =>
      if k.alive then
        match if k.ok then ((s.entryAt W t).marks .localSha256).bind asciiText else none with
        | some recorded =>
            (s, [if trim recorded = W.hexSha256 bytes then .readMetadata t else t.revalidate false], [])
        | none => (s, [t.revalidate false], [])
      else (s, [], [])
  | op => s.exec W op k

theorem exec_eq_execAscii (W : World) : exec W = execAscii W := by
  funext s op k
  cases op with
  | readLocalSha256 t bytes =>
      exact congrArg (fun read => if k.alive then
          match if k.ok then ((s.entryAt W t).marks .localSha256).bind read else none with
          | some recorded => (s, [if trim recorded = W.hexSha256 bytes then .readMetadata t else t.revalidate false], [])
          | none => (s, [t.revalidate false], [])
        else (s, [], [])) (funext fromUtf8_eq_asciiText)
  | _ => rfl

end Shared

end IsekaiTerminal.HelperCache
