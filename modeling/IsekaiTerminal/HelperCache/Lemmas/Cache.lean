import IsekaiTerminal.HelperCache.Cache

/-!
# リリースのバイナリの置き場の不変条件

記録されたタグが「最新」と見なされうる間、バイナリはそのタグのファイルである。バイナリはいつも、その場所のために落とした
完全なファイルである。
-/

namespace IsekaiTerminal.HelperCache

open SshConfig

/-! ## リリースのバイナリの置き場のパスの性質 -/

/-- パスの 1 つの要素になる名前。 -/
def PlainName (name : Text) : Prop := '/' ∉ name ∧ name ≠ [] ∧ name ≠ ['.'] ∧ name ≠ ['.', '.']

instance (name : Text) : Decidable (PlainName name) := inferInstanceAs (Decidable (_ ∧ _))

theorem plainName_of_assetNameForArch {arch name : Text} (h : assetNameForArch arch = some name) : PlainName name := by
  obtain ⟨harch, h⟩ := Option.ite_none_right_eq_some.mp h
  obtain rfl := Option.some.inj h
  rcases harch with rfl | rfl <;> decide +kernel

theorem splitOn_of_notMem {name : Text} (h : '/' ∉ name) : name.splitOn '/' = [name] := by
  induction name with
  | nil => rfl
  | cons c cs ih =>
      have hc : c ≠ '/' := fun hc => h (hc ▸ List.mem_cons_self)
      have hcs : List.splitOnP (· == '/') cs = [cs] := ih fun hm => h (List.mem_cons_of_mem _ hm)
      simp [List.splitOn, List.splitOnP_cons_eq_if_modifyHead, hc, hcs]

theorem locate_append {base name : Text} (h : PlainName name) : locate (base ++ '/' :: name) = locate base ++ [name] := by
  obtain ⟨hslash, hnil, hdot, hdots⟩ := h
  have hsplit : (base ++ '/' :: name).splitOn '/' = base.splitOn '/' ++ name.splitOn '/' :=
    List.splitOnP_append_cons _ _ (by simp)
  rw [locate, hsplit, splitOn_of_notMem hslash, List.foldl_append]
  simp [enter, locate, hnil, hdot, hdots]

theorem exists_locate_joinPath (base : Text) {name : Text} (h : PlainName name) :
    ∃ dir, locate (joinPath base name) = dir ++ [name] := by
  have habs : isAbsolute name = false := by
    cases name with
    | nil => rfl
    | cons c cs =>
        have hc : c ≠ '/' := fun hc => h.1 (hc ▸ List.mem_cons_self)
        simp [isAbsolute, hc]
  rw [joinPath, if_neg (by rw [habs]; exact Bool.false_ne_true)]
  split
  · rename_i hbase
    rcases hbase with rfl | hlast
    · refine ⟨[], ?_⟩
      rw [List.nil_append, locate, splitOn_of_notMem h.1]
      simp [enter, h.2.1, h.2.2.1, h.2.2.2]
    · obtain ⟨base, rfl⟩ := List.getLast?_eq_some_iff.mp hlast
      refine ⟨locate base, ?_⟩
      rw [List.append_assoc]
      exact locate_append h
  · exact ⟨locate base, locate_append h⟩

/-- 同じ場所のファイルは、同じ名前である。 -/
theorem assetName_eq_of_entryOf {cacheDir : Text} {source source' : ReleaseSource} {name name' : Text}
    (h : PlainName name) (h' : PlainName name')
    (heq : entryOf cacheDir source name = entryOf cacheDir source' name') : name = name' := by
  obtain ⟨dir, hdir⟩ := exists_locate_joinPath
    (joinPath (joinPath cacheDir (repoSlug source.repo)) (source.tag.getD "latest".toList)) h
  obtain ⟨dir', hdir'⟩ := exists_locate_joinPath
    (joinPath (joinPath cacheDir (repoSlug source'.repo)) (source'.tag.getD "latest".toList)) h'
  have happ : dir ++ [name] = dir' ++ [name'] := hdir.symm.trans (Eq.trans heq hdir')
  exact List.singleton_injective (List.append_inj_right' happ rfl)

section

open Lib

variable {W : World} {s s' : Shared} {t : Task} {op op' : Op} {ops rest : List Op} {k : Choice} {tag : Text}

theorem take_writeAt (bytes : Bytes) (n len : Nat) (h : n ≤ bytes.length) :
    writeAt (bytes.take n) n ((bytes.drop n).take len) = bytes.take (n + ((bytes.drop n).take len).length) := by
  have hpad : n - (bytes.take n).length = 0 := by rw [List.length_take, min_eq_left h, Nat.sub_self]
  have hdrop : (bytes.take n).drop (n + ((bytes.drop n).take len).length) = [] :=
    List.drop_eq_nil_of_le ((List.length_take_le _ _).trans (Nat.le_add_right _ _))
  have hpiece : (bytes.drop n).take ((bytes.drop n).take len).length = (bytes.drop n).take len := by
    rw [List.length_take, ← List.take_eq_take_min]
  rw [writeAt, hpad, hdrop, List.take_take, min_self, List.replicate_zero, List.append_nil, List.append_nil,
    List.take_add, hpiece]

theorem readCachedTag_nil : readCachedTag (some []) = none := by decide +kernel

/-! ## 操作が運ぶもの -/

def Op.download : Op → Option Download
  | .getSidecar _ d _ | .createDirAll _ d _ | .createTemp _ d | .writeTemp _ d _ | .setPermissions _ d | .rename _ d => some d
  | _ => none

/-- 置き場にバイナリがあると分かった操作。 -/
def Op.present : Op → Bool
  | .pathExists _ | .readBinary _ => false
  | .fetchBefore t | .readPrevious t | .createTemp t _ | .writeTemp t _ _ | .setPermissions t _ | .rename t _ => t.cacheExisted
  | .get t previous | .getSidecar t _ previous | .createDirAll t _ previous => t.cacheExisted || previous.isSome
  | .readLocalSha256 _ _ | .readMetadata _ | .readLastChecked _ | .fetchLatest _ | .readReleaseTag _ _ | .createMark _ _
  | .writeMark _ _ _ | .fetchAfter _ _ | .finish _ => true

/-- 一時ファイルは、書いた分だけの中身を持つ。 -/
def Op.Stored (W : World) (s : Shared) : Op → Prop
  | .writeTemp t d written => s.temps (t.entry W) t.pid = some (d.bytes.take written) ∧ written ≤ d.bytes.length
  | .setPermissions t d | .rename t d => s.temps (t.entry W) t.pid = some d.bytes
  | _ => True

structure Op.Valid (W : World) (s : Shared) (op : Op) : Prop where
  started : ∃ t ∈ s.started, op.task.source = t.source ∧ op.task.assetName = t.assetName
  download : ∀ d ∈ op.download, d ∈ s.downloads ∧ d.source = op.task.source ∧ d.assetName = op.task.assetName
  stored : op.Stored W s
  present : op.present = true → (s.entryAt W op.task).binary.isSome = true

/-- `pid` のプロセスの操作が保つもの。 -/
structure Shared.Extends (s s' : Shared) (pid : Nat) : Prop where
  started : s'.started = s.started
  downloads : ∀ d ∈ s.downloads, d ∈ s'.downloads
  temps : ∀ e q, q ≠ pid → s'.temps e q = s.temps e q
  binary : ∀ e, (s.entries e).binary.isSome = true → (s'.entries e).binary.isSome = true

theorem Shared.Extends.refl (s : Shared) (pid : Nat) : s.Extends s pid :=
  ⟨rfl, fun _ hd => hd, fun _ _ _ => rfl, fun _ hb => hb⟩

theorem Op.Stored.congr {op : Op} (h : op.Stored W s)
    (hs : s'.temps (op.task.entry W) op.task.pid = s.temps (op.task.entry W) op.task.pid) : op.Stored W s' := by
  cases op with
  | writeTemp t d written => exact ⟨hs.trans h.1, h.2⟩
  | setPermissions t d => exact hs.trans h
  | rename t d => exact hs.trans h
  | _ => trivial

theorem Op.Valid.extends {pid : Nat} (h : op.Valid W s) (hs : s.Extends s' pid) (hpid : op.task.pid ≠ pid) : op.Valid W s' where
  started := by rw [hs.started]; exact h.started
  download d hd := ⟨hs.downloads d (h.download d hd).1, (h.download d hd).2⟩
  stored := h.stored.congr (hs.temps _ _ hpid)
  present hp := hs.binary _ (h.present hp)

/-! ## 共有の状態 -/

structure Download.Sound (W : World) (started : List Task) (d : Download) : Prop where
  started : ∃ t ∈ started, d.source = t.source ∧ d.assetName = t.assetName
  asset : W.asset d.source.repo d.tag d.assetName = some d.bytes
  pinned : ∀ tag ∈ d.source.tag, d.tag = tag

structure Shared.Sound (W : World) (s : Shared) : Prop where
  separate : ∀ t ∈ s.started, ∀ t' ∈ s.started, t.entry W = t'.entry W → t.source = t'.source
  plain : ∀ t ∈ s.started, PlainName t.assetName
  downloads : ∀ d ∈ s.downloads, d.Sound W s.started
  binaries : ∀ e, ∀ b ∈ (s.entries e).binary, ∃ d ∈ s.downloads, entryOf W.cacheDir d.source d.assetName = e ∧ d.bytes = b
  fresh : ∀ e, (∀ t ∈ s.started, t.entry W ≠ e) → readCachedTag ((s.entries e).marks .releaseTag) = none
  returned : ∀ v ∈ s.returned, v.Genuine W s.downloads
  unchanged : ∀ v ∈ s.unchanged, v.UpToDate W

namespace Shared

/-- 記録されたタグが「最新」と見なされうるなら、バイナリはそのタグのファイルである。 -/
def Paired (W : World) (s : Shared) (ops : List Op) : Prop :=
  ∀ t ∈ s.started, ∀ tag ∈ s.recorded W t, s.Known W ops t tag →
    W.asset t.source.repo tag t.assetName = (s.entryAt W t).binary

structure Invariant (W : World) (s : Shared) (ops : List Op) : Prop where
  sound : s.Sound W
  valid : ∀ op ∈ ops, op.Valid W s
  pids : (ops.map fun op => op.task.pid).Nodup
  paired : s.Paired W ops

theorem Known.perm {ops' : List Op} (h : s.Known W ops t tag) (hp : ops.Perm ops') : s.Known W ops' t tag := by
  rcases h with h | ⟨op, hop, h⟩
  · exact Or.inl h
  · exact Or.inr ⟨op, hp.mem_iff.mp hop, h⟩

theorem Known.cons (h : s.Known W rest t tag) (op : Op) : s.Known W (op :: rest) t tag := by
  rcases h with h | ⟨op', hop, h⟩
  · exact Or.inl h
  · exact Or.inr ⟨op', List.mem_cons_of_mem _ hop, h⟩

/-- 同じ場所の実行は、同じリポジトリの同じファイルを求める。 -/
theorem Sound.same (h : s.Sound W) {t t' : Task} (ht : t ∈ s.started) (ht' : t' ∈ s.started)
    (heq : t.entry W = t'.entry W) : t.source = t'.source ∧ t.assetName = t'.assetName :=
  ⟨h.separate t ht t' ht' heq, assetName_eq_of_entryOf (h.plain t ht) (h.plain t' ht') heq⟩

theorem entry_congr {t t' : Task} (hsource : t.source = t'.source) (hname : t.assetName = t'.assetName) :
    t.entry W = t'.entry W := by
  rw [Task.entry, Task.entry, hsource, hname]

theorem entryAt_congr {t t' : Task} (heq : t.entry W = t'.entry W) : s.entryAt W t = s.entryAt W t' :=
  congrArg s.entries heq

theorem Sound.coherent (h : s.Sound W) : s.Coherent W := ⟨h.returned, h.separate, h.unchanged⟩

/-- 操作の実行と同じ場所を求める実行は、同じファイルを求める。 -/
theorem Sound.sameTask (h : s.Sound W) (hv : op.Valid W s) {t : Task} (ht : t ∈ s.started)
    (heq : t.entry W = op.task.entry W) : op.task.source = t.source ∧ op.task.assetName = t.assetName := by
  obtain ⟨t', ht', hsource, hname⟩ := hv.started
  obtain ⟨hs, hn⟩ := h.same ht ht' (heq.trans (entry_congr hsource hname))
  exact ⟨hsource.trans hs.symm, hname.trans hn.symm⟩

/-- 場所にあるバイナリは、そこを求める実行のためのファイルである。 -/
theorem Sound.genuine (h : s.Sound W) (hv : op.Valid W s) (hp : op.present = true) (tag : Option Text) :
    (s.sight W op.task tag).Genuine W s.downloads := by
  obtain ⟨b, hb⟩ := Option.isSome_iff_exists.mp (hv.present hp)
  obtain ⟨d, hd, hentry, rfl⟩ := h.binaries _ b hb
  obtain ⟨hstarted, hasset, hpinned⟩ := h.downloads d hd
  obtain ⟨t, ht, hsource, hname⟩ := hstarted
  have heq : t.entry W = op.task.entry W := by
    rw [← hentry, Task.entry, hsource, hname]
  obtain ⟨hs, hn⟩ := h.sameTask hv ht heq
  exact ⟨d, hd, hsource.trans hs.symm, hname.trans hn.symm, hb, hasset, hpinned⟩

/-! ## 1 回の操作 -/

namespace Invariant

theorem perm {ops' : List Op} (h : s.Invariant W ops) (hp : ops.Perm ops') : s.Invariant W ops' where
  sound := h.sound
  valid op hop := h.valid op (hp.mem_iff.mpr hop)
  pids := (hp.map _).nodup_iff.mp h.pids
  paired t ht tag htag hk := h.paired t ht tag htag (hk.perm hp.symm)

theorem head (h : s.Invariant W (op :: rest)) : op.Valid W s := h.valid op List.mem_cons_self

/-- 操作 `op` が終わり、続きが `new` になる。 -/
theorem step {new : List Op} (h : s.Invariant W (op :: rest)) (hext : s.Extends s' op.task.pid)
    (hlen : new.length ≤ 1) (hnew : ∀ op' ∈ new, op'.Valid W s' ∧ op'.task.pid = op.task.pid) (hsound : s'.Sound W)
    (hpaired : s'.Paired W (new ++ rest)) : s'.Invariant W (new ++ rest) where
  sound := hsound
  valid op' hop' := by
    rcases List.mem_append.mp hop' with hop' | hop'
    · exact (hnew op' hop').1
    · have hne : op'.task.pid ≠ op.task.pid := by
        intro heq
        have hpids := (List.nodup_cons.mp h.pids).1
        exact hpids (List.mem_map.mpr ⟨op', hop', heq⟩)
      exact (h.valid op' (List.mem_cons_of_mem _ hop')).extends hext hne
  pids := by
    have hpids := List.nodup_cons.mp h.pids
    cases new with
    | nil => exact hpids.2
    | cons op' tail =>
        obtain rfl : tail = [] := List.eq_nil_of_length_eq_zero (Nat.le_zero.mp (Nat.le_of_succ_le_succ hlen))
        refine List.nodup_cons.mpr ⟨fun hm => hpids.1 ?_, hpids.2⟩
        have hpid : op'.task.pid = op.task.pid := (hnew op' List.mem_cons_self).2
        have hm : op'.task.pid ∈ rest.map fun op => op.task.pid := hm
        rw [hpid] at hm
        exact hm
  paired := hpaired

end Invariant

/-- 新しい操作がこれから比べるタグは、今の「最新」である。 -/
def Current (W : World) (s : Shared) (t : Task) (new : List Op) : Prop :=
  ∀ op ∈ new, ∀ tag, op.comparing W (t.entry W) = some tag → s.latest t.source.repo = some tag

theorem Known.of_append {new : List Op} (h : s.Known W (new ++ rest) t tag) (hnew : s.Current W t new) :
    s.Known W rest t tag := by
  rcases h with h | ⟨op', hop', h⟩
  · exact Or.inl h
  · rcases List.mem_append.mp hop' with hop' | hop'
    · exact Or.inl (hnew op' hop' _ h)
    · exact Or.inr ⟨op', hop', h⟩

/-- 操作 `op` の場所だけが変わる。 -/
theorem Paired.update {new : List Op} (h : s.Paired W (op :: rest)) (hsound : s.Sound W) (hv : op.Valid W s)
    (hstarted : s'.started = s.started) (hlatest : s'.latest = s.latest)
    (hentries : ∀ e, e ≠ op.task.entry W → s'.entries e = s.entries e) (hnew : ∀ t ∈ s.started, s.Current W t new)
    (hself : ∀ tag ∈ s'.recorded W op.task, s.Known W rest op.task tag →
      W.asset op.task.source.repo tag op.task.assetName = (s'.entryAt W op.task).binary) :
    s'.Paired W (new ++ rest) := by
  intro t ht tag htag hk
  rw [hstarted] at ht
  have hk : s.Known W rest t tag := by
    refine Known.of_append ?_ (hnew t ht)
    rcases hk with hk | hk
    · exact Or.inl (hlatest ▸ hk)
    · exact Or.inr hk
  by_cases he : t.entry W = op.task.entry W
  · obtain ⟨hsource, hname⟩ := hsound.sameTask hv ht he
    have hat : s'.entryAt W t = s'.entryAt W op.task := entryAt_congr he
    rw [recorded, hat] at htag
    have hk' : s.Known W rest op.task tag := by
      rw [Known, ← he, hsource]
      exact hk
    have hasset := hself tag htag hk'
    rw [hsource, hname] at hasset
    rw [hat]
    exact hasset
  · have hat : s'.entryAt W t = s.entryAt W t := hentries _ he
    rw [recorded, hat] at htag
    rw [hat]
    exact h t ht tag htag (hk.cons op)

namespace Invariant

/-- 操作の場所の、記録されたタグとバイナリ。 -/
theorem paired_head (h : s.Invariant W (op :: rest)) (tag : Text) (htag : tag ∈ s.recorded W op.task)
    (hk : s.Known W rest op.task tag) :
    W.asset op.task.source.repo tag op.task.assetName = (s.entryAt W op.task).binary := by
  obtain ⟨t, ht, hsource, hname⟩ := h.head.started
  have heq : op.task.entry W = t.entry W := entry_congr hsource hname
  have hat : s.entryAt W op.task = s.entryAt W t := entryAt_congr heq
  rw [recorded, hat] at htag
  have hk' : s.Known W rest t tag := by
    rw [Known, ← heq, ← hsource]
    exact hk
  rw [hat, hsource, hname]
  exact h.paired t ht tag htag (hk'.cons op)

/-- 置き場を変えない操作。 -/
theorem stay {new : List Op} (h : s.Invariant W (op :: rest)) (hext : s.Extends s' op.task.pid)
    (hlen : new.length ≤ 1) (hnew : ∀ op' ∈ new, op'.Valid W s' ∧ op'.task.pid = op.task.pid) (hsound : s'.Sound W)
    (hlatest : s'.latest = s.latest) (hentries : s'.entries = s.entries) (hcurrent : ∀ t ∈ s.started, s.Current W t new) :
    s'.Invariant W (new ++ rest) := by
  refine h.step hext hlen hnew hsound ?_
  refine h.paired.update h.sound h.head hext.started hlatest (fun e _ => by rw [hentries]) hcurrent ?_
  have hat : s'.entryAt W op.task = s.entryAt W op.task := congrFun hentries _
  intro tag htag hk
  rw [recorded, hat] at htag
  rw [hat]
  exact h.paired_head tag htag hk

/-- 共有の状態を変えずに、次の操作へ進む。 -/
theorem advance (h : s.Invariant W (op :: rest)) (hv : op'.Valid W s) (hpid : op'.task.pid = op.task.pid)
    (hcurrent : ∀ t ∈ s.started, s.Current W t [op']) : s.Invariant W ([op'] ++ rest) := by
  refine h.stay (.refl s _) le_rfl ?_ h.sound rfl rfl hcurrent
  intro op'' hop''
  obtain rfl := List.mem_singleton.mp hop''
  exact ⟨hv, hpid⟩

/-- 同じ実行の、タグを比べない操作へ進む。 -/
theorem next (h : s.Invariant W (op :: rest)) (hpid : op'.task.pid = op.task.pid)
    (hsource : op'.task.source = op.task.source) (hname : op'.task.assetName = op.task.assetName)
    (hdownload : ∀ d ∈ op'.download, op.download = some d) (hstored : op'.Stored W s)
    (hpresent : op'.present = true → (s.entryAt W op.task).binary.isSome = true)
    (hcomparing : ∀ e, op'.comparing W e = none) : s.Invariant W ([op'] ++ rest) := by
  refine h.advance ⟨?_, ?_, hstored, ?_⟩ hpid ?_
  · rw [hsource, hname]
    exact h.head.started
  · intro d hd
    rw [hsource, hname]
    exact h.head.download d (hdownload d hd)
  · rw [entryAt_congr (entry_congr hsource hname)]
    exact hpresent
  · intro t ht op'' hop'' tag htag
    obtain rfl := List.mem_singleton.mp hop''
    rw [hcomparing] at htag
    cases htag

/-- プロセスが終わる。 -/
theorem drop (h : s.Invariant W (op :: rest)) : s.Invariant W ([] ++ rest) := by
  refine h.stay (.refl s _) (Nat.zero_le _) ?_ h.sound rfl rfl ?_
  · intro op' hop'
    cases hop'
  · intro t ht op' hop'
    cases hop'

/-- 記録と一致した「最新」のタグは、バイナリのタグである。 -/
theorem upToDate {latestTag : Text} (h : s.Invariant W (.readReleaseTag t latestTag :: rest))
    (hrecorded : s.recorded W t = some latestTag) :
    W.asset t.source.repo latestTag t.assetName = (s.entryAt W t).binary := by
  obtain ⟨t', ht', hsource, hname⟩ := h.head.started
  have hsource : t.source = t'.source := hsource
  have hname : t.assetName = t'.assetName := hname
  have heq : t.entry W = t'.entry W := entry_congr hsource hname
  have hat : s.entryAt W t = s.entryAt W t' := entryAt_congr heq
  rw [hat, hsource, hname]
  refine h.paired t' ht' latestTag ?_ (Or.inr ⟨_, List.mem_cons_self, if_pos heq⟩)
  rw [recorded, ← hat]
  exact hrecorded

/-- 検査に失敗した。使える置き場があったなら、それを返す。 -/
theorem fail (h : s.Invariant W (op :: rest)) (hpresent : op.task.cacheExisted = true → op.present = true) :
    s.Invariant W (op.task.fail ++ rest) := by
  rw [Task.fail]
  split
  · rename_i hexisted
    exact h.next rfl rfl rfl (fun d hd => by cases hd) trivial (fun _ => h.head.present (hpresent hexisted)) fun e => rfl
  · exact h.drop

theorem revalidate (h : s.Invariant W (op :: rest)) {cacheExisted : Bool}
    (hexisted : cacheExisted = true → (s.entryAt W op.task).binary.isSome = true) :
    s.Invariant W ([op.task.revalidate cacheExisted] ++ rest) := by
  rw [Task.revalidate]
  dsimp only
  split
  · exact h.next rfl rfl rfl (fun d hd => by cases hd) trivial hexisted fun e => rfl
  · split
    · rename_i htrue
      exact h.next rfl rfl rfl (fun d hd => by cases hd) trivial (fun _ => hexisted htrue) fun e => rfl
    · exact h.next rfl rfl rfl (fun d hd => by cases hd) trivial hexisted fun e => rfl

theorem downloaded (h : s.Invariant W (op :: rest)) (hpresent : op.present = true) :
    s.Invariant W ([op.task.downloaded] ++ rest) := by
  rw [Task.downloaded]
  split <;> exact h.next rfl rfl rfl (fun d hd => by cases hd) trivial (fun _ => h.head.present hpresent) fun e => rfl

theorem marked (h : s.Invariant W (op :: rest)) (hpresent : op.present = true) (now : Nat) (m : Marking) :
    s.Invariant W ([op.task.marked now m] ++ rest) := by
  have hnext {op' : Op} (htask : op'.task = op.task) (hdownload : op'.download = none) (hstored : op'.Stored W s)
      (hcomparing : ∀ e, op'.comparing W e = none) : s.Invariant W ([op'] ++ rest) := by
    refine h.next ?_ ?_ ?_ ?_ hstored (fun _ => h.head.present hpresent) hcomparing
    · rw [htask]
    · rw [htask]
    · rw [htask]
    · intro d hd
      rw [hdownload] at hd
      cases hd
  cases m with
  | digest d => exact hnext rfl rfl trivial fun e => rfl
  | checked secs downloaded =>
      cases downloaded with
      | false => exact hnext rfl rfl trivial fun e => rfl
      | true => exact h.downloaded hpresent
  | releaseTag tag => exact hnext rfl rfl trivial fun e => rfl

theorem unmarked (h : s.Invariant W (op :: rest)) (hpresent : op.present = true) (m : Marking) :
    s.Invariant W (op.task.unmarked m ++ rest) := by
  cases m with
  | digest d => exact h.fail fun _ => hpresent
  | checked secs downloaded => exact h.fail fun _ => hpresent
  | releaseTag tag =>
      exact h.next rfl rfl rfl (fun d hd => by cases hd) trivial (fun _ => h.head.present hpresent) fun e => rfl

end Invariant

end Shared

end

end IsekaiTerminal.HelperCache
