import IsekaiTerminal.SshConfig.Text
import IsekaiTerminal.Lib.ThreadPool

/-!
# リリースのバイナリの置き場

`isekai-ssh/src/helper_download.rs` の `ensure_helper_binary_cached` と、そこから呼ばれる関数を定める。ファイルと HTTP の
1 回の操作が 1 つの操作であり、操作の間では他のプロセスがどの順にも進む。どの操作も失敗でき、どのプロセスもいつでも止まる。
バイナリは rename で置き換わり、3 つの印のファイルは、切り詰めてから少しずつ書かれる。URL の組み立て、大きさの上限、
ログは載せない。
-/

namespace IsekaiTerminal.HelperCache

open SshConfig

/-!
## リリースのバイナリの置き場のパス

`isekai-ssh/src/helper_download.rs` の `ReleaseSource`、`asset_name_for_arch`、`cache_path` を定める。パスは Unix のものとし、
置き場にシンボリックリンクはないとする。
-/

structure ReleaseSource where
  repo : Text
  tag : Option Text
deriving DecidableEq

def assetNameForArch (arch : Text) : Option Text :=
  if arch = "x86_64".toList ∨ arch = "aarch64".toList then
    some ("isekai-pipe-".toList ++ arch ++ "-unknown-linux-musl".toList)
  else none

/-- `repo.replace('/', "_")`。 -/
def repoSlug (repo : Text) : Text := repo.map fun c => if c = '/' then '_' else c

def cachePath (cacheDir : Text) (source : ReleaseSource) (assetName : Text) : Text :=
  joinPath (joinPath (joinPath cacheDir (repoSlug source.repo)) (source.tag.getD "latest".toList)) assetName

/-- パスの要素を 1 つ進む。空の要素と `.` は同じディレクトリに留まり、`..` は 1 つ戻る。 -/
def enter (dir : List Text) (name : Text) : List Text :=
  if name = [] ∨ name = ['.'] then dir else if name = ['.', '.'] then dir.dropLast else dir ++ [name]

/-- パスの指すファイル。 -/
def locate (path : Text) : List Text := (path.splitOn '/').foldl enter []

/-- `source` の `assetName` を置く場所。 -/
def entryOf (cacheDir : Text) (source : ReleaseSource) (assetName : Text) : List Text :=
  locate (cachePath cacheDir source assetName)

section

open Lib

abbrev Bytes := List UInt8

/-- `str::from_utf8`。 -/
def fromUtf8 (bytes : Bytes) : Option Text := (String.fromUTF8? ⟨bytes.toArray⟩).map String.toList

/-! ## 置き場とサーバー -/

/-- 変わらないもの。`asset` はリポジトリのタグのファイルであり、`#.sha256` のファイルも含む。 -/
structure World where
  cacheDir : Text
  freshnessTtl : Nat
  hexSha256 : Bytes → Text
  asset : Text → Text → Text → Option Bytes

/-- バイナリの隣の印のファイル。`.local-sha256`、`.last-checked`、`.release-tag` である。 -/
inductive Mark
  | localSha256
  | lastChecked
  | releaseTag
deriving DecidableEq

structure Entry where
  binary : Option Bytes
  marks : Mark → Option Bytes

/-- `ensure_helper_binary_cached` の 1 回の実行。`pid` はプロセスの番号であり、`cacheExisted` と、ダウンロードの前に引いた
タグ `tagBefore` は、決まった後で使う。 -/
structure Task where
  pid : Nat
  source : ReleaseSource
  assetName : Text
  cacheExisted : Bool
  tagBefore : Option Text
deriving DecidableEq

namespace Task

variable (W : World)

def entry (t : Task) : List Text := entryOf W.cacheDir t.source t.assetName

end Task

/-- 終えたダウンロード。`tag` はリダイレクトの先のタグである。 -/
structure Download where
  source : ReleaseSource
  assetName : Text
  tag : Text
  bytes : Bytes
deriving DecidableEq

/-- パスを返したとき、または、タグが変わらないと判断したときの、バイナリの中身。 -/
structure Sighting where
  source : ReleaseSource
  assetName : Text
  tag : Option Text
  binary : Option Bytes
deriving DecidableEq

/-- `latest` はリポジトリの「最新」のタグ、`temps` は `{asset}.{pid}.tmp` である。`started` は始めた実行の、`downloads` は
終えたダウンロードの、`returned` は返したパスの、`unchanged` はタグが変わらないという判断の履歴である。 -/
structure Shared where
  entries : List Text → Entry
  temps : List Text → Nat → Option Bytes
  latest : Text → Option Text
  started : List Task
  downloads : List Download
  returned : List Sighting
  unchanged : List Sighting

/-- 外から決まる選択。`alive` が偽なら、プロセスはこの操作の前に止まる。`length` は書けたバイト数、`owned` は所有者と許可の
検査の結果である。 -/
structure Choice where
  alive : Bool
  ok : Bool
  length : Nat
  owned : Bool
  now : Nat
deriving DecidableEq

/-! ## 操作 -/

/-- 印のファイルに書く内容と、書いた後の続き。 -/
inductive Marking
  | digest (d : Download)
  | checked (secs : Nat) (downloaded : Bool)
  | releaseTag (tag : Text)
deriving DecidableEq

inductive Op
  | pathExists (t : Task)
  | readBinary (t : Task)
  | readLocalSha256 (t : Task) (bytes : Bytes)
  | readMetadata (t : Task)
  | readLastChecked (t : Task)
  | fetchLatest (t : Task)
  | readReleaseTag (t : Task) (latestTag : Text)
  | fetchBefore (t : Task)
  | readPrevious (t : Task)
  | get (t : Task) (previous : Option Bytes)
  | getSidecar (t : Task) (d : Download) (previous : Option Bytes)
  | createDirAll (t : Task) (d : Download) (previous : Option Bytes)
  | createTemp (t : Task) (d : Download)
  | writeTemp (t : Task) (d : Download) (written : Nat)
  | setPermissions (t : Task) (d : Download)
  | rename (t : Task) (d : Download)
  | createMark (t : Task) (m : Marking)
  | writeMark (t : Task) (m : Marking) (written : Nat)
  | fetchAfter (t : Task) (tagBefore : Text)
  | finish (t : Task)
deriving DecidableEq

def Op.task : Op → Task
  | pathExists t | readBinary t | readLocalSha256 t _ | readMetadata t | readLastChecked t | fetchLatest t
  | readReleaseTag t _ | fetchBefore t | readPrevious t | get t _ | getSidecar t _ _ | createDirAll t _ _
  | createTemp t _ | writeTemp t _ _ | setPermissions t _ | rename t _ | createMark t _ | writeMark t _ _
  | fetchAfter t _ | finish t => t

namespace Marking

variable (W : World)

def file : Marking → Mark
  | digest _ => .localSha256
  | checked _ _ => .lastChecked
  | releaseTag _ => .releaseTag

def content : Marking → Bytes
  | digest d => asBytes (W.hexSha256 d.bytes)
  | checked secs _ => asBytes (Nat.toDigits 10 secs)
  | releaseTag tag => asBytes tag

end Marking

namespace Task

/-- 失敗した検査の後。使える置き場があったなら、警告してそれを返す。 -/
def fail (t : Task) : List Op := if t.cacheExisted then [.finish t] else []

/-- `revalidate_and_cache` の始まり。 -/
def revalidate (t : Task) (cacheExisted : Bool) : Op :=
  let t := { t with cacheExisted }
  if t.source.tag.isSome then .readPrevious t else if cacheExisted then .fetchLatest t else .fetchBefore t

/-- `download_and_cache` の後。`record_tag_if_unchanged` は、前のタグがあるときだけ行う。 -/
def downloaded (t : Task) : Op :=
  match t.tagBefore with
  | some tag => .fetchAfter t tag
  | none => .finish t

/-- 印のファイルを書けた後。 -/
def marked (t : Task) (now : Nat) : Marking → Op
  | .digest _ => .createMark t (.checked now true)
  | .checked _ true => t.downloaded
  | .checked _ false => .finish t
  | .releaseTag _ => .finish t

/-- 印のファイルを書けなかった後。タグは書けなくてもよい。 -/
def unmarked (t : Task) : Marking → List Op
  | .digest _ | .checked _ _ => t.fail
  | .releaseTag _ => [.finish t]

end Task

/-- ファイルの位置 `offset` への書き込み。間は 0 で埋まる。 -/
def writeAt (content : Bytes) (offset : Nat) (piece : Bytes) : Bytes :=
  content.take offset ++ List.replicate (offset - content.length) 0 ++ piece ++ content.drop (offset + piece.length)

def parseU64 (s : Text) : Option Nat :=
  let digits := if s.head? = some '+' then s.tail else s
  if digits ≠ [] ∧ digits.all Char.isDigit then
    let n := digits.foldl (fun n c => n * 10 + (c.toNat - '0'.toNat)) 0
    if n < 2 ^ 64 then some n else none
  else none

def readCachedTag (content : Option Bytes) : Option Text :=
  ((content.bind fromUtf8).map trim).filter (· ≠ [])

namespace Shared

variable (W : World)

def start (latest : Text → Option Text) : Shared :=
  ⟨fun _ => ⟨none, fun _ => none⟩, fun _ _ => none, latest, [], [], [], []⟩

def entryAt (s : Shared) (t : Task) : Entry := s.entries (t.entry W)

def setEntry (s : Shared) (t : Task) (e : Entry) : Shared :=
  { s with entries := Function.update s.entries (t.entry W) e }

def setTemp (s : Shared) (t : Task) (content : Option Bytes) : Shared :=
  { s with temps := Function.update s.temps (t.entry W) (Function.update (s.temps (t.entry W)) t.pid content) }

def setBinary (s : Shared) (t : Task) (bytes : Bytes) : Shared :=
  s.setEntry W t { s.entryAt W t with binary := some bytes }

def setMark (s : Shared) (t : Task) (m : Mark) (content : Bytes) : Shared :=
  s.setEntry W t { s.entryAt W t with marks := Function.update (s.entryAt W t).marks m (some content) }

def sight (s : Shared) (t : Task) (tag : Option Text) : Sighting :=
  ⟨t.source, t.assetName, tag, (s.entryAt W t).binary⟩

/-- 記録されている「最新」のタグ。 -/
def recorded (s : Shared) (t : Task) : Option Text := readCachedTag ((s.entryAt W t).marks .releaseTag)

/-- `is_stale`。 -/
def isStale (s : Shared) (t : Task) (now : Nat) : Bool :=
  match (((s.entryAt W t).marks .lastChecked).bind fromUtf8).bind fun content => parseU64 (trim content) with
  | some secs => decide (W.freshnessTtl ≤ now - secs)
  | none => true

/-- ダウンロードの URL が今指すタグ。 -/
def resolve (s : Shared) (source : ReleaseSource) : Option Text := source.tag.or (s.latest source.repo)

def download (s : Shared) (source : ReleaseSource) (assetName : Text) : Option Download := do
  let tag ← s.resolve source
  let bytes ← W.asset source.repo tag assetName
  pure ⟨source, assetName, tag, bytes⟩

def sidecar (s : Shared) (t : Task) : Option Bytes := do
  let tag ← s.resolve t.source
  W.asset t.source.repo tag (t.assetName ++ ".sha256".toList)

/-- `verify_sha256_sidecar_if_present`。ファイルがなければ検査しない。 -/
def verifySidecar (s : Shared) (t : Task) (bytes : Bytes) : Bool :=
  match s.sidecar W t with
  | none => true
  | some body =>
      match fromUtf8 body with
      | some text => decide (toAsciiLowercase (((splitWhitespace text).head?).getD []) = W.hexSha256 bytes)
      | none => false

/-- サーバーの「最新」が変わる。 -/
def setLatest (s : Shared) (repo : Text) (tag : Option Text) : Shared :=
  { s with latest := Function.update s.latest repo tag }

def exec (s : Shared) (op : Op) (k : Choice) : Shared × List Op × List (List Op) :=
  if k.alive then
    match op with
    | .pathExists t =>
        (s, [if k.ok && (s.entryAt W t).binary.isSome then .readBinary t else t.revalidate false], [])
    | .readBinary t =>
        match if k.ok then (s.entryAt W t).binary else none with
        | some bytes => (s, [.readLocalSha256 t bytes], [])
        | none => (s, [t.revalidate false], [])
    | .readLocalSha256 t bytes =>
        match if k.ok then ((s.entryAt W t).marks .localSha256).bind fromUtf8 else none with
        | some recorded =>
            (s, [if trim recorded = W.hexSha256 bytes then .readMetadata t else t.revalidate false], [])
        | none => (s, [t.revalidate false], [])
    | .readMetadata t =>
        (s, [if k.owned then (if t.source.tag.isSome then .finish t else .readLastChecked t)
          else t.revalidate false], [])
    | .readLastChecked t => (s, [if k.ok && !s.isStale W t k.now then .finish t else t.revalidate true], [])
    | .fetchLatest t =>
        match if k.ok then s.latest t.source.repo else none with
        | some tag => (s, [.readReleaseTag t tag], [])
        | none => (s, t.fail, [])
    | .readReleaseTag t latestTag =>
        if k.ok && s.recorded W t == some latestTag then
          ({ s with unchanged := s.unchanged ++ [s.sight W t (some latestTag)] },
            [.createMark t (.checked k.now false)], [])
        else (s, [.readPrevious { t with tagBefore := some latestTag }], [])
    | .fetchBefore t =>
        (s, [.readPrevious { t with tagBefore := if k.ok then s.latest t.source.repo else none }], [])
    | .readPrevious t => (s, [.get t (if k.ok then (s.entryAt W t).binary else none)], [])
    | .get t previous =>
        match if k.ok then s.download W t.source t.assetName else none with
        | some d => ({ s with downloads := s.downloads ++ [d] }, [.getSidecar t d previous], [])
        | none => (s, t.fail, [])
    | .getSidecar t d previous =>
        (s, if k.ok && s.verifySidecar W t d.bytes then [.createDirAll t d previous] else t.fail, [])
    | .createDirAll t d previous =>
        (s, if k.ok then [if previous = some d.bytes then .createMark t (.digest d) else .createTemp t d]
          else t.fail, [])
    | .createTemp t d => if k.ok then (s.setTemp W t (some []), [.writeTemp t d 0], []) else (s, t.fail, [])
    | .writeTemp t d written =>
        let piece := (d.bytes.drop written).take k.length
        let s' := s.setTemp W t (((s.temps (t.entry W) t.pid)).map (writeAt · written piece))
        if written + piece.length = d.bytes.length then (s', if k.ok then [.setPermissions t d] else t.fail, [])
        else (s', if k.ok then [.writeTemp t d (written + piece.length)] else t.fail, [])
    | .setPermissions t d => (s, if k.ok then [.rename t d] else t.fail, [])
    | .rename t d =>
        match if k.ok then s.temps (t.entry W) t.pid else none with
        | some bytes => ((s.setTemp W t none).setBinary W t bytes, [.createMark t (.digest d)], [])
        | none => (s, t.fail, [])
    | .createMark t m =>
        if k.ok then (s.setMark W t m.file [], [.writeMark t m 0], []) else (s, t.unmarked m, [])
    | .writeMark t m written =>
        let piece := ((m.content W).drop written).take k.length
        let s' := s.setMark W t m.file (writeAt (((s.entryAt W t).marks m.file).getD []) written piece)
        if written + piece.length = (m.content W).length then
          (s', if k.ok then [t.marked k.now m] else t.unmarked m, [])
        else (s', if k.ok then [.writeMark t m (written + piece.length)] else t.unmarked m, [])
    | .fetchAfter t tagBefore =>
        (s, [if k.ok && s.latest t.source.repo == some tagBefore then .createMark t (.releaseTag tagBefore)
          else .finish t], [])
    | .finish t => ({ s with returned := s.returned ++ [s.sight W t none] }, [], [])
  else (s, [], [])

end Shared

/-! ## 実行 -/

/-- `start` は `ensure_helper_binary_cached` の呼び出し、`release` はサーバーの「最新」の変化である。 -/
inductive Call
  | start (pid : Nat) (source : ReleaseSource) (arch : Text)
  | release (repo : Text) (tag : Option Text)
deriving DecidableEq

namespace Shared

/-- 配布のないアーキテクチャでは、何にも触れずに失敗する。 -/
def call (s : Shared) : Call → Option (Shared × List Op)
  | .start pid source arch => do
      let assetName ← assetNameForArch arch
      let t : Task := ⟨pid, source, assetName, false, none⟩
      pure ({ s with started := s.started ++ [t] }, [.pathExists t])
  | .release repo tag => some (s.setLatest repo tag, [])

end Shared

abbrev State := Pool Shared Op

abbrev Action := PoolAction Call Choice

namespace State

def start (latest : Text → Option Text) : State := ⟨.start latest, []⟩

/-- 動いているプロセスの番号は、重ならない。 -/
def Fresh (p : State) : Action → Prop
  | .call (.start pid _ _) => ∀ op ∈ p.pending, op.task.pid ≠ pid
  | .call (.release _ _) | .run _ _ => True

instance (p : State) : DecidablePred p.Fresh
  | .call (.start _ _ _) => inferInstanceAs (Decidable (∀ op ∈ p.pending, _))
  | .call (.release _ _) => inferInstanceAs (Decidable True)
  | .run _ _ => inferInstanceAs (Decidable True)

def step (W : World) (p : State) (a : Action) : Option State :=
  if p.Fresh a then Pool.step Shared.call (Shared.exec W) p a else none

abbrev Steps (W : World) (p : State) (a : Action) (p' : State) : Prop := p.step W a = some p'

end State

/-! ## 仕様 -/

/-- 中身は、そのリポジトリのそのタグ（「最新」なら、いずれかのタグ）のために落とした、完全なファイルである。 -/
def Sighting.Genuine (W : World) (downloads : List Download) (v : Sighting) : Prop :=
  ∃ d ∈ downloads, d.source = v.source ∧ d.assetName = v.assetName ∧ v.binary = some d.bytes ∧
    W.asset d.source.repo d.tag d.assetName = some d.bytes ∧ ∀ tag ∈ d.source.tag, d.tag = tag

/-- 中身は、判断の根拠にしたタグのファイルである。 -/
def Sighting.UpToDate (W : World) (v : Sighting) : Prop :=
  v.binary.isSome = true ∧ ∀ tag ∈ v.tag, W.asset v.source.repo tag v.assetName = v.binary

instance (W : World) (downloads : List Download) : DecidablePred (Sighting.Genuine W downloads) :=
  fun _ => inferInstanceAs (Decidable (∃ d ∈ downloads, _))

instance (W : World) : DecidablePred (Sighting.UpToDate W) := fun _ => inferInstanceAs (Decidable (_ ∧ _))

/-- 返したパスには、そのための完全なファイルがあり、異なる `ReleaseSource` は場所を分け合わず、タグが変わらないと判断した
ときのバイナリは、そのタグのファイルである。 -/
structure Shared.Coherent (W : World) (s : Shared) : Prop where
  returned : ∀ v ∈ s.returned, v.Genuine W s.downloads
  separate : ∀ t ∈ s.started, ∀ t' ∈ s.started, t.entry W = t'.entry W → t.source = t'.source
  unchanged : ∀ v ∈ s.unchanged, v.UpToDate W

/-! ## 追い越しのない操作 -/

section

variable (W : World)

/-- `entry` に記録されたタグと、これから比べるタグ。 -/
def Op.comparing (entry : List Text) : Op → Option Text
  | .readReleaseTag t latestTag => if t.entry W = entry then some latestTag else none
  | _ => none

/-- `tag` は今の「最新」であるか、「最新」として引かれ、`t` の場所の記録とこれから比べられる。 -/
def Shared.Known (s : Shared) (ops : List Op) (t : Task) (tag : Text) : Prop :=
  s.latest t.source.repo = some tag ∨ ∃ op ∈ ops, op.comparing W (t.entry W) = some tag

instance (s : Shared) (ops : List Op) (t : Task) (tag : Text) : Decidable (s.Known W ops t tag) :=
  inferInstanceAs (Decidable (_ ∨ _))

/-- 他の操作が `rest` であるときの、追い越しのない操作。バイナリの置き換えでも、タグの記録でも、その後に記録されているタグが
「最新」と見なされうるなら、バイナリはそのタグのファイルである。 -/
def Op.Ordered (s : Shared) (rest : List Op) (k : Choice) : Op → Prop
  | .rename t d =>
      k.alive = true → k.ok = true → ∀ tag ∈ s.recorded W t, s.Known W rest t tag →
        W.asset t.source.repo tag t.assetName = some d.bytes
  | .writeMark t (.releaseTag tagBefore) written =>
      k.alive = true → ∀ tag ∈ readCachedTag (some (writeAt (((s.entryAt W t).marks .releaseTag).getD []) written
        (((asBytes tagBefore).drop written).take k.length))), s.Known W rest t tag →
          W.asset t.source.repo tag t.assetName = (s.entryAt W t).binary
  | _ => True

/-- 追い越しのない呼び出し。場所を分け合う別の `ReleaseSource` がなく、「最新」は、記録されたタグとバイナリが食い違う間は、
そのタグに戻らない。 -/
def Call.Ordered (s : Shared) : Call → Prop
  | .start _ source arch =>
      ∀ assetName ∈ assetNameForArch arch, ∀ t ∈ s.started,
        t.entry W = entryOf W.cacheDir source assetName → t.source = source
  | .release repo latest =>
      ∀ t ∈ s.started, t.source.repo = repo → ∀ tag ∈ latest, s.recorded W t = some tag →
        W.asset repo tag t.assetName = (s.entryAt W t).binary

instance (s : Shared) : DecidablePred (Call.Ordered W s)
  | .start _ _ _ => inferInstanceAs (Decidable (∀ assetName ∈ _, ∀ t ∈ _, _))
  | .release _ _ => inferInstanceAs (Decidable (∀ t ∈ _, _))

instance (s : Shared) (rest : List Op) (k : Choice) : DecidablePred (Op.Ordered W s rest k)
  | .rename _ _ => inferInstanceAs (Decidable (_ → _))
  | .writeMark _ (.releaseTag _) _ => inferInstanceAs (Decidable (_ → _))
  | .writeMark _ (.digest _) _ | .writeMark _ (.checked _ _) _ => inferInstanceAs (Decidable True)
  | .pathExists _ | .readBinary _ | .readLocalSha256 _ _ | .readMetadata _ | .readLastChecked _ | .fetchLatest _
  | .readReleaseTag _ _ | .fetchBefore _ | .readPrevious _ | .get _ _ | .getSidecar _ _ _ | .createDirAll _ _ _
  | .createTemp _ _ | .writeTemp _ _ _ | .setPermissions _ _ | .createMark _ _ | .fetchAfter _ _ | .finish _ =>
      inferInstanceAs (Decidable True)

def Ordered (p : State) : Action → Prop
  | .call c => c.Ordered W p.shared
  | .run i k => ∀ op ∈ p.next? i, op.Ordered W p.shared (p.pending.erase op) k

instance (p : State) : DecidablePred (Ordered W p)
  | .call _ => inferInstanceAs (Decidable (Call.Ordered _ _ _))
  | .run _ _ => inferInstanceAs (Decidable (∀ op ∈ _, _))

/-- 重ならない実行。場所を使う実行がない間に次の実行が始まり、リポジトリの実行がない間に「最新」が動く。 -/
def Serial (p : State) : Action → Prop
  | .call (.start pid source arch) =>
      (Call.start pid source arch).Ordered W p.shared ∧
        ∀ assetName ∈ assetNameForArch arch, ∀ op ∈ p.pending, op.task.entry W ≠ entryOf W.cacheDir source assetName
  | .call (.release repo latest) =>
      (Call.release repo latest).Ordered W p.shared ∧ ∀ op ∈ p.pending, op.task.source.repo ≠ repo
  | .run _ _ => True

instance (p : State) : DecidablePred (Serial W p)
  | .call (.start _ _ _) => inferInstanceAs (Decidable (_ ∧ ∀ assetName ∈ _, _))
  | .call (.release _ _) => inferInstanceAs (Decidable (_ ∧ ∀ op ∈ _, _))
  | .run _ _ => inferInstanceAs (Decidable True)

end

end

end IsekaiTerminal.HelperCache
