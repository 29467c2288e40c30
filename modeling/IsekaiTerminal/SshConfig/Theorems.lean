import IsekaiTerminal.SshConfig.Lemmas.Resolve

/-!
# 設定ファイルの性質
-/

namespace IsekaiTerminal.SshConfig

open Lib Lib.Splice

/-! ## 解決 -/

/-- パスと中身の表が表すファイル。 -/
def FileSystem.ofFiles (entries : List (Text × Text)) : FileSystem where
  canonicalize path := if (entries.lookup path).isSome then some path else none
  readToString path :=
    match entries.lookup path with
    | some content => .ok content
    | none => .error "No such file or directory".toList
  pathExists path := (entries.lookup path).isSome
  glob _ := .ok []
  files := entries.map Prod.fst
  pathExists_of_read path content h := by
    cases hlookup : entries.lookup path with
    | none => simp [hlookup] at h
    | some content => rfl
  mem_files path content h := by
    cases hlookup : entries.lookup path with
    | none => simp [hlookup] at h
    | some content =>
        rw [Option.isSome_some, if_pos rfl, Option.getD_some]
        obtain ⟨before, after, rfl, _⟩ := List.lookup_eq_some_iff.mp hlookup
        simp

theorem resolveFromFile_eq_of_lt (fs : FileSystem) (env : Env) (destination : Text) (rootDir : Option Text) (path : Text)
    {limit : Nat} (h : fs.files.length < limit) :
    resolveFromFile fs env destination rootDir limit path ([], .default) =
      resolveFromFile fs env destination rootDir (fs.files.length + 1) path ([], .default) := by
  have hunread := Source.unread_nil_le fs.source
  induction limit, (h : fs.files.length + 1 ≤ limit) using Nat.le_induction with
  | base => rfl
  | succ limit hlimit ih =>
      rw [← ih]
      refine Source.walkOnce_succ (Source.walkOnce_ne_stuck ?_)
      exact lt_of_le_of_lt hunread hlimit

theorem resolve_ne_stuck (fs : FileSystem) (env : Env) (path destination : Text) :
    resolve fs env path destination ≠ .error .stuck := by
  have hne : resolveFromFile fs env destination (parent path) (fs.files.length + 1) path ([], .default) ≠
      .error .stuck := Source.walkOnce_ne_stuck (Nat.lt_succ_of_le (Source.unread_nil_le fs.source))
  rw [resolve]
  cases hwalk : resolveFromFile fs env destination (parent path) (fs.files.length + 1) path ([], .default) with
  | error e =>
      rw [hwalk] at hne
      intro heq
      cases heq
      exact hne rfl
  | ok t => simp

theorem reference_ne_stuck (fs : FileSystem) (env : Env) (path destination : Text) :
    reference fs env path destination ≠ .error .stuck := by
  have hne : (folded fs env path destination).state ≠ .error .stuck :=
    Folding.run_ne_stuck (by simp [Folding.start])
      (stuck_notMem_flatten (Nat.lt_succ_of_le (Source.unread_nil_le fs.source)))
  rw [reference]
  cases hstate : (folded fs env path destination).state with
  | error e =>
      intro heq
      cases heq
      exact hne hstate
  | ok s => simp [Except.map]

/-- 解決は終わり、読み終えたファイルが効くところで再び取り込まれない限り、その結果は、取り込みを置き換えた列の畳み込みである。 -/
theorem resolve_eq_reference (fs : FileSystem) (env : Env) (path destination : Text) :
    (∀ limit, fs.files.length < limit →
      resolveFromFile fs env destination (parent path) limit path ([], .default) =
        resolveFromFile fs env destination (parent path) (fs.files.length + 1) path ([], .default)) ∧
      resolve fs env path destination ≠ .error .stuck ∧ reference fs env path destination ≠ .error .stuck ∧
      ((folded fs env path destination).entered.Nodup →
        resolve fs env path destination = reference fs env path destination) := by
  refine ⟨fun limit h => resolveFromFile_eq_of_lt fs env destination (parent path) path h,
    resolve_ne_stuck fs env path destination, reference_ne_stuck fs env path destination, ?_⟩
  intro hnodup
  have hmaps := settingItem_maps fs env destination (parent path)
  have hrun : (Folding.start HostConfig.default : Folding Text Error HostConfig).run
      (lineItem fs env destination (parent path))
      (fs.source.flatten (lineItem fs env destination (parent path)) (fs.files.length + 1) [] path) =
        (folded fs env path destination).map HostConfig.ofSettings := by
    rw [flatten_congr fs.source hmaps]
    exact Folding.map_run hmaps _ (Folding.start [])
  have hagree := Folding.agree_walkOnce fs.source (lineItem fs env destination (parent path)) (fs.files.length + 1) [] path
    (f := Folding.start HostConfig.default) rfl rfl (List.nil_subset _) (by rw [hrun]; exact hnodup)
  rw [hrun] at hagree
  have hwalk : resolveFromFile fs env destination (parent path) (fs.files.length + 1) path ([], .default) =
      ((folded fs env path destination).map HostConfig.ofSettings).walked := hagree.1
  rw [resolve, hwalk, reference, Folding.walked, Folding.map]
  cases (folded fs env path destination).state with
  | error e => rfl
  | ok settings => exact congrArg Except.ok (expandPathTokens_ofSettings env destination settings)

def aliceEnv : Env := { home := some "/home/alice".toList, userprofile := none, user := some "alice".toList, username := none }

/-- 互いに取り込むファイルと、`Match` の条件を持つ設定。 -/
def cyclicFiles : List (Text × Text) :=
  [("/home/alice/.ssh/config".toList,
      "Host dev*\n  User bob\n  Include shared # common\nHost other\n  Port 1\nHost *\n  Port 2222\n".toList),
    ("/home/alice/.ssh/shared".toList,
      "Include config\nMatch user bob\n  IdentityFile ~/.ssh/id_%r%%\n  Port = 22x\n".toList)]

theorem entered_cyclicFiles :
    (folded (.ofFiles cyclicFiles) aliceEnv "/home/alice/.ssh/config".toList "DEV1".toList).entered =
      ["/home/alice/.ssh/shared".toList, "/home/alice/.ssh/config".toList] := by
  unfold cyclicFiles
  repeat rw [String.toList_ofList]
  decide +kernel

theorem resolve_cyclicFiles :
    resolve (.ofFiles cyclicFiles) aliceEnv "/home/alice/.ssh/config".toList "DEV1".toList =
      reference (.ofFiles cyclicFiles) aliceEnv "/home/alice/.ssh/config".toList "DEV1".toList := by
  obtain ⟨_, _, _, h⟩ :=
    resolve_eq_reference (.ofFiles cyclicFiles) aliceEnv "/home/alice/.ssh/config".toList "DEV1".toList
  refine h ?_
  rw [entered_cyclicFiles]
  repeat rw [String.toList_ofList]
  decide +kernel

/-- 循環しない取り込みを、2 か所に書いた設定。 -/
def repeatedFiles : List (Text × Text) :=
  [("/home/alice/.ssh/config".toList, "Include shared\nUser bob\nInclude shared\n".toList),
    ("/home/alice/.ssh/shared".toList, "Match user bob\n  Port 2222\n".toList)]

/-- 2 か所めの取り込みは読まれず、基準が選ぶ `Port` が失われる。 -/
theorem resolve_repeatedFiles :
    (resolve (.ofFiles repeatedFiles) aliceEnv "/home/alice/.ssh/config".toList "dev".toList).toOption.map HostConfig.port =
        some none ∧
      (reference (.ofFiles repeatedFiles) aliceEnv "/home/alice/.ssh/config".toList "dev".toList).toOption.map
          HostConfig.port = some (some 2222) := by
  unfold repeatedFiles
  repeat rw [String.toList_ofList]
  decide +kernel

/-! ## `#@isekai` の指示 -/

theorem load_singleton (fs : FileSystem) (env : Env) (root destination : Text) :
    loadIsekaiDirectives fs env [root] destination =
      if fs.pathExists root then (loadIsekaiDirectivesFromFile fs env destination root ([], [])).map Prod.snd
      else .ok [] := by
  rw [loadIsekaiDirectives]
  by_cases hexists : fs.pathExists root = true
  · rw [if_pos hexists]
    simp only [List.foldlM_cons, List.foldlM_nil, hexists, if_true]
    cases loadIsekaiDirectivesFromFile fs env destination root ([], []) <;> rfl
  · rw [if_neg hexists]
    simp only [List.foldlM_cons, List.foldlM_nil, hexists]
    rfl

theorem resolve_error_of_observe {fs : FileSystem} {env : Env} {root destination : Text} {e : Fault Error}
    (h : observe fs env root destination = .error e) : resolve fs env root destination = .error e := by
  have hmap := observe_map fs env root destination
  rw [h] at hmap
  rw [resolve, ← hmap]
  rfl

/-- 読む行が同じ種類に読まれれば、集める指示は、`resolve_from_file` がふつうのキーワードの行を適用する点の指示であり、集められなければ
解決もできない。 -/
theorem load_eq_observe {fs : FileSystem} {env : Env} {root destination : Text} (halike : Alike fs env destination root) :
    (∀ directives, loadIsekaiDirectives fs env [root] destination = .ok directives →
      (∃ visited s, observe fs env root destination = .ok (visited, s) ∧ Collected s directives) ∨
        fs.pathExists root = false ∧ directives = []) ∧
      ((∃ e, loadIsekaiDirectives fs env [root] destination = .error e) → ∃ e, resolve fs env root destination = .error e) ∧
      (observe fs env root destination).map (Prod.map id Prod.snd) =
        resolveFromFile fs env destination (parent root) (fs.files.length + 1) root ([], .default) := by
  have hlockstep := lockstep_observe halike
  rw [load_singleton]
  refine ⟨?_, ?_, observe_map fs env root destination⟩
  · intro directives hload
    by_cases hexists : fs.pathExists root = true
    · left
      rw [if_pos hexists] at hload
      cases hwalk : loadIsekaiDirectivesFromFile fs env destination root ([], []) with
      | error e =>
          rw [hwalk] at hload
          cases hload
      | ok t =>
          rw [hwalk] at hload hlockstep
          cases hload
          cases hobserve : observe fs env root destination with
          | error e =>
              rw [hobserve] at hlockstep
              exact False.elim hlockstep
          | ok t' =>
              rw [hobserve] at hlockstep
              exact ⟨t'.1, t'.2, rfl, hlockstep.2⟩
    · right
      rw [if_neg hexists] at hload
      cases hload
      exact ⟨by simpa using hexists, rfl⟩
  · rintro ⟨e, hload⟩
    by_cases hexists : fs.pathExists root = true
    · rw [if_pos hexists] at hload
      cases hwalk : loadIsekaiDirectivesFromFile fs env destination root ([], []) with
      | ok t =>
          rw [hwalk] at hload
          cases hload
      | error e' =>
          rw [hwalk] at hlockstep
          cases hobserve : observe fs env root destination with
          | error e'' => exact ⟨e'', resolve_error_of_observe hobserve⟩
          | ok t =>
              rw [hobserve] at hlockstep
              exact False.elim hlockstep
    · rw [if_neg hexists] at hload
      cases hload

/-- 効くところだけで取り込み、指示を持つ設定。 -/
def directiveFiles : List (Text × Text) :=
  [("/home/alice/.ssh/config".toList,
      "Host other\n  #@isekai profile other\nHost dev !dev2 \n  User bob\n  Include ~/.ssh/shared\n  #@isekai tty off\n".toList),
    ("/home/alice/.ssh/shared".toList,
      "Include config\nHost *2\n  #@isekai stun a\nHost d*\n#@isekai  relay  b c\n".toList)]

theorem alike_directiveFiles :
    Alike (.ofFiles directiveFiles) aliceEnv "dev".toList "/home/alice/.ssh/config".toList := by
  unfold directiveFiles
  repeat rw [String.toList_ofList]
  decide +kernel

theorem any_directiveFiles :
    ((loadIsekaiDirectives (.ofFiles directiveFiles) aliceEnv ["/home/alice/.ssh/config".toList] "dev".toList).toOption.any
      fun directives => directives.length = 2) = true := by
  unfold directiveFiles
  repeat rw [String.toList_ofList]
  decide +kernel

theorem eq_ok_of_toOption {ε α : Type} {r : Except ε α} {a : α} (h : r.toOption = some a) : r = .ok a := by
  cases r with
  | error e => cases h
  | ok b =>
      cases h
      rfl

theorem load_directiveFiles :
    ∃ visited s directives, directives.length = 2 ∧ Collected s directives ∧
      observe (.ofFiles directiveFiles) aliceEnv "/home/alice/.ssh/config".toList "dev".toList = .ok (visited, s) := by
  obtain ⟨hload, _, _⟩ := load_eq_observe alike_directiveFiles
  obtain ⟨directives, hdirectives, hlength⟩ := (Option.any_eq_true _ _).mp any_directiveFiles
  have hlength : directives.length = 2 := of_decide_eq_true hlength
  rcases hload directives (eq_ok_of_toOption hdirectives) with ⟨visited, s, hobserve, hcollected⟩ | ⟨_, rfl⟩
  · exact ⟨visited, s, directives, hlength, hcollected, hobserve⟩
  · cases hlength

/-- 合わない `Host` の中で取り込む設定。 -/
def scopedFiles : List (Text × Text) :=
  [("/home/alice/.ssh/config".toList, "Host other\n  Include shared\n".toList),
    ("/home/alice/.ssh/shared".toList, "#@isekai profile other\n".toList)]

/-- 解決の走査が読まないファイルの指示が集められる。 -/
theorem load_scopedFiles :
    (loadIsekaiDirectives (.ofFiles scopedFiles) aliceEnv ["/home/alice/.ssh/config".toList] "dev".toList).toOption =
        some [{ name := "profile".toList, args := ["other".toList] }] ∧
      ((observe (.ofFiles scopedFiles) aliceEnv "/home/alice/.ssh/config".toList "dev".toList).toOption.map
        fun t => t.2.1) = some [] := by
  unfold scopedFiles
  repeat rw [String.toList_ofList]
  decide +kernel

/-! ## 型 -/

/-- 値を、型の `*` のそれぞれが表す列、`?` のそれぞれが表す 1 バイト、ほかのバイトそのものに切り分けられる。 -/
def Splits (pattern value : List UInt8) : Prop :=
  ∃ pieces, List.Forall₂ (Wild.Stands starByte anyByte) pattern pieces ∧ pieces.flatten = value

/-- 2 つの位置を進める反復は、型と値の長さの積で決まる回数の中で終わり、値を型のとおりに切り分けられるかどうかを返す。
再帰も同じ答えを返す。 -/
theorem wildcardMatchBytes_correct (pattern value : List UInt8) :
    ∃ result, (∀ fuel, (value.length + 1) * (pattern.length + 1) + pattern.length < fuel →
        Iterative.wildcardMatchBytes fuel pattern value = some result) ∧
      (result = true ↔ Splits pattern value) ∧ Recursive.wildcardMatchBytes pattern value = result := by
  refine ⟨wildcardMatchBytes pattern value, ?_, ?_, Recursive.wildcardMatchBytes_eq pattern value⟩
  · intro fuel hfuel
    exact Iterative.wildcardMatchBytes_eq pattern value hfuel
  · exact (wildScan_iff anyByte_ne_starByte).trans Wild.iff_pieces

end IsekaiTerminal.SshConfig
