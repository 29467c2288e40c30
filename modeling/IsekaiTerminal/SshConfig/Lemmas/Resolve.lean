import IsekaiTerminal.Lib.Splice.Walk
import IsekaiTerminal.SshConfig.Resolve
import IsekaiTerminal.SshConfig.Reference

/-!
# 2 つの走査の対応と、解決と基準の対応
-/

namespace IsekaiTerminal.SshConfig

open Lib Lib.Splice

section

variable {fs : FileSystem} {env : Env} {destination root path rawLine : Text} {rootDir : Option Text}

/-! ## 記録を加えた解決の走査 -/

theorem readLine_of_directiveRest {rest : Text} (h : directiveRest rawLine = some rest) : readLine rawLine = none := by
  rw [directiveRest, stripPrefix] at h
  split at h
  · obtain ⟨after, hafter⟩ := List.isPrefixOf_iff_prefix.mp ‹_›
    have hhead : (trim rawLine).head? = some '#' := by
      rw [← hafter]
      rfl
    simp [readLine, hhead]
  · cases h

theorem observedEffect_project (active : Bool) (s : List Text × HostConfig) :
    EffectProject Prod.snd s (observedEffect fs env destination rootDir active s rawLine)
      ((lineItem fs env destination rootDir rawLine).effect active s.2) := by
  rw [observedEffect]
  cases hrest : stripPrefix "#@isekai".toList (trim rawLine) with
  | some rest =>
      have hread : readLine rawLine = none := readLine_of_directiveRest hrest
      rw [lineItem, hread]
      cases active with
      | true => exact .update rfl
      | false => exact .skip
  | none =>
      dsimp only
      cases (lineItem fs env destination rootDir rawLine).effect active s.2 with
      | skip => exact .skip
      | select l => exact .select l
      | update config => exact .update rfl
      | fail e => exact .fail e
      | visit targets => exact .visit targets

/-- 記録を除けば、`resolve` の走査である。 -/
theorem observe_map (fs : FileSystem) (env : Env) (path destination : Text) :
    (observe fs env path destination).map (Prod.map id Prod.snd) =
      resolveFromFile fs env destination (parent path) (fs.files.length + 1) path ([], .default) :=
  map_walkOnce (fun _ _ _ _ => observedEffect_project _ _) _ _ _

/-! ## 読み方と効果 -/

/-- 語の無い取り込みは、ファイルの中の位置も、読んだファイルも変えない。 -/
inductive ObservedAs (active : Bool) (s : List Text × HostConfig) :
    Reading → Effect Text SshConfig.Error Bool (List Text × HostConfig) → Prop
  | other {effect : Effect Text SshConfig.Error Bool (List Text × HostConfig)} {config : HostConfig}
      (h : Idles s effect (s.1, config)) : ObservedAs active s .other effect
  | host (selected : Bool) : ObservedAs active s (.host selected) (.select selected)
  | matches (effect : Effect Text SshConfig.Error Bool (List Text × HostConfig)) : ObservedAs active s .matches effect
  | includes (targets : List (Except SshConfig.Error (List Text))) (read : List (Option (List Text))) :
      ObservedAs active s (.includes read) (.visit targets)

theorem observedEffect_as (hrest : directiveRest rawLine = none) (active : Bool) (s : List Text × HostConfig) :
    ObservedAs active s (reading fs env destination rootDir active rawLine)
      (observedEffect fs env destination rootDir active s rawLine) := by
  have heffect : observedEffect fs env destination rootDir active s rawLine =
      ((lineItem fs env destination rootDir rawLine).effect active s.2).map fun config => (s.1, config) := by
    rw [directiveRest] at hrest
    rw [observedEffect, hrest]
  have htext (apply : HostConfig → HostConfig) : ObservedAs active s .other
      (((Item.text apply : Item Text SshConfig.Error HostConfig).effect active s.2).map fun config => (s.1, config)) := by
    cases active with
    | true => exact .other (.update _)
    | false => exact .other .skip
  rw [heffect, reading, lineItem]
  cases readLine rawLine with
  | none => exact htext id
  | some read =>
      obtain ⟨lower, rest⟩ := read
      dsimp only
      by_cases hinclude : lower = "include".toList
      · rw [if_pos hinclude, if_pos hinclude]
        cases active with
        | false => exact .other .skip
        | true =>
            cases splitWords rest with
            | nil => exact .other .visitNone
            | cons word words => exact .includes _ _
      rw [if_neg hinclude, if_neg hinclude]
      by_cases hhost : lower = "host".toList
      · rw [if_pos hhost, if_pos hhost]
        exact .host _
      rw [if_neg hhost, if_neg hhost]
      by_cases hmatch : lower = "match".toList
      · rw [if_pos hmatch, if_pos hmatch]
        exact .matches _
      rw [if_neg hmatch, if_neg hmatch]
      exact htext _

/-- `load_isekai_directives_from_file` の効果。 -/
inductive LoadedAs (directives : List IsekaiDirective) :
    Reading → Effect Text Directive.Error Directive.Scope (List IsekaiDirective) → Prop
  | other {effect : Effect Text Directive.Error Directive.Scope (List IsekaiDirective)} (h : Idles directives effect directives) :
      LoadedAs directives .other effect
  | host (selected : Bool) : LoadedAs directives (.host selected) (.select { active := selected, inMatch := false })
  | matches : LoadedAs directives .matches (.select { active := false, inMatch := true })
  | includes {read : List (Option (List Text))} (targets : List (Except Directive.Error (List Text)))
      (h : targets.map Except.toOption = read) : LoadedAs directives (.includes read) (.visit targets)

theorem lineEffect_as (hrest : directiveRest rawLine = none) (scope : Directive.Scope) (directives : List IsekaiDirective) :
    LoadedAs directives (Directive.reading fs env destination path rawLine)
      (Directive.lineEffect fs env destination path scope directives rawLine) := by
  rw [directiveRest] at hrest
  rw [Directive.reading, Directive.lineEffect]
  dsimp only
  rw [hrest]
  dsimp only
  by_cases hempty : trim rawLine = []
  · rw [if_pos (Or.inl hempty), if_pos hempty]
    exact .other .skip
  by_cases hcomment : (trim rawLine).head? = some '#'
  · rw [if_pos (Or.inr hcomment), if_neg hempty, if_pos hcomment]
    exact .other .skip
  have hline : ¬ (trim rawLine = [] ∨ (trim rawLine).head? = some '#') := by
    rintro (h | h)
    · exact hempty h
    · exact hcomment h
  rw [if_neg hline, if_neg hempty, if_neg hcomment]
  obtain ⟨keyword, rest⟩ := Directive.splitKeyword (trim rawLine)
  dsimp only
  by_cases hinclude : toAsciiLowercase keyword = "include".toList
  · rw [if_pos hinclude, if_pos hinclude]
    cases Directive.splitWords rest with
    | nil => exact .other .visitNone
    | cons word words =>
        refine .includes _ ?_
        rw [List.map_map]
        rfl
  rw [if_neg hinclude, if_neg hinclude]
  by_cases hhost : toAsciiLowercase keyword = "host".toList
  · rw [if_pos hhost, if_pos hhost]
    exact .host _
  rw [if_neg hhost, if_neg hhost]
  by_cases hmatch : toAsciiLowercase keyword = "match".toList
  · rw [if_pos hmatch, if_pos hmatch]
    exact .matches
  · rw [if_neg hmatch, if_neg hmatch]
    exact .other .skip

/-! ## 走査の対応 -/

theorem trim_ne_nil_of_directiveRest {rest : Text} (h : directiveRest rawLine = some rest) : trim rawLine ≠ [] := by
  intro hempty
  rw [directiveRest, hempty] at h
  cases h

/-- 次の行が効くかどうかが同じで、`Match` の中でない。 -/
def ScopeAlike (active : Bool) (scope : Directive.Scope) : Prop := scope = { active, inMatch := false }

/-- `#@isekai` の行の効果。 -/
theorem directiveLine_alike {peers : List (Option (List Text))} {rest : Text} {active : Bool} {s : List Text × HostConfig}
    {directives : List IsekaiDirective} (hrest : directiveRest rawLine = some rest)
    (halike : lineAlike fs env destination rootDir path active rawLine = true) (hs : Collected s directives) :
    EffectAlike peers ScopeAlike Collected active { active, inMatch := false } s directives
      (observedEffect fs env destination rootDir active s rawLine)
      (Directive.lineEffect fs env destination path { active, inMatch := false } directives rawLine) := by
  have htrim := trim_ne_nil_of_directiveRest hrest
  rw [lineAlike, hrest] at halike
  rw [directiveRest] at hrest
  rw [observedEffect, Directive.lineEffect, hrest]
  dsimp only
  rw [if_neg htrim]
  cases active with
  | false => exact .idle .skip .skip rfl hs
  | true =>
      have hwords : Directive.splitWords (trim rest) ≠ [] := by simpa using halike
      simp only [if_true, Bool.false_eq_true, if_false]
      cases hsplit : Directive.splitWords (trim rest) with
      | nil => exact absurd hsplit hwords
      | cons name args =>
          have hparse : Directive.parseIsekaiDirective (trim rest) = .ok { name, args } := by
            rw [Directive.parseIsekaiDirective, hsplit]
          rw [hparse]
          refine .idle (.update _) (.update _) rfl ?_
          rw [Collected] at hs ⊢
          rw [List.map_append, List.map_append, hs, List.map_singleton, List.map_singleton, hparse]

/-- 同じ種類に読まれる行の効果。 -/
theorem line_alike {line : Text} {active : Bool} {scope : Directive.Scope} {s : List Text × HostConfig}
    {directives : List IsekaiDirective} (halike : lineAlike fs env destination rootDir path active line = true)
    (hscope : ScopeAlike active scope) (hs : Collected s directives) :
    EffectAlike (Directive.reading fs env destination path line).targets ScopeAlike Collected active scope s directives
      (observedEffect fs env destination rootDir active s line)
      (Directive.lineEffect fs env destination path scope directives line) := by
  obtain rfl : scope = { active, inMatch := false } := hscope
  cases hrest : directiveRest line with
  | some rest => exact directiveLine_alike hrest halike hs
  | none =>
      rw [lineAlike, hrest] at halike
      have hobserved : ObservedAs active s (reading fs env destination rootDir active line)
          (observedEffect fs env destination rootDir active s line) := observedEffect_as hrest active s
      have hloaded : LoadedAs directives (Directive.reading fs env destination path line)
          (Directive.lineEffect fs env destination path { active, inMatch := false } directives line) :=
        lineEffect_as hrest _ directives
      generalize reading fs env destination rootDir active line = read₁ at *
      generalize Directive.reading fs env destination path line = read₂ at *
      generalize observedEffect fs env destination rootDir active s line = effect₁ at *
      generalize Directive.lineEffect fs env destination path { active, inMatch := false } directives line = effect₂ at *
      cases hobserved with
      | other h₁ =>
          cases hloaded with
          | other h₂ => exact .idle h₁ h₂ rfl hs
          | host | «matches» | includes => cases halike
      | host selected =>
          cases hloaded with
          | host selected' =>
              obtain rfl : selected = selected' := by simpa [Reading.sameKind] using halike
              exact .select rfl
          | other | «matches» | includes => cases halike
      | «matches» _ => cases halike
      | includes targets₁ read =>
          cases hloaded with
          | includes targets₂ h₂ => exact .visit rfl h₂
          | other | host | «matches» => cases halike

theorem same_lockstep {peer : Text} (h : fs.same path peer = true) :
    fs.source.key path = fs.directiveSource.key peer ∧ Lockstep Eq (fs.source.read path) (fs.directiveSource.read peer) := by
  rw [FileSystem.same, Bool.and_eq_true, decide_eq_true_eq, decide_eq_true_eq] at h
  refine ⟨h.1, ?_⟩
  have hread := h.2
  rw [FileSystem.source, FileSystem.directiveSource]
  dsimp only
  cases hpath : fs.readToString path with
  | error e₁ =>
      rw [hpath] at hread
      cases hpeer : fs.readToString peer with
      | error e₂ => exact True.intro
      | ok content =>
          rw [hpeer] at hread
          cases hread
  | ok content =>
      rw [hpath] at hread
      cases hpeer : fs.readToString peer with
      | error e₂ =>
          rw [hpeer] at hread
          cases hread
      | ok content' =>
          rw [hpeer] at hread
          cases hread
          exact rfl

/-- 読む行が同じ種類に読まれれば、2 つの走査は対応する。 -/
theorem lockstep_observe (halike : Alike fs env destination root) :
    Lockstep (SameMemory Collected) (observe fs env root destination)
      (loadIsekaiDirectivesFromFile fs env destination root ([], [])) := by
  have hstart : SameMemory Collected (([] : List Text), ([], HostConfig.default)) ([], []) := ⟨rfl, rfl⟩
  have hscope : ScopeAlike true { active := true, inMatch := false } := rfl
  refine Lockstep.walkOnce (fun _ _ h => same_lockstep h) ?_ hscope _ halike hstart
  intro _ _ _ _ _ _ _ hline hscope hs
  exact line_alike hline hscope hs

/-!
## 解決と基準の対応
-/

/-! ## 行が効く条件 -/

theorem wildcardMatch_iff {pattern value : Text} : wildcardMatch pattern value = true ↔ Covers pattern value :=
  wildScan_iff (by decide)

theorem patternsMatch_iff {value : Text} {patterns : List Text} {matched : Bool} :
    patternsMatch value patterns matched = true ↔
      (matched = true ∨ ∃ pattern ∈ patterns, stripPrefix ['!'] pattern = none ∧ Covers pattern value) ∧
        ∀ pattern ∈ patterns, ∀ negative ∈ stripPrefix ['!'] pattern, ¬ Covers negative value := by
  induction patterns generalizing matched with
  | nil => simp [patternsMatch]
  | cons pattern patterns ih =>
      rw [patternsMatch]
      cases hnegative : stripPrefix ['!'] pattern with
      | some negative =>
          by_cases hmatch : Covers negative value
          · simp [wildcardMatch_iff, hmatch, hnegative]
          · simp [wildcardMatch_iff, hmatch, hnegative, ih]
      | none =>
          by_cases hmatch : Covers pattern value
          · have hcovers : wildcardMatch pattern value = true := wildcardMatch_iff.mpr hmatch
            simp [hcovers, hmatch, hnegative, ih]
          · have hcovers : wildcardMatch pattern value = false := by
              rw [← Bool.not_eq_true, wildcardMatch_iff]
              exact hmatch
            simp [hcovers, hmatch, hnegative, ih]

theorem patternsMatch_false_iff {value : Text} {patterns : List Text} :
    patternsMatch value patterns false = true ↔ Selected patterns value := by
  rw [patternsMatch_iff, Selected, Bool.false_eq_true, false_or]

theorem hostPatternsMatch_eq (patterns destination : Text) :
    hostPatternsMatch patterns destination = decide (HostSelected patterns destination) := by
  rw [Bool.eq_iff_iff, decide_eq_true_eq]
  exact patternsMatch_false_iff

theorem commaPatternListMatch_iff {patternList value : Text} :
    commaPatternListMatch patternList value = true ↔ ListSelected patternList value := patternsMatch_false_iff

/-- 1 つの条件と、残りの条件。 -/
theorem criterion_and_iff {env : Env} {destination : Text} {config : HostConfig} {tokens : List Text} {anyCriterion b : Bool}
    {criterion : Criterion} (hb : b = true ↔ criterion.Holds env destination config)
    (h : matchCriteria env destination config tokens true = true ↔ (criteria tokens = [] → true = true) ∧
      ∀ criterion ∈ criteria tokens, criterion.Holds env destination config) :
    (b && matchCriteria env destination config tokens true) = true ↔
      (criterion :: criteria tokens = [] → anyCriterion = true) ∧
        ∀ criterion' ∈ criterion :: criteria tokens, criterion'.Holds env destination config := by
  rw [Bool.and_eq_true, hb, h, List.forall_mem_cons]
  simp

theorem matchCriteria_iff (env : Env) (destination : Text) (config : HostConfig) (tokens : List Text) (anyCriterion : Bool) :
    matchCriteria env destination config tokens anyCriterion = true ↔
      (criteria tokens = [] → anyCriterion = true) ∧
        ∀ criterion ∈ criteria tokens, criterion.Holds env destination config := by
  induction tokens using criteria.induct generalizing anyCriterion with
  | case1 => simp [matchCriteria, criteria]
  | case2 keyword tokens lower hall ih =>
      have hcode : matchCriteria env destination config (keyword :: tokens) anyCriterion =
          (true && matchCriteria env destination config tokens true) := by
        rw [matchCriteria.eq_def, Bool.true_and]
        exact if_pos hall
      have hspec : criteria (keyword :: tokens) = .all :: criteria tokens := by
        rw [criteria.eq_def]
        exact if_pos hall
      rw [hcode, hspec]
      exact criterion_and_iff (by simp [Criterion.Holds]) (ih true)
  | case3 keyword lower hall =>
      have hcode : matchCriteria env destination config [keyword] anyCriterion = false := by
        rw [matchCriteria.eq_def]
        dsimp only
        rw [if_neg hall]
        simp only [ite_self]
      rw [hcode, criteria, if_neg hall]
      simp [Criterion.Holds]
  | case4 keyword lower hall patternList tokens hhost ih =>
      rw [matchCriteria, criteria, if_neg hall, if_neg hall, if_pos hhost, if_pos hhost]
      exact criterion_and_iff commaPatternListMatch_iff (ih true)
  | case5 keyword lower hall patternList tokens hhost horiginal ih =>
      rw [matchCriteria, criteria, if_neg hall, if_neg hall, if_neg hhost, if_neg hhost, if_pos horiginal, if_pos horiginal]
      exact criterion_and_iff commaPatternListMatch_iff (ih true)
  | case6 keyword lower hall patternList tokens hhost horiginal huser ih =>
      rw [matchCriteria, criteria, if_neg hall, if_neg hall, if_neg hhost, if_neg hhost, if_neg horiginal,
        if_neg horiginal, if_pos huser, if_pos huser]
      refine criterion_and_iff ?_ (ih true)
      rw [Criterion.Holds]
      cases config.user <|> localUsername env with
      | none => simp
      | some user => simp [commaPatternListMatch_iff]
  | case7 keyword lower hall patternList tokens hhost horiginal huser hlocal ih =>
      rw [matchCriteria, criteria, if_neg hall, if_neg hall, if_neg hhost, if_neg hhost, if_neg horiginal,
        if_neg horiginal, if_neg huser, if_neg huser, if_pos hlocal, if_pos hlocal]
      refine criterion_and_iff ?_ (ih true)
      rw [Criterion.Holds]
      cases localUsername env with
      | none => simp
      | some user => simp [commaPatternListMatch_iff]
  | case8 keyword lower hall patternList tokens hhost horiginal huser hlocal =>
      rw [matchCriteria, criteria, if_neg hall, if_neg hall, if_neg hhost, if_neg hhost, if_neg horiginal,
        if_neg horiginal, if_neg huser, if_neg huser, if_neg hlocal, if_neg hlocal]
      simp [Criterion.Holds]

theorem matchConditionsApply_eq (env : Env) (destination : Text) (config : HostConfig) (line : Text) :
    matchConditionsApply env destination config line = decide (MatchSelected env destination config line) := by
  rw [Bool.eq_iff_iff, decide_eq_true_eq, matchConditionsApply, matchCriteria_iff, MatchSelected]
  simp

/-! ## 設定の列 -/

/-- 設定を 1 つ加えると、1 つだけの値は無かったときだけ変わる。 -/
theorem ofSettings_concat (settings : List Setting) (x : Setting) :
    HostConfig.ofSettings (settings ++ [x]) =
      { hostName := (HostConfig.ofSettings settings).hostName.or x.hostName?
        user := (HostConfig.ofSettings settings).user.or x.user?
        port := (HostConfig.ofSettings settings).port.or x.port?
        identityFile := (HostConfig.ofSettings settings).identityFile ++ x.identityFile?.toList
        certificateFile := (HostConfig.ofSettings settings).certificateFile ++ x.certificateFile?.toList
        proxyJump := (HostConfig.ofSettings settings).proxyJump.or x.proxyJump?
        forwardAgent := (HostConfig.ofSettings settings).forwardAgent.or x.forwardAgent?
        identityAgent := (HostConfig.ofSettings settings).identityAgent.or x.identityAgent? } := by
  have hlist {α : Type} (f : Setting → Option α) : [x].filterMap f = (f x).toList := by
    cases h : f x <;> simp [h]
  simp only [HostConfig.ofSettings, List.findSome?_append, List.filterMap_append, List.findSome?_singleton, hlist]

theorem applyKeyword_ofSettings (env : Env) (destination keyword value : Text) (settings : List Setting) :
    applyKeyword env destination (.ofSettings settings) keyword value =
      .ofSettings (settings ++ (settingOf env destination keyword value).toList) := by
  rw [applyKeyword, settingOf]
  generalize stripQuotes (trim value) = value
  cases Keyword.all.lookup keyword with
  | none => simp
  | some keyword =>
      cases keyword with
      | hostname =>
          rw [Option.toList_some, ofSettings_concat]
          obtain ⟨hostName, _⟩ := HostConfig.ofSettings settings
          cases hostName <;> simp
      | user =>
          rw [Option.toList_some, ofSettings_concat]
          obtain ⟨_, user, _⟩ := HostConfig.ofSettings settings
          cases user <;> simp
      | port =>
          cases hport : parseU16 value with
          | none =>
              rw [Option.map_none, Option.toList_none, List.append_nil]
              obtain ⟨_, _, port, _⟩ := HostConfig.ofSettings settings
              cases port <;> simp
          | some n =>
              rw [Option.map_some, Option.toList_some, ofSettings_concat]
              obtain ⟨_, _, port, _⟩ := HostConfig.ofSettings settings
              cases port <;> simp
      | identityfile | certificatefile =>
          rw [Option.toList_some, ofSettings_concat]
          simp
      | proxyjump =>
          cases hnone : isNone value with
          | true => simp
          | false =>
              simp only [Bool.false_eq_true, if_false, and_true, Option.toList_some, ofSettings_concat]
              obtain ⟨_, _, _, _, _, proxyJump, _⟩ := HostConfig.ofSettings settings
              cases proxyJump <;> simp
      | forwardagent =>
          rw [Option.toList_some, ofSettings_concat]
          obtain ⟨_, _, _, _, _, _, forwardAgent, _⟩ := HostConfig.ofSettings settings
          cases forwardAgent <;> simp
      | identityagent =>
          rw [Option.toList_some, ofSettings_concat]
          obtain ⟨_, _, _, _, _, _, _, identityAgent⟩ := HostConfig.ofSettings settings
          cases identityAgent <;> simp

/-! ## 字句の置き換え -/

theorem expandPercentTokens_eq (tokens : List (Char × Text)) (path : Text) :
    expandPercentTokens tokens path = expandOnce tokens path := by
  rw [expandOnce]
  induction path using segments.induct with
  | case1 => rfl
  | case2 cs ih => simp [expandPercentTokens, segments, Segment.expand, ih]
  | case3 t cs ht ih =>
      cases hlookup : tokens.lookup t <;> simp [expandPercentTokens, segments, Segment.expand, hlookup, ih]
  | case4 c cs _ hnot ih =>
      by_cases hc : c = '%'
      · subst hc
        cases cs with
        | nil => rfl
        | cons t cs => exact absurd rfl (hnot t cs rfl)
      · simp [expandPercentTokens, segments, Segment.expand, ih]

theorem expandOnce_of_notMem {tokens : List (Char × Text)} {path : Text} (h : '%' ∉ path) : expandOnce tokens path = path := by
  induction path with
  | nil => rfl
  | cons c cs ih =>
      obtain ⟨hc, hcs⟩ := List.ne_and_not_mem_of_not_mem_cons h
      have hexpand := ih hcs
      rw [expandOnce] at hexpand ⊢
      simp [segments, Segment.expand, hc.symm, hexpand]

theorem expandPathTokens_ofSettings (env : Env) (destination : Text) (settings : List Setting) :
    expandPathTokens env destination (.ofSettings settings) = finish env destination settings := by
  have hexpand (tokens : List (Char × Text)) :
      (fun path : Text => if '%' ∈ path then expandPercentTokens tokens path else path) = expandOnce tokens := by
    funext path
    split
    · exact expandPercentTokens_eq tokens path
    · exact (expandOnce_of_notMem ‹_›).symm
  simp only [expandPathTokens, finish, hexpand]

/-! ## 行の対応 -/

theorem settingItem_maps (fs : FileSystem) (env : Env) (destination : Text) (rootDir : Option Text) (line : Text) :
    (settingItem fs env destination rootDir line).Maps HostConfig.ofSettings (lineItem fs env destination rootDir line) := by
  rw [settingItem, lineItem]
  cases readLine line with
  | none => exact .text fun _ => rfl
  | some read =>
      obtain ⟨lower, rest⟩ := read
      dsimp only
      split
      · exact .splice _
      split
      · exact .select fun _ => hostPatternsMatch_eq rest destination
      split
      · exact .select fun settings => matchConditionsApply_eq env destination (.ofSettings settings) rest
      · exact .text fun settings => applyKeyword_ofSettings env destination lower rest settings

end

/-!
## 位置を進める反復と、残りの列を進める反復の対応
-/

theorem anyByte_ne_starByte : anyByte ≠ starByte := by decide

/-! ## 反復 -/

namespace Iterative

variable {pattern value : List UInt8} {c c' : Cursor}

/-- 型と値の残り。戻り先は、`*` の後の型と、`*` が読み飛ばした後の値である。 -/
def resume (pattern value : List UInt8) (c : Cursor) : Option (List UInt8 × List UInt8) :=
  c.star.map fun s => (pattern.drop (s.1 + 1), value.drop s.2)

/-- 残りの列の反復の歩数の上限。 -/
def steps (pattern value : List UInt8) (c : Cursor) : Nat :=
  wildSteps pattern.length (pattern.drop c.p) (value.drop c.v) (resume pattern value c)

theorem drop_eq_cons {xs : List UInt8} {i : Nat} {b : UInt8} (h : xs[i]? = some b) : xs.drop i = b :: xs.drop (i + 1) := by
  obtain ⟨hi, rfl⟩ := List.getElem?_eq_some_iff.mp h
  exact List.drop_eq_getElem_cons hi

theorem trailing_eq (hp : c.p ≤ pattern.length) : trailing pattern c.p = (pattern.drop c.p).all (· = starByte) := by
  have hlength : c.p + (pattern.drop c.p).length = pattern.length := by simp [hp]
  have hcount : (List.takeWhile (· = starByte) (pattern.drop c.p)).length = (pattern.drop c.p).length ↔
      (pattern.drop c.p).all (· = starByte) = true := by
    rw [List.all_eq_true, ← List.takeWhile_eq_self_iff]
    exact ⟨(List.takeWhile_prefix _).eq_of_length, congrArg List.length⟩
  rw [Bool.eq_iff_iff, ← hcount, trailing, decide_eq_true_iff]
  omega

/-- 1 回の反復は、残りの列の反復の 1 歩である。 -/
theorem wildLoop_succ (hp : c.p ≤ pattern.length) (n : Nat) :
    wildLoop starByte anyByte (n + 1) (pattern.drop c.p) (value.drop c.v) (resume pattern value c) =
      match iterate pattern value c with
      | .error result => result
      | .ok c' => wildLoop starByte anyByte n (pattern.drop c'.p) (value.drop c'.v) (resume pattern value c') := by
  have hback (b : UInt8) : (resume pattern value c).any (fun r => wildLoop starByte anyByte n r.1 r.2.tail
      (some (r.1, r.2.tail))) = match backtrack c with
      | .error result => result
      | .ok c' => wildLoop starByte anyByte n (pattern.drop c'.p) (value.drop c'.v) (resume pattern value c') := by
    cases hstar : c.star <;> simp [resume, backtrack, hstar]
  cases hv : value[c.v]? with
  | none =>
      have hend : value.drop c.v = [] := List.drop_eq_nil_iff.mpr (List.getElem?_eq_none_iff.mp hv)
      simp [iterate, hv, hend, wildLoop, trailing_eq hp]
  | some b =>
      rw [drop_eq_cons hv]
      cases hpc : pattern[c.p]? with
      | none =>
          have hend : pattern.drop c.p = [] := List.drop_eq_nil_iff.mpr (List.getElem?_eq_none_iff.mp hpc)
          simp only [iterate, hv, hpc, hend, wildLoop]
          exact hback b
      | some pc =>
          rw [drop_eq_cons hpc]
          by_cases hs : pc = starByte
          · simp [iterate, hv, hpc, hs, wildLoop, resume, ← drop_eq_cons hv]
          · by_cases ha : pc = anyByte
            · simp [iterate, hv, hpc, ha, wildLoop, resume, anyByte_ne_starByte]
            · by_cases hb : pc = b
              · simp [iterate, hv, hpc, hb, wildLoop, resume, hb ▸ hs]
              · simp only [iterate, hv, hpc, hs, ha, hb, wildLoop, if_false, decide_false, Bool.or_self]
                exact hback b

/-- 続ける反復は、`*` を読むか、値を 1 バイト読むか、最後の `*` に戻るかである。 -/
theorem iterate_cases (hstep : iterate pattern value c = .ok c') :
    c.v < value.length ∧
      (c.p < pattern.length ∧ c' = ⟨c.p + 1, c.v, some (c.p, c.v)⟩ ∨
        c.p < pattern.length ∧ c' = ⟨c.p + 1, c.v + 1, c.star⟩ ∨
        ∃ starP starV, c.star = some (starP, starV) ∧ c' = ⟨starP + 1, starV + 1, some (starP, starV + 1)⟩) := by
  have hback (h : backtrack c = .ok c') : ∃ starP starV, c.star = some (starP, starV) ∧
      c' = ⟨starP + 1, starV + 1, some (starP, starV + 1)⟩ := by
    cases hstar : c.star with
    | none => simp [backtrack, hstar] at h
    | some s => exact ⟨s.1, s.2, rfl, by simpa [backtrack, hstar] using h.symm⟩
  rw [iterate] at hstep
  cases hv : value[c.v]? with
  | none => simp [hv] at hstep
  | some b =>
      obtain ⟨hvalue, -⟩ := List.getElem?_eq_some_iff.mp hv
      refine ⟨hvalue, ?_⟩
      cases hpc : pattern[c.p]? with
      | none =>
          simp only [hv, hpc] at hstep
          exact .inr (.inr (hback hstep))
      | some pc =>
          obtain ⟨hp, -⟩ := List.getElem?_eq_some_iff.mp hpc
          simp only [hv, hpc] at hstep
          split_ifs at hstep with hs ha hb
          · exact .inl ⟨hp, (Except.ok.inj hstep).symm⟩
          · exact .inr (.inl ⟨hp, (Except.ok.inj hstep).symm⟩)
          · exact .inr (.inl ⟨hp, (Except.ok.inj hstep).symm⟩)
          · exact .inr (.inr (hback hstep))

/-- 位置は型の中にあり、最後の `*` は型の中の、値の今の位置より前で読まれた。 -/
structure Placed (pattern : List UInt8) (c : Cursor) : Prop where
  p_le : c.p ≤ pattern.length
  star : ∀ s ∈ c.star, s.1 < pattern.length ∧ s.2 ≤ c.v

theorem placed_start (pattern : List UInt8) : Placed pattern .start := ⟨Nat.zero_le _, by simp [Cursor.start]⟩

theorem Placed.next (h : Placed pattern c) (hstep : iterate pattern value c = .ok c') : Placed pattern c' := by
  obtain ⟨-, ⟨hp, rfl⟩ | ⟨hp, rfl⟩ | ⟨starP, starV, hstar, rfl⟩⟩ := iterate_cases hstep
  · exact ⟨hp, by simp [hp]⟩
  · exact ⟨hp, fun s hs => ⟨(h.star s hs).1, Nat.le_succ_of_le (h.star s hs).2⟩⟩
  · obtain ⟨hlt, -⟩ := h.star (starP, starV) hstar
    exact ⟨hlt, by simp [hlt]⟩

/-- どの反復も、残りの歩数の上限を減らす。 -/
theorem Placed.steps_lt (h : Placed pattern c) (hstep : iterate pattern value c = .ok c') :
    steps pattern value c' < steps pattern value c := by
  obtain ⟨hv, ⟨hp, rfl⟩ | ⟨hp, rfl⟩ | ⟨starP, starV, hstar, rfl⟩⟩ := iterate_cases hstep
  · cases hstar : c.star with
    | none =>
        simp only [steps, resume, hstar, Option.map_some, Option.map_none, wildSteps, List.length_drop, Nat.succ_mul]
        omega
    | some s =>
        have hle := Nat.mul_le_mul_right (pattern.length + 1) (Nat.sub_le_sub_left (h.star s hstar).2 value.length)
        simp only [steps, resume, hstar, Option.map_some, wildSteps, List.length_drop]
        omega
  · cases hstar : c.star with
    | none =>
        have hless := Nat.mul_le_mul_right (pattern.length + 1) (Nat.sub_le_sub_left (Nat.le_add_right c.v 1) value.length)
        simp only [steps, resume, hstar, Option.map_none, wildSteps, List.length_drop, Nat.succ_mul]
        omega
    | some s =>
        simp only [steps, resume, hstar, Option.map_some, wildSteps, List.length_drop]
        omega
  · have hle := (h.star (starP, starV) hstar).2
    have hone : value.length - starV = value.length - (starV + 1) + 1 := by simp only at hle; omega
    simp only [steps, resume, hstar, Option.map_some, wildSteps, List.length_drop, hone, Nat.succ_mul]
    omega

/-- 反復は、残りの歩数の上限までに終わり、残りの列の反復と同じ結果になる。 -/
theorem Placed.loop_eq (h : Placed pattern c) {n : Nat} (hn : steps pattern value c < n) :
    loop pattern value n c =
      some (wildLoop starByte anyByte n (pattern.drop c.p) (value.drop c.v) (resume pattern value c)) := by
  induction n generalizing c with
  | zero => exact absurd hn (Nat.not_lt_zero _)
  | succ n ih =>
      rw [loop, wildLoop_succ h.p_le]
      cases hstep : iterate pattern value c with
      | error result => rfl
      | ok c' => exact ih (h.next hstep) (Nat.lt_of_lt_of_le (h.steps_lt hstep) (Nat.le_of_lt_succ hn))

/-- 終わった反復の結果は、上限を増やしても変わらない。 -/
theorem loop_mono {n m : Nat} {result : Bool} (h : loop pattern value n c = some result) (hle : n ≤ m) :
    loop pattern value m c = some result := by
  induction n generalizing c m with
  | zero => simp [loop] at h
  | succ n ih =>
      obtain ⟨m, rfl⟩ := Nat.exists_eq_add_of_le' (Nat.le_trans (Nat.succ_le_succ (Nat.zero_le n)) hle)
      rw [loop] at h ⊢
      cases hstep : iterate pattern value c with
      | error r => simpa [hstep] using h
      | ok c' =>
          simp only [hstep] at h ⊢
          exact ih h (Nat.le_of_succ_le_succ hle)

/-- 型と値の長さの積で決まる回数の中で、`resolve` の使う `wildcard_match_bytes` の結果を返す。 -/
theorem wildcardMatchBytes_eq (pattern value : List UInt8) {fuel : Nat}
    (hfuel : (value.length + 1) * (pattern.length + 1) + pattern.length < fuel) :
    wildcardMatchBytes fuel pattern value = some (SshConfig.wildcardMatchBytes pattern value) := by
  have hstart : wildcardMatchBytes (steps pattern value .start + 1) pattern value =
      some (SshConfig.wildcardMatchBytes pattern value) := (placed_start pattern).loop_eq (Nat.lt_succ_self _)
  exact loop_mono hstart hfuel

end Iterative

/-! ## 再帰 -/

theorem Recursive.wildcardMatchBytes_eq_wildRec (pattern value : List UInt8) :
    Recursive.wildcardMatchBytes pattern value = wildRec starByte anyByte pattern value := by
  induction pattern, value using Recursive.wildcardMatchBytes.induct with
  | case1 => simp [wildcardMatchBytes, wildRec]
  | case2 b value => simp [wildcardMatchBytes, wildRec]
  | case3 rest ih => simp [wildcardMatchBytes, wildRec, anySuffix, ih]
  | case4 c rest hc => simp [wildcardMatchBytes, wildRec, hc]
  | case5 rest b value ih ih' =>
      -- 後半のどれかに合うことは、今の列に合うか、1 バイト読み飛ばした列のどれかに合うことである。
      rw [wildRec.eq_def] at ih'
      simp only [if_true] at ih'
      simp [wildcardMatchBytes, wildRec, anySuffix, ih, ih']
  | case6 rest b value hne ih => simp [wildcardMatchBytes, wildRec, hne, ih]
  | case7 rest b value hne hany ih => simp [wildcardMatchBytes, wildRec, hne, hany, ih]
  | case8 c rest b value hc hany hb => simp [wildcardMatchBytes, wildRec, hc, hany, hb]

theorem Recursive.wildcardMatchBytes_eq (pattern value : List UInt8) :
    Recursive.wildcardMatchBytes pattern value = SshConfig.wildcardMatchBytes pattern value := by
  rw [Recursive.wildcardMatchBytes_eq_wildRec, ← wildScan_eq_wildRec anyByte_ne_starByte]
  rfl

end IsekaiTerminal.SshConfig
