import IsekaiTerminal.Lib.Splice.Flatten
import IsekaiTerminal.SshConfig.Text

/-!
# `openssh_config::resolve`

`openssh-config/src/lib.rs` の `resolve` を置く。ファイルの取り込みは、一度読んだファイルを二度と読まない走査である。
-/

namespace IsekaiTerminal.SshConfig

open Lib Lib.Splice

inductive Error
  | read (path source : Text)
  | invalidIncludePattern (pattern source : Text)
  | includeGlob (pattern source : Text)
deriving DecidableEq

inductive ForwardAgent
  | yes
  | no
  | socket (value : Text)
deriving DecidableEq

structure HostConfig where
  hostName : Option Text
  user : Option Text
  port : Option UInt16
  identityFile : List Text
  certificateFile : List Text
  proxyJump : Option Text
  forwardAgent : Option ForwardAgent
  identityAgent : Option Text
deriving DecidableEq

def HostConfig.default : HostConfig :=
  { hostName := none, user := none, port := none, identityFile := [], certificateFile := [], proxyJump := none,
    forwardAgent := none, identityAgent := none }

/-! ## キーワード -/

/-- 一致する字句の前後を、`%` とその次の文字の対応で置き換える。対応に無いものは残す。 -/
def expandPercentTokens (tokens : List (Char × Text)) : Text → Text
  | [] => []
  | '%' :: cs =>
      match cs with
      | [] => ['%']
      | '%' :: cs => '%' :: expandPercentTokens tokens cs
      | t :: cs =>
          match tokens.lookup t with
          | some value => value ++ expandPercentTokens tokens cs
          | none => '%' :: t :: expandPercentTokens tokens cs
  | c :: cs => c :: expandPercentTokens tokens cs

def parseForwardAgent (value : Text) : ForwardAgent :=
  let lower := toAsciiLowercase value
  if lower = "yes".toList then .yes else if lower = "no".toList then .no else .socket value

/-- 値を持つキーワード。 -/
inductive Keyword
  | hostname
  | user
  | port
  | identityfile
  | certificatefile
  | proxyjump
  | forwardagent
  | identityagent
deriving DecidableEq

def Keyword.all : List (Text × Keyword) :=
  [("hostname".toList, .hostname), ("user".toList, .user), ("port".toList, .port),
    ("identityfile".toList, .identityfile), ("certificatefile".toList, .certificatefile),
    ("proxyjump".toList, .proxyjump), ("forwardagent".toList, .forwardagent), ("identityagent".toList, .identityagent)]

def isNone (value : Text) : Bool := toAsciiLowercase value = "none".toList

def applyKeyword (env : Env) (destination : Text) (config : HostConfig) (keyword value : Text) : HostConfig :=
  let value := stripQuotes (trim value)
  match Keyword.all.lookup keyword with
  | some .hostname =>
      if config.hostName = none then { config with hostName := some (expandPercentTokens [('h', destination)] value) }
      else config
  | some .user => if config.user = none then { config with user := some value } else config
  | some .port => if config.port = none then { config with port := parseU16 value } else config
  | some .identityfile => { config with identityFile := config.identityFile ++ [expandTilde env value] }
  | some .certificatefile => { config with certificateFile := config.certificateFile ++ [expandTilde env value] }
  | some .proxyjump =>
      if config.proxyJump = none ∧ isNone value = false then { config with proxyJump := some value } else config
  | some .forwardagent =>
      if config.forwardAgent = none then { config with forwardAgent := some (parseForwardAgent value) } else config
  | some .identityagent =>
      if config.identityAgent = none then { config with identityAgent := some (expandTilde env value) } else config
  | none => config

/-! ## `Host` と `Match` -/

/-- 型の並びに合うか。`!` の型に合えば、すぐに合わない。 -/
def patternsMatch (value : Text) : List Text → Bool → Bool
  | [], matched => matched
  | pattern :: patterns, matched =>
      match stripPrefix ['!'] pattern with
      | some negative => if wildcardMatch negative value then false else patternsMatch value patterns matched
      | none => patternsMatch value patterns (wildcardMatch pattern value || matched)

def commaPatternListMatch (patternList value : Text) : Bool := patternsMatch value (patternList.splitOn ',') false

def commaHostPatternListMatch (patternList host : Text) : Bool :=
  commaPatternListMatch (toAsciiLowercase patternList) (toAsciiLowercase host)

def hostPatternsMatch (patterns destination : Text) : Bool :=
  patternsMatch (toAsciiLowercase destination) ((splitWhitespace patterns).map toAsciiLowercase) false

/-- 残りの語の条件を順に調べる。`anyCriterion` は、成り立った条件が在ったかである。 -/
def matchCriteria (env : Env) (destination : Text) (config : HostConfig) : List Text → Bool → Bool
  | [], anyCriterion => anyCriterion
  | keyword :: tokens, _ =>
      let lower := toAsciiLowercase keyword
      if lower = "all".toList then matchCriteria env destination config tokens true
      else if lower = "host".toList then
        match tokens with
        | [] => false
        | patternList :: tokens =>
            commaHostPatternListMatch patternList (config.hostName.getD destination) &&
              matchCriteria env destination config tokens true
      else if lower = "originalhost".toList then
        match tokens with
        | [] => false
        | patternList :: tokens =>
            commaHostPatternListMatch patternList destination && matchCriteria env destination config tokens true
      else if lower = "user".toList then
        match tokens with
        | [] => false
        | patternList :: tokens =>
            (match config.user <|> localUsername env with
              | some user => commaPatternListMatch patternList user
              | none => false) && matchCriteria env destination config tokens true
      else if lower = "localuser".toList then
        match tokens with
        | [] => false
        | patternList :: tokens =>
            (localUsername env).any (commaPatternListMatch patternList) && matchCriteria env destination config tokens true
      -- `exec` と `canonical` と `final` は成り立たず、ほかは読めない。
      else false

def matchConditionsApply (env : Env) (destination : Text) (config : HostConfig) (criteria : Text) : Bool :=
  matchCriteria env destination config (splitWhitespace criteria) false

/-! ## 取り込み -/

/-- `glob` の結果を集める。 -/
def collectGlob (pattern : Text) (entries : List (Except Text Text)) : Except Error (List Text) :=
  entries.mapM fun entry => entry.mapError (.includeGlob pattern)

def expandIncludePattern (fs : FileSystem) (env : Env) (baseDir : Option Text) (pattern : Text) :
    Except Error (List Text) :=
  let pattern := expandPath env pattern baseDir
  if isGlob pattern then
    match fs.glob pattern with
    | .error source => .error (.invalidIncludePattern pattern source)
    | .ok entries => (collectGlob pattern entries).map sortPaths
  else .ok (if fs.pathExists pattern then [pattern] else [])

/-! ## 走査 -/

/-- 空行と注釈でない行の、小文字にしたキーワードと値。 -/
def readLine (rawLine : Text) : Option (Text × Text) :=
  let line := trim rawLine
  if line = [] ∨ line.head? = some '#' then none
  else
    let (keyword, rest) := splitKeyword line
    some (toAsciiLowercase keyword, stripInlineComment rest)

/-- 1 行の種類。取り込みとほかのキーワードは、効くところでだけ効く。 -/
def lineItem (fs : FileSystem) (env : Env) (destination : Text) (rootDir : Option Text) (rawLine : Text) :
    Item Text Error HostConfig :=
  match readLine rawLine with
  | none => .text id
  | some (lower, rest) =>
      if lower = "include".toList then .splice ((splitWords rest).map (expandIncludePattern fs env rootDir))
      else if lower = "host".toList then .select fun _ => hostPatternsMatch rest destination
      else if lower = "match".toList then .select fun config => matchConditionsApply env destination config rest
      else .text fun config => applyKeyword env destination config lower rest

/-- ファイルの行と正規のパス。 -/
def FileSystem.source (fs : FileSystem) : Source Text Text Error Text where
  key := fs.canonical
  read path := ((fs.readToString path).mapError (.read path)).map textLines
  keys := fs.files
  mem_keys path lines h := by
    cases hread : fs.readToString path with
    | error e => simp [hread, Except.mapError, Except.map] at h
    | ok content => exact fs.mem_files path content hread

/-- `limit` は、取り込みの入れ子の深さの上限である。 -/
def resolveFromFile (fs : FileSystem) (env : Env) (destination : Text) (rootDir : Option Text) (limit : Nat)
    (path : Text) (t : List Text × HostConfig) : Except (Fault Error) (List Text × HostConfig) :=
  fs.source.walkOnce (fun _ active config line => (lineItem fs env destination rootDir line).effect active config) true
    limit path t

/-- パスの値の `%` の対応。 -/
def pathTokens (env : Env) (destination : Text) (config : HostConfig) : List (Char × Text) :=
  let localUser := (localUsername env).getD []
  [('d', (homeDir env).getD []), ('h', config.hostName.getD destination), ('n', destination),
    ('p', u16ToString (config.port.getD 22)), ('r', config.user.getD localUser), ('u', localUser)]

def expandPathTokens (env : Env) (destination : Text) (config : HostConfig) : HostConfig :=
  let expand := fun path : Text =>
    if '%' ∈ path then expandPercentTokens (pathTokens env destination config) path else path
  { config with
    identityFile := config.identityFile.map expand
    certificateFile := config.certificateFile.map expand
    identityAgent := config.identityAgent.map expand }

def resolve (fs : FileSystem) (env : Env) (path destination : Text) : Except (Fault Error) HostConfig :=
  match resolveFromFile fs env destination (parent path) (fs.files.length + 1) path ([], .default) with
  | .error e => .error e
  | .ok (_, config) => .ok (expandPathTokens env destination config)

/-!
## `#@isekai` の行

`isekai-ssh/src/wrapper/directive.rs` の `load_isekai_directives` を置く。字句の扱いは `openssh-config` とは別に書かれている。
失敗は、起きた場所だけを区別する。
-/

structure IsekaiDirective where
  name : Text
  args : List Text
deriving DecidableEq

namespace Directive

inductive Error
  | read (path source : Text)
  | unsupportedMatch
  | emptyDirective
  | invalidIncludePattern (pattern source : Text)
  | includeGlob (source : Text)
deriving DecidableEq

/-! ## 字句 -/

def splitKeyword (line : Text) : Text × Text :=
  (line.takeWhile fun c => !isWhitespace c, trim (line.dropWhile fun c => !isWhitespace c))

def splitWords (input : Text) : List Text := splitWhitespace input

def parseIsekaiDirective (rest : Text) : Except Error IsekaiDirective :=
  match splitWords rest with
  | [] => .error .emptyDirective
  | name :: args => .ok { name, args }

def wildcardMatch (pattern value : Text) : Bool := wildRec 42 63 (asBytes pattern) (asBytes value)

/-- 大文字と小文字を区別する。 -/
def patternsMatch (value : Text) : List Text → Bool → Bool
  | [], matched => matched
  | pattern :: patterns, matched =>
      match stripPrefix ['!'] pattern with
      | some negative => if wildcardMatch negative value then false else patternsMatch value patterns matched
      | none => patternsMatch value patterns (wildcardMatch pattern value || matched)

def hostPatternsMatch (patterns destination : Text) : Bool := patternsMatch destination (splitWhitespace patterns) false

/-- 型でない取り込み先は、在るかを調べない。 -/
def expandIncludePattern (fs : FileSystem) (env : Env) (baseDir : Option Text) (pattern : Text) :
    Except Error (List Text) :=
  let pattern := expandPath env pattern baseDir
  if isGlob pattern then
    match fs.glob pattern with
    | .error source => .error (.invalidIncludePattern pattern source)
    | .ok entries => (entries.mapM fun entry : Except Text Text => entry.mapError .includeGlob).map sortPaths
  else .ok [pattern]

/-! ## 走査 -/

structure Scope where
  active : Bool
  inMatch : Bool

/-- 1 行の効果。取り込みは、効かないところでも読む。 -/
def lineEffect (fs : FileSystem) (env : Env) (destination : Text) (path : Text) (scope : Scope)
    (directives : List IsekaiDirective) (rawLine : Text) : Effect Text Error Scope (List IsekaiDirective) :=
  let line := trim rawLine
  if line = [] then .skip
  else
    match stripPrefix "#@isekai".toList line with
    | some rest =>
        if scope.inMatch then .fail .unsupportedMatch
        else if scope.active then
          match parseIsekaiDirective (trim rest) with
          | .ok directive => .update (directives ++ [directive])
          | .error e => .fail e
        else .skip
    | none =>
        if line.head? = some '#' then .skip
        else
          let (keyword, rest) := splitKeyword line
          let lower := toAsciiLowercase keyword
          if lower = "include".toList then .visit ((splitWords rest).map (expandIncludePattern fs env (parent path)))
          else if lower = "host".toList then .select { active := hostPatternsMatch rest destination, inMatch := false }
          else if lower = "match".toList then .select { active := false, inMatch := true }
          else .skip

end Directive

open Directive

def FileSystem.directiveSource (fs : FileSystem) : Source Text Text Directive.Error Text where
  key := fs.canonical
  read path := ((fs.readToString path).mapError (.read path)).map textLines
  keys := fs.files
  mem_keys path lines h := by
    cases hread : fs.readToString path with
    | error e => simp [hread, Except.mapError, Except.map] at h
    | ok content => exact fs.mem_files path content hread

def loadIsekaiDirectivesFromFile (fs : FileSystem) (env : Env) (destination : Text) (path : Text)
    (t : List Text × List IsekaiDirective) : Except (Fault Directive.Error) (List Text × List IsekaiDirective) :=
  fs.directiveSource.walkOnce (lineEffect fs env destination) { active := true, inMatch := false } (fs.files.length + 1)
    path t

/-- 在る起点だけを、読んだファイルを忘れずに順に読む。 -/
def loadIsekaiDirectives (fs : FileSystem) (env : Env) (roots : List Text) (destination : Text) :
    Except (Fault Directive.Error) (List IsekaiDirective) := do
  let t ← roots.foldlM (fun t root =>
    if fs.pathExists root then loadIsekaiDirectivesFromFile fs env destination root t else .ok t) ([], [])
  return t.2

/-! ## 解決の走査が通る点 -/

/-- `resolve_from_file` の 1 行の効果に、その行が `#@isekai` で、ふつうのキーワードの行なら効くときの記録を加える。 -/
def observedEffect (fs : FileSystem) (env : Env) (destination : Text) (rootDir : Option Text) (active : Bool)
    (s : List Text × HostConfig) (rawLine : Text) :
    Effect Text SshConfig.Error Bool (List Text × HostConfig) :=
  match stripPrefix "#@isekai".toList (trim rawLine) with
  | some rest => if active then .update (s.1 ++ [rest], s.2) else .skip
  | none => ((lineItem fs env destination rootDir rawLine).effect active s.2).map fun config => (s.1, config)

/-- `resolve` の走査の記録。 -/
def observe (fs : FileSystem) (env : Env) (path destination : Text) :
    Except (Fault SshConfig.Error) (List Text × List Text × HostConfig) :=
  fs.source.walkOnce (fun _ => observedEffect fs env destination (parent path)) true (fs.files.length + 1) path
    ([], [], .default)

/-- 記録した行から読んだ `#@isekai` の指示が、集めた指示である。 -/
def Collected (s : List Text × HostConfig) (directives : List IsekaiDirective) : Prop :=
  s.1.map (fun rest => Directive.parseIsekaiDirective (trim rest)) = directives.map Except.ok

/-! ## 2 つの走査が同じに読む行 -/

/-- 行の読み方。取り込み先の `none` は、展開の失敗である。 -/
inductive Reading
  | other
  | host (active : Bool)
  | matches
  | includes (targets : List (Option (List Text)))
deriving DecidableEq

/-- 語の無い取り込みは、何もしない。 -/
def Reading.ofTargets : List (Option (List Text)) → Reading
  | [] => .other
  | target :: targets => .includes (target :: targets)

/-- `resolve_from_file` の読み方。取り込みは、効くところでだけ読む。 -/
def reading (fs : FileSystem) (env : Env) (destination : Text) (rootDir : Option Text) (active : Bool) (rawLine : Text) :
    Reading :=
  match readLine rawLine with
  | none => .other
  | some (lower, rest) =>
      if lower = "include".toList then
        if active then .ofTargets ((splitWords rest).map fun pattern => (expandIncludePattern fs env rootDir pattern).toOption)
        else .other
      else if lower = "host".toList then .host (hostPatternsMatch rest destination)
      else if lower = "match".toList then .matches
      else .other

/-- `load_isekai_directives_from_file` の読み方。 -/
def Directive.reading (fs : FileSystem) (env : Env) (destination : Text) (path : Text) (rawLine : Text) : Reading :=
  let line := trim rawLine
  if line = [] ∨ line.head? = some '#' then .other
  else
    let (keyword, rest) := Directive.splitKeyword line
    let lower := toAsciiLowercase keyword
    if lower = "include".toList then
      .ofTargets ((Directive.splitWords rest).map fun pattern =>
        (Directive.expandIncludePattern fs env (parent path) pattern).toOption)
    else if lower = "host".toList then .host (Directive.hostPatternsMatch rest destination)
    else if lower = "match".toList then .matches
    else .other

/-- `#@isekai` の行の残り。 -/
def directiveRest (rawLine : Text) : Option Text := stripPrefix "#@isekai".toList (trim rawLine)

def Reading.targets : Reading → List (Option (List Text))
  | .includes targets => targets
  | .other | .host _ | .matches => []

/-- `Match` でない同じ種類の行で、`Host` の合い方も同じである。 -/
def Reading.sameKind : Reading → Reading → Bool
  | .other, .other => true
  | .host active₁, .host active₂ => active₁ = active₂
  | .includes _, .includes _ => true
  | _, _ => false

/-- 効く `#@isekai` の行には語が在り、ほかの行は同じ種類に読まれる。 -/
def lineAlike (fs : FileSystem) (env : Env) (destination : Text) (rootDir : Option Text) (path : Text) (active : Bool)
    (rawLine : Text) : Bool :=
  match directiveRest rawLine with
  | some rest => !active || decide (Directive.splitWords (trim rest) ≠ [])
  | none =>
      (reading fs env destination rootDir active rawLine).sameKind (Directive.reading fs env destination path rawLine)

/-- 2 つのパスが同じファイルを指す。 -/
def FileSystem.same (fs : FileSystem) (path peer : Text) : Bool :=
  decide (fs.canonical path = fs.canonical peer) &&
    decide ((fs.readToString path).toOption = (fs.readToString peer).toOption)

/-- `resolve_from_file` が読む行は同じ種類に読まれ、着くファイルも同じである。失敗の後は問わない。 -/
def Alike (fs : FileSystem) (env : Env) (destination root : Text) : Prop :=
  fs.source.followed (fun _ => observedEffect fs env destination (parent root)) true fs.same
    (fun _ => lineAlike fs env destination (parent root))
    (fun peer line => (Directive.reading fs env destination peer line).targets) (fs.files.length + 1) root root
    ([], [], .default) = true

instance (fs : FileSystem) (env : Env) (destination root : Text) : Decidable (Alike fs env destination root) :=
  inferInstanceAs (Decidable (_ = true))

end IsekaiTerminal.SshConfig
