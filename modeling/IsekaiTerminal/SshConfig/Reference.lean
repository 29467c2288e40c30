import IsekaiTerminal.SshConfig.Resolve

/-!
# 設定の解決の基準

取り込みの行をすべて置き換えた列を、左から順に畳み込む。畳み込みは、効いた設定を書かれた順に集めるだけで、
値の選び方と、行が効く条件は、集めた設定から述べる。
-/

namespace IsekaiTerminal.SshConfig

open Lib Lib.Splice

/-! ## 設定の列 -/

/-- 有効な値を持つ 1 つの設定。 -/
inductive Setting
  | hostName (value : Text)
  | user (value : Text)
  | port (value : UInt16)
  | identityFile (value : Text)
  | certificateFile (value : Text)
  | proxyJump (value : Text)
  | forwardAgent (value : ForwardAgent)
  | identityAgent (value : Text)

/-- キーワードの行が与える設定。有効な値でなければ無い。 -/
def settingOf (env : Env) (destination keyword value : Text) : Option Setting :=
  let value := stripQuotes (trim value)
  match Keyword.all.lookup keyword with
  | some .hostname => some (.hostName (expandPercentTokens [('h', destination)] value))
  | some .user => some (.user value)
  | some .port => (parseU16 value).map .port
  | some .identityfile => some (.identityFile (expandTilde env value))
  | some .certificatefile => some (.certificateFile (expandTilde env value))
  | some .proxyjump => if isNone value then none else some (.proxyJump value)
  | some .forwardagent => some (.forwardAgent (parseForwardAgent value))
  | some .identityagent => some (.identityAgent (expandTilde env value))
  | none => none

namespace Setting

@[simp] def hostName? : Setting → Option Text
  | .hostName value => some value
  | _ => none

@[simp] def user? : Setting → Option Text
  | .user value => some value
  | _ => none

@[simp] def port? : Setting → Option UInt16
  | .port value => some value
  | _ => none

@[simp] def identityFile? : Setting → Option Text
  | .identityFile value => some value
  | _ => none

@[simp] def certificateFile? : Setting → Option Text
  | .certificateFile value => some value
  | _ => none

@[simp] def proxyJump? : Setting → Option Text
  | .proxyJump value => some value
  | _ => none

@[simp] def forwardAgent? : Setting → Option ForwardAgent
  | .forwardAgent value => some value
  | _ => none

@[simp] def identityAgent? : Setting → Option Text
  | .identityAgent value => some value
  | _ => none

end Setting

/-- 1 つだけの値は最初のものを、鍵と証明書は順にすべて取る。 -/
def HostConfig.ofSettings (settings : List Setting) : HostConfig :=
  { hostName := settings.findSome? Setting.hostName?
    user := settings.findSome? Setting.user?
    port := settings.findSome? Setting.port?
    identityFile := settings.filterMap Setting.identityFile?
    certificateFile := settings.filterMap Setting.certificateFile?
    proxyJump := settings.findSome? Setting.proxyJump?
    forwardAgent := settings.findSome? Setting.forwardAgent?
    identityAgent := settings.findSome? Setting.identityAgent? }

/-! ## 行が効く条件 -/

/-- 型が値に合う。 -/
def Covers (pattern value : Text) : Prop := Wild 42 63 (asBytes pattern) (asBytes value)

instance (pattern value : Text) : Decidable (Covers pattern value) := decidable_of_iff _ (wildRec_iff (by decide))

/-- どれかの型が合い、`!` の付いたどの型も合わない。 -/
def Selected (patterns : List Text) (value : Text) : Prop :=
  (∃ pattern ∈ patterns, stripPrefix ['!'] pattern = none ∧ Covers pattern value) ∧
    ∀ pattern ∈ patterns, ∀ negative ∈ stripPrefix ['!'] pattern, ¬ Covers negative value

instance (patterns : List Text) (value : Text) : Decidable (Selected patterns value) := inferInstanceAs (Decidable (_ ∧ _))

def HostSelected (patterns destination : Text) : Prop :=
  Selected ((splitWhitespace patterns).map toAsciiLowercase) (toAsciiLowercase destination)

instance (patterns destination : Text) : Decidable (HostSelected patterns destination) :=
  inferInstanceAs (Decidable (Selected _ _))

/-- `Match` の 1 つの条件。`never` は成り立たない条件である。 -/
inductive Criterion
  | all
  | host (patternList : Text)
  | originalHost (patternList : Text)
  | user (patternList : Text)
  | localUser (patternList : Text)
  | never
deriving DecidableEq

/-- 語の並びの条件。`exec` は残りの語を引数とし、読めない語は成り立たない条件とする。 -/
def criteria : List Text → List Criterion
  | [] => []
  | keyword :: tokens =>
      let lower := toAsciiLowercase keyword
      if lower = "all".toList then .all :: criteria tokens
      else
        match tokens with
        | [] => [.never]
        | patternList :: tokens =>
            if lower = "host".toList then .host patternList :: criteria tokens
            else if lower = "originalhost".toList then .originalHost patternList :: criteria tokens
            else if lower = "user".toList then .user patternList :: criteria tokens
            else if lower = "localuser".toList then .localUser patternList :: criteria tokens
            else [.never]

def ListSelected (patternList value : Text) : Prop := Selected (patternList.splitOn ',') value

instance (patternList value : Text) : Decidable (ListSelected patternList value) := inferInstanceAs (Decidable (Selected _ _))

/-- これまでの設定 `config` のもとで、条件が成り立つ。 -/
def Criterion.Holds (env : Env) (destination : Text) (config : HostConfig) : Criterion → Prop
  | .all => True
  | .host patternList =>
      ListSelected (toAsciiLowercase patternList) (toAsciiLowercase (config.hostName.getD destination))
  | .originalHost patternList => ListSelected (toAsciiLowercase patternList) (toAsciiLowercase destination)
  | .user patternList => ∃ user ∈ config.user <|> localUsername env, ListSelected patternList user
  | .localUser patternList => ∃ user ∈ localUsername env, ListSelected patternList user
  | .never => False

instance (env : Env) (destination : Text) (config : HostConfig) (criterion : Criterion) :
    Decidable (criterion.Holds env destination config) :=
  match criterion with
  | .all => inferInstanceAs (Decidable True)
  | .host _ | .originalHost _ => inferInstanceAs (Decidable (ListSelected _ _))
  | .user _ | .localUser _ => inferInstanceAs (Decidable (∃ user ∈ _, ListSelected _ user))
  | .never => inferInstanceAs (Decidable False)

def MatchSelected (env : Env) (destination : Text) (config : HostConfig) (line : Text) : Prop :=
  criteria (splitWhitespace line) ≠ [] ∧
    ∀ criterion ∈ criteria (splitWhitespace line), criterion.Holds env destination config

instance (env : Env) (destination : Text) (config : HostConfig) (line : Text) :
    Decidable (MatchSelected env destination config line) := inferInstanceAs (Decidable (_ ∧ _))

/-! ## 字句の置き換え -/

inductive Segment
  | char (c : Char)
  | token (t : Char)

/-- 値を置き換える前に、`%` の字句に分ける。 -/
def segments : Text → List Segment
  | [] => []
  | '%' :: '%' :: cs => .char '%' :: segments cs
  | '%' :: t :: cs => .token t :: segments cs
  | c :: cs => .char c :: segments cs

def Segment.expand (tokens : List (Char × Text)) : Segment → Text
  | .char c => [c]
  | .token t => (tokens.lookup t).getD ['%', t]

/-- 字句だけを 1 度置き換える。置き換えた値の中の `%` は見ない。 -/
def expandOnce (tokens : List (Char × Text)) (path : Text) : Text := (segments path).flatMap (Segment.expand tokens)

/-- 最後の設定で、パスの字句を置き換える。 -/
def finish (env : Env) (destination : Text) (settings : List Setting) : HostConfig :=
  let config := HostConfig.ofSettings settings
  let tokens := pathTokens env destination config
  { config with
    identityFile := config.identityFile.map (expandOnce tokens)
    certificateFile := config.certificateFile.map (expandOnce tokens)
    identityAgent := config.identityAgent.map (expandOnce tokens) }

/-! ## 置き換えと畳み込み -/

def settingItem (fs : FileSystem) (env : Env) (destination : Text) (rootDir : Option Text) (rawLine : Text) :
    Item Text Error (List Setting) :=
  match readLine rawLine with
  | none => .text id
  | some (lower, rest) =>
      if lower = "include".toList then .splice ((splitWords rest).map (expandIncludePattern fs env rootDir))
      else if lower = "host".toList then .select fun _ => HostSelected rest destination
      else if lower = "match".toList then
        .select fun settings => MatchSelected env destination (.ofSettings settings) rest
      else .text fun settings => settings ++ (settingOf env destination lower rest).toList

/-- 取り込みの行を、読んでいる途中でないファイルの行で置き換えた列の、畳み込み。 -/
def folded (fs : FileSystem) (env : Env) (path destination : Text) : Folding Text Error (List Setting) :=
  let item := settingItem fs env destination (parent path)
  (Folding.start []).run item (fs.source.flatten item (fs.files.length + 1) [] path)

def reference (fs : FileSystem) (env : Env) (path destination : Text) : Except (Fault Error) HostConfig :=
  (folded fs env path destination).state.map (finish env destination)

end IsekaiTerminal.SshConfig
