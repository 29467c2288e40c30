import IsekaiTerminal.Lib.Getopt
import IsekaiTerminal.Wrapper.Options

/-!
# `ssh(1)` の読み方

`ssh(1)` のオプションの列としての getopt の読み方から、宛先と上書きを定める。`--isekai-*` のオプションは、オプションの位置に
あるものだけを、値とともに取り除く。
-/

namespace IsekaiTerminal.Wrapper

open Lib
open SshConfig (Text Env ForwardAgent parseU16 expandTilde parseForwardAgent)

def isValueLetter (c : Char) : Bool := c ∈ valueLetters

/-! ## 取り除く引数 -/

/-- 取り除いたオプションとその値の列と、残った引数の列。 -/
def splitWrapper : List Text → List (IsekaiOption × Option Text) × List Text
  | [] => ([], [])
  | arg :: rest =>
      if isOptionArg arg then
        match IsekaiOption.ofArg? arg with
        | some option =>
            if option.takesValue then
              match rest with
              | [] => ([(option, none)], [])
              | value :: rest => ((option, some value) :: (splitWrapper rest).1, (splitWrapper rest).2)
            else ((option, none) :: (splitWrapper rest).1, (splitWrapper rest).2)
        | none =>
            match (bundle isValueLetter arg.tail).2 with
            | some (_, []) =>
                match rest with
                | [] => ([], [arg])
                | value :: rest => ((splitWrapper rest).1, arg :: value :: (splitWrapper rest).2)
            | _ => ((splitWrapper rest).1, arg :: (splitWrapper rest).2)
      else ([], arg :: rest)

def applyIsekai (settings : Settings) : IsekaiOption × Option Text → Except WrapperError Settings
  | (option, some value) => settings.apply value option
  | (option, none) => if option.takesValue then .error (.requiresValue option) else settings.apply [] option

/-! ## `-t` と `-T` -/

/-- 1 文字ずつの読み方。 -/
def ttyLetterStep (tty : RequestTty) (c : Char) : RequestTty :=
  if c = 't' then if tty = .yes then .force else .yes
  else if c = 'T' then .no
  else tty

def requestOf (options : List (Char × Option Arg)) : RequestTty :=
  options.foldl (fun tty option => ttyLetterStep tty option.1) .auto

/-! ## 読んだ結果 -/

def parsedArgs (sshArgs : List Text) : Parsed := getopt isValueLetter sshArgs

def referencePlan (defaultPipePath : Text) (args : List Text) : Except WrapperError WrapperPlan :=
  match (splitWrapper args).1.foldlM applyIsekai (.start defaultPipePath) with
  | .error e => .error e
  | .ok settings =>
      if settings.isekai.bootstrap && settings.isekai.noBootstrap then .error .bootstrapConflict
      else
        let sshArgs := (splitWrapper args).2
        match (parsedArgs sshArgs).operands with
        | [] => .error .destinationRequired
        | destination :: operands =>
            .ok
              { opensshPath := settings.opensshPath, pipePath := settings.pipePath, destination := destination,
                destinationHost := (splitUserHost destination).2, destinationUser := (splitUserHost destination).1,
                destinationIndex := sshArgs.length - (operands.length + 1), sshArgs := sshArgs,
                isekai := settings.isekai, requestTty := requestOf (parsedArgs sshArgs).options }

/-! ## 上書き -/

/-- オプションとその値が定める 1 つの設定。`port` は、`-o` によるものかどうかを持つ。 -/
inductive Setting
  | hostName (value : Text)
  | user (value : Text)
  | port (dashO : Bool) (value : Text)
  | proxyJump (value : Text)
  | identityFile (value : Text)
  | identityAgent (value : Text)
  | forwardAgent (value : ForwardAgent)
deriving DecidableEq

def dashOSetting (env : Env) (token : Text) : Option Setting :=
  match splitDashO token with
  | none => none
  | some (key, val) =>
      if key = "hostname".toList then some (.hostName val)
      else if key = "user".toList then some (.user val)
      else if key = "port".toList then some (.port true val)
      else if key = "proxyjump".toList then some (.proxyJump val)
      else if key = "identityfile".toList then some (.identityFile (expandTilde env val))
      else if key = "identityagent".toList then some (.identityAgent (expandTilde env val))
      else if key = "forwardagent".toList then some (.forwardAgent (parseForwardAgent val))
      else none

def settingOf (env : Env) : Char × Option Arg → Option Setting
  | (_, none) => none
  | (c, some v) =>
      if c = 'p' then some (.port false v)
      else if c = 'l' then some (.user v)
      else if c = 'J' then some (.proxyJump v)
      else if c = 'i' then some (.identityFile (expandTilde env v))
      else if c = 'o' then dashOSetting env v
      else none

namespace Setting

@[simp] def hostName? : Setting → Option Text
  | hostName value => some value
  | _ => none

@[simp] def user? : Setting → Option Text
  | user value => some value
  | _ => none

@[simp] def port? : Setting → Option (Bool × Text)
  | port dashO value => some (dashO, value)
  | _ => none

@[simp] def proxyJump? : Setting → Option Text
  | proxyJump value => some value
  | _ => none

@[simp] def identityFile? : Setting → Option Text
  | identityFile value => some value
  | _ => none

@[simp] def identityAgent? : Setting → Option Text
  | identityAgent value => some value
  | _ => none

@[simp] def forwardAgent? : Setting → Option ForwardAgent
  | forwardAgent value => some value
  | _ => none

end Setting

def parsePort (port : Bool × Text) : Except OverrideError UInt16 :=
  match parseU16 port.2 with
  | some n => .ok n
  | none => .error (if port.1 then .invalidDashOPort port.2 else .invalidDashPPort port.2)

/-- 値は最初のものを、鍵のファイルは全てを、順に取る。 -/
def CliOverrides.ofSettings (settings : List Setting) : Except OverrideError CliOverrides :=
  ((settings.findSome? Setting.port?).mapM parsePort).map fun port =>
    { hostName := settings.findSome? Setting.hostName?, user := settings.findSome? Setting.user?, port := port,
      proxyJump := settings.findSome? Setting.proxyJump?, identityFile := settings.filterMap Setting.identityFile?,
      forwardAgent := settings.findSome? Setting.forwardAgent?,
      identityAgent := settings.findSome? Setting.identityAgent? }

def settingsOf (env : Env) (sshArgs : List Text) : List Setting :=
  (parsedArgs sshArgs).options.filterMap (settingOf env)

def configPathOf (sshArgs : List Text) : Option Text :=
  ((parsedArgs sshArgs).options.find? fun option => option.1 = 'F').bind Prod.snd

/-- ラッパーの読み方が、`ssh(1)` の読み方と一致する。 -/
structure ReadsLikeSsh (env : Env) (defaultPipePath : Text) (args : List Text) : Prop where
  plan : parseWrapper defaultPipePath args = referencePlan defaultPipePath args
  overrides : ∀ plan, referencePlan defaultPipePath args = .ok plan →
    collectCliOverrides env plan.sshArgs = CliOverrides.ofSettings (settingsOf env plan.sshArgs)
  configPath : ∀ plan, referencePlan defaultPipePath args = .ok plan →
    dashFConfigPath plan.sshArgs = configPathOf plan.sshArgs

/-! ## 一致する引数 -/

/-- 宛先の前の、値を次の引数とするオプションが、`-X` の形である。受け付けない `--isekai-*` の後は読まない。 -/
def spaced : List Text → Bool
  | [] => true
  | arg :: rest =>
      if arg = ['-', '-'] then rest.head?.all fun v => (IsekaiOption.ofArg? v).isNone
      else if isOptionArg arg then
        match IsekaiOption.ofArg? arg with
        | some option =>
            if option.takesValue then
              match rest with
              | [] => true
              | _ :: rest => spaced rest
            else if option = .ttyNamed [] then true
            else spaced rest
        | none =>
            match bundle isValueLetter arg.tail with
            | (flags, some (_, [])) =>
                match rest with
                | [] => true
                | value :: rest => flags.isEmpty && (IsekaiOption.ofArg? value).isNone && spaced rest
            | _ => spaced rest
      else true

/-- 引数の全体が `-T` か、`-t`、`-tt` などである。 -/
def isTtyArg (arg : Text) : Bool := arg = "-T".toList || ("-t".toList.isPrefixOf arg && arg.tail.all (· = 't'))

def isTtyLetter (c : Char) : Bool := c = 't' || c = 'T'

/-- 旗の列に `t` と `T` が無いか、その全体が `-t` か `-T` であるか、`t` を 1 文字ずつ読んで `Force` になる。 -/
def ttyPlain (tty : RequestTty) (flags : List Char) : Bool :=
  flags.all (fun c => !isTtyLetter c) || flags = ['t'] || flags = ['T'] ||
    (flags.all (· = 't') && flags.foldl ttyLetterStep tty = .force)

/-- 最初の番号が読めず、誤りが決まっている。 -/
def portRefused (seen : List Setting) : Bool := (seen.findSome? Setting.port?).any fun port => !(parsePort port).isOk

/-- 同じ項目の値を、先に読んでいる。鍵のファイルは、全てが残る。 -/
def shadowed (seen : List Setting) : Setting → Bool
  | .hostName _ => (seen.findSome? Setting.hostName?).isSome
  | .user _ => (seen.findSome? Setting.user?).isSome
  | .port _ _ => (seen.findSome? Setting.port?).isSome
  | .proxyJump _ => (seen.findSome? Setting.proxyJump?).isSome
  | .identityFile _ => false
  | .identityAgent _ => (seen.findSome? Setting.identityAgent?).isSome
  | .forwardAgent _ => (seen.findSome? Setting.forwardAgent?).isSome

/-- 引数に付けた値は、読まなくても結果が変わらない。 -/
def attachedFits (env : Env) (seen : List (Char × Option Arg)) (option : Char × Option Arg) : Bool :=
  (option.1 ≠ 'F' || seen.any fun option => option.1 = 'F') &&
    (portRefused (seen.filterMap (settingOf env)) ||
      (settingOf env option).all (shadowed (seen.filterMap (settingOf env))))

/-- 正しい番号の後の番号は、正しい。 -/
def valueFits (env : Env) (seen : List (Char × Option Arg)) (option : Char × Option Arg) : Bool :=
  portRefused (seen.filterMap (settingOf env)) ||
    ((settingOf env option).bind Setting.port?).all fun port =>
      ((seen.filterMap (settingOf env)).findSome? Setting.port?).isNone || (parsePort port).isOk

/-- 宛先の前の設定を、1 つの引数ごとに読める。`seen` は、値を離して書いたオプションの列である。 -/
def reported (env : Env) : RequestTty → List (Char × Option Arg) → List Text → Bool
  | _, _, [] => true
  | tty, seen, arg :: rest =>
      if isOptionArg arg then
        match bundle isValueLetter arg.tail with
        | (flags, none) => ttyPlain tty flags && reported env (flags.foldl ttyLetterStep tty) seen rest
        | (_, some (c, [])) =>
            match rest with
            | [] => true
            | value :: rest =>
                !isTtyArg value && valueFits env seen (c, some value) &&
                  reported env tty (seen ++ [(c, some value)]) rest
        | (flags, some (c, a :: attached)) =>
            flags.all (fun c => !isTtyLetter c) && attachedFits env seen (c, some (a :: attached)) &&
              reported env tty seen rest
      else true

/-- 値を離して書いた引数で、宛先があれば、その前の設定も読める。 -/
def Readable (env : Env) (defaultPipePath : Text) (args : List Text) : Prop :=
  spaced args = true ∧
    ((referencePlan defaultPipePath args).isOk = true → reported env .auto [] (splitWrapper args).2 = true)

instance (env : Env) (defaultPipePath : Text) (args : List Text) : Decidable (Readable env defaultPipePath args) :=
  inferInstanceAs (Decidable (_ ∧ (_ → _)))

end IsekaiTerminal.Wrapper
