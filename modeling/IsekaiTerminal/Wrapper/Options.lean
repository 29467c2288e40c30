import IsekaiTerminal.SshConfig.Resolve

/-!
# ラッパーの引数

`isekai-ssh/src/wrapper.rs` の `parse_wrapper`、`extract_request_tty`、`find_destination_index`、`collect_cli_overrides`、
`dash_f_config_path` を定める。既定の `isekai-pipe` のパスと環境変数は、引数として与える。
-/

namespace IsekaiTerminal.Wrapper

open SshConfig (Text Env ForwardAgent isWhitespace trim trimStart stripQuotes toAsciiLowercase parseU16 expandTilde
  parseForwardAgent)

/-! ## 宛先の前のオプション -/

/-- 値を取るオプション。 -/
def valueLetters : List Char :=
  ['B', 'b', 'c', 'D', 'E', 'e', 'F', 'I', 'i', 'J', 'L', 'l', 'm', 'O', 'o', 'p', 'Q', 'R', 'S', 'W', 'w']

/-- `-X` の形の、値を取るオプションだけが、次の引数を値とする。 -/
def sshOptionWidth (arg : Text) : Nat := if arg ∈ valueLetters.map fun c => ['-', c] then 2 else 1

/-- オプションとその値の列と、止まった位置。 -/
def sshOptionsBeforeDestination : List Text → List (Text × Option Text) × Nat
  | [] => ([], 0)
  | arg :: rest =>
      if arg = "--".toList ∨ arg.head? ≠ some '-' ∨ arg = "-".toList then ([], 0)
      else if sshOptionWidth arg = 2 then
        match rest with
        | [] => ([(arg, none)], 2)
        | value :: rest =>
            ((arg, some value) :: (sshOptionsBeforeDestination rest).1, (sshOptionsBeforeDestination rest).2 + 2)
      else ((arg, none) :: (sshOptionsBeforeDestination rest).1, (sshOptionsBeforeDestination rest).2 + 1)

def findDestinationIndex (args : List Text) : Option Nat :=
  let i := (sshOptionsBeforeDestination args).2
  match args[i]? with
  | some arg => if arg = "--".toList then if i + 1 < args.length then some (i + 1) else none else some i
  | none => none

/-! ## `-t` と `-T` -/

inductive RequestTty
  | auto
  | yes
  | no
  | force
deriving DecidableEq

def requestTtyStep (tty : RequestTty) (arg : Text) : RequestTty :=
  if arg = "-t".toList then if tty = .yes then .force else .yes
  else if arg = "-tt".toList then .force
  else if arg = "-T".toList then .no
  else if "-t".toList.isPrefixOf arg ∧ 2 < arg.length ∧ arg.tail.all (· = 't') then .force
  else tty

def extractRequestTty (sshArgs : List Text) (destinationIndex : Nat) : RequestTty :=
  (sshArgs.take destinationIndex).foldl requestTtyStep .auto

/-! ## `parse_wrapper` -/

inductive TtySelection
  | auto
  | named (name : Text)
deriving DecidableEq

structure WrapperIsekaiOptions where
  bootstrap : Bool
  noBootstrap : Bool
  direct : Bool
  explain : Bool
  dryRun : Bool
  helperBinary : Option Text
  helperReleaseRepo : Text
  helperReleaseTag : Option Text
  logFile : Option Text
  tty : Option TtySelection
deriving DecidableEq

def defaultRepo : Text := "cuzic/isekai-terminal".toList

def WrapperIsekaiOptions.default : WrapperIsekaiOptions :=
  { bootstrap := false, noBootstrap := false, direct := false, explain := false, dryRun := false, helperBinary := none,
    helperReleaseRepo := defaultRepo, helperReleaseTag := none, logFile := none, tty := none }

/-- `--isekai-*` のオプション。 -/
inductive IsekaiOption
  | bootstrap
  | noBootstrap
  | direct
  | explain
  | dryRun
  | sshPath
  | pipePath
  | helperBinary
  | helperReleaseRepo
  | helperReleaseTag
  | logFile
  | tty
  | ttyNamed (name : Text)
deriving DecidableEq

inductive WrapperError
  | requiresValue (option : IsekaiOption)
  | emptyTtyName
  | bootstrapConflict
  | destinationRequired
deriving DecidableEq

namespace IsekaiOption

def words : List (Text × IsekaiOption) :=
  [("--isekai-bootstrap".toList, bootstrap), ("--isekai-no-bootstrap".toList, noBootstrap),
    ("--isekai-direct".toList, direct), ("--isekai-explain".toList, explain), ("--isekai-dry-run".toList, dryRun),
    ("--isekai-ssh-path".toList, sshPath), ("--isekai-pipe-path".toList, pipePath),
    ("--isekai-helper-binary".toList, helperBinary), ("--isekai-helper-release-repo".toList, helperReleaseRepo),
    ("--isekai-helper-release-tag".toList, helperReleaseTag), ("--isekai-log-file".toList, logFile),
    ("--isekai-tty".toList, tty)]

def ofArg? (arg : Text) : Option IsekaiOption :=
  match words.lookup arg with
  | some option => some option
  | none => if "--isekai-tty=".toList.isPrefixOf arg then some (ttyNamed (arg.drop "--isekai-tty=".length)) else none

def takesValue : IsekaiOption → Bool
  | sshPath | pipePath | helperBinary | helperReleaseRepo | helperReleaseTag | logFile => true
  | _ => false

end IsekaiOption

/-- `ssh_args` のほかの、読み取りの途中の値。 -/
structure Settings where
  opensshPath : Text
  pipePath : Text
  isekai : WrapperIsekaiOptions
deriving DecidableEq

/-- `value` は、値を取るオプションだけが使う。 -/
def Settings.apply (s : Settings) (value : Text) : IsekaiOption → Except WrapperError Settings
  | .bootstrap => .ok { s with isekai := { s.isekai with bootstrap := true } }
  | .noBootstrap => .ok { s with isekai := { s.isekai with noBootstrap := true } }
  | .direct => .ok { s with isekai := { s.isekai with direct := true } }
  | .explain => .ok { s with isekai := { s.isekai with explain := true } }
  | .dryRun => .ok { s with isekai := { s.isekai with dryRun := true } }
  | .sshPath => .ok { s with opensshPath := value }
  | .pipePath => .ok { s with pipePath := value }
  | .helperBinary => .ok { s with isekai := { s.isekai with helperBinary := some value } }
  | .helperReleaseRepo => .ok { s with isekai := { s.isekai with helperReleaseRepo := value } }
  | .helperReleaseTag => .ok { s with isekai := { s.isekai with helperReleaseTag := some value } }
  | .logFile => .ok { s with isekai := { s.isekai with logFile := some value } }
  | .tty => .ok { s with isekai := { s.isekai with tty := some .auto } }
  | .ttyNamed name =>
      if name = [] then .error .emptyTtyName else .ok { s with isekai := { s.isekai with tty := some (.named name) } }

/-- 宛先が見つかった後は、残りの引数をそのまま加える。 -/
def parseWrapperLoop : List Text → Settings → List Text → Except WrapperError (Settings × List Text)
  | [], settings, sshArgs => .ok (settings, sshArgs)
  | arg :: rest, settings, sshArgs =>
      if (findDestinationIndex sshArgs).isSome then parseWrapperLoop rest settings (sshArgs ++ [arg])
      else
        match IsekaiOption.ofArg? arg with
        | none => parseWrapperLoop rest settings (sshArgs ++ [arg])
        | some option =>
            if option.takesValue then
              match rest with
              | [] => .error (.requiresValue option)
              | value :: rest =>
                  match settings.apply value option with
                  | .error e => .error e
                  | .ok settings => parseWrapperLoop rest settings sshArgs
            else
              match settings.apply [] option with
              | .error e => .error e
              | .ok settings => parseWrapperLoop rest settings sshArgs

structure WrapperPlan where
  opensshPath : Text
  pipePath : Text
  destination : Text
  destinationHost : Text
  destinationUser : Option Text
  destinationIndex : Nat
  sshArgs : List Text
  isekai : WrapperIsekaiOptions
  requestTty : RequestTty
deriving DecidableEq

/-- 最後の `@` で分ける。 -/
def splitUserHost (destination : Text) : Option Text × Text :=
  let host := (destination.reverse.takeWhile (· ≠ '@')).reverse
  let user := destination.take (destination.length - host.length - 1)
  if '@' ∈ destination ∧ user ≠ [] ∧ host ≠ [] then (some user, host) else (none, destination)

def Settings.start (defaultPipePath : Text) : Settings := ⟨"ssh".toList, defaultPipePath, .default⟩

def parseWrapper (defaultPipePath : Text) (args : List Text) : Except WrapperError WrapperPlan :=
  match parseWrapperLoop args (.start defaultPipePath) [] with
  | .error e => .error e
  | .ok (settings, sshArgs) =>
      if settings.isekai.bootstrap && settings.isekai.noBootstrap then .error .bootstrapConflict
      else
        match findDestinationIndex sshArgs with
        | none => .error .destinationRequired
        | some index =>
            let destination := sshArgs.getD index []
            .ok
              { opensshPath := settings.opensshPath, pipePath := settings.pipePath, destination := destination,
                destinationHost := (splitUserHost destination).2, destinationUser := (splitUserHost destination).1,
                destinationIndex := index, sshArgs := sshArgs, isekai := settings.isekai,
                requestTty := extractRequestTty sshArgs index }

/-! ## コマンドラインの上書き -/

structure CliOverrides where
  hostName : Option Text
  user : Option Text
  port : Option UInt16
  proxyJump : Option Text
  identityFile : List Text
  forwardAgent : Option ForwardAgent
  identityAgent : Option Text
deriving DecidableEq

def CliOverrides.default : CliOverrides := ⟨none, none, none, none, [], none, none⟩

inductive OverrideError
  | invalidDashPPort (value : Text)
  | invalidDashOPort (value : Text)
deriving DecidableEq

/-- `Option::get_or_insert`。 -/
def getOrInsert {α : Type} (current : Option α) (value : α) : Option α := some (current.getD value)

/-- 区切りの前のキーワードと、その後の値。区切りが無ければ `none` である。 -/
def splitDashO (token : Text) : Option (Text × Text) :=
  let isDelimiter := fun c => c = '=' || isWhitespace c
  if token.any isDelimiter then
    let key := token.takeWhile fun c => !isDelimiter c
    let val := trimStart (token.dropWhile fun c => !isDelimiter c)
    let val := if val.head? = some '=' then trimStart val.tail else val
    some (toAsciiLowercase (trim key), stripQuotes (trim val))
  else none

def applyDashOOverride (env : Env) (overrides : CliOverrides) (token : Text) : Except OverrideError CliOverrides :=
  match splitDashO token with
  | none => .ok overrides
  | some (key, val) =>
      if key = "hostname".toList then .ok { overrides with hostName := getOrInsert overrides.hostName val }
      else if key = "user".toList then .ok { overrides with user := getOrInsert overrides.user val }
      else if key = "port".toList then
        match parseU16 val with
        | some port => .ok { overrides with port := getOrInsert overrides.port port }
        | none => .error (.invalidDashOPort val)
      else if key = "proxyjump".toList then .ok { overrides with proxyJump := getOrInsert overrides.proxyJump val }
      else if key = "identityfile".toList then
        .ok { overrides with identityFile := overrides.identityFile ++ [expandTilde env val] }
      else if key = "identityagent".toList then
        .ok { overrides with identityAgent := getOrInsert overrides.identityAgent (expandTilde env val) }
      else if key = "forwardagent".toList then
        .ok { overrides with forwardAgent := getOrInsert overrides.forwardAgent (parseForwardAgent val) }
      else .ok overrides

def applyOption (env : Env) (overrides : CliOverrides) : Text × Option Text → Except OverrideError CliOverrides
  | (_, none) => .ok overrides
  | (arg, some v) =>
      if arg = "-p".toList then
        match parseU16 v with
        | some port => .ok { overrides with port := getOrInsert overrides.port port }
        | none => .error (.invalidDashPPort v)
      else if arg = "-l".toList then .ok { overrides with user := getOrInsert overrides.user v }
      else if arg = "-J".toList then .ok { overrides with proxyJump := getOrInsert overrides.proxyJump v }
      else if arg = "-i".toList then .ok { overrides with identityFile := overrides.identityFile ++ [expandTilde env v] }
      else if arg = "-o".toList then applyDashOOverride env overrides v
      else .ok overrides

def collectCliOverrides (env : Env) (sshArgs : List Text) : Except OverrideError CliOverrides :=
  (sshOptionsBeforeDestination sshArgs).1.foldlM (applyOption env) .default

def dashFConfigPath (sshArgs : List Text) : Option Text :=
  ((sshOptionsBeforeDestination sshArgs).1.find? fun option => option.1 = "-F".toList).bind Prod.snd

end IsekaiTerminal.Wrapper
