import Mathlib

/-!
# 生成するコマンド列

`isekai-ssh/src/wrapper.rs` の `proxy_command` と `tty_attach.rs` の `attach_command`、`rust-core/src/file_preview.rs` の
`build_command_line` と、受け取る側の `isekai-pipe/src/ctl_file.rs` の `parse_file` を定める。Windows 以外での動作である。
-/

namespace IsekaiTerminal.Command

/-! ## `wrapper.rs` と `tty_attach.rs` -/

def shellQuote (value : List Char) : List Char :=
  if value = [] then "''".toList
  else '\'' :: value.flatMap (fun ch => if ch = '\'' then "'\\''".toList else [ch]) ++ ['\'']

def escapeSshPercentTokens (value : List Char) : List Char := value.flatMap fun c => if c = '%' then ['%', '%'] else [c]

def isSafeBareWord (value extraAllowed : List Char) : Bool :=
  !value.isEmpty && value.head? ≠ some '~' &&
    value.all fun c => c.isAlphanum || c ∈ ['.', '_', '-', ':', '@', '~'] || c ∈ extraAllowed

def quoteProxyCommandArg (value : List Char) : List Char := if isSafeBareWord value [] then value else shellQuote value

def quoteProxyCommandPath (pipePath : List Char) : List Char :=
  if isSafeBareWord pipePath ['/'] then pipePath else shellQuote pipePath

def proxyCommand (pipePath profile : List Char) : List Char :=
  escapeSshPercentTokens (quoteProxyCommandPath pipePath) ++ " connect --profile ".toList ++
    escapeSshPercentTokens (quoteProxyCommandArg profile) ++ " --service ssh --stdio".toList

def attachCommand (name : List Char) : List Char := "isekai-pipe tty attach ".toList ++ shellQuote name

/-- `ssh(1)` の `%` の展開。知らない文字と、末尾の `%` は、誤りである。 -/
def percentExpand (tokens : Char → Option (List Char)) : List Char → Option (List Char)
  | [] => some []
  | ['%'] => none
  | '%' :: c :: rest =>
      if c = '%' then (percentExpand tokens rest).map ('%' :: ·)
      else (tokens c).bind fun value => (percentExpand tokens rest).map (value ++ ·)
  | c :: rest => (percentExpand tokens rest).map (c :: ·)

/-! ## `file_preview.rs` -/

inductive FilePreviewRequestKind
  | ls (path : List Char)
  | cat (path : List Char) (offset : UInt64) (length : Option UInt64)
  | info (path : List Char)
deriving DecidableEq

namespace FilePreview

def shellQuote (arg : List Char) : List Char :=
  let looksSafe := !arg.isEmpty && arg.all fun c => c.isAlphanum || c ∈ ['-', '_', '.', '/', ':', '~']
  if looksSafe then arg
  else '\'' :: arg.flatMap (fun c => if c = '\'' then "'\\''".toList else [c]) ++ ['\'']

/-- `u64` の `to_string`。 -/
def decimal (n : UInt64) : List Char := Nat.toDigits 10 n.toNat

def arguments : FilePreviewRequestKind → List (List Char)
  | .ls path => ["ls".toList, path]
  | .cat path offset length =>
      ["cat".toList, path, "--offset".toList, decimal offset] ++
        length.elim [] fun length => ["--length".toList, decimal length]
  | .info path => ["info".toList, path]

def buildCommandLine (kind : FilePreviewRequestKind) : List Char :=
  List.intercalate [' ']
    ((["isekai-pipe".toList, "ctl".toList, "file".toList] ++ arguments kind).map shellQuote)

end FilePreview

/-! ## `ctl_file.rs` -/

inductive FileLaunch
  | ls (path : List Char)
  | cat (path : List Char) (offset : UInt64) (length : Option UInt64)
  | info (path : List Char)
  | cp (src dst : List Char)
  | rm (path : List Char) (recursive : Bool)
deriving DecidableEq

/-- 終了コード `EX_USAGE` とともに標準エラーに書く内容。 -/
inductive UsageError
  | missingArgument (command what : String)
  | missingValue (command flag : String)
  | notInteger (command flag : String) (raw : List Char)
  | unexpectedArgument (command : String) (arg : List Char)
  | unknownSubcommand (subcommand : List Char)
deriving DecidableEq

/-- `str::parse::<u64>`。先頭の `+` は許す。 -/
def parseU64? (raw : List Char) : Option UInt64 :=
  let digits := if raw.head? = some '+' then raw.tail else raw
  let n := Nat.ofDigitChars 10 digits 0
  if digits ≠ [] ∧ digits.all Char.isDigit ∧ n < 2 ^ 64 then some (UInt64.ofNat n) else none

def parseU64 (command flag : String) (raw : List Char) : Except UsageError UInt64 :=
  match parseU64? raw with
  | some n => .ok n
  | none => .error (.notInteger command flag raw)

structure CatArgs where
  path : Option (List Char)
  offset : UInt64
  length : Option UInt64

def parseCat : List (List Char) → CatArgs → Except UsageError CatArgs
  | [], cat => .ok cat
  | arg :: args, cat =>
      if arg = "--offset".toList then
        match args with
        | [] => .error (.missingValue "file cat" "--offset")
        | raw :: args => do
            let offset ← parseU64 "cat" "--offset" raw
            parseCat args { cat with offset := offset }
      else if arg = "--length".toList then
        match args with
        | [] => .error (.missingValue "file cat" "--length")
        | raw :: args => do
            let length ← parseU64 "cat" "--length" raw
            parseCat args { cat with length := some length }
      else if cat.path.isNone then parseCat args { cat with path := some arg }
      else .error (.unexpectedArgument "cat" arg)

structure RmArgs where
  path : Option (List Char)
  recursive : Bool

def parseRm : List (List Char) → RmArgs → Except UsageError RmArgs
  | [], rm => .ok rm
  | arg :: args, rm =>
      if arg = "--recursive".toList ∨ arg = "-r".toList then parseRm args { rm with recursive := true }
      else if rm.path.isNone then parseRm args { rm with path := some arg }
      else .error (.unexpectedArgument "rm" arg)

def requirePath (command what : String) (path : Option (List Char)) : Except UsageError (List Char) :=
  match path with
  | some path => .ok path
  | none => .error (.missingArgument command what)

/-- 使い方を表示するだけのときは、`none` を返す。 -/
def parseFile : List (List Char) → Except UsageError (Option FileLaunch)
  | [] => .ok none
  | subcommand :: args =>
      if subcommand = "-h".toList ∨ subcommand = "--help".toList then .ok none
      else if subcommand = "ls".toList then do
        let path ← requirePath "ls" "a path" args.head?
        return some (.ls path)
      else if subcommand = "cat".toList then do
        let cat ← parseCat args ⟨none, 0, none⟩
        let path ← requirePath "cat" "a path" cat.path
        return some (.cat path cat.offset cat.length)
      else if subcommand = "info".toList then do
        let path ← requirePath "info" "a path" args.head?
        return some (.info path)
      else if subcommand = "cp".toList then do
        let src ← requirePath "cp" "a source path" args.head?
        let dst ← requirePath "cp" "a destination path" args.tail.head?
        return some (.cp src dst)
      else if subcommand = "rm".toList then do
        let rm ← parseRm args ⟨none, false⟩
        let path ← requirePath "rm" "a path" rm.path
        return some (.rm path rm.recursive)
      else .error (.unknownSubcommand subcommand)

end IsekaiTerminal.Command
