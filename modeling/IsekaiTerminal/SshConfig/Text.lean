import IsekaiTerminal.Lib.Wildcard

/-!
# 設定ファイルの字句

文字列は文字の列とする。行の切り分け、語の切り分け、注釈と引用符の扱い、パスの操作を、`openssh-config/src/lib.rs` と
`isekai-ssh/src/wrapper/directive.rs` が使う標準の関数と、そこで定めた関数の名前で置く。パスは Unix のものとする。
-/

namespace IsekaiTerminal.SshConfig

open Lib

abbrev Text := List Char

/-! ## 標準の文字列 -/

/-- `char::is_whitespace`。 -/
def isWhitespace (c : Char) : Bool :=
  (9 ≤ c.toNat && c.toNat ≤ 13) || c.toNat = 0x20 || c.toNat = 0x85 || c.toNat = 0xA0 || c.toNat = 0x1680 ||
    (0x2000 ≤ c.toNat && c.toNat ≤ 0x200A) || c.toNat = 0x2028 || c.toNat = 0x2029 || c.toNat = 0x202F ||
    c.toNat = 0x205F || c.toNat = 0x3000

/-- `u8::is_ascii_whitespace`。垂直タブを含まない。 -/
def isAsciiWhitespace (c : Char) : Bool :=
  c.toNat = 0x20 || c.toNat = 0x09 || c.toNat = 0x0A || c.toNat = 0x0C || c.toNat = 0x0D

def trimStart (s : Text) : Text := s.dropWhile isWhitespace

def trimEnd (s : Text) : Text := (s.reverse.dropWhile isWhitespace).reverse

def trim (s : Text) : Text := trimEnd (trimStart s)

def splitWhitespace (s : Text) : List Text := (s.splitOnP isWhitespace).filter (· ≠ [])

def toAsciiLowercase (s : Text) : Text := s.map Char.toLower

def stripPrefix (p s : Text) : Option Text := if p.isPrefixOf s then some (s.drop p.length) else none

/-- `str::lines`。`\n` で終わる行の、その前の `\r` は除く。 -/
def textLines (content : Text) : List Text :=
  let lines := content.splitOn '\n'
  (lines.dropLast.map fun line => if line.getLast? = some '\r' then line.dropLast else line) ++
    lines.getLast?.toList.filter (· ≠ [])

def asBytes (s : Text) : List UInt8 := s.flatMap String.utf8EncodeChar

/-- `str::parse::<u16>`。 -/
def parseU16 (s : Text) : Option UInt16 :=
  let digits := if s.head? = some '+' then s.tail else s
  if digits ≠ [] ∧ digits.all Char.isDigit then
    let n := digits.foldl (fun n c => n * 10 + (c.toNat - '0'.toNat)) 0
    if n < 65536 then some (UInt16.ofNat n) else none
  else none

/-- `u16` の 10 進の表示。 -/
def u16ToString (n : UInt16) : Text := (Nat.toDigits 10 n.toNat)

/-! ## 行と語 -/

def splitKeyword (line : Text) : Text × Text :=
  let isEnd := fun c => isWhitespace c || c = '='
  let keyword := line.takeWhile fun c => !isEnd c
  let rest := trimStart (line.dropWhile fun c => !isEnd c)
  match rest with
  | '=' :: stripped => (keyword, trimStart stripped)
  | _ => (keyword, rest)

/-- 語の切り分けの途中。`quoted` は引用符の中である。語は逆順に持つ。 -/
inductive WordState
  | outside
  | bare (word : Text)
  | quoted (quote : Char) (word : Text)

def splitWordsFrom : WordState → Text → List Text
  | .outside, [] => []
  | .bare word, [] => [word.reverse]
  | .quoted _ word, [] => [word.reverse]
  | .outside, c :: cs =>
      if isWhitespace c then splitWordsFrom .outside cs
      else if c = '\'' ∨ c = '"' then splitWordsFrom (.quoted c []) cs
      else splitWordsFrom (.bare [c]) cs
  | .bare word, c :: cs =>
      if isWhitespace c then word.reverse :: splitWordsFrom .outside cs else splitWordsFrom (.bare (c :: word)) cs
  | .quoted quote word, c :: cs =>
      if c = quote then word.reverse :: splitWordsFrom .outside cs else splitWordsFrom (.quoted quote (c :: word)) cs

def splitWords (input : Text) : List Text := splitWordsFrom .outside input

/-- 注釈の前まで。注釈が無ければ `none` である。 -/
def beforeComment (quote : Option Char) (prevWs : Bool) : Text → Option Text
  | [] => none
  | c :: cs =>
      if c = '\'' ∨ c = '"' then
        let quote :=
          match quote with
          | some q => if q = c then none else some q
          | none => some c
        (beforeComment quote false cs).map (c :: ·)
      else if c = '#' ∧ quote = none ∧ prevWs = true then some []
      else (beforeComment quote (isAsciiWhitespace c) cs).map (c :: ·)

def stripInlineComment (value : Text) : Text :=
  match beforeComment none true value with
  | some before => trimEnd before
  | none => value

def stripQuotes (value : Text) : Text :=
  if 1 < value.length ∧
      (value.head? = some '\'' ∧ value.getLast? = some '\'' ∨ value.head? = some '"' ∧ value.getLast? = some '"')
  then value.tail.dropLast
  else value

/-! ## 型 -/

def wildcardMatchBytes (pattern value : List UInt8) : Bool := wildScan 42 63 pattern value

def wildcardMatch (pattern value : Text) : Bool := wildcardMatchBytes (asBytes pattern) (asBytes value)

/-! ## パス -/

def isAbsolute (path : Text) : Bool := path.head? = some '/'

/-- 末尾の区切りと `.` を除く。引数も結果も逆順である。 -/
def trimRight : Text → Text
  | '/' :: cs => trimRight cs
  | '.' :: '/' :: cs => trimRight ('/' :: cs)
  | cs => cs

/-- `Path::parent`。 -/
def parent (path : Text) : Option Text :=
  let trimmed := trimRight path.reverse
  if trimmed = [] then none
  else
    let dir := trimRight (trimmed.dropWhile (· ≠ '/'))
    some (if dir = [] ∧ isAbsolute path = true then ['/'] else dir.reverse)

/-- `Path::join`。 -/
def joinPath (base path : Text) : Text :=
  if isAbsolute path then path
  else if base = [] ∨ base.getLast? = some '/' then base ++ path
  else base ++ '/' :: path

/-- 要素ごとの比較のための鍵。要素の種類は、根、`.`、`..`、名前の順である。 -/
def componentKeys (path : Text) : List (List Nat) :=
  let names := (path.splitOn '/').filter (· ≠ [])
  let leading := if isAbsolute path then [[0]] else if names.head? = some ['.'] then [[1]] else []
  leading ++ (names.filter (· ≠ ['.'])).map fun name => if name = ['.', '.'] then [2] else 3 :: name.map Char.toNat

/-- `Vec<PathBuf>::sort`。 -/
def sortPaths (paths : List Text) : List Text :=
  paths.mergeSort fun a b => decide (componentKeys a ≤ componentKeys b)

/-! ## 環境 -/

structure Env where
  home : Option Text
  userprofile : Option Text
  user : Option Text
  username : Option Text

/-- `home_dir` と `resolve_home_dir`。 -/
def homeDir (env : Env) : Option Text := env.home <|> env.userprofile

def localUsername (env : Env) : Option Text := env.user <|> env.username

/-- ファイルの読み方。`glob` はパターンに合うパスを列挙する。読めるファイルは在り、その正規のパスは `files` のどれかである。 -/
structure FileSystem where
  canonicalize : Text → Option Text
  readToString : Text → Except Text Text
  pathExists : Text → Bool
  glob : Text → Except Text (List (Except Text Text))
  files : List Text
  pathExists_of_read : ∀ path content, readToString path = .ok content → pathExists path = true
  mem_files : ∀ path content, readToString path = .ok content → (canonicalize path).getD path ∈ files

def FileSystem.canonical (fs : FileSystem) (path : Text) : Text := (fs.canonicalize path).getD path

def expandTilde (env : Env) (input : Text) : Text :=
  if input = ['~'] then (homeDir env).getD input
  else
    match stripPrefix ['~', '/'] input with
    | some rest => ((homeDir env).map (joinPath · rest)).getD input
    | none => input

def expandPath (env : Env) (input : Text) (baseDir : Option Text) : Text :=
  let expanded := expandTilde env input
  if isAbsolute expanded then expanded else joinPath (baseDir.getD ['.']) expanded

def isGlob (pattern : Text) : Bool := pattern.any fun c => c = '*' || c = '?' || c = '['

/-!
## 2 つの `wildcard_match_bytes`

`openssh-config/src/lib.rs` の、2 つの位置を進める反復と、`isekai-ssh/src/wrapper/directive.rs` の再帰を定める。
反復は、値の位置を戻すので、回数の上限 `fuel` の中で終わらなければ `none` とする。
-/

/-- `b'*'`。 -/
def starByte : UInt8 := 42

/-- `b'?'`。 -/
def anyByte : UInt8 := 63

namespace Iterative

/-- 反復の途中。`star` は、最後に見た `*` の位置と、それが読み飛ばした後の値の位置である。 -/
structure Cursor where
  p : Nat
  v : Nat
  star : Option (Nat × Nat)
deriving DecidableEq

def Cursor.start : Cursor := ⟨0, 0, none⟩

/-- 合わないとき。最後の `*` に、値をもう 1 バイト読み飛ばさせる。 -/
def backtrack (c : Cursor) : Except Bool Cursor :=
  match c.star with
  | some (starP, starV) => .ok ⟨starP + 1, starV + 1, some (starP, starV + 1)⟩
  | none => .error false

/-- 値を読み終えた後。型の残りが `*` だけなら合う。 -/
def trailing (pattern : List UInt8) (p : Nat) : Bool :=
  p + ((pattern.drop p).takeWhile (· = starByte)).length = pattern.length

/-- `while` の 1 回。ループを抜けるときは、結果を `error` で返す。 -/
def iterate (pattern value : List UInt8) (c : Cursor) : Except Bool Cursor :=
  match value[c.v]? with
  | none => .error (trailing pattern c.p)
  | some b =>
      match pattern[c.p]? with
      | none => backtrack c
      | some pc =>
          if pc = starByte then .ok ⟨c.p + 1, c.v, some (c.p, c.v)⟩
          else if pc = anyByte then .ok ⟨c.p + 1, c.v + 1, c.star⟩
          else if pc = b then .ok ⟨c.p + 1, c.v + 1, c.star⟩
          else backtrack c

def loop (pattern value : List UInt8) : Nat → Cursor → Option Bool
  | 0, _ => none
  | fuel + 1, c =>
      match iterate pattern value c with
      | .ok c => loop pattern value fuel c
      | .error result => some result

def wildcardMatchBytes (fuel : Nat) (pattern value : List UInt8) : Option Bool := loop pattern value fuel .start

end Iterative

namespace Recursive

def wildcardMatchBytes : List UInt8 → List UInt8 → Bool
  | [], [] => true
  | [], _ :: _ => false
  | c :: rest, [] => if c = starByte then wildcardMatchBytes rest [] || false else false
  | c :: rest, b :: valueRest =>
      if c = starByte then wildcardMatchBytes rest (b :: valueRest) || wildcardMatchBytes (c :: rest) valueRest
      else if c = anyByte then wildcardMatchBytes rest valueRest
      else if c = b then wildcardMatchBytes rest valueRest
      else false
termination_by pattern value => pattern.length + value.length

end Recursive

end IsekaiTerminal.SshConfig
