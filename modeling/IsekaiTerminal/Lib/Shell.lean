import Mathlib

/-!
# シェルの単語

POSIX の sh が 1 つの単純なコマンドを単語に分け、チルダとパス名を展開し、引用を外す手順を定める。
変数やコマンドの置換、リダイレクト、コメント、演算子を含む列は、`none` として扱わない。
-/

namespace IsekaiTerminal.Lib.Shell

/-- 引用されたかどうかの印を付けた文字。 -/
structure Mark where
  char : Char
  quoted : Bool
deriving DecidableEq

/-- 印を付けない文字の列。 -/
def bare (cs : List Char) : List Mark := cs.map fun c => ⟨c, false⟩

def quoted (cs : List Char) : List Mark := cs.map fun c => ⟨c, true⟩

/-! ## 単語への分割 -/

inductive Mode
  | plain
  | single
  | double
  | escape
  | doubleEscape
deriving DecidableEq

/-- `words` は終わった単語、`word` は読んでいる途中の単語である。 -/
structure Lexer where
  mode : Mode
  words : List (List Mark)
  word : Option (List Mark)
deriving DecidableEq

def isBlank (c : Char) : Bool := c = ' ' || c = '\t'

/-- 展開や演算子の始まり。 -/
def isSpecial (c : Char) : Bool := c ∈ ['$', '\x60', '|', '&', ';', '<', '>', '(', ')', '\n']

namespace Lexer

def start : Lexer := ⟨.plain, [], none⟩

/-- 途中の単語に文字を加える。単語の外では、単語を始める。 -/
def add (s : Lexer) (marks : List Mark) (mode : Mode) : Lexer := { s with mode := mode, word := some (s.word.getD [] ++ marks) }

def endWord (s : Lexer) : Lexer := { s with words := s.words ++ s.word.toList, word := none }

def plain (s : Lexer) (c : Char) : Option Lexer :=
  if isBlank c then some s.endWord
  else if c = '\'' then some (s.add [] .single)
  else if c = '"' then some (s.add [] .double)
  else if c = '\\' then some { s with mode := .escape }
  else if isSpecial c || (c = '#' && s.word.isNone) then none
  else some (s.add [⟨c, false⟩] .plain)

def double (s : Lexer) (c : Char) : Option Lexer :=
  if c = '"' then some { s with mode := .plain }
  else if c = '\\' then some { s with mode := .doubleEscape }
  else if c = '$' || c = '\x60' then none
  else some (s.add [⟨c, true⟩] .double)

/-- 二重引用符の中で、`\` は限られた文字だけを引用する。 -/
def doubleEscape (s : Lexer) (c : Char) : Lexer :=
  if c = '\n' then { s with mode := .double }
  else if c ∈ ['$', '\x60', '"', '\\'] then s.add [⟨c, true⟩] .double
  else s.add [⟨'\\', true⟩, ⟨c, true⟩] .double

def step (s : Lexer) (c : Char) : Option Lexer :=
  match s.mode with
  | .plain => s.plain c
  | .single => if c = '\'' then some { s with mode := .plain } else some (s.add [⟨c, true⟩] .single)
  | .double => s.double c
  | .escape => if c = '\n' then some { s with mode := .plain } else some (s.add [⟨c, true⟩] .plain)
  | .doubleEscape => some (s.doubleEscape c)

def run (s : Lexer) (cs : List Char) : Option Lexer := cs.foldlM step s

/-- 引用の途中で終わる列は、コマンドではない。 -/
def finish (s : Lexer) : Option (List (List Mark)) := if s.mode = .plain then some s.endWord.words else none

end Lexer

/-! ## 展開 -/

/-- シェルの外の状態。`home` はチルダに続く利用者名から、`glob` は型に合うパス名の列を返す。 -/
structure Env where
  home : List Char → Option (List Char)
  glob : List Mark → List (List Char)

def chars (word : List Mark) : List Char := word.map Mark.char

theorem chars_bare (cs : List Char) : chars (bare cs) = cs := by
  rw [chars, bare, List.map_map]
  exact List.map_id cs

theorem chars_quoted (cs : List Char) : chars (quoted cs) = cs := by
  rw [chars, quoted, List.map_map]
  exact List.map_id cs

/-- 引用されていない `~` で始まる単語では、引用されていない利用者名までを置き換える。 -/
def tilde (env : Env) (word : List Mark) : List Mark :=
  match word with
  | ⟨'~', false⟩ :: rest =>
      let login := rest.takeWhile fun m => m.char ≠ '/'
      if login.any Mark.quoted then word
      else
        match env.home (chars login) with
        | some dir => quoted dir ++ rest.drop login.length
        | none => word
  | _ => word

/-- 引用されていなければ、パス名の型になる文字。 -/
def isGlob (m : Mark) : Bool := !m.quoted && (m.char = '*' || m.char = '?' || m.char = '[')

/-- 合うパス名が無い型は、そのまま残る。 -/
def pathname (env : Env) (word : List Mark) : List (List Char) :=
  if word.any isGlob && !(env.glob word).isEmpty then env.glob word else [chars word]

def expand (env : Env) (word : List Mark) : List (List Char) := pathname env (tilde env word)

/-- コマンドの引数の列。 -/
def arguments (env : Env) (text : List Char) : Option (List (List Char)) :=
  ((Lexer.start.run text).bind Lexer.finish).map fun words => words.flatMap (expand env)

/-! ## 1 つの引数を表す列 -/

namespace Lexer

theorem run_append (s : Lexer) (cs ds : List Char) : s.run (cs ++ ds) = (s.run cs).bind fun s' => s'.run ds :=
  List.foldlM_append

theorem run_cons {s s' : Lexer} {c : Char} (h : s.step c = some s') (cs : List Char) : s.run (c :: cs) = s'.run cs := by
  rw [run, List.foldlM_cons, h]
  rfl

end Lexer

/-- `text` は、単語の外から読み始めて、単語 `word` の途中で終わる。 -/
def Lexes (text : List Char) (word : List Mark) : Prop :=
  ∀ words, (⟨.plain, words, none⟩ : Lexer).run text = some ⟨.plain, words, some word⟩

/-- `text` は、引数 `arg` を表す。 -/
def Denotes (env : Env) (text arg : List Char) : Prop := ∃ word, Lexes text word ∧ expand env word = [arg]

theorem Lexes.run_blank {text : List Char} {word : List Mark} (h : Lexes text word) (words : List (List Mark)) :
    (⟨.plain, words, none⟩ : Lexer).run (text ++ [' ']) = some ⟨.plain, words ++ [word], none⟩ := by
  rw [Lexer.run_append, h words]
  rfl

theorem run_intercalate {texts : List (List Char)} {marks : List (List Mark)} (h : List.Forall₂ Lexes texts marks)
    (words : List (List Mark)) :
    ((⟨.plain, words, none⟩ : Lexer).run (List.intercalate [' '] texts)).bind Lexer.finish = some (words ++ marks) := by
  induction h generalizing words with
  | nil => simp [List.intercalate, Lexer.run, Lexer.finish, Lexer.endWord]
  | @cons text word texts marks hword hrest ih =>
      cases hrest with
      | nil =>
          rw [List.intercalate_singleton, hword words]
          rfl
      | @cons text' word' texts marks hword' hrest =>
          rw [List.intercalate_cons_cons, Lexer.run_append, hword.run_blank words, Option.bind_some, ih,
            List.append_assoc]
          rfl

/-- 引数を表す列を空白で並べた列は、引数の列になる。 -/
theorem arguments_intercalate {env : Env} {texts args : List (List Char)} (h : List.Forall₂ (Denotes env) texts args) :
    arguments env (List.intercalate [' '] texts) = some args := by
  have hmarks : ∃ marks, List.Forall₂ Lexes texts marks ∧ marks.flatMap (expand env) = args := by
    induction h with
    | nil => exact ⟨[], .nil, rfl⟩
    | cons hdenotes _ ih =>
        obtain ⟨word, hword, hexpand⟩ := hdenotes
        obtain ⟨marks, hmarks, hargs⟩ := ih
        exact ⟨word :: marks, .cons hword hmarks, by rw [List.flatMap_cons, hexpand, hargs]; rfl⟩
  obtain ⟨marks, hmarks, hargs⟩ := hmarks
  rw [arguments, Lexer.start, run_intercalate hmarks, Option.map_some, List.nil_append, hargs]

/-! ## 引用しない列 -/

/-- 引用しなくても、それ自身を表す文字。 -/
def isOrdinary (c : Char) : Bool :=
  !(isBlank c || isSpecial c || c ∈ ['\'', '"', '\\', '#', '*', '?', '['])

theorem mem_of_not_isOrdinary {c : Char} (h : isOrdinary c = false) :
    c ∈ [' ', '\t', '$', '\x60', '|', '&', ';', '<', '>', '(', ')', '\n', '\'', '"', '\\', '#', '*', '?', '['] := by
  simp only [isOrdinary, isBlank, isSpecial, Bool.not_eq_false', Bool.or_eq_true, decide_eq_true_eq] at h
  simp only [List.mem_cons, List.not_mem_nil, or_false] at h ⊢
  tauto

theorem isOrdinary_of_isAlphanum {c : Char} (h : c.isAlphanum = true) : isOrdinary c = true := by
  by_contra hc
  have hmem := mem_of_not_isOrdinary (Bool.eq_false_iff.mpr hc)
  have hnone : ∀ d ∈ [' ', '\t', '$', '\x60', '|', '&', ';', '<', '>', '(', ')', '\n', '\'', '"', '\\', '#', '*', '?', '['],
      d.isAlphanum = false := by simp
  rw [hnone c hmem] at h
  cases h

theorem step_ordinary {s : Lexer} {c : Char} (h : isOrdinary c = true) (hmode : s.mode = .plain) :
    s.step c = some (s.add [⟨c, false⟩] .plain) := by
  simp only [isOrdinary, List.mem_cons, List.not_mem_nil, or_false, Bool.not_eq_true', Bool.or_eq_false_iff,
    decide_eq_false_iff_not, not_or] at h
  obtain ⟨⟨hblank, hspecial⟩, hquote, hdquote, hescape, hhash, -⟩ := h
  simp [Lexer.step, hmode, Lexer.plain, hblank, hspecial, hquote, hdquote, hescape, hhash]

theorem run_ordinary {cs : List Char} (h : ∀ c ∈ cs, isOrdinary c = true) (words : List (List Mark)) (word : List Mark) :
    (⟨.plain, words, some word⟩ : Lexer).run cs = some ⟨.plain, words, some (word ++ bare cs)⟩ := by
  induction cs generalizing word with
  | nil => simp [Lexer.run, bare]
  | cons c cs ih =>
      obtain ⟨hc, hrest⟩ := List.forall_mem_cons.mp h
      rw [Lexer.run_cons (step_ordinary hc rfl), Lexer.add, Option.getD_some, ih hrest, List.append_assoc]
      rfl

theorem lexes_ordinary {cs : List Char} (hne : cs ≠ []) (h : ∀ c ∈ cs, isOrdinary c = true) : Lexes cs (bare cs) := by
  intro words
  cases cs with
  | nil => exact absurd rfl hne
  | cons c cs =>
      obtain ⟨hc, hrest⟩ := List.forall_mem_cons.mp h
      rw [Lexer.run_cons (step_ordinary hc rfl), Lexer.add, run_ordinary hrest]
      rfl

theorem tilde_of_ne {env : Env} {word : List Mark} (h : word.head? ≠ some ⟨'~', false⟩) : tilde env word = word := by
  rw [tilde]
  rintro rest rfl
  exact h rfl

theorem pathname_of_forall {env : Env} {word : List Mark} (h : ∀ m ∈ word, isGlob m = false) :
    pathname env word = [chars word] := by
  have hany : word.any isGlob = false := by simpa using h
  rw [pathname, hany, Bool.false_and, if_neg Bool.false_ne_true]

theorem denotes_ordinary {env : Env} {cs : List Char} (hne : cs ≠ []) (htilde : cs.head? ≠ some '~')
    (h : ∀ c ∈ cs, isOrdinary c = true) : Denotes env cs cs := by
  refine ⟨bare cs, lexes_ordinary hne h, ?_⟩
  rw [expand, tilde_of_ne, pathname_of_forall]
  · rw [chars_bare]
  · intro m hm
    obtain ⟨c, hc, rfl⟩ := List.mem_map.mp hm
    have hordinary := h c hc
    simp only [isOrdinary, List.mem_cons, List.not_mem_nil, or_false, Bool.not_eq_true', Bool.or_eq_false_iff,
      decide_eq_false_iff_not, not_or] at hordinary
    simp [isGlob, hordinary]
  · cases cs with
    | nil => exact absurd rfl hne
    | cons c cs => simpa [bare] using htilde

/-! ## 単一引用符 -/

/-- 引用符で囲み、中の引用符は外で `\` を付ける。 -/
def singleQuote (value : List Char) : List Char :=
  '\'' :: value.flatMap (fun c => if c = '\'' then ['\'', '\\', '\'', '\''] else [c]) ++ ['\'']

theorem run_single (value : List Char) (words : List (List Mark)) (word : List Mark) :
    (⟨.single, words, some word⟩ : Lexer).run
        (value.flatMap (fun c => if c = '\'' then ['\'', '\\', '\'', '\''] else [c]) ++ ['\'']) =
      some ⟨.plain, words, some (word ++ quoted value)⟩ := by
  induction value generalizing word with
  | nil => simp [Lexer.run, Lexer.step, quoted]
  | cons c value ih =>
      rw [List.flatMap_cons, List.append_assoc, Lexer.run_append]
      by_cases hc : c = '\''
      · have hrun : (⟨.single, words, some word⟩ : Lexer).run ['\'', '\\', '\'', '\''] =
            some ⟨.single, words, some (word ++ [⟨'\'', true⟩])⟩ := by
          simp [Lexer.run, Lexer.step, Lexer.plain, Lexer.add, isBlank]
        rw [if_pos hc, hrun, Option.bind_some, ih, hc, List.append_assoc]
        rfl
      · have hrun : (⟨.single, words, some word⟩ : Lexer).run [c] = some ⟨.single, words, some (word ++ [⟨c, true⟩])⟩ := by
          simp [Lexer.run, Lexer.step, Lexer.add, hc]
        rw [if_neg hc, hrun, Option.bind_some, ih, List.append_assoc]
        rfl

theorem lexes_singleQuote (value : List Char) : Lexes (singleQuote value) (quoted value) := by
  intro words
  have hstart : (⟨.plain, words, none⟩ : Lexer).step '\'' = some ⟨.single, words, some []⟩ := rfl
  rw [singleQuote, List.cons_append, Lexer.run_cons hstart, run_single, List.nil_append]

theorem denotes_singleQuote (env : Env) (value : List Char) : Denotes env (singleQuote value) value := by
  refine ⟨quoted value, lexes_singleQuote value, ?_⟩
  rw [expand, tilde_of_ne, pathname_of_forall]
  · rw [chars_quoted]
  · intro m hm
    obtain ⟨c, -, rfl⟩ := List.mem_map.mp hm
    rfl
  · cases value <;> simp [quoted]

end IsekaiTerminal.Lib.Shell
