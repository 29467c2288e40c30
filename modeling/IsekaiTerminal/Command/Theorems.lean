import IsekaiTerminal.Command.Line
import IsekaiTerminal.Lib.Shell

/-!
# 生成するコマンド列の補題

引用しない列と引用した列のどちらも、もとの値を表す引数になることを示し、数の読み書きと合わせて列の全体を読む。
-/

namespace IsekaiTerminal.Command

open Lib Lib.Shell

/-! ## 引用 -/

theorem shellQuote_eq (value : List Char) : shellQuote value = singleQuote value := by
  rw [shellQuote]
  split
  · next hnil => rw [hnil]; rfl
  · rfl

theorem denotes_shellQuote (env : Env) (value : List Char) : Denotes env (shellQuote value) value := by
  rw [shellQuote_eq]
  exact denotes_singleQuote env value

theorem isOrdinary_of_safe {c : Char} {allowed : List Char} (hallowed : ∀ c ∈ allowed, isOrdinary c = true)
    (h : (c.isAlphanum || c ∈ allowed) = true) : isOrdinary c = true := by
  rcases Bool.or_eq_true_iff.mp h with halnum | hmem
  · exact isOrdinary_of_isAlphanum halnum
  · exact hallowed c (by simpa using hmem)

theorem isOrdinary_bareWord : ∀ c ∈ ['.', '_', '-', ':', '@', '~'], isOrdinary c = true := by
  simp [isOrdinary, isBlank, isSpecial]

theorem isOrdinary_filePath : ∀ c ∈ ['-', '_', '.', '/', ':', '~'], isOrdinary c = true := by
  simp [isOrdinary, isBlank, isSpecial]

theorem denotes_of_isSafeBareWord {env : Env} {value extra : List Char} (hextra : ∀ c ∈ extra, isOrdinary c = true)
    (h : isSafeBareWord value extra = true) : Denotes env value value := by
  simp only [isSafeBareWord, Bool.and_eq_true, Bool.not_eq_true', List.isEmpty_eq_false_iff, decide_eq_true_eq,
    List.all_eq_true] at h
  obtain ⟨⟨hne, htilde⟩, hall⟩ := h
  refine denotes_ordinary hne htilde fun c hc => ?_
  have hchar := hall c hc
  rw [Bool.or_assoc] at hchar
  have hallowed : ∀ d ∈ ['.', '_', '-', ':', '@', '~'] ++ extra, isOrdinary d = true := by
    simp only [List.mem_append]
    rintro d (hd | hd)
    · exact isOrdinary_bareWord d hd
    · exact hextra d hd
  refine isOrdinary_of_safe hallowed ?_
  simpa [or_assoc] using hchar

theorem denotes_quoteProxyCommandArg (env : Env) (value : List Char) : Denotes env (quoteProxyCommandArg value) value := by
  rw [quoteProxyCommandArg]
  split
  · next hsafe => exact denotes_of_isSafeBareWord (by simp) hsafe
  · exact denotes_shellQuote env value

theorem denotes_quoteProxyCommandPath (env : Env) (path : List Char) : Denotes env (quoteProxyCommandPath path) path := by
  rw [quoteProxyCommandPath]
  split
  · next hsafe => exact denotes_of_isSafeBareWord (by simp [isOrdinary, isBlank, isSpecial]) hsafe
  · exact denotes_shellQuote env path

/-- `~` で始まらない引数は、引用しなくてもそれ自身を表す。 -/
theorem denotes_fileShellQuote (env : Env) {arg : List Char} (htilde : arg.head? ≠ some '~') :
    Denotes env (FilePreview.shellQuote arg) arg := by
  rw [FilePreview.shellQuote]
  split
  · next hsafe =>
      simp only [Bool.and_eq_true, Bool.not_eq_true', List.isEmpty_eq_false_iff, List.all_eq_true] at hsafe
      obtain ⟨hne, hall⟩ := hsafe
      exact denotes_ordinary hne htilde fun c hc => isOrdinary_of_safe isOrdinary_filePath (hall c hc)
  · exact denotes_singleQuote env arg

/-! ## `%` の展開 -/

theorem percentExpand_escape (tokens : Char → Option (List Char)) (value rest : List Char) :
    percentExpand tokens (escapeSshPercentTokens value ++ rest) = (percentExpand tokens rest).map (value ++ ·) := by
  induction value with
  | nil => simp [escapeSshPercentTokens]
  | cons c value ih =>
      rw [escapeSshPercentTokens, List.flatMap_cons, ← escapeSshPercentTokens, List.append_assoc]
      by_cases hc : c = '%'
      · subst hc
        rw [if_pos rfl]
        simp [percentExpand, ih, Function.comp_def]
      · rw [if_neg hc, List.singleton_append]
        have hstep (tail : List Char) : percentExpand tokens (c :: tail) = (percentExpand tokens tail).map (c :: ·) := by
          cases tail <;> simp [percentExpand, hc]
        rw [hstep, ih]
        simp [Function.comp_def]

theorem escape_of_notMem {value : List Char} (h : '%' ∉ value) : escapeSshPercentTokens value = value := by
  induction value with
  | nil => rfl
  | cons c value ih =>
      simp only [List.mem_cons, not_or] at h
      rw [escapeSshPercentTokens, List.flatMap_cons, ← escapeSshPercentTokens, ih h.2, if_neg (Ne.symm h.1)]
      rfl

theorem escape_append (xs ys : List Char) :
    escapeSshPercentTokens (xs ++ ys) = escapeSshPercentTokens xs ++ escapeSshPercentTokens ys := List.flatMap_append

/-- `%` の展開は、引用した列をそのまま返す。 -/
theorem percentExpand_proxyCommand (tokens : Char → Option (List Char)) (pipePath profile : List Char) :
    percentExpand tokens (proxyCommand pipePath profile) =
      some (quoteProxyCommandPath pipePath ++ " connect --profile ".toList ++ quoteProxyCommandArg profile ++
        " --service ssh --stdio".toList) := by
  have hline : proxyCommand pipePath profile = escapeSshPercentTokens
      (quoteProxyCommandPath pipePath ++ " connect --profile ".toList ++ quoteProxyCommandArg profile ++
        " --service ssh --stdio".toList) := by
    have hconnect : '%' ∉ " connect --profile ".toList := by decide
    have hservice : '%' ∉ " --service ssh --stdio".toList := by decide
    rw [escape_append, escape_append, escape_append, escape_of_notMem hconnect, escape_of_notMem hservice, proxyCommand]
  rw [hline, ← List.append_nil (escapeSshPercentTokens _), percentExpand_escape]
  simp [percentExpand]

/-! ## コマンド列 -/

theorem denotes_word {env : Env} {word : List Char} (h : isSafeBareWord word [] = true) : Denotes env word word :=
  denotes_of_isSafeBareWord (by simp) h

/-- `connect` の引数の列。 -/
def connectArguments (pipePath profile : List Char) : List (List Char) :=
  [pipePath, "connect".toList, "--profile".toList, profile, "--service".toList, "ssh".toList, "--stdio".toList]

theorem arguments_proxyCommand (env : Env) (tokens : Char → Option (List Char)) (pipePath profile : List Char) :
    (percentExpand tokens (proxyCommand pipePath profile)).bind (arguments env) =
      some (connectArguments pipePath profile) := by
  have hline : quoteProxyCommandPath pipePath ++ " connect --profile ".toList ++ quoteProxyCommandArg profile ++
      " --service ssh --stdio".toList = List.intercalate [' '] [quoteProxyCommandPath pipePath, "connect".toList,
        "--profile".toList, quoteProxyCommandArg profile, "--service".toList, "ssh".toList, "--stdio".toList] := by
    simp [List.intercalate]
  rw [percentExpand_proxyCommand, Option.bind_some, hline]
  refine arguments_intercalate ?_
  exact .cons (denotes_quoteProxyCommandPath env pipePath) (.cons (denotes_word rfl) (.cons (denotes_word rfl)
    (.cons (denotes_quoteProxyCommandArg env profile) (.cons (denotes_word rfl) (.cons (denotes_word rfl)
      (.cons (denotes_word rfl) .nil))))))

/-- `tty attach` の引数の列。 -/
def attachArguments (name : List Char) : List (List Char) :=
  ["isekai-pipe".toList, "tty".toList, "attach".toList, name]

theorem attach_intercalate (text : List Char) : "isekai-pipe tty attach ".toList ++ text =
    List.intercalate [' '] ["isekai-pipe".toList, "tty".toList, "attach".toList, text] := by
  simp [List.intercalate]

theorem arguments_attachCommand (env : Env) (name : List Char) :
    arguments env (attachCommand name) = some (attachArguments name) := by
  have hline : attachCommand name = List.intercalate [' '] ["isekai-pipe".toList, "tty".toList, "attach".toList,
      shellQuote name] := attach_intercalate (shellQuote name)
  rw [hline]
  refine arguments_intercalate ?_
  exact .cons (denotes_word rfl) (.cons (denotes_word rfl) (.cons (denotes_word rfl)
    (.cons (denotes_shellQuote env name) .nil)))

theorem forall₂_denotes (env : Env) {args : List (List Char)} (h : ∀ arg ∈ args, arg.head? ≠ some '~') :
    List.Forall₂ (Denotes env) (args.map FilePreview.shellQuote) args := by
  rw [List.forall₂_map_left_iff, List.forall₂_same]
  exact fun arg hmem => denotes_fileShellQuote env (h arg hmem)

/-! ## 数 -/

theorem isDigit_of_mem_decimal {n : UInt64} {c : Char} (h : c ∈ FilePreview.decimal n) : c.isDigit = true :=
  Nat.isDigit_of_mem_toDigits (by decide) (by decide) h

theorem head?_decimal (n : UInt64) {c : Char} (hc : c.isDigit = false) : (FilePreview.decimal n).head? ≠ some c := by
  intro hhead
  rw [isDigit_of_mem_decimal (List.mem_of_head? hhead)] at hc
  cases hc

theorem parseU64_decimal (n : UInt64) (command flag : String) : parseU64 command flag (FilePreview.decimal n) = .ok n := by
  have hdigits : (FilePreview.decimal n).all Char.isDigit = true := by
    simpa using fun c hc => isDigit_of_mem_decimal hc
  have hvalue : Nat.ofDigitChars 10 (FilePreview.decimal n) 0 = n.toNat := by
    rw [FilePreview.decimal, Nat.ofDigitChars_ten_toDigits]
  have hparse : parseU64? (FilePreview.decimal n) = some n := by
    rw [parseU64?, if_neg (head?_decimal n rfl)]
    simp only [hvalue, hdigits]
    rw [if_pos ⟨Nat.toDigits_ne_nil, trivial, n.toNat_lt⟩, UInt64.ofNat_toNat]
  rw [parseU64, hparse]

/-! ## 受け取る側 -/

/-- パスが、`cat` のフラグと同じ列である。 -/
def TakenAsFlag : FilePreviewRequestKind → Prop
  | .cat path _ _ => path = "--offset".toList ∨ path = "--length".toList
  | _ => False

/-- 要求どおりの起動。 -/
def FilePreviewRequestKind.launch : FilePreviewRequestKind → FileLaunch
  | .ls path => .ls path
  | .cat path offset length => .cat path offset length
  | .info path => .info path

theorem parseCat_flags (offset : UInt64) (length : Option UInt64) (path : List Char) :
    parseCat (["--offset".toList, FilePreview.decimal offset] ++
        length.elim [] fun length => ["--length".toList, FilePreview.decimal length]) ⟨some path, 0, none⟩ = .ok ⟨some path, offset, length⟩ := by
  cases length with
  | none => simp [parseCat, parseU64_decimal, bind, Except.bind]
  | some length => simp [parseCat, parseU64_decimal, bind, Except.bind]

theorem parseCat_path {path : List Char} (hoffset : path ≠ "--offset".toList) (hlength : path ≠ "--length".toList)
    (args : List (List Char)) : parseCat (path :: args) ⟨none, 0, none⟩ = parseCat args ⟨some path, 0, none⟩ := by
  rw [parseCat.eq_def]
  simp only [if_neg hoffset, if_neg hlength, Option.isNone_none, if_true]

theorem parseFile_of_not_takenAsFlag {kind : FilePreviewRequestKind} (h : ¬TakenAsFlag kind) :
    parseFile (FilePreview.arguments kind) = .ok (some kind.launch) := by
  cases kind with
  | ls path => rfl
  | info path => rfl
  | cat path offset length =>
      obtain ⟨hoffset, hlength⟩ := not_or.mp h
      rw [FilePreview.arguments, List.cons_append, parseFile, if_neg (by decide), if_neg (by decide), if_pos rfl,
        List.cons_append, parseCat_path hoffset hlength, parseCat_flags]
      rfl

/-- フラグに見えるパスは、値の無いフラグか、数でない値になる。 -/
theorem parseFile_of_takenAsFlag {kind : FilePreviewRequestKind} (h : TakenAsFlag kind) :
    ∃ e, parseFile (FilePreview.arguments kind) = .error e := by
  cases kind with
  | ls path => exact absurd h id
  | info path => exact absurd h id
  | cat path offset length =>
      rcases h with rfl | rfl
      · exact ⟨_, rfl⟩
      · exact ⟨_, rfl⟩

/-!
## 生成するコマンド列の性質

シェルを通した後の引数の列が、意図した引数の列であり、受け取る側が要求どおりに読むことを示す。
受け取る側が要求どおりに読まないのは、`cat` のパスがフラグと同じ列であるときだけである。
-/

def FilePreviewRequestKind.path : FilePreviewRequestKind → List Char
  | .ls path => path
  | .cat path _ _ => path
  | .info path => path

/-- どの利用者のホームとどのディレクトリの内容でも、生成した列が意図した引数に戻る。 -/
structure Reparses (env : Env) (tokens : Char → Option (List Char)) (pipePath profile name : List Char)
    (kind : FilePreviewRequestKind) : Prop where
  proxy : (percentExpand tokens (proxyCommand pipePath profile)).bind (arguments env) =
    some [pipePath, "connect".toList, "--profile".toList, profile, "--service".toList, "ssh".toList, "--stdio".toList]
  attach : arguments env (attachCommand name) = some ["isekai-pipe".toList, "tty".toList, "attach".toList, name]
  file : ∃ args, arguments env (FilePreview.buildCommandLine kind) =
      some ("isekai-pipe".toList :: "ctl".toList :: "file".toList :: args) ∧
    parseFile args = .ok (some kind.launch)

theorem head?_of_mem_arguments {kind : FilePreviewRequestKind} (htilde : kind.path.head? ≠ some '~') :
    ∀ arg ∈ FilePreview.arguments kind, arg.head? ≠ some '~' := by
  cases kind with
  | ls path => simpa [FilePreview.arguments, FilePreviewRequestKind.path] using htilde
  | info path => simpa [FilePreview.arguments, FilePreviewRequestKind.path] using htilde
  | cat path offset length =>
      have hoffset := head?_decimal offset (c := '~') rfl
      have hpath : path.head? ≠ some '~' := htilde
      cases length with
      | none => simp [FilePreview.arguments, hpath, hoffset]
      | some length => simp [FilePreview.arguments, hpath, hoffset, head?_decimal length (c := '~') rfl]

theorem arguments_buildCommandLine (env : Env) {kind : FilePreviewRequestKind} (htilde : kind.path.head? ≠ some '~') :
    arguments env (FilePreview.buildCommandLine kind) =
      some (["isekai-pipe".toList, "ctl".toList, "file".toList] ++ FilePreview.arguments kind) := by
  refine arguments_intercalate (forall₂_denotes env fun arg hmem => ?_)
  rcases List.mem_append.mp hmem with hword | harg
  · have hwords : ∀ word ∈ ["isekai-pipe".toList, "ctl".toList, "file".toList], word.head? ≠ some '~' := by simp
    exact hwords arg hword
  · exact head?_of_mem_arguments htilde arg harg

theorem reparses_iff (env : Env) (tokens : Char → Option (List Char)) (pipePath profile name : List Char)
    (kind : FilePreviewRequestKind) (htilde : kind.path.head? ≠ some '~') :
    Reparses env tokens pipePath profile name kind ↔ ¬TakenAsFlag kind := by
  have hline := arguments_buildCommandLine env htilde
  constructor
  · rintro ⟨-, -, args, hargs, hparse⟩ hflag
    obtain ⟨e, herror⟩ := parseFile_of_takenAsFlag hflag
    rw [hline] at hargs
    obtain rfl : FilePreview.arguments kind = args := by simpa using hargs
    rw [herror] at hparse
    cases hparse
  · intro hflag
    exact ⟨arguments_proxyCommand env tokens pipePath profile, arguments_attachCommand env name, _, hline,
      parseFile_of_not_takenAsFlag hflag⟩

/-- パス名の展開が何にも合わず、ホームの無い環境。 -/
def emptyEnv : Env := ⟨fun _ => none, fun _ => []⟩

/-- 引用符とシェルの演算子を含む値の例。 -/
theorem reparses_hostile : Reparses emptyEnv (fun _ => none) "/opt/it's/100%".toList "a;b".toList "$(x)".toList
    (.cat "*'--offset".toList 5 (some 7)) :=
  (reparses_iff _ _ _ _ _ _ (by decide)).mpr (by simp [TakenAsFlag])

/-- `--offset` という名前のファイルの `cat` は、値が数でないフラグとして拒否される。 -/
theorem not_reparses_offset :
    arguments emptyEnv (FilePreview.buildCommandLine (.cat "--offset".toList 0 none)) =
        some ["isekai-pipe".toList, "ctl".toList, "file".toList, "cat".toList, "--offset".toList, "--offset".toList, "0".toList] ∧
      parseFile ["cat".toList, "--offset".toList, "--offset".toList, "0".toList] =
        .error (.notInteger "cat" "--offset" "--offset".toList) ∧
      ¬Reparses emptyEnv (fun _ => none) [] [] [] (.cat "--offset".toList 0 none) := by
  have hline : arguments emptyEnv (FilePreview.buildCommandLine (.cat "--offset".toList 0 none)) =
      some ["isekai-pipe".toList, "ctl".toList, "file".toList, "cat".toList, "--offset".toList, "--offset".toList,
        "0".toList] := arguments_buildCommandLine emptyEnv (by decide)
  refine ⟨hline, rfl, ?_⟩
  rintro ⟨-, -, args, hargs, hparse⟩
  rw [hline, Option.some.injEq] at hargs
  cases hargs
  cases hparse

end IsekaiTerminal.Command
