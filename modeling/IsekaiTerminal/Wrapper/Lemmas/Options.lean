import IsekaiTerminal.Wrapper.Reference

/-!
# 宛先の前のオプション

宛先の前のオプションの歩みと、宛先の位置、値を離して書いた引数の列の形を述べる。
-/

namespace IsekaiTerminal.Wrapper

open Lib
open SshConfig (Text Env)

/-! ## オプションの形 -/

theorem isOptionArg_iff {arg : Text} :
    isOptionArg arg = true ↔ ¬ (arg = "--".toList ∨ arg.head? ≠ some '-' ∨ arg = "-".toList) := by
  simp only [isOptionArg, Bool.and_eq_true, decide_eq_true_eq]
  constructor
  · rintro ⟨⟨hh, h1⟩, h2⟩ (h | h | h)
    · exact h2 h
    · exact h hh
    · exact h1 h
  · intro h
    simp only [not_or, not_not] at h
    exact ⟨⟨h.2.1, h.2.2⟩, h.1⟩

theorem cons_tail_of_isOptionArg {arg : Text} (h : isOptionArg arg = true) : arg = '-' :: arg.tail := by
  cases arg with
  | nil => simp [isOptionArg] at h
  | cons a arg =>
      simp only [isOptionArg, List.head?_cons, Option.some.injEq, Bool.and_eq_true, decide_eq_true_eq] at h
      rw [h.1.1, List.tail_cons]

theorem sshOptionWidth_of_letter {c : Char} (h : isValueLetter c = true) : sshOptionWidth ['-', c] = 2 := by
  have hmem : ['-', c] ∈ valueLetters.map fun c => ['-', c] :=
    List.mem_map.mpr ⟨c, by simpa [isValueLetter] using h, rfl⟩
  rw [sshOptionWidth, if_pos hmem]

theorem sshOptionWidth_eq_one {arg : Text} (h : ∀ c, isValueLetter c = true → arg ≠ ['-', c]) : sshOptionWidth arg = 1 := by
  have hmem : arg ∉ valueLetters.map fun c => ['-', c] := by
    intro hmem
    obtain ⟨c, hc, rfl⟩ := List.mem_map.mp hmem
    exact h c (by simpa [isValueLetter] using hc) rfl
  rw [sshOptionWidth, if_neg hmem]

/-- 値を取る文字の無い引数は、値を取らない。 -/
theorem sshOptionWidth_of_flags {arg : Text} {flags : List Char} (hb : bundle isValueLetter arg.tail = (flags, none)) :
    sshOptionWidth arg = 1 := by
  refine sshOptionWidth_eq_one fun c hc harg => ?_
  subst harg
  simp [bundle, hc] at hb

/-- 値を付けた引数は、次の引数を値としない。 -/
theorem sshOptionWidth_of_attached {arg : Text} {flags attached : List Char} {c a : Char}
    (hb : bundle isValueLetter arg.tail = (flags, some (c, a :: attached))) : sshOptionWidth arg = 1 := by
  refine sshOptionWidth_eq_one fun d hd harg => ?_
  subst harg
  simp [bundle, hd] at hb

/-! ## 歩み -/

/-- 全てがオプションとその値である引数の列と、読んだ組の列。 -/
inductive Walked : List Text → List (Text × Option Text) → Prop
  | nil : Walked [] []
  | flag {arg rest options} (harg : isOptionArg arg = true) (hw : sshOptionWidth arg = 1) (h : Walked rest options) :
      Walked (arg :: rest) ((arg, none) :: options)
  | value {c value rest options} (hc : isValueLetter c = true) (h : Walked rest options) :
      Walked (['-', c] :: value :: rest) ((['-', c], some value) :: options)

theorem isOptionArg_of_letter {c : Char} (h : isValueLetter c = true) : isOptionArg ['-', c] = true := by
  have hc : c ≠ '-' := by
    rintro rfl
    exact absurd h (by decide)
  simp [isOptionArg, hc]

theorem sshOptions_flag {arg : Text} (harg : isOptionArg arg = true) (hw : sshOptionWidth arg = 1) (rest : List Text) :
    sshOptionsBeforeDestination (arg :: rest) =
      ((arg, none) :: (sshOptionsBeforeDestination rest).1, (sshOptionsBeforeDestination rest).2 + 1) := by
  rw [sshOptionsBeforeDestination.eq_def]
  simp only
  rw [if_neg (isOptionArg_iff.mp harg), hw, if_neg (by decide)]

theorem sshOptions_value {c : Char} (hc : isValueLetter c = true) (value : Text) (rest : List Text) :
    sshOptionsBeforeDestination (['-', c] :: value :: rest) =
      ((['-', c], some value) :: (sshOptionsBeforeDestination rest).1, (sshOptionsBeforeDestination rest).2 + 2) := by
  rw [sshOptionsBeforeDestination, if_neg (isOptionArg_iff.mp (isOptionArg_of_letter hc)),
    if_pos (sshOptionWidth_of_letter hc)]

theorem sshOptions_stop {arg : Text} (harg : isOptionArg arg = false) (rest : List Text) :
    sshOptionsBeforeDestination (arg :: rest) = ([], 0) := by
  have hstop : arg = "--".toList ∨ arg.head? ≠ some '-' ∨ arg = "-".toList := by
    by_contra h
    rw [isOptionArg_iff.mpr h] at harg
    cases harg
  rw [sshOptionsBeforeDestination.eq_def]
  simp only
  rw [if_pos hstop]

/-- 歩みは、読んだ列の先から続く。 -/
theorem Walked.append {pre : List Text} {options : List (Text × Option Text)} (h : Walked pre options) (ys : List Text) :
    sshOptionsBeforeDestination (pre ++ ys) =
      (options ++ (sshOptionsBeforeDestination ys).1, pre.length + (sshOptionsBeforeDestination ys).2) := by
  induction h with
  | nil => simp
  | flag harg hw _ ih =>
      rw [List.cons_append, sshOptions_flag harg hw, ih]
      simp only [List.cons_append, List.length_cons, Prod.mk.injEq, true_and]
      omega
  | value hc _ ih =>
      rw [List.cons_append, List.cons_append, sshOptions_value hc, ih]
      simp only [List.cons_append, List.length_cons, Prod.mk.injEq, true_and]
      omega

theorem Walked.trans {xs ys : List Text} {os ps : List (Text × Option Text)} (hx : Walked xs os) (hy : Walked ys ps) :
    Walked (xs ++ ys) (os ++ ps) := by
  induction hx with
  | nil => exact hy
  | flag harg hw _ ih => exact .flag harg hw ih
  | value hc _ ih => exact .value hc ih

/-! ## 宛先の位置 -/

/-- オプションだけの列には、宛先が無い。 -/
theorem Walked.findDestinationIndex {pre : List Text} {options : List (Text × Option Text)} (h : Walked pre options) :
    findDestinationIndex pre = none := by
  have hw := h.append []
  rw [List.append_nil] at hw
  simp [Wrapper.findDestinationIndex, hw, sshOptionsBeforeDestination]

/-- 宛先の前の `--` と、宛先からの列。 -/
inductive StopsAt : List Text → List Text → Prop
  | operand {arg rest} (h : isOptionArg arg = false) (hne : arg ≠ "--".toList) : StopsAt [] (arg :: rest)
  | dashdash {arg rest} : StopsAt ["--".toList] (arg :: rest)

theorem StopsAt.append {stop operands : List Text} (h : StopsAt stop operands) (ys : List Text) :
    StopsAt stop (operands ++ ys) := by
  cases h with
  | operand h hne => exact .operand h hne
  | dashdash => exact .dashdash

theorem StopsAt.sshOptions {stop operands : List Text} (h : StopsAt stop operands) :
    sshOptionsBeforeDestination (stop ++ operands) = ([], 0) := by
  cases h with
  | operand h _ => exact sshOptions_stop h _
  | dashdash => exact sshOptions_stop (by decide) _

theorem Walked.findDestinationIndex_stop {pre stop operands : List Text} {options : List (Text × Option Text)}
    (h : Walked pre options) (hs : StopsAt stop operands) :
    Wrapper.findDestinationIndex (pre ++ (stop ++ operands)) = some (pre.length + stop.length) := by
  have hw := h.append (stop ++ operands)
  rw [hs.sshOptions] at hw
  rw [Wrapper.findDestinationIndex, hw]
  cases hs with
  | @operand arg _ _ hne =>
      have hne : arg ≠ ['-', '-'] := hne
      simp [hne]
  | dashdash => simp

theorem Walked.sshOptions_stop {pre stop operands : List Text} {options : List (Text × Option Text)}
    (h : Walked pre options) (hs : StopsAt stop operands) :
    (sshOptionsBeforeDestination (pre ++ (stop ++ operands))).1 = options := by
  rw [h.append, hs.sshOptions, List.append_nil]

/-- 値の足りないオプションの後にも、宛先は無い。 -/
theorem Walked.findDestinationIndex_last {pre : List Text} {options : List (Text × Option Text)} (h : Walked pre options)
    {arg : Text} (harg : isOptionArg arg = true) : Wrapper.findDestinationIndex (pre ++ [arg]) = none := by
  have hw := h.append [arg]
  have hlen : 1 ≤ (sshOptionsBeforeDestination [arg]).2 := by
    rw [sshOptionsBeforeDestination, if_neg (isOptionArg_iff.mp harg)]
    split <;> simp [sshOptionsBeforeDestination]
  have hget : (pre ++ [arg])[pre.length + (sshOptionsBeforeDestination [arg]).2]? = none := by
    rw [List.getElem?_eq_none_iff, List.length_append, List.length_singleton]
    omega
  simp [Wrapper.findDestinationIndex, hw, hget]

/-! ## 引数の列の形 -/

/-- 受け付けない `--isekai-tty=` の組。 -/
def refusedOption : IsekaiOption × Option Text := (.ttyNamed [], none)

/-- 値を離して書いた引数の列と、取り除いたオプション、残る引数、getopt の結果。 -/
inductive Plain : List Text → List (IsekaiOption × Option Text) → List Text → Parsed → Prop
  | nil : Plain [] [] [] ⟨[], []⟩
  | dashdash {rest} (h : ∀ v, rest.head? = some v → IsekaiOption.ofArg? v = none) :
      Plain (['-', '-'] :: rest) [] (['-', '-'] :: rest) ⟨[], rest⟩
  | operand {arg rest} (harg : isOptionArg arg = false) (hne : arg ≠ ['-', '-']) :
      Plain (arg :: rest) [] (arg :: rest) ⟨[], arg :: rest⟩
  | isekaiMissing {arg option} (ho : IsekaiOption.ofArg? arg = some option) (hv : option.takesValue = true) :
      Plain [arg] [(option, none)] [] ⟨[], []⟩
  | isekaiRefused {arg rest isekai kept p} (ho : IsekaiOption.ofArg? arg = some (.ttyNamed [])) :
      Plain (arg :: rest) (refusedOption :: isekai) kept p
  | isekaiValue {arg option value rest isekai kept p} (ho : IsekaiOption.ofArg? arg = some option)
      (hv : option.takesValue = true) (h : Plain rest isekai kept p) :
      Plain (arg :: value :: rest) ((option, some value) :: isekai) kept p
  | isekaiFlag {arg option rest isekai kept p} (ho : IsekaiOption.ofArg? arg = some option)
      (hv : option.takesValue = false) (h : Plain rest isekai kept p) :
      Plain (arg :: rest) ((option, none) :: isekai) kept p
  | flags {arg flags rest isekai kept p} (harg : isOptionArg arg = true) (ho : IsekaiOption.ofArg? arg = none)
      (hb : bundle isValueLetter arg.tail = (flags, none)) (h : Plain rest isekai kept p) :
      Plain (arg :: rest) isekai (arg :: kept) (p.prepend (flagOptions flags))
  | valueMissing {arg flags c} (harg : isOptionArg arg = true) (ho : IsekaiOption.ofArg? arg = none)
      (hb : bundle isValueLetter arg.tail = (flags, some (c, []))) :
      Plain [arg] [] [arg] ⟨flagOptions flags ++ [(c, none)], []⟩
  | value {c value rest isekai kept p} (hc : isValueLetter c = true) (ho : IsekaiOption.ofArg? ['-', c] = none)
      (hov : IsekaiOption.ofArg? value = none) (h : Plain rest isekai kept p) :
      Plain (['-', c] :: value :: rest) isekai (['-', c] :: value :: kept) (p.prepend [(c, some value)])
  | attached {arg flags c a attached rest isekai kept p} (harg : isOptionArg arg = true)
      (ho : IsekaiOption.ofArg? arg = none) (hb : bundle isValueLetter arg.tail = (flags, some (c, a :: attached)))
      (h : Plain rest isekai kept p) :
      Plain (arg :: rest) isekai (arg :: kept) (p.prepend (flagOptions flags ++ [(c, some (a :: attached))]))

theorem plain_of_spaced {args : List Text} (h : spaced args = true) :
    Plain args (splitWrapper args).1 (splitWrapper args).2 (parsedArgs (splitWrapper args).2) := by
  unfold parsedArgs
  fun_induction spaced args with
  | case1 => exact .nil
  | case2 rest =>
      have hs : splitWrapper (['-', '-'] :: rest) = ([], ['-', '-'] :: rest) := by
        rw [splitWrapper.eq_def]
        simp [isOptionArg]
      rw [hs, getopt_dashdash]
      refine .dashdash fun v hv => ?_
      simpa [hv] using h
  | case3 arg _ harg option ho hv =>
      have hs : splitWrapper [arg] = ([(option, none)], []) := by
        rw [splitWrapper.eq_def]
        simp [harg, ho, hv]
      rw [hs]
      exact .isekaiMissing ho hv
  | case4 arg _ harg option ho hv value rest ih =>
      have hs : splitWrapper (arg :: value :: rest) =
          ((option, some value) :: (splitWrapper rest).1, (splitWrapper rest).2) := by
        rw [splitWrapper.eq_def]
        simp [harg, ho, hv]
      rw [hs]
      exact .isekaiValue ho hv (ih h)
  | case5 arg rest _ harg ho hv =>
      have hs : splitWrapper (arg :: rest) = (refusedOption :: (splitWrapper rest).1, (splitWrapper rest).2) := by
        rw [splitWrapper.eq_def]
        simp [harg, ho, hv, refusedOption]
      rw [hs]
      exact .isekaiRefused ho
  | case6 arg rest _ harg option ho hv _ ih =>
      have hs : splitWrapper (arg :: rest) = ((option, none) :: (splitWrapper rest).1, (splitWrapper rest).2) := by
        rw [splitWrapper.eq_def]
        simp [harg, ho, hv]
      rw [hs]
      exact .isekaiFlag ho (Bool.eq_false_iff.mpr hv) (ih h)
  | case7 arg _ harg ho flags c hb =>
      have hs : splitWrapper [arg] = ([], [arg]) := by
        rw [splitWrapper.eq_def]
        simp [harg, ho, hb]
      rw [hs, getopt_valueMissing harg hb]
      exact .valueMissing harg ho hb
  | case8 arg _ harg ho flags c hb value rest ih =>
      have hs : splitWrapper (arg :: value :: rest) = ((splitWrapper rest).1, arg :: value :: (splitWrapper rest).2) := by
        rw [splitWrapper.eq_def]
        simp [harg, ho, hb]
      simp only [Bool.and_eq_true, List.isEmpty_iff, Option.isNone_iff_eq_none] at h
      obtain ⟨⟨rfl, hov⟩, h⟩ := h
      have harg_eq : arg = ['-', c] := by
        have htail := bundle_eq isValueLetter arg.tail
        rw [hb] at htail
        rw [cons_tail_of_isOptionArg harg, htail]
        rfl
      have hb2 : (bundle isValueLetter arg.tail).2 = some (c, []) := by rw [hb]
      have hc : isValueLetter c = true := takesValue_of_bundle hb2
      rw [hs, getopt_value harg hb]
      subst harg_eq
      exact .value hc ho hov (ih h)
  | case9 arg rest _ harg ho hnot ih =>
      rcases hb : bundle isValueLetter arg.tail with ⟨flags, _ | ⟨c, _ | ⟨a, attached⟩⟩⟩
      · have hs : splitWrapper (arg :: rest) = ((splitWrapper rest).1, arg :: (splitWrapper rest).2) := by
          rw [splitWrapper.eq_def]
          simp [harg, ho, hb]
        rw [hs, getopt_flags harg hb]
        exact .flags harg ho hb (ih h)
      · exact absurd hb (hnot flags c)
      · have hs : splitWrapper (arg :: rest) = ((splitWrapper rest).1, arg :: (splitWrapper rest).2) := by
          rw [splitWrapper.eq_def]
          simp [harg, ho, hb]
        rw [hs, getopt_attached harg hb]
        exact .attached harg ho hb (ih h)
  | case10 arg rest hne harg =>
      have harg := Bool.eq_false_iff.mpr harg
      have hs : splitWrapper (arg :: rest) = ([], arg :: rest) := by
        rw [splitWrapper.eq_def]
        simp [harg]
      rw [hs, getopt_operand harg hne]
      exact .operand harg hne

/-! ## `--isekai-*` を取り除く繰り返し -/

theorem isOptionArg_long {c : Char} {name : List Char} :
    isOptionArg (String.ofList ('-' :: '-' :: c :: name)).toList = true := by
  rw [String.toList_ofList]
  simp [isOptionArg]

theorem isOptionArg_of_mem_words : ∀ w ∈ IsekaiOption.words, isOptionArg w.1 = true := by
  simp only [IsekaiOption.words, List.forall_mem_cons, -String.reduceToList]
  refine ⟨?_, ?_, ?_, ?_, ?_, ?_, ?_, ?_, ?_, ?_, ?_, ?_, fun w h => by cases h⟩ <;> exact isOptionArg_long

/-- `--isekai-*` の引数は、オプションである。 -/
theorem isOptionArg_of_ofArg? {arg : Text} {option : IsekaiOption} (h : IsekaiOption.ofArg? arg = some option) :
    isOptionArg arg = true := by
  unfold IsekaiOption.ofArg? at h
  split at h
  · next o hl =>
      rw [List.lookup_eq_some_iff] at hl
      obtain ⟨before, after, hl, _⟩ := hl
      exact isOptionArg_of_mem_words (arg, o) (by rw [hl]; simp)
  · split at h
    · next hp =>
        obtain ⟨name, rfl⟩ := List.isPrefixOf_iff_prefix.mp hp
        simp [isOptionArg]
    · cases h

theorem ofArg?_eq_none {arg : Text} (h : isOptionArg arg = false) : IsekaiOption.ofArg? arg = none := by
  cases ho : IsekaiOption.ofArg? arg with
  | none => rfl
  | some option =>
      rw [isOptionArg_of_ofArg? ho] at h
      cases h

theorem ofArg?_dashdash : IsekaiOption.ofArg? ['-', '-'] = none := ofArg?_eq_none (by simp [isOptionArg])

/-- 宛先の後の引数は、全て残る。 -/
theorem parseWrapperLoop_stop {pre stop operands : List Text} {options : List (Text × Option Text)}
    (hw : Walked pre options) (hs : StopsAt stop operands) (rest : List Text) (settings : Settings) :
    parseWrapperLoop rest settings (pre ++ (stop ++ operands)) = .ok (settings, pre ++ (stop ++ operands) ++ rest) := by
  induction rest generalizing operands with
  | nil => simp [parseWrapperLoop]
  | cons arg rest ih =>
      have hfound : (findDestinationIndex (pre ++ (stop ++ operands))).isSome = true := by
        rw [hw.findDestinationIndex_stop hs]
        rfl
      have happ : pre ++ (stop ++ operands) ++ [arg] = pre ++ (stop ++ (operands ++ [arg])) := by
        simp only [List.append_assoc]
      rw [parseWrapperLoop.eq_def]
      simp only
      rw [if_pos hfound, happ, ih (hs.append [arg])]
      simp only [List.append_assoc, List.singleton_append]

section
variable {arg : Text} {settings : Settings} {sshArgs : List Text}

/-- 宛先の前の、`--isekai-*` でない引数。 -/
theorem parseWrapperLoop_keep (hd : findDestinationIndex sshArgs = none) (ho : IsekaiOption.ofArg? arg = none)
    (rest : List Text) :
    parseWrapperLoop (arg :: rest) settings sshArgs = parseWrapperLoop rest settings (sshArgs ++ [arg]) := by
  rw [parseWrapperLoop.eq_def]
  simp [hd, ho]

theorem parseWrapperLoop_isekaiMissing {option : IsekaiOption} (hd : findDestinationIndex sshArgs = none)
    (ho : IsekaiOption.ofArg? arg = some option) (hv : option.takesValue = true) :
    parseWrapperLoop [arg] settings sshArgs = .error (.requiresValue option) := by
  rw [parseWrapperLoop.eq_def]
  simp [hd, ho, hv]

theorem parseWrapperLoop_isekaiValue {option : IsekaiOption} (hd : findDestinationIndex sshArgs = none)
    (ho : IsekaiOption.ofArg? arg = some option) (hv : option.takesValue = true) (value : Text) (rest : List Text) :
    parseWrapperLoop (arg :: value :: rest) settings sshArgs =
      (applyIsekai settings (option, some value)) >>= fun settings => parseWrapperLoop rest settings sshArgs := by
  rw [parseWrapperLoop.eq_def]
  simp only [hd, ho, hv, applyIsekai]
  cases settings.apply value option <;> rfl

theorem parseWrapperLoop_isekaiFlag {option : IsekaiOption} (hd : findDestinationIndex sshArgs = none)
    (ho : IsekaiOption.ofArg? arg = some option) (hv : option.takesValue = false) (rest : List Text) :
    parseWrapperLoop (arg :: rest) settings sshArgs =
      (applyIsekai settings (option, none)) >>= fun settings => parseWrapperLoop rest settings sshArgs := by
  rw [parseWrapperLoop.eq_def]
  simp only [hd, ho, hv, applyIsekai]
  cases settings.apply [] option <;> rfl

end

/-- 全てを受け付けた列には、受け付けない組が無い。 -/
theorem refusedOption_notMem {isekai : List (IsekaiOption × Option Text)} {settings result : Settings}
    (h : isekai.foldlM applyIsekai settings = .ok result) : refusedOption ∉ isekai := by
  induction isekai generalizing settings with
  | nil => simp
  | cons option isekai ih =>
      rw [List.foldlM_cons] at h
      cases hs : applyIsekai settings option with
      | error e => simp [hs, bind, Except.bind] at h
      | ok next =>
          have hne : refusedOption ≠ option := by
            rintro rfl
            cases hs
          rw [hs] at h
          exact List.not_mem_cons_of_ne_of_not_mem hne (ih h)

/-- 読んだ列の先で、繰り返しは `--isekai-*` のオプションを順に適用し、ほかの引数を全て残す。 -/
theorem Plain.loop {args kept : List Text} {isekai : List (IsekaiOption × Option Text)} {p : Parsed}
    (h : Plain args isekai kept p) {pre : List Text} {options : List (Text × Option Text)} (hw : Walked pre options)
    (settings : Settings) :
    parseWrapperLoop args settings pre = isekai.foldlM applyIsekai settings >>= fun s => .ok (s, pre ++ kept) := by
  induction h generalizing pre options settings with
  | nil => simp [parseWrapperLoop, pure, Except.pure, bind, Except.bind]
  | @dashdash rest hnone =>
      rw [parseWrapperLoop_keep hw.findDestinationIndex ofArg?_dashdash]
      cases rest with
      | nil => simp [parseWrapperLoop, pure, Except.pure, bind, Except.bind]
      | cons v rest =>
          have hd : findDestinationIndex (pre ++ [['-', '-']]) = none := by
            rw [findDestinationIndex, hw.append, sshOptions_stop (by decide)]
            simp
          have happ : pre ++ [['-', '-']] ++ [v] = pre ++ (["--".toList] ++ [v]) := by simp
          rw [parseWrapperLoop_keep hd (hnone v rfl), happ, parseWrapperLoop_stop hw .dashdash]
          simp [pure, Except.pure, bind, Except.bind]
  | @operand arg rest harg hne =>
      have happ : pre ++ [arg] = pre ++ ([] ++ [arg]) := rfl
      rw [parseWrapperLoop_keep hw.findDestinationIndex (ofArg?_eq_none harg), happ,
        parseWrapperLoop_stop hw (.operand harg hne)]
      simp [pure, Except.pure, bind, Except.bind]
  | isekaiMissing ho hv =>
      rw [parseWrapperLoop_isekaiMissing hw.findDestinationIndex ho hv]
      simp [applyIsekai, hv, bind, Except.bind]
  | isekaiRefused ho =>
      rw [parseWrapperLoop_isekaiFlag hw.findDestinationIndex ho rfl, List.foldlM_cons]
      rfl
  | isekaiValue ho hv _ ih =>
      rw [parseWrapperLoop_isekaiValue hw.findDestinationIndex ho hv, List.foldlM_cons, bind_assoc]
      exact bind_congr fun settings => ih hw settings
  | isekaiFlag ho hv _ ih =>
      rw [parseWrapperLoop_isekaiFlag hw.findDestinationIndex ho hv, List.foldlM_cons, bind_assoc]
      exact bind_congr fun settings => ih hw settings
  | flags harg ho hb _ ih =>
      rw [parseWrapperLoop_keep hw.findDestinationIndex ho,
        ih (hw.trans (.flag harg (sshOptionWidth_of_flags hb) .nil))]
      simp only [List.append_assoc, List.singleton_append]
  | valueMissing harg ho _ =>
      rw [parseWrapperLoop_keep hw.findDestinationIndex ho]
      simp [parseWrapperLoop, pure, Except.pure, bind, Except.bind]
  | @value c value _ _ _ _ hc ho hov _ ih =>
      have happ : pre ++ [['-', c]] ++ [value] = pre ++ [['-', c], value] := by simp
      rw [parseWrapperLoop_keep hw.findDestinationIndex ho,
        parseWrapperLoop_keep (hw.findDestinationIndex_last (isOptionArg_of_letter hc)) hov, happ,
        ih (hw.trans (.value hc .nil))]
      simp only [List.append_assoc, List.cons_append, List.nil_append]
  | attached harg ho hb _ ih =>
      rw [parseWrapperLoop_keep hw.findDestinationIndex ho,
        ih (hw.trans (.flag harg (sshOptionWidth_of_attached hb) .nil))]
      simp only [List.append_assoc, List.singleton_append]

end IsekaiTerminal.Wrapper
