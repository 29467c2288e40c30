import IsekaiTerminal.Wrapper.Lemmas.Options

/-!
# 上書きの読み方

上書きを 1 つの設定ごとに読み、宛先の前の列の 2 つの読み方が同じ値になることを示す。
-/

namespace IsekaiTerminal.Wrapper

open Lib
open SshConfig (Text Env)

variable {env : Env}

/-- `-X` の形の引数の文字。 -/
def letterOf : Text → Option Char
  | ['-', c] => some c
  | _ => none

@[simp] theorem letterOf_letter (c : Char) : letterOf ['-', c] = some c := rfl

theorem eq_letter_of_letterOf {arg : Text} {c : Char} (h : letterOf arg = some c) : arg = ['-', c] := by
  unfold letterOf at h
  split at h <;> simp_all

/-- `-X` の形のオプションの設定。 -/
def optionSetting (env : Env) (option : Text × Option Text) : Option Setting :=
  (letterOf option.1).bind fun c => settingOf env (c, option.2)

def CliOverrides.add (overrides : CliOverrides) : Setting → Except OverrideError CliOverrides
  | .hostName value => .ok { overrides with hostName := getOrInsert overrides.hostName value }
  | .user value => .ok { overrides with user := getOrInsert overrides.user value }
  | .port dashO value =>
      (parsePort (dashO, value)).map fun port => { overrides with port := getOrInsert overrides.port port }
  | .proxyJump value => .ok { overrides with proxyJump := getOrInsert overrides.proxyJump value }
  | .identityFile value => .ok { overrides with identityFile := overrides.identityFile ++ [value] }
  | .identityAgent value => .ok { overrides with identityAgent := getOrInsert overrides.identityAgent value }
  | .forwardAgent value => .ok { overrides with forwardAgent := getOrInsert overrides.forwardAgent value }

theorem applyDashOOverride_eq (overrides : CliOverrides) (token : Text) :
    applyDashOOverride env overrides token = (dashOSetting env token).elim (.ok overrides) overrides.add := by
  unfold applyDashOOverride dashOSetting
  cases splitDashO token with
  | none => rfl
  | some kv =>
      simp only
      split_ifs <;> first | rfl | simp only [Option.elim, CliOverrides.add, parsePort]
      cases SshConfig.parseU16 kv.2 <;> rfl

theorem settingOf_none (c : Char) : settingOf env (c, none) = none := rfl

theorem applyOption_eq (overrides : CliOverrides) (option : Text × Option Text) :
    applyOption env overrides option = (optionSetting env option).elim (.ok overrides) overrides.add := by
  obtain ⟨arg, value⟩ := option
  cases value with
  | none => cases h : letterOf arg <;> simp [applyOption, optionSetting, h, settingOf]
  | some v =>
      cases h : letterOf arg with
      | none =>
          have hne : ∀ c, arg ≠ ['-', c] := by
            rintro c rfl
            cases h
          simp [applyOption, optionSetting, h, hne]
      | some c =>
          have harg := eq_letter_of_letterOf h
          subst harg
          simp only [applyOption, optionSetting, letterOf_letter, Option.bind_some, settingOf, applyDashOOverride_eq,
            String.reduceToList, List.cons.injEq, true_and, and_true]
          split_ifs <;> first | rfl | simp only [Option.elim, CliOverrides.add, parsePort]
          cases SshConfig.parseU16 v <;> rfl

theorem foldlM_applyOption (options : List (Text × Option Text)) (overrides : CliOverrides) :
    options.foldlM (applyOption env) overrides = (options.filterMap (optionSetting env)).foldlM CliOverrides.add overrides := by
  induction options generalizing overrides with
  | nil => rfl
  | cons option options ih =>
      rw [List.foldlM_cons, applyOption_eq, List.filterMap_cons]
      cases optionSetting env option with
      | none => exact ih overrides
      | some setting =>
          simp only [Option.elim, List.foldlM_cons]
          exact bind_congr ih

/-! ## 設定の列 -/

/-- 読み取りの途中の上書きに、残りの設定を加えたもの。 -/
def CliOverrides.withSettings (overrides : CliOverrides) (settings : List Setting) : Except OverrideError CliOverrides :=
  ((settings.findSome? Setting.port?).mapM parsePort).map fun port =>
    { hostName := overrides.hostName.or (settings.findSome? Setting.hostName?)
      user := overrides.user.or (settings.findSome? Setting.user?)
      port := overrides.port.or port
      proxyJump := overrides.proxyJump.or (settings.findSome? Setting.proxyJump?)
      identityFile := overrides.identityFile ++ settings.filterMap Setting.identityFile?
      forwardAgent := overrides.forwardAgent.or (settings.findSome? Setting.forwardAgent?)
      identityAgent := overrides.identityAgent.or (settings.findSome? Setting.identityAgent?) }

theorem withSettings_default (settings : List Setting) :
    CliOverrides.default.withSettings settings = CliOverrides.ofSettings settings := by
  simp [CliOverrides.withSettings, CliOverrides.ofSettings, CliOverrides.default]

theorem withSettings_nil (overrides : CliOverrides) : overrides.withSettings [] = .ok overrides := by
  simp [CliOverrides.withSettings, pure, Except.pure, Except.map]

theorem getOrInsert_or {α : Type} (current next : Option α) (value : α) :
    (getOrInsert current value).or next = current.or (some value) := by
  cases current <;> rfl

/-- 番号でない設定は、先に加えても、残りとともに加えても同じである。 -/
theorem withSettings_cons {setting : Setting} (h : setting.port? = none) (overrides : CliOverrides)
    (settings : List Setting) :
    overrides.withSettings (setting :: settings) =
      overrides.add setting >>= fun overrides => overrides.withSettings settings := by
  cases setting with
  | port dashO value => cases h
  | _ =>
      simp only [CliOverrides.add, bind, Except.bind, CliOverrides.withSettings, List.findSome?_cons,
        List.filterMap_cons, Setting.port?, Setting.hostName?, Setting.user?, Setting.proxyJump?,
        Setting.identityFile?, Setting.identityAgent?, Setting.forwardAgent?, getOrInsert_or, List.append_assoc,
        List.singleton_append]

/-- 全て読める番号から、最初のものを読める。 -/
theorem exists_mapM_parsePort {settings : List Setting}
    (hall : ∀ port ∈ settings.filterMap Setting.port?, (parsePort port).isOk = true) :
    ∃ port, (settings.findSome? Setting.port?).mapM parsePort = .ok port := by
  cases hf : settings.findSome? Setting.port? with
  | none => exact ⟨none, rfl⟩
  | some port =>
      obtain ⟨setting, hmem, hport⟩ := List.exists_of_findSome?_eq_some hf
      have hok := hall port (List.mem_filterMap.mpr ⟨setting, hmem, hport⟩)
      cases hp : parsePort port with
      | error e =>
          rw [hp] at hok
          cases hok
      | ok n => exact ⟨some n, by simp [hp, Functor.map, Except.map]⟩

/-- 読める番号の後の番号が全て読めれば、最初の番号だけが残る。 -/
theorem withSettings_port {dashO : Bool} {value : Text} {n : UInt16} (h : parsePort (dashO, value) = .ok n)
    (overrides : CliOverrides) {settings : List Setting}
    (hall : ∀ port ∈ settings.filterMap Setting.port?, (parsePort port).isOk = true) :
    overrides.withSettings (.port dashO value :: settings) =
      overrides.add (.port dashO value) >>= fun overrides => overrides.withSettings settings := by
  obtain ⟨port, hport⟩ := exists_mapM_parsePort hall
  simp only [CliOverrides.add, h, bind, Except.bind, Except.map, CliOverrides.withSettings, hport, List.findSome?_cons,
    List.filterMap_cons, Setting.port?, Setting.hostName?, Setting.user?, Setting.proxyJump?, Setting.identityFile?,
    Setting.identityAgent?, Setting.forwardAgent?, getOrInsert_or, Option.mapM_some, Functor.map]

/-- 読めない番号が最初にあれば、その誤りになる。 -/
theorem withSettings_error {dashO : Bool} {value : Text} {e : OverrideError} (h : parsePort (dashO, value) = .error e)
    (overrides : CliOverrides) (settings : List Setting) :
    overrides.withSettings (.port dashO value :: settings) = .error e := by
  simp [CliOverrides.withSettings, List.findSome?_cons, Setting.port?, h, Functor.map, Except.map]

/-- 正しい番号の後に、正しくない番号が無い。 -/
def portsReadable (settings : List Setting) : Bool :=
  match settings.filterMap Setting.port? with
  | [] => true
  | port :: ports => !(parsePort port).isOk || ports.all fun port => (parsePort port).isOk

theorem portsReadable_cons {setting : Setting} (h : setting.port? = none) (settings : List Setting) :
    portsReadable (setting :: settings) = portsReadable settings := by
  simp only [portsReadable, List.filterMap_cons, h]

theorem portsReadable_of_all {settings : List Setting}
    (hall : ∀ port ∈ settings.filterMap Setting.port?, (parsePort port).isOk = true) : portsReadable settings = true := by
  unfold portsReadable
  cases hs : settings.filterMap Setting.port? with
  | nil => rfl
  | cons port ports =>
      have hports : ports.all (fun port => (parsePort port).isOk) = true :=
        List.all_eq_true.mpr fun q hq => hall q (by rw [hs]; exact List.mem_cons_of_mem _ hq)
      simp only [hports, Bool.or_true]

/-- 番号が読めれば、順に加えたものは、最初の値を取ったものである。 -/
theorem foldlM_add {settings : List Setting} (h : portsReadable settings = true) (overrides : CliOverrides) :
    settings.foldlM CliOverrides.add overrides = overrides.withSettings settings := by
  induction settings generalizing overrides with
  | nil => rw [withSettings_nil, List.foldlM_nil]; rfl
  | cons setting settings ih =>
      rw [List.foldlM_cons]
      cases hp : setting.port? with
      | none =>
          rw [withSettings_cons hp]
          rw [portsReadable_cons hp] at h
          exact bind_congr (ih h)
      | some port =>
          cases setting with
          | port dashO value =>
              cases hparse : parsePort (dashO, value) with
              | error e =>
                  rw [withSettings_error hparse]
                  simp [CliOverrides.add, hparse, Except.map, bind, Except.bind]
              | ok n =>
                  have hall : ∀ port ∈ settings.filterMap Setting.port?, (parsePort port).isOk = true := by
                    have hok : (parsePort (dashO, value)).isOk = true := by rw [hparse]; rfl
                    simp only [portsReadable, List.filterMap_cons, Setting.port?, hok, Bool.not_true,
                      Bool.false_or] at h
                    exact List.all_eq_true.mp h
                  rw [withSettings_port hparse overrides hall]
                  exact bind_congr (ih (portsReadable_of_all hall))
          | _ => cases hp

/-- 組の列から集めた上書きは、その設定から定まる。 -/
theorem collect_eq {options : List (Text × Option Text)}
    (h : portsReadable (options.filterMap (optionSetting env)) = true) :
    options.foldlM (applyOption env) .default = CliOverrides.ofSettings (options.filterMap (optionSetting env)) := by
  rw [foldlM_applyOption, foldlM_add h, withSettings_default]

/-! ## `-t` と `-T` -/

theorem requestTtyStep_of_not_isTtyArg {arg : Text} (h : isTtyArg arg = false) (tty : RequestTty) :
    requestTtyStep tty arg = tty := by
  have h1 : arg ≠ "-t".toList := by
    rintro rfl
    cases h
  have h2 : arg ≠ "-tt".toList := by
    rintro rfl
    cases h
  simp only [isTtyArg, Bool.or_eq_false_iff, decide_eq_false_iff_not] at h
  have h4 : ¬ ("-t".toList.isPrefixOf arg = true ∧ 2 < arg.length ∧ arg.tail.all (fun c => decide (c = 't')) = true) := by
    rintro ⟨hp, _, hall⟩
    rw [hp, hall] at h
    exact absurd h.2 (by decide)
  rw [requestTtyStep, if_neg h1, if_neg h2, if_neg h.1, if_neg h4]

theorem ttyLetterStep_of_not_isTtyLetter {c : Char} (h : isTtyLetter c = false) (tty : RequestTty) :
    ttyLetterStep tty c = tty := by
  simp only [isTtyLetter, Bool.or_eq_false_iff, decide_eq_false_iff_not] at h
  rw [ttyLetterStep, if_neg h.1, if_neg h.2]

theorem foldl_ttyLetterStep {flags : List Char} (h : flags.all (fun c => !isTtyLetter c) = true) (tty : RequestTty) :
    flags.foldl ttyLetterStep tty = tty := by
  induction flags with
  | nil => rfl
  | cons c flags ih =>
      simp only [List.all_cons, Bool.and_eq_true, Bool.not_eq_true'] at h
      rw [List.foldl_cons, ttyLetterStep_of_not_isTtyLetter h.1, ih h.2]

/-- `t` と `T` で始まらない旗の列は、`-t` でも `-T` でもない。 -/
theorem isTtyArg_cons {c : Char} (h : isTtyLetter c = false) (cs : List Char) : isTtyArg ('-' :: c :: cs) = false := by
  simp only [isTtyLetter, Bool.or_eq_false_iff, decide_eq_false_iff_not] at h
  simp [isTtyArg, h.1, h.2]

theorem requestTtyStep_flags {tty : RequestTty} {flags : List Char} (h : ttyPlain tty flags = true) :
    requestTtyStep tty ('-' :: flags) = flags.foldl ttyLetterStep tty := by
  simp only [ttyPlain, Bool.or_eq_true, decide_eq_true_eq, Bool.and_eq_true] at h
  rcases h with ((h | rfl) | rfl) | ⟨hall, hforce⟩
  · rw [foldl_ttyLetterStep h]
    cases flags with
    | nil => exact requestTtyStep_of_not_isTtyArg rfl tty
    | cons c flags =>
        simp only [List.all_cons, Bool.and_eq_true, Bool.not_eq_true'] at h
        exact requestTtyStep_of_not_isTtyArg (isTtyArg_cons h.1 flags) tty
  · rfl
  · rfl
  · match flags, hall with
    | [], _ => exact requestTtyStep_of_not_isTtyArg rfl tty
    | [c], hall =>
        simp only [List.all_cons, List.all_nil, Bool.and_true, decide_eq_true_eq] at hall
        subst hall
        rfl
    | c :: d :: flags, hall =>
        simp only [List.all_cons, Bool.and_eq_true, decide_eq_true_eq] at hall
        obtain ⟨rfl, rfl, hall⟩ := hall
        rw [hforce]
        cases flags with
        | nil => rfl
        | cons e flags => simp [requestTtyStep, hall]

/-- 値を取る文字は、`t` でも `T` でもない。 -/
theorem isTtyLetter_of_isValueLetter {c : Char} (h : isValueLetter c = true) : isTtyLetter c = false := by
  have hmem : ∀ c ∈ valueLetters, isTtyLetter c = false := by simp [valueLetters, isTtyLetter]
  exact hmem c (by simpa [isValueLetter] using h)

/-- 値を付けた引数は、旗に `t` も `T` も無ければ、求めない。 -/
theorem requestTtyStep_attached {tty : RequestTty} {flags attached : List Char} {c : Char}
    (hflags : flags.all (fun c => !isTtyLetter c) = true) (hc : isValueLetter c = true) :
    requestTtyStep tty ('-' :: (flags ++ c :: attached)) = tty := by
  cases flags with
  | nil => exact requestTtyStep_of_not_isTtyArg (isTtyArg_cons (isTtyLetter_of_isValueLetter hc) attached) tty
  | cons d flags =>
      simp only [List.all_cons, Bool.and_eq_true, Bool.not_eq_true'] at hflags
      exact requestTtyStep_of_not_isTtyArg (isTtyArg_cons hflags.1 _) tty

/-! ## 旗 -/

theorem filterMap_settingOf_flagOptions (env : Env) (flags : List Char) :
    (flagOptions flags).filterMap (settingOf env) = [] := by
  simp [flagOptions, List.filterMap_eq_nil_iff, settingOf_none]

theorem find?_flagOptions {flags : List Char} (h : 'F' ∉ flags) (options : List (Char × Option Arg)) :
    (flagOptions flags ++ options).find? (fun option => decide (option.1 = 'F')) =
      options.find? fun option => decide (option.1 = 'F') := by
  rw [List.find?_append]
  have hnone : (flagOptions flags).find? (fun option => decide (option.1 = 'F')) = none := by
    simp only [flagOptions, List.find?_eq_none, List.mem_map]
    rintro option ⟨c, hc, rfl⟩ hF
    rw [decide_eq_true_eq] at hF
    exact h (hF ▸ hc)
  rw [hnone, Option.none_or]

theorem foldl_flagOptions (flags : List Char) (tty : RequestTty) :
    (flagOptions flags).foldl (fun tty option => ttyLetterStep tty option.1) tty = flags.foldl ttyLetterStep tty := by
  rw [flagOptions, List.foldl_map]

theorem notMem_flags {cs flags : List Char} {v : Option (Char × List Char)} (hb : bundle isValueLetter cs = (flags, v)) :
    'F' ∉ flags := by
  intro hF
  have hflags : (bundle isValueLetter cs).1 = flags := by rw [hb]
  exact absurd (takesValue_of_mem_flags (hflags ▸ hF)) (by decide)

/-! ## 1 つの引数ごとの条件 -/

theorem portRefused_eq (seen : List Setting) :
    portRefused seen = (seen.filterMap Setting.port?).head?.any fun port => !(parsePort port).isOk := by
  rw [portRefused, List.head?_filterMap]

/-- 正しい番号の後に正しい番号を加えても、正しくない番号は無い。 -/
theorem portsReadable_append {seen : List Setting} {next : Option Setting} (h : portsReadable seen = true)
    (hn : (portRefused seen || (next.bind Setting.port?).all fun port =>
      (seen.findSome? Setting.port?).isNone || (parsePort port).isOk) = true) :
    portsReadable (seen ++ next.toList) = true := by
  rw [portRefused_eq, ← List.head?_filterMap] at hn
  unfold portsReadable at h ⊢
  rw [List.filterMap_append]
  have hnext : next.toList.filterMap Setting.port? = (next.bind Setting.port?).toList := by
    cases next with
    | none => rfl
    | some setting => cases hs : setting.port? <;> simp [hs, -Setting.port?]
  rw [hnext]
  cases hs : seen.filterMap Setting.port? with
  | nil => cases next.bind Setting.port? <;> simp
  | cons port ports =>
      rw [hs] at h hn
      simp only [List.head?_cons, Option.any_some, Option.isNone_some, Bool.false_or, Bool.or_eq_true] at h hn
      simp only [List.cons_append, List.all_append, Bool.or_eq_true, Bool.and_eq_true]
      rcases h with h | h
      · exact .inl h
      · rcases hn with hn | hn
        · exact .inl hn
        · refine .inr ⟨h, ?_⟩
          cases hb : next.bind Setting.port? with
          | none => rfl
          | some port => simpa [hb] using hn

/-- 読めない番号が最初にあれば、残りによらず誤りになる。 -/
theorem ofSettings_refused {seen : List Setting} (h : portRefused seen = true) (settings settings' : List Setting) :
    CliOverrides.ofSettings (seen ++ settings) = CliOverrides.ofSettings (seen ++ settings') := by
  obtain ⟨port, hport, hbad⟩ := (Option.any_eq_true _ _).mp h
  cases hp : parsePort port with
  | ok n => simp [hp, Except.isOk, Except.toBool] at hbad
  | error e =>
      simp only [CliOverrides.ofSettings, List.findSome?_append, hport, Option.some_or, Option.mapM_some, hp]
      rfl

/-- 先に読んだ項目の値は、後の値によらない。 -/
theorem ofSettings_shadowed {seen : List Setting} {setting : Setting} (h : shadowed seen setting = true)
    (settings : List Setting) :
    CliOverrides.ofSettings (seen ++ setting :: settings) = CliOverrides.ofSettings (seen ++ settings) := by
  cases setting with
  | identityFile => cases h
  | _ =>
      obtain ⟨value, hvalue⟩ := Option.isSome_iff_exists.mp h
      simp only [CliOverrides.ofSettings, List.findSome?_append, List.filterMap_append, List.findSome?_cons,
        List.filterMap_cons, Setting.port?, Setting.hostName?, Setting.user?, Setting.proxyJump?, Setting.identityFile?,
        Setting.identityAgent?, Setting.forwardAgent?, hvalue, Option.some_or]

/-- 付けた値を読まなくても、上書きは変わらない。 -/
theorem ofSettings_attached {seen : List (Char × Option Arg)} {option : Char × Option Arg}
    (h : attachedFits env seen option = true) (settings : List Setting) :
    CliOverrides.ofSettings (seen.filterMap (settingOf env) ++ ((settingOf env option).toList ++ settings)) =
      CliOverrides.ofSettings (seen.filterMap (settingOf env) ++ settings) := by
  simp only [attachedFits, Bool.and_eq_true, Bool.or_eq_true] at h
  rcases h.2 with h | h
  · exact ofSettings_refused h _ _
  · cases hs : settingOf env option with
    | none => rfl
    | some setting => exact ofSettings_shadowed (by simpa [hs] using h) settings

section
variable {tty : RequestTty} {seen : List (Char × Option Arg)} {arg : Text} {flags : List Char} {rest : List Text}

theorem reported_flags (harg : isOptionArg arg = true) (hb : bundle isValueLetter arg.tail = (flags, none)) :
    reported env tty seen (arg :: rest) = (ttyPlain tty flags && reported env (flags.foldl ttyLetterStep tty) seen rest) := by
  simp [reported, harg, hb]

theorem reported_value {c : Char} (hc : isValueLetter c = true) (value : Text) :
    reported env tty seen (['-', c] :: value :: rest) = (!isTtyArg value && valueFits env seen (c, some value) &&
      reported env tty (seen ++ [(c, some value)]) rest) := by
  simp [reported, isOptionArg_of_letter hc, bundle, hc]

theorem reported_attached {c a : Char} {attached : List Char} (harg : isOptionArg arg = true)
    (hb : bundle isValueLetter arg.tail = (flags, some (c, a :: attached))) :
    reported env tty seen (arg :: rest) = (flags.all (fun c => !isTtyLetter c) &&
      attachedFits env seen (c, some (a :: attached)) && reported env tty seen rest) := by
  simp [reported, harg, hb]

end

/-! ## 歩いて読んだ組の設定 -/

theorem optionSetting_none (arg : Text) : optionSetting env (arg, none) = none := by
  cases hl : letterOf arg <;> simp [optionSetting, hl, settingOf]

theorem filterMap_optionSetting_letter (c : Char) (value : Text) (options : List (Text × Option Text)) :
    ((['-', c], some value) :: options).filterMap (optionSetting env) =
      [(c, some value)].filterMap (settingOf env) ++ options.filterMap (optionSetting env) := by
  have hset : optionSetting env (['-', c], some value) = settingOf env (c, some value) := rfl
  rw [List.filterMap_cons, hset]
  cases hs : settingOf env (c, some value) <;> simp [hs]

/-! ## 宛先までの列 -/

/-- 宛先の前の列 `pre` を歩いて読んだ組の列が、`seen` に続けて、getopt の結果と同じ設定を定める。 -/
structure Reading (env : Env) (tty : RequestTty) (seen : List (Char × Option Arg)) (kept : List Text) (p : Parsed)
    (pre stop : List Text) (options : List (Text × Option Text)) : Prop where
  kept_eq : kept = pre ++ (stop ++ p.operands)
  walked : Walked pre options
  stops : StopsAt stop p.operands
  ports : portsReadable (seen.filterMap (settingOf env) ++ options.filterMap (optionSetting env)) = true
  settings : CliOverrides.ofSettings (seen.filterMap (settingOf env) ++ options.filterMap (optionSetting env)) =
    CliOverrides.ofSettings (seen.filterMap (settingOf env) ++ p.options.filterMap (settingOf env))
  configPath : (seen.any fun option => option.1 = 'F') = false →
    (options.find? fun option => option.1 = "-F".toList).bind Prod.snd =
      (p.options.find? fun option => option.1 = 'F').bind Prod.snd
  tty : (pre ++ stop).foldl requestTtyStep tty = p.options.foldl (fun tty option => ttyLetterStep tty option.1) tty

namespace Reading

variable {env : Env} {tty : RequestTty} {seen : List (Char × Option Arg)} {kept pre stop : List Text} {p : Parsed}
  {options : List (Text × Option Text)}

theorem stop_nil (hseen : portsReadable (seen.filterMap (settingOf env)) = true) (hs : StopsAt stop p.operands)
    (ho : p.options = []) (hk : kept = stop ++ p.operands) : Reading env tty seen kept p [] stop [] where
  kept_eq := hk
  walked := .nil
  stops := hs
  ports := by
    rw [List.filterMap_nil, List.append_nil]
    exact hseen
  settings := by rw [ho]; rfl
  configPath := by
    intro _
    rw [ho]
    rfl
  tty := by
    rw [ho]
    generalize p.operands = operands at hs
    cases hs with
    | operand => rfl
    | dashdash =>
        have hdd : isTtyArg "--".toList = false := by decide
        exact requestTtyStep_of_not_isTtyArg hdd tty

theorem flags {arg : Text} {flags : List Char} (harg : isOptionArg arg = true)
    (hb : bundle isValueLetter arg.tail = (flags, none)) (ht : ttyPlain tty flags = true)
    (h : Reading env (flags.foldl ttyLetterStep tty) seen kept p pre stop options) :
    Reading env tty seen (arg :: kept) (p.prepend (flagOptions flags)) (arg :: pre) stop ((arg, none) :: options) where
  kept_eq := by rw [h.kept_eq]; rfl
  walked := .flag harg (sshOptionWidth_of_flags hb) h.walked
  stops := h.stops
  ports := by
    rw [List.filterMap_cons, optionSetting_none]
    exact h.ports
  settings := by
    rw [List.filterMap_cons, optionSetting_none, Parsed.prepend, List.filterMap_append, filterMap_settingOf_flagOptions,
      List.nil_append]
    exact h.settings
  configPath := by
    intro hF
    have hne : arg ≠ "-F".toList := by
      rintro rfl
      exact absurd hb (by simp [bundle, isValueLetter, valueLetters])
    rw [List.find?_cons_of_neg (by simpa using hne), h.configPath hF, Parsed.prepend, find?_flagOptions (notMem_flags hb)]
  tty := by
    have hstep : requestTtyStep tty arg = flags.foldl ttyLetterStep tty := by
      have htail := bundle_eq isValueLetter arg.tail
      rw [hb] at htail
      rw [cons_tail_of_isOptionArg harg, htail]
      simpa using requestTtyStep_flags ht
    rw [List.cons_append, List.foldl_cons, hstep, h.tty, Parsed.prepend, List.foldl_append, foldl_flagOptions]

theorem value {c : Char} {value : Text} (hc : isValueLetter c = true) (ht : isTtyArg value = false)
    (h : Reading env tty (seen ++ [(c, some value)]) kept p pre stop options) :
    Reading env tty seen (['-', c] :: value :: kept) (p.prepend [(c, some value)]) (['-', c] :: value :: pre) stop
      ((['-', c], some value) :: options) where
  kept_eq := by rw [h.kept_eq]; rfl
  walked := .value hc h.walked
  stops := h.stops
  ports := by
    rw [filterMap_optionSetting_letter, ← List.append_assoc, ← List.filterMap_append]
    exact h.ports
  settings := by
    have hp : (p.prepend [(c, some value)]).options = [(c, some value)] ++ p.options := rfl
    rw [filterMap_optionSetting_letter, hp, List.filterMap_append, ← List.append_assoc, ← List.append_assoc,
      ← List.filterMap_append]
    exact h.settings
  configPath := by
    intro hF
    simp only [List.find?_cons, Parsed.prepend, List.singleton_append]
    by_cases hc : c = 'F'
    · subst hc
      rfl
    · have hseen : ((seen ++ [(c, some value)]).any fun option => option.1 = 'F') = false := by
        simp [List.any_append, hF, hc]
      simp only [String.reduceToList, List.cons.injEq, hc, false_and, and_false, decide_false]
      exact h.configPath hseen
  tty := by
    have hletter : requestTtyStep tty ['-', c] = tty :=
      requestTtyStep_of_not_isTtyArg (isTtyArg_cons (isTtyLetter_of_isValueLetter hc) []) tty
    rw [List.cons_append, List.foldl_cons, hletter, List.cons_append, List.foldl_cons,
      requestTtyStep_of_not_isTtyArg ht, h.tty]
    simp only [Parsed.prepend, List.singleton_append, List.foldl_cons]
    rw [ttyLetterStep_of_not_isTtyLetter (isTtyLetter_of_isValueLetter hc)]

theorem attached {arg : Text} {flags attached : List Char} {c a : Char} (harg : isOptionArg arg = true)
    (hb : bundle isValueLetter arg.tail = (flags, some (c, a :: attached)))
    (ht : flags.all (fun c => !isTtyLetter c) = true) (hfits : attachedFits env seen (c, some (a :: attached)) = true)
    (h : Reading env tty seen kept p pre stop options) :
    Reading env tty seen (arg :: kept) (p.prepend (flagOptions flags ++ [(c, some (a :: attached))])) (arg :: pre) stop
      ((arg, none) :: options) where
  kept_eq := by rw [h.kept_eq]; rfl
  walked := .flag harg (sshOptionWidth_of_attached hb) h.walked
  stops := h.stops
  ports := by
    rw [List.filterMap_cons, optionSetting_none]
    exact h.ports
  settings := by
    have hone : [(c, some (a :: attached))].filterMap (settingOf env) = (settingOf env (c, some (a :: attached))).toList := by
      cases hs : settingOf env (c, some (a :: attached)) <;> simp [hs]
    rw [List.filterMap_cons, optionSetting_none, Parsed.prepend, List.filterMap_append, List.filterMap_append,
      filterMap_settingOf_flagOptions, List.nil_append, hone, ofSettings_attached hfits]
    exact h.settings
  configPath := by
    intro hF
    have hne : arg ≠ "-F".toList := by
      rintro rfl
      exact absurd hb (by simp [bundle, isValueLetter, valueLetters])
    have hc : c ≠ 'F' := by
      simp only [attachedFits, hF, Bool.or_false, Bool.and_eq_true, decide_eq_true_eq] at hfits
      exact hfits.1
    rw [List.find?_cons_of_neg (by simpa using hne), h.configPath hF, Parsed.prepend, List.append_assoc,
      find?_flagOptions (notMem_flags hb), List.singleton_append, List.find?_cons_of_neg (by simpa using hc)]
  tty := by
    have hb2 : (bundle isValueLetter arg.tail).2 = some (c, a :: attached) := by rw [hb]
    have hc : isValueLetter c = true := takesValue_of_bundle hb2
    have hstep : requestTtyStep tty arg = tty := by
      have htail := bundle_eq isValueLetter arg.tail
      rw [hb] at htail
      rw [cons_tail_of_isOptionArg harg, htail]
      exact requestTtyStep_attached ht hc
    rw [List.cons_append, List.foldl_cons, hstep, h.tty, Parsed.prepend, List.foldl_append, List.foldl_append,
      foldl_flagOptions, foldl_ttyLetterStep ht, List.foldl_cons, List.foldl_nil,
      ttyLetterStep_of_not_isTtyLetter (isTtyLetter_of_isValueLetter hc)]

end Reading

/-- 宛先のある列で、設定を 1 つの引数ごとに読めれば、2 つの読み方が一致する。 -/
theorem Plain.exists_reading {args kept : List Text} {isekai : List (IsekaiOption × Option Text)} {p : Parsed}
    (h : Plain args isekai kept p) (hr : refusedOption ∉ isekai) (hp : p.operands ≠ []) {tty : RequestTty}
    {seen : List (Char × Option Arg)} (hseen : portsReadable (seen.filterMap (settingOf env)) = true)
    (hrep : reported env tty seen kept = true) : ∃ pre stop options, Reading env tty seen kept p pre stop options := by
  induction h generalizing tty seen with
  | nil => exact absurd rfl hp
  | @dashdash rest _ =>
      cases rest with
      | nil => exact absurd rfl hp
      | cons v rest => exact ⟨_, _, _, .stop_nil hseen .dashdash rfl rfl⟩
  | operand harg hne => exact ⟨_, _, _, .stop_nil hseen (.operand harg hne) rfl rfl⟩
  | isekaiMissing => exact absurd rfl hp
  | isekaiRefused => exact absurd List.mem_cons_self hr
  | isekaiValue _ _ _ ih => exact ih (List.not_mem_of_not_mem_cons hr) hp hseen hrep
  | isekaiFlag _ _ _ ih => exact ih (List.not_mem_of_not_mem_cons hr) hp hseen hrep
  | flags harg _ hb _ ih =>
      rw [reported_flags harg hb, Bool.and_eq_true] at hrep
      obtain ⟨pre, stop, options, h⟩ := ih hr hp hseen hrep.2
      exact ⟨_, _, _, h.flags harg hb hrep.1⟩
  | valueMissing => exact absurd rfl hp
  | @value c value _ _ _ _ hc _ _ _ ih =>
      simp only [reported_value hc, Bool.and_eq_true, Bool.not_eq_true'] at hrep
      have hnext : portsReadable ((seen ++ [(c, some value)]).filterMap (settingOf env)) = true := by
        have hone : [(c, some value)].filterMap (settingOf env) = (settingOf env (c, some value)).toList := by
          cases hs : settingOf env (c, some value) <;> simp [hs]
        rw [List.filterMap_append, hone]
        exact portsReadable_append hseen hrep.1.2
      obtain ⟨pre, stop, options, h⟩ := ih hr hp hnext hrep.2
      exact ⟨_, _, _, h.value hc hrep.1.1⟩
  | attached harg _ hb _ ih =>
      simp only [reported_attached harg hb, Bool.and_eq_true] at hrep
      obtain ⟨pre, stop, options, h⟩ := ih hr hp hseen hrep.2
      exact ⟨_, _, _, h.attached harg hb hrep.1.1 hrep.1.2⟩

/-- 宛先の無い列では、宛先が見つからない。 -/
theorem Plain.findDestinationIndex {args kept : List Text} {isekai : List (IsekaiOption × Option Text)} {p : Parsed}
    (h : Plain args isekai kept p) (hr : refusedOption ∉ isekai) (hp : p.operands = []) {pre : List Text} {options : List (Text × Option Text)} (hw : Walked pre options) :
    Wrapper.findDestinationIndex (pre ++ kept) = none := by
  induction h generalizing pre options with
  | nil =>
      rw [List.append_nil]
      exact hw.findDestinationIndex
  | dashdash _ =>
      have hp : _ = [] := hp
      subst hp
      rw [Wrapper.findDestinationIndex, hw.append, sshOptions_stop (by decide)]
      simp
  | operand => cases hp
  | isekaiMissing =>
      rw [List.append_nil]
      exact hw.findDestinationIndex
  | isekaiRefused => exact absurd List.mem_cons_self hr
  | isekaiValue _ _ _ ih => exact ih (List.not_mem_of_not_mem_cons hr) hp hw
  | isekaiFlag _ _ _ ih => exact ih (List.not_mem_of_not_mem_cons hr) hp hw
  | flags harg _ hb _ ih =>
      rw [← List.singleton_append, ← List.append_assoc]
      exact ih hr hp (hw.trans (.flag harg (sshOptionWidth_of_flags hb) .nil))
  | valueMissing harg _ _ => exact hw.findDestinationIndex_last harg
  | @value c value _ _ kept _ hc _ _ _ ih =>
      have happ : pre ++ ['-', c] :: value :: kept = pre ++ [['-', c], value] ++ kept := by simp
      rw [happ]
      exact ih hr hp (hw.trans (.value hc .nil))
  | attached harg _ hb _ ih =>
      rw [← List.singleton_append, ← List.append_assoc]
      exact ih hr hp (hw.trans (.flag harg (sshOptionWidth_of_attached hb) .nil))

end IsekaiTerminal.Wrapper
