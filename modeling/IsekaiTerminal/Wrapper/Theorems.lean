import IsekaiTerminal.Wrapper.Lemmas.Readings

/-!
# ラッパーの引数の主結果

ラッパーの読み方と `ssh(1)` の読み方とが一致する引数の列を定める。
-/

namespace IsekaiTerminal.Wrapper

open Lib
open SshConfig (Text Env)

/-- 宛先の前の列から、両方の読み方の宛先と `-t` の求めが定まる。 -/
theorem parseWrapper_eq {env : Env} {defaultPipePath : Text} {args : List Text} (h : Readable env defaultPipePath args) :
    parseWrapper defaultPipePath args = referencePlan defaultPipePath args := by
  have hplain := plain_of_spaced h.1
  have hrep := h.2
  have hloop := hplain.loop .nil (.start defaultPipePath)
  rw [List.nil_append] at hloop
  unfold referencePlan at hrep
  unfold parseWrapper referencePlan
  rw [hloop]
  cases hs : (splitWrapper args).1.foldlM applyIsekai (.start defaultPipePath) with
  | error e => rfl
  | ok settings =>
      have hr := refusedOption_notMem hs
      simp only [hs] at hrep
      simp only [bind, Except.bind]
      split
      · rfl
      · next hconflict =>
          cases hp : (parsedArgs (splitWrapper args).2).operands with
          | nil =>
              have hnone := hplain.findDestinationIndex hr hp .nil
              rw [List.nil_append] at hnone
              rw [hnone]
          | cons destination operands =>
              have hrep : reported env .auto [] (splitWrapper args).2 = true := by
                apply hrep
                rw [if_neg hconflict, hp]
                rfl
              obtain ⟨pre, stop, options, hr⟩ := hplain.exists_reading hr (by rw [hp]; simp) rfl hrep
              have hkept := hr.kept_eq
              have hindex := hr.walked.findDestinationIndex_stop hr.stops
              rw [← hkept] at hindex
              rw [hp] at hkept
              have hget : (splitWrapper args).2.getD (pre.length + stop.length) [] = destination := by
                rw [hkept, ← List.append_assoc]
                simp
              have hlen : (splitWrapper args).2.length - (operands.length + 1) = pre.length + stop.length := by
                rw [hkept]
                simp only [List.length_append, List.length_cons]
                omega
              have htty : extractRequestTty (splitWrapper args).2 (pre.length + stop.length) =
                  requestOf (parsedArgs (splitWrapper args).2).options := by
                rw [extractRequestTty, requestOf, ← hr.tty]
                congr 1
                rw [hkept, ← List.append_assoc, ← List.length_append, List.take_left]
              rw [hindex]
              simp only [hget, hlen, htty]

/-- 計画ができれば、`--isekai-*` は全て受け付けられ、その残る引数に宛先がある。 -/
theorem sshArgs_of_referencePlan {defaultPipePath : Text} {args : List Text} {plan : WrapperPlan}
    (h : referencePlan defaultPipePath args = .ok plan) :
    plan.sshArgs = (splitWrapper args).2 ∧ refusedOption ∉ (splitWrapper args).1 ∧
      (parsedArgs (splitWrapper args).2).operands ≠ [] := by
  unfold referencePlan at h
  cases hf : (splitWrapper args).1.foldlM applyIsekai (.start defaultPipePath) with
  | error e => simp [hf] at h
  | ok settings =>
      simp only [hf] at h
      split at h
      · cases h
      · split at h
        · cases h
        · next hp =>
            cases h
            exact ⟨rfl, refusedOption_notMem hf, by rw [hp]; simp⟩

/-- 計画ができれば、宛先の前の列の 2 つの読み方が一致する。 -/
theorem Readable.exists_reading {env : Env} {defaultPipePath : Text} {args : List Text} {plan : WrapperPlan}
    (h : Readable env defaultPipePath args) (hplan : referencePlan defaultPipePath args = .ok plan) :
    ∃ pre stop options, Reading env .auto [] plan.sshArgs (parsedArgs plan.sshArgs) pre stop options := by
  obtain ⟨hargs, hr, hp⟩ := sshArgs_of_referencePlan hplan
  have hrep : reported env .auto [] (splitWrapper args).2 = true := h.2 (by rw [hplan]; rfl)
  rw [hargs]
  exact (plain_of_spaced h.1).exists_reading hr hp rfl hrep

theorem readsLikeSsh_of_readable (env : Env) (defaultPipePath : Text) (args : List Text)
    (h : Readable env defaultPipePath args) : ReadsLikeSsh env defaultPipePath args where
  plan := parseWrapper_eq h
  overrides := by
    intro plan hplan
    obtain ⟨pre, stop, options, hr⟩ := h.exists_reading hplan
    have hsettings := hr.settings
    have hports := hr.ports
    simp only [List.filterMap_nil, List.nil_append] at hsettings hports
    rw [collectCliOverrides, settingsOf, ← hsettings]
    conv => lhs; rw [hr.kept_eq, hr.walked.sshOptions_stop hr.stops]
    exact collect_eq hports
  configPath := by
    intro plan hplan
    obtain ⟨pre, stop, options, hr⟩ := h.exists_reading hplan
    rw [dashFConfigPath, configPathOf, ← hr.configPath rfl]
    conv => lhs; rw [hr.kept_eq, hr.walked.sshOptions_stop hr.stops]

def noEnv : Env := ⟨none, none, none, none⟩

/-- 値を離した引数の列。宛先の後の `-p` と `--isekai-tty` は、リモートのコマンドである。 -/
def spacedArgs : List Text :=
  ["-p", "22", "--isekai-log-file", "x", "-tt", "-L80", "me@host", "-p", "--isekai-tty"].map String.toList

theorem readsLikeSsh_spacedArgs : Readable noEnv [] spacedArgs ∧ ReadsLikeSsh noEnv [] spacedArgs := by
  have h : Readable noEnv [] spacedArgs := by decide +kernel
  exact ⟨h, readsLikeSsh_of_readable noEnv [] spacedArgs h⟩

/-- `-vp 22 host` の宛先は、ラッパーでは `22` である。 -/
theorem not_readsLikeSsh_bundle : ¬ ReadsLikeSsh noEnv [] (["-vp", "22", "host"].map String.toList) := by
  intro h
  have hd := congrArg (fun r => r.toOption.map WrapperPlan.destination) h.plan
  exact absurd hd (by decide +kernel)

end IsekaiTerminal.Wrapper
