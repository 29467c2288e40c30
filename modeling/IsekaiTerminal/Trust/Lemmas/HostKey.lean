import IsekaiTerminal.Trust.HostKey

/-!
# ホスト鍵の照合の不変条件

置き場を見る 1 回の処理が置き場をどう変え、何を返すかを先に述べ、返した結果と、利用者に尋ねる照合の性質を
そこから導く。
-/

namespace IsekaiTerminal.Trust

open Lib

variable {hosts : Hosts} {hostPort fingerprint : String} {insertIfUnknown : Bool} {k : Choice}

/-! ## 置き場 -/

theorem pinned_update_self (hosts : Hosts) (hostPort : String) (known : SshHostKeyTrust) :
    Hosts.pinned (Function.update hosts hostPort (some known)) hostPort = some known.fingerprint := by
  simp [Hosts.pinned]

theorem Hosts.Keeps.refl (hosts : Hosts) : hosts.Keeps hosts := fun _ _ h => h

theorem Hosts.Keeps.trans {hosts₁ hosts₂ hosts₃ : Hosts} (h : hosts₁.Keeps hosts₂) (h' : hosts₂.Keeps hosts₃) :
    hosts₁.Keeps hosts₃ :=
  fun hostPort fingerprint hp => h' hostPort fingerprint (h hostPort fingerprint hp)

/-- 項目 1 つの書き換えは、その項目の指紋がなかったか同じなら、ピン留めした指紋を変えない。 -/
theorem keeps_update {known : SshHostKeyTrust}
    (h : ∀ fingerprint, hosts.pinned hostPort = some fingerprint → fingerprint = known.fingerprint) :
    hosts.Keeps (Function.update hosts hostPort (some known)) := by
  intro hostPort' fingerprint hp
  by_cases heq : hostPort' = hostPort
  · subst heq
    rw [pinned_update_self, h fingerprint hp]
  · rw [Hosts.pinned, Function.update_of_ne heq]
    exact hp

/-! ## 1 回の処理 -/

/-- `decideLocked` の返すもの。 -/
theorem decideLocked_cases (store : Hosts) (hostPort fingerprint : String) (insertIfUnknown : Bool) (now : String) :
    (∃ store', decideLocked store hostPort fingerprint insertIfUnknown now = (store', .decided .accepted) ∧
      store.pinned hostPort = some fingerprint ∧
      (store' = store ∨ ∃ known, known.fingerprint = fingerprint ∧
        store' = Function.update store hostPort (some known))) ∨
    (decideLocked store hostPort fingerprint insertIfUnknown now = (store, .decided (.rejected .changed))) ∨
    (store hostPort = none ∧ insertIfUnknown = true ∧
      decideLocked store hostPort fingerprint insertIfUnknown now =
        (Function.update store hostPort (some ⟨fingerprint, now, now⟩), .decided .accepted)) ∨
    (store hostPort = none ∧ insertIfUnknown = false ∧
      decideLocked store hostPort fingerprint insertIfUnknown now = (store, .needsConfirmation)) := by
  unfold decideLocked
  split
  · rename_i known hknown
    split
    · rename_i hfp
      refine Or.inl ⟨_, rfl, by rw [Hosts.pinned, hknown, ← hfp]; rfl, ?_⟩
      split
      · exact Or.inr ⟨{ known with lastSeenAt := now }, hfp, rfl⟩
      · exact Or.inl rfl
    · exact Or.inr (Or.inl rfl)
  · rename_i hnone
    cases insertIfUnknown with
    | true => exact Or.inr (Or.inr (Or.inl ⟨hnone, rfl, rfl⟩))
    | false => exact Or.inr (Or.inr (Or.inr ⟨hnone, rfl, rfl⟩))

/-- ロックの中の 1 回の処理の結果 `r`。 -/
structure Pass (hosts : Hosts) (c : Check) (insertIfUnknown : Bool) (k : Choice) (r : Hosts × Resolved) : Prop where
  keeps : hosts.Keeps r.1
  persists : c.Persists hosts r.1
  accepted : r.2 = .decided .accepted → r.1.pinned c.hostPort = some c.fingerprint ∧
    Admits (hosts.pinned c.hostPort) c ∧ (insertIfUnknown = false → hosts.pinned c.hostPort = some c.fingerprint)
  asks : r.2 = .needsConfirmation → r.1 = hosts ∧ insertIfUnknown = false ∧ Admits (hosts.pinned c.hostPort) c
  failed : r.2 = .storeFailed → r.1 = hosts ∧ (k.read = .ok → Admits (hosts.pinned c.hostPort) c)

namespace Pass

variable {c : Check}

/-- 置き場を変えず、受け入れない結果。 -/
theorem unchanged {resolved : Resolved} (haccepted : resolved ≠ .decided .accepted)
    (hasks : resolved = .needsConfirmation → insertIfUnknown = false ∧ Admits (hosts.pinned c.hostPort) c)
    (hfailed : resolved = .storeFailed → k.read = .ok → Admits (hosts.pinned c.hostPort) c) :
    Pass hosts c insertIfUnknown k (hosts, resolved) where
  keeps := .refl hosts
  persists := ⟨Or.inr rfl, fun _ _ => rfl⟩
  accepted h := absurd h haccepted
  asks h := ⟨rfl, hasks h⟩
  failed h := ⟨rfl, hfailed h⟩

/-- ピン留めした指紋と等しい。 -/
theorem matched (hp : hosts.pinned c.hostPort = some c.fingerprint) :
    Pass hosts c insertIfUnknown k (hosts, .decided .accepted) where
  keeps := .refl hosts
  persists := ⟨Or.inr rfl, fun _ _ => rfl⟩
  accepted _ := ⟨hp, fun _ h => Option.some.inj (h.symm.trans hp), fun _ => hp⟩
  asks h := by cases h
  failed h := by cases h

/-- 照合する指紋の項目を書く。 -/
theorem stored {known : SshHostKeyTrust} (hfp : known.fingerprint = c.fingerprint)
    (ha : Admits (hosts.pinned c.hostPort) c)
    (hinsert : insertIfUnknown = false → hosts.pinned c.hostPort = some c.fingerprint) :
    Pass hosts c insertIfUnknown k (Function.update hosts c.hostPort (some known), .decided .accepted) where
  keeps := keeps_update fun fingerprint h => (ha fingerprint h).trans hfp.symm
  persists := by
    refine ⟨Or.inl ?_, fun hostPort h => Function.update_of_ne h _ _⟩
    rw [pinned_update_self, hfp]
  accepted _ := by
    refine ⟨?_, ha, hinsert⟩
    dsimp only
    rw [pinned_update_self, hfp]
  asks h := by cases h
  failed h := by cases h

end Pass

theorem admits_of_none {c : Check} (h : hosts c.hostPort = none) : Admits (hosts.pinned c.hostPort) c := by
  intro fingerprint hp
  rw [Hosts.pinned, h] at hp
  cases hp

/-- 置き場を読めたときの処理。 -/
theorem pass_ok (c : Check) (hread : k.read = .ok) :
    Pass hosts c insertIfUnknown k (resolveLocked hosts c.hostPort c.fingerprint insertIfUnknown k) := by
  unfold resolveLocked
  rw [hread, if_neg (by decide)]
  dsimp only [Hosts.load]
  rcases decideLocked_cases hosts c.hostPort c.fingerprint insertIfUnknown k.now with
    ⟨store, heq, hp, hstore⟩ | heq | ⟨hnone, rfl, heq⟩ | ⟨hnone, rfl, heq⟩
  · have ha : Admits (hosts.pinned c.hostPort) c := fun _ h => Option.some.inj (h.symm.trans hp)
    rw [heq]
    dsimp only
    split
    · exact .matched hp
    · split
      · rcases hstore with rfl | ⟨known, hfp, rfl⟩
        · exact .matched hp
        · exact .stored hfp ha fun _ => hp
      · exact .unchanged (by decide) (fun h => by cases h) fun _ _ => ha
  · rw [heq]
    simp only [if_true]
    exact .unchanged (by decide) (fun h => by cases h) fun h => by cases h
  · have ha := admits_of_none hnone
    rw [heq]
    dsimp only
    rw [if_neg (by simp [hnone])]
    split
    · exact .stored rfl ha fun h => by cases h
    · exact .unchanged (by decide) (fun h => by cases h) fun _ _ => ha
  · have ha := admits_of_none hnone
    rw [heq]
    simp only [if_true]
    exact .unchanged (by decide) (fun _ => ⟨rfl, ha⟩) fun h => by cases h

/-- 置き場を空と読み違えたときの処理。 -/
theorem pass_absent (c : Check) (hread : k.read = .absent) (ha : Admits (hosts.pinned c.hostPort) c)
    (hsave : insertIfUnknown = true → k.saves = true → ∀ hostPort, hostPort ≠ c.hostPort → hosts hostPort = none) :
    Pass hosts c insertIfUnknown k (resolveLocked hosts c.hostPort c.fingerprint insertIfUnknown k) := by
  unfold resolveLocked
  rw [hread, if_neg (by decide)]
  dsimp only [Hosts.load]
  cases insertIfUnknown with
  | false =>
      simp only [decideLocked, Bool.false_eq_true, if_false, if_true]
      exact .unchanged (by decide) (fun _ => ⟨rfl, ha⟩) fun h => by cases h
  | true =>
      simp only [decideLocked, if_true, Function.update_self, reduceCtorEq, if_false]
      split
      · rename_i hsaves
        -- 他の項目がないので、空の置き場に加えたものは、元の置き場に加えたものと等しい
        have heq : Function.update (fun _ => none : Hosts) c.hostPort (some ⟨c.fingerprint, k.now, k.now⟩) =
            Function.update hosts c.hostPort (some ⟨c.fingerprint, k.now, k.now⟩) := by
          funext hostPort
          by_cases h : hostPort = c.hostPort
          · rw [h, Function.update_self, Function.update_self]
          · rw [Function.update_of_ne h, Function.update_of_ne h, hsave rfl hsaves hostPort h]
        rw [heq]
        exact .stored rfl ha fun h => by cases h
      · exact .unchanged (by decide) (fun h => by cases h) fun _ _ => ha

theorem pass_of_sighted (c : Check) (ha : k.read = .absent → Admits (hosts.pinned c.hostPort) c)
    (hsave : insertIfUnknown = true → k.read = .absent → k.saves = true →
      ∀ hostPort, hostPort ≠ c.hostPort → hosts hostPort = none) :
    Pass hosts c insertIfUnknown k (resolveLocked hosts c.hostPort c.fingerprint insertIfUnknown k) := by
  cases hread : k.read with
  | ok => exact pass_ok c hread
  | absent => exact pass_absent c hread (ha hread) fun hi => hsave hi hread
  | failed =>
      simp only [resolveLocked, hread, reduceCtorEq, if_false, Hosts.load]
      exact .unchanged (by decide) (fun h => by cases h) fun _ h => by cases hread.symm.trans h
  | panicked =>
      simp only [resolveLocked, hread, if_true]
      exact .unchanged (by decide) (fun h => by cases h) fun h => by cases h

/-- 読めた置き場について返した判断。 -/
theorem exists_load_of_resolveLocked {r : Resolved} (hr : r = .decided .accepted ∨ r = .needsConfirmation)
    (h : (resolveLocked hosts hostPort fingerprint insertIfUnknown k).2 = r) : ∃ store, hosts.load k.read = some store := by
  cases hload : hosts.load k.read with
  | some store => exact ⟨store, rfl⟩
  | none =>
      simp only [resolveLocked, hload] at h
      split at h
      · rcases hr with rfl | rfl <;> cases h
      · rcases hr with rfl | rfl <;> cases h

/-- 読み取りだけの処理の返すもの。 -/
theorem resolveReadOnly_cases (c : Check) (ha : k.read = .absent → Admits (hosts.pinned c.hostPort) c) :
    let r := resolveReadOnly hosts c.hostPort c.fingerprint k
    (r = .decided .accepted → hosts.pinned c.hostPort = some c.fingerprint) ∧
      (r = .needsConfirmation → Admits (hosts.pinned c.hostPort) c) ∧
      (r = .decided .accepted ∨ r = .needsConfirmation → ∃ store, hosts.load k.read = some store) := by
  unfold resolveReadOnly
  cases hread : k.read with
  | ok =>
      dsimp only [Hosts.load]
      split
      · rename_i known hknown
        split
        · rename_i hfp
          exact ⟨fun _ => (by rw [Hosts.pinned, hknown, ← hfp]; rfl), fun h => (by cases h), fun _ => ⟨_, rfl⟩⟩
        · exact ⟨fun h => (by cases h), fun h => (by cases h), fun _ => ⟨_, rfl⟩⟩
      · rename_i hnone
        exact ⟨fun h => (by cases h), fun _ => admits_of_none hnone, fun _ => ⟨_, rfl⟩⟩
  | absent => exact ⟨fun h => (by cases h), fun _ => ha hread, fun _ => ⟨_, rfl⟩⟩
  | failed => simp [Hosts.load]
  | panicked => simp [Hosts.load]

/-! ## 照合の不変条件 -/

theorem Admits.of_eq {c : Check} {pinned : Option String} (h : pinned = some c.fingerprint) : Admits pinned c := by
  intro fingerprint hp
  exact Option.some.inj (hp.symm.trans h)

/-- 始まったときの指紋は、まだピン留めされている。 -/
def Check.Kept (c : Check) (hosts : Hosts) : Prop :=
  ∀ fingerprint, c.initial = some fingerprint → hosts.pinned c.hostPort = some fingerprint

theorem Check.Kept.admits {c : Check} (h : c.Kept hosts) (ha : Admits (hosts.pinned c.hostPort) c) :
    Admits c.initial c :=
  fun fingerprint hi => ha fingerprint (h fingerprint hi)

/-- 次の操作を待つ照合の性質。 -/
def Op.Ready (hosts : Hosts) : Op → Prop
  | .resolveLocked c | .resolveReadOnly c => c.Kept hosts
  | .confirmNewHost c => c.Askable
  | .recheck c => c.Askable ∧ c.confirmed = true

theorem Op.Ready.mono {op : Op} {hosts hosts' : Hosts} (h : op.Ready hosts) (hk : hosts.Keeps hosts') :
    op.Ready hosts' := by
  cases op with
  | resolveLocked c => exact fun fingerprint hi => hk _ _ (h fingerprint hi)
  | resolveReadOnly c => exact fun fingerprint hi => hk _ _ (h fingerprint hi)
  | confirmNewHost c => exact h
  | recheck c => exact h

namespace Shared

variable {hosts₀ : Hosts} {s : Shared} {c : Check} {read : Reading}

structure Good (hosts₀ : Hosts) (s : Shared) : Prop where
  verdicts : ∀ v ∈ s.verdicts, v.Sound
  prompts : ∀ c ∈ s.prompts, c.Askable
  keeps : hosts₀.Keeps s.hosts

theorem look_looked {store : Hosts} (h : s.hosts.load read = some store) :
    (s.look c read).looked = some (s.hosts.pinned c.hostPort) := by
  simp only [look, h]

theorem exists_look_eq (s : Shared) (c : Check) (read : Reading) : ∃ looked, s.look c read = { c with looked := looked } := by
  unfold look
  split
  · exact ⟨_, rfl⟩
  · exact ⟨c.looked, rfl⟩

theorem sound_look {pinned : Option String} {outcome : VerifyOutcome} (hinitial : Admits c.initial c)
    (hlooked : ∀ pinned, (s.look c read).looked = some pinned → Admits pinned c)
    (haccepted : (s.look c read).looked = some (some c.fingerprint) ∨ c.confirmed = true ∧ Admits pinned c) :
    (⟨s.look c read, outcome, pinned⟩ : Verdict).Sound := by
  obtain ⟨looked, heq⟩ := exists_look_eq s c read
  rw [heq] at hlooked haccepted ⊢
  exact ⟨fun _ => haccepted, fun _ => hinitial, fun pinned _ => hlooked pinned⟩

theorem askable_look (hinitial : Admits c.initial c)
    (hlooked : ∀ pinned, (s.look c read).looked = some pinned → Admits pinned c) : (s.look c read).Askable := by
  obtain ⟨looked, heq⟩ := exists_look_eq s c read
  rw [heq] at hlooked ⊢
  exact ⟨hinitial, hlooked⟩

theorem kept_look (h : c.Kept hosts) : (s.look c read).Kept hosts := by
  obtain ⟨looked, heq⟩ := exists_look_eq s c read
  rw [heq]
  exact h

/-- 見た照合は、前に見た指紋か、いまの指紋を見ている。 -/
theorem look_admits (hc : ∀ pinned, c.looked = some pinned → Admits pinned c)
    (ha : Admits (s.hosts.pinned c.hostPort) c) :
    ∀ pinned, (s.look c read).looked = some pinned → Admits pinned c := by
  intro pinned h
  unfold look at h
  split at h
  · obtain rfl := Option.some.inj h
    exact ha
  · exact hc pinned h

theorem Good.setHosts {hosts : Hosts} (h : s.Good hosts₀) (hk : s.hosts.Keeps hosts) :
    ({ s with hosts := hosts } : Shared).Good hosts₀ :=
  ⟨h.verdicts, h.prompts, h.keeps.trans hk⟩

theorem Good.give (h : s.Good hosts₀) {outcome : VerifyOutcome}
    (hv : outcome = .accepted → (⟨c, outcome, s.hosts.pinned c.hostPort⟩ : Verdict).Sound) :
    (s.give c outcome).Good hosts₀ where
  verdicts v hmem := by
    rcases List.mem_append.mp hmem with hmem | hmem
    · exact h.verdicts v hmem
    · obtain rfl := List.mem_singleton.mp hmem
      cases outcome with
      | accepted => exact hv rfl
      | rejected reason => exact ⟨fun ho => (by cases ho), fun ho => (by cases ho), fun _ ho => (by cases ho)⟩
  prompts := h.prompts
  keeps := h.keeps

theorem Good.ask (h : s.Good hosts₀) (hc : c.Askable) : (s.ask c).1.Good hosts₀ where
  verdicts := h.verdicts
  prompts c' hmem := by
    rcases List.mem_append.mp hmem with hmem | hmem
    · exact h.prompts c' hmem
    · obtain rfl := List.mem_singleton.mp hmem
      exact hc
  keeps := h.keeps

/-- 操作の結果 `r` は、返した結果と尋ねた照合の性質と、次の操作の性質を満たす。 -/
structure Advances (hosts₀ : Hosts) (s : Shared) (r : Shared × List Op × List (List Op)) : Prop where
  good : r.1.Good hosts₀
  keeps : s.hosts.Keeps r.1.hosts
  ready : ∀ op ∈ r.2.1, op.Ready r.1.hosts
  spawns : r.2.2 = []

theorem advances_give (h : s.Good hosts₀) {hosts : Hosts} (hk : s.hosts.Keeps hosts) {outcome : VerifyOutcome}
    (hv : outcome = .accepted → (⟨c, outcome, hosts.pinned c.hostPort⟩ : Verdict).Sound) :
    Advances hosts₀ s (({ s with hosts := hosts } : Shared).give c outcome, [], []) :=
  ⟨(h.setHosts hk).give hv, hk, fun _ hop => (by cases hop), rfl⟩

theorem advances_ask (h : s.Good hosts₀) (hc : c.Askable) : Advances hosts₀ s ((s.ask c).1, (s.ask c).2, []) := by
  refine ⟨h.ask hc, .refl s.hosts, ?_, rfl⟩
  intro op hop
  obtain rfl := List.mem_singleton.mp hop
  exact hc

theorem look_hostPort (s : Shared) (c : Check) (read : Reading) : (s.look c read).hostPort = c.hostPort := by
  obtain ⟨looked, heq⟩ := exists_look_eq s c read
  rw [heq]

/-- いまの指紋を見て受け入れる。 -/
theorem sound_look_of_pinned {hosts : Hosts} {store : Hosts} {outcome : VerifyOutcome}
    (hload : s.hosts.load read = some store) (hkept : c.Kept s.hosts)
    (hp : s.hosts.pinned c.hostPort = some c.fingerprint) :
    (⟨s.look c read, outcome, hosts.pinned (s.look c read).hostPort⟩ : Verdict).Sound := by
  have hlooked : (s.look c read).looked = some (some c.fingerprint) := (look_looked hload).trans (congrArg some hp)
  refine sound_look (hkept.admits (.of_eq hp)) ?_ (Or.inl hlooked)
  intro pinned heq
  exact .of_eq (Option.some.inj (heq.symm.trans hlooked))

/-- いまの指紋を見て尋ねる。 -/
theorem askable_look_of_load {store : Hosts} (hload : s.hosts.load read = some store) (hkept : c.Kept s.hosts)
    (ha : Admits (s.hosts.pinned c.hostPort) c) : (s.look c read).Askable := by
  refine askable_look (hkept.admits ha) ?_
  intro pinned heq
  obtain rfl := Option.some.inj (heq.symm.trans (look_looked hload))
  exact ha

theorem advances_resolveLocked (h : s.Good hosts₀) (hkept : c.Kept s.hosts)
    (hs : (Op.resolveLocked c).Sighted s k) : Advances hosts₀ s (s.exec (.resolveLocked c) k) := by
  have hpass : Pass s.hosts c false k (resolveLocked s.hosts c.hostPort c.fingerprint false k) :=
    pass_of_sighted c hs fun h => (by cases h)
  unfold exec
  dsimp only
  split
  · rename_i outcome hr
    refine advances_give h hpass.keeps ?_
    rintro rfl
    obtain ⟨store, hload⟩ := exists_load_of_resolveLocked (Or.inl rfl) hr
    exact sound_look_of_pinned hload hkept ((hpass.accepted hr).2.2 rfl)
  · rename_i hr
    obtain ⟨store, hload⟩ := exists_load_of_resolveLocked (Or.inr rfl) hr
    obtain ⟨heq, -, ha⟩ := hpass.asks hr
    rw [heq]
    exact advances_ask h (askable_look_of_load hload hkept ha)
  · rename_i hr
    rw [(hpass.failed hr).1]
    refine ⟨h, .refl s.hosts, ?_, rfl⟩
    intro op hop
    obtain rfl := List.mem_singleton.mp hop
    exact kept_look hkept

theorem advances_resolveReadOnly (h : s.Good hosts₀) (hkept : c.Kept s.hosts)
    (hs : (Op.resolveReadOnly c).Sighted s k) : Advances hosts₀ s (s.exec (.resolveReadOnly c) k) := by
  have habsent : k.read = .absent → Admits (s.hosts.pinned c.hostPort) c := hs
  obtain ⟨haccepted, hasks, hload⟩ := resolveReadOnly_cases c habsent
  unfold exec
  dsimp only
  split
  · rename_i outcome hr
    refine advances_give h (.refl s.hosts) ?_
    rintro rfl
    obtain ⟨store, hload⟩ := hload (Or.inl hr)
    exact sound_look_of_pinned hload hkept (haccepted hr)
  · rename_i hr
    obtain ⟨store, hload⟩ := hload (Or.inr hr)
    exact advances_ask h (askable_look_of_load hload hkept (hasks hr))
  · exact advances_give h (.refl s.hosts) fun ho => (by cases ho)

theorem advances_confirmNewHost (h : s.Good hosts₀) (hc : c.Askable) :
    Advances hosts₀ s (s.exec (.confirmNewHost c) k) := by
  unfold exec
  dsimp only
  split
  · refine ⟨h, .refl s.hosts, ?_, rfl⟩
    intro op hop
    obtain rfl := List.mem_singleton.mp hop
    exact ⟨⟨hc.initial, hc.looked⟩, rfl⟩
  · exact advances_give h (.refl s.hosts) fun ho => (by cases ho)
  · exact advances_give h (.refl s.hosts) fun ho => (by cases ho)

theorem advances_recheck (h : s.Good hosts₀) (hc : c.Askable) (hconfirmed : c.confirmed = true)
    (hs : (Op.recheck c).Sighted s k) : Advances hosts₀ s (s.exec (.recheck c) k) := by
  have hpass : Pass s.hosts c true k (resolveLocked s.hosts c.hostPort c.fingerprint true k) :=
    pass_of_sighted c (fun hread => hs.1 (Or.inl hread)) fun _ => hs.2
  have hsound {hosts : Hosts} (ha : Admits (s.hosts.pinned c.hostPort) c)
      (ha' : Admits (hosts.pinned c.hostPort) c) :
      (⟨s.look c k.read, .accepted, hosts.pinned (s.look c k.read).hostPort⟩ : Verdict).Sound := by
    rw [look_hostPort]
    exact sound_look hc.initial (look_admits hc.looked ha) (Or.inr ⟨hconfirmed, ha'⟩)
  unfold exec
  dsimp only
  split
  · rename_i outcome hr
    refine advances_give h hpass.keeps ?_
    rintro rfl
    obtain ⟨hp, ha, -⟩ := hpass.accepted hr
    exact hsound ha (.of_eq hp)
  · rename_i hr
    obtain ⟨heq, hok⟩ := hpass.failed hr
    refine advances_give h hpass.keeps fun _ => ?_
    -- 読めなかったときは、操作の条件から他の指紋がない
    have ha : Admits (s.hosts.pinned c.hostPort) c := by
      cases hread : k.read with
      | ok => exact hok hread
      | absent => exact hs.1 (Or.inl hread)
      | failed => exact hs.1 (Or.inr hread)
      | panicked =>
          simp only [resolveLocked, hread, if_true] at hr
          cases hr
    rw [heq]
    exact hsound ha ha
  · exact advances_give h hpass.keeps fun ho => (by cases ho)

theorem advances (h : s.Good hosts₀) {op : Op} (hop : op.Ready s.hosts) (hs : op.Sighted s k) :
    Advances hosts₀ s (s.exec op k) := by
  cases op with
  | resolveLocked c => exact advances_resolveLocked h hop hs
  | resolveReadOnly c => exact advances_resolveReadOnly h hop hs
  | confirmNewHost c => exact advances_confirmNewHost h hop
  | recheck c => exact advances_recheck h hop.1 hop.2 hs

/-- 承認の後の処理は、承認した指紋をピン留めするか、置き場を変えない。 -/
theorem persists_recheck (hs : (Op.recheck c).Sighted s k) : c.Persists s.hosts (s.exec (.recheck c) k).1.hosts := by
  have hpass : Pass s.hosts c true k (resolveLocked s.hosts c.hostPort c.fingerprint true k) :=
    pass_of_sighted c (fun hread => hs.1 (Or.inl hread)) fun _ => hs.2
  have heq : (s.exec (.recheck c) k).1.hosts = (resolveLocked s.hosts c.hostPort c.fingerprint true k).1 := by
    unfold exec
    dsimp only
    split <;> rfl
  rw [heq]
  exact hpass.persists

end Shared

/-! ## 実行の不変条件 -/

namespace State

variable {hosts₀ : Hosts} {p p' : State}

/-- 返した結果と尋ねた照合と、次の操作の性質。 -/
def Invariant (hosts₀ : Hosts) (s : Shared) (ops : List Op) : Prop := s.Good hosts₀ ∧ ∀ op ∈ ops, op.Ready s.hosts

theorem invariant_of_run {as : List Action} (h : Run (Guarded Steps Sighted) (start hosts₀) as p) :
    Invariant hosts₀ p.shared p.pending := by
  refine Pool.invariant_of_run (I := Invariant hosts₀) ?_ ?_ ?_ h ?_
  · intro s ops ops' hperm hI
    exact ⟨hI.1, fun op hop => hI.2 op (hperm.mem_iff.mpr hop)⟩
  · intro p c s new _ hcall hI
    obtain ⟨rfl, rfl⟩ := Prod.mk.inj (Option.some.inj hcall)
    refine ⟨hI.1, ?_⟩
    intro op hop
    rcases List.mem_cons.mp hop with rfl | hop
    · exact fun _ hi => hi
    · exact hI.2 op hop
  · intro p i k op rest hC hnext _ hI
    have hadv := Shared.advances hI.1 (hI.2 op List.mem_cons_self) (hC op hnext)
    refine ⟨hadv.good, ?_⟩
    intro op' hop
    rw [hadv.spawns, List.flatten_nil, List.append_nil] at hop
    rcases List.mem_append.mp hop with hop | hop
    · exact hadv.ready op' hop
    · exact (hI.2 op' (List.mem_cons_of_mem _ hop)).mono hadv.keeps
  · exact ⟨⟨fun v hv => (by cases hv), fun c hc => (by cases hc), .refl hosts₀⟩, fun op hop => (by cases hop)⟩

end State

end IsekaiTerminal.Trust
