import IsekaiTerminal.Tty.Daemon

/-!
# 遷移の場合分け

1 回の遷移が状態をどう変えるかを 1 度だけ場合分けする。不変条件の補題は、この場合分けから示す。
-/

namespace IsekaiTerminal.Tty

/-- 遷移の種類。読み取りの側の遷移は、権利を得るもの、作用するもの、それ以外に分かれる。 -/
inductive StepCase (s : Daemon) : Label → Daemon → Prop
  | broadcast (data : List UInt8) : StepCase s (.broadcast data) (s.broadcast data)
  | notifyExit (code : UInt8) : StepCase s (.notifyExit code) (s.notifyExit code)
  | hello (cols rows : UInt16) : StepCase s (.hello cols rows) (s.ptyEffect none (.resize cols rows))
  | install : StepCase s .install s.install
  | writer {g : Nat} {s' : Daemon} (h : s.writerStep g = some s') : StepCase s (.writer g) s'
  | idle {a : Label} (g : Nat) {reader : Reader} (h : reader.active = false) : StepCase s a (s.setReader g reader)
  | start {a : Label} (g : Nat) (reader : Reader) (h : s.slot.generation = g) : StepCase s a (s.setReader g reader)
  | effect {a : Label} (g : Nat) (frame : Frame) (reader : Reader) (h : (s.clients g).reader.active = true) :
      StepCase s a ((s.ptyEffect (some g) frame).setReader g reader)
  | vacate (g : Nat) : StepCase s (.vacate g) ({ s with slot := s.slot.vacate g }.setReader g .aborting)
  | abort (g : Nat) : StepCase s (.abort g) (s.setClient g { s.clients g with writer := .stopped, reader := .closed })

theorem stepCase {s s' : Daemon} {a : Label} (hstep : Step s a s') : StepCase s a s' := by
  unfold Step Daemon.step at hstep
  cases a with
  | broadcast data =>
      cases hstep
      exact .broadcast data
  | notifyExit code =>
      cases hstep
      exact .notifyExit code
  | hello cols rows =>
      cases hstep
      exact .hello cols rows
  | install =>
      cases hstep
      exact .install
  | writer g => exact .writer hstep
  | readFrame g frame =>
      simp only at hstep
      split at hstep
      · split at hstep
        · cases hstep
          exact .idle g rfl
        · cases hstep
          exact .idle g rfl
      · cases hstep
  | isCurrent g =>
      simp only at hstep
      split at hstep
      · cases hstep
        unfold Daemon.checkCurrent
        split
        · rename_i hcur
          have hgen : s.slot.generation = g := by simpa [SlotState.isCurrent] using hcur
          split <;> exact .start g _ hgen
        · exact .idle g rfl
      · cases hstep
  | ptyWrite g n =>
      simp only at hstep
      split at hstep
      · cases hstep
        exact .idle g rfl
      · rename_i rest hne hreader
        split at hstep
        · cases hstep
        · cases hstep
          refine .effect g _ _ ?_
          cases rest with
          | nil => exact absurd rfl hne
          | cons b rest => rw [hreader]; rfl
      · cases hstep
  | ptyWriteFailed g =>
      simp only at hstep
      split at hstep
      · cases hstep
        exact .idle g rfl
      · cases hstep
  | resize g =>
      simp only at hstep
      split at hstep
      · rename_i cols rows hreader
        cases hstep
        exact .effect g _ _ (by rw [hreader]; rfl)
      · cases hstep
  | vacate g =>
      simp only at hstep
      split at hstep
      · cases hstep
        exact .vacate g
      · cases hstep
  | abort g =>
      simp only at hstep
      split at hstep
      · cases hstep
        exact .abort g
      · cases hstep

/-! ## クライアントの更新 -/

@[simp] theorem Daemon.clients_setClient (s : Daemon) (g : Nat) (c : Client) : (s.setClient g c).clients g = c := by
  simp [setClient]

@[simp] theorem Daemon.slot_setClient (s : Daemon) (g : Nat) (c : Client) : (s.setClient g c).slot = s.slot := rfl

@[simp] theorem Daemon.output_setClient (s : Daemon) (g : Nat) (c : Client) : (s.setClient g c).output = s.output := rfl

@[simp] theorem Daemon.dropped_setClient (s : Daemon) (g : Nat) (c : Client) :
    (s.setClient g c).dropped = s.dropped := rfl

theorem Daemon.clients_setClient_of_ne (s : Daemon) {g g' : Nat} (c : Client) (h : g' ≠ g) :
    (s.setClient g c).clients g' = s.clients g' := by
  simp [setClient, h]

/-- writer task は、占有者、再生バッファ、pty に触れない。 -/
theorem Daemon.writerStep_frame {s s' : Daemon} {g : Nat} (hstep : s.writerStep g = some s') :
    s'.slot.ring = s.slot.ring ∧ s'.slot.generation = s.slot.generation ∧ s'.slot.occupant = s.slot.occupant ∧
      s'.output = s.output ∧ s'.pty = s.pty ∧ s'.channelCapacity = s.channelCapacity := by
  unfold Daemon.writerStep at hstep
  cases hw : (s.clients g).writer with
  | checking =>
      simp only [hw] at hstep
      cases hstep
      unfold SlotState.takeMissed
      split <;> exact ⟨rfl, rfl, rfl, rfl, rfl, rfl⟩
  | waiting =>
      simp only [hw] at hstep
      split at hstep
      · cases hstep
        exact ⟨rfl, rfl, rfl, rfl, rfl, rfl⟩
      · cases hstep
        exact ⟨rfl, rfl, rfl, rfl, rfl, rfl⟩
      · split at hstep
        · cases hstep
        · cases hstep
          exact ⟨rfl, rfl, rfl, rfl, rfl, rfl⟩
  | stopped => simp [hw] at hstep
  | _ =>
      simp only [hw] at hstep
      cases hstep
      exact ⟨rfl, rfl, rfl, rfl, rfl, rfl⟩

/-- writer task は、自分のクライアントだけを、読み取りの権利を与えずに変える。 -/
theorem Daemon.writerStep_client {s s' : Daemon} {g : Nat} (hstep : s.writerStep g = some s') :
    (∀ g', g' ≠ g → s'.clients g' = s.clients g') ∧
      ((s'.clients g).reader.active = true → (s.clients g).reader.active = true) := by
  unfold Daemon.writerStep at hstep
  cases hw : (s.clients g).writer with
  | waiting =>
      simp only [hw] at hstep
      split at hstep
      · cases hstep
        exact ⟨fun _ hne => clients_setClient_of_ne _ _ hne, by simp⟩
      · cases hstep
        exact ⟨fun _ hne => clients_setClient_of_ne _ _ hne, by simp⟩
      · split at hstep
        · cases hstep
        · cases hstep
          exact ⟨fun _ hne => clients_setClient_of_ne _ _ hne, by simp⟩
  | stopped => simp [hw] at hstep
  | _ =>
      simp only [hw] at hstep
      cases hstep
      exact ⟨fun _ hne => clients_setClient_of_ne _ _ hne, by simp [Reader.active]⟩

/-! ## 書き込みの側が変わらない遷移 -/

/-- クライアントの書き込みの位置と、書いたフレームが等しい。 -/
def SameOutput (c c' : Client) : Prop := c'.writer = c.writer ∧ c'.written = c.written

theorem Daemon.sameOutput_setClient (s : Daemon) {g : Nat} {c : Client} (h : SameOutput (s.clients g) c) (g' : Nat) :
    SameOutput (s.clients g') ((s.setClient g c).clients g') := by
  by_cases heq : g' = g
  · subst heq
    rwa [clients_setClient]
  · rw [clients_setClient_of_ne _ _ heq]
    exact ⟨rfl, rfl⟩

/-- クライアントの読み取りの位置が等しい。 -/
theorem Daemon.reader_setClient (s : Daemon) {g : Nat} {c : Client} (h : c.reader = (s.clients g).reader) (g' : Nat) :
    ((s.setClient g c).clients g').reader = (s.clients g').reader := by
  by_cases heq : g' = g
  · subst heq
    rwa [clients_setClient]
  · rw [clients_setClient_of_ne _ _ heq]

theorem Daemon.sameOutput_trySend (s : Daemon) (g : Nat) (msg : RelayMsg) (g' : Nat) :
    SameOutput (s.clients g') ((s.trySend g msg).clients g') ∧
      ((s.trySend g msg).clients g').reader = (s.clients g').reader :=
  ⟨s.sameOutput_setClient (c := { s.clients g with queue := (s.clients g).queue ++ [msg] }) ⟨rfl, rfl⟩ g',
    s.reader_setClient (c := { s.clients g with queue := (s.clients g).queue ++ [msg] }) rfl g'⟩

theorem Daemon.sameOutput_broadcast (s : Daemon) (data : List UInt8) (g : Nat) :
    SameOutput (s.clients g) ((s.broadcast data).clients g) ∧
      ((s.broadcast data).clients g).reader = (s.clients g).reader := by
  unfold broadcast
  split
  · exact ⟨⟨rfl, rfl⟩, rfl⟩
  · split
    · exact sameOutput_trySend { s with output := s.output ++ [data] } _ _ g
    · exact ⟨⟨rfl, rfl⟩, rfl⟩

theorem Daemon.sameOutput_notifyExit (s : Daemon) (code : UInt8) (g : Nat) :
    SameOutput (s.clients g) ((s.notifyExit code).clients g) ∧
      ((s.notifyExit code).clients g).reader = (s.clients g).reader := by
  unfold notifyExit
  split
  · exact ⟨⟨rfl, rfl⟩, rfl⟩
  · split
    · exact s.sameOutput_trySend _ _ g
    · exact ⟨⟨rfl, rfl⟩, rfl⟩

/-- チャネルの大きさは変わらない。 -/
theorem Step.channelCapacity_eq {s s' : Daemon} {a : Label} (hstep : Step s a s') :
    s'.channelCapacity = s.channelCapacity := by
  cases stepCase hstep with
  | broadcast data =>
      unfold Daemon.broadcast
      split
      · rfl
      · split <;> rfl
  | notifyExit code =>
      unfold Daemon.notifyExit
      split
      · rfl
      · split <;> rfl
  | writer hw => exact (Daemon.writerStep_frame hw).2.2.2.2.2
  | _ => rfl

/-!
## 入力の転送

検査で得た権利は、占有者が入れ替わらないかぎり正しい。
-/

structure Daemon.Exclusive (s : Daemon) : Prop where
  current : ∀ g, (s.clients g).reader.active = true → s.slot.generation = g
  fresh : ∀ e ∈ s.pty, e.Fresh

namespace Daemon.Exclusive

variable {s s' : Daemon}

theorem init (ringCapacity channelCapacity : Nat) : (Daemon.init ringCapacity channelCapacity).Exclusive where
  current := by
    intro g h
    cases h
  fresh := by simp [Daemon.init]

/-- 権利を持つクライアントを増やさず、世代も変えない遷移。 -/
theorem frame (h : s.Exclusive) (hgen : s'.slot.generation = s.slot.generation) (hpty : s'.pty = s.pty)
    (hreader : ∀ g, (s'.clients g).reader.active = true → (s.clients g).reader.active = true) : s'.Exclusive where
  current := by
    intro g hactive
    rw [hgen]
    exact h.current g (hreader g hactive)
  fresh := by
    rw [hpty]
    exact h.fresh

theorem setReader (h : s.Exclusive) (g : Nat) {reader : Reader}
    (hreader : reader.active = true → s.slot.generation = g) : (s.setReader g reader).Exclusive where
  current := by
    intro g' hactive
    by_cases heq : g' = g
    · subst heq
      unfold Daemon.setReader at hactive
      rw [clients_setClient] at hactive
      exact hreader hactive
    · unfold Daemon.setReader at hactive
      rw [clients_setClient_of_ne _ _ heq] at hactive
      exact h.current g' hactive
  fresh := h.fresh

theorem ptyEffect (h : s.Exclusive) {source : Option Nat} (frame : Frame)
    (hsource : ∀ g, source = some g → s.slot.generation = g) : (s.ptyEffect source frame).Exclusive where
  current := h.current
  fresh := by
    intro e he
    rcases List.mem_append.mp he with he | he
    · exact h.fresh e he
    · rw [List.mem_singleton.mp he]
      exact hsource

theorem step (h : s.Exclusive) {a : Label} (hstep : Step s a s') (hc : SettledInstall s a) : s'.Exclusive := by
  cases stepCase hstep with
  | broadcast data =>
      refine h.frame ?_ ?_ ?_
      · unfold Daemon.broadcast
        split
        · rfl
        · split <;> rfl
      · unfold Daemon.broadcast
        split
        · rfl
        · split <;> rfl
      · intro g hactive
        rwa [(s.sameOutput_broadcast data g).2] at hactive
  | notifyExit code =>
      refine h.frame ?_ ?_ ?_
      · unfold Daemon.notifyExit
        split
        · rfl
        · split <;> rfl
      · unfold Daemon.notifyExit
        split
        · rfl
        · split <;> rfl
      · intro g hactive
        rwa [(s.sameOutput_notifyExit code g).2] at hactive
  | hello cols rows => exact h.ptyEffect _ (by simp)
  | install =>
      have hnone := hc rfl
      refine ⟨?_, h.fresh⟩
      intro g hactive
      by_cases heq : g = s.slot.generation + 1
      · subst heq
        simp [Daemon.install, SlotState.install, Reader.active] at hactive
      · simp [Daemon.install, SlotState.install, heq, hnone g] at hactive
  | writer hw =>
      rename_i g₀
      obtain ⟨-, hgen, -, -, hpty, -⟩ := writerStep_frame hw
      obtain ⟨hother, hself⟩ := writerStep_client hw
      refine h.frame hgen hpty ?_
      intro g hactive
      by_cases heq : g = g₀
      · subst heq
        exact hself hactive
      · rwa [hother g heq] at hactive
  | idle g hidle => exact h.setReader g (by simp [hidle])
  | start g reader hgen => exact h.setReader g fun _ => hgen
  | effect g frame reader hactive =>
      have hgen := h.current g hactive
      refine (h.ptyEffect frame ?_).setReader g fun _ => hgen
      rintro _ ⟨⟩
      exact hgen
  | vacate g =>
      have hslot : (s.slot.vacate g).generation = s.slot.generation := by
        unfold SlotState.vacate
        split <;> rfl
      have hvacated : { s with slot := s.slot.vacate g }.Exclusive := h.frame hslot rfl fun _ hactive => hactive
      exact hvacated.setReader g (by simp [Reader.active])
  | abort g =>
      refine h.frame rfl rfl ?_
      intro g' hactive
      by_cases heq : g' = g
      · subst heq
        simp [Reader.active] at hactive
      · rwa [clients_setClient_of_ne _ _ heq] at hactive

theorem run {ringCapacity channelCapacity : Nat} {as : List Label}
    (hrun : Lib.Run (Lib.Guarded Step SettledInstall) (Daemon.init ringCapacity channelCapacity) as s) :
    s.Exclusive := by
  refine Lib.Run.invariant_of_guarded ?_ hrun (init ringCapacity channelCapacity)
  intro _ _ _ hE hstep hc
  exact hE.step hstep hc

end Daemon.Exclusive

end IsekaiTerminal.Tty
