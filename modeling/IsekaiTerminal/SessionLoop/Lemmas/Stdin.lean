import IsekaiTerminal.SessionLoop.Stdin

/-!
# transport への入力の送出の補題

1 回の遷移がチャネルに加える命令を、送り手ごとに言い切り、実行の全体の列を帰納法で得る。
-/

namespace IsekaiTerminal.SessionLoop

open Lib

/-! ## 送り手ごとの列 -/

@[simp] theorem stdinFrom_nil (who : Sender) : stdinFrom who [] = [] := rfl

@[simp] theorem stdinFrom_append (who : Sender) (cmds cmds' : List (Sender × TransportCommand)) :
    stdinFrom who (cmds ++ cmds') = stdinFrom who cmds ++ stdinFrom who cmds' := List.filterMap_append

@[simp] theorem stdinFrom_singleton (who sender : Sender) (bytes : List UInt8) :
    stdinFrom who [(sender, .writeStdin bytes)] = if sender = who then [bytes] else [] := by
  rw [stdinFrom, List.filterMap_cons]
  split <;> simp_all

@[simp] theorem stdinFrom_control (who sender : Sender) : stdinFrom who [(sender, .control)] = [] := rfl

theorem stdinFrom_other {who : Sender} (h : who ≠ .other) (cmd : TransportCommand) : stdinFrom who [(.other, cmd)] = [] := by
  cases cmd with
  | writeStdin bytes => rw [stdinFrom_singleton, if_neg (Ne.symm h)]
  | control => rfl

/-! ## 待ち行列 -/

namespace PendingStdin

/-- 数えたバイト数が、行列にあるバイト数に等しい。 -/
def Counted (p : PendingStdin) : Prop := p.bytes = p.total

theorem Counted.push {p : PendingStdin} (h : p.Counted) (bytes : List UInt8) : (p.push bytes).Counted := by
  simp only [Counted, total, PendingStdin.push, List.map_append, List.sum_append] at h ⊢
  simp [h]

theorem Counted.pop {p p' : PendingStdin} {bytes : List UInt8} (h : p.Counted) (hpop : p.pop = some (bytes, p')) :
    p'.Counted := by
  rw [PendingStdin.pop] at hpop
  split at hpop
  · cases hpop
  · next hqueue =>
      cases hpop
      rw [Counted, total, hqueue, List.map_cons, List.sum_cons] at h
      exact Nat.sub_eq_of_eq_add' h

theorem queue_of_pop {p p' : PendingStdin} {bytes : List UInt8} (h : p.pop = some (bytes, p')) :
    p.queue = bytes :: p'.queue := by
  rw [pop] at h
  split at h
  · cases h
  · next hqueue =>
      cases h
      exact hqueue

end PendingStdin

namespace StdinState

/-! ## 1 回の遷移 -/

/-- 遷移 `a` が、命令 `sent` をチャネルに加える。 -/
structure Adds (s : StdinState) (a : StdinAction) (s' : StdinState) (sent : List (Sender × TransportCommand)) :
    Prop where
  commands : s'.commands = s.commands ++ sent
  eventLoop : stdinFrom .eventLoop sent ++ s'.waiting = s.waiting ++ a.effects
  ui : stdinFrom .ui sent = if s.channel.HasSlot then a.sends else []
  counted : s.pending.Counted → s'.pending.Counted
  closed : a ≠ .close → s'.channel.closed = s.channel.closed

/-- チャネルに何も加えず、行列も変えない。 -/
theorem Adds.idle {s s' : StdinState} {a : StdinAction} (hsends : a.sends = []) (hbuffer : s'.channel.buffer = s.channel.buffer)
    (hclosed : a ≠ .close → s'.channel.closed = s.channel.closed) (hreceived : s'.received = s.received) (hpending : s'.pending = s.pending)
    (heffects : s'.phase.effects = s.phase.effects ++ a.effects) : s.Adds a s' [] where
  commands := by simp [StdinState.commands, hbuffer, hreceived]
  eventLoop := by simp [waiting, hpending, heffects]
  ui := by simp [hsends]
  counted h := hpending ▸ h
  closed := hclosed

theorem adds_leaveSelect {s : StdinState} {a : StdinAction} {permit : Bool} {effects : List (List UInt8)}
    (hphase : s.phase = .select permit) (hsends : a.sends = []) (heffects : a.effects = effects) :
    s.Adds a (s.leaveSelect permit effects) [] := by
  refine Adds.idle hsends ?_ (fun _ => ?_) rfl rfl ?_
  · cases permit <;> rfl
  · cases permit <;> rfl
  · rw [hphase, heffects]
    rfl

theorem exists_adds_submitHead {s : StdinState} {a : StdinAction} (hsends : a.sends = []) (heffects : a.effects = []) :
    ∃ sent, s.Adds a (s.submitHead s.phase.effects) sent := by
  cases hpop : s.pending.pop with
  | none =>
      refine ⟨[], ?_⟩
      rw [submitHead, hpop]
      exact Adds.idle hsends rfl (fun _ => rfl) rfl rfl (by simp [heffects, Phase.effects])
  | some popped =>
      obtain ⟨bytes, pending⟩ := popped
      refine ⟨[(.eventLoop, .writeStdin bytes)], ?_⟩
      rw [submitHead, hpop]
      refine ⟨?_, ?_, ?_, fun h => h.pop hpop, fun _ => rfl⟩
      · simp [StdinState.commands]
      · simp [waiting, PendingStdin.queue_of_pop hpop, heffects, Phase.effects]
      · simp [hsends]

theorem adds_flushHead {s : StdinState} {a : StdinAction} {effects : List (List UInt8)} (hphase : s.phase = .flush effects)
    (halive : s.channel.closed = false) (hsends : a.sends = []) (heffects : a.effects = []) :
    s.Adds a (s.flushHead effects) [] := by
  rw [flushHead, halive]
  split
  · exact Adds.idle hsends rfl (fun _ => rfl) rfl rfl (by simp [hphase, heffects, Phase.effects])
  split
  · contradiction
  split
  · next hreserve =>
      obtain ⟨hbuffer, hclosed⟩ := Mpsc.of_tryReserve hreserve
      exact Adds.idle hsends hbuffer (fun _ => hclosed) rfl rfl (by simp [hphase, heffects, Phase.effects])
  · exact Adds.idle hsends rfl (fun _ => rfl) rfl rfl (by simp [hphase, heffects, Phase.effects])

theorem exists_adds_advance {s s' : StdinState} (h : s.advance = some s') (halive : s.channel.closed = false) :
    ∃ sent, s.Adds .advance s' sent := by
  rw [advance] at h
  split at h
  · cases h
  · next hphase =>
      cases h
      exact ⟨[], Adds.idle rfl rfl (fun _ => rfl) rfl rfl (by simp [hphase, Phase.effects, StdinAction.effects])⟩
  · next bytes effects hphase =>
      cases h
      refine ⟨[], ⟨by simp [StdinState.commands], ?_, by simp [StdinAction.sends], fun h => h.push bytes, fun _ => rfl⟩⟩
      simp [waiting, hphase, Phase.effects, PendingStdin.push, StdinAction.effects]
  · next effects hphase =>
      cases h
      exact ⟨[], adds_flushHead hphase halive rfl rfl⟩
  · next effects hphase =>
      cases h
      have hadds := exists_adds_submitHead (s := s) (a := .advance) rfl rfl
      rwa [hphase] at hadds

theorem exists_adds_arm {s s' : StdinState} {permit : Bool} {a : StdinAction} (hphase : s.phase = .select permit)
    (h : s.arm permit a = some s') (halive : s.channel.closed = false) : ∃ sent, s.Adds a s' sent := by
  cases a with
  | event effects =>
      cases h
      exact ⟨[], adds_leaveSelect hphase rfl rfl⟩
  | sessionCmd cmd =>
      simp only [arm, sessionCmd] at h
      split at h
      · cases cmd with
        | some effects =>
            cases h
            exact ⟨[], adds_leaveSelect hphase rfl rfl⟩
        | none =>
            cases h
            obtain ⟨hcommands, heventLoop, hui, hcounted, hclosed⟩ :=
              adds_leaveSelect (a := .sessionCmd none) hphase rfl rfl
            exact ⟨[], hcommands, heventLoop, hui, hcounted, hclosed⟩
      · cases h
  | acquire =>
      simp only [arm, acquire] at h
      split at h
      · cases h
      · obtain ⟨channel, hreserve, rfl⟩ := Option.map_eq_some_iff.mp h
        obtain ⟨hbuffer, hclosed⟩ := Mpsc.of_tryReserve hreserve
        exact ⟨[], Adds.idle rfl hbuffer (fun _ => hclosed) rfl rfl
          (by simp [hphase, Phase.effects, StdinAction.effects])⟩
  | reserve =>
      simp only [arm, reserve, halive, Bool.false_and] at h
      split at h
      · cases h
        have hadds := exists_adds_submitHead (s := s) (a := .reserve) rfl rfl
        rwa [hphase] at hadds
      · cases h
  | _ => cases h

theorem exists_adds {s s' : StdinState} {a : StdinAction} (h : s.step a = some s') (halive : s.channel.closed = false) :
    ∃ sent, s.Adds a s' sent := by
  cases a with
  | send bytes =>
      cases h
      refine ⟨if s.channel.HasSlot then [(.ui, .writeStdin bytes)] else [], ?_, ?_, ?_, id,
        fun _ => (Mpsc.getD_trySend s.channel _).2⟩
      · simp [StdinState.commands, (Mpsc.getD_trySend s.channel _).1]
      · split <;> simp [waiting, StdinAction.effects]
      · split <;> simp [StdinAction.sends]
  | receive =>
      obtain ⟨⟨cmd, channel⟩, hrecv, rfl⟩ := Option.map_eq_some_iff.mp h
      refine ⟨[], ?_, by simp [waiting, StdinAction.effects], by simp [StdinAction.sends], id,
        fun _ => (Mpsc.of_recv hrecv).2⟩
      simp [StdinState.commands, (Mpsc.of_recv hrecv).1]
  | close =>
      cases h
      exact ⟨[], Adds.idle rfl rfl (fun hclose => absurd rfl hclose) rfl rfl (List.append_nil _).symm⟩
  | otherReserve =>
      obtain ⟨channel, hreserve, rfl⟩ := Option.map_eq_some_iff.mp h
      obtain ⟨hbuffer, hclosed⟩ := Mpsc.of_tryReserve hreserve
      exact ⟨[], Adds.idle rfl hbuffer (fun _ => hclosed) rfl rfl (List.append_nil _).symm⟩
  | otherSubmit cmd =>
      obtain ⟨-, heq⟩ := Option.ite_none_right_eq_some.mp h
      cases heq
      refine ⟨[(.other, cmd)], by simp [StdinState.commands], ?_, ?_, id, fun _ => rfl⟩
      · simp [stdinFrom_other (show Sender.eventLoop ≠ .other by simp), waiting, StdinAction.effects]
      · simp [stdinFrom_other (show Sender.ui ≠ .other by simp), StdinAction.sends]
  | otherRelease =>
      obtain ⟨-, heq⟩ := Option.ite_none_right_eq_some.mp h
      cases heq
      exact ⟨[], Adds.idle rfl rfl (fun _ => rfl) rfl rfl (List.append_nil _).symm⟩
  | advance => exact exists_adds_advance h halive
  | _ =>
      simp only [step] at h
      split at h
      · next hphase => exact exists_adds_arm hphase h halive
      · cases h

/-! ## 実行 -/

/-- 実行 `as` の前後の、送り手ごとの列。 -/
structure Delivers (s : StdinState) (as : List StdinAction) (s' : StdinState) : Prop where
  alive : s'.channel.closed = false
  eventLoop : stdinFrom .eventLoop s'.commands ++ s'.waiting =
    stdinFrom .eventLoop s.commands ++ s.waiting ++ as.flatMap StdinAction.effects
  ui : stdinFrom .ui s'.commands = stdinFrom .ui s.commands ++ s.accepted as
  counted : s.pending.Counted → s'.pending.Counted

theorem delivers_of_run {s s' : StdinState} {as : List StdinAction} (h : Run Steps s as s')
    (halive : s.channel.closed = false) (hclose : .close ∉ as) : s.Delivers as s' := by
  induction h with
  | nil s => exact ⟨halive, by simp, by simp [accepted], id⟩
  | @cons s a mid as s' hstep _ ih =>
      simp only [List.mem_cons, not_or] at hclose
      obtain ⟨sent, hadds⟩ := exists_adds hstep halive
      have hmid : mid.channel.closed = false := (hadds.closed (Ne.symm hclose.1)).trans halive
      obtain ⟨halive', heventLoop, hui, hcounted⟩ := ih hmid hclose.2
      refine ⟨halive', ?_, ?_, fun h => hcounted (hadds.counted h)⟩
      · rw [heventLoop, hadds.commands, stdinFrom_append, List.append_assoc (stdinFrom _ _), hadds.eventLoop]
        simp
      · have haccepted : s.accepted (a :: as) = stdinFrom .ui sent ++ mid.accepted as := by
          rw [accepted, hadds.ui, show s.step a = some mid from hstep]
        rw [hui, hadds.commands, stdinFrom_append, haccepted, List.append_assoc]

/-! ## 進行 -/

/-- 次の 1 つを送るまでの操作の数の上限。 -/
def distance (s : StdinState) : Nat :=
  match s.phase with
  | .select true => 1
  | .select false => 2
  | .dispatch _ => 3
  | .flush _ => 2
  | .permit _ => 1

/-- 枠が空いているか、event loop が枠を得ている。 -/
def CanSend (s : StdinState) : Prop :=
  s.channel.closed = false ∧
    match s.phase with
    | .select true | .permit _ => True
    | _ => s.channel.HasSlot

/-- `bytes` を先頭とする行列があり、送る枠もある。`cmds` までがチャネルに入っている。 -/
structure Ready (cmds : List (Sender × TransportCommand)) (bytes : List UInt8) (s : StdinState) : Prop where
  canSend : s.CanSend
  commands : s.commands = cmds
  head : ∃ rest, s.pending.queue = bytes :: rest

variable {cmds : List (Sender × TransportCommand)} {bytes : List UInt8} {s s' : StdinState} {a : StdinAction}

theorem Ready.pop (h : Ready cmds bytes s) : ∃ pending, s.pending.pop = some (bytes, pending) := by
  obtain ⟨rest, hqueue⟩ := h.head
  exact ⟨_, by rw [PendingStdin.pop, hqueue]⟩

theorem Ready.isEmpty (h : Ready cmds bytes s) : s.pending.isEmpty = false := by
  obtain ⟨rest, hqueue⟩ := h.head
  rw [PendingStdin.isEmpty, hqueue, List.isEmpty_cons]

theorem Ready.commands_submitHead (h : Ready cmds bytes s) (effects : List (List UInt8)) :
    (s.submitHead effects).commands = cmds ++ [(.eventLoop, .writeStdin bytes)] := by
  obtain ⟨pending, hpop⟩ := h.pop
  rw [submitHead, hpop, ← h.commands]
  simp [StdinState.commands]

theorem Ready.tryReserve (h : Ready cmds bytes s) (hslot : s.channel.HasSlot) {phase : Phase}
    (hphase : phase = .select true ∨ ∃ effects, phase = .permit effects) :
    ∃ channel, s.channel.tryReserve = some channel ∧ Ready cmds bytes { s with channel := channel, phase := phase } := by
  refine ⟨_, Mpsc.tryReserve_of_hasSlot hslot, ⟨h.canSend.1, ?_⟩, h.commands, h.head⟩
  rcases hphase with rfl | ⟨effects, rfl⟩ <;> trivial

theorem Ready.exists_internal (h : Ready cmds bytes s) : ∃ a s', Internal s a s' := by
  obtain ⟨halive, hcan⟩ := h.canSend
  cases hphase : s.phase with
  | select permit =>
      cases permit with
      | true => exact ⟨.reserve, _, by simp, by simp [Steps, step, hphase, arm, StdinState.reserve]; rfl⟩
      | false =>
          rw [hphase] at hcan
          obtain ⟨channel, hreserve, -⟩ := h.tryReserve hcan (.inl rfl)
          exact ⟨.acquire, _, by simp, by simp [Steps, step, hphase, arm, acquire, h.isEmpty, hreserve]; rfl⟩
  | dispatch effects =>
      cases effects with
      | nil => exact ⟨.advance, _, by simp, by simp [Steps, step, advance, hphase]; rfl⟩
      | cons bytes effects => exact ⟨.advance, _, by simp, by simp [Steps, step, advance, hphase]; rfl⟩
  | flush effects => exact ⟨.advance, _, by simp, by simp [Steps, step, advance, hphase]; rfl⟩
  | permit effects => exact ⟨.advance, _, by simp, by simp [Steps, step, advance, hphase]; rfl⟩

theorem Ready.of_internal (h : Ready cmds bytes s) (hstep : Internal s a s') :
    s'.commands = cmds ++ [(.eventLoop, .writeStdin bytes)] ∨ Ready cmds bytes s' ∧ s'.distance < s.distance := by
  obtain ⟨halive, hcan⟩ := h.canSend
  obtain ⟨rest, hqueue⟩ := h.head
  obtain ⟨rfl | rfl | rfl, hstep⟩ := hstep
  · simp only [Steps, step] at hstep
    split at hstep
    · next permit hphase =>
        cases permit with
        | true => simp [arm, acquire] at hstep
        | false =>
            rw [hphase] at hcan
            obtain ⟨channel, hreserve, hready⟩ := h.tryReserve hcan (.inl rfl)
            simp only [arm, acquire, h.isEmpty, hreserve] at hstep
            cases hstep
            exact .inr ⟨hready, by simp [distance, hphase]⟩
    · cases hstep
  · simp only [Steps, step] at hstep
    split at hstep
    · next permit hphase =>
        cases permit with
        | true =>
            cases hstep
            exact .inl (h.commands_submitHead [])
        | false => simp [arm, StdinState.reserve, halive] at hstep
    · cases hstep
  · simp only [Steps, step, advance] at hstep
    split at hstep
    · cases hstep
    · next hphase =>
        cases hstep
        rw [hphase] at hcan
        exact .inr ⟨⟨⟨halive, hcan⟩, h.commands, h.head⟩, by simp [distance, hphase]⟩
    · next pushed effects hphase =>
        cases hstep
        rw [hphase] at hcan
        refine .inr ⟨⟨⟨halive, hcan⟩, h.commands, rest ++ [pushed], ?_⟩, by simp [distance, hphase]⟩
        simp [PendingStdin.push, hqueue]
    · next effects hphase =>
        cases hstep
        rw [hphase] at hcan
        obtain ⟨channel, hreserve, hready⟩ := h.tryReserve hcan (.inr ⟨effects, rfl⟩)
        simp only [flushHead, h.isEmpty, halive, hreserve]
        exact .inr ⟨hready, by simp [distance, hphase]⟩
    · next effects hphase =>
        cases hstep
        exact .inl (h.commands_submitHead effects)

/-- 枠が空いていて行列が空でなければ、外からの入力無しに、必ず行列の先頭を送る。 -/
theorem inevitable_of_hasSlot (hslot : s.channel.HasSlot) {rest : List (List UInt8)}
    (hqueue : s.pending.queue = bytes :: rest) :
    Inevitable Internal (fun s' => s'.commands = s.commands ++ [(.eventLoop, .writeStdin bytes)]) s := by
  have hcan : s.CanSend := by
    refine ⟨hslot.1, ?_⟩
    split
    · trivial
    · trivial
    · exact hslot
  refine Inevitable.of_rank Nat.lt_wfRel.wf distance
    (I := fun s' => s'.commands = s.commands ++ [(.eventLoop, .writeStdin bytes)] ∨ Ready s.commands bytes s')
    (fun s' hI hP => ?_) (fun s₁ a s₂ hI hP hstep => ?_) (.inr ⟨hcan, rfl, rest, hqueue⟩)
  · exact (hI.resolve_left hP).exists_internal
  · rcases (hI.resolve_left hP).of_internal hstep with hsent | ⟨hready, hlt⟩
    · exact ⟨.inl hsent, .inl hsent⟩
    · exact ⟨.inr hready, .inr hlt⟩

end StdinState

end IsekaiTerminal.SessionLoop
