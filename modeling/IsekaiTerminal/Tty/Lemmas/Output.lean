import IsekaiTerminal.Tty.Lemmas.Step

/-!
# 出力の配送

占有者へこれから書かれるフレームまで含めた列が、これまでの出力を覆うことを不変条件とする。
捨てた出力があるあいだは不変条件を求めず、次の再生がそれを回復する。
-/

namespace IsekaiTerminal.Tty

open Lib

/-! ## 再生バッファ -/

/-- 末尾の `n` 個。 -/
def lastN {α : Type} (n : Nat) (l : List α) : List α := l.drop (l.length - n)

theorem lastN_of_length_le {α : Type} {n : Nat} {l : List α} (h : l.length ≤ n) : lastN n l = l := by
  rw [lastN, Nat.sub_eq_zero_of_le h, List.drop_zero]

@[simp] theorem RingBuffer.capacity_append (rb : RingBuffer) (data : List UInt8) :
    (rb.append data).capacity = rb.capacity := by
  unfold append
  split <;> rfl

/-- 再生バッファは、加えられたバイト列の末尾を持つ。 -/
theorem RingBuffer.append_buf {rb : RingBuffer} {out : List UInt8} (h : rb.buf = lastN rb.capacity out)
    (data : List UInt8) : (rb.append data).buf = lastN rb.capacity (out ++ data) := by
  have hlen : rb.buf.length = out.length - (out.length - rb.capacity) := by rw [h, lastN, List.length_drop]
  unfold append
  split
  · rename_i hge
    have hle : out.length ≤ (out ++ data).length - rb.capacity := by
      rw [List.length_append]
      omega
    have hskip : (out ++ data).length - rb.capacity - out.length = data.length - rb.capacity := by
      rw [List.length_append]
      omega
    rw [lastN, List.drop_append, List.drop_of_length_le hle, List.nil_append, hskip]
  · rename_i hlt
    have hle : (out ++ data).length - rb.capacity ≤ out.length := by
      rw [List.length_append]
      omega
    have hskip : out.length - rb.capacity + (rb.buf.length + data.length - rb.capacity) =
        (out ++ data).length - rb.capacity := by
      rw [List.length_append]
      omega
    rw [lastN, List.drop_append_of_le_length hle]
    show rb.buf.drop _ ++ data = _
    rw [← hskip, ← List.drop_drop, ← lastN, ← h]

theorem SlotState.currentReplay_eq {slot : SlotState} {output : List (List UInt8)}
    (h : slot.ring.buf = output.flatten) : slot.currentReplay = replayBytes output := by
  rw [currentReplay, RingBuffer.replay, h, replayBytes]

/-! ## 覆い -/

def RelayMsg.data? : RelayMsg → Option (List UInt8)
  | .data bytes => some bytes
  | .exit _ => none

def greetFrames (replay : List UInt8) : List Frame := if replay = [] then [] else [.stdout replay]

/-- 書くことが決まっているが、まだ書いていないフレーム。 -/
def Writer.inFlight : Writer → List Frame
  | .helloAck replay => .helloAck :: greetFrames replay
  | .greeting replay => greetFrames replay
  | .replaying snapshot => [.stdout snapshot]
  | .forwarding bytes => [.stdout bytes]
  | _ => []

/-- 取り出して、まだ書いていない出力。 -/
def Writer.taken : Writer → List (List UInt8)
  | .forwarding bytes => [bytes]
  | _ => []

def Client.queued (c : Client) : List (List UInt8) := c.queue.filterMap RelayMsg.data?

def Client.planned (c : Client) : List Frame := c.written ++ c.writer.inFlight ++ c.queued.map .stdout

theorem Covers.concat {dropped : Nat} {frames : List Frame} {output : List (List UInt8)}
    (h : Covers dropped frames output) (data : List UInt8) :
    Covers dropped (frames ++ [.stdout data]) (output ++ [data]) := by
  obtain ⟨n, hn, hdrop, head, dup, hhead, hdup, rfl⟩ := h
  refine ⟨n, ?_, hdrop, head, dup, ?_, ?_, ?_⟩
  · rw [List.length_append]
    omega
  · rwa [List.take_append_of_le_length hn]
  · rwa [List.take_append_of_le_length hn]
  · rw [List.drop_append_of_le_length hn]
    simp

/-- すべての出力の再生は、その後に古い出力が続いても、出力を覆う。 -/
theorem Covers.of_replay {dropped : Nat} {output dup : List (List UInt8)} {head : List Frame}
    (hdrop : dropped ≤ output.length) (hhead : EndsWithReplay head output) (hdup : List.Sublist dup output) :
    Covers dropped (head ++ dup.map .stdout) output := by
  refine ⟨output.length, le_rfl, hdrop, head, dup, ?_, ?_, ?_⟩
  · rwa [List.take_length]
  · rwa [List.take_length]
  · rw [List.drop_length, List.append_nil]

/-! ## 占有者の不変条件 -/

/-- 次の再生を待たずに、出力を覆っていなければならない位置。 -/
def Writer.serving : Writer → Bool
  | .helloAck _ | .greeting _ | .checking | .replaying _ | .waiting | .forwarding _ => true
  | _ => false

/-- `take_missed` の検査から次の `recv` までの位置。 -/
def Writer.betweenCheckAndRecv : Writer → Bool
  | .resyncing | .replaying _ | .waiting => true
  | _ => false

structure Sound (channelCapacity : Nat) (missed : Bool) (output : List (List UInt8)) (dropped : Nat)
    (c : Client) : Prop where
  sub : List.Sublist (c.writer.taken ++ c.queued) output
  dropped_le : dropped ≤ output.length
  covers : c.writer.serving = true → missed = false → Covers dropped c.planned output
  full : c.writer.betweenCheckAndRecv = true → missed = true → channelCapacity ≤ c.queue.length

section

variable {cap dropped : Nat} {missed : Bool} {output : List (List UInt8)} {c : Client}

theorem Sound.deliver (h : Sound cap missed output dropped c) (data : List UInt8) :
    Sound cap missed (output ++ [data]) dropped { c with queue := c.queue ++ [.data data] } where
  sub := by
    have hq : Client.queued { c with queue := c.queue ++ [.data data] } = c.queued ++ [data] := by
      simp [Client.queued, RelayMsg.data?]
    rw [hq, ← List.append_assoc]
    exact h.sub.append_right [data]
  dropped_le := by
    have hle := h.dropped_le
    rw [List.length_append]
    omega
  covers := by
    intro hserving hmissed
    have hplan : Client.planned { c with queue := c.queue ++ [.data data] } = c.planned ++ [.stdout data] := by
      simp [Client.planned, Client.queued, RelayMsg.data?]
    rw [hplan]
    exact (h.covers hserving hmissed).concat data
  full := by
    intro hbetween hmissed
    have hfull := h.full hbetween hmissed
    rw [List.length_append]
    omega

theorem Sound.drop (h : Sound cap missed output dropped c) (hc : c.canReceive cap = false) (data : List UInt8) :
    Sound cap true (output ++ [data]) (output.length + 1) c where
  sub := h.sub.trans (List.sublist_append_left _ _)
  dropped_le := by simp
  covers := by
    intro _ hmissed
    cases hmissed
  full := by
    intro hbetween _
    -- 受信端が開いているので、送れなかったのはチャネルが満ちていたからである。
    have hopen : c.writer ≠ .stopped := by
      intro hstopped
      rw [hstopped] at hbetween
      cases hbetween
    simpa [Client.canReceive, hopen] using hc

theorem Sound.notifyExit (h : Sound cap missed output dropped c) (code : UInt8) :
    Sound cap missed output dropped { c with queue := c.queue ++ [.exit code] } := by
  have hq : Client.queued { c with queue := c.queue ++ [.exit code] } = c.queued := by
    simp [Client.queued, RelayMsg.data?]
  refine ⟨?_, h.dropped_le, ?_, ?_⟩
  · rw [hq]
    exact h.sub
  · intro hserving hmissed
    rw [Client.planned, hq]
    exact h.covers hserving hmissed
  · intro hbetween hmissed
    have hfull := h.full hbetween hmissed
    rw [List.length_append]
    omega

/-- 入れ替わった直後の占有者。再生の内容は、出力の全体である。 -/
theorem Sound.fresh (replay : List UInt8) (hreplay : replay = replayBytes output) :
    Sound cap false output 0
      { queue := [], writer := .helloAck replay, written := [], reader := .starting } where
  sub := by simp [Writer.taken, Client.queued]
  dropped_le := Nat.zero_le _
  covers := by
    intro _ _
    have hhead : EndsWithReplay (.helloAck :: greetFrames replay) output := by
      by_cases hnil : replay = []
      · refine .inl ⟨by simp [greetFrames, hnil], ?_⟩
        by_contra hne
        rw [hreplay, replayBytes, if_neg hne] at hnil
        cases hnil
      · exact .inr ⟨[.helloAck], by simp [greetFrames, hnil, ← hreplay]⟩
    simpa [Client.planned, Client.queued, Writer.inFlight] using
      Covers.of_replay (Nat.zero_le _) hhead (List.nil_sublist output)
  full := by
    intro hbetween
    cases hbetween

theorem Sound.abort (h : Sound cap missed output dropped c) (reader : Reader) :
    Sound cap missed output dropped { c with writer := .stopped, reader } where
  sub := (List.sublist_append_right _ _).trans h.sub
  dropped_le := h.dropped_le
  covers := by
    intro hserving
    cases hserving
  full := by
    intro hbetween
    cases hbetween

/-- 書いたフレームと書くことが決まったフレームの全体を変えない 1 段。 -/
theorem Sound.advance (h : Sound cap missed output dropped c) {c' : Client}
    (hsub : List.Sublist (c'.writer.taken ++ c'.queued) (c.writer.taken ++ c.queued))
    (hplan : c'.writer.serving = true → c.writer.serving = true ∧ c'.planned = c.planned)
    (hfull : c'.writer.betweenCheckAndRecv = true → c.writer.betweenCheckAndRecv = true ∧ c'.queue = c.queue) :
    Sound cap missed output dropped c' where
  sub := hsub.trans h.sub
  dropped_le := h.dropped_le
  covers := by
    intro hserving hmissed
    obtain ⟨hserving, heq⟩ := hplan hserving
    rw [heq]
    exact h.covers hserving hmissed
  full := by
    intro hbetween hmissed
    obtain ⟨hbetween, heq⟩ := hfull hbetween
    rw [heq]
    exact h.full hbetween hmissed

end

/-! ## writer task の 1 段 -/

def Daemon.Serves (s : Daemon) (g : Nat) : Prop :=
  Sound s.channelCapacity s.slot.missed s.output s.dropped (s.clients g)

theorem Daemon.Serves.writerStep {s s' : Daemon} {g : Nat} (h : s.Serves g) (hocc : s.slot.occupant = some g)
    (hgen : s.slot.generation = g) (hring : s.slot.ring.buf = s.output.flatten)
    (hstep : s.writerStep g = some s') : s'.Serves g := by
  unfold Daemon.Serves at h ⊢
  unfold Daemon.writerStep at hstep
  cases hw : (s.clients g).writer with
  | helloAck replay =>
      simp only [hw] at hstep
      cases hstep
      rw [clients_setClient]
      refine h.advance ?_ ?_ ?_
      · simp [Writer.taken, hw, Client.queued]
      · simp [Writer.serving, Client.planned, Writer.inFlight, hw, Client.queued]
      · simp [Writer.betweenCheckAndRecv]
  | greeting replay =>
      simp only [hw] at hstep
      cases hstep
      rw [clients_setClient]
      refine h.advance ?_ ?_ ?_
      · simp [Writer.taken, hw, Client.queued]
      · by_cases hnil : replay = []
        · simp [Writer.serving, Client.planned, Writer.inFlight, hw, Client.queued, greetFrames, hnil]
        · simp [Writer.serving, Client.planned, Writer.inFlight, hw, Client.queued, greetFrames, hnil]
      · simp [Writer.betweenCheckAndRecv]
  | checking =>
      have htake : s.slot.takeMissed g = (s.slot.missed, { s.slot with missed := false }) := by
        simp [SlotState.takeMissed, hgen]
      simp only [hw, htake] at hstep
      cases hstep
      rw [clients_setClient]
      refine ⟨?_, h.dropped_le, ?_, ?_⟩
      · have hsub := h.sub
        rw [hw] at hsub
        cases hm : s.slot.missed <;> simpa [Writer.taken, Client.queued, hm] using hsub
      · intro hserving _
        -- 捨てた出力がなかったときだけ、そのまま待ちに入る。
        have hmissed : s.slot.missed = false := by
          by_contra hm
          simp [Bool.eq_true_of_not_eq_false hm, Writer.serving] at hserving
        have hcov := h.covers (by rw [hw]; rfl) hmissed
        simpa [Client.planned, Writer.inFlight, hw, hmissed, Client.queued] using hcov
      · intro _ hmissed
        cases hmissed
  | resyncing =>
      simp only [hw] at hstep
      cases hstep
      rw [clients_setClient]
      have hsub := h.sub
      simp only [hw, Writer.taken, List.nil_append] at hsub
      refine ⟨hsub, h.dropped_le, ?_, ?_⟩
      · intro _ _
        have hhead : EndsWithReplay ((s.clients g).written ++ [.stdout s.slot.currentReplay]) s.output :=
          .inr ⟨(s.clients g).written, by rw [SlotState.currentReplay_eq hring]⟩
        exact Covers.of_replay h.dropped_le hhead hsub
      · intro _ hmissed
        exact h.full (by rw [hw]; rfl) hmissed
  | replaying snapshot =>
      simp only [hw] at hstep
      cases hstep
      rw [clients_setClient]
      refine h.advance ?_ ?_ ?_
      · simp [Writer.taken, hw, Client.queued]
      · simp [Writer.serving, Client.planned, Writer.inFlight, hw, Client.queued]
      · simp [Writer.betweenCheckAndRecv, hw]
  | waiting =>
      simp only [hw] at hstep
      split at hstep
      case h_1 bytes queue hq =>
          cases hstep
          rw [clients_setClient]
          refine h.advance ?_ ?_ ?_
          · simp [Writer.taken, hw, Client.queued, hq, RelayMsg.data?]
          · simp [Writer.serving, Client.planned, Writer.inFlight, hw, Client.queued, hq, RelayMsg.data?]
          · simp [Writer.betweenCheckAndRecv]
      case h_2 code queue hq =>
          cases hstep
          rw [clients_setClient]
          refine h.advance ?_ ?_ ?_
          · have hskip : (RelayMsg.exit code).data? = none := rfl
            simp [Writer.taken, hw, Client.queued, hq, hskip]
          · simp [Writer.serving]
          · simp [Writer.betweenCheckAndRecv]
      case h_3 hq =>
          rw [if_pos hocc] at hstep
          cases hstep
  | forwarding bytes =>
      simp only [hw] at hstep
      cases hstep
      rw [clients_setClient]
      refine h.advance ?_ ?_ ?_
      · simp [Writer.taken, hw, Client.queued]
      · simp [Writer.serving, Client.planned, Writer.inFlight, hw, Client.queued]
      · simp [Writer.betweenCheckAndRecv]
  | stopped => simp [hw] at hstep
  | _ =>
      simp only [hw] at hstep
      cases hstep
      rw [clients_setClient]
      refine h.advance ?_ ?_ ?_
      · simp [Writer.taken, hw, Client.queued]
      · simp [Writer.serving]
      · simp [Writer.betweenCheckAndRecv]

/-- 他のクライアントの writer task は、占有者にも、占有者の `missed` にも触れない。 -/
theorem Daemon.Serves.writerStep_of_ne {s s' : Daemon} {g g' : Nat} (h : s.Serves g) (hgen : s.slot.generation = g)
    (hne : g' ≠ g) (hstep : s.writerStep g' = some s') : s'.Serves g := by
  have htake : s.slot.takeMissed g' = (false, s.slot) := by simp [SlotState.takeMissed, hgen, Ne.symm hne]
  have hset : ∀ c, (s.setClient g' c).Serves g := by
    intro c
    unfold Daemon.Serves
    rw [clients_setClient_of_ne _ _ (Ne.symm hne)]
    exact h
  unfold Daemon.writerStep at hstep
  cases hw : (s.clients g').writer with
  | waiting =>
      simp only [hw] at hstep
      split at hstep
      · cases hstep
        exact hset _
      · cases hstep
        exact hset _
      · split at hstep
        · cases hstep
        · cases hstep
          exact hset _
  | stopped => simp [hw] at hstep
  | _ =>
      simp only [hw, htake] at hstep
      cases hstep
      exact hset _

/-! ## 不変条件 -/

/-- 出力の全体が再生バッファに収まる。 -/
def Daemon.Fits (s : Daemon) : Prop := s.output.flatten.length ≤ s.slot.ring.capacity

theorem Daemon.output_broadcast (s : Daemon) (data : List UInt8) :
    (s.broadcast data).output = s.output ++ [data] := by
  unfold broadcast
  split
  · rfl
  · split <;> rfl

structure Daemon.Tracked (s : Daemon) : Prop where
  ring : s.slot.ring.buf = lastN s.slot.ring.capacity s.output.flatten
  occupied : ∀ g, s.slot.occupant = some g → s.slot.generation = g
  serves : s.Fits → ∀ g, s.slot.occupant = some g → s.Serves g

namespace Daemon.Tracked

variable {s s' : Daemon}

theorem init (ringCapacity channelCapacity : Nat) : (Daemon.init ringCapacity channelCapacity).Tracked where
  ring := by simp [Daemon.init, SlotState.new, RingBuffer.new, lastN]
  occupied := by
    intro g h
    cases h
  serves := by
    intro _ g h
    cases h

theorem ring_eq (h : s.Tracked) (hfits : s.Fits) : s.slot.ring.buf = s.output.flatten := by
  rw [h.ring, lastN_of_length_le hfits]

/-- 占有者の受け渡しの部分を変えない遷移。 -/
theorem frame (h : s.Tracked) (hring : s'.slot.ring = s.slot.ring) (hgen : s'.slot.generation = s.slot.generation)
    (hout : s'.output = s.output) (hocc : ∀ g, s'.slot.occupant = some g → s.slot.occupant = some g)
    (hserves : ∀ g, s'.slot.occupant = some g → s.Serves g → s'.Serves g) : s'.Tracked where
  ring := by rw [hring, hout, h.ring]
  occupied := by
    intro g hg
    rw [hgen]
    exact h.occupied g (hocc g hg)
  serves := by
    intro hfits g hg
    unfold Daemon.Fits at hfits
    rw [hout, hring] at hfits
    exact hserves g hg (h.serves hfits g (hocc g hg))

theorem fits_of_broadcast {data : List UInt8} (hfits : (s.broadcast data).Fits) : s.Fits := by
  have hcap : (s.broadcast data).slot.ring.capacity = s.slot.ring.capacity := by
    unfold Daemon.broadcast
    split
    · simp [SlotState.broadcast]
    · split <;> simp [SlotState.broadcast]
  unfold Daemon.Fits at hfits ⊢
  rw [Daemon.output_broadcast, hcap, List.flatten_append, List.length_append] at hfits
  omega

theorem broadcast (h : s.Tracked) (data : List UInt8) : (s.broadcast data).Tracked := by
  have hfits : (s.broadcast data).Fits → s.Fits := fits_of_broadcast
  have hring : (s.slot.ring.append data).buf =
      lastN (s.slot.ring.append data).capacity (s.output ++ [data]).flatten := by
    rw [RingBuffer.append_buf h.ring data]
    simp
  unfold Daemon.broadcast at hfits ⊢
  cases hocc : s.slot.occupant with
  | none =>
      simp only [hocc] at hfits ⊢
      refine ⟨hring, ?_, ?_⟩
      · intro g hg
        simp [SlotState.broadcast, hocc] at hg
      · intro _ g hg
        simp [SlotState.broadcast, hocc] at hg
  | some g₀ =>
      have hgen := h.occupied g₀ hocc
      by_cases hcan : (s.clients g₀).canReceive s.channelCapacity = true
      · simp only [hocc, hcan, if_true] at hfits ⊢
        refine ⟨hring, ?_, ?_⟩
        · intro g hg
          exact h.occupied g hg
        · intro hf g hg
          obtain rfl : g₀ = g := Option.some.inj (hocc.symm.trans hg)
          have hsound := (h.serves (hfits hf) g₀ hocc).deliver data
          unfold Daemon.Serves Daemon.trySend Daemon.setClient
          simpa [SlotState.broadcast, hocc] using hsound
      · simp only [hocc, hcan, if_false, Bool.false_eq_true] at hfits ⊢
        refine ⟨hring, ?_, ?_⟩
        · intro g hg
          exact h.occupied g hg
        · intro hf g hg
          obtain rfl : g₀ = g := Option.some.inj (hocc.symm.trans hg)
          have hsound := (h.serves (hfits hf) g₀ hocc).drop (Bool.eq_false_of_not_eq_true hcan) data
          unfold Daemon.Serves
          simpa [SlotState.broadcast, hocc] using hsound

theorem notifyExit (h : s.Tracked) (code : UInt8) : (s.notifyExit code).Tracked := by
  unfold Daemon.notifyExit
  split
  · exact h
  · rename_i g₀ hocc
    split
    · refine h.frame rfl rfl rfl (fun _ hg => hg) ?_
      intro g hg hserves
      obtain rfl : g₀ = g := Option.some.inj (hocc.symm.trans hg)
      unfold Daemon.Serves Daemon.trySend
      rw [clients_setClient]
      exact Sound.notifyExit hserves code
    · exact h

theorem install (h : s.Tracked) : s.install.Tracked where
  ring := h.ring
  occupied := by
    rintro g ⟨⟩
    rfl
  serves := by
    rintro hfits g ⟨⟩
    have hreplay := SlotState.currentReplay_eq (h.ring_eq hfits)
    unfold Daemon.Serves
    simp only [Daemon.install, SlotState.install, Function.update_self]
    exact Sound.fresh _ hreplay

/-- クライアントの読み取りの側だけを変える遷移。 -/
theorem setReader (h : s.Tracked) (g' : Nat) (reader : Reader) : (s.setReader g' reader).Tracked := by
  refine h.frame rfl rfl rfl (fun _ hg => hg) ?_
  intro g _ hserves
  unfold Daemon.Serves Daemon.setReader
  by_cases heq : g = g'
  · subst heq
    rw [clients_setClient]
    exact hserves.advance (List.Sublist.refl _) (fun hs => ⟨hs, rfl⟩) (fun hb => ⟨hb, rfl⟩)
  · rw [clients_setClient_of_ne _ _ heq]
    exact hserves

theorem ptyEffect (h : s.Tracked) (source : Option Nat) (f : Frame) : (s.ptyEffect source f).Tracked :=
  h.frame rfl rfl rfl (fun _ hg => hg) fun _ _ hserves => hserves

theorem writerStep (h : s.Tracked) {g' : Nat} (hstep : s.writerStep g' = some s') : s'.Tracked := by
  obtain ⟨hring, hgen, hocc, hout, -⟩ := writerStep_frame hstep
  refine ⟨?_, ?_, ?_⟩
  · rw [hring, hout, h.ring]
  · intro g hg
    rw [hgen]
    rw [hocc] at hg
    exact h.occupied g hg
  · intro hfits g hg
    rw [hocc] at hg
    have hfits' : s.Fits := by
      unfold Daemon.Fits at hfits ⊢
      rwa [hout, hring] at hfits
    have hserves := h.serves hfits' g hg
    by_cases heq : g' = g
    · subst heq
      exact hserves.writerStep hg (h.occupied g' hg) (h.ring_eq hfits') hstep
    · exact hserves.writerStep_of_ne (h.occupied g hg) heq hstep

theorem vacate (h : s.Tracked) (g' : Nat) (reader : Reader) :
    ({ s with slot := s.slot.vacate g' }.setReader g' reader).Tracked := by
  suffices hvacated : { s with slot := s.slot.vacate g' }.Tracked from hvacated.setReader g' reader
  refine h.frame ?_ ?_ rfl ?_ ?_
  · unfold SlotState.vacate
    split <;> rfl
  · unfold SlotState.vacate
    split <;> rfl
  · intro g hg
    unfold SlotState.vacate at hg
    split at hg
    · cases hg
    · exact hg
  · intro g hg hserves
    unfold SlotState.vacate at hg
    unfold Daemon.Serves at hserves
    unfold Daemon.Serves SlotState.vacate
    split at hg
    · cases hg
    · rename_i hne
      simpa [hne] using hserves

theorem abort (h : s.Tracked) (g' : Nat) :
    (s.setClient g' { s.clients g' with writer := .stopped, reader := .closed }).Tracked := by
  refine h.frame rfl rfl rfl (fun _ hg => hg) ?_
  intro g _ hserves
  unfold Daemon.Serves
  by_cases heq : g = g'
  · subst heq
    rw [clients_setClient]
    exact Sound.abort hserves .closed
  · rw [clients_setClient_of_ne _ _ heq]
    exact hserves

theorem step (h : s.Tracked) {a : Label} (hstep : Step s a s') : s'.Tracked := by
  cases stepCase hstep with
  | broadcast data => exact h.broadcast data
  | notifyExit code => exact h.notifyExit code
  | hello cols rows => exact h.ptyEffect none (.resize cols rows)
  | install => exact h.install
  | writer hw => exact h.writerStep hw
  | idle g _ => exact h.setReader g _
  | start g reader _ => exact h.setReader g reader
  | effect g frame reader _ => exact (h.ptyEffect (some g) frame).setReader g reader
  | vacate g => exact h.vacate g .aborting
  | abort g => exact h.abort g

end Daemon.Tracked

/-! ## 終了の通知 -/

/-- 終了の前に読んだ再生は、これまでの出力の全体である。 -/
def ExitReady (output : List (List UInt8)) (c : Client) : Prop :=
  (∀ snapshot code, c.writer = .exitReplaying snapshot code → snapshot = replayBytes output) ∧
    ∀ code, c.writer = .exiting code → ∃ before, c.written = before ++ [.stdout (replayBytes output)]

theorem ExitReady.of_not_closing {output : List (List UInt8)} {c : Client} (h : c.writer.closing = false) :
    ExitReady output c := by
  refine ⟨?_, ?_⟩
  · intro snapshot code hw
    rw [hw] at h
    cases h
  · intro code hw
    rw [hw] at h
    cases h

theorem ExitReady.congr {output : List (List UInt8)} {c c' : Client} (h : ExitReady output c) (hsame : SameOutput c c') :
    ExitReady output c' := by
  obtain ⟨hwriter, hwritten⟩ := hsame
  unfold ExitReady
  rw [hwriter, hwritten]
  exact h

def Daemon.ExitsReady (s : Daemon) : Prop := s.Fits → ∀ g, ExitReady s.output (s.clients g)

namespace Daemon.ExitsReady

variable {s s' : Daemon}

theorem frame (h : s.ExitsReady) (hring : s'.slot.ring = s.slot.ring) (hout : s'.output = s.output)
    (hclients : ∀ g, ExitReady s.output (s.clients g) → ExitReady s.output (s'.clients g)) : s'.ExitsReady := by
  intro hfits g
  unfold Daemon.Fits at hfits
  rw [hout, hring] at hfits
  rw [hout]
  exact hclients g (h hfits g)

theorem broadcast (h : s.ExitsReady) {data : List UInt8} (hc : UndisturbedExit s (.broadcast data)) :
    (s.broadcast data).ExitsReady := by
  intro hfits g
  have hready := h (Daemon.Tracked.fits_of_broadcast hfits) g
  have hsame := (s.sameOutput_broadcast data g).1
  by_cases hnil : data = []
  · have hout : replayBytes (s.broadcast data).output = replayBytes s.output := by
      have hflat : (s.output ++ [data]).flatten = s.output.flatten := by simp [hnil]
      rw [Daemon.output_broadcast, replayBytes, hflat, replayBytes]
    unfold ExitReady
    rw [hout]
    exact hready.congr hsame
  · refine ExitReady.of_not_closing ?_
    rw [hsame.1]
    exact hc data rfl hnil g

theorem writerStep (h : s.ExitsReady) (hT : s.Tracked) {g' : Nat} (hstep : s.writerStep g' = some s') :
    s'.ExitsReady := by
  obtain ⟨hring, -, -, hout, -⟩ := writerStep_frame hstep
  intro hfits g
  unfold Daemon.Fits at hfits
  rw [hout, hring] at hfits
  rw [hout]
  by_cases heq : g = g'
  · subst heq
    unfold Daemon.writerStep at hstep
    cases hw : (s.clients g).writer with
    | checking =>
        simp only [hw] at hstep
        cases hstep
        rw [clients_setClient]
        refine .of_not_closing ?_
        cases (s.slot.takeMissed g).1 <;> rfl
    | waiting =>
        simp only [hw] at hstep
        split at hstep
        · cases hstep
          rw [clients_setClient]
          exact .of_not_closing rfl
        · cases hstep
          rw [clients_setClient]
          exact .of_not_closing rfl
        · split at hstep
          · cases hstep
          · cases hstep
            rw [clients_setClient]
            exact .of_not_closing rfl
    | exitSnapshot code =>
        simp only [hw] at hstep
        cases hstep
        rw [clients_setClient]
        refine ⟨?_, by simp⟩
        rintro snapshot _ ⟨⟩
        exact SlotState.currentReplay_eq (hT.ring_eq hfits)
    | exitReplaying snapshot code =>
        simp only [hw] at hstep
        cases hstep
        rw [clients_setClient]
        refine ⟨by simp, ?_⟩
        rintro _ ⟨⟩
        exact ⟨(s.clients g).written, by rw [(h hfits g).1 snapshot code hw]⟩
    | stopped => simp [hw] at hstep
    | _ =>
        simp only [hw] at hstep
        cases hstep
        rw [clients_setClient]
        exact .of_not_closing rfl
  · rw [(writerStep_client hstep).1 g heq]
    exact h hfits g

theorem setReader (h : s.ExitsReady) (g : Nat) (reader : Reader) : (s.setReader g reader).ExitsReady :=
  h.frame rfl rfl fun g' hready =>
    hready.congr (s.sameOutput_setClient (c := { s.clients g with reader }) ⟨rfl, rfl⟩ g')

theorem step (h : s.ExitsReady) (hT : s.Tracked) {a : Label} (hstep : Step s a s') (hc : UndisturbedExit s a) :
    s'.ExitsReady := by
  cases stepCase hstep with
  | broadcast data => exact h.broadcast hc
  | notifyExit code =>
      refine h.frame ?_ ?_ fun g hready => hready.congr (s.sameOutput_notifyExit code g).1
      · unfold Daemon.notifyExit
        split
        · rfl
        · split <;> rfl
      · unfold Daemon.notifyExit
        split
        · rfl
        · split <;> rfl
  | hello cols rows => exact h.frame rfl rfl fun _ hready => hready
  | install =>
      refine h.frame rfl rfl ?_
      intro g hready
      by_cases heq : g = s.slot.generation + 1
      · subst heq
        simp only [Daemon.install, SlotState.install, Function.update_self]
        exact .of_not_closing rfl
      · simpa [Daemon.install, SlotState.install, heq] using hready
  | writer hw => exact h.writerStep hT hw
  | idle g _ => exact h.setReader g _
  | start g reader _ => exact h.setReader g reader
  | effect g frame reader _ =>
      have heffect : (s.ptyEffect (some g) frame).ExitsReady := h.frame rfl rfl fun _ hready => hready
      exact heffect.setReader g reader
  | vacate g =>
      have hring : (s.slot.vacate g).ring = s.slot.ring := by
        unfold SlotState.vacate
        split <;> rfl
      have hvacated : { s with slot := s.slot.vacate g }.ExitsReady := h.frame hring rfl fun _ hready => hready
      exact hvacated.setReader g .aborting
  | abort g =>
      refine h.frame rfl rfl ?_
      intro g' hready
      by_cases heq : g' = g
      · subst heq
        rw [clients_setClient]
        exact .of_not_closing rfl
      · rw [clients_setClient_of_ne _ _ heq]
        exact hready

end Daemon.ExitsReady

end IsekaiTerminal.Tty
