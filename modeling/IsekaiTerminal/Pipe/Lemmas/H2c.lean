import IsekaiTerminal.Pipe.Lemmas.C2h

/-!
# server から client への列の不変条件

接続ごとに、server が送った列は、その接続の RESUME が告げた位置から始まる、target の列の一部である。client が
数えた位置は、標準出力に渡した chunk を数え終えている限り、標準出力に渡した長さと一致する。
-/

namespace IsekaiTerminal.Pipe

open Lib

/-! ## 途中のバイト -/

/-- client が使っている接続と、`pump_h2c` の場所。 -/
def Phase.receiving : Phase → Option (ConnId × H2cPump)
  | .pumping conn _ h2c => some (conn, h2c)
  | .dialing conn _ | .replaying conn _ _ | .reestablishing conn => some (conn, .readingRemote)
  | .disconnected | .ended => none

/-- target から読んだが、まだ接続に送っていない列。 -/
def Relay.unsent : Relay → List UInt8
  | .appending bytes | .sending bytes => bytes
  | .waiting | .writing _ | .counting _ _ => []

/-- RESUME を受け入れた接続と、その接続にまだ送っていない列。 -/
def Owner.unsentS2c : Owner → Option (ConnId × List UInt8)
  | .acking conn _ replay => some (conn, replay)
  | .replaying conn rest => some (conn, rest)
  | .relaying conn relay => some (conn, relay.unsent)
  | .parked | .granted _ | .closed => none

namespace State

variable {s s' : State} {conn : ConnId} {bytes rest : List UInt8}

/-! ## 不変条件 -/

structure H2cInv (s : State) : Prop where
  delivered : s.stdout <+: s.targetSent
  read_le : ∀ k, (s.s2c k).read ≤ (s.s2c k).sent.length
  sent : ∀ k, (s.s2c k).sent <+: s.targetSent.drop (s.deliveredOffset k)
  silent : ∀ k, s.ack k = none → (s.s2c k).sent = []
  unsent : ∀ k rest, s.owner.unsentS2c = some (k, rest) → s.deliveredOffset k ≤ s.targetSent.length ∧
    (s.s2c k).sent ++ rest = s.targetSent.drop (s.deliveredOffset k)
  holds : s.owner ≠ .closed → s.replayDisabled = false →
    ∃ teed, s.targetSent = teed ++ s.owner.unappended ∧ s.session.outputBuffer.Holds teed
  room : s.owner.unappended.length ≤ s.session.outputBuffer.remainingCapacity
  disabled : s.replayDisabled = true → s.owner = .closed ∨ ∃ k relay, s.owner = .relaying k relay
  receiving : ∀ k h2c, s.phase.receiving = some (k, h2c) →
    s.counters.h2cClientDeliveredOffset + h2c.chunkLen = s.deliveredOffset k + (s.s2c k).read ∧
      s.stdout.length + h2c.unhanded.length = s.deliveredOffset k + (s.s2c k).read ∧
      s.stdout ++ h2c.unhanded <+: s.targetSent
  unread : ∀ k w, s.phase = .dialing k w → (s.s2c k).read = 0
  resumable : s.phase = .disconnected → s.counters.h2cClientDeliveredOffset = s.stdout.length

theorem H2cInv.init (replayCapacity outputCapacity : Nat) : (init replayCapacity outputCapacity).H2cInv where
  delivered := List.prefix_rfl
  read_le _ := le_rfl
  sent _ := List.nil_prefix
  silent _ _ := rfl
  unsent k rest h := by
    obtain ⟨rfl, rfl⟩ := Prod.mk.inj (Option.some.inj h)
    exact ⟨le_rfl, rfl⟩
  holds _ _ := ⟨[], rfl, ReplayBuffer.holds_new outputCapacity⟩
  room := Nat.zero_le _
  disabled h := by cases h
  receiving k h2c h := by
    obtain ⟨rfl, rfl⟩ := Prod.mk.inj (Option.some.inj h)
    exact ⟨rfl, rfl, List.prefix_rfl⟩
  unread _ _ h := by cases h
  resumable h := by cases h

/-! ## 動作の部品が保つこと -/

theorem H2cInv.setPhase (h : s.H2cInv) (phase : Phase)
    (hd : phase ≠ .disconnected ∧ ∀ k w, phase ≠ .dialing k w)
    (hr : ∀ p, phase.receiving = some p → s.phase.receiving = some p) : { s with phase }.H2cInv :=
  { h with
    receiving := fun k h2c hk => h.receiving k h2c (hr _ hk)
    unread := fun k w hk => absurd hk (hd.2 k w)
    resumable := fun hk => absurd hk hd.1 }

theorem H2cInv.pumped (h : s.H2cInv) {c2h : C2hPump} {h2c h2c' : H2cPump}
    (hp : s.phase = .pumping conn c2h h2c) (c2h' : C2hPump) (hu : h2c'.unhanded = h2c.unhanded)
    (hl : h2c'.chunkLen = h2c.chunkLen) : (s.pumped conn c2h' h2c').H2cInv := by
  unfold State.pumped
  split
  · exact h.setPhase .ended (by simp) fun _ hk => by cases hk
  · refine { h with
      receiving := ?_
      unread := fun k w hk => by cases hk
      resumable := fun hk => by cases hk }
    intro k h2c₀ hk
    obtain ⟨rfl, rfl⟩ := Prod.mk.inj (Option.some.inj hk)
    rw [hu, hl]
    exact h.receiving conn h2c (by rw [hp]; rfl)

/-- 渡した列をすべて数え終えていれば、接続を捨てて再開を待ってよい。 -/
theorem H2cInv.disconnect (h : s.H2cInv) (h2c : H2cPump) (hp : s.phase.receiving = some (conn, h2c))
    (hc : h2c.unhanded.length = h2c.chunkLen) : { s with phase := .disconnected }.H2cInv := by
  obtain ⟨hcount, hlen, -⟩ := h.receiving conn h2c hp
  exact { h with
    receiving := fun k h2c hk => by cases hk
    unread := fun k w hk => by cases hk
    resumable := fun _ => by
      show s.counters.h2cClientDeliveredOffset = s.stdout.length
      omega }

theorem H2cInv.setOwner (h : s.H2cInv) (owner : Owner) (hne : s.owner ≠ .closed)
    (hu : ∀ p, owner.unsentS2c = some p → s.owner.unsentS2c = some p)
    (ha : owner.unappended = s.owner.unappended)
    (hd : s.replayDisabled = true → owner = .closed ∨ ∃ k relay, owner = .relaying k relay) :
    { s with owner }.H2cInv :=
  { h with
    unsent := fun k rest hk => h.unsent k rest (hu _ hk)
    holds := fun _ hk => by simp only [ha]; exact h.holds hne hk
    room := by simp only [ha]; exact h.room
    disabled := hd }

theorem H2cInv.close (h : s.H2cInv) : { s with owner := .closed }.H2cInv :=
  { h with
    unsent := fun k rest hk => by cases hk
    holds := fun hk => absurd rfl hk
    room := Nat.zero_le _
    disabled := fun _ => Or.inl rfl }

theorem H2cInv.finishS2c (h : s.H2cInv) (conn : ConnId) : (s.finishS2c conn).H2cInv := by
  have hsent (k : ConnId) : ((s.finishS2c conn).s2c k).sent = (s.s2c k).sent :=
    Stream.sent_update s.s2c conn (s.s2c conn).finish rfl k
  have hread (k : ConnId) : ((s.finishS2c conn).s2c k).read = (s.s2c k).read :=
    Stream.read_update s.s2c conn (s.s2c conn).finish rfl k
  exact { h with
    read_le := fun k => by rw [hsent, hread]; exact h.read_le k
    sent := fun k => by rw [hsent]; exact h.sent k
    silent := fun k hk => by rw [hsent]; exact h.silent k hk
    unsent := fun k rest hk => by rw [hsent]; exact h.unsent k rest hk
    receiving := fun k h2c hk => by rw [hread]; exact h.receiving k h2c hk
    unread := fun k w hk => by rw [hread]; exact h.unread k w hk }

/-- バッファに加え終えている限り、TCP はいつ park してもよい。 -/
theorem H2cInv.park (h : s.H2cInv) (hne : s.owner ≠ .closed) (ha : s.owner.unappended = []) (conn : ConnId) :
    (s.park conn).H2cInv := by
  unfold State.park
  by_cases hd : s.replayDisabled = true
  · rw [if_pos hd]
    exact (h.finishS2c conn).close
  · rw [if_neg hd]
    exact (h.finishS2c conn).setOwner .parked hne (fun _ hk => by cases hk)
      (show _ = s.owner.unappended by rw [ha]; rfl) fun hd' => absurd hd' hd

theorem H2cInv.send (h : s.H2cInv) (hu : s.owner.unsentS2c = some (conn, rest)) (hack : s.ack conn ≠ none)
    (ha : s.owner.unappended = []) (n : Nat) (owner : Owner) (hne : s.owner ≠ .closed)
    (howner : ∀ p, owner.unsentS2c = some p → p = (conn, rest.drop n)) (ha' : owner.unappended = [])
    (hd : s.replayDisabled = true → owner = .closed ∨ ∃ k relay, owner = .relaying k relay) :
    { s.setS2c conn ((s.s2c conn).push (rest.take n)) with owner }.H2cInv := by
  obtain ⟨hle, hsent⟩ := h.unsent conn rest hu
  have hpush : ((s.s2c conn).sent ++ rest.take n) ++ rest.drop n =
      s.targetSent.drop (s.deliveredOffset conn) := by
    rw [List.append_assoc, List.take_append_drop, hsent]
  have hread (k : ConnId) :
      ((s.setS2c conn ((s.s2c conn).push (rest.take n))).s2c k).read = (s.s2c k).read :=
    Stream.read_update s.s2c conn ((s.s2c conn).push (rest.take n)) rfl k
  have hself : (s.setS2c conn ((s.s2c conn).push (rest.take n))).s2c conn = (s.s2c conn).push (rest.take n) :=
    Function.update_self _ _ _
  have hne' {k : ConnId} (hk : k ≠ conn) :
      (s.setS2c conn ((s.s2c conn).push (rest.take n))).s2c k = s.s2c k := Function.update_of_ne hk _ _
  refine { h with
    read_le := ?_
    sent := ?_
    silent := ?_
    unsent := ?_
    holds := fun _ hk => by simp only [ha']; rw [← ha]; exact h.holds hne hk
    room := by simp [ha']
    disabled := hd
    receiving := fun k h2c hk => by simp only [hread]; exact h.receiving k h2c hk
    unread := fun k w hk => by rw [hread]; exact h.unread k w hk }
  · intro k
    rw [hread]
    by_cases hk : k = conn
    · subst hk
      rw [hself, Stream.push, List.length_append]
      exact (h.read_le k).trans (Nat.le_add_right _ _)
    · rw [hne' hk]; exact h.read_le k
  · intro k
    by_cases hk : k = conn
    · subst hk
      rw [hself]
      exact ⟨rest.drop n, hpush⟩
    · rw [hne' hk]; exact h.sent k
  · intro k hk'
    rw [hne' (by rintro rfl; exact hack hk')]
    exact h.silent k hk'
  · intro k rest' hk
    obtain ⟨rfl, rfl⟩ := Prod.mk.inj (howner _ hk)
    exact ⟨hle, by rw [hself]; exact hpush⟩

theorem C2hInv.unsentS2c_ne (h : s.C2hInv) {k : ConnId} (hk : s.owner.unsentS2c = some (k, rest)) :
    k ≠ s.nextConn := by
  have hnew := (h.fresh s.nextConn le_rfl).1
  rintro rfl
  cases hp : s.owner with
  | parked | granted | closed => rw [hp] at hk; cases hk
  | acking conn b bytes =>
      rw [hp] at hk
      obtain ⟨heq, -⟩ := Prod.mk.inj (Option.some.inj hk)
      exact absurd heq (h.unacked conn (by rw [hp]; rfl)).2.2.ne
  | replaying conn _ | relaying conn _ =>
      rw [hp] at hk
      obtain ⟨heq, -⟩ := Prod.mk.inj (Option.some.inj hk)
      obtain ⟨b, hack, -⟩ := h.unwritten conn _ (by rw [hp]; rfl)
      rw [heq, hnew] at hack
      cases hack

/-! ## client の動作 -/

theorem H2cInv.readRemote (h : s.H2cInv) {c2h : C2hPump} (hp : s.phase = .pumping conn c2h .readingRemote)
    {n : Nat} (hn : (s.s2c conn).CanRead n) :
    { s.setS2c conn ((s.s2c conn).advance n) with
      phase := .pumping conn c2h (.writing n ((s.s2c conn).unread.take n)) }.H2cInv := by
  obtain ⟨hcount, hlen, -⟩ := h.receiving conn .readingRemote (by rw [hp]; rfl)
  have hsent (k : ConnId) : ((s.setS2c conn ((s.s2c conn).advance n)).s2c k).sent = (s.s2c k).sent :=
    Stream.sent_update s.s2c conn ((s.s2c conn).advance n) rfl k
  have hself : (s.setS2c conn ((s.s2c conn).advance n)).s2c conn = (s.s2c conn).advance n :=
    Function.update_self _ _ _
  have hne {k : ConnId} (hk : k ≠ conn) : (s.setS2c conn ((s.s2c conn).advance n)).s2c k = s.s2c k :=
    Function.update_of_ne hk _ _
  refine { h with
    read_le := ?_
    sent := fun k => by rw [hsent]; exact h.sent k
    silent := fun k hk => by rw [hsent]; exact h.silent k hk
    unsent := fun k rest hk => by rw [hsent]; exact h.unsent k rest hk
    receiving := ?_
    unread := fun k w hk => by cases hk
    resumable := fun hk => by cases hk }
  · intro k
    rw [hsent]
    by_cases hk : k = conn
    · subst hk; rw [hself]; exact Stream.read_add_le hn (h.read_le k)
    · rw [hne hk]; exact h.read_le k
  · intro k h2c hk
    obtain ⟨rfl, rfl⟩ := Prod.mk.inj (Option.some.inj hk)
    refine ⟨?_, ?_, isPrefix_append_take (Stream.isPrefix_append_unread (h.sent conn) h.delivered hlen) n⟩
    · calc s.counters.h2cClientDeliveredOffset + n
          = s.deliveredOffset conn + ((s.s2c conn).read + n) := by rw [← Nat.add_assoc, ← hcount]; rfl
        _ = s.deliveredOffset conn + ((s.setS2c conn ((s.s2c conn).advance n)).s2c conn).read := by rw [hself]; rfl
    · calc s.stdout.length + ((s.s2c conn).unread.take n).length
          = s.stdout.length + n := by rw [Stream.length_take_unread hn]
        _ = s.deliveredOffset conn + ((s.s2c conn).read + n) := by rw [← Nat.add_assoc, ← hlen]; rfl
        _ = s.deliveredOffset conn + ((s.setS2c conn ((s.s2c conn).advance n)).s2c conn).read := by rw [hself]; rfl

/-- chunk の先頭を標準出力に渡す。数えるのは、chunk をすべて渡して `flush` した後である。 -/
theorem H2cInv.writeStdout (h : s.H2cInv) {c2h : C2hPump} {len : Nat}
    (hp : s.phase = .pumping conn c2h (.writing len rest)) (n : Nat) :
    { s with
      stdout := s.stdout ++ rest.take n
      phase := .pumping conn c2h
        (if rest.drop n = [] then .flushing len else .writing len (rest.drop n)) }.H2cInv := by
  obtain ⟨hcount, hlen, hpre⟩ := h.receiving conn (.writing len rest) (by rw [hp]; rfl)
  have hunhanded : (if rest.drop n = [] then H2cPump.flushing len else .writing len (rest.drop n)).unhanded =
      rest.drop n := by
    split
    · rename_i hnil; exact hnil.symm
    · rfl
  have hchunk : (if rest.drop n = [] then H2cPump.flushing len else .writing len (rest.drop n)).chunkLen =
      len := by
    split <;> rfl
  refine { h with
    delivered := isPrefix_append_take hpre n
    receiving := ?_
    unread := fun k w hk => by cases hk
    resumable := fun hk => by cases hk }
  intro k h2c hk
  obtain ⟨rfl, rfl⟩ := Prod.mk.inj (Option.some.inj hk)
  rw [hunhanded, hchunk]
  refine ⟨hcount, ?_, ?_⟩
  · rw [← hlen]
    simp only [H2cPump.unhanded, List.length_append, List.length_take, List.length_drop]
    omega
  · rw [List.append_assoc, List.take_append_drop]
    exact hpre

theorem H2cInv.flushStdout (h : s.H2cInv) {c2h : C2hPump} {len : Nat}
    (hp : s.phase = .pumping conn c2h (.flushing len)) :
    { s with
      counters := { s.counters with h2cClientDeliveredOffset := s.counters.h2cClientDeliveredOffset + len }
      phase := .pumping conn c2h .readingRemote }.H2cInv := by
  obtain ⟨hcount, hlen, hpre⟩ := h.receiving conn (.flushing len) (by rw [hp]; rfl)
  refine { h with
    receiving := ?_
    unread := fun k w hk => by cases hk
    resumable := fun hk => by cases hk }
  intro k h2c hk
  obtain ⟨rfl, rfl⟩ := Prod.mk.inj (Option.some.inj hk)
  exact ⟨hcount, hlen, hpre⟩

theorem H2cInv.dial (h : s.H2cInv) (hc : s.C2hInv) (hp : s.phase = .disconnected) (warmStandby : Bool) :
    { s.setRequest s.nextConn .first with
      deliveredOffset := Function.update s.deliveredOffset s.nextConn s.counters.h2cClientDeliveredOffset
      nextConn := s.nextConn + 1
      phase := .dialing s.nextConn warmStandby }.H2cInv := by
  have hnew := h.silent _ (hc.fresh s.nextConn le_rfl).1
  have hself : Function.update s.deliveredOffset s.nextConn s.counters.h2cClientDeliveredOffset s.nextConn =
      s.counters.h2cClientDeliveredOffset := Function.update_self _ _ _
  have hne {k : ConnId} (hk : k ≠ s.nextConn) :
      Function.update s.deliveredOffset s.nextConn s.counters.h2cClientDeliveredOffset k =
        s.deliveredOffset k := Function.update_of_ne hk _ _
  have hread : (s.s2c s.nextConn).read = 0 := by
    have := h.read_le s.nextConn
    simpa [hnew] using this
  refine { h with
    sent := ?_
    unsent := ?_
    receiving := ?_
    unread := fun k w hk => by cases hk; exact hread
    resumable := fun hk => by cases hk }
  · intro k
    by_cases hk : k = s.nextConn
    · subst hk
      show (s.s2c s.nextConn).sent <+: _
      rw [hnew]
      exact List.nil_prefix
    · simp only [hne hk]
      exact h.sent k
  · intro k rest hk
    have hk' : k ≠ s.nextConn := hc.unsentS2c_ne hk
    simp only [hne hk']
    exact h.unsent k rest hk
  · intro k h2c hk
    obtain ⟨rfl, rfl⟩ := Prod.mk.inj (Option.some.inj hk)
    simp only [hself]
    refine ⟨?_, ?_, by rw [H2cPump.unhanded, List.append_nil]; exact h.delivered⟩
    · exact congrArg (s.counters.h2cClientDeliveredOffset + ·) hread.symm
    · show s.stdout.length + 0 = s.counters.h2cClientDeliveredOffset + (s.s2c s.nextConn).read
      rw [hread, h.resumable hp]

theorem H2cInv.resumeAccepted (h : s.H2cInv) {w : Bool} (hp : s.phase = .dialing conn w) (b : Nat) :
    (s.resumeAccepted conn w b).H2cInv := by
  unfold State.resumeAccepted
  split
  · exact { h.setPhase .ended (by simp) (fun _ hk => by cases hk) with }
  split
  · exact { h.disconnect .readingRemote (by rw [hp]; rfl) rfl with }
  · exact h.setPhase _ (by simp) fun p hk => by rw [hp]; exact hk

theorem H2cInv.clientStep (h : s.H2cInv) (hc : s.C2hInv) {act : ClientAct}
    (hsafe : s.CountedBeforeResume (.client act)) (hs : s.clientStep act = some s') : s'.H2cInv := by
  cases act with
  | checkSpace =>
      simp only [State.clientStep] at hs
      split at hs
      · rename_i conn h2c hp
        obtain rfl := Option.some.inj hs
        exact { h.setPhase _ (by simp) (fun p hk => by rw [hp]; exact hk) with }
      · cases hs
  | readStdin bytes =>
      simp only [State.clientStep] at hs
      split at hs
      · rename_i conn h2c hp
        split at hs
        · cases hs
        · rename_i hlen
          push Not at hlen
          rw [ReplayBuffer.append_of_le (hlen.2.trans (min_le_right _ _))] at hs
          obtain rfl := Option.some.inj hs
          exact { h.setPhase _ (by simp) (fun p hk => by rw [hp]; exact hk) with }
      · cases hs
  | stdinEof =>
      simp only [State.clientStep] at hs
      split at hs
      · rename_i conn h2c hp
        obtain rfl := Option.some.inj hs
        exact { h.pumped hp .done rfl rfl with }
      · cases hs
  | sendC2h n =>
      simp only [State.clientStep] at hs
      split at hs
      · rename_i conn rest h2c hp
        obtain rfl := Option.some.inj hs
        exact { h.setPhase _ (by simp) (fun p hk => by rw [hp]; exact hk) with }
      · cases hs
  | readRemote n =>
      simp only [State.clientStep] at hs
      split at hs
      · rename_i conn c2h hp
        split at hs
        · rename_i hn
          obtain rfl := Option.some.inj hs
          exact h.readRemote hp hn
        · cases hs
      · cases hs
  | remoteEof =>
      simp only [State.clientStep] at hs
      split at hs
      · rename_i conn c2h hp
        split at hs
        · obtain rfl := Option.some.inj hs
          exact h.pumped hp c2h rfl rfl
        · cases hs
      · cases hs
  | writeStdout n =>
      simp only [State.clientStep] at hs
      split at hs
      · rename_i conn c2h len rest hp
        obtain rfl := Option.some.inj hs
        exact h.writeStdout hp n
      · cases hs
  | flushStdout =>
      simp only [State.clientStep] at hs
      split at hs
      · rename_i conn c2h len hp
        obtain rfl := Option.some.inj hs
        exact h.flushStdout hp
      · cases hs
  | pumpFailed localSide =>
      simp only [State.clientStep] at hs
      split at hs
      · rename_i conn c2h h2c hp
        split at hs
        · obtain rfl := Option.some.inj hs
          exact { h.setPhase .ended (by simp) (fun _ hk => by cases hk) with }
        · rename_i hgive
          obtain rfl := Option.some.inj hs
          refine h.disconnect h2c (by rw [hp]; rfl) ?_
          simpa [CountedBeforeResume, countedBeforeResume, hp, hgive] using hsafe
      · cases hs
  | dial warmStandby =>
      simp only [State.clientStep] at hs
      split at hs
      · rename_i hp
        obtain rfl := Option.some.inj hs
        exact h.dial hc hp warmStandby
      · cases hs
  | dialFailed =>
      simp only [State.clientStep] at hs
      split at hs
      · rename_i conn w hp
        obtain rfl := Option.some.inj hs
        exact { h.disconnect .readingRemote (by rw [hp]; rfl) rfl with }
      · cases hs
  | resumeAcked =>
      simp only [State.clientStep] at hs
      split at hs
      · rename_i conn w hp
        obtain ⟨b, -, rfl⟩ := Option.map_eq_some_iff.mp hs
        exact h.resumeAccepted hp b
      · cases hs
  | sendReplay n =>
      simp only [State.clientStep] at hs
      split at hs
      · rename_i conn b rest hp
        split at hs <;> obtain rfl := Option.some.inj hs
        · exact { h.setPhase (.reestablishing conn) (by simp) (fun p hk => by rw [hp]; exact hk) with }
        · exact { h.setPhase (.replaying conn b (rest.drop n)) (by simp)
            (fun p hk => by rw [hp]; exact hk) with }
      · cases hs
  | replayFailed =>
      simp only [State.clientStep] at hs
      split at hs
      · rename_i conn b rest hp
        obtain rfl := Option.some.inj hs
        exact { h.disconnect .readingRemote (by rw [hp]; rfl) rfl with }
      · cases hs
  | controlReestablished =>
      simp only [State.clientStep] at hs
      split at hs
      · rename_i conn hp
        obtain rfl := Option.some.inj hs
        exact h.setPhase _ (by simp) fun p hk => by rw [hp]; exact hk
      · cases hs
  | giveUp =>
      simp only [State.clientStep] at hs
      split at hs
      · obtain rfl := Option.some.inj hs
        exact h.setPhase _ (by simp) fun _ hk => by cases hk
      · cases hs
  | sendAppAck =>
      obtain rfl := Option.some.inj hs
      exact { h with }
  | recvAppAck offset =>
      simp only [State.clientStep] at hs
      split at hs
      · split at hs
        · obtain rfl := Option.some.inj hs
          exact { h with }
        · obtain rfl := Option.some.inj hs
          exact h
      · cases hs

/-! ## server の動作 -/

theorem H2cInv.setRelay (h : s.H2cInv) {relay : Relay} (relay' : Relay) (hp : s.owner = .relaying conn relay)
    (hu : relay'.unsent = relay.unsent)
    (ha : Owner.unappended (.relaying conn relay') = Owner.unappended (.relaying conn relay)) :
    { s with owner := .relaying conn relay' }.H2cInv := by
  refine h.setOwner _ (by rw [hp]; simp) ?_ (by rw [ha, hp]) fun _ => Or.inr ⟨conn, relay', rfl⟩
  intro p hk
  rw [hp]
  simpa only [Owner.unsentS2c, hu] using hk

/-- 中継していない session では、バッファは target から読んだ列の末尾を保持する。 -/
theorem H2cInv.holds_of_not_relaying (h : s.H2cInv) {owner : Owner} (hp : s.owner = owner)
    (hr : owner ≠ .closed ∧ ∀ k relay, owner ≠ .relaying k relay) :
    s.replayDisabled = false ∧ s.session.outputBuffer.Holds s.targetSent := by
  have hd : s.replayDisabled = false := by
    by_contra hne
    rcases h.disabled (Bool.not_eq_false _ ▸ hne) with hcl | ⟨k, relay, hrel⟩
    · exact hr.1 (hp.symm.trans hcl)
    · exact hr.2 k relay (hp.symm.trans hrel)
  obtain ⟨teed, hteed, hholds⟩ := h.holds (by rw [hp]; exact hr.1) hd
  have hnil : s.owner.unappended = [] := by
    rw [hp]
    cases owner with
    | relaying k relay => exact absurd rfl (hr.2 k relay)
    | parked | granted | acking | replaying | closed => rfl
  rw [hnil, List.append_nil] at hteed
  exact ⟨hd, hteed ▸ hholds⟩

theorem H2cInv.resumeRequested (h : s.H2cInv) (hs : s.serverStep (.resumeRequested conn) = some s') :
    s'.H2cInv := by
  have hgrant (hp : s.owner = .parked) : { s with owner := .granted conn }.H2cInv := by
    obtain ⟨hd, -⟩ := h.holds_of_not_relaying hp (by simp)
    refine h.setOwner _ (by rw [hp]; simp) (fun _ hk => by cases hk) (by rw [hp]; rfl) ?_
    intro hd'; rw [hd] at hd'; cases hd'
  simp only [State.serverStep] at hs
  split at hs
  · cases hs
  · rename_i hp
    obtain rfl := Option.some.inj hs
    exact { hgrant hp with }
  · obtain rfl := Option.some.inj hs
    exact { h with }
  · obtain rfl := Option.some.inj hs
    exact { h with }
  · obtain rfl := Option.some.inj hs
    exact { h with }
  · rename_i hp
    obtain rfl := Option.some.inj hs
    exact { hgrant hp with }
  · obtain rfl := Option.some.inj hs
    exact { h with }

/-- RESUME を受け入れた server は、client が告げた位置から先を送る。 -/
theorem H2cInv.snapshot (h : s.H2cInv) (hc : s.C2hInv) (hp : s.owner = .granted conn) {b : Nat}
    (hr : s.session.outputBuffer.replayFrom (s.deliveredOffset conn) = some bytes) :
    { s with owner := .acking conn b bytes }.H2cInv := by
  obtain ⟨hd, hholds⟩ := h.holds_of_not_relaying hp (by simp)
  obtain ⟨-, hend, rfl⟩ := hholds.replayFrom_eq_some.mp hr
  have hsent := h.silent conn (hc.unacked conn (by rw [hp]; rfl)).1
  refine { h with
    unsent := ?_
    holds := fun _ _ => ⟨s.targetSent, (List.append_nil _).symm, hholds⟩
    room := Nat.zero_le _
    disabled := fun hd' => by rw [hd] at hd'; cases hd' }
  intro k rest hk
  obtain ⟨rfl, rfl⟩ := Prod.mk.inj (Option.some.inj hk)
  refine ⟨hend.trans_eq hholds.end_eq, ?_⟩
  show (s.s2c conn).sent ++ _ = _
  rw [hsent, List.nil_append]

/-- target から読んだ chunk。replay を諦めていなければ、送る前にバッファに加わる。 -/
theorem H2cInv.readTarget (h : s.H2cInv) (hp : s.owner = .relaying conn .waiting)
    (hlen : bytes.length ≤ s.s2cReadLen) :
    { s with
      targetSent := s.targetSent ++ bytes
      owner := .relaying conn (if s.replayDisabled then .sending bytes else .appending bytes) }.H2cInv := by
  obtain ⟨hle, hsent⟩ := h.unsent conn [] (by rw [hp]; rfl)
  have hunsent : (if s.replayDisabled then Relay.sending bytes else .appending bytes).unsent = bytes := by
    split <;> rfl
  refine { h with
    delivered := h.delivered.trans (List.prefix_append _ _)
    sent := fun k => ?_
    unsent := fun k rest hk => ?_
    holds := fun _ hd => ?_
    room := ?_
    disabled := fun _ => Or.inr ⟨conn, _, rfl⟩
    receiving := fun k h2c hk => ?_ }
  · simp only [List.drop_append]
    exact (h.sent k).trans (List.prefix_append _ _)
  · obtain ⟨rfl, rfl⟩ := Prod.mk.inj (Option.some.inj hk)
    refine ⟨hle.trans (by simp), ?_⟩
    rw [hunsent, List.drop_append_of_le_length hle, ← hsent, List.append_nil]
  · obtain ⟨teed, hteed, hholds⟩ := h.holds (by rw [hp]; simp) hd
    rw [hp, show (Owner.relaying conn .waiting).unappended = [] from rfl, List.append_nil] at hteed
    refine ⟨teed, ?_, hholds⟩
    simp only [show s.replayDisabled = false from hd, hteed]
    rfl
  · unfold s2cReadLen at hlen
    split at hlen
    · rename_i hd
      simp [hd, Owner.unappended]
    · rename_i hd
      simp only [hd]
      exact hlen.trans (min_le_left _ _)
  · obtain ⟨hcount, hlen', hpre⟩ := h.receiving k h2c hk
    exact ⟨hcount, hlen', hpre.trans (List.prefix_append _ _)⟩

theorem H2cInv.append (h : s.H2cInv) (hp : s.owner = .relaying conn (.appending bytes))
    {outputBuffer : ReplayBuffer} (ha : s.session.outputBuffer.append bytes = some outputBuffer) :
    { s with
      session := { s.session with outputBuffer }
      owner := .relaying conn (.sending bytes) }.H2cInv := by
  refine { h with
    unsent := ?_
    holds := ?_
    room := Nat.zero_le _
    disabled := fun _ => Or.inr ⟨conn, _, rfl⟩ }
  · intro k rest hk
    exact h.unsent k rest (by rw [hp]; exact hk)
  · intro _ hd
    obtain ⟨teed, hteed, hholds⟩ := h.holds (by rw [hp]; simp) hd
    rw [hp, Owner.unappended] at hteed
    exact ⟨teed ++ bytes, hteed.trans (List.append_nil _).symm, hholds.append ha⟩

theorem H2cInv.recvAppAck (h : s.H2cInv) (offset : Nat) :
    { s with session := { s.session with
      outputBuffer := s.session.outputBuffer.advanceStart offset } }.H2cInv := by
  refine { h with holds := ?_, room := h.room.trans ?_ }
  · intro hne hd
    obtain ⟨teed, hteed, hholds⟩ := h.holds hne hd
    exact ⟨teed, hteed, hholds.advanceStart offset⟩
  · simp only [ReplayBuffer.remainingCapacity, ReplayBuffer.advanceStart, List.length_drop]
    omega

theorem C2hInv.ack_ne_none (h : s.C2hInv) (rest : List UInt8) (hp : s.owner.unwritten = some (conn, rest)) :
    s.ack conn ≠ none := by
  obtain ⟨b, hack, -⟩ := h.unwritten conn rest hp
  rw [hack]
  simp

theorem H2cInv.serverStep (h : s.H2cInv) (hc : s.C2hInv) {act : ServerAct}
    (hs : s.serverStep act = some s') : s'.H2cInv := by
  cases act with
  | resumeRequested conn => exact h.resumeRequested hs
  | snapshot =>
      simp only [State.serverStep] at hs
      split at hs
      · rename_i conn hp
        split at hs <;> obtain rfl := Option.some.inj hs
        · exact h.park (by rw [hp]; simp) (by rw [hp]; rfl) conn
        · rename_i bytes hr
          exact h.snapshot hc hp hr
      · cases hs
  | sendAck =>
      simp only [State.serverStep] at hs
      split at hs
      · rename_i conn b bytes hp
        obtain rfl := Option.some.inj hs
        obtain ⟨hd, hholds⟩ := h.holds_of_not_relaying hp (by simp)
        refine { h.setOwner (.replaying conn bytes) (by rw [hp]; simp) (by rw [hp]; exact fun _ hk => hk)
          (by rw [hp]; rfl) (fun hd' => by rw [hd] at hd'; cases hd') with silent := fun k hk => h.silent k ?_ }
        by_contra hne
        have heq : k ≠ conn := by
          rintro rfl
          simp [Function.update_self] at hk
        exact hne ((Function.update_of_ne heq _ _).symm.trans hk)
      · cases hs
  | sendReplay n =>
      simp only [State.serverStep] at hs
      split at hs
      · rename_i conn rest hp
        obtain ⟨hd, -⟩ := h.holds_of_not_relaying hp (by simp)
        have hu : s.owner.unsentS2c = some (conn, rest) := by rw [hp]; rfl
        have hack : s.ack conn ≠ none := hc.ack_ne_none [] (by rw [hp]; rfl)
        have ha : s.owner.unappended = [] := by rw [hp]; rfl
        have hne : s.owner ≠ .closed := by rw [hp]; simp
        split at hs <;> obtain rfl := Option.some.inj hs
        · rename_i hnil
          refine { h.send hu hack ha n (.relaying conn .waiting) hne ?_ rfl
            (fun _ => Or.inr ⟨conn, _, rfl⟩) with }
          intro p hk
          rw [hnil]; exact (Option.some.inj hk).symm
        · exact h.send hu hack ha n _ hne (fun p hk => (Option.some.inj hk).symm) rfl
            fun hd' => by rw [hd] at hd'; cases hd'
      · cases hs
  | resumeFailed =>
      obtain ⟨conn, rfl, hne, -, ha⟩ := serverStep_park hs (by simp)
      exact h.park hne ha conn
  | readClient n =>
      simp only [State.serverStep] at hs
      split at hs
      · rename_i conn hp
        split at hs
        · obtain rfl := Option.some.inj hs
          exact { h.setRelay (.writing _) hp rfl rfl with }
        · cases hs
      · cases hs
  | clientEof =>
      simp only [State.serverStep] at hs
      split at hs
      · split at hs
        · obtain rfl := Option.some.inj hs
          exact { h with }
        · cases hs
      · cases hs
  | writeTarget n =>
      simp only [State.serverStep] at hs
      split at hs
      · rename_i conn rest hp
        split at hs
        · obtain rfl := Option.some.inj hs
          exact { h.setRelay (.counting n _) hp rfl rfl with }
        · cases hs
      · cases hs
  | count =>
      simp only [State.serverStep] at hs
      split at hs
      · rename_i conn k rest hp
        obtain rfl := Option.some.inj hs
        refine { h.setRelay (if rest = [] then .waiting else .writing rest) hp ?_ ?_ with } <;> split <;> rfl
      · cases hs
  | readTarget bytes =>
      simp only [State.serverStep] at hs
      split at hs
      · rename_i conn hp
        split at hs
        · cases hs
        · rename_i hlen
          push Not at hlen
          obtain rfl := Option.some.inj hs
          exact h.readTarget hp hlen.2
      · cases hs
  | append =>
      simp only [State.serverStep] at hs
      split at hs
      · rename_i conn bytes hp
        have hroom : bytes.length ≤ s.session.outputBuffer.remainingCapacity := by
          have := h.room
          rwa [hp] at this
        rw [ReplayBuffer.append_of_le hroom] at hs
        obtain rfl := Option.some.inj hs
        exact h.append hp (ReplayBuffer.append_of_le hroom)
      · cases hs
  | sendS2c n =>
      simp only [State.serverStep] at hs
      split at hs
      · rename_i conn rest hp
        obtain rfl := Option.some.inj hs
        refine h.send (by rw [hp]; rfl) (hc.ack_ne_none [] (by rw [hp]; rfl)) (by rw [hp]; rfl) n _
          (by rw [hp]; simp) ?_ (by split <;> rfl) fun _ => Or.inr ⟨conn, _, rfl⟩
        intro p hk
        split at hk
        · rename_i hnil; rw [hnil]; exact (Option.some.inj hk).symm
        · exact (Option.some.inj hk).symm
      · cases hs
  | giveUpReplay =>
      simp only [State.serverStep] at hs
      split at hs
      · rename_i conn hp
        split at hs
        · obtain rfl := Option.some.inj hs
          exact { h with
            holds := fun _ hd => by cases hd
            disabled := fun _ => Or.inr ⟨conn, _, hp⟩ }
        · cases hs
      · cases hs
  | dataStreamDied =>
      obtain ⟨conn, rfl, hne, -, ha⟩ := serverStep_park hs (by simp)
      exact h.park hne ha conn
  | preempt =>
      obtain ⟨conn, rfl, hne, -, ha⟩ := serverStep_park hs (by simp)
      exact h.park hne ha conn
  | targetEof =>
      obtain ⟨conn, rfl⟩ := serverStep_discard hs (by simp)
      exact (h.finishS2c conn).close
  | targetFailed =>
      obtain ⟨conn, rfl⟩ := serverStep_discard hs (by simp)
      exact (h.finishS2c conn).close
  | aborted =>
      obtain ⟨conn, rfl⟩ := serverStep_discard hs (by simp)
      exact (h.finishS2c conn).close
  | expired =>
      simp only [State.serverStep] at hs
      split at hs
      · obtain rfl := Option.some.inj hs
        exact h.close
      · cases hs
  | sendAppAck =>
      obtain rfl := Option.some.inj hs
      exact { h with }
  | recvAppAck offset =>
      simp only [State.serverStep] at hs
      split at hs
      · obtain rfl := Option.some.inj hs
        exact h.recvAppAck offset
      · cases hs

/-- 渡した列を数え終える前に再開しない限り、どの動作も server から client への列の不変条件を保つ。 -/
theorem H2cInv.step (h : s.H2cInv) (hc : s.C2hInv) {act : Act} (hs : s.Step act s')
    (hsafe : s.CountedBeforeResume act) : s'.H2cInv := by
  cases act with
  | client act => exact h.clientStep hc hsafe hs
  | server act => exact h.serverStep hc hs

theorem H2cInv.run (hc : s.C2hInv) (h : s.H2cInv) {acts : List Act}
    (hrun : Run (Guarded Step CountedBeforeResume) s acts s') : s'.C2hInv ∧ s'.H2cInv := by
  refine Run.invariant_of_guarded (I := fun s => s.C2hInv ∧ s.H2cInv) ?_ hrun ⟨hc, h⟩
  rintro s act s' ⟨hc, h⟩ hs hsafe
  exact ⟨hc.step hs, h.step hc hs hsafe⟩

/-- 標準出力に渡した列を数え終えていることを確かめながら進む。 -/
def checkedStep (s : State) (act : Act) : Option State :=
  if s.countedBeforeResume act then s.step act else none

theorem guarded_of_checkedStep {act : Act} (h : s.checkedStep act = some s') :
    Guarded Step CountedBeforeResume s act s' := by
  unfold checkedStep at h
  split at h
  · rename_i hsafe; exact ⟨h, hsafe⟩
  · cases h

end State

end IsekaiTerminal.Pipe
