import IsekaiTerminal.Lib.Transition
import IsekaiTerminal.Pipe.Session

/-!
# client から server への列の不変条件

接続ごとに、client が送った列は、その接続の `RESUME_ACK` が告げた位置から始まる標準入力の一部である。TCP を持つ
中継が読んだ列は、target に書いた列のちょうど続きである。
-/

namespace IsekaiTerminal.Pipe

open Lib

/-! ## 途中のバイト -/

/-- バッファに加えたが、まだ送っていない列。 -/
def C2hPump.unsent : C2hPump → List UInt8
  | .sending rest => rest
  | .checking | .readingStdin | .done => []

/-- client が使っている接続と、その接続にまだ送っていない列。 -/
def Phase.unsentC2h : Phase → Option (ConnId × List UInt8)
  | .pumping conn c2h _ => some (conn, c2h.unsent)
  | .replaying conn _ rest => some (conn, rest)
  | .reestablishing conn => some (conn, [])
  | .disconnected | .dialing _ _ | .ended => none

/-- 接続から読んだが、まだ target に書いていない列。 -/
def Relay.unwritten : Relay → List UInt8
  | .writing rest | .counting _ rest => rest
  | .waiting | .appending _ | .sending _ => []

/-- `RESUME_ACK` を送り終えた接続と、その接続から読んでまだ書いていない列。 -/
def Owner.unwritten : Owner → Option (ConnId × List UInt8)
  | .replaying conn _ => some (conn, [])
  | .relaying conn relay => some (conn, relay.unwritten)
  | .parked | .granted _ | .acking _ _ _ | .closed => none

/-- TCP を受け取ったが、まだ `RESUME_ACK` を送っていない接続。 -/
def Owner.unacked : Owner → Option ConnId
  | .granted conn | .acking conn _ _ => some conn
  | .parked | .replaying _ _ | .relaying _ _ | .closed => none

/-- target から読んだが、まだバッファに加えていない列。 -/
def Owner.unappended : Owner → List UInt8
  | .relaying _ (.appending bytes) => bytes
  | _ => []

theorem Stream.sent_update (streams : ConnId → Stream) (conn : ConnId) (stream : Stream)
    (h : stream.sent = (streams conn).sent) (k : ConnId) :
    (Function.update streams conn stream k).sent = (streams k).sent := by
  by_cases hk : k = conn
  · subst hk; simpa using h
  · simp [hk]

theorem Stream.read_update (streams : ConnId → Stream) (conn : ConnId) (stream : Stream)
    (h : stream.read = (streams conn).read) (k : ConnId) :
    (Function.update streams conn stream k).read = (streams k).read := by
  by_cases hk : k = conn
  · subst hk; simpa using h
  · simp [hk]

/-- 位置 `base` から始まる接続の列のうち、読んだところまでが `written` に収まっていれば、まだ読んでいない列は
そのちょうど続きである。 -/
theorem Stream.isPrefix_append_unread {stream : Stream} {base : Nat} {written whole : List UInt8}
    (hsent : stream.sent <+: whole.drop base) (hw : written <+: whole)
    (hlen : written.length = base + stream.read) : written ++ stream.unread <+: whole := by
  have hunread : stream.unread <+: whole.drop written.length := by
    rw [hlen, ← List.drop_drop]
    exact hsent.drop _
  have happ := (List.prefix_append_right_inj written).mpr hunread
  rwa [prefix_append_drop hw] at happ

theorem Stream.length_take_unread {stream : Stream} {n : Nat} (hn : stream.CanRead n) :
    (stream.unread.take n).length = n := by
  rw [List.length_take, min_eq_left hn.2.2]

theorem Stream.read_add_le {stream : Stream} {n : Nat} (hn : stream.CanRead n)
    (hread : stream.read ≤ stream.sent.length) : stream.read + n ≤ stream.sent.length := by
  have hle := hn.2.2
  rw [unread, List.length_drop] at hle
  omega

namespace State

variable {s s' : State} {conn : ConnId} {bytes rest : List UInt8}

/-! ## 動作の分類 -/

/-- park する動作は、書いた分を数え、読んだ列をバッファに加えた後にだけ起こる。 -/
theorem serverStep_park {act : ServerAct} (hs : s.serverStep act = some s')
    (hact : act = .resumeFailed ∨ act = .dataStreamDied ∨ act = .preempt) :
    ∃ conn, s' = s.park conn ∧ s.owner ≠ .closed ∧ s.owner.uncounted = 0 ∧ s.owner.unappended = [] := by
  rcases hact with rfl | rfl | rfl <;> simp only [serverStep] at hs
  · split at hs
    case h_1 conn _ _ hp | h_2 conn _ hp =>
      exact ⟨conn, (Option.some.inj hs).symm, by simp [hp], by rw [hp]; rfl, by rw [hp]; rfl⟩
    case h_3 => cases hs
  · split at hs
    case h_1 conn hp | h_2 conn _ hp =>
      exact ⟨conn, (Option.some.inj hs).symm, by simp [hp], by rw [hp]; rfl, by rw [hp]; rfl⟩
    case h_3 => cases hs
  · split at hs
    case h_1 conn hp | h_2 conn _ hp | h_3 conn _ hp =>
      obtain ⟨-, hs⟩ := Option.ite_none_right_eq_some.mp hs
      exact ⟨conn, (Option.some.inj hs).symm, by simp [hp], by rw [hp]; rfl, by rw [hp]; rfl⟩
    case h_4 => cases hs

theorem serverStep_discard {act : ServerAct} (hs : s.serverStep act = some s')
    (hact : act = .targetEof ∨ act = .targetFailed ∨ act = .aborted) : ∃ conn, s' = s.discard conn := by
  rcases hact with rfl | rfl | rfl <;> simp only [serverStep] at hs <;> split at hs
  all_goals first
    | cases hs; done
    | exact ⟨_, (Option.some.inj hs).symm⟩

/-! ## 不変条件 -/

structure C2hInv (s : State) : Prop where
  holds : s.replay.Holds s.stdin
  written : s.target <+: s.stdin
  counted_le : s.session.helperCommittedOffset ≤ s.target.length
  counted : s.owner ≠ .closed → s.session.helperCommittedOffset + s.owner.uncounted = s.target.length
  read_le : ∀ k, (s.c2s k).read ≤ (s.c2s k).sent.length
  sent : ∀ k b, s.ack k = some b → b ≤ s.stdin.length ∧ (s.c2s k).sent <+: s.stdin.drop b
  silent : ∀ k, s.ack k = none → (s.c2s k).sent = []
  dialing : ∀ k w, s.phase = .dialing k w → (s.c2s k).sent = []
  unsent : ∀ k rest, s.phase.unsentC2h = some (k, rest) →
    ∃ b, s.ack k = some b ∧ (s.c2s k).sent ++ rest = s.stdin.drop b
  unwritten : ∀ k rest, s.owner.unwritten = some (k, rest) → ∃ b, s.ack k = some b ∧
    s.target.length + rest.length = b + (s.c2s k).read ∧ s.target ++ rest <+: s.stdin
  acking : ∀ k b bytes, s.owner = .acking k b bytes → b = s.session.helperCommittedOffset
  unacked : ∀ k, s.owner.unacked = some k → s.ack k = none ∧ s.request k = .absent ∧ k < s.nextConn
  requested : ∀ k, s.request k ≠ .absent → s.ack k = none
  fresh : ∀ k, s.nextConn ≤ k → s.ack k = none ∧ s.request k = .absent

theorem C2hInv.init (replayCapacity outputCapacity : Nat) : (init replayCapacity outputCapacity).C2hInv where
  holds := ReplayBuffer.holds_new replayCapacity
  written := List.prefix_rfl
  counted_le := le_rfl
  counted _ := rfl
  read_le _ := le_rfl
  sent k b h := by
    by_cases hk : k = 0
    · subst hk
      obtain rfl : 0 = b := by simpa [State.init] using h
      exact ⟨le_rfl, List.nil_prefix⟩
    · simp [State.init, hk] at h
  silent _ _ := rfl
  dialing _ _ _ := rfl
  unsent k rest h := by
    obtain ⟨rfl, rfl⟩ := Prod.mk.inj (Option.some.inj h)
    exact ⟨0, rfl, rfl⟩
  unwritten k rest h := by
    obtain ⟨rfl, rfl⟩ := Prod.mk.inj (Option.some.inj h)
    exact ⟨0, rfl, rfl, List.prefix_rfl⟩
  acking _ _ _ h := by cases h
  unacked _ h := by cases h
  requested _ h := absurd rfl h
  fresh k h := by
    have hk : k ≠ 0 := Nat.ne_of_gt h
    exact ⟨by simp [State.init, hk], rfl⟩

/-! ## 動作の部品が保つこと -/

theorem C2hInv.setPhase (h : s.C2hInv) {phase : Phase}
    (hd : ∀ k w, phase = .dialing k w → (s.c2s k).sent = [])
    (hu : ∀ k rest, phase.unsentC2h = some (k, rest) →
      ∃ b, s.ack k = some b ∧ (s.c2s k).sent ++ rest = s.stdin.drop b) :
    { s with phase }.C2hInv :=
  { h with dialing := hd, unsent := hu }

theorem C2hInv.setPhase_of_eq (h : s.C2hInv) {phase : Phase} (hd : ∀ k w, phase ≠ .dialing k w)
    (hu : ∀ p, phase.unsentC2h = some p → s.phase.unsentC2h = some p) : { s with phase }.C2hInv :=
  h.setPhase (fun k w hk => absurd hk (hd k w)) fun k rest hk => h.unsent k rest (hu _ hk)

theorem C2hInv.finishC2s (h : s.C2hInv) (conn : ConnId) : (s.finishC2s conn).C2hInv := by
  have hsent (k : ConnId) : ((s.finishC2s conn).c2s k).sent = (s.c2s k).sent :=
    Stream.sent_update s.c2s conn (s.c2s conn).finish rfl k
  have hread (k : ConnId) : ((s.finishC2s conn).c2s k).read = (s.c2s k).read :=
    Stream.read_update s.c2s conn (s.c2s conn).finish rfl k
  exact { h with
    read_le := fun k => by rw [hsent, hread]; exact h.read_le k
    sent := fun k b hk => by rw [hsent]; exact h.sent k b hk
    silent := fun k hk => by rw [hsent]; exact h.silent k hk
    dialing := fun k w hk => by rw [hsent]; exact h.dialing k w hk
    unsent := fun k rest hk => by rw [hsent]; exact h.unsent k rest hk
    unwritten := fun k rest hk => by rw [hread]; exact h.unwritten k rest hk }

theorem C2hInv.send (h : s.C2hInv) (hu : s.phase.unsentC2h = some (conn, rest)) (n : Nat) (phase : Phase)
    (hd : ∀ k w, phase ≠ .dialing k w) (hphase : ∀ p, phase.unsentC2h = some p → p = (conn, rest.drop n)) :
    { s.setC2s conn ((s.c2s conn).push (rest.take n)) with phase }.C2hInv := by
  obtain ⟨b, hack, hsent⟩ := h.unsent conn rest hu
  have hpush : ((s.c2s conn).sent ++ rest.take n) ++ rest.drop n = s.stdin.drop b := by
    rw [List.append_assoc, List.take_append_drop, hsent]
  have hread (k : ConnId) :
      ((s.setC2s conn ((s.c2s conn).push (rest.take n))).c2s k).read = (s.c2s k).read :=
    Stream.read_update s.c2s conn ((s.c2s conn).push (rest.take n)) rfl k
  have hself : (s.setC2s conn ((s.c2s conn).push (rest.take n))).c2s conn = (s.c2s conn).push (rest.take n) :=
    Function.update_self _ _ _
  have hne {k : ConnId} (hk : k ≠ conn) :
      (s.setC2s conn ((s.c2s conn).push (rest.take n))).c2s k = s.c2s k := Function.update_of_ne hk _ _
  refine { h with
    read_le := ?_
    sent := ?_
    silent := ?_
    dialing := fun k w hk => absurd hk (hd k w)
    unsent := ?_
    unwritten := fun k rest hk => by simp only [hread]; exact h.unwritten k rest hk }
  · intro k
    simp only [hread]
    by_cases hk : k = conn
    · subst hk
      rw [hself, Stream.push, List.length_append]
      exact (h.read_le k).trans (Nat.le_add_right _ _)
    · rw [hne hk]; exact h.read_le k
  · intro k b' hb
    by_cases hk : k = conn
    · subst hk
      obtain rfl := Option.some.inj (hack.symm.trans hb)
      rw [hself]
      exact ⟨(h.sent k b hb).1, rest.drop n, hpush⟩
    · rw [hne hk]; exact h.sent k b' hb
  · intro k hk'
    have hk : k ≠ conn := by
      rintro rfl
      rw [show s.ack k = none from hk'] at hack
      cases hack
    rw [hne hk]; exact h.silent k hk'
  · intro k rest' hk
    obtain ⟨rfl, rfl⟩ := Prod.mk.inj (hphase _ hk)
    rw [hself]
    exact ⟨b, hack, hpush⟩

theorem C2hInv.setOwner (h : s.C2hInv) (owner : Owner)
    (hc : owner ≠ .closed → s.session.helperCommittedOffset + owner.uncounted = s.target.length)
    (hw : ∀ p, owner.unwritten = some p → s.owner.unwritten = some p)
    (ha : ∀ k b bytes, owner = .acking k b bytes → b = s.session.helperCommittedOffset)
    (hn : ∀ k, owner.unacked = some k → s.owner.unacked = some k) : { s with owner }.C2hInv :=
  { h with
    counted := hc
    unwritten := fun k rest hk => h.unwritten k rest (hw _ hk)
    acking := ha
    unacked := fun k hk => h.unacked k (hn k hk) }

theorem C2hInv.counted_eq (h : s.C2hInv) {owner : Owner} (hp : s.owner = owner) (hne : owner ≠ .closed)
    (hc : owner.uncounted = 0) : s.session.helperCommittedOffset = s.target.length := by
  have := h.counted (by rwa [hp])
  rwa [hp, hc] at this

/-- 数え終えている限り、TCP はいつ park してもよい。 -/
theorem C2hInv.park (h : s.C2hInv) (hne : s.owner ≠ .closed) (hc : s.owner.uncounted = 0) (conn : ConnId) :
    (s.park conn).C2hInv := by
  refine { h.setOwner (if s.replayDisabled then .closed else .parked) (fun _ => ?_) ?_ ?_ ?_ with }
  · have hcount := h.counted_eq rfl hne hc
    split <;> simpa [Owner.uncounted] using hcount
  · intro p hp; split at hp <;> cases hp
  · intro k b bytes hk; split at hk <;> cases hk
  · intro k hk; split at hk <;> cases hk

theorem C2hInv.close (h : s.C2hInv) : { s with owner := .closed }.C2hInv :=
  h.setOwner _ (fun hne => absurd rfl hne) (fun _ hp => by cases hp) (fun _ _ _ hk => by cases hk)
    fun _ hk => by cases hk

theorem C2hInv.setRelay (h : s.C2hInv) {relay : Relay} (relay' : Relay) (hp : s.owner = .relaying conn relay)
    (hu : relay'.unwritten = relay.unwritten)
    (hc : Owner.uncounted (.relaying conn relay') = Owner.uncounted (.relaying conn relay)) :
    { s with owner := .relaying conn relay' }.C2hInv := by
  refine h.setOwner _ ?_ ?_ ?_ ?_
  · intro _
    rw [hc, ← hp]
    exact h.counted (by rw [hp]; simp)
  · intro p hk
    rw [hp]
    simpa only [Owner.unwritten, hu] using hk
  · intro k b bytes hk; cases hk
  · intro k hk; cases hk

/-! ## client の動作 -/

/-- 標準入力を読んだ chunk は、送る前にバッファに加わる。 -/
theorem C2hInv.readStdin (h : s.C2hInv) {h2c : H2cPump} (hp : s.phase = .pumping conn .readingStdin h2c)
    {replay : ReplayBuffer} (ha : s.replay.append bytes = some replay) :
    { s with stdin := s.stdin ++ bytes, replay, phase := .pumping conn (.sending bytes) h2c }.C2hInv := by
  refine { h with
    holds := h.holds.append ha
    written := h.written.trans (List.prefix_append _ _)
    sent := ?_
    dialing := fun k w hk => by cases hk
    unsent := ?_
    unwritten := ?_ }
  · intro k b hk
    obtain ⟨hle, hpre⟩ := h.sent k b hk
    refine ⟨hle.trans (by simp), ?_⟩
    rw [List.drop_append_of_le_length hle]
    exact hpre.trans (List.prefix_append _ _)
  · intro k rest hk
    obtain ⟨rfl, rfl⟩ := Prod.mk.inj (Option.some.inj hk)
    obtain ⟨b, hack, hsent⟩ := h.unsent conn [] (by rw [hp]; rfl)
    refine ⟨b, hack, ?_⟩
    rw [List.drop_append_of_le_length (h.sent conn b hack).1, ← hsent, List.append_nil]
    rfl
  · intro k rest hk
    obtain ⟨b, hack, hlen, hpre⟩ := h.unwritten k rest hk
    exact ⟨b, hack, hlen, hpre.trans (List.prefix_append _ _)⟩

theorem C2hInv.dial (h : s.C2hInv) (warmStandby : Bool) (deliveredOffset : ConnId → Nat) :
    { s.setRequest s.nextConn .first with
      deliveredOffset, nextConn := s.nextConn + 1, phase := .dialing s.nextConn warmStandby }.C2hInv := by
  have hnew := h.fresh s.nextConn le_rfl
  have hreq {k : ConnId} (hk : k ≠ s.nextConn) : (s.setRequest s.nextConn .first).request k = s.request k :=
    Function.update_of_ne hk _ _
  refine { h with dialing := ?_, unsent := ?_, unacked := ?_, requested := ?_, fresh := ?_ }
  · intro k w hk
    cases hk
    exact h.silent _ hnew.1
  · intro k rest hk; cases hk
  · intro k hk
    obtain ⟨hack, habs, hlt⟩ := h.unacked k hk
    exact ⟨hack, (hreq hlt.ne).trans habs, hlt.trans (Nat.lt_succ_self _)⟩
  · intro k hk
    by_cases hne : k = s.nextConn
    · subst hne; exact hnew.1
    · exact h.requested k (by rwa [← hreq hne])
  · intro k hk
    have hlt : s.nextConn < k := hk
    exact ⟨(h.fresh k hlt.le).1, (hreq hlt.ne').trans (h.fresh k hlt.le).2⟩

/-- 範囲の中の offset で受け入れた再開は、その位置から先を再送する。 -/
theorem C2hInv.resumeAccepted (h : s.C2hInv) {w : Bool} (hp : s.phase = .dialing conn w) {b : Nat}
    (hack : s.ack conn = some b) : (s.resumeAccepted conn w b).C2hInv := by
  unfold State.resumeAccepted
  split
  · exact (h.finishC2s conn).setPhase_of_eq (by simp) (fun _ hp => by cases hp)
  cases hr : s.replay.replayFrom b with
  | none => exact (h.finishC2s conn).setPhase_of_eq (by simp) (fun _ hp => by cases hp)
  | some bytes =>
      obtain ⟨-, -, rfl⟩ := h.holds.replayFrom_eq_some.mp hr
      refine h.setPhase (by simp) ?_
      intro k rest hk
      obtain ⟨rfl, rfl⟩ := Prod.mk.inj (Option.some.inj hk)
      exact ⟨b, hack, by rw [h.dialing conn w hp, List.nil_append]⟩

theorem C2hInv.clientStep (h : s.C2hInv) {act : ClientAct} (hs : s.clientStep act = some s') :
    s'.C2hInv := by
  cases act with
  | checkSpace =>
      simp only [State.clientStep] at hs
      split at hs
      · rename_i conn h2c hp
        obtain rfl := Option.some.inj hs
        refine { h.setPhase_of_eq (by simp) ?_ with holds := h.holds.advanceStart _ }
        intro p hk
        rw [hp]
        split at hk <;> exact hk
      · cases hs
  | readStdin bytes =>
      simp only [State.clientStep] at hs
      split at hs
      · rename_i conn h2c hp
        split at hs
        · cases hs
        · rename_i hlen
          push Not at hlen
          rw [ReplayBuffer.append_of_le (hlen.2.trans (min_le_right _ _))] at hs
          obtain rfl := Option.some.inj hs
          exact h.readStdin hp (ReplayBuffer.append_of_le (hlen.2.trans (min_le_right _ _)))
      · cases hs
  | stdinEof =>
      simp only [State.clientStep] at hs
      split at hs
      · rename_i conn h2c hp
        obtain rfl := Option.some.inj hs
        refine (h.finishC2s conn).setPhase_of_eq ?_ ?_
        · intro k w; split <;> simp
        · intro p hk
          rw [show (s.finishC2s conn).phase = s.phase from rfl, hp]
          split at hk
          · cases hk
          · exact hk
      · cases hs
  | sendC2h n =>
      simp only [State.clientStep] at hs
      split at hs
      · rename_i conn rest h2c hp
        obtain rfl := Option.some.inj hs
        refine h.send (by rw [hp]; rfl) n _ (by simp) ?_
        intro p hk
        split at hk
        · rename_i hnil; rw [hnil]; exact (Option.some.inj hk).symm
        · exact (Option.some.inj hk).symm
      · cases hs
  | readRemote n =>
      simp only [State.clientStep] at hs
      split at hs
      · rename_i conn c2h hp
        split at hs
        · obtain rfl := Option.some.inj hs
          refine { h.setPhase_of_eq (by simp) ?_ with }
          intro p hk
          rw [hp]; exact hk
        · cases hs
      · cases hs
  | remoteEof =>
      simp only [State.clientStep] at hs
      split at hs
      · rename_i conn c2h hp
        split at hs
        · obtain rfl := Option.some.inj hs
          refine h.setPhase_of_eq ?_ ?_
          · intro k w; split <;> simp
          · intro p hk
            rw [hp]
            split at hk
            · cases hk
            · exact hk
        · cases hs
      · cases hs
  | writeStdout n =>
      simp only [State.clientStep] at hs
      split at hs
      · rename_i conn c2h len rest hp
        obtain rfl := Option.some.inj hs
        refine { h.setPhase_of_eq (by simp) ?_ with }
        intro p hk
        rw [hp]; exact hk
      · cases hs
  | flushStdout =>
      simp only [State.clientStep] at hs
      split at hs
      · rename_i conn c2h len hp
        obtain rfl := Option.some.inj hs
        refine { h.setPhase_of_eq (by simp) ?_ with }
        intro p hk
        rw [hp]; exact hk
      · cases hs
  | pumpFailed localSide =>
      simp only [State.clientStep] at hs
      split at hs
      · rename_i conn c2h h2c hp
        split at hs
        · obtain rfl := Option.some.inj hs
          exact (h.finishC2s conn).setPhase_of_eq (by simp) fun _ hk => by cases hk
        · obtain rfl := Option.some.inj hs
          exact h.setPhase_of_eq (by simp) fun _ hk => by cases hk
      · cases hs
  | dial warmStandby =>
      simp only [State.clientStep] at hs
      split at hs
      · obtain rfl := Option.some.inj hs
        exact h.dial warmStandby _
      · cases hs
  | dialFailed =>
      simp only [State.clientStep] at hs
      split at hs
      · rename_i conn w hp
        obtain rfl := Option.some.inj hs
        exact (h.finishC2s conn).setPhase_of_eq (by simp) fun _ hk => by cases hk
      · cases hs
  | resumeAcked =>
      simp only [State.clientStep] at hs
      split at hs
      · rename_i conn w hp
        obtain ⟨b, hack, rfl⟩ := Option.map_eq_some_iff.mp hs
        exact h.resumeAccepted hp hack
      · cases hs
  | sendReplay n =>
      simp only [State.clientStep] at hs
      split at hs
      · rename_i conn b rest hp
        have hu : s.phase.unsentC2h = some (conn, rest) := by rw [hp]; rfl
        split at hs
        · rename_i hnil
          obtain rfl := Option.some.inj hs
          refine { h.send hu n (.reestablishing conn) (by simp) ?_ with
            holds := h.holds.advanceStart b }
          intro p hk
          rw [hnil]; exact (Option.some.inj hk).symm
        · obtain rfl := Option.some.inj hs
          exact h.send hu n _ (by simp) fun p hk => (Option.some.inj hk).symm
      · cases hs
  | replayFailed =>
      simp only [State.clientStep] at hs
      split at hs
      · rename_i conn b rest hp
        obtain rfl := Option.some.inj hs
        exact (h.finishC2s conn).setPhase_of_eq (by simp) fun _ hk => by cases hk
      · cases hs
  | controlReestablished =>
      simp only [State.clientStep] at hs
      split at hs
      · rename_i conn hp
        obtain rfl := Option.some.inj hs
        exact h.setPhase_of_eq (by simp) fun p hk => by rw [hp]; exact hk
      · cases hs
  | giveUp =>
      simp only [State.clientStep] at hs
      split at hs
      · obtain rfl := Option.some.inj hs
        exact h.setPhase_of_eq (by simp) fun _ hk => by cases hk
      · cases hs
  | sendAppAck =>
      obtain rfl := Option.some.inj hs
      exact { h with }
  | recvAppAck offset =>
      simp only [State.clientStep] at hs
      split at hs
      · split at hs
        · obtain rfl := Option.some.inj hs
          exact { h with }
        · obtain rfl := Option.some.inj hs
          exact h
      · cases hs

/-! ## server の動作 -/

theorem C2hInv.grant (h : s.C2hInv) (hp : s.owner = .parked) (hr : s.request conn ≠ .absent) :
    { s.setRequest conn .absent with owner := .granted conn }.C2hInv := by
  have hack := h.requested conn hr
  have hlt : conn < s.nextConn := by
    by_contra hge
    exact hr (h.fresh conn (not_lt.mp hge)).2
  have habs (k : ConnId) (hk : s.request k = .absent) : (s.setRequest conn .absent).request k = .absent := by
    simp only [setRequest, Function.update_apply]
    split
    · rfl
    · exact hk
  have hcount := h.counted_eq hp (by simp) rfl
  refine { h with
    counted := fun _ => hcount
    unwritten := fun k rest hk => by cases hk
    acking := fun k b bytes hk => by cases hk
    unacked := ?_
    requested := ?_
    fresh := fun k hk => ⟨(h.fresh k hk).1, habs k (h.fresh k hk).2⟩ }
  · intro k hk
    obtain rfl := Option.some.inj hk
    exact ⟨hack, by simp [setRequest], hlt⟩
  · intro k hk
    exact h.requested k fun hk' => hk (habs k hk')

theorem C2hInv.setRequest (h : s.C2hInv) (hr : s.request conn ≠ .absent) (request : Request) :
    (s.setRequest conn request).C2hInv := by
  have hne {k : ConnId} (hk : k ≠ conn) : (s.setRequest conn request).request k = s.request k :=
    Function.update_of_ne hk _ _
  have hother {k : ConnId} (hk : s.request k = .absent) : (s.setRequest conn request).request k = .absent := by
    rw [hne (by rintro rfl; exact hr hk), hk]
  refine { h with unacked := ?_, requested := ?_, fresh := ?_ }
  · intro k hk
    obtain ⟨hack, habs, hlt⟩ := h.unacked k hk
    exact ⟨hack, hother habs, hlt⟩
  · intro k hk
    exact h.requested k fun habs => hk (hother habs)
  · intro k hk
    exact ⟨(h.fresh k hk).1, hother (h.fresh k hk).2⟩

theorem C2hInv.resumeRequested (h : s.C2hInv) (hs : s.serverStep (.resumeRequested conn) = some s') :
    s'.C2hInv := by
  have hreq {request : Request} (hr : s.request conn = request) (hne : request ≠ .absent) :
      s.request conn ≠ .absent := by rwa [hr]
  simp only [State.serverStep] at hs
  split at hs
  · cases hs
  · rename_i hr hp
    obtain rfl := Option.some.inj hs
    exact h.grant hp (hreq hr (by simp))
  · rename_i hr hp
    obtain rfl := Option.some.inj hs
    exact h.setRequest (hreq hr (by simp)) .absent
  · rename_i hr hp
    obtain rfl := Option.some.inj hs
    exact { h.setRequest (hreq hr (by simp)) .again with }
  · rename_i hr _ _ _
    obtain rfl := Option.some.inj hs
    exact h.setRequest (hreq hr (by simp)) .again
  · rename_i hr hp
    obtain rfl := Option.some.inj hs
    exact h.grant hp (hreq hr (by simp))
  · rename_i hr _
    obtain rfl := Option.some.inj hs
    exact h.setRequest (hreq hr (by simp)) .absent

/-- `RESUME_ACK` は、その時点で target に書き終えた位置を告げる。接続の列はそこから始まる。 -/
theorem C2hInv.sendAck (h : s.C2hInv) {b : Nat} (hp : s.owner = .acking conn b bytes) :
    { s with ack := Function.update s.ack conn (some b), owner := .replaying conn bytes }.C2hInv := by
  obtain ⟨hack, habs, hlt⟩ := h.unacked conn (by rw [hp]; rfl)
  have hsent := h.silent conn hack
  have hb := h.acking conn b bytes hp
  have hcount := h.counted_eq hp (by simp) rfl
  have hread : (s.c2s conn).read = 0 := by
    have := h.read_le conn
    simpa [hsent] using this
  have hne {k : ConnId} (hk : k ≠ conn) : Function.update s.ack conn (some b) k = s.ack k :=
    Function.update_of_ne hk _ _
  have hself : Function.update s.ack conn (some b) conn = some b := Function.update_self _ _ _
  refine { h with
    counted := fun _ => hcount
    sent := ?_
    silent := ?_
    unsent := ?_
    unwritten := ?_
    acking := fun k b bytes hk => by cases hk
    unacked := fun k hk => by cases hk
    requested := ?_
    fresh := ?_ }
  · intro k b' hk
    by_cases heq : k = conn
    · subst heq
      obtain rfl := Option.some.inj (hself.symm.trans hk)
      refine ⟨?_, by simp only [hsent]; exact List.nil_prefix⟩
      rw [hb, hcount]
      exact h.written.length_le
    · exact h.sent k b' ((hne heq).symm.trans hk)
  · intro k hk
    by_cases heq : k = conn
    · subst heq
      cases hself.symm.trans hk
    · exact h.silent k ((hne heq).symm.trans hk)
  · intro k rest hk
    obtain ⟨b', hb', hsent'⟩ := h.unsent k rest hk
    refine ⟨b', ?_, hsent'⟩
    have heq : k ≠ conn := by rintro rfl; rw [hack] at hb'; cases hb'
    exact (hne heq).trans hb'
  · intro k rest hk
    obtain ⟨rfl, rfl⟩ := Prod.mk.inj (Option.some.inj hk)
    refine ⟨b, hself, ?_, ?_⟩
    · rw [hread, hb, hcount]; rfl
    · rw [List.append_nil]; exact h.written
  · intro k hk
    have heq : k ≠ conn := by rintro rfl; exact hk habs
    exact (hne heq).trans (h.requested k hk)
  · intro k hk
    exact ⟨(hne (hlt.trans_le hk).ne').trans (h.fresh k hk).1, (h.fresh k hk).2⟩

theorem C2hInv.readClient (h : s.C2hInv) (hp : s.owner = .relaying conn .waiting) {n : Nat}
    (hn : (s.c2s conn).CanRead n) :
    { s.setC2s conn ((s.c2s conn).advance n) with
      owner := .relaying conn (.writing ((s.c2s conn).unread.take n)) }.C2hInv := by
  obtain ⟨b, hack, hlen, -⟩ := h.unwritten conn [] (by rw [hp]; rfl)
  have hcount := h.counted_eq hp (by simp) rfl
  have hsent (k : ConnId) : ((s.setC2s conn ((s.c2s conn).advance n)).c2s k).sent = (s.c2s k).sent :=
    Stream.sent_update s.c2s conn ((s.c2s conn).advance n) rfl k
  have hself : (s.setC2s conn ((s.c2s conn).advance n)).c2s conn = (s.c2s conn).advance n :=
    Function.update_self _ _ _
  have hne {k : ConnId} (hk : k ≠ conn) : (s.setC2s conn ((s.c2s conn).advance n)).c2s k = s.c2s k :=
    Function.update_of_ne hk _ _
  refine { h with
    counted := fun _ => hcount
    read_le := ?_
    sent := fun k b hk => by rw [hsent]; exact h.sent k b hk
    silent := fun k hk => by rw [hsent]; exact h.silent k hk
    dialing := fun k w hk => by rw [hsent]; exact h.dialing k w hk
    unsent := fun k rest hk => by rw [hsent]; exact h.unsent k rest hk
    unwritten := ?_
    acking := fun k b bytes hk => by cases hk
    unacked := fun k hk => by cases hk }
  · intro k
    rw [hsent]
    by_cases hk : k = conn
    · subst hk; rw [hself]; exact Stream.read_add_le hn (h.read_le k)
    · rw [hne hk]; exact h.read_le k
  · intro k rest hk
    obtain ⟨rfl, rfl⟩ := Prod.mk.inj (Option.some.inj hk)
    refine ⟨b, hack, ?_, ?_⟩
    · calc s.target.length + ((s.c2s conn).unread.take n).length
          = s.target.length + n := by rw [Stream.length_take_unread hn]
        _ = b + ((s.c2s conn).read + n) := by rw [← Nat.add_assoc, ← hlen]; rfl
        _ = b + ((s.setC2s conn ((s.c2s conn).advance n)).c2s conn).read := by rw [hself]; rfl
    · exact isPrefix_append_take (Stream.isPrefix_append_unread (h.sent conn b hack).2 h.written hlen) n

/-- `write` が返した分だけ、書いた列が延びる。数えるのはその後である。 -/
theorem C2hInv.writeTarget (h : s.C2hInv) (hp : s.owner = .relaying conn (.writing rest)) {n : Nat}
    (hn : n ≤ rest.length) :
    { s with
      target := s.target ++ rest.take n
      owner := .relaying conn (.counting n (rest.drop n)) }.C2hInv := by
  obtain ⟨b, hack, hlen, hpre⟩ := h.unwritten conn rest (by rw [hp]; rfl)
  have hcount := h.counted_eq hp (by simp) rfl
  have hlen' : (s.target ++ rest.take n).length = s.target.length + n := by simp [hn]
  refine { h with
    written := isPrefix_append_take hpre n
    counted_le := ?_
    counted := fun _ => ?_
    unwritten := ?_
    acking := fun k b bytes hk => by cases hk
    unacked := fun k hk => by cases hk }
  · rw [hlen']; exact h.counted_le.trans (Nat.le_add_right _ _)
  · simp only [hlen', hcount]; rfl
  · intro k rest' hk
    obtain ⟨rfl, rfl⟩ := Prod.mk.inj (Option.some.inj hk)
    refine ⟨b, hack, ?_, ?_⟩
    · simp only [hlen', Relay.unwritten, List.length_drop]
      omega
    · rw [Relay.unwritten, List.append_assoc, List.take_append_drop]
      exact hpre

theorem C2hInv.count (h : s.C2hInv) {k : Nat} (hp : s.owner = .relaying conn (.counting k rest)) :
    { s with
      session := { s.session with helperCommittedOffset := s.session.helperCommittedOffset + k }
      owner := .relaying conn (if rest = [] then .waiting else .writing rest) }.C2hInv := by
  have hcount : s.session.helperCommittedOffset + k = s.target.length := by
    simpa [hp, Owner.uncounted] using h.counted (by rw [hp]; simp)
  obtain ⟨b, hack, hlen, hpre⟩ := h.unwritten conn rest (by rw [hp]; rfl)
  refine { h with
    counted_le := hcount.le
    counted := fun _ => ?_
    unwritten := ?_
    acking := fun k b bytes hk => by cases hk
    unacked := fun k hk => by cases hk }
  · split <;> exact hcount
  · intro j rest' hk
    split at hk <;> obtain ⟨rfl, rfl⟩ := Prod.mk.inj (Option.some.inj hk)
    · rename_i hnil
      subst hnil
      exact ⟨b, hack, hlen, hpre⟩
    · exact ⟨b, hack, hlen, hpre⟩

theorem C2hInv.serverStep (h : s.C2hInv) {act : ServerAct} (hs : s.serverStep act = some s') :
    s'.C2hInv := by
  cases act with
  | resumeRequested conn => exact h.resumeRequested hs
  | snapshot =>
      simp only [State.serverStep] at hs
      split at hs
      · rename_i conn hp
        have hcount := h.counted_eq hp (by simp) rfl
        split at hs <;> obtain rfl := Option.some.inj hs
        · exact h.park (by rw [hp]; simp) (by rw [hp]; rfl) conn
        · refine h.setOwner _ (fun _ => hcount) (fun _ hk => by cases hk) ?_ ?_
          · intro k b bytes hk; cases hk; rfl
          · intro k hk; rw [hp]; exact hk
      · cases hs
  | sendAck =>
      simp only [State.serverStep] at hs
      split at hs
      · rename_i conn b bytes hp
        obtain rfl := Option.some.inj hs
        exact h.sendAck hp
      · cases hs
  | sendReplay n =>
      simp only [State.serverStep] at hs
      split at hs
      · rename_i conn rest hp
        have hcount := h.counted_eq hp (by simp) rfl
        split at hs <;> obtain rfl := Option.some.inj hs
        · refine { h.setOwner (.relaying conn .waiting) (fun _ => hcount) ?_ (by simp)
            (fun _ hk => by cases hk) with }
          intro p hk; rw [hp]; exact hk
        · refine { h.setOwner (.replaying conn (rest.drop n)) (fun _ => hcount) ?_ (by simp)
            (fun _ hk => by cases hk) with }
          intro p hk; rw [hp]; exact hk
      · cases hs
  | resumeFailed =>
      obtain ⟨conn, rfl, hne, hc, -⟩ := serverStep_park hs (by simp)
      exact h.park hne hc conn
  | readClient n =>
      simp only [State.serverStep] at hs
      split at hs
      · rename_i conn hp
        split at hs
        · rename_i hn
          obtain rfl := Option.some.inj hs
          exact h.readClient hp hn.2
        · cases hs
      · cases hs
  | clientEof =>
      simp only [State.serverStep] at hs
      split at hs
      · split at hs
        · obtain rfl := Option.some.inj hs
          exact { h with }
        · cases hs
      · cases hs
  | writeTarget n =>
      simp only [State.serverStep] at hs
      split at hs
      · rename_i conn rest hp
        split at hs
        · rename_i hn
          obtain rfl := Option.some.inj hs
          exact h.writeTarget hp hn.2
        · cases hs
      · cases hs
  | count =>
      simp only [State.serverStep] at hs
      split at hs
      · rename_i conn k rest hp
        obtain rfl := Option.some.inj hs
        exact h.count hp
      · cases hs
  | readTarget bytes =>
      simp only [State.serverStep] at hs
      split at hs
      · rename_i conn hp
        split at hs
        · cases hs
        · obtain rfl := Option.some.inj hs
          refine { h.setRelay (if s.replayDisabled then .sending bytes else .appending bytes) hp ?_ ?_
            with } <;> split <;> rfl
      · cases hs
  | append =>
      simp only [State.serverStep] at hs
      split at hs
      · rename_i conn bytes hp
        split at hs <;> obtain rfl := Option.some.inj hs
        · exact h.park (by rw [hp]; simp) (by rw [hp]; rfl) conn
        · exact { h.setRelay (.sending bytes) hp rfl rfl with }
      · cases hs
  | sendS2c n =>
      simp only [State.serverStep] at hs
      split at hs
      · rename_i conn rest hp
        obtain rfl := Option.some.inj hs
        refine { h.setRelay (if rest.drop n = [] then .waiting else .sending (rest.drop n)) hp ?_ ?_
          with } <;> split <;> rfl
      · cases hs
  | giveUpReplay =>
      simp only [State.serverStep] at hs
      split at hs
      · split at hs
        · obtain rfl := Option.some.inj hs
          exact { h with }
        · cases hs
      · cases hs
  | dataStreamDied =>
      obtain ⟨conn, rfl, hne, hc, -⟩ := serverStep_park hs (by simp)
      exact h.park hne hc conn
  | preempt =>
      obtain ⟨conn, rfl, hne, hc, -⟩ := serverStep_park hs (by simp)
      exact h.park hne hc conn
  | targetEof =>
      obtain ⟨conn, rfl⟩ := serverStep_discard hs (by simp)
      exact { h.close with }
  | targetFailed =>
      obtain ⟨conn, rfl⟩ := serverStep_discard hs (by simp)
      exact { h.close with }
  | aborted =>
      obtain ⟨conn, rfl⟩ := serverStep_discard hs (by simp)
      exact { h.close with }
  | expired =>
      simp only [State.serverStep] at hs
      split at hs
      · obtain rfl := Option.some.inj hs
        exact h.close
      · cases hs
  | sendAppAck =>
      obtain rfl := Option.some.inj hs
      exact { h with }
  | recvAppAck offset =>
      simp only [State.serverStep] at hs
      split at hs
      · obtain rfl := Option.some.inj hs
        exact { h with }
      · cases hs

theorem C2hInv.step (h : s.C2hInv) {act : Act} (hs : s.Step act s') : s'.C2hInv := by
  cases act with
  | client act => exact h.clientStep hs
  | server act => exact h.serverStep hs

theorem C2hInv.run (h : s.C2hInv) {acts : List Act} (hrun : Run Step s acts s') : s'.C2hInv :=
  Run.invariant (fun _ _ _ h hs => h.step hs) hrun h

end State

end IsekaiTerminal.Pipe
