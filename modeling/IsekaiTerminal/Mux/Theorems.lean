import IsekaiTerminal.Mux.Lemmas.Frame
import IsekaiTerminal.Mux.Lemmas.Relay
import IsekaiTerminal.Mux.Lemmas.Return

/-!
# mux の性質
-/

namespace IsekaiTerminal.Mux

open Lib

/-! ## holder の終わり -/

section Holder

open Holder

/-- holder は理由が在るときだけ戻り、理由が在れば、外からの入力が無くても必ず戻る。 -/
theorem returns_of_run {as : List HolderAction} {w : Holder} (h : Run (Guarded Steps DeadOpenIsClosed) start as w) :
    w.Faithful ∧ (w.Due → w.serve ≠ .returned none → Inevitable Quiet Returned w) := by
  have hinv : HolderInv w := holderInv_of_run (h.mono fun _ _ _ hs => hs.1)
  refine ⟨⟨hinv.justified, hinv.count⟩, ?_⟩
  intro hdue hrunning
  exact inevitable_returned hinv (deadClosed_of_run h) hdue hrunning

/-- 2 つめの接続を受けた後、次の `select!` の前に、1 つめの接続のタスクが知らせる実行。知らせを受ける future は無い。 -/
def signalledRun : List HolderAction :=
  [.listen, .connect, .accept, .countUp, .notifyCount, .spawn, .listen, .connect, .accept, .closeHandle,
    .openFailed 0 [.other], .signal 0, .countUp, .notifyCount, .spawn, .listen]

theorem any_signalledRun : ((signalledRun.foldlM (fun w a => if DeadOpenIsClosed w a then w.step a else none) start).any
    fun w => w.deadOpen = true ∧ w.serve = .selecting ⟨idleGrace, 0, false, .loading⟩) = true := by decide

theorem returns_signalledRun :
    ∃ w, Run (Guarded Steps DeadOpenIsClosed) start signalledRun w ∧ w.Faithful ∧ Inevitable Quiet Returned w := by
  obtain ⟨w, hw, hfacts⟩ := (Option.any_eq_true _ _).mp any_signalledRun
  obtain ⟨hdead, hserve⟩ := of_decide_eq_true hfacts
  have hrun : Run (Guarded Steps DeadOpenIsClosed) start signalledRun w := Run.guarded_of_foldlM hw
  obtain ⟨hfaithful, hreturns⟩ := returns_of_run hrun
  have hrunning : w.serve ≠ .returned none := by
    rw [hserve]
    simp
  exact ⟨w, hrun, hfaithful, hreturns (Or.inr (Or.inl hdead)) hrunning⟩

end Holder

/-! ## セッションの結果 -/

namespace Session

/-- `run_with_reconnect` に渡る結果。 -/
def dispatched (s : Session) : Option DispatchOutcome := s.outcome.map ClientOutcome.dispatched

/-- 報告された終わりは、接続が在る限り、その値でクライアントに届く。 -/
def Delivers (s : Session) : Prop :=
  ∀ code, s.phase ≠ .relaying → s.connLost = false → s.exitCode = some code →
    Inevitable Drain (fun s => s.dispatched = some (.done code)) s

/-- 報告の無い終わりは、`OwnerLost` になる。 -/
def Reconnects (s : Session) : Prop :=
  s.phase ≠ .relaying → s.exitCode = none → s.remoteEnded = true ∨ s.writeFailed = true →
    Inevitable Drain (fun s => s.dispatched = some .ownerLost) s

/-- リモートが閉じなかったチャネルを、owner はちょうど 1 回閉じる。 -/
def ClosesOnce (s : Session) : Prop := s.phase = .done → s.closes = if s.remoteEnded then 0 else 1

end Session

section Session

open Session

theorem closesOnce_of_written {s : Session} (h : SessionInv s) (hwritten : s.writeFailed = false) : s.ClosesOnce := by
  intro hdone
  have hstaged := h.staged
  rw [Staged, hdone] at hstaged
  obtain ⟨r, _, hexplained, hcloses, _⟩ := hstaged
  rw [hcloses]
  cases r with
  | remoteExitReported => simp [BreakReason.closes, hexplained.2.1]
  | clientGone | closeDeadline => simp [BreakReason.closes, hexplained.1]
  | transportDead =>
      rcases hexplained with ⟨_, hremote, _⟩ | ⟨_, hfailed⟩
      · simp [BreakReason.closes, hremote]
      · cases hwritten.symm.trans hfailed

/-- どの実行でも、報告の無い終わりは `OwnerLost` になり、クライアントの接続の失敗は holder に知らせない。
標準入力のチャネルへの書き込みが失敗しない実行では、報告された終わりがクライアントに届き、チャネルは 1 回だけ閉じる。 -/
theorem outcome_of_run {as : List SessionAction} {s : Session} (h : Run Steps start as s) :
    s.Reconnects ∧ (s.woken = true → s.handleClosed = true ∧ (s.remoteEnded = true ∨ s.writeFailed = true)) ∧
      (Run (Guarded Steps Written) start as s → s.Delivers ∧ s.ClosesOnce) := by
  have hinv := sessionInv_of_run h
  refine ⟨?_, hinv.woken, ?_⟩
  · intro hended hcode hfailed
    refine Inevitable.mono ?_ (Unreported.inevitable ⟨hinv, hended, hcode, hfailed⟩)
    intro s houtcome
    rw [dispatched, houtcome]
    rfl
  · intro hguarded
    have hwritten : s.writeFailed = false :=
      Run.invariant_of_guarded (I := fun s => s.writeFailed = false) (fun _ _ _ => writeFailed_of_written) hguarded rfl
    refine ⟨?_, closesOnce_of_written hinv hwritten⟩
    intro code hended hintact hcode
    refine Inevitable.mono ?_ (Reported.inevitable ⟨hinv, hended, hintact, hcode, hwritten⟩)
    intro s houtcome
    rw [dispatched, houtcome]
    rfl

/-- リモートが終わりを報告した後、クライアントの書き込みの失敗でループを抜ける実行。 -/
def reportedRun : List SessionAction :=
  [.typed [104], .remote (.exitStatus 3) true, .ownerReceive true, .remote (.data [98]) false]

theorem any_reportedRun : ((reportedRun.foldlM (fun s a => if Written s a then s.step a else none) Session.start).any
    fun s => s.phase = .broken .clientGone ∧ s.exitCode = some 3 ∧ s.connLost = false) = true := by decide

theorem outcome_reportedRun :
    ∃ s, Run (Guarded Steps Written) Session.start reportedRun s ∧
      Inevitable Drain (fun s => s.dispatched = some (.done 3)) s := by
  obtain ⟨s, hs, hfacts⟩ := (Option.any_eq_true _ _).mp any_reportedRun
  obtain ⟨hphase, hcode, hintact⟩ := of_decide_eq_true hfacts
  have hrun : Run (Guarded Steps Written) Session.start reportedRun s := Run.guarded_of_foldlM hs
  obtain ⟨_, _, hguarded⟩ := outcome_of_run (hrun.mono fun _ _ _ hs => hs.1)
  have hended : s.phase ≠ .relaying := by
    rw [hphase]
    simp
  exact ⟨s, hrun, (hguarded hrun).1 3 hended hintact hcode⟩

/-- リモートが `ExitStatus` 0 を報告した後、標準入力の書き込みが失敗する実行。 -/
def overruledRun : List SessionAction :=
  [.typed [104], .remote (.exitStatus 0) true, .ownerReceive false, .teardown true, .checkShared, .clientEof]

/-- 報告された終わりが失われ、クライアントは `OwnerLost` で終わり、owner はチャネルを閉じない。 -/
theorem exists_run_overruled :
    ∃ s, Run Steps Session.start overruledRun s ∧ s.phase = .done ∧ s.connLost = false ∧ s.exitCode = some 0 ∧
      s.remoteEnded = false ∧ s.dispatched = some .ownerLost ∧ s.closes = 0 := by
  have hany : ((overruledRun.foldlM Session.step Session.start).any fun s =>
      s.phase = .done ∧ s.connLost = false ∧ s.exitCode = some 0 ∧ s.remoteEnded = false ∧
        s.dispatched = some .ownerLost ∧ s.closes = 0) = true := by decide
  obtain ⟨s, hs, hfacts⟩ := (Option.any_eq_true _ _).mp hany
  exact ⟨s, Run.of_foldlM hs, of_decide_eq_true hfacts⟩

end Session

/-! ## フレームの往復 -/

section Frames

/-- 書いたバイト列で始まるどの列からも、切れ目によらず、そのバイト列だけを消費して `f` を読む。 -/
def RoundTrips (f : Frame) (bytes : List UInt8) : Prop :=
  ∀ s rest, s.pending = bytes ++ rest → ∃ s', readFrame s = (.ok (some f), s') ∧ s'.pending = rest

/-- `fs` を順に読み、その後で正しい終わりに届く。 -/
def ReadsAll : List Frame → Source UInt8 IoError → Prop
  | [], s => ∃ s', readFrame s = (.ok none, s')
  | f :: fs, s => ∃ s', readFrame s = (.ok (some f), s') ∧ ReadsAll fs s'

/-- 列が、フレームの途中で終わるか、範囲の外の長さを宣言する。 -/
def BrokenOff (pending : List UInt8) : Prop :=
  pending ≠ [] ∧ (pending.length < 4 ∨ pending.length < 4 + beDecode (pending.take 4) ∨
    ¬(1 ≤ beDecode (pending.take 4) ∧ beDecode (pending.take 4) ≤ maxFrameLen))

/-- 1 度に届く列。 -/
def delivered {bytes : List UInt8} (h : bytes ≠ []) : Source UInt8 IoError :=
  ⟨[bytes], fun hmem => h (List.mem_singleton.mp hmem).symm, none, []⟩

theorem termFits_of_readFrame {s s' : Source UInt8 IoError} {f : Frame} (h : readFrame s = (.ok (some f), s')) :
    f.TermFits := by
  rcases pending_of_readFrame h with ⟨hnone, -⟩ | ⟨header, body, frame, hframe, -, -, -, -, -, hdecode⟩
  · cases hnone
  · cases hframe
    exact termFits_of_decode hdecode

theorem termFits_of_readsAll {fs : List Frame} {s : Source UInt8 IoError} (h : ReadsAll fs s) :
    ∀ f ∈ fs, f.TermFits := by
  induction fs generalizing s with
  | nil => exact fun f hf => absurd hf List.not_mem_nil
  | cons f fs ih =>
      obtain ⟨s', hread, hrest⟩ := h
      exact List.forall_mem_cons.mpr ⟨termFits_of_readFrame hread, ih hrest⟩

theorem roundTrips_iff {f : Frame} {bytes : List UInt8} (hwrite : writeFrame f = .ok bytes) :
    RoundTrips f bytes ↔ f.TermFits := by
  constructor
  · intro h
    have hne : bytes ≠ [] := by
      rw [(writeFrame_eq_ok hwrite).2.2]
      exact List.append_ne_nil_of_right_ne_nil _ (encode_ne_nil f)
    obtain ⟨s', hread, -⟩ := h (delivered hne) [] (by simp [delivered, Source.pending])
    exact termFits_of_readFrame hread
  · intro hfits s rest hpending
    obtain ⟨s', hread, hrest, -⟩ := yields_readFrame hwrite hfits s rest hpending
    exact ⟨s', hread, hrest⟩

theorem readsAll_of_writeFrames {fs : List Frame} {bytes : List UInt8} (hwrite : writeFrames fs = .ok bytes)
    (hfits : ∀ f ∈ fs, f.TermFits) {s : Source UInt8 IoError} (hpending : s.pending = bytes) (hending : s.ending = none) :
    ReadsAll fs s := by
  induction fs generalizing bytes s with
  | nil =>
      cases hwrite
      exact ⟨s, readFrame_of_end hpending hending⟩
  | cons f fs ih =>
      obtain ⟨first, hfirst, hwrite⟩ := bind_eq_ok_iff.mp hwrite
      obtain ⟨rest, hrest, hwrite⟩ := bind_eq_ok_iff.mp hwrite
      cases hwrite
      rw [List.forall_mem_cons] at hfits
      obtain ⟨s', hread, hpending', hending'⟩ := yields_readFrame hfirst hfits.1 s rest hpending
      exact ⟨s', hread, ih hrest hfits.2 hpending' (hending'.trans hending)⟩

theorem readsAll_iff {fs : List Frame} {bytes : List UInt8} (hwrite : writeFrames fs = .ok bytes) :
    (∀ s, s.pending = bytes → s.ending = none → ReadsAll fs s) ↔ ∀ f ∈ fs, f.TermFits := by
  constructor
  · intro h
    by_cases hnil : bytes = []
    · exact termFits_of_readsAll (h ⟨[], by simp, none, []⟩ hnil.symm rfl)
    · exact termFits_of_readsAll (h (delivered hnil) (by simp [delivered, Source.pending]) rfl)
  · exact fun hfits s hpending hending => readsAll_of_writeFrames hwrite hfits hpending hending

theorem readFrame_of_brokenOff {s : Source UInt8 IoError} (h : BrokenOff s.pending) :
    ∃ e s', readFrame s = (.error e, s') := by
  rcases hrun : readFrame s with ⟨e | f, s'⟩
  · exact ⟨e, s', rfl⟩
  · exfalso
    rcases pending_of_readFrame hrun with ⟨-, hnil⟩ | ⟨header, body, frame, -, hlen, hpending, hdecode, hpos, hle, -⟩
    · exact h.1 hnil
    · have htake : s.pending.take 4 = header := by rw [hpending, ← hlen, List.take_left]
      have htotal : s.pending.length = 4 + (body.length + s'.pending.length) := by
        rw [hpending, List.length_append, List.length_append, hlen]
      rcases h.2 with hshort | hinside | hrange
      · omega
      · rw [htake, hdecode] at hinside
        omega
      · rw [htake, hdecode] at hrange
        exact hrange ⟨hpos, hle⟩

/-- 書けたフレームが往復するのは、`term` が受け手の上限に収まる場合である。途中で切れた列は、必ず誤りになる。 -/
theorem frames_roundTrip_iff (f : Frame) (fs : List Frame) (s : Source UInt8 IoError) :
    (∀ bytes, writeFrame f = .ok bytes → (RoundTrips f bytes ↔ f.TermFits)) ∧
      (∀ bytes, writeFrames fs = .ok bytes →
        ((∀ t, t.pending = bytes → t.ending = none → ReadsAll fs t) ↔ ∀ g ∈ fs, g.TermFits)) ∧
      (BrokenOff s.pending → ∃ e s', readFrame s = (.error e, s')) :=
  ⟨fun _ => roundTrips_iff, fun _ => readsAll_iff, readFrame_of_brokenOff⟩

/-- 257 バイトの `term` を持つ `Hello`。 -/
def longTerm : Hello := ⟨3, [], String.ofList (List.replicate 257 'x'), 80, 24, true, none, none⟩

theorem any_longTerm : (writeFrame (.hello longTerm)).toOption.isSome = true ∧
    ¬(Trzsz.utf8 longTerm.term).length ≤ maxTermLen := by decide +kernel

/-- 書き込みは成功するが、受け手は読めない。 -/
theorem exists_frame_unread : ∃ f bytes, writeFrame f = .ok bytes ∧ ¬RoundTrips f bytes := by
  obtain ⟨bytes, hbytes⟩ := Option.isSome_iff_exists.mp any_longTerm.1
  have hwrite : writeFrame (.hello longTerm) = .ok bytes := by
    cases hrun : writeFrame (.hello longTerm) with
    | error e => rw [hrun] at hbytes; cases hbytes
    | ok written => rw [hrun] at hbytes; exact congrArg Except.ok (Option.some.inj hbytes)
  exact ⟨_, bytes, hwrite, fun h => any_longTerm.2 ((roundTrips_iff hwrite).mp h)⟩

end Frames

end IsekaiTerminal.Mux
