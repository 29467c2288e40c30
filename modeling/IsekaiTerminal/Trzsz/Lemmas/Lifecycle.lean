import IsekaiTerminal.Trzsz.Trace

/-!
# 転送の一生についての補題

状態機械の 1 回の反応を、休んでいる、要求する、続ける、終える、の 4 つに分ける。
-/

namespace IsekaiTerminal.Trzsz

open Lib

/-! ## 1 行の処理 -/

/-- 転送 `tid` の途中で出る作用。 -/
def TrzszEffect.Inner (tid : String) : TrzszEffect → Prop
  | .sendStdin _ => True
  | .onDownloadChunk id _ _ => id = tid
  | .onProgress id _ _ => id = tid
  | _ => False

/-- `terminal` で終わる処理の作用の形。 -/
def Ends (tid : String) (effects : List TrzszEffect) : Option Bool → Prop
  | none => ∀ e ∈ effects, e.Inner tid
  | some ok => ∃ es message, effects = es ++ [.onFinished tid ok message] ∧ ∀ e ∈ es, e.Inner tid

namespace Ends

variable {tid : String} {effects : List TrzszEffect} {ok : Option Bool}

theorem prepend {es : List TrzszEffect} (hes : ∀ e ∈ es, e.Inner tid) (h : Ends tid effects ok) :
    Ends tid (es ++ effects) ok := by
  cases ok with
  | none =>
      intro e he
      rcases List.mem_append.mp he with he | he
      · exact hes e he
      · exact h e he
  | some b =>
      obtain ⟨es', message, rfl, hes'⟩ := h
      refine ⟨es ++ es', message, (List.append_assoc _ _ _).symm, ?_⟩
      intro e he
      rcases List.mem_append.mp he with he | he
      · exact hes e he
      · exact hes' e he

end Ends

namespace Transfer

variable (codec : Codec) (t : Transfer)

/-- 1 行の処理は、識別子を変えず、この転送の作用だけを出す。 -/
structure Local (tid : String) (r : LineResult) : Prop where
  sameId : r.transfer.transferId = tid
  ends : Ends tid r.effects r.terminal

/-- 待っている型の行だけを処理する。 -/
theorem local_expect {tid : String} {t : Transfer} (hid : t.transferId = tid) {p : Prop} [Decidable p]
    {r : LineResult} (h : Local tid r) : Local tid (if p then r else t.stay []) := by
  by_cases hp : p
  · rw [if_pos hp]
    exact h
  · rw [if_neg hp]
    exact ⟨hid, List.forall_mem_nil _⟩

theorem local_onUploadLine (u : Upload) (typ : String) : Local t.transferId (t.onUploadLine codec u typ) := by
  unfold onUploadLine
  cases u.step with
  | waitCfg =>
      refine local_expect rfl ⟨rfl, ?_⟩
      simp [Ends, stay, TrzszEffect.Inner]
  | waitNumAck => exact local_expect rfl ⟨rfl, List.forall_mem_nil _⟩
  | waitNameAck => exact local_expect rfl ⟨rfl, List.forall_mem_nil _⟩
  | waitSizeAck =>
      refine local_expect rfl ⟨rfl, List.forall_mem_cons.mpr ⟨rfl, ?_⟩⟩
      intro e he
      obtain ⟨c, _, rfl⟩ := List.mem_map.mp he
      trivial
  | sendingData =>
      refine local_expect rfl ?_
      cases u.pending with
      | nil => exact ⟨rfl, List.forall_mem_nil _⟩
      | cons c pending =>
          obtain ⟨len, isLast⟩ := c
          cases isLast with
          | true =>
              refine ⟨rfl, ?_⟩
              simp [Ends, stay, TrzszEffect.Inner, progress]
          | false =>
              refine ⟨rfl, ?_⟩
              simp [Ends, stay, TrzszEffect.Inner, progress]
  | waitMd5Ack => exact local_expect rfl ⟨rfl, [], none, rfl, List.forall_mem_nil _⟩

theorem local_onSize (n : Nat) : Local t.transferId (t.onSize n) := by
  by_cases h : n > maxDeclaredTrzszSize
  · rw [onSize, if_pos h]
    exact ⟨rfl, [.sendStdin [0x03]], some tooLarge, rfl, by simp [TrzszEffect.Inner]⟩
  · rw [onSize, if_neg h]
    refine ⟨rfl, ?_⟩
    simp [Ends, stay, TrzszEffect.Inner, progress]

theorem local_onData (data : List UInt8) : Local t.transferId (t.onData data) := by
  by_cases hlast : t.total.any (· ≤ t.transferred + data.length)
  · simp only [onData, if_pos hlast]
    refine ⟨rfl, ?_⟩
    simp [Ends, stay, TrzszEffect.Inner, progress]
  · simp only [onData, if_neg hlast]
    refine ⟨rfl, ?_⟩
    simp [Ends, stay, TrzszEffect.Inner, progress]

theorem local_onDownloadLine (step : DownloadStep) (typ payload : String) :
    Local t.transferId (t.onDownloadLine codec step typ payload) := by
  unfold onDownloadLine
  by_cases hcfg : typ = "CFG" ∧ step = .waitCfg
  · rw [if_pos hcfg]
    exact ⟨rfl, List.forall_mem_nil _⟩
  rw [if_neg hcfg]
  by_cases hnum : typ = "NUM" ∧ step = .waitNum
  · rw [if_pos hnum]
    exact ⟨rfl, List.forall_mem_singleton.mpr trivial⟩
  rw [if_neg hnum]
  by_cases hname : typ = "NAME" ∧ step = .waitName
  · rw [if_pos hname]
    exact ⟨rfl, List.forall_mem_singleton.mpr trivial⟩
  rw [if_neg hname]
  by_cases hsize : typ = "SIZE" ∧ step = .waitSize
  · rw [if_pos hsize]
    exact local_onSize t _
  rw [if_neg hsize]
  by_cases hdata : typ = "DATA" ∧ step = .receiving
  · rw [if_pos hdata]
    cases codec.decodeBytes payload with
    | none => exact ⟨rfl, List.forall_mem_nil _⟩
    | some data => exact local_onData t data
  rw [if_neg hdata]
  by_cases hmd5 : typ = "MD5" ∧ step = .waitMd5
  · rw [if_pos hmd5]
    exact ⟨rfl, [.sendStdin (frame "SUCC" payload)], none, rfl, List.forall_mem_singleton.mpr trivial⟩
  rw [if_neg hmd5]
  exact ⟨rfl, List.forall_mem_nil _⟩

theorem local_onFrame (typ payload : String) : Local t.transferId (t.onFrame codec typ payload) := by
  unfold onFrame
  by_cases hfail : typ = "FAIL" ∨ typ = "fail"
  · rw [if_pos hfail]
    exact ⟨rfl, [], _, rfl, List.forall_mem_nil _⟩
  · rw [if_neg hfail]
    cases t.phase with
    | upload u => exact local_onUploadLine codec t u typ
    | download step => exact local_onDownloadLine codec t step typ payload

/-! ## 行のループ -/

theorem loop_local (rest : List UInt8) (lines : List (List UInt8)) :
    (loop codec rest t lines).transfer.transferId = t.transferId ∧
      Ends t.transferId (loop codec rest t lines).effects (loop codec rest t lines).terminal := by
  induction lines generalizing t with
  | nil => exact ⟨rfl, by simp [loop, Ends]⟩
  | cons line lines ih =>
      cases hline : parseLine (stripCr line) with
      | none =>
          rw [loop, hline]
          exact ih t
      | some p =>
          obtain ⟨typ, payload⟩ := p
          have hlocal := local_onFrame codec t typ payload
          cases hok : (t.onFrame codec typ payload).terminal with
          | some ok =>
              simp only [loop, hline, hok]
              exact ⟨hlocal.sameId, hok ▸ hlocal.ends⟩
          | none =>
              have hinner : Ends t.transferId (t.onFrame codec typ payload).effects none := hok ▸ hlocal.ends
              have hrest := ih (t.onFrame codec typ payload).transfer
              rw [hlocal.sameId] at hrest
              simp only [loop, hline, hok]
              exact ⟨hrest.1, hrest.2.prepend hinner⟩

theorem receive_local (bytes : List UInt8) :
    (t.receive codec bytes).transfer.transferId = t.transferId ∧
      Ends t.transferId (t.receive codec bytes).effects (t.receive codec bytes).terminal :=
  loop_local codec t _ _

end Transfer

/-! ## 1 回の反応 -/

namespace TrzszTransferFsm

variable {codec : Codec} {s s' : TrzszTransferFsm}

/-- 反応の 4 つの種類。 -/
inductive Advance (codec : Codec) (s s' : TrzszTransferFsm) (r : Reply) : Prop
  /-- 進行中の転送がなく、端末へ流すだけである。 -/
  | idle : s.activeId = none → s'.activeId = none → s'.nextId = s.nextId →
      (∀ e ∈ r.actions, ∃ bytes, e = .flushVte bytes) → Advance codec s s' r
  | request (flushed : List TrzszEffect) (mode : TrzszMode) : s.activeId = none →
      s'.activeId = some (transferIdOf s.nextId) → s'.nextId = s.nextId + 1 →
      (∀ e ∈ flushed, ∃ bytes, e = .flushVte bytes) →
      r.actions = flushed ++
        [.sendStdin (actMsg codec), .onTrzszRequest (transferIdOf s.nextId) mode none none] →
      r.timers = [.set .transfer transferTimeout] → Advance codec s s' r
  | keep (tid : String) : s.activeId = some tid → s'.activeId = some tid → s'.nextId = s.nextId →
      (∀ e ∈ r.actions, e.Inner tid) → (∀ c ∈ r.timers, c = .set .transfer transferTimeout) →
      Advance codec s s' r
  | finish (tid : String) (es : List TrzszEffect) (ok : Bool) (message : Option String) :
      s.activeId = some tid → s'.activeId = none → s'.nextId = s.nextId →
      r.actions = es ++ [.onFinished tid ok message] → (∀ e ∈ es, e.Inner tid) → Advance codec s s' r

theorem flush_eq (bytes : List UInt8) : ∀ e ∈ flush bytes, ∃ bytes', e = .flushVte bytes' := by
  unfold flush
  cases bytes with
  | nil => simp
  | cons b bs => simp

/-- 何も変えない反応。 -/
theorem advance_same {r : Reply} (hactions : r.actions = []) (htimers : r.timers = []) : Advance codec s s r := by
  cases hid : s.activeId with
  | none => exact .idle hid hid rfl (by simp [hactions])
  | some tid => exact .keep tid hid hid rfl (by simp [hactions]) (by simp [htimers])

theorem advance_abortTransfer {tid message : String} (hid : s.activeId = some tid) :
    Advance codec s (s.abortTransfer tid message).1 (s.abortTransfer tid message).2 :=
  .finish tid [.sendStdin [0x03]] false (some message) hid rfl rfl rfl (List.forall_mem_singleton.mpr trivial)

theorem onTransferringBytes_continued {t : Transfer} (hstate : s.state = .transferring t) {bytes : List UInt8}
    (hok : (t.receive codec bytes).terminal = none) :
    s.onTransferringBytes codec bytes = ({ s with state := .transferring (t.receive codec bytes).transfer },
      if (t.receive codec bytes).activity then
        (Response.emit (t.receive codec bytes).effects).withTimer .transfer transferTimeout
      else .emit (t.receive codec bytes).effects) := by
  simp only [onTransferringBytes, hstate, hok]

theorem onTransferringBytes_ended {t : Transfer} (hstate : s.state = .transferring t) {bytes : List UInt8} {ok : Bool}
    (hok : (t.receive codec bytes).terminal = some ok) :
    s.onTransferringBytes codec bytes = ({ s with state := if ok then .normal else .recovering, tailBuf := [] },
      (Response.emit (t.receive codec bytes).effects).withKillTimer .transfer) := by
  cases ok with
  | true => simp only [onTransferringBytes, hstate, hok, if_true]
  | false => simp only [onTransferringBytes, hstate, hok, Bool.false_eq_true, if_false]

theorem advance_onTransferringBytes {t : Transfer} (hstate : s.state = .transferring t) (bytes : List UInt8) :
    Advance codec s (s.onTransferringBytes codec bytes).1 (s.onTransferringBytes codec bytes).2 := by
  have hid : s.activeId = some t.transferId := by rw [activeId, hstate]
  obtain ⟨hsame, hends⟩ := t.receive_local codec bytes
  cases hok : (t.receive codec bytes).terminal with
  | none =>
      rw [hok] at hends
      rw [onTransferringBytes_continued hstate hok]
      refine .keep t.transferId hid (congrArg some hsame) rfl ?_ ?_
      · cases (t.receive codec bytes).activity <;> exact hends
      · cases (t.receive codec bytes).activity <;> simp
  | some ok =>
      rw [hok] at hends
      obtain ⟨es, message, heffects, hes⟩ := hends
      rw [onTransferringBytes_ended hstate hok]
      refine .finish t.transferId es ok message hid ?_ rfl heffects hes
      cases ok <;> rfl

theorem processNormalBytes_absent {bytes tail : List UInt8} (htail : s.tailBuf ++ bytes = tail)
    (hpos : rfind tail trzszMagic = none) :
    s.processNormalBytes codec bytes =
      ({ s with tailBuf := tail.drop (tail.length - magicSuffixLen tail) },
        flush (tail.take (tail.length - magicSuffixLen tail))) := by
  simp only [processNormalBytes, htail, hpos]

theorem processNormalBytes_incomplete {bytes : List UInt8} {magicPos : Nat}
    (hpos : rfind (s.tailBuf ++ bytes) trzszMagic = some magicPos)
    (htrigger : parseTrzszTrigger ((s.tailBuf ++ bytes).drop magicPos) = none) :
    s.processNormalBytes codec bytes =
      ({ s with tailBuf := (s.tailBuf ++ bytes).drop magicPos }, flush ((s.tailBuf ++ bytes).take magicPos)) := by
  simp only [processNormalBytes, hpos, htrigger]

theorem processNormalBytes_trigger {bytes : List UInt8} {magicPos : Nat} {detection : TrzszDetection}
    (hpos : rfind (s.tailBuf ++ bytes) trzszMagic = some magicPos)
    (htrigger : parseTrzszTrigger ((s.tailBuf ++ bytes).drop magicPos) = some detection) :
    s.processNormalBytes codec bytes =
      (⟨.waitingKotlin (transferIdOf s.nextId) detection.mode [], [], s.nextId + 1⟩,
        flush ((s.tailBuf ++ bytes).take magicPos) ++
          [.sendStdin (actMsg codec), .onTrzszRequest (transferIdOf s.nextId) detection.mode none none]) := by
  simp only [processNormalBytes, hpos, htrigger, allocTransferId]

theorem advance_normal (hstate : s.state = .normal) (bytes : List UInt8) :
    Advance codec s (s.onStdoutBytes codec bytes).1 (s.onStdoutBytes codec bytes).2 := by
  have hid : s.activeId = none := by rw [activeId, hstate]
  simp only [onStdoutBytes, hstate]
  cases hpos : rfind (s.tailBuf ++ bytes) trzszMagic with
  | none =>
      simp only [processNormalBytes_absent rfl hpos, hstate]
      exact .idle hid rfl rfl (flush_eq _)
  | some magicPos =>
      cases htrigger : parseTrzszTrigger ((s.tailBuf ++ bytes).drop magicPos) with
      | none =>
          simp only [processNormalBytes_incomplete hpos htrigger, hstate]
          exact .idle hid rfl rfl (flush_eq _)
      | some detection =>
          simp only [processNormalBytes_trigger hpos htrigger]
          exact .request _ detection.mode hid rfl rfl (flush_eq _) rfl rfl

theorem advance_onStdoutBytes (s : TrzszTransferFsm) (bytes : List UInt8) :
    Advance codec s (s.onStdoutBytes codec bytes).1 (s.onStdoutBytes codec bytes).2 := by
  obtain ⟨state, tailBuf, nextId⟩ := s
  cases state with
  | normal => exact advance_normal rfl bytes
  | waitingKotlin tid mode protoBuf =>
      exact .keep tid rfl rfl rfl (List.forall_mem_nil _) (List.forall_mem_nil _)
  | transferring t => exact advance_onTransferringBytes rfl bytes
  | recovering =>
      refine .idle rfl ?_ ?_ (List.forall_mem_singleton.mpr ⟨bytes, rfl⟩)
      · simp only [onStdoutBytes]
        by_cases hnewline : newline ∈ bytes
        · rw [if_pos hnewline]
          rfl
        · rw [if_neg hnewline]
          rfl
      · simp only [onStdoutBytes]
        by_cases hnewline : newline ∈ bytes
        · rw [if_pos hnewline]
        · rw [if_neg hnewline]

/-- 引き継いだバイト列の処理も、続けるか終えるかである。タイマーは、どちらでも最後に動き出す。 -/
theorem advance_startTransfer {tid : String} (hid : s.activeId = some tid) (protoBuf : List UInt8) (total : Option Nat)
    (phase : TransferPhase) : Advance codec s (s.startTransfer codec tid protoBuf total phase).1
      (s.startTransfer codec tid protoBuf total phase).2 := by
  have hstep := @advance_onTransferringBytes codec { s with state := .transferring ⟨tid, protoBuf, 0, total, phase⟩ }
    _ rfl []
  cases hstep with
  | idle hnone => simp [activeId] at hnone
  | request _ _ hnone => simp [activeId] at hnone
  | keep tid' hbefore hafter hnext hinner htimers =>
      cases Option.some.inj (hbefore : some tid = some tid')
      refine .keep tid hid hafter hnext hinner ?_
      intro c hc
      rcases List.mem_append.mp hc with hc | hc
      · exact htimers c hc
      · exact List.mem_singleton.mp hc
  | finish tid' es ok message hbefore hafter hnext hactions hes =>
      cases Option.some.inj (hbefore : some tid = some tid')
      exact .finish tid es ok message hid hafter hnext hactions hes

theorem advance_onChunk (s : TrzszTransferFsm) (tid : String) (data : List UInt8) (isLast : Bool) :
    Advance codec s (s.onChunk codec tid data isLast).1 (s.onChunk codec tid data isLast).2 := by
  obtain ⟨state, tailBuf, nextId⟩ := s
  cases state with
  | normal => exact advance_same rfl rfl
  | waitingKotlin tid mode protoBuf => exact advance_same rfl rfl
  | recovering => exact advance_same rfl rfl
  | transferring t =>
      obtain ⟨transferId, protoBuf, transferred, total, phase⟩ := t
      cases phase with
      | download step => exact advance_same rfl rfl
      | upload u =>
          simp only [onChunk]
          by_cases hid : transferId = tid
          · rw [if_pos hid]
            by_cases hstep : u.step = .sendingData
            · rw [if_pos hstep]
              exact .keep transferId rfl rfl rfl (List.forall_mem_singleton.mpr trivial)
                (List.forall_mem_singleton.mpr rfl)
            · rw [if_neg hstep]
              exact .keep transferId rfl rfl rfl (List.forall_mem_nil _) (List.forall_mem_nil _)
          · rw [if_neg hid]
            exact advance_same rfl rfl

theorem advance_onEvent (s : TrzszTransferFsm) (e : TrzszEvent) :
    Advance codec s (s.onEvent codec e).1 (s.onEvent codec e).2 := by
  cases e with
  | stdoutBytes bytes => exact advance_onStdoutBytes s bytes
  | kotlinChunk transferId data isLast => exact advance_onChunk s transferId data isLast
  | kotlinAcceptUpload transferId fileName fileSize =>
      cases hstate : s.state with
      | waitingKotlin tid mode protoBuf =>
          cases mode with
          | upload =>
              simp only [onEvent, hstate]
              by_cases hid : tid = transferId
              · rw [if_pos hid]
                exact advance_startTransfer (by rw [activeId, hstate]) _ _ _
              · rw [if_neg hid]
                exact advance_same rfl rfl
          | download => simpa only [onEvent, hstate] using advance_same rfl rfl
          | dir => simpa only [onEvent, hstate] using advance_same rfl rfl
      | normal => simpa only [onEvent, hstate] using advance_same rfl rfl
      | transferring t => simpa only [onEvent, hstate] using advance_same rfl rfl
      | recovering => simpa only [onEvent, hstate] using advance_same rfl rfl
  | kotlinAcceptDownload transferId =>
      cases hstate : s.state with
      | waitingKotlin tid mode protoBuf =>
          cases mode with
          | download =>
              simp only [onEvent, hstate]
              by_cases hid : tid = transferId
              · rw [if_pos hid]
                exact advance_startTransfer (by rw [activeId, hstate]) _ _ _
              · rw [if_neg hid]
                exact advance_same rfl rfl
          | upload => simpa only [onEvent, hstate] using advance_same rfl rfl
          | dir => simpa only [onEvent, hstate] using advance_same rfl rfl
      | normal => simpa only [onEvent, hstate] using advance_same rfl rfl
      | transferring t => simpa only [onEvent, hstate] using advance_same rfl rfl
      | recovering => simpa only [onEvent, hstate] using advance_same rfl rfl
  | kotlinCancel transferId =>
      simp only [onEvent]
      by_cases hid : s.activeId = some transferId
      · rw [if_pos hid]
        exact .finish transferId [.sendStdin [0x03]] false (some "Cancelled") hid rfl rfl rfl
          (List.forall_mem_singleton.mpr trivial)
      · rw [if_neg hid]
        exact advance_same rfl rfl

/-- どの反応も、4 つの種類のどれかである。 -/
theorem advance_react (codec : Codec) (s : TrzszTransferFsm) (i : TrzszInput) :
    Advance codec s ((machine codec).react s i).1 ((machine codec).react s i).2 := by
  cases i with
  | event e => exact advance_onEvent s e
  | timeout id =>
      cases id with
      | transfer =>
          cases hid : s.activeId with
          | none =>
              simp only [TimedStateMachine.react, machine, onTimeout, hid]
              exact advance_same rfl rfl
          | some tid =>
              simp only [TimedStateMachine.react, machine, onTimeout, hid]
              exact advance_abortTransfer hid

theorem apply_event (codec : Codec) (s : TrzszTransferFsm) (e : TrzszEvent) :
    s.apply codec (.event e) = ((s.onEvent codec e).1, (s.onEvent codec e).2.actions) := rfl

/-! ## 識別子 -/

theorem transferIdOf_injective : Function.Injective transferIdOf := by
  intro a b h
  exact Nat.repr_injective ((String.append_right_inj "trzsz-").mp h)

theorem nodup_transferIds (n : Nat) : ((List.range n).map transferIdOf).Nodup :=
  List.nodup_range.map transferIdOf_injective

/-! ## 持ち主の付いた作用 -/

def owned (current : Option String) (es : List TrzszEffect) : List Owned := es.map fun e => (e.owner current, e)

/-- 転送 `current` が進行している手順の作用。`active` は、その後で進行している転送である。 -/
structure Block (block : List Owned) (current active : Option String) : Prop where
  owners : ∀ o ∈ block, o.1 = none ∨ o.1 = current
  quiet : block.Pairwise fun before after => ∀ id, before.2.finished = some id → after.1 ≠ some id
  finishers : ∀ o ∈ block, ∀ id, o.2.finished = some id → o.1 = some id
  stdin : ∀ o ∈ block, ∀ bytes, o.2 = .sendStdin bytes → o.1 ≠ none
  active : active = none ∨ active = current ∧ ∀ o ∈ block, o.2.finished = none

/-- 転送を終えない作用。 -/
structure Unfinished (current : Option String) (e : TrzszEffect) : Prop where
  owner : e.owner current = none ∨ e.owner current = current
  finished : e.finished = none
  stdin : ∀ bytes, e = .sendStdin bytes → current ≠ none

theorem unfinished_flush {e : TrzszEffect} (h : ∃ bytes, e = .flushVte bytes) (current : Option String) :
    Unfinished current e := by
  obtain ⟨bytes, rfl⟩ := h
  exact ⟨.inl rfl, rfl, by simp⟩

/-- 転送 `tid` の途中の作用は、すべて `tid` のものである。 -/
theorem owner_inner {tid : String} {e : TrzszEffect} (h : e.Inner tid) : e.owner (some tid) = some tid := by
  cases e with
  | flushVte _ => exact h.elim
  | sendStdin _ => rfl
  | onTrzszRequest _ _ _ _ => exact h.elim
  | onDownloadChunk id _ _ => exact congrArg some h
  | onProgress id _ _ => exact congrArg some h
  | onFinished _ _ _ => exact h.elim

theorem finished_inner {tid : String} {e : TrzszEffect} (h : e.Inner tid) : e.finished = none := by
  cases e with
  | onFinished _ _ _ => exact h.elim
  | _ => rfl

theorem unfinished_inner {tid : String} {e : TrzszEffect} (h : e.Inner tid) : Unfinished (some tid) e :=
  ⟨.inr (owner_inner h), finished_inner h, fun _ _ => Option.some_ne_none tid⟩

theorem requested_inner {tid : String} {e : TrzszEffect} (h : e.Inner tid) : e.requested = none := by
  cases e with
  | onTrzszRequest _ _ _ _ => exact h.elim
  | _ => rfl

theorem block_open {current : Option String} {es : List TrzszEffect} (hes : ∀ e ∈ es, Unfinished current e) :
    Block (owned current es) current current := by
  have howned : ∀ o ∈ owned current es, o.1 = o.2.owner current ∧ Unfinished current o.2 := by
    intro o ho
    obtain ⟨e, he, rfl⟩ := List.mem_map.mp ho
    exact ⟨rfl, hes e he⟩
  have hfinished : ∀ o ∈ owned current es, ∀ id, o.2.finished ≠ some id := by
    intro o ho id h
    rw [(howned o ho).2.finished] at h
    cases h
  constructor
  · intro o ho
    rw [(howned o ho).1]
    exact (howned o ho).2.owner
  · exact List.Pairwise.imp_of_mem (fun ha _ _ id h => absurd h (hfinished _ ha id))
      (List.pairwise_of_forall (R := fun _ _ => True) fun _ _ => trivial)
  · exact fun o ho id h => absurd h (hfinished o ho id)
  · intro o ho bytes hbytes
    rw [(howned o ho).1, hbytes]
    exact (howned o ho).2.stdin bytes hbytes
  · exact .inr ⟨rfl, fun o ho => (howned o ho).2.finished⟩

theorem block_close {tid : String} {es : List TrzszEffect} (hes : ∀ e ∈ es, e.Inner tid) (ok : Bool)
    (message : Option String) : Block (owned (some tid) (es ++ [.onFinished tid ok message])) (some tid) none := by
  have hopen := block_open fun e he => unfinished_inner (hes e he)
  have hsplit : owned (some tid) (es ++ [.onFinished tid ok message]) =
      owned (some tid) es ++ [(some tid, .onFinished tid ok message)] := List.map_append
  rw [hsplit]
  have hopenFinished : ∀ o ∈ owned (some tid) es, o.2.finished = none := by
    intro o ho
    obtain ⟨e, he, rfl⟩ := List.mem_map.mp ho
    exact (unfinished_inner (hes e he)).finished
  constructor
  · intro o ho
    rcases List.mem_append.mp ho with ho | ho
    · exact hopen.owners o ho
    · rw [List.mem_singleton.mp ho]
      exact .inr rfl
  · refine List.pairwise_append.mpr ⟨hopen.quiet, List.pairwise_singleton _ _, ?_⟩
    intro a ha _ _ id h
    rw [hopenFinished a ha] at h
    cases h
  · intro o ho id h
    rcases List.mem_append.mp ho with ho | ho
    · exact hopen.finishers o ho id h
    · rw [List.mem_singleton.mp ho] at h ⊢
      exact h
  · intro o ho bytes hbytes
    rcases List.mem_append.mp ho with ho | ho
    · exact hopen.stdin o ho bytes hbytes
    · rw [List.mem_singleton.mp ho]
      exact Option.some_ne_none tid
  · exact .inl rfl

/-- 1 回の反応の作用は、その手順で進行している転送のものである。 -/
theorem block_advance {r : Reply} (h : Advance codec s s' r) :
    Block (owned (ongoing s s') r.actions) (ongoing s s') s'.activeId := by
  cases h with
  | idle hbefore hafter hnext hflush =>
      have hongoing : ongoing s s' = none := by rw [ongoing, hbefore, hafter]; rfl
      rw [hongoing, hafter]
      exact block_open fun e he => unfinished_flush (hflush e he) none
  | request flushed mode hbefore hafter hnext hflush hactions htimers =>
      have hongoing : ongoing s s' = some (transferIdOf s.nextId) := by rw [ongoing, hbefore, hafter]; rfl
      rw [hongoing, hafter, hactions]
      refine block_open ?_
      intro e he
      rcases List.mem_append.mp he with he | he
      · exact unfinished_flush (hflush e he) _
      · rcases List.mem_pair.mp he with rfl | rfl
        · exact ⟨.inr rfl, rfl, fun _ _ => Option.some_ne_none _⟩
        · exact ⟨.inr rfl, rfl, by simp⟩
  | keep tid hbefore hafter hnext hinner htimers =>
      have hongoing : ongoing s s' = some tid := by rw [ongoing, hbefore]; rfl
      rw [hongoing, hafter]
      exact block_open fun e he => unfinished_inner (hinner e he)
  | finish tid es ok message hbefore hafter hnext hactions hes =>
      have hongoing : ongoing s s' = some tid := by rw [ongoing, hbefore]; rfl
      rw [hongoing, hafter, hactions]
      exact block_close hes ok message

/-- 途中までの作用の列と、払い出した識別子の数と、進行中の転送の関係。 -/
structure Traced (trace : List Owned) (n : Nat) (active : Option String) : Prop where
  requests : trace.filterMap (·.2.requested) = (List.range n).map transferIdOf
  owners : ∀ o ∈ trace, ∀ id, o.1 = some id → ∃ k < n, transferIdOf k = id
  active : ∀ id, active = some id → (∃ k < n, transferIdOf k = id) ∧ ∀ o ∈ trace, o.2.finished ≠ some id
  quiet : trace.Pairwise fun before after => ∀ id, before.2.finished = some id → after.1 ≠ some id
  finishers : ∀ o ∈ trace, ∀ id, o.2.finished = some id → o.1 = some id
  stdin : ∀ o ∈ trace, ∀ bytes, o.2 = .sendStdin bytes → o.1 ≠ none

namespace Traced

variable {trace block : List Owned} {n n' : Nat} {active current active' : Option String}

theorem nil : Traced [] 0 none := by
  constructor <;> simp

/-- まだ終わっていない転送 `current` の手順を加える。 -/
theorem append (h : Traced trace n active) (hn : n ≤ n')
    (hrequests : (List.range n).map transferIdOf ++ block.filterMap (·.2.requested) =
      (List.range n').map transferIdOf)
    (hcurrent : ∀ id, current = some id →
      (∃ k < n', transferIdOf k = id) ∧ ∀ o ∈ trace, o.2.finished ≠ some id)
    (hblock : Block block current active') : Traced (trace ++ block) n' active' := by
  have howner : ∀ o ∈ block, ∀ id, o.1 = some id → current = some id := by
    intro o ho id hid
    rcases hblock.owners o ho with hnone | hsome
    · rw [hnone] at hid
      cases hid
    · exact hsome.symm.trans hid
  constructor
  · rw [List.filterMap_append, h.requests, hrequests]
  · intro o ho id hid
    rcases List.mem_append.mp ho with ho | ho
    · obtain ⟨k, hk, hkid⟩ := h.owners o ho id hid
      exact ⟨k, hk.trans_le hn, hkid⟩
    · exact (hcurrent id (howner o ho id hid)).1
  · intro id hid
    rcases hblock.active with hnone | ⟨hsame, hunfinished⟩
    · rw [hnone] at hid
      cases hid
    · obtain ⟨hk, hearlier⟩ := hcurrent id (hsame.symm.trans hid)
      refine ⟨hk, ?_⟩
      intro o ho
      rcases List.mem_append.mp ho with ho | ho
      · exact hearlier o ho
      · rw [hunfinished o ho]
        exact (Option.some_ne_none id).symm
  · refine List.pairwise_append.mpr ⟨h.quiet, hblock.quiet, ?_⟩
    intro a ha b hb id hfinished hid
    exact (hcurrent id (howner b hb id hid)).2 a ha hfinished
  · intro o ho id hfinished
    rcases List.mem_append.mp ho with ho | ho
    · exact h.finishers o ho id hfinished
    · exact hblock.finishers o ho id hfinished
  · intro o ho bytes hbytes
    rcases List.mem_append.mp ho with ho | ho
    · exact h.stdin o ho bytes hbytes
    · exact hblock.stdin o ho bytes hbytes

/-- 要求を出さない手順は、進行中の転送のものである。 -/
theorem append_same (h : Traced trace n active) {es : List TrzszEffect} (hes : ∀ e ∈ es, e.requested = none)
    (hblock : Block (owned active es) active active') : Traced (trace ++ owned active es) n active' := by
  refine h.append le_rfl ?_ h.active hblock
  have hnone : (owned active es).filterMap (·.2.requested) = [] := by
    refine List.filterMap_eq_nil_iff.mpr ?_
    intro o ho
    obtain ⟨e, he, rfl⟩ := List.mem_map.mp ho
    exact hes e he
  rw [hnone, List.append_nil]

/-- 払い出したばかりの識別子の転送は、まだ何も出していない。 -/
theorem fresh (h : Traced trace n active) : ∀ o ∈ trace, o.2.finished ≠ some (transferIdOf n) := by
  intro o ho hfinished
  obtain ⟨k, hk, hkid⟩ := h.owners o ho _ (h.finishers o ho _ hfinished)
  exact hk.ne (transferIdOf_injective hkid)

/-- 1 回の反応は、関係を保つ。 -/
theorem advance {r : Reply} (h : Traced trace s.nextId s.activeId) (hstep : Advance codec s s' r) :
    Traced (trace ++ owned (ongoing s s') r.actions) s'.nextId s'.activeId := by
  have hblock := block_advance hstep
  cases hstep with
  | idle hbefore hafter hnext hflush =>
      have hongoing : ongoing s s' = s.activeId := by rw [ongoing, hbefore, hafter]; rfl
      rw [hongoing] at hblock ⊢
      rw [hnext]
      refine h.append_same ?_ hblock
      intro e he
      obtain ⟨bytes, rfl⟩ := hflush e he
      rfl
  | request flushed mode hbefore hafter hnext hflush hactions htimers =>
      have hongoing : ongoing s s' = some (transferIdOf s.nextId) := by rw [ongoing, hbefore, hafter]; rfl
      refine h.append (hnext ▸ Nat.le_succ _) ?_ ?_ hblock
      · have hnone : (owned (some (transferIdOf s.nextId)) flushed).filterMap (·.2.requested) = [] := by
          refine List.filterMap_eq_nil_iff.mpr ?_
          intro o ho
          obtain ⟨e, he, rfl⟩ := List.mem_map.mp ho
          obtain ⟨bytes, rfl⟩ := hflush e he
          rfl
        rw [hongoing, hactions, hnext, owned, List.map_append, List.filterMap_append, ← owned, hnone,
          List.range_succ, List.map_append]
        rfl
      · intro id hid
        rw [hongoing] at hid
        cases hid
        exact ⟨⟨s.nextId, hnext ▸ Nat.lt_succ_self _, rfl⟩, h.fresh⟩
  | keep tid hbefore hafter hnext hinner htimers =>
      have hongoing : ongoing s s' = s.activeId := by rw [ongoing, hbefore]; rfl
      rw [hongoing] at hblock ⊢
      rw [hnext]
      exact h.append_same (fun e he => requested_inner (hinner e he)) hblock
  | finish tid es ok message hbefore hafter hnext hactions hes =>
      have hongoing : ongoing s s' = s.activeId := by rw [ongoing, hbefore]; rfl
      rw [hongoing] at hblock ⊢
      rw [hnext]
      refine h.append_same ?_ hblock
      intro e he
      rw [hactions] at he
      rcases List.mem_append.mp he with he | he
      · exact requested_inner (hes e he)
      · rw [List.mem_singleton.mp he]
        rfl

end Traced

theorem traced_trace (is : List TrzszInput) :
    Traced (new.trace codec is) (new.run codec is).nextId (new.run codec is).activeId := by
  induction is using List.reverseRecOn with
  | nil => exact Traced.nil
  | append_singleton is i ih =>
      have hstep := ih.advance (advance_react codec (new.run codec is) i)
      have hrun : new.run codec (is ++ [i]) = ((machine codec).react (new.run codec is) i).1 :=
        Reducer.run_concat _ _ _
      rw [trace, Reducer.outputs_concat, run_ownedApply, hrun]
      exact hstep

/-- 同じ転送の終わりが 2 つあれば、後のほうは、終わった転送が出したものになる。 -/
theorem lifecycle_of_traced {trace : List Owned} {n : Nat} {active : Option String} (h : Traced trace n active) :
    Lifecycle trace where
  requestsDistinct := by
    rw [h.requests]
    exact nodup_transferIds n
  finishedOnce := by
    intro id
    by_contra hmany
    obtain ⟨a, b, rest, hlist⟩ : ∃ a b rest, (trace.filter fun o => o.2.finished = some id) = a :: b :: rest := by
      rcases hfilter : trace.filter fun o => o.2.finished = some id with _ | ⟨a, _ | ⟨b, rest⟩⟩
      · simp [hfilter] at hmany
      · simp [hfilter] at hmany
      · exact ⟨a, b, rest, hfilter⟩
    have hmem : ∀ o ∈ a :: b :: rest, o ∈ trace ∧ o.2.finished = some id := by
      intro o ho
      rw [← hlist] at ho
      simpa using ho
    have hquiet := h.quiet.filter fun o => o.2.finished = some id
    rw [hlist] at hquiet
    obtain ⟨_, ha⟩ := hmem a (by simp)
    obtain ⟨hbTrace, hb⟩ := hmem b (by simp)
    exact List.rel_of_pairwise_cons hquiet (by simp) id ha (h.finishers b hbTrace id hb)
  finalQuiet := h.quiet
  stdinOwned := h.stdin
  ownersRequested := by
    intro o ho id hid
    obtain ⟨k, hk, hkid⟩ := h.owners o ho id hid
    rw [h.requests]
    exact List.mem_map.mpr ⟨k, List.mem_range.mpr hk, hkid⟩

/-! ## タイマー -/

theorem onTimeout_active {tid : String} (hid : s.activeId = some tid) :
    s.onTimeout .transfer = s.abortTransfer tid "Transfer timeout" := by
  simp only [onTimeout, hid]

/-- 動いているタイマーは、`set` だけを受け取れば動き続ける。 -/
theorem armed_foldl_set {timers : List (TimerCommand TrzszTimer)} (htimers : ∀ c ∈ timers, c = .set .transfer transferTimeout)
    {armed : TrzszTimer → Bool} (h : armed .transfer = true) :
    timers.foldl TimedStateMachine.command armed .transfer = true := by
  induction timers generalizing armed with
  | nil => exact h
  | cons c timers ih =>
      rw [htimers c List.mem_cons_self]
      refine ih (fun c' hc' => htimers c' (List.mem_cons_of_mem _ hc')) ?_
      simp

/-- 進行中の転送があれば、タイマーが動いている。 -/
theorem armed_next {c c' : TimedStateMachine.Config TrzszTransferFsm TrzszTimer}
    {x : TimedStateMachine.Entry TrzszTransferFsm TrzszEvent TrzszEffect TrzszTimer}
    (h : c.machine.activeId ≠ none → c.armed .transfer = true) (hstep : (machine codec).Steps c x c') :
    c'.machine.activeId ≠ none → c'.armed .transfer = true := by
  intro hactive
  cases hstep with
  | intro i _ =>
      cases advance_react codec c.machine i with
      | idle _ hafter _ _ => exact absurd hafter hactive
      | request _ _ _ _ _ _ _ htimers => simp [TimedStateMachine.next, htimers]
      | keep tid hbefore _ _ _ htimers =>
          refine armed_foldl_set htimers ?_
          cases i with
          | event e => exact h (by rw [hbefore]; exact Option.some_ne_none tid)
          | timeout id =>
              have hended : (c.machine.onTimeout id).1.activeId = none := by
                cases id with
                | transfer => rw [onTimeout_active hbefore]; rfl
              exact absurd hended hactive
      | finish _ _ _ _ _ hafter _ _ _ => exact absurd hafter hactive

theorem armed_of_reaches {c : TimedStateMachine.Config TrzszTransferFsm TrzszTimer}
    {es : List (TimedStateMachine.Entry TrzszTransferFsm TrzszEvent TrzszEffect TrzszTimer)}
    (h : (machine codec).Reaches initial es c) : c.machine.activeId ≠ none → c.armed .transfer = true :=
  h.invariant (fun _ _ _ hinv hstep => armed_next hinv hstep) fun hactive => absurd rfl hactive

/-! ## 名指しの外れたイベント -/

theorem onEvent_of_named {e : TrzszEvent} {id : String} (hnamed : e.named = some id) (hid : s.activeId ≠ some id) :
    s.onEvent codec e = (s, .consume) := by
  obtain ⟨state, tailBuf, nextId⟩ := s
  cases e with
  | stdoutBytes bytes => cases hnamed
  | kotlinAcceptUpload transferId fileName fileSize =>
      cases hnamed
      cases state with
      | waitingKotlin tid mode protoBuf =>
          have hne : tid ≠ id := fun h => hid (congrArg some h)
          cases mode with
          | upload => simp only [onEvent, if_neg hne]
          | download => rfl
          | dir => rfl
      | _ => rfl
  | kotlinAcceptDownload transferId =>
      cases hnamed
      cases state with
      | waitingKotlin tid mode protoBuf =>
          have hne : tid ≠ id := fun h => hid (congrArg some h)
          cases mode with
          | download => simp only [onEvent, if_neg hne]
          | upload => rfl
          | dir => rfl
      | _ => rfl
  | kotlinChunk transferId data isLast =>
      cases hnamed
      cases state with
      | transferring t =>
          obtain ⟨tid, protoBuf, transferred, total, phase⟩ := t
          have hne : tid ≠ id := fun h => hid (congrArg some h)
          cases phase with
          | upload u => simp only [onEvent, onChunk, if_neg hne]
          | download step => rfl
      | _ => rfl
  | kotlinCancel transferId =>
      cases hnamed
      simp only [onEvent, if_neg hid]

/-! ## 1 つの転送の作用 -/

/-- 1 回の反応の、転送 `tid` の作用。 -/
def stepEffects (codec : Codec) (s : TrzszTransferFsm) (tid : String) (i : TrzszInput) : List TrzszEffect :=
  ((ownedApply codec s i).2.filter fun o => o.1 = some tid).map Prod.snd

@[simp] theorem effectsOf_nil (tid : String) : s.effectsOf codec tid [] = [] := rfl

theorem effectsOf_cons (tid : String) (i : TrzszInput) (is : List TrzszInput) :
    s.effectsOf codec tid (i :: is) = s.stepEffects codec tid i ++ (s.apply codec i).1.effectsOf codec tid is := by
  rw [effectsOf, trace, Reducer.outputs_cons, List.filter_append, List.map_append]
  rfl

/-- 手順の作用のうち、進行している転送以外のものはない。 -/
theorem stepEffects_other {tid : String} {i : TrzszInput} (hne : ongoing s (s.apply codec i).1 ≠ some tid) :
    s.stepEffects codec tid i = [] := by
  have hblock := block_advance (advance_react codec s i)
  rw [stepEffects, List.map_eq_nil_iff]
  refine List.filter_eq_nil_iff.mpr ?_
  intro o ho
  rcases hblock.owners o ho with hnone | hsame
  · simp [hnone]
  · rw [hsame]
    exact fun h => hne (of_decide_eq_true h)

/-- 転送が進行していれば、反応の作用はすべてその転送のものである。 -/
theorem stepEffects_active {tid : String} (hid : s.activeId = some tid) (i : TrzszInput) :
    s.stepEffects codec tid i = (s.apply codec i).2 := by
  have hongoing : ongoing s (s.apply codec i).1 = some tid := by rw [ongoing, hid]; rfl
  have howner : ∀ e ∈ (s.apply codec i).2, e.owner (some tid) = some tid := by
    cases advance_react codec s i with
    | idle hbefore _ _ _ => rw [hid] at hbefore; cases hbefore
    | request _ _ hbefore _ _ _ _ _ => rw [hid] at hbefore; cases hbefore
    | keep tid' hbefore _ _ hinner _ =>
        cases Option.some.inj (hid.symm.trans hbefore)
        exact fun e he => owner_inner (hinner e he)
    | finish tid' es ok message hbefore _ _ hactions hes =>
        cases Option.some.inj (hid.symm.trans hbefore)
        rw [apply, hactions]
        intro e he
        rcases List.mem_append.mp he with he | he
        · exact owner_inner (hes e he)
        · rw [List.mem_singleton.mp he]
          rfl
  have hall : (ownedApply codec s i).2.filter (fun o => o.1 = some tid) = (ownedApply codec s i).2 := by
    refine List.filter_eq_self.mpr ?_
    intro o ho
    obtain ⟨e, he, rfl⟩ := List.mem_map.mp ho
    rw [hongoing]
    exact decide_eq_true (howner e he)
  rw [stepEffects, hall, ownedApply, List.map_map]
  exact List.map_id _

/-- 終わった転送。 -/
structure Retired (s : TrzszTransferFsm) (tid : String) : Prop where
  inactive : s.activeId ≠ some tid
  allocated : ∃ k < s.nextId, transferIdOf k = tid

/-- 終わった転送は、もう始まらない。 -/
theorem retired_advance {tid : String} {r : Reply} (h : Retired s tid) (hstep : Advance codec s s' r) :
    ongoing s s' ≠ some tid ∧ Retired s' tid := by
  obtain ⟨k, hk, hkid⟩ := h.allocated
  cases hstep with
  | idle hbefore hafter hnext hflush =>
      rw [ongoing, hbefore, hafter]
      refine ⟨(Option.some_ne_none tid).symm, ?_, k, hnext ▸ hk, hkid⟩
      rw [hafter]
      exact (Option.some_ne_none tid).symm
  | request flushed mode hbefore hafter hnext hflush hactions _ =>
      have hne : some (transferIdOf s.nextId) ≠ some tid := by
        intro heq
        rw [← hkid] at heq
        exact hk.ne' (transferIdOf_injective (Option.some.inj heq))
      rw [ongoing, hbefore]
      refine ⟨hafter ▸ hne, hafter ▸ hne, k, ?_, hkid⟩
      rw [hnext]
      exact hk.trans (Nat.lt_succ_self _)
  | keep tid' hbefore hafter hnext hinner _ =>
      have hne : some tid' ≠ some tid := fun heq => h.inactive (hbefore.trans heq)
      rw [ongoing, hbefore]
      exact ⟨hne, hafter ▸ hne, k, hnext ▸ hk, hkid⟩
  | finish tid' es ok message hbefore hafter hnext hactions hes =>
      have hne : some tid' ≠ some tid := fun heq => h.inactive (hbefore.trans heq)
      rw [ongoing, hbefore]
      refine ⟨hne, ?_, k, hnext ▸ hk, hkid⟩
      rw [hafter]
      exact (Option.some_ne_none tid).symm

end TrzszTransferFsm

end IsekaiTerminal.Trzsz
