import IsekaiTerminal.Emulator.Lemmas.Dispatch
import IsekaiTerminal.Emulator.SessionState

/-!
# 構造の変化は全画面の損傷である

構造を変える遷移はどれも `full_damage_pending` を立て、次の発行まで下ろす操作はない。
-/

namespace IsekaiTerminal.Emulator

/-!
## セッションの状態

どの操作も発行も panic せず、端末の構造の不変条件を保つことを示す。
-/

section

variable {env : Env} {t t' : Terminal} {s s' : SessionState}

theorem Terminal.WellFormed.outer (h : t.WellFormed) (theme : Theme) (modes : Modes) (host : Host) :
    { t with theme, modes, host }.WellFormed := h.control rfl h.cursor

theorem Terminal.WellFormed.takeScrollback (h : t.WellFormed) : t.takeScrollback.2.WellFormed :=
  { h with scrollbackLinks := fun _ hrow => nomatch hrow }

namespace SessionState

/-! ## 操作 -/

theorem onStdout_eq {events : List Event} (hexec : s.terminal.exec env events = some t) :
    ∃ result host, s.onStdout env events = some (result, { s with terminal := { t with pendingScrollback := [], host } }) := by
  rw [onStdout, hexec]
  exact ⟨_, _, rfl⟩

/-- 発行の間の操作は、前回の発行の記録に触れない。 -/
structure SameEmitted (s s' : SessionState) : Prop where
  cells : s'.lastEmittedCells = s.lastEmittedCells
  cols : s'.lastEmittedCols = s.lastEmittedCols
  rows : s'.lastEmittedRows = s.lastEmittedRows
  cursor : s'.lastCursor = s.lastCursor
  seq : s'.updateSeq = s.updateSeq

theorem SameEmitted.refl (s : SessionState) : SameEmitted s s := ⟨rfl, rfl, rfl, rfl, rfl⟩

theorem SameEmitted.trans {s'' : SessionState} (h : SameEmitted s s') (h' : SameEmitted s' s'') : SameEmitted s s'' :=
  ⟨h'.cells.trans h.cells, h'.cols.trans h.cols, h'.rows.trans h.rows, h'.cursor.trans h.cursor, h'.seq.trans h.seq⟩

theorem apply_some (env : Env) (h : s.terminal.WellFormed) (op : Op) :
    ∃ result s', s.apply env op = some (result, s') ∧ s'.terminal.WellFormed ∧ SameEmitted s s' := by
  cases op with
  | stdout events =>
      obtain ⟨t, hexec, hwf⟩ := Terminal.exec_wellFormed env h events
      obtain ⟨result, host, heq⟩ := onStdout_eq hexec
      exact ⟨result, _, heq, hwf.takeScrollback.outer _ _ host, ⟨rfl, rfl, rfl, rfl, rfl⟩⟩
  | resize cols rows =>
      obtain ⟨t, hstep, hwf⟩ := Terminal.step_wellFormed env h (.resize cols rows)
      have hresize : s.terminal.resizePreservingState env cols rows = some t := hstep
      rw [apply, resize, hresize]
      exact ⟨_, _, rfl, hwf.takeScrollback, ⟨rfl, rfl, rfl, rfl, rfl⟩⟩
  | setTitleFromCtl title => exact ⟨_, _, rfl, h.outer _ _ _, ⟨rfl, rfl, rfl, rfl, rfl⟩⟩
  | setTabColorFromCtl rgb => exact ⟨_, _, rfl, h.outer _ _ _, ⟨rfl, rfl, rfl, rfl, rfl⟩⟩
  | setTabProgressFromCtl state progress => exact ⟨_, _, rfl, h.outer _ _ _, ⟨rfl, rfl, rfl, rfl, rfl⟩⟩
  | notifyFromCtl notify => exact ⟨_, _, rfl, h.outer _ _ _, ⟨rfl, rfl, rfl, rfl, rfl⟩⟩
  | setTheme theme => exact ⟨_, _, rfl, h.outer theme _ _, ⟨rfl, rfl, rfl, rfl, rfl⟩⟩
  | setPanelEnabled enabled => exact ⟨_, _, rfl, h.outer _ _ _, ⟨rfl, rfl, rfl, rfl, rfl⟩⟩
  | forceEndSynchronizedOutput => exact ⟨_, _, rfl, h.outer _ _ _, ⟨rfl, rfl, rfl, rfl, rfl⟩⟩

theorem run_some (env : Env) (h : s.terminal.WellFormed) (ops : List Op) :
    ∃ s', s.run env ops = some s' ∧ s'.terminal.WellFormed ∧ SameEmitted s s' := by
  induction ops generalizing s with
  | nil => exact ⟨s, rfl, h, .refl s⟩
  | cons op ops ih =>
      obtain ⟨result, u, happly, hwf, hsame⟩ := apply_some env h op
      obtain ⟨s', hrun, hwf', hsame'⟩ := ih hwf
      refine ⟨s', ?_, hwf', hsame.trans hsame'⟩
      rw [run, List.foldlM_cons, happly]
      exact hrun

/-! ## 到達する状態 -/

/-- 前回の発行の記録は、その大きさの画面である。 -/
structure Consistent (s : SessionState) : Prop where
  terminal : s.terminal.WellFormed
  emitted : ∀ cells ∈ s.lastEmittedCells, cells.length = s.lastEmittedCols * s.lastEmittedRows

theorem emitted_consistent (h : s.terminal.WellFormed) : s.emitted.Consistent where
  terminal := { h with }
  emitted := by
    rintro cells ⟨⟩
    exact h.cells.length_flatten

theorem Reachable.consistent (h : Reachable env s) : s.Consistent := by
  induction h with
  | new cols rows theme => exact ⟨.new cols rows theme, fun _ hcells => nomatch hcells⟩
  | apply _ hstep ih =>
      obtain ⟨_, u, happly, hwf, hsame⟩ := apply_some env ih.terminal _
      cases Option.some_inj.mp (hstep.symm.trans happly)
      refine ⟨hwf, ?_⟩
      rw [hsame.cells, hsame.cols, hsame.rows]
      exact ih.emitted
  | makeScreenUpdate _ hstep ih =>
      obtain ⟨_, -, heq⟩ := Option.bind_eq_some_iff.mp hstep
      cases heq
      exact emitted_consistent ih.terminal

end SessionState

end

section

open Lib (sub?_eq_some)

variable {env : Env} {S : Kind → Prop} {t t' u : Terminal}

namespace Terminal

/-! ## フラグ -/

/-- フラグは立ったままで、大きさはフラグを立てずには変わらない。 -/
structure KeepsDamage (t t' : Terminal) : Prop where
  flag : t.fullDamagePending = true → t'.fullDamagePending = true
  size : t'.fullDamagePending = true ∨ t'.cols = t.cols ∧ t'.rows = t.rows

theorem KeepsDamage.refl (t : Terminal) : KeepsDamage t t := ⟨id, .inr ⟨rfl, rfl⟩⟩

theorem KeepsDamage.trans (h : KeepsDamage t u) (h' : KeepsDamage u t') : KeepsDamage t t' := by
  refine ⟨h'.flag ∘ h.flag, ?_⟩
  rcases h.size with hflag | ⟨hcols, hrows⟩
  · exact .inl (h'.flag hflag)
  · exact h'.size.imp_right fun ⟨hcols', hrows'⟩ => ⟨hcols'.trans hcols, hrows'.trans hrows⟩

theorem KeepsDamage.of_flag (h : t'.fullDamagePending = true) : KeepsDamage t t' := ⟨fun _ => h, .inl h⟩

theorem KeepsDamage.setCells (t : Terminal) (g : Grid) : KeepsDamage t (t.setCells g) := by
  unfold Terminal.setCells
  split
  · exact { KeepsDamage.refl t with }
  · exact { KeepsDamage.refl t with }

@[simp] theorem setCells_fullDamagePending (t : Terminal) (g : Grid) :
    (t.setCells g).fullDamagePending = t.fullDamagePending := by
  unfold Terminal.setCells
  split <;> rfl

theorem linesUp_damaged (t : Terminal) (top n : Nat) : (t.linesUp top n).fullDamagePending = true :=
  setCells_fullDamagePending ..

theorem linesDown_damaged (t : Terminal) (top n : Nat) : (t.linesDown top n).fullDamagePending = true :=
  setCells_fullDamagePending ..

theorem scrolledUp_damaged (t : Terminal) (n : Nat) : (t.scrolledUp n).fullDamagePending = true := by
  unfold scrolledUp
  split
  · exact linesUp_damaged ..
  · exact linesUp_damaged ..

theorem resized_damaged (env : Env) (t : Terminal) (cols rows : Nat) :
    (t.resized env cols rows).fullDamagePending = true := by
  simp only [resized, resizedCells, trimPendingScrollback_eq, clearImages]

theorem switchToAlt_damaged {saveCursor : Bool} (halt : t.altActive = false) (hswitch : t.switchToAlt saveCursor = some t') :
    t'.fullDamagePending = true := by
  rw [switchToAlt, if_neg (by simp [halt])] at hswitch
  obtain ⟨_, -, heq⟩ := Option.bind_eq_some_iff.mp hswitch
  injection heq with heq
  rw [← heq]
  rfl

theorem switchToMain_damaged (halt : t.altActive = true) (restoreCursor : Bool) :
    (t.switchToMain restoreCursor).fullDamagePending = true := by
  rw [switchToMain, if_neg (by simp [halt])]
  rfl

/-! ## 変化 -/

theorem Change.keepsDamage {k : Kind} (hchange : Change env k t t') : KeepsDamage t t' := by
  cases hchange with
  | control => exact { KeepsDamage.refl t with }
  | setLink => exact { KeepsDamage.refl t with }
  | activeLink => exact { KeepsDamage.refl t with }
  | save =>
      unfold saveCursorDecsc
      split
      · exact { KeepsDamage.refl t with }
      · exact { KeepsDamage.refl t with }
  | margins => exact { KeepsDamage.refl t with }
  | scroll n => exact .of_flag (scrolledUp_damaged t n)
  | linesUp => exact .of_flag (linesUp_damaged ..)
  | linesDown => exact .of_flag (linesDown_damaged ..)
  | edit => exact .setCells ..
  | erase => exact .setCells ..
  | write c row =>
      have hgraphic : KeepsDamage t { t with lastGraphicCell := some (c, t.cursor.attrs, t.links.activeLinkId) } :=
        { KeepsDamage.refl t with }
      have hset := hgraphic.trans (.setCells _ (t.cells.set t.cursor.row (t.writtenRow env c (charWidth env c) row)))
      exact { hset with }
  | combine => exact .setCells ..
  | toAlt _ switch =>
      cases halt : t.altActive with
      | false => exact .of_flag (switchToAlt_damaged halt switch)
      | true =>
          rw [switchToAlt, if_pos halt] at switch
          injection switch with switch
          exact switch ▸ .refl t
  | toMain restoreCursor =>
      cases halt : t.altActive with
      | false =>
          rw [switchToMain, if_pos (by simp [halt])]
          exact .refl t
      | true => exact .of_flag (switchToMain_damaged halt restoreCursor)
  | reset => exact .of_flag rfl
  | graphics => exact { KeepsDamage.refl t with }
  | resize cols rows => exact .of_flag (resized_damaged env t cols rows)

theorem Runs.keepsDamage (hruns : Runs env S t t') : KeepsDamage t t' := by
  induction hruns with
  | refl => exact .refl t
  | tail _ hstep ih =>
      obtain ⟨k, -, hchange⟩ := hstep
      exact ih.trans (Change.keepsDamage hchange)

theorem Reaches.keepsDamage {r : Option Terminal} (hr : Reaches env S t r) (heq : r = some t') : KeepsDamage t t' := by
  obtain ⟨u, hu, hruns⟩ := hr
  obtain rfl : t' = u := Option.some_inj.mp (heq.symm.trans hu)
  exact Runs.keepsDamage hruns

theorem step_keepsDamage (h : t.WellFormed) {ev : Event} (hstep : t.step env ev = some t') : KeepsDamage t t' :=
  Reaches.keepsDamage (reaches_step h ev) hstep

theorem exec_keepsDamage {events : List Event} (h : t.WellFormed) (hexec : t.exec env events = some t') :
    KeepsDamage t t' := by
  induction events generalizing t with
  | nil =>
      injection hexec with hexec
      exact hexec ▸ .refl t
  | cons ev events ih =>
      obtain ⟨u, hu, hwf⟩ := step_wellFormed env h ev
      rw [Terminal.exec, List.foldlM_cons, hu] at hexec
      exact (step_keepsDamage h hu).trans (ih hwf hexec)

/-! ## 構造を変える遷移 -/

theorem newline_damaged (h : t.WellFormed) (hbottom : t.cursor.row = t.scrollBottom) (hstep : t.newline = some t') :
    t'.fullDamagePending = true := by
  rw [newline, if_pos hbottom, scrollUpRegion_eq h] at hstep
  injection hstep with hstep
  exact hstep ▸ scrolledUp_damaged t 1

theorem wrap_damaged (h : t.WellFormed) {c : Char} (hscrolls : t.printScrolls env c = true)
    (hstep : t.wrap (charWidth env c) = some t') : t'.fullDamagePending = true := by
  simp only [printScrolls, Bool.and_eq_true, decide_eq_true_eq] at hscrolls
  obtain ⟨⟨⟨-, hneeds⟩, hauto⟩, hbottom⟩ := hscrolls
  rw [wrap, if_pos hneeds, if_pos hauto] at hstep
  have hwf : (t.setCursorCol 0).WellFormed := h.control rfl ⟨h.cursor.row, Nat.zero_le _⟩
  exact newline_damaged hwf hbottom hstep

/-- 画面を送る印字。 -/
theorem printMapped_damaged (h : t.WellFormed) {c : Char} (hscrolls : t.printScrolls env c = true)
    (hstep : t.printMapped env c = some t') : t'.fullDamagePending = true := by
  have hzero : charWidth env c ≠ 0 := by
    intro hzero
    simp [printScrolls, hzero] at hscrolls
  rw [printMapped, if_neg hzero] at hstep
  obtain ⟨u, hwrap, hwrite⟩ := Option.bind_eq_some_iff.mp hstep
  have hwf : u.WellFormed := by
    have hreaches : Reaches env (fun _ => True) t (t.wrap (charWidth env c)) := reaches_wrap trivial trivial h _
    obtain ⟨v, hv, hwf⟩ := hreaches.wellFormed h
    cases Option.some_inj.mp (hwrap.symm.trans hv)
    exact hwf
  obtain ⟨row, hrow, -⟩ := hwf.cursorRow
  rw [writeGraphic_eq hwf hrow (wrap_col h hwrap)] at hwrite
  injection hwrite with hwrite
  have hdamaged := wrap_damaged h hscrolls hwrap
  rw [← hwrite]
  exact (setCells_fullDamagePending ..).trans hdamaged

theorem print_damaged (h : t.WellFormed) {c : Char} (hscrolls : t.printScrolls env (t.mapCharset c) = true)
    (hstep : t.print env c = some t') : t'.fullDamagePending = true := by
  have hcapture : ∃ prompt, t.captureChar (t.mapCharset c) = { t with prompt } := by
    unfold captureChar
    split
    · exact ⟨_, rfl⟩
    · exact ⟨_, rfl⟩
  obtain ⟨prompt, heq⟩ := hcapture
  have hwf : { t with prompt }.WellFormed := h.control rfl h.cursor
  rw [print, heq] at hstep
  exact printMapped_damaged hwf hscrolls hstep

theorem execute_damaged (h : t.WellFormed) {byte : UInt8} (hbyte : byte = 0x0A ∨ byte = 0x0B ∨ byte = 0x0C)
    (hbottom : t.cursor.row = t.scrollBottom) (hstep : t.execute byte = some t') : t'.fullDamagePending = true := by
  have hcapture : ∃ prompt, t.captureLine = { t with prompt } := by
    unfold captureLine
    split
    · exact ⟨_, rfl⟩
    · exact ⟨_, rfl⟩
  obtain ⟨prompt, heq⟩ := hcapture
  have hwf : { t with prompt }.WellFormed := h.control rfl h.cursor
  have hother : byte ≠ 0x07 ∧ byte ≠ 0x0D := by
    rcases hbyte with rfl | rfl | rfl <;> decide
  rw [execute, if_neg hother.1, if_neg hother.2, if_pos hbyte, heq] at hstep
  exact newline_damaged hwf hbottom hstep

theorem insertLines_damaged (h : t.WellFormed) (hregion : t.scrollTop ≤ t.cursor.row ∧ t.cursor.row ≤ t.scrollBottom)
    {n : Nat} (hstep : t.insertLines n = some t') : t'.fullDamagePending = true := by
  rw [insertLines, if_neg (by omega), shiftRowsDown_damageAll h hregion.2] at hstep
  injection hstep with hstep
  exact hstep ▸ linesDown_damaged ..

theorem deleteLines_damaged (h : t.WellFormed) (hregion : t.scrollTop ≤ t.cursor.row ∧ t.cursor.row ≤ t.scrollBottom)
    {n : Nat} (hstep : t.deleteLines n = some t') : t'.fullDamagePending = true := by
  rw [deleteLines, if_neg (by omega), shiftRowsUp_damageAll h hregion.2] at hstep
  injection hstep with hstep
  exact hstep ▸ linesUp_damaged ..

/-- 途中の 1 つが立てたフラグは、最後まで残る。 -/
theorem foldlM_damaged {f : Terminal → UInt16 → Option Terminal} {ps : List UInt16}
    (hf : ∀ p, ∀ t, t.WellFormed → Reaches env (fun _ => True) t (f t p)) (h : t.WellFormed) {k : Nat} {p : UInt16}
    (hp : ps[k]? = some p) (hbefore : (ps.take k).foldlM f t = some u)
    (hdamaged : ∀ v, f u p = some v → v.fullDamagePending = true) (hstep : ps.foldlM f t = some t') :
    t'.fullDamagePending = true := by
  obtain ⟨hk, hget⟩ := List.getElem?_eq_some_iff.mp hp
  have hsplit : ps = ps.take k ++ p :: ps.drop (k + 1) := by
    rw [← hget, ← List.drop_eq_getElem_cons hk, List.take_append_drop]
  obtain ⟨u', hu', huwf⟩ := Reaches.wellFormed h (reaches_foldlM (ps.take k) (fun p _ => hf p) h)
  obtain rfl : u = u' := Option.some_inj.mp (hbefore.symm.trans hu')
  rw [hsplit, List.foldlM_append, hbefore, Option.bind_eq_bind, Option.bind_some, List.foldlM_cons] at hstep
  obtain ⟨v, hv, htail⟩ := Option.bind_eq_some_iff.mp hstep
  obtain ⟨v', hv', hvwf⟩ := Reaches.wellFormed huwf (hf p u huwf)
  obtain rfl : v = v' := Option.some_inj.mp (hv.symm.trans hv')
  exact (Reaches.keepsDamage (reaches_foldlM _ (fun p _ => hf p) hvwf) htail).flag (hdamaged v hv)

theorem setDecMode_damaged {on : Bool} {p : UInt16} (hp : isAltMode p = true) (halt : (t.altActive != on) = true)
    (hstep : t.setDecMode on p = some t') : t'.fullDamagePending = true := by
  have hswitch (saveCursor : Bool) (hstep : (if on then t.switchToAlt saveCursor else some (t.switchToMain saveCursor)) = some t') :
      t'.fullDamagePending = true := by
    cases on with
    | true => exact switchToAlt_damaged (by simpa using halt) hstep
    | false =>
        cases hstep
        exact switchToMain_damaged (by simpa using halt) saveCursor
  simp only [isAltMode, Bool.or_eq_true, decide_eq_true_eq, or_assoc] at hp
  rcases hp with rfl | rfl | rfl
  · exact hswitch false hstep
  · exact hswitch false hstep
  · exact hswitch true hstep

theorem setDecModes_damaged (env : Env) (h : t.WellFormed) {on : Bool} {ps : List UInt16} (hswitch : t.modesSwitch on ps = true)
    (hstep : ps.foldlM (fun (t : Terminal) p => t.setDecMode on p) t = some t') : t'.fullDamagePending = true := by
  obtain ⟨k, -, hk⟩ := List.any_eq_true.mp hswitch
  obtain ⟨u, hbefore, hk⟩ := (Option.any_eq_true ..).mp hk
  obtain ⟨hp, halt⟩ := Bool.and_eq_true_iff.mp hk
  obtain ⟨p, hp, hmode⟩ := (Option.any_eq_true ..).mp hp
  have hreaches (p : UInt16) (t : Terminal) (ht : t.WellFormed) : Reaches env (fun _ => True) t (t.setDecMode on p) :=
    reaches_setDecMode trivial trivial (fun _ _ => trivial) ht
  exact foldlM_damaged hreaches h hp hbefore (fun v => setDecMode_damaged hmode halt) hstep

theorem printTimes_add (c : Char) (k n : Nat) (t : Terminal) :
    printTimes env c (k + n) t = (printTimes env c k t).bind (printTimes env c n) := by
  induction k generalizing t with
  | zero => rw [Nat.zero_add]; rfl
  | succ k ih =>
      rw [Nat.add_right_comm, printTimes, printTimes, Option.bind_eq_bind, Option.bind_assoc]
      exact Option.bind_congr fun u _ => ih u

theorem repeatGraphic_damaged (h : t.WellFormed) {n : Nat} (hscrolls : t.repeatScrolls env n = true)
    (hstep : t.repeatGraphic env n = some t') : t'.fullDamagePending = true := by
  unfold repeatScrolls at hscrolls
  unfold repeatGraphic at hstep
  split at hscrolls
  · rename_i c attrs linkId hgraphic
    rw [hgraphic] at hstep
    have hattrs : (t.setAttrs attrs).WellFormed := h.control rfl ⟨h.cursor.row, h.cursor.col⟩
    have hwf : ((t.setAttrs attrs).setActiveLink linkId).WellFormed := hattrs.setActiveLink (h.graphicLink _ hgraphic)
    have hprints : Prints fun _ => True := ⟨trivial, trivial, trivial, trivial⟩
    obtain ⟨k, hk, hany⟩ := List.any_eq_true.mp hscrolls
    obtain ⟨u, hu, hprint⟩ := (Option.any_eq_true ..).mp hany
    obtain ⟨m, hm⟩ := Nat.exists_eq_add_of_lt (List.mem_range.mp hk)
    obtain ⟨v, hv, hrestore⟩ := Option.bind_eq_some_iff.mp hstep
    injection hrestore with hrestore
    obtain ⟨u', hu', huwf⟩ := printTimes_wellFormed env hwf c k
    obtain rfl : u = u' := Option.some_inj.mp (hu.symm.trans hu')
    rw [hm, Nat.add_assoc, printTimes_add, hu, Option.bind_some, Nat.add_comm m 1, printTimes_add, printTimes] at hv
    obtain ⟨w, hw, htail⟩ := Option.bind_eq_some_iff.mp hv
    obtain ⟨w', hw', hnil⟩ := Option.bind_eq_some_iff.mp hw
    obtain rfl : w' = w := Option.some_inj.mp hnil
    obtain ⟨w'', hw'', hwwf⟩ := printMapped_wellFormed env huwf c
    obtain rfl : w' = w'' := Option.some_inj.mp (hw'.symm.trans hw'')
    have hdamaged := printMapped_damaged huwf hprint hw'
    have hrest : Reaches env (fun _ => True) w' (printTimes env c m w') := reaches_printTimes hprints c m hwwf
    have hkept := (Reaches.keepsDamage hrest htail).flag hdamaged
    exact hrestore ▸ hkept
  · exact absurd hscrolls Bool.false_ne_true

theorem csiDispatch_damaged (h : t.WellFormed) {params : Params} {intermediates : List UInt8} {action : Char}
    (hrestructures : t.restructures env (.csiDispatch params intermediates action) = true)
    (hstep : t.csiDispatch env params intermediates action = some t') : t'.fullDamagePending = true := by
  simp only [restructures] at hrestructures
  have hkitty (hu : action ≠ 'u') {byte : UInt8} : ¬(action = 'u' ∧ intermediates = [byte]) := fun h => hu h.1
  split at hrestructures
  · rename_i hprivate
    have haction : action ≠ 'u' := by
      rintro rfl
      simp at hrestructures
    rw [csiDispatch, if_neg (hkitty haction), if_neg (hkitty haction), if_neg (hkitty haction), if_neg (hkitty haction),
      if_pos hprivate, setDecModes] at hstep
    rcases Bool.or_eq_true_iff.mp hrestructures with hset | hreset
    · obtain ⟨hh, hswitch⟩ := Bool.and_eq_true_iff.mp hset
      rw [if_pos (of_decide_eq_true hh)] at hstep
      exact setDecModes_damaged env h hswitch hstep
    · obtain ⟨hl, hswitch⟩ := Bool.and_eq_true_iff.mp hreset
      have hl := of_decide_eq_true hl
      rw [if_neg (by rw [hl]; decide), if_pos hl] at hstep
      exact setDecModes_damaged env h hswitch hstep
  · rename_i hprivate
    simp only [Bool.or_eq_true, Bool.and_eq_true, decide_eq_true_eq, or_assoc] at hrestructures
    have hother : action ≠ 'u' ∧ action ≠ 'q' ∧ action ≠ 'c' ∧ action ≠ 'n' := by
      rcases hrestructures with rfl | ⟨⟨rfl, -⟩, -⟩ | ⟨rfl, -⟩ | ⟨rfl, -⟩ | ⟨rfl, -⟩ <;> decide
    simp only [csiDispatch, hother, hprivate, false_and, ↓reduceIte, csiAction] at hstep
    rcases hrestructures with rfl | ⟨⟨rfl, hempty⟩, hcount⟩ | ⟨rfl, hregion⟩ | ⟨rfl, hregion⟩ | ⟨rfl, hscrolls⟩
    · rw [scrollUpRegion_eq h] at hstep
      injection hstep with hstep
      exact hstep ▸ scrolledUp_damaged t _
    · rw [if_pos ⟨hempty, hcount⟩, scrollDownRegion, shiftRowsDown_damageAll h h.top] at hstep
      injection hstep with hstep
      exact hstep ▸ linesDown_damaged ..
    · exact insertLines_damaged h hregion hstep
    · exact deleteLines_damaged h hregion hstep
    · exact repeatGraphic_damaged h hscrolls hstep

theorem reverseIndex_damaged (h : t.WellFormed) (htop : t.cursor.row = t.scrollTop) (hstep : t.reverseIndex = some t') :
    t'.fullDamagePending = true := by
  rw [reverseIndex, if_pos htop, shiftRowsDown_damageAll h h.top] at hstep
  injection hstep with hstep
  exact hstep ▸ linesDown_damaged ..

theorem resize_damaged (h : t.WellFormed) {cols rows : Nat} (hsize : ¬(max cols 1 = t.cols ∧ max rows 1 = t.rows))
    (hstep : t.resizePreservingState env cols rows = some t') : t'.fullDamagePending = true := by
  rw [resizePreservingState_eq h, if_neg hsize] at hstep
  injection hstep with hstep
  exact hstep ▸ resized_damaged ..

/-- 構造を変える遷移は、フラグを立てる。 -/
theorem step_damaged (h : t.WellFormed) {ev : Event} (hrestructures : t.restructures env ev = true)
    (hstep : t.step env ev = some t') : t'.fullDamagePending = true := by
  cases ev with
  | print c => exact print_damaged h hrestructures hstep
  | execute byte =>
      simp only [restructures, Bool.and_eq_true, Bool.or_eq_true, decide_eq_true_eq, or_assoc] at hrestructures
      exact execute_damaged h hrestructures.1 hrestructures.2 hstep
  | csiDispatch params intermediates action => exact csiDispatch_damaged h hrestructures hstep
  | escDispatch ints byte =>
      simp only [restructures, Bool.and_eq_true, Bool.or_eq_true, decide_eq_true_eq] at hrestructures
      obtain ⟨rfl, ⟨rfl, htop⟩ | rfl⟩ := hrestructures
      · exact reverseIndex_damaged h htop hstep
      · cases hstep
        rfl
  | resize cols rows =>
      simp only [restructures, Bool.or_eq_true, decide_eq_true_eq] at hrestructures
      exact resize_damaged h (by tauto) hstep
  | oscDispatch => exact absurd hrestructures Bool.false_ne_true
  | hook => exact absurd hrestructures Bool.false_ne_true
  | put => exact absurd hrestructures Bool.false_ne_true
  | unhook => exact absurd hrestructures Bool.false_ne_true
  | apc => exact absurd hrestructures Bool.false_ne_true

end Terminal

/-! ## セッション -/

namespace SessionState

open Terminal

variable {s s' : SessionState}

theorem apply_keepsDamage (h : s.terminal.WellFormed) {op : Op} {result : ProcessResult}
    (hstep : s.apply env op = some (result, s')) : KeepsDamage s.terminal s'.terminal := by
  cases op with
  | stdout events =>
      obtain ⟨t, hexec, -⟩ := exec_wellFormed env h events
      obtain ⟨_, _, heq⟩ := onStdout_eq hexec
      cases Option.some_inj.mp (hstep.symm.trans heq)
      exact { exec_keepsDamage h hexec with }
  | resize cols rows =>
      obtain ⟨t, hresize, heq⟩ := Option.bind_eq_some_iff.mp hstep
      cases heq
      have hstep : s.terminal.step env (.resize cols rows) = some t := hresize
      have hkeeps := step_keepsDamage h hstep
      exact { hkeeps with }
  | setTitleFromCtl title => cases hstep; exact { KeepsDamage.refl s.terminal with }
  | setTabColorFromCtl rgb => cases hstep; exact { KeepsDamage.refl s.terminal with }
  | setTabProgressFromCtl state progress => cases hstep; exact { KeepsDamage.refl s.terminal with }
  | notifyFromCtl notify => cases hstep; exact { KeepsDamage.refl s.terminal with }
  | setTheme theme => cases hstep; exact { KeepsDamage.refl s.terminal with }
  | setPanelEnabled enabled => cases hstep; exact { KeepsDamage.refl s.terminal with }
  | forceEndSynchronizedOutput => cases hstep; exact { KeepsDamage.refl s.terminal with }

theorem run_keepsDamage {ops : List Op} (h : s.terminal.WellFormed) (hrun : s.run env ops = some s') :
    KeepsDamage s.terminal s'.terminal := by
  induction ops generalizing s with
  | nil =>
      injection hrun with hrun
      exact hrun ▸ .refl _
  | cons op ops ih =>
      obtain ⟨result, u, happly, hwf, -⟩ := apply_some env h op
      rw [run, List.foldlM_cons, happly] at hrun
      exact (apply_keepsDamage h happly).trans (ih hwf hrun)

end SessionState

/-- 発行の間に構造が変われば、フラグが立っている。 -/
theorem Restructured.damaged {s s' : SessionState} {ops : List SessionState.Op} (hre : Restructured env s ops)
    (h : s.terminal.WellFormed) (hrun : s.run env ops = some s') : s'.terminal.fullDamagePending = true := by
  induction hre generalizing s' with
  | @stdout s t ops before after ev hexec hrestructures =>
      obtain ⟨t₀, ht₀, hwf⟩ := Terminal.exec_wellFormed env h before
      obtain rfl : t = t₀ := Option.some_inj.mp (hexec.symm.trans ht₀)
      obtain ⟨u, hu, huwf⟩ := Terminal.step_wellFormed env hwf ev
      obtain ⟨v, hv, hvwf⟩ := Terminal.exec_wellFormed env huwf after
      have hall : s.terminal.exec env (before ++ ev :: after) = some v := by
        rw [Terminal.exec] at hexec hv ⊢
        rw [List.foldlM_append, hexec, Option.bind_eq_bind, Option.bind_some, List.foldlM_cons, hu, Option.bind_eq_bind,
          Option.bind_some, hv]
      have hdamaged := (Terminal.exec_keepsDamage huwf hv).flag (Terminal.step_damaged hwf hrestructures hu)
      obtain ⟨result, host, heq⟩ := SessionState.onStdout_eq hall
      rw [SessionState.run, List.foldlM_cons, SessionState.apply, heq] at hrun
      exact (SessionState.run_keepsDamage (s := { s with terminal := { v with pendingScrollback := [], host } })
        (hvwf.takeScrollback.outer _ _ host) hrun).flag hdamaged
  | @resize s ops cols rows hrestructures =>
      obtain ⟨t, ht, hwf⟩ := Terminal.step_wellFormed env h (.resize cols rows)
      have hdamaged := Terminal.step_damaged h hrestructures ht
      have hresize : s.terminal.resizePreservingState env cols rows = some t := ht
      rw [SessionState.run, List.foldlM_cons, SessionState.apply, SessionState.resize, hresize] at hrun
      exact (SessionState.run_keepsDamage (s := { s with terminal := t.takeScrollback.2 }) hwf.takeScrollback hrun).flag hdamaged
  | later hstep _ ih =>
      obtain ⟨result, u, happly, hwf, -⟩ := SessionState.apply_some env h _
      cases Option.some_inj.mp (hstep.symm.trans happly)
      rw [SessionState.run, List.foldlM_cons, happly] at hrun
      exact ih hwf hrun

end

end IsekaiTerminal.Emulator
