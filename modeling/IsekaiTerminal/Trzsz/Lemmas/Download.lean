import IsekaiTerminal.Trzsz.Lemmas.Upload

/-!
# ダウンロードについての補題

サーバーのフレームを順に処理した途中の転送を段階に分け、残りのフレームとともに表す。
-/

namespace IsekaiTerminal.Trzsz

open Lib
open Emulator (digits? digit? parseUnsigned?)

/-! ## 数の読み取り -/

theorem digits?_foldl {cs : List Char} (h : ∀ c ∈ cs, c.isDigit = true) (n : Nat) :
    cs.foldl (fun acc c => acc.bind fun n => (digit? c).map (n * 10 + ·)) (some n) = some (Nat.ofDigitChars 10 cs n) := by
  induction cs generalizing n with
  | nil => rfl
  | cons c cs ih =>
      have hc : digit? c = some (c.toNat - '0'.toNat) := by rw [digit?, if_pos (h c List.mem_cons_self)]
      rw [List.foldl_cons, hc, Nat.ofDigitChars_cons]
      simp only [Option.bind_some, Option.map_some]
      rw [ih (fun c hc => h c (List.mem_cons_of_mem _ hc)), Nat.mul_comm]

theorem parseU64?_toString {n : Nat} (h : n < 2 ^ 64) : Transfer.parseU64? (toString n) = some n := by
  have hdigits : ∀ c ∈ Nat.toDigits 10 n, c.isDigit = true :=
    fun c hc => Nat.isDigit_of_mem_toDigits (by decide) (by decide) hc
  have hplus : ∀ rest, Nat.toDigits 10 n = '+' :: rest → False := by
    intro rest heq
    exact absurd (hdigits '+' (by rw [heq]; exact List.mem_cons_self)) (by decide)
  have hparse : digits? (Nat.toDigits 10 n) = some n := by
    unfold digits?
    split
    · next heq => exact absurd heq Nat.toDigits_ne_nil
    · rw [digits?_foldl hdigits, Nat.ofDigitChars_ten_toDigits]
  have hlist : (toString n).toList = Nat.toDigits 10 n := String.toList_ofList
  have hbound : n ≤ 2 ^ 64 - 1 := by omega
  rw [Transfer.parseU64?, hlist, parseUnsigned?, hparse]
  · simpa using hbound
  · exact hplus

/-! ## 段階 -/

@[simp] theorem downloadChunks_append (es es' : List TrzszEffect) :
    downloadChunks (es ++ es') = downloadChunks es ++ downloadChunks es' := List.filterMap_append

namespace DownloadPlan

variable {codec : Codec} {p : DownloadPlan} {t : Transfer} {es : List TrzszEffect} {n : Nat}

/-- 残りの DATA からのフレームの列。 -/
def fromData (p : DownloadPlan) (rest : List (String × List UInt8)) : List (String × String) :=
  (rest.map fun d => ("DATA", d.1)) ++ [("MD5", p.md5)]

def opening (p : DownloadPlan) : List (List UInt8) := [frameInt "SUCC" 1, frame "SUCC" p.name, frameInt "SUCC" p.size]

def acks (data : List (String × List UInt8)) : List (List UInt8) := data.map fun d => frameInt "SUCC" d.2.length

def length (data : List (String × List UInt8)) : Nat := (data.flatMap Prod.snd).length

theorem length_append (a b : List (String × List UInt8)) : length (a ++ b) = length a + length b := by
  simp [length]

theorem length_cons (d : String × List UInt8) (a : List (String × List UInt8)) : length (d :: a) = d.2.length + length a := by
  simp [length]

/-- 転送の、この計画で変わる欄。 -/
structure On (p : DownloadPlan) (t : Transfer) (step : DownloadStep) (transferred : Nat) (total : Option Nat) : Prop where
  transferId : t.transferId = p.transferId
  phase : t.phase = .download step
  transferred : t.transferred = transferred
  total : t.total = total

/-- 終わりを知らせる前の作用の列。 -/
structure Seen (p : DownloadPlan) (es : List TrzszEffect) (chunks : List Chunk) (frames : List (List UInt8)) : Prop where
  chunks : downloadChunks es = chunks
  frames : stdinFrames es = frames
  unfinished : .onFinished p.transferId true none ∉ es

/-- 残りのフレームが `left` であるときの、転送と作用の列。 -/
inductive Stage (p : DownloadPlan) (left : List (String × String)) (t : Transfer) (es : List TrzszEffect) : Prop
  | waitCfg (hleft : left = p.frames) (ht : p.On t .waitCfg 0 none) (hes : p.Seen es [] [])
  | waitNum (hleft : left = p.frames.drop 1) (ht : p.On t .waitNum 0 none) (hes : p.Seen es [] [])
  | waitName (hleft : left = p.frames.drop 2) (ht : p.On t .waitName 0 none) (hes : p.Seen es [] [frameInt "SUCC" 1])
  | waitSize (hleft : left = p.frames.drop 3) (ht : p.On t .waitSize 0 none)
      (hes : p.Seen es [] [frameInt "SUCC" 1, frame "SUCC" p.name])
  | receiving (done rest : List (String × List UInt8)) (hleft : left = p.fromData rest) (hdata : p.data = done ++ rest)
      (hshort : p.size = 0 ∨ length done < p.size) (ht : p.On t .receiving (length done) (some p.size))
      (hes : p.Seen es (done.map fun d => (d.2, false)) (p.opening ++ acks done))
  /-- `ignored` は、全てを受け取った後に届いた、空の DATA である。 -/
  | waitMd5 (done : List (String × List UInt8)) (d : String × List UInt8) (ignored rest : List (String × List UInt8))
      (hleft : left = p.fromData rest) (hdata : p.data = done ++ d :: (ignored ++ rest)) (hshort : length done < p.size)
      (hall : length (done ++ [d]) = p.size) (ht : p.On t .waitMd5 p.size (some p.size))
      (hes : p.Seen es ((done.map fun d => (d.2, false)) ++ [(d.2, true)]) (p.opening ++ acks (done ++ [d])))
  /-- 空のファイルの MD5 は読み飛ばされる。 -/
  | stuck (hleft : left = []) (hsize : p.size = 0) (hes : .onFinished p.transferId true none ∉ es)

/-- MD5 を受け取って終わったときの作用の列。 -/
def Ended (p : DownloadPlan) (es last : List TrzszEffect) : Prop :=
  ∃ done d ignored, p.data = done ++ d :: ignored ∧ length done < p.size ∧ length (done ++ [d]) = p.size ∧
    downloadChunks es = (done.map fun d => (d.2, false)) ++ [(d.2, true)] ∧
    stdinFrames es = p.opening ++ acks (done ++ [d]) ++ [frame "SUCC" p.md5] ∧ .onFinished p.transferId true none ∈ last

/-- 1 行か行の列を処理した後。 -/
def After (p : DownloadPlan) (left : List (String × String)) (es : List TrzszEffect) (t : Transfer)
    (effects : List TrzszEffect) : Option Bool → Prop
  | none => p.Stage left t (es ++ effects)
  | some ok => ok = true ∧ left = [] ∧ p.Ended (es ++ effects) effects

theorem Seen.append {chunks chunks' : List Chunk} {frames frames' : List (List UInt8)} (h : p.Seen es chunks frames)
    {effects : List TrzszEffect} (h' : p.Seen effects chunks' frames') :
    p.Seen (es ++ effects) (chunks ++ chunks') (frames ++ frames') where
  chunks := by rw [downloadChunks_append, h.chunks, h'.chunks]
  frames := by rw [stdinFrames_append, h.frames, h'.frames]
  unfinished := fun hmem => (List.mem_append.mp hmem).elim h.unfinished h'.unfinished

theorem seen_nil : p.Seen [] [] [] := ⟨rfl, rfl, List.not_mem_nil⟩

theorem seen_send (bytes : List UInt8) : p.Seen [.sendStdin bytes] [] [bytes] := ⟨rfl, rfl, by simp⟩

theorem onFrame_download {step : DownloadStep} (hphase : t.phase = .download step) {typ : String}
    (hfail : ¬ (typ = "FAIL" ∨ typ = "fail")) (payload : String) :
    t.onFrame codec typ payload = t.onDownloadLine codec step typ payload := by
  rw [Transfer.onFrame, if_neg hfail, hphase]

theorem Conforms.length_data (hp : p.Conforms codec) : length p.data = p.size := hp.total

/-- 全体より短い間に届いた DATA は、最後かどうかとともにアプリへ渡り、その長さが確認として送られる。 -/
theorem onData_seen (ht : p.On t .receiving n (some p.size)) (data : List UInt8) :
    p.Seen (t.onData data).effects [(data, decide (p.size ≤ n + data.length))] [frameInt "SUCC" data.length] := by
  have hlast : (some p.size).any (fun total => decide (total ≤ n + data.length)) = decide (p.size ≤ n + data.length) := rfl
  simp only [Transfer.onData, ht.total, ht.transferred, hlast]
  exact ⟨rfl, rfl, by simp [Transfer.stay, Transfer.progress]⟩

theorem onData_last (ht : p.On t .receiving n (some p.size)) {data : List UInt8} (h : p.size ≤ n + data.length) :
    p.On (t.onData data).transfer .waitMd5 (n + data.length) (some p.size) := by
  have hlast : t.total.any (fun total => decide (total ≤ t.transferred + data.length)) = true := by
    rw [ht.total, ht.transferred]
    exact decide_eq_true h
  simp only [Transfer.onData, hlast, if_true]
  exact ⟨ht.transferId, rfl, congrArg (· + data.length) ht.transferred, ht.total⟩

theorem onData_more (ht : p.On t .receiving n (some p.size)) {data : List UInt8} (h : n + data.length < p.size) :
    p.On (t.onData data).transfer .receiving (n + data.length) (some p.size) := by
  have hlast : t.total.any (fun total => decide (total ≤ t.transferred + data.length)) = false := by
    rw [ht.total, ht.transferred]
    exact decide_eq_false (Nat.not_le.mpr h)
  simp only [Transfer.onData, hlast]
  exact ⟨ht.transferId, ht.phase, congrArg (· + data.length) ht.transferred, ht.total⟩

/-- 計画どおりの次のフレームを処理する。 -/
theorem Stage.onFrame (hp : p.Conforms codec) {f : String × String} {left : List (String × String)}
    (h : p.Stage (f :: left) t es) :
    p.After left es (t.onFrame codec f.1 f.2).transfer (t.onFrame codec f.1 f.2).effects
      (t.onFrame codec f.1 f.2).terminal := by
  cases h with
  | waitCfg hleft ht hes =>
      obtain ⟨rfl, rfl⟩ := List.cons.inj hleft
      rw [onFrame_download ht.phase (by simp)]
      exact .waitNum rfl ⟨ht.transferId, rfl, ht.transferred, ht.total⟩ (hes.append seen_nil)
  | waitNum hleft ht hes =>
      obtain ⟨rfl, rfl⟩ := List.cons.inj hleft
      have hnum : (Transfer.parseU64? "1").getD 1 = 1 := by decide
      rw [onFrame_download ht.phase (by simp)]
      have hes' := hes.append (seen_send (p := p) (frameInt "SUCC" ((Transfer.parseU64? "1").getD 1)))
      rw [hnum] at hes'
      exact .waitName rfl ⟨ht.transferId, rfl, ht.transferred, ht.total⟩ hes'
  | waitName hleft ht hes =>
      obtain ⟨rfl, rfl⟩ := List.cons.inj hleft
      rw [onFrame_download ht.phase (by simp)]
      exact .waitSize rfl ⟨ht.transferId, rfl, ht.transferred, ht.total⟩ (hes.append (seen_send _))
  | waitSize hleft ht hes =>
      obtain ⟨rfl, rfl⟩ := List.cons.inj hleft
      have hbound : p.size < 2 ^ 64 := lt_of_le_of_lt hp.sizeBound (by decide)
      have hparse : (Transfer.parseU64? (toString p.size)).getD 0 = p.size := by rw [parseU64?_toString hbound]; rfl
      have hline (payload : String) :
          t.onDownloadLine codec .waitSize "SIZE" payload = t.onSize ((Transfer.parseU64? payload).getD 0) := by
        simp [Transfer.onDownloadLine]
      rw [onFrame_download ht.phase (by simp), hline, hparse, Transfer.onSize, if_neg (Nat.not_lt.mpr hp.sizeBound)]
      refine .receiving [] p.data rfl rfl ?_ ⟨ht.transferId, rfl, ht.transferred, rfl⟩ (hes.append ⟨rfl, rfl, ?_⟩)
      · exact (Nat.eq_zero_or_pos p.size)
      · simp [Transfer.stay, Transfer.progress]
  | receiving done rest hleft hdata hshort ht hes =>
      have htotal := hp.length_data
      rw [hdata, length_append] at htotal
      cases rest with
      | nil =>
          obtain ⟨rfl, rfl⟩ := List.cons.inj hleft
          rw [onFrame_download ht.phase (by simp)]
          have hsize : p.size = 0 := hshort.resolve_right (by simp [length] at htotal ⊢; omega)
          exact .stuck rfl hsize (by simpa [Transfer.onDownloadLine, Transfer.stay] using hes.unfinished)
      | cons d rest =>
          obtain ⟨rfl, rfl⟩ := List.cons.inj hleft
          rw [length_cons] at htotal
          have hdecode := hp.decodes d (by rw [hdata]; simp)
          have hline : t.onDownloadLine codec .receiving "DATA" d.1 = t.onData d.2 := by
            simp [Transfer.onDownloadLine, hdecode]
          have hsize : 0 < p.size := by
            refine Nat.pos_of_ne_zero fun hzero => ?_
            have := hp.noData hzero
            rw [hdata] at this
            simp at this
          have hdone : length (done ++ [d]) = length done + d.2.length := by rw [length_append, length_cons]; rfl
          rw [onFrame_download ht.phase (by simp), hline]
          have hseen := hes.append (onData_seen ht d.2)
          have hacks : p.opening ++ acks done ++ [frameInt "SUCC" d.2.length] = p.opening ++ acks (done ++ [d]) := by
            simp [acks]
          by_cases hlast : p.size ≤ length done + d.2.length
          · have heq : length done + d.2.length = p.size := by omega
            have ht' := onData_last ht hlast
            rw [heq] at ht'
            rw [decide_eq_true hlast, hacks] at hseen
            exact .waitMd5 done d [] rest rfl hdata (hshort.resolve_left hsize.ne') (hdone.trans heq) ht' hseen
          · have ht' := onData_more ht (Nat.not_le.mp hlast)
            rw [decide_eq_false hlast, hacks, ← List.map_singleton (f := fun d : String × List UInt8 => (d.2, false)),
              ← List.map_append] at hseen
            refine .receiving (done ++ [d]) rest rfl (by rw [hdata, List.append_cons]) (.inr ?_) ?_ hseen
            · rw [hdone]
              exact Nat.not_le.mp hlast
            · rw [hdone]
              exact ht'
  | waitMd5 done d ignored rest hleft hdata hshort hall ht hes =>
      cases rest with
      | nil =>
          obtain ⟨rfl, rfl⟩ := List.cons.inj hleft
          rw [onFrame_download ht.phase (by simp)]
          refine ⟨rfl, rfl, done, d, ignored, by rw [hdata, List.append_nil], hshort, hall, ?_, ?_, ?_⟩
          · rw [downloadChunks_append, hes.chunks]
            exact List.append_nil _
          · rw [stdinFrames_append, hes.frames]
            rfl
          · simp [Transfer.onDownloadLine, ht.transferId]
      | cons e rest =>
          obtain ⟨rfl, rfl⟩ := List.cons.inj hleft
          have hline : t.onDownloadLine codec .waitMd5 "DATA" e.1 = t.stay [] := by simp [Transfer.onDownloadLine]
          rw [onFrame_download ht.phase (by simp), hline]
          refine .waitMd5 done d (ignored ++ [e]) rest rfl ?_ hshort hall ⟨ht.transferId, ht.phase, ht.transferred, ht.total⟩ ?_
          · rw [hdata, List.append_assoc]
            rfl
          · simpa [Transfer.stay] using hes.append seen_nil
  | stuck hleft => cases hleft

theorem Stage.with_protoBuf {left : List (String × String)} (h : p.Stage left t es) (rest : List UInt8) :
    p.Stage left { t with protoBuf := rest } es := by
  cases h with
  | waitCfg hleft ht hes => exact .waitCfg hleft ⟨ht.transferId, ht.phase, ht.transferred, ht.total⟩ hes
  | waitNum hleft ht hes => exact .waitNum hleft ⟨ht.transferId, ht.phase, ht.transferred, ht.total⟩ hes
  | waitName hleft ht hes => exact .waitName hleft ⟨ht.transferId, ht.phase, ht.transferred, ht.total⟩ hes
  | waitSize hleft ht hes => exact .waitSize hleft ⟨ht.transferId, ht.phase, ht.transferred, ht.total⟩ hes
  | receiving done rest hleft hdata hshort ht hes =>
      exact .receiving done rest hleft hdata hshort ⟨ht.transferId, ht.phase, ht.transferred, ht.total⟩ hes
  | waitMd5 done d ignored rest hleft hdata hshort hall ht hes =>
      exact .waitMd5 done d ignored rest hleft hdata hshort hall ⟨ht.transferId, ht.phase, ht.transferred, ht.total⟩ hes
  | stuck hleft hsize hes => exact .stuck hleft hsize hes

theorem After.prepend {left : List (String × String)} {effects effects' : List TrzszEffect} {terminal : Option Bool}
    (h : p.After left (es ++ effects) t effects' terminal) : p.After left es t (effects ++ effects') terminal := by
  cases terminal with
  | none => simpa [After] using h
  | some ok =>
      obtain ⟨hok, hleft, done, d, ignored, hdata, hshort, hall, hchunks, hframes, hfinished⟩ := h
      rw [List.append_assoc] at hchunks hframes
      exact ⟨hok, hleft, done, d, ignored, hdata, hshort, hall, hchunks, hframes, List.mem_append_right _ hfinished⟩

/-- 空のファイルでなければ、MD5 を処理した転送は終わっている。 -/
theorem Stage.nil (h : p.Stage [] t es) : p.size = 0 ∧ .onFinished p.transferId true none ∉ es := by
  cases h with
  | waitCfg hleft => exact absurd hleft (by simp [frames])
  | waitNum hleft => exact absurd hleft (by simp [frames])
  | waitName hleft => exact absurd hleft (by simp [frames])
  | waitSize hleft => exact absurd hleft (by simp [frames])
  | receiving _ _ hleft => exact absurd hleft (by simp [fromData])
  | waitMd5 _ _ _ _ hleft => exact absurd hleft (by simp [fromData])
  | stuck _ hsize hes => exact ⟨hsize, hes⟩

/-- 計画どおりの行の列を処理する。 -/
theorem Stage.loop (hp : p.Conforms codec) {lines : List (List UInt8)} {fs left : List (String × String)}
    (hlines : List.Forall₂ IsFrame lines fs) (h : p.Stage (fs ++ left) t es) (rest : List UInt8) :
    p.After left es (t.loop codec rest lines).transfer (t.loop codec rest lines).effects
        (t.loop codec rest lines).terminal ∧
      ((t.loop codec rest lines).terminal = none → (t.loop codec rest lines).transfer.protoBuf = rest) := by
  induction hlines generalizing t es with
  | nil =>
      have hstage := h.with_protoBuf rest
      rw [← List.append_nil es] at hstage
      exact ⟨hstage, fun _ => rfl⟩
  | @cons line f lines fs hline _ ih =>
      have hafter := h.onFrame hp
      cases hok : (t.onFrame codec f.1 f.2).terminal with
      | some ok =>
          rw [hok] at hafter
          obtain ⟨htrue, hnil, hended⟩ := hafter
          simp only [Transfer.loop, hline.parse, hok]
          exact ⟨⟨htrue, (List.append_eq_nil_iff.mp hnil).2, hended⟩, fun hnone => absurd hnone (Option.some_ne_none _)⟩
      | none =>
          rw [hok] at hafter
          obtain ⟨hrest, hbuf⟩ := ih hafter
          simp only [Transfer.loop, hline.parse, hok]
          exact ⟨hrest.prepend, hbuf⟩

end DownloadPlan

/-! ## 行への分割 -/

theorem splitLines_of_fst_nil {bs : List UInt8} (h : (splitLines bs).1 = []) : (splitLines bs).2 = bs := by
  induction bs with
  | nil => rfl
  | cons b bs ih =>
      by_cases hb : b = newline
      · rw [hb, splitLines_newline] at h
        cases h
      · cases hlines : (splitLines bs).1 with
        | nil => simp only [splitLines, if_neg hb, hlines, ih hlines]
        | cons line lines =>
            simp only [splitLines, if_neg hb, hlines] at h
            cases h

theorem splitLines_line {line : List UInt8} (h : newline ∉ line) (bs : List UInt8) :
    splitLines (line ++ newline :: bs) = (line :: (splitLines bs).1, (splitLines bs).2) := by
  induction line with
  | nil => exact splitLines_newline bs
  | cons b line ih =>
      simp only [List.mem_cons, not_or] at h
      rw [List.cons_append, splitLines, if_neg (Ne.symm h.1), ih h.2]

theorem splitLines_flatMap {lines : List (List UInt8)} (h : ∀ line ∈ lines, newline ∉ line) :
    splitLines (lines.flatMap (· ++ [newline])) = (lines, []) := by
  induction lines with
  | nil => rfl
  | cons line lines ih =>
      rw [List.flatMap_cons, List.append_assoc, List.singleton_append, splitLines_line (h line List.mem_cons_self),
        ih fun line hline => h line (List.mem_cons_of_mem _ hline)]

/-! ## 実行 -/

namespace TrzszTransferFsm

open DownloadPlan

variable {codec : Codec} {p : DownloadPlan} {s : TrzszTransferFsm} {es : List TrzszEffect}

/-- 全ての行を処理した後の作用の列。 -/
def Finale (p : DownloadPlan) (es last : List TrzszEffect) : Prop :=
  p.Ended es last ∨ p.size = 0 ∧ .onFinished p.transferId true none ∉ es

/-- 処理していない行の列が `lines` である、途中のダウンロード。 -/
structure Fetching (p : DownloadPlan) (lines : List (List UInt8)) (buf : List UInt8) (es : List TrzszEffect)
    (s : TrzszTransferFsm) : Prop where
  exists_stage : ∃ t left, s.state = .transferring t ∧ t.protoBuf = buf ∧ p.Stage left t es ∧
    List.Forall₂ IsFrame lines left

theorem actions_onTransferringBytes {t : Transfer} (hstate : s.state = .transferring t) (bytes : List UInt8) :
    (s.onTransferringBytes codec bytes).2.actions = (t.receive codec bytes).effects := by
  cases hok : (t.receive codec bytes).terminal with
  | none =>
      rw [onTransferringBytes_continued hstate hok]
      cases (t.receive codec bytes).activity <;> rfl
  | some ok =>
      rw [onTransferringBytes_ended hstate hok]
      rfl

theorem onTransferringBytes_stage (hp : p.Conforms codec) {t : Transfer} (hstate : s.state = .transferring t)
    {bytes : List UInt8} {lines : List (List UInt8)} {left : List (String × String)} (hstage : p.Stage left t es)
    (hframes : List.Forall₂ IsFrame ((splitLines (t.protoBuf ++ bytes)).1 ++ lines) left) :
    (lines ≠ [] → Fetching p lines (splitLines (t.protoBuf ++ bytes)).2 (es ++ (s.onTransferringBytes codec bytes).2.actions)
      (s.onTransferringBytes codec bytes).1) ∧
    (lines = [] → Finale p (es ++ (s.onTransferringBytes codec bytes).2.actions)
      (s.onTransferringBytes codec bytes).2.actions) := by
  have hfs := (List.forall₂_take_append _ _ _ hframes.flip).flip
  have hleft := (List.forall₂_drop_append _ _ _ hframes.flip).flip
  rw [← List.take_append_drop (splitLines (t.protoBuf ++ bytes)).1.length left] at hstage
  obtain ⟨hafter, hbuf⟩ := hstage.loop hp hfs (splitLines (t.protoBuf ++ bytes)).2
  rw [← Transfer.receive] at hafter hbuf
  rw [actions_onTransferringBytes hstate]
  cases hok : (t.receive codec bytes).terminal with
  | some ok =>
      rw [hok] at hafter
      obtain ⟨_, hnil, hended⟩ := hafter
      rw [hnil] at hleft
      exact ⟨fun hlines => absurd (List.forall₂_nil_right_iff.mp hleft) hlines, fun _ => .inl hended⟩
  | none =>
      rw [hok] at hafter
      refine ⟨fun _ => ?_, fun hlines => ?_⟩
      · rw [onTransferringBytes_continued hstate hok]
        exact ⟨_, _, rfl, hbuf hok, hafter, hleft⟩
      · rw [hlines, List.forall₂_nil_left_iff] at hleft
        rw [hleft] at hafter
        exact .inr (Stage.nil hafter)

/-- 残りの列が空でなければ、残りの行も空でない。 -/
theorem lines_split {bytes y : List UInt8} {lines : List (List UInt8)} (h : splitLines (bytes ++ y) = (lines, [])) :
    lines = (splitLines bytes).1 ++ (splitLines ((splitLines bytes).2 ++ y)).1 ∧
      splitLines ((splitLines bytes).2 ++ y) = ((splitLines ((splitLines bytes).2 ++ y)).1, []) ∧
      (y ≠ [] → (splitLines ((splitLines bytes).2 ++ y)).1 ≠ []) := by
  rw [splitLines_append] at h
  obtain ⟨hlines, hrest⟩ := Prod.mk.inj h
  refine ⟨hlines.symm, Prod.ext rfl hrest, fun hy hnil => ?_⟩
  rw [splitLines_of_fst_nil hnil] at hrest
  exact hy (List.append_eq_nil_iff.mp hrest).2

theorem fetching_receive (hp : p.Conforms codec) {t : Transfer} (hstate : s.state = .transferring t) {bytes y : List UInt8}
    {lines : List (List UInt8)} {left : List (String × String)} (hstage : p.Stage left t es)
    (hsplit : splitLines (t.protoBuf ++ bytes ++ y) = (lines, [])) (hframes : List.Forall₂ IsFrame lines left) :
    (y ≠ [] → ∃ lines' buf, splitLines (buf ++ y) = (lines', []) ∧
      Fetching p lines' buf (es ++ (s.onTransferringBytes codec bytes).2.actions) (s.onTransferringBytes codec bytes).1) ∧
    (y = [] → Finale p (es ++ (s.onTransferringBytes codec bytes).2.actions)
      (s.onTransferringBytes codec bytes).2.actions) := by
  obtain ⟨hlines, hsplit', hne⟩ := lines_split hsplit
  rw [hlines] at hframes
  obtain ⟨hmore, hlast⟩ := onTransferringBytes_stage hp hstate hstage hframes
  refine ⟨fun hy => ⟨_, _, hsplit', hmore (hne hy)⟩, fun hy => hlast ?_⟩
  rw [hy, List.append_nil] at hsplit
  have hall : (splitLines (t.protoBuf ++ bytes)).1 = lines := by rw [hsplit]
  rw [hall] at hlines
  exact List.append_right_eq_self.mp hlines.symm

/-- サーバーの出力を 1 つ受け取る。 -/
theorem fetching_step (hp : p.Conforms codec) {lines : List (List UInt8)} {buf c y : List UInt8}
    (h : Fetching p lines buf es s) (hsplit : splitLines (buf ++ (c ++ y)) = (lines, [])) :
    (y ≠ [] → ∃ lines' buf', splitLines (buf' ++ y) = (lines', []) ∧
      Fetching p lines' buf' (es ++ (s.apply codec (.event (.stdoutBytes c))).2) (s.apply codec (.event (.stdoutBytes c))).1) ∧
    (y = [] → Finale p (es ++ (s.apply codec (.event (.stdoutBytes c))).2)
      (s.apply codec (.event (.stdoutBytes c))).2) := by
  obtain ⟨t, left, hstate, hbuf, hstage, hframes⟩ := h.exists_stage
  have hreact : s.onEvent codec (.stdoutBytes c) = s.onTransferringBytes codec c := by
    simp only [onEvent, onStdoutBytes, hstate]
  rw [← hbuf, ← List.append_assoc] at hsplit
  rw [apply_event, hreact]
  exact fetching_receive hp hstate hstage hsplit hframes

theorem fetching_run (hp : p.Conforms codec) {chunks : List (List UInt8)} {lines : List (List UInt8)} {buf y : List UInt8}
    (h : Fetching p lines buf es s) (hsplit : splitLines (buf ++ (chunks.flatten ++ y)) = (lines, [])) (hy : y ≠ []) :
    ∃ lines' buf', splitLines (buf' ++ y) = (lines', []) ∧
      Fetching p lines' buf' (es ++ s.outputs codec (chunks.map fun c => .event (.stdoutBytes c)))
        (s.run codec (chunks.map fun c => .event (.stdoutBytes c))) := by
  induction chunks generalizing lines buf es s with
  | nil =>
      rw [List.map_nil, outputs, Reducer.outputs_nil, List.append_nil]
      exact ⟨lines, buf, hsplit, h⟩
  | cons c chunks ih =>
      have hne : chunks.flatten ++ y ≠ [] := fun hnil => hy (List.append_eq_nil_iff.mp hnil).2
      rw [List.flatten_cons, List.append_assoc] at hsplit
      obtain ⟨lines', buf', hsplit', h'⟩ := (fetching_step hp h hsplit).1 hne
      rw [List.map_cons, outputs, Reducer.outputs_cons, ← List.append_assoc]
      exact ih h' hsplit'

/-- 受け入れの前に届いた列は、溜めておく。 -/
theorem run_waiting (codec : Codec) {tid : String} {mode : TrzszMode} {buf : List UInt8} (h : s.state = .waitingKotlin tid mode buf)
    (chunks : List (List UInt8)) :
    (s.run codec (chunks.map fun c => .event (.stdoutBytes c))).state = .waitingKotlin tid mode (buf ++ chunks.flatten) ∧
      s.outputs codec (chunks.map fun c => .event (.stdoutBytes c)) = [] := by
  induction chunks generalizing s buf with
  | nil => simp [outputs, run, h]
  | cons c chunks ih =>
      have hreact : s.onEvent codec (.stdoutBytes c) = ({ s with state := .waitingKotlin tid mode (buf ++ c) }, .consume) := by
        simp only [onEvent, onStdoutBytes, h]
      have hnext : (s.apply codec (.event (.stdoutBytes c))).1.state = .waitingKotlin tid mode (buf ++ c) := by
        rw [apply_event, hreact]
      have hrest := ih hnext
      rw [List.map_cons, run, Reducer.run_cons, outputs, Reducer.outputs_cons, List.flatten_cons, ← List.append_assoc]
      refine ⟨hrest.1, List.append_eq_nil_iff.mpr ⟨?_, hrest.2⟩⟩
      rw [apply_event, hreact]
      rfl

/-- 受け入れは、溜めておいた列を処理する。 -/
theorem fetching_accept (hp : p.Conforms codec) {buf y : List UInt8} {lines : List (List UInt8)}
    (hstate : s.state = .waitingKotlin p.transferId .download buf) (hsplit : splitLines (buf ++ y) = (lines, []))
    (hframes : List.Forall₂ IsFrame lines p.frames) :
    (y ≠ [] → ∃ lines' buf', splitLines (buf' ++ y) = (lines', []) ∧
      Fetching p lines' buf' (s.apply codec (.event p.accept)).2 (s.apply codec (.event p.accept)).1) ∧
    (y = [] → Finale p (s.apply codec (.event p.accept)).2 (s.apply codec (.event p.accept)).2) := by
  have hreact : s.onEvent codec p.accept = s.startTransfer codec p.transferId buf none (.download .waitCfg) := by
    simp only [onEvent, DownloadPlan.accept, hstate, if_true]
  have hstart : p.Stage p.frames ⟨p.transferId, buf, 0, none, .download .waitCfg⟩ [] :=
    .waitCfg rfl ⟨rfl, rfl, rfl, rfl⟩ seen_nil
  rw [← List.append_nil buf] at hsplit
  rw [apply_event, hreact]
  exact @fetching_receive codec p { s with state := .transferring _ } [] hp _ rfl [] y lines p.frames hstart hsplit hframes

theorem outputs_concat (is : List TrzszInput) (i : TrzszInput) :
    s.outputs codec (is ++ [i]) = s.outputs codec is ++ ((s.run codec is).apply codec i).2 :=
  Reducer.outputs_concat _ _ _

theorem newline_notMem {lines : List (List UInt8)} {fs : List (String × String)} (h : List.Forall₂ IsFrame lines fs) :
    ∀ line ∈ lines, newline ∉ line := by
  induction h with
  | nil => exact List.forall_mem_nil _
  | cons hline _ ih => exact List.forall_mem_cons.mpr ⟨hline.newline, ih⟩

theorem map_event (chunks : List (List UInt8)) :
    ((chunks.map TrzszEvent.stdoutBytes).map .event : List TrzszInput) = chunks.map fun c => .event (.stdoutBytes c) :=
  List.map_map

/-- 計画の全体が届いた実行の最後は、全ての行を処理した後である。 -/
theorem finale_of_delivers (hp : p.Conforms codec) (hstate : s.state = .waitingKotlin p.transferId .download [])
    {events : List TrzszEvent} {e : TrzszEvent} (h : p.Delivers (events ++ [e])) (hne : ¬ p.Delivers events) :
    Finale p (s.outputs codec ((events ++ [e]).map .event))
      ((s.run codec (events.map .event)).apply codec (.event e)).2 := by
  obtain ⟨before, after, hevents, lines, hstream, hframes⟩ := h
  have hsplit : splitLines (before ++ after).flatten = (lines, []) := by
    rw [hstream, splitLines_flatMap (newline_notMem hframes)]
  obtain ⟨hwaiting, hsilent⟩ := run_waiting codec hstate before
  rw [List.flatten_append] at hsplit
  rw [List.nil_append] at hwaiting
  rcases List.eq_nil_or_concat' after with rfl | ⟨after, c, rfl⟩
  · obtain ⟨rfl, he⟩ := List.append_inj' hevents rfl
    obtain rfl := List.singleton_inj.mp he
    have hlast := (fetching_accept hp hwaiting hsplit hframes).2 rfl
    rw [List.map_append, List.map_singleton, map_event, outputs_concat, hsilent, List.nil_append]
    exact hlast
  · have hconcat : events ++ [e] =
        (before.map TrzszEvent.stdoutBytes ++ p.accept :: after.map TrzszEvent.stdoutBytes) ++ [.stdoutBytes c] := by
      rw [hevents, List.map_append, List.append_assoc]
      rfl
    obtain ⟨rfl, he⟩ := List.append_inj' hconcat rfl
    obtain rfl := List.singleton_inj.mp he
    have hc : c ≠ [] := by
      rintro rfl
      exact hne ⟨before, after, rfl, lines, by rw [← hstream]; simp, hframes⟩
    have hflat : (after ++ [c]).flatten = after.flatten ++ c := by simp
    rw [hflat] at hsplit
    -- 受け入れまで、最後の 1 つの手前まで、最後の 1 つの順に進む
    obtain ⟨_, _, hsplit, hfetching⟩ :=
      (fetching_accept hp hwaiting hsplit hframes).1 fun hnil => hc (List.append_eq_nil_iff.mp hnil).2
    obtain ⟨_, _, hsplit, hfetching⟩ := fetching_run hp hfetching hsplit hc
    rw [← List.append_nil c] at hsplit
    have hlast := (fetching_step hp hfetching hsplit).2 rfl
    have hall : s.outputs codec ((before.map TrzszEvent.stdoutBytes ++ p.accept :: after.map TrzszEvent.stdoutBytes).map
        .event) = ((s.run codec (before.map fun c => .event (.stdoutBytes c))).apply codec (.event p.accept)).2 ++
          ((s.run codec (before.map fun c => .event (.stdoutBytes c))).apply codec (.event p.accept)).1.outputs codec
            (after.map fun c => .event (.stdoutBytes c)) := by
      rw [List.map_append, List.map_cons, map_event, map_event, outputs, Reducer.outputs_append]
      exact congrArg (· ++ _) hsilent
    have hrun : s.run codec ((before.map TrzszEvent.stdoutBytes ++ p.accept :: after.map TrzszEvent.stdoutBytes).map
        .event) = ((s.run codec (before.map fun c => .event (.stdoutBytes c))).apply codec (.event p.accept)).1.run codec
            (after.map fun c => .event (.stdoutBytes c)) := by
      rw [List.map_append, List.map_cons, map_event, map_event, run, Reducer.run_append]
      rfl
    rw [List.map_append, List.map_singleton, outputs_concat, hall, hrun]
    exact hlast

/-- 全ての行を処理した後に、ファイルの全体が渡って終わっているのは、最後の DATA が空でないときである。 -/
theorem completed_iff (hp : p.Conforms codec) {last : List TrzszEffect} (h : Finale p es last)
    (hlast : ∀ e ∈ last, e ∈ es) : p.Completed es last ↔ ∃ d, p.data.getLast? = some d ∧ d.2 ≠ [] := by
  rcases h with ⟨done, d, ignored, hdata, hshort, hall, hchunks, hframes, hfinished⟩ | ⟨hsize, hes⟩
  · have htotal := hp.length_data
    rw [length_append, length_cons] at hall
    have hd : d.2 ≠ [] := by
      intro hd
      simp [hd, length] at hall hshort
      omega
    have hignored : ∀ e ∈ ignored, e.2 = [] := by
      rw [hdata, length_append, length_cons] at htotal
      have hzero : length ignored = 0 := by
        simp only [length, List.flatMap_nil, List.length_nil] at hall htotal ⊢
        omega
      exact List.flatMap_eq_nil_iff.mp (List.eq_nil_of_length_eq_zero hzero)
    have hcontents : ignored = [] → p.data = done ++ [d] := fun hnil => by rw [hdata, hnil]
    constructor
    · intro hcompleted
      have hacks : p.opening ++ acks (done ++ [d]) ++ [frame "SUCC" p.md5] = p.opening ++ acks p.data ++ [frame "SUCC" p.md5] :=
        hframes.symm.trans hcompleted.acknowledged
      have hlength := congrArg List.length hacks
      simp only [acks, List.length_append, List.length_map, hdata, List.length_cons, List.length_nil] at hlength
      have hnil : ignored = [] := List.eq_nil_of_length_eq_zero (by omega)
      exact ⟨d, by rw [hcontents hnil, List.getLast?_concat], hd⟩
    · rintro ⟨e, he, hne⟩
      have hnil : ignored = [] := by
        by_contra hignored'
        rw [hdata, List.getLast?_append_of_ne_nil _ (List.cons_ne_nil _ _), List.getLast?_cons_of_ne_nil hignored'] at he
        exact hne (hignored e (List.mem_of_getLast? he))
      refine ⟨?_, ⟨done.map fun d => (d.2, false), d.2, hchunks, ?_⟩, ?_, hfinished⟩
      · rw [hchunks, contents, hcontents hnil]
        simp [List.flatMap_map]
      · simp
      · rw [hframes, replies, hcontents hnil]
        rfl
  · refine ⟨fun hcompleted => absurd (hlast _ hcompleted.finished) hes, ?_⟩
    rintro ⟨d, hd, _⟩
    rw [hp.noData hsize] at hd
    cases hd

end TrzszTransferFsm

end IsekaiTerminal.Trzsz
