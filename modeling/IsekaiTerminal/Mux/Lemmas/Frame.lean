import IsekaiTerminal.Mux.Frame
import IsekaiTerminal.Trzsz.Codec

/-!
# mux のフレームの往復

符号化した欄の位置から先に欄が並んでいることを `drop` で述べ、復号がその欄を読むことを欄ごとに示す。
-/

namespace IsekaiTerminal.Mux

open Lib
open Trzsz (utf8 fromUtf8? fromUtf8Lossy fromUtf8?_utf8 utf8_of_fromUtf8? fromUtf8Lossy_utf8)

/-! ## 欄の復号 -/

theorem slice_of_drop {payload field rest : List UInt8} {offset : Nat} (h : payload.drop offset = field ++ rest) :
    slice payload offset field.length = field := by
  rw [slice, h, List.take_left]

theorem drop_of_drop {payload field rest : List UInt8} {offset : Nat} (h : payload.drop offset = field ++ rest) :
    payload.drop (offset + field.length) = rest := by
  rw [← List.drop_drop, h, List.drop_left]

theorem le_length_of_drop {payload field rest : List UInt8} {offset : Nat} (hne : field ≠ [])
    (h : payload.drop offset = field ++ rest) : offset + field.length ≤ payload.length := by
  have hlen := congrArg List.length h
  have hpos := List.length_pos_of_ne_nil hne
  rw [List.length_drop, List.length_append] at hlen
  omega

theorem readU16_of_drop {payload rest : List UInt8} {offset x : Nat} (hx : x < 2 ^ 16)
    (h : payload.drop offset = beEncode 2 x ++ rest) : readU16 payload offset = .ok (UInt16.ofNat x) := by
  have hne : beEncode 2 x ≠ [] := by
    rw [Ne, ← List.length_eq_zero_iff, length_beEncode]
    exact Nat.succ_ne_zero 1
  have hle := le_length_of_drop hne h
  have hslice := slice_of_drop h
  rw [length_beEncode] at hle hslice
  rw [readU16, if_pos hle, hslice, beDecode_beEncode (by simpa using hx)]

theorem readU16_beBytes {payload rest : List UInt8} {offset : Nat} {x : UInt16}
    (h : payload.drop offset = beBytes x ++ rest) :
    readU16 payload offset = .ok x ∧ payload.drop (offset + 2) = rest := by
  have hdrop := drop_of_drop h
  rw [beBytes, length_beEncode] at hdrop
  refine ⟨?_, hdrop⟩
  rw [readU16_of_drop x.toNat_lt h, UInt16.ofNat_toNat]

theorem toNat_ofNat_length {n : Nat} (h : n < 2 ^ 16) : (UInt16.ofNat n).toNat = n := by
  rw [UInt16.toNat_ofNat']
  exact Nat.mod_eq_of_lt h

theorem getElem?_of_drop {payload rest : List UInt8} {offset : Nat} {b : UInt8} (h : payload.drop offset = b :: rest) :
    payload[offset]? = some b ∧ payload.drop (offset + 1) = rest := by
  have hrest : payload.drop (offset + [b].length) = rest := drop_of_drop h
  refine ⟨?_, hrest⟩
  have hget : (payload.drop offset)[0]? = some b := by rw [h]; rfl
  rwa [List.getElem?_drop, Nat.add_zero] at hget

/-- 長さの前置きと文字列の位置。 -/
theorem encodeString_of_drop {payload rest : List UInt8} {offset : Nat} {s : String} (hs : (utf8 s).length < 2 ^ 16)
    (h : payload.drop offset = encodeString s ++ rest) :
    readU16 payload offset = .ok (UInt16.ofNat (utf8 s).length) ∧ offset + 2 + (utf8 s).length ≤ payload.length ∧
      slice payload (offset + 2) (utf8 s).length = utf8 s ∧ payload.drop (offset + 2 + (utf8 s).length) = rest := by
  rw [encodeString, Nat.mod_eq_of_lt hs, List.append_assoc] at h
  have hnext := drop_of_drop h
  rw [length_beEncode] at hnext
  have hlen := congrArg List.length h
  simp only [List.length_drop, List.length_append, length_beEncode] at hlen
  exact ⟨readU16_of_drop hs h, by omega, slice_of_drop hnext, drop_of_drop hnext⟩

theorem decodeOptionalString_of_drop {payload rest : List UInt8} {offset cap : Nat} {value : Option String}
    (hcap : cap < 2 ^ 16) (hvalue : exceeds cap value = false) (name : String)
    (h : payload.drop offset = encodeOptionalString value ++ rest) :
    ∃ next, decodeOptionalString payload offset cap name = .ok (value, next) ∧ payload.drop next = rest := by
  cases value with
  | none =>
      obtain ⟨htag, hrest⟩ := getElem?_of_drop h
      exact ⟨offset + 1, by rw [decodeOptionalString, htag]; rfl, hrest⟩
  | some s =>
      obtain ⟨htag, hnext⟩ := getElem?_of_drop h
      have hle : (utf8 s).length ≤ cap := by simpa [exceeds] using hvalue
      have hlt : (utf8 s).length < 2 ^ 16 := Nat.lt_of_le_of_lt hle hcap
      obtain ⟨hread, hlen, hslice, hrest⟩ := encodeString_of_drop hlt hnext
      refine ⟨offset + 1 + 2 + (utf8 s).length, ?_, hrest⟩
      simp only [decodeOptionalString, htag, hread]
      rw [if_neg (by decide)]
      simp only [bind, Except.bind, toNat_ofNat_length hlt, hslice, fromUtf8?_utf8]
      rw [if_neg (Nat.not_lt.mpr hle), if_neg (Nat.not_lt.mpr hlen)]

theorem decodeTerm_of_drop {payload rest : List UInt8} {term : String} (hterm : (utf8 term).length ≤ maxTermLen)
    (h : payload.drop 6 = encodeString term ++ rest) :
    decodeTerm payload = .ok (term, 8 + (utf8 term).length) ∧ payload.drop (8 + (utf8 term).length) = rest := by
  have hlt : (utf8 term).length < 2 ^ 16 := Nat.lt_of_le_of_lt hterm (by decide)
  obtain ⟨hread, hlen, hslice, hrest⟩ := encodeString_of_drop hlt h
  refine ⟨?_, hrest⟩
  simp only [decodeTerm, hread, bind, Except.bind, toNat_ofNat_length hlt, hslice, fromUtf8?_utf8]
  rw [if_neg (Nat.not_lt.mpr hterm), if_neg (Nat.not_lt.mpr hlen)]

/-! ## フレームの復号 -/

theorem decodeHello_encodeHello {h : Hello} (hterm : (utf8 h.term).length ≤ maxTermLen)
    (hcommand : exceeds maxRemoteCommandLen h.remoteCommand = false)
    (hexec : exceeds maxTtyExecLen h.ttyExec = false) : decodeHello (encodeHello h) = .ok h := by
  have hstart : (encodeHello h).drop 0 = encodeHello h := rfl
  obtain ⟨hversion, hstart⟩ := readU16_beBytes hstart
  obtain ⟨hcols, hstart⟩ := readU16_beBytes hstart
  obtain ⟨hrows, hstart⟩ := readU16_beBytes hstart
  obtain ⟨htermRead, hstart⟩ := decodeTerm_of_drop hterm hstart
  obtain ⟨hpty, hstart⟩ := getElem?_of_drop hstart
  obtain ⟨offset, hcommandRead, hstart⟩ := decodeOptionalString_of_drop (by decide) hcommand "remote_command" hstart
  obtain ⟨stop, hexecRead, hstart⟩ := decodeOptionalString_of_drop (by decide) hexec "tty_exec" hstart
  simp only [decodeHello, hversion, hcols, hrows, htermRead, hpty, hcommandRead, hexecRead, hstart, bind, Except.bind]
  obtain ⟨version, token, term, cols, rows, wantPty, remoteCommand, ttyExec⟩ := h
  cases wantPty <;> rfl

theorem checkOutgoing_hello {h : Hello} (hok : checkOutgoing (.hello h) = .ok ()) :
    exceeds maxRemoteCommandLen h.remoteCommand = false ∧ exceeds maxTtyExecLen h.ttyExec = false := by
  simp only [checkOutgoing] at hok
  split at hok
  · cases hok
  · next hcommand =>
      split at hok
      · cases hok
      · next hexec => exact ⟨Bool.eq_false_iff.mpr hcommand, Bool.eq_false_iff.mpr hexec⟩

theorem decode_encode {f : Frame} (hok : checkOutgoing f = .ok ()) (hfits : f.TermFits) :
    Frame.decode (f.encode.headD 0) f.encode.tail = .ok f := by
  cases f with
  | hello h =>
      obtain ⟨hcommand, hexec⟩ := checkOutgoing_hello hok
      show (decodeHello (encodeHello h)).map Frame.hello = _
      rw [decodeHello_encodeHello hfits hcommand hexec]
      rfl
  | helloAck version =>
      have hstart : (beBytes version).drop 0 = beBytes version ++ [] := (List.append_nil _).symm
      have hread := (readU16_beBytes hstart).1
      show (readU16 (beBytes version) 0).map Frame.helloAck = _
      rw [hread]
      rfl
  | rejected reason =>
      show Except.ok (Frame.rejected (fromUtf8Lossy (utf8 reason))) = _
      rw [fromUtf8Lossy_utf8]
  | resize cols rows =>
      have hstart : (beBytes cols ++ beBytes rows).drop 0 = beBytes cols ++ beBytes rows := rfl
      obtain ⟨hcols, hrest⟩ := readU16_beBytes hstart
      have hrows := (readU16_beBytes (hrest.trans (List.append_nil _).symm)).1
      show (do
        let cols' ← readU16 (beBytes cols ++ beBytes rows) 0
        let rows' ← readU16 (beBytes cols ++ beBytes rows) 2
        Except.ok (Frame.resize cols' rows')) = _
      rw [hcols, show readU16 (beBytes cols ++ beBytes rows) 2 = _ from hrows]
      rfl
  | _ => rfl

/-! ## 受け入れたフレーム -/

theorem length_of_decodeTerm {payload : List UInt8} {term : String} {stop : Nat}
    (h : decodeTerm payload = .ok (term, stop)) : (utf8 term).length ≤ maxTermLen := by
  obtain ⟨len, -, h⟩ := bind_eq_ok_iff.mp h
  simp only at h
  split at h
  · cases h
  · next hle =>
      split at h
      · cases h
      · split at h
        · cases h
        · next s hs =>
            cases h
            rw [utf8_of_fromUtf8? hs, slice]
            exact (List.length_take_le _ _).trans (Nat.not_lt.mp hle)

theorem termFits_of_decodeHello {payload : List UInt8} {h : Hello} (hok : decodeHello payload = .ok h) :
    (utf8 h.term).length ≤ maxTermLen := by
  obtain ⟨version, -, hok⟩ := bind_eq_ok_iff.mp hok
  obtain ⟨cols, -, hok⟩ := bind_eq_ok_iff.mp hok
  obtain ⟨rows, -, hok⟩ := bind_eq_ok_iff.mp hok
  obtain ⟨⟨term, termEnd⟩, hterm, hok⟩ := bind_eq_ok_iff.mp hok
  simp only at hok
  split at hok
  · cases hok
  · obtain ⟨⟨remoteCommand, offset⟩, -, hok⟩ := bind_eq_ok_iff.mp hok
    obtain ⟨⟨ttyExec, stop⟩, -, hok⟩ := bind_eq_ok_iff.mp hok
    cases hok
    exact length_of_decodeTerm hterm

theorem map_eq_ok {α β : Type} {x : Except IoError α} {g : α → β} {b : β} (h : x.map g = .ok b) :
    ∃ a, x = .ok a ∧ g a = b := by
  cases x with
  | error e => cases h
  | ok a => exact ⟨a, rfl, Except.ok.inj h⟩

/-- どの本体からも、長すぎる `term` のフレームは得られない。 -/
theorem termFits_of_decode {tag : UInt8} {payload : List UInt8} {f : Frame} (h : Frame.decode tag payload = .ok f) :
    f.TermFits := by
  cases f with
  | hello hello =>
      rw [Frame.decode] at h
      split at h
      · obtain ⟨decoded, hdecoded, heq⟩ := map_eq_ok h
        cases heq
        exact termFits_of_decodeHello hdecoded
      · -- 残りの種別は `Hello` を返さない
        split_ifs at h
        · obtain ⟨version, -, heq⟩ := map_eq_ok h
          cases heq
        · cases h
        · cases h
        · obtain ⟨cols, -, h⟩ := bind_eq_ok_iff.mp h
          obtain ⟨rows, -, h⟩ := bind_eq_ok_iff.mp h
          cases h
        · cases h
        · cases h
        · cases h
        · split at h
          · cases h
          · cases h
        · cases h
  | _ => trivial

/-! ## 書き込み -/

theorem writeFrame_eq_ok {f : Frame} {bytes : List UInt8} (h : writeFrame f = .ok bytes) :
    checkOutgoing f = .ok () ∧ f.encode.length ≤ maxFrameLen ∧ bytes = beEncode 4 f.encode.length ++ f.encode := by
  obtain ⟨u, hcheck, h⟩ := bind_eq_ok_iff.mp h
  simp only at h
  split at h
  · cases h
  · next hle =>
      have hlt : f.encode.length < 2 ^ 32 := Nat.lt_of_le_of_lt (Nat.not_lt.mp hle) (by decide)
      cases h
      exact ⟨hcheck, Nat.not_lt.mp hle, by rw [Nat.mod_eq_of_lt hlt]⟩

theorem encode_ne_nil (f : Frame) : f.encode ≠ [] := by
  cases f with
  | _ => exact List.cons_ne_nil _ _

/-! ## 読み取り -/

theorem yields_readBody {f : Frame} (hok : checkOutgoing f = .ok ()) (hlen : f.encode.length ≤ maxFrameLen)
    (hfits : f.TermFits) : ReadM.Yields (readBody f.encode.length) f.encode (some f) := by
  have hpos : 1 ≤ f.encode.length := List.length_pos_of_ne_nil (encode_ne_nil f)
  have hdecode : (Frame.decode (f.encode.headD 0) f.encode.tail).map some = .ok (some f) := by
    rw [decode_encode hok hfits]
    rfl
  have hread : ReadM.Yields (do
      let body ← readExact f.encode.length
      ReadM.lift ((Frame.decode (body.headD 0) body.tail).map some)) (f.encode ++ []) (some f) :=
    (ReadM.Yields.readExact earlyEof rfl).bind (.lift hdecode)
  rw [List.append_nil] at hread
  rw [readBody, if_pos ⟨hpos, hlen⟩]
  exact (ReadM.Yields.alloc _).bind_nil hread

/-- 先頭の 1 バイトとその後の 3 バイトに分けて読んでも、長さの前置きの全体を読む。 -/
theorem readFrame_of_header {s : Source UInt8 IoError} {header rest : List UInt8} (hlen : header.length = 4)
    (h : s.pending = header ++ rest) :
    ∃ mid, readFrame s = readBody (beDecode header) mid ∧ mid.pending = rest ∧ mid.ending = s.ending := by
  have hne : s.pending ≠ [] := by
    intro hnil
    rw [hnil] at h
    rw [(List.append_eq_nil_iff.mp h.symm).1] at hlen
    cases hlen
  obtain ⟨first, mid, hread, hfirst, hfirstLen, hsplit, hending, -⟩ := Source.read_of_pending Nat.zero_lt_one hne
  have hone : first.length = 1 := by
    have hpos := List.length_pos_of_ne_nil hfirst
    omega
  have hprefix : first ++ mid.pending = header ++ rest := hsplit.symm.trans h
  have hheader : header = first ++ header.drop 1 := by
    have htake := congrArg (List.take 1) hprefix
    rw [List.take_append_of_le_length (by omega), List.take_append_of_le_length (by omega),
      List.take_of_length_le (by omega)] at htake
    rw [htake, List.take_append_drop]
  have hmid : mid.pending = header.drop 1 ++ rest := by
    rw [hheader, List.append_assoc] at hprefix
    exact List.append_cancel_left hprefix
  have hdrop : (header.drop 1).length = 3 := by rw [List.length_drop, hlen]
  obtain ⟨last, hrun, hlast, hending'⟩ := ReadM.Yields.readExact earlyEof hdrop mid rest hmid
  refine ⟨last, ?_, hlast, hending'.trans hending⟩
  rw [readFrame, ReadM.bind_of_ok (m := ReadM.read 1) hread, if_neg (by omega),
    ReadM.bind_of_ok (m := readExact 3) hrun, ← hheader]

theorem yields_readFrame {f : Frame} {bytes : List UInt8} (hwrite : writeFrame f = .ok bytes) (hfits : f.TermFits) :
    ReadM.Yields readFrame bytes (some f) := by
  obtain ⟨hcheck, hlen, rfl⟩ := writeFrame_eq_ok hwrite
  intro s rest hpending
  rw [List.append_assoc] at hpending
  have hlt : f.encode.length < 256 ^ 4 := Nat.lt_of_le_of_lt hlen (by decide)
  obtain ⟨mid, hrun, hmid, hending⟩ := readFrame_of_header (length_beEncode 4 _) hpending
  rw [beDecode_beEncode hlt] at hrun
  obtain ⟨s', hbody, hrest, hending'⟩ := yields_readBody hcheck hlen hfits mid rest hmid
  exact ⟨s', hrun.trans hbody, hrest, hending'.trans hending⟩

theorem readFrame_of_end {s : Source UInt8 IoError} (hpending : s.pending = []) (hending : s.ending = none) :
    readFrame s = (.ok none, s) := by
  have hread := Source.read_of_nil hpending 1
  rw [hending] at hread
  rw [readFrame, ReadM.bind_of_ok (m := ReadM.read 1) hread, if_pos List.length_nil]
  rfl

/-- 返したフレームは、範囲の中の長さの本体の全体を読んだものである。 -/
theorem pending_of_readFrame {s s' : Source UInt8 IoError} {f : Option Frame} (h : readFrame s = (.ok f, s')) :
    (f = none ∧ s.pending = []) ∨
      ∃ header body frame, f = some frame ∧ header.length = 4 ∧ s.pending = header ++ (body ++ s'.pending) ∧
        beDecode header = body.length ∧ 1 ≤ body.length ∧ body.length ≤ maxFrameLen ∧
        Frame.decode (body.headD 0) body.tail = .ok frame := by
  by_cases hnil : s.pending = []
  · refine .inl ⟨?_, hnil⟩
    have hread := Source.read_of_nil hnil 1
    cases hending : s.ending with
    | none => exact (Except.ok.inj (congrArg Prod.fst ((readFrame_of_end hnil hending).symm.trans h))).symm
    | some e =>
        rw [hending] at hread
        rw [readFrame, ReadM.bind_of_error (m := ReadM.read 1) hread] at h
        cases h
  · obtain ⟨first, mid, hread, hfirst, hfirstLen, hsplit, -, -⟩ := Source.read_of_pending Nat.zero_lt_one hnil
    have hone : first.length = 1 := by
      have hpos := List.length_pos_of_ne_nil hfirst
      omega
    rw [readFrame, ReadM.bind_of_ok (m := ReadM.read 1) hread, if_neg (by omega)] at h
    obtain ⟨rest, last, hrest, h⟩ := ReadM.bind_eq_ok_iff.mp h
    obtain ⟨hrestLen, hlast, -⟩ := ReadM.pending_of_readExact hrest
    rw [readBody] at h
    split at h
    · next hrange =>
        obtain ⟨u, allocated, halloc, h⟩ := ReadM.bind_eq_ok_iff.mp h
        obtain ⟨body, done, hbody, h⟩ := ReadM.bind_eq_ok_iff.mp h
        obtain ⟨hdecode, rfl⟩ := ReadM.lift_eq_ok_iff.mp h
        obtain ⟨frame, hframe, rfl⟩ := map_eq_ok hdecode
        obtain ⟨hbodyLen, hdone, -⟩ := ReadM.pending_of_readExact hbody
        rw [ReadM.pending_of_alloc halloc] at hdone
        refine .inr ⟨first ++ rest, body, frame, rfl, ?_, ?_, hbodyLen.symm, ?_, ?_, hframe⟩
        · rw [List.length_append]
          omega
        · rw [hsplit, hlast, hdone, List.append_assoc]
        · rw [hbodyLen]
          exact hrange.1
        · rw [hbodyLen]
          exact hrange.2
    · have herr := (ReadM.lift_eq_ok_iff.mp h).1
      cases herr

end IsekaiTerminal.Mux
