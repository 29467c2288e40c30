import IsekaiTerminal.Emulator.Cell
import IsekaiTerminal.Lib.PrefixCode

/-!
# trzsz の回線の書式

`rust-core/src/trzsz.rs` の内部ヘルパーを定める。文字列は UTF-8 のバイト列として回線を通る。
base64、zlib、MD5 は外のクレートの計算であり、`Codec` に置く。
-/

namespace IsekaiTerminal.Trzsz

open Emulator (trim)

/-! ## 文字列とバイト列 -/

def newline : UInt8 := 0x0A
def carriageReturn : UInt8 := 0x0D
def hash : UInt8 := 0x23
def colon : UInt8 := 0x3A

/-- `as_bytes` と `into_bytes`。 -/
def utf8 (s : String) : List UInt8 := s.toByteArray.data.toList

/-- `std::str::from_utf8`。 -/
def fromUtf8? (bytes : List UInt8) : Option String := String.fromUTF8? ⟨bytes.toArray⟩

/-- 途中まで読んだ文字。値と、残りのバイト数と、次のバイトの範囲。 -/
structure CharPrefix where
  value : Nat
  remaining : Nat
  low : UInt8
  high : UInt8

/-- 文字の先頭のバイト。そこで終わる文字の列と、続きを待つ文字を返す。 -/
def CharPrefix.start (b : UInt8) : List Char × Option CharPrefix :=
  if b < 0x80 then ([Char.ofNat b.toNat], none)
  else if 0xC2 ≤ b ∧ b ≤ 0xDF then ([], some ⟨b.toNat - 0xC0, 1, 0x80, 0xBF⟩)
  else if b = 0xE0 then ([], some ⟨0, 2, 0xA0, 0xBF⟩)
  else if b = 0xED then ([], some ⟨0xD, 2, 0x80, 0x9F⟩)
  else if 0xE1 ≤ b ∧ b ≤ 0xEF then ([], some ⟨b.toNat - 0xE0, 2, 0x80, 0xBF⟩)
  else if b = 0xF0 then ([], some ⟨0, 3, 0x90, 0xBF⟩)
  else if 0xF1 ≤ b ∧ b ≤ 0xF3 then ([], some ⟨b.toNat - 0xF0, 3, 0x80, 0xBF⟩)
  else if b = 0xF4 then ([], some ⟨4, 3, 0x80, 0x8F⟩)
  else ([Char.ofNat 0xFFFD], none)

def decodeLossy : Option CharPrefix → List UInt8 → List Char
  | none, [] => []
  | some _, [] => [Char.ofNat 0xFFFD]
  | none, b :: bs => (CharPrefix.start b).1 ++ decodeLossy (CharPrefix.start b).2 bs
  | some p, b :: bs =>
      let value := p.value * 64 + (b.toNat - 0x80)
      if p.low ≤ b ∧ b ≤ p.high then
        if p.remaining ≤ 1 then Char.ofNat value :: decodeLossy none bs
        else decodeLossy (some ⟨value, p.remaining - 1, 0x80, 0xBF⟩) bs
      else Char.ofNat 0xFFFD :: ((CharPrefix.start b).1 ++ decodeLossy (CharPrefix.start b).2 bs)

/-- `String::from_utf8_lossy`。不正な列の、文字の始まりになりうる最長の部分ごとに U+FFFD を置く。 -/
def fromUtf8Lossy (bytes : List UInt8) : String := String.ofList (decodeLossy none bytes)

/-! ## フレーム -/

structure Codec where
  base64Encode : List UInt8 → String
  base64Decode : String → Option (List UInt8)
  zlibCompress : List UInt8 → List UInt8
  zlibDecompress : List UInt8 → Option (List UInt8)
  md5 : List UInt8 → List UInt8

namespace Codec

variable (codec : Codec)

def encodeBytes (buf : List UInt8) : String := codec.base64Encode (codec.zlibCompress buf)

def decodeBytes (s : String) : Option (List UInt8) :=
  (codec.base64Decode (String.ofList (trim s.toList))).bind codec.zlibDecompress

end Codec

/-- `#TYPE:payload\n` のフレーム。 -/
def frame (typ payload : String) : List UInt8 := utf8 ("#" ++ typ ++ ":" ++ payload ++ "\n")

def frameInt (typ : String) (val : Nat) : List UInt8 := frame typ (toString val)

def frameBin (codec : Codec) (typ : String) (buf : List UInt8) : List UInt8 := frame typ (codec.encodeBytes buf)

def actMsg (codec : Codec) : List UInt8 :=
  frameBin codec "ACT" (utf8
    "\x7b\"lang\":\"go\",\"version\":\"1.1.5\",\"confirm\":true,\"protocol\":2,\"support_binary\":false\x7d")

def position (p : UInt8 → Bool) (line : List UInt8) : Option Nat := line.findIdx? p

def rposition (p : UInt8 → Bool) (line : List UInt8) : Option Nat :=
  (line.reverse.findIdx? p).map fun i => line.length - 1 - i

/-- `#TYPE:payload` の 1 行。最後の `#` より前は読み飛ばす。 -/
def parseLine (line : List UInt8) : Option (String × String) := do
  let start ← rposition (· = hash) line
  let line := line.drop start
  let sep ← position (· = colon) line
  if sep < 2 then none
  let typ ← fromUtf8? ((line.take sep).drop 1)
  let payload ← fromUtf8? (line.drop (sep + 1))
  return (typ, payload)

/-! ## 開始の合図 -/

/-- `TRZSZ_MAGIC`。 -/
def trzszMagic : List UInt8 := utf8 "::TRZSZ:TRANSFER:"

/-- `buf` の末尾のうち、`trzszMagic` の真の接頭辞である最長のものの長さ。 -/
def magicSuffixLen (buf : List UInt8) : Nat :=
  let maxCheck := min buf.length (trzszMagic.length - 1)
  ((List.range' 1 maxCheck).reverse.find? fun len => (buf.drop (buf.length - len)).isPrefixOf trzszMagic).getD 0

/-- 最後に現れる `needle` の位置。 -/
def rfind (haystack needle : List UInt8) : Option Nat :=
  if needle.isEmpty || haystack.length < needle.length then none
  else (List.range (haystack.length - needle.length + 1)).reverse.find? fun i =>
    (haystack.drop i).take needle.length = needle

inductive TrzszMode
  | upload
  | download
  | dir
deriving DecidableEq

structure TrzszDetection where
  mode : TrzszMode
  version : String
  uniqueId : String
deriving DecidableEq

/-- 最初の `sep` の前と後。 -/
def splitOnce (sep : Char) : List Char → Option (List Char × List Char)
  | [] => none
  | c :: cs => if c = sep then some ([], cs) else (splitOnce sep cs).map fun p => (c :: p.1, p.2)

def stripPrefix : List Char → List Char → Option (List Char)
  | [], cs => some cs
  | p :: ps, c :: cs => if p = c then stripPrefix ps cs else none
  | _ :: _, [] => none

/-- `::TRZSZ:TRANSFER:<mode>:<version>:<unique_id>\n`。改行がまだなければ `none` である。 -/
def parseTrzszTrigger (bytes : List UInt8) : Option TrzszDetection := do
  let newlinePos ← position (· = newline) bytes
  let line ← fromUtf8? (bytes.take newlinePos)
  let rest ← stripPrefix "::TRZSZ:TRANSFER:".toList line.toList
  let (modeChar, rest) ← splitOnce ':' rest
  let (version, uniqueId) ← splitOnce ':' rest
  let mode ← match modeChar with
    | ['R'] => some TrzszMode.upload
    | ['S'] => some TrzszMode.download
    | ['D'] => some TrzszMode.dir
    | _ => none
  return { mode, version := String.ofList version, uniqueId := String.ofList uniqueId }

/-!
## 正しい UTF-8 の復号

どの文字列のバイト列も、`from_utf8` と `from_utf8_lossy` のどちらでも、もとの文字列に戻る。
-/

section

open Lib

/-! ## `from_utf8` -/

theorem fromUtf8?_utf8 (s : String) : fromUtf8? (utf8 s) = some s := by
  have hbytes : (⟨(utf8 s).toArray⟩ : ByteArray) = s.toByteArray := by rw [utf8, Array.toArray_toList]
  rw [fromUtf8?, hbytes, String.fromUTF8?, dif_pos s.isValidUTF8]
  rfl

theorem utf8_of_fromUtf8? {bytes : List UInt8} {s : String} (h : fromUtf8? bytes = some s) : utf8 s = bytes := by
  simp only [fromUtf8?, String.fromUTF8?, Option.dite_none_right_eq_some, Option.some.injEq] at h
  obtain ⟨hvalid, rfl⟩ := h
  rfl

theorem utf8_eq_encodeUtf8 (s : String) : utf8 s = encodeUtf8 s.toList := by
  have hbytes : s.toByteArray = s.toList.utf8Encode := by rw [← String.toByteArray_ofList, String.ofList_toList]
  rw [utf8, hbytes, encodeUtf8, List.utf8Encode, List.data_toByteArray, List.toList_toArray]

/-! ## `from_utf8_lossy` -/

theorem decodeLossy_continue {p : CharPrefix} {b : UInt8} (hlow : p.low ≤ b) (hhigh : b ≤ p.high) (bs : List UInt8) :
    decodeLossy (some p) (b :: bs) =
      if p.remaining ≤ 1 then Char.ofNat (p.value * 64 + (b.toNat - 0x80)) :: decodeLossy none bs
      else decodeLossy (some ⟨p.value * 64 + (b.toNat - 0x80), p.remaining - 1, 0x80, 0xBF⟩) bs := by
  rw [decodeLossy]
  simp only [if_pos (And.intro hlow hhigh)]

theorem start_two {k : Nat} (hlow : 2 ≤ k) (hhigh : k < 32) :
    CharPrefix.start (UInt8.ofNat (k + 0xC0)) = ([], some ⟨k, 1, 0x80, 0xBF⟩) := by
  interval_cases k <;> rfl

theorem start_three {k : Nat} (h : k < 16) :
    CharPrefix.start (UInt8.ofNat (k + 0xE0)) =
      ([], some ⟨k, 2, if k = 0 then 0xA0 else 0x80, if k = 13 then 0x9F else 0xBF⟩) := by
  interval_cases k <;> rfl

theorem start_four {k : Nat} (h : k ≤ 4) :
    CharPrefix.start (UInt8.ofNat (k + 0xF0)) =
      ([], some ⟨k, 3, if k = 0 then 0x90 else 0x80, if k = 4 then 0x8F else 0xBF⟩) := by
  interval_cases k <;> rfl

/-- 続きのバイト。 -/
theorem decodeLossy_continuation {p : CharPrefix} {x : Nat} (hx : x < 64) (hlow : p.low.toNat ≤ x + 0x80)
    (hhigh : x + 0x80 ≤ p.high.toNat) (bs : List UInt8) :
    decodeLossy (some p) (UInt8.ofNat (x + 0x80) :: bs) =
      if p.remaining ≤ 1 then Char.ofNat (p.value * 64 + x) :: decodeLossy none bs
      else decodeLossy (some ⟨p.value * 64 + x, p.remaining - 1, 0x80, 0xBF⟩) bs := by
  have hnat : (UInt8.ofNat (x + 0x80)).toNat = x + 0x80 := by rw [UInt8.toNat_ofNat']; omega
  rw [decodeLossy_continue (by rw [UInt8.le_iff_toNat_le, hnat]; exact hlow)
    (by rw [UInt8.le_iff_toNat_le, hnat]; exact hhigh), hnat, Nat.add_sub_cancel]

theorem decodeLossy_utf8EncodeChar (c : Char) (rest : List UInt8) :
    decodeLossy none (String.utf8EncodeChar c ++ rest) = c :: decodeLossy none rest := by
  have hvalid : c.val.toNat < 0xD800 ∨ 0xDFFF < c.val.toNat ∧ c.val.toNat < 0x110000 := c.valid
  have hchar : Char.ofNat c.val.toNat = c := Char.ofNat_toNat c
  generalize hv : c.val.toNat = v at hvalid hchar
  simp only [String.utf8EncodeChar, hv]
  split
  · next hone =>
      have hnat : (UInt8.ofNat v).toNat = v := by rw [UInt8.toNat_ofNat']; omega
      have hlt : UInt8.ofNat v < 0x80 := by rw [UInt8.lt_iff_toNat_lt, hnat]; exact Nat.lt_succ_of_le hone
      simp only [List.cons_append, List.nil_append, decodeLossy, CharPrefix.start, if_pos hlt, hnat, hchar]
  · next hone =>
      split
      · next htwo =>
          have hfirst : v / 64 % 32 = v / 64 := Nat.mod_eq_of_lt (by omega)
          have hvalue : v / 64 * 64 + v % 64 = v := by omega
          rw [List.cons_append, List.cons_append, List.nil_append, decodeLossy, hfirst,
            start_two (by omega) (by omega), List.nil_append,
            decodeLossy_continuation (by omega) (by simp) (by simp; omega), if_pos (Nat.le_refl 1), hvalue, hchar]
      · next htwo =>
          split
          · next hthree =>
              have hfirst : v / 4096 % 16 = v / 4096 := Nat.mod_eq_of_lt (by omega)
              have hvalue : (v / 4096 * 64 + v / 64 % 64) * 64 + v % 64 = v := by omega
              have hlow : (if v / 4096 = 0 then (0xA0 : UInt8) else 0x80).toNat ≤ v / 64 % 64 + 0x80 := by
                split <;> simp; omega
              have hhigh : v / 64 % 64 + 0x80 ≤ (if v / 4096 = 13 then (0x9F : UInt8) else 0xBF).toNat := by
                split <;> simp <;> omega
              rw [List.cons_append, List.cons_append, List.cons_append, List.nil_append, decodeLossy, hfirst,
                start_three (by omega), List.nil_append, decodeLossy_continuation (by omega) hlow hhigh]
              simp only [Nat.reduceLeDiff, ↓reduceIte, Nat.add_one_sub_one]
              rw [decodeLossy_continuation (by omega) (by simp) (by simp; omega), if_pos (Nat.le_refl 1), hvalue, hchar]
          · next hthree =>
              have hfirst : v / 262144 % 8 = v / 262144 := Nat.mod_eq_of_lt (by omega)
              have hvalue : ((v / 262144 * 64 + v / 4096 % 64) * 64 + v / 64 % 64) * 64 + v % 64 = v := by omega
              have hlow : (if v / 262144 = 0 then (0x90 : UInt8) else 0x80).toNat ≤ v / 4096 % 64 + 0x80 := by
                split <;> simp; omega
              have hhigh : v / 4096 % 64 + 0x80 ≤ (if v / 262144 = 4 then (0x8F : UInt8) else 0xBF).toNat := by
                split <;> simp <;> omega
              rw [List.cons_append, List.cons_append, List.cons_append, List.cons_append, List.nil_append, decodeLossy,
                hfirst, start_four (by omega), List.nil_append, decodeLossy_continuation (by omega) hlow hhigh]
              simp only [Nat.reduceLeDiff, ↓reduceIte, Nat.reduceSub]
              rw [decodeLossy_continuation (by omega) (by simp) (by simp; omega)]
              simp only [Nat.reduceLeDiff, ↓reduceIte, Nat.reduceSub]
              rw [decodeLossy_continuation (by omega) (by simp) (by simp; omega), if_pos (Nat.le_refl 1), hvalue, hchar]

theorem fromUtf8Lossy_utf8 (s : String) : fromUtf8Lossy (utf8 s) = s := by
  have hchars : ∀ cs : List Char, decodeLossy none (encodeUtf8 cs) = cs := by
    intro cs
    induction cs with
    | nil => rfl
    | cons c cs ih =>
        rw [encodeUtf8, List.flatMap_cons, decodeLossy_utf8EncodeChar]
        exact congrArg (c :: ·) ih
  rw [fromUtf8Lossy, utf8_eq_encodeUtf8, hchars, String.ofList_toList]

end

end IsekaiTerminal.Trzsz
