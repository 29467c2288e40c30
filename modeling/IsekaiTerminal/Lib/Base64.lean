import Mathlib

/-!
# base64

標準の字母と詰め物による base64。復号は、詰め物が足りないものと、使わないビットが 0 でないものを拒否する。
-/

namespace IsekaiTerminal.Lib.Base64

def alphabet : List Char := "ABCDEFGHIJKLMNOPQRSTUVWXYZabcdefghijklmnopqrstuvwxyz0123456789+/".toList

/-- 6 ビットの値の文字。 -/
def digit (n : Nat) : Char := alphabet.getD n '='

def value (c : Char) : Option Nat := alphabet.idxOf? c

def encode : List UInt8 → List Char
  | [] => []
  | [a] => [digit (a.toNat / 4), digit (a.toNat % 4 * 16), '=', '=']
  | [a, b] => [digit (a.toNat / 4), digit (a.toNat % 4 * 16 + b.toNat / 16), digit (b.toNat % 16 * 4), '=']
  | a :: b :: c :: rest =>
      digit (a.toNat / 4) :: digit (a.toNat % 4 * 16 + b.toNat / 16) ::
        digit (b.toNat % 16 * 4 + c.toNat / 64) :: digit (c.toNat % 64) :: encode rest

/-- 4 文字の組の復号。後の 2 文字は詰め物でもよい。 -/
def decodeGroup (w x y z : Char) : Option (List UInt8) := do
  let w ← value w
  let x ← value x
  if z = '=' then
    if y = '=' then
      if x % 16 = 0 then some [UInt8.ofNat (w * 4 + x / 16)] else none
    else
      let y ← value y
      if y % 4 = 0 then some [UInt8.ofNat (w * 4 + x / 16), UInt8.ofNat (x % 16 * 16 + y / 4)] else none
  else
    let y ← value y
    let z ← value z
    some [UInt8.ofNat (w * 4 + x / 16), UInt8.ofNat (x % 16 * 16 + y / 4), UInt8.ofNat (y % 4 * 64 + z)]

/-- 詰め物のある組は最後でなければならない。 -/
def decode : List Char → Option (List UInt8)
  | [] => some []
  | w :: x :: y :: z :: rest => do
      let bytes ← decodeGroup w x y z
      if z = '=' ∧ rest ≠ [] then none
      else
        let tail ← decode rest
        some (bytes ++ tail)
  | _ => none

theorem alphabet_eq :
    alphabet = ['A', 'B', 'C', 'D', 'E', 'F', 'G', 'H', 'I', 'J', 'K', 'L', 'M', 'N', 'O', 'P', 'Q', 'R', 'S', 'T', 'U', 'V',
      'W', 'X', 'Y', 'Z', 'a', 'b', 'c', 'd', 'e', 'f', 'g', 'h', 'i', 'j', 'k', 'l', 'm', 'n', 'o', 'p', 'q', 'r',
      's', 't', 'u', 'v', 'w', 'x', 'y', 'z', '0', '1', '2', '3', '4', '5', '6', '7', '8', '9', '+', '/'] :=
  String.toList_ofList

theorem value_digit {n : Nat} (h : n < 64) : value (digit n) = some n := by
  have hall : ∀ k < 64, value (digit k) = some k := by
    simp only [value, digit, alphabet_eq]
    decide +kernel
  exact hall n h

theorem digit_ne_pad {n : Nat} (h : n < 64) : digit n ≠ '=' := by
  have hall : ∀ k < 64, digit k ≠ '=' := by
    simp only [digit, alphabet_eq]
    decide +kernel
  exact hall n h

theorem decodeGroup_one (a : UInt8) :
    decodeGroup (digit (a.toNat / 4)) (digit (a.toNat % 4 * 16)) '=' '=' = some [a] := by
  have ha := a.toNat_lt
  have hbyte : a.toNat / 4 * 4 + a.toNat % 4 * 16 / 16 = a.toNat := by omega
  have hpad : a.toNat % 4 * 16 % 16 = 0 := by omega
  simp only [decodeGroup, value_digit (show a.toNat / 4 < 64 by omega),
    value_digit (show a.toNat % 4 * 16 < 64 by omega), hbyte, hpad, Option.bind_eq_bind, Option.bind_some, if_true,
    UInt8.ofNat_toNat]

theorem decodeGroup_two (a b : UInt8) :
    decodeGroup (digit (a.toNat / 4)) (digit (a.toNat % 4 * 16 + b.toNat / 16)) (digit (b.toNat % 16 * 4)) '=' =
      some [a, b] := by
  have ha := a.toNat_lt
  have hb := b.toNat_lt
  have hfirst : a.toNat / 4 * 4 + (a.toNat % 4 * 16 + b.toNat / 16) / 16 = a.toNat := by omega
  have hsecond : (a.toNat % 4 * 16 + b.toNat / 16) % 16 * 16 + b.toNat % 16 * 4 / 4 = b.toNat := by omega
  have hpad : b.toNat % 16 * 4 % 4 = 0 := by omega
  have hne := digit_ne_pad (show b.toNat % 16 * 4 < 64 by omega)
  simp only [decodeGroup, value_digit (show a.toNat / 4 < 64 by omega),
    value_digit (show a.toNat % 4 * 16 + b.toNat / 16 < 64 by omega),
    value_digit (show b.toNat % 16 * 4 < 64 by omega), hne, hfirst, hsecond, hpad, Option.bind_eq_bind,
    Option.bind_some, if_true, if_false, UInt8.ofNat_toNat]

theorem decodeGroup_three (a b c : UInt8) :
    decodeGroup (digit (a.toNat / 4)) (digit (a.toNat % 4 * 16 + b.toNat / 16))
      (digit (b.toNat % 16 * 4 + c.toNat / 64)) (digit (c.toNat % 64)) = some [a, b, c] := by
  have ha := a.toNat_lt
  have hb := b.toNat_lt
  have hc := c.toNat_lt
  have hfirst : a.toNat / 4 * 4 + (a.toNat % 4 * 16 + b.toNat / 16) / 16 = a.toNat := by omega
  have hsecond : (a.toNat % 4 * 16 + b.toNat / 16) % 16 * 16 + (b.toNat % 16 * 4 + c.toNat / 64) / 4 = b.toNat := by
    omega
  have hthird : (b.toNat % 16 * 4 + c.toNat / 64) % 4 * 64 + c.toNat % 64 = c.toNat := by omega
  have hne := digit_ne_pad (show c.toNat % 64 < 64 by omega)
  simp only [decodeGroup, value_digit (show a.toNat / 4 < 64 by omega),
    value_digit (show a.toNat % 4 * 16 + b.toNat / 16 < 64 by omega),
    value_digit (show b.toNat % 16 * 4 + c.toNat / 64 < 64 by omega),
    value_digit (show c.toNat % 64 < 64 by omega), hne, hfirst, hsecond, hthird, Option.bind_eq_bind, Option.bind_some,
    if_false, UInt8.ofNat_toNat]

theorem decode_encode (bytes : List UInt8) : decode (encode bytes) = some bytes := by
  fun_induction encode bytes with
  | case1 => rfl
  | case2 a => simp [decode, decodeGroup_one]
  | case3 a b => simp [decode, decodeGroup_two]
  | case4 a b c rest ih =>
      have hc := c.toNat_lt
      have hne := digit_ne_pad (show c.toNat % 64 < 64 by omega)
      simp [decode, decodeGroup_three, hne, ih]

theorem length_encode (bytes : List UInt8) : (encode bytes).length = (bytes.length + 2) / 3 * 4 := by
  fun_induction encode bytes with
  | case1 => rfl
  | case2 a => simp only [List.length_cons, List.length_nil]
  | case3 a b => simp only [List.length_cons, List.length_nil]
  | case4 a b c rest ih =>
      simp only [List.length_cons, ih]
      omega

end IsekaiTerminal.Lib.Base64
