import Mathlib.Algebra.Ring.Int.Defs
import Mathlib.Algebra.Ring.Nat
import Mathlib.Data.List.Basic

/-!
# Text encodings

The parts of `encoding/hex`, `encoding/base64`, `strings` and `path/filepath` that the server calls,
on the characters of a string.
-/

namespace GoSync

instance lawfulBEqChars : LawfulBEq (List Char) := inferInstance

def hexDigit (c : Char) : Option Nat :=
  if '0' ≤ c ∧ c ≤ '9' then some (c.toNat - '0'.toNat)
  else if 'a' ≤ c ∧ c ≤ 'f' then some (c.toNat - 'a'.toNat + 10)
  else if 'A' ≤ c ∧ c ≤ 'F' then some (c.toNat - 'A'.toNat + 10)
  else none

def hexDecodeChars : List Char → Option (List UInt8)
  | [] => some []
  | [_] => none
  | high :: low :: rest => do
      let upper ← hexDigit high
      let lower ← hexDigit low
      let bytes ← hexDecodeChars rest
      some (UInt8.ofNat (upper * 16 + lower) :: bytes)

def hexDecode (text : String) : Option (List UInt8) :=
  hexDecodeChars text.toList

def hexDigitChar (digit : Nat) : Char :=
  if digit < 10 then Char.ofNat ('0'.toNat + digit) else Char.ofNat ('a'.toNat + (digit - 10))

def hexEncode (bytes : List UInt8) : String :=
  String.ofList
    (bytes.flatMap fun byte => [hexDigitChar (byte.toNat / 16), hexDigitChar (byte.toNat % 16)])

theorem hexDigit_hexDigitChar : ∀ digit < 16, hexDigit (hexDigitChar digit) = some digit := by
  decide

theorem hexDecodeChars_hexEncode (bytes : List UInt8) :
    hexDecodeChars
        (bytes.flatMap fun byte => [hexDigitChar (byte.toNat / 16), hexDigitChar (byte.toNat % 16)])
      = some bytes := by
  induction bytes with
  | nil => rfl
  | cons byte bytes ih =>
      have hhigh : byte.toNat / 16 < 16 := Nat.div_lt_of_lt_mul byte.toNat_lt
      have hlow : byte.toNat % 16 < 16 := Nat.mod_lt _ (by decide)
      have hbyte : byte.toNat / 16 * 16 + byte.toNat % 16 = byte.toNat := Nat.div_add_mod' _ _
      rw [List.flatMap_cons, List.cons_append, List.cons_append, List.nil_append, hexDecodeChars,
        hexDigit_hexDigitChar _ hhigh, hexDigit_hexDigitChar _ hlow, ih]
      dsimp only [Option.bind_eq_bind, Option.bind_some]
      rw [hbyte, UInt8.ofNat_toNat]

def decimal : Nat → Nat → List Char
  | 0, _ => []
  | width + 1, value => decimal width (value / 10) ++ [Char.ofNat ('0'.toNat + value % 10)]

def parseDigits (digits : List Char) : Option Nat :=
  if digits = [] ∨ ¬ digits.all Char.isDigit then none
  else some (digits.foldl (fun value digit => value * 10 + (digit.toNat - '0'.toNat)) 0)

theorem digitChar_isDigit : ∀ digit < 10, (Char.ofNat ('0'.toNat + digit)).isDigit = true
    ∧ (Char.ofNat ('0'.toNat + digit)).toNat - '0'.toNat = digit := by
  decide

theorem decimal_digits (width value : Nat) : (decimal width value).all Char.isDigit = true := by
  induction width generalizing value with
  | zero => rfl
  | succ width ih =>
      rw [decimal, List.all_append, ih, Bool.true_and, List.all_cons, List.all_nil, Bool.and_true]
      exact (digitChar_isDigit _ (Nat.mod_lt _ (by decide))).1

theorem foldl_decimal (width value : Nat) (h : value < 10 ^ width) :
    (decimal width value).foldl (fun value digit => value * 10 + (digit.toNat - '0'.toNat)) 0 = value := by
  induction width generalizing value with
  | zero =>
      rw [Nat.pow_zero] at h
      obtain rfl : value = 0 := by omega
      rfl
  | succ width ih =>
      have hhigh : value / 10 < 10 ^ width := Nat.div_lt_of_lt_mul (by rw [Nat.mul_comm]; exact h)
      rw [decimal, List.foldl_append, ih _ hhigh, List.foldl_cons, List.foldl_nil,
        (digitChar_isDigit _ (Nat.mod_lt _ (by decide))).2]
      exact Nat.div_add_mod' _ _

theorem parseDigits_decimal (width value : Nat) (h : value < 10 ^ (width + 1)) :
    parseDigits (decimal (width + 1) value) = some value := by
  rw [parseDigits, if_neg, foldl_decimal _ _ h]
  rw [decimal_digits]
  simp [decimal]

section Base64

/-- The characters of a base64 encoding. None of them is padding, a line break or a colon. -/
structure Alphabet where
  char : Nat → Char
  digit : Char → Option Nat
  digit_char : ∀ value < 64, digit (char value) = some value
  plain : ∀ value < 64, char value ∉ ['=', '\r', '\n', ':']

/-- Three bytes become four characters; there is no padding after the last group. -/
def Alphabet.encode (a : Alphabet) : List UInt8 → List Char
  | [] => []
  | [x] => [a.char (x.toNat / 4), a.char (x.toNat % 4 * 16)]
  | [x, y] =>
      [a.char (x.toNat / 4), a.char (x.toNat % 4 * 16 + y.toNat / 16), a.char (y.toNat % 16 * 4)]
  | x :: y :: z :: rest =>
      a.char (x.toNat / 4) :: a.char (x.toNat % 4 * 16 + y.toNat / 16)
        :: a.char (y.toNat % 16 * 4 + z.toNat / 64) :: a.char (z.toNat % 64) :: a.encode rest

/-- Bits beyond the last byte are ignored. -/
def Alphabet.decode (a : Alphabet) : List Char → Option (List UInt8)
  | [] => some []
  | [_] => none
  | [c₁, c₂] => do
      let first ← a.digit c₁
      let second ← a.digit c₂
      some [UInt8.ofNat (first * 4 + second / 16)]
  | [c₁, c₂, c₃] => do
      let first ← a.digit c₁
      let second ← a.digit c₂
      let third ← a.digit c₃
      some [UInt8.ofNat (first * 4 + second / 16), UInt8.ofNat (second % 16 * 16 + third / 4)]
  | c₁ :: c₂ :: c₃ :: c₄ :: rest => do
      let first ← a.digit c₁
      let second ← a.digit c₂
      let third ← a.digit c₃
      let fourth ← a.digit c₄
      let bytes ← a.decode rest
      some (UInt8.ofNat (first * 4 + second / 16) :: UInt8.ofNat (second % 16 * 16 + third / 4)
        :: UInt8.ofNat (third % 4 * 64 + fourth) :: bytes)

theorem Alphabet.mem_encode (a : Alphabet) {bytes : List UInt8} {c : Char} (h : c ∈ a.encode bytes) :
    ∃ value < 64, c = a.char value := by
  induction bytes using Alphabet.encode.induct with
  | case1 => cases h
  | case2 x =>
      have hx := x.toNat_lt
      simp only [encode, List.mem_cons, List.not_mem_nil, or_false] at h
      rcases h with rfl | rfl <;> exact ⟨_, by omega, rfl⟩
  | case3 x y =>
      have hx := x.toNat_lt
      have hy := y.toNat_lt
      simp only [encode, List.mem_cons, List.not_mem_nil, or_false] at h
      rcases h with rfl | rfl | rfl <;> exact ⟨_, by omega, rfl⟩
  | case4 x y z rest ih =>
      have hx := x.toNat_lt
      have hy := y.toNat_lt
      have hz := z.toNat_lt
      simp only [encode, List.mem_cons] at h
      rcases h with rfl | rfl | rfl | rfl | hrest
      · exact ⟨_, by omega, rfl⟩
      · exact ⟨_, by omega, rfl⟩
      · exact ⟨_, by omega, rfl⟩
      · exact ⟨_, by omega, rfl⟩
      · exact ih hrest

theorem Alphabet.not_mem_encode (a : Alphabet) (bytes : List UInt8) {c : Char}
    (h : c ∈ ['=', '\r', '\n', ':']) : c ∉ a.encode bytes := by
  intro hmem
  obtain ⟨value, hlt, rfl⟩ := a.mem_encode hmem
  exact a.plain value hlt h

/-- Decoding undoes encoding, with padding or without. -/
theorem Alphabet.decode_encode (a : Alphabet) (bytes : List UInt8) :
    a.decode (a.encode bytes) = some bytes := by
  have hbyte : ∀ (byte : UInt8) (value : Nat), value = byte.toNat → UInt8.ofNat value = byte := by
    rintro byte _ rfl
    exact UInt8.ofNat_toNat
  induction bytes using Alphabet.encode.induct with
  | case1 => rfl
  | case2 x =>
      have hx := x.toNat_lt
      rw [encode, decode, a.digit_char _ (by omega), a.digit_char _ (by omega)]
      dsimp only [Option.bind_eq_bind, Option.bind_some]
      rw [hbyte x _ (by omega)]
  | case3 x y =>
      have hx := x.toNat_lt
      have hy := y.toNat_lt
      rw [encode, decode, a.digit_char _ (by omega), a.digit_char _ (by omega), a.digit_char _ (by omega)]
      dsimp only [Option.bind_eq_bind, Option.bind_some]
      rw [hbyte x _ (by omega), hbyte y _ (by omega)]
  | case4 x y z rest ih =>
      have hx := x.toNat_lt
      have hy := y.toNat_lt
      have hz := z.toNat_lt
      rw [encode, decode, a.digit_char _ (by omega), a.digit_char _ (by omega),
        a.digit_char _ (by omega), a.digit_char _ (by omega), ih]
      dsimp only [Option.bind_eq_bind, Option.bind_some]
      rw [hbyte x _ (by omega), hbyte y _ (by omega), hbyte z _ (by omega)]

theorem Alphabet.length_encode (a : Alphabet) (bytes : List UInt8) :
    (a.encode bytes).length = bytes.length + (bytes.length + 2) / 3 := by
  induction bytes using Alphabet.encode.induct with
  | case1 | case2 | case3 => simp [encode]
  | case4 x y z rest ih =>
      simp only [encode, List.length_cons, ih]
      omega

def base64Digit (c : Char) : Option Nat :=
  if 'A' ≤ c ∧ c ≤ 'Z' then some (c.toNat - 'A'.toNat)
  else if 'a' ≤ c ∧ c ≤ 'z' then some (c.toNat - 'a'.toNat + 26)
  else if '0' ≤ c ∧ c ≤ '9' then some (c.toNat - '0'.toNat + 52)
  else if c = '+' then some 62
  else if c = '/' then some 63
  else none

def base64UrlDigit (c : Char) : Option Nat :=
  if c = '-' then some 62
  else if c = '_' then some 63
  else if c = '+' ∨ c = '/' then none
  else base64Digit c

def base64Char (last : Char × Char) (digit : Nat) : Char :=
  if digit < 26 then Char.ofNat ('A'.toNat + digit)
  else if digit < 52 then Char.ofNat ('a'.toNat + (digit - 26))
  else if digit < 62 then Char.ofNat ('0'.toNat + (digit - 52))
  else if digit = 62 then last.1
  else last.2

def standard : Alphabet where
  char := base64Char ('+', '/')
  digit := base64Digit
  digit_char := by decide
  plain := by decide

def url : Alphabet where
  char := base64Char ('-', '_')
  digit := base64UrlDigit
  digit_char := by decide
  plain := by decide

def padding (count : Nat) : List Char :=
  List.replicate ((3 - count % 3) % 3) '='

def unpadded (text : List Char) : List Char :=
  match text.reverse with
  | '=' :: '=' :: rest | '=' :: rest => rest.reverse
  | _ => text

def withoutBreaks (text : List Char) : List Char :=
  text.filter fun c => c ≠ '\r' ∧ c ≠ '\n'

/-- `base64.StdEncoding.EncodeToString`. -/
def base64Encode (bytes : List UInt8) : String :=
  String.ofList (standard.encode bytes ++ padding bytes.length)

/-- `base64.StdEncoding.DecodeString`. -/
def base64Decode (text : String) : Option (List UInt8) :=
  let text := withoutBreaks text.toList
  if text.length % 4 = 0 then standard.decode (unpadded text) else none

/-- `base64.RawURLEncoding.EncodeToString`. -/
def rawUrlEncode (bytes : List UInt8) : List Char :=
  url.encode bytes

def rawUrlDecode (text : List Char) : Option (List UInt8) :=
  url.decode (withoutBreaks text)

theorem withoutBreaks_eq_self {text : List Char} (hreturn : '\r' ∉ text) (hfeed : '\n' ∉ text) :
    withoutBreaks text = text := by
  rw [withoutBreaks, List.filter_eq_self]
  exact fun c hc => decide_eq_true ⟨fun h => hreturn (h ▸ hc), fun h => hfeed (h ▸ hc)⟩

theorem unpadded_padding {text : List Char} (htext : '=' ∉ text) (count : Nat) :
    unpadded (text ++ padding count) = text := by
  have hplain : ∀ rest, text.reverse ≠ '=' :: rest :=
    fun rest h => htext (List.mem_reverse.mp (h ▸ List.mem_cons_self))
  have hcount : (3 - count % 3) % 3 = 0 ∨ (3 - count % 3) % 3 = 1 ∨ (3 - count % 3) % 3 = 2 := by omega
  unfold unpadded padding
  rcases hcount with hcount | hcount | hcount
  · rw [hcount, List.replicate_zero, List.append_nil]
    split
    · exact absurd ‹_› (hplain _)
    · exact absurd ‹_› (hplain _)
    · rfl
  · rw [hcount, List.replicate_one, List.reverse_append, List.reverse_singleton, List.singleton_append]
    split
    · rename_i h
      exact absurd (List.cons.inj h).2 (hplain _)
    · rename_i h
      rw [← (List.cons.inj h).2, List.reverse_reverse]
    · rename_i h
      exact absurd rfl (h _)
  · rw [hcount, List.reverse_append]
    exact List.reverse_reverse text

theorem base64Decode_encode (bytes : List UInt8) : base64Decode (base64Encode bytes) = some bytes := by
  have hbreak {c : Char} (hc : c ∈ ['=', '\r', '\n', ':']) (hpad : c ≠ '=') :
      c ∉ standard.encode bytes ++ padding bytes.length := by
    rw [List.mem_append, not_or]
    exact ⟨standard.not_mem_encode bytes hc, fun h => hpad (List.eq_of_mem_replicate h)⟩
  have hlength : (standard.encode bytes ++ padding bytes.length).length % 4 = 0 := by
    rw [List.length_append, standard.length_encode, padding, List.length_replicate]
    omega
  rw [base64Decode, base64Encode, String.toList_ofList,
    withoutBreaks_eq_self (hbreak (by decide) (by decide)) (hbreak (by decide) (by decide)), if_pos hlength,
    unpadded_padding (standard.not_mem_encode bytes (by decide)), standard.decode_encode]

theorem rawUrlDecode_encode (bytes : List UInt8) : rawUrlDecode (rawUrlEncode bytes) = some bytes := by
  rw [rawUrlDecode, rawUrlEncode, withoutBreaks_eq_self (url.not_mem_encode bytes (by decide))
    (url.not_mem_encode bytes (by decide)), url.decode_encode]

end Base64

/-- `unicode.ToUpper`, as far as its result can be an ASCII letter: the small letters, the dotless i and
the long s. -/
def upperChar (c : Char) : Char :=
  if c = '\u0131' then 'I' else if c = '\u017F' then 'S' else c.toUpper

/-- `unicode.ToLower`, as far as its result can be an ASCII letter: the capital letters, the dotted
capital I and the Kelvin sign. -/
def lowerChar (c : Char) : Char :=
  if c = '\u0130' then 'i' else if c = '\u212A' then 'k' else c.toLower

def isSpace (c : Char) : Bool :=
  c = '\t' ∨ c = '\n' ∨ c = '\u000B' ∨ c = '\u000C' ∨ c = '\r' ∨ c = ' ' ∨ c = '\u0085'
    ∨ c = '\u00A0' ∨ c = '\u1680' ∨ ('\u2000' ≤ c ∧ c ≤ '\u200A') ∨ c = '\u2028'
    ∨ c = '\u2029' ∨ c = '\u202F' ∨ c = '\u205F' ∨ c = '\u3000'

def lower (text : String) : List Char :=
  text.toList.map lowerChar

def hexUpper (bytes : List UInt8) : String :=
  String.ofList ((hexEncode bytes).toList.map upperChar)

theorem hexDecode_hexEncode (bytes : List UInt8) : hexDecode (hexEncode bytes) = some bytes := by
  rw [hexDecode, hexEncode, String.toList_ofList]
  exact hexDecodeChars_hexEncode bytes

theorem hexDigit_upperChar : ∀ digit < 16, hexDigit (upperChar (hexDigitChar digit)) = some digit := by
  decide

theorem lowerChar_hexDigitChar : ∀ digit < 16,
    lowerChar (hexDigitChar digit) = hexDigitChar digit
      ∧ lowerChar (upperChar (hexDigitChar digit)) = hexDigitChar digit := by
  decide

theorem mem_hexEncode {bytes : List UInt8} {c : Char} (h : c ∈ (hexEncode bytes).toList) :
    ∃ digit < 16, c = hexDigitChar digit := by
  rw [hexEncode, String.toList_ofList] at h
  obtain ⟨byte, -, h⟩ := List.mem_flatMap.mp h
  simp only [List.mem_cons, List.not_mem_nil, or_false] at h
  rcases h with rfl | rfl
  · exact ⟨_, Nat.div_lt_of_lt_mul byte.toNat_lt, rfl⟩
  · exact ⟨_, Nat.mod_lt _ (by decide), rfl⟩

theorem lower_hexEncode (bytes : List UInt8) : lower (hexEncode bytes) = (hexEncode bytes).toList := by
  have hdigits : ∀ c ∈ (hexEncode bytes).toList, lowerChar c = c := by
    intro c hc
    obtain ⟨digit, hdigit, rfl⟩ := mem_hexEncode hc
    exact (lowerChar_hexDigitChar digit hdigit).1
  exact (List.map_congr_left hdigits).trans (List.map_id _)

theorem lower_hexUpper (bytes : List UInt8) : lower (hexUpper bytes) = (hexEncode bytes).toList := by
  have hdigits : ∀ c ∈ (hexEncode bytes).toList, lowerChar (upperChar c) = c := by
    intro c hc
    obtain ⟨digit, hdigit, rfl⟩ := mem_hexEncode hc
    exact (lowerChar_hexDigitChar digit hdigit).2
  rw [lower, hexUpper, String.toList_ofList, List.map_map]
  exact (List.map_congr_left hdigits).trans (List.map_id _)

theorem hexDecode_hexUpper (bytes : List UInt8) : hexDecode (hexUpper bytes) = some bytes := by
  rw [hexDecode, hexUpper, String.toList_ofList, hexEncode, String.toList_ofList]
  induction bytes with
  | nil => rfl
  | cons byte bytes ih =>
      have hhigh : byte.toNat / 16 < 16 := Nat.div_lt_of_lt_mul byte.toNat_lt
      have hlow : byte.toNat % 16 < 16 := Nat.mod_lt _ (by decide)
      have hbyte : byte.toNat / 16 * 16 + byte.toNat % 16 = byte.toNat := Nat.div_add_mod' _ _
      rw [List.flatMap_cons, List.cons_append, List.cons_append, List.nil_append, List.map_cons,
        List.map_cons, hexDecodeChars, hexDigit_upperChar _ hhigh, hexDigit_upperChar _ hlow, ih]
      change some (UInt8.ofNat (byte.toNat / 16 * 16 + byte.toNat % 16) :: bytes) = _
      rw [hbyte, UInt8.ofNat_toNat]

def trimSpace (text : String) : List Char :=
  ((text.toList.dropWhile isSpace).reverse.dropWhile isSpace).reverse

def localDepth : Nat → List (List Char) → Option Nat
  | depth, [] => some depth
  | depth, element :: rest =>
      if element = [] ∨ element = ['.'] then localDepth depth rest
      else if element = ['.', '.'] then
        if depth = 0 then none else localDepth (depth - 1) rest
      else localDepth (depth + 1) rest

/-- `filepath.IsLocal` on Unix: not empty, not absolute, and no element climbs above the root. -/
def isLocal (path : String) : Bool :=
  path ≠ "" ∧ path.toList.head? ≠ some '/' ∧ (localDepth 0 (path.toList.splitOn '/')).isSome

example : isLocal "a/../b.txt" = true ∧ isLocal "a/../../b" = false ∧ isLocal "/a" = false := by
  decide

example : base64Decode "aGVs\nbG8=" = some [104, 101, 108, 108, 111] := by
  decide

end GoSync
