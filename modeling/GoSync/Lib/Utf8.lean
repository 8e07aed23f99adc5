import Mathlib.Data.List.Basic

/-!
# Text from arbitrary bytes

A byte string is read as UTF-8 text. Bytes that are no UTF-8 are read as well: each byte at which no character
starts gives the replacement character.
-/

namespace Utf8

def encode (text : String) : List UInt8 :=
  text.toList.flatMap String.utf8EncodeChar

def runes : Nat → List UInt8 → List Char
  | 0, _ => []
  | _, [] => []
  | count + 1, byte :: rest =>
      match ByteArray.utf8DecodeChar? (byte :: rest).toByteArray 0 with
      | some char => char :: runes count ((byte :: rest).drop char.utf8Size)
      | none => Char.ofNat 0xFFFD :: runes count rest

def decode (bytes : List UInt8) : String :=
  String.ofList (runes bytes.length bytes)

/-- UTF-8 text is read back. -/
theorem runes_encode (count : Nat) (chars : List Char)
    (hcount : (chars.flatMap String.utf8EncodeChar).length ≤ count) :
    runes count (chars.flatMap String.utf8EncodeChar) = chars := by
  induction chars generalizing count with
  | nil => cases count <;> rfl
  | cons char chars ih =>
      have hsize : (String.utf8EncodeChar char).length = char.utf8Size := String.length_utf8EncodeChar char
      have hpos := char.utf8Size_pos
      have hdecode : ByteArray.utf8DecodeChar?
          ((char :: chars).flatMap String.utf8EncodeChar).toByteArray 0 = some char :=
        List.utf8DecodeChar?_utf8Encode_cons
      have hdrop : ((char :: chars).flatMap String.utf8EncodeChar).drop char.utf8Size
          = chars.flatMap String.utf8EncodeChar := by
        rw [List.flatMap_cons, ← hsize, List.drop_left]
      rw [List.flatMap_cons, List.length_append, hsize] at hcount
      obtain ⟨count, rfl⟩ : ∃ less, count = less + 1 := ⟨count - 1, by omega⟩
      cases hbytes : (char :: chars).flatMap String.utf8EncodeChar with
      | nil =>
          have hlength := congrArg List.length hbytes
          rw [List.flatMap_cons, List.length_append, hsize, List.length_nil] at hlength
          omega
      | cons byte rest =>
          rw [hbytes] at hdecode hdrop
          rw [runes, hdecode]
          dsimp only
          rw [hdrop, ih count (by omega)]

/-- Text survives the way through bytes. -/
@[simp]
theorem decode_encode (text : String) : decode (encode text) = text := by
  rw [decode, encode, runes_encode _ _ (Nat.le_refl _), String.ofList_toList]

example : decode [0x61, 0xff] = decode [0x61, 0xfe] := by decide +kernel

end Utf8
