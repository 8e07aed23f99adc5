import GoSync.Lib.Bytes

/-!
# SHA-256

The hash function on lists of bytes, with words as natural numbers below `2 ^ 32`. It is written so that it
can be evaluated on short messages.
-/

namespace GoSync

namespace Sha256

def roundConstants : List Nat :=
  [0x428a2f98, 0x71374491, 0xb5c0fbcf, 0xe9b5dba5, 0x3956c25b, 0x59f111f1, 0x923f82a4, 0xab1c5ed5,
   0xd807aa98, 0x12835b01, 0x243185be, 0x550c7dc3, 0x72be5d74, 0x80deb1fe, 0x9bdc06a7, 0xc19bf174,
   0xe49b69c1, 0xefbe4786, 0x0fc19dc6, 0x240ca1cc, 0x2de92c6f, 0x4a7484aa, 0x5cb0a9dc, 0x76f988da,
   0x983e5152, 0xa831c66d, 0xb00327c8, 0xbf597fc7, 0xc6e00bf3, 0xd5a79147, 0x06ca6351, 0x14292967,
   0x27b70a85, 0x2e1b2138, 0x4d2c6dfc, 0x53380d13, 0x650a7354, 0x766a0abb, 0x81c2c92e, 0x92722c85,
   0xa2bfe8a1, 0xa81a664b, 0xc24b8b70, 0xc76c51a3, 0xd192e819, 0xd6990624, 0xf40e3585, 0x106aa070,
   0x19a4c116, 0x1e376c08, 0x2748774c, 0x34b0bcb5, 0x391c0cb3, 0x4ed8aa4a, 0x5b9cca4f, 0x682e6ff3,
   0x748f82ee, 0x78a5636f, 0x84c87814, 0x8cc70208, 0x90befffa, 0xa4506ceb, 0xbef9a3f7, 0xc67178f2]

structure State where
  a : Nat
  b : Nat
  c : Nat
  d : Nat
  e : Nat
  f : Nat
  g : Nat
  h : Nat

def State.initial : State :=
  ⟨0x6a09e667, 0xbb67ae85, 0x3c6ef372, 0xa54ff53a, 0x510e527f, 0x9b05688c, 0x1f83d9ab, 0x5be0cd19⟩

def State.words (state : State) : List Nat :=
  [state.a, state.b, state.c, state.d, state.e, state.f, state.g, state.h]

def rotateRight (word count : Nat) : Nat :=
  (word >>> count) ||| (word <<< (32 - count)) % 2 ^ 32

def State.round (state : State) (constant word : Nat) : State :=
  let sum1 := rotateRight state.e 6 ^^^ rotateRight state.e 11 ^^^ rotateRight state.e 25
  let choice := (state.e &&& state.f) ^^^ ((2 ^ 32 - 1 - state.e) &&& state.g)
  let first := state.h + sum1 + choice + constant + word
  let sum0 := rotateRight state.a 2 ^^^ rotateRight state.a 13 ^^^ rotateRight state.a 22
  let majority := (state.a &&& state.b) ^^^ (state.a &&& state.c) ^^^ (state.b &&& state.c)
  ⟨(first + sum0 + majority) % 2 ^ 32, state.a, state.b, state.c,
    (state.d + first) % 2 ^ 32, state.e, state.f, state.g⟩

def schedule : Nat → List Nat → List Nat
  | 0, words => words
  | count + 1, words =>
      let near := words.getD 1 0
      let far := words.getD 14 0
      let sigma0 := rotateRight far 7 ^^^ rotateRight far 18 ^^^ (far >>> 3)
      let sigma1 := rotateRight near 17 ^^^ rotateRight near 19 ^^^ (near >>> 10)
      schedule count ((words.getD 15 0 + sigma0 + words.getD 6 0 + sigma1) % 2 ^ 32 :: words)

def blockWords : Nat → List UInt8 → List Nat
  | 0, _ => []
  | count + 1, bytes => fromBigEndian (bytes.take 4) :: blockWords count (bytes.drop 4)

def State.compress (state : State) (block : List UInt8) : State :=
  let words := (schedule 48 (blockWords 16 block).reverse).reverse
  let last := (roundConstants.zip words).foldl (fun state entry => state.round entry.1 entry.2) state
  ⟨(state.a + last.a) % 2 ^ 32, (state.b + last.b) % 2 ^ 32, (state.c + last.c) % 2 ^ 32,
    (state.d + last.d) % 2 ^ 32, (state.e + last.e) % 2 ^ 32, (state.f + last.f) % 2 ^ 32,
    (state.g + last.g) % 2 ^ 32, (state.h + last.h) % 2 ^ 32⟩

def padded (message : List UInt8) : List UInt8 :=
  message ++ 0x80 :: List.replicate ((119 - message.length % 64) % 64) 0
    ++ bigEndian 8 (8 * message.length)

def State.absorb : Nat → State → List UInt8 → State
  | 0, state, _ => state
  | count + 1, state, bytes => absorb count (state.compress (bytes.take 64)) (bytes.drop 64)

end Sha256

abbrev Block (width : Nat) := { bytes : List UInt8 // bytes.length = width }

def sha256 (message : List UInt8) : Block 32 :=
  let text := Sha256.padded message
  ⟨(Sha256.State.initial.absorb (text.length / 64) text).words.flatMap (bigEndian 4), by
    simp [Sha256.State.words, length_bigEndian]⟩

end GoSync
