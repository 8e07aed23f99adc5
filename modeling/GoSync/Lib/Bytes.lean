import Mathlib.Algebra.Order.Group.Nat
import Mathlib.Data.List.Basic
import Mathlib.Data.Nat.Bitwise
import Mathlib.Tactic.Ring

/-!
# Bytes

Numbers as bytes with the highest one first, arithmetic on such numbers of a fixed width, and sequences of
byte strings that are written one after the other, each behind its length.
-/

namespace GoSync

variable {xs ys : List UInt8}

section Numbers

def bigEndian : Nat → Nat → List UInt8
  | 0, _ => []
  | width + 1, value => bigEndian width (value / 256) ++ [UInt8.ofNat (value % 256)]

def fromBigEndian (bytes : List UInt8) : Nat :=
  bytes.foldl (fun value byte => value * 256 + byte.toNat) 0

theorem fromBigEndian_bigEndian (width value : Nat) (h : value < 256 ^ width) :
    fromBigEndian (bigEndian width value) = value := by
  induction width generalizing value with
  | zero =>
      rw [Nat.pow_zero] at h
      obtain rfl : value = 0 := by omega
      rfl
  | succ width ih =>
      have hhigh : value / 256 < 256 ^ width := Nat.div_lt_of_lt_mul (by rw [Nat.mul_comm]; exact h)
      have hrec := ih (value / 256) hhigh
      unfold fromBigEndian at hrec ⊢
      rw [bigEndian, List.foldl_append, hrec, List.foldl_cons, List.foldl_nil, UInt8.toNat_ofNat_of_lt']
      · exact Nat.div_add_mod' _ _
      · exact Nat.mod_lt _ (by decide)

theorem length_bigEndian (width value : Nat) : (bigEndian width value).length = width := by
  induction width generalizing value with
  | zero => rfl
  | succ width ih => rw [bigEndian, List.length_append, ih, List.length_singleton]

theorem fromBigEndian_cons (byte : UInt8) (bytes : List UInt8) :
    fromBigEndian (byte :: bytes) = byte.toNat * 256 ^ bytes.length + fromBigEndian bytes := by
  have hstart : ∀ start, bytes.foldl (fun value byte => value * 256 + byte.toNat) start
      = start * 256 ^ bytes.length + fromBigEndian bytes := by
    induction bytes with
    | nil => intro start; simp [fromBigEndian]
    | cons byte bytes ih =>
        intro start
        rw [fromBigEndian, List.foldl_cons, List.foldl_cons, ih, ih (0 * 256 + _), List.length_cons]
        ring
  rw [fromBigEndian, List.foldl_cons, hstart, Nat.zero_mul, Nat.zero_add]

theorem fromBigEndian_lt (bytes : List UInt8) : fromBigEndian bytes < 256 ^ bytes.length := by
  induction bytes with
  | nil => decide
  | cons byte bytes ih =>
      rw [fromBigEndian_cons, List.length_cons]
      have hbyte : byte.toNat < 256 := byte.toNat_lt
      calc byte.toNat * 256 ^ bytes.length + fromBigEndian bytes
          < byte.toNat * 256 ^ bytes.length + 256 ^ bytes.length := by omega
        _ = (byte.toNat + 1) * 256 ^ bytes.length := by ring
        _ ≤ 256 * 256 ^ bytes.length := Nat.mul_le_mul_right _ hbyte
        _ = 256 ^ (bytes.length + 1) := by ring

theorem fromBigEndian_injective (hlength : xs.length = ys.length)
    (h : fromBigEndian xs = fromBigEndian ys) : xs = ys := by
  induction xs generalizing ys with
  | nil => exact (List.length_eq_zero_iff.mp hlength.symm).symm
  | cons x xs ih =>
      obtain _ | ⟨y, ys⟩ := ys
      · cases hlength
      have hlength : xs.length = ys.length := Nat.succ.inj hlength
      rw [fromBigEndian_cons, fromBigEndian_cons, hlength] at h
      have hx := fromBigEndian_lt xs
      have hy := fromBigEndian_lt ys
      rw [hlength] at hx
      have hhigh : x.toNat = y.toNat := by
        have hdiv := congrArg (· / 256 ^ ys.length) h
        simpa [Nat.mul_add_div, Nat.mul_comm, Nat.div_eq_of_lt hx, Nat.div_eq_of_lt hy] using hdiv
      rw [hhigh] at h
      rw [UInt8.toNat_inj.mp hhigh, ih hlength (by omega)]

end Numbers

section Arithmetic

def addBytes : List UInt8 → List UInt8 → List UInt8 × Nat
  | x :: xs, y :: ys =>
      let (rest, carry) := addBytes xs ys
      let total := x.toNat + y.toNat + carry
      (UInt8.ofNat (total % 256) :: rest, total / 256)
  | _, _ => ([], 0)

def xorBytes (xs ys : List UInt8) : List UInt8 :=
  List.zipWith (· ^^^ ·) xs ys

theorem length_addBytes (h : xs.length = ys.length) :
    (addBytes xs ys).1.length = xs.length := by
  induction xs generalizing ys with
  | nil => rfl
  | cons x xs ih =>
      obtain _ | ⟨y, ys⟩ := ys
      · cases h
      · rw [addBytes, List.length_cons, ih (Nat.succ.inj h), List.length_cons]

/-- Addition with carry, on the numbers that the bytes stand for. -/
theorem addBytes_carry (h : xs.length = ys.length) :
    fromBigEndian (addBytes xs ys).1 + (addBytes xs ys).2 * 256 ^ xs.length
      = fromBigEndian xs + fromBigEndian ys := by
  induction xs generalizing ys with
  | nil =>
      obtain rfl := List.length_eq_zero_iff.mp h.symm
      rfl
  | cons x xs ih =>
      obtain _ | ⟨y, ys⟩ := ys
      · cases h
      have h : xs.length = ys.length := Nat.succ.inj h
      have hrest := ih h
      have hbyte : ∀ total, (UInt8.ofNat (total % 256)).toNat = total % 256 := fun total =>
        UInt8.toNat_ofNat_of_lt' (Nat.mod_lt _ (by decide))
      rw [addBytes]
      dsimp only
      rw [fromBigEndian_cons, fromBigEndian_cons, fromBigEndian_cons, length_addBytes h, hbyte,
        List.length_cons, ← h]
      generalize (addBytes xs ys).2 = carry at hrest ⊢
      have htotal := Nat.mod_add_div (x.toNat + y.toNat + carry) 256
      calc (x.toNat + y.toNat + carry) % 256 * 256 ^ xs.length + fromBigEndian (addBytes xs ys).1
            + (x.toNat + y.toNat + carry) / 256 * 256 ^ (xs.length + 1)
          = ((x.toNat + y.toNat + carry) % 256 + 256 * ((x.toNat + y.toNat + carry) / 256))
              * 256 ^ xs.length + fromBigEndian (addBytes xs ys).1 := by ring
        _ = (x.toNat + y.toNat) * 256 ^ xs.length
              + (fromBigEndian (addBytes xs ys).1 + carry * 256 ^ xs.length) := by rw [htotal]; ring
        _ = x.toNat * 256 ^ xs.length + fromBigEndian xs
              + (y.toNat * 256 ^ xs.length + fromBigEndian ys) := by rw [hrest]; ring

theorem fromBigEndian_addBytes (h : xs.length = ys.length) :
    fromBigEndian (addBytes xs ys).1 = (fromBigEndian xs + fromBigEndian ys) % 256 ^ xs.length := by
  have hlt := fromBigEndian_lt (addBytes xs ys).1
  rw [length_addBytes h] at hlt
  rw [← addBytes_carry h, Nat.add_mul_mod_self_right, Nat.mod_eq_of_lt hlt]

theorem length_xorBytes (h : xs.length = ys.length) :
    (xorBytes xs ys).length = xs.length := by
  rw [xorBytes, List.length_zipWith, ← h, Nat.min_self]

theorem xor_mul_add {a b x y k : Nat} (hx : x < 2 ^ k) (hy : y < 2 ^ k) :
    (a * 2 ^ k + x) ^^^ (b * 2 ^ k + y) = (a ^^^ b) * 2 ^ k + (x ^^^ y) := by
  have hxy : x ^^^ y < 2 ^ k := Nat.xor_lt_two_pow hx hy
  have hdiv : ∀ m n, n < 2 ^ k → (m * 2 ^ k + n) / 2 ^ k = m := by
    intro m n hn
    rw [Nat.mul_comm, Nat.mul_add_div (Nat.two_pow_pos k), Nat.div_eq_of_lt hn, Nat.add_zero]
  have hmod : ∀ m n, n < 2 ^ k → (m * 2 ^ k + n) % 2 ^ k = n := by
    intro m n hn
    rw [Nat.mul_add_mod_self_right, Nat.mod_eq_of_lt hn]
  rw [← Nat.div_add_mod' ((a * 2 ^ k + x) ^^^ (b * 2 ^ k + y)) (2 ^ k), Nat.xor_div_two_pow,
    Nat.xor_mod_two_pow, hdiv a x hx, hdiv b y hy, hmod a x hx, hmod b y hy]

theorem fromBigEndian_xorBytes (h : xs.length = ys.length) :
    fromBigEndian (xorBytes xs ys) = fromBigEndian xs ^^^ fromBigEndian ys := by
  induction xs generalizing ys with
  | nil =>
      obtain rfl := List.length_eq_zero_iff.mp h.symm
      rfl
  | cons x xs ih =>
      obtain _ | ⟨y, ys⟩ := ys
      · cases h
      have h : xs.length = ys.length := Nat.succ.inj h
      have hpow : 256 ^ xs.length = 2 ^ (8 * xs.length) := by rw [Nat.pow_mul]
      have hx := fromBigEndian_lt xs
      have hy := fromBigEndian_lt ys
      rw [← h, hpow] at hy
      rw [hpow] at hx
      change fromBigEndian ((x ^^^ y) :: xorBytes xs ys) = _
      rw [fromBigEndian_cons, fromBigEndian_cons, fromBigEndian_cons, length_xorBytes h, ih h, ← h, hpow,
        xor_mul_add hx hy, UInt8.toNat_xor]

end Arithmetic

section Parts

/-- A part of a sequence on the wire: eight bytes for its length and its bytes. The part that is absent has
the largest length and no bytes. -/
def writePart : Option (List UInt8) → List UInt8
  | none => bigEndian 8 (2 ^ 64 - 1)
  | some bytes => bigEndian 8 bytes.length ++ bytes

def Fits (part : Option (List UInt8)) : Prop :=
  ∀ bytes ∈ part, bytes.length < 2 ^ 64 - 1

def partLength : Option (List UInt8) → Nat
  | none => 2 ^ 64 - 1
  | some bytes => bytes.length

theorem writePart_eq (part : Option (List UInt8)) :
    writePart part = bigEndian 8 (partLength part) ++ part.getD [] := by
  cases part with
  | none => exact (List.append_nil _).symm
  | some bytes => rfl

theorem Fits.length_lt {part : Option (List UInt8)} (h : Fits part) : partLength part < 256 ^ 8 := by
  cases part with
  | none => decide
  | some bytes => exact (h bytes rfl).trans (by decide)

theorem writePart_append_injective {left right : Option (List UInt8)}
    (hleft : Fits left) (hright : Fits right) (h : writePart left ++ xs = writePart right ++ ys) :
    left = right ∧ xs = ys := by
  rw [writePart_eq, writePart_eq, List.append_assoc, List.append_assoc] at h
  have hheader : (bigEndian 8 (partLength left)).length = (bigEndian 8 (partLength right)).length := by
    rw [length_bigEndian, length_bigEndian]
  obtain ⟨hheader, hrest⟩ := List.append_inj h hheader
  have hlength := congrArg fromBigEndian hheader
  rw [fromBigEndian_bigEndian 8 _ hleft.length_lt, fromBigEndian_bigEndian 8 _ hright.length_lt] at hlength
  cases left with
  | none =>
      cases right with
      | none => exact ⟨rfl, hrest⟩
      | some bytes => exact absurd hlength (hright bytes rfl).ne'
  | some bytes =>
      cases right with
      | none => exact absurd hlength (hleft bytes rfl).ne
      | some other =>
          have hrest : bytes ++ xs = other ++ ys := hrest
          obtain ⟨rfl, htail⟩ := List.append_inj hrest hlength
          exact ⟨rfl, htail⟩

theorem writeParts_injective {parts others : List (Option (List UInt8))} (hparts : ∀ part ∈ parts, Fits part)
    (hothers : ∀ part ∈ others, Fits part) (h : parts.flatMap writePart = others.flatMap writePart) :
    parts = others := by
  have hnonempty : ∀ part rest, [] ≠ writePart part ++ rest := by
    intro part rest hnil
    have hlength := congrArg List.length hnil
    rw [writePart_eq, List.append_assoc, List.length_append, length_bigEndian] at hlength
    exact absurd hlength (by simp only [List.length_nil]; omega)
  induction parts generalizing others with
  | nil =>
      cases others with
      | nil => rfl
      | cons other others => exact absurd h (hnonempty _ _)
  | cons part parts ih =>
      cases others with
      | nil => exact absurd h.symm (hnonempty _ _)
      | cons other others =>
          rw [List.forall_mem_cons] at hparts hothers
          obtain ⟨rfl, hrest⟩ := writePart_append_injective hparts.1 hothers.1 h
          rw [ih hparts.2 hothers.2 hrest]

end Parts

end GoSync
