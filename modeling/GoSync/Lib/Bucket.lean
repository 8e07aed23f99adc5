import Mathlib.Algebra.Order.BigOperators.Group.List
import Mathlib.Data.List.Basic
import Mathlib.Tactic.Linarith

/-!
# Ordered buckets

A bucket is a key-value map kept in key order, as an embedded B+tree database hands it to a cursor:
here the list of its entries. The interesting buckets are the ones whose keys are consecutive,
`numbered start values`; on those, every operation is an operation on the list of values, and the
lemmas below say which.
-/

variable {α β : Type}

abbrev Bucket (α : Type) := List (Nat × α)

namespace Bucket

def get (bucket : Bucket α) (key : Nat) : Option α :=
  bucket.lookup key

def put : Bucket α → Nat → α → Bucket α
  | [], key, value => [(key, value)]
  | (k, v) :: rest, key, value =>
      if key < k then (key, value) :: (k, v) :: rest
      else if key = k then (key, value) :: rest
      else (k, v) :: put rest key value

def delete (bucket : Bucket α) (key : Nat) : Bucket α :=
  bucket.filter fun entry => entry.1 ≠ key

def seek (bucket : Bucket α) (key : Nat) : Bucket α :=
  bucket.filter fun entry => key ≤ entry.1

def keys (bucket : Bucket α) : List Nat :=
  bucket.map Prod.fst

/-- The total weight of the entries whose key satisfies `keep`. -/
def weight (size : α → Nat) (bucket : Bucket α) (keep : Nat → Bool) : Nat :=
  ((bucket.filter fun entry => keep entry.1).map fun entry => size entry.2).sum

def numbered : Nat → List α → Bucket α
  | _, [] => []
  | start, value :: rest => (start, value) :: numbered (start + 1) rest

@[simp]
theorem numbered_nil (start : Nat) : numbered start ([] : List α) = [] := rfl

theorem numbered_cons (start : Nat) (value : α) (rest : List α) :
    numbered start (value :: rest) = (start, value) :: numbered (start + 1) rest := rfl

theorem numbered_append (start : Nat) (front back : List α) :
    numbered start (front ++ back)
      = numbered start front ++ numbered (start + front.length) back := by
  induction front generalizing start with
  | nil => simp
  | cons value front ih =>
      rw [List.cons_append, numbered_cons, numbered_cons, ih]
      simp only [List.length_cons, List.cons_append]
      rw [show start + 1 + front.length = start + (front.length + 1) by omega]

theorem keys_numbered (start : Nat) (values : List α) :
    (numbered start values).keys = List.range' start values.length := by
  induction values generalizing start with
  | nil => rfl
  | cons value rest ih =>
      simp only [numbered_cons, keys, List.map_cons, List.length_cons, List.range'_succ]
      exact congrArg (start :: ·) (ih (start + 1))

theorem mem_numbered {start key : Nat} {values : List α} {value : α}
    (hmem : (key, value) ∈ numbered start values) :
    start ≤ key ∧ key < start + values.length := by
  have hkey : key ∈ (numbered start values).keys := List.mem_map_of_mem hmem
  rw [keys_numbered, List.mem_range'_1] at hkey
  exact hkey

theorem map_snd_numbered (start : Nat) (values : List α) :
    (numbered start values).map Prod.snd = values := by
  induction values generalizing start with
  | nil => rfl
  | cons value rest ih => rw [numbered_cons, List.map_cons, ih]

theorem eq_numbered {bucket : Bucket α} {start count : Nat}
    (hkeys : bucket.keys = List.range' start count) :
    bucket = numbered start (bucket.map Prod.snd) := by
  induction bucket generalizing start count with
  | nil => rfl
  | cons entry bucket ih =>
      cases count with
      | zero => cases hkeys
      | succ count =>
          rw [List.range'_succ, keys, List.map_cons, List.cons.injEq] at hkeys
          obtain ⟨hkey, hrest⟩ := hkeys
          rw [List.map_cons, numbered_cons, ← ih hrest, ← hkey]

theorem get_numbered (start key : Nat) (values : List α) :
    (numbered start values).get key = if start ≤ key then values[key - start]? else none := by
  induction values generalizing start with
  | nil => simp [get]
  | cons value rest ih =>
      by_cases heq : key = start
      · subst heq
        simp [numbered_cons, get]
      · have hrest : (numbered start (value :: rest)).get key
            = (numbered (start + 1) rest).get key := by
          have hne : (key == start) = false := by simpa using heq
          simp only [numbered_cons, get, List.lookup_cons, hne]
        rw [hrest, ih]
        by_cases hle : start ≤ key
        · obtain ⟨gap, rfl⟩ : ∃ gap, key = start + 1 + gap := ⟨key - start - 1, by omega⟩
          rw [if_pos (by omega), if_pos hle, show start + 1 + gap - start = gap + 1 by omega,
            List.getElem?_cons_succ, Nat.add_sub_cancel_left]
        · rw [if_neg (by omega), if_neg hle]

theorem put_numbered_end (start : Nat) (values : List α) (value : α) :
    (numbered start values).put (start + values.length) value
      = numbered start (values ++ [value]) := by
  induction values generalizing start with
  | nil => simp [put, numbered_cons]
  | cons head rest ih =>
      rw [List.cons_append, numbered_cons, numbered_cons, put, if_neg (by simp), if_neg (by simp),
        ← ih, List.length_cons, show start + (rest.length + 1) = start + 1 + rest.length by omega]

theorem put_numbered_set (start offset : Nat) (values : List α) (value : α)
    (hoffset : offset < values.length) :
    (numbered start values).put (start + offset) value
      = numbered start (values.set offset value) := by
  induction values generalizing start offset with
  | nil => simp at hoffset
  | cons head rest ih =>
      cases offset with
      | zero => simp [numbered_cons, put]
      | succ offset =>
          rw [List.set_cons_succ, numbered_cons, numbered_cons, put, if_neg (by omega),
            if_neg (by omega), ← ih (start + 1) offset (by simpa using hoffset),
            show start + (offset + 1) = start + 1 + offset by omega]

theorem delete_of_notMem {bucket : Bucket α} {key : Nat} (hkey : ∀ entry ∈ bucket, entry.1 ≠ key) :
    bucket.delete key = bucket := by
  rw [delete, List.filter_eq_self]
  intro entry hmem
  simpa using hkey entry hmem

theorem delete_numbered_head (start : Nat) (value : α) (rest : List α) :
    (numbered start (value :: rest)).delete start = numbered (start + 1) rest := by
  have hrest : (numbered (start + 1) rest).delete start = numbered (start + 1) rest := by
    apply delete_of_notMem
    rintro ⟨key, v⟩ hmem
    have := mem_numbered hmem
    simp only
    omega
  rw [numbered_cons, delete, List.filter_cons_of_neg (by simp)]
  exact hrest

theorem filter_lt_numbered (start offset : Nat) (values : List α) :
    (numbered start values).filter (fun entry => entry.1 < start + offset)
      = numbered start (values.take offset) := by
  induction values generalizing start offset with
  | nil => simp
  | cons value rest ih =>
      cases offset with
      | zero =>
          rw [List.take_zero, numbered_nil, List.filter_eq_nil_iff]
          rintro ⟨key, v⟩ hmem
          have := mem_numbered hmem
          simp only [decide_eq_true_eq]
          omega
      | succ offset =>
          rw [numbered_cons, List.filter_cons_of_pos (by simp), List.take_succ_cons, numbered_cons,
            ← ih (start + 1) offset]
          simp only [show start + (offset + 1) = start + 1 + offset by omega]

theorem seek_numbered (start offset : Nat) (values : List α) :
    (numbered start values).seek (start + offset)
      = numbered (start + offset) (values.drop offset) := by
  induction values generalizing start offset with
  | nil => simp [seek]
  | cons value rest ih =>
      cases offset with
      | zero =>
          rw [seek, List.filter_eq_self.mpr]
          · simp
          · rintro ⟨key, v⟩ hmem
            have := mem_numbered hmem
            simp only [decide_eq_true_eq]
            omega
      | succ offset =>
          rw [List.drop_succ_cons, numbered_cons, seek, List.filter_cons_of_neg (by simp),
            show start + (offset + 1) = start + 1 + offset by omega]
          exact ih (start + 1) offset

/-- Deleting from a cursor on leaves the front. -/
theorem foldl_delete_seek (start offset : Nat) (values : List α) :
    ((numbered start values).seek (start + offset)).foldl
        (fun bucket entry => bucket.delete entry.1) (numbered start values)
      = numbered start (values.take offset) := by
  have hfold : ∀ (visited : Bucket α) (bucket : Bucket α),
      visited.foldl (fun bucket entry => bucket.delete entry.1) bucket
        = bucket.filter fun entry => entry.1 ∉ visited.keys := by
    intro visited
    induction visited with
    | nil => intro bucket; simp [keys]
    | cons head rest ih =>
        intro bucket
        rw [List.foldl_cons, ih, delete, List.filter_filter]
        refine List.filter_congr fun entry _ => ?_
        rw [Bool.eq_iff_iff, Bool.and_eq_true, decide_eq_true_eq, decide_eq_true_eq,
          decide_eq_true_eq, keys, keys, List.map_cons, List.mem_cons, not_or]
        exact and_comm
  rw [hfold, ← filter_lt_numbered, seek_numbered]
  refine List.filter_congr ?_
  rintro ⟨key, value⟩ hmem
  have hrange := mem_numbered hmem
  rw [keys_numbered]
  simp only [List.mem_range'_1, List.length_drop, decide_eq_decide]
  omega

theorem weight_numbered_all (size : α → Nat) (start : Nat) (values : List α) (keep : Nat → Bool)
    (hkeep : ∀ key, start ≤ key → key < start + values.length → keep key = true) :
    (numbered start values).weight size keep = (values.map size).sum := by
  induction values generalizing start with
  | nil => rfl
  | cons value rest ih =>
      have hhead : keep start = true := hkeep start le_rfl (by simp)
      have htail := ih (start + 1) fun key hlow hhigh =>
        hkeep key (by omega) (by rw [List.length_cons]; omega)
      simp only [weight, numbered_cons, List.filter_cons, hhead, if_true, List.map_cons,
        List.sum_cons]
      rw [← htail]
      rfl

theorem weight_numbered_none (size : α → Nat) (start : Nat) (values : List α) (keep : Nat → Bool)
    (hkeep : ∀ key, start ≤ key → key < start + values.length → keep key = false) :
    (numbered start values).weight size keep = 0 := by
  have hnil : (numbered start values).filter (fun entry => keep entry.1) = [] := by
    rw [List.filter_eq_nil_iff]
    rintro ⟨key, value⟩ hmem
    have hrange := mem_numbered hmem
    simp [hkeep key hrange.1 hrange.2]
  simp [weight, hnil]

theorem weight_append (size : α → Nat) (front back : Bucket α) (keep : Nat → Bool) :
    (front ++ back : Bucket α).weight size keep
      = front.weight size keep + back.weight size keep := by
  simp [weight]

end Bucket
