import GoSync.Reconcile.Injective
import Mathlib.Algebra.BigOperators.Group.List.Basic
import Mathlib.Data.List.Induction
import Mathlib.Data.List.Perm.Basic

/-!
# Digests of multisets of rows

What a bucket accumulates are three totals over the rows assigned to it: how many there are, and the
exclusive or and the sum of their hashes. None of them depends on the order of the rows, and no hash depends
on the order of the columns.
-/

namespace GoSync.Reconcile

section Totals

theorem Accumulator.ext_totals {a b : Accumulator} (hrows : a.rows = b.rows)
    (hxor : fromBigEndian a.xor.val = fromBigEndian b.xor.val)
    (hsum : fromBigEndian a.sum.val = fromBigEndian b.sum.val) : a = b := by
  obtain ⟨rows, xor, sum⟩ := a
  obtain ⟨rows', xor', sum'⟩ := b
  have hxor := fromBigEndian_injective (xor.property.trans xor'.property.symm) hxor
  have hsum := fromBigEndian_injective (sum.property.trans sum'.property.symm) hsum
  rw [Accumulator.mk.injEq]
  exact ⟨hrows, Subtype.ext hxor, Subtype.ext hsum⟩

variable (a : Accumulator) (value : Block 32)

theorem Accumulator.add_xor :
    fromBigEndian (a.add value).xor.val = fromBigEndian a.xor.val ^^^ fromBigEndian value.val :=
  fromBigEndian_xorBytes (a.xor.property.trans value.property.symm)

theorem Accumulator.add_sum :
    fromBigEndian (a.add value).sum.val
      = (fromBigEndian a.sum.val + fromBigEndian value.val) % 2 ^ 256 := by
  have h := fromBigEndian_addBytes (a.sum.property.trans value.property.symm)
  have hwidth : 256 ^ a.sum.val.length = 2 ^ 256 := by
    rw [a.sum.property]
    norm_num
  rw [hwidth] at h
  exact h

theorem Accumulator.add_right_comm (other : Block 32) :
    (a.add value).add other = (a.add other).add value := by
  apply Accumulator.ext_totals
  · rfl
  · simp only [Accumulator.add_xor, Nat.xor_assoc, Nat.xor_comm (fromBigEndian value.val)]
  · simp only [Accumulator.add_sum, Nat.mod_add_mod, Nat.add_right_comm]

def total (values : List (Block 32)) : Accumulator :=
  values.foldl Accumulator.add .zero

theorem total_snoc (values : List (Block 32)) : total (values ++ [value]) = (total values).add value := by
  rw [total, List.foldl_append]
  rfl

theorem total_perm {values others : List (Block 32)} (h : values.Perm others) :
    total values = total others :=
  h.foldl_eq' (fun x _ y _ z => Accumulator.add_right_comm z x y) .zero

theorem total_rows (values : List (Block 32)) : (total values).rows = values.length := by
  induction values using List.reverseRecOn with
  | nil => rfl
  | append_singleton values value ih =>
      rw [total_snoc, List.length_append, List.length_singleton, ← ih]
      rfl

theorem total_xor (values : List (Block 32)) :
    fromBigEndian (total values).xor.val
      = (values.map fun value => fromBigEndian value.val).foldl (· ^^^ ·) 0 := by
  induction values using List.reverseRecOn with
  | nil => decide
  | append_singleton values value ih =>
      rw [total_snoc, Accumulator.add_xor, ih, List.map_append, List.foldl_append]
      rfl

theorem total_sum (values : List (Block 32)) :
    fromBigEndian (total values).sum.val
      = (values.map fun value => fromBigEndian value.val).sum % 2 ^ 256 := by
  induction values using List.reverseRecOn with
  | nil => decide
  | append_singleton values value ih =>
      rw [total_snoc, Accumulator.add_sum, ih, List.map_append, List.sum_append, Nat.mod_add_mod]
      simp

end Totals

section Rows

variable {rt : Runtime}

/-- A row that can be hashed: something identifies it, and its columns have different names. -/
structure Identified (row : Row) : Prop where
  identity : identityColumns row ≠ []
  columns : (row.columns.map Column.name).Nodup
  key : (row.key.map Column.name).Nodup

structure SameRow (row other : Row) : Prop where
  identity : row.identity = other.identity
  schema : row.schema = other.schema
  table : row.table = other.table
  columns : row.columns.Perm other.columns
  key : row.key.Perm other.key

def Rearranged (rows others : List Row) : Prop :=
  ∃ middle, rows.Perm middle ∧ List.Forall₂ SameRow middle others

theorem sortColumns_eq_of_perm {columns others : List Column} (hperm : columns.Perm others)
    (hnames : (columns.map Column.name).Nodup) : sortColumns columns = sortColumns others := by
  have hothers := (hperm.map Column.name).nodup_iff.mp hnames
  refine List.Perm.eq_of_pairwise ?_ (sortColumns_strict hnames) (sortColumns_strict hothers) ?_
  · intro a b _ _ hlt hgt
    exact absurd hlt hgt.asymm
  · exact (sortColumns_perm columns).trans (hperm.trans (sortColumns_perm others).symm)

theorem columnsBytes_perm {columns others : List Column} (hperm : columns.Perm others)
    (hnames : (columns.map Column.name).Nodup) : columnsBytes rt columns = columnsBytes rt others := by
  rw [columnsBytes, columnsBytes, sortColumns_eq_of_perm hperm hnames]

variable {row other : Row}

theorem SameRow.rowHash (h : SameRow row other) (hrow : Identified row) :
    Reconcile.rowHash rt row = Reconcile.rowHash rt other := by
  rw [Reconcile.rowHash, Reconcile.rowHash, rowBytes, rowBytes, h.schema, h.table,
    columnsBytes_perm h.columns hrow.columns]

theorem SameRow.identityColumns (h : SameRow row other) :
    (identityColumns row).Perm (identityColumns other) := by
  rw [Reconcile.identityColumns, Reconcile.identityColumns, ← h.identity]
  cases row.identity with
  | primaryKey => exact h.key
  | fullRow => exact h.columns

theorem Identified.identity_names (h : Identified row) :
    ((identityColumns row).map Column.name).Nodup := by
  rw [identityColumns]
  cases row.identity with
  | primaryKey => exact h.key
  | fullRow => exact h.columns

theorem SameRow.identified (h : SameRow row other) (hrow : Identified row) : Identified other where
  identity hnil := hrow.identity (hnil ▸ h.identityColumns).eq_nil
  columns := (h.columns.map Column.name).nodup_iff.mp hrow.columns
  key := (h.key.map Column.name).nodup_iff.mp hrow.key

def bucketOf (rt : Runtime) (buckets : Nat) (row : Row) : Nat :=
  fromBigEndian ((columnsHash rt (identityColumns row)).val.take 8) % buckets

theorem bucket_eq (hrow : Identified row) {buckets : Nat} (hbuckets : 0 < buckets) :
    bucket rt row buckets = .ok (bucketOf rt buckets row) := by
  rw [bucket, if_neg hbuckets.ne', if_neg hrow.identity]
  rfl

theorem bucketOf_lt {buckets : Nat} (hbuckets : 0 < buckets) (row : Row) :
    bucketOf rt buckets row < buckets :=
  Nat.mod_lt _ hbuckets

theorem SameRow.bucketOf (h : SameRow row other) (hrow : Identified row) (buckets : Nat) :
    Reconcile.bucketOf rt buckets row = Reconcile.bucketOf rt buckets other := by
  rw [Reconcile.bucketOf, Reconcile.bucketOf, columnsHash, columnsHash,
    columnsBytes_perm h.identityColumns hrow.identity_names]

end Rows

section Built

variable {rt : Runtime} {buckets : Nat} {rows others : List Row}

def assigned (rt : Runtime) (buckets index : Nat) (rows : List Row) : List Row :=
  rows.filter fun row => bucketOf rt buckets row = index

def built (rt : Runtime) (buckets : Nat) (rows : List Row) : List Accumulator :=
  (List.range buckets).map fun index => total ((assigned rt buckets index rows).map (rowHash rt))

theorem length_built : (built rt buckets rows).length = buckets := by
  rw [built, List.length_map, List.length_range]

variable {index : Nat}

theorem getElem_built (h : index < (built rt buckets rows).length) :
    (built rt buckets rows)[index] = total ((assigned rt buckets index rows).map (rowHash rt)) := by
  simp only [built, List.getElem_map, List.getElem_range]

theorem built_snoc (rows : List Row) (row : Row) :
    built rt buckets (rows ++ [row])
      = (built rt buckets rows).modify (bucketOf rt buckets row) (·.add (rowHash rt row)) := by
  apply List.ext_getElem
  · rw [List.length_modify, length_built, length_built]
  · intro index hindex hmodified
    rw [List.getElem_modify, getElem_built, getElem_built, assigned, List.filter_append, List.map_append]
    by_cases hbucket : bucketOf rt buckets row = index
    · rw [if_pos hbucket, List.filter_singleton, decide_eq_true hbucket, assigned]
      exact total_snoc _ _
    · rw [if_neg hbucket, List.filter_singleton, decide_eq_false hbucket, assigned]
      exact congrArg total (List.append_nil _)

theorem built_nil : built rt buckets [] = List.replicate buckets .zero := by
  rw [built, List.eq_replicate_iff]
  refine ⟨by rw [List.length_map, List.length_range], ?_⟩
  intro state hstate
  obtain ⟨index, -, rfl⟩ := List.mem_map.mp hstate
  rfl

theorem foldlM_add (hbuckets : 0 < buckets) (hrows : ∀ row ∈ rows, Identified row) :
    rows.foldlM (Builder.add rt) ⟨List.replicate buckets .zero⟩ = .ok ⟨built rt buckets rows⟩ := by
  induction rows using List.reverseRecOn with
  | nil =>
      rw [built_nil]
      rfl
  | append_singleton rows row ih =>
      have hrow := hrows row (List.mem_append_right _ List.mem_cons_self)
      have ih := ih fun other hother => hrows other (List.mem_append_left _ hother)
      rw [List.foldlM_append, ih, Except.ok_bind, List.foldlM_cons, Builder.add, length_built,
        bucket_eq hrow hbuckets, Except.ok_bind, built_snoc]
      rfl

theorem digests_eq (hbuckets : 0 < buckets) (hrows : ∀ row ∈ rows, Identified row) :
    digests rt rows buckets = .ok (Builder.digests ⟨built rt buckets rows⟩) := by
  rw [digests, newBuilder, if_neg hbuckets.ne', Except.ok_bind, foldlM_add hbuckets hrows]
  rfl

theorem built_perm (h : rows.Perm others) : built rt buckets rows = built rt buckets others := by
  apply List.map_congr_left
  intro index _
  exact total_perm ((h.filter _).map (rowHash rt))

theorem built_same (h : List.Forall₂ SameRow rows others) (hrows : ∀ row ∈ rows, Identified row) :
    built rt buckets rows = built rt buckets others := by
  apply List.map_congr_left
  intro index _
  apply congrArg total
  induction h with
  | nil => rfl
  | @cons row other rows others hsame _ ih =>
      rw [List.forall_mem_cons] at hrows
      have ih := ih hrows.2
      unfold assigned at ih ⊢
      rw [List.filter_cons, List.filter_cons, ← hsame.bucketOf hrows.1]
      split
      · rw [List.map_cons, List.map_cons, ih, hsame.rowHash hrows.1]
      · exact ih

theorem Rearranged.identified (h : Rearranged rows others) (hrows : ∀ row ∈ rows, Identified row) :
    ∀ row ∈ others, Identified row := by
  obtain ⟨middle, hperm, hsame⟩ := h
  have hmiddle : ∀ row ∈ middle, Identified row := fun row hrow => hrows row (hperm.mem_iff.mpr hrow)
  clear hperm
  induction hsame with
  | nil => exact List.forall_mem_nil _
  | cons hsame _ ih =>
      rw [List.forall_mem_cons] at hmiddle ⊢
      exact ⟨hsame.identified hmiddle.1, ih hmiddle.2⟩

theorem Rearranged.built (h : Rearranged rows others) (hrows : ∀ row ∈ rows, Identified row) :
    Reconcile.built rt buckets rows = Reconcile.built rt buckets others := by
  obtain ⟨middle, hperm, hsame⟩ := h
  have hmiddle : ∀ row ∈ middle, Identified row := fun row hrow => hrows row (hperm.mem_iff.mpr hrow)
  exact (built_perm hperm).trans (built_same hsame hmiddle)

theorem built_snoc_rows (rows : List Row) (row : Row) :
    (built rt buckets (rows ++ [row])).map Accumulator.rows
      = ((built rt buckets rows).map Accumulator.rows).modify (bucketOf rt buckets row) (· + 1) := by
  rw [built_snoc]
  apply List.ext_getElem
  · simp only [List.length_map, List.length_modify]
  · intro index _ _
    simp only [List.getElem_map, List.getElem_modify]
    split <;> rfl

theorem sum_modify_succ {counts : List Nat} (h : index < counts.length) :
    (counts.modify index (· + 1)).sum = counts.sum + 1 := by
  induction counts generalizing index with
  | nil => exact absurd h (Nat.not_lt_zero _)
  | cons count counts ih =>
      cases index with
      | zero =>
          rw [List.modify_zero_cons, List.sum_cons, List.sum_cons]
          omega
      | succ index =>
          rw [List.modify_succ_cons, List.sum_cons, List.sum_cons, ih (Nat.lt_of_succ_lt_succ h)]
          omega

theorem sum_built_rows (hbuckets : 0 < buckets) (rows : List Row) :
    ((built rt buckets rows).map Accumulator.rows).sum = rows.length := by
  induction rows using List.reverseRecOn with
  | nil =>
      rw [built_nil, List.map_replicate, List.sum_replicate]
      exact Nat.mul_zero _
  | append_singleton rows row ih =>
      have hindex : bucketOf rt buckets row < ((built rt buckets rows).map Accumulator.rows).length := by
        rw [List.length_map, length_built]
        exact bucketOf_lt hbuckets row
      rw [built_snoc_rows, sum_modify_succ hindex, ih, List.length_append, List.length_singleton]

theorem map_rows_digests (b : Builder) :
    b.digests.map Digest.rows = b.states.map Accumulator.rows := by
  apply List.ext_getElem
  · simp only [Builder.digests, List.length_map, List.length_mapIdx]
  · intro index _ _
    simp only [Builder.digests, List.getElem_map, List.getElem_mapIdx]

theorem digests_getElem (b : Builder) (h : index < b.digests.length) :
    b.digests[index].bucket = index := by
  simp only [Builder.digests, List.getElem_mapIdx]

theorem built_insert (front back : List Row) (row : Row) :
    built rt buckets (front ++ row :: back) = built rt buckets (front ++ back ++ [row]) := by
  apply built_perm
  exact List.perm_middle.trans (List.perm_append_singleton row (front ++ back)).symm

end Built

/-- `Digests` is a function of the multiset of rows. It returns the buckets in order; each counts the rows
assigned to it and has the exclusive or of their hashes and their sum modulo `2 ^ 256`; the order of rows and
of columns is of no account, and one more row adds one to the count of its own bucket. -/
theorem digests_of_multiset (rt : Runtime) {buckets : Nat} (hbuckets : 0 < buckets) {rows : List Row}
    (hrows : ∀ row ∈ rows, Identified row) :
    ∃ states : List Accumulator,
      digests rt rows buckets = .ok (Builder.digests ⟨states⟩)
        ∧ (Builder.digests ⟨states⟩).map Digest.bucket = List.range buckets
        ∧ ((Builder.digests ⟨states⟩).map Digest.rows).sum = rows.length
        ∧ (∀ index state, states[index]? = some state →
            let hashes := (rows.filter fun row => bucket rt row buckets = .ok index).map fun row =>
              fromBigEndian (rowHash rt row).val
            state.rows = hashes.length
              ∧ fromBigEndian state.xor.val = hashes.foldl (· ^^^ ·) 0
              ∧ fromBigEndian state.sum.val = hashes.sum % 2 ^ 256)
        ∧ (∀ others, Rearranged rows others → digests rt others buckets = digests rt rows buckets)
        ∧ ∀ front back row, rows = front ++ back → Identified row →
            ∃ index < buckets, ∃ after,
              bucket rt row buckets = .ok index
                ∧ digests rt (front ++ row :: back) buckets = .ok after
                ∧ after.map Digest.rows
                  = ((Builder.digests ⟨states⟩).map Digest.rows).modify index (· + 1) := by
  refine ⟨built rt buckets rows, digests_eq hbuckets hrows, ?_, ?_, ?_, ?_, ?_⟩
  · apply List.ext_getElem
    · simp only [Builder.digests, List.length_map, List.length_mapIdx, List.length_range, length_built]
    · intro index _ _
      simp only [List.getElem_map, digests_getElem, List.getElem_range]
  · rw [map_rows_digests]
    exact sum_built_rows hbuckets rows
  · intro index state hstate
    dsimp only
    obtain ⟨hindex, rfl⟩ := List.getElem?_eq_some_iff.mp hstate
    have hassigned : rows.filter (fun row => bucket rt row buckets = .ok index)
        = assigned rt buckets index rows := by
      apply List.filter_congr
      intro row hrow
      simp only [bucket_eq (hrows row hrow) hbuckets, Except.ok.injEq]
    rw [getElem_built, hassigned, List.length_map]
    have hhashes : (assigned rt buckets index rows).map (fun row => fromBigEndian (rowHash rt row).val)
        = ((assigned rt buckets index rows).map (rowHash rt)).map fun value => fromBigEndian value.val := by
      simp only [List.map_map, Function.comp_def]
    rw [hhashes]
    refine ⟨?_, total_xor _, total_sum _⟩
    rw [total_rows, List.length_map]
  · intro others hothers
    rw [digests_eq hbuckets hrows, digests_eq hbuckets (hothers.identified hrows), hothers.built hrows]
  · intro front back row hsplit hrow
    have hall : ∀ other ∈ front ++ row :: back, Identified other := by
      intro other hother
      rcases List.mem_append.mp hother with hfront | hback
      · exact hrows other (hsplit ▸ List.mem_append_left _ hfront)
      · rcases List.mem_cons.mp hback with rfl | hback
        · exact hrow
        · exact hrows other (hsplit ▸ List.mem_append_right _ hback)
    refine ⟨bucketOf rt buckets row, bucketOf_lt hbuckets row, _, bucket_eq hrow hbuckets,
      digests_eq hbuckets hall, ?_⟩
    rw [map_rows_digests, map_rows_digests, built_insert, built_snoc_rows, hsplit]

def keyedRow (id : String) : Row where
  schema := "app"
  table := "items"
  operation := .read
  key := [{ name := "id", value := some id }]
  columns := [{ name := "id", value := some id }, { name := "note", value := none }]

theorem digests_of_two_rows :
    digests Runtime.plain [keyedRow "2", { keyedRow "1" with columns := (keyedRow "1").columns.reverse }] 16
      = digests Runtime.plain [keyedRow "1", keyedRow "2"] 16 := by
  have hrows : ∀ row ∈ [keyedRow "1", keyedRow "2"], Identified row := by
    intro row hrow
    simp only [List.mem_cons, List.not_mem_nil, or_false] at hrow
    rcases hrow with rfl | rfl
    · exact ⟨by decide, by decide, by decide⟩
    · exact ⟨by decide, by decide, by decide⟩
  obtain ⟨states, -, -, -, -, horder, -⟩ := digests_of_multiset Runtime.plain (by decide : 0 < 16) hrows
  apply horder
  refine ⟨[keyedRow "2", keyedRow "1"], List.Perm.swap _ _ _, ?_⟩
  refine .cons ⟨rfl, rfl, rfl, .refl _, .refl _⟩ (.cons ⟨rfl, rfl, rfl, ?_, .refl _⟩ .nil)
  exact (List.reverse_perm _).symm

end GoSync.Reconcile
