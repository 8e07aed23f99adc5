import Mathlib.Algebra.BigOperators.Group.List.Basic
import Mathlib.Algebra.Order.Group.Nat
import Mathlib.Algebra.Ring.Nat
import Mathlib.Data.List.Induction

/-!
# Chunking under two limits

Items are collected in a buffer. The buffer is cut off as a chunk before an item that would make it too
heavy, and after an item that fills it. Between two items the buffer is below both limits, so a cut on
their number before an item would never happen.
-/

namespace Chunking

variable {α : Type}

structure Limits where
  rows : Nat
  bytes : Nat

structure Chunker (α : Type) where
  chunks : List (List α) := []
  rows : List α := []
  size : Nat := 0

namespace Chunker

def flush (c : Chunker α) : Chunker α :=
  if c.rows = [] then c else { chunks := c.chunks ++ [c.rows] }

def makeRoom (limits : Limits) (size : Nat) (c : Chunker α) : Chunker α :=
  if c.rows ≠ [] ∧ c.size + size > limits.bytes then c.flush else c

def push (row : α) (size : Nat) (c : Chunker α) : Chunker α :=
  { c with rows := c.rows ++ [row], size := c.size + size }

def flushFull (limits : Limits) (c : Chunker α) : Chunker α :=
  if c.rows.length ≥ limits.rows ∨ c.size ≥ limits.bytes then c.flush else c

def add (limits : Limits) (weight : α → Nat) (c : Chunker α) (row : α) : Chunker α :=
  ((c.makeRoom limits (weight row)).push row (weight row)).flushFull limits

end Chunker

variable {limits : Limits} {weight : α → Nat}

/-- A chunk is within the limits; one item alone may be too heavy. -/
structure Within (limits : Limits) (weight : α → Nat) (chunk : List α) : Prop where
  nonempty : chunk ≠ []
  rows : chunk.length ≤ limits.rows
  bytes : chunk.length = 1 ∨ (chunk.map weight).sum ≤ limits.bytes

def Room (limits : Limits) (c : Chunker α) : Prop :=
  c.rows = [] ∨ (c.rows.length < limits.rows ∧ c.size < limits.bytes)

structure Holds (limits : Limits) (weight : α → Nat) (source : List α) (c : Chunker α) : Prop where
  concat : c.chunks.flatten ++ c.rows = source
  within : ∀ chunk ∈ c.chunks, Within limits weight chunk
  size : c.size = (c.rows.map weight).sum
  buffer : c.rows = [] ∨ Within limits weight c.rows

variable {source : List α} {c : Chunker α}

theorem Holds.start : Holds limits weight [] ({} : Chunker α) :=
  ⟨rfl, List.forall_mem_nil _, rfl, .inl rfl⟩

theorem Holds.flush (h : Holds limits weight source c) : Holds limits weight source c.flush := by
  unfold Chunker.flush
  split_ifs with hempty
  · exact h
  · refine ⟨?_, ?_, rfl, .inl rfl⟩
    · simpa using h.concat
    · intro chunk hmem
      rcases List.mem_append.mp hmem with hmem | hmem
      · exact h.within chunk hmem
      · rw [List.mem_singleton.mp hmem]
        exact h.buffer.resolve_left hempty

theorem rows_flush (c : Chunker α) : c.flush.rows = [] := by
  unfold Chunker.flush
  split_ifs with hempty
  · exact hempty
  · rfl

theorem Holds.size_eq_zero (h : Holds limits weight source c) (hempty : c.rows = []) : c.size = 0 := by
  rw [h.size, hempty]
  rfl

theorem Holds.makeRoom (h : Holds limits weight source c) (size : Nat) :
    Holds limits weight source (c.makeRoom limits size) := by
  unfold Chunker.makeRoom
  split_ifs
  · exact h.flush
  · exact h

theorem makeRoom_fits (hroom : Room limits c) (size : Nat) :
    (c.makeRoom limits size).rows = []
      ∨ ((c.makeRoom limits size).rows.length < limits.rows
        ∧ (c.makeRoom limits size).size + size ≤ limits.bytes) := by
  unfold Chunker.makeRoom
  split_ifs with hheavy
  · exact .inl (rows_flush c)
  · by_cases hempty : c.rows = []
    · exact .inl hempty
    · refine .inr ⟨(hroom.resolve_left hempty).1, ?_⟩
      exact Nat.not_lt.mp fun hlt => hheavy ⟨hempty, hlt⟩

theorem Holds.push (h : Holds limits weight source c) (hlimit : 1 ≤ limits.rows) {row : α}
    (hfits : c.rows = [] ∨ (c.rows.length < limits.rows ∧ c.size + weight row ≤ limits.bytes)) :
    Holds limits weight (source ++ [row]) (c.push row (weight row)) := by
  refine ⟨?_, h.within, ?_, .inr ⟨by simp [Chunker.push], ?_, ?_⟩⟩
  · rw [← h.concat, List.append_assoc]
    rfl
  · simp [Chunker.push, h.size]
  · rcases hfits with hempty | ⟨hrows, -⟩
    · simpa [Chunker.push, hempty] using hlimit
    · simpa [Chunker.push] using Nat.succ_le_of_lt hrows
  · rcases hfits with hempty | ⟨-, hbytes⟩
    · exact .inl (by simp [Chunker.push, hempty])
    · refine .inr ?_
      simpa [Chunker.push, ← h.size] using hbytes

theorem room_flushFull (c : Chunker α) : Room limits (c.flushFull limits) := by
  unfold Chunker.flushFull
  split_ifs with hfull
  · exact .inl (rows_flush c)
  · rw [not_or] at hfull
    exact .inr ⟨Nat.not_le.mp hfull.1, Nat.not_le.mp hfull.2⟩

theorem room_add (c : Chunker α) (row : α) : Room limits (c.add limits weight row) :=
  room_flushFull _

theorem Holds.add (h : Holds limits weight source c) (hroom : Room limits c)
    (hlimit : 1 ≤ limits.rows) (row : α) :
    Holds limits weight (source ++ [row]) (c.add limits weight row) := by
  have hpushed := (h.makeRoom (weight row)).push hlimit (makeRoom_fits hroom (weight row))
  unfold Chunker.add Chunker.flushFull
  split_ifs
  · exact hpushed.flush
  · exact hpushed

def collected (limits : Limits) (weight : α → Nat) (source : List α) : Chunker α :=
  source.foldl (Chunker.add limits weight) {}

theorem holds_collected (hlimit : 1 ≤ limits.rows) (source : List α) :
    Holds limits weight source (collected limits weight source)
      ∧ Room limits (collected limits weight source) := by
  induction source using List.reverseRecOn with
  | nil => exact ⟨Holds.start, .inl rfl⟩
  | append_singleton source row ih =>
      rw [collected, List.foldl_append]
      exact ⟨ih.1.add ih.2 hlimit row, room_add _ row⟩

def partitioned (limits : Limits) (weight : α → Nat) (source : List α) : List (List α) :=
  (collected limits weight source).flush.chunks

theorem flatten_partitioned (hlimit : 1 ≤ limits.rows) (source : List α) :
    (partitioned limits weight source).flatten = source := by
  have h := (@holds_collected α limits weight hlimit source).1.flush.concat
  rwa [rows_flush, List.append_nil] at h

theorem within_partitioned (hlimit : 1 ≤ limits.rows) (source : List α) :
    ∀ chunk ∈ partitioned limits weight source, Within limits weight chunk :=
  (holds_collected hlimit source).1.flush.within

end Chunking
