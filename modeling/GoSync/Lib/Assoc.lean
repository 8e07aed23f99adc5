import Mathlib.Data.List.Nodup

/-!
# Association lists

Facts about `List.lookup`, which reads a map that is kept as a list of entries.
-/

namespace Assoc

variable {κ β : Type} [BEq κ] [LawfulBEq κ] {entries : List (κ × β)} {key : κ} {value : β}

theorem mem_of_lookup (h : entries.lookup key = some value) : (key, value) ∈ entries := by
  obtain ⟨front, back, rfl, -⟩ := List.lookup_eq_some_iff.mp h
  exact List.mem_append_right _ List.mem_cons_self

theorem lookup_of_mem {entry : κ × β} (hnodup : (entries.map Prod.fst).Nodup) (hmem : entry ∈ entries) :
    entries.lookup entry.1 = some entry.2 := by
  obtain ⟨front, back, rfl⟩ := List.append_of_mem hmem
  refine List.lookup_eq_some_iff.mpr ⟨front, back, rfl, fun other hother => ?_⟩
  rw [List.map_append, List.map_cons, List.nodup_append] at hnodup
  rw [bne_iff_ne]
  exact (hnodup.2.2 _ (List.mem_map_of_mem hother) _ List.mem_cons_self).symm

theorem lookup_isSome_iff : (entries.lookup key).isSome ↔ key ∈ entries.map Prod.fst := by
  rw [List.lookup_isSome_iff, List.mem_map]
  exact exists_congr fun entry => and_congr_right fun _ => beq_iff_eq.trans eq_comm

theorem lookup_filter_ne [DecidableEq κ] {removed : κ} :
    (entries.filter fun entry => entry.1 ≠ removed).lookup key
      = if key = removed then none else entries.lookup key := by
  induction entries with
  | nil => simp
  | cons entry entries ih =>
      rw [List.filter_cons]
      by_cases hentry : entry.1 = removed
      · rw [if_neg (by simpa using hentry), ih]
        by_cases hkey : key = removed
        · rw [if_pos hkey, if_pos hkey]
        · rw [if_neg hkey, if_neg hkey, List.lookup_cons, beq_false_of_ne fun h => hkey (h.trans hentry)]
      · rw [if_pos (by simpa using hentry), List.lookup_cons, List.lookup_cons]
        by_cases hsame : key = entry.1
        · rw [hsame, beq_self_eq_true, if_neg hentry]
        · rw [beq_false_of_ne hsame]
          exact ih

end Assoc
