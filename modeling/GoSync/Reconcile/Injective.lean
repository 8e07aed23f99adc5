import GoSync.Reconcile.Digest

/-!
# What the hashed bytes determine

The bytes that `rowHash` and `columnsHash` hand to SHA-256 are the schema, the table and the set of columns
with their normalized values, and nothing else.
-/

namespace GoSync.Reconcile

variable {rt : Runtime} {columns others : List Column}

def entry (rt : Runtime) (column : Column) : String × Option String :=
  (column.name, column.value.map (normalize rt column.type))

def Holdable (text : String) : Prop :=
  (utf8 text).length < 2 ^ 63

instance (text : String) : Decidable (Holdable text) :=
  inferInstanceAs (Decidable (_ < _))

def HoldableEntry (entry : String × Option String) : Prop :=
  Holdable entry.1 ∧ ∀ value ∈ entry.2, Holdable value

structure Distinct (rt : Runtime) (columns : List Column) : Prop where
  names : (columns.map Column.name).Nodup
  holdable : ∀ column ∈ columns, HoldableEntry (entry rt column)

section Sorting

theorem sortColumns_perm (columns : List Column) : (sortColumns columns).Perm columns :=
  List.perm_insertionSort _ columns

theorem sortColumns_sorted (columns : List Column) :
    (sortColumns columns).Pairwise fun a b => a.name ≤ b.name := by
  have : Std.Total fun a b : Column => a.name ≤ b.name := ⟨fun a b => le_total a.name b.name⟩
  have : IsTrans Column fun a b => a.name ≤ b.name := ⟨fun _ _ _ => le_trans⟩
  exact List.pairwise_insertionSort _ columns

theorem sortColumns_strict (hnames : (columns.map Column.name).Nodup) :
    (sortColumns columns).Pairwise fun a b => a.name < b.name := by
  have hdistinct : (sortColumns columns).Pairwise fun a b => a.name ≠ b.name :=
    List.pairwise_map.mp (((sortColumns_perm columns).map Column.name).nodup_iff.mpr hnames)
  exact (sortColumns_sorted columns).imp₂ (fun _ _ => lt_of_le_of_ne) hdistinct

/-- Sorting makes equal entries equal lists. -/
theorem sorted_entries_eq (hcolumns : (columns.map Column.name).Nodup)
    (hothers : (others.map Column.name).Nodup)
    (hsame : ∀ e, e ∈ columns.map (entry rt) ↔ e ∈ others.map (entry rt)) :
    (sortColumns columns).map (entry rt) = (sortColumns others).map (entry rt) := by
  have hsorted : ∀ {list : List Column}, (list.map Column.name).Nodup →
      ((sortColumns list).map (entry rt)).Pairwise fun a b => a.1 < b.1 := by
    intro list hlist
    exact List.pairwise_map.mpr (sortColumns_strict hlist)
  have hmem : ∀ e, e ∈ (sortColumns columns).map (entry rt) ↔ e ∈ (sortColumns others).map (entry rt) := by
    intro e
    rw [((sortColumns_perm columns).map (entry rt)).mem_iff, ((sortColumns_perm others).map (entry rt)).mem_iff]
    exact hsame e
  have hnodup : ∀ {list : List Column}, (list.map Column.name).Nodup →
      ((sortColumns list).map (entry rt)).Nodup := by
    intro list hlist
    exact (hsorted hlist).imp fun hlt heq => absurd (congrArg Prod.fst heq) hlt.ne
  refine List.Perm.eq_of_pairwise ?_ (hsorted hcolumns) (hsorted hothers) ?_
  · intro a b _ _ hlt hgt
    exact absurd hlt hgt.asymm
  · exact (List.perm_ext_iff_of_nodup (hnodup hcolumns) (hnodup hothers)).mpr hmem

end Sorting

section Parts

def entryParts (entry : String × Option String) : List (Option (List UInt8)) :=
  some (utf8 entry.1) :: match entry.2 with
    | none => [none]
    | some value => [some [1], some (utf8 value)]

theorem columnParts_eq (column : Column) : columnParts rt column = entryParts (entry rt column) := by
  obtain ⟨name, type, value, encoding, sourceValue⟩ := column
  cases value <;> rfl

theorem columnsBytes_eq (rt : Runtime) (columns : List Column) :
    columnsBytes rt columns
      = (((sortColumns columns).map (entry rt)).flatMap entryParts).flatMap writePart := by
  have hparts : columnParts rt = entryParts ∘ entry rt := funext fun column => columnParts_eq column
  rw [columnsBytes, List.flatMap_map, hparts]
  rfl

theorem utf8_injective {text other : String} (h : utf8 text = utf8 other) : text = other := by
  apply String.toByteArray_inj.mp
  apply ByteArray.ext
  exact Array.toList_inj.mp h

theorem fits_utf8 {text : String} (h : Holdable text) : Fits (some (utf8 text)) := by
  intro bytes hbytes
  obtain rfl := Option.some.inj hbytes
  exact lt_trans h (by decide)

theorem fits_entryParts {entry : String × Option String} (h : HoldableEntry entry) :
    ∀ part ∈ entryParts entry, Fits part := by
  obtain ⟨name, value⟩ := entry
  obtain ⟨hname, hvalue⟩ := h
  cases value with
  | none =>
      intro part hpart
      simp only [entryParts, List.mem_cons, List.not_mem_nil, or_false] at hpart
      rcases hpart with rfl | rfl
      · exact fits_utf8 hname
      · exact fun bytes hbytes => nomatch hbytes
  | some value =>
      intro part hpart
      simp only [entryParts, List.mem_cons, List.not_mem_nil, or_false] at hpart
      rcases hpart with rfl | rfl | rfl
      · exact fits_utf8 hname
      · intro bytes hbytes
        obtain rfl := Option.some.inj hbytes
        decide
      · exact fits_utf8 (hvalue value rfl)

/-- The mark before a value tells the parts of a NULL from the parts of any text, so that the entries can be
read off one by one. -/
theorem entryParts_injective {entries others : List (String × Option String)}
    (h : entries.flatMap entryParts = others.flatMap entryParts) : entries = others := by
  induction entries generalizing others with
  | nil =>
      cases others with
      | nil => rfl
      | cons other others => cases h
  | cons first entries ih =>
      cases others with
      | nil => cases h
      | cons other others =>
          obtain ⟨name, value⟩ := first
          obtain ⟨name', value'⟩ := other
          rw [List.flatMap_cons, List.flatMap_cons] at h
          cases value <;> cases value' <;>
            simp only [entryParts, List.cons_append, List.nil_append, List.cons.injEq, Option.some.injEq,
              reduceCtorEq, true_and, false_and, and_false] at h
          · obtain ⟨hname, hrest⟩ := h
            rw [utf8_injective hname, ih hrest]
          · obtain ⟨hname, hvalue, hrest⟩ := h
            rw [utf8_injective hname, utf8_injective hvalue, ih hrest]

end Parts

theorem fits_columnParts (h : Distinct rt columns) :
    ∀ part ∈ ((sortColumns columns).map (entry rt)).flatMap entryParts, Fits part := by
  intro part hpart
  obtain ⟨e, he, hpart⟩ := List.mem_flatMap.mp hpart
  obtain ⟨column, hcolumn, rfl⟩ := List.mem_map.mp he
  exact fits_entryParts (h.holdable column ((sortColumns_perm columns).mem_iff.mp hcolumn)) part hpart

theorem columnsBytes_eq_iff (hcolumns : Distinct rt columns) (hothers : Distinct rt others) :
    columnsBytes rt columns = columnsBytes rt others
      ↔ ∀ e, e ∈ columns.map (entry rt) ↔ e ∈ others.map (entry rt) := by
  rw [columnsBytes_eq, columnsBytes_eq]
  constructor
  · intro h e
    have hparts := writeParts_injective (fits_columnParts hcolumns) (fits_columnParts hothers) h
    have hentries := entryParts_injective hparts
    rw [← ((sortColumns_perm columns).map (entry rt)).mem_iff, hentries,
      ((sortColumns_perm others).map (entry rt)).mem_iff]
  · intro h
    rw [sorted_entries_eq hcolumns.names hothers.names h]

/-- Two rows hand the same bytes to SHA-256 exactly if they agree in schema, table and the set of their
columns with normalized values; two lists of columns exactly if they agree in that set. -/
theorem hashed_bytes_eq_iff (rt : Runtime) :
    (∀ row other : Row, Distinct rt row.columns → Distinct rt other.columns →
      Holdable row.schema → Holdable row.table → Holdable other.schema → Holdable other.table →
        (rowBytes rt row = rowBytes rt other
          ↔ row.schema = other.schema ∧ row.table = other.table
            ∧ ∀ e, e ∈ row.columns.map (entry rt) ↔ e ∈ other.columns.map (entry rt)))
    ∧ ∀ columns others : List Column, Distinct rt columns → Distinct rt others →
        (columnsBytes rt columns = columnsBytes rt others
          ↔ ∀ e, e ∈ columns.map (entry rt) ↔ e ∈ others.map (entry rt)) := by
  constructor
  · intro row other hrow hother hschema htable hschema' htable'
    constructor
    · intro h
      simp only [rowBytes, List.append_assoc] at h
      obtain ⟨hsame, h⟩ := writePart_append_injective (fits_utf8 hschema) (fits_utf8 hschema') h
      obtain ⟨hsame', h⟩ := writePart_append_injective (fits_utf8 htable) (fits_utf8 htable') h
      exact ⟨utf8_injective (Option.some.inj hsame), utf8_injective (Option.some.inj hsame'),
        (columnsBytes_eq_iff hrow hother).mp h⟩
    · rintro ⟨hschema, htable, hcolumns⟩
      rw [rowBytes, rowBytes, hschema, htable, (columnsBytes_eq_iff hrow hother).mpr hcolumns]
  · intro columns others hcolumns hothers
    exact columnsBytes_eq_iff hcolumns hothers

def Runtime.plain : Runtime where
  ratString := fun _ => none
  canonicalJson := fun _ => none

def oneColumn (value : Option String) : Row where
  schema := ""
  table := ""
  operation := .read
  columns := [{ name := "", value := value }]

theorem hashed_bytes_ne_null_empty :
    rowBytes Runtime.plain (oneColumn none) ≠ rowBytes Runtime.plain (oneColumn (some "")) := by
  have hnull : Distinct Runtime.plain (oneColumn none).columns := by
    refine ⟨by decide, ?_⟩
    simp [oneColumn, HoldableEntry, entry, Holdable, utf8]
  have hempty : Distinct Runtime.plain (oneColumn (some "")).columns := by
    refine ⟨by decide, ?_⟩
    intro column hcolumn
    obtain rfl := List.mem_singleton.mp hcolumn
    exact ⟨by decide, fun value hvalue => Option.some.inj hvalue ▸ by decide⟩
  have hplain : Holdable "" := by decide
  intro h
  obtain ⟨-, -, hentries⟩ := ((hashed_bytes_eq_iff Runtime.plain).1 (oneColumn none) (oneColumn (some ""))
    hnull hempty hplain hplain hplain hplain).mp h
  exact absurd ((hentries ("", none)).mp (by decide)) (by decide)

end GoSync.Reconcile
