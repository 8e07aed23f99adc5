import Mathlib.Data.List.Sort

/-!
# Paged scans

A table is read in pages: each round selects the rows whose key lies above the last key read, in key
order and at most `limit` of them, processes the page and stops at a short one. The processing may
change the table. As long as it leaves the rows above the page alone, the scan processes every row
once, as if the whole table had been read in order at the start.
-/

namespace Paging

variable {α κ σ ε : Type} [LinearOrder κ] {key : α → κ}

def above (key : α → κ) (last : Option κ) (rows : List α) : List α :=
  rows.filter fun row => last.all fun mark => mark < key row

def ordered (key : α → κ) (rows : List α) : List α :=
  rows.insertionSort fun first second => key first ≤ key second

def page (key : α → κ) (limit : Nat) (last : Option κ) (rows : List α) : List α :=
  (ordered key (above key last rows)).take limit

/-- The page loop. It ends at a page of fewer than `limit` rows; `fuel` bounds the rounds. -/
def scan (key : α → κ) (limit : Nat) (rows : σ → List α) (process : List α → σ → Except ε σ) :
    Nat → Option κ → σ → Except ε σ
  | 0, _, state => .ok state
  | fuel + 1, last, state =>
      let batch := page key limit last (rows state)
      match process batch state with
      | .error err => .error err
      | .ok next =>
          if batch.length < limit then
            .ok next
          else
            scan key limit rows process fuel (batch.getLast?.map key) next

variable {process : List α → σ → Except ε σ} {limit : Nat} {rows : σ → List α}

theorem scan_invariant (invariant : σ → Prop)
    (hprocess : ∀ batch state next, invariant state → process batch state = .ok next →
      invariant next) :
    ∀ fuel last state final, invariant state →
      scan key limit rows process fuel last state = .ok final → invariant final := by
  intro fuel
  induction fuel with
  | zero =>
      intro last state final hstate hscan
      cases hscan
      exact hstate
  | succ fuel ih =>
      intro last state final hstate hscan
      rw [scan] at hscan
      split at hscan
      · cases hscan
      · rename_i next hnext
        have hkept := hprocess _ _ _ hstate hnext
        split_ifs at hscan
        · cases hscan
          exact hkept
        · exact ih _ _ _ hkept hscan

theorem scan_eq_ok_of_imp {process other : List α → σ → Except ε σ}
    (himp : ∀ batch state next, process batch state = .ok next → other batch state = .ok next) :
    ∀ fuel last state final, scan key limit rows process fuel last state = .ok final →
      scan key limit rows other fuel last state = .ok final := by
  intro fuel
  induction fuel with
  | zero => exact fun last state final h => h
  | succ fuel ih =>
      intro last state final hscan
      rw [scan] at hscan ⊢
      split at hscan
      · cases hscan
      · rename_i next hnext
        rw [himp _ _ _ hnext]
        dsimp only
        split_ifs at hscan ⊢
        · exact hscan
        · exact ih _ _ _ hscan

theorem ordered_perm (key : α → κ) (rows : List α) : (ordered key rows).Perm rows :=
  List.perm_insertionSort _ rows

theorem ordered_pairwise (key : α → κ) (rows : List α) :
    (ordered key rows).Pairwise fun first second => key first ≤ key second := by
  have : Std.Total fun first second : α => key first ≤ key second :=
    ⟨fun first second => le_total (key first) (key second)⟩
  have : IsTrans α fun first second => key first ≤ key second := ⟨fun _ _ _ => le_trans⟩
  exact List.pairwise_insertionSort _ rows

theorem ordered_of_pairwise {rows : List α}
    (hrows : rows.Pairwise fun first second => key first ≤ key second) :
    ordered key rows = rows :=
  hrows.insertionSort_eq

theorem ordered_eq_self_iff {rows : List α} :
    ordered key rows = rows ↔ rows.Pairwise fun first second => key first ≤ key second := by
  constructor
  · intro hsame
    rw [← hsame]
    exact ordered_pairwise key rows
  · exact ordered_of_pairwise

theorem eq_of_perm_of_ordered {first second : List α} (hperm : first.Perm second)
    (hnodup : (second.map key).Nodup)
    (hfirst : first.Pairwise fun a b => key a ≤ key b)
    (hsecond : second.Pairwise fun a b => key a ≤ key b) : first = second := by
  refine List.Perm.eq_of_pairwise ?_ hfirst hsecond hperm
  intro a b ha hb hab hba
  exact List.inj_on_of_nodup_map hnodup (hperm.mem_iff.mp ha) hb (le_antisymm hab hba)

/-- After a row come the rows behind it in the order. -/
theorem ordered_above_last {last : Option κ} {rows front back : List α} {row : α}
    (hnodup : ((above key last rows).map key).Nodup)
    (hsplit : ordered key (above key last rows) = front ++ row :: back) :
    ordered key (above key (some (key row)) rows) = back := by
  have hperm : (front ++ row :: back).Perm (above key last rows) := hsplit ▸ ordered_perm key _
  have hsorted : (front ++ row :: back).Pairwise fun a b => key a ≤ key b :=
    hsplit ▸ ordered_pairwise key _
  have hkeys : ((front ++ row :: back).map key).Nodup := (hperm.map key).nodup_iff.mpr hnodup
  obtain ⟨hfront, hrest, hcross⟩ := List.pairwise_append.mp hsorted
  obtain ⟨hrow, hback⟩ := List.pairwise_cons.mp hrest
  have hmem : row ∈ above key last rows := hperm.mem_iff.mp (by simp)
  have hlast : ∀ mark ∈ last, mark < key row := by
    simpa [above, Option.all_eq_true] using (List.mem_filter.mp hmem).2
  -- Above the page means above its last row, within what was above the previous one.
  have habove : above key (some (key row)) rows
      = (above key last rows).filter fun other => key row < key other := by
    rw [above, above, List.filter_filter]
    apply List.filter_congr
    intro other _
    rw [Bool.eq_iff_iff, Bool.and_eq_true, Option.all_some, Option.all_eq_true, decide_eq_true_eq]
    simp only [decide_eq_true_eq]
    exact ⟨fun hlt => ⟨hlt, fun mark hmark => (hlast mark hmark).trans hlt⟩, fun h => h.1⟩
  have hfilter : (front ++ row :: back).filter (fun other => key row < key other) = back := by
    rw [List.filter_append, List.filter_cons_of_neg (by simp)]
    rw [List.filter_eq_nil_iff.mpr, List.filter_eq_self.mpr, List.nil_append]
    · intro other hother
      have hne : key row ≠ key other := by
        rw [List.map_append, List.map_cons, List.nodup_append] at hkeys
        have hcons := List.nodup_cons.mp hkeys.2.1
        exact fun heq => hcons.1 (heq ▸ List.mem_map_of_mem hother)
      simpa using lt_of_le_of_ne (hrow other hother) hne
    · intro other hother
      simpa using hcross other hother row List.mem_cons_self
  have hsame : (above key (some (key row)) rows).Perm back := by
    rw [habove, ← hfilter]
    exact (hperm.filter _).symm
  refine eq_of_perm_of_ordered ((ordered_perm key _).trans hsame) ?_ (ordered_pairwise key _) hback
  rw [List.map_append, List.map_cons, List.nodup_append] at hkeys
  exact (List.nodup_cons.mp hkeys.2.1).2

/-- A full page is followed by the rows after its last key. -/
theorem full_page {last : Option κ} {rows : List α} (hlimit : 0 < limit)
    (hnodup : ((above key last rows).map key).Nodup) (hfull : limit ≤ (above key last rows).length) :
    ∃ row, (page key limit last rows).getLast?.map key = some (key row)
      ∧ (page key limit last rows).length = limit
      ∧ (∀ other ∈ page key limit last rows, key other ≤ key row)
      ∧ ordered key (above key last rows)
        = page key limit last rows ++ ordered key (above key (some (key row)) rows) := by
  obtain ⟨count, rfl⟩ : ∃ count, limit = count + 1 := ⟨limit - 1, by omega⟩
  have hlength := (ordered_perm key (above key last rows)).length_eq
  have hcount : count < (ordered key (above key last rows)).length := by omega
  obtain ⟨row, hrow⟩ : ∃ row, (ordered key (above key last rows))[count]? = some row :=
    ⟨_, List.getElem?_eq_getElem hcount⟩
  have htake : page key (count + 1) last rows
      = (ordered key (above key last rows)).take count ++ [row] := by
    rw [page, List.take_add_one, hrow]
    rfl
  have hsplit : ordered key (above key last rows)
      = (ordered key (above key last rows)).take count
        ++ row :: (ordered key (above key last rows)).drop (count + 1) := by
    have hparts := List.take_append_drop (count + 1) (ordered key (above key last rows))
    rw [List.take_add_one, hrow] at hparts
    simpa using hparts.symm
  refine ⟨row, ?_, ?_, ?_, ?_⟩
  · rw [htake, List.getLast?_concat]
    rfl
  · rw [page, List.length_take]
    omega
  · intro other hother
    rw [htake, List.mem_append, List.mem_singleton] at hother
    rcases hother with hother | rfl
    · have hsorted := ordered_pairwise key (above key last rows)
      rw [hsplit, List.pairwise_append] at hsorted
      exact hsorted.2.2 other hother row List.mem_cons_self
    · exact le_rfl
  · rw [ordered_above_last hnodup hsplit, page, List.take_append_drop]

section Rounds

variable {limit : Nat} {rows : σ → List α} {process : List α → σ → Except ε σ} {last : Option κ}
  {state next : σ}

theorem rest_of_page {row : α}
    (hnodup : ((above key last (rows state)).map key).Nodup)
    (hkept : above key (some (key row)) (rows next) = above key (some (key row)) (rows state))
    (hlength : (page key limit last (rows state)).length = limit)
    (hsplit : ordered key (above key last (rows state))
      = page key limit last (rows state) ++ ordered key (above key (some (key row)) (rows state))) :
    ((above key (some (key row)) (rows next)).map key).Nodup
      ∧ (above key (some (key row)) (rows next)).length + limit
        = (above key last (rows state)).length := by
  have hperm := ordered_perm key (above key last (rows state))
  have hrest := ordered_perm key (above key (some (key row)) (rows state))
  rw [hsplit] at hperm
  rw [hkept]
  constructor
  · refine (hrest.map key).nodup_iff.mp ?_
    exact ((List.sublist_append_right _ _).map key).nodup ((hperm.map key).nodup_iff.mpr hnodup)
  · rw [← hperm.length_eq, List.length_append, hlength, hrest.length_eq, Nat.add_comm]

/-- **A paged scan is a full scan.** Processing is compositional (`happend`) and leaves the rows
above what it processed in place (`hframe`); the fuel covers the number of pages. -/
theorem scan_eq_iff {result : Except ε σ} (hlimit : 0 < limit)
    (happend : ∀ front back state, process (front ++ back) state = result
      ↔ (∃ err, process front state = .error err ∧ result = .error err)
        ∨ ∃ middle, process front state = .ok middle ∧ process back middle = result)
    (hframe : ∀ batch state next mark, process batch state = .ok next →
      (∀ row ∈ batch, key row ≤ mark) →
      above key (some mark) (rows next) = above key (some mark) (rows state)) :
    ∀ fuel last state, ((above key last (rows state)).map key).Nodup →
      (above key last (rows state)).length < fuel * limit →
      (scan key limit rows process fuel last state = result
        ↔ process (ordered key (above key last (rows state))) state = result) := by
  intro fuel
  induction fuel with
  | zero =>
      intro last state _ hfuel
      simp at hfuel
  | succ fuel ih =>
      intro last state hnodup hfuel
      have hlength := (ordered_perm key (above key last (rows state))).length_eq
      rw [scan]
      by_cases hshort : (above key last (rows state)).length < limit
      · rw [page, List.take_of_length_le (by omega)]
        simp only [hlength, if_pos hshort]
        cases process (ordered key (above key last (rows state))) state with
        | error err => rfl
        | ok next => rfl
      · obtain ⟨row, hlast, hcount, hbound, hsplit⟩ := full_page hlimit hnodup (Nat.not_lt.mp hshort)
        simp only [hlast, hcount, lt_irrefl, if_false]
        rw [hsplit, happend]
        cases hbatch : process (page key limit last (rows state)) state with
        | error err => simp [eq_comm]
        | ok next =>
            have hkept := hframe _ _ _ (key row) hbatch hbound
            obtain ⟨hrest, hfewer⟩ := rest_of_page hnodup hkept hcount hsplit
            simp only [Except.ok.injEq, exists_eq_left', reduceCtorEq, false_and, exists_false,
              false_or]
            rw [ih (some (key row)) next hrest, hkept]
            rw [Nat.add_mul, Nat.one_mul] at hfuel
            omega

inductive Loops (key : α → κ) (limit : Nat) (rows : σ → List α)
    (process : List α → σ → Except ε σ) : Option κ → σ → Except ε σ → Prop where
  | failed {last : Option κ} {state : σ} {err : ε}
      (hpage : process (page key limit last (rows state)) state = .error err) :
      Loops key limit rows process last state (.error err)
  | short {last : Option κ} {state next : σ}
      (hpage : process (page key limit last (rows state)) state = .ok next)
      (hshort : (page key limit last (rows state)).length < limit) :
      Loops key limit rows process last state (.ok next)
  | more {last : Option κ} {state next : σ} {result : Except ε σ}
      (hpage : process (page key limit last (rows state)) state = .ok next)
      (hfull : ¬ (page key limit last (rows state)).length < limit)
      (hrest : Loops key limit rows process ((page key limit last (rows state)).getLast?.map key)
        next result) :
      Loops key limit rows process last state result

/-- Enough fuel for the rows is enough for the loop. -/
theorem loops_scan (hlimit : 0 < limit)
    (hframe : ∀ batch state next mark, process batch state = .ok next →
      (∀ row ∈ batch, key row ≤ mark) →
      above key (some mark) (rows next) = above key (some mark) (rows state)) :
    ∀ fuel last state, ((above key last (rows state)).map key).Nodup →
      (above key last (rows state)).length < fuel * limit →
      Loops key limit rows process last state (scan key limit rows process fuel last state) := by
  intro fuel
  induction fuel with
  | zero =>
      intro last state _ hfuel
      simp at hfuel
  | succ fuel ih =>
      intro last state hnodup hfuel
      rw [scan]
      cases hbatch : process (page key limit last (rows state)) state with
      | error err => exact .failed hbatch
      | ok next =>
          dsimp only
          by_cases hshort : (page key limit last (rows state)).length < limit
          · rw [if_pos hshort]
            exact .short hbatch hshort
          · rw [if_neg hshort]
            have hfull : limit ≤ (above key last (rows state)).length := by
              rw [page, List.length_take, (ordered_perm key _).length_eq] at hshort
              omega
            obtain ⟨row, hlast, hcount, hbound, hsplit⟩ := full_page hlimit hnodup hfull
            have hkept := hframe _ _ _ (key row) hbatch hbound
            obtain ⟨hrest, hfewer⟩ := rest_of_page hnodup hkept hcount hsplit
            refine .more hbatch hshort ?_
            rw [hlast]
            apply ih (some (key row)) next hrest
            rw [Nat.add_mul, Nat.one_mul] at hfuel
            omega

end Rounds

theorem ordered_eq_of_perm {rows listed : List α} (hperm : listed.Perm rows)
    (hsorted : listed.Pairwise fun first second => key first < key second) :
    ordered key rows = listed := by
  refine eq_of_perm_of_ordered ((ordered_perm key rows).trans hperm.symm) ?_ (ordered_pairwise key rows)
    (hsorted.imp le_of_lt)
  rw [List.Nodup, List.pairwise_map]
  exact hsorted.imp ne_of_lt

theorem nodup_of_perm {rows listed : List α} (hperm : listed.Perm rows)
    (hsorted : listed.Pairwise fun first second => key first < key second) :
    (rows.map key).Nodup := by
  refine (hperm.map key).nodup_iff.mp ?_
  rw [List.Nodup, List.pairwise_map]
  exact hsorted.imp ne_of_lt

@[simp]
theorem above_none (key : α → κ) (rows : List α) : above key none rows = rows := by
  rw [above, List.filter_eq_self]
  exact fun _ _ => rfl

theorem scan_eq_ok_iff (hlimit : 0 < limit)
    (happend : ∀ front back state last, process (front ++ back) state = .ok last
      ↔ ∃ middle, process front state = .ok middle ∧ process back middle = .ok last)
    (hframe : ∀ batch state next mark, process batch state = .ok next →
      (∀ row ∈ batch, key row ≤ mark) →
      above key (some mark) (rows next) = above key (some mark) (rows state))
    (fuel : Nat) (last : Option κ) (state final : σ)
    (hnodup : ((above key last (rows state)).map key).Nodup)
    (hfuel : (above key last (rows state)).length < fuel * limit) :
    scan key limit rows process fuel last state = .ok final
      ↔ process (ordered key (above key last (rows state))) state = .ok final := by
  refine scan_eq_iff hlimit ?_ hframe fuel last state hnodup hfuel
  intro front back state
  rw [happend]
  simp

theorem scan_foldlM {rows : List α} {step : σ → α → Except ε σ} (hlimit : 0 < limit)
    (fuel : Nat) (state : σ) (hnodup : (rows.map key).Nodup) (hfuel : rows.length < fuel * limit) :
    scan key limit (fun _ => rows) (fun batch state => batch.foldlM step state) fuel none state
      = (ordered key rows).foldlM step state := by
  have hiff : scan key limit (fun _ => rows) (fun batch state => batch.foldlM step state) fuel none
      state = (ordered key rows).foldlM step state
        ↔ (ordered key (above key none rows)).foldlM step state
          = (ordered key rows).foldlM step state := by
    refine scan_eq_iff hlimit ?_ (fun _ _ _ _ _ _ => rfl) fuel none state ?_ ?_
    · intro front back start
      rw [List.foldlM_append]
      cases front.foldlM step start with
      | error err =>
          change Except.error err = _ ↔ _
          simp [eq_comm]
      | ok middle =>
          change back.foldlM step middle = _ ↔ _
          simp
    · rwa [above_none]
    · rwa [above_none]
  rw [hiff, above_none]

theorem scan_eq {rows : List α} {step : σ → α → Except ε σ} (hlimit : 0 < limit)
    (fuel : Nat) (state : σ) (hsorted : rows.Pairwise fun first second => key first < key second)
    (hfuel : rows.length < fuel * limit) :
    scan key limit (fun _ => rows) (fun batch state => batch.foldlM step state) fuel none state
      = rows.foldlM step state := by
  have hnodup := nodup_of_perm (List.Perm.refl rows) hsorted
  rw [scan_foldlM hlimit fuel state hnodup hfuel, ordered_of_pairwise (hsorted.imp le_of_lt)]

theorem scan_eq_error {err : ε} (hprocess : ∀ batch state next, process batch state = .ok next →
      ∀ row ∈ rows next, row ∈ rows state) :
    ∀ fuel last state, scan key limit rows process fuel last state = .error err →
      ∃ batch current, (∀ row ∈ batch, row ∈ rows state) ∧ process batch current = .error err := by
  intro fuel
  induction fuel with
  | zero =>
      intro last state h
      cases h
  | succ fuel ih =>
      intro last state h
      rw [scan] at h
      split at h
      · rename_i cause hcause
        cases h
        refine ⟨page key limit last (rows state), state, ?_, hcause⟩
        intro row hrow
        have hmem := (ordered_perm key _).mem_iff.mp (List.mem_of_mem_take hrow)
        exact (List.mem_filter.mp hmem).1
      · rename_i next hnext
        split_ifs at h
        obtain ⟨batch, current, hbatch, hfailed⟩ := ih _ _ h
        exact ⟨batch, current, fun row hrow => hprocess _ _ _ hnext row (hbatch row hrow), hfailed⟩

end Paging
