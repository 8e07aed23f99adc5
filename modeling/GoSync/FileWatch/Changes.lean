import GoSync.Event
import GoSync.Lib.Assoc
import Mathlib.Data.List.Sort
import Mathlib.Data.String.Basic

/-!
# Changes between two scans

The loop of `publishChanges`: which events two scans of a directory give, in which order. A scan is a map
from paths to what `fileState` keeps of a file; content is known by its digest. A path is the name of a file,
in the directory or in the events.
-/

namespace GoSync.FileWatch

structure FileState where
  size : Int
  modTimeUnixNano : Int
  mode : Nat
  sha256 : String
  deriving DecidableEq, Repr

abbrev Files (Path : Type) := List (Path × FileState)

structure Settings where
  events : List FileOperation := [.create, .update, .delete]
  chunkBytes : Nat := 4 * 2 ^ 20
  deriving DecidableEq, Repr

def Settings.allows (cfg : Settings) (operation : FileOperation) : Bool :=
  cfg.events.contains operation

inductive Change (Path : Type) where
  | put (path : Path) (operation : FileOperation) (state : FileState)
  | delete (path : Path)
  deriving DecidableEq, Repr

variable {Path : Type}

def Change.path : Change Path → Path
  | .put path _ _ | .delete path => path

def Change.operation : Change Path → FileOperation
  | .put _ operation _ => operation
  | .delete _ => .delete

variable [LinearOrder Path]

def compact : List Path → List Path
  | [] => []
  | [a] => [a]
  | a :: b :: rest => if a = b then compact (b :: rest) else a :: compact (b :: rest)

def paths (old current : Files Path) : List Path :=
  compact ((current.map Prod.fst
    ++ (old.map Prod.fst).filter fun name => (current.lookup name).isNone).insertionSort (· ≤ ·))

def changeOf (old current : Files Path) (name : Path) : Option (Change Path) :=
  match old.lookup name, current.lookup name with
  | some before, some after => if before = after then none else some (.put name .update after)
  | none, some after => some (.put name .create after)
  | _, none => some (.delete name)

def changes (cfg : Settings) (old current : Files Path) : List (Change Path) :=
  ((paths old current).filterMap (changeOf old current)).filter fun change =>
    cfg.allows change.operation

example : changes {} [("a/b", ⟨1, 0, 420, "x"⟩), ("c", ⟨1, 0, 420, "x"⟩)]
      [("c", ⟨1, 0, 420, "x"⟩), ("a", ⟨2, 0, 420, "y"⟩)]
    = [.put "a" .create ⟨2, 0, 420, "y"⟩, .delete "a/b"] := by
  decide

variable {change : Change Path} {name : Path}

section Order

theorem mem_compact {names : List Path} : name ∈ compact names ↔ name ∈ names := by
  induction names using compact.induct with
  | case1 => rfl
  | case2 a => rfl
  | case3 a rest ih =>
      rw [compact, if_pos rfl, ih]
      simp
  | case4 a b rest hne ih =>
      rw [compact, if_neg hne, List.mem_cons, ih, ← List.mem_cons]

theorem compact_sorted {names : List Path} (h : names.Pairwise (· ≤ ·)) :
    (compact names).Pairwise (· < ·) := by
  induction names using compact.induct with
  | case1 => exact List.Pairwise.nil
  | case2 a => exact List.pairwise_singleton _ _
  | case3 a rest ih =>
      rw [compact, if_pos rfl]
      exact ih (List.pairwise_cons.mp h).2
  | case4 a b rest hne ih =>
      obtain ⟨hleast, hrest⟩ := List.pairwise_cons.mp h
      rw [compact, if_neg hne]
      refine List.pairwise_cons.mpr ⟨?_, ih hrest⟩
      intro name hname
      have hmem := mem_compact.mp hname
      have hab : a < b := lt_of_le_of_ne (hleast b List.mem_cons_self) hne
      rcases List.mem_cons.mp hmem with rfl | hmem
      · exact hab
      · exact hab.trans_le ((List.pairwise_cons.mp hrest).1 name hmem)

variable {cfg : Settings} {old current : Files Path}

theorem paths_sorted : (paths old current).Pairwise (· < ·) :=
  compact_sorted (List.pairwise_insertionSort _ _)

theorem mem_paths :
    name ∈ paths old current ↔ (current.lookup name).isSome ∨ (old.lookup name).isSome := by
  rw [paths, mem_compact, List.mem_insertionSort, List.mem_append, List.mem_filter, ← Assoc.lookup_isSome_iff,
    ← Assoc.lookup_isSome_iff]
  cases current.lookup name with
  | none => simp
  | some state => simp

theorem changeOf_path (h : changeOf old current name = some change) :
    change.path = name := by
  unfold changeOf at h
  split at h
  · split_ifs at h
    cases h
    rfl
  · cases h
    rfl
  · cases h
    rfl

theorem changeOf_operation (h : changeOf old current name = some change) :
    change.operation ∈ [FileOperation.create, .update, .delete] := by
  unfold changeOf at h
  split at h
  · split_ifs at h
    cases h
    simp [Change.operation]
  · cases h
    simp [Change.operation]
  · cases h
    simp [Change.operation]

theorem changes_sorted (cfg : Settings) (old current : Files Path) :
    (changes cfg old current).Pairwise fun a b => a.path < b.path := by
  refine List.Pairwise.filter _ (List.Pairwise.filterMap _ ?_ paths_sorted)
  intro a b hab change hchange other hother
  rw [changeOf_path hchange, changeOf_path hother]
  exact hab

theorem mem_changes (hall : ∀ operation ∈ [FileOperation.create, .update, .delete], cfg.allows operation) :
    change ∈ changes cfg old current
      ↔ old.lookup change.path ≠ current.lookup change.path
        ∧ changeOf old current change.path = some change := by
  rw [changes, List.mem_filter, List.mem_filterMap]
  constructor
  · rintro ⟨⟨name, hname, hchange⟩, -⟩
    have hpath := changeOf_path hchange
    subst hpath
    refine ⟨?_, hchange⟩
    intro hsame
    rw [mem_paths, hsame, or_self] at hname
    obtain ⟨state, hstate⟩ := Option.isSome_iff_exists.mp hname
    rw [changeOf, hsame, hstate] at hchange
    simp at hchange
  · rintro ⟨hdiffer, hchange⟩
    refine ⟨⟨change.path, ?_, hchange⟩, ?_⟩
    · rw [mem_paths, Option.isSome_iff_ne_none, Option.isSome_iff_ne_none]
      by_contra hnone
      rw [not_or, not_not, not_not] at hnone
      exact hdiffer (hnone.2.trans hnone.1.symm)
    · exact hall change.operation (changeOf_operation hchange)

end Order

section Effect

/-- What an event makes of a path, for whoever applies the events. -/
def Change.result : Change Path → Option FileState
  | .put _ _ state => some state
  | .delete _ => none

def applied (files : Path → Option FileState) (events : List (Change Path)) : Path → Option FileState :=
  events.foldl (fun files event => Function.update files event.path event.result) files

variable {old current : Files Path}

theorem changeOf_result (h : changeOf old current name = some change) :
    change.result = current.lookup name := by
  unfold changeOf at h
  split at h
  · rename_i before after hbefore hafter
    split_ifs at h
    cases h
    exact hafter.symm
  · rename_i after hbefore hafter
    cases h
    exact hafter.symm
  · rename_i hafter
    cases h
    exact hafter.symm

theorem applied_of_ne {files : Path → Option FileState} {events : List (Change Path)}
    (h : ∀ event ∈ events, event.path ≠ name) : applied files events name = files name := by
  induction events generalizing files with
  | nil => rfl
  | cons event events ih =>
      calc applied files (event :: events) name
          = applied (Function.update files event.path event.result) events name := rfl
        _ = Function.update files event.path event.result name :=
            ih fun other hother => h other (List.mem_cons_of_mem _ hother)
        _ = files name := Function.update_of_ne (h event List.mem_cons_self).symm _ _

theorem applied_of_mem {files : Path → Option FileState} {events : List (Change Path)}
    (hsorted : events.Pairwise fun a b => a.path < b.path) {event : Change Path} (hmem : event ∈ events) :
    applied files events event.path = event.result := by
  induction events generalizing files with
  | nil => exact absurd hmem List.not_mem_nil
  | cons first events ih =>
      obtain ⟨hfirst, hrest⟩ := List.pairwise_cons.mp hsorted
      rcases List.mem_cons.mp hmem with rfl | hmem
      · have hlater : ∀ other ∈ events, other.path ≠ event.path := fun other hother =>
          (hfirst other hother).ne'
        exact (applied_of_ne hlater).trans (Function.update_self _ _ _)
      · exact ih hrest hmem

section AllEvents

variable {cfg : Settings}
  (hall : ∀ operation ∈ [FileOperation.create, .update, .delete], cfg.allows operation)

include hall

theorem exists_change (hdiffer : old.lookup name ≠ current.lookup name) :
    ∃ change ∈ changes cfg old current, change.path = name := by
  obtain ⟨change, hchange⟩ : ∃ change, changeOf old current name = some change := by
    unfold changeOf
    split
    · rename_i before after hbefore hafter
      rw [if_neg fun hsame => hdiffer (by rw [hbefore, hafter, hsame])]
      exact ⟨_, rfl⟩
    · exact ⟨_, rfl⟩
    · exact ⟨_, rfl⟩
  have hpath := changeOf_path hchange
  subst hpath
  exact ⟨change, (mem_changes hall).mpr ⟨hdiffer, hchange⟩, rfl⟩

theorem change_result (h : change ∈ changes cfg old current) :
    change.result = current.lookup change.path :=
  changeOf_result ((mem_changes hall).mp h).2

theorem lookup_of_put {path : Path} {operation : FileOperation} {state : FileState}
    (h : .put path operation state ∈ changes cfg old current) : current.lookup path = some state :=
  (change_result hall h).symm

theorem lookup_of_delete {path : Path} (h : .delete path ∈ changes cfg old current) :
    current.lookup path = none :=
  (change_result hall h).symm

theorem applied_changes (old current : Files Path) (files : Path → Option FileState) (name : Path) :
    applied files (changes cfg old current) name
      = if old.lookup name ≠ current.lookup name then current.lookup name else files name := by
  by_cases hdiffer : old.lookup name ≠ current.lookup name
  · rw [if_pos hdiffer]
    obtain ⟨change, hchange, rfl⟩ := exists_change hall hdiffer
    rw [applied_of_mem (changes_sorted _ _ _) hchange, change_result hall hchange]
  · rw [if_neg hdiffer]
    refine applied_of_ne fun change hchange hpath => ?_
    subst hpath
    exact hdiffer ((mem_changes hall).mp hchange).1

end AllEvents

end Effect

end GoSync.FileWatch
