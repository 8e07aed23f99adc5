import GoSync.Lib.SlashPath

/-!
# Names in a file storage

`objectName` of the package `filestore`: how the path of a file event and the prefix of a storage become
the name of an object, or of a file below the directory of the storage.
-/

namespace GoSync.FileStore

open SlashPath

inductive NameError where
  | notLocal
  deriving DecidableEq, Repr

def NameError.message : NameError → String
  | .notLocal => "file path is not local"

def objectName (pre : List Char) (name : String) : Except NameError (List Char) :=
  if name = "" ∨ isLocal name = false ∨ '\x00' ∈ name.toList then .error .notLocal
  else .ok (join [trim pre, name.toList])

variable {pre : List Char} {name : String} {key : List Char}

theorem isLocal_iff : isLocal name = true ↔ name ≠ "" ∧ isRooted name.toList = false
    ∧ (localDepth 0 (elements name.toList)).isSome = true := by
  simp [isLocal, isRooted, elements]

theorem objectName_eq_ok (h : objectName pre name = .ok key) :
    isLocal name = true ∧ '\x00' ∉ name.toList ∧ key = join [trim pre, name.toList] := by
  unfold objectName at h
  split_ifs at h with hbad
  rw [not_or, not_or] at hbad
  exact ⟨by simpa using hbad.2.1, hbad.2.2, (Except.ok.inj h).symm⟩

theorem objectName_of_local (hlocal : isLocal name = true) (hnul : '\x00' ∉ name.toList) :
    objectName pre name = .ok (join [trim pre, name.toList]) := by
  unfold objectName
  rw [if_neg]
  rw [not_or, not_or]
  exact ⟨(isLocal_iff.mp hlocal).1, by simp [hlocal], hnul⟩

theorem isRooted_trim : isRooted (trim pre) = false := by
  cases htrim : trim pre with
  | nil => rfl
  | cons c rest =>
      have hhead : (pre.dropWhile (· = '/')).head? = some c := by
        have hbelow : trim pre <+: pre.dropWhile (· = '/') := by
          rw [← List.reverse_suffix, trim, List.reverse_reverse]
          exact List.dropWhile_suffix _
        obtain ⟨tail, htail⟩ := hbelow
        rw [← htail, htrim]
        rfl
      have hc := List.head?_dropWhile_not (· = '/') pre
      rw [hhead] at hc
      simpa [isRooted] using hc

/-- What `objectName` makes of a path, by names: those of the prefix and then those that the path reaches
below it. -/
theorem objectName_names (hpre : isRooted pre = false) (h : objectName pre name = .ok key) :
    isRooted key = false ∧ ∃ reached, names key = names pre ++ reached ∧ ∀ n ∈ reached, Plain n := by
  obtain ⟨hlocal, -, rfl⟩ := objectName_eq_ok h
  obtain ⟨-, hrelative, hdepth⟩ := isLocal_iff.mp hlocal
  refine ⟨isRooted_join_relative isRooted_trim hrelative, ?_⟩
  have hnil : ∀ n ∈ ([] : List Name), Plain n := fun _ hmem => absurd hmem List.not_mem_nil
  obtain ⟨reached, hreached, hplain⟩ :=
    walk_local (r := false) (s := walk false [] (elements pre)) elements_slash_free hnil hdepth
  refine ⟨reached.reverse, ?_, fun n hn => hplain n (List.mem_reverse.mp hn)⟩
  rw [names_join_relative isRooted_trim hrelative, walk_append, walk_elements_trim,
    ← List.nil_append (walk false [] (elements pre)), hreached, List.reverse_append, names, hpre]

end GoSync.FileStore
