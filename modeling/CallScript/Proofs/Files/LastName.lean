import CallScript.Build
import CallScript.Proofs.Files.Writing
import Mathlib.Data.List.Basic

/-! # The last name of a path

The name in which a path ends, and that the file for a result never has the name of the script file.

* **`EndsIn`** relates a path to what stands after its last slash.
* **`FileTree.endsIn_of_leadsTo`**: a path that leads to a location ends in the name of that location.
* **`endsIn_outputPath`**: the path of the result ends in **`outputName`**, the name of the result.
* **`outputPath_apart`**: the path of a script and the path of its result lead to different
  locations. -/

namespace CallScript.Files

/-! ## Ending in a name -/

/-- A path **ends in** what stands after its last slash, or in all of it if it has no slash. -/
def EndsIn (path name : List Char) : Prop :=
  '/' ∉ name ∧ (path = name ∨ ∃ front, path = front ++ '/' :: name)

variable {path name : List Char}

/-- The last of the parts between slashes stands after any slash. -/
theorem getLast?_splitOn_append (front rest : List Char) :
    ((front ++ '/' :: rest).splitOn '/').getLast? = (rest.splitOn '/').getLast? := by
  rw [List.splitOn_append_cons_self]
  exact List.getLast?_append_of_ne_nil _ (List.splitOn_ne_nil _ _)

/-- The last of the parts between slashes is that in which the path ends. -/
theorem EndsIn.getLast?_splitOn (hends : EndsIn path name) :
    (path.splitOn '/').getLast? = some name := by
  obtain ⟨hslash, rfl | ⟨front, rfl⟩⟩ := hends
  · simp [List.splitOn_eq_singleton hslash]
  · simp [getLast?_splitOn_append, List.splitOn_eq_singleton hslash]

/-- Every path ends in something. -/
theorem exists_endsIn (path : List Char) : ∃ name, EndsIn path name := by
  induction path with
  | nil => exact ⟨[], by simp, .inl rfl⟩
  | cons c path ih =>
    obtain ⟨name, hslash, rfl | ⟨front, rfl⟩⟩ := ih
    · by_cases hc : c = '/'
      · exact ⟨path, hslash, .inr ⟨[], by rw [hc, List.nil_append]⟩⟩
      · exact ⟨c :: path, by simp [hslash, Ne.symm hc], .inl rfl⟩
    · exact ⟨name, hslash, .inr ⟨c :: front, rfl⟩⟩

/-- A path with more behind it ends in its last name with the same behind it. -/
theorem EndsIn.append {more : List Char} (hends : EndsIn path name) (hmore : '/' ∉ more) :
    EndsIn (path ++ more) (name ++ more) := by
  obtain ⟨hslash, rfl | ⟨front, rfl⟩⟩ := hends
  · exact ⟨by simp [hslash, hmore], .inl rfl⟩
  · exact ⟨by simp [hslash, hmore], .inr ⟨front, by simp⟩⟩

/-- The path of an entry in a directory ends in the name of the entry. -/
theorem endsIn_child (directory : List Char) (hslash : '/' ∉ name) :
    EndsIn (Path.child directory name) name := by
  unfold Path.child
  by_cases hjoined : directory.isEmpty || directory.getLast? = some '/'
  · rw [if_pos hjoined]
    obtain hempty | hlast := Bool.or_eq_true_iff.1 hjoined
    · rw [List.isEmpty_iff.1 hempty]
      exact ⟨hslash, .inl rfl⟩
    · obtain ⟨front, rfl⟩ := List.getLast?_eq_some_iff.1 (of_decide_eq_true hlast)
      exact ⟨hslash, .inr ⟨front, by simp⟩⟩
  · rw [if_neg hjoined]
    exact ⟨hslash, .inr ⟨directory, rfl⟩⟩

/-- A path ends in one name only. -/
theorem EndsIn.unique {other : List Char} (hends : EndsIn path name) (hother : EndsIn path other) :
    name = other :=
  Option.some.inj (hends.getLast?_splitOn.symm.trans hother.getLast?_splitOn)

/-- The last of the names of a path is the one in which it ends, if that is not empty. -/
theorem EndsIn.getLast?_names {path : String} (hends : EndsIn path.toList name) (hname : name ≠ []) :
    (FileTree.names path).getLast? = some (String.ofList name) := by
  obtain ⟨front, hfront⟩ := List.getLast?_eq_some_iff.1 hends.getLast?_splitOn
  simp [FileTree.names, hfront, hname]

/-- A path that leads to a location ends in the name of that location. -/
theorem FileTree.endsIn_of_leadsTo {tree : FileTree} {path : String} {location : Location}
    (hleads : tree.LeadsTo path location) :
    ∃ here name, location = here ++ [String.ofList name] ∧ EndsIn path.toList name ∧
      Path.isFiller name = false ∧ name ≠ ['.', '.'] := by
  obtain ⟨here, last, hlocate, -, rfl⟩ := hleads
  obtain ⟨-, hne, -, hlast, hdot, hup, -, hslash⟩ := locate_eq_entry_iff.1 hlocate
  obtain ⟨name, hends⟩ := exists_endsIn path.toList
  -- A path that ends in nothing is empty or ends in a slash.
  have hname : name ≠ [] := by
    rintro rfl
    obtain ⟨-, hempty | ⟨front, hfront⟩⟩ := hends
    · exact hne (String.toList_eq_nil_iff.1 hempty)
    · simp [hfront] at hslash
  obtain rfl : String.ofList name = last :=
    Option.some.inj ((hends.getLast?_names hname).symm.trans hlast)
  refine ⟨here, name, rfl, hends, ?_, ?_⟩
  · have hone : name ≠ ['.'] := by
      rintro rfl
      exact hdot rfl
    simp [Path.isFiller, hname, hone]
  · rintro rfl
    exact hup rfl

/-! ## The file name of a path -/

namespace Path

/-- The last part of a path is the one in which it ends, unless the path is a single dot. -/
theorem getLast?_parts_ofText (hends : EndsIn path name) (hdot : path ≠ ['.']) :
    (ofText path).parts.getLast? = some name := by
  rw [← hends.getLast?_splitOn]
  fun_cases ofText path with
  | case1 rest => exact (getLast?_splitOn_append [] rest).symm
  | case2 => exact absurd rfl hdot
  | case3 rest =>
    calc (([] : List Char) :: rest.splitOn '/').getLast?
        = (rest.splitOn '/').getLast? := List.getLast?_append_of_ne_nil [[]] (List.splitOn_ne_nil _ _)
      _ = (('.' :: '/' :: rest).splitOn '/').getLast? := (getLast?_splitOn_append ['.'] rest).symm
  | case4 => rfl

/-- Nothing is dropped at the end if the last part names something. -/
theorem trimFillers_eq_self {parts : List (List Char)} (hlast : parts.getLast? = some name)
    (hfiller : isFiller name = false) : trimFillers parts = parts := by
  obtain ⟨front, rfl⟩ := List.getLast?_eq_some_iff.1 hlast
  simp [trimFillers, hfiller]

/-- The file name of a path is the name in which it ends, if that names an entry. -/
theorem fileName?_ofText (hends : EndsIn path name) (hfiller : isFiller name = false)
    (hup : name ≠ ['.', '.']) : (ofText path).fileName? = some name := by
  have hdot : path ≠ ['.'] := by
    rintro rfl
    obtain rfl : name = ['.'] := hends.unique ⟨by decide, .inl rfl⟩
    cases hfiller
  have hlast := getLast?_parts_ofText hends hdot
  rw [fileName?, trimFillers_eq_self hlast hfiller, hlast]
  simp [hup]

end Path

end CallScript.Files

/-! ## The name of a result -/

namespace CallScript

open Files

/-- The name of the result for a script file of a given name. -/
def outputName (name : List Char) : List Char :=
  (scriptStem? name).getD name ++ outputEnding

/-- What is left of a name without its ending. -/
theorem eq_append_of_scriptStem? {name stem : List Char} (hstem : scriptStem? name = some stem) :
    name = stem ++ scriptEnding := by
  unfold scriptStem? at hstem
  by_cases hsuffix : scriptEnding.isSuffixOf name = true
  · rw [if_pos hsuffix] at hstem
    obtain ⟨front, rfl⟩ := List.isSuffixOf_iff_suffix.1 hsuffix
    simpa using hstem
  · simp [hsuffix] at hstem

/-- The name of the result is longer than that of the script. -/
theorem length_lt_length_outputName (name : List Char) : name.length < (outputName name).length := by
  cases hstem : scriptStem? name with
  | none => simp [outputName, hstem, outputEnding]
  | some stem =>
    calc name.length = stem.length + scriptEnding.length := by
          rw [eq_append_of_scriptStem? hstem, List.length_append]
      _ < stem.length + outputEnding.length := Nat.add_lt_add_left (by decide) _
      _ = (outputName name).length := by simp [outputName, hstem]

/-- The path of the result ends in the name of the result. -/
theorem endsIn_outputPath {input : String} {name : List Char} (hends : EndsIn input.toList name)
    (hfiller : Path.isFiller name = false) (hup : name ≠ ['.', '.']) :
    EndsIn (outputPath input).toList (outputName name) := by
  have hending : '/' ∉ outputEnding := by decide
  have hfile : (Path.ofText input.toList).fileName? = some name :=
    Path.fileName?_ofText hends hfiller hup
  cases hstem : scriptStem? name with
  | none =>
    simp only [outputPath, outputName, hfile, Option.bind_some, hstem, Option.getD_none,
      String.toList_ofList]
    exact hends.append hending
  | some stem =>
    simp only [outputPath, outputName, hfile, Option.bind_some, hstem, Option.getD_some,
      String.toList_ofList]
    have hslash : '/' ∉ stem := fun hmem =>
      hends.1 (eq_append_of_scriptStem? hstem ▸ List.mem_append_left _ hmem)
    exact endsIn_child _ (by simp [hslash, hending])

/-- The path of a script and the path of its result lead to different locations. -/
theorem outputPath_apart {tree : FileTree} {input : String} {source target : Location}
    (hsource : tree.LeadsTo input source) (htarget : tree.LeadsTo (outputPath input) target) :
    source ≠ target := by
  obtain ⟨here, name, rfl, hends, hfiller, hup⟩ := FileTree.endsIn_of_leadsTo hsource
  obtain ⟨there, last, rfl, hlast, -, -⟩ := FileTree.endsIn_of_leadsTo htarget
  obtain rfl : outputName name = last := (endsIn_outputPath hends hfiller hup).unique hlast
  intro heq
  have hname : name = outputName name := by
    simpa [String.ofList_inj] using List.append_inj_right' heq rfl
  exact Nat.ne_of_lt (length_lt_length_outputName name) (congrArg List.length hname)

end CallScript
