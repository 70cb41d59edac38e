import CallScript.Files.Tree

/-! # What a write changes

A write changes what stands at one location and nothing else, and the paths that could be followed
before it can be followed after it.

* **`FileTree.write_eq_ok_iff`** and **`FileTree.read_eq_ok_iff`** say when a write and a read
  succeed.
* **`FileTree.Written`** relates a tree to the one in which the file at a path has been replaced;
  **`FileTree.written_of_write`**: that is what a write does.
* **`FileTree.read_of_write`**: a file that stands elsewhere can be read as before. -/

namespace CallScript.Files.FileTree

variable {tree : FileTree} {location : Location} {contents : Bytes}

/-! ## Entries -/

/-- The entry put at a location is found there. -/
theorem lookup_putEntry_self (location : Location) (entry : Entry)
    (entries : List (Location × Entry)) :
    (putEntry location entry entries).lookup location = some entry := by
  induction entries with
  | nil => simp [putEntry]
  | cons head rest ih =>
    obtain ⟨other, old⟩ := head
    by_cases hother : location = other
    · simp [putEntry, hother]
    · have hbeq : (location == other) = false := beq_eq_false_iff_ne.2 hother
      rw [putEntry, if_neg hother, List.lookup_cons, hbeq]
      exact ih

/-- An entry put at a location is in the way of no other. -/
theorem lookup_putEntry_of_ne {other : Location} (hother : other ≠ location) (entry : Entry)
    (entries : List (Location × Entry)) :
    (putEntry location entry entries).lookup other = entries.lookup other := by
  have hself : (other == location) = false := beq_eq_false_iff_ne.2 hother
  induction entries with
  | nil => simp [putEntry, List.lookup_cons, hself]
  | cons head rest ih =>
    obtain ⟨place, old⟩ := head
    by_cases hplace : location = place
    · subst hplace
      rw [putEntry, if_pos rfl, List.lookup_cons, List.lookup_cons, hself]
    · rw [putEntry, if_neg hplace, List.lookup_cons, List.lookup_cons, ih]

/-- At a location that is not a directory stands what was put there last. -/
theorem entry?_put_self (hfree : tree.entry? location ≠ some .directory) (entry : Entry) :
    entry? (tree.put location entry) location = some entry := by
  -- The locations on the way to the working directory are directories whatever is put there.
  have hbelow : ¬ location.isPrefixOf tree.workingDirectory := fun h => hfree (if_pos h)
  simp only [ entry?, put, if_neg hbelow, lookup_putEntry_self]

/-- What stands at the other locations stays. -/
theorem entry?_put_of_ne {other : Location} (hother : other ≠ location) (entry : Entry) :
    entry? (tree.put location entry) other = tree.entry? other := by
  simp [ entry?, put, lookup_putEntry_of_ne hother]

/-! ## Following paths -/

/-- A directory that could be entered can be entered after a file has been put elsewhere, and no
directory is where a file can be put. -/
theorem enter_put {here next : Location} {name : String}
    (hfree : tree.entry? location ≠ some .directory) (henter : tree.enter here name = .ok next) :
    (tree.put location (.file contents)).enter here name = .ok next := by
  unfold enter at henter ⊢
  by_cases hdots : name = "." ∨ name = ".."
  · rwa [if_pos hdots] at henter ⊢
  rw [if_neg hdots] at henter ⊢
  by_cases hlong : maxNameLength < name.utf8ByteSize
  · simp [hlong] at henter
  rw [if_neg hlong] at henter ⊢
  cases hentry : tree.entry? (here.step name) with
  | none => simp [hentry] at henter
  | some entry =>
    cases entry with
    | file old => simp [hentry] at henter
    | directory =>
      have hne : here.step name ≠ location := by
        rintro rfl
        exact hfree hentry
      rwa [entry?_put_of_ne hne]

/-- Directories that could be followed can be followed after a file has been put. -/
theorem enterAll_put {here last : Location} {names : List String}
    (hfree : tree.entry? location ≠ some .directory) (henter : tree.enterAll here names = .ok last) :
    (tree.put location (.file contents)).enterAll here names = .ok last := by
  induction names generalizing here with
  | nil => exact henter
  | cons name rest ih =>
    cases hname : tree.enter here name with
    | error error => simp [enterAll, hname] at henter
    | ok next =>
      simp only [enterAll, hname, enter_put hfree hname] at henter ⊢
      exact ih henter

/-- A path leads to an entry exactly when it is a possible path, its last name is that of the entry
and no dots, and the names before it lead to the directory. -/
theorem locate_eq_entry_iff {path : String} {here : Location} {name : String} {slash : Bool} :
    tree.locate path = .ok (.entry here name slash) ↔
      '\x00' ∉ path.toList ∧ path ≠ "" ∧ path.utf8ByteSize ≤ maxPathLength ∧
        (names path).getLast? = some name ∧ name ≠ "." ∧ name ≠ ".." ∧
        tree.enterAll (if path.toList.head? = some '/' then [] else tree.workingDirectory)
          (names path).dropLast = .ok here ∧
        slash = decide (path.toList.getLast? = some '/') := by
  unfold locate
  -- The checks of the path come first, and a path that fails one leads nowhere.
  by_cases hnul : path.toList.contains '\x00' = true
  · simp [List.contains_iff_mem.1 hnul]
  have hmem : '\x00' ∉ path.toList := fun h => hnul (List.contains_iff_mem.2 h)
  rw [if_neg hnul]
  by_cases hempty : path.isEmpty = true
  · simp [String.isEmpty_iff.1 hempty]
  have hne : path ≠ "" := fun h => hempty (String.isEmpty_iff.2 h)
  rw [if_neg hempty]
  by_cases hlong : maxPathLength < path.utf8ByteSize
  · simp only [hlong, if_true, reduceCtorEq, false_iff]
    rintro ⟨-, -, hle, -⟩
    exact Nat.not_le.2 hlong hle
  have hle : path.utf8ByteSize ≤ maxPathLength := Nat.le_of_not_lt hlong
  rw [if_neg hlong]
  dsimp only
  cases hlast : (names path).getLast? with
  | none => simp
  | some last =>
    cases henter : tree.enterAll
        (if path.toList.head? = some '/' then [] else tree.workingDirectory)
        (names path).dropLast with
    | error error => simp
    | ok directory =>
      by_cases hdots : last = "." ∨ last = ".."
      · simp only [hdots, if_true, Except.ok.injEq, reduceCtorEq, Option.some.injEq, false_iff]
        rintro ⟨-, -, -, rfl, hdot, hup, -⟩
        exact hdots.elim hdot hup
      · have hnot := not_or.1 hdots
        simp only [hdots, if_false, Except.ok.injEq, Target.entry.injEq, Option.some.injEq]
        constructor
        · rintro ⟨rfl, rfl, rfl⟩
          exact ⟨hmem, hne, hle, rfl, hnot.1, hnot.2, rfl, rfl⟩
        · rintro ⟨-, -, -, rfl, -, -, rfl, rfl⟩
          exact ⟨rfl, rfl, rfl⟩

/-- An entry to which a path leads is the one to which it leads after a file has been put. -/
theorem locate_put {path : String} {here : Location} {name : String} {slash : Bool}
    (hfree : tree.entry? location ≠ some .directory)
    (hlocate : tree.locate path = .ok (.entry here name slash)) :
    (tree.put location (.file contents)).locate path = .ok (.entry here name slash) := by
  obtain ⟨hnul, hne, hle, hlast, hdot, hup, henter, hslash⟩ := locate_eq_entry_iff.1 hlocate
  exact locate_eq_entry_iff.2 ⟨hnul, hne, hle, hlast, hdot, hup, enterAll_put hfree henter, hslash⟩

/-! ## Reading and writing -/

/-- A path **leads to** a location as the path of a file: it can be followed to there, does not end
in a slash, and the name is not too long. -/
def LeadsTo (tree : FileTree) (path : String) (location : Location) : Prop :=
  ∃ here name, tree.locate path = .ok (.entry here name false) ∧
    name.utf8ByteSize ≤ maxNameLength ∧ location = here ++ [name]

/-- A path leads to where it led before a file was put. -/
theorem LeadsTo.put {path : String} {place : Location} (hleads : tree.LeadsTo path place)
    (hfree : tree.entry? location ≠ some .directory) :
    (tree.put location (.file contents)).LeadsTo path place := by
  obtain ⟨here, name, hlocate, hlength, rfl⟩ := hleads
  exact ⟨here, name, locate_put hfree hlocate, hlength, rfl⟩

/-- The contents read at a path are those of the file to which it leads. -/
theorem read_eq_ok_iff {path : String} :
    tree.read path = .ok contents ↔
      ∃ location, tree.LeadsTo path location ∧ tree.entry? location = some (.file contents) := by
  constructor
  · intro hread
    unfold read at hread
    cases hlocate : tree.locate path with
    | error error => simp [hlocate] at hread
    | ok target =>
      cases target with
      | directory => simp [hlocate] at hread
      | entry here name slash =>
        by_cases hlong : maxNameLength < name.utf8ByteSize
        · simp [hlocate, hlong] at hread
        · simp only [hlocate, if_neg hlong] at hread
          cases hentry : tree.entry? (here ++ [name]) with
          | none => simp [hentry] at hread
          | some entry =>
            cases entry with
            | directory => simp [hentry] at hread
            | file old =>
              cases slash with
              | true => simp [hentry] at hread
              | false =>
                obtain rfl : old = contents := by simpa [hentry] using hread
                exact ⟨here ++ [name], ⟨here, name, hlocate, Nat.le_of_not_lt hlong, rfl⟩, hentry⟩
  · rintro ⟨location, ⟨here, name, hlocate, hlength, rfl⟩, hentry⟩
    simp [read, hlocate, hentry, Nat.not_lt.2 hlength]

/-- A write succeeds exactly when the path leads to a location that is not a directory, and it puts
the file there. -/
theorem write_eq_ok_iff {path : String} {after : FileTree} :
    tree.write path contents = .ok after ↔
      ∃ location, tree.LeadsTo path location ∧ tree.entry? location ≠ some .directory ∧
        after = tree.put location (.file contents) := by
  constructor
  · intro hwrite
    unfold write at hwrite
    cases hlocate : tree.locate path with
    | error error => simp [hlocate] at hwrite
    | ok target =>
      cases target with
      | directory => simp [hlocate] at hwrite
      | entry here name slash =>
        cases slash with
        | true => simp [hlocate] at hwrite
        | false =>
          by_cases hlong : maxNameLength < name.utf8ByteSize
          · simp [hlocate, hlong] at hwrite
          · have hleads : tree.LeadsTo path (here ++ [name]) :=
              ⟨here, name, hlocate, Nat.le_of_not_lt hlong, rfl⟩
            refine ⟨here ++ [name], hleads, ?_, ?_⟩
            · intro hentry
              simp [hlocate, hlong, hentry] at hwrite
            · cases hentry : tree.entry? (here ++ [name]) with
              | none => simpa [hlocate, hlong, hentry, eq_comm] using hwrite
              | some entry =>
                cases entry with
                | directory => simp [hlocate, hlong, hentry] at hwrite
                | file old => simpa [hlocate, hlong, hentry, eq_comm] using hwrite
  · rintro ⟨location, ⟨here, name, hlocate, hlength, rfl⟩, hfree, rfl⟩
    cases hentry : tree.entry? (here ++ [name]) with
    | none => simp [write, hlocate, hentry, Nat.not_lt.2 hlength]
    | some entry =>
      cases entry with
      | directory => exact absurd hentry hfree
      | file old => simp [write, hlocate, hentry, Nat.not_lt.2 hlength]

/-- One tree is another **with a file written at a path**: the path leads to a location where that
file now stands, and everywhere else stands what stood there before. -/
structure Written (before : FileTree) (path : String) (contents : Bytes) (after : FileTree) :
    Prop where
  /-- The file can be read at the path. -/
  read_eq : after.read path = .ok contents
  /-- The working directory is the same. -/
  workingDirectory_eq : after.workingDirectory = before.workingDirectory
  /-- One location at most has changed. -/
  entry?_eq : ∃ location, before.LeadsTo path location ∧
    after.entry? location = some (.file contents) ∧
      ∀ other, other ≠ location → after.entry? other = before.entry? other

/-- A write that succeeds writes a file at its path and changes nothing else. -/
theorem written_of_write {path : String} {after : FileTree}
    (hwrite : tree.write path contents = .ok after) : tree.Written path contents after := by
  obtain ⟨location, hleads, hfree, rfl⟩ := write_eq_ok_iff.1 hwrite
  have hentry : entry? (tree.put location (.file contents)) location = some (.file contents) :=
    entry?_put_self hfree _
  exact ⟨read_eq_ok_iff.2 ⟨location, hleads.put hfree, hentry⟩, rfl,
    location, hleads, hentry, fun other hother => entry?_put_of_ne hother _⟩

/-- A file that can be read can be read after a write to a path that leads elsewhere. -/
theorem read_of_write {input output : String} {bytes : Bytes} {after : FileTree}
    (hread : tree.read input = .ok bytes) (hwrite : tree.write output contents = .ok after)
    (hapart : ∀ source target, tree.LeadsTo input source → tree.LeadsTo output target →
      source ≠ target) :
    after.read input = .ok bytes := by
  obtain ⟨source, hsource, hentry⟩ := read_eq_ok_iff.1 hread
  obtain ⟨target, htarget, hfree, rfl⟩ := write_eq_ok_iff.1 hwrite
  have hne : source ≠ target := hapart source target hsource htarget
  exact read_eq_ok_iff.2 ⟨source, hsource.put hfree, (entry?_put_of_ne hne _).trans hentry⟩

end CallScript.Files.FileTree
