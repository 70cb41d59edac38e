import CallScript.Proofs.Script.Emission

/-! # Scripts in a row

Compiling two scripts with a newline between them is compiling one after the other: the lines of the
second are numbered after those of the first, and its records come after the first one's records.

* **`Draft.Joins`** relates a draft that started from another one to the draft that started from
  nothing.
* **`Draft.Joins.addLines`**: compiling the same lines, up to their numbers, keeps two drafts so
  related.
* **`compile_join`**: what comes of the joined script, in terms of what comes of the two parts. -/

namespace CallScript.Script

/-! ## Lines of a joined script -/

/-- The lines of a joined script are those of the first part and then those of the second. -/
theorem splitLines_join (first second : String) :
    splitLines (first ++ "\n" ++ second) = splitLines first ++ splitLines second := by
  have htext : (first ++ "\n" ++ second).toList = first.toList ++ '\n' :: second.toList := by simp
  rw [splitLines, htext, List.splitOn_append_cons_self, List.map_append]
  rfl

/-- A script has one more line than it has newlines. -/
theorem length_splitLines (source : String) :
    (splitLines source).length = source.toList.count '\n' + 1 := by
  rw [splitLines, List.length_map]
  induction source.toList with
  | nil => rfl
  | cons c text ih =>
    rw [List.splitOn_cons_eq_if_modifyHead, List.count_cons]
    split <;> simp [ih]

/-- The lines of the second part are numbered after those of the first. -/
theorem numberedLines_join (first second : String) :
    numberedLines (first ++ "\n" ++ second) =
      numberedLines first ++
        (numberedLines second).map fun line => ((splitLines first).length + line.1, line.2) := by
  rw [numberedLines, splitLines_join, List.mapIdx_append]
  congr 1
  apply List.ext_getElem
  · simp [numberedLines]
  · intro i hleft hright
    -- Line `i` of the second part comes after all lines of the first.
    simp only [numberedLines, List.getElem_mapIdx, List.getElem_map]
    rw [Nat.add_comm i, Nat.add_assoc]

/-! ## Labels -/

/-- The first entry of a table answers for its own name. -/
theorem LabelTable.lookup_cons_eq_if (other name : String) (value : Nat)
    (rest : List (String × Nat)) :
    ((other, value) :: rest).lookup name =
      if name = other then some value else rest.lookup name := by
  by_cases h : name = other
  · subst h
    simp
  · have hbeq : (name == other) = false := beq_false_of_ne h
    simp [List.lookup_cons, hbeq, h]

/-- After a definition, a label stands for the record it was defined for, and every other label for
what it stood for before. -/
theorem LabelTable.get?_define (table : LabelTable) (label : String) (index : Nat) (name : String) :
    (table.define label index).2.get? name =
      if name = label then some index else table.get? name := by
  show (insertEntry label index table.entries).lookup name = _
  unfold get?
  induction table.entries with
  | nil => rw [insertEntry, lookup_cons_eq_if]
  | cons entry rest ih =>
    obtain ⟨other, value⟩ := entry
    rw [insertEntry]
    -- The entry is replaced, or the new one goes before it, or further down.
    split
    · next hsame =>
      subst hsame
      rw [lookup_cons_eq_if, lookup_cons_eq_if]
      split <;> rfl
    · next hother =>
      split
      · rw [lookup_cons_eq_if]
      · rw [lookup_cons_eq_if, ih, lookup_cons_eq_if]
        by_cases hname : name = other
        · subst hname
          simp [Ne.symm hother]
        · simp [hname]

/-! ## Drafts that started from another draft -/

namespace Draft

/-- The label table of a draft after taking up an emission. -/
theorem get?_labels_emit (draft : Draft) (number : Nat) (emitted : Emission) (name : String) :
    (draft.emit number emitted).labels.get? name =
      match emitted with
      | .labelled label _ =>
        if name = label then some draft.records.size else draft.labels.get? name
      | _ => draft.labels.get? name := by
  cases emitted with
  | nothing => rfl
  | padding => rfl
  | labelled label record => exact LabelTable.get?_define draft.labels label draft.records.size name

/-- The draft `whole` **joins** `base` and `part`: its records are those of both in a row, and a
label stands for what it stands for in `part`, counted from the end of `base`, or else for what it
stands for in `base`. -/
structure Joins (base part whole : Draft) : Prop where
  /-- The records of both drafts in a row. -/
  records : whole.records.toList = base.records.toList ++ part.records.toList
  /-- The labels of `part` take precedence. -/
  labels : ∀ name, whole.labels.get? name =
    ((part.labels.get? name).map (· + base.records.size)).or (base.labels.get? name)

/-- A draft joins itself and nothing. -/
theorem joins_empty (base : Draft) : Joins base empty base :=
  ⟨by simp [empty], fun name => rfl⟩

/-- Taking up the same emission keeps a join, whatever the numbers of the lines. -/
theorem Joins.emit {base part whole : Draft} (h : Joins base part whole) (emitted : Emission)
    (number number' : Nat) :
    Joins base (part.emit number emitted) (whole.emit number' emitted) := by
  -- Both drafts enter the label for the record at their end.
  have hsize : whole.records.size = part.records.size + base.records.size := by
    have hlength := congrArg List.length h.records
    simp only [List.length_append, Array.length_toList] at hlength
    omega
  refine ⟨?_, ?_⟩
  · rw [records_emit, records_emit, h.records, List.append_assoc]
  · intro name
    rw [get?_labels_emit, get?_labels_emit]
    cases emitted with
    | nothing => exact h.labels name
    | padding => exact h.labels name
    | labelled label record =>
      by_cases hname : name = label
      · simp [hname, hsize]
      · simpa [hname] using h.labels name

end Draft

/-- A script error some lines further down. -/
def ScriptError.down (offset : Nat) (error : ScriptError) : ScriptError :=
  { error with line := offset + error.line }

namespace Draft

/-- Lines in a row are compiled up to the first fault in the first part, or else in the second. -/
theorem addLines_append (draft : Draft) (first second : List (Nat × String)) :
    draft.addLines (first ++ second) =
      match draft.addLines first with
      | (.ok (), next) => next.addLines second
      | (.error error, next) => (.error error, next) := by
  induction first generalizing draft with
  | nil => rfl
  | cons line first ih =>
    obtain ⟨number, raw⟩ := line
    rw [List.cons_append, addLines_cons, addLines_cons]
    cases emission raw with
    | error fault => rfl
    | ok emitted => exact ih (draft.emit number emitted)

/-- **Compiling the same lines keeps a join.** The draft that started from `base` fails where the
draft that started from nothing does, with the line counted from where `base` ends. -/
theorem Joins.addLines {base part whole : Draft} (h : Joins base part whole) (offset : Nat)
    (lines : List (Nat × String)) :
    Joins base (part.addLines lines).2
        (whole.addLines (lines.map fun line => (offset + line.1, line.2))).2 ∧
      (whole.addLines (lines.map fun line => (offset + line.1, line.2))).1 =
        (part.addLines lines).1.mapError (ScriptError.down offset) := by
  induction lines generalizing part whole with
  | nil => exact ⟨h, rfl⟩
  | cons line lines ih =>
    obtain ⟨number, raw⟩ := line
    rw [List.map_cons, addLines_cons, addLines_cons]
    cases emission raw with
    | error fault => exact ⟨h, rfl⟩
    | ok emitted => exact ih (h.emit emitted number (offset + number))

end Draft

/-! ## Joined scripts -/

/-- A script fails with the error of the first line that fails. -/
theorem compile_eq_error_iff {source : String} {error : ScriptError} :
    compile source = .error error ↔
      (Draft.empty.addLines (numberedLines source)).1 = .error error := by
  unfold compile draft
  rcases Draft.empty.addLines (numberedLines source) with ⟨error' | _, final⟩ <;> simp

/-- After a first script without faults, the joined script compiles as the second does. -/
theorem addLines_join {first : String} (second : String) {base : Draft}
    (h : Draft.empty.addLines (numberedLines first) = (.ok (), base)) :
    Draft.Joins base (Draft.empty.addLines (numberedLines second)).2
        (Draft.empty.addLines (numberedLines (first ++ "\n" ++ second))).2 ∧
      (Draft.empty.addLines (numberedLines (first ++ "\n" ++ second))).1 =
        (Draft.empty.addLines (numberedLines second)).1.mapError
          (ScriptError.down (first.toList.count '\n' + 1)) := by
  rw [numberedLines_join, Draft.addLines_append, h, length_splitLines]
  exact (Draft.joins_empty base).addLines _ _

/-- **Compiling scripts in a row.** If the first script fails, the joined one fails in the same way.
If only the second fails, the joined one fails in the same way, with the line counted from the end
of the first. If neither fails, the records of both come out in a row, and a label stands for what
it stands for in the second, counted from the end of the first, or else for what it stands for in
the first. -/
theorem compile_join (first second : String) :
    (∀ error, compile first = .error error →
      compile (first ++ "\n" ++ second) = .error error) ∧
    (∀ program error, compile first = .ok program → compile second = .error error →
      compile (first ++ "\n" ++ second) =
        .error ⟨(first.toList.count '\n' + 1) + error.line, error.column, error.cause⟩) ∧
    (∀ program other, compile first = .ok program → compile second = .ok other →
      ∃ joined, compile (first ++ "\n" ++ second) = .ok joined ∧
        joined.records = program.records ++ other.records ∧
        ∀ name, joined.labels.get? name =
          match other.labels.get? name with
          | some index => some (index + program.records.length)
          | none => program.labels.get? name) := by
  refine ⟨?_, ?_, ?_⟩
  · -- The fault is met before the second part is reached.
    intro error hfirst
    rw [compile_eq_error_iff] at hfirst ⊢
    rw [numberedLines_join, Draft.addLines_append]
    rcases hrun : Draft.empty.addLines (numberedLines first) with ⟨error' | _, final⟩
    · simpa [hrun] using hfirst
    · simp [hrun] at hfirst
  · intro program error hfirst hsecond
    obtain ⟨base, hbase, rfl⟩ := compile_eq_ok_iff.1 hfirst
    rw [compile_eq_error_iff] at hsecond ⊢
    rw [(addLines_join second hbase).2, hsecond]
    rfl
  · intro program other hfirst hsecond
    obtain ⟨base, hbase, rfl⟩ := compile_eq_ok_iff.1 hfirst
    obtain ⟨part, hpart, rfl⟩ := compile_eq_ok_iff.1 hsecond
    obtain ⟨hjoins, hok⟩ := addLines_join second hbase
    rw [hpart] at hjoins hok
    refine ⟨_, compile_eq_ok_iff.2 ⟨_, Prod.ext hok rfl, rfl⟩, hjoins.records, ?_⟩
    intro name
    show (Draft.empty.addLines _).2.labels.get? name = _
    rw [hjoins.labels name]
    show _ = match part.labels.get? name with
      | some index => some (index + base.records.toList.length)
      | none => base.labels.get? name
    cases part.labels.get? name with
    | some index => simp
    | none => simp

/-- A fault before or after the newline, and a label that is moved behind a blank line. -/
theorem compile_join_one_line :
    compile ("?" ++ "\n" ++ "") = .error ⟨1, 1, .malformedLine "?"⟩ ∧
    compile ("" ++ "\n" ++ "?") = .error ⟨2, 1, .malformedLine "?"⟩ ∧
    ∃ program other joined, compile "" = .ok program ∧
      compile "0xAb00000000000000000000000000000000000001 f()" = .ok other ∧
      compile ("" ++ "\n" ++ "0xAb00000000000000000000000000000000000001 f()") = .ok joined ∧
      joined.records = program.records ++ other.records ∧
      ∀ name, joined.labels.get? name =
        match other.labels.get? name with
        | some index => some (index + program.records.length)
        | none => program.labels.get? name := by
  have hfault : compile "?" = .error ⟨1, 1, .malformedLine "?"⟩ := by decide +kernel
  obtain ⟨program, hprogram⟩ : ∃ program, compile "" = .ok program :=
    exists_compile_eq_ok (by decide +kernel)
  obtain ⟨other, hother⟩ :
      ∃ other, compile "0xAb00000000000000000000000000000000000001 f()" = .ok other :=
    exists_compile_eq_ok (by decide +kernel)
  refine ⟨(compile_join "?" "").1 _ hfault, ?_, program, other, ?_⟩
  · exact (compile_join "" "?").2.1 program _ hprogram hfault
  · obtain ⟨joined, hjoined, hrecords, hlabels⟩ :=
      (compile_join "" "0xAb00000000000000000000000000000000000001 f()").2.2 program other hprogram
        hother
    exact ⟨joined, hprogram, hother, hjoined, hrecords, hlabels⟩

end CallScript.Script
