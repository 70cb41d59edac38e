import CallScript.Proofs.Script.Emission

/-! # Lines do not influence each other

What one call of the line compiler can see and change. Whether a line is accepted depends on its text
alone, and a line that is refused might as well not have been there.

* **`Draft.accepted`** leaves out the calls that fail when they are made in order.
* **`Draft.accepted_eq_filter`**: which calls fail does not depend on the calls before them.
* **`Draft.finish_foldl_attempt`**: line numbers reach neither the records nor the labels.
* **`Draft.addLine_isolated`** puts one call and whole runs of calls together. -/

namespace CallScript.Script

/-- A line emits at most one record. -/
theorem Emission.length_records_le (emitted : Emission) : emitted.records.length ≤ 1 := by
  cases emitted <;> simp [Emission.records]

namespace Draft

/-! ## One call -/

/-- A line fails exactly when nothing can be emitted for it, at the number that it was given, and
leaves the draft as it was. -/
theorem addLine_eq_error_iff {draft next : Draft} {number : Nat} {raw : String}
    {error : ScriptError} :
    draft.addLine number raw = (.error error, next) ↔
      ∃ fault, emission raw = .error fault ∧ error = fault.atLine number ∧ next = draft := by
  rw [addLine_eq]
  cases emission raw with
  | error fault => simp [eq_comm]
  | ok emitted => simp

/-- A line is compiled exactly when something is emitted for it, and that is taken up. -/
theorem addLine_eq_ok_iff {draft next : Draft} {number : Nat} {raw : String} :
    draft.addLine number raw = (.ok (), next) ↔
      ∃ emitted, emission raw = .ok emitted ∧ next = draft.emit number emitted := by
  rw [addLine_eq]
  cases emission raw with
  | error fault => simp
  | ok emitted => simp [eq_comm]

/-- The failure of a line is the fault of its text, at the number that it was given. -/
theorem addLine_fst_eq_error_iff {draft : Draft} {number : Nat} {raw : String}
    {error : ScriptError} :
    (draft.addLine number raw).1 = .error error ↔
      ∃ fault, emission raw = .error fault ∧ error = fault.atLine number := by
  constructor
  · intro h
    obtain ⟨fault, hemission, herror, -⟩ := addLine_eq_error_iff.1 (Prod.ext h rfl)
    exact ⟨fault, hemission, herror⟩
  · rintro ⟨fault, hemission, rfl⟩
    rw [addLine_eq_error_iff.2 ⟨fault, hemission, rfl, rfl⟩]

/-! ## Runs without the calls that fail -/

/-- The calls among the given ones that do not fail when all are made in order, each on the draft
that the calls before it have left. -/
def accepted (draft : Draft) : List (Nat × String) → List (Nat × String)
  | [] => []
  | line :: lines =>
    match draft.addLine line.1 line.2 with
    | (.ok (), next) => line :: next.accepted lines
    | (.error _, next) => next.accepted lines

/-- Which calls fail can be told from each of them on its own, on any draft. -/
theorem accepted_eq_filter (draft other : Draft) (lines : List (Nat × String)) :
    draft.accepted lines = lines.filter fun line => (other.addLine line.1 line.2).1.isOk := by
  induction lines generalizing draft with
  | nil => rfl
  | cons line lines ih =>
    rw [accepted, addLine_eq, List.filter_cons, addLine_eq]
    cases emission line.2 with
    | error fault => simp [Except.isOk, Except.toBool, ih]
    | ok emitted => simp [Except.isOk, Except.toBool, ih]

/-- None of the calls that are left fails, and they lead to the same draft as all the calls do. -/
theorem addLines_accepted (draft : Draft) (lines : List (Nat × String)) :
    draft.addLines (draft.accepted lines) = (.ok (), lines.foldl attempt draft) := by
  induction lines generalizing draft with
  | nil => rfl
  | cons line lines ih =>
    rw [accepted, addLine_eq, List.foldl_cons, attempt_eq]
    cases hemission : emission line.2 with
    | error fault => exact ih draft
    | ok emitted =>
      show draft.addLines ((line.1, line.2) :: _) = _
      rw [addLines_cons, hemission]
      exact ih (draft.emit line.1 emitted)

/-! ## Runs with other line numbers -/

/-- Drafts of the same program become drafts of the same program when the same is emitted, at
whatever lines. -/
theorem finish_emit {draft draft' : Draft} (h : draft.finish = draft'.finish) (number number' : Nat)
    (emitted : Emission) :
    (draft.emit number emitted).finish = (draft'.emit number' emitted).finish := by
  obtain ⟨hrecords, hlabels⟩ := Program.mk.inj h
  cases emitted with
  | nothing => exact h
  | padding => simp [emit, push, finish, hrecords, hlabels]
  | labelled label record =>
    -- The label is entered for the number of records, which is the same.
    have hsize : draft.records.size = draft'.records.size := by
      rw [← Array.length_toList, hrecords, Array.length_toList]
    simp [emit, pushLabelled, finish, hrecords, hlabels, hsize]

/-- Trying the same texts under other line numbers leads to the same program. -/
theorem finish_foldl_attempt {draft draft' : Draft} (h : draft.finish = draft'.finish)
    {lines lines' : List (Nat × String)} (htexts : lines.map Prod.snd = lines'.map Prod.snd) :
    (lines.foldl attempt draft).finish = (lines'.foldl attempt draft').finish := by
  induction lines generalizing draft draft' lines' with
  | nil =>
    obtain rfl : lines' = [] := List.map_eq_nil_iff.1 htexts.symm
    exact h
  | cons line lines ih =>
    obtain ⟨line', lines', rfl, htext, htexts⟩ := List.map_eq_cons_iff.1 htexts.symm
    rw [List.foldl_cons, List.foldl_cons]
    refine ih ?_ htexts.symm
    rw [attempt_eq, attempt_eq, htext]
    cases emission line.2 with
    | error fault => exact h
    | ok emitted => exact finish_emit h line.1 line'.1 emitted

/-! ## Isolation -/

/-- **A line that fails leaves no trace, and drafts do not influence lines.** Whether a line fails,
and the column and the cause of the failure, are the same on all drafts and under all numbers, and
the line of the failure is the number that was given. A line that fails leaves the draft as it was.
A line that does not fail keeps the records in front and adds at most one. So the calls of a run that
fail are those that fail on their own, the run without them has no failure and ends with the same
draft, and the records and labels at the end do not depend on the numbers of the lines. -/
theorem addLine_isolated :
    (∀ (draft draft' : Draft) (number number' : Nat) (raw : String) (column : Nat) (cause : Cause),
      (draft.addLine number raw).1 = .error ⟨number, column, cause⟩ ↔
        (draft'.addLine number' raw).1 = .error ⟨number', column, cause⟩) ∧
    (∀ (draft next : Draft) (number : Nat) (raw : String) (error : ScriptError),
      draft.addLine number raw = (.error error, next) → error.line = number ∧ next = draft) ∧
    (∀ (draft next : Draft) (number : Nat) (raw : String),
      draft.addLine number raw = (.ok (), next) →
        draft.records.toList <+: next.records.toList ∧
          next.records.size ≤ draft.records.size + 1) ∧
    (∀ lines : List (Nat × String),
      empty.accepted lines = lines.filter (fun line => (empty.addLine line.1 line.2).1.isOk) ∧
        empty.addLines (empty.accepted lines) = (.ok (), attemptAll lines) ∧
        attemptAll (empty.accepted lines) = attemptAll lines) ∧
    ∀ lines lines' : List (Nat × String), lines.map Prod.snd = lines'.map Prod.snd →
      (attemptAll lines).finish = (attemptAll lines').finish := by
  refine ⟨?_, ?_, ?_, ?_, ?_⟩
  · intro draft draft' number number' raw column cause
    rw [addLine_fst_eq_error_iff, addLine_fst_eq_error_iff]
    simp [Fault.atLine]
  · intro draft next number raw error h
    obtain ⟨fault, -, rfl, rfl⟩ := addLine_eq_error_iff.1 h
    exact ⟨rfl, rfl⟩
  · intro draft next number raw h
    obtain ⟨emitted, -, rfl⟩ := addLine_eq_ok_iff.1 h
    refine ⟨⟨emitted.records, (records_emit _ _ _).symm⟩, ?_⟩
    rw [← Array.length_toList, records_emit, List.length_append, Array.length_toList]
    exact Nat.add_le_add_left emitted.length_records_le _
  · intro lines
    have hrun := addLines_accepted empty lines
    exact ⟨accepted_eq_filter empty empty lines, hrun, foldl_attempt_of_addLines hrun⟩
  · intro lines lines' htexts
    exact finish_foldl_attempt rfl htexts

/-- A line with a fault in its second argument. -/
def faultyLine : String :=
  "0xAb00000000000000000000000000000000000001 f(uint,uint) 7 x"

/-- The faulty line fails on any draft and under any number, and can be left out of a run. -/
theorem faultyLine_isolated :
    (∀ draft : Draft, draft.addLine 4 faultyLine =
      (.error ⟨4, 59, .invalidNumber "x" (.invalidDigit 'x')⟩, draft)) ∧
    (∀ draft : Draft, draft.addLine 5 "" = (.ok (), draft.push .pad) ∧
      (draft.push .pad).records.size ≤ draft.records.size + 1) ∧
    attemptAll [(1, "")] = attemptAll [(1, ""), (4, faultyLine)] ∧
    (attemptAll [(1, ""), (4, faultyLine)]).finish =
      (attemptAll [(8, ""), (0, faultyLine)]).finish := by
  have hfault : (empty.addLine 1 faultyLine).1 =
      .error ⟨1, 59, .invalidNumber "x" (.invalidDigit 'x')⟩ := by decide +kernel
  refine ⟨?_, fun draft => ⟨rfl, (addLine_isolated.2.2.1 draft _ 5 "" rfl).2⟩, ?_,
    addLine_isolated.2.2.2.2 _ _ rfl⟩
  · intro draft
    have hfails : (draft.addLine 4 faultyLine).1 =
        .error ⟨4, 59, .invalidNumber "x" (.invalidDigit 'x')⟩ :=
      (addLine_isolated.1 empty draft 1 4 faultyLine _ _).1 hfault
    have hstays : (draft.addLine 4 faultyLine).2 = draft :=
      (addLine_isolated.2.1 draft _ 4 faultyLine _ (Prod.ext hfails rfl)).2
    exact Prod.ext hfails hstays
  · have haccepted : empty.accepted [(1, ""), (4, faultyLine)] = [(1, "")] := by decide +kernel
    rw [← (addLine_isolated.2.2.2.1 [(1, ""), (4, faultyLine)]).2.2, haccepted]

end Draft

end CallScript.Script
