import CallScript.Proofs.Script.Grammar
import CallScript.Proofs.Script.Joining
import CallScript.Script.Diagnostic
import Mathlib.Data.List.Forall2

/-! # Line endings

A script says the same whether its lines end in a newline or in a carriage return and a newline: the
carriage return is one more blank at the end of the line before.

* **`withReturns`** writes every newline of a source as a carriage return and a newline.
* **`AddsReturns`** relates a line with further carriage returns to the line without them;
  **`splitOn_withReturns`** so relates the lines of the two sources.
* **`Line.parse_append_gap`**: blanks at the end of a line do not change what it says.
* **`compile_withReturns`**: both sources compile to the same, and their reports are the same. -/

namespace CallScript.Script

open Text

/-! ## The lines of the two sources -/

/-- A source with every newline written as a carriage return and a newline. -/
def withReturns (source : String) : String :=
  String.ofList (source.toList.flatMap fun c => if c = '\n' then ['\r', '\n'] else [c])

/-- A line **adds returns** to another one when it is that line with carriage returns after it. -/
def AddsReturns (marked line : List Char) : Prop :=
  ∃ count, marked = line ++ List.replicate count '\r'

/-- A character in front of both lines. -/
theorem AddsReturns.cons {marked line : List Char} (h : AddsReturns marked line) (c : Char) :
    AddsReturns (c :: marked) (c :: line) := by
  obtain ⟨count, rfl⟩ := h
  exact ⟨count, rfl⟩

/-- Added carriage returns are a gap. -/
theorem AddsReturns.exists_gap {marked line : List Char} (h : AddsReturns marked line) :
    ∃ gap, IsGap gap ∧ marked = line ++ gap := by
  obtain ⟨count, rfl⟩ := h
  refine ⟨_, ?_, rfl⟩
  intro c hmem
  rw [List.eq_of_mem_replicate hmem]
  decide

/-- The first members of two related lists may change in step. -/
theorem forall₂_modifyHead {α : Type} {R : α → α → Prop} {left right : List α} {f : α → α}
    (h : List.Forall₂ R left right) (hf : ∀ a b, R a b → R (f a) (f b)) :
    List.Forall₂ R (left.modifyHead f) (right.modifyHead f) := by
  cases h with
  | nil => exact .nil
  | cons hhead htail => exact .cons (hf _ _ hhead) htail

/-- The lines of a source with returns are those of the source, some with a return added. -/
theorem splitOn_withReturns (source : String) :
    List.Forall₂ AddsReturns ((withReturns source).toList.splitOn '\n')
      (source.toList.splitOn '\n') := by
  rw [withReturns, String.toList_ofList]
  induction source.toList with
  | nil => exact .cons ⟨0, rfl⟩ .nil
  | cons c text ih =>
    by_cases hc : c = '\n'
    · -- The return comes after a line that is empty so far; the steps below fill that line.
      subst hc
      exact .cons ⟨1, rfl⟩ ih
    · have hbeq : (c == '\n') = false := beq_false_of_ne hc
      rw [List.flatMap_cons, if_neg hc, List.singleton_append, List.splitOn_cons_eq_if_modifyHead,
        List.splitOn_cons_eq_if_modifyHead, hbeq]
      exact forall₂_modifyHead ih fun _ _ hline => hline.cons c

/-- What cannot tell a line from the same line with returns added is the same on all lines of the
two sources. -/
theorem map_splitLines_withReturns {α : Type} {view : String → α}
    (hview : ∀ marked line : String, AddsReturns marked.toList line.toList →
      view marked = view line) (source : String) :
    (splitLines (withReturns source)).map view = (splitLines source).map view := by
  rw [splitLines, splitLines, List.map_map, List.map_map, ← List.forall₂_eq_eq_eq,
    List.forall₂_map_left_iff, List.forall₂_map_right_iff]
  refine (splitOn_withReturns source).imp ?_
  intro marked line hline
  exact hview _ _ (by rwa [String.toList_ofList, String.toList_ofList])

/-! ## What does not see the end of a line -/

/-- **Blanks at the end of a line** do not change what it says, nor what is wrong with it and
where. -/
theorem Line.parse_append_gap {raw marked : String} {gap : List Char} (hgap : IsGap gap)
    (h : marked.toList = raw.toList ++ gap) : Line.parse marked = Line.parse raw := by
  by_cases hblank : IsGap raw.toList
  · have hmarked : IsGap marked.toList := by
      rw [h]
      exact hblank.append hgap
    rw [parse_eq_blank_iff.2 hblank, parse_eq_blank_iff.2 hmarked]
  · -- A line with something on it is read from its trimmed text and the bytes before that text.
    unfold Line.parse
    rw [h, trim_append_gap hgap, (takeWhile_append_of_not_isGap hblank gap).1]

/-- A line emits the same with returns added. -/
theorem emission_of_addsReturns {marked line : String}
    (h : AddsReturns marked.toList line.toList) : emission marked = emission line := by
  obtain ⟨gap, hgap, hmarked⟩ := h.exists_gap
  unfold emission
  rw [Line.parse_append_gap hgap hmarked]

/-- A line is shown the same with returns added, also if it ends in returns of its own. -/
theorem Diagnostic.shown_of_addsReturns {marked line : String}
    (h : AddsReturns marked.toList line.toList) : shown marked = shown line := by
  obtain ⟨count, hmarked⟩ := h
  have hreturns : ∀ c ∈ List.replicate count '\r', decide (c = '\r') = true := by
    intro c hmem
    exact decide_eq_true (List.eq_of_mem_replicate hmem)
  rw [shown, hmarked, List.reverse_append, List.reverse_replicate,
    List.dropWhile_append_of_pos hreturns, ← shown]

/-! ## Both sources compiled and reported -/

/-- Drafts go by the numbers of lines and by what the lines emit. -/
theorem Draft.addLines_congr {lines lines' : List (Nat × String)} (draft : Draft)
    (h : (lines.map fun line => (line.1, emission line.2)) =
      lines'.map fun line => (line.1, emission line.2)) :
    draft.addLines lines = draft.addLines lines' := by
  induction lines generalizing lines' draft with
  | nil =>
    rw [List.map_nil, eq_comm, List.map_eq_nil_iff] at h
    rw [h]
  | cons line lines ih =>
    obtain ⟨line', rest, rfl, hline, hrest⟩ := List.map_eq_cons_iff.1 h.symm
    obtain ⟨number, raw⟩ := line
    obtain ⟨number', raw'⟩ := line'
    obtain ⟨rfl, hemission⟩ := Prod.mk.inj hline
    rw [addLines_cons, addLines_cons, hemission]
    cases emission raw with
    | error fault => rfl
    | ok emitted => exact ih _ hrest.symm

/-- Lines are numbered in order, whatever is looked at in them. -/
theorem map_numberedLines_eq_mapIdx {α : Type} (view : String → α) (source : String) :
    ((numberedLines source).map fun line => (line.1, view line.2)) =
      ((splitLines source).map view).mapIdx fun i seen => (i + 1, seen) := by
  apply List.ext_getElem
  · simp [numberedLines]
  · intro i hleft hright
    simp [numberedLines]

/-- The two sources are compiled in the same way, line by line. -/
theorem draft_withReturns (source : String) : draft (withReturns source) = draft source := by
  have hlines : (splitLines (withReturns source)).map emission = (splitLines source).map emission :=
    map_splitLines_withReturns (fun _ _ => emission_of_addsReturns) source
  apply Draft.addLines_congr
  rw [map_numberedLines_eq_mapIdx, map_numberedLines_eq_mapIdx, hlines]

/-- The report about a place of a source goes by how the line there is shown. -/
theorem Diagnostic.render_withReturns (file source : String) (line column : Nat)
    (message : String) :
    render file (withReturns source) line column message =
      render file source line column message := by
  have hlines := congrArg (·[line - 1]?)
    (map_splitLines_withReturns (fun _ _ => shown_of_addsReturns) source)
  simp only [List.getElem?_map] at hlines
  unfold render
  cases hmarked : (splitLines (withReturns source))[line - 1]? with
  | none =>
    rw [hmarked, Option.map_none, eq_comm, Option.map_eq_none_iff] at hlines
    rw [hlines]
  | some marked =>
    rw [hmarked, Option.map_some, eq_comm, Option.map_eq_some_iff] at hlines
    obtain ⟨raw, hraw, hshown⟩ := hlines
    rw [hraw]
    simp only [excerpt, hshown]

/-- **Line endings do not matter.** A source compiles to the same with its newlines written as
carriage returns and newlines, with the same warnings, or fails with the same error; and whatever
place of it is reported, the report is the same. -/
theorem compile_withReturns (source : String) :
    compile (withReturns source) = compile source ∧
      redefinitions (withReturns source) = redefinitions source ∧
      ∀ (file message : String) (line column : Nat),
        Diagnostic.render file (withReturns source) line column message =
          Diagnostic.render file source line column message := by
  refine ⟨?_, ?_, ?_⟩
  · rw [compile, compile, draft_withReturns]
  · rw [redefinitions, redefinitions, draft_withReturns]
  · intro file message line column
    exact Diagnostic.render_withReturns file source line column message

end CallScript.Script
