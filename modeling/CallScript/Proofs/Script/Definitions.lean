import CallScript.Proofs.Script.LabelTable
import Mathlib.Data.Finset.Card
import Mathlib.Data.List.Perm.Basic

/-! # Runs of label definitions

What a label table holds after any number of definitions, starting without labels: the last
definition of every name, in the byte order of the names.

* **`LastDefined`** says which index the last definition of a name gives to it.
* **`LabelTable.ofDefinitions`** is the table after definitions in a row.
* **`LabelTable.IsOrdered.ext`**: a table in order is determined by what its names stand for.
* **`LabelTable.ofDefinitions_holds_last`**: the table holds the last definitions, whatever came
  before them and in whatever order they came. -/

namespace CallScript.Script

/-! ## Last definitions -/

/-- A name is **last defined** with an index when a definition gives it this index and none of those
after it gives it another. -/
def LastDefined (definitions : List (String × Nat)) (name : String) (index : Nat) : Prop :=
  ∃ before after, definitions = before ++ (name, index) :: after ∧ name ∉ after.map Prod.fst

/-- The last definition of a name is the first that is found from the end. -/
theorem lastDefined_iff_lookup {definitions : List (String × Nat)} {name : String} {index : Nat} :
    LastDefined definitions name index ↔ definitions.reverse.lookup name = some index := by
  rw [List.lookup_eq_some_iff]
  constructor
  · rintro ⟨before, after, rfl, hafter⟩
    refine ⟨after.reverse, before.reverse, by simp, ?_⟩
    intro entry hmem
    rw [bne_iff_ne]
    rintro rfl
    exact hafter (List.mem_map_of_mem (List.mem_reverse.1 hmem))
  · rintro ⟨after, before, hreverse, hafter⟩
    refine ⟨before.reverse, after.reverse, ?_, ?_⟩
    · rw [← List.reverse_reverse definitions, hreverse]
      simp
    · intro hmem
      obtain ⟨entry, hentry, rfl⟩ := List.mem_map.1 hmem
      exact bne_iff_ne.1 (hafter entry (List.mem_reverse.1 hentry)) rfl

/-- A name is last defined somewhere exactly when it is defined at all. -/
theorem exists_lastDefined_iff {definitions : List (String × Nat)} {name : String} :
    (∃ index, LastDefined definitions name index) ↔ name ∈ definitions.map Prod.fst := by
  -- Read from the end, the definitions are the entries of a table.
  have hnames := @LabelTable.mem_names_iff ⟨definitions.reverse⟩ name
  simp only [lastDefined_iff_lookup]
  rw [← List.mem_reverse, ← List.map_reverse]
  exact hnames.symm

/-- Among definitions of different names every definition is the last one of its name. -/
theorem lastDefined_iff_mem {definitions : List (String × Nat)} {name : String} {index : Nat}
    (hdistinct : (definitions.map Prod.fst).Nodup) :
    LastDefined definitions name index ↔ (name, index) ∈ definitions := by
  constructor
  · rintro ⟨before, after, rfl, -⟩
    simp
  · intro hmem
    obtain ⟨before, after, rfl⟩ := List.append_of_mem hmem
    rw [List.map_append, List.map_cons] at hdistinct
    have hafter := (List.nodup_cons.1 hdistinct.of_append_right).1
    exact ⟨before, after, rfl, hafter⟩

namespace LabelTable

/-! ## Tables in order -/

variable {table : LabelTable} {name : String} {index : Nat}

/-- A table in order lists what its names stand for. -/
theorem IsOrdered.mem_entries_iff (h : table.IsOrdered) :
    (name, index) ∈ table.entries ↔ table.get? name = some index := by
  obtain ⟨entries⟩ := table
  rw [get?]
  induction entries with
  | nil => simp
  | cons first rest ih =>
    obtain ⟨other, value⟩ := first
    obtain ⟨hfirst, hrest⟩ := List.pairwise_cons.1 h
    rw [lookup_cons_eq_if, List.mem_cons, Prod.mk.injEq]
    by_cases hname : name = other
    · -- No later entry has the name of the first one.
      subst hname
      have hlater : (name, index) ∉ rest := fun hmem => not_before_self name (hfirst _ hmem)
      simp [hlater, eq_comm]
    · simpa [hname] using ih hrest

/-- A table in order is determined by what its names stand for. -/
theorem IsOrdered.ext {other : LabelTable} (h : table.IsOrdered) (hother : other.IsOrdered)
    (hget : ∀ name, table.get? name = other.get? name) : table = other := by
  have hperm : table.entries.Perm other.entries := by
    rw [List.perm_ext_iff_of_nodup h.nodup_names.of_map hother.nodup_names.of_map]
    rintro ⟨name, index⟩
    rw [h.mem_entries_iff, hother.mem_entries_iff, hget]
  have hentries : table.entries = other.entries := by
    refine hperm.eq_of_pairwise ?_ h hother
    intro entry later _ _ hbefore hafter
    exact absurd (hbefore.trans hafter) (not_before_self _)
  obtain ⟨entries⟩ := table
  obtain ⟨entries'⟩ := other
  exact congrArg LabelTable.mk hentries

/-! ## Tables after definitions -/

/-- The table after definitions in a row, without labels at the start. -/
def ofDefinitions (definitions : List (String × Nat)) : LabelTable :=
  definitions.foldl (fun table definition => (table.define definition.1 definition.2).2) empty

/-- One more definition is entered into the table after the others. -/
theorem ofDefinitions_concat (definitions : List (String × Nat)) (name : String) (index : Nat) :
    ofDefinitions (definitions ++ [(name, index)]) =
      ((ofDefinitions definitions).define name index).2 :=
  List.foldl_concat ..

/-- The table is in order after every run of definitions. -/
theorem isOrdered_ofDefinitions (definitions : List (String × Nat)) :
    (ofDefinitions definitions).IsOrdered := by
  induction definitions using List.reverseRecOn with
  | nil => exact isOrdered_empty
  | append_singleton definitions definition ih =>
    rw [ofDefinitions_concat]
    exact ih.define definition.1 definition.2

/-- After every run of definitions, a name stands for the index of its last one. -/
theorem get?_ofDefinitions {definitions : List (String × Nat)} :
    (ofDefinitions definitions).get? name = some index ↔ LastDefined definitions name index := by
  rw [lastDefined_iff_lookup]
  -- A new definition hides the others of its name, in the table as in the list read from its end.
  induction definitions using List.reverseRecOn generalizing index with
  | nil => simp [ofDefinitions, empty, get?]
  | append_singleton definitions definition ih =>
    obtain ⟨label, last⟩ := definition
    rw [ofDefinitions_concat, get?_define, List.reverse_concat, lookup_cons_eq_if]
    by_cases hname : name = label
    · rw [if_pos hname, if_pos hname]
    · rw [if_neg hname, if_neg hname, ih]

/-- After every run of definitions, the names are those that were defined. -/
theorem mem_names_ofDefinitions {definitions : List (String × Nat)} :
    name ∈ (ofDefinitions definitions).names ↔ name ∈ definitions.map Prod.fst := by
  rw [mem_names_iff, ← exists_lastDefined_iff]
  exact exists_congr fun _ => get?_ofDefinitions

/-- After every run of definitions, there are as many labels as names that were defined. -/
theorem size_ofDefinitions (definitions : List (String × Nat)) :
    (ofDefinitions definitions).size = (definitions.map Prod.fst).toFinset.card := by
  have hnames : (ofDefinitions definitions).names.toFinset =
      (definitions.map Prod.fst).toFinset := by
    ext name
    rw [List.mem_toFinset, List.mem_toFinset, mem_names_ofDefinitions]
  have hnodup := (isOrdered_ofDefinitions definitions).nodup_names
  rw [← hnames, List.toFinset_card_of_nodup hnodup, names, List.length_map]
  rfl

/-- Definitions of different names lead to the same table in any order. -/
theorem ofDefinitions_of_perm {definitions others : List (String × Nat)}
    (hdistinct : (definitions.map Prod.fst).Nodup) (hperm : others.Perm definitions) :
    ofDefinitions others = ofDefinitions definitions := by
  refine (isOrdered_ofDefinitions others).ext (isOrdered_ofDefinitions definitions) ?_
  intro name
  refine Option.ext fun index => ?_
  have hothers : (others.map Prod.fst).Nodup := (hperm.map Prod.fst).nodup_iff.2 hdistinct
  rw [get?_ofDefinitions, get?_ofDefinitions, lastDefined_iff_mem hothers,
    lastDefined_iff_mem hdistinct, hperm.mem_iff]

/-- **A label table holds last definitions.** After any definitions in a row, without labels at the
start:

* a further definition of a name returns the index that the last of them gave to this name, if any;
* a name stands for the index that the last of its definitions gave to it;
* there are as many labels as names that were defined, and the table is empty if there are none;
* every name that was defined is listed once, what is listed are the last definitions, and every
  name comes before those after it in the order of UTF-8 bytes;
* definitions of different names lead to the same table in any other order. -/
theorem ofDefinitions_holds_last (definitions : List (String × Nat)) :
    (∀ name index previous, ((ofDefinitions definitions).define name index).1 = some previous ↔
      LastDefined definitions name previous) ∧
    (∀ name index, (ofDefinitions definitions).get? name = some index ↔
      LastDefined definitions name index) ∧
    (ofDefinitions definitions).size = (definitions.map Prod.fst).toFinset.card ∧
    ((ofDefinitions definitions).isEmpty = true ↔ (ofDefinitions definitions).size = 0) ∧
    (∀ name ∈ definitions.map Prod.fst, (ofDefinitions definitions).names.count name = 1) ∧
    (∀ name index, (name, index) ∈ (ofDefinitions definitions).entries ↔
      LastDefined definitions name index) ∧
    ((ofDefinitions definitions).entries.Pairwise fun entry later =>
      Text.utf8 entry.1.toList < Text.utf8 later.1.toList) ∧
    ((definitions.map Prod.fst).Nodup → ∀ others : List (String × Nat), others.Perm definitions →
      ofDefinitions others = ofDefinitions definitions) := by
  have hordered := isOrdered_ofDefinitions definitions
  refine ⟨fun name index previous => get?_ofDefinitions, fun name index => get?_ofDefinitions,
    size_ofDefinitions definitions, ?_, ?_, ?_, hordered,
    fun hdistinct others => ofDefinitions_of_perm hdistinct⟩
  · rw [isEmpty, size, List.isEmpty_iff, List.length_eq_zero_iff]
  · intro name hname
    exact List.count_eq_one_of_mem hordered.nodup_names (mem_names_ofDefinitions.2 hname)
  · intro name index
    rw [hordered.mem_entries_iff, get?_ofDefinitions]

/-- Two names that come in the other order when they are compared by units of sixteen bits. -/
theorem ofDefinitions_two_planes :
    ofDefinitions [("😀", 0), ("ﬀ", 1)] = ofDefinitions [("ﬀ", 1), ("😀", 0)] ∧
      (ofDefinitions [("ﬀ", 1), ("😀", 0)]).entries = [("ﬀ", 1), ("😀", 0)] := by
  refine ⟨?_, by decide +kernel⟩
  obtain ⟨-, -, -, -, -, -, -, hperm⟩ := ofDefinitions_holds_last [("ﬀ", 1), ("😀", 0)]
  exact hperm (by decide) _ (List.Perm.swap _ _ _)

end LabelTable

end CallScript.Script
