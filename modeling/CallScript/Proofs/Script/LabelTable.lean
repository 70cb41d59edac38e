import CallScript.Proofs.Script.Joining
import Mathlib.Data.List.Pairwise

/-! # The order of a label table

A label table lists its names in the order of their bytes, each name once. Entering a label keeps it
so.

* **`LabelTable.before_of_not_before`**: of two names, one comes before the other.
* **`LabelTable.IsOrdered`** says that the names of a table are in order.
* **`LabelTable.IsOrdered.define`**: a definition keeps a table in order. -/

namespace CallScript.Script

/-- Different texts have different encodings. -/
theorem utf8_injective : Function.Injective Text.utf8 := by
  intro text text' h
  have hencode : text.utf8Encode = text'.utf8Encode := congrArg List.toByteArray h
  have hdecode : some text.toArray = some text'.toArray := by
    rw [← List.utf8Decode?_utf8Encode, hencode, List.utf8Decode?_utf8Encode]
  simpa using hdecode

namespace LabelTable

/-! ## The order of names -/

/-- No name comes before itself. -/
theorem not_before_self (name : String) : ¬Before name name :=
  List.lt_irrefl _

/-- A name before another comes before all names after that one. -/
theorem Before.trans {first second third : String} (h : Before first second)
    (h' : Before second third) : Before first third :=
  List.lt_trans h h'

/-- Of two different names, one comes before the other. -/
theorem before_of_not_before {left right : String} (hne : left ≠ right) (h : ¬Before left right) :
    Before right left := by
  by_contra hright
  have hbytes : Text.utf8 left.toList = Text.utf8 right.toList :=
    List.le_antisymm (List.not_lt.1 hright) (List.not_lt.1 h)
  exact hne (String.toList_injective (utf8_injective hbytes))

/-! ## Tables in order -/

/-- A table is **in order** when every name in it comes before all later ones. -/
def IsOrdered (table : LabelTable) : Prop :=
  table.entries.Pairwise fun entry later => Before entry.1 later.1

/-- The table without labels is in order. -/
theorem isOrdered_empty : empty.IsOrdered :=
  List.Pairwise.nil

/-- The names after an insertion are the new one and the old ones. -/
theorem mem_insertEntry {name : String} {index : Nat} {entries : List (String × Nat)}
    {entry : String × Nat} (h : entry ∈ insertEntry name index entries) :
    entry = (name, index) ∨ entry ∈ entries := by
  induction entries with
  | nil => exact .inl (List.mem_singleton.1 h)
  | cons first rest ih =>
    obtain ⟨other, value⟩ := first
    rw [insertEntry] at h
    split at h
    · rcases List.mem_cons.1 h with rfl | hmem
      · exact .inl rfl
      · exact .inr (List.mem_cons_of_mem _ hmem)
    · split at h
      · exact List.mem_cons.1 h
      · rcases List.mem_cons.1 h with rfl | hmem
        · exact .inr List.mem_cons_self
        · exact (ih hmem).imp id (List.mem_cons_of_mem _)

/-- An insertion keeps names in order. -/
theorem pairwise_insertEntry {entries : List (String × Nat)}
    (h : entries.Pairwise fun entry later => Before entry.1 later.1) (name : String) (index : Nat) :
    (insertEntry name index entries).Pairwise fun entry later => Before entry.1 later.1 := by
  induction entries with
  | nil => exact List.pairwise_singleton _ _
  | cons first rest ih =>
    obtain ⟨other, value⟩ := first
    obtain ⟨hfirst, hrest⟩ := List.pairwise_cons.1 h
    rw [insertEntry]
    by_cases hsame : name = other
    · -- The new entry takes the place of one of the same name.
      subst hsame
      rw [if_pos rfl]
      exact List.pairwise_cons.2 ⟨hfirst, hrest⟩
    · rw [if_neg hsame]
      by_cases hbefore : Before name other
      · rw [if_pos hbefore]
        refine List.pairwise_cons.2 ⟨?_, h⟩
        intro entry hmem
        rcases List.mem_cons.1 hmem with rfl | hmem
        · exact hbefore
        · exact hbefore.trans (hfirst entry hmem)
      · rw [if_neg hbefore]
        refine List.pairwise_cons.2 ⟨?_, ih hrest⟩
        intro entry hmem
        rcases mem_insertEntry hmem with rfl | hmem
        · exact before_of_not_before hsame hbefore
        · exact hfirst entry hmem

/-- Entering a label keeps a table in order. -/
theorem IsOrdered.define {table : LabelTable} (h : table.IsOrdered) (name : String) (index : Nat) :
    (table.define name index).2.IsOrdered :=
  pairwise_insertEntry h name index

/-- The names of a table. -/
def names (table : LabelTable) : List String :=
  table.entries.map Prod.fst

/-- A table in order has each name once. -/
theorem IsOrdered.nodup_names {table : LabelTable} (h : table.IsOrdered) : table.names.Nodup := by
  refine List.pairwise_map.2 (h.imp ?_)
  rintro ⟨name, index⟩ ⟨later, index'⟩ hbefore rfl
  exact not_before_self name hbefore

/-- The names of a table are those that stand for a record. -/
theorem mem_names_iff {table : LabelTable} {name : String} :
    name ∈ table.names ↔ ∃ index, table.get? name = some index := by
  rw [← Option.isSome_iff_exists, get?, List.lookup_isSome_iff, names, List.mem_map]
  constructor
  · rintro ⟨entry, hmem, rfl⟩
    exact ⟨entry, hmem, beq_self_eq_true entry.1⟩
  · rintro ⟨entry, hmem, hname⟩
    exact ⟨entry, hmem, (beq_iff_eq.1 hname).symm⟩

end LabelTable

end CallScript.Script
