import CallScript.Text.Utf8

/-! # Labels

The table of the labels of a script: for each label the index of the record it names. A later
definition of a label replaces an earlier one.

* **`LabelTable`** is a table, listed in the byte order of the names.
* **`LabelTable.define`** enters a label and returns the index it had before; **`LabelTable.get?`** looks
  one up. -/

namespace CallScript.Script

/-- A **label table**: names with record indices, each name once, in the order of the names. -/
structure LabelTable where
  /-- The names and their indices. -/
  entries : List (String × Nat)
  deriving DecidableEq

namespace LabelTable

/-- One name comes **before** another when its UTF-8 bytes do, compared from left to right. -/
def Before (left right : String) : Prop :=
  Text.utf8 left.toList < Text.utf8 right.toList

instance (left right : String) : Decidable (Before left right) :=
  inferInstanceAs (Decidable (Text.utf8 left.toList < Text.utf8 right.toList))

/-- The table without labels. -/
def empty : LabelTable := ⟨[]⟩

/-- The index of a label. -/
def get? (table : LabelTable) (name : String) : Option Nat :=
  table.entries.lookup name

/-- The number of labels. -/
def size (table : LabelTable) : Nat :=
  table.entries.length

/-- Whether there are no labels. -/
def isEmpty (table : LabelTable) : Bool :=
  table.entries.isEmpty

/-- Enter a name into a list ordered by names, in place of an entry of the same name. -/
def insertEntry (name : String) (index : Nat) : List (String × Nat) → List (String × Nat)
  | [] => [(name, index)]
  | (other, value) :: rest =>
    if name = other then (name, index) :: rest
    else if Before name other then (name, index) :: (other, value) :: rest
    else (other, value) :: insertEntry name index rest

/-- Let `name` stand for the record `index`. The result is the index for which it stood before, if
any, and the new table. -/
def define (table : LabelTable) (name : String) (index : Nat) : Option Nat × LabelTable :=
  (table.get? name, ⟨insertEntry name index table.entries⟩)

end LabelTable

end CallScript.Script
