import CallScript.ErrorDisplay.Code
import CallScript.Proofs.ErrorDisplay.Renaming

/-! # What generated code binds

The code for a message binds fields to names and passes these names on to a formatted write. The
format refers to them by its placeholders.

* **`Refers`** says that a message refers to a name, **`Rewrites`** that naming its positions makes
  it refer to one.
* **`tuple_names_agree_iff`**: a name that is passed for a position is referred to, and the converse
  holds where the positions are written in plain decimal.
* **`Arm.WellScoped`** says that no variable of an arm hides the formatter;
  **`Arm.wellScoped_derive_iff`** says which arms are.
* **`named_arm_scope_iff`**: an arm for named fields binds and passes the fields to which its
  message refers, and is well scoped unless one of them has the name of the formatter. -/

namespace CallScript.ErrorDisplay

/-! ## Referring to names -/

/-- A message **refers** to a name: it has a placeholder with that argument. -/
def Refers (message name : String) : Prop :=
  ∃ specifier, .placeholder name specifier ∈ scan message.toList

/-- The arguments of a message are the names to which it refers. -/
theorem mem_arguments_iff {message name : String} :
    name ∈ arguments message ↔ Refers message name := by
  rw [arguments, List.mem_eraseDups, List.mem_filterMap]
  constructor
  · rintro ⟨piece, hmem, hname⟩
    cases piece with
    | text => simp [Piece.argument?] at hname
    | placeholder argument specifier =>
      obtain rfl := Option.some.inj hname
      exact ⟨specifier, hmem⟩
  · rintro ⟨specifier, hmem⟩
    exact ⟨_, hmem, rfl⟩

/-- Naming the positions of a message **rewrites** one of its placeholders to a name: the piece in
the place of that placeholder has the name for its argument, which was another one. -/
def Rewrites (message : String) (count : Nat) (name : String) : Prop :=
  ∃ (index : Nat) (argument specifier : String),
    (scan message.toList)[index]? = some (.placeholder argument specifier) ∧
    (scan (renamePositional count message).toList)[index]? = some (.placeholder name specifier) ∧
    argument ≠ name

/-- Positions have names of their own. -/
theorem positionName_injective : Function.Injective positionName := by
  intro left right h
  have hdigits : Nat.toDigits 10 left = Nat.toDigits 10 right := by
    have hlists := congrArg String.toList h
    rw [toList_positionName, toList_positionName] at hlists
    exact List.tail_eq_of_cons_eq hlists
  have hvalues := congrArg (Nat.ofDigitChars 10 · 0) hdigits
  simpa only [Nat.ofDigitChars_ten_toDigits] using hvalues

/-- What comes to be the name of a position spelled it, or was that name before. -/
theorem Piece.eq_positionName_of_rename {count position : Nat}
    {argument specifier other : String}
    (h : (Piece.placeholder argument other).rename count =
      .placeholder (positionName position) specifier) :
    Spells argument position ∨ argument = positionName position := by
  have hbecomes := (Piece.placeholder argument other).becomes_rename count
  generalize (Piece.placeholder argument other).rename count = named at h hbecomes
  cases hbecomes with
  | position _ hspells =>
    rw [← positionName_eq] at h
    obtain rfl := positionName_injective (Piece.placeholder.inj h).1
    exact .inl hspells
  | other => exact .inr (Piece.placeholder.inj h).1

/-- Placeholders are rewritten to the name of a position exactly where they spell it. -/
theorem rewrites_positionName_iff {message : String} {count position : Nat}
    (hlt : position < count) :
    Rewrites message count (positionName position) ↔
      ∃ argument, Refers message argument ∧ Spells argument position := by
  constructor
  · rintro ⟨index, argument, specifier, hpiece, hnamed, hne⟩
    rw [scan_renamePositional, List.getElem?_map, hpiece] at hnamed
    have hspells := Piece.eq_positionName_of_rename (Option.some.inj hnamed)
    exact ⟨argument, ⟨specifier, List.mem_of_getElem? hpiece⟩, hspells.resolve_right hne⟩
  · rintro ⟨argument, ⟨specifier, hmem⟩, hspells⟩
    obtain ⟨index, hpiece⟩ := List.mem_iff_getElem?.1 hmem
    refine ⟨index, argument, specifier, hpiece, ?_, ?_⟩
    · rw [scan_renamePositional, List.getElem?_map, hpiece, Option.map_some,
        Piece.rename_of_spells specifier hspells hlt]
    · rintro rfl
      exact not_spells_positionName position position hspells

/-- A message with names for its positions refers to such a name if a placeholder was rewritten to
it, or if the message referred to it already. -/
theorem refers_renamePositional_iff {message : String} {count position : Nat}
    (hlt : position < count) :
    Refers (renamePositional count message) (positionName position) ↔
      Rewrites message count (positionName position) ∨ Refers message (positionName position) := by
  rw [rewrites_positionName_iff hlt]
  constructor
  · rintro ⟨specifier, hmem⟩
    rw [scan_renamePositional, List.mem_map] at hmem
    obtain ⟨piece, hpiece, hnamed⟩ := hmem
    cases piece with
    | text => simp at hnamed
    | placeholder argument other =>
      rcases Piece.eq_positionName_of_rename hnamed with hspells | rfl
      · exact .inl ⟨argument, ⟨other, hpiece⟩, hspells⟩
      · exact .inr ⟨other, hpiece⟩
  · rintro (⟨argument, ⟨specifier, hmem⟩, hspells⟩ | ⟨specifier, hmem⟩)
    · have hnamed := List.mem_map_of_mem (f := Piece.rename count) hmem
      rw [Piece.rename_of_spells specifier hspells hlt, ← scan_renamePositional] at hnamed
      exact ⟨specifier, hnamed⟩
    · have hother : ∀ other < count, ¬Spells (positionName position) other :=
        fun other _ => not_spells_positionName position other
      have hnamed := List.mem_map_of_mem (f := Piece.rename count) hmem
      rw [Piece.rename_of_not_spells specifier hother, ← scan_renamePositional] at hnamed
      exact ⟨specifier, hnamed⟩

/-! ## Fields known by their positions -/

/-- A position is used if the message refers to it in plain decimal. -/
theorem usesPosition_iff {message : String} {position : Nat} :
    usesPosition message position = true ↔ Refers message (toString position) := by
  rw [usesPosition, List.contains_iff_mem, mem_arguments_iff, decimal_eq_toString]

/-- The names of the used positions. -/
theorem positionName_mem_usedPositions_iff {message : String} {count position : Nat}
    (hlt : position < count) :
    positionName position ∈ (usedPositions message count).map positionName ↔
      Refers message (toString position) := by
  rw [List.mem_map_of_injective positionName_injective, usedPositions, List.mem_filter,
    List.mem_range, usesPosition_iff, and_iff_right hlt]

/-- An arm **passes** a position under a name: its pattern binds the field with that position to the
name, and its write gets the variable under the same name. -/
def Arm.Passes (arm : Arm) (position : Nat) (name : String) : Prop :=
  ∃ slots bindings, arm.pattern = .tuple slots ∧ slots[position]? = some (some name) ∧
    arm.write.bindings = some bindings ∧ ⟨name, .bound name⟩ ∈ bindings

/-- A write **passes** a position under a name: it gets the field with that position under it. -/
def Write.Passes (write : Write) (position : Nat) (name : String) : Prop :=
  ∃ bindings, write.bindings = some bindings ∧ ⟨name, .field (toString position)⟩ ∈ bindings

/-- The arm of a tuple passes the used positions under their names. -/
theorem Arm.passes_tuple_iff {message : String} {count position : Nat} (hlt : position < count)
    (variant : String) :
    (Arm.derive variant message (.tuple count)).Passes position (positionName position) ↔
      Refers message (toString position) := by
  rw [← usesPosition_iff]
  constructor
  · rintro ⟨slots, -, hpattern, hslot, -⟩
    obtain rfl := Pattern.tuple.inj hpattern
    by_contra hunused
    simp [hlt, hunused] at hslot
  · intro hused
    refine ⟨_, _, rfl, ?_, rfl, ?_⟩
    · simp [hlt, hused]
    · refine List.mem_map_of_mem (a := position) ?_
      rw [usedPositions, List.mem_filter, List.mem_range]
      exact ⟨hlt, hused⟩

/-- The write of a tuple record passes the used positions under their names. -/
theorem Write.passes_tuple_iff {message : String} {count position : Nat} (hlt : position < count) :
    (Write.ofRecord message (.tuple count)).Passes position (positionName position) ↔
      Refers message (toString position) := by
  rw [← positionName_mem_usedPositions_iff hlt]
  constructor
  · rintro ⟨bindings, hbindings, hmem⟩
    obtain rfl := Option.some.inj hbindings
    obtain ⟨used, hused, hbinding⟩ := List.mem_map.1 hmem
    have hname : positionName used = positionName position := congrArg Binding.name hbinding
    rw [← hname]
    exact List.mem_map_of_mem hused
  · intro hmem
    refine ⟨_, rfl, ?_⟩
    rw [List.mem_map_of_injective positionName_injective] at hmem
    rw [← decimal_eq_toString]
    exact List.mem_map_of_mem hmem

/-- **When the names of positions agree.** Take a position of a tuple and its name. If the name is
passed to the write then a placeholder is rewritten to it. The two go together just if the position
is referred to in plain decimal whenever it is referred to at all: with a plus sign or zeros in
front it is rewritten and not passed. The arm of a variant and the write of a record pass the same
names. Their format is the message with its positions named, which also refers to the name if the
message did so itself. -/
theorem tuple_names_agree_iff {message : String} {count position : Nat} (hlt : position < count) :
    let name := "f" ++ toString position
    let passed := (usedPositions message count).map positionName
    let written := Write.ofRecord message (.tuple count)
    (name ∈ passed → Rewrites message count name) ∧
    ((Rewrites message count name ↔ name ∈ passed) ↔
      ∀ argument, Refers message argument → Spells argument position →
        Refers message (toString position)) ∧
    (∀ variant, ((Arm.derive variant message (.tuple count)).Passes position name ↔ name ∈ passed) ∧
      (Arm.derive variant message (.tuple count)).write.format = written.format) ∧
    (written.Passes position name ↔ name ∈ passed) ∧
    (Refers written.format name ↔ Rewrites message count name ∨ Refers message name) := by
  intro name passed written
  have hname : name = positionName position := (positionName_eq position).symm
  have hpassed : name ∈ passed ↔ Refers message (toString position) := by
    rw [hname]
    exact positionName_mem_usedPositions_iff hlt
  have hrewrites : Rewrites message count name ↔
      ∃ argument, Refers message argument ∧ Spells argument position := by
    rw [hname]
    exact rewrites_positionName_iff hlt
  have hplain : Refers message (toString position) → Rewrites message count name := by
    intro hrefers
    refine hrewrites.2 ⟨_, hrefers, ?_⟩
    rw [← decimal_eq_toString]
    exact spells_decimal position
  refine ⟨fun hmem => hplain (hpassed.1 hmem), ?_, ?_, ?_, ?_⟩
  · rw [hpassed, hrewrites]
    constructor
    · exact fun hagree argument hrefers hspells => hagree.1 ⟨argument, hrefers, hspells⟩
    · exact fun hspelled => ⟨fun ⟨argument, hrefers, hspells⟩ => hspelled argument hrefers hspells,
        fun hrefers => hrewrites.1 (hplain hrefers)⟩
  · intro variant
    refine ⟨?_, rfl⟩
    rw [hpassed, hname]
    exact Arm.passes_tuple_iff hlt variant
  · rw [hpassed, hname]
    exact Write.passes_tuple_iff hlt
  · rw [hname]
    exact refers_renamePositional_iff hlt

/-- In `{00} {0}` the position is written in both ways, and so its names agree. -/
theorem paddedAndPlain_agree :
    0 < 1 ∧ (Rewrites "\x7b00\x7d \x7b0\x7d" 1 "f0" ↔
      "f0" ∈ (usedPositions "\x7b00\x7d \x7b0\x7d" 1).map positionName) := by
  have hlt : 0 < 1 := by decide
  have hplain : Refers "\x7b00\x7d \x7b0\x7d" (toString 0) := by
    rw [← mem_arguments_iff]
    decide +kernel
  exact ⟨hlt, (tuple_names_agree_iff hlt).2.1.2 fun _ _ _ => hplain⟩

/-- **A position with a zero in front is named and not passed.** The format of the code for `{00}`
refers to `f0`, and there is no `f0`. -/
theorem leadingZero_not_passed :
    Rewrites "\x7b00\x7d" 1 "f0" ∧ "f0" ∉ (usedPositions "\x7b00\x7d" 1).map positionName ∧
      (Arm.derive "A" "\x7b00\x7d" (.tuple 1)).code =
        "Self :: A (_) => write ! (f , \"\x7bf0\x7d\" ,) ," := by
  refine ⟨⟨1, "00", "", ?_, ?_, ?_⟩, ?_, ?_⟩
  all_goals decide +kernel

/-! ## Variables and the formatter -/

/-- The variables that a pattern binds, from left to right. -/
def Pattern.names : Pattern → List String
  | .unit => []
  | .tuple slots => slots.filterMap id
  | .named names => names

/-- A variable **hides the formatter** when its name is that of the formatter, plain or raw. -/
def HidesFormatter (name : String) : Prop :=
  name = formatterName ∨ name = "r#" ++ formatterName

/-- An arm is **well scoped** when what it passes are the variables of its pattern, each under its
own name, and none of them hides the formatter. -/
structure Arm.WellScoped (arm : Arm) : Prop where
  /-- Every variable is passed once, in the order of the pattern. -/
  passed : arm.write.bindings.getD [] = arm.pattern.names.map fun name => ⟨name, .bound name⟩
  /-- The write goes to the formatter. -/
  visible : ∀ name ∈ arm.pattern.names, ¬HidesFormatter name

/-- The variables of a tuple are the names of the used positions. -/
theorem names_tuple (variant message : String) (count : Nat) :
    (Arm.derive variant message (.tuple count)).pattern.names =
      (usedPositions message count).map positionName := by
  simp only [Arm.derive, Pattern.names, usedPositions, List.filterMap_map, Function.id_comp]
  induction List.range count with
  | nil => rfl
  | cons position positions ih =>
    by_cases hused : usesPosition message position = true
    · simp [hused, ih]
    · simp [hused, ih]

/-- The variables of an arm for named fields are the fields to which its message refers. -/
theorem mem_names_named_iff {variant message : String} {names : List String} {name : String} :
    name ∈ (Arm.derive variant message (.named names)).pattern.names ↔
      name ∈ names ∧ Refers message name := by
  show name ∈ usedNames message names ↔ _
  rw [usedNames, List.mem_filter, List.contains_iff_mem, mem_arguments_iff]

/-- Arms pass their variables, whatever the fields are. -/
theorem Arm.passed_derive (variant message : String) (fields : Fields) :
    (Arm.derive variant message fields).write.bindings.getD [] =
      (Arm.derive variant message fields).pattern.names.map fun name => ⟨name, .bound name⟩ := by
  cases fields with
  | unit => rfl
  | tuple count =>
    rw [names_tuple, List.map_map]
    rfl
  | named names => rfl

/-- The name of a position does not hide the formatter. -/
theorem not_hidesFormatter_positionName (position : Nat) :
    ¬HidesFormatter (positionName position) := by
  rintro (hplain | hraw)
  · have hlists := congrArg String.toList hplain
    rw [toList_positionName] at hlists
    exact Nat.toDigits_ne_nil (List.tail_eq_of_cons_eq hlists)
  · have hlists := congrArg String.toList hraw
    rw [toList_positionName] at hlists
    exact absurd (List.head_eq_of_cons_eq hlists) (by decide)

/-- The fields that have names. -/
def Fields.names : Fields → List String
  | .unit | .tuple _ => []
  | .named names => names

/-- **An arm is well scoped** just if no named field to which its message refers hides the
formatter. Arms for fields without names always are. -/
theorem Arm.wellScoped_derive_iff (variant message : String) (fields : Fields) :
    (Arm.derive variant message fields).WellScoped ↔
      ∀ name ∈ fields.names, Refers message name → ¬HidesFormatter name := by
  have hscoped : (Arm.derive variant message fields).WellScoped ↔
      ∀ name ∈ (Arm.derive variant message fields).pattern.names, ¬HidesFormatter name :=
    ⟨WellScoped.visible, WellScoped.mk (Arm.passed_derive variant message fields)⟩
  rw [hscoped]
  cases fields with
  | unit => simp [Arm.derive, Pattern.names, Fields.names]
  | tuple count =>
    rw [names_tuple]
    refine iff_of_true ?_ (by simp [Fields.names])
    intro name hmem
    obtain ⟨position, -, rfl⟩ := List.mem_map.1 hmem
    exact not_hidesFormatter_positionName position
  | named names => simp only [mem_names_named_iff, and_imp, Fields.names]

/-! ## Named fields -/

/-- **What an arm for named fields binds.** Its variables are the fields to which the message
refers, in the order of their declaration, each as often as it is declared, and so once if the names
of the fields are distinct. It passes each of them once under its own name, in a write to the
formatter. It is well scoped just if no field to which the message refers has the name of the
formatter. -/
theorem named_arm_scope_iff (variant message : String) (names : List String) :
    let arm := Arm.derive variant message (.named names)
    (∀ name, name ∈ arm.pattern.names ↔ name ∈ names ∧ Refers message name) ∧
    arm.pattern.names.Sublist names ∧
    (∀ name, Refers message name → arm.pattern.names.count name = names.count name) ∧
    (names.Nodup → arm.pattern.names.Nodup) ∧
    arm.write = ⟨message, some (arm.pattern.names.map fun name => ⟨name, .bound name⟩)⟩ ∧
    (∃ rest, arm.write.code = "write ! (" ++ formatterName ++ " , " ++ rest) ∧
    (arm.WellScoped ↔ ∀ name ∈ names, Refers message name → ¬HidesFormatter name) := by
  intro arm
  have hsublist : arm.pattern.names.Sublist names := List.filter_sublist
  refine ⟨fun name => mem_names_named_iff, hsublist, ?_, hsublist.nodup, rfl, ?_,
    Arm.wellScoped_derive_iff variant message (.named names)⟩
  · intro name hrefers
    refine List.count_filter ?_
    rwa [List.contains_iff_mem, mem_arguments_iff]
  · exact ⟨_, by simp only [Write.code, String.append_assoc]; rfl⟩

/-- The arm for `{line:>3} {kind} {line}` with the fields `kind`, `line` and `f`. -/
theorem namedFields_scope :
    ["kind", "line", "f"].Nodup ∧
      (Arm.derive "A" "\x7bline:>3\x7d \x7bkind\x7d \x7bline\x7d"
        (.named ["kind", "line", "f"])).pattern.names.Nodup ∧
      (Arm.derive "A" "\x7bline:>3\x7d \x7bkind\x7d \x7bline\x7d"
        (.named ["kind", "line", "f"])).code =
        "Self :: A \x7b kind , line , .. \x7d => write ! " ++
          "(f , \"\x7bline:>3\x7d \x7bkind\x7d \x7bline\x7d\" , kind = kind , line = line) ," := by
  have hnodup : ["kind", "line", "f"].Nodup := by decide
  exact ⟨hnodup, (named_arm_scope_iff _ _ _).2.2.2.1 hnodup, by decide +kernel⟩

/-- **A field with the name of the formatter hides it.** In the arm for `{f}` the write goes to the
field `f`. -/
theorem fieldOfFormatterName_hides :
    (Arm.derive "A" "\x7bf\x7d" (.named ["f"])).pattern.names = ["f"] ∧
      (Arm.derive "A" "\x7bf\x7d" (.named ["f"])).code =
        "Self :: A \x7b f , .. \x7d => write ! (f , \"\x7bf\x7d\" , f = f) ," ∧
      ¬(Arm.derive "A" "\x7bf\x7d" (.named ["f"])).WellScoped := by
  have hnames : (Arm.derive "A" "\x7bf\x7d" (.named ["f"])).pattern.names = ["f"] := by
    decide +kernel
  refine ⟨hnames, by decide +kernel, ?_⟩
  intro hscoped
  exact hscoped.visible "f" (by rw [hnames]; exact List.mem_singleton_self _) (.inl rfl)

end CallScript.ErrorDisplay
