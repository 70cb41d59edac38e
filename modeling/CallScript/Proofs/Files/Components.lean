import CallScript.Proofs.Files.LastName
import CallScript.Proofs.Script.Grammar
import Mathlib.Data.List.DropRight

/-! # The components of a path

What the path of a result says, compared with what the path of its script says. Empty parts and
single dots name nothing and are not among the components of a path, so many texts say the same.

* **`Path.said`** are the components of parts between slashes.
* **`Path.components_eq_concat_iff`**: the file name of a path is its last component.
* **`Path.IsProper`** holds of the paths that are taken apart from a text, and of their parents.
  Their text says what they say.
* **`Path.components_withFileName`**: another file name changes the last component and no other.
* **`components_outputPath`**: the path of a result does not say what the path of its script says.
  If the last component of that is the name of a script, then no other component differs. -/

namespace CallScript.Files

/-- What the start of a path says. -/
def Anchor.said : Anchor → List Component
  | .root => [.root]
  | .here => [.here]
  | .bare => []

namespace Path

variable {path : Path} {parts : List (List Char)} {name : List Char}

/-- A part names something unless it is empty or a single dot. -/
theorem isFiller_eq_false_iff : isFiller name = false ↔ name ≠ [] ∧ name ≠ ['.'] := by
  simp [isFiller]

/-! ## The components of parts -/

/-- The components of parts between slashes. -/
def said (parts : List (List Char)) : List Component :=
  (parts.filter (!isFiller ·)).map fun part => if part = ['.', '.'] then .up else .name part

/-- A path says what its start and its parts say. -/
theorem components_eq (path : Path) : path.components = path.anchor.said ++ said path.parts := by
  unfold components
  cases path.anchor <;> rfl

@[simp] theorem said_append (left right : List (List Char)) :
    said (left ++ right) = said left ++ said right := by
  simp [said]

/-- A part that names an entry says this name. -/
theorem said_name (hfiller : isFiller name = false) (hup : name ≠ ['.', '.']) :
    said [name] = [.name name] := by
  simp [said, hfiller, hup]

/-- What names nothing at the end of parts says nothing. -/
@[simp] theorem said_trimFillers (parts : List (List Char)) :
    said (trimFillers parts) = said parts := by
  have hparts : trimFillers parts ++ parts.rtakeWhile isFiller = parts :=
    List.rdropWhile_append_rtakeWhile
  have hnothing : said (parts.rtakeWhile isFiller) = [] := by
    rw [said, List.map_eq_nil_iff, List.filter_eq_nil_iff]
    intro part hmem
    simp [List.mem_rtakeWhile_imp hmem]
  calc said (trimFillers parts)
      = said (trimFillers parts) ++ said (parts.rtakeWhile isFiller) := by
        rw [hnothing, List.append_nil]
    _ = said parts := by rw [← said_append, hparts]

/-! ## The file name among the components -/

/-- The last part that is left names something. -/
theorem isFiller_eq_false_of_trimFillers {front : List (List Char)} {last : List Char}
    (h : trimFillers parts = front ++ [last]) : isFiller last = false := by
  have hne : parts.rdropWhile isFiller ≠ [] := by
    rw [show parts.rdropWhile isFiller = front ++ [last] from h]
    simp
  have hlast := List.rdropWhile_last_not isFiller parts hne
  simpa [show parts.rdropWhile isFiller = front ++ [last] from h] using hlast

/-- A path ends in a name exactly when that is its file name, and what comes before it is what the
path says without its file name. -/
theorem components_eq_concat_iff {front : List Component} :
    path.components = front ++ [.name name] ↔
      path.fileName? = some name ∧ path.parent.components = front := by
  have hsaid : path.components = path.anchor.said ++ said (trimFillers path.parts) := by
    rw [said_trimFillers, components_eq]
  have hparent : path.parent.components =
      path.anchor.said ++ said (trimFillers path.parts).dropLast := by
    rw [components_eq, parent, said_trimFillers]
  rw [hsaid, hparent, fileName?]
  rcases List.eq_nil_or_concat (trimFillers path.parts) with hnil | ⟨others, last, hlast⟩
  · -- Without a part that names something there is only the start of the path.
    have hstart : path.anchor.said ≠ front ++ [.name name] := by
      intro h
      have hend := congrArg List.getLast? h
      cases hanchor : path.anchor <;> simp [hanchor, Anchor.said] at hend
    simp [hnil, said, hstart]
  · rw [List.concat_eq_append] at hlast
    have hfiller := isFiller_eq_false_of_trimFillers hlast
    rw [hlast, said_append, ← List.append_assoc, List.dropLast_concat, List.getLast?_concat,
      Option.filter_some]
    by_cases hup : last = ['.', '.']
    · have hlastUp : said [last] = [.up] := by rw [hup]; rfl
      rw [hlastUp, List.append_singleton_inj]
      simp [hup]
    · rw [said_name hfiller hup, List.append_singleton_inj]
      simp [hup, and_comm]

/-! ## Paths and their text -/

/-- A path is **proper** when its parts have no slashes and the first of them goes with the start of
the path. -/
structure IsProper (path : Path) : Prop where
  /-- Parts stand between slashes. -/
  slash : ∀ part ∈ path.parts, '/' ∉ part
  /-- After a dot there is a slash, if anything. Without a start the first part names something. -/
  first : ∀ part ∈ path.parts.head?,
    (path.anchor = .here → part = []) ∧ (path.anchor = .bare → isFiller part = false)

/-- A text that starts with a part that names something is all parts. -/
theorem ofText_eq_bare {part : List Char} (hslash : '/' ∉ part) (hfiller : isFiller part = false)
    (tail : List Char) : ofText (part ++ tail) = ⟨.bare, (part ++ tail).splitOn '/'⟩ := by
  obtain ⟨hempty, hdot⟩ := isFiller_eq_false_iff.1 hfiller
  obtain ⟨c, others, rfl⟩ := List.exists_cons_of_ne_nil hempty
  obtain ⟨hc, hothers⟩ : '/' ≠ c ∧ '/' ∉ others := by simpa using hslash
  generalize htext : c :: others ++ tail = text
  fun_cases ofText text with
  | case1 rest => exact absurd (List.cons.inj htext).1.symm hc
  | case2 =>
    obtain ⟨rfl, hnil⟩ := List.cons.inj htext
    exact absurd (by rw [(List.append_eq_nil_iff.1 hnil).1]) hdot
  | case3 rest =>
    obtain ⟨rfl, hrest⟩ := List.cons.inj htext
    cases others with
    | nil => exact absurd rfl hdot
    | cons c' others => exact absurd (by simp [(List.cons.inj hrest).1]) hothers
  | case4 => rfl

/-- Parts with slashes between them start with the first part. -/
theorem exists_intercalate_eq (part : List Char) (parts : List (List Char)) :
    ∃ tail, List.intercalate ['/'] (part :: parts) = part ++ tail := by
  cases parts with
  | nil => exact ⟨[], by simp⟩
  | cons other others => exact ⟨_, by rw [List.intercalate_cons_cons, List.append_assoc]⟩

/-- A path taken apart from a text is proper. -/
theorem isProper_ofText {text : List Char} (h : text ≠ []) : (ofText text).IsProper := by
  have hslash : ∀ {rest : List Char}, ∀ part ∈ rest.splitOn '/', '/' ∉ part :=
    fun part hmem hc => (Script.mem_and_ne_of_mem_splitOn hmem hc).2 rfl
  fun_cases ofText text with
  | case1 rest => exact ⟨hslash, by simp⟩
  | case2 => exact ⟨by simp, by simp⟩
  | case3 rest => exact ⟨List.forall_mem_cons.2 ⟨by simp, hslash⟩, by simp⟩
  | case4 _ hroot hdot hhere =>
    refine ⟨hslash, ?_⟩
    intro part hmem
    obtain ⟨others, hothers⟩ := List.head?_eq_some_iff.1 hmem
    have htext : List.intercalate ['/'] (part :: others) = text := by
      rw [← hothers, List.intercalate_splitOn]
    -- A first part that names nothing would make the text start with a slash or a single dot.
    have hfiller : isFiller part = false := by
      rw [isFiller_eq_false_iff]
      cases others with
      | nil =>
        rw [List.intercalate_singleton] at htext
        subst htext
        exact ⟨h, hdot⟩
      | cons other others =>
        rw [List.intercalate_cons_cons] at htext
        constructor
        · rintro rfl
          exact hroot _ htext.symm
        · rintro rfl
          exact hhere _ htext.symm
    simp [hfiller]

/-- The first parts of a proper path are proper. -/
theorem IsProper.of_isPrefix (h : path.IsProper) (hparts : parts <+: path.parts) :
    IsProper { path with parts := parts } := by
  refine ⟨fun part hmem => h.slash part (hparts.subset hmem), ?_⟩
  intro part hmem
  obtain ⟨others, rfl⟩ := List.head?_eq_some_iff.1 hmem
  obtain ⟨more, hmore⟩ := hparts
  exact h.first part (by rw [← hmore]; rfl)

/-- A proper path without its file name is proper. -/
theorem IsProper.parent (h : path.IsProper) : path.parent.IsProper := by
  refine h.of_isPrefix ?_
  have htrim : ∀ parts, trimFillers parts <+: parts := fun _ => List.rdropWhile_prefix ..
  exact (htrim _).trans ((List.dropLast_prefix _).trans (htrim _))

/-- **The text of a proper path says what the path says.** -/
theorem IsProper.components_ofText (h : path.IsProper) :
    (ofText path.text).components = path.components := by
  obtain ⟨anchor, parts⟩ := path
  -- The parts are read back from between the slashes; no parts are read back as an empty one.
  have hread : said ((List.intercalate ['/'] parts).splitOn '/') = said parts := by
    cases parts with
    | nil => rfl
    | cons part parts =>
      rw [List.splitOn_intercalate '/' h.slash (List.cons_ne_nil _ _)]
  rw [components_eq ⟨anchor, parts⟩, ← hread]
  cases anchor with
  | root => rfl
  | here =>
    cases parts with
    | nil => rfl
    | cons part parts =>
      obtain rfl : part = [] := (h.first part rfl).1 rfl
      cases parts with
      | nil => rfl
      | cons other others =>
        rw [text, List.intercalate_cons_cons, List.nil_append]
        exact congrArg (fun parts => Component.here :: said parts)
          (List.splitOn_append_cons_self [] _).symm
  | bare =>
    cases parts with
    | nil => rfl
    | cons part parts =>
      have hslash : '/' ∉ part := h.slash part List.mem_cons_self
      have hfiller : isFiller part = false := (h.first part rfl).2 rfl
      obtain ⟨tail, htail⟩ := exists_intercalate_eq part parts
      rw [text, Anchor.text, List.nil_append, htail, ofText_eq_bare hslash hfiller, components_eq]

/-! ## Texts with more behind them -/

/-- What follows a slash adds its parts. -/
theorem ofText_append_slash {front : List Char} (h : front ≠ []) (rest : List Char) :
    ofText (front ++ '/' :: rest) =
      ⟨(ofText front).anchor, (ofText front).parts ++ rest.splitOn '/'⟩ := by
  have hproper := isProper_ofText h
  revert hproper
  fun_cases ofText front with
  | case1 front =>
    intro _
    rw [List.cons_append, ofText, List.splitOn_append_cons_self]
  | case2 =>
    intro _
    rfl
  | case3 front =>
    intro _
    rw [List.cons_append, List.cons_append, ofText, List.splitOn_append_cons_self, List.cons_append]
  | case4 =>
    intro hproper
    obtain ⟨part, others, hparts⟩ := List.exists_cons_of_ne_nil (List.splitOn_ne_nil '/' front)
    have hslash : '/' ∉ part := hproper.slash part (by simp [hparts])
    have hfiller : isFiller part = false := (hproper.first part (by simp [hparts])).2 rfl
    obtain ⟨tail, htail⟩ := exists_intercalate_eq part others
    rw [← hparts, List.intercalate_splitOn] at htail
    rw [htail, List.append_assoc, ofText_eq_bare hslash hfiller, ← List.append_assoc,
      List.splitOn_append_cons_self]

/-- What follows a slash adds its components. -/
theorem components_append_slash (front rest : List Char) :
    (ofText (front ++ '/' :: rest)).components =
      (ofText (front ++ ['/'])).components ++ said (rest.splitOn '/') := by
  by_cases h : front = []
  · subst h
    exact components_eq _
  · rw [ofText_append_slash h, ofText_append_slash h, components_eq, components_eq, said_append,
      said_append, List.append_assoc, List.append_assoc]
    rfl

/-- A slash at the end of a text says nothing, unless it is the root. -/
theorem components_append_singleton {front : List Char} (h : front ≠ []) :
    (ofText (front ++ ['/'])).components = (ofText front).components := by
  rw [ofText_append_slash h, components_eq, components_eq, said_append, ← List.append_assoc]
  exact List.append_nil _

/-- A text without slashes that names something says what it says as a part. -/
theorem components_part (hslash : '/' ∉ name) (hfiller : isFiller name = false) :
    (ofText name).components = said [name] := by
  have hbare := ofText_eq_bare hslash hfiller []
  rw [List.append_nil, List.splitOn_eq_singleton hslash] at hbare
  rw [hbare, components_eq]
  rfl

/-- The path of an entry in a directory says what the directory says, and then the name of the
entry. -/
theorem components_child (directory : List Char) (hslash : '/' ∉ name)
    (hfiller : isFiller name = false) (hup : name ≠ ['.', '.']) :
    (ofText (child directory name)).components =
      (ofText directory).components ++ [.name name] := by
  have hname : said (name.splitOn '/') = [.name name] := by
    rw [List.splitOn_eq_singleton hslash, said_name hfiller hup]
  unfold child
  by_cases hjoined : directory.isEmpty || directory.getLast? = some '/'
  · rw [if_pos hjoined]
    obtain hempty | hlast := Bool.or_eq_true_iff.1 hjoined
    · rw [List.isEmpty_iff.1 hempty, List.nil_append, components_part hslash hfiller,
        said_name hfiller hup]
      rfl
    · obtain ⟨front, rfl⟩ := List.getLast?_eq_some_iff.1 (of_decide_eq_true hlast)
      rw [List.append_assoc, List.singleton_append, components_append_slash, hname]
  · rw [if_neg hjoined]
    have hne : directory ≠ [] := by
      rintro rfl
      exact hjoined rfl
    rw [components_append_slash, components_append_singleton hne, hname]

/-- **Another file name changes the last component and no other.** -/
theorem components_withFileName {text : List Char} (h : text ≠ []) (hslash : '/' ∉ name)
    (hfiller : isFiller name = false) (hup : name ≠ ['.', '.']) :
    (ofText ((ofText text).withFileName name)).components =
      (ofText text).parent.components ++ [.name name] := by
  rw [withFileName, components_child _ hslash hfiller hup,
    (isProper_ofText h).parent.components_ofText]

/-- A path with a file name has a text, and the file name has no slash. -/
theorem ne_nil_and_slash_of_fileName? {text : List Char} (h : (ofText text).fileName? = some name) :
    text ≠ [] ∧ '/' ∉ name := by
  have hne : text ≠ [] := by
    rintro rfl
    cases h
  refine ⟨hne, (isProper_ofText hne).slash name ?_⟩
  have hlast : (trimFillers (ofText text).parts).getLast? = some name :=
    (Option.filter_eq_some_iff.1 h).1
  exact (List.rdropWhile_prefix ..).subset (List.mem_of_getLast? hlast)

end Path

end CallScript.Files

/-! ## Paths of results -/

namespace CallScript

open Files Files.Path

/-- The **components** of a path that is given by its text. -/
def pathComponents (path : String) : List Component :=
  (Path.ofText path.toList).components

/-- A name with the ending of results names an entry. -/
theorem isName_append_outputEnding (name : List Char) :
    isFiller (name ++ outputEnding) = false ∧ name ++ outputEnding ≠ ['.', '.'] := by
  have hlength : 2 < (name ++ outputEnding).length := by simp [outputEnding]
  rw [isFiller_eq_false_iff]
  refine ⟨⟨?_, ?_⟩, ?_⟩ <;>
  · intro h
    simp [h] at hlength

/-- A part with the ending of results does not say what it says without it. -/
theorem said_append_outputEnding_ne (name : List Char) :
    said [name ++ outputEnding] ≠ said [name] := by
  obtain ⟨hfiller, hup⟩ := isName_append_outputEnding name
  rw [said_name hfiller hup]
  intro h
  -- Only the name itself could say the longer name.
  have hmem : Component.name (name ++ outputEnding) ∈ said [name] := by rw [← h]; simp
  obtain ⟨part, hpart, hsame⟩ := List.mem_map.1 hmem
  obtain rfl : part = name := List.mem_singleton.1 (List.mem_filter.1 hpart).1
  split at hsame
  · cases hsame
  · exact absurd (Component.name.inj hsame) (by simp [outputEnding])

/-- A text does not say the same with the ending of results behind it. -/
theorem components_append_outputEnding_ne (text : List Char) :
    (Path.ofText (text ++ outputEnding)).components ≠ (Path.ofText text).components := by
  have hending : '/' ∉ outputEnding := by decide
  obtain ⟨name, hslash, rfl | ⟨front, rfl⟩⟩ := exists_endsIn text
  · have hlonger : '/' ∉ text ++ outputEnding := by simp [hslash, hending]
    rw [components_part hlonger (isName_append_outputEnding text).1]
    by_cases hfiller : isFiller text = false
    · rw [components_part hslash hfiller]
      exact said_append_outputEnding_ne text
    · rw [isFiller_eq_false_iff, not_and_or, not_not, not_not] at hfiller
      rcases hfiller with rfl | rfl <;> decide
  · have hlonger : '/' ∉ name ++ outputEnding := by simp [hslash, hending]
    rw [List.append_assoc, List.cons_append, components_append_slash,
      components_append_slash front name, List.splitOn_eq_singleton hslash,
      List.splitOn_eq_singleton hlonger]
    intro h
    exact said_append_outputEnding_ne name (List.append_cancel_left h)

/-- The path of the result for the file name of a script. -/
theorem pathComponents_outputPath_of_script {input : String} {stem : List Char}
    (h : (Path.ofText input.toList).fileName? = some (stem ++ scriptEnding)) :
    pathComponents (outputPath input) =
      (Path.ofText input.toList).parent.components ++ [.name (stem ++ outputEnding)] := by
  obtain ⟨hne, hslash⟩ := ne_nil_and_slash_of_fileName? h
  obtain ⟨hfiller, hup⟩ := isName_append_outputEnding stem
  have hending : '/' ∉ outputEnding := by decide
  have hstem : scriptStem? (stem ++ scriptEnding) = some stem := by simp [scriptStem?]
  simp only [pathComponents, outputPath, h, Option.bind_some, hstem, String.toList_ofList]
  refine components_withFileName hne ?_ hfiller hup
  simp only [List.mem_append, not_or] at hslash ⊢
  exact ⟨hslash.1, hending⟩

/-- **The path of a result never says what the path of its script says.** If the last component of
the script's path is a name with the ending of scripts, whatever slashes and dots follow it in the
text, then the path of the result has the same components before it, and the same name with the
ending of results. -/
theorem components_outputPath (input : String) :
    pathComponents (outputPath input) ≠ pathComponents input ∧
      ∀ front stem, pathComponents input = front ++ [.name (stem ++ scriptEnding)] →
        pathComponents (outputPath input) = front ++ [.name (stem ++ outputEnding)] := by
  have hscript : ∀ front stem, pathComponents input = front ++ [.name (stem ++ scriptEnding)] →
      pathComponents (outputPath input) = front ++ [.name (stem ++ outputEnding)] := by
    intro front stem hinput
    obtain ⟨hfile, rfl⟩ := components_eq_concat_iff.1 hinput
    exact pathComponents_outputPath_of_script hfile
  refine ⟨?_, hscript⟩
  cases hstem : (Path.ofText input.toList).fileName?.bind scriptStem? with
  | none =>
    simp only [pathComponents, outputPath, hstem, String.toList_ofList]
    exact components_append_outputEnding_ne input.toList
  | some stem =>
    obtain ⟨name, hname, hending⟩ := Option.bind_eq_some_iff.1 hstem
    obtain rfl := eq_append_of_scriptStem? hending
    have hinput : pathComponents input =
        (Path.ofText input.toList).parent.components ++ [.name (stem ++ scriptEnding)] :=
      components_eq_concat_iff.2 ⟨hname, rfl⟩
    rw [hscript _ _ hinput, hinput]
    intro h
    have hsame := Component.name.inj (List.append_singleton_inj.1 h).2
    exact absurd (List.append_cancel_left hsame) (by decide)

/-- Slashes and dots around a name that is all ending but for a dot. -/
theorem dottedScript_components :
    pathComponents ".//d/./..call//." = [.here, .name ['d'], .name (['.'] ++ scriptEnding)] ∧
      pathComponents (outputPath ".//d/./..call//.") =
        [.here, .name ['d'], .name (['.'] ++ outputEnding)] := by
  have h : pathComponents ".//d/./..call//." =
      [.here, .name ['d']] ++ [.name (['.'] ++ scriptEnding)] := by decide +kernel
  exact ⟨h, (components_outputPath _).2 _ _ h⟩

end CallScript
