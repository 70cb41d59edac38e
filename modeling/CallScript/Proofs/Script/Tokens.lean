import CallScript.Proofs.Script.Spacing
import Mathlib.Data.List.Chain

/-! # Tokens and what is between them

The tokens of a line, said in terms of byte offsets into the line: where each of them starts and
stops, and that there are only blanks before, between and after them.

* **`Stretch`** is the text of a line between two byte offsets.
* **`Tokenizes`** says which tokens a line has from an offset on.
* **`tokens_eq_iff_tokenizes`**: the tokens that are found are these, and there are no others. -/

namespace CallScript.Script

open Text

/-! ## Stretches of a line -/

/-- The offset at which a token starts. -/
def Token.start (token : Token) : Nat :=
  token.column - 1

/-- The offset at which a token stops. -/
def Token.stop (token : Token) : Nat :=
  token.start + byteLength token.text.toList

/-- A text is the **stretch** of a line between two offsets when as many bytes as they say come
before its start and before its end. -/
def Stretch (line : List Char) (start stop : Nat) (text : List Char) : Prop :=
  ∃ before after, line = before ++ text ++ after ∧ start = byteLength before ∧
    stop = byteLength (before ++ text)

/-- A line is **blank between** two offsets when the stretch between them is a gap. -/
def BlankBetween (line : List Char) (start stop : Nat) : Prop :=
  ∃ gap, IsGap gap ∧ Stretch line start stop gap

variable {line front text piece gap word rest : List Char} {start stop : Nat}

/-- Only the empty text has no bytes. -/
theorem eq_nil_of_byteLength (h : byteLength text = 0) : text = [] := by
  cases text with
  | nil => rfl
  | cons c text =>
    have hsize : 0 < c.utf8Size := c.utf8Size_pos
    rw [byteLength_cons] at h
    omega

/-- A line is divided in one way only after a number of bytes. -/
theorem append_inj_of_byteLength {left left' right right' : List Char}
    (h : left ++ right = left' ++ right') (hlength : byteLength left = byteLength left') :
    left = left' ∧ right = right' := by
  rcases List.append_eq_append_iff.1 h with ⟨more, rfl, rfl⟩ | ⟨more, rfl, rfl⟩
  · have hmore : more = [] := eq_nil_of_byteLength (by rw [byteLength_append] at hlength; omega)
    simp [hmore]
  · have hmore : more = [] := eq_nil_of_byteLength (by rw [byteLength_append] at hlength; omega)
    simp [hmore]

/-- What comes after the start of a line starts with the stretches from there on. -/
theorem Stretch.exists_rest (h : Stretch (front ++ text) (byteLength front) stop piece) :
    ∃ rest, text = piece ++ rest ∧ stop = byteLength (front ++ piece) := by
  obtain ⟨before, after, hline, hstart, hstop⟩ := h
  rw [List.append_assoc] at hline
  obtain ⟨rfl, rfl⟩ := append_inj_of_byteLength hline hstart
  exact ⟨after, rfl, hstop⟩

/-- A stretch that goes to the end of a line is all that is left of it. -/
theorem Stretch.eq_of_end
    (h : Stretch (front ++ text) (byteLength front) (byteLength (front ++ text)) piece) :
    text = piece := by
  obtain ⟨rest, rfl, hstop⟩ := h.exists_rest
  have hrest : rest = [] := by
    refine eq_nil_of_byteLength ?_
    simp only [byteLength_append] at hstop
    omega
  rw [hrest, List.append_nil]

/-! ## Tokens of a line -/

/-- The **tokens** of a line from an offset on: words of the line, in order, with only blanks around
them. -/
structure Tokenizes (line : List Char) (start : Nat) (found : List Token) : Prop where
  /-- Tokens are not empty and have no blanks. -/
  words : ∀ token ∈ found, IsWord token.text.toList
  /-- The text of a token is what stands in the line at its column. -/
  slices : ∀ token ∈ found,
    1 ≤ token.column ∧ Stretch line token.start token.stop token.text.toList
  /-- Tokens are in order. -/
  ordered : found.Pairwise fun token later => token.stop < later.start
  /-- There are only blanks before the first token. -/
  lead : ∀ token ∈ found.head?, BlankBetween line start token.start
  /-- There are only blanks between a token and the next, and at least one. -/
  between : found.IsChain fun token next =>
    token.stop < next.start ∧ BlankBetween line token.stop next.start
  /-- There are only blanks after the last token. -/
  trail : ∀ token ∈ found.getLast?, BlankBetween line token.stop (byteLength line)
  /-- Without a token there are only blanks. -/
  none : found = [] → BlankBetween line start (byteLength line)

/-- A gap has no tokens. -/
theorem Tokenizes.nil (front : List Char) (hgap : IsGap gap) :
    Tokenizes (front ++ gap) (byteLength front) [] where
  words := by simp
  slices := by simp
  ordered := .nil
  lead := by simp
  between := List.isChain_nil
  trail := by simp
  none _ := ⟨gap, hgap, front, [], by simp, rfl, rfl⟩

/-- The tokens after the first one start where that stops. -/
theorem Tokenizes.tail {token : Token} {others : List Token}
    (h : Tokenizes line start (token :: others)) : Tokenizes line token.stop others where
  words := (List.forall_mem_cons.1 h.words).2
  slices := (List.forall_mem_cons.1 h.slices).2
  ordered := h.ordered.of_cons
  lead next hnext := ((List.isChain_cons.1 h.between).1 next hnext).2
  between := (List.isChain_cons.1 h.between).2
  trail last hlast := h.trail last (by rw [List.getLast?_cons, hlast]; rfl)
  none hnil := h.trail token (by simp [hnil])

/-- After a word the next token does not start at once. -/
theorem Tokenizes.lt_start {found : List Token} {next : Token}
    (h : Tokenizes (front ++ rest) (byteLength front) found) (hend : EndsWord rest)
    (hnext : next ∈ found.head?) : byteLength front < next.start := by
  obtain ⟨gap, hgap, hstretch⟩ := h.lead next hnext
  obtain ⟨after, rfl, hstart⟩ := hstretch.exists_rest
  have hmem : next ∈ found := List.mem_of_mem_head? hnext
  have hslice := (h.slices next hmem).2
  rw [hstart, ← List.append_assoc] at hslice
  obtain ⟨rest', rfl, -⟩ := hslice.exists_rest
  -- Without a blank before it, the token would go on with the word.
  have hne : byteLength gap ≠ 0 := by
    intro hzero
    obtain ⟨hword, hblank⟩ := h.words next hmem
    obtain ⟨c, others, hc⟩ := List.exists_cons_of_ne_nil hword
    have hblank' : isBlank c = true := hend c (by simp [eq_nil_of_byteLength hzero, hc])
    simp [hblank c (by simp [hc])] at hblank'
  rw [hstart, byteLength_append]
  omega

/-- Tokens that start after the one before them stops are in order. -/
theorem pairwise_of_isChain {found : List Token}
    (h : found.IsChain fun token next => token.stop < next.start) :
    found.Pairwise fun token later => token.stop < later.start := by
  have htrans : IsTrans Token fun token later => token.stop < later.start := by
    refine ⟨fun token next later hnext hlater => ?_⟩
    have hstop : next.start ≤ next.stop := Nat.le_add_right _ _
    omega
  exact List.isChain_iff_pairwise.1 h

/-- A word after a gap is the first token, if what follows ends it. -/
theorem Tokenizes.cons {others : List Token} (hgap : IsGap gap) (hword : IsWord word)
    (hend : EndsWord rest)
    (h : Tokenizes (front ++ gap ++ word ++ rest) (byteLength (front ++ gap ++ word)) others) :
    Tokenizes (front ++ gap ++ word ++ rest) (byteLength front)
      (⟨String.ofList word, byteLength front + byteLength gap + 1⟩ :: others) := by
  generalize htoken : Token.mk (String.ofList word) (byteLength front + byteLength gap + 1) = token
  have htext : token.text.toList = word := by rw [← htoken, String.toList_ofList]
  have hcolumn : 1 ≤ token.column := by rw [← htoken]; exact Nat.le_add_left _ _
  have hstart : token.start = byteLength (front ++ gap) := by
    rw [← htoken, byteLength_append]
    rfl
  have hstop : token.stop = byteLength (front ++ gap ++ word) := by
    rw [Token.stop, hstart, htext, ← byteLength_append]
  have hbetween : (token :: others).IsChain fun token next => token.stop < next.start ∧
      BlankBetween (front ++ gap ++ word ++ rest) token.stop next.start := by
    refine List.isChain_cons.2 ⟨?_, h.between⟩
    intro next hnext
    rw [hstop]
    exact ⟨h.lt_start hend hnext, h.lead next hnext⟩
  refine ⟨?_, ?_, pairwise_of_isChain (hbetween.imp fun _ _ => And.left), ?_, hbetween, ?_, by simp⟩
  · exact List.forall_mem_cons.2 ⟨htext ▸ hword, h.words⟩
  · refine List.forall_mem_cons.2 ⟨⟨hcolumn, ?_⟩, h.slices⟩
    rw [htext]
    exact ⟨front ++ gap, rest, rfl, hstart, hstop⟩
  · intro first hfirst
    obtain rfl := Option.some.inj hfirst
    exact ⟨gap, hgap, front, word ++ rest, by simp, rfl, hstart⟩
  · intro last hlast
    cases others with
    | nil =>
      obtain rfl : token = last := by simpa using hlast
      rw [hstop]
      exact h.none rfl
    | cons next others => exact h.trail last (by simpa using hlast)

/-- The tokens that are found are those of the line. -/
theorem tokenizes_tokens (front text : List Char) :
    Tokenizes (front ++ text) (byteLength front) (tokens (byteLength front) text) := by
  obtain ⟨words, hspaced⟩ := exists_spaced text
  induction hspaced generalizing front with
  | gap hgap =>
    rw [tokens_of_isGap hgap]
    exact Tokenizes.nil front hgap
  | @word gap word rest words hgap hword hend _ ih =>
    have hoffset : byteLength front + byteLength gap + byteLength word =
        byteLength (front ++ gap ++ word) := by rw [byteLength_append, byteLength_append]
    rw [tokens_append_word hgap hword hend, hoffset, ← List.append_assoc, ← List.append_assoc]
    exact Tokenizes.cons hgap hword hend (ih _)

/-- What does not start with a token ends a word. -/
theorem Tokenizes.endsWord {found : List Token}
    (h : Tokenizes (front ++ rest) (byteLength front) found)
    (hnext : ∀ next ∈ found.head?, byteLength front < next.start) : EndsWord rest := by
  intro c hc
  cases found with
  | nil =>
    obtain ⟨gap, hgap, hstretch⟩ := h.none rfl
    rw [hstretch.eq_of_end] at hc
    exact hgap c (List.mem_of_mem_head? hc)
  | cons next others =>
    obtain ⟨gap, hgap, hstretch⟩ := h.lead next rfl
    obtain ⟨after, rfl, hstart⟩ := hstretch.exists_rest
    have hlt := hnext next rfl
    cases gap with
    | nil => simp [hstart] at hlt
    | cons blank blanks =>
      obtain rfl : blank = c := by simpa using hc
      exact hgap blank List.mem_cons_self

/-- A line has no other tokens than those that are found. -/
theorem Tokenizes.eq_tokens {found : List Token}
    (h : Tokenizes (front ++ text) (byteLength front) found) :
    found = tokens (byteLength front) text := by
  induction found generalizing front text with
  | nil =>
    obtain ⟨gap, hgap, hstretch⟩ := h.none rfl
    rw [hstretch.eq_of_end, tokens_of_isGap hgap]
  | cons token others ih =>
    obtain ⟨gap, hgap, hlead⟩ := h.lead token rfl
    obtain ⟨hcolumn, hslice⟩ := h.slices token List.mem_cons_self
    have hword : IsWord token.text.toList := h.words token List.mem_cons_self
    have hnext : ∀ next ∈ others.head?, token.stop < next.start :=
      fun next hmem => ((List.isChain_cons.1 h.between).1 next hmem).1
    have htail := h.tail
    -- The line is what comes before the token, the token, and what comes after it.
    obtain ⟨after, rfl, hstart⟩ := hlead.exists_rest
    rw [hstart, ← List.append_assoc] at hslice
    obtain ⟨rest, rfl, hstop⟩ := hslice.exists_rest
    rw [hstop, ← List.append_assoc, ← List.append_assoc] at htail
    rw [hstop] at hnext
    have hend : EndsWord rest := htail.endsWord hnext
    have hothers := ih htail
    have hplace : token.column = byteLength front + byteLength gap + 1 := by
      rw [Token.start, byteLength_append] at hstart
      omega
    rw [byteLength_append, byteLength_append] at hothers
    rw [← List.append_assoc, tokens_append_word hgap hword hend, ← hothers, ← hplace,
      String.ofList_toList]

/-- **The tokens of a line are the maximal runs of characters that are not blank.** From any
character of a line on, the tokens that are found are not empty, have no blanks and are in order;
each of them is what stands in the line between its offsets; and there are only blanks before the
first, after the last, and between two of them, where there is at least one. No other tokens are like
that. -/
theorem tokens_eq_iff_tokenizes (front text : List Char) (found : List Token) :
    found = tokens (byteLength front) text ↔
      Tokenizes (front ++ text) (byteLength front) found := by
  constructor
  · rintro rfl
    exact tokenizes_tokens front text
  · exact Tokenizes.eq_tokens

end CallScript.Script
