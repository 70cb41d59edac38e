import CallScript.Script.Token
import Mathlib.Data.List.DropRight
import Mathlib.Data.List.TakeWhile

/-! # Words with blanks around them

How words stand in a text, said without an algorithm, and that the tokens of a text are those words.

* **`Spaced`** relates words to the texts in which they stand with blanks around them.
* **`spaced_tokens`** and **`tokens_of_spaced`**: the tokens of a text are the words spaced in it,
  and there are no others.
* **`exists_gap_trim`**: what trimming removes are gaps. -/

namespace CallScript.Script

open Text

/-! ## Runs of characters -/

/-- A run of characters of one kind, up to a character of another kind, is what is taken from the
front of a text, and what follows it is what is left. -/
theorem takeWhile_dropWhile_run {kind : Char → Bool} {run rest : List Char}
    (hrun : ∀ c ∈ run, kind c = true) (hrest : ∀ c ∈ rest.head?, kind c = false) :
    (run ++ rest).takeWhile kind = run ∧ (run ++ rest).dropWhile kind = rest := by
  rw [List.takeWhile_append_of_pos hrun, List.dropWhile_append_of_pos hrun]
  cases rest with
  | nil => simp
  | cons c rest =>
    have hc : kind c = false := hrest c rfl
    simp [hc]

/-! ## Gaps and words -/

/-- A **gap** is a text of blanks only. -/
def IsGap (text : List Char) : Prop :=
  ∀ c ∈ text, isBlank c = true

/-- A **word** is a non-empty text without blanks. -/
def IsWord (text : List Char) : Prop :=
  text ≠ [] ∧ ∀ c ∈ text, isBlank c = false

-- Both are decided by going through the text, not through all characters.
instance (text : List Char) : Decidable (IsGap text) :=
  List.decidableBAll (isBlank · = true) text

instance (text : List Char) : Decidable (IsWord text) :=
  have := List.decidableBAll (isBlank · = false) text
  instDecidableAnd

/-- A text **ends a word** before it when it is empty or starts with a blank. -/
def EndsWord (text : List Char) : Prop :=
  ∀ c ∈ text.head?, isBlank c = true

/-- Words are **spaced** in a text when the text is these words in order, with gaps before, between
and after them, and the gaps between them are not empty. -/
inductive Spaced : List (List Char) → List Char → Prop
  /-- No words. -/
  | gap {gap : List Char} (hgap : IsGap gap) : Spaced [] gap
  /-- A word, after a gap, and further words. -/
  | word {gap word rest : List Char} {words : List (List Char)} (hgap : IsGap gap)
    (hword : IsWord word) (hend : EndsWord rest) (hrest : Spaced words rest) :
    Spaced (word :: words) (gap ++ word ++ rest)

theorem IsGap.append {left right : List Char} (hleft : IsGap left) (hright : IsGap right) :
    IsGap (left ++ right) := by
  intro c hmem
  rcases List.mem_append.1 hmem with h | h
  · exact hleft c h
  · exact hright c h

/-- The blanks at the start of a text are a gap. -/
theorem isGap_takeWhile (text : List Char) : IsGap (text.takeWhile isBlank) :=
  fun _ hmem => List.mem_takeWhile_imp hmem

/-- Words stay spaced after a further gap. -/
theorem Spaced.append_left {gap text : List Char} {words : List (List Char)} (hgap : IsGap gap)
    (h : Spaced words text) : Spaced words (gap ++ text) := by
  cases h with
  | gap htext => exact .gap (hgap.append htext)
  | word hfirst hword hend hrest =>
    rw [← List.append_assoc, ← List.append_assoc]
    exact .word (hgap.append hfirst) hword hend hrest

/-- What ends a word still does with a gap after it. -/
theorem EndsWord.append_gap {text gap : List Char} (h : EndsWord text) (hgap : IsGap gap) :
    EndsWord (text ++ gap) := by
  cases text with
  | nil =>
    intro c hmem
    exact hgap c (List.mem_of_mem_head? hmem)
  | cons c text => exact h

/-- Words stay spaced before a further gap. -/
theorem Spaced.append_right {gap text : List Char} {words : List (List Char)}
    (h : Spaced words text) (hgap : IsGap gap) : Spaced words (text ++ gap) := by
  induction h with
  | gap htext => exact .gap (htext.append hgap)
  | word hfirst hword hend hrest ih =>
    rw [List.append_assoc]
    exact .word hfirst hword (hend.append_gap hgap) ih

/-- Every one of spaced words is a word. -/
theorem Spaced.isWord {text : List Char} {words : List (List Char)} (h : Spaced words text) :
    ∀ word ∈ words, IsWord word := by
  induction h with
  | gap hgap => simp
  | word hgap hword hend hrest ih => exact List.forall_mem_cons.2 ⟨hword, ih⟩

/-- Dropping the blanks before a word leaves the word and what follows it. -/
theorem trimStart_append_word {gap word rest : List Char} (hgap : IsGap gap) (hword : IsWord word) :
    trimStart (gap ++ word ++ rest) = word ++ rest := by
  obtain ⟨c, others, rfl⟩ := List.exists_cons_of_ne_nil hword.1
  have hc : isBlank c = false := hword.2 c List.mem_cons_self
  rw [List.append_assoc]
  exact (takeWhile_dropWhile_run hgap (by simp [hc])).2

/-- The blanks at the start of a text are those before its first word. -/
theorem takeWhile_append_word {gap word : List Char} (hgap : IsGap gap) (hword : IsWord word)
    (rest : List Char) : (gap ++ word ++ rest).takeWhile isBlank = gap := by
  obtain ⟨c, others, rfl⟩ := List.exists_cons_of_ne_nil hword.1
  have hc : isBlank c = false := hword.2 c List.mem_cons_self
  rw [List.append_assoc]
  exact (takeWhile_dropWhile_run hgap (by simp [hc])).1

/-- A word is the longest run without blanks, up to what ends it. -/
theorem takeWhile_word {word rest : List Char} (hword : IsWord word) (hend : EndsWord rest) :
    (word ++ rest).takeWhile (!isBlank ·) = word ∧ (word ++ rest).dropWhile (!isBlank ·) = rest :=
  takeWhile_dropWhile_run (fun c hmem => by simp [hword.2 c hmem])
    (fun c hmem => by simp [hend c hmem])

/-- After the blanks before it, a text starts with the first word spaced in it. -/
theorem Spaced.trimStart_eq {text word : List Char} {words : List (List Char)}
    (h : Spaced (word :: words) text) :
    ∃ rest, trimStart text = word ++ rest ∧ EndsWord rest ∧ Spaced words rest := by
  cases h with
  | word hgap hword hend hrest => exact ⟨_, trimStart_append_word hgap hword, hend, hrest⟩

/-- No word is spaced in the empty text. -/
theorem Spaced.ne_nil {text word : List Char} {words : List (List Char)}
    (h : Spaced (word :: words) text) : text ≠ [] := by
  rintro rfl
  obtain ⟨rest, hnil, -, -⟩ := h.trimStart_eq
  exact (h.isWord word List.mem_cons_self).1 (List.append_eq_nil_iff.1 hnil.symm).1

/-- A text without anything after its leading blanks is a gap. -/
theorem isGap_of_trimStart {text : List Char} (h : trimStart text = []) : IsGap text :=
  fun c hmem => List.dropWhile_eq_nil_iff.1 h c hmem

/-- What follows a run of characters that are not blank ends the word. -/
theorem endsWord_dropWhile (text : List Char) : EndsWord (text.dropWhile (!isBlank ·)) := by
  intro c hmem
  have hhead := List.head?_dropWhile_not (!isBlank ·) text
  rw [Option.mem_def.1 hmem] at hhead
  simpa using hhead

/-- The tokens of a text are spaced in it. -/
theorem spaced_tokens (offset : Nat) (text : List Char) :
    Spaced ((tokens offset text).map fun token => token.text.toList) text := by
  fun_induction tokens offset text with
  | case1 offset text h => exact .gap (isGap_of_trimStart h)
  | case2 offset text c rest h start word _ ih =>
    have hc : isBlank c = false := isBlank_eq_false_of_trimStart h
    have hword : IsWord word := by
      refine ⟨List.cons_ne_nil _ _, List.forall_mem_cons.2 ⟨hc, ?_⟩⟩
      intro c' hmem
      simpa using List.mem_takeWhile_imp hmem
    -- The text is its leading blanks, the word, and what follows the word.
    have htext : text.takeWhile isBlank ++ word ++ rest.dropWhile (!isBlank ·) = text :=
      calc text.takeWhile isBlank ++ word ++ rest.dropWhile (!isBlank ·)
        _ = text.takeWhile isBlank ++
            c :: (rest.takeWhile (!isBlank ·) ++ rest.dropWhile (!isBlank ·)) := by simp [word]
        _ = text.takeWhile isBlank ++ trimStart text := by
          rw [List.takeWhile_append_dropWhile, h]
        _ = text := takeWhile_append_trimStart text
    have hspaced := Spaced.word (isGap_takeWhile text) hword (endsWord_dropWhile rest) ih
    rw [htext] at hspaced
    rw [List.map_cons, String.toList_ofList]
    exact hspaced

/-- Tokens are words. -/
theorem isWord_of_mem_tokens {offset : Nat} {text : List Char} {token : Token}
    (h : token ∈ tokens offset text) : IsWord token.text.toList :=
  (spaced_tokens offset text).isWord _ (List.mem_map_of_mem h)

/-- A gap has no tokens. -/
theorem tokens_of_isGap {gap : List Char} (hgap : IsGap gap) (offset : Nat) :
    tokens offset gap = [] := by
  have hnone : trimStart gap = [] := List.dropWhile_eq_nil_iff.2 hgap
  rw [tokens]
  split
  · rfl
  · next hsome => simp [hnone] at hsome

/-- The first token of a text is the word after its first gap, and the others are the tokens of what
follows that word. -/
theorem tokens_append_word {gap word rest : List Char} (hgap : IsGap gap) (hword : IsWord word)
    (hend : EndsWord rest) (offset : Nat) :
    tokens offset (gap ++ word ++ rest) =
      ⟨String.ofList word, offset + byteLength gap + 1⟩ ::
        tokens (offset + byteLength gap + byteLength word) rest := by
  have hstart : trimStart (gap ++ word ++ rest) = word ++ rest := trimStart_append_word hgap hword
  have hgapRun := takeWhile_append_word hgap hword rest
  have hwordRun := takeWhile_word hword hend
  obtain ⟨c, others, rfl⟩ := List.exists_cons_of_ne_nil hword.1
  have hc : isBlank c = false := hword.2 c List.mem_cons_self
  -- The first character of the word is taken apart from the others.
  simp only [List.cons_append, List.takeWhile_cons, List.dropWhile_cons, hc, Bool.not_false,
    if_true, List.cons.injEq, true_and] at hwordRun
  rw [tokens]
  split
  · next hnone => exact absurd (hstart.symm.trans hnone) (List.cons_ne_nil _ _)
  · next c' rest' hsome =>
    rw [hstart, List.cons_append] at hsome
    obtain ⟨rfl, rfl⟩ := List.cons.inj hsome
    simp only [hgapRun, hwordRun.1, hwordRun.2]

/-- The tokens of a text are the words that are spaced in it. -/
theorem tokens_of_spaced {words : List (List Char)} {text : List Char} (h : Spaced words text)
    (offset : Nat) : ((tokens offset text).map fun token => token.text.toList) = words := by
  induction h generalizing offset with
  | gap hgap => rw [tokens_of_isGap hgap, List.map_nil]
  | word hgap hword hend hrest ih =>
    rw [tokens_append_word hgap hword hend, List.map_cons, String.toList_ofList, ih]

/-- Every text is words with gaps around them. -/
theorem exists_spaced (text : List Char) : ∃ words, Spaced words text :=
  ⟨_, spaced_tokens 0 text⟩

/-- The tokens after a gap are those of the text that follows it. -/
theorem tokens_append_left {gap : List Char} (hgap : IsGap gap) (offset : Nat) (text : List Char) :
    tokens offset (gap ++ text) = tokens (offset + byteLength gap) text := by
  obtain ⟨words, hspaced⟩ := exists_spaced text
  cases hspaced with
  | gap htext => rw [tokens_of_isGap (hgap.append htext), tokens_of_isGap htext]
  | word hfirst hword hend hrest =>
    rw [← List.append_assoc, ← List.append_assoc, tokens_append_word (hgap.append hfirst) hword hend,
      tokens_append_word hfirst hword hend, byteLength_append, ← Nat.add_assoc]

/-- The tokens before a gap are those of the text that comes before it. -/
theorem tokens_append_right {gap : List Char} (hgap : IsGap gap) (offset : Nat) (text : List Char) :
    tokens offset (text ++ gap) = tokens offset text := by
  obtain ⟨words, hspaced⟩ := exists_spaced text
  induction hspaced generalizing offset with
  | gap htext => rw [tokens_of_isGap (htext.append hgap), tokens_of_isGap htext]
  | word hfirst hword hend hrest ih =>
    rw [List.append_assoc, tokens_append_word hfirst hword (hend.append_gap hgap),
      tokens_append_word hfirst hword hend, ih]

/-- A text starts with one gap and one word only. -/
theorem append_word_inj {gap gap' word word' rest rest' : List Char} (hgap : IsGap gap)
    (hgap' : IsGap gap') (hword : IsWord word) (hword' : IsWord word') (hend : EndsWord rest)
    (hend' : EndsWord rest') (h : gap ++ word ++ rest = gap' ++ word' ++ rest') :
    gap = gap' ∧ word = word' ∧ rest = rest' := by
  obtain rfl : gap = gap' := by
    rw [← takeWhile_append_word hgap hword rest, h, takeWhile_append_word hgap' hword']
  rw [List.append_assoc, List.append_assoc] at h
  have hsame : word ++ rest = word' ++ rest' := List.append_cancel_left h
  obtain rfl : word = word' := by
    rw [← (takeWhile_word hword hend).1, hsame, (takeWhile_word hword' hend').1]
  exact ⟨rfl, rfl, List.append_cancel_left hsame⟩

/-- At most one list of words is spaced in a text. -/
theorem Spaced.unique {words words' : List (List Char)} {text : List Char} (h : Spaced words text)
    (h' : Spaced words' text) : words = words' :=
  (tokens_of_spaced h 0).symm.trans (tokens_of_spaced h' 0)

/-- Words stay spaced when gaps around them are left out. -/
theorem Spaced.of_append {words : List (List Char)} {lead text trail : List Char}
    (h : Spaced words (lead ++ text ++ trail)) (hlead : IsGap lead) (htrail : IsGap trail) :
    Spaced words text := by
  -- The tokens of the text are spaced in the longer text too, where only one list of words is.
  have htokens := spaced_tokens 0 text
  have hwhole := (htokens.append_left hlead).append_right htrail
  rwa [hwhole.unique h] at htokens

/-! ## Trimming -/

/-- A text is what trimming its end leaves, with a gap after it. -/
theorem exists_gap_trimEnd (text : List Char) :
    ∃ trail, IsGap trail ∧ text = trimEnd text ++ trail := by
  refine ⟨(text.reverse.takeWhile isBlank).reverse, ?_, ?_⟩
  · intro c hmem
    exact isGap_takeWhile text.reverse c (List.mem_reverse.1 hmem)
  · rw [trimEnd, ← List.reverse_append, List.takeWhile_append_dropWhile, List.reverse_reverse]

/-- A text is what trimming leaves, with gaps before and after it. -/
theorem exists_gap_trim (text : List Char) :
    ∃ trail, IsGap trail ∧ text = text.takeWhile isBlank ++ trim text ++ trail := by
  obtain ⟨trail, htrail, hend⟩ := exists_gap_trimEnd (trimStart text)
  refine ⟨trail, htrail, ?_⟩
  rw [List.append_assoc, trim, ← hend, takeWhile_append_trimStart]

/-- A character of another kind ends the run of characters of one kind at the end of a text. -/
theorem rdropWhile_append_cons {kind : Char → Bool} (left : List Char) {right : List Char} {c : Char}
    (hc : kind c = false) :
    (left ++ c :: right).rdropWhile kind = left ++ c :: right.rdropWhile kind := by
  rw [List.rdropWhile, List.rdropWhile, List.reverse_append, List.reverse_cons, List.append_assoc,
    List.dropWhile_append]
  split
  · next hempty =>
    rw [List.isEmpty_iff.1 hempty]
    simp [hc]
  · simp

/-- A character that is not blank ends what can be trimmed from the end of a text. -/
theorem trimEnd_append_cons (left : List Char) {right : List Char} {c : Char}
    (hc : isBlank c = false) :
    trimEnd (left ++ c :: right) = left ++ c :: trimEnd right :=
  rdropWhile_append_cons left hc

/-- Trimming leaves no blank at the start. -/
theorem trimStart_trim (text : List Char) : trimStart (trim text) = trim text := by
  unfold trim
  cases hstart : trimStart text with
  | nil => rfl
  | cons c rest =>
    have hc : isBlank c = false := isBlank_eq_false_of_trimStart hstart
    have hend : trimEnd (c :: rest) = c :: trimEnd rest := trimEnd_append_cons [] hc
    rw [hend, trimStart, List.dropWhile_cons_of_neg (by simp [hc])]

/-- Trimming leaves nothing exactly of gaps. -/
theorem trim_eq_nil_iff {text : List Char} : trim text = [] ↔ IsGap text := by
  constructor
  · intro h
    obtain ⟨trail, htrail, htext⟩ := exists_gap_trim text
    rw [htext, h, List.append_nil]
    exact (isGap_takeWhile text).append htrail
  · intro h
    have hstart : trimStart text = [] := List.dropWhile_eq_nil_iff.2 h
    rw [trim, hstart, trimEnd_nil]

/-- A trimmed text starts with the first character after a gap. -/
theorem head?_trim_eq_some_iff {text : List Char} {c : Char} (hc : isBlank c = false) :
    (trim text).head? = some c ↔ ∃ gap rest, IsGap gap ∧ text = gap ++ c :: rest := by
  constructor
  · intro h
    obtain ⟨rest, hrest⟩ := List.head?_eq_some_iff.1 h
    obtain ⟨trail, -, htext⟩ := exists_gap_trim text
    refine ⟨text.takeWhile isBlank, rest ++ trail, isGap_takeWhile text, ?_⟩
    rw [hrest, List.append_assoc] at htext
    exact htext
  · rintro ⟨gap, rest, hgap, rfl⟩
    have hstart : trimStart (gap ++ c :: rest) = c :: rest :=
      (takeWhile_dropWhile_run hgap (by simp [hc])).2
    have hend : trimEnd (c :: rest) = c :: trimEnd rest := trimEnd_append_cons [] hc
    rw [trim, hstart, hend, List.head?_cons]

/-- What follows a text with a character that is not blank does not change its leading blanks. -/
theorem takeWhile_append_of_not_isGap {text : List Char} (h : ¬IsGap text) (trail : List Char) :
    (text ++ trail).takeWhile isBlank = text.takeWhile isBlank ∧
      trimStart (text ++ trail) = trimStart text ++ trail := by
  have hstart : trimStart text ≠ [] := fun hnil => h (isGap_of_trimStart hnil)
  obtain ⟨c, rest, hrest⟩ := List.exists_cons_of_ne_nil hstart
  have hc : isBlank c = false := isBlank_eq_false_of_trimStart hrest
  have hhead : ∀ c' ∈ (trimStart text ++ trail).head?, isBlank c' = false := by simp [hrest, hc]
  -- The leading blanks are a run that ends at the same character in both texts.
  have hrun := takeWhile_dropWhile_run (isGap_takeWhile text) hhead
  rwa [← List.append_assoc, takeWhile_append_trimStart] at hrun

/-- Trimming the end drops a gap there. -/
theorem trimEnd_append_gap {gap : List Char} (hgap : IsGap gap) (text : List Char) :
    trimEnd (text ++ gap) = trimEnd text := by
  have hreverse : ∀ c ∈ gap.reverse, isBlank c = true := by
    intro c hmem
    exact hgap c (List.mem_reverse.1 hmem)
  rw [trimEnd, List.reverse_append, List.dropWhile_append_of_pos hreverse, ← trimEnd]

/-- Trimming drops a gap at the end. -/
theorem trim_append_gap {gap : List Char} (hgap : IsGap gap) (text : List Char) :
    trim (text ++ gap) = trim text := by
  by_cases h : IsGap text
  · rw [trim_eq_nil_iff.2 h, trim_eq_nil_iff.2 (h.append hgap)]
  · rw [trim, (takeWhile_append_of_not_isGap h gap).2, trimEnd_append_gap hgap, trim]

/-- A text without blanks is left alone by trimming. -/
theorem trim_eq_self {text : List Char} (h : ∀ c ∈ text, isBlank c = false) : trim text = text := by
  have hstart : trimStart text = text :=
    (takeWhile_dropWhile_run (fun _ hmem => absurd hmem List.not_mem_nil)
      (fun c hmem => h c (List.mem_of_mem_head? hmem))).2
  obtain ⟨trail, htrail, hend⟩ := exists_gap_trimEnd text
  -- A gap at the end of a text without blanks is empty.
  have hnil : trail = [] := by
    by_contra hne
    obtain ⟨c, hc⟩ := List.exists_mem_of_ne_nil trail hne
    have hmem : c ∈ text := by
      rw [hend]
      exact List.mem_append_right _ hc
    exact absurd (h c hmem) (by simp [htrail c hc])
  rw [trim, hstart]
  rw [hnil, List.append_nil] at hend
  exact hend.symm

end CallScript.Script
