import CallScript.ErrorDisplay.Template
import CallScript.Proofs.Script.Spacing

/-! # How messages are taken apart

A message template is cut at its braces. What the cuts are is said here by rules, one for each thing
that a brace can be, and the scanner is shown to follow them.

* **`Scans`** relates a message to its pieces; **`scans_scan`** and **`Scans.scan_eq`** say that the
  pieces that scanning finds are the only ones.
* **`IsPlaceholder`** is what the placeholders of a message are like.
* **`Item`** is what a message can be made of: text without braces, doubled braces, placeholders.
* **`scan_inverse_spell`** says that scanning undoes writing and that writing undoes scanning. -/

namespace CallScript.ErrorDisplay

/-! ## What the pieces of a message are -/

/-- A text is **plain** when it has no braces. -/
def IsPlain (text : List Char) : Prop :=
  ∀ c ∈ text, isBrace c = false

/-- A message **scans** as a sequence of pieces: plain text up to the first brace, what that brace
is, and so on. -/
inductive Scans : List Char → List Piece → Prop
  /-- There are no more braces. -/
  | plain {before : List Char} (hbefore : IsPlain before) :
    Scans before [.text (String.ofList before)]
  /-- A brace twice in a row is text. -/
  | doubled {before rest : List Char} {brace : Char} {pieces : List Piece}
    (hbefore : IsPlain before) (hbrace : isBrace brace = true) (hrest : Scans rest pieces) :
    Scans (before ++ brace :: brace :: rest)
      (.text (String.ofList before) :: .text (String.ofList [brace, brace]) :: pieces)
  /-- A closing brace that closes nothing is text. -/
  | stray {before rest : List Char} {pieces : List Piece} (hbefore : IsPlain before)
    (hnext : ∀ others, rest ≠ '}' :: others) (hrest : Scans rest pieces) :
    Scans (before ++ '}' :: rest)
      (.text (String.ofList before) :: .text (String.ofList ['}']) :: pieces)
  /-- An opening brace that is never closed makes text of all that follows. -/
  | unclosed {before rest : List Char} (hbefore : IsPlain before)
    (hnext : ∀ others, rest ≠ '{' :: others) (hopen : '}' ∉ rest) :
    Scans (before ++ '{' :: rest)
      [.text (String.ofList before), .text (String.ofList ('{' :: rest))]
  /-- An opening brace and the next closing brace are those of a placeholder. -/
  | placeholder {before inner rest : List Char} {pieces : List Piece} (hbefore : IsPlain before)
    (hnext : ∀ others, inner ≠ '{' :: others) (hclosed : '}' ∉ inner) (hrest : Scans rest pieces) :
    Scans (before ++ '{' :: (inner ++ '}' :: rest))
      (.text (String.ofList before) :: placeholderOf inner :: pieces)

theorem isBrace_iff {c : Char} : isBrace c = true ↔ c = '{' ∨ c = '}' := by
  simp [isBrace]

theorem isPlain_nil : IsPlain [] :=
  nofun

/-- The text before the first brace is plain. -/
theorem isPlain_takeWhile (message : List Char) : IsPlain (message.takeWhile (!isBrace ·)) := by
  intro c hmem
  simpa using List.mem_takeWhile_imp hmem

/-- Plain text before a brace is what comes before the first brace. -/
theorem takeWhile_dropWhile_plain {before : List Char} (hbefore : IsPlain before)
    (rest : List Char) (hrest : ∀ c ∈ rest.head?, isBrace c = true) :
    (before ++ rest).takeWhile (!isBrace ·) = before ∧
      (before ++ rest).dropWhile (!isBrace ·) = rest :=
  Script.takeWhile_dropWhile_run (fun c hmem => by simp [hbefore c hmem])
    (fun c hmem => by simp [hrest c hmem])

/-- The characters of a text without `stop` are others. -/
theorem decide_ne_of_notMem {stop : Char} {text : List Char} (h : stop ∉ text) :
    ∀ c ∈ text, decide (c ≠ stop) = true :=
  fun _ hmem => decide_eq_true fun hc => h (hc ▸ hmem)

/-- A text up to its first character `stop` does not have it. -/
theorem notMem_takeWhile_ne (stop : Char) (text : List Char) :
    stop ∉ text.takeWhile (· ≠ stop) := by
  intro hmem
  simpa using List.mem_takeWhile_imp hmem

/-- What is dropped ends before the first character `stop`. -/
theorem eq_of_dropWhile_ne {stop c : Char} {text rest : List Char}
    (h : text.dropWhile (· ≠ stop) = c :: rest) : c = stop := by
  have hhead := List.head?_dropWhile_not (· ≠ stop) text
  rw [h] at hhead
  simpa using hhead

/-- A text is what comes before its first character `stop`, that character, and what is left. -/
theorem after?_eq_some {stop : Char} {text rest : List Char} (h : after? stop text = some rest) :
    text = text.takeWhile (· ≠ stop) ++ stop :: rest := by
  unfold after? at h
  split at h
  · contradiction
  · next c tail hdrop =>
    obtain rfl := Option.some.inj h
    obtain rfl := eq_of_dropWhile_ne hdrop
    rw [← hdrop, List.takeWhile_append_dropWhile]

/-- Nothing is left of a text after a character that it does not have. -/
theorem after?_eq_none_iff {stop : Char} {text : List Char} :
    after? stop text = none ↔ stop ∉ text := by
  have hdrop : text.dropWhile (· ≠ stop) = [] ↔ stop ∉ text := by
    rw [List.dropWhile_eq_nil_iff]
    constructor
    · intro h hmem
      simpa using h stop hmem
    · exact decide_ne_of_notMem
  rw [← hdrop, after?]
  split
  · next hnil => exact iff_of_true rfl hnil
  · next hcons => exact iff_of_false nofun (by rw [hcons]; exact List.cons_ne_nil _ _)

/-- What comes before the first character `stop`, and what is left after it. -/
theorem after?_append {stop : Char} {inner : List Char} (h : stop ∉ inner) (rest : List Char) :
    (inner ++ stop :: rest).takeWhile (· ≠ stop) = inner ∧
      after? stop (inner ++ stop :: rest) = some rest := by
  have hhead : ∀ c ∈ (stop :: rest).head?, decide (c ≠ stop) = false := by simp
  obtain ⟨htake, hdrop⟩ := Script.takeWhile_dropWhile_run (decide_ne_of_notMem h) hhead
  exact ⟨htake, by rw [after?, hdrop]⟩

/-! ## Scanning -/

/-- The pieces of a message from its first brace on, as `scan` finds them. The proofs that `scan`
carries along to end are left out. -/
def scanFromBrace : List Char → List Piece
  | [] => []
  | '{' :: '{' :: rest => .text (String.ofList ['{', '{']) :: scan rest
  | '}' :: '}' :: rest => .text (String.ofList ['}', '}']) :: scan rest
  | '{' :: rest =>
    match after? '}' rest with
    | none => [.text (String.ofList ('{' :: rest))]
    | some tail => placeholderOf (rest.takeWhile (· ≠ '}')) :: scan tail
  | brace :: rest => .text (String.ofList [brace]) :: scan rest

/-- Scanning is cutting off the text before the first brace. -/
theorem scan_eq_cons (message : List Char) :
    scan message = .text (String.ofList (message.takeWhile (!isBrace ·))) ::
      scanFromBrace (message.dropWhile (!isBrace ·)) := by
  fun_cases scan message with
  | case1 before hdrop => rw [hdrop, scanFromBrace]
  | case2 before rest hdrop => rw [hdrop, scanFromBrace]
  | case3 before rest hdrop => rw [hdrop, scanFromBrace]
  | case4 before rest hnext hdrop hclosed =>
    rw [hdrop, scanFromBrace, hclosed]
    exact hnext
  | case5 before rest hnext hdrop tail hclosed =>
    rw [hdrop, scanFromBrace, hclosed]
    exact hnext
  | case6 before brace rest hdouble hclose hopen hdrop =>
    rw [hdrop, scanFromBrace]
    · exact hdouble
    · exact hclose
    · exact hopen

/-- A message is its text before the first brace and what starts there. -/
theorem eq_append_of_dropWhile {message rest : List Char}
    (h : message.dropWhile (!isBrace ·) = rest) :
    message.takeWhile (!isBrace ·) ++ rest = message := by
  rw [← h, List.takeWhile_append_dropWhile]

/-- The pieces of a message are those that it scans as. -/
theorem scans_scan (message : List Char) : Scans message (scan message) := by
  fun_induction scan message with
  | case1 message before hdrop =>
    have hmessage := eq_append_of_dropWhile hdrop
    have hbefore := isPlain_takeWhile message
    rw [List.append_nil] at hmessage
    show Scans message [.text (String.ofList (message.takeWhile (!isBrace ·)))]
    rw [hmessage] at hbefore ⊢
    exact .plain hbefore
  | case2 message before rest hdrop _ ih =>
    have h := Scans.doubled (isPlain_takeWhile message) (isBrace_iff.2 (.inl rfl)) ih
    rwa [eq_append_of_dropWhile hdrop] at h
  | case3 message before rest hdrop _ ih =>
    have h := Scans.doubled (isPlain_takeWhile message) (isBrace_iff.2 (.inr rfl)) ih
    rwa [eq_append_of_dropWhile hdrop] at h
  | case4 message before rest hnext hdrop hclosed =>
    have h := Scans.unclosed (isPlain_takeWhile message) hnext (after?_eq_none_iff.1 hclosed)
    rwa [eq_append_of_dropWhile hdrop] at h
  | case5 message before rest hnext hdrop tail hclosed _ ih =>
    have hrest := after?_eq_some hclosed
    have hinner : ∀ others, rest.takeWhile (· ≠ '}') ≠ '{' :: others := by
      intro others hother
      rw [hother] at hrest
      exact hnext _ hrest
    have h := Scans.placeholder (isPlain_takeWhile message) hinner (notMem_takeWhile_ne '}' rest) ih
    rwa [← hrest, eq_append_of_dropWhile hdrop] at h
  | case6 message before brace rest hdouble hclose hopen hdrop _ ih =>
    have hbrace : isBrace brace = true := by
      have hhead := List.head?_dropWhile_not (!isBrace ·) message
      rw [hdrop] at hhead
      simpa using hhead
    obtain rfl := (isBrace_iff.1 hbrace).resolve_left hopen
    have h := Scans.stray (isPlain_takeWhile message) (fun others => hclose others rfl) ih
    rwa [eq_append_of_dropWhile hdrop] at h

/-- A message that scans as pieces has no others. -/
theorem Scans.scan_eq {message : List Char} {pieces : List Piece} (h : Scans message pieces) :
    scan message = pieces := by
  induction h with
  | @plain before hbefore =>
    obtain ⟨htake, hdrop⟩ := takeWhile_dropWhile_plain hbefore [] (by simp)
    rw [List.append_nil] at htake hdrop
    rw [scan_eq_cons, htake, hdrop, scanFromBrace]
  | @doubled before rest brace pieces hbefore hbrace hrest ih =>
    obtain ⟨htake, hdrop⟩ := takeWhile_dropWhile_plain hbefore (brace :: brace :: rest)
      (by simp [hbrace])
    rw [scan_eq_cons, htake, hdrop, ← ih]
    rcases isBrace_iff.1 hbrace with rfl | rfl
    · rfl
    · rfl
  | @stray before rest pieces hbefore hnext hrest ih =>
    obtain ⟨htake, hdrop⟩ := takeWhile_dropWhile_plain hbefore ('}' :: rest) (by simp [isBrace])
    rw [scan_eq_cons, htake, hdrop, ← ih, scanFromBrace]
    · simp
    · simpa using hnext
    · simp
  | @unclosed before rest hbefore hnext hopen =>
    obtain ⟨htake, hdrop⟩ := takeWhile_dropWhile_plain hbefore ('{' :: rest) (by simp [isBrace])
    rw [scan_eq_cons, htake, hdrop, scanFromBrace, after?_eq_none_iff.2 hopen]
    exact hnext
  | @placeholder before inner rest pieces hbefore hnext hclosed hrest ih =>
    obtain ⟨htake, hdrop⟩ := takeWhile_dropWhile_plain hbefore ('{' :: (inner ++ '}' :: rest))
      (by simp [isBrace])
    obtain ⟨hinner, hafter⟩ := after?_append hclosed rest
    rw [scan_eq_cons, htake, hdrop, scanFromBrace, hafter, hinner, ← ih]
    intro others hother
    cases inner with
    | nil => simp at hother
    | cons c inner =>
      obtain ⟨rfl, -⟩ := List.cons.inj hother
      exact hnext inner rfl

/-! ## Writing the pieces again -/

/-- A placeholder is written as the text between its braces. -/
theorem spelling_placeholderOf (inner : List Char) :
    (placeholderOf inner).spelling = '{' :: (inner ++ ['}']) := by
  simp only [placeholderOf, Piece.spelling, String.toList_ofList, List.takeWhile_append_dropWhile]

/-- The pieces of a message are written as the message. -/
theorem Scans.spell_eq {message : List Char} {pieces : List Piece} (h : Scans message pieces) :
    spell pieces = message := by
  induction h with
  | plain => simp [spell, Piece.spelling]
  | doubled _ _ _ ih => simp [spell, Piece.spelling, ← ih]
  | stray _ _ _ ih => simp [spell, Piece.spelling, ← ih]
  | unclosed => simp [spell, Piece.spelling]
  | placeholder _ _ _ _ ih =>
    rw [spell, List.flatMap_cons, List.flatMap_cons, spelling_placeholderOf, ← ih]
    simp [spell, Piece.spelling]

/-- What the argument and the specifier of a placeholder are like. -/
@[mk_iff]
structure IsPlaceholder (argument specifier : String) : Prop where
  /-- The argument ends before the first colon. -/
  colon_notMem : ':' ∉ argument.toList
  /-- The argument ends before the first closing brace. -/
  close_notMem : '}' ∉ argument.toList
  /-- An opening brace would have been doubled. -/
  head_ne : argument.toList.head? ≠ some '{'
  /-- The specifier starts at the colon. -/
  specifier_start : specifier = "" ∨ specifier.toList.head? = some ':'
  /-- The specifier ends before the first closing brace. -/
  specifier_close_notMem : '}' ∉ specifier.toList

instance (argument specifier : String) : Decidable (IsPlaceholder argument specifier) :=
  decidable_of_iff' _ (isPlaceholder_iff argument specifier)

/-- A closed text that starts with no opening brace is that of a placeholder. -/
theorem isPlaceholder_placeholderOf {inner : List Char} (hnext : ∀ others, inner ≠ '{' :: others)
    (hclosed : '}' ∉ inner) :
    IsPlaceholder (String.ofList (inner.takeWhile (· ≠ ':')))
      (String.ofList (inner.dropWhile (· ≠ ':'))) where
  colon_notMem := by
    rw [String.toList_ofList]
    exact notMem_takeWhile_ne ':' inner
  close_notMem := by
    rw [String.toList_ofList]
    exact fun hmem => hclosed ((List.takeWhile_sublist _).mem hmem)
  head_ne := by
    rw [String.toList_ofList]
    cases inner with
    | nil => simp
    | cons c inner =>
      have hc : c ≠ '{' := fun hc => hnext inner (by rw [hc])
      by_cases hcolon : c = ':'
      · simp [hcolon]
      · simp [hcolon, hc]
  specifier_start := by
    rw [String.toList_ofList]
    cases hdrop : inner.dropWhile (· ≠ ':') with
    | nil => exact .inl rfl
    | cons c specifier => exact .inr (congrArg some (eq_of_dropWhile_ne hdrop))
  specifier_close_notMem := by
    rw [String.toList_ofList]
    exact fun hmem => hclosed ((List.dropWhile_sublist _).mem hmem)

/-- Every placeholder among the pieces of a message is one. -/
theorem Scans.isPlaceholder {message : List Char} {pieces : List Piece} (h : Scans message pieces)
    {argument specifier : String} (hmem : .placeholder argument specifier ∈ pieces) :
    IsPlaceholder argument specifier := by
  induction h with
  | plain => simp at hmem
  | doubled _ _ _ ih => exact ih (by simpa using hmem)
  | stray _ _ _ ih => exact ih (by simpa using hmem)
  | unclosed => simp at hmem
  | placeholder _ hnext hclosed _ ih =>
    rcases List.mem_cons.1 (List.mem_of_ne_of_mem (by simp) hmem) with hthis | hlater
    · obtain ⟨rfl, rfl⟩ := Piece.placeholder.inj hthis
      exact isPlaceholder_placeholderOf hnext hclosed
    · exact ih hlater

/-- Where there are no fields no argument is renamed. -/
theorem Piece.rename_zero (piece : Piece) : piece.rename 0 = piece := by
  cases piece with
  | text => rfl
  | placeholder argument specifier =>
    rw [Piece.rename]
    cases position? argument with
    | none => rfl
    | some position => exact if_neg (Nat.not_lt_zero position)

/-! ## Messages made of items -/

instance (text : List Char) : Decidable (IsPlain text) :=
  List.decidableBAll _ _

/-- An **item** of a message as its author thinks of it. -/
inductive Item where
  /-- Text without braces. -/
  | text (content : String) (plain : IsPlain content.toList)
  /-- An opening brace that is text. -/
  | opening
  /-- A closing brace that is text. -/
  | closing
  /-- A place for an argument. Arguments without braces and colons are well formed, and so are those
  with an opening brace that is not their first character. -/
  | placeholder (argument specifier : String) (wellFormed : IsPlaceholder argument specifier)

/-- The piece that an item is written as. -/
def Item.piece : Item → Piece
  | .text content _ => .text content
  | .opening => .text (String.ofList ['{', '{'])
  | .closing => .text (String.ofList ['}', '}'])
  | .placeholder argument specifier _ => .placeholder argument specifier

/-- The message made of items. -/
def Item.message (items : List Item) : String :=
  String.ofList (spell (items.map Item.piece))

/-- Whether a piece is a placeholder. -/
def Piece.isPlaceholder : Piece → Bool
  | .text _ => false
  | .placeholder _ _ => true

/-- The placeholders among pieces. -/
def placeholders (pieces : List Piece) : List Piece :=
  pieces.filter Piece.isPlaceholder

/-- Plain text in front of a message does not change its placeholders. -/
theorem Scans.plain_append {text message : List Char} {pieces : List Piece} (htext : IsPlain text)
    (h : Scans message pieces) :
    ∃ others, Scans (text ++ message) others ∧ placeholders others = placeholders pieces := by
  have hjoin {before : List Char} (hbefore : IsPlain before) : IsPlain (text ++ before) :=
    fun c hmem => (List.mem_append.1 hmem).elim (htext c) (hbefore c)
  cases h with
  | plain hbefore => exact ⟨_, .plain (hjoin hbefore), rfl⟩
  | doubled hbefore hbrace hrest =>
    rw [← List.append_assoc]
    exact ⟨_, .doubled (hjoin hbefore) hbrace hrest, rfl⟩
  | stray hbefore hnext hrest =>
    rw [← List.append_assoc]
    exact ⟨_, .stray (hjoin hbefore) hnext hrest, rfl⟩
  | unclosed hbefore hnext hopen =>
    rw [← List.append_assoc]
    exact ⟨_, .unclosed (hjoin hbefore) hnext hopen, rfl⟩
  | placeholder hbefore hnext hclosed hrest =>
    rw [← List.append_assoc]
    exact ⟨_, .placeholder (hjoin hbefore) hnext hclosed hrest, rfl⟩

/-- The text between the braces of a placeholder gives its argument and its specifier back. -/
theorem IsPlaceholder.placeholderOf_append {argument specifier : String}
    (h : IsPlaceholder argument specifier) :
    placeholderOf (argument.toList ++ specifier.toList) = .placeholder argument specifier := by
  have hhead : ∀ c ∈ specifier.toList.head?, decide (c ≠ ':') = false := by
    rcases h.specifier_start with rfl | hstart
    · simp
    · simp [hstart]
  obtain ⟨htake, hdrop⟩ := Script.takeWhile_dropWhile_run (decide_ne_of_notMem h.colon_notMem) hhead
  rw [placeholderOf, htake, hdrop, String.ofList_toList, String.ofList_toList]

/-- A placeholder is read as it is written, whatever follows it. -/
theorem Scans.placeholder_append {argument specifier : String} {before rest : List Char}
    {pieces : List Piece} (hbefore : IsPlain before) (h : IsPlaceholder argument specifier)
    (hrest : Scans rest pieces) :
    Scans (before ++ ((Piece.placeholder argument specifier).spelling ++ rest))
      (.text (String.ofList before) :: .placeholder argument specifier :: pieces) := by
  have hnext : ∀ others, argument.toList ++ specifier.toList ≠ '{' :: others := by
    intro others hother
    have hhead : (argument.toList ++ specifier.toList).head? = some '{' := by rw [hother]; rfl
    rw [List.head?_append] at hhead
    cases hargument : argument.toList.head? with
    | some c =>
      rw [hargument, Option.some_or] at hhead
      exact h.head_ne (hargument.trans hhead)
    | none =>
      rw [hargument, Option.none_or] at hhead
      rcases h.specifier_start with rfl | hstart
      · simp at hhead
      · simp [hstart] at hhead
  have hclosed : '}' ∉ argument.toList ++ specifier.toList := by
    rw [List.mem_append]
    exact not_or.2 ⟨h.close_notMem, h.specifier_close_notMem⟩
  have hscans := Scans.placeholder hbefore hnext hclosed hrest
  rw [h.placeholderOf_append] at hscans
  simpa [Piece.spelling] using hscans

/-- A message made of items scans as pieces with the placeholders of the items. The texts among the
pieces may be others, because text is cut at its braces only. -/
theorem scans_items (items : List Item) :
    ∃ pieces, Scans (Item.message items).toList pieces ∧
      placeholders pieces = placeholders (items.map Item.piece) := by
  rw [Item.message, String.toList_ofList]
  induction items with
  | nil => exact ⟨_, .plain isPlain_nil, rfl⟩
  | cons item items ih =>
    obtain ⟨pieces, hpieces, hsame⟩ := ih
    cases item with
    | text content plain =>
      obtain ⟨others, hothers, hplaceholders⟩ := hpieces.plain_append plain
      exact ⟨others, hothers, hplaceholders.trans hsame⟩
    | opening => exact ⟨_, .doubled isPlain_nil (isBrace_iff.2 (.inl rfl)) hpieces, hsame⟩
    | closing => exact ⟨_, .doubled isPlain_nil (isBrace_iff.2 (.inr rfl)) hpieces, hsame⟩
    | placeholder argument specifier wellFormed =>
      refine ⟨_, .placeholder_append isPlain_nil wellFormed hpieces, ?_⟩
      exact congrArg (Piece.placeholder argument specifier :: ·) hsame

/-! ## Arguments -/

/-- The arguments of the placeholders among pieces. -/
theorem filterMap_argument?_placeholders (pieces : List Piece) :
    (placeholders pieces).filterMap Piece.argument? = pieces.filterMap Piece.argument? := by
  rw [placeholders, List.filterMap_filter]
  congr 1
  funext piece
  cases piece with
  | text => rfl
  | placeholder => rfl

/-- A list has the **first occurrences** in another one: the same members, each of them once, in
the order in which the other list first has them. -/
structure IsFirstOccurrences (all distinct : List String) : Prop where
  nodup : distinct.Nodup
  mem_iff : ∀ name, name ∈ distinct ↔ name ∈ all
  ordered : distinct.Pairwise fun first second => all.idxOf first < all.idxOf second

/-- Names stay in their order when the list goes on. -/
theorem pairwise_idxOf_append {all distinct : List String} (hmem : ∀ name ∈ distinct, name ∈ all)
    (hordered : distinct.Pairwise fun first second => all.idxOf first < all.idxOf second)
    (more : List String) :
    distinct.Pairwise fun first second =>
      (all ++ more).idxOf first < (all ++ more).idxOf second := by
  refine List.Pairwise.imp_of_mem ?_ hordered
  -- An index in the list is the same in a list that goes on.
  intro first second hfirst hsecond hlt
  rwa [List.idxOf_append_of_mem (hmem _ hfirst), List.idxOf_append_of_mem (hmem _ hsecond)]

/-- Deleting the later occurrences keeps the first ones in their order. -/
theorem pairwise_idxOf_eraseDups (all : List String) :
    all.eraseDups.Pairwise fun first second => all.idxOf first < all.idxOf second := by
  -- A name at the end of the list either is there already or comes after all others.
  induction all using List.reverseRecOn with
  | nil => exact List.Pairwise.nil
  | append_singleton all last ih =>
    have hkept := pairwise_idxOf_append (fun _ => List.mem_eraseDups.1) ih [last]
    rw [List.eraseDups_append]
    by_cases hlast : last ∈ all
    · simpa [List.removeAll, hlast] using hkept
    · have hnew : ([last].removeAll all).eraseDups = [last] := by
        simp [List.removeAll, hlast, List.eraseDups_cons]
      rw [hnew]
      refine List.pairwise_append.2 ⟨hkept, List.pairwise_singleton _ _, ?_⟩
      intro first hfirst second hsecond
      obtain rfl := List.mem_singleton.1 hsecond
      have hmem : first ∈ all := List.mem_eraseDups.1 hfirst
      rw [List.idxOf_append_of_mem hmem, List.idxOf_append_of_notMem hlast]
      exact Nat.lt_add_right _ (List.idxOf_lt_length_of_mem hmem)

/-- Deleting the later occurrences leaves the first ones. -/
theorem isFirstOccurrences_eraseDups (all : List String) :
    IsFirstOccurrences all all.eraseDups where
  nodup := (pairwise_idxOf_eraseDups all).imp fun hlt => ne_of_apply_ne all.idxOf (Nat.ne_of_lt hlt)
  mem_iff _ := List.mem_eraseDups
  ordered := pairwise_idxOf_eraseDups all

/-- **Scanning and writing are inverse.** The pieces of a message are written as that message, the
placeholders among them are well formed, and naming the positions below zero changes nothing. In a
message made of items scanning finds the placeholders of the items in their order, and its arguments
are the first occurrences of theirs. -/
theorem scan_inverse_spell :
    (∀ message : String,
      spell (scan message.toList) = message.toList ∧
      (∀ argument specifier, .placeholder argument specifier ∈ scan message.toList →
        IsPlaceholder argument specifier) ∧
      renamePositional 0 message = message) ∧
    ∀ items : List Item,
      placeholders (scan (Item.message items).toList) = placeholders (items.map Item.piece) ∧
      IsFirstOccurrences ((items.map Item.piece).filterMap Piece.argument?)
        (arguments (Item.message items)) := by
  constructor
  · intro message
    have hspell := (scans_scan message.toList).spell_eq
    refine ⟨hspell, fun _ _ hmem => (scans_scan message.toList).isPlaceholder hmem, ?_⟩
    have hrename : Piece.rename 0 = id := funext Piece.rename_zero
    rw [renamePositional, hrename, List.map_id, hspell, String.ofList_toList]
  · intro items
    obtain ⟨pieces, hpieces, hsame⟩ := scans_items items
    refine ⟨by rw [hpieces.scan_eq, hsame], ?_⟩
    rw [arguments, hpieces.scan_eq, ← filterMap_argument?_placeholders pieces, hsame,
      filterMap_argument?_placeholders]
    exact isFirstOccurrences_eraseDups _

/-- The items of `{{{0}}} of {limit:>{8}:{0:x}`. -/
def sampleItems : List Item :=
  [.opening, .placeholder "0" "" (by decide), .closing, .text " of " (by decide),
    .placeholder "limit" ":>\x7b8" (by decide), .text ":" (by decide),
    .placeholder "0" ":x" (by decide)]

theorem sampleItems_scan :
    placeholders (scan (Item.message sampleItems).toList) =
      [.placeholder "0" "", .placeholder "limit" ":>\x7b8", .placeholder "0" ":x"] ∧
    IsPlaceholder "limit" ":>\x7b8" ∧
    IsFirstOccurrences ["0", "limit", "0"] (arguments (Item.message sampleItems)) := by
  obtain ⟨hscanned, hitems⟩ := scan_inverse_spell
  obtain ⟨hplaceholders, harguments⟩ := hitems sampleItems
  have hmem : .placeholder "limit" ":>\x7b8" ∈ scan (Item.message sampleItems).toList := by
    have hitem : .placeholder "limit" ":>\x7b8" ∈ placeholders (sampleItems.map Item.piece) := by
      decide
    rw [← hplaceholders] at hitem
    exact List.mem_of_mem_filter hitem
  exact ⟨hplaceholders, (hscanned _).2.1 _ _ hmem, harguments⟩

end CallScript.ErrorDisplay
