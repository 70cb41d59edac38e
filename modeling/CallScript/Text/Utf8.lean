/-! # UTF-8

Byte sequences and their reading as text. Positions in a script are counted in bytes of its UTF-8
form, and file names and signatures are measured and hashed in that form.

* **`Bytes`** is a sequence of bytes.
* **`utf8`** encodes a text; **`ofUtf8?`** decodes bytes and refuses ill-formed ones.
* **`byteLength`** is the number of bytes of the encoded text. -/

namespace CallScript

/-- A sequence of bytes. -/
abbrev Bytes := List UInt8

namespace Text

/-- The UTF-8 encoding of a text. -/
def utf8 (text : List Char) : Bytes :=
  text.flatMap String.utf8EncodeChar

/-- The number of bytes in the UTF-8 encoding of a text. -/
def byteLength (text : List Char) : Nat :=
  text.foldr (fun c total => c.utf8Size + total) 0

/-- Read bytes as UTF-8 text; bytes that are not well-formed UTF-8 are refused. -/
def ofUtf8? (bytes : Bytes) : Option String :=
  String.fromUTF8? ⟨bytes.toArray⟩

@[simp] theorem byteLength_nil : byteLength [] = 0 := rfl

@[simp] theorem byteLength_cons (c : Char) (text : List Char) :
    byteLength (c :: text) = c.utf8Size + byteLength text := rfl

@[simp] theorem byteLength_append (left right : List Char) :
    byteLength (left ++ right) = byteLength left + byteLength right := by
  induction left with
  | nil => simp
  | cons c left ih => simp [ih, Nat.add_assoc]

/-- The byte length counts the bytes of the encoding. -/
@[simp] theorem length_utf8 (text : List Char) : (utf8 text).length = byteLength text := by
  induction text with
  | nil => rfl
  | cons c text ih =>
    simp only [utf8, List.flatMap_cons, List.length_append, byteLength_cons] at ih ⊢
    simp [ih, String.length_utf8EncodeChar]

end Text

end CallScript
