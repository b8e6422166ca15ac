import EditGraph.Digest.Sha1
import EditGraph.Digest.Crc32
import EditGraph.Text.Blank
import EditGraph.Text.LowerCase

/-!
# Fingerprints of lines

Lines are compared by fingerprints of 32 bits. A fingerprint is taken from the normal form of
a line, which leaves out what the comparison is told to ignore: a number of leading
characters, then white space at both ends, then differences of case. Lines with equal normal
forms have equal fingerprints; other lines may collide.

The method `unique` is different. It numbers the lines in the order they are hashed, so that
no line matches another.

## Main definitions

* `Method` — how fingerprints are taken; `Method.ofName` reads its name.
* `Normalization` — what a comparison ignores; `Normalization.apply` is the normal form.
* `Hasher` — a method with its normalization and counter.
* `Hasher.hash`, `Hasher.hashAll` — one line, and many lines in order.
-/

namespace EditGraph

/-! ### Methods -/

/-- How the fingerprint of a line is taken. -/
inductive Method where
  /-- The first four bytes of the SHA-1 digest. -/
  | content
  /-- The CRC-32 checksum. -/
  | crc32
  /-- The number of lines hashed before. -/
  | unique
  deriving DecidableEq, Repr

/-- A name that no method has. -/
structure UnknownMethod where
  name : String
  deriving DecidableEq, Repr

/-- The text of the error, which quotes the name as it was given. -/
def UnknownMethod.message (e : UnknownMethod) : String :=
  s!"unknown hash type '{e.name}', expected one of: content, crc32, unique"

namespace Method

/-- The method of a comparison that does not choose one. -/
def default : Method := .content

/-- The name of a method. -/
def name : Method → String
  | .content => "content"
  | .crc32 => "crc32"
  | .unique => "unique"

/-- The names that are understood. -/
def names : List (String × Method) :=
  [("content", .content), ("crc32", .crc32), ("crc-32", .crc32), ("unique", .unique)]

/-- The method of a name. Blanks around the name and the case of ASCII letters do not
matter. -/
def ofName (name : String) : Except UnknownMethod Method :=
  let key := String.ofList ((Text.trim name.toList).map Char.toLower)
  match names.lookup key with
  | some method => .ok method
  | none => .error ⟨name⟩

end Method

/-! ### Normal forms -/

/-- What does not count in a comparison of lines. -/
structure Normalization where
  /-- How many leading characters do not count. -/
  skip : Nat
  /-- White space at the ends does not count. -/
  trim : Bool
  /-- Case does not count. -/
  ignoreCase : Bool
  deriving DecidableEq, Repr

namespace Normalization

/-- Everything counts. -/
def none : Normalization := ⟨0, false, false⟩

/-- The normal form of a text as a list of characters. -/
def applyChars (n : Normalization) (line : List Char) : List Char :=
  let line := line.drop n.skip
  let line := if n.trim then Text.trim line else line
  if n.ignoreCase then Text.lower line else line

/-- The normal form of a line. -/
def apply (n : Normalization) (line : String) : String :=
  String.ofList (n.applyChars line.toList)

end Normalization

/-! ### Hashers -/

/-- A source of fingerprints. -/
structure Hasher where
  method : Method
  normalization : Normalization
  /-- The next number that the method `unique` gives out. -/
  next : Int32
  deriving DecidableEq, Repr

/-- The fingerprint of a text by its bytes in UTF-8; `unique` goes by no bytes. -/
def Method.fingerprint? (method : Method) (text : String) : Option Int32 :=
  match method with
  | .content => some (Sha1.digest text.toUTF8.toList).a.toInt32
  | .crc32 => some (Crc32.checksum text.toUTF8.toList).toInt32
  | .unique => none

namespace Hasher

/-- A hasher that has not hashed any line. -/
def create (method : Method) (normalization : Normalization) : Hasher :=
  ⟨method, normalization, 0⟩

/-- The normal form of a line. -/
def normalize (h : Hasher) (line : String) : String := h.normalization.apply line

/-- The fingerprint of a line, and the hasher for the next one. Only `unique` changes the
hasher, and its numbers start again from below after `2 ^ 32` lines. -/
def hash (h : Hasher) (line : String) : Int32 × Hasher :=
  match h.method.fingerprint? (h.normalize line) with
  | some value => (value, h)
  | none => (h.next, { h with next := h.next + 1 })

/-- The fingerprints of lines in order, and the hasher for the next line. -/
def hashAll (h : Hasher) (lines : Array String) : Array Int32 × Hasher :=
  lines.foldl (fun (values, h) line =>
    let (value, h) := h.hash line
    (values.push value, h)) (#[], h)

end Hasher

end EditGraph
