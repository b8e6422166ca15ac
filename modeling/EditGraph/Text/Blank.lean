import EditGraph.Text.Span

/-!
# Blanks

Blanks are the characters with the Unicode property `White_Space`: the usual controls and
spaces, and also the separators for lines and paragraphs. Characters of no width, such as
U+200B and U+FEFF, are no blanks.

## Main definitions

* `isBlank` — the property.
* `trim` — a text without the blanks at its ends.
-/

namespace EditGraph.Text

/-- The characters with the property `White_Space`. -/
def blanks : List (Nat × Nat) :=
  [(0x9, 0xD), (0x20, 0x20), (0x85, 0x85), (0xA0, 0xA0), (0x1680, 0x1680), (0x2000, 0x200A),
   (0x2028, 0x2029), (0x202F, 0x202F), (0x205F, 0x205F), (0x3000, 0x3000)]

/-- The character is white space. -/
def isBlank (c : Char) : Bool := inSpans blanks c

/-- The text without the blanks before its first and behind its last other character. -/
def trim (s : List Char) : List Char :=
  ((s.dropWhile isBlank).reverse.dropWhile isBlank).reverse

end EditGraph.Text
