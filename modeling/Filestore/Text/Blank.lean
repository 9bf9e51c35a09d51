/-!
# `Filestore.Text.Blank`: white space, and words between it

White space is the Unicode property `White_Space`, as a table of ranges of code points. Words are
what stands between white space. The white space of the standard library is ASCII only, four of
the characters listed here, so the operations on strings that go by it cannot be used for lines: a
line with a no-break space between two words has two words.

`splitWord` is how a line is taken apart, one word after the other. It gives the first word and
the text from the second word on, so the white space between them is dropped, and so is white
space before the first. White space at the end of a text stays, unless nothing else is left; lines
are trimmed as a whole before they are taken apart. A text without words has an empty first word,
and an empty text after it.
-/

set_option autoImplicit false

namespace Filestore

namespace Text

/-- The ranges of code points with the property `White_Space`, both ends included. -/
def blankRanges : List (Nat × Nat) :=
  [(0x0009, 0x000D), (0x0020, 0x0020), (0x0085, 0x0085), (0x00A0, 0x00A0), (0x1680, 0x1680),
    (0x2000, 0x200A), (0x2028, 0x2029), (0x202F, 0x202F), (0x205F, 0x205F), (0x3000, 0x3000)]

/-- Whether a character is white space. -/
def isBlank (c : Char) : Bool :=
  blankRanges.any fun range => range.1 ≤ c.toNat && c.toNat ≤ range.2

/-- A text without the white space at its start. -/
def trimStart (text : List Char) : List Char := text.dropWhile isBlank

/-- A text without the white space at its end. -/
def trimEnd (text : List Char) : List Char := (text.reverse.dropWhile isBlank).reverse

/-- A text without the white space at both ends. -/
def trim (text : List Char) : List Char := trimEnd (trimStart text)

/-- The first word of a text, and the text from the second word on. -/
def splitWord (text : List Char) : List Char × List Char :=
  let text := trimStart text
  (text.takeWhile fun c => !isBlank c, trimStart (text.dropWhile fun c => !isBlank c))

end Text

end Filestore
