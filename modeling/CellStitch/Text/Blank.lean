import CellStitch.Text.Lines
/-!
# White space

The characters that count as blank: the Unicode white space characters, together with the four
information separators U+001C to U+001F. The carriage return and the line break are blank too.
-/

namespace CellStitch

/-- Whether a character is blank. -/
def isBlank (c : Char) : Bool :=
  let n := c.toNat
  (0x09 ≤ n && n ≤ 0x0D) || (0x1C ≤ n && n ≤ 0x20) || n == 0x85 || n == 0xA0 || n == 0x1680 ||
    (0x2000 ≤ n && n ≤ 0x200A) || n == 0x2028 || n == 0x2029 || n == 0x202F || n == 0x205F ||
    n == 0x3000

namespace Text

/-- The text without the blanks it begins with. -/
def trimLeft (t : Text) : Text := t.dropWhile isBlank

/-- The text without the blanks at its two ends. -/
def trim (t : Text) : Text := (t.trimLeft.reverse.dropWhile isBlank).reverse

/-- Whether a text has no character that is not blank. -/
def isBlank (t : Text) : Bool := t.all CellStitch.isBlank

end Text

end CellStitch
