/-! Blank characters, trimming, and the one-line form of a text. -/
namespace SqlRecovery.Text

/-- A blank character: one with the Unicode property `White_Space`. -/
def isBlank (c : Char) : Bool :=
  let n := c.toNat
  (0x09 ≤ n && n ≤ 0x0D) || n == 0x20 || n == 0x85 || n == 0xA0 || n == 0x1680 ||
    (0x2000 ≤ n && n ≤ 0x200A) || n == 0x2028 || n == 0x2029 || n == 0x202F || n == 0x205F ||
    n == 0x3000

/-- The text from its first character that is not blank. -/
def trimStart (s : List Char) : List Char := s.dropWhile isBlank

/-- The text up to its last character that is not blank. -/
def trimEnd (s : List Char) : List Char := (s.reverse.dropWhile isBlank).reverse

/-- The text without blanks at both ends. -/
def trim (s : List Char) : List Char := trimEnd (trimStart s)

/-- Nothing but blanks. -/
def allBlank (s : List Char) : Bool := s.all isBlank

/-- The maximal runs of characters that are not blank. -/
def words (s : List Char) : List (List Char) := (s.splitOnP isBlank).filter (!·.isEmpty)

/-- Pieces written one after the other with `separator` between them. -/
def joinWith (separator : List Char) (pieces : List (List Char)) : List Char :=
  separator.intercalate pieces

/-- The words of the text with one space between them. -/
def collapse (s : List Char) : List Char := joinWith [' '] (words s)

end SqlRecovery.Text
