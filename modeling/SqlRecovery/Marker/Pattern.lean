import SqlRecovery.Text.Blank
import SqlRecovery.Text.CaseFolding
import SqlRecovery.Text.WordChar

/-! The pattern of a marker: a sentinel, blanks, a token, blanks, and the text that the marker
carries. The text ends at the end of the line, or before blanks with a severity behind them. Letters
are compared without regard to case. Of several ways to match, the leftmost counts, then the one
with the most blanks taken before the text, then the shortest text. -/
namespace SqlRecovery.Marker
open Text

/-- The fixed parts of a pattern. A pattern without a sentinel begins with its token. -/
structure Pattern where
  sentinel : Option (List Char)
  token : List Char
  severities : List (List Char)

/-- Try behind all blanks at the start of the text first, then behind fewer. -/
def behindBlanks {α : Type} (attempt : List Char → Option α) : List Char → Option α
  | [] => attempt []
  | c :: s =>
    if isBlank c then (behindBlanks attempt s).or (attempt (c :: s)) else attempt (c :: s)

/-- Try behind the part, if the text begins with it. -/
def behindPart {α : Type} (part : List Char) (attempt : List Char → Option α) (s : List Char) :
    Option α :=
  (dropFolded? part s).bind attempt

/-- Try at every place of the text, from the left. -/
def leftmost {α : Type} (attempt : List Char → Option α) : List Char → Option α
  | [] => attempt []
  | c :: s => (attempt (c :: s)).or (leftmost attempt s)

/-- The text begins with a word character. -/
def startsWord (s : List Char) : Bool := (s.head?.map isWordChar).getD false

/-- The severity stands here, and a word boundary lies behind its last character. -/
def severityHere (severity s : List Char) : Bool :=
  match dropFolded? severity s with
  | none => false
  | some rest =>
    ((s.take severity.length).getLast?.map isWordChar).getD false != startsWord rest

namespace Pattern

/-- The text of the marker may end here: the line ends, or blanks and a severity follow. A word
begins behind the blanks, so it is no use to take fewer of them. -/
def endsHere (p : Pattern) (s : List Char) : Bool :=
  match s with
  | [] => true
  | c :: _ => isBlank c && startsWord (trimStart s) &&
      p.severities.any (severityHere · (trimStart s))

/-- The shortest text from here on. It does not go beyond a line feed. -/
def carried (p : Pattern) : List Char → Option (List Char)
  | [] => some []
  | c :: s =>
    if p.endsHere (c :: s) then some []
    else if c == '\n' then none
    else (p.carried s).map (c :: ·)

/-- The text of a marker whose token begins here. -/
def behindToken (p : Pattern) : List Char → Option (List Char) :=
  behindPart p.token (behindBlanks p.carried)

/-- The text of a marker that begins here. -/
def here (p : Pattern) : List Char → Option (List Char) :=
  match p.sentinel with
  | some sentinel => behindPart sentinel (behindBlanks p.behindToken)
  | none => p.behindToken

/-- The text of the first marker in the line, without blanks at its ends. -/
def capture (p : Pattern) (line : List Char) : Option (List Char) := (leftmost p.here line).map trim

end Pattern

end SqlRecovery.Marker
