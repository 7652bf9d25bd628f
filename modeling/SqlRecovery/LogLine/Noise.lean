import SqlRecovery.LogLine.Stamp
import SqlRecovery.Text.Blank
import SqlRecovery.Text.DecimalDigit
import SqlRecovery.Text.WordChar

/-! The traits of a line that a logging framework wrote: a timestamp, a severity with a number
behind it, or an abbreviated class path with a colon behind it. -/
namespace SqlRecovery.LogLine
open Text

/-- The severities that framework lines show. -/
def severities : List String := ["DEBUG", "INFO", "WARN", "ERROR", "TRACE"]

/-- What follows a severity at the start of the text. -/
def afterSeverity (s : List Char) : List (List Char) :=
  severities.filterMap fun w =>
    if w.toList.isPrefixOf s then some (s.drop w.length) else none

/-- Blanks, at least one, and then a decimal digit. -/
def blanksThenDigit (s : List Char) : Bool :=
  match s with
  | [] => false
  | c :: _ => isBlank c && ((trimStart s).head?.map isDecimalDigit).getD false

/-- A severity that begins a word, with blanks and a number behind it. `inWord` tells whether a
word character stands before the text. -/
def severityThenNumber (inWord : Bool) : List Char → Bool
  | [] => false
  | c :: s => (!inWord && (afterSeverity (c :: s)).any blanksThenDigit) ||
      severityThenNumber (isWordChar c) s

/-- An ASCII letter in lower case. -/
def isSmall (c : Char) : Bool := 'a' ≤ c && c ≤ 'z'

/-- Three one-letter packages, a name that begins with a letter, and on the same line a colon. -/
def classPathThenColon : List Char → Bool
  | a :: '.' :: b :: '.' :: c :: '.' :: d :: s =>
    isSmall a && isSmall b && isSmall c && d.isAlpha && (s.takeWhile (· != '\n')).contains ':'
  | _ => false

/-- An abbreviated class path that begins a word, with a colon behind it. -/
def shortClassPath (inWord : Bool) : List Char → Bool
  | [] => false
  | c :: s => (!inWord && classPathThenColon (c :: s)) || shortClassPath (isWordChar c) s

/-- The line shows a trait of framework output. -/
def isNoise (line : List Char) : Bool :=
  containsStamp line || severityThenNumber false line || shortClassPath false line

end SqlRecovery.LogLine
