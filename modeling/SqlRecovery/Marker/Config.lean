import SqlRecovery.Failure
import SqlRecovery.Marker.Pattern
import SqlRecovery.Text.Ascii

/-! The configuration of the two markers, and the markers that a usable one gives. -/
namespace SqlRecovery.Marker
open Text

/-- How the markers are written in a log. -/
structure Config where
  sentinel : String
  statementToken : String
  parametersToken : String
  severities : List String
  looseParameters : Bool
  deriving DecidableEq, Repr

/-- The markers that the mapper framework writes. -/
def Config.standard : Config where
  sentinel := "==>"
  statementToken := "Preparing:"
  parametersToken := "Parameters:"
  severities := ["DEBUG", "INFO", "WARN", "ERROR", "TRACE"]
  looseParameters := true

/-- The markers of a usable configuration. -/
structure Markers where
  sentinel : List Char
  statementToken : List Char
  parametersToken : List Char
  severities : List (List Char)
  looseParameters : Bool
  deriving DecidableEq

namespace Markers

/-- The markers of the standard configuration. -/
def standard : Markers where
  sentinel := "==>".toList
  statementToken := "Preparing:".toList
  parametersToken := "Parameters:".toList
  severities := [
    "DEBUG".toList, "INFO".toList, "WARN".toList, "ERROR".toList, "TRACE".toList]
  looseParameters := true

/-- The pattern of the marker with this token. -/
def pattern (m : Markers) (token : List Char) : Pattern := ⟨some m.sentinel, token, m.severities⟩

/-- The pattern of a parameters marker whose sentinel was cut off. -/
def loosePattern (m : Markers) : Pattern := ⟨none, m.parametersToken, m.severities⟩

/-- The text of the statement marker in a line. -/
def statement? (m : Markers) (line : List Char) : Option (List Char) :=
  (m.pattern m.statementToken).capture line

/-- The loose form is tried on a line that begins with the token, letter for letter. -/
def looseParameters? (m : Markers) (line : List Char) : Option (List Char) :=
  if m.looseParameters && m.parametersToken.isPrefixOf (trimStart line) then
    m.loosePattern.capture line
  else none

/-- The text of the parameters marker in a line. -/
def parameters? (m : Markers) (line : List Char) : Option (List Char) :=
  ((m.pattern m.parametersToken).capture line).or (m.looseParameters? line)

/-- The token of the parameters marker occurs in the line, letter for letter. -/
def mentionsParameters (m : Markers) (line : List Char) : Bool := occursIn m.parametersToken line

/-- The line begins with the sentinel. An empty sentinel begins no line. -/
def startsWithSentinel (m : Markers) (line : List Char) : Bool :=
  !m.sentinel.isEmpty && m.sentinel.isPrefixOf line

/-- The patterns of the markers, in the order in which they are built. -/
def patterns (m : Markers) : List Pattern :=
  [m.pattern m.statementToken, m.pattern m.parametersToken] ++
    if m.looseParameters then [m.loosePattern] else []

end Markers

namespace Config

/-- The configured words as markers. Empty severities are left out. -/
def words (c : Config) : Markers where
  sentinel := c.sentinel.toList
  statementToken := c.statementToken.toList
  parametersToken := c.parametersToken.toList
  severities := (c.severities.filter (!·.isEmpty)).map String.toList
  looseParameters := c.looseParameters

/-- The markers, or why there are none. A matcher is built for each pattern. What builds matchers may
refuse a pattern: `refusal?` gives its words if it does. -/
def markers (refusal? : Pattern → Option String) (c : Config) : Except ConfigFault Markers :=
  if c.statementToken.isEmpty || c.parametersToken.isEmpty then .error .emptyToken
  else match c.words.patterns.findSome? refusal? with
    | some words => .error (.refusedPattern words)
    | none => .ok c.words

/-- The markers are the configured words. They are there if no token is empty and no pattern is
refused. -/
theorem markers_eq_ok_iff {refusal? : Pattern → Option String} {c : Config} {m : Markers} :
    c.markers refusal? = .ok m ↔ (c.statementToken ≠ "" ∧ c.parametersToken ≠ "") ∧
      (∀ p ∈ c.words.patterns, refusal? p = none) ∧ m = c.words := by
  rw [← List.findSome?_eq_none_iff, markers]
  split
  case isTrue h =>
    have hempty : c.statementToken = "" ∨ c.parametersToken = "" := by simpa using h
    exact iff_of_false nofun fun ⟨⟨hs, hp⟩, _⟩ => hempty.elim hs hp
  case isFalse h =>
    have hne : c.statementToken ≠ "" ∧ c.parametersToken ≠ "" := by simpa using h
    cases c.words.patterns.findSome? refusal? with
    | some words => simp
    | none => simp [hne, eq_comm]

end Config

end SqlRecovery.Marker
