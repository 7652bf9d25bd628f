import SqlRecovery.Json.Tree

/-! Reading JSON text. The grammar is the strict one: no comments, no trailing commas, no leading
zeros, no control characters in strings. -/
namespace SqlRecovery.Json

/-- A blank of JSON: space, tab, line feed or carriage return. -/
def isSpace (c : Char) : Bool := c == ' ' || c == '\t' || c == '\n' || c == '\r'

/-- The text behind its leading blanks. -/
def skip (s : List Char) : List Char := s.dropWhile isSpace

/-- A part of a string: a character, or half a surrogate pair. -/
inductive Piece where
  | char (c : Char)
  | half (code : Nat)

/-- The characters of a string. A leading half needs its trailing half right behind it. -/
def joinHalves : List Piece → Option (List Char)
  | [] => some []
  | .char c :: rest => (joinHalves rest).map (c :: ·)
  | .half a :: .half b :: rest =>
    if a < 0xDC00 ∧ 0xDC00 ≤ b then
      (joinHalves rest).map (Char.ofNat (0x10000 + (a - 0xD800) * 0x400 + (b - 0xDC00)) :: ·)
    else none
  | .half _ :: _ => none

/-- The value of a hexadecimal digit of either case. -/
def hexValue? (c : Char) : Option Nat :=
  if c.isDigit then some (c.toNat - 0x30)
  else if 'a' ≤ c ∧ c ≤ 'f' then some (c.toNat - 0x57)
  else if 'A' ≤ c ∧ c ≤ 'F' then some (c.toNat - 0x37)
  else none

/-- The part that four hexadecimal digits name. -/
def hexPiece? (a b c d : Char) : Option Piece := do
  let code := (((← hexValue? a) * 16 + (← hexValue? b)) * 16 + (← hexValue? c)) * 16 + (← hexValue? d)
  return if 0xD800 ≤ code ∧ code < 0xE000 then .half code else .char (Char.ofNat code)

/-- The character that a one-letter escape names. -/
def escaped? (c : Char) : Option Char :=
  if c == '"' || c == '\\' || c == '/' then some c
  else if c == 'b' then some '\x08'
  else if c == 'f' then some '\x0c'
  else if c == 'n' then some '\n'
  else if c == 'r' then some '\r'
  else if c == 't' then some '\t'
  else none

/-- The parts of a string up to its closing quote, and the rest of the text. -/
def pieces : List Char → Option (List Piece × List Char)
  | [] => none
  | '"' :: s => some ([], s)
  | '\\' :: 'u' :: a :: b :: c :: d :: s => do
    let piece ← hexPiece? a b c d
    let (others, s) ← pieces s
    return (piece :: others, s)
  | '\\' :: c :: s => do
    let c ← escaped? c
    let (others, s) ← pieces s
    return (.char c :: others, s)
  | c :: s =>
    if c.toNat < 0x20 then none
    else (pieces s).map fun x => (.char c :: x.1, x.2)

/-- A string behind its opening quote. -/
def readString (s : List Char) : Option (Option String × List Char) :=
  (pieces s).map fun x => ((joinHalves x.1).map String.ofList, x.2)

/-- Digits, at least one, and the rest of the text. -/
def readDigits (s : List Char) : Option (List Char × List Char) :=
  let digits := s.takeWhile Char.isDigit
  if digits.isEmpty then none else some (digits, s.dropWhile Char.isDigit)

/-- The whole part of a number. A zero stands alone. -/
def readWhole (s : List Char) : Option (List Char × List Char) :=
  match s with
  | '0' :: s => some (['0'], s)
  | s => readDigits s

/-- The digits behind a point, if there is one. -/
def readFraction (s : List Char) : Option (List Char × List Char) :=
  match s with
  | '.' :: s => readDigits s
  | s => some ([], s)

/-- The sign of an exponent, set if it is negative, and its digits. -/
def readPower (s : List Char) : Option ((Bool × List Char) × List Char) :=
  match s with
  | '-' :: s => (readDigits s).map fun x => ((true, x.1), x.2)
  | '+' :: s => (readDigits s).map fun x => ((false, x.1), x.2)
  | s => (readDigits s).map fun x => ((false, x.1), x.2)

/-- The exponent part, if there is one. -/
def readExponent (s : List Char) : Option (Option (Bool × List Char) × List Char) :=
  match s with
  | c :: s =>
    if c == 'e' || c == 'E' then (readPower s).map fun x => (some x.1, x.2) else some (none, c :: s)
  | [] => some (none, [])

/-- A number behind its sign. -/
def readMagnitude (negative : Bool) (s : List Char) : Option (Tree × List Char) := do
  let (whole, s) ← readWhole s
  let (fraction, s) ← readFraction s
  let (exponent, s) ← readExponent s
  return (.number ⟨negative, whole, fraction, exponent⟩, s)

/-- A number. -/
def readNumber (s : List Char) : Option (Tree × List Char) :=
  match s with
  | '-' :: s => readMagnitude true s
  | s => readMagnitude false s

/-- A value that is written as a word. -/
def readWord (s : List Char) : Option (Tree × List Char) :=
  match s with
  | 'n' :: 'u' :: 'l' :: 'l' :: s => some (.null, s)
  | 't' :: 'r' :: 'u' :: 'e' :: s => some (.bool true, s)
  | 'f' :: 'a' :: 'l' :: 's' :: 'e' :: s => some (.bool false, s)
  | _ => none

mutual

/-- A value behind blanks, and the rest of the text. The number bounds the nesting and the count of
what is read. -/
def readValue : Nat → List Char → Option (Tree × List Char)
  | 0, _ => none
  | n + 1, s =>
    match skip s with
    | '"' :: s => (readString s).map fun x => (.string x.1, x.2)
    | '[' :: s =>
      match skip s with
      | ']' :: s => some (.array [], s)
      | s => (readItems n s).map fun x => (.array x.1, x.2)
    | '\x7b' :: s =>
      match skip s with
      | '\x7d' :: s => some (.object [], s)
      | s => (readMembers n s).map fun x => (.object x.1, x.2)
    | s => (readWord s).or (readNumber s)

/-- Items up to the closing bracket. -/
def readItems : Nat → List Char → Option (List Tree × List Char)
  | 0, _ => none
  | n + 1, s => do
    let (item, s) ← readValue n s
    match skip s with
    | ',' :: s =>
      let (items, s) ← readItems n s
      return (item :: items, s)
    | ']' :: s => return ([item], s)
    | _ => none

/-- Members up to the closing brace. -/
def readMembers : Nat → List Char → Option (List (Option String × Tree) × List Char)
  | 0, _ => none
  | n + 1, s =>
    match skip s with
    | '"' :: s => do
      let (key, s) ← readString s
      match skip s with
      | ':' :: s =>
        let (value, s) ← readValue n s
        match skip s with
        | ',' :: s =>
          let (members, s) ← readMembers n s
          return ((key, value) :: members, s)
        | '\x7d' :: s => return ([(key, value)], s)
        | _ => none
      | _ => none
    | _ => none

end

/-- The tree of a text that holds one value and nothing else but blanks. -/
def Tree.read? (text : List Char) : Option Tree :=
  match readValue (2 * text.length + 2) text with
  | some (tree, rest) => if (skip rest).isEmpty then some tree else none
  | none => none

end SqlRecovery.Json
