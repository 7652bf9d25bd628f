/-! Timestamps such as `2025-08-12 10:57:09` in the output of a logging framework. Only the shape is
looked at: nineteen places, each a digit or a certain mark. -/
namespace SqlRecovery.LogLine

/-- What may stand at one place of a stamp. -/
inductive Place where
  | digit
  | exactly (mark : Char)
  | gap

/-- The places of a stamp: year, month and day, a gap, then hour, minute and second. -/
def stampShape : List Place :=
  [.digit, .digit, .digit, .digit, .exactly '-', .digit, .digit, .exactly '-', .digit, .digit, .gap,
    .digit, .digit, .exactly ':', .digit, .digit, .exactly ':', .digit, .digit]

/-- The code stands for an ASCII digit, for the mark, or for a space, a tab or a `T`. -/
def Place.admits (code : Nat) : Place → Bool
  | digit => 0x30 ≤ code && code ≤ 0x39
  | exactly mark => code == mark.toNat
  | gap => code == 0x20 || code == 0x09 || code == 0x54

/-- The symbols begin with the places of the shape. -/
def startsWithShape {α : Type} (code : α → Nat) : List Place → List α → Bool
  | [], _ => true
  | _ :: _, [] => false
  | p :: shape, x :: xs => p.admits (code x) && startsWithShape code shape xs

/-- The bytes are one stamp and nothing else. -/
def isStamp (bytes : List UInt8) : Bool :=
  bytes.length == stampShape.length && startsWithShape UInt8.toNat stampShape bytes

/-- A stamp begins at some place of the text. -/
def containsStamp : List Char → Bool
  | [] => false
  | c :: s => startsWithShape Char.toNat stampShape (c :: s) || containsStamp s

end SqlRecovery.LogLine
