import SqlRecovery.Text.Utf8

/-! Lines of a text and of a stream of bytes that arrives in chunks. -/
namespace SqlRecovery.Stream
open Text
variable {α : Type} [BEq α]

/-- The parts that end with the mark, each without it, and what stands behind the last mark. -/
def cutAt (mark : α) : List α → List (List α) × List α
  | [] => ([], [])
  | x :: xs =>
    let (parts, rest) := cutAt mark xs
    if x == mark then ([] :: parts, rest)
    else match parts with
      | [] => ([], x :: rest)
      | p :: parts => ((x :: p) :: parts, rest)

/-- Cutting goes on with what the first part of the text left over. -/
theorem cutAt_append (mark : α) (xs ys : List α) :
    cutAt mark (xs ++ ys) =
      ((cutAt mark xs).1 ++ (cutAt mark ((cutAt mark xs).2 ++ ys)).1,
        (cutAt mark ((cutAt mark xs).2 ++ ys)).2) := by
  induction xs with
  | nil => simp [cutAt]
  | cons x xs ih =>
    by_cases hx : (x == mark) = true
    · simp [cutAt, ih, hx]
    · rcases h : (cutAt mark xs).1 with _ | ⟨p, parts⟩ <;> simp [cutAt, ih, h, hx]

/-- Without the mark, if it stands at the end. -/
def dropEnd (mark : α) (xs : List α) : List α :=
  if xs.getLast? == some mark then xs.dropLast else xs

/-- The lines of a text. A carriage return at the end of a line is dropped, but only in front of a
line feed. -/
def textLines (text : String) : List String :=
  let (parts, rest) := cutAt '\n' text.toList
  (parts.map (dropEnd '\r') ++ if rest.isEmpty then [] else [rest]).map String.ofList

/-- The text of the bytes of a line, without a carriage return at its end. -/
def lineText (bytes : List UInt8) : String := String.ofList (Utf8.decode (dropEnd 0x0D bytes))

/-- The bytes of a stream behind its last line feed. -/
structure LineAssembly where
  rest : List UInt8
  deriving DecidableEq

namespace LineAssembly

/-- Nothing has arrived. -/
def empty : LineAssembly := ⟨[]⟩

/-- The lines that a chunk completes. -/
def completed (a : LineAssembly) (chunk : List UInt8) : List String :=
  (cutAt 0x0A (a.rest ++ chunk)).1.map lineText

/-- What remains behind a chunk. -/
def push (a : LineAssembly) (chunk : List UInt8) : LineAssembly := ⟨(cutAt 0x0A (a.rest ++ chunk)).2⟩

/-- Two chunks leave what one chunk of both leaves. -/
theorem push_append (a : LineAssembly) (first second : List UInt8) :
    a.push (first ++ second) = (a.push first).push second := by
  simp only [push]
  rw [← List.append_assoc, cutAt_append]

/-- Two chunks complete the lines that one chunk of both completes. -/
theorem completed_append (a : LineAssembly) (first second : List UInt8) :
    a.completed (first ++ second) = a.completed first ++ (a.push first).completed second := by
  simp only [completed, push]
  rw [← List.append_assoc, cutAt_append, List.map_append]

/-- The unfinished line at the end of the stream. -/
def last? (a : LineAssembly) : Option String :=
  if a.rest.isEmpty then none else some (lineText a.rest)

end LineAssembly

end SqlRecovery.Stream
