/-! Reading bytes as UTF-8. Each longest run of bytes that starts a character and cannot be
continued to one is read as one replacement character. -/
namespace SqlRecovery.Text.Utf8

/-- What is read in place of bytes that are no character. -/
def replacement : Char := '\uFFFD'

/-- The bytes of a character still to come: how many, between which bounds the next one lies, and
the bits read so far. -/
structure Open where
  missing : Nat
  low : UInt8
  high : UInt8
  bits : Nat
  deriving DecidableEq

/-- A byte at the start of a character: the characters it completes and what it leaves open. -/
def start (b : UInt8) : List Char × Option Open :=
  let n := b.toNat
  if n < 0x80 then ([Char.ofNat n], none)
  else if n < 0xC2 then ([replacement], none)
  else if n < 0xE0 then ([], some ⟨1, 0x80, 0xBF, n - 0xC0⟩)
  else if n = 0xE0 then ([], some ⟨2, 0xA0, 0xBF, 0⟩)
  else if n = 0xED then ([], some ⟨2, 0x80, 0x9F, 0xD⟩)
  else if n < 0xF0 then ([], some ⟨2, 0x80, 0xBF, n - 0xE0⟩)
  else if n = 0xF0 then ([], some ⟨3, 0x90, 0xBF, 0⟩)
  else if n < 0xF4 then ([], some ⟨3, 0x80, 0xBF, n - 0xF0⟩)
  else if n = 0xF4 then ([], some ⟨3, 0x80, 0x8F, 4⟩)
  else ([replacement], none)

/-- One byte: the characters it completes and what it leaves open. A byte that does not fit the
open character ends it as a replacement character and starts anew. -/
def step : Option Open → UInt8 → List Char × Option Open
  | none, b => start b
  | some o, b =>
    if o.low ≤ b ∧ b ≤ o.high then
      let bits := o.bits * 64 + (b.toNat - 0x80)
      if o.missing ≤ 1 then ([Char.ofNat bits], none)
      else ([], some ⟨o.missing - 1, 0x80, 0xBF, bits⟩)
    else (replacement :: (start b).1, (start b).2)

/-- Bytes read from between or inside characters. -/
def decodeFrom : Option Open → List UInt8 → List Char
  | none, [] => []
  | some _, [] => [replacement]
  | o, b :: bs => (step o b).1 ++ decodeFrom (step o b).2 bs

/-- The text of the bytes, with replacement characters for what is not UTF-8. -/
def decode (bytes : List UInt8) : List Char := decodeFrom none bytes

end SqlRecovery.Text.Utf8
