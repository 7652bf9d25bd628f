import SqlRecovery.Proofs.Bytewise.Access
import SqlRecovery.Proofs.Parameter.Pieces

/-! Nesting and comma lists read byte by byte. What opens, closes and parts is ASCII, so the other
bytes leave every reader as it is, and a list is only ever cut between characters. -/
namespace SqlRecovery.Bytewise
open Text Sql

/-- For every byte of a statement, whether it stands at the top level. -/
def marks (s : List Char) : List Bool := Nesting.outside.flags (bytes s)

@[simp] theorem length_marks (s : List Char) : (marks s).length = size s :=
  Nesting.length_flags _ _

theorem ne_of_not_ascii {c d : Char} (hc : 0x80 ≤ c.toNat) (hd : d.toNat < 0x80) :
    (c == d) = false := by
  rw [beq_eq_false_iff_ne]
  rintro rfl
  omega

theorem step_of_not_ascii {c : Char} (h : 0x80 ≤ c.toNat) (n : Nesting) : n.step c = n := by
  have hquote : (c == quoteMark) = false := ne_of_not_ascii h (by decide)
  have hopen : (c == '(') = false := ne_of_not_ascii h (by decide)
  have hclose : (c == ')') = false := ne_of_not_ascii h (by decide)
  rcases n with ⟨depth, quoted⟩
  cases quoted <;> simp [Nesting.step, hquote, hopen, hclose, bne]

theorem nest_of_not_ascii {c : Char} (h : 0x80 ≤ c.toNat) (depth : Nat) :
    Parameter.nest depth c = depth := by
  have hopen : (c == '(') = false := ne_of_not_ascii h (by decide)
  have hclose : (c == ')') = false := ne_of_not_ascii h (by decide)
  simp [Parameter.nest, hopen, hclose]

theorem after_of_not_ascii {bs : List Char} (h : ∀ b ∈ bs, 0x80 ≤ b.toNat) (n : Nesting) :
    n.after bs = n := by
  induction bs with
  | nil => rfl
  | cons b bs ih =>
    rw [List.forall_mem_cons] at h
    rw [after_cons, step_of_not_ascii h.1, ih h.2]

/-- The bytes of a text lead to the nesting that its characters lead to. -/
theorem after_bytes (n : Nesting) (s : List Char) : n.after (bytes s) = n.after s := by
  induction s generalizing n with
  | nil => rfl
  | cons c s ih =>
    rw [bytes_cons, Nesting.after_append, ih, after_cons]
    rcases Nat.lt_or_ge c.toNat 0x80 with hc | hc
    · rw [bytes_ascii hc]
      rfl
    · rw [after_of_not_ascii (bytes_not_ascii hc), step_of_not_ascii hc]

section Cut
variable {σ : Type} (p : Parting σ)

/-- The pieces of a list from byte `start` on, of which `rest` is still to be read, from byte `i`
on. -/
def cut (s : List Char) : σ → Nat → Nat → List Char → Checked (List (List Char))
  | _, start, _, [] => do return [← slice s start (size s)]
  | n, start, i, b :: rest =>
    if b == ',' && p.parts n then do
      let piece ← slice s start i
      return piece :: (← cut s (p.step n b) (i + 1) (i + 1) rest)
    else cut s (p.step n b) start (i + 1) rest

private theorem cut_bytes {n : σ} {bs : List Char} (h : ∀ b ∈ bs, 0x80 ≤ b.toNat)
    (hstep : ∀ b ∈ bs, p.step n b = n) (s : List Char) (start i : Nat) (rest : List Char) :
    cut p s n start i (bs ++ rest) = cut p s n start (i + bs.length) rest := by
  induction bs generalizing i with
  | nil => rfl
  | cons b bs ih =>
    rw [List.forall_mem_cons] at h hstep
    have hcomma : (b == ',') = false := ne_of_not_ascii h.1 (by decide)
    rw [List.cons_append, cut, hcomma, Bool.false_and, if_neg Bool.false_ne_true, hstep.1,
      ih h.2 hstep.2, List.length_cons, Nat.add_right_comm, Nat.add_assoc]

/-- Every cut of a list is a slice of it, and the pieces are those that the characters give. What
was read of the piece that is still open stands before the rest. -/
theorem cut_eq (hp : ∀ n c, 0x80 ≤ c.toNat → p.step n c = n) (n : σ)
    (front opened rest : List Char) :
    cut p (front ++ (opened ++ rest)) n (size front) (size front + size opened) (bytes rest) =
      pure ((p.pieces n rest).modifyHead (opened ++ ·)) := by
  induction rest generalizing n front opened with
  | nil =>
    have hall := slice_append front opened []
    rw [List.append_nil] at hall ⊢
    rw [bytes_nil, cut, size_append, hall, pure_bind, Parting.pieces]
    simp
  | cons c rest ih =>
    rw [bytes_cons]
    rcases Nat.lt_or_ge c.toNat 0x80 with hc | hc
    · rw [bytes_ascii hc, List.singleton_append, cut]
      rcases p.parts_or n c with ⟨rfl, hparts⟩ | hparts
      · have hrest := ih (p.step n ',') (front ++ (opened ++ [','])) []
        have hsize : size [','] = 1 := size_ascii hc
        simp only [size_append, hsize, size_nil, Nat.add_zero, List.nil_append,
          List.append_assoc, List.singleton_append, ← Nat.add_assoc] at hrest
        obtain ⟨q, qs, hq⟩ := p.exists_pieces (p.step n ',') rest
        rw [hparts, slice_append, hrest, Parting.pieces_comma hparts, ← p.step_comma n hparts, hq]
        simp
      · have hrest := ih (p.step n c) front (opened ++ [c])
        simp only [size_append, size_ascii hc, List.append_assoc, List.singleton_append] at hrest
        rw [hparts, if_neg Bool.false_ne_true, Nat.add_assoc, hrest, Parting.pieces_cons hparts,
          List.modifyHead_modifyHead]
        simp [Function.comp_def]
    · have hcomma : (c == ',' && p.parts n) = false := by
        rw [ne_of_not_ascii hc (by decide), Bool.false_and]
      have hbytes := bytes_not_ascii hc
      have hrest := ih n front (opened ++ [c])
      simp only [size_append, List.append_assoc, List.singleton_append] at hrest
      rw [cut_bytes p hbytes fun b hb => hp n b (hbytes b hb), Nat.add_assoc]
      change cut p _ n (size front) (size front + (size opened + size [c])) _ = _
      rw [hrest, Parting.pieces_cons hcomma, hp n c hc, List.modifyHead_modifyHead]
      simp [Function.comp_def]

theorem cut_start (hp : ∀ n c, 0x80 ≤ c.toNat → p.step n c = n) (s : List Char) :
    cut p s p.start 0 0 (bytes s) = pure (p.pieces p.start s) := by
  obtain ⟨q, qs, hq⟩ := p.exists_pieces p.start s
  have h := cut_eq p hp p.start [] [] s
  rw [hq] at h ⊢
  simpa using h

end Cut

/-- The items of a statement's list, cut out of it byte by byte. -/
def items (s : List Char) : Checked (List (List Char)) :=
  if allBlank s then pure []
  else do return (← cut levelParting s levelParting.start 0 0 (bytes s)).map trim

theorem items_eq (s : List Char) : items s = pure (Sql.items s) := by
  rw [items, Sql.items]
  split
  case isTrue => rfl
  case isFalse =>
    rw [cut_start levelParting fun n c hc => step_of_not_ascii hc n, pure_bind,
      ← pieces_eq_levelParting]
    rfl

end SqlRecovery.Bytewise
