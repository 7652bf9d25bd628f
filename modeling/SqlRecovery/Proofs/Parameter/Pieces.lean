import SqlRecovery.Proofs.Parameter.RoundTrip
import SqlRecovery.Proofs.Sql.Items
import SqlRecovery.Proofs.Text.Parting

/-! A list of parameters taken apart. The tokens are the pieces between the commas that stand outside
parentheses, nothing is lost between them, and each token gives its parameter again when it is read by
itself. Where no literals are quoted, the list has the items of a statement's list. -/
namespace SqlRecovery
open Text

namespace Parameter

/-- How many parentheses are open behind a character. A closing one without an open one changes
nothing. -/
def nest (depth : Nat) (c : Char) : Nat :=
  if c == '(' then depth + 1 else if c == ')' then depth - 1 else depth

/-- How many parentheses are open behind a text. -/
def depthAfter (depth : Nat) (s : List Char) : Nat := s.foldl nest depth

/-- A list of parameters is parted where no parenthesis is open. -/
def parting : Parting Nat where
  start := 0
  step := nest
  parts depth := depth == 0
  step_comma _ h := beq_iff_eq.mp h
  step_blank _ _ h := by
    rw [nest, Sql.beq_of_blank h rfl, Sql.beq_of_blank h rfl]
    rfl

private theorem pieces_cons (depth : Nat) (c : Char) (s : List Char) :
    pieces depth (c :: s) = if c == ',' && depth == 0 then [] :: pieces depth s
      else (pieces (nest depth c) s).modifyHead (c :: ·) := rfl

theorem pieces_eq (depth : Nat) (s : List Char) :
    pieces depth s = parting.pieces depth s := by
  induction s generalizing depth with
  | nil => rfl
  | cons c s ih =>
    rw [pieces_cons]
    rcases parting.parts_or depth c with ⟨rfl, h⟩ | h
    · obtain rfl : depth = 0 := beq_iff_eq.mp h
      rw [Parting.pieces_comma h, ih]
      rfl
    · have hcomma : (c == ',' && depth == 0) = false := h
      rw [Parting.pieces_cons h, hcomma, if_neg Bool.false_ne_true, ih]
      rfl

/-- Outside of literals only parentheses count. -/
private theorem pieces_unquoted {s : List Char} (h : Sql.quoteMark ∉ s) (depth : Nat) :
    Sql.Nesting.pieces ⟨depth, false⟩ s = pieces depth s := by
  induction s generalizing depth with
  | nil => rfl
  | cons c s ih =>
    rw [List.mem_cons, not_or] at h
    have hquote : (c == Sql.quoteMark) = false := beq_eq_false_iff_ne.mpr (Ne.symm h.1)
    have hstep : Sql.Nesting.step ⟨depth, false⟩ c = ⟨nest depth c, false⟩ := by
      rw [Sql.Nesting.step, hquote, nest]
      by_cases hopen : c = '('
      · simp [hopen]
      · by_cases hclose : c = ')' <;> simp [hopen, hclose]
    have htop : Sql.Nesting.isTop ⟨depth, false⟩ = (depth == 0) := rfl
    rw [Sql.Nesting.pieces, htop, hstep, ih h.2, pieces_cons]
    split
    case isTrue hcomma =>
      obtain rfl := beq_iff_eq.mp (Bool.and_eq_true_iff.mp hcomma).1
      rfl
    case isFalse => rfl

variable {t q : List Char}

/-- A token is read by itself as it is in its list. -/
private theorem readAll_piece (ht : Tight t) (hq : q ∈ pieces 0 t) (hne : trim q ≠ []) :
    readAll (String.ofList (trim q)) = [ofPiece q] := by
  rw [pieces_eq] at hq
  have htight : Tight q := tight_of_mem_joinWith (by rwa [parting.joinWith_pieces]) hq
  have hneat : Neat (trim q) := ⟨hne, by rw [trim_of_tight htight, collapse_collapse]⟩
  have hone : pieces 0 (trim q) = [trim q] := by
    rw [pieces_eq]
    exact Parting.pieces_trim (Parting.pieces_of_mem hq)
  rw [readAll_neat hneat, hone, List.map_singleton, ofPiece, hneat.trimmed, ofPiece]

private theorem items_unquoted (ht : Neat t) (hquote : Sql.quoteMark ∉ t) :
    Sql.items t = (pieces 0 t).map trim := by
  have hblank : ¬ allBlank t = true := by
    intro h
    have htrim := trim_of_allBlank h
    rw [ht.trimmed] at htrim
    exact ht.nonempty htrim
  rw [Sql.items, if_neg hblank]
  exact congrArg (List.map trim) (pieces_unquoted hquote 0)

/-- A text that is not blank, on one line, lists the parameters of its pieces. With commas between them
the pieces are the text again, and they fall apart at the commas outside parentheses and at no others.
The raw token of a parameter is its piece without blanks around it, and unless it is empty it reads as
this one parameter. If the text quotes nothing, the tokens are the items of a statement's list. -/
theorem readAll_pieces (text : String) (h : collapse text.toList ≠ []) :
    let line := collapse text.toList
    readAll text = (pieces 0 line).map ofPiece ∧
    joinWith [','] (pieces 0 line) = line ∧
    (∀ front behind, line = front ++ ',' :: behind →
      (FallsApart (pieces 0 line) front behind ↔ depthAfter 0 front = 0)) ∧
    (readAll text).map (·.raw.toList) = (pieces 0 line).map trim ∧
    (∀ p ∈ readAll text, p.raw ≠ "" → readAll p.raw = [p]) ∧
    (Sql.quoteMark ∉ line → (readAll text).map (·.raw.toList) = Sql.items line) := by
  intro line
  have hneat : Neat line := ⟨h, collapse_collapse _⟩
  have hread : readAll text = (pieces 0 line).map ofPiece := by
    rw [readAll, ofLine, List.isEmpty_eq_false_iff.mpr h, if_neg Bool.false_ne_true]
  have hraw : (readAll text).map (·.raw.toList) = (pieces 0 line).map trim := by
    rw [hread, List.map_map]
    exact List.map_congr_left fun q _ => String.toList_ofList
  refine ⟨hread, ?_, ?_, hraw, ?_, ?_⟩
  · rw [pieces_eq, Parting.joinWith_pieces]
  · intro front behind hline
    rw [hline, pieces_eq, Parting.fallsApart_iff]
    exact beq_iff_eq
  · intro p hp hne
    rw [hread] at hp
    obtain ⟨q, hq, rfl⟩ := List.mem_map.mp hp
    refine readAll_piece hneat.tight hq fun hnil => hne ?_
    rw [ofPiece, hnil]
  · intro hquote
    rw [hraw, items_unquoted hneat hquote]

/-- A token without characters, and a parenthesis that closes nothing. -/
theorem readAll_pieces_unbalanced :
    let text := "1(Integer), , f(a,  b)),\tc(String)"
    let line := "1(Integer), , f(a, b)), c(String)".toList
    let tokens := ["1(Integer)".toList, [], "f(a, b))".toList, "c(String)".toList]
    collapse text.toList = line ∧ line ≠ [] ∧
    (readAll text).map (·.raw.toList) = tokens ∧ Sql.items line = tokens ∧
    FallsApart (pieces 0 line) "1(Integer), , f(a, b))".toList " c(String)".toList ∧
    ¬ FallsApart (pieces 0 line) "1(Integer), , f(a".toList " b)), c(String)".toList := by
  intro text line tokens
  have hline : collapse text.toList = line := by decide
  have hne : line ≠ [] := by decide
  have h := readAll_pieces text (by rwa [hline])
  dsimp only at h
  rw [hline] at h
  obtain ⟨-, -, hcuts, hraw, -, hitems⟩ := h
  have htokens : (pieces 0 line).map trim = tokens := by decide
  refine ⟨hline, hne, hraw.trans htokens, ?_, ?_, ?_⟩
  · rw [← hitems (by decide), hraw, htokens]
  · exact (hcuts _ _ (by decide)).mpr (by decide)
  · exact mt (hcuts _ _ (by decide)).mp (by decide)

end Parameter

end SqlRecovery
