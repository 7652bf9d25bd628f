import SqlRecovery.Parameter.Token
import SqlRecovery.Proofs.Text.Ascii
import SqlRecovery.Proofs.Text.Collapse

/-! Parameters as the mapper framework prints them, read back: every list of printed values gives the
values again, each with its own token. -/
namespace SqlRecovery
open Text Number

namespace Parameter

/-- None of the characters that part a list or a token occurs. -/
def Unparted (s : List Char) : Prop := ∀ c ∈ s, c ≠ ',' ∧ c ≠ '(' ∧ c ≠ ')'

instance (s : List Char) : Decidable (Unparted s) := List.decidableBAll _ s

/-- A text that can stand for a value in a list: on one line, not parted, and not the word for a
null. -/
structure PlainText (s : List Char) : Prop where
  neat : Neat s
  unparted : Unparted s
  not_null : sameLetters s "null".toList = false

instance (s : List Char) : Decidable (PlainText s) :=
  decidable_of_iff (Neat s ∧ Unparted s ∧ sameLetters s "null".toList = false)
    ⟨fun h => ⟨h.1, h.2.1, h.2.2⟩, fun h => ⟨h.1, h.2, h.3⟩⟩

/-- The values that are printed in a way that can be read back. -/
inductive Printable where
  | null
  | text (s : String) (plain : PlainText s.toList)
  | integer (n : Int32)
  | long (n : Int64)
  | boolean (b : Bool)

/-- A value in front of the name of its type. -/
def typed (s : List Char) (type : String) : List Char := s ++ '(' :: (type.toList ++ [')'])

namespace Printable

def value : Printable → Value
  | null => .null
  | text s _ => .text s
  | integer n => .integer n
  | long n => .long n
  | boolean b => .boolean b

/-- The token of a value. A null has no type. -/
def token : Printable → List Char
  | null => "null".toList
  | text s _ => typed s.toList "String"
  | integer n => typed (decimal n.toInt) "Integer"
  | long n => typed (decimal n.toInt) "Long"
  | boolean b => typed (if b then "true".toList else "false".toList) "Boolean"

/-- The tokens of a list of values, with commas between them. -/
def printed (vs : List Printable) : List Char := joinWith ", ".toList (vs.map token)

end Printable

section Pieces

variable {s : List Char}

/-- The text opens and closes what it opens and is not parted by a comma. -/
def Closed (s : List Char) : Prop :=
  ∀ depth rest, pieces depth (s ++ rest) = (pieces depth rest).modifyHead (s ++ ·)

theorem closed_of_unparted (h : Unparted s) : Closed s := by
  intro depth rest
  induction s with
  | nil =>
    change pieces depth rest = (pieces depth rest).modifyHead id
    rw [List.modifyHead_id, id]
  | cons c s ih =>
    obtain ⟨hcomma, hopen, hclose⟩ := h c List.mem_cons_self
    have hrest := ih fun d hd => h d (List.mem_cons_of_mem c hd)
    rw [List.cons_append, pieces, beq_eq_false_iff_ne.mpr hcomma, beq_eq_false_iff_ne.mpr hopen,
      beq_eq_false_iff_ne.mpr hclose, Bool.false_and, if_neg Bool.false_ne_true]
    simp only [Bool.false_eq_true, if_false]
    rw [hrest, List.modifyHead_modifyHead]
    rfl

/-- A type in parentheses behind a closed text leaves it closed. -/
theorem Closed.typed (hs : Closed s) {type : String} (htype : Unparted type.toList) :
    Closed (typed s type) := by
  intro depth rest
  have hopen : ∀ t, pieces depth ('(' :: t) = (pieces (depth + 1) t).modifyHead ('(' :: ·) :=
    fun t => rfl
  have hclose : pieces (depth + 1) (')' :: rest) = (pieces depth rest).modifyHead (')' :: ·) := rfl
  rw [Parameter.typed, List.append_assoc, hs, List.cons_append, hopen, List.append_assoc,
    closed_of_unparted htype, List.singleton_append, hclose, List.modifyHead_modifyHead,
    List.modifyHead_modifyHead, List.modifyHead_modifyHead]
  congr 1
  funext t
  simp

/-- Closed texts with commas between them are the pieces. The space behind a comma goes to the next
piece. -/
theorem pieces_joinWith {ts : List (List Char)} (hs : Closed s) (hts : ∀ t ∈ ts, Closed t) :
    pieces 0 (joinWith ", ".toList (s :: ts)) = s :: ts.map (' ' :: ·) := by
  rw [joinWith_cons]
  induction ts generalizing s with
  | nil =>
    rw [List.flatMap_nil, hs]
    exact congrArg (· :: []) (List.append_nil s)
  | cons t ts ih =>
    have hrest := ih (hts t List.mem_cons_self) fun u hu => hts u (List.mem_cons_of_mem t hu)
    have hcomma : ∀ u, pieces 0 (',' :: ' ' :: u) = [] :: (pieces 0 u).modifyHead (' ' :: ·) :=
      fun u => rfl
    rw [List.flatMap_cons, hs, List.append_assoc]
    change (pieces 0 (',' :: ' ' :: (t ++ _))).modifyHead (s ++ ·) = _
    rw [hcomma, hrest, List.modifyHead_cons, List.modifyHead_cons, List.append_nil, List.map_cons]

end Pieces

section Token

variable {s : List Char} {type : String}

theorem findIdx_append_cons {mark : Char} (hs : mark ∉ s) (rest : List Char) :
    (s ++ mark :: rest).findIdx (· == mark) = s.length := by
  have hnone : s.findIdx (· == mark) = s.length :=
    List.findIdx_eq_length.mpr fun c hc => beq_eq_false_iff_ne.mpr fun h => hs (h ▸ hc)
  rw [List.findIdx_append, hnone, if_neg (Nat.lt_irrefl _), List.findIdx_cons, beq_self_eq_true,
    cond_true, Nat.zero_add]

/-- A token is taken apart at its first opening and its first closing parenthesis, if these make a
group with something in front of it. -/
theorem splitToken?_group {front inner rest : List Char} (hfront : front ≠ []) (hopen : '(' ∉ front)
    (hclose : ')' ∉ front) (hinner : ')' ∉ inner) :
    Value.splitToken? (front ++ '(' :: (inner ++ ')' :: rest)) = some (trim front, trim inner) := by
  have hgroup : front ++ '(' :: (inner ++ ')' :: rest) = (front ++ '(' :: inner) ++ ')' :: rest := by
    rw [List.append_assoc, List.cons_append]
  have hopened : (front ++ '(' :: (inner ++ ')' :: rest)).findIdx (· == '(') = front.length :=
    findIdx_append_cons hopen _
  have hunclosing : ')' ∉ front ++ '(' :: inner := by
    rw [List.mem_append, List.mem_cons, not_or, not_or]
    exact ⟨hclose, by decide, hinner⟩
  have hclosed : (front ++ '(' :: (inner ++ ')' :: rest)).findIdx (· == ')') =
      (front ++ '(' :: inner).length := by
    rw [hgroup, findIdx_append_cons hunclosing]
  have hpos := List.length_pos_iff.mpr hfront
  have hinside : 0 < front.length ∧ front.length < (front ++ '(' :: inner).length ∧
      (front ++ '(' :: inner).length < (front ++ '(' :: (inner ++ ')' :: rest)).length := by
    simp only [List.length_append, List.length_cons]
    omega
  rw [Value.splitToken?, hopened, hclosed, if_pos hinside, hgroup, List.take_left,
    List.append_assoc, List.take_left, List.append_cons, List.drop_left' (by simp)]

/-- A typed value is taken apart again. -/
theorem splitToken?_typed (hs : PlainText s) (htype : PlainText type.toList) :
    Value.splitToken? (typed s type) = some (s, type.toList) := by
  rw [typed, splitToken?_group hs.neat.nonempty (fun h => (hs.unparted _ h).2.1 rfl)
    (fun h => (hs.unparted _ h).2.2 rfl) (fun h => (htype.unparted _ h).2.2 rfl), hs.neat.trimmed,
    htype.neat.trimmed]

/-- A typed value is read by its type. -/
theorem ofToken_typed (hs : PlainText s) (htype : PlainText type.toList) :
    Value.ofToken (typed s type) = Value.ofTyped s type.toList := by
  rw [Value.ofToken, splitToken?_typed hs htype]
  dsimp only [Option.getD_some]
  rw [hs.not_null, if_neg Bool.false_ne_true]

end Token

/-- A character of a number is no blank, no mark and no letter. -/
private theorem of_mem_decimal {n : Int} {c : Char} (h : c ∈ decimal n) :
    isBlank c = false ∧ (c ≠ ',' ∧ c ≠ '(' ∧ c ≠ ')') ∧ c.isAlpha = false := by
  rcases isDigit_of_mem_decimal h with rfl | hdigit
  · decide
  · refine ⟨not_blank_of_isDigit hdigit, ?_⟩
    rw [Char.isDigit_iff_toNat] at hdigit
    change 48 ≤ c.toNat ∧ c.toNat ≤ 57 at hdigit
    refine ⟨⟨?_, ?_, ?_⟩, ?_⟩
    · rintro rfl
      exact absurd hdigit (by decide)
    · rintro rfl
      exact absurd hdigit (by decide)
    · rintro rfl
      exact absurd hdigit (by decide)
    · rw [← Bool.not_eq_true, isAlpha_iff]
      omega

theorem plainText_decimal (n : Int) : PlainText (decimal n) where
  neat := .of_not_blank (decimal_ne_nil n) fun _ hc => (of_mem_decimal hc).1
  unparted := fun _ hc => (of_mem_decimal hc).2.1
  not_null := by
    obtain ⟨c, s, hs⟩ := List.exists_cons_of_ne_nil (decimal_ne_nil n)
    have hc : c.isAlpha = false := (of_mem_decimal (n := n) (by rw [hs]; exact List.mem_cons_self)).2.2
    rw [hs, ← Bool.not_eq_true, sameLetters, beq_iff_eq]
    intro h
    have hletter := isAlpha_of_sameLetter (beq_iff_eq.mpr (List.cons.inj h).1)
    rw [hc] at hletter
    cases hletter

namespace Printable

/-- A token is the word for a null, or a plain text with the name of the type that it is read by. -/
theorem token_cases (v : Printable) : v = null ∨ ∃ s type, v.token = typed s type ∧
    PlainText s ∧ PlainText type.toList ∧ Value.ofTyped s type.toList = v.value := by
  cases v with
  | null => exact .inl rfl
  | text s plain =>
    refine .inr ⟨s.toList, "String", rfl, plain, by decide, ?_⟩
    change Value.text (String.ofList s.toList) = .text s
    rw [String.ofList_toList]
  | integer n =>
    refine .inr ⟨decimal n.toInt, "Integer", rfl, plainText_decimal _, by decide, ?_⟩
    change ((readInt32? (decimal n.toInt)).map Value.integer).getD _ = .integer n
    rw [readInt32?_decimal]
    rfl
  | long n =>
    refine .inr ⟨decimal n.toInt, "Long", rfl, plainText_decimal _, by decide, ?_⟩
    change ((readInt64? (decimal n.toInt)).map Value.long).getD _ = .long n
    rw [readInt64?_decimal]
    rfl
  | boolean b =>
    refine .inr ⟨_, "Boolean", rfl, ?_, by decide, ?_⟩
    · cases b <;> decide
    · cases b <;> rfl

theorem neat_token (v : Printable) : Neat v.token := by
  rcases v.token_cases with rfl | ⟨s, type, htoken, hs, htype, -⟩
  · decide
  · rw [htoken]
    exact hs.neat.append (.append (s := ['(']) (by decide) (htype.neat.append (by decide)))

theorem closed_token (v : Printable) : Closed v.token := by
  rcases v.token_cases with rfl | ⟨s, type, htoken, hs, htype, -⟩
  · exact closed_of_unparted (by decide)
  · rw [htoken]
    exact (closed_of_unparted hs.unparted).typed htype.unparted

theorem ofToken_token (v : Printable) : Value.ofToken v.token = v.value := by
  rcases v.token_cases with rfl | ⟨s, type, htoken, hs, htype, hvalue⟩
  · rfl
  · rw [htoken, ofToken_typed hs htype, hvalue]

/-- The parameter that a printed value is read as. -/
def parameter (v : Printable) : Parameter := ⟨v.value, String.ofList v.token⟩

theorem ofPiece_token (v : Printable) : ofPiece v.token = v.parameter := by
  rw [ofPiece, v.neat_token.trimmed, v.ofToken_token, parameter]

theorem ofPiece_space_token (v : Printable) : ofPiece (' ' :: v.token) = v.parameter := by
  rw [← ofPiece_token, ofPiece, ofPiece, trim, trimStart_cons_of_blank rfl, trim]

end Printable

open Printable

/-- A text on one line is read piece by piece. -/
theorem readAll_neat {s : List Char} (h : Neat s) :
    readAll (String.ofList s) = (pieces 0 s).map ofPiece := by
  rw [readAll, String.toList_ofList, h.collapsed, ofLine, List.isEmpty_eq_false_iff.mpr h.nonempty,
    if_neg Bool.false_ne_true]

/-- A printed list reads back: the same values in the same order, each with its token, and so as many
as were printed. -/
theorem readAll_printed (vs : List Printable) :
    readAll (String.ofList (printed vs)) = vs.map parameter ∧
      (readAll (String.ofList (printed vs))).length = vs.length := by
  have hread : readAll (String.ofList (printed vs)) = vs.map parameter := by
    cases vs with
    | nil => rfl
    | cons v vs =>
      have hneat : Neat (printed (v :: vs)) :=
        neat_joinWith v.neat_token (List.forall_mem_map.mpr fun w _ => w.neat_token)
      have hpieces : pieces 0 (printed (v :: vs)) = v.token :: (vs.map token).map (' ' :: ·) :=
        pieces_joinWith v.closed_token (List.forall_mem_map.mpr fun w _ => w.closed_token)
      rw [readAll_neat hneat, hpieces, List.map_cons, ofPiece_token, List.map_map, List.map_map,
        List.map_cons]
      exact congrArg _ (List.map_congr_left fun w _ => ofPiece_space_token w)
  exact ⟨hread, by rw [hread, List.length_map]⟩

example : readAll "it's 7(String), null, -5(Integer)" = [⟨.text "it's 7", "it's 7(String)"⟩,
    ⟨.null, "null"⟩, ⟨.integer (-5), "-5(Integer)"⟩] := by cbv

end Parameter

end SqlRecovery
