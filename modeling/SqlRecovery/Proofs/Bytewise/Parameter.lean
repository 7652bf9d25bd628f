import SqlRecovery.Proofs.Bytewise.Nesting
import SqlRecovery.Proofs.Parameter.Placeholder

/-! Parameters read and filled in byte by byte, with every access checked. A text is cut at commas,
parentheses and question marks only, which are ASCII and so stand between characters. -/
namespace SqlRecovery.Bytewise
open Text

/-- Value and type of a token: the type stands between the first opening and the first closing
parenthesis. -/
def splitToken? (token : List Char) : Checked (Option (List Char × List Char)) :=
  match position? '(' token, position? ')' token with
  | some opened, some closed =>
    if opened == 0 || closed ≤ opened then pure none
    else do
      let value ← slice token 0 opened
      let type ← slice token (opened + 1) closed
      return some (trim value, trim type)
  | _, _ => pure none

/-- The value of a token. A null is one whatever its type. -/
def ofToken (token : List Char) : Checked Value := do
  let (s, type) := (← splitToken? token).getD (token, [])
  return if sameLetters s "null".toList then .null else Value.ofTyped s type

/-- The parameter of one piece. -/
def ofPiece (piece : List Char) : Checked Parameter := do
  return ⟨← ofToken (trim piece), String.ofList (trim piece)⟩

/-- The parameters of a one-line text. -/
def ofLine (line : List Char) : Checked (List Parameter) :=
  if line.isEmpty then pure []
  else do (← cut Parameter.parting line Parameter.parting.start 0 0 (bytes line)).mapM ofPiece

/-- The parameters that a text lists. -/
def readAll (text : String) : Checked (List Parameter) := ofLine (collapse text.toList)

/-- The text from byte `start` on with the literals in place of its marks, which stand at the
positions. -/
def fill (s : List Char) : Nat → List Nat → List (List Char) → Checked (List Char)
  | start, n :: marks, p :: literals => do
    let part ← slice s start n
    return part ++ p ++ (← fill s (n + 1) marks literals)
  | start, _, _ => slice s start (size s)

/-- The statement with the literals of the parameters in place of its question marks. -/
def substitute (sql : String) (parameters : List Parameter) : Checked String :=
  if parameters.isEmpty then pure sql
  else String.ofList <$>
    fill sql.toList 0 (positions '?' 0 sql.toList) (parameters.map Parameter.literal)

section Token
variable {token s : List Char} {c : Char} {i : Nat}

theorem position?_eq (c : Char) (s : List Char) : position? c s =
    if s.findIdx (· == c) < s.length then some (offset s (s.findIdx (· == c))) else none := by
  by_cases h : c ∈ s
  · obtain ⟨front, rest, rfl, hfront⟩ := List.eq_append_cons_of_mem h
    rw [position?_append hfront, Parameter.findIdx_append_cons hfront, offset_append,
      if_pos (by simp)]
  · have hlength : s.findIdx (· == c) = s.length :=
      List.findIdx_eq_length.mpr fun d hd => beq_eq_false_iff_ne.mpr fun hdc => h (hdc ▸ hd)
    rw [position?_of_not_mem h, hlength, if_neg (Nat.lt_irrefl _)]

/-- Behind a character of ASCII the next byte begins a character. -/
theorem offset_succ (h : s[i]? = some c) (hc : c.toNat < 0x80) :
    offset s (i + 1) = offset s i + 1 := by
  obtain ⟨hi, rfl⟩ := List.getElem?_eq_some_iff.mp h
  rw [offset_add, List.drop_eq_getElem_cons hi, List.take_succ_cons, List.take_zero, size_ascii hc]

theorem splitToken?_eq (token : List Char) :
    splitToken? token = pure (Value.splitToken? token) := by
  have hopen : ∀ {i}, token.findIdx (· == '(') = i → i < token.length → token[i]? = some '(' := by
    rintro i rfl hi
    rw [List.getElem?_eq_getElem hi, beq_iff_eq.mp (List.findIdx_getElem (w := hi))]
  rw [splitToken?, Value.splitToken?, position?_eq, position?_eq]
  generalize hopened : token.findIdx (· == '(') = opened
  generalize token.findIdx (· == ')') = closed
  by_cases hinside : 0 < opened ∧ opened < closed ∧ closed < token.length
  · obtain ⟨hpos, hlt, hc⟩ := hinside
    have ho := Nat.lt_trans hlt hc
    have hpos' : 0 < offset token opened := offset_lt hpos (Nat.le_of_lt ho)
    have hlt' : offset token opened < offset token closed := offset_lt hlt (Nat.le_of_lt hc)
    have hvalue := slice_offset (s := token) (Nat.zero_le opened)
    have htype := slice_offset (s := token) (show opened + 1 ≤ closed from hlt)
    rw [offset_zero] at hvalue
    rw [offset_succ (hopen hopened ho) (by decide)] at htype
    rw [if_pos ho, if_pos hc, if_pos ⟨hpos, hlt, hc⟩]
    dsimp only
    rw [if_neg (by simp; omega), hvalue, pure_bind, htype, pure_bind, List.drop_take]
    rfl
  · rw [if_neg hinside]
    split
    case h_2 => rfl
    case h_1 n m hn hm =>
      rw [Option.ite_none_right_eq_some, Option.some.injEq] at hn hm
      obtain ⟨ho, rfl⟩ := hn
      obtain ⟨hc, rfl⟩ := hm
      have hle : offset token opened = 0 ∨ offset token closed ≤ offset token opened := by
        rw [offset_le_iff (Nat.le_of_lt hc)]
        rcases Nat.eq_zero_or_pos opened with rfl | hpos
        · exact .inl rfl
        · exact .inr (Nat.le_of_not_lt fun hlt => hinside ⟨hpos, hlt, hc⟩)
      rw [if_pos (by simpa using hle)]

theorem ofToken_eq (token : List Char) : ofToken token = pure (Value.ofToken token) := by
  rw [ofToken, splitToken?_eq, pure_bind, Value.ofToken]

theorem ofPiece_eq (piece : List Char) : ofPiece piece = pure (Parameter.ofPiece piece) := by
  rw [ofPiece, ofToken_eq, pure_bind, Parameter.ofPiece]

/-- No access on the way to the parameters of a text is a fault. -/
theorem readAll_eq (text : String) : readAll text = pure (Parameter.readAll text) := by
  rw [readAll, Parameter.readAll, ofLine, Parameter.ofLine]
  split
  case isTrue => rfl
  case isFalse =>
    rw [cut_start Parameter.parting fun n c hc => nest_of_not_ascii hc n, pure_bind,
      funext ofPiece_eq, List.mapM_pure, Parameter.pieces_eq]
    rfl

end Token

section Fill

/-- The marks of what is left of a text are filled with what is left of the literals. -/
theorem fill_eq (front rest : List Char) (literals : List (List Char)) :
    fill (front ++ rest) (size front) (positions '?' (size front) rest) literals =
      pure (SqlRecovery.fill rest literals) := by
  induction literals generalizing front rest with
  | nil =>
    rw [fill_nil, ← slice_rest front rest]
    cases positions '?' (size front) rest <;> rfl
  | cons p literals ih =>
    by_cases hmark : '?' ∈ rest
    · obtain ⟨part, rest, rfl, hpart⟩ := List.eq_append_cons_of_mem hmark
      have hsize : size ['?'] = 1 := size_ascii (by decide)
      have hrest := ih (front ++ (part ++ ['?'])) rest
      rw [size_append, size_append, hsize, ← Nat.add_assoc, List.append_assoc, List.append_assoc,
        List.singleton_append] at hrest
      rw [positions_append hpart, positions, beq_self_eq_true, if_pos rfl, fill, slice_append,
        pure_bind, hsize, hrest, pure_bind, fill_append hpart, List.append_assoc]
      rfl
    · have hnone := positions_append hmark (size front) []
      have hfill := fill_append hmark [] (p :: literals)
      rw [List.append_nil] at hnone hfill
      have hempty : SqlRecovery.fill [] (p :: literals) = [] := rfl
      rw [hnone, hfill, positions, hempty, List.append_nil, ← slice_rest front rest]
      rfl

/-- No access on the way to a statement with its parameters filled in is a fault. -/
theorem substitute_eq (sql : String) (parameters : List Parameter) :
    substitute sql parameters = pure (SqlRecovery.substitute sql parameters) := by
  cases parameters with
  | nil =>
    rw [substitute, SqlRecovery.substitute, List.map_nil, fill_nil, String.ofList_toList]
    rfl
  | cons p parameters =>
    have hfill := fill_eq [] sql.toList (Parameter.literal p :: parameters.map Parameter.literal)
    rw [List.nil_append, size_nil] at hfill
    rw [substitute, SqlRecovery.substitute, List.map_cons, hfill, map_pure]
    rfl

end Fill

end SqlRecovery.Bytewise
