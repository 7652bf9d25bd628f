import SqlRecovery.Proofs.Number.Numeral
import SqlRecovery.Proofs.Parameter.Dispatch
import SqlRecovery.Proofs.Parameter.RoundTrip
import Mathlib.Data.List.Infix

/-! Values that hold parentheses of their own, in front of the name of their type. In a list they stay
whole, since their commas stand inside their parentheses. But the type of a token stands between its
first opening and its first closing parenthesis, so it is the value's own first group that is taken
for the type, and what stands in front of it for the value. -/
namespace SqlRecovery
open Text Number

namespace Parameter

/-- A value of one line that closes all parentheses that it opens, and no others, has no comma outside
them, does not begin with one, and is not the word for a null. Quotes do not count. -/
structure Enclosing (s : List Char) : Prop where
  neat : Neat s
  closes : s.count ')' = s.count '('
  opens : ∀ t, t <+: s → t.count ')' ≤ t.count '('
  shelters : ∀ t, t ++ [','] <+: s → t.count ')' < t.count '('
  head : s.head? ≠ some '('
  not_null : sameLetters s "null".toList = false

instance (s : List Char) : Decidable (Enclosing s) :=
  decidable_of_iff (Neat s ∧ s.count ')' = s.count '(' ∧
      (∀ t ∈ s.inits, t.count ')' ≤ t.count '(') ∧
      (∀ t ∈ s.inits, t ++ [','] <+: s → t.count ')' < t.count '(') ∧
      s.head? ≠ some '(' ∧ sameLetters s "null".toList = false)
    ⟨fun ⟨neat, closes, opens, shelters, head, not_null⟩ =>
      ⟨neat, closes, fun t ht => opens t ((List.mem_inits t s).mpr ht),
        fun t ht => shelters t ((List.mem_inits t s).mpr ((List.prefix_append t _).trans ht)) ht,
        head, not_null⟩,
    fun h => ⟨h.neat, h.closes, fun t ht => h.opens t ((List.mem_inits t s).mp ht),
      fun t _ => h.shelters t, h.head, h.not_null⟩⟩

/-- The name of a type: not empty, and without blanks, commas and parentheses. -/
structure TypeName (type : List Char) : Prop where
  nonempty : type ≠ []
  solid : ∀ c ∈ type, isBlank c = false
  unparted : Unparted type

instance (type : List Char) : Decidable (TypeName type) :=
  have : Decidable (∀ c ∈ type, isBlank c = false) := List.decidableBAll _ type
  decidable_of_iff (type ≠ [] ∧ (∀ c ∈ type, isBlank c = false) ∧ Unparted type)
    ⟨fun ⟨nonempty, solid, unparted⟩ => ⟨nonempty, solid, unparted⟩,
      fun h => ⟨h.nonempty, h.solid, h.unparted⟩⟩

theorem TypeName.neat {type : List Char} (h : TypeName type) : Neat type :=
  .of_not_blank h.nonempty h.solid

variable {s : List Char} {type : String}

/-- Where a parenthesis is open in front of each comma and each closing parenthesis, no comma parts the
text, and the parentheses that it leaves open stay open behind it. -/
private theorem pieces_append {depth : Nat}
    (h : ∀ t c, t ++ [c] <+: s → c = ')' ∨ c = ',' → t.count ')' < depth + t.count '(')
    (rest : List Char) : pieces depth (s ++ rest) =
      (pieces (depth + s.count '(' - s.count ')') rest).modifyHead (s ++ ·) := by
  induction s generalizing depth with
  | nil =>
    change pieces depth rest = (pieces depth rest).modifyHead id
    rw [List.modifyHead_id, id]
  | cons c s ih =>
    let inner := if c == '(' then depth + 1 else if c == ')' then depth - 1 else depth
    have hopen : c = ')' ∨ c = ',' → 0 < depth := h [] c ⟨s, rfl⟩
    have hinner : inner + [c].count ')' = depth + [c].count '(' := by
      by_cases hleft : c = '('
      · subst hleft
        rfl
      · by_cases hright : c = ')'
        · subst hright
          exact Nat.sub_add_cancel (hopen (.inl rfl))
        · simp [inner, hleft, hright]
    have hcomma : (c == ',' && depth == 0) = false := by
      rw [Bool.and_eq_false_iff, beq_eq_false_iff_ne, beq_eq_false_iff_ne]
      by_cases hc : c = ','
      · exact .inr (Nat.pos_iff_ne_zero.mp (hopen (.inr hc)))
      · exact .inl hc
    have hcount : ∀ (d : Char) t, (c :: t).count d = [c].count d + t.count d := by
      intro d t
      rw [← List.count_append]
      rfl
    have hrest := @ih inner fun t d ht hd => by
      have hlt := h (c :: t) d ((List.cons_prefix_cons).mpr ⟨rfl, ht⟩) hd
      rw [hcount ')' t, hcount '(' t] at hlt
      omega
    have hdepth : depth + (c :: s).count '(' - (c :: s).count ')' =
        inner + s.count '(' - s.count ')' := by
      rw [hcount '(' s, hcount ')' s]
      omega
    rw [List.cons_append, pieces, hcomma, if_neg Bool.false_ne_true, hdepth]
    change (pieces inner (s ++ rest)).modifyHead _ = _
    rw [hrest, List.modifyHead_modifyHead]
    rfl

namespace Enclosing

theorem closed (h : Enclosing s) : Closed s := by
  intro depth rest
  have hinside : ∀ t c, t ++ [c] <+: s → c = ')' ∨ c = ',' →
      t.count ')' < depth + t.count '(' := by
    rintro t c ht (rfl | rfl)
    · have hopens := h.opens _ ht
      rw [List.count_append, List.count_append] at hopens
      exact Nat.lt_add_left depth hopens
    · exact Nat.lt_add_left depth (h.shelters t ht)
  rw [pieces_append hinside, h.closes, Nat.add_sub_cancel]

/-- A value with an opening parenthesis has a first group, with something in front of it. -/
theorem exists_group (h : Enclosing s) (hopen : '(' ∈ s) : ∃ front inner rest,
    s = front ++ '(' :: (inner ++ ')' :: rest) ∧ front ≠ [] ∧ '(' ∉ front ∧ ')' ∉ front ∧
      ')' ∉ inner := by
  obtain ⟨front, behind, hs, hfront⟩ := List.eq_append_cons_of_mem hopen
  have hunclosing : ')' ∉ front := by
    have hle := h.opens front ⟨_, hs.symm⟩
    rw [List.count_eq_zero.mpr hfront] at hle
    exact List.count_eq_zero.mp (Nat.le_zero.mp hle)
  have hclose : ')' ∈ behind := by
    have hcloses := h.closes
    rw [hs, List.count_append, List.count_append, List.count_eq_zero.mpr hfront,
      List.count_eq_zero.mpr hunclosing] at hcloses
    rw [← List.count_pos_iff]
    simp at hcloses
    omega
  obtain ⟨inner, rest, rfl, hinner⟩ := List.eq_append_cons_of_mem hclose
  refine ⟨front, inner, rest, hs, ?_, hfront, hunclosing, hinner⟩
  rintro rfl
  exact h.head (by rw [hs]; rfl)

theorem not_mem_close (h : Enclosing s) (hopen : '(' ∉ s) : ')' ∉ s := by
  rw [← List.count_eq_zero, h.closes, List.count_eq_zero]
  exact hopen

end Enclosing

/-- A value with its type is one piece, and so one parameter. -/
theorem readAll_closed (hneat : Neat s) (hclosed : Closed s) :
    readAll (String.ofList s) = [⟨Value.ofToken s, String.ofList s⟩] := by
  have hpieces := hclosed 0 []
  rw [List.append_nil] at hpieces
  rw [readAll_neat hneat, hpieces]
  change [ofPiece (s ++ [])] = _
  rw [List.append_nil, ofPiece, hneat.trimmed]

/-! A text with a parenthesis is none of the words and numbers that values are read from. -/
section Foreign

private theorem readInt?_of_open (h : '(' ∈ s) : readInt? s = none := by
  rw [Option.eq_none_iff_forall_ne_some]
  intro n hn
  exact (readInt?_eq_some_iff.mp hn).not_mem (by decide) (by decide) (by decide) h

private theorem mem_dropWhile_isDigit (h : '(' ∈ s) : '(' ∈ s.dropWhile Char.isDigit := by
  rw [← List.takeWhile_append_dropWhile (p := Char.isDigit) (l := s), List.mem_append] at h
  refine h.resolve_left fun hdigit => ?_
  exact absurd (List.all_eq_true.mp List.all_takeWhile '(' hdigit) (by decide)

private theorem readExponent?_of_open (h : '(' ∈ s) : readExponent? s = none := by
  cases s with
  | nil => cases h
  | cons e s =>
    rw [readExponent?]
    split
    case isTrue he =>
      refine readInt?_of_open ((List.mem_cons.mp h).resolve_left ?_)
      rintro rfl
      exact absurd he (by decide)
    case isFalse => rfl

private theorem readUnsigned?_of_open (h : '(' ∈ s) (negative : Bool) :
    readUnsigned? negative s = none := by
  have hrest := mem_dropWhile_isDigit h
  have hbehind : '(' ∈ if (s.dropWhile Char.isDigit).head? == some '.' then
      ((s.dropWhile Char.isDigit).drop 1).dropWhile Char.isDigit
      else s.dropWhile Char.isDigit := by
    split
    case isTrue hpoint =>
      obtain ⟨t, ht⟩ := List.head?_eq_some_iff.mp (beq_iff_eq.mp hpoint)
      rw [ht] at hrest ⊢
      exact mem_dropWhile_isDigit ((List.mem_cons.mp hrest).resolve_left (by decide))
    case isFalse => exact hrest
  unfold readUnsigned?
  dsimp only
  rw [readExponent?_of_open hbehind, Option.map_none, ite_self]

private theorem readMagnitude?_of_open (h : '(' ∈ s) (negative : Bool) :
    readMagnitude? negative s = none := by
  have hmark : '(' ∈ s.map Char.toLower := List.mem_map.mpr ⟨'(', h, rfl⟩
  have hname : ∀ name : List Char, '(' ∉ name → (s.map Char.toLower == name) = false := by
    intro name hname
    rw [beq_eq_false_iff_ne]
    rintro rfl
    exact hname hmark
  simp only [readMagnitude?]
  rw [hname _ (by decide), hname _ (by decide), hname _ (by decide)]
  exact readUnsigned?_of_open h negative

private theorem readDouble?_of_open (h : '(' ∈ s) : readDouble? s = none := by
  unfold readDouble?
  split
  · exact readMagnitude?_of_open ((List.mem_cons.mp h).resolve_left (by decide)) _
  · exact readMagnitude?_of_open ((List.mem_cons.mp h).resolve_left (by decide)) _
  · exact readMagnitude?_of_open h _

private theorem readBool?_of_open (h : '(' ∈ s) : readBool? s = none := by
  have hmark : '(' ∈ s.map Char.toLower := List.mem_map.mpr ⟨'(', h, rfl⟩
  have hname : ∀ name : List Char, '(' ∉ name.map Char.toLower → sameLetters s name = false := by
    intro name hname
    rw [sameLetters, beq_eq_false_iff_ne]
    intro heq
    exact hname (heq ▸ hmark)
  have hdigit : ∀ d : Char, d ≠ '(' → (s == [d]) = false := by
    intro d hd
    rw [beq_eq_false_iff_ne]
    rintro rfl
    exact hd (List.mem_singleton.mp h).symm
  rw [readBool?, hname _ (by decide), hname _ (by decide), hdigit _ (by decide),
    hdigit _ (by decide)]
  rfl

/-- A text with a parenthesis keeps all its characters, whatever its type. -/
theorem ofTyped_of_open (h : '(' ∈ s) (type : List Char) :
    Value.ofTyped s type = .text (String.ofList s) ∨
      Value.ofTyped s type = .raw (String.ofList s) := by
  rcases Value.ofTyped_cases s type with
    heq | heq | ⟨n, hn, -⟩ | ⟨n, hn, -⟩ | ⟨x, hx, -⟩ | ⟨b, hb, -⟩
  · exact .inl heq
  · exact .inr heq
  · rw [readInt32?, readInt?_of_open h] at hn
    cases hn
  · rw [readInt64?, readInt?_of_open h] at hn
    cases hn
  · rw [readDouble?_of_open h] at hx
    cases hx
  · rw [readBool?_of_open h] at hb
    cases hb

/-- Nothing that is read from a text without a parenthesis is the value of one that has one. -/
theorem ofTyped_ne_of_open {t : List Char} (hs : '(' ∈ s) (ht : '(' ∉ t) (type type' : List Char) :
    Value.ofTyped t type' ≠ Value.ofTyped s type := by
  have hne : String.ofList t ≠ String.ofList s := by
    intro heq
    rw [String.ofList_inj] at heq
    exact ht (heq ▸ hs)
  rcases ofTyped_of_open hs type with hvalue | hvalue <;>
  rcases Value.ofTyped_cases t type' with
    heq | heq | ⟨_, -, heq⟩ | ⟨_, -, heq⟩ | ⟨_, -, heq⟩ | ⟨_, -, heq⟩ <;>
  · rw [hvalue, heq]
    simp [hne]

end Foreign

/-- A value with parentheses of its own in front of the name of its type is one parameter, with all of
it as its token. It is read by that type exactly if it opens no parenthesis. Otherwise its first group
is taken for the type, and what stands in front of the group for the value. -/
theorem readAll_enclosing (hs : Enclosing s) (htype : TypeName type.toList) :
    ∃ value, readAll (String.ofList (typed s type)) = [⟨value, String.ofList (typed s type)⟩] ∧
      (value = Value.ofTyped s type.toList ↔ '(' ∉ s) ∧
      ('(' ∈ s → ∃ front inner rest, s = front ++ '(' :: (inner ++ ')' :: rest) ∧
        '(' ∉ front ∧ ')' ∉ inner ∧
        value = if sameLetters (trim front) "null".toList then .null
          else .ofTyped (trim front) (trim inner)) := by
  have hneat : Neat (typed s type) :=
    hs.neat.append (.append (s := ['(']) (by decide) (htype.neat.append (by decide)))
  have hread := readAll_closed hneat (hs.closed.typed htype.unparted)
  by_cases hopen : '(' ∈ s
  · obtain ⟨front, inner, rest, hgroup, hne, hfront, hunclosing, hinner⟩ := hs.exists_group hopen
    have htyped : typed s type =
        front ++ '(' :: (inner ++ ')' :: (rest ++ '(' :: (type.toList ++ [')']))) := by
      rw [typed, hgroup]
      simp
    have hvalue : Value.ofToken (typed s type) = if sameLetters (trim front) "null".toList then .null
        else .ofTyped (trim front) (trim inner) := by
      rw [Value.ofToken, htyped, splitToken?_group hne hfront hunclosing hinner]
      rfl
    refine ⟨_, hread, ⟨fun heq => ?_, fun hnone => absurd hopen hnone⟩,
      fun _ => ⟨front, inner, rest, hgroup, hfront, hinner, hvalue⟩⟩
    rw [hvalue] at heq
    split at heq
    · rcases ofTyped_of_open hopen type.toList with hkept | hkept <;>
      · rw [hkept] at heq
        cases heq
    · refine absurd heq (ofTyped_ne_of_open hopen (fun hmem => hfront ?_) _ _)
      exact (trim_infix_self front).subset hmem
  · have hvalue : Value.ofToken (typed s type) = Value.ofTyped s type.toList := by
      rw [Value.ofToken, typed, splitToken?_group hs.neat.nonempty hopen (hs.not_mem_close hopen)
        fun h => (htype.unparted _ h).2.2 rfl]
      dsimp only [Option.getD_some]
      rw [hs.neat.trimmed, htype.neat.trimmed, hs.not_null, if_neg Bool.false_ne_true]
    exact ⟨_, hread, iff_of_true hvalue hopen, fun h => absurd h hopen⟩

/-- A value with commas and groups of its own. -/
theorem readAll_enclosing_nested : Enclosing "it's f(1, (2)) (x)".toList ∧ TypeName "String".toList ∧
    ∃ value, readAll "it's f(1, (2)) (x)(String)" = [⟨value, "it's f(1, (2)) (x)(String)"⟩] ∧
      value ≠ .text "it's f(1, (2)) (x)" := by
  have hs : Enclosing "it's f(1, (2)) (x)".toList := by decide
  have htype : TypeName "String".toList := by decide
  obtain ⟨value, hread, hiff, -⟩ := readAll_enclosing hs htype
  exact ⟨hs, htype, value, hread, fun heq => hiff.mp heq (by decide)⟩

/-- Not every value with parentheses of its own is read by the type behind it. -/
theorem not_read_by_suffix : ¬ ∀ (s : List Char) (type : String), Enclosing s →
    TypeName type.toList → readAll (String.ofList (typed s type)) =
      [⟨Value.ofTyped s type.toList, String.ofList (typed s type)⟩] := by
  intro h
  have hs : Enclosing "f(x)".toList := by decide
  have htype : TypeName "String".toList := by decide
  have hneat : Neat (typed "f(x)".toList "String") := by decide
  have hread := readAll_closed hneat (hs.closed.typed htype.unparted)
  have hvalue := congrArg (List.map Parameter.value) (hread.symm.trans (h _ "String" hs htype))
  cases hvalue

end Parameter

end SqlRecovery
