import SqlRecovery.Parameter.Placeholder

/-! Placeholders are filled in one pass from the left. What stands between the question marks of a
statement stays as it is, each question mark gives way to the literal of its own parameter, and the
literals are not looked into. Two passes come to one if the first puts in no question marks. -/
namespace SqlRecovery

/-- The text consists of what stands before its first question mark and of what stands behind each
of its question marks. -/
structure Parted (s first : List Char) (others : List (List Char)) : Prop where
  text : s = first ++ others.flatMap ('?' :: ·)
  unmarked : ∀ part ∈ first :: others, '?' ∉ part

/-- What stands behind each question mark, with the literal of its parameter in front. A question
mark beyond the last literal stays. -/
def filledIn (literals : List (List Char)) (others : List (List Char)) : List Char :=
  (others.mapIdx fun i part => literals[i]?.getD ['?'] ++ part).flatten

section
variable {s first : List Char} {others : List (List Char)}

theorem exists_parted (s : List Char) : ∃ first others, Parted s first others := by
  induction s with
  | nil => exact ⟨[], [], rfl, by simp⟩
  | cons c s ih =>
    obtain ⟨first, others, rfl, hunmarked⟩ := ih
    by_cases hc : c = '?'
    · subst hc
      exact ⟨[], first :: others, rfl, List.forall_mem_cons.mpr ⟨List.not_mem_nil, hunmarked⟩⟩
    · rw [List.forall_mem_cons] at hunmarked
      have hfirst : '?' ∉ c :: first := by
        rw [List.mem_cons, not_or]
        exact ⟨Ne.symm hc, hunmarked.1⟩
      exact ⟨c :: first, others, rfl, List.forall_mem_cons.mpr ⟨hfirst, hunmarked.2⟩⟩

theorem Parted.length_eq (h : Parted s first others) : others.length = s.count '?' := by
  obtain ⟨rfl, hunmarked⟩ := h
  rw [List.forall_mem_cons] at hunmarked
  rw [List.count_append, List.count_eq_zero.mpr hunmarked.1, Nat.zero_add]
  replace hunmarked := hunmarked.2
  induction others with
  | nil => rfl
  | cons part others ih =>
    rw [List.forall_mem_cons] at hunmarked
    rw [List.flatMap_cons, List.cons_append, List.count_cons_self, List.count_append,
      List.count_eq_zero.mpr hunmarked.1, Nat.zero_add, ← ih hunmarked.2, List.length_cons]

private theorem fill_of_nil (literals : List (List Char)) : fill [] literals = [] := by
  cases literals <;> rfl

private theorem fill_mark (s p : List Char) (literals : List (List Char)) :
    fill ('?' :: s) (p :: literals) = p ++ fill s literals := rfl

/-- A text without question marks is passed over. -/
theorem fill_append (h : '?' ∉ s) (t : List Char) (literals : List (List Char)) :
    fill (s ++ t) literals = s ++ fill t literals := by
  induction s with
  | nil => rfl
  | cons c s ih =>
    rw [List.mem_cons, not_or] at h
    cases literals with
    | nil => rw [fill_nil, fill_nil]
    | cons p literals =>
      have hc : (c == '?') = false := beq_eq_false_iff_ne.mpr (Ne.symm h.1)
      rw [List.cons_append, fill, hc, if_neg Bool.false_ne_true, ih h.2, List.cons_append]

private theorem filledIn_cons (literals : List (List Char)) (part : List Char) :
    filledIn literals (part :: others) =
      literals[0]?.getD ['?'] ++ part ++ filledIn literals.tail others := by
  rw [filledIn, List.mapIdx_cons, List.flatten_cons, filledIn]
  simp only [List.getElem?_tail]

private theorem fill_flatMap (h : ∀ part ∈ others, '?' ∉ part) (literals : List (List Char)) :
    fill (others.flatMap ('?' :: ·)) literals = filledIn literals others := by
  induction others generalizing literals with
  | nil => exact fill_of_nil literals
  | cons part others ih =>
    rw [List.forall_mem_cons] at h
    rw [List.flatMap_cons, List.cons_append, filledIn_cons, ← ih h.2]
    cases literals with
    | nil =>
      rw [fill_nil, List.tail_nil, fill_nil]
      rfl
    | cons p literals =>
      rw [fill_mark, fill_append h.1, List.append_assoc]
      rfl

theorem Parted.fill_eq (h : Parted s first others) (literals : List (List Char)) :
    fill s literals = first ++ filledIn literals others := by
  obtain ⟨rfl, hunmarked⟩ := h
  rw [List.forall_mem_cons] at hunmarked
  rw [fill_append hunmarked.1, fill_flatMap hunmarked.2]

/-- A second pass finds what the first one left. -/
theorem fill_fill {ps : List (List Char)} (h : ∀ p ∈ ps, '?' ∉ p) (s : List Char)
    (qs : List (List Char)) : fill (fill s ps) qs = fill s (ps ++ qs) := by
  fun_induction fill s ps with
  | case1 s => rfl
  | case2 p ps => rw [fill_of_nil, fill_of_nil]
  | case3 c s p ps hc ih =>
    obtain rfl := beq_iff_eq.mp hc
    rw [List.forall_mem_cons] at h
    rw [fill_append h.1, ih h.2]
    rfl
  | case4 c s p ps hc ih =>
    cases qs with
    | nil => rw [fill_nil, List.append_nil, fill, if_neg hc]
    | cons q qs => rw [fill, if_neg hc, ih h, List.cons_append, fill, if_neg hc]

end

/-- A statement consists of its question marks and of the texts around them. Filling it leaves these
texts as they are and puts for each question mark the literal of the parameter with the same number,
while there is one; parameters without a question mark are left out. Filling in some parameters, and
then the others, is filling in all, if the first literals hold no question mark. -/
theorem substitute_in_one_pass (sql : String) (parameters : List Parameter) :
    (∃ first others, Parted sql.toList first others) ∧
    (∀ first others, Parted sql.toList first others →
      others.length = sql.toList.count '?' ∧
      (substitute sql parameters).toList =
        first ++ filledIn (parameters.map Parameter.literal) others) ∧
    ∀ ps qs, parameters = ps ++ qs → (∀ p ∈ ps, '?' ∉ p.literal) →
      substitute (substitute sql ps) qs = substitute sql parameters := by
  refine ⟨exists_parted _, fun first others h => ⟨h.length_eq, ?_⟩, ?_⟩
  · rw [substitute, String.toList_ofList, h.fill_eq]
  · rintro ps qs rfl hps
    have hliterals : ∀ p ∈ ps.map Parameter.literal, '?' ∉ p := List.forall_mem_map.mpr hps
    rw [substitute, substitute, substitute, String.toList_ofList, fill_fill hliterals,
      List.map_append]

/-- The first literal holds a question mark, which stays, and one parameter is left over. -/
theorem substitute_in_one_pass_question :
    let sql := "a = ? and b = ?"
    let what : Parameter := ⟨.text "what?", "what?(String)"⟩
    let two : Parameter := ⟨.integer 2, "2(Integer)"⟩
    Parted sql.toList "a = ".toList [" and b = ".toList, []] ∧
    (substitute sql [what, two, two]).toList = "a = 'what?' and b = 2".toList ∧
    '?' ∉ two.literal ∧ substitute (substitute sql [two]) [what] = substitute sql [two, what] := by
  intro sql what two
  have hparted : Parted sql.toList "a = ".toList [" and b = ".toList, []] :=
    ⟨by decide, by decide⟩
  have hfilled : "a = ".toList ++ filledIn ([what, two, two].map Parameter.literal)
      [" and b = ".toList, []] = "a = 'what?' and b = 2".toList := by decide +kernel
  have htwo : '?' ∉ two.literal := by decide +kernel
  refine ⟨hparted, ?_, htwo, ?_⟩
  · exact ((substitute_in_one_pass sql [what, two, two]).2.1 _ _ hparted).2.trans hfilled
  · exact (substitute_in_one_pass sql [two, what]).2.2 [two] [what] rfl
      (List.forall_mem_singleton.mpr htwo)

end SqlRecovery
