import SqlRecovery.Proofs.Sql.Hit

/-! Words that a text mentions at the top level. A text put together from pieces, with marks between
them that belong to no name, mentions what its pieces do. -/
namespace SqlRecovery.Sql
open Text

/-- The word or phrase stands at the place, at the top level. It does not go on with a name or a
qualifier, and no name goes on behind it. -/
structure StandsAt (p s : List Char) (i : Nat) : Prop where
  top : Top s i
  glueAt : glueAt s i = false
  spelled : spelled p (s.drop i) = true

instance (p s : List Char) (i : Nat) : Decidable (StandsAt p s i) :=
  decidable_of_iff (Top s i ∧ glueAt s i = false ∧ spelled p (s.drop i) = true)
    ⟨fun h => ⟨h.1, h.2.1, h.2.2⟩, fun h => ⟨h.1, h.2, h.3⟩⟩

/-- The text mentions the word at the top level. -/
def Mentions (w x : List Char) : Prop := ∃ i < x.length, StandsAt w x i

instance (w x : List Char) : Decidable (Mentions w x) :=
  inferInstanceAs (Decidable (∃ i < x.length, _))

/-- Letters alone, and at least one. -/
def IsWord (w : List Char) : Prop := w ≠ [] ∧ ∀ c ∈ w, c.isAlpha = true

/-- The character belongs to no name, and opens and closes nothing. -/
structure Parting (d : Char) : Prop where
  not_name : isNameChar d = false
  not_binds : binds d = false
  step : Nesting.outside.step d = .outside

theorem parting_space : Parting ' ' := ⟨rfl, rfl, rfl⟩

theorem parting_comma : Parting ',' := ⟨rfl, rfl, rfl⟩

variable {p w x y z s : List Char} {d : Char} {i j : Nat}

theorem hit_iff_standsAt {p : String} (hp : Worded p) (hs : Tight s) :
    Hit s p i ↔ StandsAt p.toList s i := by
  rw [hit_iff_spelled hp hs]
  constructor
  · rintro ⟨htop, hglue, hspelled⟩
    exact ⟨eq_outside_of_isTop htop, hglue, hspelled⟩
  · rintro ⟨htop, hglue, hspelled⟩
    refine ⟨?_, hglue, hspelled⟩
    rw [htop]
    rfl

section Spelled

private theorem exists_letters (h : isPhrase true p = true) : ∃ w r, (∀ c ∈ w, c.isAlpha = true) ∧
    (p = w ∨ p = w ++ ' ' :: r) := by
  induction p with
  | nil => exact ⟨[], [], List.forall_mem_nil _, .inl rfl⟩
  | cons k p ih =>
    rw [isPhrase] at h
    split at h
    case isTrue hk =>
      obtain rfl := beq_iff_eq.mp hk
      exact ⟨[], p, List.forall_mem_nil _, .inr rfl⟩
    case isFalse =>
      rw [Bool.and_eq_true] at h
      obtain ⟨w, r, hw, hp⟩ := ih h.2
      refine ⟨k :: w, r, List.forall_mem_cons.mpr ⟨h.1, hw⟩, ?_⟩
      rcases hp with rfl | rfl
      · exact .inl rfl
      · exact .inr rfl

private theorem IsWord.words_eq (hw : IsWord w) : words w = [w] := by
  rw [words, List.splitOnP_eq_singleton fun c hc => not_blank_of_isAlpha (hw.2 c hc)]
  exact List.filter_cons_of_pos (congrArg (!·) (List.isEmpty_eq_false_iff.mpr hw.1))

/-- A phrase begins with its first word. -/
private theorem exists_first_word (h : isPhrase false p = true) : ∃ w r, IsWord w ∧ w ∈ words p ∧
    (p = w ∨ p = w ++ ' ' :: r) := by
  obtain ⟨k, q, rfl, -, hk, hq⟩ := exists_of_isPhrase h
  obtain ⟨w, r, hw, hp⟩ := exists_letters hq
  have hword : IsWord (k :: w) := ⟨List.cons_ne_nil k w, List.forall_mem_cons.mpr ⟨hk, hw⟩⟩
  refine ⟨k :: w, r, hword, ?_⟩
  rcases hp with rfl | rfl
  · exact ⟨by rw [hword.words_eq]; exact List.mem_singleton_self _, .inl rfl⟩
  · refine ⟨?_, .inr rfl⟩
    rw [← List.cons_append, words_append_space, hword.words_eq]
    exact List.mem_append_left _ (List.mem_singleton_self _)

/-- What stands behind a space in a phrase is a phrase. -/
theorem isPhrase_of_append {g : Bool} {q r : List Char} (h : isPhrase g (q ++ ' ' :: r) = true) :
    isPhrase false r = true := by
  induction q generalizing g with
  | nil => exact (Bool.and_eq_true_iff.mp h).2
  | cons k q ih =>
    rw [List.cons_append, isPhrase] at h
    split at h
    case isTrue => exact ih (Bool.and_eq_true_iff.mp h).2
    case isFalse => exact ih (Bool.and_eq_true_iff.mp h).2

theorem isWord_of_mem_words {w p : List Char} (hp : isPhrase false p = true) (h : w ∈ words p) :
    IsWord w := by
  obtain ⟨u, r, hu, -, rfl | hsplit⟩ := exists_first_word hp
  · rw [hu.words_eq, List.mem_singleton] at h
    rwa [h]
  · have hshort : r.length < p.length := by
      rw [hsplit, List.length_append, List.length_cons]
      omega
    rw [hsplit] at hp
    rw [hsplit, words_append_space, hu.words_eq, List.singleton_append] at h
    rcases List.mem_cons.mp h with rfl | h
    · exact hu
    · exact isWord_of_mem_words (isPhrase_of_append hp) h
termination_by p.length

/-- A word does not reach over a mark that belongs to no name. -/
theorem spelled_word_append (hw : ∀ c ∈ w, c.isAlpha = true) (hd : isNameChar d = false) :
    spelled w (x ++ d :: y) = spelled w x := by
  induction w generalizing x with
  | nil =>
    cases x with
    | nil => exact congrArg (!·) hd
    | cons c x => rfl
  | cons k w ih =>
    rw [List.forall_mem_cons] at hw
    cases x with
    | nil =>
      have hletter : sameLetter k d = false := by
        rw [← Bool.not_eq_true]
        intro hsame
        rw [isNameChar_of_isAlpha ((isAlpha_of_sameLetter hsame).trans hw.1)] at hd
        cases hd
      change (sameLetter k d && _) = false
      rw [hletter, Bool.false_and]
    | cons c x => rw [List.cons_append, spelled, spelled, ih hw.2]

/-- The first word of a phrase stands where the phrase does. -/
private theorem spelled_of_phrase (h : spelled (w ++ ' ' :: p) s = true) : spelled w s = true := by
  induction w generalizing s with
  | nil =>
    cases s with
    | nil => cases h
    | cons c s =>
      rw [List.nil_append, spelled, Bool.and_eq_true] at h
      obtain rfl := eq_of_sameLetter rfl h.1
      rfl
  | cons k w ih =>
    cases s with
    | nil => cases h
    | cons c s =>
      rw [List.cons_append, spelled, Bool.and_eq_true] at h
      rw [spelled, h.1, ih h.2]
      rfl

/-- A phrase that reaches over a space is parted by it. -/
theorem spelled_append_space (h : spelled p (x ++ ' ' :: y) = true) :
    spelled p x = true ∨
      ∃ q r, p = q ++ ' ' :: r ∧ q.length = x.length ∧ spelled r y = true := by
  induction p generalizing x with
  | nil =>
    cases x with
    | nil => exact .inl rfl
    | cons c x => exact .inl h
  | cons k p ih =>
    cases x with
    | nil =>
      rw [List.nil_append, spelled, Bool.and_eq_true] at h
      have hk : ' ' = k := eq_of_sameLetter (isAlpha_of_sameLetter h.1).symm h.1
      exact .inr ⟨[], p, by rw [hk, List.nil_append], rfl, h.2⟩
    | cons c x =>
      rw [List.cons_append, spelled, Bool.and_eq_true] at h
      rcases ih h.2 with hx | ⟨q, r, rfl, hlength, hr⟩
      · exact .inl (by rw [spelled, h.1, hx]; rfl)
      · exact .inr ⟨k :: q, r, rfl, congrArg (· + 1) hlength, hr⟩

end Spelled

section StandsAt

theorem standsAt_zero : StandsAt p s 0 ↔ spelled p s = true :=
  ⟨fun h => h.spelled, fun h => ⟨rfl, rfl, h⟩⟩

/-- Where a text begins at the top level and no name goes on, the same stands in it as in the whole. -/
theorem standsAt_append (hx : Nesting.outside.after x = .outside) (hglue : glue false x = false) :
    StandsAt p (x ++ y) (x.length + i) ↔ StandsAt p y i := by
  have htake : (x ++ y).take (x.length + i) = x ++ y.take i := List.take_length_add_append i
  have hdrop : (x ++ y).drop (x.length + i) = y.drop i := List.drop_length_add_append i
  have htop : Top (x ++ y) (x.length + i) ↔ Top y i := by
    rw [Top, Top, htake, Nesting.after_append, hx]
  have hat : glueAt (x ++ y) (x.length + i) = glueAt y i := by
    rw [Sql.glueAt, Sql.glueAt, htake, glue_append, hglue]
  constructor
  · rintro ⟨h, hg, hs⟩
    exact ⟨htop.mp h, hat ▸ hg, hdrop ▸ hs⟩
  · rintro ⟨h, hg, hs⟩
    exact ⟨htop.mpr h, hat ▸ hg, hdrop ▸ hs⟩

theorem StandsAt.lt_length (h : StandsAt w x i) (hw : w ≠ []) : i < x.length := by
  have hspelled := h.spelled
  refine Nat.lt_of_not_le fun hle => ?_
  rw [List.drop_of_length_le hle] at hspelled
  cases w with
  | nil => exact hw rfl
  | cons k w => cases hspelled

theorem StandsAt.mentions (h : StandsAt w x i) (hw : w ≠ []) : Mentions w x :=
  ⟨i, h.lt_length hw, h⟩

/-- Where a phrase stands, its first word does. -/
theorem StandsAt.first_word (h : StandsAt p s i) (hp : isPhrase false p = true) :
    ∃ w ∈ words p, IsWord w ∧ StandsAt w s i := by
  obtain ⟨w, r, hw, hmem, rfl | rfl⟩ := exists_first_word hp
  · exact ⟨p, hmem, hw, h⟩
  · exact ⟨w, hmem, hw, h.top, h.glueAt, spelled_of_phrase h.spelled⟩

/-- A word stands before a parting mark, or behind it. -/
theorem StandsAt.parted (h : StandsAt w (x ++ d :: y) i) (hw : IsWord w) (hd : Parting d)
    (hx : Nesting.outside.after x = .outside) :
    StandsAt w x i ∨ ∃ k, i = (x ++ [d]).length + k ∧ StandsAt w y k := by
  rcases Nat.lt_trichotomy i x.length with hlt | rfl | hgt
  · have htake : (x ++ d :: y).take i = x.take i := List.take_append_of_le_length (Nat.le_of_lt hlt)
    have hdrop : (x ++ d :: y).drop i = x.drop i ++ d :: y :=
      List.drop_append_of_le_length (Nat.le_of_lt hlt)
    have hspelled := h.spelled
    rw [hdrop, spelled_word_append hw.2 hd.not_name] at hspelled
    refine .inl ⟨?_, ?_, hspelled⟩
    · rw [Top, ← htake]
      exact h.top
    · rw [Sql.glueAt, ← htake]
      exact h.glueAt
  · have hspelled := h.spelled
    rw [List.drop_left, ← List.nil_append (d :: y), spelled_word_append hw.2 hd.not_name] at hspelled
    cases w with
    | nil => exact absurd rfl hw.1
    | cons k w => cases hspelled
  · obtain ⟨k, rfl⟩ := Nat.exists_eq_add_of_le hgt
    have hafter : Nesting.outside.after (x ++ [d]) = .outside := by
      rw [Nesting.after_append, hx]
      exact hd.step
    have hglue : glue false (x ++ [d]) = false := by
      rw [glue_append]
      exact hd.not_binds
    have hlength : (x ++ [d]).length = x.length.succ := List.length_append
    rw [← hlength, List.append_cons] at h
    exact .inr ⟨k, by rw [hlength], (standsAt_append hafter hglue).mp h⟩

/-- The text is over, or goes on behind a space. -/
def Pauses (t : List Char) : Prop := t = [] ∨ ∃ y, t = ' ' :: y

/-- A word that begins in a text stands in it. -/
theorem StandsAt.before {t : List Char} (h : StandsAt w (x ++ t) i) (ht : Pauses t) (hw : IsWord w)
    (hx : Nesting.outside.after x = .outside) (hi : i ≤ x.length) : StandsAt w x i := by
  rcases ht with rfl | ⟨y, rfl⟩
  · rwa [List.append_nil] at h
  · rcases h.parted hw parting_space hx with h | ⟨k, rfl, -⟩
    · exact h
    · rw [List.length_append] at hi
      change x.length + 1 + k ≤ x.length at hi
      omega

/-- Two texts with a parting mark between them mention what they mention apart. -/
theorem mentions_parted (h : Mentions w (x ++ d :: y)) (hw : IsWord w) (hd : Parting d)
    (hx : Nesting.outside.after x = .outside) : Mentions w x ∨ Mentions w y := by
  obtain ⟨i, -, hi⟩ := h
  rcases hi.parted hw hd hx with hi | ⟨k, -, hk⟩
  · exact .inl (hi.mentions hw.1)
  · exact .inr (hk.mentions hw.1)

theorem not_mentions_nil (w : List Char) : ¬ Mentions w [] := by
  rintro ⟨i, hi, -⟩
  cases hi

end StandsAt

end SqlRecovery.Sql
