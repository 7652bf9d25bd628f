import SqlRecovery.Proofs.Sql.Place

/-! Where a phrase is found. It stands at a place of one text if and only if it stands at the place
of the same rank in a text that looks alike. -/
namespace SqlRecovery.Sql
open Text

/-- The phrase is found at the place. -/
def Hit (s : List Char) (p : String) (i : Nat) : Prop :=
  Scan.beginsWith p.toList ((Scan.ofText s).drop i) = true

/-- The place stands at the top level. -/
def Top (s : List Char) (i : Nat) : Prop := Nesting.outside.after (s.take i) = .outside

instance (s : List Char) (i : Nat) : Decidable (Top s i) := inferInstanceAs (Decidable (_ = _))

/-- The phrase consists of words of letters. -/
def Worded (p : String) : Prop := isPhrase false p.toList = true

instance (p : String) : Decidable (Worded p) := inferInstanceAs (Decidable (_ = true))

theorem Worded.length_pos {p : String} (h : Worded p) : 0 < p.length := by
  obtain ⟨k, q, hpk, -⟩ := exists_of_isPhrase h
  rw [← String.length_toList, hpk]
  exact Nat.succ_pos _

section
variable {p s : List Char}

theorem length_le_of_spelled (h : spelled p s = true) : p.length ≤ s.length := by
  induction p generalizing s with
  | nil => exact Nat.zero_le _
  | cons k p ih =>
    cases s with
    | nil => cases h
    | cons c s =>
      rw [spelled, Bool.and_eq_true] at h
      exact Nat.succ_le_succ (ih h.2)

theorem startsName_of_spelled (h : spelled p s = true) :
    startsName (s.drop p.length) = false := by
  induction p generalizing s with
  | nil => exact (Bool.not_eq_true' _).mp h
  | cons k p ih =>
    cases s with
    | nil => cases h
    | cons c s =>
      rw [spelled, Bool.and_eq_true] at h
      exact ih h.2

/-- A phrase is spelled by characters that are blank where it is. -/
private theorem isBlank_of_sameLetter {k c : Char} (hk : k = ' ' ∨ k.isAlpha = true)
    (h : sameLetter k c = true) : isBlank c = isBlank k := by
  rcases hk with rfl | hk
  · rw [eq_of_sameLetter rfl h]
  · rw [not_blank_of_isAlpha hk, not_blank_of_isAlpha ((isAlpha_of_sameLetter h).trans hk)]

private theorem space_or_alpha {g : Bool} {k : Char} (h : isPhrase g (k :: p) = true) :
    (k = ' ' ∨ k.isAlpha = true) ∧ ∃ g', isPhrase g' p = true := by
  rw [isPhrase] at h
  split at h
  case isTrue hk => exact ⟨.inl (beq_iff_eq.mp hk), false, (Bool.and_eq_true_iff.mp h).2⟩
  case isFalse => exact ⟨.inr (Bool.and_eq_true_iff.mp h).1, true, (Bool.and_eq_true_iff.mp h).2⟩

theorem length_ink_of_spelled {g : Bool} (hp : isPhrase g p = true)
    (h : spelled p s = true) : (ink (s.take p.length)).length = (ink p).length := by
  induction p generalizing g s with
  | nil => rfl
  | cons k p ih =>
    obtain ⟨hk, g', hp'⟩ := space_or_alpha hp
    cases s with
    | nil => cases h
    | cons c s =>
      rw [spelled, Bool.and_eq_true] at h
      have hc := isBlank_of_sameLetter hk h.1
      rw [List.length_cons, List.take_succ_cons]
      cases hb : isBlank k with
      | true => rw [ink_cons_of_blank (hc.trans hb), ink_cons_of_blank hb, ih hp' h.2]
      | false =>
        rw [ink_cons_of_not_blank (hc.trans hb), ink_cons_of_not_blank hb, List.length_cons,
          List.length_cons, ih hp' h.2]

/-- The last character of a phrase is a letter. -/
private theorem inkAt_of_spelled {g : Bool} (hp : isPhrase g p = true) (hne : p ≠ [])
    (h : spelled p s = true) : InkAt s (p.length - 1) := by
  induction p generalizing g s with
  | nil => exact absurd rfl hne
  | cons k p ih =>
    cases s with
    | nil => cases h
    | cons c s =>
      rw [spelled, Bool.and_eq_true] at h
      cases p with
      | nil =>
        have hk : k.isAlpha = true := by
          rw [isPhrase] at hp
          split at hp
          case isTrue => rw [isPhrase, Bool.and_false] at hp; cases hp
          case isFalse => exact (Bool.and_eq_true_iff.mp hp).1
        exact ⟨c, rfl, not_blank_of_isAlpha ((isAlpha_of_sameLetter h.1).trans hk)⟩
      | cons l p =>
        obtain ⟨-, g', hp'⟩ := space_or_alpha hp
        exact ih hp' (List.cons_ne_nil l p) h.2

theorem step_of_isAlpha {c : Char} (h : c.isAlpha = true) (n : Nesting) : n.step c = n := by
  have hne : ∀ {d : Char}, d.isAlpha = false → (c == d) = false := by
    intro d hd
    rw [beq_eq_false_iff_ne]
    rintro rfl
    rw [h] at hd
    cases hd
  have hquote : (c == quoteMark) = false := hne rfl
  have hopen : (c == '(') = false := hne rfl
  have hclose : (c == ')') = false := hne rfl
  rcases n with ⟨depth, quoted⟩
  cases quoted <;> simp [Nesting.step, hquote, hopen, hclose, bne]

/-- A phrase opens and closes nothing. -/
theorem after_of_spelled {g : Bool} (hp : isPhrase g p = true)
    (h : spelled p s = true) (n : Nesting) : n.after (s.take p.length) = n := by
  induction p generalizing g s with
  | nil => rfl
  | cons k p ih =>
    cases s with
    | nil => cases h
    | cons c s =>
      rw [spelled, Bool.and_eq_true] at h
      rw [isPhrase] at hp
      rw [List.length_cons, List.take_succ_cons, after_cons]
      split at hp
      case isTrue hk =>
        obtain rfl := beq_iff_eq.mp hk
        obtain rfl := eq_of_sameLetter rfl h.1
        rw [step_of_blank rfl, ih (Bool.and_eq_true_iff.mp hp).2 h.2]
      case isFalse =>
        rw [Bool.and_eq_true] at hp
        rw [step_of_isAlpha ((isAlpha_of_sameLetter h.1).trans hp.1), ih hp.2 h.2]

theorem after_of_sameLetters (hp : isPhrase false p = true) (h : sameLetters p s = true)
    (n : Nesting) : n.after s = n := by
  have hspelled := spelled_append h []
  rw [List.append_nil] at hspelled
  have hafter := after_of_spelled hp hspelled n
  rwa [← length_of_sameLetters h, List.take_length] at hafter

end

section
variable {s : List Char} {p : String} {i : Nat}

/-- A phrase is found where it is spelled at the top level and does not go on with a name. -/
theorem hit_iff_spelled (hp : Worded p) (hs : Tight s) :
    Hit s p i ↔ (Nesting.outside.after (s.take i)).isTop = true ∧ glueAt s i = false ∧
      spelled p.toList (s.drop i) = true := by
  obtain ⟨k, q, hpk, -⟩ := exists_of_isPhrase hp
  have hne : p.toList.isEmpty = false := by rw [hpk]; rfl
  rw [Hit, drop_ofText hs]
  cases hd : s.drop i with
  | nil =>
    rw [hpk]
    constructor
    · intro h
      cases h
    · intro h
      cases h.2.2
  | cons c v =>
    rw [← spells_spots p.toList (Nesting.outside.after (s.take i)) (glueAt s i) (c :: v)]
    change (_ && !glueAt s i && !p.toList.isEmpty && Scan.spells _ _) = true ↔ _
    rw [hne, Bool.not_false, Bool.and_true, Bool.and_eq_true, Bool.and_eq_true,
      Bool.not_eq_true', and_assoc]
    exact Iff.rfl

private theorem inkAt_iff : InkAt s i ↔ ∃ c v, s.drop i = c :: v ∧ isBlank c = false := by
  constructor
  · rintro ⟨c, hc, hblank⟩
    obtain ⟨hi, rfl⟩ := List.getElem?_eq_some_iff.mp hc
    exact ⟨s[i], s.drop (i + 1), List.drop_eq_getElem_cons hi, hblank⟩
  · rintro ⟨c, v, hv, hblank⟩
    refine ⟨c, ?_, hblank⟩
    have hhead := congrArg List.head? hv
    rwa [List.head?_drop] at hhead

private theorem drop_keys (s : List Char) (i : Nat) :
    (keys false s).drop (rank s i) = keys (glueAt s i) (s.drop i) := by
  conv => lhs; rw [← List.take_append_drop i s, keys_append]
  rw [List.take_append_drop]
  exact List.drop_left' (length_keys _ _)

private theorem take_ink (s : List Char) (i : Nat) : (ink s).take (rank s i) = ink (s.take i) := by
  conv => lhs; rw [← List.take_append_drop i s, ink_append]
  rw [List.take_append_drop]
  exact List.take_left' rfl

/-- Whether a phrase is found depends on the rank of the place alone. -/
theorem hit_iff (hp : Worded p) (hs : Tight s) :
    Hit s p i ↔ InkAt s i ∧ (Nesting.outside.after ((ink s).take (rank s i))).isTop = true ∧
      spelledBy false p.toList ((keys false s).drop (rank s i)) = true := by
  obtain ⟨k, q, hpk, hk, halpha, -⟩ := exists_of_isPhrase hp
  have hdrop : Tight (s.drop i) := by
    have happend := hs
    rw [← List.take_append_drop i s] at happend
    exact happend.of_append.2
  rw [hit_iff_spelled hp hs, take_ink, after_ink, drop_keys, inkAt_iff]
  constructor
  · rintro ⟨htop, hglue, hspelled⟩
    rw [hglue]
    cases hd : s.drop i with
    | nil =>
      rw [hd, hpk] at hspelled
      cases hspelled
    | cons c v =>
      rw [hd] at hdrop hspelled
      have hblank : isBlank c = false := by
        rw [hpk, spelled, Bool.and_eq_true] at hspelled
        exact not_blank_of_isAlpha ((isAlpha_of_sameLetter hspelled.1).trans halpha)
      rw [spelled_eq hp hdrop fun _ => by simp [hblank]] at hspelled
      exact ⟨⟨c, v, rfl, hblank⟩, htop, hspelled⟩
  · rintro ⟨⟨c, v, hd, hblank⟩, htop, hspelled⟩
    rw [hd] at hdrop hspelled ⊢
    have hglue : glueAt s i = false := by
      rw [keys_cons_of_not_blank hblank, hpk, spelledBy, if_neg (by simpa using hk)] at hspelled
      simp only [Bool.and_eq_true, beq_iff_eq] at hspelled
      obtain ⟨⟨hsame, hmark⟩, -⟩ := hspelled
      have hname := isNameChar_of_isAlpha ((isAlpha_of_sameLetter hsame).trans halpha)
      rwa [hname, Bool.and_true] at hmark
    rw [hglue] at hspelled
    rw [spelled_eq hp hdrop fun _ => by simp [hblank]]
    exact ⟨htop, hglue, hspelled⟩

namespace Hit
variable (h : Hit s p i) (hp : Worded p) (hs : Tight s)
include h hp hs

theorem inkAt : InkAt s i := ((hit_iff hp hs).mp h).1

theorem top : Top s i := eq_outside_of_isTop ((hit_iff_spelled hp hs).mp h).1

theorem glueAt_eq : glueAt s i = false := ((hit_iff_spelled hp hs).mp h).2.1

theorem spelled_drop : spelled p.toList (s.drop i) = true :=
  ((hit_iff_spelled hp hs).mp h).2.2

theorem top_end : Top s (i + p.length) := by
  have hafter := after_of_spelled hp (h.spelled_drop hp hs) .outside
  rw [String.length_toList] at hafter
  rw [Top, List.take_add, Nesting.after_append, h.top hp hs, hafter]

theorem startsName_end : startsName (s.drop (i + p.length)) = false := by
  have hend := startsName_of_spelled (h.spelled_drop hp hs)
  rwa [List.drop_drop] at hend

theorem rank_end : rank s (i + p.length) = rank s i + (ink p.toList).length := by
  have hlength := length_ink_of_spelled hp (h.spelled_drop hp hs)
  rw [rank, List.take_add, ink_append, List.length_append]
  exact congrArg (rank s i + ·) hlength

theorem end_le : i + p.length ≤ s.length := by
  obtain ⟨c, hc, -⟩ := h.inkAt hp hs
  have hi : i < s.length := (List.getElem?_eq_some_iff.mp hc).1
  have hle := length_le_of_spelled (h.spelled_drop hp hs)
  rw [List.length_drop, String.length_toList] at hle
  omega

/-- The end of a phrase lies at or before a place if it does so by rank. -/
theorem end_le_iff {j : Nat} : i + p.length ≤ j ↔ rank s (i + p.length) ≤ rank s j := by
  have hpos := hp.length_pos
  have hne : p.toList ≠ [] := by
    rw [← List.length_pos_iff, String.length_toList]
    exact hpos
  have hlast : InkAt s (i + p.length - 1) := by
    obtain ⟨c, hc, hblank⟩ := inkAt_of_spelled hp hne (h.spelled_drop hp hs)
    rw [List.getElem?_drop, String.length_toList, ← Nat.add_sub_assoc hpos] at hc
    exact ⟨c, hc, hblank⟩
  have hsucc : i + p.length - 1 + 1 = i + p.length := by omega
  rw [← hsucc, rank_succ hlast, Nat.succ_le_iff, Nat.succ_le_iff, lt_iff_rank_lt hlast]

end Hit

/-- A phrase that is found in one text is found in the other. -/
theorem Hit.transfer {s' : List Char} (h : Hit s p i) (hp : Worded p) (hs : Tight s)
    (hs' : Tight s') (halike : Alike s s') : ∃ i', Hit s' p i' ∧ rank s' i' = rank s i := by
  have hrank : rank s i < (ink s').length := by
    rw [← halike.ink_eq]
    exact rank_lt (h.inkAt hp hs)
  obtain ⟨i', hink, hi'⟩ := exists_inkAt hrank
  obtain ⟨-, htop, hspelled⟩ := (hit_iff hp hs).mp h
  refine ⟨i', (hit_iff hp hs').mpr ⟨hink, ?_, ?_⟩, hi'⟩
  · rw [hi', ← halike.ink_eq]
    exact htop
  · rw [hi', ← halike]
    exact hspelled

end

end SqlRecovery.Sql
