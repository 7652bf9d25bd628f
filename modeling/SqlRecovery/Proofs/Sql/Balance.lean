import SqlRecovery.Proofs.Sql.Clauses
import SqlRecovery.Proofs.Sql.Levels

/-! Balanced texts, and what parentheses around a text make of it. Behind a parenthesis a balanced
text runs as it does alone, one level deeper, so nothing of it stands at the top level. -/
namespace SqlRecovery.Sql
open Text

/-- The text closes all that it opens, and no more than that. -/
structure Balanced (x : List Char) : Prop where
  closed : Nesting.outside.after x = .outside
  unclosing : (')', true) ∉ levels .outside x

instance (x : List Char) : Decidable (Balanced x) :=
  decidable_of_iff (Nesting.outside.after x = .outside ∧ ∀ l ∈ levels .outside x, l ≠ (')', true))
    ⟨fun h => ⟨h.1, fun hmem => h.2 _ hmem rfl⟩, fun h => ⟨h.1, fun _ hl heq => h.2 (heq ▸ hl)⟩⟩

private theorem mem_levels_ink {n : Nesting} {d : Char} (hd : isBlank d = false) (b : Bool)
    (x : List Char) : (d, b) ∈ levels n (ink x) ↔ (d, b) ∈ levels n x := by
  induction x generalizing n with
  | nil => rfl
  | cons c x ih =>
    cases hc : isBlank c with
    | true =>
      have hne : d ≠ c := by
        rintro rfl
        rw [hd] at hc
        cases hc
      rw [ink_cons_of_blank hc, levels_cons, step_of_blank hc, List.mem_cons, ih]
      exact (or_iff_right fun heq => hne (Prod.mk.inj heq).1).symm
    | false =>
      rw [ink_cons_of_not_blank hc, levels_cons, levels_cons, List.mem_cons, List.mem_cons, ih]

/-- Blanks make no difference to the balance of a text. -/
theorem balanced_ink {x : List Char} : Balanced (ink x) ↔ Balanced x := by
  constructor
  · rintro ⟨hclosed, hunclosing⟩
    rw [after_ink] at hclosed
    rw [mem_levels_ink rfl] at hunclosing
    exact ⟨hclosed, hunclosing⟩
  · rintro ⟨hclosed, hunclosing⟩
    rw [← after_ink] at hclosed
    rw [← mem_levels_ink rfl] at hunclosing
    exact ⟨hclosed, hunclosing⟩

theorem balanced_collapse {x : List Char} : Balanced (collapse x) ↔ Balanced x := by
  have halike : Alike (collapse x) x := keys_collapse x
  rw [← balanced_ink, halike.ink_eq, balanced_ink]

namespace Nesting

/-- The nesting with one more parenthesis around it. -/
def deeper (n : Nesting) : Nesting := ⟨n.depth + 1, n.quoted⟩

@[simp] theorem isTop_deeper (n : Nesting) : n.deeper.isTop = false := by
  simp [deeper, isTop]

theorem deeper_ne_outside (n : Nesting) : n.deeper ≠ .outside := by
  intro h
  have htop := n.isTop_deeper
  rw [h] at htop
  cases htop

end Nesting

section Deeper
variable {n : Nesting} {c : Char} {x y : List Char}

/-- A step is the same one level deeper, unless it closes what is not open. -/
theorem step_deeper (h : (c, n.isTop) ≠ (')', true)) : n.deeper.step c = (n.step c).deeper := by
  obtain ⟨depth, quoted⟩ := n
  cases quoted with
  | true => rfl
  | false =>
    by_cases hquote : c = quoteMark
    · simp [Nesting.step, Nesting.deeper, hquote]
    · by_cases hopen : c = '('
      · subst hopen
        rfl
      · by_cases hclose : c = ')'
        · subst hclose
          cases depth with
          | zero => exact absurd rfl h
          | succ depth => rfl
        · simp [Nesting.step, Nesting.deeper, hquote, hopen, hclose]

private theorem not_closing_of_cons (h : (')', true) ∉ levels n (c :: x)) :
    (c, n.isTop) ≠ (')', true) ∧ (')', true) ∉ levels (n.step c) x := by
  rw [levels_cons, List.mem_cons, not_or] at h
  exact ⟨Ne.symm h.1, h.2⟩

theorem after_deeper (h : (')', true) ∉ levels n x) : n.deeper.after x = (n.after x).deeper := by
  induction x generalizing n with
  | nil => rfl
  | cons c x ih =>
    obtain ⟨hc, hx⟩ := not_closing_of_cons h
    rw [after_cons, after_cons, step_deeper hc, ih hx]

theorem levels_deeper (h : (')', true) ∉ levels n x) (d : Char) :
    (d, true) ∉ levels n.deeper x := by
  induction x generalizing n with
  | nil => exact List.not_mem_nil
  | cons c x ih =>
    obtain ⟨hc, hx⟩ := not_closing_of_cons h
    rw [levels_cons, step_deeper hc, Nesting.isTop_deeper, List.mem_cons, not_or]
    exact ⟨fun heq => Bool.false_ne_true (Prod.mk.inj heq).2.symm, ih hx⟩

theorem not_closing_of_append (h : (')', true) ∉ levels n (x ++ y)) : (')', true) ∉ levels n x := by
  rw [levels_append, List.mem_append, not_or] at h
  exact h.1

/-- A text that opens no parenthesis at the top level stays there, or in a literal. -/
theorem depth_after (hn : n.depth = 0) (h : ('(', true) ∉ levels n x) : (n.after x).depth = 0 := by
  induction x generalizing n with
  | nil => exact hn
  | cons c x ih =>
    rw [levels_cons, List.mem_cons, not_or] at h
    refine ih ?_ h.2
    obtain ⟨depth, quoted⟩ := n
    obtain rfl : depth = 0 := hn
    cases quoted with
    | true => rfl
    | false =>
      have hopen : c ≠ '(' := by
        rintro rfl
        exact h.1 rfl
      by_cases hquote : c = quoteMark
      · simp [Nesting.step, hquote]
      · by_cases hclose : c = ')'
        · subst hclose
          rfl
        · simp [Nesting.step, hquote, hopen, hclose]

/-- Without a parenthesis to close, a closing one does not lead back to the top level. -/
private theorem after_closing_ne (hn : n.depth = 0) (hopen : ('(', true) ∉ levels n x)
    (hclose : (')', true) ∉ levels n (x ++ [')'])) : n.after (x ++ [')']) ≠ .outside := by
  have hdepth := depth_after hn hopen
  rw [levels_append, List.mem_append, not_or] at hclose
  rw [Nesting.after_append]
  generalize n.after x = m at hdepth hclose
  obtain ⟨depth, quoted⟩ := m
  obtain rfl : depth = 0 := hdepth
  cases quoted with
  | true => exact fun h => Bool.false_ne_true (congrArg Nesting.quoted h).symm
  | false => exact absurd (List.mem_singleton_self _) hclose.2

/-- Behind a parenthesis, a text up to a parenthesis that leads back to the top level is balanced if
it opens no other parenthesis there. -/
theorem closed_of_deeper (hclosed : n.deeper.after (x ++ [')']) = .outside)
    (hopen : ('(', true) ∉ levels n.deeper x)
    (hclose : (')', true) ∉ levels n.deeper (x ++ [')'])) :
    n.after x = .outside ∧ (')', true) ∉ levels n x := by
  induction x generalizing n with
  | nil =>
    obtain ⟨depth, quoted⟩ := n
    cases quoted with
    | true => exact absurd (congrArg Nesting.quoted hclosed).symm Bool.false_ne_true
    | false =>
      obtain rfl : depth = 0 := congrArg Nesting.depth hclosed
      exact ⟨rfl, List.not_mem_nil⟩
  | cons c x ih =>
    rw [List.cons_append, after_cons] at hclosed
    rw [levels_cons, List.mem_cons, not_or] at hopen
    rw [List.cons_append, levels_cons, List.mem_cons, not_or] at hclose
    by_cases hc : (c, n.isTop) = (')', true)
    · -- The first parenthesis is closed here, so the last one would close what is not open.
      obtain ⟨rfl, htop⟩ := Prod.mk.inj hc
      obtain rfl := eq_outside_of_isTop htop
      exact absurd hclosed (after_closing_ne rfl hopen.2 hclose.2)
    · rw [step_deeper hc] at hclosed hopen hclose
      obtain ⟨hafter, hlevels⟩ := ih hclosed hopen.2 hclose.2
      rw [levels_cons, List.mem_cons, not_or]
      exact ⟨hafter, Ne.symm hc, hlevels⟩

end Deeper

theorem Balanced.append {x y : List Char} (hx : Balanced x) (hy : Balanced y) : Balanced (x ++ y) where
  closed := by rw [Nesting.after_append, hx.closed, hy.closed]
  unclosing := by
    rw [levels_append, hx.closed, List.mem_append, not_or]
    exact ⟨hx.unclosing, hy.unclosing⟩

/-- Balanced texts are a balanced list. -/
theorem balanced_list {xs : List (List Char)} (hne : xs ≠ []) (hxs : ∀ x ∈ xs, Balanced x) :
    Balanced (joinWith ", ".toList xs) :=
  have hcomma : Balanced ", ".toList := by decide
  joinWith_induction (fun _ _ hx hy => hx.append (hcomma.append hy)) hne hxs

/-- A text in parentheses. -/
def bracket (x : List Char) : List Char := '(' :: (x ++ [')'])

section Bracket
variable {v : Vocabulary} {x : List Char}

theorem after_bracket (h : Balanced x) : Nesting.outside.after (bracket x) = .outside := by
  change Nesting.outside.deeper.after (x ++ [')']) = _
  rw [Nesting.after_append, after_deeper h.unclosing, h.closed]
  rfl

/-- Only the parenthesis that opens a balanced text stands at the top level. -/
theorem levels_bracket (h : Balanced x) {d : Char} (hd : d ≠ '(') :
    (d, true) ∉ levels .outside (bracket x) := by
  change (d, true) ∉ ('(', true) :: levels Nesting.outside.deeper (x ++ [')'])
  rw [levels_append, after_deeper h.unclosing, List.mem_cons, List.mem_append, not_or, not_or]
  refine ⟨fun heq => hd (Prod.mk.inj heq).1, levels_deeper h.unclosing d, ?_⟩
  rw [h.closed]
  exact fun hmem => Bool.false_ne_true (Prod.mk.inj (List.mem_singleton.mp hmem)).2.symm

theorem neat_bracket (h : Neat x) : Neat (bracket x) := by
  have hopen : Neat ['('] := by decide
  have hclose : Neat [')'] := by decide
  exact hopen.append (h.append hclose)

theorem item_bracket (h : Balanced x) (hx : Neat x) : Item (bracket x) :=
  ⟨neat_bracket hx, after_bracket h, levels_bracket h (by decide)⟩

/-- Nothing is mentioned in a balanced text in parentheses. -/
theorem not_mentions_bracket (h : Balanced x) {w : List Char} (hw : IsWord w) :
    ¬ Mentions w (bracket x) := by
  rintro ⟨i, hi, htop, -, hspelled⟩
  cases i with
  | zero =>
    obtain ⟨k, w, rfl⟩ := List.exists_cons_of_ne_nil hw.1
    have hletter : sameLetter k '(' = true := (Bool.and_eq_true_iff.mp hspelled).1
    have halpha := (isAlpha_of_sameLetter hletter).trans (hw.2 k List.mem_cons_self)
    cases halpha
  | succ i =>
    have hle : i ≤ x.length := by
      rw [bracket, List.length_cons, List.length_append] at hi
      exact Nat.le_of_lt_succ (Nat.lt_of_succ_lt_succ hi)
    have hprefix : (')', true) ∉ levels .outside (x.take i) := by
      refine not_closing_of_append (y := x.drop i) ?_
      rw [List.take_append_drop]
      exact h.unclosing
    rw [Top, bracket, List.take_succ_cons, List.take_append_of_le_length hle] at htop
    change Nesting.outside.deeper.after (x.take i) = _ at htop
    rw [after_deeper hprefix] at htop
    exact Nesting.deeper_ne_outside _ htop

/-- A balanced text in parentheses has no part in the structure of a statement. -/
theorem inert_bracket (h : Balanced x) (hx : Neat x) : Inert v (bracket x) where
  neat := neat_bracket hx
  closed := after_bracket h
  silent := fun p hp _ hw => not_mentions_bracket h (isWord_of_mem_words (v.worded p hp) hw)

end Bracket

end SqlRecovery.Sql
