import SqlRecovery.Proofs.Bytewise.Layout
import SqlRecovery.Proofs.Bytewise.Parameter
import SqlRecovery.Statement

/-! A statement recovered byte by byte, with every access checked. No access is a fault, whatever
was logged. -/
namespace SqlRecovery.Bytewise
open Text Sql

/-- The ASCII letters at the start of a statement, behind blanks. -/
def leadingKeyword (sql : String) : Checked String :=
  let text := trimStart sql.toList
  String.ofList <$> slice text 0 ((bytes text).findIdx (!Char.isAlpha ·))

/-- The kind of a statement. -/
def detect (sql : String) : Checked Kind := do
  return Kind.ofKeyword (← leadingKeyword sql).toList

/-- The statement that a logged text and its parameters text give. -/
def complete (logged parametersText : String) : Checked Statement := do
  let parameters ← readAll parametersText
  let filled ← substitute logged parameters
  let kind ← detect filled
  return .labelled logged (← format kind filled) kind parameters

theorem not_isAlpha_of_not_ascii {c : Char} (h : 0x80 ≤ c.toNat) : c.isAlpha = false := by
  rw [Bool.eq_false_iff, ne_eq, isAlpha_iff]
  omega

/-- The letters at the start of a text are as many bytes as characters. -/
theorem findIdx_bytes (s : List Char) :
    (bytes s).findIdx (!Char.isAlpha ·) = size (s.takeWhile Char.isAlpha) := by
  induction s with
  | nil => rfl
  | cons c s ih =>
    rw [bytes_cons]
    rcases Nat.lt_or_ge c.toNat 0x80 with hc | hc
    · rw [bytes_ascii hc, List.singleton_append, List.findIdx_cons]
      cases halpha : c.isAlpha with
      | true =>
        rw [List.takeWhile_cons_of_pos halpha, size_cons, size_ascii hc, ih, Nat.add_comm]
        rfl
      | false =>
        rw [List.takeWhile_cons_of_neg (Bool.not_eq_true _ ▸ halpha)]
        rfl
    · obtain ⟨b, bs, hb⟩ := exists_bytes c
      have hbyte : b.isAlpha = false :=
        not_isAlpha_of_not_ascii (bytes_not_ascii hc b (by simp [hb]))
      have hchar : ¬ c.isAlpha = true := by
        rw [not_isAlpha_of_not_ascii hc]
        exact Bool.false_ne_true
      rw [hb, List.cons_append, List.findIdx_cons, hbyte, List.takeWhile_cons_of_neg hchar]
      rfl

theorem leadingKeyword_eq (sql : String) : leadingKeyword sql = pure (Sql.leadingKeyword sql) := by
  rw [leadingKeyword, Sql.leadingKeyword]
  generalize trimStart sql.toList = text
  have hword := slice_append [] (text.takeWhile Char.isAlpha) (text.dropWhile Char.isAlpha)
  rw [List.nil_append, List.takeWhile_append_dropWhile, size_nil, Nat.zero_add] at hword
  rw [findIdx_bytes, hword, map_pure]

theorem detect_eq (sql : String) : detect sql = pure (Kind.detect sql) := by
  rw [detect, leadingKeyword_eq, pure_bind, Kind.detect]

theorem complete_eq (logged parametersText : String) :
    complete logged parametersText = pure (Statement.complete logged parametersText) := by
  rw [complete, readAll_eq, pure_bind, substitute_eq, pure_bind, detect_eq, pure_bind,
    format_eq, pure_bind, Statement.complete]

/-- Nothing is ever asked for that a text or a list does not have. A slice of a text succeeds if and
only if its ends are in order, within the text and between characters, the other accesses if and
only if they are within bounds. With every access checked so, the layout of any text for any kind,
the items of any list, the parameters of any text, a statement with any parameters filled in, its
leading keyword and the recovered statement come out, and as they do without the checks. -/
theorem accesses_in_bounds :
    (∀ s a b, (∃ part, slice s a b = .ok part) ↔ a ≤ b ∧ b ≤ size s ∧ Edge s a ∧ Edge s b) ∧
    (∀ (α : Type) (xs : List α) a b, (∃ part, run xs a b = .ok part) ↔ a ≤ b ∧ b ≤ xs.length) ∧
    (∀ (α : Type) (xs : List α) i, (∃ x, entry xs i = .ok x) ↔ i < xs.length) ∧
    (∀ (α : Type) (xs : List α) i x, (∃ ys, store xs i x = .ok ys) ↔ i < xs.length) ∧
    (∀ a b, (∃ d, minus a b = .ok d) ↔ b ≤ a) ∧
    ∀ (kind : Kind) (sql parametersText : String) (parameters : List Parameter),
      format kind sql = .ok (Layout.format kind sql) ∧
      items sql.toList = .ok (Sql.items sql.toList) ∧
      readAll parametersText = .ok (Parameter.readAll parametersText) ∧
      substitute sql parameters = .ok (SqlRecovery.substitute sql parameters) ∧
      leadingKeyword sql = .ok (Sql.leadingKeyword sql) ∧
      complete sql parametersText = .ok (Statement.complete sql parametersText) := by
  refine ⟨fun s a b => exists_slice_iff, fun α xs a b => exists_run_iff,
    fun α xs i => exists_entry_iff, fun α xs i x => exists_store_iff,
    fun a b => exists_minus_iff, fun kind sql parametersText parameters => ?_⟩
  exact ⟨format_eq kind sql, items_eq sql.toList, readAll_eq parametersText,
    substitute_eq sql parameters, leadingKeyword_eq sql, complete_eq sql parametersText⟩

end SqlRecovery.Bytewise
