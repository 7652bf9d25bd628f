import Mathlib.Data.List.ReduceOption
import SqlRecovery.Proofs.Pairing.History

/-! No statement is lost without a word. Statements that begin, statements that are given and the
records that are written account for each other, line by line and hence over any run. -/
namespace SqlRecovery

namespace Record

/-- A warning that begins with these words. -/
def warns (r : Record) (words : String) : Bool :=
  r.level = .warn && words.toList.isPrefixOf r.message.toList

theorem warns_of_level_ne {r : Record} (h : r.level ≠ .warn) (words : String) :
    r.warns words = false := by
  simp [warns, h]

theorem warns_append (words rest : String) :
    (⟨.warn, words ++ rest⟩ : Record).warns words = true := by
  simp [warns]

@[simp] theorem superseded_warns (sql : String) : (superseded sql).warns supersededWords = true :=
  warns_append _ _

@[simp] theorem unmatched_warns (line : String) : (unmatched line).warns unmatchedWords = true :=
  warns_append _ _

/-- The two warnings differ in their first character. -/
@[simp] theorem superseded_warns_not (sql : String) :
    (superseded sql).warns unmatchedWords = false := by
  rw [superseded, warns, String.toList_append]
  rfl

@[simp] theorem unmatched_warns_not (line : String) :
    (unmatched line).warns supersededWords = false := by
  rw [unmatched, warns, String.toList_append]
  rfl

@[simp] theorem began_warns (sql words : String) : (began sql).warns words = false :=
  warns_of_level_ne Level.noConfusion words

@[simp] theorem recovered_warns (statement : Statement) (words : String) :
    (recovered statement).warns words = false :=
  warns_of_level_ne Level.noConfusion words

@[simp] theorem level_superseded (sql : String) : (superseded sql).level = .warn := rfl

@[simp] theorem level_unmatched (line : String) : (unmatched line).level = .warn := rfl

@[simp] theorem level_began (sql : String) : (began sql).level = .debug := rfl

@[simp] theorem level_recovered (statement : Statement) : (recovered statement).level = .info := rfl

end Record

/-- The number of statements that wait. -/
def Slot.waiting (slot : Slot) : Nat := if slot.pending.isSome then 1 else 0

private theorem Slot.waiting_gather (m : Marker.Markers) (slot : Slot) (line : String) :
    (slot.gather m line).waiting = slot.waiting := by
  rw [gather]
  split
  case isTrue h =>
    rw [waiting, waiting, if_pos (Bool.and_eq_true_iff.mp h).1]
    rfl
  case isFalse => rfl

namespace Pairing
open Text Marker Logged Record

/-- The line begins a statement. -/
def begins (m : Markers) (line : String) : Bool := (statementMarker? m line).isSome

/-- The line carries parameters. -/
def carries (m : Markers) (line : String) : Bool := (parametersMarker? m line).isSome

/-- Between two slots, the statements that begin are given or given up or wait, parameters complete
a statement or are reported, and the records of completion tell of the statements that are given. -/
structure Accounts (m : Markers) (lines : List String) (slot next : Slot)
    (given : List Statement) (written : List Record) : Prop where
  begun : lines.countP (begins m) + slot.waiting =
    given.length + written.countP (·.warns supersededWords) + next.waiting
  carried : lines.countP (carries m) = given.length + written.countP (·.warns unmatchedWords)
  told : written.filter (·.level = .info) = given.map .recovered

namespace Accounts
variable {m : Markers} {line : String}

/-- Nothing happens. -/
theorem refl (m : Markers) (slot : Slot) : Accounts m [] slot slot [] [] := ⟨by simp, rfl, rfl⟩

theorem append {first second : List String} {s t u : Slot} {given more : List Statement}
    {written further : List Record} (h : Accounts m first s t given written)
    (h' : Accounts m second t u more further) :
    Accounts m (first ++ second) s u (given ++ more) (written ++ further) where
  begun := by
    have hfirst := h.begun
    have hsecond := h'.begun
    simp only [List.countP_append, List.length_append]
    omega
  carried := by
    simp only [List.countP_append, List.length_append, h.carried, h'.carried]
    omega
  told := by rw [List.filter_append, h.told, h'.told, List.map_append]

/-- A line that is no marker changes nothing by itself. -/
theorem silent (h : Silent m line) (slot : Slot) : Accounts m [line] slot slot [] [] :=
  ⟨by simp [begins, h.1], by simp [carries, h.2], rfl⟩

/-- A line that continues a statement leaves it waiting, and what is noted of it is no warning. -/
theorem gather (m : Markers) (slot : Slot) (line : String) :
    Accounts m [] slot (slot.gather m line) [] (slot.notes m line) := by
  have hlevel : ∀ r ∈ slot.notes m line, r.level ≠ .warn ∧ r.level ≠ .info := by
    rw [Slot.notes, Slot.note]
    split_ifs <;> simp
  have hwarns : ∀ words, (slot.notes m line).countP (·.warns words) = 0 := fun words =>
    List.countP_eq_zero.mpr fun r hr => by simp [warns_of_level_ne (hlevel r hr).1]
  refine ⟨?_, ?_, ?_⟩
  · rw [hwarns, Slot.waiting_gather]
    rfl
  · rw [hwarns]
    rfl
  · exact List.filter_eq_nil_iff.mpr fun r hr => by simpa using (hlevel r hr).2

/-- A statement that still waits is given up when the next one begins. -/
theorem start {sql : List Char} (h : statementMarker? m line = some sql) (slot : Slot) :
    Accounts m [line] slot (.only (String.ofList sql)) []
      (slot.pending.toList.map .superseded ++ [.began (String.ofList sql)]) := by
  have hbegins : begins m line = true := by rw [begins, h]; rfl
  have hcarries : carries m line = false := by
    rw [carries, parametersMarker?_of_statementMarker h]
    rfl
  rcases slot with ⟨_ | previous, fragments⟩ <;>
    exact ⟨by simp [hbegins, Slot.waiting, Slot.only], by simp [hcarries], by simp⟩

/-- Parameters complete a waiting statement, or are reported. -/
theorem settle (h : statementMarker? m line = none) (slot : Slot) :
    Accounts m [line] slot (slot.settle (parametersMarker? m line)).2
      (slot.settle (parametersMarker? m line)).1.toList
      (slot.settlement line (parametersMarker? m line)) := by
  have hbegins : begins m line = false := by rw [begins, h]; rfl
  have hcarries : carries m line = (parametersMarker? m line).isSome := rfl
  -- A statement waits or not, and the line carries parameters or not.
  rcases slot with ⟨_ | sql, fragments⟩ <;> cases hp : parametersMarker? m line <;>
    exact ⟨by simp [hbegins, Slot.settle, Slot.settlement, Slot.waiting, Slot.empty],
      by simp [hcarries, hp, Slot.settle, Slot.settlement], by simp [Slot.settle, Slot.settlement]⟩

/-- What one line does. -/
theorem ofLine (m : Markers) (line : String) (slot : Slot) :
    Accounts m [line] slot (slot.read m line).2 (slot.read m line).1.toList
      (slot.written m line) := by
  rw [Slot.read, Slot.written]
  by_cases hb : allBlank line.toList
  · rw [if_pos hb, if_pos hb]
    exact silent ⟨if_pos hb, by simp [parametersMarker?, hb]⟩ slot
  · have hs : statementMarker? m line = m.statement? line.toList := if_neg hb
    rw [if_neg hb, if_neg hb]
    cases hstatement : m.statement? line.toList with
    | some sql => exact start (hs.trans hstatement) slot
    | none =>
      -- The line may first continue the statement that it then completes.
      have hp : parametersMarker? m line = m.parameters? line.toList := by
        simp [parametersMarker?, hb, hstatement]
      rw [← hp]
      exact (gather m slot line).append (settle (hs.trans hstatement) _)

/-- What a run over many lines does, from any slot. -/
theorem ofLines (m : Markers) (lines : List String) (slot : Slot) :
    Accounts m lines slot (slot.afterLines m lines) (slot.statements m lines)
      (slot.records m lines) := by
  induction lines generalizing slot with
  | nil => exact refl m slot
  | cons line lines ih =>
    rw [Slot.statements_cons]
    exact (ofLine m line slot).append (ih (slot.read m line).2)

end Accounts

/-- No statement disappears without a word. Each line that begins a statement accounts for a
statement that is given, one that is reported as given up, or the one that still waits; each line
that only carries parameters accounts for a statement that is given or for parameters that are
reported as unmatched. The records of completion tell of the statements that are given, line by line,
in whatever state a line is read. -/
theorem readLines_accounts (m : Markers) (lines : List String) :
    (∃ given slot written, readLines m lines .quiet .empty = ⟨.ok given, slot, written⟩ ∧
      lines.countP (fun line => (statementMarker? m line).isSome) =
        given.reduceOption.length + written.countP (·.warns supersededWords) +
          (if slot.pending.isSome then 1 else 0) ∧
      lines.countP (fun line => (parametersMarker? m line).isSome) =
        given.reduceOption.length + written.countP (·.warns unmatchedWords) ∧
      written.countP (·.level = .info) = given.reduceOption.length) ∧
    ∀ line slot, ∃ given next written, readLine m line .quiet slot = ⟨.ok given, next, written⟩ ∧
      written.filter (·.level = .info) = given.toList.map .recovered := by
  constructor
  · obtain ⟨hbegun, hcarried, htold⟩ := Accounts.ofLines m lines .empty
    refine ⟨_, _, _, readLines_writes lines .empty, hbegun, hcarried, ?_⟩
    rw [List.countP_eq_length_filter, htold, List.length_map]
    rfl
  · exact fun line slot =>
      ⟨_, _, _, readLine_writes m line slot, (Accounts.ofLine m line slot).told⟩

end Pairing

end SqlRecovery
