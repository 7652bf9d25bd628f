import SqlRecovery.Pairing
import SqlRecovery.Proofs.Journal
import SqlRecovery.Proofs.Marker.Trailing

/-! What one line does to the waiting statement, and the records that are written on the way.
Statements about runs speak of `Slot.read` and `Slot.written` and never of the steps that these
sum up. -/
namespace SqlRecovery
open Text Marker LogLine

namespace Record

/-- The words that report a statement whose parameters have not come. -/
def supersededWords : String := "未等到参数行，丢弃待定语句: "

/-- The words that report parameters for which no statement waits. -/
def unmatchedWords : String := "忽略没有对应 Preparing 行的参数行: "

/-- A waiting statement is given up. -/
def superseded (sql : String) : Record := ⟨.warn, supersededWords ++ sql⟩

/-- A line has parameters for which no statement waits. -/
def unmatched (line : String) : Record := ⟨.warn, unmatchedWords ++ line⟩

/-- A statement begins. -/
def began (sql : String) : Record := ⟨.debug, "Preparing: " ++ sql⟩

/-- A statement is complete. -/
def recovered (statement : Statement) : Record :=
  ⟨.info, "还原 SQL [" ++ statement.label ++ "]: " ++ toString statement.parameters.length ++
    " 个参数"⟩

end Record

namespace Slot

/-- The line is taken into a waiting statement, unless it begins another one. -/
def takes (m : Markers) (line : String) : Bool :=
  !m.mentionsParameters line.toList && !m.startsWithSentinel (trim line.toList) &&
    isContinuation (trim line.toList)

/-- A line as a fragment of a statement. -/
def fragment (line : String) : String := String.ofList (trim line.toList)

/-- A waiting statement is extended by a line that continues it. -/
def gather (m : Markers) (slot : Slot) (line : String) : Slot :=
  if slot.pending.isSome && takes m line then slot.extend (fragment line) else slot

/-- A waiting statement is completed by the text of its parameters. -/
def settle (slot : Slot) (parameters : Option (List Char)) : Option Statement × Slot :=
  match slot.pending, parameters with
  | some sql, some text => (some (.complete sql (String.ofList text)), .empty)
  | _, _ => (none, slot)

/-- The record of a line that may continue a waiting statement. -/
def note (m : Markers) (line : String) : Record :=
  if m.startsWithSentinel (trim line.toList) then ⟨.debug, "跳过标记行: " ++ fragment line⟩
  else if isContinuation (trim line.toList) then ⟨.trace, "收集 SQL 延续行: " ++ fragment line⟩
  else ⟨.debug, "跳过非 SQL 行: " ++ fragment line⟩

/-- The records of a line in view of the statement that waits. -/
def notes (m : Markers) (slot : Slot) (line : String) : List Record :=
  if Pairing.mayContinue m slot line then [note m line] else []

/-- The records of a line in view of the text of its parameters. -/
def settlement (slot : Slot) (line : String) (parameters : Option (List Char)) : List Record :=
  match slot.pending, parameters with
  | some sql, some text => [.recovered (.complete sql (String.ofList text))]
  | none, some _ => [.unmatched line]
  | _, none => []

/-- The records of a line. -/
def written (m : Markers) (slot : Slot) (line : String) : List Record :=
  if allBlank line.toList then []
  else match m.statement? line.toList with
    | some sql => slot.pending.toList.map .superseded ++ [.began (String.ofList sql)]
    | none => slot.notes m line ++ (slot.gather m line).settlement line (m.parameters? line.toList)

/-- What a line gives, and the slot behind it. -/
def read (m : Markers) (slot : Slot) (line : String) : Option Statement × Slot :=
  if allBlank line.toList then (none, slot)
  else match m.statement? line.toList with
    | some sql => (none, .only (String.ofList sql))
    | none => (slot.gather m line).settle (m.parameters? line.toList)

/-- What each of several lines gives. -/
def results (m : Markers) : Slot → List String → List (Option Statement)
  | _, [] => []
  | slot, line :: lines => (slot.read m line).1 :: results m (slot.read m line).2 lines

/-- The records of several lines. -/
def records (m : Markers) : Slot → List String → List Record
  | _, [] => []
  | slot, line :: lines => slot.written m line ++ records m (slot.read m line).2 lines

/-- The slot behind several lines. -/
def afterLines (m : Markers) (slot : Slot) (lines : List String) : Slot :=
  lines.foldl (fun slot line => (slot.read m line).2) slot

/-- The statements that several lines give. -/
def statements (m : Markers) (slot : Slot) (lines : List String) : List Statement :=
  (results m slot lines).filterMap id

private theorem settle_eq_empty {slot : Slot} {parameters : Option (List Char)}
    {statement : Statement} (h : (slot.settle parameters).1 = some statement) :
    (slot.settle parameters).2 = .empty := by
  rcases slot with ⟨_ | sql, fragments⟩
  · cases h
  · cases parameters with
    | none => cases h
    | some text => rfl

/-- Nothing waits behind a line that completes a statement. -/
theorem read_eq_empty {m : Markers} {slot : Slot} {line : String} {statement : Statement}
    (h : (slot.read m line).1 = some statement) : (slot.read m line).2 = .empty := by
  revert h
  fun_cases read m slot line
  · exact fun h => by cases h
  · exact fun h => by cases h
  · exact settle_eq_empty

@[simp] theorem length_results (m : Markers) (slot : Slot) (lines : List String) :
    (results m slot lines).length = lines.length := by
  induction lines generalizing slot with
  | nil => rfl
  | cons line lines ih => simp [results, ih]

/-- What a line gives depends on the slot behind the lines before it. -/
theorem getElem?_results (m : Markers) (slot : Slot) (lines : List String) (j : Nat) :
    (results m slot lines)[j]? =
      lines[j]?.map fun line => ((slot.afterLines m (lines.take j)).read m line).1 := by
  induction lines generalizing slot j with
  | nil => rfl
  | cons line lines ih =>
    cases j with
    | zero => rfl
    | succ j => exact ih (slot.read m line).2 j

theorem results_append (m : Markers) (slot : Slot) (first second : List String) :
    results m slot (first ++ second) =
      results m slot first ++ results m (slot.afterLines m first) second := by
  induction first generalizing slot with
  | nil => rfl
  | cons line first ih =>
    rw [List.cons_append, results, results, ih]
    rfl

theorem afterLines_append (m : Markers) (slot : Slot) (first second : List String) :
    slot.afterLines m (first ++ second) = (slot.afterLines m first).afterLines m second :=
  List.foldl_append

theorem statements_append (m : Markers) (slot : Slot) (first second : List String) :
    slot.statements m (first ++ second) =
      slot.statements m first ++ (slot.afterLines m first).statements m second := by
  rw [statements, results_append, List.filterMap_append]
  rfl

theorem statements_cons (m : Markers) (slot : Slot) (line : String) (lines : List String) :
    slot.statements m (line :: lines) =
      (slot.read m line).1.toList ++ (slot.read m line).2.statements m lines := by
  rw [statements, results]
  cases (slot.read m line).1 <;> rfl

theorem length_statements_cons (m : Markers) (slot : Slot) (line : String) (lines : List String) :
    (slot.statements m (line :: lines)).length =
      (slot.statements m [line]).length + ((slot.read m line).2.statements m lines).length := by
  rw [← List.length_append]
  exact congrArg List.length (statements_append m slot [line] lines)

/-- A blank at the end of a line makes no difference. -/
theorem read_append_blank {m : Markers} {e : Char} (he : Trailing e) (hm : m.AvoidedBy e)
    (slot : Slot) (line : List Char) :
    slot.read m (String.ofList (line ++ [e])) = slot.read m (String.ofList line) := by
  have hblank : allBlank (line ++ [e]) = allBlank line := by
    simp [allBlank, he.blank]
  simp only [read, gather, takes, fragment, String.toList_ofList]
  rw [hblank, Markers.statement?_append he hm, Markers.mentionsParameters_append hm,
    trim_append_blank he.blank, Markers.parameters?_append he hm]

end Slot

namespace Pairing
open Logged

private theorem take_writes (slot : Slot) :
    take.Writes slot slot.pending { slot with pending := none } [] :=
  (writes_get slot).bind ((writes_modify _ _).bind (writes_pure _ _))

private theorem start_writes (sql : String) (slot : Slot) :
    (start sql).Writes slot () (.only sql)
      (slot.pending.toList.map .superseded ++ [.began sql]) := by
  have hend : ∀ s : Slot, (do log .debug ("Preparing: " ++ sql); modify fun _ => Slot.only sql :
      Logged Slot Unit).Writes s () (.only sql) [.began sql] :=
    fun s => (writes_log _ _ _).bind (writes_modify _ _)
  refine (take_writes slot).bind ?_
  cases slot.pending with
  | none => exact (writes_pure _ _).bind (hend _)
  | some previous => exact (writes_log _ _ _).bind (hend _)

private theorem collect_writes (m : Markers) (line : String) (slot : Slot) :
    (collect m line).Writes slot () (if !m.startsWithSentinel (trim line.toList) &&
      isContinuation (trim line.toList) then slot.extend (Slot.fragment line) else slot)
      [Slot.note m line] := by
  simp only [collect, Slot.note]
  cases hs : m.startsWithSentinel (trim line.toList) with
  | true => exact writes_log _ _ _
  | false =>
    cases hc : isContinuation (trim line.toList) with
    | false => exact writes_log _ _ _
    | true => exact (writes_log _ _ _).bind (writes_modify _ _)

private theorem gather_of_mayContinue {m : Markers} {slot : Slot} {line : String}
    (h : mayContinue m slot line = true) :
    slot.gather m line = if !m.startsWithSentinel (trim line.toList) &&
      isContinuation (trim line.toList) then slot.extend (Slot.fragment line) else slot := by
  simp only [mayContinue, Bool.and_eq_true] at h
  simp [Slot.gather, Slot.takes, h.1, h.2]

private theorem gather_of_not_mayContinue {m : Markers} {slot : Slot} {line : String}
    (h : mayContinue m slot line = false) : slot.gather m line = slot := by
  simp only [mayContinue, Bool.and_eq_false_iff] at h
  rcases h with h | h <;> simp [Slot.gather, Slot.takes, h]

private theorem finish_writes (line : String) (text : List Char) (slot : Slot) :
    (finish line (String.ofList text)).Writes slot (slot.settle (some text)).1
      (slot.settle (some text)).2 (slot.settlement line (some text)) := by
  refine (take_writes slot).bind ?_
  rcases slot with ⟨_ | sql, fragments⟩
  · exact (writes_log _ _ _).bind (writes_pure _ _)
  · exact (writes_modify _ _).bind ((writes_log _ _ _).bind (writes_pure _ _))

/-- What is captured behind a parameters marker, if anything, ends the statement. -/
private theorem settle_writes (line : String) (captured : Option (List Char)) (slot : Slot) :
    (captured.elim (pure none) fun text => finish line (String.ofList text)).Writes slot
      (slot.settle captured).1 (slot.settle captured).2 (slot.settlement line captured) := by
  cases captured with
  | none => rcases slot with ⟨_ | sql, fragments⟩ <;> exact writes_pure _ _
  | some text => exact finish_writes line text slot

/-- A line that neither is blank nor begins a statement. -/
private theorem readOn_writes (m : Markers) (line : String) (slot : Slot) :
    (readOn m line).Writes slot ((slot.gather m line).settle (m.parameters? line.toList)).1
      ((slot.gather m line).settle (m.parameters? line.toList)).2
      (slot.notes m line ++
        (slot.gather m line).settlement line (m.parameters? line.toList)) := by
  have hend := settle_writes line
  refine (writes_get slot).bind ?_
  rw [Slot.notes]
  generalize m.parameters? line.toList = captured
  cases hp : mayContinue m slot line with
  | true =>
    rw [gather_of_mayContinue hp]
    refine (collect_writes m line slot).bind ?_
    cases captured with
    | none => exact hend none _
    | some text => exact hend (some text) _
  | false =>
    rw [gather_of_not_mayContinue hp]
    cases captured with
    | none => exact hend none slot
    | some text => exact hend (some text) slot

/-- A line does what `Slot.read` says, and writes what `Slot.written` says. -/
theorem readLine_writes (m : Markers) (line : String) (slot : Slot) :
    (readLine m line).Writes slot (slot.read m line).1 (slot.read m line).2
      (slot.written m line) := by
  rw [readLine, Slot.read, Slot.written]
  by_cases hb : allBlank line.toList
  · rw [if_pos hb, if_pos hb, if_pos hb]
    exact writes_pure _ _
  · rw [if_neg hb, if_neg hb, if_neg hb]
    cases m.statement? line.toList with
    | some sql => exact (start_writes _ slot).bind_pure fun _ => none
    | none => exact readOn_writes m line slot

theorem readLine_gives (m : Markers) (line : String) (slot : Slot) :
    (readLine m line).Gives slot (slot.read m line).1 (slot.read m line).2 :=
  (readLine_writes m line slot).gives

/-- A line that is read without a failure needs no guard. -/
theorem guardedLine_gives (m : Markers) (line : String) (slot : Slot) :
    (guardedLine m line).Gives slot (slot.read m line).1 (slot.read m line).2 :=
  (readLine_gives m line slot).recover _

end Pairing

end SqlRecovery
