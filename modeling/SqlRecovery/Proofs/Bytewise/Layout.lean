import SqlRecovery.Proofs.Bytewise.Lists
import SqlRecovery.Proofs.Sql.Layout.Query

/-! The layout of a whole statement, byte by byte and with every access checked. It is the layout of
its characters, whatever the kind and the text are. -/
namespace SqlRecovery.Bytewise
open Text Sql
open Layout (Line lineOf joinPhrases)

/-- The tables from FROM on, each join on a line of its own. -/
def tableLines (s : List Char) (start stop : Nat) : Checked (List Line) := do
  let found ← hits s stop joinPhrases (start + "FROM".length) (joinPhrases.map fun _ => .unknown)
  broken s start (found.map (·.1)) stop

/-- The lines of a query, if it has SELECT and then FROM. -/
def queryLines (s : List Char) : Checked (Option (List Line)) := do
  let some select ← find s "SELECT" 0 (size s) | return none
  let fieldsStart := select + "SELECT".length
  let some tables ← find s "FROM" fieldsStart (size s) | return none
  let before ← slice s 0 select
  let keyword ← slice s select fieldsStart
  let (head, fields) ← takeModifier keyword (trim (← slice s fieldsStart tables))
  let list ← hanging head (← items fields)
  let clauses ← clausesFrom s (tables + "FROM".length)
  let joins ← tableLines s tables clauses
  return some (lineOf [] before ++ list ++ joins ++ (← clauseLines s clauses))

/-- The lines of an insertion, if it has INTO and then VALUES. -/
def insertionLines (s : List Char) : Checked (Option (List Line)) := do
  let some into ← find s "INTO" 0 (size s) | return none
  let targetStart := into + "INTO".length
  let some values ← find s "VALUES" targetStart (size s) | return none
  let valuesStop := values + "VALUES".length
  let head ← slice s 0 targetStart
  let target ← targetLines (trim head) (trim (← slice s targetStart values))
  let keyword ← slice s values valuesStop
  return some (target ++ (← valueLines keyword (trim (← slice s valuesStop (size s)))))

/-- The lines of an update, if it has SET. -/
def updateLines (s : List Char) : Checked (Option (List Line)) := do
  let some set ← find s "SET" 0 (size s) | return none
  let assignments := set + "SET".length
  let clauses ← clausesFrom s assignments
  let before ← slice s 0 set
  let entries ← items (← slice s assignments clauses)
  let list ← hanging (← slice s set assignments) entries
  return some (lineOf [] before ++ list ++ (← clauseLines s clauses))

/-- The lines for a statement of the kind, if its structure is found. -/
def linesOf (kind : Kind) (s : List Char) : Checked (Option (List Line)) :=
  match kind with
  | .query => queryLines s
  | .insert => insertionLines s
  | .update => updateLines s
  | .delete => some <$> clauseLines s 0
  | .other => pure none

/-- A statement that is already on one line, laid out. -/
def layOut (kind : Kind) (flat : List Char) : Checked (List Char) :=
  if flat.isEmpty then pure flat
  else do
    match ← linesOf kind flat with
    | some (line :: lines) => return joinWith ['\n'] (line :: lines)
    | _ => return flat

/-- The statement, laid out for its kind. -/
def format (kind : Kind) (sql : String) : Checked String :=
  String.ofList <$> layOut kind (collapse sql.toList)

section Layout
variable {s : List Char} {b i : Nat}

theorem tableLines_eq (hit : Hit s "FROM" i) (hstop : i + "FROM".length ≤ b) (hb : b ≤ s.length) :
    tableLines s (offset s i) (offset s b) = pure (Layout.tableLines (Scan.ofText s) i b) := by
  have htrail := trail_hits Layout.worded_join hb hstop
  have hcuts := (htrail.mono (Nat.le_add_right i _)).rising
  rw [tableLines, ← offset_hit (by decide) hit,
    hits_eq Layout.worded_join (Nat.le_trans hstop hb) hb, pure_bind, List.map_map,
    Layout.tableLines, ← broken_eq hcuts, List.map_map]
  rfl

theorem slice_front (s : List Char) (b : Nat) :
    slice s 0 (offset s b) = pure ((Scan.ofText s).slice 0 b) := slice_eq (Nat.zero_le b)

theorem slice_back {a : Nat} (ha : a ≤ s.length) :
    slice s (offset s a) (size s) = pure ((Scan.ofText s).slice a s.length) := by
  rw [← slice_eq ha, offset_length]

theorem find_front {p : String} (hp : Worded p) (s : List Char) :
    find s p 0 (size s) = pure (((Scan.ofText s).find p 0 s.length).map (offset s)) :=
  find_rest_eq hp (Nat.zero_le s.length)

theorem queryLines_eq (s : List Char) :
    queryLines s = pure (Layout.queryLines (Scan.ofText s)) := by
  have hselect : Worded "SELECT" := by decide
  have hfrom : Worded "FROM" := by decide
  rw [queryLines, Layout.queryLines, find_front hselect, pure_bind, length_ofText]
  cases h : (Scan.ofText s).find "SELECT" 0 s.length with
  | none => rfl
  | some i =>
    obtain ⟨-, -, hend, hit⟩ := find_le h
    dsimp only [Option.map_some]
    rw [← offset_hit hselect hit, find_rest_eq hfrom hend, pure_bind]
    dsimp only [Option.bind_eq_bind, Option.bind_some]
    cases h : (Scan.ofText s).find "FROM" (i + "SELECT".length) s.length with
    | none => rfl
    | some j =>
      obtain ⟨hij, -, hend', hit'⟩ := find_le h
      obtain ⟨hclauses, hle⟩ := clausesFrom_le hend'
      dsimp only [Option.map_some]
      rw [slice_front, pure_bind, slice_eq (Nat.le_add_right _ _), pure_bind, slice_eq hij,
        pure_bind, takeModifier_eq, pure_bind, items_eq, pure_bind, hanging_eq, pure_bind,
        ← offset_hit hfrom hit', clausesFrom_eq hend', pure_bind, tableLines_eq hit' hclauses hle,
        pure_bind, clauseLines_eq hle, pure_bind]
      rfl

theorem insertionLines_eq (s : List Char) :
    insertionLines s = pure (Layout.insertionLines (Scan.ofText s)) := by
  have hinto : Worded "INTO" := by decide
  have hvalues : Worded "VALUES" := by decide
  rw [insertionLines, Layout.insertionLines, find_front hinto, pure_bind, length_ofText]
  cases h : (Scan.ofText s).find "INTO" 0 s.length with
  | none => rfl
  | some i =>
    obtain ⟨-, -, hend, hit⟩ := find_le h
    dsimp only [Option.map_some]
    rw [← offset_hit hinto hit, find_rest_eq hvalues hend, pure_bind]
    dsimp only [Option.bind_eq_bind, Option.bind_some]
    cases h : (Scan.ofText s).find "VALUES" (i + "INTO".length) s.length with
    | none => rfl
    | some j =>
      obtain ⟨hij, -, hend', hit'⟩ := find_le h
      dsimp only [Option.map_some]
      rw [slice_front, pure_bind, slice_eq hij, pure_bind, targetLines_eq, pure_bind,
        ← offset_hit hvalues hit', slice_eq (Nat.le_add_right _ _), pure_bind, slice_back hend',
        pure_bind, valueLines_eq, pure_bind]
      rfl

theorem updateLines_eq (s : List Char) :
    updateLines s = pure (Layout.updateLines (Scan.ofText s)) := by
  have hset : Worded "SET" := by decide
  rw [updateLines, Layout.updateLines, find_front hset, pure_bind, length_ofText]
  cases h : (Scan.ofText s).find "SET" 0 s.length with
  | none => rfl
  | some i =>
    obtain ⟨-, -, hend, hit⟩ := find_le h
    obtain ⟨hclauses, hle⟩ := clausesFrom_le hend
    dsimp only [Option.map_some]
    rw [← offset_hit hset hit, clausesFrom_eq hend, pure_bind, slice_front, pure_bind,
      slice_eq hclauses, pure_bind, items_eq, pure_bind, slice_eq (Nat.le_add_right _ _), pure_bind,
      hanging_eq, pure_bind, clauseLines_eq hle, pure_bind]
    rfl

theorem linesOf_eq (kind : Kind) (s : List Char) :
    linesOf kind s = pure (Layout.linesOf kind (Scan.ofText s)) := by
  cases kind with
  | query => exact queryLines_eq s
  | insert => exact insertionLines_eq s
  | update => exact updateLines_eq s
  | delete =>
    have hlines := clauseLines_eq (Nat.zero_le s.length)
    rw [offset_zero] at hlines
    rw [linesOf, hlines, map_pure]
    rfl
  | other => rfl

theorem layOut_eq (kind : Kind) (flat : List Char) :
    layOut kind flat = pure (Layout.layOut kind flat) := by
  cases flat with
  | nil => cases kind <;> rfl
  | cons c flat =>
    rw [layOut, List.isEmpty_cons, if_neg Bool.false_ne_true, linesOf_eq, pure_bind, Layout.layOut]
    cases Layout.linesOf kind (Scan.ofText (c :: flat)) with
    | none => rfl
    | some lines => cases lines <;> rfl

/-- No access on the way to a layout is a fault. -/
theorem format_eq (kind : Kind) (sql : String) :
    format kind sql = pure (Layout.format kind sql) := by
  rw [format, layOut_eq, map_pure, Layout.format]

end Layout

end SqlRecovery.Bytewise
