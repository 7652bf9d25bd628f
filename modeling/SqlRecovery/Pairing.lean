import SqlRecovery.Journal
import SqlRecovery.LogLine.Continuation
import SqlRecovery.Marker.Config
import SqlRecovery.Statement

/-! Pairing statement lines with parameters lines. At most one statement waits: a statement marker
begins a new one, lines that continue it are collected, and a parameters marker completes it. -/
namespace SqlRecovery
open Text Marker LogLine

/-- The waiting statement, whole and in the fragments that it was collected from. -/
structure Slot where
  pending : Option String
  fragments : List String
  deriving DecidableEq

namespace Slot

/-- Nothing waits. -/
def empty : Slot := ⟨none, []⟩

/-- A statement of one fragment waits. -/
def only (sql : String) : Slot := ⟨some sql, [sql]⟩

/-- The waiting statement with one more fragment, behind a space. -/
def extend (slot : Slot) (fragment : String) : Slot :=
  let fragments := slot.fragments ++ [fragment]
  ⟨some (" ".intercalate fragments), fragments⟩

end Slot

namespace Pairing
open Logged

/-- Take the waiting statement out. Its fragments stay for now. -/
def take : Logged Slot (Option String) := do
  let slot ← get
  modify fun slot => { slot with pending := none }
  return slot.pending

/-- A statement begins. One that still waits is given up. -/
def start (sql : String) : Logged Slot Unit := do
  match ← take with
  | some previous => log .warn ("未等到参数行，丢弃待定语句: " ++ previous)
  | none => pure ()
  log .debug ("Preparing: " ++ sql)
  modify fun _ => .only sql

/-- A line behind the beginning of a statement. -/
def collect (m : Markers) (line : String) : Logged Slot Unit :=
  let trimmed := trim line.toList
  let shown := String.ofList trimmed
  if m.startsWithSentinel trimmed then log .debug ("跳过标记行: " ++ shown)
  else if isContinuation trimmed then do
    log .trace ("收集 SQL 延续行: " ++ shown)
    modify (·.extend shown)
  else log .debug ("跳过非 SQL 行: " ++ shown)

/-- Whether the line may continue a waiting statement. -/
def mayContinue (m : Markers) (slot : Slot) (line : String) : Bool :=
  slot.pending.isSome && !m.mentionsParameters line.toList

/-- The parameters of the waiting statement have come with a line. -/
def finish (line text : String) : Logged Slot (Option Statement) := do
  match ← take with
  | none =>
    log .warn ("忽略没有对应 Preparing 行的参数行: " ++ line)
    return none
  | some sql =>
    modify fun slot => { slot with fragments := [] }
    let statement := Statement.complete sql text
    log .info ("还原 SQL [" ++ statement.label ++ "]: " ++
      toString statement.parameters.length ++ " 个参数")
    return some statement

/-- A line that is neither blank nor a statement marker. -/
def readOn (m : Markers) (line : String) : Logged Slot (Option Statement) := do
  if mayContinue m (← get) line then collect m line
  match m.parameters? line.toList with
  | none => return none
  | some text => finish line (String.ofList text)

/-- One line of the log. It gives a statement if it completes one. -/
def readLine (m : Markers) (line : String) : Logged Slot (Option Statement) :=
  if allBlank line.toList then pure none
  else match m.statement? line.toList with
    | some sql => do
      start (String.ofList sql)
      return none
    | none => readOn m line

/-- One line of a stream. A failure while it is read empties the slot and is reported. -/
def guardedLine (m : Markers) (line : String) : Logged Slot (Option Statement) :=
  recover (readLine m line) fun words => do
    log .error ("解析日志行失败: " ++ words ++ " (" ++ line ++ ")")
    modify fun _ => .empty
    return none

end Pairing

end SqlRecovery
