import SqlRecovery.Calendar.Reading
import SqlRecovery.Json.Numeral
import SqlRecovery.Json.Reader
import SqlRecovery.Json.Writer
import SqlRecovery.Statement

/-! Values, parameters and statements as JSON. A value is an object whose one member is named for
the kind of value; a value without content may be the name alone. A record is an object with its
fields, in any order and with others between them, or an array of the fields in order. Only so many
containers may be nested. -/
namespace SqlRecovery.Json
open Sql Calendar Number

/-- How many containers may be open at a time. -/
def nestingLimit : Nat := 127

/-- The fields of a record. Every field must be there once. -/
def fields? (names : List String) : Tree → Option (List Tree)
  | .array items => if items.length = names.length then some items else none
  | .object members =>
    if members.any fun m => m.1.isNone then none
    else names.mapM fun name => match members.filter fun m => m.1 == some name with
      | [m] => some m.2
      | _ => none
  | _ => none

mutual

/-- A value as a tree. -/
def ofValue : Value → Tree
  | .null => .text "Null"
  | .text s => .record [("Text", .text s)]
  | .integer n => .record [("Integer", .int n.toInt)]
  | .long n => .record [("Long", .int n.toInt)]
  | .double x => .record [("Double", .ofBinary64 x)]
  | .boolean b => .record [("Boolean", .bool b)]
  | .raw s => .record [("RawText", .text s)]
  | .moment m => .record [("Timestamp", .text (String.ofList m.isoText))]
  | .list values => .record [("List", .array (ofValues values))]

/-- Values as trees. -/
def ofValues : List Value → List Tree
  | [] => []
  | v :: values => ofValue v :: ofValues values

end

/-- The content of a value of the named kind, a list apart. -/
def scalar? (name : String) : Tree → Option Value
  | .null => if name == "Null" then some .null else none
  | .bool b => if name == "Boolean" then some (.boolean b) else none
  | .number n =>
    if name == "Integer" then (n.int?.bind toInt32?).map .integer
    else if name == "Long" then (n.int?.bind toInt64?).map .long
    else if name == "Double" then n.double?.map .double
    else none
  | .string (some s) =>
    if name == "Text" then some (.text s)
    else if name == "RawText" then some (.raw s)
    else if name == "Timestamp" then (Moment.read? s.toList).map .moment
    else none
  | _ => none

/-- The value of a tree, with so many containers left to open. -/
def value? : Nat → Tree → Option Value
  | 0, t => if t.text? == some "Null" then some .null else none
  | n + 1, t =>
    match t with
    | .object [(some "List", .array items)] => match n with
      | 0 => none
      | m + 1 => (items.mapM (value? m)).map .list
    | .object [(some name, content)] => scalar? name content
    | t => if t.text? == some "Null" then some .null else none

/-- A parameter as a tree. -/
def ofParameter (p : Parameter) : Tree :=
  .record [("value", ofValue p.value), ("raw", .text p.raw)]

/-- The parameter of a tree. -/
def parameter? : Nat → Tree → Option Parameter
  | 0, _ => none
  | n + 1, t => match fields? ["value", "raw"] t with
    | some [v, raw] => do return ⟨← value? n v, ← raw.text?⟩
    | _ => none

/-- The name of a kind. -/
def kindName : Kind → String
  | .query => "Query"
  | .insert => "Insert"
  | .update => "Update"
  | .delete => "Delete"
  | .other => "Other"

/-- The kind of a name. -/
def kindOf? (name : String) : Option Kind :=
  [Kind.query, .insert, .update, .delete, .other].find? (kindName · == name)

/-- The kind of a tree. -/
def kind? : Nat → Tree → Option Kind
  | _ + 1, .object [(some name, .null)] => kindOf? name
  | _, t => t.text?.bind kindOf?

/-- A statement as a tree. -/
def ofStatement (s : Statement) : Tree :=
  .record [("original_statement", .text s.logged), ("formatted_statement", .text s.formatted),
    ("kind", .text (kindName s.kind)), ("label", .text s.label),
    ("parameters", .array (s.parameters.map ofParameter))]

/-- The parameters of a tree. -/
def parameters? : Nat → Tree → Option (List Parameter)
  | n + 1, .array items => items.mapM (parameter? n)
  | _, _ => none

/-- The statement of a tree. -/
def statement? : Nat → Tree → Option Statement
  | 0, _ => none
  | n + 1, t =>
    match fields? ["original_statement", "formatted_statement", "kind", "label", "parameters"] t with
    | some [logged, formatted, kind, label, parameters] => do
      return ⟨← logged.text?, ← formatted.text?, ← kind? n kind, ← label.text?,
        ← parameters? n parameters⟩
    | _ => none

/-- A value from its JSON text. -/
def readValueText (s : String) : Option Value := (Tree.read? s.toList).bind (value? nestingLimit)

/-- A parameter from its JSON text. -/
def readParameterText (s : String) : Option Parameter :=
  (Tree.read? s.toList).bind (parameter? nestingLimit)

/-- A kind from its JSON text. -/
def readKindText (s : String) : Option Kind := (Tree.read? s.toList).bind (kind? nestingLimit)

/-- A statement from its JSON text. -/
def readStatementText (s : String) : Option Statement :=
  (Tree.read? s.toList).bind (statement? nestingLimit)

end SqlRecovery.Json
