import SqlRecovery.Calendar.Moment
import SqlRecovery.Number.DoubleText

/-! Parameter values, their text, and the literals that stand for them in a statement. -/
namespace SqlRecovery

/-- A typed parameter value. Reading a log gives no moments and no lists. -/
inductive Value where
  | null
  | text (s : String)
  | integer (n : Int32)
  | long (n : Int64)
  | double (x : Number.Binary64)
  | boolean (b : Bool)
  | raw (s : String)
  | moment (m : Calendar.Moment)
  | list (values : List Value)

namespace Value
open Number

mutual

/-- The text of a value. -/
def display : Value → List Char
  | .null => "null".toList
  | .text s => s.toList
  | .integer n => decimal n.toInt
  | .long n => decimal n.toInt
  | .double x => doubleText x
  | .boolean b => if b then "true".toList else "false".toList
  | .raw s => s.toList
  | .moment m => m.sqlText
  | .list values => '[' :: displayAll values ++ [']']

/-- The texts of values with commas between them. -/
def displayAll : List Value → List Char
  | [] => []
  | [v] => v.display
  | v :: w :: values => v.display ++ ',' :: ' ' :: displayAll (w :: values)

end

/-- The text between quotes. Nothing in it is escaped. -/
def quoted (s : List Char) : List Char := '\x27' :: s ++ ['\x27']

/-- What stands for the value in a statement. -/
def literal (v : Value) : List Char :=
  match v with
  | .boolean b => if b then ['1'] else ['0']
  | .text s | .raw s => quoted s.toList
  | .moment _ => quoted v.display
  | .null | .integer _ | .long _ | .double _ | .list _ => v.display

mutual

/-- Equality of values. Doubles are compared as numbers, so no NaN equals itself. -/
def same : Value → Value → Bool
  | .null, .null => true
  | .text s, .text t => s == t
  | .integer m, .integer n => m == n
  | .long m, .long n => m == n
  | .double x, .double y => x.sameNumber y
  | .boolean a, .boolean b => a == b
  | .raw s, .raw t => s == t
  | .moment m, .moment n => m == n
  | .list vs, .list ws => sameAll vs ws
  | _, _ => false

/-- Equality of lists of values. -/
def sameAll : List Value → List Value → Bool
  | [], [] => true
  | v :: vs, w :: ws => v.same w && sameAll vs ws
  | _, _ => false

end

end Value

/-- A parameter: its value and the token that it was read from. -/
structure Parameter where
  value : Value
  raw : String

/-- What stands for the parameter in a statement. -/
def Parameter.literal (p : Parameter) : List Char := p.value.literal

end SqlRecovery
