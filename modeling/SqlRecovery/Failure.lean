/-! What can go wrong outside the recovery itself, which never fails. -/
namespace SqlRecovery

/-- A refusal of the operating system, with its number where it has one. -/
inductive IoFault where
  | noSuchFile
  | notADirectory
  | isADirectory
  | nameTooLong
  | nulInName
  | other (text : String)
  deriving DecidableEq, Repr

/-- The system's words for a refusal. -/
def IoFault.message : IoFault → String
  | noSuchFile => "No such file or directory (os error 2)"
  | notADirectory => "Not a directory (os error 20)"
  | isADirectory => "Is a directory (os error 21)"
  | nameTooLong => "File name too long (os error 36)"
  | nulInName => "file name contained an unexpected NUL byte"
  | other text => text

/-- Why a marker configuration cannot be used. -/
inductive ConfigFault where
  | emptyToken
  | refusedPattern (words : String)
  deriving DecidableEq, Repr

/-- The words for a configuration that cannot be used. -/
def ConfigFault.message : ConfigFault → String
  | emptyToken => "statement and parameters tokens must not be empty"
  | refusedPattern words => words

/-- A failure of an operation that reads files or needs a configuration. -/
inductive Failure where
  | inaccessible (path : String) (reason : IoFault)
  | io (reason : IoFault)
  | config (reason : ConfigFault)
  | unwatchable (path : String)
  deriving DecidableEq, Repr

/-- The words for a failure. -/
def Failure.message : Failure → String
  | inaccessible path reason =>
    "file not found or inaccessible: " ++ path ++ ": " ++ reason.message
  | io reason => "io error: " ++ reason.message
  | config reason => "invalid parser config: " ++ reason.message
  | unwatchable path =>
    "watch error: failed to watch file: No path was found. about [\"" ++ path ++ "\"]"

end SqlRecovery
