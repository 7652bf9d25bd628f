import SqlRecovery.Stream.Reader

/-! Files in a directory tree, found by paths, and the statements that they hold. The tree hangs at
a nameless place of a file system, so paths can lead out of it, and nothing but an empty name leads
into it. -/
namespace SqlRecovery.Stream
open Marker Logged

/-- What stands at a place of the file system. -/
inductive Node where
  | file (bytes : List UInt8)
  | directory
  deriving DecidableEq

/-- A place of the file system, by the names on the way from its top. -/
abbrev Place := List String

/-- A directory tree by the places of its files and directories in it. -/
structure Storage where
  entries : List (Place × Node)

/-- The longest name of a file, in bytes. -/
def nameLimit : Nat := 255

/-- The longest path, in bytes. -/
def pathLimit : Nat := 4095

/-- Where the tree hangs. A path cannot name it, because empty names are passed over. -/
def home : Place := ["tmp", ""]

/-- The directories that every file system has at its top. -/
def systemDirectories : List String :=
  ["bin", "dev", "etc", "home", "lib", "proc", "root", "sys", "tmp", "usr", "var"]

/-- The device from which nothing is read. -/
def nullDevice : Place := ["dev", "null"]

/-- What stands outside of the tree, as far as it is the same everywhere. -/
def systemNode? : Place → Option Node
  | [] => some .directory
  | [name] => if systemDirectories.contains name then some .directory else none
  | place => if place == nullDevice then some (.file []) else none

namespace Storage

/-- The node at a place in the tree. Its top and whatever lies on the way to an entry are
directories. -/
def inner? (s : Storage) (place : Place) : Option Node :=
  match s.entries.find? (·.1 == place) with
  | some entry => some entry.2
  | none =>
    if place.isEmpty || s.entries.any fun entry => place.isPrefixOf entry.1 then some .directory
    else none

/-- The node at a place of the file system. -/
def node? (s : Storage) (place : Place) : Option Node :=
  if home.isPrefixOf place then s.inner? (place.drop home.length) else systemNode? place

/-- Walk from a place along the names of a path. Only a directory can be walked through, and the
directory above the top is the top. -/
def walk (s : Storage) : Place → List String → Except IoFault Node
  | place, [] => match s.node? place with
    | some node => .ok node
    | none => .error .noSuchFile
  | place, name :: names => match s.node? place with
    | none => .error .noSuchFile
    | some (.file _) => .error .notADirectory
    | some .directory =>
      if name == "" || name == "." then s.walk place names
      else if name == ".." then s.walk place.dropLast names
      else if nameLimit < name.utf8ByteSize then .error .nameTooLong
      else s.walk (place ++ [name]) names

/-- The path begins at the top of the file system. -/
def isAbsolute (path : String) : Bool := path.toList.head? == some '/'

/-- The node that a path leads to, from the top of the file system or from that of the tree. -/
def find (s : Storage) (path : String) : Except IoFault Node :=
  if path.toList.contains '\x00' then .error .nulInName
  else if pathLimit < path.utf8ByteSize then .error .nameTooLong
  else s.walk (if isAbsolute path then [] else home) ((path.toList.splitOn '/').map String.ofList)

end Storage

/-- What reading an open node comes to. -/
def Node.events : Node → List ReadEvent
  | file bytes => [.chunk bytes]
  | directory => [.failed .isADirectory]

/-- A path as it is shown, with the name of the tree in front unless it is absolute. -/
def shownPath (root path : String) : String :=
  if Storage.isAbsolute path then path else root ++ "/" ++ path

/-- The statements of one file, read by a session of its own. -/
def ofFile (m : Markers) (s : Storage) (root path : String) :
    Logged (Session (List Statement)) (Except Failure (List Statement)) :=
  match s.find path with
  | .error reason => pure (.error (.inaccessible (shownPath root path) reason))
  | .ok node => do
    match ← collectEvents m node.events with
    | .error failure => return .error failure
    | .ok statements =>
      log .debug (shownPath root path ++ ": 还原 " ++ toString statements.length ++ " 条 SQL")
      return .ok statements

/-- The statements of several files in their order. No statement reaches from one file into
another. -/
def ofFiles (m : Markers) (s : Storage) (root : String) :
    List String → Logged Unit (List (Except Failure (List Statement)))
  | [] => pure []
  | path :: paths => do
    let first ← (ofFile m s root path).onPart (fun _ => Session.fresh []) fun _ u => u
    let others ← ofFiles m s root paths
    return first :: others

end SqlRecovery.Stream
