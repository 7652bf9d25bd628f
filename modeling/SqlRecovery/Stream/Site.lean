import SqlRecovery.Stream.Follower

/-! A followed file together with what happens to it: every statement that is handed over may cause
one change of the file, and changes of a watched file cause notices. -/
namespace SqlRecovery.Stream
open Logged

/-- A change of the file. -/
inductive Change where
  | replace (bytes : List UInt8)
  | append (bytes : List UInt8)
  | delete
  deriving DecidableEq

/-- The file, the notices that wait, the changes still to come, and the statements received. -/
structure Site where
  contents : Option (List UInt8)
  watched : Bool
  notices : Nat
  coming : List Change
  received : List Statement

namespace Site

/-- No file, and nothing will happen. -/
def empty : Site := ⟨none, false, 0, [], []⟩

/-- Notices arrive, if the file is watched. -/
def alert (site : Site) (count : Nat) : Site :=
  if site.watched then { site with notices := site.notices + count } else site

/-- A change happens. Replacing a file first empties it. A deleted file is no longer watched, and a
file that takes its place is not either. -/
def undergo (site : Site) : Change → Site
  | .replace bytes =>
    { site.alert (if bytes.isEmpty then 1 else 2) with contents := some bytes }
  | .append bytes =>
    { site.alert (if bytes.isEmpty then 0 else 1) with
      contents := some (site.contents.getD [] ++ bytes) }
  | .delete => { site.alert 1 with contents := none, watched := false }

/-- A statement arrives and causes the next change. -/
def receive (site : Site) (statement : Statement) : Site :=
  let site := { site with received := site.received ++ [statement] }
  match site.coming with
  | [] => site
  | change :: coming => { site with coming }.undergo change

/-- The sink of the site. -/
def accept : Sink Site := fun statement => modify (·.receive statement)

/-- The site as the surroundings of its follower. -/
def surroundings : Surroundings Site where
  contents := Site.contents
  notice site := match site.notices with
    | 0 => none
    | n + 1 => some { site with notices := n }

/-- Begin to watch the file, with changes to come. -/
def watching (site : Site) (coming : List Change) : Site :=
  { site with watched := site.contents.isSome, notices := 0, coming }

/-- No more notices than this can arrive. -/
def noticeBound (site : Site) : Nat := site.notices + 2 * site.coming.length

end Site

end SqlRecovery.Stream
