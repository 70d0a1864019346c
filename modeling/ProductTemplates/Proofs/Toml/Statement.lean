import ProductTemplates.Proofs.Except
import ProductTemplates.Proofs.Toml.Quoting
import ProductTemplates.Toml.Reader

/-! Statements line by line: a header opens its table, and an entry goes to the table that is
open. -/
namespace ProductTemplates.Toml

variable {c : Char} {name : String} {rest : List Char} {line : Nat} {s t : State} {p r : Cursor}

end ProductTemplates.Toml
