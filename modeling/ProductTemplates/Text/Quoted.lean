import ProductTemplates.Text.Glyph

/-! Text between double quotes, as it is shown to a reader: what has no glyph appears by its
code point. -/
namespace ProductTemplates.Text

def hexText (n : Nat) : String := String.ofList (Nat.toDigits 16 n)

def shown (c : Char) : String :=
  match c with
  | '\t' => "\\t"
  | '\n' => "\\n"
  | '\r' => "\\r"
  | '\x00' => "\\0"
  | '"' => "\\\""
  | '\\' => "\\\\"
  | c => if hasGlyph c then c.toString else "\\u\x7b" ++ hexText c.toNat ++ "\x7d"

def quoted (s : String) : String := "\"" ++ String.join (s.toList.map shown) ++ "\""

end ProductTemplates.Text
