import ProductTemplates.Decimal.Notation

/-! The lines around a place of a text, each with its number. -/
namespace ProductTemplates.Text

/-- The lines of a text, without their ends. A line feed at the end of the text starts no further
line, and a carriage return belongs to a line's end only in front of a line feed. -/
def lines : List Char → List (List Char)
  | [] => []
  | '\n' :: rest => [] :: lines rest
  | '\r' :: '\n' :: rest => [] :: lines rest
  | c :: rest =>
    match lines rest with
    | [] => [[c]]
    | line :: more => (c :: line) :: more

/-- The text at the end of at least `width` places. -/
def padLeft (width : Nat) (s : String) : String :=
  String.ofList (List.replicate (width - s.length) ' ') ++ s

/-- The text at the start of at least `width` places. -/
def padRight (width : Nat) (s : String) : String :=
  s ++ String.ofList (List.replicate (width - s.length) ' ')

def excerptLine (marked : Bool) (number : Nat) (line : List Char) : String :=
  (if marked then ">>> " else "    ") ++ padLeft 4 (Decimal.naturalText number) ++ " | " ++
    String.ofList line

/-- The numbered lines from the one before line `n` to the one after it. -/
def window (n : Nat) (ls : List (List Char)) : List (Nat × List Char) :=
  let first := n - 2
  let last := min (n + 1) ls.length
  ((ls.take last).drop first).zipIdx (first + 1) |>.map fun (line, number) => (number, line)

def excerpt (text : String) (n : Nat) : String :=
  "\n".intercalate ((window n (lines text.toList)).map fun (number, line) =>
    excerptLine (number = n) number line)

end ProductTemplates.Text
