import ProductTemplates.Calendar
import ProductTemplates.Decimal.Fraction
import ProductTemplates.Text.Blank

/-! Times in cache records. They are checked, not used: a date, a time of day and an offset, with
blanks allowed around each part. -/
namespace ProductTemplates.Timestamp

open Text (isBlank)

def skipBlanks (cs : List Char) : List Char := cs.dropWhile isBlank

def number? (most : Nat) (cs : List Char) : Option (Nat × List Char) := do
  let digits := (cs.take most).takeWhile Char.isDigit
  return (← Decimal.natural? 10 digits, cs.drop digits.length)

def mark? (mark : Char) (cs : List Char) : Option (List Char) :=
  match skipBlanks cs with
  | c :: rest => if c = mark then some rest else none
  | [] => none

/-- A year may have more than four digits if it has a sign. -/
def year? (cs : List Char) : Option (Int × List Char) :=
  match skipBlanks cs with
  | '-' :: rest => (number? rest.length rest).map fun (n, after) => (-(n : Int), after)
  | '+' :: rest => (number? rest.length rest).map fun (n, after) => ((n : Int), after)
  | rest => (number? 4 rest).map fun (n, after) => ((n : Int), after)

def date? (cs : List Char) : Option (List Char) := do
  let (year, cs) ← year? cs
  let cs ← mark? '-' cs
  let (month, cs) ← number? 2 (skipBlanks cs)
  let cs ← mark? '-' cs
  let (day, cs) ← number? 2 (skipBlanks cs)
  if -262143 ≤ year ∧ year ≤ 262142 ∧ Calendar.isDate year month day then some cs else none

/-- A time of day; a minute may have a leap second. -/
def time? (cs : List Char) : Option (List Char) := do
  let (hour, cs) ← number? 2 (skipBlanks cs)
  let cs ← mark? ':' cs
  let (minute, cs) ← number? 2 (skipBlanks cs)
  let cs ← mark? ':' cs
  let (second, cs) ← number? 2 (skipBlanks cs)
  if 23 < hour ∨ 59 < minute ∨ 60 < second then none
  match cs with
  | '.' :: rest => do
    let (_, _) ← number? 9 rest
    return rest.dropWhile Char.isDigit
  | _ => some cs

def offset? (cs : List Char) : Option (List Char) :=
  let signed (cs : List Char) : Option (List Char) := do
    let (hour, cs) ← two? cs
    let (minute, cs) ← two? (cs.dropWhile fun c => c == ':' || isBlank c)
    if hour ≤ 23 ∧ minute ≤ 59 then some cs else none
  match cs with
  | 'Z' :: rest => some rest
  | 'z' :: rest => some rest
  | '+' :: rest => signed rest
  | '-' :: rest => signed rest
  | '−' :: rest => signed rest
  | a :: b :: c :: rest =>
    if [a, b, c].map Char.toUpper = ['U', 'T', 'C'] then some rest else none
  | _ => none
where
  two? (cs : List Char) : Option (Nat × List Char) :=
    match cs with
    | a :: b :: rest => (Decimal.natural? 10 [a, b]).map (·, rest)
    | _ => none

def isTimestamp (text : String) : Bool :=
  let after := do
    let cs ← date? text.toList
    let cs ← match cs with
      | 'T' :: rest => some rest
      | 't' :: rest => some rest
      | ' ' :: rest => some rest
      | _ => none
    let cs ← time? cs
    offset? (skipBlanks cs)
  after.any fun rest => (skipBlanks rest).isEmpty

end ProductTemplates.Timestamp
