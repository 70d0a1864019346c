import ProductTemplates.Calendar
import ProductTemplates.Decimal.Fraction
import ProductTemplates.Toml.Node

/-! Scalars of TOML without quotes: truth values, integers, floats, dates and times. Each reader
takes its scalar off the front of the characters. -/
namespace ProductTemplates.Toml

open Decimal

/-- Digits, between which single underscores may stand; the last character must be a digit. -/
def digitRun? (radix : Nat) (afterDigit : Bool) : List Char → Option (List Char × List Char)
  | [] => if afterDigit then some ([], []) else none
  | c :: rest =>
    if (digitValue? radix c).isSome then do
      let (digits, after) ← digitRun? radix true rest
      return (c :: digits, after)
    else if !afterDigit then none
    else if c == '_' then digitRun? radix false rest
    else some ([], c :: rest)

def digits? (radix : Nat) (cs : List Char) : Option (List Char × List Char) :=
  digitRun? radix false cs

/-- Digits of a decimal number, without a needless zero in front. -/
def wholeDigits? (cs : List Char) : Option (List Char × List Char) := do
  let (digits, after) ← digits? 10 cs
  match digits with
  | '0' :: _ :: _ => none
  | _ => some (digits, after)

def splitSign : List Char → Bool × List Char
  | '-' :: rest => (true, rest)
  | '+' :: rest => (false, rest)
  | cs => (false, cs)

/-- Integers have 64 bits and a sign. A radix mark allows no sign in front of it. -/
def integer? (cs : List Char) : Option (Scalar × List Char) := do
  let marked (radix : Nat) (rest : List Char) : Option (Int × List Char) := do
    let (digits, after) ← digits? radix rest
    return ((← natural? radix digits : Nat), after)
  let (n, after) ← match cs with
    | '0' :: 'x' :: rest => marked 16 rest
    | '0' :: 'o' :: rest => marked 8 rest
    | '0' :: 'b' :: rest => marked 2 rest
    | _ => do
      let (negative, rest) := splitSign cs
      let (digits, after) ← wholeDigits? rest
      let n : Int := (← natural? 10 digits : Nat)
      pure (if negative then -n else n, after)
  if -Int.pow 2 63 ≤ n ∧ n < Int.pow 2 63 then return (.integer n, after) else none

def pointDigits? (cs : List Char) : Option (List Char × List Char) :=
  match cs with
  | '.' :: rest => digits? 10 rest
  | _ => some ([], cs)

def power? (cs : List Char) : Option (Option Int × List Char) :=
  let signed (rest : List Char) : Option (Option Int × List Char) := do
    let (negative, rest) := splitSign rest
    let (digits, after) ← digits? 10 rest
    let n : Int := (← natural? 10 digits : Nat)
    return (some (if negative then -n else n), after)
  match cs with
  | 'e' :: rest => signed rest
  | 'E' :: rest => signed rest
  | _ => some (none, cs)

/-- A float has a point or an exponent. One that is too large is a fault, though not if it is
negative. -/
def float? (cs : List Char) : Option (Scalar × List Char) := do
  let (negative, rest) := splitSign cs
  match rest with
  | 'i' :: 'n' :: 'f' :: after =>
    return (.float (if negative then -1.0 / 0.0 else 1.0 / 0.0), after)
  | 'n' :: 'a' :: 'n' :: after => return (.float (0.0 / 0.0), after)
  | _ =>
    let (whole, rest) ← wholeDigits? rest
    let (part, rest) ← pointDigits? rest
    let (power, after) ← power? rest
    if part.isEmpty && power.isNone then none
    let fraction : Fraction := ⟨← natural? 10 (whole ++ part), power.getD 0 - part.length⟩
    let x := if negative then -fraction.float else fraction.float
    if x.isInf && !negative then none else some (.float x, after)

def field? (count : Nat) (cs : List Char) : Option (Nat × List Char) := do
  let digits := cs.take count
  if digits.length < count then none
  return (← natural? 10 digits, cs.drop count)

def date? (cs : List Char) : Option (List Char) := do
  let (year, cs) ← field? 4 cs
  let '-' :: cs := cs | none
  let (month, cs) ← field? 2 cs
  let '-' :: cs := cs | none
  let (day, cs) ← field? 2 cs
  if Calendar.isDate year month day then some cs else none

def clock? (cs : List Char) : Option (List Char) := do
  let (hour, cs) ← field? 2 cs
  let ':' :: cs := cs | none
  let (minute, cs) ← field? 2 cs
  if hour ≤ 23 ∧ minute ≤ 59 then some cs else none

/-- A time of day; a minute may have a leap second. -/
def time? (cs : List Char) : Option (List Char) := do
  let cs ← clock? cs
  let ':' :: cs := cs | none
  let (second, cs) ← field? 2 cs
  if 60 < second then none
  match cs with
  | '.' :: rest =>
    if (rest.takeWhile Char.isDigit).isEmpty then none else some (rest.dropWhile Char.isDigit)
  | _ => some cs

def offset? (cs : List Char) : Option (List Char) :=
  match cs with
  | 'Z' :: rest => some rest
  | 'z' :: rest => some rest
  | '+' :: rest => clock? rest
  | '-' :: rest => clock? rest
  | _ => some cs

def moment? (cs : List Char) : Option (Scalar × List Char) :=
  match date? cs with
  | none => (time? cs).map fun rest => (.moment, rest)
  | some rest =>
    let after := match rest with
      | 'T' :: more => time? more
      | 't' :: more => time? more
      | ' ' :: more => time? more
      | _ => none
    match after with
    | none => some (.moment, rest)
    | some after => (offset? after).map fun rest => (.moment, rest)

def bare? (cs : List Char) : Option (Scalar × List Char) :=
  match cs with
  | 't' :: 'r' :: 'u' :: 'e' :: rest => some (.boolean true, rest)
  | 'f' :: 'a' :: 'l' :: 's' :: 'e' :: rest => some (.boolean false, rest)
  | _ => moment? cs <|> float? cs <|> integer? cs

end ProductTemplates.Toml
