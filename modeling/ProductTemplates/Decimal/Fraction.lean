import ProductTemplates.Decimal.Shortest

/-! Reading numerals: whole numbers in any radix up to 16, and decimal fractions. -/
namespace ProductTemplates.Decimal

def digitValue? (radix : Nat) (c : Char) : Option Nat :=
  let v :=
    if '0' ≤ c ∧ c ≤ '9' then c.toNat - '0'.toNat
    else if 'a' ≤ c ∧ c ≤ 'f' then c.toNat - 'a'.toNat + 10
    else if 'A' ≤ c ∧ c ≤ 'F' then c.toNat - 'A'.toNat + 10
    else radix
  if v < radix then some v else none

/-- At least one digit and nothing else. -/
def natural? (radix : Nat) (cs : List Char) : Option Nat :=
  if cs.isEmpty then none
  else cs.foldlM (fun n c => (digitValue? radix c).map (n * radix + ·)) 0

structure Fraction where
  digits : Nat
  exponent : Int
deriving Repr, DecidableEq

def exponent? (cs : List Char) : Option Int :=
  match cs with
  | '-' :: rest => (natural? 10 rest).map fun n => -(n : Int)
  | '+' :: rest => (natural? 10 rest).map fun n => (n : Int)
  | _ => (natural? 10 cs).map fun n => (n : Int)

/-- Unsigned decimal text with an optional point and exponent, and a digit before or after the
point. -/
def fraction? (cs : List Char) : Option Fraction :=
  let whole := cs.takeWhile Char.isDigit
  let afterWhole := cs.dropWhile Char.isDigit
  let (part, rest) := match afterWhole with
    | '.' :: more => (more.takeWhile Char.isDigit, more.dropWhile Char.isDigit)
    | _ => ([], afterWhole)
  let power := match rest with
    | [] => some 0
    | 'e' :: more => exponent? more
    | 'E' :: more => exponent? more
    | _ => none
  match natural? 10 (whole ++ part), power with
  | some digits, some power => some ⟨digits, power - (part.length : Int)⟩
  | _, _ => none

/-- The nearest binary64 number; infinite from about 1.8e308 on. -/
def Fraction.float (f : Fraction) : Float :=
  let magnitude := f.exponent + (digitCount f.digits : Int)
  if f.digits = 0 ∨ magnitude < -400 then 0.0
  else if 400 < magnitude then 1.0 / 0.0
  else if f.exponent < 0 then Float.ofScientific f.digits true f.exponent.natAbs
  else Float.ofScientific f.digits false f.exponent.natAbs

end ProductTemplates.Decimal
