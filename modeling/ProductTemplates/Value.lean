import ProductTemplates.Decimal.Notation

/-! Values that the templates carry along without interpreting them: what an author may write
below `processControl` or as an attribute of a parameter. -/
namespace ProductTemplates

/-- Integers have 64 bits, signed or unsigned; anything with a point or an exponent is a float. -/
inductive Number where
  | integer (n : Int)
  | float (x : Float)
deriving Repr, DecidableEq, Inhabited

namespace Number

/-- `.nan`, `.inf` and `-.inf` name the numbers without digits. -/
def text : Number → String
  | integer n => Decimal.integerText n
  | float x =>
    if x.isNaN then ".nan"
    else if x.isInf then (if x < 0 then "-.inf" else ".inf")
    else Decimal.finiteText x

/-- As mapping keys all not-a-numbers are one, and so are the two zeros. -/
def same : Number → Number → Bool
  | integer a, integer b => a == b
  | float a, float b => a == b || (a.isNaN && b.isNaN)
  | _, _ => false

end Number

/-- A mapping keeps the order in which it was written; a local tag stays with its value. -/
inductive Value where
  | null
  | bool (b : Bool)
  | number (n : Number)
  | string (s : String)
  | sequence (items : List Value)
  | mapping (entries : List (Value × Value))
  | tagged (tag : String) (value : Value)
deriving Repr, Inhabited

namespace Value

mutual
def same : Value → Value → Bool
  | null, null => true
  | bool a, bool b => a == b
  | number a, number b => a.same b
  | string a, string b => a == b
  | sequence xs, sequence ys => sameItems xs ys
  | mapping xs, mapping ys => xs.length == ys.length && entriesAmong xs ys
  | tagged s v, tagged t w => s == t && v.same w
  | _, _ => false
def sameItems : List Value → List Value → Bool
  | [], [] => true
  | x :: xs, y :: ys => x.same y && sameItems xs ys
  | _, _ => false
def entriesAmong : List (Value × Value) → List (Value × Value) → Bool
  | [], _ => true
  | (k, v) :: rest, ys => ys.any (fun e => k.same e.1 && v.same e.2) && entriesAmong rest ys
end

/-- A mapping with text keys, such as a record is written as. -/
def record (fields : List (String × Value)) : Value :=
  mapping (fields.map fun f => (string f.1, f.2))

end Value
end ProductTemplates
