import ProductTemplates.Value

/-! JSON as it is written: the data, the two layouts, and which values have a JSON form.
Reading is `ProductTemplates.Json.Reader`. -/
namespace ProductTemplates

inductive Json where
  | null
  | bool (b : Bool)
  | number (n : Number)
  | string (s : String)
  | array (items : List Json)
  | object (members : List (String × Json))
deriving Repr, Inhabited

namespace Json

def hexDigit (n : Nat) : Char := Nat.digitChar n

/-- Quotes, backslashes and control characters are escaped, all else stands for itself. -/
def escape (c : Char) : List Char :=
  match c with
  | '"' => ['\\', '"']
  | '\\' => ['\\', '\\']
  | '\n' => ['\\', 'n']
  | '\r' => ['\\', 'r']
  | '\t' => ['\\', 't']
  | '\x08' => ['\\', 'b']
  | '\x0c' => ['\\', 'f']
  | c =>
    if c.toNat < 0x20 then
      ['\\', 'u', '0', '0', hexDigit (c.toNat / 16), hexDigit (c.toNat % 16)]
    else [c]

def quoted (s : String) : List Char := '"' :: s.toList.flatMap escape ++ ['"']

/-- JSON has no infinities and no not-a-number; they are written as `null`. -/
def numberText : Number → List Char
  | .integer n => (Decimal.integerText n).toList
  | .float x => if x.isFinite then (Decimal.finiteText x).toList else "null".toList

def word (b : Bool) : List Char := if b then "true".toList else "false".toList

mutual
def compact : Json → List Char
  | null => "null".toList
  | bool b => word b
  | number n => numberText n
  | string s => quoted s
  | array [] => ['[', ']']
  | array (x :: xs) => '[' :: compact x ++ compactItems xs
  | object [] => ['{', '}']
  | object ((k, v) :: ms) => '{' :: quoted k ++ ':' :: compact v ++ compactMembers ms
def compactItems : List Json → List Char
  | [] => [']']
  | x :: xs => ',' :: compact x ++ compactItems xs
def compactMembers : List (String × Json) → List Char
  | [] => ['}']
  | (k, v) :: ms => ',' :: quoted k ++ ':' :: compact v ++ compactMembers ms
end

def newLine (depth : Nat) : List Char := '\n' :: List.replicate (2 * depth) ' '

mutual
def indented (depth : Nat) : Json → List Char
  | null => "null".toList
  | bool b => word b
  | number n => numberText n
  | string s => quoted s
  | array [] => ['[', ']']
  | array (x :: xs) =>
    '[' :: newLine (depth + 1) ++ indented (depth + 1) x ++ indentedItems depth xs
  | object [] => ['{', '}']
  | object ((k, v) :: ms) =>
    '{' :: newLine (depth + 1) ++ quoted k ++ ':' :: ' ' :: indented (depth + 1) v
      ++ indentedMembers depth ms
def indentedItems (depth : Nat) : List Json → List Char
  | [] => newLine depth ++ [']']
  | x :: xs => ',' :: newLine (depth + 1) ++ indented (depth + 1) x ++ indentedItems depth xs
def indentedMembers (depth : Nat) : List (String × Json) → List Char
  | [] => newLine depth ++ ['}']
  | (k, v) :: ms =>
    ',' :: newLine (depth + 1) ++ quoted k ++ ':' :: ' ' :: indented (depth + 1) v
      ++ indentedMembers depth ms
end

def compactText (j : Json) : String := String.ofList j.compact

def prettyText (j : Json) : String := String.ofList (j.indented 0)

end Json

/-- Why a value has no JSON form: a member's name must be text. -/
inductive UnwritableKey where
  | notText
  | notFinite
deriving Repr, DecidableEq

namespace UnwritableKey

def message : UnwritableKey → String
  | notText => "key must be a string"
  | notFinite => "float key must be finite (got NaN or +/-inf)"

end UnwritableKey

namespace Value

/-- Numbers and truth values become text when they name a member. -/
def memberName : Value → Except UnwritableKey String
  | string s => .ok s
  | bool b => .ok (String.ofList (Json.word b))
  | number (.integer n) => .ok (Decimal.integerText n)
  | number (.float x) => if x.isFinite then .ok (Decimal.finiteText x) else .error .notFinite
  | _ => .error .notText

/-- How a tag is written. A tag that is a lone `!` gets a second one. -/
def tagText (tag : String) : String := "!" ++ tag

mutual
/-- A tagged value is written as an object with one member named by the tag. -/
def toJson : Value → Except UnwritableKey Json
  | null => .ok .null
  | bool b => .ok (.bool b)
  | number n => .ok (.number n)
  | string s => .ok (.string s)
  | sequence xs => do return .array (← toJsonItems xs)
  | mapping es => do return .object (← toJsonMembers es)
  | tagged t v => do return .object [(tagText t, ← toJson v)]
def toJsonItems : List Value → Except UnwritableKey (List Json)
  | [] => .ok []
  | x :: xs => do
    let j ← toJson x
    return j :: (← toJsonItems xs)
def toJsonMembers : List (Value × Value) → Except UnwritableKey (List (String × Json))
  | [] => .ok []
  | (k, v) :: es => do
    let name ← memberName k
    let j ← toJson v
    return (name, j) :: (← toJsonMembers es)
end

end Value
end ProductTemplates
