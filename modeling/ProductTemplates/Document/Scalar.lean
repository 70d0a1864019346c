import ProductTemplates.Decimal.Fraction
import ProductTemplates.Value

/-! Scalars of a document. Either the format says what a scalar is (`atom`), or it stands in the
document as text whose meaning depends on who reads it (`written`). `Plain` holds the rule for
untagged unquoted text: what looks like a number is one. -/
namespace ProductTemplates.Document

inductive Atom where
  | null
  | bool (b : Bool)
  | number (n : Number)
  | string (s : String)
deriving Repr, DecidableEq, Inhabited

def Atom.value : Atom → Value
  | null => .null
  | bool b => .bool b
  | number n => .number n
  | string s => .string s

/-- A written scalar is plain when it is neither quoted nor a block. -/
inductive Scalar where
  | atom (a : Atom)
  | written (text : String) (plain : Bool) (tag : Option String)
deriving Repr, DecidableEq, Inhabited

namespace Plain

open Decimal (natural? fraction?)

def isNull (text : String) : Bool := ["null", "Null", "NULL", "~"].contains text

def bool? (text : String) : Option Bool :=
  if ["true", "True", "TRUE"].contains text then some true
  else if ["false", "False", "FALSE"].contains text then some false
  else none

/-- A number that begins with a needless zero is text. -/
def isZeroPadded (cs : List Char) : Bool :=
  let cs := match cs with
    | '-' :: rest => rest
    | '+' :: rest => rest
    | _ => cs
  match cs with
  | '0' :: rest => !rest.isEmpty && rest.all Char.isDigit
  | _ => false

/-- The integer that a text stands for, of any size. A sign may stand before the radix mark. -/
def integer? (cs : List Char) : Option Int :=
  let marked (cs : List Char) : Option Nat :=
    match cs with
    | '0' :: 'x' :: rest => natural? 16 rest
    | '0' :: 'o' :: rest => natural? 8 rest
    | '0' :: 'b' :: rest => natural? 2 rest
    | _ => none
  let decimal (digits : List Char) : Option Nat :=
    if isZeroPadded cs then none else natural? 10 digits
  match cs with
  | '-' :: rest => (marked rest <|> decimal rest).map fun n => -(n : Int)
  | '+' :: rest => (marked rest <|> decimal rest).map fun n => (n : Int)
  | _ => (marked cs <|> decimal cs).map fun n => (n : Int)

/-- What becomes of an integer: in the 64-bit ranges it is a number, in the 128-bit ranges it is
refused, and beyond it is no integer at all. -/
inductive Range where
  | number
  | refused
  | beyond
deriving Repr, DecidableEq

def rangeOf (n : Int) : Range :=
  if -Int.pow 2 63 ≤ n ∧ n < Int.pow 2 64 then .number
  else if -Int.pow 2 127 ≤ n ∧ n < Int.pow 2 128 then .refused
  else .beyond

/-- The float that a text stands for. A fraction too large for binary64 is text. -/
def float? (text : String) : Option Float :=
  let finite (cs : List Char) : Option Float :=
    (fraction? cs).bind fun f => let x := f.float; if x.isFinite then some x else none
  if [".inf", ".Inf", ".INF", "+.inf", "+.Inf", "+.INF"].contains text then some (1.0 / 0.0)
  else if ["-.inf", "-.Inf", "-.INF"].contains text then some (-1.0 / 0.0)
  else if [".nan", ".NaN", ".NAN"].contains text then some (0.0 / 0.0)
  else match text.toList with
    | '-' :: rest => (finite rest).map fun x => -x
    | '+' :: rest => finite rest
    | cs => finite cs

/-- The meaning of plain text. None is an integer that is too large. -/
def atom? (text : String) : Option Atom :=
  if text == "" || isNull text then some .null
  else match bool? text with
    | some b => some (.bool b)
    | none =>
      let cs := text.toList
      let other :=
        if isZeroPadded cs then .string text
        else match float? text with
          | some x => .number (.float x)
          | none => .string text
      match integer? cs with
      | none => some other
      | some n =>
        match rangeOf n with
        | .number => some (.number (.integer n))
        | .refused => none
        | .beyond => some other

end Plain

/-- Tags of the format itself force a type. -/
def standardTag (name : String) : String := "tag:yaml.org,2002:" ++ name

/-- A local tag without its mark; a mark alone is a tag, too. -/
def localTag? (tag : String) : Option String :=
  match tag.toList with
  | '!' :: [] => some "!"
  | '!' :: rest => some (String.ofList rest)
  | _ => none

namespace Scalar

/-- The text that a field of text takes: any written scalar, but of atoms only a string. -/
def text? : Scalar → Option String
  | atom (.string s) => some s
  | atom _ => none
  | written text _ _ => some text

/-- Empty and plain: it stands for an empty list or mapping as well. -/
def isBlank : Scalar → Bool
  | written text plain _ => text == "" && plain
  | atom _ => false

/-- Whether an optional field is absent; none if the tag forbids the text. -/
def isAbsent? : Scalar → Option Bool
  | atom a => some (a == .null)
  | written text plain tag =>
    if !plain then some false
    else match tag with
      | none => some (text == "" || Plain.isNull text)
      | some t =>
        if t == standardTag "null" then (if Plain.isNull text then some true else none)
        else some false

def localTag? : Scalar → Option String
  | written _ _ (some tag) => Document.localTag? tag
  | _ => none

/-- The meaning of a scalar when nobody says what it should be; a local tag is left aside. -/
def atom? : Scalar → Option Atom
  | atom a => some a
  | written text plain tag =>
    let untagged := if plain then Plain.atom? text else some (.string text)
    match tag with
    | none => untagged
    | some t =>
      if (Document.localTag? t).isSome then untagged
      else if t == standardTag "bool" then (Plain.bool? text).map .bool
      else if t == standardTag "int" then
        (Plain.integer? text.toList).bind fun n =>
          if Plain.rangeOf n = .number then some (.number (.integer n)) else none
      else if t == standardTag "float" then (Plain.float? text).map fun x => .number (.float x)
      else if t == standardTag "null" then (if Plain.isNull text then some .null else none)
      else some (.string text)

end Scalar
end ProductTemplates.Document
