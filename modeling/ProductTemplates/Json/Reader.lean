import ProductTemplates.Document.Reading
import ProductTemplates.Json.Token

/-! Reading JSON: the tokens of a text must form one value, and become the events of a document.
The open arrays and objects are the only memory. -/
namespace ProductTemplates.Json

open Document

inductive Expect where
  | value
  | itemOrClose
  | key
  | keyOrClose
  | colon
  | commaOrClose
  | nothing
deriving Repr, DecidableEq

inductive Container where
  | array
  | object
deriving Repr, DecidableEq

def afterValue (inside : List Container) : Expect :=
  if inside.isEmpty then .nothing else .commaOrClose

/-- The event of a token, if any, and where it leads. None if the token may not stand here. -/
def advance? (inside : List Container) (expect : Expect) (t : Token) :
    Option (Option Event × List Container × Expect) :=
  let value : Option (Option Event × List Container × Expect) := match t with
    | .scalar a => some (some (.scalar (.atom a)), inside, afterValue inside)
    | .refused => some (some .refused, inside, afterValue inside)
    | .openArray => some (some (.openSequence .typed), .array :: inside, .itemOrClose)
    | .openObject => some (some (.openMapping .typed), .object :: inside, .keyOrClose)
    | _ => none
  let key : Option (Option Event × List Container × Expect) := match t with
    | .scalar (.string s) => some (some (.scalar (.atom (.string s))), inside, .colon)
    | .refused => some (some .refused, inside, .colon)
    | _ => none
  let close : Option (Option Event × List Container × Expect) := match t, inside with
    | .closeArray, .array :: outer => some (some .close, outer, afterValue outer)
    | .closeObject, .object :: outer => some (some .close, outer, afterValue outer)
    | _, _ => none
  match expect with
  | .value => value
  | .itemOrClose => close <|> value
  | .key => key
  | .keyOrClose => close <|> key
  | .colon => if t = .colon then some (none, inside, .value) else none
  | .commaOrClose =>
    match t, inside with
    | .comma, .array :: _ => some (none, inside, .value)
    | .comma, .object :: _ => some (none, inside, .key)
    | _, _ => close
  | .nothing => none

/-- The events of the tokens up to the first that is out of place, and whether they are one whole
value. -/
def events (inside : List Container) (expect : Expect) : List Token → List Event × Bool
  | [] => ([], expect = .nothing)
  | t :: rest =>
    match advance? inside expect t with
    | none => ([], false)
    | some (event, inside, expect) =>
      let (later, whole) := events inside expect rest
      (event.toList ++ later, whole)

def maxNesting : Nat := 127

def readText (text : String) : Source :=
  let (found, whole) := events [] .value (Token.ofChars text.toList)
  ⟨(Node.ofEvents? maxNesting found).getD .malformed, whole⟩

end ProductTemplates.Json
