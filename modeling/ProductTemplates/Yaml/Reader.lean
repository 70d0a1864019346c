import ProductTemplates.Document.Reading
import ProductTemplates.Yaml.Event
import ProductTemplates.Yaml.Token.Stream

/-! Reading YAML: the first document of a text, with each alias replaced by the events of the node
that it names. -/
namespace ProductTemplates.Yaml

/-- The anchors of a document. Names are numbered; a number belongs to the last place that took
it, and since a name that comes again takes the next free number, so may another name. -/
structure Anchors where
  numbers : List (String × Nat) := []
  places : List (Nat × Nat) := []
deriving Repr, Inhabited

namespace Anchors

def define (name : String) (place : Nat) (a : Anchors) : Anchors :=
  let number := a.numbers.length
  { numbers := (name, number) :: a.numbers.filter (·.1 != name)
    places := (number, place) :: a.places }

def place? (number : Nat) (a : Anchors) : Option Nat := a.places.lookup number

end Anchors

/-- A part of a document: an event of its own, or all those of an anchor. -/
inductive Part where
  | event (e : Document.Event)
  | reference (number : Nat)
deriving Repr, DecidableEq, Inhabited

/-- How far a part leads into the collection that is open, or out of it. -/
def Part.opens : Part → Int
  | .event (.openSequence _) => 1
  | .event (.openMapping _) => 1
  | .event .close => -1
  | _ => 0

/-- The parts of a document, its anchors, and the events behind it. An alias must follow an anchor
of its name; if it does not, or if the events break off, nothing is behind. -/
def parts (anchors : Anchors) (place : Nat) :
    List Event → List Part × Anchors × Option (List Event)
  | [] => ([], anchors, none)
  | e :: rest =>
    let put (event : Document.Event) (anchor : Option String) :=
      let (later, known, behind) :=
        parts ((anchor.map (anchors.define · place)).getD anchors) (place + 1) rest
      (.event event :: later, known, behind)
    match e with
    | .documentStart => parts anchors place rest
    | .documentEnd => ([], anchors, some rest)
    | .reference name =>
      match anchors.numbers.lookup name with
      | none => ([], anchors, none)
      | some number =>
        let (later, known, behind) := parts anchors (place + 1) rest
        (.reference number :: later, known, behind)
    | .scalar text plain tag anchor => put (.scalar (.written text plain tag)) anchor
    | .openSequence tag anchor => put (.openSequence (.written tag)) anchor
    | .openMapping tag anchor => put (.openMapping (.written tag)) anchor
    | .close => put .close none

def firstNode? (depth : Int) : List Part → Option (List Part)
  | [] => none
  | p :: rest =>
    let inside := depth + p.opens
    if inside ≤ 0 then some [p] else (firstNode? inside rest).map (p :: ·)

/-- The events of the parts. At most `budget` references are followed; what they would bring
beyond that is refused. -/
def follow (node? : Nat → Option (List Part)) : Nat → List Part → List Document.Event
  | _, [] => []
  | budget, .event e :: rest => e :: follow node? budget rest
  | 0, .reference _ :: rest => .refused :: follow node? 0 rest
  | budget + 1, .reference number :: rest =>
    match node? number with
    | some found => follow node? budget (found ++ rest)
    | none => .refused :: follow node? budget rest
termination_by budget ps => (budget, ps.length)

def maxNesting : Nat := 128

/-- The first document of a text. An empty text stands for an empty mapping. -/
def readText (text : String) : Document.Source :=
  let (found, whole) := events (tokens text.toList)
  let (ps, anchors, behind) := parts {} 0 found
  let node? (number : Nat) := (anchors.place? number).bind fun place => firstNode? 0 (ps.drop place)
  if found.isEmpty && whole then ⟨.mapping (.written none) [] true, true⟩
  else
    ⟨(Document.Node.ofEvents? maxNesting (follow node? (100 * ps.length) ps)).getD .malformed,
      whole && behind = some []⟩

end ProductTemplates.Yaml
