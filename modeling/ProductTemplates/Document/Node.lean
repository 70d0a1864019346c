import ProductTemplates.Document.Scalar

/-! A document as a tree. It is composed from a flat list of events, of which a faulty text gives
only a beginning: then the open collections are marked incomplete, so that a reader finds the
faults in the order of the text. -/
namespace ProductTemplates.Document

/-- Whether the format fixes the types, or a collection was written with an optional tag. In a
typed document a record may also be given as the list of its fields. -/
inductive Shape where
  | typed
  | written (tag : Option String)
deriving Repr, DecidableEq, Inhabited

def Shape.localTag? : Shape → Option String
  | written (some tag) => Document.localTag? tag
  | _ => none

/-- `refused` is a well-formed part that cannot be read, only skipped. -/
inductive Event where
  | scalar (s : Scalar)
  | refused
  | openSequence (shape : Shape)
  | openMapping (shape : Shape)
  | close
deriving Repr, DecidableEq, Inhabited

/-- `malformed` stands where a faulty text breaks off. -/
inductive Node where
  | scalar (s : Scalar)
  | sequence (shape : Shape) (items : List Node) (complete : Bool)
  | mapping (shape : Shape) (entries : List (Node × Node)) (complete : Bool)
  | refused
  | malformed
deriving Repr, Inhabited

def Node.isWhole : Node → Bool
  | .sequence _ _ complete => complete
  | .mapping _ _ complete => complete
  | .malformed => false
  | _ => true

/-- A document, and whether nothing else follows it. -/
structure Source where
  root : Node
  alone : Bool
deriving Repr, Inhabited

namespace Compose

/-- An open collection; what it holds so far is in reverse, and a mapping may have a key that
waits for its value. -/
inductive Frame where
  | sequence (shape : Shape) (items : List Node)
  | mapping (shape : Shape) (entries : List (Node × Node)) (key : Option Node)
deriving Repr, Inhabited

def Frame.add (n : Node) : Frame → Frame
  | .sequence shape items => .sequence shape (n :: items)
  | .mapping shape entries none => .mapping shape entries (some n)
  | .mapping shape entries (some k) => .mapping shape ((k, n) :: entries) none

def Frame.finish : Frame → Node
  | .sequence shape items => .sequence shape items.reverse true
  | .mapping shape entries none => .mapping shape entries.reverse true
  | .mapping shape entries (some k) => .mapping shape ((k, .malformed) :: entries).reverse false

def Frame.abandon : Frame → Node
  | .sequence shape items => .sequence shape items.reverse false
  | .mapping shape entries none => .mapping shape entries.reverse false
  | .mapping shape entries (some k) => .mapping shape ((k, .malformed) :: entries).reverse false

/-- The frames around the current place, innermost first, and the root once it is done. -/
structure State where
  frames : List Frame := []
  root : Option Node := none
deriving Repr, Inhabited

def State.add (n : Node) (s : State) : State :=
  match s.frames with
  | [] => { s with root := some (s.root.getD n) }
  | f :: outer => { s with frames := f.add n :: outer }

/-- A collection nested deeper than `limit` is well-formed but cannot be read. -/
def State.step (limit : Nat) (s : State) : Event → State
  | .scalar x => s.add (.scalar x)
  | .refused => s.add .refused
  | .openSequence shape => { s with frames := .sequence shape [] :: s.frames }
  | .openMapping shape => { s with frames := .mapping shape [] none :: s.frames }
  | .close =>
    match s.frames with
    | [] => s
    | f :: outer =>
      State.add (if outer.length < limit then f.finish else .refused) { s with frames := outer }

def abandonAll : List Frame → Option Node → Option Node
  | [], inner => inner
  | f :: outer, inner =>
    abandonAll outer (some ((match inner with | some n => f.add n | none => f).abandon))

def State.finish (s : State) : Option Node := s.root <|> abandonAll s.frames none

end Compose

/-- The tree that the events describe; none if there are no events. -/
def Node.ofEvents? (limit : Nat) (events : List Event) : Option Node :=
  (events.foldl (Compose.State.step limit) {}).finish

end ProductTemplates.Document
