import ProductTemplates.Dictionary
import ProductTemplates.Document.Node

/-! Reading typed data from a document: texts, optional fields, lists, opaque values and records.
Readers fail at the first fault in the order of the document. -/
namespace ProductTemplates.Document

/-- Collections that stand where a scalar is expected. -/
inductive Found where
  | sequence
  | mapping
  | tagged
deriving Repr, DecidableEq

inductive ReadError where
  | nullValue
  | notScalar (found : Found)
  | missingField (name : String)
  | duplicateField (name : String)
  | unknownVariant (text : String)
  /-- Any other fault of the text or of a type. -/
  | malformed
deriving Repr, DecidableEq, Inhabited

namespace ReadError

def Found.text : Found → String
  | .sequence => "a sequence"
  | .mapping => "a mapping"
  | .tagged => "a tagged value"

/-- Malformed documents have no message of their own. -/
def message : ReadError → Option String
  | nullValue => some "value must not be null"
  | notScalar found => some ("expected a scalar value, found " ++ Found.text found)
  | missingField name => some ("missing field `" ++ name ++ "`")
  | duplicateField name => some ("duplicate field `" ++ name ++ "`")
  | unknownVariant text => some ("unknown variant `" ++ text ++ "`")
  | malformed => none

end ReadError

abbrev Reader (α : Type) := Node → Except ReadError α

def Source.read {α : Type} (source : Source) (reader : Reader α) : Except ReadError α := do
  let x ← reader source.root
  if source.alone then return x else throw .malformed

namespace Node

def ofAtom (a : Atom) : Node := .scalar (.atom a)

def key? (n : Node) : Option String :=
  match n with
  | .scalar s => s.text?
  | _ => none

def string : Reader String := fun n =>
  match n.key? with
  | some text => .ok text
  | none => .error .malformed

def withTag (tag : Option String) (v : Value) : Value :=
  match tag with
  | some t => .tagged t v
  | none => v

mutual
/-- An opaque value. Two keys of a mapping must not be the same. -/
def value? : Node → Option Value
  | .scalar s => s.atom?.map fun a => withTag s.localTag? a.value
  | .sequence shape items complete => do
    let xs ← values? items
    if complete then some (withTag shape.localTag? (.sequence xs)) else none
  | .mapping shape entries complete => do
    let es ← valueEntries? [] entries
    if complete then some (withTag shape.localTag? (.mapping es)) else none
  | .refused => none
  | .malformed => none
def values? : List Node → Option (List Value)
  | [] => some []
  | n :: rest => do
    let x ← value? n
    let xs ← values? rest
    return x :: xs
def valueEntries? (seen : List Value) : List (Node × Node) → Option (List (Value × Value))
  | [] => some []
  | (k, v) :: rest => do
    let key ← value? k
    if seen.any key.same then none
    else
      let x ← value? v
      let es ← valueEntries? (key :: seen) rest
      return (key, x) :: es
end

def value : Reader Value := fun n =>
  match n.value? with
  | some v => .ok v
  | none => .error .malformed

mutual
/-- The node with every scalar's type settled by its own text. Local tags do not survive. -/
def settle? : Node → Option Node
  | .scalar s => if s.localTag?.isSome then none else s.atom?.map ofAtom
  | .sequence shape items complete => do
    if shape.localTag?.isSome then none
    else
      let xs ← settleAll? items
      if complete then some (.sequence .typed xs true) else none
  | .mapping shape entries complete => do
    if shape.localTag?.isSome then none
    else
      let es ← settleEntries? entries
      if complete then some (.mapping .typed es true) else none
  | .refused => none
  | .malformed => none
def settleAll? : List Node → Option (List Node)
  | [] => some []
  | n :: rest => do
    let x ← settle? n
    let xs ← settleAll? rest
    return x :: xs
def settleEntries? : List (Node × Node) → Option (List (Node × Node))
  | [] => some []
  | (k, v) :: rest => do
    let key ← settle? k
    let x ← settle? v
    let es ← settleEntries? rest
    return (key, x) :: es
end

def settled : Reader Node := fun n =>
  match n.settle? with
  | some m => .ok m
  | none => .error .malformed

def optional {α : Type} (reader : Reader α) : Reader (Option α) := fun n =>
  match n with
  | .scalar s =>
    match s.isAbsent? with
    | none => .error .malformed
    | some true => .ok none
    | some false => (reader n).map some
  | _ => (reader n).map some

/-- Any scalar, carried as text. -/
def scalarText : Reader (Option String) := fun n => do
  match ← optional value n with
  | none => return none
  | some .null => return none
  | some (.string s) => return some s
  | some (.bool b) => return some (if b then "true" else "false")
  | some (.number x) => return some x.text
  | some (.sequence _) => throw (.notScalar .sequence)
  | some (.mapping _) => throw (.notScalar .mapping)
  | some (.tagged _ _) => throw (.notScalar .tagged)

def requiredText : Reader String := fun n => do
  match ← scalarText n with
  | some s => return s
  | none => throw .nullValue

def isBlank : Node → Bool
  | .scalar s => s.isBlank
  | _ => false

def list {α : Type} (reader : Reader α) : Reader (List α) := fun n =>
  match n with
  | .sequence _ items complete => do
    let xs ← items.mapM reader
    if complete then return xs else throw .malformed
  | _ => if n.isBlank then .ok [] else .error .malformed

def entries : Node → Except ReadError (List (Node × Node) × Bool)
  | .mapping _ es complete => .ok (es, complete)
  | n => if n.isBlank then .ok ([], true) else .error .malformed

/-- A mapping from texts to opaque values; the last value for a key counts. -/
def dictionary : Reader (Dictionary Value) := fun n => do
  let (es, complete) ← n.entries
  let pairs ← es.mapM fun (k, v) => do return (← k.string, ← v.value)
  if complete then return .ofList pairs else throw .malformed

end Node

/-- A field of the record `σ`, with how its value is put into the record. -/
structure RecordField (σ : Type) where
  name : String
  aliases : List String := []
  required : Bool := false
  put : Node → σ → Except ReadError σ

namespace RecordField

variable {σ : Type}

def of {α : Type} (name : String) (reader : Reader α) (set : α → σ → σ) : RecordField σ :=
  { name := name, put := fun n r => (reader n).map (set · r) }

def needed (f : RecordField σ) : RecordField σ := { f with required := true }

def orNamed (f : RecordField σ) (other : String) : RecordField σ :=
  { f with aliases := other :: f.aliases }

def answersTo (f : RecordField σ) (key : String) : Bool := f.name == key || f.aliases.contains key

def find? (fields : List (RecordField σ)) (key : String) : Option (RecordField σ) :=
  fields.find? (·.answersTo key)

/-- The field that a key names. In a typed document a number counts the fields. -/
def ofKey (fields : List (RecordField σ)) : Node → Except ReadError (Option (RecordField σ))
  | .scalar (.atom (.number (.integer n))) =>
    if n < 0 then .error .malformed else .ok fields[n.toNat]?
  | k => do return find? fields (← k.string)

structure Progress (σ : Type) where
  seen : List String
  record : σ

def meet (f : RecordField σ) (v : Node) (p : Progress σ) : Except ReadError (Progress σ) :=
  if p.seen.contains f.name then .error (.duplicateField f.name)
  else do return ⟨f.name :: p.seen, ← f.put v p.record⟩

def complain (fields : List (RecordField σ)) (p : Progress σ) : Except ReadError Unit :=
  match fields.find? fun f => f.required && !p.seen.contains f.name with
  | some f => .error (.missingField f.name)
  | none => .ok ()

def readEntries (fields : List (RecordField σ)) :
    List (Node × Node) → Progress σ → Except ReadError (Progress σ)
  | [], p => .ok p
  | (k, v) :: rest, p => do
    match ← ofKey fields k with
    | some f => readEntries fields rest (← f.meet v p)
    | none => if v.isWhole then readEntries fields rest p else throw .malformed

/-- A record given as the list of its fields; only final optional ones may be left out. -/
def readItems : List (RecordField σ) → List Node → σ → Except ReadError σ
  | [], [], r => .ok r
  | [], _ :: _, _ => .error .malformed
  | f :: fields, [], r =>
    if (f :: fields).any (·.required) then .error .malformed else .ok r
  | f :: fields, n :: rest, r => do readItems fields rest (← f.put n r)

/-- Reads a record from its default. -/
def record (fields : List (RecordField σ)) (start : σ) : Reader σ := fun n =>
  match n with
  | .sequence .typed items complete => do
    let r ← readItems fields items start
    if complete then return r else throw .malformed
  | _ => do
    let (es, complete) ← n.entries
    let p ← readEntries fields es ⟨[], start⟩
    if !complete then throw .malformed
    complain fields p
    return p.record

/-- Reads the entries that name one of `fields`, and settles the others to be read later. -/
def readSome (fields : List (RecordField σ)) :
    List (Node × Node) → Progress σ → Except ReadError (Progress σ × List (String × Node))
  | [], p => .ok (p, [])
  | (k, v) :: rest, p => do
    let key ← k.string
    match find? fields key with
    | some f => readSome fields rest (← f.meet v p)
    | none =>
      let settled ← v.settled
      let (p, others) ← readSome fields rest p
      return (p, (key, settled) :: others)

/-- A record of which only some fields are its own; the others come back settled. -/
def partly (fields : List (RecordField σ)) (start : σ) : Reader (σ × List (String × Node)) := fun n => do
  let (es, complete) ← n.entries
  let (p, others) ← readSome fields es ⟨[], start⟩
  if !complete then throw .malformed
  complain fields p
  return (p.record, others)

/-- Reads a record from settled entries, of which those of other fields are left aside. -/
def readSettled (fields : List (RecordField σ)) :
    List (String × Node) → Progress σ → Except ReadError (Progress σ)
  | [], p => .ok p
  | (key, v) :: rest, p => do
    match find? fields key with
    | some f => readSettled fields rest (← f.meet v p)
    | none => readSettled fields rest p

end RecordField
end ProductTemplates.Document
