/-! What a TOML text describes: tables of named values. Every node knows the line on which it
begins. -/
namespace ProductTemplates.Toml

/-- `moment` is a date, a time or both. -/
inductive Scalar where
  | string (s : String)
  | integer (n : Int)
  | float (x : Float)
  | boolean (b : Bool)
  | moment
deriving Repr, Inhabited

/-- What brought a table into being: its own header, the header of a table inside it, a dotted
key, or a value in braces. -/
inductive Origin where
  | header
  | implied
  | dotted
  | value
deriving Repr, DecidableEq, Inhabited

structure Key where
  name : String
  line : Nat
deriving Repr, DecidableEq, Inhabited

/-- `tables` is a list of tables that have a header each, the latest first. A table has a line of
its own only if it was written as one. -/
inductive Node where
  | scalar (line : Nat) (s : Scalar)
  | array (line : Nat) (items : List Node)
  | table (line : Option Nat) (origin : Origin) (entries : List (Key × Node))
  | tables (items : List Node)
deriving Repr, Inhabited

abbrev Entries := List (Key × Node)

def Node.line? : Node → Option Nat
  | scalar line _ => some line
  | array line _ => some line
  | table line _ _ => line
  | tables items => (items.getLast?).bind fun n =>
    match n with
    | table line _ _ => line
    | _ => none

namespace Entries

def find? (es : Entries) (name : String) : Option (Key × Node) :=
  List.find? (fun e => e.1.name == name) es

def replace (es : Entries) (name : String) (n : Node) : Entries :=
  es.map fun e => if e.1.name = name then (e.1, n) else e

/-- Adds a value below tables that dotted keys name. Only tables that came from dotted keys can be
filled in this way. -/
def insert? : List Key → Key → Node → Entries → Option Entries
  | [], k, n, es => if (es.find? k.name).isSome then none else some (es ++ [(k, n)])
  | step :: path, k, n, es =>
    match es.find? step.name with
    | none => (insert? path k n []).map fun inner => es ++ [(step, .table none .dotted inner)]
    | some (_, .table line origin inner) =>
      if origin = .dotted ∨ origin = .implied ∧ path ≠ [] then
        (insert? path k n inner).map fun inner => es.replace step.name (.table line origin inner)
      else none
    | some (_, .tables (.table line origin inner :: earlier)) =>
      if path = [] then none
      else (insert? path k n inner).map fun inner =>
        es.replace step.name (.tables (.table line origin inner :: earlier))
    | _ => none

/-- Where a header puts its table: a name may have one header, unless it is a list of tables. -/
def openHere? (listed : Bool) (line : Nat) (k : Key) (es : Entries) : Option Entries :=
  let table (inner : Entries) : Node := .table (some line) .header inner
  match es.find? k.name with
  | none => some (es ++ [(k, if listed then .tables [table []] else table [])])
  | some (_, .table _ .implied inner) =>
    if listed then none else some (es.filter (·.1.name != k.name) ++ [(k, table inner)])
  | some (_, .tables earlier) =>
    if listed then some (es.replace k.name (.tables (table [] :: earlier))) else none
  | _ => none

/-- Opens the table of a header below others, of which a list of tables stands for its last. -/
def open? (listed : Bool) (line : Nat) : List Key → Key → Entries → Option Entries
  | [], k, es => openHere? listed line k es
  | step :: path, k, es =>
    match es.find? step.name with
    | none =>
      (open? listed line path k []).map fun inner => es ++ [(step, .table none .implied inner)]
    | some (_, .table own origin inner) =>
      if origin = .value then none
      else (open? listed line path k inner).map fun inner =>
        es.replace step.name (.table own origin inner)
    | some (_, .tables (.table own origin inner :: earlier)) =>
      (open? listed line path k inner).map fun inner =>
        es.replace step.name (.tables (.table own origin inner :: earlier))
    | _ => none

def insertBelow? : List Key → List Key → Key → Node → Entries → Option Entries
  | [], path, k, n, es => es.insert? path k n
  | step :: steps, path, k, n, es =>
    match es.find? step.name with
    | some (_, .table line origin inner) =>
      (insertBelow? steps path k n inner).map fun inner =>
        es.replace step.name (.table line origin inner)
    | some (_, .tables (.table line origin inner :: earlier)) =>
      (insertBelow? steps path k n inner).map fun inner =>
        es.replace step.name (.tables (.table line origin inner :: earlier))
    | _ => none

end Entries
end ProductTemplates.Toml
