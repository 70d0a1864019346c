import ProductTemplates.Config
import ProductTemplates.Text.Excerpt
import ProductTemplates.Text.Quoted
import ProductTemplates.Toml.Reader

/-! The settings as TOML describes them. Unknown names are skipped, and a list stands for a table
with the settings in order. A fault is shown with the lines around it. -/
namespace ProductTemplates

namespace Toml

def Node.found : Node → String
  | .scalar _ (.string s) => "string " ++ Text.quoted s
  | .scalar _ (.integer n) => "integer `" ++ Decimal.integerText n ++ "`"
  | .scalar _ (.float x) => "floating point `" ++ Decimal.positionalText x ++ "`"
  | .scalar _ (.boolean b) => if b then "boolean `true`" else "boolean `false`"
  | .scalar _ .moment => "map"
  | .array _ _ => "sequence"
  | .table _ _ _ => "map"
  | .tables _ => "sequence"

end Toml

namespace Config

open Toml (Node Entries Key)

/-- A node that cannot be a setting: its line, if it has one of its own, and what is wrong. -/
structure Mismatch where
  line : Option Nat
  problem : String
deriving Repr, DecidableEq

def Mismatch.at (key : Key) (m : Mismatch) : Mismatch := { m with line := m.line <|> some key.line }

abbrev Reader (α : Type) := Node → Except Mismatch α

def mismatch {α : Type} (expected : String) : Reader α := fun n =>
  .error ⟨n.line?, "invalid type: " ++ n.found ++ ", expected " ++ expected⟩

def natural : Reader Nat := fun n =>
  match n with
  | .scalar line (.integer i) =>
    if 0 ≤ i then .ok i.toNat
    else .error ⟨some line,
      "invalid value: integer `" ++ Decimal.integerText i ++ "`, expected usize"⟩
  | _ => mismatch "usize" n

def boolean : Reader Bool := fun n =>
  match n with
  | .scalar _ (.boolean b) => .ok b
  | _ => mismatch "a boolean" n

def path : Reader String := fun n =>
  match n with
  | .scalar _ (.string s) => .ok s
  | _ => mismatch "path string" n

/-- A setting of the record `σ`, with how its value is put into the record. -/
structure Setting (σ : Type) where
  name : String
  put : Node → σ → Except Mismatch σ

namespace Setting

variable {σ : Type}

def of {α : Type} (name : String) (reader : Reader α) (set : α → σ → σ) : Setting σ :=
  ⟨name, fun n r => (reader n).map (set · r)⟩

def readEntries (settings : List (Setting σ)) (r : σ) (es : Entries) : Except Mismatch σ :=
  es.foldlM (fun r (k, n) =>
    match settings.find? (·.name == k.name) with
    | some s => (s.put n r).mapError (·.at k)
    | none => .ok r) r

def readItems (settings : List (Setting σ)) (r : σ) (ns : List Node) : Except Mismatch σ :=
  (settings.zip ns).foldlM (fun r (s, n) => s.put n r) r

/-- Reads a record from its default. A date has none of the settings. -/
def record (expected : String) (settings : List (Setting σ)) (start : σ) : Reader σ := fun n =>
  match n with
  | .table _ _ es => readEntries settings start es
  | .array _ ns => readItems settings start ns
  | .tables ns => readItems settings start ns.reverse
  | .scalar _ .moment => .ok start
  | _ => mismatch expected n

end Setting

def resolutionSettings : List (Setting Nat) := [.of "max_depth" natural fun d _ => d]

def cacheSettings : List (Setting CacheSettings) := [
  .of "enabled" boolean fun b s => { s with enabled := b },
  .of "dir" path fun d s => { s with dir := some d }]

def settings : List (Setting Config) := [
  .of "resolution" (Setting.record "struct ResolutionConfig" resolutionSettings defaultMaxDepth)
    fun d c => { c with maxDepth := d },
  .of "cache" (Setting.record "struct CacheConfig" cacheSettings {})
    fun s c => { c with cache := s }]

/-- Why a text gives no settings. A fault of the grammar shows its place only. -/
inductive Fault where
  | unreadable (line : Nat) (excerpt : String)
  | mismatch (line : Nat) (excerpt problem : String)
  | invalid (why : Invalid)
deriving Repr, DecidableEq

def Fault.message : Fault → String
  | unreadable line excerpt =>
    "TOML parsing error at line " ++ Decimal.naturalText line ++ ":\n" ++ excerpt
  | mismatch line excerpt problem =>
    "TOML parsing error at line " ++ Decimal.naturalText line ++ ":\n" ++ excerpt ++
      "\n\nError: " ++ problem
  | invalid why => why.message

def ofText (text : String) : Except Fault Config := do
  let es ← (Toml.readText text).mapError fun line => .unreadable line (Text.excerpt text line)
  let c ← (Setting.readEntries settings {} es).mapError fun m =>
    let line := m.line.getD 1
    .mismatch line (Text.excerpt text line) m.problem
  c.validate.mapError .invalid
  return c

end Config
end ProductTemplates
