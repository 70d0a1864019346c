import Mathlib.Algebra.Group.Nat.Defs
import ProductTemplates.Config.Reading
import ProductTemplates.Config.Writing
import ProductTemplates.Proofs.Toml.Statement
import ProductTemplates.Proofs.Toml.Value

/-! The settings are read back from their text. -/
namespace ProductTemplates.Config

open Toml

variable {c : Config} {text : String}

def dirEntry : Option String → Entries
  | none => []
  | some dir => [(⟨"dir", 6⟩, .scalar 6 (.string dir))]

/-- The tables that the text describes. -/
def entries (c : Config) : Entries := [
  (⟨"resolution", 1⟩, .table (some 1) .header [(⟨"max_depth", 2⟩, .scalar 2 (.integer c.maxDepth))]),
  (⟨"cache", 4⟩, .table (some 4) .header
    ((⟨"enabled", 5⟩, .scalar 5 (.boolean c.cache.enabled)) :: dirEntry c.cache.dir))]

end ProductTemplates.Config
