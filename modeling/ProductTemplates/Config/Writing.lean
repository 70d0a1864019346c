import ProductTemplates.Config
import ProductTemplates.Toml.Writing

/-! The settings as they are written in TOML. -/
namespace ProductTemplates.Config

/-- All settings, a table each; none if the depth is too large for an integer of TOML. -/
def toText? (c : Config) : Option String :=
  if c.maxDepth < Nat.pow 2 63 then
    let dir := match c.cache.dir with
      | some dir => "dir = " ++ Toml.writeString dir ++ "\n"
      | none => ""
    some ("[resolution]\nmax_depth = " ++ Decimal.naturalText c.maxDepth ++ "\n\n[cache]\nenabled = " ++
      (if c.cache.enabled then "true" else "false") ++ "\n" ++ dir)
  else none

end ProductTemplates.Config
