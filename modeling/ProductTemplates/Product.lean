import ProductTemplates.Cache
import ProductTemplates.Product.Loading

/-! Products with their templates resolved. What was resolved before is looked up by the content
key; a cache never decides whether loading succeeds. -/
namespace ProductTemplates

structure Product where
  key : String
  bundle : Bundle
  /-- Whether the bundle came from the cache. -/
  found : Bool
  /-- Whether a fresh bundle went into the cache. -/
  stored : Bool
deriving Repr, Inhabited

namespace Product

/-- Loads a product; without a cache, everything is resolved afresh. -/
def load (cache : Option FileCache) (maxDepth : Nat) (stamp : Stamp) (path : String) (d : Disk) :
    Except LoadError Product × Disk :=
  if !d.isFolder path then (.error (.productMissing path), d)
  else match d.contentKey path maxDepth with
    | .error e => (.error e, d)
    | .ok key =>
      match cache.bind (·.read? d key) with
      | some bundle => (.ok ⟨key, bundle, true, false⟩, d)
      | none =>
        match d.rawTemplates path with
        | .error e => (.error e, d)
        | .ok raw =>
          let bundle := Bundle.ofRaw raw maxDepth
          match cache with
          | none => (.ok ⟨key, bundle, false, true⟩, d)
          | some c =>
            let (outcome, d) := c.store stamp key bundle d
            (.ok ⟨key, bundle, false, outcome.isOk⟩, d)

end Product
end ProductTemplates
