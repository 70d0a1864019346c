import ProductTemplates.Decimal.Notation
import ProductTemplates.Resolution

/-! The settings: how deeply templates may refer to each other, and where resolved templates are
kept. Every setting has a default. -/
namespace ProductTemplates

structure CacheSettings where
  enabled : Bool := true
  dir : Option String := none
deriving Repr, DecidableEq, Inhabited

structure Config where
  maxDepth : Nat := defaultMaxDepth
  cache : CacheSettings := {}
deriving Repr, DecidableEq, Inhabited

namespace Config

inductive Invalid where
  | depth
  | cacheDir
deriving Repr, DecidableEq

def Invalid.message : Invalid → String
  | depth => "resolution.max_depth must be at least 1"
  | cacheDir => "cache.dir must not be empty"

def validate (c : Config) : Except Invalid Unit :=
  if c.maxDepth = 0 then .error .depth
  else if c.cache.dir = some "" then .error .cacheDir
  else .ok ()

/-- Where the settings of a user with this home are kept. -/
def defaultPath (home : String) : String := home ++ "/.config/deckhand/deckhand.toml"

def defaultCacheDir (home : String) : String := home ++ "/.cache/deckhand/templates"

def cacheDir? (home : String) (c : Config) : Option String :=
  if c.cache.enabled then some (c.cache.dir.getD (defaultCacheDir home)) else none

end Config
end ProductTemplates
