import ProductTemplates.CommandLine.Listing
import ProductTemplates.Config.Store
import ProductTemplates.Product
import ProductTemplates.Yaml.Writing

/-! What the program does: it finds its settings, loads a product and prints it. -/
namespace ProductTemplates.CommandLine

def usage : String :=
  "Resolve product instance and application templates\n\n" ++
  "Usage: deckhand [OPTIONS] <COMMAND>\n\n" ++
  "Commands:\n" ++
  "  resolve  Resolve all templates of a product and print the result\n" ++
  "  list     List the names of resolved templates\n" ++
  "  hash     Print the content key a product resolves under\n" ++
  "  help     Print this message or the help of the given subcommand(s)\n\n" ++
  "Options:\n" ++
  "      --config <CONFIG>  Path to deckhand.toml (default: user config directory)\n" ++
  "  -h, --help             Print help\n"

inductive Failure where
  | configMissing (path : String)
  | config (path : String) (fault : Config.StoreFault)
  | load (error : LoadError)
  | json (error : UnwritableKey)
  | yaml (error : Yaml.WriteError)
deriving Repr, DecidableEq

def Failure.messages : Failure → List String
  | configMissing path => ["Config file not found: " ++ path]
  | config path fault => ("Failed to load config: " ++ path) :: fault.messages
  | load error => [error.message]
  | json error => [error.message]
  | yaml error => [error.message]

inductive Outcome where
  | success (stdout : String)
  | failure (why : Failure)
  | misuse
deriving Repr

def Outcome.exitCode : Outcome → Nat
  | success _ => 0
  | failure _ => 1
  | misuse => 2

/-- The settings of a file that was asked for, or else of the user's own. -/
def loadConfig (home : String) (path : Option String) (d : Disk) : Except Failure Config :=
  match path with
  | some path =>
    if d.has path then (Config.load path d).mapError (.config path)
    else .error (.configMissing path)
  | none =>
    let path := Config.defaultPath home
    (Config.load path d).mapError (.config path)

def bundleText (format : Format) (b : Bundle) : Except Failure String :=
  match format with
  | .json =>
    match b.toValue.toJson with
    | .ok j => .ok (j.prettyText ++ "\n")
    | .error e => .error (.json e)
  | .yaml =>
    match b.toValue with
    | .mapping entries => (Yaml.document entries).mapError .yaml
    | _ => .ok ""

/-- A product, with the cache of the settings unless that is not wanted. -/
def loadProduct (home : String) (stamp : Stamp) (c : Config) (noCache : Bool) (product : String)
    (d : Disk) : Except Failure Product × Disk :=
  let cache := if noCache then none else (c.cacheDir? home).map FileCache.mk
  let (loaded, d) := Product.load cache c.maxDepth stamp product d
  (loaded.mapError .load, d)

def hash (c : Config) (product : String) (d : Disk) : Except Failure String :=
  if !d.isFolder product then .error (.load (.productMissing product))
  else ((d.contentKey product c.maxDepth).map (· ++ "\n")).mapError .load

def runCommand (home : String) (stamp : Stamp) (c : Config) (d : Disk) :
    Command → Except Failure String × Disk
  | .resolve product format noCache =>
    let (loaded, d) := loadProduct home stamp c noCache product d
    (loaded.bind fun p => bundleText format p.bundle, d)
  | .list product only =>
    let (loaded, d) := loadProduct home stamp c false product d
    (loaded.map fun p => listing only p.bundle, d)
  | .hash product => (hash c product d, d)

/-- Runs the program for a user with some home, on all files. -/
def run (home : String) (stamp : Stamp) (args : List String) (d : Disk) : Outcome × Disk :=
  match parse {} args with
  | .help => (.success usage, d)
  | .misuse => (.misuse, d)
  | .run invocation =>
    match loadConfig home invocation.config d with
    | .error why => (.failure why, d)
    | .ok c =>
      let (result, d) := runCommand home stamp c d invocation.command
      (match result with
        | .ok text => .success text
        | .error why => .failure why, d)

end ProductTemplates.CommandLine
