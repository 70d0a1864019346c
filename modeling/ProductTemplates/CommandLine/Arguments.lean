/-! The arguments of the program. They are taken from left to right; a request for help or the
first argument that does not fit ends the reading. -/
namespace ProductTemplates.CommandLine

inductive Format where
  | json
  | yaml
deriving Repr, DecidableEq

inductive Listed where
  | instances
  | applications
  | parameters
deriving Repr, DecidableEq

inductive Command where
  | resolve (product : String) (format : Format) (noCache : Bool)
  | list (product : String) (only : Option Listed)
  | hash (product : String)
deriving Repr, DecidableEq

structure Invocation where
  config : Option String
  command : Command
deriving Repr, DecidableEq

inductive Request where
  | help
  | misuse
  | run (invocation : Invocation)
deriving Repr, DecidableEq

inductive Name where
  | resolve
  | list
  | hash
deriving Repr, DecidableEq

def Name.ofText? : String → Option Name
  | "resolve" => some .resolve
  | "list" => some .list
  | "ls" => some .list
  | "hash" => some .hash
  | _ => none

def Format.ofText? : String → Option Format
  | "json" => some .json
  | "yaml" => some .yaml
  | _ => none

def Listed.ofText? : String → Option Listed
  | "instance" => some .instances
  | "application" => some .applications
  | "parameter" => some .parameters
  | _ => none

structure Options where
  config : Option String := none
  format : Option Format := none
  noCache : Bool := false
  product : Option String := none
  only : Option Listed := none
deriving Repr, DecidableEq, Inhabited

def isOption (arg : String) : Bool := arg.startsWith "-" && arg != "-"

def after? (start text : String) : Option String :=
  if text.startsWith start then some (String.ofList (text.toList.drop start.length)) else none

/-- An option was given once at most, with a path that is not empty. -/
def withConfig (path : String) (o : Options) : Option Options :=
  if o.config.isSome || path = "" then none else some { o with config := some path }

def withFormat (text : String) (o : Options) : Option Options :=
  if o.format.isSome then none
  else (Format.ofText? text).map fun f => { o with format := some f }

def withPositional (name : Name) (arg : String) (o : Options) : Option Options :=
  if o.product.isNone then if arg = "" then none else some { o with product := some arg }
  else if name = .list && o.only.isNone then
    (Listed.ofText? arg).map fun k => { o with only := some k }
  else none

/-- What an option does: it says something by itself or with its value, asks for help, or awaits
its value in the next argument. -/
inductive Effect where
  | done (o : Options)
  | help
  | awaits (use : String → Options → Option Options)

def configEffect? (arg : String) (o : Options) : Option Effect :=
  if arg = "--config" then some (.awaits withConfig)
  else (after? "--config=" arg).bind fun path => (withConfig path o).map .done

def helpEffect? (arg : String) : Option Effect :=
  if arg = "--help" || arg.startsWith "-h" then some .help else none

/-- A value may stand right behind the letter of its option. -/
def resolveEffect? (arg : String) (o : Options) : Option Effect :=
  if arg = "--no-cache" then
    if o.noCache then none else some (.done { o with noCache := true })
  else if arg = "--format" || arg = "-f" then some (.awaits withFormat)
  else
    let value := after? "--format=" arg <|> after? "-f=" arg <|> after? "-f" arg
    value.bind fun text => (withFormat text o).map .done

def effect? (name : Name) (arg : String) (o : Options) : Option Effect :=
  helpEffect? arg <|> configEffect? arg o <|>
    (if name = .resolve then resolveEffect? arg o else none)

/-- All arguments say what to do if they name a product. -/
def Options.finish (name : Name) (config : Option String) (o : Options) : Request :=
  match o.product with
  | none => .misuse
  | some product =>
    .run {
      config := o.config <|> config
      command := match name with
        | .resolve => .resolve product (o.format.getD .json) o.noCache
        | .list => .list product o.only
        | .hash => .hash product }

def parsePositionals (name : Name) (config : Option String) (o : Options) : List String → Request
  | [] => o.finish name config
  | arg :: rest =>
    match withPositional name arg o with
    | some o => parsePositionals name config o rest
    | none => .misuse

def parseCommand (name : Name) (config : Option String) (o : Options) (args : List String) :
    Request :=
  match args with
  | [] => o.finish name config
  | arg :: rest =>
    if arg = "--" then parsePositionals name config o rest
    else if isOption arg then
      match effect? name arg o with
      | none => .misuse
      | some .help => .help
      | some (.done o) => parseCommand name config o rest
      | some (.awaits use) =>
        match rest with
        | value :: rest =>
          if isOption value then .misuse
          else match use value o with
            | some o => parseCommand name config o rest
            | none => .misuse
        | [] => .misuse
    else match withPositional name arg o with
      | some o => parseCommand name config o rest
      | none => .misuse

def parseHelp : List String → Request
  | [] => .help
  | [name] => if name = "help" || (Name.ofText? name).isSome then .help else .misuse
  | _ => .misuse

def parse (o : Options) (args : List String) : Request :=
  match args with
  | [] => .misuse
  | arg :: rest =>
    if arg = "--" then .misuse
    else if isOption arg then
      match helpEffect? arg <|> configEffect? arg o with
      | none => .misuse
      | some .help => .help
      | some (.done o) => parse o rest
      | some (.awaits use) =>
        match rest with
        | value :: rest =>
          if isOption value then .misuse
          else match use value o with
            | some o => parse o rest
            | none => .misuse
        | [] => .misuse
    else if arg = "help" then parseHelp rest
    else match Name.ofText? arg with
      | some name => parseCommand name o.config {} rest
      | none => .misuse

end ProductTemplates.CommandLine
