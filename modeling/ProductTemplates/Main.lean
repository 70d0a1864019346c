import ProductTemplates.CommandLine
import Std.Time

/-! The program on real files. What it may read is copied from the file system beforehand, and what
it has put into its cache is written back. -/
namespace ProductTemplates.Program

partial def copyOf (path : String) : IO FileTree := do
  let real ← IO.FS.realPath path
  match (← real.symlinkMetadata).type with
  | .dir =>
    let entries ← real.readDir
    let copies ← entries.toList.filterMapM fun e => do
      try
        if (← e.path.symlinkMetadata).type == .symlink then
          return some (e.fileName, .link (← IO.FS.realPath e.path).toString)
        else return some (e.fileName, ← copyOf e.path.toString)
      catch _ => return none
    return .folder copies
  | .file => return .file (← IO.FS.readBinFile real).toList
  | _ => return .pipe

/-- Adds what stands at a path to the copy, under its real name. -/
def addCopy (d : Disk) (path : String) : IO Disk := do
  try
    let real := (← IO.FS.realPath path).toString
    let tree ← copyOf real
    let (_, d) := d.makeFolders ((Path.parent? real).getD "/")
    let d := d.put (Path.steps real) tree
    match d.ownPlace? path with
    | some (.vacant folder name) => return d.put (folder ++ [name]) (.link real)
    | _ => return d
  catch _ => return d

partial def addLinked (tree : FileTree) (d : Disk) : IO Disk := do
  match tree with
  | .folder entries => entries.foldlM (fun d (_, t) => addLinked t d) d
  | .link target =>
    if d.has target then return d
    else if ← (← IO.FS.realPath target).isDir then return d
    else addCopy d target
  | _ => return d

/-- A product, and the folders of descriptors that it may link to. -/
def addProduct (d : Disk) (product : String) : IO Disk := do
  let d ← addCopy d product
  let folders := ["instance-templates", "application-templates", "parameter-templates",
    "instance-variable-templates"].map (Path.join product)
  let d ← folders.foldlM (fun (d : Disk) (folder : String) => do
    try
      let real ← IO.FS.realPath folder
      if !d.has real.toString && (← real.isDir) then addCopy d real.toString else return d
    catch _ => return d) d
  addLinked d.root d

def productOf : CommandLine.Command → String
  | .resolve product _ _ => product
  | .list product _ => product
  | .hash product => product

def writeNew (old new : Disk) (folder : String) : IO Unit := do
  match new.found? folder with
  | some (_, .folder entries) =>
    for (name, node) in entries do
      let path := Path.join folder name
      match node with
      | .file bytes =>
        if old.read? path != some bytes then
          IO.FS.createDirAll folder
          let beside := path ++ ".tmp"
          IO.FS.writeBinFile beside ⟨bytes.toArray⟩
          IO.FS.rename beside path
      | _ => pure ()
  | _ => pure ()

def now : IO Stamp := do
  let t := Std.Time.DateTime.ofTimestamp (← Std.Time.Timestamp.now) Std.Time.TimeZone.ZoneRules.UTC
  return ⟨t.toISO8601String, toString (← IO.monoNanosNow)⟩

def report (messages : List String) : String :=
  match messages with
  | [] => "Error"
  | [only] => "Error: " ++ only
  | first :: causes =>
    "Error: " ++ first ++ "\n\nCaused by:" ++ String.join (causes.map fun c => "\n    " ++ c)

def run (args : List String) : IO UInt32 := do
  let home := (← IO.getEnv "HOME").getD ""
  let here := (← IO.FS.realPath (← IO.currentDir)).toString
  let start : Disk := ({ here := Path.steps here } : Disk)
  let (_, start) := start.makeFolders here
  let (before, cacheDir) ← match CommandLine.parse {} args with
    | .run invocation => do
      let d ← addCopy start (invocation.config.getD (Config.defaultPath home))
      let d ← addProduct d (productOf invocation.command)
      match CommandLine.loadConfig home invocation.config d with
      | .ok c => match c.cacheDir? home with
        | some dir => pure (← addCopy d dir, some dir)
        | none => pure (d, none)
      | .error _ => pure (d, none)
    | _ => pure (start, none)
  let (outcome, after) := CommandLine.run home (← now) args before
  if let some dir := cacheDir then
    try writeNew before after dir catch _ => pure ()
  match outcome with
  | .success text => IO.print text
  | .failure why => IO.eprintln (report why.messages)
  | .misuse => IO.eprint CommandLine.usage
  return outcome.exitCode.toUInt32

end ProductTemplates.Program

def main (args : List String) : IO UInt32 := ProductTemplates.Program.run args
