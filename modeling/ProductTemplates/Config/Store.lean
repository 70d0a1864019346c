import ProductTemplates.Config.Reading
import ProductTemplates.Config.Writing
import ProductTemplates.FileTree.Disk

/-! Settings kept in a file. -/
namespace ProductTemplates.Config

inductive StoreFault where
  | unreadable (path : String)
  | faulty (path : String) (fault : Fault)
  | invalid (why : Invalid)
  | tooLarge
  | folder (path : String)
  | write (path : String)
deriving Repr, DecidableEq

/-- What went wrong, from the outermost cause inwards. -/
def StoreFault.messages : StoreFault → List String
  | unreadable path => ["Failed to read config file: " ++ path]
  | faulty path fault => ["Failed to parse config file: " ++ path, fault.message]
  | invalid why => [why.message]
  | tooLarge => ["Failed to serialize config to TOML", "Failed to serialize configuration to TOML"]
  | folder path => ["Failed to create config directory: " ++ path]
  | write path => ["Failed to write config file: " ++ path]

/-- The settings of a file; the defaults if there is none. -/
def load (path : String) (d : Disk) : Except StoreFault Config :=
  if !d.has path then .ok {}
  else match (d.read? path).bind fun bytes => String.fromUTF8? ⟨bytes.toArray⟩ with
    | none => .error (.unreadable path)
    | some text => (ofText text).mapError (.faulty path)

/-- Writes valid settings, and the folder of the file if it is missing. -/
def save (path : String) (c : Config) (d : Disk) : Except StoreFault Unit × Disk :=
  match c.validate, c.toText? with
  | .error why, _ => (.error (.invalid why), d)
  | .ok (), none => (.error .tooLarge, d)
  | .ok (), some text =>
    let folder := (Path.parent? path).getD ""
    match d.makeFolders folder with
    | (false, d) => (.error (.folder folder), d)
    | (true, d) =>
      match d.write? path text.toUTF8.toList with
      | none => (.error (.write path), d)
      | some d => (.ok (), d)

end ProductTemplates.Config
