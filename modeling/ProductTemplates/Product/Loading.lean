import ProductTemplates.Descriptor.Reading
import ProductTemplates.Product.Content
import ProductTemplates.Yaml.Reader

/-! Loading the descriptors of a product. There is a folder for each kind, and a file with one
descriptor each; files that cannot be read as what they should be are passed over. -/
namespace ProductTemplates

open Document

inductive LoadError where
  | productMissing (path : String)
  | folderUnreadable (path : String)
deriving Repr, DecidableEq

def LoadError.message : LoadError → String
  | productMissing path => "Product directory not found: " ++ path
  | folderUnreadable path => "Failed to read directory: " ++ path

/-- Descriptors are told by the extension of their file. -/
def isDescriptor (name : String) : Bool :=
  (Path.extension? name).any fun e => e.toLower == "yaml" || e.toLower == "yml"

def readDocument? {α : Type} (reader : Reader α) (bytes : Bytes) : Option α := do
  let text ← String.fromUTF8? ⟨bytes.toArray⟩
  ((Yaml.readText text).read reader).toOption

namespace Contents

def documents {α : Type} (reader : Reader α) (cs : Contents) : List α :=
  ((Content.filesOfAll cs).filter fun (name, _) => isDescriptor name).filterMap
    fun (_, bytes) => readDocument? reader bytes

end Contents

namespace Disk

/-- The documents in a folder, of which there are none if there is no folder. -/
def documents {α : Type} (d : Disk) (reader : Reader α) (path : String) :
    Except LoadError (List α) :=
  if !d.has path then .ok []
  else match d.contents? path with
    | some cs => .ok (cs.documents reader)
    | none => .error (.folderUnreadable path)

def rawTemplates (d : Disk) (product : String) : Except LoadError RawTemplates := do
  if !d.isFolder product then throw (.productMissing product)
  return {
    instanceTemplates :=
      ← d.documents InstanceTemplate.read (Path.join product "instance-templates")
    applicationTemplates :=
      ← d.documents ApplicationTemplate.read (Path.join product "application-templates")
    parameterTemplates :=
      ← d.documents ParameterTemplate.read (Path.join product "parameter-templates")
    variableTemplates :=
      ← d.documents VariableTemplate.read (Path.join product "instance-variable-templates") }

def treeDigest (d : Disk) (product : String) : Except LoadError String :=
  match d.contents? product with
  | some cs => .ok cs.digest
  | none => .error (.folderUnreadable product)

def contentKey (d : Disk) (product : String) (maxDepth : Nat) : Except LoadError String :=
  (d.treeDigest product).map (ProductTemplates.contentKey · maxDepth)

end Disk
end ProductTemplates
