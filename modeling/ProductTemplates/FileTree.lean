/-! A tree of files and folders. A folder lists its entries in any order, each under a name of its
own. -/
namespace ProductTemplates

abbrev Bytes := List UInt8

/-- A link holds the path that it stands for. A pipe stands for all that is neither file, folder
nor link. -/
inductive FileTree where
  | folder (entries : List (String × FileTree))
  | file (bytes : Bytes)
  | link (target : String)
  | pipe
deriving Repr, Inhabited

namespace FileTree

def isFolder : FileTree → Bool
  | folder _ => true
  | _ => false

def child? (name : String) : FileTree → Option FileTree
  | folder es => es.lookup name
  | _ => none

def get? : List String → FileTree → Option FileTree
  | [], t => some t
  | name :: rest, t => (t.child? name).bind (get? rest)

/-- Changes one entry of a list; an entry that is not there may be added behind the others. -/
def alterEntry (name : String) (f : Option FileTree → Option FileTree) :
    List (String × FileTree) → List (String × FileTree)
  | [] => ((f none).map (name, ·)).toList
  | (other, t) :: rest =>
    if other = name then ((f (some t)).map (name, ·)).toList ++ rest
    else (other, t) :: alterEntry name f rest

/-- Changes what stands at the end of a path, if its folder is there. -/
def alter (f : Option FileTree → Option FileTree) : List String → FileTree → FileTree
  | [name], folder es => folder (alterEntry name f es)
  | name :: rest, folder es =>
    folder (es.map fun (other, t) => (other, if other = name then alter f rest t else t))
  | _, t => t

def put (t : FileTree) (path : List String) (node : FileTree) : FileTree :=
  t.alter (fun _ => some node) path

def erase (t : FileTree) (path : List String) : FileTree := t.alter (fun _ => none) path

end FileTree
end ProductTemplates
