import ProductTemplates.FileTree
import ProductTemplates.FileTree.Path

/-! Files as a program finds and changes them, by paths that may lead through links. -/
namespace ProductTemplates

/-- All files, and the folder in which relative paths begin. -/
structure Disk where
  root : FileTree := .folder []
  here : List String := []
deriving Repr, Inhabited

/-- Where a path ends: at something, with the path of names that leads there, or at a name that is
still free in a folder. -/
inductive Place where
  | found (path : List String) (node : FileTree)
  | vacant (folder : List String) (name : String)
deriving Repr, Inhabited

namespace Disk

def maxLinks : Nat := 40

def isName (name : String) : Bool := name.utf8ByteSize ≤ 255 && !name.toList.contains '\x00'

/-- Walks on from the folder `spot`. A link at the end is only followed on request. -/
def walk (root : FileTree) (follow : Bool) (links : Nat) (spot : List String) :
    List String → Option Place
  | [] => (root.get? spot).map (.found spot)
  | step :: rest =>
    match root.get? spot with
    | some (.folder es) =>
      if step = "." then walk root follow links spot rest
      else if step = ".." then walk root follow links spot.dropLast rest
      else if !isName step then none
      else match es.lookup step with
        | none => if rest = [] then some (.vacant spot step) else none
        | some (.link target) =>
          if rest = [] ∧ !follow then some (.found (spot ++ [step]) (.link target))
          else match links with
            | 0 => none
            | links + 1 =>
              walk root follow links (if Path.isAbsolute target then [] else spot)
                (Path.steps target ++ rest)
        | some _ => walk root follow links (spot ++ [step]) rest
    | _ => none
termination_by steps => (links, steps.length)

def place? (d : Disk) (path : String) : Option Place :=
  if path = "" then none
  else walk d.root true maxLinks (if Path.isAbsolute path then [] else d.here) (Path.steps path)

/-- Where a path leads if a link at its end is not followed. -/
def ownPlace? (d : Disk) (path : String) : Option Place :=
  if path = "" then none
  else walk d.root false maxLinks (if Path.isAbsolute path then [] else d.here) (Path.steps path)

def found? (d : Disk) (path : String) : Option (List String × FileTree) :=
  match d.place? path with
  | some (.found names node) => some (names, node)
  | _ => none

def has (d : Disk) (path : String) : Bool := (d.found? path).isSome

def isFolder (d : Disk) (path : String) : Bool := (d.found? path).any (·.2.isFolder)

def read? (d : Disk) (path : String) : Option Bytes :=
  match d.found? path with
  | some (_, .file bytes) => some bytes
  | _ => none

def put (d : Disk) (path : List String) (node : FileTree) : Disk :=
  { d with root := d.root.put path node }

def write? (d : Disk) (path : String) (bytes : Bytes) : Option Disk :=
  match d.place? path with
  | some (.found names (.file _)) => some (d.put names (.file bytes))
  | some (.vacant folder name) => some (d.put (folder ++ [name]) (.file bytes))
  | _ => none

def makeFolder? (d : Disk) (path : String) : Option Disk :=
  if d.isFolder path then some d
  else match d.ownPlace? path with
    | some (.vacant folder name) => some (d.put (folder ++ [name]) (.folder []))
    | _ => none

/-- The paths of the folders around the one that a path means, and the path itself. -/
def stages (path : String) : List String :=
  match Path.names path with
  | [] => []
  | name :: more =>
    let names := name :: more
    let above := ((names.reverse.dropWhile (· == ".")).drop 1).reverse
    (List.range above.length).map (fun n => Path.beside path (above.take (n + 1))) ++
      [Path.beside path names]

/-- Makes one folder after the other, up to one that cannot be made. -/
def makeEach (d : Disk) : List String → Bool × Disk
  | [] => (true, d)
  | path :: rest =>
    match d.makeFolder? path with
    | some d => makeEach d rest
    | none => (false, d)

/-- Makes a folder and all that it needs around it, and says whether it is there. What was made
before a failure stays. -/
def makeFolders (d : Disk) (path : String) : Bool × Disk := d.makeEach (stages path)

def remove? (d : Disk) (path : String) : Option Disk :=
  match d.ownPlace? path with
  | some (.found names _) => some { d with root := d.root.erase names }
  | _ => none

def move? (d : Disk) (source target : String) : Option Disk :=
  match d.ownPlace? source, d.ownPlace? target with
  | some (.found old node), some (.vacant folder name) =>
    some ({ d with root := d.root.erase old }.put (folder ++ [name]) node)
  | some (.found old node), some (.found names other) =>
    if other.isFolder then none
    else some ({ d with root := d.root.erase old }.put names node)
  | _, _ => none

end Disk
end ProductTemplates
