import ProductTemplates.Digest.Blake3
import ProductTemplates.FileTree.Disk
import ProductTemplates.Text.Order

/-! The content of a product: what is in its folder without hidden entries, links to folders,
dangling links and pipes. A link to a file counts as the file. Both the digest and the loader see
a folder through its content. -/
namespace ProductTemplates

inductive ContentKind where
  | folder
  | file
deriving Repr, DecidableEq

/-- The entries of a folder are sorted by name. -/
inductive Content where
  | folder (entries : List (String × Content))
  | file (bytes : Bytes)
deriving Repr, Inhabited

abbrev Contents := List (String × Content)

namespace Content

def kind : Content → ContentKind
  | folder _ => .folder
  | file _ => .file

def isHidden (name : String) : Bool := name.startsWith "."

mutual
/-- The content of an entry in the folder at a path. What a link leads to is found by its path. -/
def ofNode? (d : Disk) (folder : String) (name : String) : FileTree → Option Content
  | .folder entries =>
    if isHidden name then none
    else some (.folder (Text.sortOn (·.1) (ofEntries d (Path.join folder name) entries)))
  | .file bytes => if isHidden name then none else some (.file bytes)
  | .link _ => if isHidden name then none else (d.read? (Path.join folder name)).map .file
  | .pipe => none
def ofEntries (d : Disk) (folder : String) : List (String × FileTree) → Contents
  | [] => []
  | (name, node) :: rest =>
    match ofNode? d folder name node with
    | some content => (name, content) :: ofEntries d folder rest
    | none => ofEntries d folder rest
end

mutual
/-- The bytes of an entry: its path, a mark for its kind, and what is in it. The length of a file
stands in front of its bytes. -/
def bytes (path : String) : Content → Bytes
  | folder entries => path.toUTF8.toList ++ 0xFF :: bytesOfAll path entries
  | file bytes =>
    path.toUTF8.toList ++ 0x00 :: Digest.littleEndian 8 bytes.length ++ bytes
def bytesOfAll (base : String) : Contents → Bytes
  | [] => []
  | (name, content) :: rest =>
    bytes (if base = "" then name else base ++ "/" ++ name) content ++ bytesOfAll base rest
end

mutual
/-- The files in it, each with its name, in the order of their paths. -/
def files (name : String) : Content → List (String × Bytes)
  | folder entries => filesOfAll entries
  | file bytes => [(name, bytes)]
def filesOfAll : Contents → List (String × Bytes)
  | [] => []
  | (name, content) :: rest => files name content ++ filesOfAll rest
end

end Content

namespace Disk

/-- The content of a folder; none if the path does not lead to one. -/
def contents? (d : Disk) (path : String) : Option Contents :=
  match d.found? path with
  | some (_, .folder entries) => some (Text.sortOn (·.1) (Content.ofEntries d path entries))
  | _ => none

def classify? (d : Disk) (path : String) : Option (List (String × Option ContentKind)) :=
  match d.found? path with
  | some (_, .folder entries) =>
    some (Text.sortOn (·.1) (entries.map fun (name, node) =>
      (name, (Content.ofNode? d path name node).map Content.kind)))
  | _ => none

end Disk

def Contents.bytes (cs : Contents) : Bytes := Content.bytesOfAll "" cs

def Contents.digest (cs : Contents) : String := Digest.blake3 cs.bytes

/-- The bytes of a content key: the digest, the depth limit and the version of the resolver. -/
def keyBytes (digest : String) (maxDepth : Nat) : Bytes :=
  digest.toUTF8.toList ++ Digest.littleEndian 8 maxDepth ++ "0.1.0".toUTF8.toList

/-- Names everything that the resolved templates depend on. -/
def contentKey (digest : String) (maxDepth : Nat) : String := Digest.blake3 (keyBytes digest maxDepth)

end ProductTemplates
