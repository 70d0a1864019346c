import ProductTemplates.Proofs.FileTree.Moving
import ProductTemplates.Proofs.FileTree.Parent

/-! Writing a file: it can be written where a file is or a name is free, and is then read there. -/
namespace ProductTemplates.Disk

open FileTree

variable {d d' : Disk} {path : String} {bytes : Bytes} {place : Place}

end ProductTemplates.Disk
