import ProductTemplates.Proofs.FileTree.Making

/-! The folder of a path: where a path leads somewhere, the folder before its last name is there, and
so are all folders around it. -/
namespace ProductTemplates

namespace Path

variable {path folder : String} {cs tail : List Char} {c : Char} {ns : List String}

end Path

namespace Disk

variable {d : Disk} {root : FileTree} {links : Nat} {spot steps rest : List String} {step path : String}
  {place : Place}

end Disk
end ProductTemplates
