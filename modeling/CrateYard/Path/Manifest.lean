import CrateYard.FileTree.Resolve

/-! Paths around a manifest. -/

namespace CrateYard

namespace Path

def manifestName : Path := ⟨"Cargo.toml"⟩

/-- The name of the file that locks versions. -/
def lockName : String := "Cargo.lock"

def dir (p : Path) : Path :=
  p.parent?.getD p

/-- The lock file beside a manifest; a path that is no such document stands for itself. -/
def lockFile (p : Path) : Path :=
  if p.extension? = some "toml" then p.withExtension "lock" else p

/-- Where a compiler installation keeps the sources of its libraries. -/
def librarySources (sysroot : Path) : Path :=
  sysroot.join ⟨"lib/rustlib/src/rust/library"⟩

end Path

namespace FileTree

/-- The manifest that a path names: a directory names the one in it. -/
def manifest (t : FileTree) (p : Path) : Except PathError Path :=
  if t.isDirectory p then t.canonical (p.join .manifestName) else t.canonical p

end FileTree
end CrateYard
