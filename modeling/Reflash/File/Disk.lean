import Reflash.File.Store
import Reflash.Run.Host

set_option autoImplicit false

/-! # Files of a world -/

namespace Reflash

/-- Where the files of a world are: how they are seen, and how they are changed. What was put there
is what is seen there. -/
structure Disk (σ : Type) where
  files : σ → FileStore
  put : FileStore → σ → σ
  files_put : ∀ (fs : FileStore) (w : σ), files (put fs w) = fs := by intros; rfl

namespace Disk

variable {σ : Type}

/-- The files as they are now. -/
def current (disk : Disk σ) : Job σ FileStore :=
  Run.world fun w => (disk.files w, w)

/-- Changes the files, or fails and leaves them as they are. -/
def change (disk : Disk σ) (f : FileStore → Fallible FileStore) : Job σ Unit := do
  let fs ← f (← disk.current)
  Run.world fun w => ((), disk.put fs w)

/-- Makes a directory and those above it. -/
def ensureDirectory (disk : Disk σ) (p : Path) : Job σ Unit :=
  disk.change fun fs => fs.ensureDirectory p

/-- Copies the content of a file to a path. -/
def copy (disk : Disk σ) (source : String) (target : Path) : Job σ Unit :=
  disk.change fun fs => fs.copy source target

end Disk

end Reflash
