import Reflash.File.Path

set_option autoImplicit false

/-! # The download cache

Files are kept per device, and for each device per file group. -/

namespace Reflash

/-- Where the files of one device are kept. -/
structure Cache where
  root : Path
  codename : String
deriving Repr, Inhabited

namespace Cache

/-- The directory of a file group. -/
def groupDir (c : Cache) (group : String) : Path :=
  (c.root.child c.codename).child group

/-- The place of a file of a group. -/
def path (c : Cache) (group name : String) : Path :=
  (c.groupDir group).child name

end Cache

end Reflash
