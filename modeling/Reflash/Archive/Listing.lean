import Reflash.Archive.Bits

set_option autoImplicit false

/-! # What an archive holds -/

namespace Reflash.Archive

/-- A file or a directory of an archive. -/
structure Entry where
  name : String
  /-- The content of a file; a directory has none. -/
  content : Option ByteArray

/-- The entries of an archive, in order. A damaged archive is read up to its first flaw. -/
structure Listing where
  entries : List Entry := []
  damaged : Bool := false
deriving Inhabited

namespace Listing

/-- A listing with one entry more at its front. -/
def cons (e : Entry) (l : Listing) : Listing :=
  { l with entries := e :: l.entries }

/-- What is left of an archive at a flaw. -/
def flawed : Listing := { damaged := true }

end Listing

end Reflash.Archive
