import Reflash.Document.Load

set_option autoImplicit false

/-! # The device catalog

A directory with one document for each device, named for the device. -/

namespace Reflash

/-- A directory of device documents. -/
structure Catalog where
  root : Path
deriving Repr, Inhabited

namespace Catalog

/-- The suffixes of device documents, in the order in which they are tried. -/
def suffixes : List String := [".yaml", ".yml", ".json"]

/-- Whether a directory is there. -/
def isThere (c : Catalog) (fs : FileStore) : Fallible Bool := do
  return (← fs.exists? c.root) && fs.isDirectory c.root

/-- The devices that have a document, in order. -/
def codenames (c : Catalog) (fs : FileStore) : Fallible (List String) := do
  if !(← c.isThere fs) then return []
  let names ← atPath c.root (fs.list c.root)
  let stems := names.filterMap fun name =>
    let (stem, suffix) := Path.splitSuffix name
    if suffixes.contains (Text.lowercase suffix) then some stem else none
  return (stems.mergeSort fun a b => !(b < a)).eraseDups

/-- The document of a device, under the first suffix for which there is one. -/
def firstDocument (c : Catalog) (fs : FileStore) (codename : String) :
    List String → Fallible Entries
  | [] =>
    .error (.fileMissing ("No config for device " ++ Text.quoted codename ++ " in " ++ c.root.text))
  | suffix :: rest => do
    let p := c.root.child (codename ++ suffix)
    if ← fs.exists? p then Document.load fs p else firstDocument c fs codename rest

/-- The document of a device. -/
def device (c : Catalog) (fs : FileStore) (codename : String) : Fallible Entries :=
  c.firstDocument fs codename suffixes

end Catalog

end Reflash
