import Reflash.Document.Json
import Reflash.Document.Yaml.Content
import Reflash.File.Store
import Reflash.Text.Lines

set_option autoImplicit false

/-! # Documents in files

The suffix of a file's name says which format its document has. A document of a file is always a
mapping; an empty YAML document counts as the empty one. -/

namespace Reflash.Document

/-- The format of the documents in files of a name. -/
def formatOf (p : Path) : DocumentFormat :=
  if [".yaml", ".yml"].contains (Text.lowercase p.suffix) then .yaml else .json

/-- The value of a document. -/
def read (format : DocumentFormat) (text : String) : Fallible Value :=
  match format with
  | .yaml => (Yaml.read text).map fun v => v.orElse (.mapping [])
  | .json => Json.read text

/-- The mapping that the document of a file is. -/
def load (fs : FileStore) (p : Path) : Fallible Entries := do
  if !(← fs.exists? p) then throw (.fileMissing p.text)
  let some text := Text.ofBytes? (← atPath p (fs.read p)) | throw .notText
  match ← read (formatOf p) text with
  | .mapping es => return es
  | v => throw (.config (p.text ++ " must contain a mapping/object, got " ++ v.typeName))

end Reflash.Document
