import Reflash.Digest.Name
import Reflash.File.Store
import Reflash.Value.Access

set_option autoImplicit false

/-! # Checksums

A checksum names a digest, SHA-256 if it names none, and gives the expected sum in hexadecimal
digits of any case. Without a sum there is nothing to compare, and any file passes. A digest of any
length is known but gives no sum. -/

namespace Reflash.Checksum

/-- The digest that a checksum names. -/
def algorithm (checksum : Entries) : Fallible DigestName := do
  let name ← ((checksum.fieldD "algorithm").orElse (.str "sha256")).shown
  match DigestName.ofText? name with
  | some d => return d
  | none =>
    if DigestName.isLengthless name then throw .mistyped
    else throw (.invalid ("unsupported hash type " ++ name))

/-- Whether a content has the given checksum, if there is one. -/
def fits (content : ByteArray) (checksum : Value) : Fallible Bool :=
  if !checksum.truth then .ok true
  else
    match checksum with
    | .mapping es =>
      let sum := Entries.fieldD "sum" es
      if !sum.truth then .ok true
      else do
        let d ← algorithm es
        return d.hex content == Text.lowercase (← sum.shown)
    | _ => .error .mistyped

/-- Whether a file is there and has the given checksum, if there is one. -/
def verify (fs : FileStore) (p : Path) (checksum : Value) : Fallible Bool :=
  match fs.lookup p with
  | .ok (.file content) => fits content checksum
  | .error .nameTooLong => .error (.file .nameTooLong [p.text])
  | _ => .ok false

end Reflash.Checksum
