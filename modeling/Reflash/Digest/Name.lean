import Reflash.Digest.Blake2
import Reflash.Digest.Early
import Reflash.Digest.Sha3
import Reflash.Text.Lowercase
import Reflash.Text.Quoted

set_option autoImplicit false

/-! # Digests by name

The digests that every runtime has. Two more have no length of their own, so there is no sum of
theirs to compare (`DigestName.isLengthless`). -/

namespace Reflash

/-- A digest that a checksum can name. -/
inductive DigestName where
  | md5
  | sha1
  | sha224
  | sha256
  | sha384
  | sha512
  | sha3_224
  | sha3_256
  | sha3_384
  | sha3_512
  | blake2b
  | blake2s
deriving Repr, DecidableEq

namespace DigestName

/-- All digests. -/
def all : List DigestName :=
  [md5, sha1, sha224, sha256, sha384, sha512, sha3_224, sha3_256, sha3_384, sha3_512, blake2b,
    blake2s]

/-- The names of a digest in any case, here in lower case. -/
def names : DigestName → List String
  | md5 => ["md5"]
  | sha1 => ["sha1", "sha-1"]
  | sha224 => ["sha224", "sha-224", "sha2-224"]
  | sha256 => ["sha256", "sha-256", "sha2-256"]
  | sha384 => ["sha384", "sha-384", "sha2-384"]
  | sha512 => ["sha512", "sha-512", "sha2-512"]
  | sha3_224 => ["sha3-224"]
  | sha3_256 => ["sha3-256"]
  | sha3_384 => ["sha3-384"]
  | sha3_512 => ["sha3-512"]
  | blake2b => ["blake2b512", "blake2b-512"]
  | blake2s => ["blake2s256", "blake2s-256"]

/-- The name of a digest that is known in lower case only, if it has one. -/
def plainName? : DigestName → Option String
  | sha3_224 => some "sha3_224"
  | sha3_256 => some "sha3_256"
  | sha3_384 => some "sha3_384"
  | sha3_512 => some "sha3_512"
  | blake2b => some "blake2b"
  | blake2s => some "blake2s"
  | _ => none

/-- The digest with a given name. -/
def ofText? (name : String) : Option DigestName :=
  all.find? fun d => d.names.contains (Text.lowercase name) || d.plainName? == some name

/-- Whether a name is that of a digest of any length. -/
def isLengthless (name : String) : Bool :=
  ["shake_128", "shake_256"].contains name ||
    ["shake128", "shake-128", "shake256", "shake-256"].contains (Text.lowercase name)

/-- The bytes of the digest of a content. -/
def bytes : DigestName → ByteArray → List UInt8
  | md5 => Digest.md5
  | sha1 => Digest.sha1
  | sha224 => Digest.sha224
  | sha256 => Digest.sha256
  | sha384 => Digest.sha384
  | sha512 => Digest.sha512
  | sha3_224 => Digest.sha3 28
  | sha3_256 => Digest.sha3 32
  | sha3_384 => Digest.sha3 48
  | sha3_512 => Digest.sha3 64
  | blake2b => Digest.blake2b
  | blake2s => Digest.blake2s

/-- The digest of a content in hexadecimal digits. -/
def hex (d : DigestName) (content : ByteArray) : String :=
  String.ofList ((d.bytes content).flatMap fun b => Text.hexDigits 2 b.toNat)

end DigestName

end Reflash
