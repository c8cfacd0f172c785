import Reflash.Document.Yaml.Tag
import Reflash.Document.Yaml.Lexer

set_option autoImplicit false

/-! # From tokens to nodes

A document is one node: a scalar, a sequence of nodes or a mapping of nodes, with a tag. An alias
stands for the node that was given its name before, which is put in its place here. -/

namespace Reflash.Yaml

/-- A node. -/
inductive Node where
  | scalar (tag : Tag) (text : String)
  | sequence (tag : Tag) (items : List Node)
  | mapping (tag : Tag) (entries : List (Node × Node))

namespace Node

/-- The tag of a node. -/
def tag : Node → Tag
  | scalar t _ | sequence t _ | mapping t _ => t

/-- What a part of a document that is left out stands for. -/
def empty : Node := .scalar .null ""

end Node

/-- The tokens that are left, and the nodes that were given a name. -/
structure NodeReader where
  tokens : List Token
  named : List (String × Node) := []

/-- The short forms of tags: what each handle stands for. -/
abbrev Handles := List (String × String)

/-- What the handles stand for that every document knows. -/
def usualHandles : Handles := [("!", "!"), ("!!", Tag.domain)]

/-- A part of a document and the reader behind it. -/
abbrev Parse (α : Type) := NodeReader → Fallible (α × NodeReader)

namespace NodeReader

/-- Whether the next token is one of some kinds; the end of the tokens is none. -/
def at_ (r : NodeReader) (p : Token → Bool) : Bool :=
  (r.tokens.head?.map p).getD false

/-- The reader behind the next token. -/
def rest (r : NodeReader) : NodeReader := { r with tokens := r.tokens.tail }

/-- The name and the tag before a node, in any order. -/
def properties (r : NodeReader) : Option String × Option TagText × NodeReader :=
  match r.tokens with
  | .anchor a :: .tag t :: rest => (some a, some t, { r with tokens := rest })
  | .tag t :: .anchor a :: rest => (some a, some t, { r with tokens := rest })
  | .anchor a :: rest => (some a, none, { r with tokens := rest })
  | .tag t :: rest => (none, some t, { r with tokens := rest })
  | _ => (none, none, r)

end NodeReader

/-- The full form of a tag; nothing for the mark that leaves it open. -/
def fullTag (handles : Handles) : Option TagText → Fallible (Option String)
  | none => .ok none
  | some ⟨none, suffix⟩ => .ok (if suffix = "!" then none else some suffix)
  | some ⟨some handle, suffix⟩ =>
    match handles.lookup handle with
    | some target =>
      let full := target ++ suffix
      .ok (if full = "!" then none else some full)
    | none => refuse

/-- The tag of a scalar. Without a written one it depends on the form of a plain text, and a
quoted text is text; the mark that leaves the tag open makes any text count as plain. -/
def scalarTag (written : Bool) (full : Option String) (plain : Bool) (text : String) : Tag :=
  match full with
  | some name => .ofText name
  | none => if plain || written then .ofPlain text else .str

/-- The tag of a collection. -/
def collectionTag (full : Option String) (usual : Tag) : Tag :=
  (full.map Tag.ofText).getD usual

/-- Where a node stands: whether indentation may begin a collection there, and whether elements
may stand at the column of their mapping. -/
inductive Place where
  | flow
  | block
  | blockEntry
deriving Repr, DecidableEq

/-- Whether a value is left out before a token inside an indented mapping. -/
def endsBlockEntry : Token → Bool
  | .key | .value | .blockEnd => true
  | _ => false

/-- Whether an element is left out before a token inside an indented sequence. -/
def endsBlockItem : Token → Bool
  | .entry | .blockEnd => true
  | _ => false

/-- Whether an element is left out before a token inside a sequence at the column of its
mapping. -/
def endsLevelItem : Token → Bool
  | .entry | .key | .value | .blockEnd => true
  | _ => false

/-- Whether a key of a pair is left out before a token inside brackets. -/
def endsFlowKey (close : Token) (t : Token) : Bool :=
  t == .value || t == .flowEntry || t == close

/-- Whether a value is left out before a token inside brackets. -/
def endsFlowValue (close : Token) (t : Token) : Bool :=
  t == .flowEntry || t == close

mutual

/-- A node. -/
def node (handles : Handles) (place : Place) : Nat → Parse Node
  | 0, _ => refuse
  | depth + 1, r =>
    match r.tokens with
    | .alias name :: _ =>
      match r.named.lookup name with
      | some n => .ok (n, r.rest)
      | none => refuse
    | _ => do
      let (anchor, written, r) := r.properties
      let full ← fullTag handles written
      if (anchor.bind fun a => r.named.lookup a).isSome then refuse
      let (n, r) ← content handles place depth anchor.isSome written full r
      match anchor with
      | none => return (n, r)
      | some a =>
        if (r.named.lookup a).isSome then refuse
        else return (n, { r with named := (a, n) :: r.named })

/-- What stands behind the properties of a node. -/
def content (handles : Handles) (place : Place) :
    Nat → Bool → Option TagText → Option String → Parse Node
  | 0, _, _, _, _ => refuse
  | depth + 1, named, written, full, r =>
    match r.tokens, place with
    | .entry :: _, .blockEntry => do
      let (items, r) ← levelItems handles depth r
      return (.sequence (collectionTag full .seq) items, r)
    | .scalar text plain :: _, _ =>
      .ok (.scalar (scalarTag written.isSome full plain text) text, r.rest)
    | .flowSequence :: _, _ => do
      let (items, r) ← flowItems handles depth true r.rest
      return (.sequence (collectionTag full .seq) items, r)
    | .flowMapping :: _, _ => do
      let (entries, r) ← flowEntries handles depth true r.rest
      return (.mapping (collectionTag full .map) entries, r)
    | .blockSequence :: _, .block | .blockSequence :: _, .blockEntry => do
      let (items, r) ← blockItems handles depth r.rest
      return (.sequence (collectionTag full .seq) items, r)
    | .blockMapping :: _, .block | .blockMapping :: _, .blockEntry => do
      let (entries, r) ← blockEntries handles depth r.rest
      return (.mapping (collectionTag full .map) entries, r)
    | _, _ =>
      if named || written.isSome then .ok (.scalar (scalarTag true full true "") "", r)
      else refuse

/-- A node unless it is left out. -/
def nodeUnless (handles : Handles) (place : Place) (out : Token → Bool) : Nat → Parse Node
  | 0, _ => refuse
  | depth + 1, r =>
    if r.at_ out then .ok (.empty, r) else node handles place depth r

/-- The value behind its mark; without the mark it is left out. -/
def valueUnless (handles : Handles) (place : Place) (out : Token → Bool) : Nat → Parse Node
  | 0, _ => refuse
  | depth + 1, r =>
    if r.at_ (· == .value) then nodeUnless handles place out depth r.rest else .ok (.empty, r)

/-- The elements of an indented sequence. -/
def blockItems (handles : Handles) : Nat → Parse (List Node)
  | 0, _ => refuse
  | depth + 1, r =>
    match r.tokens with
    | .entry :: _ => do
      let (n, r) ← nodeUnless handles .block endsBlockItem depth r.rest
      let (ns, r) ← blockItems handles depth r
      return (n :: ns, r)
    | .blockEnd :: _ => .ok ([], r.rest)
    | _ => refuse

/-- The elements of a sequence at the column of its mapping. -/
def levelItems (handles : Handles) : Nat → Parse (List Node)
  | 0, _ => refuse
  | depth + 1, r =>
    match r.tokens with
    | .entry :: _ => do
      let (n, r) ← nodeUnless handles .block endsLevelItem depth r.rest
      let (ns, r) ← levelItems handles depth r
      return (n :: ns, r)
    | _ => .ok ([], r)

/-- The entries of an indented mapping. -/
def blockEntries (handles : Handles) : Nat → Parse (List (Node × Node))
  | 0, _ => refuse
  | depth + 1, r =>
    match r.tokens with
    | .key :: _ => do
      let (k, r) ← nodeUnless handles .blockEntry endsBlockEntry depth r.rest
      let (v, r) ← valueUnless handles .blockEntry endsBlockEntry depth r
      let (es, r) ← blockEntries handles depth r
      return ((k, v) :: es, r)
    | .blockEnd :: _ => .ok ([], r.rest)
    | _ => refuse

/-- The elements of a sequence in brackets. A pair may stand there without brackets of its own. -/
def flowItems (handles : Handles) : Nat → Bool → Parse (List Node)
  | 0, _, _ => refuse
  | depth + 1, first, r =>
    match r.tokens with
    | .flowSequenceEnd :: _ => .ok ([], r.rest)
    | _ =>
      if !first && !r.at_ (· == .flowEntry) then refuse
      else
        let r := if first then r else r.rest
        match r.tokens with
        | .flowSequenceEnd :: _ => .ok ([], r.rest)
        | .key :: _ => do
          let (k, r) ← nodeUnless handles .flow (endsFlowKey .flowSequenceEnd) depth r.rest
          let (v, r) ← valueUnless handles .flow (endsFlowValue .flowSequenceEnd) depth r
          let (ns, r) ← flowItems handles depth false r
          return (.mapping .map [(k, v)] :: ns, r)
        | _ => do
          let (n, r) ← node handles .flow depth r
          let (ns, r) ← flowItems handles depth false r
          return (n :: ns, r)

/-- The entries of a mapping in brackets. A key may stand there without a value. -/
def flowEntries (handles : Handles) : Nat → Bool → Parse (List (Node × Node))
  | 0, _, _ => refuse
  | depth + 1, first, r =>
    match r.tokens with
    | .flowMappingEnd :: _ => .ok ([], r.rest)
    | _ =>
      if !first && !r.at_ (· == .flowEntry) then refuse
      else
        let r := if first then r else r.rest
        match r.tokens with
        | .flowMappingEnd :: _ => .ok ([], r.rest)
        | .key :: _ => do
          let (k, r) ← nodeUnless handles .flow (endsFlowKey .flowMappingEnd) depth r.rest
          let (v, r) ← valueUnless handles .flow (endsFlowValue .flowMappingEnd) depth r
          let (es, r) ← flowEntries handles depth false r
          return ((k, v) :: es, r)
        | _ => do
          let (k, r) ← node handles .flow depth r
          let (es, r) ← flowEntries handles depth false r
          return ((k, .empty) :: es, r)

end

/-! ## Documents -/

/-- The handles that directives declare, each once, after those that were seen; a version may be
claimed once, and only the first one is known. -/
def directives (seen : Handles) (versioned : Bool) : List Token → Fallible (Handles × List Token)
  | .directive (.version major) :: rest =>
    if versioned || major != 1 then refuse else directives seen true rest
  | .directive (.handle name target) :: rest =>
    if (seen.lookup name).isSome then refuse else directives ((name, target) :: seen) versioned rest
  | .directive .other :: rest => directives seen versioned rest
  | rest => .ok (seen, rest)

/-- The tokens behind the ends of documents. -/
def behindEnds : List Token → List Token
  | .documentEnd :: rest => behindEnds rest
  | rest => rest

/-- The tokens behind a document, which must be the last one. -/
def atEnd (tokens : List Token) : Fallible Unit :=
  if (behindEnds tokens).isEmpty then .ok () else refuse

/-- Whether a document is left out before a token. -/
def endsDocument : List Token → Bool
  | [] | .directive _ :: _ | .documentStart :: _ | .documentEnd :: _ => true
  | _ => false

/-- The only document of a stream of tokens; nothing if there is none. -/
def document (tokens : List Token) : Fallible (Option Node) := do
  let fuel := 4 * tokens.length + 4
  match tokens with
  | [] => return none
  | .directive _ :: _ | .documentStart :: _ =>
    let (declared, rest) ← directives [] false tokens
    match rest with
    | .documentStart :: rest =>
      if endsDocument rest then
        atEnd rest
        return some .empty
      else
        let (n, r) ← node (declared ++ usualHandles) .block fuel { tokens := rest }
        atEnd r.tokens
        return some n
    | _ => refuse
  | tokens =>
    let (n, r) ← node usualHandles .block fuel { tokens }
    atEnd r.tokens
    return some n

end Reflash.Yaml
