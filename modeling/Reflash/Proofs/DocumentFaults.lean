import Reflash.Document.Load

set_option autoImplicit false

/-! # Why documents cannot be read

Reading a document fails because of its text and of nothing else (`Document.read_textual`): the file
system, the state of a run and the user have no part in it. There is one lemma for each reader, in the
order in which the readers are built on each other. The readers of nested values call each other with
one unit of depth less, so all that hold at a depth hold at the next one (`Json.ReadsTextual`,
`Yaml.ParsesTextual`).

A statement `Textual x` goes through what a reader is put together from by rewriting: the rules for
sequences, cases and mapped results say exactly when it holds. -/

namespace Reflash

/-- Whether a cause is that of a text which cannot be read. -/
def Fault.isTextual : Fault → Bool
  | .malformed _ | .invalid _ | .notNumber | .overflow | .mistyped | .outOfRange | .missingKey _ =>
    true
  | _ => false

/-- A computation fails at most because of a text. -/
def Textual {α : Type} (x : Fallible α) : Prop :=
  ∀ e, x = .error e → e.isTextual = true

namespace Textual

variable {α β : Type}

@[simp] theorem ok (a : α) : Textual (.ok a : Fallible α) := fun _ h => nomatch h

@[simp] theorem pure (a : α) : Textual (Pure.pure a : Fallible α) := fun _ h => nomatch h

@[simp] theorem error_iff {e : Fault} : Textual (.error e : Fallible α) ↔ e.isTextual = true :=
  ⟨fun h => h e rfl, fun h _ he => by cases he; exact h⟩

@[simp] theorem bind_iff {x : Fallible α} {f : α → Fallible β} :
    Textual (x >>= f) ↔ Textual x ∧ ∀ a, x = .ok a → Textual (f a) := by
  cases x with
  | ok a => exact ⟨fun h => ⟨ok a, fun _ ha => by cases ha; exact h⟩, fun h => h.2 a rfl⟩
  | error e =>
    change Textual (.error e : Fallible β) ↔ _
    simp

theorem bind {x : Fallible α} {f : α → Fallible β} (hx : Textual x) (hf : ∀ a, Textual (f a)) :
    Textual (x >>= f) :=
  bind_iff.mpr ⟨hx, fun a _ => hf a⟩

@[simp] theorem map_iff {x : Fallible α} {f : α → β} : Textual (x.map f) ↔ Textual x := by
  cases x <;> simp [Except.map]

@[simp] theorem fmap_iff {x : Fallible α} {f : α → β} : Textual (f <$> x) ↔ Textual x := map_iff

@[simp] theorem ite_iff {c : Prop} [Decidable c] {x y : Fallible α} :
    Textual (if c then x else y) ↔ (c → Textual x) ∧ (¬ c → Textual y) := by
  split <;> simp [*]

@[simp] theorem mapM {f : α → Fallible β} (h : ∀ x, Textual (f x)) (xs : List α) :
    Textual (xs.mapM f) := by
  induction xs with
  | nil => exact pure []
  | cons x xs ih => simp [List.mapM_cons, h, ih]

@[simp] theorem mapM_option {f : α → Fallible β} (h : ∀ x, Textual (f x)) (x : Option α) :
    Textual (x.mapM f) := by
  cases x with
  | none => exact pure none
  | some a => exact fmap_iff.mpr (h a)

end Textual

/-! ## JSON -/

namespace Json

@[simp] theorem refuse_textual {α : Type} : Textual (refuse : Fallible α) :=
  Textual.error_iff.mpr rfl

@[simp] theorem escapedUnit_textual (cs : List Char) : Textual (escapedUnit cs) := by
  fun_cases escapedUnit cs <;> simp

@[simp] theorem textFrom_textual (fuel : Nat) (acc cs : List Char) :
    Textual (textFrom fuel acc cs) := by
  fun_induction textFrom fuel acc cs <;> simp [*]

@[simp] theorem text_textual (cs : List Char) : Textual (text cs) :=
  textFrom_textual _ _ _

@[simp] theorem magnitude_textual (negative : Bool) (cs : List Char) :
    Textual (magnitude negative cs) := by
  fun_cases magnitude negative cs <;> simp [Fault.isTextual]

@[simp] theorem number_textual (cs : List Char) : Textual (number cs) := by
  fun_cases number cs <;> simp

/-- The readers of nested values fail at most because of the text, at a depth. -/
structure ReadsTextual (depth : Nat) : Prop where
  value (cs : List Char) : Textual (value depth cs)
  elements (cs : List Char) : Textual (elements depth cs)
  members (cs : List Char) : Textual (members depth cs)

theorem reads_textual (depth : Nat) : ReadsTextual depth := by
  induction depth with
  | zero => constructor <;> intro cs <;> simp [value, elements, members]
  | succ depth ih =>
    obtain ⟨hvalue, helements, hmembers⟩ := ih
    constructor <;> intro cs
    · unfold value
      (repeat' split) <;> simp [helements, hmembers]
    · unfold elements
      refine .bind (hvalue cs) fun (v, rest) => ?_
      dsimp only
      split <;> simp [helements]
    · unfold members
      split
      · refine .bind (text_textual _) fun (key, rest) => ?_
        dsimp only
        split
        · refine .bind (hvalue _) fun (v, rest) => ?_
          dsimp only
          split <;> simp [hmembers]
        · simp
      · simp

theorem read_textual (document : String) : Textual (read document) := by
  simp [read, (reads_textual _).value]

end Json

/-! ## YAML -/

namespace Yaml

@[simp] theorem refuse_textual {α : Type} : Textual (refuse : Fallible α) :=
  Textual.error_iff.mpr rfl

@[simp] theorem endLine_textual (c : Cursor) : Textual c.endLine := by
  fun_cases Cursor.endLine c <;> simp

/-! ### Scalars -/

@[simp] theorem character_textual (code : Nat) : Textual (character code) := by
  fun_cases character code <;> simp [Fault.isTextual]

@[simp] theorem quotedBreaks_textual (fuel : Nat) (acc : List Char) (c : Cursor) :
    Textual (quotedBreaks fuel acc c) := by
  fun_induction quotedBreaks fuel acc c <;> simp [*]

@[simp] theorem quotedSpaces_textual (c : Cursor) : Textual (quotedSpaces c) := by
  fun_cases quotedSpaces c <;> simp [*]

@[simp] theorem hexadecimal_textual (n : Nat) (c : Cursor) : Textual (hexadecimal n c) := by
  fun_cases hexadecimal n c <;> simp [*]

@[simp] theorem escapedCharacter_textual (n : Nat) (c : Cursor) :
    Textual (escapedCharacter n c) := by
  unfold escapedCharacter
  refine .bind (hexadecimal_textual n c) fun (code, c) => ?_
  refine Textual.ite_iff.mpr ⟨fun _ => ?_, by simp⟩
  split <;> simp

@[simp] theorem escaped_textual (c : Cursor) : Textual (escaped c) := by
  fun_cases escaped c <;> simp [*]

@[simp] theorem quotedFrom_textual (quote : Char) (fuel : Nat) (acc : List Char) (c : Cursor) :
    Textual (quotedFrom quote fuel acc c) := by
  fun_induction quotedFrom quote fuel acc c <;> simp [*]

@[simp] theorem quoted_textual (c : Cursor) : Textual (quoted c) := by
  fun_cases quoted c <;> simp

@[simp] theorem blockHeader_textual (c : Cursor) : Textual (blockHeader c) := by
  fun_cases blockHeader c <;> simp

@[simp] theorem block_textual (fold : Bool) (outer : Int) (c : Cursor) :
    Textual (block fold outer c) :=
  .bind (blockHeader_textual _) fun _ => .bind (endLine_textual _) fun _ => .pure _

/-! ### Names, tags and directives -/

@[simp] theorem name_textual (c : Cursor) : Textual (name c) := by
  fun_cases name c <;> simp

@[simp] theorem anchorName_textual (c : Cursor) : Textual (anchorName c) := by
  simp [anchorName]

@[simp] theorem escapedBytes_textual (fuel : Nat) (acc : List UInt8) (c : Cursor) :
    Textual (escapedBytes fuel acc c) := by
  fun_induction escapedBytes fuel acc c <;> simp [*]

@[simp] theorem tagSuffixFrom_textual (fuel : Nat) (acc : List Char) (c : Cursor) :
    Textual (tagSuffixFrom fuel acc c) := by
  induction fuel generalizing acc c with
  | zero => simp [tagSuffixFrom]
  | succ fuel ih =>
    unfold tagSuffixFrom
    split
    · refine .bind (escapedBytes_textual _ _ _) fun (bytes, c) => ?_
      dsimp only
      split <;> simp [ih]
    · simp [ih]
    · simp

@[simp] theorem tagSuffix_textual (c : Cursor) : Textual (tagSuffix c) := by
  simp [tagSuffix]

@[simp] theorem tagHandle_textual (c : Cursor) : Textual (tagHandle c) := by
  fun_cases tagHandle c <;> simp

@[simp] theorem tag_textual (c : Cursor) : Textual (tag c) := by
  unfold tag
  dsimp only
  split <;> simp

@[simp] theorem digits_textual (c : Cursor) : Textual (digits c) := by
  fun_cases digits c <;> simp

@[simp] theorem versionDirective_textual (c : Cursor) : Textual (versionDirective c) := by
  simp [versionDirective]

@[simp] theorem handleDirective_textual (c : Cursor) : Textual (handleDirective c) := by
  simp [handleDirective]

@[simp] theorem directive_textual (c : Cursor) : Textual (directive c) := by
  simp [directive]

/-! ### Tokens -/

namespace Lexer

@[simp] theorem removeKey_textual (s : Lexer) : Textual s.removeKey := by
  fun_cases removeKey s <;> simp

@[simp] theorem expireKeys_textual (s : Lexer) : Textual s.expireKeys := by
  fun_cases expireKeys s <;> simp

@[simp] theorem saveKey_textual (s : Lexer) : Textual s.saveKey := by
  fun_cases saveKey s <;> simp

@[simp] theorem toOutside_textual (s : Lexer) : Textual s.toOutside := by
  simp [toOutside]

@[simp] theorem beginAt_textual (s : Lexer) (t : Token) : Textual (s.beginAt t) := by
  fun_cases beginAt s t <;> simp

@[simp] theorem valueMark_textual (s : Lexer) : Textual s.valueMark := by
  fun_cases valueMark s <;> simp

theorem word_textual {α : Type} (s : Lexer) {read : Reader α} (token : α → Token)
    (hread : ∀ c, Textual (read c)) : Textual (s.word read token) := by
  simp [word, hread]

@[simp] theorem nextToken_textual (s : Lexer) (ch : Char) (rest : List Char) :
    Textual (s.nextToken ch rest) := by
  simp [nextToken, directive, documentMark, openBracket, closeBracket, comma, entry, keyMark,
    word_textual, blockText, plainText]

theorem readAll_textual (fuel : Nat) (s : Lexer) : Textual (readAll fuel s) := by
  induction fuel generalizing s with
  | zero => simp [readAll]
  | succ fuel ih =>
    unfold readAll
    refine .bind (expireKeys_textual _) fun s => ?_
    dsimp only
    split <;> simp [ih]

end Lexer

theorem tokens_textual (document : String) : Textual (tokens document) := by
  simp [tokens, Lexer.readAll_textual]

/-! ### Nodes -/

@[simp] theorem fullTag_textual (handles : Handles) (t : Option TagText) :
    Textual (fullTag handles t) := by
  fun_cases fullTag handles t <;> simp

/-- The parsers of nested nodes fail at most because of the text, at a depth. -/
structure ParsesTextual (handles : Handles) (depth : Nat) : Prop where
  node (place : Place) (r : NodeReader) : Textual (node handles place depth r)
  content (place : Place) (named : Bool) (written : Option TagText) (full : Option String)
    (r : NodeReader) : Textual (content handles place depth named written full r)
  nodeUnless (place : Place) (out : Token → Bool) (r : NodeReader) :
    Textual (nodeUnless handles place out depth r)
  valueUnless (place : Place) (out : Token → Bool) (r : NodeReader) :
    Textual (valueUnless handles place out depth r)
  blockItems (r : NodeReader) : Textual (blockItems handles depth r)
  levelItems (r : NodeReader) : Textual (levelItems handles depth r)
  blockEntries (r : NodeReader) : Textual (blockEntries handles depth r)
  flowItems (first : Bool) (r : NodeReader) : Textual (flowItems handles depth first r)
  flowEntries (first : Bool) (r : NodeReader) : Textual (flowEntries handles depth first r)

theorem parses_textual (handles : Handles) (depth : Nat) : ParsesTextual handles depth := by
  induction depth with
  | zero =>
    constructor <;> intros <;> simp [node, content, nodeUnless, valueUnless, blockItems, levelItems,
      blockEntries, flowItems, flowEntries]
  | succ depth ih =>
    obtain ⟨hnode, hcontent, hunless, hvalue, hblockItems, hlevelItems, hblockEntries, hflowItems,
      hflowEntries⟩ := ih
    constructor <;> intros
    case node =>
      unfold node
      split
      · split <;> simp
      · refine .bind (fullTag_textual _ _) fun full => ?_
        -- The name of a node is looked at before its content and again behind it.
        simp only [Textual.ite_iff, Textual.bind_iff, refuse_textual, true_and, hcontent]
        refine ⟨fun _ _ _ _ _ => ?_, fun _ _ _ => ?_⟩ <;> split <;> simp
    case nodeUnless => simp [nodeUnless, hnode]
    case valueUnless => simp [valueUnless, hunless]
    case content =>
      unfold content
      split <;> simp [*]
    case blockItems =>
      unfold blockItems
      split <;> simp [*]
    case levelItems =>
      unfold levelItems
      split <;> simp [*]
    case blockEntries =>
      unfold blockEntries
      split <;> simp [*]
    case flowItems =>
      unfold flowItems
      split
      · simp
      · refine Textual.ite_iff.mpr ⟨fun _ => by simp, fun _ => ?_⟩
        dsimp only
        split <;> simp [*]
    case flowEntries =>
      unfold flowEntries
      split
      · simp
      · refine Textual.ite_iff.mpr ⟨fun _ => by simp, fun _ => ?_⟩
        dsimp only
        split <;> simp [*]

theorem directives_textual (seen : Handles) (versioned : Bool) (ts : List Token) :
    Textual (directives seen versioned ts) := by
  fun_induction directives seen versioned ts <;> simp [*]

@[simp] theorem atEnd_textual (ts : List Token) : Textual (atEnd ts) := by
  simp [atEnd]

theorem document_textual (ts : List Token) : Textual (document ts) := by
  have hnode (handles : Handles) (depth : Nat) (r : NodeReader) :=
    (parses_textual handles depth).node .block r
  unfold document
  dsimp only
  split
  case h_1 => simp
  case h_4 => simp [hnode]
  all_goals
    refine .bind (directives_textual _ _ _) fun (declared, rest) => ?_
    dsimp only
    split <;> simp [hnode]

/-! ### What scalars denote -/

@[simp] theorem signedText_textual (cs : List Char) : Textual (signedText cs) := by
  fun_cases signedText cs <;> simp [Fault.isTextual]

@[simp] theorem truthValue_textual (text : String) : Textual (truthValue text) := by
  fun_cases truthValue text <;> simp [Fault.isTextual]

@[simp] theorem decimalNumber_textual (cs : List Char) : Textual (decimalNumber cs) := by
  fun_cases decimalNumber cs <;> simp [Fault.isTextual]

@[simp] theorem wholeMagnitude_textual (cs : List Char) : Textual (wholeMagnitude cs) := by
  unfold wholeMagnitude
  extract_lets base
  have hbase (b : Nat) (mark : Char) (digits : List Char) : Textual (base b mark digits) := by
    simp only [base]
    split <;> simp [Fault.isTextual]
  split
  all_goals first | exact hbase _ _ _ | simp [Fault.isTextual]

@[simp] theorem wholeNumber_textual (text : String) : Textual (wholeNumber text) := by
  simp [wholeNumber]

@[simp] theorem realPart_textual (cs : List Char) : Textual (realPart cs) := by
  fun_cases realPart cs <;> simp [Fault.isTextual]

@[simp] theorem realSixties_textual (unit : Nat) (sum : Float) (parts : List Float) :
    Textual (realSixties unit sum parts) := by
  fun_induction realSixties unit sum parts <;> simp [Fault.isTextual, *]

@[simp] theorem realMagnitude_textual (cs : List Char) : Textual (realMagnitude cs) := by
  simp [realMagnitude]

@[simp] theorem realNumber_textual (text : String) : Textual (realNumber text) := by
  simp [realNumber]

@[simp] theorem zoneOffset_textual (zone : Bool × Nat × Nat) : Textual (zoneOffset zone) := by
  fun_cases zoneOffset zone <;> simp [Fault.isTextual]

@[simp] theorem checkedDate_textual (s : Stamp) : Textual (checkedDate s) := by
  simp [checkedDate, Fault.isTextual]

@[simp] theorem checkedTime_textual (date : Date) (offset : Option Int) (c : Clock) :
    Textual (checkedTime date offset c) := by
  simp [checkedTime, Fault.isTextual]

@[simp] theorem dateOrTime_textual (text : String) : Textual (dateOrTime text) := by
  unfold dateOrTime
  split
  · simp [Fault.isTextual]
  · split <;> simp

@[simp] theorem encodedBytes_textual (text : String) : Textual (encodedBytes text) := by
  fun_cases encodedBytes text <;> simp

@[simp] theorem denote_textual (tag : Tag) (text : String) : Textual (tag.denote text) := by
  fun_cases Tag.denote tag text <;> simp

/-! ### What nodes stand for -/

namespace Node

mutual

theorem entries_textual : (n : Node) → Textual n.entries
  | .mapping _ es => by simp [entries, mergedEntries_textual es]
  | .scalar _ _ => by simp [entries]
  | .sequence _ _ => by simp [entries]

theorem mergeable_textual : (n : Node) → Textual n.mergeable
  | .mapping _ es => by simp [mergeable, entries, mergedEntries_textual es]
  | .scalar _ _ => by simp [mergeable]
  | .sequence _ items => by simp [mergeable, entriesOfAll_textual items]

theorem entriesOfAll_textual : (ns : List Node) → Textual (entriesOfAll ns)
  | [] => by simp [entriesOfAll]
  | n :: ns => by simp [entriesOfAll, entries_textual n, entriesOfAll_textual ns]

theorem mergedEntries_textual : (es : List (Node × Node)) → Textual (mergedEntries es)
  | [] => by simp [mergedEntries]
  | (k, v) :: es => by simp [mergedEntries, mergeable_textual v, mergedEntries_textual es]

end

mutual

theorem scalarText_textual : (n : Node) → Textual n.scalarText
  | .scalar _ _ => by simp [scalarText]
  | .mapping _ es => by simp [scalarText, markedText_textual es]
  | .sequence _ _ => by simp [scalarText]

theorem markedText_textual : (es : List (Node × Node)) → Textual (markedText es)
  | [] => by simp [markedText]
  | (k, v) :: es => by simp [markedText, scalarText_textual v, markedText_textual es]

end

@[simp] theorem scalarValue_textual (n : Node) : Textual n.scalarValue := by
  unfold scalarValue
  split <;> simp [Fault.isTextual, scalarText_textual]

@[simp] theorem keyValue_textual (n : Node) : Textual n.keyValue := by
  simp [keyValue]

theorem soleEntry_textual (n : Node) : Textual n.soleEntry := by
  fun_cases soleEntry n <;> simp

end Node

namespace Found

variable {α β : Type}

@[simp] theorem settle_ok (a : α) : settle (.ok a) = .ok a := rfl

@[simp] theorem settle_here (x : Fallible α) : settle (here x) = x := by
  cases x <;> rfl

@[simp] theorem settle_below (x : Found α) : settle (below x) = settle x := by
  cases x <;> rfl

@[simp] theorem settle_map (x : Found α) (f : α → β) : settle (x.map f) = (settle x).map f := by
  cases x <;> rfl

theorem both_textual {x : Found α} {y : Found β} (hx : Textual x.settle) (hy : Textual y.settle) :
    Textual (both x y).settle := by
  have raise {γ δ : Type} {e : Nat × Fault} (h : Textual (settle (.error e : Found γ))) :
      Textual (settle (.error e : Found δ)) := Textual.error_iff.mpr (Textual.error_iff.mp h)
  cases x with
  | ok a =>
    cases y with
    | ok b => exact Textual.ok (a, b)
    | error e => exact raise hy
  | error e =>
    cases y with
    | ok b => exact raise hx
    | error e' =>
      rw [both]
      split
      · exact raise hy
      · exact raise hx

theorem all_textual {f : α → Found β} (h : ∀ a, Textual (f a).settle) (as : List α) :
    Textual (all f as).settle := by
  induction as with
  | nil => exact Textual.ok []
  | cons a as ih => simp [all, both_textual (h a) ih]

end Found

theorem Node.valueWithin_textual (fuel : Nat) (n : Node) : Textual (n.valueWithin fuel).settle := by
  induction fuel generalizing n with
  | zero => simp [valueWithin]
  | succ fuel ih =>
    have hpair (n : Node) : Textual (valueWithin.pairWithin fuel n).settle := by
      unfold valueWithin.pairWithin
      split
      · simp [Found.both_textual (ih _) (ih _)]
      · next e he => exact Textual.error_iff.mpr (soleEntry_textual n e he)
    have hmapping : Textual (valueWithin.mappingWithin fuel n).settle := by
      unfold valueWithin.mappingWithin
      split
      · rw [Found.settle_map, Textual.map_iff]
        refine Found.all_textual ?_ _
        rintro ⟨k, v⟩
        exact Found.both_textual (by simp) (ih v)
      · next e he => exact Textual.error_iff.mpr (entries_textual n e he)
    unfold valueWithin
    split
    · split <;> simp [Found.all_textual ih]
    · split <;> simp [Found.all_textual hpair]
    · split <;> simp [Found.all_textual hpair]
    · simp [hmapping]
    · simp [hmapping]
    · simp

theorem read_textual (text : String) : Textual (read text) := by
  refine .bind (tokens_textual text) fun ts => .bind (document_textual ts) fun n => ?_
  cases n with
  | none => simp
  | some n => exact n.valueWithin_textual _

end Yaml

/-- If a text cannot be read as a document, it is because of the text. -/
theorem Document.read_textual (format : DocumentFormat) (text : String) :
    Textual (Document.read format text) := by
  cases format with
  | yaml => simp [Document.read, Yaml.read_textual]
  | json => exact Json.read_textual text

end Reflash
