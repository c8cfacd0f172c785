import Reflash.Proofs.Splitting
import Reflash.Proofs.Store

set_option autoImplicit false

/-! # Names of files

A name is split into its stem and its suffix in one way (`Path.splitSuffix_eq`,
`Path.eq_append_of_suffix`). A path that is made of a directory and a name leads to what the directory
has under that name, if the name is short enough (`FileStore.lookup_child`). -/

namespace Reflash

/-! ## Paths of one name -/

namespace Path

/-- A text without slashes is a path of one component, if it is no empty one and no dot. -/
theorem ofText_of_plain {name : String} (hslash : '/' ∉ name.toList) (hempty : name ≠ "")
    (hdot : name ≠ ".") : Path.ofText name = ⟨"", [name]⟩ := by
  have hanchor : anchorOf name.toList = "" := by
    unfold anchorOf
    split
    all_goals first
      | rfl
      | rename_i h
        rw [h] at hslash
        exact absurd List.mem_cons_self hslash
  have hparts : partsOf name = [name] := by
    rw [partsOf, Text.split, Text.splitList_of_notMem hslash]
    simp [hempty, hdot]
  rw [ofText, hanchor, hparts]

/-- A text is one component of a path. -/
structure IsComponent (name : String) : Prop where
  unslashed : '/' ∉ name.toList
  nonempty : name ≠ ""
  not_dot : name ≠ "."

theorem IsComponent.child_eq {name : String} (h : IsComponent name) (p : Path) :
    p.child name = ⟨p.anchor, p.parts ++ [name]⟩ := by
  rw [child, ofText_of_plain h.unslashed h.nonempty h.not_dot]
  rfl

/-- What the written form of a path puts before a further component. -/
def front (p : Path) : String :=
  if p.parts = [] then p.anchor else p.anchor ++ "/".intercalate p.parts ++ "/"

theorem IsComponent.text_child {name : String} (h : IsComponent name) (p : Path) :
    (p.child name).text = p.front ++ name := by
  rw [h.child_eq p, text, front]
  by_cases hparts : p.parts = []
  · simp [hparts]
  · rw [if_neg (by simp), if_neg hparts,
      String.intercalate_append_of_ne_nil hparts (List.cons_ne_nil name [])]
    simp [String.append_assoc]

/-- A text that stands in one name: it has no slash, and not the character that ends a text. -/
structure Unbroken (s : String) : Prop where
  unslashed : '/' ∉ s.toList
  unended : '\x00' ∉ s.toList

theorem unbroken_iff {s : String} : Unbroken s ↔ '/' ∉ s.toList ∧ '\x00' ∉ s.toList :=
  ⟨fun h => ⟨h.unslashed, h.unended⟩, fun h => ⟨h.1, h.2⟩⟩

theorem Unbroken.left {s s' : String} (h : Unbroken (s ++ s')) : Unbroken s := by
  rw [unbroken_iff, String.toList_append, List.mem_append, List.mem_append] at h
  exact ⟨fun hslash => h.1 (.inl hslash), fun hend => h.2 (.inl hend)⟩

theorem Unbroken.append {s s' : String} (h : Unbroken s) (h' : Unbroken s') :
    Unbroken (s ++ s') where
  unslashed := by simpa using ⟨h.unslashed, h'.unslashed⟩
  unended := by simpa using ⟨h.unended, h'.unended⟩

/-- A text is what an entry of a directory can be called. -/
structure IsName (name : String) : Prop extends Unbroken name where
  nonempty : name ≠ ""
  not_dot : name ≠ "."
  not_dots : name ≠ ".."

theorem IsName.isComponent {name : String} (h : IsName name) : IsComponent name :=
  ⟨h.unslashed, h.nonempty, h.not_dot⟩

/-- The character that ends a text is in no path that is made of a path and a name without it. -/
theorem IsName.holdsNul_child {p : Path} {name : String} (h : IsName name)
    (hp : FileStore.holdsNul p.text = false) : FileStore.holdsNul (p.child name).text = false := by
  have hfront : '\x00' ∉ p.front.toList := by
    have hp : '\x00' ∉ p.text.toList := by simpa [FileStore.holdsNul] using hp
    unfold text at hp
    unfold front
    split at hp <;> split <;> simp_all
  rw [h.isComponent.text_child]
  simpa [FileStore.holdsNul] using ⟨hfront, h.unended⟩

/-! ## Stems and suffixes -/

/-- A text begins with a dot and has no other one, but something else. -/
def IsSuffix (suffix : String) : Prop :=
  ∃ tail, suffix.toList = '.' :: tail ∧ tail ≠ [] ∧ '.' ∉ tail

/-- What ends in a suffix is no name for a directory itself or for the one above it. -/
theorem IsSuffix.not_dots {stem suffix : String} (h : IsSuffix suffix) :
    stem ++ suffix ≠ "" ∧ stem ++ suffix ≠ "." ∧ stem ++ suffix ≠ ".." := by
  obtain ⟨tail, htail, hne, hdot⟩ := h
  have hname : (stem ++ suffix).toList = stem.toList ++ '.' :: tail := by
    rw [String.toList_append, htail]
  -- What ends in something that is no dot is neither of the names for directories.
  have hlast : ∀ cs : List Char, cs.all (· == '.') = true → stem.toList ++ '.' :: tail ≠ cs := by
    rintro _ hall rfl
    obtain ⟨c, rest, rfl⟩ := List.exists_cons_of_ne_nil hne
    simp_all
  refine ⟨fun heq => ?_, fun heq => ?_, fun heq => ?_⟩
  all_goals exact hlast _ (by rw [heq]; rfl) hname.symm

theorem IsSuffix.isComponent {stem suffix : String} (h : IsSuffix suffix)
    (hslash : '/' ∉ (stem ++ suffix).toList) : IsComponent (stem ++ suffix) :=
  ⟨hslash, h.not_dots.1, h.not_dots.2.1⟩

theorem IsSuffix.isName {stem suffix : String} (h : IsSuffix suffix)
    (hunbroken : Unbroken (stem ++ suffix)) : IsName (stem ++ suffix) :=
  ⟨hunbroken, h.not_dots.1, h.not_dots.2.1, h.not_dots.2.2⟩

theorem splitSuffix_of_undotted {name : String} (h : '.' ∉ name.toList) :
    splitSuffix name = (name, "") := by
  have hall : ∀ c ∈ name.toList.reverse, (c != '.') = true := fun c hc =>
    bne_iff_ne.mpr fun heq => h (heq ▸ List.mem_reverse.mp hc)
  have htaken : (name.toList.reverse.takeWhile (· != '.')).reverse = name.toList := by
    rw [List.takeWhile_eq_self_iff.mpr hall, List.reverse_reverse]
  unfold splitSuffix
  dsimp only
  rw [htaken, if_pos (by simp)]

/-- The last dot of a name splits it, if there is something on both of its sides. -/
theorem splitSuffix_of_dotted {name : String} {front tail : List Char}
    (hname : name.toList = front ++ '.' :: tail) (hdot : '.' ∉ tail) :
    splitSuffix name =
      if front = [] ∨ tail = [] then (name, "")
      else (String.ofList front, String.ofList ('.' :: tail)) := by
  have hstop : ∀ c ∈ tail.reverse, (c != '.') = true := fun c hc =>
    bne_iff_ne.mpr fun heq => hdot (heq ▸ List.mem_reverse.mp hc)
  have htaken : (name.toList.reverse.takeWhile (· != '.')).reverse = tail := by
    rw [hname, List.reverse_append, List.reverse_cons, List.append_assoc,
      List.takeWhile_append_of_pos hstop]
    simp
  have hlength : name.toList.length = front.length + (tail.length + 1) := by
    rw [hname, List.length_append, List.length_cons]
  have hfront : name.toList.take (name.toList.length - tail.length - 1) = front := by
    rw [hlength, Nat.sub_sub, Nat.add_sub_cancel, hname, List.take_left]
  have hsplits : decide (tail.length = name.toList.length) = false := by
    rw [decide_eq_false_iff_not]
    omega
  unfold splitSuffix
  dsimp only
  rw [htaken, hfront, hsplits]
  simp [or_comm]

theorem splitSuffix_eq {stem suffix : String} (hstem : stem ≠ "") (hsuffix : IsSuffix suffix) :
    splitSuffix (stem ++ suffix) = (stem, suffix) := by
  obtain ⟨tail, htail, hne, hdot⟩ := hsuffix
  have hname : (stem ++ suffix).toList = stem.toList ++ '.' :: tail := by
    rw [String.toList_append, htail]
  have hfront : stem.toList ≠ [] := fun h => hstem (String.toList_inj.mp h)
  rw [splitSuffix_of_dotted hname hdot, if_neg (not_or.mpr ⟨hfront, hne⟩), ← htail,
    String.ofList_toList, String.ofList_toList]

/-- A name that has a suffix is made up of its stem and its suffix. -/
theorem eq_append_of_suffix {name : String} (h : (splitSuffix name).2 ≠ "") :
    ∃ stem suffix, stem ≠ "" ∧ IsSuffix suffix ∧ name = stem ++ suffix := by
  by_cases hdotted : '.' ∈ name.toList
  · obtain ⟨tail, front, hreverse, hdot⟩ :=
      List.eq_append_cons_of_mem (List.mem_reverse.mpr hdotted)
    have hname : name.toList = front.reverse ++ '.' :: tail.reverse := by
      simpa using congrArg List.reverse hreverse
    have hlast : '.' ∉ tail.reverse := fun hmem => hdot (List.mem_reverse.mp hmem)
    by_cases hsplit : front.reverse = [] ∨ tail.reverse = []
    · rw [splitSuffix_of_dotted hname hlast, if_pos hsplit] at h
      exact absurd rfl h
    · obtain ⟨hfront, htail⟩ := not_or.mp hsplit
      refine ⟨String.ofList front.reverse, String.ofList ('.' :: tail.reverse), fun heq => ?_,
        ⟨tail.reverse, String.toList_ofList, htail, hlast⟩, ?_⟩
      · exact hfront (by simpa using congrArg String.toList heq)
      · rw [← String.ofList_append, ← hname, String.ofList_toList]
  · rw [splitSuffix_of_undotted hdotted] at h
    exact absurd rfl h

end Path

namespace FileStore

/-! ## Names in a directory -/

theorem mem_namesIn_iff {fs : FileStore} {loc : Location} {name : String} :
    name ∈ fs.namesIn loc ↔ ∃ node, fs.node? (loc ++ [name]) = some node := by
  have hnode : fs.node? (loc ++ [name]) = fs.nodes.lookup (loc ++ [name]) := by
    rw [node?, if_neg (by simp)]
  have hentry (l : Location) :
      (if l.dropLast == loc then l.getLast? else none) = some name ↔ l = loc ++ [name] := by
    rw [ite_eq_iff, beq_iff_eq]
    constructor
    · rintro (⟨rfl, hlast⟩ | ⟨_, hnone⟩)
      · exact (List.dropLast_append_getLast? _ hlast).symm
      · cases hnone
    · rintro rfl
      exact .inl ⟨List.dropLast_concat, List.getLast?_concat⟩
  rw [hnode, ← Option.isSome_iff_exists, Option.isSome_iff_ne_none, ne_eq,
    Pairs.lookup_eq_none_iff, not_not, namesIn, List.mem_filterMap, List.mem_map]
  exact exists_congr fun entry => and_congr_right fun _ => hentry entry.1

/-- The system looks for a name in a directory: neither the name nor the path that it makes is too
long. -/
def Admits (p : Path) (name : String) : Prop :=
  fits name = true ∧ (p.child name).text.utf8ByteSize ≤ longestPath

instance (p : Path) (name : String) : Decidable (Admits p name) :=
  inferInstanceAs (Decidable (_ ∧ _))

/-- What a name leads to, seen from a directory. -/
theorem lookup_child {fs : FileStore} {p : Path} {name : String}
    (hdir : fs.lookup p = .ok .directory) (hname : Path.IsName name) :
    fs.lookup (p.child name) =
      if Admits p name then
        match fs.node? (fs.locate p ++ [name]) with
        | some node => .ok node
        | none => .error .missing
      else .error .nameTooLong := by
  obtain ⟨hresolve, hnode⟩ := lookup_eq_ok.mp hdir
  have hp := takes_of_resolve hresolve
  have hnul := hname.holdsNul_child hp.1
  by_cases hshort : (p.child name).text.utf8ByteSize ≤ longestPath
  · have hchild : fs.resolve (p.child name) = fs.resolveFrom (fs.locate p) [name] := by
      rw [hp.resolve] at hresolve
      rw [Takes.resolve ⟨hnul, hshort⟩, Path.IsComponent.child_eq hname.isComponent p]
      exact resolveFrom_append hresolve hnode (List.cons_ne_nil name [])
    unfold lookup
    rw [hchild, resolveFrom_cons, advance, if_neg hname.not_dots]
    cases hfits : fits name with
    | false => simp [Admits, hfits]
    | true =>
      have hadmits : Admits p name := ⟨hfits, hshort⟩
      rw [if_pos hadmits]
      rfl
  · rw [if_neg fun h => hshort h.2, lookup, resolve, acceptText, hnul,
      overlong_iff.mpr (Nat.not_le.mp hshort)]
    rfl

/-- Whether a directory has something of a name, as far as the system will tell. -/
theorem exists?_child {fs : FileStore} {p : Path} {name : String}
    (hdir : fs.lookup p = .ok .directory) (hname : Path.IsName name) :
    fs.exists? (p.child name) =
      if Admits p name then .ok (decide (name ∈ fs.namesIn (fs.locate p)))
      else .error (.file .nameTooLong [(p.child name).text]) := by
  rw [exists?, lookup_child hdir hname]
  by_cases hadmits : Admits p name
  · rw [if_pos hadmits, if_pos hadmits]
    cases hnode : fs.node? (fs.locate p ++ [name]) with
    | none =>
      have habsent : name ∉ fs.namesIn (fs.locate p) := by simp [mem_namesIn_iff, hnode]
      simp [habsent]
    | some node =>
      have hthere : name ∈ fs.namesIn (fs.locate p) := mem_namesIn_iff.mpr ⟨node, hnode⟩
      simp [hthere]
  · rw [if_neg hadmits, if_neg hadmits]

theorem present_child {fs : FileStore} {p : Path} {name : String}
    (hdir : fs.lookup p = .ok .directory) (hname : Path.IsName name) :
    fs.present (p.child name) = true ↔ Admits p name ∧ name ∈ fs.namesIn (fs.locate p) := by
  rw [present, lookup_child hdir hname, mem_namesIn_iff]
  by_cases hadmits : Admits p name
  · cases fs.node? (fs.locate p ++ [name]) <;> simp [hadmits]
  · simp [hadmits]

/-- A name under which something is there is not ended early. -/
theorem unended_of_present {fs : FileStore} {p : Path} {name : String}
    (hname : Path.IsComponent name) (h : fs.present (p.child name) = true) : '\x00' ∉ name.toList := by
  cases hresolve : fs.resolve (p.child name) with
  | error e => simp [present, lookup, hresolve] at h
  | ok loc =>
    have hnul := (takes_of_resolve hresolve).1
    rw [hname.text_child] at hnul
    have hnul : '\x00' ∉ p.front.toList ∧ '\x00' ∉ name.toList := by simpa [holdsNul] using hnul
    exact hnul.2

/-- The names in a directory are such as the system lets entries have. -/
def NamesUnbroken (fs : FileStore) (loc : Location) : Prop :=
  ∀ name ∈ fs.namesIn loc, Path.Unbroken name

end FileStore

end Reflash
