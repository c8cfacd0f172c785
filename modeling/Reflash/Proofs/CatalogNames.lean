import Mathlib.Data.String.Basic
import Reflash.Catalog
import Reflash.Proofs.DocumentFaults
import Reflash.Proofs.FileNames

set_option autoImplicit false

/-! # Devices that are listed and devices that are found

A catalog lists the stem of every entry whose suffix is, in any case, that of a device document. It
looks for the document of a device under the suffixes as they are written. On a file system that tells
upper from lower case these are two different rules. `Catalog.codenames_loadable` says exactly what each
of them gives for every directory: the entries that both rules take are listed once each and found, and
an entry whose suffix has a capital in it is listed and not found (`Catalog.capital_suffix_not_found`).
An entry is a file or a directory: there are no links that could lead nowhere. -/

namespace Reflash

/-- Whether a cause is that something is not there. -/
def Fault.isMissing : Fault → Bool
  | .fileMissing _ | .file .missing _ => true
  | _ => false

/-! ## Documents of paths that lead to something -/

/-- Why the document of a path that leads to something cannot be had. -/
theorem Document.load_present_cases {fs : FileStore} {p : Path} (h : fs.present p = true) {e : Fault}
    (he : Document.load fs p = .error e) :
    e = .file .isDirectory [p.text] ∨ e = .notText ∨ e.isTextual = true ∨
      ∃ text, e = .config text := by
  cases hlookup : fs.lookup p with
  | error problem => simp [FileStore.present, hlookup] at h
  | ok node =>
    simp only [Document.load, FileStore.exists?, FileStore.read, atPath, hlookup] at he
    cases node with
    | directory =>
      cases he
      exact .inl rfl
    | file content =>
      simp only [bind, Except.bind, Except.mapError] at he
      cases htext : Text.ofBytes? content with
      | none =>
        rw [htext] at he
        cases he
        exact .inr (.inl rfl)
      | some text =>
        cases hread : Document.read (Document.formatOf p) text with
        | error problem =>
          simp only [htext, hread] at he
          cases he
          exact .inr (.inr (.inl (Document.read_textual _ _ _ hread)))
        | ok v =>
          simp only [htext, hread] at he
          cases v <;> cases he <;> exact .inr (.inr (.inr ⟨_, rfl⟩))

theorem Document.load_present_not_missing {fs : FileStore} {p : Path} (h : fs.present p = true)
    {e : Fault} (he : Document.load fs p = .error e) : e.isMissing = false := by
  obtain rfl | rfl | htextual | ⟨text, rfl⟩ := Document.load_present_cases h he
  · rfl
  · rfl
  · cases e <;> first | rfl | cases htextual
  · rfl

/-! ## Sorted names -/

/-- A sorted list without its repetitions is strictly sorted. -/
theorem pairwise_lt_eraseDups {α : Type} [LinearOrder α] (xs : List α) (h : xs.Pairwise (· ≤ ·)) :
    xs.eraseDups.Pairwise (· < ·) := by
  induction hlength : xs.length using Nat.strong_induction_on generalizing xs with
  | _ n ih =>
    cases xs with
    | nil => simp
    | cons x xs =>
      obtain ⟨hx, hxs⟩ := List.pairwise_cons.mp h
      let others := xs.filter fun y => !y == x
      have hshort : others.length < n := by
        rw [← hlength, List.length_cons]
        exact Nat.lt_succ_of_le (List.length_filter_le _ _)
      rw [List.eraseDups_cons, List.pairwise_cons]
      refine ⟨fun y hy => ?_, ih others.length hshort others (hxs.filter _) rfl⟩
      obtain ⟨hmem, hne⟩ := List.mem_filter.mp (List.mem_eraseDups.mp hy)
      exact lt_of_le_of_ne (hx y hmem) fun heq => by simp [heq] at hne

/-- Names in order have the order of texts. -/
theorem pairwise_le_mergeSort (names : List String) :
    (names.mergeSort fun a b => !(b < a)).Pairwise (· ≤ ·) := by
  have hle (a b : String) : (!(decide (b < a))) = true ↔ a ≤ b := by
    rw [Bool.not_eq_true', decide_eq_false_iff_not, not_lt]
  have htrans (a b d : String) (hab : (!(decide (b < a))) = true) (hbd : (!(decide (d < b))) = true) :
      (!(decide (d < a))) = true :=
    (hle a d).mpr (((hle a b).mp hab).trans ((hle b d).mp hbd))
  have htotal (a b : String) : (!(decide (b < a)) || !(decide (a < b))) = true := by
    rw [Bool.or_eq_true, hle, hle]
    exact le_total a b
  exact (List.pairwise_mergeSort htrans htotal names).imp fun {a b} => (hle a b).mp

namespace Catalog

variable {c : Catalog} {fs : FileStore} {codename : String}

/-- The names in the directory of a catalog. -/
def entryNames (c : Catalog) (fs : FileStore) : List String :=
  fs.namesIn (fs.locate c.root)

/-- There is an entry whose name is a codename and a suffix of device documents, in any case. -/
def HasEntry (c : Catalog) (fs : FileStore) (codename : String) : Prop :=
  ∃ suffix, Path.IsSuffix suffix ∧ Text.lowercase suffix ∈ suffixes ∧
    codename ++ suffix ∈ c.entryNames fs

/-- There is an entry whose name is a codename and a suffix of device documents, as it is written. -/
def HasDocument (c : Catalog) (fs : FileStore) (codename : String) : Prop :=
  ∃ suffix ∈ suffixes, codename ++ suffix ∈ c.entryNames fs

/-- The document of a device is that of a path which leads to something. -/
def Finds (c : Catalog) (fs : FileStore) (codename : String) : Prop :=
  ∃ suffix ∈ suffixes, fs.present (c.root.child (codename ++ suffix)) = true ∧
    c.device fs codename = Document.load fs (c.root.child (codename ++ suffix))

/-! ## Suffixes -/

theorem isSuffix_of_mem {suffix : String} (h : suffix ∈ suffixes) :
    Path.IsSuffix suffix ∧ Text.lowercase suffix = suffix ∧ Path.Unbroken suffix := by
  simp only [suffixes, List.mem_cons, List.not_mem_nil, or_false] at h
  obtain rfl | rfl | rfl := h
  · exact ⟨⟨['y', 'a', 'm', 'l'], rfl, by decide, by decide⟩, by cbv, by decide, by decide⟩
  · exact ⟨⟨['y', 'm', 'l'], rfl, by decide, by decide⟩, by cbv, by decide, by decide⟩
  · exact ⟨⟨['j', 's', 'o', 'n'], rfl, by decide, by decide⟩, by cbv, by decide, by decide⟩

theorem isName_of_mem (hcodename : Path.Unbroken codename) {suffix : String}
    (h : suffix ∈ suffixes) : Path.IsName (codename ++ suffix) := by
  obtain ⟨hsuffix, -, hunbroken⟩ := isSuffix_of_mem h
  exact hsuffix.isName (hcodename.append hunbroken)

/-- The suffix that is tried first is the longest one. -/
theorem size_of_mem {suffix : String} (h : suffix ∈ suffixes) :
    (codename ++ suffix).utf8ByteSize ≤ (codename ++ ".yaml").utf8ByteSize := by
  simp only [suffixes, List.mem_cons, List.not_mem_nil, or_false] at h
  simp only [String.utf8ByteSize_append]
  have hsizes : ".yaml".utf8ByteSize = 5 ∧ ".yml".utf8ByteSize = 4 ∧ ".json".utf8ByteSize = 5 := by
    decide
  obtain rfl | rfl | rfl := h <;> omega

/-- If the system looks for the name that is tried first, it looks for the others. -/
theorem admits_of_mem {p : Path} (hcodename : Path.Unbroken codename)
    (h : FileStore.Admits p (codename ++ ".yaml")) {suffix : String} (hsuffix : suffix ∈ suffixes) :
    FileStore.Admits p (codename ++ suffix) := by
  obtain ⟨hfits, hshort⟩ := h
  have hsize : (codename ++ suffix).utf8ByteSize ≤ (codename ++ ".yaml").utf8ByteSize :=
    size_of_mem hsuffix
  have hfirst : ".yaml" ∈ suffixes := by decide
  rw [(isName_of_mem hcodename hfirst).isComponent.text_child, String.utf8ByteSize_append] at hshort
  constructor
  · simp only [FileStore.fits, decide_eq_true_eq] at hfits ⊢
    omega
  · rw [(isName_of_mem hcodename hsuffix).isComponent.text_child, String.utf8ByteSize_append]
    omega

theorem HasDocument.hasEntry (h : c.HasDocument fs codename) : c.HasEntry fs codename := by
  obtain ⟨suffix, hsuffix, hmem⟩ := h
  obtain ⟨hshape, hlower, -⟩ := isSuffix_of_mem hsuffix
  exact ⟨suffix, hshape, hlower.symm ▸ hsuffix, hmem⟩

/-! ## The list -/

/-- The stem of a name counts exactly if the name is made of it and a suffix of device documents. -/
theorem stem_eq_some_iff {name : String} :
    (if suffixes.contains (Text.lowercase (Path.splitSuffix name).2) then
      some (Path.splitSuffix name).1 else none) = some codename ↔
    codename ≠ "" ∧ ∃ suffix, Path.IsSuffix suffix ∧ Text.lowercase suffix ∈ suffixes ∧
      codename ++ suffix = name := by
  rw [ite_eq_iff, List.contains_iff_mem]
  constructor
  · rintro (⟨hsuffix, hstem⟩ | ⟨_, hnone⟩)
    · have hsplit : (Path.splitSuffix name).2 ≠ "" := fun hempty => by
        have hlower : Text.lowercase "" = "" := by cbv
        rw [hempty, hlower] at hsuffix
        exact absurd hsuffix (by decide)
      obtain ⟨stem, suffix, hne, hshape, rfl⟩ := Path.eq_append_of_suffix hsplit
      rw [Path.splitSuffix_eq hne hshape] at hsuffix hstem
      cases hstem
      exact ⟨hne, suffix, hshape, hsuffix, rfl⟩
    · cases hnone
  · rintro ⟨hne, suffix, hshape, hsuffix, rfl⟩
    rw [Path.splitSuffix_eq hne hshape]
    exact .inl ⟨hsuffix, rfl⟩

theorem codenames_eq_ok (hdir : fs.isDirectory c.root = true) :
    ∃ names, c.codenames fs = .ok names ∧ names.Pairwise (· < ·) ∧
      ∀ codename, codename ∈ names ↔ codename ≠ "" ∧ c.HasEntry fs codename := by
  obtain ⟨hresolve, hnode⟩ := FileStore.lookup_eq_ok.mp (FileStore.isDirectory_iff.mp hdir)
  have hthere : c.isThere fs = .ok true := by
    rw [isThere, FileStore.exists?, FileStore.isDirectory_iff.mp hdir, hdir]
    rfl
  have hlist : fs.list c.root = .ok (c.entryNames fs) := by
    rw [FileStore.list, hresolve]
    simp only [bind, Except.bind, hnode]
    rfl
  unfold codenames
  rw [hthere, hlist]
  refine ⟨_, rfl, pairwise_lt_eraseDups _ (pairwise_le_mergeSort _), fun codename => ?_⟩
  rw [List.mem_eraseDups, List.mem_mergeSort, List.mem_filterMap]
  simp only [stem_eq_some_iff]
  constructor
  · rintro ⟨_, hmem, hne, suffix, hshape, hlower, rfl⟩
    exact ⟨hne, suffix, hshape, hlower, hmem⟩
  · rintro ⟨hne, suffix, hshape, hlower, hmem⟩
    exact ⟨_, hmem, hne, suffix, hshape, hlower, rfl⟩

/-! ## The search -/

theorem firstDocument_eq (hdir : fs.isDirectory c.root = true) {tried : List String}
    (htried : ∀ suffix ∈ tried, Path.IsName (codename ++ suffix) ∧
      FileStore.Admits c.root (codename ++ suffix)) :
    c.firstDocument fs codename tried =
      match tried.find? fun suffix => decide (codename ++ suffix ∈ c.entryNames fs) with
      | some suffix => Document.load fs (c.root.child (codename ++ suffix))
      | none => .error (.fileMissing ("No config for device " ++ Text.quoted codename ++ " in " ++
          c.root.text)) := by
  induction tried with
  | nil => rfl
  | cons suffix tried ih =>
    obtain ⟨⟨hname, hadmits⟩, hrest⟩ := List.forall_mem_cons.mp htried
    rw [firstDocument, FileStore.exists?_child (FileStore.isDirectory_iff.mp hdir) hname,
      if_pos hadmits, List.find?_cons]
    cases hthere : decide (codename ++ suffix ∈ c.entryNames fs) with
    | true =>
      rw [entryNames] at hthere
      rw [hthere]
      rfl
    | false =>
      rw [entryNames] at hthere
      rw [hthere]
      exact ih hrest

theorem device_of_admits (hdir : fs.isDirectory c.root = true) (hcodename : Path.Unbroken codename)
    (hadmits : FileStore.Admits c.root (codename ++ ".yaml")) :
    c.device fs codename =
      match suffixes.find? fun suffix => decide (codename ++ suffix ∈ c.entryNames fs) with
      | some suffix => Document.load fs (c.root.child (codename ++ suffix))
      | none => .error (.fileMissing ("No config for device " ++ Text.quoted codename ++ " in " ++
          c.root.text)) :=
  firstDocument_eq hdir fun _ hsuffix =>
    ⟨isName_of_mem hcodename hsuffix, admits_of_mem hcodename hadmits hsuffix⟩

/-- If the name that is tried first, or its path, is too long for the system, it refuses to look for
it. -/
theorem device_of_long (hdir : fs.isDirectory c.root = true) (hcodename : Path.Unbroken codename)
    (hlong : ¬ FileStore.Admits c.root (codename ++ ".yaml")) :
    c.device fs codename =
      .error (.file .nameTooLong [(c.root.child (codename ++ ".yaml")).text]) := by
  have hname : Path.IsName (codename ++ ".yaml") := isName_of_mem hcodename (by decide)
  rw [device, suffixes, firstDocument, FileStore.exists?_child (FileStore.isDirectory_iff.mp hdir) hname,
    if_neg hlong]
  rfl

theorem finds_iff (hdir : fs.isDirectory c.root = true) (hcodename : Path.Unbroken codename) :
    c.Finds fs codename ↔
      FileStore.Admits c.root (codename ++ ".yaml") ∧ c.HasDocument fs codename := by
  have hlookup := FileStore.isDirectory_iff.mp hdir
  constructor
  · rintro ⟨suffix, hsuffix, hpresent, hdevice⟩
    have hname := isName_of_mem hcodename hsuffix
    refine ⟨?_, suffix, hsuffix, ((FileStore.present_child hlookup hname).mp hpresent).2⟩
    by_contra hlong
    rw [device_of_long hdir hcodename hlong] at hdevice
    obtain h | h | h | ⟨_, h⟩ := Document.load_present_cases hpresent hdevice.symm <;> cases h
  · rintro ⟨hadmits, suffix, hsuffix, hmem⟩
    have hdevice := device_of_admits hdir hcodename hadmits
    cases hfind : suffixes.find? fun suffix => decide (codename ++ suffix ∈ c.entryNames fs) with
    | none => exact absurd hmem (by simpa using List.find?_eq_none.mp hfind suffix hsuffix)
    | some first =>
      have hfirst := List.mem_of_find?_eq_some hfind
      have hthere : codename ++ first ∈ c.entryNames fs := by simpa using List.find?_some hfind
      rw [hfind] at hdevice
      exact ⟨first, hfirst, (FileStore.present_child hlookup (isName_of_mem hcodename hfirst)).mpr
        ⟨admits_of_mem hcodename hadmits hfirst, hthere⟩, hdevice⟩

/-- A document that is found is not missing, whatever else may be wrong with it. -/
theorem Finds.not_missing (h : c.Finds fs codename) {e : Fault} (he : c.device fs codename = .error e) :
    e.isMissing = false := by
  obtain ⟨suffix, -, hpresent, hdevice⟩ := h
  exact Document.load_present_not_missing hpresent (hdevice ▸ he)

theorem device_of_not_hasDocument (hdir : fs.isDirectory c.root = true)
    (hcodename : Path.Unbroken codename) (hadmits : FileStore.Admits c.root (codename ++ ".yaml"))
    (h : ¬ c.HasDocument fs codename) :
    c.device fs codename = .error (.fileMissing ("No config for device " ++ Text.quoted codename ++
      " in " ++ c.root.text)) := by
  have hfind : (suffixes.find? fun suffix => decide (codename ++ suffix ∈ c.entryNames fs)) = none :=
    List.find?_eq_none.mpr fun suffix hsuffix hthere =>
      h ⟨suffix, hsuffix, of_decide_eq_true hthere⟩
  rw [device_of_admits hdir hcodename hadmits, hfind]

/-- A codename under which something is found is no name that ends early. -/
theorem Finds.unbroken (h : c.Finds fs codename) (hslash : '/' ∉ codename.toList) :
    Path.Unbroken codename := by
  obtain ⟨suffix, hsuffix, hpresent, -⟩ := h
  obtain ⟨hshape, -, hunbroken⟩ := isSuffix_of_mem hsuffix
  have hcomponent : Path.IsComponent (codename ++ suffix) :=
    hshape.isComponent (by simpa using ⟨hslash, hunbroken.unslashed⟩)
  have hunended : '\x00' ∉ (codename ++ suffix).toList :=
    FileStore.unended_of_present hcomponent hpresent
  rw [String.toList_append, List.mem_append] at hunended
  exact ⟨hslash, fun h => hunended (.inl h)⟩

/-! ## The list and the search -/

/-- What looking for a listed device comes to. -/
structure Settled (c : Catalog) (fs : FileStore) (codename : String) : Prop where
  /-- With an entry whose suffix is as it is written, there is a document. -/
  found : FileStore.Admits c.root (codename ++ ".yaml") → c.HasDocument fs codename →
    c.Finds fs codename ∧ ∀ e, c.device fs codename = .error e → e.isMissing = false
  /-- Without one, there is none. -/
  missing : FileStore.Admits c.root (codename ++ ".yaml") → ¬ c.HasDocument fs codename →
    c.device fs codename = .error (.fileMissing ("No config for device " ++ Text.quoted codename ++
      " in " ++ c.root.text))
  /-- The system refuses to look for a name or a path that is too long. -/
  refused : ¬ FileStore.Admits c.root (codename ++ ".yaml") →
    c.device fs codename = .error (.file .nameTooLong [(c.root.child (codename ++ ".yaml")).text])

theorem settled (hdir : fs.isDirectory c.root = true) (hcodename : Path.Unbroken codename) :
    c.Settled fs codename where
  found hadmits hdocument :=
    have hfinds := (finds_iff hdir hcodename).mpr ⟨hadmits, hdocument⟩
    ⟨hfinds, fun _ he => hfinds.not_missing he⟩
  missing hadmits h := device_of_not_hasDocument hdir hcodename hadmits h
  refused hlong := device_of_long hdir hcodename hlong

/-- The devices of a directory are listed in order, each of them once: those that have an entry with
a suffix of device documents in any case. A listed device is found exactly if it has an entry with such
a suffix as it is written and neither the name that is tried first nor its path is too long. Whatever
device is found is in the list, once. -/
theorem codenames_loadable (hdir : fs.isDirectory c.root = true)
    (hnames : fs.NamesUnbroken (fs.locate c.root)) :
    ∃ names, c.codenames fs = .ok names ∧ names.Pairwise (· < ·) ∧
      (∀ codename, codename ∈ names ↔ codename ≠ "" ∧ c.HasEntry fs codename) ∧
      (∀ codename ∈ names, c.Settled fs codename) ∧
      ∀ codename, codename ≠ "" → '/' ∉ codename.toList → c.Finds fs codename →
        names.count codename = 1 := by
  obtain ⟨names, heq, hsorted, hlisted⟩ := codenames_eq_ok hdir
  refine ⟨names, heq, hsorted, hlisted, fun codename hmem => ?_, fun codename hne hslash hfinds => ?_⟩
  · obtain ⟨-, suffix, -, -, hentry⟩ := (hlisted codename).mp hmem
    exact settled hdir (hnames _ hentry).left
  · have hdocument := ((finds_iff hdir (hfinds.unbroken hslash)).mp hfinds).2
    exact List.count_eq_one_of_mem (hsorted.imp ne_of_lt)
      ((hlisted codename).mpr ⟨hne, hdocument.hasEntry⟩)

/-- The catalog in a directory of the current one. -/
def shelf : Catalog :=
  ⟨Path.ofText "cat"⟩

/-- A store in which that directory holds an empty document under each of some names. -/
def shelved (names : List String) : FileStore where
  nodes := (["cat"], .directory) :: names.map fun name => (["cat", name], .file ByteArray.empty)

theorem dotted_devices_listed :
    ∃ names, shelf.codenames (shelved ["pixel.3a.yml", "notes.txt", "pixel.json", "pixel.YAML"]) =
        .ok names ∧
      ∀ codename ∈ ["pixel", "pixel.3a"], names.count codename = 1 ∧
        shelf.Finds (shelved ["pixel.3a.yml", "notes.txt", "pixel.json", "pixel.YAML"]) codename := by
  let names := ["pixel.3a.yml", "notes.txt", "pixel.json", "pixel.YAML"]
  have hentries : (shelved names).namesIn ((shelved names).locate shelf.root) = names := by cbv
  have hunbroken : (shelved names).NamesUnbroken ((shelved names).locate shelf.root) := by
    rw [FileStore.NamesUnbroken, hentries]
    simp only [Path.unbroken_iff]
    decide
  obtain ⟨listed, heq, -, hlisted, hsettled, hcount⟩ :=
    @codenames_loadable shelf (shelved names) (by cbv) hunbroken
  have hloads (codename : String) (hne : codename ≠ "") (hslash : '/' ∉ codename.toList)
      (hadmits : FileStore.Admits shelf.root (codename ++ ".yaml"))
      (hdocument : shelf.HasDocument (shelved names) codename) :
      listed.count codename = 1 ∧ shelf.Finds (shelved names) codename :=
    have hfinds := ((hsettled codename ((hlisted codename).mpr ⟨hne, hdocument.hasEntry⟩)).found
      hadmits hdocument).1
    ⟨hcount codename hne hslash hfinds, hfinds⟩
  refine ⟨listed, heq, fun codename hmem => ?_⟩
  obtain rfl | rfl : codename = "pixel" ∨ codename = "pixel.3a" := by simpa using hmem
  · exact hloads "pixel" (by decide) (by decide) ⟨by decide, by cbv⟩
      ⟨".json", by decide, by rw [entryNames, hentries]; decide⟩
  · exact hloads "pixel.3a" (by decide) (by decide) ⟨by decide, by cbv⟩
      ⟨".yml", by decide, by rw [entryNames, hentries]; decide⟩

/-- A device whose document has a suffix with capitals is listed, and there is no document for it. -/
theorem capital_suffix_not_found :
    ∃ names, shelf.codenames (shelved ["Foo.YAML"]) = .ok names ∧ "Foo" ∈ names ∧
      shelf.device (shelved ["Foo.YAML"]) "Foo" =
        .error (.fileMissing "No config for device 'Foo' in cat") := by
  have hentries : shelf.entryNames (shelved ["Foo.YAML"]) = ["Foo.YAML"] := by cbv
  have hlower : Text.lowercase ".YAML" = ".yaml" := by cbv
  have hentry : shelf.HasEntry (shelved ["Foo.YAML"]) "Foo" :=
    ⟨".YAML", ⟨['Y', 'A', 'M', 'L'], rfl, by decide, by decide⟩, by rw [hlower]; decide,
      by rw [hentries]; decide⟩
  have hdir : (shelved ["Foo.YAML"]).isDirectory shelf.root = true := by cbv
  have hdocument : ¬ shelf.HasDocument (shelved ["Foo.YAML"]) "Foo" := by
    rintro ⟨suffix, hsuffix, hmem⟩
    rw [hentries] at hmem
    simp only [suffixes, List.mem_cons, List.not_mem_nil, or_false] at hsuffix hmem
    obtain rfl | rfl | rfl := hsuffix <;> exact absurd hmem (by decide)
  obtain ⟨names, heq, -, hlisted⟩ := codenames_eq_ok hdir
  exact ⟨names, heq, (hlisted "Foo").mpr ⟨by decide, hentry⟩,
    device_of_not_hasDocument hdir ⟨by decide, by decide⟩ ⟨by decide, by cbv⟩ hdocument⟩

end Catalog

end Reflash
