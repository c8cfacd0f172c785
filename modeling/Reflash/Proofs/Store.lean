import Mathlib
import Reflash.File.Checksum
import Reflash.File.Cache
import Reflash.Proofs.Pairs

set_option autoImplicit false

/-! # Laws of the file store

A path has one location, whatever stands on the way (`FileStore.locate`); resolving the path either
finds that location or nothing. So what an operation can change is said in terms of locations
(`FileStore.Altered`): which ones it may touch, and which ones it may turn into directories where
nothing was. Directories stay in any case, so a path that could be resolved still can be. -/

namespace Reflash

namespace FileStore

/-! ## Locations -/

/-- Where one component leads. -/
def advance (loc : Location) (part : String) : Location :=
  if part = ".." then loc.dropLast else loc ++ [part]

/-- Where components lead seen from a location, if everything on the way is a directory. -/
def reach (loc : Location) (parts : List String) : Location :=
  parts.foldl advance loc

@[simp] theorem reach_nil (loc : Location) : reach loc [] = loc := rfl

@[simp] theorem reach_cons (loc : Location) (part : String) (parts : List String) :
    reach loc (part :: parts) = reach (advance loc part) parts := rfl

theorem reach_append (loc : Location) (parts parts' : List String) :
    reach loc (parts ++ parts') = reach (reach loc parts) parts' :=
  List.foldl_append

/-- The location that a path is seen from. -/
def origin (fs : FileStore) (p : Path) : Location :=
  if p.isAbsolute then [] else fs.current

/-- The location that a path stands for. -/
def locate (fs : FileStore) (p : Path) : Location :=
  reach (fs.origin p) p.parts

/-- The locations on the way of a path, its end included. -/
def along (fs : FileStore) (p : Path) : Set Location :=
  {loc | ∃ parts, parts <+: p.parts ∧ loc = reach (fs.origin p) parts}

theorem locate_mem_along (fs : FileStore) (p : Path) : fs.locate p ∈ fs.along p :=
  ⟨p.parts, List.prefix_rfl, rfl⟩

theorem along_parent_subset (fs : FileStore) (p : Path) : fs.along p.parent ⊆ fs.along p := by
  rintro loc ⟨parts, hparts, rfl⟩
  exact ⟨parts, hparts.trans (List.dropLast_prefix p.parts), rfl⟩

/-- The content of the file at a location, if there is one. -/
def content? (fs : FileStore) (loc : Location) : Option ByteArray :=
  match fs.node? loc with
  | some (.file content) => some content
  | _ => none

@[simp] theorem node?_root (fs : FileStore) : fs.node? [] = some .directory := rfl

theorem resolveFrom_nil (fs : FileStore) (loc : Location) : fs.resolveFrom loc [] = .ok loc := rfl

theorem resolveFrom_cons (fs : FileStore) (loc : Location) (part : String) (rest : List String) :
    fs.resolveFrom loc (part :: rest) =
      if !fits part then .error .nameTooLong
      else if rest.isEmpty then .ok (advance loc part)
      else
        match fs.node? (advance loc part) with
        | some .directory => fs.resolveFrom (advance loc part) rest
        | some (.file _) => .error .notDirectory
        | none => .error .missing := rfl

theorem resolveFrom_eq_ok {fs : FileStore} {loc stop : Location} {parts : List String}
    (h : fs.resolveFrom loc parts = .ok stop) : stop = reach loc parts := by
  induction parts generalizing loc with
  | nil => cases h; rfl
  | cons part rest ih =>
    rw [resolveFrom_cons] at h
    split at h
    · cases h
    · split at h
      · rename_i hrest
        cases h
        rw [List.isEmpty_iff.mp hrest]
        rfl
      · split at h
        · exact ih h
        all_goals cases h

/-! ## Paths that the system takes -/

theorem overlong_iff {written : String} :
    overlong written = true ↔ longestPath < written.utf8ByteSize :=
  decide_eq_true_iff

theorem overlong_eq_false_iff {written : String} :
    overlong written = false ↔ written.utf8ByteSize ≤ longestPath := by
  rw [overlong, decide_eq_false_iff_not, Nat.not_lt]

theorem acceptText_iff {written : String} : acceptText written = .ok () ↔
    holdsNul written = false ∧ written.utf8ByteSize ≤ longestPath := by
  rw [← overlong_eq_false_iff]
  unfold acceptText
  cases holdsNul written with
  | true => simp
  | false => cases overlong written <;> simp

/-- The system takes the written path: nothing in it ends it early, and it is not too long. -/
def Takes (p : Path) : Prop :=
  holdsNul p.text = false ∧ p.text.utf8ByteSize ≤ longestPath

theorem Takes.resolve {p : Path} (h : Takes p) (fs : FileStore) :
    fs.resolve p = fs.resolveFrom (fs.origin p) p.parts := by
  unfold FileStore.resolve
  rw [acceptText_iff.mpr h]
  rfl

/-- A path that can be resolved is one that the system takes. -/
theorem takes_of_resolve {fs : FileStore} {p : Path} {loc : Location}
    (h : fs.resolve p = .ok loc) : Takes p := by
  unfold FileStore.resolve at h
  cases haccept : FileStore.acceptText p.text with
  | ok u => exact acceptText_iff.mp haccept
  | error e =>
    rw [haccept] at h
    cases h

/-- A path that can be resolved leads to its location. -/
theorem resolve_eq_ok {fs : FileStore} {p : Path} {loc : Location} (h : fs.resolve p = .ok loc) :
    loc = fs.locate p :=
  resolveFrom_eq_ok ((takes_of_resolve h).resolve fs ▸ h)

/-- Names that lead somewhere are short enough. -/
theorem fits_of_resolveFrom {fs : FileStore} {loc stop : Location} {parts : List String}
    (h : fs.resolveFrom loc parts = .ok stop) : ∀ part ∈ parts, fits part := by
  induction parts generalizing loc with
  | nil => exact List.forall_mem_nil _
  | cons part rest ih =>
    rw [resolveFrom_cons] at h
    split at h
    · cases h
    next hpart =>
    refine List.forall_mem_cons.mpr ⟨by simpa using hpart, ?_⟩
    split at h
    · next hrest =>
      rw [List.isEmpty_iff.mp hrest]
      exact List.forall_mem_nil _
    · split at h
      · exact ih h
      all_goals cases h

theorem fits_name {fs : FileStore} {p : Path} {loc : Location} (h : fs.resolve p = .ok loc) :
    fits p.name := by
  unfold Path.name
  cases hlast : p.parts.getLast? with
  | none => rfl
  | some part =>
    exact fits_of_resolveFrom ((takes_of_resolve h).resolve fs ▸ h) part
      (List.mem_of_getLast? hlast)

/-- If the names of a path are short enough, the system does not complain about their length. -/
theorem resolveFrom_ne_nameTooLong {fs : FileStore} {loc : Location} {parts : List String}
    (h : ∀ part ∈ parts, fits part) : fs.resolveFrom loc parts ≠ .error .nameTooLong := by
  induction parts generalizing loc with
  | nil => simp [resolveFrom_nil]
  | cons part rest ih =>
    have hpart : fits part = true := h part (by simp)
    rw [resolveFrom_cons, hpart, Bool.not_true, if_neg Bool.false_ne_true]
    split
    · simp
    · split
      · exact ih fun part' hpart' => h part' (by simp [hpart'])
      all_goals simp

/-- The path is short enough for the system, in all and name by name. -/
structure Short (p : Path) : Prop where
  whole : p.text.utf8ByteSize ≤ longestPath
  names : ∀ part ∈ p.parts, fits part

theorem Short.resolve_ne {p : Path} (h : Short p) (fs : FileStore) :
    fs.resolve p ≠ .error .nameTooLong := by
  unfold FileStore.resolve FileStore.acceptText
  rw [overlong_eq_false_iff.mpr h.whole]
  cases holdsNul p.text with
  | true => nofun
  | false => exact resolveFrom_ne_nameTooLong h.names

theorem Short.lookup_ne {p : Path} (h : Short p) (fs : FileStore) :
    fs.lookup p ≠ .error .nameTooLong := by
  unfold lookup
  split
  · next e hresolve =>
    rintro ⟨⟩
    exact h.resolve_ne fs hresolve
  · split <;> nofun

/-- Behind a directory that is there the components are resolved from it. -/
theorem resolveFrom_append {fs : FileStore} {loc dir : Location} {parts rest : List String}
    (hdir : fs.resolveFrom loc parts = .ok dir) (hnode : fs.node? dir = some .directory)
    (hrest : rest ≠ []) : fs.resolveFrom loc (parts ++ rest) = fs.resolveFrom dir rest := by
  induction parts generalizing loc with
  | nil =>
    cases hdir
    rfl
  | cons part parts ih =>
    rw [resolveFrom_cons] at hdir
    rw [List.cons_append, resolveFrom_cons]
    split at hdir
    · cases hdir
    · next hpart =>
      rw [if_neg hpart, if_neg (by simp [hrest])]
      split at hdir
      · next hparts =>
        cases hdir
        rw [hnode, List.isEmpty_iff.mp hparts]
        rfl
      · split at hdir
        · exact ih hdir
        all_goals cases hdir

/-- A path whose directory is there can be resolved. -/
theorem resolveFrom_concat {fs : FileStore} {loc dir : Location} {parts : List String}
    {name : String} (hdir : fs.resolveFrom loc parts = .ok dir)
    (hnode : fs.node? dir = some .directory) (hname : fits name) :
    fs.resolveFrom loc (parts ++ [name]) = .ok (advance dir name) := by
  rw [resolveFrom_append hdir hnode (List.cons_ne_nil name [])]
  simp [resolveFrom_cons, hname]

theorem lookup_eq_ok {fs : FileStore} {p : Path} {node : Node} :
    fs.lookup p = .ok node ↔
      fs.resolve p = .ok (fs.locate p) ∧ fs.node? (fs.locate p) = some node := by
  unfold lookup
  constructor
  · intro h
    split at h
    · cases h
    · rename_i loc hloc
      obtain rfl := resolve_eq_ok hloc
      split at h
      · rename_i hnode
        cases h
        exact ⟨hloc, hnode⟩
      · cases h
  · rintro ⟨hloc, hnode⟩
    rw [hloc]
    simp only [hnode]

/-- The directory that relative paths start from is there, and so are those above it. -/
def Rooted (fs : FileStore) : Prop :=
  ∀ loc, loc <+: fs.current → fs.node? loc = some .directory

theorem above_advance {fs : FileStore} {loc : Location} {part : String}
    (habove : ∀ l, l <+: loc → fs.node? l = some .directory)
    (hdir : fs.node? (advance loc part) = some .directory) :
    ∀ l, l <+: advance loc part → fs.node? l = some .directory := by
  intro l hl
  by_cases hdots : part = ".."
  · rw [advance, if_pos hdots] at hl
    exact habove l (hl.trans (List.dropLast_prefix loc))
  · rw [advance, if_neg hdots] at hl hdir
    rcases List.prefix_concat_iff.mp hl with rfl | hl
    · exact hdir
    · exact habove l hl

/-- On the way to a directory there are directories only. -/
theorem above_resolveFrom {fs : FileStore} {loc stop : Location} {parts : List String}
    (habove : ∀ l, l <+: loc → fs.node? l = some .directory)
    (hstop : fs.resolveFrom loc parts = .ok stop) (hnode : fs.node? stop = some .directory) :
    ∀ l, l <+: stop → fs.node? l = some .directory := by
  induction parts generalizing loc with
  | nil =>
    cases hstop
    exact habove
  | cons part rest ih =>
    rw [resolveFrom_cons] at hstop
    split at hstop
    · cases hstop
    · split at hstop
      · cases hstop
        exact above_advance habove hnode
      · split at hstop
        · rename_i hdir
          exact ih (above_advance habove hdir) hstop
        all_goals cases hstop

theorem Rooted.above {fs : FileStore} (h : fs.Rooted) {p : Path}
    (hp : fs.lookup p = .ok .directory) {loc : Location} (hloc : loc <+: fs.locate p) :
    fs.node? loc = some .directory := by
  obtain ⟨hresolve, hnode⟩ := lookup_eq_ok.mp hp
  rw [(takes_of_resolve hresolve).resolve] at hresolve
  refine above_resolveFrom (fun l hl => ?_) hresolve hnode loc hloc
  unfold origin at hl
  split at hl
  · rw [List.prefix_nil.mp hl]
    rfl
  · exact h l hl

theorem read_eq_ok {fs : FileStore} {p : Path} {content : ByteArray} :
    fs.read p = .ok content ↔ fs.lookup p = .ok (.file content) := by
  unfold read
  split <;> rename_i h <;> simp [h]

/-! ## Nodes -/

theorem node?_put (fs : FileStore) {loc : Location} (node : Node) (h : loc ≠ []) (l : Location) :
    (fs.put loc node).node? l = if l = loc then some node else fs.node? l := by
  have hput : (fs.put loc node).nodes = Pairs.store fs.nodes (loc, node) := by
    unfold put Pairs.store
    split <;> rfl
  unfold node?
  rw [hput, Pairs.lookup_store]
  by_cases hl : l = []
  · simp [hl, h.symm]
  · simp [hl]

theorem node?_remove (fs : FileStore) {loc : Location} (h : loc ≠ []) (l : Location) :
    (fs.remove loc).node? l = if l = loc then none else fs.node? l := by
  unfold node? remove
  rw [Pairs.lookup_removed]
  by_cases hl : l = []
  · simp [hl, h.symm]
  · simp [hl]

/-! ## What operations change -/

/-- The store was changed at the locations `touched` only, except that some of the locations `made`,
where nothing was, are directories now. Whatever was a directory is one. -/
structure Altered (touched made : Set Location) (fs fs' : FileStore) : Prop where
  current : fs'.current = fs.current
  directories : ∀ loc, fs.node? loc = some .directory → fs'.node? loc = some .directory
  elsewhere : ∀ loc ∉ touched, fs'.node? loc = fs.node? loc ∨
    (loc ∈ made ∧ fs.node? loc = none ∧ fs'.node? loc = some .directory)

namespace Altered

variable {touched made : Set Location} {fs fs' fs'' : FileStore}

theorem refl (touched made : Set Location) (fs : FileStore) : Altered touched made fs fs where
  current := rfl
  directories _ h := h
  elsewhere _ _ := .inl rfl

theorem mono {touched' made' : Set Location} (h : Altered touched made fs fs')
    (ht : touched ⊆ touched') (hm : made ⊆ made') : Altered touched' made' fs fs' where
  current := h.current
  directories := h.directories
  elsewhere loc hloc :=
    (h.elsewhere loc fun h' => hloc (ht h')).imp_right fun ⟨hmade, hnode⟩ => ⟨hm hmade, hnode⟩

theorem trans (h : Altered touched made fs fs') (h' : Altered touched made fs' fs'') :
    Altered touched made fs fs'' where
  current := h'.current.trans h.current
  directories loc hloc := h'.directories loc (h.directories loc hloc)
  elsewhere loc hloc := by
    rcases h.elsewhere loc hloc with hsame | ⟨hmade, hnone, hdir⟩
    · rw [← hsame]
      exact h'.elsewhere loc hloc
    · exact .inr ⟨hmade, hnone, h'.directories loc hdir⟩

theorem origin (h : Altered touched made fs fs') (p : Path) : fs'.origin p = fs.origin p := by
  unfold FileStore.origin
  rw [h.current]

theorem locate (h : Altered touched made fs fs') (p : Path) : fs'.locate p = fs.locate p :=
  congrArg (reach · p.parts) (h.origin p)

theorem along (h : Altered touched made fs fs') (p : Path) : fs'.along p = fs.along p := by
  unfold FileStore.along
  rw [h.origin]

theorem rooted (h : Altered touched made fs fs') (hfs : fs.Rooted) : fs'.Rooted :=
  fun loc hloc => h.directories loc (hfs loc (h.current ▸ hloc))

theorem node? (h : Altered touched made fs fs') {loc : Location} (ht : loc ∉ touched)
    (hm : loc ∉ made) : fs'.node? loc = fs.node? loc :=
  (h.elsewhere loc ht).resolve_right fun hmade => hm hmade.1

/-- Making directories changes no content. -/
theorem content? (h : Altered touched made fs fs') {loc : Location} (ht : loc ∉ touched) :
    fs'.content? loc = fs.content? loc := by
  unfold FileStore.content?
  rcases h.elsewhere loc ht with hsame | ⟨-, hnone, hdir⟩
  · rw [hsame]
  · rw [hnone, hdir]

theorem resolveFrom (h : Altered touched made fs fs') {loc stop : Location} {parts : List String}
    (hstop : fs.resolveFrom loc parts = .ok stop) : fs'.resolveFrom loc parts = .ok stop := by
  induction parts generalizing loc with
  | nil => exact hstop
  | cons part rest ih =>
    rw [resolveFrom_cons] at hstop ⊢
    split at hstop
    · cases hstop
    · rename_i hpart
      rw [if_neg hpart]
      split at hstop
      · rename_i hrest
        rwa [if_pos hrest]
      · rename_i hrest
        rw [if_neg hrest]
        split at hstop
        · rename_i hdir
          rw [h.directories _ hdir]
          exact ih hstop
        all_goals cases hstop

/-- A path that could be resolved still leads to its location. -/
theorem resolve (h : Altered touched made fs fs') {p : Path} {loc : Location}
    (hloc : fs.resolve p = .ok loc) : fs'.resolve p = .ok loc := by
  have htakes := takes_of_resolve hloc
  rw [htakes.resolve] at hloc ⊢
  rw [h.origin]
  exact h.resolveFrom hloc

/-- A file that was not touched is still found by its path. -/
theorem lookup_file (h : Altered touched made fs fs') {p : Path} {content : ByteArray}
    (hp : fs.lookup p = .ok (.file content)) (ht : fs.locate p ∉ touched) :
    fs'.lookup p = .ok (.file content) := by
  obtain ⟨hloc, hnode⟩ := lookup_eq_ok.mp hp
  refine lookup_eq_ok.mpr ⟨?_, ?_⟩
  · rw [h.locate]
    exact h.resolve hloc
  · rcases h.elsewhere _ ht with hsame | ⟨-, hnone, -⟩
    · rw [h.locate, hsame, hnode]
    · rw [hnode] at hnone
      cases hnone

end Altered

section

variable {fs fs' : FileStore} {p : Path} {content : ByteArray}

theorem put_altered {loc : Location} (node : Node) (hnode : fs.node? loc ≠ some .directory) :
    Altered {loc} ∅ fs (fs.put loc node) ∧ (fs.put loc node).node? loc = some node := by
  have hroot : loc ≠ [] := fun h => hnode (h ▸ fs.node?_root)
  refine ⟨⟨?_, fun l hl => ?_, fun l hl => .inl ?_⟩, ?_⟩
  · unfold put
    split <;> rfl
  · have hne : l ≠ loc := fun h => hnode (h ▸ hl)
    rw [node?_put fs node hroot, if_neg hne, hl]
  · rw [node?_put fs node hroot, if_neg (by simpa using hl)]
  · rw [node?_put fs node hroot, if_pos rfl]

/-- Writing a file changes nothing else, and puts the content where the path leads. -/
theorem write_altered (h : fs.write p content = .ok fs') :
    Altered {fs.locate p} ∅ fs fs' ∧ fs'.lookup p = .ok (.file content) := by
  simp only [write, bind, Except.bind] at h
  split at h
  · cases h
  · rename_i loc hloc
    obtain rfl := resolve_eq_ok hloc
    have hput (hnode : fs.node? (fs.locate p) ≠ some .directory)
        (h : fs.put (fs.locate p) (.file content) = fs') :
        Altered {fs.locate p} ∅ fs fs' ∧ fs'.lookup p = .ok (.file content) := by
      subst h
      obtain ⟨haltered, hnode⟩ := put_altered (.file content) hnode
      refine ⟨haltered, lookup_eq_ok.mpr ?_⟩
      rw [haltered.locate]
      exact ⟨haltered.resolve hloc, hnode⟩
    split at h
    · cases h
    · rename_i hnode
      exact hput (by simp [hnode]) (Except.ok.inj h)
    · rename_i hnode
      split at h
      · cases h
      · exact hput (by simp [hnode]) (Except.ok.inj h)

/-- A file is written where the path leads, unless a directory is there. -/
theorem resolve_of_write (h : fs.write p content = .ok fs') :
    fs.resolve p = .ok (fs.locate p) ∧ fs.node? (fs.locate p) ≠ some .directory := by
  simp only [write, bind, Except.bind] at h
  split at h
  · cases h
  next loc hloc =>
  obtain rfl := resolve_eq_ok hloc
  refine ⟨hloc, fun hnode => ?_⟩
  rw [hnode] at h
  cases h

theorem isDirectory_iff : fs.isDirectory p = true ↔ fs.lookup p = .ok .directory := by
  unfold isDirectory
  split
  · rename_i h
    simp [h]
  · rename_i h
    simpa using h

/-- The path leads to a directory now, and nothing happened but that directories were made on its
way. -/
structure MadeTo (p : Path) (fs fs' : FileStore) : Prop where
  altered : Altered ∅ (fs.along p) fs fs'
  directory : fs'.lookup p = .ok .directory

theorem makeDirectory_makes (h : fs.makeDirectory p = .ok fs') : MadeTo p fs fs' := by
  simp only [makeDirectory, bind, Except.bind] at h
  split at h
  · cases h
  · rename_i loc hloc
    obtain rfl := resolve_eq_ok hloc
    split at h
    · cases h
    · rename_i hnone
      split at h
      · cases h
      · cases h
        have hfree : fs.node? (fs.locate p) ≠ some .directory := by simp [hnone]
        obtain ⟨haltered, hnode⟩ := put_altered .directory hfree
        refine ⟨⟨haltered.current, haltered.directories, fun l _ => ?_⟩, lookup_eq_ok.mpr ?_⟩
        · by_cases hl : l = fs.locate p
          · rw [hl]
            exact .inr ⟨fs.locate_mem_along p, hnone, hnode⟩
          · exact .inl (haltered.node? hl (Set.notMem_empty l))
        · rw [haltered.locate]
          exact ⟨haltered.resolve hloc, hnode⟩

theorem madeTo_of_isDirectory (h : fs.isDirectory p = true) : MadeTo p fs fs :=
  ⟨.refl _ _ _, isDirectory_iff.mp h⟩

/-- Making a directory and those above it makes directories on its way only. -/
theorem makeDirectoriesTo_makes {depth : Nat} (h : fs.makeDirectoriesTo depth p = .ok fs') :
    MadeTo p fs fs' := by
  induction depth generalizing p fs' with
  | zero =>
    rw [makeDirectoriesTo] at h
    split at h
    · rename_i hdone
      cases h
      exact makeDirectory_makes hdone
    · cases h
    · split at h
      · rename_i hthere
        cases h
        exact madeTo_of_isDirectory hthere
      · cases h
  | succ depth ih =>
    rw [makeDirectoriesTo] at h
    split at h
    · rename_i hdone
      cases h
      exact makeDirectory_makes hdone
    · split at h
      · cases h
      · split at h
        · cases h
        · rename_i fs₁ habove
          have haltered := (ih habove).altered.mono le_rfl (fs.along_parent_subset p)
          -- The directory above is there now, and what is left is the last component.
          suffices hlast : MadeTo p fs₁ fs' from
            ⟨haltered.trans (haltered.along p ▸ hlast.altered), hlast.directory⟩
          split at h
          · rename_i hdone
            cases h
            exact makeDirectory_makes hdone
          · split at h
            · rename_i hthere
              cases h
              exact madeTo_of_isDirectory hthere
            · cases h
    · split at h
      · rename_i hthere
        cases h
        exact madeTo_of_isDirectory hthere
      · cases h

theorem ensureDirectory_makes (h : fs.ensureDirectory p = .ok fs') : MadeTo p fs fs' := by
  unfold ensureDirectory makeDirectories at h
  cases hmade : fs.makeDirectoriesTo p.parts.length p with
  | error e =>
    rw [hmade] at h
    cases h
  | ok fs₁ =>
    rw [hmade] at h
    cases h
    exact makeDirectoriesTo_makes hmade

theorem remove_altered {loc : Location} (hnode : fs.node? loc = some (.file content)) :
    Altered {loc} ∅ fs (fs.remove loc) := by
  have hroot : loc ≠ [] := by
    rintro rfl
    rw [node?_root] at hnode
    cases hnode
  refine ⟨rfl, fun l hl => ?_, fun l hl => .inl ?_⟩
  · have hne : l ≠ loc := by
      rintro rfl
      rw [hnode] at hl
      cases hl
    rw [node?_remove fs hroot, if_neg hne, hl]
  · rw [node?_remove fs hroot, if_neg (by simpa using hl)]

/-- Moving a file changes nothing but the two places, and there is a file at the target then. -/
theorem replace_altered {source target : Path} (h : fs.replace source target = .ok fs') :
    Altered {fs.locate source, fs.locate target} ∅ fs fs' ∧
      ∃ content, fs'.lookup target = .ok (.file content) := by
  simp only [replace, bind, Except.bind] at h
  split at h
  · cases h
  · rename_i start hstart
    obtain rfl := resolve_eq_ok hstart
    split at h
    · cases h
    · rename_i content hread
      obtain ⟨-, hnode⟩ := lookup_eq_ok.mp (read_eq_ok.mp hread)
      split at h
      · cases h
      · rename_i stop hstop
        obtain rfl := resolve_eq_ok hstop
        split at h
        · rename_i hsame
          cases h
          exact ⟨.refl _ _ _, content, lookup_eq_ok.mpr ⟨hstop, hsame ▸ hnode⟩⟩
        · rename_i hne
          split at h
          · cases h
          · rename_i moved hmoved
            cases h
            obtain ⟨hwrite, hthere⟩ := write_altered hmoved
            have hfile : moved.node? (fs.locate source) = some (.file content) := by
              rw [hwrite.node? (Ne.symm hne) (Set.notMem_empty _), hnode]
            have hremove := remove_altered hfile
            refine ⟨?_, content, hremove.lookup_file hthere ?_⟩
            · exact (hwrite.mono (by simp) le_rfl).trans (hremove.mono (by simp) le_rfl)
            · rw [hwrite.locate]
              exact hne

/-- What is found by a path as it was typed is found by the path. -/
theorem lookupTyped_file {typed : String} {content : ByteArray}
    (h : fs.lookupTyped typed = .ok (.file content)) :
    fs.lookup (.ofText typed) = .ok (.file content) ∧ asksDirectory typed = false ∧
      acceptText typed = .ok () := by
  unfold lookupTyped at h
  cases haccept : acceptText typed with
  | error e =>
    rw [haccept] at h
    cases h
  | ok u =>
    rw [haccept] at h
    simp only [bind, Except.bind] at h
    split at h
    · cases h
    · split at h
      · cases h
      · next content' hlookup =>
        split at h
        · cases h
        · next hasks =>
          cases h
          exact ⟨hlookup, Bool.eq_false_iff.mpr hasks, rfl⟩

/-- Two paths that lead to different places are told apart, and so is a path that leads nowhere from
any other. -/
theorem samePlace_eq_false {q : Path} (h : fs.locate p ≠ fs.locate q) :
    fs.samePlace p q = false := by
  unfold samePlace
  split
  · next a b ha hb =>
    rw [resolve_eq_ok ha, resolve_eq_ok hb, beq_eq_false_iff_ne.mpr h, Bool.false_and]
  · rfl

theorem locate_ne_of_samePlace {q : Path} {node : Node} (h : fs.samePlace p q = false)
    (hp : fs.lookup p = .ok node) (hq : fs.resolve q = .ok (fs.locate q)) :
    fs.locate p ≠ fs.locate q := by
  obtain ⟨hresolve, hnode⟩ := lookup_eq_ok.mp hp
  intro heq
  rw [heq] at hresolve hnode
  simp [samePlace, hresolve, hq, hnode] at h

/-- Copying a file changes the target only, which gets the content of the source. The two are not at
one place. -/
theorem copy_altered {source : String} {target : Path} (h : fs.copy source target = .ok fs') :
    ∃ content, (fs.lookupTyped source = .ok (.file content) ∧
      fs.locate (.ofText source) ≠ fs.locate target ∧ fs.resolve target = .ok (fs.locate target) ∧
        fs.isDirectory target = false) ∧
      Altered {fs.locate target} ∅ fs fs' ∧ fs'.lookup target = .ok (.file content) := by
  unfold copy at h
  split at h
  · cases h
  split at h
  · cases h
  next node hnode =>
  split at h
  · cases h
  next hplaces =>
  cases node with
  | directory => cases h
  | file content =>
    dsimp only [atPath] at h
    cases hwrite : fs.write target content with
    | error problem =>
      rw [hwrite] at h
      cases h
    | ok written =>
      rw [hwrite] at h
      cases h
      obtain ⟨hresolve, hfree⟩ := resolve_of_write hwrite
      refine ⟨content, ⟨hnode, ?_, hresolve, ?_⟩, write_altered hwrite⟩
      · exact locate_ne_of_samePlace (Bool.eq_false_iff.mpr hplaces) (lookupTyped_file hnode).1
          hresolve
      · exact Bool.eq_false_iff.mpr fun hdir =>
          hfree (lookup_eq_ok.mp (isDirectory_iff.mp hdir)).2

theorem parts_eq_concat {p : Path} (h : p.parts ≠ []) : p.parts = p.parent.parts ++ [p.name] := by
  have hname : p.name = p.parts.getLast h := by
    unfold Path.name
    rw [List.getLast?_eq_some_getLast h]
    rfl
  rw [hname]
  exact (List.dropLast_append_getLast h).symm

theorem locate_eq_advance {p : Path} (h : p.parts ≠ []) :
    fs.locate p = advance (fs.locate p.parent) p.name := by
  unfold locate
  rw [parts_eq_concat h, reach_append]
  rfl

/-- A path whose directory is there leads to its location. -/
theorem resolve_of_parent (htakes : Takes p) (hparent : fs.lookup p.parent = .ok .directory)
    (hparts : p.parts ≠ []) (hfits : fits p.name) : fs.resolve p = .ok (fs.locate p) := by
  obtain ⟨hdir, hnode⟩ := lookup_eq_ok.mp hparent
  rw [(takes_of_resolve hdir).resolve] at hdir
  rw [htakes.resolve, locate_eq_advance hparts, parts_eq_concat hparts]
  exact resolveFrom_concat hdir hnode hfits

/-- A file can be written where its directory is there and no directory stands in its place. -/
theorem write_eq_ok (htakes : Takes p) (hparent : fs.lookup p.parent = .ok .directory)
    (hparts : p.parts ≠ []) (hfits : fits p.name) (hdots : p.name ≠ "..")
    (hfree : fs.node? (fs.locate p) ≠ some .directory) (content : ByteArray) :
    ∃ fs', fs.write p content = .ok fs' := by
  obtain ⟨-, hnode⟩ := lookup_eq_ok.mp hparent
  have hlocate : fs.locate p = fs.locate p.parent ++ [p.name] := by
    rw [locate_eq_advance hparts, advance, if_neg hdots]
  have hresolve := resolve_of_parent htakes hparent hparts hfits
  simp only [write, bind, Except.bind, hresolve]
  cases hthere : fs.node? (fs.locate p) with
  | none =>
    have hhas : fs.hasParent (fs.locate p) = .ok () := by
      unfold hasParent
      rw [hlocate, List.dropLast_concat, hnode]
    rw [hhas]
    exact ⟨_, rfl⟩
  | some node =>
    cases node with
    | directory => exact absurd hthere hfree
    | file old => exact ⟨_, rfl⟩

end

end FileStore

/-! ## Checksums -/

namespace Checksum

open FileStore

/-- The checksum asks for nothing, or for a digest that there is and a sum that can be written. -/
def Supported (checksum : Value) : Prop :=
  checksum.truth = false ∨ ∃ es, checksum = .mapping es ∧
    ((Entries.fieldD "sum" es).truth = false ∨
      (∃ d, algorithm es = .ok d) ∧ (Entries.fieldD "sum" es).writable = true)

theorem Supported.fits_ok {checksum : Value} (h : Supported checksum) (content : ByteArray) :
    ∃ fitting, fits content checksum = .ok fitting := by
  unfold fits
  rcases h with hnone | ⟨es, rfl, hsum | ⟨⟨d, hd⟩, hwritable⟩⟩
  · rw [hnone]
    exact ⟨true, rfl⟩
  · dsimp only
    rw [hsum, Bool.not_false, if_pos rfl]
    split <;> exact ⟨true, rfl⟩
  · dsimp only
    rw [hd, Value.shown_of_writable hwritable]
    split
    · exact ⟨true, rfl⟩
    · split
      · exact ⟨true, rfl⟩
      · exact ⟨_, rfl⟩

section

variable {fs fs' : FileStore} {p : Path} {checksum : Value}

theorem verify_eq_true : verify fs p checksum = .ok true ↔
    ∃ content, fs.lookup p = .ok (.file content) ∧ fits content checksum = .ok true := by
  unfold verify
  split
  · rename_i content h
    simp [h]
  · rename_i h
    simp [h]
  · rename_i h _
    simp only [Except.ok.injEq, Bool.false_eq_true, false_iff, not_exists, not_and]
    exact fun content hfile => absurd hfile (h content)

/-- Files that were not touched stay verified. -/
theorem verify_altered {touched made : Set Location} (h : Altered touched made fs fs')
    (hp : verify fs p checksum = .ok true) (ht : fs.locate p ∉ touched) :
    verify fs' p checksum = .ok true := by
  obtain ⟨content, hfile, hfits⟩ := verify_eq_true.mp hp
  exact verify_eq_true.mpr ⟨content, h.lookup_file hfile ht, hfits⟩

/-- A file that is verified by one path is verified by every path that leads to it. -/
theorem verify_of_locate_eq {q : Path} (hp : verify fs p checksum = .ok true)
    (hq : fs.resolve q = .ok (fs.locate q)) (h : fs.locate p = fs.locate q) :
    verify fs q checksum = .ok true := by
  obtain ⟨content, hfile, hfits⟩ := verify_eq_true.mp hp
  refine verify_eq_true.mpr ⟨content, lookup_eq_ok.mpr ⟨hq, ?_⟩, hfits⟩
  rw [← h]
  exact (lookup_eq_ok.mp hfile).2

theorem verify_of_lookup {content : ByteArray} (h : fs.lookup p = .ok (.file content)) :
    verify fs p checksum = fits content checksum := by
  unfold verify
  rw [h]

/-- The one thing that verifying a file can fail of is the length of its path. -/
theorem Supported.verify_error (h : Supported checksum) {e : Fault}
    (he : verify fs p checksum = .error e) :
    e = .file .nameTooLong [p.text] ∧ fs.lookup p = .error .nameTooLong := by
  unfold verify at he
  split at he
  · rename_i content _
    obtain ⟨fitting, hfits⟩ := h.fits_ok content
    rw [hfits] at he
    cases he
  · rename_i hlookup
    cases he
    exact ⟨rfl, hlookup⟩
  · cases he

end

end Checksum

end Reflash
