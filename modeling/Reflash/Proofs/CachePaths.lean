import Reflash.Proofs.FileNames

set_option autoImplicit false

/-! # Files in the cache

The place of a file in the cache is put together from texts, any of which may have several components,
slashes too many and dots. What counts is the pieces of these texts between their slashes
(`Path.pieces`): the empty ones and the dots among them are dropped, and the others follow each other
(`Cache.path_eq`). A path that goes on from another one without ever going up is at that place or below
it (`Path.Descends`), in every file store (`Path.Descends.locate`).

The main statement is `Cache.paths_in_groups`: what belongs to a group stays there, and nothing belongs
to two groups or to two names. -/

namespace Reflash

/-! ## Pieces and components -/

/-- Splitting at a separator is the splitting of lists. -/
theorem Text.split_eq_splitOn (sep : Char) (s : String) :
    Text.split sep s = (s.toList.splitOn sep).map String.ofList := by
  have hlist (cs : List Char) : Text.splitList sep cs = cs.splitOn sep := by
    induction cs with
    | nil => rfl
    | cons c cs ih =>
      rw [Text.splitList, ih, List.splitOn, List.splitOn, List.splitOnP_cons_eq_if_modifyHead]
      cases hparts : cs.splitOnP (· == sep) with
      | nil => exact absurd hparts (List.splitOnP_ne_nil _ _)
      | cons part parts => by_cases hc : c = sep <;> simp [hc]
  rw [Text.split, hlist]

theorem FileStore.reach_of_never_up {loc : Location} {parts : List String} (h : ".." ∉ parts) :
    reach loc parts = loc ++ parts := by
  induction parts generalizing loc with
  | nil => simp
  | cons part parts ih =>
    obtain ⟨hpart, hparts⟩ := List.ne_and_not_mem_of_not_mem_cons h
    rw [reach_cons, ih hparts, advance, if_neg (Ne.symm hpart)]
    simp

namespace Path

variable {p q : Path} {s name : String}

/-- What stands between the slashes of a text. -/
def pieces (s : String) : List String :=
  (s.toList.splitOn '/').map String.ofList

/-- The pieces that name something: neither empty ones nor dots. -/
def kept (parts : List String) : List String :=
  parts.filter fun part => part ≠ "" ∧ part ≠ "."

/-- A text denotes a relative path that never goes up. -/
structure Inner (s : String) : Prop where
  relative : s.toList.head? ≠ some '/'
  never_up : ".." ∉ pieces s

theorem partsOf_eq (s : String) : partsOf s = kept (pieces s) := by
  unfold partsOf kept pieces
  rw [Text.split_eq_splitOn]
  apply List.filter_congr
  intro part _
  by_cases hempty : part = "" <;> by_cases hdot : part = "." <;> simp [hempty, hdot]

@[simp] theorem kept_append (parts parts' : List String) :
    kept (parts ++ parts') = kept parts ++ kept parts' :=
  List.filter_append parts parts'

theorem anchorOf_of_relative {cs : List Char} (h : cs.head? ≠ some '/') : anchorOf cs = "" := by
  cases cs with
  | nil => rfl
  | cons c cs =>
    have hc : c ≠ '/' := by simpa using h
    simp [anchorOf, hc]

/-- A relative text goes on from the path that it is seen from. -/
theorem child_of_relative (p : Path) (h : s.toList.head? ≠ some '/') :
    p.child s = ⟨p.anchor, p.parts ++ kept (pieces s)⟩ := by
  rw [child, ofText, anchorOf_of_relative h, partsOf_eq]
  rfl

/-! ## Places at or below a path -/

/-- `q` goes on from `p` without ever going up. -/
structure Descends (p q : Path) : Prop where
  anchor_eq : q.anchor = p.anchor
  parts_eq : ∃ rest, ".." ∉ rest ∧ q.parts = p.parts ++ rest

/-- A relative text leads to the path or below it exactly if it never goes up. -/
theorem child_descends_iff (p : Path) (hrelative : s.toList.head? ≠ some '/') :
    p.Descends (p.child s) ↔ ".." ∉ pieces s := by
  rw [child_of_relative p hrelative]
  constructor
  · rintro ⟨-, rest, hrest, hparts⟩ hup
    have hkept : kept (pieces s) = rest := List.append_cancel_left hparts
    exact hrest (hkept ▸ List.mem_filter.mpr ⟨hup, by decide⟩)
  · intro h
    exact ⟨rfl, kept (pieces s), fun hup => h (List.mem_of_mem_filter hup), rfl⟩

theorem Inner.child_descends (h : Inner s) (p : Path) : p.Descends (p.child s) :=
  (child_descends_iff p h.relative).mpr h.never_up

/-- In every file store a path below another one is below its location. -/
theorem Descends.locate (h : p.Descends q) (fs : FileStore) : fs.locate p <+: fs.locate q := by
  obtain ⟨hanchor, rest, hrest, hparts⟩ := h
  have horigin : fs.origin q = fs.origin p := by
    simp [FileStore.origin, isAbsolute, hanchor]
  refine ⟨rest, ?_⟩
  rw [FileStore.locate, FileStore.locate, hparts, horigin, FileStore.reach_append,
    FileStore.reach_of_never_up hrest]

/-! ## Written forms -/

theorem IsComponent.front_child (h : IsComponent name) (p : Path) :
    (p.child name).front = (p.child name).text ++ "/" := by
  rw [h.child_eq p]
  simp [front, text]

/-- Two components can be read off the written form of what they lead to. -/
theorem text_child_child_inj {dir file dir' file' : String} (p : Path) (hdir : IsComponent dir)
    (hfile : IsComponent file) (hdir' : IsComponent dir') (hfile' : IsComponent file')
    (h : ((p.child dir).child file).text = ((p.child dir').child file').text) :
    dir = dir' ∧ file = file' := by
  have hwritten {dir file : String} (hdir : IsComponent dir) (hfile : IsComponent file) :
      ((p.child dir).child file).text = p.front ++ (dir ++ String.singleton '/' ++ file) := by
    rw [hfile.text_child, hdir.front_child, hdir.text_child]
    simp [String.append_assoc]
  have hsplit {dir : String} (hdir : IsComponent dir) (file : String) :
      Text.splitFirst '/' (dir ++ String.singleton '/' ++ file) = some (dir, file) :=
    Text.splitFirst_append hdir.unslashed
  rw [hwritten hdir hfile, hwritten hdir' hfile', String.append_right_inj] at h
  have hpairs := (hsplit hdir file).symm.trans (h ▸ hsplit hdir' file')
  simpa using hpairs

end Path

namespace Cache

open Reflash.Path

variable {c : Cache} {group name : String}

/-- The place of a file has the components of the root, the codename, the group and the name. -/
theorem path_eq (hcodename : Inner c.codename) (hgroup : Inner group) (hname : Inner name) :
    c.path group name =
      ⟨c.root.anchor,
        c.root.parts ++ kept (pieces c.codename ++ pieces group ++ pieces name)⟩ := by
  rw [path, groupDir, child_of_relative _ hname.relative, child_of_relative _ hgroup.relative,
    child_of_relative _ hcodename.relative]
  simp

/-- A file with a name of one component lies in the directory of one group only. -/
theorem group_of_descends {dir : String} (hdir : IsComponent dir) (hgroup : IsComponent group)
    (hname : IsComponent name) (h : (c.groupDir dir).Descends (c.path group name)) : group = dir := by
  obtain ⟨-, rest, -, hparts⟩ := h
  rw [path, hname.child_eq, groupDir, hgroup.child_eq, groupDir, hdir.child_eq] at hparts
  simp only [List.append_assoc, List.append_cancel_left_eq, List.cons_append, List.nil_append,
    List.cons.injEq] at hparts
  exact hparts.1

/-- The place of a file of a group has the components of the root of the cache, then those of the
codename, the group and the name, without the empty ones and the dots. It is in the directory of the
group or below, which is in the directory of the device or below, and so are their locations in every
file store. Groups and names of one component each lead to places of their own, with written forms of
their own, and no directory of a group holds files of two groups. -/
theorem paths_in_groups (c : Cache) :
    (∀ group name, Inner c.codename → Inner group → Inner name →
      c.path group name =
          ⟨c.root.anchor,
            c.root.parts ++ kept (pieces c.codename ++ pieces group ++ pieces name)⟩ ∧
        (c.groupDir group).Descends (c.path group name) ∧
        (c.root.child c.codename).Descends (c.groupDir group) ∧
        ∀ fs : FileStore, fs.locate (c.root.child c.codename) <+: fs.locate (c.groupDir group) ∧
          fs.locate (c.groupDir group) <+: fs.locate (c.path group name)) ∧
      ∀ group name group' name', IsComponent group → IsComponent name → IsComponent group' →
        IsComponent name' →
        ((group, name) ≠ (group', name') →
          c.path group name ≠ c.path group' name' ∧
            (c.path group name).text ≠ (c.path group' name').text) ∧
          (group ≠ group' → ∀ dir, IsComponent dir →
            ¬ ((c.groupDir dir).Descends (c.path group name) ∧
              (c.groupDir dir).Descends (c.path group' name'))) := by
  constructor
  · intro group name hcodename hgroup hname
    have hfile : (c.groupDir group).Descends (c.path group name) := hname.child_descends _
    have hdir : (c.root.child c.codename).Descends (c.groupDir group) := hgroup.child_descends _
    exact ⟨path_eq hcodename hgroup hname, hfile, hdir, fun fs => ⟨hdir.locate fs, hfile.locate fs⟩⟩
  · intro group name group' name' hgroup hname hgroup' hname'
    refine ⟨fun hne => ?_, fun hne dir hdir hboth => ?_⟩
    · have htext : (c.path group name).text ≠ (c.path group' name').text := by
        intro heq
        obtain ⟨rfl, rfl⟩ := text_child_child_inj _ hgroup hname hgroup' hname' heq
        exact hne rfl
      exact ⟨fun heq => htext (congrArg text heq), htext⟩
    · have hleft := group_of_descends hdir hgroup hname hboth.1
      have hright := group_of_descends hdir hgroup' hname' hboth.2
      exact hne (hleft.trans hright.symm)

/-- The cache of a device, written with slashes and dots that do not count. -/
def littered : Cache :=
  ⟨ofText "/var//cache/.", "./yggdrasil/"⟩

theorem littered_paths_in_groups :
    littered.path "fire//ware" "./boot/a.img" =
        ⟨"/", ["var", "cache", "yggdrasil", "fire", "ware", "boot", "a.img"]⟩ ∧
      (littered.groupDir "fire//ware").Descends (littered.path "fire//ware" "./boot/a.img") ∧
      (littered.path "a" "..img").text ≠ (littered.path "a." ".img").text ∧
      ¬ ((littered.groupDir "a").Descends (littered.path "a" "..img") ∧
        (littered.groupDir "a").Descends (littered.path "a." ".img")) := by
  obtain ⟨hplaces, happart⟩ := paths_in_groups littered
  obtain ⟨hpath, hfile, -⟩ := hplaces "fire//ware" "./boot/a.img" ⟨by decide, by decide⟩
    ⟨by decide, by decide⟩ ⟨by decide, by decide⟩
  obtain ⟨hne, hboth⟩ := happart "a" "..img" "a." ".img" ⟨by decide, by decide, by decide⟩
    ⟨by decide, by decide, by decide⟩ ⟨by decide, by decide, by decide⟩
    ⟨by decide, by decide, by decide⟩
  exact ⟨hpath, hfile, (hne (by decide)).2, hboth (by decide) "a" ⟨by decide, by decide, by decide⟩⟩

end Cache

end Reflash
