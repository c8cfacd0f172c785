import Mathlib
import Reflash.Proofs.Downloads
import Reflash.Proofs.Grouping
import Reflash.Proofs.Plain

set_option autoImplicit false

/-! # Downloads of a group

The places of the files of a group are chosen before any of them is fetched, by names or by the
tails of addresses, and each file is verified right after it came. So when the action is through,
all files of the group are there and verified if they spare each other (`Download.Wanted.Spares`);
nothing else is looked at once a file was verified. -/

namespace Reflash

open Run

variable {σ : Type}

namespace Download

variable {net : Net σ} {reports : DownloadReports (Depot σ)} {xs : List Wanted}
  {files : List Value}

/-- The file is there, and if a sum was given, it is the digest of the content. -/
def Wanted.Verified (x : Wanted) (fs : FileStore) : Prop :=
  ∃ content, fs.lookup x.path = .ok (.file content) ∧
    ∀ es, x.checksum = .mapping es → (Entries.fieldD "sum" es).truth = true →
      ∃ d, Checksum.algorithm es = .ok d ∧
        d.hex content = Text.lowercase (Entries.fieldD "sum" es).text

theorem Wanted.verified_of_passes {x : Wanted} {fs : FileStore} (h : x.passes fs = true) :
    x.Verified fs := by
  obtain ⟨content, hfile, hfits⟩ := Checksum.verify_eq_true.mp (passes_iff.mp h)
  refine ⟨content, hfile, fun es hes hsum => ?_⟩
  rw [hes, Checksum.fits] at hfits
  have hentries : (Value.mapping es).truth = true := by
    cases es with
    | nil => cases hsum
    | cons => rfl
  simp only [hentries, hsum, Bool.not_true, Bool.false_eq_true, if_false] at hfits
  obtain ⟨d, hd, hfits⟩ := Fallible.bind_eq_ok hfits
  obtain ⟨sum, hshown, hmatch⟩ := Fallible.bind_eq_ok hfits
  obtain ⟨-, rfl⟩ := Value.shown_eq_ok.mp hshown
  exact ⟨d, hd, eq_of_beq (Except.ok.inj hmatch)⟩

variable (net) in
/-- When a download returns, the files are there and verified, if they spare each other. -/
theorem run_verified (hreports : Bystanders reports)
    (hactivity : ∀ name, (reports.activity name).Quiet)
    (hfiles : List.Forall₂ Wanted.Asked xs files) {fs : FileStore}
    (hspares : ∀ x ∈ xs, ∀ y ∈ xs, x.Spares fs y) :
    Leads (fun w => w.files = fs) (run (Depot.means net) files reports) fun o w' =>
      o = .returned () → ∀ x ∈ xs, x.passes w'.files = true := by
  refine .keep_bind ((hactivity "preparing").leads fun w rest h => h) (fun _ => ?_)
    (fun _ _ _ => nofun) fun _ _ => nofun
  refine .bind (R := fun o w => w.files = fs ∧ ∀ found, o = .returned found →
      List.Forall₂ Wanted.Asked (Wanted.missing xs fs) found) ?_ (fun found => ?_)
    (fun _ _ _ => nofun) fun _ _ => nofun
  · rintro n w rfl
    rcases missing_apply net hfiles n w with ⟨found, hfound, hasked⟩ | ⟨x, -, hfailed⟩
    · rw [hfound]
      exact ⟨rfl, by rintro _ ⟨⟩; exact hasked⟩
    · rw [hfailed]
      exact ⟨rfl, nofun⟩
  have hbrought {w w' : Depot σ} {total : Nat} (hw : w.files = fs)
      (hfound : List.Forall₂ Wanted.Asked (Wanted.missing xs fs) found)
      (h : Brings (Depot.means net) reports total 0 found w w') :
      ∀ x ∈ xs, x.passes w'.files = true := by
    subst hw
    have hmissing := Wanted.missing_subset xs w.files
    intro x hx
    by_cases hpasses : x.passes w.files = true
    · exact h.spares hreports hfound (fun y hy => hspares y (hmissing hy) x hx) hpasses
    · refine h.passes hreports hfound ?_ x (List.mem_filter.mpr ⟨hx, by simpa using hpasses⟩)
      exact List.pairwise_of_forall_mem_list fun y hy z hz =>
        hspares z (hmissing hz) y (hmissing hy)
  split
  · rename_i hempty
    obtain rfl := List.isEmpty_iff.mp hempty
    rintro n w ⟨hw, hfound⟩ -
    exact hbrought hw (hfound [] rfl) ((.nil : Brings (Depot.means net) reports 0 0 [] w w))
  · refine .keep_bind ((hactivity "downloading").leads fun w rest h => h) (fun _ n w hw hend => ?_)
      (fun _ _ _ => nofun) fun _ _ => nofun
    obtain ⟨hw, hfound⟩ := hw
    rcases hrun : bringFrom (Depot.means net) reports found.length 0 found n w with ⟨o, events, w'⟩
    rw [hrun] at hend
    obtain rfl : o = .returned () := hend
    exact hbrought hw (hfound found rfl) (brings_of_returned hrun)

end Download

namespace Builtin

open Download (Wanted)

/-- The file that an entry of a payload asks for: it is kept in the group under its name or under
the tail of its address. -/
structure Kept (cache : Cache) (group : String) (x : Wanted) (file : Value) : Prop where
  mapping : ∃ es, file = .mapping es
  path : ∃ name, downloadName file = .ok (.str name) ∧
    x.path = .ofText (cache.path group name).text
  url : file.item "url" = .ok x.url
  checksum : file.optionalItem "checksum" = .ok x.checksum
  supported : Checksum.Supported x.checksum

/-- The entry of the request asks for the same file. -/
theorem Kept.asked {cache : Cache} {group : String} {x : Wanted} {file : Value}
    (h : Kept cache group x file) :
    ∃ entry, downloadEntry cache (.str group) file = .ok entry ∧ x.Asked entry := by
  obtain ⟨⟨es, rfl⟩, ⟨name, hname, hpath⟩, hurl, hchecksum, hsupported⟩ := h
  refine ⟨.mapping (Entries.put (.str "path") (.str (cache.path group name).text) es), ?_, ?_, ?_,
    ?_, hsupported⟩
  · unfold downloadEntry
    dsimp only
    rw [hname]
    rfl
  · unfold Download.place
    rw [hpath]
    simp only [Value.item, Entries.field?_put]
    rfl
  · rw [← hurl]
    simp only [Value.item, Entries.field?_put]
    rfl
  · rw [← hchecksum]
    simp only [Value.optionalItem, Entries.fieldD, Entries.field?_put]
    rfl

theorem downloadEntries_asked {cache : Cache} {group : String} {xs : List Wanted}
    {files : List Value} (h : List.Forall₂ (Kept cache group) xs files) :
    ∃ entries, downloadEntries cache (.str group) files = .ok entries ∧
      List.Forall₂ Wanted.Asked xs entries := by
  induction h with
  | nil => exact ⟨[], rfl, .nil⟩
  | cons hfile _ ih =>
    obtain ⟨entry, hentry, hasked⟩ := hfile.asked
    obtain ⟨entries, hentries, hall⟩ := ih
    refine ⟨entry :: entries, ?_, .cons hasked hall⟩
    rw [downloadEntries, hentry]
    dsimp only
    rw [hentries]
    rfl

section

variable (ctx : Context σ) (others : Tools (Depot σ)) (net : Net σ)

theorem downloadReports_bystanders (group : Value) :
    Download.Bystanders (downloadReports (ctx.inDepot others net) group) := by
  have htell := Depot.tell_quiet ctx others net
  constructor
  · intro fraction speed
    refine Quiet.bind ?_ fun _ => Quiet.bind (Quiet.ofFallible _) fun _ =>
      Quiet.bind (htell _) fun _ => htell _
    unfold Host.reportProgress
    split
    · exact htell _
    · exact Quiet.raise _
  · intro current total n w
    have hquiet : ((downloadReports (ctx.inDepot others net) group).next current total).Quiet :=
      Quiet.bind (Depot.logText_quiet _ _ _) fun _ => Quiet.bind (Quiet.ofFallible _) fun _ =>
        Quiet.bind (Quiet.ofFallible _) fun _ => htell _
    obtain ⟨rest, hrest⟩ := hquiet n w
    exact ⟨rest, w.announced, hrest⟩

theorem downloadReports_activity_quiet (group : Value) (name : String) :
    ((downloadReports (ctx.inDepot others net) group).activity name).Quiet := by
  have htell := Depot.tell_quiet ctx others net
  unfold downloadReports
  dsimp only
  split
  · exact Quiet.bind (Depot.logText_quiet _ _ _) fun _ => htell _
  · split
    · exact Quiet.bind (Depot.logText_quiet _ _ _) fun _ => Quiet.bind (htell _) fun _ =>
        Quiet.bind (htell _) fun _ => Quiet.bind (Quiet.ofFallible _) fun _ => htell _
    · exact Quiet.pure _

/-- When the handler returns, the files of the group are there and verified, if they spare each
other. -/
theorem download_leads {group : String} {payload : Value} {listed : List Value} {xs : List Wanted}
    (hgroup : payload.item "group" = .ok (.str group))
    (hlisted : (payload.optionalItem "files" >>= Value.listOrEmpty) = .ok listed)
    (hkept : List.Forall₂ (Kept ctx.cache group) xs listed) {fs : FileStore}
    (hspares : ∀ x ∈ xs, ∀ y ∈ xs, x.Spares fs y) :
    Leads (fun w => w.files = fs) (download payload (ctx.inDepot others net)) fun o w' =>
      ∀ v, o = .returned v → v = .null ∧ ∀ x ∈ xs, x.passes w'.files = true := by
  obtain ⟨files, hfiles, hlisted⟩ := Fallible.bind_eq_ok hlisted
  obtain ⟨entries, hentries, hasked⟩ := downloadEntries_asked hkept
  have hcache : (ctx.inDepot others net).cache = ctx.cache := rfl
  unfold download
  rw [hgroup, hfiles, hcache]
  simp only [Run.ofFallible_ok_bind, hlisted, hentries]
  refine .emit_bind ?_
  have hrun := Download.run_verified net (downloadReports_bystanders ctx others net (.str group))
    (downloadReports_activity_quiet ctx others net (.str group)) hasked hspares
  let Passed (w : Depot σ) : Prop := ∀ x ∈ xs, x.passes w.files = true
  refine .bind (R := fun o w => o = .returned () → Passed w)
    (.rescue hrun (fun _ _ h => h) (fun e => ?_) fun _ h => h) (fun _ => ?_) (fun _ _ _ => nofun)
    fun _ _ => nofun
  · -- The failure is told and raised again, in other words.
    have hraise (e : Fault) (P : Depot σ → Prop) : Leads P (Run.raise e : Job (Depot σ) Unit)
        fun o w => o = .returned () → Passed w := .raise fun _ _ => nofun
    have hafter {P : Depot σ → Prop} {job : Job (Depot σ) Unit} {next : Unit → Job (Depot σ) Unit}
        (h : ∀ a, Leads (fun _ => True) (next a) fun o w => o = .returned () → Passed w) :
        Leads P (job >>= next) fun o w => o = .returned () → Passed w :=
      .bind (R := fun _ _ => True) (fun _ _ _ => trivial) h (fun _ _ _ => nofun) fun _ _ => nofun
    split
    · exact hafter fun _ => hafter fun _ => hafter fun _ => hraise _ _
    · exact hafter fun _ => hafter fun _ => hraise _ _
  · refine Depot.tell_bind (fun _ _ h => h) (Depot.tell_bind (fun _ _ h => h)
      (Depot.tell_bind (fun _ _ h => h) ?_))
    refine .pure fun w h => ?_
    rintro _ ⟨⟩
    exact ⟨rfl, h rfl⟩

theorem dispatch_download (payload : Value) : (Action.named "core:download" payload).dispatch =
    .ok ⟨"core:download", "core", "download", payload⟩ := by
  cbv

theorem handler?_download : table.handler? "core:download" = some (download : Handler σ) := by
  cbv

/-- When a download of a group is through, every file of it is there, with the digest that was asked
for if there was one. This needs that no file arrives at the place of another one, and that files
with the same place have the same checksum: what comes later is not compared with what was verified
before. -/
theorem download_leaves_verified {group : String} {payload : Value} {listed : List Value}
    {xs : List Wanted} (hgroup : payload.item "group" = .ok (.str group))
    (hlisted : (payload.optionalItem "files" >>= Value.listOrEmpty) = .ok listed)
    (hkept : List.Forall₂ (Kept ctx.cache group) xs listed)
    (runSteps : List Step → Flow (Depot σ) Unit) (n : Nat) (w : Depot σ)
    (hspares : ∀ x ∈ xs, ∀ y ∈ xs, x.Spares w.files y) :
    let t := Flow.action runSteps table (ctx.inDepot others net)
      (.named "core:download" payload) n w
    t.ending = .returned () → ∀ x ∈ xs, x.Verified t.world.files := by
  intro t hreturned x hx
  have hleads := download_leads ctx others net hgroup hlisted hkept hspares n w rfl
  obtain ⟨hending, hworld⟩ := Flow.action_plain (dispatch_download payload) handler?_download
    runSteps (ctx.inDepot others net) n w fun v hv => (hleads v hv).1
  obtain ⟨v, hv⟩ := Flow.plainEnding_eq_returned (hending.symm.trans hreturned)
  have hpasses := (hleads v hv).2 x hx
  rw [← hworld] at hpasses
  exact Wanted.verified_of_passes hpasses

end

/-- A server with the one or the other content. -/
def oneOrTwo : Net Unit where
  get url := return { chunks := [(if url == .str "h/one" then "one" else "two").toUTF8] }
  rate size _ := .int size

/-- The checksum of the one content. -/
def sumOfOne : Value :=
  .mapping [(.str "algorithm", .str "md5"), (.str "sum", .str "f97c5d29941bfb1b2fdab0874906ab82")]

/-- The checksum of the other content. -/
def sumOfTwo : Value :=
  .mapping [(.str "algorithm", .str "md5"), (.str "sum", .str "b8a9f715dbb64fd5c56e7783c6820a61")]

/-- Two files of a group are downloaded and verified, the second one under the tail of its
address. -/
theorem two_files_verified :
    let ctx : Context Unit := {
      device := default, system := default, settings := {}, host := .answering {}
      cache := ⟨⟨"/", ["c"]⟩, "dev"⟩ }
    let first : Wanted := ⟨⟨"/", ["c", "dev", "g", "1.img"]⟩, .str "h/one", sumOfOne⟩
    let second : Wanted := ⟨⟨"/", ["c", "dev", "g", "two"]⟩, .str "h/two", sumOfTwo⟩
    let listed : List Value := [
      .mapping [(.str "url", .str "h/one"), (.str "name", .str "1.img"),
        (.str "checksum", sumOfOne)],
      .mapping [(.str "url", .str "h/two"), (.str "checksum", sumOfTwo)]]
    let payload : Value := .mapping [(.str "group", .str "g"), (.str "files", .list listed)]
    let t := Flow.action (fun _ => return) table
      (ctx.inDepot (Host.answering {}).tools oneOrTwo) (.named "core:download" payload) 0
      { rest := (), files := {} }
    t.ending = .returned () ∧ first.Verified t.world.files ∧ second.Verified t.world.files := by
  intro ctx first second listed payload t
  have hreturned : t.ending = .returned () := Ending.eq_returned (by decide +kernel)
  have hsum {sum : Value} (h : sum = sumOfOne ∨ sum = sumOfTwo) : Checksum.Supported sum := by
    rcases h with rfl | rfl
    all_goals exact .inr ⟨_, rfl, .inr ⟨⟨.md5, by cbv⟩, by cbv⟩⟩
  have hkept : List.Forall₂ (Kept ctx.cache "g") [first, second] listed :=
    .cons ⟨⟨_, rfl⟩, ⟨"1.img", by cbv, by cbv⟩, by cbv, by cbv, hsum (.inl rfl)⟩
      (.cons ⟨⟨_, rfl⟩, ⟨"two", by cbv, by cbv⟩, by cbv, by cbv, hsum (.inr rfl)⟩ .nil)
  have hspares : ∀ x ∈ [first, second], ∀ y ∈ [first, second], x.Spares {} y := by
    simp only [List.forall_mem_cons, List.not_mem_nil, false_implies, implies_true, and_true]
    refine ⟨⟨⟨by decide, fun _ => rfl⟩, by decide, ?_⟩, ⟨by decide, ?_⟩, by decide, fun _ => rfl⟩
    all_goals exact fun h => absurd h (by decide)
  have hgroup : payload.item "group" = .ok (.str "g") := by cbv
  have hlisted : (payload.optionalItem "files" >>= Value.listOrEmpty) = .ok listed := by cbv
  have hverified := download_leaves_verified ctx (Host.answering {}).tools oneOrTwo hgroup hlisted
    hkept (fun _ => return) 0 { rest := (), files := {} } hspares hreturned
  exact ⟨hreturned, hverified first (by simp), hverified second (by simp)⟩

/-- The second of two files arrives at the place of the first one and is moved away from there. So
the download is through, and the first file is not there. -/
theorem arrival_overwrites_verified :
    let ctx : Context Unit := {
      device := default, system := default, settings := {}, host := .answering {}
      cache := ⟨⟨"/", ["c"]⟩, "dev"⟩ }
    let first : Wanted := ⟨⟨"/", ["c", "dev", "g", "boot.img.part"]⟩, .str "h/one", sumOfOne⟩
    let listed : List Value := [
      .mapping [(.str "url", .str "h/one"), (.str "name", .str "boot.img.part"),
        (.str "checksum", sumOfOne)],
      .mapping [(.str "url", .str "h/two"), (.str "name", .str "boot.img"),
        (.str "checksum", sumOfTwo)]]
    let payload : Value := .mapping [(.str "group", .str "g"), (.str "files", .list listed)]
    let t := Flow.action (fun _ => return) table
      (ctx.inDepot (Host.answering {}).tools oneOrTwo) (.named "core:download" payload) 0
      { rest := (), files := {} }
    t.ending = .returned () ∧ (∃ file ∈ listed, Kept ctx.cache "g" first file) ∧
      ¬ first.Verified t.world.files := by
  intro ctx first listed payload t
  refine ⟨?_, ⟨_, List.mem_cons_self, ⟨_, rfl⟩, ⟨"boot.img.part", by cbv, by cbv⟩, by cbv, by cbv,
    .inr ⟨_, rfl, .inr ⟨⟨.md5, by cbv⟩, by cbv⟩⟩⟩, ?_⟩
  · exact Ending.eq_returned (by decide +kernel)
  · rintro ⟨content, hfile, -⟩
    have hgone : t.world.files.isFile first.path = false := by
      decide +kernel
    rw [FileStore.isFile, hfile] at hgone
    cases hgone

end Builtin

end Reflash
