import Mathlib
import Reflash.Proofs.Depot
import Reflash.Proofs.Store

set_option autoImplicit false

/-! # Downloads

Bringing one file touches its place and the place where it arrives, and nothing else but that
directories are made on the way; up to the move at its end it does not touch its place
(`Download.bring_leads`). A download brings the missing files one after the other
(`Download.Brings`) until it is through or fails at one of them. So what is known of the files
before it and of those after it follows by induction, if the files of the request are apart
(`Download.Wanted.Apart`). -/

namespace Reflash.Download

open Run FileStore

variable {σ : Type}

/-! ## Requests -/

/-- A file of a request: its place, its address and its checksum. -/
structure Wanted where
  path : Path
  url : Value
  checksum : Value

namespace Wanted

/-- The entry of a request asks for the file, with a checksum that can be judged. -/
structure Asked (x : Wanted) (file : Value) : Prop where
  path : place file = .ok x.path
  url : file.item "url" = .ok x.url
  checksum : file.optionalItem "checksum" = .ok x.checksum
  supported : Checksum.Supported x.checksum

/-- Whether the file is there and has its checksum. -/
def passes (x : Wanted) (fs : FileStore) : Bool :=
  match Checksum.verify fs x.path x.checksum with
  | .ok verified => verified
  | .error _ => false

theorem passes_iff {x : Wanted} {fs : FileStore} :
    x.passes fs = true ↔ Checksum.verify fs x.path x.checksum = .ok true := by
  unfold passes
  split <;> rename_i h <;> simp [h]

/-- Where the file stands while it arrives. -/
def arriving (x : Wanted) : Path :=
  x.path.withName (x.path.name ++ ".part")

/-- The locations that bringing the file touches. -/
def touched (x : Wanted) (fs : FileStore) : Set Location :=
  {fs.locate x.arriving, fs.locate x.path}

/-- Neither of two files has the place of the other, nor does one arrive there. -/
structure Apart (fs : FileStore) (x y : Wanted) : Prop where
  places : fs.locate x.path ≠ fs.locate y.path
  arrival : fs.locate x.arriving ≠ fs.locate y.path
  arrival' : fs.locate y.arriving ≠ fs.locate x.path

theorem Apart.symm {fs : FileStore} {x y : Wanted} (h : Apart fs x y) : Apart fs y x :=
  ⟨h.places.symm, h.arrival', h.arrival⟩

instance (fs : FileStore) : Std.Symm (Apart fs) := ⟨fun _ _ h => h.symm⟩

theorem Apart.notMem_touched {fs : FileStore} {x y : Wanted} (h : Apart fs x y) :
    fs.locate y.path ∉ x.touched fs := by
  rintro (hy | hy)
  · exact h.arrival hy.symm
  · exact h.places hy.symm

/-- A file never arrives at its place. -/
theorem locate_arriving_ne (x : Wanted) (fs : FileStore) :
    fs.locate x.arriving ≠ fs.locate x.path := by
  have hdots : x.path.name ++ ".part" ≠ ".." := by
    intro h
    have hlength := congrArg String.length h
    rw [String.length_append] at hlength
    have : ".part".length = 5 := rfl
    have : "..".length = 2 := rfl
    omega
  have harriving : fs.locate x.arriving =
      fs.locate x.path.parent ++ [x.path.name ++ ".part"] := by
    have horigin : fs.origin x.arriving = fs.origin x.path := rfl
    have hparts : x.arriving.parts = x.path.parent.parts ++ [x.path.name ++ ".part"] := rfl
    unfold locate
    rw [hparts, reach_append, horigin, reach_cons, reach_nil, advance, if_neg hdots]
    rfl
  rw [harriving]
  by_cases hparts : x.path.parts = []
  · have hplace : fs.locate x.path = fs.locate x.path.parent := by
      unfold locate
      rw [show x.path.parent.parts = x.path.parts from by
        unfold Path.parent
        rw [hparts]
        rfl]
      rfl
    intro h
    have hlength := congrArg List.length (h.trans hplace)
    simp at hlength
  · rw [locate_eq_advance hparts]
    unfold advance
    split
    · intro h
      have hlength := congrArg List.length h
      simp at hlength
      omega
    · intro h
      have hname := List.append_cancel_left h
      simp only [List.cons.injEq, and_true] at hname
      have hlength := congrArg String.length hname
      rw [String.length_append] at hlength
      have : ".part".length = 5 := rfl
      omega

end Wanted

/-! ## One file -/

/-- The files were changed at the locations `touched` only, but for directories at locations `made`,
and the addresses `requested` were asked for. Nothing was announced. -/
structure Moved (touched made : Set Location) (requested : List Value) (w w' : Depot σ) : Prop where
  files : Altered touched made w.files w'.files
  requested : w'.requested = w.requested ++ requested
  announced : w'.announced = w.announced

namespace Moved

variable {touched made : Set Location} {requested : List Value} {w w' : Depot σ}

theorem mono {touched' : Set Location} (h : Moved touched made requested w w')
    (ht : touched ⊆ touched') : Moved touched' made requested w w' :=
  { h with files := h.files.mono ht le_rfl }

theorem change {files : FileStore} (h : Moved touched made requested w w')
    (hfiles : Altered touched made w'.files files) :
    Moved touched made requested w { w' with files } :=
  { h with files := h.files.trans hfiles }

theorem rest (h : Moved touched made requested w w') (rest : σ) :
    Moved touched made requested w { w' with rest } :=
  ⟨h.files, h.requested, h.announced⟩

end Moved

namespace Wanted

/-- What fetching a file of a depot has done when it ends. Only the move at its end touches the
place of the file. -/
def Fetched (x : Wanted) (w : Depot σ) : Ending Unit → Depot σ → Prop
  | .returned _, w' => Moved (x.touched w.files) (w.files.along x.path.parent) [x.url] w w' ∧
    ∃ content, w'.files.lookup x.path = .ok (.file content)
  | _, w' => ∃ requested, requested <+: [x.url] ∧
    Moved {w.files.locate x.arriving} (w.files.along x.path.parent) requested w w'

/-- What bringing a file of a depot has done when it ends. Its place was not touched unless the file
came whole, and then it passes or is reported. -/
def Brought (x : Wanted) (w : Depot σ) : Ending Unit → Depot σ → Prop
  | .returned _, w' =>
    Moved (x.touched w.files) (w.files.along x.path.parent) [x.url] w w' ∧
      x.passes w'.files = true
  | .raised e, w' => ∃ requested, requested <+: [x.url] ∧
    Moved (x.touched w.files) (w.files.along x.path.parent) requested w w' ∧
      ((∀ message, e ≠ .checksumMismatch message) →
        Moved {w.files.locate x.arriving} (w.files.along x.path.parent) requested w w')
  | .unfinished, _ => True

theorem Fetched.stopped {x : Wanted} {w w' : Depot σ} {requested : List Value}
    (hrequested : requested <+: [x.url])
    (h : Moved {w.files.locate x.arriving} (w.files.along x.path.parent) requested w w') :
    (∀ e, x.Fetched w (.raised e) w') ∧ x.Fetched w .unfinished w' :=
  ⟨fun _ => ⟨requested, hrequested, h⟩, requested, hrequested, h⟩

end Wanted

/-- What happens once there is a response that is no failure. -/
def arrive (means : Means σ) (reports : DownloadReports σ) (response : Response)
    (arriving p : Path) : Job σ Unit := do
  let total ← announced response.length
  means.disk.change fun fs => atPath arriving (fs.write arriving .empty)
  receive means reports arriving total .empty response.chunks
  if let some e := response.broken then Run.raise e
  means.disk.change fun fs =>
    (fs.replace arriving p).mapError fun problem => problem.fault [arriving.text, p.text]

theorem atPath_eq_ok {α : Type} {p : Path} {r : Except FileProblem α} {a : α}
    (h : atPath p r = .ok a) : r = .ok a := by
  cases r with
  | error problem => cases h
  | ok a' =>
    cases h
    rfl

section

variable {net : Net σ} {reports : DownloadReports (Depot σ)}
  (hprogress : ∀ fraction speed, (reports.progress fraction speed).Quiet)
include hprogress

/-- Pieces are added to the file that arrives, and nowhere else. -/
theorem receive_leads {w : Depot σ} {p : Path} {made : Set Location} {requested : List Value}
    (total : Int) (done : ByteArray) (chunks : List ByteArray) :
    Leads (Moved {w.files.locate p} made requested w)
      (receive (Depot.means net) reports p total done chunks)
      fun _ => Moved {w.files.locate p} made requested w := by
  induction chunks generalizing done with
  | nil => exact .pure fun _ h => h
  | cons chunk chunks ih =>
    refine .keep_bind (Depot.change_leads (fun w' files h hwrite => ?_) fun _ _ h _ => h)
      (fun _ => .read_bind fun rate => .keep_bind ((hprogress _ rate).leads fun w' rest h => h.rest rest)
        (fun _ => ih _) (fun _ _ h => h) fun _ h => h) (fun _ _ h => h) fun _ h => h
    have hfiles := (write_altered (atPath_eq_ok hwrite)).1
    rw [h.files.locate] at hfiles
    exact h.change (hfiles.mono le_rfl (Set.empty_subset _))

/-- What came arrives beside its place and is moved there at the end. -/
theorem arrive_leads (x : Wanted) (response : Response) (w : Depot σ) :
    Leads (Moved {w.files.locate x.arriving} (w.files.along x.path.parent) [x.url] w)
      (arrive (Depot.means net) reports response x.arriving x.path) (x.Fetched w) := by
  let After := Moved {w.files.locate x.arriving} (w.files.along x.path.parent) [x.url] w
  have hstop {w' : Depot σ} (h : After w') := Wanted.Fetched.stopped List.prefix_rfl h
  have hraised (e : Fault) (w' : Depot σ) (h : After w') : x.Fetched w (.raised e) w' :=
    (hstop h).1 e
  refine .ofFallible_bind (fun total _ => ?_) fun e w' _ => hraised e w'
  refine .keep_bind (Depot.change_leads (fun w' files h hwrite => ?_) fun _ _ h _ => h)
    (fun _ => ?_) hraised fun _ h => (hstop h).2
  · have hfiles := (write_altered (atPath_eq_ok hwrite)).1
    rw [h.files.locate] at hfiles
    exact h.change (hfiles.mono le_rfl (Set.empty_subset _))
  refine .keep_bind (receive_leads hprogress total .empty response.chunks) (fun _ => ?_) hraised
    fun _ h => (hstop h).2
  cases response.broken with
  | some e => exact .raise fun w' => hraised e w'
  | none =>
    refine Depot.change_leads (fun w' files h hmoved => ?_) fun w' e h _ => hraised e w' h
    cases hreplace : w'.files.replace x.arriving x.path with
    | error problem =>
      rw [hreplace] at hmoved
      cases hmoved
    | ok files' =>
      rw [hreplace] at hmoved
      cases hmoved
      obtain ⟨hfiles, hthere⟩ := replace_altered hreplace
      rw [h.files.locate, h.files.locate] at hfiles
      refine ⟨(h.mono ?_).change (hfiles.mono le_rfl (Set.empty_subset _)), hthere⟩
      exact Set.singleton_subset_iff.mpr (Set.mem_insert _ _)

theorem fetch_leads (x : Wanted) (w : Depot σ) :
    Leads (· = w) (fetch (Depot.means net) reports x.url x.path) (x.Fetched w) := by
  -- The two stages of the way to the move: the address is not asked for yet, or it was.
  let Before := Moved {w.files.locate x.arriving} (w.files.along x.path.parent) [] w
  let After := Moved {w.files.locate x.arriving} (w.files.along x.path.parent) [x.url] w
  have hbefore {w' : Depot σ} (h : Before w') := Wanted.Fetched.stopped List.nil_prefix h
  have hafter {w' : Depot σ} (h : After w') := Wanted.Fetched.stopped List.prefix_rfl h
  have hstart : Before w := ⟨.refl _ _ _, (List.append_nil _).symm, rfl⟩
  refine .bind (R := fun _ => Before) (Depot.change_leads ?_ ?_) (fun _ => ?_)
    (fun e _ h => (hbefore h).1 e) fun _ h => (hbefore h).2
  · rintro _ files rfl hmade
    exact hstart.change ((ensureDirectory_makes hmade).altered.mono (Set.empty_subset _) le_rfl)
  · rintro _ e rfl -
    exact hstart
  refine .ofFallible_bind (fun arriving harriving => ?_) fun e _ _ h => (hbefore h).1 e
  obtain rfl : arriving = x.arriving := by
    unfold partialPath at harriving
    split at harriving
    · cases harriving
    · exact (Except.ok.inj harriving).symm
  refine .logText_bind ?_
  refine .bind (R := fun _ => After) (fun n w' h => ?_) (fun response => ?_)
    (fun e _ h => (hafter h).1 e) fun _ h => (hafter h).2
  · have hasked : After { w' with requested := w'.requested ++ [x.url] } :=
      ⟨h.files, by rw [h.requested, List.append_nil], h.announced⟩
    exact (Quiet.aside (net.get x.url)).leads (P := After) (fun w' rest h => h.rest rest) n _ hasked
  · cases response.failure with
    | some e => exact .raise fun _ h => (hafter h).1 e
    | none => exact arrive_leads hprogress x response w

variable (net) in
/-- Bringing one file. -/
theorem bring_leads {x : Wanted} {file : Value} (hfile : x.Asked file) (w : Depot σ) :
    Leads (· = w) (bring (Depot.means net) reports file) (x.Brought w) := by
  unfold bring
  rw [hfile.path, hfile.url, hfile.checksum]
  simp only [ofFallible_ok_bind]
  have hsubset : {w.files.locate x.arriving} ⊆ x.touched w.files :=
    Set.singleton_subset_iff.mpr (Set.mem_insert _ _)
  refine (fetch_leads hprogress x w).bind (fun _ n w' h => ?_) ?_ ?_
  · obtain ⟨h, content, hthere⟩ := h
    obtain ⟨verified, hfits⟩ := hfile.supported.fits_ok content
    have hverify := (Checksum.verify_of_lookup hthere).trans hfits
    have hcheck : checkFile (Depot.means net) x.path x.checksum n w' =
        ⟨.returned verified, [], w'⟩ := by
      rw [Depot.checkFile_apply, hverify]
      rfl
    rw [bind_of_returned hcheck]
    cases verified with
    | true => exact ⟨h, Wanted.passes_iff.mpr hverify⟩
    | false => exact ⟨[x.url], List.prefix_rfl, h, fun hmatch => absurd rfl (hmatch _)⟩
  · rintro e w' ⟨requested, hrequested, h⟩
    exact ⟨requested, hrequested, h.mono hsubset, fun _ => h⟩
  · exact fun _ _ => trivial

end

/-! ## Files one after the other -/

/-- Files were brought, each to its end, of which `done` of `total` were there before. -/
inductive Brings (means : Means σ) (reports : DownloadReports σ) (total : Nat) :
    Nat → List Value → σ → σ → Prop
  | nil {done : Nat} {w : σ} : Brings means reports total done [] w w
  | cons {done n : Nat} {file : Value} {files : List Value} {events events' : List Signal}
    {w w₁ w₂ w' : σ} (brought : bring means reports file n w = ⟨.returned (), events, w₁⟩)
    (told : reports.next (.int (done + 1)) (.int total) n w₁ = ⟨.returned (), events', w₂⟩)
    (others : Brings means reports total (done + 1) files w₂ w') :
    Brings means reports total done (file :: files) w w'

section

variable {means : Means σ} {reports : DownloadReports σ} {total : Nat}

theorem bringFrom_cons (done : Nat) (file : Value) (files : List Value) :
    bringFrom means reports total done (file :: files) =
      bring means reports file >>= fun _ =>
        reports.next (.int (done + 1)) (.int total) >>= fun _ =>
          bringFrom means reports total (done + 1) files := rfl

/-- A download that returned has brought all files. -/
theorem brings_of_returned {done n : Nat} {files : List Value} {w w' : σ} {events : List Signal}
    (h : bringFrom means reports total done files n w = ⟨.returned (), events, w'⟩) :
    Brings means reports total done files w w' := by
  induction files generalizing done w events with
  | nil =>
    cases h
    exact .nil
  | cons file files ih =>
    rw [bringFrom_cons] at h
    obtain ⟨⟨⟩, _, w₁, _, hbring, h, -⟩ := bind_eq_returned h
    obtain ⟨⟨⟩, _, w₂, _, htell, h, -⟩ := bind_eq_returned h
    exact .cons hbring htell (ih h)

/-- A download that failed has brought some files, and failed at the next one, if nobody who is told
about it fails. -/
theorem brings_of_raised (hnext : ∀ current total, (reports.next current total).Returns)
    {done n : Nat} {files : List Value} {w w' : σ} {e : Fault} {events : List Signal}
    (h : bringFrom means reports total done files n w = ⟨.raised e, events, w'⟩) :
    ∃ before file after w₁ events', files = before ++ file :: after ∧
      Brings means reports total done before w w₁ ∧
      bring means reports file n w₁ = ⟨.raised e, events', w'⟩ := by
  induction files generalizing done w events with
  | nil => cases h
  | cons file files ih =>
    rw [bringFrom_cons] at h
    rcases bind_eq_raised h with hbring | ⟨⟨⟩, _, w₁, _, hbring, h, -⟩
    · exact ⟨[], file, files, w, _, rfl, .nil, hbring⟩
    · have htell := hnext (.int (done + 1)) (.int total) n w₁
      rcases bind_eq_raised h with hfailed | ⟨⟨⟩, _, w₂, _, htold, h, -⟩
      · obtain ⟨_, _, _, htell⟩ := htell
        rw [hfailed] at htell
        cases htell
      obtain ⟨before, file', after, w₃, events', rfl, hbefore, hfailed⟩ := ih h
      exact ⟨file :: before, file', after, w₃, events', rfl, .cons hbring htold hbefore, hfailed⟩

end

/-- Looking for the missing files changes nothing. It finds those that do not pass, or fails at a
name that is too long. -/
theorem missing_apply (net : Net σ) {xs : List Wanted} {files : List Value}
    (hfiles : List.Forall₂ Wanted.Asked xs files) (n : Nat) (w : Depot σ) :
    (∃ found, missing (Depot.means net) files n w = ⟨.returned found, [], w⟩ ∧
      List.Forall₂ Wanted.Asked (xs.filter fun x => !x.passes w.files) found) ∨
    ∃ x ∈ xs, missing (Depot.means net) files n w =
      ⟨.raised (.file .nameTooLong [x.path.text]), [], w⟩ := by
  induction hfiles with
  | nil => exact .inl ⟨[], rfl, .nil⟩
  | @cons x file xs files hfile _ ih =>
    have hcons : missing (Depot.means net) (file :: files) =
        checkFile (Depot.means net) x.path x.checksum >>= fun verified =>
          missing (Depot.means net) files >>= fun rest =>
            return if verified then rest else file :: rest := by
      rw [missing, hfile.path, hfile.checksum]
      rfl
    cases hverify : Checksum.verify w.files x.path x.checksum with
    | error e =>
      obtain ⟨rfl, -⟩ := hfile.supported.verify_error hverify
      refine .inr ⟨x, List.mem_cons_self, ?_⟩
      rw [hcons, bind_apply, Depot.checkFile_apply, hverify]
      rfl
    | ok verified =>
      have hcheck : checkFile (Depot.means net) x.path x.checksum n w =
          ⟨.returned verified, [], w⟩ := by
        rw [Depot.checkFile_apply, hverify]
        rfl
      have hpasses : x.passes w.files = verified := by
        unfold Wanted.passes
        rw [hverify]
      rw [hcons, bind_of_returned hcheck]
      rcases ih with ⟨found, hfound, hasked⟩ | ⟨y, hy, hfailed⟩
      · refine .inl ⟨if verified then found else file :: found, ?_, ?_⟩
        · rw [bind_of_returned hfound]
          rfl
        · cases verified with
          | true => simpa [hpasses] using hasked
          | false => simpa [hpasses] using ⟨hfile, hasked⟩
      · refine .inr ⟨y, List.mem_cons_of_mem _ hy, ?_⟩
        rw [bind_apply, hfailed]
        rfl

/-- Those who are told about a download leave the files of the depot alone, and what was asked
for. -/
structure Bystanders (reports : DownloadReports (Depot σ)) : Prop where
  progress : ∀ fraction speed, (reports.progress fraction speed).Quiet
  next : ∀ current total n w, ∃ rest announced,
    (reports.next current total n w).world = { w with rest, announced }

/-- The locations that bringing files touches. -/
def touchedBy (xs : List Wanted) (fs : FileStore) : Set Location :=
  {loc | ∃ x ∈ xs, loc ∈ x.touched fs}

/-- The locations of the directories above files. -/
def above (xs : List Wanted) (fs : FileStore) : Set Location :=
  {loc | ∃ x ∈ xs, loc ∈ fs.along x.path.parent}

/-- The file stays verified while another one is brought: that one does not arrive at its place, and
if it has the same place, it has the same checksum. -/
structure Wanted.Spares (fs : FileStore) (x y : Wanted) : Prop where
  arrival : fs.locate x.arriving ≠ fs.locate y.path
  place : fs.locate x.path = fs.locate y.path → x.checksum = y.checksum

theorem Wanted.Apart.spares {fs : FileStore} {x y : Wanted} (h : Apart fs x y) : x.Spares fs y :=
  ⟨h.arrival, fun hplace => absurd hplace h.places⟩

section

variable {touched made : Set Location} {fs fs' : FileStore} (h : Altered touched made fs fs')
include h

theorem Wanted.touched_altered (x : Wanted) : x.touched fs' = x.touched fs := by
  unfold Wanted.touched
  rw [h.locate, h.locate]

theorem Wanted.Spares.altered {x y : Wanted} (hspares : x.Spares fs y) : x.Spares fs' y := by
  obtain ⟨harrival, hplace⟩ := hspares
  rw [← h.locate, ← h.locate y.path] at harrival hplace
  exact ⟨harrival, hplace⟩

end

/-- A file that passes stays so when another one was brought that spares it. -/
theorem Wanted.Brought.keeps {x y : Wanted} {w w' : Depot σ} (h : x.Brought w (.returned ()) w')
    (hspares : x.Spares w.files y) (hy : y.passes w.files = true) :
    y.passes w'.files = true := by
  obtain ⟨hmoved, hx⟩ := h
  rw [passes_iff] at hx hy ⊢
  by_cases hplace : w.files.locate x.path = w.files.locate y.path
  · obtain ⟨content, hfile, -⟩ := Checksum.verify_eq_true.mp hy
    rw [hspares.place hplace] at hx
    refine Checksum.verify_of_locate_eq hx ?_ ?_
    · rw [hmoved.files.locate]
      exact hmoved.files.resolve (lookup_eq_ok.mp hfile).1
    · rw [hmoved.files.locate, hmoved.files.locate, hplace]
  · refine Checksum.verify_altered hmoved.files hy ?_
    rintro (htouched | htouched)
    · exact hspares.arrival htouched.symm
    · exact hplace htouched.symm

namespace Brings

variable {net : Net σ} {reports : DownloadReports (Depot σ)}
  (hreports : Bystanders reports) {total done : Nat} {xs : List Wanted} {files : List Value}
  {w w' : Depot σ} (h : Brings (Depot.means net) reports total done files w w')
  (hfiles : List.Forall₂ Wanted.Asked xs files)
include hreports h hfiles

/-- A property that bringing one file after the other keeps, whatever is told between. -/
theorem keeps {P : List Wanted → Depot σ → Prop}
    (told : ∀ {xs w rest announced}, P xs w → P xs { w with rest, announced })
    (brought : ∀ {x xs w w'}, P (x :: xs) w → x.Brought w (.returned ()) w' → P xs w')
    (hw : P xs w) : P [] w' := by
  induction h generalizing xs with
  | nil =>
    cases hfiles
    exact hw
  | @cons done n file files events events' w w₁ w₂ w' hbring htold _ ih =>
    cases hfiles with
    | @cons x _ xs _ hfile hfiles =>
      have hbrought := bring_leads net hreports.progress hfile w n w rfl
      rw [hbring] at hbrought
      obtain ⟨rest, announced, hrest⟩ := hreports.next (.int (done + 1)) (.int total) n w₁
      rw [htold] at hrest
      obtain rfl : w₂ = { w₁ with rest, announced } := hrest
      exact ih hfiles (told (brought hw hbrought))

/-- Bringing files touches the places of these files, and those where they arrive. -/
theorem altered :
    Altered (touchedBy xs w.files) (above xs w.files) w.files w'.files ∧
      w'.requested = w.requested ++ xs.map Wanted.url := by
  let P (ys : List Wanted) (v : Depot σ) : Prop :=
    Altered (touchedBy xs w.files) (above xs w.files) w.files v.files ∧ ys ⊆ xs ∧
      v.requested ++ ys.map Wanted.url = w.requested ++ xs.map Wanted.url
  have hend : P [] w' := by
    refine h.keeps hreports hfiles (P := P) (fun hv => hv) ?_
      ⟨.refl _ _ _, List.Subset.refl _, rfl⟩
    rintro x ys v v' ⟨hv, hsubset, hrequested⟩ ⟨hmoved, -⟩
    have hx : x ∈ xs := hsubset List.mem_cons_self
    have hmoved' := hmoved.files
    rw [Wanted.touched_altered hv, hv.along] at hmoved'
    refine ⟨hv.trans (hmoved'.mono (fun loc hloc => ⟨x, hx, hloc⟩) fun loc hloc => ⟨x, hx, hloc⟩),
      (List.cons_subset.mp hsubset).2, ?_⟩
    rw [← hrequested, hmoved.requested, List.append_assoc]
    rfl
  obtain ⟨hv, -, hrequested⟩ := hend
  exact ⟨hv, by rw [← hrequested, List.map_nil, List.append_nil]⟩

/-- A file that passes stays so while others are brought that spare it. -/
theorem spares {y : Wanted} (hspares : ∀ x ∈ xs, x.Spares w.files y)
    (hy : y.passes w.files = true) : y.passes w'.files = true := by
  let P (ys : List Wanted) (v : Depot σ) : Prop :=
    (∀ x ∈ ys, x.Spares v.files y) ∧ y.passes v.files = true
  refine (h.keeps hreports hfiles (P := P) (fun hv => hv) ?_ ⟨hspares, hy⟩).2
  rintro x ys v v' ⟨hspares, hy⟩ hbrought
  refine ⟨fun x' hx' => ?_, hbrought.keeps (hspares x List.mem_cons_self) hy⟩
  exact (hspares x' (List.mem_cons_of_mem _ hx')).altered hbrought.1.files

/-- All files that were brought pass, if later ones spare earlier ones. -/
theorem passes (hspares : xs.Pairwise fun x y => y.Spares w.files x) :
    ∀ x ∈ xs, x.passes w'.files = true := by
  let P (ys : List Wanted) (v : Depot σ) : Prop :=
    xs.Pairwise (fun x y => y.Spares v.files x) ∧
      ∃ before, xs = before ++ ys ∧ ∀ x ∈ before, x.passes v.files = true
  have hend : P [] w' := by
    refine h.keeps hreports hfiles (P := P) (fun hv => hv) ?_ ⟨hspares, [], rfl, by simp⟩
    rintro x ys v v' ⟨hpairs, before, hxs, hbefore⟩ hbrought
    have hlater := List.pairwise_append.mp (hxs ▸ hpairs)
    refine ⟨hpairs.imp fun hspares => hspares.altered hbrought.1.files, before ++ [x],
      by simp [hxs], List.forall_mem_append.mpr ⟨fun y hy => ?_, ?_⟩⟩
    · exact hbrought.keeps (hlater.2.2 y hy x List.mem_cons_self) (hbefore y hy)
    · rintro y hy
      obtain rfl := List.mem_singleton.mp hy
      exact hbrought.2
  obtain ⟨-, before, hxs, hbefore⟩ := hend
  rw [List.append_nil] at hxs
  exact hxs ▸ hbefore

end Brings

/-! ## Downloads -/

/-- The announcements of the first files of a download of `total`. -/
def announcements (total count : Nat) : List (Value × Value) :=
  (List.range' 1 count).map fun (i : Nat) => (.int i, .int total)

theorem bystanders_reports (reports : DownloadReports σ) : Bystanders (Depot.reports reports) where
  progress _ _ := Quiet.aside _
  next current total _ w := ⟨_, w.announced ++ [(current, total)], rfl⟩

theorem Brings.announced {net : Net σ} {reports : DownloadReports σ}
    {total done : Nat} {xs : List Wanted} {files : List Value} {w w' : Depot σ}
    (h : Brings (Depot.means net) (Depot.reports reports) total done files w w')
    (hfiles : List.Forall₂ Wanted.Asked xs files) :
    w'.announced = w.announced ++
      (List.range' (done + 1) xs.length).map fun (i : Nat) => (.int i, .int total) := by
  induction h generalizing xs with
  | nil =>
    cases hfiles
    exact (List.append_nil _).symm
  | @cons done n file files events events' w w₁ w₂ w' hbring htold _ ih =>
    cases hfiles with
    | @cons x _ xs _ hfile hfiles =>
      have hbrought := bring_leads net (bystanders_reports reports).progress hfile w n w rfl
      rw [hbring] at hbrought
      have htold' : w₂.announced = w₁.announced ++ [(.int (done + 1), .int total)] :=
        congrArg (fun t => t.world.announced) htold.symm
      rw [ih hfiles, htold', hbrought.1.announced, List.append_assoc]
      simp [List.range'_succ]

/-- What is at a location is as it was: the content of the file there, or that there is none. And
unless directories may have been made there, nothing else is there either. -/
structure Unchanged (made : Set Location) (fs fs' : FileStore) (loc : Location) : Prop where
  content : fs'.content? loc = fs.content? loc
  node : loc ∉ made → fs'.node? loc = fs.node? loc

/-- The files that were missing in the first place. -/
def Wanted.missing (xs : List Wanted) (fs : FileStore) : List Wanted :=
  xs.filter fun x => !x.passes fs

/-- After a download of the files `xs`, begun with the files `fs`: all are there and verified, those
that were before are unchanged, and the others were asked for and announced, each once and in
order. -/
structure Delivered (xs : List Wanted) (fs : FileStore) (w : Depot σ) : Prop where
  verified : ∀ x ∈ xs, x.passes w.files = true
  unchanged : ∀ x ∈ xs, x.passes fs = true →
    Unchanged (above xs fs) fs w.files (fs.locate x.path)
  requested : w.requested = (Wanted.missing xs fs).map Wanted.url
  announced : w.announced =
    announcements (Wanted.missing xs fs).length (Wanted.missing xs fs).length

/-- After a download that failed with the cause `e` at the missing file `x`, after those `before` and
before those `after` it. -/
structure FailedAt (xs : List Wanted) (fs : FileStore) (e : Fault) (before : List Wanted)
    (x : Wanted) (after : List Wanted) (w : Depot σ) : Prop where
  missing : Wanted.missing xs fs = before ++ x :: after
  verified : ∀ y ∈ before, y.passes w.files = true
  later : ∀ y ∈ after, Unchanged (above xs fs) fs w.files (fs.locate y.path)
  valid : ∀ y ∈ xs, y.passes fs = true → Unchanged (above xs fs) fs w.files (fs.locate y.path)
  present : (∀ message, e ≠ .checksumMismatch message) →
    Unchanged (above xs fs) fs w.files (fs.locate x.path)
  requested : w.requested = before.map Wanted.url ∨
    w.requested = (before ++ [x]).map Wanted.url
  announced : w.announced = announcements (Wanted.missing xs fs).length before.length

theorem Unchanged.of_altered {touched made made' : Set Location} {fs fs' : FileStore}
    {loc : Location} (h : Altered touched made fs fs') (hloc : loc ∉ touched) (hmade : made ⊆ made') :
    Unchanged made' fs fs' loc :=
  ⟨h.content? hloc, fun hloc' => h.node? hloc fun hmem => hloc' (hmade hmem)⟩

theorem above_mono {xs ys : List Wanted} (h : xs ⊆ ys) (fs : FileStore) :
    above xs fs ⊆ above ys fs :=
  fun _ ⟨x, hx, hloc⟩ => ⟨x, h hx, hloc⟩

theorem touchedBy_mono {xs ys : List Wanted} (h : xs ⊆ ys) (fs : FileStore) :
    touchedBy xs fs ⊆ touchedBy ys fs :=
  fun _ ⟨x, hx, hloc⟩ => ⟨x, h hx, hloc⟩

theorem Wanted.notMem_touchedBy {xs : List Wanted} {y : Wanted} {fs : FileStore}
    (h : ∀ x ∈ xs, Apart fs x y) : fs.locate y.path ∉ touchedBy xs fs :=
  fun ⟨x, hx, hloc⟩ => (h x hx).notMem_touched hloc

theorem Wanted.missing_subset (xs : List Wanted) (fs : FileStore) : missing xs fs ⊆ xs :=
  List.filter_subset_self _

section

variable {xs : List Wanted} {fs : FileStore} (hapart : xs.Pairwise (Wanted.Apart fs))
include hapart

theorem missing_pairwise : (Wanted.missing xs fs).Pairwise (Wanted.Apart fs) :=
  hapart.filter _

/-- A file that is there from the start is apart from every missing one. -/
theorem apart_of_passes {x y : Wanted} (hx : x ∈ Wanted.missing xs fs) (hy : y ∈ xs)
    (hpasses : y.passes fs = true) : Wanted.Apart fs x y := by
  obtain ⟨hx, hmissing⟩ := List.mem_filter.mp hx
  refine hapart.forall hx hy ?_
  rintro rfl
  simp [hpasses] at hmissing

variable {net : Net σ} {reports : DownloadReports σ} {files : List Value}
  {w w' : Depot σ} (hw : w.files = fs ∧ w.requested = [] ∧ w.announced = [])
include hw

theorem delivered_of_brings
    (h : Brings (Depot.means net) (Depot.reports reports) (Wanted.missing xs fs).length 0 files w w')
    (hfiles : List.Forall₂ Wanted.Asked (Wanted.missing xs fs) files) : Delivered xs fs w' := by
  obtain ⟨rfl, hrequested, hannounced⟩ := hw
  have hbystanders := bystanders_reports reports
  obtain ⟨haltered, hrequested'⟩ := h.altered hbystanders hfiles
  have hbrought := h.passes hbystanders hfiles
    ((missing_pairwise hapart).imp fun h => h.symm.spares)
  have hapart' (y : Wanted) (hy : y ∈ xs) (hpasses : y.passes w.files = true) (x : Wanted)
      (hx : x ∈ Wanted.missing xs w.files) := apart_of_passes hapart hx hy hpasses
  refine ⟨fun x hx => ?_, fun x hx hpasses => ?_, ?_, ?_⟩
  · by_cases hpasses : x.passes w.files = true
    · exact h.spares hbystanders hfiles (fun y hy => (hapart' x hx hpasses y hy).spares) hpasses
    · exact hbrought x (List.mem_filter.mpr ⟨hx, by simpa using hpasses⟩)
  · exact .of_altered haltered (Wanted.notMem_touchedBy (hapart' x hx hpasses))
      (above_mono (Wanted.missing_subset xs _) _)
  · rw [hrequested', hrequested, List.nil_append]
  · rw [h.announced hfiles, hannounced, List.nil_append]
    rfl

end

/-- After the files `xs` were brought, bringing `x` failed with the cause `e`. -/
structure StoppedAt (w : Depot σ) (total : Nat) (xs : List Wanted) (e : Fault) (x : Wanted)
    (w' : Depot σ) : Prop where
  files : Altered (touchedBy (xs ++ [x]) w.files) (above (xs ++ [x]) w.files) w.files w'.files
  arriving : (∀ message, e ≠ .checksumMismatch message) →
    Altered (touchedBy xs w.files ∪ {w.files.locate x.arriving}) (above (xs ++ [x]) w.files)
      w.files w'.files
  passes : (xs ++ [x]).Pairwise (Wanted.Apart w.files) → ∀ y ∈ xs, y.passes w'.files = true
  requested : ∃ requested, requested <+: [x.url] ∧
    w'.requested = w.requested ++ xs.map Wanted.url ++ requested
  announced : w'.announced = w.announced ++ announcements total xs.length

theorem stoppedAt_of_brings {net : Net σ} {reports : DownloadReports σ}
    {total n : Nat} {xs : List Wanted} {x : Wanted} {files : List Value} {file : Value} {e : Fault}
    {events : List Signal} {w w₁ w' : Depot σ}
    (h : Brings (Depot.means net) (Depot.reports reports) total 0 files w w₁)
    (hfailed : bring (Depot.means net) (Depot.reports reports) file n w₁ =
      ⟨.raised e, events, w'⟩)
    (hfiles : List.Forall₂ Wanted.Asked xs files) (hfile : x.Asked file) :
    StoppedAt w total xs e x w' := by
  have hbystanders := bystanders_reports reports
  obtain ⟨haltered, hrequested⟩ := h.altered hbystanders hfiles
  have hfail := bring_leads net hbystanders.progress hfile w₁ n w₁ rfl
  rw [hfailed] at hfail
  obtain ⟨requested, hprefix, hmoved, harriving⟩ := hfail
  rw [Wanted.touched_altered haltered, haltered.along] at hmoved
  rw [haltered.along, haltered.locate] at harriving
  have hbefore := haltered.mono le_rfl (above_mono (List.subset_append_left xs [x]) w.files)
  have hway : w.files.along x.path.parent ⊆ above (xs ++ [x]) w.files :=
    fun loc hloc => ⟨x, by simp, hloc⟩
  refine ⟨?_, fun hmatch => ?_, fun hapart y hy => ?_, ⟨requested, hprefix, ?_⟩, ?_⟩
  · have hlast : x.touched w.files ⊆ touchedBy (xs ++ [x]) w.files :=
      fun loc hloc => ⟨x, by simp, hloc⟩
    exact (hbefore.mono (touchedBy_mono (List.subset_append_left _ _) _) le_rfl).trans
      (hmoved.files.mono hlast hway)
  · exact (hbefore.mono Set.subset_union_left le_rfl).trans
      ((harriving hmatch).files.mono Set.subset_union_right hway)
  · obtain ⟨hxs, -, hx⟩ := List.pairwise_append.mp hapart
    have hpasses := h.passes hbystanders hfiles (hxs.imp fun h => h.symm.spares) y hy
    rw [Wanted.passes_iff] at hpasses ⊢
    refine Checksum.verify_altered hmoved.files hpasses ?_
    rw [haltered.locate]
    exact (hx y hy x (List.mem_singleton_self x)).symm.notMem_touched
  · rw [hmoved.requested, hrequested]
  · rw [hmoved.announced, h.announced hfiles]
    rfl

theorem failedAt_of_stoppedAt {xs before after : List Wanted} {x : Wanted} {w w' : Depot σ}
    {e : Fault} (hapart : xs.Pairwise (Wanted.Apart w.files)) (hnew : w.requested = [])
    (hnew' : w.announced = []) (hmissing : Wanted.missing xs w.files = before ++ x :: after)
    (h : StoppedAt w (Wanted.missing xs w.files).length before e x w') :
    FailedAt xs w.files e before x after w' := by
  have hsplit : before ++ x :: after = (before ++ [x]) ++ after := by simp
  have hpairs := missing_pairwise hapart
  rw [hmissing, hsplit] at hpairs
  obtain ⟨hbefore, -, hafter⟩ := List.pairwise_append.mp hpairs
  have hsubset : before ++ [x] ⊆ Wanted.missing xs w.files := by
    rw [hmissing, hsplit]
    exact List.subset_append_left _ _
  have hmade : above (before ++ [x]) w.files ⊆ above xs w.files :=
    above_mono (List.Subset.trans hsubset (Wanted.missing_subset xs _)) _
  have hapart' (y : Wanted) (hy : ∀ z ∈ before ++ [x], Wanted.Apart w.files z y) :
      Unchanged (above xs w.files) w.files w'.files (w.files.locate y.path) :=
    .of_altered h.files (Wanted.notMem_touchedBy hy) hmade
  refine ⟨hmissing, h.passes hbefore, fun y hy => hapart' y fun z hz => hafter z hz y hy,
    fun y hy hpasses => hapart' y fun z hz => apart_of_passes hapart (hsubset hz) hy hpasses,
    fun hmatch => .of_altered (h.arriving hmatch) ?_ hmade, ?_, ?_⟩
  · have hx := (List.pairwise_append.mp hbefore).2.2
    rintro (hloc | hloc)
    · exact Wanted.notMem_touchedBy (fun z hz => hx z hz x (List.mem_singleton_self x)) hloc
    · exact x.locate_arriving_ne w.files hloc.symm
  · obtain ⟨requested, hprefix, hrequested⟩ := h.requested
    rw [hrequested, hnew, List.nil_append]
    rcases List.prefix_cons_iff.mp hprefix with rfl | ⟨rest, rfl, hrest⟩
    · exact .inl (List.append_nil _)
    · obtain rfl := List.prefix_nil.mp hrest
      exact .inr (by simp)
  · rw [h.announced, hnew', List.nil_append]

theorem forall₂_append_cons {α β : Type} {R : α → β → Prop} {l : List α} {before after : List β}
    {b : β} (h : List.Forall₂ R l (before ++ b :: after)) :
    ∃ ys x zs, l = ys ++ x :: zs ∧ List.Forall₂ R ys before ∧ R x b := by
  obtain ⟨x, zs, hx, -, hdrop⟩ :=
    List.forall₂_cons_right_iff.mp (List.forall₂_drop_append l before (b :: after) h)
  refine ⟨l.take before.length, x, zs, ?_, List.forall₂_take_append _ _ _ h, hx⟩
  rw [← hdrop, List.take_append_drop]

section

variable {net : Net σ} {reports : DownloadReports σ} {xs : List Wanted}
  {files : List Value}

variable (net) in
theorem bringFrom_outcomes (hnext : ∀ current total, (reports.next current total).Returns)
    {found : List Value} {n : Nat} {w : Depot σ} (hapart : xs.Pairwise (Wanted.Apart w.files))
    (hnew : w.requested = []) (hnew' : w.announced = [])
    (hfound : List.Forall₂ Wanted.Asked (Wanted.missing xs w.files) found) :
    let t := bringFrom (Depot.means net) (Depot.reports reports) found.length 0 found n w
    (t.ending = .returned () → Delivered xs w.files t.world) ∧
      ∀ e, t.ending = .raised e →
        ∃ before x after, FailedAt xs w.files e before x after t.world := by
  intro t
  have hlength : found.length = (Wanted.missing xs w.files).length := hfound.length_eq.symm
  have hnext' (current total : Value) : ((Depot.reports reports).next current total).Returns := by
    intro n w
    obtain ⟨⟨⟩, events, rest, htold⟩ := hnext current total n w.rest
    let told := { w with announced := w.announced ++ [(current, total)] }
    exact ⟨(), events, { told with rest }, Depot.aside_returned (w := told) htold⟩
  rcases ht : t with ⟨⟨⟩ | e | _, events, w'⟩
  · refine ⟨fun _ => ?_, nofun⟩
    have hbrings := brings_of_returned ht
    rw [hlength] at hbrings
    exact delivered_of_brings hapart ⟨rfl, hnew, hnew'⟩ hbrings hfound
  · refine ⟨nofun, ?_⟩
    rintro _ ⟨⟩
    obtain ⟨before, file, after, w₁, events', rfl, hbrings, hfailed⟩ :=
      brings_of_raised hnext' ht
    obtain ⟨ys, x, zs, hmissing, hys, hx⟩ := forall₂_append_cons hfound
    rw [hlength] at hbrings
    exact ⟨ys, x, zs, failedAt_of_stoppedAt hapart hnew hnew' hmissing
      (stoppedAt_of_brings hbrings hfailed hys hx)⟩
  · exact ⟨nofun, nofun⟩

variable (net) in
/-- A download either delivers, or fails cleanly: before anything was asked for, as a name is too
long, or at one of the missing files, with nothing lost. -/
theorem run_delivers_or_fails (hactivity : ∀ name, (reports.activity name).Returns)
    (hnext : ∀ current total, (reports.next current total).Returns)
    (hfiles : List.Forall₂ Wanted.Asked xs files) {fs : FileStore}
    (hapart : xs.Pairwise (Wanted.Apart fs)) (n : Nat) (rest : σ) :
    let t := run (Depot.means net) files (Depot.reports reports) n { rest, files := fs }
    (t.ending = .returned () → Delivered xs fs t.world) ∧
      ∀ e, t.ending = .raised e →
        (∃ x ∈ xs, e = .file .nameTooLong [x.path.text] ∧ t.world.files = fs ∧
          t.world.requested = [] ∧ t.world.announced = []) ∨
        ∃ before x after, FailedAt xs fs e before x after t.world := by
  intro t
  obtain ⟨⟨⟩, events, rest₁, hpreparing⟩ := hactivity "preparing" n rest
  obtain ⟨⟨⟩, events', rest₂, hdownloading⟩ := hactivity "downloading" n rest₁
  let w₁ : Depot σ := { rest := rest₁, files := fs }
  let w₂ : Depot σ := { rest := rest₂, files := fs }
  have hpreparing' : (Depot.reports reports).activity "preparing" n { rest, files := fs } =
    ⟨.returned (), events, w₁⟩ := Depot.aside_returned hpreparing
  have hdownloading' : (Depot.reports reports).activity "downloading" n w₁ =
    ⟨.returned (), events', w₂⟩ := Depot.aside_returned hdownloading
  let goOn (found : List Value) : Job (Depot σ) Unit :=
    if found.isEmpty then log ("All " ++ toString files.length ++ " files already cached")
    else
      (Depot.reports reports).activity "downloading" >>= fun _ =>
        bringFrom (Depot.means net) (Depot.reports reports) found.length 0 found
  have ht : t = ((missing (Depot.means net) files >>= goOn) n w₁).after events :=
    bind_of_returned hpreparing' _
  rcases missing_apply net hfiles n w₁ with ⟨found, hfound, hasked⟩ | ⟨x, hx, hfailed⟩
  · rw [bind_of_returned hfound] at ht
    cases found with
    | nil =>
      rw [ht]
      have hnone : Brings (Depot.means net) (Depot.reports reports)
          (Wanted.missing xs fs).length 0 [] w₁ w₁ := .nil
      exact ⟨fun _ => delivered_of_brings hapart ⟨rfl, rfl, rfl⟩ hnone hasked, nofun⟩
    | cons file found =>
      have hrest : goOn (file :: found) n w₁ = (bringFrom (Depot.means net)
          (Depot.reports reports) (file :: found).length 0 (file :: found) n w₂).after events' :=
        bind_of_returned hdownloading' _
      obtain ⟨hreturned, hraised⟩ := bringFrom_outcomes net hnext (n := n) (w := w₂)
        hapart rfl rfl hasked
      rw [ht, hrest]
      exact ⟨hreturned, fun e he => .inr (hraised e he)⟩
  · rw [bind_apply, hfailed] at ht
    rw [ht]
    refine ⟨nofun, ?_⟩
    rintro _ ⟨⟩
    exact .inl ⟨x, hx, rfl, rfl, rfl, rfl⟩

end

/-- One of two files is there already. The other one is delivered if it comes whole; if the stream
breaks, the download fails at it. -/
theorem half_cached_outcomes :
    let sum : Value := .mapping [(.str "algorithm", .str "md5"),
      (.str "sum", .str "B8A9F715DBB64FD5C56E7783C6820A61")]
    let first : Wanted := ⟨⟨"/", ["c", "one.img"]⟩, .str "h/one", .null⟩
    let second : Wanted := ⟨⟨"/", ["c", "two.img"]⟩, .str "h/two", sum⟩
    let files : List Value := [
      .mapping [(.str "url", .str "h/one"), (.str "path", .str "/c/one.img")],
      .mapping [(.str "url", .str "h/two"), (.str "path", .str "/c/two.img"),
        (.str "checksum", sum)]]
    let fs : FileStore :=
      { nodes := [(["c"], .directory), (["c", "one.img"], .file "one".toUTF8)] }
    let reports : DownloadReports Unit := ⟨fun _ _ => return, fun _ _ => return, fun _ => return⟩
    let net (broken : Option Fault) : Net Unit := {
      get := fun _ => return { chunks := ["t".toUTF8, "wo".toUTF8], broken }
      rate := fun size _ => .int size }
    let t (broken : Option Fault) :=
      run (Depot.means (net broken)) files (Depot.reports reports) 0 { rest := (), files := fs }
    Delivered [first, second] fs (t none).world ∧
      ∃ before x after, FailedAt [first, second] fs (.system "reset") before x after
        (t (some (.system "reset"))).world := by
  intro sum first second files fs reports net t
  have hactivity (name : String) : (reports.activity name).Returns := fun _ _ => ⟨_, _, _, rfl⟩
  have hnext (current total : Value) : (reports.next current total).Returns :=
    fun _ _ => ⟨_, _, _, rfl⟩
  have hasked : List.Forall₂ Wanted.Asked [first, second] files := by
    refine .cons ⟨by cbv, by cbv, by cbv, .inl rfl⟩ (.cons ⟨by cbv, by cbv, by cbv, .inr ?_⟩ .nil)
    exact ⟨_, rfl, .inr ⟨⟨.md5, by cbv⟩, by cbv⟩⟩
  have hapart : [first, second].Pairwise (Wanted.Apart fs) := by
    exact List.pairwise_pair.mpr ⟨by decide, by decide, by decide⟩
  have hreturned : (t none).ending = .returned () :=
    Ending.eq_returned (by decide +kernel)
  have hraised : (t (some (.system "reset"))).ending = .raised (.system "reset") :=
    Ending.eq_refused (by decide +kernel)
  have houtcomes (broken : Option Fault) := run_delivers_or_fails (net broken) hactivity
    hnext hasked hapart 0 ()
  refine ⟨(houtcomes none).1 hreturned, ?_⟩
  rcases (houtcomes (some (.system "reset"))).2 _ hraised with ⟨x, -, he, -⟩ | hfailed
  · cases he
  · exact hfailed

end Reflash.Download
