import Mathlib
import Reflash.Proofs.Depot
import Reflash.Proofs.Plain
import Reflash.Proofs.FileNames
import Reflash.Proofs.Store

set_option autoImplicit false

/-! # Files that the user supplies

What becomes of the files when one of them is copied to its place depends on nothing but the files
(`FileStore.supplied`): either no content changes, or the target has the content of the source and
no other one changes. A manual download is this copy, after a check which makes it needless and a
question which may decline it, and before a check of what was copied
(`Builtin.manual_download_outcomes`). All of this is about files and directories that may be read and
written: a `FileStore` has neither links nor permissions. -/

namespace Reflash

open Run

variable {σ : Type}

/-! ## The copy -/

namespace FileStore

/-- No file has another content, or is gone, or is new. -/
def SameContents (fs fs' : FileStore) : Prop :=
  ∀ loc, fs'.content? loc = fs.content? loc

theorem SameContents.refl (fs : FileStore) : SameContents fs fs := fun _ => rfl

theorem MadeTo.sameContents {p : Path} {fs fs' : FileStore} (h : MadeTo p fs fs') :
    SameContents fs fs' :=
  fun loc => h.altered.content? (Set.notMem_empty loc)

/-- The files after an attempt to copy a file to its place, and what came of it. The directory of the
place is made before anything is known of the source. -/
def supplied (fs : FileStore) (source : Value) (target : Path) : FileStore × Fallible Unit :=
  match fs.ensureDirectory target.parent with
  | .error e => (fs, .error e)
  | .ok fs₁ =>
    match source.shown >>= fun typed => fs₁.copy typed target with
    | .error e => (fs₁, .error e)
    | .ok fs₂ => (fs₂, .ok ())

/-- A text names a file with this content that can be copied to the target: with the directory of the
target made, which leads to `fs₁`, the file can be read, and the target is another place, which the
system takes and which is no directory. -/
structure Copyable (fs fs₁ : FileStore) (typed : String) (target : Path) (content : ByteArray) :
    Prop where
  made : fs.ensureDirectory target.parent = .ok fs₁
  there : fs₁.lookupTyped typed = .ok (.file content)
  apart : fs.locate (.ofText typed) ≠ fs.locate target
  takes : Takes target
  named : fits target.name
  free : fs₁.isDirectory target = false

/-- The causes that an attempt to copy a file can fail with: a refusal of the system, two names of one
file, or a source without a text. -/
inductive Refusal : Fault → Prop
  | system (problem : FileProblem) (paths : List String) : Refusal (problem.fault paths)
  | sameFile (message : String) : Refusal (.system message)
  | untold : Refusal .unwritable

theorem ensureDirectory_refusal {fs : FileStore} {p : Path} {e : Fault}
    (h : fs.ensureDirectory p = .error e) : Refusal e := by
  unfold ensureDirectory at h
  cases hmade : fs.makeDirectories p with
  | error problem =>
    rw [hmade] at h
    cases h
    exact .system _ _
  | ok fs' =>
    rw [hmade] at h
    cases h

theorem copy_refusal {fs : FileStore} {typed : String} {target : Path} {e : Fault}
    (h : fs.copy typed target = .error e) : Refusal e := by
  unfold copy at h
  split at h
  · cases h
    exact .system _ _
  split at h
  · cases h
    exact .system _ _
  split at h
  · cases h
    exact .sameFile _
  split at h
  · cases h
    exact .system .isDirectory _
  · rename_i content _
    unfold atPath at h
    cases hwrite : fs.write target content with
    | error problem =>
      rw [hwrite] at h
      cases h
      exact .system _ _
    | ok fs' =>
      rw [hwrite] at h
      cases h

section

variable {fs fs₁ : FileStore} {source : Value} {typed : String} {target : Path}
  {content : ByteArray}

/-- An attempt fails before anything is made, or once the directory is made, or it copies. -/
theorem supplied_cases (fs : FileStore) (source : Value) (target : Path) :
    (∃ e, fs.ensureDirectory target.parent = .error e ∧ fs.supplied source target = (fs, .error e)) ∨
    ∃ fs₁, fs.ensureDirectory target.parent = .ok fs₁ ∧
      ((∃ e, Refusal e ∧ fs.supplied source target = (fs₁, .error e)) ∨
        ∃ typed fs₂, source.shown = .ok typed ∧ fs₁.copy typed target = .ok fs₂ ∧
          fs.supplied source target = (fs₂, .ok ())) := by
  unfold supplied
  cases hmade : fs.ensureDirectory target.parent with
  | error e => exact .inl ⟨e, rfl, rfl⟩
  | ok fs₁ =>
    refine .inr ⟨fs₁, rfl, ?_⟩
    cases hshown : source.shown with
    | error e =>
      obtain ⟨-, rfl⟩ := Value.shown_eq_error.mp hshown
      exact .inl ⟨_, .untold, rfl⟩
    | ok typed =>
      simp only [bind, Except.bind]
      cases hcopy : fs₁.copy typed target with
      | error e => exact .inl ⟨e, copy_refusal hcopy, rfl⟩
      | ok fs₂ => exact .inr ⟨typed, fs₂, rfl, hcopy, rfl⟩

/-- An attempt that fails changes no content. -/
theorem supplied_error {e : Fault} (h : (fs.supplied source target).2 = .error e) :
    Refusal e ∧ SameContents fs (fs.supplied source target).1 := by
  rcases supplied_cases fs source target with
    ⟨e', hmade, heq⟩ | ⟨fs₁, hmade, ⟨e', hrefusal, heq⟩ | ⟨typed, fs₂, -, -, heq⟩⟩
  all_goals
    rw [heq] at h ⊢
    cases h
  · exact ⟨ensureDirectory_refusal hmade, .refl fs⟩
  · exact ⟨hrefusal, (ensureDirectory_makes hmade).sameContents⟩

/-- Where a file was copied, it could be. -/
theorem supplied_ok (h : (fs.supplied source target).2 = .ok ()) :
    ∃ typed fs₁ content, source.shown = .ok typed ∧ Copyable fs fs₁ typed target content ∧
      (fs.supplied source target).1.lookup target = .ok (.file content) ∧
      ∀ loc ≠ fs.locate target, (fs.supplied source target).1.content? loc = fs.content? loc := by
  rcases supplied_cases fs source target with
    ⟨e, -, heq⟩ | ⟨fs₁, hmade, ⟨e, -, heq⟩ | ⟨typed, fs₂, hshown, hcopy, heq⟩⟩
  all_goals
    rw [heq] at h ⊢
    cases h
  have hmakes := ensureDirectory_makes hmade
  obtain ⟨content, ⟨hread, hapart, hresolve, hfree⟩, haltered, hthere⟩ := copy_altered hcopy
  rw [hmakes.altered.locate, hmakes.altered.locate] at hapart
  refine ⟨typed, fs₁, content, hshown, ⟨hmade, hread, hapart, takes_of_resolve hresolve,
    fits_name hresolve, hfree⟩, hthere, fun loc hloc => ?_⟩
  rw [haltered.content? (by rwa [hmakes.altered.locate]), hmakes.sameContents]

/-- A file that can be copied is. -/
theorem supplied_of_copyable (hrooted : fs.Rooted) (hshown : source.shown = .ok typed)
    (h : Copyable fs fs₁ typed target content) : (fs.supplied source target).2 = .ok () := by
  obtain ⟨haltered, hdir⟩ := ensureDirectory_makes h.made
  have hnone : fs₁.lookup target ≠ .ok .directory := fun hdir =>
    Bool.eq_false_iff.mp h.free (isDirectory_iff.mpr hdir)
  have hparts : target.parts ≠ [] := fun hparts => by
    have hself : target.parent = target := by
      unfold Path.parent
      rw [hparts, List.dropLast_nil, ← hparts]
    exact hnone (hself ▸ hdir)
  have hresolve : fs₁.resolve target = .ok (fs₁.locate target) :=
    resolve_of_parent h.takes hdir hparts h.named
  have hfree : fs₁.node? (fs₁.locate target) ≠ some .directory := fun hnode =>
    hnone (lookup_eq_ok.mpr ⟨hresolve, hnode⟩)
  -- The directory above an existing one is there.
  have hdots : target.name ≠ ".." := fun hdots => by
    refine hfree ((haltered.rooted hrooted).above hdir ?_)
    rw [locate_eq_advance hparts, advance, if_pos hdots]
    exact List.dropLast_prefix _
  obtain ⟨fs₂, hwrite⟩ := write_eq_ok h.takes hdir hparts h.named hdots hfree content
  have hother : fs₁.samePlace (.ofText typed) target = false := by
    refine samePlace_eq_false ?_
    rw [haltered.locate, haltered.locate]
    exact h.apart
  have hnul : (holdsNul typed || holdsNul target.text) = false := by
    rw [(acceptText_iff.mp (lookupTyped_file h.there).2.2).1, h.takes.1]
    rfl
  have hcopy : fs₁.copy typed target = .ok fs₂ := by
    unfold copy
    rw [hnul, h.there, hother]
    exact congrArg (atPath target) hwrite
  unfold supplied
  simp only [h.made, hshown, bind, Except.bind, hcopy]

end

end FileStore

/-! ## The action -/

/-- How a computation ends as a run. -/
def Ending.ofFallible {α : Type} : Fallible α → Ending α
  | .ok a => .returned a
  | .error e => .raised e

namespace Builtin

variable (ctx : Context σ) (others : Tools (Depot σ)) (net : Net σ)

/-- The question for a file is put once, and what comes of it is on the ledger. -/
theorem ask_leads (file group : Value) {fs : FileStore}
    {asked : List (PromptRequest × Ending Decision)} :
    Leads (fun w => w.files = fs ∧ w.asked = asked)
      ((ctx.inDepot others net).host.ask .manualDownload
        (.ofFields [("file", file), ("group", group)]) (some "core:manual_download"))
      fun o w => ∃ request answer, request.prompt = .manualDownload ∧
        (w.files = fs ∧ w.asked = asked ++ [(request, answer)]) ∧
        ∀ decision, o = .returned decision ↔ answer = .returned decision := by
  let request : PromptRequest :=
    { prompt := .manualDownload, data := [(.str "file", file), (.str "group", group)]
      action := "core:manual_download" }
  let Answered (o : Ending Decision) (w : Depot σ) : Prop := ∃ answer,
    (w.files = fs ∧ w.asked = asked ++ [(request, answer)]) ∧
      ∀ decision, o = .returned decision ↔ answer = .returned decision
  suffices h : Leads (fun w => w.files = fs ∧ w.asked = asked)
      ((ctx.inDepot others net).host.ask .manualDownload
        (.ofFields [("file", file), ("group", group)]) (some "core:manual_download")) Answered from
    h.mono fun o w ⟨answer, hw, ho⟩ => ⟨request, answer, rfl, hw, ho⟩
  have hdecide : Leads (fun w => w.files = fs ∧ w.asked = asked)
      ((ctx.inDepot others net).host.decide request)
      fun o w => w.files = fs ∧ w.asked = asked ++ [(request, o)] := by
    rintro n w ⟨rfl, rfl⟩
    exact ⟨rfl, rfl⟩
  have hunanswered (e e' : Fault) :
      Leads (fun w => w.files = fs ∧ w.asked = asked ++ [(request, .raised e)])
        (Run.raise e' : Job (Depot σ) Decision) Answered :=
    .raise fun w hw => ⟨.raised e, hw, fun _ => ⟨nofun, nofun⟩⟩
  unfold Host.ask
  refine .ofFallible_bind (fun data hdata => ?_) fun e w he => ?_
  · cases hdata
    refine .emit_bind (.emit_bind (.bind (R := Answered) (.rescue hdecide (fun d w hw => ?_)
      (fun e => ?_) fun w hw => ?_) (fun d => ?_) (fun _ _ h => h) fun _ h => h))
    · exact ⟨.returned d, hw, fun _ => Iff.rfl⟩
    · split
      · exact hunanswered _ _
      · exact hunanswered _ _
    · exact ⟨.unfinished, hw, fun _ => Iff.rfl⟩
    · exact .emit_bind (.pure fun _ h => h)
  · cases he

theorem copyToCache_leads (hpause : ctx.host.pause.Returns) (source : Value) (target : Path)
    {fs : FileStore} {asked : List (PromptRequest × Ending Decision)} :
    Leads (fun w => w.files = fs ∧ w.asked = asked)
      (copyToCache (ctx.inDepot others net) source target)
      fun o w => (w.files = (fs.supplied source target).1 ∧ w.asked = asked) ∧
        o = .ofFallible (fs.supplied source target).2 := by
  rintro n w ⟨rfl, rfl⟩
  have hcopy : copyToCache (ctx.inDepot others net) source target =
      ((Depot.disk.change fun fs => fs.ensureDirectory target.parent) >>= fun _ =>
        (liftM source.shown : Job (Depot σ) String) >>= fun typed =>
          (Depot.disk.change fun fs => fs.copy typed target).attempt >>= fun copied =>
            Depot.aside ctx.host.pause >>= fun _ => Run.ofFallible copied) := rfl
  rw [hcopy, bind_apply, Depot.change_apply]
  unfold FileStore.supplied
  cases hmade : w.files.ensureDirectory target.parent with
  | error e => exact ⟨⟨rfl, rfl⟩, rfl⟩
  | ok fs₁ =>
    cases source.shown with
    | error e => exact ⟨⟨rfl, rfl⟩, rfl⟩
    | ok typed =>
      obtain ⟨⟨⟩, events, rest, hpaused⟩ := hpause n w.rest
      have hsource : (Except.ok typed >>= fun typed => fs₁.copy typed target) =
          fs₁.copy typed target := rfl
      simp only [Run.ofFallible_ok_bind, hsource]
      cases hcopied : fs₁.copy typed target with
      | error e =>
        have hattempt : (Depot.disk.change fun fs => fs.copy typed target).attempt n
            { w with files := fs₁ } = ⟨.returned (.error e), [], { w with files := fs₁ }⟩ := by
          rw [Run.attempt, Depot.change_apply, hcopied]
        rw [bind_of_returned hattempt, bind_of_returned
          (Depot.aside_returned (w := { w with files := fs₁ }) hpaused)]
        exact ⟨⟨rfl, rfl⟩, rfl⟩
      | ok fs₂ =>
        have hattempt : (Depot.disk.change fun fs => fs.copy typed target).attempt n
            { w with files := fs₁ } = ⟨.returned (.ok ()), [], { w with files := fs₂ }⟩ := by
          rw [Run.attempt, Depot.change_apply, hcopied]
        rw [bind_of_returned hattempt, bind_of_returned
          (Depot.aside_returned (w := { w with files := fs₂ }) hpaused)]
        exact ⟨⟨rfl, rfl⟩, rfl⟩

theorem check_apply (target : Path) (sum : Value) (n : Nat) (w : Depot σ) :
    checkFile (ctx.inDepot others net) target sum n w =
      (Run.ofFallible (Checksum.verify w.files target sum) n w).after
        [.called "downloader" "check_file" [.str target.text, sum]] := by
  rw [← Depot.checkFile_apply net]
  rfl

/-- A run after a check of a file that can be judged. -/
theorem check_bind {α : Type} {target : Path} {sum : Value} (verified : Bool)
    {P : Depot σ → Prop} {next : Bool → Job (Depot σ) α} {Q : Ending α → Depot σ → Prop}
    (hP : ∀ w, P w → Checksum.verify w.files target sum = .ok verified)
    (h : Leads P (next verified) Q) :
    Leads P (checkFile (ctx.inDepot others net) target sum >>= next) Q := by
  intro n w hw
  have hcheck := check_apply ctx others net target sum n w
  rw [hP w hw] at hcheck
  rw [bind_of_returned hcheck]
  exact h n w hw

/-- What comes of a decision about a file that is not verified yet: how the manual download ends,
and the files then. -/
def Settled (target : Path) (sum : Value) (fs : FileStore) (decision : Decision) (o : Ending Value)
    (fs' : FileStore) : Prop :=
  if !decision.resumes then (∃ message, o = .raised (.aborted message)) ∧ fs' = fs
  else if !decision.value.truth then
    (∃ message, o = .raised (.failure .generic message)) ∧ fs' = fs
  else
    let attempt := fs.supplied decision.value target
    fs' = attempt.1 ∧
      match attempt.2 with
      | .error e => o = .raised e
      | .ok _ =>
        ∃ verified, Checksum.verify fs' target sum = .ok verified ∧
          o = if verified then .returned .null
            else .raised (.checksumMismatch "checksum mismatch")

/-- What a manual download does with a decision. -/
def settle (ctx : Context σ) (name : Value) (target : Path) (sum : Value) (decision : Decision) :
    Job σ Value := do
  if !decision.resumes then
    Run.raise (.aborted ("manual download of " ++ name.text ++ " declined"))
  if !decision.value.truth then
    Run.raise (.failure .generic ("no file supplied for " ++ name.text))
  copyToCache ctx decision.value target
  if !(← checkFile ctx target sum) then
    Run.raise (.checksumMismatch "checksum mismatch")
  log .info ("Manual download of " ++ name.text ++ " verified")
  return .null

theorem settle_leads (hpause : ctx.host.pause.Returns) {sum : Value}
    (hsupported : Checksum.Supported sum) (name : Value) (target : Path) (decision : Decision)
    {fs : FileStore} {asked : List (PromptRequest × Ending Decision)} :
    Leads (fun w => w.files = fs ∧ w.asked = asked)
      (settle (ctx.inDepot others net) name target sum decision)
      fun o w => w.asked = asked ∧ Settled target sum fs decision o w.files := by
  unfold settle Settled
  by_cases hresumes : decision.resumes
  case neg =>
    simp only [hresumes, Bool.not_false, if_true]
    exact .raise fun w hw => ⟨hw.2, ⟨_, rfl⟩, hw.1⟩
  by_cases hvalue : decision.value.truth
  case neg =>
    simp only [hresumes, hvalue, Bool.not_true, Bool.not_false, Bool.false_eq_true, if_true,
      if_false]
    exact .raise fun w hw => ⟨hw.2, ⟨_, rfl⟩, hw.1⟩
  simp only [hresumes, hvalue, Bool.not_true, Bool.false_eq_true, if_false]
  have hcopy : Leads (fun w : Depot σ => w.files = fs ∧ w.asked = asked) _ _ :=
    copyToCache_leads ctx others net hpause decision.value target
  cases hattempt : (fs.supplied decision.value target).2 with
  | error e =>
    refine hcopy.bind (fun _ _ w hw => ?_) (fun e' w hw => ?_) fun w hw => ?_
    all_goals
      obtain ⟨hw, hended⟩ := hw
      rw [hattempt] at hended
      cases hended
    exact ⟨hw.2, hw.1, rfl⟩
  | ok =>
    obtain ⟨-, -, content, -, -, hthere, -⟩ := FileStore.supplied_ok hattempt
    obtain ⟨verified, hfits⟩ := hsupported.fits_ok content
    have hverify := (Checksum.verify_of_lookup hthere).trans hfits
    refine hcopy.bind (fun _ => check_bind ctx others net verified ?_ ?_)
      (fun e' w hw => ?_) fun w hw => ?_
    · rintro w ⟨⟨hfiles, -⟩, -⟩
      rw [hfiles]
      exact hverify
    · cases verified with
      | true =>
        refine .emit_bind (.pure fun w hw => ?_)
        obtain ⟨⟨hfiles, hasked⟩, -⟩ := hw
        exact ⟨hasked, hfiles, true, by rw [hfiles]; exact hverify, rfl⟩
      | false =>
        refine .raise fun w hw => ?_
        obtain ⟨⟨hfiles, hasked⟩, -⟩ := hw
        exact ⟨hasked, hfiles, false, by rw [hfiles]; exact hverify, rfl⟩
    all_goals
      rw [hattempt] at hw
      cases hw.2

/-- What a manual download does once it has told what it is about to do. -/
def obtain (ctx : Context σ) (group file name : Value) (target : Path) (sum : Value) :
    Job σ Value := do
  if ← checkFile ctx target sum then return .null
  ctx.host.tell (.under "Manual download required!")
  settle ctx name target sum (← ctx.host.ask .manualDownload
    (.ofFields [("file", file), ("group", group)]) (some "core:manual_download"))

section

variable {ctx} {group file name sum : Value} {target : Path} {fs : FileStore}
  {asked : List (PromptRequest × Ending Decision)}

theorem obtain_of_verified (hverify : Checksum.verify fs target sum = .ok true) :
    Leads (fun w => w.files = fs ∧ w.asked = asked)
      (obtain (ctx.inDepot others net) group file name target sum)
      fun o w => o = .returned .null ∧ w.files = fs ∧ w.asked = asked := by
  refine check_bind ctx others net true ?_ (.pure fun w hw => ⟨rfl, hw⟩)
  rintro w ⟨rfl, -⟩
  exact hverify

theorem obtain_of_unverified (hpause : ctx.host.pause.Returns) (hsupported : Checksum.Supported sum)
    (hverify : Checksum.verify fs target sum = .ok false) :
    Leads (fun w => w.files = fs ∧ w.asked = asked)
      (obtain (ctx.inDepot others net) group file name target sum)
      fun o w => ∃ request answer, request.prompt = .manualDownload ∧
        w.asked = asked ++ [(request, answer)] ∧
        ((∃ decision, answer = .returned decision ∧ Settled target sum fs decision o w.files) ∨
        (∀ decision, answer ≠ .returned decision) ∧ ∀ v, o ≠ .returned v) := by
  refine check_bind ctx others net false ?_ (Depot.tell_bind (fun _ _ h => h) ?_)
  · rintro w ⟨rfl, -⟩
    exact hverify
  refine (ask_leads ctx others net file group).bind (fun decision => ?_) ?_ ?_
  · refine .weaken (P := fun w => ∃ request : PromptRequest, request.prompt = .manualDownload ∧
      w.files = fs ∧ w.asked = asked ++ [(request, .returned decision)]) ?_ ?_
    · rintro n w ⟨request, hprompt, hw⟩
      obtain ⟨hasked, hsettled⟩ := settle_leads ctx others net hpause hsupported name target
        decision n w hw
      exact ⟨request, .returned decision, hprompt, hasked, .inl ⟨decision, rfl, hsettled⟩⟩
    · rintro w ⟨request, answer, hprompt, ⟨hfiles, hasked⟩, hanswer⟩
      exact ⟨request, hprompt, hfiles, (hanswer decision).mp rfl ▸ hasked⟩
  · rintro e w ⟨request, answer, hprompt, ⟨-, hasked⟩, hanswer⟩
    exact ⟨request, answer, hprompt, hasked, .inr ⟨fun d hd => (nomatch (hanswer d).mpr hd), nofun⟩⟩
  · rintro w ⟨request, answer, hprompt, ⟨-, hasked⟩, hanswer⟩
    exact ⟨request, answer, hprompt, hasked, .inr ⟨fun d hd => (nomatch (hanswer d).mpr hd), nofun⟩⟩

theorem obtain_of_unjudged {e : Fault} (hverify : Checksum.verify fs target sum = .error e) :
    Leads (fun w => w.files = fs ∧ w.asked = asked)
      (obtain (ctx.inDepot others net) group file name target sum)
      fun o w => o = .raised e ∧ w.files = fs ∧ w.asked = asked := by
  rintro n w ⟨rfl, hasked⟩
  unfold obtain
  rw [bind_apply, check_apply, hverify]
  exact ⟨rfl, rfl, hasked⟩

end

/-- A manual download does what it takes to obtain the file, after notices. -/
theorem manualDownload_leads {payload file sum : Value} {group name : String}
    (hgroup : payload.item "group" = .ok (.str group)) (hfile : payload.item "file" = .ok file)
    (hname : file.item "name" = .ok (.str name)) (hsum : file.optionalItem "checksum" = .ok sum)
    {fs : FileStore} {asked : List (PromptRequest × Ending Decision)}
    {Q : Ending Value → Depot σ → Prop}
    (h : Leads (fun w => w.files = fs ∧ w.asked = asked) (obtain (ctx.inDepot others net)
      (.str group) file (.str name) (ctx.cache.path group name) sum) Q) :
    Leads (fun w => w.files = fs ∧ w.asked = asked)
      (manualDownload payload (ctx.inDepot others net)) Q := by
  have hcache : (ctx.inDepot others net).cache = ctx.cache := rfl
  unfold manualDownload
  rw [hgroup, hfile, hcache]
  simp only [Run.ofFallible_ok_bind, hname, hsum, Value.asText]
  exact Depot.tell_bind (fun _ _ h => h) (Depot.tell_bind (fun _ _ h => h)
    (Depot.tell_bind (fun _ _ h => h) h))

/-- What comes of the action when the user answered: how it ends, and the files then. -/
structure Answered (decision : Decision) (target : Path) (sum : Value) (fs : FileStore)
    (o : Ending Unit) (fs' : FileStore) : Prop where
  declined : decision.resumes = false → (∃ message, o = .raised (.aborted message)) ∧ fs' = fs
  empty : decision.resumes = true → decision.value.truth = false →
    (∃ e, o = .raised (.inAction "core:manual_download" e)) ∧ fs' = fs
  refused : decision.resumes = true → decision.value.truth = true →
    (∀ typed fs₁ content, decision.value.shown = .ok typed →
      ¬ FileStore.Copyable fs fs₁ typed target content) →
    (∃ e, o = .raised (.inAction "core:manual_download" e)) ∧ FileStore.SameContents fs fs'
  copied : decision.resumes = true → decision.value.truth = true → ∀ typed fs₁ content,
    decision.value.shown = .ok typed → FileStore.Copyable fs fs₁ typed target content →
    fs'.lookup target = .ok (.file content) ∧
      (∀ loc ≠ fs.locate target, fs'.content? loc = fs.content? loc) ∧
      ∃ verified, Checksum.verify fs' target sum = .ok verified ∧
        if verified then o = .returned ()
        else ∃ e, e.kind = .checksumMismatch ∧ o = .raised (.inAction "core:manual_download" e)

/-- The failure of a refused copy is the failure of the action. -/
theorem asFailureOf_refusal {e : Fault} (h : FileStore.Refusal e) (id : String) :
    Flow.asFailureOf id e = .inAction id e := by
  cases h with
  | system problem paths => cases problem <;> rfl
  | sameFile message => rfl
  | untold => rfl

theorem Settled.answered {decision : Decision} {target : Path} {sum : Value} {fs fs' : FileStore}
    {o : Ending Value} (h : Settled target sum fs decision o fs') (hrooted : fs.Rooted) :
    Answered decision target sum fs (Flow.plainEnding "core:manual_download" o) fs' := by
  unfold Settled at h
  constructor
  case declined =>
    intro hresumes
    simp only [hresumes, Bool.not_false, if_true] at h
    obtain ⟨⟨message, rfl⟩, hfiles⟩ := h
    exact ⟨⟨message, rfl⟩, hfiles⟩
  case empty =>
    intro hresumes hvalue
    simp only [hresumes, hvalue, Bool.not_true, Bool.not_false, Bool.false_eq_true, if_false,
      if_true] at h
    obtain ⟨⟨message, rfl⟩, hfiles⟩ := h
    exact ⟨⟨_, rfl⟩, hfiles⟩
  case refused =>
    intro hresumes hvalue hrefused
    simp only [hresumes, hvalue, Bool.not_true, Bool.false_eq_true, if_false] at h
    obtain ⟨rfl, h⟩ := h
    cases hattempt : (fs.supplied decision.value target).2 with
    | error e =>
      rw [hattempt] at h
      obtain rfl := h
      obtain ⟨hrefusal, hsame⟩ := FileStore.supplied_error hattempt
      exact ⟨⟨e, congrArg Ending.raised (asFailureOf_refusal hrefusal _)⟩, hsame⟩
    | ok =>
      obtain ⟨typed, fs₁, content, hshown, hcopyable, -⟩ := FileStore.supplied_ok hattempt
      exact absurd hcopyable (hrefused typed fs₁ content hshown)
  case copied =>
    intro hresumes hvalue typed fs₁ content hshown hcopyable
    simp only [hresumes, hvalue, Bool.not_true, Bool.false_eq_true, if_false] at h
    obtain ⟨rfl, h⟩ := h
    have hattempt := FileStore.supplied_of_copyable hrooted hshown hcopyable
    rw [hattempt] at h
    obtain ⟨verified, hverify, rfl⟩ := h
    obtain ⟨typed', fs₂, content', hshown', hcopyable', hthere, hothers⟩ :=
      FileStore.supplied_ok hattempt
    cases hshown.symm.trans hshown'
    cases hcopyable.made.symm.trans hcopyable'.made
    cases hcopyable.there.symm.trans hcopyable'.there
    refine ⟨hthere, hothers, verified, hverify, ?_⟩
    cases verified with
    | true => rfl
    | false => exact ⟨_, rfl, rfl⟩

/-- Only a verified file lets a manual download return, and there is nothing to return. -/
theorem Settled.returned {decision : Decision} {target : Path} {sum : Value}
    {fs fs' : FileStore} {v : Value} (h : Settled target sum fs decision (.returned v) fs') :
    v = .null ∧ Checksum.verify fs' target sum = .ok true := by
  unfold Settled at h
  split at h
  · obtain ⟨⟨message, hended⟩, -⟩ := h
    cases hended
  split at h
  · obtain ⟨⟨message, hended⟩, -⟩ := h
    cases hended
  obtain ⟨-, h⟩ := h
  split at h
  · cases h
  · obtain ⟨verified, hverify, hended⟩ := h
    cases verified with
    | true =>
      cases hended
      exact ⟨rfl, hverify⟩
    | false => cases hended

theorem dispatch_manualDownload (payload : Value) :
    (Action.named "core:manual_download" payload).dispatch =
      .ok ⟨"core:manual_download", "core", "manual_download", payload⟩ := by
  cbv

theorem handler?_manualDownload :
    table.handler? "core:manual_download" = some (manualDownload : Handler σ) := by
  cbv

section

variable {payload file sum : Value} {group name : String}
  (hgroup : payload.item "group" = .ok (.str group)) (hfile : payload.item "file" = .ok file)
  (hname : file.item "name" = .ok (.str name)) (hsum : file.optionalItem "checksum" = .ok sum)
  (runSteps : List Step → Flow (Depot σ) Unit) (n : Nat) (w : Depot σ)
include hgroup hfile hname hsum

/-- The action does what it takes to obtain the file. -/
theorem action_leads {Q : Ending Value → Depot σ → Prop}
    (h : Leads (fun w' => w'.files = w.files ∧ w'.asked = w.asked) (obtain (ctx.inDepot others net)
      (.str group) file (.str name) (ctx.cache.path group name) sum) Q)
    (hnull : ∀ v w', Q (.returned v) w' → v = .null) :
    let t := Flow.action runSteps table (ctx.inDepot others net)
      (.named "core:manual_download" payload) n w
    ∃ o, t.ending = Flow.plainEnding "core:manual_download" o ∧ Q o t.world := by
  have hleads := manualDownload_leads ctx others net hgroup hfile hname hsum h n w ⟨rfl, rfl⟩
  obtain ⟨hending, hworld⟩ := Flow.action_plain (dispatch_manualDownload payload)
    handler?_manualDownload runSteps (ctx.inDepot others net) n w
    fun v hv => hnull v _ (hv ▸ hleads)
  exact ⟨_, hending, hworld.symm ▸ hleads⟩

/-- Where there is no telling whether the file is verified, the action fails, and nobody is asked. -/
theorem action_of_unjudged {e : Fault}
    (hverify : Checksum.verify w.files (ctx.cache.path group name) sum = .error e) :
    let t := Flow.action runSteps table (ctx.inDepot others net)
      (.named "core:manual_download" payload) n w
    t.ending = .raised (Flow.asFailureOf "core:manual_download" e) ∧ t.world.files = w.files ∧
      t.world.asked = w.asked := by
  obtain ⟨o, hending, rfl, hkept⟩ := action_leads ctx others net hgroup hfile hname hsum runSteps n w
    (obtain_of_unjudged others net hverify) fun _ _ h => nomatch h.1
  exact ⟨hending, hkept⟩

theorem action_of_verified
    (hverify : Checksum.verify w.files (ctx.cache.path group name) sum = .ok true) :
    let t := Flow.action runSteps table (ctx.inDepot others net)
      (.named "core:manual_download" payload) n w
    t.ending = .returned () ∧ t.world.files = w.files ∧ t.world.asked = w.asked := by
  obtain ⟨o, hending, rfl, hkept⟩ := action_leads ctx others net hgroup hfile hname hsum runSteps n w
    (obtain_of_verified others net hverify) fun _ _ h => Ending.returned.inj h.1
  exact ⟨hending, hkept⟩

/-- The user is asked for a file that is not verified. -/
theorem action_of_unverified (hpause : ctx.host.pause.Returns)
    (hsupported : Checksum.Supported sum)
    (hverify : Checksum.verify w.files (ctx.cache.path group name) sum = .ok false) :
    let t := Flow.action runSteps table (ctx.inDepot others net)
      (.named "core:manual_download" payload) n w
    ∃ request answer, request.prompt = .manualDownload ∧
      t.world.asked = w.asked ++ [(request, answer)] ∧
      ((∃ decision o, answer = .returned decision ∧
        t.ending = Flow.plainEnding "core:manual_download" o ∧
        Settled (ctx.cache.path group name) sum w.files decision o t.world.files) ∨
      (∀ decision, answer ≠ .returned decision) ∧ t.ending ≠ .returned ()) := by
  obtain ⟨o, hending, request, answer, hprompt, hasked, hanswer⟩ := action_leads ctx others net
    hgroup hfile hname hsum runSteps n w (obtain_of_unverified others net hpause hsupported hverify)
    fun v w' ⟨_, _, _, _, h⟩ => by
      rcases h with ⟨decision, -, hsettled⟩ | ⟨-, hnot⟩
      · exact hsettled.returned.1
      · exact absurd rfl (hnot v)
  refine ⟨request, answer, hprompt, hasked, ?_⟩
  rcases hanswer with ⟨decision, rfl, hsettled⟩ | ⟨hnone, hnot⟩
  · exact .inl ⟨decision, o, rfl, hending, hsettled⟩
  · refine .inr ⟨hnone, fun hreturned => ?_⟩
    obtain ⟨v, rfl⟩ := Flow.plainEnding_eq_returned (hending.symm.trans hreturned)
    exact hnot v rfl

end

/-- A manual download of a verified file is through without a question, and no file is another one.
For a file that is not verified, the user is asked once, and what comes of it depends on the answer
(`Builtin.Answered`). In any case, the file is verified if the action is through.

Where the path of the file is too long for the system, or a name on its way is, there is no telling
whether the file is verified: the action fails, and nobody is asked. -/
theorem manual_download_outcomes (hpause : ctx.host.pause.Returns)
    {payload file sum : Value} {group name : String}
    (hgroup : payload.item "group" = .ok (.str group)) (hfile : payload.item "file" = .ok file)
    (hname : file.item "name" = .ok (.str name)) (hsum : file.optionalItem "checksum" = .ok sum)
    (hsupported : Checksum.Supported sum) (runSteps : List Step → Flow (Depot σ) Unit) (n : Nat)
    (w : Depot σ) (hrooted : w.files.Rooted) :
    let target := ctx.cache.path group name
    let t := Flow.action runSteps table (ctx.inDepot others net)
      (.named "core:manual_download" payload) n w
    (Checksum.verify w.files target sum = .ok true →
      t.ending = .returned () ∧ t.world.files = w.files ∧ t.world.asked = w.asked) ∧
    (w.files.lookup target ≠ .error .nameTooLong → Checksum.verify w.files target sum ≠ .ok true →
      ∃ request answer, request.prompt = .manualDownload ∧
        t.world.asked = w.asked ++ [(request, answer)] ∧
        ∀ decision, answer = .returned decision →
          Answered decision target sum w.files t.ending t.world.files) ∧
    (w.files.lookup target = .error .nameTooLong →
      t.ending = .raised (.inAction "core:manual_download" (.file .nameTooLong [target.text])) ∧
        t.world.files = w.files ∧ t.world.asked = w.asked) ∧
    (FileStore.Short target → w.files.lookup target ≠ .error .nameTooLong) ∧
    (t.ending = .returned () → Checksum.verify t.world.files target sum = .ok true) := by
  intro target t
  have hshort : FileStore.Short target → w.files.lookup target ≠ .error .nameTooLong :=
    fun h => h.lookup_ne w.files
  cases hverify : Checksum.verify w.files target sum with
  | error e =>
    obtain ⟨rfl, hlookup⟩ := hsupported.verify_error hverify
    obtain ⟨hending, hkept⟩ := action_of_unjudged ctx others net hgroup hfile hname hsum runSteps n w
      hverify
    refine ⟨nofun, fun hnames => absurd hlookup hnames, fun _ => ⟨hending, hkept⟩, hshort,
      fun hreturned => ?_⟩
    cases hending.symm.trans hreturned
  | ok verified =>
    have hnames : w.files.lookup target ≠ .error .nameTooLong := fun hlookup => by
      rw [Checksum.verify, hlookup] at hverify
      cases hverify
    cases verified with
    | true =>
      obtain ⟨hending, hfiles, hasked⟩ := action_of_verified ctx others net hgroup hfile hname hsum
        runSteps n w hverify
      exact ⟨fun _ => ⟨hending, hfiles, hasked⟩, fun _ h => absurd rfl h,
        fun hlookup => absurd hlookup hnames, hshort, fun _ => hfiles.symm ▸ hverify⟩
    | false =>
      obtain ⟨request, answer, hprompt, hasked, hanswer⟩ := action_of_unverified ctx others net hgroup
        hfile hname hsum runSteps n w hpause hsupported hverify
      refine ⟨nofun, fun _ _ => ⟨request, answer, hprompt, hasked, ?_⟩,
        fun hlookup => absurd hlookup hnames, hshort, fun hreturned => ?_⟩
      · rintro decision rfl
        rcases hanswer with ⟨_, o, ⟨⟩, hending, hsettled⟩ | ⟨hnone, -⟩
        · exact hending ▸ hsettled.answered hrooted
        · exact absurd rfl (hnone decision)
      · rcases hanswer with ⟨decision, o, -, hending, hsettled⟩ | ⟨-, hnot⟩
        · obtain ⟨v, rfl⟩ := Flow.plainEnding_eq_returned (hending.symm.trans hreturned)
          exact hsettled.returned.2
        · exact absurd hreturned hnot

/-- An installation whose user names one file whenever a file is asked for. -/
def supplying : Context Unit where
  device := default
  system := default
  settings := {}
  host := .answering { value := .str "/picked" }
  cache := ⟨⟨"/", ["c"]⟩, "dev"⟩

/-- A file that the user supplies is accepted. -/
theorem supplied_file_accepted :
    let sum : Value := .mapping [(.str "algorithm", .str "md5"),
      (.str "sum", .str "F97C5D29941BFB1B2FDAB0874906AB82")]
    let file : Value := .mapping [(.str "name", .str "1.img"), (.str "checksum", sum)]
    let payload : Value := .mapping [(.str "group", .str "g"), (.str "file", file)]
    let t := Flow.action (fun _ => return) table
      (supplying.inDepot (Host.answering {}).tools .silent)
      (.named "core:manual_download" payload) 0
      { rest := (), files := { nodes := [(["picked"], .file "one".toUTF8)] } }
    t.ending = .returned () ∧
      t.world.files.lookup (supplying.cache.path "g" "1.img") = .ok (.file "one".toUTF8) := by
  intro sum file payload t
  have hoffered : (t.world.asked.map fun asked => asked.2.value?.map fun d =>
      (d.resumes, d.value.truth, d.value.shown.toOption)) = [some (true, true, some "/picked")] := by
    decide +kernel
  have hfits : (Checksum.fits "one".toUTF8 sum).toOption = some true := by
    decide +kernel
  have hgroup : payload.item "group" = .ok (.str "g") := by cbv
  have hfile : payload.item "file" = .ok file := by cbv
  have hname : file.item "name" = .ok (.str "1.img") := by cbv
  have hsum : file.optionalItem "checksum" = .ok sum := by cbv
  obtain ⟨-, hasks, -, hlookup, -⟩ := manual_download_outcomes supplying (Host.answering {}).tools
    .silent (fun _ w => ⟨(), [], w, rfl⟩) hgroup hfile hname hsum
    (.inr ⟨_, rfl, .inr ⟨⟨.md5, by cbv⟩, by cbv⟩⟩) (fun _ => return) 0
    { rest := (), files := { nodes := [(["picked"], .file "one".toUTF8)] } }
    (fun loc hloc => by rw [List.prefix_nil.mp hloc]; rfl)
  have hunverified : Checksum.verify { nodes := [(["picked"], .file "one".toUTF8)] }
      (supplying.cache.path "g" "1.img") sum ≠ .ok true := by
    intro h
    obtain ⟨content, hthere, -⟩ := Checksum.verify_eq_true.mp h
    have hmissing : FileStore.isFile { nodes := [(["picked"], .file "one".toUTF8)] }
        (supplying.cache.path "g" "1.img") = false := by
      decide +kernel
    rw [FileStore.isFile, hthere] at hmissing
    cases hmissing
  have hshort : FileStore.Short (supplying.cache.path "g" "1.img") := ⟨by decide +kernel, by decide⟩
  obtain ⟨request, answer, -, hasked, hanswered⟩ := hasks (hlookup hshort) hunverified
  rw [show t.world.asked = _ from hasked] at hoffered
  cases answer with
  | raised _ | unfinished => cases hoffered
  | returned d =>
    obtain ⟨hresumes, hvalue, hoffered⟩ :
        d.resumes = true ∧ d.value.truth = true ∧ d.value.shown.toOption = some "/picked" := by
      simpa [Ending.value?] using hoffered
    have hshown : d.value.shown = .ok "/picked" := by
      cases hd : d.value.shown with
      | error e => rw [hd] at hoffered; cases hoffered
      | ok typed => rw [hd] at hoffered; exact congrArg Except.ok (Option.some.inj hoffered)
    obtain ⟨hthere, -, verified, hverify, hended⟩ := (hanswered d rfl).copied hresumes hvalue
      "/picked" { nodes := [(["picked"], .file "one".toUTF8), (["c"], .directory),
        (["c", "dev"], .directory), (["c", "dev", "g"], .directory)] } "one".toUTF8 hshown
      ⟨by cbv, by cbv, by decide, ⟨by decide +kernel, hshort.whole⟩, by decide, by cbv⟩
    rw [Checksum.verify_of_lookup hthere] at hverify
    rw [hverify] at hfits
    obtain rfl : verified = true := Option.some.inj hfits
    exact ⟨hended, hthere⟩

/-- A file of which nobody is asked, though it is not verified: its name takes 256 bytes, which is
too long for the system. -/
theorem long_name_unasked :
    let name := String.ofList (List.replicate 256 'n')
    let file : Value := .mapping [(.str "name", .str name)]
    let payload : Value := .mapping [(.str "group", .str "g"), (.str "file", file)]
    let files : FileStore := { nodes := [(["c"], .directory), (["c", "dev"], .directory),
      (["c", "dev", "g"], .directory)] }
    let t := Flow.action (fun _ => return) table
      (supplying.inDepot (Host.answering {}).tools .silent)
      (.named "core:manual_download" payload) 0 { rest := (), files }
    Checksum.verify files (supplying.cache.path "g" name) .null ≠ .ok true ∧
      t.ending ≠ .returned () ∧ t.world.asked = [] := by
  intro name file payload files t
  have hfits : FileStore.fits name = false := by
    decide +kernel
  have hslash : '/' ∉ name.toList := by
    rw [String.toList_ofList, List.mem_replicate]
    decide
  have htakes : FileStore.Takes ⟨"/", ["c", "dev", "g", name]⟩ :=
    ⟨by decide +kernel, by decide +kernel⟩
  -- From here on the name is any name like this one: nothing has to compute with it.
  clear_value name
  have hempty : name ≠ "" := fun h => by rw [h] at hfits; cases hfits
  have hdot : name ≠ "." := fun h => by rw [h] at hfits; cases hfits
  have hlookup : files.lookup (supplying.cache.path "g" name) = .error .nameTooLong := by
    have hpath : supplying.cache.path "g" name = ⟨"/", ["c", "dev", "g", name]⟩ := by
      rw [Cache.path, Path.child, Path.ofText_of_plain hslash hempty hdot]
      rfl
    rw [hpath, FileStore.lookup, htakes.resolve]
    simp [FileStore.origin, FileStore.resolveFrom_cons, FileStore.advance, FileStore.node?, Path.isAbsolute,
      List.lookup, files, hfits, show FileStore.fits "c" = true by decide,
      show FileStore.fits "dev" = true by decide, show FileStore.fits "g" = true by decide]
  have hverify : Checksum.verify files (supplying.cache.path "g" name) .null =
      .error (.file .nameTooLong [(supplying.cache.path "g" name).text]) := by
    rw [Checksum.verify, hlookup]
  have hgroup : payload.item "group" = .ok (.str "g") := by cbv
  have hfile : payload.item "file" = .ok file := by cbv
  have hname : file.item "name" = .ok (.str name) := by cbv
  have hsum : file.optionalItem "checksum" = .ok .null := by cbv
  obtain ⟨hending, -, hasked⟩ := action_of_unjudged supplying (Host.answering {}).tools
    .silent hgroup hfile hname hsum (fun _ => return) 0 { rest := (), files } hverify
  refine ⟨fun h => ?_, fun h => ?_, hasked⟩
  · rw [hverify] at h
    cases h
  · cases hending.symm.trans h

end Builtin

end Reflash
