import FfiBindings.Proofs.Index.Update

/-!
Histories of updates of one index: real ones, dry runs, and real ones that fail on the way from the
temporary file to the index. What one update needs and leaves is one condition on the disk (`Ready`),
which every call keeps (`Ready.run`); so a whole history leaves the merge of all batches that were
carried out, with the permission bits of the file that was there or those of a new one, changes no other
file, and answers every call by the text that the index had then (`runCalls_right`).

The condition holds of an index that is there and of one that is absent, but not of a path that leads
through a missing directory and back out of it: nothing is found at such a path until the first update
makes the directory, and then perhaps a file is (`not_right_through_missing`).
-/

set_option autoImplicit false
set_option relaxedAutoImplicit false

namespace FfiBindings.Index

open Disk

/-! ### Calls -/

/-- Where an update may fail once the directory of the index is made. -/
inductive FailurePoint where
  | temporary
  | content
  | permissions
  | rename
  deriving DecidableEq, Repr

def FailurePoint.step : FailurePoint → Step
  | .temporary => .temporary
  | .content => .content
  | .permissions => .permissions
  | .rename => .rename

/-- A medium that fails at one point. -/
def failingAt (point : FailurePoint) (error : FileError) : Faults :=
  fun step => if step = point.step then some error else none

/-- A call of the update: a real one, a dry run, or a real one that fails if it writes. -/
inductive Call where
  | real (importPaths : List String)
  | dry (importPaths : List String)
  | failing (point : FailurePoint) (error : FileError) (importPaths : List String)
  deriving DecidableEq, Repr

namespace Call

def run (disk : Disk) (path : Path) : Call → Disk × Except UpdateError Update
  | real importPaths => update disk path importPaths false Faults.none
  | dry importPaths => update disk path importPaths true Faults.none
  | failing point error importPaths => update disk path importPaths false (failingAt point error)

/-- The batch of a call that is carried out. -/
def batch? : Call → Option (List String)
  | real importPaths => some importPaths
  | dry _ | failing _ _ _ => none

/-- What a call should answer where the index has the text. -/
def result (text : String) : Call → Except UpdateError Update
  | real importPaths => .ok (Update.of text importPaths)
  | dry importPaths => .ok (Update.of text importPaths)
  | failing _ error importPaths =>
    if merge text importPaths = text then .ok (Update.of text importPaths) else .error (.file error)

/-- The text after a call. -/
def textAfter (text : String) : Call → String
  | real importPaths => merge text importPaths
  | dry _ | failing _ _ _ => text

/-- The index after a call, where a new file has the given permission bits. -/
def indexAfter (newMode : Nat) (index : Option IndexFile) : Call → Option IndexFile
  | real importPaths =>
    some ⟨merge (textOf index) importPaths, (index.map IndexFile.mode).getD newMode⟩
  | dry _ | failing _ _ _ => index

end Call

/-- Carries out the calls one after the other. -/
def runCalls (path : Path) : (disk : Disk) → List Call → Disk × List (Except UpdateError Update)
  | disk, [] => (disk, [])
  | disk, call :: calls =>
    let (next, result) := call.run disk path
    let (after, results) := runCalls path next calls
    (after, result :: results)

/-- What the calls should answer, each by the text that the ones before it leave. -/
def resultsOf : (text : String) → List Call → List (Except UpdateError Update)
  | _, [] => []
  | text, call :: calls => call.result text :: resultsOf (call.textAfter text) calls

/-- The index after a history: the batches that were carried out are merged in, and a file that comes
into being has the given permission bits. -/
def historyOf (newMode : Nat) (index : Option IndexFile) (calls : List Call) : Option IndexFile :=
  match calls.filterMap Call.batch? with
  | [] => index
  | batches =>
    some ⟨batches.foldl merge (textOf index), (index.map IndexFile.mode).getD newMode⟩

theorem textOf_some (file : IndexFile) : textOf (some file) = file.text := rfl

theorem textOf_indexAfter (newMode : Nat) (index : Option IndexFile) (call : Call) :
    textOf (call.indexAfter newMode index) = call.textAfter (textOf index) := by
  cases call with
  | real importPaths => rw [Call.indexAfter, textOf_some, Call.textAfter]
  | dry importPaths => rw [Call.indexAfter, Call.textAfter]
  | failing point error importPaths => rw [Call.indexAfter, Call.textAfter]

/-- A history is its calls one after the other. -/
theorem historyOf_cons (newMode : Nat) (index : Option IndexFile) (call : Call) (calls : List Call) :
    historyOf newMode index (call :: calls) =
      historyOf newMode (call.indexAfter newMode index) calls := by
  cases call with
  | real importPaths =>
    have hbatch : (Call.real importPaths :: calls).filterMap Call.batch? =
        importPaths :: calls.filterMap Call.batch? := rfl
    rw [historyOf, historyOf, hbatch, Call.indexAfter]
    cases calls.filterMap Call.batch? with
    | nil => simp only [List.foldl_cons, List.foldl_nil]
    | cons batch batches =>
      simp only [List.foldl_cons, textOf_some, Option.map_some, Option.getD_some]
  | dry importPaths =>
    have hbatch : (Call.dry importPaths :: calls).filterMap Call.batch? =
        calls.filterMap Call.batch? := rfl
    rw [historyOf, historyOf, hbatch, Call.indexAfter]
  | failing point error importPaths =>
    have hbatch : (Call.failing point error importPaths :: calls).filterMap Call.batch? =
        calls.filterMap Call.batch? := rfl
    rw [historyOf, historyOf, hbatch, Call.indexAfter]

/-! ### What an update needs -/

variable {disk made after : Disk} {path : Path} {location : Location} {index : Option IndexFile}

/-- The index is where an update looks for it, before the directories above it are made and after. -/
structure Ready (disk : Disk) (path : Path) (location : Location) (index : Option IndexFile) : Prop where
  current : disk.HasCurrent
  found : disk.find? path = index.map IndexFile.entry
  read : ∀ faults, faults .read = none → readText disk path faults = .ok (textOf index)
  made : (disk.makeDirectories path.parent).2 = none
  located : (disk.makeDirectories path.parent).1.locate path = .ok location
  sight : (disk.makeDirectories path.parent).1.tree.sight? location = index.map IndexFile.sight

/-- Where the directory of the index is there, an update needs nothing else. -/
theorem Ready.of_directory (hcurrent : disk.HasCurrent) (hparent : disk.isDirectory path.parent = true)
    (hlocate : disk.locate path = .ok location)
    (hsight : disk.tree.sight? location = index.map IndexFile.sight) :
    Ready disk path location index := by
  have hmade := makeDirectories_of_isDirectory hparent
  refine ⟨hcurrent, (find?_eq_map_iff hlocate).2 hsight,
    fun faults hread => readText_of_sight hread hlocate hsight, ?_, ?_, ?_⟩
  · rw [hmade]
  · rw [hmade]
    exact hlocate
  · rw [hmade]
    exact hsight

/-- A dry run answers by the text and leaves the disk alone. -/
theorem update_dry {faults : Faults} {text : String} (h : readText disk path faults = .ok text)
    (importPaths : List String) :
    update disk path importPaths true faults = (disk, .ok (Update.of text importPaths)) := by
  simp only [update, h, Bool.not_true, Bool.and_false, Bool.false_eq_true, if_false]

/-- A real update with something to add is answered by how the replacement ends. -/
theorem update_changed {faults : Faults} {text : String} (h : readText disk path faults = .ok text)
    {importPaths : List String} (hchanged : merge text importPaths ≠ text) :
    update disk path importPaths false faults =
      ((replaceFile disk path (merge text importPaths).toUTF8 faults).1,
        match (replaceFile disk path (merge text importPaths).toUTF8 faults).2 with
        | none => .ok (Update.of text importPaths)
        | some error => .error (.file error)) := by
  have hwrites : ((Update.of text importPaths).changed && !false) = true := by
    simpa [Update.of] using hchanged
  have hcontent : (Update.of text importPaths).content = merge text importPaths := rfl
  simp only [update, h, hwrites, if_true, hcontent]
  rcases replaceFile disk path (merge text importPaths).toUTF8 faults with ⟨next, _ | error⟩ <;> rfl

namespace Ready

theorem grows (h : Ready disk path location index) :
    Grows disk (disk.makeDirectories path.parent).1 (OnTheWay (disk.start path.parent) path.parent.parts) :=
  makeDirectories_grows h.current path.parent

theorem location_eq (h : Ready disk path location index) : location = disk.place path := by
  rw [locate_eq_place h.located, place, h.grows.keeps.start_eq]
  rfl

/-- Whatever file comes to the location, the next update finds it. -/
theorem shows {next : Option IndexFile} (h : Ready disk path location index)
    (hshows : ShowsAt (disk.makeDirectories path.parent).1 after location (next.map IndexFile.sight)) :
    Ready after path location next := by
  have hplace : (disk.makeDirectories path.parent).1.tree.sight? location ≠ some .directory := by
    rw [h.sight]
    exact sight_ne_directory index
  have hparent := isDirectory_makeDirectories h.current h.made
  have hkeeps := hshows.keeps hplace
  exact .of_directory (hkeeps.hasCurrent (h.grows.keeps.hasCurrent h.current))
    (hkeeps.isDirectory hparent) (hkeeps.locate_eq_ok h.located) hshows.here

/-- An update that adds nothing leaves the disk alone. -/
theorem update_eq_self (h : Ready disk path location index) {faults : Faults}
    (hread : faults .read = none) {importPaths : List String} {dryRun : Bool}
    (hsame : merge (textOf index) importPaths = textOf index) :
    update disk path importPaths dryRun faults = (disk, .ok (Update.of (textOf index) importPaths)) := by
  have hskip : ((Update.of (textOf index) importPaths).changed && !dryRun) = false := by
    simp [Update.of, hsame]
  simp only [update, h.read faults hread, hskip, Bool.false_eq_true, if_false]

/-- A real update that adds something replaces the index, or fails as the medium does. -/
theorem update_spec (h : Ready disk path location index) {faults : Faults} (hread : faults .read = none)
    (hdirectory : faults .directory = none) {importPaths : List String}
    (hchanged : merge (textOf index) importPaths ≠ textOf index) :
    (update disk path importPaths false faults).2 =
        (match replacementFault faults with
          | none => .ok (Update.of (textOf index) importPaths)
          | some error => .error (.file error)) ∧
      ShowsAt (disk.makeDirectories path.parent).1 (update disk path importPaths false faults).1 location
        (if replacementFault faults = none then
          some (.file (merge (textOf index) importPaths).toUTF8
            ((index.map IndexFile.mode).getD disk.newFileMode))
          else index.map IndexFile.sight) := by
  have hplace : (disk.makeDirectories path.parent).1.tree.sight? location ≠ some .directory := by
    rw [h.sight]
    exact sight_ne_directory index
  have hmade : disk.makeDirectories path.parent = ((disk.makeDirectories path.parent).1, none) := by
    rw [← h.made]
  have hmode : modeFor (disk.makeDirectories path.parent).1 path =
      (index.map IndexFile.mode).getD disk.newFileMode := by
    rw [modeFor_of_sight h.located h.sight, newFileMode, newFileMode, h.grows.umask]
  obtain ⟨hfault, hshows⟩ := replaceFile_spec (merge (textOf index) importPaths).toUTF8
    faults h.current hmade hdirectory h.located hplace
  rw [h.sight, hmode] at hshows
  rw [update_changed (h.read faults hread) hchanged]
  exact ⟨by rw [hfault], hshows⟩

end Ready

/-! ### What a history leaves -/

/-- The disks have the same files, those at one location apart. -/
def SameFilesBut (location : Location) (disk after : Disk) : Prop :=
  ∀ other, other ≠ location → ∀ content mode,
    after.tree.find? other = some (.file content mode) ↔ disk.tree.find? other = some (.file content mode)

/-- The locations above an index, where an update may make directories. -/
def AboveIndex (disk : Disk) (path : Path) : Location → Prop :=
  OnTheWay (disk.start path.parent) path.parent.parts

theorem SameFilesBut.of_changes (h : Changes (· = location) (AboveIndex disk path) disk after) :
    SameFilesBut location disk after := by
  intro other hother content mode
  rw [← Tree.sight?_eq_file_iff, ← Tree.sight?_eq_file_iff]
  exact h.sight?_eq_file_iff hother

/-- What a call comes to: its answer, the index after it, and nothing else. -/
structure CallRight (disk : Disk) (path : Path) (location : Location) (index : Option IndexFile)
    (call : Call) : Prop where
  result : (call.run disk path).2 = call.result (textOf index)
  ready : Ready (call.run disk path).1 path location (call.indexAfter disk.newFileMode index)
  others : Changes (· = location) (AboveIndex disk path) disk (call.run disk path).1

/-- A replacement, if it comes to one, changes the index and what is above it. -/
theorem Ready.changes {sight : Option Sight} (h : Ready disk path location index)
    (hshows : ShowsAt (disk.makeDirectories path.parent).1 after location sight)
    (hsight : sight = index.map IndexFile.sight ∨ ∃ content mode, sight = some (.file content mode)) :
    Changes (· = location) (AboveIndex disk path) disk after := by
  have hplace : (disk.makeDirectories path.parent).1.tree.sight? location ≠ some .directory := by
    rw [h.sight]
    exact sight_ne_directory index
  refine (Changes.of_grows h.grows).trans ?_
  rcases hsight with rfl | ⟨content, mode, rfl⟩
  · refine ⟨hshows.current, hshows.umask, fun other => .inl ?_⟩
    rw [hshows.sight, ← h.sight]
    split
    · rename_i heq
      rw [heq]
    · rfl
  · exact Changes.of_showsAt hshows hplace rfl

theorem replacementFault_none : replacementFault Faults.none = none := rfl

theorem replacementFault_failingAt (point : FailurePoint) (error : FileError) :
    replacementFault (failingAt point error) = some error := by
  cases point <;> rfl

theorem failingAt_eq_none {step : Step} (point : FailurePoint) (error : FileError)
    (hstep : step = .read ∨ step = .directory) : failingAt point error step = none := by
  rcases hstep with rfl | rfl <;> cases point <;> rfl

namespace Ready

/-- The step: every call keeps what updates need. -/
theorem run (h : Ready disk path location index) (call : Call) :
    CallRight disk path location index call := by
  have hidle {call : Call} (hrun : call.run disk path = (disk, call.result (textOf index)))
      (hindex : call.indexAfter disk.newFileMode index = index) :
      CallRight disk path location index call := by
    refine ⟨by rw [hrun], ?_, ?_⟩
    · rw [hrun, hindex]
      exact h
    · rw [hrun]
      exact Changes.refl _ _ disk
  cases call with
  | dry importPaths => exact hidle (update_dry (h.read Faults.none rfl) importPaths) rfl
  | real importPaths =>
    by_cases hsame : merge (textOf index) importPaths = textOf index
    · refine hidle (h.update_eq_self rfl hsame) ?_
      cases index with
      | none => exact absurd hsame (merge_empty_ne importPaths)
      | some file => rw [Call.indexAfter, hsame, textOf_some, Option.map_some, Option.getD_some]
    · have hnone (step : Step) : Faults.none step = .none := rfl
      obtain ⟨hresult, hshows⟩ := h.update_spec (hnone .read) (hnone .directory) hsame
      rw [replacementFault_none] at hresult
      rw [if_pos replacementFault_none] at hshows
      exact ⟨hresult, h.shows hshows, h.changes hshows (.inr ⟨_, _, rfl⟩)⟩
  | failing point error importPaths =>
    have hread := failingAt_eq_none point error (.inl rfl)
    by_cases hsame : merge (textOf index) importPaths = textOf index
    · refine hidle ?_ rfl
      rw [Call.result, if_pos hsame]
      exact h.update_eq_self hread hsame
    · obtain ⟨hresult, hshows⟩ :=
        h.update_spec hread (failingAt_eq_none point error (.inr rfl)) hsame
      rw [replacementFault_failingAt] at hresult
      rw [if_neg (by rw [replacementFault_failingAt]; simp)] at hshows
      refine ⟨?_, h.shows hshows, h.changes hshows (.inl rfl)⟩
      rw [Call.result, if_neg hsame]
      exact hresult

/-- The run: a history keeps what updates need, and every call is answered by the text at its time. -/
theorem runCalls (h : Ready disk path location index) (calls : List Call) :
    Ready (runCalls path disk calls).1 path location (historyOf disk.newFileMode index calls) ∧
      Changes (· = location) (AboveIndex disk path) disk (Index.runCalls path disk calls).1 ∧
      (Index.runCalls path disk calls).2 = resultsOf (textOf index) calls := by
  induction calls generalizing disk index with
  | nil => exact ⟨h, Changes.refl _ _ disk, rfl⟩
  | cons call calls ih =>
    have hcall := h.run call
    obtain ⟨hready, hothers, hresults⟩ := ih hcall.ready
    rw [hcall.others.newFileMode_eq, ← historyOf_cons] at hready
    rw [textOf_indexAfter] at hresults
    rw [AboveIndex, hcall.others.keeps.start_eq] at hothers
    refine ⟨hready, hcall.others.trans hothers, ?_⟩
    rw [resultsOf, ← hcall.result, ← hresults]
    rfl

end Ready

/-- A history is right when the index holds what the batches that were carried out make of it, with its
own permission bits or those of a new file, no other file is touched, and every call is answered as it
should be: a failing one by its error, and any other by the merged text, the new lines and whether there
are any, which is whether the text changes. -/
structure HistoryRight (disk : Disk) (path : Path) (index : Option IndexFile) (calls : List Call) :
    Prop where
  held : (runCalls path disk calls).1.find? path =
    (historyOf disk.newFileMode index calls).map IndexFile.entry
  others : SameFilesBut (disk.place path) disk (runCalls path disk calls).1
  results : (runCalls path disk calls).2 = resultsOf (textOf index) calls
  flags : ∀ update, .ok update ∈ (runCalls path disk calls).2 →
    (update.changed = true ↔ update.added ≠ [])

/-- The index that a history starts from: a file that is found at the path, or none, if none is found
there either when the directories above it are made. -/
def StartsFrom (disk : Disk) (path : Path) : Option IndexFile → Prop
  | some file => disk.find? path = some file.entry
  | none =>
    disk.read path = .error (.refused .notFound path) ∧ (disk.makeDirectories path.parent).2 = none ∧
      (disk.makeDirectories path.parent).1.find? path = none

theorem changed_of_iff (text : String) (importPaths : List String) :
    (Update.of text importPaths).changed = true ↔ (Update.of text importPaths).added ≠ [] := by
  simpa [Update.of] using not_congr (merge_eq_self_iff text importPaths)

theorem ok_mem_resultsOf {text : String} {calls : List Call} {update : Update}
    (h : .ok update ∈ resultsOf text calls) : ∃ text importPaths, update = Update.of text importPaths := by
  induction calls generalizing text with
  | nil => exact absurd h (List.not_mem_nil)
  | cons call calls ih =>
    rcases List.mem_cons.1 h with heq | hmem
    · cases call with
      | real importPaths => exact ⟨text, importPaths, Except.ok.inj heq⟩
      | dry importPaths => exact ⟨text, importPaths, Except.ok.inj heq⟩
      | failing point error importPaths =>
        rw [Call.result] at heq
        split at heq
        · exact ⟨text, importPaths, Except.ok.inj heq⟩
        · exact absurd heq (by simp)
    · exact ih hmem

/-- An index that is absent from an open place: a plain path leads to the same nothing always. -/
theorem startsFrom_none (h : IsPlain path) (hcurrent : disk.HasCurrent)
    (hnone : disk.tree.sight? (disk.place path) = none) (hopen : disk.IsOpen path) :
    StartsFrom disk path none := by
  have hparts : path.parts ≠ [] := by
    intro hparts
    have hstart := sight?_start hcurrent path
    have hplace : disk.place path = disk.start path := by
      rw [place, hparts]
      rfl
    rw [hplace, hstart] at hnone
    exact absurd hnone (by simp)
  have hread : disk.read path = .error (.refused .notFound path) := by
    unfold Disk.read
    cases hlocate : disk.locate path with
    | ok location =>
      rw [locate_eq_place hlocate]
      simp only [Tree.sight?_eq_none_iff.1 hnone]
    | error error =>
      refine congrArg Except.error
        (locate_error_eq_notFound h.noNull (fun front back heq hback => ?_) hlocate)
      refine h.sight?_above_open hopen ?_ hparts
      rw [Path.parent, heq, List.dropLast_append_of_ne_nil hback]
      exact List.prefix_append front back.dropLast
  refine ⟨hread, h.makeDirectories_parent hcurrent hparts hopen, ?_⟩
  have hgrows := makeDirectories_grows hcurrent path.parent
  have hfree : (disk.makeDirectories path.parent).1.tree.sight? (disk.place path) = none := by
    rcases hgrows.sight (disk.place path) with hsame | ⟨-, -, hway⟩
    · rw [hsame, hnone]
    · exact absurd hway (h.place_notOnTheWay hparts)
  unfold find?
  cases hlocate : (disk.makeDirectories path.parent).1.locate path with
  | error error => rfl
  | ok location =>
    have hplace := locate_eq_place hlocate
    rw [hgrows.keeps.place_eq] at hplace
    rw [hplace]
    exact Tree.sight?_eq_none_iff.1 hfree

theorem exists_concat_of_place (hcurrent : disk.HasCurrent)
    (hplace : disk.tree.sight? (disk.place path) ≠ some .directory) :
    ∃ last, path.parts = path.parent.parts ++ [last] := by
  rcases List.eq_nil_or_concat path.parts with hparts | ⟨parts, last, hparts⟩
  · refine absurd ?_ hplace
    rw [place, hparts]
    exact sight?_start hcurrent path
  · rw [List.concat_eq_append] at hparts
    exact ⟨last, by rw [Path.parent, hparts, List.dropLast_concat]⟩

theorem Ready.of_startsFrom (hcurrent : disk.HasCurrent) (h : StartsFrom disk path index) :
    Ready disk path (disk.place path) index := by
  cases index with
  | some file =>
    have hlocate : disk.locate path = .ok (disk.place path) := by
      unfold StartsFrom find? at h
      cases hlocate : disk.locate path with
      | ok location => rw [locate_eq_place hlocate]
      | error error =>
        rw [hlocate] at h
        exact absurd h (by simp)
    have hfound : disk.find? path = (some file).map IndexFile.entry := h
    have hsight := (find?_eq_map_iff hlocate).1 hfound
    have hplace : disk.tree.sight? (disk.place path) ≠ some .directory := by
      rw [hsight]
      exact sight_ne_directory (some file)
    obtain ⟨last, hparts⟩ := exists_concat_of_place hcurrent hplace
    obtain ⟨hnull, hfollow⟩ := locate_eq_ok_iff.1 hlocate
    rw [hparts] at hfollow
    have hlead := ((follow_concat_iff (sight?_start hcurrent path)).1 hfollow).1
    exact .of_directory hcurrent (isDirectory_iff.2 ⟨hasNull_parent hnull, hlead⟩) hlocate hsight
  | none =>
    obtain ⟨hread, hmade, hfree⟩ := h
    obtain ⟨hnull, hfound⟩ := find?_eq_none_of_read hread
    have hparts : ∃ last, path.parts = path.parent.parts ++ [last] := by
      rcases List.eq_nil_or_concat path.parts with hparts | ⟨parts, last, hparts⟩
      · refine absurd hfound ?_
        obtain ⟨inside, hinside⟩ := Tree.sight?_eq_directory_iff.1 (sight?_start hcurrent path)
        rw [find?, locate_eq_ok_iff.2 ⟨hnull, by rw [hparts]; rfl⟩]
        simp [hinside]
      · rw [List.concat_eq_append] at hparts
        exact ⟨last, by rw [Path.parent, hparts, List.dropLast_concat]⟩
    obtain ⟨last, hparts⟩ := hparts
    have hgrows := makeDirectories_grows hcurrent path.parent
    have hlocate : (disk.makeDirectories path.parent).1.locate path = .ok (disk.place path) := by
      have hpath : path = ⟨path.anchor, path.parent.parts ++ [last]⟩ := by
        rw [← hparts]
      rw [hpath] at hnull
      have hconcat := locate_concat (hgrows.keeps.hasCurrent hcurrent) hnull
        (isDirectory_makeDirectories hcurrent hmade)
      rw [← hpath, place, hgrows.keeps.start_eq] at hconcat
      exact hconcat
    refine ⟨hcurrent, hfound, fun faults hfault => ?_, hmade, hlocate, ?_⟩
    · simp only [readText, hfault, hread, isNotFound, if_true]
      rfl
    · have hnone : (disk.makeDirectories path.parent).1.find? path =
          (none : Option IndexFile).map IndexFile.entry := hfree
      exact (find?_eq_map_iff hlocate).1 hnone

/-- Whatever calls follow each other, the index holds the merge of the batches that were carried out,
and nothing else is left behind. -/
theorem runCalls_right (hcurrent : disk.HasCurrent) (h : StartsFrom disk path index)
    (calls : List Call) : HistoryRight disk path index calls := by
  obtain ⟨hready, hothers, hresults⟩ := (Ready.of_startsFrom hcurrent h).runCalls calls
  refine ⟨hready.found, .of_changes hothers, hresults, ?_⟩
  intro update hupdate
  rw [hresults] at hupdate
  obtain ⟨text, importPaths, rfl⟩ := ok_mem_resultsOf hupdate
  exact changed_of_iff text importPaths

/-- Two dry runs and a failing call between them change no index, and yet the dry runs answer differently
where the path leads through a missing directory and out of it: the first finds no index, the failing
call makes the directory, and the last finds the file that has been there from the beginning. -/
theorem not_right_through_missing :
    let disk : Disk := { tree := .file "index.ts" "// kept\n".toUTF8 0o644 .empty }
    let path : Path := ⟨.current, ["missing", "..", "index.ts"]⟩
    disk.HasCurrent ∧ disk.read path = .error (.refused .notFound path) ∧
      disk.tree.find? (disk.place path) = some (.file "// kept\n".toUTF8 0o644) ∧
      ∀ index, ¬ HistoryRight disk path index
        [.dry ["./a"], .failing .rename (.failed "disk full") ["./a"], .dry ["./a"]] := by
  intro disk path
  have hcurrent : disk.HasCurrent := rfl
  have hmissing : disk.read path = .error (.refused .notFound path) := rfl
  refine ⟨hcurrent, hmissing, rfl, ?_⟩
  intro index hright
  have hmade : disk.makeDirectories path.parent = ((disk.makeDirectories path.parent).1, none) := rfl
  have hlocate : (disk.makeDirectories path.parent).1.locate path = .ok ["index.ts"] := rfl
  have hsight : (disk.makeDirectories path.parent).1.tree.sight? ["index.ts"] =
      some (IndexFile.sight ⟨"// kept\n", 0o644⟩) := rfl
  have hplace : (disk.makeDirectories path.parent).1.tree.sight? ["index.ts"] ≠ some .directory := by
    rw [hsight]
    exact sight_ne_directory (some ⟨"// kept\n", 0o644⟩)
  have hfirst : readText disk path Faults.none = .ok "" := rfl
  -- the failing call leaves the directory that it made
  have hfailing : ShowsAt (disk.makeDirectories path.parent).1
      ((Call.failing .rename (.failed "disk full") ["./a"]).run disk path).1 ["index.ts"]
      ((some (IndexFile.mk "// kept\n" 0o644)).map IndexFile.sight) := by
    have hread : readText disk path (failingAt .rename (.failed "disk full")) = .ok "" := rfl
    rw [Call.run, update_changed hread (merge_empty_ne ["./a"])]
    have hreplaced := (replaceFile_spec (merge "" ["./a"]).toUTF8
      (failingAt .rename (.failed "disk full")) hcurrent hmade rfl hlocate hplace).2
    rw [if_neg (by rw [replacementFault_failingAt]; simp), hsight] at hreplaced
    exact hreplaced
  have hlast : readText ((Call.failing .rename (.failed "disk full") ["./a"]).run disk path).1 path
      Faults.none = .ok "// kept\n" :=
    readText_of_sight rfl ((hfailing.keeps hplace).locate_eq_ok hlocate) hfailing.here
  have hanswers : (runCalls path disk [.dry ["./a"], .failing .rename (.failed "disk full") ["./a"],
      .dry ["./a"]]).2 = [.ok (Update.of "" ["./a"]),
        ((Call.failing .rename (.failed "disk full") ["./a"]).run disk path).2,
        .ok (Update.of "// kept\n" ["./a"])] := by
    simp only [runCalls]
    rw [Call.run, update_dry hfirst]
    simp only
    rw [Call.run, update_dry hlast]
  have hsame : Update.of "" ["./a"] = Update.of "// kept\n" ["./a"] := by
    have hresults := hanswers.symm.trans hright.results
    simp only [resultsOf, Call.result, Call.textAfter, List.cons.injEq, Except.ok.injEq] at hresults
    rw [hresults.1, hresults.2.2.1]
  have hcontent : merge "" ["./a"] = merge "// kept\n" ["./a"] := congrArg Update.content hsame
  exact absurd hcontent (by decide)

/-- A first index on an empty disk: neither the dry run nor the failing call leaves anything. -/
theorem runCalls_right_first :
    let disk : Disk := { tree := .empty }
    let path : Path := ⟨.current, ["gen", "index.ts"]⟩
    disk.HasCurrent ∧ StartsFrom disk path none ∧
      (runCalls path disk [.dry ["./a"], .failing .content (.failed "disk full") ["./a"], .real ["./b"],
        .failing .rename (.failed "disk full") ["./c"]]).1.find? path =
        some (.file (merge "" ["./b"]).toUTF8 0o644) := by
  intro disk path
  have hcurrent : disk.HasCurrent := rfl
  have hstarts : StartsFrom disk path none := ⟨rfl, rfl, rfl⟩
  have hright := runCalls_right hcurrent hstarts [.dry ["./a"],
    .failing .content (.failed "disk full") ["./a"], .real ["./b"],
    .failing .rename (.failed "disk full") ["./c"]]
  have hmode : disk.newFileMode = 0o644 := by decide
  have hheld := hright.held
  rw [hmode] at hheld
  exact ⟨hcurrent, hstarts, hheld⟩

end FfiBindings.Index
