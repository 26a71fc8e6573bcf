import FfiBindings.Proofs.Journal
import FfiBindings.Proofs.Text.Line
import FfiBindings.Proofs.Tree.Plain

/-!
Files that stay and only get longer. `Lengthens rewritten disk after` says of two disks that every file of the
first one is on the second one, with all that it held and then whole lines, but for the files at the given
locations, which may hold anything. Directories that are made and a journal that is written
(`noteAll_lengthens`) keep to this everywhere; another file at a location does if it begins with what was there
(`of_showsAt`).
-/

set_option autoImplicit false
set_option relaxedAutoImplicit false

namespace FfiBindings

namespace Disk

variable {disk middle after : Disk} {path : Path} {location : Location}
  {rewritten more through : Location → Prop} {content : ByteArray} {mode : Nat}

/-- All files stay, with their permission bits, and none gets shorter or changes in what it held but at the
locations that may be written anew. -/
structure Lengthens (rewritten : Location → Prop) (disk after : Disk) : Prop where
  keeps : KeepsDirectories disk after
  file : ∀ location content mode, disk.tree.sight? location = some (.file content mode) →
    ∃ later, after.tree.sight? location = some (.file later mode) ∧
      (rewritten location ∨ ∃ lines, Text.IsWhole lines ∧ later = content ++ lines.toUTF8)

theorem eq_append_empty (content : ByteArray) :
    ∃ lines, Text.IsWhole lines ∧ content = content ++ lines.toUTF8 :=
  ⟨"", .inl rfl, ByteArray.append_empty.symm⟩

namespace Lengthens

theorem refl (rewritten : Location → Prop) (disk : Disk) : Lengthens rewritten disk disk :=
  ⟨.refl disk, fun _ content _ hfile =>
    ⟨content, hfile, .inr (eq_append_empty content)⟩⟩

theorem mono (h : Lengthens rewritten disk after)
    (hmore : ∀ location, rewritten location → more location) : Lengthens more disk after := by
  refine ⟨h.keeps, fun location content mode hfile => ?_⟩
  obtain ⟨later, hlater, hheld⟩ := h.file location content mode hfile
  exact ⟨later, hlater, hheld.imp_left (hmore location)⟩

theorem trans (hfirst : Lengthens rewritten disk middle) (hsecond : Lengthens rewritten middle after) :
    Lengthens rewritten disk after := by
  refine ⟨hfirst.keeps.trans hsecond.keeps, fun location content mode hfile => ?_⟩
  obtain ⟨held, hmiddle, hheld⟩ := hfirst.file location content mode hfile
  obtain ⟨later, hlater, hagain⟩ := hsecond.file location held mode hmiddle
  refine ⟨later, hlater, ?_⟩
  rcases hheld with hrewritten | ⟨lines, hlines, rfl⟩
  · exact .inl hrewritten
  · rcases hagain with hrewritten | ⟨more, hmore, rfl⟩
    · exact .inl hrewritten
    · refine .inr ⟨lines ++ more, hlines.append hmore, ?_⟩
      rw [ByteArray.append_assoc]
      exact congrArg (content ++ ·) String.toByteArray_append.symm

theorem of_grows (h : Grows disk after through) : Lengthens rewritten disk after :=
  ⟨h.keeps, fun _ content _ hfile =>
    ⟨content, h.sight?_eq_some hfile, .inr (eq_append_empty content)⟩⟩

/-- Another file comes to one location. The one that was there may be written anew, or it goes on in the other. -/
theorem of_showsAt (h : ShowsAt disk after location (some (.file content mode)))
    (hplace : disk.tree.sight? location ≠ some .directory)
    (hheld : ∀ held old, disk.tree.sight? location = some (.file held old) →
      old = mode ∧ (rewritten location ∨ ∃ lines, Text.IsWhole lines ∧ content = held ++ lines.toUTF8)) :
    Lengthens rewritten disk after := by
  refine ⟨h.keeps hplace, fun other held old hfile => ?_⟩
  rw [h.sight]
  by_cases hother : other = location
  · subst hother
    obtain ⟨rfl, hlater⟩ := hheld held old hfile
    exact ⟨content, if_pos rfl, hlater⟩
  · exact ⟨held, (if_neg hother).trans hfile, .inr (eq_append_empty held)⟩

/-- Nothing is changed where the one location shows what it did. -/
theorem of_same (h : ShowsAt disk after location (disk.tree.sight? location)) :
    Lengthens rewritten disk after := by
  have hgrows : Grows disk after fun _ => True := ⟨h.current, h.umask, fun other => .inl (h.eq_of_same other)⟩
  exact of_grows hgrows

/-- A file is written over another one, and keeps its permission bits. -/
theorem of_overwritten
    (h : ShowsAt disk after location (some (disk.overwritten content (disk.tree.sight? location))))
    (hplace : disk.tree.sight? location ≠ some .directory) (hrewritten : rewritten location) :
    Lengthens rewritten disk after := by
  rcases hsight : disk.tree.sight? location with _ | ⟨held, mode⟩ | _
  · rw [hsight] at h
    refine of_showsAt h hplace fun held old hheld => ?_
    rw [hsight] at hheld
    exact absurd hheld (by simp)
  · rw [hsight] at h
    refine of_showsAt h hplace fun other old hheld => ⟨?_, .inl hrewritten⟩
    rw [hsight, Option.some.injEq, Sight.file.injEq] at hheld
    exact hheld.2.symm
  · exact absurd hsight hplace

/-- A file that was found is found again, and goes on what it held if its location is not written anew. -/
theorem find?_eq_file (h : Lengthens rewritten disk after)
    (hfound : disk.find? path = some (.file content mode)) :
    ∃ later, after.find? path = some (.file later mode) ∧
      (rewritten (disk.place path) ∨ ∃ lines, Text.IsWhole lines ∧ later = content ++ lines.toUTF8) := by
  unfold find? at hfound ⊢
  cases hlocate : disk.locate path with
  | error error =>
    rw [hlocate] at hfound
    exact absurd hfound (by simp)
  | ok location =>
    rw [hlocate] at hfound
    obtain ⟨later, hlater, hheld⟩ := h.file location content mode (Tree.sight?_eq_file_iff.2 hfound)
    rw [h.keeps.locate_eq_ok hlocate, ← locate_eq_place hlocate]
    exact ⟨later, Tree.sight?_eq_file_iff.1 hlater, hheld⟩

/-- A file whose lines are ended stays one. -/
theorem endsLine (h : Lengthens rewritten disk after) (hrewritten : ¬ rewritten location)
    (hsight : disk.tree.sight? location = some (.file content mode)) (hended : Text.EndsLine content) :
    ∃ later, after.tree.sight? location = some (.file later mode) ∧ Text.EndsLine later := by
  obtain ⟨later, hlater, hhere | ⟨lines, hlines, rfl⟩⟩ := h.file location content mode hsight
  · exact absurd hhere hrewritten
  · exact ⟨_, hlater, hended.append_whole hlines⟩

end Lengthens

end Disk

namespace Session

open Disk

variable {rewritten : Location → Prop}

theorem append_lengthens (disk : Disk) (location : Location) {text : String} (hwhole : Text.IsWhole text) :
    Lengthens rewritten disk (append disk location text) := by
  rcases append_cases disk location text with hsame | ⟨content, mode, hsight, hshows⟩
  · rw [hsame]
    exact .refl _ disk
  · refine .of_showsAt hshows (Tree.FileAt.ne_directory ⟨content, mode, hsight⟩) fun held old hheld => ?_
    rw [hsight, Option.some.injEq, Sight.file.injEq] at hheld
    obtain ⟨rfl, rfl⟩ := hheld
    exact ⟨rfl, .inr ⟨text, hwhole, rfl⟩⟩

/-- A message is one line of the log file, or more. -/
theorem getLast?_fileLine (clock : String) (message : Message) :
    (Journal.fileLine clock message).toList.getLast? = some '\n' := by
  have hline (front : String) : (front ++ "\n").toList.getLast? = some '\n' := by
    rw [String.toList_append, List.getLast?_append]
    rfl
  exact hline _

/-- What a journal writes comes to the end of a file. -/
theorem note_lengthens (session : Session) (message : Message) :
    Lengthens rewritten session.disk (session.note message).disk := by
  refine session.note_keeps message _ (.refl _ session.disk) fun disk location _ hsofar => ?_
  exact hsofar.trans (append_lengthens disk location (.inr (getLast?_fileLine _ message)))

theorem noteAll_lengthens (session : Session) (messages : List Message) :
    Lengthens rewritten session.disk (session.noteAll messages).disk := by
  induction messages generalizing session with
  | nil => exact .refl _ session.disk
  | cons message messages ih => exact (session.note_lengthens message).trans (ih (session.note message))

end Session

end FfiBindings
