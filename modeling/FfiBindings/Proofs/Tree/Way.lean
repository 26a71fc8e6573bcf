import FfiBindings.Proofs.Tree.Sight
import FfiBindings.Tree.Disk

/-!
Where paths lead. The location is told by the parts of a path alone (`follow_eq`); whether the path leads
there depends on the directories that are seen on the way (`follow_concat_iff`), so a tree on which there
are more of them leads every path on that was led on before (`follow_of_directories`), and a path that
leads nowhere has met a file or leads through something missing (`follow_eq_notFound`).
-/

set_option autoImplicit false
set_option relaxedAutoImplicit false

namespace FfiBindings

open Path (walkUpAndDown)

namespace Path

theorem walkUpAndDown_append (location front back : List String) :
    walkUpAndDown location (front ++ back) = walkUpAndDown (walkUpAndDown location front) back := by
  induction front generalizing location with
  | nil => rfl
  | cons part front ih => exact ih _

theorem walkUpAndDown_concat (location : Location) (parts : List String) (last : String) :
    walkUpAndDown location (parts ++ [last]) = Disk.stepTo (walkUpAndDown location parts) last :=
  walkUpAndDown_append location parts [last]

/-- Without a double dot the parts are the way. -/
theorem walkUpAndDown_eq_append {parts : List String} (h : ".." ∉ parts) (location : List String) :
    walkUpAndDown location parts = location ++ parts := by
  induction parts generalizing location with
  | nil => exact (List.append_nil location).symm
  | cons part parts ih =>
    have hpart : part ≠ ".." := fun heq => h (by simp [heq])
    rw [walkUpAndDown, if_neg hpart, ih fun hmem => h (List.mem_cons_of_mem part hmem),
      List.append_assoc, List.singleton_append]

/-- A way goes on along its parts, never along a double dot. -/
theorem mem_walkUpAndDown {location parts : List String} {name : String} (h : name ∈ walkUpAndDown location parts) :
    name ∈ location ∨ (name ∈ parts ∧ name ≠ "..") := by
  induction parts generalizing location with
  | nil => exact .inl h
  | cons part parts ih =>
    rw [walkUpAndDown] at h
    rcases ih h with hmem | ⟨hmem, hname⟩
    · by_cases hpart : part = ".."
      · rw [if_pos hpart] at hmem
        exact .inl (List.dropLast_subset location hmem)
      · rw [if_neg hpart, List.mem_append, List.mem_singleton] at hmem
        rcases hmem with hbefore | rfl
        · exact .inl hbefore
        · exact .inr ⟨List.mem_cons_self, hpart⟩
    · exact .inr ⟨List.mem_cons_of_mem part hmem, hname⟩

end Path

namespace Disk

variable {tree next : Tree} {location result : Location} {parts : List String} {last : String}

/-! ### Where paths lead -/

theorem follow_cons_cons (tree : Tree) (location : Location) (part following : String)
    (parts : List String) :
    follow tree location (part :: following :: parts) =
      match tree.sight? (stepTo location part) with
      | some .directory => follow tree (stepTo location part) (following :: parts)
      | some (.file _ _) => .error .notADirectory
      | none => .error .notFound := by
  rw [follow]
  unfold Tree.sight?
  cases tree.find? (stepTo location part) with
  | none => rfl
  | some entry => cases entry <;> rfl

/-- A path that can be followed leads where its parts say. -/
theorem follow_eq (h : follow tree location parts = .ok result) :
    result = walkUpAndDown location parts := by
  induction parts generalizing location with
  | nil => exact (Except.ok.inj h).symm
  | cons part parts ih =>
    cases parts with
    | nil => exact (Except.ok.inj h).symm
    | cons following parts =>
      rw [follow_cons_cons] at h
      split at h
      · exact ih h
      · exact absurd h (by simp)
      · exact absurd h (by simp)

/-- The parts can be followed, and there is a directory where they lead. -/
structure LeadsTo (tree : Tree) (location : Location) (parts : List String) : Prop where
  follow : follow tree location parts = .ok (walkUpAndDown location parts)
  directory : tree.sight? (walkUpAndDown location parts) = some .directory

theorem leadsTo_nil : LeadsTo tree location [] ↔ tree.sight? location = some .directory :=
  ⟨fun h => h.directory, fun h => ⟨rfl, h⟩⟩

theorem leadsTo_cons_cons {part following : String} :
    LeadsTo tree location (part :: following :: parts) ↔
      tree.sight? (stepTo location part) = some .directory ∧
        LeadsTo tree (stepTo location part) (following :: parts) := by
  constructor
  · rintro ⟨hfollow, hdirectory⟩
    rw [follow_cons_cons] at hfollow
    split at hfollow
    · rename_i hpart
      exact ⟨hpart, hfollow, hdirectory⟩
    · exact absurd hfollow (by simp)
    · exact absurd hfollow (by simp)
  · rintro ⟨hpart, hfollow, hdirectory⟩
    refine ⟨?_, hdirectory⟩
    rw [follow_cons_cons, hpart]
    exact hfollow

/-- The last part of a path is reached exactly when the parts before it lead to a directory. -/
theorem follow_concat_iff (hstart : tree.sight? location = some .directory) :
    follow tree location (parts ++ [last]) = .ok result ↔
      LeadsTo tree location parts ∧ result = walkUpAndDown location (parts ++ [last]) := by
  induction parts generalizing location with
  | nil =>
    constructor
    · intro h
      exact ⟨leadsTo_nil.2 hstart, follow_eq h⟩
    · rintro ⟨-, rfl⟩
      rfl
  | cons part parts ih =>
    obtain ⟨following, rest, hrest⟩ : ∃ following rest, parts ++ [last] = following :: rest :=
      List.exists_cons_of_ne_nil (by simp)
    rw [List.cons_append, hrest, follow_cons_cons, ← hrest]
    constructor
    · intro h
      split at h
      · rename_i hpart
        obtain ⟨hlead, hresult⟩ := (ih hpart).1 h
        refine ⟨?_, hresult⟩
        cases parts with
        | nil => exact ⟨rfl, hpart⟩
        | cons following parts => exact leadsTo_cons_cons.2 ⟨hpart, hlead⟩
      · exact absurd h (by simp)
      · exact absurd h (by simp)
    · rintro ⟨hlead, hresult⟩
      cases parts with
      | nil =>
        rw [show tree.sight? (stepTo location part) = some .directory from hlead.directory]
        exact (ih hlead.directory).2 ⟨leadsTo_nil.2 hlead.directory, hresult⟩
      | cons following parts =>
        obtain ⟨hpart, hlead⟩ := leadsTo_cons_cons.1 hlead
        rw [hpart]
        exact (ih hpart).2 ⟨hlead, hresult⟩

/-- More directories leave the ways that there are as they are. -/
theorem follow_of_directories
    (hmore : ∀ location, tree.sight? location = some .directory → next.sight? location = some .directory)
    (h : follow tree location parts = .ok result) : follow next location parts = .ok result := by
  induction parts generalizing location with
  | nil => exact h
  | cons part parts ih =>
    cases parts with
    | nil => exact h
    | cons following parts =>
      rw [follow_cons_cons] at h ⊢
      split at h
      · rename_i hpart
        rw [hmore _ hpart]
        exact ih h
      · exact absurd h (by simp)
      · exact absurd h (by simp)

theorem LeadsTo.of_directories (h : LeadsTo tree location parts)
    (hmore : ∀ location, tree.sight? location = some .directory → next.sight? location = some .directory) :
    LeadsTo next location parts :=
  ⟨follow_of_directories hmore h.follow, hmore _ h.directory⟩

/-- Where parts lead to a directory, more parts lead on from there. -/
theorem LeadsTo.append (h : LeadsTo tree location parts) {more : List String}
    (hmore : LeadsTo tree (walkUpAndDown location parts) more) : LeadsTo tree location (parts ++ more) := by
  induction parts generalizing location with
  | nil => exact hmore
  | cons part parts ih =>
    cases parts with
    | nil =>
      cases more with
      | nil => exact h
      | cons following more => exact leadsTo_cons_cons.2 ⟨h.directory, hmore⟩
    | cons following parts =>
      obtain ⟨hpart, hlead⟩ := leadsTo_cons_cons.1 h
      exact leadsTo_cons_cons.2 ⟨hpart, ih hlead hmore⟩

/-- On the way to a directory there are directories. -/
theorem LeadsTo.above (hstart : tree.sight? location = some .directory) (h : LeadsTo tree location parts)
    {front : List String} (hfront : front <+: parts) :
    tree.sight? (walkUpAndDown location front) = some .directory := by
  induction parts generalizing location front with
  | nil =>
    rw [List.prefix_nil.1 hfront]
    exact hstart
  | cons part parts ih =>
    rcases List.prefix_cons_iff.1 hfront with rfl | ⟨rest, rfl, hrest⟩
    · exact hstart
    · show tree.sight? (walkUpAndDown (stepTo location part) rest) = some .directory
      cases parts with
      | nil =>
        rw [List.prefix_nil.1 hrest]
        exact h.directory
      | cons following parts =>
        obtain ⟨hpart, hlead⟩ := leadsTo_cons_cons.1 h
        exact ih hpart hlead hrest

/-- Where no file is on the way, a path that cannot be followed leads through something missing. -/
theorem follow_eq_notFound {refusal : Refusal}
    (hfree : ∀ front back, parts = front ++ back → back ≠ [] →
      ∀ content mode, tree.sight? (walkUpAndDown location front) ≠ some (.file content mode))
    (h : follow tree location parts = .error refusal) : refusal = .notFound := by
  induction parts generalizing location with
  | nil => exact absurd h (by simp [follow])
  | cons part parts ih =>
    cases parts with
    | nil => exact absurd h (by simp [follow])
    | cons following parts =>
      rw [follow_cons_cons] at h
      split at h
      · refine ih (fun front back heq hback => ?_) h
        exact hfree (part :: front) back (by rw [heq, List.cons_append]) hback
      · rename_i content mode hfile
        exact absurd hfile (hfree [part] (following :: parts) rfl (by simp) content mode)
      · exact (Except.error.inj h).symm

/-! ### Locations on a disk -/

variable {disk : Disk} {path : Path}

/-- The current directory is there. -/
def HasCurrent (disk : Disk) : Prop :=
  disk.tree.sight? disk.current = some .directory

theorem hasCurrent_of_top (h : disk.current = []) : disk.HasCurrent := by
  rw [HasCurrent, h]
  exact Tree.sight?_nil disk.tree

theorem hasNull_eq_false_iff {path : Path} :
    hasNull path = false ↔ ∀ part ∈ path.parts, '\x00' ∉ part.toList := by
  rw [hasNull, List.any_eq_false]
  simp only [List.contains_eq_mem, decide_eq_true_eq]

/-- The location that the parts of a path spell. -/
def place (disk : Disk) (path : Path) : Location :=
  walkUpAndDown (disk.start path) path.parts

theorem sight?_start (hcurrent : disk.HasCurrent) (path : Path) :
    disk.tree.sight? (disk.start path) = some .directory := by
  unfold start
  split
  · exact hcurrent
  · exact Tree.sight?_nil disk.tree

theorem locate_eq_ok_iff :
    disk.locate path = .ok location ↔
      hasNull path = false ∧ follow disk.tree (disk.start path) path.parts = .ok location := by
  unfold locate
  split
  · rename_i hnull
    simp [hnull]
  · rename_i hnull
    rw [Bool.not_eq_true] at hnull
    cases follow disk.tree (disk.start path) path.parts <;> simp [Except.mapError, hnull]

theorem locate_eq_place (h : disk.locate path = .ok location) : location = disk.place path :=
  follow_eq (locate_eq_ok_iff.1 h).2

theorem isDirectory_iff :
    disk.isDirectory path = true ↔
      hasNull path = false ∧ LeadsTo disk.tree (disk.start path) path.parts := by
  have hfind : disk.isDirectory path = true ↔
      ∃ location, disk.locate path = .ok location ∧ disk.tree.sight? location = some .directory := by
    unfold isDirectory find?
    cases disk.locate path with
    | error error => simp
    | ok location => simpa [Tree.isDirectoryAt] using Tree.isDirectoryAt_iff
  rw [hfind]
  constructor
  · rintro ⟨location, hlocate, hdirectory⟩
    obtain ⟨hnull, hfollow⟩ := locate_eq_ok_iff.1 hlocate
    obtain rfl := follow_eq hfollow
    exact ⟨hnull, hfollow, hdirectory⟩
  · rintro ⟨hnull, hfollow, hdirectory⟩
    exact ⟨_, locate_eq_ok_iff.2 ⟨hnull, hfollow⟩, hdirectory⟩

/-- A path that leads to no directory leads into one. -/
theorem sight?_dropLast_of_locate (hcurrent : disk.HasCurrent) (h : disk.locate path = .ok location)
    (hplace : disk.tree.sight? location ≠ some .directory) :
    location ≠ [] ∧ disk.tree.sight? location.dropLast = some .directory := by
  have hstart := sight?_start hcurrent path
  obtain ⟨-, hfollow⟩ := locate_eq_ok_iff.1 h
  refine ⟨fun hnil => hplace (hnil ▸ Tree.sight?_nil disk.tree), ?_⟩
  rcases List.eq_nil_or_concat path.parts with hparts | ⟨parts, last, hparts⟩
  · rw [hparts] at hfollow
    rw [← Except.ok.inj hfollow] at hplace
    exact absurd hstart hplace
  · rw [hparts, List.concat_eq_append] at hfollow
    obtain ⟨hlead, rfl⟩ := (follow_concat_iff hstart).1 hfollow
    rw [Path.walkUpAndDown_concat] at hplace ⊢
    unfold stepTo at hplace ⊢
    split at hplace
    · exact absurd (Tree.sight?_dropLast_of_directory hlead.directory) hplace
    · rw [if_neg ‹_›, List.dropLast_concat]
      exact hlead.directory

theorem find?_eq_none_of_read (h : disk.read path = .error (.refused .notFound path)) :
    hasNull path = false ∧ disk.find? path = none := by
  unfold Disk.read at h
  cases hlocate : disk.locate path with
  | error error =>
    rw [hlocate] at h
    obtain rfl := Except.error.inj h
    refine ⟨?_, by rw [find?, hlocate]⟩
    by_contra hnull
    rw [locate, if_pos (by simpa using hnull)] at hlocate
    exact absurd hlocate (by simp)
  | ok location =>
    simp only [hlocate] at h
    refine ⟨(locate_eq_ok_iff.1 hlocate).1, ?_⟩
    rw [find?, hlocate]
    cases hfind : disk.tree.find? location with
    | none => exact hfind
    | some entry => cases entry <;> simp [hfind] at h

/-- Bytes that are read are told by their list, which can be evaluated. -/
theorem eq_ok_of_toList {read : Except FileError ByteArray} {content : ByteArray}
    (h : read.map (fun bytes => bytes.data.toList) = .ok content.data.toList) : read = .ok content := by
  cases read with
  | error error => exact nomatch h
  | ok bytes => exact congrArg Except.ok (ByteArray.ext (Array.toList_inj.1 (Except.ok.inj h)))

theorem read_eq_ok_iff {content : ByteArray} :
    disk.read path = .ok content ↔ ∃ mode, disk.find? path = some (.file content mode) := by
  unfold Disk.read find?
  cases disk.locate path with
  | error error => simp
  | ok location =>
    dsimp only
    rcases disk.tree.find? location with _ | ⟨held, mode⟩ | inside <;> simp

/-! ### Paths without a null character -/

theorem locate_ne_nullInPath (hnull : hasNull path = false) : disk.locate path ≠ .error .nullInPath := by
  unfold locate
  rw [if_neg (by rw [hnull]; simp)]
  cases follow disk.tree (disk.start path) path.parts with
  | error refusal => simp [Except.mapError]
  | ok location => simp [Except.mapError]

theorem read_ne_nullInPath (hnull : hasNull path = false) : disk.read path ≠ .error .nullInPath := by
  unfold Disk.read
  cases hlocate : disk.locate path with
  | error error =>
    intro heq
    obtain rfl := Except.error.inj heq
    exact locate_ne_nullInPath hnull hlocate
  | ok location =>
    dsimp only
    rcases disk.tree.find? location with _ | ⟨content, mode⟩ | inside <;> simp

theorem write_ne_nullInPath (hnull : hasNull path = false) (content : ByteArray) :
    disk.write path content ≠ .error .nullInPath := by
  unfold write
  cases hlocate : disk.locate path with
  | error error =>
    intro heq
    obtain rfl := Except.error.inj heq
    exact locate_ne_nullInPath hnull hlocate
  | ok location =>
    dsimp only
    rcases disk.tree.find? location with _ | ⟨content, mode⟩ | inside <;> simp

/-! ### What is found -/

theorem noNull_of_find? {entry : Entry} (h : disk.find? path = some entry) : hasNull path = false := by
  unfold find? at h
  cases hlocate : disk.locate path with
  | ok location => exact (locate_eq_ok_iff.1 hlocate).1
  | error error =>
    rw [hlocate] at h
    exact absurd h (by simp)

/-- A file that is found is seen at the place that the path spells. -/
theorem sight?_of_find? {content : ByteArray} {mode : Nat} (h : disk.find? path = some (.file content mode)) :
    disk.tree.sight? (disk.place path) = some (.file content mode) := by
  unfold find? at h
  cases hlocate : disk.locate path with
  | ok location =>
    rw [hlocate] at h
    rw [← locate_eq_place hlocate]
    exact Tree.sight?_eq_file_iff.2 h
  | error error =>
    rw [hlocate] at h
    exact absurd h (by simp)

/-- Where nothing is seen at the place that a path spells, it leads nowhere. -/
theorem find?_eq_none_of_sight (h : disk.tree.sight? (disk.place path) = none) : disk.find? path = none := by
  unfold find?
  cases hlocate : disk.locate path with
  | ok location =>
    rw [← locate_eq_place hlocate] at h
    exact Tree.sight?_eq_none_iff.1 h
  | error error => rfl

theorem place_child (disk : Disk) (path : Path) {name : String} (hname : name ≠ "..") :
    disk.place (path.child name) = disk.place path ++ [name] := by
  rw [place, Path.child, Path.walkUpAndDown_concat, stepTo, if_neg hname]
  rfl

theorem hasNull_parent (h : hasNull path = false) : hasNull path.parent = false := by
  rw [hasNull, List.any_eq_false] at h ⊢
  exact fun part hpart => h part (List.dropLast_subset path.parts hpart)

end Disk

end FfiBindings
