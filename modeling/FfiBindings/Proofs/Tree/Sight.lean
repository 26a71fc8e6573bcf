import FfiBindings.Tree.Basic
import Mathlib.Tactic.Common

/-!
What is seen at the locations of a tree: a file with its bytes and its permission bits, or that there is
a directory. Two trees that show the same everywhere hold the same files. What putting an entry into a
tree and erasing one change is told for all locations at once (`sight?_putAt`, `sight?_eraseAt`), and for
entries that nothing is seen below it comes down to a single location (`sight?_putAt_leaf`,
`sight?_eraseAt_leaf`). Above everything that is seen there are directories (`sight?_above`).
-/

set_option autoImplicit false
set_option relaxedAutoImplicit false

namespace FfiBindings

/-- An entry without what is in it. -/
inductive Sight where
  | file (content : ByteArray) (mode : Nat)
  | directory

/-- Files are compared by their bytes and their permission bits. -/
instance : DecidableEq Sight
  | .file content mode, .file other otherMode =>
    decidable_of_iff (content.data = other.data ∧ mode = otherMode) (by
      rw [Sight.file.injEq, ByteArray.ext_iff])
  | .file .., .directory => isFalse nofun
  | .directory, .file .. => isFalse nofun
  | .directory, .directory => isTrue rfl

def Entry.sight : Entry → Sight
  | .file content mode => .file content mode
  | .directory _ => .directory

namespace Tree

/-- What is seen at a location. -/
def sight? (tree : Tree) (location : Location) : Option Sight :=
  (tree.find? location).map Entry.sight

end Tree

/-- What is seen below an entry, or of the entry itself. -/
def Entry.sight? (entry : Entry) (below : Location) : Option Sight :=
  match entry with
  | .file content mode => if below = [] then some (.file content mode) else none
  | .directory inside => inside.sight? below

/-- Nothing is seen below the entry. -/
def Entry.IsLeaf (entry : Entry) : Prop :=
  ∀ below, below ≠ [] → entry.sight? below = none

namespace Tree

variable {tree : Tree} {location other : Location}

theorem sight?_nil (tree : Tree) : tree.sight? [] = some .directory := by
  cases tree <;> rfl

theorem sight?_entry_nil (entry : Entry) : entry.sight? [] = some entry.sight := by
  cases entry with
  | file content mode => rfl
  | directory inside => exact sight?_nil inside

theorem sight?_cons (tree : Tree) (name : String) (below : Location) :
    tree.sight? (name :: below) = (tree.get? name).bind (·.sight? below) := by
  unfold sight?
  rw [find?]
  cases hentry : tree.get? name with
  | none => rfl
  | some entry =>
    cases entry with
    | directory inside => rfl
    | file content mode => cases below <;> rfl

theorem sight?_eq_directory_iff :
    tree.sight? location = some .directory ↔ ∃ inside, tree.find? location = some (.directory inside) := by
  unfold sight?
  cases tree.find? location with
  | none => simp
  | some entry => cases entry <;> simp [Entry.sight]

theorem sight?_eq_file_iff {content : ByteArray} {mode : Nat} :
    tree.sight? location = some (.file content mode) ↔
      tree.find? location = some (.file content mode) := by
  unfold sight?
  cases tree.find? location with
  | none => simp
  | some entry => cases entry <;> simp [Entry.sight]

theorem sight?_eq_none_iff : tree.sight? location = none ↔ tree.find? location = none := by
  unfold sight?
  cases tree.find? location <;> simp

theorem isDirectoryAt_iff : tree.isDirectoryAt location = true ↔ tree.sight? location = some .directory := by
  unfold isDirectoryAt sight?
  cases tree.find? location with
  | none => simp
  | some entry => cases entry <;> simp [Entry.sight, Entry.isDirectory]

/-! ### Above and below -/

theorem sight?_append {inside : Tree} (h : tree.find? location = some (.directory inside))
    (below : Location) : tree.sight? (location ++ below) = inside.sight? below := by
  induction location generalizing tree with
  | nil =>
    obtain rfl : tree = inside := by simpa [find?] using h
    rfl
  | cons name location ih =>
    rw [List.cons_append, sight?_cons]
    rw [find?] at h
    cases hentry : tree.get? name with
    | none => simp [hentry] at h
    | some entry =>
      cases entry with
      | directory next =>
        simp only [hentry] at h
        exact ih h
      | file content mode => simp [hentry] at h

/-- Above whatever is seen there is a directory. -/
theorem sight?_above {below : Location} (hbelow : below ≠ [])
    (h : tree.sight? (location ++ below) ≠ none) : tree.sight? location = some .directory := by
  induction location generalizing tree with
  | nil => exact sight?_nil tree
  | cons name location ih =>
    rw [List.cons_append, sight?_cons] at h
    rw [sight?_cons]
    cases hentry : tree.get? name with
    | none => simp [hentry] at h
    | some entry =>
      rw [hentry] at h
      cases entry with
      | directory inside => exact ih h
      | file content mode => simp [Entry.sight?, hbelow] at h

theorem sight?_dropLast (hlocation : location ≠ []) (h : tree.sight? location ≠ none) :
    tree.sight? location.dropLast = some .directory := by
  refine sight?_above (List.cons_ne_nil (location.getLast hlocation) []) ?_
  rwa [List.dropLast_concat_getLast]

theorem sight?_dropLast_of_directory (h : tree.sight? location = some .directory) :
    tree.sight? location.dropLast = some .directory := by
  by_cases hlocation : location = []
  · rw [hlocation]
    exact sight?_nil tree
  · exact sight?_dropLast hlocation (by rw [h]; simp)

theorem sight?_of_prefix_directory (h : tree.sight? location = some .directory)
    (habove : other <+: location) : tree.sight? other = some .directory := by
  obtain ⟨below, rfl⟩ := habove
  by_cases hbelow : below = []
  · rwa [hbelow, List.append_nil] at h
  · exact sight?_above hbelow (by rw [h]; simp)

/-- Nothing is seen below a location without a directory. -/
theorem sight?_append_eq_none {below : Location} (hbelow : below ≠ [])
    (h : tree.sight? location ≠ some .directory) : tree.sight? (location ++ below) = none := by
  by_contra hsome
  exact h (sight?_above hbelow hsome)

/-! ### Files -/

/-- A file is seen at the location. -/
def FileAt (tree : Tree) (location : Location) : Prop :=
  ∃ content mode, tree.sight? location = some (.file content mode)

theorem fileAt_congr {next : Tree} (h : next.sight? location = tree.sight? location) :
    next.FileAt location ↔ tree.FileAt location := by
  rw [FileAt, h, FileAt]

theorem sight?_cases (tree : Tree) (location : Location) :
    tree.sight? location = none ∨ tree.sight? location = some .directory ∨ tree.FileAt location := by
  rcases hsight : tree.sight? location with _ | ⟨content, mode⟩ | _
  · exact .inl rfl
  · exact .inr (.inr ⟨content, mode, hsight⟩)
  · exact .inr (.inl rfl)

namespace FileAt

theorem ne_none (h : tree.FileAt location) : tree.sight? location ≠ none := by
  obtain ⟨content, mode, hfile⟩ := h
  rw [hfile]
  simp

theorem ne_directory (h : tree.FileAt location) : tree.sight? location ≠ some .directory := by
  obtain ⟨content, mode, hfile⟩ := h
  rw [hfile]
  simp

theorem above {below : Location} (hbelow : below ≠ []) (h : tree.FileAt (location ++ below)) :
    tree.sight? location = some .directory :=
  sight?_above hbelow h.ne_none

end FileAt

/-! ### Putting and erasing -/

theorem get?_erase_same (name : String) (tree : Tree) : (tree.erase name).get? name = none := by
  induction tree with
  | empty => rfl
  | file other content mode rest ih =>
    by_cases h : other = name <;> simp [erase, h, get?, ih]
  | directory other inside rest _ ih =>
    by_cases h : other = name <;> simp [erase, h, get?, ih]

theorem get?_erase_other {name third : String} (tree : Tree) (h : name ≠ third) :
    (tree.erase name).get? third = tree.get? third := by
  induction tree with
  | empty => rfl
  | file other content mode rest ih =>
    by_cases hother : other = name
    · subst hother
      simp [erase, get?, h, ih]
    · simp [erase, hother, get?, ih]
  | directory other inside rest _ ih =>
    by_cases hother : other = name
    · subst hother
      simp [erase, get?, h, ih]
    · simp [erase, hother, get?, ih]

theorem sight?_put_same (name : String) (entry : Entry) (tree : Tree) (below : Location) :
    (tree.put name entry).sight? (name :: below) = entry.sight? below := by
  rw [sight?_cons, get?_put_same]
  rfl

theorem sight?_put_other {name third : String} (entry : Entry) (tree : Tree) (h : name ≠ third)
    (below : Location) : (tree.put name entry).sight? (third :: below) = tree.sight? (third :: below) := by
  rw [sight?_cons, sight?_cons, get?_put_other entry tree h]

/-- Whatever is done to the inside of a directory shows there and nowhere else. -/
theorem sight?_put_directory (change : Location → Option Sight) {name : String} {inside next : Tree}
    (hdirectory : tree.get? name = some (.directory inside)) {below : Location}
    (hnext : ∀ other, next.sight? other =
      if below <+: other then change (other.drop below.length) else inside.sight? other)
    (other : Location) :
    (tree.put name (.directory next)).sight? other =
      if name :: below <+: other then change (other.drop (name :: below).length)
      else tree.sight? other := by
  cases other with
  | nil => simp [sight?_nil]
  | cons third other =>
    by_cases hname : name = third
    · subst hname
      rw [sight?_put_same, sight?_cons, hdirectory, Option.bind_some]
      simpa [Entry.sight?, List.cons_prefix_cons] using hnext other
    · rw [sight?_put_other _ _ hname]
      simp [List.cons_prefix_cons, hname]

theorem get?_eq_directory {name : String} {below : Location} (hbelow : below ≠ [])
    (h : tree.sight? (name :: below).dropLast = some .directory) :
    ∃ inside, tree.get? name = some (.directory inside) ∧
      inside.sight? below.dropLast = some .directory := by
  rw [List.dropLast_cons_of_ne_nil hbelow, sight?_cons] at h
  cases hentry : tree.get? name with
  | none => simp [hentry] at h
  | some entry =>
    rw [hentry, Option.bind_some] at h
    cases entry with
    | directory inside => exact ⟨inside, rfl, h⟩
    | file content mode =>
      simp only [Entry.sight?] at h
      split at h <;> simp at h

/-- An entry that is put into a directory is seen at its location with all that is below it. -/
theorem sight?_putAt (entry : Entry) (hlocation : location ≠ [])
    (hparent : tree.sight? location.dropLast = some .directory) (other : Location) :
    (tree.putAt entry location).sight? other =
      if location <+: other then entry.sight? (other.drop location.length) else tree.sight? other := by
  induction location generalizing tree other with
  | nil => exact absurd rfl hlocation
  | cons name below ih =>
    cases below with
    | nil =>
      rw [putAt]
      cases other with
      | nil => simp [sight?_nil]
      | cons third other =>
        by_cases hname : name = third
        · subst hname
          rw [sight?_put_same]
          simp
        · rw [sight?_put_other _ _ hname]
          simp [List.cons_prefix_cons, hname]
    | cons next below =>
      obtain ⟨inside, hentry, hinside⟩ := get?_eq_directory (List.cons_ne_nil next below) hparent
      simp only [putAt, hentry]
      exact sight?_put_directory entry.sight? hentry (ih (List.cons_ne_nil next below) hinside) other

/-- Nothing is seen any more where an entry is erased, nor below. -/
theorem sight?_eraseAt (hlocation : location ≠ [])
    (hparent : tree.sight? location.dropLast = some .directory) (other : Location) :
    (tree.eraseAt location).sight? other = if location <+: other then none else tree.sight? other := by
  induction location generalizing tree other with
  | nil => exact absurd rfl hlocation
  | cons name below ih =>
    cases below with
    | nil =>
      rw [eraseAt]
      cases other with
      | nil => simp [sight?_nil]
      | cons third other =>
        by_cases hname : name = third
        · subst hname
          rw [sight?_cons, get?_erase_same]
          simp
        · rw [sight?_cons, sight?_cons, get?_erase_other _ hname]
          simp [List.cons_prefix_cons, hname]
    | cons next below =>
      obtain ⟨inside, hentry, hinside⟩ := get?_eq_directory (List.cons_ne_nil next below) hparent
      simp only [eraseAt, hentry]
      exact sight?_put_directory (fun _ => none) hentry (ih (List.cons_ne_nil next below) hinside) other

/-! ### At a single location -/

theorem isLeaf_file (content : ByteArray) (mode : Nat) : (Entry.file content mode).IsLeaf := by
  intro below hbelow
  simp [Entry.sight?, hbelow]

theorem isLeaf_empty : (Entry.directory .empty).IsLeaf := by
  intro below hbelow
  cases below with
  | nil => exact absurd rfl hbelow
  | cons name below => rfl

/-- Where no directory is, an entry with nothing below it changes what is seen there, and nothing else. -/
theorem sight?_putAt_leaf {entry : Entry} (hleaf : entry.IsLeaf) (hlocation : location ≠ [])
    (hparent : tree.sight? location.dropLast = some .directory)
    (hplace : tree.sight? location ≠ some .directory) (other : Location) :
    (tree.putAt entry location).sight? other =
      if other = location then some entry.sight else tree.sight? other := by
  rw [sight?_putAt entry hlocation hparent]
  by_cases habove : location <+: other
  · obtain ⟨below, rfl⟩ := habove
    by_cases hbelow : below = []
    · subst hbelow
      simp [sight?_entry_nil]
    · simp [hbelow, hleaf below hbelow, sight?_append_eq_none hbelow hplace]
  · rw [if_neg habove, if_neg]
    rintro rfl
    exact habove (List.prefix_refl other)

theorem sight?_eraseAt_leaf (hlocation : location ≠ [])
    (hparent : tree.sight? location.dropLast = some .directory)
    (hplace : tree.sight? location ≠ some .directory) (other : Location) :
    (tree.eraseAt location).sight? other = if other = location then none else tree.sight? other := by
  rw [sight?_eraseAt hlocation hparent]
  by_cases habove : location <+: other
  · obtain ⟨below, rfl⟩ := habove
    by_cases hbelow : below = []
    · simp [hbelow]
    · simp [hbelow, sight?_append_eq_none hbelow hplace]
  · rw [if_neg habove, if_neg]
    rintro rfl
    exact habove (List.prefix_refl other)

/-- The second tree shows what the first one does but for the location, where it has no directory. -/
structure DiffersAt (tree next : Tree) (location : Location) : Prop where
  others : ∀ other, other ≠ location → next.sight? other = tree.sight? other
  place : next.sight? location ≠ some .directory

namespace DiffersAt

variable {next : Tree}

theorem refl (hplace : tree.sight? location ≠ some .directory) : DiffersAt tree tree location :=
  ⟨fun _ _ => rfl, hplace⟩

theorem parent (h : DiffersAt tree next location) (hlocation : location ≠ [])
    (hparent : tree.sight? location.dropLast = some .directory) :
    next.sight? location.dropLast = some .directory := by
  rw [h.others, hparent]
  intro heq
  have hlength := congrArg List.length heq
  have hpositive := List.length_pos_iff.2 hlocation
  rw [List.length_dropLast] at hlength
  omega

theorem sight?_putAt (h : DiffersAt tree next location) (hlocation : location ≠ [])
    (hparent : tree.sight? location.dropLast = some .directory) (content : ByteArray) (mode : Nat)
    (other : Location) :
    (next.putAt (.file content mode) location).sight? other =
      if other = location then some (.file content mode) else tree.sight? other := by
  rw [sight?_putAt_leaf (isLeaf_file content mode) hlocation (h.parent hlocation hparent) h.place]
  split
  · rfl
  · exact h.others other ‹_›

theorem putAt (h : DiffersAt tree next location) (hlocation : location ≠ [])
    (hparent : tree.sight? location.dropLast = some .directory) (content : ByteArray) (mode : Nat) :
    DiffersAt tree (next.putAt (.file content mode) location) location := by
  have hsight := h.sight?_putAt hlocation hparent content mode
  refine ⟨fun other hother => ?_, ?_⟩
  · rw [hsight, if_neg hother]
  · rw [hsight, if_pos rfl]
    simp

theorem sight?_eraseAt (h : DiffersAt tree next location) (hlocation : location ≠ [])
    (hparent : tree.sight? location.dropLast = some .directory) (other : Location) :
    (next.eraseAt location).sight? other = if other = location then none else tree.sight? other := by
  rw [sight?_eraseAt_leaf hlocation (h.parent hlocation hparent) h.place]
  split
  · rfl
  · exact h.others other ‹_›

end DiffersAt

/-- A name that is not among those of a directory is free there. -/
theorem get?_eq_none {name : String} (h : name ∉ tree.names) : tree.get? name = none := by
  induction tree with
  | empty => rfl
  | file other content mode rest ih =>
    rw [names, List.mem_cons, not_or] at h
    rw [get?, if_neg (Ne.symm h.1), ih h.2]
  | directory other inside rest _ ih =>
    rw [names, List.mem_cons, not_or] at h
    rw [get?, if_neg (Ne.symm h.1), ih h.2]

end Tree

end FfiBindings
