import FfiBindings.Proofs.Tree.Names

/-!
Proper directory trees: every entry has a name that a file can have and that a path can spell, and no two
entries of a directory share one. So the names in a directory are told by what is seen there
(`mem_names_iff`), and the names that lead to an entry can be spelled (`isEntryName_of_find?`). That no two
entries share a name stays so whatever entries come or go (`isDistinct_putAt`, `isDistinct_eraseAt`), and a tree
stays proper where the names that come are names of entries (`isProper_putAt`).
-/

set_option autoImplicit false
set_option relaxedAutoImplicit false

namespace FfiBindings

/-- Whether an entry of a directory can have the name. -/
def isEntryName (name : String) : Bool :=
  isFileName name && Path.isPlainPart name

theorem isFileName_of_isEntryName {name : String} (h : isEntryName name = true) :
    isFileName name = true := by
  rw [isEntryName, Bool.and_eq_true] at h
  exact h.1

theorem isPlainPart_of_isEntryName {name : String} (h : isEntryName name = true) :
    Path.isPlainPart name = true := by
  rw [isEntryName, Bool.and_eq_true] at h
  exact h.2

namespace Tree

/-- Whether all entries have names that entries can have, different ones in each directory. -/
def isProper : Tree → Bool
  | .empty => true
  | .file name _ _ rest => isEntryName name && !rest.names.contains name && rest.isProper
  | .directory name inside rest =>
    isEntryName name && !rest.names.contains name && inside.isProper && rest.isProper

variable {tree inside : Tree} {location : Location} {name : String} {entry : Entry}

theorem isProper_file {content : ByteArray} {mode : Nat} {rest : Tree} :
    (Tree.file name content mode rest).isProper = true ↔
      isEntryName name = true ∧ name ∉ rest.names ∧ rest.isProper = true := by
  rw [isProper, Bool.and_eq_true, Bool.and_eq_true, Bool.not_eq_true', List.contains_eq_mem,
    decide_eq_false_iff_not, and_assoc]

theorem isProper_directory {rest : Tree} :
    (Tree.directory name inside rest).isProper = true ↔
      isEntryName name = true ∧ name ∉ rest.names ∧ inside.isProper = true ∧ rest.isProper = true := by
  rw [isProper, Bool.and_eq_true, Bool.and_eq_true, Bool.and_eq_true, Bool.not_eq_true',
    List.contains_eq_mem, decide_eq_false_iff_not, and_assoc, and_assoc]

/-- Whether the entries of each directory have different names. -/
def isDistinct : Tree → Bool
  | .empty => true
  | .file name _ _ rest => !rest.names.contains name && rest.isDistinct
  | .directory name inside rest => !rest.names.contains name && inside.isDistinct && rest.isDistinct

theorem isDistinct_file {content : ByteArray} {mode : Nat} {rest : Tree} :
    (Tree.file name content mode rest).isDistinct = true ↔
      name ∉ rest.names ∧ rest.isDistinct = true := by
  rw [isDistinct, Bool.and_eq_true, Bool.not_eq_true', List.contains_eq_mem, decide_eq_false_iff_not]

theorem isDistinct_directory {rest : Tree} :
    (Tree.directory name inside rest).isDistinct = true ↔
      name ∉ rest.names ∧ inside.isDistinct = true ∧ rest.isDistinct = true := by
  rw [isDistinct, Bool.and_eq_true, Bool.and_eq_true, Bool.not_eq_true', List.contains_eq_mem,
    decide_eq_false_iff_not, and_assoc]

theorem isDistinct_of_isProper (h : tree.isProper = true) : tree.isDistinct = true := by
  induction tree with
  | empty => rfl
  | file name content mode rest ih =>
    obtain ⟨-, hfree, hrest⟩ := isProper_file.1 h
    exact isDistinct_file.2 ⟨hfree, ih hrest⟩
  | directory name inside rest ihinside ihrest =>
    obtain ⟨-, hfree, hinside, hrest⟩ := isProper_directory.1 h
    exact isDistinct_directory.2 ⟨hfree, ihinside hinside, ihrest hrest⟩

theorem isNamed_of_isProper (h : tree.isProper = true) : tree.isNamed = true := by
  induction tree with
  | empty => rfl
  | file name content mode rest ih =>
    obtain ⟨hname, -, hrest⟩ := isProper_file.1 h
    rw [isNamed, isFileName_of_isEntryName hname, ih hrest, Bool.and_self]
  | directory name inside rest ihinside ihrest =>
    obtain ⟨hname, -, hinside, hrest⟩ := isProper_directory.1 h
    rw [isNamed, isFileName_of_isEntryName hname, ihinside hinside, ihrest hrest, Bool.and_self,
      Bool.and_self]

theorem mem_names_iff : name ∈ tree.names ↔ tree.sight? [name] ≠ none := by
  rw [sight?_cons]
  induction tree with
  | empty => simp [names, get?]
  | file other content mode rest ih =>
    rw [names, List.mem_cons, ih, get?]
    by_cases hname : other = name
    · simp [hname, Entry.sight?]
    · simp [hname, Ne.symm hname]
  | directory other inside rest _ ih =>
    rw [names, List.mem_cons, ih, get?]
    by_cases hname : other = name
    · simp [hname, Entry.sight?, sight?_nil]
    · simp [hname, Ne.symm hname]

/-! ### What is seen among the entries -/

theorem fileAt_file_iff {content : ByteArray} {mode : Nat} {rest : Tree} {part : String}
    {below : Location} :
    (Tree.file name content mode rest).FileAt (part :: below) ↔
      (part = name ∧ below = []) ∨ (part ≠ name ∧ rest.FileAt (part :: below)) := by
  unfold FileAt
  rw [sight?_cons, sight?_cons, get?]
  by_cases hname : name = part
  · cases below <;> simp [hname, Entry.sight?]
  · simp [hname, Ne.symm hname]

theorem fileAt_directory_iff {rest : Tree} {part : String} {below : Location} :
    (Tree.directory name inside rest).FileAt (part :: below) ↔
      (part = name ∧ inside.FileAt below) ∨ (part ≠ name ∧ rest.FileAt (part :: below)) := by
  unfold FileAt
  rw [sight?_cons, sight?_cons, get?]
  by_cases hname : name = part
  · simp [hname, Entry.sight?]
  · simp [hname, Ne.symm hname]

/-- What leads to a file begins with a name of the directory. -/
theorem FileAt.mem_names {part : String} {below : Location} (h : tree.FileAt (part :: below)) :
    part ∈ tree.names := by
  refine mem_names_iff.2 fun hnone => h.ne_none ?_
  rw [sight?_cons] at hnone ⊢
  cases hentry : tree.get? part with
  | none => rfl
  | some entry =>
    rw [hentry, Option.bind_some, sight?_entry_nil] at hnone
    exact absurd hnone (by simp)

/-! ### The names that lead to an entry -/

theorem goesDown_isProper : GoesDown (fun tree => tree.isProper = true) (fun name => isEntryName name = true) where
  file name content mode rest h := by
    obtain ⟨hname, -, hrest⟩ := isProper_file.1 h
    exact ⟨hname, hrest⟩
  directory name inside rest h := by
    obtain ⟨hname, -, hinside, hrest⟩ := isProper_directory.1 h
    exact ⟨hname, hinside, hrest⟩

theorem goesDown_isDistinct : GoesDown (fun tree => tree.isDistinct = true) (fun _ => True) where
  file _ _ _ _ h := ⟨trivial, (isDistinct_file.1 h).2⟩
  directory _ _ _ h := ⟨trivial, (isDistinct_directory.1 h).2⟩

/-- The names that lead to an entry are names of entries, and what is in a directory is proper too. -/
theorem isEntryName_of_find? (hproper : tree.isProper = true) (h : tree.find? location = some entry) :
    (∀ part ∈ location, isEntryName part = true) ∧
      ∀ inside, entry = .directory inside → inside.isProper = true :=
  goesDown_isProper.of_find? hproper h

theorem isEntryName_of_sight {sight : Sight} (hproper : tree.isProper = true)
    (h : tree.sight? location = some sight) : ∀ part ∈ location, isEntryName part = true := by
  rw [sight?, Option.map_eq_some_iff] at h
  obtain ⟨entry, hentry, -⟩ := h
  exact (isEntryName_of_find? hproper hentry).1

/-! ### Putting and erasing -/

theorem isDistinct_of_get? (hdistinct : tree.isDistinct = true) (h : tree.get? name = some (.directory inside)) :
    inside.isDistinct = true :=
  (goesDown_isDistinct.of_get? hdistinct h).2 inside rfl

theorem isDistinct_of_find? (hdistinct : tree.isDistinct = true)
    (h : tree.find? location = some (.directory inside)) : inside.isDistinct = true :=
  (goesDown_isDistinct.of_find? hdistinct h).2 inside rfl

/-- Whether what is in an entry is distinct. -/
def isDistinctEntry : Entry → Bool
  | .file _ _ => true
  | .directory inside => inside.isDistinct

theorem isDistinct_cons {rest : Tree} :
    (cons name entry rest).isDistinct = true ↔
      name ∉ rest.names ∧ isDistinctEntry entry = true ∧ rest.isDistinct = true := by
  cases entry with
  | file content mode => rw [cons, isDistinct_file, isDistinctEntry]; simp
  | directory inside => rw [cons, isDistinct_directory, isDistinctEntry]

theorem mem_names_put (tree : Tree) (entry : Entry) {name third : String} (h : third ≠ name) :
    third ∈ (tree.put name entry).names ↔ third ∈ tree.names := by
  rw [mem_names_iff, mem_names_iff, sight?_put_other entry tree h.symm]

theorem isDistinct_put (name : String) (hentry : isDistinctEntry entry = true)
    (hdistinct : tree.isDistinct = true) : (tree.put name entry).isDistinct = true := by
  induction tree with
  | empty => exact isDistinct_cons.2 ⟨by simp [names], hentry, rfl⟩
  | file other content mode rest ih =>
    obtain ⟨hfree, hrest⟩ := isDistinct_file.1 hdistinct
    rw [put]
    split
    · rename_i heq
      exact isDistinct_cons.2 ⟨heq ▸ hfree, hentry, hrest⟩
    · rename_i hne
      exact isDistinct_file.2 ⟨by rwa [mem_names_put rest entry hne], ih hrest⟩
  | directory other inside rest _ ih =>
    obtain ⟨hfree, hinside, hrest⟩ := isDistinct_directory.1 hdistinct
    rw [put]
    split
    · rename_i heq
      exact isDistinct_cons.2 ⟨heq ▸ hfree, hentry, hrest⟩
    · rename_i hne
      exact isDistinct_directory.2 ⟨by rwa [mem_names_put rest entry hne], hinside, ih hrest⟩

theorem names_erase_subset (name : String) (tree : Tree) : (tree.erase name).names ⊆ tree.names := by
  induction tree with
  | empty => exact List.Subset.refl []
  | file other content mode rest ih =>
    rw [erase]
    split
    · exact List.subset_cons_of_subset other ih
    · exact List.cons_subset_cons other ih
  | directory other inside rest _ ih =>
    rw [erase]
    split
    · exact List.subset_cons_of_subset other ih
    · exact List.cons_subset_cons other ih

theorem isDistinct_erase (name : String) (hdistinct : tree.isDistinct = true) :
    (tree.erase name).isDistinct = true := by
  induction tree with
  | empty => rfl
  | file other content mode rest ih =>
    obtain ⟨hfree, hrest⟩ := isDistinct_file.1 hdistinct
    rw [erase]
    split
    · exact ih hrest
    · exact isDistinct_file.2 ⟨fun hmem => hfree (names_erase_subset name rest hmem), ih hrest⟩
  | directory other inside rest _ ih =>
    obtain ⟨hfree, hinside, hrest⟩ := isDistinct_directory.1 hdistinct
    rw [erase]
    split
    · exact ih hrest
    · exact isDistinct_directory.2
        ⟨fun hmem => hfree (names_erase_subset name rest hmem), hinside, ih hrest⟩

theorem isDistinct_putAt (location : Location) (hentry : isDistinctEntry entry = true)
    (hdistinct : tree.isDistinct = true) : (tree.putAt entry location).isDistinct = true := by
  induction location generalizing tree with
  | nil => exact hdistinct
  | cons name below ih =>
    cases below with
    | nil => exact isDistinct_put name hentry hdistinct
    | cons following below =>
      rw [putAt]
      · split
        · rename_i inside hinside
          exact isDistinct_put name (ih (isDistinct_of_get? hdistinct hinside)) hdistinct
        · exact hdistinct
      · simp

theorem isDistinct_eraseAt (location : Location) (hdistinct : tree.isDistinct = true) :
    (tree.eraseAt location).isDistinct = true := by
  induction location generalizing tree with
  | nil => exact hdistinct
  | cons name below ih =>
    cases below with
    | nil => exact isDistinct_erase name hdistinct
    | cons following below =>
      rw [eraseAt]
      · split
        · rename_i inside hinside
          exact isDistinct_put name (ih (isDistinct_of_get? hdistinct hinside)) hdistinct
        · exact hdistinct
      · simp

/-- Whether what is in an entry is proper. -/
def isProperEntry : Entry → Bool
  | .file _ _ => true
  | .directory inside => inside.isProper

theorem isProper_cons {rest : Tree} :
    (cons name entry rest).isProper = true ↔
      isEntryName name = true ∧ name ∉ rest.names ∧ isProperEntry entry = true ∧ rest.isProper = true := by
  cases entry with
  | file content mode => rw [cons, isProper_file, isProperEntry]; simp
  | directory inside => rw [cons, isProper_directory, isProperEntry]

theorem isProper_put (hname : isEntryName name = true) (hentry : isProperEntry entry = true)
    (hproper : tree.isProper = true) : (tree.put name entry).isProper = true := by
  induction tree with
  | empty => exact isProper_cons.2 ⟨hname, by simp [names], hentry, rfl⟩
  | file other content mode rest ih =>
    obtain ⟨hother, hfree, hrest⟩ := isProper_file.1 hproper
    rw [put]
    split
    · rename_i heq
      exact isProper_cons.2 ⟨hname, heq ▸ hfree, hentry, hrest⟩
    · rename_i hne
      exact isProper_file.2 ⟨hother, by rwa [mem_names_put rest entry hne], ih hrest⟩
  | directory other inside rest _ ih =>
    obtain ⟨hother, hfree, hinside, hrest⟩ := isProper_directory.1 hproper
    rw [put]
    split
    · rename_i heq
      exact isProper_cons.2 ⟨hname, heq ▸ hfree, hentry, hrest⟩
    · rename_i hne
      exact isProper_directory.2 ⟨hother, by rwa [mem_names_put rest entry hne], hinside, ih hrest⟩

theorem isProper_putAt (hnames : ∀ part ∈ location, isEntryName part = true)
    (hentry : isProperEntry entry = true) (hproper : tree.isProper = true) :
    (tree.putAt entry location).isProper = true := by
  induction location generalizing tree with
  | nil => exact hproper
  | cons name below ih =>
    obtain ⟨hname, hbelow⟩ := List.forall_mem_cons.1 hnames
    cases below with
    | nil => exact isProper_put hname hentry hproper
    | cons following below =>
      rw [putAt]
      · split
        · rename_i inside hinside
          exact isProper_put hname (ih hbelow ((goesDown_isProper.of_get? hproper hinside).2 inside rfl)) hproper
        · exact hproper
      · simp

end Tree

end FfiBindings
