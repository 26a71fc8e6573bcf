import FfiBindings.Proofs.Tree.Way

/-!
The names in a directory tree. What holds of all directories in a tree and of their names is met with at every
entry that names lead to (`GoesDown.of_find?`), so those are names that a file can have (`isFileName_of_find?`).
Trees that differ in what their files hold alone (`SameNames`) let the same paths lead to entries of one kind
(`Disk.find?_alike`); new content for a file that is there makes such a tree (`sameNames_putAt`).
-/

set_option autoImplicit false
set_option relaxedAutoImplicit false

namespace FfiBindings

/-- Whether a file can have the name. -/
def isFileName (name : String) : Bool :=
  name != ".." && !name.toList.contains '\x00'

theorem ne_of_isFileName {name : String} (h : isFileName name = true) : name ≠ ".." := by
  intro heq
  rw [heq] at h
  exact absurd h (by decide)

theorem notMem_of_isFileName {name : String} (h : isFileName name = true) : '\x00' ∉ name.toList := by
  rw [isFileName, Bool.and_eq_true, Bool.not_eq_true', List.contains_eq_mem, decide_eq_false_iff_not] at h
  exact h.2

namespace Tree

variable {tree next inside : Tree} {location : Location} {name : String}

/-! ### What goes down a tree -/

/-- A property that all directories in a tree have with it, and a property of the names of their entries. -/
structure GoesDown (holds : Tree → Prop) (fits : String → Prop) : Prop where
  file : ∀ name content mode rest, holds (.file name content mode rest) → fits name ∧ holds rest
  directory : ∀ name inside rest, holds (.directory name inside rest) → fits name ∧ holds inside ∧ holds rest

theorem goesDown_true : GoesDown (fun _ => True) (fun _ => True) where
  file _ _ _ _ h := ⟨h, h⟩
  directory _ _ _ h := ⟨h, h, h⟩

namespace GoesDown

variable {holds : Tree → Prop} {fits : String → Prop} {entry : Entry}

theorem of_get? (h : GoesDown holds fits) (htree : holds tree) (hentry : tree.get? name = some entry) :
    fits name ∧ ∀ inside, entry = .directory inside → holds inside := by
  induction tree with
  | empty => exact absurd hentry (by simp [get?])
  | file other content mode rest ih =>
    obtain ⟨hother, hrest⟩ := h.file other content mode rest htree
    rw [get?] at hentry
    split at hentry
    · rename_i heq
      obtain rfl := Option.some.inj hentry
      exact ⟨heq ▸ hother, fun inside hinside => absurd hinside (by simp)⟩
    · exact ih hrest hentry
  | directory other below rest _ ih =>
    obtain ⟨hother, hbelow, hrest⟩ := h.directory other below rest htree
    rw [get?] at hentry
    split at hentry
    · rename_i heq
      obtain rfl := Option.some.inj hentry
      exact ⟨heq ▸ hother, fun inside hinside => Entry.directory.inj hinside ▸ hbelow⟩
    · exact ih hrest hentry

theorem of_find? (h : GoesDown holds fits) (htree : holds tree) (hentry : tree.find? location = some entry) :
    (∀ part ∈ location, fits part) ∧ ∀ inside, entry = .directory inside → holds inside := by
  induction location generalizing tree with
  | nil =>
    obtain rfl := Option.some.inj hentry
    exact ⟨by simp, fun inside hinside => Entry.directory.inj hinside ▸ htree⟩
  | cons name below ih =>
    rw [find?] at hentry
    split at hentry
    · rename_i inside hget
      obtain ⟨hname, hinside⟩ := h.of_get? htree hget
      obtain ⟨hbelow, hlast⟩ := ih (hinside inside rfl) hentry
      exact ⟨List.forall_mem_cons.2 ⟨hname, hbelow⟩, hlast⟩
    · rename_i content mode hget
      split at hentry
      · rename_i hempty
        obtain rfl := Option.some.inj hentry
        rw [List.isEmpty_iff.1 hempty]
        exact ⟨by simpa using (h.of_get? htree hget).1, fun inside hinside => absurd hinside (by simp)⟩
      · exact absurd hentry (by simp)
    · exact absurd hentry (by simp)

end GoesDown

/-- Whether every entry has a name that a file can have. -/
def isNamed : Tree → Bool
  | .empty => true
  | .file name _ _ rest => isFileName name && rest.isNamed
  | .directory name inside rest => isFileName name && inside.isNamed && rest.isNamed

theorem goesDown_isNamed : GoesDown (fun tree => tree.isNamed = true) (fun name => isFileName name = true) where
  file name content mode rest h := by
    rwa [isNamed, Bool.and_eq_true] at h
  directory name inside rest h := by
    rwa [isNamed, Bool.and_eq_true, Bool.and_eq_true, and_assoc] at h

/-- The names that lead to an entry are names that a file can have, and so are those below it. -/
theorem isFileName_of_find? {entry : Entry} (hnamed : tree.isNamed = true)
    (h : tree.find? location = some entry) :
    (∀ part ∈ location, isFileName part = true) ∧
      ∀ inside, entry = .directory inside → inside.isNamed = true :=
  goesDown_isNamed.of_find? hnamed h

/-! ### Trees with the same names -/

/-- The trees have the same files and directories in the same order; what the files hold may differ. -/
inductive SameNames : Tree → Tree → Prop where
  | empty : SameNames .empty .empty
  | file (name : String) (content other : ByteArray) (mode otherMode : Nat) {rest next : Tree}
    (hrest : SameNames rest next) :
    SameNames (.file name content mode rest) (.file name other otherMode next)
  | directory (name : String) {inside below rest next : Tree} (hinside : SameNames inside below)
    (hrest : SameNames rest next) : SameNames (.directory name inside rest) (.directory name below next)

/-- Entries of one kind, or none at all, with the same names below them. -/
def Alike : Option Entry → Option Entry → Prop
  | none, none => True
  | some (.file _ _), some (.file _ _) => True
  | some (.directory inside), some (.directory below) => SameNames inside below
  | _, _ => False

theorem SameNames.refl (tree : Tree) : SameNames tree tree := by
  induction tree with
  | empty => exact .empty
  | file name content mode rest ih => exact .file name content content mode mode ih
  | directory name inside rest hinside hrest => exact .directory name hinside hrest

theorem SameNames.trans {first second third : Tree} (hfirst : SameNames first second)
    (hsecond : SameNames second third) : SameNames first third := by
  induction hfirst generalizing third with
  | empty => exact hsecond
  | file _ _ _ _ _ _ ih =>
    cases hsecond with
    | file _ _ _ _ _ hrest => exact .file _ _ _ _ _ (ih hrest)
  | directory _ _ _ ihInside ihRest =>
    cases hsecond with
    | directory _ hinside hrest => exact .directory _ (ihInside hinside) (ihRest hrest)

theorem alike_cases {entry other : Option Entry} (h : Alike entry other) :
    (entry = none ∧ other = none) ∨
      (∃ content mode new newMode, entry = some (.file content mode) ∧ other = some (.file new newMode)) ∨
      ∃ inside below, entry = some (.directory inside) ∧ other = some (.directory below) ∧
        SameNames inside below := by
  rcases entry with _ | ⟨content, mode⟩ | inside <;> rcases other with _ | ⟨new, newMode⟩ | below
  · exact .inl ⟨rfl, rfl⟩
  · exact h.elim
  · exact h.elim
  · exact h.elim
  · exact .inr (.inl ⟨content, mode, new, newMode, rfl, rfl⟩)
  · exact h.elim
  · exact h.elim
  · exact h.elim
  · exact .inr (.inr ⟨inside, below, rfl, rfl, h⟩)

namespace SameNames

theorem get?_alike (h : SameNames tree next) (name : String) : Alike (tree.get? name) (next.get? name) := by
  induction h with
  | empty => trivial
  | file other content new mode newMode _ ih =>
    rw [get?, get?]
    split
    · trivial
    · exact ih
  | directory other hinside _ _ ih =>
    rw [get?, get?]
    split
    · exact hinside
    · exact ih

theorem find?_alike (h : SameNames tree next) (location : Location) :
    Alike (tree.find? location) (next.find? location) := by
  induction location generalizing tree next with
  | nil => exact h
  | cons name below ih =>
    rw [find?, find?]
    rcases alike_cases (h.get?_alike name) with
      ⟨hbefore, hafter⟩ | ⟨content, mode, new, newMode, hbefore, hafter⟩ |
        ⟨inside, within, hbefore, hafter, hinside⟩
    · rw [hbefore, hafter]
      trivial
    · rw [hbefore, hafter]
      dsimp only
      split <;> trivial
    · rw [hbefore, hafter]
      exact ih hinside

end SameNames

theorem sameNames_put {entry new : Entry} (h : tree.get? name = some entry)
    (halike : Alike (some entry) (some new)) : SameNames tree (tree.put name new) := by
  induction tree with
  | empty => exact absurd h (by simp [get?])
  | file other old oldMode rest ih =>
    rw [get?] at h
    rw [put]
    split
    · rename_i heq
      rw [if_pos heq] at h
      obtain rfl := Option.some.inj h
      subst heq
      cases new with
      | file content mode => exact .file other old content oldMode mode (.refl rest)
      | directory next => exact halike.elim
    · rename_i hother
      rw [if_neg hother] at h
      exact .file other old old oldMode oldMode (ih h)
  | directory other below rest _ ih =>
    rw [get?] at h
    rw [put]
    split
    · rename_i heq
      rw [if_pos heq] at h
      obtain rfl := Option.some.inj h
      subst heq
      cases new with
      | file content mode => exact halike.elim
      | directory next => exact .directory other halike (.refl rest)
    · rename_i hother
      rw [if_neg hother] at h
      exact .directory other (.refl below) (ih h)

/-- New content for a file that is there. -/
theorem sameNames_putAt {content new : ByteArray} {mode newMode : Nat}
    (h : tree.find? location = some (.file content mode)) :
    SameNames tree (tree.putAt (.file new newMode) location) := by
  induction location generalizing tree with
  | nil => exact absurd h (by simp [find?])
  | cons name below ih =>
    rw [find?] at h
    cases hentry : tree.get? name with
    | none => simp [hentry] at h
    | some entry =>
      cases below with
      | nil =>
        rw [putAt]
        cases entry with
        | file old oldMode => exact sameNames_put hentry trivial
        | directory inside => simp [hentry, find?] at h
      | cons following rest =>
        rw [putAt]
        · cases entry with
          | file old oldMode => simp [hentry] at h
          | directory inside =>
            simp only [hentry] at h ⊢
            exact sameNames_put hentry (ih h)
        · simp

end Tree

namespace Disk

open Tree (SameNames)

variable {disk after : Disk}

theorem follow_eq_of_sameNames {tree next : Tree} (h : SameNames tree next) (location : Location)
    (parts : List String) : follow next location parts = follow tree location parts := by
  induction parts generalizing location with
  | nil => rfl
  | cons part parts ih =>
    cases parts with
    | nil => rfl
    | cons following parts =>
      rw [follow, follow]
      rcases Tree.alike_cases (h.find?_alike (stepTo location part)) with
        ⟨hbefore, hafter⟩ | ⟨content, mode, new, newMode, hbefore, hafter⟩ |
          ⟨inside, within, hbefore, hafter, hinside⟩
      · rw [hbefore, hafter]
      · rw [hbefore, hafter]
      · rw [hbefore, hafter]
        exact ih (stepTo location part)

theorem find?_alike (hcurrent : after.current = disk.current) (h : SameNames disk.tree after.tree)
    (path : Path) : Tree.Alike (disk.find? path) (after.find? path) := by
  have hlocate : after.locate path = disk.locate path := by
    rw [locate, locate, start, start, hcurrent, follow_eq_of_sameNames h]
  rw [find?, find?, hlocate]
  cases disk.locate path with
  | ok location => exact h.find?_alike location
  | error error => trivial

end Disk

end FfiBindings
