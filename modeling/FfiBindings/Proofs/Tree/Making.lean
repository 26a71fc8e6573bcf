import FfiBindings.Proofs.Tree.Change
import FfiBindings.Proofs.Tree.Proper

/-!
Making the directories of a path. What becomes of one directory and those above it is told once
(`makeDirectoriesUp_cons`); directories come to locations that the path leads through and nothing else
changes, also where it fails half way (`makeDirectories_grows`), and it fails only where a file is on the
way, and just there (`makeDirectories_eq_none_iff`).
-/

set_option autoImplicit false
set_option relaxedAutoImplicit false

namespace FfiBindings.Disk

open Path (walkUpAndDown)

variable {disk after : Disk} {path : Path} {location : Location} {parts : List String} {last : String}

/-! ### Making directories -/

theorem makeDirectory_eq_ok (hcurrent : disk.HasCurrent) (h : disk.makeDirectory path = .ok after) :
    Grows disk after (· = disk.place path) ∧ after.isDirectory path = true := by
  unfold makeDirectory at h
  split at h
  · exact absurd h (by simp)
  · rename_i location hlocate
    split at h
    · exact absurd h (by simp)
    · rename_i hnone
      obtain rfl := Except.ok.inj h
      have hvacant := Tree.sight?_eq_none_iff.2 hnone
      have hplace : disk.tree.sight? location ≠ some .directory := by
        rw [hvacant]
        simp
      obtain ⟨hne, hparent⟩ := sight?_dropLast_of_locate hcurrent hlocate hplace
      have hsight (other : Location) : (disk.putAt location (.directory .empty)).tree.sight? other =
          if other = location then some .directory else disk.tree.sight? other :=
        Tree.sight?_putAt_leaf Tree.isLeaf_empty hne hparent hplace other
      have hgrows : Grows disk (disk.putAt location (.directory .empty)) (· = disk.place path) := by
        refine ⟨rfl, rfl, ?_⟩
        intro other
        rw [hsight]
        split
        · rename_i heq
          exact .inr ⟨heq ▸ hvacant, rfl, heq.trans (locate_eq_place hlocate)⟩
        · exact .inl rfl
      obtain ⟨hnull, hfollow⟩ := locate_eq_ok_iff.1 (hgrows.keeps.locate_eq_ok hlocate)
      have heq := follow_eq hfollow
      refine ⟨hgrows, isDirectory_iff.2 ⟨hnull, heq ▸ hfollow, ?_⟩⟩
      rw [← heq, hsight, if_pos rfl]

/-- The locations that parts lead through, the last one too. -/
def OnTheWay (location : Location) (parts : List String) (other : Location) : Prop :=
  ∃ front, front ≠ [] ∧ front <+: parts ∧ other = walkUpAndDown location front

theorem onTheWay_place (disk : Disk) (anchor : Anchor) {parts : List String} (hparts : parts ≠ []) :
    OnTheWay (disk.start ⟨anchor, []⟩) parts (disk.place ⟨anchor, parts⟩) :=
  ⟨parts, hparts, List.prefix_refl parts, rfl⟩

theorem OnTheWay.append {other : Location} (h : OnTheWay location parts other) (more : List String) :
    OnTheWay location (parts ++ more) other := by
  obtain ⟨front, hfront, habove, rfl⟩ := h
  exact ⟨front, hfront, habove.trans (List.prefix_append parts more), rfl⟩

theorem makeDirectoriesUp_nil (anchor : Anchor) (disk : Disk) :
    makeDirectoriesUp anchor disk [] =
      if disk.isDirectory ⟨anchor, []⟩ then (disk, none)
      else (disk, some (.refused .notFound ⟨anchor, []⟩)) := rfl

/-- What becomes of the last directory of a path, and of the directories above it if they are missing. -/
theorem makeDirectoriesUp_cons (anchor : Anchor) (disk : Disk) (last : String) (above : List String) :
    let path : Path := ⟨anchor, (last :: above).reverse⟩
    let made := makeDirectoriesUp anchor disk (last :: above)
    (∃ after, disk.makeDirectory path = .ok after ∧ made = (after, none)) ∨
      (∃ error, disk.makeDirectory path = .error error ∧ isNotFound error = false ∧
        made = (disk, if disk.isDirectory path then none else some error)) ∨
      ∃ error, disk.makeDirectory path = .error error ∧ isNotFound error = true ∧
        ((∃ middle error, makeDirectoriesUp anchor disk above = (middle, some error) ∧
            made = (middle, some error)) ∨
          ∃ middle, makeDirectoriesUp anchor disk above = (middle, none) ∧
            ((∃ after, middle.makeDirectory path = .ok after ∧ made = (after, none)) ∨
              ∃ error, middle.makeDirectory path = .error error ∧
                made = (middle, if !isNotFound error && middle.isDirectory path then none
                  else some error))) := by
  intro path made
  have hpath : path = ⟨anchor, (last :: above).reverse⟩ := rfl
  clear_value path
  subst hpath
  have hmade : made = makeDirectoriesUp anchor disk (last :: above) := rfl
  clear_value made
  subst hmade
  cases hfirst : disk.makeDirectory ⟨anchor, (last :: above).reverse⟩ with
  | ok after => exact .inl ⟨after, rfl, by simp only [makeDirectoriesUp, hfirst]⟩
  | error error =>
    by_cases hmissing : isNotFound error = true
    · refine .inr (.inr ⟨error, rfl, hmissing, ?_⟩)
      rcases habove : makeDirectoriesUp anchor disk above with ⟨middle, _ | failure⟩
      · refine .inr ⟨middle, rfl, ?_⟩
        cases hsecond : middle.makeDirectory ⟨anchor, (last :: above).reverse⟩ with
        | ok after =>
          refine .inl ⟨after, rfl, ?_⟩
          simp only [makeDirectoriesUp, hfirst, hmissing, if_true, habove, hsecond]
        | error again =>
          refine .inr ⟨again, rfl, ?_⟩
          simp only [makeDirectoriesUp, hfirst, hmissing, if_true, habove, hsecond]
          split <;> rfl
      · refine .inl ⟨middle, failure, rfl, ?_⟩
        simp only [makeDirectoriesUp, hfirst, hmissing, if_true, habove]
    · rw [Bool.not_eq_true] at hmissing
      refine .inr (.inl ⟨error, rfl, hmissing, ?_⟩)
      simp only [makeDirectoriesUp, hfirst, hmissing, Bool.false_eq_true, if_false]
      split <;> rfl

theorem makeDirectoriesUp_grows (hcurrent : disk.HasCurrent) (anchor : Anchor) (parts : List String) :
    Grows disk (makeDirectoriesUp anchor disk parts).1
      (OnTheWay (disk.start ⟨anchor, []⟩) parts.reverse) := by
  induction parts generalizing disk with
  | nil =>
    rw [makeDirectoriesUp_nil]
    split <;> exact Grows.refl disk _
  | cons last above ih =>
    have hlast {disk after : Disk} (hcurrent : disk.HasCurrent)
        (hmade : disk.makeDirectory ⟨anchor, (last :: above).reverse⟩ = .ok after) :
        Grows disk after (OnTheWay (disk.start ⟨anchor, []⟩) (last :: above).reverse) :=
      (makeDirectory_eq_ok hcurrent hmade).1.mono fun _ heq =>
        heq ▸ onTheWay_place disk anchor (by simp)
    have habove {middle : Disk} {error : Option FileError}
        (hup : makeDirectoriesUp anchor disk above = (middle, error)) :
        Grows disk middle (OnTheWay (disk.start ⟨anchor, []⟩) (last :: above).reverse) := by
      have hgrows := ih hcurrent
      rw [hup] at hgrows
      exact hgrows.mono fun _ h => List.reverse_cons ▸ h.append [last]
    rcases makeDirectoriesUp_cons anchor disk last above with
      ⟨after, hmade, heq⟩ | ⟨error, -, -, heq⟩ | ⟨-, -, -, ⟨middle, error, hup, heq⟩ |
        ⟨middle, hup, ⟨after, hmade, heq⟩ | ⟨error, -, heq⟩⟩⟩
    · rw [heq]
      exact hlast hcurrent hmade
    · rw [heq]
      exact Grows.refl disk _
    · rw [heq]
      exact habove hup
    · rw [heq]
      have hgrows := habove hup
      refine hgrows.trans ?_
      rw [← hgrows.keeps.start_eq]
      exact hlast (hgrows.keeps.hasCurrent hcurrent) hmade
    · rw [heq]
      exact habove hup

theorem makeDirectoriesUp_isDirectory (hcurrent : disk.HasCurrent) {anchor : Anchor} {parts : List String}
    (h : (makeDirectoriesUp anchor disk parts).2 = none) :
    (makeDirectoriesUp anchor disk parts).1.isDirectory ⟨anchor, parts.reverse⟩ = true := by
  cases parts with
  | nil =>
    rw [makeDirectoriesUp_nil] at h ⊢
    split at h
    · rename_i hdirectory
      rw [if_pos hdirectory]
      exact hdirectory
    · simp at h
  | cons last above =>
    rcases makeDirectoriesUp_cons anchor disk last above with
      ⟨after, hmade, heq⟩ | ⟨error, -, -, heq⟩ | ⟨-, -, -, ⟨middle, error, hup, heq⟩ |
        ⟨middle, hup, ⟨after, hmade, heq⟩ | ⟨error, -, heq⟩⟩⟩
    · rw [heq]
      exact (makeDirectory_eq_ok hcurrent hmade).2
    · rw [heq] at h ⊢
      dsimp only at h ⊢
      split at h
      · assumption
      · simp at h
    · rw [heq] at h
      simp at h
    · rw [heq]
      have hgrows := makeDirectoriesUp_grows hcurrent anchor above
      rw [hup] at hgrows
      exact (makeDirectory_eq_ok (hgrows.keeps.hasCurrent hcurrent) hmade).2
    · rw [heq] at h ⊢
      dsimp only at h ⊢
      split at h
      · rename_i hboth
        exact ((Bool.and_eq_true _ _).mp hboth).2
      · simp at h

theorem makeDirectory_eq_error {error : FileError} (h : disk.makeDirectory path = .error error) :
    disk.locate path = .error error ∨
      ∃ location, disk.locate path = .ok location ∧ disk.tree.sight? location ≠ none ∧
        error = .refused .alreadyThere path := by
  unfold makeDirectory at h
  split at h
  · rename_i hlocate
    rw [← Except.error.inj h]
    exact .inl hlocate
  · rename_i location hlocate
    split at h
    · rename_i entry hentry
      refine .inr ⟨location, hlocate, ?_, (Except.error.inj h).symm⟩
      rw [Ne, Tree.sight?_eq_none_iff, hentry]
      simp
    · exact absurd h (by simp)

/-- Where something is seen that is no file, there is a directory. -/
theorem isDirectory_of_sight (hlocate : disk.locate path = .ok location)
    (hsome : disk.tree.sight? location ≠ none)
    (hfree : ∀ content mode, disk.tree.sight? location ≠ some (.file content mode)) :
    disk.isDirectory path = true := by
  obtain ⟨hnull, hfollow⟩ := locate_eq_ok_iff.1 hlocate
  obtain rfl := follow_eq hfollow
  refine isDirectory_iff.2 ⟨hnull, hfollow, ?_⟩
  cases hsight : disk.tree.sight? (walkUpAndDown (disk.start path) path.parts) with
  | none => exact absurd hsight hsome
  | some sight =>
    cases sight with
    | directory => rfl
    | file content mode => exact absurd hsight (hfree content mode)

theorem locate_concat (hcurrent : disk.HasCurrent) {anchor : Anchor}
    (hnull : hasNull ⟨anchor, parts ++ [last]⟩ = false)
    (hparent : disk.isDirectory ⟨anchor, parts⟩ = true) :
    disk.locate ⟨anchor, parts ++ [last]⟩ = .ok (disk.place ⟨anchor, parts ++ [last]⟩) :=
  locate_eq_ok_iff.2 ⟨hnull, (follow_concat_iff (sight?_start hcurrent _)).2
    ⟨(isDirectory_iff.1 hparent).2, rfl⟩⟩

theorem locate_error_eq_notFound {error : FileError} (hnull : hasNull path = false)
    (hfree : ∀ front back, path.parts = front ++ back → back ≠ [] → ∀ content mode,
      disk.tree.sight? (walkUpAndDown (disk.start path) front) ≠ some (.file content mode))
    (h : disk.locate path = .error error) : error = .refused .notFound path := by
  unfold locate at h
  rw [if_neg (by rw [hnull]; simp)] at h
  cases hfollow : follow disk.tree (disk.start path) path.parts with
  | ok location =>
    rw [hfollow] at h
    exact absurd h (by simp [Except.mapError])
  | error refusal =>
    rw [hfollow, follow_eq_notFound hfree hfollow] at h
    exact (Except.error.inj h).symm

theorem makeDirectory_ne_nullInPath (hnull : hasNull path = false) :
    disk.makeDirectory path ≠ .error .nullInPath := by
  intro hmake
  rcases makeDirectory_eq_error hmake with hlocate | ⟨location, -, -, heq⟩
  · exact locate_ne_nullInPath hnull hlocate
  · exact absurd heq (by simp)

theorem makeDirectoriesUp_ne_nullInPath {anchor : Anchor} {parts : List String}
    (hnull : hasNull ⟨anchor, parts.reverse⟩ = false) :
    (makeDirectoriesUp anchor disk parts).2 ≠ some .nullInPath := by
  induction parts generalizing disk with
  | nil =>
    rw [makeDirectoriesUp_nil]
    split <;> simp
  | cons last above ih =>
    have hup : hasNull ⟨anchor, above.reverse⟩ = false := by
      rw [hasNull, List.any_eq_false] at hnull ⊢
      exact fun part hpart => hnull part (by simpa using .inl (by simpa using hpart))
    rcases makeDirectoriesUp_cons anchor disk last above with
      ⟨after, -, heq⟩ | ⟨error, hmake, -, heq⟩ | ⟨-, -, -, ⟨middle, error, habove, heq⟩ |
        ⟨middle, -, ⟨after, -, heq⟩ | ⟨error, hmake, heq⟩⟩⟩
    · rw [heq]
      simp
    · rw [heq]
      dsimp only
      split
      · simp
      · rintro hnone
        obtain rfl := Option.some.inj hnone
        exact makeDirectory_ne_nullInPath hnull hmake
    · have hmiddle := @ih disk hup
      rw [habove] at hmiddle
      rw [heq]
      exact hmiddle
    · rw [heq]
      simp
    · rw [heq]
      dsimp only
      split
      · simp
      · rintro hnone
        obtain rfl := Option.some.inj hnone
        exact makeDirectory_ne_nullInPath hnull hmake

/-- Making directories fails only where a file is on the way. -/
theorem makeDirectoriesUp_succeeds (hcurrent : disk.HasCurrent) {anchor : Anchor} {parts : List String}
    (hnull : hasNull ⟨anchor, parts.reverse⟩ = false)
    (hfree : ∀ front, front <+: parts.reverse → ∀ content mode,
      disk.tree.sight? (walkUpAndDown (disk.start ⟨anchor, []⟩) front) ≠ some (.file content mode)) :
    (makeDirectoriesUp anchor disk parts).2 = none := by
  induction parts with
  | nil =>
    have hdirectory : disk.isDirectory ⟨anchor, []⟩ = true :=
      isDirectory_iff.2 ⟨hnull, leadsTo_nil.2 (sight?_start hcurrent _)⟩
    rw [makeDirectoriesUp_nil, if_pos hdirectory]
  | cons last above ih =>
    have hup : (makeDirectoriesUp anchor disk above).2 = none := by
      refine ih ?_ fun front hfront => hfree front ?_
      · rw [hasNull, List.any_eq_false] at hnull ⊢
        exact fun part hpart => hnull part (by simpa using .inl (by simpa using hpart))
      · rw [List.reverse_cons]
        exact hfront.trans (List.prefix_append _ _)
    rcases makeDirectoriesUp_cons anchor disk last above with
      ⟨after, -, heq⟩ | ⟨error, hmake, hfound, heq⟩ | ⟨-, -, -, ⟨middle, error, habove, heq⟩ |
        ⟨middle, habove, ⟨after, -, heq⟩ | ⟨error, hmake, heq⟩⟩⟩
    · rw [heq]
    · have hdirectory : disk.isDirectory ⟨anchor, (last :: above).reverse⟩ = true := by
        rcases makeDirectory_eq_error hmake with hlocate | ⟨location, hlocate, hsome, -⟩
        · have hmissing := locate_error_eq_notFound hnull
            (fun front back hparts _ => hfree front ⟨back, hparts.symm⟩) hlocate
          rw [hmissing] at hfound
          exact absurd hfound (by simp [isNotFound])
        · refine isDirectory_of_sight hlocate hsome fun content mode => ?_
          rw [locate_eq_place hlocate]
          exact hfree _ (List.prefix_refl _) content mode
      rw [heq, if_pos hdirectory]
    · rw [habove] at hup
      exact absurd hup (by simp)
    · rw [heq]
    · have hgrows := makeDirectoriesUp_grows hcurrent anchor above
      have hparent := makeDirectoriesUp_isDirectory hcurrent hup
      rw [habove] at hgrows hparent
      have hmiddle := hgrows.keeps.hasCurrent hcurrent
      rw [List.reverse_cons] at hnull hmake hfree
      have hlocate := locate_concat hmiddle hnull hparent
      rcases makeDirectory_eq_error hmake with hnot | ⟨location, hagain, hsome, rfl⟩
      · rw [hlocate] at hnot
        exact absurd hnot (by simp)
      · have hdirectory : middle.isDirectory ⟨anchor, above.reverse ++ [last]⟩ = true := by
          refine isDirectory_of_sight hagain hsome fun content mode hfile => ?_
          rw [locate_eq_place hagain, place, hgrows.keeps.start_eq] at hfile
          exact hfree _ (List.prefix_refl _) content mode (hgrows.sight?_eq_file_iff.1 hfile)
        rw [heq, List.reverse_cons, hdirectory]
        simp [isNotFound]

/-! ### All directories of a path -/

theorem makeDirectories_grows (hcurrent : disk.HasCurrent) (path : Path) :
    Grows disk (disk.makeDirectories path).1 (OnTheWay (disk.start path) path.parts) := by
  have hgrows := makeDirectoriesUp_grows hcurrent path.anchor path.parts.reverse
  rwa [List.reverse_reverse] at hgrows

theorem isDirectory_makeDirectories (hcurrent : disk.HasCurrent) (h : (disk.makeDirectories path).2 = none) :
    (disk.makeDirectories path).1.isDirectory path = true := by
  have hdirectory := makeDirectoriesUp_isDirectory hcurrent h
  rwa [List.reverse_reverse] at hdirectory

theorem makeDirectories_succeeds (hcurrent : disk.HasCurrent) (hnull : hasNull path = false)
    (hfree : ∀ front, front <+: path.parts → ∀ content mode,
      disk.tree.sight? (walkUpAndDown (disk.start path) front) ≠ some (.file content mode)) :
    (disk.makeDirectories path).2 = none := by
  refine makeDirectoriesUp_succeeds hcurrent ?_ ?_
  · rw [List.reverse_reverse]
    exact hnull
  · rw [List.reverse_reverse]
    exact hfree

/-- All directories of a path are made just where a disk can have the path and no file is on its way. -/
theorem makeDirectories_eq_none_iff (hcurrent : disk.HasCurrent) :
    (disk.makeDirectories path).2 = none ↔
      hasNull path = false ∧
        ∀ front, front <+: path.parts → ¬ disk.tree.FileAt (walkUpAndDown (disk.start path) front) := by
  constructor
  · intro hmade
    have hgrows := makeDirectories_grows hcurrent path
    obtain ⟨hnull, hlead⟩ := isDirectory_iff.1 (isDirectory_makeDirectories hcurrent hmade)
    have hstart := sight?_start (hgrows.keeps.hasCurrent hcurrent) path
    refine ⟨hnull, fun front hfront hfile => ?_⟩
    obtain ⟨content, mode, hfile⟩ := hfile
    have hdirectory := hlead.above hstart hfront
    rw [hgrows.keeps.start_eq, hgrows.sight?_eq_some hfile] at hdirectory
    exact absurd hdirectory (by simp)
  · rintro ⟨hnull, hfree⟩
    exact makeDirectories_succeeds hcurrent hnull fun front hfront content mode hfile =>
      hfree front hfront ⟨content, mode, hfile⟩

theorem makeDirectories_ne_nullInPath (hnull : hasNull path = false) :
    (disk.makeDirectories path).2 ≠ some .nullInPath := by
  refine makeDirectoriesUp_ne_nullInPath ?_
  rw [List.reverse_reverse]
  exact hnull

/-- A directory that is there is made without a change. -/
theorem makeDirectories_of_isDirectory (h : disk.isDirectory path = true) :
    disk.makeDirectories path = (disk, none) := by
  obtain ⟨anchor, parts⟩ := path
  rcases List.eq_nil_or_concat parts with rfl | ⟨above, last, rfl⟩
  · unfold makeDirectories
    rw [List.reverse_nil, makeDirectoriesUp_nil, if_pos h]
  · rw [List.concat_eq_append] at h ⊢
    have hback : (last :: above.reverse).reverse = above ++ [last] := by simp
    have hmake : disk.makeDirectory ⟨anchor, (last :: above.reverse).reverse⟩ =
        .error (.refused .alreadyThere ⟨anchor, above ++ [last]⟩) := by
      obtain ⟨hnull, hlead⟩ := isDirectory_iff.1 h
      have hlocate := locate_eq_ok_iff.2 ⟨hnull, hlead.follow⟩
      obtain ⟨inside, hinside⟩ := Tree.sight?_eq_directory_iff.1 hlead.directory
      rw [hback, makeDirectory, hlocate]
      simp only [hinside]
    rw [makeDirectories, List.reverse_append, List.reverse_singleton, List.singleton_append]
    simp only [makeDirectoriesUp, hmake, isNotFound, Bool.false_eq_true, if_false]
    rw [hback, if_pos h]

/-! ### The names of the directories -/

/-- A path that can be spelled leads along names that entries can have. -/
theorem isEntryName_of_locate (hproper : disk.tree.isProper = true) (hcurrent : disk.HasCurrent)
    (hplain : ∀ part ∈ path.parts, Path.isPlainPart part = true) (h : disk.locate path = .ok location) :
    ∀ part ∈ location, isEntryName part = true := by
  have hnull := hasNull_eq_false_iff.1 (locate_eq_ok_iff.1 h).1
  rw [locate_eq_place h]
  intro part hpart
  rcases Path.mem_walkUpAndDown hpart with hstart | ⟨hmem, hdown⟩
  · exact Tree.isEntryName_of_sight hproper (sight?_start hcurrent path) part hstart
  · rw [isEntryName, isFileName, hplain part hmem, bne_iff_ne.2 hdown, List.contains_eq_mem,
      decide_eq_false (hnull part hmem)]
    rfl

theorem isProper_makeDirectory (hproper : disk.tree.isProper = true) (hcurrent : disk.HasCurrent)
    (hplain : ∀ part ∈ path.parts, Path.isPlainPart part = true) (h : disk.makeDirectory path = .ok after) :
    after.tree.isProper = true := by
  unfold makeDirectory at h
  split at h
  · exact absurd h (by simp)
  · rename_i location hlocate
    split at h
    · exact absurd h (by simp)
    · rw [← Except.ok.inj h]
      exact Tree.isProper_putAt (isEntryName_of_locate hproper hcurrent hplain hlocate) rfl hproper

theorem isProper_makeDirectoriesUp (hproper : disk.tree.isProper = true) (hcurrent : disk.HasCurrent)
    (anchor : Anchor) (hplain : ∀ part ∈ parts, Path.isPlainPart part = true) :
    (makeDirectoriesUp anchor disk parts).1.tree.isProper = true := by
  induction parts with
  | nil =>
    rw [makeDirectoriesUp_nil]
    split <;> exact hproper
  | cons last above ih =>
    have hback : ∀ part ∈ (Path.mk anchor (last :: above).reverse).parts, Path.isPlainPart part = true :=
      fun part hpart => hplain part (List.mem_reverse.1 hpart)
    have habove {middle : Disk} {error : Option FileError}
        (hup : makeDirectoriesUp anchor disk above = (middle, error)) :
        middle.tree.isProper = true ∧ middle.HasCurrent := by
      have hrest := ih fun part hpart => hplain part (List.mem_cons_of_mem last hpart)
      have hgrows := makeDirectoriesUp_grows hcurrent anchor above
      rw [hup] at hrest hgrows
      exact ⟨hrest, hgrows.keeps.hasCurrent hcurrent⟩
    rcases makeDirectoriesUp_cons anchor disk last above with
      ⟨after, hmade, heq⟩ | ⟨error, -, -, heq⟩ | ⟨-, -, -, ⟨middle, error, hup, heq⟩ |
        ⟨middle, hup, ⟨after, hmade, heq⟩ | ⟨error, -, heq⟩⟩⟩
    · rw [heq]
      exact isProper_makeDirectory hproper hcurrent hback hmade
    · rw [heq]
      exact hproper
    · rw [heq]
      exact (habove hup).1
    · obtain ⟨hmiddle, hthere⟩ := habove hup
      rw [heq]
      exact isProper_makeDirectory hmiddle hthere hback hmade
    · rw [heq]
      exact (habove hup).1

/-- Directories that are made have names that directories can have. -/
theorem isProper_makeDirectories (hproper : disk.tree.isProper = true) (hcurrent : disk.HasCurrent)
    (hplain : ∀ part ∈ path.parts, Path.isPlainPart part = true) :
    (disk.makeDirectories path).1.tree.isProper = true :=
  isProper_makeDirectoriesUp hproper hcurrent path.anchor fun part hpart => hplain part (List.mem_reverse.1 hpart)

end FfiBindings.Disk
