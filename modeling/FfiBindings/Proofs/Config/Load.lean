import FfiBindings.Config.Load
import FfiBindings.Proofs.Tree.Plain

/-!
Where a library is. Settings are always those of the document in their file (`load_eq_ok_iff`), and whatever they are,
their root is the directory of the settings file (`load_root`), which is an absolute path without double dots
(`notMem_absolute`). Settings are loaded again as they were, as long as their file stays and none comes where none was
(`load_again`).
-/

set_option autoImplicit false
set_option relaxedAutoImplicit false

namespace FfiBindings

namespace Path

theorem notMem_walkUpAndDown {location : List String} (h : ".." ∉ location) (parts : List String) :
    ".." ∉ walkUpAndDown location parts := by
  intro hmem
  rcases mem_walkUpAndDown hmem with hbefore | ⟨-, hother⟩
  · exact h hbefore
  · exact hother rfl

theorem notMem_absolute {current : List String} (h : ".." ∉ current) (path : Path) :
    ".." ∉ (path.absolute current).parts := by
  refine notMem_walkUpAndDown ?_ path.parts
  split
  · exact h
  · exact List.not_mem_nil

theorem notMem_child {path : Path} {name : String} (h : ".." ∉ path.parts) (hname : name ≠ "..") :
    ".." ∉ (path.child name).parts := by
  rw [Path.child, List.mem_append, List.mem_singleton]
  rintro (hmem | heq)
  · exact h hmem
  · exact hname heq.symm

theorem absolute_of_root {path : Path} (hanchor : path.anchor = .root) (h : ".." ∉ path.parts)
    (current : List String) : path.absolute current = path := by
  obtain ⟨anchor, parts⟩ := path
  obtain rfl : anchor = .root := hanchor
  simp only [absolute, reduceCtorEq, if_false]
  rw [walkUpAndDown_eq_append h, List.nil_append]

end Path

namespace Config

variable {root : Path} {config : Config}

theorem ofEntries_root {labels : Yaml.Value.Labels} {entries : List (Yaml.Value × Yaml.Value)}
    (h : ofEntries root labels entries = .ok config) : config.root = root := by
  unfold ofEntries at h
  simp only [bind, Except.bind, pure, Except.pure, throw, throwThe, MonadExceptOf.throw] at h
  split at h
  · exact absurd h (by simp)
  · split at h
    · exact absurd h (by simp)
    · exact congrArg Config.root (Except.ok.inj h).symm

theorem ofDocument_root {document : Yaml.Document} (h : ofDocument root document = .ok config) :
    config.root = root := by
  unfold ofDocument at h
  split at h
  · exact congrArg Config.root (Except.ok.inj h).symm
  · exact ofEntries_root h
  · exact absurd h (by simp)

/-- The default settings are those of a document that holds nothing. -/
theorem ofDocument_null (root : Path) : ofDocument root ⟨.null, []⟩ = .ok { root } := rfl

/-- Where the settings of a library are looked for. -/
def settingsFile (disk : Disk) (path : Path) : Path :=
  (filePath disk path).absolute disk.current

/-- The document in a text of settings; where there are only blanks, it holds nothing. -/
def SaysDocument (text : String) (document : Yaml.Document) : Prop :=
  if Text.allBlank (Text.withUnifiedNewlines text) then document = ⟨.null, []⟩
  else Yaml.Document.ofText (Text.withUnifiedNewlines text) = .ok document

/-- The document in a settings file; where there is no file, it holds nothing. -/
def HoldsDocument (disk : Disk) (file : Path) (document : Yaml.Document) : Prop :=
  (disk.contains file = false ∧ document = ⟨.null, []⟩) ∨
    ∃ bytes text, disk.read file = .ok bytes ∧ Text.Utf8.decode bytes = .ok text ∧ SaysDocument text document

theorem ofText_eq_ok_iff {text : String} :
    ofText root text = .ok config ↔ ∃ document, SaysDocument text document ∧ ofDocument root document = .ok config := by
  simp only [ofText, SaysDocument]
  split
  · simp only [exists_eq_left, ofDocument_null, Except.ok.injEq]
  · cases Yaml.Document.ofText (Text.withUnifiedNewlines text) with
    | error fault => simp
    | ok document =>
      simp only [Except.ok.injEq, exists_eq_left']
      cases ofDocument root document <;> simp [Except.mapError]

/-- Settings are loaded exactly from a file that can be looked for, and they are those of the document in it. -/
theorem load_eq_ok_iff {disk : Disk} {path : Path} :
    load disk path = .ok config ↔ Disk.hasNull (filePath disk path) = false ∧
      ∃ document, HoldsDocument disk (settingsFile disk path) document ∧
        ofDocument (settingsFile disk path).parent document = .ok config := by
  simp only [load, settingsFile, HoldsDocument]
  generalize (filePath disk path).absolute disk.current = file
  cases Disk.hasNull (filePath disk path) with
  | true => simp
  | false =>
    simp only [Bool.false_eq_true, if_false, true_and]
    cases hthere : disk.contains file with
    | false =>
      have hmissing (bytes : ByteArray) : disk.read file ≠ .ok bytes := by
        intro hread
        obtain ⟨mode, hfound⟩ := Disk.read_eq_ok_iff.1 hread
        rw [Disk.contains, hfound] at hthere
        exact absurd hthere (by simp)
      simp only [Bool.false_eq_true, if_false, hmissing, false_and, exists_const, or_false, true_and,
        exists_eq_left, ofDocument_null, Except.ok.injEq]
    | true =>
      simp only [if_true, Bool.true_eq_false, false_and, false_or]
      cases disk.read file with
      | error error => simp
      | ok bytes =>
        cases hdecode : Text.Utf8.decode bytes with
        | error fault => simp [hdecode]
        | ok text => simp [hdecode, ofText_eq_ok_iff]

/-- The root of the settings is where their file is looked for. -/
theorem load_root {disk : Disk} {path : Path} (h : load disk path = .ok config) :
    config.root = ((filePath disk path).absolute disk.current).parent := by
  obtain ⟨-, document, -, hdocument⟩ := load_eq_ok_iff.1 h
  exact ofDocument_root hdocument

/-- A library is at a directory itself. -/
theorem settingsFile_of_isDirectory {disk : Disk} {path : Path} (hdirectory : disk.isDirectory path = true)
    (hanchor : path.anchor = .root) (hdown : ".." ∉ path.parts) :
    settingsFile disk path = path.child fileName := by
  rw [settingsFile, filePath, if_pos hdirectory]
  have hchild : (path.child fileName).anchor = .root := hanchor
  exact Path.absolute_of_root hchild (Path.notMem_child hdown (by decide)) _

/-- The settings of a library whose file is not there. -/
theorem load_of_missing {disk : Disk} {path : Path} (h : load disk path = .ok config)
    (hmissing : disk.find? (settingsFile disk path) = none) :
    config = { root := (settingsFile disk path).parent } := by
  simp only [load] at h
  split at h
  · exact absurd h (by simp)
  · rw [if_neg] at h
    · exact (Except.ok.inj h).symm
    · rw [Disk.contains]
      rw [settingsFile] at hmissing
      rw [hmissing]
      simp

/-- Settings are loaded again as they were, if their file stays, or there is none still. -/
theorem load_again {disk after : Disk} {path : Path} (hcurrent : after.current = disk.current)
    (hdirectory : after.isDirectory path = disk.isDirectory path)
    (hfile : Disk.SameFile (settingsFile disk path) disk after)
    (hmissing : disk.find? (settingsFile disk path) = none → after.find? (settingsFile disk path) = none)
    (h : load disk path = .ok config) : load after path = .ok config := by
  have hspelled : filePath after path = filePath disk path := by
    rw [filePath, filePath, hdirectory]
  unfold settingsFile at hfile hmissing
  simp only [load] at h ⊢
  rw [hspelled, hcurrent]
  split at h
  · exact absurd h (by simp)
  rename_i hnull
  rw [if_neg hnull]
  generalize (filePath disk path).absolute disk.current = file at hfile hmissing h ⊢
  cases hfound : disk.find? file with
  | none =>
    rw [Disk.contains, hfound, if_neg (by simp)] at h
    rw [Disk.contains, hmissing hfound, if_neg (by simp)]
    exact h
  | some entry =>
    rw [Disk.contains, hfound, Option.isSome_some, if_pos rfl] at h
    cases hread : disk.read file with
    | error error =>
      rw [hread] at h
      exact absurd h (by simp)
    | ok bytes =>
      have hagain := (hfile.read_eq_ok_iff bytes).2 hread
      obtain ⟨mode, hthere⟩ := Disk.read_eq_ok_iff.1 hagain
      rw [hread] at h
      rw [Disk.contains, hthere, Option.isSome_some, if_pos rfl, hagain]
      exact h

end Config

end FfiBindings
