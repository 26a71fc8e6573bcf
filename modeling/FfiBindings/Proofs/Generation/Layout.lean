import FfiBindings.Generation.Task
import FfiBindings.Proofs.Source.Module

/-!
What a binding is laid out of: the functions of its module, the settings, and the template that is on the disk at the
time. The template stays the same while no file comes to its place, if its path goes down only or leads somewhere from
the start (`TemplateFixed.template_eq`); and no binding is in the place of a template (`target_ne_template`).
-/

set_option autoImplicit false
set_option relaxedAutoImplicit false

namespace FfiBindings

/-- A template is loaded again from a file that stays. -/
theorem Template.load_again {disk after : Disk} {directory : Option Path}
    (h : ∀ path, directory = some path → Disk.SameFile (path.child fileName) disk after) :
    load after directory = load disk directory := by
  cases directory with
  | none => rfl
  | some path =>
    have hfile := h path rfl
    unfold load
    rw [Option.map_some, Option.filter_some, Option.filter_some, hfile.isFile_eq]
    cases hthere : disk.isFile (path.child fileName) with
    | false => rfl
    | true =>
      obtain ⟨content, mode, hfound⟩ := Disk.isFile_iff.1 hthere
      have hread : disk.read (path.child fileName) = .ok content := Disk.read_eq_ok_iff.2 ⟨mode, hfound⟩
      have hagain := (hfile.read_eq_ok_iff content).2 hread
      simp only [if_true, hread, hagain]

namespace Generation.Task

open Disk

variable {task : Task} {source : SourceModule} {disk after : Disk} {functions : List Rust.ExportedFunction}

/-! ### The template -/

/-- The place where the settings have a template. -/
def IsTemplate (task : Task) (disk : Disk) (location : Location) : Prop :=
  ∃ directory, task.config.templatesDirectory = some directory ∧
    location = disk.place (directory.child Template.fileName)

/-- The path of the template goes down only, or it leads somewhere already. -/
def TemplateFixed (task : Task) (disk : Disk) : Prop :=
  ∀ directory, task.config.templatesDirectory = some directory →
    ".." ∉ directory.parts ∨ ∃ location, disk.locate (directory.child Template.fileName) = .ok location

theorem TemplateFixed.of_down (h : ∀ directory, task.config.templatesDirectory = some directory →
    ".." ∉ directory.parts) (disk : Disk) : task.TemplateFixed disk :=
  fun directory hdirectory => .inl (h directory hdirectory)

theorem TemplateFixed.of_keeps (h : task.TemplateFixed disk) (hkeeps : KeepsDirectories disk after) :
    task.TemplateFixed after :=
  fun directory hdirectory => (h directory hdirectory).imp_right fun ⟨location, hlocate⟩ =>
    ⟨location, hkeeps.locate_eq_ok hlocate⟩

theorem IsTemplate.of_keeps {location : Location} (h : task.IsTemplate after location)
    (hkeeps : KeepsDirectories disk after) : task.IsTemplate disk location := by
  obtain ⟨directory, hdirectory, rfl⟩ := h
  exact ⟨directory, hdirectory, hkeeps.place_eq _⟩

/-- The template is the same where no file comes to its place. -/
theorem TemplateFixed.template_eq {files through : Location → Prop} (h : task.TemplateFixed disk)
    (hcurrent : disk.HasCurrent) (hchanges : Changes files through disk after)
    (hfile : ∀ location, task.IsTemplate disk location → ¬ files location) :
    task.template after = task.template disk := by
  refine Template.load_again fun directory hdirectory => ?_
  have hplace := hfile _ ⟨directory, hdirectory, rfl⟩
  rcases h directory hdirectory with hdown | ⟨location, hlocate⟩
  · exact hchanges.sameFile hcurrent (Path.notMem_child hdown (by decide)) hplace
  · exact hchanges.sameFile_of_locate hlocate hplace

/-- A file whose name ends otherwise is no binding. -/
theorem place_child_ne_target (task : Task) (source : SourceModule) (disk : Disk) (path : Path) {name : String}
    (hdown : name ≠ "..") (hletter : name.toList.getLast? ≠ some 's') :
    disk.place (path.child name) ≠ disk.place (task.target source) := by
  rw [target, source.place_bindingPath, place_child disk path hdown]
  intro heq
  obtain ⟨-, rfl⟩ := List.append_singleton_inj.1 heq
  exact hletter (by simp)

/-- No binding is in the place of the template. -/
theorem target_ne_template {location : Location} (h : task.IsTemplate disk location) (source : SourceModule) :
    location ≠ disk.place (task.target source) := by
  obtain ⟨directory, -, rfl⟩ := h
  exact task.place_child_ne_target source disk directory (by decide) (by decide)

/-! ### The layout -/

/-- The disk matters to a layout by its template only. -/
theorem layOut_congr (h : task.template after = task.template disk) (source : SourceModule)
    (functions : List Rust.ExportedFunction) :
    task.layOut source after functions = task.layOut source disk functions := by
  unfold layOut
  rw [h]

/-- Where a layout comes from: the binding of the functions, a template, and its text. -/
theorem layOut_eq_ok_iff {layout : Layout} :
    task.layOut source disk functions = .ok layout ↔ ∃ binding template content,
      task.plan.bind source.baseName functions = .ok binding ∧ task.template disk = .ok template ∧
        template.render binding = .ok content ∧
        layout = ⟨content, functions.map (·.name), task.showsHalves template binding⟩ := by
  unfold layOut
  constructor
  · intro h
    split at h
    · exact absurd h nofun
    rename_i binding hbinding
    split at h
    · exact absurd h nofun
    rename_i template htemplate
    split at h
    · exact absurd h nofun
    rename_i content hcontent
    exact ⟨binding, template, content, hbinding, htemplate, hcontent, (Except.ok.inj h).symm⟩
  · rintro ⟨binding, template, content, hbinding, htemplate, hcontent, rfl⟩
    simp only [hbinding, htemplate, hcontent]

/-- Why functions have no layout: the platform is not supported, or the template has no text for them. -/
theorem layOut_eq_error {outcome : Outcome} (h : task.layOut source disk functions = .error outcome) :
    (∃ error, Platform.resolve task.plan.platform = .error error ∧ outcome = .unsupported error) ∨
      ∃ fault, outcome = .stopped (.template fault) := by
  unfold layOut at h
  split at h
  · rename_i error hbinding
    refine .inl ⟨error, ?_, (Except.error.inj h).symm⟩
    unfold Plan.bind at hbinding
    cases hplatform : Platform.resolve task.plan.platform with
    | error failure =>
      rw [hplatform] at hbinding
      exact congrArg Except.error (Except.error.inj (show Except.error failure = .error error from hbinding))
    | ok platform =>
      rw [hplatform] at hbinding
      exact absurd hbinding nofun
  · refine .inr ?_
    split at h
    · exact ⟨_, (Except.error.inj h).symm⟩
    · split at h
      · exact ⟨_, (Except.error.inj h).symm⟩
      · exact absurd h nofun

theorem layOut_names {layout : Layout} (h : task.layOut source disk functions = .ok layout) :
    layout.names = functions.map (·.name) := by
  obtain ⟨binding, template, content, -, -, -, rfl⟩ := layOut_eq_ok_iff.1 h
  rfl

/-- Halves of characters come from the settings only. -/
theorem layOut_isHalved {layout : Layout} (h : task.layOut source disk functions = .ok layout)
    (hhalved : layout.isHalved = true) : task.config.binDirectoryHalved = true := by
  obtain ⟨binding, template, content, -, -, -, rfl⟩ := layOut_eq_ok_iff.1 h
  exact (Bool.and_eq_true_iff.1 hhalved).1

theorem layOut_whole {layout : Layout} (h : task.layOut source disk functions = .ok layout)
    (hwhole : task.config.binDirectoryHalved = false) : layout.isHalved = false := by
  rw [Bool.eq_false_iff]
  intro hhalved
  rw [layOut_isHalved h hhalved] at hwhole
  exact absurd hwhole (by simp)

theorem layOut_ne_bound (task : Task) (source : SourceModule) (disk : Disk) (functions : List Rust.ExportedFunction)
    (entry : IndexEntry) (written : Path) : task.layOut source disk functions ≠ .error (.bound entry written) := by
  intro h
  rcases layOut_eq_error h with ⟨error, -, hunsupported⟩ | ⟨fault, hstopped⟩
  · exact absurd hunsupported nofun
  · exact absurd hstopped nofun

/-- A supported platform and a template without errors give functions their layout. -/
theorem exists_layOut (hplatform : ∃ platform, Platform.resolve task.plan.platform = .ok platform)
    (hfault : ∀ fault, task.layOut source disk functions ≠ .error (.stopped (.template fault))) :
    ∃ layout, task.layOut source disk functions = .ok layout := by
  obtain ⟨platform, hplatform⟩ := hplatform
  cases hlayout : task.layOut source disk functions with
  | ok layout => exact ⟨layout, rfl⟩
  | error outcome =>
    rcases layOut_eq_error hlayout with ⟨error, hunsupported, -⟩ | ⟨fault, rfl⟩
    · rw [hplatform] at hunsupported
      exact absurd hunsupported nofun
    · exact absurd hlayout (hfault fault)

/-- A template that has a text for every binding has no fault. -/
theorem layOut_of_renders (template : Template) (h : task.template disk = .ok template)
    (hrender : ∀ binding, ∃ content, template.render binding = .ok content) (source : SourceModule)
    (functions : List Rust.ExportedFunction) (fault : Template.Fault) :
    task.layOut source disk functions ≠ .error (.stopped (.template fault)) := by
  unfold layOut
  cases task.plan.bind source.baseName functions with
  | error error => simp
  | ok binding =>
    obtain ⟨content, hcontent⟩ := hrender binding
    simp only [h, hcontent]
    simp

theorem layOut_stock (h : task.template disk = .ok Template.stock) (source : SourceModule)
    (functions : List Rust.ExportedFunction) (fault : Template.Fault) :
    task.layOut source disk functions ≠ .error (.stopped (.template fault)) :=
  layOut_of_renders _ h (fun binding => ⟨_, Template.render_stock binding⟩) source functions fault

end Generation.Task

end FfiBindings
