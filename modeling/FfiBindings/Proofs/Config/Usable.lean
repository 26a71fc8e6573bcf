import FfiBindings.Proofs.Binding.Layers
import FfiBindings.Proofs.Config.Load
import FfiBindings.Proofs.Generation.Aliases

/-!
What settings can be relied on for. A document is accepted exactly if it is a mapping or holds nothing, asks for no
count of workers below one, and names a type and a known tag in each of its aliases (`IsAcceptable`); then a run has
workers, every place has a name, and each spelling of the aliases has the tag of its last entry, in the order in which
the spellings come first (`IsUsable`). The settings bring types and no tags, so the table of a run is made without a
look at the tags; it is the one that layering the tags gives (`layer_tags`), which are not refused again
(`settings_usable`).
-/

set_option autoImplicit false
set_option relaxedAutoImplicit false

namespace FfiBindings

namespace TypeTable

/-- The tags of types are never refused. -/
theorem layer_tags (table : TypeTable) (typed : List (String × FfiType)) :
    table.layer (typed.map fun entry => (entry.1, entry.2.tag)) = .ok (table.insertAll typed) := by
  have hnone : ((typed.map fun entry => (entry.1, entry.2.tag)).map Prod.snd).filter
      (fun tag => (FfiType.ofTag? tag).isNone) = [] := by
    rw [List.map_map, List.filter_eq_nil_iff]
    intro tag htag
    obtain ⟨entry, -, rfl⟩ := List.mem_map.1 htag
    simp [FfiType.ofTag?_tag]
  have htyped : (typed.map fun entry => (entry.1, entry.2.tag)).filterMap typed? = typed := by
    rw [List.filterMap_map]
    refine (List.filterMap_congr fun entry _ => ?_).trans List.filterMap_some
    rw [Function.comp_apply, typed?, FfiType.ofTag?_tag]
    rfl
  rw [layer, hnone, htyped]
  rfl

theorem map_fst_put (key : String) (type : FfiType) (entries : List (String × FfiType)) :
    (put key type entries).map Prod.fst =
      if key ∈ entries.map Prod.fst then entries.map Prod.fst else entries.map Prod.fst ++ [key] := by
  induction entries with
  | nil => rfl
  | cons entry rest ih =>
    obtain ⟨other, old⟩ := entry
    by_cases hother : other = key
    · simp [put, hother]
    · simp only [put, hother, if_false, List.map_cons, ih, List.mem_cons, Ne.symm hother, false_or]
      split <;> rfl

/-- Entries that are put one after the other come in the order in which their keys come first. -/
theorem map_fst_foldl_put (entries : List (String × FfiType)) :
    (entries.foldl (fun entries (key, type) => put key type entries) []).map Prod.fst =
      (entries.map Prod.fst).eraseDups := by
  induction entries using List.reverseRecOn with
  | nil => rfl
  | append_singleton entries entry ih =>
    obtain ⟨key, type⟩ := entry
    rw [List.foldl_append, List.map_append, List.eraseDups_append, ← ih]
    simp only [List.foldl_cons, List.foldl_nil, map_fst_put, List.map_cons, List.map_nil]
    have hmem : key ∈ (entries.foldl (fun entries (key, type) => put key type entries) []).map Prod.fst ↔
        key ∈ entries.map Prod.fst := by
      rw [ih, List.mem_eraseDups]
    by_cases hkey : key ∈ entries.map Prod.fst
    · rw [if_pos (hmem.2 hkey)]
      simp [List.removeAll, hkey]
    · rw [if_neg fun h => hkey (hmem.1 h)]
      simp [List.removeAll, hkey, List.eraseDups_cons]

end TypeTable

namespace Config

open Yaml (Document Value)

variable {root : Path} {document : Document} {config : Config} {labels : Value.Labels} {value : Value}
  {entries : List (Value × Value)} {aliases read : List (String × FfiType)} {spelling : String} {type : FfiType}

/-! ### What is asked of a document -/

/-- The entries at the root of a document; one that holds nothing has none. -/
def rootEntries? (document : Document) : Option (List (Value × Value)) :=
  match document.root with
  | .null => some []
  | .mapping _ entries => some entries
  | _ => none

/-- The setting of a name; one that is missing counts as null. -/
def settingOf (document : Document) (name : String) : Value :=
  ((rootEntries? document).bind (Value.get? name)).getD .null

/-- The entries of the aliases in a document. -/
def aliasesIn (document : Document) : List (Value × Value) :=
  aliasEntries document.labels (settingOf document "type_aliases")

/-- A type and a tag: both are texts or numbers, the first is spelled with tokens, and the second names a type of the
interface. -/
def IsAlias (entry : Value × Value) : Prop :=
  ∃ key type spelling, nonemptyTextOf? entry.1 = some key ∧ nonemptyTextOf? entry.2 = some (FfiType.tag type) ∧
    Rust.canonicalType key = .ok spelling

/-- What a document of settings must be. -/
structure IsAcceptable (document : Document) : Prop where
  mapping : (rootEntries? document).isSome = true
  workers : ∀ count, intOf? (settingOf document "workers") = some count → 1 ≤ count
  aliases : settingOf document "type_aliases" = .null ∨
    (entriesOf? document.labels (settingOf document "type_aliases")).isSome = true
  isAlias : ∀ entry ∈ aliasesIn document, IsAlias entry

/-- The canonical spelling of the type in an entry. -/
def spelling? (entry : Value × Value) : Option String :=
  (nonemptyTextOf? entry.1).bind fun key => (Rust.canonicalType key).toOption

/-- What the settings in a document are good for. -/
structure IsUsable (document : Document) (config : Config) : Prop where
  workers : 1 ≤ config.workers
  sourceDirectory : config.sourceDirectory ≠ ""
  outputDirectory : config.outputDirectory ≠ ""
  indexFile : config.indexFile ≠ ""
  binDirectory : config.binDirectory ≠ ""
  tags : ∀ entry ∈ config.typeAliases, entry.2.tag ∈ FfiType.all.map FfiType.tag
  spellings : config.typeAliases.map Prod.fst = ((aliasesIn document).filterMap spelling?).eraseDups
  last : ∀ spelling type, (spelling, type) ∈ config.typeAliases ↔
    ∃ key, IsLastAlias (aliasesIn document) key type ∧ Rust.canonicalType key = .ok spelling

/-! ### The aliases -/

theorem IsAlias.aliasOf {entry : Value × Value} (h : IsAlias entry) (labels : Value.Labels) :
    ∃ pair, aliasOf labels entry = .ok pair := by
  obtain ⟨key, type, spelling, hkey, htag, hspelling⟩ := h
  simp only [Config.aliasOf, hkey, htag, FfiType.ofTag?_tag, hspelling]
  exact ⟨_, rfl⟩

theorem isAlias_of_aliasOf {entry : Value × Value} {pair : String × FfiType} (h : aliasOf labels entry = .ok pair) :
    IsAlias entry := by
  obtain ⟨key, hkey, htag, hspelling⟩ := aliasOf_eq_ok h
  exact ⟨key, pair.2, pair.1, hkey, htag, hspelling⟩

theorem isAlias_of_forall₂ (h : List.Forall₂ (fun entry pair => aliasOf labels entry = .ok pair) entries read) :
    ∀ entry ∈ entries, IsAlias entry := by
  induction h with
  | nil => exact fun _ hmem => absurd hmem List.not_mem_nil
  | cons hfirst _ ih => exact List.forall_mem_cons.2 ⟨isAlias_of_aliasOf hfirst, ih⟩

theorem exists_mapM_aliasOf (h : ∀ entry ∈ entries, IsAlias entry) (labels : Value.Labels) :
    ∃ read, entries.mapM (aliasOf labels) = .ok read := by
  induction entries with
  | nil => exact ⟨[], rfl⟩
  | cons entry rest ih =>
    obtain ⟨hentry, hrest⟩ := List.forall_mem_cons.1 h
    obtain ⟨pair, hpair⟩ := hentry.aliasOf labels
    obtain ⟨read, hread⟩ := ih hrest
    exact ⟨pair :: read, by rw [List.mapM_cons, hpair, hread]; rfl⟩

/-- Aliases are read exactly if they are missing or all entries of a mapping are aliases. -/
theorem exists_typeAliasesOf_iff :
    (∃ aliases, typeAliasesOf labels value = .ok aliases) ↔
      (value = .null ∨ (entriesOf? labels value).isSome = true) ∧
        ∀ entry ∈ aliasEntries labels value, IsAlias entry := by
  constructor
  · rintro ⟨aliases, h⟩
    obtain ⟨read, hread, -⟩ := typeAliasesOf_eq_ok h
    refine ⟨?_, isAlias_of_forall₂ hread⟩
    unfold typeAliasesOf at h
    split at h
    · exact .inl rfl
    · split at h
      · rename_i entries hentries
        exact .inr (by rw [hentries]; rfl)
      · exact absurd h (by simp)
  · rintro ⟨hmapping, hall⟩
    rcases hmapping with rfl | hsome
    · exact ⟨[], rfl⟩
    · obtain ⟨entries, hentries⟩ := Option.isSome_iff_exists.1 hsome
      rw [aliasEntries, hentries, Option.getD_some] at hall
      obtain ⟨read, hread⟩ := exists_mapM_aliasOf hall labels
      unfold typeAliasesOf
      split
      · exact ⟨[], rfl⟩
      · simp only [hentries, aliasesOf, hread]
        exact ⟨_, rfl⟩

/-- The spellings that are read are those of the entries. -/
theorem map_fst_of_forall₂ (h : List.Forall₂ (fun entry pair => aliasOf labels entry = .ok pair) entries read) :
    read.map Prod.fst = entries.filterMap spelling? := by
  induction h with
  | nil => rfl
  | @cons entry pair rest pairs hfirst _ ih =>
    obtain ⟨key, hkey, -, hspelling⟩ := aliasOf_eq_ok hfirst
    have hentry : spelling? entry = some pair.1 := by
      rw [spelling?, hkey, Option.bind_some, hspelling]
      rfl
    rw [List.map_cons, List.filterMap_cons, hentry, ih]

/-- A spelling that the entries have has a last entry. -/
theorem exists_isLastAlias (h : ∀ entry ∈ entries, IsAlias entry) (hsome : ¬ NoAlias entries spelling) :
    ∃ key type, IsLastAlias entries key type ∧ Rust.canonicalType key = .ok spelling := by
  induction entries with
  | nil => exact absurd (fun _ hmem => absurd hmem List.not_mem_nil) hsome
  | cons entry rest ih =>
    obtain ⟨hentry, hrest⟩ := List.forall_mem_cons.1 h
    by_cases hlater : NoAlias rest spelling
    · obtain ⟨key, type, other, hkey, htag, hother⟩ := hentry
      have hspelling : Rust.canonicalType key = .ok spelling := by
        by_contra hne
        refine hsome fun given hmem found hfound => ?_
        rcases List.mem_cons.1 hmem with rfl | hmem
        · rwa [← Option.some.inj (hkey.symm.trans hfound)]
        · exact hlater given hmem found hfound
      refine ⟨key, type, ⟨[], entry, rest, rfl, hkey, htag, fun given hmem found hfound heq => ?_⟩, hspelling⟩
      exact hlater given hmem found hfound (heq.trans hspelling)
    · obtain ⟨key, type, ⟨before, given, after, rfl, hlast⟩, hspelling⟩ := ih hrest hlater
      exact ⟨key, type, ⟨entry :: before, given, after, rfl, hlast⟩, hspelling⟩

theorem mem_aliases_iff (h : typeAliasesOf labels value = .ok aliases) :
    (spelling, type) ∈ aliases ↔
      ∃ key, IsLastAlias (aliasEntries labels value) key type ∧ Rust.canonicalType key = .ok spelling := by
  obtain ⟨read, hread, rfl⟩ := typeAliasesOf_eq_ok h
  have hall := (exists_typeAliasesOf_iff.1 ⟨_, h⟩).2
  have hnodup := @TypeTable.nodup_foldl_put [] read List.nodup_nil
  rw [← TypeTable.lookup_eq_some_iff hnodup, TypeTable.lookup_foldl_put, List.lookup_nil, Option.or_none]
  constructor
  · intro hlookup
    have hsome : ¬ NoAlias (aliasEntries labels value) spelling := by
      intro hnone
      rw [lookup_reverse_eq_none hread hnone] at hlookup
      exact absurd hlookup (by simp)
    obtain ⟨key, given, hlast, hspelling⟩ := exists_isLastAlias hall hsome
    obtain rfl := Option.some.inj (hlookup.symm.trans (lookup_reverse_eq_some hread hlast hspelling))
    exact ⟨key, hlast, hspelling⟩
  · rintro ⟨key, hlast, hspelling⟩
    exact lookup_reverse_eq_some hread hlast hspelling

theorem map_fst_aliases (h : typeAliasesOf labels value = .ok aliases) :
    aliases.map Prod.fst = ((aliasEntries labels value).filterMap spelling?).eraseDups := by
  obtain ⟨read, hread, rfl⟩ := typeAliasesOf_eq_ok h
  rw [TypeTable.map_fst_foldl_put, map_fst_of_forall₂ hread]

/-! ### The settings -/

theorem getD_filter_ne (text? : Option String) {default : String} (h : default ≠ "") :
    (text?.filter (!·.isEmpty)).getD default ≠ "" := by
  cases htext : text?.filter (!·.isEmpty) with
  | none => exact h
  | some text =>
    obtain ⟨-, hnonempty⟩ := Option.filter_eq_some_iff.1 htext
    intro hempty
    rw [Option.getD_some] at hempty
    rw [hempty] at hnonempty
    exact absurd hnonempty (by decide)

/-- The settings of a document with these aliases. -/
def settled (root : Path) (document : Document) (aliases : List (String × FfiType)) : Config where
  root
  sourceDirectory := (placeOf? (settingOf document "source_dir")).getD "rs"
  outputDirectory := (placeOf? (settingOf document "output_dir")).getD "mod"
  indexFile := (placeOf? (settingOf document "index_file")).getD "index.ts"
  binDirectory := (nonemptyTextOf? (settingOf document "bin_dir")).getD "lib/bin"
  binDirectoryHalved := isHalved (settingOf document "bin_dir")
  platform := textOf? (settingOf document "platform")
  workers := (intOf? (settingOf document "workers")).getD 1
  excludedPaths := patternsOf (settingOf document "exclude_paths")
  typeAliases := aliases
  templatesDirectory := (placeOf? (settingOf document "templates_dir")).map root.joinText

theorem ofDocument_eq (root : Path) (document : Document) :
    ofDocument root document =
      match rootEntries? document with
      | some entries => ofEntries root document.labels entries
      | none => .error .noMapping := by
  obtain ⟨value, labels⟩ := document
  cases value with
  | null => rfl
  | mapping => rfl
  | _ => rfl

/-- A document gives settings exactly if it is a mapping or holds nothing, its workers are not below one and its aliases
are read. -/
theorem ofDocument_eq_ok_iff :
    ofDocument root document = .ok config ↔
      (rootEntries? document).isSome = true ∧
        (∀ count, intOf? (settingOf document "workers") = some count → 1 ≤ count) ∧
        ∃ aliases, typeAliasesOf document.labels (settingOf document "type_aliases") = .ok aliases ∧
          settled root document aliases = config := by
  have hworkers : (∀ count, intOf? (settingOf document "workers") = some count → 1 ≤ count) ↔
      ¬ (intOf? (settingOf document "workers")).getD 1 < 1 := by
    cases intOf? (settingOf document "workers") <;> simp
  rw [ofDocument_eq, hworkers]
  cases hentries : rootEntries? document with
  | none => simp
  | some entries =>
    have hsetting (name : String) : (Value.get? name entries).getD .null = settingOf document name := by
      rw [settingOf, hentries, Option.bind_some]
    simp only [ofEntries, hsetting, Option.isSome_some, true_and]
    by_cases hfew : (intOf? (settingOf document "workers")).getD 1 < 1
    · rw [if_pos hfew]
      exact ⟨fun h => absurd h (by simp [bind, Except.bind, throw, throwThe, MonadExceptOf.throw]),
        fun h => absurd hfew h.1⟩
    · rw [if_neg hfew]
      cases haliases : typeAliasesOf document.labels (settingOf document "type_aliases") with
      | error error => simp [bind, Except.bind]
      | ok aliases => simp [bind, Except.bind, pure, Except.pure, settled, hfew]

theorem exists_ofDocument_iff : (∃ config, ofDocument root document = .ok config) ↔ IsAcceptable document := by
  simp only [ofDocument_eq_ok_iff]
  constructor
  · rintro ⟨config, hmapping, hworkers, aliases, haliases, -⟩
    obtain ⟨hkind, hall⟩ := exists_typeAliasesOf_iff.1 ⟨aliases, haliases⟩
    exact ⟨hmapping, hworkers, hkind, hall⟩
  · intro h
    obtain ⟨aliases, haliases⟩ := exists_typeAliasesOf_iff.2 ⟨h.aliases, h.isAlias⟩
    exact ⟨_, h.mapping, h.workers, aliases, haliases, rfl⟩

theorem isUsable_of_ofDocument (h : ofDocument root document = .ok config) : IsUsable document config := by
  obtain ⟨-, hworkers, aliases, haliases, rfl⟩ := ofDocument_eq_ok_iff.1 h
  refine ⟨?_, ?_, ?_, ?_, ?_, ?_, map_fst_aliases haliases, fun spelling type => mem_aliases_iff haliases⟩
  · show 1 ≤ (intOf? (settingOf document "workers")).getD 1
    cases hcount : intOf? (settingOf document "workers") with
    | none => exact Int.le_refl 1
    | some count => exact hworkers count hcount
  · exact getD_filter_ne _ (by decide)
  · exact getD_filter_ne _ (by decide)
  · exact getD_filter_ne _ (by decide)
  · exact getD_filter_ne _ (by decide)
  · exact fun entry _ => List.mem_map.2 ⟨_, FfiType.mem_all _, rfl⟩

/-! ### What a run makes of the settings -/

/-- Every symbol of a binding has known tags only. -/
def HasKnownTags (binding : Binding) : Prop :=
  ∀ symbol ∈ binding.symbols, ∀ type ∈ symbol.returns :: symbol.arguments,
    type.tag ∈ FfiType.all.map FfiType.tag

/-- Accepted settings are usable. Whatever a document holds, it is refused or gives settings, and it gives them exactly
if it is acceptable; then they are good for a run, and the table that the run makes of their aliases is the one that
layering them over the standard table gives, which refuses none of them, so whatever the platform, the bindings have
known tags. Settings are loaded exactly from a file that can be looked for, and they are those of the document in it. -/
theorem settings_usable :
    (∀ root document, ((∃ config, ofDocument root document = .ok config) ↔ IsAcceptable document) ∧
      ∀ config, ofDocument root document = .ok config → IsUsable document config) ∧
    (∀ disk path config, load disk path = .ok config ↔ Disk.hasNull (filePath disk path) = false ∧
      ∃ document, HoldsDocument disk (settingsFile disk path) document ∧
        ofDocument (settingsFile disk path).parent document = .ok config) ∧
    ∀ (config : Config) (request : Generation.Request),
      TypeTable.standard.layer (config.typeAliases.map fun entry => (entry.1, entry.2.tag)) =
        .ok (Generation.planOf request config).types ∧
      ∀ moduleName functions binding,
        (Generation.planOf request config).bind moduleName functions = .ok binding → HasKnownTags binding := by
  refine ⟨fun root document => ⟨exists_ofDocument_iff, fun config => isUsable_of_ofDocument⟩,
    fun disk path config => load_eq_ok_iff, fun config request => ⟨?_, ?_⟩⟩
  · exact TypeTable.layer_tags .standard config.typeAliases
  · intro moduleName functions binding _ symbol _ type _
    exact List.mem_map.2 ⟨type, FfiType.mem_all type, rfl⟩

namespace Sample

/-- Settings of many kinds, with two keys of one spelling. -/
def mixedSettings : Document where
  root := .mapping none
    [(.string "source_dir", .string ""), (.string "index_file", .bool true), (.string "bin_dir", .int 5),
      (.string "workers", .string " 4 "), (.string "exclude_paths", .bytes [7, 12]),
      (.string "type_aliases", .mapping none
        [(.string "*const\tFoo", .string "u8"), (.string "usize", .string "u32"),
          (.string "*const Foo // raw", .string "ptr")])]
  labels := []

def mixedConfig : Config where
  root := ⟨.root, ["lib"]⟩
  binDirectory := "5"
  workers := 4
  excludedPaths := ["7", "12"]
  typeAliases := [("*const Foo", .ptr), ("usize", .u32)]

/-- A library with a settings file. -/
def settingsTree : Tree :=
  .file fileName "workers: 3\n".toUTF8 0o644 .empty

/-- No run has less than one worker. -/
def idleSettings : Document where
  root := .mapping none [(.string "workers", .int 0)]
  labels := []

end Sample

/-- Settings that fall back where they are of another kind, and a binding that is made with their aliases. -/
theorem settings_usable_mixed :
    ofDocument ⟨.root, ["lib"]⟩ Sample.mixedSettings = .ok Sample.mixedConfig ∧
      IsAcceptable Sample.mixedSettings ∧ IsUsable Sample.mixedSettings Sample.mixedConfig ∧
      TypeTable.standard.layer [("*const Foo", "ptr"), ("usize", "u32")] =
        .ok (Generation.planOf { path := ⟨.root, ["lib"]⟩ } Sample.mixedConfig).types ∧
      (∃ binding, (Generation.planOf { path := ⟨.root, ["lib"]⟩ } Sample.mixedConfig).bind "m"
        [⟨"f", [⟨"*const Foo", "p"⟩], "usize", 1⟩] = .ok binding ∧
        binding.symbols = [⟨"f", [.ptr], .u32⟩] ∧ HasKnownTags binding) ∧
      ¬ IsAcceptable Sample.idleSettings ∧
      (∃ document, HoldsDocument { tree := Sample.settingsTree } ⟨.root, [fileName]⟩ document ∧
        ofDocument ⟨.root, []⟩ document = .ok { root := ⟨.root, []⟩, workers := 3 }) := by
  obtain ⟨haccepted, hloaded, hplanned⟩ := settings_usable
  have hmixed : ofDocument ⟨.root, ["lib"]⟩ Sample.mixedSettings = .ok Sample.mixedConfig := by decide +kernel
  obtain ⟨hiff, husable⟩ := haccepted ⟨.root, ["lib"]⟩ Sample.mixedSettings
  obtain ⟨hlayer, hknown⟩ := hplanned Sample.mixedConfig { path := ⟨.root, ["lib"]⟩ }
  have hthree : load { tree := Sample.settingsTree } ⟨.root, []⟩ = .ok { root := ⟨.root, []⟩, workers := 3 } := by
    decide +kernel
  refine ⟨hmixed, hiff.1 ⟨_, hmixed⟩, husable _ hmixed, hlayer, ⟨_, rfl, by decide +kernel, hknown _ _ _ rfl⟩, ?_,
    ((hloaded _ _ _).1 hthree).2⟩
  intro hidle
  exact absurd (hidle.workers 0 rfl) (by decide)

end Config

end FfiBindings
