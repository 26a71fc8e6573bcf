import FfiBindings.Config.Settings
import FfiBindings.Generation.Run
import FfiBindings.Proofs.Binding.Reading
import FfiBindings.Proofs.Binding.TypeTable
import FfiBindings.Proofs.Generation.Layout
import FfiBindings.Proofs.Rust.Exports
import FfiBindings.Proofs.Rust.Lexeme

/-!
How type aliases reach the bindings. The key of an alias is spelled from a text of its own and the type of a parameter
from a slice of a source; where both have the same tokens they are spelled alike, and neither has anything to
strip, so the type is found under the key. Settings keep the last alias of a spelling (`lookup_reverse_eq_some`), and
the types of all functions of a source are found in this way, and can be read in the text of the binding
(`layOut_designated`).
-/

set_option autoImplicit false
set_option relaxedAutoImplicit false

namespace FfiBindings

open Yaml (Value)

namespace Config

variable {labels : Value.Labels} {value : Value} {entries : List (Value × Value)}
  {aliases read : List (String × FfiType)} {key spelling : String} {type : FfiType}

/-! ### The aliases of the settings -/

/-- The entries give the type to the key, and none of the later ones has a key of the same canonical spelling. -/
def IsLastAlias (entries : List (Value × Value)) (key : String) (type : FfiType) : Prop :=
  ∃ before entry after, entries = before ++ entry :: after ∧ nonemptyTextOf? entry.1 = some key ∧
    nonemptyTextOf? entry.2 = some type.tag ∧
    ∀ later ∈ after, ∀ other, nonemptyTextOf? later.1 = some other →
      Rust.canonicalType other ≠ Rust.canonicalType key

/-- No key of the entries has the canonical spelling. -/
def NoAlias (entries : List (Value × Value)) (spelling : String) : Prop :=
  ∀ entry ∈ entries, ∀ key, nonemptyTextOf? entry.1 = some key → Rust.canonicalType key ≠ .ok spelling

theorem aliasOf_eq_ok {entry : Value × Value} {pair : String × FfiType} (h : aliasOf labels entry = .ok pair) :
    ∃ key, nonemptyTextOf? entry.1 = some key ∧ nonemptyTextOf? entry.2 = some pair.2.tag ∧
      Rust.canonicalType key = .ok pair.1 := by
  unfold aliasOf at h
  split at h
  · rename_i key tag hkey htag
    split at h
    · exact absurd h (by simp)
    · rename_i type htype
      split at h
      · exact absurd h (by simp)
      · rename_i spelling hspelling
        obtain rfl := Except.ok.inj h
        exact ⟨key, hkey, by rw [htag, FfiType.tag_of_ofTag? htype], hspelling⟩
  · exact absurd h (by simp)

/-- Aliases are read one by one. -/
theorem forall₂_of_mapM (h : entries.mapM (aliasOf labels) = .ok read) :
    List.Forall₂ (fun entry pair => aliasOf labels entry = .ok pair) entries read := by
  induction entries generalizing read with
  | nil =>
    obtain rfl := Except.ok.inj h
    exact .nil
  | cons entry rest ih =>
    rw [List.mapM_cons] at h
    cases hfirst : aliasOf labels entry with
    | error error =>
      rw [hfirst] at h
      exact absurd h (by simp [bind, Except.bind])
    | ok pair =>
      cases hrest : rest.mapM (aliasOf labels) with
      | error error =>
        rw [hfirst, hrest] at h
        exact absurd h (by simp [bind, Except.bind])
      | ok pairs =>
        rw [hfirst, hrest] at h
        obtain rfl := Except.ok.inj h
        exact .cons hfirst (ih hrest)

theorem lookup_reverse_eq_none (h : List.Forall₂ (fun entry pair => aliasOf labels entry = .ok pair) entries read)
    (hnone : NoAlias entries spelling) : read.reverse.lookup spelling = none := by
  induction h with
  | nil => rfl
  | @cons entry pair rest pairs hfirst _ ih =>
    obtain ⟨other, type⟩ := pair
    obtain ⟨key, hkey, -, hspelling⟩ := aliasOf_eq_ok hfirst
    have hne : spelling ≠ other := fun heq => hnone entry List.mem_cons_self key hkey (heq ▸ hspelling)
    rw [List.reverse_cons, List.lookup_append, ih fun later hmem => hnone later (List.mem_cons_of_mem _ hmem),
      TypeTable.lookup_cons_pair, if_neg hne]
    rfl

theorem lookup_reverse_eq_some (h : List.Forall₂ (fun entry pair => aliasOf labels entry = .ok pair) entries read)
    (hlast : IsLastAlias entries key type) (hspelling : Rust.canonicalType key = .ok spelling) :
    read.reverse.lookup spelling = some type := by
  obtain ⟨before, entry, after, rfl, hkey, htag, hlater⟩ := hlast
  induction before generalizing read with
  | nil =>
    obtain ⟨pair, pairs, hfirst, hrest, rfl⟩ := List.forall₂_cons_left_iff.1 h
    obtain ⟨other, given⟩ := pair
    obtain ⟨found, hfound, hgiven, hother⟩ := aliasOf_eq_ok hfirst
    obtain rfl := Option.some.inj (hkey.symm.trans hfound)
    obtain rfl := Except.ok.inj (hspelling.symm.trans hother)
    obtain rfl := FfiType.tag_injective (Option.some.inj (htag.symm.trans hgiven))
    have hnone : NoAlias after spelling := by
      intro later hmem other hother heq
      exact hlater later hmem other hother (heq.trans hspelling.symm)
    rw [List.reverse_cons, List.lookup_append, lookup_reverse_eq_none hrest hnone, TypeTable.lookup_cons_pair,
      if_pos rfl]
    rfl
  | cons first before ih =>
    obtain ⟨pair, pairs, -, hrest, rfl⟩ := List.forall₂_cons_left_iff.1 h
    rw [List.reverse_cons, List.lookup_append, ih hrest, Option.some_or]

/-- The entries of a value of aliases; a value that is missing has none. -/
def aliasEntries (labels : Value.Labels) (value : Value) : List (Value × Value) :=
  (entriesOf? labels value).getD []

/-- The aliases of the settings are what their entries say, the last one of each spelling. -/
theorem typeAliasesOf_eq_ok (h : typeAliasesOf labels value = .ok aliases) :
    ∃ read, List.Forall₂ (fun entry pair => aliasOf labels entry = .ok pair) (aliasEntries labels value) read ∧
      aliases = read.foldl (fun aliases (key, type) => TypeTable.put key type aliases) [] := by
  unfold typeAliasesOf at h
  split at h
  · obtain rfl := Except.ok.inj h
    exact ⟨[], .nil, rfl⟩
  · split at h
    · rename_i entries hentries
      rw [aliasEntries, hentries, Option.getD_some]
      cases hread : entries.mapM (aliasOf labels) with
      | error error =>
        rw [aliasesOf, hread] at h
        exact absurd h (by simp)
      | ok read =>
        rw [aliasesOf, hread] at h
        obtain rfl := Except.ok.inj h
        exact ⟨read, forall₂_of_mapM hread, rfl⟩
    · exact absurd h (by simp)

/-- A table with the aliases over it answers with the last alias of the spelling that is asked for, and where there
is none with what it found before. -/
theorem find?_insertAll_aliases (table : TypeTable) (h : typeAliasesOf labels value = .ok aliases)
    (designator : String) :
    (∀ key type, IsLastAlias (aliasEntries labels value) key type →
      Rust.canonicalType key = .ok (Text.strip designator) →
      (table.insertAll aliases).find? designator = some type) ∧
    (NoAlias (aliasEntries labels value) (Text.strip designator) →
      (table.insertAll aliases).find? designator = table.find? designator) := by
  obtain ⟨read, hread, rfl⟩ := typeAliasesOf_eq_ok h
  have hlookup : ∀ spelling, (read.foldl (fun aliases (key, type) => TypeTable.put key type aliases)
      []).reverse.lookup spelling = read.reverse.lookup spelling := by
    intro spelling
    have hnodup : ((read.foldl (fun aliases (key, type) => TypeTable.put key type aliases)
        []).map Prod.fst).Nodup := TypeTable.nodup_foldl_put read TypeTable.empty.nodup
    rw [TypeTable.lookup_reverse hnodup, TypeTable.lookup_foldl_put, List.lookup_nil, Option.or_none]
  rw [TypeTable.find?_insertAll, hlookup]
  constructor
  · intro key type hlast hspelling
    rw [lookup_reverse_eq_some hread hlast hspelling, Option.some_or]
  · intro hnone
    rw [lookup_reverse_eq_none hread hnone, Option.none_or]

end Config

/-! ### The types of functions -/

open Config

variable {labels : Value.Labels} {value : Value} {entries : List (Value × Value)} {config : Config}
  {aliases : List (String × FfiType)} {tokens : List Rust.Token} {type : FfiType}

/-- The type that aliases and standard tags give to a type that is written with the tokens: what the last alias says
whose key has these tokens; without an alias of the spelling what the spelling is the tag of, and else the type that
stands for everything. -/
structure Designates (entries : List (Value × Value)) (tokens : List Rust.Token) (type : FfiType) : Prop where
  aliased : ∀ key given, IsLastAlias entries key given → ∀ keyTokens, Rust.tokens key = .ok keyTokens →
    keyTokens.map Rust.Token.written = tokens.map Rust.Token.written → type = given
  standard : NoAlias entries (Rust.spell tokens) → ∀ tagged : FfiType, tagged.tag = Rust.spell tokens →
    type = tagged
  fallback : NoAlias entries (Rust.spell tokens) → (∀ tagged : FfiType, tagged.tag ≠ Rust.spell tokens) →
    type = .u64

theorem designates_resolve (h : typeAliasesOf labels value = .ok aliases)
    (htrim : ∀ token ∈ tokens, token.IsTrim) :
    Designates (aliasEntries labels value) tokens
      ((TypeTable.standard.insertAll aliases).resolve (Rust.spell tokens)) := by
  obtain ⟨halias, hnone⟩ := find?_insertAll_aliases .standard h (Rust.spell tokens)
  rw [Rust.strip_spell htrim] at halias hnone
  refine ⟨fun key given hlast keyTokens hkey hsame => ?_, fun habsent tagged htag => ?_, fun habsent hall => ?_⟩
  · have hspelling : Rust.canonicalType key = .ok (Rust.spell tokens) := by
      rw [Rust.canonicalType, hkey, ← Rust.spell_congr hsame]
      rfl
    rw [TypeTable.resolve, halias key given hlast hspelling, Option.getD_some]
  · rw [TypeTable.resolve, hnone habsent, TypeTable.find?_standard_eq_some_iff.2
      (htag.trans (Rust.strip_spell htrim).symm), Option.getD_some]
  · have hfind : TypeTable.standard.find? (Rust.spell tokens) = none := by
      rw [Option.eq_none_iff_forall_not_mem]
      intro tagged hfound
      exact hall tagged ((TypeTable.find?_standard_eq_some_iff.1 hfound).trans (Rust.strip_spell htrim))
    rw [TypeTable.resolve, hnone habsent, hfind, Option.getD_none, TypeTable.fallback]

/-- A symbol has the name of the function and the types that are given to the types that are written in it. -/
structure SymbolOf (entries : List (Value × Value)) (function : Rust.Grammar.Function) (symbol : Symbol) :
    Prop where
  name : symbol.name = Rust.Signature.plainName function.name.1.text
  arguments : List.Forall₂ (fun parameter type => Designates entries parameter.type type)
    function.parameters.toList symbol.arguments
  returns : ∀ returned, function.returned = some returned → Designates entries returned.type symbol.returns

theorem symbolOf_meaning {function : Rust.Grammar.Function} (h : typeAliasesOf labels value = .ok aliases)
    (htrim : ∀ token ∈ function.tokens, token.IsTrim) :
    SymbolOf (aliasEntries labels value) function
      (.ofFunction (TypeTable.standard.insertAll aliases) function.meaning) where
  name := rfl
  arguments := by
    rw [Symbol.ofFunction, Rust.Grammar.Function.meaning, Rust.Grammar.Parameters.meaning_eq, List.map_map,
      List.forall₂_map_right_iff, List.forall₂_same]
    intro parameter hparameter
    exact designates_resolve h fun token hmem => htrim token (Rust.Grammar.Function.type_subset hparameter hmem)
  returns := by
    intro returned hreturned
    have hmeaning : function.meaning.returnType = Rust.spell returned.type := by
      rw [Rust.Grammar.Function.meaning, hreturned]
      rfl
    rw [Symbol.ofFunction, hmeaning]
    exact designates_resolve h fun token hmem =>
      htrim token (Rust.Grammar.Function.returned_subset hreturned hmem)

namespace Generation

/-- Aliases reach the bindings. What is laid out of the functions that a source exports is rendered from a binding that
has one symbol for each, and the symbols have the types that the aliases of the settings give. From the text that the
stock template makes of it, these symbols are read back. -/
theorem layOut_designated {items : Rust.Grammar.Items} {source : String}
    (haliases : typeAliasesOf labels value = .ok config.typeAliases)
    (htokens : Rust.tokens source = .ok items.tokens) :
    ∃ functions, Rust.exportedFunctions source = .ok functions ∧
      ∀ disk request faults module layout,
        (taskOf request config faults).layOut module disk functions = .ok layout →
        ∃ template binding, Template.load disk config.templatesDirectory = .ok template ∧
          template.render binding = .ok layout.content ∧
          List.Forall₂ (SymbolOf (aliasEntries labels value)) items.found binding.symbols ∧
          (template = Template.stock → Reading.IsLine module.baseName → Reading.IsLine config.binDirectory →
            ∃ reading, Reading.ofText? layout.content = some reading ∧ reading.symbols = binding.symbols) := by
  have hfunctions := Rust.Grammar.exportedFunctions_of_tokens htokens
  refine ⟨_, hfunctions, ?_⟩
  intro disk request faults module layout hlayout
  obtain ⟨binding, template, content, hbinding, htemplate, hcontent, rfl⟩ := Task.layOut_eq_ok_iff.1 hlayout
  refine ⟨template, binding, htemplate, hcontent, ?_, fun hstock hname hdirectory => ?_⟩
  swap
  · subst hstock
    have hbinds : (planOf request config).Binds module.baseName _ binding :=
      ⟨hbinding, .inl ⟨source, hfunctions⟩, hname, hdirectory⟩
    obtain ⟨text, hrender, hread⟩ := hbinds.ofText?_render
    obtain rfl : text = content := Except.ok.inj (hrender.symm.trans hcontent)
    exact ⟨_, hread, rfl⟩
  rw [Plan.symbols_of_bind hbinding, List.map_map, List.forall₂_map_right_iff, List.forall₂_same]
  intro function hfound
  refine symbolOf_meaning haliases fun token hmem => Rust.isTrim_of_mem_tokens htokens token ?_
  exact Rust.Grammar.Items.tokens_subset (List.mem_filter.1 hfound).1 hmem

namespace Sample

open Rust.Sample (word mark nested_word)

/-- Two keys of one spelling. -/
def pointerAliases : Value :=
  .mapping none [(.string "*const\tFoo", .string "u8"), (.string "*const Foo // raw", .string "ptr")]

def pointerSettings : Config where
  root := ⟨.root, []⟩
  typeAliases := [("*const Foo", .ptr)]

theorem nested_pointer : Rust.Nested Rust.Bracket.all Rust.Grammar.inParameterType
    [mark "*", word "const", word "Foo"] :=
  .plain (Rust.isPlain_of_isPunct (show (mark "*").isPunct "*" = true from rfl) (by decide)) (by decide)
    (.plain (Rust.isPlain_of_kind_ne (by decide)) (by decide) (nested_word "Foo" (by decide)))

theorem isPunct_colon : (mark ":").isPunct ":" = true := rfl

theorem isPunct_arrow : (mark "->").isPunct "->" = true := rfl

/-- A function that takes a pointer and returns a type without an alias. -/
def pointerItems : Rust.Grammar.Items :=
  .function
    { Rust.Sample.function with
      parameters := .last
        { pattern := [word "pointer"]
          colon := ⟨mark ":", isPunct_colon⟩
          type := [mark "*", word "const", word "Foo"]
          nestedPattern := nested_word "pointer" (by decide)
          nestedType := nested_pointer
          hasType := by decide }
      returned := some
        { arrow := ⟨mark "->", isPunct_arrow⟩
          type := [word "Bar"]
          nested := nested_word "Bar" (by decide)
          hasType := by decide } }
    .none

def pointerSource : String :=
  "#[no_mangle] pub fn go(pointer: * /* raw */ const Foo) -> Bar;"

def pointerModule : SourceModule := ⟨⟨.root, ["rs", "go.rs"]⟩, []⟩

def pointerTask : Task :=
  taskOf { path := ⟨.root, []⟩, platform := some "linux" } pointerSettings {}

end Sample

/-- A parameter whose type is spelled like the last one of two keys, and a result without an alias. -/
theorem layOut_designated_pointer :
    typeAliasesOf [] Sample.pointerAliases = .ok Sample.pointerSettings.typeAliases ∧
      Rust.tokens Sample.pointerSource = .ok Sample.pointerItems.tokens ∧
      ∃ functions layout reading, Rust.exportedFunctions Sample.pointerSource = .ok functions ∧
        Sample.pointerTask.layOut Sample.pointerModule { tree := .empty } functions = .ok layout ∧
        Reading.ofText? layout.content = some reading ∧ reading.symbols = [⟨"go", [.ptr], .u64⟩] := by
  have haliases : typeAliasesOf [] Sample.pointerAliases = .ok Sample.pointerSettings.typeAliases := by
    decide +kernel
  have htokens : Rust.tokens Sample.pointerSource = .ok Sample.pointerItems.tokens := by
    decide +kernel
  obtain ⟨functions, hfunctions, hall⟩ := layOut_designated haliases htokens
  have hlayout : ∃ layout, Sample.pointerTask.layOut Sample.pointerModule { tree := .empty } functions =
      .ok layout := by
    have hgo : Rust.exportedFunctions Sample.pointerSource = .ok [⟨"go", [⟨"*const Foo", "pointer"⟩], "Bar", 1⟩] := by
      decide +kernel
    obtain rfl := Except.ok.inj (hfunctions.symm.trans hgo)
    exact ⟨_, rfl⟩
  obtain ⟨layout, hlayout⟩ := hlayout
  obtain ⟨template, binding, htemplate, -, hsymbols, hread⟩ := hall _ _ _ _ layout hlayout
  obtain rfl : Template.stock = template := Except.ok.inj htemplate
  obtain ⟨reading, hreading, hsame⟩ := hread rfl (by decide +kernel) (by decide +kernel)
  refine ⟨haliases, htokens, functions, layout, reading, hfunctions, hlayout, hreading, ?_⟩
  have hlast : IsLastAlias (aliasEntries [] Sample.pointerAliases) "*const Foo // raw" .ptr :=
    ⟨[_], _, [], rfl, by decide, by decide, nofun⟩
  obtain ⟨symbol, rest, hsymbol, hrest, hbinding⟩ := List.forall₂_cons_left_iff.1 hsymbols
  obtain rfl := List.forall₂_nil_left_iff.1 hrest
  obtain ⟨argument, more, hargument, hmore, harguments⟩ := List.forall₂_cons_left_iff.1 hsymbol.arguments
  obtain rfl := List.forall₂_nil_left_iff.1 hmore
  have hpointer : argument = .ptr :=
    hargument.aliased _ _ hlast [Rust.Sample.mark "*", Rust.Sample.word "const", Rust.Sample.word "Foo"]
      (by decide +kernel) rfl
  have habsent : NoAlias (aliasEntries [] Sample.pointerAliases) "Bar" := by
    intro entry hentry key hkey
    rcases List.mem_cons.1 hentry with rfl | hentry
    · obtain rfl := Option.some.inj hkey
      decide +kernel
    · obtain rfl := List.mem_singleton.1 hentry
      obtain rfl := Option.some.inj hkey
      decide +kernel
  have hbar : symbol.returns = .u64 :=
    (hsymbol.returns _ rfl).fallback habsent fun tagged => by cases tagged <;> decide
  have hname : symbol.name = "go" := hsymbol.name
  rw [hsame, hbinding, ← hbar, ← hname, ← hpointer, ← harguments]

end Generation

end FfiBindings
