import FfiBindings.Proofs.Generation.Aliases
import FfiBindings.Proofs.Rust.Respelling
import FfiBindings.Proofs.Rust.TypeText

/-!
Types as keys of aliases. The types that functions are shown with are spelled once, and the key of an alias is spelled
when the settings are read; because a canonical spelling is spelled as it stands, a type that is copied from a function
into the settings is a key for itself (`NamesItself`), and the table answers with its type wherever that type is looked
up (`canonicalType_stable`).
-/

set_option autoImplicit false
set_option relaxedAutoImplicit false

namespace FfiBindings.Config

open Yaml (Value)

/-- A text that, given as the key of an alias, is the key under which it is looked up itself. -/
structure NamesItself (type : String) : Prop where
  stable : Rust.canonicalType type = .ok type
  key : ∀ labels (given : FfiType), aliasOf labels (.string type, .string given.tag) = .ok (type, given)
  resolved : ∀ labels value aliases given, typeAliasesOf labels value = .ok aliases →
    IsLastAlias (aliasEntries labels value) type given → (TypeTable.standard.insertAll aliases).resolve type = given

theorem namesItself_of_canonicalType {type : String} (h : Rust.canonicalType type = .ok type) (hne : type ≠ "")
    (htrim : Text.strip type = type) : NamesItself type where
  stable := h
  key labels given := by
    have hkey : nonemptyTextOf? (.string type) = some type := by
      simp [nonemptyTextOf?, textOf?, markedTextOf?, hne]
    have htag : nonemptyTextOf? (.string given.tag) = some given.tag := by cases given <;> decide
    simp only [aliasOf, hkey, htag, FfiType.ofTag?_tag, h]
  resolved labels value aliases given haliases hlast := by
    obtain ⟨halias, -⟩ := find?_insertAll_aliases .standard haliases type
    rw [TypeTable.resolve, halias type given hlast (by rw [htrim, h]), Option.getD_some]

theorem namesItself_void : NamesItself "void" :=
  namesItself_of_canonicalType (by decide +kernel) (by decide) (by decide +kernel)

theorem namesItself_spell {source : String} {tokens written : List Rust.Token} (h : Rust.tokens source = .ok tokens)
    (hwritten : written <:+: tokens) (hne : written ≠ []) (hliteral : ∀ token ∈ written, token.isLiteral = false)
    (hclash : written.IsChain fun token next => token.clashes next = false) : NamesItself (Rust.spell written) := by
  have hmem : ∀ token ∈ written, token ∈ tokens := fun token htoken => hwritten.subset htoken
  have hapart : Rust.StayApart written :=
    ⟨fun token htoken => ⟨Rust.mem_pattern_of_mem_tokens h token (hmem token htoken), hliteral token htoken⟩, hclash⟩
  have htrim : ∀ token ∈ written, token.IsTrim := fun token htoken =>
    Rust.isTrim_of_mem_tokens h token (hmem token htoken)
  obtain ⟨again, -, hcanonical⟩ := Rust.canonicalType_of_joined hapart.joined_spell
  exact namesItself_of_canonicalType hcanonical (Rust.spell_ne_empty htrim hne) (Rust.strip_spell htrim)

/-- Canonical spellings are stable. A text whose tokens are no literals and stay apart has a canonical spelling that is
cut into tokens again and is its own canonical spelling. So each type that a function of a source is shown with, if it
was written with such tokens, names itself as the key of an alias. -/
theorem canonicalType_stable :
    (∀ text tokens, Rust.tokens text = .ok tokens → (∀ token ∈ tokens, token.isLiteral = false) →
      tokens.IsChain (fun token next => token.clashes next = false) →
      ∃ spelling again, Rust.canonicalType text = .ok spelling ∧ Rust.tokens spelling = .ok again ∧
        Rust.canonicalType spelling = .ok spelling) ∧
    ∀ source functions, Rust.exportedFunctions source = .ok functions →
      ∃ tokens, Rust.tokens source = .ok tokens ∧ ∀ function ∈ functions, ∀ type ∈ function.types,
        (type = "void" ∧ NamesItself type ∨ Rust.IsWritten tokens type) ∧
        ∀ written, written ≠ [] → written <:+: tokens → type = Rust.spell written →
          (∀ token ∈ written, token.isLiteral = false) →
          written.IsChain (fun token next => token.clashes next = false) → NamesItself type := by
  constructor
  · intro text tokens htokens hliteral hclash
    exact Rust.canonicalType_canonicalType htokens hliteral hclash
  · intro source functions hfunctions
    obtain ⟨tokens, htokens, -⟩ := Rust.exists_tokens_of_exportedFunctions hfunctions
    refine ⟨tokens, htokens, ?_⟩
    intro function hfunction type htype
    constructor
    · rcases (Rust.written_of_mem_exportedFunctions hfunctions htokens function hfunction).of_mem_types type htype
        with rfl | hwritten
      · exact .inl ⟨rfl, namesItself_void⟩
      · exact .inr hwritten
    · rintro written hne hwithin rfl hliteral hclash
      exact namesItself_spell htokens hwithin hne hliteral hclash

namespace Sample

open Rust.Sample (word mark)

/-- A type of which some tokens are one token where nothing stands between them. -/
def wideTokens : List Rust.Token :=
  [word "Wide", mark "<", word "r", mark "#", word "type", mark ",", ⟨.number, "1", 1⟩, mark ".", ⟨.number, "5", 1⟩,
    mark "+", word "N", mark ",", mark "&", ⟨.lifetime, "'a", 1⟩, word "U", mark ">"]

def wideText : String := "Wide<r # type, 1 . 5+N, &'a U>"

def wideBefore : List Rust.Token :=
  [mark "#", mark "[", word "no_mangle", mark "]", word "pub", word "fn", word "go", mark "(", word "wide", mark ":"]

def wideSource : String := "#[no_mangle] pub fn go(wide: " ++ wideText ++ ");"

end Sample

/-- A raw name and a fraction that are written as three tokens each. -/
theorem canonicalType_stable_wide :
    Rust.tokens Sample.wideText = .ok Sample.wideTokens ∧
      Rust.canonicalType Sample.wideText = .ok "Wide<r#type, 1.5 + N, &'a U>" ∧
      Rust.canonicalType "Wide<r#type, 1.5 + N, &'a U>" = .ok "Wide<r#type, 1.5 + N, &'a U>" ∧
      ∃ function, Rust.exportedFunctions Sample.wideSource = .ok [function] ∧
        function.types = ["Wide<r#type, 1.5 + N, &'a U>", "void"] ∧
        ∀ type ∈ function.types, NamesItself type := by
  have htokens : Rust.tokens Sample.wideText = .ok Sample.wideTokens := by decide +kernel
  have hspelled : Rust.canonicalType Sample.wideText = .ok "Wide<r#type, 1.5 + N, &'a U>" := by decide +kernel
  have hfunctions : Rust.exportedFunctions Sample.wideSource =
      .ok [⟨"go", [⟨"Wide<r#type, 1.5 + N, &'a U>", "wide"⟩], "void", 1⟩] := by decide +kernel
  obtain ⟨htexts, hsources⟩ := canonicalType_stable
  refine ⟨htokens, hspelled, ?_, _, hfunctions, rfl, ?_⟩
  · obtain ⟨spelling, again, hspelling, -, hstable⟩ := htexts _ _ htokens (by decide) (by decide)
    obtain rfl := Except.ok.inj (hspelled.symm.trans hspelling)
    exact hstable
  · obtain ⟨tokens, hwhole, hall⟩ := hsources _ _ hfunctions
    have hinside : Sample.wideTokens <:+: tokens := by
      have hsource : Rust.tokens Sample.wideSource =
          .ok (Sample.wideBefore ++ Sample.wideTokens ++ [Rust.Sample.mark ")", Rust.Sample.mark ";"]) := by
        decide +kernel
      exact ⟨_, _, Except.ok.inj (hsource.symm.trans hwhole)⟩
    intro type htype
    obtain ⟨-, hwritten⟩ := hall _ List.mem_cons_self type htype
    simp only [Rust.ExportedFunction.types, List.map_cons, List.map_nil, List.cons_append, List.nil_append,
      List.mem_cons, List.not_mem_nil, or_false] at htype
    rcases htype with rfl | rfl
    · exact hwritten Sample.wideTokens (by decide) hinside (by decide +kernel) (by decide) (by decide)
    · exact namesItself_void

end FfiBindings.Config
