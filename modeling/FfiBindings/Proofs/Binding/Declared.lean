import FfiBindings.Proofs.Binding.Reading
import FfiBindings.Proofs.Rust.Exports
import FfiBindings.Proofs.Rust.TypeText

/-!
The names that a binding declares: the keys of its table of symbols and its constants. Both are the names of the
functions that are found, one for each function and in their order; nothing between the source and the text compares
them. So a name is declared once exactly if one function of that name is found (`bind_declares`). Two functions
of one name are found where a source holds alternatives of one function, which are not told apart, where two modules
of a source export the same name, and where one name is spelled as a raw identifier (`declared_twice`).

Every function that is found was read after a keyword `fn` and the token of its name, so a source in which no name
stands behind two of these keywords has a binding that declares no name twice (`names_sublist`).
-/

set_option autoImplicit false
set_option relaxedAutoImplicit false

namespace FfiBindings

namespace Rust

variable {tokens after : List Token}

/-! ### The names of a source -/

/-- The names behind the keywords `fn`, without the marks of raw identifiers. -/
def namesBehindFn : List Token → List String
  | [] => []
  | keyword :: rest =>
    if keyword.isIdent "fn" then
      ((rest.head?.filter (·.kind == .ident)).map fun name => Signature.plainName name.text).toList ++
        namesBehindFn rest
    else namesBehindFn rest

theorem namesBehindFn_sublist_cons (token : Token) (rest : List Token) :
    (namesBehindFn rest).Sublist (namesBehindFn (token :: rest)) := by
  rw [namesBehindFn]
  split
  · exact List.sublist_append_right _ _
  · exact List.Sublist.refl _

theorem namesBehindFn_sublist (h : after <:+ tokens) : (namesBehindFn after).Sublist (namesBehindFn tokens) := by
  obtain ⟨front, rfl⟩ := h
  induction front with
  | nil => exact List.Sublist.refl _
  | cons token front ih => exact ih.trans (namesBehindFn_sublist_cons token (front ++ after))

/-- A signature that is read has the first of the names. -/
theorem namesBehindFn_of_read {keyword : Token} {rest : List Token} {signature : Signature}
    (hkeyword : keyword.isIdent "fn" = true) (h : Signature.read? keyword.line rest = .ok (some signature, after)) :
    namesBehindFn (keyword :: rest) = signature.function.name :: namesBehindFn rest := by
  obtain ⟨name, later, rfl, hkind, hnamed⟩ := Signature.exists_of_read? h
  have hname : (name.kind == .ident) = true := beq_iff_eq.2 hkind
  rw [namesBehindFn, if_pos hkeyword, readNamed_name hnamed, List.head?_cons, Option.filter_some, if_pos hname]
  rfl

theorem names_sublist_of_ofTokensFrom (modifiers : Modifiers) (tokens : List Token) :
    (((Survey.ofTokensFrom modifiers tokens).findings.filterMap Finding.function?).map ExportedFunction.name).Sublist
      (namesBehindFn tokens) := by
  fun_induction Survey.ofTokensFrom modifiers tokens with
  | case1 => exact List.nil_sublist _
  | case2 => exact List.nil_sublist _
  | case3 modifiers token rest step hstep hlength survey ih =>
    obtain ⟨hsuffix, hfound⟩ := Item.step_suffix hstep
    -- Later names stand in what is left, whether or not this step has found a function.
    have hlater := ih.trans (namesBehindFn_sublist hsuffix)
    rw [List.filterMap_append, filterMap_finding]
    cases hfunction : step.finding.bind Finding.function? with
    | none => exact hlater.trans (namesBehindFn_sublist_cons token rest)
    | some function =>
      obtain ⟨hkeyword, signature, hread, rfl⟩ := hfound function hfunction
      rw [namesBehindFn_of_read hkeyword hread]
      exact hlater.cons_cons _

/-- The functions of a source take their names, one after the other, from behind the keywords `fn`. -/
theorem names_sublist {source : String} {functions : List ExportedFunction}
    (h : exportedFunctions source = .ok functions) (htokens : Rust.tokens source = .ok tokens) :
    (functions.map ExportedFunction.name).Sublist (namesBehindFn tokens) := by
  rw [exportedFunctions, Survey.ofSource, htokens] at h
  rw [Survey.functions] at h
  split at h
  · exact absurd h (by simp)
  · obtain rfl := Except.ok.inj h
    exact names_sublist_of_ofTokensFrom _ tokens

end Rust

/-! ### The names of a binding -/

/-- The table of symbols has no key twice, and no constant is declared twice. -/
structure Binding.DeclaresOnce (binding : Binding) : Prop where
  keys : (binding.symbols.map Symbol.name).Nodup
  constants : binding.exportNames.Nodup

variable {plan : Plan} {moduleName : String} {functions : List Rust.ExportedFunction} {binding : Binding}

theorem Plan.names_of_bind (h : plan.bind moduleName functions = .ok binding) :
    binding.symbols.map Symbol.name = functions.map Rust.ExportedFunction.name := by
  rw [Plan.symbols_of_bind h, List.map_map]
  rfl

theorem Plan.declaresOnce_iff (h : plan.bind moduleName functions = .ok binding) :
    binding.DeclaresOnce ↔ (functions.map Rust.ExportedFunction.name).Nodup := by
  have hkeys := Plan.names_of_bind h
  have hconstants : binding.exportNames = functions.map Rust.ExportedFunction.name := hkeys
  constructor
  · intro honce
    rw [← hkeys]
    exact honce.keys
  · intro hdistinct
    constructor
    · rwa [hkeys]
    · rwa [hconstants]

/-- A binding declares each name as often as a function of that name is found in the source: it declares no name twice
exactly if no two of the functions that are found share their name, which are the exported functions of the items where
the source is made of items. A source without a name behind two keywords `fn` is enough. Its text says the same. -/
theorem bind_declares {source : String} (hfunctions : Rust.exportedFunctions source = .ok functions)
    (hbind : plan.bind moduleName functions = .ok binding) :
    ∃ tokens, Rust.tokens source = .ok tokens ∧
      binding.symbols.map Symbol.name = functions.map Rust.ExportedFunction.name ∧
      binding.exportNames = functions.map Rust.ExportedFunction.name ∧
      (binding.DeclaresOnce ↔ functions.Pairwise fun earlier later => earlier.name ≠ later.name) ∧
      (∀ items : Rust.Grammar.Items, tokens = items.tokens →
        (binding.DeclaresOnce ↔ items.found.Pairwise fun earlier later =>
          Rust.Signature.plainName earlier.name.1.text ≠ Rust.Signature.plainName later.name.1.text)) ∧
      (functions.map Rust.ExportedFunction.name).Sublist (Rust.namesBehindFn tokens) ∧
      ((Rust.namesBehindFn tokens).Nodup → binding.DeclaresOnce) ∧
      (Reading.IsLine moduleName → Reading.IsLine plan.binDir →
        ∃ text, Template.stock.render binding = .ok text ∧
          Reading.ofText? text =
            some ⟨binding.binDir, binding.libraryStem, binding.symbols, binding.exportNames⟩) := by
  obtain ⟨tokens, htokens, -⟩ := Rust.exists_tokens_of_exportedFunctions hfunctions
  have hkeys := Plan.names_of_bind hbind
  have honce := Plan.declaresOnce_iff hbind
  have hsublist := Rust.names_sublist hfunctions htokens
  refine ⟨tokens, htokens, hkeys, hkeys, ?_, ?_, hsublist, ?_, ?_⟩
  · rw [honce, List.Nodup, List.pairwise_map]
  · intro items hitems
    have hfound := Rust.Grammar.exportedFunctions_of_tokens (hitems ▸ htokens)
    obtain rfl := Except.ok.inj (hfunctions.symm.trans hfound)
    rw [honce, List.Nodup, List.pairwise_map, List.pairwise_map]
    rfl
  · intro hdistinct
    exact honce.2 (hdistinct.sublist hsublist)
  · intro hmodule hdirectory
    exact Plan.Binds.ofText?_render ⟨hbind, .inl ⟨source, hfunctions⟩, hmodule, hdirectory⟩

namespace Sample

/-- A function that is written for each of two systems; the compiler takes one of the two. -/
def alternatives : String :=
  "#[cfg(unix)] #[no_mangle] pub fn f() \x7b\x7d\n#[cfg(windows)] #[no_mangle] pub fn f() \x7b\x7d"

/-- Two modules with a function of one name, of which one is spelled as a raw identifier. -/
def namesakes : String :=
  "mod a \x7b pub extern fn f() \x7b\x7d \x7d\nmod b \x7b pub extern fn r#f() \x7b\x7d \x7d"

/-- A private function, and two that are found. -/
def neighbours : String :=
  "fn h() \x7b\x7d\n#[no_mangle] pub fn f() \x7b\x7d\npub extern fn g() \x7b\x7d"

def boundAlternatives : Binding :=
  ⟨"m", "libm", "lib/bin", [⟨"f", [], .void⟩, ⟨"f", [], .void⟩]⟩

def boundNeighbours : Binding :=
  ⟨"m", "libm", "lib/bin", [⟨"f", [], .void⟩, ⟨"g", [], .void⟩]⟩

end Sample

/-- The functions behind the keywords of this source have three names, so its binding declares each of its two names
once. -/
theorem bind_declares_neighbours :
    Rust.exportedFunctions Sample.neighbours = .ok [⟨"f", [], "void", 2⟩, ⟨"g", [], "void", 3⟩] ∧
      Plan.bind ⟨some "linux", .standard, "lib/bin"⟩ "m" [⟨"f", [], "void", 2⟩, ⟨"g", [], "void", 3⟩] =
        .ok Sample.boundNeighbours ∧
      Sample.boundNeighbours.DeclaresOnce ∧
      ∃ text, Template.stock.render Sample.boundNeighbours = .ok text ∧
        (Reading.ofText? text).map Reading.exportNames = some ["f", "g"] := by
  have hfunctions : Rust.exportedFunctions Sample.neighbours =
      .ok [⟨"f", [], "void", 2⟩, ⟨"g", [], "void", 3⟩] := by decide +kernel
  have hbind : Plan.bind ⟨some "linux", .standard, "lib/bin"⟩ "m"
      [⟨"f", [], "void", 2⟩, ⟨"g", [], "void", 3⟩] = .ok Sample.boundNeighbours := by decide +kernel
  have hnames : (Rust.tokens Sample.neighbours).toOption.map Rust.namesBehindFn = some ["h", "f", "g"] := by
    decide +kernel
  obtain ⟨tokens, htokens, -, -, -, -, -, honce, htext⟩ := bind_declares hfunctions hbind
  obtain ⟨text, hrender, hread⟩ := htext (by decide) (by decide)
  rw [htokens] at hnames
  refine ⟨hfunctions, hbind, honce ?_, text, hrender, ?_⟩
  · rw [Option.some.inj hnames]
    decide
  · rw [hread]
    rfl

/-- Alternatives of a function are all found, and so are the functions of one name in two modules. The binding has the
name twice among its keys and twice among its constants, and so has its text. -/
theorem declared_twice :
    Rust.exportedFunctions Sample.alternatives = .ok [⟨"f", [], "void", 1⟩, ⟨"f", [], "void", 2⟩] ∧
      Rust.exportedFunctions Sample.namesakes = .ok [⟨"f", [], "void", 1⟩, ⟨"f", [], "void", 2⟩] ∧
      Plan.bind ⟨some "linux", .standard, "lib/bin"⟩ "m" [⟨"f", [], "void", 1⟩, ⟨"f", [], "void", 2⟩] =
        .ok Sample.boundAlternatives ∧
      ¬ Sample.boundAlternatives.DeclaresOnce ∧
      ∃ text, Template.stock.render Sample.boundAlternatives = .ok text ∧
        (Reading.ofText? text).map Reading.exportNames = some ["f", "f"] := by
  have hfunctions : Rust.exportedFunctions Sample.alternatives =
      .ok [⟨"f", [], "void", 1⟩, ⟨"f", [], "void", 2⟩] := by decide +kernel
  have hbind : Plan.bind ⟨some "linux", .standard, "lib/bin"⟩ "m"
      [⟨"f", [], "void", 1⟩, ⟨"f", [], "void", 2⟩] = .ok Sample.boundAlternatives := by decide +kernel
  have hbinds : Plan.Binds ⟨some "linux", .standard, "lib/bin"⟩ "m" _ Sample.boundAlternatives :=
    ⟨hbind, .inl ⟨_, hfunctions⟩, by decide, by decide⟩
  obtain ⟨text, hrender, hread⟩ := hbinds.ofText?_render
  refine ⟨hfunctions, by decide +kernel, hbind, ?_, text, hrender, ?_⟩
  · intro honce
    exact absurd honce.constants (by decide)
  · rw [hread]
    rfl

end FfiBindings
