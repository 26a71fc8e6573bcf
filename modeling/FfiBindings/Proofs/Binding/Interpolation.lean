import FfiBindings.Binding.Template
import FfiBindings.Proofs.Binding.Literal

/-!
What a binding says of its library as a program reads it. The stock layout puts the directory of the libraries between
double quotes and the name of the library between backticks, as they are. So the string literal denotes the directory
exactly if the directory holds no double quote and no line end, and the template literal consists of the directory,
a slash, the name of the library, a dot and the suffix of the platform exactly if the name of the module holds no
backtick, no backslash, no carriage return and no beginning of a substitution (`render_stock_literals`). Other
directories and modules get a binding that says something else, or that is no module (`literals_left`).
-/

set_option autoImplicit false
set_option relaxedAutoImplicit false

namespace FfiBindings

open JavaScript

/-! ### The directory -/

/-- A directory with its backslashes turned into slashes is the plain directory with slashes behind it, and the plain
directory ends with none. -/
theorem plainDirectory_eq (directory : String) :
    (∃ slashes, directory.toList.map (fun c => if c = '\\' then '/' else c) =
      (plainDirectory directory).toList ++ List.replicate slashes '/') ∧
    (plainDirectory directory).toList.getLast? ≠ some '/' := by
  rw [plainDirectory, String.toList_ofList, List.getLast?_reverse]
  generalize directory.toList.map (fun c => if c = '\\' then '/' else c) = slashed
  constructor
  · refine ⟨(slashed.reverse.takeWhile (· == '/')).length, ?_⟩
    have hslashes : List.replicate (slashed.reverse.takeWhile (· == '/')).length '/' =
        (slashed.reverse.takeWhile (· == '/')).reverse := by
      refine (List.eq_replicate_iff.2 ⟨List.length_reverse, fun c hc => ?_⟩).symm
      exact beq_iff_eq.1 (List.all_eq_true.1 List.all_takeWhile c (List.mem_reverse.1 hc))
    rw [hslashes, ← List.reverse_append, List.takeWhile_append_dropWhile, List.reverse_reverse]
  · intro hhead
    obtain ⟨tail, htail⟩ := List.head?_eq_some_iff.1 hhead
    have hfirst := List.head_dropWhile_not (p := (· == '/')) (l := slashed.reverse) (by rw [htail]; simp)
    simp [htail] at hfirst

/-- Nothing but slashes and backslashes is changed. -/
theorem mem_plainDirectory {directory : String} {c : Char} (hslash : c ≠ '/') (hback : c ≠ '\\') :
    c ∈ (plainDirectory directory).toList ↔ c ∈ directory.toList := by
  obtain ⟨⟨slashes, hslashes⟩, -⟩ := plainDirectory_eq directory
  have hmem := congrArg (c ∈ ·) hslashes
  simp only [List.mem_append, List.mem_map, List.mem_replicate, hslash, and_false, or_false, eq_iff_iff] at hmem
  rw [← hmem]
  constructor
  · rintro ⟨d, hd, heq⟩
    split at heq
    · exact absurd heq.symm hslash
    · exact heq ▸ hd
  · exact fun hc => ⟨c, hc, if_neg hback⟩

theorem backslash_notMem_plainDirectory (directory : String) : '\\' ∉ (plainDirectory directory).toList := by
  obtain ⟨⟨slashes, hslashes⟩, -⟩ := plainDirectory_eq directory
  intro hmem
  have hthere := hslashes ▸ List.mem_append_left (List.replicate slashes '/') hmem
  obtain ⟨c, -, heq⟩ := List.mem_map.1 hthere
  split at heq
  · exact absurd heq (by decide)
  · rename_i hne
    exact hne heq

theorem isQuotable_plainDirectory {directory : String} :
    IsQuotable (plainDirectory directory).toList ↔ IsQuotable directory.toList := by
  simp only [IsQuotable]
  rw [mem_plainDirectory (by decide) (by decide), mem_plainDirectory (by decide) (by decide),
    mem_plainDirectory (by decide) (by decide)]

/-- A directory between double quotes is denoted if it is quotable, and otherwise it is not. -/
theorem stringLiteral?_plainDirectory (directory after : String) :
    (IsQuotable directory.toList → stringLiteral? ("\"" ++ plainDirectory directory ++ "\"" ++ after) =
      some (units (plainDirectory directory).toList, after)) ∧
    ∀ left, stringLiteral? ("\"" ++ plainDirectory directory ++ "\"" ++ after) =
      some (units (plainDirectory directory).toList, left) → IsQuotable directory.toList := by
  have htext : ("\"" ++ plainDirectory directory ++ "\"" ++ after).toList =
      '"' :: ((plainDirectory directory).toList ++ '"' :: after.toList) := by
    simp
  have hescape := backslash_notMem_plainDirectory directory
  rw [stringLiteral?_of_toList htext, ← isQuotable_plainDirectory]
  constructor
  · intro h
    rw [quoted?_units hescape h (by simp), Option.map_some]
    dsimp only
    rw [String.ofList_toList]
  · intro left h
    obtain ⟨⟨value, rest⟩, hread, heq⟩ := Option.map_eq_some_iff.1 h
    dsimp only at heq
    rw [(Prod.mk.inj heq).1] at hread
    exact isQuotable_of_quoted? hescape hread

/-! ### The path of the library -/

/-- A module name stays in a template exactly if the name of its library does. -/
theorem isTemplateText_libraryStem {platform : Platform} {moduleName : String} :
    IsTemplateText (platform.libraryStem moduleName).toList ↔ IsTemplateText moduleName.toList := by
  have hprefixed : IsTemplateText ("lib" ++ moduleName).toList ↔ IsTemplateText moduleName.toList := by
    rw [String.toList_append, show "lib".toList = ['l', 'i', 'b'] from rfl, List.cons_append, List.cons_append,
      List.cons_append, List.nil_append, isTemplateText_cons, isTemplateText_cons, isTemplateText_cons]
    simp
  cases platform with
  | windows => exact Iff.rfl
  | linux => exact hprefixed
  | macos => exact hprefixed

/-- The directory, a slash, the name of the library, a dot and the suffix of the platform. -/
def libraryPath {Expression : Type} (expressions : Expressions Expression) (stem : String) :
    TemplateValue Expression :=
  ⟨[], [(expressions.name "BASE_DIR", units ("/" ++ stem ++ ".").toList), (expressions.name "suffix", [])]⟩

section

variable {Expression : Type} {expressions : Expressions Expression} {fuel : Nat} {rest : List Char}

theorem template?_name {word : String} (hword : word ∈ ["BASE_DIR", "suffix"]) :
    template? expressions (fuel + 1) ('$' :: '{' :: (word.toList ++ '}' :: rest)) =
      (template? expressions fuel rest).map fun (value, rest) =>
        (⟨[], (expressions.name word, value.front) :: value.substitutions⟩, rest) := by
  rw [template?_substitution, expressions.read?_name word hword, Option.bind_some]

/-- What stands behind the name of the library. -/
theorem template?_suffix : template? expressions (fuel + 3)
    ('.' :: '$' :: '{' :: ("suffix".toList ++ '}' :: '`' :: rest)) =
      some (⟨units ['.'], [(expressions.name "suffix", [])]⟩, rest) := by
  rw [template?_character (by decide) (by simp), templateCharacter?, if_neg (by decide), if_neg (by decide),
    Option.bind_some]
  dsimp only
  rw [template?_name (by decide), template?, if_pos rfl]
  rfl

end

/-- The text of the path between backticks is the path if the name of the library is a text for templates, and
otherwise it is not. -/
theorem templateLiteral?_libraryPath {Expression : Type} (expressions : Expressions Expression)
    (stem after : String) :
    (IsTemplateText stem.toList → templateLiteral? expressions
        ("`$\x7bBASE_DIR\x7d/" ++ stem ++ ".$\x7bsuffix\x7d`" ++ after) = some (libraryPath expressions stem, after)) ∧
    ∀ left, templateLiteral? expressions ("`$\x7bBASE_DIR\x7d/" ++ stem ++ ".$\x7bsuffix\x7d`" ++ after) =
      some (libraryPath expressions stem, left) → IsTemplateText stem.toList := by
  have htext : ("`$\x7bBASE_DIR\x7d/" ++ stem ++ ".$\x7bsuffix\x7d`" ++ after).toList =
      '`' :: '$' :: '{' :: ("BASE_DIR".toList ++ '}' :: ('/' :: stem.toList ++
        '.' :: '$' :: '{' :: ("suffix".toList ++ '}' :: '`' :: after.toList))) := by
    simp
  have hslash : IsTemplateText ('/' :: stem.toList) ↔ IsTemplateText stem.toList := by
    rw [isTemplateText_cons, and_iff_right]
    exact ⟨by decide, by decide, by decide, fun hboth => absurd hboth.1 (by decide)⟩
  have hunits : units ("/" ++ stem ++ ".").toList = units ('/' :: stem.toList ++ ['.']) := by
    rw [String.toList_append, String.toList_append]
    rfl
  rw [templateLiteral?_of_toList htext, List.length_cons, template?_name (by decide), ← hslash]
  constructor
  · intro h
    obtain ⟨fuel, hfuel⟩ : ∃ fuel, ('{' :: ("BASE_DIR".toList ++ '}' :: ('/' :: stem.toList ++
        '.' :: '$' :: '{' :: ("suffix".toList ++ '}' :: '`' :: after.toList)))).length =
          ('/' :: stem.toList).length + (fuel + 3) := by
      refine ⟨after.toList.length + 18, ?_⟩
      simp only [List.length_cons, List.length_append, String.length_toList]
      rw [show "BASE_DIR".length = 8 from rfl, show "suffix".length = 6 from rfl]
      omega
    rw [hfuel, template?_units h (by simp), template?_suffix, libraryPath, hunits, units_append]
    simp only [Option.map_some, String.ofList_toList]
  · intro left h
    obtain ⟨⟨value, rest⟩, hread, heq⟩ := Option.map_eq_some_iff.1 h
    obtain ⟨⟨later, rest⟩, hlater, hvalue⟩ := Option.map_eq_some_iff.1 hread
    dsimp only at heq hvalue
    rw [(Prod.mk.inj heq).1] at hvalue
    have hsubstitutions := (TemplateValue.mk.inj (Prod.mk.inj hvalue).1).2
    have hfront : later.front = units ("/" ++ stem ++ ".").toList :=
      (Prod.mk.inj (List.cons.inj hsubstitutions).1).2
    exact (template?_bound hlater).2 (hfront.trans hunits)

/-! ### The text of a binding -/

/-- The text behind the path of the library: the table of symbols and the exports. -/
def tableText (binding : Binding) : String :=
  ", \x7b\n" ++ String.join (binding.symbols.map Template.entryText) ++ "\x7d);\n\n" ++
    String.join (binding.symbols.map Template.exportText)

/-- The text from the path of the library on. -/
def pathText (binding : Binding) : String :=
  "`$\x7bBASE_DIR\x7d/" ++ binding.libraryStem ++ ".$\x7bsuffix\x7d`" ++ tableText binding

/-- The text from the directory of the libraries on. -/
def directoryText (binding : Binding) : String :=
  "\"" ++ binding.binDir ++ "\"" ++ (";\n\nconst lib = dlopen(" ++ pathText binding)

theorem render_stock_eq (binding : Binding) : Template.stock.render binding =
    .ok ("import \x7b dlopen, FFIType, suffix \x7d from \"bun:ffi\";\n\nconst BASE_DIR = " ++
      directoryText binding) := by
  rw [Template.render_stock]
  refine congrArg Except.ok (String.toList_inj.1 ?_)
  simp [directoryText, pathText, tableText]

/-- The stock layout gives every binding its text, in which the directory of the libraries is written between double
quotes and the name of the library between backticks. The first denotes the directory with forward slashes and none at
its end exactly if the directory holds no double quote and no line end. The second consists of the directory, a slash,
the name of the library, a dot and the suffix of the platform exactly if the name of the module holds no backtick, no
backslash, no carriage return and no beginning of a substitution. Both literals end where the layout ends them then. -/
theorem render_stock_literals {Expression : Type} (expressions : Expressions Expression) (plan : Plan)
    (moduleName : String) (functions : List Rust.ExportedFunction) {platform : Platform}
    (hplatform : Platform.resolve plan.platform = .ok platform) :
    ∃ binding, plan.bind moduleName functions = .ok binding ∧
      Template.stock.render binding =
        .ok ("import \x7b dlopen, FFIType, suffix \x7d from \"bun:ffi\";\n\nconst BASE_DIR = " ++
          directoryText binding) ∧
      (∃ slashes, plan.binDir.toList.map (fun c => if c = '\\' then '/' else c) =
        binding.binDir.toList ++ List.replicate slashes '/') ∧ binding.binDir.toList.getLast? ≠ some '/' ∧
      binding.libraryStem = platform.libraryStem moduleName ∧
      (IsQuotable plan.binDir.toList → stringLiteral? (directoryText binding) =
        some (units binding.binDir.toList, ";\n\nconst lib = dlopen(" ++ pathText binding)) ∧
      (∀ left, stringLiteral? (directoryText binding) = some (units binding.binDir.toList, left) →
        IsQuotable plan.binDir.toList) ∧
      (IsTemplateText moduleName.toList → templateLiteral? expressions (pathText binding) =
        some (libraryPath expressions binding.libraryStem, tableText binding)) ∧
      (∀ left, templateLiteral? expressions (pathText binding) =
        some (libraryPath expressions binding.libraryStem, left) → IsTemplateText moduleName.toList) := by
  obtain ⟨hslashes, hlast⟩ := plainDirectory_eq plan.binDir
  refine ⟨⟨moduleName, platform.libraryStem moduleName, plainDirectory plan.binDir,
    functions.map (Symbol.ofFunction plan.types)⟩, ?_, render_stock_eq _, hslashes, hlast, rfl, ?_⟩
  · rw [Plan.bind, hplatform]
    rfl
  · obtain ⟨hquoted, hquotable⟩ := stringLiteral?_plainDirectory plan.binDir _
    obtain ⟨hpath, htemplate⟩ := templateLiteral?_libraryPath expressions (platform.libraryStem moduleName) _
    rw [isTemplateText_libraryStem] at hpath
    exact ⟨hquoted, hquotable, hpath, fun left h => isTemplateText_libraryStem.1 (htemplate left h)⟩

namespace Sample

/-- A reader that takes everything up to a brace for an expression. -/
def upToBrace : Expressions String where
  read? text :=
    match text.dropWhile (· != '}') with
    | [] => none
    | _ :: rest => some (.ofList (text.takeWhile (· != '}')), rest)
  shorter := by
    intro text rest expression h
    have hlength := (List.dropWhile_sublist (l := text) (· != '}')).length_le
    split at h
    · exact nomatch h
    · rename_i c after hafter
      obtain rfl : after = rest := (Prod.mk.inj (Option.some.inj h)).2
      rw [hafter, List.length_cons] at hlength
      exact hlength
  name := id
  read?_name := by
    intro word hword rest
    have hfree : ∀ c ∈ word.toList, (c != '}') = true := by
      rw [← List.all_eq_true]
      revert word
      decide +kernel
    rw [List.dropWhile_append_of_pos hfree, List.dropWhile_cons_of_neg (by decide)]
    dsimp only
    rw [List.takeWhile_append_of_pos hfree, List.takeWhile_cons_of_neg (by decide), List.append_nil,
      String.ofList_toList]
    rfl

def planFor (binDir : String) : Plan where
  platform := some "linux"
  binDir := binDir

end Sample

/-- A directory with a blank, backslashes and slashes at its end, and a module name with a dollar sign. -/
theorem render_stock_literals_plain : ∃ binding, (Sample.planFor "out dir\\bin//").bind "a$b" [] = .ok binding ∧
    stringLiteral? (directoryText binding) =
      some (units "out dir/bin".toList, ";\n\nconst lib = dlopen(" ++ pathText binding) ∧
    templateLiteral? Sample.upToBrace (pathText binding) =
      some (libraryPath Sample.upToBrace "liba$b", tableText binding) := by
  have hplatform : Platform.resolve (Sample.planFor "out dir\\bin//").platform = .ok .linux := by decide +kernel
  have hbound : (Sample.planFor "out dir\\bin//").bind "a$b" [] =
      .ok ⟨"a$b", "liba$b", "out dir/bin", []⟩ := by decide +kernel
  have hquotable : IsQuotable (Sample.planFor "out dir\\bin//").binDir.toList :=
    ⟨by decide, by decide, by decide⟩
  have htemplate : IsTemplateText "a$b".toList := ⟨by decide, by decide, by decide, by decide⟩
  obtain ⟨binding, hbind, -, -, -, -, hdirectory, -, hpath, -⟩ :=
    render_stock_literals Sample.upToBrace (Sample.planFor "out dir\\bin//") "a$b" [] hplatform
  obtain rfl := Except.ok.inj (hbind.symm.trans hbound)
  exact ⟨_, hbound, hdirectory hquotable, hpath htemplate⟩

/-- A double quote in the directory ends its literal, and the rest of it is code; so does a backtick in the name of a
module, and what stands in such a name like a substitution is one. -/
theorem literals_left :
    ((Sample.planFor "a\"b").bind "m" [] = .ok ⟨"m", "libm", "a\"b", []⟩ ∧
      (stringLiteral? (directoryText ⟨"m", "libm", "a\"b", []⟩)).map Prod.fst = some (units "a".toList) ∧
      units "a".toList ≠ units "a\"b".toList) ∧
    ((Sample.planFor "bin").bind "a`b" [] = .ok ⟨"a`b", "liba`b", "bin", []⟩ ∧
      (templateLiteral? Sample.upToBrace (pathText ⟨"a`b", "liba`b", "bin", []⟩)).map Prod.fst =
        some ⟨[], [("BASE_DIR", units "/liba".toList)]⟩ ∧
      ⟨[], [("BASE_DIR", units "/liba".toList)]⟩ ≠ libraryPath Sample.upToBrace "liba`b") ∧
    (Sample.planFor "bin").bind "$\x7bf()\x7d" [] = .ok ⟨"$\x7bf()\x7d", "lib$\x7bf()\x7d", "bin", []⟩ ∧
    (templateLiteral? Sample.upToBrace (pathText ⟨"$\x7bf()\x7d", "lib$\x7bf()\x7d", "bin", []⟩)).map Prod.fst =
      some ⟨[], [("BASE_DIR", units "/lib".toList), ("f()", units ".".toList), ("suffix", [])]⟩ := by
  refine ⟨⟨?_, ?_, ?_⟩, ⟨?_, ?_, ?_⟩, ?_, ?_⟩
  all_goals decide +kernel

end FfiBindings
