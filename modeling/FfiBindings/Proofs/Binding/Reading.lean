import FfiBindings.Binding.Template
import FfiBindings.Proofs.Rust.Remainder

/-!
Reading a binding back from its text. The stock layout has one value on a line, between a text before it and a text
after it that are the same in every binding, and no value breaks a line; so a reader that goes over the lines gets the
directory, the stem of the library, the symbols and the names of the exports (`Reading.ofText?`), and two bindings that
differ in one of these have different texts (`render_stock_lossless`).
-/

set_option autoImplicit false
set_option relaxedAutoImplicit false

namespace FfiBindings

/-- What the text of a binding says. -/
structure Reading where
  binDir : String
  libraryStem : String
  symbols : List Symbol
  exportNames : List String
  deriving DecidableEq, Repr

namespace Reading

/-! ### The reader -/

/-- What stands between two fixed texts on a line. -/
def between? (before after line : String) : Option String :=
  let middle := String.ofList ((line.toList.drop before.length).take (line.length - before.length - after.length))
  if before ++ middle ++ after = line then some middle else none

def type? (text : String) : Option FfiType :=
  (between? "FFIType." "" text).bind FfiType.ofTag?

/-- Types with a comma and a space between two of them. -/
def types? (text : String) : Option (List FfiType) :=
  if text = "" then some []
  else (text.toList.splitOn ',').mapM fun piece => type? (.ofList (piece.dropWhile (· == ' ')))

/-- The four lines of one entry of the table of symbols. -/
def symbol? (name arguments returns closing : String) : Option Symbol := do
  let name ← between? "  " ": \x7b" name
  let arguments ← (between? "    args: [" "]," arguments).bind types?
  let returns ← (between? "    returns: " "," returns).bind type?
  if closing = "  \x7d," then some ⟨name, arguments, returns⟩ else none

/-- The entries up to the line that closes the table, and the lines after it. -/
def symbols? : List String → Option (List Symbol × List String)
  | [] => none
  | first :: rest =>
    if first = "\x7d);" then some ([], rest)
    else
      match rest with
      | second :: third :: fourth :: rest => do
        let symbol ← symbol? first second third fourth
        let (symbols, rest) ← symbols? rest
        return (symbol :: symbols, rest)
      | _ => none

def exportLine (name : String) : String :=
  "export const " ++ name ++ " = lib.symbols." ++ name ++ ";"

/-- The names of the exports, up to the end of the text. -/
def exportNames? : List String → Option (List String)
  | [] => none
  | line :: rest =>
    if line = "" then if rest = [] then some [] else none
    else
      let name := String.ofList ((line.toList.drop "export const ".length).takeWhile (· != ' '))
      if line = exportLine name then (exportNames? rest).map (name :: ·) else none

def importLine : String :=
  "import \x7b dlopen, FFIType, suffix \x7d from \"bun:ffi\";"

def ofLines? : List String → Option Reading
  | first :: "" :: second :: "" :: third :: table => do
    let binDir ← between? "const BASE_DIR = \"" "\";" second
    let libraryStem ← between? "const lib = dlopen(`$\x7bBASE_DIR\x7d/" ".$\x7bsuffix\x7d`, \x7b" third
    let (symbols, rest) ← symbols? table
    let exportNames ← if rest.head? = some "" then exportNames? rest.tail else none
    if first = importLine then some ⟨binDir, libraryStem, symbols, exportNames⟩ else none
  | _ => none

/-- Reads the text of a binding. -/
def ofText? (text : String) : Option Reading :=
  ofLines? ((text.toList.splitOn '\n').map String.ofList)

/-! ### What is written on a line -/

theorem between?_append (before middle after : String) :
    between? before after (before ++ middle ++ after) = some middle := by
  have hmiddle : String.ofList (((before ++ middle ++ after).toList.drop before.length).take
      ((before ++ middle ++ after).length - before.length - after.length)) = middle := by
    have hlength : (before ++ middle ++ after).length - before.length - after.length = middle.length := by
      rw [String.length_append, String.length_append]
      omega
    rw [hlength, String.append_assoc, String.toList_append, List.drop_left' String.length_toList,
      String.toList_append, List.take_left' String.length_toList, String.ofList_toList]
  rw [between?, hmiddle, if_pos rfl]

theorem type?_typeExpression (type : FfiType) : type? (Template.typeExpression type) = some type := by
  have h := between?_append "FFIType." type.tag ""
  rw [String.append_empty] at h
  rw [type?, Template.typeExpression, h, Option.bind_some, FfiType.ofTag?_tag]

/-- A comma and a space between texts is a comma between texts that begin with a space, but for the first. -/
theorem intercalate_comma (first : List Char) (rest : List (List Char)) :
    [',', ' '].intercalate (first :: rest) = [','].intercalate (first :: rest.map (' ' :: ·)) := by
  induction rest generalizing first with
  | nil => simp
  | cons second rest ih => simp [List.intercalate_cons_cons, ih]

theorem comma_notMem_typeExpression (type : FfiType) : ',' ∉ (Template.typeExpression type).toList := by
  cases type <;> decide

theorem type?_dropWhile (type : FfiType) :
    type? (.ofList ((Template.typeExpression type).toList.dropWhile (· == ' '))) = some type := by
  have hdrop : (Template.typeExpression type).toList.dropWhile (· == ' ') = (Template.typeExpression type).toList := by
    cases type <;> decide
  rw [hdrop, String.ofList_toList, type?_typeExpression]

theorem types?_intercalate (types : List FfiType) :
    types? (", ".intercalate (types.map Template.typeExpression)) = some types := by
  cases types with
  | nil => rfl
  | cons type types =>
    have hlater : (types.map fun type => ' ' :: (Template.typeExpression type).toList).mapM
        (fun piece => type? (.ofList (piece.dropWhile (· == ' ')))) = some types := by
      induction types with
      | nil => rfl
      | cons type types ih => simp [type?_dropWhile, ih]
    have hsplit : ([','].intercalate ((Template.typeExpression type).toList ::
        types.map fun type => ' ' :: (Template.typeExpression type).toList)).splitOn ',' =
        (Template.typeExpression type).toList ::
          types.map fun type => ' ' :: (Template.typeExpression type).toList := by
      refine List.splitOn_intercalate ',' ?_ (List.cons_ne_nil _ _)
      intro piece hpiece
      rcases List.mem_cons.1 hpiece with rfl | hpiece
      · exact comma_notMem_typeExpression type
      · obtain ⟨later, -, rfl⟩ := List.mem_map.1 hpiece
        intro hcomma
        rcases List.mem_cons.1 hcomma with hspace | htag
        · exact absurd hspace (by decide)
        · exact comma_notMem_typeExpression later htag
    have htext : (", ".intercalate ((type :: types).map Template.typeExpression)).toList =
        [','].intercalate ((Template.typeExpression type).toList ::
          types.map fun type => ' ' :: (Template.typeExpression type).toList) := by
      rw [String.toList_intercalate, List.map_map, List.map_cons]
      exact (intercalate_comma _ _).trans (by rw [List.map_map]; rfl)
    have hne : ", ".intercalate ((type :: types).map Template.typeExpression) ≠ "" := by
      intro hempty
      rw [← htext, hempty] at hsplit
      exact absurd (List.cons.inj hsplit).1.symm (by cases type <;> decide)
    rw [types?, if_neg hne, htext, hsplit, List.mapM_cons, type?_dropWhile, hlater]
    rfl

def entryLines (symbol : Symbol) : List String :=
  ["  " ++ symbol.name ++ ": \x7b",
    "    args: [" ++ ", ".intercalate (symbol.arguments.map Template.typeExpression) ++ "],",
    "    returns: " ++ Template.typeExpression symbol.returns ++ ",", "  \x7d,"]

theorem symbols?_entryLines (symbols : List Symbol) (rest : List String) :
    symbols? (symbols.flatMap entryLines ++ "\x7d);" :: rest) = some (symbols, rest) := by
  induction symbols with
  | nil =>
    unfold symbols?
    exact if_pos rfl
  | cons symbol symbols ih =>
    have hsymbol : symbol? ("  " ++ symbol.name ++ ": \x7b")
        ("    args: [" ++ ", ".intercalate (symbol.arguments.map Template.typeExpression) ++ "],")
        ("    returns: " ++ Template.typeExpression symbol.returns ++ ",") "  \x7d," = some symbol := by
      rw [symbol?, between?_append, between?_append, between?_append, Option.bind_some, types?_intercalate,
        Option.bind_some, type?_typeExpression]
      show (if "  \x7d," = "  \x7d," then some symbol else none) = _
      rw [if_pos rfl]
    have hentry : "  " ++ symbol.name ++ ": \x7b" ≠ "\x7d);" := by
      intro h
      have hhead := congrArg (fun text => text.toList.head?) h
      simp at hhead
    rw [List.flatMap_cons, List.append_assoc, entryLines]
    show symbols? (_ :: _ :: _ :: _ :: (symbols.flatMap entryLines ++ _ :: rest)) = _
    rw [symbols?, if_neg hentry, hsymbol, ih]
    rfl

theorem exportNames?_exportLine {names : List String} (h : ∀ name ∈ names, ' ' ∉ name.toList) :
    exportNames? (names.map exportLine ++ [""]) = some names := by
  induction names with
  | nil => rfl
  | cons name names ih =>
    obtain ⟨hname, hnames⟩ := List.forall_mem_cons.1 h
    have hread :
        String.ofList (((exportLine name).toList.drop "export const ".length).takeWhile (· != ' ')) = name := by
      have hall : ∀ c ∈ name.toList, (c != ' ') = true := by
        intro c hc
        rw [bne_iff_ne]
        rintro rfl
        exact hname hc
      have hend (rest : List Char) : (" = lib.symbols.".toList ++ rest).takeWhile (· != ' ') = [] := by
        rw [show " = lib.symbols.".toList = ' ' :: "= lib.symbols.".toList by decide +kernel]
        rfl
      rw [exportLine, String.append_assoc, String.append_assoc, String.append_assoc, String.toList_append,
        List.drop_left' String.length_toList, String.toList_append, List.takeWhile_append_of_pos hall,
        String.toList_append, hend, List.append_nil, String.ofList_toList]
    have hne : exportLine name ≠ "" := by
      intro h
      have hlength := congrArg String.length h
      have hlong : 0 < "export const ".length := by decide
      rw [exportLine, String.length_append, String.length_append, String.length_append, String.length_append,
        String.length_empty] at hlength
      omega
    rw [List.map_cons, List.cons_append, exportNames?, if_neg hne]
    dsimp only
    rw [hread, if_pos rfl, ih hnames, Option.map_some]

/-- The lines of a binding, without the end of the last. -/
def lines (binding : Binding) : List String :=
  importLine :: "" :: ("const BASE_DIR = \"" ++ binding.binDir ++ "\";") :: "" ::
    ("const lib = dlopen(`$\x7bBASE_DIR\x7d/" ++ binding.libraryStem ++ ".$\x7bsuffix\x7d`, \x7b") ::
    (binding.symbols.flatMap entryLines ++ "\x7d);" :: "" :: binding.exportNames.map exportLine)

theorem intercalate_concat_nil (lines : List (List Char)) :
    ['\n'].intercalate (lines ++ [[]]) = lines.flatMap (· ++ ['\n']) := by
  induction lines with
  | nil => rfl
  | cons line lines ih =>
    cases lines with
    | nil => simp
    | cons next lines =>
      rw [List.cons_append] at ih
      simp only [List.cons_append, List.intercalate_cons_cons, ih, List.flatMap_cons, List.append_assoc]

theorem entryText_eq (symbol : Symbol) :
    Template.entryText symbol = String.join ((entryLines symbol).map (· ++ "\n")) := by
  have hname : ": \x7b\n    args: [" = ": \x7b" ++ ("\n" ++ "    args: [") := by decide +kernel
  have harguments : "],\n    returns: " = "]," ++ ("\n" ++ "    returns: ") := by decide +kernel
  have hreturns : ",\n  \x7d,\n" = "," ++ ("\n" ++ ("  \x7d," ++ "\n")) := by decide +kernel
  rw [Template.entryText, entryLines, hname, harguments, hreturns]
  simp only [String.join_cons, String.join_nil, List.map_cons, List.map_nil, String.append_assoc, String.append_empty]

theorem exportText_eq (symbol : Symbol) : Template.exportText symbol = exportLine symbol.name ++ "\n" := by
  have hend : ";\n" = ";" ++ "\n" := by decide +kernel
  rw [Template.exportText, exportLine, hend]
  simp only [String.join_cons, String.join_nil, String.append_assoc, String.append_empty]

theorem join_flatMap {α : Type} (f : α → List String) (xs : List α) :
    String.join (xs.flatMap f) = String.join (xs.map fun x => String.join (f x)) := by
  induction xs with
  | nil => rfl
  | cons x xs ih => simp [ih]

theorem render_stock_lines (binding : Binding) :
    Template.stock.render binding = .ok (String.join ((lines binding).map (· ++ "\n"))) := by
  have hopening : "import \x7b dlopen, FFIType, suffix \x7d from \"bun:ffi\";\n\nconst BASE_DIR = \"" =
      importLine ++ ("\n" ++ ("\n" ++ "const BASE_DIR = \"")) := by decide +kernel
  have hlibrary : "\";\n\nconst lib = dlopen(`$\x7bBASE_DIR\x7d/" =
      "\";" ++ ("\n" ++ ("\n" ++ "const lib = dlopen(`$\x7bBASE_DIR\x7d/")) := by decide +kernel
  have htable : ".$\x7bsuffix\x7d`, \x7b\n" = ".$\x7bsuffix\x7d`, \x7b" ++ "\n" := by decide +kernel
  have hclosing : "\x7d);\n\n" = "\x7d);" ++ ("\n" ++ "\n") := by decide +kernel
  have hentries : String.join ((binding.symbols.flatMap entryLines).map (· ++ "\n")) =
      String.join (binding.symbols.map Template.entryText) := by
    rw [List.map_flatMap, join_flatMap]
    exact congrArg String.join (List.map_congr_left fun symbol _ => (entryText_eq symbol).symm)
  have hexports : String.join ((binding.exportNames.map exportLine).map (· ++ "\n")) =
      String.join (binding.symbols.map Template.exportText) := by
    rw [Binding.exportNames, List.map_map, List.map_map]
    exact congrArg String.join (List.map_congr_left fun symbol _ => (exportText_eq symbol).symm)
  rw [Template.render_stock, lines, hopening, hlibrary, htable, hclosing]
  simp only [List.map_cons, List.map_append, String.join_cons, String.join_nil, String.join_append, hentries, hexports,
    String.append_assoc, String.append_empty, String.empty_append]

/-! ### Texts without line breaks -/

/-- No line break is in the text. -/
def IsLine (text : String) : Prop :=
  '\n' ∉ text.toList

instance (text : String) : Decidable (IsLine text) :=
  inferInstanceAs (Decidable ('\n' ∉ text.toList))

theorem IsLine.append {text other : String} (h : IsLine text) (hother : IsLine other) : IsLine (text ++ other) := by
  rw [IsLine, String.toList_append, List.mem_append]
  exact not_or.2 ⟨h, hother⟩

theorem isLine_between {before middle after : String} (hbefore : IsLine before) (h : IsLine middle)
    (hafter : IsLine after) : IsLine (before ++ middle ++ after) :=
  (hbefore.append h).append hafter

theorem isLine_typeExpression (type : FfiType) : IsLine (Template.typeExpression type) := by
  cases type <;> decide

theorem isLine_intercalate {separator : String} (hseparator : IsLine separator) {texts : List String}
    (h : ∀ text ∈ texts, IsLine text) : IsLine (separator.intercalate texts) := by
  induction texts with
  | nil => exact List.not_mem_nil
  | cons text texts ih =>
    obtain ⟨htext, htexts⟩ := List.forall_mem_cons.1 h
    cases texts with
    | nil => rwa [String.intercalate_singleton]
    | cons next texts =>
      rw [String.intercalate_cons_cons]
      exact (htext.append hseparator).append (ih htexts)

theorem isLine_entryLines {symbol : Symbol} (h : IsLine symbol.name) : ∀ line ∈ entryLines symbol, IsLine line := by
  have harguments : IsLine (", ".intercalate (symbol.arguments.map Template.typeExpression)) := by
    refine isLine_intercalate (by decide) ?_
    intro text htext
    obtain ⟨type, -, rfl⟩ := List.mem_map.1 htext
    exact isLine_typeExpression type
  intro line hline
  simp only [entryLines, List.mem_cons, List.not_mem_nil, or_false] at hline
  rcases hline with rfl | rfl | rfl | rfl
  · exact isLine_between (by decide) h (by decide)
  · exact isLine_between (by decide) harguments (by decide)
  · exact isLine_between (by decide) (isLine_typeExpression _) (by decide)
  · decide

theorem isLine_exportLine {name : String} (h : IsLine name) : IsLine (exportLine name) := by
  have hfront : IsLine ("export const " ++ name ++ " = lib.symbols.") := isLine_between (by decide) h (by decide)
  exact isLine_between hfront h (by decide)

theorem isLine_lines {binding : Binding} (hdirectory : IsLine binding.binDir) (hstem : IsLine binding.libraryStem)
    (hnames : ∀ symbol ∈ binding.symbols, IsLine symbol.name) : ∀ line ∈ lines binding, IsLine line := by
  intro line hline
  simp only [lines, List.mem_cons, List.mem_append, List.mem_flatMap, List.mem_map] at hline
  rcases hline with rfl | rfl | rfl | rfl | rfl | ⟨symbol, hsymbol, hentry⟩ | rfl | rfl | ⟨name, hname, rfl⟩
  · decide
  · decide
  · exact isLine_between (by decide) hdirectory (by decide)
  · decide
  · exact isLine_between (by decide) hstem (by decide)
  · exact isLine_entryLines (hnames symbol hsymbol) line hentry
  · decide
  · decide
  · obtain ⟨symbol, hsymbol, rfl⟩ := List.mem_map.1 hname
    exact isLine_exportLine (hnames symbol hsymbol)

/-! ### Reading back -/

theorem ofLines?_lines {binding : Binding} (hnames : ∀ symbol ∈ binding.symbols, ' ' ∉ symbol.name.toList) :
    ofLines? (lines binding ++ [""]) =
      some ⟨binding.binDir, binding.libraryStem, binding.symbols, binding.exportNames⟩ := by
  have hexports : exportNames? (binding.exportNames.map exportLine ++ [""]) = some binding.exportNames := by
    refine exportNames?_exportLine ?_
    intro name hname
    obtain ⟨symbol, hsymbol, rfl⟩ := List.mem_map.1 hname
    exact hnames symbol hsymbol
  have htable : binding.symbols.flatMap entryLines ++ "\x7d);" :: "" :: binding.exportNames.map exportLine ++ [""] =
      binding.symbols.flatMap entryLines ++ "\x7d);" :: ("" :: (binding.exportNames.map exportLine ++ [""])) := by
    simp
  rw [lines]
  simp only [List.cons_append]
  rw [ofLines?, between?_append, between?_append, htable, symbols?_entryLines]
  show (if some "" = some "" then exportNames? (binding.exportNames.map exportLine ++ [""]) else none).bind _ = _
  rw [if_pos rfl, hexports, Option.bind_some]
  exact if_pos rfl

theorem ofText?_join {lines : List String} (h : ∀ line ∈ lines, IsLine line) :
    ofText? (String.join (lines.map (· ++ "\n"))) = ofLines? (lines ++ [""]) := by
  have htext : (String.join (lines.map (· ++ "\n"))).toList = ['\n'].intercalate (lines.map String.toList ++ [[]]) := by
    rw [intercalate_concat_nil, String.toList_join, List.flatMap_map, List.flatMap_map]
    exact List.flatMap_congr fun line _ => String.toList_append
  have hbreaks : ∀ line ∈ lines.map String.toList ++ [[]], '\n' ∉ line := by
    intro line hline
    rcases List.mem_append.1 hline with hwritten | hlast
    · obtain ⟨text, htext, rfl⟩ := List.mem_map.1 hwritten
      exact h text htext
    · rw [List.mem_singleton.1 hlast]
      exact List.not_mem_nil
  have hread : (lines.map String.toList ++ [[]]).map String.ofList = lines ++ [""] := by
    rw [List.map_append, List.map_map]
    exact congrArg (· ++ [""]) ((List.map_congr_left fun line _ => String.ofList_toList).trans (List.map_id lines))
  rw [ofText?, htext, List.splitOn_intercalate '\n' hbreaks (by simp), hread]

end Reading

/-- A binding whose functions were extracted from a source, or have at least the names of such functions, with a module
name and a directory that break no line. -/
structure Plan.Binds (plan : Plan) (moduleName : String) (functions : List Rust.ExportedFunction) (binding : Binding) :
    Prop where
  bind : plan.bind moduleName functions = .ok binding
  named : (∃ source, Rust.exportedFunctions source = .ok functions) ∨
    ∀ function ∈ functions, function.name.toList ∈ Rust.Pattern.name
  moduleName : Reading.IsLine moduleName
  binDir : Reading.IsLine plan.binDir

namespace Plan.Binds

variable {plan : Plan} {moduleName : String} {functions : List Rust.ExportedFunction} {binding : Binding}

theorem exists_eq (h : plan.Binds moduleName functions binding) : ∃ platform : Platform, binding =
    ⟨moduleName, platform.libraryStem moduleName, plainDirectory plan.binDir,
      functions.map (Symbol.ofFunction plan.types)⟩ := by
  have hbind := h.bind
  rw [Plan.bind] at hbind
  cases hplatform : Platform.resolve plan.platform with
  | error error =>
    rw [hplatform] at hbind
    exact absurd hbind (by simp [Except.map])
  | ok platform =>
    rw [hplatform] at hbind
    exact ⟨platform, (Except.ok.inj hbind).symm⟩

theorem isWord_of_mem_symbols (h : plan.Binds moduleName functions binding) {symbol : Symbol}
    (hsymbol : symbol ∈ binding.symbols) : ∀ c ∈ symbol.name.toList, Text.isWord c = true := by
  have hnames : ∀ function ∈ functions, function.name.toList ∈ Rust.Pattern.name := by
    rcases h.named with ⟨source, hsource⟩ | hnames
    · exact Rust.name_of_mem_exportedFunctions hsource
    · exact hnames
  obtain ⟨platform, rfl⟩ := h.exists_eq
  obtain ⟨function, hfunction, rfl⟩ := List.mem_map.1 hsymbol
  obtain ⟨c, word, hname, hstart, hword⟩ := Rust.Pattern.mem_one_mul.1 (hnames function hfunction)
  rw [Text.isWordStart, Bool.and_eq_true] at hstart
  show ∀ d ∈ function.name.toList, Text.isWord d = true
  rw [hname]
  exact List.forall_mem_cons.2 ⟨hstart.1, Rust.Pattern.mem_many.1 hword⟩

/-- No character of a name is a space or breaks a line. -/
theorem notMem_name (h : plan.Binds moduleName functions binding) {symbol : Symbol}
    (hsymbol : symbol ∈ binding.symbols) {c : Char} (hc : Text.isWord c = false) : c ∉ symbol.name.toList := by
  intro hmem
  rw [h.isWord_of_mem_symbols hsymbol c hmem] at hc
  exact absurd hc (by simp)

theorem isLine_binDir (h : plan.Binds moduleName functions binding) : Reading.IsLine binding.binDir := by
  obtain ⟨platform, rfl⟩ := h.exists_eq
  show '\n' ∉ (plainDirectory plan.binDir).toList
  rw [plainDirectory, String.toList_ofList, List.mem_reverse]
  intro hmem
  have hslashed := List.mem_reverse.1 ((List.dropWhile_sublist _).subset hmem)
  obtain ⟨c, hc, hslash⟩ := List.mem_map.1 hslashed
  split at hslash
  · exact absurd hslash (by decide)
  · exact h.binDir (hslash ▸ hc)

theorem isLine_libraryStem (h : plan.Binds moduleName functions binding) : Reading.IsLine binding.libraryStem := by
  obtain ⟨platform, rfl⟩ := h.exists_eq
  have hprefixed : Reading.IsLine ("lib" ++ moduleName) := Reading.IsLine.append (by decide) h.moduleName
  cases platform with
  | windows => exact h.moduleName
  | linux => exact hprefixed
  | macos => exact hprefixed

/-- The reader gets back what a binding says from the text that the stock layout makes of it. -/
theorem ofText?_render (h : plan.Binds moduleName functions binding) :
    ∃ text, Template.stock.render binding = .ok text ∧ Reading.ofText? text =
      some ⟨binding.binDir, binding.libraryStem, binding.symbols, binding.exportNames⟩ := by
  refine ⟨_, Reading.render_stock_lines binding, ?_⟩
  rw [Reading.ofText?_join]
  · exact Reading.ofLines?_lines fun symbol hsymbol => h.notMem_name hsymbol (by decide)
  · exact Reading.isLine_lines h.isLine_binDir h.isLine_libraryStem fun symbol hsymbol =>
      h.notMem_name hsymbol (by decide)

end Plan.Binds

/-- Nothing is lost in the text of a binding: the reader gets back what the binding says, and a binding that says
something else has another text. -/
theorem render_stock_lossless {plan : Plan} {moduleName : String} {functions : List Rust.ExportedFunction}
    {binding : Binding} (h : plan.Binds moduleName functions binding) :
    ∃ text, Template.stock.render binding = .ok text ∧
      Reading.ofText? text =
        some ⟨binding.binDir, binding.libraryStem, binding.symbols, binding.symbols.map Symbol.name⟩ ∧
      ∀ {otherPlan : Plan} {otherName : String} {otherFunctions : List Rust.ExportedFunction} {other : Binding},
        otherPlan.Binds otherName otherFunctions other → Template.stock.render other = .ok text →
          other.binDir = binding.binDir ∧ other.libraryStem = binding.libraryStem ∧
            other.symbols = binding.symbols := by
  obtain ⟨text, hrender, hread⟩ := h.ofText?_render
  refine ⟨text, hrender, hread, ?_⟩
  intro otherPlan otherName otherFunctions other hother hsame
  obtain ⟨otherText, hotherRender, hotherRead⟩ := hother.ofText?_render
  obtain rfl : text = otherText := Except.ok.inj (hsame.symm.trans hotherRender)
  obtain ⟨hdirectory, hstem, hsymbols, -⟩ := Reading.mk.inj (Option.some.inj (hread.symm.trans hotherRead))
  exact ⟨hdirectory.symm, hstem.symm, hsymbols.symm⟩

namespace Sample

/-- Two functions of one name, of which one takes no argument. -/
def overloaded : List Rust.ExportedFunction :=
  [⟨"f", [], "void", 1⟩, ⟨"f", [⟨"*const u8", "p"⟩, ⟨"u32", "n"⟩], "u64", 2⟩]

def boundLibrary (moduleName : String) : Binding :=
  ⟨moduleName, "libm", "lib/bin", [⟨"f", [], .void⟩, ⟨"f", [.u64, .u32], .u64⟩]⟩

end Sample

/-- Two modules that have one library, as the platforms name it, have one text, and both are read back from it. -/
theorem render_stock_lossless_overloaded :
    Plan.Binds ⟨some "linux", .standard, "lib/bin"⟩ "m" Sample.overloaded (Sample.boundLibrary "m") ∧
      Plan.Binds ⟨some "win32", .standard, "lib\\bin/"⟩ "libm" Sample.overloaded (Sample.boundLibrary "libm") ∧
      ∃ text, Template.stock.render (Sample.boundLibrary "m") = .ok text ∧
        Template.stock.render (Sample.boundLibrary "libm") = .ok text ∧
        Reading.ofText? text =
          some ⟨"lib/bin", "libm", [⟨"f", [], .void⟩, ⟨"f", [.u64, .u32], .u64⟩], ["f", "f"]⟩ ∧
        (Sample.boundLibrary "libm").symbols = (Sample.boundLibrary "m").symbols := by
  have hnames : ∀ function ∈ Sample.overloaded, function.name.toList ∈ Rust.Pattern.name := by
    have hname : "f".toList ∈ Rust.Pattern.name :=
      Rust.Pattern.mem_one_mul.2 ⟨'f', [], rfl, by decide +kernel, Language.nil_mem_kstar _⟩
    intro function hfunction
    simp only [Sample.overloaded, List.mem_cons, List.not_mem_nil, or_false] at hfunction
    rcases hfunction with rfl | rfl
    · exact hname
    · exact hname
  have hlinux : Plan.Binds ⟨some "linux", .standard, "lib/bin"⟩ "m" Sample.overloaded (Sample.boundLibrary "m") :=
    ⟨by decide +kernel, .inr hnames, by decide, by decide⟩
  have hwindows :
      Plan.Binds ⟨some "win32", .standard, "lib\\bin/"⟩ "libm" Sample.overloaded (Sample.boundLibrary "libm") :=
    ⟨by decide +kernel, .inr hnames, by decide, by decide⟩
  obtain ⟨text, hrender, hread, hother⟩ := render_stock_lossless hlinux
  have hsame : Template.stock.render (Sample.boundLibrary "libm") = .ok text := by
    rw [← hrender, Template.render_stock, Template.render_stock]
    rfl
  exact ⟨hlinux, hwindows, text, hrender, hsame, hread, (hother hwindows hsame).2.2⟩

end FfiBindings
