import FfiBindings.Yaml.Token.Scalar
import Mathlib.Tactic.Common

/-!
String and template literals of JavaScript, read as a module has them: what a literal denotes are code units of
sixteen bits, an escape stands for what it says, and an octal escape is refused. A text stays what it is in a literal
if it holds nothing that ends the literal, begins an escape or a substitution, or is a line end that the literal does
not take (`quoted?_units`, `template?_units`). Otherwise the literal denotes something else, or there is none: an
escape always stands for less than it is written with, and what ends a literal leaves it shorter
(`isQuotable_of_quoted?`, `template?_bound`).
-/

set_option autoImplicit false
set_option relaxedAutoImplicit false

namespace FfiBindings.JavaScript

/-! ### Code units -/

/-- The code units of a code point; beyond sixteen bits there are two. -/
def codeUnits (code : Nat) : List Nat :=
  if code < 0x10000 then [code]
  else [0xd800 + (code - 0x10000) / 0x400, 0xdc00 + (code - 0x10000) % 0x400]

def units (text : List Char) : List Nat :=
  text.flatMap fun c => codeUnits c.toNat

theorem units_cons (c : Char) (text : List Char) : units (c :: text) = codeUnits c.toNat ++ units text :=
  List.flatMap_cons

theorem units_append (front back : List Char) : units (front ++ back) = units front ++ units back :=
  List.flatMap_append

theorem length_codeUnits (code : Nat) : 1 ≤ (codeUnits code).length ∧ (codeUnits code).length ≤ 2 := by
  unfold codeUnits
  split <;> simp

/-- Every character has a code unit. -/
theorem length_le_units (text : List Char) : text.length ≤ (units text).length := by
  induction text with
  | nil => exact Nat.le_refl 0
  | cons c text ih =>
    have hfirst := (length_codeUnits c.toNat).1
    rw [units_cons, List.length_append, List.length_cons]
    omega

/-! ### Escapes -/

def isLineEnd (c : Char) : Bool :=
  ['\n', '\r', '\u2028', '\u2029'].contains c

/-- The letters and the digit that stand for a code unit after a backslash. -/
def escapeUnits : List (Char × Nat) :=
  [('0', 0), ('b', 8), ('t', 9), ('n', 10), ('v', 11), ('f', 12), ('r', 13)]

/-- A code unit in so many hexadecimal digits. -/
def hexUnit? (count : Nat) (text : List Char) : Option (List Nat × List Char) :=
  if text.length < count then none
  else (Yaml.Quoted.hexNumber? (text.take count)).map fun code => ([code], text.drop count)

/-- A code point in hexadecimal digits up to a brace. -/
def bracedPoint? (text : List Char) : Option (List Nat × List Char) :=
  let digits := text.takeWhile (· != '}')
  match text.dropWhile (· != '}') with
  | [] => none
  | _ :: rest =>
    if digits.isEmpty then none
    else (Yaml.Quoted.hexNumber? digits).bind fun code =>
      if code ≤ 0x10ffff then some (codeUnits code, rest) else none

/-- What an escape stands for, after its backslash, and the text behind it. A line end stands for nothing; a zero
before a digit and any other digit would be an octal escape, which a module does not have. -/
def escape? : List Char → Option (List Nat × List Char)
  | [] => none
  | c :: rest =>
    if c = 'x' then hexUnit? 2 rest
    else if c = 'u' then if rest.head? = some '{' then bracedPoint? rest.tail else hexUnit? 4 rest
    else if isLineEnd c then some ([], if c = '\r' && rest.head? = some '\n' then rest.tail else rest)
    else if c.isDigit && (c != '0' || rest.head?.any Char.isDigit) then none
    else some (((escapeUnits.lookup c).map ([·])).getD (codeUnits c.toNat), rest)

section

variable {text rest taken : List Char} {value : List Nat}

theorem notMem_of_hexNumber? {digits : List Char} {n : Nat} {c : Char} (h : Yaml.Quoted.hexNumber? digits = some n)
    (hc : Yaml.Quoted.hexValue? c = none) : c ∉ digits := by
  unfold Yaml.Quoted.hexNumber? at h
  generalize 0 = start at h
  induction digits generalizing start with
  | nil => exact List.not_mem_nil
  | cons d digits ih =>
    rw [List.foldlM_cons] at h
    cases hd : Yaml.Quoted.hexValue? d with
    | none =>
      rw [hd] at h
      exact nomatch h
    | some digit =>
      rw [hd] at h
      have hne : c ≠ d := by
        rintro rfl
        exact absurd (hc.symm.trans hd) nofun
      rw [List.mem_cons, not_or]
      exact ⟨hne, ih _ h⟩

theorem dot_notMem_of_hexNumber? {digits : List Char} {n : Nat} (h : Yaml.Quoted.hexNumber? digits = some n) :
    '.' ∉ digits :=
  notMem_of_hexNumber? h (by decide)

/-- What a reader has taken of the text, with no fewer code units than it stands for. -/
structure Takes (text : List Char) (value : List Nat) (rest taken : List Char) : Prop where
  text_eq : text = taken ++ rest
  length_le : value.length ≤ (units taken).length

theorem Takes.cons (h : Takes text value rest taken) (c : Char) : Takes (c :: text) value rest (c :: taken) := by
  refine ⟨congrArg (c :: ·) h.text_eq, Nat.le_trans h.length_le ?_⟩
  rw [units_cons, List.length_append]
  exact Nat.le_add_left _ _

theorem takes_hexUnit? {count : Nat} (hcount : 0 < count) (h : hexUnit? count text = some (value, rest)) :
    ∃ taken, Takes text value rest taken ∧ '.' ∉ taken := by
  unfold hexUnit? at h
  split at h
  · exact nomatch h
  rename_i hlength
  obtain ⟨code, hcode, heq⟩ := Option.map_eq_some_iff.1 h
  obtain ⟨rfl, rfl⟩ := Prod.mk.inj heq
  refine ⟨text.take count, ⟨(List.take_append_drop count text).symm, ?_⟩, dot_notMem_of_hexNumber? hcode⟩
  have hunits := length_le_units (text.take count)
  rw [List.length_take] at hunits
  rw [List.length_singleton]
  omega

theorem takes_bracedPoint? (h : bracedPoint? text = some (value, rest)) :
    ∃ taken, Takes text value rest taken ∧ '.' ∉ taken := by
  have hsplit := List.takeWhile_append_dropWhile (p := (· != '}')) (l := text)
  unfold bracedPoint? at h
  simp only at h
  split at h
  · exact absurd h (by simp)
  rename_i c after hafter
  have hbrace : c = '}' := by
    have hhead := List.head_dropWhile_not (p := (· != '}')) (l := text) (by rw [hafter]; simp)
    simpa [hafter] using hhead
  subst hbrace
  split at h
  · exact absurd h (by simp)
  rename_i hdigits
  obtain ⟨code, hcode, h⟩ := Option.bind_eq_some_iff.1 h
  split at h
  · obtain ⟨rfl, rfl⟩ := Prod.mk.inj (Option.some.inj h)
    refine ⟨text.takeWhile (· != '}') ++ ['}'], ⟨?_, ?_⟩, ?_⟩
    · rw [List.append_assoc, List.singleton_append, ← hafter, hsplit]
    · have hunits := length_le_units (text.takeWhile (· != '}') ++ ['}'])
      have htwo := (length_codeUnits code).2
      have hsome : 0 < (text.takeWhile (· != '}')).length := by
        rw [List.length_pos_iff]
        exact fun hnil => hdigits (by rw [hnil]; rfl)
      rw [List.length_append, List.length_singleton] at hunits
      omega
    · rw [List.mem_append, not_or]
      exact ⟨dot_notMem_of_hexNumber? hcode, by decide⟩
  · exact absurd h (by simp)

/-- An escape takes a single character, or several without a dot. -/
theorem takes_escape? (h : escape? text = some (value, rest)) :
    ∃ taken, Takes text value rest taken ∧ (taken.length = 1 ∨ '.' ∉ taken) := by
  cases text with
  | nil => exact nomatch h
  | cons c text =>
    have hmore {text : List Char} {letter : Char} (hletter : letter ≠ '.')
        (htaken : ∃ taken, Takes text value rest taken ∧ '.' ∉ taken) :
        ∃ taken, Takes (letter :: text) value rest taken ∧ '.' ∉ taken := by
      obtain ⟨taken, htakes, hdot⟩ := htaken
      refine ⟨letter :: taken, htakes.cons letter, ?_⟩
      rw [List.mem_cons, not_or]
      exact ⟨hletter.symm, hdot⟩
    have hseveral (hc : c ≠ '.') (htaken : ∃ taken, Takes text value rest taken ∧ '.' ∉ taken) :
        ∃ taken, Takes (c :: text) value rest taken ∧ (taken.length = 1 ∨ '.' ∉ taken) := by
      obtain ⟨taken, htakes, hdot⟩ := hmore hc htaken
      exact ⟨taken, htakes, .inr hdot⟩
    rw [escape?] at h
    split at h
    · rename_i hx
      exact hseveral (by rw [hx]; decide) (takes_hexUnit? (by decide) h)
    split at h
    · rename_i hu
      refine hseveral (by rw [hu]; decide) ?_
      split at h
      · rename_i hbrace
        obtain ⟨tail, rfl⟩ := List.head?_eq_some_iff.1 hbrace
        exact hmore (by decide) (takes_bracedPoint? h)
      · exact takes_hexUnit? (by decide) h
    split at h
    · rename_i hend
      have hc : c ≠ '.' := by
        rintro rfl
        exact absurd hend (by decide)
      obtain ⟨rfl, rfl⟩ := Prod.mk.inj (Option.some.inj h)
      refine hseveral hc ?_
      split
      · rename_i hboth
        rw [Bool.and_eq_true, decide_eq_true_eq, decide_eq_true_eq] at hboth
        obtain ⟨tail, rfl⟩ := List.head?_eq_some_iff.1 hboth.2
        exact ⟨['\n'], ⟨rfl, Nat.zero_le _⟩, by decide⟩
      · exact ⟨[], ⟨rfl, Nat.le_refl 0⟩, List.not_mem_nil⟩
    split at h
    · exact absurd h (by simp)
    · obtain ⟨rfl, rfl⟩ := Prod.mk.inj (Option.some.inj h)
      refine ⟨[c], ⟨rfl, ?_⟩, .inl rfl⟩
      have hone := (length_codeUnits c.toNat).1
      rw [units_cons, List.length_append]
      cases escapeUnits.lookup c with
      | none => exact Nat.le_add_right _ _
      | some unit =>
        rw [Option.map_some, Option.getD_some, List.length_singleton]
        omega

end

/-! ### Text between double quotes -/

/-- What stands for the text up to a double quote, and what is behind it. -/
def quoted? : (fuel : Nat) → List Char → Option (List Nat × List Char)
  | 0, _ => none
  | _, [] => none
  | fuel + 1, c :: rest =>
    if c = '"' then some ([], rest)
    else if c = '\n' || c = '\r' then none
    else
      (if c = '\\' then escape? rest else some (codeUnits c.toNat, rest)).bind fun (first, rest) =>
        (quoted? fuel rest).map fun (later, rest) => (first ++ later, rest)

/-- What the string literal at the beginning of a text denotes, and what follows it. -/
def stringLiteral? (text : String) : Option (List Nat × String) :=
  match text.toList with
  | '"' :: rest => (quoted? rest.length rest).map fun (value, rest) => (value, .ofList rest)
  | _ => none

theorem stringLiteral?_of_toList {text : String} {rest : List Char} (h : text.toList = '"' :: rest) :
    stringLiteral? text = (quoted? rest.length rest).map fun (value, rest) => (value, .ofList rest) := by
  rw [stringLiteral?, h]
  rfl

/-- Nothing in the text ends a string literal or is a line end that it does not take. -/
def IsQuotable (text : List Char) : Prop :=
  '"' ∉ text ∧ '\n' ∉ text ∧ '\r' ∉ text

theorem isQuotable_cons {c : Char} {text : List Char} :
    IsQuotable (c :: text) ↔ (c ≠ '"' ∧ c ≠ '\n' ∧ c ≠ '\r') ∧ IsQuotable text := by
  simp only [IsQuotable, List.mem_cons, not_or, ne_comm]
  tauto

section

variable {text rest left : List Char} {value : List Nat} {fuel : Nat}

/-- A character that nothing is special about stands for itself. -/
theorem quoted?_cons {c : Char} (hescape : c ≠ '\\') (hquote : c ≠ '"') (hbreak : c ≠ '\n' ∧ c ≠ '\r') :
    quoted? (fuel + 1) (c :: rest) =
      (quoted? fuel rest).map fun (later, left) => (codeUnits c.toNat ++ later, left) := by
  rw [quoted?, if_neg hquote, if_neg (by simpa using hbreak), if_neg hescape]
  rfl

theorem quoted?_units (hescape : '\\' ∉ text) (h : IsQuotable text) (hfuel : text.length < fuel) :
    quoted? fuel (text ++ '"' :: rest) = some (units text, rest) := by
  induction text generalizing fuel with
  | nil =>
    obtain ⟨fuel, rfl⟩ : ∃ less, fuel = less + 1 := ⟨fuel - 1, by simp at hfuel; omega⟩
    rw [List.nil_append, quoted?, if_pos rfl]
    rfl
  | cons c text ih =>
    obtain ⟨fuel, rfl⟩ : ∃ less, fuel = less + 1 := ⟨fuel - 1, by simp at hfuel; omega⟩
    rw [List.mem_cons, not_or] at hescape
    obtain ⟨⟨hquote, hbreak⟩, hrest⟩ := isQuotable_cons.1 h
    rw [List.length_cons] at hfuel
    rw [List.cons_append, quoted?_cons (Ne.symm hescape.1) hquote hbreak, ih hescape.2 hrest (by omega), units_cons]
    rfl

/-- Only a quotable text is denoted by itself. -/
theorem isQuotable_of_quoted? (hescape : '\\' ∉ text)
    (h : quoted? fuel (text ++ '"' :: rest) = some (units text, left)) : IsQuotable text := by
  induction text generalizing fuel with
  | nil => exact ⟨List.not_mem_nil, List.not_mem_nil, List.not_mem_nil⟩
  | cons c text ih =>
    cases fuel with
    | zero => exact nomatch h
    | succ fuel =>
      rw [List.mem_cons, not_or] at hescape
      have hlength := length_le_units (c :: text)
      by_cases hquote : c = '"'
      · rw [List.cons_append, quoted?, if_pos hquote] at h
        rw [← (Prod.mk.inj (Option.some.inj h)).1] at hlength
        exact absurd hlength (by simp)
      by_cases hbreak : c ≠ '\n' ∧ c ≠ '\r'
      · rw [List.cons_append, quoted?_cons (Ne.symm hescape.1) hquote hbreak, units_cons] at h
        obtain ⟨⟨later, after⟩, hlater, heq⟩ := Option.map_eq_some_iff.1 h
        obtain ⟨hvalue, rfl⟩ := Prod.mk.inj heq
        rw [List.append_cancel_left hvalue] at hlater
        exact isQuotable_cons.2 ⟨⟨hquote, hbreak⟩, ih hescape.2 hlater⟩
      · rw [List.cons_append, quoted?, if_neg hquote, if_pos (by simp; tauto)] at h
        exact nomatch h

end

/-! ### Text between backticks -/

/-- How the expressions of substitutions are read, each up to the brace that closes it. No more is asked of it than
that it goes on in the text, and that the two names that stand in a binding are read as names. -/
structure Expressions (Expression : Type) where
  read? : List Char → Option (Expression × List Char)
  shorter : ∀ {text rest : List Char} {expression : Expression},
    read? text = some (expression, rest) → rest.length < text.length
  name : String → Expression
  read?_name : ∀ word ∈ ["BASE_DIR", "suffix"], ∀ rest : List Char,
    read? (word.toList ++ '}' :: rest) = some (name word, rest)

/-- What a template literal consists of: the code units before its substitutions, and each substitution with the code
units behind it. -/
structure TemplateValue (Expression : Type) where
  front : List Nat
  substitutions : List (Expression × List Nat)
  deriving DecidableEq, Repr

/-- What a character of a template stands for. An escape takes more of the text, and so does a line end of two
characters; every line end that begins so is a line feed. -/
def templateCharacter? (c : Char) (rest : List Char) : Option (List Nat × List Char) :=
  if c = '\\' then escape? rest
  else if c = '\r' then some ([10], if rest.head? = some '\n' then rest.tail else rest)
  else some (codeUnits c.toNat, rest)

/-- What the text up to a backtick consists of, and what is behind it. -/
def template? {Expression : Type} (expressions : Expressions Expression) :
    (fuel : Nat) → List Char → Option (TemplateValue Expression × List Char)
  | 0, _ => none
  | _, [] => none
  | fuel + 1, c :: rest =>
    if c = '`' then some (⟨[], []⟩, rest)
    else if c = '$' && rest.head? = some '{' then
      (expressions.read? rest.tail).bind fun (expression, rest) =>
        (template? expressions fuel rest).map fun (value, rest) =>
          (⟨[], (expression, value.front) :: value.substitutions⟩, rest)
    else
      (templateCharacter? c rest).bind fun (first, rest) =>
        (template? expressions fuel rest).map fun (value, rest) =>
          (⟨first ++ value.front, value.substitutions⟩, rest)

/-- What the template literal at the beginning of a text consists of, and what follows it. -/
def templateLiteral? {Expression : Type} (expressions : Expressions Expression) (text : String) :
    Option (TemplateValue Expression × String) :=
  match text.toList with
  | '`' :: rest => (template? expressions rest.length rest).map fun (value, rest) => (value, .ofList rest)
  | _ => none

theorem templateLiteral?_of_toList {Expression : Type} {expressions : Expressions Expression} {text : String}
    {rest : List Char} (h : text.toList = '`' :: rest) : templateLiteral? expressions text =
      (template? expressions rest.length rest).map fun (value, rest) => (value, .ofList rest) := by
  rw [templateLiteral?, h]
  rfl

/-- Nothing in the text ends a template literal, begins an escape or a substitution, or is a line end that is
changed. -/
def IsTemplateText (text : List Char) : Prop :=
  '`' ∉ text ∧ '\\' ∉ text ∧ '\r' ∉ text ∧ ¬ ['$', '{'] <:+: text

theorem isTemplateText_cons {c : Char} {text : List Char} :
    IsTemplateText (c :: text) ↔ (c ≠ '`' ∧ c ≠ '\\' ∧ c ≠ '\r' ∧ ¬ (c = '$' ∧ text.head? = some '{')) ∧
      IsTemplateText text := by
  have hprefix : ['$', '{'] <+: c :: text ↔ c = '$' ∧ text.head? = some '{' := by
    rw [List.cons_prefix_cons]
    cases text <;> simp [eq_comm]
  simp only [IsTemplateText, List.mem_cons, not_or, List.infix_cons_iff, hprefix, ne_comm]
  tauto

section

variable {Expression : Type} {expressions : Expressions Expression} {c : Char} {text rest left : List Char}
  {first : List Nat} {value : TemplateValue Expression} {fuel : Nat}

/-- A character with what it takes has no fewer code units than it stands for, and stands for itself only if it
begins no escape, is no line end that is changed and takes nothing. -/
theorem takes_templateCharacter? (h : templateCharacter? c rest = some (first, left)) :
    ∃ taken, rest = taken ++ left ∧ (taken.length = 1 ∨ '.' ∉ taken) ∧
      first.length ≤ (units (c :: taken)).length ∧
      (first = units (c :: taken) → c ≠ '\\' ∧ c ≠ '\r' ∧ taken = []) := by
  have hone := (length_codeUnits c.toNat).1
  unfold templateCharacter? at h
  split at h
  · obtain ⟨taken, htakes, hdot⟩ := takes_escape? h
    have hshort : first.length < (units (c :: taken)).length := by
      have hlength := htakes.length_le
      rw [units_cons, List.length_append]
      omega
    exact ⟨taken, htakes.text_eq, hdot, Nat.le_of_lt hshort, fun heq => absurd (heq ▸ hshort) (Nat.lt_irrefl _)⟩
  rename_i hescape
  split at h
  · rename_i hreturn
    obtain ⟨rfl, rfl⟩ := Prod.mk.inj (Option.some.inj h)
    have hother (taken : List Char) : [10] ≠ units (c :: taken) := by
      rw [hreturn, units_cons]
      exact fun heq => absurd (List.cons.inj heq).1 (by decide)
    have hlength (taken : List Char) : [10].length ≤ (units (c :: taken)).length := by
      rw [units_cons, List.length_append, List.length_singleton]
      omega
    split
    · rename_i hfeed
      obtain ⟨tail, rfl⟩ := List.head?_eq_some_iff.1 hfeed
      exact ⟨['\n'], rfl, .inl rfl, hlength _, fun heq => absurd heq (hother _)⟩
    · exact ⟨[], rfl, .inr List.not_mem_nil, hlength _, fun heq => absurd heq (hother _)⟩
  · rename_i hreturn
    obtain ⟨rfl, rfl⟩ := Prod.mk.inj (Option.some.inj h)
    refine ⟨[], rfl, .inr List.not_mem_nil, ?_, fun _ => ⟨hescape, hreturn, rfl⟩⟩
    rw [units_cons, List.length_append]
    exact Nat.le_add_right _ _

theorem template?_substitution : template? expressions (fuel + 1) ('$' :: '{' :: rest) =
    (expressions.read? rest).bind fun (expression, rest) =>
      (template? expressions fuel rest).map fun (value, rest) =>
        (⟨[], (expression, value.front) :: value.substitutions⟩, rest) := by
  rw [template?, if_neg (by decide), if_pos (by simp)]
  rfl

theorem template?_character (htick : c ≠ '`') (hdollar : ¬ (c = '$' ∧ rest.head? = some '{')) :
    template? expressions (fuel + 1) (c :: rest) =
      (templateCharacter? c rest).bind fun (first, rest) =>
        (template? expressions fuel rest).map fun (value, rest) =>
          (⟨first ++ value.front, value.substitutions⟩, rest) := by
  rw [template?, if_neg htick, if_neg (by simpa using hdollar)]

/-- No text stands before a substitution that a template begins with. -/
theorem front_of_template? (h : template? expressions fuel ('$' :: '{' :: rest) = some (value, left)) :
    value.front = [] := by
  cases fuel with
  | zero => exact nomatch h
  | succ fuel =>
    rw [template?_substitution] at h
    obtain ⟨⟨expression, after⟩, -, h⟩ := Option.bind_eq_some_iff.1 h
    obtain ⟨⟨later, last⟩, -, heq⟩ := Option.map_eq_some_iff.1 h
    rw [← (Prod.mk.inj heq).1]

theorem template?_units (h : IsTemplateText text) (hnext : rest.head? ≠ some '{') :
    template? expressions (text.length + fuel) (text ++ rest) =
      (template? expressions fuel rest).map fun (value, left) =>
        (⟨units text ++ value.front, value.substitutions⟩, left) := by
  induction text with
  | nil =>
    rw [List.length_nil, Nat.zero_add, List.nil_append]
    cases template? expressions fuel rest <;> rfl
  | cons c text ih =>
    obtain ⟨⟨htick, hescape, hreturn, hdollar⟩, hrest⟩ := isTemplateText_cons.1 h
    have hplain : ¬ (c = '$' ∧ (text ++ rest).head? = some '{') := by
      cases text with
      | nil => exact fun hboth => hnext hboth.2
      | cons d text => exact hdollar
    rw [List.length_cons, Nat.add_right_comm, List.cons_append, template?_character htick hplain, templateCharacter?,
      if_neg hescape, if_neg hreturn, Option.bind_some]
    dsimp only
    rw [ih hrest, Option.map_map]
    refine congrArg (fun read => Option.map read _) (funext fun (value, left) => ?_)
    simp only [Function.comp_apply, units_cons, List.append_assoc]

/-- Where a character takes something of a text before a dot, what is left is left of that text, or the character has
taken the dot. -/
theorem left_of_taken {tail taken : List Char} (h : text ++ '.' :: tail = taken ++ left)
    (hdot : taken.length = 1 ∨ '.' ∉ taken) :
    (∃ more, text = taken ++ more ∧ left = more ++ '.' :: tail) ∨ (text = [] ∧ taken = ['.'] ∧ left = tail) := by
  rcases List.append_eq_append_iff.1 h with ⟨more, rfl, hmore⟩ | ⟨more, rfl, hmore⟩
  · cases more with
    | nil => exact .inl ⟨[], by simp, by simpa using hmore.symm⟩
    | cons d more =>
      obtain ⟨rfl, rfl⟩ := List.cons.inj hmore
      rcases hdot with hone | hfree
      · rw [List.length_append, List.length_cons] at hone
        obtain rfl : text = [] := List.length_eq_zero_iff.1 (by omega)
        obtain rfl : more = [] := List.length_eq_zero_iff.1 (by omega)
        exact .inr ⟨rfl, rfl, rfl⟩
      · exact absurd (List.mem_append_right text List.mem_cons_self) hfree
  · exact .inl ⟨more, rfl, hmore⟩

/-- The text before a dot and a substitution stands for no more code units than it has, and for its own only if it is
a text for templates. -/
theorem template?_bound (h : template? expressions fuel (text ++ '.' :: '$' :: '{' :: rest) = some (value, left)) :
    value.front.length ≤ (units (text ++ ['.'])).length ∧
      (value.front = units (text ++ ['.']) → IsTemplateText text) := by
  induction fuel generalizing text value left with
  | zero => exact nomatch h
  | succ fuel ih =>
    cases text with
    | nil =>
      rw [List.nil_append, template?_character (by decide) (by simp)] at h
      obtain ⟨⟨later, last⟩, hlater, heq⟩ := Option.map_eq_some_iff.1 h
      rw [← (Prod.mk.inj heq).1, front_of_template? hlater]
      exact ⟨Nat.le_refl _, fun _ => by simp [IsTemplateText]⟩
    | cons c text =>
      have hshort (hfront : value.front = []) : value.front.length ≤ (units (c :: text ++ ['.'])).length ∧
          (value.front = units (c :: text ++ ['.']) → IsTemplateText (c :: text)) := by
        have hlength := length_le_units (c :: text ++ ['.'])
        rw [hfront]
        refine ⟨Nat.zero_le _, fun heq => ?_⟩
        rw [← heq] at hlength
        exact absurd hlength (by simp)
      by_cases htick : c = '`'
      · rw [List.cons_append, template?, if_pos htick] at h
        exact hshort (by rw [← (Prod.mk.inj (Option.some.inj h)).1])
      by_cases hdollar : c = '$' ∧ (text ++ '.' :: '$' :: '{' :: rest).head? = some '{'
      · obtain ⟨rfl, hbrace⟩ := hdollar
        obtain ⟨tail, htail⟩ := List.head?_eq_some_iff.1 hbrace
        rw [List.cons_append, htail] at h
        exact hshort (front_of_template? h)
      rw [List.cons_append, template?_character htick hdollar] at h
      obtain ⟨⟨first, after⟩, hfirst, h⟩ := Option.bind_eq_some_iff.1 h
      obtain ⟨⟨later, last⟩, hlater, heq⟩ := Option.map_eq_some_iff.1 h
      obtain ⟨taken, htaken, hdot, hlength, hsame⟩ := takes_templateCharacter? hfirst
      rw [← (Prod.mk.inj heq).1]
      rcases left_of_taken htaken hdot with ⟨more, rfl, rfl⟩ | ⟨rfl, rfl, rfl⟩
      · obtain ⟨hbound, hkept⟩ := ih hlater
        have hunits : units (c :: (taken ++ more) ++ ['.']) = units (c :: taken) ++ units (more ++ ['.']) := by
          rw [← units_append, List.cons_append, List.cons_append, List.append_assoc]
        rw [hunits, List.length_append, List.length_append]
        refine ⟨Nat.add_le_add hlength hbound, fun hwhole => ?_⟩
        have htotal := congrArg List.length hwhole
        rw [List.length_append, List.length_append] at htotal
        obtain ⟨hown, hlaterOwn⟩ := List.append_inj hwhole (by omega)
        obtain ⟨hescape, hreturn, rfl⟩ := hsame hown
        refine isTemplateText_cons.2 ⟨⟨htick, hescape, hreturn, fun hboth => hdollar ⟨hboth.1, ?_⟩⟩, hkept hlaterOwn⟩
        rw [List.head?_append, hboth.2, Option.some_or]
      · rw [front_of_template? hlater, List.append_nil]
        exact ⟨hlength, fun heq => absurd (hsame heq).2.2 (List.cons_ne_nil _ _)⟩

end

end FfiBindings.JavaScript
