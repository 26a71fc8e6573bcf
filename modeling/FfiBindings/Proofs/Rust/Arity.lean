import FfiBindings.Proofs.Rust.Items
import FfiBindings.Proofs.Rust.TypeGrammar

/-!
How many parameters are read. Parameters are cut apart at the commas outside all brackets, and there each `<` and `>`
counts as a bracket, also one that is an operator in the length of an array. So a list of parameters `name: type` is
read as it is written exactly if the count comes out (`TypedParameters.CommasSeparate`): no comma of a type may end up
at depth zero, and before each comma between parameters the lengths must have as many `<` as `>` (`parameters_typed`).
-/

set_option autoImplicit false
set_option relaxedAutoImplicit false

namespace FfiBindings.Rust

/-! ### Chunks that go on -/

/-- The chunk goes on behind a separator that stands in brackets. -/
theorem splitTopLevel_of_depth {separator : String} {chunk : List Token} {mark : Token} (rest : List Token)
    (h : Passes Bracket.all (·.isPunct separator) 0 chunk) (hsum : depthSum Bracket.all chunk ≠ 0) :
    ∃ more chunks, splitTopLevel separator (chunk ++ mark :: rest) = (chunk ++ mark :: more) :: chunks := by
  obtain ⟨more, chunks, hmore⟩ := List.exists_cons_of_ne_nil (splitTopLevelFrom_ne_nil separator
    (depthSum Bracket.all chunk + Bracket.depthChange Bracket.all mark) rest)
  refine ⟨more, chunks, ?_⟩
  rw [splitTopLevel, splitTopLevelFrom_append _ h, Int.zero_add]
  simp [splitTopLevelFrom, hsum, hmore, consToFirst, foldr_consToFirst]

/-! ### Spellings of different lengths -/

theorem exists_spellAfter_append (previous : Token) (tokens : List Token) {mark : Token} (h : mark.text ≠ "")
    (back : List Token) :
    ∃ more, more ≠ "" ∧ spellAfter previous (tokens ++ mark :: back) = spellAfter previous tokens ++ more := by
  induction tokens generalizing previous with
  | nil =>
    refine ⟨spellAfter previous (mark :: back), ?_, by simp [spellAfter]⟩
    simp [spellAfter, h]
  | cons token tokens ih =>
    obtain ⟨more, hmore, hspell⟩ := ih token
    exact ⟨more, hmore, by simp [spellAfter, hspell, String.append_assoc]⟩

/-- A type that is cut short or run on is spelled otherwise. -/
theorem spell_append_ne {mark : Token} (h : mark.text ≠ "") (tokens back : List Token) :
    spell (tokens ++ mark :: back) ≠ spell tokens := by
  cases tokens with
  | nil => simp [spell, h]
  | cons token tokens =>
    obtain ⟨more, hmore, hspell⟩ := exists_spellAfter_append token tokens h back
    simpa [spell, hspell] using hmore

namespace Grammar

/-! ### Lists of parameters -/

structure TypedParameter where
  name : Ident
  colon : Mark ":"
  type : Phrase .type

namespace TypedParameter

def tokens (parameter : TypedParameter) : List Token :=
  parameter.name.1 :: parameter.colon.1 :: parameter.type.tokens

/-- The word `mut` names nothing. -/
def meaning (parameter : TypedParameter) : Rust.Parameter where
  type := spell parameter.type.tokens
  name := if parameter.name.1.text = "mut" then "" else parameter.name.1.text

end TypedParameter

/-- Parameters with commas between them, and perhaps one more after the last. -/
structure TypedParameters where
  separated : List (TypedParameter × Mark ",")
  last : Option TypedParameter

namespace TypedParameters

def all (parameters : TypedParameters) : List TypedParameter :=
  parameters.separated.map Prod.fst ++ parameters.last.toList

def tokens (parameters : TypedParameters) : List Token :=
  (parameters.separated.flatMap fun (parameter, comma) => parameter.tokens ++ [comma.1]) ++
    parameters.last.elim [] TypedParameter.tokens

end TypedParameters

/-- No comma of the phrase is at depth zero, where each `<` and `>` counts. -/
def Phrase.HidesCommas {form : Form} (phrase : Phrase form) : Prop :=
  Passes Bracket.all (·.isPunct ",") 0 phrase.tokens

/-- The commas at depth zero are those between the parameters, where each `<` and `>` counts. -/
structure TypedParameters.CommasSeparate (parameters : TypedParameters) : Prop where
  hidden : ∀ parameter ∈ parameters.all, parameter.type.HidesCommas
  balanced : ∀ parameter ∈ parameters.separated.map Prod.fst, parameter.type.excess = 0

instance {form : Form} (phrase : Phrase form) : Decidable phrase.HidesCommas :=
  inferInstanceAs (Decidable (Passes _ _ _ _))

instance (parameters : TypedParameters) : Decidable parameters.CommasSeparate :=
  decidable_of_iff ((∀ parameter ∈ parameters.all, parameter.type.HidesCommas) ∧
    ∀ parameter ∈ parameters.separated.map Prod.fst, parameter.type.excess = 0)
    ⟨fun h => ⟨h.1, h.2⟩, fun h => ⟨h.hidden, h.balanced⟩⟩

theorem Phrase.hidesCommas_of_nested (type : Phrase .type)
    (h : ∀ length ∈ type.lengths, Nested Bracket.all anywhere length) : type.HidesCommas ∧ type.excess = 0 := by
  have hnested : Nested Bracket.all (outside Bracket.all .type) type.tokens := type.nested (by decide) h
  refine ⟨hnested.passes (List.Subset.refl _) (fun token hout => ?_) fun _ hmem hout => absurd hmem hout, ?_⟩
  · simpa [outside, Bracket.mem_all] using hout
  · rw [← type.depthSum_all, hnested.depthSum_eq_zero (List.Subset.refl _)]

/-! ### One parameter -/

namespace TypedParameter

variable {parameter : TypedParameter} {function : String} {position : Nat}

theorem tokens_append (parameter : TypedParameter) (rest : List Token) :
    parameter.tokens ++ rest = parameter.name.1 :: parameter.colon.1 :: (parameter.type.tokens ++ rest) := rfl

/-- A parameter has the type that is found behind its colon. -/
theorem read_eq (parameter : TypedParameter) (type : List Token) :
    Rust.Parameter.read function position parameter.name.1 (parameter.colon.1 :: type) =
      if type.isEmpty then .error ⟨.untypedParameter position function, parameter.name.1.line⟩
      else .ok ⟨spell type, parameter.meaning.name⟩ := by
  have hname : parameter.name.1.isPunct ":" = false := by simp [Token.isPunct, parameter.name.2]
  have hplain := parameter.name.isInert.depthChange_eq_zero Bracket.all
  have hcolon := (parameter.colon.isInert (by decide)).depthChange_eq_zero Bracket.all
  have hindex : (topLevel (parameter.name.1 :: parameter.colon.1 :: type)).findIdx? (·.any (·.isPunct ":")) =
      some 1 := by
    simp [topLevel, topLevelFrom, hplain, hcolon, hname, parameter.colon.2, List.findIdx?_cons]
  simp only [Rust.Parameter.read, hindex]
  by_cases hmut : parameter.name.1.text = "mut" <;> simp [hmut, meaning, parameter.name.2]

theorem passes_tokens (parameter : TypedParameter) {tokens : List Token} :
    Passes Bracket.all (·.isPunct ",") 0 (parameter.name.1 :: parameter.colon.1 :: tokens) ↔
      Passes Bracket.all (·.isPunct ",") 0 tokens := by
  have hcolon := parameter.colon.isInert (by decide)
  simp [Passes, parameter.name.isInert.noComma, hcolon.noComma, parameter.name.isInert.depthChange_eq_zero,
    hcolon.depthChange_eq_zero]

theorem depthSum_tokens (parameter : TypedParameter) (tokens : List Token) :
    depthSum Bracket.all (parameter.name.1 :: parameter.colon.1 :: tokens) = depthSum Bracket.all tokens := by
  simp [parameter.name.isInert.depthChange_eq_zero, (parameter.colon.isInert (by decide)).depthChange_eq_zero]

theorem nested_tokens (parameter : TypedParameter) : Nested Bracket.delimiters anywhere parameter.tokens := by
  have htype : Nested Bracket.delimiters anywhere parameter.type.tokens :=
    (parameter.type.nested (List.Subset.refl _) parameter.type.nested_lengths).mono fun _ _ => rfl
  exact .plain (parameter.name.isInert.isPlain _) rfl
    (.plain ((parameter.colon.isInert (by decide)).isPlain _) rfl htype)

theorem splitTopLevel_separated (parameter : TypedParameter) (comma : Mark ",") (rest : List Token)
    (hhides : parameter.type.HidesCommas) (hexcess : parameter.type.excess = 0) :
    splitTopLevel "," (parameter.tokens ++ comma.1 :: rest) = parameter.tokens :: splitTopLevel "," rest := by
  refine splitTopLevel_of_passes rest (parameter.passes_tokens.2 hhides) ?_ comma.2 (comma_isPlain comma.2)
  rw [tokens, depthSum_tokens, parameter.type.depthSum_all, hexcess]

theorem splitTopLevel_last (parameter : TypedParameter) (hhides : parameter.type.HidesCommas) :
    splitTopLevel "," parameter.tokens = [parameter.tokens] :=
  splitTopLevel_eq_singleton (parameter.passes_tokens.2 hhides)

theorem readParameters_cons (parameter : TypedParameter) (chunks : List (List Token)) :
    readParameters function position (parameter.tokens :: chunks) =
      (readParameters function (position + 1) chunks).map (parameter.meaning :: ·) := by
  have hsome : parameter.type.tokens.isEmpty = false := by simpa using parameter.type.type_ne_nil
  rw [tokens, readParameters, parameter.read_eq, hsome]
  cases readParameters function (position + 1) chunks <;> rfl

/-! ### What a parameter that is read well tells of its commas -/

theorem read_cons {type : List Token} {chunks : List (List Token)} {found : List Rust.Parameter}
    (h : readParameters function position ((parameter.name.1 :: parameter.colon.1 :: type) :: chunks) = .ok found) :
    ∃ more, readParameters function (position + 1) chunks = .ok more ∧
      found = ⟨spell type, parameter.meaning.name⟩ :: more := by
  rw [readParameters, parameter.read_eq] at h
  split at h
  · exact absurd h (by simp [bind, Except.bind])
  · cases hmore : readParameters function (position + 1) chunks with
    | error error => exact absurd h (by simp [hmore, bind, Except.bind])
    | ok more =>
      rw [hmore] at h
      exact ⟨more, rfl, (Except.ok.inj h).symm⟩

theorem comma_text {token : Token} (h : token.isPunct "," = true) : token.text ≠ "" := by
  rw [(Token.isPunct_iff.1 h).2]
  decide

/-- A comma of the type at depth zero would cut the type short. -/
theorem hidesCommas_of_read {rest : List Token} {found : List Rust.Parameter}
    (h : readParameters function position (splitTopLevel "," (parameter.tokens ++ rest)) = .ok found)
    (htype : found.head?.map (·.type) = some (spell parameter.type.tokens)) : parameter.type.HidesCommas := by
  by_contra hseen
  obtain ⟨front, mark, back, htokens, hfront, hdepth, hmark⟩ := exists_of_not_passes hseen
  rw [Int.zero_add] at hdepth
  rw [tokens, htokens, List.cons_append, List.cons_append, List.append_assoc, List.cons_append, ← List.cons_append,
    ← List.cons_append, splitTopLevel_of_passes _ (parameter.passes_tokens.2 hfront)
      (by rw [depthSum_tokens, hdepth]) hmark (comma_isPlain hmark)] at h
  obtain ⟨more, -, rfl⟩ := read_cons h
  rw [htokens] at htype
  exact spell_append_ne (comma_text hmark) front back (Option.some.inj htype).symm

/-- With another count of `<` than of `>` the type would run on behind the comma. -/
theorem excess_of_read {comma : Mark ","} {rest : List Token} {found : List Rust.Parameter}
    (h : readParameters function position (splitTopLevel "," (parameter.tokens ++ comma.1 :: rest)) = .ok found)
    (htype : found.head?.map (·.type) = some (spell parameter.type.tokens)) (hhides : parameter.type.HidesCommas) :
    parameter.type.excess = 0 := by
  by_contra hexcess
  have hpasses : Passes Bracket.all (·.isPunct ",") 0 parameter.tokens := parameter.passes_tokens.2 hhides
  have hdepth : depthSum Bracket.all parameter.tokens ≠ 0 := by
    rwa [tokens, depthSum_tokens, parameter.type.depthSum_all]
  obtain ⟨more, chunks, hsplit⟩ := splitTopLevel_of_depth rest hpasses hdepth
  rw [hsplit, tokens_append] at h
  obtain ⟨others, -, rfl⟩ := read_cons h
  exact spell_append_ne (comma_text comma.2) parameter.type.tokens more (Option.some.inj htype)

end TypedParameter

/-! ### All parameters -/

namespace TypedParameters

variable {function : String} {position : Nat} {separated : List (TypedParameter × Mark ",")}
  {last : Option TypedParameter}

def meaning (parameters : TypedParameters) : List Rust.Parameter :=
  parameters.all.map TypedParameter.meaning

def types (parameters : TypedParameters) : List String :=
  parameters.all.map fun parameter => spell parameter.type.tokens

theorem map_type_meaning (parameters : TypedParameters) : parameters.meaning.map (·.type) = parameters.types := by
  simp [meaning, types, TypedParameter.meaning]

theorem tokens_cons (parameter : TypedParameter) (comma : Mark ",") :
    tokens ⟨(parameter, comma) :: separated, last⟩ = parameter.tokens ++ comma.1 :: tokens ⟨separated, last⟩ := by
  simp [tokens]

theorem commasSeparate_cons {parameter : TypedParameter} {comma : Mark ","} :
    CommasSeparate ⟨(parameter, comma) :: separated, last⟩ ↔
      (parameter.type.HidesCommas ∧ parameter.type.excess = 0) ∧ CommasSeparate ⟨separated, last⟩ := by
  constructor
  · rintro ⟨hhidden, hbalanced⟩
    obtain ⟨hhides, hhidden⟩ := List.forall_mem_cons.1 hhidden
    obtain ⟨hexcess, hbalanced⟩ := List.forall_mem_cons.1 hbalanced
    exact ⟨⟨hhides, hexcess⟩, hhidden, hbalanced⟩
  · rintro ⟨⟨hhides, hexcess⟩, hhidden, hbalanced⟩
    exact ⟨List.forall_mem_cons.2 ⟨hhides, hhidden⟩, List.forall_mem_cons.2 ⟨hexcess, hbalanced⟩⟩

theorem readParameters_tokens (h : CommasSeparate ⟨separated, last⟩) :
    readParameters function position (splitTopLevel "," (tokens ⟨separated, last⟩)) =
      .ok (meaning ⟨separated, last⟩) := by
  induction separated generalizing position with
  | nil =>
    cases last with
    | none => rfl
    | some parameter =>
      have hhides := h.hidden parameter List.mem_cons_self
      show readParameters function position (splitTopLevel "," parameter.tokens) = _
      rw [parameter.splitTopLevel_last hhides, parameter.readParameters_cons]
      rfl
  | cons pair separated ih =>
    obtain ⟨parameter, comma⟩ := pair
    obtain ⟨⟨hhides, hexcess⟩, hrest⟩ := commasSeparate_cons.1 h
    rw [tokens_cons, parameter.splitTopLevel_separated comma _ hhides hexcess, parameter.readParameters_cons, ih hrest]
    rfl

theorem commasSeparate_of_read {found : List Rust.Parameter}
    (h : readParameters function position (splitTopLevel "," (tokens ⟨separated, last⟩)) = .ok found)
    (htypes : found.map (·.type) = types ⟨separated, last⟩) : CommasSeparate ⟨separated, last⟩ := by
  induction separated generalizing position found with
  | nil =>
    refine ⟨?_, List.forall_mem_nil _⟩
    intro parameter hmem
    obtain rfl : last = some parameter := Option.mem_toList.1 hmem
    have hhead : found.head?.map (·.type) = some (spell parameter.type.tokens) := by
      rw [← List.head?_map, htypes]
      rfl
    have hread : readParameters function position (splitTopLevel "," (parameter.tokens ++ [])) = .ok found := by
      rwa [List.append_nil]
    exact parameter.hidesCommas_of_read hread hhead
  | cons pair separated ih =>
    obtain ⟨parameter, comma⟩ := pair
    have hhead : found.head?.map (·.type) = some (spell parameter.type.tokens) := by
      rw [← List.head?_map, htypes]
      rfl
    rw [tokens_cons] at h
    have hhides := parameter.hidesCommas_of_read h hhead
    have hexcess := parameter.excess_of_read h hhead hhides
    rw [parameter.splitTopLevel_separated comma _ hhides hexcess, parameter.readParameters_cons] at h
    cases hmore : readParameters function (position + 1) (splitTopLevel "," (tokens ⟨separated, last⟩)) with
    | error error => exact absurd h (by simp [hmore, Except.map])
    | ok more =>
      rw [hmore] at h
      obtain rfl := Except.ok.inj h
      exact commasSeparate_cons.2 ⟨⟨hhides, hexcess⟩, ih hmore (List.cons.inj htypes).2⟩

theorem commasSeparate_of_nested {parameters : TypedParameters}
    (h : ∀ parameter ∈ parameters.all, ∀ length ∈ parameter.type.lengths, Nested Bracket.all anywhere length) :
    parameters.CommasSeparate where
  hidden parameter hmem := (parameter.type.hidesCommas_of_nested (h parameter hmem)).1
  balanced parameter hmem :=
    (parameter.type.hidesCommas_of_nested (h parameter (List.mem_append_left _ hmem))).2

theorem nested_tokens (parameters : TypedParameters) : Nested Bracket.delimiters anywhere parameters.tokens := by
  obtain ⟨separated, last⟩ := parameters
  induction separated with
  | nil =>
    cases last with
    | none => exact .nil
    | some parameter => exact parameter.nested_tokens
  | cons pair separated ih =>
    obtain ⟨parameter, comma⟩ := pair
    rw [tokens_cons]
    exact parameter.nested_tokens.append (.plain (isPlain_of_isPunct comma.2 (by decide)) rfl ih)

end TypedParameters

/-! ### Signatures -/

/-- The parameters of a signature are read with the types that are written exactly if the commas separate them, and then
with their names as well. That is so where the angle brackets in each length of an array are nested by themselves. What
stands behind the parameters has no part in it. -/
theorem parameters_typed (generics : Option (Group .angle Bracket.all)) (opening : Mark "(")
    (parameters : TypedParameters) (closing : Mark ")") (name : String) (line : Nat) (after : List Token) :
    ((∃ found, readParameters name 1 (splitTopLevel "," parameters.tokens) = .ok found ∧
        found.map (·.type) = parameters.types) ↔ parameters.CommasSeparate) ∧
    (parameters.CommasSeparate →
      readParameters name 1 (splitTopLevel "," parameters.tokens) = .ok parameters.meaning) ∧
    ((∀ parameter ∈ parameters.all, ∀ length ∈ parameter.type.lengths, Nested Bracket.all anywhere length) →
      parameters.CommasSeparate) ∧
    Signature.readNamed name line
        (generics.elim [] Group.tokens ++ opening.1 :: (parameters.tokens ++ closing.1 :: after)) = (do
      let found ← readParameters name 1 (splitTopLevel "," parameters.tokens)
      let (returnType, left) ← readReturnType name line after
      let left ← skipBody name line (skipWhereClause left)
      return (⟨⟨name, found, returnType, line⟩, generics.isSome⟩, left)) := by
  have hexact (h : parameters.CommasSeparate) :
      readParameters name 1 (splitTopLevel "," parameters.tokens) = .ok parameters.meaning :=
    TypedParameters.readParameters_tokens h
  refine ⟨⟨?_, ?_⟩, hexact, TypedParameters.commasSeparate_of_nested, ?_⟩
  · rintro ⟨found, hfound, htypes⟩
    exact TypedParameters.commasSeparate_of_read hfound htypes
  · intro h
    exact ⟨parameters.meaning, hexact h, parameters.map_type_meaning⟩
  · exact readNamed_eq generics opening parameters.nested_tokens (by decide) closing name line after

end Grammar

open Grammar

namespace Sample

def number (text : String) : Token := ⟨.number, text, 1⟩

/-- The type of arrays of bytes with the given length. -/
def bytes (length : List Token)
    (h : ∀ token ∈ length, ∀ bracket ∈ Bracket.delimiters, bracket.opens token = false ∧ bracket.closes token = false) :
    Phrase .type :=
  .array ⟨mark "[", isPunct_mark "["⟩ (.named (.segment ⟨word "u8", rfl⟩)) ⟨mark ";", isPunct_mark ";"⟩ length
    (.of_plain h) ⟨mark "]", isPunct_mark "]"⟩

def parameter (name : String) (type : Phrase .type) : TypedParameter where
  name := ⟨word name, rfl⟩
  colon := ⟨mark ":", isPunct_mark ":"⟩
  type := type

def pair (first second : Phrase .type) : TypedParameters where
  separated := [(parameter "a" first, ⟨mark ",", by decide⟩)]
  last := some (parameter "b" second)

def shifted : Phrase .type :=
  bytes [number "1", mark "<", mark "<", number "2"] (by decide)

/-- The two shifts make up for one another, but not as brackets would. -/
def shiftedBack : Phrase .type :=
  bytes [number "4", mark ">", mark ">", number "1", mark "<", mark "<", number "1"] (by decide)

end Sample

open Sample

theorem parameters_typed_shifted :
    (pair shiftedBack shifted).CommasSeparate ∧
      Signature.readNamed "f" 1
          (mark "(" :: ((pair shiftedBack shifted).tokens ++ [mark ")", mark "\x7b", mark "\x7d"])) =
        .ok (⟨⟨"f", [⟨"[u8; 4>>1<<1]", "a"⟩, ⟨"[u8; 1<<2]", "b"⟩], "void", 1⟩, false⟩, []) := by
  have hseparate : (pair shiftedBack shifted).CommasSeparate := by decide +kernel
  obtain ⟨-, hread, -, hnamed⟩ := parameters_typed none ⟨mark "(", by decide⟩ (pair shiftedBack shifted)
    ⟨mark ")", by decide⟩ "f" 1 [mark "\x7b", mark "\x7d"]
  refine ⟨hseparate, hnamed.trans ?_⟩
  rw [hread hseparate]
  decide +kernel

/-- A shift in the length of an array hides the comma behind it, and two parameters are read as one. -/
theorem parameters_joined_by_shift :
    tokens "a: [u8; 1 << 2], b: u32" = .ok (pair shifted (.named (.segment ⟨word "u32", by decide⟩))).tokens ∧
      (pair shifted (.named (.segment ⟨word "u32", by decide⟩))).types = ["[u8; 1<<2]", "u32"] ∧
      exportedFunctions "#[no_mangle] pub fn f(a: [u8; 1 << 2], b: u32) \x7b\x7d" =
        .ok [⟨"f", [⟨"[u8; 1<<2], b:u32", "a"⟩], "void", 1⟩] := by
  decide +kernel

end FfiBindings.Rust
