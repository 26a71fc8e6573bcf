import FfiBindings.Proofs.Rust.Items
import FfiBindings.Proofs.Rust.Lexeme
import FfiBindings.Proofs.Rust.Places
import FfiBindings.Proofs.Rust.Remainder

/-!
What a literal holds makes no difference to the functions that are found. Token lists that are alike are read to
functions at the same places, with types that differ at most in the literals they are written with, or to an error at
the same place (`functions_alike`). Whether a macro call goes on with a bracket may be asked of the text of a token
alone, without its kind (`Survey.ofTokensByText`). The answer is the same for every literal that can be written, since
none begins with a bracket; and of tokens that can be written the survey is the same (`Survey.ofTokensByText_eq`).
-/

set_option autoImplicit false
set_option relaxedAutoImplicit false

namespace FfiBindings.Rust

open Grammar Pattern Text

/-! ### The bracket of a macro call -/

/-- The brackets that a macro call may go on with. -/
def macroBrackets : List Bracket := [.paren, .square, .brace]

/-- The bracket that the text of a token is, of whatever kind the token is. -/
def Bracket.spelled? (token : Token) : Option Bracket :=
  macroBrackets.find? (token.text == ·.opening)

namespace Item

variable {opened? : Token → Option Bracket} {modifiers : Modifiers} {token : Token} {rest : List Token}

/-- A macro call with a bracket as `opened?` tells it. -/
def macroCallWith (opened? : Token → Option Bracket) (line : Nat) (tokens : List Token) : Except SourceError Step :=
  let tokens := tokens.tail
  let tokens := dropNextIf (nextIsKind tokens .ident) tokens
  match tokens.head?.bind opened? with
  | none => .ok ⟨{}, tokens, none⟩
  | some bracket =>
    match enclosed bracket (.group bracket) line tokens with
    | .ok (_, after) => .ok ⟨{}, after, none⟩
    | .error error => .error error

/-- A name that begins a macro call. -/
def callsMacro (token : Token) (rest : List Token) : Bool :=
  token.kind == .ident && !reserved.contains token.text && nextIsPunct rest "!"

/-- A step whose macro calls have a bracket as `opened?` tells it. -/
def stepWith (opened? : Token → Option Bracket) (modifiers : Modifiers) (token : Token) (rest : List Token) :
    Except SourceError Step :=
  if callsMacro token rest then macroCallWith opened? token.line rest else step modifiers token rest

theorem macroCallWith_length {line : Nat} {tokens : List Token} {s : Step}
    (h : macroCallWith opened? line tokens = .ok s) : s.rest.length ≤ tokens.length := by
  have hle : (dropNextIf (nextIsKind tokens.tail .ident) tokens.tail).length ≤ tokens.length :=
    Nat.le_trans (dropNextIf_length _ _) (by simp)
  simp only [macroCallWith] at h
  split at h
  · obtain rfl := by simpa using h
    exact hle
  · split at h
    · rename_i heq
      obtain rfl := by simpa using h
      exact Nat.le_trans (Nat.le_of_lt (enclosed_length heq)) hle
    · simp at h

theorem stepWith_length {s : Step} (h : stepWith opened? modifiers token rest = .ok s) :
    s.rest.length ≤ rest.length := by
  unfold stepWith at h
  split at h
  · exact macroCallWith_length h
  · exact step_length h

theorem stepWith_eq (modifiers : Modifiers) (token : Token) (rest : List Token) :
    stepWith (Bracket.opened? macroBrackets) modifiers token rest = step modifiers token rest := by
  unfold stepWith
  split
  · rename_i hcalls
    obtain ⟨⟨hkind, hname⟩, hbang⟩ : (token.kind = .ident ∧ token.text ∉ reserved) ∧ nextIsPunct rest "!" = true := by
      simpa [callsMacro] using hcalls
    rw [step_name hkind hname, if_pos hbang]
    rfl
  · rfl

end Item

namespace Survey

/-- A survey whose macro calls have a bracket as `opened?` tells it. -/
def ofTokensFromWith (opened? : Token → Option Bracket) (modifiers : Modifiers) : List Token → Survey
  | [] => ⟨[], none⟩
  | token :: rest =>
    match h : Item.stepWith opened? modifiers token rest with
    | .error error => ⟨[], some error⟩
    | .ok step =>
      have := Item.stepWith_length h
      (ofTokensFromWith opened? step.modifiers step.rest).after step.finding.toList
termination_by tokens => tokens.length

/-- A survey in which the text alone makes a token the bracket of a macro call. -/
def ofTokensByText (tokens : List Token) : Survey :=
  ofTokensFromWith Bracket.spelled? {} tokens

section

variable {opened? : Token → Option Bracket} {modifiers : Modifiers} {token : Token} {rest : List Token}

theorem ofTokensFromWith_error {error : SourceError} (h : Item.stepWith opened? modifiers token rest = .error error) :
    ofTokensFromWith opened? modifiers (token :: rest) = ⟨[], some error⟩ := by
  rw [ofTokensFromWith]
  split
  · rename_i heq
    obtain rfl : error = _ := by simpa [h] using heq
    rfl
  · rename_i heq
    simp [h] at heq

theorem ofTokensFromWith_cons {step : Step} (h : Item.stepWith opened? modifiers token rest = .ok step) :
    ofTokensFromWith opened? modifiers (token :: rest) =
      (ofTokensFromWith opened? step.modifiers step.rest).after step.finding.toList := by
  rw [ofTokensFromWith]
  split
  · rename_i heq
    simp [h] at heq
  · rename_i heq
    obtain rfl : step = _ := by simpa [h] using heq
    rfl

end

/-- With the brackets told by kind and text, this is the survey itself. -/
theorem ofTokensFromWith_eq (modifiers : Modifiers) (tokens : List Token) :
    ofTokensFromWith (Bracket.opened? macroBrackets) modifiers tokens = ofTokensFrom modifiers tokens := by
  fun_induction ofTokensFrom modifiers tokens with
  | case1 => rw [ofTokensFromWith]
  | case2 modifiers token rest error hstep => exact ofTokensFromWith_error (by rw [Item.stepWith_eq, hstep])
  | case3 modifiers token rest step hstep hlength survey ih =>
    rw [ofTokensFromWith_cons (by rw [Item.stepWith_eq, hstep]), ih]
    rfl

end Survey

/-! ### Texts that are no brackets -/

/-- What can be written and is no mark begins with a word character or with a quote. -/
theorem head_of_kind_ne {kind : Token.Kind} {text : List Char} (hkind : kind ≠ .punct) (h : text ∈ kind.pattern) :
    ∃ c rest, text = c :: rest ∧ (isWord c = true ∨ c ∈ ['"', '\'']) := by
  have hmarked {mark : Char} {language : Language Char} (hmark : isWord mark = true ∨ mark ∈ ['"', '\''])
      (h : text ∈ (1 + exactly ['b']) * (exactly [mark] * language)) :
      ∃ c rest, text = c :: rest ∧ (isWord c = true ∨ c ∈ ['"', '\'']) := by
    rcases mem_optional_mul.1 h with hbare | hletter
    · obtain ⟨rest, rfl, -⟩ := mem_exactly_mul.1 hbare
      exact ⟨mark, rest, rfl, hmark⟩
    · obtain ⟨rest, rfl, -⟩ := mem_exactly_mul.1 hletter
      exact ⟨'b', rest, rfl, .inl (by decide)⟩
  cases kind with
  | string =>
    rcases h with hraw | hquoted
    · exact hmarked (.inl (by decide)) hraw
    · exact hmarked (.inr (by decide)) hquoted
  | char => exact hmarked (.inr (by decide)) h
  | lifetime =>
    obtain ⟨rest, rfl, -⟩ := mem_exactly_mul.1 h
    exact ⟨'\'', rest, rfl, .inr (by decide)⟩
  | ident =>
    rcases mem_optional_mul.1 h with hname | hraw
    · obtain ⟨c, rest, rfl, hc⟩ := Lexeme.head_of_mem_name hname
      exact ⟨c, rest, rfl, .inl (Bool.and_eq_true_iff.1 hc).1⟩
    · obtain ⟨rest, rfl, -⟩ := mem_exactly_mul.1 hraw
      exact ⟨'r', _, rfl, .inl (by decide)⟩
  | number =>
    obtain ⟨c, rest, rfl, hc, -⟩ := mem_one_mul.1 h
    exact ⟨c, rest, rfl, .inl (isWord_of_isDecimal hc)⟩
  | punct => exact absurd rfl hkind

namespace Bracket

variable {token : Token}

theorem spelled?_of_kind_ne (hkind : token.kind ≠ .punct) (h : token.text.toList ∈ token.kind.pattern) :
    spelled? token = none := by
  refine List.find?_eq_none.2 fun bracket _ heq => ?_
  rw [beq_iff_eq] at heq
  obtain ⟨c, rest, htext, hc⟩ := head_of_kind_ne hkind h
  have hopening : ∃ c, bracket.opening.toList = [c] ∧ isWord c = false ∧ c ∉ ['"', '\''] := by
    cases bracket <;> exact ⟨_, rfl, by decide, by decide⟩
  obtain ⟨mark, hmark, hword, hquote⟩ := hopening
  rw [heq, hmark] at htext
  obtain rfl := (List.cons.inj htext).1
  rcases hc with hc | hc
  · simp [hword] at hc
  · exact hquote hc

/-- Of what can be written only marks are brackets, so it makes no difference whether the kind is asked. -/
theorem spelled?_eq_opened? (h : token.text.toList ∈ token.kind.pattern) :
    spelled? token = opened? macroBrackets token := by
  by_cases hkind : token.kind = .punct
  · simp only [spelled?, opened?, opens, Token.isPunct, hkind, beq_self_eq_true, Bool.true_and]
  · rw [spelled?_of_kind_ne hkind h, opened?, eq_comm, List.find?_eq_none]
    intro bracket _
    rw [opens, Token.isPunct, beq_eq_false_iff_ne.2 hkind, Bool.false_and]
    exact Bool.false_ne_true

end Bracket

/-- A bracket is told in the same way of tokens that are alike. -/
def IgnoresLiterals (opened? : Token → Option Bracket) : Prop :=
  ∀ token other : Token, token.Alike other → opened? other = opened? token

theorem ignoresLiterals_opened? (among : List Bracket) : IgnoresLiterals (Bracket.opened? among) := by
  intro token other h
  simp only [Bracket.opened?, Bracket.opens, h.isPunct]

theorem ignoresLiterals_spelled? : IgnoresLiterals Bracket.spelled? := by
  intro token other h
  cases hliteral : token.isLiteral with
  | false => rw [Bracket.spelled?, Bracket.spelled?, h.text hliteral]
  | true =>
    have hother : other.isLiteral = true := h.isLiteral ▸ hliteral
    rw [Bracket.spelled?_of_kind_ne (Token.kind_ne_of_isLiteral hliteral) (h.written hliteral),
      Bracket.spelled?_of_kind_ne (Token.kind_ne_of_isLiteral hother) (h.rewritten hother)]

theorem Item.macroCallWith_congr {opened? other? : Token → Option Bracket} (line : Nat) {tokens : List Token}
    (h : ∀ token ∈ tokens, opened? token = other? token) :
    macroCallWith opened? line tokens = macroCallWith other? line tokens := by
  have hsuffix := (dropNextIf_suffix (nextIsKind tokens.tail .ident) tokens.tail).trans (List.tail_suffix tokens)
  have hbracket : (dropNextIf (nextIsKind tokens.tail .ident) tokens.tail).head?.bind opened? =
      (dropNextIf (nextIsKind tokens.tail .ident) tokens.tail).head?.bind other? :=
    Option.bind_congr fun token htoken => h token (hsuffix.mem (List.mem_of_mem_head? htoken))
  simp only [macroCallWith, hbracket]

/-- Of tokens that can be written the text alone makes the survey that kind and text make. -/
theorem Survey.ofTokensByText_eq {tokens : List Token} (h : ∀ token ∈ tokens, token.text.toList ∈ token.kind.pattern) :
    ofTokensByText tokens = ofTokens tokens := by
  unfold ofTokensByText ofTokens
  generalize ({} : Modifiers) = modifiers
  have hstep {modifiers : Modifiers} {token : Token} {rest : List Token}
      (h : ∀ token ∈ rest, token.text.toList ∈ token.kind.pattern) :
      Item.stepWith Bracket.spelled? modifiers token rest = Item.step modifiers token rest := by
    rw [← Item.stepWith_eq, Item.stepWith, Item.stepWith,
      Item.macroCallWith_congr token.line fun token htoken => Bracket.spelled?_eq_opened? (h token htoken)]
  fun_induction ofTokensFrom modifiers tokens with
  | case1 => rw [ofTokensFromWith]
  | case2 modifiers token rest error herror =>
    exact ofTokensFromWith_error ((hstep (List.forall_mem_cons.1 h).2).trans herror)
  | case3 modifiers token rest step hok hlength survey ih =>
    have hrest := (List.forall_mem_cons.1 h).2
    rw [ofTokensFromWith_cons ((hstep hrest).trans hok),
      ih fun token htoken => hrest token ((Item.step_suffix hok).1.mem htoken)]
    rfl

/-! ### Surveys -/

/-- Where the findings of a survey are written, and where it fails. -/
structure SurveySite where
  findings : List FindingSite
  fault : Option Fault

def SurveySite.survey (view : Nat → Token) (site : SurveySite) : Survey :=
  ⟨site.findings.map (FindingSite.finding view), site.fault.map (Fault.error view)⟩

section

variable {sample : Nat → Token} {opened? : Token → Option Bracket}

theorem Item.macroCallWith_onePath (hopened : IgnoresLiterals opened?) (start : Nat) (places : List Nat) :
    OnePath sample StepSite.step fun view => Item.macroCallWith opened? (view start).line (places.map view) := by
  let left := if nextIsKind (places.tail.map sample) .ident then places.tail.tail else places.tail
  have hbracket (view : Nat → Token) (hview : Fills sample view) :
      (left.map view).head?.bind opened? = (left.map sample).head?.bind opened? := by
    cases left with
    | nil => rfl
    | cons place places => exact hopened _ _ (hview place)
  have hleft (view : Nat → Token) (hview : Fills sample view) :
      Item.dropNextIf (nextIsKind (places.map view).tail .ident) (places.map view).tail = left.map view := by
    rw [← List.map_tail, hview.nextIsKind, Item.dropNextIf_map]
  cases hfound : (left.map sample).head?.bind opened? with
  | none =>
    refine .ok ⟨{}, left, none⟩ fun view hview => ?_
    simp only [Item.macroCallWith, hleft view hview, hbracket view hview, hfound]
    rfl
  | some bracket =>
    refine (Item.passed_onePath {} bracket start left).congr fun view hview => ?_
    simp only [Item.macroCallWith, hleft view hview, hbracket view hview, hfound]
    cases enclosed bracket (.group bracket) (view start).line (left.map view) <;> rfl

theorem Item.step_onePath (modifiers : Modifiers) (place : Nat) (places : List Nat) :
    OnePath sample StepSite.step fun view => Item.step modifiers (view place) (places.map view) := by
  refine .test _ (fun view hview => congrFun (hview.isPunct place) "#")
    (fun _ => Item.attributes_onePath modifiers place places) fun _ => ?_
  refine .test _ (fun view hview => congrFun (hview.isIdent place) "pub")
    (fun _ => Item.visibility_onePath modifiers places) fun _ => ?_
  refine .test _ (fun view hview => congrFun (hview.isIdent place) "extern")
    (fun _ => Item.foreign_onePath modifiers place places) fun _ => ?_
  refine .test _ (fun view hview => congrFun (hview.isIdent place) "fn")
    (fun _ => Item.function_onePath modifiers place places) fun _ => ?_
  refine .test ((sample place).isIdent "impl" || (sample place).isIdent "trait")
    (fun view hview => by rw [hview.isIdent]) (fun hblock => ?_) fun _ => ?_
  · have hkind : (sample place).kind = .ident := by
      rcases Bool.or_eq_true_iff.1 hblock with h | h <;> exact (Token.isIdent_iff.1 h).1
    exact Item.block_onePath place places hkind
  refine .test ((sample place).kind == .ident && nextIsPunct (places.map sample) "!")
    (fun view hview => by rw [hview.kind, hview.nextIsPunct])
    (fun _ => Item.macroCallWith_onePath (ignoresLiterals_opened? macroBrackets) place places) fun _ => ?_
  exact .test ([";", "\x7b", "\x7d"].any (sample place).isPunct) (fun view hview => by rw [hview.isPunct])
    (fun _ => .ok ⟨{}, places, none⟩ fun _ _ => rfl) fun _ => .ok ⟨modifiers, places, none⟩ fun _ _ => rfl

theorem Item.stepWith_onePath (hopened : IgnoresLiterals opened?) (modifiers : Modifiers) (place : Nat)
    (places : List Nat) :
    OnePath sample StepSite.step fun view => Item.stepWith opened? modifiers (view place) (places.map view) := by
  refine .test (Item.callsMacro (sample place) (places.map sample)) (fun view hview => ?_)
    (fun _ => Item.macroCallWith_onePath hopened place places) fun _ => Item.step_onePath modifiers place places
  rw [Item.callsMacro, Item.callsMacro, hview.kind, hview.nextIsPunct]
  by_cases hkind : (sample place).kind = .ident
  · rw [(hview place).text_of_ident hkind]
  · simp only [beq_eq_false_iff_ne.2 hkind, Bool.false_and]

/-- A survey finds its functions at the same places and fails at the same place for all that fill the places alike. -/
theorem ofTokensFromWith_places (hopened : IgnoresLiterals opened?) (hsample : Fills sample sample)
    (modifiers : Modifiers) (places : List Nat) :
    ∃ site : SurveySite, ∀ view, Fills sample view →
      Survey.ofTokensFromWith opened? modifiers (places.map view) = site.survey view := by
  match places with
  | [] =>
    refine ⟨⟨[], none⟩, fun view _ => ?_⟩
    rw [List.map_nil, Survey.ofTokensFromWith]
    rfl
  | place :: places =>
    obtain ⟨outcome, houtcome⟩ := Item.stepWith_onePath hopened modifiers place places
    cases outcome with
    | error fault =>
      exact ⟨⟨[], some fault⟩, fun view hview => Survey.ofTokensFromWith_error (houtcome view hview)⟩
    | ok step =>
      have hlength : step.rest.length ≤ places.length := by
        simpa [StepSite.step] using Item.stepWith_length (houtcome sample hsample)
      obtain ⟨later, hlater⟩ := ofTokensFromWith_places hopened hsample step.modifiers step.rest
      refine ⟨⟨step.finding.toList ++ later.findings, later.fault⟩, fun view hview => ?_⟩
      rw [List.map_cons, Survey.ofTokensFromWith_cons (houtcome view hview), StepSite.step, hlater view hview]
      cases step.finding <;> simp [Survey.after, SurveySite.survey]
termination_by places.length

end

/-! ### Lists that are alike -/

theorem filterMap_function? (view : Nat → Token) (findings : List FindingSite) :
    (findings.map (FindingSite.finding view)).filterMap Finding.function? =
      (findings.filterMap FindingSite.function?).map (FunctionSite.function view) := by
  induction findings with
  | nil => rfl
  | cons finding findings ih =>
    cases finding <;> simp [List.filterMap_cons, FindingSite.finding, FindingSite.function?, Finding.function?, ih]

theorem SurveySite.functions_survey (view : Nat → Token) (site : SurveySite) :
    (site.survey view).functions =
      match site.fault with
      | none => .ok ((site.findings.filterMap FindingSite.function?).map (FunctionSite.function view))
      | some fault => .error (fault.error view) := by
  obtain ⟨findings, fault⟩ := site
  cases fault with
  | none => exact congrArg Except.ok (filterMap_function? view findings)
  | some fault => rfl

theorem spellAt_eq {sample view : Nat → Token} (h : Fills sample view) {places : List Nat}
    (hplain : ∀ place ∈ places, (sample place).isLiteral = false) : spellAt sample places = spellAt view places := by
  refine spell_congr ?_
  rw [List.map_map, List.map_map]
  refine List.map_congr_left fun place hplace => ?_
  exact Prod.ext (h place).kind ((h place).text (hplain place hplace))

/-- The first list is itself one of those that are like it. -/
theorem forall₂_alike_self {tokens others : List Token} (h : List.Forall₂ Token.Alike tokens others) :
    List.Forall₂ Token.Alike tokens tokens := by
  induction h with
  | nil => exact .nil
  | cons hfirst _ ih => exact .cons hfirst.refl_left ih

/-- Two sources that are cut into tokens of the same kinds, and of the same texts but for literals. -/
theorem forall₂_alike_of_tokens {source other : String} {written rewritten : List Token}
    (h : tokens source = .ok written) (hother : tokens other = .ok rewritten)
    (hshape : List.Forall₂ (fun token other : Token =>
      token.kind = other.kind ∧ (token.isLiteral = false → token.text = other.text)) written rewritten) :
    List.Forall₂ Token.Alike written rewritten := by
  have hwritten := mem_pattern_of_mem_tokens h
  have hrewritten := mem_pattern_of_mem_tokens hother
  clear h hother
  induction hshape with
  | nil => exact .nil
  | cons hfirst _ ih =>
    obtain ⟨hkind, htext⟩ := hfirst
    rw [List.forall_mem_cons] at hwritten hrewritten
    exact .cons ⟨hkind, htext, fun _ => hwritten.1, fun _ => hrewritten.1⟩ (ih hwritten.2 hrewritten.2)

/-- Two lists of tokens that differ in lines and in what their literals hold are read to functions at the same places,
and so with the same names, as many parameters and the same names of parameters; a type that is written without a
literal is the same, too. Or both are read to an error at the same place. All lists that are alike are read in this
one way, whether or not the kind of a token is asked where a macro call may go on with a bracket. -/
theorem functions_alike {tokens others : List Token} (h : List.Forall₂ Token.Alike tokens others) :
    ∀ survey ∈ [Survey.ofTokens, Survey.ofTokensByText],
      (∃ sites : List FunctionSite,
        (∀ list, List.Forall₂ Token.Alike tokens list →
          (survey list).functions = .ok (sites.map (FunctionSite.function (tokenAt list)))) ∧
        ∀ site ∈ sites, ∀ places ∈ site.types, (∀ place ∈ places, (tokenAt tokens place).isLiteral = false) →
          spellAt (tokenAt tokens) places = spellAt (tokenAt others) places) ∨
      ∃ fault : Fault, ∀ list, List.Forall₂ Token.Alike tokens list →
        (survey list).functions = .error (fault.error (tokenAt list)) := by
  intro survey hsurvey
  obtain ⟨opened?, hopened, hread⟩ : ∃ opened? : Token → Option Bracket, IgnoresLiterals opened? ∧
      ∀ list, survey list = Survey.ofTokensFromWith opened? {} list := by
    rcases List.mem_pair.1 hsurvey with rfl | rfl
    · exact ⟨_, ignoresLiterals_opened? macroBrackets, fun list => (Survey.ofTokensFromWith_eq {} list).symm⟩
    · exact ⟨_, ignoresLiterals_spelled?, fun _ => rfl⟩
  have hfills := fills_of_forall₂ h
  obtain ⟨site, hsite⟩ := ofTokensFromWith_places hopened (fun place => (hfills place).refl_left) {}
    (List.range tokens.length)
  have hfunctions (list : List Token) (hlist : List.Forall₂ Token.Alike tokens list) :
      (survey list).functions = (site.survey (tokenAt list)).functions := by
    rw [hread, ← hsite _ (fills_of_forall₂ hlist), hlist.length_eq, map_tokenAt]
  cases hfault : site.fault with
  | none =>
    refine .inl ⟨site.findings.filterMap FindingSite.function?, fun list hlist => ?_,
      fun _ _ places _ hplain => spellAt_eq hfills hplain⟩
    rw [hfunctions list hlist, site.functions_survey, hfault]
  | some fault =>
    refine .inr ⟨fault, fun list hlist => ?_⟩
    rw [hfunctions list hlist, site.functions_survey, hfault]

namespace Sample

/-- A function among literals that hold little. -/
def quiet : String :=
  "#[doc = \"\"]\n#[no_mangle] pub fn f(a: [u8; 'b'], c: u8) \x7b \"\" \x7d"

/-- The same function among literals that hold brackets, a keyword and an attribute. -/
def loud : String :=
  "#[doc = \"] pub\n\"] #[no_mangle] pub fn f(a: [u8; ']'], c: u8) \x7b \"#[no_mangle] \x7d\" \x7d"

def quietTokens : List Token :=
  (tokens quiet).toOption.getD []

def loudTokens : List Token :=
  (tokens loud).toOption.getD []

end Sample

open Sample

/-- The brackets, the keyword and the attribute in the literals lead to no other function. -/
theorem functions_alike_loud :
    List.Forall₂ Token.Alike quietTokens loudTokens ∧
      (Survey.ofTokens quietTokens).functions = .ok [⟨"f", [⟨"[u8; 'b']", "a"⟩, ⟨"u8", "c"⟩], "void", 2⟩] ∧
      ∃ function, (Survey.ofTokens loudTokens).functions = .ok [function] ∧ function.name = "f" ∧
        function.parameters.map Parameter.name = ["a", "c"] := by
  have hquiet : tokens quiet = .ok quietTokens := by decide +kernel
  have hloud : tokens loud = .ok loudTokens := by decide +kernel
  have halike : List.Forall₂ Token.Alike quietTokens loudTokens :=
    forall₂_alike_of_tokens hquiet hloud (by decide +kernel)
  have hself := forall₂_alike_self halike
  have hfound : (Survey.ofTokens quietTokens).functions = .ok [⟨"f", [⟨"[u8; 'b']", "a"⟩, ⟨"u8", "c"⟩], "void", 2⟩] := by
    decide +kernel
  refine ⟨halike, hfound, ?_⟩
  rcases functions_alike halike Survey.ofTokens (List.mem_cons_self) with ⟨sites, hsites, -⟩ | ⟨fault, hfault⟩
  · have hsame := Except.ok.inj ((hsites _ hself).symm.trans hfound)
    obtain ⟨site, rfl, hsite⟩ := List.map_eq_singleton_iff.1 hsame
    have hname : site.name = "f" := congrArg ExportedFunction.name hsite
    have hnames : site.parameters.map ParameterSite.name = ["a", "c"] := by
      rw [← site.map_name_parameters (tokenAt quietTokens), hsite]
      rfl
    exact ⟨site.function (tokenAt loudTokens), hsites _ halike, hname, (site.map_name_parameters _).trans hnames⟩
  · exact absurd ((hfault _ hself).symm.trans hfound) (by simp)

end FfiBindings.Rust
