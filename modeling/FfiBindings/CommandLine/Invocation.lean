import FfiBindings.CommandLine.Word

/-!
What a command line asks for. Switches and operands may come in any order. Words that nothing asks for are
reported together, after all other errors, and help is given as soon as it is asked for.
-/

set_option autoImplicit false
set_option relaxedAutoImplicit false

namespace FfiBindings.CommandLine

structure Arguments where
  verbose : Bool := false
  platform : Option String := none
  workers : Option Int := none
  dryRun : Bool := false
  strict : Bool := false
  logFile : Option String := none
  json : Bool := false
  deriving DecidableEq, Repr

/-- Why a command line is not carried out. -/
inductive Stop where
  | help (scope : Scope)
  | usage (scope : Scope) (error : UsageError)
  deriving DecidableEq, Repr

/-- What has been read in a scope. -/
structure Reading where
  arguments : Arguments := {}
  operands : Option (List String) := none
  unrecognized : List String := []

def positive (text : String) : Except UsageError Int :=
  match Text.Numeral.read 10 text with
  | .error _ => .error (.noInteger .workers text)
  | .ok n => if n < 1 then .error (.notPositive .workers) else .ok n

/-- Carries out a switch. -/
def Arguments.give (arguments : Arguments) (scope : Scope) (switch : Switch) (value : String) :
    Except Stop Arguments :=
  match switch with
  | .help => .error (.help scope)
  | .verbose => .ok { arguments with verbose := true }
  | .platform => .ok { arguments with platform := some value }
  | .workers =>
    match positive value with
    | .error error => .error (.usage scope error)
    | .ok n => .ok { arguments with workers := some n }
  | .dryRun => .ok { arguments with dryRun := true }
  | .strict => .ok { arguments with strict := true }
  | .logFile => .ok { arguments with logFile := some value }
  | .json => .ok { arguments with json := true }

/-- The switches in one word, each with its value, and what is left over of the word. -/
structure Unstacked where
  switches : List (Switch × String)
  leftOver : List String := []

/-- Takes a word with attached text apart: the text is the value of the switch, or further letters of
switches without values. -/
def unstack (scope : Scope) (switch : Switch) (isShort afterEquals : Bool) :
    List Char → Except UsageError Unstacked
  | [] =>
    if switch.takesValue then .ok ⟨[(switch, "")], []⟩ else .error (.ignoredValue switch "")
  | c :: rest =>
    if switch.takesValue then .ok ⟨[(switch, .ofList (c :: rest))], []⟩
    else if !isShort || afterEquals || c = '-' then
      .error (.ignoredValue switch (.ofList (c :: rest)))
    else
      match scope.spellings.lookup (.ofList ['-', c]) with
      | none => .ok ⟨[(switch, "")], [.ofList ('-' :: c :: rest)]⟩
      | some next =>
        let unstacked : Except UsageError Unstacked := match rest with
          | [] => .ok ⟨[(next, "")], []⟩
          | '=' :: value => unstack scope next true true value
          | rest => unstack scope next true false rest
        unstacked.map fun unstacked => ⟨(switch, "") :: unstacked.switches, unstacked.leftOver⟩

/-- Takes operands from words that begin with one or with the double dash, where they are wanted. -/
def takeOperands (arity : Arity) (words : List Word) : Option (List String × List Word) :=
  let marks := words.takeWhile Word.isMark
  match arity, words.dropWhile Word.isMark with
  | .rest, ⟨_, .operand⟩ :: _ => some (words.map Word.text, [])
  | .rest, _ => none
  | _, ⟨text, .operand⟩ :: rest =>
    let texts := marks.map Word.text ++ text :: (rest.takeWhile Word.isMark).map Word.text
    some (texts.erase "--", rest.dropWhile Word.isMark)
  | .atMostOne, rest => if marks.isEmpty then none else some ([], rest)
  | .one, _ => none

theorem length_dropWhile_le (p : Word → Bool) (words : List Word) :
    (words.dropWhile p).length ≤ words.length :=
  (List.dropWhile_sublist p).length_le

theorem length_takeOperands_lt {arity : Arity} {words rest : List Word} {texts : List String}
    (h : takeOperands arity words = some (texts, rest)) : rest.length < words.length := by
  have hdrop := length_dropWhile_le Word.isMark words
  have hsplit := congrArg List.length (List.takeWhile_append_dropWhile (p := Word.isMark)
    (l := words))
  simp only [List.length_append] at hsplit
  unfold takeOperands at h
  dsimp only at h
  split at h
  · rename_i heq
    simp only [Option.some.injEq, Prod.mk.injEq] at h
    rw [heq] at hdrop
    simp only [List.length_cons] at hdrop
    simp [← h.2]
    omega
  · cases h
  · rename_i tail _ heq
    simp only [Option.some.injEq, Prod.mk.injEq] at h
    have htail := length_dropWhile_le Word.isMark tail
    rw [heq] at hdrop
    simp only [List.length_cons] at hdrop
    rw [← h.2]
    omega
  · split at h
    · cases h
    · rename_i hmarks
      simp only [Option.some.injEq, Prod.mk.injEq] at h
      have hpos : 0 < (words.takeWhile Word.isMark).length := by
        cases hcase : words.takeWhile Word.isMark with
        | nil => exact absurd (by rw [hcase]; rfl) hmarks
        | cons mark marks => exact Nat.succ_pos _
      rw [← h.2]
      omega
  · cases h

def readWords (scope : Scope) (reading : Reading) (words : List Word) : Except Stop Reading :=
  match words with
  | [] => .ok reading
  | word :: rest =>
    match word.kind with
    | .unknown =>
      readWords scope { reading with unrecognized := reading.unrecognized ++ [word.text] } rest
    | .switch switch isShort (some attached) =>
      match unstack scope switch isShort attached.afterEquals attached.text with
      | .error error => .error (.usage scope error)
      | .ok unstacked => do
        let arguments ← unstacked.switches.foldlM (fun arguments (switch, value) =>
          arguments.give scope switch value) reading.arguments
        let unrecognized := reading.unrecognized ++ unstacked.leftOver
        readWords scope { reading with arguments, unrecognized } rest
    | .switch switch _ none =>
      if switch.takesValue then
        match rest with
        | ⟨value, .operand⟩ :: rest => do
          let arguments ← reading.arguments.give scope switch value
          readWords scope { reading with arguments } rest
        | _ => .error (.usage scope (.missingValue switch))
      else do
        let arguments ← reading.arguments.give scope switch ""
        readWords scope { reading with arguments } rest
    | .operand | .mark =>
      match h : if reading.operands.isNone then takeOperands scope.arity (word :: rest) else none with
      | some (texts, after) =>
        have : after.length < (word :: rest).length := by
          split at h
          · exact length_takeOperands_lt h
          · cases h
        readWords scope { reading with operands := some texts } after
      | none =>
        readWords scope { reading with unrecognized := reading.unrecognized ++ [word.text] } rest
termination_by words.length
decreasing_by
  all_goals simp only [List.length_cons] at *
  all_goals omega

def readScope (scope : Scope) (texts : List String) : Except Stop Reading :=
  match wordsOf scope texts with
  | .error error => .error (.usage scope error)
  | .ok words => readWords scope {} words

/-- A command with its operand, or the default of the operand. -/
structure Invocation where
  command : Command
  operand : String
  arguments : Arguments
  deriving DecidableEq, Repr

/-- The operand of a command. Bindings are generated for the current directory unless another one is
named. -/
def operandOf (command : Command) (operands : Option (List String)) : Except UsageError String :=
  match operands.bind List.head?, command with
  | some text, _ => .ok text
  | none, .generate => .ok "."
  | none, .inspect => .error (.missingOperand (Scope.command command).operandName)

/-- A command from the words after its name, and the words that are not recognized. -/
def readCommand (command : Command) (texts : List String) :
    Except Stop (Invocation × List String) := do
  let reading ← readScope (.command command) texts
  match operandOf command reading.operands with
  | .error error => throw (.usage (.command command) error)
  | .ok operand => return (⟨command, operand, reading.arguments⟩, reading.unrecognized)

def Invocation.ofWords (texts : List String) : Except Stop Invocation := do
  let reading ← readScope .program texts
  match reading.operands with
  | some (name :: rest) =>
    match Command.ofName? name with
    | none => throw (.usage .program (.noCommand name))
    | some command =>
      let (invocation, unrecognized) ← readCommand command rest
      let left := reading.unrecognized ++ unrecognized
      if left.isEmpty then
        let arguments := invocation.arguments
        let verbose := arguments.verbose || reading.arguments.verbose
        return { invocation with arguments := { arguments with verbose } }
      else throw (.usage .program (.unrecognized left))
  | _ => throw (.usage .program (.missingOperand Scope.program.operandName))

end FfiBindings.CommandLine
