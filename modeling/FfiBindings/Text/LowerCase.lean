import FfiBindings.Text.CaseTable

/-!
Lower case of whole texts. Every character is lowered by itself except a capital sigma, which at the
end of a word becomes the final sigma: a cased character stands before it and none after it, where
case-ignorable characters are looked past. The dotted capital I is the one character whose lower case
has two.
-/

set_option autoImplicit false
set_option relaxedAutoImplicit false

namespace FfiBindings.Text

def LowerRun.contains (run : LowerRun) (code : Nat) : Bool :=
  run.first ≤ code && code ≤ run.last && (code - run.first) % run.step == 0

/-- The lower case of one character away from its neighbours. -/
def lowerChar (c : Char) : List Char :=
  if c.toNat < 128 then [c.toLower]
  else if c = 'İ' then ['i', '\u0307']
  else
    match lowerRuns.find? (·.contains c.toNat) with
    | some run => [.ofNat ((c.toNat : Int) + run.shift).toNat]
    | none => [c]

/-- Whether the nearest character that is not case-ignorable is cased. -/
def casedNext (cs : List Char) : Bool :=
  match cs.dropWhile (CodeRange.mem caseIgnorable) with
  | c :: _ => CodeRange.mem cased c
  | [] => false

/-- Lowers the second list; the first holds the characters before it, the nearest one first. -/
def lowerAfter : (before after : List Char) → List Char
  | _, [] => []
  | before, c :: after =>
    let lowered :=
      if c = 'Σ' then (if casedNext before && !casedNext after then ['ς'] else ['σ'])
      else lowerChar c
    lowered ++ lowerAfter (c :: before) after

def lower (s : String) : String :=
  .ofList (lowerAfter [] s.toList)

end FfiBindings.Text
