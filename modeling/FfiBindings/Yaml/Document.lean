import FfiBindings.Yaml.Node
import FfiBindings.Yaml.Scalar

/-!
The value of a document, from its nodes. Collections are filled after they are begun, the outer ones
first: so of several faults the one nearest to the root of the document is reported, and of equally near
ones the first in the text.
-/

set_option autoImplicit false
set_option relaxedAutoImplicit false

namespace FfiBindings.Yaml

/-- A fault and its distance from the root. -/
structure Misfit where
  depth : Nat
  fault : Fault

abbrev Checked (α : Type) := Except Misfit α

namespace Checked

def misfit {α : Type} (depth : Nat) (fault : Fault) : Checked α :=
  .error ⟨depth, fault⟩

/-- Joins two checks, of which both are made. -/
def both {α β γ : Type} (join : α → β → γ) : Checked α → Checked β → Checked γ
  | .ok first, .ok second => .ok (join first second)
  | .error misfit, .ok _ => .error misfit
  | .ok _, .error misfit => .error misfit
  | .error first, .error second => .error (if second.depth < first.depth then second else first)

end Checked

open Checked

mutual

/-- What a node says that is read as a scalar: a mapping stands for the value under its value key. -/
def scalarWording? : Node → Option Wording
  | .scalar _ wording => some wording
  | .mapping _ _ entries _ => firstValueWording? entries
  | _ => none

def firstValueWording? : List (Node × Node) → Option Wording
  | [] => none
  | entry :: rest => valueWording? entry (firstValueWording? rest)

/-- What the entry says where its key is the value key, and the other elsewhere. -/
def valueWording? : Node × Node → Option Wording → Option Wording
  | (key, value), other => if key.tag == .value then scalarWording? value else other

end

/-- The value of a collection whose tag is one of a scalar. -/
def scalarOf (depth : Nat) (tag : Tag) (isMapping : Bool) (wording? : Option Wording) :
    Checked Value :=
  match wording? with
  | none => misfit depth .malformed
  | some wording =>
    if tag = .timestamp && isMapping then misfit depth .dateOfMapping
    else (Scalar.read tag wording).mapError (⟨depth, ·⟩)

/-- The kinds of collections a tag asks for. -/
inductive Shape where
  | sequence
  | pairs
  | set
  | mapping

def shape? : Tag → Option Shape
  | .sequence => some .sequence
  | .orderedMap => some .pairs
  | .pairs => some .pairs
  | .set => some .set
  | .mapping => some .mapping
  | _ => none

/-- A collection is no key, whatever it holds. -/
def checkKey (depth : Nat) (isLookedUp : Bool) (key : Checked Value) : Checked Value :=
  match key with
  | .ok value => if isLookedUp && !value.isKey then misfit depth .malformed else key
  | .error fault => if isLookedUp && depth < fault.depth then misfit depth .malformed else key

mutual

/-- The value of a node at the given distance from the root. A scalar is read at once, and so is a
collection with the tag of one; what is wrong with a collection shows one step further from the root. -/
def valueOf (depth : Nat) (node : Node) : Checked Value :=
  match node with
  | .enclosing label => .ok (.enclosing label)
  | .scalar tag wording =>
    if (shape? tag).isSome then misfit (depth + 1) .malformed
    else (Scalar.read tag wording).mapError (⟨depth, ·⟩)
  | .sequence tag label items =>
    match shape? tag with
    | none => scalarOf depth tag false none
    | some .sequence => (valuesOf (depth + 1) items).map (.list label)
    | some .pairs => (pairsOf (depth + 1) items).map (.list label)
    | some .set | some .mapping => misfit (depth + 1) .malformed
  | .mapping tag label entries merged =>
    match shape? tag with
    | none => scalarOf depth tag true (firstValueWording? entries)
    | some .sequence | some .pairs => misfit (depth + 1) .malformed
    | some .set =>
      (mergedEntriesOf (depth + 1) merged).map fun entries =>
        .set label ((Value.distinct entries).map Prod.fst)
    | some .mapping =>
      (mergedEntriesOf (depth + 1) merged).map fun entries =>
        .mapping label (Value.distinct entries)

def valuesOf (depth : Nat) (nodes : List Node) : Checked (List Value) :=
  match nodes with
  | [] => .ok []
  | node :: rest => both List.cons (valueOf depth node) (valuesOf depth rest)

/-- Each item is a mapping of one entry. -/
def pairsOf (depth : Nat) (nodes : List Node) : Checked (List Value) :=
  match nodes with
  | [] => .ok []
  | node :: rest => both List.cons (pairOf depth node) (pairsOf depth rest)

def pairOf (depth : Nat) (node : Node) : Checked Value :=
  match node with
  | .mapping _ _ [entry] _ => (entryOf depth false entry).map fun (key, value) => .pair key value
  | _ => misfit depth .malformed

def mergedEntriesOf (depth : Nat) (merged : Option (List (Node × Node))) :
    Checked (List (Value × Value)) :=
  match merged with
  | none => misfit depth .malformed
  | some entries => entriesOf depth entries

def entriesOf (depth : Nat) (entries : List (Node × Node)) : Checked (List (Value × Value)) :=
  match entries with
  | [] => .ok []
  | entry :: rest => both List.cons (entryOf depth true entry) (entriesOf depth rest)

/-- An entry; in a mapping its key has to be one that can be looked up. -/
def entryOf (depth : Nat) (isLookedUp : Bool) (entry : Node × Node) : Checked (Value × Value) :=
  match entry with
  | (key, value) =>
    both Prod.mk (checkKey depth isLookedUp (valueOf depth key)) (valueOf depth value)

end

/-- What a document holds, and the collections that labels stand for. -/
structure Document where
  root : Value
  labels : Value.Labels

/-- The document in a text; a text without a document holds nothing. -/
def Document.ofText (text : String) : Except Fault Document := do
  match ← Node.ofText text.toList with
  | (none, _) => return ⟨.null, []⟩
  | (some node, anchors) =>
    match valueOf 0 node with
    | .error misfit => throw misfit.fault
    | .ok root =>
      let labels := anchors.filterMap fun (label, node) =>
        match valueOf 0 node with
        | .ok value => some (label, value)
        | .error _ => none
      return ⟨root, labels⟩

end FfiBindings.Yaml
