import FfiBindings.Binding.FfiType
import FfiBindings.Text.Blank

/-!
Tables from type designators to interface types. Every designator has a type: what the table does not
list is as wide as a machine word. Aliases are layered over a table and give a new one; a tag that
names no type refuses the whole layer.
-/

set_option autoImplicit false
set_option relaxedAutoImplicit false

namespace FfiBindings

/-- The designators of a table in order of first appearance, each with its type. -/
structure TypeTable where
  entries : List (String × FfiType)
  nodup : (entries.map Prod.fst).Nodup

namespace TypeTable

/-- Tags that name no type, sorted and without repetition. -/
structure UnknownTags where
  tags : List String
  deriving DecidableEq, Repr

def UnknownTags.message (unknown : UnknownTags) : String :=
  "Unknown FFI type tags: " ++ ", ".intercalate unknown.tags

def empty : TypeTable := ⟨[], .nil⟩

/-- Puts an entry in the place of the one with its key, or last. -/
def put (key : String) (type : FfiType) : List (String × FfiType) → List (String × FfiType)
  | [] => [(key, type)]
  | (other, old) :: rest =>
    if other = key then (key, type) :: rest else (other, old) :: put key type rest

theorem mem_keys_put {key name : String} {type : FfiType} {entries : List (String × FfiType)} :
    name ∈ (put key type entries).map Prod.fst ↔ name = key ∨ name ∈ entries.map Prod.fst := by
  induction entries with
  | nil => simp [put]
  | cons entry rest ih =>
    obtain ⟨other, old⟩ := entry
    by_cases h : other = key
    · simp [put, h]
    · simp only [put, h, if_false, List.map_cons, List.mem_cons, ih]
      exact or_left_comm

theorem nodup_put {key : String} {type : FfiType} {entries : List (String × FfiType)}
    (h : (entries.map Prod.fst).Nodup) : ((put key type entries).map Prod.fst).Nodup := by
  induction entries with
  | nil => simp [put]
  | cons entry rest ih =>
    obtain ⟨other, old⟩ := entry
    obtain ⟨hfresh, hrest⟩ := List.nodup_cons.1 h
    by_cases hkey : other = key
    · subst hkey
      simpa [put] using ⟨by simpa using hfresh, hrest⟩
    · simp only [put, hkey, if_false, List.map_cons, List.nodup_cons]
      refine ⟨fun hmem => ?_, ih hrest⟩
      rcases mem_keys_put.1 hmem with heq | hold
      · exact hkey heq
      · exact hfresh hold

def insert (table : TypeTable) (key : String) (type : FfiType) : TypeTable :=
  ⟨put key type table.entries, nodup_put table.nodup⟩

/-- Every tag designates its own type. -/
def standard : TypeTable :=
  FfiType.all.foldl (fun table type => table.insert type.tag type) empty

/-- The type that stands for everything the table does not list. -/
def fallback : FfiType := .u64

def find? (table : TypeTable) (designator : String) : Option FfiType :=
  table.entries.lookup (Text.strip designator)

def resolve (table : TypeTable) (designator : String) : FfiType :=
  (table.find? designator).getD fallback

def contains (table : TypeTable) (designator : String) : Bool :=
  (table.find? designator).isSome

def size (table : TypeTable) : Nat :=
  table.entries.length

def textLe (a b : String) : Bool := !(b < a)

/-- The tags in order of code points, each once. -/
def sortedTags (tags : List String) : List String :=
  tags.eraseDups.mergeSort textLe

/-- The last entry of a key wins. -/
def insertAll (table : TypeTable) (entries : List (String × FfiType)) : TypeTable :=
  entries.foldl (fun table (key, type) => table.insert key type) table

/-- An alias with the type that its tag names. -/
def typed? (entry : String × String) : Option (String × FfiType) :=
  (FfiType.ofTag? entry.2).map fun type => (entry.1, type)

/-- Layers aliases over a table; the last alias of a key wins. -/
def layer (table : TypeTable) (aliases : List (String × String)) : Except UnknownTags TypeTable :=
  let unknown := (aliases.map Prod.snd).filter fun tag => (FfiType.ofTag? tag).isNone
  if unknown.isEmpty then .ok (table.insertAll (aliases.filterMap typed?))
  else .error ⟨sortedTags unknown⟩

end TypeTable

end FfiBindings
