/-!
Directory trees. A tree is what a directory holds, in any order; a location is the list of names from
the top of the tree to an entry. `get?_put_same` and `get?_put_other` say what putting an entry into a
directory changes: the entry of that name, and nothing beside it.
-/

set_option autoImplicit false
set_option relaxedAutoImplicit false

namespace FfiBindings

/-- The entries of a directory, each with its name; a file has its bytes and its permission bits. -/
inductive Tree where
  | empty
  | file (name : String) (content : ByteArray) (mode : Nat) (rest : Tree)
  | directory (name : String) (inside rest : Tree)

/-- The names from the top of a tree down to an entry. -/
abbrev Location := List String

inductive Entry where
  | file (content : ByteArray) (mode : Nat)
  | directory (inside : Tree)

namespace Entry

def isDirectory : Entry → Bool
  | .directory _ => true
  | .file _ _ => false

end Entry

namespace Tree

def cons (name : String) (entry : Entry) (rest : Tree) : Tree :=
  match entry with
  | .file content mode => .file name content mode rest
  | .directory inside => .directory name inside rest

def get? (name : String) : Tree → Option Entry
  | .empty => none
  | .file other content mode rest =>
    if other = name then some (.file content mode) else rest.get? name
  | .directory other inside rest =>
    if other = name then some (.directory inside) else rest.get? name

/-- Puts an entry in the place of the one with its name, or last. -/
def put (name : String) (entry : Entry) : Tree → Tree
  | .empty => cons name entry .empty
  | .file other content mode rest =>
    if other = name then cons name entry rest else .file other content mode (rest.put name entry)
  | .directory other inside rest =>
    if other = name then cons name entry rest else .directory other inside (rest.put name entry)

def erase (name : String) : Tree → Tree
  | .empty => .empty
  | .file other content mode rest =>
    if other = name then rest.erase name else .file other content mode (rest.erase name)
  | .directory other inside rest =>
    if other = name then rest.erase name else .directory other inside (rest.erase name)

theorem get?_cons (name other : String) (entry : Entry) (rest : Tree) :
    (cons other entry rest).get? name = if other = name then some entry else rest.get? name := by
  cases entry <;> simp [cons, get?]

theorem get?_put_same (name : String) (entry : Entry) (tree : Tree) :
    (tree.put name entry).get? name = some entry := by
  induction tree with
  | empty => simp [put, get?_cons]
  | file other content mode rest ih =>
    by_cases h : other = name <;> simp [put, h, get?_cons, get?, ih]
  | directory other inside rest _ ih =>
    by_cases h : other = name <;> simp [put, h, get?_cons, get?, ih]

theorem get?_put_other {name other : String} (entry : Entry) (tree : Tree) (h : name ≠ other) :
    (tree.put name entry).get? other = tree.get? other := by
  induction tree with
  | empty => simp [put, get?_cons, get?, h]
  | file third content mode rest ih =>
    by_cases hthird : third = name
    · subst hthird
      simp [put, get?_cons, get?, h]
    · simp [put, hthird, get?, ih]
  | directory third inside rest _ ih =>
    by_cases hthird : third = name
    · subst hthird
      simp [put, get?_cons, get?, h]
    · simp [put, hthird, get?, ih]

/-- The entry at a location; the tree itself is at the empty one. -/
def find? (tree : Tree) : Location → Option Entry
  | [] => some (.directory tree)
  | name :: below =>
    match tree.get? name with
    | some (.directory inside) => inside.find? below
    | some (.file content mode) => if below.isEmpty then some (.file content mode) else none
    | none => none

/-- Puts an entry at a location; where the location lies in no directory nothing changes. -/
def putAt (tree : Tree) (entry : Entry) : Location → Tree
  | [] => tree
  | [name] => tree.put name entry
  | name :: below =>
    match tree.get? name with
    | some (.directory inside) => tree.put name (.directory (inside.putAt entry below))
    | _ => tree

def eraseAt (tree : Tree) : Location → Tree
  | [] => tree
  | [name] => tree.erase name
  | name :: below =>
    match tree.get? name with
    | some (.directory inside) => tree.put name (.directory (inside.eraseAt below))
    | _ => tree

/-- The names in a directory. -/
def names : Tree → List String
  | .empty => []
  | .file name _ _ rest => name :: rest.names
  | .directory name _ rest => name :: rest.names

def isDirectoryAt (tree : Tree) (location : Location) : Bool :=
  (tree.find? location).any Entry.isDirectory

/-- All entries below a location, in the order of a walk that visits a directory before what it
holds. -/
def entriesFrom (location : Location) : Tree → List (Location × Entry)
  | .empty => []
  | .file name content mode rest =>
    (location ++ [name], .file content mode) :: rest.entriesFrom location
  | .directory name inside rest =>
    (location ++ [name], .directory inside) ::
      inside.entriesFrom (location ++ [name]) ++ rest.entriesFrom location

def entries (tree : Tree) : List (Location × Entry) :=
  tree.entriesFrom []

end Tree

end FfiBindings
