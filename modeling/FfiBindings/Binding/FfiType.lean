/-!
The types of the foreign function interface and their tags. `ofTag?_tag` and `tag_of_ofTag?` say that a
tag and its type determine each other.
-/

set_option autoImplicit false
set_option relaxedAutoImplicit false

namespace FfiBindings

inductive FfiType where
  | u8 | u16 | u32 | u64
  | i8 | i16 | i32 | i64
  | f32 | f64
  | bool | void | char
  | ptr | cstring
  deriving DecidableEq, Repr

namespace FfiType

def tag : FfiType → String
  | .u8 => "u8"
  | .u16 => "u16"
  | .u32 => "u32"
  | .u64 => "u64"
  | .i8 => "i8"
  | .i16 => "i16"
  | .i32 => "i32"
  | .i64 => "i64"
  | .f32 => "f32"
  | .f64 => "f64"
  | .bool => "bool"
  | .void => "void"
  | .char => "char"
  | .ptr => "ptr"
  | .cstring => "cstring"

def all : List FfiType :=
  [.u8, .u16, .u32, .u64, .i8, .i16, .i32, .i64, .f32, .f64, .bool, .void, .char, .ptr, .cstring]

theorem mem_all (type : FfiType) : type ∈ all := by
  cases type <;> decide

def ofTag? (text : String) : Option FfiType :=
  all.find? (·.tag == text)

theorem tag_injective {a b : FfiType} (h : a.tag = b.tag) : a = b := by
  cases a <;> cases b <;> first | rfl | exact absurd h (by decide)

theorem tag_of_ofTag? {text : String} {type : FfiType} (h : ofTag? text = some type) :
    type.tag = text := by
  simpa using List.find?_some h

theorem ofTag?_tag (type : FfiType) : ofTag? type.tag = some type := by
  cases type <;> decide

end FfiType

end FfiBindings
