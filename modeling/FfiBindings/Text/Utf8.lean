/-!
Reading bytes as UTF-8. Bytes that are no UTF-8 have a first fault: the position of the first sequence
that is not well formed, how many of its bytes could still begin a well-formed sequence, and what is
wrong with the next one.
-/

set_option autoImplicit false
set_option relaxedAutoImplicit false

namespace FfiBindings.Text.Utf8

inductive FaultKind where
  | startByte
  | continuationByte
  | endOfData
  deriving DecidableEq, Repr

structure Fault where
  kind : FaultKind
  /-- Position of the first byte of the faulty sequence. -/
  position : Nat
  /-- The bytes from `position` on that belong to the fault, never empty. -/
  span : List UInt8
  deriving DecidableEq, Repr

def FaultKind.message : FaultKind → String
  | .startByte => "invalid start byte"
  | .continuationByte => "invalid continuation byte"
  | .endOfData => "unexpected end of data"

def hexByte (byte : UInt8) : String :=
  let digits := Nat.toDigits 16 byte.toNat
  "0x" ++ .ofList (if byte < 16 then '0' :: digits else digits)

def Fault.message (fault : Fault) : String :=
  let place := match fault.span with
    | [byte] => s!"byte {hexByte byte} in position {fault.position}"
    | _ => s!"bytes in position {fault.position}-{fault.position + fault.span.length - 1}"
  s!"'utf-8' codec can't decode {place}: {fault.kind.message}"

/-- For a byte that begins a sequence of several bytes, the ranges its continuation bytes must be in.
Only the first of them depends on the beginning: it excludes overlong forms, surrogates and code
points past U+10FFFF. -/
def continuations (byte : UInt8) : List (UInt8 × UInt8) :=
  if byte < 0xc2 then []
  else if byte < 0xe0 then [(0x80, 0xbf)]
  else if byte == 0xe0 then [(0xa0, 0xbf), (0x80, 0xbf)]
  else if byte == 0xed then [(0x80, 0x9f), (0x80, 0xbf)]
  else if byte < 0xf0 then [(0x80, 0xbf), (0x80, 0xbf)]
  else if byte == 0xf0 then [(0x90, 0xbf), (0x80, 0xbf), (0x80, 0xbf)]
  else if byte < 0xf4 then [(0x80, 0xbf), (0x80, 0xbf), (0x80, 0xbf)]
  else if byte == 0xf4 then [(0x80, 0x8f), (0x80, 0xbf), (0x80, 0xbf)]
  else []

/-- How far continuation bytes go on as they must, and what stops them early. -/
def follow : List (UInt8 × UInt8) → List UInt8 → Nat × Option FaultKind
  | [], _ => (0, none)
  | _ :: _, [] => (0, some .endOfData)
  | (low, high) :: ranges, byte :: rest =>
    if low ≤ byte && byte ≤ high then
      let (count, stop) := follow ranges rest
      (count + 1, stop)
    else (0, some .continuationByte)

/-- The first fault of the bytes, the first of which has the given position. -/
def firstFault? (position : Nat) : List UInt8 → Option Fault
  | [] => none
  | byte :: rest =>
    if byte < 0x80 then firstFault? (position + 1) rest
    else if (continuations byte).isEmpty then some ⟨.startByte, position, [byte]⟩
    else
      match follow (continuations byte) rest with
      | (count, some kind) => some ⟨kind, position, byte :: rest.take count⟩
      | (count, none) => firstFault? (position + 1 + count) (rest.drop count)
termination_by bytes => bytes.length

def decode (bytes : ByteArray) : Except Fault String :=
  match String.fromUTF8? bytes with
  | some text => .ok text
  | none => .error ((firstFault? 0 bytes.data.toList).getD ⟨.startByte, 0, []⟩)

theorem decode_toUTF8 (s : String) : decode s.toUTF8 = .ok s := by
  simp [decode, String.fromUTF8?, s.isValidUTF8, String.fromUTF8]

end FfiBindings.Text.Utf8
