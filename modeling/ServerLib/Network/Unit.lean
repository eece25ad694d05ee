import ServerLib.Common.Asserts
import ServerLib.Foundation.Varint

/-!
# Logical units and the size header

`unit` is a logical brick of the TCP byte stream: a status, a value and nested units
(`unit.h`, `unit.cpp`). Integers travel as base-128 numerals; `pack` and `unpack` are
the two sides of that coding (`integer_builder.cpp`).

A C++ shift of a 32-bit operand by 32 bits or more is undefined. `WideShift` stands for
what the platform computes there, as some fixed function of the operands; every result
holds for all of them.
-/
namespace ServerLib.Network

/-- A `std::string` of received or sent characters. -/
abbrev Bytes := List UInt8

class WideShift where
  shl : UInt32 → UInt8 → UInt32

/-- A platform that takes the shift count modulo 32. -/
@[reducible] def moduloShift : WideShift := ⟨fun x n => x <<< n.toUInt32⟩

variable [WideShift]

/-- `x << n` on a `uint32_t`. -/
def shiftLeft (x : UInt32) (n : UInt8) : UInt32 :=
  if n < 32 then x <<< n.toUInt32 else WideShift.shl x n

/-! ### `integer_builder::pack`, `impl::unpack` -/

/-- The loop `do { … } while (val)`; a `uint64_t` is empty after ten turns. -/
def packLoop : Nat → UInt64 → Bytes
  | 0, _ => []
  | turns + 1, val =>
    let b := val.toUInt8 &&& 0x7f
    let val := val >>> 7
    let b := b ||| (if val > 0 then 0x80 else 0)
    b :: if val = 0 then [] else packLoop turns val

def pack (value : UInt32) : Bytes := packLoop 10 value.toUInt64

/-- The loop of `impl::unpack` on the characters from position `got` on. The counter `by_`
is a `uint8_t`, the shifted operand a `uint32_t`, the accumulator a `uint64_t`. -/
def unpackLoop : Bytes → UInt64 → UInt8 → Nat → Option (UInt32 × Nat)
  | [], _, _, _ => none
  | b :: data, val, by_, got =>
    -- the shift is made in 32 bits, before the result is widened for `|=`
    let val := val ||| (shiftLeft (b &&& 0x7f).toUInt32 by_).toUInt64
    let by_ := by_ + 7
    if b &&& 0x80 != 0 then unpackLoop data val by_ (got + 1)
    else some (val.toUInt32, got + 1)

/-- The decoded integer and the number of characters it took; `none` is `return false`. -/
def unpack (data : Bytes) : Option (UInt32 × Nat) := unpackLoop data 0 0 0

omit [WideShift] in
/-- The values of the shift counter `by_` at the shifts that `unpackLoop` performs. -/
def unpackShifts : Bytes → UInt8 → List UInt8
  | [], _ => []
  | b :: data, by_ => by_ :: if b &&& 0x80 != 0 then unpackShifts data (by_ + 7) else []

/-! ### `unit` -/

/-- The `boost::variant` of a unit. -/
inductive UnitData where
  | string (value : Bytes)
  | integer (value : UInt32)
  | bool (value : Bool)
  deriving DecidableEq, Repr

structure NetUnit where
  success : Bool
  data : UnitData
  nested : List NetUnit
  deriving Repr

namespace NetUnit

omit [WideShift]

def ofBool (success : Bool := false) : NetUnit := ⟨success, .bool success, []⟩

def ofString (value : Bytes) (success : Bool := true) : NetUnit := ⟨success, .string value, []⟩

def ofInteger (value : UInt32) (success : Bool := true) : NetUnit := ⟨success, .integer value, []⟩

def isError (u : NetUnit) : Bool := !u.success

def ok (u : NetUnit) : Bool := !u.isError

def asInteger (u : NetUnit) : Except LogicError UInt32 :=
  match u.data with
  | .integer value => .ok value
  | _ => .error ⟨"is_integer()", "Logic unit is not a integer"⟩

/-- The overloads of `set` leave the nested content alone. -/
def setBool (u : NetUnit) (success : Bool := true) : NetUnit :=
  { u with success := success, data := .bool success }

def setString (u : NetUnit) (value : Bytes) (success : Bool := true) : NetUnit :=
  { u with success := success, data := .string value }

def setInteger (u : NetUnit) (value : UInt32) (success : Bool := true) : NetUnit :=
  { u with success := success, data := .integer value }

/-- `operator<<`: one more unit under the root. -/
def push (u child : NetUnit) : NetUnit := { u with nested := u.nested ++ [child] }

@[simp] theorem asInteger_setInteger (u : NetUnit) (value : UInt32) :
    (u.setInteger value).asInteger = .ok value := rfl

end NetUnit

omit [WideShift]

/-- `lunit_data_to_network_string` -/
def UnitData.toNetworkString : UnitData → Bytes
  | .string value => value
  | .integer value => pack value
  | .bool _ => []

mutual

def NetUnit.toNetworkString : NetUnit → Bytes
  | ⟨_, data, nested⟩ => data.toNetworkString ++ nestedNetworkString nested

/-- The nested units one behind the other. -/
def nestedNetworkString : List NetUnit → Bytes
  | [] => []
  | u :: units => u.toNetworkString ++ nestedNetworkString units

end

@[simp] theorem toNetworkString_ofString (value : Bytes) (success : Bool) :
    (NetUnit.ofString value success).toNetworkString = value := by
  simp [NetUnit.ofString, NetUnit.toNetworkString, UnitData.toNetworkString, nestedNetworkString]

end ServerLib.Network
