import ServerLib.Foundation.Occurrence
import ServerLib.Network.Unit

/-!
# Unit builders

The protocols as `unit_builder_i` sees them: a builder consumes characters from the
front of a buffer until its unit is ready.
-/
namespace ServerLib.Network

/-- `unit_builder_i`. `consume` is `operator<<` on a builder and the buffer it takes its
characters from. -/
class UnitBuilderI (σ : Type) where
  clone : σ → Option σ := fun _ => none
  create : σ → Bytes → Except LogicError NetUnit
  consume : σ → Bytes → Outcome (σ × Bytes)
  unitReady : σ → Bool
  getUnit : σ → NetUnit
  reset : σ → σ

/-! ### `integer_builder` -/

structure IntegerBuilder where
  unit : NetUnit := .ofBool
  deriving Repr

namespace IntegerBuilder

def create (_ : IntegerBuilder) (_ : Bytes) : Except LogicError NetUnit :=
  .error ⟨"false", "Can't be created from string in this context"⟩

def unitReady (b : IntegerBuilder) : Bool := b.unit.ok

def consume [WideShift] (b : IntegerBuilder) (networkData : Bytes) :
    Outcome (IntegerBuilder × Bytes) :=
  if b.unitReady then .returned (b, networkData)
  else match unpack networkData with
    | some (value, got) => .returned (⟨b.unit.setInteger value⟩, networkData.drop got)
    | none => .returned (b, networkData)

def reset (b : IntegerBuilder) : IntegerBuilder := ⟨b.unit.setBool false⟩

instance [WideShift] : UnitBuilderI IntegerBuilder where
  create := create
  consume := consume
  unitReady := unitReady
  getUnit := unit
  reset := reset

end IntegerBuilder

/-! ### `string_builder` -/

structure StringBuilder where
  size : Nat := 0
  buffer : Bytes := []
  ready : Bool := false
  unit : NetUnit := .ofBool
  deriving Repr

namespace StringBuilder

def create (_ : StringBuilder) (data : Bytes) : Except LogicError NetUnit := .ok (.ofString data)

/-- The characters still missing move from the front of `networkData` to the buffer. -/
def fill (b : StringBuilder) (networkData : Bytes) : StringBuilder × Bytes :=
  if b.buffer.length < b.size then
    let left := b.size - b.buffer.length
    let add := min networkData.length left
    ({ b with buffer := b.buffer ++ networkData.take add }, networkData.drop add)
  else (b, networkData)

/-- A complete buffer becomes the unit, an empty one the null unit. -/
def finish (b : StringBuilder) : StringBuilder :=
  if b.buffer.length = b.size then
    { b with
      ready := true
      unit := if b.buffer = [] then b.unit.setBool else b.unit.setString b.buffer
      buffer := [] }
  else b

def consume (b : StringBuilder) (networkData : Bytes) : Outcome (StringBuilder × Bytes) :=
  if b.ready then .returned (b, networkData)
  else
    let (b, networkData) := b.fill networkData
    -- the assertion stands behind the appending, and fails if `set_size` has shrunk the size
    if b.buffer.length ≤ b.size then .returned (b.finish, networkData)
    else .thrown ⟨"_buffer.size() <= _size", ""⟩ (b, networkData)

def reset (b : StringBuilder) : StringBuilder :=
  { b with unit := b.unit.setBool false, ready := false, buffer := [] }

def setSize (b : StringBuilder) (size : Nat) : StringBuilder := { b with size := size }

instance : UnitBuilderI StringBuilder where
  create := create
  consume := consume
  unitReady := ready
  getUnit := unit
  reset := reset

end StringBuilder

/-! ### `msg_builder` -/

structure MsgBuilder where
  msgMaxSize : Nat := 1024
  ready : Bool := false
  sizeBuilder : IntegerBuilder := {}
  msgBuilder : StringBuilder := {}
  deriving Repr

namespace MsgBuilder

def create (b : MsgBuilder) (msg : Bytes) : Except LogicError NetUnit :=
  if msg.length ≤ b.msgMaxSize then
    if msg.length ≤ 2 ^ 32 - 1 then
      (b.msgBuilder.create msg).map fun body =>
        ((NetUnit.ofBool true).push (.ofString (pack (UInt32.ofNat msg.length)))).push body
    else .error ⟨"sz <= static_cast<size_type>(std::numeric_limits<size_type>::max())", ""⟩
  else .error ⟨"msg.size() <= _msg_max_size", ""⟩

/-- The size header: what it announces is compared with the maximum once it is complete. -/
def consumeSize [WideShift] (b : MsgBuilder) (networkData : Bytes) : Outcome (MsgBuilder × Bytes) :=
  if b.sizeBuilder.unitReady then .returned (b, networkData)
  else ((b.sizeBuilder.consume networkData).map fun (sizeBuilder, networkData) =>
      ({ b with sizeBuilder := sizeBuilder }, networkData)).bind fun (b, networkData) =>
    if b.sizeBuilder.unitReady then
      match b.sizeBuilder.unit.asInteger with
      | .error error => .thrown error (b, networkData)
      | .ok sz =>
        -- when this fails the header has been consumed, and the size builder stays ready
        if sz.toNat ≤ b.msgMaxSize then
          .returned ({ b with msgBuilder := b.msgBuilder.setSize sz.toNat }, networkData)
        else .thrown ⟨"sz <= _msg_max_size", ""⟩ (b, networkData)
    else .returned (b, networkData)

def consumeBody (b : MsgBuilder) (networkData : Bytes) : Outcome (MsgBuilder × Bytes) :=
  if b.sizeBuilder.unitReady && !b.msgBuilder.ready then
    (b.msgBuilder.consume networkData).map fun (msgBuilder, networkData) =>
      ({ b with msgBuilder := msgBuilder }, networkData)
  else .returned (b, networkData)

def consume [WideShift] (b : MsgBuilder) (networkData : Bytes) : Outcome (MsgBuilder × Bytes) :=
  if b.ready then .returned (b, networkData)
  else ((b.consumeSize networkData).bind fun (b, networkData) => b.consumeBody networkData).bind
    fun (b, networkData) =>
      .returned (if b.msgBuilder.ready then { b with ready := true } else b, networkData)

def reset (b : MsgBuilder) : MsgBuilder :=
  { b with ready := false, sizeBuilder := b.sizeBuilder.reset, msgBuilder := b.msgBuilder.reset }

instance [WideShift] : UnitBuilderI MsgBuilder where
  clone b := some { msgMaxSize := b.msgMaxSize }
  create := create
  consume := consume
  unitReady := ready
  getUnit b := b.msgBuilder.unit
  reset := reset

end MsgBuilder

/-! ### `raw_builder` -/

structure RawBuilder where
  buffer : Bytes := []
  deriving Repr

namespace RawBuilder

def create (_ : RawBuilder) (buff : Bytes) : Except LogicError NetUnit := .ok (.ofString buff)

def unitReady (b : RawBuilder) : Bool := !b.buffer.isEmpty

def consume (b : RawBuilder) (networkData : Bytes) : Outcome (RawBuilder × Bytes) :=
  if b.unitReady || networkData.isEmpty then .returned (b, networkData)
  else .returned (⟨networkData⟩, [])

def getUnit (b : RawBuilder) : NetUnit := if b.unitReady then .ofString b.buffer else .ofBool

def reset (_ : RawBuilder) : RawBuilder := ⟨[]⟩

instance : UnitBuilderI RawBuilder where
  clone _ := some {}
  create := create
  consume := consume
  unitReady := unitReady
  getUnit := getUnit
  reset := reset

end RawBuilder

/-! ### `dstream_builder` -/

structure DstreamBuilder where
  delimeter : Bytes := [13, 10, 13, 10]
  bufferUnit : NetUnit := .ofBool
  deriving Repr

namespace DstreamBuilder

def create (b : DstreamBuilder) (buff : Bytes) : Except LogicError NetUnit :=
  .ok (.ofString (buff ++ b.delimeter))

def unitReady (b : DstreamBuilder) : Bool := b.bufferUnit.ok

def consume (b : DstreamBuilder) (networkData : Bytes) : Outcome (DstreamBuilder × Bytes) :=
  if b.unitReady then .returned (b, networkData)
  else match Occurrence.find b.delimeter networkData with
    | none => .returned (b, networkData)
    | some endUnit =>
      .returned ({ b with bufferUnit := b.bufferUnit.setString (networkData.take endUnit) },
        networkData.drop (endUnit + b.delimeter.length))

def reset (b : DstreamBuilder) : DstreamBuilder :=
  { b with bufferUnit := b.bufferUnit.setBool false }

instance : UnitBuilderI DstreamBuilder where
  clone b := some { delimeter := b.delimeter }
  create := create
  consume := consume
  unitReady := unitReady
  getUnit := bufferUnit
  reset := reset

end DstreamBuilder

end ServerLib.Network
