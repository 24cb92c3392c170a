import AapBridge.Lib.Utf8
import AapBridge.Android.ByteBuffer

/-! # Method calls of the phone

The serializers of `DbusTypeParser` and `DbusMethods.methodCall`, on a
little-endian `sendBuffer`, with the bytes each of them puts.
-/

namespace AapBridge.Android

open AapBridge.Lib

/-- The objects for which a serializer is registered. Integers and the `double`
are their bits, a `String` its code units. -/
inductive JavaObject where
  | byte (v : UInt8)
  | boolean (v : Bool)
  | short (v : Short)
  | integer (v : BitVec 32)
  | long (v : BitVec 64)
  | double (v : BitVec 64)
  | string (v : List CodeUnit)
deriving DecidableEq

/-- The character of the D-Bus type. -/
def JavaObject.typeCode : JavaObject → UInt8
  | byte _ => 0x79
  | boolean _ => 0x62
  | short _ => 0x6E
  | integer _ => 0x69
  | long _ => 0x78
  | double _ => 0x64
  | string _ => 0x73

namespace ByteBuffer

def putInt (b : ByteBuffer) (value : BitVec 32) : Option ByteBuffer :=
  b.put (ByteOrder.littleEndian.put 4 value.toNat)

def putLong (b : ByteBuffer) (value : BitVec 64) : Option ByteBuffer :=
  b.put (ByteOrder.littleEndian.put 8 value.toNat)

end ByteBuffer

/-- `DbusTypeParser.serialise`: the type and the value, a string with its terminator. -/
def serialise (object : JavaObject) (bb : ByteBuffer) : Option ByteBuffer :=
  (bb.put [object.typeCode]).bind fun bb =>
    match object with
    | .byte v => bb.put [v]
    | .boolean v => bb.put [if v then 1 else 0]
    | .short v => bb.putShort v
    | .integer v => bb.putInt v
    | .long v => bb.putLong v
    | .double v => bb.putLong v
    | .string v => (bb.put (utf8 v)).bind fun bb => bb.put [0]

/-- `sendBuffer.put(name.getBytes(utf8)); sendBuffer.put((byte)0)`. -/
def putName (name : List CodeUnit) (sendBuffer : ByteBuffer) : Option ByteBuffer :=
  (sendBuffer.put (utf8 name)).bind fun sendBuffer => sendBuffer.put [0]

/-- The `put`s of `methodCall`. -/
def putCall (busname objectpath interfaceName functionName : List CodeUnit)
    (arguments : List JavaObject) (sendBuffer : ByteBuffer) : Option ByteBuffer :=
  (putName busname sendBuffer).bind fun sendBuffer =>
  (putName objectpath sendBuffer).bind fun sendBuffer =>
  (putName interfaceName sendBuffer).bind fun sendBuffer =>
  (putName functionName sendBuffer).bind fun sendBuffer =>
  (sendBuffer.putInt (BitVec.ofNat 32 arguments.length)).bind fun sendBuffer =>
  arguments.foldlM (fun bb argument => serialise argument bb) sendBuffer

/-- `methodCall` up to the writes: the flipped buffer, `none` if it overflows. -/
def methodCall (sendBuffer : ByteBuffer) (busname objectpath interfaceName functionName : List CodeUnit)
    (arguments : List JavaObject) : Option ByteBuffer :=
  (putCall busname objectpath interfaceName functionName arguments sendBuffer.clear).map
    ByteBuffer.flip

/-! ## The bytes of a call -/

def JavaObject.valueBytes : JavaObject → List UInt8
  | byte v => [v]
  | boolean v => [if v then 1 else 0]
  | short v => ByteOrder.littleEndian.put 2 v.toNat
  | integer v => ByteOrder.littleEndian.put 4 v.toNat
  | long v | double v => ByteOrder.littleEndian.put 8 v.toNat
  | string v => utf8 v ++ [0]

def JavaObject.bytes (object : JavaObject) : List UInt8 := object.typeCode :: object.valueBytes

def nameBytes (name : List CodeUnit) : List UInt8 := utf8 name ++ [0]

def callBytes (busname objectpath interfaceName functionName : List CodeUnit)
    (arguments : List JavaObject) : List UInt8 :=
  nameBytes busname ++ (nameBytes objectpath ++ (nameBytes interfaceName ++ (nameBytes functionName ++
    (ByteOrder.littleEndian.put 4 arguments.length ++ arguments.flatMap JavaObject.bytes))))

open ByteBuffer (Writes writes_put writes_foldlM)

theorem writes_serialise (object : JavaObject) : Writes (serialise object) object.bytes := by
  apply (writes_put [object.typeCode]).bind
  cases object with
  | string v => exact (writes_put (utf8 v)).bind (writes_put [0])
  | _ => exact writes_put _

theorem writes_putName (name : List CodeUnit) : Writes (putName name) (nameBytes name) :=
  (writes_put (utf8 name)).bind (writes_put [0])

theorem writes_putCall (busname objectpath interfaceName functionName : List CodeUnit)
    (arguments : List JavaObject) :
    Writes (putCall busname objectpath interfaceName functionName arguments)
      (callBytes busname objectpath interfaceName functionName arguments) := by
  have hcount : Writes (ByteBuffer.putInt · (BitVec.ofNat 32 arguments.length))
      (ByteOrder.littleEndian.put 4 arguments.length) := by
    rw [← ByteOrder.put_mod]
    exact writes_put _
  apply (writes_putName busname).bind
  apply (writes_putName objectpath).bind
  apply (writes_putName interfaceName).bind
  apply (writes_putName functionName).bind
  exact hcount.bind (writes_foldlM writes_serialise arguments)

/-- What `methodCall` leaves in the buffer when it does not throw. -/
theorem methodCall_contents {sendBuffer call : ByteBuffer}
    {busname objectpath interfaceName functionName : List CodeUnit} {arguments : List JavaObject}
    (h : methodCall sendBuffer busname objectpath interfaceName functionName arguments = some call) :
    call.contents = callBytes busname objectpath interfaceName functionName arguments ∧
      call.contents.length ≤ sendBuffer.capacity := by
  obtain ⟨filled, hfilled, rfl⟩ := Option.map_eq_some_iff.mp h
  have hwrites := writes_putCall busname objectpath interfaceName functionName arguments
  rw [ByteBuffer.flip_contents]
  by_cases hfits : (callBytes busname objectpath interfaceName functionName arguments).length ≤
      sendBuffer.capacity
  · obtain ⟨b, hb, hext⟩ := hwrites.fits sendBuffer.clear (by simpa [ByteBuffer.clear] using hfits)
    rw [hfilled] at hb
    cases hb
    have hwritten := hext.written
    rw [ByteBuffer.clear_written, List.nil_append] at hwritten
    rw [hwritten]
    exact ⟨rfl, hfits⟩
  · rw [hwrites.overflow sendBuffer.clear (by simpa [ByteBuffer.clear] using hfits)] at hfilled
    cases hfilled

end AapBridge.Android
