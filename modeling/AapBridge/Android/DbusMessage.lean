import AapBridge.Android.DbusTypes

/-! # `DbusMessage`

The constructor, over the bytes of the buffer up to its limit, from position 0.
Where the first byte announces no order it throws an `Error`; all else that it
throws is an `Exception`, which the receiver thread catches.
-/

namespace AapBridge.Android

open AapBridge.Lib

@[ext] structure DbusMessage where
  objectPath : Option JavaString
  interfaceName : Option JavaString
  member : Option JavaString
  errorName : Option JavaString
  reply_serial : BitVec 32
  destinationBusname : Option JavaString
  senderBusname : Option JavaString
  signature : Option JavaString
  unix_fds : BitVec 32
  arguments : Option DbusStruct

namespace DbusMessage

/-- The fields before the constructor runs. -/
def initial : DbusMessage where
  objectPath := none
  interfaceName := none
  member := none
  errorName := none
  reply_serial := -1
  destinationBusname := none
  senderBusname := none
  signature := none
  unix_fds := -1
  arguments := none

/-- The `switch` of `parseHeader`; `none` is a failed cast. -/
def assign (message : DbusMessage) (headertype : UInt8) (embeddedThing : DbusObject) :
    Option DbusMessage :=
  match headertype.toNat, embeddedThing with
  | 1, .objectPath path => some { message with objectPath := some path }
  | 2, .java (.string name) => some { message with interfaceName := some name }
  | 3, .java (.string name) => some { message with member := some name }
  | 4, .java (.string name) => some { message with errorName := some name }
  | 5, .java (.integer serial) => some { message with reply_serial := serial }
  | 6, .java (.string name) => some { message with destinationBusname := some name }
  | 7, .java (.string name) => some { message with senderBusname := some name }
  | 8, .signature signature => some { message with signature := some signature }
  | 9, .java (.integer count) => some { message with unix_fds := count }
  | headertype, _ => if 1 ≤ headertype ∧ headertype ≤ 9 then none else some message

/-- One round of `parseHeader`. -/
def parseField (message : DbusMessage) : DbusObject → Option DbusMessage
  | .struct _ (.java (.byte headertype) :: .variant _ embeddedThing :: _) =>
      message.assign headertype embeddedThing
  | _ => none

def parseHeader (arr : List DbusObject) : Option DbusMessage := arr.foldlM parseField initial

/-- The order that the first byte announces. -/
def endian (endian_marshalled : UInt8) : Option ByteOrder :=
  if endian_marshalled = 0x6C then some .littleEndian
  else if endian_marshalled = 0x42 then some .bigEndian
  else none

/-- The string `a(yv)`. -/
def headerSignature : JavaString := [0x61, 0x28, 0x79, 0x76, 0x29]

/-- Type, flags, protocol version, size and serial, which are read and dropped. -/
def fixedPart (bb : ReadBuffer) : Cursor Unit := do
  let _msg_type ← bb.get
  let _flags ← bb.get
  let _protocol_version ← bb.get
  let _msg_size ← bb.getInt
  let _serial ← bb.getInt
  return ()

/-- `"("+signature+")"`. -/
def bracketed (signature : JavaString) : JavaString := 0x28 :: (signature ++ [0x29])

/-- The arguments, if the header names a signature. -/
def readArguments (bb : ReadBuffer) (fuel : Nat) (message : DbusMessage) : Cursor DbusMessage :=
  match message.signature with
  | none => pure message
  | some signature => do
      let struct ← dbusStruct (extract bb fuel) bb (bracketed signature)
      return { message with arguments := some struct }

/-- The constructor once the order is known. -/
def construct (bb : ReadBuffer) (fuel : Nat) : Cursor DbusMessage := do
  fixedPart bb
  let arr ← dbusArray (extract bb fuel) bb fuel headerSignature
  match parseHeader arr with
  | none => Cursor.throw
  | some message => readArguments bb fuel message

/-- How the constructor ends. -/
inductive Constructed where
  | returns (message : DbusMessage) (position : Nat)
  /-- An `Exception`. -/
  | throws (position : Nat)
  /-- An `Error`. -/
  | error (position : Nat)
  | runs

def Constructed.of : Outcome DbusMessage → Constructed
  | .returns message position => .returns message position
  | .throws position => .throws position
  | .runs => .runs

/-- `new DbusMessage(bb)`. -/
def new (bytes : List UInt8) (fuel : Nat) : Constructed :=
  match bytes.head? with
  | none => .throws 0
  | some endian_marshalled =>
      match endian endian_marshalled with
      | none => .error 1
      | some order => .of (construct ⟨bytes, order⟩ fuel 1)

/-- The constructor throws its `Error`. -/
def invalidEndian (bytes : List UInt8) : Bool :=
  match bytes.head? with
  | none => false
  | some endian_marshalled => (endian endian_marshalled).isNone

end DbusMessage

end AapBridge.Android
