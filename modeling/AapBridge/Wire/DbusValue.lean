import AapBridge.Wire.TextValues

/-! # Values of any D-Bus type

Types and values as the D-Bus specification has them, nested to any depth, with
their signatures and their marshalling, and the objects that the decoder is to
make of them. An array names the type of its elements, also when it is empty.
-/

namespace AapBridge.Wire

open AapBridge.Lib AapBridge.Android Cursor

inductive BasicType where
  | byte | boolean | int16 | uint16 | int32 | uint32 | int64 | uint64 | double | unixFd
  | string | objectPath | signature
deriving DecidableEq

namespace BasicType

def code : BasicType → UInt8
  | byte => 0x79
  | boolean => 0x62
  | int16 => 0x6E
  | uint16 => 0x71
  | int32 => 0x69
  | uint32 => 0x75
  | int64 => 0x78
  | uint64 => 0x74
  | double => 0x64
  | unixFd => 0x68
  | string => 0x73
  | objectPath => 0x6F
  | signature => 0x67

def alignment : BasicType → Nat
  | byte | signature => 1
  | int16 | uint16 => 2
  | boolean | int32 | uint32 | unixFd | string | objectPath => 4
  | int64 | uint64 | double => 8

end BasicType

inductive DbusType where
  | basic (t : BasicType)
  | variant
  | array (element : DbusType)
  | struct (fields : List DbusType)
  | dictEntry (key : BasicType) (value : DbusType)

namespace DbusType

mutual

/-- The characters of the type. -/
def signature : DbusType → List UInt8
  | basic t => [t.code]
  | variant => [0x76]
  | array element => 0x61 :: element.signature
  | struct fields => 0x28 :: (signatures fields ++ [0x29])
  | dictEntry key value => 0x7B :: key.code :: (value.signature ++ [0x7D])

def signatures : List DbusType → List UInt8
  | [] => []
  | field :: fields => field.signature ++ signatures fields

end

def alignment : DbusType → Nat
  | basic t => t.alignment
  | variant => 1
  | array _ => 4
  | struct _ | dictEntry _ _ => 8

end DbusType

/-- The type of a value without a text; `none` if it has one. -/
def BasicValue.wordType : BasicValue → Option BasicType
  | byte _ => some .byte
  | boolean _ => some .boolean
  | int16 _ => some .int16
  | uint16 _ => some .uint16
  | int32 _ => some .int32
  | uint32 _ => some .uint32
  | int64 _ => some .int64
  | uint64 _ => some .uint64
  | double _ => some .double
  | string _ | objectPath _ | signature _ => none

def TextKind.type : TextKind → BasicType
  | string => .string
  | objectPath => .objectPath
  | signature => .signature

/-- The object that keeps a text. -/
def TextKind.object (text : JavaString) : TextKind → DbusObject
  | string => .java (.string text)
  | objectPath => .objectPath text
  | signature => .signature text

/-- Values of the basic types, with texts of any kind. -/
inductive Basic where
  | word (v : BasicValue) (type : BasicType) (typed : v.wordType = some type)
  | unixFd (v : BitVec 32)
  | text (v : TextValue)

namespace Basic

def type : Basic → BasicType
  | word _ type _ => type
  | unixFd _ => .unixFd
  | text v => v.kind.type

def marshal (order : ByteOrder) (position : Nat) : Basic → List UInt8
  | word v _ _ => v.marshal order position
  | unixFd v => padding 4 position ++ order.put 4 v.toNat
  | text v => v.marshal order position

def object : Basic → DbusObject
  | word v _ _ => v.object
  | unixFd v => .java (.integer v)
  | text v => v.kind.object (utf16 v.text)

/-- The type has an extractor, and the text is one that it recovers. -/
def Survives : Basic → Prop
  | word _ _ _ => True
  | unixFd _ => False
  | text v => v.Survives

end Basic

inductive Value where
  | basic (v : Basic)
  | variant (v : Value)
  | array (element : DbusType) (elements : List Value)
  | struct (fields : List Value)
  | dictEntry (key : Basic) (value : Value)

/-- The size of the last of several values, with its padding. -/
def lastSize {α : Type} (marshal : Nat → α → List UInt8) : Nat → List α → Nat
  | _, [] => 0
  | position, [v] => (marshal position v).length
  | position, v :: vs => lastSize marshal (position + (marshal position v).length) vs

namespace Value

mutual

def type : Value → DbusType
  | basic v => .basic v.type
  | variant _ => .variant
  | array element _ => .array element
  | struct fields => .struct (types fields)
  | dictEntry key value => .dictEntry key.type value.type

def types : List Value → List DbusType
  | [] => []
  | v :: vs => v.type :: types vs

end

/-- Where what a variant holds begins: behind the length, the signature and its
terminator. -/
def embeddedAt (position : Nat) (v : Value) : Nat := position + v.type.signature.length + 2

/-- Where the padding of an array in front of its first element begins. -/
def elementsAt (position : Nat) : Nat := position + (padding 4 position).length + 4

mutual

def marshal (order : ByteOrder) : Nat → Value → List UInt8
  | position, basic v => v.marshal order position
  | position, variant v =>
      UInt8.ofNat v.type.signature.length :: (v.type.signature ++
        0 :: marshal order (embeddedAt position v) v)
  | position, array element elements =>
      padding 4 position ++ (order.put 4 (marshals order (elementsAt position +
          (padding element.alignment (elementsAt position)).length) elements).length ++
        (padding element.alignment (elementsAt position) ++ marshals order (elementsAt position +
          (padding element.alignment (elementsAt position)).length) elements))
  | position, struct fields =>
      padding 8 position ++ marshals order (position + (padding 8 position).length) fields
  | position, dictEntry key value =>
      padding 8 position ++ (key.marshal order (position + (padding 8 position).length) ++
        marshal order (position + (padding 8 position).length +
          (key.marshal order (position + (padding 8 position).length)).length) value)

/-- One value after another. -/
def marshals (order : ByteOrder) : Nat → List Value → List UInt8
  | _, [] => []
  | position, v :: vs =>
      marshal order position v ++ marshals order (position + (marshal order position v).length) vs

end

mutual

/-- What the decoder is to make of the value. `rest` is what stands behind the
type in the signature at hand; arrays and dict entries keep it in theirs. -/
def object (rest : JavaString) : Value → DbusObject
  | basic v => v.object
  | variant v => .variant (units v.type.signature) (object [] v)
  | array element elements => .array (units element.signature ++ rest) (objects rest elements)
  | struct fields => .struct (units (DbusType.struct (types fields)).signature) (objects [] fields)
  | dictEntry key value =>
      .dictEntry (units (DbusType.dictEntry key.type value.type).signature ++ rest) key.object
        (object (0x7D :: rest) value)

def objects (rest : JavaString) : List Value → List DbusObject
  | [] => []
  | v :: vs => object rest v :: objects rest vs

end

mutual

/-- Every element of an array has the type that the array names, and a struct has
fields. -/
def WellTyped : Value → Prop
  | basic _ => True
  | variant v => v.WellTyped
  | array element elements => HaveType element elements
  | struct fields => fields ≠ [] ∧ AllTyped fields
  | dictEntry _ value => value.WellTyped

def HaveType (element : DbusType) : List Value → Prop
  | [] => True
  | v :: vs => v.type = element ∧ v.WellTyped ∧ HaveType element vs

def AllTyped : List Value → Prop
  | [] => True
  | v :: vs => v.WellTyped ∧ AllTyped vs

end

end Value

end AapBridge.Wire
