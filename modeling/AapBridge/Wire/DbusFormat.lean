import AapBridge.Android.DbusMessage

/-! # The D-Bus wire format

Values and messages as the D-Bus specification marshals them, for values of the
basic types and variants of those, in both byte orders. Every value is padded to
its alignment, counted from the first byte of the message.
-/

namespace AapBridge.Wire

open AapBridge.Lib

structure Ascii where
  chars : List UInt8
  ascii : ∀ c ∈ chars, c < 128

/-- A signature whose length fits a signed byte. -/
structure SignatureText extends Ascii where
  short : chars.length ≤ 127

inductive BasicValue where
  | byte (v : UInt8)
  | boolean (v : Bool)
  | int16 (v : BitVec 16)
  | uint16 (v : BitVec 16)
  | int32 (v : BitVec 32)
  | uint32 (v : BitVec 32)
  | int64 (v : BitVec 64)
  | uint64 (v : BitVec 64)
  | double (bits : BitVec 64)
  | string (v : Ascii)
  | objectPath (v : Ascii)
  | signature (v : SignatureText)

def padding (alignment position : Nat) : List UInt8 :=
  List.replicate ((alignment - position % alignment) % alignment) 0

namespace BasicValue

/-- The character of the type. -/
def code : BasicValue → UInt8
  | byte _ => 0x79
  | boolean _ => 0x62
  | int16 _ => 0x6E
  | uint16 _ => 0x71
  | int32 _ => 0x69
  | uint32 _ => 0x75
  | int64 _ => 0x78
  | uint64 _ => 0x74
  | double _ => 0x64
  | string _ => 0x73
  | objectPath _ => 0x6F
  | signature _ => 0x67

def alignment : BasicValue → Nat
  | byte _ | signature _ => 1
  | int16 _ | uint16 _ => 2
  | boolean _ | int32 _ | uint32 _ | string _ | objectPath _ => 4
  | int64 _ | uint64 _ | double _ => 8

/-- A text with its length in front, in `n` bytes, and a null byte behind. -/
def text (order : ByteOrder) (n : Nat) (v : Ascii) : List UInt8 :=
  order.put n v.chars.length ++ (v.chars ++ [0])

def data (order : ByteOrder) : BasicValue → List UInt8
  | byte v => [v]
  | boolean v => order.put 4 (if v then 1 else 0)
  | int16 v | uint16 v => order.put 2 v.toNat
  | int32 v | uint32 v => order.put 4 v.toNat
  | int64 v | uint64 v | double v => order.put 8 v.toNat
  | string v | objectPath v => text order 4 v
  | signature v => text order 1 v.toAscii

def marshal (order : ByteOrder) (position : Nat) (v : BasicValue) : List UInt8 :=
  padding v.alignment position ++ v.data order

end BasicValue

inductive FlatValue where
  | basic (v : BasicValue)
  | variant (v : BasicValue)

namespace FlatValue

def code : FlatValue → UInt8
  | basic v => v.code
  | variant _ => 0x76

/-- A variant has the signature of its value in front. -/
def marshal (order : ByteOrder) (position : Nat) : FlatValue → List UInt8
  | basic v => v.marshal order position
  | variant v => [1, v.code, 0] ++ v.marshal order (position + 3)

end FlatValue

/-- One value after another, each at the position it comes to. -/
def marshalAll {α : Type} (marshal : Nat → α → List UInt8) : Nat → List α → List UInt8
  | _, [] => []
  | position, v :: vs =>
      marshal position v ++ marshalAll marshal (position + (marshal position v).length) vs

inductive HeaderField where
  | path (v : Ascii)
  | interface (v : Ascii)
  | member (v : Ascii)
  | errorName (v : Ascii)
  | replySerial (v : BitVec 32)
  | destination (v : Ascii)
  | sender (v : Ascii)
  | signature (v : SignatureText)
  | unixFds (v : BitVec 32)

namespace HeaderField

def code : HeaderField → UInt8
  | path _ => 1
  | interface _ => 2
  | member _ => 3
  | errorName _ => 4
  | replySerial _ => 5
  | destination _ => 6
  | sender _ => 7
  | signature _ => 8
  | unixFds _ => 9

def value : HeaderField → BasicValue
  | path v => .objectPath v
  | interface v | member v | errorName v | destination v | sender v => .string v
  | replySerial v | unixFds v => .uint32 v
  | signature v => .signature v

/-- A struct of the code and a variant. -/
def marshal (order : ByteOrder) (position : Nat) (field : HeaderField) : List UInt8 :=
  padding 8 position ++ (field.code ::
    (FlatValue.variant field.value).marshal order (position + (padding 8 position).length + 1))

def text : HeaderField → Option Ascii
  | path v | interface v | member v | errorName v | destination v | sender v => some v
  | signature v => some v.toAscii
  | _ => none

def number : HeaderField → Option (BitVec 32)
  | replySerial v | unixFds v => some v
  | _ => none

end HeaderField

/-- A message whose body is flat. A body needs a signature, and the signature
names the types of the body. -/
structure FlatMessage where
  type : UInt8
  flags : UInt8
  version : UInt8
  serial : BitVec 32
  fields : List HeaderField
  body : List FlatValue
  distinct : (fields.map HeaderField.code).Nodup
  signed : ∀ v, HeaderField.signature v ∈ fields → v.chars = body.map FlatValue.code
  unsigned : (∀ v, HeaderField.signature v ∉ fields) → body = []

namespace FlatMessage

def orderMark : ByteOrder → UInt8
  | .littleEndian => 0x6C
  | .bigEndian => 0x42

def field? (m : FlatMessage) (code : UInt8) : Option HeaderField :=
  m.fields.find? fun field => field.code = code

variable (m : FlatMessage) (order : ByteOrder)

/-- The elements of the header array; they begin at the sixteenth byte. -/
def fieldBytes : List UInt8 := marshalAll (HeaderField.marshal order) 16 m.fields

/-- The header array, padded to where the body begins. -/
def headerBytes : List UInt8 :=
  order.put 4 (m.fieldBytes order).length ++ m.fieldBytes order ++
    padding 8 (16 + (m.fieldBytes order).length)

def bodyBytes : List UInt8 :=
  marshalAll (FlatValue.marshal order) (12 + (m.headerBytes order).length) m.body

def marshal : List UInt8 :=
  [orderMark order, m.type, m.flags, m.version] ++ order.put 4 (m.bodyBytes order).length ++
    order.put 4 m.serial.toNat ++ m.headerBytes order ++ m.bodyBytes order

end FlatMessage

end AapBridge.Wire
