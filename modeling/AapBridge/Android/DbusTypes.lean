import AapBridge.Lib.Cursor
import AapBridge.Android.DbusMethods

/-! # The extractors of `DbusTypeParser`

What `extract` and the constructors of the container types read from a buffer.
The buffer is its bytes up to the limit and an order; the position is the
cursor. The fuel bounds how deep `extract` nests and how often the loop of a
`DbusArray` goes round.
-/

namespace AapBridge.Android

open AapBridge.Lib

/-- A Java `String`. -/
abbrev JavaString := List CodeUnit

/-- What `extract` returns: a boxed value, or an object of a container type. -/
inductive DbusObject where
  | java (object : JavaObject)
  | objectPath (string : JavaString)
  | signature (signatureString : JavaString)
  | variant (embeddedSignature : JavaString) (embeddedThing : DbusObject)
  | struct (signature : JavaString) (tuple : List DbusObject)
  | array (signature : JavaString) (elements : List DbusObject)
  | dictEntry (signature : JavaString) (key value : DbusObject)

/-- The registered extractors. -/
inductive Extractor where
  | array | boolean | byte | dictEntry | double | int16 | int32 | int64
  | objectPath | signature | string | struct | uint16 | uint32 | uint64 | variant
deriving DecidableEq

/-- `extractors.get(c)`. -/
def extractors (c : CodeUnit) : Option Extractor :=
  match Char.ofNat c.toNat with
  | 'a' => some .array
  | 'b' => some .boolean
  | 'y' => some .byte
  | '{' => some .dictEntry
  | 'd' => some .double
  | 'n' => some .int16
  | 'i' => some .int32
  | 'x' => some .int64
  | 'o' => some .objectPath
  | 'g' => some .signature
  | 's' => some .string
  | '(' => some .struct
  | 'q' => some .uint16
  | 'u' => some .uint32
  | 't' => some .uint64
  | 'v' => some .variant
  | _ => none

structure ReadBuffer where
  bytes : List UInt8
  order : ByteOrder

/-- The position that `align` goes to. -/
def aligned (alignment position : Nat) : Nat :=
  position + (alignment - position % alignment) % alignment

namespace ReadBuffer

variable (bb : ReadBuffer)

def align (alignment : Nat) : Cursor Unit := Cursor.seek bb.bytes (aligned alignment)

def get : Cursor UInt8 := Cursor.byte bb.bytes

/-- A word of `n` bytes, as `getShort`, `getInt` and `getLong` read it. -/
def getWord (n : Nat) : Cursor (BitVec (8 * n)) := do
  let bs ← Cursor.take bb.bytes n
  return BitVec.ofNat (8 * n) (bb.order.get bs)

def getShort : Cursor Short := bb.getWord 2

def getInt : Cursor (BitVec 32) := bb.getWord 4

def getLong : Cursor (BitVec 64) := bb.getWord 8

/-- `(char) bb.get()`; a byte is signed. -/
def getChar : Cursor CodeUnit := do
  let b ← bb.get
  return b.toBitVec.signExtend 16

/-- The loop that appends `length` characters. -/
def getChars : Nat → Cursor JavaString
  | 0 => pure []
  | length + 1 => do
      let c ← bb.getChar
      let rest ← getChars length
      return c :: rest

/-- `DbusString.parse`: the length, the characters and a null byte. -/
def dbusString : Cursor JavaString := do
  bb.align 4
  let length ← bb.getInt
  let string ← bb.getChars length.toInt.toNat
  let _ ← bb.get
  return string

/-- `DbusSignature`; its length is a signed byte. -/
def dbusSignature : Cursor JavaString := do
  let length ← bb.get
  let string ← bb.getChars length.toBitVec.toInt.toNat
  let _ ← bb.get
  return string

end ReadBuffer

structure DbusStruct where
  signature : JavaString
  tuple : List DbusObject

section

variable (extract : JavaString → Cursor DbusObject)

/-- The loop of `DbusStruct`, at the character `i`, with what is left of the
signature from there. Whatever throws ends it. -/
def structLoop : JavaString → Int → Nat → List DbusObject → Cursor (List DbusObject × Nat)
  | [], _, i, list => pure (list, i)
  | c :: rest, depth, i, list =>
      let next (depth : Int) (list : List DbusObject) : Cursor (List DbusObject × Nat) :=
        if 0 < depth then structLoop rest depth (i + 1) list else pure (list, i + 1)
      if c = 0x28 then next (depth + 1) list
      else if c = 0x29 then next (depth - 1) list
      else do
        match ← (extract (c :: rest)).attempt with
        | none => return (list, i)
        | some object => next depth (list ++ [object])

/-- The loop of `DbusArray`, up to the position `stop`. -/
def arrayLoop (extractElement : Cursor DbusObject) (stop : Int) :
    Nat → List DbusObject → Cursor (List DbusObject)
  | 0, _ => Cursor.diverge
  | rounds + 1, list => fun position =>
      if (position : Int) < stop then
        (do
          let element ← extractElement
          arrayLoop extractElement stop rounds (list ++ [element])) position
      else .returns list position

variable (bb : ReadBuffer)

def dbusStruct (signature : JavaString) : Cursor DbusStruct := do
  bb.align 8
  let (list, i) ← structLoop extract signature 0 0 []
  return ⟨signature.take i, list⟩

/-- The `end` of a `DbusArray`: `bb.position() + length`, an `int`. -/
def arrayEnd : Cursor Int := do
  bb.align 4
  let length ← bb.getInt
  fun position => .returns (BitVec.ofNat 32 position + length).toInt position

/-- The elements of a `DbusArray`. -/
def dbusArray (rounds : Nat) (signature : JavaString) : Cursor (List DbusObject) := do
  let stop ← arrayEnd bb
  arrayLoop (extract (signature.drop 1)) stop rounds []

def dbusDictEntry (signature : JavaString) : Cursor DbusObject := do
  bb.align 8
  let key ← extract (signature.drop 1)
  let value ← extract (signature.drop 2)
  return .dictEntry signature key value

def dbusVariant : Cursor DbusObject := do
  let embeddedSignature ← bb.dbusSignature
  let embeddedThing ← extract embeddedSignature
  return .variant embeddedSignature embeddedThing

/-- `extractor.parse(signature, bb)`. -/
def Extractor.parse (rounds : Nat) (signature : JavaString) : Extractor → Cursor DbusObject
  | .array => do return .array (signature.drop 1) (← dbusArray extract bb rounds signature)
  | .boolean => do bb.align 4; return .java (.boolean ((← bb.getInt) != 0))
  | .byte => do return .java (.byte (← bb.get))
  | .dictEntry => dbusDictEntry extract bb signature
  | .double => do bb.align 8; return .java (.double (← bb.getLong))
  | .int16 => do bb.align 2; return .java (.short (← bb.getShort))
  | .int32 => do bb.align 4; return .java (.integer (← bb.getInt))
  | .int64 => do bb.align 8; return .java (.long (← bb.getLong))
  | .objectPath => do return .objectPath (← bb.dbusString)
  | .signature => do return .signature (← bb.dbusSignature)
  | .string => do return .java (.string (← bb.dbusString))
  | .struct => do
      let struct ← dbusStruct extract bb signature
      return .struct struct.signature struct.tuple
  | .uint16 => do bb.align 2; return .java (.short (← bb.getShort))
  | .uint32 => do bb.align 4; return .java (.integer (← bb.getInt))
  | .uint64 => do bb.align 8; return .java (.long (← bb.getLong))
  | .variant => dbusVariant extract bb

end

/-- `DbusTypeParser.extract`. -/
def extract (bb : ReadBuffer) : Nat → JavaString → Cursor DbusObject
  | 0, _ => Cursor.diverge
  | _ + 1, [] => Cursor.throw
  | fuel + 1, c :: rest =>
      match extractors c with
      | none => Cursor.throw
      | some extractor => extractor.parse (extract bb fuel) bb fuel (c :: rest)

end AapBridge.Android
