import AapBridge.Lib.CMemory
import AapBridge.Lib.Words

/-! # The method service of the accessory

`MethodOnBytesReceived` up to the complete D-Bus call, with `bytesToDbus`. The
readable bytes are a list, and a read outside of it has no value. libdbus is a
parameter.
-/

namespace AapBridge.Accessory

open AapBridge.Lib AapBridge.Lib.CMemory

/-- What the compiler and the C library decide: whether `char` is signed, and
what `le64toh` makes of a `double` that is converted to an integer and back. -/
structure Target where
  charSigned : Bool
  le64tohDouble : BitVec 64 → BitVec 64

/-- The member of the union that was written, if any; `σ` stands for `char*`. -/
inductive DBusBasicValue (σ : Type*) where
  | unset
  | byt (v : UInt8)
  | bool_val (v : BitVec 32)
  | i16 (v : BitVec 16)
  | u16 (v : BitVec 16)
  | i32 (v : BitVec 32)
  | u32 (v : BitVec 32)
  | i64 (v : BitVec 64)
  | u64 (v : BitVec 64)
  | dbl (v : BitVec 64)
  | str (v : σ)
deriving DecidableEq

/-- `none` is a null message, and `FALSE`. -/
structure Libdbus (Message : Type*) where
  newMethodCall : List UInt8 → List UInt8 → List UInt8 → List UInt8 → Option Message
  appendBasic : Message → UInt8 → DBusBasicValue (List UInt8) → Option Message

/-- A `char` as an `int32_t`. -/
def Target.charValue (target : Target) (c : UInt8) : BitVec 32 :=
  if target.charSigned then c.toBitVec.signExtend 32 else c.toBitVec.setWidth 32

/-- `*((intN_t*)bytes)` on a little-endian host, where `leNtoh` does nothing. -/
def loadWord (mem : List UInt8) (bytes width : Nat) : Option Nat :=
  (load mem bytes width).map ByteOrder.littleEndian.get

/-- The value read and its size; a type it does not know leaves the value as it
is, and `-1` is returned as an `unsigned int`. -/
def bytesToDbus (target : Target) (mem : List UInt8) (type : UInt8) (bytes : Nat) :
    Option (DBusBasicValue Nat × Nat) :=
  match Char.ofNat type.toNat with
  | 'y' => (loadWord mem bytes 1).map fun v => (.byt (UInt8.ofNat v), 1)
  | 'b' => (loadWord mem bytes 1).map fun v => (.bool_val (target.charValue (UInt8.ofNat v)), 1)
  | 'n' => (loadWord mem bytes 2).map fun v => (.i16 (BitVec.ofNat 16 v), 2)
  | 'q' => (loadWord mem bytes 2).map fun v => (.u16 (BitVec.ofNat 16 v), 2)
  | 'i' => (loadWord mem bytes 4).map fun v => (.i32 (BitVec.ofNat 32 v), 4)
  | 'u' => (loadWord mem bytes 4).map fun v => (.u32 (BitVec.ofNat 32 v), 4)
  | 'x' => (loadWord mem bytes 8).map fun v => (.i64 (BitVec.ofNat 64 v), 8)
  | 't' => (loadWord mem bytes 8).map fun v => (.u64 (BitVec.ofNat 64 v), 8)
  | 'd' => (loadWord mem bytes 8).map fun v => (.dbl (target.le64tohDouble (BitVec.ofNat 64 v)), 8)
  | 's' => (strlen mem bytes).map fun n => (.str bytes, n + 1)
  | _ => some (.unset, 4294967295)

/-- What `dbus_message_iter_append_basic` reads through `&dbusVal`. A string-like
type makes it follow the pointer, which nothing has set for `'o'` and `'g'`. -/
def dereference (mem : List UInt8) (type : UInt8) :
    DBusBasicValue Nat → Option (DBusBasicValue (List UInt8))
  | .unset => if Char.ofNat type.toNat ∈ ['o', 'g'] then none else some .unset
  | .byt v => some (.byt v)
  | .bool_val v => some (.bool_val v)
  | .i16 v => some (.i16 v)
  | .u16 v => some (.u16 v)
  | .i32 v => some (.i32 v)
  | .u32 v => some (.u32 v)
  | .i64 v => some (.i64 v)
  | .u64 v => some (.u64 v)
  | .dbl v => some (.dbl v)
  | .str bytes => (cstring mem bytes).map .str

inductive MethodOutcome (Message : Type*) where
  /-- libdbus did not make a message. -/
  | refused
  /-- `exit(1)`. -/
  | exited
  /-- The message is complete, with `arg_pointer` behind its last argument. -/
  | built (message : Message) (arg_pointer : Nat)

section

variable {Message : Type*} (target : Target) (lib : Libdbus Message) (mem : List UInt8)

/-- `while(numberOfArguments--)`, for the rounds that are left. -/
def appendArguments : Nat → Message → Nat → Option (MethodOutcome Message)
  | 0, message, arg_pointer => some (.built message arg_pointer)
  | numberOfArguments + 1, message, arg_pointer =>
      (load mem arg_pointer 1).bind fun varType =>
      (bytesToDbus target mem (varType.headD 0) (arg_pointer + 1)).bind fun dbusVal =>
      (dereference mem (varType.headD 0) dbusVal.1).bind fun value =>
      match lib.appendBasic message (varType.headD 0) value with
      | none => some .exited
      | some message => appendArguments numberOfArguments message (arg_pointer + 1 + dbusVal.2)

/-- The pointer behind the string at `s`. -/
def afterString (s : Nat) : Option Nat := (strlen mem s).map fun n => s + n + 1

/-- `le32toh(*arg_pointer)`: one `char` is read, and widened. A negative count is
counted down through zero. -/
def countedRounds (arg_pointer : Nat) : Option Nat :=
  (load mem arg_pointer 1).map fun c => (target.charValue (c.headD 0)).toNat

def MethodOnBytesReceived : Option (MethodOutcome Message) :=
  (afterString mem 0).bind fun objectpath =>
  (afterString mem objectpath).bind fun interfacename =>
  (afterString mem interfacename).bind fun function_name =>
  (afterString mem function_name).bind fun arg_pointer =>
  (cstring mem 0).bind fun busnameString =>
  (cstring mem objectpath).bind fun objectpathString =>
  (cstring mem interfacename).bind fun interfacenameString =>
  (cstring mem function_name).bind fun function_nameString =>
  match lib.newMethodCall busnameString objectpathString interfacenameString function_nameString with
  | none => some .refused
  | some message =>
      (countedRounds target mem arg_pointer).bind fun numberOfArguments =>
      appendArguments target lib mem numberOfArguments message (arg_pointer + 4)

end

/-! ## Reading what is there -/

theorem loadWord_append (pre word rest : List UInt8) :
    loadWord (pre ++ (word ++ rest)) pre.length word.length =
      some (ByteOrder.littleEndian.get word) := by
  rw [loadWord, load_append, Option.map_some]

theorem loadWord_put {w n : Nat} (hw : w ≤ 8 * n) (pre rest : List UInt8) (v : BitVec w) :
    ∃ x, loadWord (pre ++ (ByteOrder.littleEndian.put n v.toNat ++ rest)) pre.length n = some x ∧
      BitVec.ofNat w x = v := by
  refine ⟨_, ?_, ByteOrder.word_put .littleEndian hw v⟩
  have hload := loadWord_append pre (ByteOrder.littleEndian.put n v.toNat) rest
  rwa [ByteOrder.put_length] at hload

theorem afterString_append (pre s rest : List UInt8) (hs : 0 ∉ s) :
    afterString (pre ++ (s ++ 0 :: rest)) pre.length = some (pre ++ (s ++ [0])).length := by
  rw [afterString, strlen_append pre s rest hs]
  simp [Nat.add_assoc]

/-- A `char` from 128 on is negative where it is signed. -/
theorem charValue_toNat (target : Target) (c : UInt8) :
    (target.charValue c).toNat =
      if target.charSigned ∧ 128 ≤ c.toNat then 4294967040 + c.toNat else c.toNat := by
  have hlt := c.toNat_lt
  have hmsb : c.toBitVec.msb = decide (128 ≤ c.toNat) := BitVec.msb_eq_decide _
  have hwiden : (c.toBitVec.setWidth 32).toNat = c.toNat := by
    rw [BitVec.toNat_setWidth]
    exact Nat.mod_eq_of_lt (by show c.toNat < 2 ^ 32; omega)
  unfold Target.charValue
  cases target.charSigned with
  | false => exact hwiden
  | true =>
      rw [if_pos rfl, BitVec.toNat_signExtend, hwiden, hmsb]
      by_cases hbig : 128 ≤ c.toNat
      · simp [hbig, Nat.add_comm]
      · simp [hbig]

end AapBridge.Accessory
