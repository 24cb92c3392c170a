import AapBridge.Android.Decoding
import AapBridge.Wire.DbusFormat

/-! # Decoding flat messages

`DbusMessage` reads what `DbusFormat` marshals, value by value: each extractor
from the padding of its value on, the loops of arrays and structs by induction on
the values, with the position as what the next padding depends on.
-/

namespace AapBridge.Wire

open AapBridge.Lib AapBridge.Android Cursor

/-! ## Values as Java objects -/

def units (v : List UInt8) : JavaString := v.map fun c => BitVec.ofNat 16 c.toNat

def BasicValue.object : BasicValue → DbusObject
  | .byte v => .java (.byte v)
  | .boolean v => .java (.boolean v)
  | .int16 v | .uint16 v => .java (.short v)
  | .int32 v | .uint32 v => .java (.integer v)
  | .int64 v | .uint64 v => .java (.long v)
  | .double v => .java (.double v)
  | .string v => .java (.string (units v.chars))
  | .objectPath v => .objectPath (units v.chars)
  | .signature v => .signature (units v.chars)

def FlatValue.object : FlatValue → DbusObject
  | .basic v => v.object
  | .variant v => .variant (units [v.code]) v.object

def codeUnit (code : UInt8) : CodeUnit := BitVec.ofNat 16 code.toNat

def signatureUnits (values : List FlatValue) : JavaString := values.map fun v => codeUnit v.code

/-- The object that the message stands for: each header field at its place, and
the body as the content of a struct if there is a signature. -/
def FlatMessage.decoded (m : FlatMessage) : DbusMessage where
  objectPath := (m.field? 1).bind fun field => field.text.map fun v => units v.chars
  interfaceName := (m.field? 2).bind fun field => field.text.map fun v => units v.chars
  member := (m.field? 3).bind fun field => field.text.map fun v => units v.chars
  errorName := (m.field? 4).bind fun field => field.text.map fun v => units v.chars
  reply_serial := ((m.field? 5).bind HeaderField.number).getD (-1)
  destinationBusname := (m.field? 6).bind fun field => field.text.map fun v => units v.chars
  senderBusname := (m.field? 7).bind fun field => field.text.map fun v => units v.chars
  signature := (m.field? 8).bind fun field => field.text.map fun v => units v.chars
  unix_fds := ((m.field? 9).bind HeaderField.number).getD (-1)
  arguments := (m.field? 8).map fun _ =>
    ⟨DbusMessage.bracketed (signatureUnits m.body), m.body.map FlatValue.object⟩

section

variable {bytes : List UInt8} {order : ByteOrder}

theorem reads_align (alignment position : Nat) :
    Reads bytes ((⟨bytes, order⟩ : ReadBuffer).align alignment) position
      (padding alignment position) () :=
  reads_seek (by simp [aligned, padding])

theorem reads_getWord (n position : Nat) (v : BitVec (8 * n)) :
    Reads bytes ((⟨bytes, order⟩ : ReadBuffer).getWord n) position (order.put n v.toNat) v := by
  have htake : Reads bytes (Cursor.take bytes (order.put n v.toNat).length) position
      (order.put n v.toNat) (order.put n v.toNat) := reads_take position _
  rw [ByteOrder.put_length] at htake
  have hword := htake.map fun bs => BitVec.ofNat (8 * n) (order.get bs)
  rwa [order.word_put (Nat.le_refl _)] at hword

theorem put_ofNat (n : Nat) : order.put 4 (BitVec.ofNat 32 n).toNat = order.put 4 n := by
  rw [BitVec.toNat_ofNat]
  exact order.put_mod 4 n

/-- Bytes as the characters they become: a byte is signed. -/
def signed (v : List UInt8) : JavaString := v.map fun c => c.toBitVec.signExtend 16

theorem signed_ascii {v : List UInt8} (hv : ∀ c ∈ v, c < 128) : signed v = units v := by
  apply List.map_congr_left
  intro c hc
  have hlt : c.toNat < 128 := hv c hc
  have hmsb : c.toBitVec.msb = false := by
    rw [BitVec.msb_eq_false_iff_two_mul_lt, UInt8.toNat_toBitVec]
    omega
  rw [BitVec.signExtend_eq_setWidth_of_msb_false hmsb]
  apply BitVec.eq_of_toNat_eq
  simp

theorem reads_getChars (v : List UInt8) (position : Nat) :
    Reads bytes ((⟨bytes, order⟩ : ReadBuffer).getChars v.length) position v (signed v) := by
  induction v generalizing position with
  | nil => exact reads_pure position []
  | cons c v ih =>
      have hchar : Reads bytes ((⟨bytes, order⟩ : ReadBuffer).getChar) position [c]
          (c.toBitVec.signExtend 16) :=
        (reads_byte position c).map fun b => b.toBitVec.signExtend 16
      exact hchar.bind ((ih _).map _)

/-- A buffer is never so long that the length of a text in it is no `int`. -/
theorem reads_characters (hbytes : bytes.length < 2 ^ 31) (v : List UInt8) (position : Nat) :
    Reads bytes ((⟨bytes, order⟩ : ReadBuffer).dbusString) position
      (padding 4 position ++ (order.put 4 v.length ++ (v ++ [0]))) (signed v) := by
  intro hat hpos
  have hv : v.length < 2 ^ 31 := by
    have hle := hat.le hpos
    simp only [List.length_append] at hle
    omega
  revert hat hpos
  apply (reads_align 4 position).bind
  have hlength : ((BitVec.ofNat 32 v.length).toInt.toNat) = v.length := by
    rw [BitVec.toInt_ofNat', Int.bmod_eq_of_le (by omega) (by omega)]
    omega
  rw [← put_ofNat]
  apply (reads_getWord 4 _ (BitVec.ofNat 32 v.length)).bind
  rw [hlength]
  exact (reads_getChars v _).bind ((reads_byte _ 0).map fun _ => signed v)

theorem reads_dbusString (hbytes : bytes.length < 2 ^ 31) (v : Ascii) (position : Nat) :
    Reads bytes ((⟨bytes, order⟩ : ReadBuffer).dbusString) position
      (padding 4 position ++ BasicValue.text order 4 v) (units v.chars) := by
  rw [← signed_ascii v.ascii]
  exact reads_characters hbytes v.chars position

/-- The length byte as it is read. -/
theorem put_one (n : Nat) : order.put 1 n = [UInt8.ofNat n] := by
  cases order <;> simp [ByteOrder.put, ByteOrder.arrange, bytesOf]

theorem reads_dbusSignature (v : SignatureText) (position : Nat) :
    Reads bytes ((⟨bytes, order⟩ : ReadBuffer).dbusSignature) position
      (BasicValue.text order 1 v.toAscii) (units v.chars) := by
  rw [BasicValue.text, put_one]
  apply (reads_byte position _).bind
  have hlength : (UInt8.ofNat v.chars.length).toBitVec.toInt.toNat = v.chars.length := by
    have hshort := v.short
    show (BitVec.ofNat 8 v.chars.length).toInt.toNat = v.chars.length
    rw [BitVec.toInt_ofNat', Int.bmod_eq_of_le (by omega) (by omega)]
    omega
  rw [hlength, ← signed_ascii v.ascii]
  exact (reads_getChars v.chars _).bind ((reads_byte _ 0).map fun _ => signed v.chars)

theorem reads_word (n alignment position : Nat) (v : BitVec (8 * n))
    (g : BitVec (8 * n) → DbusObject) :
    Reads bytes (do
        (⟨bytes, order⟩ : ReadBuffer).align alignment
        return g (← (⟨bytes, order⟩ : ReadBuffer).getWord n)) position
      (padding alignment position ++ order.put n v.toNat) (g v) :=
  (reads_align alignment position).bind ((reads_getWord n _ v).map g)

theorem padding_one (position : Nat) : padding 1 position = [] := by
  simp [padding, Nat.mod_one]

theorem reads_basic (hbytes : bytes.length < 2 ^ 31) (v : BasicValue) (fuel position : Nat)
    (rest : JavaString) :
    Reads bytes (extract ⟨bytes, order⟩ (fuel + 1) (codeUnit v.code :: rest)) position
      (v.marshal order position) v.object := by
  cases v with
  | byte v =>
      show Reads _ _ _ (padding 1 position ++ [v]) _
      rw [padding_one]
      exact (reads_byte position v).map _
  | boolean v =>
      have hput : order.put 4 (if v then 1 else 0) =
          order.put 4 (if v then 1 else 0 : BitVec 32).toNat := by
        cases v <;> rfl
      have hvalue : BasicValue.object (.boolean v) =
          .java (.boolean ((if v then 1 else 0 : BitVec 32) != 0)) := by
        cases v <;> rfl
      rw [hvalue]
      show Reads _ _ _ (padding 4 position ++ order.put 4 _) _
      rw [hput]
      exact reads_word 4 4 position _ fun word => .java (.boolean (word != 0))
  | int16 v => exact reads_word 2 2 position v fun word => .java (.short word)
  | uint16 v => exact reads_word 2 2 position v fun word => .java (.short word)
  | int32 v => exact reads_word 4 4 position v fun word => .java (.integer word)
  | uint32 v => exact reads_word 4 4 position v fun word => .java (.integer word)
  | int64 v => exact reads_word 8 8 position v fun word => .java (.long word)
  | uint64 v => exact reads_word 8 8 position v fun word => .java (.long word)
  | double v => exact reads_word 8 8 position v fun word => .java (.double word)
  | string v => exact (reads_dbusString hbytes v position).map _
  | objectPath v => exact (reads_dbusString hbytes v position).map _
  | signature v =>
      show Reads _ _ _ (padding 1 position ++ BasicValue.text order 1 v.toAscii) _
      rw [padding_one]
      exact (reads_dbusSignature v position).map _

theorem BasicValue.code_lt (v : BasicValue) : v.code < 128 := by
  cases v <;> simp only [BasicValue.code] <;> decide

/-- The signature of a variant. -/
def BasicValue.codeText (v : BasicValue) : SignatureText :=
  ⟨⟨[v.code], by simpa using v.code_lt⟩, by simp⟩

theorem reads_flat (hbytes : bytes.length < 2 ^ 31) (v : FlatValue) (fuel position : Nat)
    (rest : JavaString) :
    Reads bytes (extract ⟨bytes, order⟩ (fuel + 2) (codeUnit v.code :: rest)) position
      (v.marshal order position) v.object := by
  cases v with
  | basic v => exact reads_basic hbytes v (fuel + 1) position rest
  | variant v =>
      have htext : BasicValue.text order 1 v.codeText.toAscii = [1, v.code, 0] := by
        cases order <;>
          simp [BasicValue.text, BasicValue.codeText, ByteOrder.put, ByteOrder.arrange, bytesOf]
      have hsignature : Reads bytes ((⟨bytes, order⟩ : ReadBuffer).dbusSignature) position
          [1, v.code, 0] (units [v.code]) := by
        rw [← htext]
        exact reads_dbusSignature v.codeText position
      exact hsignature.bind ((reads_basic hbytes v fuel _ []).map _)

/-! ## Structs and arrays -/

theorem codeUnit_ne (v : FlatValue) : codeUnit v.code ≠ 0x28 ∧ codeUnit v.code ≠ 0x29 := by
  cases v with
  | basic v => cases v <;> simp [FlatValue.code, BasicValue.code, codeUnit]
  | variant v => simp [FlatValue.code, codeUnit]

variable (order) in
theorem reads_structLoop (hbytes : bytes.length < 2 ^ 31) (fuel : Nat) (values : List FlatValue)
    (i : Nat) (list : List DbusObject) (position : Nat) :
    Reads bytes (structLoop (extract ⟨bytes, order⟩ (fuel + 2)) (signatureUnits values ++ [0x29]) 1 i
        list) position
      (marshalAll (FlatValue.marshal order) position values)
      (list ++ values.map FlatValue.object, i + values.length + 1) := by
  induction values generalizing i list position with
  | nil =>
      rw [List.map_nil, List.append_nil]
      exact reads_pure position _
  | cons v values ih =>
      obtain ⟨hopen, hclose⟩ := codeUnit_ne v
      have hfield : Reads bytes (extract ⟨bytes, order⟩ (fuel + 2)
          (codeUnit v.code :: (signatureUnits values ++ [0x29]))) position
          (v.marshal order position) v.object := reads_flat hbytes v fuel position _
      intro hat hpos
      have hrest := ih (i + 1) (list ++ [v.object]) _ hat.right (hat.left.le hpos)
      show structLoop _ (codeUnit v.code :: (signatureUnits values ++ [0x29])) 1 i list position = _
      rw [structLoop_field hopen hclose, bind_apply, Cursor.attempt, hfield hat.left hpos]
      show structNext _ _ _ _ _ _ = _
      rw [structNext, if_pos (by decide), hrest]
      simp [marshalAll, Nat.add_assoc, Nat.add_comm 1]

variable (order) in
theorem reads_dbusStruct (hbytes : bytes.length < 2 ^ 31) (fuel : Nat) (values : List FlatValue)
    (position : Nat) :
    Reads bytes (dbusStruct (extract ⟨bytes, order⟩ (fuel + 2)) ⟨bytes, order⟩
        (DbusMessage.bracketed (signatureUnits values))) position
      (padding 8 position ++
        marshalAll (FlatValue.marshal order) (position + (padding 8 position).length) values)
      ⟨DbusMessage.bracketed (signatureUnits values), values.map FlatValue.object⟩ := by
  apply (reads_align 8 position).bind
  have hloop := reads_structLoop order hbytes fuel values 1 [] (position + (padding 8 position).length)
  have htake : (DbusMessage.bracketed (signatureUnits values)).take (1 + values.length + 1) =
      DbusMessage.bracketed (signatureUnits values) :=
    List.take_of_length_le (by simp [DbusMessage.bracketed, signatureUnits])
  have hmap := hloop.map fun result =>
    (⟨(DbusMessage.bracketed (signatureUnits values)).take result.2, result.1⟩ : DbusStruct)
  rw [htake] at hmap
  exact hmap

/-- The loop of an array over elements that are there, up to where they end. -/
theorem reads_arrayLoop {α : Type} {element : Cursor DbusObject} {marshal : Nat → α → List UInt8}
    {object : α → DbusObject} (helement : ∀ position a, Reads bytes element position
      (marshal position a) (object a)) (hmarshal : ∀ position a, marshal position a ≠ [])
    (elements : List α) {rounds : Nat} (hrounds : elements.length < rounds) {position : Nat}
    {stop : Int} (hstop : stop = (position + (marshalAll marshal position elements).length : Nat))
    (list : List DbusObject) :
    Reads bytes (arrayLoop element stop rounds list) position (marshalAll marshal position elements)
      (list ++ elements.map object) := by
  induction elements generalizing rounds position list with
  | nil =>
      obtain ⟨rounds, rfl⟩ : ∃ n, rounds = n + 1 := ⟨rounds - 1, by omega⟩
      intro _ _
      rw [arrayLoop_end (by rw [hstop]; simp [marshalAll]), List.map_nil, List.append_nil]
      rfl
  | cons a elements ih =>
      obtain ⟨rounds, rfl⟩ : ∃ n, rounds = n + 1 := ⟨rounds - 1, by omega⟩
      have hlength := List.length_pos_iff.mpr (hmarshal position a)
      simp only [marshalAll, List.length_append] at hstop
      intro hat hpos
      rw [arrayLoop_round (by rw [hstop]; omega), helement position a hat.left hpos,
        Outcome.bind_returns, ih (by simpa using hrounds) (by rw [hstop]; omega)
          (list ++ [object a]) hat.right (hat.left.le hpos)]
      simp [marshalAll, Nat.add_assoc]

/-! ## The header -/

def HeaderField.object (field : HeaderField) : DbusObject :=
  .struct [0x28, 0x79, 0x76, 0x29]
    [.java (.byte field.code), (FlatValue.variant field.value).object]

theorem reads_field (hbytes : bytes.length < 2 ^ 31) (fuel position : Nat) (field : HeaderField) :
    Reads bytes (extract ⟨bytes, order⟩ (fuel + 3) [0x28, 0x79, 0x76, 0x29]) position
      (field.marshal order position) field.object := by
  have hstruct : Reads bytes (dbusStruct (extract ⟨bytes, order⟩ (fuel + 2)) ⟨bytes, order⟩
      [0x28, 0x79, 0x76, 0x29]) position (padding 8 position ++
        marshalAll (FlatValue.marshal order) (position + (padding 8 position).length)
          [.basic (.byte field.code), .variant field.value])
      ⟨[0x28, 0x79, 0x76, 0x29], [.java (.byte field.code), (FlatValue.variant field.value).object]⟩ :=
    reads_dbusStruct order hbytes fuel [.basic (.byte field.code), .variant field.value] position
  have hbytes : marshalAll (FlatValue.marshal order) (position + (padding 8 position).length)
      [.basic (.byte field.code), .variant field.value] = field.code ::
        (FlatValue.variant field.value).marshal order (position + (padding 8 position).length + 1) := by
    simp [marshalAll, FlatValue.marshal, BasicValue.marshal, BasicValue.alignment, BasicValue.data,
      padding_one]
  rw [hbytes] at hstruct
  exact hstruct.map fun struct => DbusObject.struct struct.signature struct.tuple

theorem reads_arrayEnd (position n : Nat)
    (h : position + (padding 4 position).length + 4 + n < 2 ^ 31) :
    Reads bytes (arrayEnd ⟨bytes, order⟩) position (padding 4 position ++ order.put 4 n)
      ((position + (padding 4 position).length + 4 + n : Nat) : Int) := by
  apply (reads_align 4 position).bind
  rw [← put_ofNat]
  intro hat hpos
  have hread := reads_getWord 4 _ (BitVec.ofNat 32 n) hat hpos
  show Outcome.bind (((⟨bytes, order⟩ : ReadBuffer).getWord 4) _) _ = _
  rw [hread, Outcome.bind_returns, ByteOrder.put_length, ← BitVec.ofNat_add, BitVec.toInt_ofNat',
    Int.bmod_eq_of_le (by omega) (by omega)]

theorem reads_dbusArray (hbytes : bytes.length < 2 ^ 31) (fields : List HeaderField) {fuel : Nat}
    (hfuel : fields.length < fuel + 3)
    (hstop : 16 + (marshalAll (HeaderField.marshal order) 16 fields).length < 2 ^ 31) :
    Reads bytes (dbusArray (extract ⟨bytes, order⟩ (fuel + 3)) ⟨bytes, order⟩ (fuel + 3)
        DbusMessage.headerSignature) 12
      (order.put 4 (marshalAll (HeaderField.marshal order) 16 fields).length ++
        marshalAll (HeaderField.marshal order) 16 fields) (fields.map HeaderField.object) := by
  apply (reads_arrayEnd 12 (marshalAll (HeaderField.marshal order) 16 fields).length hstop).bind
  have hlen : 12 + (padding 4 12 ++ order.put 4
      (marshalAll (HeaderField.marshal order) 16 fields).length).length = 16 := by
    simp [padding]
  rw [hlen]
  apply reads_arrayLoop (reads_field hbytes fuel)
  · intro position field
    simp [HeaderField.marshal]
  · exact hfuel
  · rfl

theorem reads_fixedPart (type flags version : UInt8) (n : Nat) (serial : BitVec 32) :
    Reads bytes (DbusMessage.fixedPart ⟨bytes, order⟩) 1
      ([type] ++ ([flags] ++ ([version] ++ (order.put 4 n ++ order.put 4 serial.toNat)))) () := by
  rw [← put_ofNat n]
  apply (reads_byte _ type).bind
  apply (reads_byte _ flags).bind
  apply (reads_byte _ version).bind
  apply (reads_getWord 4 _ (BitVec.ofNat 32 n)).bind
  exact (reads_getWord 4 _ serial).map fun _ => ()

/-- What a header field does to the message. -/
def HeaderField.applyTo (message : DbusMessage) : HeaderField → DbusMessage
  | .path v => { message with objectPath := some (units v.chars) }
  | .interface v => { message with interfaceName := some (units v.chars) }
  | .member v => { message with member := some (units v.chars) }
  | .errorName v => { message with errorName := some (units v.chars) }
  | .replySerial v => { message with reply_serial := v }
  | .destination v => { message with destinationBusname := some (units v.chars) }
  | .sender v => { message with senderBusname := some (units v.chars) }
  | .signature v => { message with signature := some (units v.chars) }
  | .unixFds v => { message with unix_fds := v }

theorem parseField_object (message : DbusMessage) (field : HeaderField) :
    message.parseField field.object = some (field.applyTo message) := by
  cases field <;> rfl

theorem parseHeader_objects (fields : List HeaderField) :
    DbusMessage.parseHeader (fields.map HeaderField.object) =
      some (fields.foldl HeaderField.applyTo DbusMessage.initial) := by
  unfold DbusMessage.parseHeader
  generalize DbusMessage.initial = message
  induction fields generalizing message with
  | nil => rfl
  | cons field fields ih =>
      rw [List.map_cons, List.foldlM_cons, parseField_object, List.foldl_cons, ← ih]
      rfl

/-- A part of the message that only the header field with one code changes. -/
def SetBy {β : Type} (read : DbusMessage → β) (code : UInt8) (value : HeaderField → β) : Prop :=
  ∀ message (field : HeaderField), read (field.applyTo message) =
    if field.code = code then value field else read message

/-- With each code at most once, the one field with the code decides. -/
theorem SetBy.foldl {β : Type} {read : DbusMessage → β} {code : UInt8} {value : HeaderField → β}
    (h : SetBy read code value) {fields : List HeaderField}
    (hdistinct : (fields.map HeaderField.code).Nodup) (message : DbusMessage) :
    read (fields.foldl HeaderField.applyTo message) =
      ((fields.find? fun field => field.code = code).map value).getD (read message) := by
  induction fields generalizing message with
  | nil => rfl
  | cons field fields ih =>
      rw [List.map_cons, List.nodup_cons] at hdistinct
      rw [List.foldl_cons, ih hdistinct.2, h message field]
      by_cases hcode : field.code = code
      · have hnone : (fields.find? fun field => field.code = code) = none := by
          rw [List.find?_eq_none]
          intro other hother heq
          have hmem : other.code ∈ fields.map HeaderField.code := List.mem_map_of_mem hother
          rw [of_decide_eq_true heq, ← hcode] at hmem
          exact hdistinct.1 hmem
        rw [hnone, List.find?_cons_of_pos (by simpa using hcode), if_pos hcode]
        rfl
      · rw [List.find?_cons_of_neg (by simpa using hcode), if_neg hcode]

end

namespace FlatMessage

variable (m : FlatMessage)

theorem text_decoded {read : DbusMessage → Option JavaString} {code : UInt8}
    (h : SetBy read code fun field => field.text.map fun v => units v.chars)
    (hinitial : read DbusMessage.initial = none) :
    read (m.fields.foldl HeaderField.applyTo DbusMessage.initial) =
      (m.field? code).bind fun field => field.text.map fun v => units v.chars := by
  rw [h.foldl m.distinct, hinitial, field?]
  cases m.fields.find? fun field => field.code = code <;> rfl

theorem number_decoded {read : DbusMessage → BitVec 32} {code : UInt8}
    (h : SetBy read code fun field => field.number.getD (-1))
    (hinitial : read DbusMessage.initial = -1) :
    read (m.fields.foldl HeaderField.applyTo DbusMessage.initial) =
      ((m.field? code).bind HeaderField.number).getD (-1) := by
  rw [h.foldl m.distinct, hinitial, field?]
  cases m.fields.find? fun field => field.code = code <;> rfl

theorem foldl_arguments (fields : List HeaderField) (message : DbusMessage) :
    (fields.foldl HeaderField.applyTo message).arguments = message.arguments := by
  induction fields generalizing message with
  | nil => rfl
  | cons field fields ih =>
      rw [List.foldl_cons, ih]
      cases field <;> rfl

/-- Everything but the arguments comes from the header. -/
theorem foldl_decoded : m.fields.foldl HeaderField.applyTo DbusMessage.initial =
    { m.decoded with arguments := none } := by
  apply DbusMessage.ext
  · exact m.text_decoded (fun _ field => by cases field <;> rfl) rfl
  · exact m.text_decoded (fun _ field => by cases field <;> rfl) rfl
  · exact m.text_decoded (fun _ field => by cases field <;> rfl) rfl
  · exact m.text_decoded (fun _ field => by cases field <;> rfl) rfl
  · exact m.number_decoded (fun _ field => by cases field <;> rfl) rfl
  · exact m.text_decoded (fun _ field => by cases field <;> rfl) rfl
  · exact m.text_decoded (fun _ field => by cases field <;> rfl) rfl
  · exact m.text_decoded (fun _ field => by cases field <;> rfl) rfl
  · exact m.number_decoded (fun _ field => by cases field <;> rfl) rfl
  · exact foldl_arguments _ _

/-- The signature that is decoded is the one the body has. -/
theorem signature_decoded {field : HeaderField} (h : m.field? 8 = some field) :
    m.decoded.signature = some (signatureUnits m.body) := by
  have hcode : field.code = 8 := by simpa using List.find?_some (show m.fields.find? _ = some field from h)
  have hmem : field ∈ m.fields := List.mem_of_find?_eq_some h
  cases field with
  | signature v =>
      have hchars := m.signed v hmem
      show (m.field? 8).bind _ = _
      rw [h]
      show some (units v.chars) = _
      rw [hchars, units, signatureUnits, List.map_map]
      rfl
  | _ => cases hcode

theorem signature_absent (h : m.field? 8 = none) : m.decoded.signature = none := by
  show (m.field? 8).bind _ = none
  rw [h]
  rfl

/-- The header without the arguments, and the arguments where the body begins. -/
theorem reads_arguments {bytes : List UInt8} (order : ByteOrder) (hbytes : bytes.length < 2 ^ 31)
    {header : DbusMessage} (hheader : header = { m.decoded with arguments := none })
    (fuel position : Nat) : ∃ read, read <+: padding 8 position ++
        marshalAll (FlatValue.marshal order) (position + (padding 8 position).length) m.body ∧
      Reads bytes (DbusMessage.readArguments ⟨bytes, order⟩ (fuel + 2) header) position read
        m.decoded := by
  cases h : m.field? 8 with
  | none =>
      have hsignature : header.signature = none := by
        rw [hheader]
        exact m.signature_absent h
      have hargs : m.decoded.arguments = none := by
        show (m.field? 8).map _ = none
        rw [h]
        rfl
      have hsame : header = m.decoded := by
        rw [hheader]
        exact DbusMessage.ext rfl rfl rfl rfl rfl rfl rfl rfl rfl hargs.symm
      refine ⟨[], List.nil_prefix, ?_⟩
      rw [DbusMessage.readArguments, hsignature, hsame]
      exact reads_pure position m.decoded
  | some field =>
      have hsignature : header.signature = some (signatureUnits m.body) := by
        rw [hheader]
        exact m.signature_decoded h
      have hargs : m.decoded.arguments = some
          ⟨DbusMessage.bracketed (signatureUnits m.body), m.body.map FlatValue.object⟩ := by
        show (m.field? 8).map _ = _
        rw [h]
        rfl
      refine ⟨_, List.prefix_rfl, ?_⟩
      have hread := (reads_dbusStruct order hbytes fuel m.body position).map fun struct =>
        { header with arguments := some struct }
      have hsame : { header with arguments := (some
          ⟨DbusMessage.bracketed (signatureUnits m.body), m.body.map FlatValue.object⟩) } =
            m.decoded := by
        rw [hheader]
        exact DbusMessage.ext rfl rfl rfl rfl rfl rfl rfl rfl rfl hargs.symm
      rw [hsame] at hread
      rw [DbusMessage.readArguments_signature hsignature]
      exact hread

/-- What the arguments take, from where the header array ends. -/
def argumentBytes (order : ByteOrder) : List UInt8 :=
  padding 8 (16 + (m.fieldBytes order).length) ++
    marshalAll (FlatValue.marshal order) (16 + (m.fieldBytes order).length +
      (padding 8 (16 + (m.fieldBytes order).length)).length) m.body

/-- The message behind its first byte, in the pieces that are read. -/
def pieces (order : ByteOrder) : List UInt8 :=
  ([m.type] ++ ([m.flags] ++ ([m.version] ++
    (order.put 4 (m.bodyBytes order).length ++ order.put 4 m.serial.toNat)))) ++
      ((order.put 4 (m.fieldBytes order).length ++ m.fieldBytes order) ++ m.argumentBytes order)

theorem marshal_eq (order : ByteOrder) : m.marshal order = orderMark order :: m.pieces order := by
  have hposition : 12 + (m.headerBytes order).length = 16 + (m.fieldBytes order).length +
      (padding 8 (16 + (m.fieldBytes order).length)).length := by
    simp only [headerBytes, List.length_append, ByteOrder.put_length]
    omega
  rw [marshal, pieces, argumentBytes, ← hposition]
  simp [headerBytes, bodyBytes]

theorem construct_decodes {bytes : List UInt8} {order : ByteOrder} (hbytes : bytes.length < 2 ^ 31)
    (hpos : 1 ≤ bytes.length) (hat : At bytes 1 (m.pieces order)) :
    ∃ fuel position, DbusMessage.construct ⟨bytes, order⟩ fuel 1 = .returns m.decoded position := by
  have hfixed := reads_fixedPart m.type m.flags m.version (m.bodyBytes order).length m.serial hat.left hpos
  have hpos₁ := hat.left.le hpos
  have hlen₁ : 1 + ([m.type] ++ ([m.flags] ++ ([m.version] ++
      (order.put 4 (m.bodyBytes order).length ++ order.put 4 m.serial.toNat)))).length = 12 := by
    simp
  have hat₁ := hat.right
  rw [hlen₁] at hfixed hpos₁ hat₁
  have hlen₂ : 12 + (order.put 4 (m.fieldBytes order).length ++ m.fieldBytes order).length =
      16 + (m.fieldBytes order).length := by
    simp
    omega
  have hpos₂ := hat₁.left.le hpos₁
  have hat₂ := hat₁.right
  rw [hlen₂] at hpos₂ hat₂
  have hreads : Reads bytes (dbusArray (extract ⟨bytes, order⟩ (m.fields.length + 3)) ⟨bytes, order⟩
      (m.fields.length + 3) DbusMessage.headerSignature) 12
      (order.put 4 (m.fieldBytes order).length ++ m.fieldBytes order)
      (m.fields.map HeaderField.object) :=
    reads_dbusArray hbytes m.fields (by omega) (lt_of_le_of_lt hpos₂ hbytes)
  have harray := hreads hat₁.left hpos₁
  rw [hlen₂] at harray
  obtain ⟨read, hread, hargs⟩ := m.reads_arguments order hbytes m.foldl_decoded
    (m.fields.length + 1) (16 + (m.fieldBytes order).length)
  refine ⟨m.fields.length + 3, 16 + (m.fieldBytes order).length + read.length, ?_⟩
  rw [DbusMessage.construct_eq hfixed, harray, Outcome.bind_returns, parseHeader_objects]
  exact hargs (hread.trans hat₂) hpos₂

/-- A message of at most 4000 bytes is decoded to what it stands for, in either
byte order. -/
theorem flat_message_decodes (m : FlatMessage) (order : ByteOrder)
    (h : (m.marshal order).length ≤ 4000) :
    ∃ fuel position, DbusMessage.new (m.marshal order) fuel = .returns m.decoded position := by
  have heq := m.marshal_eq order
  have hpos : 1 ≤ (m.marshal order).length := by
    rw [heq]
    exact Nat.le_add_left 1 _
  have hat : At (m.marshal order) 1 (m.pieces order) := by
    rw [heq]
    exact List.prefix_rfl
  have hannounced : DbusMessage.announced (m.marshal order) = some order := by
    rw [heq]
    cases order <;> rfl
  obtain ⟨fuel, position, hconstruct⟩ := m.construct_decodes (by omega) hpos hat
  refine ⟨fuel, position, ?_⟩
  rw [DbusMessage.new_announced hannounced, hconstruct]
  rfl

/-- A reply to call 5 with a number and a text in it. -/
def reply : FlatMessage where
  type := 2
  flags := 1
  version := 1
  serial := 7
  fields := [.replySerial 5, .signature ⟨⟨[0x75, 0x76], by simp⟩, by decide⟩]
  body := [.basic (.uint32 42), .variant (.string ⟨[0x68, 0x69], by simp⟩)]
  distinct := by decide
  signed := by
    intro v hv
    simp only [List.mem_cons, List.not_mem_nil, or_false, reduceCtorEq, false_or,
      HeaderField.signature.injEq] at hv
    rw [hv]
    rfl
  unsigned h := absurd List.mem_cons_self (h _ ∘ List.mem_cons_of_mem _)

theorem reply_fits : (reply.marshal .bigEndian).length ≤ 4000 := by decide +kernel

theorem flat_message_decodes_reply : ∃ fuel position,
    DbusMessage.new (reply.marshal .bigEndian) fuel = .returns reply.decoded position :=
  flat_message_decodes reply .bigEndian reply_fits

end FlatMessage

end AapBridge.Wire
