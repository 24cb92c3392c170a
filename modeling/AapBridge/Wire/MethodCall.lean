import AapBridge.Accessory.Method
import AapBridge.Android.DbusMethods

/-! # A method call across the wire

`DbusMethods.methodCall` on the phone, `MethodOnBytesReceived` on the accessory.
Names and arguments agree byte for byte; the number of arguments is written as
four bytes and read as one `char`. A string whose surrogates are not paired is no
text, and goes out as another one.
-/

namespace AapBridge.Wire

open AapBridge.Lib AapBridge.Lib.CMemory
open AapBridge.Accessory AapBridge.Android

/-- What a D-Bus method call consists of. -/
structure Call where
  busname : List UInt8
  objectpath : List UInt8
  interfacename : List UInt8
  function_name : List UInt8
  arguments : List (UInt8 × DBusBasicValue (List UInt8))
deriving DecidableEq

/-- The bytes are the encoding of the string. -/
def Encodes (value : List UInt8) (s : List CodeUnit) : Prop :=
  ∃ text : List Char, s = utf16 text ∧ value = text.flatMap String.utf8EncodeChar

/-- A string of Unicode characters: no surrogate in it is without its other half. -/
def IsText (s : List CodeUnit) : Prop := ∃ text : List Char, s = utf16 text

/-- A typed value of D-Bus is that of the Java object. -/
inductive Denotes : UInt8 × DBusBasicValue (List UInt8) → JavaObject → Prop
  | byte (v : UInt8) : Denotes (0x79, .byt v) (.byte v)
  | boolean (v : Bool) : Denotes (0x62, .bool_val (if v then 1 else 0)) (.boolean v)
  | short (v : BitVec 16) : Denotes (0x6E, .i16 v) (.short v)
  | integer (v : BitVec 32) : Denotes (0x69, .i32 v) (.integer v)
  | long (v : BitVec 64) : Denotes (0x78, .i64 v) (.long v)
  | string {value : List UInt8} {v : List CodeUnit} (encodes : Encodes value v) :
      Denotes (0x73, .str value) (.string v)

/-- The call with these names and arguments. -/
structure IsCall (busname objectpath interfaceName functionName : List CodeUnit)
    (arguments : List JavaObject) (call : Call) : Prop where
  busname : Encodes call.busname busname
  objectpath : Encodes call.objectpath objectpath
  interfacename : Encodes call.interfacename interfaceName
  function_name : Encodes call.function_name functionName
  arguments : List.Forall₂ Denotes call.arguments arguments

def stringOf : JavaObject → Option (List CodeUnit)
  | .string v => some v
  | _ => none

/-- The names and the strings among the arguments. -/
def callStrings (busname objectpath interfaceName functionName : List CodeUnit)
    (arguments : List JavaObject) : List (List CodeUnit) :=
  [busname, objectpath, interfaceName, functionName] ++ arguments.filterMap stringOf

/-- The D-Bus value that is sent for an argument. -/
def dbusValue : JavaObject → DBusBasicValue (List UInt8)
  | .byte v => .byt v
  | .boolean v => .bool_val (if v then 1 else 0)
  | .short v => .i16 v
  | .integer v => .i32 v
  | .long v => .i64 v
  | .double v => .dbl v
  | .string v => .str (utf8 v)

/-- Byte, Boolean, Short, Integer, Long, or a String without NUL. -/
def Sendable : JavaObject → Prop
  | .double _ => False
  | .string v => 0 ∉ v
  | _ => True

instance (object : JavaObject) : Decidable (Sendable object) := by
  unfold Sendable
  split <;> infer_instance

/-- libdbus as documented: a new call has the names it was given and no arguments,
and an append adds one, and succeeds while there is memory and the signature of
the message is below 255 characters. -/
structure Documented {Message : Type*} (lib : Libdbus Message) (call : Message → Call) : Prop where
  newMethodCall : ∀ {busname objectpath interfacename function_name message},
    lib.newMethodCall busname objectpath interfacename function_name = some message →
      call message = ⟨busname, objectpath, interfacename, function_name, []⟩
  appendBasic : ∀ {message type value message'}, lib.appendBasic message type value = some message' →
    call message' =
      { call message with arguments := (call message).arguments ++ [(type, value)] }
  appends : ∀ message object, Sendable object → (call message).arguments.length < 255 →
    (lib.appendBasic message object.typeCode (dbusValue object)).isSome

def charMax (target : Target) : Nat := if target.charSigned then 127 else 255

/-! ## Texts -/

/-- The encoding of a string is the one that `getBytes` makes. -/
theorem Encodes.eq_utf8 {value : List UInt8} {s : List CodeUnit} (h : Encodes value s) :
    value = utf8 s := by
  obtain ⟨text, rfl, rfl⟩ := h
  exact (utf8_utf16 text).symm

theorem encodes_utf8_iff {s : List CodeUnit} : Encodes (utf8 s) s ↔ IsText s := by
  constructor
  · rintro ⟨text, hs, -⟩
    exact ⟨text, hs⟩
  · rintro ⟨text, rfl⟩
    exact ⟨text, rfl, utf8_utf16 text⟩

/-- What is sent for an argument is its value, unless it is a string that is no text. -/
theorem denotes_iff {object : JavaObject} (h : Sendable object) :
    Denotes (object.typeCode, dbusValue object) object ↔ ∀ s ∈ stringOf object, IsText s := by
  cases object with
  | double v => exact h.elim
  | string v =>
      simp only [stringOf, Option.mem_some_iff, forall_eq', ← encodes_utf8_iff]
      constructor
      · intro hdenotes
        cases hdenotes with
        | string encodes => exact encodes
      · exact Denotes.string
  | byte v => exact iff_of_true (.byte v) (by simp [stringOf])
  | boolean v => exact iff_of_true (.boolean v) (by simp [stringOf])
  | short v => exact iff_of_true (.short v) (by simp [stringOf])
  | integer v => exact iff_of_true (.integer v) (by simp [stringOf])
  | long v => exact iff_of_true (.long v) (by simp [stringOf])

theorem forall₂_denotes_iff {arguments : List JavaObject} (h : ∀ object ∈ arguments, Sendable object) :
    List.Forall₂ Denotes (arguments.map fun object => (object.typeCode, dbusValue object)) arguments ↔
      ∀ s ∈ arguments.filterMap stringOf, IsText s := by
  rw [List.forall₂_map_left_iff, List.forall₂_same]
  simp only [List.mem_filterMap]
  constructor
  · rintro hall s ⟨object, hobject, hs⟩
    exact (denotes_iff (h object hobject)).mp (hall object hobject) s hs
  · intro hall object hobject
    exact (denotes_iff (h object hobject)).mpr fun s hs => hall s ⟨object, hobject, hs⟩

section

variable {Message : Type*} {lib : Libdbus Message} {call : Message → Call} {target : Target}

/-! ## Arguments -/

variable (target) in
/-- The type and value of one argument, read where the serializer put it. -/
theorem bytesToDbus_serialised {object : JavaObject} (h : Sendable object) (pre rest : List UInt8) :
    ∃ value, bytesToDbus target (pre ++ (object.valueBytes ++ rest)) object.typeCode pre.length =
        some (value, object.valueBytes.length) ∧
      dereference (pre ++ (object.valueBytes ++ rest)) object.typeCode value =
        some (dbusValue object) := by
  cases object with
  | byte v =>
      have hload := loadWord_append pre [v] rest
      refine ⟨.byt v, ?_, rfl⟩
      show (loadWord (pre ++ ([v] ++ rest)) pre.length 1).map _ = _
      rw [show (1 : Nat) = [v].length from rfl, hload]
      simp [ByteOrder.get, ByteOrder.arrange, JavaObject.valueBytes]
  | boolean v =>
      have hload := loadWord_append pre [if v then 1 else 0] rest
      refine ⟨.bool_val (if v then 1 else 0), ?_, rfl⟩
      show (loadWord (pre ++ ([if v then 1 else 0] ++ rest)) pre.length 1).map _ = _
      rw [show (1 : Nat) = [if v then (1 : UInt8) else 0].length from rfl, hload]
      cases v <;> cases hsigned : target.charSigned <;>
        simp [ByteOrder.get, ByteOrder.arrange, Target.charValue, JavaObject.valueBytes, hsigned]
  | short v =>
      obtain ⟨x, hload, hx⟩ := loadWord_put (w := 16) (n := 2) (by decide) pre rest v
      refine ⟨.i16 v, ?_, rfl⟩
      show (loadWord _ pre.length 2).map _ = _
      rw [JavaObject.valueBytes, hload, Option.map_some, hx, ByteOrder.put_length]
  | integer v =>
      obtain ⟨x, hload, hx⟩ := loadWord_put (w := 32) (n := 4) (by decide) pre rest v
      refine ⟨.i32 v, ?_, rfl⟩
      show (loadWord _ pre.length 4).map _ = _
      rw [JavaObject.valueBytes, hload, Option.map_some, hx, ByteOrder.put_length]
  | long v =>
      obtain ⟨x, hload, hx⟩ := loadWord_put (w := 64) (n := 8) (by decide) pre rest v
      refine ⟨.i64 v, ?_, rfl⟩
      show (loadWord _ pre.length 8).map _ = _
      rw [JavaObject.valueBytes, hload, Option.map_some, hx, ByteOrder.put_length]
  | double v => exact h.elim
  | string v =>
      have hfree : 0 ∉ utf8 v := utf8_nonzero h
      have hmem : pre ++ ((JavaObject.string v).valueBytes ++ rest) = pre ++ (utf8 v ++ 0 :: rest) := by
        simp [JavaObject.valueBytes]
      refine ⟨.str pre.length, ?_, ?_⟩
      · show (strlen _ pre.length).map _ = _
        rw [hmem, strlen_append pre _ rest hfree]
        simp [JavaObject.valueBytes]
      · show (cstring _ pre.length).map _ = _
        rw [hmem, cstring_append pre _ rest hfree]
        rfl

variable (target) in
/-- As many rounds as there are arguments take all of them, in order. -/
theorem appendArguments_serialised (hlib : Documented lib call) {arguments : List JavaObject}
    (hargs : ∀ object ∈ arguments, Sendable object) (pre rest : List UInt8) (message : Message)
    (hroom : (call message).arguments.length + arguments.length ≤ 255) :
    ∃ message', appendArguments target lib (pre ++ (arguments.flatMap JavaObject.bytes ++ rest))
        arguments.length message pre.length =
          some (.built message' (pre.length + (arguments.flatMap JavaObject.bytes).length)) ∧
      call message' = { call message with
        arguments := (call message).arguments ++
          arguments.map fun object => (object.typeCode, dbusValue object) } := by
  induction arguments generalizing pre message with
  | nil => exact ⟨message, rfl, by simp⟩
  | cons object arguments ih =>
      rw [List.length_cons] at hroom
      have hsendable := hargs object List.mem_cons_self
      obtain ⟨message₁, happend⟩ := Option.isSome_iff_exists.mp
        (hlib.appends message object hsendable (by omega))
      have hcall := hlib.appendBasic happend
      obtain ⟨message', hrest, hcall'⟩ := ih (fun o ho => hargs o (List.mem_cons_of_mem _ ho))
        (pre ++ object.bytes) message₁ (by rw [hcall]; simp; omega)
      have hmem : pre ++ ((object :: arguments).flatMap JavaObject.bytes ++ rest) =
          (pre ++ [object.typeCode]) ++
            (object.valueBytes ++ (arguments.flatMap JavaObject.bytes ++ rest)) := by
        simp [JavaObject.bytes]
      have htype : load (pre ++ ((object :: arguments).flatMap JavaObject.bytes ++ rest))
          pre.length 1 = some [object.typeCode] := by
        rw [hmem, List.append_assoc]
        exact load_append pre [object.typeCode] _
      obtain ⟨value, hvalue, hderef⟩ := bytesToDbus_serialised target hsendable
        (pre ++ [object.typeCode]) (arguments.flatMap JavaObject.bytes ++ rest)
      rw [← hmem, List.length_append, List.length_singleton] at hvalue
      rw [← hmem] at hderef
      have hlen : (pre ++ object.bytes).length = pre.length + 1 + object.valueBytes.length := by
        simp [JavaObject.bytes]
        omega
      refine ⟨message', ?_, ?_⟩
      · rw [List.length_cons, appendArguments, htype, Option.bind_some, List.headD_cons, hvalue,
          Option.bind_some, hderef, Option.bind_some, happend]
        have hmem' : (pre ++ object.bytes) ++ (arguments.flatMap JavaObject.bytes ++ rest) =
            pre ++ ((object :: arguments).flatMap JavaObject.bytes ++ rest) := by simp
        rw [hmem', hlen] at hrest
        refine hrest.trans ?_
        simp [JavaObject.bytes]
        omega
      · rw [hcall', hcall]
        simp

/-- Every round that does not end the loop adds one argument. -/
theorem appendArguments_count (hlib : Documented lib call) {mem : List UInt8} {n : Nat}
    {message message' : Message} {arg_pointer arg_pointer' : Nat}
    (h : appendArguments target lib mem n message arg_pointer = some (.built message' arg_pointer')) :
    (call message').arguments.length = (call message).arguments.length + n := by
  induction n generalizing message arg_pointer with
  | zero =>
      cases h
      rfl
  | succ n ih =>
      rw [appendArguments] at h
      obtain ⟨varType, -, h⟩ := Option.bind_eq_some_iff.mp h
      obtain ⟨dbusVal, -, h⟩ := Option.bind_eq_some_iff.mp h
      obtain ⟨value, -, h⟩ := Option.bind_eq_some_iff.mp h
      cases happend : lib.appendBasic message (varType.headD 0) value with
      | none =>
          rw [happend] at h
          cases h
      | some message₁ =>
          rw [happend] at h
          rw [ih h, hlib.appendBasic happend]
          simp
          omega

/-! ## The whole payload -/

section

variable {busname objectpath interfaceName functionName : List CodeUnit}
  {arguments : List JavaObject} {buffer : ByteBuffer} {trailing : List UInt8}

theorem string_read {mem : List UInt8} (pre : List UInt8) {name : List CodeUnit} (hname : 0 ∉ name)
    (hmem : pre ++ nameBytes name <+: mem) :
    afterString mem pre.length = some (pre ++ nameBytes name).length ∧
      cstring mem pre.length = some (utf8 name) := by
  have hfree : 0 ∉ utf8 name := utf8_nonzero hname
  obtain ⟨rest, rfl⟩ := hmem
  rw [show (pre ++ nameBytes name) ++ rest = pre ++ (utf8 name ++ 0 :: rest) by simp [nameBytes]]
  exact ⟨afterString_append pre _ rest hfree, cstring_append pre _ rest hfree⟩

/-- The names and the count, all in front of the arguments. -/
def preamble (busname objectpath interfaceName functionName : List CodeUnit) (count : Nat) :
    List UInt8 :=
  (((nameBytes busname ++ nameBytes objectpath) ++ nameBytes interfaceName) ++ nameBytes functionName) ++
    ByteOrder.littleEndian.put 4 count

theorem callBytes_eq : callBytes busname objectpath interfaceName functionName arguments =
    preamble busname objectpath interfaceName functionName arguments.length ++
      arguments.flatMap JavaObject.bytes := by
  simp [callBytes, preamble]

/-- The names arrive; of the count only the lowest byte is looked at. -/
theorem received_call (hnames : 0 ∉ busname ∧ 0 ∉ objectpath ∧ 0 ∉ interfaceName ∧ 0 ∉ functionName) :
    MethodOnBytesReceived target lib
        (callBytes busname objectpath interfaceName functionName arguments ++ trailing) =
      match lib.newMethodCall (utf8 busname) (utf8 objectpath) (utf8 interfaceName)
          (utf8 functionName) with
      | none => some .refused
      | some message => appendArguments target lib
          (callBytes busname objectpath interfaceName functionName arguments ++ trailing)
          (target.charValue (UInt8.ofNat arguments.length)).toNat message
          (preamble busname objectpath interfaceName functionName arguments.length).length := by
  obtain ⟨hbus, hpath, hinterface, hfunction⟩ := hnames
  generalize hmem : callBytes busname objectpath interfaceName functionName arguments ++ trailing = mem
  have hcount : load mem (((nameBytes busname ++ nameBytes objectpath) ++ nameBytes interfaceName) ++
      nameBytes functionName).length 1 = some [UInt8.ofNat arguments.length] := by
    rw [show mem = (((nameBytes busname ++ nameBytes objectpath) ++ nameBytes interfaceName) ++
        nameBytes functionName) ++ ([UInt8.ofNat arguments.length] ++
          ((ByteOrder.littleEndian.put 4 arguments.length).tail ++
            (arguments.flatMap JavaObject.bytes ++ trailing))) by
      rw [← hmem]
      simp [callBytes, ByteOrder.put, ByteOrder.arrange, bytesOf, List.range_succ]]
    exact load_append _ [UInt8.ofNat arguments.length] _
  have hstart : ∀ pre, pre <+: callBytes busname objectpath interfaceName functionName arguments →
      pre <+: mem := by
    intro pre h
    rw [← hmem]
    exact h.trans (List.prefix_append _ _)
  obtain ⟨h₁, hs₁⟩ := string_read [] hbus (hstart _ (by simp [callBytes]))
  obtain ⟨h₂, hs₂⟩ := string_read (nameBytes busname) hpath (hstart _ (by simp [callBytes]))
  obtain ⟨h₃, hs₃⟩ := string_read (nameBytes busname ++ nameBytes objectpath) hinterface
    (hstart _ (by simp [callBytes]))
  obtain ⟨h₄, hs₄⟩ := string_read ((nameBytes busname ++ nameBytes objectpath) ++ nameBytes interfaceName)
    hfunction (hstart _ (by simp [callBytes]))
  rw [List.length_nil, List.nil_append] at h₁
  rw [List.length_nil] at hs₁
  have hlen : (preamble busname objectpath interfaceName functionName arguments.length).length =
      (((nameBytes busname ++ nameBytes objectpath) ++ nameBytes interfaceName) ++
        nameBytes functionName).length + 4 := by
    rw [preamble, List.length_append, ByteOrder.put_length]
  unfold MethodOnBytesReceived countedRounds
  rw [h₁, Option.bind_some, h₂, Option.bind_some, h₃, Option.bind_some, h₄, Option.bind_some, hs₁,
    Option.bind_some, hs₂, Option.bind_some, hs₃, Option.bind_some, hs₄, Option.bind_some, hcount,
    hlen]
  rfl

/-- The call that the bytes of `methodCall` ask for. -/
def requested (busname objectpath interfaceName functionName : List CodeUnit)
    (arguments : List JavaObject) : Call where
  busname := utf8 busname
  objectpath := utf8 objectpath
  interfacename := utf8 interfaceName
  function_name := utf8 functionName
  arguments := arguments.map fun object => (object.typeCode, dbusValue object)

/-- The bytes are those of the call exactly if they are made of texts. -/
theorem isCall_requested_iff (hargs : ∀ object ∈ arguments, Sendable object) :
    IsCall busname objectpath interfaceName functionName arguments
        (requested busname objectpath interfaceName functionName arguments) ↔
      ∀ s ∈ callStrings busname objectpath interfaceName functionName arguments, IsText s := by
  unfold callStrings
  rw [List.forall_mem_append, ← forall₂_denotes_iff hargs]
  simp only [List.forall_mem_cons, ← encodes_utf8_iff]
  constructor
  · intro h
    exact ⟨⟨h.busname, h.objectpath, h.interfacename, h.function_name, List.forall_mem_nil _⟩, h.arguments⟩
  · rintro ⟨⟨hbus, hpath, hinterface, hfunction, -⟩, harguments⟩
    exact ⟨hbus, hpath, hinterface, hfunction, harguments⟩

/-- The payload, with anything behind it in memory, becomes such a call, and the
cursor stops at its end. -/
def BecomesCall (target : Target) (lib : Libdbus Message) (call : Message → Call)
    (payload trailing : List UInt8) (expected : Call → Prop) : Prop :=
  ∃ message, MethodOnBytesReceived target lib (payload ++ trailing) =
      some (.built message payload.length) ∧ expected (call message)

/-- Of a call that arrives with all its arguments, the count fits its lowest byte. -/
theorem BecomesCall.count {expected : Call → Prop} (hlib : Documented lib call)
    (hnames : 0 ∉ busname ∧ 0 ∉ objectpath ∧ 0 ∉ interfaceName ∧ 0 ∉ functionName)
    (hexpected : ∀ call, expected call → call.arguments.length = arguments.length)
    (h : BecomesCall target lib call
      (callBytes busname objectpath interfaceName functionName arguments) trailing expected) :
    (lib.newMethodCall (utf8 busname) (utf8 objectpath) (utf8 interfaceName)
        (utf8 functionName)).isSome ∧
      arguments.length = (target.charValue (UInt8.ofNat arguments.length)).toNat := by
  obtain ⟨message', hbuilt, hcall⟩ := h
  rw [received_call hnames] at hbuilt
  cases hnew : lib.newMethodCall (utf8 busname) (utf8 objectpath) (utf8 interfaceName)
      (utf8 functionName) with
  | none =>
      rw [hnew] at hbuilt
      cases hbuilt
  | some message =>
      rw [hnew] at hbuilt
      have hcount := appendArguments_count hlib hbuilt
      rw [hexpected _ hcall, hlib.newMethodCall hnew] at hcount
      simpa using hcount

theorem count_iff (target : Target) {n : Nat} (hn : n ≤ 4000) :
    n = (target.charValue (UInt8.ofNat n)).toNat ↔ n ≤ charMax target := by
  rw [charValue_toNat, UInt8.toNat_ofNat', charMax]
  cases target.charSigned <;> simp <;> grind

theorem arguments_length_le (arguments : List JavaObject) :
    arguments.length ≤ (arguments.flatMap JavaObject.bytes).length := by
  induction arguments with
  | nil => exact Nat.le_refl _
  | cons object arguments ih =>
      rw [List.flatMap_cons, List.length_append, List.length_cons]
      have hpos : 1 ≤ object.bytes.length := by simp [JavaObject.bytes]
      omega

/-- Whatever a `char` counts arrives once libdbus takes the names. -/
theorem becomesCall_of_count (hlib : Documented lib call)
    (hnames : 0 ∉ busname ∧ 0 ∉ objectpath ∧ 0 ∉ interfaceName ∧ 0 ∉ functionName)
    (hargs : ∀ object ∈ arguments, Sendable object)
    (hcount : arguments.length = (target.charValue (UInt8.ofNat arguments.length)).toNat)
    (hle : arguments.length ≤ charMax target)
    (hnew : (lib.newMethodCall (utf8 busname) (utf8 objectpath) (utf8 interfaceName)
      (utf8 functionName)).isSome) :
    BecomesCall target lib call
      (callBytes busname objectpath interfaceName functionName arguments) trailing
      (· = requested busname objectpath interfaceName functionName arguments) := by
  obtain ⟨message, hmessage⟩ := Option.isSome_iff_exists.mp hnew
  have hempty := hlib.newMethodCall hmessage
  have hroom : (call message).arguments.length + arguments.length ≤ 255 := by
    have hchar : charMax target ≤ 255 := by
      unfold charMax
      split <;> omega
    rw [hempty]
    simp only [List.length_nil]
    omega
  obtain ⟨message', hbuilt, hcall'⟩ := appendArguments_serialised target hlib hargs
    (preamble busname objectpath interfaceName functionName arguments.length) trailing message hroom
  refine ⟨message', ?_, ?_⟩
  · rw [received_call hnames, hmessage]
    show appendArguments target lib _ _ message _ = _
    rw [← hcount, callBytes_eq, List.append_assoc, hbuilt, List.length_append]
  · rw [hcall', hempty]
    rfl

/-- A method call arrives with its names, its arguments and a cursor at the end of
the payload exactly if libdbus takes the names, a `char` can count the arguments and
all strings are texts. -/
theorem methodCall_becomes_iff (lib : Libdbus Message) (call : Message → Call) (target : Target)
    (sendBuffer : ByteBuffer) (busname objectpath interfaceName functionName : List CodeUnit)
    (arguments : List JavaObject) (buffer : ByteBuffer) (trailing : List UInt8)
    (hlib : Documented lib call) (hcapacity : sendBuffer.capacity = 4000)
    (hnames : 0 ∉ busname ∧ 0 ∉ objectpath ∧ 0 ∉ interfaceName ∧ 0 ∉ functionName)
    (hargs : ∀ object ∈ arguments, Sendable object)
    (hcall : methodCall sendBuffer busname objectpath interfaceName functionName arguments =
      some buffer) :
    BecomesCall target lib call buffer.contents trailing
        (IsCall busname objectpath interfaceName functionName arguments) ↔
      (lib.newMethodCall (utf8 busname) (utf8 objectpath) (utf8 interfaceName)
          (utf8 functionName)).isSome ∧ arguments.length ≤ charMax target ∧
        ∀ s ∈ callStrings busname objectpath interfaceName functionName arguments, IsText s := by
  obtain ⟨hcontents, hfits⟩ := methodCall_contents hcall
  have hmax : arguments.length ≤ 4000 := by
    have hle := arguments_length_le arguments
    rw [hcontents, callBytes_eq, List.length_append, hcapacity] at hfits
    omega
  rw [hcontents]
  constructor
  · intro h
    obtain ⟨hnew, hcount⟩ := h.count hlib hnames fun call hcall => hcall.arguments.length_eq
    have hle := (count_iff target hmax).mp hcount
    refine ⟨hnew, hle, (isCall_requested_iff hargs).mp ?_⟩
    -- what is built is what was asked for in bytes
    obtain ⟨message, hbuilt, hiscall⟩ := h
    obtain ⟨message', hbuilt', hrequested⟩ := becomesCall_of_count hlib hnames hargs hcount hle hnew
    rw [hbuilt] at hbuilt'
    cases hbuilt'
    rwa [hrequested] at hiscall
  · rintro ⟨hnew, hle, htexts⟩
    obtain ⟨message, hbuilt, hrequested⟩ :=
      becomesCall_of_count hlib hnames hargs ((count_iff target hmax).mpr hle) hle hnew
    refine ⟨message, hbuilt, ?_⟩
    rw [hrequested]
    exact (isCall_requested_iff hargs).mpr htexts

end

end

/-- A libdbus that writes down what it is asked for. -/
private def recorder : Libdbus Call where
  newMethodCall busname objectpath interfacename function_name :=
    some ⟨busname, objectpath, interfacename, function_name, []⟩
  appendBasic call type value := some { call with arguments := call.arguments ++ [(type, value)] }

private theorem recorder_documented : Documented recorder id where
  newMethodCall h := by
    cases h
    rfl
  appendBasic h := by
    cases h
    rfl
  appends _ _ _ _ := rfl

private def arm : Target := ⟨false, id⟩

private def littleTarget : Target := ⟨true, id⟩

private def busname : List CodeUnit := [0x6E, 0x6C, 0x2E, 0x61]

private def objectpath : List CodeUnit := [0x2F, 0x61]

private def play : List CodeUnit := [0x50, 0x6C, 0x61, 0x79]

private def someArguments : List JavaObject :=
  [.byte 5, .boolean true, .short 0xFFFE#16, .string [0x49, 0xE9], .long 2333223]

private theorem someArguments_fit :
    (methodCall (ByteBuffer.allocate 4000) busname objectpath busname play someArguments).isSome := by
  decide +kernel

/-- Five arguments of five types, on a machine whose `char` is signed. -/
theorem methodCall_becomes_five : ∃ buffer,
    methodCall (ByteBuffer.allocate 4000) busname objectpath busname play someArguments = some buffer ∧
      BecomesCall littleTarget recorder id buffer.contents [0xAA]
        (IsCall busname objectpath busname play someArguments) := by
  obtain ⟨buffer, hbuffer⟩ := Option.isSome_iff_exists.mp someArguments_fit
  refine ⟨buffer, hbuffer, ?_⟩
  apply (methodCall_becomes_iff recorder id littleTarget (ByteBuffer.allocate 4000) busname objectpath busname
    play someArguments buffer [0xAA] recorder_documented rfl (by decide) (by decide) hbuffer).mpr
  refine ⟨rfl, by decide, ?_⟩
  show ∀ s ∈ [busname, objectpath, busname, play, [0x49, 0xE9]], IsText s
  simp only [List.forall_mem_cons]
  exact ⟨⟨['n', 'l', '.', 'a'], by decide⟩, ⟨['/', 'a'], by decide⟩, ⟨['n', 'l', '.', 'a'], by decide⟩,
    ⟨['P', 'l', 'a', 'y'], by decide⟩, ⟨['I', 'é'], by decide⟩, List.forall_mem_nil _⟩

private def manyBytes : List JavaObject := List.replicate 256 (.byte 7)

private theorem manyBytes_fit :
    (methodCall (ByteBuffer.allocate 4000) busname objectpath busname play manyBytes).isSome := by
  decide +kernel

/-- Of 256 arguments none arrives, whatever `char` is. -/
theorem methodCall_loses_arguments :
    ∃ buffer, methodCall (ByteBuffer.allocate 4000) busname objectpath busname play manyBytes =
        some buffer ∧
      ¬BecomesCall littleTarget recorder id buffer.contents []
        (IsCall busname objectpath busname play manyBytes) ∧
      ¬BecomesCall arm recorder id buffer.contents []
        (IsCall busname objectpath busname play manyBytes) := by
  obtain ⟨buffer, hbuffer⟩ := Option.isSome_iff_exists.mp manyBytes_fit
  have hcontents := (methodCall_contents hbuffer).1
  refine ⟨buffer, hbuffer, ?_, ?_⟩
  · intro h
    rw [hcontents] at h
    exact absurd (h.count recorder_documented (by decide) fun call hcall => hcall.arguments.length_eq).2
      (by decide +kernel)
  · intro h
    rw [hcontents] at h
    exact absurd (h.count recorder_documented (by decide) fun call hcall => hcall.arguments.length_eq).2
      (by decide +kernel)

end AapBridge.Wire
