import AapBridge.Android.DbusMethods
import AapBridge.Android.WriteOrder

/-! # Sequences of method calls

`DbusMethods.methodCall` as a whole: the checks of `serialise`, the `sendBuffer`
that a call which throws leaves half filled, the writes and the id. Whatever the
calls before it did, a call that can be encoded into 4000 bytes goes out as one
frame and takes the next id, and any other leaves no trace.
-/

namespace AapBridge.Android

open AapBridge.Lib

/-! ## Encoding with exceptions -/

/-- A method that fills a buffer; `false` if it throws, with the buffer as it
stands then. -/
abbrev Encoding := ByteBuffer → Bool × ByteBuffer

namespace Encoding

/-- One of the `put` methods, which do not touch the buffer when they throw. -/
def put (f : ByteBuffer → Option ByteBuffer) : Encoding := fun b =>
  match f b with
  | some b' => (true, b')
  | none => (false, b)

def throw : Encoding := fun b => (false, b)

def nothing : Encoding := fun b => (true, b)

def andThen (e f : Encoding) : Encoding := fun b =>
  match e b with
  | (true, b) => f b
  | (false, b) => (false, b)

/-- The buffer, unless something was thrown. -/
def outcome (e : Encoding) (b : ByteBuffer) : Option ByteBuffer :=
  if (e b).1 then some (e b).2 else none

@[simp] theorem outcome_put (f : ByteBuffer → Option ByteBuffer) : (put f).outcome = f := by
  funext b
  unfold outcome put
  cases f b <;> rfl

@[simp] theorem outcome_throw : throw.outcome = fun _ => none := rfl

@[simp] theorem outcome_nothing : nothing.outcome = some := rfl

@[simp] theorem outcome_andThen (e f : Encoding) :
    (e.andThen f).outcome = fun b => (e.outcome b).bind f.outcome := by
  funext b
  unfold outcome andThen
  match e b with
  | (true, _) => rfl
  | (false, _) => rfl

/-- The capacity is the same afterwards, also after an exception. -/
def Keeps (e : Encoding) : Prop := ∀ b, (e b).2.capacity = b.capacity

theorem keeps_put {f : ByteBuffer → Option ByteBuffer} {bytes : List UInt8}
    (h : ∀ b, f b = b.put bytes) : (put f).Keeps := by
  intro b
  unfold put
  rw [h, ByteBuffer.put]
  split
  · next b' hput =>
      split at hput
      · cases hput
        rfl
      · cases hput
  · rfl

theorem keeps_andThen {e f : Encoding} (he : e.Keeps) (hf : f.Keeps) : (e.andThen f).Keeps := by
  intro b
  have hfirst := he b
  unfold andThen
  split
  · next b' hthen =>
      rw [hthen] at hfirst
      exact (hf b').trans hfirst
  · next b' hthrown =>
      rw [hthrown] at hfirst
      exact hfirst

end Encoding

open Encoding (put)

/-- An element of `arguments`; the class of an object may have no serializer. -/
inductive Argument where
  | supported (object : JavaObject)
  | unsupported
  | null
deriving DecidableEq

/-- `DbusTypeParser.serialise`; without a serializer, or without a class, it
throws a `NullPointerException`. -/
def Argument.serialise : Argument → Encoding
  | .supported object =>
      (put fun bb => bb.put [object.typeCode]).andThen
        (match object with
        | .byte v => put fun bb => bb.put [v]
        | .boolean v => put fun bb => bb.put [if v then 1 else 0]
        | .short v => put fun bb => bb.putShort v
        | .integer v => put fun bb => bb.putInt v
        | .long v => put fun bb => bb.putLong v
        | .double v => put fun bb => bb.putLong v
        | .string v => (put fun bb => bb.put (utf8 v)).andThen (put fun bb => bb.put [0]))
  | .unsupported | .null => .throw

/-- The arguments of one `methodCall`; the names are not null. -/
structure Invocation where
  busname : List CodeUnit
  objectpath : List CodeUnit
  interfaceName : List CodeUnit
  functionName : List CodeUnit
  arguments : Option (List Argument)

def encodeName (name : List CodeUnit) : Encoding :=
  (put fun sendBuffer => sendBuffer.put (utf8 name)).andThen (put fun sendBuffer => sendBuffer.put [0])

def encodeArguments : List Argument → Encoding
  | [] => .nothing
  | argument :: arguments => argument.serialise.andThen (encodeArguments arguments)

namespace Invocation

variable (c : Invocation)

/-- From `clear` to the last argument. -/
def encode : Encoding := fun sendBuffer =>
  ((encodeName c.busname).andThen <| (encodeName c.objectpath).andThen <|
    (encodeName c.interfaceName).andThen <| (encodeName c.functionName).andThen <|
    match c.arguments with
    | none => .throw
    | some arguments =>
        (put fun sendBuffer => sendBuffer.putInt (BitVec.ofNat 32 arguments.length)).andThen
          (encodeArguments arguments)) sendBuffer.clear

end Invocation

/-! ## Writing -/

/-- `Port.write` without other threads: the bytes for the output stream and the
buffer behind them. -/
def Port.write (port : Port) (buffer : ByteBuffer) : Option (Port × List UInt8 × ByteBuffer) :=
  if port.outputOpen then
    (port.fillHeader (writeAmount buffer)).bind fun port =>
    (CMemory.load port.header.array port.header.arrayOffset port.header.capacity).bind fun header =>
    (CMemory.load buffer.array (buffer.arrayOffset + buffer.position)
      (writeAmount buffer).toNat).bind fun payload =>
    -- the loop that prints the bytes
    if (writeAmount buffer).toNat ≤ buffer.array.length then
      (buffer.setPosition (buffer.position + (writeAmount buffer).toNat)).map fun buffer =>
        (port, header ++ payload, buffer)
    else none
  else none

/-- `while(sendBuffer.hasRemaining()) port.write(sendBuffer)`, at most `rounds` times. -/
def Port.writeAll : Nat → Port → ByteBuffer → Option (Port × List UInt8 × ByteBuffer)
  | rounds, port, sendBuffer =>
      if sendBuffer.hasRemaining then
        match rounds with
        | 0 => none
        | rounds + 1 =>
            (port.write sendBuffer).bind fun (port, bytes, sendBuffer) =>
            (writeAll rounds port sendBuffer).map fun (port, more, sendBuffer) =>
              (port, bytes ++ more, sendBuffer)
      else some (port, [], sendBuffer)

/-- The fields of a `DbusMethods` object that `methodCall` uses, and the output
stream. -/
structure MethodsState where
  call_id : BitVec 32
  sendBuffer : ByteBuffer
  port : Port
  sent : List UInt8

inductive CallOutcome where
  | returned (id : BitVec 32)
  | thrown
deriving DecidableEq

/-- `methodCall`; `none` if a write throws. Each round of the loop writes a byte. -/
def MethodsState.methodCall (s : MethodsState) (c : Invocation) :
    Option (CallOutcome × MethodsState) :=
  match c.encode s.sendBuffer with
  | (false, sendBuffer) => some (.thrown, { s with sendBuffer })
  | (true, sendBuffer) =>
      (s.port.writeAll sendBuffer.flip.remaining sendBuffer.flip).map fun (port, bytes, sendBuffer) =>
        (.returned s.call_id,
          { call_id := s.call_id + 1, sendBuffer, port, sent := s.sent ++ bytes })

def MethodsState.methodCalls : MethodsState → List Invocation →
    Option (List CallOutcome × MethodsState)
  | s, [] => some ([], s)
  | s, c :: calls =>
      (s.methodCall c).bind fun (outcome, s) =>
      (s.methodCalls calls).map fun (outcomes, s) => (outcome :: outcomes, s)

/-! ## What a call stands for -/

def Argument.object? : Argument → Option JavaObject
  | .supported object => some object
  | .unsupported | .null => none

namespace Invocation

/-- The complete encoding, if every argument has one. -/
def encoding (c : Invocation) : Option (List UInt8) :=
  (c.arguments.bind fun arguments => arguments.mapM Argument.object?).map
    (callBytes c.busname c.objectpath c.interfaceName c.functionName)

/-- The encoding of a call that fits the buffer. -/
def payload (c : Invocation) : Option (List UInt8) := c.encoding.filter (·.length ≤ 4000)

end Invocation

/-- The calls that can be encoded return, with consecutive ids. -/
def expected : BitVec 32 → List Invocation → List CallOutcome
  | _, [] => []
  | id, c :: calls =>
      match c.payload with
      | some _ => .returned id :: expected (id + 1) calls
      | none => .thrown :: expected id calls

/-! ## The buffer behind `encode` -/

theorem keeps_serialise (argument : Argument) : argument.serialise.Keeps := by
  cases argument with
  | supported object =>
      apply Encoding.keeps_andThen (Encoding.keeps_put fun _ => rfl)
      cases object with
      | string v =>
          exact Encoding.keeps_andThen (Encoding.keeps_put fun _ => rfl) (Encoding.keeps_put fun _ => rfl)
      | _ => exact Encoding.keeps_put fun _ => rfl
  | unsupported | null => exact fun _ => rfl

theorem keeps_encodeName (name : List CodeUnit) : (encodeName name).Keeps :=
  Encoding.keeps_andThen (Encoding.keeps_put fun _ => rfl) (Encoding.keeps_put fun _ => rfl)

theorem keeps_encodeArguments (arguments : List Argument) : (encodeArguments arguments).Keeps := by
  induction arguments with
  | nil => exact fun _ => rfl
  | cons argument arguments ih => exact Encoding.keeps_andThen (keeps_serialise argument) ih

theorem Invocation.keeps_encode (c : Invocation) : c.encode.Keeps := by
  intro b
  have hputs : ∀ last : Encoding, last.Keeps →
      ((encodeName c.busname).andThen <| (encodeName c.objectpath).andThen <|
        (encodeName c.interfaceName).andThen <| (encodeName c.functionName).andThen last).Keeps := by
    intro last hlast
    apply Encoding.keeps_andThen (keeps_encodeName _)
    apply Encoding.keeps_andThen (keeps_encodeName _)
    apply Encoding.keeps_andThen (keeps_encodeName _)
    exact Encoding.keeps_andThen (keeps_encodeName _) hlast
  apply hputs _ _ b.clear
  split
  · exact fun _ => rfl
  · exact Encoding.keeps_andThen (Encoding.keeps_put fun _ => rfl) (keeps_encodeArguments _)

/-! ## The bytes behind `encode` -/

theorem outcome_serialise (object : JavaObject) (bb : ByteBuffer) :
    (Argument.supported object).serialise.outcome bb = AapBridge.Android.serialise object bb := by
  unfold Argument.serialise AapBridge.Android.serialise
  simp only [Encoding.outcome_andThen, Encoding.outcome_put]
  congr 1
  funext bb
  cases object <;> simp

@[simp] theorem outcome_encodeName (name : List CodeUnit) :
    (encodeName name).outcome = putName name := by
  funext sendBuffer
  simp [encodeName, putName]

/-- One argument without a serializer is enough for an exception. -/
theorem outcome_encodeArguments (arguments : List Argument) :
    (encodeArguments arguments).outcome = fun bb =>
      (arguments.mapM Argument.object?).bind fun objects =>
        objects.foldlM (fun bb object => AapBridge.Android.serialise object bb) bb := by
  induction arguments with
  | nil => rfl
  | cons argument arguments ih =>
      funext bb
      rw [encodeArguments, Encoding.outcome_andThen, ih, List.mapM_cons]
      cases argument with
      | supported object =>
          simp only [outcome_serialise]
          cases arguments.mapM Argument.object? with
          | none => cases AapBridge.Android.serialise object bb <;> rfl
          | some objects => rfl
      | unsupported | null => rfl

theorem mapM_length {arguments : List Argument} {objects : List JavaObject}
    (h : arguments.mapM Argument.object? = some objects) : arguments.length = objects.length := by
  induction arguments generalizing objects with
  | nil =>
      cases h
      rfl
  | cons argument arguments ih =>
      rw [List.mapM_cons] at h
      obtain ⟨object, -, h⟩ := Option.bind_eq_some_iff.mp h
      obtain ⟨rest, hrest, h⟩ := Option.bind_eq_some_iff.mp h
      cases h
      rw [List.length_cons, List.length_cons, ih hrest]

namespace Invocation

/-- `encode` goes through exactly if all arguments have serializers and the
`put`s of the call do not overflow the cleared buffer. -/
theorem outcome_encode (c : Invocation) (sendBuffer : ByteBuffer) :
    c.encode.outcome sendBuffer =
      (c.arguments.bind fun arguments => arguments.mapM Argument.object?).bind fun objects =>
        putCall c.busname c.objectpath c.interfaceName c.functionName objects sendBuffer.clear := by
  have hputs : ∀ last : Encoding,
      ((encodeName c.busname).andThen <| (encodeName c.objectpath).andThen <|
        (encodeName c.interfaceName).andThen <| (encodeName c.functionName).andThen last).outcome
          sendBuffer.clear =
      (putName c.busname sendBuffer.clear).bind fun sendBuffer =>
      (putName c.objectpath sendBuffer).bind fun sendBuffer =>
      (putName c.interfaceName sendBuffer).bind fun sendBuffer =>
      (putName c.functionName sendBuffer).bind last.outcome := by
    intro last
    simp only [Encoding.outcome_andThen, outcome_encodeName]
  show Encoding.outcome _ sendBuffer.clear = _
  rw [hputs]
  cases c.arguments with
  | none => simp
  | some arguments =>
      simp only [Encoding.outcome_andThen, Encoding.outcome_put, outcome_encodeArguments,
        Option.bind_some]
      cases hobjects : arguments.mapM Argument.object? with
      | none => simp
      | some objects =>
          rw [mapM_length hobjects]
          rfl

/-- What `encode` leaves in the buffer. -/
theorem encode_spec (c : Invocation) {sendBuffer : ByteBuffer} (hcapacity : sendBuffer.capacity = 4000) :
    ∃ buffer, buffer.capacity = 4000 ∧
      match c.payload with
      | some bytes => c.encode sendBuffer = (true, buffer) ∧ buffer.written = bytes
      | none => c.encode sendBuffer = (false, buffer) := by
  have hkept := c.keeps_encode sendBuffer
  have houtcome := c.outcome_encode sendBuffer
  generalize hencode : c.encode sendBuffer = result at hkept
  obtain ⟨went, buffer⟩ := result
  refine ⟨buffer, hkept.trans hcapacity, ?_⟩
  rw [Encoding.outcome, hencode] at houtcome
  unfold payload encoding
  cases hobjects : c.arguments.bind fun arguments => arguments.mapM Argument.object? with
  | none =>
      rw [hobjects] at houtcome
      cases went with
      | true => cases houtcome
      | false => rfl
  | some objects =>
      rw [hobjects, Option.bind_some] at houtcome
      have hwrites := writes_putCall c.busname c.objectpath c.interfaceName c.functionName objects
      rw [Option.map_some, Option.filter_some]
      by_cases hfits : (callBytes c.busname c.objectpath c.interfaceName c.functionName
          objects).length ≤ 4000
      · obtain ⟨filled, hfilled, hext⟩ := hwrites.fits sendBuffer.clear
          (by simpa [ByteBuffer.clear, hcapacity] using hfits)
        rw [hfilled] at houtcome
        have hwritten := hext.written
        rw [ByteBuffer.clear_written, List.nil_append] at hwritten
        cases went with
        | true =>
            cases houtcome
            rw [if_pos (decide_eq_true hfits)]
            exact ⟨rfl, hwritten⟩
        | false => cases houtcome
      · rw [hwrites.overflow sendBuffer.clear
          (by simpa [ByteBuffer.clear, hcapacity] using hfits)] at houtcome
        rw [if_neg (by simpa using hfits)]
        cases went with
        | true => cases houtcome
        | false => rfl

end Invocation

/-! ## One frame -/

/-- A port that is open writes what is left in the buffer as one frame. -/
theorem Port.Ready.write {port : Port} (h : port.Ready) {buffer : ByteBuffer}
    (hfits : buffer.remaining ≤ 4000) :
    ∃ (port' : Port) (buffer' : ByteBuffer),
      port.write buffer = some (port', frameBytes port.portNr buffer.contents, buffer') ∧
      port'.Ready ∧ port'.portNr = port.portNr ∧ buffer'.contents = [] ∧
      buffer'.capacity = buffer.capacity := by
  have hamount : (writeAmount buffer).toNat = buffer.remaining := by
    simp only [writeAmount, BitVec.toNat_ofNat, if_neg (Nat.not_lt.mpr hfits)]
    omega
  obtain ⟨port', hfill, hready, hnumber, harray⟩ := h.fillHeader (writeAmount buffer)
  have hpayload := ByteBuffer.load_contents (b := buffer) (Nat.le_refl _)
  rw [← ByteBuffer.contents_length, List.take_length] at hpayload
  obtain ⟨buffer', hset, hcontents⟩ := ByteBuffer.setPosition_contents (b := buffer) (Nat.le_refl _)
  rw [← ByteBuffer.contents_length, List.drop_length] at hcontents
  have hprint : buffer.remaining ≤ buffer.array.length := by
    have hinside := buffer.inside
    have hlimit := buffer.limit_le
    unfold ByteBuffer.remaining
    omega
  have hcapacity : buffer'.capacity = buffer.capacity := by
    unfold ByteBuffer.setPosition at hset
    split at hset
    · cases hset
      rfl
    · cases hset
  have hshort : shortBytes (writeAmount buffer) =
      shortBytes (BitVec.ofNat 16 buffer.contents.length) := by
    rw [ByteBuffer.contents_length, ← hamount, BitVec.ofNat_toNat, BitVec.setWidth_eq]
  refine ⟨port', buffer', ?_, hready, hnumber, hcontents, hcapacity⟩
  rw [Port.write, if_pos h.open_, hfill, Option.bind_some, hready.load, Option.bind_some, hamount,
    ← ByteBuffer.contents_length, hpayload, Option.bind_some, ByteBuffer.contents_length,
    if_pos hprint, hset, harray, hshort]
  rfl

/-- The loop goes round once, unless there is nothing to write. -/
theorem Port.Ready.writeAll {port : Port} (h : port.Ready) (buffer : ByteBuffer)
    (hpos : 0 < buffer.remaining) (hfits : buffer.remaining ≤ 4000) :
    ∃ (port' : Port) (buffer' : ByteBuffer),
      port.writeAll buffer.remaining buffer =
        some (port', frameBytes port.portNr buffer.contents, buffer') ∧
      port'.Ready ∧ port'.portNr = port.portNr ∧ buffer'.capacity = buffer.capacity := by
  obtain ⟨port', buffer', hwrite, hready, hnumber, hempty, hcapacity⟩ := h.write hfits
  obtain ⟨rounds, hrounds⟩ : ∃ rounds, buffer.remaining = rounds + 1 :=
    ⟨buffer.remaining - 1, by omega⟩
  have hmore : buffer.hasRemaining = true := by
    rw [ByteBuffer.hasRemaining_iff, ← List.length_pos_iff, ByteBuffer.contents_length]
    exact hpos
  have hend : buffer'.hasRemaining = false := by
    rw [← Bool.not_eq_true, ByteBuffer.hasRemaining_iff, hempty]
    simp
  have hlast : port'.writeAll rounds buffer' = some (port', [], buffer') := by
    rw [Port.writeAll.eq_def]
    exact if_neg (by rw [hend]; simp)
  refine ⟨port', buffer', ?_, hready, hnumber, hcapacity⟩
  rw [hrounds, Port.writeAll.eq_def]
  simp only [hmore, if_true, hwrite, hlast, Option.bind_some, Option.map_some, List.append_nil]

/-! ## Any sequence of calls -/

/-- An object whose port is open. -/
structure MethodsState.Open (s : MethodsState) : Prop where
  port : s.port.Ready
  sendBuffer : s.sendBuffer.capacity = 4000

theorem Invocation.payload_bounds {c : Invocation} {bytes : List UInt8} (h : c.payload = some bytes) :
    0 < bytes.length ∧ bytes.length ≤ 4000 := by
  obtain ⟨hencoding, hfits⟩ := Option.filter_eq_some_iff.mp h
  obtain ⟨objects, -, rfl⟩ := Option.map_eq_some_iff.mp hencoding
  constructor
  · simp only [callBytes, nameBytes, List.length_append, List.length_singleton]
    omega
  · exact of_decide_eq_true hfits

/-- One call: a frame and an id, or neither. -/
theorem MethodsState.Open.methodCall {s : MethodsState} (h : s.Open) (c : Invocation) :
    ∃ t : MethodsState, t.Open ∧ t.port.portNr = s.port.portNr ∧
      match c.payload with
      | some bytes => s.methodCall c = some (.returned s.call_id, t) ∧ t.call_id = s.call_id + 1 ∧
          t.sent = s.sent ++ frameBytes s.port.portNr bytes
      | none => s.methodCall c = some (.thrown, t) ∧ t.call_id = s.call_id ∧ t.sent = s.sent := by
  obtain ⟨buffer, hcapacity, hencode⟩ := c.encode_spec h.sendBuffer
  cases hpayload : c.payload with
  | none =>
      simp only [hpayload] at hencode
      refine ⟨{ s with sendBuffer := buffer }, ⟨h.port, hcapacity⟩, rfl, ?_, rfl, rfl⟩
      simp only [MethodsState.methodCall, hencode]
  | some bytes =>
      simp only [hpayload] at hencode
      obtain ⟨hencode, hwritten⟩ := hencode
      obtain ⟨hpos, hfits⟩ := c.payload_bounds hpayload
      have hremaining : buffer.flip.remaining = bytes.length := by
        rw [← ByteBuffer.contents_length, ByteBuffer.flip_contents, hwritten]
      obtain ⟨port, sendBuffer, hwrite, hready, hnumber, hkept⟩ :=
        h.port.writeAll buffer.flip (by omega) (by omega)
      rw [ByteBuffer.flip_contents, hwritten] at hwrite
      refine ⟨⟨s.call_id + 1, sendBuffer, port, s.sent ++ frameBytes s.port.portNr bytes⟩,
        ⟨hready, hkept.trans hcapacity⟩, hnumber, ?_, rfl, rfl⟩
      simp only [MethodsState.methodCall, hencode, hwrite, Option.map_some]

/-- Every call of a sequence does one of the two. -/
theorem MethodsState.Open.methodCalls {s : MethodsState} (h : s.Open) (calls : List Invocation) :
    ∃ t : MethodsState, s.methodCalls calls = some (expected s.call_id calls, t) ∧
      t.sent = s.sent ++
        ((calls.filterMap Invocation.payload).map (frameBytes s.port.portNr)).flatten ∧
      t.call_id = s.call_id + BitVec.ofNat 32 (calls.filterMap Invocation.payload).length := by
  induction calls generalizing s with
  | nil => exact ⟨s, rfl, by simp, by simp⟩
  | cons c calls ih =>
      obtain ⟨m, hopen, hnumber, hcall⟩ := h.methodCall c
      obtain ⟨t, hcalls, hsent, hid⟩ := ih hopen
      refine ⟨t, ?_⟩
      cases hpayload : c.payload with
      | none =>
          simp only [hpayload] at hcall
          obtain ⟨hcall, hcallId, hstream⟩ := hcall
          rw [List.filterMap_cons_none hpayload, ← hnumber, ← hstream, ← hcallId]
          refine ⟨?_, hsent, hid⟩
          simp only [MethodsState.methodCalls, hcall, hcalls, Option.bind_some, Option.map_some,
            expected, hpayload]
      | some bytes =>
          simp only [hpayload] at hcall
          obtain ⟨hcall, hcallId, hstream⟩ := hcall
          rw [List.filterMap_cons_some hpayload]
          refine ⟨?_, ?_, ?_⟩
          · simp only [MethodsState.methodCalls, hcall, hcalls, Option.bind_some, Option.map_some,
              expected, hpayload, hcallId]
          · rw [hsent, hstream, hnumber, List.map_cons, List.flatten_cons, List.append_assoc]
          · rw [hid, hcallId, List.length_cons, BitVec.add_assoc, Nat.add_comm, BitVec.ofNat_add]
            rfl

/-- Any sequence of calls on an object with an open port: a call that has a
complete encoding of at most 4000 bytes writes it as one frame and returns the
next id. Any other throws, and what follows is as if it had not been made. -/
theorem method_calls_all_or_nothing (s : MethodsState) (h : s.Open) (calls : List Invocation) :
    ∃ t : MethodsState, s.methodCalls calls = some (expected s.call_id calls, t) ∧
      t.sent = s.sent ++
        ((calls.filterMap Invocation.payload).map (frameBytes s.port.portNr)).flatten ∧
      t.call_id = s.call_id + BitVec.ofNat 32 (calls.filterMap Invocation.payload).length := by
  exact h.methodCalls calls

private def onPort (port : Port) : MethodsState := ⟨0, .allocate 4000, port, []⟩

/-- A call with an argument that has no serializer, behind an argument that is
in the buffer already, and a call without arguments. -/
theorem method_calls_all_or_nothing_two :
    ∃ (port : Port) (t : MethodsState), Port.create 5 = some port ∧
      (onPort port).methodCalls [⟨[97], [97], [97], [97], some [.supported (.byte 7), .unsupported]⟩,
        ⟨[98], [98], [98], [98], some []⟩] = some ([.thrown, .returned 0], t) ∧
      t.sent = [5, 0, 12, 0, 98, 0, 98, 0, 98, 0, 98, 0, 0, 0, 0, 0] := by
  obtain ⟨port, hport⟩ : ∃ port, Port.create 5 = some port := ⟨_, rfl⟩
  have hready := Port.create_ready hport
  have hnumber : port.portNr = 5 := by
    cases hport
    rfl
  obtain ⟨t, hcalls, hsent, -⟩ := method_calls_all_or_nothing (onPort port) ⟨hready, rfl⟩
    [⟨[97], [97], [97], [97], some [.supported (.byte 7), .unsupported]⟩,
      ⟨[98], [98], [98], [98], some []⟩]
  refine ⟨port, t, hport, hcalls, ?_⟩
  rw [hsent]
  show [] ++ ((_ : List (List UInt8)).map (frameBytes port.portNr)).flatten = _
  rw [hnumber]
  decide

end AapBridge.Android
