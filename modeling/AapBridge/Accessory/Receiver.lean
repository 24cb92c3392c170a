import AapBridge.Lib.CMemory
import AapBridge.Lib.Framing
import AapBridge.Lib.Machine
import AapBridge.Lib.Words
import AapBridge.Accessory.Message

/-! # The accessory's receiver thread

`receiver` with its 4000-byte buffer and the loop of `readAllAccessory` inside
it. One label is one return of `readAccessory`. An access outside the buffer
ends in `fault`. A receiver that has taken in the bytes `taken` has queued the
frames they contain and holds the beginning of the next one in its buffer, as
long as the sizes it met are between 0 and 4000.
-/

namespace AapBridge.Accessory

open AapBridge.Lib

/-- `sizeof(buffer)`. -/
def bufferSize : Nat := 4000

/-- The variables of a running `readAllAccessory`: how far `buffer` has moved
and the `size` that is left. -/
structure ReadAll where
  offset : Nat
  size : Int

inductive ReceiverPc where
  | header (read : ReadAll)
  | payload (port size : Short) (read : ReadAll)
  | stopped
  | fault

/-- `queued` is what was handed to `addreceivequeue`; `none` is `NULL`. -/
structure ReceiverState where
  work : Bool
  buffer : List UInt8
  pc : ReceiverPc
  queued : List (Option MultiplexedMessage)

/-- `low + (high << 8)` on two `uint8_t`s, stored in a `short`. -/
def wireShort (low high : UInt8) : Short := BitVec.ofNat 16 (low.toNat + 256 * high.toNat)

namespace ReceiverState

/-- Behind the loop: `addreceivequeue(NULL)`. -/
def stop (s : ReceiverState) : ReceiverState :=
  { s with work := false, queued := s.queued ++ [none], pc := .stopped }

/-- The test of the loop, the `memset` and the call that reads a header. -/
def loop (s : ReceiverState) : ReceiverState :=
  if s.work then { s with buffer := List.replicate bufferSize 0, pc := .header ⟨0, 4⟩ } else s.stop

/-- `malloc` and `memcpy` take `size` as a `size_t`. -/
def deliver (s : ReceiverState) (port size : Short) : ReceiverState :=
  if size.toInt < 0 then { s with pc := .fault }
  else match CMemory.load s.buffer 0 size.toNat with
    | none => { s with pc := .fault }
    | some data => loop { s with queued := s.queued ++ [some ⟨port, size, data⟩] }

/-- A header is complete; `readAllAccessory` returns at once unless `size > 0`. -/
def decodeHeader (s : ReceiverState) : ReceiverState :=
  match s.buffer with
  | b0 :: b1 :: b2 :: b3 :: _ =>
      let port := wireShort b0 b1
      let size := wireShort b2 b3
      if size.toInt > 0 then { s with pc := .payload port size ⟨0, size.toInt⟩ }
      else s.deliver port size
  | _ => { s with pc := .fault }

/-- `readAccessory` has put `bytes` at `buffer`; `more` is the next round of the
loop and `done` what follows it. -/
def fill (s : ReceiverState) (read : ReadAll) (bytes : List UInt8) (more : ReadAll → ReceiverPc)
    (done : ReceiverState → ReceiverState) : Option ReceiverState :=
  if 1 ≤ bytes.length ∧ bytes.length ≤ read.size then
    match CMemory.store s.buffer read.offset bytes with
    | none => some { s with pc := .fault }
    | some buffer =>
        if read.size - bytes.length > 0 then
          some { s with buffer, pc := more ⟨read.offset + bytes.length, read.size - bytes.length⟩ }
        else some (done { s with buffer })
  else none

def arrive (s : ReceiverState) (bytes : List UInt8) : Option ReceiverState :=
  match s.pc with
  | .header read => s.fill read bytes .header decodeHeader
  | .payload port size read =>
      s.fill read bytes (.payload port size) fun s => s.deliver port size
  | .stopped | .fault => none

/-- A negative return of `readAccessory`. -/
def error (s : ReceiverState) : Option ReceiverState :=
  match s.pc with
  | .header _ | .payload _ _ _ => some s.stop
  | .stopped | .fault => none

/-- What `malloc` and the stack hold before the first `memset` is never read. -/
def initial : ReceiverState where
  work := true
  buffer := List.replicate bufferSize 0
  pc := .header ⟨0, 4⟩
  queued := []

end ReceiverState

inductive ReceiverLabel where
  | bytes (bs : List UInt8)
  | error
  /-- Another thread sets `bridge->work = 0`. -/
  | clearWork

def receiver : Machine ReceiverState ReceiverLabel where
  init s := s = .initial
  step s
    | .bytes bs => s.arrive bs
    | .error => s.error
    | .clearWork => some { s with work := false }

/-! ## Frames on the wire -/

/-- The port and the size of a header. -/
def headerPort (header : List UInt8) : Short := wireShort (header.getD 0 0) (header.getD 1 0)

def headerSize (header : List UInt8) : Short := wireShort (header.getD 2 0) (header.getD 3 0)

/-- The framing as the receiver understands it: a size that is not positive
announces no payload. -/
def wireFraming : Framing UInt8 where
  headerLength := 4
  headerLength_pos := Framing.four_pos
  payloadLength h := (headerSize h).toInt.toNat

def messageOf (frame : List UInt8) : MultiplexedMessage :=
  ⟨headerPort frame, headerSize frame, frame.drop 4⟩

/-- The size of the header `f` starts with, if it is whole, fits the buffer. -/
def SizeInRange (f : List UInt8) : Prop :=
  4 ≤ f.length → 0 ≤ (headerSize f).toInt ∧ (headerSize f).toInt ≤ bufferSize

/-- A receiver that works and has taken in the bytes `taken`. -/
structure Receiving (s : ReceiverState) (taken : List UInt8) : Prop where
  work : s.work = true
  buffer : s.buffer.length = bufferSize
  queued : s.queued = (wireFraming.assemble taken).1.map fun f => some (messageOf f)
  pc : match s.pc with
    | .header read => 0 < read.size ∧ (read.offset : Int) + read.size = 4 ∧
        (wireFraming.assemble taken).2 = s.buffer.take read.offset
    | .payload port size read => 0 < read.size ∧ (read.offset : Int) + read.size = size.toInt ∧
        size.toInt ≤ bufferSize ∧ ∃ header : List UInt8, header.length = 4 ∧
          headerPort header = port ∧ headerSize header = size ∧
          (wireFraming.assemble taken).2 = header ++ s.buffer.take read.offset
    | .stopped | .fault => False

/-! ## One arrival -/

theorem fill_cases {s t : ReceiverState} {read : ReadAll} {bytes : List UInt8}
    {more : ReadAll → ReceiverPc} {done : ReceiverState → ReceiverState}
    (h : s.fill read bytes more done = some t) :
    bytes ≠ [] ∧ (bytes.length : Int) ≤ read.size ∧
      ((¬read.offset + bytes.length ≤ s.buffer.length ∧ t = { s with pc := .fault }) ∨
        (read.offset + bytes.length ≤ s.buffer.length ∧ ∃ buffer : List UInt8,
          buffer.length = s.buffer.length ∧
          buffer.take (read.offset + bytes.length) = s.buffer.take read.offset ++ bytes ∧
          (((bytes.length : Int) < read.size ∧
              t = { s with buffer, pc := more ⟨read.offset + bytes.length, read.size - bytes.length⟩ }) ∨
            ((bytes.length : Int) = read.size ∧ t = done { s with buffer })))) := by
  unfold ReceiverState.fill at h
  split at h
  · next hlen =>
    have hne : bytes ≠ [] := by
      intro hnil
      simp [hnil] at hlen
    refine ⟨hne, hlen.2, ?_⟩
    cases hstore : CMemory.store s.buffer read.offset bytes with
    | none =>
        rw [hstore] at h
        cases h
        refine .inl ⟨fun hle => ?_, rfl⟩
        obtain ⟨buffer, hbuffer⟩ := CMemory.store_of_le hle
        rw [hstore] at hbuffer
        cases hbuffer
    | some buffer =>
        rw [hstore] at h
        have hle : read.offset + bytes.length ≤ s.buffer.length := by
          unfold CMemory.store at hstore
          split at hstore
          · assumption
          · cases hstore
        refine .inr ⟨hle, buffer, CMemory.store_length hstore, CMemory.store_take hstore, ?_⟩
        simp only at h
        split at h
        · cases h
          exact .inl ⟨by omega, rfl⟩
        · cases h
          exact .inr ⟨by omega, rfl⟩
  · cases h

/-- Where the read ends inside the buffer. -/
theorem fill_eq {s : ReceiverState} {read : ReadAll} {bytes : List UInt8}
    {more : ReadAll → ReceiverPc} {done : ReceiverState → ReceiverState} {s' : ReceiverState}
    (hbuffer : s.buffer.length = bufferSize) (hend : read.offset + read.size ≤ bufferSize)
    (h : s.fill read bytes more done = some s') :
    bytes ≠ [] ∧ (bytes.length : Int) ≤ read.size ∧
      ∃ buffer : List UInt8, buffer.length = bufferSize ∧
        buffer.take (read.offset + bytes.length) = s.buffer.take read.offset ++ bytes ∧
        (((bytes.length : Int) < read.size ∧
            s' = { s with buffer, pc := more ⟨read.offset + bytes.length, read.size - bytes.length⟩ }) ∨
          ((bytes.length : Int) = read.size ∧ s' = done { s with buffer })) := by
  obtain ⟨hne, hle, ⟨hout, -⟩ | ⟨-, buffer, hlen, htake, hcase⟩⟩ := fill_cases h
  · omega
  · exact ⟨hne, hle, buffer, hlen.trans hbuffer, htake, hcase⟩

/-- A header and a part of its payload are a frame when the payload is whole. -/
theorem isFrame_header_append {header : List UInt8} (h : header.length = 4) (payload : List UInt8) :
    wireFraming.IsFrame (header ++ payload) ↔
      payload.length = (headerSize header).toInt.toNat := by
  have htake : (header ++ payload).take 4 = header := by
    rw [List.take_append_of_le_length (by omega), List.take_of_length_le (by omega)]
  unfold Framing.IsFrame
  simp only [wireFraming, htake, List.length_append, h]
  omega

theorem headerSize_append {header payload : List UInt8} (h : header.length = 4) :
    headerSize (header ++ payload) = headerSize header := by
  match header, h with
  | [_, _, _, _], _ => rfl

theorem headerPort_append {header payload : List UInt8} (h : header.length = 4) :
    headerPort (header ++ payload) = headerPort header := by
  match header, h with
  | [_, _, _, _], _ => rfl

theorem messageOf_append {header : List UInt8} (h : header.length = 4) (payload : List UInt8) :
    messageOf (header ++ payload) = ⟨headerPort header, headerSize header, payload⟩ := by
  unfold messageOf
  rw [headerPort_append h, headerSize_append h, ← h, List.drop_left]

/-- Bytes that do not go beyond a header. -/
theorem assemble_header_piece (taken : List UInt8) {bytes : List UInt8} (hne : bytes ≠ [])
    (hlength : (wireFraming.assemble taken).2.length + bytes.length ≤ 4) :
    wireFraming.assemble (taken ++ bytes) =
      if wireFraming.IsFrame ((wireFraming.assemble taken).2 ++ bytes) then
        ((wireFraming.assemble taken).1 ++ [(wireFraming.assemble taken).2 ++ bytes], [])
      else ((wireFraming.assemble taken).1, (wireFraming.assemble taken).2 ++ bytes) := by
  apply Framing.assemble_piece taken bytes hne
  intro pre _ hpre hproper
  apply Framing.not_isFrame_of_short
  have hlt : pre.length < bytes.length :=
    Nat.lt_of_le_of_ne hpre.length_le fun heq => hproper (hpre.eq_of_length heq)
  rw [List.length_append]
  show _ < 4
  omega

/-- Bytes that do not go beyond the payload. -/
theorem assemble_payload_piece {taken bytes header part : List UInt8} (hne : bytes ≠ [])
    (hheader : header.length = 4) (hcur : (wireFraming.assemble taken).2 = header ++ part)
    (hlength : part.length + bytes.length ≤ (headerSize header).toInt.toNat) :
    wireFraming.assemble (taken ++ bytes) =
      if wireFraming.IsFrame (header ++ (part ++ bytes)) then
        ((wireFraming.assemble taken).1 ++ [header ++ (part ++ bytes)], [])
      else ((wireFraming.assemble taken).1, header ++ (part ++ bytes)) := by
  have hassemble := Framing.assemble_piece (F := wireFraming) taken bytes hne (by
    intro pre _ hpre hproper
    have hlt : pre.length < bytes.length :=
      Nat.lt_of_le_of_ne hpre.length_le fun heq => hproper (hpre.eq_of_length heq)
    rw [hcur, List.append_assoc, isFrame_header_append hheader, List.length_append]
    omega)
  rw [hcur, List.append_assoc] at hassemble
  exact hassemble

theorem Receiving.start {s : ReceiverState} {taken : List UInt8} (hwork : s.work = true)
    (hqueued : s.queued = (wireFraming.assemble taken).1.map fun f => some (messageOf f))
    (hcur : (wireFraming.assemble taken).2 = []) : Receiving s.loop taken := by
  rw [ReceiverState.loop, if_pos hwork]
  exact ⟨hwork, by simp, hqueued, by decide, by decide, by simpa using hcur⟩

/-- The frame that ends the bytes taken in is handed on. -/
theorem Receiving.deliver {s : ReceiverState} {taken header payload : List UInt8}
    {done : List (List UInt8)} (hwork : s.work = true) (hbuffer : s.buffer.length = bufferSize)
    (hqueued : s.queued = done.map fun f => some (messageOf f))
    (htaken : wireFraming.assemble taken = (done ++ [header ++ payload], []))
    (hheader : header.length = 4)
    (hsize : 0 ≤ (headerSize header).toInt ∧ (headerSize header).toInt ≤ bufferSize)
    (hpayload : payload.length = (headerSize header).toInt.toNat)
    (hcopy : s.buffer.take payload.length = payload) :
    Receiving (s.deliver (headerPort header) (headerSize header)) taken := by
  have hnat : (headerSize header).toNat = payload.length := by
    rw [hpayload]
    have hint := BitVec.toInt_eq_toNat_cond (headerSize header)
    have hlt := (headerSize header).isLt
    split at hint <;> omega
  have hload : CMemory.load s.buffer 0 (headerSize header).toNat = some payload := by
    rw [hnat, CMemory.load_zero_of_le (by rw [hbuffer]; omega), hcopy]
  have hmessage := messageOf_append hheader payload
  rw [ReceiverState.deliver, if_neg (by omega), hload]
  have hnext : s.queued ++ [some ⟨headerPort header, headerSize header, payload⟩] =
      (wireFraming.assemble taken).1.map fun f => some (messageOf f) := by
    rw [htaken, List.map_append, hqueued]
    simp [hmessage]
  exact Receiving.start (s := { s with queued := s.queued ++
    [some ⟨headerPort header, headerSize header, payload⟩] }) hwork hnext (by rw [htaken])

theorem Receiving.header {s s' : ReceiverState} {taken bytes : List UInt8} {read : ReadAll}
    (h : Receiving s taken) (hpc : s.pc = .header read) (hs : s.arrive bytes = some s')
    (hsize : SizeInRange ((wireFraming.assemble taken).2 ++ bytes)) :
    Receiving s' (taken ++ bytes) := by
  have hread := h.pc
  rw [hpc] at hread
  obtain ⟨hpos, hsum, hcur⟩ := hread
  have hmax : (bufferSize : Int) = 4000 := rfl
  simp only [ReceiverState.arrive, hpc] at hs
  obtain ⟨hne, hle, buffer, hlen, htake, hcase⟩ := fill_eq h.buffer (by omega) hs
  have hcurlen : (wireFraming.assemble taken).2.length = read.offset := by
    rw [hcur, List.length_take, h.buffer]
    omega
  have hassemble := assemble_header_piece taken hne (by omega)
  rcases hcase with ⟨hmore, rfl⟩ | ⟨hwhole, rfl⟩
  · -- the header is still incomplete
    have hshort : ¬wireFraming.IsFrame ((wireFraming.assemble taken).2 ++ bytes) := by
      apply Framing.not_isFrame_of_short
      rw [List.length_append, hcurlen]
      show _ < 4
      omega
    rw [if_neg hshort] at hassemble
    refine ⟨h.work, hlen, ?_, ?_, ?_, ?_⟩
    · rw [hassemble]
      exact h.queued
    · show 0 < read.size - bytes.length
      omega
    · show ((read.offset + bytes.length : Nat) : Int) + (read.size - bytes.length) = 4
      omega
    · rw [hassemble, htake, hcur]
  · -- the header is whole
    have hheader : ((wireFraming.assemble taken).2 ++ bytes).length = 4 := by
      rw [List.length_append, hcurlen]
      omega
    have hbytes : buffer.take 4 = (wireFraming.assemble taken).2 ++ bytes := by
      have hfour : read.offset + bytes.length = 4 := by omega
      rw [← hfour, htake, hcur]
    have hrange := hsize (by omega)
    have hframe := isFrame_header_append hheader []
    rw [List.append_nil, List.length_nil] at hframe
    obtain ⟨b0, b1, b2, b3, rest, rfl⟩ : ∃ b0 b1 b2 b3 rest, buffer = b0 :: b1 :: b2 :: b3 :: rest := by
      match buffer, hlen with
      | b0 :: b1 :: b2 :: b3 :: rest, _ => exact ⟨b0, b1, b2, b3, rest, rfl⟩
    have hport : headerPort ((wireFraming.assemble taken).2 ++ bytes) = wireShort b0 b1 := by
      rw [← hbytes]
      rfl
    have hwire : headerSize ((wireFraming.assemble taken).2 ++ bytes) = wireShort b2 b3 := by
      rw [← hbytes]
      rfl
    simp only [ReceiverState.decodeHeader]
    by_cases hempty : (wireShort b2 b3).toInt > 0
    · rw [if_pos hempty]
      rw [if_neg (by rw [hframe, hwire]; omega)] at hassemble
      refine ⟨h.work, hlen, ?_, hempty, ?_, ?_, _, hheader, hport, hwire, ?_⟩
      · rw [hassemble]
        exact h.queued
      · simp
      · rw [← hwire]
        exact hrange.2
      · rw [hassemble]
        simp
    · rw [if_neg hempty, ← hport, ← hwire]
      rw [hwire] at hrange
      rw [if_pos (by rw [hframe, hwire]; omega)] at hassemble
      have hended : wireFraming.assemble (taken ++ bytes) = ((wireFraming.assemble taken).1 ++
          [((wireFraming.assemble taken).2 ++ bytes) ++ []], []) := by
        simpa using hassemble
      apply Receiving.deliver (s := { s with buffer := b0 :: b1 :: b2 :: b3 :: rest }) h.work hlen
        h.queued hended hheader
      · rw [hwire]
        exact hrange
      · rw [hwire, List.length_nil]
        omega
      · rfl

theorem Receiving.payload {s s' : ReceiverState} {taken bytes : List UInt8} {port size : Short}
    {read : ReadAll} (h : Receiving s taken) (hpc : s.pc = .payload port size read)
    (hs : s.arrive bytes = some s') : Receiving s' (taken ++ bytes) := by
  have hread := h.pc
  rw [hpc] at hread
  obtain ⟨hpos, hsum, hmax, header, hheader, hport, hwire, hcur⟩ := hread
  simp only [ReceiverState.arrive, hpc] at hs
  obtain ⟨hne, hle, buffer, hlen, htake, hcase⟩ := fill_eq h.buffer (by omega) hs
  have htook : (s.buffer.take read.offset).length = read.offset := by
    rw [List.length_take, h.buffer]
    omega
  have hassemble := assemble_payload_piece hne hheader hcur (by rw [htook, hwire]; omega)
  have hframe := isFrame_header_append hheader (s.buffer.take read.offset ++ bytes)
  rw [List.length_append, htook, hwire] at hframe
  rcases hcase with ⟨hmore, rfl⟩ | ⟨hwhole, rfl⟩
  · rw [if_neg (by rw [hframe]; omega), ← htake] at hassemble
    refine ⟨h.work, hlen, ?_, ?_, ?_, hmax, header, hheader, hport, hwire, ?_⟩
    · rw [hassemble]
      exact h.queued
    · show 0 < read.size - bytes.length
      omega
    · show ((read.offset + bytes.length : Nat) : Int) + (read.size - bytes.length) = size.toInt
      omega
    · rw [hassemble]
  · rw [if_pos (by rw [hframe]; omega), ← htake] at hassemble
    have hcopied : (buffer.take (read.offset + bytes.length)).length =
        read.offset + bytes.length := by
      rw [List.length_take, hlen]
      omega
    subst hport hwire
    apply Receiving.deliver (s := { s with buffer }) h.work hlen h.queued hassemble hheader
    · omega
    · rw [hcopied]
      omega
    · rw [hcopied]

/-- The receiver follows the cutting of the stream, however it arrives. -/
theorem Receiving.arrive {s s' : ReceiverState} {taken bytes : List UInt8} (h : Receiving s taken)
    (hs : s.arrive bytes = some s')
    (hsize : SizeInRange ((wireFraming.assemble taken).2 ++ bytes)) :
    Receiving s' (taken ++ bytes) := by
  cases hpc : s.pc with
  | header read => exact h.header hpc hs hsize
  | payload port size read => exact h.payload hpc hs
  | stopped => simp [ReceiverState.arrive, hpc] at hs
  | fault => simp [ReceiverState.arrive, hpc] at hs

/-- A receiver takes any number of bytes from one up to what it asked for. -/
theorem Receiving.ready {s : ReceiverState} {taken : List UInt8} (h : Receiving s taken) :
    ∃ requested, 0 < requested ∧ ∀ bytes : List UInt8, 1 ≤ bytes.length →
      bytes.length ≤ requested → (s.arrive bytes).isSome := by
  have hfill : ∀ (read : ReadAll) (bytes : List UInt8) (more : ReadAll → ReceiverPc)
      (done : ReceiverState → ReceiverState), 1 ≤ bytes.length → bytes.length ≤ read.size.toNat →
      0 < read.size → (s.fill read bytes more done).isSome := by
    intro read bytes more done hone hle hpos
    rw [ReceiverState.fill, if_pos ⟨hone, by omega⟩]
    split
    · rfl
    · split <;> rfl
  have hpc := h.pc
  cases hcase : s.pc with
  | header read =>
      rw [hcase] at hpc
      refine ⟨read.size.toNat, by omega, fun bytes hone hle => ?_⟩
      simp only [ReceiverState.arrive, hcase]
      exact hfill read bytes _ _ hone hle hpc.1
  | payload port size read =>
      rw [hcase] at hpc
      refine ⟨read.size.toNat, by omega, fun bytes hone hle => ?_⟩
      simp only [ReceiverState.arrive, hcase]
      exact hfill read bytes _ _ hone hle hpc.1
  | stopped =>
      rw [hcase] at hpc
      exact hpc.elim
  | fault =>
      rw [hcase] at hpc
      exact hpc.elim

theorem Receiving.initial : Receiving .initial [] := by
  exact ⟨rfl, by simp [ReceiverState.initial], rfl, by decide, by decide, rfl⟩

end AapBridge.Accessory
