import AapBridge.Accessory.InBounds
import AapBridge.Accessory.QueueOrder

/-! # From the receiver thread to the end of the connection

The receiver thread, the receive queue and the main thread of one connection:
the messaging loop, `deInitServer` behind it and in that `deInitreceiveQueue`.
The receiver adds what it queues one call at a time and tests `work` again when
a call returns. Each frame that was read completely reaches
`sendToCorrectService`, and the sentinel is the last entry of the queue.
-/

namespace AapBridge.Accessory

open AapBridge.Lib

/-! ## The frames a receiver has read -/

/-- The messages of the complete frames among the bytes `taken`. -/
def messagesIn (taken : List UInt8) : List MultiplexedMessage :=
  (wireFraming.assemble taken).1.map messageOf

/-- What a receiver that has taken in `taken` hands to the queue, also one
whose `work` was cleared and one that met a size it does not survive. -/
structure Cuts (s : ReceiverState) (taken : List UInt8) : Prop where
  reading : Reading s
  queued : match s.pc with
    | .header _ | .payload _ _ _ => s.queued = (messagesIn taken).map some
    | .stopped => s.queued = (messagesIn taken).map some ++ [none]
    | .fault => s.queued <+: (messagesIn taken).map some
  current : match s.pc with
    | .header read => (wireFraming.assemble taken).2 = s.buffer.take read.offset
    | .payload port size read => ∃ header : List UInt8, header.length = 4 ∧
        headerPort header = port ∧ headerSize header = size ∧
        (wireFraming.assemble taken).2 = header ++ s.buffer.take read.offset
    | .stopped | .fault => True

theorem Cuts.initial : Cuts .initial [] := ⟨.initial, rfl, rfl⟩

/-- The test of the loop between two frames. -/
theorem Cuts.loop {s : ReceiverState} {taken : List UInt8} (hbuffer : s.buffer.length = bufferSize)
    (hqueued : s.queued = (messagesIn taken).map some)
    (hcur : (wireFraming.assemble taken).2 = []) : Cuts s.loop taken := by
  have hreading := (Reading.loop hbuffer).2
  unfold ReceiverState.loop at hreading ⊢
  split at hreading
  · next hwork =>
      rw [if_pos hwork]
      exact ⟨hreading, hqueued, by simpa using hcur⟩
  · next hwork =>
      rw [if_neg hwork]
      constructor
      · exact hreading
      · show s.queued ++ [none] = (messagesIn taken).map some ++ [none]
        rw [hqueued]
      · trivial

theorem Cuts.deliver {s : ReceiverState} {taken header payload : List UInt8}
    {done : List (List UInt8)} (hbuffer : s.buffer.length = bufferSize)
    (hqueued : s.queued = (done.map messageOf).map some)
    (htaken : wireFraming.assemble taken = (done ++ [header ++ payload], []))
    (hheader : header.length = 4)
    (hpayload : payload.length = (headerSize header).toInt.toNat)
    (hcopy : s.buffer.take payload.length = payload) :
    Cuts (s.deliver (headerPort header) (headerSize header)) taken := by
  have hmessages : messagesIn taken =
      done.map messageOf ++ [⟨headerPort header, headerSize header, payload⟩] := by
    unfold messagesIn
    rw [htaken, List.map_append, List.map_singleton, messageOf_append hheader]
  have hfault : Cuts { s with pc := .fault } taken := by
    constructor
    · exact ⟨hbuffer, trivial⟩
    · show s.queued <+: (messagesIn taken).map some
      rw [hmessages, List.map_append, hqueued]
      exact List.prefix_append _ _
    · trivial
  unfold ReceiverState.deliver
  by_cases hneg : (headerSize header).toInt < 0
  · rw [if_pos hneg]
    exact hfault
  · rw [if_neg hneg]
    have hnat : (headerSize header).toNat = payload.length := by
      rw [hpayload]
      have hint := BitVec.toInt_eq_toNat_cond (headerSize header)
      have hlt := (headerSize header).isLt
      split at hint <;> omega
    cases hload : CMemory.load s.buffer 0 (headerSize header).toNat with
    | none => exact hfault
    | some data =>
        have hdata : data = payload := by
          unfold CMemory.load at hload
          split at hload
          · rw [hnat, List.drop_zero, hcopy] at hload
            exact (Option.some.inj hload).symm
          · cases hload
        subst hdata
        show Cuts (ReceiverState.loop { s with queued := s.queued ++
          [some ⟨headerPort header, headerSize header, data⟩] }) taken
        apply Cuts.loop
        · exact hbuffer
        · show s.queued ++ [some _] = _
          rw [hmessages, List.map_append, hqueued]
          rfl
        · rw [htaken]

theorem messagesIn_prefix (taken bytes : List UInt8) :
    messagesIn taken <+: messagesIn (taken ++ bytes) := by
  unfold messagesIn
  rw [Framing.assemble_append]
  exact (Framing.feedAll_prefix _ _).map messageOf

/-- A store outside the buffer ends the receiver with what it had queued. -/
theorem Cuts.outside {s : ReceiverState} {taken : List UInt8} (h : Cuts s taken)
    (hqueued : s.queued = (messagesIn taken).map some) (bytes : List UInt8) :
    Cuts { s with pc := .fault } (taken ++ bytes) := by
  constructor
  · exact ⟨h.reading.buffer, trivial⟩
  · show s.queued <+: _
    rw [hqueued]
    exact ( messagesIn_prefix taken bytes).map some
  · trivial

theorem Cuts.header {s t : ReceiverState} {taken bytes : List UInt8} {read : ReadAll}
    (h : Cuts s taken) (hpc : s.pc = .header read) (hs : s.arrive bytes = some t) :
    Cuts t (taken ++ bytes) := by
  have hread := h.reading.pc
  have hqueued := h.queued
  have hcur := h.current
  rw [hpc] at hread
  simp only [hpc] at hqueued hcur
  obtain ⟨hpos, hsum⟩ := hread
  have hmax : bufferSize = 4000 := rfl
  have hbuffer := h.reading.buffer
  simp only [ReceiverState.arrive, hpc] at hs
  obtain ⟨hne, hle, buffer, hlen, htake, hcase⟩ := fill_eq hbuffer (by omega) hs
  have hcurlen : (wireFraming.assemble taken).2.length = read.offset := by
    rw [hcur, List.length_take, hbuffer]
    omega
  have hassemble := assemble_header_piece taken hne (by omega)
  rcases hcase with ⟨hmore, rfl⟩ | ⟨hwhole, rfl⟩
  · -- the header is still incomplete
    have hshort : ¬wireFraming.IsFrame ((wireFraming.assemble taken).2 ++ bytes) := by
      apply Framing.not_isFrame_of_short
      rw [List.length_append, hcurlen]
      show _ < 4
      omega
    rw [if_neg hshort] at hassemble
    refine ⟨⟨hlen, ?_, ?_⟩, ?_, ?_⟩
    · show 0 < read.size - bytes.length
      omega
    · show ((read.offset + bytes.length : Nat) : Int) + (read.size - bytes.length) = 4
      omega
    · show s.queued = (messagesIn (taken ++ bytes)).map some
      rw [messagesIn, hassemble]
      exact hqueued
    · show (wireFraming.assemble (taken ++ bytes)).2 = buffer.take (read.offset + bytes.length)
      rw [hassemble, htake, hcur]
  · -- the header is whole
    have hheader : ((wireFraming.assemble taken).2 ++ bytes).length = 4 := by
      rw [List.length_append, hcurlen]
      omega
    have hbytes : buffer.take 4 = (wireFraming.assemble taken).2 ++ bytes := by
      have hfour : read.offset + bytes.length = 4 := by omega
      rw [← hfour, htake, hcur]
    have hframe := isFrame_header_append hheader []
    rw [List.append_nil, List.length_nil] at hframe
    obtain ⟨b0, b1, b2, b3, rest, rfl⟩ := CMemory.exists_four_cons (show 4 ≤ buffer.length by omega)
    · have hport : headerPort ((wireFraming.assemble taken).2 ++ bytes) = wireShort b0 b1 := by
        rw [← hbytes]
        rfl
      have hwire : headerSize ((wireFraming.assemble taken).2 ++ bytes) = wireShort b2 b3 := by
        rw [← hbytes]
        rfl
      simp only [ReceiverState.decodeHeader]
      by_cases hsize : (wireShort b2 b3).toInt > 0
      · rw [if_pos hsize]
        rw [if_neg (by rw [hframe, hwire]; omega)] at hassemble
        refine ⟨⟨hlen, hsize, by simp⟩, ?_, ?_⟩
        · show s.queued = (messagesIn (taken ++ bytes)).map some
          rw [messagesIn, hassemble]
          exact hqueued
        · exact ⟨_, hheader, hport, hwire, by rw [hassemble]; simp⟩
      · rw [if_neg hsize, ← hport, ← hwire]
        rw [if_pos (by rw [hframe, hwire]; omega)] at hassemble
        have hended : wireFraming.assemble (taken ++ bytes) = ((wireFraming.assemble taken).1 ++
            [((wireFraming.assemble taken).2 ++ bytes) ++ []], []) := by
          simpa using hassemble
        apply Cuts.deliver (s := { s with buffer := b0 :: b1 :: b2 :: b3 :: rest }) hlen
          hqueued hended hheader
        · rw [hwire, List.length_nil]
          omega
        · rfl

theorem Cuts.payload {s t : ReceiverState} {taken bytes : List UInt8} {port size : Short}
    {read : ReadAll} (h : Cuts s taken) (hpc : s.pc = .payload port size read)
    (hs : s.arrive bytes = some t) : Cuts t (taken ++ bytes) := by
  have hread := h.reading.pc
  have hqueued := h.queued
  have hcurrent := h.current
  rw [hpc] at hread
  simp only [hpc] at hqueued hcurrent
  obtain ⟨hpos, hsum⟩ := hread
  obtain ⟨header, hheader, hport, hwire, hcur⟩ := hcurrent
  have hbuffer := h.reading.buffer
  simp only [ReceiverState.arrive, hpc] at hs
  obtain ⟨hne, hle, ⟨-, rfl⟩ | ⟨hin, buffer, hlen, htake, hcase⟩⟩ := fill_cases hs
  · exact h.outside hqueued bytes
  · have htook : (s.buffer.take read.offset).length = read.offset := by
      rw [List.length_take, hbuffer]
      omega
    have hassemble := assemble_payload_piece hne hheader hcur (by rw [htook, hwire]; omega)
    have hframe := isFrame_header_append hheader (s.buffer.take read.offset ++ bytes)
    rw [List.length_append, htook, hwire] at hframe
    rcases hcase with ⟨hmore, rfl⟩ | ⟨hwhole, rfl⟩
    · rw [if_neg (by rw [hframe]; omega), ← htake] at hassemble
      refine ⟨⟨hlen.trans hbuffer, ?_, ?_⟩, ?_, header, hheader, hport, hwire, ?_⟩
      · show 0 < read.size - bytes.length
        omega
      · show ((read.offset + bytes.length : Nat) : Int) + (read.size - bytes.length) = size.toInt
        omega
      · show s.queued = (messagesIn (taken ++ bytes)).map some
        rw [messagesIn, hassemble]
        exact hqueued
      · rw [hassemble]
    · rw [if_pos (by rw [hframe]; omega), ← htake] at hassemble
      have hcopied : (buffer.take (read.offset + bytes.length)).length =
          read.offset + bytes.length := by
        rw [List.length_take, hlen]
        omega
      subst hport hwire
      apply Cuts.deliver (s := { s with buffer }) (hlen.trans hbuffer) hqueued hassemble hheader
      · omega
      · rw [hcopied]

theorem Cuts.arrive {s t : ReceiverState} {taken bytes : List UInt8} (h : Cuts s taken)
    (hs : s.arrive bytes = some t) : Cuts t (taken ++ bytes) := by
  cases hpc : s.pc with
  | header read => exact h.header hpc hs
  | payload port size read => exact h.payload hpc hs
  | stopped => simp [ReceiverState.arrive, hpc] at hs
  | fault => simp [ReceiverState.arrive, hpc] at hs

/-- The frame at hand is given up. -/
theorem Cuts.error {s t : ReceiverState} {taken : List UInt8} (h : Cuts s taken)
    (hs : s.error = some t) : Cuts t taken := by
  have hqueued := h.queued
  have hstop : s.queued = (messagesIn taken).map some → Cuts s.stop taken := by
    intro hall
    constructor
    · exact h.reading.stop
    · show s.queued ++ [none] = (messagesIn taken).map some ++ [none]
      rw [hall]
    · trivial
  unfold ReceiverState.error at hs
  cases hpc : s.pc with
  | header read =>
      simp only [hpc] at hs hqueued
      cases hs
      exact hstop hqueued
  | payload port size read =>
      simp only [hpc] at hs hqueued
      cases hs
      exact hstop hqueued
  | stopped =>
      simp only [hpc] at hs
      cases hs
  | fault =>
      simp only [hpc] at hs
      cases hs

theorem Cuts.clearWork {s : ReceiverState} {taken : List UInt8} (h : Cuts s taken) :
    Cuts { s with work := false } taken :=
  ⟨⟨h.reading.buffer, h.reading.pc⟩, h.queued, h.current⟩

/-! ## A thread inside the queue -/

/-- What a call of `addreceivequeue` has not stored yet. -/
def QueuePc.pending : QueuePc → List (Option MultiplexedMessage)
  | .addWait message | .addLock message | .addBody message => [message]
  | _ => []

/-- What a call of `pollReceiveQueue` is about to return. -/
def QueuePc.fetched : QueuePc → List (Option MultiplexedMessage)
  | .pollPost retval | .pollUnlock retval => [retval]
  | _ => []

def QueuePc.adds : QueuePc → Bool
  | .addWait _ | .addLock _ | .addBody _ | .addPost | .addUnlock => true
  | _ => false

def QueuePc.polls : QueuePc → Bool
  | .pollWait | .pollLock | .pollBody | .pollPost _ | .pollUnlock _ => true
  | _ => false

section Queue

variable {Tid : Type*} [Fintype Tid] [DecidableEq Tid]

theorem QueueInv.receiveQueue_step {s s' : QueueState Tid} (h : QueueInv s) {a : QueueLabel Tid}
    (hstep : receiveQueue.step s a = some s') : QueueInv s' := by
  change queueStep _ s a = some s' at hstep
  exact h.step hstep

/-- A step inside `addreceivequeue` stores the message or leaves the entries alone. -/
theorem QueueInv.adder_step {s s' : QueueState Tid} (h : QueueInv s) {dropText : Int → String}
    {t : Tid} (hadds : (s.pc t).adds) (hstep : threadStep dropText s t = some s') :
    ∃ pc, s'.pc = Function.update s.pc t pc ∧ (pc.adds ∨ pc = .idle) ∧
      s'.added ++ pc.pending = s.added ++ (s.pc t).pending ∧ s'.polled = s.polled := by
  unfold threadStep at hstep
  cases hpc : s.pc t with
  | addWait message =>
      simp only [hpc] at hstep
      split at hstep
      · cases hstep
        exact ⟨.addLock message, rfl, .inl rfl, rfl, rfl⟩
      · cases hstep
  | addLock message =>
      simp only [hpc] at hstep
      split at hstep
      · cases hstep
        exact ⟨.addBody message, rfl, .inl rfl, rfl, rfl⟩
      · cases hstep
  | addBody message =>
      simp only [hpc, h.addSection_stored hpc dropText] at hstep
      cases hstep
      exact ⟨.addPost, rfl, .inl rfl, List.append_nil _, rfl⟩
  | addPost =>
      simp only [hpc] at hstep
      cases hstep
      exact ⟨.addUnlock, rfl, .inl rfl, rfl, rfl⟩
  | addUnlock =>
      simp only [hpc] at hstep
      cases hstep
      exact ⟨.idle, rfl, .inr rfl, rfl, rfl⟩
  | idle | pollWait | pollLock | pollBody | pollPost _ | pollUnlock _ =>
      rw [hpc] at hadds
      cases hadds

/-- A step inside `pollReceiveQueue` other than its return; `before` is what
earlier calls took. -/
theorem QueueInv.poller_step {s s' : QueueState Tid} (h : QueueInv s) {dropText : Int → String}
    {t : Tid} (hpolls : (s.pc t).polls) (hlast : ∀ retval, s.pc t ≠ .pollUnlock retval)
    (hstep : threadStep dropText s t = some s') :
    ∃ pc, s'.pc = Function.update s.pc t pc ∧ pc.polls ∧ s'.added = s.added ∧
      ∀ before, s.polled = before ++ (s.pc t).fetched → s'.polled = before ++ pc.fetched := by
  unfold threadStep at hstep
  cases hpc : s.pc t with
  | pollWait =>
      simp only [hpc] at hstep
      split at hstep
      · cases hstep
        exact ⟨.pollLock, rfl, rfl, rfl, fun _ hbefore => hbefore⟩
      · cases hstep
  | pollLock =>
      simp only [hpc] at hstep
      split at hstep
      · cases hstep
        exact ⟨.pollBody, rfl, rfl, rfl, fun _ hbefore => hbefore⟩
      · cases hstep
  | pollBody =>
      simp only [hpc, h.pollSection_oldest] at hstep
      cases hstep
      refine ⟨.pollPost _, rfl, rfl, rfl, fun before hbefore => ?_⟩
      rw [show s.polled = before from hbefore.trans (List.append_nil before)]
      rfl
  | pollPost retval =>
      simp only [hpc] at hstep
      cases hstep
      exact ⟨.pollUnlock retval, rfl, rfl, rfl, fun _ hbefore => hbefore⟩
  | pollUnlock retval => exact absurd hpc (hlast retval)
  | idle | addWait _ | addLock _ | addBody _ | addPost | addUnlock =>
      rw [hpc] at hpolls
      cases hpolls

end Queue

/-! ## The three threads -/

inductive ConnectionThread where
  | receive
  | main
deriving DecidableEq

theorem ConnectionThread.main_ne_receive : ConnectionThread.main ≠ .receive := nofun

instance : Fintype ConnectionThread where
  elems := {.receive, .main}
  complete t := by cases t <;> decide

/-- The main thread, from `initServer` on. -/
inductive ServerPc where
  /-- `msg = pollReceiveQueue()`. -/
  | poll
  | sendToCorrectService (msg : MultiplexedMessage)
  /-- `deInitServer` up to `pthread_join`. -/
  | deInitServer
  | deInitreceiveQueue
  | closed
  | fault
deriving DecidableEq

/-- The first `handedOver` entries of `receiver.queued` are arguments of
`addreceivequeue` so far; the thread is `busy` in a call of it or has yet to test
`work`. `taken` are the bytes the receiver has read and `dispatched` the
arguments of `sendToCorrectService`. -/
structure ConnectionState where
  receiver : ReceiverState
  handedOver : Nat
  busy : Bool
  queue : QueueState ConnectionThread
  main : ServerPc
  taken : List UInt8
  dispatched : List MultiplexedMessage

inductive ConnectionLabel where
  | bytes (bs : List UInt8)
  | error
  /-- Another thread sets `bridge->work = 0`. -/
  | clearWork
  | receive
  | main

/-- The loop of `deInitreceiveQueue`; its body takes an entry as
`pollReceiveQueue` does and frees what it points to. -/
def freeMessages : Nat → MessageQueue → Option MessageQueue
  | rounds, q =>
      if q.messages = 0 then some q
      else match rounds with
        | 0 => none
        | rounds + 1 =>
            match pollSection q with
            | some (some _, q) => freeMessages rounds q
            | some (none, _) | none => none

namespace ConnectionState

variable (s : ConnectionState)

/-- The receiver thread reads; it is in no call of `addreceivequeue`. -/
def read (t : Option ReceiverState) (bytes : List UInt8) : Option ConnectionState :=
  if s.busy = false ∧ s.handedOver = s.receiver.queued.length then
    t.map fun receiver => { s with receiver, taken := s.taken ++ bytes }
  else none

/-- `addreceivequeue` has returned; the loop tests `work`. -/
def returned : ConnectionState :=
  { s with
    busy := false
    receiver := match s.receiver.pc with
      | .header _ => s.receiver.loop
      | _ => s.receiver }

/-- A step of the receiver thread in or around `addreceivequeue`. -/
def receive : Option ConnectionState :=
  if s.busy then
    match s.queue.pc .receive with
    | .idle => some s.returned
    | _ => (receiveQueue.step s.queue (.run .receive)).map fun queue => { s with queue }
  else match s.receiver.queued[s.handedOver]? with
    | some message => (receiveQueue.step s.queue (.callAdd .receive message)).map fun queue =>
        { s with queue, handedOver := s.handedOver + 1, busy := true }
    | none => none

/-- `pollReceiveQueue` returns to the messaging loop. -/
def polled (retval : Option MultiplexedMessage) : ServerPc :=
  match retval with
  | some msg => .sendToCorrectService msg
  | none => .deInitServer

/-- The receiver thread has returned from its function. -/
def receiverEnded : Prop :=
  match s.receiver.pc with
  | .stopped => s.busy = false ∧ s.handedOver = s.receiver.queued.length
  | _ => False

instance : Decidable s.receiverEnded := by
  unfold receiverEnded
  split <;> infer_instance

def mainStep : Option ConnectionState :=
  match s.main with
  | .poll =>
      match s.queue.pc .main with
      | .idle => (receiveQueue.step s.queue (.callPoll .main)).map fun queue => { s with queue }
      | .pollUnlock retval => (receiveQueue.step s.queue (.run .main)).map fun queue =>
          { s with queue, main := polled retval }
      | _ => (receiveQueue.step s.queue (.run .main)).map fun queue => { s with queue }
  | .sendToCorrectService msg => some { s with dispatched := s.dispatched ++ [msg], main := .poll }
  | .deInitServer => if s.receiverEnded then some { s with main := .deInitreceiveQueue } else none
  | .deInitreceiveQueue =>
      if s.queue.lock = none then
        match freeMessages s.queue.vars.messages.toNat s.queue.vars with
        | some vars => some { s with queue := { s.queue with vars }, main := .closed }
        | none => some { s with main := .fault }
      else none
  | .closed | .fault => none

def step : ConnectionLabel → Option ConnectionState
  | .bytes bs => s.read (s.receiver.arrive bs) bs
  | .error => s.read s.receiver.error []
  | .clearWork => some { s with receiver := { s.receiver with work := false } }
  | .receive => s.receive
  | .main => s.mainStep

end ConnectionState

/-- Behind `initServer`. -/
structure ConnectionInit (s : ConnectionState) : Prop where
  receiver : s.receiver = .initial
  handedOver : s.handedOver = 0
  busy : s.busy = true
  queue : QueueInit s.queue
  main : s.main = .poll
  taken : s.taken = []
  dispatched : s.dispatched = []

def connection : Machine ConnectionState ConnectionLabel where
  init := ConnectionInit
  step := ConnectionState.step

/-! ## What a read adds -/

namespace ReceiverState

/-- If the receiver is at a header, none of it has come. -/
def Between (s : ReceiverState) : Prop := ∀ read, s.pc = .header read → read.offset = 0

theorem loop_between (s : ReceiverState) : s.loop.Between := by
  unfold loop
  split
  · intro read hpc
    cases hpc
    rfl
  · intro read hpc
    cases hpc

theorem loop_queued (s : ReceiverState) : s.queued <+: s.loop.queued := by
  unfold loop
  split
  · exact List.prefix_refl _
  · exact List.prefix_append _ _

/-- The entries stay, and where there is a new one no header has begun. -/
def Grows (s t : ReceiverState) : Prop :=
  s.queued <+: t.queued ∧ (t.queued = s.queued ∨ t.Between)

theorem deliver_grows (s : ReceiverState) (port size : Short) : s.Grows (s.deliver port size) := by
  unfold deliver
  split
  · exact ⟨List.prefix_refl _, .inl rfl⟩
  · split
    · exact ⟨List.prefix_refl _, .inl rfl⟩
    · next data _ =>
        have hloop := loop_queued { s with queued := s.queued ++ [some ⟨port, size, data⟩] }
        exact ⟨(List.prefix_append _ _).trans hloop, .inr (loop_between _)⟩

theorem decodeHeader_grows (s : ReceiverState) : s.Grows s.decodeHeader := by
  unfold decodeHeader
  split
  · simp only
    split
    · exact ⟨List.prefix_refl _, .inl rfl⟩
    · exact deliver_grows s _ _
  · exact ⟨List.prefix_refl _, .inl rfl⟩

theorem fill_grows {s t : ReceiverState} {read : ReadAll} {bytes : List UInt8}
    {more : ReadAll → ReceiverPc} {done : ReceiverState → ReceiverState}
    (hdone : ∀ u : ReceiverState, u.Grows (done u)) (h : s.fill read bytes more done = some t) :
    s.Grows t := by
  obtain ⟨-, -, ⟨-, rfl⟩ | ⟨-, buffer, -, -, ⟨-, rfl⟩ | ⟨-, rfl⟩⟩⟩ := fill_cases h
  · exact ⟨List.prefix_refl _, .inl rfl⟩
  · exact ⟨List.prefix_refl _, .inl rfl⟩
  · exact hdone { s with buffer }

theorem arrive_grows {s t : ReceiverState} {bytes : List UInt8} (h : s.arrive bytes = some t) :
    s.Grows t := by
  unfold arrive at h
  split at h
  · exact fill_grows decodeHeader_grows h
  · exact fill_grows (fun u => deliver_grows u _ _) h
  · cases h
  · cases h

theorem error_grows {s t : ReceiverState} (h : s.error = some t) : s.Grows t := by
  unfold error at h
  split at h
  · cases h
    exact ⟨List.prefix_append _ _, .inr nofun⟩
  · cases h
    exact ⟨List.prefix_append _ _, .inr nofun⟩
  · cases h
  · cases h

end ReceiverState

/-! ## The invariant -/

/-- What `pollReceiveQueue` has returned last and the loop has not passed on. -/
def ServerPc.held (main : ServerPc) (pc : QueuePc) : List (Option MultiplexedMessage) :=
  match main with
  | .poll => pc.fetched
  | .sendToCorrectService msg => [some msg]
  | .deInitServer | .deInitreceiveQueue | .closed | .fault => [none]

structure Connected (s : ConnectionState) : Prop where
  cuts : Cuts s.receiver s.taken
  queue : QueueInv s.queue
  bound : s.handedOver ≤ s.receiver.queued.length
  handed : s.receiver.queued.take s.handedOver = s.queue.added ++ (s.queue.pc .receive).pending
  adder : (s.queue.pc .receive).adds ∨ s.queue.pc .receive = .idle
  calm : s.busy = false → s.queue.pc .receive = .idle
  between : s.busy = true ∨ s.handedOver < s.receiver.queued.length → s.receiver.Between
  poller : (s.queue.pc .main).polls ∧ s.main = .poll ∨ s.queue.pc .main = .idle
  polled : s.queue.polled = s.dispatched.map some ++ s.main.held (s.queue.pc .main)
  ended : s.main = .deInitreceiveQueue ∨ s.main = .closed → s.receiverEnded
  sound : s.main ≠ .fault

namespace Connected

variable {s t : ConnectionState}

theorem initial (h : ConnectionInit s) : Connected s := by
  have hpc := h.queue.pc
  constructor
  · rw [h.receiver, h.taken]
    exact .initial
  · exact .initial h.queue
  · rw [h.handedOver]
    exact Nat.zero_le _
  · rw [h.handedOver, h.queue.added, hpc, List.take_zero]
    rfl
  · exact .inr (hpc .receive)
  · exact fun _ => hpc .receive
  · intro _ read hread
    rw [h.receiver] at hread
    cases hread
    rfl
  · exact .inr (hpc .main)
  · rw [h.queue.polled, h.dispatched, h.main, hpc]
    rfl
  · intro hmain
    rw [h.main] at hmain
    rcases hmain with hmain | hmain <;> cases hmain
  · rw [h.main]
    nofun

/-- The entries that were handed over stay in front. -/
theorem take_grows {u : ReceiverState} (h : Connected s) (hgrows : s.receiver.queued <+: u.queued) :
    u.queued.take s.handedOver = s.receiver.queued.take s.handedOver := by
  obtain ⟨more, hmore⟩ := hgrows
  rw [← hmore, List.take_append_of_le_length h.bound]

/-- A thread that reads has not ended. -/
theorem read (h : Connected s) {next : Option ReceiverState} {bytes : List UInt8}
    (hcuts : ∀ u, next = some u → Cuts u (s.taken ++ bytes))
    (hgrows : ∀ u, next = some u → s.receiver.Grows u)
    (hrunning : next.isSome → s.receiver.pc ≠ .stopped)
    (hstep : s.read next bytes = some t) : Connected t := by
  unfold ConnectionState.read at hstep
  split at hstep
  · next hfree =>
      obtain ⟨u, hu, rfl⟩ := Option.map_eq_some_iff.mp hstep
      have hlonger := (hgrows u hu).1.length_le
      have hbound := h.bound
      constructor
      · exact hcuts u hu
      · exact h.queue
      · exact Nat.le_trans hbound hlonger
      · exact (h.take_grows (hgrows u hu).1).trans h.handed
      · exact h.adder
      · exact h.calm
      · intro hwhy
        rcases (hgrows u hu).2 with hsame | hbetween
        · rcases hwhy with hbusy | hless
          · rw [hfree.1] at hbusy
            cases hbusy
          · change s.handedOver < u.queued.length at hless
            rw [hsame, hfree.2] at hless
            exact absurd hless (Nat.lt_irrefl _)
        · exact hbetween
      · exact h.poller
      · exact h.polled
      · intro hmain
        have hended := h.ended hmain
        have hpc := hrunning (by rw [hu]; rfl)
        unfold ConnectionState.receiverEnded at hended
        split at hended
        · contradiction
        · exact hended.elim
      · exact h.sound
  · cases hstep

theorem clearWork (h : Connected s) :
    Connected { s with receiver := { s.receiver with work := false } } :=
  ⟨h.cuts.clearWork, h.queue, h.bound, h.handed, h.adder, h.calm, h.between, h.poller, h.polled,
    h.ended, h.sound⟩

/-- The loop goes on or ends; a receiver that met a size it does not survive
does neither. -/
theorem returned (h : Connected s) (hidle : s.queue.pc .receive = .idle) (hbusy : s.busy = true) :
    Connected s.returned := by
  have hbetween := h.between (.inl hbusy)
  have hnext : Cuts s.returned.receiver s.taken ∧ s.receiver.queued <+: s.returned.receiver.queued ∧
      s.returned.receiver.Between := by
    unfold ConnectionState.returned
    cases hpc : s.receiver.pc with
    | header read =>
        have hqueued := h.cuts.queued
        have hcur := h.cuts.current
        simp only [hpc] at hqueued hcur ⊢
        rw [hbetween read hpc, List.take_zero] at hcur
        exact ⟨.loop h.cuts.reading.buffer hqueued hcur, s.receiver.loop_queued,
          s.receiver.loop_between⟩
    | payload _ _ _ | stopped | fault =>
        simp only
        exact ⟨h.cuts, List.prefix_refl _, hbetween⟩
  obtain ⟨hcuts, hgrows, hagain⟩ := hnext
  constructor
  · exact hcuts
  · exact h.queue
  · exact Nat.le_trans h.bound hgrows.length_le
  · exact (h.take_grows hgrows).trans h.handed
  · exact h.adder
  · exact fun _ => hidle
  · exact fun _ => hagain
  · exact h.poller
  · exact h.polled
  · intro hmain
    -- a thread that has ended is in no call
    have hended := h.ended hmain
    unfold ConnectionState.receiverEnded at hended
    split at hended
    · rw [hbusy] at hended
      cases hended.1
    · exact hended.elim
  · exact h.sound

/-- A step of the receiver thread inside `addreceivequeue`. -/
theorem adds (h : Connected s) {queue : QueueState ConnectionThread} (hbusy : s.busy = true)
    (hrun : (s.queue.pc .receive).adds) (hstep : receiveQueue.step s.queue (.run .receive) = some queue) :
    Connected { s with queue } := by
  obtain ⟨pc, hpcs, hpc, hadded, hpolled⟩ := h.queue.adder_step hrun hstep
  have hreceive : queue.pc .receive = pc := by rw [hpcs, Function.update_self]
  have hmain : queue.pc .main = s.queue.pc .main := by
    rw [hpcs, Function.update_of_ne ConnectionThread.main_ne_receive]
  constructor
  · exact h.cuts
  · exact h.queue.receiveQueue_step hstep
  · exact h.bound
  · show _ = queue.added ++ (queue.pc .receive).pending
    rw [hreceive, hadded]
    exact h.handed
  · show (queue.pc .receive).adds ∨ queue.pc .receive = .idle
    rw [hreceive]
    exact hpc
  · intro hcalm
    rw [hbusy] at hcalm
    cases hcalm
  · exact h.between
  · show (queue.pc .main).polls ∧ s.main = .poll ∨ queue.pc .main = .idle
    rw [hmain]
    exact h.poller
  · show queue.polled = s.dispatched.map some ++ s.main.held (queue.pc .main)
    rw [hmain, hpolled]
    exact h.polled
  · exact h.ended
  · exact h.sound

/-- The call with the next entry. -/
theorem callAdd (h : Connected s) {queue : QueueState ConnectionThread}
    {message : Option MultiplexedMessage} (hcalm : s.busy = false)
    (hnext : s.receiver.queued[s.handedOver]? = some message)
    (hstep : receiveQueue.step s.queue (.callAdd .receive message) = some queue) :
    Connected { s with queue, handedOver := s.handedOver + 1, busy := true } := by
  have hidle := h.calm hcalm
  have hqueue : queue = s.queue.at .receive (.addWait message) := by
    simp only [receiveQueue, messageQueue, queueStep, hidle] at hstep
    exact (Option.some.inj hstep).symm
  obtain ⟨hless, hget⟩ := List.getElem?_eq_some_iff.mp hnext
  have hmain : queue.pc .main = s.queue.pc .main := by
    rw [hqueue]
    show Function.update s.queue.pc .receive (.addWait message) .main = s.queue.pc .main
    rw [Function.update_of_ne ConnectionThread.main_ne_receive]
  have hreceive : queue.pc .receive = .addWait message := by
    rw [hqueue]
    show Function.update s.queue.pc .receive (.addWait message) .receive = .addWait message
    rw [Function.update_self]
  constructor
  · exact h.cuts
  · exact h.queue.receiveQueue_step hstep
  · exact hless
  · show s.receiver.queued.take (s.handedOver + 1) = queue.added ++ (queue.pc .receive).pending
    rw [hreceive, List.take_succ_eq_append_getElem hless, h.handed, hidle, hget, hqueue]
    simp [QueuePc.pending, QueueState.at]
  · exact .inl (by rw [hreceive]; rfl)
  · simp
  · exact fun _ => h.between (.inr hless)
  · show (queue.pc .main).polls ∧ s.main = .poll ∨ queue.pc .main = .idle
    rw [hmain]
    exact h.poller
  · show queue.polled = s.dispatched.map some ++ s.main.held (queue.pc .main)
    rw [hmain, hqueue]
    exact h.polled
  · intro hmainPc
    have hended := h.ended hmainPc
    unfold ConnectionState.receiverEnded at hended
    split at hended
    · omega
    · exact hended.elim
  · exact h.sound

theorem receive (h : Connected s) (hstep : s.receive = some t) : Connected t := by
  unfold ConnectionState.receive at hstep
  split at hstep
  · next hbusy =>
      rcases h.adder with hadds | hidle
      · have hrun : ∃ queue, receiveQueue.step s.queue (.run .receive) = some queue ∧
            { s with queue } = t := by
          split at hstep
          · next hidle =>
              rw [hidle] at hadds
              cases hadds
          · exact Option.map_eq_some_iff.mp hstep
        obtain ⟨queue, hqueue, rfl⟩ := hrun
        exact h.adds hbusy hadds hqueue
      · simp only [hidle] at hstep
        cases hstep
        exact h.returned hidle hbusy
  · next hcalm =>
      split at hstep
      · next message hnext =>
          obtain ⟨queue, hqueue, rfl⟩ := Option.map_eq_some_iff.mp hstep
          exact h.callAdd (Bool.eq_false_iff.mpr hcalm) hnext hqueue
      · cases hstep

/-- A step of the main thread inside `pollReceiveQueue`. -/
theorem polls (h : Connected s) {queue : QueueState ConnectionThread} (hpoll : s.main = .poll)
    (hrun : (s.queue.pc .main).polls) (hlast : ∀ retval, s.queue.pc .main ≠ .pollUnlock retval)
    (hstep : receiveQueue.step s.queue (.run .main) = some queue) :
    Connected { s with queue } := by
  obtain ⟨pc, hpcs, hpc, hadded, hpolled⟩ := h.queue.poller_step hrun hlast hstep
  have hmain : queue.pc .main = pc := by rw [hpcs, Function.update_self]
  have hreceive : queue.pc .receive = s.queue.pc .receive := by
    rw [hpcs, Function.update_of_ne ConnectionThread.main_ne_receive.symm]
  constructor
  · exact h.cuts
  · exact h.queue.receiveQueue_step hstep
  · exact h.bound
  · show _ = queue.added ++ (queue.pc .receive).pending
    rw [hreceive, hadded]
    exact h.handed
  · show (queue.pc .receive).adds ∨ queue.pc .receive = .idle
    rw [hreceive]
    exact h.adder
  · intro hcalm
    show queue.pc .receive = .idle
    rw [hreceive]
    exact h.calm hcalm
  · exact h.between
  · show (queue.pc .main).polls ∧ s.main = .poll ∨ queue.pc .main = .idle
    rw [hmain]
    exact .inl ⟨hpc, hpoll⟩
  · have hbefore := h.polled
    show queue.polled = s.dispatched.map some ++ s.main.held (queue.pc .main)
    rw [hpoll] at hbefore ⊢
    rw [hmain]
    exact hpolled _ hbefore
  · exact h.ended
  · exact h.sound

/-- The call of `pollReceiveQueue` and its return, where the thread leaves the queue or enters it. -/
theorem enters (h : Connected s) {queue : QueueState ConnectionThread} {pc : QueuePc} {main : ServerPc}
    {label : QueueLabel ConnectionThread} (hstep : receiveQueue.step s.queue label = some queue)
    (hpcs : queue.pc = Function.update s.queue.pc .main pc) (hadded : queue.added = s.queue.added)
    (hpolled : queue.polled = s.queue.polled) (hmain : pc.polls ∧ main = .poll ∨ pc = .idle)
    (hheld : main.held pc = s.main.held (s.queue.pc .main))
    (hearly : main = .poll ∨ main = .deInitServer ∨ ∃ msg, main = .sendToCorrectService msg) :
    Connected { s with queue, main } := by
  have hself : queue.pc .main = pc := by rw [hpcs, Function.update_self]
  have hreceive : queue.pc .receive = s.queue.pc .receive := by
    rw [hpcs, Function.update_of_ne ConnectionThread.main_ne_receive.symm]
  constructor
  · exact h.cuts
  · exact h.queue.receiveQueue_step hstep
  · exact h.bound
  · show _ = queue.added ++ (queue.pc .receive).pending
    rw [hreceive, hadded]
    exact h.handed
  · show (queue.pc .receive).adds ∨ queue.pc .receive = .idle
    rw [hreceive]
    exact h.adder
  · intro hcalm
    show queue.pc .receive = .idle
    rw [hreceive]
    exact h.calm hcalm
  · exact h.between
  · show (queue.pc .main).polls ∧ main = .poll ∨ queue.pc .main = .idle
    rw [hself]
    exact hmain
  · show queue.polled = s.dispatched.map some ++ main.held (queue.pc .main)
    rw [hself, hheld, hpolled]
    exact h.polled
  · intro hlate
    change main = .deInitreceiveQueue ∨ main = .closed at hlate
    rcases hearly with rfl | rfl | ⟨msg, rfl⟩ <;> rcases hlate with hlate | hlate <;> cases hlate
  · show main ≠ .fault
    rcases hearly with rfl | rfl | ⟨msg, rfl⟩ <;> nofun

/-! ## The end of the messaging loop -/

/-- Only the sentinel is `NULL`, and it is the last entry. -/
theorem sentinel_last {a m : List MultiplexedMessage} {b : List (Option MultiplexedMessage)}
    (h : a.map some ++ none :: b <+: m.map some ++ [none]) : a = m ∧ b = [] := by
  induction a generalizing m with
  | nil =>
      cases m with
      | nil =>
          have hb : none :: b <+: [none] := h
          exact ⟨rfl, List.prefix_nil.mp (List.cons_prefix_cons.mp hb).2⟩
      | cons x m =>
          have hb : none :: b <+: some x :: (m.map some ++ [none]) := h
          cases (List.cons_prefix_cons.mp hb).1
  | cons x a ih =>
      cases m with
      | nil =>
          have hb : some x :: (a.map some ++ none :: b) <+: [none] := h
          cases (List.cons_prefix_cons.mp hb).1
      | cons y m =>
          have hb : some x :: (a.map some ++ none :: b) <+: some y :: (m.map some ++ [none]) := h
          obtain ⟨hxy, hrest⟩ := List.cons_prefix_cons.mp hb
          obtain ⟨rfl, hnil⟩ := ih hrest
          exact ⟨by rw [Option.some.inj hxy], hnil⟩

/-- What was ever an argument of `addreceivequeue`. -/
theorem queued_prefix (h : Connected s) :
    s.receiver.queued <+: (messagesIn s.taken).map some ++ [none] := by
  have hqueued := h.cuts.queued
  cases hpc : s.receiver.pc with
  | header _ | payload _ _ _ =>
      simp only [hpc] at hqueued
      rw [hqueued]
      exact List.prefix_append _ _
  | stopped =>
      simp only [hpc] at hqueued
      rw [hqueued]
  | fault =>
      simp only [hpc] at hqueued
      exact hqueued.trans (List.prefix_append _ _)

theorem added_prefix (h : Connected s) : s.queue.added <+: (messagesIn s.taken).map some ++ [none] := by
  have htake : s.queue.added <+: s.receiver.queued.take s.handedOver := by
    rw [h.handed]
    exact List.prefix_append _ _
  exact (htake.trans (List.take_prefix _ _)).trans h.queued_prefix

/-- Behind the loop everything was dispatched and nothing is in the queue. -/
theorem drained (h : Connected s)
    (hmain : s.main = .deInitServer ∨ s.main = .deInitreceiveQueue ∨ s.main = .closed) :
    s.dispatched = messagesIn s.taken ∧ s.queue.waiting = [] := by
  have hpolled : s.queue.polled = s.dispatched.map some ++ [none] := by
    have hall := h.polled
    rcases hmain with hmain | hmain | hmain <;> rw [hmain] at hall <;> exact hall
  have hadded := h.added_prefix
  rw [h.queue.fifo, hpolled, List.append_assoc, List.singleton_append] at hadded
  exact sentinel_last hadded

theorem dispatched_prefix (h : Connected s) : s.dispatched <+: messagesIn s.taken := by
  have hpolled : s.dispatched.map some <+: s.queue.added := by
    rw [h.queue.fifo, h.polled, List.append_assoc]
    exact List.prefix_append _ _
  have hadded := hpolled.trans h.added_prefix
  rcases List.prefix_concat_iff.mp hadded with heq | hbefore
  · have hnone : none ∈ s.dispatched.map some := by
      rw [heq]
      exact List.mem_append_right _ List.mem_cons_self
    simp at hnone
  · exact (List.prefix_map_iff_of_injective (Option.some_injective _)).mp hbefore

/-- With the queue empty `deInitreceiveQueue` dereferences nothing. -/
theorem freeMessages_waiting {q : MessageQueue} (h : q.messages = 0) (rounds : Nat) :
    freeMessages rounds q = some q := by
  unfold freeMessages
  exact if_pos h

theorem messages_zero (h : Connected s) (hwaiting : s.queue.waiting = []) :
    s.queue.vars.messages = 0 := by
  have hlength := h.queue.waiting_length
  rw [hwaiting] at hlength
  exact hlength.symm

theorem mainStep (h : Connected s) (hstep : s.mainStep = some t) : Connected t := by
  unfold ConnectionState.mainStep at hstep
  cases hmain : s.main with
  | poll =>
      simp only [hmain] at hstep
      rcases h.poller with ⟨hpolls, -⟩ | hidle
      · split at hstep
        · next hidle =>
            rw [hidle] at hpolls
            cases hpolls
        · next retval hlast =>
            obtain ⟨queue, hqueue, rfl⟩ := Option.map_eq_some_iff.mp hstep
            have hunlock : queue = { s.queue with lock := none }.at .main .idle := by
              simp only [receiveQueue, messageQueue, queueStep, threadStep, hlast] at hqueue
              exact (Option.some.inj hqueue).symm
            have hpcs : queue.pc = Function.update s.queue.pc .main .idle := by
              rw [hunlock]
              rfl
            apply h.enters hqueue hpcs
            · rw [hunlock]
              rfl
            · rw [hunlock]
              rfl
            · exact .inr rfl
            · rw [hmain, hlast]
              cases retval <;> rfl
            · cases retval with
              | none => exact .inr (.inl rfl)
              | some msg => exact .inr (.inr ⟨msg, rfl⟩)
        · next hlast =>
            obtain ⟨queue, hqueue, rfl⟩ := Option.map_eq_some_iff.mp hstep
            exact hmain ▸ h.polls hmain hpolls hlast hqueue
      · simp only [hidle] at hstep
        obtain ⟨queue, hqueue, rfl⟩ := Option.map_eq_some_iff.mp hstep
        have hcall : queue = s.queue.at .main .pollWait := by
          simp only [receiveQueue, messageQueue, queueStep, hidle] at hqueue
          exact (Option.some.inj hqueue).symm
        have hpcs : queue.pc = Function.update s.queue.pc .main .pollWait := by
          rw [hcall]
          rfl
        apply h.enters hqueue hpcs
        · rw [hcall]
          rfl
        · rw [hcall]
          rfl
        · exact .inl ⟨rfl, rfl⟩
        · rw [hmain, hidle]
          rfl
        · exact .inl rfl
  | sendToCorrectService msg =>
      simp only [hmain] at hstep
      cases hstep
      have hidle : s.queue.pc .main = .idle := by
        rcases h.poller with ⟨-, hpoll⟩ | hidle
        · rw [hmain] at hpoll
          cases hpoll
        · exact hidle
      refine ⟨h.cuts, h.queue, h.bound, h.handed, h.adder, h.calm, h.between, .inr hidle, ?_, ?_,
        (by simp)⟩
      · have hpolled := h.polled
        rw [hmain] at hpolled
        show s.queue.polled = (s.dispatched ++ [msg]).map some ++ (s.queue.pc .main).fetched
        rw [hidle, List.map_append, hpolled]
        exact (List.append_nil _).symm
      · intro hlate
        rcases hlate with hlate | hlate <;> cases hlate
  | deInitServer =>
      simp only [hmain] at hstep
      split at hstep
      · next hended =>
          cases hstep
          have hidle : s.queue.pc .main = .idle := by
            rcases h.poller with ⟨-, hpoll⟩ | hidle
            · rw [hmain] at hpoll
              cases hpoll
            · exact hidle
          have hpolled := h.polled
          rw [hmain] at hpolled
          exact ⟨h.cuts, h.queue, h.bound, h.handed, h.adder, h.calm, h.between, .inr hidle, hpolled,
            fun _ => hended, (by simp)⟩
      · cases hstep
  | deInitreceiveQueue =>
      simp only [hmain] at hstep
      split at hstep
      · have hempty := h.messages_zero (h.drained (.inr (.inl hmain))).2
        rw [freeMessages_waiting hempty] at hstep
        cases hstep
        have hidle : s.queue.pc .main = .idle := by
          rcases h.poller with ⟨-, hpoll⟩ | hidle
          · rw [hmain] at hpoll
            cases hpoll
          · exact hidle
        have hpolled := h.polled
        rw [hmain] at hpolled
        exact ⟨h.cuts, h.queue, h.bound, h.handed, h.adder, h.calm, h.between, .inr hidle, hpolled,
          fun _ => h.ended (.inl hmain), (by simp)⟩
      · cases hstep
  | closed => simp only [hmain, reduceCtorEq] at hstep
  | fault => simp only [hmain, reduceCtorEq] at hstep

theorem step (h : Connected s) {label : ConnectionLabel} (hstep : s.step label = some t) :
    Connected t := by
  cases label with
  | bytes bs =>
      have hrunning : (s.receiver.arrive bs).isSome → s.receiver.pc ≠ .stopped := by
        intro hsome hpc
        simp [ReceiverState.arrive, hpc] at hsome
      exact h.read (fun u hu => h.cuts.arrive hu) (fun u hu => ReceiverState.arrive_grows hu)
        hrunning hstep
  | error =>
      have hrunning : s.receiver.error.isSome → s.receiver.pc ≠ .stopped := by
        intro hsome hpc
        simp [ReceiverState.error, hpc] at hsome
      apply h.read _ (fun u hu => ReceiverState.error_grows hu) hrunning hstep
      intro u hu
      rw [List.append_nil]
      exact h.cuts.error hu
  | clearWork =>
      cases hstep
      exact h.clearWork
  | receive => exact h.receive hstep
  | main => exact h.mainStep hstep

end Connected

theorem ConnectionState.connected {s : ConnectionState} (h : connection.Reachable s) : Connected s :=
  h.invariant (fun _ => Connected.initial) fun _ _ _ hs hstep => hs.step hstep

/-- At every point of a connection the messages dispatched are the first of
those read completely. When `deInitServer` has begun they are all of them, the
queue is empty, and no entry of it is dereferenced. The sentinel is added once,
as the last entry. -/
theorem frames_dispatched (s : ConnectionState) (h : connection.Reachable s) :
    s.dispatched <+: messagesIn s.taken ∧
    (s.main = .deInitServer ∨ s.main = .deInitreceiveQueue ∨ s.main = .closed →
      s.dispatched = messagesIn s.taken ∧ s.queue.vars.messages = 0) ∧
    s.queue.added <+: (messagesIn s.taken).map some ++ [none] ∧
    s.main ≠ .fault := by
  have hconnected := s.connected h
  refine ⟨hconnected.dispatched_prefix, fun hmain => ?_, hconnected.added_prefix, hconnected.sound⟩
  obtain ⟨hall, hwaiting⟩ := hconnected.drained hmain
  exact ⟨hall, hconnected.messages_zero hwaiting⟩

private def fresh : ConnectionState where
  receiver := .initial
  handedOver := 0
  busy := true
  queue := ⟨⟨fun _ => none, 0, 0, 0⟩, 0, messagequeMax, none, fun _ => .idle, [], [], [], false⟩
  main := .poll
  taken := []
  dispatched := []

/-- A frame with one byte of payload, an error inside the next header, and the
main thread up to the end. -/
private def oneFrame : List ConnectionLabel :=
  [.receive, .bytes [5, 0, 1, 0], .bytes [9]] ++ List.replicate 7 .receive ++
    [.bytes [6], .error] ++ List.replicate 7 .receive ++ List.replicate 15 .main

private theorem oneFrame_isSome : (connection.run fresh oneFrame).isSome := by
  decide +kernel

theorem frames_dispatched_one :
    ∃ s : ConnectionState, connection.Reachable s ∧ s.main = .closed ∧
      s.taken = [5, 0, 1, 0, 9, 6] ∧ s.dispatched = [⟨5, 1, [9]⟩] ∧
      s.dispatched = messagesIn s.taken ∧ s.queue.vars.messages = 0 := by
  have hinit : connection.init fresh :=
    ⟨rfl, rfl, rfl, ⟨rfl, rfl, rfl, rfl, rfl, rfl, fun _ => rfl, rfl, rfl, rfl, rfl⟩, rfl, rfl, rfl⟩
  have hreachable := Machine.Reachable.of_run hinit oneFrame_isSome
  have hclosed : ((connection.run fresh oneFrame).get oneFrame_isSome).main = .closed := by
    decide +kernel
  have htaken : ((connection.run fresh oneFrame).get oneFrame_isSome).taken =
      [5, 0, 1, 0, 9, 6] := by
    decide +kernel
  have hdispatched : ((connection.run fresh oneFrame).get oneFrame_isSome).dispatched =
      [⟨5, 1, [9]⟩] := by
    decide +kernel
  exact ⟨_, hreachable, hclosed, htaken, hdispatched,
    (frames_dispatched _ hreachable).2.1 (.inr (.inr hclosed))⟩

end AapBridge.Accessory
