import AapBridge.Android.Alignment

/-! # Calls of `requestService`

Any number of calls of `ServiceSpawner.requestService`, next to the receiver
thread and to the threads that close ports. They share the buffer of the request,
the two semaphores and the queue of responses. The connection may be lost at any
byte of the stream; from there on a read either finds the end of the file or
throws an `IOException`.
-/

namespace AapBridge.Android

open AapBridge.Lib
open AapBridge.Accessory (Slot slot? MultiplexedMessage)

/-- The arguments of `requestService`. -/
structure ServiceRequest where
  serviceIdentifier : UInt8
  arguments : List UInt8

/-- The fill of `portRequest`, and whether the arguments fit in it; what throws
leaves the buffer as it is then. -/
def ServiceRequest.fill (r : ServiceRequest) (portRequest : ByteBuffer) : ByteBuffer × Bool :=
  let header := (portRequest.clear.put [0x6F, r.serviceIdentifier]).bind fun b =>
    b.putShort (BitVec.ofNat 16 r.arguments.length)
  match header with
  | none => (portRequest.clear, false)
  | some header =>
      match header.put r.arguments with
      | none => (header, false)
      | some full => (full.flip, true)

/-- The bytes of a request. -/
def ServiceRequest.bytes (r : ServiceRequest) : List UInt8 :=
  [0x6F, r.serviceIdentifier] ++ shortBytes (BitVec.ofNat 16 r.arguments.length) ++ r.arguments

/-- Where a call of `requestService` is. -/
inductive RequestPc where
  | outside
  | filled
  | written
  /-- In `openRequestResponsesReady.acquire()`. -/
  | waiting
  | acquired
  /-- With what `poll` returned, in front of `openRequestResponsesDone.release()`. -/
  | polled (response : Option OpenRequestResponse)
  /-- The response decides about the outcome; without one it is an `IOException`. -/
  | finished (response : Option OpenRequestResponse)
  /-- The fill or the write has thrown. -/
  | thrown

/-- What a read finds behind the last byte of a lost connection. -/
inductive Loss where
  | endOfFile
  | ioException
deriving DecidableEq

/-- `queue` are the calls that wait on the fair semaphore, `outgoing` the frames
on port 1 with the calls that wrote them. `come` counts the calls that have come to
wait, `answers` the responses that were put into the queue, `failures` how often a
read inside a response has thrown an `IOException`. -/
structure RequestingState (Tid Sid P C : Type*) where
  base : ReceivingState Tid Sid P
  spawnerPort : P
  lost : Option Loss
  portRequest : ByteBuffer
  call : C → RequestPc
  queue : List C
  outgoing : List (C × List UInt8)
  come : Nat
  answers : Nat
  failures : Nat

inductive RequestingLabel (Tid Sid P C : Type*) where
  | base (label : ReceivingLabel Tid Sid P)
  /-- The connection is lost behind the next `kept` bytes. -/
  | lose (loss : Loss) (kept : Nat)
  /-- A read behind the last byte. -/
  | fail
  | fill (c : C)
  | write (c : C)
  | writeThrows (c : C)
  | wait (c : C)
  | acquire (c : C)
  | poll (c : C)
  | release (c : C)

section

variable {Tid Sid P C : Type*}

/-- The buffer begins with `'s'`. -/
def isResponse : List UInt8 → Bool
  | msgType :: _ :: _ :: _ :: _ => msgType = 0x73
  | _ => false

namespace ReceivingState

variable (s : ReceivingState Tid Sid P)

/-- The receiver is about to put a response into the queue. -/
def answering : Bool :=
  match s.receiver with
  | .handle service bytes => s.kind service = .serviceSpawner && isResponse bytes
  | _ => false

/-- The receiver is in a read of the spawner. -/
def spawnerReads : Bool :=
  match s.receiver with
  | .readAll service _ remaining => s.kind service = .serviceSpawner && 0 < remaining
  | _ => false

/-- The read throws because the input of the port is closed. -/
def inputClosed : Bool :=
  match s.receiver with
  | .readAll service _ _ => (s.port service).any fun x => !(s.ports x).inputOpen
  | _ => false

/-- The buffer of the spawner keeps the bytes it has got. -/
def keepBytes (service : Sid) (bytes : List UInt8) : ReceivingState Tid Sid P :=
  if s.kind service = .serviceSpawner then
    { s with spawner := { s.spawner with
      portRequestResponse := bytes ++ s.spawner.portRequestResponse.drop bytes.length } }
  else s

/-- A read or a skip of the lost stream, behind its last byte. The end of the file
moves the position of a buffer back by one, which throws at its beginning. -/
def failRead (loss : Loss) : Option (ReceivingState Tid Sid P) :=
  match s.receiver with
  | .header _ => some (s.enter .stopped)
  | .skip mustSkip =>
      if mustSkip > 0 then
        match loss with
        | .endOfFile => some s
        | .ioException => some (s.enter .stopped)
      else none
  | .readAll service bytes remaining =>
      if remaining = 0 ∨ s.inputClosed ∨ s.port service = none then none
      else
        match loss with
        | .endOfFile =>
            if bytes = [] then some s.next
            else some ((s.keepBytes service bytes).enter
              (.readAll service bytes.dropLast (remaining + 1)))
        | .ioException => some (s.readThrows service bytes)
  | .skipRead i =>
      if i > 0 then
        match loss with
        | .endOfFile => some (s.enter (.skipRead (i - 1)))
        | .ioException => some s.next
      else none
  | _ => none

end ReceivingState

variable [DecidableEq Tid] [DecidableEq Sid] [DecidableEq P] [DecidableEq C]

namespace RequestingState

variable (s : RequestingState Tid Sid P C)

def setCall (c : C) (pc : RequestPc) : RequestingState Tid Sid P C :=
  { s with call := Function.update s.call c pc }

/-- A step of the base machine; responses are taken in three steps here. -/
def stepBase (label : ReceivingLabel Tid Sid P) : Option (RequestingState Tid Sid P C) :=
  match label with
  | .takeResponse => none
  | .arrive msg =>
      if s.lost = none then (s.base.step (.arrive msg)).map fun base => { s with base } else none
  | .receive n =>
      (s.base.receive n).map fun base =>
        { s with
          base
          answers := if s.base.answering then s.answers + 1 else s.answers
          failures := if s.base.spawnerReads && s.base.inputClosed then s.failures + 1
            else s.failures }
  | label => (s.base.step label).map fun base => { s with base }

def lose (loss : Loss) (kept : Nat) : Option (RequestingState Tid Sid P C) :=
  if s.lost = none then
    some { s with lost := some loss, base := { s.base with unread := s.base.unread.take kept } }
  else none

def fail : Option (RequestingState Tid Sid P C) :=
  s.lost.bind fun loss =>
    if s.base.unread = [] then
      (s.base.failRead loss).map fun base =>
        { s with
          base
          failures := if s.base.spawnerReads && loss = .ioException then s.failures + 1
            else s.failures }
    else none

/-- The loop over `port.write`; the buffer never holds more than one frame takes. -/
def write (c : C) : RequestingState Tid Sid P C :=
  if s.portRequest.hasRemaining then
    { s.setCall c .written with
      portRequest := (s.portRequest.setPosition s.portRequest.limit).getD s.portRequest
      outgoing := s.outgoing ++ [(c, s.portRequest.contents)] }
  else s.setCall c .written

def step (request : C → ServiceRequest) :
    RequestingLabel Tid Sid P C → Option (RequestingState Tid Sid P C)
  | .base label => s.stepBase label
  | .lose loss kept => s.lose loss kept
  | .fail => s.fail
  | .fill c =>
      match s.call c with
      | .outside =>
          let (portRequest, fits) := (request c).fill s.portRequest
          some { s.setCall c (if fits then .filled else .thrown) with portRequest }
      | _ => none
  | .write c =>
      match s.call c with
      | .filled =>
          if s.portRequest.hasRemaining ∧ !(s.base.ports s.spawnerPort).outputOpen then none
          else some (s.write c)
      | _ => none
  | .writeThrows c =>
      match s.call c with
      | .filled => if s.portRequest.hasRemaining then some (s.setCall c .thrown) else none
      | _ => none
  | .wait c =>
      match s.call c with
      | .written => some { s.setCall c .waiting with queue := s.queue ++ [c], come := s.come + 1 }
      | _ => none
  | .acquire c =>
      if s.queue.head? = some c ∧ 0 < s.base.spawner.openRequestResponsesReady then
        some { s.setCall c .acquired with
          queue := s.queue.tail
          base := { s.base with spawner := { s.base.spawner with
            openRequestResponsesReady := s.base.spawner.openRequestResponsesReady - 1 } } }
      else none
  | .poll c =>
      match s.call c with
      | .acquired =>
          some { s.setCall c (.polled s.base.spawner.openRequestResponses.head?) with
            base := { s.base with spawner := { s.base.spawner with
              openRequestResponses := s.base.spawner.openRequestResponses.tail } } }
      | _ => none
  | .release c =>
      match s.call c with
      | .polled response =>
          some { s.setCall c (.finished response) with
            base := { s.base with spawner := { s.base.spawner with
              openRequestResponsesDone := s.base.spawner.openRequestResponsesDone + 1 } } }
      | _ => none

end RequestingState

/-- The bridge has just been constructed. -/
structure RequestingInit (s : RequestingState Tid Sid P C) : Prop where
  base : ReceivingInit s.base
  spawner : s.base.spawner = ⟨List.replicate 8 0, 0, 0, []⟩
  lost : s.lost = none
  portRequest : s.portRequest = ByteBuffer.allocate 4000
  call : ∀ c, s.call c = .outside
  queue : s.queue = []
  outgoing : s.outgoing = []
  counters : s.come = 0 ∧ s.answers = 0 ∧ s.failures = 0

def requesting (request : C → ServiceRequest) :
    Machine (RequestingState Tid Sid P C) (RequestingLabel Tid Sid P C) where
  init := RequestingInit
  step s := s.step request

end

end AapBridge.Android
