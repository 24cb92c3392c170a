import AapBridge.Lib.Machine
import AapBridge.Accessory.Sender
import AapBridge.Android.DbusMessage
import AapBridge.Android.PortStatus

/-! # The phone's receiver thread

`ReceiverThread.run` with the services it calls, and the threads that close
ports while it runs. A step of the receiver is one read or skip of the stream,
one look at `activeServices` or at a flag; `Port.close` and `Port.eof` clear the
flag, write the status frame and drop the entry in three steps. An exception
inside `onDataReady` is caught in the loop, one outside it ends the thread, and
so does an `Error`.
-/

namespace AapBridge.Android

open AapBridge.Lib
open AapBridge.Accessory (Slot slot? MultiplexedMessage senderBytes)

inductive ServiceKind where
  | portStatus
  | serviceSpawner
  | keepalive
  | dbusMethods
  | dbusSignals
  | bulkTransfer
deriving DecidableEq

/-- `onDataReady` makes a `DbusMessage` of the payload. -/
def ServiceKind.decodes : ServiceKind → Bool
  | .dbusMethods | .dbusSignals => true
  | _ => false

/-- `ServiceSpawner.OpenRequestResponse`. -/
structure OpenRequestResponse where
  success : Bool
  port : Short
  errorCode : BitVec 32

/-- The fields of `ServiceSpawner` its `onDataReady` uses. -/
structure SpawnerFields where
  portRequestResponse : List UInt8
  openRequestResponsesReady : Nat
  openRequestResponsesDone : Nat
  openRequestResponses : List OpenRequestResponse

def SpawnerFields.answer (f : SpawnerFields) (response : OpenRequestResponse) : SpawnerFields :=
  { f with
    openRequestResponses := f.openRequestResponses ++ [response]
    openRequestResponsesReady := f.openRequestResponsesReady + 1 }

inductive ReceiverThreadPc (Sid : Type*) where
  /-- Reading a header, of which `bytes` have been read. -/
  | header (bytes : List UInt8)
  | lookup (port dataLength : Short)
  | skip (mustSkip : Int)
  /-- Behind `service == null`, before `service.getPort().inputOpen`. -/
  | test (service : Sid) (dataLength : Short)
  /-- In `port.readAll`, with `remaining` bytes of the buffer to fill. -/
  | readAll (service : Sid) (bytes : List UInt8) (remaining : Nat)
  | skipRead (i : Int)
  /-- The rest of `onDataReady`, on the buffer that has been filled. -/
  | handle (service : Sid) (bytes : List UInt8)
  | statusTest (port : Slot) (status : UInt8)
  | statusSwitch (port : Slot) (status : UInt8)
  | statusCleanup (port : Slot)
  /-- Waiting on `openRequestResponsesDone`. -/
  | awaitDone
  | stopped

/-- A thread in `Port.close` or `Port.eof` of port `x`. -/
inductive AppPc (P : Type*) where
  | idle
  | closeClear (x : P)
  | closeWrite (x : P)
  | closeCleanup (x : P)
  | eofClear (x : P)
  | eofWrite (x : P)
  | eofCleanup (x : P)

/-- `port` is what `getPort()` returns, null until the constructor of the service
has stored it; `statusPort` is the port of `portStatusService`. `unread` is the
input stream, `sent` the frames the accessory has put on it so far and
`iterations` how often the loop has come back to its start. -/
structure ReceivingState (Tid Sid P : Type*) where
  activeServices : Slot → Option Sid
  kind : Sid → ServiceKind
  port : Sid → Option P
  ports : P → Port
  statusPort : P
  spawner : SpawnerFields
  app : Tid → AppPc P
  receiver : ReceiverThreadPc Sid
  unread : List UInt8
  sent : List MultiplexedMessage
  iterations : Nat

inductive ReceivingLabel (Tid Sid P : Type*) where
  /-- The accessory's sender puts a frame on the stream. -/
  | arrive (msg : MultiplexedMessage)
  /-- A step of the receiver; a read or a skip returns `n`. -/
  | receive (n : Nat)
  | startClose (t : Tid) (x : P)
  | startEof (t : Tid) (x : P)
  | run (t : Tid)
  /-- `requestService` takes a response from the queue. -/
  | takeResponse
  /-- `requestService` registers a service, whose constructor then stores the port. -/
  | register (i : Slot) (service : Sid)
  | assignPort (service : Sid) (x : P)

/-- A frame as the accessory sends it: four bytes to the port status service,
eight to the spawner, and no more than 4000 to any port. -/
def GoodFrame (msg : MultiplexedMessage) : Prop :=
  (slot? msg.port.toInt).isSome ∧ msg.size.toInt = msg.data.length ∧ msg.data.length ≤ 4000 ∧
    (msg.port = 0 → msg.data.length = 4) ∧ (msg.port = 1 → msg.data.length = 8)

instance (msg : MultiplexedMessage) : Decidable (GoodFrame msg) :=
  inferInstanceAs (Decidable (_ ∧ _))

section

variable {Tid Sid P : Type*} [DecidableEq Tid] [DecidableEq Sid] [DecidableEq P]

namespace ReceivingState

variable (s : ReceivingState Tid Sid P)

def enter (receiver : ReceiverThreadPc Sid) : ReceivingState Tid Sid P := { s with receiver }

/-- Back to `while(true)`. -/
def next : ReceivingState Tid Sid P :=
  { s with iterations := s.iterations + 1, receiver := .header [] }

def modifyPort (x : P) (f : Port → Port) : ReceivingState Tid Sid P :=
  { s with ports := Function.update s.ports x (f (s.ports x)) }

/-- `activeServices[i] = null`. -/
def dropEntry (i : Slot) : ReceivingState Tid Sid P :=
  { s with activeServices := Function.update s.activeServices i none }

def arrive (msg : MultiplexedMessage) : ReceivingState Tid Sid P :=
  { s with sent := s.sent ++ [msg], unread := s.unread ++ senderBytes msg }

/-- `n` bytes of the stream, of at most `requested`. -/
def read (n requested : Nat) : Option (List UInt8 × ReceivingState Tid Sid P) :=
  if 1 ≤ n ∧ n ≤ requested ∧ n ≤ s.unread.length then
    some (s.unread.take n, { s with unread := s.unread.drop n })
  else none

/-- `activeServices[port].getPort()`, `none` if either is null. -/
def portAt (i : Slot) : Option P := (s.activeServices i).bind s.port

/-- The beginning of `onDataReady`, up to the first read. -/
def onDataReady (service : Sid) (length : Short) : ReceivingState Tid Sid P :=
  match s.kind service with
  | .portStatus =>
      -- an `Error`, which neither `catch` catches
      if length.toInt ≠ 4 then s.enter .stopped else s.enter (.readAll service [] 4)
  | .serviceSpawner => s.enter (.readAll service [] 8)
  | .keepalive => s.enter (.skipRead length.toInt)
  | .dbusMethods | .dbusSignals | .bulkTransfer =>
      -- `limit(length)` on a buffer of 4000 bytes
      if length.toInt < 0 ∨ length.toInt > 4000 then s.next
      else s.enter (.readAll service [] length.toInt.toNat)

/-- `port.read` throws: the spawner catches the exception itself and goes on
with what is in its buffer. -/
def readThrows (service : Sid) (bytes : List UInt8) : ReceivingState Tid Sid P :=
  match s.kind service with
  | .serviceSpawner =>
      let spawner := { s.spawner with
        openRequestResponsesReady := s.spawner.openRequestResponsesReady + 5000 }
      let buffer := bytes ++ s.spawner.portRequestResponse.drop bytes.length
      { s with spawner, receiver := .handle service buffer }
  | _ => s.next

/-- The spawner's response: `'s'`, a port, a flag and an error code. -/
def spawnerResponse (bytes : List UInt8) : ReceivingState Tid Sid P :=
  let spawner := { s.spawner with portRequestResponse := bytes }
  match bytes with
  | msgType :: low :: high :: success :: errorCode =>
      if msgType ≠ 0x73 then { s with spawner }.next
      else
        let response : OpenRequestResponse :=
          { success := success = 1
            port := getShort low high
            errorCode := BitVec.ofNat 32 (ByteOrder.littleEndian.get errorCode) }
        { s with spawner := spawner.answer response, receiver := .awaitDone }
  | _ => { s with spawner }.next

def handle (service : Sid) (bytes : List UInt8) : ReceivingState Tid Sid P :=
  match s.kind service with
  | .portStatus =>
      match bytes with
      | low :: high :: status :: _ =>
          match slot? (getShort low high).toInt with
          | none => s.next
          | some port => s.enter (.statusTest port status)
      | _ => s.next
  | .serviceSpawner => s.spawnerResponse bytes
  | .dbusMethods | .dbusSignals =>
      -- the `Error` of `new DbusMessage`
      if DbusMessage.invalidEndian bytes then s.enter .stopped else s.next
  | .keepalive | .bulkTransfer => s.next

/-- A step of the receiver; a null pointer inside `onDataReady` is an exception
that is caught. -/
def receive (n : Nat) : Option (ReceivingState Tid Sid P) :=
  match s.receiver with
  | .header bytes =>
      (s.read n (4 - bytes.length)).map fun r =>
        match bytes ++ r.1 with
        | [p0, p1, l0, l1] => r.2.enter (.lookup (getShort p0 p1) (getShort l0 l1))
        | bytes => r.2.enter (.header bytes)
  | .lookup port dataLength =>
      match slot? port.toInt with
      | none => some (s.enter .stopped)
      | some i =>
          match s.activeServices i with
          | none => some (s.enter (.skip dataLength.toInt))
          | some service => some (s.enter (.test service dataLength))
  | .skip mustSkip =>
      if mustSkip > 0 then
        (s.read n mustSkip.toNat).map fun r => r.2.enter (.skip (mustSkip - n))
      else some s.next
  | .test service dataLength =>
      match s.port service with
      | none => some (s.enter .stopped)
      | some x =>
          if (s.ports x).inputOpen then some (s.onDataReady service dataLength) else some s.next
  | .readAll service bytes remaining =>
      if remaining = 0 then some (s.enter (.handle service bytes))
      else
        match s.port service with
        | none => some s.next
        | some x =>
            if (s.ports x).inputOpen then
              (s.read n remaining).map fun r =>
                r.2.enter (.readAll service (bytes ++ r.1) (remaining - n))
            else some (s.readThrows service bytes)
  | .skipRead i =>
      if i > 0 then (s.read n 1).map fun r => r.2.enter (.skipRead (i - 1)) else some s.next
  | .handle service bytes => some (s.handle service bytes)
  | .statusTest port status =>
      match s.activeServices port with
      | none => some s.next
      | some _ => some (s.enter (.statusSwitch port status))
  | .statusSwitch port status =>
      if status = 3 ∨ status = 4 then
        match s.portAt port with
        | none => some s.next
        | some x =>
            some ((s.modifyPort x (Phone.clear (if status = 3 then .eof else .close) false)).enter
              (.statusCleanup port))
      else some (s.enter (.statusCleanup port))
  | .statusCleanup port =>
      match s.portAt port with
      | none => some s.next
      | some x =>
          if PortStatus.cleanupTest (s.ports x) then some (s.dropEntry port).next else some s.next
  | .awaitDone =>
      if s.spawner.openRequestResponsesDone > 0 then
        some { s with spawner := { s.spawner with
          openRequestResponsesDone := s.spawner.openRequestResponsesDone - 1 } }.next
      else none
  | .stopped => none

end ReceivingState

def ReceivingState.at (s : ReceivingState Tid Sid P) (t : Tid) (pc : AppPc P) :
    ReceivingState Tid Sid P := { s with app := Function.update s.app t pc }

namespace ReceivingState

variable (s : ReceivingState Tid Sid P)

/-- The test and the assignment at the end of `PortStatus.close` and `PortStatus.eof`. -/
def dropService (x : P) : ReceivingState Tid Sid P :=
  match slot? (s.ports x).portNr.toInt with
  | none => s
  | some i =>
      if PortStatus.cleanupTest (s.ports x) then s.dropEntry i else s

/-- The status frame goes out on port 0, whose `write` throws when it is closed. -/
def writeStatus (t : Tid) (pc : AppPc P) : ReceivingState Tid Sid P :=
  if (s.ports s.statusPort).outputOpen then s.at t pc else s.at t .idle

def runApp (t : Tid) : Option (ReceivingState Tid Sid P) :=
  match s.app t with
  | .idle => none
  | .closeClear x => some ((s.modifyPort x (Phone.clear .close true)).at t (.closeWrite x))
  | .closeWrite x => some (s.writeStatus t (.closeCleanup x))
  | .closeCleanup x => some ((s.dropService x).at t .idle)
  | .eofClear x => some ((s.modifyPort x (Phone.clear .eof true)).at t (.eofWrite x))
  | .eofWrite x => some (s.writeStatus t (.eofCleanup x))
  | .eofCleanup x => some ((s.dropService x).at t .idle)

def step : ReceivingLabel Tid Sid P → Option (ReceivingState Tid Sid P)
  | .arrive msg =>
      if GoodFrame msg then some (s.arrive msg) else none
  | .receive n => s.receive n
  | .startClose t x =>
      match s.app t with
      | .idle => if (s.ports x).inputOpen then some (s.at t (.closeClear x)) else none
      | _ => none
  | .startEof t x =>
      match s.app t with
      | .idle => if (s.ports x).outputOpen then some (s.at t (.eofClear x)) else none
      | _ => none
  | .run t => s.runApp t
  | .takeResponse =>
      if s.spawner.openRequestResponsesReady > 0 then
        some { s with spawner := { s.spawner with
          openRequestResponsesReady := s.spawner.openRequestResponsesReady - 1
          openRequestResponses := s.spawner.openRequestResponses.tail
          openRequestResponsesDone := s.spawner.openRequestResponsesDone + 1 } }
      else none
  | .register i service =>
      if s.kind service ∈ [.dbusMethods, .dbusSignals, .bulkTransfer] ∧ s.port service = none then
        some { s with activeServices := Function.update s.activeServices i (some service) }
      else none
  | .assignPort service x =>
      if s.port service = none then
        some { s with port := Function.update s.port service (some x) }
      else none

end ReceivingState

/-- The constructor of `AccessoryBridge` has registered its three services. -/
structure ReceivingInit (s : ReceivingState Tid Sid P) : Prop where
  services : ∀ i service, s.activeServices i = some service →
    (s.port service).isSome ∧ (s.kind service = .portStatus → i.val = 0) ∧
      (s.kind service = .serviceSpawner → i.val = 1)
  ports : ∀ x, (s.ports x).inputOpen = true ∧ (s.ports x).outputOpen = true
  app : ∀ t, s.app t = .idle
  receiver : s.receiver = .header []
  unread : s.unread = []
  sent : s.sent = []
  iterations : s.iterations = 0

def receiverThread : Machine (ReceivingState Tid Sid P) (ReceivingLabel Tid Sid P) where
  init := ReceivingInit
  step := ReceivingState.step

end

end AapBridge.Android
