import AapBridge.Lib.HalfClose
import AapBridge.Accessory.Dispatch
import AapBridge.Accessory.MessageQueue

/-! # The threads of the bridge

One connection, from `initServer` on: the main thread, which dispatches what the
phone sends and ends in `deInitServer`; the thread of every bulk and signals
service; the sender and the receiver. A step is what a thread does between two
points at which another one can interfere: a lock, a semaphore, a call of
`read`, a test or an assignment of a flag both sides use. The eight assignments
behind the callback of `CleanupService` are one step.

A use of a slot, from the request that opened it on, is an incarnation, and has
a number. Every message is added together with the incarnation it belongs to.
-/

namespace AapBridge.Accessory

open AapBridge.Lib AapBridge.Lib.HalfClose

/-- The entry behind those of `initServer`, which the first request gets. -/
def firstPort : Slot := ⟨3, three_inside⟩

/-- On whose behalf a message is added to the send queue. -/
inductive Origin where
  /-- A denied request, a reply to a keepalive, the null message of `deInitServer`. -/
  | bridge
  /-- The STREAM_OPEN response for incarnation `k`. -/
  | opened (k : Nat)
  /-- Data of incarnation `k`, or a status about its port. -/
  | service (k : Nat)
deriving DecidableEq

/-- What main goes on with behind a call. -/
inductive Next where
  /-- `pollReceiveQueue`. -/
  | poll
  | spawnUnlock
  /-- The test at the end of `sendEof` or `sendClose`. -/
  | sendTest (i : Slot) (g : Signal)
  /-- The test at the end of `PortStatusOnBytesReceived`. -/
  | closedTest (i : Slot)
  /-- The loop of `deInitServer`, at entry `n`. -/
  | deInit (n : Nat)
  | joinReceive
  | joinSend
  | finished
deriving DecidableEq

inductive MainPc where
  | resume (next : Next)
  /-- Behind the test of `sendToCorrectService`. -/
  | call (i : Slot) (data : List UInt8)
  | statusTest (target : Slot) (status : UInt8)
  | statusSwitch (target : Slot) (status : UInt8)
  | onEof (target : Slot)
  | bulkWrites (i : Slot) (data : List UInt8)
  /-- `MethodOnBytesReceived`, blocked on its pending call. -/
  | method (i : Slot)
  | spawnLock (protocol : UInt8)
  | spawnOpen (protocol : UInt8)
  | spawnInit (i : Slot) (protocol : UInt8)
  | spawnInstall (i : Slot) (k : Nat) (protocol : BridgeConnection.Protocol)
  /-- In `sendEof` or `sendClose`: the buffer is built, then the flag is cleared. -/
  | sendBuild (i : Slot) (g : Signal)
  | sendClear (i : Slot) (g : Signal) (buffer : List UInt8)
  /-- In `writeAllPort`, then in `addSendQueue` before and behind its semaphore. -/
  | write (i : Slot) (buffer : List UInt8) (origin : Origin) (next : Next)
  | addWait (msg : Option MultiplexedMessage) (origin : Origin) (next : Next)
  | addStore (msg : Option MultiplexedMessage) (origin : Origin) (next : Next)
  | cleanupLock (i : Slot) (next : Next)
  | cleanupCallback (i : Slot) (next : Next)
  | cleanupJoin (i : Slot) (k : Nat) (next : Next)
  | cleanupReset (i : Slot) (next : Next)
  | cleanupUnlock (next : Next)
deriving DecidableEq

/-- What the thread of a service goes on with behind `addSendQueue`. -/
inductive ServiceNext where
  | loop
  | eofTest
deriving DecidableEq

/-- `bulkTransferThread` and `signalWatch`. -/
inductive ServicePc where
  | notCreated
  | startLock
  | startUnlock
  | resume (next : ServiceNext)
  /-- In `dbus_connection_pop_message`. -/
  | pop
  | write (data : List UInt8)
  | eofBuild
  | eofClear (buffer : List UInt8)
  | eofWrite (buffer : List UInt8)
  | addWait (msg : MultiplexedMessage) (next : ServiceNext)
  | addStore (msg : MultiplexedMessage) (next : ServiceNext)
  | cleanupLock
  | cleanupCallback
  | cleanupReset
  | cleanupUnlock
  | ended
deriving DecidableEq

/-- `slot` is the entry `service` of its data points at; `work` is the flag in `Signals`. -/
structure ServiceThread where
  slot : Slot
  protocol : BridgeConnection.Protocol
  pc : ServicePc
  work : Bool

/-- `sender` of `bridge.c`, up to how the bytes go out. -/
inductive SendPc where
  | loopTest
  | poll
  | write
  | ended
deriving DecidableEq

/-- `receiver` of `bridge.c`: the null message is queued before `work` is cleared. -/
inductive ReceivePc where
  | reading
  | nullAdded
  | ended
deriving DecidableEq

inductive Holder where
  | main
  | service (k : Nat)
deriving DecidableEq

/-- `incarnation i` is the last one on slot `i`, `started` their number so far.
`queue` is the send queue with the `spaceSem` places left; `added` all that was
ever added to it. -/
structure ThreadsState where
  bridge : BridgeConnection
  startLock : Option Holder
  cleanupLock : Option Holder
  main : MainPc
  thread : Nat → ServiceThread
  incarnation : Slot → Nat
  started : Nat
  work : Bool
  sender : SendPc
  receiver : ReceivePc
  spaceSem : Nat
  queue : List (Option MultiplexedMessage)
  added : List (Origin × Option MultiplexedMessage)

inductive ThreadsLabel where
  /-- Main polls a frame of the phone, and tests `services[i].port`. -/
  | frame (i : Slot) (data : List UInt8)
  /-- Main polls the null message. -/
  | null
  | main
  | openNewPort (i : Option Slot)
  /-- Whether `Init` of the requested service has succeeded. -/
  | init (ok : Bool)
  /-- What the calls of `write` return. -/
  | bulkWrite (outcomes : List Int)
  /-- The marshalled reply, and the error that replaces one that is too long;
  nothing if libdbus made no message or no reply. -/
  | reply (reply : Option (List UInt8)) (messageTooLong : List UInt8)
  | service (k : Nat)
  /-- `read` returns these bytes, or none of them. -/
  | read (k : Nat) (data : Option (List UInt8))
  /-- A signal popped from the bus, if it is one. -/
  | pop (k : Nat) (signal : Option (List UInt8))
  | sender
  /-- Whether a frame could be written. -/
  | wrote (ok : Bool)
  | receiver

def statusCode : Signal → UInt8
  | .eof => streamEof
  | .close => streamClose

/-- The buffer `sendEof` and `sendClose` build for the port they read. -/
def statusBuffer (port : Int) (g : Signal) : List UInt8 :=
  [lowByte port, highByte port, statusCode g, 0]

/-- The end of `MethodOnBytesReceived`: replies over 4000 bytes are not sent. -/
def methodReply (reply : Option (List UInt8)) (messageTooLong : List UInt8) :
    Option (List UInt8) :=
  reply.map fun marshalled => if marshalled.length > 4000 then messageTooLong else marshalled

/-- The size of the buffer of `bulkTransferThread`. -/
def bulkBufferSize : Nat := 1024

/-- The protocol a request asks for, and the error when its `Init` fails. -/
def requestedProtocol : UInt8 → Option (BridgeConnection.Protocol × UInt8)
  | 1 => some (.bulk, 2)
  | 2 => some (.method, 3)
  | 3 => some (.signals, 2)
  | _ => none

def closeFlag : Signal → BridgeService → BridgeService
  | .eof, service => { service with outputOpen := false }
  | .close, service => { service with inputOpen := false }

namespace ThreadsState

variable (s : ThreadsState)

def enter (main : MainPc) : ThreadsState := { s with main }

def modify (i : Slot) (f : BridgeService → BridgeService) : ThreadsState :=
  { s with bridge := s.bridge.modify i f }

def pc (k : Nat) : ServicePc := (s.thread k).pc

def slot (k : Nat) : Slot := (s.thread k).slot

def place (k : Nat) (pc : ServicePc) : ThreadsState :=
  { s with thread := Function.update s.thread k { s.thread k with pc } }

/-- `signals->work = 0`. -/
def stopWork (k : Nat) : ThreadsState :=
  { s with thread := Function.update s.thread k { s.thread k with work := false } }

/-- The message `writeAllPort` makes for the entry `i`. -/
def message (i : Slot) (buffer : List UInt8) : MultiplexedMessage :=
  ⟨BitVec.ofInt 16 (s.bridge.services i).port, BitVec.ofNat 16 buffer.length, buffer⟩

def bothClosed (i : Slot) : Bool :=
  !(s.bridge.services i).inputOpen && !(s.bridge.services i).outputOpen

/-- `addSendQueue` behind its semaphore. -/
def store (msg : Option MultiplexedMessage) (origin : Origin) : ThreadsState :=
  { s with queue := s.queue ++ [msg], added := s.added ++ [(origin, msg)] }

/-! ## Main -/

/-- The call through `onBytesReceived`; a null pointer, or a status about a port
outside the table, has no result. -/
def callOnBytesReceived (i : Slot) (data : List UInt8) : Option ThreadsState :=
  (s.bridge.services i).onBytesReceived.bind fun f =>
    match f with
    | .portStatusOnBytesReceived =>
        (BridgeConnection.statusTarget data).bind fun target =>
          data[2]?.map fun status => s.enter (.statusTest target status)
    | .serviceSpawnerOnBytesReceived => data[1]?.map fun protocol => s.enter (.spawnLock protocol)
    | .keepaliveOnBytesReceived =>
        some (s.enter (.write i [0x70, 0x6f, 0x6e, 0x67] .bridge .poll))
    | .bulkOnBytesReceived => some (s.enter (.bulkWrites i data))
    | .methodOnBytesReceived => some (s.enter (.method i))
    | .signalsOnBytesReceived => some (s.enter (.resume .poll))

def statusSwitch (target : Slot) (status : UInt8) : ThreadsState :=
  if status = streamEof then
    (s.modify target (closeFlag .close)).enter (.onEof target)
  else if status = streamClose then
    (s.modify target (closeFlag .eof)).enter (.resume (.closedTest target))
  else s.enter (.resume (.closedTest target))

/-- The call through `onEof`; `BulkOnEof` dereferences `service_data`. -/
def callOnEof (target : Slot) : Option ThreadsState :=
  (s.bridge.services target).onEof.bind fun f =>
    match f with
    | .methodOnEof => some (s.enter (.sendBuild target .eof))
    | .bulkOnEof =>
        match (s.bridge.services target).serviceData with
        | some (.bulk _) =>
            some ((s.modify target fun service =>
              { service with serviceData := some (.bulk (-1)) }).enter (.resume (.closedTest target)))
        | _ => none
    | .portStatusOnEof | .serviceSpawnerOnEof | .keepaliveOnEof | .signalsOnEof =>
        some (s.enter (.resume (.closedTest target)))

/-- `sendEof` returns into `PortStatusOnBytesReceived`, `sendClose` into `BulkOnBytesReceived`. -/
def behindSend (i : Slot) : Signal → Next
  | .eof => .closedTest i
  | .close => .poll

/-- `service->onCleanupService(...)`; the thread of a service is joined. -/
def callOnCleanupService (i : Slot) (next : Next) : ThreadsState :=
  match (s.bridge.services i).onCleanupService with
  | some .bulkCleanup => s.enter (.cleanupJoin i (s.incarnation i) next)
  | some .signalsCleanup =>
      (s.stopWork (s.incarnation i)).enter (.cleanupJoin i (s.incarnation i) next)
  | _ => s.enter (.cleanupReset i next)

def resumeMain : Next → Option ThreadsState
  | .spawnUnlock => some { s with startLock := none, main := .resume .poll }
  | .sendTest i g =>
      if s.bothClosed i then some (s.enter (.cleanupLock i (behindSend i g)))
      else some (s.enter (.resume (behindSend i g)))
  | .closedTest i =>
      if s.bothClosed i then some (s.enter (.cleanupLock i .poll))
      else some (s.enter (.resume .poll))
  | .deInit n =>
      if h : n < maxPorts then
        if (s.bridge.services ⟨n, h⟩).port ≠ -1 then
          some (s.enter (.cleanupLock ⟨n, h⟩ (.deInit (n + 1))))
        else some (s.enter (.resume (.deInit (n + 1))))
      else some (s.enter (.addWait none .bridge .joinReceive))
  | .joinReceive =>
      if s.receiver = .ended then some (s.enter (.resume .joinSend)) else none
  | .joinSend => if s.sender = .ended then some (s.enter (.resume .finished)) else none
  | .poll | .finished => none

def runMain : Option ThreadsState :=
  match s.main with
  | .resume next => s.resumeMain next
  | .call i data => s.callOnBytesReceived i data
  | .statusTest target status =>
      if (s.bridge.services target).port = -1 then some (s.enter (.resume .poll))
      else some (s.enter (.statusSwitch target status))
  | .statusSwitch target status => some (s.statusSwitch target status)
  | .onEof target => s.callOnEof target
  | .spawnLock protocol =>
      if s.startLock = none then
        some { s with startLock := some .main, main := .spawnOpen protocol }
      else none
  | .spawnInstall i k protocol =>
      some { s with
        bridge := s.bridge.install i protocol
        main := .write spawnerService (openResponse i) (.opened k) .spawnUnlock }
  | .sendBuild i g =>
      some (s.enter (.sendClear i g (statusBuffer (s.bridge.services i).port g)))
  | .sendClear i g buffer =>
      some ((s.modify i (closeFlag g)).enter
        (.write portStatusService buffer (.service (s.incarnation i)) (.sendTest i g)))
  | .write i buffer origin next =>
      some (s.enter (.addWait (some (s.message i buffer)) origin next))
  | .addWait msg origin next =>
      if 0 < s.spaceSem then
        some { s with spaceSem := s.spaceSem - 1, main := .addStore msg origin next }
      else none
  | .addStore msg origin next => some ((s.store msg origin).enter (.resume next))
  | .cleanupLock i next =>
      if s.cleanupLock = none then
        some { s with cleanupLock := some .main, main := .cleanupCallback i next }
      else none
  | .cleanupCallback i next => some (s.callOnCleanupService i next)
  | .cleanupJoin i k next =>
      if s.pc k = .ended then some (s.enter (.cleanupReset i next)) else none
  | .cleanupReset i next =>
      some ((s.modify i fun _ => .unused).enter (.cleanupUnlock next))
  | .cleanupUnlock next => some { s with cleanupLock := none, main := .resume next }
  | .bulkWrites _ _ | .method _ | .spawnOpen _ | .spawnInit _ _ => none

def frame (i : Slot) (data : List UInt8) : Option ThreadsState :=
  match s.main with
  | .resume .poll =>
      if (s.bridge.services i).port = -1 then some s else some (s.enter (.call i data))
  | _ => none

def null : Option ThreadsState :=
  match s.main with
  | .resume .poll =>
      if s.receiver ≠ .reading then some (s.enter (.resume (.deInit 0))) else none
  | _ => none

/-- The answer to a request that failed. -/
def deny (error : UInt8) : ThreadsState :=
  s.enter (.write spawnerService (deniedResponse error) .bridge .spawnUnlock)

/-- `openNewPort` may return any free entry. -/
def openNewPort (opened : Option Slot) : Option ThreadsState :=
  match s.main, opened with
  | .spawnOpen _, none => some (s.deny 5)
  | .spawnOpen protocol, some i =>
      if (s.bridge.services i).port = -1 then
        some { s with bridge := s.bridge.allocate i, main := .spawnInit i protocol }
      else none
  | _, _ => none

/-- The thread is created at the end of `Init`, before `service_data` is assigned. -/
def create (i : Slot) (protocol : BridgeConnection.Protocol) : ThreadsState :=
  let pc := if protocol = .method then .notCreated else .startLock
  { s with
    thread := Function.update s.thread s.started ⟨i, protocol, pc, true⟩
    incarnation := Function.update s.incarnation i s.started
    started := s.started + 1
    main := .spawnInstall i s.started protocol }

def init (ok : Bool) : Option ThreadsState :=
  match s.main with
  | .spawnInit i protocol =>
      match requestedProtocol protocol with
      | none => some (s.deny 1)
      | some (protocol, error) => some (if ok then s.create i protocol else s.deny error)
  | _ => none

def bulkWrite (outcomes : List Int) : Option ThreadsState :=
  match s.main with
  | .bulkWrites i data =>
      match (s.bridge.services i).serviceData with
      | some (.bulk fd) =>
          (BridgeConnection.bulkWrites fd data data.length outcomes).map fun r =>
            if r.2 then s.enter (.sendBuild i .close) else s.enter (.resume .poll)
      | _ => none
  | _ => none

def reply (reply : Option (List UInt8)) (messageTooLong : List UInt8) : Option ThreadsState :=
  match s.main with
  | .method i =>
      match methodReply reply messageTooLong with
      | none => some (s.enter (.resume .poll))
      | some marshalled => some (s.enter (.write i marshalled (.service (s.incarnation i)) .poll))
  | _ => none

/-! ## Services -/

def resumeService (k : Nat) : ServiceNext → Option ThreadsState
  | .loop =>
      match (s.thread k).protocol with
      | .signals => if (s.thread k).work then some (s.place k .pop) else some (s.place k .ended)
      | _ => none
  | .eofTest => if s.bothClosed (s.slot k) then some (s.place k .cleanupLock) else some (s.place k .ended)

/-- `BulkCleanup` on the thread itself only detaches it. -/
def runService (k : Nat) : Option ThreadsState :=
  match s.pc k with
  | .startLock =>
      if s.startLock = none then
        some ({ s with startLock := some (.service k) }.place k .startUnlock)
      else none
  | .startUnlock => some ({ s with startLock := none }.place k (.resume .loop))
  | .resume next => s.resumeService k next
  | .write data => some (s.place k (.addWait (s.message (s.slot k) data) .loop))
  | .eofBuild =>
      some (s.place k (.eofClear (statusBuffer (s.bridge.services (s.slot k)).port .eof)))
  | .eofClear buffer => some ((s.modify (s.slot k) (closeFlag .eof)).place k (.eofWrite buffer))
  | .eofWrite buffer =>
      some (s.place k (.addWait (s.message portStatusService buffer) .eofTest))
  | .addWait msg next =>
      if 0 < s.spaceSem then
        some ({ s with spaceSem := s.spaceSem - 1 }.place k (.addStore msg next))
      else none
  | .addStore msg next => some ((s.store (some msg) (.service k)).place k (.resume next))
  | .cleanupLock =>
      if s.cleanupLock = none then
        some ({ s with cleanupLock := some (.service k) }.place k .cleanupCallback)
      else none
  | .cleanupCallback => some (s.place k .cleanupReset)
  | .cleanupReset => some ((s.modify (s.slot k) fun _ => .unused).place k .cleanupUnlock)
  | .cleanupUnlock => some ({ s with cleanupLock := none }.place k .ended)
  | .notCreated | .pop | .ended => none

def read (k : Nat) (data : Option (List UInt8)) : Option ThreadsState :=
  match s.pc k, (s.thread k).protocol, data with
  | .resume .loop, .bulk, none => some (s.place k .eofBuild)
  | .resume .loop, .bulk, some data =>
      if 1 ≤ data.length ∧ data.length ≤ bulkBufferSize then some (s.place k (.write data)) else none
  | _, _, _ => none

def pop (k : Nat) (signal : Option (List UInt8)) : Option ThreadsState :=
  match s.pc k, signal with
  | .pop, none => some (s.place k (.resume .loop))
  | .pop, some marshalled => some (s.place k (.write marshalled))
  | _, _ => none

/-! ## Sender and receiver -/

def runSender : Option ThreadsState :=
  match s.sender with
  | .loopTest => some { s with sender := if s.work then .poll else .ended }
  | .poll =>
      match s.queue with
      | [] => none
      | msg :: queue =>
          some { s with
            queue
            spaceSem := s.spaceSem + 1
            sender := if msg.isSome then .write else .ended }
  | .write | .ended => none

def wrote (ok : Bool) : Option ThreadsState :=
  match s.sender with
  | .write => some { s with work := s.work && ok, sender := .loopTest }
  | _ => none

def runReceiver : Option ThreadsState :=
  match s.receiver with
  | .reading => some { s with receiver := .nullAdded }
  | .nullAdded => some { s with work := false, receiver := .ended }
  | .ended => none

def step : ThreadsLabel → Option ThreadsState
  | .frame i data => s.frame i data
  | .null => s.null
  | .main => s.runMain
  | .openNewPort i => s.openNewPort i
  | .init ok => s.init ok
  | .bulkWrite outcomes => s.bulkWrite outcomes
  | .reply reply messageTooLong => s.reply reply messageTooLong
  | .service k => s.runService k
  | .read k data => s.read k data
  | .pop k signal => s.pop k signal
  | .sender => s.runSender
  | .wrote ok => s.wrote ok
  | .receiver => s.runReceiver

/-- `initServer` has returned; no other service is running. -/
def initial : ThreadsState where
  bridge := initServer
  startLock := none
  cleanupLock := none
  main := .resume .poll
  thread := fun _ => ⟨portStatusService, .method, .notCreated, false⟩
  incarnation := fun _ => 0
  started := 0
  work := true
  sender := .loopTest
  receiver := .reading
  spaceSem := messagequeMax
  queue := []
  added := []

end ThreadsState

namespace ThreadsState

variable (s : ThreadsState)

@[simp] theorem place_pc_self (k : Nat) (pc : ServicePc) : (s.place k pc).pc k = pc := by
  simp [place, ThreadsState.pc]

theorem place_pc_ne {k j : Nat} (h : j ≠ k) (pc : ServicePc) :
    (s.place k pc).pc j = s.pc j := by
  simp [place, ThreadsState.pc, h]

@[simp] theorem place_slot (k j : Nat) (pc : ServicePc) : (s.place k pc).slot j = s.slot j := by
  by_cases h : j = k
  · subst h
    simp [place, slot]
  · simp [place, slot, h]

@[simp] theorem stopWork_pc (k j : Nat) : (s.stopWork k).pc j = s.pc j := by
  by_cases h : j = k
  · subst h
    simp [stopWork, pc]
  · simp [stopWork, pc, h]

@[simp] theorem stopWork_slot (k j : Nat) : (s.stopWork k).slot j = s.slot j := by
  by_cases h : j = k
  · subst h
    simp [stopWork, slot]
  · simp [stopWork, slot, h]

theorem create_pc_ne {k : Nat} (h : k ≠ s.started) (i : Slot)
    (protocol : BridgeConnection.Protocol) : (s.create i protocol).pc k = s.pc k := by
  simp [create, pc, h]

theorem create_slot_ne {k : Nat} (h : k ≠ s.started) (i : Slot)
    (protocol : BridgeConnection.Protocol) : (s.create i protocol).slot k = s.slot k := by
  simp [create, slot, h]

@[simp] theorem create_slot_self (i : Slot) (protocol : BridgeConnection.Protocol) :
    (s.create i protocol).slot s.started = i := by
  simp [create, slot]

theorem create_pc_self (i : Slot) (protocol : BridgeConnection.Protocol) :
    (s.create i protocol).pc s.started = .notCreated ∨
      (s.create i protocol).pc s.started = .startLock := by
  cases protocol <;> simp [create, pc]

end ThreadsState

def bridgeThreads : Machine ThreadsState ThreadsLabel where
  init s := s = .initial
  step := ThreadsState.step

end AapBridge.Accessory
