import AapBridge.Lib.Words
import AapBridge.Accessory.Message

/-! # The accessory's service table

`BridgeService.h` and the operations of `bridge.c` on `services[]`: closing a
direction, cleaning up, and what the port status service does to the slot it
was told about. Function pointers are the functions they can hold, `none` is
`NULL`; a call through `NULL` has no result. The table also carries what the
callbacks observe: the messages handed to `addSendQueue` and, in order, which
directions were closed and which callbacks ran.
-/

namespace AapBridge.Accessory

open AapBridge.Lib

abbrev Slot := Fin maxPorts

inductive OnBytesReceived where
  | portStatusOnBytesReceived
  | serviceSpawnerOnBytesReceived
  | keepaliveOnBytesReceived
  | bulkOnBytesReceived
  | methodOnBytesReceived
  | signalsOnBytesReceived
deriving DecidableEq

inductive OnEof where
  | portStatusOnEof
  | serviceSpawnerOnEof
  | keepaliveOnEof
  | bulkOnEof
  | methodOnEof
  | signalsOnEof
deriving DecidableEq

/-- `initServer` installs `KeepaliveOnEof` as the cleanup of the keepalive service. -/
inductive OnCleanupService where
  | portStatusCleanup
  | serviceSpawnerCleanup
  | keepaliveOnEof
  | bulkCleanup
  | methodCleanup
  | signalsCleanup
deriving DecidableEq

inductive ServiceData where
  | bridge
  | serviceSpawn
  | bulk (fifoToPayloadFD : Int)
  | methods
  | signals
deriving DecidableEq

structure BridgeService where
  port : Int
  serviceData : Option ServiceData
  inputOpen : Bool
  outputOpen : Bool
  onBytesReceived : Option OnBytesReceived
  onEof : Option OnEof
  onCleanupService : Option OnCleanupService
deriving DecidableEq

/-- The entry `initServer` writes and `CleanupService` leaves behind. -/
def BridgeService.unused : BridgeService where
  port := -1
  serviceData := none
  inputOpen := true
  outputOpen := true
  onBytesReceived := none
  onEof := none
  onCleanupService := none

inductive Event where
  | inputClosed
  | outputClosed
  | onBytesReceived (f : OnBytesReceived)
  | onEof (f : OnEof)
  | onCleanupService (f : OnCleanupService)
deriving DecidableEq

structure BridgeConnection where
  services : Slot → BridgeService
  lastAllocatedPort : Int
  sent : List MultiplexedMessage
  events : List (Slot × Event)

/-- `services[port]` for a port taken from the wire; `none` outside the table. -/
def slot? (port : Int) : Option Slot :=
  if h : 0 ≤ port ∧ port < maxPorts then some ⟨port.toNat, by omega⟩ else none

/-- The entries behind those of `initServer` begin here. -/
theorem three_inside : 3 < maxPorts := by decide

/-- `portStatusService` points at `services[0]`. -/
def portStatusService : Slot := ⟨0, by decide⟩

def streamEof : UInt8 := 0x03

def streamClose : UInt8 := 0x04

/-- `buffer[0] = service->port`, a conversion to `int8_t`. -/
def lowByte (port : Int) : UInt8 := UInt8.ofNat (port % 256).toNat

/-- `buffer[1] = service->port >> 8`. -/
def highByte (port : Int) : UInt8 := UInt8.ofNat (port / 256 % 256).toNat

namespace BridgeConnection

def modify (b : BridgeConnection) (i : Slot) (f : BridgeService → BridgeService) :
    BridgeConnection :=
  { b with services := Function.update b.services i (f (b.services i)) }

def log (b : BridgeConnection) (i : Slot) (e : Event) : BridgeConnection :=
  { b with events := b.events ++ [(i, e)] }

/-- `writeAllPort`, up to the `addSendQueue` it ends with. -/
def writeAllPort (b : BridgeConnection) (i : Slot) (buffer : List UInt8) : BridgeConnection :=
  { b with sent := b.sent ++
      [⟨BitVec.ofInt 16 (b.services i).port, BitVec.ofNat 16 buffer.length, buffer⟩] }

/-! ## Cleanup and the closing of directions -/

/-- `CleanupService`: the callback, if there is one, then the reset of the entry. -/
def cleanupService (b : BridgeConnection) (i : Slot) : BridgeConnection :=
  (match (b.services i).onCleanupService with
    | some f => b.log i (.onCleanupService f)
    | none => b).modify i fun _ => .unused

/-- The test each closing operation ends with. -/
def cleanupIfClosed (b : BridgeConnection) (i : Slot) : BridgeConnection :=
  if !(b.services i).inputOpen && !(b.services i).outputOpen then b.cleanupService i else b

def closeInput (b : BridgeConnection) (i : Slot) : BridgeConnection :=
  (b.modify i fun service => { service with inputOpen := false }).log i .inputClosed

def closeOutput (b : BridgeConnection) (i : Slot) : BridgeConnection :=
  (b.modify i fun service => { service with outputOpen := false }).log i .outputClosed

/-- The common text of `sendEof` and `sendClose`: the message is built before
the flag is cleared and names the port the entry has then. -/
def sendStatus (b : BridgeConnection) (i : Slot) (status : UInt8)
    (close : BridgeConnection → Slot → BridgeConnection) : BridgeConnection :=
  let port := (b.services i).port
  let buffer := [lowByte port, highByte port, status, 0]
  ((close b i).writeAllPort portStatusService buffer).cleanupIfClosed i

def sendEof (b : BridgeConnection) (i : Slot) : BridgeConnection :=
  b.sendStatus i streamEof closeOutput

def sendClose (b : BridgeConnection) (i : Slot) : BridgeConnection :=
  b.sendStatus i streamClose closeInput

/-! ## Callbacks -/

/-- `BulkOnEof` closes the fifo; it dereferences `service_data`. -/
def bulkOnEof (b : BridgeConnection) (i : Slot) : Option BridgeConnection :=
  match (b.services i).serviceData with
  | some (.bulk _) => some (b.modify i fun service => { service with serviceData := some (.bulk (-1)) })
  | _ => none

def runOnEof (b : BridgeConnection) (i : Slot) : OnEof → Option BridgeConnection
  | .methodOnEof => some (b.sendEof i)
  | .bulkOnEof => b.bulkOnEof i
  | .portStatusOnEof | .serviceSpawnerOnEof | .keepaliveOnEof | .signalsOnEof => some b

/-- `target_service->onEof(...)`, made without a test for `NULL`. -/
def callOnEof (b : BridgeConnection) (i : Slot) : Option BridgeConnection :=
  match (b.services i).onEof with
  | some f => (b.log i (.onEof f)).runOnEof i f
  | none => none

/-- The `switch` of `PortStatusOnBytesReceived`; the default branch prints
`casted_buffer[3]`. -/
def portStatusCase (b : BridgeConnection) (target : Slot) (status : UInt8) (buffer : List UInt8) :
    Option BridgeConnection :=
  if status = streamEof then (b.closeInput target).callOnEof target
  else if status = streamClose then some (b.closeOutput target)
  else buffer[3]?.map fun _ => b

/-- `PortStatusOnBytesReceived` once the target is known to be in use. -/
def portStatusSwitch (b : BridgeConnection) (target : Slot) (buffer : List UInt8) :
    Option BridgeConnection := do
  let status ← buffer[2]?
  let b ← b.portStatusCase target status buffer
  some (b.cleanupIfClosed target)

/-- `casted_buffer[0] | (casted_buffer[1] << 8)` on `int8_t`s promoted to `int`,
stored in a `short`. -/
def statusPort (low high : UInt8) : Int :=
  ((low.toBitVec.signExtend 32 ||| high.toBitVec.signExtend 32 <<< 8).setWidth 16).toInt

/-- `target_service`, the entry a status message names. -/
def statusTarget (buffer : List UInt8) : Option Slot := do
  let low ← buffer[0]?
  let high ← buffer[1]?
  slot? (statusPort low high)

def portStatusOnBytesReceived (b : BridgeConnection) (buffer : List UInt8) :
    Option BridgeConnection := do
  let target ← statusTarget buffer
  if (b.services target).port = -1 then some b else b.portStatusSwitch target buffer

/-- The reply of `KeepaliveOnBytesReceived`, the bytes of "pong". -/
def keepaliveOnBytesReceived (b : BridgeConnection) (i : Slot) : BridgeConnection :=
  b.writeAllPort i [0x70, 0x6f, 0x6e, 0x67]

/-- The loop of `BulkOnBytesReceived`, given what the calls of `write` return.
The pointer stays at the start of the buffer while `size` shrinks. The result
is what the fifo accepted and whether an error ended the loop; there is none
while a `write` is still blocked. -/
def bulkWrites (fd : Int) (buffer : List UInt8) (size : Int) :
    List Int → Option (List UInt8 × Bool)
  | [] => if size > 0 then none else some ([], false)
  | outcome :: outcomes =>
      if size > 0 then
        let wrote := if fd = -1 then -1 else outcome
        if wrote = -1 then some ([], true)
        else (bulkWrites fd buffer (size - wrote) outcomes).map fun r =>
          (buffer.take wrote.toNat ++ r.1, r.2)
      else some ([], false)

def bulkOnBytesReceived (b : BridgeConnection) (i : Slot) (buffer : List UInt8)
    (outcomes : List Int) : Option BridgeConnection :=
  match (b.services i).serviceData with
  | some (.bulk fd) =>
      (bulkWrites fd buffer buffer.length outcomes).map fun r => if r.2 then b.sendClose i else b
  | _ => none

/-! ## Opening a port -/

/-- The search of `openNewPort` from `port` on, entry by entry; `fuel` bounds
the loop, which comes back to its start after `MAX_PORTS` steps. A port outside
the table has no entry to read. -/
def searchPort (b : BridgeConnection) : Nat → Int → Option Slot
  | 0, _ => none
  | fuel + 1, port =>
      (slot? port).bind fun i =>
        if (b.services i).port ≠ -1 ∧ port ≠ b.lastAllocatedPort then
          b.searchPort fuel ((port + 1) % maxPorts)
        else some i

/-- What `openNewPort` writes when it returns `services[i]`. -/
def allocate (b : BridgeConnection) (i : Slot) : BridgeConnection :=
  { b.modify i fun service => { service with port := i } with lastAllocatedPort := i }

/-- `openNewPort`: `none` if an entry outside the table is read, `some none` if
all ports are in use. -/
def openNewPort (b : BridgeConnection) : Option (Option (Slot × BridgeConnection)) :=
  (b.searchPort (maxPorts + 1) (b.lastAllocatedPort + 1)).map fun i =>
    if (b.services i).port = -1 then some (i, b.allocate i) else none

/-- The three services a phone can ask for. -/
inductive Protocol where
  | bulk
  | method
  | signals
deriving DecidableEq

/-- What `ServiceSpawnerOnBytesReceived` stores once `Init` has succeeded;
`BulkInit` leaves an open fifo behind. -/
def install (b : BridgeConnection) (i : Slot) (protocol : Protocol) : BridgeConnection :=
  b.modify i fun service =>
    match protocol with
    | .bulk => { service with
        serviceData := some (.bulk 0)
        onBytesReceived := some .bulkOnBytesReceived
        onEof := some .bulkOnEof
        onCleanupService := some .bulkCleanup }
    | .method => { service with
        serviceData := some .methods
        onBytesReceived := some .methodOnBytesReceived
        onEof := some .methodOnEof
        onCleanupService := some .methodCleanup }
    | .signals => { service with
        serviceData := some .signals
        onBytesReceived := some .signalsOnBytesReceived
        onEof := some .signalsOnEof
        onCleanupService := some .signalsCleanup }

end BridgeConnection

/-- The table of `initServer`. -/
def initServer : BridgeConnection where
  services := fun i =>
    if i.val = 0 then { BridgeService.unused with
      port := 0
      serviceData := some .bridge
      onBytesReceived := some .portStatusOnBytesReceived
      onEof := some .portStatusOnEof
      onCleanupService := some .portStatusCleanup }
    else if i.val = 1 then { BridgeService.unused with
      port := 1
      serviceData := some .serviceSpawn
      onBytesReceived := some .serviceSpawnerOnBytesReceived
      onEof := some .serviceSpawnerOnEof
      onCleanupService := some .serviceSpawnerCleanup }
    else if i.val = 2 then { BridgeService.unused with
      port := 2
      serviceData := none
      onBytesReceived := some .keepaliveOnBytesReceived
      onEof := some .keepaliveOnEof
      onCleanupService := some .keepaliveOnEof }
    else .unused
  lastAllocatedPort := 2
  sent := []
  events := []

end AapBridge.Accessory
