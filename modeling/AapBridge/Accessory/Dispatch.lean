import AapBridge.Accessory.Lifecycle
import AapBridge.Accessory.Method
import AapBridge.Accessory.Receiver

/-! # From the wire to the payload parsers

The receiver thread, the main loop that hands its messages to
`sendToCorrectService`, and the services behind it, on the bytes of the message
and on nothing else. What files, payload programs and the bus do is in the label
of a dispatch. An access outside an object, or a call through a null pointer,
has no result and ends the run in `fault`.
-/

namespace AapBridge.Accessory

open AapBridge.Lib AapBridge.Lib.CMemory

/-- `fifos`: the directories and fifos of `BulkInit` could be made. `notified`:
there was a message and a bus for the payload. `started`: it agreed and the fifos
were opened. `bus`: `MethodInit` and `SignalsInit` got a connection. `outcomes`
are the returns of `write`, `reply` what is written back after a method call. -/
structure Environment where
  fifos : Bool
  notified : Bool
  started : Bool
  bus : Bool
  outcomes : List Int
  reply : Option (List UInt8)

/-- The STREAM_DENIED response with an error code. -/
def deniedResponse (error : UInt8) : List UInt8 := [0x73, 0, 0, 0x02, error, 0, 0, 0]

/-- `BulkInit` and `notifyPayload`: whether the transfer has started. -/
def bulkInit (mem : List UInt8) (busname : Nat) (env : Environment) : Option Bool :=
  (afterString mem busname).bind fun objectpath =>
  (afterString mem objectpath).bind fun arguments_for_payload =>
  if env.fifos && env.notified then
    (strlen mem arguments_for_payload).map fun _ => env.started
  else some false

/-- `SignalsInit`; `createRule` reads the last name. -/
def signalsInit (mem : List UInt8) (compressed_rule : Nat) (env : Environment) : Option Bool :=
  if env.bus then
    (afterString mem compressed_rule).bind fun objectpath =>
    (afterString mem objectpath).bind fun interfacename =>
    (afterString mem interfacename).bind fun signalname =>
    (strlen mem signalname).map fun _ => true
  else some false

namespace BridgeConnection

/-- The answer of the spawner on its own port: the callbacks are installed only
if `service_data` is not null. -/
def respond (b : BridgeConnection) (spawner new_service : Slot) (protocol : Protocol) (error : UInt8)
    (service_data : Bool) : BridgeConnection :=
  if service_data then
    (b.install new_service protocol).writeAllPort spawner (openResponse new_service)
  else b.writeAllPort spawner (deniedResponse error)

/-- `ServiceSpawnerOnBytesReceived`: the protocol, the length of the arguments,
which is only printed, and the arguments themselves. -/
def serviceSpawnerOnBytesReceived (b : BridgeConnection) (i : Slot) (buffer : List UInt8)
    (env : Environment) : Option BridgeConnection :=
  (load buffer 1 3).bind fun request =>
  b.openNewPort.bind fun opened =>
  match opened with
  | none => some (b.writeAllPort i (deniedResponse 5))
  | some (new_service, b) =>
      if request.headD 0 = 1 then
        (bulkInit buffer 4 env).map (b.respond i new_service .bulk 2)
      else if request.headD 0 = 2 then some (b.respond i new_service .method 3 env.bus)
      else if request.headD 0 = 3 then
        (signalsInit buffer 4 env).map (b.respond i new_service .signals 2)
      else some (b.writeAllPort i (deniedResponse 1))

/-- `BulkOnBytesReceived` as far as it goes: while a `write` blocks it has done
nothing to the table. -/
def bulkDispatch (b : BridgeConnection) (i : Slot) (buffer : List UInt8) (env : Environment) :
    Option BridgeConnection :=
  match (b.services i).serviceData with
  | some (.bulk fd) =>
      (load buffer 0 buffer.length).map fun _ =>
        match bulkWrites fd buffer buffer.length env.outcomes with
        | none => b
        | some r => if r.2 then b.sendClose i else b
  | _ => none

section

variable {Message : Type*} (target : Target) (lib : Libdbus Message)

/-- The `onBytesReceived` of each service; `some none` is `exit(1)`. -/
def runOnBytesReceived (b : BridgeConnection) (i : Slot) (f : OnBytesReceived) (buffer : List UInt8)
    (env : Environment) : Option (Option BridgeConnection) :=
  match f with
  | .portStatusOnBytesReceived => (b.portStatusOnBytesReceived buffer).map some
  | .serviceSpawnerOnBytesReceived => (b.serviceSpawnerOnBytesReceived i buffer env).map some
  | .keepaliveOnBytesReceived => some (some (b.keepaliveOnBytesReceived i))
  | .bulkOnBytesReceived => (b.bulkDispatch i buffer env).map some
  | .methodOnBytesReceived =>
      (MethodOnBytesReceived target lib buffer).map fun outcome =>
        match outcome with
        | .refused => some b
        | .exited => none
        | .built _ _ => some (env.reply.elim b (b.writeAllPort i))
  | .signalsOnBytesReceived => some (some b)

def sendToCorrectService (b : BridgeConnection) (msg : MultiplexedMessage) (env : Environment) :
    Option (Option BridgeConnection) :=
  (slot? msg.port.toInt).bind fun i =>
    if (b.services i).port = -1 then some (some b)
    else
      (b.services i).onBytesReceived.bind fun f =>
        (b.log i (.onBytesReceived f)).runOnBytesReceived target lib i f msg.data env

end

end BridgeConnection

inductive ProcessStatus where
  | running
  | exited
  | fault
deriving DecidableEq

/-- `polled` counts the messages `pollReceiveQueue` has returned. -/
structure AccessoryState where
  receiver : ReceiverState
  bridge : BridgeConnection
  polled : Nat
  status : ProcessStatus

inductive AccessoryLabel where
  | receive (l : ReceiverLabel)
  /-- The main loop takes the next message. -/
  | dispatch (env : Environment)
  /-- The thread of a bulk transfer ends, with `sendEof`. -/
  | bulkThreadEnds (i : Slot)

section

variable {Message : Type*} (target : Target) (lib : Libdbus Message)

namespace AccessoryState

def crashed (s : AccessoryState) : Bool :=
  match s.receiver.pc, s.status with
  | .fault, _ | _, .fault | _, .exited => true
  | _, _ => false

def dispatch (s : AccessoryState) (msg : MultiplexedMessage) (env : Environment) : AccessoryState :=
  match s.bridge.sendToCorrectService target lib msg env with
  | none => { s with polled := s.polled + 1, status := .fault }
  | some none => { s with polled := s.polled + 1, status := .exited }
  | some (some bridge) => { s with polled := s.polled + 1, bridge }

def step (s : AccessoryState) (label : AccessoryLabel) : Option AccessoryState :=
  if s.crashed then none
  else
    match label with
    | .receive l => (Accessory.receiver.step s.receiver l).map fun receiver => { s with receiver }
    | .dispatch env =>
        match s.receiver.queued[s.polled]? with
        | some (some msg) => some (s.dispatch target lib msg env)
        | some none | none => none
    | .bulkThreadEnds i =>
        match (s.bridge.services i).serviceData with
        | some (.bulk _) => some { s with bridge := s.bridge.sendEof i }
        | _ => none

def initial : AccessoryState where
  receiver := .initial
  bridge := initServer
  polled := 0
  status := .running

end AccessoryState

def accessory : Machine AccessoryState AccessoryLabel where
  init s := s = .initial
  step := AccessoryState.step target lib

end

end AapBridge.Accessory
