import AapBridge.Lib.Justified
import AapBridge.Accessory.Incarnation
import AapBridge.Accessory.StatusEffect
import AapBridge.Accessory.BridgeThreads
import AapBridge.Android.PortStatus

/-! # Both ends of the bridge

The phone's library and the accessory's table, and the frames between them, each
direction in order. The accessory takes frames as operations on its table, so
an incarnation is one use of a slot; the phone numbers its services the same
way, as the responses come in the order of the requests. On the phone the test
of `Port.write` and its frame are two steps, and so are the flag, the frame and
the cleanup of `Port.eof` and `Port.close`: those of other threads come between. A
status of the phone for a port whose low byte is 128 or more makes the accessory leave
its table; such a frame is not handled here, nor any behind it.
-/

namespace AapBridge.Wire

open AapBridge.Lib AapBridge.Lib.HalfClose AapBridge.Accessory
open AapBridge.Android hiding Short

/-- A frame to the accessory, and the incarnation whose `Port` wrote it. -/
structure PortFrame where
  writer : Nat
  port : Short
  data : List UInt8
deriving DecidableEq

/-- What the library has of a service. -/
inductive PhoneService where
  | unknown
  /-- The response has come; `requestService` has not stored the service. -/
  | answered (portNr : Short)
  /-- In `activeServices`, while `getPort()` is null. -/
  | registered (portNr : Short)
  | running (port : Port)

/-- A thread behind the flag of `Port.eof` or `Port.close`. -/
inductive Telling where
  | message (k : Nat) (g : Signal)
  | cleanup (k : Nat)

/-- Incarnation `incarnation` was called with a frame that the `Port` of `writer`
wrote; `closed` tells whether its input had been closed, by `sendClose` or an EOF. -/
structure Handover where
  writer : Nat
  incarnation : Nat
  closed : Bool
deriving DecidableEq

/-- `answered` responses have come; `writing` holds what the thread in `write` of a
port is about to send. `accessory.bridge.sent` is on its way to the phone. -/
structure EndsState where
  services : Nat → PhoneService
  activeServices : Slot → Option Nat
  answered : Nat
  writing : Nat → Option (List UInt8)
  telling : List Telling
  toAccessory : List PortFrame
  accessory : LifecycleState
  handed : List Handover

/-- What the callback for a frame does, where the frame does not say. -/
inductive Course where
  | perform (op : Operation)
  /-- A request is denied. -/
  | deny (error : UInt8)
  /-- libdbus makes no message of the call, or no reply comes. -/
  | unanswered

inductive EndsLabel where
  /-- `requestService` writes what `portRequest` holds. -/
  | request (bytes : List UInt8)
  /-- `requestService` stores service `k`, whose constructor then stores the port. -/
  | register (k : Nat)
  | assign (k : Nat)
  /-- `Port.write` behind its test, and its frame. -/
  | writeTest (k : Nat) (data : List UInt8)
  | write (k : Nat)
  | close (k : Nat)
  | eof (k : Nat)
  | tell (n : Nat)
  /-- The oldest frame in this direction is handled. -/
  | toPhone
  | toAccessory (course : Course)
  /-- The accessory's service on slot `i`. -/
  | sendEof (i : Slot)
  | sendClose (i : Slot)

/-- The operation is the one the frame asks for. -/
def Fits (i : Slot) (data : List UInt8) : Operation → Prop
  | .status target code => i = portStatusService ∧
      BridgeConnection.statusTarget data = some target ∧ data[2]? = some code
  | .spawn _ protocol => i = spawnerService ∧
      ∃ code ∈ data[1]?, ∃ r ∈ requestedProtocol code, r.1 = protocol
  | .data j buffer _ _ => j = i ∧ buffer = data
  | .sendEof _ | .sendClose _ => False

instance (i : Slot) (data : List UInt8) (op : Operation) : Decidable (Fits i data op) := by
  cases op <;> unfold Fits <;> infer_instance

/-- The flag `Port.eof` and `Port.close` test and clear. -/
def portFlag (port : Port) : Signal → Bool
  | .eof => port.outputOpen
  | .close => port.inputOpen

/-- The bytes `PortStatus.eof` and `PortStatus.close` write. -/
def statusMessage (portNr : Short) : Signal → List UInt8
  | .eof => PortStatus.eofMessage portNr
  | .close => PortStatus.closeMessage portNr

namespace EndsState

variable (s : EndsState)

def setService (k : Nat) (service : PhoneService) : EndsState :=
  { s with services := Function.update s.services k service }

/-! ## The phone -/

/-- `Port.write` of the port of `k`, up to its monitor. -/
def portWrite (k : Nat) (port : Port) (data : List UInt8) : EndsState :=
  { s with toAccessory := s.toAccessory ++ [⟨k, port.portNr, data⟩] }

/-- `requestService` and `PortStatus` write on ports 1 and 0, if the output is open. -/
def libraryWrite (k : Nat) (data : List UInt8) : Option EndsState :=
  match s.services k with
  | .running port => if port.outputOpen then some (s.portWrite k port data) else none
  | _ => none

def register (k : Nat) : Option EndsState :=
  match s.services k with
  | .answered portNr =>
      (slot? portNr.toInt).map fun i =>
        { s.setService k (.registered portNr) with
          activeServices := Function.update s.activeServices i (some k) }
  | _ => none

def assign (k : Nat) : Option EndsState :=
  match s.services k with
  | .registered portNr => (Port.create portNr).map fun port => s.setService k (.running port)
  | _ => none

/-- Ports 0 and 1 are the library's own. -/
def writeTest (k : Nat) (data : List UInt8) : Option EndsState :=
  match s.services k, s.writing k with
  | .running port, none =>
      if port.outputOpen ∧ 2 ≤ k ∧ data.length ≤ 4000 then
        some { s with writing := Function.update s.writing k (some data) }
      else none
  | _, _ => none

def write (k : Nat) : Option EndsState :=
  match s.services k, s.writing k with
  | .running port, some data =>
      some { s.portWrite k port data with writing := Function.update s.writing k none }
  | _, _ => none

/-- The test and the flag of `Port.eof` and `Port.close`. -/
def clear (k : Nat) (g : Signal) : Option EndsState :=
  match s.services k with
  | .running port =>
      if portFlag port g ∧ 2 ≤ k then
        some { s.setService k (.running (Phone.clear g true port)) with
          telling := s.telling ++ [.message k g] }
      else none
  | _ => none

/-- The test and the assignment behind a status message about slot `i`. -/
def cleanup (i : Slot) (port : Port) : EndsState :=
  if PortStatus.cleanupTest port then
    { s with activeServices := Function.update s.activeServices i none }
  else s

/-- A thread of `telling` goes on; when the write throws it does not come back. -/
def tell (n : Nat) : Option EndsState :=
  match s.telling[n]? with
  | some (.message k g) =>
      match s.services k with
      | .running port =>
          match s.libraryWrite 0 (statusMessage port.portNr g) with
          | some t => some { t with telling := s.telling.set n (.cleanup k) }
          | none => some { s with telling := s.telling.eraseIdx n }
      | _ => none
  | some (.cleanup k) =>
      match s.services k with
      | .running port =>
          (slot? port.portNr.toInt).map fun i =>
            { s.cleanup i port with telling := s.telling.eraseIdx n }
      | _ => none
  | none => none

/-- `PortStatus.onDataReady`; the null pointer of a service without a port is caught. -/
def statusReady (data : List UInt8) : Option EndsState :=
  match data with
  | [low, high, status, _] =>
      match slot? (getShort low high).toInt with
      | none => some s
      | some i =>
          match (s.activeServices i).map s.services, s.activeServices i with
          | some (.running port), some k =>
              let port := if status = 3 then Phone.clear .eof false port
                else if status = 4 then Phone.clear .close false port else port
              some ((s.setService k (.running port)).cleanup i port)
          | _, _ => some s
  | _ => none

/-- `ServiceSpawner.onDataReady`. -/
def responseReady (data : List UInt8) : Option EndsState :=
  match data with
  | [0x73, low, high, success, _, _, _, _] =>
      if success = 1 then
        some { s.setService s.answered (.answered (getShort low high)) with
          answered := s.answered + 1 }
      else some s
  | _ => none

/-- The receiver stops at a service without a port, and loses its place in the
stream at a port whose input is closed. -/
def dataReady (msg : MultiplexedMessage) : Option EndsState :=
  (slot? msg.port.toInt).bind fun i =>
    match s.activeServices i with
    | none => some s
    | some k =>
        match s.services k with
        | .running port =>
            if port.inputOpen then
              if k = 0 then s.statusReady msg.data
              else if k = 1 then s.responseReady msg.data
              else some s
            else none
        | _ => none

def toPhone : Option EndsState :=
  match s.accessory.bridge.sent with
  | [] => none
  | msg :: rest =>
      { s with accessory := { s.accessory with
          bridge := { s.accessory.bridge with sent := rest } } }.dataReady msg

/-! ## The accessory -/

/-- The table before an operation, whose events are its own. -/
def quiet : BridgeConnection := { s.accessory.bridge with events := [] }

/-- `sendToCorrectService` on a slot in use: what is called, and what it leaves. -/
def call (i : Slot) (data : List UInt8) : Course → Option (Operation × BridgeConnection)
  | .perform op => if Fits i data op then (perform s.quiet op).map (op, ·) else none
  | .deny error =>
      if i = spawnerService then
        (s.quiet.accept i .serviceSpawnerOnBytesReceived).map fun b =>
          (.data i data [] [], b.writeAllPort i (deniedResponse error))
      else none
  | .unanswered => (s.quiet.accept i .methodOnBytesReceived).map (.data i data [] [], ·)

/-- The input of the incarnation on slot `i` has been closed, by either side. -/
def inputClosed (i : Slot) : Bool :=
  decide (.inputClosed ∈ s.accessory.eventsOf (s.accessory.incarnation i))

def sendToCorrectService (course : Course) : Option EndsState :=
  match s.toAccessory with
  | [] => none
  | frame :: rest =>
      (slot? frame.port.toInt).bind fun i =>
        if (s.accessory.bridge.services i).port = -1 then some { s with toAccessory := rest }
        else
          (s.call i frame.data course).map fun r =>
            { s with
              toAccessory := rest
              accessory := s.accessory.record r.1 r.2
              handed := s.handed ++ [⟨frame.writer, s.accessory.incarnation i, s.inputClosed i⟩] }

/-- A service calls `sendEof` or `sendClose`. -/
def serviceCalls (op : Operation) : Option EndsState :=
  (perform s.quiet op).map fun b => { s with accessory := s.accessory.record op b }

def step : EndsLabel → Option EndsState
  | .request bytes => s.libraryWrite 1 bytes
  | .register k => s.register k
  | .assign k => s.assign k
  | .writeTest k data => s.writeTest k data
  | .write k => s.write k
  | .close k => s.clear k .close
  | .eof k => s.clear k .eof
  | .tell n => s.tell n
  | .toPhone => s.toPhone
  | .toAccessory course => s.sendToCorrectService course
  | .sendEof i => s.serviceCalls (.sendEof i)
  | .sendClose i => s.serviceCalls (.sendClose i)

/-- The three services the constructor of `AccessoryBridge` makes. -/
def libraryService (k : Nat) : PhoneService :=
  if k < 3 then
    match Port.create (BitVec.ofNat 16 k) with
    | some port => .running port
    | none => .unknown
  else .unknown

def initial : EndsState where
  services := libraryService
  activeServices := fun i => if i.val < 3 then some i else none
  answered := 3
  writing := fun _ => none
  telling := []
  toAccessory := []
  accessory := .initial
  handed := []

end EndsState

def bothEnds : Machine EndsState EndsLabel where
  init s := s = .initial
  step := EndsState.step

end AapBridge.Wire
