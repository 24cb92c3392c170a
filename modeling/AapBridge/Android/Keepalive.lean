import AapBridge.Accessory.SentFrames
import AapBridge.Android.PortWrite

/-! # The keepalive service

The constructor of `AccessoryBridge` as far as the `Pinger` thread can see it,
that thread and any threads in `sendKeepalive`, which share one static buffer,
and the looper that handles the messages of the failure handler. On the other
side is the accessory's table, where any operation that does not concern the
keepalive's own slot may come between. Port 2 is never closed: neither side asks
for it. The phone's receiver thread takes every frame whole: no other input is closed
while a frame for it is on its way, and none is sent that does not fit its service. Time
is not modelled, the task may run whenever it is due.
-/

namespace AapBridge.Android

open AapBridge.Lib
open AapBridge.Accessory (BridgeConnection Operation MultiplexedMessage Slot Table maxPorts perform slot?)

def ByteBuffer.rewind (b : ByteBuffer) : ByteBuffer :=
  { b with
    position := 0
    mark := none
    position_le := Nat.zero_le _ }

namespace Keepalive

theorem two_inside : 2 < maxPorts := by decide

/-- `services[2]` on the accessory, `activeServices[2]` on the phone. -/
def slot : Slot := ⟨2, two_inside⟩

/-- "ping" -/
def pingBytes : List UInt8 := [0x70, 0x69, 0x6e, 0x67]

/-- The static buffer behind the class initialiser. -/
def ping : Option ByteBuffer := (ByteBuffer.allocate 4).put pingBytes

/-- How far a constructor has come. -/
inductive Construction where
  /-- The fields have their values, so the timer runs. -/
  | fields
  /-- `connection` is assigned, then `outputStream`. -/
  | connected
  | streams
  /-- It has returned, or thrown. -/
  | built
  | threw
deriving DecidableEq

/-- Where a thread is in `sendKeepalive`; `clear` is in the task of the pinger. -/
inductive SendPc where
  | idle
  | clear
  | rewind
  /-- Before the monitor of the port. -/
  | write
  /-- With the monitor, before and behind the write to the stream. -/
  | stream (amount : Short)
  | leave (amount : Short)
deriving DecidableEq

/-- The pinger is the thread `none`. `messages` are those the handler was sent and
the looper has not taken. `ticks` counts the tests that passed, `pinged` and `called`
the frames of the pinger and of the others, `handled` the replies that set the
flag; `failed` tells whether a stream threw, `early` whether the pinger found none. -/
structure State (Tid : Type*) where
  construction : Construction
  connection : Bool
  outputStream : Bool
  keepAliveReceived : Bool
  cancelled : Bool
  pc : Option Tid → SendPc
  monitor : Option (Option Tid)
  ping : ByteBuffer
  messages : List Nat
  posted : List Nat
  closed : Bool
  uncaught : Bool
  toAccessory : List (List UInt8)
  accessory : BridgeConnection
  ticks : Nat
  pinged : Nat
  called : Nat
  handled : Nat
  missed : Nat
  failed : Bool
  early : Bool

inductive Label (Tid : Type*) where
  /-- The constructor goes on, or throws. -/
  | construct (succeeds : Bool)
  /-- The task of the timer begins. -/
  | tick
  /-- `AccessoryBridge.sendKeepalive`. -/
  | call (t : Tid)
  /-- The next step of a thread; the stream may throw. -/
  | run (t : Option Tid) (succeeds : Bool)
  /-- The looper takes a message. -/
  | handle
  /-- The accessory dispatches the oldest ping, or does something else. -/
  | answer
  | operate (op : Operation)
  /-- The receiver thread takes the oldest frame; `skipRead` may throw. -/
  | receive (succeeds : Bool)

/-- The entry a service closes, a status message names or a frame is for. -/
def concerned : Operation → Option Slot
  | .spawn _ _ => none
  | .status target _ => some target
  | .data i _ _ _ => some i
  | .sendEof i => some i
  | .sendClose i => some i

/-- No service but the keepalive closes its port, and no status message names it. -/
def Elsewhere (op : Operation) : Prop := concerned op ≠ some slot

instance (op : Operation) : Decidable (Elsewhere op) :=
  inferInstanceAs (Decidable (concerned op ≠ some slot))

/-- Replies of the keepalive service. -/
def isPong (msg : MultiplexedMessage) : Bool := slot? msg.port.toInt = some slot

namespace State

variable {Tid : Type*} [DecidableEq Tid] (s : State Tid)

def place (t : Option Tid) (pc : SendPc) : State Tid := { s with pc := Function.update s.pc t pc }

def post (what : Nat) : State Tid :=
  { s with messages := s.messages ++ [what], posted := s.posted ++ [what] }

/-- An exception leaves the monitor; the task catches it, other callers do not. -/
def raise (t : Option Tid) : State Tid :=
  { s with
    monitor := if s.monitor = some t then none else s.monitor
    messages := if t = none then s.messages ++ [1] else s.messages
    posted := if t = none then s.posted ++ [1] else s.posted }.place t .idle

/-- `getOutputStream` and what follows it may throw, and so does a connection that is null. -/
def construct (succeeds : Bool) : Option (State Tid) :=
  match s.construction with
  | .fields =>
      if succeeds then some { s with construction := .connected, connection := true }
      else some { s with construction := .threw }
  | .connected =>
      if succeeds then some { s with construction := .streams, outputStream := true }
      else some { s with construction := .threw }
  | .streams =>
      if succeeds then some { s with construction := .built }
      else some { s with construction := .threw }
  | .built | .threw => none

/-- The test at the head of the task. -/
def tick : Option (State Tid) :=
  if s.pc none = .idle ∧ s.cancelled = false then
    if s.keepAliveReceived then some (s.place none .clear)
    else some (({ s with cancelled := true }.post 0).place none .rewind)
  else none

def call (t : Tid) : Option (State Tid) :=
  if s.construction = .built ∧ s.pc (some t) = .idle then some (s.place (some t) .rewind) else none

/-- A frame goes out. -/
def sent (t : Option Tid) (payload : List UInt8) : State Tid :=
  { s with
    toAccessory := s.toAccessory ++ [payload]
    pinged := if t = none then s.pinged + 1 else s.pinged
    called := if t = none then s.called else s.called + 1 }

def run (t : Option Tid) (succeeds : Bool) : Option (State Tid) :=
  match s.pc t with
  | .idle => none
  | .clear => some ({ s with keepAliveReceived := false, ticks := s.ticks + 1 }.place t .rewind)
  | .rewind => some ({ s with ping := s.ping.rewind }.place t .write)
  | .write =>
      if s.monitor = none then
        some ({ s with monitor := some t }.place t (.stream (writeAmount s.ping)))
      else none
  | .stream amount =>
      if s.outputStream then
        if succeeds then
          match CMemory.load s.ping.array (s.ping.arrayOffset + s.ping.position) amount.toNat with
          | some payload => some ((s.sent t payload).place t (.leave amount))
          | none => some (s.raise t)
        else some ({ s with failed := true }.raise t)
      else some ({ s with early := true }.raise t)
  | .leave amount =>
      match s.ping.setPosition (s.ping.position + amount.toNat) with
      | some buffer => some ({ s with ping := buffer, monitor := none }.place t .idle)
      | none => some (s.raise t)

/-- `handleMessage`; its thread was the one in the constructor. -/
def handle : Option (State Tid) :=
  match s.construction, s.messages with
  | .built, _ :: rest | .threw, _ :: rest =>
      if s.connection then some { s with messages := rest, closed := true }
      else some { s with messages := rest, uncaught := true }
  | _, _ => none

/-- The table before an operation, whose events are its own. -/
def quiet : BridgeConnection := { s.accessory with events := [] }

def operate (op : Operation) : Option (State Tid) :=
  (perform s.quiet op).map fun b => { s with accessory := b }

def answer : Option (State Tid) :=
  match s.toAccessory with
  | [] => none
  | payload :: rest => { s with toAccessory := rest }.operate (.data slot payload [] [])

def receive (succeeds : Bool) : Option (State Tid) :=
  match s.construction, s.accessory.sent with
  | .built, msg :: rest =>
      let taken := { s with accessory := { s.accessory with sent := rest } }
      if isPong msg then
        if succeeds then some { taken with keepAliveReceived := true, handled := s.handled + 1 }
        else some { taken with missed := s.missed + 1, failed := true }
      else some taken
  | _, _ => none

def step : Label Tid → Option (State Tid)
  | .construct succeeds => s.construct succeeds
  | .tick => s.tick
  | .call t => s.call t
  | .run t succeeds => s.run t succeeds
  | .handle => s.handle
  | .answer => s.answer
  | .operate op => if Elsewhere op then s.operate op else none
  | .receive succeeds => s.receive succeeds

/-- The constructor of `Keepalive` has scheduled its task. -/
def initial (buffer : ByteBuffer) : State Tid where
  construction := .fields
  connection := false
  outputStream := false
  keepAliveReceived := true
  cancelled := false
  pc := fun _ => .idle
  monitor := none
  ping := buffer
  messages := []
  posted := []
  closed := false
  uncaught := false
  toAccessory := []
  accessory := Accessory.initServer
  ticks := 0
  pinged := 0
  called := 0
  handled := 0
  missed := 0
  failed := false
  early := false

/-- The replies on their way to the phone. -/
def pongs : Nat := s.accessory.sent.countP isPong

/-- Pings that have not been answered. -/
def outstanding : Nat := s.toAccessory.length + s.pongs

end State

end Keepalive

/-- The keepalive service between the phone and the accessory. -/
def keepalive (Tid : Type*) [DecidableEq Tid] :
    Machine (Keepalive.State Tid) (Keepalive.Label Tid) where
  init s := ∃ buffer, Keepalive.ping = some buffer ∧ s = .initial buffer
  step := Keepalive.State.step

end AapBridge.Android
