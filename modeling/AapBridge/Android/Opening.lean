import AapBridge.Android.Alignment

/-! # Services while they are opened

Any number of threads in the constructors of `DbusMethods`, `DbusSignals` and
`BulkTransfer`, next to the receiver thread and to threads that close ports.
`requestService` claims a response, constructs the port and stores the service;
the constructor then stores the port. The receiver goes on to the next frame as
soon as the response is claimed, so frames for the port may come between any two
of these steps.
-/

namespace AapBridge.Android

open AapBridge.Lib
open AapBridge.Accessory (Slot slot? MultiplexedMessage)

/-- Where the constructor of a service is. -/
inductive ConstructorPc where
  /-- One of the three services of the bridge itself. -/
  | library
  /-- In `requestService`, up to the response. -/
  | waiting
  | refused
  /-- With a port number, before `activeServices[portNr] = service`. -/
  | claimed (portNr : Short)
  | registered (portNr : Short)
  | finished (portNr : Short)
deriving DecidableEq

/-- A data frame: the service it is for, if that service's input was open when the
receiver looked it up, and the service whose `onDataReady` was called. -/
structure Dispatched (Sid : Type*) where
  due : Option Sid
  called : Option Sid
deriving DecidableEq

/-- `owner i` is the service that claimed the last response for slot `i`, `due` the
one the frame at hand is for. -/
structure OpeningState (Tid Sid P : Type*) where
  base : ReceivingState Tid Sid P
  constructor : Sid → ConstructorPc
  constructed : List P
  owner : Slot → Option Sid
  due : Option Sid
  dispatched : List (Dispatched Sid)

inductive OpeningLabel (Tid Sid P : Type*) where
  | arrive (msg : MultiplexedMessage)
  | receive (n : Nat)
  | startClose (t : Tid) (x : P)
  | startEof (t : Tid) (x : P)
  | run (t : Tid)
  /-- The thread in the constructor of the service goes on. -/
  | claim (service : Sid)
  | register (service : Sid)
  | assign (service : Sid) (x : P)

section

variable {Tid Sid P : Type*} [DecidableEq Tid] [DecidableEq Sid] [DecidableEq P]

namespace OpeningState

variable (s : OpeningState Tid Sid P)

/-- A step of the base machine that nothing else depends on. -/
def lift (label : ReceivingLabel Tid Sid P) : Option (OpeningState Tid Sid P) :=
  (s.base.step label).map fun base => { s with base }

def setConstructor (service : Sid) (pc : ConstructorPc) : OpeningState Tid Sid P :=
  { s with constructor := Function.update s.constructor service pc }

/-- The owner of slot `i`, unless it has closed its input or been sent an EOF. -/
def expecting (i : Slot) : Option Sid :=
  (s.owner i).filter fun service => (s.base.port service).all fun x => (s.base.ports x).inputOpen

/-- What becomes of the frame at hand in the receiver's next step. -/
def dispatch : Option (Option Sid × Option (Option Sid)) :=
  match s.base.receiver with
  | .lookup port _ =>
      (slot? port.toInt).map fun i =>
        (s.expecting i, if s.base.activeServices i = none then some none else none)
  | .test service _ =>
      some (s.due,
        if (s.base.port service).any fun x => (s.base.ports x).inputOpen then some (some service)
        else some none)
  | _ => none

def receive (n : Nat) : Option (OpeningState Tid Sid P) :=
  (s.base.step (.receive n)).map fun base =>
    match s.dispatch with
    | none => { s with base }
    | some (due, none) => { s with base, due }
    | some (due, some called) =>
        { s with base, due, dispatched := s.dispatched ++ [⟨due, called⟩] }

/-- `openRequestResponses.poll()`, and what `requestService` makes of it. -/
def claim (service : Sid) : Option (OpeningState Tid Sid P) :=
  if s.constructor service = .waiting then
    (s.lift .takeResponse).map fun t =>
      match s.base.spawner.openRequestResponses with
      | response :: _ =>
          if response.success then
            { t.setConstructor service (.claimed response.port) with
              owner := match slot? response.port.toInt with
                | some i => Function.update s.owner i (some service)
                | none => s.owner }
          else t.setConstructor service .refused
      | [] => t.setConstructor service .refused
  else none

/-- A port number outside the array is an exception. -/
def register (service : Sid) : Option (OpeningState Tid Sid P) :=
  match s.constructor service with
  | .claimed portNr =>
      (slot? portNr.toInt).bind fun i =>
        (s.lift (.register i service)).map fun t => t.setConstructor service (.registered portNr)
  | _ => none

/-- The port was constructed before the service was stored; nobody saw it since. -/
def assign (service : Sid) (x : P) : Option (OpeningState Tid Sid P) :=
  match s.constructor service with
  | .registered portNr =>
      if x ∈ s.constructed then none
      else
        (Port.create portNr).bind fun port =>
          ((s.base.modifyPort x fun _ => port).step (.assignPort service x)).map fun base =>
            { s.setConstructor service (.finished portNr) with
              base, constructed := x :: s.constructed }
  | _ => none

/-- Applications have the ports of services that are constructed. -/
def step : OpeningLabel Tid Sid P → Option (OpeningState Tid Sid P)
  | .arrive msg => s.lift (.arrive msg)
  | .receive n => s.receive n
  | .startClose t x => if x ∈ s.constructed then s.lift (.startClose t x) else none
  | .startEof t x => if x ∈ s.constructed then s.lift (.startEof t x) else none
  | .run t => s.lift (.run t)
  | .claim service => s.claim service
  | .register service => s.register service
  | .assign service x => s.assign service x

end OpeningState

/-- The bridge has just been constructed, and nothing has been requested. -/
structure OpeningInit (s : OpeningState Tid Sid P) : Prop where
  base : ReceivingInit s.base
  library : ∀ service, s.constructor service = .library ↔ (s.base.port service).isSome
  waiting : ∀ service, s.constructor service = .library ∨ s.constructor service = .waiting
  constructed : ∀ service x, s.base.port service = some x → x ∈ s.constructed
  owner : ∀ i, s.owner i = none
  dispatched : s.dispatched = []

def opening : Machine (OpeningState Tid Sid P) (OpeningLabel Tid Sid P) where
  init := OpeningInit
  step := OpeningState.step

end

end AapBridge.Android
