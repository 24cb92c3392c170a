import AapBridge.Lib.Keyed
import AapBridge.Lib.Machine
import AapBridge.Android.Port

/-! # Writing to ports

`Port.write` in any number of threads, each calling it until its buffer is
empty. The method holds the monitor of its port, and the monitor of the bridge
while it hands header and payload to the output stream; between any two of its
steps the other threads may run. What the method throws is recorded in `thrown`.
-/

namespace AapBridge.Android

open AapBridge.Lib

/-- `(short) (buffer.remaining() > 4000 ? 4000 : buffer.remaining())`. -/
def writeAmount (buffer : ByteBuffer) : Short :=
  BitVec.ofNat 16 (if buffer.remaining > 4000 then 4000 else buffer.remaining)

/-- `header.reset(); header.putShort(writeAmount)`. -/
def Port.fillHeader (port : Port) (amount : Short) : Option Port :=
  (port.header.reset.bind fun header => header.putShort amount).map fun header =>
    { port with header }

/-- `handed` is what the buffer held when its owner began to write it, `written`
the part that is gone. -/
structure Call (P : Type*) where
  port : P
  buffer : ByteBuffer
  handed : List UInt8
  written : List UInt8

inductive WriterPc (P : Type*) where
  | idle
  /-- The loop of the caller. -/
  | loop (call : Call P)
  /-- In `write`, with the monitor of the port. -/
  | enter (call : Call P)
  | lockBridge (call : Call P) (amount : Short)
  /-- With the monitor of the bridge as well. -/
  | writeHeader (call : Call P) (amount : Short)
  | writePayload (call : Call P) (amount : Short)
  | unlockBridge (call : Call P) (amount : Short)
  | leave (call : Call P) (amount : Short)

/-- `sent` is the output stream. `frames` are the writes in the order in which
they got the monitor of the bridge, `finished` the buffers written in full. -/
structure WritersState (Tid P : Type*) where
  ports : P → Port
  portMonitor : P → Option Tid
  bridgeMonitor : Option Tid
  pc : Tid → WriterPc P
  sent : List UInt8
  frames : List ((Tid × P) × List UInt8)
  finished : List ((Tid × P) × List UInt8)
  thrown : Bool

inductive WriterLabel (Tid P : Type*) where
  | call (t : Tid) (port : P) (buffer : ByteBuffer)
  | run (t : Tid)

section

variable {Tid P : Type*} [DecidableEq Tid] [DecidableEq P]

def WritersState.at (s : WritersState Tid P) (t : Tid) (pc : WriterPc P) : WritersState Tid P :=
  { s with pc := Function.update s.pc t pc }

namespace WritersState

variable (s : WritersState Tid P) (t : Tid)

/-- An exception leaves both synchronized sections and the loop. -/
def throw : WritersState Tid P :=
  { s with
    portMonitor := fun p => if s.portMonitor p = some t then none else s.portMonitor p
    bridgeMonitor := if s.bridgeMonitor = some t then none else s.bridgeMonitor
    thrown := true }.at t .idle

def step : Option (WritersState Tid P) :=
  match s.pc t with
  | .idle => none
  | .loop call =>
      if call.buffer.hasRemaining then
        match s.portMonitor call.port with
        | none => some ({ s with
            portMonitor := Function.update s.portMonitor call.port (some t) }.at t (.enter call))
        | some _ => none
      else some ({ s with
        finished := s.finished ++ [((t, call.port), call.handed)] }.at t .idle)
  | .enter call =>
      if (s.ports call.port).outputOpen then
        let amount := writeAmount call.buffer
        match (s.ports call.port).fillHeader amount with
        | none => some (s.throw t)
        | some port => some ({ s with
            ports := Function.update s.ports call.port port }.at t (.lockBridge call amount))
      else some (s.throw t)
  | .lockBridge call amount =>
      match s.bridgeMonitor with
      | none => some ({ s with bridgeMonitor := some t }.at t (.writeHeader call amount))
      | some _ => none
  | .writeHeader call amount =>
      let header := (s.ports call.port).header
      match CMemory.load header.array header.arrayOffset header.capacity with
      | none => some (s.throw t)
      | some bytes => some ({ s with
          sent := s.sent ++ bytes
          frames := s.frames ++ [((t, call.port), call.buffer.contents.take amount.toNat)] }.at t
            (.writePayload call amount))
  | .writePayload call amount =>
      -- the second condition is that of the loop that prints the bytes
      match CMemory.load call.buffer.array (call.buffer.arrayOffset + call.buffer.position)
          amount.toNat, decide (amount.toNat ≤ call.buffer.array.length) with
      | some bytes, true => some ({ s with sent := s.sent ++ bytes }.at t (.unlockBridge call amount))
      | _, _ => some (s.throw t)
  | .unlockBridge call amount => some ({ s with bridgeMonitor := none }.at t (.leave call amount))
  | .leave call amount =>
      match call.buffer.setPosition (call.buffer.position + amount.toNat) with
      | none => some (s.throw t)
      | some buffer => some ({ s with
          portMonitor := Function.update s.portMonitor call.port none }.at t (.loop { call with
            buffer, written := call.written ++ call.buffer.contents.take amount.toNat }))

end WritersState

/-- Every port is open and all threads are idle. -/
structure WritersInit (s : WritersState Tid P) : Prop where
  ports : ∀ p, ∃ n, n < 400 ∧ Port.create (BitVec.ofNat 16 n) = some (s.ports p)
  portMonitor : ∀ p, s.portMonitor p = none
  bridgeMonitor : s.bridgeMonitor = none
  pc : ∀ t, s.pc t = .idle
  sent : s.sent = []
  frames : s.frames = []
  finished : s.finished = []
  thrown : s.thrown = false

def writersStep (s : WritersState Tid P) : WriterLabel Tid P → Option (WritersState Tid P)
  | .call t port buffer =>
      match s.pc t with
      | .idle => some (s.at t (.loop ⟨port, buffer, buffer.contents, []⟩))
      | _ => none
  | .run t => s.step t

/-- Threads writing buffers to ports. -/
def writers : Machine (WritersState Tid P) (WriterLabel Tid P) where
  init := WritersInit
  step := writersStep

end

end AapBridge.Android
