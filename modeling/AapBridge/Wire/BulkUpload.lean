import AapBridge.Accessory.StatusTarget
import AapBridge.Wire.PortFrames

/-! # A bulk transfer towards the payload

From `getOutput().write` through the `BufferedOutputStream`, `BulkOutput` and
`Port.write` to the frames, and from `BulkOnBytesReceived` into the fifo the payload
reads, for one incarnation of the service. The application calls one method of the
stream at a time. Frames of other ports come between; the accessory's thread of the
service may send its EOF at any time. The phone's receiver thread may lose its place in
the stream, and then find a CLOSE that nobody sent.
-/

namespace AapBridge.Wire

open AapBridge.Lib AapBridge.Lib.HalfClose AapBridge.Accessory
open AapBridge.Android hiding Short

/-- The size of the buffer of a `BufferedOutputStream`. -/
def outputSize : Nat := 8192

/-- What `BufferedOutputStream` does behind its call of `BulkOutput.write`. -/
inductive Behind where
  | return_
  /-- `arraycopy` into the buffer. -/
  | buffer (bytes : List UInt8)
  /-- `out.write` of an array that is no smaller than the buffer. -/
  | direct (bytes : List UInt8)
  | close

/-- The thread of the application. -/
inductive OutputPc where
  | idle
  /-- In the loop of `BulkOutput.write`, with what its `ByteBuffer` has remaining. -/
  | write (remaining : List UInt8) (behind : Behind)
  /-- In `Port.write`, behind its test of `outputOpen`. -/
  | send (remaining : List UInt8) (behind : Behind)
  /-- In `Port.eof`, before its test and behind the assignment. -/
  | eof
  | sendEof

/-- `given` is all that was passed to `write`; `thrown` records an exception of `write` or
`flush`, `refused` one of `port.eof()`, and `eofSent` whether that has returned. `listening`
stands for the entry of the service, of whose `fifoToPayloadFD` only `fifoOpen` matters.
`failed` records a `write` to the fifo that returned an error, `ended` a read of the payload
that returned no bytes. -/
structure UploadState where
  output : OutputPc
  buffer : List UInt8
  given : List UInt8
  thrown : Bool
  refused : Bool
  outputOpen : Bool
  eofSent : Bool
  toAccessory : List MultiplexedMessage
  listening : Bool
  inputOpen : Bool
  sending : Bool
  fifoOpen : Bool
  failed : Bool
  closesSent : Nat
  fifo : List UInt8
  received : List UInt8
  ended : Bool

inductive UploadLabel where
  | appWrite (bytes : List UInt8)
  | appFlush
  | appClose
  /-- One call of `Port.write`, or what comes behind the loop. -/
  | output
  /-- The phone sends for another port. -/
  | other (msg : MultiplexedMessage)
  /-- Main takes the oldest frame; what the calls of `write` return. -/
  | handle (outcomes : List Int)
  /-- The thread of the service sends its EOF. -/
  | sendEof
  /-- The phone handles a CLOSE of the service, or what it takes for one. -/
  | receiveClose
  | strayClose
  /-- A read of the payload returns `n` bytes, or none. -/
  | payloadRead (n : Nat)
  | payloadEnd

/-- What `PortStatusOnBytesReceived` takes for a status about the port. -/
def concerns (p : Slot) (msg : MultiplexedMessage) : Bool :=
  slot? msg.port.toInt = some portStatusService && BridgeConnection.statusTarget msg.data = some p

def endsInput (p : Slot) (msg : MultiplexedMessage) : Bool :=
  concerns p msg && msg.data.getD 2 0 = streamEof

namespace UploadState

variable (p : Slot) (s : UploadState)

/-! ## The phone -/

/-- The bytes go straight to `BulkOutput.write`, or into the buffer, which is flushed
before where there is no room. -/
def appWrite (bytes : List UInt8) : Option UploadState :=
  match s.output with
  | .idle =>
      let s := { s with given := s.given ++ bytes }
      if outputSize ≤ bytes.length then some { s with output := .write s.buffer (.direct bytes) }
      else if outputSize - s.buffer.length < bytes.length then
        some { s with output := .write s.buffer (.buffer bytes) }
      else some { s with buffer := s.buffer ++ bytes }
  | _ => none

/-- `flush`, also that at the beginning of `close`. -/
def appFlush (behind : Behind) : Option UploadState :=
  match s.output with
  | .idle => some { s with output := .write s.buffer behind }
  | _ => none

/-- The exception of `Port.write`; that of the `flush` in `close` does not keep
`out.close()` from being called. -/
def throw : Behind → UploadState
  | .close => { s with output := .eof, thrown := true }
  | _ => { s with output := .idle, thrown := true }

/-- `BulkOutput.write` has returned, and `count` is set to zero. -/
def return_ : Behind → UploadState
  | .return_ => { s with output := .idle, buffer := [] }
  | .buffer bytes => { s with output := .idle, buffer := bytes }
  | .direct bytes => { s with output := .write bytes .return_, buffer := [] }
  | .close => { s with output := .eof, buffer := [] }

def runOutput : Option UploadState :=
  match s.output with
  | .idle => none
  | .write remaining behind =>
      if remaining = [] then some (s.return_ behind)
      else if s.outputOpen then some { s with output := .send remaining behind }
      else some (s.throw behind)
  | .send remaining behind =>
      let chunk := remaining.take 4000
      some { s with
        output := .write (remaining.drop 4000) behind
        toAccessory := s.toAccessory ++
          [⟨BitVec.ofNat 16 p, BitVec.ofNat 16 chunk.length, chunk⟩] }
  | .eof =>
      if s.outputOpen then some { s with output := .sendEof, outputOpen := false }
      else some { s with output := .idle, refused := true }
  | .sendEof =>
      some { s with
        output := .idle
        eofSent := true
        toAccessory := s.toAccessory ++ [⟨0, 4, PortStatus.eofMessage (BitVec.ofNat 16 p)⟩] }

/-! ## The accessory -/

/-- `CleanupService`, once both directions are closed; `BulkCleanup` closes the fifo. -/
def cleanupIfClosed : UploadState :=
  if !s.inputOpen && !s.sending then { s with listening := false, fifoOpen := false } else s

def sendClose : UploadState :=
  { s with inputOpen := false, closesSent := s.closesSent + 1 }.cleanupIfClosed

/-- `BulkOnBytesReceived`. -/
def bytesReceived (data : List UInt8) (outcomes : List Int) : Option UploadState :=
  (BridgeConnection.bulkWrites (if s.fifoOpen then 0 else -1) data data.length outcomes).map
    fun r =>
      let s := { s with fifo := s.fifo ++ r.1 }
      if r.2 then { s with failed := true }.sendClose else s

/-- `PortStatusOnBytesReceived` for a status about the port, and `BulkOnEof`. -/
def statusReceived (status : UInt8) : UploadState :=
  if s.listening then
    (if status = streamEof then { s with inputOpen := false, fifoOpen := false }
    else if status = streamClose then { s with sending := false }
    else s).cleanupIfClosed
  else s

/-- A port outside the table has no result. -/
def handle (outcomes : List Int) : Option UploadState :=
  match s.toAccessory with
  | [] => none
  | msg :: rest =>
      let s := { s with toAccessory := rest }
      match slot? msg.port.toInt with
      | none => none
      | some i =>
          if i = p then if s.listening then s.bytesReceived msg.data outcomes else some s
          else if concerns p msg then some (s.statusReceived (msg.data.getD 2 0))
          else some s

def sendEof : Option UploadState :=
  if s.listening then some { s with sending := false }.cleanupIfClosed else none

def receiveClose : Option UploadState :=
  if 0 < s.closesSent then some { s with closesSent := s.closesSent - 1, outputOpen := false }
  else none

def strayClose : UploadState := { s with outputOpen := false }

/-! ## The payload -/

def payloadRead (n : Nat) : Option UploadState :=
  if 1 ≤ n ∧ n ≤ s.fifo.length then
    some { s with received := s.received ++ s.fifo.take n, fifo := s.fifo.drop n }
  else none

def payloadEnd : Option UploadState :=
  if s.fifo = [] ∧ s.fifoOpen = false then some { s with ended := true } else none

def step : UploadLabel → Option UploadState
  | .appWrite bytes => s.appWrite bytes
  | .appFlush => s.appFlush .return_
  | .appClose => s.appFlush .close
  | .output => s.runOutput p
  | .other msg =>
      if onPort p msg = false ∧ concerns p msg = false then
        some { s with toAccessory := s.toAccessory ++ [msg] }
      else none
  | .handle outcomes => s.handle p outcomes
  | .sendEof => s.sendEof
  | .receiveClose => s.receiveClose
  | .strayClose => some s.strayClose
  | .payloadRead n => s.payloadRead n
  | .payloadEnd => s.payloadEnd

/-- The service is open on both sides, and nothing has been written. -/
def initial : UploadState where
  output := .idle
  buffer := []
  given := []
  thrown := false
  refused := false
  outputOpen := true
  eofSent := false
  toAccessory := []
  listening := true
  inputOpen := true
  sending := true
  fifoOpen := true
  failed := false
  closesSent := 0
  fifo := []
  received := []
  ended := false

end UploadState

/-- The way of the application's bytes to the payload, on port `p`. -/
def bulkUpload (p : Slot) : Machine UploadState UploadLabel where
  init s := s = .initial
  step := UploadState.step p

end AapBridge.Wire
