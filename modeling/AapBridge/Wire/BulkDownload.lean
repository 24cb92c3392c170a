import AapBridge.Accessory.BridgeThreads
import AapBridge.Accessory.StatusEffect
import AapBridge.Android.PortStatus

/-! # A bulk transfer towards the phone

From the fifo the payload writes to, through `bulkTransferThread` and the frames,
to `BulkTransfer.onDataReady` and the pipe the application reads from, for one
incarnation of the service. Frames of other services come between; the phone's
receiver thread may end at one, or leave it in the stream, as it does with a frame for
an input that has been closed or one that does not fit. From there on it takes payload
for headers, and may find any data and any status for the service in it. The thread of
the application that reads stays alive until it closes the stream.
-/

namespace AapBridge.Wire

open AapBridge.Lib AapBridge.Lib.HalfClose AapBridge.Accessory
open AapBridge.Android hiding Short

/-- The payload's end of the fifo. -/
inductive PayloadEnd where
  | notOpened
  | open_
  | closed
deriving DecidableEq

/-- `bulkTransferThread`. -/
inductive ReadingPc where
  | reading
  | writing (buffer : List UInt8)
  | ended
deriving DecidableEq

/-- The service in the phone's library. -/
inductive Registration where
  /-- `requestService` has not stored it. -/
  | requested
  /-- In `activeServices`, while `getPort()` is null. -/
  | stored
  | running
deriving DecidableEq

/-- The phone's receiver thread. -/
inductive DeliveryPc where
  | idle
  /-- Behind the first test of `inputOpen`. -/
  | readAll (data : List UInt8)
  /-- In `toApp.write` with these bytes to go. -/
  | filling (rest : List UInt8)
  | ended
  /-- Its next header does not begin where a frame begins. -/
  | lost
deriving DecidableEq

/-- `PipedInputStream.PIPE_SIZE`. -/
def pipeSize : Nat := 1024

/-- `written` is all the payload has written, `fifo` what is in the fifo. `received`
is what the application has read, `ended` whether a read returned -1, and `dropped`
the data of frames that came before the registration. `failed` records a read of the
fifo that failed, `early` one before the payload opened it, `closing` a close by the
application. -/
structure DownloadState where
  payload : PayloadEnd
  written : List UInt8
  fifo : List UInt8
  thread : ReadingPc
  toPhone : List MultiplexedMessage
  registration : Registration
  active : Bool
  inputOpen : Bool
  receiver : DeliveryPc
  pipe : List UInt8
  closedByWriter : Bool
  closedByReader : Bool
  received : List UInt8
  ended : Bool
  dropped : List UInt8
  failed : Bool
  early : Bool
  closing : Bool

inductive DownloadLabel where
  | payloadOpen
  | payloadWrite (bytes : List UInt8)
  | payloadClose
  /-- `read` returns `n` bytes, none, or fails. -/
  | read (n : Nat)
  | readNone
  | readFails
  | writeAllPort
  /-- The accessory sends for another service, or a CLOSE of this one. -/
  | other (msg : MultiplexedMessage)
  | sendClose
  /-- `requestService` stores the service, whose constructor then stores the port. -/
  | register
  | assign
  /-- The receiver thread takes the oldest frame, or goes on. -/
  | receive
  /-- It ends at a frame of another service, or leaves such a frame in the stream. -/
  | stop
  | misread
  /-- Out of its place, it finds data or a status for the service. -/
  | strayData (data : List UInt8)
  | strayStatus (status : UInt8)
  | readAll
  /-- `n` bytes get into the pipe. -/
  | pipe (n : Nat)
  /-- The application reads up to `n` bytes, or the end, or closes the stream. -/
  | appRead (n : Nat)
  | appEnd
  | appClose
  | appDrop
  | appClosed

/-- The entry a status message names, as the phone reads it. -/
def namedPort : List UInt8 → Option Slot
  | [low, high, _, _] => slot? (getShort low high).toInt
  | _ => none

/-- The frame is neither for the port nor about it. -/
def Foreign (p : Slot) (msg : MultiplexedMessage) : Prop :=
  slot? msg.port.toInt ≠ some p ∧
    (slot? msg.port.toInt = some portStatusService → namedPort msg.data ≠ some p)

instance (p : Slot) (msg : MultiplexedMessage) : Decidable (Foreign p msg) :=
  inferInstanceAs (Decidable (_ ∧ _))

namespace DownloadState

variable (p : Slot) (s : DownloadState)

/-! ## The accessory -/

/-- `rd` bytes of the fifo, of at most the size of the buffer. -/
def read (n : Nat) : Option DownloadState :=
  if s.thread = .reading ∧ 1 ≤ n ∧ n ≤ bulkBufferSize ∧ n ≤ s.fifo.length then
    some { s with thread := .writing (s.fifo.take n), fifo := s.fifo.drop n }
  else none

/-- The loop ends, in `sendEof`. -/
def sendEof : DownloadState :=
  { s with
    thread := .ended
    toPhone := s.toPhone ++ [⟨0, 4, statusBuffer p .eof⟩] }

/-- Nobody has the other end open for writing. -/
def readNone : Option DownloadState :=
  if s.thread = .reading ∧ s.fifo = [] ∧ s.payload ≠ .open_ then
    some { s.sendEof p with early := s.early || s.payload = .notOpened }
  else none

def readFails : Option DownloadState :=
  if s.thread = .reading then some { s.sendEof p with failed := true } else none

def writeAllPort : Option DownloadState :=
  match s.thread with
  | .writing buffer =>
      some { s with
        thread := .reading
        toPhone := s.toPhone ++ [⟨BitVec.ofNat 16 p, BitVec.ofNat 16 buffer.length, buffer⟩] }
  | _ => none

/-! ## The phone -/

/-- `PortStatus.onDataReady` for a status about the service, and `BulkTransfer.onEof`; the
null pointer of a service without a port is caught. -/
def statusReady (status : UInt8) : DownloadState :=
  if s.active then
    if s.registration = .running then
      if status = 3 then { s with inputOpen := false, closedByWriter := true, active := false }
      else if s.inputOpen then s
      else { s with active := false }
    else s
  else s

/-- What the loop does with a frame: a port outside the table, or a service without a
port, ends the thread, and a frame for a closed input is left in the stream. -/
def dataReady (msg : MultiplexedMessage) : DownloadState :=
  match slot? msg.port.toInt with
  | none => { s with receiver := .ended }
  | some i =>
      if i = p then
        if s.active then
          if s.registration = .running then
            { s with receiver := if s.inputOpen then .readAll msg.data else .lost }
          else { s with receiver := .ended }
        else { s with dropped := if s.closing then s.dropped else s.dropped ++ msg.data }
      else if i = portStatusService ∧ namedPort msg.data = some p then
        s.statusReady (msg.data.getD 2 0)
      else s

def receive : Option DownloadState :=
  match s.receiver, s.toPhone with
  | .idle, msg :: rest => some ({ s with toPhone := rest }.dataReady p msg)
  | _, _ => none

/-- A frame of another service is the last one that is found in its place. -/
def abandon (receiver : DeliveryPc) : Option DownloadState :=
  match s.receiver, s.toPhone with
  | .idle, msg :: rest =>
      if Foreign p msg then some { s with toPhone := rest, receiver := receiver } else none
  | _, _ => none

/-- Part of a payload read as a frame of the service. -/
def strayData (data : List UInt8) : Option DownloadState :=
  if s.receiver = .lost ∧ s.registration = .running ∧ s.inputOpen ∧
      s.pipe.length + data.length ≤ pipeSize then
    some { s with pipe := s.pipe ++ data }
  else none

def strayStatus (status : UInt8) : Option DownloadState :=
  if s.receiver = .lost then some (s.statusReady status) else none

/-- `port.readAll`; its own test of `inputOpen` throws in the middle of a frame. -/
def readAll : Option DownloadState :=
  match s.receiver with
  | .readAll data =>
      if s.inputOpen then some { s with receiver := .filling data }
      else some { s with receiver := .lost }
  | _ => none

/-- `toApp.write`: as much as there is room for, or an exception once the pipe is closed. -/
def intoPipe (n : Nat) : Option DownloadState :=
  match s.receiver with
  | .filling rest =>
      if rest = [] ∨ s.closedByReader then some { s with receiver := .idle }
      else if s.closing = false ∧ 1 ≤ n ∧ n ≤ rest.length ∧ s.pipe.length + n ≤ pipeSize then
        some { s with pipe := s.pipe ++ rest.take n, receiver := .filling (rest.drop n) }
      else none
  | _ => none

def register : Option DownloadState :=
  if s.registration = .requested then some { s with registration := .stored, active := true }
  else none

def assign : Option DownloadState :=
  if s.registration = .stored then some { s with registration := .running } else none

/-! ## The application -/

def appRead (n : Nat) : Option DownloadState :=
  if s.closing = false ∧ 1 ≤ n ∧ n ≤ s.pipe.length then
    some { s with received := s.received ++ s.pipe.take n, pipe := s.pipe.drop n }
  else none

/-- `read` returns -1. -/
def appEnd : Option DownloadState :=
  if s.closing = false ∧ s.pipe = [] ∧ s.closedByWriter then some { s with ended := true }
  else none

/-- `PipedBulkInput.close` up to the flag of `Port.close`. It holds the monitor of the
stream, which reading from the pipe and writing to it need as well. -/
def appClose : Option DownloadState :=
  if s.registration = .running then some { s with inputOpen := false, closing := true } else none

/-- The entry is dropped once the status message has been sent. -/
def appDrop : Option DownloadState :=
  if s.closing then some { s with active := false } else none

/-- `super.close()`; the pipe is emptied. -/
def appClosed : Option DownloadState :=
  if s.closing then some { s with closedByReader := true, pipe := [] } else none

def step : DownloadLabel → Option DownloadState
  | .payloadOpen =>
      if s.payload = .notOpened then some { s with payload := .open_ } else none
  | .payloadWrite bytes =>
      if s.payload = .open_ then
        some { s with written := s.written ++ bytes, fifo := s.fifo ++ bytes }
      else none
  | .payloadClose => if s.payload = .open_ then some { s with payload := .closed } else none
  | .read n => s.read n
  | .readNone => s.readNone p
  | .readFails => s.readFails p
  | .writeAllPort => s.writeAllPort p
  | .other msg => if Foreign p msg then some { s with toPhone := s.toPhone ++ [msg] } else none
  | .sendClose => some { s with toPhone := s.toPhone ++ [⟨0, 4, statusBuffer p .close⟩] }
  | .register => s.register
  | .assign => s.assign
  | .receive => s.receive p
  | .stop => s.abandon p .ended
  | .misread => s.abandon p .lost
  | .strayData data => s.strayData data
  | .strayStatus status => s.strayStatus status
  | .readAll => s.readAll
  | .pipe n => s.intoPipe n
  | .appRead n => s.appRead n
  | .appEnd => s.appEnd
  | .appClose => s.appClose
  | .appDrop => s.appDrop
  | .appClosed => s.appClosed

/-- `BulkInit` has started the thread and the OPEN response has come. -/
def initial : DownloadState where
  payload := .notOpened
  written := []
  fifo := []
  thread := .reading
  toPhone := []
  registration := .requested
  active := false
  inputOpen := true
  receiver := .idle
  pipe := []
  closedByWriter := false
  closedByReader := false
  received := []
  ended := false
  dropped := []
  failed := false
  early := false
  closing := false

end DownloadState

/-- The way of the payload's bytes to the application, on port `p`. -/
def bulkDownload (p : Slot) : Machine DownloadState DownloadLabel where
  init s := s = .initial
  step := DownloadState.step p

end AapBridge.Wire
