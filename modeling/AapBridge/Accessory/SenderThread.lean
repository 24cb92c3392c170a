import AapBridge.Lib.Machine
import AapBridge.Accessory.Sender

/-! # The accessory's sender thread

`sender` with the two calls of `writeAllAccessory` it makes for each message. A
step is one test, one `pollSendQueue` or one `writeAccessory`; the transport
takes as many bytes of a call as it likes, and a call that fails may have put
some of them on the wire as well.
-/

namespace AapBridge.Accessory

open AapBridge.Lib

inductive SenderPc where
  /-- `while(bridge->work==1)`. -/
  | loopTest
  | poll
  /-- In `writeAllAccessory`; `left` is what `buffer` and `size` still span. -/
  | writeHeader (msg : MultiplexedMessage) (left : List UInt8)
  | writeData (msg : MultiplexedMessage) (left : List UInt8)
  | stopped

/-- `polled` are the messages taken from the queue, `wire` everything the
transport has put out, `failed` whether a `writeAccessory` has returned an error. -/
structure SendingState where
  work : Bool
  connectedToAndroid : Bool
  pc : SenderPc
  polled : List MultiplexedMessage
  wire : List UInt8
  failed : Bool

inductive SendingLabel where
  | run
  | poll (msg : Option MultiplexedMessage)
  /-- `writeAccessory` returns `n`. -/
  | wrote (n : Nat)
  /-- `writeAccessory` returns a negative number, after `n` bytes. -/
  | writeError (n : Nat)
  /-- The receiver thread sets `work` to 0. -/
  | clearWork

namespace SendingState

variable (s : SendingState)

/-- One call of `writeAccessory` on `left`, of which `n` bytes leave the device. -/
def transfer (left : List UInt8) (n : Nat) : Option SendingState :=
  if 0 < left.length ∧ n ≤ left.length then some { s with wire := s.wire ++ left.take n } else none

/-- The `while` loop of `writeAllAccessory` goes on with the rest. -/
def wrote (n : Nat) : Option SendingState :=
  match s.pc with
  | .writeHeader msg left =>
      (s.transfer left n).map fun t => { t with pc := .writeHeader msg (left.drop n) }
  | .writeData msg left =>
      (s.transfer left n).map fun t => { t with pc := .writeData msg (left.drop n) }
  | _ => none

/-- Either call of `writeAllAccessory` returns the error; the payload is not
tried behind a header that failed. -/
def writeError (n : Nat) : Option SendingState :=
  match s.pc with
  | .writeHeader _ left | .writeData _ left =>
      (s.transfer left n).map fun t => { t with work := false, pc := .loopTest, failed := true }
  | _ => none

def poll (msg : Option MultiplexedMessage) : Option SendingState :=
  match s.pc, msg with
  | .poll, none => some { s with pc := .stopped, connectedToAndroid := false }
  | .poll, some msg =>
      some { s with polled := s.polled ++ [msg], pc := .writeHeader msg (senderHeader msg) }
  | _, _ => none

def run : Option SendingState :=
  match s.pc with
  | .loopTest =>
      if s.work then some { s with pc := .poll }
      else some { s with pc := .stopped, connectedToAndroid := false }
  | .writeHeader msg [] => some { s with pc := .writeData msg (msg.data.take msg.size.toInt.toNat) }
  | .writeData _ [] => some { s with pc := .loopTest }
  | _ => none

def step : SendingLabel → Option SendingState
  | .run => s.run
  | .poll msg => s.poll msg
  | .wrote n => s.wrote n
  | .writeError n => s.writeError n
  | .clearWork => some { s with work := false }

end SendingState

/-- Behind `connectedToAndroid = 1`; the receiver thread may have cleared `work` by then. -/
structure SendingInit (s : SendingState) : Prop where
  connectedToAndroid : s.connectedToAndroid = true
  pc : s.pc = .loopTest
  polled : s.polled = []
  wire : s.wire = []
  failed : s.failed = false

def senderThread : Machine SendingState SendingLabel where
  init := SendingInit
  step := SendingState.step

/-! ## What one step can do -/

namespace SendingState

variable {s t : SendingState}

theorem transfer_cases {left : List UInt8} {n : Nat} (h : s.transfer left n = some t) :
    0 < left.length ∧ n ≤ left.length ∧ t = { s with wire := s.wire ++ left.take n } := by
  unfold transfer at h
  split at h
  · next hn =>
    cases h
    exact ⟨hn.1, hn.2, rfl⟩
  · cases h

theorem wrote_cases {n : Nat} (h : s.wrote n = some t) :
    (∃ msg left, s.pc = .writeHeader msg left ∧
      t = { s with wire := s.wire ++ left.take n, pc := .writeHeader msg (left.drop n) }) ∨
    (∃ msg left, s.pc = .writeData msg left ∧
      t = { s with wire := s.wire ++ left.take n, pc := .writeData msg (left.drop n) }) := by
  unfold wrote at h
  split at h
  · next msg left hpc =>
    obtain ⟨u, hu, rfl⟩ := Option.map_eq_some_iff.mp h
    obtain ⟨-, -, rfl⟩ := transfer_cases hu
    exact .inl ⟨msg, left, hpc, rfl⟩
  · next msg left hpc =>
    obtain ⟨u, hu, rfl⟩ := Option.map_eq_some_iff.mp h
    obtain ⟨-, -, rfl⟩ := transfer_cases hu
    exact .inr ⟨msg, left, hpc, rfl⟩
  · cases h

theorem writeError_cases {n : Nat} (h : s.writeError n = some t) :
    ∃ msg left, (s.pc = .writeHeader msg left ∨ s.pc = .writeData msg left) ∧
      t = { s with work := false, pc := .loopTest, failed := true,
                   wire := s.wire ++ left.take n } := by
  unfold writeError at h
  split at h
  · next msg left hpc =>
    obtain ⟨u, hu, rfl⟩ := Option.map_eq_some_iff.mp h
    obtain ⟨-, -, rfl⟩ := transfer_cases hu
    exact ⟨msg, left, .inl hpc, rfl⟩
  · next msg left hpc =>
    obtain ⟨u, hu, rfl⟩ := Option.map_eq_some_iff.mp h
    obtain ⟨-, -, rfl⟩ := transfer_cases hu
    exact ⟨msg, left, .inr hpc, rfl⟩
  · cases h

theorem poll_cases {msg : Option MultiplexedMessage} (h : s.poll msg = some t) :
    s.pc = .poll ∧
      ((msg = none ∧ t = { s with pc := .stopped, connectedToAndroid := false }) ∨
       ∃ m, msg = some m ∧
        t = { s with polled := s.polled ++ [m], pc := .writeHeader m (senderHeader m) }) := by
  unfold poll at h
  split at h
  · next hpc =>
    cases h
    exact ⟨hpc, .inl ⟨rfl, rfl⟩⟩
  · next m hpc =>
    cases h
    exact ⟨hpc, .inr ⟨m, rfl, rfl⟩⟩
  · cases h

theorem run_cases (h : s.run = some t) :
    (s.pc = .loopTest ∧ s.work = true ∧ t = { s with pc := .poll }) ∨
    (s.pc = .loopTest ∧ s.work = false ∧
      t = { s with pc := .stopped, connectedToAndroid := false }) ∨
    (∃ msg, s.pc = .writeHeader msg [] ∧
      t = { s with pc := .writeData msg (msg.data.take msg.size.toInt.toNat) }) ∨
    (∃ msg, s.pc = .writeData msg [] ∧ t = { s with pc := .loopTest }) := by
  unfold run at h
  split at h
  · next hpc =>
    split at h
    · next hwork =>
      cases h
      exact .inl ⟨hpc, hwork, rfl⟩
    · next hwork =>
      cases h
      exact .inr (.inl ⟨hpc, by simpa using hwork, rfl⟩)
  · next msg hpc =>
    cases h
    exact .inr (.inr (.inl ⟨msg, hpc, rfl⟩))
  · next msg hpc =>
    cases h
    exact .inr (.inr (.inr ⟨msg, hpc, rfl⟩))
  · cases h

end SendingState

end AapBridge.Accessory
