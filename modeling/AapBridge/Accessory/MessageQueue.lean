import AapBridge.Lib.Machine
import AapBridge.Lib.Ring
import AapBridge.Accessory.Message

/-! # The bounded message queues

`sendqueue.c` and `receivequeue.c` are one text with different static variables
and a different message for the drop branch, so they are one definition with
the drop text as parameter. A thread inside `add` or `poll` is at one of five
places: before `sem_wait`, before the lock, in the critical section, before
`sem_post` and before the unlock. Semaphores and lock are explicit, an index
outside `queue[]` or a dereferenced null sentinel sets `faulted`, and the logs
record what the critical sections added and polled.
-/

namespace AapBridge.Accessory

open AapBridge.Lib

def messagequeMax : Nat := 64

instance : NeZero messagequeMax := ⟨by decide⟩

/-- The static variables of one queue; the entries are pointers, `none` is `NULL`. -/
structure MessageQueue where
  queue : Fin messagequeMax → Option MultiplexedMessage
  messages : Int
  writePosition : Int
  readPosition : Int

/-- The entry that `queue[position]` denotes, if there is one. -/
def slotOf (position : Int) : Option (Fin messagequeMax) :=
  if 0 ≤ position ∧ position < messagequeMax then some (Fin.ofNat _ position.toNat) else none

/-- The lazy wrap made before a position is used. -/
def wrapPosition (position : Int) : Int :=
  if position ≥ messagequeMax then position - messagequeMax else position

inductive AddOutcome where
  | stored (q : MessageQueue)
  | dropped (text : String) (q : MessageQueue)

/-- The critical section of `addSendQueue` and `addreceivequeue`. The drop
branch reads `message->port`, so it faults on the null sentinel. -/
def addSection (dropText : Int → String) (q : MessageQueue)
    (message : Option MultiplexedMessage) : Option AddOutcome :=
  let writePosition := wrapPosition q.writePosition
  if q.messages = messagequeMax then
    message.map fun msg => .dropped (dropText msg.port.toInt) { q with writePosition }
  else
    (slotOf writePosition).map fun i =>
      .stored { q with
        queue := Function.update q.queue i message
        writePosition := writePosition + 1
        messages := q.messages + 1 }

/-- The critical section of `pollSendQueue` and `pollReceiveQueue`. -/
def pollSection (q : MessageQueue) : Option (Option MultiplexedMessage × MessageQueue) :=
  let readPosition := wrapPosition q.readPosition
  (slotOf readPosition).map fun i =>
    (q.queue i, { q with readPosition := readPosition + 1, messages := q.messages - 1 })

/-- Where a thread is inside the queue functions. -/
inductive QueuePc where
  | idle
  | addWait (message : Option MultiplexedMessage)
  | addLock (message : Option MultiplexedMessage)
  | addBody (message : Option MultiplexedMessage)
  | addPost
  | addUnlock
  | pollWait
  | pollLock
  | pollBody
  | pollPost (retval : Option MultiplexedMessage)
  | pollUnlock (retval : Option MultiplexedMessage)

structure QueueState (Tid : Type*) where
  vars : MessageQueue
  messageSem : Nat
  spaceSem : Nat
  lock : Option Tid
  pc : Tid → QueuePc
  added : List (Option MultiplexedMessage)
  polled : List (Option MultiplexedMessage)
  drops : List String
  faulted : Bool

inductive QueueLabel (Tid : Type*) where
  | callAdd (t : Tid) (message : Option MultiplexedMessage)
  | callPoll (t : Tid)
  | run (t : Tid)

section Machine

variable {Tid : Type*} [DecidableEq Tid]

def QueueState.at (s : QueueState Tid) (t : Tid) (pc : QueuePc) : QueueState Tid :=
  { s with pc := Function.update s.pc t pc }

/-- One step of thread `t`; `none` while it blocks on a semaphore or the lock. -/
def threadStep (dropText : Int → String) (s : QueueState Tid) (t : Tid) :
    Option (QueueState Tid) :=
  match s.pc t with
  | .idle => none
  | .addWait message =>
      if 0 < s.spaceSem then some ({ s with spaceSem := s.spaceSem - 1 }.at t (.addLock message))
      else none
  | .addLock message =>
      if s.lock = none then some ({ s with lock := some t }.at t (.addBody message)) else none
  | .addBody message =>
      match addSection dropText s.vars message with
      | none => some { s with faulted := true }
      | some (.stored q) =>
          some ({ s with vars := q, added := s.added ++ [message] }.at t .addPost)
      | some (.dropped text q) =>
          some ({ s with
            vars := q
            added := s.added ++ [message]
            drops := s.drops ++ [text] }.at t .addUnlock)
  | .addPost => some ({ s with messageSem := s.messageSem + 1 }.at t .addUnlock)
  | .addUnlock => some ({ s with lock := none }.at t .idle)
  | .pollWait =>
      if 0 < s.messageSem then some ({ s with messageSem := s.messageSem - 1 }.at t .pollLock)
      else none
  | .pollLock => if s.lock = none then some ({ s with lock := some t }.at t .pollBody) else none
  | .pollBody =>
      match pollSection s.vars with
      | none => some { s with faulted := true }
      | some (retval, q) =>
          some ({ s with vars := q, polled := s.polled ++ [retval] }.at t (.pollPost retval))
  | .pollPost retval => some ({ s with spaceSem := s.spaceSem + 1 }.at t (.pollUnlock retval))
  | .pollUnlock _ => some ({ s with lock := none }.at t .idle)

def queueStep (dropText : Int → String) (s : QueueState Tid) :
    QueueLabel Tid → Option (QueueState Tid)
  | .callAdd t message =>
      match s.pc t with
      | .idle => some (s.at t (.addWait message))
      | _ => none
  | .callPoll t =>
      match s.pc t with
      | .idle => some (s.at t .pollWait)
      | _ => none
  | .run t => threadStep dropText s t

/-- After `initSendQueue` or `initreceiveQueue`, before any thread uses the
queue; what the entries of `queue[]` hold is left open. -/
structure QueueInit (s : QueueState Tid) : Prop where
  messages : s.vars.messages = 0
  writePosition : s.vars.writePosition = 0
  readPosition : s.vars.readPosition = 0
  messageSem : s.messageSem = 0
  spaceSem : s.spaceSem = messagequeMax
  lock : s.lock = none
  pc : ∀ t, s.pc t = .idle
  added : s.added = []
  polled : s.polled = []
  drops : s.drops = []
  faulted : s.faulted = false

def messageQueue (dropText : Int → String) : Machine (QueueState Tid) (QueueLabel Tid) where
  init := QueueInit
  step := queueStep dropText

/-- The queue of `sendqueue.c`. -/
def sendQueue : Machine (QueueState Tid) (QueueLabel Tid) :=
  messageQueue fun port => s!"A message to Android designated for port {port} was dropped\n"

/-- The queue of `receivequeue.c`. -/
def receiveQueue : Machine (QueueState Tid) (QueueLabel Tid) :=
  messageQueue fun port => s!"A message from Android designated for port {port} was dropped\n"

end Machine

end AapBridge.Accessory
