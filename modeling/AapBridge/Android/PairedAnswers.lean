import AapBridge.Android.Registration
import AapBridge.Android.LostConnection
import AapBridge.Android.TruncatedStream

/-! # Each call gets the answer to its own request

A request and its answer are linked by their places only: the accessory answers
in the order of the requests, the permits of the semaphore go to the calls in the
order in which they came to wait, and the receiver waits for one call before it
takes the next answer. The order of the requests is that of the calls if no call
fills the buffer that another has filled and not written, and if calls come to
wait in the order of their requests.
-/

namespace AapBridge.Android

open AapBridge.Lib
open AapBridge.Accessory (Slot slot? MultiplexedMessage)

variable {Tid Sid P C : Type*}

/-- A frame of the accessory's spawner. -/
def isAnswer (msg : MultiplexedMessage) : Bool := msg.port = 1

/-- What `ServiceSpawner.onDataReady` makes of a response. -/
def responseOf : List UInt8 → Option OpenRequestResponse
  | _ :: low :: high :: success :: errorCode =>
      some
        { success := success = 1
          port := getShort low high
          errorCode := BitVec.ofNat 32 (ByteOrder.littleEndian.get errorCode) }
  | _ => none

namespace ReceivingState

variable {s t : ReceivingState Tid Sid P}

/-- A response goes into the queue, and the receiver waits for a call to take it. -/
theorem receive_answers [DecidableEq P] {n : Nat} (h : s.receive n = some t)
    (hanswering : s.answering = true) :
    ∃ service bytes response, s.receiver = .handle service bytes ∧
      s.kind service = .serviceSpawner ∧ responseOf bytes = some response ∧
      t = { s with
        spawner := ({ s.spawner with portRequestResponse := bytes } : SpawnerFields).answer response
        receiver := .awaitDone } := by
  unfold answering at hanswering
  split at hanswering
  · next service bytes hpc =>
    simp only [Bool.and_eq_true, decide_eq_true_eq] at hanswering
    obtain ⟨hkind, hresponse⟩ := hanswering
    unfold isResponse at hresponse
    split at hresponse
    · next msgType low high success errorCode =>
      simp only [ReceivingState.receive, hpc, ReceivingState.handle, hkind, spawnerResponse] at h
      rw [if_neg (not_not_intro (of_decide_eq_true hresponse))] at h
      cases h
      exact ⟨service, _, _, hpc, hkind, rfl, rfl⟩
    · cases hresponse
  · cases hanswering

/-- Where no payload is left behind by a closed input, no read of the spawner throws. -/
theorem InputTested.reads [DecidableEq P] {n : Nat} (h : s.InputTested (.receive n)) :
    (s.spawnerReads && s.inputClosed) = false := by
  unfold InputTested at h
  unfold spawnerReads inputClosed
  cases hpc : s.receiver with
  | readAll service bytes remaining =>
      simp only [hpc] at h ⊢
      rcases h with rfl | hopen
      · simp
      · rw [Bool.and_eq_false_iff]
        right
        cases hport : s.port service with
        | none => rfl
        | some x => simp [hopen x hport]
  | _ => rfl

/-- Only an answer adds to the queue of responses. -/
theorem SpawnerStep.responses (h : SpawnerStep s t) (hanswering : s.answering = false) :
    t.spawner.openRequestResponses = s.spawner.openRequestResponses := by
  cases h with
  | same spawner _ _ => rw [spawner]
  | answered answering _ _ =>
      rw [answering] at hanswering
      cases hanswering
  | ignored _ _ spawner => rw [spawner]
  | released _ _ spawner => rw [spawner]
  | done _ _ _ spawner => rw [spawner]

/-- Without an answer, a wait or an exception the permits stay as they are. -/
theorem SpawnerStep.permits (h : SpawnerStep s t) (hanswering : s.answering = false)
    (hreads : (s.spawnerReads && s.inputClosed) = false) (hawait : s.receiver ≠ .awaitDone) :
    t.spawner.openRequestResponsesReady = s.spawner.openRequestResponsesReady ∧
      t.spawner.openRequestResponsesDone = s.spawner.openRequestResponsesDone := by
  cases h with
  | same spawner _ _ => rw [spawner]; exact ⟨rfl, rfl⟩
  | answered answering _ _ =>
      rw [answering] at hanswering
      cases hanswering
  | ignored _ _ spawner => rw [spawner]; exact ⟨rfl, rfl⟩
  | released _ reads _ =>
      rw [reads] at hreads
      cases hreads
  | done receiver _ _ _ => exact absurd receiver hawait

end ReceivingState

def RequestPc.isFilled : RequestPc → Bool
  | .filled => true
  | _ => false

namespace RequestingState

variable (s : RequestingState Tid Sid P C)

/-- The answers the accessory has sent so far. -/
def answersSent : List MultiplexedMessage := s.base.sent.filter isAnswer

/-- The accessory answers the requests one by one, in the order of their arrival. -/
def InOrder : RequestingLabel Tid Sid P C → Prop
  | .base (.arrive msg) =>
      isAnswer msg = true → s.answersSent.length < s.outgoing.length ∧ isResponse msg.data = true
  | _ => True

instance (label : RequestingLabel Tid Sid P C) : Decidable (s.InOrder label) := by
  unfold InOrder
  split <;> infer_instance

/-- The buffer that the spawner goes on with after an `IOException`. -/
def keptResponse : List UInt8 :=
  match s.base.receiver with
  | .readAll service bytes _ =>
      if s.base.kind service = .serviceSpawner then
        bytes ++ s.base.spawner.portRequestResponse.drop bytes.length
      else []
  | _ => []

/-- The condition: calls take turns at the buffer, they come to wait in the order in
which their frames were written, the receiver finds the input of a port open
where a payload is on the stream, and an `IOException` inside a response leaves no
buffer that begins with `'s'`. -/
def TakesTurns : RequestingLabel Tid Sid P C → Prop
  | .base (.receive n) => s.base.InputTested (.receive n)
  | .fail => s.lost = some .ioException → isResponse s.keptResponse = false
  | .fill _ => ∀ c, (s.call c).isFilled = false
  | .wait c => (s.outgoing[s.come]?).map Prod.fst = some c
  | _ => True

instance [DecidableEq C] [Fintype C] (label : RequestingLabel Tid Sid P C) :
    Decidable (s.TakesTurns label) := by
  unfold TakesTurns
  split <;> infer_instance

/-- The accessory's answer to the request of `c` says `response`. -/
def Answered (c : C) (response : OpenRequestResponse) : Prop :=
  ∃ (k : ℕ) (frame : List UInt8) (msg : MultiplexedMessage), s.outgoing[k]? = some (c, frame) ∧
    s.answersSent[k]? = some msg ∧ responseOf msg.data = some response

/-- The frame of a call has its own service identifier and arguments, and a call
that is through has the answer to its own request. -/
structure Paired (request : C → ServiceRequest) : Prop where
  frame : ∀ entry ∈ s.outgoing, entry.2 = (request entry.1).bytes
  answer : ∀ c response, s.call c = .finished (some response) → s.Answered c response

/-! ## The buffer of the request -/

end RequestingState

/-- The bytes of a request are what the buffer holds behind a fill that fits. -/
theorem ServiceRequest.fill_contents {r : ServiceRequest} {b : ByteBuffer} (h : (r.fill b).2 = true) :
    (r.fill b).1.contents = r.bytes := by
  have hheader := (ByteBuffer.writes_put [0x6F, r.serviceIdentifier]).bind
    (ByteBuffer.writes_put (shortBytes (BitVec.ofNat 16 r.arguments.length)))
  unfold ServiceRequest.fill at h ⊢
  dsimp only at h ⊢
  split at h
  · cases h
  · next header hfirst =>
    split at h
    · cases h
    · next full hrest =>
      have hwritten := (ByteBuffer.Writes.extends_of_eq hheader hfirst).written
      have hfull := ((ByteBuffer.writes_put r.arguments).extends_of_eq hrest).written
      dsimp only
      rw [ByteBuffer.flip_contents, hfull, hwritten, ByteBuffer.clear_written]
      rfl

def ReceiverThreadPc.awaits {Sid : Type*} : ReceiverThreadPc Sid → Bool
  | .awaitDone => true
  | _ => false

/-- The call has a permit that it has not given back. -/
def RequestPc.holds : RequestPc → Prop
  | .acquired | .polled _ => True
  | _ => False

namespace RequestingState

variable (s : RequestingState Tid Sid P C)

/-! ## Answers and permits -/

/-- The answers of the frames that lie behind the receiver. -/
def passed : List MultiplexedMessage := (s.base.sent.take s.base.iterations).filter isAnswer

/-- The calls in the order of their frames. -/
def writers : List C := s.outgoing.map Prod.fst

/-- The answer that was put into the queue last. -/
def LastAnswer (response : OpenRequestResponse) : Prop :=
  ∃ msg, s.answersSent[s.answers - 1]? = some msg ∧ responseOf msg.data = some response

/-- Where the answer is that the receiver waits with, and the permit that came with it. -/
inductive Hand : Prop
  | idle (receiver : s.base.receiver ≠ .awaitDone)
      (ready : s.base.spawner.openRequestResponsesReady = 0)
      (done : s.base.spawner.openRequestResponsesDone = 0)
      (responses : s.base.spawner.openRequestResponses = []) (calls : ∀ c, ¬(s.call c).holds)
  | offered {response : OpenRequestResponse} (receiver : s.base.receiver = .awaitDone)
      (ready : s.base.spawner.openRequestResponsesReady = 1)
      (done : s.base.spawner.openRequestResponsesDone = 0)
      (responses : s.base.spawner.openRequestResponses = [response]) (calls : ∀ c, ¬(s.call c).holds)
      (answer : s.LastAnswer response)
  | acquired {c : C} {response : OpenRequestResponse} (receiver : s.base.receiver = .awaitDone)
      (ready : s.base.spawner.openRequestResponsesReady = 0)
      (done : s.base.spawner.openRequestResponsesDone = 0)
      (responses : s.base.spawner.openRequestResponses = [response]) (call : s.call c = .acquired)
      (calls : ∀ d, d ≠ c → ¬(s.call d).holds) (writer : s.writers[s.answers - 1]? = some c)
      (answer : s.LastAnswer response)
  | polled {c : C} {response : OpenRequestResponse} (receiver : s.base.receiver = .awaitDone)
      (ready : s.base.spawner.openRequestResponsesReady = 0)
      (done : s.base.spawner.openRequestResponsesDone = 0)
      (responses : s.base.spawner.openRequestResponses = []) (call : s.call c = .polled (some response))
      (calls : ∀ d, d ≠ c → ¬(s.call d).holds) (writer : s.writers[s.answers - 1]? = some c)
      (answer : s.LastAnswer response)
  | done (receiver : s.base.receiver = .awaitDone)
      (ready : s.base.spawner.openRequestResponsesReady = 0)
      (done : s.base.spawner.openRequestResponsesDone = 1)
      (responses : s.base.spawner.openRequestResponses = []) (calls : ∀ c, ¬(s.call c).holds)

/-- The stream as it was sent is aligned, and the frame at hand is the owner's. -/
def Stream (owner : Option Sid → Short → Prop) : Prop :=
  ∃ lost, (s.lost = none → lost = []) ∧ (s.base.extend lost).Alignment ∧
    (s.base.extend lost).AtHand owner

/-- Frames on port 1 are the spawner's, and no others are. -/
def spawnerOwner (kind : Sid → ServiceKind) : Option Sid → Short → Prop
  | none, port => port ≠ 1
  | some service, port => kind service = .serviceSpawner ↔ port = 1

/-- Every answer goes through the queue, and the permit that comes with it to the
call whose request it is for. -/
structure Working : Prop where
  stream : s.Stream (spawnerOwner s.base.kind)
  counted : s.answers = s.passed.length + if s.base.receiver.awaits then 1 else 0
  come : s.come ≤ s.writers.length
  taken : s.answers - s.base.spawner.openRequestResponsesReady ≤ s.come
  queue : s.queue = (s.writers.take s.come).drop (s.answers - s.base.spawner.openRequestResponsesReady)
  hand : s.Hand

/-- The spawner has lost its entry. -/
structure Gone : Prop where
  stream : s.Stream fun _ _ => True
  entries : ∀ i service, s.base.activeServices i = some service → s.base.kind service ≠ .serviceSpawner
  serving : ∀ service, s.base.receiver.serving = some service → s.base.kind service ≠ .serviceSpawner
  receiver : s.base.receiver ≠ .awaitDone

/-- The connection is lost, and a read has found that. -/
structure Spent : Prop where
  lost : s.lost ≠ none
  unread : s.base.unread = []
  receiver : match s.base.receiver with
    | .header _ | .skip _ | .skipRead _ | .stopped => True
    | .readAll _ _ remaining => 0 < remaining
    | .handle service bytes => s.base.kind service = .serviceSpawner ∧ isResponse bytes = false
    | _ => False

/-- No answer is in the queue or in the hands of a call, and none will be. -/
structure Silent : Prop where
  responses : s.base.spawner.openRequestResponses = []
  calls : ∀ c response, s.call c ≠ .polled (some response)
  receiver : s.Gone ∨ s.Spent

/-- A call that has filled the buffer finds its request there. -/
structure Taking (request : C → ServiceRequest) : Prop where
  filled : ∀ c, s.call c = .filled → s.portRequest.contents = (request c).bytes
  alone : ∀ c d, s.call c = .filled → s.call d = .filled → d = c
  paired : s.Paired request
  responses : ∀ msg ∈ s.base.sent, isAnswer msg = true → isResponse msg.data = true
  mode : s.Working ∨ s.Silent

/-! ## What a step leaves -/

variable {s} {t : RequestingState Tid Sid P C}

/-- Frames are only added. -/
structure Grows (s t : RequestingState Tid Sid P C) : Prop where
  sent : s.base.sent <+: t.base.sent
  outgoing : s.outgoing <+: t.outgoing

theorem getElem?_of_prefix {α : Type*} {as bs : List α} (h : as <+: bs) {k : Nat} {a : α}
    (hk : as[k]? = some a) : bs[k]? = some a := by
  obtain ⟨hlt, ha⟩ := List.getElem?_eq_some_iff.mp hk
  rw [← ha]
  exact List.prefix_iff_getElem?.mp h k hlt

theorem Grows.answersSent (h : s.Grows t) : s.answersSent <+: t.answersSent := h.sent.filter isAnswer

theorem Grows.writers (h : s.Grows t) : s.writers <+: t.writers := h.outgoing.map Prod.fst

theorem Answered.grows {c : C} {response : OpenRequestResponse} (h : s.Answered c response)
    (hgrows : s.Grows t) : t.Answered c response := by
  obtain ⟨k, frame, msg, houtgoing, hsent, hresponse⟩ := h
  exact ⟨k, frame, msg, getElem?_of_prefix hgrows.outgoing houtgoing,
    getElem?_of_prefix hgrows.answersSent hsent, hresponse⟩

theorem LastAnswer.grows {response : OpenRequestResponse} (h : s.LastAnswer response)
    (hgrows : s.Grows t) (hanswers : t.answers = s.answers) : t.LastAnswer response := by
  obtain ⟨msg, hsent, hresponse⟩ := h
  refine ⟨msg, ?_, hresponse⟩
  rw [hanswers]
  exact getElem?_of_prefix hgrows.answersSent hsent

/-- The call that is through was the writer of the request, and the last answer is for it. -/
theorem LastAnswer.answered {c : C} {response : OpenRequestResponse} (h : s.LastAnswer response)
    (hwriter : s.writers[s.answers - 1]? = some c) : s.Answered c response := by
  obtain ⟨msg, hsent, hresponse⟩ := h
  rw [writers, List.getElem?_map] at hwriter
  obtain ⟨⟨caller, frame⟩, hentry, rfl⟩ := Option.map_eq_some_iff.mp hwriter
  exact ⟨_, frame, msg, hentry, hsent, hresponse⟩

/-- The answer stays where it is in a step of no call that holds a permit. -/
theorem Hand.frame (h : s.Hand) (hreceiver : t.base.receiver = s.base.receiver)
    (hspawner : t.base.spawner = s.base.spawner) (hanswers : t.answers = s.answers)
    (hgrows : s.Grows t) (hcalls : ∀ c, (t.call c).holds ∨ (s.call c).holds → t.call c = s.call c) :
    t.Hand := by
  have hfree : ∀ c, ¬(s.call c).holds → ¬(t.call c).holds := by
    intro c hc ht
    rw [hcalls c (.inl ht)] at ht
    exact hc ht
  have hwriter : ∀ {c}, s.writers[s.answers - 1]? = some c → t.writers[t.answers - 1]? = some c := by
    intro c hc
    rw [hanswers]
    exact getElem?_of_prefix hgrows.writers hc
  cases h with
  | idle receiver ready done responses calls =>
      rw [← hspawner] at ready done responses
      rw [← hreceiver] at receiver
      exact .idle receiver ready done responses fun c => hfree c (calls c)
  | offered receiver ready done responses calls answer =>
      rw [← hspawner] at ready done responses
      exact .offered (hreceiver.trans receiver) ready done responses (fun c => hfree c (calls c))
        (answer.grows hgrows hanswers)
  | @acquired c _ receiver ready done responses call calls writer answer =>
      rw [← hspawner] at ready done responses
      have hcall := hcalls c (.inr (by rw [call]; trivial))
      exact .acquired (hreceiver.trans receiver) ready done responses (hcall.trans call)
        (fun d hd => hfree d (calls d hd)) (hwriter writer) (answer.grows hgrows hanswers)
  | @polled c _ receiver ready done responses call calls writer answer =>
      rw [← hspawner] at ready done responses
      have hcall := hcalls c (.inr (by rw [call]; trivial))
      exact .polled (hreceiver.trans receiver) ready done responses (hcall.trans call)
        (fun d hd => hfree d (calls d hd)) (hwriter writer) (answer.grows hgrows hanswers)
  | done receiver ready done responses calls =>
      rw [← hspawner] at ready done responses
      exact .done (hreceiver.trans receiver) ready done responses fun c => hfree c (calls c)

/-- A call outside of the part that holds a permit moves on. -/
theorem setCall_holds [DecidableEq C] {c : C} {pc : RequestPc} (hbefore : ¬(s.call c).holds)
    (hafter : ¬pc.holds) (d : C) (h : ((s.setCall c pc).call d).holds ∨ (s.call d).holds) :
    (s.setCall c pc).call d = s.call d := by
  change (Function.update s.call c pc d).holds ∨ (s.call d).holds at h
  show Function.update s.call c pc d = s.call d
  by_cases hd : d = c
  · rw [hd, Function.update_self] at h
    rcases h with h | h
    · exact absurd h hafter
    · exact absurd h hbefore
  · exact Function.update_of_ne hd _ _

/-- The stream stays aligned when only the permits of the spawner change. -/
theorem Stream.frame {owner : Option Sid → Short → Prop} (h : s.Stream owner) (hlost : t.lost = s.lost)
    (hbase : t.base = { s.base with spawner := t.base.spawner }) : t.Stream owner := by
  obtain ⟨lost, hlast, halign, hat⟩ := h
  rw [Stream, hbase, hlost]
  refine ⟨lost, hlast, ?_, hat.frame rfl rfl rfl rfl⟩
  exact halign.move rfl rfl (fun _ _ hi => hi) halign.iterations
    (halign.place.frame rfl rfl (fun _ hp => hp) rfl rfl)

theorem take_writers (hgrows : s.Grows t) (hcome : s.come ≤ s.writers.length) :
    t.writers.take s.come = s.writers.take s.come := by
  obtain ⟨rest, hrest⟩ := hgrows.writers
  rw [← hrest, List.take_append_of_le_length hcome]

theorem Working.aside (h : s.Working) (hgrows : s.Grows t) (hbase : t.base = s.base)
    (hlost : t.lost = s.lost) (hanswers : t.answers = s.answers)
    (hcalls : ∀ c, (t.call c).holds ∨ (s.call c).holds → t.call c = s.call c)
    (hcome : t.come ≤ t.writers.length) (hlater : s.come ≤ t.come)
    (hqueue : t.queue =
      (t.writers.take t.come).drop (s.answers - s.base.spawner.openRequestResponsesReady)) :
    t.Working where
  stream := by
    rw [hbase]
    exact h.stream.frame hlost (by rw [hbase])
  counted := by
    rw [hanswers, passed, hbase]
    exact h.counted
  come := hcome
  taken := by
    rw [hanswers, hbase]
    exact h.taken.trans hlater
  queue := by
    rw [hanswers, hbase]
    exact hqueue
  hand := h.hand.frame (by rw [hbase]) (by rw [hbase]) hanswers hgrows hcalls

theorem Silent.frame (h : s.Silent) (hlost : t.lost = s.lost)
    (hbase : t.base = { s.base with spawner := t.base.spawner })
    (hresponses : t.base.spawner.openRequestResponses = [])
    (hcalls : ∀ c response, t.call c ≠ .polled (some response)) : t.Silent where
  responses := hresponses
  calls := hcalls
  receiver := by
    rcases h.receiver with hgone | hspent
    · refine .inl ⟨hgone.stream.frame hlost hbase, ?_, ?_, ?_⟩
      · rw [hbase]
        exact hgone.entries
      · rw [hbase]
        exact hgone.serving
      · rw [hbase]
        exact hgone.receiver
    · refine .inr ⟨?_, ?_, ?_⟩
      · rw [hlost]
        exact hspent.lost
      · rw [hbase]
        exact hspent.unread
      · rw [hbase]
        exact hspent.receiver

theorem Silent.aside (h : s.Silent) (hbase : t.base = s.base) (hlost : t.lost = s.lost)
    (hcalls : ∀ c, (t.call c).holds ∨ (s.call c).holds → t.call c = s.call c) : t.Silent := by
  apply h.frame hlost (by rw [hbase])
  · rw [hbase]
    exact h.responses
  · intro c response hc
    have hsame := hcalls c (.inl (by rw [hc]; trivial))
    rw [hsame] at hc
    exact h.calls c response hc

/-- A call in front of the semaphore moves on without a word about the queue. -/
theorem mode_aside (h : s.Working ∨ s.Silent) (hbase : t.base = s.base) (hlost : t.lost = s.lost)
    (hanswers : t.answers = s.answers) (hgrows : s.Grows t)
    (hcalls : ∀ c, (t.call c).holds ∨ (s.call c).holds → t.call c = s.call c)
    (hcome : t.come = s.come) (hqueue : t.queue = s.queue) : t.Working ∨ t.Silent := by
  rcases h with h | h
  · have htake := take_writers hgrows h.come
    refine .inl (h.aside hgrows hbase hlost hanswers hcalls ?_ hcome.ge ?_)
    · rw [hcome]
      exact h.come.trans hgrows.writers.length_le
    · rw [hqueue, hcome, htake]
      exact h.queue
  · exact .inr (h.aside hbase hlost hcalls)

variable {request : C → ServiceRequest}

theorem Paired.grows (h : s.Paired request) (hgrows : s.Grows t)
    (hframe : ∀ entry ∈ t.outgoing, entry.2 = (request entry.1).bytes)
    (hcalls : ∀ c response, t.call c = .finished (some response) →
      s.call c = .finished (some response) ∨ t.Answered c response) : t.Paired request where
  frame := hframe
  answer := by
    intro c response hc
    rcases hcalls c response hc with hbefore | hnow
    · exact (h.answer c response hbefore).grows hgrows
    · exact hnow

/-! ## The calls -/

variable [DecidableEq C]

/-- What a step of a call has to show. -/
theorem Taking.setCall {c : C} {pc : RequestPc} (h : s.Taking request)
    (hcall : t.call = Function.update s.call c pc)
    (hpc : ∀ response, pc = .finished (some response) → t.Answered c response)
    (hgrows : s.Grows t) (hsent : t.base.sent = s.base.sent)
    (hframe : ∀ entry ∈ t.outgoing, entry.2 = (request entry.1).bytes)
    (hfilled : pc = .filled → t.portRequest.contents = (request c).bytes ∧
      ∀ d, d ≠ c → s.call d ≠ .filled)
    (hbuffer : pc ≠ .filled → t.portRequest = s.portRequest ∨ ∀ d, d ≠ c → s.call d ≠ .filled)
    (hmode : t.Working ∨ t.Silent) : t.Taking request := by
  have hother : ∀ d, d ≠ c → t.call d = s.call d := by
    intro d hd
    rw [hcall]
    exact Function.update_of_ne hd _ _
  have hself : t.call c = pc := by
    rw [hcall]
    exact Function.update_self _ _ _
  refine ⟨?_, ?_, h.paired.grows hgrows hframe ?_, by rw [hsent]; exact h.responses, hmode⟩
  · intro d hd
    by_cases hdc : d = c
    · rw [hdc, hself] at hd
      rw [hdc]
      exact (hfilled hd).1
    · rw [hother d hdc] at hd
      by_cases hpc' : pc = .filled
      · exact absurd hd ((hfilled hpc').2 d hdc)
      · rcases hbuffer hpc' with hsame | hnone
        · rw [hsame]
          exact h.filled d hd
        · exact absurd hd (hnone d hdc)
  · intro d e hd he
    by_cases hdc : d = c
    · by_cases hec : e = c
      · rw [hdc, hec]
      · rw [hdc, hself] at hd
        rw [hother e hec] at he
        exact absurd he ((hfilled hd).2 e hec)
    · rw [hother d hdc] at hd
      by_cases hec : e = c
      · rw [hec, hself] at he
        exact absurd hd ((hfilled he).2 d hdc)
      · rw [hother e hec] at he
        exact h.alone d e hd he
  · intro d response hd
    by_cases hdc : d = c
    · rw [hdc, hself] at hd
      rw [hdc]
      exact .inr (hpc response hd)
    · rw [hother d hdc] at hd
      exact .inl hd

theorem not_filled {pc : RequestPc} (h : pc.isFilled = false) : pc ≠ .filled := by
  intro hfilled
  rw [hfilled] at h
  cases h

theorem Taking.fill {c : C} (h : s.Taking request) (hturn : s.TakesTurns (.fill c))
    (hcall : s.call c = .outside) :
    ({ s.setCall c (if ((request c).fill s.portRequest).2 then .filled else .thrown) with
      portRequest := ((request c).fill s.portRequest).1 } : RequestingState Tid Sid P C).Taking request := by
  have hnone : ∀ d, s.call d ≠ .filled := fun d => not_filled (hturn d)
  have hgrows : ∀ t : RequestingState Tid Sid P C, t.base = s.base → t.outgoing = s.outgoing → s.Grows t := by
    intro t hbase houtgoing
    exact ⟨by rw [hbase], by rw [houtgoing]⟩
  have hbefore : ¬(s.call c).holds := by
    rw [hcall]
    exact id
  cases hfits : ((request c).fill s.portRequest).2 with
  | true =>
      refine h.setCall rfl nofun (hgrows _ rfl rfl) rfl h.paired.frame ?_ ?_ ?_
      · intro _
        exact ⟨ServiceRequest.fill_contents hfits, fun d _ => hnone d⟩
      · intro hne
        exact absurd rfl hne
      · exact mode_aside h.mode rfl rfl rfl (hgrows _ rfl rfl) (setCall_holds hbefore id) rfl rfl
  | false =>
      refine h.setCall rfl nofun (hgrows _ rfl rfl) rfl h.paired.frame nofun ?_ ?_
      · intro _
        exact .inr fun d _ => hnone d
      · exact mode_aside h.mode rfl rfl rfl (hgrows _ rfl rfl) (setCall_holds hbefore id) rfl rfl

/-- A call finds the buffer as it has left it, and its own request in it. -/
theorem Taking.write {c : C} (h : s.Taking request) (hcall : s.call c = .filled) :
    (s.write c).Taking request := by
  have hbefore : ¬(s.call c).holds := by
    rw [hcall]
    exact id
  have halone : ∀ d, d ≠ c → s.call d ≠ .filled := fun d hd hfilled => hd (h.alone c d hcall hfilled)
  unfold RequestingState.write
  split
  · have hgrows : s.Grows { s.setCall c .written with
        portRequest := (s.portRequest.setPosition s.portRequest.limit).getD s.portRequest
        outgoing := s.outgoing ++ [(c, s.portRequest.contents)] } :=
      ⟨List.prefix_rfl, List.prefix_append _ _⟩
    refine h.setCall rfl nofun hgrows rfl ?_ nofun (fun _ => .inr halone) ?_
    · intro entry hentry
      rcases List.mem_append.mp hentry with hold | hnew
      · exact h.paired.frame entry hold
      · rw [List.mem_singleton.mp hnew]
        exact h.filled c hcall
    · exact mode_aside h.mode rfl rfl rfl hgrows (setCall_holds hbefore id) rfl rfl
  · have hgrows : s.Grows (s.setCall c .written) := ⟨List.prefix_rfl, List.prefix_rfl⟩
    refine h.setCall rfl nofun hgrows rfl h.paired.frame nofun (fun _ => .inl rfl) ?_
    exact mode_aside h.mode rfl rfl rfl hgrows (setCall_holds hbefore id) rfl rfl

theorem Taking.writeThrows {c : C} (h : s.Taking request) (hcall : s.call c = .filled) :
    (s.setCall c .thrown).Taking request := by
  have hbefore : ¬(s.call c).holds := by
    rw [hcall]
    exact id
  have hgrows : s.Grows (s.setCall c .thrown) := ⟨List.prefix_rfl, List.prefix_rfl⟩
  refine h.setCall rfl nofun hgrows rfl h.paired.frame nofun (fun _ => .inl rfl) ?_
  exact mode_aside h.mode rfl rfl rfl hgrows (setCall_holds hbefore id) rfl rfl

/-- The call that comes to wait wrote the first request for which none has come yet. -/
theorem Taking.wait {c : C} (h : s.Taking request) (hturn : s.TakesTurns (.wait c))
    (hcall : s.call c = .written) :
    ({ s.setCall c .waiting with queue := s.queue ++ [c], come := s.come + 1 } :
      RequestingState Tid Sid P C).Taking request := by
  have hbefore : ¬(s.call c).holds := by
    rw [hcall]
    exact id
  have hgrows : s.Grows { s.setCall c .waiting with queue := s.queue ++ [c], come := s.come + 1 } :=
    ⟨List.prefix_rfl, List.prefix_rfl⟩
  have hwriter : s.writers[s.come]? = some c := by
    rw [writers, List.getElem?_map]
    exact hturn
  obtain ⟨hlt, hget⟩ := List.getElem?_eq_some_iff.mp hwriter
  refine h.setCall rfl nofun hgrows rfl h.paired.frame nofun (fun _ => .inl rfl) ?_
  rcases h.mode with hmode | hmode
  · refine .inl (hmode.aside hgrows rfl rfl rfl (setCall_holds hbefore id) hlt (Nat.le_succ _) ?_)
    show s.queue ++ [c] =
      (s.writers.take (s.come + 1)).drop (s.answers - s.base.spawner.openRequestResponsesReady)
    have hlength : (s.writers.take s.come).length = s.come := List.length_take_of_le hmode.come
    rw [hmode.queue, ← hget, ← List.take_append_getElem hlt,
      List.drop_append_of_le_length (hmode.taken.trans_eq hlength.symm)]
  · exact .inr (hmode.aside rfl rfl (setCall_holds hbefore id))

/-- `permits` and `responses` are taken from the queue. -/
theorem Silent.take {c : C} {pc : RequestPc} {queue : List C} {spawner : SpawnerFields} (h : s.Silent)
    (hpc : ∀ response, pc ≠ .polled (some response)) (hresponses : spawner.openRequestResponses = []) :
    ({ s.setCall c pc with queue, base := { s.base with spawner } } :
      RequestingState Tid Sid P C).Silent := by
  refine h.frame rfl rfl hresponses ?_
  intro d response hd
  change Function.update s.call c pc d = .polled (some response) at hd
  by_cases hdc : d = c
  · rw [hdc, Function.update_self] at hd
    exact hpc response hd
  · rw [Function.update_of_ne hdc] at hd
    exact h.calls d response hd

/-- The permit of the last answer goes to the call whose request it is for. -/
theorem Working.acquire {c : C} (h : s.Working) (hhead : s.queue.head? = some c)
    (hready : 0 < s.base.spawner.openRequestResponsesReady) :
    ({ s.setCall c .acquired with
      queue := s.queue.tail
      base := { s.base with spawner := { s.base.spawner with
        openRequestResponsesReady := s.base.spawner.openRequestResponsesReady - 1 } } } :
      RequestingState Tid Sid P C).Working := by
  obtain ⟨rest, hrest⟩ := List.head?_eq_some_iff.mp hhead
  have hqueue := h.queue
  cases h.hand with
  | idle _ ready _ _ _ | acquired _ ready _ _ _ _ _ _ | polled _ ready _ _ _ _ _ _ | done _ ready _ _ _ =>
      rw [ready] at hready
      cases hready
  | offered receiver ready done responses calls answer =>
      rw [ready, hrest] at hqueue
      have hcounted := h.counted
      rw [receiver] at hcounted
      change s.answers = s.passed.length + 1 at hcounted
      have hlength : (s.writers.take s.come).length = s.come := List.length_take_of_le h.come
      have hdrop := congrArg List.length hqueue
      rw [List.length_cons, List.length_drop, hlength] at hdrop
      have hlast : s.answers - 1 < s.come := by omega
      have hsplit := List.drop_eq_getElem_cons (hlast.trans_eq hlength.symm)
      rw [← hqueue, List.cons.injEq, List.getElem_take] at hsplit
      have hwriter : s.writers[s.answers - 1]? = some c := by
        rw [List.getElem?_eq_getElem (hlast.trans_le h.come), hsplit.1]
      have hnone : s.base.spawner.openRequestResponsesReady - 1 = 0 := by omega
      have hanswers : s.answers - 1 + 1 = s.answers := by omega
      refine ⟨h.stream.frame rfl rfl, ?_, h.come, ?_, ?_, ?_⟩
      · exact h.counted
      · show s.answers - (s.base.spawner.openRequestResponsesReady - 1) ≤ s.come
        omega
      · show s.queue.tail =
          (s.writers.take s.come).drop (s.answers - (s.base.spawner.openRequestResponsesReady - 1))
        rw [hrest, List.tail_cons, hnone, Nat.sub_zero, hsplit.2, hanswers]
      · refine .acquired receiver hnone done responses (Function.update_self ..) ?_ hwriter answer
        intro d hd
        show ¬(Function.update s.call c .acquired d).holds
        rw [Function.update_of_ne hd]
        exact calls d

theorem Working.poll {c : C} (h : s.Working) (hcall : s.call c = .acquired) :
    ({ s.setCall c (.polled s.base.spawner.openRequestResponses.head?) with
      base := { s.base with spawner := { s.base.spawner with
        openRequestResponses := s.base.spawner.openRequestResponses.tail } } } :
      RequestingState Tid Sid P C).Working := by
  have hholds : (s.call c).holds := by
    rw [hcall]
    trivial
  refine ⟨h.stream.frame rfl rfl, h.counted, h.come, h.taken, h.queue, ?_⟩
  cases h.hand with
  | idle _ _ _ _ calls | offered _ _ _ _ calls _ | done _ _ _ _ calls => exact absurd hholds (calls c)
  | @polled d _ _ _ _ _ call calls _ _ =>
      by_cases hcd : c = d
      · rw [hcd, call] at hcall
        cases hcall
      · exact absurd hholds (calls c hcd)
  | @acquired d response receiver ready done responses call calls writer answer =>
      have hcd : c = d := not_not.mp fun hcd => calls c hcd hholds
      rw [← hcd] at writer calls
      rw [responses]
      refine .polled receiver ready done rfl (Function.update_self ..) ?_ writer answer
      intro e he
      show ¬(Function.update s.call c _ e).holds
      rw [Function.update_of_ne he]
      exact calls e he

/-- A call returns with the answer to its own request. -/
theorem Working.release {c : C} {polled : Option OpenRequestResponse} (h : s.Working)
    (hcall : s.call c = .polled polled) :
    (∀ response, polled = some response → s.Answered c response) ∧
      ({ s.setCall c (.finished polled) with
        base := { s.base with spawner := { s.base.spawner with
          openRequestResponsesDone := s.base.spawner.openRequestResponsesDone + 1 } } } :
        RequestingState Tid Sid P C).Working := by
  have hholds : (s.call c).holds := by
    rw [hcall]
    trivial
  cases h.hand with
  | idle _ _ _ _ calls | offered _ _ _ _ calls _ | done _ _ _ _ calls => exact absurd hholds (calls c)
  | @acquired d _ _ _ _ _ call calls _ _ =>
      by_cases hcd : c = d
      · rw [hcd, call] at hcall
        cases hcall
      · exact absurd hholds (calls c hcd)
  | @polled d response receiver ready done responses call calls writer answer =>
      have hcd : c = d := not_not.mp fun hcd => calls c hcd hholds
      rw [← hcd] at writer calls call
      rw [hcall] at call
      cases call
      constructor
      · intro response' hresponse
        cases hresponse
        exact answer.answered writer
      · refine ⟨h.stream.frame rfl rfl, h.counted, h.come, h.taken, h.queue, ?_⟩
        refine .done receiver ready (congrArg (· + 1) done) responses ?_
        intro e
        show ¬(Function.update s.call c _ e).holds
        by_cases hec : e = c
        · rw [hec, Function.update_self]
          exact id
        · rw [Function.update_of_ne hec]
          exact calls e hec

end RequestingState

end AapBridge.Android
