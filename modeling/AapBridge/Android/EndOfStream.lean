import AapBridge.Android.PairedAnswers
import AapBridge.Android.ReceiverProgress

/-! # The end of the stream

The receiver thread on a stream that ends anywhere, next to all other threads.
`read` returns -1 behind the last byte and `skip` returns 0. The loop is left and
the connection closed unless a payload is skipped that is not all there, a payload
is never done with, or a response is put into the queue that no call waits for.
-/

namespace AapBridge.Android

open AapBridge.Lib
open AapBridge.Accessory (Slot slot?)

/-! ## The threads of a bridge whose stream ends -/

/-- `closed`: the `finally` block of `ReceiverThread.run` has called `close()`. -/
structure EndingState (Tid Sid P C : Type*) where
  threads : RequestingState Tid Sid P C
  closed : Bool

inductive EndingLabel (Tid Sid P C : Type*) where
  /-- A step of a thread; where the receiver handles a payload, the number of its
  label is the time that takes. -/
  | thread (label : RequestingLabel Tid Sid P C)
  | close

section

variable {Tid Sid P C : Type*}

/-- The receiver thread takes the step. -/
def EndingLabel.ofReceiver : EndingLabel Tid Sid P C → Bool
  | .thread (.base (.receive _)) | .thread .fail | .close => true
  | _ => false

/-- A call of `requestService` gets its permit, or is on the way to giving it back. -/
def EndingLabel.releases : EndingLabel Tid Sid P C → Bool
  | .thread (.acquire _) | .thread (.poll _) | .thread (.release _) => true
  | _ => false

/-- The payload has been handled when the receiver takes its step. -/
def RequestingState.handled (written : Nat → List UInt8 → Nat → Bool) (s : RequestingState Tid Sid P C) :
    RequestingLabel Tid Sid P C → Bool
  | .base (.receive n) =>
      match s.base.receiver with
      | .handle service bytes => (s.base.kind service).handled (written s.base.iterations) bytes n
      | _ => true
  | _ => true

def EndingState.step [DecidableEq Tid] [DecidableEq Sid] [DecidableEq P] [DecidableEq C]
    (written : Nat → List UInt8 → Nat → Bool) (request : C → ServiceRequest)
    (s : EndingState Tid Sid P C) : EndingLabel Tid Sid P C → Option (EndingState Tid Sid P C)
  | .thread label =>
      if s.threads.handled written label then
        (s.threads.step request label).map fun threads => { s with threads }
      else none
  | .close =>
      match s.threads.base.receiver with
      | .stopped => if s.closed then none else some { s with closed := true }
      | _ => none

/-- A bridge that has just been constructed on a connection that ends behind `bytes`. -/
def EndingInit [DecidableEq Tid] (bytes : List UInt8) (s : EndingState Tid Sid P C) : Prop :=
  ∃ bridge : RequestingState Tid Sid P C, RequestingInit bridge ∧ s =
    ⟨{ bridge with lost := some .endOfFile, base := { bridge.base with unread := bytes } }, false⟩

/-- `written iteration` is about the write of the receiver's round with that number. -/
def ending [DecidableEq Tid] [DecidableEq Sid] [DecidableEq P] [DecidableEq C]
    (written : Nat → List UInt8 → Nat → Bool) (request : C → ServiceRequest) (bytes : List UInt8) :
    Machine (EndingState Tid Sid P C) (EndingLabel Tid Sid P C) where
  init := EndingInit bytes
  step s := s.step written request

/-! ## Calls that give a permit back -/

namespace RequestingState

variable (s t : RequestingState Tid Sid P C)

/-- A permit of the receiver lies there, or some call waits for one of its own or has one. -/
def Gives : Prop :=
  0 < s.base.spawner.openRequestResponsesDone ∨ s.queue ≠ [] ∨ ∃ c, (s.call c).holds

/-- The same with a permit for the call that waits. -/
def Given : Prop :=
  0 < s.base.spawner.openRequestResponsesDone ∨
    s.queue ≠ [] ∧ 0 < s.base.spawner.openRequestResponsesReady ∨ ∃ c, (s.call c).holds

/-- A step of another thread than the receiver. -/
structure Besides : Prop where
  lost : t.lost = s.lost
  receiver : t.base.receiver = s.base.receiver
  kind : t.base.kind = s.base.kind
  unread : t.base.unread = s.base.unread
  iterations : t.base.iterations = s.base.iterations
  given : s.Given → t.Given

variable {s t}

theorem Besides.same (hlost : t.lost = s.lost) (hbase : t.base = s.base) (hgiven : s.Given → t.Given) :
    s.Besides t := by
  refine ⟨hlost, ?_, ?_, ?_, ?_, hgiven⟩ <;> rw [hbase]

/-- A call that neither had a permit nor gets one moves on. -/
theorem Given.setCall [DecidableEq C] {c : C} {pc : RequestPc} (h : s.Given) (hbefore : ¬(s.call c).holds) :
    (s.setCall c pc).Given := by
  rcases h with hdone | hqueue | ⟨d, hd⟩
  · exact .inl hdone
  · exact .inr (.inl hqueue)
  · refine .inr (.inr ⟨d, ?_⟩)
    have hne : d ≠ c := by
      rintro rfl
      exact hbefore hd
    show (Function.update s.call c pc d).holds
    rwa [Function.update_of_ne hne]

theorem given_of_holds [DecidableEq C] {c : C} {pc : RequestPc}
    (hcall : t.call = Function.update s.call c pc) (hpc : pc.holds) : t.Given := by
  refine .inr (.inr ⟨c, ?_⟩)
  rw [hcall, Function.update_self]
  exact hpc

variable [DecidableEq Tid] [DecidableEq Sid] [DecidableEq P]

theorem besides_base {label : ReceivingLabel Tid Sid P} (hreceive : ∀ n, label ≠ .receive n)
    (hlost : s.lost = some .endOfFile) (h : s.stepBase label = some t) : s.Besides t := by
  have haside : ∀ base, label ≠ .takeResponse → (∀ msg, label ≠ .arrive msg) →
      s.base.step label = some base → s.Besides { s with base } := by
    intro base htake harrive hbase
    have h := ReceivingState.aside_step hreceive harrive htake hbase
    refine ⟨rfl, h.receiver, h.kind, h.unread, h.iterations, ?_⟩
    intro hgiven
    unfold Given at hgiven ⊢
    rw [h.spawner]
    exact hgiven
  cases label with
  | receive n => exact absurd rfl (hreceive n)
  | takeResponse => cases h
  | arrive msg =>
      rw [stepBase, hlost] at h
      cases h
  | startClose tid x | startEof tid x | run tid | register i service | assignPort service x =>
      obtain ⟨base, hbase, rfl⟩ := Option.map_eq_some_iff.mp h
      exact haside base (by simp) (by simp) hbase

variable [DecidableEq C]

theorem besides_step {request : C → ServiceRequest} {label : RequestingLabel Tid Sid P C}
    (hreceive : ∀ n, label ≠ .base (.receive n)) (hfail : label ≠ .fail) (hlost : s.lost = some .endOfFile)
    (h : s.step request label = some t) : s.Besides t := by
  cases label with
  | base label => exact besides_base (fun n hn => hreceive n (by rw [hn])) hlost h
  | fail => exact absurd rfl hfail
  | lose loss kept =>
      change s.lose loss kept = some t at h
      rw [RequestingState.lose, hlost] at h
      cases h
  | fill c =>
      simp only [RequestingState.step] at h
      split at h
      · next hcall =>
        cases h
        have hgiven (pc : RequestPc) (h : s.Given) : (s.setCall c pc).Given :=
          h.setCall (by rw [hcall]; exact id)
        exact .same rfl rfl (hgiven _)
      · cases h
  | write c =>
      simp only [RequestingState.step] at h
      split at h
      · next hcall =>
        obtain ⟨-, h⟩ := Option.ite_none_left_eq_some.mp h
        cases h
        have hgiven : s.Given → (s.setCall c .written).Given :=
          fun hgiven => hgiven.setCall (by rw [hcall]; exact id)
        unfold RequestingState.write
        split <;> exact .same rfl rfl hgiven
      · cases h
  | writeThrows c =>
      simp only [RequestingState.step] at h
      split at h
      · next hcall =>
        obtain ⟨-, h⟩ := Option.ite_none_right_eq_some.mp h
        cases h
        exact .same rfl rfl fun hgiven => hgiven.setCall (by rw [hcall]; exact id)
      · cases h
  | wait c =>
      simp only [RequestingState.step] at h
      split at h
      · next hcall =>
        cases h
        refine ⟨rfl, rfl, rfl, rfl, rfl, ?_⟩
        intro hgiven
        have hset : (s.setCall c .waiting).Given := hgiven.setCall (by rw [hcall]; exact id)
        rcases hset with hdone | hqueue | hholds
        · exact .inl hdone
        · exact .inr (.inl ⟨by simp, hqueue.2⟩)
        · exact .inr (.inr hholds)
      · cases h
  | acquire c =>
      obtain ⟨-, h⟩ := Option.ite_none_right_eq_some.mp h
      cases h
      exact ⟨rfl, rfl, rfl, rfl, rfl, fun _ => given_of_holds rfl trivial⟩
  | poll c =>
      simp only [RequestingState.step] at h
      split at h
      · cases h
        exact ⟨rfl, rfl, rfl, rfl, rfl, fun _ => given_of_holds rfl trivial⟩
      · cases h
  | release c =>
      simp only [RequestingState.step] at h
      split at h
      · cases h
        exact ⟨rfl, rfl, rfl, rfl, rfl, fun _ => .inl (Nat.succ_pos _)⟩
      · cases h

end RequestingState

/-! ## Runs behind the loss of the connection -/

namespace EndingState

section

variable (written : Nat → List UInt8 → Nat → Bool) (s : EndingState Tid Sid P C)

/-- What a step of the receiver needs, so that it does not stay where it leads. -/
def Completes : EndingLabel Tid Sid P C → Prop
  | .thread (.base (.receive _)) => s.threads.base.Completes written s.threads.Gives
  | _ => True

/-- The step is one of the receiver, or of a call that the receiver waits for. -/
def Awaits (label : EndingLabel Tid Sid P C) : Prop :=
  label.ofReceiver = true ∨ s.threads.base.receiver = .awaitDone ∧ label.releases = true

/-- Bounds the steps of the receiver that are left. -/
def stepsLeft : Nat := if s.closed then 0 else s.threads.base.stepsLeft + 1

structure Cut : Prop where
  lost : s.threads.lost = some .endOfFile
  closed : s.closed = true → s.threads.base.receiver = .stopped

/-- The receiver is where it goes on. -/
structure Proceeds : Prop extends Cut s where
  receiver : s.threads.base.Proceeds written s.threads.Given

end

/-- However the threads take turns, the receiver takes no more than some number of
steps, and until the connection is closed it has a step to take, or it waits for a
call that has one. -/
structure Terminates (M : Machine (EndingState Tid Sid P C) (EndingLabel Tid Sid P C))
    (s : EndingState Tid Sid P C) : Prop where
  finite : ∃ bound, ∀ labels t, M.run s labels = some t → labels.countP EndingLabel.ofReceiver ≤ bound
  goesOn : ∀ labels t, M.run s labels = some t →
    t.closed = true ∨ ∃ label u, M.step t label = some u ∧ t.Awaits label

variable {written : Nat → List UInt8 → Nat → Bool} {s t : EndingState Tid Sid P C}

theorem Terminates.of_run {M : Machine (EndingState Tid Sid P C) (EndingLabel Tid Sid P C)}
    {labels : List (EndingLabel Tid Sid P C)} (h : Terminates M s) (hr : M.run s labels = some t) :
    Terminates M t := by
  have happend : ∀ labels' u, M.run t labels' = some u → M.run s (labels ++ labels') = some u := by
    intro labels' u hu
    rw [Machine.run_append, hr, Option.bind_some, hu]
  obtain ⟨bound, hbound⟩ := h.finite
  refine ⟨⟨bound, ?_⟩, ?_⟩
  · intro labels' u hu
    have hmost := hbound _ u (happend labels' u hu)
    rw [List.countP_append] at hmost
    omega
  · intro labels' u hu
    exact h.goesOn _ u (happend labels' u hu)

theorem stepsLeft_of_closed (h : s.closed = true) : s.stepsLeft = 0 := if_pos h

theorem stepsLeft_of_open (h : s.closed = false) : s.stepsLeft = s.threads.base.stepsLeft + 1 := by
  rw [stepsLeft, if_neg (by rw [h]; nofun)]

theorem Cut.open (h : s.Cut) (hruns : s.threads.base.receiver ≠ .stopped) :
    s.closed = false := by
  cases hclosed : s.closed with
  | false => rfl
  | true => exact absurd (h.closed hclosed) hruns

theorem Proceeds.same {u : EndingState Tid Sid P C} (h : s.Proceeds written) (hcut : u.Cut)
    (hbesides : s.threads.Besides u.threads) : u.Proceeds written := by
  refine ⟨hcut, ?_⟩
  have hplace := h.receiver
  unfold ReceivingState.Proceeds at hplace ⊢
  rw [hbesides.receiver, hbesides.kind, hbesides.unread, hbesides.iterations]
  split <;> rename_i hpc <;> simp only [hpc] at hplace
  · exact hplace
  · exact hplace
  · exact hplace
  · exact hbesides.given hplace
  · trivial

theorem stepsLeft_same {u : EndingState Tid Sid P C} (hclosed : u.closed = s.closed)
    (hbesides : s.threads.Besides u.threads) : u.stepsLeft = s.stepsLeft := by
  rw [stepsLeft, stepsLeft, hclosed, ReceivingState.stepsLeft, ReceivingState.stepsLeft,
    hbesides.unread, hbesides.receiver]

/-- A response that was put into the queue is the receiver's reason to wait. -/
theorem given_of_gives [DecidableEq P] {n : Nat} (hbase : s.threads.base.receive n = some t.threads.base)
    (hqueue : t.threads.queue = s.threads.queue)
    (hcall : t.threads.call = s.threads.call) (hanswering : s.threads.base.answering = true)
    (h : s.threads.Gives) : t.threads.Given := by
  have hready := ReceivingState.receive_permits hbase
  rw [if_pos hanswering] at hready
  cases ReceivingState.receive_spawner hbase with
  | answered answering reads spawner =>
      rcases h with hdone | hwaits | hholds
      · refine .inl ?_
        rw [spawner]
        exact hdone
      · refine .inr (.inl ⟨by rwa [hqueue], ?_⟩)
        rw [hready]
        omega
      · exact .inr (.inr (by rwa [hcall]))
  | same spawner answering reads | ignored answering reads spawner | released answering reads spawner
  | done receiver answering reads spawner =>
      rw [hanswering] at answering
      cases answering

/-- A response that no call waits for leaves the receiver alone. -/
theorem alone_of_answering [DecidableEq P] {n : Nat} (hbase : s.threads.base.receive n = some t.threads.base)
    (hqueue : t.threads.queue = s.threads.queue) (hcall : t.threads.call = s.threads.call)
    (hanswering : s.threads.base.answering = true) (h : ¬s.threads.Gives) : ¬t.threads.Gives := by
  have hdone : t.threads.base.spawner.openRequestResponsesDone =
      s.threads.base.spawner.openRequestResponsesDone := by
    cases ReceivingState.receive_spawner hbase with
    | answered answering reads spawner =>
        rw [spawner]
        rfl
    | same spawner answering reads | ignored answering reads spawner | released answering reads spawner
    | done receiver answering reads spawner =>
        rw [hanswering] at answering
        cases answering
  unfold RequestingState.Gives at h ⊢
  rwa [hdone, hqueue, hcall]

theorem Proceeds.initial [DecidableEq Tid] {bytes : List UInt8} (h : EndingInit bytes s) : s.Proceeds written := by
  obtain ⟨bridge, hinit, rfl⟩ := h
  refine ⟨⟨rfl, nofun⟩, ?_⟩
  show ReceivingState.Proceeds { bridge.base with unread := bytes } written _
  unfold ReceivingState.Proceeds
  rw [hinit.base.receiver]
  exact Nat.zero_lt_succ 3

variable [DecidableEq Tid] [DecidableEq Sid] [DecidableEq P] [DecidableEq C]
  {request : C → ServiceRequest}

theorem step_thread {label : RequestingLabel Tid Sid P C} (h : s.step written request (.thread label) = some t) :
    s.threads.handled written label = true ∧ t.closed = s.closed ∧
      s.threads.step request label = some t.threads := by
  obtain ⟨hhandled, h⟩ := Option.ite_none_right_eq_some.mp h
  obtain ⟨threads, hthreads, rfl⟩ := Option.map_eq_some_iff.mp h
  exact ⟨hhandled, rfl, hthreads⟩

/-- The step of the receiver that a step of the machine is. -/
theorem step_receive {n : Nat} (h : s.step written request (.thread (.base (.receive n))) = some t) :
    s.threads.handled written (.base (.receive n)) = true ∧ t.closed = s.closed ∧
      s.threads.base.receive n = some t.threads.base ∧ t.threads.lost = s.threads.lost ∧
        t.threads.queue = s.threads.queue ∧ t.threads.call = s.threads.call := by
  obtain ⟨hhandled, hclosed, hthreads⟩ := step_thread h
  obtain ⟨base, hbase, heq⟩ := Option.map_eq_some_iff.mp hthreads
  rw [← heq]
  exact ⟨hhandled, hclosed, hbase, rfl, rfl, rfl⟩

theorem step_fail (h : s.step written request (.thread .fail) = some t) (hlost : s.threads.lost = some .endOfFile) :
    s.threads.base.unread = [] ∧ t.closed = s.closed ∧
      s.threads.base.failRead .endOfFile = some t.threads.base ∧ t.threads.lost = s.threads.lost := by
  obtain ⟨-, hclosed, hthreads⟩ := step_thread h
  change s.threads.fail = some t.threads at hthreads
  rw [RequestingState.fail, hlost, Option.bind_some] at hthreads
  obtain ⟨hunread, hthreads⟩ := Option.ite_none_right_eq_some.mp hthreads
  obtain ⟨base, hbase, heq⟩ := Option.map_eq_some_iff.mp hthreads
  rw [← heq]
  exact ⟨hunread, hclosed, hbase, hlost.symm⟩

theorem step_close (h : s.step written request .close = some t) :
    s.threads.base.receiver = .stopped ∧ s.closed = false ∧ t = { s with closed := true } := by
  change (match s.threads.base.receiver with | .stopped => _ | _ => none) = some t at h
  split at h
  · next hstopped =>
    obtain ⟨hopen, h⟩ := Option.ite_none_left_eq_some.mp h
    cases h
    exact ⟨hstopped, by simpa using hopen, rfl⟩
  · cases h

theorem step_besides {label : RequestingLabel Tid Sid P C} (hreceive : ∀ n, label ≠ .base (.receive n))
    (hfail : label ≠ .fail) (hlost : s.threads.lost = some .endOfFile)
    (h : s.step written request (.thread label) = some t) :
    s.threads.Besides t.threads ∧ t.closed = s.closed := by
  obtain ⟨-, hclosed, hthreads⟩ := step_thread h
  exact ⟨RequestingState.besides_step hreceive hfail hlost hthreads, hclosed⟩

theorem Cut.step {label : EndingLabel Tid Sid P C} (h : s.Cut) (hs : s.step written request label = some t) :
    t.Cut := by
  cases label with
  | close =>
      obtain ⟨hstopped, -, rfl⟩ := step_close hs
      exact ⟨h.lost, fun _ => hstopped⟩
  | thread label =>
      by_cases hreceive : ∃ n, label = .base (.receive n)
      · obtain ⟨n, rfl⟩ := hreceive
        obtain ⟨-, hclosed, hbase, hlost, -, -⟩ := step_receive hs
        refine ⟨hlost.trans h.lost, ?_⟩
        rw [hclosed, h.open (ReceivingState.receive_running hbase)]
        nofun
      · by_cases hfail : label = .fail
        · subst hfail
          obtain ⟨-, hclosed, hbase, hlost⟩ := step_fail hs h.lost
          refine ⟨hlost.trans h.lost, ?_⟩
          rw [hclosed, h.open (ReceivingState.failRead_running hbase)]
          nofun
        · obtain ⟨hbesides, hclosed⟩ := step_besides (fun n hn => hreceive ⟨n, hn⟩) hfail h.lost hs
          refine ⟨hbesides.lost.trans h.lost, ?_⟩
          rw [hclosed, hbesides.receiver]
          exact h.closed

/-- What a step that meets its condition keeps, and how far it brings the receiver. -/
theorem Proceeds.step {label : EndingLabel Tid Sid P C} (h : s.Proceeds written)
    (hc : s.Completes written label) (hs : s.step written request label = some t) :
    t.Proceeds written ∧ t.stepsLeft ≤ s.stepsLeft ∧
      (label.ofReceiver = true → t.stepsLeft < s.stepsLeft) := by
  have hcut := h.toCut.step hs
  have hbrings : t.Proceeds written → t.stepsLeft < s.stepsLeft → t.Proceeds written ∧
      t.stepsLeft ≤ s.stepsLeft ∧ (label.ofReceiver = true → t.stepsLeft < s.stepsLeft) :=
    fun ht hlt => ⟨ht, hlt.le, fun _ => hlt⟩
  have hfalls : t.closed = s.closed → s.closed = false →
      t.threads.base.stepsLeft < s.threads.base.stepsLeft → t.stepsLeft < s.stepsLeft := by
    intro hclosed hopen hlt
    rw [stepsLeft_of_open hopen, stepsLeft_of_open (hclosed.trans hopen)]
    exact Nat.succ_lt_succ hlt
  cases label with
  | close =>
      obtain ⟨-, hopen, rfl⟩ := step_close hs
      apply hbrings ⟨hcut, h.receiver⟩
      rw [stepsLeft_of_open hopen, stepsLeft_of_closed rfl]
      exact Nat.succ_pos _
  | thread label =>
      by_cases hreceive : ∃ n, label = .base (.receive n)
      · obtain ⟨n, rfl⟩ := hreceive
        obtain ⟨-, hclosed, hbase, -, hqueue, hcall⟩ := step_receive hs
        have hopen := h.open (ReceivingState.receive_running hbase)
        have hproceeds : t.threads.base.Proceeds written t.threads.Given :=
          h.receiver.receive hc (given_of_gives hbase hqueue hcall) hbase
        exact hbrings ⟨hcut, hproceeds⟩ (hfalls hclosed hopen (ReceivingState.receive_stepsLeft hbase))
      · by_cases hfail : label = .fail
        · subst hfail
          obtain ⟨hunread, hclosed, hbase, -⟩ := step_fail hs h.lost
          have hopen := h.open (ReceivingState.failRead_running hbase)
          -- nothing is left of the payload, so nothing of it is left to be skipped
          have hskip : ∀ mustSkip, s.threads.base.receiver ≠ .skip mustSkip := by
            intro mustSkip hpc
            have hleft := h.receiver
            rw [ReceivingState.Proceeds, hpc] at hleft
            simp only [ReceivingState.failRead, hpc] at hbase
            obtain ⟨hpos, -⟩ := Option.ite_none_right_eq_some.mp hbase
            change mustSkip ≤ s.threads.base.unread.length at hleft
            rw [hunread, List.length_nil] at hleft
            omega
          exact hbrings ⟨hcut, h.receiver.failRead hbase⟩
            (hfalls hclosed hopen (ReceivingState.failRead_stepsLeft hbase hskip))
        · have hother : ∀ n, label ≠ .base (.receive n) := fun n hn => hreceive ⟨n, hn⟩
          obtain ⟨hbesides, hclosed⟩ := step_besides hother hfail h.lost hs
          refine ⟨h.same hcut hbesides, (stepsLeft_same hclosed hbesides).le, ?_⟩
          intro hreceiver
          cases label with
          | base label =>
              cases label with
              | receive n => exact absurd rfl (hother n)
              | _ => cases hreceiver
          | fail => exact absurd rfl hfail
          | _ => cases hreceiver

/-! ## A step to take -/

theorem step_of_threads {label : RequestingLabel Tid Sid P C} {threads : RequestingState Tid Sid P C}
    (hhandled : s.threads.handled written label = true) (h : s.threads.step request label = some threads) :
    s.step written request (.thread label) = some { s with threads } := by
  show (if s.threads.handled written label = true then _ else none) = _
  rw [if_pos hhandled, h]
  rfl

theorem exists_receiver_step (hlost : s.threads.lost = some .endOfFile)
    (h : s.threads.base.Moves written) :
    ∃ label t, s.step written request label = some t ∧ s.Awaits label := by
  cases h with
  | receive hstep hhandled =>
      rename_i n base
      have hthreads : ∃ threads, s.threads.step request (.base (.receive n)) = some threads := by
        show ∃ threads, (s.threads.base.receive n).map _ = some threads
        rw [hstep]
        exact ⟨_, rfl⟩
      obtain ⟨threads, hthreads⟩ := hthreads
      refine ⟨.thread (.base (.receive n)), _, step_of_threads ?_ hthreads, .inl rfl⟩
      simp only [RequestingState.handled]
      split
      · next service bytes hpc => exact hhandled service bytes hpc
      · rfl
  | fail hunread hstep =>
      have hthreads : ∃ threads, s.threads.step request .fail = some threads := by
        show ∃ threads, s.threads.fail = some threads
        rw [RequestingState.fail, hlost, Option.bind_some, if_pos hunread, hstep]
        exact ⟨_, rfl⟩
      obtain ⟨threads, hthreads⟩ := hthreads
      exact ⟨.thread .fail, _, step_of_threads rfl hthreads, .inl rfl⟩

/-- The call in front gets its permit, or one that has a permit goes on. -/
theorem exists_release_step (hpc : s.threads.base.receiver = .awaitDone)
    (hdone : s.threads.base.spawner.openRequestResponsesDone = 0) (h : s.threads.Given) :
    ∃ label t, s.step written request label = some t ∧ s.Awaits label := by
  have hlabel : ∀ label : RequestingLabel Tid Sid P C, EndingLabel.releases (.thread label) = true →
      s.threads.handled written label = true → (∃ threads, s.threads.step request label = some threads) →
      ∃ label t, s.step written request label = some t ∧ s.Awaits label := by
    rintro label hreleases hhandled ⟨threads, hthreads⟩
    exact ⟨.thread label, _, step_of_threads hhandled hthreads, .inr ⟨hpc, hreleases⟩⟩
  rcases h with h | ⟨hqueue, hready⟩ | ⟨c, hholds⟩
  · omega
  · obtain ⟨c, rest, hcons⟩ := List.exists_cons_of_ne_nil hqueue
    apply hlabel (.acquire c) rfl rfl
    exact ⟨_, if_pos ⟨by rw [hcons]; rfl, hready⟩⟩
  · cases hcall : s.threads.call c with
    | acquired =>
        apply hlabel (.poll c) rfl rfl
        simp only [RequestingState.step, hcall]
        exact ⟨_, rfl⟩
    | polled response =>
        apply hlabel (.release c) rfl rfl
        simp only [RequestingState.step, hcall]
        exact ⟨_, rfl⟩
    | _ =>
        rw [hcall] at hholds
        exact hholds.elim

theorem Proceeds.goesOn (h : s.Proceeds written) :
    s.closed = true ∨ ∃ label t, s.step written request label = some t ∧ s.Awaits label := by
  by_cases hstopped : s.threads.base.receiver = .stopped
  · cases hclosed : s.closed with
    | true => exact .inl rfl
    | false =>
        refine .inr ⟨.close, { s with closed := true }, ?_, .inl rfl⟩
        simp only [EndingState.step, hstopped, hclosed]
        rfl
  · apply Or.inr
    by_cases hwaits : s.threads.base.receiver = .awaitDone ∧
        s.threads.base.spawner.openRequestResponsesDone = 0
    · have hgiven := h.receiver
      rw [ReceivingState.Proceeds, hwaits.1] at hgiven
      exact exists_release_step hwaits.1 hwaits.2 hgiven
    · apply exists_receiver_step h.lost (h.receiver.moves hstopped _)
      intro hpc
      exact Nat.pos_of_ne_zero fun hdone => hwaits ⟨hpc, hdone⟩

/-! ## No way on -/

variable (written request) in
/-- Behind the last byte the skip goes round. -/
theorem skip_stays {mustSkip : Int} (hpc : s.threads.base.receiver = .skip mustSkip) (hpos : 0 < mustSkip)
    (hlost : s.threads.lost = some .endOfFile) (hunread : s.threads.base.unread = []) :
    s.step written request (.thread .fail) = some s := by
  have hreads : s.threads.base.spawnerReads = false :=
    ReceivingState.not_spawnerReads (by rw [hpc]; nofun)
  have hfail : s.threads.step request .fail = some s.threads := by
    show s.threads.fail = _
    rw [RequestingState.fail, hlost, Option.bind_some, if_pos hunread, hreads]
    simp only [ReceivingState.failRead, hpc, if_pos hpos]
    rw [← hlost]
    rfl
  exact step_of_threads rfl hfail

/-- A skip of more bytes than there are takes as many steps as one likes. -/
theorem skip_runs {M : Machine (EndingState Tid Sid P C) (EndingLabel Tid Sid P C)}
    (hM : ∀ s, M.step s = s.step written request) (h : s.Cut) {mustSkip : Int}
    (hpc : s.threads.base.receiver = .skip mustSkip) (hshort : s.threads.base.unread.length < mustSkip)
    (steps : Nat) : ∃ labels t, M.run s labels = some t ∧ steps ≤ labels.countP EndingLabel.ofReceiver := by
  have hround : ∀ {s : EndingState Tid Sid P C} {mustSkip : Int}, s.Cut →
      s.threads.base.receiver = .skip mustSkip → 0 < mustSkip → s.threads.base.unread = [] →
      ∃ labels t, M.run s labels = some t ∧ steps ≤ labels.countP EndingLabel.ofReceiver := by
    intro s mustSkip h hpc hpos hunread
    have hstays := skip_stays written request hpc hpos h.lost hunread
    refine ⟨List.replicate steps (.thread .fail), s, ?_, ?_⟩
    · induction steps with
      | zero => rfl
      | succ steps ih =>
          rw [List.replicate_succ, Machine.run_cons, hM, hstays]
          exact ih
    · rw [List.countP_replicate]
      exact le_refl _
  by_cases hunread : s.threads.base.unread = []
  · rw [hunread] at hshort
    exact hround h hpc hshort hunread
  · -- one skip takes all that is left
    have hlen := List.length_pos_of_ne_nil hunread
    have hread : s.threads.base.read s.threads.base.unread.length mustSkip.toNat =
        some (s.threads.base.unread.take s.threads.base.unread.length,
          { s.threads.base with unread := s.threads.base.unread.drop s.threads.base.unread.length }) :=
      if_pos ⟨hlen, by omega, le_refl _⟩
    have hbase : ∃ base, s.threads.base.receive s.threads.base.unread.length = some base ∧ base.unread = [] ∧
        base.receiver = .skip (mustSkip - s.threads.base.unread.length) := by
      simp only [ReceivingState.receive, hpc, if_pos (show mustSkip > 0 by omega), hread]
      exact ⟨_, rfl, List.drop_length, rfl⟩
    obtain ⟨base, hreceive, hempty, hpc'⟩ := hbase
    have hthreads : ∃ threads, s.threads.step request (.base (.receive s.threads.base.unread.length)) = some threads ∧
        threads.base = base := by
      show ∃ threads, (s.threads.base.receive s.threads.base.unread.length).map _ = some threads ∧ _
      rw [hreceive]
      exact ⟨_, rfl, rfl⟩
    obtain ⟨threads, hthreads, rfl⟩ := hthreads
    have hhandled : s.threads.handled written (.base (.receive s.threads.base.unread.length)) = true := by
      simp only [RequestingState.handled, hpc]
    have hstep := step_of_threads hhandled hthreads
    obtain ⟨labels, t, hrun, hcount⟩ := hround (h.step hstep) hpc' (by omega) hempty
    refine ⟨.thread (.base (.receive s.threads.base.unread.length)) :: labels, t, ?_, ?_⟩
    · rw [Machine.run_cons, hM, hstep]
      exact hrun
    · rw [List.countP_cons]
      omega

/-- A receiver that stays outside of the skip has no step, and no call has one for it. -/
theorem not_goesOn {label : EndingLabel Tid Sid P C} (h : s.Cut) (hstopped : s.threads.base.receiver ≠ .stopped)
    (hreceive : ∀ n, s.threads.handled written (.base (.receive n)) = true → s.threads.base.receive n = none)
    (hfail : s.threads.base.failRead .endOfFile = none)
    (hgives : s.threads.base.receiver = .awaitDone → ¬s.threads.Gives) (hs : s.step written request label = some t) :
    ¬s.Awaits label := by
  rintro (hreceiver | ⟨hpc, hreleases⟩)
  · cases label with
    | close => exact hstopped (step_close hs).1
    | thread label =>
        cases label with
        | fail =>
            have hbase := (step_fail hs h.lost).2.2.1
            rw [hfail] at hbase
            cases hbase
        | base label =>
            cases label with
            | receive n =>
                obtain ⟨hhandled, -, hbase, -⟩ := step_receive hs
                rw [hreceive n hhandled] at hbase
                cases hbase
            | _ => cases hreceiver
        | _ => cases hreceiver
  · have halone := hgives hpc
    cases label with
    | close => cases hreleases
    | thread label =>
        have hthreads := (step_thread hs).2.2
        cases label with
        | acquire c =>
            obtain ⟨⟨hhead, -⟩, -⟩ := Option.ite_none_right_eq_some.mp hthreads
            apply halone
            refine .inr (.inl ?_)
            intro hnil
            rw [hnil] at hhead
            cases hhead
        | poll c =>
            simp only [RequestingState.step] at hthreads
            split at hthreads
            · next hcall => exact halone (.inr (.inr ⟨c, by rw [hcall]; trivial⟩))
            · cases hthreads
        | release c =>
            simp only [RequestingState.step] at hthreads
            split at hthreads
            · next hcall => exact halone (.inr (.inr ⟨c, by rw [hcall]; trivial⟩))
            · cases hthreads
        | _ => cases hreleases

/-- Where a step does not complete what it begins, the receiver stays forever. -/
theorem not_terminates {M : Machine (EndingState Tid Sid P C) (EndingLabel Tid Sid P C)}
    (hM : ∀ s, M.step s = s.step written request) {label : EndingLabel Tid Sid P C} (h : s.Cut)
    (hc : ¬s.Completes written label) (hs : s.step written request label = some t) : ¬Terminates M t := by
  rintro ⟨⟨bound, hbound⟩, hgoes⟩
  have hcut := h.step hs
  have hstuck : t.threads.base.receiver ≠ .stopped →
      (∀ n, t.threads.handled written (.base (.receive n)) = true → t.threads.base.receive n = none) →
      t.threads.base.failRead .endOfFile = none → (t.threads.base.receiver = .awaitDone → ¬t.threads.Gives) →
      False := by
    intro hstopped hreceive hfail hgives
    rcases hgoes [] t rfl with hclosed | ⟨label, u, hu, hawaits⟩
    · exact hstopped (hcut.closed hclosed)
    · rw [hM] at hu
      exact not_goesOn hcut hstopped hreceive hfail hgives hu hawaits
  unfold Completes at hc
  split at hc
  · next n =>
    obtain ⟨-, -, hbase, -, hqueue, hcall⟩ := step_receive hs
    cases ReceivingState.stays_of_not_completes hc hbase with
    | skip receiver short =>
        obtain ⟨labels, u, hrun, hcount⟩ := skip_runs hM hcut receiver short (bound + 1)
        have hmost := hbound labels u hrun
        omega
    | handle receiver unhandled =>
        rename_i service bytes
        apply hstuck (by rw [receiver]; simp)
        · intro m hhandled
          simp only [RequestingState.handled, receiver] at hhandled
          exact absurd ((handled_iff _ _ _).mp ⟨m, hhandled⟩) unhandled
        · simp only [ReceivingState.failRead, receiver]
        · rw [receiver]
          simp
    | awaitDone receiver answering alone =>
        have halone := alone_of_answering hbase hqueue hcall answering alone
        apply hstuck (by rw [receiver]; simp)
        · intro m _
          simp only [ReceivingState.receive, receiver]
          exact if_neg fun hdone => halone (.inl hdone)
        · simp only [ReceivingState.failRead, receiver]
        · exact fun _ => halone
  · exact hc trivial

end EndingState

open EndingState in
/-- The receiver thread ends on every stream, however the threads take turns, if
and only if no step leads where it would stay. -/
theorem stream_end_noticed_iff [DecidableEq Tid] [DecidableEq Sid] [DecidableEq P] [DecidableEq C]
    (written : Nat → List UInt8 → Nat → Bool) (request : C → ServiceRequest) (bytes : List UInt8)
    (s : EndingState Tid Sid P C) (h : (ending written request bytes).init s) :
    Terminates (ending written request bytes) s ↔
      ∀ labels t label u, (ending written request bytes).run s labels = some t →
        (ending written request bytes).step t label = some u → t.Completes written label := by
  have hinit : s.Proceeds written := .initial h
  constructor
  · intro hterm labels t label u ht hu
    by_contra hc
    have hcut : t.Cut := Machine.run_preserves (fun s label t hs ht => hs.step ht) hinit.toCut ht
    have hone : (ending written request bytes).run t [label] = some u := by
      rw [Machine.run_cons, hu]
      rfl
    exact not_terminates (M := ending written request bytes) (fun _ => rfl) hcut hc hu
      ((hterm.of_run ht).of_run hone)
  · intro hc
    have hstep : ∀ t label u, (t.Proceeds written ∧ ∃ labels, (ending written request bytes).run s labels = some t) →
        (ending written request bytes).step t label = some u →
        (u.Proceeds written ∧ ∃ labels, (ending written request bytes).run s labels = some u) ∧
          u.stepsLeft ≤ t.stepsLeft ∧ (label.ofReceiver = true → u.stepsLeft < t.stepsLeft) := by
      rintro t label u ⟨ht, labels, hrun⟩ hu
      obtain ⟨hproceeds, hfalls⟩ := ht.step (hc labels t label u hrun hu) hu
      refine ⟨⟨hproceeds, labels ++ [label], ?_⟩, hfalls⟩
      rw [Machine.run_append, hrun, Option.bind_some, Machine.run_cons, hu]
      rfl
    constructor
    · refine ⟨s.stepsLeft, ?_⟩
      intro labels t ht
      have hcount := Machine.run_countP_le hstep ⟨hinit, [], rfl⟩ ht
      omega
    · intro labels t ht
      have hproceeds := Machine.run_preserves (fun t label u ht hu => (hstep t label u ht hu).1)
        ⟨hinit, [], rfl⟩ ht
      exact hproceeds.1.goesOn

end

/-- The bridge on a connection that ends behind `bytes`. -/
def endingBridge (bytes : List UInt8) : EndingState (Fin 1) (Fin 4) (Fin 4) (Fin 2) :=
  ⟨{ beforeRequests with lost := some .endOfFile, base := { beforeRequests.base with unread := bytes } }, false⟩

theorem endingBridge_init (bytes : List UInt8) : EndingInit bytes (endingBridge bytes) :=
  ⟨beforeRequests, beforeRequests_init, rfl⟩

/-! ## A stream that ends inside a payload -/

/-- The three services of the constructor, on a connection that ends behind `bytes`; the
application has no thread that closes one. -/
def quietBridge (bytes : List UInt8) : EndingState (Fin 0) (Fin 3) (Fin 3) (Fin 2) where
  threads :=
    { base :=
        { activeServices := fun i =>
            if i.val = 0 then some 0 else if i.val = 1 then some 1 else if i.val = 2 then some 2 else none
          kind := ![.portStatus, .serviceSpawner, .keepalive]
          port := some
          ports := fun x => ⟨BitVec.ofNat 16 x, ByteBuffer.allocate 4, true, true⟩
          statusPort := 0
          spawner := ⟨List.replicate 8 0, 0, 0, []⟩
          app := fun _ => .idle
          receiver := .header []
          unread := bytes
          sent := []
          iterations := 0 }
      spawnerPort := 1
      lost := some .endOfFile
      portRequest := ByteBuffer.allocate 4000
      call := fun _ => .outside
      queue := []
      outgoing := []
      come := 0
      answers := 0
      failures := 0 }
  closed := false

theorem quietBridge_init (bytes : List UInt8) : EndingInit bytes (quietBridge bytes) := by
  refine ⟨{ (quietBridge []).threads with lost := none }, ⟨?_, rfl, rfl, rfl, fun _ => rfl, rfl, rfl, rfl, rfl, rfl⟩, rfl⟩
  constructor
  · intro i service hi
    simp only [quietBridge] at hi
    split at hi
    · cases hi
      simp [quietBridge, *]
    · split at hi
      · cases hi
        simp [quietBridge, *]
      · split at hi <;> cases hi
        simp [quietBridge, *]
  · exact fun _ => ⟨rfl, rfl⟩
  · exact fun _ => rfl
  all_goals rfl

/-- Pongs and frames that no service listens to, and then a part of a frame of `PortStatus`. -/
inductive EndsInFrame : List UInt8 → Prop
  | header {bytes : List UInt8} (length : bytes.length < 4) : EndsInFrame bytes
  | status {payload : List UInt8} (length : payload.length < 4) : EndsInFrame (0 :: 0 :: 4 :: 0 :: payload)
  | frame {p0 p1 l0 l1 : UInt8} {payload rest : List UInt8} {i : Slot}
      (port : slot? (getShort p0 p1).toInt = some i) (behind : 2 ≤ i.val)
      (length : (getShort l0 l1).toInt = payload.length) (others : EndsInFrame rest) :
      EndsInFrame (p0 :: p1 :: l0 :: l1 :: (payload ++ rest))

/-- What is left of a payload, and the frames behind it. -/
private def Payload (left : Int) (unread : List UInt8) : Prop :=
  ∃ payload rest, left = List.length payload ∧ unread = payload ++ rest ∧ EndsInFrame rest

/-- Where the receiver is on such a stream. -/
private def OnTheWay (s : ReceivingState (Fin 0) (Fin 3) (Fin 3)) : Prop :=
  match s.receiver with
  | .header bytes => bytes.length < 4 ∧ EndsInFrame (bytes ++ s.unread)
  | .lookup port dataLength => ∃ p0 p1 l0 l1, port = getShort p0 p1 ∧ dataLength = getShort l0 l1 ∧
      EndsInFrame (p0 :: p1 :: l0 :: l1 :: s.unread)
  | .skip left | .skipRead left => Payload left s.unread
  | .test service dataLength => service = 0 ∧ dataLength = 4 ∧ s.unread.length < 4 ∨
      service = 2 ∧ Payload dataLength.toInt s.unread
  | .readAll service bytes remaining => service = 0 ∧ bytes.length + s.unread.length < 4 ∧
      bytes.length + remaining = 4
  | .stopped => True
  | _ => False

/-- The services of the constructor, and nobody has closed one. -/
private structure Quiet (s : ReceivingState (Fin 0) (Fin 3) (Fin 3)) : Prop where
  activeServices : s.activeServices = (quietBridge []).threads.base.activeServices
  kind : s.kind = ![.portStatus, .serviceSpawner, .keepalive]
  port : s.port = some
  inputOpen : ∀ x, (s.ports x).inputOpen = true
  place : OnTheWay s

private theorem onTheWay_next {s : ReceivingState (Fin 0) (Fin 3) (Fin 3)} (h : EndsInFrame s.unread) :
    OnTheWay s.next := ⟨Nat.zero_lt_succ 3, h⟩

/-- Bytes of a payload that are read or skipped. -/
private theorem Payload.read {left : Int} {s : ReceivingState (Fin 0) (Fin 3) (Fin 3)} {n requested : Nat}
    {r : List UInt8 × ReceivingState (Fin 0) (Fin 3) (Fin 3)} (h : Payload left s.unread)
    (hr : s.read n requested = some r) (hrequested : requested ≤ left) : Payload (left - n) r.2.unread := by
  obtain ⟨payload, rest, rfl, hunread, hrest⟩ := h
  obtain ⟨-, hn, hlen, hsplit, -⟩ := ReceivingState.read_spec hr
  have hle : n ≤ payload.length := by omega
  rw [hunread] at hsplit
  have htaken : r.1 = payload.take n := by
    rw [← List.take_append_of_le_length hle, hsplit, ← hlen, List.take_left]
  have hleft : r.2.unread = payload.drop n ++ rest := by
    rw [← List.drop_append_of_le_length hle, hsplit, ← hlen, List.drop_left]
  refine ⟨payload.drop n, rest, ?_, hleft, hrest⟩
  rw [List.length_drop]
  omega

private theorem Payload.done {left : Int} {unread : List UInt8} (h : Payload left unread) (hleft : ¬left > 0) :
    EndsInFrame unread := by
  obtain ⟨payload, rest, rfl, rfl, hrest⟩ := h
  have hnil : payload = [] := List.length_eq_zero_iff.mp (by omega)
  rw [hnil]
  exact hrest

/-- The header of a frame is looked up. -/
private theorem EndsInFrame.looked {p0 p1 l0 l1 : UInt8} {unread : List UInt8} {i : Slot}
    (h : EndsInFrame (p0 :: p1 :: l0 :: l1 :: unread)) (hi : slot? (getShort p0 p1).toInt = some i) :
    i.val = 0 ∧ getShort l0 l1 = 4 ∧ unread.length < 4 ∨ 2 ≤ i.val ∧ Payload (getShort l0 l1).toInt unread := by
  cases h with
  | header length =>
      simp only [List.length_cons] at length
      omega
  | status length =>
      left
      refine ⟨?_, rfl, length⟩
      rw [← Option.some.inj hi]
      rfl
  | frame port behind length others =>
      right
      rw [port] at hi
      cases hi
      exact ⟨behind, _, _, length, rfl, others⟩

private theorem Quiet.receive {s t : ReceivingState (Fin 0) (Fin 3) (Fin 3)} {n : Nat} (h : Quiet s)
    (hs : s.receive n = some t) : Quiet t := by
  have hplace := h.place
  have hread : ∀ {requested : Nat} {r : List UInt8 × ReceivingState (Fin 0) (Fin 3) (Fin 3)}
      {pc : ReceiverThreadPc (Fin 3)}, s.read n requested = some r → OnTheWay (r.2.enter pc) →
      Quiet (r.2.enter pc) := by
    intro requested r pc hr hpc
    obtain ⟨-, -, -, -, hsame⟩ := ReceivingState.read_spec hr
    rw [hsame] at hpc ⊢
    exact ⟨h.activeServices, h.kind, h.port, h.inputOpen, hpc⟩
  have henter : ∀ {pc : ReceiverThreadPc (Fin 3)}, OnTheWay (s.enter pc) → Quiet (s.enter pc) :=
    fun hpc => ⟨h.activeServices, h.kind, h.port, h.inputOpen, hpc⟩
  have hnext : EndsInFrame s.unread → Quiet s.next :=
    fun hunread => ⟨h.activeServices, h.kind, h.port, h.inputOpen, onTheWay_next hunread⟩
  unfold OnTheWay at hplace
  unfold ReceivingState.receive at hs
  cases hpc : s.receiver with
  | header bytes =>
      simp only [hpc] at hplace hs
      obtain ⟨r, hr, rfl⟩ := Option.map_eq_some_iff.mp hs
      obtain ⟨-, hle, hlen, hsplit, -⟩ := ReceivingState.read_spec hr
      have hunread : EndsInFrame (bytes ++ r.1 ++ r.2.unread) := by
        rw [List.append_assoc, ← hsplit]
        exact hplace.2
      split
      · next p0 p1 l0 l1 hbytes =>
        rw [hbytes] at hunread
        exact hread hr ⟨p0, p1, l0, l1, rfl, rfl, hunread⟩
      · next hother =>
        refine hread hr ⟨?_, hunread⟩
        apply lt_of_le_of_ne
        · rw [List.length_append]
          omega
        · intro hfour
          obtain ⟨p0, p1, l0, l1, hbytes⟩ := List.length_eq_four.mp hfour
          exact hother p0 p1 l0 l1 hbytes
  | lookup port dataLength =>
      simp only [hpc] at hplace hs
      obtain ⟨p0, p1, l0, l1, rfl, rfl, hframes⟩ := hplace
      split at hs
      · cases hs
        exact henter trivial
      · next i hi =>
        obtain ⟨hzero, hlength, hshort⟩ | ⟨hbehind, hpayload⟩ := hframes.looked hi
        · rw [h.activeServices] at hs
          simp only [quietBridge, hzero, if_true] at hs
          cases hs
          exact henter (.inl ⟨rfl, hlength, hshort⟩)
        · rw [h.activeServices] at hs
          simp only [quietBridge, show ¬i.val = 0 by omega, show ¬i.val = 1 by omega, if_false] at hs
          by_cases htwo : i.val = 2
          · rw [if_pos htwo] at hs
            cases hs
            exact henter (.inr ⟨rfl, hpayload⟩)
          · rw [if_neg htwo] at hs
            cases hs
            exact henter hpayload
  | skip left =>
      simp only [hpc] at hplace hs
      split at hs
      · obtain ⟨r, hr, rfl⟩ := Option.map_eq_some_iff.mp hs
        exact hread hr (hplace.read hr (by omega))
      · next hleft =>
        cases hs
        exact hnext (hplace.done hleft)
  | test service dataLength =>
      simp only [hpc, h.port, h.inputOpen, if_true] at hplace hs
      cases hs
      unfold ReceivingState.onDataReady
      rw [h.kind]
      obtain ⟨rfl, rfl, hshort⟩ | ⟨rfl, hpayload⟩ := hplace
      · exact henter ⟨rfl, (Nat.zero_add _).trans_lt hshort, rfl⟩
      · exact henter hpayload
  | readAll service bytes remaining =>
      simp only [hpc, h.port, h.inputOpen, if_true] at hplace hs
      obtain ⟨rfl, hshort, hlength⟩ := hplace
      rw [if_neg (by omega)] at hs
      obtain ⟨r, hr, rfl⟩ := Option.map_eq_some_iff.mp hs
      obtain ⟨-, hle, hlen, hsplit, -⟩ := ReceivingState.read_spec hr
      rw [hsplit, List.length_append] at hshort
      refine hread hr ⟨rfl, ?_, ?_⟩
      · show (bytes ++ r.1).length + r.2.unread.length < 4
        rw [List.length_append]
        omega
      · rw [List.length_append]
        omega
  | skipRead left =>
      simp only [hpc] at hplace hs
      split at hs
      · obtain ⟨r, hr, rfl⟩ := Option.map_eq_some_iff.mp hs
        obtain ⟨hpos, hle, -⟩ := ReceivingState.read_spec hr
        have hone : n = 1 := Nat.le_antisymm hle hpos
        subst hone
        exact hread hr (hplace.read hr (by omega))
      · next hleft =>
        cases hs
        exact hnext (hplace.done hleft)
  | stopped =>
      simp only [hpc] at hs
      cases hs
  | handle _ _ | statusTest _ _ | statusSwitch _ _ | statusCleanup _ | awaitDone =>
      simp only [hpc] at hplace

private theorem Quiet.failRead {s t : ReceivingState (Fin 0) (Fin 3) (Fin 3)} (h : Quiet s)
    (hunread : s.unread = []) (hs : s.failRead .endOfFile = some t) : Quiet t := by
  have hplace := h.place
  have henter : ∀ {pc : ReceiverThreadPc (Fin 3)}, OnTheWay (s.enter pc) → Quiet (s.enter pc) :=
    fun hpc => ⟨h.activeServices, h.kind, h.port, h.inputOpen, hpc⟩
  unfold OnTheWay at hplace
  unfold ReceivingState.failRead at hs
  cases hpc : s.receiver with
  | header bytes =>
      simp only [hpc] at hs
      cases hs
      exact henter trivial
  | skip left | skipRead left =>
      -- what is announced is there
      simp only [hpc] at hplace hs
      obtain ⟨hleft, -⟩ := Option.ite_none_right_eq_some.mp hs
      obtain ⟨payload, rest, rfl, hsplit, -⟩ := hplace
      rw [hunread] at hsplit
      rw [(List.append_eq_nil_iff.mp hsplit.symm).1] at hleft
      exact absurd hleft (by decide)
  | readAll service bytes remaining =>
      simp only [hpc] at hplace hs
      obtain ⟨rfl, hshort, hlength⟩ := hplace
      obtain ⟨-, hs⟩ := Option.ite_none_left_eq_some.mp hs
      have hkeep : s.keepBytes 0 bytes = s := by
        unfold ReceivingState.keepBytes
        rw [h.kind]
        rfl
      split at hs
      · cases hs
        refine ⟨h.activeServices, h.kind, h.port, h.inputOpen, onTheWay_next ?_⟩
        rw [hunread]
        exact .header (by decide)
      · next hbytes =>
        cases hs
        rw [hkeep]
        have hpos := List.length_pos_of_ne_nil hbytes
        refine henter ⟨rfl, ?_, ?_⟩
        · show bytes.dropLast.length + s.unread.length < 4
          rw [List.length_dropLast]
          omega
        · rw [List.length_dropLast]
          omega
  | _ =>
      simp only [hpc] at hs
      cases hs

/-- Calls of `requestService` leave the services as they are. -/
private theorem Quiet.aside {s t : RequestingState (Fin 0) (Fin 3) (Fin 3) (Fin 2)}
    {request : Fin 2 → ServiceRequest} {label : RequestingLabel (Fin 0) (Fin 3) (Fin 3) (Fin 2)}
    (h : Quiet s.base) (hreceive : ∀ n, label ≠ .base (.receive n)) (hfail : label ≠ .fail)
    (hlost : s.lost = some .endOfFile) (hs : s.step request label = some t) : Quiet t.base := by
  have hport : ∀ service, s.base.port service ≠ none := by
    intro service
    rw [h.port]
    exact Option.some_ne_none service
  have hsame : ∀ {base : ReceivingState (Fin 0) (Fin 3) (Fin 3)} {spawner : SpawnerFields},
      base = { s.base with spawner } → Quiet base := by
    rintro base spawner rfl
    exact ⟨h.activeServices, h.kind, h.port, h.inputOpen, h.place⟩
  cases label with
  | base label =>
      cases label with
      | receive n => exact absurd rfl (hreceive n)
      | arrive msg =>
          change (if s.lost = none then _ else none) = some t at hs
          rw [hlost] at hs
          cases hs
      | takeResponse => cases hs
      | startClose tid x | startEof tid x | run tid => exact tid.elim0
      | register i service =>
          obtain ⟨base, hbase, -⟩ := Option.map_eq_some_iff.mp hs
          obtain ⟨⟨-, hnew⟩, -⟩ := Option.ite_none_right_eq_some.mp hbase
          exact absurd hnew (hport service)
      | assignPort service x =>
          obtain ⟨base, hbase, -⟩ := Option.map_eq_some_iff.mp hs
          obtain ⟨hnew, -⟩ := Option.ite_none_right_eq_some.mp hbase
          exact absurd hnew (hport service)
  | fail => exact absurd rfl hfail
  | lose loss kept =>
      change s.lose loss kept = some t at hs
      rw [RequestingState.lose, hlost] at hs
      cases hs
  | acquire c =>
      obtain ⟨-, hs⟩ := Option.ite_none_right_eq_some.mp hs
      cases hs
      exact hsame rfl
  | write c =>
      simp only [RequestingState.step] at hs
      split at hs
      · obtain ⟨-, hs⟩ := Option.ite_none_left_eq_some.mp hs
        cases hs
        unfold RequestingState.write
        split <;> exact h
      · cases hs
  | writeThrows c =>
      simp only [RequestingState.step] at hs
      split at hs
      · obtain ⟨-, hs⟩ := Option.ite_none_right_eq_some.mp hs
        cases hs
        exact h
      · cases hs
  | fill c | wait c =>
      simp only [RequestingState.step] at hs
      split at hs <;> cases hs
      exact h
  | poll c | release c =>
      simp only [RequestingState.step] at hs
      split at hs <;> cases hs
      exact hsame rfl

private theorem Quiet.step {s t : EndingState (Fin 0) (Fin 3) (Fin 3) (Fin 2)}
    {written : Nat → List UInt8 → Nat → Bool} {request : Fin 2 → ServiceRequest}
    {label : EndingLabel (Fin 0) (Fin 3) (Fin 3) (Fin 2)} (h : Quiet s.threads.base) (hcut : s.Cut)
    (hs : s.step written request label = some t) : Quiet t.threads.base := by
  cases label with
  | close =>
      obtain ⟨-, -, rfl⟩ := EndingState.step_close hs
      exact h
  | thread label =>
      by_cases hreceive : ∃ n, label = .base (.receive n)
      · obtain ⟨n, rfl⟩ := hreceive
        exact h.receive (EndingState.step_receive hs).2.2.1
      · by_cases hfail : label = .fail
        · subst hfail
          obtain ⟨hunread, -, hbase, -⟩ := EndingState.step_fail hs hcut.lost
          exact h.failRead hunread hbase
        · exact h.aside (fun n hn => hreceive ⟨n, hn⟩) hfail hcut.lost (EndingState.step_thread hs).2.2

private theorem Quiet.completes {s : ReceivingState (Fin 0) (Fin 3) (Fin 3)} (h : Quiet s)
    (written : Nat → List UInt8 → Nat → Bool) (gives : Prop) : s.Completes written gives := by
  have hplace := h.place
  unfold OnTheWay at hplace
  unfold ReceivingState.Completes
  cases hpc : s.receiver with
  | lookup port dataLength =>
      simp only [hpc] at hplace
      obtain ⟨p0, p1, l0, l1, rfl, rfl, hframes⟩ := hplace
      intro i hi hnone
      obtain ⟨hzero, -⟩ | ⟨-, payload, rest, hlength, hunread, -⟩ := hframes.looked hi
      · rw [h.activeServices] at hnone
        simp only [quietBridge, hzero, if_true] at hnone
        cases hnone
      · rw [hlength, hunread, List.length_append]
        omega
  | readAll service bytes remaining =>
      simp only [hpc] at hplace
      intro hzero
      omega
  | handle _ _ => simp only [hpc] at hplace
  | _ => trivial

/-- A pong with one byte, a frame that is skipped, and a status frame without its last byte. -/
private def cutOff : List UInt8 := [2, 0, 1, 0, 7, 9, 0, 2, 0, 5, 6, 0, 0, 4, 0, 3, 0, 3]

private theorem cutOff_ends : EndsInFrame cutOff := by
  have hstatus : EndsInFrame [0, 0, 4, 0, 3, 0, 3] := .status (by decide)
  have hskipped : EndsInFrame [9, 0, 2, 0, 5, 6, 0, 0, 4, 0, 3, 0, 3] :=
    @EndsInFrame.frame 9 0 2 0 [5, 6] _ ⟨9, by decide⟩ rfl (by decide) rfl hstatus
  exact @EndsInFrame.frame 2 0 1 0 [7] _ ⟨2, by decide⟩ rfl (by decide) rfl hskipped

/-- The pong is read, the frame skipped, and the end noticed inside the payload. -/
theorem stream_end_noticed_cutOff : EndingState.Terminates
    (ending (fun _ _ _ => true) methodsRequest cutOff) (quietBridge cutOff) := by
  apply (stream_end_noticed_iff _ _ _ _ (quietBridge_init cutOff)).mpr
  intro labels t label u ht hu
  have hquiet : Quiet (quietBridge cutOff).threads.base :=
    ⟨rfl, rfl, rfl, fun _ => rfl, Nat.zero_lt_succ 3, cutOff_ends⟩
  have hidle : t.Cut ∧ Quiet t.threads.base := by
    apply Machine.run_preserves (P := fun t => t.Cut ∧ Quiet t.threads.base) _ ⟨⟨rfl, Bool.noConfusion⟩, hquiet⟩ ht
    intro s label t hs ht
    exact ⟨hs.1.step ht, hs.2.step hs.1 ht⟩
  unfold EndingState.Completes
  split
  · exact hidle.2.completes _ _
  · trivial

/-- The payload for a port without a service does not come: the skip goes round. -/
theorem skip_goes_round : EndingInit [3, 0, 1, 0] (endingBridge [3, 0, 1, 0]) ∧
    ¬EndingState.Terminates (ending (fun _ _ _ => true) methodsRequest [3, 0, 1, 0])
      (endingBridge [3, 0, 1, 0]) := by
  refine ⟨endingBridge_init _, ?_⟩
  intro hterm
  have hskip : ∃ t, (ending (fun _ _ _ => true) methodsRequest [3, 0, 1, 0]).run (endingBridge [3, 0, 1, 0])
      [.thread (.base (.receive 4)), .thread (.base (.receive 0))] = some t ∧
      t.threads.base.receiver = .skip 1 ∧ t.threads.base.unread = [] ∧ t.Cut :=
    ⟨_, rfl, rfl, rfl, rfl, nofun⟩
  obtain ⟨t, ht, hpc, hunread, hcut⟩ := hskip
  obtain ⟨bound, hbound⟩ := (hterm.of_run ht).finite
  obtain ⟨labels, u, hrun, hcount⟩ := EndingState.skip_runs (M := ending _ _ _) (fun _ => rfl) hcut hpc
    (by rw [hunread]; exact Int.one_pos) (bound + 1)
  have hmost := hbound labels u hrun
  omega

end AapBridge.Android
