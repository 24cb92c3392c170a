import AapBridge.Accessory.MessageQueue

/-! # First in, first out over every interleaving

The two semaphores and the entry counter are tied by the threads that hold a
permit but have not used it: a place taken from `space_sem` is free, on its way
in (`spaceToken`), filled, or on its way back. So a thread in the critical
section of `add` sees at most 63 entries and one in that of `poll` at least one,
which rules out the drop branch and keeps both indices inside `queue[]`.
-/

namespace AapBridge.Accessory

open AapBridge.Lib

/-- A place that is neither counted by `space_sem` nor filled. -/
def QueuePc.spaceToken : QueuePc → Bool
  | .addLock _ | .addBody _ | .pollPost _ => true
  | _ => false

/-- An entry that `message_sem` does not count, or no longer counts. -/
def QueuePc.messageToken : QueuePc → Bool
  | .pollLock | .pollBody | .addPost => true
  | _ => false

section Order

variable {Tid : Type*}

/-- The entries added and not yet polled, as they lie in `queue[]`. -/
def QueueState.waiting (s : QueueState Tid) : List (Option MultiplexedMessage) :=
  ringContents s.vars.queue s.vars.readPosition.toNat s.vars.messages.toNat

variable [Fintype Tid]

structure QueueInv (s : QueueState Tid) : Prop where
  fifo : s.added = s.polled ++ s.waiting
  messages_nonneg : 0 ≤ s.vars.messages
  read_range : 0 ≤ s.vars.readPosition ∧ s.vars.readPosition ≤ messagequeMax
  write_range : 0 ≤ s.vars.writePosition ∧ s.vars.writePosition ≤ messagequeMax
  meet : (s.vars.readPosition + s.vars.messages - s.vars.writePosition) % messagequeMax = 0
  space : s.spaceSem + population QueuePc.spaceToken s.pc + s.vars.messages = messagequeMax
  message : s.messageSem + population QueuePc.messageToken s.pc = s.vars.messages
  drops : s.drops = []
  faulted : s.faulted = false

namespace QueueInv

variable {s : QueueState Tid}

theorem messages_le (h : QueueInv s) : s.vars.messages ≤ messagequeMax := by
  have hspace := h.space
  omega

theorem waiting_length (h : QueueInv s) : (s.waiting.length : Int) = s.vars.messages := by
  simp only [QueueState.waiting, ringContents_length]
  exact Int.toNat_of_nonneg h.messages_nonneg

theorem initial [DecidableEq Tid] (h : QueueInit s) : QueueInv s := by
  have hpc : s.pc = fun _ => .idle := funext h.pc
  constructor
  · simp [h.added, h.polled, QueueState.waiting, h.messages, ringContents_zero]
  · simp [h.messages]
  · simp [h.readPosition]
  · simp [h.writePosition]
  · simp [h.readPosition, h.messages, h.writePosition]
  · rw [hpc, population_const rfl, h.messages, h.spaceSem]
    rfl
  · rw [hpc, population_const rfl, h.messages, h.messageSem]
    rfl
  · exact h.drops
  · exact h.faulted

theorem wrap_range {p : Int} (h : 0 ≤ p ∧ p ≤ messagequeMax) :
    0 ≤ wrapPosition p ∧ wrapPosition p < messagequeMax := by
  have hmax : (messagequeMax : Int) = 64 := rfl
  unfold wrapPosition
  split <;> omega

theorem wrap_mod {p : Int} (h : 0 ≤ p ∧ p ≤ messagequeMax) :
    (wrapPosition p).toNat = p.toNat % 64 := by
  have hmax : (messagequeMax : Int) = 64 := rfl
  unfold wrapPosition
  split <;> omega

theorem slotOf_wrap {p : Int} (h : 0 ≤ p ∧ p ≤ messagequeMax) :
    slotOf (wrapPosition p) = some (Fin.ofNat _ (wrapPosition p).toNat) :=
  if_pos (wrap_range h)

/-- A thread that got a place from `space_sem` finds a free slot. -/
theorem addSection_stored (h : QueueInv s) {t : Tid} {message : Option MultiplexedMessage}
    (hpc : s.pc t = .addBody message) (dropText : Int → String) :
    addSection dropText s.vars message = some (.stored { s.vars with
      queue := Function.update s.vars.queue
        (Fin.ofNat _ (wrapPosition s.vars.writePosition).toNat) message
      writePosition := wrapPosition s.vars.writePosition + 1
      messages := s.vars.messages + 1 }) := by
  have hpos : 0 < population QueuePc.spaceToken s.pc := population_pos (i := t) (by rw [hpc]; rfl)
  have hspace := h.space
  have hfree : s.vars.messages ≠ messagequeMax := by omega
  simp only [addSection, if_neg hfree, slotOf_wrap h.write_range, Option.map_some]

/-- A thread that got an entry from `message_sem` reads the oldest one. -/
theorem pollSection_oldest (h : QueueInv s) :
    pollSection s.vars = some (s.vars.queue
        (Fin.ofNat _ (wrapPosition s.vars.readPosition).toNat),
      { s.vars with
        readPosition := wrapPosition s.vars.readPosition + 1
        messages := s.vars.messages - 1 }) := by
  simp only [pollSection, slotOf_wrap h.read_range, Option.map_some]

section Steps

variable [DecidableEq Tid]

/-- A step that leaves `queue[]` and the logs alone keeps the invariant when it
moves a permit between a semaphore and the thread, or moves none. -/
theorem move (h : QueueInv s) {t : Tid} {old new : QueuePc} (hpc : s.pc t = old)
    {messageSem spaceSem : Nat} {lock : Option Tid}
    (hspace : spaceSem + new.spaceToken.toNat = s.spaceSem + old.spaceToken.toNat)
    (hmessage : messageSem + new.messageToken.toNat = s.messageSem + old.messageToken.toNat) :
    QueueInv ({ s with messageSem, spaceSem, lock }.at t new) := by
  have hs := population_update QueuePc.spaceToken s.pc t new
  have hm := population_update QueuePc.messageToken s.pc t new
  rw [hpc] at hs hm
  refine ⟨h.fifo, h.messages_nonneg, h.read_range, h.write_range, h.meet, ?_, ?_, h.drops,
    h.faulted⟩
  · have hsum := h.space
    simp only [QueueState.at]
    omega
  · have hsum := h.message
    simp only [QueueState.at]
    omega

theorem add (h : QueueInv s) {t : Tid} {message : Option MultiplexedMessage}
    (hpc : s.pc t = .addBody message) :
    QueueInv ({ s with
      vars := { s.vars with
        queue := Function.update s.vars.queue
          (Fin.ofNat _ (wrapPosition s.vars.writePosition).toNat) message
        writePosition := wrapPosition s.vars.writePosition + 1
        messages := s.vars.messages + 1 }
      added := s.added ++ [message] }.at t .addPost) := by
  have hs := population_update QueuePc.spaceToken s.pc t .addPost
  have hm := population_update QueuePc.messageToken s.pc t .addPost
  rw [hpc] at hs hm
  simp only [QueuePc.spaceToken, QueuePc.messageToken, Bool.toNat_true, Bool.toNat_false] at hs hm
  have hnonneg := h.messages_nonneg
  have hread := h.read_range
  have hwrite := h.write_range
  have hmeet : (s.vars.readPosition + s.vars.messages - s.vars.writePosition) % 64 = 0 := h.meet
  have hspace := h.space
  have hmessage := h.message
  have hmax : (messagequeMax : Int) = 64 := rfl
  have hwrap := wrap_range hwrite
  have hmod := wrap_mod hwrite
  refine ⟨?_, ?_, hread, ?_, ?_, ?_, ?_, h.drops, h.faulted⟩
  · -- the slot written is the one just behind the waiting entries
    have hslot : Fin.ofNat messagequeMax (wrapPosition s.vars.writePosition).toNat =
        Fin.ofNat messagequeMax (s.vars.readPosition.toNat + s.vars.messages.toNat) := by
      refine Fin.ext ?_
      change _ % 64 = _ % 64
      omega
    have hlen : (s.vars.messages + 1).toNat = s.vars.messages.toNat + 1 := by omega
    simp only [QueueState.at, QueueState.waiting]
    rw [hslot, hlen, ringContents_push _ _ _ _ (by omega), h.fifo]
    simp [QueueState.waiting]
  · simp only [QueueState.at]
    omega
  · simp only [QueueState.at]
    omega
  · change (_ : Int) % 64 = 0
    simp only [QueueState.at]
    omega
  · simp only [QueueState.at]
    omega
  · simp only [QueueState.at]
    omega

theorem poll (h : QueueInv s) {t : Tid} (hpc : s.pc t = .pollBody) :
    QueueInv ({ s with
      vars := { s.vars with
        readPosition := wrapPosition s.vars.readPosition + 1
        messages := s.vars.messages - 1 }
      polled := s.polled ++ [s.vars.queue
        (Fin.ofNat _ (wrapPosition s.vars.readPosition).toNat)] }.at t
      (.pollPost (s.vars.queue (Fin.ofNat _ (wrapPosition s.vars.readPosition).toNat)))) := by
  have hs := population_update QueuePc.spaceToken s.pc t
    (.pollPost (s.vars.queue (Fin.ofNat _ (wrapPosition s.vars.readPosition).toNat)))
  have hm := population_update QueuePc.messageToken s.pc t
    (.pollPost (s.vars.queue (Fin.ofNat _ (wrapPosition s.vars.readPosition).toNat)))
  have hpos : 0 < population QueuePc.messageToken s.pc :=
    population_pos (i := t) (by rw [hpc]; rfl)
  rw [hpc] at hs hm
  simp only [QueuePc.spaceToken, QueuePc.messageToken, Bool.toNat_true, Bool.toNat_false] at hs hm
  have hnonneg := h.messages_nonneg
  have hread := h.read_range
  have hmeet : (s.vars.readPosition + s.vars.messages - s.vars.writePosition) % 64 = 0 := h.meet
  have hspace := h.space
  have hmessage := h.message
  have hmax : (messagequeMax : Int) = 64 := rfl
  have hwrap := wrap_range hread
  have hmod := wrap_mod hread
  refine ⟨?_, ?_, ?_, h.write_range, ?_, ?_, ?_, h.drops, h.faulted⟩
  · have hlen : s.vars.messages.toNat = (s.vars.messages - 1).toNat + 1 := by omega
    have hslot : Fin.ofNat messagequeMax s.vars.readPosition.toNat =
        Fin.ofNat messagequeMax (wrapPosition s.vars.readPosition).toNat := by
      refine Fin.ext ?_
      change _ % 64 = _ % 64
      omega
    have hnext : (s.vars.readPosition.toNat + 1) % messagequeMax =
        (wrapPosition s.vars.readPosition + 1).toNat % messagequeMax := by
      change _ % 64 = _ % 64
      omega
    have hfifo := h.fifo
    simp only [QueueState.waiting] at hfifo
    rw [hlen, ringContents_pop, hslot, ringContents_congr hnext] at hfifo
    simp only [QueueState.at, QueueState.waiting]
    rw [hfifo]
    simp
  · simp only [QueueState.at]
    omega
  · simp only [QueueState.at]
    omega
  · change (_ : Int) % 64 = 0
    simp only [QueueState.at]
    omega
  · simp only [QueueState.at]
    omega
  · simp only [QueueState.at]
    omega

theorem thread (h : QueueInv s) {dropText : Int → String} {t : Tid} {s' : QueueState Tid}
    (hstep : threadStep dropText s t = some s') : QueueInv s' := by
  unfold threadStep at hstep
  cases hpc : s.pc t with
  | idle => simp [hpc] at hstep
  | addWait message =>
      simp only [hpc] at hstep
      split at hstep
      · cases hstep
        exact h.move hpc (by simp [QueuePc.spaceToken]; omega) (by simp [QueuePc.messageToken])
      · cases hstep
  | addLock message =>
      simp only [hpc] at hstep
      split at hstep
      · cases hstep
        exact h.move hpc rfl rfl
      · cases hstep
  | addBody message =>
      simp only [hpc, h.addSection_stored hpc dropText] at hstep
      cases hstep
      exact h.add hpc
  | addPost =>
      simp only [hpc] at hstep
      cases hstep
      exact h.move hpc rfl rfl
  | addUnlock =>
      simp only [hpc] at hstep
      cases hstep
      exact h.move hpc rfl rfl
  | pollWait =>
      simp only [hpc] at hstep
      split at hstep
      · cases hstep
        exact h.move hpc (by simp [QueuePc.spaceToken]) (by simp [QueuePc.messageToken]; omega)
      · cases hstep
  | pollLock =>
      simp only [hpc] at hstep
      split at hstep
      · cases hstep
        exact h.move hpc rfl rfl
      · cases hstep
  | pollBody =>
      simp only [hpc, h.pollSection_oldest] at hstep
      cases hstep
      exact h.poll hpc
  | pollPost retval =>
      simp only [hpc] at hstep
      cases hstep
      exact h.move hpc rfl rfl
  | pollUnlock retval =>
      simp only [hpc] at hstep
      cases hstep
      exact h.move hpc rfl rfl

theorem step (h : QueueInv s) {dropText : Int → String} {a : QueueLabel Tid}
    {s' : QueueState Tid} (hstep : queueStep dropText s a = some s') : QueueInv s' := by
  cases a with
  | callAdd t message =>
      simp only [queueStep] at hstep
      split at hstep
      · next hpc =>
        cases hstep
        exact h.move hpc rfl rfl
      · cases hstep
  | callPoll t =>
      simp only [queueStep] at hstep
      split at hstep
      · next hpc =>
        cases hstep
        exact h.move hpc rfl rfl
      · cases hstep
  | run t => exact h.thread hstep

theorem reachable {dropText : Int → String} (h : (messageQueue dropText).Reachable s) :
    QueueInv s :=
  h.invariant (fun _ => initial) fun _ _ _ hs hstep => hs.step hstep

end Steps

end QueueInv

/-- Both queues, any finite set of threads, any interleaving: what was polled is
a prefix of what was added, `messages` counts the rest, the indices stay inside
`queue[]` and no message is dropped. -/
theorem queues_first_in_first_out [DecidableEq Tid] (s : QueueState Tid)
    (h : sendQueue.Reachable s ∨ receiveQueue.Reachable s) :
    (∃ waiting, s.added = s.polled ++ waiting ∧ s.vars.messages = waiting.length) ∧
      0 ≤ s.vars.messages ∧ s.vars.messages ≤ 64 ∧
      (0 ≤ wrapPosition s.vars.writePosition ∧ wrapPosition s.vars.writePosition < 64) ∧
      (0 ≤ wrapPosition s.vars.readPosition ∧ wrapPosition s.vars.readPosition < 64) ∧
      s.drops = [] ∧ s.faulted = false := by
  have hinv : QueueInv s := h.elim .reachable .reachable
  exact ⟨⟨s.waiting, hinv.fifo, hinv.waiting_length.symm⟩, hinv.messages_nonneg,
    hinv.messages_le, QueueInv.wrap_range hinv.write_range, QueueInv.wrap_range hinv.read_range,
    hinv.drops, hinv.faulted⟩

end Order

private def freshQueue : QueueState (Fin 2) where
  vars := ⟨fun _ => none, 0, 0, 0⟩
  messageSem := 0
  spaceSem := messagequeMax
  lock := none
  pc := fun _ => .idle
  added := []
  polled := []
  drops := []
  faulted := false

private def crossingRun : List (QueueLabel (Fin 2)) :=
  [.callPoll 1, .callAdd 0 (some ⟨5, 1, [9]⟩), .run 0, .run 0, .run 0, .run 0, .run 1, .run 0,
    .callAdd 0 none, .run 0, .run 1, .run 1, .run 1, .run 1, .run 0, .run 0, .run 0, .run 0,
    .callPoll 1, .callAdd 0 (some ⟨6, 0, []⟩), .run 0, .run 0, .run 0, .run 1, .run 0, .run 0,
    .run 1, .run 1]

/-- A consumer that passes `sem_wait` while the producer still holds the lock. -/
theorem queues_first_in_first_out_crossing :
    ∃ s : QueueState (Fin 2), sendQueue.Reachable s ∧ s.polled = [some ⟨5, 1, [9]⟩, none] ∧
      s.vars.messages = 1 ∧
      ∃ waiting, s.added = s.polled ++ waiting ∧ s.vars.messages = waiting.length := by
  have hinit : sendQueue.init freshQueue :=
    ⟨rfl, rfl, rfl, rfl, rfl, rfl, fun _ => rfl, rfl, rfl, rfl, rfl⟩
  have hrun : (sendQueue.run freshQueue crossingRun).isSome := by decide
  exact ⟨_, .of_run hinit hrun, rfl, rfl,
    (queues_first_in_first_out _ (.inl (.of_run hinit hrun))).1⟩

end AapBridge.Accessory
