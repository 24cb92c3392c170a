import AapBridge.Accessory.SlotOwners

/-! # The send queue behind a sender that has ended

Only the sender frees places of the send queue, and nothing wakes a thread that
waits for one when it ends. From then on the calls of `addSendQueue` that have
not got a place yet must not outnumber the places left.
-/

namespace AapBridge.Accessory

open AapBridge.Lib AapBridge.Lib.HalfClose

/-- One for a thread that waits for space in `addSendQueue`. -/
def MainPc.waits : MainPc → Nat
  | .addWait _ _ _ => 1
  | _ => 0

def ServicePc.waits : ServicePc → Nat
  | .addWait _ _ => 1
  | _ => 0

theorem MainPc.waits_le_one (pc : MainPc) : pc.waits ≤ 1 := by
  unfold MainPc.waits
  split <;> omega

theorem ServicePc.waits_le_one (pc : ServicePc) : pc.waits ≤ 1 := by
  unfold ServicePc.waits
  split <;> omega

namespace ThreadsState

variable {s t : ThreadsState}

/-- How many threads wait for space. -/
def waiting (s : ThreadsState) : Nat :=
  s.main.waits + ∑ k ∈ Finset.range s.started, (s.pc k).waits

/-- The sender has ended, all places are taken, and another thread waits for one. -/
def Wedged (s : ThreadsState) : Prop :=
  s.sender = .ended ∧ s.spaceSem = 0 ∧ (s.main.waits = 1 ∨ ∃ k, (s.pc k).waits = 1)

/-- The step is the beginning of a call of `addSendQueue`. -/
def Adds (s : ThreadsState) : ThreadsLabel → Prop
  | .main =>
      match s.main with
      | .write _ _ _ _ => True
      | .resume (.deInit n) => maxPorts ≤ n
      | _ => False
  | .service k =>
      match s.pc k with
      | .write _ | .eofWrite _ => True
      | _ => False
  | _ => False

/-- The sender leaves its loop, or breaks out of it for the null message. -/
def SenderEnds (s : ThreadsState) : ThreadsLabel → Prop
  | .sender => s.sender = .loopTest ∧ s.work = false ∨ s.sender = .poll ∧ s.queue.head? = some none
  | _ => False

def adds (s : ThreadsState) : ThreadsLabel → Bool
  | .main =>
      match s.main with
      | .write _ _ _ _ => true
      | .resume (.deInit n) => decide (maxPorts ≤ n)
      | _ => false
  | .service k =>
      match s.pc k with
      | .write _ | .eofWrite _ => true
      | _ => false
  | _ => false

theorem adds_iff (s : ThreadsState) (label : ThreadsLabel) : s.adds label = true ↔ s.Adds label := by
  cases label with
  | main =>
      unfold adds Adds
      dsimp only
      split <;> simp_all
  | service k =>
      unfold adds Adds
      dsimp only
      split <;> simp_all
  | _ => exact iff_of_false Bool.false_ne_true id

instance (s : ThreadsState) (label : ThreadsLabel) : Decidable (s.Adds label) :=
  decidable_of_iff _ (adds_iff s label)

instance (s : ThreadsState) (label : ThreadsLabel) : Decidable (s.SenderEnds label) := by
  unfold SenderEnds
  split <;> infer_instance

/-- The condition: the places left are enough for those who wait when the sender
ends, and for one more at every later call of `addSendQueue`. -/
def HasRoom (s : ThreadsState) (label : ThreadsLabel) : Prop :=
  (s.SenderEnds label → s.waiting ≤ s.spaceSem) ∧
    (s.sender = .ended → s.Adds label → s.waiting < s.spaceSem)

instance (s : ThreadsState) (label : ThreadsLabel) : Decidable (s.HasRoom label) :=
  inferInstanceAs (Decidable (_ ∧ _))

/-- Everybody who waits for space will get it. -/
def Served (s : ThreadsState) : Prop := s.sender = .ended → s.waiting ≤ s.spaceSem

theorem waits_le_waiting {k : Nat} (hk : k < s.started) : (s.pc k).waits ≤ s.waiting := by
  have hle := Finset.single_le_sum (f := fun k => (s.pc k).waits) (fun _ _ => Nat.zero_le _)
    (Finset.mem_range.mpr hk)
  unfold waiting
  omega

theorem Served.not_wedged (ho : Owners s) (h : Served s) : ¬s.Wedged := by
  rintro ⟨hended, hspace, hmain | ⟨k, hk⟩⟩
  · have hle := h hended
    unfold waiting at hle
    omega
  · have hstarted : k < s.started := by
      by_contra hge
      rw [ho.fresh k (Nat.le_of_not_lt hge)] at hk
      cases hk
    have hle := h hended
    have hwaits := waits_le_waiting hstarted
    omega

/-! ## Counting -/

theorem waiting_enter (s : ThreadsState) (pc : MainPc) :
    (s.enter pc).waiting + s.main.waits = s.waiting + pc.waits := by
  show pc.waits + ∑ k ∈ Finset.range s.started, (s.pc k).waits + s.main.waits =
    s.main.waits + ∑ k ∈ Finset.range s.started, (s.pc k).waits + pc.waits
  omega

/-- One thread goes on; the others wait or not as before. -/
theorem waiting_place (s : ThreadsState) {k : Nat} (hk : k < s.started) (pc : ServicePc) :
    (s.place k pc).waiting + (s.pc k).waits = s.waiting + pc.waits := by
  have hmem := Finset.mem_range.mpr hk
  have hbefore := Finset.add_sum_erase _ (fun j => (s.pc j).waits) hmem
  have hafter := Finset.add_sum_erase _ (fun j => ((s.place k pc).pc j).waits) hmem
  have hrest : ∑ j ∈ (Finset.range s.started).erase k, ((s.place k pc).pc j).waits =
      ∑ j ∈ (Finset.range s.started).erase k, (s.pc j).waits := by
    apply Finset.sum_congr rfl
    intro j hj
    rw [place_pc_ne s (Finset.ne_of_mem_erase hj)]
  simp only [place_pc_self] at hafter
  show s.main.waits + ∑ j ∈ Finset.range s.started, ((s.place k pc).pc j).waits + (s.pc k).waits =
    s.main.waits + ∑ j ∈ Finset.range s.started, (s.pc j).waits + pc.waits
  omega

theorem waiting_create (s : ThreadsState) (i : Slot) (protocol : BridgeConnection.Protocol) :
    (s.create i protocol).waiting + s.main.waits = s.waiting := by
  have hnew : ((s.create i protocol).pc s.started).waits = 0 := by
    obtain hpc | hpc := create_pc_self s i protocol <;> rw [hpc] <;> rfl
  have hold : ∑ j ∈ Finset.range s.started, ((s.create i protocol).pc j).waits =
      ∑ j ∈ Finset.range s.started, (s.pc j).waits := by
    apply Finset.sum_congr rfl
    intro j hj
    rw [create_pc_ne s (Nat.ne_of_lt (Finset.mem_range.mp hj))]
  show 0 + ∑ j ∈ Finset.range (s.started + 1), ((s.create i protocol).pc j).waits + s.main.waits =
    s.main.waits + ∑ j ∈ Finset.range s.started, (s.pc j).waits
  rw [Finset.sum_range_succ, hnew, hold]
  omega

theorem waiting_stopWork (s : ThreadsState) (k : Nat) : (s.stopWork k).waiting = s.waiting := by
  show s.main.waits + ∑ j ∈ Finset.range s.started, ((s.stopWork k).pc j).waits = s.waiting
  simp only [stopWork_pc]
  rfl

/-! ## Steps -/

theorem MainMove.waits {label : ThreadsLabel} {pc pc' : MainPc} (hpc : s.main = pc)
    (h : MainMove s label pc pc') : pc'.waits ≤ pc.waits ∨ s.Adds label ∧ pc.waits = 0 := by
  cases h with
  | message => exact .inr ⟨by simp [Adds, hpc], rfl⟩
  | deInitEnd hn => exact .inr ⟨by simpa [Adds, hpc] using hn, rfl⟩
  | _ => exact .inl (Nat.zero_le _)

theorem ServiceMove.waits {k : Nat} {label : ThreadsLabel} {pc pc' : ServicePc}
    (hpc : s.pc k = pc) (h : ServiceMove s k label pc pc') :
    pc'.waits ≤ pc.waits ∨ s.Adds label ∧ pc.waits = 0 := by
  cases h with
  | write => exact .inr ⟨by simp [Adds, hpc], rfl⟩
  | eofWrite => exact .inr ⟨by simp [Adds, hpc], rfl⟩
  | _ => exact .inl (Nat.zero_le _)

namespace Served

/-- Main goes on, and a new call of `addSendQueue` has room. -/
theorem enter (h : Served s) {pc : MainPc}
    (hmove : pc.waits ≤ s.main.waits ∨ (s.sender = .ended → s.waiting < s.spaceSem)) :
    Served (s.enter pc) := by
  intro hended
  have hcount := waiting_enter s pc
  have hone := pc.waits_le_one
  show (s.enter pc).waiting ≤ s.spaceSem
  obtain hle | hroom := hmove
  · have hbefore := h hended
    omega
  · have hbefore := hroom hended
    omega

theorem place (h : Served s) {k : Nat} (hk : k < s.started) {pc : ServicePc}
    (hmove : pc.waits ≤ (s.pc k).waits ∨ (s.sender = .ended → s.waiting < s.spaceSem)) :
    Served (s.place k pc) := by
  intro hended
  have hcount := waiting_place s hk pc
  have hone := pc.waits_le_one
  show (s.place k pc).waiting ≤ s.spaceSem
  obtain hle | hroom := hmove
  · have hbefore := h hended
    omega
  · have hbefore := hroom hended
    omega

/-- A thread gets the place it has waited for. -/
theorem serviceWait (h : Served s) {k : Nat} (hk : k < s.started) {msg : MultiplexedMessage}
    {next : ServiceNext} (hpc : s.pc k = .addWait msg next) :
    Served ({ s with spaceSem := s.spaceSem - 1 }.place k (.addStore msg next)) := by
  intro hended
  have hbefore := h hended
  have hcount := waiting_place s hk (.addStore msg next)
  rw [hpc] at hcount
  change _ + 1 = _ + 0 at hcount
  show (s.place k (.addStore msg next)).waiting ≤ s.spaceSem - 1
  omega

theorem mainWait (h : Served s) {msg : Option MultiplexedMessage} {origin : Origin} {next : Next}
    (hpc : s.main = .addWait msg origin next) :
    Served { s with spaceSem := s.spaceSem - 1, main := .addStore msg origin next } := by
  intro hended
  have hbefore := h hended
  have hcount := waiting_enter s (.addStore msg origin next)
  rw [hpc] at hcount
  change _ + 1 = _ + 0 at hcount
  show (s.enter (.addStore msg origin next)).waiting ≤ s.spaceSem - 1
  omega

theorem step (ho : Owners s) (h : Served s) {label : ThreadsLabel} (hroom : s.HasRoom label)
    (ht : s.step label = some t) : Served t := by
  have hstarted : ∀ {k pc}, s.pc k = pc → pc ≠ .notCreated → k < s.started := by
    intro k pc hpc hcreated
    by_contra hge
    exact hcreated (hpc.symm.trans (ho.fresh k (Nat.le_of_not_lt hge)))
  cases step_cases ht with
  | ignored => exact h
  | main hpc hm =>
      apply h.enter
      obtain hle | ⟨hadds, -⟩ := hm.waits hpc
      · exact .inl (hpc ▸ hle)
      · exact .inr fun hended => hroom.2 hended hadds
  | @mainUpdate _ i f _ hpc hu =>
      have hmodified : Served (s.modify i f) := h
      apply hmodified.enter
      cases hu <;> exact .inl (Nat.zero_le _)
  | @create i code protocol hpc =>
      intro hended
      have hbefore := h hended
      have hcount := waiting_create s i protocol
      show (s.create i protocol).waiting ≤ s.spaceSem
      omega
  | mainWait hpc => exact h.mainWait hpc
  | @signalsCleanup i next hpc hs =>
      have hstopped : Served (s.stopWork (s.incarnation i)) := by
        intro hended
        rw [waiting_stopWork]
        exact h hended
      exact hstopped.enter (.inl (Nat.zero_le _))
  | spawnLock | allocate | install | spawnUnlock | mainStore | mainCleanupLock | mainReset
  | mainCleanupUnlock =>
      apply Served.enter
      · exact h
      · exact .inl (Nat.zero_le _)
  | @service k _ pc pc' hpc hm =>
      have hk : k < s.started := hstarted hpc (by rintro rfl; cases hm)
      apply h.place hk
      obtain hle | ⟨hadds, -⟩ := hm.waits hpc
      · exact .inl (hpc ▸ hle)
      · exact .inr fun hended => hroom.2 hended hadds
  | serviceWait hpc => exact h.serviceWait (hstarted hpc nofun) hpc
  | startLock hpc | startUnlock hpc | eofClear hpc | serviceStore hpc | serviceCleanupLock hpc
  | serviceReset hpc | serviceCleanupUnlock hpc =>
      apply Served.place
      · exact h
      · exact hstarted hpc nofun
      · exact .inl (Nat.zero_le _)
  | senderTest hpc =>
      intro hended
      have hstops : s.work = false := by
        cases hwork : s.work with
        | false => rfl
        | true => simp [hwork] at hended
      exact hroom.1 (.inl ⟨hpc, hstops⟩)
  | @senderPoll msg queue hpc hqueue =>
      intro hended
      have hnull : msg = none := by
        cases msg with
        | none => rfl
        | some msg => simp at hended
      have hle := hroom.1 (.inr ⟨hpc, by rw [hqueue, hnull]; rfl⟩)
      exact Nat.le_succ_of_le hle
  | wrote => nofun
  | receiverNull | receiverEnds => exact h

theorem initial : Served .initial := nofun

end Served

end ThreadsState

open ThreadsState

/-- Any interleaving of all threads, any frames, replies and signals. Where those
who wait for space when the sender ends, and every later call of `addSendQueue`,
find room, no thread waits at a full queue behind a sender that has ended. -/
theorem send_queue_not_wedged (s : ThreadsState)
    (h : (bridgeThreads.guard HasRoom).Reachable s) : ¬s.Wedged := by
  have hboth : Owners s ∧ Served s := by
    apply h.invariant (P := fun s => Owners s ∧ Served s)
    · rintro s rfl
      exact ⟨.initial, .initial⟩
    · rintro s label t ⟨ho, hs⟩ ht
      obtain ⟨hroom, hstep⟩ := Machine.guard_step.mp ht
      exact ⟨ho.step hstep, hs.step ho hroom hstep⟩
  exact hboth.2.not_wedged hboth.1

/-- A bulk service is running; the connection is lost, and the sender ends. -/
private def lostConnection : List ThreadsLabel :=
  [.frame spawnerService [0, 1, 0, 0], .main, .main, .openNewPort (some firstPort), .init true,
    .main, .main, .main, .main, .main, .service 0, .service 0, .receiver, .receiver, .sender]

/-- The thread of the service queues one more buffer. -/
private def bulkData : List ThreadsLabel :=
  [.read 0 (some [0x2a]), .service 0, .service 0, .service 0]

private theorem bulkData_isSome :
    ((bridgeThreads.guard HasRoom).run .initial (lostConnection ++ bulkData)).isSome := by
  decide +kernel

theorem send_queue_not_wedged_data :
    ∃ s, (bridgeThreads.guard HasRoom).Reachable s ∧ s.sender = .ended ∧ s.queue.length = 2 ∧
      ¬s.Wedged :=
  ⟨_, .of_run rfl bulkData_isSome, by decide +kernel, by decide +kernel,
    send_queue_not_wedged _ (.of_run rfl bulkData_isSome)⟩

/-- The payload goes on writing until the queue is full. -/
private def fillingRun : List ThreadsLabel :=
  lostConnection ++ (List.replicate 63 bulkData).flatten ++ [.read 0 (some [0x2a]), .service 0]

private theorem fillingRun_isSome : (bridgeThreads.run .initial fillingRun).isSome := by
  decide +kernel

theorem fillingRun_wedged :
    ∃ s, bridgeThreads.run .initial fillingRun = some s ∧ s.Wedged :=
  ⟨_, (Option.some_get fillingRun_isSome).symm, by decide +kernel, by decide +kernel,
    .inr ⟨0, by decide +kernel⟩⟩

end AapBridge.Accessory
