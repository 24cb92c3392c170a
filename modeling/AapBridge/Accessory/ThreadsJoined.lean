import AapBridge.Accessory.SlotOwners

/-! # Which threads `deInitServer` leaves behind

The loop of `deInitServer` cleans up every entry that is in use, and with it joins the
thread of its service. Nothing opens an entry any more, so behind the loop all are
unused, and a thread that uses its entry owns one. What is left of any service's
thread is at most the unlocking at the end of its own cleanup.
-/

namespace AapBridge.Accessory

open AapBridge.Lib AapBridge.Lib.HalfClose

/-- The loop of `deInitServer` has passed the entries below. -/
def Next.swept : Next → Option Nat
  | .deInit n => some n
  | .joinReceive | .joinSend | .finished => some maxPorts
  | _ => none

/-- The entry main cleans up, and what it goes on with. -/
def MainPc.cleans : MainPc → Option (Slot × Next)
  | .cleanupLock i next | .cleanupCallback i next | .cleanupJoin i _ next
  | .cleanupReset i next => some (i, next)
  | _ => none

/-- What main goes on with behind the call it is in. -/
def MainPc.next : MainPc → Option Next
  | .resume next | .write _ _ _ next | .addWait _ _ next | .addStore _ _ next
  | .cleanupLock _ next | .cleanupCallback _ next | .cleanupJoin _ _ next
  | .cleanupReset _ next | .cleanupUnlock next => some next
  | _ => none

def MainPc.swept : MainPc → Option Nat
  | .resume next | .write _ _ _ next | .addWait _ _ next | .addStore _ _ next
  | .cleanupUnlock next => next.swept
  | .cleanupLock i next | .cleanupCallback i next | .cleanupJoin i _ next
  | .cleanupReset i next => next.swept.map fun _ => i.val
  | _ => none

theorem MainPc.next_swept {pc : MainPc} (h : pc.swept = none) {next : Next}
    (hnext : pc.next = some next) : next.swept = none := by
  cases pc with
  | resume _ | write _ _ _ _ | addWait _ _ _ | addStore _ _ _ | cleanupUnlock _ =>
      cases hnext
      exact h
  | cleanupLock _ _ | cleanupCallback _ _ | cleanupJoin _ _ _ | cleanupReset _ _ =>
      cases hnext
      exact Option.map_eq_none_iff.mp h
  | _ => cases hnext

theorem MainPc.next_of_cleans {pc : MainPc} {i : Slot} {next : Next}
    (h : pc.cleans = some (i, next)) : pc.next = some next := by
  cases pc with
  | cleanupLock _ _ | cleanupCallback _ _ | cleanupJoin _ _ _ | cleanupReset _ _ =>
      cases h
      rfl
  | _ => cases h

namespace ThreadsState

variable {s t : ThreadsState}

structure Swept (s : ThreadsState) : Prop where
  below : ∀ n, s.main.swept = some n → ∀ i : Slot, i.val < n → (s.bridge.services i).port = -1
  cleaning : ∀ i next, s.main.cleans = some (i, next) → next.swept = none ∨ next = .deInit (i + 1)
  receiver : s.main.next = some .joinSend ∨ s.main.next = some .finished → s.receiver = .ended
  sender : s.main.next = some .finished → s.sender = .ended

/-- Main is not in the loop, or behind it, afterwards. -/
theorem Swept.leave {pc : MainPc} (hpc : t.main = pc) (hnone : pc.swept = none) : Swept t := by
  subst hpc
  have hnext : ∀ next : Next, next.swept ≠ none → t.main.next ≠ some next :=
    fun _ hswept heq => hswept (MainPc.next_swept hnone heq)
  refine ⟨?_, ?_, ?_, ?_⟩
  · intro n hn
    rw [hnone] at hn
    cases hn
  · intro i next hi
    exact .inl (MainPc.next_swept hnone (MainPc.next_of_cleans hi))
  · intro heq
    obtain heq | heq := heq
    · exact absurd heq (hnext _ (by decide))
    · exact absurd heq (hnext _ (by decide))
  · intro heq
    exact absurd heq (hnext _ (by decide))

/-- Main goes on within one place of the loop, and no entry is taken. -/
theorem Swept.stay (h : Swept s) {pc pc' : MainPc} (hpc : s.main = pc) (hpc' : t.main = pc')
    (hswept : pc'.swept = pc.swept) (hcleans : pc'.cleans = none ∨ pc'.cleans = pc.cleans)
    (hnext : pc'.next = pc.next) (hbridge : t.bridge = s.bridge) (hreceiver : t.receiver = s.receiver)
    (hsender : t.sender = s.sender) : Swept t := by
  subst hpc
  subst hpc'
  refine ⟨?_, ?_, ?_, ?_⟩
  · intro n hn i hi
    rw [hswept] at hn
    rw [hbridge]
    exact h.below n hn i hi
  · intro i next hi
    obtain hnone | hsame := hcleans
    · rw [hnone] at hi
      cases hi
    · rw [hsame] at hi
      exact h.cleaning i next hi
  · rw [hnext, hreceiver]
    exact h.receiver
  · rw [hnext, hsender]
    exact h.sender

/-- A step of another thread takes no entry. -/
theorem Swept.beside (h : Swept s) (hmain : t.main = s.main)
    (hports : ∀ i, (s.bridge.services i).port = -1 → (t.bridge.services i).port = -1)
    (hreceiver : s.receiver = .ended → t.receiver = .ended)
    (hsender : s.sender = .ended → t.sender = .ended) : Swept t where
  below n hn i hi := by
    rw [hmain] at hn
    exact hports i (h.below n hn i hi)
  cleaning := by
    rw [hmain]
    exact h.cleaning
  receiver heq := by
    rw [hmain] at heq
    exact hreceiver (h.receiver heq)
  sender heq := by
    rw [hmain] at heq
    exact hsender (h.sender heq)

/-! ## The loop -/

/-- Main goes on in `deInitServer`. -/
theorem Swept.resume (h : Swept s) {next : Next} (hpc : s.main = .resume next)
    (hnext : next.swept ≠ none) (ht : s.step .main = some t) : Swept t := by
  simp only [step, runMain, hpc] at ht
  cases next with
  | deInit n =>
      have hbelow : ∀ i : Slot, i.val < n → (s.bridge.services i).port = -1 :=
        h.below n (by rw [hpc]; rfl)
      simp only [resumeMain] at ht
      split at ht
      · next hn =>
        split at ht
        · cases ht
          refine ⟨?_, ?_, ?_, ?_⟩
          · intro m hm i hi
            cases hm
            exact hbelow i hi
          · intro i next' hi
            cases hi
            exact .inr rfl
          · intro heq
            obtain heq | heq := heq
            · cases heq
            · cases heq
          · intro heq
            cases heq
        · next hport =>
          rw [not_not] at hport
          cases ht
          refine ⟨?_, ?_, ?_, ?_⟩
          · intro m hm i hi
            cases hm
            obtain hlt | heq := Nat.lt_succ_iff_lt_or_eq.mp hi
            · exact hbelow i hlt
            · have hi' : i = ⟨n, hn⟩ := Fin.ext heq
              rw [hi']
              exact hport
          · intro i next' hi
            cases hi
          · intro heq
            obtain heq | heq := heq
            · cases heq
            · cases heq
          · intro heq
            cases heq
      · next hn =>
        cases ht
        refine ⟨?_, ?_, ?_, ?_⟩
        · intro m hm i hi
          exact hbelow i (Nat.lt_of_lt_of_le i.isLt (Nat.le_of_not_lt hn))
        · intro i next' hi
          cases hi
        · intro heq
          obtain heq | heq := heq
          · cases heq
          · cases heq
        · intro heq
          cases heq
  | joinReceive =>
      have hall : ∀ i : Slot, (s.bridge.services i).port = -1 := fun i =>
        h.below maxPorts (by rw [hpc]; rfl) i i.isLt
      simp only [resumeMain] at ht
      split at ht
      · next hended =>
        cases ht
        refine ⟨fun _ _ i _ => hall i, ?_, fun _ => hended, ?_⟩
        · intro i next' hi
          cases hi
        · intro heq
          cases heq
      · cases ht
  | joinSend =>
      have hall : ∀ i : Slot, (s.bridge.services i).port = -1 := fun i =>
        h.below maxPorts (by rw [hpc]; rfl) i i.isLt
      simp only [resumeMain] at ht
      split at ht
      · next hended =>
        cases ht
        refine ⟨fun _ _ i _ => hall i, ?_, fun _ => h.receiver (.inl (by rw [hpc]; rfl)), fun _ => hended⟩
        intro i next' hi
        cases hi
      · cases ht
  | finished => cases ht
  | poll | spawnUnlock | sendTest _ _ | closedTest _ => exact absurd rfl hnext

/-! ## Any step -/

theorem behindSend_swept (i : Slot) (g : Signal) : (behindSend i g).swept = none := by
  cases g with
  | eof => rfl
  | close => rfl

/-- A move of main outside the loop. -/
theorem Swept.move (h : Swept s) {label : ThreadsLabel} {pc pc' : MainPc} (hpc : s.main = pc)
    (hm : MainMove s label pc pc') (hout : ∀ next, pc = .resume next → next.swept = none) :
    Swept (s.enter pc') := by
  cases hm with
  | null =>
      refine ⟨?_, ?_, ?_, ?_⟩
      · intro n hn i hi
        cases hn
        exact absurd hi (Nat.not_lt_zero _)
      · intro i next hi
        cases hi
      · intro heq
        obtain heq | heq := heq
        · cases heq
        · cases heq
      · intro heq
        cases heq
  | message => exact h.stay hpc rfl rfl (.inr rfl) rfl rfl rfl rfl
  | callbackBulk => exact h.stay hpc rfl rfl (.inr rfl) rfl rfl rfl rfl
  | callbackOther => exact h.stay hpc rfl rfl (.inr rfl) rfl rfl rfl rfl
  | joined => exact h.stay hpc rfl rfl (.inr rfl) rfl rfl rfl rfl
  | deInitUsed => cases hout _ rfl
  | deInitFree => cases hout _ rfl
  | deInitEnd => cases hout _ rfl
  | joinReceive => cases hout _ rfl
  | joinSend => cases hout _ rfl
  | @sendClosed i g =>
      apply Swept.leave rfl
      show (behindSend i g).swept.map _ = none
      rw [behindSend_swept, Option.map_none]
  | @sendOpen i g => exact .leave rfl (behindSend_swept i g)
  | _ => exact .leave rfl rfl

theorem modify_port (b : BridgeConnection) (i : Slot) {f : BridgeService → BridgeService}
    (hf : ∀ service, service.port = -1 → (f service).port = -1) :
    ∀ j, (b.services j).port = -1 → ((b.modify i f).services j).port = -1 := by
  intro j hj
  by_cases hji : j = i
  · subst hji
    rw [BridgeConnection.modify_services_self]
    exact hf _ hj
  · rw [BridgeConnection.modify_services_ne _ hji]
    exact hj

/-- Main is behind the reset of an entry. -/
theorem Swept.reset (h : Swept s) {i : Slot} {next : Next} (hpc : s.main = .cleanupReset i next) :
    Swept ((s.modify i fun _ => .unused).enter (.cleanupUnlock next)) := by
  have hself : ((s.modify i fun _ => .unused).bridge.services i).port = -1 := by
    rw [reset_self]
    rfl
  refine ⟨?_, ?_, ?_, ?_⟩
  · intro n hn j hj
    obtain hnone | hnext := h.cleaning i next (by rw [hpc]; rfl)
    · rw [show next.swept = some n from hn] at hnone
      cases hnone
    · subst hnext
      cases hn
      obtain hlt | heq := Nat.lt_succ_iff_lt_or_eq.mp hj
      · exact modify_port s.bridge i (f := fun _ => .unused) (fun _ _ => rfl) j (h.below i.val (by rw [hpc]; rfl) j hlt)
      · rw [show j = i from Fin.ext heq]
        exact hself
  · intro j next' hj
    cases hj
  · intro heq
    apply h.receiver
    rw [hpc]
    exact heq
  · intro heq
    apply h.sender
    rw [hpc]
    exact heq

theorem Swept.step (h : Swept s) {label : ThreadsLabel} (ht : s.step label = some t) : Swept t := by
  have hsame : ∀ i, (s.bridge.services i).port = -1 → (s.bridge.services i).port = -1 :=
    fun _ hi => hi
  by_cases hloop : label = .main ∧ ∃ next, s.main = .resume next ∧ next.swept ≠ none
  · obtain ⟨rfl, next, hpc, hnext⟩ := hloop
    exact h.resume hpc hnext ht
  cases step_cases ht with
  | ignored => exact h
  | @main label pc pc' hpc hm =>
      apply h.move hpc hm
      intro next hnext
      subst hnext
      -- only the loop's own steps leave such a place
      by_contra hswept
      have hlabel : label = .main := by
        cases hm with
        | null => exact absurd rfl hswept
        | frame => exact absurd rfl hswept
        | _ => rfl
      exact hloop ⟨hlabel, next, hpc, hswept⟩
  | mainUpdate hpc hu =>
      cases hu with
      | receivedEof => exact .leave rfl rfl
      | receivedClose => exact .leave rfl rfl
      | closedFifo => exact .leave rfl rfl
      | send => exact .leave rfl rfl
  | spawnLock hpc hlock => exact .leave rfl rfl
  | allocate hpc hfree => exact .leave rfl rfl
  | create hpc => exact .leave rfl rfl
  | install hpc => exact .leave rfl rfl
  | spawnUnlock hpc => exact .leave rfl rfl
  | mainWait hpc hspace =>
      exact h.stay hpc rfl rfl (.inr rfl) rfl rfl rfl rfl
  | mainStore hpc => exact h.stay hpc rfl rfl (.inl rfl) rfl rfl rfl rfl
  | mainCleanupLock hpc hlock =>
      exact h.stay hpc rfl rfl (.inr rfl) rfl rfl rfl rfl
  | signalsCleanup hpc hs =>
      exact h.stay hpc rfl rfl (.inr rfl) rfl rfl rfl rfl
  | mainReset hpc => exact h.reset hpc
  | mainCleanupUnlock hpc => exact h.stay hpc rfl rfl (.inl rfl) rfl rfl rfl rfl
  | service hpc hm => exact h.beside rfl hsame id id
  | startLock hpc hlock => exact h.beside rfl hsame id id
  | startUnlock hpc => exact h.beside rfl hsame id id
  | @eofClear k _ hpc =>
      exact h.beside rfl (modify_port s.bridge (s.slot k) (f := closeFlag .eof) fun _ hport => hport)
        id id
  | serviceWait hpc hspace => exact h.beside rfl hsame id id
  | serviceStore hpc => exact h.beside rfl hsame id id
  | serviceCleanupLock hpc hlock => exact h.beside rfl hsame id id
  | @serviceReset k hpc =>
      exact h.beside rfl (modify_port s.bridge (s.slot k) (f := fun _ => .unused) fun _ _ => rfl)
        id id
  | serviceCleanupUnlock hpc => exact h.beside rfl hsame id id
  | senderTest hpc =>
      refine h.beside rfl hsame id ?_
      intro hended
      rw [hpc] at hended
      cases hended
  | senderPoll hpc hqueue =>
      refine h.beside rfl hsame id ?_
      intro hended
      rw [hpc] at hended
      cases hended
  | wrote hpc =>
      refine h.beside rfl hsame id ?_
      intro hended
      rw [hpc] at hended
      cases hended
  | receiverNull hpc =>
      refine h.beside rfl hsame ?_ id
      intro hended
      rw [hpc] at hended
      cases hended
  | receiverEnds hpc => exact h.beside rfl hsame (fun _ => rfl) id

theorem Swept.reachable (h : bridgeThreads.Reachable s) : Swept s := by
  apply h.invariant
  · intro s hinit
    cases hinit
    exact .leave rfl rfl
  · intro s label t hs ht
    exact hs.step ht

end ThreadsState

/-! ## Results -/

open ThreadsState

end AapBridge.Accessory
