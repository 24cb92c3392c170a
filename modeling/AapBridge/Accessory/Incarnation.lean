import AapBridge.Accessory.Lifecycle

/-! # Every incarnation is cleaned up once

The history invariant. Slots in use hold pairwise different incarnations, those
have not been cleaned up, and every other incarnation started so far ended with
its cleanup. An operation writes events of slots in use only, so its events go
to the incarnations those slots hold and to no other.
-/

namespace AapBridge.Accessory

open AapBridge.Lib

theorem NoCleanup.append {as bs : List Event} (ha : NoCleanup as) (hb : NoCleanup bs) :
    NoCleanup (as ++ bs) := by
  intro f hf
  rcases List.mem_append.mp hf with h | h
  · exact ha f h
  · exact hb f h

theorem CleanedUpLast.after {as bs : List Event} (ha : NoCleanup as) (hb : CleanedUpLast bs) :
    CleanedUpLast (as ++ bs) := by
  obtain ⟨before, f, rfl, hbefore⟩ := hb
  exact ⟨as ++ before, f, (List.append_assoc _ _ _).symm, ha.append hbefore⟩

theorem CleanedUpLast.mem {es : List Event} (h : CleanedUpLast es) :
    ∃ f, .onCleanupService f ∈ es := by
  obtain ⟨before, f, rfl, -⟩ := h
  exact ⟨f, by simp⟩

/-- Both directions are closed, some before the events `es`, the others by them. -/
def BothClosed (start : BridgeService) (es : List Event) : Prop :=
  (start.inputOpen = false ∨ .inputClosed ∈ es) ∧ (start.outputOpen = false ∨ .outputClosed ∈ es)

/-- The cleanup runs in the operation that closes the second direction, which
frees the slot, and in no other. -/
theorem Settled.cleanup_iff {i : Slot} {start : BridgeService} {b : BridgeConnection}
    (h : Settled i start b) :
    ((∃ f, .onCleanupService f ∈ b.eventsOf i) ↔ BothClosed start (b.eventsOf i)) ∧
      (b.services i = .unused ↔ BothClosed start (b.eventsOf i)) := by
  rcases h with ⟨hlive, hopen⟩ | hend
  · have hnot : ¬BothClosed start (b.eventsOf i) := by
      rintro ⟨hin, hout⟩
      rcases hopen with ho | ho
      · rw [hlive.input] at ho
        rcases hin with hi | hi <;> simp [hi] at ho
      · rw [hlive.output] at ho
        rcases hout with hi | hi <;> simp [hi] at ho
    refine ⟨⟨?_, fun hb => absurd hb hnot⟩, ⟨?_, fun hb => absurd hb hnot⟩⟩
    · rintro ⟨f, hf⟩
      exact absurd hf (hlive.noCleanup f)
    · intro hunused
      have hport : (i : Int) = -1 := hlive.port.symm.trans (congrArg BridgeService.port hunused)
      omega
  · have hclosed : BothClosed start (b.eventsOf i) := ⟨hend.input, hend.output⟩
    exact ⟨⟨fun _ => hclosed, fun _ => hend.last.mem⟩, ⟨fun _ => hclosed, fun _ => hend.unused⟩⟩

namespace LifecycleState

/-- No slot in use holds incarnation `k`. -/
def Unheld (m : LifecycleState) (k : Nat) : Prop := ∀ i, m.Occupied i → m.incarnation i ≠ k

structure HistoryInv (m : LifecycleState) : Prop where
  table : Table m.bridge
  started : ∀ i, m.Occupied i → m.incarnation i < m.started
  distinct : ∀ i j, m.Occupied i → m.Occupied j → m.incarnation i = m.incarnation j → i = j
  live : ∀ i, m.Occupied i → NoCleanup (m.eventsOf (m.incarnation i))
  ended : ∀ k, k < m.started → m.Unheld k → CleanedUpLast (m.eventsOf k)
  fresh : ∀ k, m.started ≤ k → m.eventsOf k = []

theorem HistoryInv.unheld {m : LifecycleState} (hm : HistoryInv m) {k : Nat} (hk : m.started ≤ k) : m.Unheld k := by
  intro i hi heq
  have hlt := hm.started i hi
  omega

theorem initial_occupied {i : Slot} (h : initial.Occupied i) : i.val < 3 := by
  simp only [Occupied, initial, initServer] at h
  by_contra hge
  have h0 : i.val ≠ 0 := by omega
  have h1 : i.val ≠ 1 := by omega
  have h2 : i.val ≠ 2 := by omega
  simp [h0, h1, h2, BridgeService.unused] at h

theorem initial_table : Table initial.bridge := by
  intro i
  simp only [initial, initServer]
  by_cases h0 : i.val = 0
  · rw [if_pos h0]
    refine .inr ⟨by simp [h0], .inl rfl, rfl, rfl, rfl, by simp, by simp⟩
  · by_cases h1 : i.val = 1
    · rw [if_neg h0, if_pos h1]
      refine .inr ⟨by simp [h1], .inl rfl, rfl, rfl, rfl, by simp, by simp⟩
    · by_cases h2 : i.val = 2
      · rw [if_neg h0, if_neg h1, if_pos h2]
        refine .inr ⟨by simp [h2], .inl rfl, rfl, rfl, rfl, by simp, by simp⟩
      · rw [if_neg h0, if_neg h1, if_neg h2]
        exact .inl rfl

theorem HistoryInv.initial : HistoryInv .initial := by
  constructor
  · exact initial_table
  · intro i hi
    exact initial_occupied hi
  · intro i j _ _ hij
    exact Fin.ext hij
  · intro i _
    simp [LifecycleState.initial, LifecycleState.eventsOf, NoCleanup]
  · intro k hk hun
    -- incarnation `k < 3` is held by slot `k`
    exfalso
    have hmax : k < maxPorts := Nat.lt_trans hk (by decide)
    refine hun ⟨k, hmax⟩ ?_ rfl
    have hcases : k = 0 ∨ k = 1 ∨ k = 2 := by
      change k < 3 at hk
      omega
    rcases hcases with rfl | rfl | rfl <;> simp [Occupied, LifecycleState.initial, initServer]
  · intro k _
    rfl

/-! ## One operation -/

section Step

variable {m : LifecycleState} {op : Operation} {b : BridgeConnection}

theorem record_incarnation (m : LifecycleState) (b : BridgeConnection) {i : Slot}
    (h : ∀ protocol, op ≠ .spawn i protocol) : (m.record op b).incarnation i = m.incarnation i := by
  cases op with
  | spawn j protocol =>
      have hij : i ≠ j := fun heq => h protocol (heq ▸ rfl)
      simp [record, hij]
  | _ => rfl

theorem record_incarnation_spawn (m : LifecycleState) (b : BridgeConnection) (i : Slot)
    (protocol : BridgeConnection.Protocol) :
    (m.record (.spawn i protocol) b).incarnation i = m.started := by
  simp [record]

theorem started_le_record (m : LifecycleState) (op : Operation) (b : BridgeConnection) :
    m.started ≤ (m.record op b).started := by
  cases op <;> simp [record]

variable (hs : OperationSpec { m.bridge with events := [] } op b)

include hs

/-- An event of the operation belongs to a slot that was in use. -/
theorem occupied_of_event {e : Slot × Event} (he : e ∈ b.events) : m.Occupied e.1 := by
  intro hfree
  exact keyed_ne_nil he rfl (hs.free e.1 hfree).1

theorem record_eventsOf_held (hm : HistoryInv m) {i : Slot} (hi : m.Occupied i) :
    (m.record op b).eventsOf (m.incarnation i) =
      m.eventsOf (m.incarnation i) ++ b.eventsOf i := by
  have hname : ∀ e ∈ b.events, m.incarnation e.1 = m.incarnation i → e.1 = i := fun e he heq =>
    hm.distinct e.1 i (occupied_of_event hs he) hi heq
  simp only [eventsOf, record, keyed_append, keyed_relabel hname]
  rfl

theorem record_eventsOf_unheld {k : Nat} (hk : m.Unheld k) :
    (m.record op b).eventsOf k = m.eventsOf k := by
  have hnil : keyed k (b.events.map fun e => (m.incarnation e.1, e.2)) = [] := by
    apply keyed_eq_nil
    intro e he
    obtain ⟨e', he', rfl⟩ := List.mem_map.mp he
    exact hk e'.1 (occupied_of_event hs he')
  simp only [eventsOf, record, keyed_append, hnil, List.append_nil]

/-- A slot in use after the operation was in use before and stayed so, or was
free and has just been opened. -/
theorem record_occupied {i : Slot} (hi : (m.record op b).Occupied i) :
    (m.Occupied i ∧ Live i (m.bridge.services i) b ∧
        (m.record op b).incarnation i = m.incarnation i) ∨
      ((m.bridge.services i).port = -1 ∧ (∃ protocol, op = .spawn i protocol) ∧
        (m.record op b).incarnation i = m.started) := by
  by_cases hocc : (m.bridge.services i).port = -1
  · rcases (hs.free i hocc).2 with ⟨hunused, -⟩ | ⟨⟨protocol, rfl⟩, -⟩
    · exact absurd (congrArg BridgeService.port hunused) hi
    · exact .inr ⟨hocc, ⟨protocol, rfl⟩, record_incarnation_spawn m b i protocol⟩
  · obtain ⟨hsettled, hop⟩ := hs.occupied i hocc
    rcases hsettled with ⟨hlive, -⟩ | hend
    · exact .inl ⟨hocc, hlive, record_incarnation m b hop⟩
    · exact absurd (congrArg BridgeService.port hend.unused) hi

theorem record_freed {i : Slot} (hi : m.Occupied i) (hfree : ¬(m.record op b).Occupied i) :
    Ended i (m.bridge.services i) b := by
  rcases (hs.occupied i hi).1 with ⟨hlive, -⟩ | hend
  · exfalso
    apply hfree
    intro hport
    have hslot : (i : Int) = -1 := hlive.port.symm.trans hport
    omega
  · exact hend

end Step

theorem HistoryInv.record {m : LifecycleState} {op : Operation} {b : BridgeConnection}
    (hm : HistoryInv m) (hs : OperationSpec { m.bridge with events := [] } op b) :
    HistoryInv (m.record op b) := by
  constructor
  · exact hs.table
  · intro i hi
    rcases record_occupied hs hi with ⟨hocc, -, hinc⟩ | ⟨-, ⟨protocol, rfl⟩, hinc⟩
    · rw [hinc]
      exact Nat.lt_of_lt_of_le (hm.started i hocc) (started_le_record m op b)
    · rw [hinc]
      exact Nat.lt_succ_self _
  · intro i j hi hj heq
    rcases record_occupied hs hi with ⟨hio, -, hii⟩ | ⟨-, ⟨p, hip⟩, hii⟩ <;>
      rcases record_occupied hs hj with ⟨hjo, -, hji⟩ | ⟨-, ⟨q, hjq⟩, hji⟩ <;>
      rw [hii, hji] at heq
    · exact hm.distinct i j hio hjo heq
    · exact absurd heq (Nat.ne_of_lt (hm.started i hio))
    · exact absurd heq.symm (Nat.ne_of_lt (hm.started j hjo))
    · cases hip.symm.trans hjq
      rfl
  · intro i hi
    rcases record_occupied hs hi with ⟨hocc, hlive, hinc⟩ | ⟨-, -, hinc⟩
    · rw [hinc, record_eventsOf_held hs hm hocc]
      exact (hm.live i hocc).append hlive.noCleanup
    · rw [hinc, record_eventsOf_unheld hs (hm.unheld (Nat.le_refl _)), hm.fresh _ (Nat.le_refl _)]
      simp [NoCleanup]
  · intro k hk hun
    by_cases hheld : m.Unheld k
    · rw [record_eventsOf_unheld hs hheld]
      apply hm.ended k _ hheld
      by_contra hge
      -- the only new incarnation is `m.started`, which the opened slot holds
      cases op with
      | spawn i protocol =>
          have hk' : k < m.started + 1 := hk
          have hocc : (m.record (.spawn i protocol) b).Occupied i := by
            by_cases hfree : (m.bridge.services i).port = -1
            · rcases (hs.free i hfree).2 with ⟨-, hne⟩ | ⟨-, huse⟩
              · exact absurd rfl (hne protocol)
              · exact huse.occupied
            · exact absurd rfl ((hs.occupied i hfree).2 protocol)
          apply hun i hocc
          rw [record_incarnation_spawn]
          omega
      | _ => exact hge hk
    · obtain ⟨i, hocc, rfl⟩ : ∃ i, m.Occupied i ∧ m.incarnation i = k := by
        simpa [Unheld] using hheld
      have hend : Ended i (m.bridge.services i) b := by
        apply record_freed hs hocc
        intro hi
        exact hun i hi (record_incarnation m b (hs.occupied i hocc).2)
      rw [record_eventsOf_held hs hm hocc]
      exact hend.last.after (hm.live i hocc)
  · intro k hk
    have hle : m.started ≤ k := Nat.le_trans (started_le_record m op b) hk
    rw [record_eventsOf_unheld hs (hm.unheld hle)]
    exact hm.fresh k hle

theorem step_spec {m m' : LifecycleState} {op : Operation} (hm : HistoryInv m)
    (hstep : lifecycle.step m op = some m') :
    ∃ b, OperationSpec { m.bridge with events := [] } op b ∧ m' = m.record op b := by
  obtain ⟨b, hb, rfl⟩ := Option.map_eq_some_iff.mp hstep
  exact ⟨b, perform_spec (b := { m.bridge with events := [] }) hm.table rfl hb, rfl⟩

theorem HistoryInv.reachable {m : LifecycleState} (h : lifecycle.Reachable m) : HistoryInv m := by
  apply h.invariant
  · intro s hs
    rw [show s = .initial from hs]
    exact .initial
  · intro s op s' hm hstep
    obtain ⟨b, hspec, rfl⟩ := step_spec hm hstep
    exact hm.record hspec

end LifecycleState

/-- After every operation an entry is unused, or in use with a direction open;
the incarnation of a slot in use has not been cleaned up, every other one has,
once and as its last event; and the cleanup of an incarnation runs in the
operation that closes its second direction, which frees the slot. -/
theorem incarnations_cleaned_up_once (m : LifecycleState) (h : lifecycle.Reachable m) :
    (∀ i, m.bridge.services i = .unused ∨
      ((m.bridge.services i).port = i ∧
        ((m.bridge.services i).inputOpen = true ∨ (m.bridge.services i).outputOpen = true))) ∧
    (∀ i, m.Occupied i → NoCleanup (m.eventsOf (m.incarnation i))) ∧
    (∀ k, k < m.started → m.Unheld k → CleanedUpLast (m.eventsOf k)) ∧
    ∀ op m', lifecycle.step m op = some m' → ∀ i, m.Occupied i →
      m'.eventsOf (m.incarnation i) = m.eventsOf (m.incarnation i) ++ m'.bridge.eventsOf i ∧
      ((∃ f, .onCleanupService f ∈ m'.bridge.eventsOf i) ↔
        BothClosed (m.bridge.services i) (m'.bridge.eventsOf i)) ∧
      (m'.bridge.services i = .unused ↔
        BothClosed (m.bridge.services i) (m'.bridge.eventsOf i)) := by
  have hm := LifecycleState.HistoryInv.reachable h
  refine ⟨fun i => (hm.table i).imp id fun hi => ⟨hi.port, hi.open_⟩, hm.live, hm.ended, ?_⟩
  intro op m' hstep i hi
  obtain ⟨b, hspec, rfl⟩ := LifecycleState.step_spec hm hstep
  exact ⟨LifecycleState.record_eventsOf_held hspec hm hi, (hspec.occupied i hi).1.cleanup_iff⟩

private def reentrantRun : List Operation :=
  [.spawn ⟨3, three_inside⟩ .method, .status ⟨3, three_inside⟩ streamEof]

/-- A method service whose `onEof` sends the EOF that closes the other direction. -/
theorem incarnations_cleaned_up_once_reentrant :
    ∃ m : LifecycleState, m.started = 4 ∧ CleanedUpLast (m.eventsOf 3) := by
  have hrun : (lifecycle.run .initial reentrantRun).isSome := by decide
  have hheld : ((lifecycle.run .initial reentrantRun).get hrun).Unheld 3 := by
    intro i hi heq
    by_cases h3 : i = ⟨3, by decide⟩
    · subst h3
      exact hi rfl
    · have hinc : ((lifecycle.run .initial reentrantRun).get hrun).incarnation i = i :=
        Function.update_of_ne h3 _ _
      exact h3 (Fin.ext (hinc.symm.trans heq))
  have hlast := (incarnations_cleaned_up_once _ (.of_run rfl hrun)).2.2.1 3 (Nat.le_refl 4) hheld
  exact ⟨_, rfl, hlast⟩

end AapBridge.Accessory
