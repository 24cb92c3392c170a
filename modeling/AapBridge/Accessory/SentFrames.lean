import AapBridge.Accessory.StatusEffect

/-! # The frames an operation adds

A frame names the port its entry has when it is built. Status messages name that
of the port status service, the response to a request that of the spawner, and
only data handled by the service on a slot is answered on the slot's own port.
-/

namespace AapBridge.Accessory

open AapBridge.Lib AapBridge.Lib.HalfClose

/-- The slots whose ports the frames of an operation name. -/
def Operation.writers : Operation → List Slot
  | .spawn _ _ => [spawnerService]
  | .data i _ _ _ => [portStatusService, i]
  | .status _ _ | .sendEof _ | .sendClose _ => [portStatusService]

namespace BridgeConnection

/-- `b'` has sent more than `b`, each frame for one of the slots. -/
def Adds (b b' : BridgeConnection) (writers : List Slot) : Prop :=
  ∃ added, b'.sent = b.sent ++ added ∧
    ∀ msg ∈ added, ∃ i ∈ writers, msg.port = BitVec.ofInt 16 (b.services i).port

variable {b b' : BridgeConnection} {writers : List Slot}

theorem adds_none (hsent : b'.sent = b.sent) : Adds b b' writers :=
  ⟨[], by rw [hsent, List.append_nil], fun _ hmsg => absurd hmsg List.not_mem_nil⟩

theorem adds_one {msg : MultiplexedMessage} {i : Slot} (hi : i ∈ writers)
    (hsent : b'.sent = b.sent ++ [msg]) (hport : msg.port = BitVec.ofInt 16 (b.services i).port) :
    Adds b b' writers := by
  refine ⟨[msg], hsent, ?_⟩
  intro other hother
  cases List.mem_singleton.mp hother
  exact ⟨i, hi, hport⟩

theorem accept_eq_some {c : BridgeConnection} {i : Slot} {f : OnBytesReceived} :
    b.accept i f = some c ↔ ((b.services i).port ≠ -1 ∧ (b.services i).onBytesReceived = some f) ∧
      c = b.log i (.onBytesReceived f) := by
  unfold accept
  split
  · next haccepted => simp [haccepted, eq_comm]
  · next hrefused => simp [hrefused]

theorem accept_sent {c : BridgeConnection} {i : Slot} {f : OnBytesReceived}
    (h : b.accept i f = some c) : c.sent = b.sent := by
  rw [(accept_eq_some.mp h).2]
  rfl

/-- The accepted frame changes neither the table nor what has been sent. -/
theorem Adds.of_accept {c : BridgeConnection} {i : Slot} {f : OnBytesReceived}
    (hc : b.accept i f = some c) (h : Adds c b' writers) : Adds b b' writers := by
  obtain ⟨added, hsent, hports⟩ := h
  refine ⟨added, by rw [hsent, accept_sent hc], ?_⟩
  rw [← accept_services hc]
  exact hports

/-- The new entry was free and is not the spawner's own. -/
theorem adds_spawn {i : Slot} {protocol : Protocol} (h : perform b (.spawn i protocol) = some b') :
    Adds b b' [spawnerService] := by
  simp only [perform, Option.bind_eq_some_iff] at h
  obtain ⟨c, hc, h⟩ := h
  split at h
  · next hfree =>
    cases h
    have hne : spawnerService ≠ i := by
      intro hi
      rw [accept_services hc, ← hi] at hfree
      exact (accept_eq_some.mp hc).1.1 hfree
    have hsame : ((c.allocate i).install i protocol).services spawnerService =
        c.services spawnerService := by
      simp [install, allocate, BridgeConnection.modify, hne]
    apply Adds.of_accept hc
    apply adds_one List.mem_cons_self rfl
    rw [hsame]
  · cases h

theorem adds_sendEof {i : Slot} (hport : (b.services i).port = i) :
    Adds b (b.sendEof i) [portStatusService] :=
  adds_one List.mem_cons_self (sendEof_effect hport).2 rfl

theorem adds_sendClose {i : Slot} (hport : (b.services i).port = i)
    (hmem : portStatusService ∈ writers) : Adds b (b.sendClose i) writers :=
  adds_one hmem (sendClose_effect hport).2 rfl

theorem adds_portStatusSwitch {i : Slot} {buffer : List UInt8} (hport : (b.services i).port = i)
    (h : b.portStatusSwitch i buffer = some b') : Adds b b' [portStatusService] := by
  obtain ⟨status, c, -, hc, rfl⟩ := portStatusSwitch_eq_some.mp h
  have hsent : (c.cleanupIfClosed i).sent = c.sent := sent_cleanupIfClosed c i
  unfold portStatusCase at hc
  split at hc
  · have heffect := callOnEof_effect (b := b.closeInput i) (by simp [closeInput, hport]) hc
    split at heffect
    · have hadded : (c.cleanupIfClosed i).sent =
          b.sent ++ [(b.closeInput i).statusFrame i streamEof] := hsent.trans heffect.2
      apply adds_one List.mem_cons_self hadded
      by_cases hi : portStatusService = i
      · subst hi
        simp [statusFrame, closeInput]
      · simp [statusFrame, closeInput, modify_services_ne _ hi]
    · exact adds_none (hsent.trans heffect.2)
  · split at hc
    · cases hc
      exact adds_none hsent
    · obtain ⟨_, -, rfl⟩ := Option.map_eq_some_iff.mp hc
      exact adds_none hsent

theorem adds_bulk {i : Slot} {buffer : List UInt8} {outcomes : List Int}
    (hport : (b.services i).port = i) (h : b.bulkOnBytesReceived i buffer outcomes = some b') :
    Adds b b' [portStatusService, i] := by
  unfold bulkOnBytesReceived at h
  split at h
  · obtain ⟨r, -, rfl⟩ := Option.map_eq_some_iff.mp h
    split
    · exact adds_sendClose hport List.mem_cons_self
    · exact adds_none rfl
  · cases h

theorem adds_data (ht : Table b) {i : Slot} {buffer : List UInt8} {outcomes : List Int}
    {reply : List UInt8} (h : perform b (.data i buffer outcomes reply) = some b') :
    Adds b b' [portStatusService, i] := by
  have hself : i ∈ [portStatusService, i] := List.mem_cons_of_mem _ List.mem_cons_self
  simp only [perform] at h
  split at h
  · obtain ⟨c, hc, rfl⟩ := Option.map_eq_some_iff.mp h
    exact (adds_one hself rfl rfl).of_accept hc
  · obtain ⟨c, hc, h⟩ := Option.bind_eq_some_iff.mp h
    have hocc := (accept_eq_some.mp hc).1.1
    apply (adds_bulk _ h).of_accept hc
    rw [accept_services hc]
    exact (ht.inUse hocc).port
  · obtain ⟨c, hc, rfl⟩ := Option.map_eq_some_iff.mp h
    exact (adds_one hself rfl rfl).of_accept hc
  · exact adds_none (accept_sent h)
  · cases h

/-- What any operation sends. -/
theorem perform_adds (ht : Table b) {op : Operation} (h : perform b op = some b') :
    Adds b b' op.writers := by
  cases op with
  | spawn i protocol => exact adds_spawn h
  | status target code =>
      simp only [perform, Option.bind_eq_some_iff] at h
      obtain ⟨c, hc, h⟩ := h
      split at h
      · cases h
        exact adds_none (accept_sent hc)
      · next hocc =>
        apply (adds_portStatusSwitch _ h).of_accept hc
        rw [accept_services hc] at hocc ⊢
        exact (ht.inUse hocc).port
  | data i buffer outcomes reply => exact adds_data ht h
  | sendEof i =>
      simp only [perform] at h
      split at h
      · cases h
      · next hocc =>
        cases h
        exact adds_sendEof (ht.inUse hocc).port
  | sendClose i =>
      simp only [perform] at h
      split at h
      · cases h
      · next hocc =>
        cases h
        exact adds_sendClose (ht.inUse hocc).port List.mem_cons_self

end BridgeConnection

end AapBridge.Accessory
