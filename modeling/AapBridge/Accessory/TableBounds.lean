import AapBridge.Accessory.PayloadBounds

/-! # The service table under dispatch

What every dispatch keeps: an entry names its own slot or none, and has all its
callbacks or none of them; a request that is denied after `openNewPort` leaves
an entry with a port and no callbacks behind. On such a table the search for a
port and the two table services access memory in range exactly under the
conditions stated here.
-/

namespace AapBridge.Accessory

open AapBridge.Lib AapBridge.Lib.CMemory

structure BridgeService.NoCallbacks (service : BridgeService) : Prop where
  onBytesReceived : service.onBytesReceived = none
  onEof : service.onEof = none
  onCleanupService : service.onCleanupService = none

/-- A service, a free entry, or one that was allocated and then denied. -/
def Sane (i : Slot) (service : BridgeService) : Prop :=
  (service.port = i ∧ service.Started) ∨
    ((service.port = i ∨ service.port = -1) ∧ service.NoCallbacks)

structure Sound (b : BridgeConnection) : Prop where
  slots : ∀ i, Sane i (b.services i)
  last : 0 ≤ b.lastAllocatedPort ∧ b.lastAllocatedPort < maxPorts

theorem Sane.unused (i : Slot) : Sane i .unused := .inr ⟨.inr rfl, rfl, rfl, rfl⟩

/-- A call that changes flags and the data of a bulk transfer at most. -/
theorem Sane.flags {i : Slot} {service service' : BridgeService} (h : Sane i service)
    (hport : service'.port = service.port)
    (hbytes : service'.onBytesReceived = service.onBytesReceived) (heof : service'.onEof = service.onEof)
    (hcleanup : service'.onCleanupService = service.onCleanupService)
    (hdata : (∃ fd, service.serviceData = some (.bulk fd)) →
      ∃ fd, service'.serviceData = some (.bulk fd)) : Sane i service' := by
  rcases h with ⟨hi, hstarted⟩ | ⟨hi, hnone⟩
  · refine .inl ⟨hport.trans hi, ?_, ?_, ?_, ?_, ?_⟩
    · rw [hbytes]; exact hstarted.onBytesReceived
    · rw [heof]; exact hstarted.onEof
    · rw [hcleanup]; exact hstarted.onCleanupService
    · rw [heof]; exact fun h => hdata (hstarted.bulkEof h)
    · rw [hbytes]; exact fun h => hdata (hstarted.bulkBytes h)
  · refine .inr ⟨?_, ?_, ?_, ?_⟩
    · rw [hport]; exact hi
    · rw [hbytes]; exact hnone.onBytesReceived
    · rw [heof]; exact hnone.onEof
    · rw [hcleanup]; exact hnone.onCleanupService

/-- An operation on slot `i` that keeps it sane. -/
structure Keeps (i : Slot) (b b' : BridgeConnection) : Prop where
  others : ∀ j, j ≠ i → b'.services j = b.services j
  last : b'.lastAllocatedPort = b.lastAllocatedPort
  sane : Sane i (b.services i) → Sane i (b'.services i)

theorem Sound.keeps {i : Slot} {b b' : BridgeConnection} (h : Sound b) (hk : Keeps i b b') :
    Sound b' where
  slots := by
    intro j
    by_cases hj : j = i
    · subst hj
      exact hk.sane (h.slots j)
    · rw [hk.others j hj]
      exact h.slots j
  last := by
    rw [hk.last]
    exact h.last

namespace Keeps

variable {i : Slot} {b b' c : BridgeConnection}

theorem refl (i : Slot) (b : BridgeConnection) : Keeps i b b := ⟨fun _ _ => rfl, rfl, id⟩

theorem trans (h₁ : Keeps i b b') (h₂ : Keeps i b' c) : Keeps i b c where
  others j hj := (h₂.others j hj).trans (h₁.others j hj)
  last := h₂.last.trans h₁.last
  sane h := h₂.sane (h₁.sane h)

theorem modify {f : BridgeService → BridgeService} (hf : ∀ service, Sane i service → Sane i (f service)) :
    Keeps i b (b.modify i f) where
  others _ hj := b.modify_services_ne hj f
  last := rfl
  sane h := by
    rw [BridgeConnection.modify_services_self]
    exact hf _ h

theorem log (i j : Slot) (b : BridgeConnection) (e : Event) : Keeps i b (b.log j e) :=
  ⟨fun _ _ => rfl, rfl, id⟩

theorem writeAllPort (i j : Slot) (b : BridgeConnection) (buffer : List UInt8) :
    Keeps i b (b.writeAllPort j buffer) := ⟨fun _ _ => rfl, rfl, id⟩

theorem cleanupIfClosed (i : Slot) (b : BridgeConnection) : Keeps i b (b.cleanupIfClosed i) := by
  have hreset : ∀ b : BridgeConnection, Keeps i b (b.modify i fun _ => .unused) :=
    fun b => modify fun _ _ => .unused i
  unfold BridgeConnection.cleanupIfClosed BridgeConnection.cleanupService
  split
  · split
    · exact (log i i b _).trans (hreset _)
    · exact hreset b
  · exact refl i b

theorem closeInput (i : Slot) (b : BridgeConnection) : Keeps i b (b.closeInput i) := by
  apply (modify (f := fun service => { service with inputOpen := false }) ?_).trans (log i i _ _)
  exact fun _ h => h.flags rfl rfl rfl rfl id

theorem closeOutput (i : Slot) (b : BridgeConnection) : Keeps i b (b.closeOutput i) := by
  apply (modify (f := fun service => { service with outputOpen := false }) ?_).trans (log i i _ _)
  exact fun _ h => h.flags rfl rfl rfl rfl id

theorem sendEof (i : Slot) (b : BridgeConnection) : Keeps i b (b.sendEof i) :=
  ((closeOutput i b).trans (writeAllPort i _ _ _)).trans (cleanupIfClosed i _)

theorem sendClose (i : Slot) (b : BridgeConnection) : Keeps i b (b.sendClose i) :=
  ((closeInput i b).trans (writeAllPort i _ _ _)).trans (cleanupIfClosed i _)

theorem callOnEof (h : b.callOnEof i = some b') : Keeps i b b' := by
  unfold BridgeConnection.callOnEof at h
  split at h
  · rename_i f _
    apply (log i i b (.onEof f)).trans
    cases f with
    | methodOnEof =>
        cases h
        exact sendEof i _
    | bulkOnEof =>
        simp only [BridgeConnection.runOnEof, BridgeConnection.bulkOnEof] at h
        split at h <;> cases h
        apply modify
        exact fun _ h => h.flags rfl rfl rfl rfl fun _ => ⟨-1, rfl⟩
    | _ =>
        cases h
        exact refl i _
  · cases h

theorem portStatusSwitch {buffer : List UInt8} (h : b.portStatusSwitch i buffer = some b') :
    Keeps i b b' := by
  obtain ⟨status, c, -, hc, rfl⟩ := BridgeConnection.portStatusSwitch_eq_some.mp h
  have hcase : Keeps i b c := by
    unfold BridgeConnection.portStatusCase at hc
    split at hc
    · exact (closeInput i b).trans (callOnEof hc)
    · split at hc
      · cases hc
        exact closeOutput i b
      · obtain ⟨-, -, rfl⟩ := Option.map_eq_some_iff.mp hc
        exact refl i b
  exact hcase.trans (cleanupIfClosed i c)

end Keeps

/-! ## Status messages -/

/-- Two bytes that name an entry; if it is in use a third one, and a callback
for an EOF or a fourth byte for what is neither EOF nor CLOSE. -/
def StatusInside (b : BridgeConnection) (buffer : List UInt8) : Prop :=
  ∃ target, BridgeConnection.statusTarget buffer = some target ∧
    ((b.services target).port ≠ -1 → ∃ status, buffer[2]? = some status ∧
      (status = streamEof → (b.services target).onEof ≠ none) ∧
      (status ≠ streamEof → status ≠ streamClose → 4 ≤ buffer.length))

theorem callOnEof_isSome {b : BridgeConnection} {i : Slot} (h : Sane i (b.services i)) :
    (b.callOnEof i).isSome ↔ (b.services i).onEof ≠ none := by
  rcases h with ⟨-, hstarted⟩ | ⟨-, hnone⟩
  · refine iff_of_true hstarted.callOnEof_isSome ?_
    exact Option.isSome_iff_ne_none.mp hstarted.onEof
  · simp [BridgeConnection.callOnEof, hnone.onEof]

theorem portStatusCase_isSome {b : BridgeConnection} {target : Slot} {status : UInt8}
    {buffer : List UInt8} (h : Sane target (b.services target)) :
    (b.portStatusCase target status buffer).isSome ↔
      (status = streamEof → (b.services target).onEof ≠ none) ∧
        (status ≠ streamEof → status ≠ streamClose → 4 ≤ buffer.length) := by
  have hsane := (Keeps.closeInput target b).sane h
  have heof : ((b.closeInput target).services target).onEof = (b.services target).onEof := by
    simp [BridgeConnection.closeInput]
  unfold BridgeConnection.portStatusCase
  by_cases h₁ : status = streamEof
  · rw [if_pos h₁, callOnEof_isSome hsane, heof]
    simp [h₁]
  · rw [if_neg h₁]
    by_cases h₂ : status = streamClose
    · simp [h₂, streamClose, streamEof]
    · rw [if_neg h₂, Option.isSome_map, isSome_getElem?]
      simp [h₁, h₂]
      omega

theorem portStatusSwitch_isSome {b : BridgeConnection} {target : Slot} {buffer : List UInt8} :
    (b.portStatusSwitch target buffer).isSome ↔
      ∃ status, buffer[2]? = some status ∧ (b.portStatusCase target status buffer).isSome := by
  simp only [Option.isSome_iff_exists, BridgeConnection.portStatusSwitch_eq_some]
  constructor
  · rintro ⟨-, status, c, hstatus, hc, -⟩
    exact ⟨status, hstatus, c, hc⟩
  · rintro ⟨status, hstatus, c, hc⟩
    exact ⟨_, status, c, hstatus, hc, rfl⟩

theorem portStatus_isSome {b : BridgeConnection} {buffer : List UInt8} (h : Sound b) :
    (b.portStatusOnBytesReceived buffer).isSome ↔ StatusInside b buffer := by
  unfold BridgeConnection.portStatusOnBytesReceived StatusInside
  cases htarget : BridgeConnection.statusTarget buffer with
  | none => simp
  | some target =>
      show (if _ then _ else _ : Option BridgeConnection).isSome ↔ _
      by_cases hfree : (b.services target).port = -1
      · simp [hfree]
      · rw [if_neg hfree, portStatusSwitch_isSome]
        simp only [portStatusCase_isSome (h.slots target), Option.some.injEq, exists_eq_left', ne_eq,
          hfree, not_false_eq_true, forall_const]

theorem Keeps.portStatusOnBytesReceived {b b' : BridgeConnection} {buffer : List UInt8}
    (h : b.portStatusOnBytesReceived buffer = some b') : ∃ target, Keeps target b b' := by
  unfold BridgeConnection.portStatusOnBytesReceived at h
  obtain ⟨target, -, h⟩ := Option.bind_eq_some_iff.mp h
  refine ⟨target, ?_⟩
  split at h
  · cases h
    exact .refl target b
  · exact .portStatusSwitch h

/-! ## The search for a port -/

/-- The loop meets `lastAllocatedPort` before its fuel runs out, and stops early
only at a free entry. -/
theorem searchPort_spec (b : BridgeConnection)
    (hlast : 0 ≤ b.lastAllocatedPort ∧ b.lastAllocatedPort < 400) (fuel : Nat) (port : Int)
    (hport : 0 ≤ port ∧ port < 400) (hfuel : (b.lastAllocatedPort - port) % 400 < fuel) :
    ∃ i, b.searchPort fuel port = some i ∧ ((b.services i).port ≠ -1 →
      ∀ j : Slot, (j.val - port) % 400 ≤ (b.lastAllocatedPort - port) % 400 →
        (b.services j).port ≠ -1) := by
  induction fuel generalizing port with
  | zero => omega
  | succ fuel ih =>
      have hslot : slot? port = some ⟨port.toNat, by show port.toNat < 400; omega⟩ := by
        rw [slot?, dif_pos]
        exact hport
      rw [BridgeConnection.searchPort, hslot, Option.bind_some]
      split
      · next hnext =>
        obtain ⟨hused, hne⟩ := hnext
        have hmod : (port + 1) % (maxPorts : Int) = (port + 1) % 400 := rfl
        rw [hmod]
        obtain ⟨i, hi, hall⟩ := ih ((port + 1) % 400) (by omega) (by omega)
        refine ⟨i, hi, fun hi' j hj => ?_⟩
        by_cases hjp : (j.val : Int) = port
        · have heq : j = ⟨port.toNat, by show port.toNat < 400; omega⟩ := by
            apply Fin.ext
            show j.val = port.toNat
            omega
          rw [heq]
          exact hused
        · have hj400 : j.val < 400 := j.isLt
          exact hall hi' j (by omega)
      · next hstop =>
        refine ⟨_, rfl, fun hi j hj => ?_⟩
        have hlastp : port = b.lastAllocatedPort := by
          by_contra hne
          exact hstop ⟨hi, hne⟩
        have hj400 : j.val < 400 := j.isLt
        have heq : j = ⟨port.toNat, by show port.toNat < 400; omega⟩ := by
          apply Fin.ext
          show j.val = port.toNat
          omega
        rw [heq]
        exact hi

/-- `openNewPort` reads `services[MAX_PORTS]` when the last entry was allocated
last; otherwise it finds a free entry if there is one. -/
theorem openNewPort_spec {b : BridgeConnection}
    (hlast : 0 ≤ b.lastAllocatedPort ∧ b.lastAllocatedPort < maxPorts) :
    (b.lastAllocatedPort = 399 → b.openNewPort = none) ∧
      (b.lastAllocatedPort ≠ 399 →
        (∃ i, (b.services i).port = -1 ∧ b.openNewPort = some (some (i, b.allocate i))) ∨
          ((∀ i, (b.services i).port ≠ -1) ∧ b.openNewPort = some none)) := by
  have hmax : (maxPorts : Int) = 400 := rfl
  constructor
  · intro hlast'
    have hslot : slot? 400 = none := by decide
    rw [BridgeConnection.openNewPort, BridgeConnection.searchPort, hlast']
    show ((slot? 400).bind _).map _ = none
    rw [hslot]
    rfl
  · intro hne
    obtain ⟨i, hi, hall⟩ := searchPort_spec b (by omega) (maxPorts + 1) (b.lastAllocatedPort + 1)
      (by omega) (by show _ < ((400 : Nat) + 1 : Int); omega)
    rw [BridgeConnection.openNewPort, hi, Option.map_some]
    by_cases hfree : (b.services i).port = -1
    · exact .inl ⟨i, hfree, by rw [if_pos hfree]⟩
    · refine .inr ⟨fun j => hall hfree j ?_, by rw [if_neg hfree]⟩
      omega

end AapBridge.Accessory
