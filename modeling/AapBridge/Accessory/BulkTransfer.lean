import AapBridge.Lib.Machine
import AapBridge.Accessory.Service

/-! # Data for a bulk transfer

`BulkOnBytesReceived` one `write` at a time, for the frames that
`sendToCorrectService` delivers to an open bulk service. A `write` may come back
short; the loop then asks for fewer bytes, from the start of the payload again.
-/

namespace AapBridge.Accessory

open AapBridge.Lib

/-- A call of `BulkOnBytesReceived`: its buffer and what is left of `size`. -/
structure BulkCall where
  buffer : List UInt8
  size : Int

/-- `accepted` is what the fifo has taken so far, `delivered` the payloads of the
frames delivered so far, `failed` whether a `write` has returned an error. -/
structure BulkState where
  bridge : BridgeConnection
  call : Option BulkCall
  accepted : List UInt8
  delivered : List UInt8
  failed : Bool

inductive BulkLabel where
  | frame (payload : List UInt8)
  | write (outcome : Int)
  | finish

/-- The entry belongs to a bulk transfer whose fifo and input are open. -/
def BridgeService.bulkOpen (service : BridgeService) : Bool :=
  service.port ≠ -1 && service.inputOpen &&
    service.onBytesReceived = some .bulkOnBytesReceived &&
    match service.serviceData with
    | some (.bulk fd) => fd ≠ -1
    | _ => false

namespace BulkState

/-- `write` returns -1, or a count from 1 to the size asked for. -/
def step (i : Slot) (s : BulkState) : BulkLabel → Option BulkState
  | .frame payload =>
      if s.call.isNone && (s.bridge.services i).bulkOpen then
        some { s with
          bridge := s.bridge.log i (.onBytesReceived .bulkOnBytesReceived)
          call := some ⟨payload, payload.length⟩
          delivered := s.delivered ++ payload }
      else none
  | .write outcome =>
      match s.call with
      | some ⟨buffer, size⟩ =>
          if size > 0 then
            if outcome = -1 then
              some { s with bridge := s.bridge.sendClose i, call := none, failed := true }
            else if 1 ≤ outcome ∧ outcome ≤ size then
              some { s with
                call := some ⟨buffer, size - outcome⟩
                accepted := s.accepted ++ buffer.take outcome.toNat }
            else none
          else none
      | none => none
  | .finish =>
      match s.call with
      | some ⟨_, size⟩ => if size > 0 then none else some { s with call := none }
      | none => none

/-- Nothing has been delivered. -/
structure Initial (s : BulkState) : Prop where
  call : s.call = none
  accepted : s.accepted = []
  delivered : s.delivered = []
  failed : s.failed = false

end BulkState

def bulkTransfer (i : Slot) : Machine BulkState BulkLabel where
  init := BulkState.Initial
  step := BulkState.step i

namespace BulkState

/-- What the fifo has taken is the beginning of what was delivered, and all of it
once the frames have been handled. -/
def Unaltered (s : BulkState) : Prop :=
  s.accepted <+: s.delivered ∧ (s.call = none → s.failed = false → s.accepted = s.delivered)

/-- What a `write` takes from the start of the payload is what it should take behind
the bytes taken before. -/
def TakesNext (s : BulkState) (label : BulkLabel) : Prop :=
  ∀ outcome buffer size, label = .write outcome → s.call = some ⟨buffer, size⟩ → outcome ≠ -1 →
    (buffer.drop (buffer.length - size.toNat)).take outcome.toNat = buffer.take outcome.toNat

/-- Where the transfer stands between two calls, and within one. -/
structure Settled (i : Slot) (s : BulkState) : Prop where
  failed : s.failed = true → s.call = none ∧ (s.bridge.services i).bulkOpen = false
  idle : s.call = none → s.failed = false → s.accepted = s.delivered
  busy : ∀ buffer size, s.call = some ⟨buffer, size⟩ →
    0 ≤ size ∧ size ≤ buffer.length ∧ ∃ before, s.delivered = before ++ buffer ∧
      s.accepted = before ++ buffer.take (buffer.length - size.toNat)

variable {i : Slot} {s t : BulkState}

/-! ## What a step does -/

theorem step_frame {payload : List UInt8} (h : step i s (.frame payload) = some t) :
    s.call = none ∧ (s.bridge.services i).bulkOpen = true ∧
      t = { s with
        bridge := s.bridge.log i (.onBytesReceived .bulkOnBytesReceived)
        call := some ⟨payload, payload.length⟩
        delivered := s.delivered ++ payload } := by
  simp only [step, Option.ite_none_right_eq_some, Bool.and_eq_true, Option.isNone_iff_eq_none] at h
  exact ⟨h.1.1, h.1.2, (Option.some.inj h.2).symm⟩

theorem step_write {outcome : Int} (h : step i s (.write outcome) = some t) :
    ∃ buffer size, s.call = some ⟨buffer, size⟩ ∧ 0 < size ∧
      (outcome = -1 ∧
          t = { s with bridge := s.bridge.sendClose i, call := none, failed := true } ∨
        outcome ≠ -1 ∧ 1 ≤ outcome ∧ outcome ≤ size ∧ t = { s with
          call := some ⟨buffer, size - outcome⟩
          accepted := s.accepted ++ buffer.take outcome.toNat }) := by
  simp only [step] at h
  split at h
  · next buffer size hcall =>
    split at h
    · next hsize =>
      refine ⟨buffer, size, hcall, hsize, ?_⟩
      split at h
      · next herror => exact .inl ⟨herror, (Option.some.inj h).symm⟩
      · next herror =>
        split at h
        · next hcount => exact .inr ⟨herror, hcount.1, hcount.2, (Option.some.inj h).symm⟩
        · cases h
    · cases h
  · cases h

theorem step_finish (h : step i s .finish = some t) :
    ∃ buffer size, s.call = some ⟨buffer, size⟩ ∧ size ≤ 0 ∧ t = { s with call := none } := by
  simp only [step] at h
  split at h
  · next buffer size hcall =>
    split at h
    · cases h
    · next hsize => exact ⟨buffer, size, hcall, not_lt.mp hsize, (Option.some.inj h).symm⟩
  · cases h

/-- `sendClose` closes the input, or the entry altogether. -/
theorem bulkOpen_sendClose (b : BridgeConnection) (i : Slot) :
    ((b.sendClose i).services i).bulkOpen = false := by
  have hclosed : ∀ c : BridgeConnection, (c.services i).inputOpen = false →
      ((c.cleanupIfClosed i).services i).bulkOpen = false := by
    intro c hinput
    unfold BridgeConnection.cleanupIfClosed
    split
    · simp [BridgeConnection.cleanupService, BridgeConnection.modify, BridgeService.bulkOpen,
        BridgeService.unused]
    · simp [BridgeService.bulkOpen, hinput]
  apply hclosed
  simp [BridgeConnection.closeInput, BridgeConnection.log, BridgeConnection.modify,
    BridgeConnection.writeAllPort]

/-! ## The call as a whole -/

/-! ## The data of one step -/

theorem frame_settled {payload : List UInt8} (hsettled : Settled i s)
    (h : step i s (.frame payload) = some t) : t.Unaltered ∧ Settled i t := by
  obtain ⟨hcall, hopen, rfl⟩ := step_frame h
  have hworks : s.failed = false := by
    cases hfailed : s.failed with
    | false => rfl
    | true =>
        rw [(hsettled.failed hfailed).2] at hopen
        cases hopen
  have hall := hsettled.idle hcall hworks
  constructor
  · refine ⟨?_, nofun⟩
    show s.accepted <+: s.delivered ++ payload
    rw [hall]
    exact List.prefix_append s.delivered payload
  · refine ⟨?_, nofun, ?_⟩
    · intro hfailed
      rw [hworks] at hfailed
      cases hfailed
    · intro buffer size hbusy
      cases hbusy
      refine ⟨Int.natCast_nonneg _, le_refl _, s.delivered, rfl, ?_⟩
      rw [Int.toNat_natCast, Nat.sub_self, List.take_zero, List.append_nil]
      exact hall

theorem finish_settled (hsettled : Settled i s) (h : step i s .finish = some t) :
    t.Unaltered ∧ Settled i t := by
  obtain ⟨buffer, size, hcall, hsize, rfl⟩ := step_finish h
  obtain ⟨hlow, -, before, hdelivered, haccepted⟩ := hsettled.busy buffer size hcall
  have hzero : size = 0 := le_antisymm hsize hlow
  have hall : s.accepted = s.delivered := by
    rw [haccepted, hdelivered, hzero, Int.toNat_zero, Nat.sub_zero, List.take_length]
  constructor
  · refine ⟨?_, fun _ _ => hall⟩
    show s.accepted <+: s.delivered
    rw [hall]
  · refine ⟨?_, fun _ _ => hall, nofun⟩
    intro hfailed
    rw [(hsettled.failed hfailed).1] at hcall
    cases hcall

/-- The bytes taken by a write continue those taken before exactly if they are next. -/
theorem continues_iff {before buffer : List UInt8} {taken count : ℕ} (h : taken + count ≤ buffer.length) :
    before ++ buffer.take taken ++ buffer.take count <+: before ++ buffer ↔
      (buffer.drop taken).take count = buffer.take count := by
  have hsplit : before ++ buffer = before ++ buffer.take taken ++ buffer.drop taken := by
    rw [List.append_assoc, List.take_append_drop]
  rw [hsplit, List.prefix_append_right_inj, List.prefix_iff_eq_take, List.length_take,
    Nat.min_eq_left (by omega)]
  exact eq_comm

/-- A `write` that fails takes nothing; any other takes the first bytes of the payload. -/
theorem write_settled {outcome : Int} (hsettled : Settled i s) (hgood : s.Unaltered)
    (h : step i s (.write outcome) = some t) :
    (t.Unaltered ↔ s.TakesNext (.write outcome)) ∧ (t.Unaltered → Settled i t) := by
  obtain ⟨buffer, size, hcall, hsize, ⟨herror, rfl⟩ | ⟨herror, hone, hmost, rfl⟩⟩ := step_write h
  · constructor
    · apply iff_of_true ⟨hgood.1, nofun⟩
      intro count buffer size hlabel _ hcount
      cases hlabel
      exact absurd herror hcount
    · intro _
      exact ⟨fun _ => ⟨rfl, bulkOpen_sendClose s.bridge i⟩, nofun, nofun⟩
  · obtain ⟨hlow, hhigh, before, hdelivered, haccepted⟩ := hsettled.busy buffer size hcall
    have hcontinues := @continues_iff before buffer (buffer.length - size.toNat) outcome.toNat (by omega)
    rw [← hdelivered, ← haccepted] at hcontinues
    constructor
    · constructor
      · rintro ⟨hbegins, -⟩ count buffer' size' hlabel hcall' -
        cases hlabel
        rw [hcall] at hcall'
        cases hcall'
        exact hcontinues.mp hbegins
      · intro hnext
        exact ⟨hcontinues.mpr (hnext outcome buffer size rfl hcall herror), nofun⟩
    · rintro ⟨hbegins, -⟩
      refine ⟨?_, nofun, ?_⟩
      · intro hfailed
        rw [(hsettled.failed hfailed).1] at hcall
        cases hcall
      · intro buffer' size' hbusy
        cases hbusy
        refine ⟨by omega, by omega, before, hdelivered, ?_⟩
        show s.accepted ++ buffer.take outcome.toNat = _
        rw [← hcontinues.mp hbegins, haccepted, List.append_assoc, ← List.take_add]
        congr 2
        omega

theorem step_unaltered {label : BulkLabel} (hsettled : Settled i s) (hgood : s.Unaltered)
    (h : step i s label = some t) : (t.Unaltered ↔ s.TakesNext label) ∧ (t.Unaltered → Settled i t) := by
  cases label with
  | frame payload =>
      have hframe := frame_settled hsettled h
      exact ⟨iff_of_true hframe.1 nofun, fun _ => hframe.2⟩
  | write outcome => exact write_settled hsettled hgood h
  | finish =>
      have hfinish := finish_settled hsettled h
      exact ⟨iff_of_true hfinish.1 nofun, fun _ => hfinish.2⟩

end BulkState

/-! ## Whole runs -/

namespace BulkState

theorem Initial.settled {i : Slot} {s : BulkState} (h : s.Initial) : s.Unaltered ∧ Settled i s := by
  have hall : s.accepted = s.delivered := by rw [h.accepted, h.delivered]
  constructor
  · refine ⟨?_, fun _ _ => hall⟩
    rw [hall]
  · refine ⟨?_, fun _ _ => hall, ?_⟩
    · intro hfailed
      rw [h.failed] at hfailed
      cases hfailed
    · intro buffer size hbusy
      rw [h.call] at hbusy
      cases hbusy

end BulkState

/-- At every moment of a run the fifo holds the beginning of what was delivered,
and all of it once everything is handled, exactly if every `write` behind the
first of its frame takes bytes that are those it should take. -/
theorem bulk_unaltered_iff {i : Slot} {s t : BulkState} {labels : List BulkLabel}
    (hinit : (bulkTransfer i).init s) (hr : (bulkTransfer i).run s labels = some t) :
    (∀ k u, (bulkTransfer i).run s (labels.take k) = some u → u.Unaltered) ↔
      (bulkTransfer i).Along BulkState.TakesNext s labels := by
  have hstart := BulkState.Initial.settled (i := i) hinit
  exact Machine.always_iff_along (fun s label t hgood hsettled h => BulkState.step_unaltered hsettled hgood h)
    hstart.1 hstart.2 hr

/-- The first entry that a service can get. -/
def bulkSlot : Slot := ⟨3, three_inside⟩

/-- Nothing has been delivered to the transfer that the entry holds. -/
def bulkStart : BulkState where
  bridge := (initServer.allocate bulkSlot).install bulkSlot .bulk
  call := none
  accepted := []
  delivered := []
  failed := false

theorem bulkStart_initial : (bulkTransfer bulkSlot).init bulkStart := ⟨rfl, rfl, rfl, rfl⟩

/-- A frame taken by one `write`. -/
def wholeWrite : List BulkLabel := [.frame [1, 2], .write 2, .finish]

theorem wholeWrite_unaltered : ∃ t, (bulkTransfer bulkSlot).run bulkStart wholeWrite = some t ∧
    ∀ k u, (bulkTransfer bulkSlot).run bulkStart (wholeWrite.take k) = some u → u.Unaltered := by
  have hrun : ((bulkTransfer bulkSlot).run bulkStart wholeWrite).isSome := by decide
  obtain ⟨t, ht⟩ := Option.isSome_iff_exists.mp hrun
  refine ⟨t, ht, ?_⟩
  apply (bulk_unaltered_iff bulkStart_initial ht).mpr
  refine ⟨nofun, ?_⟩
  intro busy hbusy
  obtain ⟨-, -, rfl⟩ := BulkState.step_frame (i := bulkSlot) (s := bulkStart) (t := busy) hbusy
  refine ⟨?_, fun taken _ => ⟨nofun, fun _ _ => trivial⟩⟩
  intro outcome buffer size hlabel hcall _
  cases hlabel
  cases hcall
  rfl

/-- A frame whose first byte is taken alone, and then taken again for the second. -/
def shortWrite : List BulkLabel := [.frame [1, 2], .write 1, .write 1, .finish]

theorem shortWrite_altered : ¬∀ (i : Slot) (s t : BulkState) (labels : List BulkLabel),
    (bulkTransfer i).init s → (bulkTransfer i).run s labels = some t →
      ∀ k u, (bulkTransfer i).run s (labels.take k) = some u → u.Unaltered := by
  intro h
  have hrun : ((bulkTransfer bulkSlot).run bulkStart shortWrite).map
      (fun t => (t.accepted, t.delivered)) = some ([1, 1], [1, 2]) := by decide
  obtain ⟨t, ht, hdata⟩ := Option.map_eq_some_iff.mp hrun
  have hbegins := (h bulkSlot bulkStart t shortWrite bulkStart_initial ht 4 t ht).1
  rw [Prod.mk.injEq] at hdata
  rw [hdata.1, hdata.2] at hbegins
  exact absurd hbegins (by decide)

end AapBridge.Accessory
