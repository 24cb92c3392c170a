import AapBridge.Accessory.InBounds

/-! # Ports that are taken and given back

`openNewPort` on every table and every value of `lastAllocatedPort` that
allocations and cleanups lead to, and the requests of the spawner, which takes a
port before it knows whether there will be a service.
-/

namespace AapBridge.Accessory

open AapBridge.Lib AapBridge.Lib.CMemory

/-! ## Allocations and cleanups -/

inductive PortLabel where
  | openNewPort
  | cleanupService (i : Slot)

/-- Allocations and cleanups, from the table of `initServer` on. -/
def portTable : Machine BridgeConnection PortLabel where
  init b := b = initServer
  step b
    | .openNewPort => b.openNewPort.map fun opened =>
        match opened with
        | some (_, b') => b'
        | none => b
    | .cleanupService i => some (b.cleanupService i)

/-- `lastAllocatedPort` is the number of an entry. -/
def LastInTable (b : BridgeConnection) : Prop :=
  0 ≤ b.lastAllocatedPort ∧ b.lastAllocatedPort < maxPorts

theorem LastInTable.step {b b' : BridgeConnection} {label : PortLabel} (h : LastInTable b)
    (hs : portTable.step b label = some b') : LastInTable b' := by
  cases label with
  | openNewPort =>
      obtain ⟨opened, hopened, rfl⟩ := Option.map_eq_some_iff.mp hs
      cases opened with
      | none => exact h
      | some found =>
          obtain ⟨i, c⟩ := found
          obtain ⟨-, rfl⟩ := openNewPort_free hopened
          have hi := i.isLt
          show 0 ≤ (i.val : Int) ∧ (i.val : Int) < maxPorts
          omega
  | cleanupService i =>
      cases hs
      have hlast : (b.cleanupService i).lastAllocatedPort = b.lastAllocatedPort := by
        unfold BridgeConnection.cleanupService
        split <;> rfl
      unfold LastInTable
      rw [hlast]
      exact h

theorem LastInTable.reachable {b : BridgeConnection} (h : portTable.Reachable b) : LastInTable b := by
  apply h.invariant
  · rintro _ rfl
    exact ⟨by decide, by decide⟩
  · exact fun _ _ _ hb hs => hb.step hs

/-! ## The search -/

/-- The search ends and reads no entry outside the table; it fails if and only if
all ports are in use, and else takes a free one and changes nothing but that. -/
structure Allocates (b : BridgeConnection) : Prop where
  ends : b.openNewPort.isSome
  full : b.openNewPort = some none ↔ ∀ i, (b.services i).port ≠ -1
  taken : ∀ i b', b.openNewPort = some (some (i, b')) →
    (b.services i).port = -1 ∧ b'.services i = { b.services i with port := i } ∧
      (∀ j, j ≠ i → b'.services j = b.services j) ∧ b'.lastAllocatedPort = i ∧
      b'.sent = b.sent ∧ b'.events = b.events

theorem Allocates.of_last {b : BridgeConnection} (h : LastInTable b)
    (hne : b.lastAllocatedPort ≠ 399) : Allocates b := by
  have hspec := (openNewPort_spec h).2 hne
  constructor
  · obtain ⟨i, -, hfound⟩ | ⟨-, hnone⟩ := hspec
    · rw [hfound]
      rfl
    · rw [hnone]
      rfl
  · obtain ⟨i, hfree, hfound⟩ | ⟨hused, hnone⟩ := hspec
    · rw [hfound]
      exact iff_of_false nofun fun hused => hused i hfree
    · exact iff_of_true hnone hused
  · intro i b' hopened
    obtain ⟨hfree, rfl⟩ := openNewPort_free hopened
    refine ⟨hfree, ?_, ?_, rfl, rfl, rfl⟩
    · show Function.update b.services i _ i = _
      rw [Function.update_self]
    · intro j hj
      show Function.update b.services i _ j = _
      rw [Function.update_of_ne hj]

/-- On every table, `openNewPort` is right exactly if the last entry was not the one
allocated last. -/
theorem openNewPort_allocates_iff (b c : BridgeConnection) (hc : portTable.Reachable c)
    (hlast : b.lastAllocatedPort = c.lastAllocatedPort) :
    Allocates b ↔ b.lastAllocatedPort ≠ 399 := by
  have hrange : LastInTable b := by
    unfold LastInTable
    rw [hlast]
    exact LastInTable.reachable hc
  constructor
  · intro h heq
    have hends := h.ends
    rw [(openNewPort_spec hrange).1 heq] at hends
    cases hends
  · exact .of_last hrange

/-- The first allocation of a connection. -/
theorem openNewPort_allocates_first : Allocates initServer :=
  (openNewPort_allocates_iff initServer initServer (.initial rfl) rfl).mpr (by decide)

/-- The entry behind the last one allocated is tried first. -/
theorem openNewPort_next {b : BridgeConnection} {i : Slot} (hnext : (i.val : Int) =
    b.lastAllocatedPort + 1) (hfree : (b.services i).port = -1) :
    b.openNewPort = some (some (i, b.allocate i)) := by
  have hi := i.isLt
  have hslot : slot? (b.lastAllocatedPort + 1) = some i := by
    rw [← hnext, slot?, dif_pos (by omega)]
    simp
  unfold BridgeConnection.openNewPort BridgeConnection.searchPort
  rw [hslot, Option.bind_some, if_neg (fun h => h.1 hfree), Option.map_some, if_pos hfree]

/-- One service after the other, none of them closed. -/
theorem allocated_in_order (n : Nat) (hn : n ≤ 397) : ∃ b, portTable.Reachable b ∧
    b.lastAllocatedPort = 2 + n ∧ ∀ i : Slot, 2 + n < i.val → (b.services i).port = -1 := by
  induction n with
  | zero =>
      refine ⟨initServer, .initial rfl, rfl, fun i hi => ?_⟩
      have h0 : i.val ≠ 0 := by omega
      have h1 : i.val ≠ 1 := by omega
      have h2 : i.val ≠ 2 := by omega
      simp only [initServer, h0, h1, h2, if_false]
      rfl
  | succ n ih =>
      obtain ⟨b, hreach, hlast, hfree⟩ := ih (by omega)
      have hmax : maxPorts = 400 := rfl
      have hopen := openNewPort_next (b := b) (i := ⟨3 + n, by omega⟩)
        (by rw [hlast]; push_cast; omega) (hfree _ (by show 2 + n < 3 + n; omega))
      refine ⟨b.allocate ⟨3 + n, by omega⟩, hreach.next (a := .openNewPort) ?_, ?_, fun i hi => ?_⟩
      · show b.openNewPort.map _ = _
        rw [hopen]
        rfl
      · show ((3 + n : Nat) : Int) = 2 + (n + 1 : Nat)
        omega
      · have hne : i ≠ ⟨3 + n, by omega⟩ := by
          intro heq
          have hval : i.val = 3 + n := congrArg Fin.val heq
          omega
        show (Function.update b.services _ _ i).port = -1
        rw [Function.update_of_ne hne]
        exact hfree i (by omega)

/-- After 397 allocations the search starts at entry 400. -/
theorem openNewPort_reads_entry_400 :
    ¬∀ b c : BridgeConnection, portTable.Reachable c →
      b.lastAllocatedPort = c.lastAllocatedPort → Allocates b := by
  intro h
  obtain ⟨b, hreach, hlast, -⟩ := allocated_in_order 397 (by decide)
  have hends := (h b b hreach rfl).ends
  rw [(openNewPort_spec (LastInTable.reachable hreach)).1 hlast] at hends
  cases hends

/-! ## Requests -/

/-- The protocol is known and its `Init` succeeds. -/
def Granted (buffer : List UInt8) (env : Environment) : Prop :=
  buffer[1]? = some 1 ∧ (env.fifos && env.notified && env.started) = true ∨
    (buffer[1]? = some 2 ∨ buffer[1]? = some 3) ∧ env.bus = true

/-- There is one response, of eight bytes, on the spawner's port, and if it says
STREAM_DENIED no entry of the table has changed. -/
def DeniedUnchanged (b : BridgeConnection) (i : Slot) (buffer : List UInt8) (env : Environment) :
    Prop :=
  ∃ b' response, b.serviceSpawnerOnBytesReceived i buffer env = some b' ∧ response.length = 8 ∧
    b'.sent = b.sent ++ [⟨BitVec.ofInt 16 (b.services i).port, 8, response⟩] ∧
    (response[3]? = some 0x02 → b'.services = b.services)

theorem bulkInit_value {mem : List UInt8} {busname : Nat} {env : Environment} {started : Bool}
    (h : bulkInit mem busname env = some started) :
    started = (env.fifos && env.notified && env.started) := by
  obtain ⟨objectpath, -, h⟩ := Option.bind_eq_some_iff.mp h
  obtain ⟨arguments_for_payload, -, h⟩ := Option.bind_eq_some_iff.mp h
  split at h
  · next hnotified =>
    obtain ⟨_, -, rfl⟩ := Option.map_eq_some_iff.mp h
    rw [hnotified, Bool.true_and]
  · next hnotified =>
    cases h
    rw [Bool.eq_false_of_not_eq_true hnotified, Bool.false_and]

theorem signalsInit_value {mem : List UInt8} {compressed_rule : Nat} {env : Environment}
    {started : Bool} (h : signalsInit mem compressed_rule env = some started) : started = env.bus := by
  unfold signalsInit at h
  split at h
  · next hbus =>
    obtain ⟨objectpath, -, h⟩ := Option.bind_eq_some_iff.mp h
    obtain ⟨interfacename, -, h⟩ := Option.bind_eq_some_iff.mp h
    obtain ⟨signalname, -, h⟩ := Option.bind_eq_some_iff.mp h
    obtain ⟨_, -, rfl⟩ := Option.map_eq_some_iff.mp h
    exact hbus.symm
  · next hbus =>
    cases h
    exact (Bool.eq_false_of_not_eq_true hbus).symm

/-- The five outcomes of a request whose reads are in range: no port, a service on
the port that was taken, or a denial that keeps the port. -/
inductive RequestOutcome (b : BridgeConnection) (i : Slot) (buffer : List UInt8)
    (env : Environment) : BridgeConnection → Prop
  | full (used : ∀ j, (b.services j).port ≠ -1) :
      RequestOutcome b i buffer env (b.writeAllPort i (deniedResponse 5))
  | opened (slot : Slot) (protocol : BridgeConnection.Protocol) (free : (b.services slot).port = -1)
      (granted : Granted buffer env) : RequestOutcome b i buffer env
        (((b.allocate slot).install slot protocol).writeAllPort i (openResponse slot))
  | denied (slot : Slot) (error : UInt8) (free : (b.services slot).port = -1)
      (refused : ¬Granted buffer env) : RequestOutcome b i buffer env
        ((b.allocate slot).writeAllPort i (deniedResponse error))

theorem RequestOutcome.respond {b : BridgeConnection} {i slot : Slot} {buffer : List UInt8}
    {env : Environment} (hfree : (b.services slot).port = -1) (protocol : BridgeConnection.Protocol)
    (error : UInt8) {service_data : Bool} (hgranted : service_data = true ↔ Granted buffer env) :
    RequestOutcome b i buffer env ((b.allocate slot).respond i slot protocol error service_data) := by
  unfold BridgeConnection.respond
  split
  · next hdata => exact .opened slot protocol hfree (hgranted.mp hdata)
  · next hdata => exact .denied slot error hfree fun h => hdata (hgranted.mpr h)

theorem request_outcome {b b' : BridgeConnection} {i : Slot} {buffer : List UInt8}
    {env : Environment} (hlast : LastInTable b)
    (hs : b.serviceSpawnerOnBytesReceived i buffer env = some b') :
    RequestOutcome b i buffer env b' := by
  obtain ⟨request, hload, hs⟩ := Option.bind_eq_some_iff.mp hs
  obtain ⟨opened, hopened, hs⟩ := Option.bind_eq_some_iff.mp hs
  have hprotocol : buffer[1]? = some (request.headD 0) := by
    match buffer with
    | [] | [_] | [_, _] | [_, _, _] => simp [load] at hload
    | b0 :: protocol :: b2 :: b3 :: arguments =>
        simp [load] at hload
        subst hload
        rfl
  cases opened with
  | none =>
      cases hs
      apply RequestOutcome.full
      have hne : b.lastAllocatedPort ≠ 399 := by
        intro heq
        rw [(openNewPort_spec hlast).1 heq] at hopened
        cases hopened
      exact (Allocates.of_last hlast hne).full.mp hopened
  | some found =>
      obtain ⟨slot, c⟩ := found
      obtain ⟨hfree, rfl⟩ := openNewPort_free hopened
      have hgranted : Granted buffer env ↔
          request.headD 0 = 1 ∧ (env.fifos && env.notified && env.started) = true ∨
            (request.headD 0 = 2 ∨ request.headD 0 = 3) ∧ env.bus = true := by
        unfold Granted
        rw [hprotocol]
        simp only [Option.some.injEq]
      simp only at hs
      split at hs
      · next h1 =>
        obtain ⟨started, hstarted, rfl⟩ := Option.map_eq_some_iff.mp hs
        apply RequestOutcome.respond hfree
        rw [hgranted, bulkInit_value hstarted, h1]
        simp
      · next h1 =>
        split at hs
        · next h2 =>
          cases hs
          apply RequestOutcome.respond hfree
          rw [hgranted, h2]
          simp
        · next h2 =>
          split at hs
          · next h3 =>
            obtain ⟨started, hstarted, rfl⟩ := Option.map_eq_some_iff.mp hs
            apply RequestOutcome.respond hfree
            rw [hgranted, signalsInit_value hstarted, h3]
            simp
          · next h3 =>
            cases hs
            apply RequestOutcome.denied slot 1 hfree
            rintro hyes
            obtain ⟨hbulk, -⟩ | ⟨hbus, -⟩ := hgranted.mp hyes
            · exact h1 hbulk
            · exact hbus.elim h2 h3

/-- A denial behind a port that was found has taken it. -/
theorem DeniedUnchanged.granted {b : BridgeConnection} {i j : Slot} {buffer : List UInt8}
    {env : Environment} (hlast : LastInTable b) (h : DeniedUnchanged b i buffer env)
    (hj : (b.services j).port = -1) : Granted buffer env := by
  obtain ⟨b', response, hs, -, hsent, hdenied⟩ := h
  cases request_outcome hlast hs with
  | full hused => exact absurd hj (hused j)
  | opened slot protocol hfree hgranted => exact hgranted
  | denied slot error hfree hrefused =>
      have hresponse : deniedResponse error = response := by
        have hmessage := List.append_cancel_left hsent
        simp only [List.cons.injEq, MultiplexedMessage.mk.injEq, and_true] at hmessage
        exact hmessage.2.2
      have hsame := hdenied (by rw [← hresponse]; rfl)
      have hport : (((b.allocate slot).writeAllPort i (deniedResponse error)).services slot).port =
          slot := by
        show (Function.update b.services slot _ slot).port = _
        rw [Function.update_self]
      rw [hsame, hfree] at hport
      omega

/-- A request leaves the table alone when it is denied, exactly if its reads are in
range and either no port is free or the service is started. -/
theorem denied_unchanged_iff (b c : BridgeConnection) (i : Slot) (buffer : List UInt8)
    (env : Environment) (hc : portTable.Reachable c)
    (hlast : b.lastAllocatedPort = c.lastAllocatedPort) (hi : (b.services i).port ≠ -1) :
    DeniedUnchanged b i buffer env ↔ RequestInside b buffer env ∧
      ((∃ j, (b.services j).port = -1) → Granted buffer env) := by
  have hrange : LastInTable b := by
    unfold LastInTable
    rw [hlast]
    exact LastInTable.reachable hc
  have hinside : (b.serviceSpawnerOnBytesReceived i buffer env).isSome ↔ RequestInside b buffer env :=
    serviceSpawner_isSome hrange
  -- the spawner's own entry is not the one that is taken
  have hown : ∀ slot, (b.services slot).port = -1 →
      ((b.allocate slot).services i).port = (b.services i).port := by
    intro slot hfree
    have hne : i ≠ slot := by
      rintro rfl
      exact hi hfree
    show (Function.update b.services slot _ i).port = _
    rw [Function.update_of_ne hne]
  constructor
  · intro h
    have hs := h.choose_spec.choose_spec.1
    exact ⟨hinside.mp (by rw [hs]; rfl), fun ⟨j, hj⟩ => h.granted hrange hj⟩
  · rintro ⟨hreads, hgranted⟩
    obtain ⟨b', hs⟩ := Option.isSome_iff_exists.mp (hinside.mpr hreads)
    cases request_outcome hrange hs with
    | full hused => exact ⟨_, deniedResponse 5, hs, rfl, rfl, fun _ => rfl⟩
    | opened slot protocol hfree _ =>
        refine ⟨_, openResponse slot, hs, rfl, ?_, nofun⟩
        have hport : (((b.allocate slot).install slot protocol).services i).port =
            (b.services i).port := by
          have hne : i ≠ slot := by
            rintro rfl
            exact hi hfree
          rw [BridgeConnection.install, BridgeConnection.modify_services_ne _ hne]
          exact hown slot hfree
        show _ ++ [(⟨BitVec.ofInt 16 (((b.allocate slot).install slot protocol).services i).port,
          8, _⟩ : MultiplexedMessage)] = _
        rw [hport]
        rfl
    | denied slot error hfree hrefused => exact absurd (hgranted ⟨slot, hfree⟩) hrefused

private def noBus : Environment := ⟨true, true, true, false, [], none⟩

/-- A request for a method service, with a bus. -/
theorem denied_unchanged_method :
    DeniedUnchanged initServer spawnerService [0x6f, 2, 0, 0] { noBus with bus := true } :=
  (denied_unchanged_iff initServer initServer spawnerService [0x6f, 2, 0, 0]
    { noBus with bus := true } (.initial rfl) rfl (by decide)).mpr
    ⟨⟨by decide, by decide, fun _ => ⟨nofun, nofun⟩⟩, fun _ => .inr ⟨.inl rfl, rfl⟩⟩

/-- A request for an unknown service is denied, and entry 3 stays taken. -/
theorem denied_request_takes_port :
    ¬∀ (b c : BridgeConnection) (i : Slot) (buffer : List UInt8) (env : Environment),
      portTable.Reachable c → b.lastAllocatedPort = c.lastAllocatedPort →
      (b.services i).port ≠ -1 → DeniedUnchanged b i buffer env := by
  intro h
  have hdenied := h initServer initServer spawnerService [0x6f, 9, 0, 0] noBus (.initial rfl) rfl
    (by decide)
  have hgranted := hdenied.granted (j := ⟨3, by decide⟩) ⟨by decide, by decide⟩ (by decide)
  simp [Granted] at hgranted

end AapBridge.Accessory
