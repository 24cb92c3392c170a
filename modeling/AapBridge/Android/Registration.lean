import AapBridge.Android.Opening

/-! # Nothing is lost between the response and the registration

Between the response for a port and the last assignment of the constructor, a
frame for the port is skipped, or ends the receiver. If no frame is looked up in
that gap, and an entry of `activeServices` is assigned only on behalf of the last
service on its port, every frame for a service whose input is open is handed to it.
-/

namespace AapBridge.Android

open AapBridge.Lib
open AapBridge.Accessory (Slot slot? MultiplexedMessage)

variable {Tid Sid P : Type*}

namespace ReceivingState

variable {s t : ReceivingState Tid Sid P}

/-! ## What the receiver and the closing threads change -/

/-- Flags are cleared, and entries of services with a closed input are dropped. -/
structure Fades (s t : ReceivingState Tid Sid P) : Prop where
  port : t.port = s.port
  kind : t.kind = s.kind
  ports : ∀ x, (t.ports x).inputOpen = true → (s.ports x).inputOpen = true
  entries : ∀ i, t.activeServices i = s.activeServices i ∨
    t.activeServices i = none ∧ ∃ x, s.portAt i = some x ∧ (s.ports x).inputOpen = false

theorem Fades.same (hport : t.port = s.port) (hkind : t.kind = s.kind) (hports : t.ports = s.ports)
    (hentries : t.activeServices = s.activeServices) : Fades s t where
  port := hport
  kind := hkind
  ports x hx := by rwa [hports] at hx
  entries i := .inl (congrFun hentries i)

/-- An assignment to the flags of one port that opens nothing. -/
theorem Fades.modifyPort [DecidableEq P] (x : P) {f : Port → Port}
    (hf : ∀ port, (f port).inputOpen = true → port.inputOpen = true) :
    Fades s (s.modifyPort x f) where
  port := rfl
  kind := rfl
  ports y hy := by
    change (Function.update s.ports x (f (s.ports x)) y).inputOpen = true at hy
    by_cases hyx : y = x
    · subst hyx
      rw [Function.update_self] at hy
      exact hf _ hy
    · rwa [Function.update_of_ne hyx] at hy
  entries _ := .inl rfl

theorem clear_inputOpen (g : HalfClose.Signal) (own : Bool) (port : Port)
    (h : (Phone.clear g own port).inputOpen = true) : port.inputOpen = true := by
  cases g <;> cases own <;> simp_all [Phone.clear]

theorem Fades.dropEntry {i : Slot} {x : P} (hx : s.portAt i = some x)
    (hclosed : (s.ports x).inputOpen = false) : Fades s (s.dropEntry i) where
  port := rfl
  kind := rfl
  ports _ hx := hx
  entries j := by
    by_cases hji : j = i
    · subst hji
      exact .inr ⟨Function.update_self _ _ _, x, hx, hclosed⟩
    · exact .inl (Function.update_of_ne hji _ _)

/-- What the receiver does to the flags and the table in one step. -/
inductive TableStep [DecidableEq P] (s : ReceivingState Tid Sid P) : ReceivingState Tid Sid P → Prop
  | same {t : ReceivingState Tid Sid P} (port : t.port = s.port) (kind : t.kind = s.kind)
      (ports : t.ports = s.ports) (entries : t.activeServices = s.activeServices)
      (sent : t.sent = s.sent) : TableStep s t
  | clear {i : Slot} {status : UInt8} {x : P} (receiver : s.receiver = .statusSwitch i status)
      (portAt : s.portAt i = some x) :
      TableStep s ((s.modifyPort x
        (Phone.clear (if status = 3 then .eof else .close) false)).enter (.statusCleanup i))
  | drop {i : Slot} {x : P} (receiver : s.receiver = .statusCleanup i) (portAt : s.portAt i = some x)
      (test : PortStatus.cleanupTest (s.ports x) = true) : TableStep s (s.dropEntry i).next

theorem onDataReady_tables [DecidableEq P] (s : ReceivingState Tid Sid P) (service : Sid) (length : Short) :
    TableStep s (s.onDataReady service length) := by
  unfold onDataReady
  cases s.kind service with
  | portStatus => dsimp only; split <;> exact .same rfl rfl rfl rfl rfl
  | serviceSpawner => exact .same rfl rfl rfl rfl rfl
  | keepalive => exact .same rfl rfl rfl rfl rfl
  | dbusMethods | dbusSignals | bulkTransfer =>
      dsimp only
      split <;> exact .same rfl rfl rfl rfl rfl

theorem handle_tables [DecidableEq P] (s : ReceivingState Tid Sid P) (service : Sid) (bytes : List UInt8) :
    TableStep s (s.handle service bytes) := by
  unfold ReceivingState.handle
  cases s.kind service with
  | portStatus =>
      dsimp only
      split
      · split <;> exact .same rfl rfl rfl rfl rfl
      · exact .same rfl rfl rfl rfl rfl
  | serviceSpawner =>
      dsimp only [spawnerResponse]
      split
      · split <;> exact .same rfl rfl rfl rfl rfl
      · exact .same rfl rfl rfl rfl rfl
  | dbusMethods | dbusSignals =>
      dsimp only
      split <;> exact .same rfl rfl rfl rfl rfl
  | keepalive | bulkTransfer => exact .same rfl rfl rfl rfl rfl

/-- What a step of the receiver assigns: nothing, a flag, or null to an entry. -/
theorem receive_tables [DecidableEq P] {n : Nat} (h : s.receive n = some t) : TableStep s t := by
  have hread : ∀ {requested : Nat} {r : List UInt8 × ReceivingState Tid Sid P}
      {pc : ReceiverThreadPc Sid}, s.read n requested = some r → TableStep s (r.2.enter pc) := by
    intro requested r pc hr
    rw [(read_spec hr).2.2.2.2]
    exact .same rfl rfl rfl rfl rfl
  unfold ReceivingState.receive at h
  cases hpc : s.receiver with
  | header bytes =>
      simp only [hpc] at h
      obtain ⟨r, hr, rfl⟩ := Option.map_eq_some_iff.mp h
      split <;> exact hread hr
  | lookup port dataLength =>
      simp only [hpc] at h
      split at h
      · cases h
        exact .same rfl rfl rfl rfl rfl
      · split at h <;> cases h <;> exact .same rfl rfl rfl rfl rfl
  | skip mustSkip =>
      simp only [hpc] at h
      split at h
      · obtain ⟨r, hr, rfl⟩ := Option.map_eq_some_iff.mp h
        exact hread hr
      · cases h
        exact .same rfl rfl rfl rfl rfl
  | test service dataLength =>
      simp only [hpc] at h
      split at h
      · cases h
        exact .same rfl rfl rfl rfl rfl
      · split at h <;> cases h
        · exact onDataReady_tables s service dataLength
        · exact .same rfl rfl rfl rfl rfl
  | readAll service bytes remaining =>
      simp only [hpc] at h
      split at h
      · cases h
        exact .same rfl rfl rfl rfl rfl
      · split at h
        · cases h
          exact .same rfl rfl rfl rfl rfl
        · split at h
          · obtain ⟨r, hr, rfl⟩ := Option.map_eq_some_iff.mp h
            exact hread hr
          · cases h
            unfold readThrows
            split <;> exact .same rfl rfl rfl rfl rfl
  | skipRead i =>
      simp only [hpc] at h
      split at h
      · obtain ⟨r, hr, rfl⟩ := Option.map_eq_some_iff.mp h
        exact hread hr
      · cases h
        exact .same rfl rfl rfl rfl rfl
  | handle service bytes =>
      simp only [hpc] at h
      cases h
      exact handle_tables s service bytes
  | statusTest port status =>
      simp only [hpc] at h
      split at h <;> cases h <;> exact .same rfl rfl rfl rfl rfl
  | statusSwitch port status =>
      simp only [hpc] at h
      split at h
      · split at h <;> cases h
        · exact .same rfl rfl rfl rfl rfl
        · next x hx => exact .clear hpc hx
      · cases h
        exact .same rfl rfl rfl rfl rfl
  | statusCleanup port =>
      simp only [hpc] at h
      split at h
      · cases h
        exact .same rfl rfl rfl rfl rfl
      · next x hx =>
        split at h
        · next htest =>
          cases h
          exact .drop hpc hx htest
        · cases h
          exact .same rfl rfl rfl rfl rfl
  | awaitDone =>
      simp only [hpc] at h
      split at h
      · cases h
        exact .same rfl rfl rfl rfl rfl
      · cases h
  | stopped =>
      simp only [hpc] at h
      cases h

theorem receive_sent [DecidableEq P] {n : Nat} (h : s.receive n = some t) : t.sent = s.sent := by
  cases receive_tables h with
  | same _ _ _ _ hsent => exact hsent
  | clear _ _ => rfl
  | drop _ _ _ => rfl

theorem fades_receive [DecidableEq P] {n : Nat} (h : s.receive n = some t) : Fades s t := by
  cases receive_tables h with
  | same hport hkind hports hentries _ => exact .same hport hkind hports hentries
  | @clear i status x _ _ =>
      have hcleared := Fades.modifyPort (s := s) x
        (clear_inputOpen (if status = 3 then .eof else .close) false)
      exact ⟨hcleared.port, hcleared.kind, hcleared.ports, hcleared.entries⟩
  | @drop i x _ hx htest =>
      have hclosed : (s.ports x).inputOpen = false := by
        simpa [PortStatus.cleanupTest] using htest
      have hdropped := Fades.dropEntry hx hclosed
      exact ⟨hdropped.port, hdropped.kind, hdropped.ports, hdropped.entries⟩

/-- An entry is dropped at the end of `close` and `eof` only by the service it is of. -/
def DropsOwn [DecidableEq Sid] [DecidableEq P] (s : ReceivingState Tid Sid P) (t : Tid) : Prop :=
  match s.app t with
  | .closeCleanup x | .eofCleanup x =>
      PortStatus.cleanupTest (s.ports x) = true →
        ∀ i ∈ slot? (s.ports x).portNr.toInt, ∀ service ∈ s.activeServices i, s.port service = some x
  | _ => True

instance [DecidableEq Sid] [DecidableEq P] (tid : Tid) : Decidable (s.DropsOwn tid) := by
  unfold DropsOwn
  split <;> infer_instance

theorem fades_dropService {x : P} (h : PortStatus.cleanupTest (s.ports x) = true →
    ∀ i ∈ slot? (s.ports x).portNr.toInt, ∀ service ∈ s.activeServices i, s.port service = some x) :
    Fades s (s.dropService x) := by
  unfold dropService
  split
  · exact .same rfl rfl rfl rfl
  · next i hi =>
    split
    · next htest =>
      have hown := h htest i hi
      have hclosed : (s.ports x).inputOpen = false := by
        simpa [PortStatus.cleanupTest] using htest
      cases hservice : s.activeServices i with
      | none =>
          have hnone : (s.dropEntry i).activeServices = s.activeServices := by
            show Function.update s.activeServices i none = s.activeServices
            rw [← hservice, Function.update_eq_self]
          exact .same rfl rfl rfl hnone
      | some service =>
          have hx : s.portAt i = some x := by
            rw [portAt, hservice]
            exact hown service hservice
          exact .dropEntry hx hclosed
    · exact .same rfl rfl rfl rfl

theorem fades_runApp [DecidableEq Tid] [DecidableEq Sid] [DecidableEq P] {tid : Tid}
    (hown : s.DropsOwn tid) (h : s.runApp tid = some t) : Fades s t ∧ t.receiver = s.receiver := by
  have hclear : ∀ g x pc, Fades s ((s.modifyPort x (Phone.clear g true)).at tid pc) := by
    intro g x pc
    have hcleared := Fades.modifyPort (s := s) x (clear_inputOpen g true)
    exact ⟨hcleared.port, hcleared.kind, hcleared.ports, hcleared.entries⟩
  unfold ReceivingState.runApp at h
  unfold DropsOwn at hown
  cases happ : s.app tid with
  | idle =>
      simp only [happ] at h
      cases h
  | closeClear x | eofClear x =>
      simp only [happ] at h
      cases h
      exact ⟨hclear _ x _, rfl⟩
  | closeWrite x | eofWrite x =>
      simp only [happ] at h
      cases h
      unfold writeStatus
      split <;> exact ⟨.same rfl rfl rfl rfl, rfl⟩
  | closeCleanup x | eofCleanup x =>
      simp only [happ] at h hown
      cases h
      have hdropped := fades_dropService hown
      constructor
      · exact ⟨hdropped.port, hdropped.kind, hdropped.ports, hdropped.entries⟩
      · unfold dropService
        split
        · rfl
        · split <;> rfl

/-! ## Where the receiver goes -/

/-- What is behind a step to the test of a flag, and behind the end of the thread. -/
def CameFrom (s : ReceivingState Tid Sid P) : ReceiverThreadPc Sid → Prop
  | .test service dataLength => ∃ port i, s.receiver = .lookup port dataLength ∧
      slot? port.toInt = some i ∧ s.activeServices i = some service
  | .stopped =>
      (∃ port dataLength, s.receiver = .lookup port dataLength ∧ slot? port.toInt = none) ∨
        (∃ service dataLength, s.receiver = .test service dataLength ∧
          (s.port service = none ∨ s.kind service = .portStatus ∧ dataLength.toInt ≠ 4)) ∨
        ∃ service bytes, s.receiver = .handle service bytes ∧
          (s.kind service).decodes = true ∧ DbusMessage.invalidEndian bytes = true
  | _ => True

theorem receive_cameFrom [DecidableEq P] {n : Nat} (h : s.receive n = some t) :
    s.CameFrom t.receiver := by
  unfold ReceivingState.receive at h
  cases hpc : s.receiver with
  | header bytes =>
      simp only [hpc] at h
      obtain ⟨r, -, rfl⟩ := Option.map_eq_some_iff.mp h
      split <;> trivial
  | lookup port dataLength =>
      simp only [hpc] at h
      split at h
      · next hslot =>
        cases h
        exact .inl ⟨port, dataLength, hpc, hslot⟩
      · next i hslot =>
        split at h
        · cases h
          trivial
        · next service hservice =>
          cases h
          exact ⟨port, i, hpc, hslot, hservice⟩
  | test service dataLength =>
      simp only [hpc] at h
      split at h
      · next hnull =>
        cases h
        exact .inr (.inl ⟨service, dataLength, hpc, .inl hnull⟩)
      · split at h <;> cases h
        · unfold onDataReady
          split
          · next hkind =>
            split
            · next hlength => exact .inr (.inl ⟨service, dataLength, hpc, .inr ⟨hkind, hlength⟩⟩)
            · trivial
          · trivial
          · trivial
          all_goals split <;> trivial
        · trivial
  | skip mustSkip =>
      simp only [hpc] at h
      split at h
      · obtain ⟨r, -, rfl⟩ := Option.map_eq_some_iff.mp h
        trivial
      · cases h
        trivial
  | readAll service bytes remaining =>
      simp only [hpc] at h
      split at h
      · cases h
        trivial
      · split at h
        · cases h
          trivial
        · split at h
          · obtain ⟨r, -, rfl⟩ := Option.map_eq_some_iff.mp h
            trivial
          · cases h
            unfold readThrows
            split <;> trivial
  | skipRead i =>
      simp only [hpc] at h
      split at h
      · obtain ⟨r, -, rfl⟩ := Option.map_eq_some_iff.mp h
        trivial
      · cases h
        trivial
  | handle service bytes =>
      simp only [hpc] at h
      cases h
      unfold ReceivingState.handle spawnerResponse
      cases hkind : s.kind service with
      | portStatus =>
          dsimp only
          split
          · split <;> trivial
          · trivial
      | serviceSpawner =>
          dsimp only
          split
          · split <;> trivial
          · trivial
      | dbusMethods | dbusSignals =>
          dsimp only
          split
          · next hinvalid => exact .inr (.inr ⟨service, bytes, hpc, by rw [hkind]; rfl, hinvalid⟩)
          · trivial
      | keepalive | bulkTransfer => trivial
  | statusTest port status =>
      simp only [hpc] at h
      split at h <;> cases h <;> trivial
  | statusSwitch port status =>
      simp only [hpc] at h
      split at h
      · split at h <;> cases h <;> trivial
      · cases h
        trivial
  | statusCleanup port =>
      simp only [hpc] at h
      split at h
      · cases h
        trivial
      · split at h <;> cases h <;> trivial
  | awaitDone =>
      simp only [hpc] at h
      split at h <;> cases h
      trivial
  | stopped =>
      simp only [hpc] at h
      cases h

/-- What a d-bus service has read begins as a d-bus message does. -/
def Marshalled (s : ReceivingState Tid Sid P) : ReceivingLabel Tid Sid P → Prop
  | .receive _ =>
      match s.receiver with
      | .handle service bytes =>
          (s.kind service).decodes = true → DbusMessage.invalidEndian bytes = false
      | _ => True
  | _ => True

def marshalled (s : ReceivingState Tid Sid P) : ReceivingLabel Tid Sid P → Bool
  | .receive _ =>
      match s.receiver with
      | .handle service bytes => !(s.kind service).decodes || !DbusMessage.invalidEndian bytes
      | _ => true
  | _ => true

theorem marshalled_iff (s : ReceivingState Tid Sid P) (label : ReceivingLabel Tid Sid P) :
    s.marshalled label = true ↔ s.Marshalled label := by
  cases label with
  | receive n =>
      unfold marshalled Marshalled
      dsimp only
      cases s.receiver <;> simp [imp_iff_not_or]
  | _ => exact iff_of_true rfl trivial

instance (s : ReceivingState Tid Sid P) (label : ReceivingLabel Tid Sid P) :
    Decidable (s.Marshalled label) := decidable_of_iff _ (marshalled_iff s label)

/-- On aligned frames the receiver stops only at a service without a port, and at a
payload that begins as no d-bus message does. -/
theorem Alignment.running [DecidableEq P] {n : Nat} (h : s.Alignment) (hs : s.receive n = some t)
    (hport : ∀ service dataLength, s.receiver = .test service dataLength → (s.port service).isSome)
    (hmarshalled : s.Marshalled (.receive n)) : t.receiver ≠ .stopped := by
  intro hstopped
  have hplace := h.place
  have hfrom := receive_cameFrom hs
  rw [hstopped] at hfrom
  unfold Place at hplace
  obtain ⟨port, dataLength, hpc, hslot⟩ | ⟨service, dataLength, hpc, hcause⟩ |
    ⟨service, bytes, hpc, hkind, hinvalid⟩ := hfrom
  · -- the header is that of a frame that was sent
    rw [hpc] at hplace
    obtain ⟨msg, rest, hcoming, rfl, -, -⟩ := hplace
    have hmem : msg ∈ s.sent := by
      apply List.mem_of_mem_drop (i := s.iterations)
      show msg ∈ s.coming
      rw [hcoming]
      exact List.mem_cons_self
    have hgood := (h.frames msg hmem).1
    rw [hslot] at hgood
    cases hgood
  · rw [hpc] at hplace
    obtain ⟨port, hp, hserves⟩ := hplace
    obtain hnull | ⟨hkind, hlength⟩ := hcause
    · have hsome := hport service dataLength hpc
      rw [hnull] at hsome
      cases hsome
    · obtain ⟨-, -, -, hfour, -⟩ := hp.pending h.frames
      exact hlength (hfour (hserves.1 hkind))
  · unfold Marshalled at hmarshalled
    simp only [hpc] at hmarshalled
    rw [hmarshalled hkind] at hinvalid
    cases hinvalid

end ReceivingState

/-! ## Services on their way into the table -/

/-- The port number the constructor has been given. -/
def ConstructorPc.portNr? : ConstructorPc → Option Short
  | .library | .waiting | .refused => none
  | .claimed portNr | .registered portNr | .finished portNr => some portNr

namespace OpeningState

theorem setConstructor_self [DecidableEq Sid] (s : OpeningState Tid Sid P) (service : Sid)
    (pc : ConstructorPc) : (s.setConstructor service pc).constructor service = pc :=
  Function.update_self ..

theorem setConstructor_of_ne [DecidableEq Sid] {s : OpeningState Tid Sid P} {service k : Sid}
    {pc : ConstructorPc} (h : k ≠ service) :
    (s.setConstructor service pc).constructor k = s.constructor k :=
  Function.update_of_ne h ..

section

variable [DecidableEq Sid] [DecidableEq P]

/-- The condition: no frame for a port is looked up between the response and the end
of the constructor, entries are assigned only on behalf of the last service on their
port, no input is closed while a frame is at hand, and a d-bus service is handed what
begins as a d-bus message does. -/
def Established (s : OpeningState Tid Sid P) : OpeningLabel Tid Sid P → Prop
  | .receive n =>
      s.base.InputTested (.receive n) ∧ s.base.Marshalled (.receive n) ∧
        match s.base.receiver with
        | .lookup port _ =>
            ∀ i ∈ slot? port.toInt, ∀ service ∈ s.owner i, (s.base.port service).isSome
        | .test service _ =>
            s.due = none ∨ ∀ x ∈ s.base.port service, (s.base.ports x).inputOpen = true
        | _ => True
  | .run t => s.base.DropsOwn t
  | .register service =>
      match s.constructor service with
      | .claimed portNr => ∀ i ∈ slot? portNr.toInt, s.owner i = some service
      | _ => True
  | _ => True

instance (s : OpeningState Tid Sid P) (label : OpeningLabel Tid Sid P) :
    Decidable (s.Established label) := by
  unfold Established
  split
  · split <;> infer_instance
  · infer_instance
  · split <;> infer_instance
  · infer_instance

end

/-- The service's entry has been stored, and its input is not closed. -/
def Listening (s : OpeningState Tid Sid P) (service : Sid) : Prop :=
  (∃ portNr, s.constructor service = .registered portNr) ∨
    ∃ x, s.base.port service = some x ∧ (s.base.ports x).inputOpen = true

/-- The frame at hand is for the service it was looked up for. -/
def AtHand (s : OpeningState Tid Sid P) : Prop :=
  match s.base.receiver with
  | .test service _ => (s.base.port service).isSome ∧ ∀ k ∈ s.due, k = service
  | .stopped => False
  | _ => True

structure Opened (s : OpeningState Tid Sid P) : Prop where
  alignment : s.base.Alignment
  ported : ∀ service, (s.base.port service).isSome ↔
    s.constructor service = .library ∨ ∃ portNr, s.constructor service = .finished portNr
  constructed : ∀ service x, s.base.port service = some x → x ∈ s.constructed
  claimed : ∀ i service, s.owner i = some service →
    (s.constructor service).portNr?.bind (fun portNr => slot? portNr.toInt) = some i
  entry : ∀ i service, s.owner i = some service → s.Listening service →
    s.base.activeServices i = some service
  unfinished : ∀ i service, s.base.activeServices i = some service →
    (s.base.port service).isSome ∨ ∃ k, s.owner i = some k ∧ s.base.port k = none
  atHand : s.AtHand
  dispatched : ∀ d ∈ s.dispatched, ∀ service, d.due = some service → d.called = some service

namespace Opened

variable {s t : OpeningState Tid Sid P}

/-- Only a finished constructor has left a port. -/
theorem unported (h : s.Opened) {service : Sid} {portNr : Short}
    (hpc : s.constructor service = .registered portNr) : s.base.port service = none := by
  rw [← Option.not_isSome_iff_eq_none, h.ported, hpc]
  rintro (hlibrary | ⟨_, hfinished⟩)
  · cases hlibrary
  · cases hfinished

/-- Steps of the receiver and of closing threads. -/
theorem fade (h : s.Opened) {base : ReceivingState Tid Sid P} {due : Option Sid}
    {dispatched : List (Dispatched Sid)} (hfades : ReceivingState.Fades s.base base)
    (halignment : base.Alignment)
    (hatHand : ({ s with base, due, dispatched } : OpeningState Tid Sid P).AtHand)
    (hdispatched : ∀ d ∈ dispatched, ∀ service, d.due = some service → d.called = some service) :
    ({ s with base, due, dispatched } : OpeningState Tid Sid P).Opened where
  alignment := halignment
  ported service := by
    show (base.port service).isSome ↔ _
    rw [hfades.port]
    exact h.ported service
  constructed service x hx := by
    change base.port service = some x at hx
    rw [hfades.port] at hx
    exact h.constructed service x hx
  claimed := h.claimed
  entry i service howner hlistening := by
    have hbefore : s.Listening service := by
      obtain hpc | ⟨x, hx, hopen⟩ := hlistening
      · exact .inl hpc
      · change base.port service = some x at hx
        rw [hfades.port] at hx
        exact .inr ⟨x, hx, hfades.ports x hopen⟩
    have hentry := h.entry i service howner hbefore
    obtain hsame | ⟨-, x, hx, hclosed⟩ := hfades.entries i
    · show base.activeServices i = some service
      rw [hsame, hentry]
    · -- the entry that is dropped has a closed port, and this service has none or an open one
      rw [ReceivingState.portAt, hentry] at hx
      change s.base.port service = some x at hx
      obtain ⟨portNr, hpc⟩ | ⟨y, hy, hopen⟩ := hbefore
      · rw [h.unported hpc] at hx
        cases hx
      · rw [hx] at hy
        cases hy
        rw [hclosed] at hopen
        cases hopen
  unfinished i service hentry := by
    obtain hsame | ⟨hnone, -⟩ := hfades.entries i
    · show (base.port service).isSome ∨ ∃ k, s.owner i = some k ∧ base.port k = none
      rw [hfades.port]
      apply h.unfinished i service
      rw [← hsame]
      exact hentry
    · change base.activeServices i = some service at hentry
      rw [hnone] at hentry
      cases hentry
  atHand := hatHand
  dispatched := hdispatched

theorem initial (h : OpeningInit s) : s.Opened where
  alignment := .initial h.base
  ported service := by
    rw [← h.library]
    constructor
    · exact .inl
    · rintro (hlibrary | ⟨portNr, hfinished⟩)
      · exact hlibrary
      · rw [h.waiting service |>.resolve_right (by rw [hfinished]; exact nofun)]
  constructed := h.constructed
  claimed i service hi := by
    rw [h.owner] at hi
    cases hi
  entry i service hi := by
    rw [h.owner] at hi
    cases hi
  unfinished i service hi := .inl (h.base.services i service hi).1
  atHand := by
    unfold AtHand
    rw [h.base.receiver]
    trivial
  dispatched := by
    rw [h.dispatched]
    exact fun _ hd => absurd hd List.not_mem_nil

/-! ## Steps of the receiver -/

theorem of_expecting {i : Slot} {service : Sid} (h : s.expecting i = some service)
    (hported : ∀ k ∈ s.owner i, (s.base.port k).isSome) :
    s.owner i = some service ∧ s.Listening service := by
  obtain ⟨howner, hopen⟩ := Option.filter_eq_some_iff.mp h
  obtain ⟨x, hx⟩ := Option.isSome_iff_exists.mp (hported service howner)
  rw [hx] at hopen
  exact ⟨howner, .inr ⟨x, hx, hopen⟩⟩

section

variable [DecidableEq Tid] [DecidableEq Sid] [DecidableEq P]

theorem receive {n : Nat} (h : s.Opened) (hc : s.Established (.receive n))
    (hs : s.receive n = some t) : t.Opened := by
  obtain ⟨base, hbase, rfl⟩ := Option.map_eq_some_iff.mp hs
  obtain ⟨htested, hmarshalled, hc⟩ := hc
  have hatHand := h.atHand
  have hfades := ReceivingState.fades_receive hbase
  have halignment := h.alignment.receive htested hbase
  have hfrom := ReceivingState.receive_cameFrom hbase
  have hported : ∀ service dataLength, s.base.receiver = .test service dataLength →
      (s.base.port service).isSome := by
    intro service dataLength hpc
    unfold AtHand at hatHand
    rw [hpc] at hatHand
    exact hatHand.1
  have hrunning := h.alignment.running hbase hported hmarshalled
  unfold AtHand at hatHand
  -- the place behind a step from anywhere but a lookup
  have hplace : ∀ due dispatched, (∀ port dataLength, s.base.receiver ≠ .lookup port dataLength) →
      ({ s with base, due, dispatched } : OpeningState Tid Sid P).AtHand := by
    intro due dispatched hlookup
    show match base.receiver with
      | .test service _ => (base.port service).isSome ∧ ∀ k ∈ due, k = service
      | .stopped => False
      | _ => True
    split
    · next hpc =>
      rw [hpc] at hfrom
      obtain ⟨port, i, hport, -⟩ := hfrom
      exact absurd hport (hlookup _ _)
    · next hpc => exact hrunning hpc
    · trivial
  cases hpc : s.base.receiver with
  | lookup port dataLength =>
      simp only [hpc] at hc
      change s.base.receive n = some base at hbase
      unfold ReceivingState.receive at hbase
      simp only [hpc] at hbase
      unfold dispatch
      simp only [hpc]
      cases hslot : slot? port.toInt with
      | none =>
          simp only [hslot] at hbase
          cases hbase
          exact absurd rfl hrunning
      | some i =>
          have hported := hc i hslot
          simp only [hslot] at hbase
          cases hentry : s.base.activeServices i with
          | none =>
              simp only [hentry] at hbase
              cases hbase
              simp only [Option.map_some, if_pos hentry]
              apply h.fade hfades halignment trivial
              intro d hd service hdue
              obtain hd | hd := List.mem_append.mp hd
              · exact h.dispatched d hd service hdue
              · rw [List.mem_singleton] at hd
                subst hd
                obtain ⟨howner, hlistening⟩ := of_expecting hdue hported
                rw [h.entry i service howner hlistening] at hentry
                cases hentry
          | some service =>
              simp only [hentry] at hbase
              cases hbase
              simp only [Option.map_some, if_neg (Option.some_ne_none service), hentry]
              apply h.fade hfades halignment ?_ h.dispatched
              constructor
              · obtain hsome | ⟨k, howner, hnone⟩ := h.unfinished i service hentry
                · exact hsome
                · have hsome := hported k howner
                  rw [hnone] at hsome
                  cases hsome
              · intro k hk
                obtain ⟨howner, hlistening⟩ := of_expecting hk hported
                rw [h.entry i k howner hlistening] at hentry
                cases hentry
                rfl
  | test service dataLength =>
      simp only [hpc] at hatHand hc
      obtain ⟨hsome, hdue⟩ := hatHand
      obtain ⟨x, hx⟩ := Option.isSome_iff_exists.mp hsome
      unfold dispatch
      simp only [hpc, hx, Option.any_some]
      have hcalled : ∀ k, s.due = some k →
          (if (s.base.ports x).inputOpen then some service else none) = some k := by
        intro k hk
        obtain hnone | hopen := hc
        · rw [hk] at hnone
          cases hnone
        · rw [if_pos (hopen x hx), hdue k hk]
      split
      · next heq => split at heq <;> cases heq
      · next heq => split at heq <;> cases heq
      · next due called heq =>
        have hboth : due = s.due ∧ called =
            if (s.base.ports x).inputOpen then some service else none := by
          split at heq <;> cases heq <;> simp [*]
        obtain ⟨rfl, rfl⟩ := hboth
        apply h.fade hfades halignment (hplace _ _ (by rw [hpc]; exact nofun))
        intro d hd k hk
        obtain hd | hd := List.mem_append.mp hd
        · exact h.dispatched d hd k hk
        · rw [List.mem_singleton] at hd
          subst hd
          exact hcalled k hk
  | _ =>
      unfold dispatch
      simp only [hpc]
      exact h.fade hfades halignment (hplace _ _ (by rw [hpc]; exact nofun)) h.dispatched

/-! ## Steps of the constructors -/

/-- The constructor goes on with a port number or without one; it has stored neither
the service nor the port. -/
theorem answered {service : Sid} {pc : ConstructorPc} {owner : Slot → Option Sid}
    {base : ReceivingState Tid Sid P} (h : s.Opened) (hwaiting : s.constructor service = .waiting)
    (hbase : s.base.step .takeResponse = some base) (hlibrary : pc ≠ .library)
    (hfinished : ∀ portNr, pc ≠ .finished portNr) (hregistered : ∀ portNr, pc ≠ .registered portNr)
    (hnew : ∀ i k, owner i = some k → s.owner i = some k ∨
      k = service ∧ pc.portNr?.bind (fun portNr => slot? portNr.toInt) = some i)
    (hold : ∀ i k, s.owner i = some k → owner i = some k ∨ owner i = some service) :
    ({ s.setConstructor service pc with base, owner } : OpeningState Tid Sid P).Opened := by
  have htested : s.base.InputTested .takeResponse := trivial
  have halignment := h.alignment.step htested hbase
  obtain ⟨-, hbase⟩ := Option.ite_none_right_eq_some.mp hbase
  cases hbase
  have hnull : s.base.port service = none := by
    rw [← Option.not_isSome_iff_eq_none, h.ported, hwaiting]
    exact nofun
  have hunowned : ∀ i, s.owner i ≠ some service := by
    intro i howner
    have hport := h.claimed i service howner
    rw [hwaiting] at hport
    cases hport
  constructor
  · exact halignment
  · intro k
    show (s.base.port k).isSome ↔ (s.setConstructor service pc).constructor k = .library ∨
      ∃ portNr, (s.setConstructor service pc).constructor k = .finished portNr
    by_cases hk : k = service
    · subst hk
      rw [setConstructor_self, hnull]
      constructor
      · exact nofun
      · rintro (hpc | ⟨portNr, hpc⟩)
        · exact absurd hpc hlibrary
        · exact absurd hpc (hfinished portNr)
    · rw [setConstructor_of_ne hk]
      exact h.ported k
  · exact h.constructed
  · intro i k howner
    show ((s.setConstructor service pc).constructor k).portNr?.bind _ = some i
    obtain hbefore | ⟨rfl, hport⟩ := hnew i k howner
    · have hk : k ≠ service := by
        rintro rfl
        exact hunowned i hbefore
      rw [setConstructor_of_ne hk]
      exact h.claimed i k hbefore
    · rw [setConstructor_self]
      exact hport
  · intro i k howner hlistening
    have hk : k ≠ service := by
      rintro rfl
      obtain ⟨portNr, hpc⟩ | ⟨x, hx, -⟩ := hlistening
      · exact hregistered portNr ((setConstructor_self ..).symm.trans hpc)
      · exact absurd (hnull.symm.trans hx) nofun
    have hbefore := (hnew i k howner).resolve_right fun heq => hk heq.1
    apply h.entry i k hbefore
    obtain ⟨portNr, hpc⟩ | hopen := hlistening
    · exact .inl ⟨portNr, (setConstructor_of_ne hk).symm.trans hpc⟩
    · exact .inr hopen
  · intro i j hentry
    obtain hsome | ⟨k, howner, hnone⟩ := h.unfinished i j hentry
    · exact .inl hsome
    · obtain hsame | hthis := hold i k howner
      · exact .inr ⟨k, hsame, hnone⟩
      · exact .inr ⟨service, hthis, hnull⟩
  · exact h.atHand
  · exact h.dispatched

theorem claim {service : Sid} (h : s.Opened) (hs : s.claim service = some t) : t.Opened := by
  unfold OpeningState.claim at hs
  obtain ⟨hwaiting, hs⟩ := Option.ite_none_right_eq_some.mp hs
  obtain ⟨u, hu, rfl⟩ := Option.map_eq_some_iff.mp hs
  obtain ⟨base, hbase, rfl⟩ := Option.map_eq_some_iff.mp hu
  have hrefused : ({ s.setConstructor service .refused with base } :
      OpeningState Tid Sid P).Opened :=
    h.answered hwaiting hbase nofun nofun nofun (fun _ _ => .inl) (fun _ _ => .inl)
  split
  · next response rest hresponses =>
    split
    · cases hslot : slot? response.port.toInt with
      | none =>
          exact h.answered hwaiting hbase nofun nofun nofun
            (fun _ _ => .inl) (fun _ _ => .inl)
      | some i =>
          show ({ s.setConstructor service (.claimed response.port) with
            base, owner := Function.update s.owner i (some service) } :
              OpeningState Tid Sid P).Opened
          apply h.answered hwaiting hbase
          · exact nofun
          · exact nofun
          · exact nofun
          · intro j k howner
            change Function.update s.owner i (some service) j = some k at howner
            by_cases hji : j = i
            · subst hji
              rw [Function.update_self] at howner
              cases howner
              exact .inr ⟨rfl, hslot⟩
            · rw [Function.update_of_ne hji] at howner
              exact .inl howner
          · intro j k howner
            show Function.update s.owner i (some service) j = some k ∨
              Function.update s.owner i (some service) j = some service
            by_cases hji : j = i
            · subst hji
              exact .inr (Function.update_self ..)
            · rw [Function.update_of_ne hji]
              exact .inl howner
    · exact hrefused
  · exact hrefused

theorem register {service : Sid} (h : s.Opened) (hc : s.Established (.register service))
    (hs : s.register service = some t) : t.Opened := by
  unfold OpeningState.register at hs
  unfold Established at hc
  split at hs
  · next portNr hpc =>
    simp only [hpc] at hc
    obtain ⟨i, hslot, hs⟩ := Option.bind_eq_some_iff.mp hs
    obtain ⟨u, hu, rfl⟩ := Option.map_eq_some_iff.mp hs
    obtain ⟨base, hbase, rfl⟩ := Option.map_eq_some_iff.mp hu
    have howner := hc i hslot
    have htested : s.base.InputTested (.register i service) := trivial
    have halignment := h.alignment.step htested hbase
    obtain ⟨⟨-, hnull⟩, hbase⟩ := Option.ite_none_right_eq_some.mp hbase
    cases hbase
    constructor
    · exact halignment
    · intro k
      show (s.base.port k).isSome ↔
        (s.setConstructor service (.registered portNr)).constructor k = .library ∨
        ∃ q, (s.setConstructor service (.registered portNr)).constructor k = .finished q
      by_cases hk : k = service
      · subst hk
        rw [setConstructor_self, hnull]
        simp
      · rw [setConstructor_of_ne hk]
        exact h.ported k
    · exact h.constructed
    · intro j k hj
      show ((s.setConstructor service (.registered portNr)).constructor k).portNr?.bind _ = some j
      have hport := h.claimed j k hj
      by_cases hk : k = service
      · subst hk
        rw [setConstructor_self]
        rwa [hpc] at hport
      · rw [setConstructor_of_ne hk]
        exact hport
    · intro j k hj hlistening
      show Function.update s.base.activeServices i (some service) j = some k
      by_cases hji : j = i
      · subst hji
        rw [Function.update_self, ← howner]
        exact hj
      · rw [Function.update_of_ne hji]
        have hk : k ≠ service := by
          rintro rfl
          have hport := h.claimed j k hj
          rw [hpc] at hport
          exact hji (Option.some.inj (hport.symm.trans hslot))
        apply h.entry j k hj
        obtain ⟨q, hq⟩ | hopen := hlistening
        · exact .inl ⟨q, (setConstructor_of_ne hk).symm.trans hq⟩
        · exact .inr hopen
    · intro j k hj
      change Function.update s.base.activeServices i (some service) j = some k at hj
      by_cases hji : j = i
      · subst hji
        exact .inr ⟨service, howner, hnull⟩
      · rw [Function.update_of_ne hji] at hj
        exact h.unfinished j k hj
    · exact h.atHand
    · exact h.dispatched
  · cases hs

/-- The port is one nobody had before, and the entry of its service is stored. -/
theorem assign {service : Sid} {x : P} (h : s.Opened) (hs : s.assign service x = some t) :
    t.Opened := by
  unfold OpeningState.assign at hs
  split at hs
  · next portNr hpc =>
    obtain ⟨hfresh, hs⟩ := Option.ite_none_left_eq_some.mp hs
    obtain ⟨port, -, hs⟩ := Option.bind_eq_some_iff.mp hs
    obtain ⟨base, hbase, rfl⟩ := Option.map_eq_some_iff.mp hs
    have hnull := h.unported hpc
    have halignment : base.Alignment := by
      have hmodified : (s.base.modifyPort x fun _ => port).Alignment :=
        h.alignment.move rfl rfl (fun _ _ hi => hi) h.alignment.iterations
          (h.alignment.place.frame rfl rfl (fun _ hp => hp) rfl rfl)
      have htested : (s.base.modifyPort x fun _ => port).InputTested (.assignPort service x) :=
        trivial
      exact hmodified.step htested hbase
    obtain ⟨-, hbase⟩ := Option.ite_none_right_eq_some.mp hbase
    cases hbase
    have hotherPort : ∀ k, k ≠ service → Function.update s.base.port service (some x) k =
        s.base.port k := fun k hk => Function.update_of_ne hk ..
    have hselfPort : Function.update s.base.port service (some x) service = some x :=
      Function.update_self ..
    have hmono : ∀ k, (s.base.port k).isSome →
        (Function.update s.base.port service (some x) k).isSome := by
      intro k hk
      by_cases hks : k = service
      · subst hks
        rw [hselfPort]
        rfl
      · rwa [hotherPort k hks]
    constructor
    · exact halignment
    · intro k
      show (Function.update s.base.port service (some x) k).isSome ↔
        (s.setConstructor service (.finished portNr)).constructor k = .library ∨
        ∃ q, (s.setConstructor service (.finished portNr)).constructor k = .finished q
      by_cases hk : k = service
      · subst hk
        rw [setConstructor_self, hselfPort]
        simp
      · rw [setConstructor_of_ne hk, hotherPort k hk]
        exact h.ported k
    · intro k y hy
      change Function.update s.base.port service (some x) k = some y at hy
      by_cases hk : k = service
      · subst hk
        rw [hselfPort] at hy
        cases hy
        exact List.mem_cons_self
      · rw [hotherPort k hk] at hy
        exact List.mem_cons_of_mem _ (h.constructed k y hy)
    · intro i k hi
      show ((s.setConstructor service (.finished portNr)).constructor k).portNr?.bind _ = some i
      have hport := h.claimed i k hi
      by_cases hk : k = service
      · subst hk
        rw [setConstructor_self]
        rwa [hpc] at hport
      · rw [setConstructor_of_ne hk]
        exact hport
    · intro i k hi hlistening
      apply h.entry i k hi
      by_cases hk : k = service
      · subst hk
        exact .inl ⟨portNr, hpc⟩
      · obtain ⟨q, hq⟩ | ⟨y, hy, hopen⟩ := hlistening
        · exact .inl ⟨q, (setConstructor_of_ne hk).symm.trans hq⟩
        · change Function.update s.base.port service (some x) k = some y at hy
          rw [hotherPort k hk] at hy
          have hyx : y ≠ x := fun heq => hfresh (heq ▸ h.constructed k y hy)
          change (Function.update s.base.ports x port y).inputOpen = true at hopen
          rw [Function.update_of_ne hyx] at hopen
          exact .inr ⟨y, hy, hopen⟩
    · intro i j hentry
      show (Function.update s.base.port service (some x) j).isSome ∨
        ∃ k, s.owner i = some k ∧ Function.update s.base.port service (some x) k = none
      obtain hsome | ⟨k, howner, hnone⟩ := h.unfinished i j hentry
      · exact .inl (hmono j hsome)
      · by_cases hk : k = service
        · subst hk
          have hstored := h.entry i k howner (.inl ⟨portNr, hpc⟩)
          change s.base.activeServices i = some j at hentry
          rw [hstored] at hentry
          cases hentry
          left
          rw [hselfPort]
          rfl
        · exact .inr ⟨k, howner, (hotherPort k hk).trans hnone⟩
    · have hatHand := h.atHand
      unfold AtHand at hatHand ⊢
      show match s.base.receiver with
        | .test k _ => (Function.update s.base.port service (some x) k).isSome ∧ ∀ k' ∈ s.due, k' = k
        | .stopped => False
        | _ => True
      split at hatHand
      · exact ⟨hmono _ hatHand.1, hatHand.2⟩
      · exact hatHand
      · trivial
    · exact h.dispatched
  · cases hs

/-! ## Steps -/

/-- A step of the base machine that fades it and leaves the receiver where it is. -/
theorem lift (label : ReceivingLabel Tid Sid P) (h : s.Opened) (hs : s.lift label = some t)
    (htested : s.base.InputTested label)
    (hstep : ∀ base, s.base.step label = some base →
      ReceivingState.Fades s.base base ∧ base.receiver = s.base.receiver) : t.Opened := by
  obtain ⟨base, hbase, rfl⟩ := Option.map_eq_some_iff.mp hs
  obtain ⟨hfades, hreceiver⟩ := hstep base hbase
  apply h.fade hfades (h.alignment.step htested hbase)
  · have hatHand := h.atHand
    unfold AtHand at hatHand ⊢
    show match base.receiver with
      | .test service _ => (base.port service).isSome ∧ ∀ k ∈ s.due, k = service
      | .stopped => False
      | _ => True
    rwa [hreceiver, hfades.port]
  · exact h.dispatched

theorem step {label : OpeningLabel Tid Sid P} (h : s.Opened) (hc : s.Established label)
    (hs : s.step label = some t) : t.Opened := by
  cases label with
  | arrive msg =>
      apply h.lift (.arrive msg) hs trivial
      intro base hbase
      obtain ⟨-, hbase⟩ := Option.ite_none_right_eq_some.mp hbase
      cases hbase
      exact ⟨.same rfl rfl rfl rfl, rfl⟩
  | receive n => exact h.receive hc hs
  | startClose tid x =>
      obtain ⟨-, hs⟩ := Option.ite_none_right_eq_some.mp hs
      apply h.lift (.startClose tid x) hs trivial
      intro base hbase
      simp only [ReceivingState.step] at hbase
      split at hbase
      · obtain ⟨-, hbase⟩ := Option.ite_none_right_eq_some.mp hbase
        cases hbase
        exact ⟨.same rfl rfl rfl rfl, rfl⟩
      · cases hbase
  | startEof tid x =>
      obtain ⟨-, hs⟩ := Option.ite_none_right_eq_some.mp hs
      apply h.lift (.startEof tid x) hs trivial
      intro base hbase
      simp only [ReceivingState.step] at hbase
      split at hbase
      · obtain ⟨-, hbase⟩ := Option.ite_none_right_eq_some.mp hbase
        cases hbase
        exact ⟨.same rfl rfl rfl rfl, rfl⟩
      · cases hbase
  | run tid =>
      apply h.lift (.run tid) hs trivial
      intro base hbase
      exact ReceivingState.fades_runApp hc hbase
  | claim service => exact h.claim hs
  | register service => exact h.register hc hs
  | assign service x => exact h.assign hs

end

end Opened

end OpeningState

section

variable [DecidableEq Tid] [DecidableEq Sid] [DecidableEq P]

end

attribute [local instance] four_neZero

end AapBridge.Android
