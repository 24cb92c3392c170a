import AapBridge.Lib.Justified
import AapBridge.Accessory.SlotOwners

/-! # The order of OPEN responses and frames

The start lock keeps the thread of a new service from sending before the OPEN
response is queued; joining a thread, or letting it detach itself as its last
act, keeps it from sending after its slot is free. Main sends for a service only
between its own steps. So every frame of an incarnation is queued while that
incarnation is the last one on its slot, and announced.
-/

namespace AapBridge.Accessory

open AapBridge.Lib AapBridge.Lib.HalfClose

/-- The incarnation the message opens. -/
def Origin.opens : Origin → Option Nat
  | .opened k => some k
  | _ => none

namespace MainPc

/-- The origin of the message main is about to add. -/
def carries : MainPc → Option Origin
  | .write _ _ origin _ | .addWait _ origin _ | .addStore _ origin _ => some origin
  | _ => none

/-- The incarnation whose OPEN response is not queued yet. -/
def opening : MainPc → Option Nat
  | .spawnInstall _ k _ => some k
  | .write _ _ origin _ | .addWait _ origin _ | .addStore _ origin _ => origin.opens
  | _ => none

/-- The slot main may send for in its next steps. -/
def working : MainPc → Option Slot
  | .bulkWrites i _ | .method i | .sendBuild i _ | .sendClear i _ _ => some i
  | _ => none

end MainPc

namespace ThreadsState

variable {s t : ThreadsState}

def Opened (s : ThreadsState) (k : Nat) : Prop := ∃ msg, (.opened k, msg) ∈ s.added

/-- An OPEN response is queued once, in the order of the requests; a frame of
incarnation `k` comes behind its OPEN and before the next one for the same slot. -/
def Follows (s : ThreadsState) (before : List (Origin × Option MultiplexedMessage)) :
    Origin × Option MultiplexedMessage → Prop
  | (.bridge, _) => True
  | (.opened k, _) => ∀ j msg, (.opened j, msg) ∈ before → j < k
  | (.service k, _) => (∃ msg, (.opened k, msg) ∈ before) ∧
      ∀ j msg, k < j → s.slot j = s.slot k → (.opened j, msg) ∉ before

structure Announced (s : ThreadsState) : Prop where
  opened : ∀ k, k < s.started → s.Opened k ∨ s.main.opening = some k
  opening : ∀ k, s.main.opening = some k → s.main.InSpawn ∧ k + 1 = s.started ∧ ¬s.Opened k ∧
    (s.pc k = .notCreated ∨ s.pc k = .startLock)
  logged : ∀ k msg, (.opened k, msg) ∈ s.added ∨ (.service k, msg) ∈ s.added → k < s.started
  latest : ∀ k, k < s.started → k ≤ s.incarnation (s.slot k)
  carrying : ∀ k, s.main.carries = some (.service k) → s.Opened k ∧ s.incarnation (s.slot k) = k
  working : ∀ i, s.main.working = some i →
    s.Opened (s.incarnation i) ∧ s.slot (s.incarnation i) = i
  log : Justified s.Follows s.added

namespace Announced

/-- A thread past the start lock has been announced. -/
theorem thread (ho : Owners s) (h : Announced s) {k : Nat} {pc : ServicePc} (hpc : s.pc k = pc)
    (halive : pc.Alive) (hwaiting : pc ≠ .startLock) :
    s.Opened k ∧ s.incarnation (s.slot k) = k := by
  subst hpc
  have hstarted : k < s.started := by
    by_contra hge
    rw [ho.fresh k (Nat.le_of_not_lt hge)] at halive
    exact halive
  refine ⟨(h.opened k hstarted).resolve_right fun hopening => ?_, ho.last k halive⟩
  obtain hnot | hlock := (h.opening k hopening).2.2.2
  · rw [hnot] at halive
    exact halive
  · exact hwaiting hlock

/-- A service with a callback in its slot has been announced, unless it is being opened. -/
theorem installed (ho : Owners s) (h : Announced s) {i : Slot}
    (protocol : BridgeConnection.Protocol) (hi : (s.bridge.services i).Serves protocol)
    (hopening : s.main.opening = none) :
    s.Opened (s.incarnation i) ∧ s.slot (s.incarnation i) = i := by
  obtain ⟨hstarted, hslot, -, -⟩ := ho.installed i protocol hi
  refine ⟨(h.opened _ hstarted).resolve_right fun hsome => ?_, hslot⟩
  rw [hopening] at hsome
  cases hsome

/-! ## Main -/

theorem enter (h : Announced s) {pc pc' : MainPc} (hpc : s.main = pc)
    (hspawn : pc'.opening = pc.opening)
    (hin : ∀ k, pc.opening = some k → pc.InSpawn → pc'.InSpawn)
    (hcarries : ∀ k, pc'.carries = some (.service k) →
      s.Opened k ∧ s.incarnation (s.slot k) = k)
    (hworking : ∀ i, pc'.working = some i →
      s.Opened (s.incarnation i) ∧ s.slot (s.incarnation i) = i) : Announced (s.enter pc') := by
  subst hpc
  refine ⟨fun k hk => ?_, fun k hk => ?_, h.logged, h.latest, hcarries, hworking, h.log⟩
  · exact (h.opened k hk).imp id fun hopening => hspawn.trans hopening
  · have hbefore : s.main.opening = some k := hspawn.symm.trans hk
    obtain ⟨hspawning, hrest⟩ := h.opening k hbefore
    exact ⟨hin k hbefore hspawning, hrest⟩

theorem move (ho : Owners s) (h : Announced s) {label : ThreadsLabel} {pc pc' : MainPc}
    (hpc : s.main = pc) (hm : MainMove s label pc pc') : Announced (s.enter pc') := by
  have hcarrying := h.carrying
  have hworking := h.working
  rw [hpc] at hcarrying hworking
  cases hm with
  | @bulk i _ hb =>
      have hannounced := h.installed ho .bulk (.inl hb) (by rw [hpc]; rfl)
      refine h.enter hpc rfl nofun nofun ?_
      rintro j ⟨⟩
      exact hannounced
  | @method i _ hb =>
      have hannounced := h.installed ho .method (.inl hb) (by rw [hpc]; rfl)
      refine h.enter hpc rfl nofun nofun ?_
      rintro j ⟨⟩
      exact hannounced
  | @onEofMethod i he =>
      have hannounced := h.installed ho .method (.inr (.inl he)) (by rw [hpc]; rfl)
      refine h.enter hpc rfl nofun nofun ?_
      rintro j ⟨⟩
      exact hannounced
  | bulkFailed | build => exact h.enter hpc rfl nofun nofun hworking
  | @replied _ _ i marshalled _ =>
      refine h.enter hpc rfl nofun ?_ nofun
      rintro k ⟨⟩
      obtain ⟨hopened, hslot⟩ := hworking i rfl
      exact ⟨hopened, congrArg _ hslot⟩
  | message => exact h.enter hpc rfl (fun _ _ hin => hin) hcarrying nofun
  | _ => exact h.enter hpc rfl nofun nofun nofun

/-- Main clears a flag; the message of `sendEof` and `sendClose` is for the slot's
last incarnation. -/
theorem update (h : Announced s) {pc pc' : MainPc} {i : Slot} {f : BridgeService → BridgeService}
    (hpc : s.main = pc) (hu : MainUpdate s pc i f pc') : Announced ((s.modify i f).enter pc') := by
  have hmodified : Announced (s.modify i f) :=
    ⟨h.opened, h.opening, h.logged, h.latest, h.carrying, h.working, h.log⟩
  cases hu with
  | @send i g buffer =>
      refine hmodified.enter hpc rfl nofun ?_ nofun
      rintro k ⟨⟩
      obtain ⟨hopened, hslot⟩ := h.working i (by rw [hpc]; rfl)
      exact ⟨hopened, congrArg _ hslot⟩
  | _ => exact hmodified.enter hpc rfl nofun nofun nofun

theorem create (h : Announced s) {i : Slot} {code : UInt8} (hpc : s.main = .spawnInit i code)
    (protocol : BridgeConnection.Protocol) : Announced (s.create i protocol) := by
  have hslot : ∀ k, k < s.started → (s.create i protocol).slot k = s.slot k := fun k hk =>
    create_slot_ne s (Nat.ne_of_lt hk) i protocol
  constructor
  · intro k hk
    obtain hk | rfl : k < s.started ∨ k = s.started := Nat.lt_or_eq_of_le (Nat.le_of_lt_succ hk)
    · refine (h.opened k hk).imp id fun hopening => ?_
      rw [hpc] at hopening
      cases hopening
    · exact .inr rfl
  · rintro k ⟨⟩
    refine ⟨trivial, rfl, ?_, create_pc_self s i protocol⟩
    rintro ⟨msg, hmsg⟩
    exact Nat.lt_irrefl _ (h.logged _ msg (.inl hmsg))
  · exact fun k msg hk => Nat.lt_succ_of_lt (h.logged k msg hk)
  · intro k hk
    obtain hk | rfl : k < s.started ∨ k = s.started := Nat.lt_or_eq_of_le (Nat.le_of_lt_succ hk)
    · rw [hslot k hk]
      show k ≤ Function.update s.incarnation i s.started (s.slot k)
      by_cases hki : s.slot k = i
      · rw [hki, Function.update_self]
        exact Nat.le_of_lt hk
      · rw [Function.update_of_ne hki]
        exact h.latest k hk
    · rw [create_slot_self]
      exact Nat.le_of_eq (Function.update_self i s.started s.incarnation).symm
  · nofun
  · nofun
  · show Justified (s.create i protocol).Follows s.added
    refine h.log.mono ?_
    rintro before ⟨origin, msg⟩ hbefore hmem hfollows
    cases origin with
    | bridge => trivial
    | opened k => exact hfollows
    | service k =>
        refine ⟨hfollows.1, fun j m hkj hsame hj => hfollows.2 j m hkj ?_ hj⟩
        have hk := h.logged k msg (.inr hmem)
        have hj := h.logged j m (.inl (hbefore hj))
        rwa [hslot k hk, hslot j hj] at hsame

/-! ## The log -/

/-- What may be added now for incarnation `k`. -/
theorem follows_service (h : Announced s) {k : Nat} {msg : Option MultiplexedMessage}
    (hopened : s.Opened k) (hlast : s.incarnation (s.slot k) = k) :
    s.Follows s.added (.service k, msg) := by
  refine ⟨hopened, fun j m hkj hsame hj => ?_⟩
  have hle := h.latest j (h.logged j m (.inl hj))
  rw [hsame, hlast] at hle
  omega

/-- A message that opens nothing is added. -/
theorem store (h : Announced s) {origin : Origin} {msg : Option MultiplexedMessage}
    (hopens : origin.opens = none) (hfollows : s.Follows s.added (origin, msg))
    (hlogged : ∀ k, origin = .service k → k < s.started) : Announced (s.store msg origin) := by
  have hgrows : ∀ k, s.Opened k → (s.store msg origin).Opened k := fun k ⟨m, hm⟩ =>
    ⟨m, List.mem_append_left _ hm⟩
  refine ⟨fun k hk => (h.opened k hk).imp (hgrows k) id, fun k hk => ?_, fun k m hk => ?_,
    h.latest, fun k hk => ?_, fun i hi => ?_, h.log.snoc hfollows⟩
  · obtain ⟨hin, hstarted, hnot, hwaits⟩ := h.opening k hk
    refine ⟨hin, hstarted, fun ⟨m, hm⟩ => ?_, hwaits⟩
    obtain hm | hm := List.mem_append.mp hm
    · exact hnot ⟨m, hm⟩
    · cases List.mem_singleton.mp hm
      cases hopens
  · obtain hk | hk := hk
    · obtain hm | hm := List.mem_append.mp hk
      · exact h.logged k m (.inl hm)
      · cases List.mem_singleton.mp hm
        cases hopens
    · obtain hm | hm := List.mem_append.mp hk
      · exact h.logged k m (.inr hm)
      · cases List.mem_singleton.mp hm
        exact hlogged k rfl
  · obtain ⟨hopened, hlast⟩ := h.carrying k hk
    exact ⟨hgrows k hopened, hlast⟩
  · obtain ⟨hopened, hslot⟩ := h.working i hi
    exact ⟨hgrows _ hopened, hslot⟩

/-- The OPEN response is added. -/
theorem storeOpened (h : Announced s) {k : Nat} {msg : Option MultiplexedMessage} {next : Next}
    (hpc : s.main = .addStore msg (.opened k) next) :
    Announced ((s.store msg (.opened k)).enter (.resume next)) := by
  obtain ⟨-, hstarted, hnot, -⟩ := h.opening k (by rw [hpc]; rfl)
  have hgrows : ∀ j, s.Opened j → (s.store msg (.opened k)).Opened j := fun j ⟨m, hm⟩ =>
    ⟨m, List.mem_append_left _ hm⟩
  refine ⟨fun j hj => ?_, nofun, fun j m hj => ?_, h.latest, nofun, nofun, h.log.snoc ?_⟩
  · obtain hopened | hopening := h.opened j hj
    · exact .inl (hgrows j hopened)
    · rw [hpc] at hopening
      cases hopening
      exact .inl ⟨msg, List.mem_append_right _ List.mem_cons_self⟩
  · have hlast : (Origin.opened j, m) = (.opened k, msg) ∨ (Origin.service j, m) = (.opened k, msg) →
        j < s.started := by
      rintro (heq | heq) <;> cases heq
      omega
    obtain hj | hj := hj
    · obtain hm | hm := List.mem_append.mp hj
      · exact h.logged j m (.inl hm)
      · exact hlast (.inl (List.mem_singleton.mp hm))
    · obtain hm | hm := List.mem_append.mp hj
      · exact h.logged j m (.inr hm)
      · exact hlast (.inr (List.mem_singleton.mp hm))
  · intro j m hj
    have hle := h.logged j m (.inl hj)
    obtain hlt | rfl : j < k ∨ j = k := by omega
    · exact hlt
    · exact absurd ⟨m, hj⟩ hnot

/-! ## Services -/

/-- A thread whose service is not being opened goes on. -/
theorem place (h : Announced s) {k : Nat} (hopening : s.main.opening ≠ some k) (pc : ServicePc) :
    Announced (s.place k pc) := by
  refine ⟨h.opened, fun j hj => ?_, h.logged, fun j hj => ?_, fun j hj => ?_, fun i hi => ?_, ?_⟩
  · have hne : j ≠ k := by
      rintro rfl
      exact hopening hj
    obtain ⟨hin, hstarted, hnot, hwaits⟩ := h.opening j hj
    rw [place_pc_ne s hne]
    exact ⟨hin, hstarted, hnot, hwaits⟩
  · rw [place_slot]
    exact h.latest j hj
  · rw [place_slot]
    exact h.carrying j hj
  · show s.Opened (s.incarnation i) ∧ (s.place k pc).slot (s.incarnation i) = i
    rw [place_slot]
    exact h.working i hi
  · show Justified (s.place k pc).Follows s.added
    have hsame : (s.place k pc).Follows = s.Follows := by
      funext before x
      simp only [Follows, place_slot]
    rw [hsame]
    exact h.log

/-- A thread past the start lock is not one being opened. -/
theorem not_opening (h : Announced s) {k : Nat} {pc : ServicePc} (hpc : s.pc k = pc)
    (hcreated : pc ≠ .notCreated) (hwaiting : pc ≠ .startLock) : s.main.opening ≠ some k := by
  intro hopening
  have hwaits := (h.opening k hopening).2.2.2
  rw [hpc] at hwaits
  exact hwaits.elim hcreated hwaiting

theorem stopWork (h : Announced s) (k : Nat) : Announced (s.stopWork k) := by
  refine ⟨h.opened, fun j hj => ?_, h.logged, fun j hj => ?_, fun j hj => ?_, fun i hi => ?_, ?_⟩
  · rw [stopWork_pc]
    exact h.opening j hj
  · rw [stopWork_slot]
    exact h.latest j hj
  · rw [stopWork_slot]
    exact h.carrying j hj
  · show s.Opened (s.incarnation i) ∧ (s.stopWork k).slot (s.incarnation i) = i
    rw [stopWork_slot]
    exact h.working i hi
  · show Justified (s.stopWork k).Follows s.added
    have hsame : (s.stopWork k).Follows = s.Follows := by
      funext before x
      simp only [Follows, stopWork_slot]
    rw [hsame]
    exact h.log

/-! ## Any step -/

/-- What these fields say does not depend on the others. -/
theorem congr (h : Announced s) (hsame : t = { s with
      bridge := t.bridge, startLock := t.startLock, cleanupLock := t.cleanupLock, work := t.work
      sender := t.sender, receiver := t.receiver, spaceSem := t.spaceSem, queue := t.queue }) :
    Announced t := by
  rw [hsame]
  exact ⟨h.opened, h.opening, h.logged, h.latest, h.carrying, h.working, h.log⟩

theorem mainStore (h : Announced s) {msg : Option MultiplexedMessage} {origin : Origin}
    {next : Next} (hpc : s.main = .addStore msg origin next) :
    Announced ((s.store msg origin).enter (.resume next)) := by
  cases origin with
  | bridge =>
      have hstored : Announced (s.store msg .bridge) := h.store rfl trivial fun _ heq => nomatch heq
      exact hstored.enter hpc rfl nofun nofun nofun
  | opened k => exact h.storeOpened hpc
  | service k =>
      obtain ⟨hopened, hlast⟩ := h.carrying k (by rw [hpc]; rfl)
      obtain ⟨m, hm⟩ := hopened
      have hstarted := h.logged k m (.inl hm)
      have hstored : Announced (s.store msg (.service k)) :=
        h.store rfl (h.follows_service ⟨m, hm⟩ hlast) (by rintro j ⟨⟩; exact hstarted)
      exact hstored.enter hpc rfl nofun nofun nofun

theorem serviceStore (ho : Owners s) (h : Announced s) {k : Nat} {msg : MultiplexedMessage}
    {next : ServiceNext} (hpc : s.pc k = .addStore msg next) :
    Announced ((s.store (some msg) (.service k)).place k (.resume next)) := by
  obtain ⟨⟨m, hm⟩, hlast⟩ := h.thread ho hpc trivial nofun
  have hstarted := h.logged k m (.inl hm)
  have hstored : Announced (s.store (some msg) (.service k)) :=
    h.store rfl (h.follows_service ⟨m, hm⟩ hlast) (by rintro j ⟨⟩; exact hstarted)
  exact hstored.place (h.not_opening hpc nofun nofun) _

theorem step (ho : Owners s) (h : Announced s) {label : ThreadsLabel}
    (ht : s.step label = some t) : Announced t := by
  cases step_cases ht with
  | ignored => exact h
  | main hpc hm => exact h.move ho hpc hm
  | mainUpdate hpc hu => exact h.update hpc hu
  | spawnLock hpc =>
      have hlocked : Announced { s with startLock := some .main } := h.congr rfl
      exact hlocked.enter hpc rfl nofun nofun nofun
  | @allocate i _ hpc =>
      have hallocated : Announced { s with bridge := s.bridge.allocate i } := h.congr rfl
      exact hallocated.enter hpc rfl nofun nofun nofun
  | create hpc => exact h.create hpc _
  | @install i k protocol hpc =>
      have hinstalled : Announced { s with bridge := s.bridge.install i protocol } := h.congr rfl
      exact hinstalled.enter hpc rfl (fun _ _ _ => rfl) nofun nofun
  | spawnUnlock hpc =>
      have hunlocked : Announced { s with startLock := none } := h.congr rfl
      exact hunlocked.enter hpc rfl nofun nofun nofun
  | mainWait hpc =>
      have htaken : Announced { s with spaceSem := s.spaceSem - 1 } := h.congr rfl
      have hcarrying := h.carrying
      rw [hpc] at hcarrying
      exact htaken.enter hpc rfl (fun _ _ hin => hin) hcarrying nofun
  | mainStore hpc => exact h.mainStore hpc
  | mainCleanupLock hpc =>
      have hlocked : Announced { s with cleanupLock := some .main } := h.congr rfl
      exact hlocked.enter hpc rfl nofun nofun nofun
  | signalsCleanup hpc => exact (h.stopWork _).enter hpc rfl nofun nofun nofun
  | @mainReset i _ hpc =>
      have hreset : Announced (s.modify i fun _ => .unused) := h.congr rfl
      exact hreset.enter hpc rfl nofun nofun nofun
  | mainCleanupUnlock hpc =>
      have hunlocked : Announced { s with cleanupLock := none } := h.congr rfl
      exact hunlocked.enter hpc rfl nofun nofun nofun
  | service hpc hm =>
      apply h.place
      cases hm <;> exact h.not_opening hpc nofun nofun
  | @startLock k hpc hlock =>
      have hlocked : Announced { s with startLock := some (.service k) } := h.congr rfl
      apply hlocked.place
      intro hopening
      have hmain := ho.startMain (h.opening k hopening).1
      rw [hlock] at hmain
      cases hmain
  | startUnlock hpc =>
      have hunlocked : Announced { s with startLock := none } := h.congr rfl
      exact hunlocked.place (h.not_opening hpc nofun nofun) _
  | @eofClear k _ hpc =>
      have hcleared : Announced (s.modify (s.slot k) (closeFlag .eof)) := h.congr rfl
      exact hcleared.place (h.not_opening hpc nofun nofun) _
  | serviceWait hpc =>
      have htaken : Announced { s with spaceSem := s.spaceSem - 1 } := h.congr rfl
      exact htaken.place (h.not_opening hpc nofun nofun) _
  | serviceStore hpc => exact h.serviceStore ho hpc
  | @serviceCleanupLock k hpc =>
      have hlocked : Announced { s with cleanupLock := some (.service k) } := h.congr rfl
      exact hlocked.place (h.not_opening hpc nofun nofun) _
  | @serviceReset k hpc =>
      have hreset : Announced (s.modify (s.slot k) fun _ => .unused) := h.congr rfl
      exact hreset.place (h.not_opening hpc nofun nofun) _
  | serviceCleanupUnlock hpc =>
      have hunlocked : Announced { s with cleanupLock := none } := h.congr rfl
      exact hunlocked.place (h.not_opening hpc nofun nofun) _
  | senderTest | senderPoll | wrote | receiverNull | receiverEnds => exact h.congr rfl

theorem initial : Announced .initial where
  opened := nofun
  opening := nofun
  logged := nofun
  latest := nofun
  carrying := nofun
  working := nofun
  log := .nil

end Announced

end ThreadsState

end AapBridge.Accessory
