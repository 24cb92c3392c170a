import Mathlib

/-! # Transfers of a whole buffer

`readAllAccessory` and `writeAllAccessory`: one loop over the transport function
of the connection. `response` counts bytes and carries the error; a transport
that answers 0, as `read` does when the peer has closed the socket, keeps the
loop going without moving it on.
-/

namespace AapBridge.Accessory

/-- What a transport function returns at each call for the size it is asked for. -/
abbrev Transport := ℕ → ℤ → ℤ

/-- The function pointers of a connection that the two loops use. -/
structure AapConnection where
  readAccessory : Transport
  writeAccessory : Transport

/-- One call of the transport function: at which offset, and what it returned. -/
structure Transfer where
  offset : ℤ
  response : ℤ
deriving DecidableEq

/-- At most `rounds` tests of the loop. -/
def transferLoop (transport : Transport) : ℕ → ℤ → ℤ → ℤ → Option (ℤ × List Transfer)
  | 0, _, _, _ => none
  | rounds + 1, response, size, buffer =>
      if size > 0 ∧ response ≥ 0 then
        let response := transport 0 size
        (transferLoop (fun call => transport (call + 1)) rounds response (size - response)
          (buffer + response)).map fun r => (r.1, ⟨buffer, response⟩ :: r.2)
      else some (if response < 0 then response else 0, [])

def readAllAccessory (con : AapConnection) (size : ℤ) (rounds : ℕ) : Option (ℤ × List Transfer) :=
  transferLoop con.readAccessory rounds 0 size 0

def writeAllAccessory (con : AapConnection) (size : ℤ) (rounds : ℕ) : Option (ℤ × List Transfer) :=
  transferLoop con.writeAccessory rounds 0 size 0

/-- A call returns a count up to the size asked for, a negative error, or 0 from
the moment on in which the peer has closed the connection. -/
structure Transport.Behaves (transport : Transport) : Prop where
  atMost : ∀ call size, 0 < size → transport call size ≤ size
  closed : ∀ call size, 0 < size → transport call size = 0 →
    ∀ later ≥ call, ∀ size, 0 < size → transport later size = 0

/-- The bytes transferred lie behind each other, from `offset` up to `stop`. -/
def InOrder : ℤ → List Transfer → ℤ → Prop
  | offset, [], stop => offset = stop
  | offset, transfer :: rest, stop =>
      if transfer.response > 0 then
        transfer.offset = offset ∧ InOrder (offset + transfer.response) rest stop
      else InOrder offset rest stop

/-- The call returns, with 0 exactly if all bytes have been transferred in order. -/
def KeepsContract (transferAll : ℕ → Option (ℤ × List Transfer)) (size : ℤ) : Prop :=
  ∃ rounds result transfers, transferAll rounds = some (result, transfers) ∧
    (result = 0 ↔ InOrder 0 transfers (max size 0))

/-- What is left of `size` in front of each call. -/
def Transport.left (transport : Transport) (size : ℤ) : ℕ → ℤ
  | 0 => size
  | call + 1 => transport.left size call - transport call (transport.left size call)

/-- The connection is found closed while bytes are missing, and no error has come before. -/
def Transport.RunsDry (transport : Transport) (size : ℤ) : Prop :=
  ∃ call, 0 < transport.left size call ∧ transport call (transport.left size call) = 0 ∧
    ∀ before < call, 0 < transport before (transport.left size before)

/-! ## The transport behind its first call -/

variable {transport : Transport} {size : ℤ}

/-- The transport behind its first call. -/
def Transport.later (transport : Transport) : Transport := fun call => transport (call + 1)

theorem Transport.Behaves.later (h : transport.Behaves) : transport.later.Behaves where
  atMost call size hsize := h.atMost (call + 1) size hsize
  closed call size hsize hzero later hlater :=
    h.closed (call + 1) size hsize hzero (later + 1) (Nat.succ_le_succ hlater)

theorem Transport.left_later (transport : Transport) (size : ℤ) (call : ℕ) :
    transport.later.left (size - transport 0 size) call = transport.left size (call + 1) := by
  induction call with
  | zero => rfl
  | succ call ih =>
      rw [left, ih]
      rfl

/-- The connection is closed at the first call, or behind one that has brought bytes. -/
theorem Transport.runsDry_iff : transport.RunsDry size ↔ 0 < size ∧ (transport 0 size = 0 ∨
    0 < transport 0 size ∧ transport.later.RunsDry (size - transport 0 size)) := by
  constructor
  · rintro ⟨call, hleft, hzero, hbefore⟩
    induction call generalizing transport size with
    | zero => exact ⟨hleft, .inl hzero⟩
    | succ call ih =>
        have hpos : 0 < transport 0 size := hbefore 0 (Nat.zero_lt_succ call)
        have hrest : ∀ before < call, 0 < transport.later before
            (transport.later.left (size - transport 0 size) before) := by
          intro before hlt
          rw [left_later]
          exact hbefore (before + 1) (Nat.succ_lt_succ hlt)
        rw [← left_later] at hleft hzero
        obtain ⟨hsize, -⟩ := ih hleft hzero hrest
        exact ⟨by omega, .inr ⟨hpos, call, hleft, hzero, hrest⟩⟩
  · rintro ⟨hsize, hzero | ⟨hpos, call, hleft, hzero, hbefore⟩⟩
    · exact ⟨0, hsize, hzero, nofun⟩
    · rw [left_later] at hleft hzero
      refine ⟨call + 1, hleft, hzero, ?_⟩
      intro before hlt
      cases before with
      | zero => exact hpos
      | succ before =>
          have hrest := hbefore before (Nat.lt_of_succ_lt_succ hlt)
          rwa [left_later] at hrest

/-! ## The loop -/

/-- The test of the loop fails. -/
theorem transferLoop_stop {response buffer : ℤ} (rounds : ℕ) (h : ¬(size > 0 ∧ response ≥ 0)) :
    transferLoop transport (rounds + 1) response size buffer =
      some (if response < 0 then response else 0, []) := by
  rw [transferLoop, if_neg h]

theorem transferLoop_succ {response buffer : ℤ} (rounds : ℕ) (hsize : 0 < size) (h : 0 ≤ response) :
    transferLoop transport (rounds + 1) response size buffer =
      (transferLoop transport.later rounds (transport 0 size) (size - transport 0 size)
        (buffer + transport 0 size)).map fun r => (r.1, ⟨buffer, transport 0 size⟩ :: r.2) := by
  rw [transferLoop, if_pos ⟨hsize, h⟩]
  rfl

/-- Once the connection is closed the loop goes round without an end. -/
theorem transferLoop_closed (h : ∀ call size, 0 < size → transport call size = 0) (hsize : 0 < size) (rounds : ℕ)
    {response buffer : ℤ} (hresponse : 0 ≤ response) :
    transferLoop transport rounds response size buffer = none := by
  induction rounds generalizing transport response buffer with
  | zero => rfl
  | succ rounds ih =>
      have hlater : ∀ call size, 0 < size → transport.later call size = 0 :=
        fun call size => h (call + 1) size
      rw [transferLoop_succ rounds hsize hresponse, h 0 size hsize, sub_zero, add_zero,
        ih hlater (le_refl 0)]
      rfl

theorem transferLoop_dry (h : transport.Behaves) (hdry : transport.RunsDry size) (rounds : ℕ)
    {response buffer : ℤ} (hresponse : 0 ≤ response) :
    transferLoop transport rounds response size buffer = none := by
  induction rounds generalizing transport size response buffer with
  | zero => rfl
  | succ rounds ih =>
      obtain ⟨hsize, hzero | ⟨hpos, hlater⟩⟩ := Transport.runsDry_iff.mp hdry
      · exact transferLoop_closed (fun call => h.closed 0 size hsize hzero call (Nat.zero_le call)) hsize
          (rounds + 1) hresponse
      · rw [transferLoop_succ rounds hsize hresponse, ih h.later hlater hpos.le]
        rfl

/-- The loop ends, and its result is 0 exactly if everything was transferred. -/
theorem transferLoop_ends {transport : Transport} {size : ℤ} (h : transport.Behaves)
    (hdry : ¬transport.RunsDry size) (offset : ℤ) {response : ℤ} (hresponse : 0 ≤ response) :
    ∃ rounds result transfers, transferLoop transport rounds response size offset =
        some (result, transfers) ∧
      (result = 0 ↔ InOrder offset transfers (offset + max size 0)) := by
  by_cases hsize : 0 < size
  · rcases lt_trichotomy (transport 0 size) 0 with hneg | hzero | hpos
    · refine ⟨2, transport 0 size, [⟨offset, transport 0 size⟩], ?_, ?_⟩
      · rw [transferLoop_succ 1 hsize hresponse, transferLoop_stop 0 (by omega), if_pos hneg]
        rfl
      · apply iff_of_false hneg.ne
        rw [InOrder, if_neg (by dsimp only; omega), InOrder]
        omega
    · exact absurd (Transport.runsDry_iff.mpr ⟨hsize, .inl hzero⟩) hdry
    · have hlater : ¬transport.later.RunsDry (size - transport 0 size) :=
        fun hrest => hdry (Transport.runsDry_iff.mpr ⟨hsize, .inr ⟨hpos, hrest⟩⟩)
      have hmost := h.atMost 0 size hsize
      have hshorter : (size - transport 0 size).toNat < size.toNat := by omega
      obtain ⟨rounds, result, transfers, hrun, hresult⟩ :=
        transferLoop_ends h.later hlater (offset + transport 0 size) hpos.le
      refine ⟨rounds + 1, result, ⟨offset, transport 0 size⟩ :: transfers, ?_, ?_⟩
      · rw [transferLoop_succ rounds hsize hresponse, hrun]
        rfl
      · rw [hresult, InOrder, if_pos hpos, show offset + max size 0 =
          offset + transport 0 size + max (size - transport 0 size) 0 by omega]
        exact Iff.symm (and_iff_right (Eq.refl offset))
  · refine ⟨1, 0, [], ?_, ?_⟩
    · rw [transferLoop_stop 0 (by omega), if_neg (by omega)]
    · rw [InOrder]
      omega
termination_by size.toNat

/-! ## The contract -/

theorem keepsContract_iff (h : transport.Behaves) :
    KeepsContract (fun rounds => transferLoop transport rounds 0 size 0) size ↔
      ¬transport.RunsDry size := by
  constructor
  · rintro ⟨rounds, result, transfers, hrun, -⟩ hdry
    change transferLoop transport rounds 0 size 0 = some (result, transfers) at hrun
    rw [transferLoop_dry h hdry rounds (le_refl 0)] at hrun
    cases hrun
  · intro hdry
    obtain ⟨rounds, result, transfers, hrun, hresult⟩ := transferLoop_ends h hdry 0 (le_refl 0)
    rw [zero_add] at hresult
    exact ⟨rounds, result, transfers, hrun, hresult⟩

/-- Either function keeps its contract exactly if the connection is not found
closed while bytes are missing. -/
theorem transferAll_keeps_iff (con : AapConnection) (size : ℤ) (hread : con.readAccessory.Behaves)
    (hwrite : con.writeAccessory.Behaves) :
    (KeepsContract (readAllAccessory con size) size ↔ ¬con.readAccessory.RunsDry size) ∧
      (KeepsContract (writeAllAccessory con size) size ↔ ¬con.writeAccessory.RunsDry size) :=
  ⟨keepsContract_iff hread, keepsContract_iff hwrite⟩

/-- A socket that transfers one byte at each call, until the peer closes it
behind `bytes` of them. -/
def closesBehind (bytes : ℕ) : Transport := fun call size => if call < bytes then min 1 size else 0

theorem closesBehind_behaves (bytes : ℕ) : (closesBehind bytes).Behaves where
  atMost call size hsize := by
    unfold closesBehind
    split <;> omega
  closed := by
    intro call size hsize hzero later hlater size' hsize'
    unfold closesBehind at hzero ⊢
    split at hzero
    · omega
    · exact if_neg (by omega)

/-- Three bytes come before the end, and three are asked for. -/
theorem transferAll_keeps_three :
    KeepsContract (readAllAccessory ⟨closesBehind 3, closesBehind 0⟩ 3) 3 := by
  apply (transferAll_keeps_iff _ 3 (closesBehind_behaves 3) (closesBehind_behaves 0)).1.mpr
  intro hdry
  have hfirst := (Transport.runsDry_iff.mp hdry).2.resolve_left (by decide)
  have hsecond := (Transport.runsDry_iff.mp hfirst.2).2.resolve_left (by decide)
  have hthird := (Transport.runsDry_iff.mp hsecond.2).2.resolve_left (by decide)
  exact absurd (Transport.runsDry_iff.mp hthird.2).1 (by decide)

/-- The peer closes the socket behind the first of two bytes. -/
theorem readAll_goes_round : ¬∀ (con : AapConnection) (size : ℤ), con.readAccessory.Behaves →
    con.writeAccessory.Behaves → KeepsContract (readAllAccessory con size) size ∧
      KeepsContract (writeAllAccessory con size) size := by
  intro h
  have hdry : (closesBehind 1).RunsDry 2 := ⟨1, by decide, by decide, by decide⟩
  have hkeeps := (h ⟨closesBehind 1, closesBehind 1⟩ 2 (closesBehind_behaves 1)
    (closesBehind_behaves 1)).1
  exact (keepsContract_iff (closesBehind_behaves 1)).mp hkeeps hdry

end AapBridge.Accessory
