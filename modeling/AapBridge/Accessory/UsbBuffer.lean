import AapBridge.Lib.CMemory
import AapBridge.Lib.Machine
import Mathlib.Data.List.SplitLengths

/-! # The buffer between bulk transfers and reads

`readAccessoryUSB` and the loop of `readAllAccessory` over it. The device
answers each call of `libusb_bulk_transfer` with the next of a list of
transfers; a call that finds the list empty waits. What is buffered followed by
the transfers to come is the stream that is left, and a read takes its beginning.
-/

namespace AapBridge.Accessory

open AapBridge.Lib

/-- `startValidData` is an offset into `receiveBuffer`. -/
structure UsbConnection where
  receiveBuffer : List UInt8
  startValidData : Nat
  read : Nat

/-- The size of `receiveBuffer`, kept in `length`. -/
def usbLength : Nat := 16384

/-- How a read ends: with bytes at the place of the caller, in
`libusb_bulk_transfer` with nothing to come, or outside the buffer. -/
inductive UsbRead where
  | returned (bytes : List UInt8) (con : UsbConnection) (transfers : List (List UInt8))
  | waiting (con : UsbConnection)
  | fault

namespace UsbConnection

/-- As `getNextAndroidConnection` sets it up over what `malloc` returned. -/
def opened (memory : List UInt8) : UsbConnection := ⟨memory, 0, 0⟩

/-- The branch that finds valid data. -/
def serve (con : UsbConnection) (size : Nat) (transfers : List (List UInt8)) : UsbRead :=
  let read := if size > con.read then con.read else size
  match CMemory.load con.receiveBuffer con.startValidData read with
  | none => .fault
  | some bytes =>
      .returned bytes
        { con with read := con.read - read, startValidData := con.startValidData + read } transfers

/-- An empty transfer leads to one more call. -/
def readAccessoryUSB (con : UsbConnection) (size : Nat) : List (List UInt8) → UsbRead
  | [] => if con.read ≠ 0 then con.serve size [] else .waiting { con with startValidData := 0 }
  | transfer :: transfers =>
      if con.read ≠ 0 then con.serve size (transfer :: transfers)
      else match CMemory.store con.receiveBuffer 0 transfer with
        | none => .fault
        | some receiveBuffer =>
            readAccessoryUSB ⟨receiveBuffer, 0, transfer.length⟩ size transfers

/-- At most `rounds` rounds of the loop; `handed` is what is in front of
`buffer`. To run out of rounds counts as a fault. -/
def readAllLoop : Nat → UsbConnection → List UInt8 → Nat → List (List UInt8) → UsbRead
  | rounds, con, handed, size, transfers =>
      if size > 0 then
        match rounds with
        | 0 => .fault
        | rounds + 1 =>
            match con.readAccessoryUSB size transfers with
            | .returned bytes con transfers =>
                readAllLoop rounds con (handed ++ bytes) (size - bytes.length) transfers
            | .waiting con => .waiting con
            | .fault => .fault
      else .returned handed con transfers

/-- Every round of the loop hands out at least one byte. -/
def readAllAccessory (con : UsbConnection) (size : Nat) (transfers : List (List UInt8)) : UsbRead :=
  readAllLoop size con [] size transfers

/-- The valid data. -/
def buffered (con : UsbConnection) : List UInt8 :=
  (con.receiveBuffer.drop con.startValidData).take con.read

/-- The valid data lies inside the buffer. -/
structure Within (con : UsbConnection) : Prop where
  memory : con.receiveBuffer.length = usbLength
  valid : con.startValidData + con.read ≤ usbLength

theorem buffered_nil {con : UsbConnection} (h : con.read = 0) : con.buffered = [] := by
  unfold buffered
  rw [h, List.take_zero]

/-! ## One read -/

/-- What a read does to a connection with the valid data `buffered`. -/
inductive Takes (con : UsbConnection) (size : Nat) (transfers : List (List UInt8)) : UsbRead → Prop
  | returned (bytes : List UInt8) (con' : UsbConnection) (rest : List (List UInt8))
      (within : con'.Within) (suffix : rest <:+ transfers)
      (nonempty : bytes ≠ []) (length : bytes.length ≤ size)
      (stream : bytes ++ (con'.buffered ++ rest.flatten) = con.buffered ++ transfers.flatten) :
      Takes con size transfers (.returned bytes con' rest)
  | waiting (con' : UsbConnection) (within : con'.Within)
      (stream : con.buffered ++ transfers.flatten = []) :
      Takes con size transfers (.waiting con')

theorem serve_takes {con : UsbConnection} {size : Nat} (h : con.Within) (hread : con.read ≠ 0)
    (hsize : 0 < size) (transfers : List (List UInt8)) :
    con.Takes size transfers (con.serve size transfers) := by
  have hvalid := h.valid
  have hmemory := h.memory
  have hmin : (if size > con.read then con.read else size) = min size con.read := by
    split <;> omega
  have hfits : con.startValidData + min size con.read ≤ con.receiveBuffer.length := by omega
  have hserve : con.serve size transfers =
      .returned ((con.receiveBuffer.drop con.startValidData).take (min size con.read))
        ⟨con.receiveBuffer, con.startValidData + min size con.read,
          con.read - min size con.read⟩ transfers := by
    unfold serve CMemory.load
    simp only [hmin, if_pos hfits]
  have hlength :
      ((con.receiveBuffer.drop con.startValidData).take (min size con.read)).length =
        min size con.read := by
    rw [List.length_take, List.length_drop]
    omega
  rw [hserve]
  apply Takes.returned
  · constructor
    · exact hmemory
    · show con.startValidData + min size con.read + (con.read - min size con.read) ≤ usbLength
      omega
  · exact List.suffix_refl transfers
  · apply List.ne_nil_of_length_pos
    omega
  · omega
  · unfold buffered
    rw [← List.append_assoc, ← List.drop_drop, ← List.take_add,
      Nat.add_sub_cancel' (Nat.min_le_right size con.read)]

/-- The induction is on the transfers: each empty one costs a call. -/
theorem readAccessoryUSB_takes {size : Nat} (hsize : 0 < size) (transfers : List (List UInt8)) :
    ∀ con : UsbConnection, con.Within → (∀ t ∈ transfers, t.length ≤ usbLength) →
      con.Takes size transfers (con.readAccessoryUSB size transfers) := by
  induction transfers with
  | nil =>
      intro con h _
      unfold readAccessoryUSB
      split
      · next hread => exact serve_takes h hread hsize []
      · next hread =>
          have hnone : con.read = 0 := not_ne_iff.mp hread
          apply Takes.waiting
          · exact ⟨h.memory, by simp [hnone]⟩
          · rw [buffered_nil hnone]
            rfl
  | cons transfer transfers ih =>
      intro con h ht
      unfold readAccessoryUSB
      split
      · next hread => exact serve_takes h hread hsize _
      · next hread =>
          have hnone : con.read = 0 := not_ne_iff.mp hread
          have hlength : transfer.length ≤ usbLength := ht transfer List.mem_cons_self
          obtain ⟨memory, hstore⟩ : ∃ memory, CMemory.store con.receiveBuffer 0 transfer =
              some memory := CMemory.store_of_le (by rw [h.memory]; omega)
          have htake : memory.take transfer.length = transfer := by
            have := CMemory.store_take hstore
            rwa [Nat.zero_add, List.take_zero, List.nil_append] at this
          have hfilled : (UsbConnection.mk memory 0 transfer.length).Within := by
            constructor
            · rw [CMemory.store_length hstore, h.memory]
            · show 0 + transfer.length ≤ usbLength
              omega
          have hbuffered : (UsbConnection.mk memory 0 transfer.length).buffered = transfer := by
            show (memory.drop 0).take transfer.length = transfer
            rw [List.drop_zero, htake]
          have htakes := ih _ hfilled fun t hmem => ht t (List.mem_cons_of_mem _ hmem)
          simp only [hstore]
          -- What the call that follows takes is what this one takes.
          have hstream : transfer ++ transfers.flatten =
              con.buffered ++ (transfer :: transfers).flatten := by
            rw [buffered_nil hnone, List.flatten_cons, List.nil_append]
          revert htakes
          generalize readAccessoryUSB ⟨memory, 0, transfer.length⟩ size transfers = read
          intro htakes
          cases htakes with
          | returned bytes con' rest within suffix nonempty length stream =>
              rw [hbuffered, hstream] at stream
              exact .returned bytes con' rest within (suffix.trans (List.suffix_cons _ _)) nonempty
                length stream
          | waiting con' within stream =>
              rw [hbuffered, hstream] at stream
              exact .waiting con' within stream

/-! ## A whole request -/

/-- The stream that is left. -/
def stream (con : UsbConnection) (transfers : List (List UInt8)) : List UInt8 :=
  con.buffered ++ transfers.flatten

theorem readAllLoop_succ {rounds size : Nat} (hsize : 0 < size) (con : UsbConnection)
    (handed : List UInt8) (transfers : List (List UInt8)) :
    readAllLoop (rounds + 1) con handed size transfers =
      match con.readAccessoryUSB size transfers with
      | .returned bytes con transfers =>
          readAllLoop rounds con (handed ++ bytes) (size - bytes.length) transfers
      | .waiting con => .waiting con
      | .fault => .fault := by
  rw [readAllLoop.eq_def]
  exact if_pos hsize

/-- The induction is on the rounds, of which there are at least `size`. -/
theorem readAllLoop_spec (rounds : Nat) :
    ∀ (con : UsbConnection) (handed : List UInt8) (size : Nat) (transfers : List (List UInt8)),
      con.Within → (∀ t ∈ transfers, t.length ≤ usbLength) → size ≤ rounds →
      if size ≤ (con.stream transfers).length then
        ∃ (con' : UsbConnection) (rest : List (List UInt8)),
          readAllLoop rounds con handed size transfers =
            .returned (handed ++ (con.stream transfers).take size) con' rest ∧
          con'.Within ∧ (∀ t ∈ rest, t.length ≤ usbLength) ∧
          con'.stream rest = (con.stream transfers).drop size
      else ∃ con' : UsbConnection, readAllLoop rounds con handed size transfers = .waiting con' ∧
          con'.Within := by
  induction rounds with
  | zero =>
      intro con handed size transfers h ht hrounds
      have hzero : size = 0 := by omega
      subst hzero
      rw [if_pos (Nat.zero_le _)]
      exact ⟨con, transfers, by simp [readAllLoop], h, ht, rfl⟩
  | succ rounds ih =>
      intro con handed size transfers h ht hrounds
      by_cases hsize : 0 < size
      · have htakes := readAccessoryUSB_takes hsize transfers con h ht
        rw [readAllLoop_succ hsize]
        generalize con.readAccessoryUSB size transfers = read at htakes
        cases htakes with
        | returned bytes con' rest within suffix nonempty length hstream =>
            have hpos : 0 < bytes.length := List.length_pos_of_ne_nil nonempty
            have hsplit : con.stream transfers = bytes ++ con'.stream rest := hstream.symm
            have hrest := ih con' (handed ++ bytes) (size - bytes.length) rest within
              (fun t hmem => ht t (suffix.subset hmem)) (by omega)
            have hcond : size - bytes.length ≤ (con'.stream rest).length ↔
                size ≤ (con.stream transfers).length := by
              rw [hsplit, List.length_append]
              omega
            have htake : (con.stream transfers).take size =
                bytes ++ (con'.stream rest).take (size - bytes.length) := by
              rw [hsplit, List.take_append, List.take_of_length_le length]
            have hdrop : (con.stream transfers).drop size =
                (con'.stream rest).drop (size - bytes.length) := by
              rw [hsplit, List.drop_append, List.drop_of_length_le length, List.nil_append]
            simp only [hcond] at hrest
            rw [htake, hdrop, ← List.append_assoc]
            exact hrest
        | waiting con' within hstream =>
            have hshort : ¬size ≤ (con.stream transfers).length := by
              show ¬size ≤ (con.buffered ++ transfers.flatten).length
              rw [hstream]
              simp only [List.length_nil]
              omega
            rw [if_neg hshort]
            exact ⟨con', rfl, within⟩
      · have hzero : size = 0 := by omega
        subst hzero
        rw [if_pos (Nat.zero_le _)]
        exact ⟨con, transfers, by simp [readAllLoop], h, ht, rfl⟩

end UsbConnection

/-! ## Any number of requests -/

/-- `handed` is what the requests so far have put at the place of their caller. -/
structure UsbState where
  con : UsbConnection
  transfers : List (List UInt8)
  handed : List (List UInt8)

/-- A label is the size of a request; one that waits is not over. -/
def usbReader : Machine UsbState Nat where
  init s := ∃ memory : List UInt8, memory.length = usbLength ∧ s.con = .opened memory ∧ s.handed = []
  step s size :=
    match s.con.readAllAccessory size s.transfers with
    | .returned bytes con transfers => some ⟨con, transfers, s.handed ++ [bytes]⟩
    | .waiting _ | .fault => none

namespace UsbState

/-- The connection is sound and no transfer to come exceeds the buffer. -/
structure Sound (s : UsbState) : Prop where
  within : s.con.Within
  fits : ∀ t ∈ s.transfers, t.length ≤ usbLength

def left (s : UsbState) : List UInt8 := s.con.stream s.transfers

theorem step_spec {s : UsbState} (size : Nat) (h : s.Sound) :
    if size ≤ s.left.length then
      ∃ t : UsbState, usbReader.step s size = some t ∧ t.Sound ∧
        t.handed = s.handed ++ [s.left.take size] ∧ t.left = s.left.drop size
    else usbReader.step s size = none := by
  have hread := UsbConnection.readAllLoop_spec size s.con [] size s.transfers h.within h.fits
    (Nat.le_refl size)
  show if size ≤ (s.con.stream s.transfers).length then _ else _
  split
  · next henough =>
      rw [if_pos henough] at hread
      obtain ⟨con', rest, hreturned, hwithin, hfits, hleft⟩ := hread
      rw [List.nil_append] at hreturned
      refine ⟨⟨con', rest, s.handed ++ [s.left.take size]⟩, ?_, ⟨hwithin, hfits⟩, rfl, hleft⟩
      simp only [usbReader, UsbConnection.readAllAccessory, hreturned]
      rfl
  · next hshort =>
      rw [if_neg hshort] at hread
      obtain ⟨con', hwaiting, _⟩ := hread
      simp only [usbReader, UsbConnection.readAllAccessory, hwaiting]

theorem run_spec (sizes : List Nat) :
    ∀ s : UsbState, s.Sound →
      if sizes.sum ≤ s.left.length then
        ∃ t : UsbState, usbReader.run s sizes = some t ∧ t.Sound ∧
          t.handed = s.handed ++ sizes.splitLengths s.left ∧ t.left = s.left.drop sizes.sum
      else usbReader.run s sizes = none := by
  induction sizes with
  | nil =>
      intro s h
      rw [List.sum_nil, if_pos (Nat.zero_le _)]
      exact ⟨s, rfl, h, by simp, rfl⟩
  | cons size sizes ih =>
      intro s h
      have hstep := step_spec size h
      rw [List.sum_cons]
      split at hstep
      · next henough =>
          obtain ⟨m, hm, hsound, hhanded, hleft⟩ := hstep
          have hrun : usbReader.run s (size :: sizes) = usbReader.run m sizes := by
            simp only [Machine.run, hm, Option.bind_some]
          have hcond : sizes.sum ≤ m.left.length ↔ size + sizes.sum ≤ s.left.length := by
            rw [hleft, List.length_drop]
            omega
          have hrest := ih m hsound
          simp only [hcond] at hrest
          rw [hrun]
          rw [hhanded, hleft, List.append_assoc, List.singleton_append, List.drop_drop] at hrest
          rw [List.splitLengths_cons]
          exact hrest
      · next hshort =>
          rw [if_neg (by omega)]
          simp only [Machine.run, hstep, Option.bind_none]

end UsbState

/-- The requests of the sizes `sizes` are served exactly when the transfers hold
enough bytes, and then they get the consecutive pieces of these sizes. -/
theorem usb_reads_transparent (memory : List UInt8) (hmemory : memory.length = usbLength)
    (transfers : List (List UInt8)) (ht : ∀ t ∈ transfers, t.length ≤ usbLength)
    (sizes : List Nat) :
    ((usbReader.run ⟨.opened memory, transfers, []⟩ sizes).isSome ↔
      sizes.sum ≤ transfers.flatten.length) ∧
    ∀ s, usbReader.run ⟨.opened memory, transfers, []⟩ sizes = some s →
      s.handed = sizes.splitLengths transfers.flatten ∧
      s.con.buffered ++ s.transfers.flatten = transfers.flatten.drop sizes.sum ∧
      s.con.startValidData + s.con.read ≤ usbLength := by
  have hsound : (UsbState.mk (.opened memory) transfers []).Sound :=
    ⟨⟨hmemory, Nat.zero_le _⟩, ht⟩
  have hleft : (UsbState.mk (.opened memory) transfers []).left = transfers.flatten := by
    show (UsbConnection.opened memory).buffered ++ transfers.flatten = transfers.flatten
    rw [UsbConnection.buffered_nil rfl, List.nil_append]
  have hrun := UsbState.run_spec sizes _ hsound
  rw [hleft] at hrun
  split at hrun
  · next henough =>
      obtain ⟨t, ht', hsound', hhanded, hrest⟩ := hrun
      rw [ht']
      constructor
      · exact iff_of_true rfl henough
      · intro s hs
        cases hs
        rw [List.nil_append] at hhanded
        exact ⟨hhanded, hrest, hsound'.within.valid⟩
  · next hshort =>
      rw [hrun]
      constructor
      · exact iff_of_false (by simp) hshort
      · intro s hs
        cases hs

/-- A transfer of three bytes, an empty one and one of two; requests of two and
three bytes. -/
theorem usb_reads_transparent_five :
    ∃ s, usbReader.run ⟨.opened (List.replicate usbLength 0), [[1, 2, 3], [], [4, 5]], []⟩ [2, 3] =
      some s ∧ s.handed = [[1, 2], [3, 4, 5]] ∧ s.con.startValidData + s.con.read ≤ usbLength := by
  have h := usb_reads_transparent (List.replicate usbLength 0) List.length_replicate
    [[1, 2, 3], [], [4, 5]] (by simp [usbLength]) [2, 3]
  obtain ⟨s, hs⟩ := Option.isSome_iff_exists.mp (h.1.mpr (by decide))
  have hall := h.2 s hs
  exact ⟨s, hs, hall.1, hall.2.2⟩

end AapBridge.Accessory
