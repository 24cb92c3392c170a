import AapBridge.Lib.CMemory
import AapBridge.Lib.Words

/-! # Heap byte buffers

`java.nio.ByteBuffer` as far as ports use it: an array, where the buffer begins
in it, and position, limit and mark, which never leave it. What a method throws
is `none`.
-/

namespace AapBridge.Android

open AapBridge.Lib

/-- A Java `short`; its value is `toInt`. -/
abbrev Short := BitVec 16

/-- The bytes `putShort` writes on a little-endian buffer. -/
def shortBytes (value : Short) : List UInt8 := ByteOrder.littleEndian.put 2 value.toNat

@[simp] theorem shortBytes_length (value : Short) : (shortBytes value).length = 2 := by
  simp [shortBytes]

structure ByteBuffer where
  array : List UInt8
  arrayOffset : Nat
  capacity : Nat
  limit : Nat
  position : Nat
  mark : Option Nat
  inside : arrayOffset + capacity ≤ array.length
  limit_le : limit ≤ capacity
  position_le : position ≤ limit

namespace ByteBuffer

def allocate (capacity : Nat) : ByteBuffer where
  array := List.replicate capacity 0
  arrayOffset := 0
  capacity := capacity
  limit := capacity
  position := 0
  mark := none
  inside := by simp
  limit_le := Nat.le_refl _
  position_le := Nat.zero_le _

def remaining (b : ByteBuffer) : Nat := b.limit - b.position

def hasRemaining (b : ByteBuffer) : Bool := b.position < b.limit

/-- The bytes between position and limit. -/
def contents (b : ByteBuffer) : List UInt8 :=
  (b.array.drop (b.arrayOffset + b.position)).take b.remaining

/-- `position(newPosition)`; a mark behind it is discarded. -/
def setPosition (b : ByteBuffer) (newPosition : Nat) : Option ByteBuffer :=
  if h : newPosition ≤ b.limit then
    some { b with
      position := newPosition
      mark := b.mark.filter (· ≤ newPosition)
      position_le := h }
  else none

def setMark (b : ByteBuffer) : ByteBuffer := { b with mark := some b.position }

/-- `reset`: back to the mark, which never lies behind the position. -/
def reset (b : ByteBuffer) : Option ByteBuffer := b.mark.bind b.setPosition

/-- `put` of a byte or of an array of bytes. -/
def put (b : ByteBuffer) (bytes : List UInt8) : Option ByteBuffer :=
  if h : b.position + bytes.length ≤ b.limit then
    some { b with
      array := b.array.take (b.arrayOffset + b.position) ++ bytes ++
        b.array.drop (b.arrayOffset + b.position + bytes.length)
      position := b.position + bytes.length
      inside := by
        have hinside := b.inside
        have hlimit := b.limit_le
        simp
        omega
      position_le := h }
  else none

/-- `putShort` on a buffer whose order is little endian. -/
def putShort (b : ByteBuffer) (value : Short) : Option ByteBuffer := b.put (shortBytes value)

def clear (b : ByteBuffer) : ByteBuffer :=
  { b with
    position := 0
    limit := b.capacity
    mark := none
    limit_le := Nat.le_refl _
    position_le := Nat.zero_le _ }

def flip (b : ByteBuffer) : ByteBuffer :=
  { b with
    position := 0
    limit := b.position
    mark := none
    limit_le := b.position_le.trans b.limit_le
    position_le := Nat.zero_le _ }

/-- The bytes in front of the position. -/
def written (b : ByteBuffer) : List UInt8 := (b.array.drop b.arrayOffset).take b.position

theorem contents_length (b : ByteBuffer) : b.contents.length = b.remaining := by
  have hinside := b.inside
  have hlimit := b.limit_le
  have hposition := b.position_le
  simp only [contents, remaining, List.length_take, List.length_drop]
  omega

theorem hasRemaining_iff (b : ByteBuffer) : b.hasRemaining = true ↔ b.contents ≠ [] := by
  rw [← List.length_pos_iff, contents_length]
  simp only [hasRemaining, remaining, decide_eq_true_eq]
  omega

/-- Moving on by `n` bytes drops them from the contents. -/
theorem setPosition_contents {b : ByteBuffer} {n : Nat} (h : n ≤ b.remaining) :
    ∃ b', b.setPosition (b.position + n) = some b' ∧ b'.contents = b.contents.drop n := by
  have hposition := b.position_le
  unfold remaining at h
  refine ⟨_, dif_pos (by omega), ?_⟩
  have hrest : b.limit - (b.position + n) = b.limit - b.position - n := by omega
  simp only [contents, remaining, hrest, List.drop_take, List.drop_drop, Nat.add_assoc]

theorem reset_of_mark {b : ByteBuffer} {m : Nat} (hmark : b.mark = some m) (hm : m ≤ b.limit) :
    ∃ b', b.reset = some b' ∧ b'.array = b.array ∧ b'.arrayOffset = b.arrayOffset ∧
      b'.capacity = b.capacity ∧ b'.limit = b.limit ∧ b'.mark = some m ∧ b'.position = m := by
  have hset : b.reset = b.setPosition m := by rw [reset, hmark, Option.bind_some]
  refine ⟨_, hset.trans (dif_pos hm), rfl, rfl, rfl, rfl, ?_, rfl⟩
  simp [hmark]

theorem put_of_le {b : ByteBuffer} (bytes : List UInt8) (h : b.position + bytes.length ≤ b.limit) :
    ∃ b', b.put bytes = some b' ∧ b'.array = b.array.take (b.arrayOffset + b.position) ++
        bytes ++ b.array.drop (b.arrayOffset + b.position + bytes.length) ∧
      b'.arrayOffset = b.arrayOffset ∧ b'.capacity = b.capacity ∧ b'.limit = b.limit ∧
      b'.mark = b.mark ∧ b'.position = b.position + bytes.length :=
  ⟨_, dif_pos h, rfl, rfl, rfl, rfl, rfl, rfl⟩

theorem putShort_of_le {b : ByteBuffer} (value : Short) (h : b.position + 2 ≤ b.limit) :
    ∃ b', b.putShort value = some b' ∧ b'.array = b.array.take (b.arrayOffset + b.position) ++
        shortBytes value ++ b.array.drop (b.arrayOffset + b.position + 2) ∧
      b'.arrayOffset = b.arrayOffset ∧ b'.capacity = b.capacity ∧ b'.limit = b.limit ∧
      b'.mark = b.mark ∧ b'.position = b.position + 2 := by
  have hput := put_of_le (b := b) (shortBytes value) (by rw [shortBytes_length]; exact h)
  rw [shortBytes_length] at hput
  exact hput

/-- The first `n` bytes of the contents, read where the array holds them. -/
theorem load_contents {b : ByteBuffer} {n : Nat} (h : n ≤ b.remaining) :
    CMemory.load b.array (b.arrayOffset + b.position) n = some (b.contents.take n) := by
  have hinside := b.inside
  have hlimit := b.limit_le
  have hposition := b.position_le
  unfold remaining at h
  rw [CMemory.load, if_pos (by omega), contents, List.take_take, remaining, Nat.min_eq_left h]

/-! ## Methods that write -/

structure Extends (b' b : ByteBuffer) (bytes : List UInt8) : Prop where
  written : b'.written = b.written ++ bytes
  position : b'.position = b.position + bytes.length
  limit : b'.limit = b.limit
  capacity : b'.capacity = b.capacity

/-- `f` puts `bytes` behind the position, and throws if they do not fit. -/
structure Writes (f : ByteBuffer → Option ByteBuffer) (bytes : List UInt8) : Prop where
  fits : ∀ b, b.position + bytes.length ≤ b.limit → ∃ b', f b = some b' ∧ b'.Extends b bytes
  overflow : ∀ b, ¬b.position + bytes.length ≤ b.limit → f b = none

theorem Writes.extends_of_eq {f : ByteBuffer → Option ByteBuffer} {bytes : List UInt8} {b b' : ByteBuffer}
    (hf : Writes f bytes) (h : f b = some b') : b'.Extends b bytes := by
  by_cases hfits : b.position + bytes.length ≤ b.limit
  · obtain ⟨full, hfull, hext⟩ := hf.fits b hfits
    rw [h] at hfull
    cases hfull
    exact hext
  · rw [hf.overflow b hfits] at h
    cases h

theorem writes_put (bytes : List UInt8) : Writes (put · bytes) bytes where
  fits := by
    intro b h
    obtain ⟨b', hput, harray, hoffset, hcapacity, hlimit, -, hposition⟩ := put_of_le bytes h
    refine ⟨b', hput, ?_, hposition, hlimit, hcapacity⟩
    have hinside := b.inside
    have hle := b.limit_le
    have htake : (b.array.take (b.arrayOffset + b.position)).length = b.arrayOffset + b.position := by
      rw [List.length_take]
      omega
    have hhead : (b.array.take (b.arrayOffset + b.position) ++ bytes).length =
        b.arrayOffset + (b.position + bytes.length) := by
      rw [List.length_append, htake]
      omega
    unfold ByteBuffer.written
    rw [harray, hoffset, hposition, List.take_drop, List.take_drop, ← hhead, List.take_left,
      List.drop_append_of_le_length (by omega)]
  overflow b h := dif_neg h

theorem writes_pure : Writes some [] where
  fits b _ := ⟨b, rfl, by simp, rfl, rfl, rfl⟩
  overflow b h := absurd b.position_le h

theorem Writes.bind {f g : ByteBuffer → Option ByteBuffer} {as bs : List UInt8} (hf : Writes f as)
    (hg : Writes g bs) : Writes (fun b => (f b).bind g) (as ++ bs) where
  fits := by
    intro b h
    rw [List.length_append] at h
    obtain ⟨b₁, h₁, hext⟩ := hf.fits b (by omega)
    obtain ⟨b₂, h₂, hext₂⟩ := hg.fits b₁ (by rw [hext.position, hext.limit]; omega)
    refine ⟨b₂, by rw [h₁]; exact h₂, ?_, ?_, ?_, ?_⟩
    · rw [hext₂.written, hext.written, List.append_assoc]
    · rw [hext₂.position, hext.position, List.length_append, Nat.add_assoc]
    · rw [hext₂.limit, hext.limit]
    · rw [hext₂.capacity, hext.capacity]
  overflow := by
    intro b h
    rw [List.length_append] at h
    by_cases hfits : b.position + as.length ≤ b.limit
    · obtain ⟨b₁, h₁, hext⟩ := hf.fits b hfits
      rw [h₁]
      exact hg.overflow b₁ (by rw [hext.position, hext.limit]; omega)
    · rw [hf.overflow b hfits]
      rfl

/-- A loop that writes something for every element. -/
theorem writes_foldlM {α : Type*} {f : α → ByteBuffer → Option ByteBuffer} {bytes : α → List UInt8}
    (hf : ∀ a, Writes (f a) (bytes a)) (as : List α) :
    Writes (fun b => as.foldlM (fun b a => f a b) b) (as.flatMap bytes) := by
  induction as with
  | nil => exact writes_pure
  | cons a as ih => exact (hf a).bind ih

@[simp] theorem flip_contents (b : ByteBuffer) : b.flip.contents = b.written := by
  simp [contents, flip, remaining, written]

@[simp] theorem clear_written (b : ByteBuffer) : b.clear.written = [] := by
  simp [clear, written]

end ByteBuffer

end AapBridge.Android
