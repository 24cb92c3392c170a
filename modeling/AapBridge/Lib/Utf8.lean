import Mathlib

/-! # UTF-8 of UTF-16 code units

A string of code units, as a virtual machine keeps it, and its UTF-8 encoding. A
surrogate without its other half has none and becomes a question mark.
-/

namespace AapBridge.Lib

abbrev CodeUnit := BitVec 16

def isHighSurrogate (u : CodeUnit) : Bool := 0xD800 ≤ u.toNat && u.toNat < 0xDC00

def isLowSurrogate (u : CodeUnit) : Bool := 0xDC00 ≤ u.toNat && u.toNat < 0xE000

/-- The code point of a surrogate pair. -/
def codePoint (high low : CodeUnit) : Nat :=
  0x10000 + (high.toNat - 0xD800) * 0x400 + (low.toNat - 0xDC00)

/-- A continuation byte with six bits of `v`. -/
def continuation (v : Nat) : UInt8 := UInt8.ofNat (0x80 + v % 0x40)

def utf8 : List CodeUnit → List UInt8
  | [] => []
  | [u] => single u
  | u :: low :: rest =>
      if isHighSurrogate u && isLowSurrogate low then
        UInt8.ofNat (0xF0 + codePoint u low / 0x40000) :: continuation (codePoint u low / 0x1000) ::
          continuation (codePoint u low / 0x40) :: continuation (codePoint u low) :: utf8 rest
      else single u ++ utf8 (low :: rest)
where
  /-- A code unit that is not half of a pair. -/
  single (u : CodeUnit) : List UInt8 :=
    if u.toNat < 0x80 then [UInt8.ofNat u.toNat]
    else if u.toNat < 0x800 then [UInt8.ofNat (0xC0 + u.toNat / 0x40), continuation u.toNat]
    else if isHighSurrogate u || isLowSurrogate u then [0x3F]
    else [UInt8.ofNat (0xE0 + u.toNat / 0x1000), continuation (u.toNat / 0x40), continuation u.toNat]

theorem continuation_high (v : Nat) : 0x80 ≤ (continuation v).toNat := by
  simp only [continuation, UInt8.toNat_ofNat']
  omega

private theorem ofNat_high {n : Nat} (hlow : 0x80 ≤ n) (hhigh : n < 256) :
    0x80 ≤ (UInt8.ofNat n).toNat := by
  rw [UInt8.toNat_ofNat']
  omega

private theorem not_mem_of_high {b : UInt8} {bs : List UInt8} (hb : b.toNat < 0x80)
    (h : ∀ c ∈ bs, 0x80 ≤ c.toNat) : b ∉ bs := by
  intro hmem
  have hhigh := h b hmem
  omega

/-- A byte of ASCII, other than the question mark of the unpaired, stands for itself. -/
theorem utf8.mem_single {b : UInt8} {u : CodeUnit} (hb : b.toNat < 0x80) (hmark : b ≠ 0x3F) :
    b ∈ utf8.single u ↔ u.toNat = b.toNat := by
  have hlt := u.isLt
  unfold utf8.single
  split
  · next hascii =>
    rw [List.mem_singleton, ← UInt8.toNat_inj, UInt8.toNat_ofNat', Nat.mod_eq_of_lt (by omega)]
    exact eq_comm
  · next hascii =>
    apply iff_of_false _ (by omega)
    split
    · apply not_mem_of_high hb
      rw [List.forall_mem_cons, List.forall_mem_singleton]
      exact ⟨ofNat_high (by omega) (by omega), continuation_high _⟩
    · split
      · simpa using hmark
      · apply not_mem_of_high hb
        rw [List.forall_mem_cons, List.forall_mem_cons, List.forall_mem_singleton]
        exact ⟨ofNat_high (by omega) (by omega), continuation_high _, continuation_high _⟩

/-- The encoding of a string holds the ASCII bytes of its characters. -/
theorem mem_utf8 {b : UInt8} {s : List CodeUnit} (hb : b.toNat < 0x80) (hmark : b ≠ 0x3F) :
    b ∈ utf8 s ↔ ∃ u ∈ s, u.toNat = b.toNat := by
  induction s using utf8.induct with
  | case1 => simp [utf8]
  | case2 u =>
      rw [utf8, utf8.mem_single hb hmark]
      simp
  | case3 u low rest hpair ih =>
      have hlow := low.isLt
      have hhigh := u.isLt
      simp only [isHighSurrogate, isLowSurrogate, Bool.and_eq_true, decide_eq_true_eq] at hpair
      have hbytes : b ∉ [UInt8.ofNat (0xF0 + codePoint u low / 0x40000), continuation (codePoint u low / 0x1000),
          continuation (codePoint u low / 0x40), continuation (codePoint u low)] := by
        apply not_mem_of_high hb
        rw [List.forall_mem_cons, List.forall_mem_cons, List.forall_mem_cons, List.forall_mem_singleton]
        refine ⟨ofNat_high (by omega) ?_, continuation_high _, continuation_high _, continuation_high _⟩
        unfold codePoint
        omega
      rw [utf8, if_pos (by simp [isHighSurrogate, isLowSurrogate]; omega)]
      show b ∈ [_, _, _, _] ++ utf8 rest ↔ _
      rw [List.mem_append, or_iff_right hbytes, ih, List.exists_mem_cons_iff, List.exists_mem_cons_iff,
        or_iff_right (show ¬u.toNat = b.toNat by omega), or_iff_right (show ¬low.toNat = b.toNat by omega)]
  | case4 u low rest hpair ih =>
      rw [utf8, if_neg hpair, List.mem_append, ih, utf8.mem_single hb hmark]
      exact (List.exists_mem_cons_iff (fun u => u.toNat = b.toNat) u (low :: rest)).symm

/-- Only the character NUL has a zero byte in its encoding. -/
theorem utf8_nonzero {s : List CodeUnit} (hs : 0 ∉ s) : 0 ∉ utf8 s := by
  rw [mem_utf8 (by decide) (by decide)]
  rintro ⟨u, hu, hzero⟩
  have hnul : u = 0 := BitVec.eq_of_toNat_eq hzero
  exact hs (hnul ▸ hu)

/-! ## Texts of Unicode characters -/

/-- The code units of a character: itself, or a surrogate pair. -/
def utf16Char (c : Char) : List CodeUnit :=
  if c.toNat < 0x10000 then [BitVec.ofNat 16 c.toNat]
  else [BitVec.ofNat 16 (0xD800 + (c.toNat - 0x10000) / 0x400),
    BitVec.ofNat 16 (0xDC00 + (c.toNat - 0x10000) % 0x400)]

def utf16 (text : List Char) : List CodeUnit := text.flatMap utf16Char

theorem toNat_bounds (c : Char) : c.toNat < 0xD800 ∨ 0xDFFF < c.toNat ∧ c.toNat < 0x110000 := by
  have hvalid : c.val.isValidChar := c.valid
  simp only [UInt32.isValidChar, Nat.isValidChar] at hvalid
  exact hvalid

theorem utf8EncodeChar_ascii {c : Char} (h : c.toNat < 128) :
    String.utf8EncodeChar c = [UInt8.ofNat c.toNat] :=
  if_pos (show c.toNat ≤ 0x7f by omega)

theorem utf8_cons {u : CodeUnit} (hu : isHighSurrogate u = false) (rest : List CodeUnit) :
    utf8 (u :: rest) = utf8.single u ++ utf8 rest := by
  cases rest with
  | nil => simp [utf8]
  | cons low rest => rw [utf8, if_neg (by rw [hu]; simp)]

/-- A character of the basic plane is not half of a pair. -/
theorem basic_not_surrogate {c : Char} (h : c.toNat < 0x10000) :
    isHighSurrogate (BitVec.ofNat 16 c.toNat) = false ∧
      isLowSurrogate (BitVec.ofNat 16 c.toNat) = false := by
  have hvalid := toNat_bounds c
  have hnat : (BitVec.ofNat 16 c.toNat).toNat = c.toNat := by
    rw [BitVec.toNat_ofNat]
    omega
  unfold isHighSurrogate isLowSurrogate
  rw [hnat]
  simp only [Bool.and_eq_false_iff, decide_eq_false_iff_not]
  omega

theorem utf8.single_char {c : Char} (h : c.toNat < 0x10000) :
    utf8.single (BitVec.ofNat 16 c.toNat) = String.utf8EncodeChar c := by
  have hnat : (BitVec.ofNat 16 c.toNat).toNat = c.toNat := by
    rw [BitVec.toNat_ofNat]
    omega
  have hval : c.val.toNat = c.toNat := rfl
  obtain ⟨hhigh, hlow⟩ := basic_not_surrogate h
  unfold utf8.single String.utf8EncodeChar
  simp only [hnat, hval, hhigh, hlow]
  by_cases h₁ : c.toNat < 0x80
  · rw [if_pos h₁, if_pos (show c.toNat ≤ 127 by omega)]
  · rw [if_neg h₁, if_neg (show ¬c.toNat ≤ 127 by omega)]
    by_cases h₂ : c.toNat < 0x800
    · rw [if_pos h₂, if_pos (show c.toNat ≤ 2047 by omega), continuation, Nat.add_comm,
        Nat.mod_eq_of_lt (show c.toNat / 64 < 32 by omega), Nat.add_comm 128]
    · rw [if_neg h₂, if_neg (show ¬c.toNat ≤ 2047 by omega), if_neg (by simp),
        if_pos (show c.toNat ≤ 65535 by omega), continuation, continuation, Nat.add_comm,
        Nat.mod_eq_of_lt (show c.toNat / 4096 < 16 by omega), Nat.add_comm 128, Nat.add_comm 128]

/-- A character beyond the basic plane is a pair. -/
theorem utf8_pair {c : Char} (h : ¬c.toNat < 0x10000) (rest : List CodeUnit) :
    utf8 (BitVec.ofNat 16 (0xD800 + (c.toNat - 0x10000) / 0x400) ::
      BitVec.ofNat 16 (0xDC00 + (c.toNat - 0x10000) % 0x400) :: rest) =
      String.utf8EncodeChar c ++ utf8 rest := by
  have hvalid := toNat_bounds c
  have hhigh : (BitVec.ofNat 16 (0xD800 + (c.toNat - 0x10000) / 0x400)).toNat =
      0xD800 + (c.toNat - 0x10000) / 0x400 := by
    rw [BitVec.toNat_ofNat]
    omega
  have hlow : (BitVec.ofNat 16 (0xDC00 + (c.toNat - 0x10000) % 0x400)).toNat =
      0xDC00 + (c.toNat - 0x10000) % 0x400 := by
    rw [BitVec.toNat_ofNat]
    omega
  have hpoint : codePoint (BitVec.ofNat 16 (0xD800 + (c.toNat - 0x10000) / 0x400))
      (BitVec.ofNat 16 (0xDC00 + (c.toNat - 0x10000) % 0x400)) = c.toNat := by
    unfold codePoint
    rw [hhigh, hlow]
    omega
  have hpair : (isHighSurrogate (BitVec.ofNat 16 (0xD800 + (c.toNat - 0x10000) / 0x400)) &&
      isLowSurrogate (BitVec.ofNat 16 (0xDC00 + (c.toNat - 0x10000) % 0x400))) = true := by
    unfold isHighSurrogate isLowSurrogate
    rw [hhigh, hlow]
    simp only [Bool.and_eq_true, decide_eq_true_eq]
    omega
  have hval : c.val.toNat = c.toNat := rfl
  rw [utf8, if_pos hpair, hpoint]
  unfold String.utf8EncodeChar continuation
  simp only [hval]
  rw [if_neg (show ¬c.toNat ≤ 127 by omega), if_neg (show ¬c.toNat ≤ 2047 by omega),
    if_neg (show ¬c.toNat ≤ 65535 by omega), Nat.add_comm,
    Nat.mod_eq_of_lt (show c.toNat / 262144 < 8 by omega), Nat.add_comm 128, Nat.add_comm 128,
    Nat.add_comm 128]
  rfl

/-- The code units of a text are encoded as the text is. -/
theorem utf8_utf16 (text : List Char) : utf8 (utf16 text) = text.flatMap String.utf8EncodeChar := by
  induction text with
  | nil => rfl
  | cons c text ih =>
      unfold utf16 at ih ⊢
      rw [List.flatMap_cons, List.flatMap_cons, utf16Char]
      by_cases h : c.toNat < 0x10000
      · rw [if_pos h, List.singleton_append, utf8_cons (basic_not_surrogate h).1, utf8.single_char h,
          ih]
      · rw [if_neg h, List.cons_append, List.cons_append, List.nil_append, utf8_pair h, ih]

/-- `é`, `€` and a pair, by the tables of the encoding. -/
example : utf8 [0xE9, 0x20AC, 0xD83D, 0xDE00] =
    [0xC3, 0xA9, 0xE2, 0x82, 0xAC, 0xF0, 0x9F, 0x98, 0x80] := by decide

end AapBridge.Lib
