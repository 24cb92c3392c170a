import AapBridge.Lib.Utf8
import AapBridge.Wire.FlatDecoding

/-! # Texts of any kind

Strings, object paths and signatures as the D-Bus specification allows them, and
what `DbusString.parse`, `DbusObjectPath` and `DbusSignature` make of them. Each
byte of a text becomes a character of its own, and the length of a signature is
a signed byte.
-/

namespace AapBridge.Wire

open AapBridge.Lib AapBridge.Android Cursor

inductive TextKind where
  | string
  | objectPath
  | signature
deriving DecidableEq

/-- The characters of object paths. -/
def pathCharacter (c : Char) : Bool := c.isAlphanum || c == '_' || c == '/'

/-- The characters of signatures. -/
def signatureCharacter (c : Char) : Bool :=
  ['y', 'b', 'n', 'q', 'i', 'u', 'x', 't', 'd', 'h', 's', 'o', 'g', 'a', 'v', '(', ')', '{',
    '}'].contains c

def TextKind.Allows (text : List Char) : TextKind → Prop
  | string => Char.ofNat 0 ∉ text
  | objectPath => ∀ c ∈ text, pathCharacter c
  | signature => (∀ c ∈ text, signatureCharacter c) ∧ text.length ≤ 255

instance (text : List Char) (kind : TextKind) : Decidable (kind.Allows text) := by
  unfold TextKind.Allows
  cases kind <;> infer_instance

structure TextValue where
  kind : TextKind
  text : List Char
  allowed : kind.Allows text

namespace TextValue

variable (v : TextValue)

def utf8Bytes : List UInt8 := v.text.flatMap String.utf8EncodeChar

/-- A signature has its length in one byte. -/
def lengthBytes : Nat :=
  match v.kind with
  | .string | .objectPath => 4
  | .signature => 1

def marshal (order : ByteOrder) (position : Nat) : List UInt8 :=
  padding v.lengthBytes position ++
    (order.put v.lengthBytes v.utf8Bytes.length ++ (v.utf8Bytes ++ [0]))

/-- `DbusString.parse` or the constructor of the class, which keeps the text. -/
def parse (bb : ReadBuffer) : Cursor JavaString :=
  match v.kind with
  | .string | .objectPath => bb.dbusString
  | .signature => bb.dbusSignature

/-- Only ASCII is left as it is, and only a length below 128 is not negative. -/
def Survives : Prop :=
  match v.kind with
  | .string => ∀ c ∈ v.text, c.toNat < 128
  | .objectPath => True
  | .signature => v.text.length ≤ 127

end TextValue

/-! ## Characters and bytes -/

theorem pathCharacter_ascii {c : Char} (h : pathCharacter c) : c.toNat < 128 := by
  simp only [pathCharacter, Char.isAlphanum, Char.isAlpha, Char.isUpper, Char.isLower, Char.isDigit,
    Bool.or_eq_true, Bool.and_eq_true, decide_eq_true_eq, beq_iff_eq, UInt32.le_iff_toNat_le,
    ge_iff_le] at h
  rcases h with (halnum | rfl) | rfl
  · have hval : c.val.toNat = c.toNat := rfl
    have hZ : 'Z'.val.toNat = 90 := rfl
    have hz : 'z'.val.toNat = 122 := rfl
    have hnine : '9'.val.toNat = 57 := rfl
    omega
  · decide
  · decide

theorem signatureCharacter_ascii {c : Char} (h : signatureCharacter c) : c.toNat < 128 := by
  have hmem := List.contains_iff_mem.mp h
  simp only [List.mem_cons, List.not_mem_nil, or_false] at hmem
  rcases hmem with rfl | rfl | rfl | rfl | rfl | rfl | rfl | rfl | rfl | rfl | rfl | rfl | rfl | rfl |
    rfl | rfl | rfl | rfl | rfl <;> decide

/-- A character takes at least as many bytes as code units, and more if it is
not ASCII. -/
theorem utf16Char_length (c : Char) :
    (utf16Char c).length ≤ (String.utf8EncodeChar c).length ∧
      ((utf16Char c).length = (String.utf8EncodeChar c).length → c.toNat < 128) := by
  have hval : c.val.toNat = c.toNat := rfl
  unfold utf16Char String.utf8EncodeChar
  simp only [hval]
  by_cases hascii : c.toNat ≤ 127
  · rw [if_pos (show c.toNat < 65536 by omega), if_pos hascii]
    exact ⟨Nat.le_refl _, fun _ => by omega⟩
  · rw [if_neg hascii]
    split <;> split <;> (try split) <;>
      simp only [List.length_cons, List.length_nil] <;> omega

theorem utf16_length (text : List Char) :
    (utf16 text).length ≤ (text.flatMap String.utf8EncodeChar).length ∧
      ((utf16 text).length = (text.flatMap String.utf8EncodeChar).length →
        ∀ c ∈ text, c.toNat < 128) := by
  induction text with
  | nil => exact ⟨Nat.le_refl _, fun _ => nofun⟩
  | cons c text ih =>
      obtain ⟨hle, hascii⟩ := utf16Char_length c
      unfold utf16 at ih ⊢
      simp only [List.flatMap_cons, List.length_append]
      constructor
      · omega
      · intro hlength d hd
        rcases List.mem_cons.mp hd with rfl | hd
        · exact hascii (by omega)
        · exact ih.2 (by omega) d hd

/-- The bytes of ASCII text. -/
theorem utf8_of_ascii {text : List Char} (h : ∀ c ∈ text, c.toNat < 128) :
    (∀ b ∈ text.flatMap String.utf8EncodeChar, b < 128) ∧
      units (text.flatMap String.utf8EncodeChar) = utf16 text ∧
      (text.flatMap String.utf8EncodeChar).length = text.length := by
  induction text with
  | nil => exact ⟨nofun, rfl, rfl⟩
  | cons c text ih =>
      have hc := h c List.mem_cons_self
      obtain ⟨hbytes, hunits, hlength⟩ := ih fun d hd => h d (List.mem_cons_of_mem _ hd)
      have hnat : (UInt8.ofNat c.toNat).toNat = c.toNat := by
        rw [UInt8.toNat_ofNat']
        omega
      rw [List.flatMap_cons, utf8EncodeChar_ascii hc, List.singleton_append]
      refine ⟨?_, ?_, ?_⟩
      · intro b hb
        rcases List.mem_cons.mp hb with rfl | hb
        · show (UInt8.ofNat c.toNat).toNat < 128
          rw [hnat]
          exact hc
        · exact hbytes b hb
      · have htail : utf16 (c :: text) = [BitVec.ofNat 16 c.toNat] ++ utf16 text := by
          unfold utf16
          rw [List.flatMap_cons, utf16Char, if_pos (show c.toNat < 65536 by omega)]
        rw [htail, ← hunits]
        simp [units, hnat]
      · rw [List.length_cons, hlength, List.length_cons]

/-- Sign extension leaves exactly ASCII text as it is. -/
theorem signed_utf8_iff (text : List Char) :
    signed (text.flatMap String.utf8EncodeChar) = utf16 text ↔ ∀ c ∈ text, c.toNat < 128 := by
  constructor
  · intro h
    apply (utf16_length text).2
    rw [← h]
    simp [signed]
  · intro h
    obtain ⟨hbytes, hunits, -⟩ := utf8_of_ascii h
    rw [signed_ascii hbytes, hunits]

/-! ## Parsing -/

namespace TextValue

variable {bytes : List UInt8} {order : ByteOrder} (v : TextValue)

/-- Strings and object paths are read to their end, whatever is in them. -/
theorem reads_long (hkind : v.kind ≠ .signature) (hbytes : bytes.length < 2 ^ 31) (position : Nat) :
    Reads bytes (v.parse ⟨bytes, order⟩) position (v.marshal order position) (signed v.utf8Bytes) := by
  have hread : Reads bytes ((⟨bytes, order⟩ : ReadBuffer).dbusString) position _ (signed v.utf8Bytes) :=
    reads_characters hbytes v.utf8Bytes position
  unfold parse marshal lengthBytes
  cases hcase : v.kind with
  | string | objectPath => exact hread
  | signature => exact absurd hcase hkind

theorem signature_ascii (hkind : v.kind = .signature) :
    (∀ c ∈ v.text, c.toNat < 128) ∧ v.text.length ≤ 255 := by
  have hallowed := v.allowed
  rw [hkind] at hallowed
  exact ⟨fun c hc => signatureCharacter_ascii (hallowed.1 c hc), hallowed.2⟩

theorem marshal_signature (hkind : v.kind = .signature) (position : Nat) :
    v.marshal order position = UInt8.ofNat v.text.length :: (v.utf8Bytes ++ [0]) := by
  have hlength : v.utf8Bytes.length = v.text.length := (utf8_of_ascii (v.signature_ascii hkind).1).2.2
  unfold marshal lengthBytes
  rw [hkind]
  simp only
  rw [padding_one, put_one, hlength]
  rfl

/-- A short signature is read to its end. -/
theorem reads_short (hkind : v.kind = .signature) (hshort : v.text.length ≤ 127) (position : Nat) :
    Reads bytes (v.parse ⟨bytes, order⟩) position (v.marshal order position) (utf16 v.text) := by
  obtain ⟨hascii, -⟩ := v.signature_ascii hkind
  obtain ⟨hbytes, hunits, hlength⟩ := utf8_of_ascii hascii
  have hread : Reads bytes ((⟨bytes, order⟩ : ReadBuffer).dbusSignature) position _ (units v.utf8Bytes) :=
    reads_dbusSignature ⟨⟨v.utf8Bytes, hbytes⟩, hlength.trans_le hshort⟩ position
  rw [BasicValue.text, put_one] at hread
  change Reads bytes _ position (UInt8.ofNat v.utf8Bytes.length :: (v.utf8Bytes ++ [0]))
    (units v.utf8Bytes) at hread
  unfold utf8Bytes at hread
  rw [hunits, hlength] at hread
  unfold parse
  rw [marshal_signature v hkind, hkind]
  exact hread

/-- The length of a long signature is negative; no character is read. -/
theorem long_signature (hkind : v.kind = .signature) (hlong : ¬v.text.length ≤ 127) {position : Nat}
    (hat : At bytes position (v.marshal order position)) (hpos : position ≤ bytes.length) :
    v.parse ⟨bytes, order⟩ position = .returns [] (position + 2) := by
  obtain ⟨hascii, hmax⟩ := v.signature_ascii hkind
  rw [marshal_signature v hkind] at hat
  obtain ⟨first, rest, hfirst⟩ : ∃ first rest, v.utf8Bytes ++ [0] = first :: rest := by
    cases v.utf8Bytes with
    | nil => exact ⟨0, [], rfl⟩
    | cons b bs => exact ⟨b, bs ++ [0], rfl⟩
  have hat' : At bytes position ([UInt8.ofNat v.text.length] ++ ([first] ++ rest)) := by
    rw [hfirst] at hat
    exact hat
  have hlength := reads_byte position _ hat'.left hpos
  have hterminator := reads_byte (position + 1) _ hat'.right.left (hat'.left.le hpos)
  have hnegative : (UInt8.ofNat v.text.length).toBitVec.toInt.toNat = 0 := by
    show (BitVec.ofNat 8 v.text.length).toInt.toNat = 0
    rw [BitVec.toInt_eq_toNat_cond, BitVec.toNat_ofNat]
    split <;> omega
  unfold parse
  rw [hkind]
  show (Cursor.byte bytes position).bind _ = _
  rw [hlength, Outcome.bind_returns]
  show Outcome.bind ((ReadBuffer.getChars ⟨bytes, order⟩ _) _) _ = _
  rw [hnegative]
  show (Cursor.byte bytes (position + 1)).bind _ = _
  rw [hterminator]
  rfl

theorem survives_string (hkind : v.kind = .string) : v.Survives ↔ ∀ c ∈ v.text, c.toNat < 128 := by
  rw [Survives, hkind]

theorem survives_signature (hkind : v.kind = .signature) : v.Survives ↔ v.text.length ≤ 127 := by
  rw [Survives, hkind]

theorem path_ascii (hkind : v.kind = .objectPath) : ∀ c ∈ v.text, c.toNat < 128 := by
  have hallowed := v.allowed
  rw [hkind] at hallowed
  exact fun c hc => pathCharacter_ascii (hallowed c hc)

theorem reads_text (h : v.Survives) (hbytes : bytes.length < 2 ^ 31) (position : Nat) :
    Reads bytes (v.parse ⟨bytes, order⟩) position (v.marshal order position) (utf16 v.text) := by
  cases hkind : v.kind with
  | string =>
      rw [← (signed_utf8_iff v.text).mpr ((v.survives_string hkind).mp h)]
      exact v.reads_long (by rw [hkind]; nofun) hbytes position
  | objectPath =>
      rw [← (signed_utf8_iff v.text).mpr (v.path_ascii hkind)]
      exact v.reads_long (by rw [hkind]; nofun) hbytes position
  | signature => exact v.reads_short hkind ((v.survives_signature hkind).mp h) position

/-- Any other text is read as a different one. -/
theorem reads_other (h : ¬v.Survives) (hbytes : bytes.length < 2 ^ 31) {position : Nat}
    (hpos : position ≤ bytes.length) (hat : At bytes position (v.marshal order position)) :
    ∃ text next, v.parse ⟨bytes, order⟩ position = .returns text next ∧ text ≠ utf16 v.text := by
  cases hkind : v.kind with
  | string =>
      refine ⟨_, _, v.reads_long (by rw [hkind]; nofun) hbytes position hat hpos, fun heq => h ?_⟩
      exact (v.survives_string hkind).mpr ((signed_utf8_iff v.text).mp heq)
  | objectPath =>
      rw [Survives, hkind] at h
      exact absurd trivial h
  | signature =>
      have hlong := mt (v.survives_signature hkind).mpr h
      refine ⟨_, _, v.long_signature hkind hlong hat hpos, fun heq => hlong ?_⟩
      obtain ⟨-, hunits, hlength⟩ := utf8_of_ascii (v.signature_ascii hkind).1
      have hempty := congrArg List.length heq
      rw [← hunits, units, List.length_map, hlength, List.length_nil] at hempty
      omega

end TextValue

/-- A text that lies in a buffer, at any position and in either byte order, is
recovered with the position behind its terminator exactly if it is an object
path, an ASCII string or a signature of at most 127 characters. The UTF-8 bytes
are those of the serializer. -/
theorem text_survives_iff (v : TextValue) (order : ByteOrder) (bytes : List UInt8)
    (hbytes : bytes.length < 2 ^ 31) (position : Nat) (hpos : position ≤ bytes.length)
    (hat : At bytes position (v.marshal order position)) :
    (v.parse ⟨bytes, order⟩ position =
        .returns (utf16 v.text) (position + (v.marshal order position).length) ↔ v.Survives) ∧
      utf8 (utf16 v.text) = v.utf8Bytes := by
  refine ⟨⟨fun hread => ?_, fun h => v.reads_text h hbytes position hat hpos⟩, utf8_utf16 v.text⟩
  by_contra h
  obtain ⟨text, next, hother, hne⟩ := v.reads_other h hbytes hpos hat
  rw [hother] at hread
  exact hne (Outcome.returns.inj hread).1

/-- The two characters of `hi`. -/
def asciiText : TextValue := ⟨.string, ['h', 'i'], by decide⟩

theorem asciiText_marshal : asciiText.marshal .bigEndian 0 = [0, 0, 0, 2, 0x68, 0x69, 0] := by
  decide +kernel

theorem text_survives_iff_ascii :
    asciiText.parse ⟨[0, 0, 0, 2, 0x68, 0x69, 0], .bigEndian⟩ 0 = .returns [0x68, 0x69] 7 := by
  have hat : At [0, 0, 0, 2, 0x68, 0x69, 0] 0 (asciiText.marshal .bigEndian 0) := by
    rw [asciiText_marshal]
    exact List.prefix_rfl
  have hsurvives : ∀ c ∈ asciiText.text, c.toNat < 128 := by simp [asciiText]
  have h := (text_survives_iff asciiText .bigEndian [0, 0, 0, 2, 0x68, 0x69, 0] (by simp) 0
    (Nat.zero_le _) hat).1.mpr hsurvives
  rw [asciiText_marshal] at h
  exact h

/-- The two bytes of `é`. -/
def accentedText : TextValue := ⟨.string, ['é'], by decide⟩

/-- They become two characters. -/
theorem accented_text_changed :
    accentedText.marshal .littleEndian 0 = [2, 0, 0, 0, 0xC3, 0xA9, 0] ∧
      accentedText.parse ⟨[2, 0, 0, 0, 0xC3, 0xA9, 0], .littleEndian⟩ 0 =
        .returns [0xFFC3, 0xFFA9] 7 ∧
      accentedText.parse ⟨[2, 0, 0, 0, 0xC3, 0xA9, 0], .littleEndian⟩ 0 ≠
        .returns (utf16 accentedText.text) 7 := by
  decide +kernel

end AapBridge.Wire
