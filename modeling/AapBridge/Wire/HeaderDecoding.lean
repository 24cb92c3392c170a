import AapBridge.Android.DecodingEnds
import AapBridge.Wire.ValueDecoding

/-! # Decoding any header

Messages whose header fields are those of the D-Bus specification, or fields that
it does not know, with values of any type; the body is any bytes. The constructor
comes to the body where the layout of the header ends, with the signature that is
laid out; as far as the values of the fields are readable, that is where the header
ends, and the signature it names.
-/

namespace AapBridge.Wire

open AapBridge.Lib AapBridge.Android Cursor

/-- The value has the type of the field; the names are ASCII. -/
def HeaderValue (value : Value) : Nat → Prop
  | 0 => False
  | 1 => ∃ v : TextValue, value = .basic (.text v) ∧ v.kind = .objectPath
  | 2 | 3 | 4 | 6 | 7 => ∃ v : TextValue, value = .basic (.text v) ∧ v.kind = .string ∧
      ∀ c ∈ v.text, c.toNat < 128
  | 5 | 9 => ∃ v, value = .basic (.word (.uint32 v) .uint32 rfl)
  | 8 => ∃ v : TextValue, value = .basic (.text v) ∧ v.kind = .signature
  | _ => True

structure HeaderEntry where
  code : UInt8
  value : Value
  typed : value.WellTyped
  fits : HeaderValue value code.toNat

namespace HeaderEntry

/-- A struct of the code and a variant. -/
def element (entry : HeaderEntry) : Value :=
  .struct [.basic (.word (.byte entry.code) .byte rfl), .variant entry.value]

def text (entry : HeaderEntry) : Option TextValue :=
  match entry.value with
  | .basic (.text v) => some v
  | _ => none

end HeaderEntry

/-- The type of a header field. -/
def elementType : DbusType := .struct [.basic .byte, .variant]

/-- A message with any header and any bytes as its body. A field that the
specification knows is there at most once. -/
structure HeadedMessage where
  type : UInt8
  flags : UInt8
  version : UInt8
  serial : BitVec 32
  entries : List HeaderEntry
  body : List UInt8
  distinct : entries.Pairwise fun entry other => entry.code ≤ 9 → entry.code ≠ other.code

namespace HeadedMessage

variable (m : HeadedMessage) (order : ByteOrder)

/-- The signature of the body, if the header names it. -/
def signature : Option TextValue :=
  (m.entries.find? fun entry => entry.code = 8).bind HeaderEntry.text

def elements : List Value := m.entries.map HeaderEntry.element

def fixedBytes : List UInt8 :=
  [m.type] ++ ([m.flags] ++ ([m.version] ++
    (order.put 4 m.body.length ++ order.put 4 m.serial.toNat)))

/-- The header array; it begins at the twelfth byte. -/
def arrayBytes : List UInt8 := (Value.array elementType m.elements).marshal order 12

/-- What stands in front of the body. -/
def frontBytes : List UInt8 :=
  FlatMessage.orderMark order :: (m.fixedBytes order ++
    (m.arrayBytes order ++ padding 8 (12 + (m.arrayBytes order).length)))

def marshal : List UInt8 := m.frontBytes order ++ m.body

/-- The values of the fields are ones that the decoder gives back. -/
def Readable : Prop := Value.Readables order 16 m.elements

end HeadedMessage

/-! ## The switch over the fields -/

theorem assign_unknown (message : DbusMessage) {headertype : UInt8} (h : 9 < headertype.toNat)
    (object : DbusObject) : message.assign headertype object = some message := by
  unfold DbusMessage.assign
  split
  case h_10 => exact if_neg (by omega)
  all_goals omega

/-- The object that a text of a header field becomes. -/
theorem text_object {value : Value} {v : TextValue} (h : value = .basic (.text v)) {kind : TextKind}
    (hkind : v.kind = kind) : value.object [] = kind.object (utf16 v.text) := by
  rw [h, ← hkind]
  rfl

/-- Every field is accepted, and only the eighth changes the signature. -/
theorem assign_entry (message : DbusMessage) (entry : HeaderEntry) :
    ∃ message', message.assign entry.code (entry.value.object []) = some message' ∧
      message'.arguments = message.arguments ∧ message'.signature =
        if entry.code = 8 then entry.text.map fun v => utf16 v.text else message.signature := by
  have hfits := entry.fits
  by_cases hunknown : 9 < entry.code.toNat
  · refine ⟨message, assign_unknown message hunknown _, rfl, ?_⟩
    rw [if_neg]
    intro heq
    rw [heq] at hunknown
    exact absurd hunknown (by decide)
  · generalize hn : entry.code.toNat = n at hfits hunknown
    have hcode : ∀ code : UInt8, code.toNat = n → entry.code = code := fun code h =>
      UInt8.toNat_inj.mp (hn.trans h.symm)
    match n, hfits with
    | 0, h => exact h.elim
    | 1, ⟨v, hvalue, hkind⟩ =>
        rw [hcode 1 rfl, text_object hvalue hkind]
        exact ⟨_, rfl, rfl, rfl⟩
    | 2, ⟨v, hvalue, hkind, _⟩ =>
        rw [hcode 2 rfl, text_object hvalue hkind]
        exact ⟨_, rfl, rfl, rfl⟩
    | 3, ⟨v, hvalue, hkind, _⟩ =>
        rw [hcode 3 rfl, text_object hvalue hkind]
        exact ⟨_, rfl, rfl, rfl⟩
    | 4, ⟨v, hvalue, hkind, _⟩ =>
        rw [hcode 4 rfl, text_object hvalue hkind]
        exact ⟨_, rfl, rfl, rfl⟩
    | 5, ⟨v, hvalue⟩ =>
        rw [hcode 5 rfl, hvalue]
        exact ⟨_, rfl, rfl, rfl⟩
    | 6, ⟨v, hvalue, hkind, _⟩ =>
        rw [hcode 6 rfl, text_object hvalue hkind]
        exact ⟨_, rfl, rfl, rfl⟩
    | 7, ⟨v, hvalue, hkind, _⟩ =>
        rw [hcode 7 rfl, text_object hvalue hkind]
        exact ⟨_, rfl, rfl, rfl⟩
    | 8, ⟨v, hvalue, hkind⟩ =>
        have htext : entry.text = some v := by
          rw [HeaderEntry.text, hvalue]
        rw [hcode 8 rfl, text_object hvalue hkind, htext]
        exact ⟨_, rfl, rfl, rfl⟩
    | 9, ⟨v, hvalue⟩ =>
        rw [hcode 9 rfl, hvalue]
        exact ⟨_, rfl, rfl, rfl⟩
    | n + 10, _ => omega

/-- What the switch leaves of the signature after all fields: the eighth is there
at most once. -/
theorem parseHeader_entries (entries : List HeaderEntry)
    (hdistinct : entries.Pairwise fun entry other => entry.code ≤ 9 → entry.code ≠ other.code)
    (message : DbusMessage) :
    ∃ message', (entries.map fun entry => entry.element.object []).foldlM DbusMessage.parseField message =
        some message' ∧
      message'.arguments = message.arguments ∧
      message'.signature = match entries.find? fun entry => entry.code = 8 with
        | some entry => entry.text.map fun v => utf16 v.text
        | none => message.signature := by
  induction entries generalizing message with
  | nil => exact ⟨message, rfl, rfl, rfl⟩
  | cons entry entries ih =>
      obtain ⟨hhead, htail⟩ := List.pairwise_cons.mp hdistinct
      obtain ⟨first, hfirst, harguments, hsignature⟩ := assign_entry message entry
      obtain ⟨last, hlast, harguments', hsignature'⟩ := ih htail first
      refine ⟨last, ?_, harguments'.trans harguments, ?_⟩
      · rw [List.map_cons, List.foldlM_cons]
        show (message.assign entry.code (entry.value.object [])).bind _ = _
        rw [hfirst]
        exact hlast
      · rw [hsignature', hsignature]
        by_cases hcode : entry.code = 8
        · have hnone : entries.find? (fun entry => entry.code = 8) = none := by
            rw [List.find?_eq_none]
            intro other hother heq
            have hne := hhead other hother (by rw [hcode]; decide)
            rw [of_decide_eq_true heq] at hne
            exact hne hcode
          rw [hnone, List.find?_cons_of_pos (by simpa using hcode)]
          exact if_pos hcode
        · rw [List.find?_cons_of_neg (by simpa using hcode), if_neg hcode]

/-- The value of a known field is always readable, but for a long signature. -/
theorem entry_readable_iff (entry : HeaderEntry) (hknown : entry.code ≤ 9) (order : ByteOrder)
    (position : Nat) : (entry.value.type.signature.length ≤ 127 ∧ entry.value.Readable order position) ↔
      (entry.code = 8 → ∀ v, entry.text = some v → v.text.length ≤ 127) := by
  have hfits := entry.fits
  have hle : entry.code.toNat ≤ 9 := hknown
  generalize hn : entry.code.toNat = n at hfits hle
  have hother : n ≠ 8 → entry.code ≠ 8 := by
    rintro hne heq
    rw [heq] at hn
    exact hne hn.symm
  have hshort : ∀ b : Basic, (Value.basic b).type.signature.length ≤ 127 := fun _ => Nat.le_add_left 1 126
  have hnone : n ≠ 8 → ∀ b : Basic, entry.value = .basic b → b.Survives →
      ((entry.value.type.signature.length ≤ 127 ∧ entry.value.Readable order position) ↔
        (entry.code = 8 → ∀ v, entry.text = some v → v.text.length ≤ 127)) := by
    intro hne b hb hsurvives
    rw [hb]
    exact ⟨fun _ heq => absurd heq (hother hne), fun _ => ⟨hshort b, hsurvives⟩⟩
  have hstring : ∀ v : TextValue, v.kind = .string → (∀ c ∈ v.text, c.toNat < 128) →
      (Basic.text v).Survives := fun v hkind hascii => (v.survives_string hkind).mpr hascii
  match n, hfits with
  | 0, h => exact h.elim
  | 1, ⟨v, hvalue, hkind⟩ =>
      apply hnone (by decide) _ hvalue
      show v.Survives
      rw [TextValue.Survives, hkind]
      trivial
  | 2, ⟨v, hvalue, hkind, hascii⟩ => exact hnone (by decide) _ hvalue (hstring v hkind hascii)
  | 3, ⟨v, hvalue, hkind, hascii⟩ => exact hnone (by decide) _ hvalue (hstring v hkind hascii)
  | 4, ⟨v, hvalue, hkind, hascii⟩ => exact hnone (by decide) _ hvalue (hstring v hkind hascii)
  | 5, ⟨v, hvalue⟩ => exact hnone (by decide) _ hvalue trivial
  | 6, ⟨v, hvalue, hkind, hascii⟩ => exact hnone (by decide) _ hvalue (hstring v hkind hascii)
  | 7, ⟨v, hvalue, hkind, hascii⟩ => exact hnone (by decide) _ hvalue (hstring v hkind hascii)
  | 8, ⟨v, hvalue, hkind⟩ =>
      have htext : entry.text = some v := by
        rw [HeaderEntry.text, hvalue]
      have hcode : entry.code = 8 := UInt8.toNat_inj.mp hn
      rw [hvalue, htext]
      constructor
      · rintro ⟨-, hsurvives⟩ _ w hw
        rw [← Option.some.inj hw]
        exact (v.survives_signature hkind).mp hsurvives
      · intro h
        exact ⟨hshort _, (v.survives_signature hkind).mpr (h hcode v rfl)⟩
  | 9, ⟨v, hvalue⟩ => exact hnone (by decide) _ hvalue trivial
  | n + 10, _ => omega

/-- A known field is found by its code. -/
theorem find_entry {entries : List HeaderEntry} {code : UInt8}
    (hdistinct : entries.Pairwise fun entry other => entry.code ≤ 9 → entry.code ≠ other.code)
    {entry : HeaderEntry} (hmem : entry ∈ entries) (hknown : entry.code ≤ 9) (hcode : entry.code = code) :
    entries.find? (fun entry => entry.code = code) = some entry := by
  induction entries with
  | nil => cases hmem
  | cons first entries ih =>
      obtain ⟨hhead, htail⟩ := List.pairwise_cons.mp hdistinct
      rcases List.mem_cons.mp hmem with rfl | hmem
      · exact List.find?_cons_of_pos (by simpa using hcode)
      · have hne : first.code ≠ code := by
          intro heq
          exact hhead entry hmem (by rwa [heq, ← hcode]) (heq.trans hcode.symm)
        rw [List.find?_cons_of_neg (by simpa using hne)]
        exact ih htail hmem

theorem elements_readable_iff {entries : List HeaderEntry} (hknown : ∀ entry ∈ entries, entry.code ≤ 9)
    (order : ByteOrder) (position : Nat) :
    Value.Readables order position (entries.map HeaderEntry.element) ↔ ∀ entry ∈ entries,
      entry.code = 8 → ∀ v, entry.text = some v → v.text.length ≤ 127 := by
  induction entries generalizing position with
  | nil => exact ⟨fun _ => nofun, fun _ => trivial⟩
  | cons entry entries ih =>
      have hsingle : ∀ field ∈ ([.basic (.word (.byte entry.code) .byte rfl), .variant entry.value] :
          List Value), field.Single := by
        simp [Value.Single]
      rw [List.map_cons, Value.Readables, List.forall_mem_cons, HeaderEntry.element,
        ih fun entry h => hknown entry (List.mem_cons_of_mem _ h),
        ← entry_readable_iff entry (hknown entry List.mem_cons_self) order]
      constructor
      · rintro ⟨⟨-, -, hreadable, -⟩, hrest⟩
        exact ⟨hreadable, hrest⟩
      · rintro ⟨hreadable, hrest⟩
        exact ⟨⟨hsingle, trivial, hreadable, trivial⟩, hrest⟩

namespace HeadedMessage

variable (m : HeadedMessage) (order : ByteOrder)

/-- With the fields of the specification alone, the header is readable exactly if
the signature has at most 127 characters. -/
theorem readable_iff (hknown : ∀ entry ∈ m.entries, entry.code ≤ 9) :
    m.Readable order ↔ ∀ v, m.signature = some v → v.text.length ≤ 127 := by
  rw [Readable, elements, elements_readable_iff hknown]
  constructor
  · intro h v hv
    rw [signature, Option.bind_eq_some_iff] at hv
    obtain ⟨entry, hfind, htext⟩ := hv
    exact h entry (List.mem_of_find?_eq_some hfind) (by simpa using List.find?_some hfind) v htext
  · intro h entry hmem hcode v htext
    apply h v
    rw [signature, find_entry m.distinct hmem (by rw [hcode]; decide) hcode]
    exact htext

theorem elements_typed : Value.HaveType elementType m.elements := by
  unfold elements
  induction m.entries with
  | nil => trivial
  | cons entry entries ih =>
      refine ⟨?_, ⟨List.cons_ne_nil _ _, trivial, entry.typed, trivial⟩, ih⟩
      rfl

theorem frontBytes_length : (m.frontBytes order).length % 8 = 0 := by
  have hfixed : (m.fixedBytes order).length = 11 := by
    simp [fixedBytes]
  unfold frontBytes
  rw [List.length_cons, List.length_append, List.length_append, hfixed]
  have haligned : aligned 8 (12 + (m.arrayBytes order).length) % 8 = 0 := aligned_mod (by decide) _
  unfold padding
  unfold aligned at haligned
  rw [List.length_replicate]
  omega

/-- Where the header array ends. -/
def headerEnd : Nat := 12 + (m.arrayBytes order).length

theorem frontBytes_end :
    m.headerEnd order + (padding 8 (m.headerEnd order)).length = (m.frontBytes order).length := by
  have hfixed : (m.fixedBytes order).length = 11 := by
    simp [fixedBytes]
  unfold frontBytes headerEnd
  rw [List.length_cons, List.length_append, List.length_append, hfixed]
  omega

theorem marshal_pieces : m.marshal order = FlatMessage.orderMark order :: (m.fixedBytes order ++
    (m.arrayBytes order ++ (padding 8 (m.headerEnd order) ++ m.body))) := by
  rw [marshal, frontBytes]
  simp [headerEnd]

theorem fixedBytes_at : At (m.marshal order) 1 (m.fixedBytes order ++
    (m.arrayBytes order ++ (padding 8 (m.headerEnd order) ++ m.body))) := by
  rw [marshal_pieces]
  exact List.prefix_rfl

theorem arrayBytes_at : At (m.marshal order) 12 (m.arrayBytes order ++
    (padding 8 (m.headerEnd order) ++ m.body)) := by
  have hat := (m.fixedBytes_at order).right
  have hfixed : 1 + (m.fixedBytes order).length = 12 := by
    simp [fixedBytes]
  rwa [hfixed] at hat

theorem announced_marshal : DbusMessage.announced (m.marshal order) = some order := by
  rw [marshal_pieces]
  cases order <;> rfl

theorem twelve_le : 12 ≤ (m.marshal order).length := by
  have hone : 1 ≤ (m.marshal order).length := by
    rw [marshal_pieces]
    exact Nat.le_add_left 1 _
  have hle := (m.fixedBytes_at order).left.le hone
  simpa [fixedBytes, Nat.add_comm] using hle

/-- A header with readable values is laid out up to its end, with the signature it names. -/
theorem layout_of_readable (hlength : (m.marshal order).length ≤ 4000) (hread : m.Readable order) :
    headerLayout ⟨m.marshal order, order⟩ =
      some (m.headerEnd order, m.signature.map fun v => utf16 v.text) := by
  have hbytes : (m.marshal order).length < 2 ^ 31 := by omega
  have htyped := m.elements_typed
  obtain ⟨least, hreads⟩ := reads_values hbytes m.elements (Value.allTyped_of_haveType htyped) 16 hread
  obtain ⟨message, hparse, -, hsignature⟩ :=
    parseHeader_entries m.entries m.distinct DbusMessage.initial
  have harray : dbusArray (extract ⟨m.marshal order, order⟩ (least + m.elements.length + 1))
      ⟨m.marshal order, order⟩ (least + m.elements.length + 1) DbusMessage.headerSignature 12 =
        .returns (m.elements.map (Value.object [])) (m.headerEnd order) :=
    reads_elements hbytes htyped (.inl rfl) (by omega)
      (readsAll_element htyped (hreads _ (by omega) [])) (m.arrayBytes_at order).left (m.twelve_le order)
  have hheader : DbusMessage.parseHeader (m.elements.map (Value.object [])) = some message := by
    rw [elements, List.map_map]
    exact hparse
  rw [(DbusMessage.dbusArray_layout (m.twelve_le order) harray).2, hheader, Option.map_some, hsignature,
    signature]
  cases m.entries.find? fun entry => entry.code = 8 with
  | none => rfl
  | some entry => rfl

variable {m order}

/-- Behind the header nothing has become of the arguments. -/
theorem parseHeader_arguments {arr : List DbusObject} {message message' : DbusMessage}
    (h : arr.foldlM DbusMessage.parseField message = some message') :
    message'.arguments = message.arguments := by
  induction arr generalizing message with
  | nil =>
      cases h
      rfl
  | cons object arr ih =>
      rw [List.foldlM_cons] at h
      obtain ⟨first, hfirst, hrest⟩ := Option.bind_eq_some_iff.mp h
      rw [ih hrest]
      unfold DbusMessage.parseField at hfirst
      split at hfirst
      · unfold DbusMessage.assign at hfirst
        split at hfirst
        case h_10 =>
          split at hfirst
          · cases hfirst
          · cases hfirst
            rfl
        all_goals
          cases hfirst
          rfl
      · cases hfirst

/-- The constructor comes to the arguments where the header is laid out to end. -/
theorem new_of_layout {p : Nat} {signature : Option JavaString}
    (h : headerLayout ⟨m.marshal order, order⟩ = some (p, signature)) :
    ∃ least message, message.arguments = none ∧ message.signature = signature ∧
      ∀ fuel, least ≤ fuel → DbusMessage.new (m.marshal order) fuel =
        .of (DbusMessage.readArguments ⟨m.marshal order, order⟩ fuel message p) := by
  obtain ⟨least, elements, message, harray, hparse, hsignature⟩ :=
    DbusMessage.dbusArray_of_layout (m.twelve_le order) h
  refine ⟨least, message, parseHeader_arguments hparse, hsignature, fun fuel hfuel => ?_⟩
  rw [DbusMessage.new_announced (m.announced_marshal order), DbusMessage.construct_of_header
    (m.twelve_le order) (DbusMessage.dbusArray_more harray hfuel) hparse]

/-- Without such a layout it does not return. -/
theorem new_of_no_layout (h : headerLayout ⟨m.marshal order, order⟩ = none) (fuel : Nat)
    (message : DbusMessage) (position : Nat) :
    DbusMessage.new (m.marshal order) fuel ≠ .returns message position := by
  have htwelve := m.twelve_le order
  rw [DbusMessage.new_announced (m.announced_marshal order),
    DbusMessage.construct_eq (DbusMessage.fixedPart_returns htwelve)]
  cases harray : dbusArray (extract ⟨m.marshal order, order⟩ fuel) ⟨m.marshal order, order⟩ fuel
      DbusMessage.headerSignature 12 with
  | returns elements p =>
      have hlayout := (DbusMessage.dbusArray_layout htwelve harray).2
      rw [h] at hlayout
      rw [Outcome.bind_returns, Option.map_eq_none_iff.mp hlayout.symm]
      exact DbusMessage.Constructed.noConfusion
  | throws p => exact DbusMessage.Constructed.noConfusion
  | runs => exact DbusMessage.Constructed.noConfusion

end HeadedMessage

end AapBridge.Wire
