import AapBridge.Wire.ValueDecoding

/-! # Decoding structs and message bodies

`DbusStruct` goes over the characters of its signature, not over the types in it,
and keeps what it has when something throws. Fields of one character are read as
they are. An array is read whole by its first character, and the others are read
once more: that throws only where the buffer ends.
-/

namespace AapBridge.Wire

open AapBridge.Lib AapBridge.Android Cursor

section

variable {bytes : List UInt8} {order : ByteOrder}

/-! ## At the limit -/

variable (bytes order) in
theorem align_limit (alignment : Nat) :
    (⟨bytes, order⟩ : ReadBuffer).align alignment bytes.length = .returns () bytes.length ∨
      (⟨bytes, order⟩ : ReadBuffer).align alignment bytes.length = .throws bytes.length := by
  show (if aligned alignment bytes.length ≤ bytes.length then _ else _) = _ ∨
    (if aligned alignment bytes.length ≤ bytes.length then _ else _) = _
  have hle := le_aligned alignment bytes.length
  split
  · next hfits =>
    rw [Nat.le_antisymm hfits hle]
    exact .inl rfl
  · exact .inr rfl

theorem byte_limit : Cursor.byte bytes bytes.length = .throws bytes.length := by
  rw [Cursor.byte, List.getElem?_eq_none (Nat.le_refl _)]

theorem getWord_limit {n : Nat} (hn : 0 < n) :
    (⟨bytes, order⟩ : ReadBuffer).getWord n bytes.length = .throws bytes.length := by
  have htake : Cursor.take bytes n bytes.length = .throws bytes.length := if_neg (by omega)
  show (Cursor.take bytes n bytes.length).bind _ = _
  rw [htake]
  rfl

theorem word_limit {α : Type} (alignment : Nat) {n : Nat} (hn : 0 < n) (g : BitVec (8 * n) → Cursor α) :
    (do
      (⟨bytes, order⟩ : ReadBuffer).align alignment
      g (← (⟨bytes, order⟩ : ReadBuffer).getWord n) : Cursor α) bytes.length = .throws bytes.length := by
  show (ReadBuffer.align _ alignment bytes.length).bind _ = _
  rcases align_limit bytes order alignment with h | h
  · rw [h]
    show (ReadBuffer.getWord _ n bytes.length).bind _ = _
    rw [getWord_limit hn]
    rfl
  · rw [h]
    rfl

theorem signature_limit {α : Type} (g : JavaString → Cursor α) :
    ((⟨bytes, order⟩ : ReadBuffer).dbusSignature >>= g) bytes.length = .throws bytes.length := by
  show Outcome.bind ((Cursor.byte bytes bytes.length).bind _) _ = _
  rw [byte_limit]
  rfl

theorem string_limit {α : Type} (g : JavaString → Cursor α) :
    ((⟨bytes, order⟩ : ReadBuffer).dbusString >>= g) bytes.length = .throws bytes.length := by
  have hstring : (⟨bytes, order⟩ : ReadBuffer).dbusString bytes.length = .throws bytes.length :=
    word_limit 4 (by decide) _
  show (ReadBuffer.dbusString _ bytes.length).bind _ = _
  rw [hstring]
  rfl

theorem parse_limit {extractor : Extractor} (h : extractor.basic) (f : JavaString → Cursor DbusObject)
    (rounds : Nat) (signature : JavaString) :
    extractor.parse f ⟨bytes, order⟩ rounds signature bytes.length = .throws bytes.length := by
  cases extractor with
  | array => cases h
  | boolean => exact word_limit 4 (by decide) _
  | byte =>
      show (Cursor.byte bytes bytes.length).bind _ = _
      rw [byte_limit]
      rfl
  | dictEntry => cases h
  | double => exact word_limit 8 (by decide) _
  | int16 => exact word_limit 2 (by decide) _
  | int32 => exact word_limit 4 (by decide) _
  | int64 => exact word_limit 8 (by decide) _
  | objectPath => exact string_limit _
  | signature => exact signature_limit _
  | string => exact string_limit _
  | struct => cases h
  | uint16 => exact word_limit 2 (by decide) _
  | uint32 => exact word_limit 4 (by decide) _
  | uint64 => exact word_limit 8 (by decide) _
  | variant => cases h

theorem basic_limit (t : BasicType) (fuel : Nat) (rest : JavaString) :
    extract ⟨bytes, order⟩ (fuel + 1) (codeUnit t.code :: rest) bytes.length = .throws bytes.length := by
  cases t with
  | unixFd => rfl
  | _ =>
      rw [extract_succ rfl]
      exact parse_limit rfl _ _ _

theorem array_limit (fuel : Nat) (rest : JavaString) :
    extract ⟨bytes, order⟩ (fuel + 1) (0x61 :: rest) bytes.length = .throws bytes.length := by
  have hend : arrayEnd ⟨bytes, order⟩ bytes.length = .throws bytes.length :=
    word_limit 4 (by decide) _
  rw [extract_array rfl, hend]
  rfl

theorem variant_limit (fuel : Nat) (rest : JavaString) :
    extract ⟨bytes, order⟩ (fuel + 1) (0x76 :: rest) bytes.length = .throws bytes.length := by
  rw [extract_succ rfl]
  exact signature_limit _

theorem dictEntry_limit (key : BasicType) (fuel : Nat) (rest : JavaString) :
    extract ⟨bytes, order⟩ (fuel + 2) (0x7B :: codeUnit key.code :: rest) bytes.length =
      .throws bytes.length := by
  rw [extract_dictEntry rfl]
  rcases align_limit bytes order 8 with h | h
  · rw [h, Outcome.bind_returns, basic_limit]
    rfl
  · rw [h]
    rfl

/-- The loop goes over the characters without reading anything. -/
def Idle (f : JavaString → Cursor DbusObject) (limit : Nat) (chars : JavaString) : Prop :=
  ∀ (depth : Int) (i : Nat) (list : List DbusObject), ∃ j,
    structLoop f chars depth i list limit = .returns (list, j) limit

theorem idle_next {f : JavaString → Cursor DbusObject} {limit : Nat} {rest : JavaString}
    (h : Idle f limit rest) (depth : Int) (i : Nat) (list : List DbusObject) :
    ∃ j, structNext f rest depth i list limit = .returns (list, j) limit := by
  unfold structNext
  split
  · exact h depth i list
  · exact ⟨i, rfl⟩

theorem idle_open {f : JavaString → Cursor DbusObject} {limit : Nat} {rest : JavaString}
    (h : Idle f limit rest) : Idle f limit (0x28 :: rest) := by
  intro depth i list
  rw [structLoop_open]
  exact idle_next h _ _ _

theorem idle_close {f : JavaString → Cursor DbusObject} {limit : Nat} {rest : JavaString}
    (h : Idle f limit rest) : Idle f limit (0x29 :: rest) := by
  intro depth i list
  rw [structLoop_close]
  exact idle_next h _ _ _

theorem idle_throws {f : JavaString → Cursor DbusObject} {limit : Nat} {c : CodeUnit} {rest : JavaString}
    (hopen : c ≠ 0x28) (hclose : c ≠ 0x29) (h : f (c :: rest) limit = .throws limit) :
    Idle f limit (c :: rest) := by
  intro depth i list
  rw [structLoop_field hopen hclose, bind_apply, Cursor.attempt, h]
  exact ⟨i, rfl⟩

mutual

theorem idle_type (fuel : Nat) (t : DbusType) {rest : JavaString}
    (h : Idle (extract ⟨bytes, order⟩ (fuel + 2)) bytes.length rest) :
    Idle (extract ⟨bytes, order⟩ (fuel + 2)) bytes.length (units t.signature ++ rest) := by
  match t with
  | .basic t =>
      have hparenthesis : codeUnit t.code ≠ 0x28 ∧ codeUnit t.code ≠ 0x29 := by
        cases t <;> decide
      exact idle_throws hparenthesis.1 hparenthesis.2 (basic_limit t (fuel + 1) rest)
  | .variant => exact idle_throws (by decide) (by decide) (variant_limit (fuel + 1) rest)
  | .array element =>
      exact idle_throws (by decide) (by decide) (array_limit (fuel + 1) (units element.signature ++ rest))
  | .struct fields =>
      have hfields := idle_types fuel fields (idle_close h)
      have hsignature : units (DbusType.struct fields).signature ++ rest =
          0x28 :: (units (DbusType.signatures fields) ++ 0x29 :: rest) := by
        simp [DbusType.signature, units]
      rw [hsignature]
      exact idle_open hfields
  | .dictEntry key value =>
      exact idle_throws (by decide) (by decide) (dictEntry_limit key fuel _)

theorem idle_types (fuel : Nat) (ts : List DbusType) {rest : JavaString}
    (h : Idle (extract ⟨bytes, order⟩ (fuel + 2)) bytes.length rest) :
    Idle (extract ⟨bytes, order⟩ (fuel + 2)) bytes.length (units (DbusType.signatures ts) ++ rest) := by
  match ts with
  | [] => exact h
  | t :: ts =>
      rw [DbusType.signatures, units_append, List.append_assoc]
      exact idle_type fuel t (idle_types fuel ts h)

end

/-! ## Fields -/

namespace Value

theorem types_append (vs ws : List Value) : types (vs ++ ws) = types vs ++ types ws := by
  induction vs with
  | nil => rfl
  | cons v vs ih => rw [List.cons_append, types, types, ih, List.cons_append]

theorem marshals_append (position : Nat) (vs ws : List Value) :
    marshals order position (vs ++ ws) = marshals order position vs ++
      marshals order (position + (marshals order position vs).length) ws := by
  induction vs generalizing position with
  | nil => simp [marshals]
  | cons v vs ih =>
      rw [List.cons_append, marshals, marshals, ih, List.length_append, List.append_assoc, Nat.add_assoc]

theorem readables_append {position : Nat} {vs ws : List Value} (h : Readables order position (vs ++ ws)) :
    Readables order position vs ∧
      Readables order (position + (marshals order position vs).length) ws := by
  induction vs generalizing position with
  | nil => exact ⟨trivial, h⟩
  | cons v vs ih =>
      obtain ⟨hvs, hws⟩ := ih h.2
      rw [marshals, List.length_append, ← Nat.add_assoc]
      exact ⟨⟨h.1, hvs⟩, hws⟩

theorem allTyped_append {vs ws : List Value} (h : AllTyped (vs ++ ws)) : AllTyped vs ∧ AllTyped ws := by
  induction vs with
  | nil => exact ⟨trivial, h⟩
  | cons v vs ih => exact ⟨⟨h.1, (ih h.2).1⟩, (ih h.2).2⟩

theorem objects_single {vs : List Value} (h : ∀ v ∈ vs, v.Single) (rest : JavaString) :
    objects [] vs = objects rest vs := by
  rw [objects_eq, objects_eq]
  exact List.map_congr_left fun v hv => ((h v hv).object_eq rest).symm

/-- The fields that the loop reads as they are: those of one character, and
behind them perhaps an array, if nothing lies behind the struct. -/
def Walked (limited : Prop) (fields : List Value) : Prop :=
  ∃ first last, fields = first ++ last ∧ (∀ field ∈ first, field.Single) ∧
    (last = [] ∨ limited ∧ ∃ element elements, last = [.array element elements])

end Value

theorem signatures_append (ts us : List DbusType) :
    DbusType.signatures (ts ++ us) = DbusType.signatures ts ++ DbusType.signatures us := by
  induction ts with
  | nil => rfl
  | cons t ts ih =>
      rw [List.cons_append, DbusType.signatures, DbusType.signatures, ih, List.append_assoc]

/-- An array that ends at the limit is a field of its own. -/
theorem structLoop_array (fuel : Nat) {array : Value} {element : DbusType} {elements : List Value}
    (harray : array = .array element elements) {position : Nat}
    (hread : Reads bytes (extract ⟨bytes, order⟩ (fuel + 2) (units array.type.signature ++ [0x29]))
      position (array.marshal order position) (array.object [0x29]))
    (hat : At bytes position (array.marshal order position)) (hpos : position ≤ bytes.length)
    (hlimit : position + (array.marshal order position).length = bytes.length) (i : Nat)
    (list : List DbusObject) :
    ∃ j, structLoop (extract ⟨bytes, order⟩ (fuel + 2)) (units array.type.signature ++ [0x29]) 1 i list
      position = .returns (list ++ [array.object [0x29]], j) bytes.length := by
  have hsignature : units array.type.signature ++ [0x29] =
      0x61 :: (units element.signature ++ [0x29]) := by
    rw [harray]
    rfl
  have hresult := hread hat hpos
  rw [hsignature, hlimit] at hresult
  rw [hsignature, structLoop_field (by decide) (by decide), bind_apply, Cursor.attempt, hresult]
  have hidle : Idle (extract ⟨bytes, order⟩ (fuel + 2)) bytes.length [0x29] :=
    idle_close fun _ i list => ⟨i, rfl⟩
  exact idle_next (idle_type fuel element hidle) 1 (i + 1) (list ++ [array.object [0x29]])

/-- The fields of a struct or of a message body, one object for each. -/
theorem structLoop_walked (hbytes : bytes.length < 2 ^ 31) {fields : List Value}
    (htyped : Value.AllTyped fields) {position : Nat} (hread : Value.Readables order position fields)
    (hat : At bytes position (Value.marshals order position fields)) (hpos : position ≤ bytes.length)
    (hwalked : Value.Walked (position + (Value.marshals order position fields).length = bytes.length)
      fields) :
    ∃ fuel j, structLoop (extract ⟨bytes, order⟩ fuel)
      (units (DbusType.signatures (Value.types fields)) ++ [0x29]) 1 1 [] position =
        .returns (Value.objects [0x29] fields, j)
          (position + (Value.marshals order position fields).length) := by
  obtain ⟨first, last, rfl, hsingle, hlast⟩ := hwalked
  obtain ⟨hfirst, hrest⟩ := Value.readables_append hread
  obtain ⟨htypedFirst, htypedLast⟩ := Value.allTyped_append htyped
  obtain ⟨least, hreads⟩ := reads_values hbytes first htypedFirst position hfirst
  rw [Value.marshals_append] at hat
  rcases hlast with rfl | ⟨hlimit, element, elements, rfl⟩
  · refine ⟨least, 1 + first.length + 1, ?_⟩
    rw [List.append_nil, structLoop_single first hsingle (hreads least (Nat.le_refl _)) hat.left hpos,
      structLoop_close, structNext, if_neg (by decide), Value.objects_single hsingle [0x29]]
    rfl
  · obtain ⟨least', harray⟩ := reads_value hbytes (.array element elements) htypedLast.1 _ hrest.1
    have hbound := hreads (least + least' + 2) (by omega)
    rw [Value.marshals_append, List.length_append, ← Nat.add_assoc] at hlimit ⊢
    rw [Value.marshals, Value.marshals, List.append_nil] at hlimit hat ⊢
    obtain ⟨j, hloop⟩ := structLoop_array (least + least') rfl (harray _ (by omega) [0x29]) hat.right
      (hat.left.le hpos) hlimit (1 + first.length) ([] ++ Value.objects [] first)
    refine ⟨least + least' + 2, j, ?_⟩
    rw [Value.types_append, signatures_append, units_append, List.append_assoc,
      structLoop_single first hsingle hbound hat.left hpos, hlimit]
    have hchars : DbusType.signatures (Value.types [.array element elements]) =
        (Value.array element elements).type.signature := by
      rw [Value.types, DbusType.signatures]
      exact List.append_nil _
    have hobjects : Value.objects [0x29] (first ++ [.array element elements]) =
        [] ++ Value.objects [] first ++ [(Value.array element elements).object [0x29]] := by
      rw [objects_eq, List.map_append, ← objects_eq, ← Value.objects_single hsingle]
      rfl
    rw [hchars, hobjects]
    exact hloop

/-! ## Nested structs -/

/-- The object is no struct. -/
def DbusObject.NoStruct : DbusObject → Prop
  | .struct _ _ => False
  | _ => True

theorem extract_noStruct (bb : ReadBuffer) (fuel : Nat) {c : CodeUnit} (hc : c ≠ 0x28) (rest : JavaString) :
    Ensures (extract bb fuel (c :: rest)) DbusObject.NoStruct := by
  cases fuel with
  | zero => rintro p object next ⟨⟩
  | succ fuel =>
      unfold extract
      cases hextractor : extractors c with
      | none => rintro p object next ⟨⟩
      | some extractor =>
          have hword : ∀ (alignment n : Nat) (g : BitVec (8 * n) → JavaObject), Ensures (do
              bb.align alignment
              return .java (g (← bb.getWord n))) DbusObject.NoStruct :=
            fun _ _ _ => ensures_last fun _ => ensures_last fun _ => ensures_pure trivial
          show Ensures (extractor.parse _ _ _ _) _
          cases extractor with
          | struct => exact absurd (extractors_struct hextractor) hc
          | boolean => exact hword 4 4 fun v => .boolean (v != 0)
          | double => exact hword 8 8 .double
          | int16 | uint16 => exact hword 2 2 .short
          | int32 | uint32 => exact hword 4 4 .integer
          | int64 | uint64 => exact hword 8 8 .long
          | dictEntry =>
              exact ensures_last fun _ => ensures_last fun _ => ensures_last fun _ => ensures_pure trivial
          | variant => exact ensures_last fun _ => ensures_last fun _ => ensures_pure trivial
          | _ => exact ensures_last fun _ => ensures_pure trivial

/-- The loop adds what `extract` returns at a character other than `(`. -/
theorem structLoop_noStruct (bb : ReadBuffer) (fuel : Nat) (chars : JavaString) (depth : Int) (i : Nat)
    {list : List DbusObject} (hlist : ∀ object ∈ list, DbusObject.NoStruct object) :
    Ensures (structLoop (extract bb fuel) chars depth i list) fun result =>
      ∀ object ∈ result.1, DbusObject.NoStruct object := by
  induction chars generalizing depth i list with
  | nil => exact ensures_pure hlist
  | cons c rest ih =>
      have hnext : ∀ depth (list : List DbusObject), (∀ object ∈ list, DbusObject.NoStruct object) →
          Ensures (structNext (extract bb fuel) rest depth (i + 1) list) fun result =>
            ∀ object ∈ result.1, DbusObject.NoStruct object := by
        intro depth list hlist
        unfold structNext
        split
        · exact ih depth (i + 1) hlist
        · exact ensures_pure hlist
      by_cases hopen : c = 0x28
      · rw [hopen, structLoop_open]
        exact hnext (depth + 1) list hlist
      · by_cases hclose : c = 0x29
        · rw [hclose, structLoop_close]
          exact hnext (depth - 1) list hlist
        · rw [structLoop_field hopen hclose]
          refine (extract_noStruct bb fuel hopen rest).attempt.bind fun result hresult => ?_
          cases result with
          | none => exact ensures_pure hlist
          | some object =>
              apply hnext
              intro other hother
              rcases List.mem_append.mp hother with hother | hother
              · exact hlist other hother
              · rw [List.mem_singleton.mp hother]
                exact hresult object rfl

theorem dbusStruct_noStruct (bb : ReadBuffer) (fuel : Nat) (signature : JavaString) :
    Ensures (dbusStruct (extract bb fuel) bb signature) fun struct =>
      ∀ object ∈ struct.tuple, DbusObject.NoStruct object := by
  apply ensures_last
  intro _
  exact (structLoop_noStruct bb fuel signature 0 0 (fun _ hmem => absurd hmem List.not_mem_nil)).bind fun result hresult =>
    ensures_pure hresult

end

/-! ## Structs and bodies -/

theorem bracketed_signatures (ts : List DbusType) :
    DbusMessage.bracketed (units (DbusType.signatures ts)) = units (DbusType.struct ts).signature := by
  rw [DbusType.signature]
  simp [DbusMessage.bracketed, units]

theorem reads_walked {bytes : List UInt8} {order : ByteOrder} (hbytes : bytes.length < 2 ^ 31)
    {fields : List Value} (htyped : Value.AllTyped fields) {position : Nat} (hpos : position ≤ bytes.length)
    (hat : At bytes position ((Value.struct fields).marshal order position))
    (hread : Value.Readables order (position + (padding 8 position).length) fields)
    (hwalked : Value.Walked (position + ((Value.struct fields).marshal order position).length =
      bytes.length) fields) :
    ∃ fuel signature, dbusStruct (extract ⟨bytes, order⟩ fuel) ⟨bytes, order⟩
      (units (DbusType.struct (Value.types fields)).signature) position =
        .returns ⟨signature, Value.objects [0x29] fields⟩
          (position + ((Value.struct fields).marshal order position).length) := by
  rw [Value.marshal] at hat hwalked ⊢
  rw [List.length_append, ← Nat.add_assoc] at hwalked ⊢
  obtain ⟨fuel, j, hloop⟩ := structLoop_walked hbytes htyped hread hat.right (hat.left.le hpos) hwalked
  refine ⟨fuel, (units (DbusType.struct (Value.types fields)).signature).take j, ?_⟩
  rw [← bracketed_signatures]
  show (ReadBuffer.align _ 8 position).bind _ = _
  rw [reads_align 8 position hat.left hpos, Outcome.bind_returns]
  show (structLoop _ _ 1 1 [] _).bind _ = _
  rw [hloop]
  rfl

/-- A struct that lies in a buffer, at any offset and in either byte order, and a
message body, which is decoded in the same way, give one object for each field,
with the position behind the last, if every field is readable and of one
character, or an array behind which the buffer ends. A struct in it is never
given back. -/
theorem struct_decodes (fields : List Value) (htyped : Value.AllTyped fields) (order : ByteOrder)
    (bytes : List UInt8) (hbytes : bytes.length < 2 ^ 31) (position : Nat) (hpos : position ≤ bytes.length)
    (hat : At bytes position ((Value.struct fields).marshal order position)) :
    (Value.Readables order (position + (padding 8 position).length) fields →
      Value.Walked (position + ((Value.struct fields).marshal order position).length = bytes.length)
        fields →
      (∃ fuel signature, dbusStruct (extract ⟨bytes, order⟩ fuel) ⟨bytes, order⟩
        (units (DbusType.struct (Value.types fields)).signature) position =
          .returns ⟨signature, Value.objects [0x29] fields⟩
            (position + ((Value.struct fields).marshal order position).length)) ∧
      ∀ message : DbusMessage, message.signature = some (units (DbusType.signatures (Value.types fields))) →
        ∃ fuel signature, DbusMessage.readArguments ⟨bytes, order⟩ fuel message position =
          .returns { message with arguments := some ⟨signature, Value.objects [0x29] fields⟩ }
            (position + ((Value.struct fields).marshal order position).length)) ∧
    ((∃ inner, Value.struct inner ∈ fields) → ∀ fuel signature next,
      dbusStruct (extract ⟨bytes, order⟩ fuel) ⟨bytes, order⟩
        (units (DbusType.struct (Value.types fields)).signature) position ≠
          .returns ⟨signature, Value.objects [0x29] fields⟩ next) := by
  constructor
  · intro hread hwalked
    obtain ⟨fuel, signature, hstruct⟩ := reads_walked hbytes htyped hpos hat hread hwalked
    refine ⟨⟨fuel, signature, hstruct⟩, fun message hmessage => ⟨fuel, signature, ?_⟩⟩
    rw [DbusMessage.readArguments_signature hmessage, bracketed_signatures, bind_apply, hstruct]
    rfl
  · rintro ⟨inner, hinner⟩ fuel signature next hstruct
    have hnoStruct := dbusStruct_noStruct _ _ _ _ _ _ hstruct
    have hobject := List.mem_map_of_mem (f := Value.object [0x29]) hinner
    rw [← objects_eq] at hobject
    exact hnoStruct _ hobject

/-- A byte and an array of one number. -/
def byteAndArray : List Value :=
  [.basic (.word (.byte 5) .byte rfl), .array (.basic .int32) [.basic (.word (.int32 7) .int32 rfl)]]

theorem byteAndArray_marshal : (Value.struct byteAndArray).marshal .littleEndian 0 =
    [5, 0, 0, 0, 4, 0, 0, 0, 7, 0, 0, 0] := by
  decide +kernel

theorem byteAndArray_walked : Value.Walked (0 + ((Value.struct byteAndArray).marshal .littleEndian 0).length =
    12) byteAndArray := by
  refine ⟨[.basic (.word (.byte 5) .byte rfl)],
    [.array (.basic .int32) [.basic (.word (.int32 7) .int32 rfl)]], rfl, ?_, .inr ⟨?_, _, _, rfl⟩⟩
  · intro field hfield
    rw [List.mem_singleton.mp hfield]
    trivial
  · rw [byteAndArray_marshal]
    rfl

theorem struct_decodes_array : ∃ fuel signature,
    dbusStruct (extract ⟨[5, 0, 0, 0, 4, 0, 0, 0, 7, 0, 0, 0], .littleEndian⟩ fuel)
      ⟨[5, 0, 0, 0, 4, 0, 0, 0, 7, 0, 0, 0], .littleEndian⟩ [0x28, 0x79, 0x61, 0x69, 0x29] 0 =
        .returns ⟨signature, [.java (.byte 5), .array [0x69, 0x29] [.java (.integer 7)]]⟩ 12 := by
  have htyped : Value.AllTyped byteAndArray := ⟨trivial, ⟨rfl, trivial, trivial⟩, trivial⟩
  have hread : Value.Readables .littleEndian (0 + (padding 8 0).length) byteAndArray :=
    ⟨trivial, ⟨.inl (by decide +kernel), trivial, trivial⟩, trivial⟩
  have hat : At [5, 0, 0, 0, 4, 0, 0, 0, 7, 0, 0, 0] 0
      ((Value.struct byteAndArray).marshal .littleEndian 0) := by
    rw [byteAndArray_marshal]
    exact List.prefix_rfl
  have h := (struct_decodes byteAndArray htyped .littleEndian [5, 0, 0, 0, 4, 0, 0, 0, 7, 0, 0, 0]
    (by decide) 0 (Nat.zero_le _) hat).1 hread byteAndArray_walked
  rw [byteAndArray_marshal] at h
  exact h.1

/-- A struct with one byte. -/
def byteStruct : Value := .struct [.basic (.word (.byte 5) .byte rfl)]

/-- A struct as the only field of another: its byte becomes the field. -/
theorem nested_struct_flattened :
    (Value.struct [byteStruct]).marshal .littleEndian 0 = [5] ∧
      dbusStruct (extract ⟨[5], .littleEndian⟩ 1) ⟨[5], .littleEndian⟩
        (units (DbusType.struct (Value.types [byteStruct])).signature) 0 =
          .returns ⟨[0x28, 0x28, 0x79, 0x29, 0x29], [.java (.byte 5)]⟩ 1 ∧
      ∀ fuel signature next, dbusStruct (extract ⟨[5], .littleEndian⟩ fuel) ⟨[5], .littleEndian⟩
        (units (DbusType.struct (Value.types [byteStruct])).signature) 0 ≠
          .returns ⟨signature, Value.objects [0x29] [byteStruct]⟩ next := by
  refine ⟨by decide +kernel, rfl, fun fuel signature next => ?_⟩
  cases fuel with
  | zero => nofun
  | succ fuel =>
      show Outcome.returns (⟨[0x28, 0x28, 0x79, 0x29, 0x29], [.java (.byte 5)]⟩ : DbusStruct) 1 ≠ _
      nofun

end AapBridge.Wire
