import AapBridge.Wire.DbusValue

/-! # What the decoder reads as it was written

The condition under which a value is decoded to the object it stands for, with
the position behind it: texts that survive, struct fields whose type is one
character, and arrays whose end is not computed too early to reach the last
element. The proof follows the value; the loops are by induction on elements and
fields.
-/

namespace AapBridge.Wire

open AapBridge.Lib AapBridge.Android Cursor

section

variable {bytes : List UInt8} {order : ByteOrder}

/-! ## Basic values -/

theorem wordType_code {v : BasicValue} {t : BasicType} (h : v.wordType = some t) : t.code = v.code := by
  cases v <;> cases h <;> rfl

theorem wordType_alignment {v : BasicValue} {t : BasicType} (h : v.wordType = some t) :
    t.alignment = v.alignment := by
  cases v <;> cases h <;> rfl

theorem TextKind.object_inj {text text' : JavaString} {kind : TextKind}
    (h : kind.object text = kind.object text') : text = text' := by
  cases kind <;> cases h <;> rfl

theorem extract_text (v : TextValue) (fuel position : Nat) (rest : JavaString) :
    extract ⟨bytes, order⟩ (fuel + 1) (codeUnit v.kind.type.code :: rest) position =
      (v.parse ⟨bytes, order⟩ position).bind fun text next => .returns (v.kind.object text) next := by
  unfold TextValue.parse
  cases v.kind <;> rfl

theorem reads_basicValue (hbytes : bytes.length < 2 ^ 31) {v : Basic} (h : v.Survives)
    (fuel position : Nat) (rest : JavaString) :
    Reads bytes (extract ⟨bytes, order⟩ (fuel + 1) (codeUnit v.type.code :: rest)) position
      (v.marshal order position) v.object := by
  cases v with
  | word v t ht =>
      show Reads _ (extract _ _ (codeUnit t.code :: rest)) _ _ _
      rw [wordType_code ht]
      exact reads_basic hbytes v fuel position rest
  | unixFd v => exact h.elim
  | text v =>
      intro hat hpos
      show extract _ _ (codeUnit v.kind.type.code :: rest) position = _
      rw [extract_text, v.reads_text h hbytes position hat hpos]
      rfl

/-- A basic value that does not survive is never decoded to itself. -/
theorem basicValue_lost (hbytes : bytes.length < 2 ^ 31) {v : Basic} (h : ¬v.Survives)
    {position : Nat} (hat : At bytes position (v.marshal order position))
    (hpos : position ≤ bytes.length) (fuel next : Nat) (rest : JavaString) :
    extract ⟨bytes, order⟩ fuel (codeUnit v.type.code :: rest) position ≠ .returns v.object next := by
  cases fuel with
  | zero => nofun
  | succ fuel =>
      cases v with
      | word v t ht => exact absurd trivial h
      | unixFd v => nofun
      | text v =>
          intro heq
          change extract _ _ (codeUnit v.kind.type.code :: rest) position = _ at heq
          obtain ⟨text, next', hother, hne⟩ := v.reads_other h hbytes hpos hat
          rw [extract_text, hother, Outcome.bind_returns] at heq
          exact hne (TextKind.object_inj (Outcome.returns.inj heq).1)

/-! ## Loops -/

/-- Each of the values is read where it comes to lie. -/
def ReadsAll {α : Type} (bytes : List UInt8) (read : α → Cursor DbusObject)
    (marshal : Nat → α → List UInt8) (object : α → DbusObject) : Nat → List α → Prop
  | _, [] => True
  | position, a :: as => Reads bytes (read a) position (marshal position a) (object a) ∧
      ReadsAll bytes read marshal object (position + (marshal position a).length) as

theorem lastSize_cons {α : Type} {marshal : Nat → α → List UInt8} {position : Nat} {a : α} {as : List α}
    (h : as ≠ []) : lastSize marshal position (a :: as) =
      lastSize marshal (position + (marshal position a).length) as := by
  cases as with
  | nil => exact absurd rfl h
  | cons b as => rfl

theorem lastSize_le {α : Type} (marshal : Nat → α → List UInt8) (position : Nat) (as : List α) :
    lastSize marshal position as ≤ (marshalAll marshal position as).length := by
  induction as generalizing position with
  | nil => exact Nat.zero_le _
  | cons a as ih =>
      by_cases hempty : as = []
      · subst hempty
        simp [lastSize, marshalAll]
      · rw [lastSize_cons hempty, marshalAll, List.length_append]
        exact (ih _).trans (Nat.le_add_left _ _)

/-- The loop of an array whose end is computed as `stop`, not behind the last
element, but behind the beginning of it. -/
theorem reads_arrayLoop_stop {α : Type} {element : Cursor DbusObject} {marshal : Nat → α → List UInt8}
    {object : α → DbusObject} (elements : List α) {rounds : Nat} (hrounds : elements.length < rounds)
    {position : Nat} {stop : Int}
    (hread : ReadsAll bytes (fun _ => element) marshal object position elements)
    (hstop : stop ≤ (position + (marshalAll marshal position elements).length : Nat))
    (hlast : elements ≠ [] → (position + (marshalAll marshal position elements).length : Int) <
      stop + lastSize marshal position elements) (list : List DbusObject) :
    Reads bytes (arrayLoop element stop rounds list) position (marshalAll marshal position elements)
      (list ++ elements.map object) := by
  induction elements generalizing rounds position list with
  | nil =>
      obtain ⟨rounds, rfl⟩ : ∃ n, rounds = n + 1 := ⟨rounds - 1, by omega⟩
      intro _ _
      rw [arrayLoop_end (by simpa [marshalAll] using hstop), List.map_nil, List.append_nil]
      rfl
  | cons a elements ih =>
      obtain ⟨rounds, rfl⟩ : ∃ n, rounds = n + 1 := ⟨rounds - 1, by omega⟩
      have hbound := hlast (List.cons_ne_nil a elements)
      rw [marshalAll, List.length_append] at hstop hbound
      have hrest := lastSize_le marshal (position + (marshal position a).length) elements
      have hbegin : (position : Int) < stop := by
        by_cases hempty : elements = []
        · subst hempty
          simp only [lastSize, marshalAll, List.length_nil] at hbound
          omega
        · rw [lastSize_cons hempty] at hbound
          omega
      intro hat hpos
      have helement : Reads bytes element position (marshal position a) (object a) := hread.1
      rw [arrayLoop_round hbegin, helement hat.left hpos, Outcome.bind_returns,
        ih (by simpa using hrounds) hread.2 (by omega) (fun hmore => ?_) (list ++ [object a]) hat.right
          (hat.left.le hpos)]
      · simp [marshalAll, Nat.add_assoc]
      · rw [lastSize_cons hmore] at hbound
        omega

/-! ## Types and sizes -/

theorem BasicType.code_lt (t : BasicType) : t.code < 128 := by
  cases t <;> decide

mutual

theorem signature_ascii (t : DbusType) : ∀ c ∈ t.signature, c < 128 := by
  match t with
  | .basic t =>
      intro c hc
      rw [DbusType.signature, List.mem_singleton] at hc
      rw [hc]
      exact t.code_lt
  | .variant =>
      intro c hc
      rw [DbusType.signature, List.mem_singleton] at hc
      rw [hc]
      decide
  | .array element =>
      intro c hc
      rw [DbusType.signature] at hc
      rcases List.mem_cons.mp hc with rfl | hc
      · decide
      · exact signature_ascii element c hc
  | .struct fields =>
      intro c hc
      rw [DbusType.signature] at hc
      rcases List.mem_cons.mp hc with rfl | hc
      · decide
      · rcases List.mem_append.mp hc with hc | hc
        · exact signatures_ascii fields c hc
        · rw [List.mem_singleton.mp hc]
          decide
  | .dictEntry key value =>
      intro c hc
      rw [DbusType.signature] at hc
      rcases List.mem_cons.mp hc with rfl | hc
      · decide
      · rcases List.mem_cons.mp hc with rfl | hc
        · exact key.code_lt
        · rcases List.mem_append.mp hc with hc | hc
          · exact signature_ascii value c hc
          · rw [List.mem_singleton.mp hc]
            decide

theorem signatures_ascii (ts : List DbusType) : ∀ c ∈ DbusType.signatures ts, c < 128 := by
  match ts with
  | [] => nofun
  | t :: ts =>
      intro c hc
      rw [DbusType.signatures] at hc
      rcases List.mem_append.mp hc with hc | hc
      · exact signature_ascii t c hc
      · exact signatures_ascii ts c hc

end

theorem marshals_eq (position : Nat) (vs : List Value) :
    Value.marshals order position vs = marshalAll (Value.marshal order) position vs := by
  induction vs generalizing position with
  | nil => rfl
  | cons v vs ih => rw [Value.marshals, marshalAll, ih]

theorem objects_eq (rest : JavaString) (vs : List Value) :
    Value.objects rest vs = vs.map (Value.object rest) := by
  induction vs with
  | nil => rfl
  | cons v vs ih => rw [Value.objects, List.map_cons, ih]

/-- Behind a padding no more of it is needed. -/
theorem padding_behind (alignment position : Nat) (h : 0 < alignment) :
    padding alignment (position + (padding alignment position).length) = [] := by
  have haligned : (position + (alignment - position % alignment) % alignment) % alignment = 0 :=
    aligned_mod h position
  unfold padding
  rw [List.length_replicate, haligned, Nat.sub_zero, Nat.mod_self]
  rfl

theorem padding_zero {alignment position : Nat} (h : 0 < alignment) :
    position + (padding alignment position).length +
      (padding alignment (position + (padding alignment position).length)).length =
      position + (padding alignment position).length := by
  rw [padding_behind alignment position h, List.length_nil, Nat.add_zero]

theorem elementsAt_padded (position : Nat) :
    Value.elementsAt (position + (padding 4 position).length) = Value.elementsAt position := by
  unfold Value.elementsAt
  rw [padding_zero (by decide)]

theorem BasicValue.marshal_padded (v : BasicValue) (position : Nat) :
    v.marshal order position = padding v.alignment position ++
      v.marshal order (position + (padding v.alignment position).length) := by
  have hpositive : 0 < v.alignment := by
    cases v <;> simp [BasicValue.alignment]
  unfold BasicValue.marshal
  rw [padding_behind v.alignment position hpositive]
  rfl

theorem TextValue.marshal_padded (v : TextValue) (position : Nat) :
    v.marshal order position = padding v.lengthBytes position ++
      v.marshal order (position + (padding v.lengthBytes position).length) := by
  have hpositive : 0 < v.lengthBytes := by
    unfold TextValue.lengthBytes
    cases v.kind <;> decide
  unfold TextValue.marshal
  rw [padding_behind v.lengthBytes position hpositive]
  rfl

theorem Basic.marshal_padded (v : Basic) (position : Nat) :
    v.marshal order position = padding v.type.alignment position ++
      v.marshal order (position + (padding v.type.alignment position).length) := by
  cases v with
  | word v t ht =>
      show v.marshal order position = padding t.alignment position ++
        v.marshal order (position + (padding t.alignment position).length)
      rw [wordType_alignment ht]
      exact v.marshal_padded position
  | unixFd v =>
      show padding 4 position ++ order.put 4 v.toNat = padding 4 position ++
        (padding 4 (position + (padding 4 position).length) ++ order.put 4 v.toNat)
      rw [padding_behind 4 position (by decide)]
      rfl
  | text v =>
      have halignment : v.kind.type.alignment = v.lengthBytes := by
        unfold TextValue.lengthBytes
        cases v.kind <;> rfl
      show v.marshal order position = padding v.kind.type.alignment position ++
        v.marshal order (position + (padding v.kind.type.alignment position).length)
      rw [halignment]
      exact v.marshal_padded position

/-- The padding in front of a value is that of its type. -/
theorem Value.marshal_padded (v : Value) (position : Nat) :
    v.marshal order position = padding v.type.alignment position ++
      v.marshal order (position + (padding v.type.alignment position).length) := by
  cases v with
  | basic v => exact v.marshal_padded position
  | variant v =>
      show _ = padding 1 position ++ Value.marshal order (position + (padding 1 position).length) _
      rw [padding_one]
      rfl
  | array element elements =>
      show Value.marshal order position (.array element elements) = padding 4 position ++
        Value.marshal order (position + (padding 4 position).length) (.array element elements)
      rw [Value.marshal, Value.marshal, elementsAt_padded, padding_behind 4 position (by decide)]
      rfl
  | struct fields =>
      show Value.marshal order position (.struct fields) = padding 8 position ++
        Value.marshal order (position + (padding 8 position).length) (.struct fields)
      rw [Value.marshal, Value.marshal, padding_behind 8 position (by decide)]
      rfl
  | dictEntry key value =>
      show Value.marshal order position (.dictEntry key value) = padding 8 position ++
        Value.marshal order (position + (padding 8 position).length) (.dictEntry key value)
      rw [Value.marshal, Value.marshal, padding_behind 8 position (by decide)]
      rfl

theorem Basic.marshal_ne_nil (v : Basic) (position : Nat) : v.marshal order position ≠ [] := by
  apply List.ne_nil_of_length_pos
  cases v with
  | word v t ht =>
      show 0 < (v.marshal order position).length
      unfold BasicValue.marshal
      rw [List.length_append]
      have hdata : 0 < (v.data order).length := by
        cases v <;> simp [BasicValue.data, BasicValue.text]
      omega
  | unixFd v =>
      show 0 < (padding 4 position ++ order.put 4 v.toNat).length
      simp
  | text v =>
      show 0 < (v.marshal order position).length
      unfold TextValue.marshal
      simp only [List.length_append, List.length_singleton]
      omega

theorem Value.marshal_ne_nil (v : Value) (h : v.WellTyped) (position : Nat) :
    v.marshal order position ≠ [] := by
  match v with
  | .basic v => exact v.marshal_ne_nil position
  | .variant v =>
      rw [Value.marshal]
      exact List.cons_ne_nil _ _
  | .array element elements =>
      rw [Value.marshal]
      apply List.ne_nil_of_length_pos
      simp only [List.length_append, ByteOrder.put_length]
      omega
  | .struct [] => exact absurd rfl h.1
  | .struct (field :: fields) =>
      have hfield := Value.marshal_ne_nil field h.2.1 (position + (padding 8 position).length)
      rw [Value.marshal, Value.marshals]
      exact List.append_ne_nil_of_right_ne_nil _ (List.append_ne_nil_of_left_ne_nil hfield _)
  | .dictEntry key value =>
      have hkey : key.marshal order (position + (padding 8 position).length) ≠ [] := key.marshal_ne_nil _
      rw [Value.marshal]
      exact List.append_ne_nil_of_right_ne_nil _ (List.append_ne_nil_of_left_ne_nil hkey _)

/-! ## The condition -/

namespace Value

/-- The type of the value is one character. -/
def Single : Value → Prop
  | basic _ | variant _ => True
  | array _ _ | struct _ | dictEntry _ _ => False

/-- The loop over the elements begins the last of them: the end that it goes to
lacks the padding in front of the first. -/
def Reached (order : ByteOrder) (position : Nat) (element : DbusType) (elements : List Value) : Prop :=
  padding element.alignment (elementsAt position) = [] ∨
    (padding element.alignment (elementsAt position)).length <
      lastSize (marshal order) (elementsAt position) elements

mutual

/-- The value is one that the decoder gives back, with the position behind it. -/
def Readable (order : ByteOrder) : Nat → Value → Prop
  | _, basic v => v.Survives
  | position, variant v =>
      v.type.signature.length ≤ 127 ∧ Readable order (embeddedAt position v) v
  | position, array element elements =>
      Reached order position element elements ∧ Readables order (elementsAt position) elements
  | position, struct fields =>
      (∀ field ∈ fields, field.Single) ∧
        Readables order (position + (padding 8 position).length) fields
  | position, dictEntry key value =>
      key.Survives ∧ Readable order (position + (padding 8 position).length +
        (key.marshal order (position + (padding 8 position).length)).length) value

def Readables (order : ByteOrder) : Nat → List Value → Prop
  | _, [] => True
  | position, v :: vs =>
      Readable order position v ∧ Readables order (position + (marshal order position v).length) vs

end

theorem Single.object_eq {v : Value} (h : v.Single) (rest : JavaString) :
    v.object rest = v.object [] := by
  cases v with
  | basic v => rfl
  | variant v => rfl
  | array element elements => exact h.elim
  | struct fields => exact h.elim
  | dictEntry key value => exact h.elim

/-- The character is no parenthesis. -/
theorem Single.signature_eq {v : Value} (h : v.Single) :
    ∃ c, v.type.signature = [c] ∧ codeUnit c ≠ 0x28 ∧ codeUnit c ≠ 0x29 := by
  cases v with
  | basic v =>
      refine ⟨v.type.code, rfl, ?_⟩
      cases v.type <;> decide
  | variant v => exact ⟨0x76, rfl, by decide⟩
  | array element elements => exact h.elim
  | struct fields => exact h.elim
  | dictEntry key value => exact h.elim

theorem signatures_length {vs : List Value} (h : ∀ v ∈ vs, v.Single) :
    (DbusType.signatures (types vs)).length = vs.length := by
  induction vs with
  | nil => rfl
  | cons v vs ih =>
      obtain ⟨c, hc, -⟩ := (h v List.mem_cons_self).signature_eq
      rw [types, DbusType.signatures, hc, List.singleton_append, List.length_cons, List.length_cons,
        ih fun v hv => h v (List.mem_cons_of_mem _ hv)]

theorem allTyped_of_haveType {element : DbusType} {vs : List Value} (h : HaveType element vs) :
    AllTyped vs := by
  induction vs with
  | nil => trivial
  | cons v vs ih => exact ⟨h.2.1, ih h.2.2⟩

variable (order) in
/-- The padding that the length of an array leaves out is that of the first
element. -/
theorem marshals_padded {element : DbusType} {elements : List Value} (htyped : HaveType element elements)
    (hne : elements ≠ []) (position : Nat) :
    padding element.alignment position ++
        marshals order (position + (padding element.alignment position).length) elements =
      marshals order position elements := by
  cases elements with
  | nil => exact absurd rfl hne
  | cons v vs =>
      have hpadded : v.marshal order position = _ := v.marshal_padded position
      rw [htyped.1] at hpadded
      rw [marshals, marshals, hpadded]
      simp [Nat.add_assoc]

theorem Reached.marshals_eq {position : Nat} {element : DbusType} {elements : List Value}
    (h : Reached order position element elements) (htyped : HaveType element elements) :
    padding element.alignment (elementsAt position) ++ marshals order (elementsAt position +
        (padding element.alignment (elementsAt position)).length) elements =
      marshals order (elementsAt position) elements := by
  by_cases hempty : elements = []
  · subst hempty
    rcases h with hpad | hpad
    · rw [hpad]
      rfl
    · exact absurd hpad (Nat.not_lt_zero _)
  · exact marshals_padded order htyped hempty (elementsAt position)

variable (order) in
theorem lastSize_pos {vs : List Value} (htyped : AllTyped vs) (hne : vs ≠ []) (position : Nat) :
    0 < lastSize (marshal order) position vs := by
  induction vs generalizing position with
  | nil => exact absurd rfl hne
  | cons v vs ih =>
      by_cases hempty : vs = []
      · subst hempty
        exact List.length_pos_iff.mpr (v.marshal_ne_nil htyped.1 position)
      · rw [lastSize_cons hempty]
        exact ih htyped.2 hempty _

end Value

/-! ## Containers

Each container reads what it holds with one unit of fuel less. -/

theorem units_append (as bs : List UInt8) : units (as ++ bs) = units as ++ units bs :=
  List.map_append

theorem reads_signature {t : DbusType} (hshort : t.signature.length ≤ 127) (position : Nat) :
    Reads bytes ((⟨bytes, order⟩ : ReadBuffer).dbusSignature) position
      (UInt8.ofNat t.signature.length :: (t.signature ++ [0])) (units t.signature) := by
  have hread : Reads bytes ((⟨bytes, order⟩ : ReadBuffer).dbusSignature) position _ (units t.signature) :=
    reads_dbusSignature ⟨⟨t.signature, signature_ascii t⟩, hshort⟩ position
  rwa [BasicValue.text, put_one] at hread

theorem reads_variant {v : Value} (hshort : v.type.signature.length ≤ 127) {fuel position : Nat}
    (hread : Reads bytes (extract ⟨bytes, order⟩ fuel (units v.type.signature))
      (Value.embeddedAt position v) (v.marshal order (Value.embeddedAt position v)) (v.object []))
    (rest : JavaString) :
    Reads bytes (extract ⟨bytes, order⟩ (fuel + 1) (0x76 :: rest)) position
      ((Value.variant v).marshal order position) ((Value.variant v).object rest) := by
  have hmarshal : (Value.variant v).marshal order position =
      UInt8.ofNat v.type.signature.length :: (v.type.signature ++ [0]) ++
        v.marshal order (Value.embeddedAt position v) := by
    rw [Value.marshal]
    simp
  have hnext : position + (UInt8.ofNat v.type.signature.length :: (v.type.signature ++ [0])).length =
      Value.embeddedAt position v := by
    simp [Value.embeddedAt, Nat.add_assoc]
  rw [hmarshal, Value.object]
  apply (reads_signature hshort position).bind
  rw [hnext]
  exact hread.map _

theorem reads_dictEntry {key : Basic} {value : Value} (hkey : key.Survives) (hbytes : bytes.length < 2 ^ 31)
    {fuel position : Nat} {rest : JavaString}
    (hread : Reads bytes (extract ⟨bytes, order⟩ (fuel + 1) (units value.type.signature ++ 0x7D :: rest))
      (position + (padding 8 position).length +
        (key.marshal order (position + (padding 8 position).length)).length)
      (value.marshal order (position + (padding 8 position).length +
        (key.marshal order (position + (padding 8 position).length)).length))
      (value.object (0x7D :: rest))) :
    Reads bytes (extract ⟨bytes, order⟩ (fuel + 2)
        (units (Value.dictEntry key value).type.signature ++ rest)) position
      ((Value.dictEntry key value).marshal order position) ((Value.dictEntry key value).object rest) := by
  have hsignature : units (Value.dictEntry key value).type.signature ++ rest =
      0x7B :: codeUnit key.type.code :: (units value.type.signature ++ 0x7D :: rest) := by
    show units (0x7B :: key.type.code :: (value.type.signature ++ [0x7D])) ++ rest = _
    simp [units, codeUnit]
  rw [Value.object, show units (DbusType.dictEntry key.type value.type).signature ++ rest = _ from
    hsignature, hsignature, Value.marshal]
  apply (reads_align 8 position).bind
  apply (reads_basicValue hbytes hkey fuel _ _).bind
  exact hread.map _

/-- The fields of one character, up to whatever stands behind them. -/
theorem structLoop_single {f : JavaString → Cursor DbusObject} (fields : List Value)
    (hsingle : ∀ field ∈ fields, field.Single) {position : Nat}
    (hread : ∀ rest, ReadsAll bytes (fun v => f (units v.type.signature ++ rest))
      (Value.marshal order) (Value.object rest) position fields)
    (hat : At bytes position (Value.marshals order position fields)) (hpos : position ≤ bytes.length)
    (rest : JavaString) (i : Nat) (list : List DbusObject) :
    structLoop f (units (DbusType.signatures (Value.types fields)) ++ rest) 1 i list position =
      structLoop f rest 1 (i + fields.length) (list ++ Value.objects [] fields)
        (position + (Value.marshals order position fields).length) := by
  induction fields generalizing position i list with
  | nil => simp [Value.types, DbusType.signatures, Value.objects, Value.marshals, units]
  | cons v fields ih =>
      have hfield := hsingle v List.mem_cons_self
      obtain ⟨c, hc, hopen, hclose⟩ := hfield.signature_eq
      rw [Value.marshals] at hat ⊢
      have hchars : units (DbusType.signatures (Value.types (v :: fields))) ++ rest =
          units v.type.signature ++ (units (DbusType.signatures (Value.types fields)) ++ rest) := by
        rw [Value.types, DbusType.signatures, units_append, List.append_assoc]
      have hhead := (hread (units (DbusType.signatures (Value.types fields)) ++ rest)).1 hat.left hpos
      have htail := ih (fun field hmem => hsingle field (List.mem_cons_of_mem v hmem))
        (fun rest => (hread rest).2) hat.right (hat.left.le hpos) (i + 1) (list ++ [v.object []])
      have hcons : ∀ tail, units v.type.signature ++ tail = codeUnit c :: tail := by
        intro tail
        rw [hc]
        rfl
      beta_reduce at hhead
      rw [hcons] at hhead
      rw [hchars, hcons, structLoop_field hopen hclose, bind_apply, Cursor.attempt, hhead]
      show structNext _ _ _ _ _ _ = _
      rw [structNext, if_pos (by decide), hfield.object_eq, htail, Value.objects, List.length_append,
        List.length_cons, List.append_assoc]
      simp [Nat.add_assoc, Nat.add_comm 1]

/-- The characters of a struct in a signature. -/
theorem units_struct (fields : List Value) (rest : JavaString) :
    units (Value.struct fields).type.signature ++ rest =
      0x28 :: (units (DbusType.signatures (Value.types fields)) ++ 0x29 :: rest) := by
  show units (0x28 :: (DbusType.signatures (Value.types fields) ++ [0x29])) ++ rest = _
  simp [units]

theorem reads_struct {fields : List Value} (hsingle : ∀ field ∈ fields, field.Single)
    {fuel position : Nat}
    (hread : ∀ rest, ReadsAll bytes (fun v => extract ⟨bytes, order⟩ fuel (units v.type.signature ++ rest))
      (Value.marshal order) (Value.object rest) (position + (padding 8 position).length) fields)
    (rest : JavaString) :
    Reads bytes (extract ⟨bytes, order⟩ (fuel + 1) (units (Value.struct fields).type.signature ++ rest))
      position ((Value.struct fields).marshal order position) ((Value.struct fields).object rest) := by
  have htake : (0x28 :: (units (DbusType.signatures (Value.types fields)) ++ 0x29 :: rest)).take
      (1 + fields.length + 1) = units (Value.struct fields).type.signature := by
    have hlength : (units (Value.struct fields).type.signature).length = 1 + fields.length + 1 := by
      show (units (0x28 :: (DbusType.signatures (Value.types fields) ++ [0x29]))).length = _
      simp [units, Value.signatures_length hsingle, Nat.add_comm 1]
    rw [← units_struct, ← hlength]
    exact List.take_left
  intro hat hpos
  rw [Value.marshal] at hat ⊢
  rw [units_struct, extract_struct rfl, reads_align 8 position hat.left hpos, Outcome.bind_returns,
    structLoop_single fields hsingle hread hat.right (hat.left.le hpos)]
  rw [structLoop_close, structNext, if_neg (by decide)]
  show Outcome.returns _ _ = _
  rw [htake, List.length_append, ← Nat.add_assoc]
  rfl

/-- Where the elements of an array begin, and the end that the loop goes to. -/
theorem arrayEnd_marshal {element : DbusType} {elements : List Value} {position : Nat}
    (hbytes : bytes.length < 2 ^ 31) (hpos : position ≤ bytes.length)
    (hat : At bytes position ((Value.array element elements).marshal order position)) :
    ∃ n, n = (Value.marshals order (Value.elementsAt position +
        (padding element.alignment (Value.elementsAt position)).length) elements).length ∧
      arrayEnd ⟨bytes, order⟩ position =
        .returns ((Value.elementsAt position + n : Nat) : Int) (Value.elementsAt position) ∧
      Value.elementsAt position ≤ bytes.length ∧
      At bytes (Value.elementsAt position) (padding element.alignment (Value.elementsAt position) ++
        Value.marshals order (Value.elementsAt position +
          (padding element.alignment (Value.elementsAt position)).length) elements) ∧
      position + ((Value.array element elements).marshal order position).length =
        Value.elementsAt position + (padding element.alignment (Value.elementsAt position)).length + n := by
  rw [Value.marshal] at hat ⊢
  generalize hcount : (Value.marshals order (Value.elementsAt position +
    (padding element.alignment (Value.elementsAt position)).length) elements).length = n at hat ⊢
  rw [← List.append_assoc] at hat ⊢
  have hbegin : position + (padding 4 position ++ order.put 4 n).length = Value.elementsAt position := by
    simp [Value.elementsAt, Nat.add_assoc]
  have hright := hat.right
  have hmiddle := hat.left.le hpos
  rw [hbegin] at hright hmiddle
  have hle := hright.le hmiddle
  rw [List.length_append, hcount] at hle
  have hfits : Value.elementsAt position + n < 2 ^ 31 := by omega
  have hread : arrayEnd ⟨bytes, order⟩ position = _ := reads_arrayEnd position n hfits hat.left hpos
  rw [hbegin] at hread
  refine ⟨n, rfl, hread, hmiddle, hright, ?_⟩
  rw [List.length_append, ← Nat.add_assoc, hbegin, List.length_append, hcount, Nat.add_assoc]

/-- The array of a type, as far as its elements are read one after another. -/
theorem reads_elements (hbytes : bytes.length < 2 ^ 31) {element : DbusType} {elements : List Value}
    (htyped : Value.HaveType element elements) {fuel position : Nat}
    (hreached : Value.Reached order position element elements) (hfuel : elements.length < fuel)
    {rest : JavaString}
    (hread : ReadsAll bytes (fun _ => extract ⟨bytes, order⟩ fuel (units element.signature ++ rest))
      (Value.marshal order) (Value.object rest) (Value.elementsAt position) elements) :
    Reads bytes (dbusArray (extract ⟨bytes, order⟩ fuel) ⟨bytes, order⟩ fuel
        (units (DbusType.array element).signature ++ rest)) position
      ((Value.array element elements).marshal order position) (elements.map (Value.object rest)) := by
  intro hat hpos
  obtain ⟨n, hn, hstop, hbegin, hright, hend⟩ := arrayEnd_marshal hbytes hpos hat
  have hlength := congrArg List.length (hreached.marshals_eq htyped)
  rw [List.length_append, ← hn, marshals_eq] at hlength
  rw [hreached.marshals_eq htyped, marshals_eq] at hright
  have hlast : elements ≠ [] → (Value.elementsAt position + (marshalAll (Value.marshal order)
      (Value.elementsAt position) elements).length : Int) < (Value.elementsAt position + n : Nat) +
        lastSize (Value.marshal order) (Value.elementsAt position) elements := by
    intro hne
    have hpositive := Value.lastSize_pos order (Value.allTyped_of_haveType htyped) hne
      (Value.elementsAt position)
    rcases hreached with hpad | hpad
    · rw [hpad, List.length_nil] at hlength
      omega
    · omega
  have hloop := reads_arrayLoop_stop elements hfuel hread (by omega) hlast [] hright hbegin
  rw [hend]
  show (arrayEnd _ position).bind _ = _
  rw [hstop, Outcome.bind_returns]
  show arrayLoop (extract _ fuel (units element.signature ++ rest)) _ _ _ _ = _
  rw [hloop, List.nil_append, ← hlength, Nat.add_assoc]

theorem reads_array (hbytes : bytes.length < 2 ^ 31) {element : DbusType} {elements : List Value}
    (htyped : Value.HaveType element elements) {fuel position : Nat}
    (hreached : Value.Reached order position element elements) (hfuel : elements.length < fuel)
    {rest : JavaString}
    (hread : ReadsAll bytes (fun _ => extract ⟨bytes, order⟩ fuel (units element.signature ++ rest))
      (Value.marshal order) (Value.object rest) (Value.elementsAt position) elements) :
    Reads bytes (extract ⟨bytes, order⟩ (fuel + 1)
        (units (Value.array element elements).type.signature ++ rest)) position
      ((Value.array element elements).marshal order position)
      ((Value.array element elements).object rest) := by
  rw [Value.object, objects_eq]
  exact (reads_elements hbytes htyped hreached hfuel hread).map _

/-! ## Values of any type -/

theorem readsAll_element {f : JavaString → Cursor DbusObject} {object : Value → DbusObject}
    {element : DbusType} {elements : List Value} (htyped : Value.HaveType element elements)
    {position : Nat} {rest : JavaString}
    (h : ReadsAll bytes (fun v => f (units v.type.signature ++ rest)) (Value.marshal order) object
      position elements) :
    ReadsAll bytes (fun _ => f (units element.signature ++ rest)) (Value.marshal order) object position
      elements := by
  induction elements generalizing position with
  | nil => trivial
  | cons v vs ih =>
      have hhead := h.1
      beta_reduce at hhead
      rw [htyped.1] at hhead
      exact ⟨hhead, ih htyped.2.2 h.2⟩

mutual

/-- With enough fuel the decoder gives a readable value back, whatever stands
behind its type in the signature. -/
theorem reads_value (hbytes : bytes.length < 2 ^ 31) (v : Value) (htyped : v.WellTyped) (position : Nat)
    (h : v.Readable order position) : ∃ least, ∀ fuel, least ≤ fuel → ∀ rest,
      Reads bytes (extract ⟨bytes, order⟩ fuel (units v.type.signature ++ rest)) position
        (v.marshal order position) (v.object rest) := by
  match v with
  | .basic v =>
      refine ⟨1, fun fuel hfuel rest => ?_⟩
      obtain ⟨fuel, rfl⟩ := Nat.exists_eq_add_of_le' hfuel
      exact reads_basicValue hbytes h fuel position rest
  | .variant v =>
      obtain ⟨least, hread⟩ := reads_value hbytes v htyped _ h.2
      refine ⟨least + 1, fun fuel hfuel rest => ?_⟩
      obtain ⟨fuel, rfl⟩ := Nat.exists_eq_add_of_le' (Nat.le_of_add_left_le hfuel)
      have hinner := hread fuel (by omega) []
      rw [List.append_nil] at hinner
      exact reads_variant h.1 hinner rest
  | .array element elements =>
      obtain ⟨least, hread⟩ := reads_values hbytes elements (Value.allTyped_of_haveType htyped) _ h.2
      refine ⟨least + elements.length + 2, fun fuel hfuel rest => ?_⟩
      obtain ⟨fuel, rfl⟩ : ∃ n, fuel = n + 1 := ⟨fuel - 1, by omega⟩
      exact reads_array hbytes htyped h.1 (by omega)
        (readsAll_element htyped (hread fuel (by omega) rest))
  | .struct fields =>
      obtain ⟨least, hread⟩ := reads_values hbytes fields htyped.2 _ h.2
      refine ⟨least + 1, fun fuel hfuel rest => ?_⟩
      obtain ⟨fuel, rfl⟩ : ∃ n, fuel = n + 1 := ⟨fuel - 1, by omega⟩
      exact reads_struct h.1 (hread fuel (by omega)) rest
  | .dictEntry key value =>
      obtain ⟨least, hread⟩ := reads_value hbytes value htyped _ h.2
      refine ⟨least + 2, fun fuel hfuel rest => ?_⟩
      obtain ⟨fuel, rfl⟩ : ∃ n, fuel = n + 2 := ⟨fuel - 2, by omega⟩
      exact reads_dictEntry h.1 hbytes (hread (fuel + 1) (by omega) (0x7D :: rest))

theorem reads_values (hbytes : bytes.length < 2 ^ 31) (vs : List Value) (htyped : Value.AllTyped vs)
    (position : Nat) (h : Value.Readables order position vs) : ∃ least, ∀ fuel, least ≤ fuel → ∀ rest,
      ReadsAll bytes (fun v => extract ⟨bytes, order⟩ fuel (units v.type.signature ++ rest))
        (Value.marshal order) (Value.object rest) position vs := by
  match vs with
  | [] => exact ⟨0, fun _ _ _ => trivial⟩
  | v :: vs =>
      obtain ⟨least, hread⟩ := reads_value hbytes v htyped.1 position h.1
      obtain ⟨leasts, hreads⟩ := reads_values hbytes vs htyped.2 _ h.2
      refine ⟨least + leasts, fun fuel hfuel rest => ?_⟩
      exact ⟨hread fuel (by omega) rest, hreads fuel (by omega) rest⟩

end

end

end AapBridge.Wire
