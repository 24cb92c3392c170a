import AapBridge.Wire.StructDecoding

/-! # Decoding arrays

`DbusArray` computes its end from the length and the position behind it, which
does not count the padding in front of the first element. For elements of basic
types, and for structs and dict entries of them, what a round returns is the
element exactly if its texts survive, and then the loop is where the next element
begins; so the elements come out exactly if all do and the loop reaches the last.
-/

namespace AapBridge.Wire

open AapBridge.Lib AapBridge.Android Cursor

section

variable {bytes : List UInt8} {order : ByteOrder}

/-! ## Loops that only add -/

theorem arrayLoop_grows (element : Cursor DbusObject) (stop : Int) (rounds : Nat)
    (list : List DbusObject) :
    Ensures (arrayLoop element stop rounds list) fun result => list <+: result := by
  induction rounds generalizing list with
  | zero => exact fun _ _ _ => nofun
  | succ rounds ih =>
      intro position result next hresult
      by_cases hstop : (position : Int) < stop
      · rw [arrayLoop_round hstop] at hresult
        have hgrows := ensures_last (p := element) fun object => fun position result next h =>
          (List.prefix_append list [object]).trans (ih (list ++ [object]) position result next h)
        exact hgrows position result next hresult
      · rw [arrayLoop_end hstop] at hresult
        cases hresult
        exact List.prefix_rfl

theorem structLoop_grows (f : JavaString → Cursor DbusObject) (chars : JavaString) (depth : Int) (i : Nat)
    (list : List DbusObject) :
    Ensures (structLoop f chars depth i list) fun result => list <+: result.1 := by
  induction chars generalizing depth i list with
  | nil => exact ensures_pure List.prefix_rfl
  | cons c rest ih =>
      have hnext : ∀ depth list, Ensures (structNext f rest depth (i + 1) list) fun result =>
          list <+: result.1 := by
        intro depth list
        unfold structNext
        split
        · exact ih depth (i + 1) list
        · exact ensures_pure List.prefix_rfl
      by_cases hopen : c = 0x28
      · rw [hopen, structLoop_open]
        exact hnext (depth + 1) list
      · by_cases hclose : c = 0x29
        · rw [hclose, structLoop_close]
          exact hnext (depth - 1) list
        · rw [structLoop_field hopen hclose]
          refine ensures_last fun result => ?_
          cases result with
          | none => exact ensures_pure List.prefix_rfl
          | some object =>
              intro position result next hresult
              exact (List.prefix_append list [object]).trans (hnext depth _ position result next hresult)

/-- What comes next in a list that has grown to contain it. -/
theorem next_of_grows {list rest : List DbusObject} {a b : DbusObject}
    (h : list ++ [a] <+: list ++ b :: rest) : a = b := by
  have hprefix := (List.prefix_append_right_inj list).mp h
  exact (List.cons_prefix_cons.mp hprefix).1

/-- An element that comes out as it is, is good, and the position is behind it. -/
def Exact {α : Type} (bytes : List UInt8) (element : Cursor DbusObject) (marshal : Nat → α → List UInt8)
    (object : α → DbusObject) (Good : α → Prop) (a : α) : Prop :=
  ∀ position next, At bytes position (marshal position a) → position ≤ bytes.length →
    element position = .returns (object a) next →
      Good a ∧ next = position + (marshal position a).length

theorem arrayLoop_exact {α : Type} {element : Cursor DbusObject} {marshal : Nat → α → List UInt8}
    {object : α → DbusObject} {Good : α → Prop} {elements : List α}
    (helements : ∀ a ∈ elements, Exact bytes element marshal object Good a) {position next rounds : Nat}
    {stop : Int} (list : List DbusObject) (hat : At bytes position (marshalAll marshal position elements))
    (hpos : position ≤ bytes.length)
    (hresult : arrayLoop element stop rounds list position =
      .returns (list ++ elements.map object) next) :
    (∀ a ∈ elements, Good a) ∧ (elements ≠ [] →
      (position + (marshalAll marshal position elements).length : Int) <
        stop + lastSize marshal position elements) := by
  induction elements generalizing position rounds list with
  | nil => exact ⟨nofun, fun h => absurd rfl h⟩
  | cons a elements ih =>
      cases rounds with
      | zero => cases hresult
      | succ rounds =>
          by_cases hstop : (position : Int) < stop
          · rw [arrayLoop_round hstop] at hresult
            obtain ⟨b, middle, hround, hrounds⟩ := Outcome.bind_eq_returns hresult
            have hb : b = object a := next_of_grows (arrayLoop_grows _ _ _ _ _ _ _ hrounds)
            rw [hb] at hround
            obtain ⟨hgood, hmiddle⟩ := helements a List.mem_cons_self position middle hat.left hpos hround
            have hrest : list ++ (a :: elements).map object =
                (list ++ [object a]) ++ elements.map object := by simp
            rw [hb, hmiddle, hrest] at hrounds
            obtain ⟨hall, hlast⟩ := ih (fun b hb => helements b (List.mem_cons_of_mem a hb)) _
              hat.right (hat.left.le hpos) hrounds
            refine ⟨List.forall_mem_cons.mpr ⟨hgood, hall⟩, fun _ => ?_⟩
            rw [marshalAll, List.length_append]
            by_cases hempty : elements = []
            · subst hempty
              simp only [marshalAll, lastSize, List.length_nil]
              omega
            · have hbound := hlast hempty
              rw [lastSize_cons hempty]
              push_cast at hbound ⊢
              omega
          · rw [arrayLoop_end hstop] at hresult
            have hlength := congrArg List.length (Outcome.returns.inj hresult).1
            simp at hlength

/-! ## Elements -/

namespace Value

mutual

/-- Every basic value in it survives. -/
def Survives : Value → Prop
  | basic v => v.Survives
  | variant v => v.Survives
  | array _ elements => AllSurvive elements
  | struct fields => AllSurvive fields
  | dictEntry key value => key.Survives ∧ value.Survives

def AllSurvive : List Value → Prop
  | [] => True
  | v :: vs => v.Survives ∧ AllSurvive vs

end

theorem allSurvive_iff (vs : List Value) : AllSurvive vs ↔ ∀ v ∈ vs, v.Survives := by
  induction vs with
  | nil => exact ⟨fun _ => nofun, fun _ => trivial⟩
  | cons v vs ih => rw [AllSurvive, ih, List.forall_mem_cons]

end Value

/-- A basic type, or a struct or a dict entry of basic types. -/
def DbusType.Flat : DbusType → Prop
  | .basic _ => True
  | .struct fields => ∀ field ∈ fields, ∃ t, field = .basic t
  | .dictEntry _ value => ∃ t, value = .basic t
  | .variant | .array _ => False

theorem basic_of_type {v : Value} {t : BasicType} (h : v.type = .basic t) : ∃ b, v = .basic b := by
  cases v with
  | basic b => exact ⟨b, rfl⟩
  | variant v => cases h
  | array element elements => cases h
  | struct fields => cases h
  | dictEntry key value => cases h

theorem basics_of_types {fields : List Value} (h : ∀ t ∈ Value.types fields, ∃ b, t = .basic b) :
    ∀ field ∈ fields, ∃ b, field = .basic b := by
  induction fields with
  | nil => nofun
  | cons v vs ih =>
      rw [Value.types, List.forall_mem_cons] at h
      obtain ⟨⟨t, ht⟩, htail⟩ := h
      exact List.forall_mem_cons.mpr ⟨basic_of_type ht, ih htail⟩

theorem basic_exact (hbytes : bytes.length < 2 ^ 31) (fuel : Nat) (rest : JavaString) (b : Basic) :
    Exact bytes (extract ⟨bytes, order⟩ fuel (codeUnit b.type.code :: rest)) (Basic.marshal order)
      Basic.object Basic.Survives b := by
  intro position next hat hpos hresult
  have hsurvives : b.Survives := by
    by_contra h
    exact basicValue_lost hbytes h hat hpos fuel next rest hresult
  refine ⟨hsurvives, ?_⟩
  cases fuel with
  | zero => cases hresult
  | succ fuel =>
      rw [reads_basicValue hbytes hsurvives fuel position rest hat hpos] at hresult
      exact (Outcome.returns.inj hresult).2.symm

theorem structLoop_exact (hbytes : bytes.length < 2 ^ 31) (fuel : Nat) {fields : List Value}
    (hbasic : ∀ field ∈ fields, ∃ b, field = .basic b) {position next i j : Nat}
    {rest : JavaString} {list : List DbusObject} (hpos : position ≤ bytes.length)
    (hat : At bytes position (Value.marshals order position fields))
    (hresult : structLoop (extract ⟨bytes, order⟩ fuel)
      (units (DbusType.signatures (Value.types fields)) ++ 0x29 :: rest) 1 i list position =
        .returns (list ++ Value.objects [] fields, j) next) :
    Value.AllSurvive fields ∧ next = position + (Value.marshals order position fields).length := by
  induction fields generalizing position i list with
  | nil =>
      change structLoop _ (0x29 :: rest) 1 i list position = _ at hresult
      rw [structLoop_close, structNext, if_neg (by decide)] at hresult
      exact ⟨trivial, (Outcome.returns.inj hresult).2.symm⟩
  | cons v fields ih =>
      obtain ⟨b, rfl⟩ := hbasic v List.mem_cons_self
      have hparenthesis : codeUnit b.type.code ≠ 0x28 ∧ codeUnit b.type.code ≠ 0x29 := by
        cases b.type <;> decide
      have hobjects : list ++ Value.objects [] (.basic b :: fields) =
          (list ++ [b.object]) ++ Value.objects [] fields := by
        rw [Value.objects, List.append_assoc]
        rfl
      rw [Value.marshals] at hat ⊢
      change structLoop _ (codeUnit b.type.code :: (units (DbusType.signatures (Value.types fields)) ++
        0x29 :: rest)) 1 i list position = _ at hresult
      rw [structLoop_field hparenthesis.1 hparenthesis.2, bind_apply, Cursor.attempt] at hresult
      cases hfield : extract ⟨bytes, order⟩ fuel (codeUnit b.type.code ::
          (units (DbusType.signatures (Value.types fields)) ++ 0x29 :: rest)) position with
      | returns object middle =>
          rw [hfield] at hresult
          change structLoop _ _ 1 (i + 1) (list ++ [object]) middle = _ at hresult
          have hobject : object = b.object := by
            have hgrows := structLoop_grows _ _ _ _ _ _ _ _ hresult
            exact next_of_grows hgrows
          rw [hobject] at hfield hresult
          obtain ⟨hsurvives, hmiddle⟩ := basic_exact hbytes fuel _ b position middle hat.left hpos hfield
          rw [hmiddle, hobjects] at hresult
          obtain ⟨hall, hnext⟩ := ih (fun field h => hbasic field (List.mem_cons_of_mem _ h))
            (hat.left.le hpos) hat.right hresult
          refine ⟨⟨hsurvives, hall⟩, ?_⟩
          rw [hnext, List.length_append, Nat.add_assoc]
      | throws middle =>
          rw [hfield] at hresult
          have hlength := congrArg (fun result => result.1.length) (Outcome.returns.inj hresult).1
          simp [Value.objects] at hlength
      | runs =>
          rw [hfield] at hresult
          cases hresult

theorem struct_exact (hbytes : bytes.length < 2 ^ 31) (fuel : Nat) (rest : JavaString) {fields : List Value}
    (hbasic : ∀ field ∈ fields, ∃ b, field = .basic b) :
    Exact bytes (extract ⟨bytes, order⟩ fuel (units (Value.struct fields).type.signature ++ rest))
      (Value.marshal order) (Value.object rest) Value.Survives (.struct fields) := by
  intro position next hat hpos hresult
  cases fuel with
  | zero => cases hresult
  | succ fuel =>
      rw [Value.marshal] at hat ⊢
      rw [units_struct, extract_struct rfl, reads_align 8 position hat.left hpos,
        Outcome.bind_returns] at hresult
      obtain ⟨⟨list, j⟩, middle, hloop, hstruct⟩ := Outcome.bind_eq_returns hresult
      rw [Value.object] at hstruct
      obtain ⟨hobject, rfl⟩ := Outcome.returns.inj hstruct
      have hlist : list = Value.objects [] fields := (DbusObject.struct.inj hobject).2
      rw [hlist] at hloop
      obtain ⟨hall, hmiddle⟩ := structLoop_exact hbytes fuel hbasic (hat.left.le hpos) hat.right hloop
      refine ⟨hall, ?_⟩
      rw [hmiddle, List.length_append, Nat.add_assoc]

theorem dictEntry_exact (hbytes : bytes.length < 2 ^ 31) (fuel : Nat) (rest : JavaString) (key value : Basic) :
    Exact bytes (extract ⟨bytes, order⟩ fuel
      (units (Value.dictEntry key (.basic value)).type.signature ++ rest)) (Value.marshal order)
      (Value.object rest) Value.Survives (.dictEntry key (.basic value)) := by
  intro position next hat hpos hresult
  cases fuel with
  | zero => cases hresult
  | succ fuel =>
      change extract _ (fuel + 1) (0x7B :: codeUnit key.type.code :: codeUnit value.type.code :: 0x7D ::
        rest) position = _ at hresult
      rw [Value.marshal] at hat ⊢
      rw [extract_dictEntry rfl, reads_align 8 position hat.left hpos, Outcome.bind_returns] at hresult
      obtain ⟨keyObject, middle, hkey, hrest⟩ := Outcome.bind_eq_returns hresult
      obtain ⟨valueObject, last, hvalue, hentry⟩ := Outcome.bind_eq_returns hrest
      rw [Value.object] at hentry
      obtain ⟨hobject, rfl⟩ := Outcome.returns.inj hentry
      obtain ⟨-, hkeyObject, hvalueObject⟩ := DbusObject.dictEntry.inj hobject
      rw [hkeyObject] at hkey
      rw [hvalueObject] at hvalue
      have hpos' := hat.left.le hpos
      obtain ⟨hkeySurvives, hmiddle⟩ := basic_exact hbytes fuel _ key _ middle hat.right.left hpos' hkey
      rw [hmiddle] at hvalue
      obtain ⟨hsurvives, hlast⟩ := basic_exact hbytes fuel _ value _ last hat.right.right
        (hat.right.left.le hpos') hvalue
      refine ⟨⟨hkeySurvives, hsurvives⟩, ?_⟩
      rw [hlast, List.length_append, List.length_append]
      simp only [Nat.add_assoc]
      rfl

/-- An element of a flat type comes out as it is only if its texts survive. -/
theorem value_exact (hbytes : bytes.length < 2 ^ 31) (fuel : Nat) (rest : JavaString) {v : Value}
    (hflat : v.type.Flat) :
    Exact bytes (extract ⟨bytes, order⟩ fuel (units v.type.signature ++ rest)) (Value.marshal order)
      (Value.object rest) Value.Survives v := by
  cases v with
  | basic b => exact basic_exact hbytes fuel rest b
  | variant v => exact hflat.elim
  | array element elements => exact hflat.elim
  | struct fields => exact struct_exact hbytes fuel rest (basics_of_types hflat)
  | dictEntry key value =>
      obtain ⟨t, ht⟩ : ∃ t, value.type = .basic t := hflat
      obtain ⟨b, rfl⟩ := basic_of_type ht
      exact dictEntry_exact hbytes fuel rest key b

/-! ## Elements that survive are readable -/

namespace Value

theorem readables_basic {vs : List Value} (hbasic : ∀ v ∈ vs, ∃ b, v = .basic b) (h : AllSurvive vs)
    (position : Nat) : Readables order position vs := by
  induction vs generalizing position with
  | nil => trivial
  | cons v vs ih =>
      obtain ⟨b, rfl⟩ := hbasic v List.mem_cons_self
      exact ⟨h.1, ih (fun v hv => hbasic v (List.mem_cons_of_mem _ hv)) h.2 _⟩

theorem readable_flat {v : Value} (hflat : v.type.Flat) (h : v.Survives) (position : Nat) :
    Readable order position v := by
  cases v with
  | basic b => exact h
  | variant v => exact hflat.elim
  | array element elements => exact hflat.elim
  | struct fields =>
      have hbasic := basics_of_types hflat
      refine ⟨fun field hfield => ?_, readables_basic hbasic h _⟩
      obtain ⟨b, rfl⟩ := hbasic field hfield
      trivial
  | dictEntry key value =>
      obtain ⟨t, ht⟩ : ∃ t, value.type = .basic t := hflat
      obtain ⟨b, rfl⟩ := basic_of_type ht
      exact h

theorem readables_flat {element : DbusType} (hflat : element.Flat) {elements : List Value}
    (htyped : HaveType element elements) (h : AllSurvive elements) (position : Nat) :
    Readables order position elements := by
  induction elements generalizing position with
  | nil => trivial
  | cons v vs ih => exact ⟨readable_flat (htyped.1 ▸ hflat) h.1 position, ih htyped.2.2 h.2 _⟩

end Value

theorem elements_exact (hbytes : bytes.length < 2 ^ 31) (fuel : Nat) (rest : JavaString)
    {element : DbusType} (hflat : element.Flat) {elements : List Value}
    (htyped : Value.HaveType element elements) :
    ∀ v ∈ elements, Exact bytes (extract ⟨bytes, order⟩ fuel (units element.signature ++ rest))
      (Value.marshal order) (Value.object rest) Value.Survives v := by
  induction elements with
  | nil => nofun
  | cons v vs ih =>
      refine List.forall_mem_cons.mpr ⟨?_, ih htyped.2.2⟩
      rw [← htyped.1]
      exact value_exact hbytes fuel rest (htyped.1 ▸ hflat)

end

/-- An array of a basic type, or of structs or dict entries of basic types, that
lies in a buffer at any offset and in either byte order: the decoder gives the
elements in order and the position behind the array exactly if all their texts
survive and the padding in front of the first element, which the length leaves
out, is none or shorter than the last element with the padding in front of it. -/
theorem array_exact_iff (element : DbusType) (hflat : element.Flat) (elements : List Value)
    (htyped : Value.HaveType element elements) (order : ByteOrder) (bytes : List UInt8)
    (hbytes : bytes.length < 2 ^ 31) (position : Nat) (hpos : position ≤ bytes.length)
    (hat : At bytes position ((Value.array element elements).marshal order position)) (rest : JavaString) :
    (∃ fuel, dbusArray (extract ⟨bytes, order⟩ fuel) ⟨bytes, order⟩ fuel
        (units (DbusType.array element).signature ++ rest) position =
          .returns (elements.map (Value.object rest))
            (position + ((Value.array element elements).marshal order position).length)) ↔
      Value.AllSurvive elements ∧ Value.Reached order position element elements := by
  constructor
  · rintro ⟨fuel, hresult⟩
    obtain ⟨n, hn, hstop, hbegin, hright, hend⟩ := arrayEnd_marshal hbytes hpos hat
    rw [hend] at hresult
    obtain ⟨stop, middle, hstop', hloop⟩ := Outcome.bind_eq_returns hresult
    rw [hstop] at hstop'
    obtain ⟨rfl, rfl⟩ := Outcome.returns.inj hstop'
    by_cases hempty : elements = []
    · subst hempty
      refine ⟨trivial, .inl ?_⟩
      have hzero : n = 0 := hn
      cases fuel with
      | zero => cases hloop
      | succ fuel =>
          rw [arrayLoop_end (by omega)] at hloop
          have hnext := (Outcome.returns.inj hloop).2
          apply List.eq_nil_of_length_eq_zero
          omega
    · rw [Value.marshals_padded order htyped hempty, marshals_eq] at hright
      obtain ⟨hall, hlast⟩ := arrayLoop_exact (elements_exact hbytes fuel rest hflat htyped) []
        hright hbegin hloop
      refine ⟨(Value.allSurvive_iff elements).mpr hall, .inr ?_⟩
      have hlength := congrArg List.length
        (Value.marshals_padded order htyped hempty (Value.elementsAt position))
      rw [List.length_append, ← hn, marshals_eq] at hlength
      have hbound := hlast hempty
      omega
  · rintro ⟨hsurvive, hreached⟩
    obtain ⟨least, hread⟩ := reads_values hbytes elements (Value.allTyped_of_haveType htyped)
      (Value.elementsAt position) (Value.readables_flat hflat htyped hsurvive _)
    refine ⟨least + elements.length + 1, ?_⟩
    exact reads_elements hbytes htyped hreached (by omega)
      (readsAll_element htyped (hread _ (by omega) rest)) hat hpos

/-- Two 64-bit numbers, and their encoding behind the length and its padding. -/
def twoNumbers : List Value :=
  [.basic (.word (.int64 7) .int64 rfl), .basic (.word (.int64 8) .int64 rfl)]

def twoNumbersBytes : List UInt8 :=
  [16, 0, 0, 0, 0, 0, 0, 0, 7, 0, 0, 0, 0, 0, 0, 0, 8, 0, 0, 0, 0, 0, 0, 0]

theorem array_exact_iff_two_numbers : ∃ fuel,
    dbusArray (extract ⟨twoNumbersBytes, .littleEndian⟩ fuel) ⟨twoNumbersBytes, .littleEndian⟩ fuel
      [0x61, 0x78] 0 = .returns [.java (.long 7), .java (.long 8)] 24 := by
  have hmarshal : (Value.array (.basic .int64) twoNumbers).marshal .littleEndian 0 =
      twoNumbersBytes := by
    decide +kernel
  have hat : At twoNumbersBytes 0
      ((Value.array (.basic .int64) twoNumbers).marshal .littleEndian 0) := by
    rw [hmarshal]
    exact List.prefix_rfl
  have h := (array_exact_iff (.basic .int64) trivial twoNumbers ⟨rfl, trivial, rfl, trivial, trivial⟩
    .littleEndian twoNumbersBytes (by decide) 0 (Nat.zero_le _) hat []).mpr
    ⟨⟨trivial, trivial, trivial⟩, .inr (by decide +kernel)⟩
  rw [hmarshal] at h
  exact h

/-- An empty array of 64-bit numbers ends behind its padding; the decoder stays
in front of it. -/
theorem empty_array_short :
    (Value.array (.basic .int64) []).marshal .littleEndian 0 = [0, 0, 0, 0, 0, 0, 0, 0] ∧
      dbusArray (extract ⟨[0, 0, 0, 0, 0, 0, 0, 0], .littleEndian⟩ 1)
        ⟨[0, 0, 0, 0, 0, 0, 0, 0], .littleEndian⟩ 1 [0x61, 0x78] 0 = .returns [] 4 ∧
      ∀ fuel, dbusArray (extract ⟨[0, 0, 0, 0, 0, 0, 0, 0], .littleEndian⟩ fuel)
        ⟨[0, 0, 0, 0, 0, 0, 0, 0], .littleEndian⟩ fuel [0x61, 0x78] 0 ≠ .returns [] 8 := by
  refine ⟨by decide +kernel, rfl, fun fuel => ?_⟩
  cases fuel with
  | zero => nofun
  | succ fuel =>
      show Outcome.returns ([] : List DbusObject) 4 ≠ _
      nofun

end AapBridge.Wire
