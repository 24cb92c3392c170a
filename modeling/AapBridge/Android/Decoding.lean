import AapBridge.Android.DbusMessage

/-! # Extractors move forward, and fuel lets them end

Every extractor keeps the position inside the buffer and never goes back, and
more fuel changes nothing about a call of `extract` that ends.
-/

namespace AapBridge.Android

open AapBridge.Lib Cursor

theorem le_aligned (alignment position : Nat) : position ≤ aligned alignment position :=
  Nat.le_add_right position _

theorem aligned_mod {alignment : Nat} (h : 0 < alignment) (position : Nat) :
    aligned alignment position % alignment = 0 := by
  have hlt := Nat.mod_lt position h
  unfold aligned
  by_cases hzero : position % alignment = 0
  · rw [hzero, Nat.sub_zero, Nat.mod_self, Nat.add_zero, hzero]
  · rw [Nat.mod_eq_of_lt (show alignment - position % alignment < alignment by omega),
      Nat.add_mod, Nat.mod_eq_of_lt (show alignment - position % alignment < alignment by omega),
      Nat.add_sub_cancel' (Nat.le_of_lt hlt), Nat.mod_self]

/-! ## One round -/

section

variable {p : Cursor DbusObject} {f : JavaString → Cursor DbusObject}

theorem arrayLoop_round {stop : Int} {position : Nat} (h : (position : Int) < stop) (rounds : Nat)
    (list : List DbusObject) :
    arrayLoop p stop (rounds + 1) list position =
      (p position).bind fun element => arrayLoop p stop rounds (list ++ [element]) := if_pos h

theorem arrayLoop_end {stop : Int} {position : Nat} (h : ¬(position : Int) < stop) (rounds : Nat)
    (list : List DbusObject) :
    arrayLoop p stop (rounds + 1) list position = .returns list position := if_neg h

/-- The test at the end of a round of `structLoop`. -/
def structNext (f : JavaString → Cursor DbusObject) (rest : JavaString) (depth : Int) (i : Nat)
    (list : List DbusObject) : Cursor (List DbusObject × Nat) :=
  if 0 < depth then structLoop f rest depth i list else pure (list, i)

theorem structLoop_open (rest : JavaString) (depth : Int) (i : Nat) (list : List DbusObject) :
    structLoop f (0x28 :: rest) depth i list = structNext f rest (depth + 1) (i + 1) list := rfl

theorem structLoop_close (rest : JavaString) (depth : Int) (i : Nat) (list : List DbusObject) :
    structLoop f (0x29 :: rest) depth i list = structNext f rest (depth - 1) (i + 1) list := rfl

theorem structLoop_field {c : CodeUnit} (hopen : c ≠ 0x28) (hclose : c ≠ 0x29) (rest : JavaString)
    (depth : Int) (i : Nat) (list : List DbusObject) :
    structLoop f (c :: rest) depth i list = (f (c :: rest)).attempt >>= fun result =>
      match result with
      | none => pure (list, i)
      | some object => structNext f rest depth (i + 1) (list ++ [object]) := by
  rw [structLoop, if_neg hopen, if_neg hclose]
  rfl

end

theorem extract_succ {bb : ReadBuffer} {c : CodeUnit} {extractor : Extractor}
    (hc : extractors c = some extractor) (fuel : Nat) (rest : JavaString) :
    extract bb (fuel + 1) (c :: rest) = extractor.parse (extract bb fuel) bb fuel (c :: rest) := by
  rw [extract, hc]

theorem extractors_struct {c : CodeUnit} (h : extractors c = some .struct) : c = 0x28 := by
  have hchar : Char.ofNat c.toNat = '(' := by
    unfold extractors at h
    split at h <;> first | assumption | cases h
  have hnat := congrArg Char.toNat hchar
  rw [Char.toNat_ofNat] at hnat
  split at hnat
  · exact BitVec.eq_of_toNat_eq hnat
  · cases hnat

section

variable {bb : ReadBuffer} {c : CodeUnit}

theorem extract_array (hc : extractors c = some .array) (fuel : Nat) (rest : JavaString)
    (position : Nat) :
    extract bb (fuel + 1) (c :: rest) position = (arrayEnd bb position).bind fun stop position =>
      (arrayLoop (extract bb fuel rest) stop fuel [] position).bind fun elements position =>
        .returns (.array rest elements) position := by
  rw [extract_succ hc]
  exact Outcome.bind_assoc _ _ _

theorem extract_struct (hc : extractors c = some .struct) (fuel : Nat) (rest : JavaString)
    (position : Nat) :
    extract bb (fuel + 1) (c :: rest) position = (bb.align 8 position).bind fun _ position =>
      (structLoop (extract bb fuel) rest 1 1 [] position).bind fun result position =>
        .returns (.struct ((c :: rest).take result.2) result.1) position := by
  rw [extract_succ hc, extractors_struct hc]
  show ((bb.align 8 position).bind _).bind _ = _
  rw [Outcome.bind_assoc]
  congr 1
  funext _ position
  exact Outcome.bind_assoc _ _ _

theorem extract_dictEntry (hc : extractors c = some .dictEntry) (fuel : Nat) (rest : JavaString)
    (position : Nat) :
    extract bb (fuel + 1) (c :: rest) position = (bb.align 8 position).bind fun _ position =>
      (extract bb fuel rest position).bind fun key position =>
        (extract bb fuel (rest.drop 1) position).bind fun value position =>
          .returns (.dictEntry (c :: rest) key value) position := by
  rw [extract_succ hc]
  rfl

theorem extract_variant (hc : extractors c = some .variant) (fuel : Nat) (rest : JavaString)
    (position : Nat) :
    extract bb (fuel + 1) (c :: rest) position = (bb.dbusSignature position).bind fun embedded position =>
      (extract bb fuel embedded position).bind fun thing position =>
        .returns (.variant embedded thing) position := by
  rw [extract_succ hc]
  rfl

end

namespace DbusMessage

/-- The order that the buffer begins with. -/
def announced (bytes : List UInt8) : Option ByteOrder := bytes.head?.bind endian

variable {bytes : List UInt8} {bb : ReadBuffer}

theorem new_announced {order : ByteOrder} (h : announced bytes = some order) (fuel : Nat) :
    new bytes fuel = .of (construct ⟨bytes, order⟩ fuel 1) := by
  obtain ⟨b, hb, horder⟩ := Option.bind_eq_some_iff.mp h
  unfold new
  rw [hb]
  dsimp only
  rw [horder]

/-- Without a byte order nothing else is read. -/
theorem new_unannounced (h : announced bytes = none) (fuel fuel' : Nat) :
    new bytes fuel ≠ .runs ∧ new bytes fuel' = new bytes fuel := by
  unfold new
  cases hb : bytes.head? with
  | none => exact ⟨Constructed.noConfusion, rfl⟩
  | some b =>
      have horder : endian b = none := by
        rw [announced, hb] at h
        exact h
      dsimp only
      rw [horder]
      exact ⟨Constructed.noConfusion, rfl⟩

/-- The constructor throws an `Error` of an unknown order, and for no other reason. -/
theorem new_eq_error_iff (fuel position : Nat) :
    new bytes fuel = .error position ↔ invalidEndian bytes = true ∧ position = 1 := by
  unfold new invalidEndian
  cases bytes.head? with
  | none => exact iff_of_false Constructed.noConfusion fun h => Bool.noConfusion h.1
  | some b =>
      dsimp only
      cases endian b with
      | none =>
          dsimp only
          rw [Constructed.error.injEq]
          exact ⟨fun h => ⟨rfl, h.symm⟩, fun h => h.2.symm⟩
      | some order =>
          dsimp only
          apply iff_of_false _ fun h => Bool.noConfusion h.1
          cases construct ⟨bytes, order⟩ fuel 1 <;> exact Constructed.noConfusion

theorem Constructed.of_eq_runs {o : Outcome DbusMessage} : Constructed.of o = .runs ↔ o = .runs := by
  cases o with
  | runs => exact iff_of_true rfl rfl
  | _ => exact iff_of_false (fun h => by cases h) (fun h => by cases h)

theorem construct_eq {p : Nat} (h : fixedPart bb 1 = .returns () p) (fuel : Nat) :
    construct bb fuel 1 =
      (dbusArray (extract bb fuel) bb fuel headerSignature p).bind fun elements =>
        match parseHeader elements with
        | none => Cursor.throw
        | some message => readArguments bb fuel message := by
  show (fixedPart bb 1).bind _ = _
  rw [h]
  rfl

theorem readArguments_signature {message : DbusMessage}
    {signature : JavaString} (h : message.signature = some signature) (fuel : Nat) :
    readArguments bb fuel message = (do
      let struct ← dbusStruct (extract bb fuel) bb (bracketed signature)
      return { message with arguments := some struct }) := by
  rw [readArguments, h]

end DbusMessage

/-! ## Forward -/

namespace ReadBuffer

variable (bb : ReadBuffer)

theorem forward_align (alignment : Nat) : Forward bb.bytes (bb.align alignment) :=
  forward_seek (le_aligned alignment)

theorem forward_getWord (n : Nat) : Forward bb.bytes (bb.getWord n) :=
  (forward_take n).bind fun _ => forward_pure _

theorem forward_getChars (length : Nat) : Forward bb.bytes (bb.getChars length) := by
  induction length with
  | zero => exact forward_pure []
  | succ length ih =>
      apply Forward.bind (forward_byte.bind fun _ => forward_pure _)
      intro c
      exact ih.bind fun rest => forward_pure (c :: rest)

theorem forward_dbusString : Forward bb.bytes bb.dbusString := by
  apply (bb.forward_align 4).bind
  intro _
  apply (bb.forward_getWord 4).bind
  intro length
  apply (bb.forward_getChars _).bind
  intro string
  exact forward_byte.bind fun _ => forward_pure string

theorem forward_dbusSignature : Forward bb.bytes bb.dbusSignature := by
  apply forward_byte.bind
  intro length
  apply (bb.forward_getChars _).bind
  intro string
  exact forward_byte.bind fun _ => forward_pure string

end ReadBuffer

section

variable {f : JavaString → Cursor DbusObject} {bb : ReadBuffer}

theorem forward_structLoop (hf : ∀ signature, Forward bb.bytes (f signature)) (chars : JavaString)
    (depth : Int) (i : Nat) (list : List DbusObject) :
    Forward bb.bytes (structLoop f chars depth i list) := by
  induction chars generalizing depth i list with
  | nil => exact forward_pure _
  | cons c rest ih =>
      have hnext : ∀ depth list, Forward bb.bytes
          (if 0 < depth then structLoop f rest depth (i + 1) list else pure (list, i + 1)) := by
        intro depth list
        split
        · exact ih depth (i + 1) list
        · exact forward_pure _
      unfold structLoop
      split
      · exact hnext (depth + 1) list
      · split
        · exact hnext (depth - 1) list
        · apply (hf (c :: rest)).attempt.bind
          intro result
          cases result with
          | none => exact forward_pure _
          | some object => exact hnext depth _

theorem forward_arrayLoop {p : Cursor DbusObject} (hp : Forward bb.bytes p) (stop : Int)
    (rounds : Nat) (list : List DbusObject) :
    Forward bb.bytes (arrayLoop p stop rounds list) := by
  induction rounds generalizing list with
  | zero => exact forward_diverge
  | succ rounds ih =>
      intro position h
      unfold arrayLoop
      split
      · exact hp.bind (fun element => ih (list ++ [element])) position h
      · exact ⟨Nat.le_refl position, h⟩

theorem forward_arrayEnd : Forward bb.bytes (arrayEnd bb) := by
  apply (bb.forward_align 4).bind
  intro _
  apply (bb.forward_getWord 4).bind
  intro length position h
  exact ⟨Nat.le_refl position, h⟩

theorem forward_dbusStruct (hf : ∀ signature, Forward bb.bytes (f signature))
    (signature : JavaString) : Forward bb.bytes (dbusStruct f bb signature) := by
  apply (bb.forward_align 8).bind
  intro _
  exact (forward_structLoop hf signature 0 0 []).bind fun _ => forward_pure _

theorem forward_dbusArray (hf : ∀ signature, Forward bb.bytes (f signature)) (rounds : Nat)
    (signature : JavaString) : Forward bb.bytes (dbusArray f bb rounds signature) :=
  forward_arrayEnd.bind fun stop => forward_arrayLoop (hf _) stop rounds []

theorem forward_parse (hf : ∀ signature, Forward bb.bytes (f signature)) (rounds : Nat)
    (signature : JavaString) (extractor : Extractor) :
    Forward bb.bytes (extractor.parse f bb rounds signature) := by
  have hword : ∀ (alignment n : Nat) (g : BitVec (8 * n) → DbusObject), Forward bb.bytes (do
      bb.align alignment
      return g (← bb.getWord n)) := by
    intro alignment n g
    apply (bb.forward_align alignment).bind
    intro _
    exact (bb.forward_getWord n).bind fun _ => forward_pure _
  cases extractor with
  | array => exact (forward_dbusArray hf rounds signature).bind fun _ => forward_pure _
  | boolean => exact hword 4 4 _
  | byte => exact forward_byte.bind fun _ => forward_pure _
  | dictEntry =>
      apply (bb.forward_align 8).bind
      intro _
      apply (hf _).bind
      intro key
      exact (hf _).bind fun _ => forward_pure _
  | double => exact hword 8 8 _
  | int16 => exact hword 2 2 _
  | int32 => exact hword 4 4 _
  | int64 => exact hword 8 8 _
  | objectPath => exact bb.forward_dbusString.bind fun _ => forward_pure _
  | signature => exact bb.forward_dbusSignature.bind fun _ => forward_pure _
  | string => exact bb.forward_dbusString.bind fun _ => forward_pure _
  | struct => exact (forward_dbusStruct hf signature).bind fun _ => forward_pure _
  | uint16 => exact hword 2 2 _
  | uint32 => exact hword 4 4 _
  | uint64 => exact hword 8 8 _
  | variant =>
      apply bb.forward_dbusSignature.bind
      intro embeddedSignature
      exact (hf embeddedSignature).bind fun _ => forward_pure _

end

theorem forward_extract (bb : ReadBuffer) (fuel : Nat) (signature : JavaString) :
    Forward bb.bytes (extract bb fuel signature) := by
  induction fuel generalizing signature with
  | zero => exact forward_diverge
  | succ fuel ih =>
      cases signature with
      | nil => exact forward_throw
      | cons c rest =>
          unfold extract
          cases extractors c with
          | none => exact forward_throw
          | some extractor => exact forward_parse ih fuel (c :: rest) extractor

/-! ## Fuel -/

section

variable {f g : JavaString → Cursor DbusObject} {bb : ReadBuffer}

theorem below_structLoop (hfg : ∀ signature, Below (f signature) (g signature))
    (chars : JavaString) (depth : Int) (i : Nat) (list : List DbusObject) :
    Below (structLoop f chars depth i list) (structLoop g chars depth i list) := by
  induction chars generalizing depth i list with
  | nil => exact .refl _
  | cons c rest ih =>
      have hnext : ∀ depth list, Below
          (if 0 < depth then structLoop f rest depth (i + 1) list else pure (list, i + 1))
          (if 0 < depth then structLoop g rest depth (i + 1) list else pure (list, i + 1)) := by
        intro depth list
        split
        · exact ih depth (i + 1) list
        · exact .refl _
      unfold structLoop
      split
      · exact hnext (depth + 1) list
      · split
        · exact hnext (depth - 1) list
        · apply (hfg (c :: rest)).attempt.bind
          intro result
          cases result with
          | none => exact .refl _
          | some object => exact hnext depth _

theorem below_arrayLoop {p q : Cursor DbusObject} (hpq : Below p q) (stop : Int) {rounds rounds' : Nat}
    (hrounds : rounds ≤ rounds') (list : List DbusObject) :
    Below (arrayLoop p stop rounds list) (arrayLoop q stop rounds' list) := by
  induction rounds generalizing rounds' list with
  | zero => exact below_diverge _
  | succ rounds ih =>
      obtain ⟨rounds', rfl⟩ : ∃ n, rounds' = n + 1 := ⟨rounds' - 1, by omega⟩
      intro position
      unfold arrayLoop
      split
      · exact hpq.bind (fun element => ih (by omega) (list ++ [element])) position
      · exact .refl _

theorem below_dbusStruct (hfg : ∀ signature, Below (f signature) (g signature))
    (signature : JavaString) : Below (dbusStruct f bb signature) (dbusStruct g bb signature) := by
  apply (Below.refl (bb.align 8)).bind
  intro _
  exact (below_structLoop hfg signature 0 0 []).bind fun _ => .refl _

theorem below_dbusArray (hfg : ∀ signature, Below (f signature) (g signature)) {rounds rounds' : Nat}
    (hrounds : rounds ≤ rounds') (signature : JavaString) :
    Below (dbusArray f bb rounds signature) (dbusArray g bb rounds' signature) :=
  (Below.refl (arrayEnd bb)).bind fun stop => below_arrayLoop (hfg _) stop hrounds []

theorem below_parse (hfg : ∀ signature, Below (f signature) (g signature)) {rounds rounds' : Nat}
    (hrounds : rounds ≤ rounds') (signature : JavaString) (extractor : Extractor) :
    Below (extractor.parse f bb rounds signature) (extractor.parse g bb rounds' signature) := by
  cases extractor with
  | array => exact (below_dbusArray hfg hrounds signature).bind fun _ => .refl _
  | dictEntry =>
      apply (Below.refl (bb.align 8)).bind
      intro _
      apply (hfg _).bind
      intro key
      exact (hfg _).bind fun _ => .refl _
  | struct => exact (below_dbusStruct hfg signature).bind fun _ => .refl _
  | variant =>
      apply (Below.refl bb.dbusSignature).bind
      intro embeddedSignature
      exact (hfg embeddedSignature).bind fun _ => .refl _
  | _ => exact .refl _

end

theorem below_extract (bb : ReadBuffer) {fuel fuel' : Nat} (h : fuel ≤ fuel') (signature : JavaString) :
    Below (extract bb fuel signature) (extract bb fuel' signature) := by
  induction fuel generalizing fuel' signature with
  | zero => exact below_diverge _
  | succ fuel ih =>
      obtain ⟨fuel', rfl⟩ : ∃ n, fuel' = n + 1 := ⟨fuel' - 1, by omega⟩
      cases signature with
      | nil => exact .refl _
      | cons c rest =>
          unfold extract
          cases extractors c with
          | none => exact .refl _
          | some extractor => exact below_parse (ih (by omega)) (by omega) (c :: rest) extractor

namespace DbusMessage

theorem below_readArguments (bb : ReadBuffer) {fuel fuel' : Nat} (h : fuel ≤ fuel')
    (message : DbusMessage) : Below (readArguments bb fuel message) (readArguments bb fuel' message) := by
  cases hsignature : message.signature with
  | none =>
      rw [readArguments, readArguments, hsignature]
      exact .refl _
  | some signature =>
      rw [readArguments_signature hsignature, readArguments_signature hsignature]
      exact (below_dbusStruct (below_extract bb h) _).bind fun _ => .refl _

theorem below_construct (bb : ReadBuffer) {fuel fuel' : Nat} (h : fuel ≤ fuel') :
    Below (construct bb fuel) (construct bb fuel') := by
  apply Below.bind (.refl (fixedPart bb))
  intro _
  apply (below_dbusArray (below_extract bb h) h headerSignature).bind
  intro elements
  cases parseHeader elements with
  | none => exact .refl _
  | some message => exact below_readArguments bb h message

/-- More fuel changes nothing about a constructor that ends. -/
theorem new_more {fuel fuel' : Nat} (h : new bytes fuel ≠ .runs) (hle : fuel ≤ fuel') :
    new bytes fuel' = new bytes fuel := by
  cases horder : announced bytes with
  | none => exact (new_unannounced horder fuel fuel').2
  | some order =>
      rw [new_announced horder] at h ⊢
      rw [new_announced horder]
      congr 1
      apply (below_construct ⟨bytes, order⟩ hle 1).ends
      intro hruns
      exact h (Constructed.of_eq_runs.mpr hruns)

end DbusMessage

/-! ## Without fuel -/

section

variable (bb : ReadBuffer)

theorem total_getChars (length : Nat) : Total (bb.getChars length) := by
  induction length with
  | zero => exact total_pure []
  | succ length ih =>
      apply Total.bind (total_byte.bind fun _ => total_pure _)
      intro c
      exact ih.bind fun rest => total_pure (c :: rest)

theorem total_word {α : Type} (alignment n : Nat) (g : BitVec (8 * n) → Cursor α)
    (hg : ∀ v, Total (g v)) : Total (do
      bb.align alignment
      g (← bb.getWord n)) := by
  apply (total_seek _).bind
  intro _
  exact ((total_take n).bind fun _ => total_pure _).bind hg

theorem total_dbusString : Total bb.dbusString := by
  apply total_word bb 4 4
  intro length
  apply (total_getChars bb _).bind
  intro string
  exact total_byte.bind fun _ => total_pure string

theorem total_dbusSignature : Total bb.dbusSignature := by
  apply total_byte.bind
  intro length
  apply (total_getChars bb _).bind
  intro string
  exact total_byte.bind fun _ => total_pure string

/-- The types that hold no others. -/
def Extractor.basic : Extractor → Bool
  | .array | .dictEntry | .struct | .variant => false
  | _ => true

theorem total_parse {extractor : Extractor} (h : extractor.basic)
    (f : JavaString → Cursor DbusObject) (rounds : Nat) (signature : JavaString) :
    Total (extractor.parse f bb rounds signature) := by
  cases extractor with
  | array => cases h
  | boolean => exact total_word bb 4 4 _ fun _ => total_pure _
  | byte => exact total_byte.bind fun _ => total_pure _
  | dictEntry => cases h
  | double => exact total_word bb 8 8 _ fun _ => total_pure _
  | int16 => exact total_word bb 2 2 _ fun _ => total_pure _
  | int32 => exact total_word bb 4 4 _ fun _ => total_pure _
  | int64 => exact total_word bb 8 8 _ fun _ => total_pure _
  | objectPath => exact (total_dbusString bb).bind fun _ => total_pure _
  | signature => exact (total_dbusSignature bb).bind fun _ => total_pure _
  | string => exact (total_dbusString bb).bind fun _ => total_pure _
  | struct => cases h
  | uint16 => exact total_word bb 2 2 _ fun _ => total_pure _
  | uint32 => exact total_word bb 4 4 _ fun _ => total_pure _
  | uint64 => exact total_word bb 8 8 _ fun _ => total_pure _
  | variant => cases h

end

/-- A call that ends, ends in the same way with more fuel. -/
theorem extract_more {bb : ReadBuffer} {fuel fuel' : Nat} {signature : JavaString} {position : Nat}
    {o : Outcome DbusObject} (h : extract bb fuel signature position = o) (hends : o ≠ .runs)
    (hle : fuel ≤ fuel') : extract bb fuel' signature position = o := by
  rw [← h]
  exact (below_extract bb hle signature position).ends (by rwa [h])

end AapBridge.Android
