import AapBridge.Lib.Parallel
import AapBridge.Wire.HeaderDecoding

/-! # A body behind any header

The extractors see the position only through its remainder by 8 and through
comparisons with other positions, so two buffers that end with the same body, at
multiples of 8, are decoded in parallel. What the constructor knows of the header
when it comes to the body is where it is laid out to end, and the signature.
-/

namespace AapBridge.Wire

open AapBridge.Lib AapBridge.Android Cursor

/-! ## The body in two buffers -/

/-- No word of the body is so large that a position in a message added to it is
no `int`. -/
def SmallWords (order : ByteOrder) (body : List UInt8) : Prop :=
  ∀ q, q % 4 = 0 → q + 4 ≤ body.length →
    (BitVec.ofNat 32 (order.get ((body.drop q).take 4))).toInt ≤ 2 ^ 31 - 1 - 4096

section

variable {front front' body : List UInt8} {order : ByteOrder}

theorem aligned_eight {base alignment : Nat} (halignment : alignment ∣ 8) (hbase : base % 8 = 0) (q : Nat) :
    aligned alignment (base + q) = base + aligned alignment q := by
  have hmod : (base + q) % alignment = q % alignment := by
    rw [Nat.add_mod, Nat.mod_eq_zero_of_dvd (halignment.trans (Nat.dvd_of_mod_eq_zero hbase)),
      Nat.zero_add, Nat.mod_mod]
  unfold aligned
  rw [hmod, Nat.add_assoc]

/-- Both bodies begin at multiples of 8, in messages of at most 4000 bytes. -/
structure Placed (front front' body : List UInt8) (order : ByteOrder) : Prop where
  first : front.length % 8 = 0
  second : front'.length % 8 = 0
  short : front.length + body.length ≤ 4000
  short' : front'.length + body.length ≤ 4000
  words : SmallWords order body

theorem Placed.align (h : Placed front front' body order) {alignment : Nat} (halignment : alignment ∣ 8) :
    Parallel Eq front front' body ((⟨front ++ body, order⟩ : ReadBuffer).align alignment)
      ((⟨front' ++ body, order⟩ : ReadBuffer).align alignment) :=
  parallel_seek fun q => ⟨aligned alignment q, aligned_eight halignment h.first q,
    aligned_eight halignment h.second q⟩

theorem parallel_getWord (n : Nat) :
    Parallel Eq front front' body ((⟨front ++ body, order⟩ : ReadBuffer).getWord n)
      ((⟨front' ++ body, order⟩ : ReadBuffer).getWord n) :=
  (parallel_take n).map _

theorem parallel_getChars (length : Nat) :
    Parallel Eq front front' body ((⟨front ++ body, order⟩ : ReadBuffer).getChars length)
      ((⟨front' ++ body, order⟩ : ReadBuffer).getChars length) := by
  induction length with
  | zero => exact parallel_pure rfl
  | succ length ih =>
      apply (parallel_byte.map _).seq
      intro c
      exact ih.map _

theorem Placed.word (h : Placed front front' body order) {alignment : Nat} (halignment : alignment ∣ 8)
    (n : Nat) {α : Type} (g g' : BitVec (8 * n) → Cursor α)
    (hg : ∀ v, Parallel Eq front front' body (g v) (g' v)) :
    Parallel Eq front front' body
      (do
        (⟨front ++ body, order⟩ : ReadBuffer).align alignment
        g (← (⟨front ++ body, order⟩ : ReadBuffer).getWord n))
      (do
        (⟨front' ++ body, order⟩ : ReadBuffer).align alignment
        g' (← (⟨front' ++ body, order⟩ : ReadBuffer).getWord n)) :=
  (h.align halignment).seq fun _ => (parallel_getWord n).seq hg

theorem Placed.dbusString (h : Placed front front' body order) :
    Parallel Eq front front' body ((⟨front ++ body, order⟩ : ReadBuffer).dbusString)
      ((⟨front' ++ body, order⟩ : ReadBuffer).dbusString) :=
  h.word (by decide) 4 _ _ fun _ => (parallel_getChars _).seq fun _ => parallel_byte.map _

theorem parallel_dbusSignature :
    Parallel Eq front front' body ((⟨front ++ body, order⟩ : ReadBuffer).dbusSignature)
      ((⟨front' ++ body, order⟩ : ReadBuffer).dbusSignature) :=
  parallel_byte.seq fun _ => (parallel_getChars _).seq fun _ => parallel_byte.map _

/-- Ends that lie equally far behind the beginnings of the bodies. -/
def SameEnd (front front' : List UInt8) (stop stop' : Int) : Prop :=
  stop - front.length = stop' - front'.length

theorem end_eq {position : Nat} {word : BitVec 32} (hposition : position ≤ 4000)
    (hword : word.toInt ≤ 2 ^ 31 - 1 - 4096) :
    (BitVec.ofNat 32 position + word).toInt = position + word.toInt := by
  have hlow := BitVec.le_toInt word
  have hnat : (BitVec.ofNat 32 position).toInt = position := by
    rw [BitVec.toInt_ofNat', Int.bmod_eq_of_le (by omega) (by omega)]
  rw [BitVec.toInt_add, hnat, Int.bmod_eq_of_le (by omega) (by omega)]

theorem arrayEnd_tail {init : List UInt8} (hbase : init.length % 8 = 0)
    (hshort : init.length + body.length ≤ 4000) (hwords : SmallWords order body) (q : Nat) :
    arrayEnd ⟨init ++ body, order⟩ (init.length + q) =
      if aligned 4 q + 4 ≤ body.length then
        .returns ((init.length + (aligned 4 q + 4) : Nat) +
          (BitVec.ofNat 32 (order.get ((body.drop (aligned 4 q)).take 4))).toInt)
            (init.length + (aligned 4 q + 4))
      else .throws (init.length + if aligned 4 q ≤ body.length then aligned 4 q else q) := by
  have halign : (⟨init ++ body, order⟩ : ReadBuffer).align 4 (init.length + q) =
      if aligned 4 q ≤ body.length then .returns () (init.length + aligned 4 q)
      else .throws (init.length + q) := by
    show (if aligned 4 (init.length + q) ≤ (init ++ body).length then _ else _) = _
    rw [aligned_eight (by decide) hbase, List.length_append]
    simp only [Nat.add_le_add_iff_left]
  show (ReadBuffer.align _ 4 (init.length + q)).bind _ = _
  rw [halign]
  by_cases hfits : aligned 4 q ≤ body.length
  · rw [if_pos hfits, if_pos hfits, Outcome.bind_returns]
    show Outcome.bind ((take (init ++ body) 4 (init.length + aligned 4 q)).bind _) _ = _
    rw [take_tail]
    split
    · next hword =>
      have hbound := hwords (aligned 4 q) (aligned_mod (by decide) q) hword
      show Outcome.returns (BitVec.toInt (_ + _)) _ = _
      rw [end_eq (by omega) hbound]
    · rfl
  · rw [if_neg hfits, if_neg hfits, if_neg (show ¬aligned 4 q + 4 ≤ body.length by omega)]
    rfl

theorem Placed.arrayEnd (h : Placed front front' body order) :
    Parallel (SameEnd front front') front front' body (arrayEnd ⟨front ++ body, order⟩)
      (arrayEnd ⟨front' ++ body, order⟩) := by
  intro q hq
  rw [arrayEnd_tail h.first h.short h.words, arrayEnd_tail h.second h.short' h.words]
  split
  · next hfits =>
    refine .returns ?_ hfits
    unfold SameEnd
    omega
  · refine .throws ?_
    split
    · assumption
    · exact hq

theorem parallel_arrayLoop {p p' : Cursor DbusObject} (hp : Parallel Eq front front' body p p')
    {stop stop' : Int} (hstop : SameEnd front front' stop stop') (rounds : Nat) (list : List DbusObject) :
    Parallel Eq front front' body (arrayLoop p stop rounds list) (arrayLoop p' stop' rounds list) := by
  induction rounds generalizing list with
  | zero => exact parallel_diverge
  | succ rounds ih =>
      intro q hq
      unfold SameEnd at hstop
      by_cases hless : ((front.length + q : Nat) : Int) < stop
      · have hless' : ((front'.length + q : Nat) : Int) < stop' := by omega
        rw [arrayLoop_round hless, arrayLoop_round hless']
        exact hp.seq (fun element => ih (list ++ [element])) q hq
      · have hless' : ¬((front'.length + q : Nat) : Int) < stop' := by omega
        rw [arrayLoop_end hless, arrayLoop_end hless']
        exact .returns rfl hq

theorem parallel_structLoop {f f' : JavaString → Cursor DbusObject}
    (hf : ∀ signature, Parallel Eq front front' body (f signature) (f' signature)) (chars : JavaString)
    (depth : Int) (i : Nat) (list : List DbusObject) :
    Parallel Eq front front' body (structLoop f chars depth i list) (structLoop f' chars depth i list) := by
  induction chars generalizing depth i list with
  | nil => exact parallel_pure rfl
  | cons c rest ih =>
      have hnext : ∀ depth list, Parallel Eq front front' body (structNext f rest depth (i + 1) list)
          (structNext f' rest depth (i + 1) list) := by
        intro depth list
        unfold structNext
        split
        · exact ih depth (i + 1) list
        · exact parallel_pure rfl
      by_cases hopen : c = 0x28
      · rw [hopen, structLoop_open, structLoop_open]
        exact hnext (depth + 1) list
      · by_cases hclose : c = 0x29
        · rw [hclose, structLoop_close, structLoop_close]
          exact hnext (depth - 1) list
        · rw [structLoop_field hopen hclose, structLoop_field hopen hclose]
          apply (hf (c :: rest)).attempt.seq
          intro result
          cases result with
          | none => exact parallel_pure rfl
          | some object => exact hnext depth _

theorem Placed.dbusStruct (h : Placed front front' body order) {f f' : JavaString → Cursor DbusObject}
    (hf : ∀ signature, Parallel Eq front front' body (f signature) (f' signature)) (signature : JavaString) :
    Parallel Eq front front' body (dbusStruct f ⟨front ++ body, order⟩ signature)
      (dbusStruct f' ⟨front' ++ body, order⟩ signature) :=
  (h.align (by decide)).seq fun _ => (parallel_structLoop hf signature 0 0 []).seq fun (_, _) =>
    parallel_pure rfl

theorem Placed.parse (h : Placed front front' body order) {f f' : JavaString → Cursor DbusObject}
    (hf : ∀ signature, Parallel Eq front front' body (f signature) (f' signature)) (rounds : Nat)
    (signature : JavaString) (extractor : Extractor) :
    Parallel Eq front front' body (extractor.parse f ⟨front ++ body, order⟩ rounds signature)
      (extractor.parse f' ⟨front' ++ body, order⟩ rounds signature) := by
  cases extractor with
  | array =>
      have harray : Parallel Eq front front' body
          (dbusArray f ⟨front ++ body, order⟩ rounds signature)
          (dbusArray f' ⟨front' ++ body, order⟩ rounds signature) :=
        h.arrayEnd.bind fun stop stop' hstop => parallel_arrayLoop (hf _) hstop rounds []
      exact harray.map _
  | boolean => exact h.word (by decide) 4 _ _ fun _ => parallel_pure rfl
  | byte => exact parallel_byte.map _
  | dictEntry =>
      exact (h.align (by decide)).seq fun _ => (hf _).seq fun _ => (hf _).map _
  | double => exact h.word (by decide) 8 _ _ fun _ => parallel_pure rfl
  | int16 | uint16 => exact h.word (by decide) 2 _ _ fun _ => parallel_pure rfl
  | int32 | uint32 => exact h.word (by decide) 4 _ _ fun _ => parallel_pure rfl
  | int64 | uint64 => exact h.word (by decide) 8 _ _ fun _ => parallel_pure rfl
  | objectPath => exact h.dbusString.map _
  | signature => exact parallel_dbusSignature.map _
  | string => exact h.dbusString.map _
  | struct => exact (h.dbusStruct hf signature).map _
  | variant => exact parallel_dbusSignature.seq fun _ => (hf _).map _

theorem Placed.extract (h : Placed front front' body order) (fuel : Nat) (signature : JavaString) :
    Parallel Eq front front' body (extract ⟨front ++ body, order⟩ fuel signature)
      (extract ⟨front' ++ body, order⟩ fuel signature) := by
  induction fuel generalizing signature with
  | zero => exact parallel_diverge
  | succ fuel ih =>
      cases signature with
      | nil => exact parallel_throw
      | cons c rest =>
          unfold Android.extract
          cases extractors c with
          | none => exact parallel_throw
          | some extractor => exact h.parse ih fuel (c :: rest) extractor

end

/-! ## Two messages -/

/-- The constructor returns a message with these arguments. -/
def Decodes (bytes : List UInt8) (arguments : Option DbusStruct) : Prop :=
  ∃ fuel message position, DbusMessage.new bytes fuel = .returns message position ∧
    message.arguments = arguments

theorem Decodes.more {bytes : List UInt8} {arguments : Option DbusStruct} (h : Decodes bytes arguments)
    (least : Nat) : ∃ fuel message position, least ≤ fuel ∧
      DbusMessage.new bytes fuel = .returns message position ∧ message.arguments = arguments := by
  obtain ⟨fuel, message, position, hnew, harguments⟩ := h
  refine ⟨least + fuel, message, position, Nat.le_add_right least fuel, ?_, harguments⟩
  rw [DbusMessage.new_more (by rw [hnew]; exact DbusMessage.Constructed.noConfusion)
    (Nat.le_add_left fuel least), hnew]

theorem Decodes.unique {bytes : List UInt8} {arguments arguments' : Option DbusStruct}
    (h : Decodes bytes arguments) (h' : Decodes bytes arguments') : arguments = arguments' := by
  obtain ⟨fuel, message, position, hnew, rfl⟩ := h
  obtain ⟨fuel', message', position', hle, hnew', rfl⟩ := h'.more fuel
  rw [DbusMessage.new_more (by rw [hnew]; exact DbusMessage.Constructed.noConfusion) hle, hnew] at hnew'
  cases hnew'
  rfl

/-- A constructor that throws with some fuel never returns. -/
theorem not_decodes {bytes : List UInt8} {fuel position : Nat}
    (h : DbusMessage.new bytes fuel = .throws position) (arguments : Option DbusStruct) :
    ¬Decodes bytes arguments := by
  intro hdecodes
  obtain ⟨fuel', message, next, hle, hnew, -⟩ := hdecodes.more fuel
  rw [DbusMessage.new_more (by rw [h]; exact DbusMessage.Constructed.noConfusion) hle, h] at hnew
  cases hnew

namespace HeadedMessage

variable {m m' : HeadedMessage} {order : ByteOrder}

/-- The arguments are read `q` bytes behind the beginning of the body, if there are so many. -/
theorem readArguments_body (fuel : Nat) {message : DbusMessage} {signature : JavaString} {p q : Nat}
    (hsignature : message.signature = some signature) (hp : aligned 8 p = (m.frontBytes order).length + q) :
    DbusMessage.readArguments ⟨m.marshal order, order⟩ fuel message p =
      if q ≤ m.body.length then
        (structLoop (extract ⟨m.marshal order, order⟩ fuel) (DbusMessage.bracketed signature) 0 0 []
          ((m.frontBytes order).length + q)).bind fun result position =>
            .returns { message with arguments := (some
              ⟨(DbusMessage.bracketed signature).take result.2, result.1⟩) } position
      else .throws p := by
  have halign : (ReadBuffer.align ⟨m.marshal order, order⟩ 8) p =
      if q ≤ m.body.length then .returns () ((m.frontBytes order).length + q) else .throws p := by
    show (if aligned 8 p ≤ (m.marshal order).length then _ else _) = _
    rw [hp, marshal, List.length_append]
    simp only [Nat.add_le_add_iff_left]
  rw [DbusMessage.readArguments_signature hsignature, bind_apply]
  show Outcome.bind ((ReadBuffer.align _ 8 p).bind _) _ = _
  rw [halign]
  split
  · rw [Outcome.bind_returns]
    exact Outcome.bind_assoc _ _ _
  · rfl

variable (m m' order) in
/-- Both headers are laid out up to the same place of the body, with the same signature,
or with none, or neither is laid out. -/
inductive SameStart : Prop
  | lost (first : headerLayout ⟨m.marshal order, order⟩ = none)
      (second : headerLayout ⟨m'.marshal order, order⟩ = none)
  | unsigned {p p' : Nat} (first : headerLayout ⟨m.marshal order, order⟩ = some (p, none))
      (second : headerLayout ⟨m'.marshal order, order⟩ = some (p', none))
  | reached {p p' q : Nat} {signature : JavaString}
      (first : headerLayout ⟨m.marshal order, order⟩ = some (p, some signature))
      (second : headerLayout ⟨m'.marshal order, order⟩ = some (p', some signature))
      (place : aligned 8 p = (m.frontBytes order).length + q)
      (place' : aligned 8 p' = (m'.frontBytes order).length + q)

theorem SameStart.symm (h : SameStart m m' order) : SameStart m' m order := by
  cases h with
  | lost first second => exact .lost second first
  | unsigned first second => exact .unsigned second first
  | reached first second place place' => exact .reached second first place' place

theorem aligned_headerEnd : aligned 8 (m.headerEnd order) = (m.frontBytes order).length + 0 := by
  have hend := m.frontBytes_end order
  unfold padding at hend
  rw [List.length_replicate] at hend
  exact hend

/-- With the fields of the specification alone, and a signature of at most 127
characters, both are laid out as they are. -/
theorem sameStart_of_short (hsignature : m.signature = m'.signature)
    (hlength : (m.marshal order).length ≤ 4000) (hlength' : (m'.marshal order).length ≤ 4000)
    (hknown : ∀ entry ∈ m.entries, entry.code ≤ 9) (hknown' : ∀ entry ∈ m'.entries, entry.code ≤ 9)
    (hshort : ∀ v, m.signature = some v → v.text.length ≤ 127) : SameStart m m' order := by
  have hlayout := m.layout_of_readable order hlength ((m.readable_iff order hknown).mpr hshort)
  have hlayout' := m'.layout_of_readable order hlength'
    ((m'.readable_iff order hknown').mpr (hsignature ▸ hshort))
  rw [← hsignature] at hlayout'
  cases hcase : m.signature with
  | none =>
      rw [hcase] at hlayout hlayout'
      exact .unsigned hlayout hlayout'
  | some v =>
      rw [hcase] at hlayout hlayout'
      exact .reached hlayout hlayout' aligned_headerEnd aligned_headerEnd

theorem decodes_same (hbody : m.body = m'.body) (hwords : SmallWords order m.body)
    (hlength : (m.marshal order).length ≤ 4000) (hlength' : (m'.marshal order).length ≤ 4000)
    (hstart : SameStart m m' order) {arguments : Option DbusStruct} (h : Decodes (m.marshal order) arguments) :
    Decodes (m'.marshal order) arguments := by
  cases hstart with
  | lost first second =>
      obtain ⟨fuel, message, position, hnew, -⟩ := h
      exact absurd hnew (new_of_no_layout first fuel message position)
  | unsigned first second =>
      obtain ⟨least, message, harguments, hnamed, hnew⟩ := new_of_layout first
      obtain ⟨least', message', harguments', hnamed', hnew'⟩ := new_of_layout second
      obtain ⟨fuel, decoded, position, hfuel, hdecoded, rfl⟩ := h.more (least + least')
      rw [hnew fuel (by omega), DbusMessage.readArguments, hnamed] at hdecoded
      have hreturn' := hnew' fuel (by omega)
      rw [DbusMessage.readArguments, hnamed'] at hreturn'
      refine ⟨fuel, message', _, hreturn', ?_⟩
      cases hdecoded
      rw [harguments', harguments]
  | @reached p p' q signature first second place place' =>
      obtain ⟨least, message, -, hnamed, hnew⟩ := new_of_layout first
      obtain ⟨least', message', -, hnamed', hnew'⟩ := new_of_layout second
      obtain ⟨fuel, decoded, position, hfuel, hdecoded, rfl⟩ := h.more (least + least')
      rw [hnew fuel (by omega), readArguments_body fuel hnamed place] at hdecoded
      have hreturn' := hnew' fuel (by omega)
      rw [readArguments_body fuel hnamed' place', ← hbody] at hreturn'
      by_cases hq : q ≤ m.body.length
      · rw [if_pos hq, marshal] at hdecoded
        rw [if_pos hq, marshal, ← hbody] at hreturn'
        have hplaced : Placed (m.frontBytes order) (m'.frontBytes order) m.body order := by
          refine ⟨m.frontBytes_length order, m'.frontBytes_length order, ?_, ?_, hwords⟩
          · rwa [marshal, List.length_append] at hlength
          · rwa [marshal, List.length_append, ← hbody] at hlength'
        have hloop := parallel_structLoop (hplaced.extract fuel) (DbusMessage.bracketed signature) 0 0 [] q hq
        cases hresult : structLoop (extract ⟨m.frontBytes order ++ m.body, order⟩ fuel)
            (DbusMessage.bracketed signature) 0 0 [] ((m.frontBytes order).length + q) with
        | throws _ | runs =>
            rw [hresult] at hdecoded
            cases hdecoded
        | returns result middle =>
            rw [hresult] at hdecoded hloop
            generalize structLoop (extract ⟨m'.frontBytes order ++ m.body, order⟩ fuel)
              (DbusMessage.bracketed signature) 0 0 [] ((m'.frontBytes order).length + q) = outcome
              at hloop hreturn'
            cases hloop with
            | returns value within =>
                rw [Decodes, marshal, ← hbody]
                refine ⟨fuel, _, _, hreturn', ?_⟩
                cases hdecoded
                rw [← value]
      · rw [if_neg hq] at hdecoded
        cases hdecoded

end HeadedMessage

/-- Two messages of at most 4000 bytes with the same order and the same body, which may
be any bytes with small words: if both headers are laid out up to the same place of the
body with the same signature, or with none, or neither is, the arguments are the same, and
one constructor returns exactly if the other does. -/
theorem body_independent (m m' : HeadedMessage) (order : ByteOrder) (hbody : m.body = m'.body)
    (hwords : SmallWords order m.body) (hlength : (m.marshal order).length ≤ 4000)
    (hlength' : (m'.marshal order).length ≤ 4000) (hstart : m.SameStart m' order) :
    (∀ arguments arguments', Decodes (m.marshal order) arguments →
      Decodes (m'.marshal order) arguments' → arguments = arguments') ∧
    ((∃ arguments, Decodes (m.marshal order) arguments) ↔
      ∃ arguments, Decodes (m'.marshal order) arguments) := by
  have hsame : ∀ {arguments}, Decodes (m.marshal order) arguments →
      Decodes (m'.marshal order) arguments := fun h =>
    HeadedMessage.decodes_same hbody hwords hlength hlength' hstart h
  have hsame' : ∀ {arguments}, Decodes (m'.marshal order) arguments →
      Decodes (m.marshal order) arguments := fun h =>
    HeadedMessage.decodes_same hbody.symm (hbody ▸ hwords) hlength' hlength hstart.symm h
  constructor
  · intro arguments arguments' h h'
    exact (hsame h).unique h'
  · constructor
    · rintro ⟨arguments, h⟩
      exact ⟨arguments, hsame h⟩
    · rintro ⟨arguments, h⟩
      exact ⟨arguments, hsame' h⟩

theorem bytes_allowed {n : Nat} (h : n ≤ 255) : TextKind.signature.Allows (List.replicate n 'y') := by
  constructor
  · intro c hc
    rw [List.eq_of_mem_replicate hc]
    rfl
  · rwa [List.length_replicate]

/-- The header field with the signature of `n` bytes. -/
def bytesSignature (n : Nat) (h : n ≤ 255) : HeaderEntry :=
  ⟨8, .basic (.text ⟨.signature, List.replicate n 'y', bytes_allowed h⟩), trivial, ⟨_, rfl, rfl⟩⟩

/-- The header field with the serial of the call. -/
def replyEntry : HeaderEntry := ⟨5, .basic (.word (.uint32 5) .uint32 rfl), trivial, ⟨5, rfl⟩⟩

/-- A message with `n` zeros and nothing but their signature in the header. -/
def zeros (n : Nat) (h : n ≤ 255) : HeadedMessage :=
  ⟨2, 1, 1, 7, [bytesSignature n h], List.replicate n 0, List.pairwise_singleton _ _⟩

/-- The same with one more header field. -/
def replyZeros (n : Nat) (h : n ≤ 255) : HeadedMessage :=
  ⟨2, 1, 1, 7, [bytesSignature n h, replyEntry], List.replicate n 0, by
    simp [bytesSignature, replyEntry]⟩

theorem zeros_small (order : ByteOrder) (n : Nat) : SmallWords order (List.replicate n 0) := by
  intro q _ hq
  rw [List.length_replicate] at hq
  have hword : ((List.replicate n (0 : UInt8)).drop q).take 4 = [0, 0, 0, 0] := by
    rw [List.drop_replicate, List.take_replicate, Nat.min_eq_left (by omega)]
    rfl
  rw [hword]
  cases order <;> decide

/-- A field that the specification does not know. -/
def accentedEntry : HeaderEntry := ⟨10, .basic (.text accentedText), trivial, trivial⟩

/-- The zeros with such a field in the header. -/
def accentedZeros (n : Nat) (h : n ≤ 255) : HeadedMessage :=
  ⟨2, 1, 1, 7, [bytesSignature n h, accentedEntry], List.replicate n 0, by
    simp [bytesSignature, accentedEntry]⟩

/-- What the fields of a header that has been read say of its layout. -/
private def headerOf : Outcome (List DbusObject) → Option (Nat × Option JavaString)
  | .returns elements p => (DbusMessage.parseHeader elements).map fun message => (p, message.signature)
  | _ => none

private theorem layout_of_header {bb : ReadBuffer} {fuel : Nat} {layout : Nat × Option JavaString}
    (hlength : 12 ≤ bb.bytes.length)
    (h : headerOf (dbusArray (extract bb fuel) bb fuel DbusMessage.headerSignature 12) = some layout) :
    headerLayout bb = some layout := by
  cases harray : dbusArray (extract bb fuel) bb fuel DbusMessage.headerSignature 12 with
  | returns elements p =>
      rw [harray] at h
      rw [(DbusMessage.dbusArray_layout hlength harray).2]
      exact h
  | _ =>
      rw [harray] at h
      cases h

/-- The unknown field is not read as it was written, but to its end. -/
theorem body_independent_zeros :
    (∃ arguments, Decodes ((zeros 2 (by omega)).marshal .bigEndian) arguments) ↔
      ∃ arguments, Decodes ((accentedZeros 2 (by omega)).marshal .bigEndian) arguments := by
  have hfirst : headerLayout ⟨(zeros 2 (by omega)).marshal .bigEndian, .bigEndian⟩ =
      some (24, some [0x79, 0x79]) :=
    @layout_of_header _ 10 _ (HeadedMessage.twelve_le _ _) (by decide +kernel)
  have hsecond : headerLayout ⟨(accentedZeros 2 (by omega)).marshal .bigEndian, .bigEndian⟩ =
      some (35, some [0x79, 0x79]) :=
    @layout_of_header _ 10 _ (HeadedMessage.twelve_le _ _) (by decide +kernel)
  exact (body_independent (zeros 2 (by omega)) (accentedZeros 2 (by omega)) .bigEndian rfl
    (zeros_small .bigEndian 2) (by decide +kernel) (by decide +kernel)
    (@HeadedMessage.SameStart.reached _ _ _ _ _ 0 _ hfirst hsecond (by decide +kernel) (by decide +kernel))).2

/-- A signature of 128 characters: its length is negative, and what is left of it
is read as further header fields. One more field is enough to stop in time; with
none the reading goes on in the body, where the constructor throws. -/
theorem long_signature_depends :
    (zeros 128 (by omega)).signature = (replyZeros 128 (by omega)).signature ∧
      (zeros 128 (by omega)).body = (replyZeros 128 (by omega)).body ∧
      SmallWords .littleEndian (zeros 128 (by omega)).body ∧
      ((zeros 128 (by omega)).marshal .littleEndian).length ≤ 4000 ∧
      ((replyZeros 128 (by omega)).marshal .littleEndian).length ≤ 4000 ∧
      (∀ arguments, ¬Decodes ((zeros 128 (by omega)).marshal .littleEndian) arguments) ∧
      ∃ arguments, Decodes ((replyZeros 128 (by omega)).marshal .littleEndian) arguments := by
  have hthrows : (DbusMessage.construct
      ⟨(zeros 128 (by omega)).marshal .littleEndian, .littleEndian⟩ 10 1).thrownAt = some 155 := by
    decide +kernel
  have hreturns : (DbusMessage.construct
      ⟨(replyZeros 128 (by omega)).marshal .littleEndian, .littleEndian⟩ 10 1).returnedAt = some 160 := by
    decide +kernel
  refine ⟨rfl, rfl, zeros_small .littleEndian 128, by decide +kernel, by decide +kernel, ?_, ?_⟩
  · apply @not_decodes _ 10 155
    rw [DbusMessage.new_announced (HeadedMessage.announced_marshal _ _), Outcome.throws_of_thrownAt hthrows]
    rfl
  · obtain ⟨message, hmessage⟩ := Outcome.returns_of_returnedAt hreturns
    refine ⟨_, 10, message, 160, ?_, rfl⟩
    rw [DbusMessage.new_announced (HeadedMessage.announced_marshal _ _), hmessage]
    rfl

end AapBridge.Wire
