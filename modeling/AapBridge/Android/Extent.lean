import AapBridge.Android.Decoding

/-! # How many bytes a value takes up

`extent` goes through a buffer by signatures, announced lengths and the limit, and
decodes nothing. A `DbusStruct` is content with the fields that are there. An
array stands still at an element in front of its announced end that takes up no
bytes, as a struct at the end of the buffer does.
-/

namespace AapBridge.Android

open AapBridge.Lib Cursor

/-- What a value does with the bytes from its position on. -/
inductive Extent where
  | takes (n : Nat)
  /-- What comes behind `n` bytes is missing, or of no type. -/
  | breaks (n : Nat)
  | stands
deriving DecidableEq

/-- The same, seen from `n` bytes before. -/
def Extent.behind (n : Nat) : Extent → Extent
  | takes m => takes (n + m)
  | breaks m => breaks (n + m)
  | stands => stands

theorem Extent.behind_eq_stands {n : Nat} {e : Extent} : e.behind n = stands ↔ e = stands := by
  cases e with
  | stands => exact Iff.rfl
  | _ => exact iff_of_false (fun h => by cases h) (fun h => by cases h)

namespace ReadBuffer

variable (bb : ReadBuffer)

/-- Padding and a field of `n` bytes. -/
def fixedExtent (alignment n p : Nat) : Extent :=
  if aligned alignment p ≤ bb.bytes.length then
    if aligned alignment p + n ≤ bb.bytes.length then .takes (aligned alignment p + n - p)
    else .breaks (aligned alignment p - p)
  else .breaks 0

/-- The four bytes at `p`, as a word of the buffer's order. -/
def wordAt (p : Nat) : BitVec 32 := BitVec.ofNat 32 (bb.order.get ((bb.bytes.drop p).take 4))

/-- The signed byte at `p`. -/
def signatureLength (p : Nat) : Nat := (bb.bytes.getD p 0).toBitVec.toInt.toNat

/-- `n` characters from `p` on; a byte is signed. -/
def charsAt (p n : Nat) : JavaString :=
  ((bb.bytes.drop p).take n).map fun b => b.toBitVec.signExtend 16

/-- The text of the signature at `p`. -/
def signatureText (p : Nat) : JavaString := bb.charsAt (p + 1) (bb.signatureLength p)

/-- `n` characters and a null byte, behind a length of `front` bytes. -/
def textExtent (front n p : Nat) : Extent :=
  if p + front + n + 1 ≤ bb.bytes.length then .takes (front + n + 1) else .breaks (bb.bytes.length - p)

def stringExtent (p : Nat) : Extent :=
  match bb.fixedExtent 4 4 p with
  | .takes n => bb.textExtent n (bb.wordAt (p + n - 4)).toInt.toNat p
  | e => e

def signatureExtent (p : Nat) : Extent :=
  if p < bb.bytes.length then bb.textExtent 1 (bb.signatureLength p) p else .breaks 0

end ReadBuffer

/-- What is to be gone through: a value, the fields of a struct that are left, or the
elements of an array that are. -/
inductive Work where
  | extract (signature : JavaString)
  | struct (chars : JavaString) (depth : Int)
  | array (element : JavaString) (stop : Int)

/-- Work without an array round or a variant in it gets shorter. -/
def Work.size : Work → Nat
  | .extract signature => 2 * signature.length
  | .struct chars _ => 2 * chars.length + 1
  | .array element _ => 2 * element.length + 1

theorem lex_of_le {a b c d : Nat} (hab : a ≤ b) (hcd : a = b → c < d) :
    Prod.Lex (· < ·) (· < ·) (a, c) (b, d) := by
  obtain hlt | heq := hab.lt_or_eq
  · exact .left _ _ hlt
  · subst heq
    exact .right _ (hcd rfl)

/-- How many bytes the work takes up from `p` on. -/
def extent (bb : ReadBuffer) (work : Work) (p : Nat) : Extent :=
  match work with
  | .extract [] => .breaks 0
  | .extract (c :: rest) =>
      match extractors c with
      | none => .breaks 0
      | some .byte => bb.fixedExtent 1 1 p
      | some .int16 | some .uint16 => bb.fixedExtent 2 2 p
      | some .boolean | some .int32 | some .uint32 => bb.fixedExtent 4 4 p
      | some .int64 | some .uint64 | some .double => bb.fixedExtent 8 8 p
      | some .string | some .objectPath => bb.stringExtent p
      | some .signature => bb.signatureExtent p
      | some .variant =>
          let n := 1 + bb.signatureLength p + 1
          if p + n ≤ bb.bytes.length then
            (extent bb (.extract (bb.signatureText p)) (p + n)).behind n
          else bb.signatureExtent p
      | some .array =>
          match bb.fixedExtent 4 4 p with
          | .takes n =>
              let stop := (BitVec.ofNat 32 (p + n) + bb.wordAt (p + n - 4)).toInt
              (extent bb (.array rest stop) (p + n)).behind n
          | e => e
      | some .struct =>
          match bb.fixedExtent 8 0 p with
          | .takes n => (extent bb (.struct rest 1) (p + n)).behind n
          | e => e
      | some .dictEntry =>
          match bb.fixedExtent 8 0 p with
          | .takes n =>
              (match extent bb (.extract rest) (p + n) with
              | .takes m => (extent bb (.extract (rest.drop 1)) (p + n + m)).behind m
              | e => e).behind n
          | e => e
  | .struct [] _ => .takes 0
  | .struct (c :: rest) depth =>
      if c = 0x28 then
        if 0 < depth + 1 then extent bb (.struct rest (depth + 1)) p else .takes 0
      else if c = 0x29 then
        if 0 < depth - 1 then extent bb (.struct rest (depth - 1)) p else .takes 0
      else
        match extent bb (.extract (c :: rest)) p with
        | .takes n =>
            if 0 < depth then (extent bb (.struct rest depth) (p + n)).behind n else .takes n
        | .breaks n => .takes n
        | .stands => .stands
  | .array element stop =>
      if (p : Int) < stop then
        match extent bb (.extract element) p with
        | .takes n =>
            if 0 < n ∧ p < bb.bytes.length then
              (extent bb (.array element stop) (p + n)).behind n
            else .stands
        | e => e
      else .takes 0
termination_by (bb.bytes.length - p, work.size)
decreasing_by
  all_goals
    apply lex_of_le
    · omega
    · intro heq
      simp only [Work.size, List.length_cons, List.length_drop]
      omega

/-! ## Without a container -/

/-- Where the computation ends, it ends as the extent says. -/
def Agrees {α : Type} (p : Nat) (o : Outcome α) (e : Extent) : Prop :=
  match o with
  | .returns _ p' => ∃ n, p' = p + n ∧ e = .takes n
  | .throws p' => ∃ n, p' = p + n ∧ e = .breaks n
  | .runs => True

section

variable {α β : Type} {p n : Nat} {o : Outcome α} {e : Extent}

theorem Agrees.behind (h : Agrees (p + n) o e) : Agrees p o (e.behind n) := by
  cases o with
  | returns a p' =>
      obtain ⟨m, rfl, rfl⟩ := h
      exact ⟨n + m, Nat.add_assoc p n m, rfl⟩
  | throws p' =>
      obtain ⟨m, rfl, rfl⟩ := h
      exact ⟨n + m, Nat.add_assoc p n m, rfl⟩
  | runs => trivial

theorem Agrees.map (h : Agrees p o e) (g : α → β) :
    Agrees p (o.bind fun a p' => .returns (g a) p') e := by
  cases o with
  | returns a p' => exact h
  | throws p' => exact h
  | runs => trivial

/-- A first part that is not all of it. -/
theorem Agrees.andThen {e' : Extent} {f : α → Nat → Outcome β} (ho : Agrees p o e)
    (hstops : ∀ n, e = .breaks n → e' = .breaks n)
    (hnext : ∀ a n, o = .returns a (p + n) → e = .takes n → Agrees p (f a (p + n)) e') :
    Agrees p (o.bind f) e' := by
  cases o with
  | returns a p' =>
      obtain ⟨n, rfl, he⟩ := ho
      exact hnext a n rfl he
  | throws p' =>
      obtain ⟨n, rfl, he⟩ := ho
      exact ⟨n, rfl, hstops n he⟩
  | runs => trivial

end

namespace ReadBuffer

variable {bb : ReadBuffer} {p : Nat}

theorem fixedExtent_takes {alignment n m : Nat} (h : bb.fixedExtent alignment n p = .takes m) :
    n ≤ m ∧ p + m ≤ bb.bytes.length ∧ p + m = aligned alignment p + n := by
  have hle := le_aligned alignment p
  unfold fixedExtent at h
  split at h
  · split at h
    · cases h
      omega
    · cases h
  · cases h

theorem align_eq (alignment : Nat) : bb.align alignment p =
    match bb.fixedExtent alignment 0 p with
    | .takes n => .returns () (p + n)
    | .breaks n => .throws (p + n)
    | .stands => .runs := by
  have hle := le_aligned alignment p
  unfold align Cursor.seek fixedExtent
  rw [Nat.add_zero]
  split
  · have hend : p + (aligned alignment p - p) = aligned alignment p := by omega
    dsimp only
    rw [hend]
  · rfl

theorem agrees_align (alignment : Nat) :
    Agrees p (bb.align alignment p) (bb.fixedExtent alignment 0 p) := by
  rw [align_eq]
  cases bb.fixedExtent alignment 0 p with
  | takes n => exact ⟨n, rfl, rfl⟩
  | breaks n => exact ⟨n, rfl, rfl⟩
  | stands => trivial

theorem agrees_get : Agrees p (bb.get p) (bb.fixedExtent 1 1 p) := by
  have haligned : aligned 1 p = p := by rw [aligned, Nat.mod_one, Nat.add_zero]
  unfold get Cursor.byte fixedExtent
  rw [haligned]
  by_cases hlt : p + 1 ≤ bb.bytes.length
  · rw [List.getElem?_eq_getElem hlt, if_pos (show p ≤ _ by omega), if_pos hlt]
    exact ⟨p + 1 - p, by omega, rfl⟩
  · rw [List.getElem?_eq_none (by omega), if_neg hlt, Nat.sub_self, ite_self]
    exact ⟨0, rfl, rfl⟩

theorem agrees_word {α : Type} (alignment n : Nat) (g : BitVec (8 * n) → α) :
    Agrees p ((do
      bb.align alignment
      return g (← bb.getWord n) : Cursor α) p) (bb.fixedExtent alignment n p) := by
  have hle := le_aligned alignment p
  show Agrees p ((Cursor.seek bb.bytes (aligned alignment) p).bind _) _
  unfold Cursor.seek fixedExtent
  by_cases hfits : aligned alignment p ≤ bb.bytes.length
  · rw [if_pos hfits, if_pos hfits, Outcome.bind_returns, bind_apply, getWord, bind_apply, Cursor.take]
    by_cases hword : aligned alignment p + n ≤ bb.bytes.length
    · rw [if_pos hword, if_pos hword]
      exact ⟨aligned alignment p + n - p, by omega, rfl⟩
    · rw [if_neg hword, if_neg hword]
      exact ⟨aligned alignment p - p, by omega, rfl⟩
  · rw [if_neg hfits, if_neg hfits]
    exact ⟨0, rfl, rfl⟩

/-- A length in front, as `getInt` reads it. -/
theorem length_eq : (do
      bb.align 4
      bb.getInt : Cursor (BitVec 32)) p =
    match bb.fixedExtent 4 4 p with
    | .takes n => .returns (bb.wordAt (p + n - 4)) (p + n)
    | .breaks n => .throws (p + n)
    | .stands => .runs := by
  have hle := le_aligned 4 p
  show (Cursor.seek bb.bytes (aligned 4) p).bind _ = _
  unfold Cursor.seek fixedExtent
  by_cases hfits : aligned 4 p ≤ bb.bytes.length
  · rw [if_pos hfits, if_pos hfits, Outcome.bind_returns, getInt, getWord, bind_apply, Cursor.take]
    by_cases hword : aligned 4 p + 4 ≤ bb.bytes.length
    · rw [if_pos hword, if_pos hword]
      have hend : p + (aligned 4 p + 4 - p) = aligned 4 p + 4 := by omega
      have hbegin : aligned 4 p + 4 - 4 = aligned 4 p := by omega
      dsimp only
      rw [hend, hbegin]
      rfl
    · rw [if_neg hword, if_neg hword]
      have hend : p + (aligned 4 p - p) = aligned 4 p := by omega
      dsimp only
      rw [hend]
      rfl
  · rw [if_neg hfits, if_neg hfits]
    rfl

theorem getChars_eq (n : Nat) (hp : p ≤ bb.bytes.length) :
    bb.getChars n p = if p + n ≤ bb.bytes.length then .returns (bb.charsAt p n) (p + n)
      else .throws bb.bytes.length := by
  induction n generalizing p with
  | zero =>
      rw [Nat.add_zero, if_pos hp]
      rfl
  | succ n ih =>
      show (Outcome.bind (Outcome.bind (Cursor.byte bb.bytes p) _) _) = _
      unfold Cursor.byte
      by_cases hlt : p < bb.bytes.length
      · rw [List.getElem?_eq_getElem hlt, Outcome.bind_returns]
        show (bb.getChars n (p + 1)).bind _ = _
        rw [ih hlt]
        have hassoc : p + 1 + n = p + (n + 1) := by omega
        rw [hassoc]
        by_cases hfits : p + (n + 1) ≤ bb.bytes.length
        · rw [if_pos hfits, if_pos hfits, Outcome.bind_returns]
          have hchars : bb.charsAt p (n + 1) = bb.bytes[p].toBitVec.signExtend 16 :: bb.charsAt (p + 1) n := by
            unfold charsAt
            rw [List.drop_eq_getElem_cons hlt, List.take_succ_cons, List.map_cons]
          rw [hchars]
          rfl
        · rw [if_neg hfits, if_neg hfits]
          rfl
      · rw [List.getElem?_eq_none (by omega), if_neg (by omega)]
        have hend : p = bb.bytes.length := by omega
        rw [hend]
        rfl

/-- `n` characters and the null byte. -/
theorem text_eq (n : Nat) (hp : p ≤ bb.bytes.length) : (do
      let string ← bb.getChars n
      let _ ← bb.get
      return string : Cursor JavaString) p =
    if p + n + 1 ≤ bb.bytes.length then .returns (bb.charsAt p n) (p + n + 1)
      else .throws bb.bytes.length := by
  rw [bind_apply, getChars_eq n hp]
  by_cases hchars : p + n ≤ bb.bytes.length
  · rw [if_pos hchars, Outcome.bind_returns]
    show (Cursor.byte bb.bytes (p + n)).bind _ = _
    unfold Cursor.byte
    by_cases hnull : p + n + 1 ≤ bb.bytes.length
    · rw [List.getElem?_eq_getElem hnull, if_pos hnull]
      rfl
    · rw [List.getElem?_eq_none (by omega), if_neg hnull]
      have hend : p + n = bb.bytes.length := by omega
      rw [hend]
      rfl
  · rw [if_neg hchars, if_neg (by omega)]
    rfl

theorem agrees_text (front n : Nat) (hp : p + front ≤ bb.bytes.length) : Agrees p ((do
      let string ← bb.getChars n
      let _ ← bb.get
      return string : Cursor JavaString) (p + front)) (bb.textExtent front n p) := by
  rw [text_eq n hp]
  unfold textExtent
  split
  · exact ⟨front + n + 1, by omega, rfl⟩
  · exact ⟨bb.bytes.length - p, by omega, rfl⟩

theorem agrees_dbusString : Agrees p (bb.dbusString p) (bb.stringExtent p) := by
  have hlength := @length_eq bb p
  unfold stringExtent
  have heq : bb.dbusString p = ((do
      bb.align 4
      bb.getInt : Cursor (BitVec 32)) p).bind fun length => (do
        let string ← bb.getChars length.toInt.toNat
        let _ ← bb.get
        return string : Cursor JavaString) := (Outcome.bind_assoc _ _ _).symm
  rw [heq, hlength]
  cases hextent : bb.fixedExtent 4 4 p with
  | takes n =>
      dsimp only
      rw [Outcome.bind_returns]
      exact agrees_text n _ (fixedExtent_takes hextent).2.1
  | breaks n => exact ⟨n, rfl, rfl⟩
  | stands => trivial

/-- What `DbusSignature` reads. -/
theorem dbusSignature_eq : bb.dbusSignature p =
    if p + (1 + bb.signatureLength p + 1) ≤ bb.bytes.length then
      .returns (bb.signatureText p) (p + (1 + bb.signatureLength p + 1))
    else .throws (if p < bb.bytes.length then bb.bytes.length else p) := by
  show (Cursor.byte bb.bytes p).bind _ = _
  unfold Cursor.byte
  by_cases hlt : p < bb.bytes.length
  · rw [List.getElem?_eq_getElem hlt, Outcome.bind_returns]
    have hlength : bb.signatureLength p = bb.bytes[p].toBitVec.toInt.toNat := by
      rw [signatureLength, List.getD_eq_getElem _ _ hlt]
    have htext := text_eq (bb.signatureLength p) (show p + 1 ≤ bb.bytes.length from hlt)
    have hassoc : p + 1 + bb.signatureLength p + 1 = p + (1 + bb.signatureLength p + 1) := by omega
    rw [hassoc] at htext
    rw [← hlength, if_pos hlt]
    exact htext
  · rw [List.getElem?_eq_none (by omega), if_neg hlt, if_neg (by omega)]
    rfl

theorem agrees_dbusSignature : Agrees p (bb.dbusSignature p) (bb.signatureExtent p) := by
  rw [dbusSignature_eq]
  unfold signatureExtent textExtent
  have hassoc : p + 1 + bb.signatureLength p + 1 = p + (1 + bb.signatureLength p + 1) := by omega
  rw [hassoc]
  by_cases hfits : p + (1 + bb.signatureLength p + 1) ≤ bb.bytes.length
  · rw [if_pos hfits, if_pos (show p < bb.bytes.length by omega), if_pos hfits]
    exact ⟨_, rfl, rfl⟩
  · rw [if_neg hfits, if_neg hfits]
    split
    · exact ⟨bb.bytes.length - p, by omega, rfl⟩
    · exact ⟨0, rfl, rfl⟩

end ReadBuffer

/-! ## The extractors agree -/

section

variable {bb : ReadBuffer} {p : Nat}

-- The equations of `extent` are derived here, once for the lemmas below.
attribute [local simp] extent

theorem extent_nil : extent bb (.extract []) p = .breaks 0 := by rw [extent]

theorem extent_struct {c : CodeUnit} (hc : extractors c = some .struct) (rest : JavaString) :
    extent bb (.extract (c :: rest)) p = match bb.fixedExtent 8 0 p with
      | .takes n => (extent bb (.struct rest 1) (p + n)).behind n
      | e => e := by
  rw [extent, hc]

theorem extent_dictEntry {c : CodeUnit} (hc : extractors c = some .dictEntry) (rest : JavaString) :
    extent bb (.extract (c :: rest)) p = match bb.fixedExtent 8 0 p with
      | .takes n =>
          (match extent bb (.extract rest) (p + n) with
          | .takes m => (extent bb (.extract (rest.drop 1)) (p + n + m)).behind m
          | e => e).behind n
      | e => e := by
  rw [extent, hc]

theorem extent_array {c : CodeUnit} (hc : extractors c = some .array) (rest : JavaString) :
    extent bb (.extract (c :: rest)) p = match bb.fixedExtent 4 4 p with
      | .takes n => (extent bb (.array rest
          (BitVec.ofNat 32 (p + n) + bb.wordAt (p + n - 4)).toInt) (p + n)).behind n
      | e => e := by
  rw [extent, hc]

theorem extent_variant {c : CodeUnit} (hc : extractors c = some .variant) (rest : JavaString) :
    extent bb (.extract (c :: rest)) p =
      if p + (1 + bb.signatureLength p + 1) ≤ bb.bytes.length then
        (extent bb (.extract (bb.signatureText p)) (p + (1 + bb.signatureLength p + 1))).behind
          (1 + bb.signatureLength p + 1)
      else bb.signatureExtent p := by
  rw [extent, hc]

theorem extent_field {c : CodeUnit} (hopen : c ≠ 0x28) (hclose : c ≠ 0x29) (rest : JavaString)
    (depth : Int) : extent bb (.struct (c :: rest) depth) p =
      match extent bb (.extract (c :: rest)) p with
      | .takes n => if 0 < depth then (extent bb (.struct rest depth) (p + n)).behind n else .takes n
      | .breaks n => .takes n
      | .stands => .stands := by
  conv_lhs => rw [extent, if_neg hopen, if_neg hclose]

theorem extent_round {element : JavaString} {stop : Int} (h : (p : Int) < stop) :
    extent bb (.array element stop) p = match extent bb (.extract element) p with
      | .takes n =>
          if 0 < n ∧ p < bb.bytes.length then (extent bb (.array element stop) (p + n)).behind n
          else .stands
      | e => e := by
  conv_lhs => rw [extent, if_pos h]

theorem extract_returns_le {fuel : Nat} {signature : JavaString} {p' : Nat} {object : DbusObject}
    (h : extract bb fuel signature p = .returns object p') (hp : p ≤ bb.bytes.length) :
    p ≤ p' ∧ p' ≤ bb.bytes.length := by
  have hwithin := forward_extract bb fuel signature p hp
  rw [h] at hwithin
  exact hwithin

/-- An element that takes up no bytes is met again in the next round. -/
theorem arrayLoop_still {f : Cursor DbusObject} {stop : Int} {object : DbusObject}
    (hstop : (p : Int) < stop) (hf : f p = .returns object p) (rounds : Nat)
    (list : List DbusObject) : arrayLoop f stop rounds list p = .runs := by
  induction rounds generalizing list with
  | zero => rfl
  | succ rounds ih =>
      rw [arrayLoop_round hstop, hf, Outcome.bind_returns]
      exact ih (list ++ [object])

theorem attempt_of_runs {α : Type} {f : Cursor α} (h : f p = .runs) : f.attempt p = .runs := by
  rw [Cursor.attempt, h]

theorem attempt_of_returns {α : Type} {f : Cursor α} {next : Nat} {a : α}
    (h : f p = .returns a next) : f.attempt p = .returns (some a) next := by
  rw [Cursor.attempt, h]

theorem attempt_of_throws {α : Type} {f : Cursor α} {next : Nat} (h : f p = .throws next) :
    f.attempt p = .returns none next := by
  rw [Cursor.attempt, h]

/-- At every position of the buffer a call with this fuel agrees. -/
def CallsAgree (bb : ReadBuffer) (fuel : Nat) : Prop :=
  ∀ signature p, p ≤ bb.bytes.length →
    Agrees p (extract bb fuel signature p) (extent bb (.extract signature) p)

variable {fuel : Nat}

theorem agrees_structLoop (hcalls : CallsAgree bb fuel) (chars : JavaString) (depth : Int) (i : Nat)
    (list : List DbusObject) (hp : p ≤ bb.bytes.length) :
    Agrees p (structLoop (extract bb fuel) chars depth i list p) (extent bb (.struct chars depth) p) := by
  induction chars generalizing depth i list p with
  | nil =>
      rw [extent]
      exact ⟨0, rfl, rfl⟩
  | cons c rest ih =>
      by_cases hopen : c = 0x28
      · subst hopen
        rw [structLoop_open, structNext, extent, if_pos rfl]
        split
        · exact ih (depth + 1) (i + 1) list hp
        · exact ⟨0, rfl, rfl⟩
      · by_cases hclose : c = 0x29
        · subst hclose
          rw [structLoop_close, structNext, extent, if_neg hopen, if_pos rfl]
          split
          · exact ih (depth - 1) (i + 1) list hp
          · exact ⟨0, rfl, rfl⟩
        · have hfield := hcalls (c :: rest) p hp
          rw [structLoop_field hopen hclose, bind_apply, extent_field hopen hclose]
          cases hobject : extract bb fuel (c :: rest) p with
          | returns object p' =>
              rw [hobject] at hfield
              obtain ⟨n, rfl, hextent⟩ := hfield
              rw [attempt_of_returns hobject, Outcome.bind_returns, hextent]
              dsimp only
              unfold structNext
              split
              · exact (ih depth (i + 1) _ (extract_returns_le hobject hp).2).behind
              · exact ⟨n, rfl, rfl⟩
          | throws p' =>
              rw [hobject] at hfield
              obtain ⟨n, rfl, hextent⟩ := hfield
              rw [attempt_of_throws hobject, Outcome.bind_returns, hextent]
              exact ⟨n, rfl, rfl⟩
          | runs =>
              rw [attempt_of_runs hobject]
              trivial

theorem agrees_arrayLoop (hcalls : CallsAgree bb fuel) (element : JavaString) (stop : Int)
    (rounds : Nat) (list : List DbusObject) (hp : p ≤ bb.bytes.length) :
    Agrees p (arrayLoop (extract bb fuel element) stop rounds list p)
      (extent bb (.array element stop) p) := by
  induction rounds generalizing list p with
  | zero => trivial
  | succ rounds ih =>
      by_cases hstop : (p : Int) < stop
      · have helement := hcalls element p hp
        rw [arrayLoop_round hstop, extent_round hstop]
        cases hobject : extract bb fuel element p with
        | returns object p' =>
            have hle := extract_returns_le hobject hp
            rw [hobject] at helement
            obtain ⟨n, rfl, hextent⟩ := helement
            rw [Outcome.bind_returns, hextent]
            dsimp only
            split
            · exact (ih _ hle.2).behind
            · have hzero : n = 0 := by omega
              subst hzero
              rw [Nat.add_zero, arrayLoop_still hstop hobject]
              trivial
        | throws p' =>
            rw [hobject] at helement
            obtain ⟨n, rfl, hextent⟩ := helement
            rw [hextent]
            exact ⟨n, rfl, rfl⟩
        | runs => trivial
      · rw [arrayLoop_end hstop, extent, if_neg hstop]
        exact ⟨0, rfl, rfl⟩

theorem arrayEnd_eq : arrayEnd bb p =
    match bb.fixedExtent 4 4 p with
    | .takes n => .returns (BitVec.ofNat 32 (p + n) + bb.wordAt (p + n - 4)).toInt (p + n)
    | .breaks n => .throws (p + n)
    | .stands => .runs := by
  have heq : arrayEnd bb p = ((do
      bb.align 4
      bb.getInt : Cursor (BitVec 32)) p).bind fun length position =>
        .returns (BitVec.ofNat 32 position + length).toInt position := (Outcome.bind_assoc _ _ _).symm
  rw [heq, ReadBuffer.length_eq]
  cases bb.fixedExtent 4 4 p with
  | _ => rfl

end

/-- A call that returns or throws does so where `extent` says. -/
theorem agrees_extract (bb : ReadBuffer) (fuel : Nat) : CallsAgree bb fuel := by
  induction fuel with
  | zero => exact fun _ _ _ => trivial
  | succ fuel ih =>
      intro signature p hp
      cases signature with
      | nil =>
          rw [extent_nil]
          exact ⟨0, rfl, rfl⟩
      | cons c rest =>
          cases hc : extractors c with
          | none =>
              rw [extract, extent, hc]
              exact ⟨0, rfl, rfl⟩
          | some extractor =>
              cases extractor with
              | array =>
                  rw [extract_array hc, extent_array hc, arrayEnd_eq]
                  cases hextent : bb.fixedExtent 4 4 p with
                  | takes n =>
                      have hle := (ReadBuffer.fixedExtent_takes hextent).2.1
                      exact ((agrees_arrayLoop ih rest _ fuel [] hle).map _).behind
                  | breaks n => exact ⟨n, rfl, rfl⟩
                  | stands => trivial
              | struct =>
                  rw [extract_struct hc, extent_struct hc]
                  apply (ReadBuffer.agrees_align 8).andThen
                  · intro n hbreaks
                    rw [hbreaks]
                  · intro _ n _ htakes
                    rw [htakes]
                    have hle := (ReadBuffer.fixedExtent_takes htakes).2.1
                    exact ((agrees_structLoop ih rest 1 1 [] hle).map _).behind
              | dictEntry =>
                  rw [extract_dictEntry hc, extent_dictEntry hc]
                  apply (ReadBuffer.agrees_align 8).andThen
                  · intro n hbreaks
                    rw [hbreaks]
                  · intro _ n _ htakes
                    rw [htakes]
                    have hle := (ReadBuffer.fixedExtent_takes htakes).2.1
                    apply Agrees.behind
                    apply (ih rest _ hle).andThen
                    · intro m hbreaks
                      rw [hbreaks]
                    · intro key m hkey htakes'
                      rw [htakes']
                      exact ((ih (rest.drop 1) _ (extract_returns_le hkey hle).2).map _).behind
              | variant =>
                  rw [extract_variant hc, extent_variant hc, ReadBuffer.dbusSignature_eq]
                  split
                  · next hfits => exact ((ih _ _ hfits).map _).behind
                  · next hfits =>
                    have hagrees := @ReadBuffer.agrees_dbusSignature bb p
                    rw [ReadBuffer.dbusSignature_eq, if_neg hfits] at hagrees
                    exact hagrees
              | byte =>
                  rw [extract_succ hc, extent, hc]
                  exact ReadBuffer.agrees_get.map _
              | signature =>
                  rw [extract_succ hc, extent, hc]
                  exact ReadBuffer.agrees_dbusSignature.map _
              | string | objectPath =>
                  rw [extract_succ hc, extent, hc]
                  exact ReadBuffer.agrees_dbusString.map _
              | int16 | uint16 =>
                  rw [extract_succ hc, extent, hc]
                  exact ReadBuffer.agrees_word 2 2 _
              | boolean | int32 | uint32 =>
                  rw [extract_succ hc, extent, hc]
                  exact ReadBuffer.agrees_word 4 4 _
              | int64 | uint64 | double =>
                  rw [extract_succ hc, extent, hc]
                  exact ReadBuffer.agrees_word 8 8 _

end AapBridge.Android
