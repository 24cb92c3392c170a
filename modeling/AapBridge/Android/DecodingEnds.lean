import AapBridge.Android.Extent

/-! # When decoding ends

A `DbusArray` that stands still goes round forever. This is the only way not to
end: every other call is shorter in the signature or further in the buffer. Which
arrays a message has follows from its fixed part, the places of its header fields
and the signature that one of them names.
-/

namespace AapBridge.Android

open AapBridge.Lib Cursor

variable {bb : ReadBuffer}

/-- Some amount of fuel is enough for the work. -/
def Ends (bb : ReadBuffer) : Work → Nat → Prop
  | .extract signature, p => ∃ fuel, extract bb fuel signature p ≠ .runs
  | .struct chars depth, p => ∃ fuel, ∀ i list,
      structLoop (extract bb fuel) chars depth i list p ≠ .runs
  | .array element stop, p => ∃ fuel, ∀ list,
      arrayLoop (extract bb fuel element) stop fuel list p ≠ .runs

/-- What comes after `work` at `p` ends, if it does not stand still. -/
def EndsAfter (bb : ReadBuffer) (work : Work) (p : Nat) : Prop :=
  ∀ work' p', p' ≤ bb.bytes.length → p < p' ∨ p = p' ∧ work'.size < work.size →
    extent bb work' p' ≠ .stands → Ends bb work' p'

theorem EndsAfter.ends {work : Work} {p p' : Nat} (h : EndsAfter bb work p) (work' : Work)
    (hp' : p' ≤ bb.bytes.length) (hle : p ≤ p') (hsize : work'.size < work.size)
    (hmoves : extent bb work' p' ≠ .stands) : Ends bb work' p' := by
  obtain hlt | heq := hle.lt_or_eq
  · exact h work' p' hp' (.inl hlt) hmoves
  · exact h work' p' hp' (.inr ⟨heq, hsize⟩) hmoves

theorem ends_arrayLoop {element : JavaString} {stop : Int} {p fuel fuel' : Nat}
    {list : List DbusObject} (h : arrayLoop (extract bb fuel element) stop fuel list p ≠ .runs)
    (hle : fuel ≤ fuel') : arrayLoop (extract bb fuel' element) stop fuel' list p ≠ .runs := by
  rw [(below_arrayLoop (below_extract bb hle element) stop hle list p).ends h]
  exact h

theorem ends_structLoop {chars : JavaString} {depth : Int} {i p fuel fuel' : Nat}
    {list : List DbusObject} (h : structLoop (extract bb fuel) chars depth i list p ≠ .runs)
    (hle : fuel ≤ fuel') : structLoop (extract bb fuel') chars depth i list p ≠ .runs := by
  rw [(below_structLoop (below_extract bb hle) chars depth i list p).ends h]
  exact h

theorem ends_extract {signature : JavaString} {p fuel fuel' : Nat}
    (h : extract bb fuel signature p ≠ .runs) (hle : fuel ≤ fuel') :
    extract bb fuel' signature p ≠ .runs := by
  rw [(below_extract bb hle signature p).ends h]
  exact h

theorem map_ends {α β : Type} {o : Outcome α} (h : o ≠ .runs) (g : α → β) :
    (o.bind fun a p => .returns (g a) p) ≠ .runs := by
  cases o with
  | returns a p => exact fun heq => by cases heq
  | throws p => exact fun heq => by cases heq
  | runs => exact absurd rfl h

/-- The extent of a call that has returned. -/
theorem extent_of_returns {fuel : Nat} {signature : JavaString} {p p' : Nat} {object : DbusObject}
    (h : extract bb fuel signature p = .returns object p') (hp : p ≤ bb.bytes.length) :
    ∃ n, p' = p + n ∧ extent bb (.extract signature) p = .takes n := by
  have hagrees := agrees_extract bb fuel signature p hp
  rw [h] at hagrees
  exact hagrees

/-- What stands still ends with no amount of fuel. -/
theorem runs_of_stands {signature : JavaString} {p : Nat} (hp : p ≤ bb.bytes.length)
    (h : extent bb (.extract signature) p = .stands) (fuel : Nat) :
    extract bb fuel signature p = .runs := by
  have hagrees := agrees_extract bb fuel signature p hp
  rw [h] at hagrees
  cases hresult : extract bb fuel signature p with
  | returns object p' =>
      rw [hresult] at hagrees
      obtain ⟨n, -, heq⟩ := hagrees
      cases heq
  | throws p' =>
      rw [hresult] at hagrees
      obtain ⟨n, -, heq⟩ := hagrees
      cases heq
  | runs => rfl

/-! ## Everything else ends -/

theorem ends_array {element : JavaString} {stop : Int} {p : Nat} (hp : p ≤ bb.bytes.length)
    (ih : EndsAfter bb (.array element stop) p) (h : extent bb (.array element stop) p ≠ .stands) :
    Ends bb (.array element stop) p := by
  by_cases hstop : (p : Int) < stop
  · rw [extent_round hstop] at h
    have helement : extent bb (.extract element) p ≠ .stands := by
      intro hstands
      rw [hstands] at h
      exact h rfl
    obtain ⟨fuel, hfuel⟩ := ih.ends (.extract element) hp (Nat.le_refl p) (by simp [Work.size]) helement
    cases hobject : extract bb fuel element p with
    | returns object p' =>
        have hle := extract_returns_le hobject hp
        obtain ⟨n, rfl, hextent⟩ := extent_of_returns hobject hp
        rw [hextent] at h
        dsimp only at h
        split at h
        · next hmoves =>
          have hnext : extent bb (.array element stop) (p + n) ≠ .stands :=
            fun heq => h (Extent.behind_eq_stands.mpr heq)
          obtain ⟨fuel', hrest⟩ := ih (.array element stop) (p + n) hle.2 (.inl (by omega)) hnext
          refine ⟨max fuel fuel' + 1, fun list => ?_⟩
          have hmore := ends_arrayLoop (hrest (list ++ [object])) (Nat.le_max_right fuel fuel')
          have hfurther : max fuel fuel' ≤ max fuel fuel' + 1 := Nat.le_succ _
          rw [arrayLoop_round hstop, extract_more hobject (by rw [← hobject]; exact hfuel) (by omega),
            Outcome.bind_returns, (below_arrayLoop (below_extract bb hfurther element) stop
              (Nat.le_refl _) _ (p + n)).ends hmore]
          exact hmore
        · exact absurd rfl h
    | throws p' =>
        refine ⟨fuel + 1, fun list => ?_⟩
        rw [arrayLoop_round hstop, extract_more hobject (by rw [← hobject]; exact hfuel) (Nat.le_succ fuel)]
        exact fun heq => by cases heq
    | runs => exact absurd hobject hfuel
  · refine ⟨1, fun list => ?_⟩
    rw [arrayLoop_end hstop]
    exact fun heq => by cases heq

/-- The test at the end of a round ends with what follows it. -/
theorem ends_structNext {rest : JavaString} {depth : Int} {p : Nat}
    (h : 0 < depth → Ends bb (.struct rest depth) p) :
    ∃ fuel, ∀ fuel' ≥ fuel, ∀ i list, structNext (extract bb fuel') rest depth i list p ≠ .runs := by
  by_cases hdepth : 0 < depth
  · obtain ⟨fuel, hfuel⟩ := h hdepth
    refine ⟨fuel, fun fuel' hle i list => ?_⟩
    rw [structNext, if_pos hdepth]
    exact ends_structLoop (hfuel i list) hle
  · refine ⟨0, fun fuel' _ i list => ?_⟩
    rw [structNext, if_neg hdepth]
    exact fun heq => by cases heq

theorem ends_struct {chars : JavaString} {depth : Int} {p : Nat} (hp : p ≤ bb.bytes.length)
    (ih : EndsAfter bb (.struct chars depth) p) (h : extent bb (.struct chars depth) p ≠ .stands) :
    Ends bb (.struct chars depth) p := by
  cases chars with
  | nil => exact ⟨0, fun _ _ heq => by cases heq⟩
  | cons c rest =>
      have hrest : ∀ depth p', p' ≤ bb.bytes.length → p ≤ p' →
          extent bb (.struct rest depth) p' ≠ .stands → Ends bb (.struct rest depth) p' :=
        fun depth p' hp' hle => ih.ends (.struct rest depth) hp' hle (by simp [Work.size])
      by_cases hopen : c = 0x28
      · subst hopen
        rw [extent, if_pos rfl] at h
        obtain ⟨fuel, hfuel⟩ := ends_structNext fun hdepth =>
          hrest (depth + 1) p hp (Nat.le_refl p) (by rwa [if_pos hdepth] at h)
        refine ⟨fuel, fun i list => ?_⟩
        rw [structLoop_open]
        exact hfuel fuel (Nat.le_refl _) (i + 1) list
      · by_cases hclose : c = 0x29
        · subst hclose
          rw [extent, if_neg hopen, if_pos rfl] at h
          obtain ⟨fuel, hfuel⟩ := ends_structNext fun hdepth =>
            hrest (depth - 1) p hp (Nat.le_refl p) (by rwa [if_pos hdepth] at h)
          refine ⟨fuel, fun i list => ?_⟩
          rw [structLoop_close]
          exact hfuel fuel (Nat.le_refl _) (i + 1) list
        · rw [extent_field hopen hclose] at h
          have hfield : extent bb (.extract (c :: rest)) p ≠ .stands := by
            intro hstands
            rw [hstands] at h
            exact h rfl
          obtain ⟨fuel, hfuel⟩ := ih.ends (.extract (c :: rest)) hp (Nat.le_refl p)
            (by simp [Work.size]) hfield
          cases hobject : extract bb fuel (c :: rest) p with
          | returns object p' =>
              have hle := extract_returns_le hobject hp
              obtain ⟨n, rfl, hextent⟩ := extent_of_returns hobject hp
              rw [hextent] at h
              obtain ⟨fuel', hnext⟩ := ends_structNext fun hdepth =>
                hrest depth (p + n) hle.2 hle.1 (by
                  intro hstands
                  dsimp only at h
                  rw [if_pos hdepth, hstands] at h
                  exact h rfl)
              refine ⟨max fuel fuel', fun i list => ?_⟩
              have hmore := extract_more hobject (by rw [← hobject]; exact hfuel)
                (Nat.le_max_left fuel fuel')
              rw [structLoop_field hopen hclose, bind_apply, attempt_of_returns hmore,
                Outcome.bind_returns]
              exact hnext _ (Nat.le_max_right fuel fuel') (i + 1) (list ++ [object])
          | throws p' =>
              refine ⟨fuel, fun i list => ?_⟩
              rw [structLoop_field hopen hclose, bind_apply, attempt_of_throws hobject]
              exact fun heq => by cases heq
          | runs => exact absurd hobject hfuel

/-- A key, and the value behind it. -/
theorem ends_pair {c : CodeUnit} {rest : JavaString} {p : Nat} (hp : p ≤ bb.bytes.length)
    (hkey : Ends bb (.extract rest) p)
    (hvalue : ∀ m, p + m ≤ bb.bytes.length → extent bb (.extract rest) p = .takes m →
      Ends bb (.extract (rest.drop 1)) (p + m)) :
    ∃ fuel, ((extract bb fuel rest p).bind fun key position =>
      (extract bb fuel (rest.drop 1) position).bind fun value position =>
        .returns (DbusObject.dictEntry (c :: rest) key value) position) ≠ .runs := by
  obtain ⟨fuel, hfuel⟩ := hkey
  cases hresult : extract bb fuel rest p with
  | returns key p' =>
      have hle := extract_returns_le hresult hp
      obtain ⟨m, rfl, hextent⟩ := extent_of_returns hresult hp
      obtain ⟨fuel', hfuel'⟩ := hvalue m hle.2 hextent
      refine ⟨max fuel fuel', ?_⟩
      rw [extract_more hresult (by rw [← hresult]; exact hfuel) (Nat.le_max_left fuel fuel'),
        Outcome.bind_returns]
      exact map_ends (ends_extract hfuel' (Nat.le_max_right fuel fuel')) _
  | throws p' =>
      refine ⟨fuel, ?_⟩
      rw [hresult]
      exact fun heq => by cases heq
  | runs => exact absurd hresult hfuel

theorem ends_value {signature : JavaString} {p : Nat}
    (ih : EndsAfter bb (.extract signature) p) (h : extent bb (.extract signature) p ≠ .stands) :
    Ends bb (.extract signature) p := by
  cases signature with
  | nil => exact ⟨1, fun heq => by cases heq⟩
  | cons c rest =>
      -- one more than the fuel of what is called
      have hsucc : ∀ {o : Nat → Outcome DbusObject},
          (∀ fuel, extract bb (fuel + 1) (c :: rest) p = o fuel) → (∃ fuel, o fuel ≠ .runs) →
          Ends bb (.extract (c :: rest)) p := by
        intro o heq hends
        obtain ⟨fuel, hfuel⟩ := hends
        exact ⟨fuel + 1, by rw [heq]; exact hfuel⟩
      cases hc : extractors c with
      | none =>
          refine ⟨1, ?_⟩
          rw [extract, hc]
          exact fun heq => by cases heq
      | some extractor =>
          by_cases hbasic : extractor.basic
          · exact ⟨1, by rw [extract_succ hc]; exact total_parse bb hbasic _ _ _ p⟩
          · cases extractor with
            | array =>
                apply hsucc fun fuel => extract_array hc fuel rest p
                rw [extent_array hc] at h
                rw [arrayEnd_eq]
                cases hfixed : bb.fixedExtent 4 4 p with
                | takes n =>
                    rw [hfixed] at h
                    have hle := (ReadBuffer.fixedExtent_takes hfixed).2.1
                    obtain ⟨fuel, hfuel⟩ := ih.ends (.array rest _) hle (Nat.le_add_right p n)
                      (by simp [Work.size]; omega) fun heq => h (Extent.behind_eq_stands.mpr heq)
                    exact ⟨fuel, map_ends (hfuel []) _⟩
                | breaks n => exact ⟨0, fun heq => by cases heq⟩
                | stands =>
                    rw [hfixed] at h
                    exact absurd rfl h
            | struct =>
                apply hsucc fun fuel => extract_struct hc fuel rest p
                rw [extent_struct hc] at h
                rw [ReadBuffer.align_eq]
                cases hfixed : bb.fixedExtent 8 0 p with
                | takes n =>
                    rw [hfixed] at h
                    have hle := (ReadBuffer.fixedExtent_takes hfixed).2.1
                    obtain ⟨fuel, hfuel⟩ := ih.ends (.struct rest 1) hle (Nat.le_add_right p n)
                      (by simp [Work.size]; omega) fun heq => h (Extent.behind_eq_stands.mpr heq)
                    exact ⟨fuel, map_ends (hfuel 1 []) _⟩
                | breaks n => exact ⟨0, fun heq => by cases heq⟩
                | stands =>
                    rw [hfixed] at h
                    exact absurd rfl h
            | dictEntry =>
                apply hsucc fun fuel => extract_dictEntry hc fuel rest p
                rw [extent_dictEntry hc] at h
                rw [ReadBuffer.align_eq]
                cases hfixed : bb.fixedExtent 8 0 p with
                | takes n =>
                    rw [hfixed] at h
                    have hle := (ReadBuffer.fixedExtent_takes hfixed).2.1
                    have hpair := fun heq => h (Extent.behind_eq_stands.mpr heq)
                    have hkey : extent bb (.extract rest) (p + n) ≠ .stands := by
                      intro hstands
                      rw [hstands] at hpair
                      exact hpair rfl
                    apply ends_pair hle
                    · exact ih.ends (.extract rest) hle (Nat.le_add_right p n) (by simp [Work.size]) hkey
                    · intro m hend hextent
                      rw [hextent] at hpair
                      exact ih.ends (.extract (rest.drop 1)) hend (by omega) (by simp [Work.size])
                        fun heq => hpair (Extent.behind_eq_stands.mpr heq)
                | breaks n => exact ⟨0, fun heq => by cases heq⟩
                | stands =>
                    rw [hfixed] at h
                    exact absurd rfl h
            | variant =>
                apply hsucc fun fuel => extract_variant hc fuel rest p
                rw [extent_variant hc] at h
                rw [ReadBuffer.dbusSignature_eq]
                split at h
                · next hfits =>
                  rw [if_pos hfits]
                  obtain ⟨fuel, hfuel⟩ := ih (.extract (bb.signatureText p)) _ hfits (.inl (by omega))
                    fun heq => h (Extent.behind_eq_stands.mpr heq)
                  exact ⟨fuel, map_ends hfuel _⟩
                · next hfits =>
                  rw [if_neg hfits]
                  exact ⟨0, fun heq => by cases heq⟩
            | _ => exact absurd rfl hbasic

theorem ends (work : Work) {p : Nat} (hp : p ≤ bb.bytes.length) (h : extent bb work p ≠ .stands) :
    Ends bb work p := by
  have ih : EndsAfter bb work p := fun work' p' hp' hafter h' => ends work' hp' h'
  cases work with
  | extract signature => exact ends_value ih h
  | struct chars depth => exact ends_struct hp ih h
  | array element stop => exact ends_array hp ih h
termination_by (bb.bytes.length - p, work.size)
decreasing_by
  apply lex_of_le
  · omega
  · omega

/-! ## The header fields -/

/-- What can be told of a header field without its value: the code, the signature of
the variant, and where the value begins. -/
structure HeaderField where
  code : UInt8
  signature : JavaString
  value : Nat

/-- The header field at `p`, if it is complete. -/
def headerFieldAt (bb : ReadBuffer) (p : Nat) : Option HeaderField :=
  let begin := aligned 8 p
  match bb.bytes[begin]? with
  | none => none
  | some code =>
      let value := begin + 1 + (1 + bb.signatureLength (begin + 1) + 1)
      if value ≤ bb.bytes.length then
        match extent bb (.extract (bb.signatureText (begin + 1))) value with
        | .takes _ => some ⟨code, bb.signatureText (begin + 1), value⟩
        | _ => none
      else none

/-- The value is of the type that goes with the code. -/
def HeaderField.typed (field : HeaderField) : Bool :=
  let type := field.signature.head?.bind extractors
  match field.code.toNat with
  | 1 => type = some .objectPath
  | 2 | 3 | 4 | 6 | 7 => type = some .string
  | 5 | 9 => type = some .int32 ∨ type = some .uint32
  | 8 => type = some .signature
  | _ => true

/-- Where the elements of an array begin. -/
def elementStarts (bb : ReadBuffer) (element : JavaString) (stop : Int) (p : Nat) : List Nat :=
  if (p : Int) < stop then
    match extent bb (.extract element) p with
    | .takes n =>
        if 0 < n ∧ p < bb.bytes.length then p :: elementStarts bb element stop (p + n) else []
    | _ => []
  else []
termination_by bb.bytes.length - p
decreasing_by omega

/-- The signature known after the header field at `p`. -/
def fieldSignature (bb : ReadBuffer) (known : Option JavaString) (p : Nat) :
    Option (Option JavaString) :=
  (headerFieldAt bb p).bind fun field =>
    if field.typed then
      some (if field.code.toNat = 8 then some (bb.signatureText field.value) else known)
    else none

/-- The signature of the body; `none` for a header that is no header. -/
def bodySignature (bb : ReadBuffer) (starts : List Nat) : Option (Option JavaString) :=
  starts.foldlM (fieldSignature bb) none

/-- Where the header ends, and the signature it names; `none` if it is not gone through. -/
def headerLayout (bb : ReadBuffer) : Option (Nat × Option JavaString) :=
  match extent bb (.extract DbusMessage.headerSignature) 12 with
  | .takes n =>
      let stop := (BitVec.ofNat 32 16 + bb.wordAt 12).toInt
      let starts := elementStarts bb (DbusMessage.headerSignature.drop 1) stop 16
      (bodySignature bb starts).map fun signature => (12 + n, signature)
  | _ => none

/-- Behind the fixed part an array of the header stands still, or one of the arguments. -/
def MessageStands (bb : ReadBuffer) : Prop :=
  extent bb (.extract DbusMessage.headerSignature) 12 = .stands ∨
    ∃ p signature, headerLayout bb = some (p, some signature) ∧
      extent bb (.extract (DbusMessage.bracketed signature)) p = .stands

section

variable {p : Nat}

/-- The elements that a loop has gone through lie where `extent` says. -/
theorem arrayLoop_starts {element : JavaString} {stop : Int} {fuel rounds p' : Nat}
    {list elements : List DbusObject} (hp : p ≤ bb.bytes.length)
    (h : arrayLoop (extract bb fuel element) stop rounds list p = .returns elements p') :
    ∃ objects, elements = list ++ objects ∧
      List.Forall₂ (fun start object => start ≤ bb.bytes.length ∧
        ∃ next, extract bb fuel element start = .returns object next)
        (elementStarts bb element stop p) objects := by
  induction rounds generalizing list p with
  | zero => cases h
  | succ rounds ih =>
      by_cases hstop : (p : Int) < stop
      · rw [arrayLoop_round hstop] at h
        obtain ⟨object, next, hobject, hrest⟩ := Outcome.bind_eq_returns h
        have hle := extract_returns_le hobject hp
        obtain ⟨n, rfl, hextent⟩ := extent_of_returns hobject hp
        rw [elementStarts, if_pos hstop, hextent]
        dsimp only
        split
        · obtain ⟨objects, helements, hall⟩ := ih hle.2 hrest
          refine ⟨object :: objects, ?_, .cons ⟨hp, _, hobject⟩ hall⟩
          rw [helements, List.append_assoc]
          rfl
        · have hzero : n = 0 := by omega
          subst hzero
          rw [Nat.add_zero, arrayLoop_still hstop hobject] at hrest
          cases hrest
      · rw [arrayLoop_end hstop] at h
        cases h
        refine ⟨[], (List.append_nil _).symm, ?_⟩
        rw [elementStarts, if_neg hstop]
        exact .nil

end

/-! ## What becomes of a header field -/

/-- No known header field holds such an object. -/
def DbusObject.OfNoField : DbusObject → Prop
  | .objectPath _ | .java (.string _) | .java (.integer _) | .signature _ => False
  | _ => True

/-- What is extracted for a type, as far as `parseHeader` casts it. -/
def Extractor.Makes (bb : ReadBuffer) (p : Nat) (object : DbusObject) : Extractor → Prop
  | .objectPath => ∃ path, object = .objectPath path
  | .string => ∃ text, object = .java (.string text)
  | .int32 | .uint32 => ∃ value, object = .java (.integer value)
  | .signature => object = .signature (bb.signatureText p)
  | _ => object.OfNoField

/-- What a call returns is what the part before the last step returned. -/
theorem map_returns {α β : Type} {o : Outcome α} {g : α → β} {b : β} {p : Nat}
    (h : (o.bind fun a p => .returns (g a) p) = .returns b p) : ∃ a, o = .returns a p ∧ g a = b := by
  cases o with
  | returns a p' =>
      cases h
      exact ⟨a, rfl, rfl⟩
  | throws p' => cases h
  | runs => cases h

section

variable {p p' fuel : Nat} {object : DbusObject}

theorem extract_makes {c : CodeUnit} {rest : JavaString} {extractor : Extractor}
    (hc : extractors c = some extractor)
    (h : extract bb fuel (c :: rest) p = .returns object p') : extractor.Makes bb p object := by
  cases fuel with
  | zero => cases h
  | succ fuel =>
      have hword : ∀ {α n : Nat} {g : BitVec (8 * n) → DbusObject},
          ((do
            bb.align α
            return g (← bb.getWord n) : Cursor DbusObject) p) = .returns object p' →
          ∃ v, object = g v := by
        intro α n g hg
        obtain ⟨_, q, -, hrest⟩ := Outcome.bind_eq_returns hg
        obtain ⟨v, -, hv⟩ := map_returns hrest
        exact ⟨v, hv.symm⟩
      cases extractor with
      | objectPath =>
          rw [extract_succ hc] at h
          obtain ⟨path, -, hpath⟩ := map_returns h
          exact ⟨path, hpath.symm⟩
      | string =>
          rw [extract_succ hc] at h
          obtain ⟨text, -, htext⟩ := map_returns h
          exact ⟨text, htext.symm⟩
      | int32 | uint32 =>
          rw [extract_succ hc] at h
          exact hword h
      | signature =>
          rw [extract_succ hc] at h
          obtain ⟨text, htext, hobject⟩ := map_returns h
          rw [ReadBuffer.dbusSignature_eq] at htext
          split at htext
          · cases htext
            exact hobject.symm
          · cases htext
      | boolean | double | int16 | int64 | uint16 | uint64 =>
          rw [extract_succ hc] at h
          obtain ⟨v, rfl⟩ := hword h
          trivial
      | byte =>
          rw [extract_succ hc] at h
          obtain ⟨v, -, rfl⟩ := map_returns h
          trivial
      | array =>
          rw [extract_array hc] at h
          obtain ⟨_, _, -, h⟩ := Outcome.bind_eq_returns h
          obtain ⟨v, -, rfl⟩ := map_returns h
          trivial
      | struct =>
          rw [extract_struct hc] at h
          obtain ⟨_, _, -, h⟩ := Outcome.bind_eq_returns h
          obtain ⟨v, -, rfl⟩ := map_returns h
          trivial
      | dictEntry =>
          rw [extract_dictEntry hc] at h
          obtain ⟨_, _, -, h⟩ := Outcome.bind_eq_returns h
          obtain ⟨_, _, -, h⟩ := Outcome.bind_eq_returns h
          obtain ⟨v, -, rfl⟩ := map_returns h
          trivial
      | variant =>
          rw [extract_variant hc] at h
          obtain ⟨_, _, -, h⟩ := Outcome.bind_eq_returns h
          obtain ⟨v, -, rfl⟩ := map_returns h
          trivial

end

/-- The fields of `(yv)`: a byte, and a variant of a value that is complete. -/
theorem structLoop_field_at {fuel p next i : Nat} {list : List DbusObject}
    (h : structLoop (extract bb fuel) [0x79, 0x76, 0x29] 1 1 [] (aligned 8 p) =
      .returns (list, i) next) :
    (headerFieldAt bb p = none ∧ list.length ≤ 1) ∨ ∃ field thing fuel' last,
      headerFieldAt bb p = some field ∧
      list = [.java (.byte field.code), .variant field.signature thing] ∧
      extract bb fuel' field.signature field.value = .returns thing last := by
  rw [structLoop_field (by decide) (by decide), bind_apply] at h
  cases fuel with
  | zero => cases h
  | succ fuel =>
  have hfirst : extract bb (fuel + 1) [0x79, 0x76, 0x29] (aligned 8 p) =
      (bb.get (aligned 8 p)).bind fun b next => .returns (.java (.byte b)) next :=
    extract_succ (show extractors 0x79 = some .byte by decide) fuel _ ▸ rfl
  have hsecond := @extract_variant bb _ (show extractors 0x76 = some .variant by decide) fuel [0x29]
    (aligned 8 p + 1)
  unfold ReadBuffer.get Cursor.byte at hfirst
  rw [ReadBuffer.dbusSignature_eq] at hsecond
  unfold headerFieldAt
  dsimp only
  cases hcode : bb.bytes[aligned 8 p]? with
  | none =>
      rw [hcode] at hfirst
      rw [attempt_of_throws hfirst] at h
      cases h
      exact .inl ⟨rfl, Nat.zero_le 1⟩
  | some code =>
      rw [hcode] at hfirst
      rw [attempt_of_returns hfirst, Outcome.bind_returns] at h
      dsimp only at h ⊢
      rw [structNext, if_pos (by decide), structLoop_field (by decide) (by decide), bind_apply] at h
      split at hsecond
      · next hfits =>
        rw [Outcome.bind_returns] at hsecond
        rw [if_pos hfits]
        have hagrees := agrees_extract bb fuel (bb.signatureText (aligned 8 p + 1)) _ hfits
        cases hthing : extract bb fuel (bb.signatureText (aligned 8 p + 1))
            (aligned 8 p + 1 + (1 + bb.signatureLength (aligned 8 p + 1) + 1)) with
        | returns thing last =>
            rw [hthing] at hsecond hagrees
            obtain ⟨n, -, hextent⟩ := hagrees
            rw [attempt_of_returns hsecond, Outcome.bind_returns] at h
            dsimp only at h
            rw [structNext, if_pos (by decide), structLoop_close, structNext, if_neg (by decide)] at h
            cases h
            rw [hextent]
            exact .inr ⟨_, thing, fuel, _, rfl, rfl, hthing⟩
        | throws last =>
            rw [hthing] at hsecond hagrees
            obtain ⟨n, -, hextent⟩ := hagrees
            rw [attempt_of_throws hsecond] at h
            cases h
            rw [hextent]
            exact .inl ⟨rfl, Nat.le_refl 1⟩
        | runs =>
            rw [hthing] at hsecond
            rw [attempt_of_runs hsecond] at h
            cases h
      · next hfits =>
        rw [if_neg hfits]
        rw [attempt_of_throws hsecond] at h
        cases h
        exact .inl ⟨rfl, Nat.le_refl 1⟩

namespace DbusMessage

variable {message : DbusMessage} {code : UInt8} {object : DbusObject}

/-- Only an unknown code takes what is none of the four types. -/
theorem assign_other (h : object.OfNoField) : message.assign code object =
    if 1 ≤ code.toNat ∧ code.toNat ≤ 9 then none else some message := by
  unfold assign
  split
  any_goals exact absurd h id
  rfl

/-- A value of the right type is taken, and only a signature is one of the body. -/
theorem assign_signature {value : Nat} {c : CodeUnit} {rest : JavaString} {extractor : Extractor}
    (hc : extractors c = some extractor) (h : extractor.Makes bb value object) :
    (message.assign code object).map (·.signature) =
      if (HeaderField.mk code (c :: rest) value).typed then
        some (if code.toNat = 8 then some (bb.signatureText value) else message.signature)
      else none := by
  have htype : (c :: rest).head?.bind extractors = some extractor := hc
  unfold HeaderField.typed
  rw [htype]
  cases extractor with
  | objectPath =>
      obtain ⟨path, rfl⟩ := h
      unfold assign
      dsimp only
      generalize code.toNat = n
      rcases n with _ | _ | _ | _ | _ | _ | _ | _ | _ | _ | n <;> rfl
  | string =>
      obtain ⟨text, rfl⟩ := h
      unfold assign
      dsimp only
      generalize code.toNat = n
      rcases n with _ | _ | _ | _ | _ | _ | _ | _ | _ | _ | n <;> rfl
  | int32 | uint32 =>
      obtain ⟨value, rfl⟩ := h
      unfold assign
      dsimp only
      generalize code.toNat = n
      rcases n with _ | _ | _ | _ | _ | _ | _ | _ | _ | _ | n <;> rfl
  | signature =>
      obtain rfl := h
      unfold assign
      dsimp only
      generalize code.toNat = n
      rcases n with _ | _ | _ | _ | _ | _ | _ | _ | _ | _ | n <;> rfl
  | _ =>
      rw [assign_other h]
      dsimp only
      generalize code.toNat = n
      rcases n with _ | _ | _ | _ | _ | _ | _ | _ | _ | _ | n <;> rfl

theorem parseField_short {signature : JavaString} {list : List DbusObject} (h : list.length ≤ 1) :
    message.parseField (.struct signature list) = none := by
  unfold parseField
  split
  · next heq =>
    cases heq
    simp at h
  · rfl

/-- What `parseHeader` makes of a field follows from where it lies. -/
theorem parseField_signature {p next fuel : Nat}
    (h : extract bb fuel (headerSignature.drop 1) p = .returns object next) :
    (message.parseField object).map (·.signature) = fieldSignature bb message.signature p := by
  cases fuel with
  | zero => cases h
  | succ fuel =>
  rw [show headerSignature.drop 1 = [0x28, 0x79, 0x76, 0x29] from rfl,
    extract_struct (show extractors 0x28 = some .struct by decide)] at h
  obtain ⟨_, start, halign, h⟩ := Outcome.bind_eq_returns h
  obtain ⟨⟨list, i⟩, hloop, rfl⟩ := map_returns h
  have hstart : start = aligned 8 p := by
    unfold ReadBuffer.align Cursor.seek at halign
    split at halign <;> cases halign
    rfl
  subst hstart
  unfold fieldSignature
  obtain ⟨hnone, hshort⟩ | ⟨field, thing, fuel', last, hfield, rfl, hthing⟩ := structLoop_field_at hloop
  · rw [hnone, parseField_short hshort]
    rfl
  · rw [hfield]
    show (message.assign field.code thing).map _ = _
    cases hsignature : field.signature with
    | nil =>
        rw [hsignature] at hthing
        cases fuel' <;> cases hthing
    | cons c rest =>
        rw [hsignature] at hthing
        cases hc : extractors c with
        | none =>
            cases fuel' with
            | zero => cases hthing
            | succ fuel' =>
                rw [extract, hc] at hthing
                cases hthing
        | some extractor =>
            rw [@assign_signature _ _ _ _ _ _ rest _ hc (extract_makes hc hthing), ← hsignature]
            rfl

theorem foldlM_signature {starts : List Nat} {objects : List DbusObject}
    (h : List.Forall₂ (fun start object => start ≤ bb.bytes.length ∧
      ∃ fuel next, extract bb fuel (headerSignature.drop 1) start = .returns object next)
      starts objects) (message : DbusMessage) :
    (objects.foldlM parseField message).map (·.signature) =
      starts.foldlM (fieldSignature bb) message.signature := by
  induction h generalizing message with
  | nil => rfl
  | cons hfield _ ih =>
      obtain ⟨-, fuel, next, hobject⟩ := hfield
      have hparse := @parseField_signature _ message _ _ _ _ hobject
      rw [List.foldlM_cons, List.foldlM_cons, ← hparse]
      cases message.parseField _ with
      | none => rfl
      | some message' => exact ih message'

end DbusMessage

/-! ## The constructor -/

theorem extract_header (bb : ReadBuffer) (fuel p : Nat) :
    extract bb (fuel + 1) DbusMessage.headerSignature p =
      (dbusArray (extract bb fuel) bb fuel DbusMessage.headerSignature p).bind fun elements p =>
        .returns (.array (DbusMessage.headerSignature.drop 1) elements) p := rfl

theorem extract_bracketed (bb : ReadBuffer) (fuel p : Nat) (signature : JavaString) :
    extract bb (fuel + 1) (DbusMessage.bracketed signature) p =
      (dbusStruct (extract bb fuel) bb (DbusMessage.bracketed signature) p).bind fun struct p =>
        .returns (.struct struct.signature struct.tuple) p := rfl

theorem map_runs {α β : Type} {o : Outcome α} {g : α → β}
    (h : (o.bind fun a p => .returns (g a) p) = .runs) : o = .runs :=
  Classical.byContradiction fun hends => map_ends hends g h

namespace DbusMessage

/-- In the message an array stands still before its end. -/
def Stalls (bytes : List UInt8) : Prop :=
  ∃ order, announced bytes = some order ∧ 12 ≤ bytes.length ∧ MessageStands ⟨bytes, order⟩

variable {bytes : List UInt8}

theorem fixedPart_returns (h : 12 ≤ bb.bytes.length) : fixedPart bb 1 = .returns () 12 := by
  have hbyte : ∀ p < 12, ∃ b, bb.get p = .returns b (p + 1) := by
    intro p hp
    refine ⟨bb.bytes[p], ?_⟩
    rw [ReadBuffer.get, Cursor.byte, List.getElem?_eq_getElem (by omega)]
  have hword : ∀ p, p + 4 ≤ 12 → ∃ v, bb.getInt p = .returns v (p + 4) := by
    intro p hp
    refine ⟨bb.wordAt p, ?_⟩
    rw [ReadBuffer.getInt, ReadBuffer.getWord, bind_apply, Cursor.take, if_pos (by omega)]
    rfl
  obtain ⟨_, h1⟩ := hbyte 1 (by omega)
  obtain ⟨_, h2⟩ := hbyte 2 (by omega)
  obtain ⟨_, h3⟩ := hbyte 3 (by omega)
  obtain ⟨_, h4⟩ := hword 4 (by omega)
  obtain ⟨_, h8⟩ := hword 8 (by omega)
  simp only [fixedPart, bind_apply, h1, h2, h3, h4, h8, Outcome.bind_returns, pure_apply]

theorem total_fixedPart : Total (fixedPart bb) := by
  apply total_byte.bind
  intro _
  apply total_byte.bind
  intro _
  apply total_byte.bind
  intro _
  apply Total.bind ((total_take 4).bind fun _ => total_pure _)
  intro _
  exact Total.bind ((total_take 4).bind fun _ => total_pure _) fun _ => total_pure ()

theorem fixedPart_short (h : ¬12 ≤ bb.bytes.length) : ∃ p, fixedPart bb 1 = .throws p := by
  have hbyte : ∀ {p b next}, bb.get p = .returns b next → next = p + 1 := by
    intro p b next hb
    unfold ReadBuffer.get Cursor.byte at hb
    split at hb <;> cases hb
    rfl
  have hword : ∀ {p v next}, bb.getInt p = .returns v next → next = p + 4 ∧ next ≤ bb.bytes.length := by
    intro p v next hv
    obtain ⟨bs, q, htake, hq⟩ := Outcome.bind_eq_returns hv
    cases hq
    unfold Cursor.take at htake
    split at htake
    · next hle =>
      cases htake
      exact ⟨rfl, hle⟩
    · cases htake
  cases hresult : fixedPart bb 1 with
  | throws p => exact ⟨p, rfl⟩
  | runs => exact absurd hresult (total_fixedPart 1)
  | returns _ p =>
      obtain ⟨_, p1, h1, hresult⟩ := Outcome.bind_eq_returns hresult
      obtain ⟨_, p2, h2, hresult⟩ := Outcome.bind_eq_returns hresult
      obtain ⟨_, p3, h3, hresult⟩ := Outcome.bind_eq_returns hresult
      obtain ⟨_, p4, h4, hresult⟩ := Outcome.bind_eq_returns hresult
      obtain ⟨_, p5, h5, hresult⟩ := Outcome.bind_eq_returns hresult
      have hfirst := hbyte h1
      have hsecond := hbyte h2
      have hthird := hbyte h3
      have hsize := hword h4
      have hserial := hword h5
      omega

theorem header_stop : arrayEnd bb 12 =
    if 16 ≤ bb.bytes.length then .returns (BitVec.ofNat 32 16 + bb.wordAt 12).toInt 16
    else .throws 12 := by
  have haligned : aligned 4 12 = 12 := rfl
  rw [arrayEnd_eq, ReadBuffer.fixedExtent, haligned]
  by_cases hfits : 12 + 4 ≤ bb.bytes.length
  · rw [if_pos (show 12 ≤ _ by omega), if_pos hfits, if_pos hfits]
  · rw [if_neg hfits, if_neg hfits, Nat.sub_self, ite_self]

/-- A header that is read has its fields where `extent` says. -/
theorem parseHeader_signature {fuel p : Nat} {elements : List DbusObject}
    (h : dbusArray (extract bb fuel) bb fuel headerSignature 12 = .returns elements p) :
    (parseHeader elements).map (·.signature) = bodySignature bb (elementStarts bb
      (headerSignature.drop 1) (BitVec.ofNat 32 16 + bb.wordAt 12).toInt 16) := by
  obtain ⟨stop, q, hstop, hloop⟩ := Outcome.bind_eq_returns h
  rw [header_stop] at hstop
  split at hstop
  · next hfits =>
    cases hstop
    obtain ⟨objects, helements, hall⟩ := arrayLoop_starts hfits hloop
    rw [List.nil_append] at helements
    subst helements
    exact foldlM_signature (hall.imp fun start object hstart => ⟨hstart.1, fuel, hstart.2⟩) initial
  · cases hstop

/-- What the header array returns is what is laid out. -/
theorem dbusArray_layout {fuel p : Nat} {elements : List DbusObject} (hlength : 12 ≤ bb.bytes.length)
    (h : dbusArray (extract bb fuel) bb fuel headerSignature 12 = .returns elements p) :
    p ≤ bb.bytes.length ∧
      headerLayout bb = (parseHeader elements).map fun message => (p, message.signature) := by
  have hobject : extract bb (fuel + 1) headerSignature 12 =
      .returns (.array (headerSignature.drop 1) elements) p := by
    rw [extract_header, h]
    rfl
  refine ⟨(extract_returns_le hobject hlength).2, ?_⟩
  obtain ⟨n, rfl, hextent⟩ := extent_of_returns hobject hlength
  rw [headerLayout, hextent]
  dsimp only
  rw [← parseHeader_signature h, Option.map_map]
  rfl

theorem dbusArray_runs {fuel : Nat} (hlength : 12 ≤ bb.bytes.length)
    (h : extent bb (.extract headerSignature) 12 = .stands) :
    dbusArray (extract bb fuel) bb fuel headerSignature 12 = .runs := by
  have hruns := runs_of_stands hlength h (fuel + 1)
  rw [extract_header] at hruns
  exact map_runs hruns

theorem dbusArray_ends (hlength : 12 ≤ bb.bytes.length)
    (h : extent bb (.extract headerSignature) 12 ≠ .stands) :
    ∃ fuel, dbusArray (extract bb fuel) bb fuel headerSignature 12 ≠ .runs := by
  obtain ⟨fuel, hfuel⟩ := ends (.extract headerSignature) hlength h
  refine ⟨fuel, fun hruns => ?_⟩
  have hmore : extract bb (fuel + 1) headerSignature 12 ≠ .runs := ends_extract hfuel (Nat.le_succ fuel)
  rw [extract_header, hruns] at hmore
  exact hmore rfl

/-- A header that is laid out is read, with enough fuel. -/
theorem dbusArray_of_layout {p : Nat} {signature : Option JavaString} (hlength : 12 ≤ bb.bytes.length)
    (h : headerLayout bb = some (p, signature)) :
    ∃ fuel elements message,
      dbusArray (extract bb fuel) bb fuel headerSignature 12 = .returns elements p ∧
        parseHeader elements = some message ∧ message.signature = signature := by
  have htakes : ∃ n, extent bb (.extract headerSignature) 12 = .takes n := by
    unfold headerLayout at h
    split at h
    · next n hextent => exact ⟨n, hextent⟩
    · cases h
  obtain ⟨n, hextent⟩ := htakes
  obtain ⟨fuel, hfuel⟩ := dbusArray_ends hlength (by rw [hextent]; exact fun heq => by cases heq)
  have hagrees := agrees_extract bb (fuel + 1) headerSignature 12 hlength
  rw [extract_header, hextent] at hagrees
  cases harray : dbusArray (extract bb fuel) bb fuel headerSignature 12 with
  | runs => exact absurd harray hfuel
  | throws p =>
      rw [harray] at hagrees
      obtain ⟨m, -, hm⟩ := hagrees
      cases hm
  | returns elements p' =>
      have hlayout := (dbusArray_layout hlength harray).2
      rw [h] at hlayout
      obtain ⟨message, hparse, heq⟩ := Option.map_eq_some_iff.mp hlayout.symm
      cases heq
      exact ⟨fuel, elements, message, harray, hparse, rfl⟩

theorem dbusArray_more {fuel fuel' p : Nat} {elements : List DbusObject}
    (h : dbusArray (extract bb fuel) bb fuel headerSignature 12 = .returns elements p)
    (hle : fuel ≤ fuel') :
    dbusArray (extract bb fuel') bb fuel' headerSignature 12 = .returns elements p := by
  have hbelow : Outcome.Below (dbusArray (extract bb fuel) bb fuel headerSignature 12)
      (dbusArray (extract bb fuel') bb fuel' headerSignature 12) :=
    below_dbusArray (below_extract bb hle) hle headerSignature 12
  rw [h] at hbelow
  exact hbelow.ends (fun heq => by cases heq)

/-- Behind the header the constructor reads the arguments. -/
theorem construct_of_header {fuel p : Nat} {elements : List DbusObject} {message : DbusMessage}
    (hlength : 12 ≤ bb.bytes.length)
    (harray : dbusArray (extract bb fuel) bb fuel headerSignature 12 = .returns elements p)
    (hparse : parseHeader elements = some message) :
    construct bb fuel 1 = readArguments bb fuel message p := by
  rw [construct_eq (fixedPart_returns hlength), harray, Outcome.bind_returns, hparse]

theorem stalls_new (h : Stalls bytes) (fuel : Nat) : new bytes fuel = .runs := by
  obtain ⟨order, horder, hlength, hstands⟩ := h
  rw [new_announced horder, Constructed.of_eq_runs]
  obtain hheader | ⟨p, signature, hlayout, hstands⟩ := hstands
  · rw [construct_eq (fixedPart_returns hlength), dbusArray_runs hlength hheader, Outcome.bind_runs]
  · obtain ⟨least, elements, message, harray, hparse, hsignature⟩ :=
      @dbusArray_of_layout ⟨bytes, order⟩ _ _ hlength hlayout
    have hle := (dbusArray_layout hlength harray).1
    have hruns : construct ⟨bytes, order⟩ (fuel + least) 1 = .runs := by
      rw [construct_of_header hlength (dbusArray_more harray (Nat.le_add_left least fuel)) hparse,
        readArguments_signature hsignature, bind_apply]
      have hstruct := runs_of_stands hle hstands (fuel + least + 1)
      rw [extract_bracketed] at hstruct
      rw [map_runs hstruct, Outcome.bind_runs]
    apply Classical.byContradiction
    intro hends
    have hmore := (below_construct ⟨bytes, order⟩ (Nat.le_add_right fuel least) 1).ends hends
    rw [hruns] at hmore
    exact hends hmore.symm

/-- Reading the arguments ends where their struct does. -/
theorem readArguments_ends {message : DbusMessage} {p : Nat} (hp : p ≤ bb.bytes.length)
    (h : ∀ signature, message.signature = some signature →
      extent bb (.extract (bracketed signature)) p ≠ .stands) (fuel : Nat) :
    ∃ fuel' ≥ fuel, readArguments bb fuel' message p ≠ .runs := by
  cases hsignature : message.signature with
  | none =>
      refine ⟨fuel, Nat.le_refl fuel, ?_⟩
      rw [readArguments, hsignature]
      exact fun heq => by cases heq
  | some signature =>
      obtain ⟨fuel', hfuel'⟩ := ends (.extract (bracketed signature)) hp (h signature hsignature)
      refine ⟨max fuel fuel', Nat.le_max_left fuel fuel', ?_⟩
      rw [readArguments_signature hsignature]
      have hstruct : dbusStruct (extract bb (max fuel fuel')) bb (bracketed signature) p ≠ .runs := by
        intro hrun
        have hmore : extract bb (max fuel fuel' + 1) (bracketed signature) p ≠ .runs :=
          ends_extract hfuel' (by omega)
        rw [extract_bracketed, hrun] at hmore
        exact hmore rfl
      exact map_ends hstruct _

theorem construct_ends (hlength : 12 ≤ bb.bytes.length) (h : ¬MessageStands bb) :
    ∃ fuel, construct bb fuel 1 ≠ .runs := by
  obtain ⟨fuel, hfuel⟩ := dbusArray_ends hlength fun hstands => h (.inl hstands)
  cases harray : dbusArray (extract bb fuel) bb fuel headerSignature 12 with
  | runs => exact absurd harray hfuel
  | throws p =>
      refine ⟨fuel, ?_⟩
      rw [construct_eq (fixedPart_returns hlength), harray]
      exact fun heq => by cases heq
  | returns elements p =>
      obtain ⟨hle, hlayout⟩ := dbusArray_layout hlength harray
      cases hparse : parseHeader elements with
      | none =>
          refine ⟨fuel, ?_⟩
          rw [construct_eq (fixedPart_returns hlength), harray, Outcome.bind_returns, hparse]
          exact fun heq => by cases heq
      | some message =>
          have harguments : ∀ signature, message.signature = some signature →
              extent bb (.extract (bracketed signature)) p ≠ .stands := by
            intro signature hsignature hstands
            apply h
            refine .inr ⟨p, signature, ?_, hstands⟩
            rw [hlayout, hparse, Option.map_some, hsignature]
          obtain ⟨fuel', hle', hends⟩ := readArguments_ends hle harguments fuel
          refine ⟨fuel', ?_⟩
          rw [construct_of_header hlength (dbusArray_more harray hle') hparse]
          exact hends

theorem new_ends (h : ¬Stalls bytes) : ∃ fuel, new bytes fuel ≠ .runs := by
  cases horder : announced bytes with
  | none => exact ⟨0, (new_unannounced horder 0 0).1⟩
  | some order =>
      have hconstruct : ∃ fuel, construct ⟨bytes, order⟩ fuel 1 ≠ .runs := by
        by_cases hlength : 12 ≤ bytes.length
        · exact construct_ends hlength fun hstands => h ⟨order, horder, hlength, hstands⟩
        · obtain ⟨p, hp⟩ := @fixedPart_short ⟨bytes, order⟩ hlength
          refine ⟨0, ?_⟩
          show (fixedPart ⟨bytes, order⟩ 1).bind _ ≠ _
          rw [hp]
          exact fun heq => by cases heq
      obtain ⟨fuel, hfuel⟩ := hconstruct
      refine ⟨fuel, ?_⟩
      rw [new_announced horder]
      exact fun heq => hfuel (Constructed.of_eq_runs.mp heq)

/-- The constructor ends, by returning or by throwing, exactly when no array of
the message stands before its end at an element that takes up no bytes. -/
theorem constructor_ends_iff (bytes : List UInt8) :
    (∃ fuel, new bytes fuel ≠ .runs) ↔ ¬Stalls bytes :=
  ⟨fun ⟨fuel, hfuel⟩ h => hfuel (stalls_new h fuel), new_ends⟩

/-- A header array of one byte at the end of the buffer: its struct is empty, and
so is the next one. -/
theorem constructor_goes_round : ¬∃ fuel, new
    [0x6C, 2, 1, 1, 0, 0, 0, 0, 1, 0, 0, 0, 1, 0, 0, 0] fuel ≠ .runs := by
  intro h
  obtain ⟨fuel, hfuel⟩ := h
  apply hfuel
  apply stalls_new
  refine ⟨.littleEndian, rfl, by decide, ?_⟩
  have hstands : extent ⟨[0x6C, 2, 1, 1, 0, 0, 0, 0, 1, 0, 0, 0, 1, 0, 0, 0], .littleEndian⟩
      (.extract headerSignature) 12 = .stands := by
    have hstop : (BitVec.ofNat 32 16 + (⟨[0x6C, 2, 1, 1, 0, 0, 0, 0, 1, 0, 0, 0, 1, 0, 0, 0],
        .littleEndian⟩ : ReadBuffer).wordAt 12).toInt = 17 := by decide
    rw [show headerSignature = [0x61, 0x28, 0x79, 0x76, 0x29] from rfl,
      extent_array (show extractors 0x61 = some .array by decide)]
    simp [hstop, extent, extractors, ReadBuffer.fixedExtent, aligned, Extent.behind]
  exact .inl hstands

end DbusMessage

end AapBridge.Android
