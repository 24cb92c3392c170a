import AapBridge.Accessory.Dispatch
import AapBridge.Android.Requests
import AapBridge.Wire.MethodCall

/-! # Signal filters across the wire

The strings given to `DbusSignals`, the request that carries them, and the match
rule that `SignalsInit` makes of it. The rule puts each string between
apostrophes as it is, so an apostrophe in it ends the value.
-/

namespace AapBridge.Wire

open AapBridge.Lib AapBridge.Lib.CMemory
open AapBridge.Accessory AapBridge.Android

/-- The strings of the constructor of `DbusSignals`, each of which may be `null`. -/
structure SignalFilter where
  busname : Option (List CodeUnit)
  objectpath : Option (List CodeUnit)
  interfaceName : Option (List CodeUnit)
  signalName : Option (List CodeUnit)

/-- What the constructor puts into its buffer; none if it overflows. -/
def dbusSignals (f : SignalFilter) : Option ByteBuffer :=
  ((putName (f.busname.getD []) (ByteBuffer.allocate 3000).clear).bind fun bb =>
  (putName (f.objectpath.getD []) bb).bind fun bb =>
  (putName (f.interfaceName.getD []) bb).bind fun bb =>
  putName (f.signalName.getD []) bb).map ByteBuffer.flip

/-- The payload of the request with these arguments. -/
def signalsRequest (f : SignalFilter) : Option (List UInt8) :=
  (dbusSignals f).bind fun bb =>
    let filled := ServiceRequest.fill ⟨3, bb.contents⟩ (ByteBuffer.allocate 4000)
    if filled.2 then some filled.1.contents else none

def ascii (text : String) : List UInt8 := text.toList.map fun c => UInt8.ofNat c.toNat

def createRule (busname objectpath interface member : List UInt8) : List UInt8 :=
  let rule := ascii "type='signal'"
  let rule := if busname ≠ [] then rule ++ ascii ",sender='" ++ busname ++ ascii "'" else rule
  let rule := if objectpath ≠ [] then rule ++ ascii ",path='" ++ objectpath ++ ascii "'" else rule
  let rule := if interface ≠ [] then rule ++ ascii ",interface='" ++ interface ++ ascii "'" else rule
  if member ≠ [] then rule ++ ascii ",member='" ++ member ++ ascii "'" else rule

/-- The rule that `SignalsInit` adds for the strings at `compressed_rule`. -/
def signalRule (mem : List UInt8) (compressed_rule : Nat) : Option (List UInt8) :=
  (afterString mem compressed_rule).bind fun objectpath =>
  (afterString mem objectpath).bind fun interfacename =>
  (afterString mem interfacename).bind fun signalname =>
  (cstring mem compressed_rule).bind fun busname =>
  (cstring mem objectpath).bind fun objectpath =>
  (cstring mem interfacename).bind fun interfacename =>
  (cstring mem signalname).map fun signalname =>
  createRule busname objectpath interfacename signalname

/-! ## The syntax of match rules -/

/-- Where a reader of a match rule is: within a key, in front of a value, within a
value, or behind one. -/
inductive RuleState where
  | key (read : List UInt8)
  | opens (key : List UInt8)
  | value (key read : List UInt8)
  | closed

/-- Pairs `key='value'` with commas between them; an apostrophe ends the value. -/
def readRule : RuleState → List UInt8 → Option (List (List UInt8 × List UInt8))
  | .closed, [] => some []
  | _, [] => none
  | .key read, c :: text =>
      if c = 0x3D then readRule (.opens read) text else readRule (.key (read ++ [c])) text
  | .opens key, c :: text => if c = 0x27 then readRule (.value key []) text else none
  | .value key read, c :: text =>
      if c = 0x27 then (readRule .closed text).map fun pairs => (key, read) :: pairs
      else readRule (.value key (read ++ [c])) text
  | .closed, c :: text => if c = 0x2C then readRule (.key []) text else none

/-- The keys and the strings of the filter. -/
def SignalFilter.keyed (f : SignalFilter) : List (List UInt8 × List CodeUnit) :=
  [(ascii "sender", f.busname.getD []), (ascii "path", f.objectpath.getD []),
    (ascii "interface", f.interfaceName.getD []), (ascii "member", f.signalName.getD [])]

/-- The pairs asked for: one for each string that is not empty. -/
def SignalFilter.wanted (f : SignalFilter) : List (List UInt8 × List CodeUnit) :=
  f.keyed.filter fun pair => pair.2 ≠ []

/-- The rule of the filter holds its type and exactly the pairs asked for. -/
def SignalFilter.Matched (f : SignalFilter) : Prop :=
  ∃ request rule pairs, signalsRequest f = some request ∧ signalRule request 4 = some rule ∧
    readRule (.key []) rule = some ((ascii "type", ascii "signal") :: pairs) ∧
    List.Forall₂ (fun pair want => pair.1 = want.1 ∧ Encodes pair.2 want.2) pairs f.wanted

/-- A string of Unicode characters without an apostrophe. -/
def Quotable (s : List CodeUnit) : Prop := (∃ text : List Char, s = utf16 text) ∧ 0x27 ∉ s

def SignalFilter.strings (f : SignalFilter) : List (List CodeUnit) := f.keyed.map Prod.snd

/-! ## Reading a rule -/

theorem readRule_key (read key text : List UInt8) (h : 0x3D ∉ key) :
    readRule (.key read) (key ++ 0x3D :: text) = readRule (.opens (read ++ key)) text := by
  induction key generalizing read with
  | nil => rw [List.nil_append, readRule, if_pos rfl, List.append_nil]
  | cons c key ih =>
      have hc : c ≠ 0x3D := fun heq => h (heq ▸ List.mem_cons_self)
      rw [List.cons_append, readRule, if_neg hc, ih _ fun hmem => h (List.mem_cons_of_mem c hmem),
        List.append_assoc, List.singleton_append]

theorem readRule_value (key read value text : List UInt8) (h : 0x27 ∉ value) :
    readRule (.value key read) (value ++ 0x27 :: text) =
      (readRule .closed text).map fun pairs => (key, read ++ value) :: pairs := by
  induction value generalizing read with
  | nil => rw [List.nil_append, readRule, if_pos rfl, List.append_nil]
  | cons c value ih =>
      have hc : c ≠ 0x27 := fun heq => h (heq ▸ List.mem_cons_self)
      rw [List.cons_append, readRule, if_neg hc, ih _ fun hmem => h (List.mem_cons_of_mem c hmem),
        List.append_assoc, List.singleton_append]

/-- A key and its value as they stand in a rule. -/
def quoted (pair : List UInt8 × List UInt8) : List UInt8 := pair.1 ++ 0x3D :: 0x27 :: (pair.2 ++ [0x27])

theorem readRule_quoted (pair : List UInt8 × List UInt8) (text : List UInt8) (hkey : 0x3D ∉ pair.1)
    (hvalue : 0x27 ∉ pair.2) :
    readRule (.key []) (quoted pair ++ text) = (readRule .closed text).map fun pairs => pair :: pairs := by
  have hsplit : quoted pair ++ text = pair.1 ++ 0x3D :: (0x27 :: (pair.2 ++ 0x27 :: text)) := by
    simp [quoted]
  rw [hsplit, readRule_key [] pair.1 _ hkey, readRule, if_pos rfl, readRule_value _ [] pair.2 _ hvalue]
  rfl

/-- A list of pairs without apostrophes in their values is read as it was written. -/
theorem readRule_pairs (pairs : List (List UInt8 × List UInt8))
    (h : ∀ pair ∈ pairs, 0x3D ∉ pair.1 ∧ 0x27 ∉ pair.2) :
    readRule .closed (pairs.flatMap fun pair => 0x2C :: quoted pair) = some pairs := by
  induction pairs with
  | nil => rfl
  | cons pair pairs ih =>
      rw [List.forall_mem_cons] at h
      rw [List.flatMap_cons, List.cons_append, readRule, if_pos rfl,
        readRule_quoted pair _ h.1.1 h.1.2, ih h.2]
      rfl

/-- What has been read of a value holds no apostrophe. -/
def RuleState.Clean : RuleState → Prop
  | .value _ read => 0x27 ∉ read
  | _ => True

/-- No value that is read holds an apostrophe. -/
theorem readRule_values {text : List UInt8} (state : RuleState) {pairs : List (List UInt8 × List UInt8)}
    (hclean : state.Clean) (h : readRule state text = some pairs) : ∀ pair ∈ pairs, 0x27 ∉ pair.2 := by
  induction text generalizing state pairs with
  | nil =>
      cases state with
      | closed =>
          cases h
          nofun
      | _ => cases h
  | cons c text ih =>
      cases state with
      | key read =>
          rw [readRule] at h
          split at h
          · exact ih (.opens read) trivial h
          · exact ih (.key (read ++ [c])) trivial h
      | opens key =>
          rw [readRule] at h
          split at h
          · exact ih (.value key []) List.not_mem_nil h
          · cases h
      | value key read =>
          have hread : 0x27 ∉ read := hclean
          rw [readRule] at h
          split at h
          · obtain ⟨rest, hrest, rfl⟩ := Option.map_eq_some_iff.mp h
            rw [List.forall_mem_cons]
            exact ⟨hread, ih .closed trivial hrest⟩
          · next hc =>
            apply ih (.value key (read ++ [c])) _ h
            show 0x27 ∉ read ++ [c]
            rw [List.mem_append, List.mem_singleton, not_or]
            exact ⟨hread, Ne.symm hc⟩
      | closed =>
          rw [readRule] at h
          split at h
          · exact ih (.key []) trivial h
          · cases h

/-! ## The rule of a filter -/

theorem createRule_eq (busname objectpath interface member : List UInt8) :
    createRule busname objectpath interface member = quoted (ascii "type", ascii "signal") ++
      ([(ascii "sender", busname), (ascii "path", objectpath), (ascii "interface", interface),
        (ascii "member", member)].filter fun pair => pair.2 ≠ []).flatMap
          fun pair => 0x2C :: quoted pair := by
  have htype : ascii "type='signal'" = quoted (ascii "type", ascii "signal") := by decide
  have hsender : ascii ",sender='" = 0x2C :: (ascii "sender" ++ [0x3D, 0x27]) := by decide
  have hpath : ascii ",path='" = 0x2C :: (ascii "path" ++ [0x3D, 0x27]) := by decide
  have hinterface : ascii ",interface='" = 0x2C :: (ascii "interface" ++ [0x3D, 0x27]) := by decide
  have hmember : ascii ",member='" = 0x2C :: (ascii "member" ++ [0x3D, 0x27]) := by decide
  have hend : ascii "'" = [0x27] := by decide
  unfold createRule
  rw [htype, hsender, hpath, hinterface, hmember, hend]
  by_cases hb : busname = [] <;> by_cases hp : objectpath = [] <;> by_cases hi : interface = [] <;>
    by_cases hm : member = [] <;> simp [hb, hp, hi, hm, quoted]

/-- The strings of a filter one behind the other, as they are packed. -/
def SignalFilter.packed (f : SignalFilter) : List UInt8 :=
  nameBytes (f.busname.getD []) ++ (nameBytes (f.objectpath.getD []) ++
    (nameBytes (f.interfaceName.getD []) ++ nameBytes (f.signalName.getD [])))

theorem dbusSignals_contents {f : SignalFilter} {bb : ByteBuffer} (h : dbusSignals f = some bb) :
    bb.contents = f.packed ∧ bb.contents.length ≤ 3000 := by
  obtain ⟨filled, hfilled, rfl⟩ := Option.map_eq_some_iff.mp h
  have hwrites := (writes_putName (f.busname.getD [])).bind ((writes_putName (f.objectpath.getD [])).bind
    ((writes_putName (f.interfaceName.getD [])).bind (writes_putName (f.signalName.getD []))))
  have hextends := hwrites.extends_of_eq hfilled
  have hwritten := hextends.written
  rw [ByteBuffer.clear_written, List.nil_append] at hwritten
  rw [ByteBuffer.flip_contents]
  refine ⟨hwritten, ?_⟩
  rw [hwritten]
  have hposition := filled.position_le
  rw [hextends.position, hextends.limit] at hposition
  have hlength : 0 + f.packed.length ≤ 3000 := hposition
  rwa [Nat.zero_add] at hlength

/-- Arguments that fit are put behind the header of the request. -/
theorem fill_contents (r : ServiceRequest) (h : r.arguments.length ≤ 3996) :
    (r.fill (ByteBuffer.allocate 4000)).2 = true ∧
      (r.fill (ByteBuffer.allocate 4000)).1.contents = r.bytes := by
  have hwrites := ((ByteBuffer.writes_put [0x6F, r.serviceIdentifier]).bind
    (ByteBuffer.writes_put (shortBytes (BitVec.ofNat 16 r.arguments.length)))).bind
      (ByteBuffer.writes_put r.arguments)
  have hfits : (ByteBuffer.allocate 4000).clear.position + r.bytes.length ≤
      (ByteBuffer.allocate 4000).clear.limit := by
    simp only [ByteBuffer.clear, ByteBuffer.allocate, ServiceRequest.bytes, List.length_append,
      List.length_cons, List.length_nil, shortBytes_length]
    omega
  obtain ⟨full, hfull, hextends⟩ := hwrites.fits _ hfits
  obtain ⟨header, hheader, hput⟩ := Option.bind_eq_some_iff.mp hfull
  have hfill : r.fill (ByteBuffer.allocate 4000) = (full.flip, true) := by
    unfold ServiceRequest.fill ByteBuffer.putShort
    simp only [hheader, hput]
  have hwritten := hextends.written
  rw [ByteBuffer.clear_written, List.nil_append] at hwritten
  rw [hfill]
  exact ⟨rfl, (ByteBuffer.flip_contents full).trans hwritten⟩

theorem signalsRequest_bytes {f : SignalFilter} {request : List UInt8}
    (h : signalsRequest f = some request) :
    ∃ header, header.length = 4 ∧ request = header ++ f.packed := by
  obtain ⟨bb, hbb, hrequest⟩ := Option.bind_eq_some_iff.mp h
  obtain ⟨hcontents, hlength⟩ := dbusSignals_contents hbb
  have hfill := fill_contents ⟨3, bb.contents⟩ (Nat.le_trans hlength (by decide))
  simp only [hfill.1, hfill.2, if_true, Option.some.injEq] at hrequest
  rw [← hrequest, ServiceRequest.bytes, hcontents]
  exact ⟨_, by simp, rfl⟩

/-- The strings are read where they were packed. -/
theorem signalRule_packed {f : SignalFilter} {request : List UInt8} (hnul : ∀ s ∈ f.strings, 0 ∉ s)
    (h : signalsRequest f = some request) : signalRule request 4 = some (createRule
      (utf8 (f.busname.getD [])) (utf8 (f.objectpath.getD [])) (utf8 (f.interfaceName.getD []))
      (utf8 (f.signalName.getD []))) := by
  obtain ⟨header, hheader, rfl⟩ := signalsRequest_bytes h
  have hbus : header ++ nameBytes (f.busname.getD []) <+: header ++ f.packed :=
    (List.prefix_append_right_inj header).mpr (List.prefix_append _ _)
  have hpath : header ++ nameBytes (f.busname.getD []) ++ nameBytes (f.objectpath.getD []) <+:
      header ++ f.packed := ⟨_, by simp only [SignalFilter.packed, List.append_assoc]; rfl⟩
  have hinterface : header ++ nameBytes (f.busname.getD []) ++ nameBytes (f.objectpath.getD []) ++
      nameBytes (f.interfaceName.getD []) <+: header ++ f.packed :=
    ⟨_, by simp only [SignalFilter.packed, List.append_assoc]; rfl⟩
  have hsignal : header ++ nameBytes (f.busname.getD []) ++ nameBytes (f.objectpath.getD []) ++
      nameBytes (f.interfaceName.getD []) ++ nameBytes (f.signalName.getD []) <+: header ++ f.packed :=
    ⟨[], by simp only [SignalFilter.packed, List.append_assoc, List.append_nil]⟩
  obtain ⟨hnext₁, hread₁⟩ := string_read header (hnul _ (by simp [SignalFilter.strings, SignalFilter.keyed])) hbus
  obtain ⟨hnext₂, hread₂⟩ := string_read _ (hnul _ (by simp [SignalFilter.strings, SignalFilter.keyed])) hpath
  obtain ⟨hnext₃, hread₃⟩ := string_read _ (hnul _ (by simp [SignalFilter.strings, SignalFilter.keyed])) hinterface
  obtain ⟨-, hread₄⟩ := string_read _ (hnul _ (by simp [SignalFilter.strings, SignalFilter.keyed])) hsignal
  rw [hheader] at hnext₁ hread₁
  rw [signalRule, hnext₁, Option.bind_some, hnext₂, Option.bind_some, hnext₃, Option.bind_some, hread₁,
    Option.bind_some, hread₂, Option.bind_some, hread₃, Option.bind_some, hread₄]
  rfl

/-! ## Which filters are matched -/

theorem utf8_eq_nil {s : List CodeUnit} : utf8 s = [] ↔ s = [] := by
  have hsingle : ∀ u : CodeUnit, utf8.single u ≠ [] := by
    intro u
    unfold utf8.single
    split
    · exact List.cons_ne_nil _ _
    · split
      · exact List.cons_ne_nil _ _
      · split <;> exact List.cons_ne_nil _ _
  induction s using utf8.induct with
  | case1 => exact iff_of_true rfl rfl
  | case2 u => exact iff_of_false (hsingle u) (List.cons_ne_nil _ _)
  | case3 u low rest hpair ih =>
      rw [utf8, if_pos hpair]
      exact iff_of_false (List.cons_ne_nil _ _) (List.cons_ne_nil _ _)
  | case4 u low rest hpair ih =>
      rw [utf8, if_neg hpair]
      exact iff_of_false (List.append_ne_nil_of_left_ne_nil (hsingle u) _) (List.cons_ne_nil _ _)

theorem quotable_iff {s : List CodeUnit} :
    Quotable s ↔ 0x27 ∉ utf8 s ∧ Encodes (utf8 s) s := by
  have hmem : (0x27 : UInt8) ∈ utf8 s ↔ 0x27 ∈ s := by
    rw [mem_utf8 (by decide) (by decide)]
    constructor
    · rintro ⟨u, hu, hnat⟩
      have heq : u = 0x27 := BitVec.eq_of_toNat_eq hnat
      rwa [← heq]
    · intro h
      exact ⟨0x27, h, rfl⟩
  rw [hmem, Quotable, and_comm]
  apply and_congr_right
  intro _
  exact encodes_utf8_iff.symm

/-- The pairs of the rule, in the order in which it is built. -/
def SignalFilter.pairs (f : SignalFilter) : List (List UInt8 × List UInt8) :=
  f.wanted.map fun pair => (pair.1, utf8 pair.2)

/-- The rule of a filter is its type and its pairs. -/
theorem signalRule_eq {f : SignalFilter} (hnul : ∀ s ∈ f.strings, 0 ∉ s) (hfits : (dbusSignals f).isSome) :
    ∃ request, signalsRequest f = some request ∧ signalRule request 4 =
      some (quoted (ascii "type", ascii "signal") ++ f.pairs.flatMap fun pair => 0x2C :: quoted pair) := by
  obtain ⟨bb, hbb⟩ := Option.isSome_iff_exists.mp hfits
  have hfill := fill_contents ⟨3, bb.contents⟩
    (Nat.le_trans (dbusSignals_contents hbb).2 (by decide))
  have hrequest : signalsRequest f = some (ServiceRequest.bytes ⟨3, bb.contents⟩) := by
    unfold signalsRequest
    rw [hbb, Option.bind_some]
    simp only [hfill.1, hfill.2, if_true]
  refine ⟨_, hrequest, ?_⟩
  have hpairs : (f.keyed.map fun pair => (pair.1, utf8 pair.2)).filter (fun pair => pair.2 ≠ []) =
      f.pairs := by
    rw [List.filter_map, SignalFilter.pairs, SignalFilter.wanted]
    congr 2
    funext pair
    simp only [Function.comp_apply, ne_eq, utf8_eq_nil]
  rw [signalRule_packed hnul hrequest, createRule_eq, ← hpairs]
  rfl

theorem SignalFilter.keys_clean (f : SignalFilter) : ∀ want ∈ f.keyed, 0x3D ∉ want.1 := by
  have hsender : 0x3D ∉ ascii "sender" := by decide
  have hpath : 0x3D ∉ ascii "path" := by decide
  have hinterface : 0x3D ∉ ascii "interface" := by decide
  have hmember : 0x3D ∉ ascii "member" := by decide
  unfold keyed
  rw [List.forall_mem_cons, List.forall_mem_cons, List.forall_mem_cons, List.forall_mem_singleton]
  exact ⟨hsender, hpath, hinterface, hmember⟩

/-- Where the rule is read as what was asked for, the pairs are those of the filter. -/
theorem pairs_of_forall₂ {f : SignalFilter} {pairs : List (List UInt8 × List UInt8)}
    (h : List.Forall₂ (fun pair want => pair.1 = want.1 ∧ Encodes pair.2 want.2) pairs f.wanted) :
    pairs = f.pairs ∧ ∀ want ∈ f.wanted, Encodes (utf8 want.2) want.2 := by
  have hpairs : pairs = f.pairs := by
    rw [SignalFilter.pairs, ← List.forall₂_eq_eq_eq, List.forall₂_map_right_iff]
    apply h.imp
    rintro ⟨key, value⟩ want ⟨hkey, hvalue⟩
    rw [← hvalue.eq_utf8, ← hkey]
  rw [hpairs, SignalFilter.pairs, List.forall₂_map_left_iff, List.forall₂_same] at h
  exact ⟨hpairs, fun want hwant => (h want hwant).2⟩

/-- A rule that holds what was asked for has no apostrophe in its values. -/
theorem SignalFilter.Matched.quotable {f : SignalFilter} (h : f.Matched) :
    ∀ s ∈ f.strings, Quotable s := by
  obtain ⟨request, rule, pairs, -, -, hread, hpairs⟩ := h
  obtain ⟨rfl, hencodes⟩ := pairs_of_forall₂ hpairs
  have hclean := readRule_values (.key []) trivial hread
  intro s hs
  by_cases hempty : s = []
  · rw [hempty]
    exact ⟨⟨[], rfl⟩, List.not_mem_nil⟩
  · obtain ⟨⟨key, s⟩, hkeyed, rfl⟩ := List.mem_map.mp hs
    have hwant : (key, s) ∈ f.wanted := List.mem_filter.mpr ⟨hkeyed, by simpa using hempty⟩
    have hpair : (key, utf8 s) ∈ f.pairs := List.mem_map.mpr ⟨_, hwant, rfl⟩
    rw [quotable_iff]
    exact ⟨hclean (key, utf8 s) (List.mem_cons_of_mem _ hpair), hencodes _ hwant⟩

theorem matched_of_quotable {f : SignalFilter} (hnul : ∀ s ∈ f.strings, 0 ∉ s)
    (hfits : (dbusSignals f).isSome) (hquotable : ∀ s ∈ f.strings, Quotable s) : f.Matched := by
  obtain ⟨request, hrequest, hrule⟩ := signalRule_eq hnul hfits
  have hkeyed : ∀ want ∈ f.wanted, want ∈ f.keyed := fun want hwant => (List.mem_filter.mp hwant).1
  have hwanted : ∀ want ∈ f.wanted, Quotable want.2 := fun want hwant =>
    hquotable want.2 (List.mem_map_of_mem (hkeyed want hwant))
  refine ⟨request, _, f.pairs, hrequest, hrule, ?_, ?_⟩
  · rw [readRule_quoted _ _ (by decide) (by decide), readRule_pairs]
    · rfl
    · intro pair hpair
      obtain ⟨want, hwant, rfl⟩ := List.mem_map.mp hpair
      exact ⟨f.keys_clean want (hkeyed want hwant), (quotable_iff.mp (hwanted want hwant)).1⟩
  · rw [SignalFilter.pairs, List.forall₂_map_left_iff, List.forall₂_same]
    exact fun want hwant => ⟨rfl, (quotable_iff.mp (hwanted want hwant)).2⟩

/-- The rule of a filter holds what was asked for exactly if every string that is
given can stand between apostrophes. -/
theorem filter_matched_iff (f : SignalFilter) (hnul : ∀ s ∈ f.strings, 0 ∉ s)
    (hfits : (dbusSignals f).isSome) : f.Matched ↔ ∀ s ∈ f.strings, Quotable s :=
  ⟨fun h => h.quotable, matched_of_quotable hnul hfits⟩

/-- The member Prop of any sender. -/
def memberOnly : SignalFilter := ⟨none, some [], none, some [0x50, 0x72, 0x6F, 0x70]⟩

theorem memberOnly_matched : memberOnly.Matched := by
  apply (filter_matched_iff memberOnly (by decide) (by decide)).mpr
  have hempty : Quotable [] := ⟨⟨[], rfl⟩, List.not_mem_nil⟩
  have hmember : Quotable [0x50, 0x72, 0x6F, 0x70] := ⟨⟨['P', 'r', 'o', 'p'], by decide⟩, by decide⟩
  show ∀ s ∈ [[], [], [], [0x50, 0x72, 0x6F, 0x70]], Quotable s
  rw [List.forall_mem_cons, List.forall_mem_cons, List.forall_mem_cons, List.forall_mem_singleton]
  exact ⟨hempty, hempty, hempty, hmember⟩

/-- The busname a'b. -/
def apostropheInside : SignalFilter := ⟨some [0x61, 0x27, 0x62], none, none, none⟩

/-- The value of the sender ends behind its first letter. -/
theorem apostrophe_ends_value : ¬∀ f : SignalFilter, (∀ s ∈ f.strings, 0 ∉ s) →
    (dbusSignals f).isSome → f.Matched := by
  intro h
  have hmatched := h apostropheInside (by decide) (by decide)
  exact (hmatched.quotable _ List.mem_cons_self).2 (by decide)

end AapBridge.Wire
