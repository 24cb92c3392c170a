import AapBridge.Lib.BreadthFirst
import AapBridge.Android.ContentHandler
import AapBridge.Android.MethodCalls

/-! # The introspection of a bus name

`IntroSpector`: one Introspect call at a time, the answer of each adding the
child nodes it names to `objectPathsToIntrospect`. Answers come from a finite
tree of objects; an answer may stop anywhere, as an error does.

A call is `DbusMethods.methodCall` with the 4000 bytes of its `sendBuffer`. What it
throws for a longer call is no `IOException`: `handleMessage` ends with it, nothing
has been sent, and no answer ever comes to end the introspection.
-/

namespace AapBridge.Android

open AapBridge.Lib AapBridge.Lib.BreadthFirst

/-- A call of `methodCall` on `introSpectionhGetter`. -/
structure IntrospectCall where
  busname : String
  objectpath : String
  interfaceName : String
  functionName : String
deriving DecidableEq

def introspect (busname objectpath : String) : IntrospectCall where
  busname := busname
  objectpath := objectpath
  interfaceName := "org.freedesktop.DBus.Introspectable"
  functionName := "Introspect"

namespace IntrospectCall

def invocation (call : IntrospectCall) : Invocation where
  busname := utf16 call.busname.toList
  objectpath := utf16 call.objectpath.toList
  interfaceName := utf16 call.interfaceName.toList
  functionName := utf16 call.functionName.toList
  arguments := some []

/-- The call can be encoded into `sendBuffer`. -/
def fits (call : IntrospectCall) : Bool := call.invocation.payload.isSome

end IntrospectCall

/-- `calls` are those sent to the remote bus so far. -/
structure IntroSpector where
  busname : String
  nodeName : String
  objectPathsToIntrospect : List String
  introspecting : Bool
  introSpectionhGetter : MethodsState
  calls : List IntrospectCall
  messages : List ObjectPath

namespace IntroSpector

/-- `introSpectionhGetter.methodCall`, and the end of the method that made the call. -/
def methodCall (s : IntroSpector) (call : IntrospectCall) : IntroSpector :=
  match s.introSpectionhGetter.methodCall call.invocation with
  | some (.returned _, introSpectionhGetter) =>
      { s with introSpectionhGetter, calls := s.calls ++ [call] }
  | some (.thrown, introSpectionhGetter) => { s with introSpectionhGetter }
  -- a write on a port that is not open
  | none => s

def startIntrospection (s : IntroSpector) (busname : String) : IntroSpector :=
  methodCall { s with
    introspecting := true
    busname := busname
    nodeName := ""
    objectPathsToIntrospect := s.objectPathsToIntrospect ++ [""] } (introspect busname "/")

/-- `handleMessage`, given what the parser reads in the answer. -/
def handleMessage (s : IntroSpector) (answer : List SaxEvent) : IntroSpector :=
  let h := ContentHandler.parse s.nodeName (.new s.objectPathsToIntrospect) answer
  let s := { s with
    messages := s.messages ++ h.messages
    objectPathsToIntrospect := h.objectPathsToIntrospect.erase s.nodeName }
  match s.objectPathsToIntrospect with
  | nodeName :: _ => methodCall { s with nodeName := nodeName } (introspect s.busname nodeName)
  | [] => { s with introspecting := false }

end IntroSpector

/-! ## The remote objects -/

/-- The names of the child nodes in an answer, as far as it is read: at `depth`,
`seen` telling whether there has been an interface. -/
def subnodesFrom : ℤ → Bool → List SaxEvent → List String
  | _, _, [] => []
  | depth, seen, .startElement .node attributes :: events =>
      if depth + 1 = 2 then
        javaString (attributes.getValue "name") :: subnodesFrom (depth + 1) seen events
      else subnodesFrom (depth + 1) seen events
  | depth, _, .startElement .interface _ :: events => subnodesFrom depth true events
  | depth, seen, .startElement _ _ :: events => subnodesFrom depth seen events
  | depth, seen, .endElement .node :: events => subnodesFrom (depth - 1) seen events
  | depth, seen, .endElement .method :: events
  | depth, seen, .endElement .signal :: events
  | depth, seen, .endElement .property :: events =>
      if seen then subnodesFrom depth seen events else []
  | depth, seen, .endElement _ :: events => subnodesFrom depth seen events

def subnodes (answer : List SaxEvent) : List String := subnodesFrom 0 false answer

/-- An object, what is read of its answer to Introspect, and the objects below it. -/
inductive ObjectNode where
  | mk (name : String) (answer : List SaxEvent) (children : List ObjectNode)

namespace ObjectNode

def name : ObjectNode → String
  | mk name _ _ => name

def answer : ObjectNode → List SaxEvent
  | mk _ answer _ => answer

def children : ObjectNode → List ObjectNode
  | mk _ _ children => children

/-- The children of a node have distinct, non-empty names without a slash; an answer
names the first of them, or all. -/
inductive WellFormed : ObjectNode → Prop
  | mk (name : String) (answer : List SaxEvent) (children : List ObjectNode)
      (hdistinct : (children.map ObjectNode.name).Nodup)
      (hnames : ∀ child ∈ children, child.name ≠ "" ∧ '/' ∉ child.name.toList)
      (hanswer : subnodes answer <+: children.map ObjectNode.name)
      (hchildren : ∀ child ∈ children, WellFormed child) :
      WellFormed (mk name answer children)

/-- The object that a path names; the name of the root is empty. -/
inductive Names (root : ObjectNode) : String → ObjectNode → Prop
  | root : Names root "" root
  | child {path : String} {node child : ObjectNode} (h : Names root path node)
      (hchild : child ∈ node.children) : Names root (path ++ "/" ++ child.name) child

/-- The children that the answer of a node names, with their paths. -/
def reached (node : String × ObjectNode) : List (String × ObjectNode) :=
  (node.2.children.take (subnodes node.2.answer).length).map fun child =>
    (node.1 ++ "/" ++ child.name, child)

end ObjectNode

/-- `Introspection ... answered s`: `s` after so many answers, each of them that of the
object whose path the next call names. -/
inductive Introspection (root : ObjectNode) (busname : String) (idle : IntroSpector) :
    ℕ → IntroSpector → Prop
  | start : Introspection root busname idle 0 (idle.startIntrospection busname)
  | answer {answered : ℕ} {s : IntroSpector} {path : String} {node : ObjectNode}
      (h : Introspection root busname idle answered s)
      (hcall : s.calls[idle.calls.length + answered]? = some (introspect busname (pathOf path)))
      (hnode : root.Names path node) :
      Introspection root busname idle (answered + 1) (s.handleMessage node.answer)

/-! ## Paths -/

/-- A list is cut at its first separator in one way. -/
theorem cut_unique {α : Type*} {a : α} {x y p q : List α} (hx : a ∉ x) (hy : a ∉ y)
    (h : x ++ a :: p = y ++ a :: q) : x = y ∧ p = q := by
  induction x generalizing y with
  | nil =>
      cases y with
      | nil => exact ⟨rfl, (List.cons.inj h).2⟩
      | cons b y => exact absurd (List.mem_cons.mpr (.inl (List.cons.inj h).1)) hy
  | cons c x ih =>
      cases y with
      | nil => exact absurd (List.mem_cons.mpr (.inl (List.cons.inj h).1.symm)) hx
      | cons b y =>
          obtain ⟨hhead, htail⟩ := List.cons.inj h
          have hrest := ih (fun hmem => hx (List.mem_cons_of_mem c hmem))
            (fun hmem => hy (List.mem_cons_of_mem b hmem)) htail
          exact ⟨by rw [hhead, hrest.1], hrest.2⟩

theorem toList_child (path name : String) :
    (path ++ "/" ++ name).toList = path.toList ++ '/' :: name.toList := by
  simp

/-- A path is that of its parent and a name in one way. -/
theorem path_split {path path' name name' : String} (hname : '/' ∉ name.toList)
    (hname' : '/' ∉ name'.toList) (h : path ++ "/" ++ name = path' ++ "/" ++ name') :
    path = path' ∧ name = name' := by
  have hlist := congrArg (fun s => s.toList.reverse) h
  simp only [toList_child, List.reverse_append, List.reverse_cons, List.append_assoc,
    List.singleton_append] at hlist
  have hparts := cut_unique (by rwa [List.mem_reverse]) (by rwa [List.mem_reverse]) hlist
  exact ⟨String.toList_injective (List.reverse_injective hparts.2),
    String.toList_injective (List.reverse_injective hparts.1)⟩

/-- The depth of a path. -/
def slashes (path : String) : ℕ := path.toList.count '/'

theorem slashes_child {path name : String} (hname : '/' ∉ name.toList) :
    slashes (path ++ "/" ++ name) = slashes path + 1 := by
  rw [slashes, toList_child, List.count_append, List.count_cons_self, List.count_eq_zero_of_not_mem hname]
  rfl

theorem child_ne_root {path name : String} : path ++ "/" ++ name ≠ "" := by
  intro h
  have hlist := congrArg String.toList h
  rw [toList_child] at hlist
  exact List.append_ne_nil_of_right_ne_nil _ (List.cons_ne_nil _ _) hlist

namespace ObjectNode

variable {root node : ObjectNode} {path : String}

theorem WellFormed.parts (h : node.WellFormed) : (node.children.map name).Nodup ∧
    (∀ child ∈ node.children, child.name ≠ "" ∧ '/' ∉ child.name.toList ∧ child.WellFormed) ∧
    subnodes node.answer <+: node.children.map name := by
  cases h with
  | mk name answer children hdistinct hnames hanswer hchildren =>
      exact ⟨hdistinct, fun child hmem =>
        ⟨(hnames child hmem).1, (hnames child hmem).2, hchildren child hmem⟩, hanswer⟩

theorem Names.wellFormed (hroot : root.WellFormed) (h : root.Names path node) : node.WellFormed := by
  induction h with
  | root => exact hroot
  | child _ hchild ih => exact (ih.parts.2.1 _ hchild).2.2

/-- A path names one object. -/
theorem Names.unique (hroot : root.WellFormed) {node' : ObjectNode} (h : root.Names path node)
    (h' : root.Names path node') : node = node' := by
  induction h generalizing node' with
  | root =>
      generalize hempty : "" = empty at h'
      cases h' with
      | root => rfl
      | child => exact absurd hempty.symm child_ne_root
  | @child path node child hparent hchild ih =>
      generalize hpath : path ++ "/" ++ child.name = whole at h'
      cases h' with
      | root => exact absurd hpath child_ne_root
      | @child path' parent' child' hparent' hchild' =>
          have hparts := (hparent.wellFormed hroot).parts
          have hslash := (hparts.2.1 child hchild).2.1
          have hslash' := (((hparent'.wellFormed hroot).parts).2.1 _ hchild').2.1
          obtain ⟨hsame, hname⟩ := path_split hslash hslash' hpath
          subst hsame
          have hnode := ih hparent'
          subst hnode
          exact List.inj_on_of_nodup_map hparts.1 hchild hchild' hname

theorem Names.ne_slash (hroot : root.WellFormed) (h : root.Names path node) : path ≠ "/" := by
  cases h with
  | root => decide
  | @child parent above child hparent hchild =>
      intro hpath
      have hname := ((hparent.wellFormed hroot).parts.2.1 _ hchild).1
      have hlength := congrArg (fun s => s.toList.length) hpath
      simp only [toList_child, List.length_append, List.length_cons] at hlength
      have hnil : node.name.toList.length = 0 := by
        have hone : "/".toList.length = 1 := rfl
        omega
      exact hname (String.toList_eq_nil_iff.mp (List.eq_nil_of_length_eq_zero hnil))

/-- No path but that of the root is shown as "/". -/
theorem Names.pathOf_injective (hroot : root.WellFormed) {path' : String} {node' : ObjectNode}
    (h : root.Names path node) (h' : root.Names path' node') (heq : pathOf path = pathOf path') :
    path = path' := by
  unfold pathOf at heq
  split at heq
  · next hempty =>
    split at heq
    · next hempty' => rw [hempty, hempty']
    · exact absurd heq.symm (h'.ne_slash hroot)
  · split at heq
    · exact absurd heq (h.ne_slash hroot)
    · exact heq

end ObjectNode

/-! ## What an answer adds -/

theorem ContentHandler.endElement_node (h : ContentHandler) :
    ∃ messages, h.endElement .node = some { h with depth := h.depth - 1, messages := messages } := by
  obtain ⟨depth, objectPath, member, paths, messages⟩ := h
  cases objectPath with
  | none => exact ⟨messages, rfl⟩
  | some objectPath =>
      simp only [endElement]
      split
      · exact ⟨messages, rfl⟩
      · exact ⟨messages ++ [objectPath], rfl⟩

/-- The end of a member goes on where there is an interface, and throws where there is none. -/
theorem parse_member_end {nodeName : String} (h : ContentHandler) (name : ElementName)
    (f : DbusInterface → DbusInterface) (events : List SaxEvent) (hend : h.endElement name = h.onInterface f)
    (hsub : subnodesFrom h.depth h.objectPath.isSome (.endElement name :: events) =
      if h.objectPath.isSome then subnodesFrom h.depth h.objectPath.isSome events else [])
    (ih : ∀ h : ContentHandler, (ContentHandler.parse nodeName h events).objectPathsToIntrospect =
      h.objectPathsToIntrospect ++
        (subnodesFrom h.depth h.objectPath.isSome events).map fun name => nodeName ++ "/" ++ name) :
    (match h.endElement name with
      | some h => ContentHandler.parse nodeName h events
      | none => h).objectPathsToIntrospect = h.objectPathsToIntrospect ++
        (subnodesFrom h.depth h.objectPath.isSome (.endElement name :: events)).map
          fun name => nodeName ++ "/" ++ name := by
  rw [hend, hsub]
  obtain ⟨depth, objectPath, member, paths, messages⟩ := h
  cases objectPath with
  | none => exact (List.append_nil paths).symm
  | some objectPath => exact ih _

/-- An answer puts the paths of its child nodes at the end of the list. -/
theorem parse_paths (nodeName : String) (h : ContentHandler) (events : List SaxEvent) :
    (ContentHandler.parse nodeName h events).objectPathsToIntrospect = h.objectPathsToIntrospect ++
      (subnodesFrom h.depth h.objectPath.isSome events).map fun name => nodeName ++ "/" ++ name := by
  induction events generalizing h with
  | nil => simp [ContentHandler.parse, subnodesFrom]
  | cons event events ih =>
      cases event with
      | startElement name attributes =>
          show (ContentHandler.parse nodeName
            (h.startElement nodeName attributes name) events).objectPathsToIntrospect = _
          rw [ih]
          cases name with
          | node =>
              simp only [ContentHandler.startElement, subnodesFrom]
              split
              · rw [List.map_cons, List.append_assoc]
                rfl
              · rfl
          | _ => rfl
      | endElement name =>
          rw [ContentHandler.parse, ContentHandler.handle]
          cases name with
          | node =>
              obtain ⟨messages, hend⟩ := h.endElement_node
              rw [hend]
              exact ih _
          | method => exact parse_member_end h _ _ events rfl rfl ih
          | signal => exact parse_member_end h _ _ events rfl rfl ih
          | property => exact parse_member_end h _ _ events rfl rfl ih
          | _ => exact ih h

namespace ObjectNode

variable {root : ObjectNode}

theorem mem_reached {x y : String × ObjectNode} (h : y ∈ reached x) :
    y.2 ∈ x.2.children ∧ y.1 = x.1 ++ "/" ++ y.2.name := by
  obtain ⟨child, hmem, rfl⟩ := List.mem_map.mp h
  exact ⟨List.mem_of_mem_take hmem, rfl⟩

/-- The paths of the children an answer names. -/
theorem reached_paths {x : String × ObjectNode} (h : x.2.WellFormed) :
    (reached x).map Prod.fst = (subnodes x.2.answer).map fun name => x.1 ++ "/" ++ name := by
  have hcut := List.prefix_iff_eq_take.mp h.parts.2.2
  rw [← List.map_take] at hcut
  rw [hcut, reached, List.map_map, List.map_map]
  rfl

/-- The nodes told apart by their paths. -/
theorem keyed (hroot : root.WellFormed) :
    Keyed reached Prod.fst slashes fun x => root.Names x.1 x.2 where
  good x hx y hy := by
    obtain ⟨hchild, hpath⟩ := mem_reached hy
    rw [hpath]
    exact hx.child hchild
  nodup x hx := by
    have hparts := (hx.wellFormed hroot).parts
    rw [reached, List.map_map]
    apply List.Nodup.map_on _ ((hparts.1.of_map _).sublist (List.take_sublist _ _))
    intro child hchild child' hchild' heq
    have hmem := List.mem_of_mem_take hchild
    have hmem' := List.mem_of_mem_take hchild'
    have hname := (path_split (hparts.2.1 child hmem).2.1 (hparts.2.1 child' hmem').2.1 heq).2
    exact List.inj_on_of_nodup_map hparts.1 hmem hmem' hname
  parent x x' hx hx' y hy y' hy' heq := by
    obtain ⟨hchild, hpath⟩ := mem_reached hy
    obtain ⟨hchild', hpath'⟩ := mem_reached hy'
    rw [hpath, hpath'] at heq
    exact (path_split ((hx.wellFormed hroot).parts.2.1 _ hchild).2.1
      ((hx'.wellFormed hroot).parts.2.1 _ hchild').2.1 heq).1
  rank x hx y hy := by
    obtain ⟨hchild, hpath⟩ := mem_reached hy
    rw [hpath]
    exact slashes_child ((hx.wellFormed hroot).parts.2.1 _ hchild).2.1

/-- The nodes that the answers lead to, in breadth-first order. -/
noncomputable def order (root : ObjectNode) : List (String × ObjectNode) :=
  levels reached (sizeOf root + 1) [("", root)]

theorem level_end (root : ObjectNode) : level reached (sizeOf root + 1) [("", root)] = [] := by
  apply level_eq_nil reached fun x => sizeOf x.2
  · intro x y hy
    have hchild := (mem_reached hy).1
    obtain ⟨path, name, answer, children⟩ := x
    have hsmaller := List.sizeOf_lt_of_mem hchild
    change sizeOf y.2 < sizeOf children at hsmaller
    rw [mk.sizeOf_spec]
    omega
  · intro x hx
    rw [List.mem_singleton.mp hx]
    exact Nat.lt_succ_self _

theorem visit_eq_order (root : ObjectNode) (steps : ℕ) :
    visit reached steps [("", root)] = root.order.take steps :=
  visit_eq_take root.level_end steps

theorem head?_drain_order (root : ObjectNode) (steps : ℕ) :
    (drain reached steps [("", root)]).head? = root.order[steps]? :=
  head?_drain reached root.level_end steps

/-- Exactly the nodes below the root. -/
theorem mem_order_iff {x : String × ObjectNode} :
    x ∈ root.order ↔ Relation.ReflTransGen (fun a b => b ∈ reached a) ("", root) x := by
  rw [order, mem_levels_iff root.level_end]
  simp only [List.mem_singleton, exists_eq_left]

theorem names_of_mem_order (hroot : root.WellFormed) {x : String × ObjectNode} (h : x ∈ root.order) :
    root.Names x.1 x.2 := by
  have hreach := mem_order_iff.mp h
  induction hreach with
  | refl => exact .root
  | tail hreach hkid ih => exact (keyed hroot).good _ (ih (mem_order_iff.mpr hreach)) _ hkid

theorem order_nodup (hroot : root.WellFormed) : (root.order.map Prod.fst).Nodup := by
  apply (keyed hroot).levels_nodup (r := 0)
  · intro x hx
    rw [List.mem_singleton.mp hx]
    exact .root
  · intro x hx
    rw [List.mem_singleton.mp hx]
    rfl
  · exact List.nodup_singleton _

end ObjectNode

/-! ## The calls that fit -/

theorem length_utf8_utf16 (s : String) : (utf8 (utf16 s.toList)).length = s.utf8ByteSize := by
  rw [utf8_utf16, ← String.size_toByteArray, ← String.utf8Encode_toList, List.utf8Encode,
    List.size_toByteArray]

/-- What a call takes up in `sendBuffer`. -/
theorem introspect_fits_iff (busname objectpath : String) :
    (introspect busname objectpath).fits = true ↔
      busname.utf8ByteSize + objectpath.utf8ByteSize ≤ 3947 := by
  have hencoding : (introspect busname objectpath).invocation.encoding =
      some (callBytes (utf16 busname.toList) (utf16 objectpath.toList)
        (utf16 "org.freedesktop.DBus.Introspectable".toList) (utf16 "Introspect".toList) []) := by
    simp only [introspect, IntrospectCall.invocation, Invocation.encoding, Option.bind_some,
      List.mapM_nil, Option.pure_def, Option.map_some]
  have hinterface : (utf8 (utf16 "org.freedesktop.DBus.Introspectable".toList)).length = 35 := by
    decide
  have hfunction : (utf8 (utf16 "Introspect".toList)).length = 10 := by decide
  have hlength : (callBytes (utf16 busname.toList) (utf16 objectpath.toList)
      (utf16 "org.freedesktop.DBus.Introspectable".toList) (utf16 "Introspect".toList) []).length =
        busname.utf8ByteSize + objectpath.utf8ByteSize + 53 := by
    simp only [callBytes, nameBytes, List.length_append, List.length_singleton, length_utf8_utf16,
      List.flatMap_nil, List.length_nil, ByteOrder.put_length]
    rw [← length_utf8_utf16 "Introspect", hfunction,
      ← length_utf8_utf16 "org.freedesktop.DBus.Introspectable", hinterface]
    omega
  unfold IntrospectCall.fits Invocation.payload
  rw [hencoding, Option.filter_some, hlength]
  by_cases hfits : busname.utf8ByteSize + objectpath.utf8ByteSize ≤ 3947
  · rw [if_pos (by simpa using hfits)]
    exact ⟨fun _ => hfits, fun _ => rfl⟩
  · rw [if_neg (by simpa using hfits)]
    exact ⟨fun h => absurd h Bool.false_ne_true, fun h => absurd h hfits⟩

/-- A call that fits goes out, and any other leaves only the buffer changed. -/
theorem IntroSpector.methodCall_open {s : IntroSpector} (h : s.introSpectionhGetter.Open)
    (call : IntrospectCall) : ∃ introSpectionhGetter : MethodsState, introSpectionhGetter.Open ∧
      s.methodCall call = { s with
        introSpectionhGetter := introSpectionhGetter
        calls := s.calls ++ [call].filter IntrospectCall.fits } := by
  obtain ⟨getter, hopen, -, hcall⟩ := h.methodCall call.invocation
  refine ⟨getter, hopen, ?_⟩
  unfold methodCall
  cases hpayload : call.invocation.payload with
  | some bytes =>
      have hfits : call.fits = true := by
        rw [IntrospectCall.fits, hpayload]
        rfl
      simp only [hpayload] at hcall
      rw [hcall.1, List.filter_cons_of_pos hfits]
      rfl
  | none =>
      have hover : ¬call.fits = true := by
        rw [IntrospectCall.fits, hpayload]
        exact Bool.false_ne_true
      simp only [hpayload] at hcall
      rw [hcall.1, List.filter_cons_of_neg hover, List.filter_nil, List.append_nil]

/-! ## The worklist -/

section

variable {root : ObjectNode} {busname : String} {idle : IntroSpector}

/-- The list that `handleMessage` goes on with. -/
def IntroSpector.pathsAfter (s : IntroSpector) (answer : List SaxEvent) : List String :=
  (ContentHandler.parse s.nodeName (.new s.objectPathsToIntrospect) answer).objectPathsToIntrospect.erase
    s.nodeName

theorem IntroSpector.handleMessage_last {s : IntroSpector} {answer : List SaxEvent}
    (h : s.pathsAfter answer = []) :
    ∃ messages, s.handleMessage answer = { s with
      messages := messages
      objectPathsToIntrospect := []
      introspecting := false } := by
  unfold pathsAfter at h
  refine ⟨s.messages ++ (ContentHandler.parse s.nodeName (.new s.objectPathsToIntrospect) answer).messages, ?_⟩
  unfold handleMessage
  simp only [h]

theorem IntroSpector.handleMessage_next {s : IntroSpector} {answer : List SaxEvent} {nodeName : String}
    {paths : List String} (h : s.pathsAfter answer = nodeName :: paths)
    (hopen : s.introSpectionhGetter.Open) :
    ∃ messages, ∃ introSpectionhGetter : MethodsState, introSpectionhGetter.Open ∧
      s.handleMessage answer = { s with
        messages := messages
        objectPathsToIntrospect := nodeName :: paths
        nodeName := nodeName
        introSpectionhGetter := introSpectionhGetter
        calls := s.calls ++ [introspect s.busname nodeName].filter IntrospectCall.fits } := by
  unfold pathsAfter at h
  have hcall := methodCall_open (s := { s with
    messages := s.messages ++
      (ContentHandler.parse s.nodeName (.new s.objectPathsToIntrospect) answer).messages
    objectPathsToIntrospect := nodeName :: paths
    nodeName := nodeName }) hopen (introspect s.busname nodeName)
  obtain ⟨getter, hgetter, hcall⟩ := hcall
  refine ⟨s.messages ++ (ContentHandler.parse s.nodeName (.new s.objectPathsToIntrospect) answer).messages,
    getter, hgetter, ?_⟩
  unfold handleMessage
  simp only [h]
  exact hcall

/-- The work that is left, as the queue of nodes whose paths the list holds. -/
structure Pending (root : ObjectNode) (busname : String) (idle : IntroSpector) (answered : ℕ)
    (queue : List (String × ObjectNode)) (s : IntroSpector) : Prop where
  queue_eq : queue = drain ObjectNode.reached answered [("", root)]
  paths : s.objectPathsToIntrospect = queue.map Prod.fst
  nodeName : ∀ x ∈ queue.head?, s.nodeName = x.1
  below : ∀ x ∈ queue.tail, x.1 ≠ ""
  introspecting : s.introspecting = !queue.isEmpty
  busname_eq : s.busname = busname
  getter : s.introSpectionhGetter.Open
  calls : s.calls = idle.calls ++
    ((visit ObjectNode.reached (answered + 1) [("", root)]).map fun x =>
      introspect busname (pathOf x.1)).filter IntrospectCall.fits

theorem pending_start (hidle : idle.objectPathsToIntrospect = [])
    (hopen : idle.introSpectionhGetter.Open) :
    Pending root busname idle 0 [("", root)] (idle.startIntrospection busname) := by
  have hcall := IntroSpector.methodCall_open (s := { idle with
    introspecting := true
    busname := busname
    nodeName := ""
    objectPathsToIntrospect := [""] }) hopen (introspect busname "/")
  obtain ⟨getter, hgetter, hcall⟩ := hcall
  unfold IntroSpector.startIntrospection
  rw [hidle, List.nil_append, hcall]
  refine ⟨rfl, rfl, ?_, fun x hx => ?_, rfl, rfl, hgetter, rfl⟩
  · intro x hx
    cases hx
    rfl
  · cases hx

/-- The answer of the node at the head replaces it by its children at the end. -/
theorem pending_answer (hroot : root.WellFormed) {answered : ℕ}
    {x : String × ObjectNode} {queue : List (String × ObjectNode)} {s : IntroSpector}
    (hnode : root.Names x.1 x.2) (h : Pending root busname idle answered (x :: queue) s) :
    Pending root busname idle (answered + 1) (queue ++ ObjectNode.reached x)
      (s.handleMessage x.2.answer) := by
  have hcurrent : s.nodeName = x.1 := h.nodeName x rfl
  have hdrain : queue ++ ObjectNode.reached x =
      drain ObjectNode.reached (answered + 1) [("", root)] := by
    rw [drain_add, ← h.queue_eq]
    rfl
  have hpaths : s.pathsAfter x.2.answer = (queue ++ ObjectNode.reached x).map Prod.fst := by
    unfold IntroSpector.pathsAfter
    rw [parse_paths, h.paths, hcurrent, List.map_append,
      ObjectNode.reached_paths (hnode.wellFormed hroot)]
    exact List.erase_cons_head x.1 _
  have hbelow : ∀ y ∈ queue ++ ObjectNode.reached x, y.1 ≠ "" := by
    intro y hy
    rcases List.mem_append.mp hy with hrest | hkid
    · exact h.below y hrest
    · rw [(ObjectNode.mem_reached hkid).2]
      exact child_ne_root
  have hvisit := visit_succ ObjectNode.reached (answered + 1) [("", root)]
  rw [← hdrain] at hvisit
  cases hqueue : queue ++ ObjectNode.reached x with
  | nil =>
      rw [hqueue] at hdrain hvisit hpaths
      obtain ⟨messages, hlast⟩ := IntroSpector.handleMessage_last hpaths
      rw [hlast]
      refine ⟨hdrain, rfl, fun y hy => ?_, fun y hy => ?_, rfl, h.busname_eq, h.getter, ?_⟩
      · cases hy
      · cases hy
      · rw [hvisit, List.head?_nil, Option.toList_none, List.append_nil]
        exact h.calls
  | cons y queue' =>
      rw [hqueue] at hdrain hvisit hpaths hbelow
      obtain ⟨messages, getter, hgetter, hnext⟩ := IntroSpector.handleMessage_next hpaths h.getter
      rw [hnext]
      refine ⟨hdrain, rfl, ?_, ?_, h.introspecting, h.busname_eq, hgetter, ?_⟩
      · intro z hz
        cases hz
        rfl
      · exact fun z hz => hbelow z (List.mem_cons_of_mem y hz)
      · have hpath : pathOf y.1 = y.1 := if_neg (hbelow y List.mem_cons_self)
        rw [hvisit, h.calls, h.busname_eq, List.head?_cons, Option.toList_some, List.map_append,
          List.map_singleton, hpath, List.filter_append, List.append_assoc]

/-- A call that is there to be answered is that of the node which is next in
breadth-first order, and the calls of all before it have gone out too. -/
theorem Pending.asked {answered : ℕ} {queue : List (String × ObjectNode)} {s : IntroSpector}
    {call : IntrospectCall} (h : Pending root busname idle answered queue s)
    (hcall : s.calls[idle.calls.length + answered]? = some call) :
    (∃ x, root.order[answered]? = some x ∧ introspect busname (pathOf x.1) = call) ∧
      ∀ x ∈ root.order.take (answered + 1), (introspect busname (pathOf x.1)).fits = true := by
  rw [h.calls, List.getElem?_append_right (Nat.le_add_right _ _), Nat.add_sub_cancel_left,
    ObjectNode.visit_eq_order] at hcall
  have hshort := List.length_take_le (answered + 1) root.order
  have hlong := (List.getElem?_eq_some_iff.mp hcall).1
  -- None of the calls so far is missing: there is one at the index of the last of them.
  have hall := List.length_filter_eq_length_iff.mp
    (Nat.le_antisymm (List.length_filter_le _ _) (by
      rw [List.length_map]
      exact hshort.trans hlong))
  rw [List.filter_eq_self.mpr hall, List.getElem?_map,
    List.getElem?_take_of_lt (Nat.lt_succ_self answered)] at hcall
  refine ⟨Option.map_eq_some_iff.mp hcall, ?_⟩
  intro x hx
  exact hall _ (List.mem_map_of_mem hx)

/-- If the calls so far fit, none of them is missing. -/
theorem Pending.calls_of_fits {answered : ℕ} {queue : List (String × ObjectNode)} {s : IntroSpector}
    (h : Pending root busname idle answered queue s)
    (hfits : ∀ x ∈ root.order.take (answered + 1), (introspect busname (pathOf x.1)).fits = true) :
    s.calls = idle.calls ++
      (root.order.take (answered + 1)).map fun x => introspect busname (pathOf x.1) := by
  rw [h.calls, ObjectNode.visit_eq_order]
  congr 1
  apply List.filter_eq_self.mpr
  intro call hcall
  obtain ⟨x, hx, rfl⟩ := List.mem_map.mp hcall
  exact hfits x hx

/-- Where an introspection stands after some answers. -/
theorem Introspection.pending (hidle : idle.objectPathsToIntrospect = []) (hroot : root.WellFormed)
    (hopen : idle.introSpectionhGetter.Open) {answered : ℕ} {s : IntroSpector}
    (h : Introspection root busname idle answered s) :
    answered ≤ root.order.length ∧ ∃ queue, Pending root busname idle answered queue s := by
  induction h with
  | start => exact ⟨Nat.zero_le _, _, pending_start hidle hopen⟩
  | @answer answered s path node _ hcall hnode ih =>
      obtain ⟨-, queue, hpending⟩ := ih
      obtain ⟨⟨x, hx, hsame⟩, -⟩ := hpending.asked hcall
      have hnames := ObjectNode.names_of_mem_order hroot (List.mem_of_getElem? hx)
      -- The answer comes from the node whose path stands at the head of the list.
      have hpath : x.1 = path :=
        hnames.pathOf_injective hroot hnode (congrArg IntrospectCall.objectpath hsame)
      rw [← hpath] at hnode
      have hsamenode := hnode.unique hroot hnames
      rw [hsamenode]
      have hhead := root.head?_drain_order answered
      rw [← hpending.queue_eq, hx] at hhead
      obtain ⟨queue, rfl⟩ : ∃ rest, queue = x :: rest := List.head?_eq_some_iff.mp hhead
      exact ⟨(List.getElem?_eq_some_iff.mp hx).1, _, pending_answer hroot hnames hpending⟩

/-- The calls of all nodes that have answered have gone out. -/
theorem Introspection.fits (hidle : idle.objectPathsToIntrospect = []) (hroot : root.WellFormed)
    (hopen : idle.introSpectionhGetter.Open) {answered : ℕ} {s : IntroSpector}
    (h : Introspection root busname idle answered s) :
    ∀ x ∈ root.order.take answered, (introspect busname (pathOf x.1)).fits = true := by
  cases h with
  | start =>
      intro x hx
      cases hx
  | answer h hcall hnode =>
      obtain ⟨-, queue, hpending⟩ := h.pending hidle hroot hopen
      exact (hpending.asked hcall).2

/-- The introspection is over with the last answer. -/
theorem Introspection.introspecting_iff (hidle : idle.objectPathsToIntrospect = [])
    (hroot : root.WellFormed) (hopen : idle.introSpectionhGetter.Open) {answered : ℕ}
    {s : IntroSpector} (h : Introspection root busname idle answered s) :
    s.introspecting = true ↔ answered < root.order.length := by
  obtain ⟨-, queue, hpending⟩ := h.pending hidle hroot hopen
  have hempty := drain_eq_nil_iff root.level_end answered
  rw [← hpending.queue_eq] at hempty
  rw [hpending.introspecting, Bool.not_eq_true', List.isEmpty_eq_false_iff, ne_eq, hempty, not_le]
  rfl

/-- As long as the calls fit, that of the next node is there to be answered. -/
theorem Introspection.next (hidle : idle.objectPathsToIntrospect = []) (hroot : root.WellFormed)
    (hopen : idle.introSpectionhGetter.Open) {answered : ℕ} {s : IntroSpector}
    (h : Introspection root busname idle answered s) (hlt : answered < root.order.length)
    (hfits : ∀ x ∈ root.order.take (answered + 1), (introspect busname (pathOf x.1)).fits = true) :
    ∃ t, Introspection root busname idle (answered + 1) t := by
  obtain ⟨-, queue, hpending⟩ := h.pending hidle hroot hopen
  have hx : root.order[answered]? = some root.order[answered] := List.getElem?_eq_getElem hlt
  refine ⟨_, h.answer ?_
    (ObjectNode.names_of_mem_order hroot (List.mem_of_getElem? hx))⟩
  rw [hpending.calls_of_fits hfits, List.getElem?_append_right (Nat.le_add_right _ _),
    Nat.add_sub_cancel_left, List.getElem?_map, List.getElem?_take_of_lt (Nat.lt_succ_self answered)]
  exact congrArg (Option.map _) hx

theorem Introspection.exists (hidle : idle.objectPathsToIntrospect = []) (hroot : root.WellFormed)
    (hopen : idle.introSpectionhGetter.Open)
    (hfits : ∀ x ∈ root.order, (introspect busname (pathOf x.1)).fits = true) {answered : ℕ}
    (h : answered ≤ root.order.length) : ∃ s, Introspection root busname idle answered s := by
  induction answered with
  | zero => exact ⟨_, .start⟩
  | succ answered ih =>
      obtain ⟨s, hs⟩ := ih (Nat.le_of_succ_le h)
      exact hs.next hidle hroot hopen h fun x hx => hfits x (List.mem_of_mem_take hx)

/-- Where the introspection of a bus name stands after each answer: the calls made are
those of the first nodes in breadth-first order, each node once, and the
introspection is over exactly with the last answer. -/
structure VisitsAll (root : ObjectNode) (busname : String) (idle : IntroSpector) : Prop where
  once : (root.order.map Prod.fst).Nodup
  reachable : ∀ x, x ∈ root.order ↔
    Relation.ReflTransGen (fun a b => b ∈ ObjectNode.reached a) ("", root) x
  goes_on : ∀ answered ≤ root.order.length, ∃ s, Introspection root busname idle answered s
  calls : ∀ answered s, Introspection root busname idle answered s →
    answered ≤ root.order.length ∧
      s.calls = idle.calls ++
        (root.order.take (answered + 1)).map (fun x => introspect busname (pathOf x.1)) ∧
      (s.introspecting = true ↔ answered < root.order.length)

/-- If all nodes are visited, the call of each fits. -/
theorem VisitsAll.fits (hidle : idle.objectPathsToIntrospect = []) (hroot : root.WellFormed)
    (hopen : idle.introSpectionhGetter.Open) (h : VisitsAll root busname idle) :
    ∀ x ∈ root.order, (introspect busname (pathOf x.1)).fits = true := by
  obtain ⟨s, hs⟩ := h.goes_on root.order.length (le_refl _)
  have hfits := hs.fits hidle hroot hopen
  rwa [List.take_length] at hfits

theorem visitsAll_of_fits (hidle : idle.objectPathsToIntrospect = []) (hroot : root.WellFormed)
    (hopen : idle.introSpectionhGetter.Open)
    (hfits : ∀ x ∈ root.order, (introspect busname (pathOf x.1)).fits = true) :
    VisitsAll root busname idle := by
  refine ⟨ObjectNode.order_nodup hroot, fun x => ObjectNode.mem_order_iff,
    fun answered h => Introspection.exists hidle hroot hopen hfits h, ?_⟩
  intro answered s h
  obtain ⟨hle, queue, hpending⟩ := h.pending hidle hroot hopen
  have hcalls := hpending.calls_of_fits fun x hx => hfits x (List.mem_of_mem_take hx)
  exact ⟨hle, hcalls, h.introspecting_iff hidle hroot hopen⟩

/-- The introspection visits all nodes exactly if the call of each fits into
`sendBuffer`, which leaves 3947 bytes for the bus name and the path. -/
theorem introspection_visits_iff (hidle : idle.objectPathsToIntrospect = [])
    (hroot : root.WellFormed) (hopen : idle.introSpectionhGetter.Open) :
    VisitsAll root busname idle ↔
      ∀ x ∈ root.order, busname.utf8ByteSize + (pathOf x.1).utf8ByteSize ≤ 3947 := by
  constructor
  · intro h x hx
    exact (introspect_fits_iff busname (pathOf x.1)).mp (h.fits hidle hroot hopen x hx)
  · intro h
    apply visitsAll_of_fits hidle hroot hopen
    intro x hx
    exact (introspect_fits_iff busname (pathOf x.1)).mpr (h x hx)

/-- Behind the last answer the list is empty, and another introspection may start. -/
theorem introspection_leaves_idle (hidle : idle.objectPathsToIntrospect = []) (hroot : root.WellFormed)
    (hopen : idle.introSpectionhGetter.Open) {s : IntroSpector}
    (h : Introspection root busname idle root.order.length s) : s.objectPathsToIntrospect = [] := by
  obtain ⟨-, queue, hpending⟩ := h.pending hidle hroot hopen
  have hempty := (drain_eq_nil_iff root.level_end root.order.length).mpr (le_refl _)
  rw [hpending.paths, hpending.queue_eq, hempty]
  rfl

end

/-- An `IntroSpector` that has not been used, and its `introSpectionhGetter`. -/
def newIntroSpector (port : Port) : IntroSpector where
  busname := ""
  nodeName := ""
  objectPathsToIntrospect := []
  introspecting := false
  introSpectionhGetter := ⟨0, .allocate 4000, port, []⟩
  calls := []
  messages := []

theorem newIntroSpector_open {portNr : BitVec 16} {port : Port} (h : Port.create portNr = some port) :
    (newIntroSpector port).introSpectionhGetter.Open := ⟨Port.create_ready h, rfl⟩

/-! ## A path that is too long -/

/-- The answer of an object with one child. -/
def oneChild (name : String) : List SaxEvent :=
  [.startElement .node [], .startElement .node [("name", name)], .endElement .node, .endElement .node]

theorem oneChild_wellFormed (name : String) (child : ObjectNode) (hname : child.name ≠ "")
    (hslash : '/' ∉ child.name.toList) (hchild : child.WellFormed) :
    (ObjectNode.mk name (oneChild child.name) [child]).WellFormed := by
  apply ObjectNode.WellFormed.mk
  · exact List.nodup_singleton _
  · intro x hx
    rw [List.mem_singleton.mp hx]
    exact ⟨hname, hslash⟩
  · exact List.prefix_refl _
  · intro x hx
    rw [List.mem_singleton.mp hx]
    exact hchild

theorem leaf_wellFormed (name : String) : (ObjectNode.mk name [] []).WellFormed := by
  apply ObjectNode.WellFormed.mk
  · exact List.nodup_nil
  · intro x hx
    cases hx
  · exact List.nil_prefix
  · intro x hx
    cases hx

def longName (length : ℕ) : String := String.ofList (List.replicate length 'a')

/-- Two objects, one below the other; the answer of each names one child. -/
def longPath (length : ℕ) : ObjectNode :=
  .mk "" (oneChild (longName length))
    [.mk (longName length) (oneChild (longName length)) [.mk (longName length) [] []]]

theorem longName_size (length : ℕ) : (longName length).utf8ByteSize = length := by
  rw [← length_utf8_utf16, longName, String.toList_ofList, utf8_utf16, List.length_flatMap,
    List.map_replicate, List.sum_replicate]
  exact Nat.mul_one length

theorem longPath_wellFormed {length : ℕ} (hpos : 0 < length) : (longPath length).WellFormed := by
  have hname : longName length ≠ "" := by
    intro h
    have hsize := longName_size length
    rw [h] at hsize
    exact absurd hsize (Nat.ne_of_lt hpos)
  have hslash : '/' ∉ (longName length).toList := by
    rw [longName, String.toList_ofList]
    intro h
    exact absurd (List.eq_of_mem_replicate h) (by decide)
  have hlower := oneChild_wellFormed (longName length) (.mk (longName length) [] []) hname hslash
    (leaf_wellFormed (longName length))
  exact oneChild_wellFormed "" (.mk (longName length) _ _) hname hslash hlower

theorem mem_order_longPath (length : ℕ) :
    ("" ++ "/" ++ longName length ++ "/" ++ longName length, ObjectNode.mk (longName length) [] []) ∈
      (longPath length).order := by
  rw [ObjectNode.mem_order_iff]
  have hchild : ("" ++ "/" ++ longName length,
      ObjectNode.mk (longName length) (oneChild (longName length)) [.mk (longName length) [] []]) ∈
        ObjectNode.reached ("", longPath length) := List.mem_singleton.mpr rfl
  exact (Relation.ReflTransGen.single hchild).tail (List.mem_singleton.mpr rfl)

theorem longPath_over {length : ℕ} (hlong : 1970 < length) : (introspect "org.a"
    (pathOf ("" ++ "/" ++ longName length ++ "/" ++ longName length))).fits ≠ true := by
  have hbus : "org.a".utf8ByteSize = 5 := rfl
  have hslash : "/".utf8ByteSize = 1 := rfl
  rw [ne_eq, introspect_fits_iff, pathOf, if_neg child_ne_root]
  simp only [String.utf8ByteSize_append, longName_size, hbus, hslash]
  omega

/-- The lower object is never asked, and the introspection never ends. -/
theorem longPath_stalls {length : ℕ} (hlong : 1970 < length) {portNr : BitVec 16} {port : Port}
    (hport : Port.create portNr = some port) :
    ¬VisitsAll (longPath length) "org.a" (newIntroSpector port) ∧
      ∀ answered s, Introspection (longPath length) "org.a" (newIntroSpector port) answered s →
        s.introspecting = true := by
  have hopen := newIntroSpector_open hport
  have hroot := @longPath_wellFormed length (by omega)
  constructor
  · intro h
    have hfits := h.fits rfl hroot hopen _ (mem_order_longPath length)
    exact longPath_over hlong hfits
  · intro answered s h
    rw [h.introspecting_iff rfl hroot hopen]
    by_contra hend
    have hfits := h.fits rfl hroot hopen
    rw [List.take_of_length_le (Nat.not_lt.mp hend)] at hfits
    have hlast := hfits _ (mem_order_longPath length)
    exact longPath_over hlong hlast

theorem introspection_misses_long_path : (longPath 2000).WellFormed ∧
    ∃ port, Port.create 5 = some port ∧
      ¬VisitsAll (longPath 2000) "org.a" (newIntroSpector port) ∧
      ∀ answered s, Introspection (longPath 2000) "org.a" (newIntroSpector port) answered s →
        s.introspecting = true := by
  have hlong : 1970 < 2000 := by decide
  obtain ⟨port, hport⟩ : ∃ port, Port.create 5 = some port := ⟨_, rfl⟩
  exact ⟨longPath_wellFormed (Nat.zero_lt_of_lt hlong), port, hport, longPath_stalls hlong hport⟩

/-! ## Two children -/

/-- A root with two children, which answer with errors. -/
def twoChildren : ObjectNode :=
  .mk "" [.startElement .node [], .startElement .node [("name", "a")], .endElement .node,
    .startElement .node [("name", "b")], .endElement .node, .endElement .node] [.mk "a" [] [], .mk "b" [] []]

theorem twoChildren_wellFormed : twoChildren.WellFormed := by
  refine .mk _ _ _ (by decide) (by decide) (by decide) ?_
  intro child hchild
  rcases List.mem_pair.mp hchild with rfl | rfl
  · exact leaf_wellFormed "a"
  · exact leaf_wellFormed "b"

theorem reached_twoChildren : ObjectNode.reached ("", twoChildren) =
    [("" ++ "/" ++ "a", .mk "a" [] []), ("" ++ "/" ++ "b", .mk "b" [] [])] := rfl

/-- The children name no objects of their own. -/
theorem mem_order_twoChildren {x : String × ObjectNode} (h : x ∈ twoChildren.order) :
    x = ("", twoChildren) ∨ x ∈ ObjectNode.reached ("", twoChildren) := by
  induction ObjectNode.mem_order_iff.mp h with
  | refl => exact .inl rfl
  | @tail y z hreach hkid ih =>
      rcases ih (ObjectNode.mem_order_iff.mpr hreach) with rfl | hchild
      · exact .inr hkid
      · rw [reached_twoChildren] at hchild
        rcases List.mem_pair.mp hchild with rfl | rfl
        · cases hkid
        · cases hkid

theorem introspection_visits_twoChildren : twoChildren.WellFormed ∧
    ∃ port, Port.create 5 = some port ∧ VisitsAll twoChildren "org.a" (newIntroSpector port) := by
  obtain ⟨port, hport⟩ : ∃ port, Port.create 5 = some port := ⟨_, rfl⟩
  refine ⟨twoChildren_wellFormed, port, hport, ?_⟩
  apply (introspection_visits_iff rfl twoChildren_wellFormed (newIntroSpector_open hport)).mpr
  intro x hx
  rcases mem_order_twoChildren hx with rfl | hchild
  · decide
  · rw [reached_twoChildren] at hchild
    rcases List.mem_pair.mp hchild with rfl | rfl
    · decide
    · decide

end AapBridge.Android
