import Mathlib

/-! # Introspection documents

`DbusIntrospectionContentHandler` on the events of the SAX parser, and the
`ObjectPath` it sends. The handler sends at the end of every node element once
it has seen an interface, the child nodes included.
-/

namespace AapBridge.Android

/-- The elements the handler looks for. -/
inductive ElementName where
  | node
  | interface
  | method
  | signal
  | property
  | arg
  | other (localName : String)
deriving DecidableEq

abbrev Attributes := List (String × String)

/-- The value of an attribute, or `null`. -/
def Attributes.getValue (attributes : Attributes) (name : String) : Option String :=
  attributes.lookup name

inductive SaxEvent where
  | startElement (name : ElementName) (attributes : Attributes)
  | endElement (name : ElementName)

/-- A reference to a string in a concatenation. -/
def javaString (s : Option String) : String := s.getD "null"

structure DbusInterface where
  name : Option String
  methods : List (Option String)
  signals : List (Option String)
  properties : List (Option String)
deriving DecidableEq

structure ObjectPath where
  name : String
  interfaces : List DbusInterface
deriving DecidableEq

/-- `dbusInterface` is the last interface of `objectPath`, and `null` as long as
that is. `objectPathsToIntrospect` belongs to the `IntroSpector`, `messages` are
those sent to the `objectPathHandler`. -/
structure ContentHandler where
  depth : ℤ
  objectPath : Option ObjectPath
  member : Option String
  objectPathsToIntrospect : List String
  messages : List ObjectPath
deriving DecidableEq

namespace ContentHandler

/-- A new handler, for an `IntroSpector` with this list. -/
def new (objectPathsToIntrospect : List String) : ContentHandler where
  depth := 0
  objectPath := none
  member := none
  objectPathsToIntrospect := objectPathsToIntrospect
  messages := []

def startElement (nodeName : String) (h : ContentHandler) (attributes : Attributes) :
    ElementName → ContentHandler
  | .node =>
      let h := { h with depth := h.depth + 1 }
      if h.depth = 2 then
        { h with objectPathsToIntrospect := h.objectPathsToIntrospect ++
            [nodeName ++ "/" ++ javaString (attributes.getValue "name")] }
      else h
  | .interface =>
      let objectPath := h.objectPath.getD ⟨if nodeName = "" then "/" else nodeName, []⟩
      { h with objectPath := some { objectPath with
          interfaces := objectPath.interfaces ++ [⟨attributes.getValue "name", [], [], []⟩] } }
  | .method | .signal | .property => { h with member := attributes.getValue "name" }
  | .arg =>
      { h with member := some (javaString h.member ++ " " ++ javaString (attributes.getValue "name") ++
          " " ++ javaString (attributes.getValue "type") ++ " " ++
          javaString (attributes.getValue "direction")) }
  | .other _ => h

/-- A call on `dbusInterface`; there is no result if it is `null`. -/
def onInterface (h : ContentHandler) (f : DbusInterface → DbusInterface) : Option ContentHandler :=
  h.objectPath.map fun objectPath =>
    { h with objectPath := some { objectPath with interfaces := objectPath.interfaces.modifyLast f } }

def endElement (h : ContentHandler) : ElementName → Option ContentHandler
  | .node =>
      let h := { h with depth := h.depth - 1 }
      match h.objectPath with
      | some objectPath =>
          if objectPath.interfaces.isEmpty then some h
          else some { h with messages := h.messages ++ [objectPath] }
      | none => some h
  | .method => h.onInterface fun i => { i with methods := i.methods ++ [h.member] }
  | .signal => h.onInterface fun i => { i with signals := i.signals ++ [h.member] }
  | .property => h.onInterface fun i => { i with properties := i.properties ++ [h.member] }
  | .interface | .arg | .other _ => some h

def handle (nodeName : String) (h : ContentHandler) : SaxEvent → Option ContentHandler
  | .startElement name attributes => some (h.startElement nodeName attributes name)
  | .endElement name => h.endElement name

/-- `Xml.parse` as far as the handler throws no exception. -/
def parse (nodeName : String) : ContentHandler → List SaxEvent → ContentHandler
  | h, [] => h
  | h, event :: events =>
      match h.handle nodeName event with
      | some h => parse nodeName h events
      | none => h

end ContentHandler

/-! ## Documents -/

inductive MemberKind where
  | method
  | signal
  | property
deriving DecidableEq

def MemberKind.element : MemberKind → ElementName
  | method => .method
  | signal => .signal
  | property => .property

/-- A method, signal or property element and the arg elements in it. -/
structure Member where
  kind : MemberKind
  attributes : Attributes
  args : List Attributes

/-- What stands in the root node element. -/
inductive NodeContent where
  | interface (attributes : Attributes) (members : List Member)
  | node (attributes : Attributes)

/-- An introspection document. -/
structure NodeDocument where
  attributes : Attributes
  contents : List NodeContent

def argEvents (attributes : Attributes) : List SaxEvent :=
  [.startElement .arg attributes, .endElement .arg]

def Member.events (member : Member) : List SaxEvent :=
  .startElement member.kind.element member.attributes ::
    (member.args.flatMap argEvents ++ [.endElement member.kind.element])

def NodeContent.events : NodeContent → List SaxEvent
  | interface attributes members =>
      .startElement .interface attributes :: (members.flatMap Member.events ++ [.endElement .interface])
  | node attributes => [.startElement .node attributes, .endElement .node]

def NodeDocument.events (document : NodeDocument) : List SaxEvent :=
  .startElement .node document.attributes ::
    (document.contents.flatMap NodeContent.events ++ [.endElement .node])

/-- An argument in the text of its member. -/
def argText (attributes : Attributes) : String :=
  " " ++ javaString (attributes.getValue "name") ++ " " ++ javaString (attributes.getValue "type") ++
    " " ++ javaString (attributes.getValue "direction")

/-- The name of a member with its arguments behind it. -/
def Member.text (member : Member) : Option String :=
  match member.args with
  | [] => member.attributes.getValue "name"
  | args => some (javaString (member.attributes.getValue "name") ++ String.join (args.map argText))

/-- The texts of the members of one kind, in the order of the document. -/
def textsOf (kind : MemberKind) (members : List Member) : List (Option String) :=
  (members.filter fun member => member.kind = kind).map Member.text

/-- The interface that an element describes. -/
def describe (attributes : Attributes) (members : List Member) : DbusInterface where
  name := attributes.getValue "name"
  methods := textsOf .method members
  signals := textsOf .signal members
  properties := textsOf .property members

def NodeContent.described : NodeContent → Option DbusInterface
  | interface attributes members => some (describe attributes members)
  | node _ => none

/-- The interfaces of a node, in the order of the document. -/
def NodeDocument.interfaces (document : NodeDocument) : List DbusInterface :=
  document.contents.filterMap NodeContent.described

/-- The path of the node with this name. -/
def pathOf (nodeName : String) : String := if nodeName = "" then "/" else nodeName

/-- One message with all interfaces, or none where there is no interface. -/
def ReportedOnce (nodeName : String) (paths : List String) (document : NodeDocument) : Prop :=
  (ContentHandler.parse nodeName (.new paths) document.events).messages =
    if document.interfaces.isEmpty then [] else [⟨pathOf nodeName, document.interfaces⟩]

/-- No child node stands behind an interface. -/
def ChildrenFirst (contents : List NodeContent) : Prop :=
  contents.Pairwise fun before content => before.described = none ∨ content.described ≠ none

/-! ## Members -/

/-- An interface with one more member. -/
def DbusInterface.add (i : DbusInterface) (member : Member) : DbusInterface :=
  match member.kind with
  | .method => { i with methods := i.methods ++ [member.text] }
  | .signal => { i with signals := i.signals ++ [member.text] }
  | .property => { i with properties := i.properties ++ [member.text] }

theorem foldl_add (members : List Member) (i : DbusInterface) :
    members.foldl DbusInterface.add i =
      { i with
        methods := i.methods ++ textsOf .method members
        signals := i.signals ++ textsOf .signal members
        properties := i.properties ++ textsOf .property members } := by
  induction members generalizing i with
  | nil => simp [textsOf]
  | cons member members ih =>
      rw [List.foldl_cons, ih]
      cases hkind : member.kind <;> simp [DbusInterface.add, hkind, textsOf]

namespace ContentHandler

variable {nodeName : String} {h : ContentHandler}

/-- The text of a member with one more argument. -/
def addArg (member : Option String) (attributes : Attributes) : Option String :=
  some (javaString member ++ argText attributes)

theorem parse_args (args : List Attributes) (events : List SaxEvent) :
    parse nodeName h (args.flatMap argEvents ++ events) =
      parse nodeName { h with member := args.foldl addArg h.member } events := by
  induction args generalizing h with
  | nil => rfl
  | cons attributes args ih =>
      rw [List.flatMap_cons, List.append_assoc]
      show parse nodeName (h.startElement nodeName attributes .arg)
        (args.flatMap argEvents ++ events) = _
      rw [ih, List.foldl_cons]
      simp only [startElement, addArg, argText, String.append_assoc]

theorem foldl_addArg (args : List Attributes) (member : String) :
    args.foldl addArg (some member) = some (member ++ String.join (args.map argText)) := by
  induction args generalizing member with
  | nil => simp
  | cons attributes args ih =>
      rw [List.foldl_cons, addArg, ih, List.map_cons, String.join_cons, String.append_assoc]
      rfl

/-- The text that a member has when its element ends. -/
theorem text_eq (member : Member) :
    member.args.foldl addArg (member.attributes.getValue "name") = member.text := by
  unfold Member.text
  split
  · next hnil => rw [hnil, List.foldl_nil]
  · next hargs =>
    cases hcases : member.args with
    | nil => exact absurd hcases hargs
    | cons attributes args =>
        rw [List.foldl_cons, addArg, foldl_addArg, List.map_cons, String.join_cons,
          String.append_assoc]

theorem parse_member (member : Member) (events : List SaxEvent) {path : String}
    {before : List DbusInterface} {i : DbusInterface} (hpath : h.objectPath = some ⟨path, before ++ [i]⟩) :
    parse nodeName h (member.events ++ events) = parse nodeName { h with
      member := member.text
      objectPath := some ⟨path, before ++ [i.add member]⟩ } events := by
  have hlast : ∀ f : DbusInterface → DbusInterface,
      (before ++ [i]).modifyLast f = before ++ [f i] := by
    intro f
    exact List.modifyLast_concat f i before
  rw [Member.events, List.cons_append, List.append_assoc]
  cases hkind : member.kind with
  | _ =>
      show parse nodeName { h with member := member.attributes.getValue "name" }
        (member.args.flatMap argEvents ++ _) = _
      rw [parse_args, text_eq]
      simp only [List.singleton_append, MemberKind.element, parse, handle, endElement, onInterface,
        hpath, Option.map_some, hlast, DbusInterface.add, hkind]

variable (nodeName) in
theorem parse_members (members : List Member) (events : List SaxEvent) {path : String}
    {before : List DbusInterface} {i : DbusInterface} (hpath : h.objectPath = some ⟨path, before ++ [i]⟩) :
    ∃ member, parse nodeName h (members.flatMap Member.events ++ events) = parse nodeName { h with
      member := member
      objectPath := some ⟨path, before ++ [members.foldl DbusInterface.add i]⟩ } events := by
  induction members generalizing h i with
  | nil =>
      refine ⟨h.member, ?_⟩
      rw [List.foldl_nil, ← hpath]
      rfl
  | cons member members ih =>
      obtain ⟨last, hrest⟩ := ih (h := { h with
        member := member.text
        objectPath := some ⟨path, before ++ [i.add member]⟩ }) rfl
      refine ⟨last, ?_⟩
      rw [List.flatMap_cons, List.append_assoc, parse_member member _ hpath, hrest]
      rfl

/-! ## The contents of the root -/

/-- The object path with one more interface. -/
def extend (nodeName : String) (objectPath : Option ObjectPath) (i : DbusInterface) :
    Option ObjectPath :=
  let found := objectPath.getD ⟨pathOf nodeName, []⟩
  some { found with interfaces := found.interfaces ++ [i] }

theorem foldl_extend (nodeName : String) (is : List DbusInterface) (objectPath : ObjectPath) :
    is.foldl (extend nodeName) (some objectPath) =
      some { objectPath with interfaces := objectPath.interfaces ++ is } := by
  induction is generalizing objectPath with
  | nil => rw [List.foldl_nil, List.append_nil]
  | cons i is ih =>
      rw [List.foldl_cons]
      show is.foldl (extend nodeName) (some _) = _
      rw [ih]
      simp

/-- How often a message goes out at the ends of child nodes; `seen` tells whether an
interface stands in front. -/
def childReports : Bool → List NodeContent → ℕ
  | _, [] => 0
  | _, .interface _ _ :: contents => childReports true contents
  | seen, .node _ :: contents => childReports seen contents + seen.toNat

variable (nodeName) in
theorem parse_interface (attributes : Attributes) (members : List Member) (events : List SaxEvent) :
    ∃ member, parse nodeName h ((NodeContent.interface attributes members).events ++ events) =
      parse nodeName { h with
        member := member
        objectPath := extend nodeName h.objectPath (describe attributes members) } events := by
  have hstart : (h.startElement nodeName attributes .interface).objectPath =
      extend nodeName h.objectPath ⟨attributes.getValue "name", [], [], []⟩ := rfl
  obtain ⟨member, hmembers⟩ := parse_members nodeName members
    (.endElement .interface :: events) hstart
  refine ⟨member, ?_⟩
  rw [NodeContent.events, List.cons_append, List.append_assoc]
  show parse nodeName (h.startElement nodeName attributes .interface)
    (members.flatMap Member.events ++ .endElement .interface :: events) = _
  rw [hmembers, foldl_add]
  rfl

variable (nodeName) in
/-- A child node is noted, and a message goes out if there is an interface already. -/
theorem parse_node (attributes : Attributes) (events : List SaxEvent) (hdepth : h.depth = 1)
    (hfull : ∀ objectPath, h.objectPath = some objectPath → objectPath.interfaces ≠ []) :
    parse nodeName h ((NodeContent.node attributes).events ++ events) =
      parse nodeName { h with
        objectPathsToIntrospect := h.objectPathsToIntrospect ++
          [nodeName ++ "/" ++ javaString (attributes.getValue "name")]
        messages := h.messages ++ h.objectPath.toList } events := by
  obtain ⟨depth, objectPath, member, paths, messages⟩ := h
  subst hdepth
  cases objectPath with
  | none =>
      rw [Option.toList_none, List.append_nil]
      rfl
  | some objectPath =>
      have hsome : objectPath.interfaces.isEmpty = false := by
        rw [List.isEmpty_eq_false_iff]
        exact hfull objectPath rfl
      show parse nodeName _ (.endElement .node :: events) = _
      simp only [startElement, if_pos (show (1 : ℤ) + 1 = 2 from rfl), parse, handle, endElement, hsome]
      rfl

theorem extend_full {nodeName : String} {objectPath : Option ObjectPath} {i : DbusInterface} :
    ∀ extended, extend nodeName objectPath i = some extended → extended.interfaces ≠ [] := by
  intro extended heq
  cases heq
  exact List.append_ne_nil_of_right_ne_nil _ (List.cons_ne_nil i [])

variable (nodeName) in
/-- The handler behind the contents of the root element. -/
theorem parse_contents (contents : List NodeContent) (events : List SaxEvent) (hdepth : h.depth = 1)
    (hfull : ∀ objectPath, h.objectPath = some objectPath → objectPath.interfaces ≠ []) :
    ∃ member paths messages,
      parse nodeName h (contents.flatMap NodeContent.events ++ events) = parse nodeName { h with
        member := member
        objectPath := (contents.filterMap NodeContent.described).foldl (extend nodeName) h.objectPath
        objectPathsToIntrospect := paths
        messages := h.messages ++ messages } events ∧
      messages.length = childReports h.objectPath.isSome contents := by
  induction contents generalizing h with
  | nil => exact ⟨h.member, h.objectPathsToIntrospect, [], by rw [List.append_nil]; rfl, rfl⟩
  | cons content contents ih =>
      rw [List.flatMap_cons, List.append_assoc]
      cases content with
      | interface attributes members =>
          obtain ⟨last, hinterface⟩ := parse_interface nodeName (h := h) attributes members
            (contents.flatMap NodeContent.events ++ events)
          obtain ⟨member, paths, messages, hrest, hcount⟩ := ih (h := { h with
            member := last
            objectPath := extend nodeName h.objectPath (describe attributes members) })
              hdepth extend_full
          exact ⟨member, paths, messages, hinterface.trans hrest, hcount⟩
      | node attributes =>
          have hnode := parse_node nodeName attributes
            (contents.flatMap NodeContent.events ++ events) hdepth hfull
          obtain ⟨member, paths, messages, hrest, hcount⟩ := ih (h := { h with
            objectPathsToIntrospect := h.objectPathsToIntrospect ++
              [nodeName ++ "/" ++ javaString (attributes.getValue "name")]
            messages := h.messages ++ h.objectPath.toList }) hdepth hfull
          refine ⟨member, paths, h.objectPath.toList ++ messages, ?_, ?_⟩
          · rw [hnode, hrest, ← List.append_assoc]
            rfl
          · rw [List.length_append, hcount, childReports, Nat.add_comm]
            cases h.objectPath <;> rfl

/-- The messages of a whole document: those at the child nodes, and one at the end. -/
theorem parse_document (nodeName : String) (paths : List String) (document : NodeDocument) :
    ∃ early, (parse nodeName (.new paths) document.events).messages = early ++
        (if document.interfaces.isEmpty then [] else [⟨pathOf nodeName, document.interfaces⟩]) ∧
      early.length = childReports false document.contents := by
  obtain ⟨member, found, early, hrest, hcount⟩ := parse_contents nodeName
    (h := (new paths).startElement nodeName document.attributes .node) document.contents
    [.endElement .node] rfl nofun
  refine ⟨early, ?_, hcount⟩
  rw [NodeDocument.events]
  show (parse nodeName ((new paths).startElement nodeName document.attributes .node) _).messages = _
  rw [hrest]
  cases hinterfaces : document.interfaces with
  | nil =>
      have hnone : document.contents.filterMap NodeContent.described = [] := hinterfaces
      rw [hnone]
      show ([] : List ObjectPath) ++ early = early ++ []
      rw [List.append_nil, List.nil_append]
  | cons i is =>
      have hsome : document.contents.filterMap NodeContent.described = i :: is := hinterfaces
      have hpath : (i :: is).foldl (extend nodeName) none = some ⟨pathOf nodeName, i :: is⟩ := by
        rw [List.foldl_cons]
        exact foldl_extend nodeName is ⟨pathOf nodeName, [i]⟩
      have hstart : ((new paths).startElement nodeName document.attributes .node).objectPath = none := rfl
      rw [hstart, hsome, hpath]
      rfl

end ContentHandler

/-! ## One report -/

theorem childReports_eq_zero_iff (contents : List NodeContent) :
    ContentHandler.childReports true contents = 0 ↔ ∀ content ∈ contents, content.described ≠ none := by
  induction contents with
  | nil => exact iff_of_true rfl nofun
  | cons content contents ih =>
      rw [List.forall_mem_cons]
      cases content with
      | interface attributes members =>
          rw [ContentHandler.childReports, ih]
          exact (and_iff_right (Option.some_ne_none _)).symm
      | node attributes =>
          apply iff_of_false
          · rw [ContentHandler.childReports]
            exact Nat.succ_ne_zero _
          · intro h
            exact h.1 rfl

theorem childReports_false_iff (contents : List NodeContent) :
    ContentHandler.childReports false contents = 0 ↔ ChildrenFirst contents := by
  induction contents with
  | nil => exact iff_of_true rfl List.Pairwise.nil
  | cons content contents ih =>
      rw [ChildrenFirst, List.pairwise_cons]
      cases content with
      | interface attributes members =>
          rw [ContentHandler.childReports, childReports_eq_zero_iff]
          constructor
          · intro hbehind
            have hrest := List.pairwise_of_forall_mem_list (l := contents)
              (r := fun before content => before.described = none ∨ content.described ≠ none)
              fun before _ content hmem => .inr (hbehind content hmem)
            exact ⟨fun content hmem => .inr (hbehind content hmem), hrest⟩
          · intro h content hmem
            exact (h.1 content hmem).resolve_left (Option.some_ne_none _)
      | node attributes =>
          rw [ContentHandler.childReports, Bool.toNat_false, Nat.add_zero, ih]
          exact (and_iff_right fun content _ => .inl rfl).symm

/-- A node is reported once, with everything it has, exactly if no child node stands
behind an interface. -/
theorem reportedOnce_iff (nodeName : String) (paths : List String) (document : NodeDocument) :
    ReportedOnce nodeName paths document ↔ ChildrenFirst document.contents := by
  obtain ⟨early, hmessages, hcount⟩ := ContentHandler.parse_document nodeName paths document
  rw [← childReports_false_iff, ← hcount, List.length_eq_zero_iff, ReportedOnce, hmessages]
  exact List.append_left_eq_self

/-- An interface without members, and a child node behind it. -/
def interfaceThenChild : NodeDocument where
  attributes := []
  contents := [.interface [("name", "a.B")] [], .node [("name", "c")]]

/-- The interface is reported at the end of the child and again at its own end. -/
theorem interfaceThenChild_twice : ¬∀ (nodeName : String) (paths : List String)
    (document : NodeDocument), ReportedOnce nodeName paths document := by
  intro h
  have honce := h "" [""] interfaceThenChild
  have htwice : (ContentHandler.parse "" (.new [""]) interfaceThenChild.events).messages.length = 2 := rfl
  rw [honce] at htwice
  exact absurd htwice (by decide)

end AapBridge.Android
