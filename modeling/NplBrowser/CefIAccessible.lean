import NplBrowser.OsrAXTree

/-!
# What the clients of MSAA see

A `CefIAccessible` is made for a node when it is first asked for, and `parent_` is set then, to the node
that was asked or to null when it is the window, for the root, or `get_accFocus` that asks. It is not
set again: not when the node is later returned as a child, and not when the tree changes. So
`get_accParent` of a child's object returns its parent's only as long as objects are made top down
(`Ready`).

A node keeps a reference to its object, so no object goes away with its clients.
-/

namespace NplBrowser

namespace AXTree

/-- `GetNativeAccessibleObject`. -/
def getNativeAccessibleObject (t : AXTree) (n : Nat) (parent : Option Nat) : AXTree × Nat :=
  match t.platform n with
  | some o => (t, o)
  | none =>
    ({ t with
        platform := Function.update t.platform n (some t.objects)
        objectNode := Function.update t.objectNode t.objects (some n)
        objects := t.objects + 1
        parent := Function.update t.parent n parent },
      t.objects)

/-- `OsrWindowWin::UpdateAccessibilityTree`: the root's object is made at once. -/
def updateWindow (fuel : Nat) (t : AXTree) (value : Option CefValue) : Option AXTree :=
  (t.updateAccessibilityTree fuel value).map fun t =>
    match t.getNode t.helper.rootNodeId with
    | some root => (t.getNativeAccessibleObject root none).1
    | none => t

/-- `ChildAtIndex`. A negative index is out of the vector's bounds. -/
def childAtIndex (t : AXTree) (n : Nat) (index : Int) : Option (Option Nat) :=
  if index < (t.helper.node n).childIds.length then
    if index < 0 then none else some ((t.helper.node n).childIds[index.toNat]?.bind t.getNode)
  else some none

/-- The node whose object `get_accChild` returns. There is none where a null pointer is looked into. -/
def accChildNode (t : AXTree) (n : Nat) (lVal : Int) : Option Nat :=
  if lVal = 0 then some n
  else (t.childAtIndex n (lVal - 1)).bind fun child =>
    child.or (t.getNode t.helper.focusedNodeId)

/-- What a query returns: the window's own object where there is no other parent, and nothing at all
for an argument that is not a child id. -/
inductive Answer
  | notConnected
  | invalidArg
  | null
  | object (o : Nat)
  | self
  | window
  | unset
deriving DecidableEq

def accChildCount (t : AXTree) (o : Nat) : Option Nat :=
  (t.objectNode o).map fun n => (t.helper.node n).childIds.length

def accChild (t : AXTree) (o : Nat) (varChild : Option Int) : Option (AXTree × Answer) :=
  match t.objectNode o with
  | none => some (t, .notConnected)
  | some n =>
    if (t.helper.node n).childIds.length = 0 then some (t, .null)
    else
      match varChild with
      | none => some (t, .unset)
      | some lVal =>
        if lVal = 0 then some (t, .object o)
        else (t.accChildNode n lVal).map fun child =>
          let (t, o) := t.getNativeAccessibleObject child (some n)
          (t, .object o)

def accFocus (t : AXTree) (o : Nat) : AXTree × Answer :=
  match t.objectNode o with
  | none => (t, .notConnected)
  | some _ =>
    match t.getNode t.helper.focusedNodeId with
    | none => (t, .null)
    | some focused =>
      let (t, nativeObj) := t.getNativeAccessibleObject focused none
      (t, if nativeObj = o then .self else .object nativeObj)

def accParent (t : AXTree) (o : Nat) : Answer :=
  match t.objectNode o with
  | none => .invalidArg
  | some n =>
    match (t.parent n).bind t.platform with
    | some parent => .object parent
    | none => .window

end AXTree

/-- The tree, and what `get_accChild` has returned so far: the node it was called on and the object. -/
structure AccessibleWindow where
  tree : AXTree
  returned : List (Nat × Nat) := []

namespace AccessibleWindow

inductive Event
  | updateAccessibilityTree (fuel : Nat) (value : Option CefValue)
  | accChild (o : Nat) (varChild : Option Int)
  | accFocus (o : Nat)
  | accParent (o : Nat)

def record (n : Option Nat) (answer : AXTree.Answer) : List (Nat × Nat) :=
  match n, answer with
  | some n, .object child => [(n, child)]
  | _, _ => []

def step (s : AccessibleWindow) : Event → Option AccessibleWindow
  | .updateAccessibilityTree fuel value => (s.tree.updateWindow fuel value).map fun tree => { s with tree }
  | .accChild o varChild => (s.tree.accChild o varChild).map fun (tree, answer) =>
    { tree, returned := s.returned ++ record (s.tree.objectNode o) answer }
  | .accFocus o => some { s with tree := (s.tree.accFocus o).1 }
  | .accParent _ => some s

/-- Before any update. What nodes will find in their `offset_container_id_` is given. -/
def start (offsetContainerId : Nat → Int) : AccessibleWindow where
  tree := { offsetContainerId }

end AccessibleWindow

namespace AXTree

/-- The dictionary lists `c` as a child of `n`. -/
def Lists (t : AXTree) (node : CefDictionaryValue) (c n : Nat) : Prop :=
  node.hasKey kId = true ∧ t.getNode (node.get kId).getInt = some n ∧
    ∃ childs, (node.get kChildIds).getList = some childs ∧ ∃ v ∈ childs, t.getNode v.getInt = some c

/-- One of the update's nodes does. -/
def UpdateLists (t : AXTree) (update : CefDictionaryValue) (c n : Nat) : Prop :=
  ∃ nodes, (update.get kNodes).getList = some nodes ∧
    ∃ v ∈ nodes, ∃ node, v.getDictionary = some node ∧ t.Lists node c n

/-- An event of a call does. -/
def EventLists (t : AXTree) (v : CefValue) (c n : Nat) : Prop :=
  ∃ event, v.getDictionary = some event ∧
    ((event.get (lit "event_type")).getString = lit "layoutComplete" ∨
      ((event.get (lit "event_type")).getString = lit "focus" ∧ event.hasKey kId = true)) ∧
    ∃ update, (event.get (lit "update")).getDictionary = some update ∧ t.UpdateLists update c n

end AXTree

namespace AccessibleWindow

/-- A child that `get_accChild` returns has no object yet, or one that was made for the node it is called
on. An update lists no node as the child of one that has returned its object, made for another. -/
def Ready (s : AccessibleWindow) : Event → Prop
  | .accChild o varChild => ∀ n lVal c, s.tree.objectNode o = some n → varChild = some lVal →
    s.tree.accChildNode n lVal = some c → s.tree.helper.Child c n →
      s.tree.platform c = none ∨ s.tree.parent c = some n
  | .updateAccessibilityTree _ value => ∀ l v n o c, value = some (.list l) → v ∈ l →
    (n, o) ∈ s.returned → s.tree.objectNode o = some c → s.tree.EventLists v c n →
      s.tree.parent c = some n
  | .accFocus _ | .accParent _ => True

end AccessibleWindow

namespace AXTree

variable {t t' t₀ : AXTree} {n fuel : Nat} {Q : Nat → Nat → Prop}

/-! ## Nodes and objects -/

/-- A node and its object know each other, and both have been made. -/
structure Native (t : AXTree) : Prop where
  node : ∀ o n, t.objectNode o = some n → t.platform n = some o ∧ o < t.objects ∧ n < t.helper.created
  object : ∀ n o, t.platform n = some o → t.objectNode o = some n
  made : ∀ k n, t.helper.nodeMap k = some n → n < t.helper.created

theorem Native.lt_created (h : t.Native) {k : Int} (hk : t.getNode k = some n) : n < t.helper.created :=
  h.made k n (AccessibilityHelper.getNode_eq_some hk)

theorem Native.disconnect (h : t.Native) (n : Nat) : (t.disconnect n).Native ∧
    ∀ o c, (t.disconnect n).objectNode o = some c → t.objectNode o = some c := by
  have hobject : ∀ o c, (t.disconnect n).objectNode o = some c → t.objectNode o = some c ∧ c ≠ n := by
    intro o c hc
    obtain ⟨hne, hold⟩ := Option.ite_none_left_eq_some.1 hc
    refine ⟨hold, ?_⟩
    rintro rfl
    exact hne (h.node o c hold).1
  refine ⟨⟨fun o c hc => ?_, fun c o hc => ?_, h.made⟩, fun o c hc => (hobject o c hc).1⟩
  · obtain ⟨hold, hne⟩ := hobject o c hc
    obtain ⟨hplatform, hlt⟩ := h.node o c hold
    refine ⟨?_, hlt⟩
    show Function.update t.platform n none c = some o
    rwa [Function.update_of_ne hne]
  · have hc' : Function.update t.platform n none c = some o := hc
    by_cases hcn : c = n
    · rw [hcn, Function.update_self] at hc'
      cases hc'
    · rw [Function.update_of_ne hcn] at hc'
      have hne : t.platform n ≠ some o := by
        intro hn
        have hsame := h.object n o hn
        rw [h.object c o hc', Option.some.injEq] at hsame
        exact hcn hsame
      show (if t.platform n = some o then none else t.objectNode o) = some c
      rw [if_neg hne]
      exact h.object c o hc'

/-- A node's object, made for `parent` if there was none. -/
structure Gives (t : AXTree) (n : Nat) (parent : Option Nat) (t' : AXTree) (o : Nat) : Prop where
  native : t'.Native
  helper : t'.helper = t.helper
  objects : t.objects ≤ t'.objects
  old : ∀ o < t.objects, ∀ c, t'.objectNode o = some c → t.objectNode o = some c ∧ t'.parent c = t.parent c
  objectNode : t'.objectNode o = some n
  parent : t'.parent n = if t.platform n = none then parent else t.parent n

theorem Native.getNativeAccessibleObject (h : t.Native) (hn : n < t.helper.created) (parent : Option Nat) :
    Gives t n parent (t.getNativeAccessibleObject n parent).1 (t.getNativeAccessibleObject n parent).2 := by
  unfold AXTree.getNativeAccessibleObject
  cases hp : t.platform n with
  | some o =>
    exact ⟨h, rfl, le_rfl, fun o _ c hc => ⟨hc, rfl⟩, h.object n o hp, by simp [hp]⟩
  | none =>
    have hold : ∀ o, o < t.objects → Function.update t.objectNode t.objects (some n) o = t.objectNode o :=
      fun o ho => Function.update_of_ne (Nat.ne_of_lt ho) _ _
    have hne : ∀ o c, t.objectNode o = some c → c ≠ n := by
      rintro o c hc rfl
      rw [(h.node o c hc).1] at hp
      cases hp
    refine ⟨⟨fun o c hc => ?_, fun c o hc => ?_, h.made⟩, rfl, Nat.le_succ _, fun o ho c hc => ?_,
      Function.update_self .., ?_⟩
    · show Function.update t.platform n (some t.objects) c = some o ∧ o < t.objects + 1 ∧ c < t.helper.created
      have hc' : Function.update t.objectNode t.objects (some n) o = some c := hc
      by_cases ho : o = t.objects
      · rw [ho, Function.update_self, Option.some.injEq] at hc'
        rw [← hc', Function.update_self, ho]
        exact ⟨rfl, Nat.lt_succ_self _, hn⟩
      · rw [Function.update_of_ne ho] at hc'
        obtain ⟨hplatform, hlt, hcreated⟩ := h.node o c hc'
        rw [Function.update_of_ne (hne o c hc')]
        exact ⟨hplatform, Nat.lt_succ_of_lt hlt, hcreated⟩
    · show Function.update t.objectNode t.objects (some n) o = some c
      have hc' : Function.update t.platform n (some t.objects) c = some o := hc
      by_cases hcn : c = n
      · rw [hcn, Function.update_self, Option.some.injEq] at hc'
        rw [← hc', Function.update_self, hcn]
      · rw [Function.update_of_ne hcn] at hc'
        have hobject := h.object c o hc'
        rw [hold o (h.node o c hobject).2.1, hobject]
    · have hc' : t.objectNode o = some c := by rw [← hold o ho]; exact hc
      exact ⟨hc', Function.update_of_ne (hne o c hc') _ _⟩
    · show Function.update t.parent n parent n = _
      rw [Function.update_self, hp, if_pos rfl]

/-! ## Updates -/

/-- What an update that lists the children `Q` keeps of `t₀`. -/
structure Since (t₀ : AXTree) (Q : Nat → Nat → Prop) (t : AXTree) : Prop where
  native : t.Native
  parent : t.parent = t₀.parent
  objects : t.objects = t₀.objects
  created : t₀.helper.created ≤ t.helper.created
  objectNode : ∀ o c, t.objectNode o = some c → t₀.objectNode o = some c
  getNode : ∀ k n, n < t₀.helper.created → t.getNode k = some n → t₀.getNode k = some n
  child : ∀ c n, c < t₀.helper.created → n < t₀.helper.created → t.helper.Child c n → t₀.helper.Child c n ∨ Q c n

theorem Native.since (h : t.Native) : Since t Q t :=
  ⟨h, rfl, rfl, le_rfl, fun _ _ h => h, fun _ _ _ h => h, fun _ _ _ _ h => .inl h⟩

/-- The root, the focus and what has been looked into do not matter. -/
theorem Since.ids (h : Since t₀ Q t) (rootNodeId focusedNodeId : Int) (touched : Bool) :
    Since t₀ Q { t with helper := { t.helper with rootNodeId, focusedNodeId }, touched } :=
  ⟨⟨h.native.node, h.native.object, h.native.made⟩, h.parent, h.objects, h.created, h.objectNode, h.getNode,
    h.child⟩

theorem Since.look (h : Since t₀ Q t) (n : Nat) : Since t₀ Q (t.look n) := h.ids _ _ _

theorem Since.removeNode (h : Since t₀ Q t) (n : Nat) : Since t₀ Q (t.removeNode n) := by
  have hshrinks := AccessibilityHelper.shrinks_removeNode t.helper n
  obtain ⟨hnative, hobject⟩ := (h.look n).native.disconnect n
  have hget : ∀ k c, (t.removeNode n).getNode k = some c → t.getNode k = some c :=
    fun k c => getNode_mono hshrinks.entry
  refine ⟨⟨hnative.node, hnative.object, fun k c hk => h.native.made k c (hshrinks.entry k c hk)⟩, h.parent,
    h.objects, h.created, fun o c hc => h.objectNode o c (hobject o c hc),
    fun k c hlt hk => h.getNode k c hlt (hget k c hk), fun c m hc hm hchild => ?_⟩
  obtain ⟨id, hid, hk⟩ := hchild
  have hid' : id ∈ ((t.helper.removeNode n).node m).childIds := hid
  rw [childIds_removeNode] at hid'
  exact h.child c m hc hm ⟨id, hid', hget id c hk⟩

theorem Since.destroyById {destroy : AXTree → Nat → Option AXTree}
    (hdestroy : ∀ t n t', Since t₀ Q t → destroy t n = some t' → Since t₀ Q t') {id : Int} (h : Since t₀ Q t)
    (hd : AXTree.destroyById destroy t id = some t') : Since t₀ Q t' := by
  unfold AXTree.destroyById at hd
  split at hd
  · exact hdestroy _ _ _ h hd
  · cases hd
    exact h

theorem Since.destroyNode (h : Since t₀ Q t) (hd : AXTree.destroyNode fuel t n = some t') : Since t₀ Q t' := by
  induction fuel generalizing t n t' with
  | zero => cases hd
  | succ fuel ih =>
    obtain ⟨t₁, hchildren, rfl⟩ := Option.map_eq_some_iff.1 hd
    refine Since.removeNode ?_ n
    refine (Lts.run_of_exec hchildren).inv (I := Since t₀ Q) ?_ (h.look n)
    exact fun s id s' hs _ => hs.destroyById fun t n t' => ih

/-- The children a node has from its dictionary. -/
theorem childIds_updateValue {a b : OsrAXNode} {d : CefDictionaryValue} (h : a.updateValue d = some b) :
    b.childIds = a.childIds ∨ (d.hasKey kId = true ∧
      ∃ childs, (d.get kChildIds).getList = some childs ∧ b.childIds = childs.map CefValue.getInt) := by
  unfold OsrAXNode.updateValue at h
  split at h <;> rename_i hid
  · split at h
    · obtain ⟨childs, hchilds, rfl⟩ := Option.map_eq_some_iff.1 h
      exact .inr ⟨hid, childs, hchilds, rfl⟩
    · cases h
      exact .inl rfl
  · cases h
    exact .inl rfl

theorem Since.setNode (h : Since t₀ Q t) {node : CefDictionaryValue} {axNode : OsrAXNode}
    (hn : t.getNode (node.get kId).getInt = some n) (hax : (t.helper.node n).updateValue node = some axNode)
    (hlists : ∀ c n, t₀.Lists node c n → Q c n) : Since t₀ Q (t.setNode n node axNode) := by
  refine ⟨⟨h.native.node, h.native.object, h.native.made⟩, h.parent, h.objects, h.created, h.objectNode,
    h.getNode, ?_⟩
  rintro c m hc hm ⟨id, hid, hk⟩
  have hid' : id ∈ (Function.update t.helper.node n axNode m).childIds := hid
  have hk' : t.getNode id = some c := hk
  by_cases hmn : m = n
  · subst hmn
    rw [Function.update_self] at hid'
    rcases childIds_updateValue hax with hsame | ⟨hkey, childs, hchilds, hnew⟩
    · rw [hsame] at hid'
      exact h.child c m hc hm ⟨id, hid', hk'⟩
    · rw [hnew] at hid'
      obtain ⟨v, hv, rfl⟩ := List.mem_map.1 hid'
      exact .inr (hlists c m ⟨hkey, h.getNode _ m hm hn, childs, hchilds, v, hv, h.getNode _ c hc hk'⟩)
  · rw [Function.update_of_ne hmn] at hid'
    exact h.child c m hc hm ⟨id, hid', hk'⟩

theorem Since.addNode (h : Since t₀ Q t) (id : Int) (node : CefDictionaryValue) (axNode : OsrAXNode) :
    Since t₀ Q (t.addNode id node axNode) := by
  have hget : ∀ k c, c < t₀.helper.created → (t.addNode id node axNode).getNode k = some c →
      t.getNode k = some c := by
    intro k c hc hk
    unfold AXTree.getNode AccessibilityHelper.getNode at hk ⊢
    split at hk <;> rename_i hne
    · rw [if_pos hne]
      refine (nodeMap_addNode hk).resolve_left ?_
      rintro ⟨-, rfl⟩
      exact absurd h.created (Nat.not_le_of_lt hc)
    · cases hk
  have hcreated := h.created
  refine ⟨⟨fun o c hc => ?_, h.native.object, fun k c hk => ?_⟩, h.parent, h.objects, ?_, h.objectNode,
    fun k c hc hk => h.getNode k c hc (hget k c hc hk), ?_⟩
  · obtain ⟨hplatform, hlt, hmade⟩ := h.native.node o c hc
    exact ⟨hplatform, hlt, Nat.lt_succ_of_lt hmade⟩
  · show c < t.helper.created + 1
    rcases nodeMap_addNode hk with ⟨-, rfl⟩ | hk
    · exact Nat.lt_succ_self _
    · exact Nat.lt_succ_of_lt (h.native.made k c hk)
  · exact Nat.le_succ_of_le hcreated
  · rintro c m hc hm ⟨k, hk, hget'⟩
    have hk' : k ∈ (Function.update t.helper.node t.helper.created axNode m).childIds := hk
    rw [Function.update_of_ne (by omega)] at hk'
    exact h.child c m hc hm ⟨k, hk', hget k c hc hget'⟩

theorem Since.nodeStep (h : Since t₀ Q t) {v : CefValue}
    (hlists : ∀ node c n, v.getDictionary = some node → t₀.Lists node c n → Q c n)
    (hs : AXTree.nodeStep t v = some t') : Since t₀ Q t' := by
  unfold AXTree.nodeStep at hs
  split at hs
  · rename_i node hv
    unfold AXTree.updateNode at hs
    dsimp only at hs
    split at hs <;> rename_i hn <;> obtain ⟨axNode, hax, rfl⟩ := Option.map_eq_some_iff.1 hs
    · exact h.setNode hn hax fun c n => hlists node c n hv
    · exact h.addNode _ node axNode
  · cases hs
    exact h

theorem Since.updateNodes (h : Since t₀ Q t) {update : CefDictionaryValue}
    (hlists : ∀ c n, t₀.UpdateLists update c n → Q c n) (hs : t.updateNodes update = some t') :
    Since t₀ Q t' := by
  unfold AXTree.updateNodes at hs
  split at hs
  · obtain ⟨nodes, hnodes, hloop⟩ := Option.bind_eq_some_iff.1 hs
    have hrun : Lts.Run AXTree.nodeStep (fun _ v => v ∈ nodes) t nodes t' :=
      Lts.run_of_exec_of (fun v hv _ => hv) hloop
    refine hrun.inv (I := Since t₀ Q) (fun s v s' hs hv => hs.nodeStep ?_) h
    exact fun node c n hnode hl => hlists c n ⟨nodes, hnodes, v, hv, node, hnode, hl⟩
  · cases hs
    exact h

theorem Since.updateLayout (h : Since t₀ Q t) {update : Option CefDictionaryValue}
    (hlists : ∀ u c n, update = some u → t₀.UpdateLists u c n → Q c n)
    (hs : t.updateLayout fuel update = some t') : Since t₀ Q t' := by
  unfold AXTree.updateLayout at hs
  split at hs
  · rename_i u
    obtain ⟨t₁, hclear, hnodes⟩ := Option.bind_eq_some_iff.1 hs
    have h₁ : Since t₀ Q t₁ := by
      unfold clear at hclear
      split at hclear
      · refine Since.destroyById (fun t n t' => Since.destroyNode) ?_ hclear
        unfold resetRoot
        split
        exacts [h.ids _ _ _, h]
      · cases hclear
        exact h
    exact (h₁.ids _ _ _).updateNodes (fun c n => hlists u c n rfl) hnodes
  · cases hs
    exact h

theorem Since.notify (h : Since t₀ Q t) (hs : t.notify = some t') : Since t₀ Q t' := by
  unfold AXTree.notify at hs
  split at hs
  · cases hs
    exact h.look _
  · obtain ⟨n, -, rfl⟩ := Option.map_eq_some_iff.1 hs
    exact h.look n

theorem Since.eventStep (h : Since t₀ Q t) {v : CefValue} (hlists : ∀ c n, t₀.EventLists v c n → Q c n)
    (hs : AXTree.eventStep fuel t v = some t') : Since t₀ Q t' := by
  unfold AXTree.eventStep at hs
  split at hs
  · rename_i event hv
    dsimp only at hs
    split_ifs at hs with hkeys hlayout hfocus
    · refine h.updateLayout (fun u c n hu hl => ?_) hs
      exact hlists c n ⟨event, hv, .inl hlayout, u, hu, hl⟩
    · rw [Bool.and_eq_true, decide_eq_true_eq] at hfocus
      have h₁ : Since t₀ Q (t.setFocus (event.get kId).getInt) := h.ids _ _ _
      unfold updateFocusedNode at hs
      split at hs <;> rename_i hu
      · obtain ⟨t₁, hnodes, hnotify⟩ := Option.bind_eq_some_iff.1 hs
        exact (h₁.updateNodes (fun c n hl => hlists c n ⟨event, hv, .inr hfocus, _, hu, hl⟩) hnodes).notify hnotify
      · exact h₁.notify hs
    · cases hs
      exact h
    · cases hs
      exact h
  · cases hs
    exact h

theorem Native.updateAccessibilityTree (h : t.Native) {value : Option CefValue}
    (hs : AXTree.updateAccessibilityTree fuel t value = some t') :
    Since t (fun c n => ∃ l v, value = some (.list l) ∧ v ∈ l ∧ t.EventLists v c n) t' := by
  unfold AXTree.updateAccessibilityTree at hs
  split at hs
  · rename_i l
    have hrun : Lts.Run (AXTree.eventStep fuel) (fun _ v => v ∈ l) t l t' :=
      Lts.run_of_exec_of (fun v hv _ => hv) hs
    refine hrun.inv (I := Since t _) (fun s v s' hs hv => hs.eventStep ?_) h.since
    exact fun c n hl => ⟨l, v, rfl, hv, hl⟩
  · cases hs
    exact h.since

/-- What the objects there were are told later, when the children `Q` have been listed. -/
structure Later (t : AXTree) (Q : Nat → Nat → Prop) (t' : AXTree) : Prop where
  native : t'.Native
  created : t.helper.created ≤ t'.helper.created
  objects : t.objects ≤ t'.objects
  old : ∀ o < t.objects, ∀ c, t'.objectNode o = some c → t.objectNode o = some c ∧ t'.parent c = t.parent c
  child : ∀ c n, c < t.helper.created → n < t.helper.created → t'.helper.Child c n → t.helper.Child c n ∨ Q c n

theorem Since.later (h : Since t₀ Q t) : Later t₀ Q t :=
  ⟨h.native, h.created, h.objects.ge, fun o _ c hc => ⟨h.objectNode o c hc, congrFun h.parent c⟩, h.child⟩

theorem Since.gives (h : Since t₀ Q t) {parent : Option Nat} {o : Nat} (hg : Gives t n parent t' o) :
    Later t₀ Q t' := by
  refine ⟨hg.native, ?_, ?_, fun o ho c hc => ?_, fun c n hc hn hchild => ?_⟩
  · rw [hg.helper]
    exact h.created
  · rw [← h.objects]
    exact hg.objects
  · obtain ⟨hold, hparent⟩ := hg.old o (by rwa [h.objects]) c hc
    exact ⟨h.objectNode o c hold, hparent.trans (congrFun h.parent c)⟩
  · rw [hg.helper] at hchild
    exact h.child c n hc hn hchild

/-! ## Queries -/

theorem Native.accChildNode_lt (h : t.Native) {lVal : Int} {c : Nat} (hn : n < t.helper.created)
    (hc : t.accChildNode n lVal = some c) : c < t.helper.created := by
  unfold accChildNode at hc
  split at hc
  · cases hc
    exact hn
  · obtain ⟨child, hchild, hc⟩ := Option.bind_eq_some_iff.1 hc
    cases child with
    | none => exact h.lt_created hc
    | some d =>
      cases hc
      unfold childAtIndex at hchild
      split_ifs at hchild
      · obtain ⟨id, -, hget⟩ := Option.bind_eq_some_iff.1 (Option.some.inj hchild)
        exact h.lt_created hget
      · cases hchild

/-- A query without an object, or with that of the node it leads to. -/
theorem Native.accChild (h : t.Native) {o : Nat} {varChild : Option Int} {answer : Answer}
    (hs : t.accChild o varChild = some (t', answer)) :
    (t' = t ∧ ∀ c, answer ≠ .object c) ∨ ∃ n lVal c oc, t.objectNode o = some n ∧ varChild = some lVal ∧
      t.accChildNode n lVal = some c ∧ answer = .object oc ∧ Gives t c (some n) t' oc := by
  unfold AXTree.accChild at hs
  split at hs
  · cases hs
    exact .inl ⟨rfl, nofun⟩
  · rename_i n hn
    split at hs
    · cases hs
      exact .inl ⟨rfl, nofun⟩
    · split at hs
      · cases hs
        exact .inl ⟨rfl, nofun⟩
      · rename_i lVal
        split at hs <;> rename_i hself
        · cases hs
          refine .inr ⟨n, lVal, n, o, hn, rfl, by rw [accChildNode, if_pos hself], rfl, h, rfl, le_rfl,
            fun _ _ _ hc => ⟨hc, rfl⟩, hn, ?_⟩
          rw [(h.node o n hn).1, if_neg (Option.some_ne_none o)]
        · obtain ⟨child, hchild, hresult⟩ := Option.map_eq_some_iff.1 hs
          have hlt := h.accChildNode_lt (h.node o n hn).2.2 hchild
          have hg := h.getNativeAccessibleObject hlt (some n)
          cases hresult
          exact .inr ⟨n, lVal, child, _, hn, rfl, hchild, rfl, hg⟩

/-- The object of the child at an index. -/
theorem Native.accChild_index (h : t.Native) {o i : Nat} {id : Int} {c : Nat} (hn : t.objectNode o = some n)
    (hid : (t.helper.node n).childIds[i]? = some id) (hc : t.getNode id = some c) :
    ∃ t' oc, t.accChild o (some (i + 1)) = some (t', .object oc) ∧ t'.objectNode oc = some c := by
  have hlt : i < (t.helper.node n).childIds.length := (List.getElem?_eq_some_iff.1 hid).1
  have hne : ((i : Int) + 1) ≠ 0 := by omega
  have hchild : t.accChildNode n (i + 1) = some c := by
    have hindex : t.childAtIndex n i = some (some c) := by
      rw [childAtIndex, if_pos (Int.ofNat_lt.2 hlt), if_neg (by omega), Int.toNat_natCast, hid,
        Option.bind_some, hc]
    rw [accChildNode, if_neg hne, add_sub_cancel_right, hindex]
    rfl
  have hg := h.getNativeAccessibleObject (h.lt_created hc) (some n)
  refine ⟨_, _, ?_, hg.objectNode⟩
  unfold AXTree.accChild
  simp only [hn, if_neg (Nat.ne_of_gt (Nat.zero_lt_of_lt hlt)), if_neg hne, hchild, Option.map_some]

end AXTree

namespace AccessibleWindow

open AXTree

variable {s s' : AccessibleWindow} {Q : Nat → Nat → Prop} {t' : AXTree}

/-! ## Runs -/

structure Inv (s : AccessibleWindow) : Prop where
  native : s.tree.Native
  returned : ∀ n o, (n, o) ∈ s.returned → n < s.tree.helper.created ∧ o < s.tree.objects

/-- A child that `get_accChild` has returned has the node it was called on as its parent. -/
def Agrees (s : AccessibleWindow) : Prop :=
  ∀ n o c, (n, o) ∈ s.returned → s.tree.objectNode o = some c → s.tree.helper.Child c n →
    s.tree.parent c = some n

theorem Inv.later (h : s.Inv) (hl : Later s.tree Q t') : Inv { s with tree := t' } :=
  ⟨hl.native, fun n o hno => ⟨Nat.lt_of_lt_of_le (h.returned n o hno).1 hl.created,
    Nat.lt_of_lt_of_le (h.returned n o hno).2 hl.objects⟩⟩

theorem Agrees.later (ha : s.Agrees) (h : s.Inv) (hl : Later s.tree Q t')
    (hQ : ∀ n o c, (n, o) ∈ s.returned → s.tree.objectNode o = some c → Q c n → s.tree.parent c = some n) :
    Agrees { s with tree := t' } := by
  intro n o c hno hc hchild
  obtain ⟨hn, ho⟩ := h.returned n o hno
  obtain ⟨hold, hparent⟩ := hl.old o ho c hc
  show t'.parent c = some n
  rw [hparent]
  rcases hl.child c n (h.native.node o c hold).2.2 hn hchild with hchild | hq
  · exact ha n o c hno hold hchild
  · exact hQ n o c hno hold hq

theorem Inv.updateWindow (h : s.Inv) {fuel : Nat} {value : Option CefValue}
    (hs : s.tree.updateWindow fuel value = some t') :
    Later s.tree (fun c n => ∃ l v, value = some (.list l) ∧ v ∈ l ∧ s.tree.EventLists v c n) t' := by
  obtain ⟨t, ht, rfl⟩ := Option.map_eq_some_iff.1 hs
  have hsince := h.native.updateAccessibilityTree ht
  split
  · rename_i root hroot
    exact hsince.gives (hsince.native.getNativeAccessibleObject (hsince.native.lt_created hroot) none)
  · exact hsince.later

theorem Inv.accFocus (h : s.Inv) (o : Nat) : Later s.tree (fun _ _ => False) (s.tree.accFocus o).1 := by
  have hsince : Since s.tree (fun _ _ => False) s.tree := h.native.since
  unfold AXTree.accFocus
  split
  · exact hsince.later
  · split
    · exact hsince.later
    · rename_i focused hfocused
      exact hsince.gives (h.native.getNativeAccessibleObject (h.native.lt_created hfocused) none)

theorem record_eq_nil {n : Option Nat} {answer : AXTree.Answer} (h : ∀ o, answer ≠ .object o) :
    record n answer = [] := by
  unfold record
  split
  exacts [absurd rfl (h _), rfl]

/-- An object that is returned for `c` by a query of `n`. -/
theorem Inv.returns {n c oc : Nat} (h : s.Inv) (hn : n < s.tree.helper.created)
    (hg : Gives s.tree c (some n) t' oc) : Inv { tree := t', returned := s.returned ++ [(n, oc)] } ∧
      (s.Agrees → (s.tree.helper.Child c n → s.tree.platform c = none ∨ s.tree.parent c = some n) →
        Agrees { tree := t', returned := s.returned ++ [(n, oc)] }) := by
  have hsince : Since s.tree (fun _ _ => False) s.tree := h.native.since
  have hl := hsince.gives hg
  constructor
  · refine ⟨hg.native, fun m o hmo => ?_⟩
    rcases List.mem_append.1 hmo with hmo | hmo
    · exact (h.later hl).returned m o hmo
    · cases List.mem_singleton.1 hmo
      exact ⟨Nat.lt_of_lt_of_le hn hl.created, (hg.native.node oc c hg.objectNode).2.1⟩
  · intro ha hready m o d hmo hd hchild
    rcases List.mem_append.1 hmo with hmo | hmo
    · exact ha.later h hl (fun _ _ _ _ _ => False.elim) m o d hmo hd hchild
    · cases List.mem_singleton.1 hmo
      have hd' : t'.objectNode oc = some d := hd
      rw [hg.objectNode, Option.some.injEq] at hd'
      subst hd'
      have hchild' : t'.helper.Child c n := hchild
      rw [hg.helper] at hchild'
      show t'.parent c = some n
      rw [hg.parent]
      split <;> rename_i hp
      · rfl
      · exact (hready hchild').resolve_left hp

theorem Inv.step {e : Event} (h : s.Inv) (hs : s.step e = some s') :
    s'.Inv ∧ (s.Agrees → s.Ready e → s'.Agrees) := by
  cases e with
  | updateAccessibilityTree fuel value =>
    obtain ⟨t', ht, rfl⟩ := Option.map_eq_some_iff.1 hs
    have hl := h.updateWindow ht
    refine ⟨h.later hl, fun ha hready => ha.later h hl ?_⟩
    rintro n o c hno hc ⟨l, v, hvalue, hv, hlists⟩
    exact hready l v n o c hvalue hv hno hc hlists
  | accFocus o =>
    cases hs
    have hl := h.accFocus o
    exact ⟨h.later hl, fun ha _ => ha.later h hl fun _ _ _ _ _ => False.elim⟩
  | accParent o =>
    cases hs
    exact ⟨h, fun ha _ => ha⟩
  | accChild o varChild =>
    obtain ⟨⟨t', answer⟩, ht, rfl⟩ := Option.map_eq_some_iff.1 hs
    rcases h.native.accChild ht with ⟨rfl, hnone⟩ | ⟨n, lVal, c, oc, hn, hvar, hc, rfl, hg⟩
    · dsimp only
      rw [record_eq_nil hnone, List.append_nil]
      exact ⟨h, fun ha _ => ha⟩
    · dsimp only
      rw [hn]
      obtain ⟨hi, hagrees⟩ := h.returns (h.native.node o n hn).2.2 hg
      exact ⟨hi, fun ha hready => hagrees ha (hready n lVal c hn hvar hc)⟩

theorem inv_start (offsetContainerId : Nat → Int) : (start offsetContainerId).Inv :=
  ⟨⟨nofun, nofun, nofun⟩, nofun⟩

theorem Agrees.accParent (ha : s.Agrees) {n o c p : Nat} (hno : (n, o) ∈ s.returned)
    (hc : s.tree.objectNode o = some c) (hchild : s.tree.helper.Child c n) (hp : s.tree.platform n = some p) :
    s.tree.accParent o = .object p := by
  unfold AXTree.accParent
  simp only [hc, ha n o c hno hc hchild, Option.bind_some, hp]

/-- In a run of steps that are ready, the parent of a child's object is the object of the node that
returned it, as long as it is its child. In any run, the indices up to `get_accChildCount` lead to the
objects of the children that exist. -/
theorem parent_run (offsetContainerId : Nat → Int) (es : List Event) (s : AccessibleWindow)
    (h : Lts.Run step Lts.Any (start offsetContainerId) es s) :
    (Lts.Run step Ready (start offsetContainerId) es s → ∀ n o c p, (n, o) ∈ s.returned →
      s.tree.objectNode o = some c → s.tree.helper.Child c n → s.tree.platform n = some p →
        s.tree.accParent o = .object p) ∧
    ∀ o n count i id c, s.tree.objectNode o = some n → s.tree.accChildCount o = some count → i < count →
      (s.tree.helper.node n).childIds[i]? = some id → s.tree.getNode id = some c →
        ∃ t' oc, s.tree.accChild o (some (i + 1)) = some (t', .object oc) ∧ t'.objectNode oc = some c := by
  constructor
  · intro hready
    have hall : s.Inv ∧ s.Agrees := by
      refine hready.inv (I := fun s => s.Inv ∧ s.Agrees) ?_ ⟨inv_start _, nofun⟩
      rintro s e s' ⟨hi, ha⟩ hr hs
      obtain ⟨hi', hagrees⟩ := hi.step hs
      exact ⟨hi', hagrees ha hr⟩
    exact fun n o c p hno hc hchild hp => hall.2.accParent hno hc hchild hp
  · have hi : s.Inv := h.inv (I := Inv) (fun s e s' hi _ hs => (hi.step hs).1) (inv_start _)
    exact fun o n count i id c hn _ _ hid hc => hi.native.accChild_index hn hid hc

/-- A root with a child, which has the focus. -/
def focusedChild : Event :=
  .updateAccessibilityTree 0 (some (.list [AccessibilityHelper.layoutEvent
    [(lit "has_tree_data", .bool true), (lit "tree_data", .dictionary [(lit "focus_id", .int 2)]),
      (lit "root_id", .int 1),
      (kNodes, .list [AccessibilityHelper.nodeWith 1 [2], AccessibilityHelper.nodeWith 2 []])]]))

/-- The child's object is made as a child's. -/
theorem parent_run_child : ∃ s, Lts.Run step Ready (start fun _ => -1)
    [focusedChild, .accChild 0 (some 1), .accFocus 0] s ∧ s.tree.accParent 1 = .object 0 := by
  obtain ⟨s₁, s₂, s₃, h₁, h₂, h₃, hnode, hchild, hnone, hreturned, hobject, hp, hget, hids⟩ :
      ∃ s₁ s₂ s₃, (start fun _ => -1).step focusedChild = some s₁ ∧
      s₁.step (.accChild 0 (some 1)) = some s₂ ∧ s₂.step (.accFocus 0) = some s₃ ∧
      s₁.tree.objectNode 0 = some 0 ∧ s₁.tree.accChildNode 0 1 = some 1 ∧ s₁.tree.platform 1 = none ∧
      s₃.returned = [(0, 1)] ∧ s₃.tree.objectNode 1 = some 1 ∧ s₃.tree.platform 0 = some 0 ∧
      s₃.tree.getNode 2 = some 1 ∧ (s₃.tree.helper.node 0).childIds = [2] :=
    ⟨_, _, _, rfl, rfl, rfl, rfl, rfl, rfl, rfl, rfl, rfl, rfl, rfl⟩
  have hrun : Lts.Run step Ready (start fun _ => -1) [focusedChild, .accChild 0 (some 1), .accFocus 0] s₃ := by
    refine .cons (fun l v n o c _ _ hno => ?_) h₁ (.cons ?_ h₂ (.single trivial h₃))
    · cases hno
    · intro n lVal c hn hvar hc _
      rw [hnode, Option.some.injEq] at hn
      subst hn
      rw [← Option.some.inj hvar, hchild, Option.some.injEq] at hc
      exact .inl (hc ▸ hnone)
  refine ⟨s₃, hrun, (parent_run _ _ s₃ hrun.any).1 hrun 0 1 1 0 ?_ hobject ⟨2, ?_, hget⟩ hp⟩
  · rw [hreturned]
    exact .head _
  · rw [hids]
    exact .head _

/-- `get_accFocus` makes the child's object before it is asked for as a child. -/
theorem not_parent_run_focus : ¬ ∀ (offsetContainerId : Nat → Int) (es : List Event) (s : AccessibleWindow),
    Lts.Run step Lts.Any (start offsetContainerId) es s → ∀ n o c p, (n, o) ∈ s.returned →
      s.tree.objectNode o = some c → s.tree.helper.Child c n → s.tree.platform n = some p →
        s.tree.accParent o = .object p := by
  intro h
  obtain ⟨s, hs, hreturned, hobject, hp, hget, hids, hparent⟩ : ∃ s, Lts.exec step (start fun _ => -1)
      [focusedChild, .accFocus 0, .accChild 0 (some 1)] = some s ∧ s.returned = [(0, 1)] ∧
      s.tree.objectNode 1 = some 1 ∧ s.tree.platform 0 = some 0 ∧ s.tree.getNode 2 = some 1 ∧
      (s.tree.helper.node 0).childIds = [2] ∧ s.tree.accParent 1 = .window :=
    ⟨_, rfl, rfl, rfl, rfl, rfl, rfl, rfl⟩
  have hobj := h _ _ s (Lts.run_of_exec hs) 0 1 1 0 (by rw [hreturned]; exact .head _) hobject
    ⟨2, by rw [hids]; exact .head _, hget⟩ hp
  rw [hparent] at hobj
  cases hobj

end AccessibleWindow
end NplBrowser
