import NplBrowser.OsrAccessibility

/-!
# Nodes and their native objects

`AccessibilityHelper` has of a node only what the map depends on. Here a node has its
`offset_container_id_` too, and on Windows its `CefIAccessible`, which the clients of MSAA hold, with
the parent it was made for.

`Destroy` disconnects a node from its object but frees neither; whether a destroyed node has been
looked into is kept track of (`touched`). No state follows a call that does not return within the depth
given, or that looks into a null pointer. The location of a node is left to the reader: `axLocation` is
the nodes whose locations are added.
-/

namespace NplBrowser

structure AXTree where
  helper : AccessibilityHelper := {}
  /-- `offset_container_id_`. The constructor does not set it: a new node has what was there. -/
  offsetContainerId : Nat → Int
  /-- `platform_accessibility_`. -/
  platform : Nat → Option Nat := fun _ => none
  /-- `parent_`. -/
  parent : Nat → Option Nat := fun _ => none
  /-- `node_` of an object. -/
  objectNode : Nat → Option Nat := fun _ => none
  /-- How many objects have been made. -/
  objects : Nat := 0
  /-- A node has been looked into after its destruction. -/
  touched : Bool := false

/-- `c` is the node of a child id of `n`. -/
def AccessibilityHelper.Child (h : AccessibilityHelper) (c n : Nat) : Prop :=
  ∃ id ∈ (h.node n).childIds, h.getNode id = some c

def kOffsetContainerId : Bytes := lit "offset_container_id"

namespace AXTree

def getNode (t : AXTree) (nodeId : Int) : Option Nat := t.helper.getNode nodeId

def look (t : AXTree) (n : Nat) : AXTree :=
  { t with touched := t.touched || (t.helper.node n).destroyed }

/-- `OsrAXNode::Destroy`. -/
def disconnect (t : AXTree) (n : Nat) : AXTree :=
  { t with
    platform := Function.update t.platform n none
    objectNode := fun o => if t.platform n = some o then none else t.objectNode o }

/-- The end of `DestroyNode`, when the children are done with. -/
def removeNode (t : AXTree) (n : Nat) : AXTree :=
  { (t.look n).disconnect n with helper := t.helper.removeNode n }

/-- `DestroyNode` of a node by its id. -/
def destroyById (destroy : AXTree → Nat → Option AXTree) (t : AXTree) (id : Int) : Option AXTree :=
  match t.getNode id with
  | some c => destroy t c
  | none => some t

def destroyNode : Nat → AXTree → Nat → Option AXTree
  | 0, _, _ => none
  | fuel + 1, t, n =>
    (Lts.exec (destroyById (destroyNode fuel)) (t.look n) (t.helper.node n).childIds).map fun t =>
      t.removeNode n

/-! ## Updates -/

/-- `offset_container_id_` after `UpdateValue`. -/
def updateOffset (t : AXTree) (n : Nat) (value : CefDictionaryValue) : Nat → Int :=
  if value.hasKey kId && value.hasKey kOffsetContainerId then
    Function.update t.offsetContainerId n (value.get kOffsetContainerId).getInt
  else t.offsetContainerId

/-- Node `n` with what `value` says. -/
def setNode (t : AXTree) (n : Nat) (value : CefDictionaryValue) (axNode : OsrAXNode) : AXTree :=
  { t.look n with
    helper := { t.helper with node := Function.update t.helper.node n axNode }
    offsetContainerId := t.updateOffset n value }

/-- A new node under `nodeId`. -/
def addNode (t : AXTree) (nodeId : Int) (value : CefDictionaryValue) (axNode : OsrAXNode) : AXTree :=
  { t with
    helper := { t.helper with
      node := Function.update t.helper.node t.helper.created axNode
      created := t.helper.created + 1
      nodeMap := Function.update t.helper.nodeMap nodeId (some t.helper.created) }
    offsetContainerId := t.updateOffset t.helper.created value }

/-- The body of the loops over an update's nodes, for one that is a dictionary. -/
def updateNode (t : AXTree) (node : CefDictionaryValue) : Option AXTree :=
  let nodeId := (node.get kId).getInt
  match t.getNode nodeId with
  | some n => ((t.helper.node n).updateValue node).map (t.setNode n node)
  | none => (({} : OsrAXNode).updateValue node).map (t.addNode nodeId node)

def nodeStep (t : AXTree) (v : CefValue) : Option AXTree :=
  match v.getDictionary with
  | some node => t.updateNode node
  | none => some t

/-- The loop over `update["nodes"]`. -/
def updateNodes (t : AXTree) (update : CefDictionaryValue) : Option AXTree :=
  if update.hasKey kNodes then
    (update.get kNodes).getList.bind fun nodes => Lts.exec nodeStep t nodes
  else some t

/-- The root is reset if it is to be cleared. -/
def resetRoot (t : AXTree) (nodeIdToClear : Int) : AXTree :=
  if nodeIdToClear = t.helper.rootNodeId then { t with helper := { t.helper with rootNodeId := -1 } } else t

def clear (fuel : Nat) (t : AXTree) (update : CefDictionaryValue) : Option AXTree :=
  if update.hasKey (lit "node_id_to_clear") then
    let nodeIdToClear := (update.get (lit "node_id_to_clear")).getInt
    destroyById (destroyNode fuel) (t.resetRoot nodeIdToClear) nodeIdToClear
  else some t

/-- The root and the focus of an update. -/
def setIds (t : AXTree) (update : CefDictionaryValue) : AXTree :=
  let treeData := if update.hasKey (lit "has_tree_data") && (update.get (lit "has_tree_data")).getBool
    then (update.get (lit "tree_data")).getDictionary else none
  let rootNodeId :=
    if update.hasKey (lit "root_id") then (update.get (lit "root_id")).getInt else t.helper.rootNodeId
  let focusedNodeId := match treeData with
    | some d => if d.hasKey (lit "focus_id") then (d.get (lit "focus_id")).getInt
      else t.helper.focusedNodeId
    | none => t.helper.focusedNodeId
  { t with helper := { t.helper with rootNodeId, focusedNodeId } }

def updateLayout (fuel : Nat) (t : AXTree) (update : Option CefDictionaryValue) : Option AXTree :=
  match update with
  | some update => (t.clear fuel update).bind fun t => (t.setIds update).updateNodes update
  | none => some t

/-- `NotifyAccessibilityEvent` of the focused node, or else of the root. -/
def notify (t : AXTree) : Option AXTree :=
  match t.getNode t.helper.focusedNodeId with
  | some n => some (t.look n)
  | none => (t.getNode t.helper.rootNodeId).map t.look

def updateFocusedNode (t : AXTree) (update : Option CefDictionaryValue) : Option AXTree :=
  match update with
  | some update => (t.updateNodes update).bind notify
  | none => t.notify

def setFocus (t : AXTree) (nodeId : Int) : AXTree :=
  { t with helper := { t.helper with focusedNodeId := nodeId } }

/-- The body of the loop over the events. -/
def eventStep (fuel : Nat) (t : AXTree) (v : CefValue) : Option AXTree :=
  match v.getDictionary with
  | some event =>
    if event.hasKey (lit "event_type") && event.hasKey (lit "update") then
      let eventType := (event.get (lit "event_type")).getString
      let update := (event.get (lit "update")).getDictionary
      if eventType = lit "layoutComplete" then t.updateLayout fuel update
      else if eventType = lit "focus" && event.hasKey kId then
        (t.setFocus (event.get kId).getInt).updateFocusedNode update
      else some t
    else some t
  | none => some t

def updateAccessibilityTree (fuel : Nat) (t : AXTree) (value : Option CefValue) : Option AXTree :=
  match value with
  | some (.list l) => Lts.exec (eventStep fuel) t l
  | _ => some t

/-- `AxLocation`: the nodes whose locations are added. -/
def axLocation : Nat → AXTree → Nat → Option (List Nat)
  | 0, _, _ => none
  | fuel + 1, t, n =>
    match t.getNode (t.offsetContainerId n) with
    | some m => (axLocation fuel t m).map (n :: ·)
    | none => some [n]

variable {t t' : AXTree} {fuel n : Nat}

theorem getNode_nodeMap {k : Int} (h : t.getNode k = some n) : t.helper.nodeMap k = some n :=
  AccessibilityHelper.getNode_eq_some h

theorem getNode_mono {h h' : AccessibilityHelper} (hmap : ∀ k n, h'.nodeMap k = some n → h.nodeMap k = some n)
    {k : Int} (hk : h'.getNode k = some n) : h.getNode k = some n := by
  unfold AccessibilityHelper.getNode at hk ⊢
  split at hk <;> rename_i hne
  · rw [if_pos hne]
    exact hmap k n hk
  · cases hk

theorem childIds_removeNode (h : AccessibilityHelper) (n m : Nat) :
    ((h.removeNode n).node m).childIds = (h.node m).childIds := by
  show (Function.update h.node n { h.node n with destroyed := true } m).childIds = _
  by_cases hm : m = n
  · rw [hm, Function.update_self]
  · rw [Function.update_of_ne hm]

theorem nodeMap_addNode {id k : Int} {node : CefDictionaryValue} {axNode : OsrAXNode}
    (h : (t.addNode id node axNode).helper.nodeMap k = some n) :
    (k = id ∧ n = t.helper.created) ∨ t.helper.nodeMap k = some n := by
  have h' : Function.update t.helper.nodeMap id (some t.helper.created) k = some n := h
  by_cases hk : k = id
  · rw [hk, Function.update_self, Option.some.injEq] at h'
    exact .inl ⟨hk, h'.symm⟩
  · rw [Function.update_of_ne hk] at h'
    exact .inr h'

/-! ## The depth does not matter -/

theorem destroyById_mono {destroy destroy' : AXTree → Nat → Option AXTree}
    (h : ∀ t n t', destroy t n = some t' → destroy' t n = some t') {id : Int}
    (hd : destroyById destroy t id = some t') : destroyById destroy' t id = some t' := by
  unfold destroyById at hd ⊢
  split at hd
  exacts [h _ _ _ hd, hd]

theorem destroyNode_succ (h : destroyNode fuel t n = some t') : destroyNode (fuel + 1) t n = some t' := by
  induction fuel generalizing t n t' with
  | zero => cases h
  | succ fuel ih =>
    obtain ⟨t₁, hchildren, rfl⟩ := Option.map_eq_some_iff.1 h
    refine Option.map_eq_some_iff.2 ⟨t₁, ?_, rfl⟩
    exact Lts.exec_mono (fun s id s' => destroyById_mono fun t n t' => ih) hchildren

theorem updateLayout_succ {update : Option CefDictionaryValue} (h : updateLayout fuel t update = some t') :
    updateLayout (fuel + 1) t update = some t' := by
  unfold updateLayout at h ⊢
  split at h
  · obtain ⟨t₁, hclear, hnodes⟩ := Option.bind_eq_some_iff.1 h
    refine Option.bind_eq_some_iff.2 ⟨t₁, ?_, hnodes⟩
    unfold clear at hclear ⊢
    split at hclear <;> rename_i hkey
    · rw [if_pos hkey]
      exact destroyById_mono (fun t n t' => destroyNode_succ) hclear
    · rwa [if_neg hkey]
  · exact h

theorem eventStep_succ {v : CefValue} (h : eventStep fuel t v = some t') :
    eventStep (fuel + 1) t v = some t' := by
  unfold eventStep at h ⊢
  split at h
  · dsimp only at h ⊢
    split_ifs at h ⊢
    exacts [updateLayout_succ h, h, h, h]
  · exact h

theorem updateAccessibilityTree_succ {value : Option CefValue}
    (h : updateAccessibilityTree fuel t value = some t') :
    updateAccessibilityTree (fuel + 1) t value = some t' := by
  unfold updateAccessibilityTree at h ⊢
  split at h
  · exact Lts.exec_mono (fun t v t' => eventStep_succ) h
  · exact h

theorem axLocation_succ {nodes : List Nat} (h : axLocation fuel t n = some nodes) :
    axLocation (fuel + 1) t n = some nodes := by
  induction fuel generalizing n nodes with
  | zero => cases h
  | succ fuel ih =>
    rw [axLocation] at h ⊢
    split at h
    · obtain ⟨above, habove, rfl⟩ := Option.map_eq_some_iff.1 h
      exact Option.map_eq_some_iff.2 ⟨above, ih habove, rfl⟩
    · exact h

/-! ## What the helper sees of it -/

theorem helper_destroyById {destroy : AXTree → Nat → Option AXTree}
    {destroy' : AccessibilityHelper → Nat → Option AccessibilityHelper}
    (hdestroy : ∀ t n t', destroy t n = some t' → destroy' t.helper n = some t'.helper) {id : Int}
    (h : destroyById destroy t id = some t') :
    (match t.helper.getNode id with
      | some c => destroy' t.helper c
      | none => some t.helper) = some t'.helper := by
  unfold destroyById getNode at h
  cases hget : t.helper.getNode id with
  | some c =>
    rw [hget] at h
    exact hdestroy _ _ _ h
  | none =>
    rw [hget] at h
    cases h
    rfl

theorem helper_destroyNode (h : t.destroyNode fuel n = some t') :
    AccessibilityHelper.destroyNode fuel t.helper n = some t'.helper := by
  induction fuel generalizing t n t' with
  | zero => cases h
  | succ fuel ih =>
    obtain ⟨t₁, hchildren, rfl⟩ := Option.map_eq_some_iff.1 h
    refine Option.map_eq_some_iff.2 ⟨t₁.helper, ?_, rfl⟩
    exact Lts.exec_map (s := t.look n) helper (fun s id s' => helper_destroyById fun t n t' => ih) hchildren

theorem helper_updateNode {node : CefDictionaryValue} (h : t.updateNode node = some t') :
    t.helper.updateNode node = some t'.helper := by
  unfold updateNode getNode at h
  unfold AccessibilityHelper.updateNode
  dsimp only at h ⊢
  cases hget : t.helper.getNode (node.get kId).getInt with
  | some n =>
    rw [hget] at h
    obtain ⟨axNode, hax, rfl⟩ := Option.map_eq_some_iff.1 h
    exact Option.map_eq_some_iff.2 ⟨axNode, hax, rfl⟩
  | none =>
    rw [hget] at h
    obtain ⟨axNode, hax, rfl⟩ := Option.map_eq_some_iff.1 h
    exact Option.map_eq_some_iff.2 ⟨axNode, hax, rfl⟩

theorem helper_updateNodes {update : CefDictionaryValue} (h : t.updateNodes update = some t') :
    t.helper.updateNodes update = some t'.helper := by
  unfold updateNodes at h
  unfold AccessibilityHelper.updateNodes
  split at h <;> rename_i hkey
  · rw [if_pos hkey]
    obtain ⟨nodes, hnodes, hloop⟩ := Option.bind_eq_some_iff.1 h
    refine Option.bind_eq_some_iff.2 ⟨nodes, hnodes, Lts.exec_map helper (fun s v s' hs => ?_) hloop⟩
    unfold nodeStep at hs
    unfold AccessibilityHelper.nodeStep
    cases hv : v.getDictionary with
    | some node =>
      rw [hv] at hs
      exact helper_updateNode hs
    | none =>
      rw [hv] at hs
      cases hs
      rfl
  · rw [if_neg hkey]
    cases h
    rfl

theorem helper_updateLayout {update : Option CefDictionaryValue} (h : t.updateLayout fuel update = some t') :
    t.helper.updateLayout fuel update = some t'.helper := by
  unfold updateLayout at h
  unfold AccessibilityHelper.updateLayout
  split at h
  · rename_i update
    obtain ⟨t₁, hclear, hnodes⟩ := Option.bind_eq_some_iff.1 h
    have hnodes' := helper_updateNodes hnodes
    refine Option.bind_eq_some_iff.2 ⟨_, Option.map_eq_some_iff.2 ⟨t₁.helper, ?_, rfl⟩, hnodes'⟩
    unfold clear at hclear
    split at hclear <;> rename_i hkey
    · rw [if_pos hkey]
      have hreset : ∀ id, (t.resetRoot id).helper =
          if id = t.helper.rootNodeId then { t.helper with rootNodeId := -1 } else t.helper := by
        intro id
        unfold resetRoot
        split <;> rfl
      have hdestroy := helper_destroyById (fun t n t' => helper_destroyNode) hclear
      rw [hreset] at hdestroy
      exact hdestroy
    · rw [if_neg hkey]
      cases hclear
      rfl
  · cases h
    rfl

theorem helper_notify (h : t.notify = some t') : t'.helper = t.helper := by
  unfold notify at h
  split at h
  · cases h
    rfl
  · obtain ⟨n, -, rfl⟩ := Option.map_eq_some_iff.1 h
    rfl

theorem helper_updateFocusedNode {update : Option CefDictionaryValue} (h : t.updateFocusedNode update = some t') :
    t.helper.updateFocusedNode update = some t'.helper := by
  unfold updateFocusedNode at h
  unfold AccessibilityHelper.updateFocusedNode
  split at h
  · obtain ⟨t₁, hnodes, hnotify⟩ := Option.bind_eq_some_iff.1 h
    rw [helper_notify hnotify]
    exact helper_updateNodes hnodes
  · rw [helper_notify h]

/-- On the helper a call does what was said there, as long as it looks into no null pointer. -/
theorem helper_updateAccessibilityTree {value : Option CefValue}
    (h : t.updateAccessibilityTree fuel value = some t') :
    t.helper.updateAccessibilityTree fuel value = some t'.helper := by
  have hlist : ∀ l, Lts.exec (eventStep fuel) t l = some t' →
      Lts.exec (AccessibilityHelper.eventStep fuel) t.helper l = some t'.helper := by
    refine fun l => Lts.exec_map helper fun s v s' hs => ?_
    unfold eventStep at hs
    unfold AccessibilityHelper.eventStep
    cases hv : v.getDictionary with
    | some event =>
      rw [hv] at hs
      dsimp only at hs ⊢
      split_ifs at hs ⊢
      · exact helper_updateLayout hs
      · exact helper_updateFocusedNode hs
      · cases hs
        rfl
      · cases hs
        rfl
    | none =>
      rw [hv] at hs
      cases hs
      rfl
  rcases value with _ | v
  · exact congrArg (Option.map helper) h
  · cases v with
    | list l => exact hlist l h
    | _ => exact congrArg (Option.map helper) h

end AXTree
end NplBrowser
