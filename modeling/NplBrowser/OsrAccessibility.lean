import NplBrowser.CefValue
import NplBrowser.Lib.Run
import Mathlib.Logic.Function.Basic

/-!
# The accessibility tree

`OsrAccessibilityHelper` keeps the nodes of the renderer's accessibility tree in a map by their id.
The events come from the renderer and may hold anything. Nodes are numbered as they are made; of a
node only what the map and its upkeep depend on is kept, its id and its children's ids.

`DestroyNode` follows child ids through the map it is about to change and need not end, so a call
has a bound on the depth of its recursion: a call returns if it does within some bound. No state
follows a call that does not return, or that looks into a null list.
-/

namespace NplBrowser

structure OsrAXNode where
  nodeId : Int := -1
  childIds : List Int := []
  /-- `Destroy` has been called. -/
  destroyed : Bool := false

def kId : Bytes := lit "id"

def kChildIds : Bytes := lit "child_ids"

def kNodes : Bytes := lit "nodes"

/-- `OsrAXNode::UpdateValue`. -/
def OsrAXNode.updateValue (n : OsrAXNode) (value : CefDictionaryValue) : Option OsrAXNode :=
  if value.hasKey kId then
    let n := { n with nodeId := (value.get kId).getInt }
    if value.hasKey kChildIds then
      (value.get kChildIds).getList.map fun childs =>
        { n with childIds := childs.map CefValue.getInt }
    else some n
  else some n

/-- `OsrAccessibilityHelper`. -/
structure AccessibilityHelper where
  rootNodeId : Int := -1
  focusedNodeId : Int := -1
  /-- `accessibility_node_map_`. -/
  nodeMap : Int → Option Nat := fun _ => none
  node : Nat → OsrAXNode := fun _ => {}
  /-- How many nodes have been made. -/
  created : Nat := 0

namespace AccessibilityHelper

def getNode (h : AccessibilityHelper) (nodeId : Int) : Option Nat :=
  if nodeId ≠ -1 then h.nodeMap nodeId else none

/-- The end of `DestroyNode`, when the children are done with. -/
def removeNode (h : AccessibilityHelper) (n : Nat) : AccessibilityHelper :=
  { h with
    nodeMap := Function.update h.nodeMap (h.node n).nodeId none
    node := Function.update h.node n { h.node n with destroyed := true } }

def destroyNode : Nat → AccessibilityHelper → Nat → Option AccessibilityHelper
  | 0, _, _ => none
  | fuel + 1, h, n =>
    let destroyChild (h : AccessibilityHelper) (id : Int) : Option AccessibilityHelper :=
      match h.getNode id with
      | some c => destroyNode fuel h c
      | none => some h
    (Lts.exec destroyChild h (h.node n).childIds).map fun h => h.removeNode n

/-- The body of the loops over an update's nodes, for one that is a dictionary. -/
def updateNode (h : AccessibilityHelper) (node : CefDictionaryValue) : Option AccessibilityHelper :=
  let nodeId := (node.get kId).getInt
  match h.getNode nodeId with
  | some n => ((h.node n).updateValue node).map fun axNode =>
      { h with node := Function.update h.node n axNode }
  | none => (({} : OsrAXNode).updateValue node).map fun axNode =>
      { h with
        node := Function.update h.node h.created axNode
        created := h.created + 1
        nodeMap := Function.update h.nodeMap nodeId (some h.created) }

def nodeStep (h : AccessibilityHelper) (v : CefValue) : Option AccessibilityHelper :=
  match v.getDictionary with
  | some node => h.updateNode node
  | none => some h

/-- The loop over `update["nodes"]`. -/
def updateNodes (h : AccessibilityHelper) (update : CefDictionaryValue) :
    Option AccessibilityHelper :=
  if update.hasKey kNodes then
    (update.get kNodes).getList.bind fun nodes => Lts.exec nodeStep h nodes
  else some h

/-- `UpdateLayout`, what comes before the nodes: a node is cleared, the root and the focus are
set. -/
def prepareLayout (fuel : Nat) (h : AccessibilityHelper) (update : CefDictionaryValue) :
    Option AccessibilityHelper :=
  let treeData := if update.hasKey (lit "has_tree_data") && (update.get (lit "has_tree_data")).getBool
    then (update.get (lit "tree_data")).getDictionary else none
  let cleared :=
    if update.hasKey (lit "node_id_to_clear") then
      let nodeIdToClear := (update.get (lit "node_id_to_clear")).getInt
      let h := if nodeIdToClear = h.rootNodeId then { h with rootNodeId := -1 } else h
      match h.getNode nodeIdToClear with
      | some n => destroyNode fuel h n
      | none => some h
    else some h
  cleared.map fun h =>
    let rootNodeId :=
      if update.hasKey (lit "root_id") then (update.get (lit "root_id")).getInt else h.rootNodeId
    let focusedNodeId := match treeData with
      | some d => if d.hasKey (lit "focus_id") then (d.get (lit "focus_id")).getInt
        else h.focusedNodeId
      | none => h.focusedNodeId
    { h with rootNodeId, focusedNodeId }

def updateLayout (fuel : Nat) (h : AccessibilityHelper) (update : Option CefDictionaryValue) :
    Option AccessibilityHelper :=
  match update with
  | some update => (h.prepareLayout fuel update).bind fun h => h.updateNodes update
  | none => some h

/-- `UpdateFocusedNode`. The screen reader is notified through the focused node or the root; that
changes nothing here, also when both are null. -/
def updateFocusedNode (h : AccessibilityHelper) (update : Option CefDictionaryValue) :
    Option AccessibilityHelper :=
  match update with
  | some update => h.updateNodes update
  | none => some h

/-- The body of the loop over the events. -/
def eventStep (fuel : Nat) (h : AccessibilityHelper) (v : CefValue) : Option AccessibilityHelper :=
  match v.getDictionary with
  | some event =>
    if event.hasKey (lit "event_type") && event.hasKey (lit "update") then
      let eventType := (event.get (lit "event_type")).getString
      let update := (event.get (lit "update")).getDictionary
      if eventType = lit "layoutComplete" then h.updateLayout fuel update
      else if eventType = lit "focus" && event.hasKey kId then
        { h with focusedNodeId := (event.get kId).getInt }.updateFocusedNode update
      else some h
    else some h
  | none => some h

def updateAccessibilityTree (fuel : Nat) (h : AccessibilityHelper) (value : Option CefValue) :
    Option AccessibilityHelper :=
  match value with
  | some (.list l) => Lts.exec (eventStep fuel) h l
  | _ => some h

/-! ### Well-formed trees -/

/-- The map holds the nodes that have not been destroyed, each under its own id. -/
structure Inv (h : AccessibilityHelper) : Prop where
  entry : ∀ k n, h.nodeMap k = some n →
    (h.node n).nodeId = k ∧ k ≠ -1 ∧ (h.node n).destroyed = false ∧ n < h.created
  kept : ∀ n, n < h.created → (h.node n).destroyed = false → ∃ k, h.nodeMap k = some n

variable {h h' : AccessibilityHelper} {n : Nat} {k : Int} {fuel : Nat}

theorem inv_start : Inv {} :=
  ⟨fun k n hk => by simp at hk, fun n hn => absurd hn (Nat.not_lt_zero n)⟩

theorem getNode_eq_some (hn : h.getNode k = some n) : h.nodeMap k = some n := by
  unfold getNode at hn
  split at hn
  · exact hn
  · cases hn

/-- Only the map and the nodes matter. -/
theorem Inv.congr (hi : Inv h) (hmap : h'.nodeMap = h.nodeMap) (hnode : h'.node = h.node)
    (hcreated : h'.created = h.created) : Inv h' := by
  refine ⟨fun k n hk => ?_, fun n hn => ?_⟩
  · rw [hmap] at hk
    rw [hnode, hcreated]
    exact hi.entry k n hk
  · rw [hcreated] at hn
    rw [hnode, hmap]
    exact hi.kept n hn

/-! ### Destruction -/

/-- Entries may be gone; no node has changed but for being destroyed. -/
structure Shrinks (h h' : AccessibilityHelper) : Prop where
  created : h'.created = h.created
  nodeId : ∀ n, (h'.node n).nodeId = (h.node n).nodeId
  entry : ∀ k n, h'.nodeMap k = some n → h.nodeMap k = some n

theorem Shrinks.refl (h : AccessibilityHelper) : Shrinks h h := ⟨rfl, fun _ => rfl, fun _ _ hk => hk⟩

theorem Shrinks.trans {h'' : AccessibilityHelper} (h₁ : Shrinks h h') (h₂ : Shrinks h' h'') :
    Shrinks h h'' :=
  ⟨h₂.created.trans h₁.created, fun n => (h₂.nodeId n).trans (h₁.nodeId n),
    fun k n hk => h₁.entry k n (h₂.entry k n hk)⟩

theorem shrinks_removeNode (h : AccessibilityHelper) (n : Nat) : Shrinks h (h.removeNode n) := by
  refine ⟨rfl, fun m => ?_, fun k m hk => ?_⟩
  · unfold removeNode
    by_cases hm : m = n
    · subst hm
      simp
    · simp [Function.update_of_ne hm]
  · unfold removeNode at hk
    by_cases hkn : k = (h.node n).nodeId
    · subst hkn
      simp at hk
    · simpa [Function.update_of_ne hkn] using hk

/-- `n` has had an entry, under its own id, and may have lost it to its children's destruction. -/
theorem Inv.removeNode (hi : Inv h) (hn : ∀ m, h.nodeMap (h.node n).nodeId = some m → m = n) :
    Inv (h.removeNode n) := by
  refine ⟨fun k m hk => ?_, fun m hm hlive => ?_⟩
  · have hk' := (shrinks_removeNode h n).entry k m hk
    obtain ⟨hid, hne, hlive, hlt⟩ := hi.entry k m hk'
    have hmn : m ≠ n := by
      rintro rfl
      unfold AccessibilityHelper.removeNode at hk
      rw [← hid] at hk
      simp at hk
    unfold AccessibilityHelper.removeNode
    dsimp only
    rw [Function.update_of_ne hmn]
    exact ⟨hid, hne, hlive, hlt⟩
  · unfold AccessibilityHelper.removeNode at hlive ⊢
    dsimp only at hlive ⊢
    have hmn : m ≠ n := by
      rintro rfl
      rw [Function.update_self] at hlive
      cases hlive
    rw [Function.update_of_ne hmn] at hlive
    obtain ⟨k, hk⟩ := hi.kept m hm hlive
    refine ⟨k, ?_⟩
    rw [Function.update_of_ne, hk]
    rintro rfl
    exact hmn (hn m hk)

/-- A node in the map is destroyed with what hangs below it. -/
theorem Inv.destroyNode (hi : Inv h) (hn : h.nodeMap k = some n)
    (hd : AccessibilityHelper.destroyNode fuel h n = some h') : Inv h' ∧ Shrinks h h' := by
  induction fuel generalizing h n k h' with
  | zero => cases hd
  | succ fuel ih =>
    unfold AccessibilityHelper.destroyNode at hd
    obtain ⟨h₁, hchildren, rfl⟩ := Option.map_eq_some_iff.1 hd
    -- every child is looked up in the map its siblings have left
    have hloop : Inv h₁ ∧ Shrinks h h₁ := by
      refine (Lts.run_of_exec hchildren).inv (I := fun s => Inv s ∧ Shrinks h s) ?_
        ⟨hi, Shrinks.refl h⟩
      rintro s id s' ⟨his, hs⟩ - hstep
      split at hstep
      · rename_i c hc
        obtain ⟨his', hs'⟩ := ih his (getNode_eq_some hc) hstep
        exact ⟨his', hs.trans hs'⟩
      · cases hstep
        exact ⟨his, hs⟩
    obtain ⟨hi₁, hs₁⟩ := hloop
    refine ⟨hi₁.removeNode fun m hm => ?_, hs₁.trans (shrinks_removeNode h₁ n)⟩
    have hm' := hs₁.entry _ m hm
    rw [hs₁.nodeId n, (hi.entry k n hn).1, hn] at hm'
    exact (Option.some.inj hm').symm

/-- A destruction that ends within a bound ends alike within a greater one. -/
theorem destroyNode_succ (hd : destroyNode fuel h n = some h') :
    destroyNode (fuel + 1) h n = some h' := by
  induction fuel generalizing h n h' with
  | zero => cases hd
  | succ fuel ih =>
    unfold destroyNode at hd ⊢
    obtain ⟨h₁, hchildren, rfl⟩ := Option.map_eq_some_iff.1 hd
    refine Option.map_eq_some_iff.2 ⟨h₁, ?_, rfl⟩
    refine Lts.exec_mono (fun s id t hs => ?_) hchildren
    split at hs
    exacts [ih hs, hs]

/-! ### Updates -/

/-- A node's dictionary names it, by an id that is not -1; without the key it is taken for node 0,
which is there then. -/
def NodeOk (h : AccessibilityHelper) (node : CefDictionaryValue) : Prop :=
  if node.hasKey kId then (node.get kId).getInt ≠ -1 else (h.getNode 0).isSome = true

theorem getInt_of_not_hasKey {d : CefDictionaryValue} {key : Bytes} (hk : ¬ d.hasKey key = true) :
    (d.get key).getInt = 0 := by
  unfold CefDictionaryValue.hasKey at hk
  unfold CefDictionaryValue.get
  cases hfind : Assoc.find? key d with
  | none => rfl
  | some v => simp [hfind] at hk

theorem nodeId_updateValue {a b : OsrAXNode} {d : CefDictionaryValue}
    (hu : a.updateValue d = some b) : b.destroyed = a.destroyed ∧
      b.nodeId = if d.hasKey kId then (d.get kId).getInt else a.nodeId := by
  unfold OsrAXNode.updateValue at hu
  split at hu
  · split at hu
    · obtain ⟨childs, -, rfl⟩ := Option.map_eq_some_iff.1 hu
      exact ⟨rfl, by rw [if_pos ‹_›]⟩
    · cases hu
      exact ⟨rfl, by rw [if_pos ‹_›]⟩
  · cases hu
    exact ⟨rfl, by rw [if_neg ‹_›]⟩

theorem Inv.update {axNode : OsrAXNode} {d : CefDictionaryValue} (hi : Inv h)
    (hn : h.nodeMap (d.get kId).getInt = some n) (hax : (h.node n).updateValue d = some axNode) :
    Inv { h with node := Function.update h.node n axNode } := by
  obtain ⟨hlive, hid⟩ := nodeId_updateValue hax
  have hid' : axNode.nodeId = (h.node n).nodeId := by
    split at hid
    · rw [hid, (hi.entry _ n hn).1]
    · exact hid
  refine ⟨fun k m hk => ?_, fun m hm hm' => ?_⟩
  · obtain ⟨hkm, hne, hmlive, hlt⟩ := hi.entry k m hk
    dsimp only
    by_cases hmn : m = n
    · subst hmn
      rw [Function.update_self, hid', hlive]
      exact ⟨hkm, hne, hmlive, hlt⟩
    · rw [Function.update_of_ne hmn]
      exact ⟨hkm, hne, hmlive, hlt⟩
  · refine hi.kept m hm ?_
    dsimp only at hm'
    by_cases hmn : m = n
    · subst hmn
      rwa [Function.update_self, hlive] at hm'
    · rwa [Function.update_of_ne hmn] at hm'

/-- A node of its own id, under a key that was free. -/
theorem Inv.create {axNode : OsrAXNode} {id : Int} (hi : Inv h) (hfree : h.nodeMap id = none)
    (hne : id ≠ -1) (hlive : axNode.destroyed = false) (hid : axNode.nodeId = id) :
    Inv { h with
      node := Function.update h.node h.created axNode
      created := h.created + 1
      nodeMap := Function.update h.nodeMap id (some h.created) } := by
  refine ⟨fun k m hk => ?_, fun m hm hm' => ?_⟩
  · dsimp only at hk ⊢
    by_cases hkid : k = id
    · subst hkid
      rw [Function.update_self] at hk
      obtain rfl := Option.some.inj hk
      rw [Function.update_self]
      exact ⟨hid, hne, hlive, Nat.lt_succ_self _⟩
    · rw [Function.update_of_ne hkid] at hk
      obtain ⟨hkm, hkne, hmlive, hlt⟩ := hi.entry k m hk
      rw [Function.update_of_ne (Nat.ne_of_lt hlt)]
      exact ⟨hkm, hkne, hmlive, Nat.lt_succ_of_lt hlt⟩
  · dsimp only at hm hm' ⊢
    rcases Nat.lt_succ_iff_lt_or_eq.1 hm with hlt | rfl
    · rw [Function.update_of_ne (Nat.ne_of_lt hlt)] at hm'
      obtain ⟨k, hk⟩ := hi.kept m hlt hm'
      refine ⟨k, ?_⟩
      rw [Function.update_of_ne, hk]
      rintro rfl
      rw [hfree] at hk
      cases hk
    · exact ⟨id, Function.update_self ..⟩

theorem Inv.updateNode {node : CefDictionaryValue} (hi : Inv h) (hok : NodeOk h node)
    (hu : h.updateNode node = some h') : Inv h' := by
  unfold AccessibilityHelper.updateNode at hu
  dsimp only at hu
  split at hu
  · rename_i n hn
    obtain ⟨axNode, hax, rfl⟩ := Option.map_eq_some_iff.1 hu
    exact hi.update (getNode_eq_some hn) hax
  · rename_i hnone
    obtain ⟨axNode, hax, rfl⟩ := Option.map_eq_some_iff.1 hu
    obtain ⟨hlive, hid⟩ := nodeId_updateValue hax
    unfold NodeOk at hok
    split at hok
    · rename_i hkey
      rw [if_pos hkey] at hid
      refine hi.create ?_ hok hlive hid
      unfold getNode at hnone
      rwa [if_pos hok] at hnone
    · -- without an id it would be node 0, which is there
      rename_i hkey
      rw [getInt_of_not_hasKey hkey] at hnone
      rw [hnone] at hok
      cases hok

/-! ### Calls -/

def NodeStepOk (h : AccessibilityHelper) (v : CefValue) : Prop :=
  ∀ node, v.getDictionary = some node → h.NodeOk node

def NodesOk (h : AccessibilityHelper) (update : CefDictionaryValue) : Prop :=
  ∀ nodes, (update.get kNodes).getList = some nodes → Lts.Meets nodeStep NodeStepOk h nodes

/-- The nodes an event brings are well named, each at the time it is handled. -/
def EventOk (fuel : Nat) (h : AccessibilityHelper) (v : CefValue) : Prop :=
  ∀ event update, v.getDictionary = some event →
    (event.get (lit "update")).getDictionary = some update →
    ((event.get (lit "event_type")).getString = lit "layoutComplete" →
      ∀ h', h.prepareLayout fuel update = some h' → h'.NodesOk update) ∧
    ((event.get (lit "event_type")).getString = lit "focus" → event.hasKey kId = true →
      { h with focusedNodeId := (event.get kId).getInt }.NodesOk update)

theorem Inv.updateNodes {update : CefDictionaryValue} (hi : Inv h) (hok : h.NodesOk update)
    (hu : h.updateNodes update = some h') : Inv h' := by
  unfold AccessibilityHelper.updateNodes at hu
  split at hu
  · obtain ⟨nodes, hnodes, hloop⟩ := Option.bind_eq_some_iff.1 hu
    refine (Lts.run_of_meets (hok nodes hnodes) hloop).inv (I := Inv) ?_ hi
    intro s v s' hs hv hstep
    unfold nodeStep at hstep
    split at hstep
    · exact hs.updateNode (hv _ ‹_›) hstep
    · cases hstep
      exact hs
  · cases hu
    exact hi

theorem Inv.prepareLayout {update : CefDictionaryValue} (hi : Inv h)
    (hu : h.prepareLayout fuel update = some h') : Inv h' := by
  unfold AccessibilityHelper.prepareLayout at hu
  obtain ⟨h₁, hcleared, rfl⟩ := Option.map_eq_some_iff.1 hu
  refine Inv.congr (h := h₁) ?_ rfl rfl rfl
  split at hcleared
  · dsimp only at hcleared
    -- taking the root's id away does not touch the map
    have hroot : ∀ id : Int, Inv (if id = h.rootNodeId then { h with rootNodeId := -1 } else h) := by
      intro id
      split
      exacts [hi.congr rfl rfl rfl, hi]
    split at hcleared
    · rename_i n hn
      exact ((hroot _).destroyNode (getNode_eq_some hn) hcleared).1
    · cases hcleared
      exact hroot _
  · cases hcleared
    exact hi

theorem Inv.updateLayout {update : Option CefDictionaryValue} (hi : Inv h)
    (hok : ∀ u, update = some u → ∀ h', h.prepareLayout fuel u = some h' → h'.NodesOk u)
    (hu : h.updateLayout fuel update = some h') : Inv h' := by
  unfold AccessibilityHelper.updateLayout at hu
  split at hu
  · rename_i u
    obtain ⟨h₁, hprepare, hnodes⟩ := Option.bind_eq_some_iff.1 hu
    exact (hi.prepareLayout hprepare).updateNodes (hok u rfl h₁ hprepare) hnodes
  · cases hu
    exact hi

theorem Inv.updateFocusedNode {update : Option CefDictionaryValue} (hi : Inv h)
    (hok : ∀ u, update = some u → h.NodesOk u)
    (hu : h.updateFocusedNode update = some h') : Inv h' := by
  unfold AccessibilityHelper.updateFocusedNode at hu
  split at hu
  · rename_i u
    exact hi.updateNodes (hok u rfl) hu
  · cases hu
    exact hi

theorem Inv.eventStep {v : CefValue} (hi : Inv h) (hok : EventOk fuel h v)
    (hs : AccessibilityHelper.eventStep fuel h v = some h') : Inv h' := by
  unfold AccessibilityHelper.eventStep at hs
  split at hs
  · rename_i event hevent
    split at hs
    · dsimp only at hs
      split at hs
      · rename_i htype
        exact hi.updateLayout (fun update hupdate => (hok event update hevent hupdate).1 htype) hs
      · split at hs
        · rename_i hfocus
          rw [Bool.and_eq_true, decide_eq_true_eq] at hfocus
          have hi' : Inv { h with focusedNodeId := (event.get kId).getInt } := hi.congr rfl rfl rfl
          refine hi'.updateFocusedNode (fun update hupdate => ?_) hs
          exact (hok event update hevent hupdate).2 hfocus.1 hfocus.2
        · cases hs
          exact hi
    · cases hs
      exact hi
  · cases hs
    exact hi

/-- The nodes a call brings are well named. -/
def CallOk (h : AccessibilityHelper) (call : Nat × Option CefValue) : Prop :=
  ∀ l, call.2 = some (.list l) → Lts.Meets (AccessibilityHelper.eventStep call.1) (EventOk call.1) h l

/-- Every node of the update has an id, and it is not -1. -/
def Named (update : CefDictionaryValue) : Prop :=
  ∀ nodes v node, (update.get kNodes).getList = some nodes → v ∈ nodes →
    v.getDictionary = some node → node.hasKey kId = true ∧ (node.get kId).getInt ≠ -1

theorem nodesOk_of_named {update : CefDictionaryValue} (hn : Named update) : h.NodesOk update := by
  intro nodes hnodes
  refine Lts.meets_of_forall fun v hv s node hnode => ?_
  obtain ⟨hkey, hne⟩ := hn nodes v node hnodes hv hnode
  unfold NodeOk
  rwa [if_pos hkey]

/-- A condition on the input alone. -/
theorem callOk_of_named {call : Nat × Option CefValue}
    (hn : ∀ l v event update, call.2 = some (.list l) → v ∈ l → v.getDictionary = some event →
      (event.get (lit "update")).getDictionary = some update → Named update) : CallOk h call := by
  intro l hl
  refine Lts.meets_of_forall fun v hv s event update hevent hupdate => ?_
  have hnamed := hn l v event update hl hv hevent hupdate
  exact ⟨fun _ h' _ => nodesOk_of_named hnamed, fun _ _ => nodesOk_of_named hnamed⟩

/-- A call of `UpdateAccessibilityTree` that returns, with a depth its recursion keeps to. -/
def step (h : AccessibilityHelper) (call : Nat × Option CefValue) : Option AccessibilityHelper :=
  h.updateAccessibilityTree call.1 call.2

theorem Inv.step {call : Nat × Option CefValue} (hi : Inv h) (hok : CallOk h call)
    (hs : AccessibilityHelper.step h call = some h') : Inv h' := by
  obtain ⟨fuel, value⟩ := call
  unfold AccessibilityHelper.step AccessibilityHelper.updateAccessibilityTree at hs
  dsimp only at hs
  split at hs
  · refine (Lts.run_of_meets (hok _ rfl) hs).inv (I := Inv) ?_ hi
    exact fun _ _ _ hi hok hs => hi.eventStep hok hs
  · cases hs
    exact hi

/-- After calls whose nodes are well named, each entry of the map is a node that has not been
destroyed, under its own id, which is not -1; no node has two entries, and none is missing. -/
theorem tree_wellFormed {calls : List (Nat × Option CefValue)}
    (hr : Lts.Run AccessibilityHelper.step CallOk {} calls h) :
    (∀ k n, h.nodeMap k = some n →
      (h.node n).nodeId = k ∧ k ≠ -1 ∧ (h.node n).destroyed = false ∧ n < h.created) ∧
    (∀ k k' n, h.nodeMap k = some n → h.nodeMap k' = some n → k = k') ∧
    ∀ n, n < h.created → (h.node n).destroyed = false → ∃ k, h.nodeMap k = some n := by
  have hi : Inv h := hr.inv (I := Inv) (fun _ _ _ hi hok hs => hi.step hok hs) inv_start
  refine ⟨hi.entry, fun k k' n hk hk' => ?_, hi.kept⟩
  rw [← (hi.entry k n hk).1, (hi.entry k' n hk').1]

/-- A `layoutComplete` event. -/
def layoutEvent (update : CefDictionaryValue) : CefValue :=
  .dictionary [(lit "event_type", .string (lit "layoutComplete")), (lit "update", .dictionary update)]

def nodeWith (id : Int) (children : List Int) : CefValue :=
  .dictionary [(kId, .int id), (kChildIds, .list (children.map .int))]

/-- Two nodes, the one below the other, and the upper one cleared. -/
def clearedTree : List (Nat × Option CefValue) :=
  [(1, some (.list [layoutEvent [(kNodes, .list [nodeWith 1 [2], nodeWith 2 []])]])),
    (2, some (.list [layoutEvent [(lit "node_id_to_clear", .int 1)]]))]

theorem tree_wellFormed_cleared : ∃ h, Lts.Run AccessibilityHelper.step CallOk {} clearedTree h ∧
    h.created = 2 ∧ ∀ n, n < h.created → (h.node n).destroyed = false → ∃ k, h.nodeMap k = some n := by
  obtain ⟨h, hs, hcreated⟩ : ∃ h, Lts.exec AccessibilityHelper.step {} clearedTree = some h ∧
      h.created = 2 := ⟨_, rfl, rfl⟩
  have hr : Lts.Run AccessibilityHelper.step CallOk {} clearedTree h := by
    refine Lts.run_of_exec_of (fun call hcall h => callOk_of_named ?_) hs
    intro l v event update hl hv hevent hupdate nodes w node hnodes hw hnode
    simp only [clearedTree, List.mem_cons, List.not_mem_nil, or_false] at hcall
    rcases hcall with rfl | rfl
    · obtain rfl := CefValue.list.inj (Option.some.inj hl)
      obtain rfl := List.mem_singleton.1 hv
      obtain rfl := Option.some.inj hevent
      obtain rfl := Option.some.inj hupdate
      obtain rfl := Option.some.inj hnodes
      simp only [List.mem_cons, List.not_mem_nil, or_false] at hw
      rcases hw with rfl | rfl
      all_goals
        obtain rfl := Option.some.inj hnode
        exact ⟨rfl, by decide⟩
    · obtain rfl := CefValue.list.inj (Option.some.inj hl)
      obtain rfl := List.mem_singleton.1 hv
      obtain rfl := Option.some.inj hevent
      obtain rfl := Option.some.inj hupdate
      cases hnodes
  exact ⟨h, hr, hcreated, (tree_wellFormed hr).2.2⟩

/-- A node with the id -1. -/
theorem tree_counterexample : ¬ ∀ calls h,
    Lts.Run AccessibilityHelper.step Lts.Any {} calls h → ∀ k n, h.nodeMap k = some n → k ≠ -1 := by
  intro hall
  obtain ⟨h, hs, hmap⟩ : ∃ h, Lts.exec AccessibilityHelper.step {}
      [(0, some (.list [layoutEvent [(kNodes, .list [nodeWith (-1) []])]]))] = some h ∧
      h.nodeMap (-1) = some 0 := ⟨_, rfl, rfl⟩
  exact hall _ h (Lts.run_of_exec hs) (-1) 0 hmap rfl

end AccessibilityHelper

end NplBrowser
