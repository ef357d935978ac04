import NplBrowser.Lib.DepthFirst
import NplBrowser.OsrAXTree

/-!
# Which events the tree survives

`DestroyNode` recurses through the child ids before it takes the node out of the map, and `AxLocation`
through the containers. So each returns where no cycle is below the node; the map's size is no measure.
A focus event looks for the focused node and then for the root, and into a null pointer if there is
neither. A node without an id sits in the map under 0 with `node_id_` -1: `DestroyNode` destroys it but
leaves it there.

`EventSafe` says which events are survived, and `returns_run` that after any such events every such
event is: the map holds live nodes only (`Live`).
-/

namespace NplBrowser

open Relation

/-! ## The shape of the tree -/

namespace AccessibilityHelper

/-- No cycle is below `n`, and every node there is in the map under its own id. -/
structure Clearable (h : AccessibilityHelper) (n : Nat) : Prop where
  acyclic : Acyclic.Below h.Child n
  keyed : ∀ m, ReflTransGen h.Child m n → h.getNode (h.node m).nodeId = some m

theorem Clearable.child {h : AccessibilityHelper} {c n : Nat} (hc : h.Clearable n) (hchild : h.Child c n) :
    h.Clearable c :=
  ⟨hc.acyclic.of_rel hchild, fun m hm => hc.keyed m (hm.tail hchild)⟩

end AccessibilityHelper

namespace AXTree

/-- The container of `n` is `m`. -/
def Container (t : AXTree) (m n : Nat) : Prop := t.getNode (t.offsetContainerId n) = some m

/-- The lists that are there are lists. -/
def ListsOk (update : CefDictionaryValue) : Prop :=
  update.hasKey kNodes = true → ∃ nodes, (update.get kNodes).getList = some nodes ∧
    ∀ v ∈ nodes, ∀ node, v.getDictionary = some node → node.hasKey kId = true →
      node.hasKey kChildIds = true → (node.get kChildIds).getList.isSome = true

/-- One of the update's nodes has the id. -/
def Brings (update : CefDictionaryValue) (id : Int) : Prop :=
  update.hasKey kNodes = true ∧ ∃ nodes, (update.get kNodes).getList = some nodes ∧
    ∃ v ∈ nodes, ∃ node, v.getDictionary = some node ∧ (node.get kId).getInt = id

/-- A node to be cleared can be, the lists are lists, and a focus event finds the focused node or the
root, in the tree or among its own nodes. -/
def EventSafe (t : AXTree) (v : CefValue) : Prop :=
  ∀ event, v.getDictionary = some event → event.hasKey (lit "event_type") = true →
    event.hasKey (lit "update") = true →
    ((event.get (lit "event_type")).getString = lit "layoutComplete" →
      ∀ update, (event.get (lit "update")).getDictionary = some update → ListsOk update ∧
        (update.hasKey (lit "node_id_to_clear") = true →
          ∀ n, t.getNode (update.get (lit "node_id_to_clear")).getInt = some n → t.helper.Clearable n)) ∧
    ((event.get (lit "event_type")).getString = lit "focus" → event.hasKey kId = true →
      (∀ update, (event.get (lit "update")).getDictionary = some update → ListsOk update) ∧
        ∃ id, (id = (event.get kId).getInt ∨ id = t.helper.rootNodeId) ∧ id ≠ -1 ∧
          ((t.getNode id).isSome = true ∨
            ∃ update, (event.get (lit "update")).getDictionary = some update ∧ Brings update id))

/-- A call, or `AxLocation` of the node stored under an id. -/
inductive Event
  | updateAccessibilityTree (value : Option CefValue)
  | axLocation (nodeId : Int)

/-- What returns within a depth. -/
def treeStep (t : AXTree) : Nat × Event → Option AXTree
  | (fuel, .updateAccessibilityTree value) => t.updateAccessibilityTree fuel value
  | (fuel, .axLocation nodeId) =>
    match t.helper.nodeMap nodeId with
    | some n => (t.axLocation fuel n).map fun nodes => nodes.foldl look t
    | none => some t

/-- Each event is safe in the state that those before it lead to, and no cycle of containers is above a
node whose location is asked for. -/
def Safe (t : AXTree) : Event → Prop
  | .updateAccessibilityTree value =>
    ∀ l, value = some (.list l) → ∃ N, ∀ fuel ≥ N, Lts.Meets (eventStep fuel) EventSafe t l
  | .axLocation nodeId => ∀ n, t.helper.nodeMap nodeId = some n → Acyclic.Below t.Container n

/-- The map holds live nodes only, each once, and no destroyed node has been looked into. -/
structure Live (t : AXTree) : Prop where
  entry : ∀ k n, t.helper.nodeMap k = some n → (t.helper.node n).destroyed = false ∧ n < t.helper.created
  inj : ∀ k k' n, t.helper.nodeMap k = some n → t.helper.nodeMap k' = some n → k = k'
  touched : t.touched = false

variable {t t' : AXTree} {h₀ : AccessibilityHelper} {n : Nat}

theorem look_eq (h : (t.helper.node n).destroyed = false) : t.look n = t := by
  rw [look, h, Bool.or_false]

/-! ## Destruction -/

/-- What is left of `h₀` while nodes are destroyed. -/
structure Under (h₀ : AccessibilityHelper) (t : AXTree) : Prop where
  childIds : ∀ n, (t.helper.node n).childIds = (h₀.node n).childIds
  nodeId : ∀ n, (t.helper.node n).nodeId = (h₀.node n).nodeId
  entry : ∀ k n, t.helper.nodeMap k = some n → h₀.nodeMap k = some n

/-- From `t` to `t'` only nodes with `P` have been destroyed. -/
structure Destroys (h₀ : AccessibilityHelper) (P : Nat → Prop) (t t' : AXTree) : Prop where
  live : t'.Live
  under : Under h₀ t'
  only : ∀ m, (t'.helper.node m).destroyed = true → (t.helper.node m).destroyed = true ∨ P m

theorem Destroys.trans {P Q R : Nat → Prop} {t'' : AXTree} (h₁ : Destroys h₀ P t t')
    (h₂ : Destroys h₀ Q t' t'') (hP : ∀ m, P m → R m) (hQ : ∀ m, Q m → R m) : Destroys h₀ R t t'' := by
  refine ⟨h₂.live, h₂.under, fun m hm => ?_⟩
  rcases h₂.only m hm with hm | hm
  · exact (h₁.only m hm).imp_right (hP m)
  · exact .inr (hQ m hm)

theorem Live.removeNode (hl : t.Live) (hu : Under h₀ t) (hn : (t.helper.node n).destroyed = false)
    (hkey : ∀ k, h₀.nodeMap k = some n → k = (h₀.node n).nodeId) :
    Destroys h₀ (fun m => m = n) t (t.removeNode n) := by
  have hshrinks := AccessibilityHelper.shrinks_removeNode t.helper n
  have hnode : ∀ m, m ≠ n → (t.helper.removeNode n).node m = t.helper.node m := fun m hm =>
    Function.update_of_ne hm _ _
  refine ⟨⟨fun k m hk => ?_, fun k k' m hk hk' => ?_, ?_⟩, ⟨fun m => ?_, fun m => ?_, fun k m hk => ?_⟩,
    fun m hm => ?_⟩
  · obtain ⟨hlive, hlt⟩ := hl.entry k m (hshrinks.entry k m hk)
    have hne : m ≠ n := by
      rintro rfl
      have hgone : (t.helper.removeNode m).nodeMap k = none := by
        rw [hkey k (hu.entry k m (hshrinks.entry k m hk)), ← hu.nodeId m]
        exact Function.update_self ..
      rw [AXTree.removeNode, hgone] at hk
      cases hk
    exact ⟨by rw [← hlive]; exact congrArg OsrAXNode.destroyed (hnode m hne), hlt⟩
  · exact hl.inj k k' m (hshrinks.entry k m hk) (hshrinks.entry k' m hk')
  · show (t.touched || (t.helper.node n).destroyed) = false
    rw [hl.touched, hn]
    rfl
  · exact (childIds_removeNode t.helper n m).trans (hu.childIds m)
  · exact (hshrinks.nodeId m).trans (hu.nodeId m)
  · exact hu.entry k m (hshrinks.entry k m hk)
  · by_cases hmn : m = n
    · exact .inr hmn
    · refine .inl ?_
      rw [← hm]
      exact (congrArg OsrAXNode.destroyed (hnode m hmn)).symm

/-- The loop over a node's child ids, when each child can be destroyed. -/
theorem exec_destroyById {P : Nat → Prop}
    (hdestroy : ∀ c, h₀.Child c n → ∀ t, t.Live → Under h₀ t → (t.helper.node c).destroyed = false →
      ∃ N t', (∀ fuel ≥ N, destroyNode fuel t c = some t') ∧ Destroys h₀ P t t')
    {ids : List Int} (hids : ∀ id ∈ ids, id ∈ (h₀.node n).childIds) (hl : t.Live) (hu : Under h₀ t) :
    ∃ N t', (∀ fuel ≥ N, Lts.exec (destroyById (destroyNode fuel)) t ids = some t') ∧ Destroys h₀ P t t' := by
  induction ids generalizing t with
  | nil => exact ⟨0, t, fun _ _ => rfl, hl, hu, fun m hm => .inl hm⟩
  | cons id ids ih =>
    have hrest := fun id hid => hids id (.tail _ hid)
    cases hget : t.getNode id with
    | none =>
      obtain ⟨N, t', hexec, hd⟩ := ih hrest hl hu
      refine ⟨N, t', fun fuel hfuel => ?_, hd⟩
      have hskip : destroyById (destroyNode fuel) t id = some t := by rw [destroyById, hget]
      rw [Lts.exec_cons hskip]
      exact hexec fuel hfuel
    | some c =>
      have hchild : h₀.Child c n := ⟨id, hids id (.head _), getNode_mono hu.entry hget⟩
      obtain ⟨N₁, t₁, hc, hd₁⟩ := hdestroy c hchild t hl hu (hl.entry _ _ (getNode_nodeMap hget)).1
      obtain ⟨N₂, t₂, hexec, hd₂⟩ := ih hrest hd₁.live hd₁.under
      refine ⟨max N₁ N₂, t₂, fun fuel hfuel => ?_, hd₁.trans hd₂ (fun _ h => h) (fun _ h => h)⟩
      have hfirst : destroyById (destroyNode fuel) t id = some t₁ := by
        rw [destroyById, hget]
        exact hc fuel (le_trans (le_max_left _ _) hfuel)
      rw [Lts.exec_cons hfirst]
      exact hexec fuel (le_trans (le_max_right _ _) hfuel)

/-- A node that can be cleared is destroyed with those below it, and no others. -/
theorem destroyNode_returns (hinj : ∀ k k' n, h₀.nodeMap k = some n → h₀.nodeMap k' = some n → k = k')
    (hacc : Acc h₀.Child n) (hc : h₀.Clearable n) (hl : t.Live) (hu : Under h₀ t)
    (hn : (t.helper.node n).destroyed = false) :
    ∃ N t', (∀ fuel ≥ N, destroyNode fuel t n = some t') ∧
      Destroys h₀ (fun m => ReflTransGen h₀.Child m n) t t' := by
  induction hacc generalizing t with
  | intro n _ ih =>
    have hchildren : ∀ c, h₀.Child c n → ∀ t, t.Live → Under h₀ t → (t.helper.node c).destroyed = false →
        ∃ N t', (∀ fuel ≥ N, destroyNode fuel t c = some t') ∧
          Destroys h₀ (fun m => TransGen h₀.Child m n) t t' := by
      intro c hchild t hl hu hlive
      obtain ⟨N, t', hreturns, hd⟩ := ih c hchild (hc.child hchild) hl hu hlive
      exact ⟨N, t', hreturns, hd.live, hd.under, fun m hm => (hd.only m hm).imp_right (.tail' · hchild)⟩
    obtain ⟨N, t₁, hexec, hd₁⟩ := exec_destroyById hchildren (fun _ => id) hl hu
    -- no child's destruction has come back to `n`
    have hlive : (t₁.helper.node n).destroyed = false := by
      rw [Bool.eq_false_iff]
      intro hdestroyed
      rcases hd₁.only n hdestroyed with h | h
      · rw [hn] at h
        cases h
      · exact hc.acyclic n .refl h
    have hown := AccessibilityHelper.getNode_eq_some (hc.keyed n .refl)
    have hd₂ := hd₁.live.removeNode hd₁.under hlive fun k hk => hinj k _ n hk hown
    refine ⟨N + 1, t₁.removeNode n, fun fuel hfuel => ?_, hd₁.trans hd₂ (fun m => TransGen.to_reflTransGen) ?_⟩
    · obtain ⟨fuel, rfl⟩ : ∃ f, fuel = f + 1 := ⟨fuel - 1, by omega⟩
      rw [destroyNode, look_eq hn, hu.childIds n, hexec fuel (by omega), Option.map_some]
    · rintro m rfl
      exact .refl

theorem Live.finite_child (hl : t.Live) : {c | ∃ n, t.helper.Child c n}.Finite := by
  refine (Set.finite_lt_nat t.helper.created).subset ?_
  rintro c ⟨n, id, -, hc⟩
  exact (hl.entry id c (getNode_nodeMap hc)).2

theorem Live.destroyNode (hl : t.Live) {k : Int} (hk : t.getNode k = some n) (hc : t.helper.Clearable n) :
    ∃ N t', (∀ fuel ≥ N, AXTree.destroyNode fuel t n = some t') ∧ t'.Live := by
  obtain ⟨N, t', hreturns, hd⟩ := destroyNode_returns hl.inj (hc.acyclic.acc hl.finite_child) hc hl
    ⟨fun _ => rfl, fun _ => rfl, fun _ _ => id⟩ (hl.entry k n (getNode_nodeMap hk)).1
  exact ⟨N, t', hreturns, hd.live⟩

/-! ## Updates -/

/-- Entries are added. -/
structure Grows (t t' : AXTree) : Prop where
  root : t'.helper.rootNodeId = t.helper.rootNodeId
  focused : t'.helper.focusedNodeId = t.helper.focusedNodeId
  entry : ∀ id, (t.getNode id).isSome = true → (t'.getNode id).isSome = true

theorem Grows.refl (t : AXTree) : Grows t t := ⟨rfl, rfl, fun _ h => h⟩

theorem Grows.trans {t'' : AXTree} (h₁ : Grows t t') (h₂ : Grows t' t'') : Grows t t'' :=
  ⟨h₂.root.trans h₁.root, h₂.focused.trans h₁.focused, fun id h => h₂.entry id (h₁.entry id h)⟩

theorem exists_updateValue (a : OsrAXNode) {d : CefDictionaryValue}
    (h : d.hasKey kId = true → d.hasKey kChildIds = true → (d.get kChildIds).getList.isSome = true) :
    ∃ b, a.updateValue d = some b := by
  unfold OsrAXNode.updateValue
  split <;> rename_i hid
  · split <;> rename_i hchildren
    · obtain ⟨childs, hchilds⟩ := Option.isSome_iff_exists.1 (h hid hchildren)
      rw [hchilds]
      exact ⟨_, rfl⟩
    · exact ⟨_, rfl⟩
  · exact ⟨_, rfl⟩

theorem Live.setNode (hl : t.Live) {k : Int} (hk : t.getNode k = some n) {node : CefDictionaryValue}
    {axNode : OsrAXNode} (hax : (t.helper.node n).updateValue node = some axNode) :
    (t.setNode n node axNode).Live := by
  have hdestroyed := (AccessibilityHelper.nodeId_updateValue hax).1
  have hlive := (hl.entry k n (getNode_nodeMap hk)).1
  refine ⟨fun k m hm => ?_, hl.inj, ?_⟩
  · obtain ⟨hmlive, hlt⟩ := hl.entry k m hm
    refine ⟨?_, hlt⟩
    show (Function.update t.helper.node n axNode m).destroyed = false
    by_cases hmn : m = n
    · rw [hmn, Function.update_self, hdestroyed, hlive]
    · rw [Function.update_of_ne hmn, hmlive]
  · show (t.look n).touched = false
    rw [look_eq hlive, hl.touched]

theorem Live.addNode (hl : t.Live) {id : Int} {node : CefDictionaryValue} {axNode : OsrAXNode}
    (hax : ({} : OsrAXNode).updateValue node = some axNode) : (t.addNode id node axNode).Live := by
  have hdestroyed := (AccessibilityHelper.nodeId_updateValue hax).1
  refine ⟨fun k m hk => ?_, fun k k' m hk hk' => ?_, hl.touched⟩
  · show (Function.update t.helper.node t.helper.created axNode m).destroyed = false ∧
      m < t.helper.created + 1
    rcases nodeMap_addNode hk with ⟨-, rfl⟩ | hk
    · rw [Function.update_self]
      exact ⟨hdestroyed, Nat.lt_succ_self _⟩
    · obtain ⟨hmlive, hlt⟩ := hl.entry k m hk
      rw [Function.update_of_ne (Nat.ne_of_lt hlt)]
      exact ⟨hmlive, Nat.lt_succ_of_lt hlt⟩
  · rcases nodeMap_addNode hk with ⟨rfl, rfl⟩ | hold <;> rcases nodeMap_addNode hk' with ⟨rfl, hm⟩ | hold'
    · rfl
    · exact absurd (hl.entry _ _ hold').2 (Nat.lt_irrefl _)
    · subst hm
      exact absurd (hl.entry _ _ hold).2 (Nat.lt_irrefl _)
    · exact hl.inj k k' m hold hold'

theorem grows_addNode {id : Int} (hfree : t.getNode id = none) (node : CefDictionaryValue) (axNode : OsrAXNode) :
    Grows t (t.addNode id node axNode) ∧ (id ≠ -1 → ((t.addNode id node axNode).getNode id).isSome = true) := by
  refine ⟨⟨rfl, rfl, fun k hk => ?_⟩, fun hne => ?_⟩
  · have hne : k ≠ id := by
      rintro rfl
      rw [hfree] at hk
      cases hk
    have hsame : (t.addNode id node axNode).helper.nodeMap k = t.helper.nodeMap k :=
      Function.update_of_ne hne _ _
    unfold AXTree.getNode AccessibilityHelper.getNode at hk ⊢
    rwa [hsame]
  · have hself : (t.addNode id node axNode).helper.nodeMap id = some t.helper.created :=
      Function.update_self ..
    rw [AXTree.getNode, AccessibilityHelper.getNode, if_pos hne, hself]
    rfl

theorem Live.updateNode (hl : t.Live) {node : CefDictionaryValue}
    (h : node.hasKey kId = true → node.hasKey kChildIds = true → (node.get kChildIds).getList.isSome = true) :
    ∃ t', t.updateNode node = some t' ∧ t'.Live ∧ Grows t t' ∧
      ((node.get kId).getInt ≠ -1 → (t'.getNode (node.get kId).getInt).isSome = true) := by
  unfold AXTree.updateNode
  cases hget : t.getNode (node.get kId).getInt with
  | some n =>
    obtain ⟨axNode, hax⟩ := exists_updateValue (t.helper.node n) h
    simp only [hget, hax]
    refine ⟨_, rfl, hl.setNode hget hax, ⟨rfl, rfl, fun _ hid => hid⟩, fun _ => ?_⟩
    show (t.getNode (node.get kId).getInt).isSome = true
    rw [hget]
    rfl
  | none =>
    obtain ⟨axNode, hax⟩ := exists_updateValue {} h
    simp only [hget, hax]
    exact ⟨_, rfl, hl.addNode hax, grows_addNode hget node axNode⟩

theorem Live.nodeSteps {nodes : List CefValue} (hl : t.Live)
    (h : ∀ v ∈ nodes, ∀ node, v.getDictionary = some node → node.hasKey kId = true →
      node.hasKey kChildIds = true → (node.get kChildIds).getList.isSome = true) :
    ∃ t', Lts.exec nodeStep t nodes = some t' ∧ t'.Live ∧ Grows t t' ∧
      ∀ v ∈ nodes, ∀ node, v.getDictionary = some node → (node.get kId).getInt ≠ -1 →
        (t'.getNode (node.get kId).getInt).isSome = true := by
  induction nodes generalizing t with
  | nil => exact ⟨t, rfl, hl, .refl t, nofun⟩
  | cons v nodes ih =>
    have hrest := fun w hw => h w (.tail _ hw)
    cases hv : v.getDictionary with
    | none =>
      obtain ⟨t', hexec, hl', hg, hall⟩ := ih hl hrest
      refine ⟨t', ?_, hl', hg, fun w hw node hnode => ?_⟩
      · have hskip : nodeStep t v = some t := by rw [nodeStep, hv]
        rwa [Lts.exec_cons hskip]
      · rcases List.mem_cons.1 hw with rfl | hw
        · rw [hv] at hnode
          cases hnode
        · exact hall w hw node hnode
    | some d =>
      obtain ⟨t₁, hu, hl₁, hg₁, hid₁⟩ := hl.updateNode (h v (.head _) d hv)
      obtain ⟨t', hexec, hl', hg, hall⟩ := ih hl₁ hrest
      refine ⟨t', ?_, hl', hg₁.trans hg, fun w hw node hnode hne => ?_⟩
      · have hfirst : nodeStep t v = some t₁ := by
          rw [nodeStep, hv]
          exact hu
        rwa [Lts.exec_cons hfirst]
      · rcases List.mem_cons.1 hw with rfl | hw
        · rw [hv, Option.some.injEq] at hnode
          subst hnode
          exact hg.entry _ (hid₁ hne)
        · exact hall w hw node hnode hne

theorem Live.updateNodes {update : CefDictionaryValue} (hl : t.Live) (h : ListsOk update) :
    ∃ t', t.updateNodes update = some t' ∧ t'.Live ∧ Grows t t' ∧
      ∀ id, Brings update id → id ≠ -1 → (t'.getNode id).isSome = true := by
  unfold AXTree.updateNodes
  split <;> rename_i hkey
  · obtain ⟨nodes, hnodes, hchildren⟩ := h hkey
    obtain ⟨t', hexec, hl', hg, hall⟩ := hl.nodeSteps hchildren
    rw [hnodes]
    refine ⟨t', hexec, hl', hg, ?_⟩
    rintro id ⟨-, nodes', hnodes', v, hv, node, hnode, rfl⟩ hne
    rw [hnodes, Option.some.injEq] at hnodes'
    subst hnodes'
    exact hall v hv node hnode hne
  · exact ⟨t, rfl, hl, .refl t, fun id hid => absurd hid.1 hkey⟩

/-! ## Events -/

theorem Live.resetRoot (hl : t.Live) (id : Int) : (t.resetRoot id).Live := by
  unfold AXTree.resetRoot
  split
  exacts [⟨hl.entry, hl.inj, hl.touched⟩, hl]

theorem clearable_resetRoot {id : Int} (hc : t.helper.Clearable n) : (t.resetRoot id).helper.Clearable n := by
  unfold resetRoot
  split
  exacts [⟨hc.acyclic, hc.keyed⟩, hc]

theorem getNode_resetRoot (id k : Int) : (t.resetRoot id).getNode k = t.getNode k := by
  unfold resetRoot
  split <;> rfl

theorem Live.clear (hl : t.Live) {update : CefDictionaryValue}
    (h : update.hasKey (lit "node_id_to_clear") = true →
      ∀ n, t.getNode (update.get (lit "node_id_to_clear")).getInt = some n → t.helper.Clearable n) :
    ∃ N t', (∀ fuel ≥ N, AXTree.clear fuel t update = some t') ∧ t'.Live := by
  unfold AXTree.clear
  split <;> rename_i hkey
  · have hl' := hl.resetRoot (update.get (lit "node_id_to_clear")).getInt
    simp only [destroyById, getNode_resetRoot]
    cases hget : t.getNode (update.get (lit "node_id_to_clear")).getInt with
    | none => exact ⟨0, _, fun _ _ => rfl, hl'⟩
    | some n =>
      exact hl'.destroyNode (by rw [getNode_resetRoot]; exact hget) (clearable_resetRoot (h hkey n hget))
  · exact ⟨0, t, fun _ _ => rfl, hl⟩

theorem Live.updateLayout (hl : t.Live) {update : Option CefDictionaryValue}
    (h : ∀ u, update = some u → ListsOk u ∧ (u.hasKey (lit "node_id_to_clear") = true →
      ∀ n, t.getNode (u.get (lit "node_id_to_clear")).getInt = some n → t.helper.Clearable n)) :
    ∃ N t', (∀ fuel ≥ N, AXTree.updateLayout fuel t update = some t') ∧ t'.Live := by
  cases update with
  | none => exact ⟨0, t, fun _ _ => rfl, hl⟩
  | some u =>
    obtain ⟨hlists, hclear⟩ := h u rfl
    obtain ⟨N, t₁, hreturns, hl₁⟩ := hl.clear hclear
    have hl₂ : (t₁.setIds u).Live := ⟨hl₁.entry, hl₁.inj, hl₁.touched⟩
    obtain ⟨t', hnodes, hl', -⟩ := hl₂.updateNodes hlists
    refine ⟨N, t', fun fuel hfuel => ?_, hl'⟩
    rw [AXTree.updateLayout, hreturns fuel hfuel]
    exact hnodes

theorem Live.notify (hl : t.Live) {id : Int} (hid : id = t.helper.focusedNodeId ∨ id = t.helper.rootNodeId)
    (hsome : (t.getNode id).isSome = true) : t.notify = some t := by
  have hlook : ∀ k n, t.getNode k = some n → t.look n = t := fun k n hk =>
    look_eq (hl.entry k n (getNode_nodeMap hk)).1
  unfold AXTree.notify
  split
  · rename_i n hn
    rw [hlook _ n hn]
  · rename_i hnone
    rcases hid with rfl | rfl
    · rw [hnone] at hsome
      cases hsome
    · obtain ⟨n, hn⟩ := Option.isSome_iff_exists.1 hsome
      rw [hn, Option.map_some, hlook _ n hn]

theorem Live.updateFocusedNode (hl : t.Live) {update : Option CefDictionaryValue}
    (hlists : ∀ u, update = some u → ListsOk u) {id : Int}
    (hid : id = t.helper.focusedNodeId ∨ id = t.helper.rootNodeId) (hne : id ≠ -1)
    (hfound : (t.getNode id).isSome = true ∨ ∃ u, update = some u ∧ Brings u id) :
    ∃ t', t.updateFocusedNode update = some t' ∧ t'.Live := by
  cases update with
  | none =>
    rcases hfound with hsome | ⟨u, hu, -⟩
    · exact ⟨t, hl.notify hid hsome, hl⟩
    · cases hu
  | some u =>
    obtain ⟨t', hnodes, hl', hg, hbrings⟩ := hl.updateNodes (hlists u rfl)
    have hsome : (t'.getNode id).isSome = true := by
      rcases hfound with hsome | ⟨u', hu', hb⟩
      · exact hg.entry id hsome
      · obtain rfl := Option.some.inj hu'
        exact hbrings id hb hne
    refine ⟨t', ?_, hl'⟩
    rw [AXTree.updateFocusedNode, hnodes]
    refine hl'.notify ?_ hsome
    rwa [hg.focused, hg.root]

theorem Live.eventStep {v : CefValue} (hl : t.Live) (h : EventSafe t v) :
    ∃ N t', (∀ fuel ≥ N, AXTree.eventStep fuel t v = some t') ∧ t'.Live := by
  have hskip : ∃ N t', (∀ fuel ≥ N, some t = some t') ∧ t'.Live := ⟨0, t, fun _ _ => rfl, hl⟩
  unfold AXTree.eventStep
  cases hv : v.getDictionary with
  | none => exact hskip
  | some event =>
    dsimp only
    split_ifs with hkeys hlayout hfocus
    · rw [Bool.and_eq_true] at hkeys
      exact hl.updateLayout ((h event hv hkeys.1 hkeys.2).1 hlayout)
    · rw [Bool.and_eq_true] at hkeys
      rw [Bool.and_eq_true, decide_eq_true_eq] at hfocus
      obtain ⟨hlists, id, hid, hne, hfound⟩ := (h event hv hkeys.1 hkeys.2).2 hfocus.1 hfocus.2
      have hl' : (t.setFocus (event.get kId).getInt).Live := ⟨hl.entry, hl.inj, hl.touched⟩
      obtain ⟨t', ht', hlive⟩ := hl'.updateFocusedNode hlists hid hne hfound
      exact ⟨0, t', fun _ _ => ht', hlive⟩
    · exact hskip
    · exact hskip

/-- A list of events, each safe at its turn. -/
theorem Live.eventSteps {l : List CefValue} (hl : t.Live)
    (h : ∃ N, ∀ fuel ≥ N, Lts.Meets (AXTree.eventStep fuel) EventSafe t l) :
    ∃ N t', (∀ fuel ≥ N, Lts.exec (AXTree.eventStep fuel) t l = some t') ∧ t'.Live := by
  induction l generalizing t with
  | nil => exact ⟨0, t, fun _ _ => rfl, hl⟩
  | cons v l ih =>
    obtain ⟨N, hmeets⟩ := h
    obtain ⟨N₁, t₁, hfirst, hl₁⟩ := hl.eventStep (hmeets N le_rfl).1
    obtain ⟨N₂, t', hexec, hl'⟩ := ih hl₁ ⟨max N N₁, fun fuel hfuel =>
      (hmeets fuel (le_trans (le_max_left _ _) hfuel)).2 t₁ (hfirst fuel (le_trans (le_max_right _ _) hfuel))⟩
    refine ⟨max N₁ N₂, t', fun fuel hfuel => ?_, hl'⟩
    rw [Lts.exec_cons (hfirst fuel (le_trans (le_max_left _ _) hfuel))]
    exact hexec fuel (le_trans (le_max_right _ _) hfuel)

/-! ## Locations -/

/-- The containers are in the map. -/
theorem axLocation_returns (hl : t.Live) (hacc : Acc t.Container n) (hn : (t.helper.node n).destroyed = false) :
    ∃ N nodes, (∀ fuel ≥ N, t.axLocation fuel n = some nodes) ∧
      ∀ m ∈ nodes, (t.helper.node m).destroyed = false := by
  induction hacc with
  | intro n _ ih =>
    cases hget : t.getNode (t.offsetContainerId n) with
    | none =>
      refine ⟨1, [n], fun fuel hfuel => ?_, by simpa using hn⟩
      obtain ⟨fuel, rfl⟩ : ∃ f, fuel = f + 1 := ⟨fuel - 1, by omega⟩
      rw [axLocation, hget]
    | some m =>
      obtain ⟨N, nodes, hreturns, hlive⟩ := ih m hget (hl.entry _ m (getNode_nodeMap hget)).1
      refine ⟨N + 1, n :: nodes, fun fuel hfuel => ?_, fun c hc => ?_⟩
      · obtain ⟨fuel, rfl⟩ : ∃ f, fuel = f + 1 := ⟨fuel - 1, by omega⟩
        rw [axLocation, hget]
        exact Option.map_eq_some_iff.2 ⟨nodes, hreturns fuel (by omega), rfl⟩
      · rcases List.mem_cons.1 hc with rfl | hc
        exacts [hn, hlive c hc]

theorem foldl_look {nodes : List Nat} (h : ∀ m ∈ nodes, (t.helper.node m).destroyed = false) :
    nodes.foldl look t = t := by
  induction nodes with
  | nil => rfl
  | cons m nodes ih =>
    rw [List.foldl_cons, look_eq (h m (.head _))]
    exact ih fun c hc => h c (.tail _ hc)

theorem Live.finite_container (hl : t.Live) : {m | ∃ n, t.Container m n}.Finite := by
  refine (Set.finite_lt_nat t.helper.created).subset ?_
  rintro m ⟨n, hm⟩
  exact (hl.entry _ m (getNode_nodeMap hm)).2

/-! ## Runs -/

theorem Live.returns {e : Event} (hl : t.Live) (h : t.Safe e) :
    ∃ N t', (∀ fuel ≥ N, t.treeStep (fuel, e) = some t') ∧ t'.Live := by
  cases e with
  | updateAccessibilityTree value =>
    have hskip : ∃ N t', (∀ fuel ≥ N, some t = some t') ∧ t'.Live := ⟨0, t, fun _ _ => rfl, hl⟩
    dsimp only [treeStep, AXTree.updateAccessibilityTree]
    split
    · rename_i l
      exact hl.eventSteps (h l rfl)
    · exact hskip
  | axLocation nodeId =>
    dsimp only [treeStep]
    cases hn : t.helper.nodeMap nodeId with
    | none => exact ⟨0, t, fun _ _ => rfl, hl⟩
    | some n =>
      obtain ⟨N, nodes, hreturns, hlive⟩ :=
        axLocation_returns hl ((h n hn).acc hl.finite_container) (hl.entry nodeId n hn).1
      refine ⟨N, t, fun fuel hfuel => ?_, hl⟩
      show Option.map _ (t.axLocation fuel n) = some t
      rw [hreturns fuel hfuel, Option.map_some, foldl_look hlive]

theorem treeStep_mono {fuel fuel' : Nat} {e : Event} (hle : fuel ≤ fuel') (h : t.treeStep (fuel, e) = some t') :
    t.treeStep (fuel', e) = some t' := by
  induction hle with
  | refl => exact h
  | step _ ih =>
    cases e with
    | updateAccessibilityTree value => exact updateAccessibilityTree_succ ih
    | axLocation nodeId =>
      dsimp only [treeStep] at ih ⊢
      split at ih
      · obtain ⟨nodes, hnodes, rfl⟩ := Option.map_eq_some_iff.1 ih
        exact Option.map_eq_some_iff.2 ⟨nodes, axLocation_succ hnodes, rfl⟩
      · exact ih

theorem Live.treeStep {c : Nat × Event} (hl : t.Live) (h : t.Safe c.2) (hs : t.treeStep c = some t') :
    t'.Live := by
  obtain ⟨N, t'', hreturns, hl''⟩ := hl.returns h
  have hsame := treeStep_mono (le_max_left c.1 N) hs
  rw [hreturns _ (le_max_right c.1 N), Option.some.injEq] at hsame
  exact hsame ▸ hl''

/-- A new helper. What its nodes will find in their `offset_container_id_` is given. -/
def start (offsetContainerId : Nat → Int) : AXTree := { offsetContainerId }

/-- After safe events, no destroyed node has been looked into, and the next one, if it is safe, returns
without looking into one. -/
theorem returns_run (offsetContainerId : Nat → Int) (cs : List (Nat × Event)) (t : AXTree)
    (h : Lts.Run treeStep (fun t c => t.Safe c.2) (start offsetContainerId) cs t) :
    t.touched = false ∧ ∀ e, t.Safe e →
      ∃ N t', (∀ fuel ≥ N, t.treeStep (fuel, e) = some t') ∧ t'.touched = false := by
  have hl : t.Live := by
    refine h.inv (I := Live) (fun t c t' hl hsafe hs => hl.treeStep hsafe hs) ?_
    exact ⟨nofun, nofun, rfl⟩
  refine ⟨hl.touched, fun e he => ?_⟩
  obtain ⟨N, t', hreturns, hl'⟩ := hl.returns he
  exact ⟨N, t', hreturns, hl'.touched⟩

/-- A node that is its own child is never done with. -/
theorem destroyNode_self {id : Int} (hget : t.getNode id = some n)
    (hchild : (t.helper.node n).childIds = [id]) (fuel : Nat) : destroyNode fuel t n = none := by
  induction fuel generalizing t with
  | zero => rfl
  | succ fuel ih =>
    have hself : destroyById (destroyNode fuel) (t.look n) id = none := by
      have hget' : (t.look n).getNode id = some n := hget
      rw [destroyById, hget']
      exact ih hget' hchild
    rw [destroyNode, hchild, Lts.exec, hself]
    rfl

def clearEvent (id : Int) : Event :=
  .updateAccessibilityTree (some (.list [AccessibilityHelper.layoutEvent
    [(lit "node_id_to_clear", .int id)]]))

def nodesEvent (nodes : List CefValue) : Event :=
  .updateAccessibilityTree (some (.list [AccessibilityHelper.layoutEvent [(kNodes, .list nodes)]]))

/-- One event with an update. -/
theorem safe_layoutEvent {update : CefDictionaryValue} (hlists : ListsOk update)
    (hclear : update.hasKey (lit "node_id_to_clear") = true →
      ∀ n, t.getNode (update.get (lit "node_id_to_clear")).getInt = some n → t.helper.Clearable n) :
    t.Safe (.updateAccessibilityTree (some (.list [AccessibilityHelper.layoutEvent update]))) := by
  intro l hl
  obtain rfl := CefValue.list.inj (Option.some.inj hl)
  refine ⟨0, fun _ _ => ⟨fun event hevent _ _ => ?_, fun _ _ => trivial⟩⟩
  obtain rfl := Option.some.inj hevent
  have hlayout : lit "layoutComplete" ≠ lit "focus" := by decide
  refine ⟨fun _ u hu => ?_, fun hfocus => absurd hfocus hlayout⟩
  obtain rfl := Option.some.inj hu
  exact ⟨hlists, hclear⟩

/-- One node below another. -/
theorem clearable_pair {h : AccessibilityHelper} (h₀ : h.getNode (h.node 0).nodeId = some 0)
    (h₁ : h.getNode (h.node 1).nodeId = some 1) (hchild : ∀ c n, h.Child c n → c = 1 ∧ n = 0) :
    h.Clearable 0 := by
  refine ⟨fun a _ hcycle => ?_, fun m hm => ?_⟩
  · obtain ⟨b, -, hlast⟩ := TransGen.tail'_iff.1 hcycle
    obtain ⟨c, hfirst, -⟩ := TransGen.head'_iff.1 hcycle
    rw [(hchild b a hlast).2] at hfirst
    exact absurd (hchild 0 c hfirst).1 (by decide)
  · rcases hm.cases_head with rfl | ⟨c, hfirst, -⟩
    · exact h₀
    · rw [(hchild m c hfirst).1]
      exact h₁

theorem returns_run_clear : ∃ t N t', Lts.Run treeStep (fun t c => t.Safe c.2) (start fun _ => -1)
      [(0, nodesEvent [AccessibilityHelper.nodeWith 1 [2], AccessibilityHelper.nodeWith 2 []])] t ∧
    (∀ fuel ≥ N, t.treeStep (fuel, clearEvent 1) = some t') ∧ t'.touched = false := by
  obtain ⟨t, hs, hget, h₀, h₁, hgetChild, hroot, hleaf⟩ : ∃ t, (start fun _ => -1).treeStep
      (0, nodesEvent [AccessibilityHelper.nodeWith 1 [2], AccessibilityHelper.nodeWith 2 []]) = some t ∧
      t.getNode 1 = some 0 ∧ t.helper.getNode (t.helper.node 0).nodeId = some 0 ∧
      t.helper.getNode (t.helper.node 1).nodeId = some 1 ∧ t.helper.getNode 2 = some 1 ∧
      (t.helper.node 0).childIds = [2] ∧ ∀ n, n ≠ 0 → (t.helper.node n).childIds = [] := by
    refine ⟨_, rfl, rfl, rfl, rfl, rfl, rfl, fun n hn => ?_⟩
    match n with
    | 0 => exact absurd rfl hn
    | 1 => rfl
    | n + 2 => rfl
  have hsafe : (start fun _ => -1).Safe
      (nodesEvent [AccessibilityHelper.nodeWith 1 [2], AccessibilityHelper.nodeWith 2 []]) := by
    refine safe_layoutEvent (fun _ => ⟨_, rfl, fun v hv node hnode _ _ => ?_⟩) fun hkey => absurd hkey (by decide)
    simp only [List.mem_cons, List.not_mem_nil, or_false] at hv
    rcases hv with rfl | rfl <;> obtain rfl := Option.some.inj hnode <;> rfl
  have hrun := Lts.Run.single (C := fun t c => t.Safe c.2) hsafe hs
  have hclear : t.Safe (clearEvent 1) := by
    refine safe_layoutEvent (fun hkey => absurd hkey (by decide)) fun _ n hn => ?_
    have hn' : t.getNode 1 = some n := hn
    rw [hget, Option.some.injEq] at hn'
    subst hn'
    refine clearable_pair h₀ h₁ ?_
    rintro c n ⟨id, hid, hc⟩
    by_cases hn : n = 0
    · rw [hn, hroot, List.mem_singleton] at hid
      rw [hid, hgetChild, Option.some.injEq] at hc
      exact ⟨hc.symm, hn⟩
    · rw [hleaf n hn] at hid
      cases hid
  obtain ⟨N, t', hreturns, htouched⟩ := (returns_run _ _ t hrun).2 (clearEvent 1) hclear
  exact ⟨t, N, t', hrun, hreturns, htouched⟩

/-- A node names itself as its child and is cleared. -/
theorem not_returns_run_self : ¬ ∀ (offsetContainerId : Nat → Int) (cs : List (Nat × Event)) (t : AXTree),
    Lts.Run treeStep Lts.Any (start offsetContainerId) cs t → t.touched = false ∧ ∀ e,
      ∃ N t', (∀ fuel ≥ N, t.treeStep (fuel, e) = some t') ∧ t'.touched = false := by
  intro h
  obtain ⟨t, hs, hget, hchild⟩ : ∃ t, Lts.exec treeStep (start fun _ => -1)
      [(0, nodesEvent [AccessibilityHelper.nodeWith 1 [1]])] = some t ∧
      (t.resetRoot 1).getNode 1 = some 0 ∧ ((t.resetRoot 1).helper.node 0).childIds = [1] :=
    ⟨_, rfl, rfl, rfl⟩
  obtain ⟨N, t', hreturns, -⟩ := (h _ _ t (Lts.run_of_exec hs)).2 (clearEvent 1)
  have hnone : clear N t [(lit "node_id_to_clear", .int 1)] = none := by
    show destroyById (destroyNode N) (t.resetRoot 1) 1 = none
    rw [destroyById, hget]
    exact destroyNode_self hget hchild N
  have hstep := hreturns N le_rfl
  have hrun : t.treeStep (N, clearEvent 1) = Lts.exec (AXTree.eventStep N) t
      [AccessibilityHelper.layoutEvent [(lit "node_id_to_clear", .int 1)]] := rfl
  have hevent : AXTree.eventStep N t (AccessibilityHelper.layoutEvent [(lit "node_id_to_clear", .int 1)]) =
      (clear N t [(lit "node_id_to_clear", .int 1)]).bind fun t =>
        (t.setIds [(lit "node_id_to_clear", .int 1)]).updateNodes [(lit "node_id_to_clear", .int 1)] := rfl
  rw [hrun, Lts.exec, hevent, hnone] at hstep
  cases hstep

end AXTree
end NplBrowser
