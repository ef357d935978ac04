import NplBrowser.OsrAXTree
import NplBrowser.Lib.DepthFirst

/-!
# The destruction of a subtree

`DestroyNode` looks its children up in the map that it takes entries out of. Here the calls of `Destroy`
are kept, in their order. At any time the map is what it was without the nodes destroyed so far
(`AccessibilityHelper.without`), so a child is found just when it has not been destroyed, and the calls
are those of a depth-first traversal.
-/

namespace NplBrowser

open Relation

namespace AccessibilityHelper

/-- What is kept of a call of `DestroyNode`. -/
structure Destruction where
  helper : AccessibilityHelper
  /-- The nodes on which `Destroy` has been called. -/
  destroyed : List Nat := []

/-- The end of `DestroyNode`, when the children are done with. -/
def Destruction.removeNode (d : Destruction) (n : Nat) : Destruction where
  helper := d.helper.removeNode n
  destroyed := d.destroyed ++ [n]

/-- `DestroyNode` of a child by its id. -/
def Destruction.destroyChild (destroy : Destruction → Nat → Option Destruction) (d : Destruction) (id : Int) :
    Option Destruction :=
  match d.helper.getNode id with
  | some c => destroy d c
  | none => some d

def Destruction.destroyNode : Nat → Destruction → Nat → Option Destruction
  | 0, _, _ => none
  | fuel + 1, d, n =>
    (Lts.exec (destroyChild (destroyNode fuel)) d (d.helper.node n).childIds).map fun d => d.removeNode n

variable {h : AccessibilityHelper} {fuel n : Nat}

/-- On the helper it is `DestroyNode`. -/
theorem Destruction.helper_destroyNode {d d' : Destruction} (hd : d.destroyNode fuel n = some d') :
    d.helper.destroyNode fuel n = some d'.helper := by
  induction fuel generalizing d n d' with
  | zero => cases hd
  | succ fuel ih =>
    obtain ⟨d₁, hloop, rfl⟩ := Option.map_eq_some_iff.1 hd
    refine Option.map_eq_some_iff.2 ⟨d₁.helper, Lts.exec_map helper (fun s id t hs => ?_) hloop, rfl⟩
    unfold destroyChild at hs
    cases hget : s.helper.getNode id with
    | some c =>
      rw [hget] at hs
      exact ih hs
    | none =>
      rw [hget] at hs
      cases hs
      rfl

/-! ## The map without some of its nodes -/

/-- The entries are under the nodes' own ids, none of which is -1. A `std::map` is finite. -/
structure Keyed (h : AccessibilityHelper) : Prop where
  entry : ∀ k n, h.nodeMap k = some n → (h.node n).nodeId = k ∧ k ≠ -1
  finite : {k | (h.nodeMap k).isSome}.Finite

/-- The nodes `gone` are destroyed and have no entries. -/
def without (h : AccessibilityHelper) (gone : List Nat) : AccessibilityHelper :=
  { h with
    nodeMap := fun k => (h.nodeMap k).filter (· ∉ gone)
    node := fun n => if n ∈ gone then { h.node n with destroyed := true } else h.node n }

theorem without_nil (h : AccessibilityHelper) : h.without [] = h := by
  have hfilter : (fun k => (h.nodeMap k).filter (· ∉ [])) = h.nodeMap := by
    funext k
    cases h.nodeMap k <;> rfl
  unfold without
  rw [hfilter]
  rfl

theorem childIds_without (h : AccessibilityHelper) (gone : List Nat) (n : Nat) :
    ((h.without gone).node n).childIds = (h.node n).childIds := by
  unfold without
  dsimp only
  split <;> rfl

theorem getNode_without (h : AccessibilityHelper) (gone : List Nat) (id : Int) :
    (h.without gone).getNode id = (h.getNode id).filter (· ∉ gone) := by
  unfold getNode without
  split <;> rfl

/-- The entry that is erased is the node's own. -/
theorem Keyed.removeNode_without (hk : h.Keyed) (gone : List Nat) {k : Int} (hn : h.nodeMap k = some n) :
    (h.without gone).removeNode n = h.without (gone ++ [n]) := by
  obtain ⟨rfl, -⟩ := hk.entry k n hn
  have hid : ((h.without gone).node n).nodeId = (h.node n).nodeId := by
    unfold without
    dsimp only
    split <;> rfl
  have hmap : Function.update (h.without gone).nodeMap (h.node n).nodeId none =
      (h.without (gone ++ [n])).nodeMap := by
    funext k
    by_cases hkn : k = (h.node n).nodeId
    · subst hkn
      simp [without, hn, Option.filter_some]
    · rw [Function.update_of_ne hkn]
      cases hm : h.nodeMap k with
      | none => simp [without, hm]
      | some m =>
        have hmn : m ≠ n := by
          rintro rfl
          exact hkn (hk.entry k m hm).1.symm
        simp [without, hm, hmn, Option.filter_some]
  have hnode : Function.update (h.without gone).node n { (h.without gone).node n with destroyed := true } =
      (h.without (gone ++ [n])).node := by
    funext m
    by_cases hmn : m = n
    · subst hmn
      by_cases hm : m ∈ gone <;> simp [without, hm]
    · simp [without, hmn]
  unfold AccessibilityHelper.removeNode
  rw [hid, hmap, hnode]
  rfl

/-- The nodes of the child ids, those that exist. -/
def children (h : AccessibilityHelper) (n : Nat) : List Nat := (h.node n).childIds.filterMap h.getNode

theorem mem_children {c : Nat} : c ∈ h.children n ↔ h.Child c n := List.mem_filterMap

/-- The loop over the child ids visits the children that have not been destroyed. -/
theorem exec_destroyChild {visit : List Nat → Nat → Option (List Nat)}
    {destroy : Destruction → Nat → Option Destruction}
    (hdestroy : ∀ gone c id gone', h.getNode id = some c → visit gone c = some gone' →
      destroy ⟨h.without gone, gone⟩ c = some ⟨h.without gone', gone'⟩)
    {ids : List Int} {gone gone' : List Nat}
    (hloop : Lts.exec (DepthFirst.skip visit) gone (ids.filterMap h.getNode) = some gone') :
    Lts.exec (Destruction.destroyChild destroy) ⟨h.without gone, gone⟩ ids =
      some ⟨h.without gone', gone'⟩ := by
  induction ids generalizing gone with
  | nil =>
    cases hloop
    rfl
  | cons id ids ih =>
    cases hget : h.getNode id with
    | none =>
      rw [List.filterMap_cons_none hget] at hloop
      refine (Lts.exec_cons (?_ : _ = some ⟨h.without gone, gone⟩)).trans (ih hloop)
      simp [Destruction.destroyChild, getNode_without, hget]
    | some c =>
      rw [List.filterMap_cons_some hget] at hloop
      obtain ⟨gone₁, hskip, hrest⟩ := Option.bind_eq_some_iff.1 hloop
      refine (Lts.exec_cons (?_ : _ = some ⟨h.without gone₁, gone₁⟩)).trans (ih hrest)
      unfold DepthFirst.skip at hskip
      by_cases hc : c ∈ gone
      · rw [if_pos hc] at hskip
        cases hskip
        simp [Destruction.destroyChild, getNode_without, hget, hc, Option.filter_some]
      · rw [if_neg hc] at hskip
        simpa [Destruction.destroyChild, getNode_without, hget, hc, Option.filter_some] using
          hdestroy gone c id gone₁ hget hskip

/-- `DestroyNode` is a depth-first traversal. -/
theorem Keyed.destroyNode (hk : h.Keyed) {k : Int} (hn : h.nodeMap k = some n) {gone gone' : List Nat}
    (hvisit : DepthFirst.visit h.children fuel gone n = some gone') :
    Destruction.destroyNode fuel ⟨h.without gone, gone⟩ n = some ⟨h.without gone', gone'⟩ := by
  induction fuel generalizing n k gone gone' with
  | zero => cases hvisit
  | succ fuel ih =>
    obtain ⟨gone₁, hloop, rfl⟩ := Option.map_eq_some_iff.1 hvisit
    refine Option.map_eq_some_iff.2 ⟨⟨h.without gone₁, gone₁⟩, ?_, ?_⟩
    · dsimp only
      rw [childIds_without]
      exact exec_destroyChild (fun gone c id gone' hget => ih (getNode_eq_some hget)) hloop
    · unfold Destruction.removeNode
      dsimp only
      rw [hk.removeNode_without gone₁ hn]

theorem Keyed.finite_children (hk : h.Keyed) : {c | ∃ n, DepthFirst.Under h.children c n}.Finite := by
  refine (hk.finite.image fun k => (h.nodeMap k).getD 0).subset ?_
  rintro c ⟨n, hc⟩
  obtain ⟨id, -, hget⟩ := mem_children.1 hc
  have hmap := getNode_eq_some hget
  exact ⟨id, by simp [hmap], by simp [hmap]⟩

/-- `m` is `n` or below it, by way of child ids. -/
def Reachable (h : AccessibilityHelper) (n m : Nat) : Prop := ReflTransGen h.Child m n

/-- Where no node is below itself, the destruction of a node ends, and it destroys the nodes that can be
reached from it, each once. Their entries are gone; every other entry and node is as it was. -/
theorem destroyNode_reachable (hk : h.Keyed) (hacyclic : ∀ m, ¬ TransGen h.Child m m) {k : Int}
    (hn : h.nodeMap k = some n) : ∃ depth d, (∀ fuel, depth ≤ fuel →
        Destruction.destroyNode fuel { helper := h } n = some d ∧ h.destroyNode fuel n = some d.helper) ∧
      d.destroyed.Nodup ∧ (∀ m, m ∈ d.destroyed ↔ h.Reachable n m) ∧
      (∀ id m, d.helper.nodeMap id = some m ↔ h.nodeMap id = some m ∧ ¬ h.Reachable n m) ∧
      (∀ m, h.Reachable n m → d.helper.node m = { h.node m with destroyed := true }) ∧
      (∀ m, ¬ h.Reachable n m → d.helper.node m = h.node m) ∧
      d.helper.rootNodeId = h.rootNodeId ∧ d.helper.focusedNodeId = h.focusedNodeId := by
  have hunder : DepthFirst.Under h.children = h.Child := by
    funext c n
    exact propext mem_children
  have hbelow : Acyclic.Below (DepthFirst.Under h.children) n := by
    rw [hunder]
    exact fun m _ => hacyclic m
  obtain ⟨depth, hends⟩ := DepthFirst.ends_of_acyclic hk.finite_children hbelow
  obtain ⟨gone, hvisit, ⟨_, rfl, hnodup, hmem⟩, -⟩ := hends [] nofun List.not_mem_nil
  have hmem : ∀ m, m ∈ gone ↔ h.Reachable n m := fun m => by
    rw [hmem, hunder]
    exact and_iff_left List.not_mem_nil
  refine ⟨depth, ⟨h.without gone, gone⟩, fun fuel hfuel => ?_, hnodup, hmem, fun id m => ?_, fun m hm => ?_,
    fun m hm => ?_, rfl, rfl⟩
  · have hd := hk.destroyNode hn (DepthFirst.visit_mono hfuel hvisit)
    rw [without_nil] at hd
    exact ⟨hd, Destruction.helper_destroyNode hd⟩
  · rw [← hmem]
    simp [without, Option.filter_eq_some_iff]
  · exact if_pos ((hmem m).2 hm)
  · exact if_neg ((hmem m).not.2 hm)

/-- A root with two children, one of which is the child of the other too, and with a child that does not
exist. -/
def sharedTree : AccessibilityHelper where
  nodeMap k := if k = 1 then some 0 else if k = 2 then some 1 else if k = 3 then some 2 else none
  node n := if n = 0 then { nodeId := 1, childIds := [2, 3, 9] }
    else if n = 1 then { nodeId := 2, childIds := [3] }
    else if n = 2 then { nodeId := 3 } else {}
  created := 3

theorem sharedTree_keyed : sharedTree.Keyed := by
  have hentry : ∀ k n, sharedTree.nodeMap k = some n →
      (k = 1 ∧ n = 0) ∨ (k = 2 ∧ n = 1) ∨ (k = 3 ∧ n = 2) := by
    intro k n hk
    simp only [sharedTree] at hk
    grind
  refine ⟨fun k n hk => ?_, (Set.toFinite ({1, 2, 3} : Set Int)).subset fun k hk => ?_⟩
  · rcases hentry k n hk with ⟨rfl, rfl⟩ | ⟨rfl, rfl⟩ | ⟨rfl, rfl⟩ <;> simp [sharedTree]
  · obtain ⟨n, hn⟩ := Option.isSome_iff_exists.1 hk
    rcases hentry k n hn with ⟨rfl, -⟩ | ⟨rfl, -⟩ | ⟨rfl, -⟩ <;> simp

/-- Children have been made after their parents. -/
theorem sharedTree_acyclic (m : Nat) : ¬ TransGen sharedTree.Child m m := by
  have hlt : ∀ c n, sharedTree.Child c n → n < c := by
    rintro c n ⟨id, hid, hget⟩
    simp only [sharedTree, getNode] at hid hget
    grind
  intro hm
  have hdown : ∀ a b, TransGen sharedTree.Child a b → b < a := by
    intro a b hab
    induction hab with
    | single h => exact hlt _ _ h
    | tail _ h ih => exact (hlt _ _ h).trans ih
  exact Nat.lt_irrefl m (hdown m m hm)

theorem destroyNode_reachable_shared : ∃ depth d,
    Destruction.destroyNode depth { helper := sharedTree } 0 = some d ∧ d.destroyed.Nodup ∧
      ∀ m, m ∈ d.destroyed ↔ sharedTree.Reachable 0 m := by
  obtain ⟨depth, d, hd, hnodup, hmem, -⟩ :=
    destroyNode_reachable sharedTree_keyed sharedTree_acyclic (n := 0) (k := 1) rfl
  exact ⟨depth, d, (hd depth (Nat.le_refl _)).1, hnodup, hmem⟩

end AccessibilityHelper
end NplBrowser
