import NplBrowser.CefIAccessible
import NplBrowser.Lib.MachineInt

/-!
# A child by its id (`CefIAccessible::get_accChild`)

The child id is a `LONG` of the client's choice, `CHILDID_SELF` or an index from 1 on. `ChildAtIndex`
bounds the index from above only; where it finds no child, the focused node stands in, and there need
be none. A node without children answers before it has looked at the id.

Here an `int` wraps around, and what a call does wrong is told apart; where it does nothing wrong it is
the call of `AXTree.accChild`, which the runs are made of.
-/

namespace NplBrowser

def CHILDID_SELF : Int32 := 0

namespace AXTree

inductive HResult
  | ok
  /-- `S_FALSE`. -/
  | sFalse
  /-- `CO_E_OBJNOTCONNECTED`. -/
  | notConnected
deriving DecidableEq

/-- `child_ids_` is read at an index that is out of bounds, or a null pointer is looked into. -/
inductive Fault
  | outOfBounds (index : Int32)
  | nullPointer
deriving DecidableEq

/-- What `get_accChild` returns and leaves in `*ppdispChild`, and the objects it calls `AddRef` on. -/
structure ChildReply where
  retCode : HResult
  dispChild : Option Nat
  addRef : List Nat := []
deriving DecidableEq

/-- `GetChildCount`. -/
def getChildCount (t : AXTree) (n : Nat) : Int32 := .ofNat (t.helper.node n).childIds.length

/-- `ChildAtIndex`. -/
def nodeAtIndex (t : AXTree) (n : Nat) (index : Int32) : Except Fault (Option Nat) :=
  if index < t.getChildCount n then
    if 0 ≤ index then
      match (t.helper.node n).childIds[index.toNatClampNeg]? with
      | some id => .ok (t.getNode id)
      | none => .error (.outOfBounds index)
    else .error (.outOfBounds index)
  else .ok none

/-- The node whose object is returned for an id other than `CHILDID_SELF`. -/
def dispNode (t : AXTree) (n : Nat) (lVal : Int32) : Except Fault Nat :=
  (t.nodeAtIndex n (lVal - 1)).bind fun child =>
    match child.or (t.getNode t.helper.focusedNodeId) with
    | some c => .ok c
    | none => .error .nullPointer

/-- The end of `get_accChild`. -/
def childReply : Option Nat → ChildReply
  | none => ⟨.sFalse, none, []⟩
  | some d => ⟨.ok, some d, [d]⟩

/-- `get_accChild`. The id is `none` where the variant is not a `VT_I4`; then nothing is done about
`*ppdispChild`, which stays what it was, `out`. -/
def getAccChild (t : AXTree) (o : Nat) (varChild : Option Int32) (out : Option Nat) :
    Except Fault (AXTree × ChildReply) :=
  match t.objectNode o with
  | none => .ok (t, ⟨.notConnected, out, []⟩)
  | some n =>
    if t.getChildCount n ≤ 0 then .ok (t, ⟨.sFalse, none, []⟩)
    else
      match varChild with
      | none => .ok (t, ⟨.ok, out, []⟩)
      | some lVal =>
        if lVal = CHILDID_SELF then .ok (t, childReply (some o))
        else (t.dispNode n lVal).map fun child =>
          let (t, d) := t.getNativeAccessibleObject child (some n)
          (t, childReply (some d))

/-- The child that an id stands for. -/
def childById (t : AXTree) (n : Nat) (lVal : Int32) : Option Nat :=
  let index := lVal.toInt - 1
  if 0 ≤ index ∧ index < (t.getChildCount n).toInt then
    (t.helper.node n).childIds[index.toNat]?.bind t.getNode
  else none

/-- The child that an id stands for, and the focused node where there is none. -/
def childOf (t : AXTree) (n : Nat) (lVal : Int32) : Option Nat :=
  (t.childById n lVal).or (t.getNode t.helper.focusedNodeId)

/-- The call does nothing wrong and returns the object itself for `CHILDID_SELF`, a child's object with a
reference, or nothing. -/
def ChildSafe (t : AXTree) (o : Nat) (lVal : Int32) (out : Option Nat) : Prop :=
  ∃ t' r, t.getAccChild o (some lVal) out = .ok (t', r) ∧
    (lVal = CHILDID_SELF → r = ⟨.ok, some o, [o]⟩) ∧
    (r = ⟨.sFalse, none, []⟩ ∨ ∃ d, r = ⟨.ok, some d, [d]⟩ ∧
      (lVal ≠ CHILDID_SELF → ∃ n c, t.objectNode o = some n ∧ t.childOf n lVal = some c ∧
        t'.objectNode d = some c))

/-- The object is connected. If its node has no children, the id is not `CHILDID_SELF`; if it has, the id
is `CHILDID_SELF`, or it is positive or the least `LONG` and there is a child or a focused node. -/
def ChildOk (t : AXTree) (o : Nat) (lVal : Int32) : Prop :=
  ∃ n, t.objectNode o = some n ∧
    if t.getChildCount n ≤ 0 then lVal ≠ CHILDID_SELF
    else lVal = CHILDID_SELF ∨ ((0 < lVal ∨ lVal = Int32.minValue) ∧ (t.childOf n lVal).isSome = true)

variable {t t' : AXTree} {n o c : Nat} {lVal : Int32} {out : Option Nat}

theorem getChildCount_le (t : AXTree) (n : Nat) :
    (t.getChildCount n).toInt ≤ (t.helper.node n).childIds.length := MachineInt.toInt_ofNat_le _

/-- Only the least `LONG` wraps around. -/
theorem toInt_index (hmin : lVal ≠ Int32.minValue) : (lVal - 1).toInt = lVal.toInt - 1 := by
  have hle := lVal.le_toInt
  have hlt := lVal.toInt_lt
  have hone : (1 : Int32).toInt = 1 := rfl
  have hne : lVal.toInt ≠ -2 ^ 31 := fun h => hmin (Int32.toInt_inj.1 h)
  rw [← hone]
  exact MachineInt.toInt_sub_iff.2 (by omega)

/-- An id that leads out of bounds. -/
theorem dispNode_negative (hneg : lVal < 0) (hmin : lVal ≠ Int32.minValue)
    (hcount : ¬ t.getChildCount n ≤ 0) : t.dispNode n lVal = .error (.outOfBounds (lVal - 1)) := by
  have hzero : (0 : Int32).toInt = 0 := rfl
  have hindex := toInt_index hmin
  rw [Int32.lt_iff_toInt_lt] at hneg
  rw [Int32.le_iff_toInt_le] at hcount
  unfold dispNode nodeAtIndex
  rw [if_pos (Int32.lt_iff_toInt_lt.2 (by omega)), if_neg (Int32.le_iff_toInt_le.not.2 (by omega))]
  rfl

theorem nodeAtIndex_eq (hlVal : 0 < lVal ∨ lVal = Int32.minValue) :
    t.nodeAtIndex n (lVal - 1) = .ok (t.childById n lVal) := by
  have hzero : (0 : Int32).toInt = 0 := rfl
  have hcount := getChildCount_le t n
  unfold nodeAtIndex childById
  dsimp only
  rcases hlVal with hpos | rfl
  · have hmin : lVal ≠ Int32.minValue := by
      rintro rfl
      exact absurd hpos (by decide)
    have hindex := toInt_index hmin
    rw [Int32.lt_iff_toInt_lt] at hpos
    have hnat : (lVal - 1).toNatClampNeg = (lVal.toInt - 1).toNat := by rw [← Int32.toNat_toInt, hindex]
    simp only [Int32.lt_iff_toInt_lt, Int32.le_iff_toInt_le, hzero, hindex, hnat]
    split <;> rename_i hlt
    · have hin : (lVal.toInt - 1).toNat < (t.helper.node n).childIds.length := by omega
      rw [if_pos (by omega), if_pos (by omega), List.getElem?_eq_getElem hin]
      rfl
    · rw [if_neg (by omega)]
  · -- the index is the greatest `int`
    have hmax : ¬ Int32.minValue - 1 < t.getChildCount n := by
      have hlt := (t.getChildCount n).toInt_lt
      have hminus : (Int32.minValue - 1).toInt = 2 ^ 31 - 1 := rfl
      rw [Int32.lt_iff_toInt_lt, hminus]
      omega
    rw [if_neg hmax, if_neg (fun h => absurd h.1 (by decide))]

theorem dispNode_eq (hlVal : 0 < lVal ∨ lVal = Int32.minValue) :
    t.dispNode n lVal = match t.childOf n lVal with
      | some c => .ok c
      | none => .error .nullPointer := by
  unfold dispNode
  rw [nodeAtIndex_eq hlVal]
  rfl

/-! ### What a call comes to -/

theorem getAccChild_none (hn : t.objectNode o = none) :
    t.getAccChild o (some lVal) out = .ok (t, ⟨.notConnected, out, []⟩) := by
  rw [getAccChild, hn]

theorem getAccChild_leaf (hn : t.objectNode o = some n) (hcount : t.getChildCount n ≤ 0) :
    t.getAccChild o (some lVal) out = .ok (t, ⟨.sFalse, none, []⟩) := by
  simp only [getAccChild, hn, if_pos hcount]

theorem getAccChild_self (hn : t.objectNode o = some n) (hcount : ¬ t.getChildCount n ≤ 0)
    (hself : lVal = CHILDID_SELF) : t.getAccChild o (some lVal) out = .ok (t, childReply (some o)) := by
  simp only [getAccChild, hn, if_neg hcount, if_pos hself]

theorem getAccChild_child (hn : t.objectNode o = some n) (hcount : ¬ t.getChildCount n ≤ 0)
    (hself : lVal ≠ CHILDID_SELF) (hdisp : t.dispNode n lVal = .ok c) :
    t.getAccChild o (some lVal) out = .ok ((t.getNativeAccessibleObject c (some n)).1,
      childReply (some (t.getNativeAccessibleObject c (some n)).2)) := by
  simp only [getAccChild, hn, if_neg hcount, if_neg hself, hdisp]
  rfl

theorem getAccChild_error (hn : t.objectNode o = some n) (hcount : ¬ t.getChildCount n ≤ 0)
    (hself : lVal ≠ CHILDID_SELF) {fault : Fault} (hdisp : t.dispNode n lVal = .error fault) :
    t.getAccChild o (some lVal) out = .error fault := by
  simp only [getAccChild, hn, if_neg hcount, if_neg hself, hdisp]
  rfl

/-- The object that is returned is the child's. -/
theorem Native.childSafe_of_childOf (hnative : t.Native) (hn : t.objectNode o = some n)
    (hcount : ¬ t.getChildCount n ≤ 0) (hself : lVal ≠ CHILDID_SELF)
    (hlVal : 0 < lVal ∨ lVal = Int32.minValue) (hc : t.childOf n lVal = some c) : t.ChildSafe o lVal out := by
  have hlt : c < t.helper.created := by
    rcases Option.or_eq_some_iff.1 hc with hchild | ⟨-, hfocused⟩
    · unfold childById at hchild
      dsimp only at hchild
      split at hchild
      · obtain ⟨id, -, hid⟩ := Option.bind_eq_some_iff.1 hchild
        exact hnative.lt_created hid
      · cases hchild
    · exact hnative.lt_created hfocused
  have hgives := hnative.getNativeAccessibleObject hlt (some n)
  have hdisp : t.dispNode n lVal = .ok c := by rw [dispNode_eq hlVal, hc]
  exact ⟨_, _, getAccChild_child hn hcount hself hdisp, fun h => absurd h hself,
    .inr ⟨_, rfl, fun _ => ⟨n, c, hn, hc, hgives.objectNode⟩⟩⟩

theorem not_childSafe_of_error (hn : t.objectNode o = some n) (hcount : ¬ t.getChildCount n ≤ 0)
    (hself : lVal ≠ CHILDID_SELF) {fault : Fault} (hfault : t.dispNode n lVal = .error fault) :
    ¬ t.ChildSafe o lVal out := by
  rintro ⟨t', r, hcall, -⟩
  rw [getAccChild_error hn hcount hself hfault] at hcall
  cases hcall

theorem Native.childSafe_iff (hnative : t.Native) (o : Nat) (lVal : Int32) (out : Option Nat) :
    t.ChildSafe o lVal out ↔ t.ChildOk o lVal := by
  unfold ChildOk
  cases hn : t.objectNode o with
  | none =>
    refine iff_of_false ?_ (fun ⟨n, hn', _⟩ => nomatch hn')
    rintro ⟨t', r, hcall, -, hr⟩
    rw [getAccChild_none hn] at hcall
    cases hcall
    rcases hr with hr | ⟨d, hr, -⟩ <;> cases hr
  | some n =>
    simp only [Option.some.injEq, exists_eq_left']
    by_cases hcount : t.getChildCount n ≤ 0
    · rw [if_pos hcount]
      constructor
      · rintro ⟨t', r, hcall, hself, -⟩ hlVal
        rw [getAccChild_leaf hn hcount] at hcall
        cases hcall
        cases hself hlVal
      · exact fun hself => ⟨_, _, getAccChild_leaf hn hcount, fun h => absurd h hself, .inl rfl⟩
    · rw [if_neg hcount]
      by_cases hself : lVal = CHILDID_SELF
      · exact iff_of_true ⟨t, childReply (some o), getAccChild_self hn hcount hself, fun _ => rfl,
          .inr ⟨o, rfl, fun h => absurd hself h⟩⟩ (.inl hself)
      · simp only [hself, false_or]
        by_cases hlVal : 0 < lVal ∨ lVal = Int32.minValue
        · have hdisp := dispNode_eq (t := t) (n := n) hlVal
          cases hc : t.childOf n lVal with
          | some c => exact iff_of_true (hnative.childSafe_of_childOf hn hcount hself hlVal hc) ⟨hlVal, rfl⟩
          | none =>
            rw [hc] at hdisp
            exact iff_of_false (not_childSafe_of_error hn hcount hself hdisp) fun h => Bool.noConfusion h.2
        · have hneg : lVal < 0 := by
            have hne : lVal.toInt ≠ 0 := fun h => hself (Int32.toInt_inj.1 h)
            have hle := mt Or.inl hlVal
            have hzero : (0 : Int32).toInt = 0 := rfl
            rw [Int32.lt_iff_toInt_lt] at hle ⊢
            omega
          have hdisp := dispNode_negative hneg (mt Or.inr hlVal) hcount
          exact iff_of_false (not_childSafe_of_error hn hcount hself hdisp) fun h => hlVal h.1

/-- The node that is looked for is the one of the calls that runs are made of. -/
theorem accChildNode_of_dispNode (hlength : (t.helper.node n).childIds.length < 2 ^ 31) (hpos : 0 < lVal.toInt)
    (hdisp : t.dispNode n lVal = .ok c) : t.accChildNode n lVal.toInt = some c := by
  have hzero : (0 : Int32).toInt = 0 := rfl
  have hcount : (t.getChildCount n).toInt = (t.helper.node n).childIds.length := Int32.toInt_ofNat_of_lt hlength
  have hindex : t.childAtIndex n (lVal.toInt - 1) = some (t.childById n lVal) := by
    unfold childAtIndex childById
    dsimp only
    rw [hcount]
    split <;> rename_i hlt
    · rw [if_neg (by omega), if_pos ⟨by omega, hlt⟩]
    · rw [if_neg (by omega)]
  rw [dispNode_eq (.inl (Int32.lt_iff_toInt_lt.2 (hzero ▸ hpos)))] at hdisp
  unfold childOf at hdisp
  rw [accChildNode, if_neg (by omega), hindex, Option.bind_some]
  cases hc : (t.childById n lVal).or (t.getNode t.helper.focusedNodeId) with
  | some c' =>
    rw [hc] at hdisp
    cases hdisp
    rfl
  | none =>
    rw [hc] at hdisp
    cases hdisp

/-- Where nothing goes wrong, a call does what it does there, as long as the number of children is an
`int`. -/
theorem accChild_of_getAccChild {r : ChildReply} (hmin : lVal ≠ Int32.minValue)
    (hlength : ∀ n, t.objectNode o = some n → (t.helper.node n).childIds.length < 2 ^ 31)
    (hcall : t.getAccChild o (some lVal) out = .ok (t', r)) :
    (t.accChild o (some lVal.toInt)).map Prod.fst = some t' := by
  have hzero : (0 : Int32).toInt = 0 := rfl
  unfold accChild
  cases hn : t.objectNode o with
  | none =>
    rw [getAccChild_none hn] at hcall
    cases hcall
    rfl
  | some n =>
    have hlength' : (t.getChildCount n).toInt = (t.helper.node n).childIds.length :=
      Int32.toInt_ofNat_of_lt (hlength n hn)
    have hcount : t.getChildCount n ≤ 0 ↔ (t.helper.node n).childIds.length = 0 := by
      rw [Int32.le_iff_toInt_le, hlength', hzero]
      omega
    dsimp only
    by_cases hle : t.getChildCount n ≤ 0
    · rw [getAccChild_leaf hn hle] at hcall
      cases hcall
      rw [if_pos (hcount.1 hle)]
      rfl
    · rw [if_neg (mt hcount.2 hle)]
      rcases eq_or_ne lVal CHILDID_SELF with hself | hself
      · rw [getAccChild_self hn hle hself] at hcall
        cases hcall
        rw [hself]
        rfl
      · have hne : lVal.toInt ≠ 0 := fun h => hself (Int32.toInt_inj.1 h)
        have hpos : 0 < lVal.toInt := by
          by_contra hneg
          have hlt : lVal < 0 := Int32.lt_iff_toInt_lt.2 (by omega)
          rw [getAccChild_error hn hle hself (dispNode_negative hlt hmin hle)] at hcall
          cases hcall
        cases hdisp : t.dispNode n lVal with
        | error fault =>
          rw [getAccChild_error hn hle hself hdisp] at hcall
          cases hcall
        | ok c =>
          rw [getAccChild_child hn hle hself hdisp] at hcall
          cases hcall
          rw [accChildNode_of_dispNode (hlength n hn) hpos hdisp]
          simp only [if_neg hne]
          rfl

end AXTree

namespace AccessibleWindow

/-- In any state that is reached, for the object of any node and any child id, a call is safe just where
the id and the tree are well. -/
theorem accChild_iff (offsetContainerId : Nat → Int) (es : List Event) (s : AccessibleWindow)
    (h : Lts.Run step Lts.Any (start offsetContainerId) es s) (o : Nat) (lVal : Int32) (out : Option Nat) :
    s.tree.ChildSafe o lVal out ↔ s.tree.ChildOk o lVal := by
  have hi : s.Inv := h.inv (I := Inv) (fun s e s' hi _ hs => (hi.step hs).1) (inv_start _)
  exact hi.native.childSafe_iff o lVal out

/-- A root with a child that has the focus: the least id is that of no child. -/
theorem accChild_iff_focused : ∃ s, Lts.Run step Lts.Any (start fun _ => -1) [focusedChild] s ∧
    s.tree.ChildSafe 0 1 none ∧ s.tree.ChildSafe 0 Int32.minValue none := by
  obtain ⟨s, hs, hn, hcount, hone, hleast⟩ : ∃ s, Lts.exec step (start fun _ => -1) [focusedChild] = some s ∧
      s.tree.objectNode 0 = some 0 ∧ s.tree.getChildCount 0 = 1 ∧ s.tree.childOf 0 1 = some 1 ∧
      s.tree.childOf 0 Int32.minValue = some 1 := ⟨_, rfl, rfl, rfl, rfl, rfl⟩
  have hrun := Lts.run_of_exec hs
  have hpos : ¬ s.tree.getChildCount 0 ≤ 0 := by
    rw [hcount]
    decide
  refine ⟨s, hrun, (accChild_iff _ _ s hrun 0 1 none).2 ⟨0, hn, ?_⟩,
    (accChild_iff _ _ s hrun 0 Int32.minValue none).2 ⟨0, hn, ?_⟩⟩
  · rw [if_neg hpos, hone]
    exact .inr ⟨.inl (by decide), rfl⟩
  · rw [if_neg hpos, hleast]
    exact .inr ⟨.inr rfl, rfl⟩

/-- The id is -1: the index is -2. -/
theorem not_accChild_negative : ¬ ∀ (offsetContainerId : Nat → Int) (es : List Event) (s : AccessibleWindow),
    Lts.Run step Lts.Any (start offsetContainerId) es s → ∀ o n, s.tree.objectNode o = some n →
      ∀ lVal, s.tree.ChildSafe o lVal none := by
  intro h
  obtain ⟨s, hs, hn, hcall⟩ : ∃ s, Lts.exec step (start fun _ => -1) [focusedChild] = some s ∧
      s.tree.objectNode 0 = some 0 ∧ s.tree.getAccChild 0 (some (-1)) none = .error (.outOfBounds (-2)) :=
    ⟨_, rfl, rfl, rfl⟩
  obtain ⟨t', r, hcall', -⟩ := h _ _ s (Lts.run_of_exec hs) 0 0 hn (-1)
  rw [hcall] at hcall'
  cases hcall'

end AccessibleWindow
end NplBrowser
