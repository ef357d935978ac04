import Mathlib.Algebra.GroupWithZero.Nat
import Mathlib.Data.List.Nodup
import NplBrowser.Lib.Assoc
import NplBrowser.Lib.Visit

/-!
# `CefBrowserInfoMap`

The pending queries and requests of the message router, an `InfoMap` for each browser. What the router
sees of it is one map with a browser and an ID for key (`entries`): every operation is an operation on
its entries, a visitor may erase what it is shown, and no browser is left with an empty `InfoMap`.
-/

namespace NplBrowser

open Visit

namespace BrowserInfoMap

variable {I α β : Type*}

/-- An `InfoMap` for each browser that has something in it. -/
structure WF (m : List (Int32 × List (I × α))) : Prop where
  browsers : (m.map Prod.fst).Nodup
  ids : ∀ e ∈ m, (e.2.map Prod.fst).Nodup
  nonempty : ∀ e ∈ m, e.2 ≠ []

/-- What a visit has left of a browser's `InfoMap`; an empty one is deleted. -/
def setInfoMap (m : List (Int32 × List (I × α))) (browserId : Int32) (infoMap : List (I × α)) :
    List (Int32 × List (I × α)) :=
  if infoMap.isEmpty then m.filter fun e => e.1 ≠ browserId
  else m.map fun e => if e.1 = browserId then (browserId, infoMap) else e

/-- `insert` of a `std::map`: an entry that is there stays. -/
def emplace [DecidableEq I] [LT I] [DecidableLT I] (i : I) (a : α) (infoMap : List (I × α)) : List (I × α) :=
  if (Assoc.find? i infoMap).isSome then infoMap else Assoc.insert i a infoMap

variable {m : List (Int32 × List (I × α))} {browserId : Int32} {infoMap infoMap' : List (I × α)} {i : I} {a : α}

theorem split_of_find (hm : (m.map Prod.fst).Nodup) (h : Assoc.find? browserId m = some infoMap) :
    ∃ p q, m = p ++ (browserId, infoMap) :: q ∧ browserId ∉ p.map Prod.fst ∧ browserId ∉ q.map Prod.fst := by
  obtain ⟨p, q, rfl⟩ := List.append_of_mem (Assoc.mem_of_find? h)
  rw [List.map_append, List.map_cons] at hm
  have hnot := (List.nodup_cons.1 (List.nodup_middle.1 hm)).1
  exact ⟨p, q, rfl, fun hp => hnot (List.mem_append_left _ hp), fun hq => hnot (List.mem_append_right _ hq)⟩

theorem setInfoMap_eq {p q : List (Int32 × List (I × α))} (hp : browserId ∉ p.map Prod.fst)
    (hq : browserId ∉ q.map Prod.fst) : setInfoMap (p ++ (browserId, infoMap) :: q) browserId infoMap' =
      p ++ (if infoMap'.isEmpty then [] else [(browserId, infoMap')]) ++ q := by
  have hne : ∀ n : List (Int32 × List (I × α)), browserId ∉ n.map Prod.fst → ∀ e ∈ n, e.1 ≠ browserId :=
    fun n hn e he heq => hn (List.mem_map.2 ⟨e, he, heq⟩)
  have hfilter : ∀ n : List (Int32 × List (I × α)), browserId ∉ n.map Prod.fst →
      n.filter (fun e => e.1 ≠ browserId) = n :=
    fun n hn => List.filter_eq_self.2 fun e he => by simpa using hne n hn e he
  have hmap : ∀ n : List (Int32 × List (I × α)), browserId ∉ n.map Prod.fst →
      n.map (fun e => if e.1 = browserId then (browserId, infoMap') else e) = n := fun n hn => by
    rw [List.map_congr_left fun e he => if_neg (hne n hn e he), List.map_id']
  unfold setInfoMap
  split
  · rw [List.filter_append, hfilter p hp, List.filter_cons_of_neg (by simp), hfilter q hq, List.append_nil]
  · rw [List.map_append, List.map_cons, hmap p hp, hmap q hq, if_pos rfl, List.append_assoc]
    rfl

theorem flat_setInfoMap {p q : List (Int32 × List (I × α))} (hp : browserId ∉ p.map Prod.fst)
    (hq : browserId ∉ q.map Prod.fst) : flat (setInfoMap (p ++ (browserId, infoMap) :: q) browserId infoMap') =
      flat (p ++ (browserId, infoMap') :: q) := by
  rw [setInfoMap_eq hp hq]
  cases infoMap' <;> simp

theorem WF.setInfoMap (h : WF m) (hids : (infoMap.map Prod.fst).Nodup) :
    WF (setInfoMap m browserId infoMap) := by
  unfold BrowserInfoMap.setInfoMap
  split
  · exact ⟨h.browsers.sublist (List.filter_sublist.map _), fun e he => h.ids e (List.mem_filter.1 he).1,
      fun e he => h.nonempty e (List.mem_filter.1 he).1⟩
  · rename_i hne
    have hor : ∀ e ∈ m.map (fun e => if e.1 = browserId then (browserId, infoMap) else e),
        e.2 = infoMap ∨ e ∈ m := by
      intro e he
      obtain ⟨d, hd, rfl⟩ := List.mem_map.1 he
      split
      exacts [.inl rfl, .inr hd]
    have hkeys : (m.map (fun e => if e.1 = browserId then (browserId, infoMap) else e)).map Prod.fst =
        m.map Prod.fst := by
      rw [List.map_map]
      refine List.map_congr_left fun e _ => ?_
      show (if e.1 = browserId then (browserId, infoMap) else e).1 = e.1
      split
      exacts [Eq.symm ‹_›, rfl]
    refine ⟨by rw [hkeys]; exact h.browsers, fun e he => ?_, fun e he => ?_⟩
    · rcases hor e he with heq | he
      exacts [heq ▸ hids, h.ids e he]
    · rcases hor e he with heq | he
      · rw [heq]
        exact fun hnil => hne (List.isEmpty_iff.2 hnil)
      · exact h.nonempty e he

theorem emplace_nodup [DecidableEq I] [LT I] [DecidableLT I] (h : (infoMap.map Prod.fst).Nodup) :
    ((emplace i a infoMap).map Prod.fst).Nodup := by
  unfold emplace
  split
  · exact h
  · rename_i hnone
    have hi : i ∉ infoMap.map Prod.fst := by
      intro hi
      obtain ⟨e, he, rfl⟩ := List.mem_map.1 hi
      exact hnone (Option.isSome_iff_ne_none.2 (Assoc.find?_ne_none_of_mem he))
    rw [((Assoc.perm_insert hi a).map Prod.fst).nodup_iff]
    exact List.nodup_cons.2 ⟨hi, h⟩

end BrowserInfoMap

open BrowserInfoMap

structure CefBrowserInfoMap (I α : Type*) where
  browserInfoMap : List (Int32 × List (I × α))
  wf : WF browserInfoMap

namespace CefBrowserInfoMap

variable {I α β : Type*}

instance : EmptyCollection (CefBrowserInfoMap I α) :=
  ⟨[], ⟨.nil, fun _ he => absurd he List.not_mem_nil, fun _ he => absurd he List.not_mem_nil⟩⟩

def empty (m : CefBrowserInfoMap I α) : Bool := m.browserInfoMap.isEmpty

def size (m : CefBrowserInfoMap I α) : Nat := (m.browserInfoMap.map fun e => e.2.length).sum

/-- `size`, of one browser. -/
def sizeOf (m : CefBrowserInfoMap I α) (browserId : Int32) : Nat :=
  ((Assoc.find? browserId m.browserInfoMap).getD []).length

def add [DecidableEq I] [LT I] [DecidableLT I] (m : CefBrowserInfoMap I α) (browserId : Int32) (infoId : I) (info : α) :
    CefBrowserInfoMap I α :=
  match h : Assoc.find? browserId m.browserInfoMap with
  | none =>
    { browserInfoMap := Assoc.insert browserId [(infoId, info)] m.browserInfoMap
      wf := by
        have hb : browserId ∉ m.browserInfoMap.map Prod.fst := by
          intro hb
          obtain ⟨e, he, rfl⟩ := List.mem_map.1 hb
          exact Assoc.find?_ne_none_of_mem he h
        have hperm := Assoc.perm_insert hb [(infoId, info)]
        refine ⟨?_, fun e he => ?_, fun e he => ?_⟩
        · rw [(hperm.map Prod.fst).nodup_iff]
          exact List.nodup_cons.2 ⟨hb, m.wf.browsers⟩
        · rcases List.mem_cons.1 (hperm.subset he) with rfl | he
          exacts [List.nodup_singleton _, m.wf.ids e he]
        · rcases List.mem_cons.1 (hperm.subset he) with rfl | he
          exacts [List.cons_ne_nil _ _, m.wf.nonempty e he] }
  | some infoMap =>
    { browserInfoMap := setInfoMap m.browserInfoMap browserId (emplace infoId info infoMap)
      wf := m.wf.setInfoMap (emplace_nodup (m.wf.ids _ (Assoc.mem_of_find? h))) }

/-- The visitor only says whether the object is removed. -/
def find [DecidableEq I] (m : CefBrowserInfoMap I α) (browserId : Int32) (infoId : I) (remove : α → Bool) :
    Option α × CefBrowserInfoMap I α :=
  match h : Assoc.find? browserId m.browserInfoMap with
  | none => (none, m)
  | some infoMap =>
    match Assoc.find? infoId infoMap with
    | none => (none, m)
    | some info =>
      (some info,
        if remove info then
          { browserInfoMap := setInfoMap m.browserInfoMap browserId (Assoc.erase infoId infoMap)
            wf := m.wf.setInfoMap ((m.wf.ids _ (Assoc.mem_of_find? h)).sublist (List.filter_sublist.map _)) }
        else m)

def findAll (m : CefBrowserInfoMap I α) (visitor : Int32 → I × α → β → Visited β) (s : β) :
    CefBrowserInfoMap I α × β :=
  let r := visitGroups visitor m.browserInfoMap s
  ({ browserInfoMap := r.1
     wf := by
       refine ⟨m.wf.browsers.sublist visitGroups_sublist, fun e he => ?_, fun e he => ?_⟩
       · obtain ⟨l, hl, hsub, -⟩ := mem_visitGroups he
         exact (m.wf.ids _ hl).sublist (hsub.map _)
       · obtain ⟨l, hl, -, hne⟩ := mem_visitGroups he
         exact hne (m.wf.nonempty _ hl) }, r.2.1)

/-- `FindAll`, of one browser. -/
def findAllOf (m : CefBrowserInfoMap I α) (browserId : Int32) (visitor : Int32 → I × α → β → Visited β) (s : β) :
    CefBrowserInfoMap I α × β :=
  match h : Assoc.find? browserId m.browserInfoMap with
  | none => (m, s)
  | some infoMap =>
    let r := visitAll (visitor browserId) infoMap s
    ({ browserInfoMap := setInfoMap m.browserInfoMap browserId r.1
       wf := m.wf.setInfoMap ((m.wf.ids _ (Assoc.mem_of_find? h)).sublist (visitAll_sublist.map _)) }, r.2.1)

/-! ### One map -/

def entries (m : CefBrowserInfoMap I α) : List (Int32 × I × α) := flat m.browserInfoMap

variable {m : CefBrowserInfoMap I α} {browserId : Int32} {infoId : I} {info : α} {infoMap : List (I × α)}

theorem mem_entries [DecidableEq I] : (browserId, infoId, info) ∈ m.entries ↔
    ∃ infoMap, Assoc.find? browserId m.browserInfoMap = some infoMap ∧ Assoc.find? infoId infoMap = some info := by
  unfold entries
  rw [mem_flat]
  constructor
  · rintro ⟨infoMap, hmem, hinfo⟩
    exact ⟨infoMap, Assoc.find?_of_mem m.wf.browsers hmem, Assoc.find?_of_mem (m.wf.ids _ hmem) hinfo⟩
  · rintro ⟨infoMap, hfind, hinfo⟩
    exact ⟨infoMap, Assoc.mem_of_find? hfind, Assoc.mem_of_find? hinfo⟩

theorem eq_of_mem_entries [DecidableEq I] {info' : α} (h : (browserId, infoId, info) ∈ m.entries)
    (h' : (browserId, infoId, info') ∈ m.entries) : info = info' := by
  obtain ⟨infoMap, hmap, hinfo⟩ := mem_entries.1 h
  obtain ⟨infoMap', hmap', hinfo'⟩ := mem_entries.1 h'
  rw [hmap, Option.some.injEq] at hmap'
  subst hmap'
  rw [hinfo, Option.some.injEq] at hinfo'
  exact hinfo'

/-- No key has two objects. -/
theorem nodup_entries : (m.entries.map fun e => (e.1, e.2.1)).Nodup := by
  have hflat : ∀ n : List (Int32 × List (I × α)), (n.map Prod.fst).Nodup →
      (∀ e ∈ n, (e.2.map Prod.fst).Nodup) → ((flat n).map fun e => (e.1, e.2.1)).Nodup := by
    intro n hn hids
    induction n with
    | nil => exact .nil
    | cons e n ih =>
      rw [List.map_cons, List.nodup_cons] at hn
      rw [flat_cons, List.map_append, List.map_map]
      refine List.nodup_append.2 ⟨?_, ih hn.2 fun e he => hids e (.tail _ he), ?_⟩
      · have he := (hids e (.head _)).map (f := fun i => (e.1, i)) fun i j hij => (Prod.mk.inj hij).2
        rwa [List.map_map] at he
      · rintro ⟨b, i⟩ hk ⟨b', i'⟩ hk' heq
        obtain ⟨a, -, ha⟩ := List.mem_map.1 hk
        obtain ⟨⟨b'', ia⟩, hmem, hb⟩ := List.mem_map.1 hk'
        obtain ⟨l, hl, -⟩ := mem_flat.1 hmem
        have hbe : b'' = e.1 := (congrArg Prod.fst (hb.trans (heq.symm.trans ha.symm)))
        exact hn.1 (List.mem_map.2 ⟨_, hl, hbe⟩)
  exact hflat _ m.wf.browsers m.wf.ids

/-- The one entry of a key. -/
theorem filter_key (h : (browserId, infoId, info) ∈ m.entries) {p : Int32 × I × α → Bool}
    (hp : ∀ e, p e = true ↔ e.1 = browserId ∧ e.2.1 = infoId) :
    m.entries.filter p = [(browserId, infoId, info)] := by
  obtain ⟨l, l', hl⟩ := List.append_of_mem h
  have hnodup := m.nodup_entries
  rw [hl, List.map_append, List.map_cons] at hnodup
  have hnot := (List.nodup_cons.1 (List.nodup_middle.1 hnodup)).1
  have hnone : ∀ n : List (Int32 × I × α), n ⊆ l ++ l' → n.filter p = [] := by
    refine fun n hn => List.filter_eq_nil_iff.2 fun e he hpe => hnot ?_
    obtain ⟨h1, h2⟩ := (hp e).1 hpe
    rw [← List.map_append]
    exact List.mem_map.2 ⟨e, hn he, Prod.ext h1 h2⟩
  rw [hl, List.filter_append, List.filter_cons_of_pos ((hp _).2 ⟨rfl, rfl⟩),
    hnone l (List.subset_append_left _ _), hnone l' (List.subset_append_right _ _)]
  rfl

theorem empty_iff : m.empty = true ↔ m.entries = [] := by
  unfold empty entries
  rw [List.isEmpty_iff]
  refine ⟨fun h => by rw [h]; rfl, fun h => ?_⟩
  cases hm : m.browserInfoMap with
  | nil => rfl
  | cons e n =>
    have hne := m.wf.nonempty e (by rw [hm]; exact .head _)
    rw [hm, flat_cons, List.append_eq_nil_iff, List.map_eq_nil_iff] at h
    exact absurd h.1 hne

theorem size_eq : m.size = m.entries.length := by
  unfold size entries
  generalize m.browserInfoMap = n
  induction n with
  | nil => rfl
  | cons e n ih => rw [List.map_cons, List.sum_cons, ih, flat_cons, List.length_append, List.length_map]

/-! ### The operations -/

theorem sizeOf_eq [DecidableEq I] (m : CefBrowserInfoMap I α) (browserId : Int32) :
    m.sizeOf browserId = m.entries.countP (·.1 = browserId) := by
  have hnone : ∀ n : List (Int32 × List (I × α)), browserId ∉ n.map Prod.fst → (flat n).countP (·.1 = browserId) = 0 := by
    refine fun n hn => List.countP_eq_zero.2 fun e he => ?_
    obtain ⟨l, hl, -⟩ := mem_flat.1 (he : (e.1, e.2) ∈ flat n)
    rw [decide_eq_true_iff]
    rintro rfl
    exact hn (List.mem_map_of_mem hl)
  unfold sizeOf entries
  cases h : Assoc.find? browserId m.browserInfoMap with
  | none =>
    refine (hnone _ fun hb => ?_).symm
    obtain ⟨e, he, rfl⟩ := List.mem_map.1 hb
    exact Assoc.find?_ne_none_of_mem he h
  | some infoMap =>
    obtain ⟨p, q, hm, hp, hq⟩ := split_of_find m.wf.browsers h
    have hall : (infoMap.map fun a => (browserId, a)).countP (·.1 = browserId) = infoMap.length := by
      rw [List.countP_map]
      exact List.countP_eq_length.2 fun a _ => decide_eq_true rfl
    rw [hm, flat_append, flat_cons, List.countP_append, List.countP_append, hnone p hp, hnone q hq, hall]
    exact (Nat.zero_add _).symm

/-- The entries are those of the `InfoMap` of a browser and those of the others. -/
theorem entries_split (h : Assoc.find? browserId m.browserInfoMap = some infoMap) :
    ∃ p q, m.browserInfoMap = p ++ (browserId, infoMap) :: q ∧
      browserId ∉ p.map Prod.fst ∧ browserId ∉ q.map Prod.fst ∧
      m.entries = flat p ++ (infoMap.map fun a => (browserId, a)) ++ flat q := by
  obtain ⟨p, q, hm, hp, hq⟩ := split_of_find m.wf.browsers h
  refine ⟨p, q, hm, hp, hq, ?_⟩
  unfold entries
  rw [hm, flat_append, flat_cons, List.append_assoc]

theorem entries_setInfoMap {infoMap' : List (I × α)} {p q : List (Int32 × List (I × α))}
    (hm : m.browserInfoMap = p ++ (browserId, infoMap) :: q) (hp : browserId ∉ p.map Prod.fst)
    (hq : browserId ∉ q.map Prod.fst) : flat (setInfoMap m.browserInfoMap browserId infoMap') =
      flat p ++ (infoMap'.map fun a => (browserId, a)) ++ flat q := by
  rw [hm, flat_setInfoMap hp hq, flat_append, flat_cons, List.append_assoc]

/-- A new key. -/
theorem entries_add [DecidableEq I] [LT I] [DecidableLT I] (h : ∀ info, (browserId, infoId, info) ∉ m.entries) :
    (m.add browserId infoId info).entries.Perm ((browserId, infoId, info) :: m.entries) := by
  unfold add
  split
  · rename_i hnone
    have hb : browserId ∉ m.browserInfoMap.map Prod.fst := by
      intro hb
      obtain ⟨e, he, rfl⟩ := List.mem_map.1 hb
      exact Assoc.find?_ne_none_of_mem he hnone
    exact (Assoc.perm_insert hb [(infoId, info)]).flatMap_right _
  · rename_i infoMap hsome
    have hi : infoId ∉ infoMap.map Prod.fst := by
      intro hi
      obtain ⟨⟨i, a⟩, ha, rfl⟩ := List.mem_map.1 hi
      exact h a (mem_flat.2 ⟨infoMap, Assoc.mem_of_find? hsome, ha⟩)
    have hemplace : (emplace infoId info infoMap).Perm ((infoId, info) :: infoMap) := by
      unfold emplace
      rw [if_neg]
      · exact Assoc.perm_insert hi info
      · intro hfind
        obtain ⟨a, ha⟩ := Option.isSome_iff_exists.1 hfind
        exact hi (List.mem_map.2 ⟨_, Assoc.mem_of_find? ha, rfl⟩)
    obtain ⟨p, q, hm, hp, hq, hentries⟩ := entries_split hsome
    rw [hentries]
    show (flat (setInfoMap m.browserInfoMap browserId (emplace infoId info infoMap))).Perm _
    rw [entries_setInfoMap hm hp hq, List.append_assoc, List.append_assoc]
    refine ((((hemplace.map _).append_right _).append_left _)).trans ?_
    rw [List.map_cons, List.cons_append]
    exact List.perm_middle

/-- What `Find` returns, and which entry it takes out. -/
theorem find_eq [DecidableEq I] (m : CefBrowserInfoMap I α) (browserId : Int32) (infoId : I) (remove : α → Bool) :
    (∀ info, (m.find browserId infoId remove).1 = some info ↔
      (browserId, infoId, info) ∈ m.entries) ∧
    (m.find browserId infoId remove).2.entries =
      m.entries.filter fun e => !(e.1 = browserId ∧ e.2.1 = infoId ∧ remove e.2.2) := by
  have hnone : (∀ info, (browserId, infoId, info) ∉ m.entries) → m.entries =
      m.entries.filter fun e => !(e.1 = browserId ∧ e.2.1 = infoId ∧ remove e.2.2) := by
    intro h
    refine (List.filter_eq_self.2 ?_).symm
    rintro ⟨b, i, a⟩ he
    simp only [Bool.not_eq_true', decide_eq_false_iff_not]
    rintro ⟨rfl, rfl, -⟩
    exact h a he
  unfold find
  split
  · rename_i hb
    have hno : ∀ info, (browserId, infoId, info) ∉ m.entries := by
      intro info hmem
      obtain ⟨_, hfind, -⟩ := mem_entries.1 hmem
      rw [hb] at hfind
      cases hfind
    exact ⟨fun info => by simpa using hno info, hnone hno⟩
  · rename_i infoMap hb
    split
    · rename_i hi
      have hno : ∀ info, (browserId, infoId, info) ∉ m.entries := by
        intro info hmem
        obtain ⟨_, hfind, hinfo⟩ := mem_entries.1 hmem
        rw [hb, Option.some.injEq] at hfind
        rw [← hfind, hi] at hinfo
        cases hinfo
      exact ⟨fun info => by simpa using hno info, hnone hno⟩
    · rename_i info hi
      have hmem : (browserId, infoId, info) ∈ m.entries := mem_entries.2 ⟨infoMap, hb, hi⟩
      refine ⟨fun info' => ?_, ?_⟩
      · rw [Option.some.injEq]
        exact ⟨fun heq => heq ▸ hmem, eq_of_mem_entries hmem⟩
      · dsimp only
        split
        · rename_i hrem
          obtain ⟨p, q, hm, hp, hq, hentries⟩ := entries_split hb
          show flat (setInfoMap m.browserInfoMap browserId (Assoc.erase infoId infoMap)) = _
          rw [entries_setInfoMap hm hp hq, hentries, List.filter_append, List.filter_append]
          have hother : ∀ n : List (Int32 × List (I × α)), browserId ∉ n.map Prod.fst → (flat n).filter
              (fun e => !(decide (e.1 = browserId ∧ e.2.1 = infoId ∧ remove e.2.2 = true))) = flat n := by
            refine fun n hn => List.filter_eq_self.2 ?_
            rintro ⟨b, i, a⟩ he
            simp only [Bool.not_eq_true', decide_eq_false_iff_not]
            rintro ⟨rfl, -, -⟩
            obtain ⟨l, hl, -⟩ := mem_flat.1 he
            exact hn (List.mem_map.2 ⟨_, hl, rfl⟩)
          rw [hother p hp, hother q hq, List.filter_map]
          congr 3
          refine List.filter_congr ?_
          rintro ⟨i, a⟩ ha
          show decide (i ≠ infoId) = !decide (browserId = browserId ∧ i = infoId ∧ remove a = true)
          by_cases hii : i = infoId
          · subst hii
            have : a = info := Option.some.inj
              ((Assoc.find?_of_mem (m.wf.ids _ (Assoc.mem_of_find? hb)) ha).symm.trans hi)
            simp [this, hrem]
          · simp [hii]
        · rename_i hrem
          refine (List.filter_eq_self.2 ?_).symm
          rintro ⟨b, i, a⟩ he
          simp only [Bool.not_eq_true', decide_eq_false_iff_not]
          rintro ⟨rfl, rfl, ha⟩
          rw [eq_of_mem_entries he hmem] at ha
          exact hrem ha

theorem findAll_eq (m : CefBrowserInfoMap I α) (visitor : Int32 → I × α → β → Visited β) (s : β) :
    ((m.findAll visitor s).1.entries, (m.findAll visitor s).2) =
      ((visitAll (fun e s => visitor e.1 e.2 s) m.entries s).1,
        (visitAll (fun e s => visitor e.1 e.2 s) m.entries s).2.1) := by
  unfold entries findAll
  rw [← flat_visitGroups]

/-- The visitor passes over the other browsers. -/
theorem findAllOf_eq [DecidableEq I] (m : CefBrowserInfoMap I α) (browserId : Int32)
    (visitor : Int32 → I × α → β → Visited β) (s : β) :
    ((m.findAllOf browserId visitor s).1.entries, (m.findAllOf browserId visitor s).2) =
      ((visitAll (fun e s => if e.1 = browserId then visitor e.1 e.2 s else pass s) m.entries s).1,
        (visitAll (fun e s => if e.1 = browserId then visitor e.1 e.2 s else pass s) m.entries s).2.1) := by
  unfold findAllOf
  split
  · rename_i hb
    rw [visitAll_pass]
    rintro ⟨b, i, a⟩ he s
    refine if_neg ?_
    rintro rfl
    obtain ⟨_, hfind, -⟩ := mem_entries.1 he
    rw [hb] at hfind
    cases hfind
  · rename_i infoMap hb
    obtain ⟨p, q, hm, hp, hq⟩ := split_of_find m.wf.browsers hb
    have hvisit := visitAll_only (v := visitor) (s := s) (l := infoMap) hp hq
    unfold entries
    rw [← hm] at hvisit
    rw [hvisit]
    dsimp only
    rw [hm, flat_setInfoMap hp hq]

end CefBrowserInfoMap

end NplBrowser
