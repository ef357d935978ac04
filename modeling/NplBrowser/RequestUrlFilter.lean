import Mathlib.Data.List.TakeWhile
import NplBrowser.StdString

/-!
# The URL filter of the resource manager (`test_runner.cc`)

`RequestUrlFilter` gives the path of a test URL the extension `.html` if it has none. It divides the
URL at the first `?`, and at a `#` only if there is no `?` at all: a fragment with a `?` in it counts
as path up to there.
-/

namespace NplBrowser

def kTestOrigin : Bytes := lit "http://tests/"

namespace RequestUrlFilter

/-- `url_base` and `url_suffix`; `none`: a `substr` throws. -/
def divide (url : Bytes) : Option (Bytes × Bytes) := do
  let queryPos := find url (lit "?") 0
  let suffixPos := if queryPos = npos then find url (lit "#") 0 else queryPos
  if suffixPos = npos then return (url, [])
  let urlBase ← substr url 0 suffixPos
  let urlSuffix ← substr url suffixPos npos
  return (urlBase, urlSuffix)

/-- `RequestUrlFilter`. -/
def requestUrlFilter (url : Bytes) : Option Bytes := do
  if find url kTestOrigin 0 ≠ 0 then return url
  let (urlBase, urlSuffix) ← divide url
  let pathPos := rfind urlBase (lit "/") npos
  if pathPos = npos then return url
  let pathComponent ← substr urlBase pathPos npos
  let extPos := rfind pathComponent (lit ".") npos
  if extPos ≠ npos then return url
  return urlBase ++ lit ".html" ++ urlSuffix

/-! ### What it is for -/

/-- The URL up to its query or fragment, whichever comes first. -/
def path (url : Bytes) : Bytes := url.takeWhile fun c => c ≠ 63 && c ≠ 35

/-- Query and fragment. -/
def suffix (url : Bytes) : Bytes := url.dropWhile fun c => c ≠ 63 && c ≠ 35

/-- The last component has an extension. -/
def HasExtension (s : Bytes) : Prop := 46 ∈ afterLast 47 s

instance (s : Bytes) : Decidable (HasExtension s) := inferInstanceAs (Decidable (_ ∈ _))

/-- A test URL with an extension at the end of its path. -/
def withExtension (url : Bytes) : Bytes :=
  if kTestOrigin <+: url ∧ ¬ HasExtension (path url) then path url ++ lit ".html" ++ suffix url else url

/-- What the filter takes for the path. -/
def base (url : Bytes) : Bytes := url.takeWhile (· ≠ if 63 ∈ url then 63 else 35)

/-- No fragment comes before the first `?`, or an extension is found both in the path and in what is
taken for it. -/
def Fits (url : Bytes) : Prop :=
  kTestOrigin <+: url → 35 ∉ base url ∨ HasExtension (path url) ∧ HasExtension (base url)

/-! ### Dividing -/

section
variable {s t url : Bytes} {c : UInt8}

theorem takeWhile_append_cons (h : c ∉ s) (t : Bytes) : (s ++ c :: t).takeWhile (· ≠ c) = s := by
  rw [List.takeWhile_append_of_pos]
  · simp
  · intro x hx
    have hne : x ≠ c := fun heq => h (heq ▸ hx)
    simpa using hne

theorem takeWhile_of_notMem (h : c ∉ s) : s.takeWhile (· ≠ c) = s := by
  rw [List.takeWhile_eq_self_iff]
  intro x hx
  have hne : x ≠ c := fun heq => h (heq ▸ hx)
  simpa using hne

theorem find_append_cons (h : c ∉ s) (t : Bytes) : find (s ++ c :: t) [c] 0 = s.length := by
  rw [find_zero]
  have hfirst := Search.findFrom_singleton h [] t
  rw [List.nil_append, List.length_nil, Nat.zero_add] at hfirst
  rw [hfirst, position_some]

theorem find_of_notMem (h : c ∉ s) : find s [c] 0 = npos := by
  rw [find_zero, Search.findFrom_singleton_eq_none h, position_none]

theorem exists_append_cons_last (h : c ∈ s) : ∃ a b, s = a ++ c :: b ∧ c ∉ b := by
  obtain ⟨a, b, heq, hnot⟩ := List.eq_append_cons_of_mem (List.mem_reverse.2 h)
  refine ⟨b.reverse, a.reverse, ?_, fun hc => hnot (List.mem_reverse.1 hc)⟩
  rw [← List.reverse_reverse s, heq]
  simp

theorem substr_zero (s t : Bytes) : substr (s ++ t) 0 s.length = some s := by
  have h := substr_natCast (s := s ++ t) (Nat.zero_le _) s.length
  simpa using h

theorem substr_rest (s t : Bytes) : substr (s ++ t) s.length npos = some t := by
  unfold substr npos
  rw [if_neg (by simp), if_pos (by decide)]
  simp

theorem length_ne_npos (s : Bytes) : (s.length : Int) ≠ npos := natCast_ne_npos _

/-- The division at the first mark. -/
theorem divide_of_mark (hmark : (if find url (lit "?") 0 = npos then find url (lit "#") 0
    else find url (lit "?") 0) = s.length) (hurl : url = s ++ t) : divide url = some (s, t) := by
  subst hurl
  unfold divide
  simp only [hmark, if_neg (length_ne_npos s), substr_zero, substr_rest]
  rfl

/-- Where the base ends. -/
theorem base_cases (url : Bytes) :
    (∃ s t, url = s ++ 63 :: t ∧ 63 ∉ s ∧ base url = s) ∨
    (∃ s t, url = s ++ 35 :: t ∧ 35 ∉ s ∧ 63 ∉ url ∧ base url = s) ∨
    (35 ∉ url ∧ 63 ∉ url ∧ base url = url) := by
  by_cases hquery : (63 : UInt8) ∈ url
  · obtain ⟨s, t, rfl, hs⟩ := List.eq_append_cons_of_mem hquery
    refine .inl ⟨s, t, rfl, hs, ?_⟩
    rw [base, if_pos hquery, takeWhile_append_cons hs]
  · by_cases hfragment : (35 : UInt8) ∈ url
    · obtain ⟨s, t, rfl, hs⟩ := List.eq_append_cons_of_mem hfragment
      refine .inr (.inl ⟨s, t, rfl, hs, hquery, ?_⟩)
      rw [base, if_neg hquery, takeWhile_append_cons hs]
    · refine .inr (.inr ⟨hfragment, hquery, ?_⟩)
      rw [base, if_neg hquery, takeWhile_of_notMem hfragment]

theorem divide_eq (url : Bytes) : divide url = some (base url, url.drop (base url).length) := by
  rcases base_cases url with ⟨s, t, hurl, hs, hbase⟩ | ⟨s, t, hurl, hs, hquery, hbase⟩ | ⟨hfragment, hquery, hbase⟩
  · have hfind : find url (lit "?") 0 = s.length := hurl ▸ find_append_cons hs t
    rw [hbase, hurl, List.drop_left, ← hurl]
    refine divide_of_mark ?_ hurl
    rw [hfind, if_neg (length_ne_npos s)]
  · have hfind : find url (lit "#") 0 = s.length := hurl ▸ find_append_cons hs t
    have hnone : find url (lit "?") 0 = npos := find_of_notMem hquery
    rw [hbase, hurl, List.drop_left, ← hurl]
    refine divide_of_mark ?_ hurl
    rw [if_pos hnone, hfind]
  · have hnone : find url (lit "?") 0 = npos := find_of_notMem hquery
    have hnone' : find url (lit "#") 0 = npos := find_of_notMem hfragment
    unfold divide
    simp only [hnone, hnone', if_true, hbase, List.drop_length]
    rfl

theorem base_append_drop (url : Bytes) : base url ++ url.drop (base url).length = url := by
  have htake : url.take (base url).length = base url :=
    List.prefix_iff_eq_take.1 (List.takeWhile_prefix _) |>.symm
  nth_rewrite 1 [← htake]
  exact List.take_append_drop _ _

/-- The path is what the filter takes for it, up to the first `#`. -/
theorem path_eq (url : Bytes) : path url = (base url).takeWhile (· ≠ 35) := by
  have hboth : path url = (url.takeWhile (· ≠ 63)).takeWhile (· ≠ 35) := by
    rw [List.takeWhile_takeWhile, path]
    congr 1
    funext c
    simp [Bool.and_comm]
  rw [hboth, base]
  split
  · rfl
  · rename_i hquery
    rw [takeWhile_of_notMem hquery, List.takeWhile_idem]

theorem path_append_suffix (url : Bytes) : path url ++ suffix url = url := List.takeWhile_append_dropWhile

theorem prefix_base (h : kTestOrigin <+: url) : kTestOrigin <+: base url := by
  obtain ⟨t, rfl⟩ := h
  unfold base
  rw [List.takeWhile_append_of_pos]
  · exact List.prefix_append _ _
  · have hplain : kTestOrigin.all (fun x => x ≠ 63 && x ≠ 35) = true := by decide
    intro x hx
    have hne := List.all_eq_true.1 hplain x hx
    rw [Bool.and_eq_true] at hne
    split
    exacts [hne.1, hne.2]

theorem requestUrlFilter_of_origin (h : kTestOrigin <+: url) :
    requestUrlFilter url = some (if HasExtension (base url) then url
      else base url ++ lit ".html" ++ url.drop (base url).length) := by
  have hslash : (47 : UInt8) ∈ base url := (prefix_base h).subset (by decide)
  obtain ⟨s, t, hbase, ht⟩ := exists_append_cons_last hslash
  have hpos : rfind (base url) (lit "/") npos = s.length := by
    rw [rfind_npos, hbase]
    show position (Search.last [47] _) = _
    rw [Search.last_singleton ht, position_some]
  have hcomponent : substr (base url) s.length npos = some (47 :: t) := by
    rw [hbase, substr_rest]
  have hdot : rfind (47 :: t) (lit ".") npos = npos ↔ ¬ HasExtension (base url) := by
    rw [HasExtension, hbase, afterLast_append_cons ht, rfind_npos]
    show position (Search.last [46] _) = _ ↔ _
    by_cases hmem : (46 : UInt8) ∈ t
    · obtain ⟨a, b, rfl, hb⟩ := exists_append_cons_last hmem
      rw [show (47 : UInt8) :: (a ++ 46 :: b) = (47 :: a) ++ 46 :: b from rfl, Search.last_singleton hb]
      exact iff_of_false (natCast_ne_npos _) (not_not.2 hmem)
    · have hnone : Search.last [(46 : UInt8)] (47 :: t) = none := by
        rw [Search.last_eq_none_iff]
        intro j hat
        have hm := List.mem_of_getElem? (Search.at_singleton.1 hat)
        simp only [List.mem_cons] at hm
        rcases hm with hm | hm
        · exact absurd hm (by decide)
        · exact hmem hm
      rw [hnone]
      exact iff_of_true rfl hmem
  unfold requestUrlFilter
  simp only [(find_eq_zero_iff url kTestOrigin).2 h, divide_eq, Option.bind_eq_bind, Option.bind_some, hpos, hcomponent,
    if_neg (length_ne_npos s), ne_eq, not_true_eq_false, if_false, hdot, not_not]
  split <;> rfl

theorem requestUrlFilter_of_other (h : ¬ kTestOrigin <+: url) : requestUrlFilter url = some url :=
  if_pos (fun hf => h ((find_eq_zero_iff url kTestOrigin).1 hf))

/-! ### The result -/

/-- What the filter takes for the path of its own result. -/
theorem base_result (url : Bytes) :
    base (base url ++ lit ".html" ++ url.drop (base url).length) = base url ++ lit ".html" := by
  have hhtml : ∀ {c : UInt8}, c ∉ lit ".html" → c ∉ base url → c ∉ base url ++ lit ".html" := by
    intro c hc hbase hmem
    exact (List.mem_append.1 hmem).elim hbase hc
  rcases base_cases url with ⟨s, t, hurl, hs, hbase⟩ | ⟨s, t, hurl, hs, hquery, hbase⟩ | ⟨hfragment, hquery, hbase⟩
  · have hrest : url.drop (base url).length = 63 :: t := by rw [hbase, hurl, List.drop_left]
    have hnot : (63 : UInt8) ∉ base url ++ lit ".html" := hhtml (by decide) (hbase ▸ hs)
    rw [hrest, base, if_pos (by simp), takeWhile_append_cons hnot]
  · have hrest : url.drop (base url).length = 35 :: t := by rw [hbase, hurl, List.drop_left]
    have hnot : (35 : UInt8) ∉ base url ++ lit ".html" := hhtml (by decide) (hbase ▸ hs)
    have hquery' : (63 : UInt8) ∉ base url ++ lit ".html" ++ 35 :: t := by
      rw [hurl] at hquery
      simp only [List.mem_append, not_or] at hquery ⊢
      exact ⟨⟨hbase ▸ hquery.1, by decide⟩, hquery.2⟩
    rw [hrest, base, if_neg hquery', takeWhile_append_cons hnot]
  · have hrest : url.drop (base url).length = [] := by rw [hbase, List.drop_length]
    have hquery' : (63 : UInt8) ∉ base url ++ lit ".html" := hhtml (by decide) (by rwa [hbase])
    have hnot : (35 : UInt8) ∉ base url ++ lit ".html" := hhtml (by decide) (by rwa [hbase])
    rw [hrest, List.append_nil, base, if_neg hquery', takeWhile_of_notMem hnot]

theorem idempotent (url : Bytes) :
    ∃ v, requestUrlFilter url = some v ∧ requestUrlFilter v = some v := by
  by_cases h : kTestOrigin <+: url
  · refine ⟨_, requestUrlFilter_of_origin h, ?_⟩
    split
    · rename_i hext
      rw [requestUrlFilter_of_origin h, if_pos hext]
    · have horigin : kTestOrigin <+: base url ++ lit ".html" ++ url.drop (base url).length := by
        rw [List.append_assoc]
        exact (prefix_base h).trans (List.prefix_append _ _)
      have hext : HasExtension (base (base url ++ lit ".html" ++ url.drop (base url).length)) := by
        rw [base_result, HasExtension, afterLast_append (by decide)]
        exact List.mem_append_right _ (by decide)
      rw [requestUrlFilter_of_origin horigin, if_pos hext]
  · exact ⟨url, requestUrlFilter_of_other h, requestUrlFilter_of_other h⟩

theorem length_ne_of_extension (hurl : s ++ t = url) : s ++ lit ".html" ++ t ≠ url := by
  intro h
  have hlen := congrArg List.length (h.trans hurl.symm)
  simp only [List.length_append] at hlen
  have h5 : (lit ".html").length = 5 := by decide
  omega

theorem result_eq_iff (h : kTestOrigin <+: url) :
    requestUrlFilter url = some (withExtension url) ↔
      35 ∉ base url ∨ HasExtension (path url) ∧ HasExtension (base url) := by
  rw [requestUrlFilter_of_origin h, Option.some.injEq, withExtension]
  by_cases hfragment : (35 : UInt8) ∈ base url
  · obtain ⟨p, f, hbase, hp⟩ := List.eq_append_cons_of_mem hfragment
    have hpath : path url = p := by rw [path_eq, hbase, takeWhile_append_cons hp]
    have hcode : base url ++ lit ".html" ++ url.drop (base url).length ≠ url :=
      length_ne_of_extension (base_append_drop url)
    have hspec : path url ++ lit ".html" ++ suffix url ≠ url :=
      length_ne_of_extension (path_append_suffix url)
    simp only [hfragment, not_true_eq_false, false_or, h, true_and]
    by_cases hb : HasExtension (base url) <;> by_cases hq : HasExtension (path url)
    · simp [hb, hq]
    · simpa [hb, hq] using hspec.symm
    · simpa [hb, hq] using hcode
    · simp only [hb, hq, if_false, not_false_eq_true, if_true, and_self, iff_false]
      intro heq
      -- the extension would stand behind the `#` and before it
      have hsuffix : suffix url = 35 :: f ++ url.drop (base url).length := by
        have hurl := base_append_drop url
        rw [hbase, List.append_assoc] at hurl
        have hboth := (path_append_suffix url).trans hurl.symm
        rw [hpath, List.append_cancel_left_eq] at hboth
        rw [hboth, hbase]
      rw [hsuffix, hpath, hbase] at heq
      simp only [List.append_assoc, List.append_cancel_left_eq, List.cons_append] at heq
      exact absurd (List.head_eq_of_cons_eq heq) (by decide)
  · have hpath : path url = base url := by rw [path_eq, takeWhile_of_notMem hfragment]
    have hsuffix : suffix url = url.drop (base url).length := by
      have hboth := (path_append_suffix url).trans (base_append_drop url).symm
      rwa [hpath, List.append_cancel_left_eq] at hboth
    simp only [hfragment, not_false_eq_true, true_or, iff_true, hpath, hsuffix, h, true_and]
    split <;> simp_all

end

/-- The filter completes the path of a test URL just when it takes the right part for it; other URLs
it leaves alone, and its own results. -/
theorem requestUrlFilter_iff (url : Bytes) :
    (requestUrlFilter url = some (withExtension url) ↔ Fits url) ∧
      (¬ kTestOrigin <+: url → requestUrlFilter url = some url) ∧
      ∃ v, requestUrlFilter url = some v ∧ requestUrlFilter v = some v := by
  refine ⟨?_, requestUrlFilter_of_other, idempotent url⟩
  by_cases h : kTestOrigin <+: url
  · rw [result_eq_iff h]
    exact ⟨fun hfits _ => hfits, fun hfits => hfits h⟩
  · have hother : withExtension url = url := if_neg (fun hc => h hc.1)
    rw [hother]
    exact iff_of_true (requestUrlFilter_of_other h) (fun hc => absurd hc h)

/-- A fragment with a question mark. -/
theorem not_requestUrlFilter_fragment :
    ¬ ∀ url, requestUrlFilter url = some (withExtension url) := by
  intro h
  exact absurd (h (lit "http://tests/page#a?b")) (by decide)

end RequestUrlFilter
end NplBrowser
