import NplBrowser.CFHtml

/-!
# The round trip through the clipboard's HTML format

What `CFHtmlToHtml` reads from the text `HtmlToCFHtml` has produced depends on what the stack held
behind `raw_result`: the header is not printed but for its first four bytes, so it is right only if
the stack spelt it already. A base URL comes back with the `\r` of its line, unless the stack held
a whole line with the URL before; without a base URL the HTML itself is searched for one. The HTML
comes back, unless the stack held both an `<html` and a start comment.
-/

namespace NplBrowser
open Search

/-! ## What the round trip should give -/

/-- Ten decimal digits that spell `n`. -/
structure IsOffset (digits : Bytes) (n : Nat) : Prop where
  length : digits.length = 10
  digit : ∀ b ∈ digits, isDigit b = true
  value : digits.foldl (fun n d => n * 10 + (d.toNat - 48)) 0 = n

/-- The text begins with a header whose numbers are the given ones. -/
def HeaderFor (text : Bytes) (startHtml endHtml startFragment endFragment : Nat) : Prop :=
  ∃ d₁ d₂ d₃ d₄ rest : Bytes,
    text = (lit "Version:0.9\r\nStartHTML:" ++ d₁ ++ lit "\r\nEndHTML:" ++ d₂ ++
      lit "\r\nStartFragment:" ++ d₃ ++ lit "\r\nEndFragment:" ++ d₄ ++ lit "\r\n") ++ rest ∧
    IsOffset d₁ startHtml ∧ IsOffset d₂ endHtml ∧ IsOffset d₃ startFragment ∧ IsOffset d₄ endFragment

/-- The markup with the fragment in it, which begins at `n`, and the header's four numbers: where the
markup and the fragment begin and end. -/
def HeaderAt (text html : Bytes) (n : Nat) : Prop :=
  HeaderFor text n (n + (startMarkup ++ html ++ endMarkup).length) (n + startMarkup.length)
    (n + (startMarkup ++ html).length)

structure RoundTrip (stack html baseUrl : Bytes) : Prop where
  decoded : cfHtmlToHtml (htmlToCFHtml stack html baseUrl) [] = some ⟨baseUrl, some html⟩
  header : ∃ before, htmlToCFHtml stack html baseUrl = before ++ (startMarkup ++ html ++ endMarkup) ∧
    HeaderAt (htmlToCFHtml stack html baseUrl) html before.length

/-- The base URL is the one that is found first: on the stack, followed by a newline at once; or
there is none, and the first prefix of one, if any, is followed by a newline at once. -/
def UrlFound (raw html baseUrl : Bytes) : Prop :=
  if baseUrl = [] then
    ∀ l, findFrom sourceUrlPrefix (raw ++ (startMarkup ++ html)) 0 = some l →
      (raw ++ (startMarkup ++ html))[l + sourceUrlPrefix.length]? = some 10
  else ∃ l, findFrom sourceUrlPrefix raw 0 = some l ∧ At (sourceUrlPrefix ++ (baseUrl ++ [10])) raw l

/-- No start comment follows an `<html`. -/
def NoMarkup (raw : Bytes) : Prop := ∀ m t, m ≤ t → At htmlTag raw m → ¬ At startFragmentTag raw t

/-- What is read from the stack has to be for the round trip to succeed. -/
structure Lucky (raw html baseUrl : Bytes) : Prop where
  noMarkup : NoMarkup raw
  url : UrlFound raw html baseUrl
  header : HeaderAt raw html (raw.length + (sourceUrlLine baseUrl).length)

/-! ## The fragment -/

section
variable {raw line html baseUrl p q r : Bytes} {i t l : Nat}

/-- The produced text; the line of the base URL has no `<`. -/
def wrap (raw line html : Bytes) : Bytes := raw ++ (line ++ (startMarkup ++ (html ++ endMarkup)))

theorem htmlToCFHtml_eq (stack baseUrl : Bytes) (hhtml : html ≠ []) :
    htmlToCFHtml stack html baseUrl = wrap (rawResult stack html baseUrl) (sourceUrlLine baseUrl) html := by
  unfold htmlToCFHtml wrap
  rw [if_neg hhtml]
  simp only [List.append_assoc]

/-- How what follows the header begins: with the prefix of the URL, or with the markup. -/
theorem wrap_next (hbase : line = sourceUrlLine baseUrl) (html : Bytes) :
    ∃ rest, line ++ (startMarkup ++ (html ++ endMarkup)) =
      (if baseUrl = [] then [60] else sourceUrlPrefix) ++ rest := by
  rw [hbase]
  unfold sourceUrlLine
  split
  · exact ⟨_, rfl⟩
  · exact ⟨_, by simp only [List.append_assoc]; rfl⟩

/-- A comment or a tag before the markup is on the stack. -/
theorem at_raw (hbase : line = sourceUrlLine baseUrl) (hline : 60 ∉ line)
    (hp : p = htmlTag ∨ p = startFragmentTag) (h : At p (wrap raw line html) i)
    (hi : i < raw.length + line.length) : i + p.length ≤ raw.length ∧ At p raw i := by
  have hhead : p.head? = some 60 := by rcases hp with rfl | rfl <;> rfl
  have hno : NoOverlap p (if baseUrl = [] then [60] else sourceUrlPrefix) := by
    rcases hp with rfl | rfl <;> split <;> decide
  obtain ⟨rest, hrest⟩ := wrap_next hbase html
  have hsplit := h
  unfold wrap at hsplit
  rw [hrest] at hsplit
  rcases hno.split hsplit with hle | hle
  · exact ⟨hle, (at_append_left hle).1 h⟩
  · obtain ⟨c, p', rfl⟩ : ∃ c p', p = c :: p' := by
      cases p with
      | nil => cases hhead
      | cons c p' => exact ⟨c, p', rfl⟩
    cases hhead
    have hopen := h.head
    unfold wrap at hopen
    rw [List.getElem?_append_right hle, List.getElem?_append_left (by omega)] at hopen
    exact absurd (List.mem_of_getElem? hopen) hline

theorem at_markup (h : At p (startMarkup ++ (html ++ endMarkup)) i) :
    At p (wrap raw line html) (raw.length + (line.length + i)) :=
  (at_append_right raw).2 ((at_append_right line).2 h)

/-- The start comment of the markup is the only one in it. -/
theorem startTag_markup (h : At startFragmentTag (startMarkup ++ (html ++ endMarkup)) i) (hi : i ≤ 16) :
    i = 16 := by
  have hlen : startFragmentTag.length = 17 := by decide
  have hmarkup : startMarkup.length = 36 := by decide
  have hat := (at_append_left (by omega)).1 h
  have hall : ∀ j ≤ 16, At startFragmentTag startMarkup j → j = 16 := by decide
  exact hall i hi hat

/-- The decoder finds the markup's start comment, or one on the stack. -/
theorem startTag_wrap (raw html : Bytes) (hbase : line = sourceUrlLine baseUrl) (hline : 60 ∉ line) :
    (NoMarkup raw ∧ startTag (wrap raw line html) = some (raw.length + (line.length + 16))) ∨
      (¬ NoMarkup raw ∧ ∃ t, startTag (wrap raw line html) = some t ∧ t < raw.length) := by
  have hhtml : At htmlTag (wrap raw line html) (raw.length + (line.length + 0)) :=
    at_markup (List.IsPrefix.trans (show htmlTag <+: startMarkup by decide) (List.prefix_append _ _))
  have htag : At startFragmentTag (wrap raw line html) (raw.length + (line.length + 16)) :=
    at_markup ((show At startFragmentTag startMarkup 16 by decide).append _)
  by_cases hno : NoMarkup raw
  · obtain ⟨m, hm, -, hle⟩ := findFrom_of_at hhtml (Nat.zero_le _)
    obtain ⟨t, ht, hmt, htle⟩ := findFrom_of_at htag (k := m) (by omega)
    have hatm := (findFrom_eq_some_iff.1 hm).2.1
    have hatt := (findFrom_eq_some_iff.1 ht).2.1
    have hge : raw.length + line.length ≤ t := by
      by_contra hlt
      have hraw := at_raw hbase hline (.inr rfl) hatt (by omega)
      have hraw' := at_raw hbase hline (.inl rfl) hatm (by omega)
      exact hno m t hmt hraw'.2 hraw.2
    obtain ⟨j, rfl⟩ := Nat.exists_eq_add_of_le hge
    unfold wrap at hatt
    rw [Nat.add_assoc, at_append_right, at_append_right] at hatt
    have hj := startTag_markup hatt (by omega)
    subst hj
    refine .inl ⟨hno, ?_⟩
    unfold startTag
    rw [hm, Option.bind_some, ht, Nat.add_assoc]
  · unfold NoMarkup at hno
    push Not at hno
    obtain ⟨m', t', hle, hm', ht'⟩ := hno
    obtain ⟨m, hm, -, hmle⟩ := findFrom_of_at (hm'.append (line ++ (startMarkup ++ (html ++ endMarkup))))
      (Nat.zero_le _)
    obtain ⟨t, ht, -, htle⟩ := findFrom_of_at (ht'.append (line ++ (startMarkup ++ (html ++ endMarkup))))
      (hmle.trans hle)
    have hlen := ht'.le (by decide)
    have hpos : 0 < startFragmentTag.length := by decide
    refine .inr ⟨fun h => h m' t' hle hm' ht', t, ?_, by omega⟩
    unfold startTag wrap
    rw [hm, Option.bind_some, ht]

theorem endTag_wrap (raw line html : Bytes) :
    At endFragmentTag (wrap raw line html) (raw.length + (line.length + (startMarkup.length + html.length))) ∧
      ∀ i, FragmentEnd (wrap raw line html) i →
        i ≤ raw.length + (line.length + (startMarkup.length + html.length)) := by
  have hat : At endFragmentTag (wrap raw line html)
      (raw.length + (line.length + (startMarkup.length + (html.length + 0)))) := by
    unfold wrap
    rw [at_append_right, at_append_right, at_append_right, at_append_right]
    decide
  refine ⟨hat, ?_⟩
  rintro i (hi | ⟨hnone, -⟩)
  · by_contra hc
    obtain ⟨j, rfl⟩ := Nat.exists_eq_add_of_le (Nat.le_of_not_le hc)
    have hall : ∀ j ≤ endMarkup.length, At endFragmentTag endMarkup j → j = 0 := by decide
    unfold wrap at hi
    rw [Nat.add_assoc, Nat.add_assoc, Nat.add_assoc, at_append_right, at_append_right, at_append_right,
      at_append_right] at hi
    have hlen := hi.le (by decide)
    have hj := hall j (by omega) hi
    omega
  · exact absurd hat (hnone _)

/-- The fragment comes back just when no start comment on the stack is taken for its own. -/
theorem decoded_wrap (raw html : Bytes) (hbase : line = sourceUrlLine baseUrl) (hline : 60 ∉ line) :
    ∃ u h, extractBaseUrl (wrap raw line html) [] = some u ∧
      cfHtmlToHtml (wrap raw line html) [] = some ⟨u, some h⟩ ∧ (h = html ↔ NoMarkup raw) := by
  have hmarkup : startMarkup.length = 36 := by decide
  have htags := startTag_wrap raw html hbase hline
  obtain ⟨hend, hlast⟩ := endTag_wrap raw line html
  have hlen : (wrap raw line html).length =
      raw.length + (line.length + (startMarkup.length + (html.length + endMarkup.length))) := by
    simp only [wrap, List.length_append]
  obtain ⟨t, ht, htle⟩ : ∃ t, startTag (wrap raw line html) = some t ∧ t ≤ raw.length + (line.length + 16) := by
    rcases htags with ⟨-, ht⟩ | ⟨-, t, ht, hlt⟩
    exacts [⟨_, ht, le_refl _⟩, ⟨t, ht, by omega⟩]
  obtain ⟨s, e, u, hu, hs, he, hm, hstop, hmax, hstart⟩ := cfHtmlToHtml_of_tag (m := ⟨[], npos, npos⟩) ht
  have heq : e = raw.length + (line.length + (startMarkup.length + html.length)) :=
    Nat.le_antisymm (hlast e hstop) (hmax _ (.inl hend))
  -- the `>` of the markup's own start comment, and of its `<html>`
  have hclose : ∀ j, startMarkup[j]? = some 62 →
      (wrap raw line html)[raw.length + (line.length + j)]? = some 62 := by
    intro j hj
    exact at_singleton.1 (at_markup ((at_singleton.2 hj).append _))
  obtain ⟨g, rfl, htg, hg, hfirst⟩ : ∃ g, s = g + 1 ∧ t ≤ g ∧ (wrap raw line html)[g]? = some 62 ∧
      ∀ j, t ≤ j → (wrap raw line html)[j]? = some 62 → g ≤ j := by
    rcases hstart with ⟨-, hnone⟩ | h
    · exact absurd (hclose 35 (by decide)) (hnone _ (by omega))
    · exact h
  have hgle := hfirst _ (by omega) (hclose 35 (by decide))
  have hout : cfHtmlToHtml (wrap raw line html) [] =
      some ⟨u, some (((wrap raw line html).drop (g + 1)).take (e - (g + 1)))⟩ := by
    unfold cfHtmlToHtml
    rw [hm, Option.bind_some, if_pos ⟨natCast_ne_npos _, natCast_ne_npos e⟩, substr_natCast hs,
      if_neg (by omega), Option.map_some]
  refine ⟨u, _, hu, hout, ?_⟩
  rcases htags with ⟨hno, ht'⟩ | ⟨hno, t', ht', hlt⟩
  · rw [ht, Option.some.injEq] at ht'
    have hgeq : g = raw.length + (line.length + 35) := by
      obtain ⟨j, rfl⟩ := Nat.exists_eq_add_of_le (show raw.length + line.length ≤ g by omega)
      have hall : ∀ j, 16 ≤ j → j ≤ 35 → startMarkup[j]? = some 62 → j = 35 := by decide
      rw [Nat.add_assoc, ← at_singleton] at hg
      unfold wrap at hg
      rw [at_append_right, at_append_right, at_append_left (by rw [List.length_singleton]; omega),
        at_singleton] at hg
      have hj := hall j (by omega) (by omega) hg
      omega
    refine iff_of_true ?_ hno
    have hg1 : g + 1 = raw.length + (line.length + startMarkup.length) := by omega
    unfold wrap
    rw [heq, hg1, List.drop_length_add_append, List.drop_length_add_append, List.drop_left,
      show ∀ a b c d : Nat, a + (b + (c + d)) - (a + (b + c)) = d by omega, List.take_left]
  · rw [ht, Option.some.injEq] at ht'
    have hg5 := hfirst _ (by omega) (hclose 5 (by decide))
    refine iff_of_false ?_ hno
    intro heq'
    have hl := congrArg List.length heq'
    rw [List.length_take, List.length_drop, hlen] at hl
    omega

/-! ## The base URL -/

/-- The line of the first prefix of a URL. -/
theorem extractBaseUrl_of_at (hl : findFrom sourceUrlPrefix p 0 = some l)
    (hat : At (sourceUrlPrefix ++ (q ++ [10])) p l) (hq : 10 ∉ q) : extractBaseUrl p r = some q := by
  have hpre : 10 ∉ sourceUrlPrefix ++ q := by
    rw [List.mem_append, not_or]
    exact ⟨by decide, hq⟩
  have hlen := hat.le (by simp)
  have htake : (p.take l).length = l := by
    rw [List.length_take]
    omega
  have heq := hat.eq
  simp only [List.append_assoc, List.singleton_append] at heq
  have he := findFrom_singleton hpre (p.take l)
    (p.drop (l + (sourceUrlPrefix ++ (q ++ [10])).length))
  rw [List.append_assoc, ← heq, htake, List.length_append] at he
  rw [(extractBaseUrl_of_line r hl he).1]
  have hdrop : p.drop (l + sourceUrlPrefix.length) =
      q ++ 10 :: p.drop (l + (sourceUrlPrefix ++ (q ++ [10])).length) := by
    rw [← List.drop_drop]
    nth_rewrite 1 [heq]
    rw [List.drop_left' htake, List.drop_left]
  rw [hdrop, show ∀ a b c : Nat, a + (b + c) - (a + b) = c by omega, List.take_left]

theorem at_of_extractBaseUrl (hl : findFrom sourceUrlPrefix p 0 = some l)
    {e : Nat} (he : findFrom [10] p l = some e) (h : extractBaseUrl p r = some q) :
    e = l + (sourceUrlPrefix.length + q.length) ∧ At (sourceUrlPrefix ++ (q ++ [10])) p l := by
  obtain ⟨heq, hle⟩ := extractBaseUrl_of_line r hl he
  have hat := (findFrom_eq_some_iff.1 hl).2.1
  have hnl := (findFrom_eq_some_iff.1 he).2.1
  have hlt := hnl.le (by simp)
  rw [List.length_singleton] at hlt
  rw [h, Option.some.injEq] at heq
  have hlen := congrArg List.length heq
  rw [List.length_take, List.length_drop] at hlen
  refine ⟨by omega, ?_⟩
  have hnext : p.drop e = 10 :: p.drop (e + 1) := by
    rw [List.drop_eq_getElem_cons (by omega)]
    congr 1
    exact Option.some.inj ((List.getElem?_eq_getElem _).symm.trans (at_singleton.1 hnl))
  obtain ⟨rest, hrest⟩ := hat
  refine ⟨p.drop (e + 1), ?_⟩
  have hrest' : rest = p.drop (l + sourceUrlPrefix.length) := by
    rw [← List.drop_drop, ← hrest, List.drop_left]
  rw [← hrest, hrest', List.append_assoc, List.append_assoc, List.append_cancel_left_eq,
    List.singleton_append, ← hnext, heq]
  conv_rhs => rw [← List.take_append_drop (e - (l + sourceUrlPrefix.length)) (p.drop _)]
  rw [List.drop_drop, Nat.add_sub_cancel' hle]

/-- Without a base URL. -/
theorem url_wrap_nil (text : Bytes) :
    extractBaseUrl (text ++ endMarkup) [] = some [] ↔ ∀ l, findFrom sourceUrlPrefix text 0 = some l →
      text[l + sourceUrlPrefix.length]? = some 10 := by
  cases hl : findFrom sourceUrlPrefix (text ++ endMarkup) 0 with
  | none =>
    rw [extractBaseUrl_of_none hl]
    refine iff_of_true rfl fun l hl' => ?_
    exact absurd ((findFrom_eq_some_iff.1 hl').2.1.append endMarkup)
      (findFrom_eq_none_iff.1 hl l (Nat.zero_le _))
  | some l =>
    have hat := (findFrom_eq_some_iff.1 hl).2.1
    have hle : l + sourceUrlPrefix.length ≤ text.length := by
      have hno : NoOverlap sourceUrlPrefix endMarkup := by decide
      have hat' := hat
      rw [← List.append_nil endMarkup] at hat'
      rcases hno.split hat' with hle | hle
      · exact hle
      · obtain ⟨j, rfl⟩ := Nat.exists_eq_add_of_le hle
        rw [at_append_right] at hat
        have hall : ∀ j ≤ endMarkup.length, ¬ At sourceUrlPrefix endMarkup j := by decide
        have hlen := hat.le (by decide)
        exact absurd hat (hall j (by omega))
    have hl' := findFrom_append_left hl hle
    have hnl : At [10] (text ++ endMarkup) (text.length + 19) := (at_append_right text).2 (by decide)
    obtain ⟨e, he, hle', -⟩ := findFrom_of_at hnl (k := l) (by omega)
    constructor
    · intro h l' hl''
      rw [hl', Option.some.injEq] at hl''
      subst hl''
      obtain ⟨rfl, -⟩ := at_of_extractBaseUrl hl he h
      have hnext := at_singleton.1 (findFrom_eq_some_iff.1 he).2.1
      rw [List.length_nil, Nat.add_zero] at hnext
      rw [← hnext]
      by_cases hlt : l + sourceUrlPrefix.length < text.length
      · rw [List.getElem?_append_left hlt]
      · rw [List.getElem?_append_right (by omega),
          show l + sourceUrlPrefix.length - text.length = 0 by omega] at hnext
        exact absurd hnext (by decide)
    · intro h
      refine extractBaseUrl_of_at hl ?_ (by simp)
      have hnext := at_singleton.2 (h l hl')
      obtain ⟨rest, hrest⟩ := hat
      obtain ⟨rest', hrest'⟩ := hnext.append endMarkup
      refine ⟨rest', ?_⟩
      have hd : rest = (text ++ endMarkup).drop (l + sourceUrlPrefix.length) := by
        rw [← List.drop_drop, ← hrest, List.drop_left]
      rw [← hrest, hd, ← hrest', List.nil_append, List.append_assoc]

/-- With a base URL, whose own line ends in `\r`. -/
theorem url_wrap_cons (raw : Bytes) (hlf : 10 ∉ baseUrl) (rest : Bytes) :
    extractBaseUrl (raw ++ (sourceUrlPrefix ++ (baseUrl ++ 13 :: 10 :: rest))) [] = some baseUrl ↔
      ∃ l, findFrom sourceUrlPrefix raw 0 = some l ∧ At (sourceUrlPrefix ++ (baseUrl ++ [10])) raw l := by
  generalize hp : raw ++ (sourceUrlPrefix ++ (baseUrl ++ 13 :: 10 :: rest)) = p
  have happ : ∀ {q i}, At q raw i → At q p i := fun h => hp ▸ h.append _
  have hleft : ∀ {q i}, i + List.length q ≤ raw.length → At q p i → At q raw i :=
    fun hle h => (at_append_left hle).1 (hp ▸ h)
  have hown : At (sourceUrlPrefix ++ ((baseUrl ++ [13]) ++ [10])) p raw.length := by
    rw [← hp]
    refine (at_append_right (i := 0) raw).2 ⟨rest, ?_⟩
    simp only [List.append_assoc, List.drop_zero, List.cons_append, List.nil_append]
  have hown' : At sourceUrlPrefix p raw.length := List.IsPrefix.trans (List.prefix_append _ _) hown
  have hq : 10 ∉ sourceUrlPrefix ++ (baseUrl ++ [13]) := by
    simp only [List.mem_append, not_or]
    exact ⟨by decide, hlf, by decide⟩
  have hline : findFrom [10] p raw.length =
      some (raw.length + (sourceUrlPrefix.length + (baseUrl.length + 1))) := by
    have h := findFrom_singleton hq raw rest
    simp only [List.append_assoc, List.singleton_append, List.length_append, List.length_singleton,
      hp] at h
    exact h
  obtain ⟨l, hl, -, hle⟩ := findFrom_of_at hown' (Nat.zero_le _)
  obtain ⟨-, hat, hmin⟩ := findFrom_eq_some_iff.1 hl
  have hself : NoOverlap sourceUrlPrefix sourceUrlPrefix := by decide
  have hpos : 0 < sourceUrlPrefix.length := by decide
  have hwhere : l + sourceUrlPrefix.length ≤ raw.length ∨ raw.length ≤ l := by
    rw [← hp] at hat
    exact hself.split hat
  rcases hwhere with hin | hge
  · have hl' : findFrom sourceUrlPrefix raw 0 = some l := by
      rw [← hp] at hl
      exact findFrom_append_left hl hin
    obtain ⟨-, hnl, hnlmin⟩ := findFrom_eq_some_iff.1 hline
    obtain ⟨e, he, hle', hele⟩ := findFrom_of_at hnl (k := l) (by omega)
    constructor
    · intro h
      obtain ⟨heq, hfound⟩ := at_of_extractBaseUrl hl he h
      refine ⟨l, hl', ?_⟩
      refine hleft ?_ hfound
      simp only [List.length_append, List.length_singleton]
      -- a line that ended behind the stack would end with the URL's own
      by_contra hc
      have hge : raw.length + (sourceUrlPrefix.length + (baseUrl.length + 1)) ≤ e := by
        by_contra hlt
        exact hnlmin e (by omega) (by omega) (findFrom_eq_some_iff.1 he).2.1
      omega
    · rintro ⟨l', hl'', hfound⟩
      rw [hl', Option.some.injEq] at hl''
      subst hl''
      exact extractBaseUrl_of_at hl (happ hfound) hlf
  · have heq : l = raw.length := by omega
    subst heq
    have hout : extractBaseUrl p [] = some (baseUrl ++ [13]) := by
      refine extractBaseUrl_of_at hl hown ?_
      simp only [List.mem_append, not_or]
      exact ⟨hlf, by decide⟩
    rw [hout]
    refine iff_of_false ?_ ?_
    · intro h
      have hlen := congrArg List.length (Option.some.inj h)
      rw [List.length_append, List.length_singleton] at hlen
      omega
    · rintro ⟨l', hl', -⟩
      have hat' := (findFrom_eq_some_iff.1 hl').2.1
      have hlen := hat'.le (by decide)
      exact hmin l' (Nat.zero_le _) (by omega) (happ hat')

/-! ## The header -/

theorem rawResult_eq (stack html baseUrl : Bytes) :
    rawResult stack html baseUrl = lit "Vers" ++ cString (stack.drop 4) := by
  unfold rawResult snprintf
  dsimp only
  rw [if_neg (by simp [header, lit])]
  rfl

/-- The header has no `<`, and no `o` but that of `Version`. -/
theorem header_chars {d₁ d₂ d₃ d₄ : Bytes} (h₁ : ∀ b ∈ d₁, isDigit b = true)
    (h₂ : ∀ b ∈ d₂, isDigit b = true) (h₃ : ∀ b ∈ d₃, isDigit b = true) (h₄ : ∀ b ∈ d₄, isDigit b = true) :
    ∃ tail, lit "Version:0.9\r\nStartHTML:" ++ d₁ ++ lit "\r\nEndHTML:" ++ d₂ ++
      lit "\r\nStartFragment:" ++ d₃ ++ lit "\r\nEndFragment:" ++ d₄ ++ lit "\r\n" =
        lit "Versio" ++ (tail ++ [10]) ∧ 60 ∉ tail ∧ 111 ∉ tail := by
  have hdigit : ∀ {d : Bytes}, (∀ b ∈ d, isDigit b = true) → 60 ∉ d ∧ 111 ∉ d :=
    fun hd => ⟨fun h => absurd (hd _ h) (by decide), fun h => absurd (hd _ h) (by decide)⟩
  refine ⟨lit "n:0.9\r\nStartHTML:" ++ (d₁ ++ (lit "\r\nEndHTML:" ++ (d₂ ++ (lit "\r\nStartFragment:" ++
    (d₃ ++ (lit "\r\nEndFragment:" ++ (d₄ ++ [13]))))))), ?_, ?_, ?_⟩
  · simp only [List.append_assoc]
    rfl
  all_goals
    simp only [List.mem_append, not_or, hdigit h₁, hdigit h₂, hdigit h₃, hdigit h₄, not_false_eq_true,
      true_and]
    decide

/-- A part of the header from its fifth byte on does not begin like the line of a URL. -/
theorem not_url_in_header {tail stack more rest : Bytes} {c : UInt8} (ho : 111 ∉ tail)
    (h : lit "Versio" ++ (tail ++ [10]) = lit "Vers" ++ stack ++ c :: more)
    (hurl : sourceUrlPrefix <+: c :: more ++ rest) : False := by
  have hcut : 105 :: 111 :: (tail ++ [10]) = stack ++ c :: more := by
    rw [List.append_assoc] at h
    exact List.append_cancel_left
      (show lit "Vers" ++ (105 :: 111 :: (tail ++ [10])) = lit "Vers" ++ (stack ++ c :: more) from h)
  have hS : c = 83 := (List.cons_prefix_cons.1 hurl).1.symm
  subst hS
  rcases stack with _ | ⟨s₀, stack⟩
  · exact absurd (List.cons.inj hcut).1 (by decide)
  · replace hcut := (List.cons.inj hcut).2
    rcases stack with _ | ⟨s₁, stack⟩
    · exact absurd (List.cons.inj hcut).1 (by decide)
    · replace hcut := (List.cons.inj hcut).2
      rcases more with _ | ⟨d, more⟩
      · have hlast := List.append_inj_right' hcut rfl
        exact absurd hlast (by decide)
      · have ho' : d = 111 := (List.cons_prefix_cons.1 (List.cons_prefix_cons.1 hurl).2).1.symm
        have hmem : 111 ∈ tail ++ [10] := by
          rw [hcut, ho']
          simp
        rcases List.mem_append.1 hmem with hmem | hmem
        · exact ho hmem
        · exact absurd hmem (by decide)

theorem headerFor_wrap (hbase : line = sourceUrlLine baseUrl) (stack : Bytes) (html : Bytes)
    (n₁ n₂ n₃ n₄ : Nat) :
    HeaderFor (wrap (lit "Vers" ++ stack) line html) n₁ n₂ n₃ n₄ ↔ HeaderFor (lit "Vers" ++ stack) n₁ n₂ n₃ n₄ := by
  constructor
  · rintro ⟨d₁, d₂, d₃, d₄, rest, heq, h₁, h₂, h₃, h₄⟩
    obtain ⟨rest', hnext⟩ := wrap_next hbase html
    unfold wrap at heq
    rw [hnext] at heq
    obtain ⟨tail, hhead, hopen, ho⟩ := header_chars h₁.digit h₂.digit h₃.digit h₄.digit
    have hbehind : ∃ rest'', lit "Vers" ++ stack = lit "Version:0.9\r\nStartHTML:" ++ d₁ ++
        lit "\r\nEndHTML:" ++ d₂ ++ lit "\r\nStartFragment:" ++ d₃ ++ lit "\r\nEndFragment:" ++ d₄ ++
        lit "\r\n" ++ rest'' := by
      rw [hhead] at heq ⊢
      rcases List.append_eq_append_iff.1 heq with ⟨more, hmore, hsame⟩ | ⟨more, hmore, -⟩
      · cases more with
        | nil => exact ⟨[], by rw [List.append_nil, hmore, List.append_nil]⟩
        | cons c more =>
          exfalso
          split at hsame
          · -- the header would go on with the `<` of the markup
            rw [List.singleton_append, List.cons_append, List.cons.injEq] at hsame
            have hmem : 60 ∈ lit "Versio" ++ (tail ++ [10]) := by
              rw [hmore, ← hsame.1]
              simp
            simp only [List.mem_append, hopen, false_or] at hmem
            exact absurd hmem (by decide)
          · -- or with the `So` of the URL
            have hurl : sourceUrlPrefix <+: c :: more ++ rest := by
              rw [← hsame]
              exact List.prefix_append _ _
            exact not_url_in_header ho hmore hurl
      · exact ⟨more, hmore⟩
    obtain ⟨rest'', hrest⟩ := hbehind
    exact ⟨d₁, d₂, d₃, d₄, rest'', hrest, h₁, h₂, h₃, h₄⟩
  · rintro ⟨d₁, d₂, d₃, d₄, rest, heq, h⟩
    refine ⟨d₁, d₂, d₃, d₄, rest ++ (line ++ (startMarkup ++ (html ++ endMarkup))), ?_, h⟩
    unfold wrap
    rw [heq]
    simp only [List.append_assoc]

/-! ## The round trip -/

theorem line_of (hopen : 60 ∉ baseUrl) : 60 ∉ sourceUrlLine baseUrl := by
  unfold sourceUrlLine
  split
  · simp
  · simp only [List.mem_append, hopen, or_false, not_or]
    exact ⟨by decide, by decide⟩

theorem url_wrap (hlf : 10 ∉ baseUrl) (raw html : Bytes) :
    extractBaseUrl (wrap raw (sourceUrlLine baseUrl) html) [] = some baseUrl ↔ UrlFound raw html baseUrl := by
  unfold UrlFound wrap sourceUrlLine
  split
  · rename_i hbase
    rw [hbase, List.nil_append, ← List.append_assoc startMarkup, ← List.append_assoc raw]
    exact url_wrap_nil _
  · have h := url_wrap_cons raw hlf (startMarkup ++ (html ++ endMarkup))
    simp only [List.append_assoc]
    exact h

end

section
variable {stack html baseUrl : Bytes}

theorem wrap_eq_before (raw : Bytes) : wrap raw (sourceUrlLine baseUrl) html =
    (raw ++ sourceUrlLine baseUrl) ++ (startMarkup ++ html ++ endMarkup) := by
  simp only [wrap, List.append_assoc]

theorem headerFor_rawResult (n₁ n₂ n₃ n₄ : Nat) :
    HeaderFor (wrap (rawResult stack html baseUrl) (sourceUrlLine baseUrl) html) n₁ n₂ n₃ n₄ ↔
      HeaderFor (rawResult stack html baseUrl) n₁ n₂ n₃ n₄ := by
  rw [rawResult_eq]
  exact headerFor_wrap rfl _ html n₁ n₂ n₃ n₄

theorem RoundTrip.lucky (h : RoundTrip stack html baseUrl) (hhtml : html ≠ []) (hlf : 10 ∉ baseUrl)
    (hopen : 60 ∉ baseUrl) : Lucky (lit "Vers" ++ cString (stack.drop 4)) html baseUrl := by
  rw [← rawResult_eq stack html baseUrl]
  obtain ⟨hdecoded, before, hsplit, hat⟩ := h
  obtain ⟨u, h, hu, hout, hiff⟩ := decoded_wrap (rawResult stack html baseUrl) html rfl (line_of hopen)
  rw [htmlToCFHtml_eq stack baseUrl hhtml] at hdecoded hsplit hat
  rw [hout, Option.some.injEq, Decoded.mk.injEq, Option.some.injEq] at hdecoded
  rw [wrap_eq_before, List.append_cancel_right_eq] at hsplit
  refine ⟨hiff.1 hdecoded.2, (url_wrap hlf _ html).1 (by rw [hu, hdecoded.1]), ?_⟩
  rw [← List.length_append, hsplit]
  exact (headerFor_rawResult _ _ _ _).1 hat

theorem Lucky.roundTrip (h : Lucky (lit "Vers" ++ cString (stack.drop 4)) html baseUrl) (hhtml : html ≠ [])
    (hlf : 10 ∉ baseUrl) (hopen : 60 ∉ baseUrl) : RoundTrip stack html baseUrl := by
  rw [← rawResult_eq stack html baseUrl] at h
  obtain ⟨hno, hfound, hat⟩ := h
  have heq := htmlToCFHtml_eq stack baseUrl hhtml
  obtain ⟨u, h, hu, hout, hiff⟩ := decoded_wrap (rawResult stack html baseUrl) html rfl (line_of hopen)
  have hu' := (url_wrap hlf (rawResult stack html baseUrl) html).2 hfound
  rw [hu, Option.some.injEq] at hu'
  refine ⟨by rw [heq, hout, hu', hiff.2 hno], rawResult stack html baseUrl ++ sourceUrlLine baseUrl,
    by rw [heq, wrap_eq_before], ?_⟩
  rw [heq, List.length_append]
  exact (headerFor_rawResult _ _ _ _).2 hat

/-- On a stack that holds a NUL there no round trip succeeds, whatever the HTML. -/
theorem not_roundTrip_clean (hstack : cString (stack.drop 4) = []) (hhtml : html ≠ [])
    (hlf : 10 ∉ baseUrl) (hopen : 60 ∉ baseUrl) : ¬ RoundTrip stack html baseUrl := by
  intro h
  obtain ⟨-, -, d₁, d₂, d₃, d₄, rest, heq, -⟩ := h.lucky hhtml hlf hopen
  rw [hstack] at heq
  have hlen := congrArg List.length heq
  simp [lit] at hlen

end

/-- For every stack, HTML and base URL: the round trip succeeds just when what is read from the
stack is what it takes. -/
theorem roundTrip_iff (stack html baseUrl : Bytes) (hhtml : html ≠ []) (hlf : 10 ∉ baseUrl)
    (hopen : 60 ∉ baseUrl) :
    RoundTrip stack html baseUrl ↔ Lucky (lit "Vers" ++ cString (stack.drop 4)) html baseUrl :=
  ⟨fun h => h.lucky hhtml hlf hopen, fun h => h.roundTrip hhtml hlf hopen⟩

/-- A stack that spells the header of this very fragment. -/
theorem roundTrip_spelled : RoundTrip (lit "\x00\x00\x00\x00" ++ (header 105 178 141 142).drop 4) (lit "x") [] := by
  have hraw : lit "Vers" ++ cString ((lit "\x00\x00\x00\x00" ++ (header 105 178 141 142).drop 4).drop 4) =
      header 105 178 141 142 := by decide +kernel
  refine (roundTrip_iff _ _ _ (by decide) (by decide) (by decide)).2 ?_
  rw [hraw]
  refine ⟨fun m t _ hm _ => ?_, ?_, ?_⟩
  · exact absurd (List.mem_of_getElem? hm.head) (by decide +kernel)
  · intro l hl
    have hnone : findFrom sourceUrlPrefix (header 105 178 141 142 ++ (startMarkup ++ lit "x")) 0 = none := by
      decide +kernel
    rw [hnone] at hl
    cases hl
  · exact ⟨lit "0000000105", lit "0000000178", lit "0000000141", lit "0000000142", [],
      by decide +kernel, ⟨rfl, by decide +kernel, by decide +kernel⟩, ⟨rfl, by decide +kernel, by decide +kernel⟩,
      ⟨rfl, by decide +kernel, by decide +kernel⟩, ⟨rfl, by decide +kernel, by decide +kernel⟩⟩

/-- The base URL comes back with a `\r`. -/
theorem not_roundTrip_url : ¬ ∀ stack html baseUrl : Bytes, html ≠ [] → 0 ∉ html → 0 ∉ baseUrl →
    13 ∉ baseUrl → 10 ∉ baseUrl → 60 ∉ baseUrl → RoundTrip stack html baseUrl := by
  intro h
  have hrun := h [] (lit "x") (lit "http://a/") (by decide) (by decide) (by decide) (by decide) (by decide)
    (by decide)
  exact absurd hrun.decoded (by decide +kernel)

end NplBrowser
