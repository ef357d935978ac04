import NplBrowser.StdString

/-!
# The clipboard's HTML format

`HtmlToCFHtml` wraps a fragment of HTML for the clipboard, and `CFHtmlToHtml` takes out what another
application has put there. The decoder looks for the comments around the fragment, and without the
first of them believes the numbers in the header. Nothing compares what it finds with the length
of the text, or the end with the start (`Bounded` is when that does no harm).

The encoder prints the header into an array on the stack that it leaves uninitialised; what the
stack holds from there on is a parameter. `sizeof(1024)` is the size of an `int`, so only four bytes
of the header are ever printed.
-/

namespace NplBrowser

def sourceUrlPrefix : Bytes := lit "SourceURL:"
def htmlTag : Bytes := lit "<html"
def startFragmentTag : Bytes := lit "<!--StartFragment"
def endFragmentTag : Bytes := lit "<!--EndFragment"
def startMarkup : Bytes := lit "<html>\r\n<body>\r\n<!--StartFragment-->"
def endMarkup : Bytes := lit "<!--EndFragment-->\r\n</body>\r\n</html>"

/-! ## The decoder -/

/-- `none` is `npos`; `html_start`, which no caller asks for, is left out. -/
structure Metadata where
  baseUrl : Bytes
  fragmentStart : Int
  fragmentEnd : Int
deriving DecidableEq

/-- The base URL, if there is one, in place of `baseUrl`. -/
def extractBaseUrl (cfHtml baseUrl : Bytes) : Option Bytes :=
  let lineStart := find cfHtml sourceUrlPrefix 0
  if lineStart ≠ npos then
    let srcEnd := find cfHtml [10] lineStart
    let srcStart := lineStart + sourceUrlPrefix.length
    if srcEnd ≠ npos ∧ srcStart ≠ npos then substr cfHtml srcStart (srcEnd - srcStart) else some baseUrl
  else some baseUrl

/-- The number behind the first `label`, in place of `offset`. -/
def headerNumber (cfHtml label : Bytes) (offset : Int) : Int :=
  let start := find cfHtml label 0
  if start ≠ npos then atoi (cfHtml.drop (start.toNat + label.length)) else offset

/-- `CFHtmlExtractMetadata`; `none`: it throws. -/
def cfHtmlExtractMetadata (cfHtml : Bytes) (m : Metadata) : Option Metadata :=
  (extractBaseUrl cfHtml m.baseUrl).map fun baseUrl =>
    let markupStart := find cfHtml htmlTag 0
    let tagStart := find cfHtml startFragmentTag markupStart
    if tagStart = npos then
      { baseUrl
        fragmentStart := headerNumber cfHtml (lit "StartFragment:") m.fragmentStart
        fragmentEnd := headerNumber cfHtml (lit "EndFragment:") m.fragmentEnd }
    else
      let tagEnd := rfind cfHtml endFragmentTag npos
      { baseUrl
        fragmentStart := find cfHtml (lit ">") tagStart + 1
        fragmentEnd := rfind cfHtml (lit "<") tagEnd }

/-- What `CFHtmlToHtml` writes: the base URL, and `html` if it assigns it. -/
structure Decoded where
  baseUrl : Bytes
  html : Option Bytes
deriving DecidableEq

def cfHtmlToHtml (cfHtml baseUrl : Bytes) : Option Decoded :=
  (cfHtmlExtractMetadata cfHtml ⟨baseUrl, npos, npos⟩).bind fun m =>
    if m.fragmentStart ≠ npos ∧ m.fragmentEnd ≠ npos then
      (substr cfHtml m.fragmentStart (m.fragmentEnd - m.fragmentStart)).map fun html =>
        ⟨m.baseUrl, some html⟩
    else some ⟨m.baseUrl, none⟩

/-! ## The encoder -/

/-- `%010u`, which reads 32 bits. -/
def tenDigits (n : Nat) : Bytes :=
  let d := decimal (n % 2 ^ 32)
  List.replicate (10 - d.length) 48 ++ d

/-- The header, with its four numbers printed. -/
def header (startHtml endHtml startFragment endFragment : Nat) : Bytes :=
  lit "Version:0.9\r\nStartHTML:" ++ tenDigits startHtml ++ lit "\r\nEndHTML:" ++ tenDigits endHtml ++
    lit "\r\nStartFragment:" ++ tenDigits startFragment ++ lit "\r\nEndFragment:" ++
    tenDigits endFragment ++ lit "\r\n"

/-- The length of the format, with ten digits for each of its four numbers. -/
def headerLength : Nat := 105

def sourceUrlLine (baseUrl : Bytes) : Bytes :=
  if baseUrl = [] then [] else sourceUrlPrefix ++ baseUrl ++ lit "\r\n"

/-- The string read from `raw_result`. The stack holds `stack` from there on. -/
def rawResult (stack html baseUrl : Bytes) : Bytes :=
  let startHtmlOffset := headerLength + (sourceUrlLine baseUrl).length
  let startFragmentOffset := startHtmlOffset + startMarkup.length
  let endFragmentOffset := startFragmentOffset + html.length
  let endHtmlOffset := endFragmentOffset + endMarkup.length
  cString (snprintf stack 4 (header startHtmlOffset endHtmlOffset startFragmentOffset endFragmentOffset))

def htmlToCFHtml (stack html baseUrl : Bytes) : Bytes :=
  if html = [] then []
  else rawResult stack html baseUrl ++ sourceUrlLine baseUrl ++ startMarkup ++ html ++ endMarkup

example : (header 105 0 0 0).length = headerLength := by decide +kernel

/-! ## When the decoder is safe -/

/-- The start comment that the decoder finds. -/
def startTag (cfHtml : Bytes) : Option Nat :=
  (Search.findFrom htmlTag cfHtml 0).bind (Search.findFrom startFragmentTag cfHtml ·)

/-- The number behind the first `label`. -/
def numberAt (cfHtml label : Bytes) : Option Int :=
  (Search.findFrom label cfHtml 0).map fun i => atoi (cfHtml.drop (i + label.length))

/-- An end comment, or in a text without one any tag. -/
def FragmentEnd (cfHtml : Bytes) (e : Nat) : Prop :=
  Search.At endFragmentTag cfHtml e ∨ (∀ i, ¬ Search.At endFragmentTag cfHtml i) ∧ cfHtml[e]? = some 60

/-- A `>` that closes the start comment at `t`, and an end behind it. -/
structure Closed (cfHtml : Bytes) (t g e : Nat) : Prop where
  start : t ≤ g
  close : cfHtml[g]? = some 62
  order : g < e
  stop : FragmentEnd cfHtml e

/-- The start comment is closed and followed by an end; or both numbers of the header, unless one is
missing or -1, are offsets in order. -/
def Bounded (cfHtml : Bytes) : Prop :=
  match startTag cfHtml with
  | some t => ∃ g e, Closed cfHtml t g e
  | none => ∀ a b, numberAt cfHtml (lit "StartFragment:") = some a →
      numberAt cfHtml (lit "EndFragment:") = some b → a ≠ -1 → b ≠ -1 →
        0 ≤ a ∧ a ≤ b ∧ b ≤ cfHtml.length

/-- Nothing is thrown, and what is assigned to `html` is the text between the two offsets, which are
offsets into the text, in order, and behind the beginning of the start comment if there is one. -/
structure Sound (cfHtml baseUrl : Bytes) : Prop where
  total : cfHtmlToHtml cfHtml baseUrl ≠ none
  bounds : ∀ d h, cfHtmlToHtml cfHtml baseUrl = some d → d.html = some h →
    ∃ (m : Metadata) (s e : Nat), cfHtmlExtractMetadata cfHtml ⟨baseUrl, npos, npos⟩ = some m ∧
      m.fragmentStart = s ∧ m.fragmentEnd = e ∧ s ≤ e ∧ e ≤ cfHtml.length ∧
      h = (cfHtml.drop s).take (e - s) ∧ ∀ t, startTag cfHtml = some t → t < s

/-- Nothing is thrown. -/
def Readable (cfHtml : Bytes) : Prop :=
  startTag cfHtml = none → ∀ a b, numberAt cfHtml (lit "StartFragment:") = some a →
    numberAt cfHtml (lit "EndFragment:") = some b → a ≠ -1 → b ≠ -1 → 0 ≤ a ∧ a ≤ cfHtml.length

/-! ### What the searches find -/

section
variable {cfHtml baseUrl label : Bytes} {m : Metadata} {t l e : Nat} {offset : Int}

theorem headerNumber_eq : headerNumber cfHtml label offset = (numberAt cfHtml label).getD offset := by
  unfold headerNumber numberAt
  rw [find_zero]
  cases Search.findFrom label cfHtml 0 with
  | none => simp
  | some i =>
    dsimp only [Option.map_some, Option.getD_some]
    rw [position_some, if_pos (natCast_ne_npos i), Int.toNat_natCast]

theorem find_startTag :
    find cfHtml startFragmentTag (find cfHtml htmlTag 0) = position (startTag cfHtml) := by
  rw [find_zero, startTag]
  cases hm : Search.findFrom htmlTag cfHtml 0 with
  | none => rw [position_none, find_npos, Option.bind_none, position_none]
  | some i =>
    have hi := (Search.findFrom_eq_some_iff.1 hm).2.1.le (by decide)
    rw [position_some, find_natCast (by omega), Option.bind_some]

/-- The line of the base URL, which ends at `e`. -/
theorem extractBaseUrl_of_line (baseUrl : Bytes) (hl : Search.findFrom sourceUrlPrefix cfHtml 0 = some l)
    (he : Search.findFrom [10] cfHtml l = some e) :
    extractBaseUrl cfHtml baseUrl =
      some ((cfHtml.drop (l + sourceUrlPrefix.length)).take (e - (l + sourceUrlPrefix.length))) ∧
      l + sourceUrlPrefix.length ≤ e := by
  obtain ⟨-, hat, -⟩ := Search.findFrom_eq_some_iff.1 hl
  obtain ⟨hle, hline, -⟩ := Search.findFrom_eq_some_iff.1 he
  have hlen := hat.le (by decide)
  have hend : l + sourceUrlPrefix.length ≤ e := by
    by_contra hc
    have hj := hat.getElem? (j := e - l) (by omega)
    rw [Nat.add_sub_cancel' hle, Search.at_singleton.1 hline] at hj
    exact absurd (List.mem_of_getElem? hj.symm) (by decide)
  refine ⟨?_, hend⟩
  unfold extractBaseUrl
  dsimp only
  rw [find_zero, hl, position_some, find_natCast (by omega), he, position_some,
    if_pos (natCast_ne_npos l),
    ← Nat.cast_add,
    if_pos ⟨natCast_ne_npos _, natCast_ne_npos _⟩, substr_natCast hlen,
    if_neg (by omega)]

theorem extractBaseUrl_of_none (h : Search.findFrom sourceUrlPrefix cfHtml 0 = none) :
    extractBaseUrl cfHtml baseUrl = some baseUrl := by
  unfold extractBaseUrl
  dsimp only
  rw [find_zero, h, position_none, if_neg (by simp)]

theorem extractBaseUrl_ne_none (cfHtml baseUrl : Bytes) : extractBaseUrl cfHtml baseUrl ≠ none := by
  cases hl : Search.findFrom sourceUrlPrefix cfHtml 0 with
  | none =>
    rw [extractBaseUrl_of_none hl]
    exact Option.some_ne_none _
  | some l =>
    cases he : Search.findFrom [10] cfHtml l with
    | some e =>
      rw [(extractBaseUrl_of_line baseUrl hl he).1]
      exact Option.some_ne_none _
    | none =>
      have hlen := (Search.findFrom_eq_some_iff.1 hl).2.1.le (by decide)
      unfold extractBaseUrl
      dsimp only
      rw [find_zero, hl, position_some, find_natCast (by omega), he, position_none,
        if_pos (natCast_ne_npos l), if_neg (by simp)]
      exact Option.some_ne_none _

theorem extract_of_tag (h : startTag cfHtml = some t) :
    cfHtmlExtractMetadata cfHtml m = (extractBaseUrl cfHtml m.baseUrl).map fun baseUrl =>
      ⟨baseUrl, find cfHtml (lit ">") t + 1, rfind cfHtml (lit "<") (rfind cfHtml endFragmentTag npos)⟩ := by
  unfold cfHtmlExtractMetadata
  simp only [find_startTag, h, position_some]
  simp only [if_neg (natCast_ne_npos t)]

theorem extract_of_none (h : startTag cfHtml = none) :
    cfHtmlExtractMetadata cfHtml m = (extractBaseUrl cfHtml m.baseUrl).map fun baseUrl =>
      ⟨baseUrl, (numberAt cfHtml (lit "StartFragment:")).getD m.fragmentStart,
        (numberAt cfHtml (lit "EndFragment:")).getD m.fragmentEnd⟩ := by
  unfold cfHtmlExtractMetadata
  simp only [find_startTag, h, position_none, if_true, headerNumber_eq]

theorem startTag_at (h : startTag cfHtml = some t) : Search.At startFragmentTag cfHtml t := by
  unfold startTag at h
  obtain ⟨i, -, ht⟩ := Option.bind_eq_some_iff.1 h
  exact (Search.findFrom_eq_some_iff.1 ht).2.1

/-- The end that is found is the last one. -/
theorem fragmentEnd_eq (h : startTag cfHtml = some t) :
    ∃ e : Nat, rfind cfHtml (lit "<") (rfind cfHtml endFragmentTag npos) = e ∧ e < cfHtml.length ∧
      FragmentEnd cfHtml e ∧ ∀ i, FragmentEnd cfHtml i → i ≤ e := by
  have hopen : lit "<" = [60] := rfl
  rw [rfind_npos, hopen]
  cases hl : Search.last endFragmentTag cfHtml with
  | some e =>
    obtain ⟨hat, hmax⟩ := (Search.last_eq_some_iff (by decide)).1 hl
    have hlen := hat.le (by decide)
    have hfind : Search.rfindTo [60] cfHtml e = some e :=
      (Search.rfindTo_eq_some_iff (by decide)).2
        ⟨Nat.le_refl e, Search.at_singleton.2 hat.head, fun j h₁ h₂ => absurd h₁ (by omega)⟩
    rw [position_some, rfind_natCast, hfind, position_some]
    have hpos : 0 < endFragmentTag.length := by decide
    refine ⟨e, rfl, by omega, .inl hat, ?_⟩
    rintro i (hi | ⟨hnone, -⟩)
    · exact Nat.le_of_not_lt fun hlt => hmax i hlt hi
    · exact absurd hat (hnone e)
  | none =>
    have hnone := Search.last_eq_none_iff.1 hl
    have htag : Search.At [60] cfHtml t := Search.at_singleton.2 (startTag_at h).head
    rw [position_none, rfind_npos]
    cases hlast : Search.last [60] cfHtml with
    | none => exact absurd htag (Search.last_eq_none_iff.1 hlast t)
    | some e =>
      obtain ⟨hat, hmax⟩ := (Search.last_eq_some_iff (by decide)).1 hlast
      have hlen := hat.le (by decide)
      rw [List.length_singleton] at hlen
      refine ⟨e, rfl, hlen, .inr ⟨hnone, Search.at_singleton.1 hat⟩, ?_⟩
      rintro i (hi | ⟨-, hi⟩)
      · exact absurd hi (hnone i)
      · exact Nat.le_of_not_lt fun hlt => hmax i hlt (Search.at_singleton.2 hi)

/-- With a start comment the decoder assigns, from behind its `>` if there is one, else from the
beginning of the text. -/
theorem cfHtmlToHtml_of_tag (h : startTag cfHtml = some t) :
    ∃ (s e : Nat) (u : Bytes), extractBaseUrl cfHtml m.baseUrl = some u ∧ s ≤ cfHtml.length ∧
      e < cfHtml.length ∧ cfHtmlExtractMetadata cfHtml m = some ⟨u, s, e⟩ ∧ FragmentEnd cfHtml e ∧
      (∀ i, FragmentEnd cfHtml i → i ≤ e) ∧
      (s = 0 ∧ (∀ g, t ≤ g → cfHtml[g]? ≠ some 62) ∨
        ∃ g, s = g + 1 ∧ t ≤ g ∧ cfHtml[g]? = some 62 ∧ ∀ j, t ≤ j → cfHtml[j]? = some 62 → g ≤ j) := by
  obtain ⟨u, hu⟩ := Option.ne_none_iff_exists'.1 (extractBaseUrl_ne_none cfHtml m.baseUrl)
  obtain ⟨e, he, hlt, hstop, hmax⟩ := fragmentEnd_eq h
  have htlen := (startTag_at h).le (by decide)
  rw [extract_of_tag h, hu, he, find_natCast (by omega), Option.map_some]
  have hclose : lit ">" = [62] := rfl
  rw [hclose]
  cases hg : Search.findFrom [62] cfHtml t with
  | none =>
    have hnone := Search.findFrom_eq_none_iff.1 hg
    refine ⟨0, e, u, rfl, Nat.zero_le _, hlt, rfl, hstop, hmax, .inl ⟨rfl, ?_⟩⟩
    exact fun g htg hg => hnone g htg (Search.at_singleton.2 hg)
  | some g =>
    obtain ⟨htg, hat, hmin⟩ := Search.findFrom_eq_some_iff.1 hg
    have hlen := hat.le (by decide)
    refine ⟨g + 1, e, u, rfl, hlen, hlt, rfl, hstop, hmax, .inr ⟨g, rfl, htg, Search.at_singleton.1 hat, ?_⟩⟩
    exact fun j htj hj => Nat.le_of_not_lt fun hlt => hmin j htj hlt (Search.at_singleton.2 hj)

theorem sound_iff_of_tag (h : startTag cfHtml = some t) :
    Sound cfHtml baseUrl ↔ ∃ g e, Closed cfHtml t g e := by
  obtain ⟨s, e, u, -, hs, he, hm, hstop, hmax, hstart⟩ := cfHtmlToHtml_of_tag (m := ⟨baseUrl, npos, npos⟩) h
  have hout : cfHtmlToHtml cfHtml baseUrl =
      some ⟨u, some (if e < s then cfHtml.drop s else (cfHtml.drop s).take (e - s))⟩ := by
    unfold cfHtmlToHtml
    rw [hm, Option.bind_some, if_pos ⟨natCast_ne_npos s, natCast_ne_npos e⟩, substr_natCast hs,
      Option.map_some]
  constructor
  · intro hsound
    obtain ⟨m', s', e', hm', hs', he', hle, -, -, hin⟩ := hsound.bounds _ _ hout rfl
    rw [hm] at hm'
    cases hm'
    have hts := hin t h
    rcases hstart with ⟨rfl, -⟩ | ⟨g, rfl, htg, hg, -⟩
    · dsimp only at hs'
      omega
    · dsimp only at hs' he'
      exact ⟨g, e, htg, hg, by omega, hstop⟩
  · rintro ⟨g', e', htg', hg', hlt, hend⟩
    have he' := hmax e' hend
    rcases hstart with ⟨-, hnone⟩ | ⟨g, rfl, htg, -, hfirst⟩
    · exact absurd hg' (hnone g' htg')
    · have hgg := hfirst g' htg' hg'
      refine ⟨by rw [hout]; exact Option.some_ne_none _, ?_⟩
      intro d html hd hhtml
      rw [hout, Option.some.injEq] at hd
      subst hd
      rw [if_neg (by omega), Option.some.injEq] at hhtml
      refine ⟨_, g + 1, e, hm, rfl, rfl, by omega, by omega, hhtml.symm, ?_⟩
      intro t' ht'
      rw [h, Option.some.injEq] at ht'
      omega

/-- Without a start comment the decoder goes by the two numbers. -/
theorem cfHtmlToHtml_of_none (baseUrl : Bytes) (h : startTag cfHtml = none) :
    ∃ u, cfHtmlExtractMetadata cfHtml ⟨baseUrl, npos, npos⟩ =
        some ⟨u, (numberAt cfHtml (lit "StartFragment:")).getD npos,
          (numberAt cfHtml (lit "EndFragment:")).getD npos⟩ ∧
      ((∀ a b, numberAt cfHtml (lit "StartFragment:") = some a →
          numberAt cfHtml (lit "EndFragment:") = some b → a = -1 ∨ b = -1) ∧
        cfHtmlToHtml cfHtml baseUrl = some ⟨u, none⟩ ∨
      ∃ a b, numberAt cfHtml (lit "StartFragment:") = some a ∧
        numberAt cfHtml (lit "EndFragment:") = some b ∧ a ≠ -1 ∧ b ≠ -1 ∧
        cfHtmlToHtml cfHtml baseUrl = (substr cfHtml a (b - a)).map fun html => ⟨u, some html⟩) := by
  obtain ⟨u, hu⟩ := Option.ne_none_iff_exists'.1 (extractBaseUrl_ne_none cfHtml baseUrl)
  have hm : cfHtmlExtractMetadata cfHtml ⟨baseUrl, npos, npos⟩ =
      some ⟨u, (numberAt cfHtml (lit "StartFragment:")).getD npos,
        (numberAt cfHtml (lit "EndFragment:")).getD npos⟩ := by
    rw [extract_of_none h, hu, Option.map_some]
  refine ⟨u, hm, ?_⟩
  unfold cfHtmlToHtml
  rw [hm, Option.bind_some]
  dsimp only
  split
  · rename_i hne
    right
    cases ha : numberAt cfHtml (lit "StartFragment:") with
    | none => exact absurd (by rw [ha, Option.getD_none]) hne.1
    | some a =>
      cases hb : numberAt cfHtml (lit "EndFragment:") with
      | none => exact absurd (by rw [hb, Option.getD_none]) hne.2
      | some b =>
        rw [ha, hb] at hne
        exact ⟨a, b, rfl, rfl, hne.1, hne.2, rfl⟩
  · rename_i hne
    refine .inl ⟨fun a b ha hb => ?_, rfl⟩
    rw [ha, hb, Option.getD_some, Option.getD_some] at hne
    by_contra hc
    push Not at hc
    exact hne hc

theorem substr_ne_none {s : Bytes} {pos count : Int} :
    substr s pos count ≠ none ↔ 0 ≤ pos ∧ pos ≤ s.length := by
  unfold substr
  split
  · rename_i hout
    simp only [ne_eq, not_true_eq_false, false_iff]
    omega
  · rename_i hin
    simp only [ne_eq, reduceCtorEq, not_false_eq_true, true_iff]
    omega

theorem sound_iff_of_none (h : startTag cfHtml = none) :
    Sound cfHtml baseUrl ↔ ∀ a b, numberAt cfHtml (lit "StartFragment:") = some a →
      numberAt cfHtml (lit "EndFragment:") = some b → a ≠ -1 → b ≠ -1 →
        0 ≤ a ∧ a ≤ b ∧ b ≤ cfHtml.length := by
  obtain ⟨u, hm, ⟨hnone, hout⟩ | ⟨a, b, ha, hb, ha', hb', hout⟩⟩ :=
    cfHtmlToHtml_of_none baseUrl h
  · constructor
    · intro _ a b ha hb ha' hb'
      rcases hnone a b ha hb with h' | h'
      exacts [absurd h' ha', absurd h' hb']
    · intro _
      refine ⟨by rw [hout]; exact Option.some_ne_none _, ?_⟩
      intro d html hd hhtml
      rw [hout, Option.some.injEq] at hd
      subst hd
      cases hhtml
  · constructor
    · intro hsound a₁ b₁ ha₁ hb₁ _ _
      rw [ha, Option.some.injEq] at ha₁
      rw [hb, Option.some.injEq] at hb₁
      subst ha₁ hb₁
      have htotal := hsound.total
      rw [hout] at htotal
      obtain ⟨html, hhtml⟩ := Option.ne_none_iff_exists'.1 (mt Option.map_eq_none_iff.2 htotal)
      rw [hhtml, Option.map_some] at hout
      obtain ⟨m, s, e, hm', hs, he, hle, hlen, -, -⟩ := hsound.bounds _ _ hout rfl
      rw [hm, ha, hb] at hm'
      cases hm'
      dsimp only [Option.getD_some] at hs he
      omega
    · intro hbounds
      obtain ⟨h₀, h₁, h₂⟩ := hbounds a b ha hb ha' hb'
      obtain ⟨s, rfl⟩ := Int.eq_ofNat_of_zero_le h₀
      obtain ⟨e, rfl⟩ := Int.eq_ofNat_of_zero_le (h₀.trans h₁)
      rw [Int.ofNat_le] at h₁ h₂
      rw [substr_natCast (h₁.trans h₂), if_neg (by omega), Option.map_some] at hout
      refine ⟨by rw [hout]; exact Option.some_ne_none _, ?_⟩
      intro d html hd hhtml
      rw [hout, Option.some.injEq] at hd
      subst hd
      rw [Option.some.injEq] at hhtml
      refine ⟨_, s, e, hm, by rw [ha]; rfl, by rw [hb]; rfl, h₁, h₂, hhtml.symm, ?_⟩
      intro t ht
      rw [h] at ht
      cases ht

end

/-- Decoding is total and stays inside of the fragment just for the bounded texts. -/
theorem sound_iff_bounded (cfHtml baseUrl : Bytes) : Sound cfHtml baseUrl ↔ Bounded cfHtml := by
  unfold Bounded
  cases h : startTag cfHtml with
  | some t => exact sound_iff_of_tag h
  | none => exact sound_iff_of_none h

/-- A header whose numbers are beyond the end of the text makes the decoder throw. -/
theorem not_sound_offsets : ¬ ∀ cfHtml baseUrl, Sound cfHtml baseUrl := by
  intro h
  exact (h (lit "StartFragment:99\r\nEndFragment:99") []).total (by decide +kernel)

theorem readable_iff (cfHtml baseUrl : Bytes) : cfHtmlToHtml cfHtml baseUrl ≠ none ↔ Readable cfHtml := by
  unfold Readable
  cases h : startTag cfHtml with
  | some t =>
    obtain ⟨s, e, u, -, hs, -, hm, -⟩ := cfHtmlToHtml_of_tag (m := ⟨baseUrl, npos, npos⟩) h
    unfold cfHtmlToHtml
    rw [hm, Option.bind_some, if_pos ⟨natCast_ne_npos s, natCast_ne_npos e⟩, substr_natCast hs]
    simp
  | none =>
    obtain ⟨u, hm, ⟨hnone, hout⟩ | ⟨a, b, ha, hb, ha', hb', hout⟩⟩ :=
      cfHtmlToHtml_of_none baseUrl h
    · rw [hout]
      simp only [ne_eq, reduceCtorEq, not_false_eq_true, true_iff, forall_const]
      intro a b ha hb ha' hb'
      rcases hnone a b ha hb with h' | h'
      exacts [absurd h' ha', absurd h' hb']
    · rw [hout, ne_eq, Option.map_eq_none_iff, ← ne_eq, substr_ne_none]
      constructor
      · intro hin _ a₁ b₁ ha₁ _ _ _
        rw [ha, Option.some.injEq] at ha₁
        rw [← ha₁]
        exact hin
      · exact fun hin => hin rfl a b ha hb ha' hb'

end NplBrowser
