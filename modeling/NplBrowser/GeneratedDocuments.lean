import NplBrowser.DumpResponse
import NplBrowser.Html
import NplBrowser.StringReplace

/-!
# Texts put into scripts and documents (`test_runner.cc`)

`Alert` escapes the backslash and the quote of a message but no line break, the source and the text of
a page are escaped but for the `&`, and the dump of a request is put into its document as it is.
-/

namespace NplBrowser

open Html

/-- The script `Alert` runs. -/
def alertScript (message : Bytes) : Bytes :=
  let msg := stringReplace message (lit "\\") (lit "\\\\")
  let msg := stringReplace msg (lit "'") (lit "\\'")
  lit "alert('" ++ msg ++ lit "');"

/-- `Visit` in `RunGetSourceTest` and `RunGetTextTest`. -/
def visit (title : String) (string : Bytes) : Bytes :=
  let source := stringReplace string (lit "<") (lit "&lt;")
  let source := stringReplace source (lit ">") (lit "&gt;")
  lit "<html><body bgcolor=\"white\">" ++ lit title ++ lit ":<pre>" ++ source ++ lit "</pre></body></html>"

def getSourceDocument (string : Bytes) : Bytes := visit "Source" string

def getTextDocument (string : Bytes) : Bytes := visit "Text" string

/-- The text of an element of the post data. -/
def PostDataElement.text : PostDataElement → Bytes
  | .bytes data => data
  | .file path => path
  | .empty => []

/-- The texts of a request that are dumped. -/
def CefRequest.texts (request : CefRequest) : List Bytes :=
  request.url :: request.method :: request.headerMap.flatMap (fun e => [e.1, e.2]) ++
    (request.postData.getD []).map PostDataElement.text

/-- The script calls `alert` with a literal whose value is the message. -/
def Alerts (script message : Bytes) : Prop :=
  ∃ s, script = lit "alert('" ++ s ∧ readLiteral s = some (message, lit ");")

/-- Behind the opening tags of the document there is the text and nothing else, up to its closing tags. -/
def Shows (refs : References) (opening document text : Bytes) : Prop :=
  ∃ s, document = opening ++ s ∧ preText refs s = (text, lit "</pre></body></html>")

/-! ### The script -/

section
variable {refs : References} {s t : Bytes}

def escapeQuotes (s : Bytes) : Bytes :=
  s.flatMap fun b => if b = 92 then [92, 92] else if b = 39 then [92, 39] else [b]

theorem alertScript_eq (message : Bytes) :
    alertScript message = lit "alert('" ++ (escapeQuotes message ++ 39 :: lit ");") := by
  have hescape : stringReplace (stringReplace message [92] [92, 92]) [39] [92, 39] = escapeQuotes message := by
    rw [stringReplace_singleton, stringReplace_singleton, List.flatMap_assoc, escapeQuotes]
    congr 1
    funext b
    by_cases h92 : b = 92
    · simp [h92]
    · simp [h92]
  show lit "alert('" ++ stringReplace (stringReplace message [92] [92, 92]) [39] [92, 39] ++ lit "');" = _
  rw [hescape, List.append_assoc]
  rfl

/-- An escaped text is read back, if it stays on its line. -/
theorem readLiteral_escapeQuotes (s t : Bytes) : readLiteral (escapeQuotes s ++ 39 :: t) =
    if 10 ∈ s ∨ 13 ∈ s then none else some (s, t) := by
  induction s with
  | nil =>
    show readLiteral (39 :: t) = _
    unfold readLiteral
    rfl
  | cons b s ih =>
    by_cases h92 : b = 92
    · subst h92
      show readLiteral (92 :: 92 :: (escapeQuotes s ++ 39 :: t)) = _
      simp only [readLiteral, ih]
      by_cases hline : 10 ∈ s ∨ 13 ∈ s <;> simp [hline, escapeValue, isDigit]
    by_cases h39 : b = 39
    · subst h39
      show readLiteral (92 :: 39 :: (escapeQuotes s ++ 39 :: t)) = _
      simp only [readLiteral, ih]
      by_cases hline : 10 ∈ s ∨ 13 ∈ s <;> simp [hline, escapeValue, isDigit]
    have hcons : escapeQuotes (b :: s) = b :: escapeQuotes s := by simp [escapeQuotes, h92, h39]
    rw [hcons, List.cons_append]
    unfold readLiteral
    rw [if_neg h39, if_neg h92, ih]
    by_cases hb : b = 10 ∨ b = 13
    · rw [if_pos hb, if_pos]
      rcases hb with rfl | rfl
      exacts [.inl (.head _), .inr (.head _)]
    · rw [if_neg hb]
      rw [not_or] at hb
      by_cases hline : 10 ∈ s ∨ 13 ∈ s <;> simp [hline, Ne.symm hb.1, Ne.symm hb.2]

theorem alerts_iff (message : Bytes) : Alerts (alertScript message) message ↔ 10 ∉ message ∧ 13 ∉ message := by
  rw [alertScript_eq, ← not_or]
  constructor
  · rintro ⟨s, heq, hread⟩ hline
    rw [List.append_cancel_left_eq] at heq
    rw [← heq, readLiteral_escapeQuotes, if_pos hline] at hread
    cases hread
  · intro hline
    exact ⟨_, rfl, by rw [readLiteral_escapeQuotes, if_neg hline]⟩

/-! ### The documents -/

theorem shows_iff {opening document x text : Bytes} {markup : Bool}
    (hdocument : document = opening ++ (x ++ lit "</pre></body></html>"))
    (hx : readText refs true x = readText refs markup text) :
    Shows refs opening document text ↔ Clean refs markup text ∧ text.head? ≠ some 10 := by
  rw [← preText_eq_iff (t := lit "</pre></body></html>") ⟨rfl, rfl⟩ hx]
  constructor
  · rintro ⟨s, heq, htext⟩
    rw [hdocument, List.append_cancel_left_eq] at heq
    rwa [heq]
  · exact fun h => ⟨_, hdocument, h⟩

theorem visit_eq (title : String) (string : Bytes) :
    visit title string = (lit "<html><body bgcolor=\"white\">" ++ lit title ++ lit ":<pre>") ++
      (Html.escape string ++ lit "</pre></body></html>") := by
  have hescape : stringReplace (stringReplace string [60] (lit "&lt;")) [62] (lit "&gt;") = Html.escape string := by
    rw [stringReplace_singleton, stringReplace_singleton, List.flatMap_assoc, Html.escape]
    congr 1
    funext b
    by_cases h60 : b = 60
    · rw [if_pos h60, if_pos h60]
      decide
    · simp [h60]
  show _ ++ stringReplace (stringReplace string [60] (lit "&lt;")) [62] (lit "&gt;") ++ _ = _
  rw [hescape, List.append_assoc]

theorem visit_shows_iff (title : String) (string : Bytes) :
    Shows refs (lit "<html><body bgcolor=\"white\">" ++ lit title ++ lit ":<pre>") (visit title string) string ↔
      Clean refs false string ∧ string.head? ≠ some 10 :=
  shows_iff (visit_eq title string) (readText_escape string)

/-! ### The dump -/

theorem clean_dumpHeader (e : Bytes × Bytes) :
    Clean refs true (DumpResponse.dumpHeader e) ↔ Clean refs true e.1 ∧ Clean refs true e.2 := by
  have hvalue : Boundary (lit ": " ++ e.2) := boundary_cons (by decide) _
  rw [DumpResponse.dumpHeader, List.append_assoc, List.append_assoc, clean_append_of_plain (by decide),
    clean_append hvalue, clean_append_of_plain (by decide)]

theorem clean_dumpElement (element : PostDataElement) :
    Clean refs true (DumpResponse.dumpElement element) ↔ Clean refs true element.text := by
  rcases element with _ | data | path
  · rfl
  · rw [DumpResponse.dumpElement, clean_append_of_plain (by decide), PostDataElement.text]
    split
    · rename_i hempty
      rw [List.length_eq_zero_iff.1 hempty]
      exact iff_of_true (clean_of_plain (by decide)) trivial
    · rfl
  · exact clean_append_of_plain (by decide) path

theorem boundary_dumpHeader (e : Bytes × Bytes) : Boundary (DumpResponse.dumpHeader e) :=
  boundary_cons (by decide) _

theorem boundary_dumpElement (element : PostDataElement) : Boundary (DumpResponse.dumpElement element) := by
  rcases element with _ | data | path
  exacts [boundary_nil, boundary_cons (by decide) _, boundary_cons (by decide) _]

theorem clean_dumpHeaders (m : HeaderMap) : Clean refs true (DumpResponse.dumpHeaders m) ↔
    ∀ f ∈ m.flatMap (fun e => [e.1, e.2]), Clean refs true f := by
  have hall : (∀ f ∈ m.flatMap (fun e => [e.1, e.2]), Clean refs true f) ↔
      ∀ e ∈ m, Clean refs true (DumpResponse.dumpHeader e) := by
    simp only [List.forall_mem_flatMap, clean_dumpHeader, List.forall_mem_cons, List.not_mem_nil,
      false_imp_iff, implies_true, and_true]
  rw [hall, DumpResponse.dumpHeaders]
  split
  · rw [clean_append_of_plain (by decide), clean_flatMap boundary_dumpHeader]
  · rename_i hempty
    rw [List.length_eq_zero_iff.1 (Nat.eq_zero_of_not_pos hempty)]
    simp [Clean]

theorem clean_dumpPostData (postData : Option (List PostDataElement)) :
    Clean refs true (DumpResponse.dumpPostData postData) ↔
      ∀ f ∈ (postData.getD []).map PostDataElement.text, Clean refs true f := by
  rcases postData with _ | elements
  · simp [DumpResponse.dumpPostData, Clean]
  · rw [Option.getD_some, List.forall_mem_map, DumpResponse.dumpPostData]
    simp only [← clean_dumpElement]
    split
    · rw [clean_append_of_plain (by decide), clean_flatMap boundary_dumpElement]
    · rename_i hempty
      rw [List.length_eq_zero_iff.1 (Nat.eq_zero_of_not_pos hempty)]
      simp [Clean]

theorem boundary_dumpHeaders (m : HeaderMap) : Boundary (DumpResponse.dumpHeaders m) := by
  rw [DumpResponse.dumpHeaders]
  split
  exacts [boundary_cons (by decide) _, boundary_nil]

theorem boundary_dumpPostData (postData : Option (List PostDataElement)) :
    Boundary (DumpResponse.dumpPostData postData) := by
  rcases postData with _ | elements
  · exact boundary_nil
  · rw [DumpResponse.dumpPostData]
    split
    exacts [boundary_cons (by decide) _, boundary_nil]

theorem clean_dumpRequestContents (request : CefRequest) :
    Clean refs true (DumpResponse.dumpRequestContents request) ↔ ∀ f ∈ request.texts, Clean refs true f := by
  have hmethod : Boundary (lit "\nMethod: " ++ request.method) := boundary_cons (by decide) _
  rw [DumpResponse.dumpRequestContents, clean_append (boundary_dumpPostData _),
    clean_append (boundary_dumpHeaders _), clean_append hmethod, clean_append_of_plain (by decide),
    clean_append_of_plain (by decide), clean_dumpHeaders, clean_dumpPostData, CefRequest.texts,
    List.cons_append, List.cons_append, List.forall_mem_cons, List.forall_mem_cons, List.forall_mem_append,
    and_assoc, and_assoc]

theorem dump_shows_iff (request : CefRequest) (responseHeaders : HeaderMap) :
    Shows refs (lit "<html><body bgcolor=\"white\"><pre>")
        (DumpResponse.getDumpResponse request responseHeaders).1 (DumpResponse.dumpRequestContents request) ↔
      ∀ f ∈ request.texts, Clean refs true f := by
  have hdocument : (DumpResponse.getDumpResponse request responseHeaders).1 =
      lit "<html><body bgcolor=\"white\"><pre>" ++
        (DumpResponse.dumpRequestContents request ++ lit "</pre></body></html>") := List.append_assoc _ _ _
  rw [shows_iff hdocument rfl, clean_dumpRequestContents]
  refine and_iff_left ?_
  show some (85 : UInt8) ≠ some 10
  decide

end

/-- The script alerts the message just when it is on one line, the documents show a page's source or text
just when no reference can be read in it and nothing that is dropped or replaced, and a dump is shown just
when none of its texts holds a reference, markup or anything dropped or replaced. -/
theorem embedded_iff (refs : References) :
    (∀ message, Alerts (alertScript message) message ↔ 10 ∉ message ∧ 13 ∉ message) ∧
    (∀ string, Shows refs (lit "<html><body bgcolor=\"white\">Source:<pre>") (getSourceDocument string) string ↔
      Clean refs false string ∧ string.head? ≠ some 10) ∧
    (∀ string, Shows refs (lit "<html><body bgcolor=\"white\">Text:<pre>") (getTextDocument string) string ↔
      Clean refs false string ∧ string.head? ≠ some 10) ∧
    ∀ request responseHeaders,
      Shows refs (lit "<html><body bgcolor=\"white\"><pre>")
          (DumpResponse.getDumpResponse request responseHeaders).1 (DumpResponse.dumpRequestContents request) ↔
        ∀ f ∈ request.texts, Clean refs true f :=
  ⟨alerts_iff, visit_shows_iff "Source", visit_shows_iff "Text", dump_shows_iff⟩

/-- A line break, an `&lt;` in a page and a tag in a header. -/
theorem not_embedded :
    ¬ Alerts (alertScript (lit "a\nb")) (lit "a\nb") ∧
    ¬ Shows .basic (lit "<html><body bgcolor=\"white\">Source:<pre>") (getSourceDocument (lit "&lt;")) (lit "&lt;") ∧
    ¬ Shows .basic (lit "<html><body bgcolor=\"white\">Text:<pre>") (getTextDocument (lit "&lt;")) (lit "&lt;") ∧
    ¬ Shows .basic (lit "<html><body bgcolor=\"white\"><pre>")
      (DumpResponse.getDumpResponse { url := lit "http://tests/request", headerMap := [(lit "A", lit "<b>")] } []).1
      (DumpResponse.dumpRequestContents
        { url := lit "http://tests/request", headerMap := [(lit "A", lit "<b>")] }) := by
  have hlt : ¬ Clean .basic false (lit "&lt;") := fun h => absurd (h.1.2.2.1 rfl) (by decide)
  refine ⟨fun h => absurd ((alerts_iff _).1 h).1 (by decide),
    fun h => hlt ((visit_shows_iff "Source" _).1 h).1, fun h => hlt ((visit_shows_iff "Text" _).1 h).1,
    fun h => ?_⟩
  have htag := (dump_shows_iff _ _).1 h (lit "<b>") (by simp [CefRequest.texts])
  exact absurd (htag.1.2.2.2 rfl rfl) (by decide)

end NplBrowser
