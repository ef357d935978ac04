import NplBrowser.StdString

/-!
# The response that dumps a request (`test_runner.cc`)

`GetDumpResponse` puts a request's contents into a document, and allows a cross-origin request from
the test origins to read it. Whether an origin is one of them is told from how it begins, so a host
whose name goes on behind `tests` or `localhost` counts as well.

A header map is the list of its entries in the order of an iteration.
-/

namespace NplBrowser

/-- `CefRequest::HeaderMap`, a multimap. -/
abbrev HeaderMap := List (Bytes × Bytes)

/-- `std::multimap::insert`, behind the entries with the same key. -/
def HeaderMap.insert (m : HeaderMap) (key value : Bytes) : HeaderMap :=
  m.takeWhile (fun e => ¬ key < e.1) ++ (key, value) :: m.dropWhile (fun e => ¬ key < e.1)

/-- `CefPostDataElement`, by its type. -/
inductive PostDataElement
  | empty
  | bytes (data : Bytes)
  | file (path : Bytes)
deriving DecidableEq

structure CefRequest where
  url : Bytes
  method : Bytes := lit "GET"
  headerMap : HeaderMap := []
  postData : Option (List PostDataElement) := none
deriving DecidableEq

def kTestHost : Bytes := lit "tests"

def kLocalHost : Bytes := lit "localhost"

namespace DumpResponse

def dumpHeader (e : Bytes × Bytes) : Bytes := lit "\n\t" ++ e.1 ++ lit ": " ++ e.2

def dumpElement : PostDataElement → Bytes
  | .bytes data => lit "\n\tBytes: " ++ if data.length = 0 then lit "(empty)" else data
  | .file path => lit "\n\tFile: " ++ path
  | .empty => []

def dumpHeaders (m : HeaderMap) : Bytes :=
  if 0 < m.length then lit "\nHeaders:" ++ m.flatMap dumpHeader else []

def dumpPostData : Option (List PostDataElement) → Bytes
  | some elements => if 0 < elements.length then lit "\nPost Data:" ++ elements.flatMap dumpElement else []
  | none => []

/-- `DumpRequestContents`. -/
def dumpRequestContents (request : CefRequest) : Bytes :=
  lit "URL: " ++ request.url ++ (lit "\nMethod: " ++ request.method) ++ dumpHeaders request.headerMap ++
    dumpPostData request.postData

/-- The loop that looks for the request's origin. -/
def findOrigin : HeaderMap → Bytes
  | [] => []
  | e :: m => if e.1.map toLower = lit "origin" then e.2 else findOrigin m

/-- `GetDumpResponse`: the document and the response headers. -/
def getDumpResponse (request : CefRequest) (responseHeaders : HeaderMap) : Bytes × HeaderMap :=
  let origin := findOrigin request.headerMap
  let responseHeaders :=
    if origin ≠ [] ∧ (find origin (lit "http://" ++ kTestHost) 0 = 0 ∨
        find origin (lit "http://" ++ kLocalHost) 0 = 0) then
      (responseHeaders.insert (lit "Access-Control-Allow-Origin") origin).insert
        (lit "Access-Control-Allow-Headers") (lit "My-Custom-Header")
    else responseHeaders
  (lit "<html><body bgcolor=\"white\"><pre>" ++ dumpRequestContents request ++ lit "</pre></body></html>",
    responseHeaders)

/-! ### Origins -/

/-- An http origin with the given host, on the default port or on another one. -/
def HasHost (origin host : Bytes) : Prop :=
  origin = lit "http://" ++ host ∨
    ∃ port, port ≠ [] ∧ (∀ d ∈ port, isDigit d = true) ∧ origin = lit "http://" ++ host ++ 58 :: port

def TestOrigin (origin : Bytes) : Prop := HasHost origin kTestHost ∨ HasHost origin kLocalHost

/-- The value of the first header whose name is `origin`, whatever its case. -/
def originHeader (m : HeaderMap) : Option Bytes :=
  (m.find? fun e => e.1.map toLower = (lit "Origin").map toLower).map Prod.snd

/-- The value begins like one of the test origins. -/
def Begins (origin : Bytes) : Prop :=
  lit "http://" ++ kTestHost <+: origin ∨ lit "http://" ++ kLocalHost <+: origin

/-- The headers that let the origin of a test page, and no other, read the response. -/
def Grants (request : CefRequest) (responseHeaders result : HeaderMap) : Prop :=
  (∀ origin, originHeader request.headerMap = some origin → TestOrigin origin →
    result = (responseHeaders.insert (lit "Access-Control-Allow-Origin") origin).insert
      (lit "Access-Control-Allow-Headers") (lit "My-Custom-Header")) ∧
  ((∀ origin, originHeader request.headerMap = some origin → ¬ TestOrigin origin) → result = responseHeaders)

section
variable {request : CefRequest} {m : HeaderMap} {origin : Bytes}

theorem findOrigin_eq (m : HeaderMap) : findOrigin m = (originHeader m).getD [] := by
  induction m with
  | nil => rfl
  | cons e m ih =>
    have hname : (lit "Origin").map toLower = lit "origin" := by decide
    unfold originHeader at ih ⊢
    rw [hname] at ih ⊢
    by_cases h : e.1.map toLower = lit "origin"
    · simp [findOrigin, h]
    · simp [findOrigin, h, ih]

theorem TestOrigin.begins (h : TestOrigin origin) : Begins origin := by
  have hpre : ∀ {host}, HasHost origin host → lit "http://" ++ host <+: origin := by
    rintro host (rfl | ⟨port, -, -, rfl⟩)
    exacts [List.prefix_rfl, List.prefix_append _ _]
  exact h.imp hpre hpre

theorem not_begins_nil : ¬ Begins [] := by
  rintro (h | h) <;> exact absurd (List.prefix_nil.1 h) (by decide)

theorem headers_getDumpResponse (request : CefRequest) (responseHeaders : HeaderMap) :
    ((∀ origin, originHeader request.headerMap = some origin → ¬ Begins origin) →
      (getDumpResponse request responseHeaders).2 = responseHeaders) ∧
    ∀ origin, originHeader request.headerMap = some origin → Begins origin →
      (getDumpResponse request responseHeaders).2 =
        (responseHeaders.insert (lit "Access-Control-Allow-Origin") origin).insert
          (lit "Access-Control-Allow-Headers") (lit "My-Custom-Header") := by
  have hheader := findOrigin_eq request.headerMap
  constructor
  · intro h
    refine if_neg ?_
    rintro ⟨-, hbegins⟩
    rw [find_eq_zero_iff, find_eq_zero_iff, hheader] at hbegins
    cases horigin : originHeader request.headerMap with
    | none =>
      rw [horigin] at hbegins
      exact not_begins_nil hbegins
    | some origin =>
      rw [horigin] at hbegins
      exact h origin horigin hbegins
  · intro origin horigin hbegins
    rw [horigin, Option.getD_some] at hheader
    have hne : origin ≠ [] := fun h => not_begins_nil (h ▸ hbegins)
    subst hheader
    exact if_pos ⟨hne, by rwa [find_eq_zero_iff, find_eq_zero_iff]⟩

theorem length_insert (m : HeaderMap) (key value : Bytes) : (m.insert key value).length = m.length + 1 := by
  have h := congrArg List.length (List.takeWhile_append_dropWhile (p := fun e => decide (¬ key < e.1)) (l := m))
  simp only [HeaderMap.insert, List.length_append, List.length_cons] at h ⊢
  omega

end

/-- The response may be read from the test origins alone just when no other origin begins like one. -/
theorem grants_iff (request : CefRequest) (responseHeaders : HeaderMap) :
    Grants request responseHeaders (getDumpResponse request responseHeaders).2 ↔
      ∀ origin, originHeader request.headerMap = some origin → Begins origin → TestOrigin origin := by
  obtain ⟨hnot, hgranted⟩ := headers_getDumpResponse request responseHeaders
  constructor
  · rintro ⟨-, hother⟩ origin horigin hbegins
    by_contra htest
    have hsame : (getDumpResponse request responseHeaders).2 = responseHeaders := by
      refine hother fun o ho => ?_
      rw [horigin, Option.some.injEq] at ho
      rwa [← ho]
    have hlen := congrArg List.length ((hgranted origin horigin hbegins).symm.trans hsame)
    rw [length_insert, length_insert] at hlen
    omega
  · intro h
    refine ⟨fun origin horigin htest => hgranted origin horigin htest.begins, fun hother => hnot ?_⟩
    exact fun origin horigin hbegins => hother origin horigin (h origin horigin hbegins)

/-- The host `tests.example.com` begins like a test host. -/
theorem not_grants_longer : ¬ ∀ (request : CefRequest) (responseHeaders : HeaderMap),
    Grants request responseHeaders (getDumpResponse request responseHeaders).2 := by
  intro h
  have hother := (h { url := [], headerMap := [(lit "Origin", lit "http://tests.example.com")] } []).2 ?_
  · exact absurd hother (by decide +kernel)
  · intro origin horigin htest
    obtain rfl : lit "http://tests.example.com" = origin := Option.some.inj horigin
    have hhost : ∀ host, HasHost (lit "http://tests.example.com") host →
        lit "http://" ++ host = lit "http://tests.example.com" ∨
          lit "http://" ++ host ++ [58] <+: lit "http://tests.example.com" := by
      rintro host (heq | ⟨port, -, -, heq⟩)
      · exact .inl heq.symm
      · exact .inr ⟨port, by rw [heq]; simp⟩
    rcases htest with htest | htest
    · exact absurd (hhost _ htest) (by decide)
    · exact absurd (hhost _ htest) (by decide)

end DumpResponse
end NplBrowser
