import Mathlib.Data.List.TakeWhile
import NplBrowser.CFHtml

/-!
# Drag data and data objects

`DragDataToDataObject` stores what is dragged in global memory, a block for each clipboard format;
`DataObjectToDragData` reads the blocks back. A link is stored under one format as its URL and its
title with a newline between them, and divided at the last newline, so a title with a newline comes
back without its first lines, which have gone to the URL (`link_roundTrip_iff`).

`CefDragData` is a record here whose getters give what its setters were given. Allocations succeed,
and the formats that are registered are different.
-/

namespace NplBrowser

/-- `std::wstring`. -/
abbrev Wide := List UInt16

inductive ClipFormat
  | unicodeText
  | text
  | hdrop
  | mozUrl
  | html
  | fileDescriptor
  | fileContents
deriving DecidableEq

structure DragData where
  isLink : Bool := false
  linkURL : Wide := []
  linkTitle : Wide := []
  fragmentText : Wide := []
  fragmentHtml : Wide := []
  fragmentBaseURL : Wide := []
  fileName : Wide := []
  fileContents : Bytes := []
  /-- Path and display name. -/
  files : List (Wide × Wide) := []

/-- The conversions of `CefString` and `DragQueryFileW`, which are not part of the sources. -/
structure DragEnv where
  toUtf8 : Wide → Bytes
  ofUtf8 : Bytes → Wide
  dragQueryFiles : Bytes → List Wide

/-- The formats with their blocks of global memory. -/
abbrev DataObject := List (ClipFormat × Bytes)

/-! ## Strings in memory -/

/-- Two bytes a character, the low one first. -/
def wideBytes (s : Wide) : Bytes :=
  s.flatMap fun c => [UInt8.ofNat (c.toNat % 256), UInt8.ofNat (c.toNat / 256)]

/-- `GetStorageForString`, with the NUL. -/
def storageForWide (s : Wide) : Bytes := wideBytes (s ++ [0])

def storageForString (s : Bytes) : Bytes := s ++ [0]

/-- The `std::wstring` constructed from a pointer into the memory. -/
def readWide : Bytes → Wide
  | a :: b :: m =>
    let c := UInt16.ofNat (a.toNat + 256 * b.toNat)
    if c = 0 then [] else c :: readWide m
  | _ => []

theorem readWide_storage {s : Wide} (hs : 0 ∉ s) : readWide (storageForWide s) = s := by
  induction s with
  | nil => rfl
  | cons c s ih =>
    simp only [List.mem_cons, not_or] at hs
    have hlt : c.toNat < 2 ^ 16 := c.toNat_lt
    have hchar : UInt16.ofNat ((UInt8.ofNat (c.toNat % 256)).toNat +
        256 * (UInt8.ofNat (c.toNat / 256)).toNat) = c := by
      rw [UInt8.toNat_ofNat', UInt8.toNat_ofNat']
      apply UInt16.toNat_inj.1
      rw [UInt16.toNat_ofNat']
      omega
    show readWide (_ :: _ :: storageForWide s) = _
    unfold readWide
    rw [hchar, if_neg (Ne.symm hs.1), ih hs.2]

/-! ## The two conversions -/

/-- `GetStorageForFileDescriptor`; of the descriptor only the name is kept. -/
def storageForFileDescriptor (fileName : Wide) : Bytes := storageForWide (fileName.take 259)

def mozUrl (d : DragData) : Wide := d.linkURL ++ [10] ++ d.linkTitle

def textBlock (d : DragData) : DataObject :=
  if d.fragmentText = [] then [] else [(.unicodeText, storageForWide d.fragmentText)]

def linkBlock (d : DragData) : DataObject :=
  if d.isLink = true ∧ d.linkURL ≠ [] then [(.mozUrl, storageForWide (mozUrl d))] else []

def htmlBlock (env : DragEnv) (stack : Bytes) (d : DragData) : DataObject :=
  if d.fragmentHtml = [] then [] else
    [(.html, storageForString
      (htmlToCFHtml stack (env.toUtf8 d.fragmentHtml) (env.toUtf8 d.fragmentBaseURL)))]

def fileBlocks (d : DragData) : DataObject :=
  if d.fileContents = [] then [] else
    [(.fileDescriptor, storageForFileDescriptor d.fileName), (.fileContents, d.fileContents)]

def dragDataToDataObject (env : DragEnv) (stack : Bytes) (d : DragData) : DataObject :=
  textBlock d ++ linkBlock d ++ htmlBlock env stack d ++ fileBlocks d

/-- `DataObjectWin::GetData`: the first block stored under the format. -/
def DataObject.getData (o : DataObject) (f : ClipFormat) : Option Bytes :=
  (o.find? fun e => e.1 == f).map (·.2)

/-- The last component of a path. -/
def displayName (path : Wide) : Wide := afterLast 92 path

/-- What `DataObjectToDragData` does with one block; `none`: it throws. -/
def readFormat (env : DragEnv) (f : ClipFormat) (m : Bytes) (d : DragData) : Option DragData :=
  match f with
  | .unicodeText => some { d with fragmentText := readWide m }
  | .text => some { d with fragmentText := env.ofUtf8 (cString m) }
  | .mozUrl =>
    let html := readWide m
    let pos := rfind html [10] npos
    (substr html 0 pos).bind fun url =>
      (substr html (pos + 1) npos).map fun title => { d with linkURL := url, linkTitle := title }
  | .html =>
    (cfHtmlToHtml (cString m) []).map fun r =>
      { d with
        fragmentHtml := env.ofUtf8 (r.html.getD [])
        fragmentBaseURL := env.ofUtf8 r.baseUrl }
  | .hdrop =>
    some { d with files := d.files ++ (env.dragQueryFiles m).map fun path => (path, displayName path) }
  | .fileDescriptor | .fileContents => some d

/-- The formats in their order. -/
def readFormats (env : DragEnv) (o : DataObject) : DataObject → DragData → Option DragData
  | [], d => some d
  | e :: es, d =>
    match o.getData e.1 with
    | some m => (readFormat env e.1 m d).bind (readFormats env o es)
    | none => readFormats env o es d

def dataObjectToDragData (env : DragEnv) (o : DataObject) : Option DragData := readFormats env o o {}

/-! ## Every block is read as what it was stored as -/

/-- The blocks themselves, without looking each up by its format. -/
def readBlocks (env : DragEnv) : DataObject → DragData → Option DragData
  | [], d => some d
  | e :: es, d => (readFormat env e.1 e.2 d).bind (readBlocks env es)

section
variable {env : DragEnv} {o es es' : DataObject} {d d' : DragData} {f : ClipFormat} {m stack : Bytes}
variable {u t : Wide}

theorem getData_of_mem (hnodup : (o.map (·.1)).Nodup) (h : (f, m) ∈ o) : o.getData f = some m := by
  induction o with
  | nil => simp at h
  | cons e o ih =>
    unfold DataObject.getData
    rw [List.map_cons, List.nodup_cons] at hnodup
    rcases List.mem_cons.1 h with rfl | h
    · rw [List.find?_cons_of_pos (by simp), Option.map_some]
    · have hne : (e.1 == f) = false := by
        rw [beq_eq_false_iff_ne]
        rintro rfl
        exact hnodup.1 (List.mem_map_of_mem (f := (·.1)) h)
      rw [List.find?_cons_of_neg (by simp [hne])]
      exact ih hnodup.2 h

theorem readFormats_eq (hnodup : (o.map (·.1)).Nodup) (hsub : ∀ e ∈ es, e ∈ o) (d : DragData) :
    readFormats env o es d = readBlocks env es d := by
  induction es generalizing d with
  | nil => rfl
  | cons e es ih =>
    unfold readFormats readBlocks
    rw [getData_of_mem hnodup (hsub e (.head _))]
    dsimp only
    congr 1
    funext d'
    exact ih (fun e' he' => hsub e' (.tail _ he')) d'

theorem readBlocks_append (es es' : DataObject) (d : DragData) :
    readBlocks env (es ++ es') d = (readBlocks env es d).bind (readBlocks env es') := by
  induction es generalizing d with
  | nil => rfl
  | cons e es ih =>
    rw [List.cons_append, readBlocks, readBlocks, Option.bind_assoc]
    congr 1
    funext d'
    exact ih d'

/-- One block for each format, in a fixed order. -/
theorem formats_nodup (env : DragEnv) (stack : Bytes) (d : DragData) :
    ((dragDataToDataObject env stack d).map (·.1)).Nodup := by
  have hall : List.Nodup [ClipFormat.unicodeText, .mozUrl, .html, .fileDescriptor, .fileContents] := by
    decide
  refine hall.sublist ?_
  unfold dragDataToDataObject
  rw [List.map_append, List.map_append, List.map_append]
  have htext : ((textBlock d).map (·.1)).Sublist [.unicodeText] := by
    unfold textBlock
    split <;> simp
  have hlink : ((linkBlock d).map (·.1)).Sublist [.mozUrl] := by
    unfold linkBlock
    split <;> simp
  have hhtml : ((htmlBlock env stack d).map (·.1)).Sublist [.html] := by
    unfold htmlBlock
    split <;> simp
  have hfile : ((fileBlocks d).map (·.1)).Sublist [.fileDescriptor, .fileContents] := by
    unfold fileBlocks
    split <;> simp
  exact ((htext.append hlink).append hhtml).append hfile

theorem dataObjectToDragData_eq (env : DragEnv) (stack : Bytes) (d : DragData) :
    dataObjectToDragData env (dragDataToDataObject env stack d) =
      readBlocks env (dragDataToDataObject env stack d) {} :=
  readFormats_eq (formats_nodup env stack d) (fun _ he => he) {}

/-! ## The link -/

/-- What the last newline divides a stored link into. -/
theorem readFormat_mozUrl (hu : 0 ∉ u) (ht : 0 ∉ t) (env : DragEnv) (d : DragData) :
    ∃ url title, readFormat env .mozUrl (storageForWide (u ++ [10] ++ t)) d =
        some { d with linkURL := url, linkTitle := title } ∧ (url = u ∧ title = t ↔ 10 ∉ t) := by
  have hs : 0 ∉ u ++ [10] ++ t := by
    simp only [List.mem_append, hu, ht, or_false, false_or]
    decide
  have hown : Search.At [10] (u ++ [10] ++ t) (u.length + 0) := by
    rw [List.append_assoc, Search.at_append_right]
    exact List.prefix_append _ _
  unfold readFormat
  dsimp only
  rw [readWide_storage hs, rfind_npos]
  cases hi : Search.last [10] (u ++ [10] ++ t) with
  | none => exact absurd hown (Search.last_eq_none_iff.1 hi _)
  | some i =>
    obtain ⟨hat, hmax⟩ := (Search.last_eq_some_iff (by simp)).1 hi
    have hge : u.length ≤ i := Nat.le_of_not_lt fun hlt => hmax _ hlt hown
    have hlen := hat.le (by simp)
    rw [List.length_singleton] at hlen
    refine ⟨(u ++ [10] ++ t).take i, (u ++ [10] ++ t).drop (i + 1), ?_, ?_⟩
    · unfold substr
      rw [position_some, if_neg (by omega), if_neg (by omega), if_neg (by omega), if_pos (by decide),
        Int.toNat_zero, List.drop_zero, Int.toNat_natCast, Option.bind_some, Option.map_some]
      congr 4
    · constructor
      · rintro ⟨htake, -⟩ hmem
        obtain ⟨j, hj⟩ := List.mem_iff_getElem?.1 hmem
        have hlater : Search.At [10] (u ++ [10] ++ t) ((u ++ [10]).length + j) := by
          rw [Search.at_append_right]
          exact Search.at_singleton.2 hj
        have hle : (u ++ [10]).length + j ≤ i := Nat.le_of_not_lt fun hlt => hmax _ hlt hlater
        rw [List.length_append, List.length_singleton] at hle
        have hl := congrArg List.length htake
        rw [List.length_take] at hl
        omega
      · intro hnot
        have heq : i = u.length := by
          by_contra hne
          obtain ⟨j, rfl⟩ := Nat.exists_eq_add_of_le (show (u ++ [10]).length ≤ i by
            rw [List.length_append, List.length_singleton]; omega)
          rw [Search.at_append_right] at hat
          exact hnot (List.mem_of_getElem? (Search.at_singleton.1 hat))
        rw [heq, List.append_assoc, List.take_left, List.singleton_append, ← List.drop_drop, List.drop_left]
        exact ⟨rfl, rfl⟩

/-- Blocks of other formats leave the link alone. -/
theorem readFormat_link (h : readFormat env f m d = some d') (hf : f ≠ .mozUrl) :
    d'.linkURL = d.linkURL ∧ d'.linkTitle = d.linkTitle := by
  unfold readFormat at h
  split at h
  · cases h
    exact ⟨rfl, rfl⟩
  · cases h
    exact ⟨rfl, rfl⟩
  · exact absurd rfl hf
  · obtain ⟨r, -, rfl⟩ := Option.map_eq_some_iff.1 h
    exact ⟨rfl, rfl⟩
  all_goals
    cases h
    exact ⟨rfl, rfl⟩

theorem readBlocks_link (h : ∀ e ∈ es, e.1 ≠ .mozUrl) (hd : readBlocks env es d = some d') :
    d'.linkURL = d.linkURL ∧ d'.linkTitle = d.linkTitle := by
  induction es generalizing d with
  | nil =>
    cases hd
    exact ⟨rfl, rfl⟩
  | cons e es ih =>
    obtain ⟨d₁, hd₁, hrest⟩ := Option.bind_eq_some_iff.1 hd
    have hlink := readFormat_link hd₁ (h e (.head _))
    have hih := ih (fun e he => h e (.tail _ he)) hrest
    exact ⟨hih.1.trans hlink.1, hih.2.trans hlink.2⟩

/-- Only CF_HTML and a link are read by code that can throw. -/
theorem readBlocks_other (env : DragEnv) (h : ∀ e ∈ es, e.1 ≠ .mozUrl ∧ e.1 ≠ .html) (d : DragData) :
    ∃ d', readBlocks env es d = some d' := by
  induction es generalizing d with
  | nil => exact ⟨d, rfl⟩
  | cons e es ih =>
    obtain ⟨f, m⟩ := e
    have hf := h _ (.head _)
    obtain ⟨d₁, hd₁⟩ : ∃ d₁, readFormat env f m d = some d₁ := by
      cases f with
      | mozUrl => exact absurd rfl hf.1
      | html => exact absurd rfl hf.2
      | _ => exact ⟨_, rfl⟩
    rw [readBlocks, hd₁]
    exact ih (fun e he => h e (.tail _ he)) d₁

theorem cString_storage (s : Bytes) : cString (storageForString s) = cString s := by
  unfold cString storageForString
  induction s with
  | nil => rfl
  | cons b s ih =>
    rw [List.cons_append, List.takeWhile_cons, List.takeWhile_cons, ih]

/-- The CF_HTML text that is read back, if there is any, has a fragment that begins inside of it. -/
def HtmlReadable (env : DragEnv) (stack : Bytes) (d : DragData) : Prop :=
  d.fragmentHtml ≠ [] → 0 ∈ env.toUtf8 d.fragmentBaseURL →
    Readable (cString (htmlToCFHtml stack (env.toUtf8 d.fragmentHtml) (env.toUtf8 d.fragmentBaseURL)))

/-- Up to the first NUL the text has the start comment, unless the NUL is in the base URL. -/
theorem readable_htmlToCFHtml (stack html : Bytes) {baseUrl : Bytes} (h : 0 ∉ baseUrl) :
    Readable (cString (htmlToCFHtml stack html baseUrl)) := by
  unfold htmlToCFHtml
  split
  · intro _ a _ ha
    simp [cString, numberAt, Search.findFrom, Search.first, lit] at ha
  · intro hnone
    exfalso
    have hclean : ∀ b ∈ rawResult stack html baseUrl ++ sourceUrlLine baseUrl ++ startMarkup, b ≠ 0 := by
      have hraw : 0 ∉ rawResult stack html baseUrl := fun hmem => by
        simpa using List.mem_takeWhile_imp hmem
      have hline : 0 ∉ sourceUrlLine baseUrl := by
        unfold sourceUrlLine
        split
        · simp
        · simp only [List.mem_append, h, or_false, not_or]
          exact ⟨by decide, by decide⟩
      rintro b hb rfl
      simp only [List.mem_append, hraw, hline, false_or] at hb
      exact absurd hb (by decide)
    have hcut : cString (rawResult stack html baseUrl ++ sourceUrlLine baseUrl ++ startMarkup ++ html ++
        endMarkup) = (rawResult stack html baseUrl ++ sourceUrlLine baseUrl) ++
          (startMarkup ++ cString (html ++ endMarkup)) := by
      unfold cString
      rw [List.append_assoc _ html, List.takeWhile_append_of_pos (by simpa using hclean),
        List.append_assoc _ startMarkup]
    rw [hcut] at hnone
    have hhtml : Search.At htmlTag ((rawResult stack html baseUrl ++ sourceUrlLine baseUrl) ++
        (startMarkup ++ cString (html ++ endMarkup)))
          ((rawResult stack html baseUrl ++ sourceUrlLine baseUrl).length + 0) :=
      (Search.at_append_right _).2 ((show Search.At htmlTag startMarkup 0 by decide).append _)
    have htag : Search.At startFragmentTag ((rawResult stack html baseUrl ++ sourceUrlLine baseUrl) ++
        (startMarkup ++ cString (html ++ endMarkup)))
          ((rawResult stack html baseUrl ++ sourceUrlLine baseUrl).length + 16) :=
      (Search.at_append_right _).2 ((show Search.At startFragmentTag startMarkup 16 by decide).append _)
    obtain ⟨i, hi, -, hle⟩ := Search.findFrom_of_at hhtml (Nat.zero_le _)
    obtain ⟨j, hj, -⟩ := Search.findFrom_of_at htag (k := i) (by omega)
    rw [startTag, hi, Option.bind_some, hj] at hnone
    cases hnone

theorem readBlocks_html (env : DragEnv) (stack : Bytes) (d d' : DragData) :
    (∃ d'', readBlocks env (htmlBlock env stack d) d' = some d'') ↔ HtmlReadable env stack d := by
  unfold htmlBlock HtmlReadable
  split
  · rename_i hhtml
    exact iff_of_true ⟨d', rfl⟩ fun h => absurd hhtml h
  · rename_i hhtml
    rw [← Option.ne_none_iff_exists', readBlocks]
    unfold readFormat
    dsimp only
    rw [cString_storage, ne_eq, Option.bind_eq_none_iff]
    have hread := readable_iff (cString (htmlToCFHtml stack (env.toUtf8 d.fragmentHtml)
      (env.toUtf8 d.fragmentBaseURL))) []
    constructor
    · intro h _ _
      rw [← hread]
      intro hnone
      exact h fun r hr => by
        rw [hnone] at hr
        cases hr
    · intro h
      have hok : Readable (cString (htmlToCFHtml stack (env.toUtf8 d.fragmentHtml)
          (env.toUtf8 d.fragmentBaseURL))) := by
        by_cases h0 : 0 ∈ env.toUtf8 d.fragmentBaseURL
        exacts [h hhtml h0, readable_htmlToCFHtml stack _ h0]
      obtain ⟨r, hr⟩ := Option.ne_none_iff_exists'.1 (hread.2 hok)
      rw [hr]
      intro hall
      exact absurd (hall _ rfl) (Option.some_ne_none _)

theorem readBlocks_mozUrl (env : DragEnv) (hurl : d.linkURL ≠ []) (hu : 0 ∉ d.linkURL) (ht : 0 ∉ d.linkTitle)
    (hd : d'.linkURL = []) :
    ∃ d'', readBlocks env (linkBlock d) d' = some d'' ∧
      (d''.linkURL = d.linkURL ∧ d''.linkTitle = d.linkTitle ↔ d.isLink = true ∧ 10 ∉ d.linkTitle) := by
  unfold linkBlock
  by_cases hlink : d.isLink = true
  · obtain ⟨url, title, hread, hiff⟩ := readFormat_mozUrl hu ht env d'
    rw [if_pos ⟨hlink, hurl⟩, readBlocks, mozUrl, hread]
    exact ⟨_, rfl, hiff.trans (and_iff_right hlink).symm⟩
  · rw [if_neg fun h => hlink h.1]
    refine ⟨d', rfl, iff_of_false ?_ fun h => hlink h.1⟩
    rw [hd]
    exact fun h => hurl h.1.symm

end

/-- A link survives the two conversions just when it is stored, its title has no newline, and the
HTML stored with it can be read. -/
theorem link_roundTrip_iff (env : DragEnv) (stack : Bytes) (d : DragData) (hurl : d.linkURL ≠ [])
    (hu : 0 ∉ d.linkURL) (ht : 0 ∉ d.linkTitle) :
    (∃ d', dataObjectToDragData env (dragDataToDataObject env stack d) = some d' ∧
      d'.linkURL = d.linkURL ∧ d'.linkTitle = d.linkTitle) ↔
      d.isLink = true ∧ 10 ∉ d.linkTitle ∧ HtmlReadable env stack d := by
  rw [dataObjectToDragData_eq, dragDataToDataObject, readBlocks_append, readBlocks_append, readBlocks_append]
  have htext : ∀ e ∈ textBlock d, e.1 ≠ .mozUrl ∧ e.1 ≠ .html := by
    unfold textBlock
    split <;> simp
  have hhtml : ∀ e ∈ htmlBlock env stack d, e.1 ≠ .mozUrl := by
    unfold htmlBlock
    split <;> simp
  have hfile : ∀ e ∈ fileBlocks d, e.1 ≠ .mozUrl ∧ e.1 ≠ .html := by
    unfold fileBlocks
    split <;> simp
  obtain ⟨dA, hA⟩ := readBlocks_other env htext {}
  have hAlink := readBlocks_link (fun e he => (htext e he).1) hA
  obtain ⟨dB, hB, hiff⟩ := readBlocks_mozUrl env hurl hu ht hAlink.1
  have hC := readBlocks_html env stack d dB
  rw [hA, Option.bind_some, hB, Option.bind_some, ← and_assoc, ← hiff]
  constructor
  · rintro ⟨d', hd', hlink⟩
    obtain ⟨dC, hdC, hD⟩ := Option.bind_eq_some_iff.1 hd'
    have hlink₁ := readBlocks_link hhtml hdC
    have hlink₂ := readBlocks_link (fun e he => (hfile e he).1) hD
    rw [hlink₂.1, hlink₂.2, hlink₁.1, hlink₁.2] at hlink
    exact ⟨hlink, hC.1 ⟨dC, hdC⟩⟩
  · rintro ⟨hlink, hok⟩
    obtain ⟨dC, hdC⟩ := hC.2 hok
    obtain ⟨d', hD⟩ := readBlocks_other env hfile dC
    have hlink₁ := readBlocks_link hhtml hdC
    have hlink₂ := readBlocks_link (fun e he => (hfile e he).1) hD
    rw [hdC, Option.bind_some, hD]
    refine ⟨d', rfl, ?_⟩
    rw [hlink₂.1, hlink₂.2, hlink₁.1, hlink₁.2]
    exact hlink

/-- A link with a title of one line. -/
theorem link_roundTrip_line :
    ∃ d', dataObjectToDragData ⟨fun _ => [], fun _ => [], fun _ => []⟩
        (dragDataToDataObject ⟨fun _ => [], fun _ => [], fun _ => []⟩ []
          { isLink := true, linkURL := [104, 58], linkTitle := [84, 105] }) = some d' ∧
      d'.linkURL = [104, 58] ∧ d'.linkTitle = [84, 105] :=
  (link_roundTrip_iff _ _ _ (by decide) (by decide) (by decide)).2
    ⟨rfl, by decide, fun h => absurd rfl h⟩

/-- The first line of a title goes to the URL. -/
theorem not_link_roundTrip_newline :
    ¬ ∀ (env : DragEnv) (stack : Bytes) (d : DragData), d.isLink = true → d.linkURL ≠ [] → 10 ∉ d.linkURL →
      0 ∉ d.linkURL → 0 ∉ d.linkTitle →
        ∃ d', dataObjectToDragData env (dragDataToDataObject env stack d) = some d' ∧
          d'.linkURL = d.linkURL ∧ d'.linkTitle = d.linkTitle := by
  intro h
  obtain ⟨d', hd', hurl, -⟩ := h ⟨fun _ => [], fun _ => [], fun _ => []⟩ []
    { isLink := true, linkURL := [104, 58], linkTitle := [65, 10, 66] } rfl (by decide) (by decide)
    (by decide) (by decide)
  have hread : (dataObjectToDragData ⟨fun _ => [], fun _ => [], fun _ => []⟩
      (dragDataToDataObject ⟨fun _ => [], fun _ => [], fun _ => []⟩ []
        { isLink := true, linkURL := [104, 58], linkTitle := [65, 10, 66] })).map (·.linkURL) =
      some [104, 58, 10, 65] := by decide +kernel
  rw [hd', Option.map_some, hurl] at hread
  exact absurd hread (by decide)

end NplBrowser
