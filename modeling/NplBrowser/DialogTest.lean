import NplBrowser.Bytes
import NplBrowser.Lib.Run

/-!
# The file dialogs of a test page (`dialog_test.cc`)

The handler remembers in one state the mode of the dialog it runs, the last file and the last filter.
That there is one dialog at a time is checked in a debug build only, so a dialog that is dismissed
while another has been opened is dismissed in the other's mode, and leaves the state as if none were
open.

Queries are numbered as they are accepted, and a dialog goes by the number of its query. A dialog that
the browser refuses to open is one that is dismissed without a file.
-/

namespace NplBrowser

namespace DialogTest

/-- The modes of `cef_file_dialog_mode_t` that are used. -/
inductive Mode
  | «open»
  | openMultiple
  | openFolder
  /-- `FILE_DIALOG_SAVE | FILE_DIALOG_OVERWRITEPROMPT_FLAG`. -/
  | saveOverwritePrompt
deriving DecidableEq

/-- `PATH_SEP`. -/
def pathSep : UInt8 := 92

structure DialogState where
  mode : Mode := .open
  lastSelectedFilter : Int32 := 0
  lastFile : Bytes := []
  pending : Bool := false
deriving DecidableEq

/-- A dialog that has not been dismissed: what `RunFileDialog` was called with, and the query its
`DialogCallback` answers. -/
structure Dialog where
  query : Nat
  mode : Mode
  title : Bytes
  defaultFilePath : Bytes
  acceptFilters : List Bytes
  selectedAcceptFilter : Int32
deriving DecidableEq

structure Handler where
  dialogState : Option DialogState := none
  dialogs : List Dialog := []
  /-- How many queries `OnQuery` has returned true for. -/
  queries : Nat := 0
  /-- What the router callbacks were executed with. -/
  replies : List (Nat × Bytes) := []
deriving DecidableEq

/-- The mode and the title for a message name. -/
def message (name : Bytes) : Option (Mode × Bytes) :=
  if name = lit "DialogTest.FileOpen" then some (.open, lit "My Open Dialog")
  else if name = lit "DialogTest.FileOpenMultiple" then some (.openMultiple, lit "My Open Multiple Dialog")
  else if name = lit "DialogTest.FileOpenFolder" then some (.openFolder, lit "My Open Folder Dialog")
  else if name = lit "DialogTest.FileSave" then some (.saveOverwritePrompt, lit "My Save Dialog")
  else none

def filters (mode : Mode) : List Bytes :=
  if mode = .openFolder then []
  else [lit "text/*", lit ".log", lit ".patch", lit "Document Files|.doc;.odt",
    lit "Image Files|.png;.jpg;.gif", lit "PDF Files|.pdf"]

/-- The list of file paths that is sent back. -/
def response (filePaths : List Bytes) : Bytes :=
  filePaths.foldl (fun response path => (if response ≠ [] then response ++ lit "|" else response) ++ path) []

/-- The file that is remembered. `none`: the last character of an empty name is read, out of bounds. -/
def lastFile (mode : Mode) (path : Bytes) : Option Bytes :=
  if mode = .openFolder then
    path.getLast?.map fun c => if c ≠ pathSep then path ++ [pathSep] else path
  else some path

namespace Handler

/-- `OnQuery` of the test page or of another one; the flag is what it returns. -/
def onQuery (h : Handler) (isTestUrl : Bool) (request : Bytes) : Handler × Bool :=
  if !isTestUrl then (h, false)
  else
    let state := h.dialogState.getD {}
    match message request with
    -- not reached, it says
    | none => ({ h with dialogState := some state, queries := h.queries + 1 }, true)
    | some (mode, title) =>
      let dialog : Dialog :=
        { query := h.queries
          mode
          title
          defaultFilePath := state.lastFile
          acceptFilters := filters mode
          selectedAcceptFilter := state.lastSelectedFilter }
      ({ h with
          dialogState := some { state with mode, pending := true }
          dialogs := h.dialogs ++ [dialog]
          queries := h.queries + 1 }, true)

/-- `DialogCallback::OnFileDialogDismissed` of a dialog. -/
def onFileDialogDismissed (h : Handler) (dialog : Dialog) (lastSelectedFilter : Int32)
    (filePaths : List Bytes) : Option Handler := do
  let state := h.dialogState.getD {}
  let state ← match filePaths with
    | [] => some state
    | path :: _ => do
      let filter := if state.mode ≠ .openFolder then lastSelectedFilter else state.lastSelectedFilter
      let file ← lastFile state.mode path
      some { state with lastSelectedFilter := filter, lastFile := file }
  return { h with
    dialogState := some { state with pending := false }
    dialogs := h.dialogs.filter (·.query ≠ dialog.query)
    replies := h.replies ++ [(dialog.query, response filePaths)] }

end Handler

inductive Event
  | onQuery (isTestUrl : Bool) (request : Bytes)
  | onFileDialogDismissed (query : Nat) (lastSelectedFilter : Int32) (filePaths : List Bytes)

/-- `none`: there is no such dialog, or what it does is undefined. -/
def step (h : Handler) : Event → Option Handler
  | .onQuery isTestUrl request => some (h.onQuery isTestUrl request).1
  | .onFileDialogDismissed q lastSelectedFilter filePaths =>
    (h.dialogs.find? (·.query = q)).bind fun d => h.onFileDialogDismissed d lastSelectedFilter filePaths

/-! ### One dialog at a time -/

def Handler.state (h : Handler) : DialogState := h.dialogState.getD {}

/-- What the next dialog begins with. -/
def Handler.remembered (h : Handler) : Bytes × Int32 := (h.state.lastFile, h.state.lastSelectedFilter)

/-- The result of a dialog opened in `mode`. -/
def interpret (mode : Mode) (lastSelectedFilter : Int32) (filePaths : List Bytes) (remembered : Bytes × Int32) :
    Bytes × Int32 :=
  match filePaths with
  | [] => remembered
  | path :: _ =>
    if mode = .openFolder then (if path.getLast? = some pathSep then path else path ++ [pathSep], remembered.2)
    else (path, lastSelectedFilter)

/-- One dialog is open at most, and `pending` says whether there is one. -/
structure Handler.OneDialog (h : Handler) : Prop where
  one : h.dialogs.length ≤ 1
  pending : h.state.pending = true ↔ h.dialogs ≠ []

/-- What comes of an event: a dialog is dismissed in the mode it was opened with. -/
def Proper (h : Handler) : Event → Prop
  | .onQuery isTestUrl request => (h.onQuery isTestUrl request).1.OneDialog
  | .onFileDialogDismissed q lastSelectedFilter filePaths => ∀ d ∈ h.dialogs, d.query = q →
    ∃ h', step h (.onFileDialogDismissed q lastSelectedFilter filePaths) = some h' ∧ h'.OneDialog ∧
      h'.remembered = interpret d.mode lastSelectedFilter filePaths h.remembered

/-- A dialog is asked for while none is open, and the name of a folder is not empty. -/
def Alone (h : Handler) : Event → Prop
  | .onQuery isTestUrl request => isTestUrl = true → message request ≠ none → h.dialogs = []
  | .onFileDialogDismissed q _ filePaths => ∀ d ∈ h.dialogs, d.query = q → d.mode = .openFolder →
    filePaths.head? ≠ some []

/-- Besides, the mode is that of the dialog. -/
structure Handler.Inv (h : Handler) : Prop extends OneDialog h where
  mode : ∀ d ∈ h.dialogs, h.state.mode = d.mode

section
variable {h h' : Handler} {d : Dialog} {mode : Mode} {path : Bytes}

theorem inv_start : Handler.Inv {} where
  one := Nat.zero_le 1
  pending := by decide
  mode _ h := by cases h

theorem lastFile_eq (mode : Mode) (path : Bytes) : lastFile mode path =
    if mode = .openFolder then
      if path = [] then none else some (if path.getLast? = some pathSep then path else path ++ [pathSep])
    else some path := by
  unfold lastFile
  split
  · rcases List.eq_nil_or_concat path with rfl | ⟨l, c, rfl⟩
    · rfl
    · by_cases hc : c = pathSep <;> simp [hc]
  · rfl

/-- The dialog that is opened for a query. -/
def Handler.dialog (h : Handler) (mode : Mode) (title : Bytes) : Dialog where
  query := h.queries
  mode
  title
  defaultFilePath := h.state.lastFile
  acceptFilters := filters mode
  selectedAcceptFilter := h.state.lastSelectedFilter

/-- A query is not accepted, accepted without a dialog, or accepted with one. -/
theorem Handler.onQuery_cases (h : Handler) (isTestUrl : Bool) (request : Bytes) :
    (isTestUrl = false ∧ h.onQuery isTestUrl request = (h, false)) ∨
    (isTestUrl = true ∧ message request = none ∧ h.onQuery isTestUrl request =
      ({ h with dialogState := some h.state, queries := h.queries + 1 }, true)) ∨
    ∃ mode title, isTestUrl = true ∧ message request = some (mode, title) ∧ h.onQuery isTestUrl request =
      ({ h with
          dialogState := some { h.state with mode, pending := true }
          dialogs := h.dialogs ++ [h.dialog mode title]
          queries := h.queries + 1 }, true) := by
  unfold onQuery
  rcases isTestUrl with _ | _
  · exact .inl ⟨rfl, rfl⟩
  · rcases hmessage : message request with _ | ⟨mode, title⟩
    · exact .inr (.inl ⟨rfl, rfl, rfl⟩)
    · exact .inr (.inr ⟨mode, title, rfl, rfl, rfl⟩)

theorem Handler.onFileDialogDismissed_eq (h : Handler) (d : Dialog) (filter : Int32) (filePaths : List Bytes) :
    h.onFileDialogDismissed d filter filePaths =
      if h.state.mode = .openFolder ∧ filePaths.head? = some [] then none
      else some { h with
        dialogState := some { h.state with
          lastFile := (interpret h.state.mode filter filePaths h.remembered).1
          lastSelectedFilter := (interpret h.state.mode filter filePaths h.remembered).2
          pending := false }
        dialogs := h.dialogs.filter (·.query ≠ d.query)
        replies := h.replies ++ [(d.query, response filePaths)] } := by
  rcases filePaths with _ | ⟨path, paths⟩
  · rw [if_neg (by simp)]
    rfl
  · unfold onFileDialogDismissed interpret Handler.remembered Handler.state
    simp only [lastFile_eq, List.head?_cons, Option.some.injEq]
    by_cases hfolder : (h.dialogState.getD {}).mode = .openFolder
    · by_cases hpath : path = []
      · simp [hfolder, hpath]
      · simp [hfolder, hpath]
    · simp [hfolder]

theorem Handler.Inv.single (hi : h.Inv) (hd : d ∈ h.dialogs) : h.dialogs = [d] := by
  have hone := hi.one
  rcases hdialogs : h.dialogs with _ | ⟨d', _ | ⟨d'', l⟩⟩
  · rw [hdialogs] at hd
    cases hd
  · rw [hdialogs, List.mem_singleton] at hd
    rw [hd]
  · rw [hdialogs] at hone
    simp at hone

theorem Handler.Inv.onQuery (hi : h.Inv) {isTestUrl : Bool} {request : Bytes}
    (ha : Alone h (.onQuery isTestUrl request)) : (h.onQuery isTestUrl request).1.Inv := by
  rcases h.onQuery_cases isTestUrl request with
    ⟨-, heq⟩ | ⟨-, -, heq⟩ | ⟨mode, title, htest, hmessage, heq⟩
  · rw [heq]
    exact hi
  · rw [heq]
    exact ⟨⟨hi.one, hi.pending⟩, hi.mode⟩
  · have hnone : h.dialogs = [] := ha htest (by simp [hmessage])
    rw [heq, hnone, List.nil_append]
    refine ⟨⟨Nat.le_refl 1, by simp [Handler.state]⟩, fun d hd => ?_⟩
    rw [List.mem_singleton.1 hd]
    rfl

theorem Handler.Inv.step_dismissed (hi : h.Inv) (hd : d ∈ h.dialogs) (filter : Int32) (filePaths : List Bytes) :
    step h (.onFileDialogDismissed d.query filter filePaths) = h.onFileDialogDismissed d filter filePaths := by
  unfold step
  rw [hi.single hd]
  simp

/-- The one dialog that is open is dismissed in its own mode. -/
theorem Handler.Inv.dismissed (hi : h.Inv) (hd : d ∈ h.dialogs) (filter : Int32) {filePaths : List Bytes}
    (hpath : d.mode = .openFolder → filePaths.head? ≠ some []) :
    ∃ h', step h (.onFileDialogDismissed d.query filter filePaths) = some h' ∧ h'.Inv ∧
      h'.remembered = interpret d.mode filter filePaths h.remembered := by
  have hdialogs : h.dialogs.filter (·.query ≠ d.query) = [] := by
    rw [hi.single hd]
    simp
  have hdefined : ¬ (h.state.mode = .openFolder ∧ filePaths.head? = some []) := by
    rw [hi.mode d hd]
    exact fun hempty => hpath hempty.1 hempty.2
  rw [hi.step_dismissed hd, h.onFileDialogDismissed_eq, if_neg hdefined, hi.mode d hd, hdialogs]
  exact ⟨_, rfl, ⟨⟨Nat.zero_le 1, by simp [Handler.state]⟩, fun d' hd' => by cases hd'⟩, rfl⟩

theorem proper_iff (hi : h.Inv) (e : Event) : Proper h e ↔ Alone h e := by
  rcases e with ⟨isTestUrl, request⟩ | ⟨q, filter, filePaths⟩
  · constructor
    · intro hp htest hmessage
      have hone : (h.onQuery isTestUrl request).1.dialogs.length ≤ 1 := hp.one
      rcases h.onQuery_cases isTestUrl request with ⟨hother, -⟩ | ⟨-, hnone, -⟩ | ⟨mode, title, -, -, heq⟩
      · rw [htest] at hother
        cases hother
      · exact absurd hnone hmessage
      · rw [heq, List.length_append, List.length_singleton] at hone
        exact List.length_eq_zero_iff.1 (by omega)
    · exact fun ha => (hi.onQuery ha).toOneDialog
  · constructor
    · rintro hp d hd rfl hfolder hempty
      obtain ⟨h', hs, -⟩ := hp d hd rfl
      rw [hi.step_dismissed hd, h.onFileDialogDismissed_eq,
        if_pos ⟨(hi.mode d hd).trans hfolder, hempty⟩] at hs
      cases hs
    · rintro ha d hd rfl
      obtain ⟨h', hs, hi', hremembered⟩ := hi.dismissed hd filter (ha d hd rfl)
      exact ⟨h', hs, hi'.toOneDialog, hremembered⟩

theorem Handler.Inv.step (hi : h.Inv) {e : Event} (ha : Alone h e) (hs : DialogTest.step h e = some h') :
    h'.Inv := by
  rcases e with ⟨isTestUrl, request⟩ | ⟨q, filter, filePaths⟩
  · cases hs
    exact hi.onQuery ha
  · obtain ⟨d, hfind, -⟩ := Option.bind_eq_some_iff.1 hs
    have hq : d.query = q := by simpa using List.find?_some hfind
    obtain ⟨h'', hs', hi', -⟩ := hi.dismissed (List.mem_of_find?_eq_some hfind) filter
      (ha d (List.mem_of_find?_eq_some hfind) hq)
    rw [hq, hs, Option.some.injEq] at hs'
    exact hs' ▸ hi'

end

/-- In every sequence of queries and dismissals each event has one dialog open at most, `pending` true just
while one is, and a dialog dismissed in its own mode, just when no dialog is asked for while another is
open and no folder's name is empty. -/
theorem one_dialog_iff (as : List Event) : Lts.Meets step Proper {} as ↔ Lts.Meets step Alone {} as :=
  Lts.meets_congr (I := Handler.Inv) (fun _ _ _ hi ha hs => hi.step ha hs) (fun _ e hi => proper_iff hi e)
    inv_start

/-- While a folder is asked for a file is asked for, which the browser refuses; the folder is then taken
for a file. -/
def interleaved : List Event :=
  [.onQuery true (lit "DialogTest.FileOpenFolder"), .onQuery true (lit "DialogTest.FileOpen"),
    .onFileDialogDismissed 1 0 [], .onFileDialogDismissed 0 3 [lit "C:\\dir"]]

theorem not_one_dialog_interleaved : ¬ Lts.Meets step Proper {} interleaved ∧
    ∃ h h', Lts.exec step {} (interleaved.take 3) = some h ∧
      h.dialogs.map Dialog.mode = [.openFolder] ∧ h.state.pending = false ∧
      step h (.onFileDialogDismissed 0 3 [lit "C:\\dir"]) = some h' ∧ h'.remembered = (lit "C:\\dir", 3) := by
  refine ⟨fun h => ?_, _, _, rfl, by decide, by decide, rfl, by decide⟩
  have hone : (((Handler.onQuery {} true (lit "DialogTest.FileOpenFolder")).1).onQuery true
      (lit "DialogTest.FileOpen")).1.dialogs.length ≤ 1 := (h.2 _ rfl).1.one
  exact absurd hone (by decide)

end DialogTest
end NplBrowser
