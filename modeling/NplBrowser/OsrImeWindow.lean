import NplBrowser.OsrImeHandler
import NplBrowser.OsrRenderer

/-!
# The window of an input method (`osr_window_win.cc`, `osr_ime_handler_win.cc`)

`MoveImeWindow` puts the candidate window at the bounds of a character of the composition. The cursor
comes from the input method's messages and the range with the bounds from the browser, each in its own
time. Of the index that is made of them only the upper bound is checked, and a cursor of less than -1,
which an error code makes, is below any range's start but a negative one's.

An `int` wraps around. What is sent to the browser meanwhile is left out.
-/

namespace NplBrowser

/-- A call that puts the candidate window or the caret somewhere. -/
inductive ImeCall
  /-- `ImmSetCandidateWindow` with `CFS_CANDIDATEPOS`. -/
  | candidatePos (x y : Int32)
  | setCaretPos (x y : Int32)
  /-- `ImmSetCandidateWindow` with `CFS_EXCLUDE`. -/
  | exclude (x y left top right bottom : Int32)
deriving DecidableEq

def LANG_CHINESE : UInt16 := 0x04
def LANG_JAPANESE : UInt16 := 0x11
def LANG_KOREAN : UInt16 := 0x12

def primaryLangId (id : UInt16) : UInt16 := id &&& 0x3ff

/-- What the system answers while a message is handled. -/
structure ImeEnv where
  /-- `GetFocus` is the window. -/
  focused : Bool
  /-- `ImmGetContext`. -/
  imc : Option ImmContext
  createCaret : Bool := true

/-- `OsrImeHandlerWin`. -/
structure OsrImeHandler where
  isComposing : Bool := false
  compositionBounds : List Rect := []
  inputLanguageId : UInt16
  systemCaret : Bool := false
  cursorIndex : Int32 := -1
  compositionRange : CefRange := ⟨0, 0⟩

/-- What `MoveImeWindow` does. -/
inductive ImeMove
  | ignored
  | outOfBounds (location : Int32)
  | moved (calls : List ImeCall)
deriving DecidableEq

namespace OsrImeHandler

def imeCalls (inputLanguageId : UInt16) (systemCaret : Bool) (rc : Rect) : List ImeCall :=
  let lang := primaryLangId inputLanguageId
  let caretMargin : Int32 := 1
  let candidate := if lang = LANG_CHINESE then [.candidatePos rc.x rc.y] else []
  let caret :=
    if systemCaret then
      if lang = LANG_JAPANESE then [.setCaretPos rc.x (rc.y + rc.height)] else [.setCaretPos rc.x rc.y]
    else []
  let y := if lang = LANG_KOREAN then rc.y + caretMargin else rc.y
  candidate ++ caret ++ [.exclude rc.x y rc.x y (rc.x + rc.width) (y + rc.height)]

/-- The index into `composition_bounds_`. -/
def location (h : OsrImeHandler) : Int32 :=
  let start := h.compositionRange.«from»
  let location := if h.cursorIndex = -1 then start else h.cursorIndex
  if start ≤ location then location - start else location

/-- `static_cast<int>(composition_bounds_.size())`. -/
def boundsSize (h : OsrImeHandler) : Int32 := .ofNat h.compositionBounds.length

/-- `composition_bounds_[i]`; `none`: it is out of bounds. -/
def boundsAt (h : OsrImeHandler) (i : Int32) : Option Rect :=
  if 0 ≤ i then h.compositionBounds[i.toNatClampNeg]? else none

def moveImeWindow (h : OsrImeHandler) (env : ImeEnv) : ImeMove :=
  if !env.focused then .ignored
  else if h.location < h.boundsSize then
    match h.boundsAt h.location with
    | none => .outOfBounds h.location
    | some rc => if env.imc.isSome then .moved (imeCalls h.inputLanguageId h.systemCaret rc) else .ignored
  else .ignored

def createImeWindow (h : OsrImeHandler) (env : ImeEnv) : OsrImeHandler :=
  let lang := primaryLangId h.inputLanguageId
  if lang = LANG_CHINESE ∨ lang = LANG_JAPANESE then { h with systemCaret := h.systemCaret || env.createCaret }
  else h

def destroyImeWindow (h : OsrImeHandler) : OsrImeHandler := { h with systemCaret := false }

def resetComposition (h : OsrImeHandler) : OsrImeHandler := { h with isComposing := false, cursorIndex := -1 }

/-- `GetResult` returns true. -/
def getResult (env : ImeEnv) (lparam : UInt64) : Bool :=
  (env.imc.bind fun imc => getString lparam GCS_RESULTSTR imc.resultStr).isSome

/-- The composition's text with the input context, if `GetComposition` finds one. -/
def compositionText (env : ImeEnv) (lparam : UInt64) : Option (ImmContext × CompositionText) :=
  env.imc.bind fun imc => (getString lparam GCS_COMPSTR imc.compStr).map fun text => (imc, text)

/-- Messages to the window, and the event from the browser. -/
inductive Event
  /-- `WM_IME_SETCONTEXT`. -/
  | setContext (env : ImeEnv)
  | startComposition (env : ImeEnv)
  | composition (env : ImeEnv) (lparam : UInt64)
  /-- `WM_IME_ENDCOMPOSITION`. -/
  | endComposition
  | changeCompositionRange (env : ImeEnv) (range : CefRange) (bounds : List Rect)

/-- `OnIMECancelCompositionEvent`. -/
def cancelComposition (h : OsrImeHandler) : OsrImeHandler := h.resetComposition.destroyImeWindow

/-- The handler after the result has been read. -/
def afterResult (h : OsrImeHandler) (env : ImeEnv) (lparam : UInt64) : OsrImeHandler :=
  if getResult env lparam then h.resetComposition else h

/-- The handler when an event calls `MoveImeWindow`, if it does. -/
def moving (h : OsrImeHandler) : Event → Option (OsrImeHandler × ImeEnv)
  | .setContext env => some (h.createImeWindow env, env)
  | .startComposition env => some (h.createImeWindow env, env)
  | .composition env lparam =>
    (compositionText env lparam).bind fun (imc, text) =>
      (getCompositionInfo imc lparam text).map fun (_, compositionStart) =>
        ({ h.afterResult env lparam with isComposing := true, cursorIndex := compositionStart - 1 }, env)
  | .endComposition => none
  | .changeCompositionRange env range bounds =>
    some ({ h with compositionRange := range, compositionBounds := bounds }, env)

/-- The handler after it; `none`: the bounds have been read out of bounds. -/
def moved : OsrImeHandler × ImeEnv → Option OsrImeHandler
  | (h, env) => match h.moveImeWindow env with
    | .outOfBounds _ => none
    | _ => some h

/-- `none` also where an exception is thrown. -/
def step (h : OsrImeHandler) (e : Event) : Option OsrImeHandler :=
  match e with
  | .startComposition _ => ((h.moving e).bind moved).map resetComposition
  | .composition env lparam =>
    if (compositionText env lparam).isSome then (h.moving e).bind moved
    else some (h.afterResult env lparam).cancelComposition
  | .endComposition => some h.cancelComposition
  | _ => (h.moving e).bind moved

/-! ## The character at the cursor -/

/-- The character at the cursor, counted from the start of the range. A cursor of -1 is that start. One
that is not before the start is counted from where the range is, one before it from the start already. -/
def character (h : OsrImeHandler) : Int :=
  if h.cursorIndex = -1 then 0
  else if h.compositionRange.«from».toInt ≤ h.cursorIndex.toInt then
    h.cursorIndex.toInt - h.compositionRange.«from».toInt
  else h.cursorIndex.toInt

/-- The character at a cursor that is always counted from where the range is. -/
def difference (h : OsrImeHandler) : Int :=
  if h.cursorIndex = -1 then 0 else h.cursorIndex.toInt - h.compositionRange.«from».toInt

/-- The bounds are not read out of bounds, and the window is put at those of the character, if anywhere. -/
def Uses (character : OsrImeHandler → Int) (h : OsrImeHandler) (env : ImeEnv) : Prop :=
  (∀ location, h.moveImeWindow env ≠ .outOfBounds location) ∧
    ∀ calls, h.moveImeWindow env = .moved calls → ∃ rc, 0 ≤ character h ∧
      h.compositionBounds[(character h).toNat]? = some rc ∧
      calls = imeCalls h.inputLanguageId h.systemCaret rc

/-- There is no focus, or the character is one that an `int` can be, not a negative one, or it is left
alone because of the size of the bounds. -/
def CursorOk (h : OsrImeHandler) (env : ImeEnv) : Prop :=
  env.focused = false ∨ (0 ≤ h.character ∧ h.character < 2 ^ 31) ∨
    h.boundsSize.toInt ≤ h.character.bmod (2 ^ 32)

/-- And where the window is put somewhere, the cursor is not before the start of the range. -/
def NotBefore (h : OsrImeHandler) (env : ImeEnv) : Prop :=
  env.focused = false ∨ (0 ≤ h.character ∧ h.character < 2 ^ 31 ∧ (env.imc = none ∨ 0 ≤ h.difference)) ∨
    h.boundsSize.toInt ≤ h.character.bmod (2 ^ 32)

variable {h : OsrImeHandler} {env : ImeEnv}

theorem toInt_location (h : OsrImeHandler) : h.location.toInt = h.character.bmod (2 ^ 32) := by
  have hrange := h.cursorIndex.toInt_lt
  have hrange' := h.cursorIndex.le_toInt
  unfold location character
  dsimp only
  by_cases hcursor : h.cursorIndex = -1
  · rw [if_pos hcursor, if_pos hcursor, if_pos (Int32.le_refl _)]
    simp
  · rw [if_neg hcursor, if_neg hcursor]
    simp only [Int32.le_iff_toInt_le]
    split
    · exact Int32.toInt_sub _ _
    · exact (MachineInt.bmod_eq_iff.2 (by omega)).symm

theorem bmod_character (h : OsrImeHandler) :
    (0 ≤ h.character.bmod (2 ^ 32) ↔ 0 ≤ h.character ∧ h.character < 2 ^ 31) ∧
      (0 ≤ h.character.bmod (2 ^ 32) → h.character.bmod (2 ^ 32) = h.character) := by
  have hbounds : -2 ^ 31 ≤ h.character ∧ h.character < 2 ^ 32 := by
    have hrange := h.cursorIndex.toInt_lt
    have hrange' := h.cursorIndex.le_toInt
    have hstart := h.compositionRange.«from».le_toInt
    unfold character
    split_ifs <;> omega
  rw [Int.bmod_def]
  constructor <;> split <;> omega

theorem boundsSize_le (h : OsrImeHandler) : h.boundsSize.toInt ≤ h.compositionBounds.length :=
  MachineInt.toInt_ofNat_le _

/-- What is read if the index is below the size. -/
theorem boundsAt_location (hlt : h.location < h.boundsSize) :
    if 0 ≤ h.character ∧ h.character < 2 ^ 31 then
      ∃ rc, h.boundsAt h.location = some rc ∧ h.compositionBounds[h.character.toNat]? = some rc
    else h.boundsAt h.location = none := by
  obtain ⟨hnonneg, heq⟩ := bmod_character h
  have hlocation := toInt_location h
  have hzero : (0 : Int32).toInt = 0 := rfl
  rw [Int32.lt_iff_toInt_lt] at hlt
  unfold boundsAt
  simp only [Int32.le_iff_toInt_le, hzero, hlocation, hnonneg]
  split <;> rename_i hok
  · have hindex : h.location.toNatClampNeg = h.character.toNat := by
      rw [← Int32.toNat_toInt, hlocation, heq (hnonneg.2 hok)]
    have hsize := boundsSize_le h
    have hbmod := heq (hnonneg.2 hok)
    have hin : h.character.toNat < h.compositionBounds.length := by omega
    rw [hindex]
    exact ⟨_, List.getElem?_eq_getElem hin, List.getElem?_eq_getElem hin⟩
  · rfl

/-- What `MoveImeWindow` does, in terms of the character. -/
inductive Moves (h : OsrImeHandler) (env : ImeEnv) : ImeMove → Prop
  | unfocused (hfocused : env.focused = false) : Moves h env .ignored
  | beyond (hsize : h.boundsSize.toInt ≤ h.character.bmod (2 ^ 32)) : Moves h env .ignored
  | outOfBounds (hfocused : env.focused = true) (hsize : h.character.bmod (2 ^ 32) < h.boundsSize.toInt)
      (hbad : ¬ (0 ≤ h.character ∧ h.character < 2 ^ 31)) : Moves h env (.outOfBounds h.location)
  | noContext (hok : 0 ≤ h.character ∧ h.character < 2 ^ 31) (himc : env.imc = none) : Moves h env .ignored
  | moved (hfocused : env.focused = true) (hsize : h.character.bmod (2 ^ 32) < h.boundsSize.toInt)
      (hok : 0 ≤ h.character ∧ h.character < 2 ^ 31) {imc : ImmContext} (himc : env.imc = some imc)
      {rc : Rect} (hrc : h.compositionBounds[h.character.toNat]? = some rc) :
      Moves h env (.moved (imeCalls h.inputLanguageId h.systemCaret rc))

theorem moves_moveImeWindow (h : OsrImeHandler) (env : ImeEnv) : Moves h env (h.moveImeWindow env) := by
  unfold moveImeWindow
  cases hfocused : env.focused with
  | false => exact .unfocused hfocused
  | true =>
    by_cases hlt : h.location < h.boundsSize
    · have hread := boundsAt_location hlt
      have hsize := Int32.lt_iff_toInt_lt.1 hlt
      rw [toInt_location] at hsize
      rw [Bool.not_true, if_neg Bool.false_ne_true, if_pos hlt]
      split at hread <;> rename_i hok
      · obtain ⟨rc, hat, hrc⟩ := hread
        rw [hat]
        cases himc : env.imc with
        | none => exact .noContext hok himc
        | some imc => exact .moved hfocused hsize hok himc hrc
      · rw [hread]
        exact .outOfBounds hfocused hsize hok
    · rw [Bool.not_true, if_neg Bool.false_ne_true, if_neg hlt]
      rw [Int32.lt_iff_toInt_lt, toInt_location, Int.not_lt] at hlt
      exact .beyond hlt

theorem uses_character_iff (h : OsrImeHandler) (env : ImeEnv) : Uses character h env ↔ h.CursorOk env := by
  have hmoves := moves_moveImeWindow h env
  unfold Uses CursorOk
  generalize h.moveImeWindow env = move at hmoves
  cases hmoves with
  | unfocused hfocused => exact iff_of_true ⟨nofun, nofun⟩ (.inl hfocused)
  | beyond hsize => exact iff_of_true ⟨nofun, nofun⟩ (.inr (.inr hsize))
  | outOfBounds hfocused hsize hbad =>
    refine iff_of_false (fun huses => huses.1 _ rfl) ?_
    rintro (hno | hok | hle)
    exacts [Bool.noConfusion (hfocused.symm.trans hno), hbad hok, hle.not_gt hsize]
  | noContext hok => exact iff_of_true ⟨nofun, nofun⟩ (.inr (.inl hok))
  | moved hfocused hsize hok himc hrc =>
    refine iff_of_true ⟨nofun, fun calls hcalls => ⟨_, hok.1, hrc, ?_⟩⟩ (.inr (.inl hok))
    exact (ImeMove.moved.inj hcalls).symm

theorem uses_difference_iff (h : OsrImeHandler) (env : ImeEnv) : Uses difference h env ↔ h.NotBefore env := by
  have hmoves := moves_moveImeWindow h env
  unfold Uses NotBefore
  generalize h.moveImeWindow env = move at hmoves
  cases hmoves with
  | unfocused hfocused => exact iff_of_true ⟨nofun, nofun⟩ (.inl hfocused)
  | beyond hsize => exact iff_of_true ⟨nofun, nofun⟩ (.inr (.inr hsize))
  | outOfBounds hfocused hsize hbad =>
    refine iff_of_false (fun huses => huses.1 _ rfl) ?_
    rintro (hno | hok | hle)
    exacts [Bool.noConfusion (hfocused.symm.trans hno), hbad ⟨hok.1, hok.2.1⟩, hle.not_gt hsize]
  | noContext hok himc => exact iff_of_true ⟨nofun, nofun⟩ (.inr (.inl ⟨hok.1, hok.2, .inl himc⟩))
  | moved hfocused hsize hok himc hrc =>
    -- the difference is the character unless it is negative
    have hsame : 0 ≤ h.difference → h.difference = h.character := by
      have hcharacter := hok.1
      unfold character at hcharacter
      unfold difference character
      split_ifs <;> omega
    constructor
    · intro huses
      obtain ⟨rc, hnonneg, -⟩ := huses.2 _ rfl
      exact .inr (.inl ⟨hok.1, hok.2, .inr hnonneg⟩)
    · rintro (hno | ⟨-, -, hnone | hnonneg⟩ | hle)
      · cases hfocused.symm.trans hno
      · cases himc.symm.trans hnone
      · refine ⟨nofun, fun calls hcalls => ⟨_, hnonneg, hsame hnonneg ▸ hrc, ?_⟩⟩
        exact (ImeMove.moved.inj hcalls).symm
      · exact absurd hsize hle.not_gt

/-- A condition on the handler at the time the event calls `MoveImeWindow`. -/
def EachMove (P : OsrImeHandler → ImeEnv → Prop) (h : OsrImeHandler) (e : Event) : Prop :=
  ∀ m, h.moving e = some m → P m.1 m.2

theorem meets_eachMove {P Q : OsrImeHandler → ImeEnv → Prop} (hPQ : ∀ h env, P h env ↔ Q h env)
    (es : List Event) : Lts.Meets step (EachMove P) h es ↔ Lts.Meets step (EachMove Q) h es := by
  refine Lts.meets_congr (I := fun _ => True) (fun _ _ _ _ _ _ => trivial) (fun h e _ => ?_) trivial
  exact forall₂_congr fun m _ => hPQ m.1 m.2

/-- In any run the bounds are read within bounds, and the window is put at those of the character at the
cursor, just when the cursor is well whenever the window is moved. With a cursor that is always counted
from where the range is, it must not be before the range's start either. -/
theorem imeWindow_iff (inputLanguageId : UInt16) (es : List Event) :
    (Lts.Meets step (EachMove (Uses character)) { inputLanguageId } es ↔
      Lts.Meets step (EachMove CursorOk) { inputLanguageId } es) ∧
    (Lts.Meets step (EachMove (Uses difference)) { inputLanguageId } es ↔
      Lts.Meets step (EachMove NotBefore) { inputLanguageId } es) :=
  ⟨meets_eachMove uses_character_iff es, meets_eachMove uses_difference_iff es⟩

/-- The answer for the cursor is `IMM_ERROR_NODATA`. -/
def noCursor : ImeEnv where
  focused := true
  imc := some { twoClauses with cursorPos := -1 }

/-- A composition with bounds, and a message without a cursor: the index is -2. -/
theorem not_imeWindow_error : ¬ Lts.Meets step (EachMove (Uses character)) { inputLanguageId := 0x0411 }
    [.changeCompositionRange noCursor ⟨0, 1⟩ [⟨10, 20, 8, 16⟩],
      .composition noCursor (GCS_COMPSTR ||| GCS_CURSORPOS)] := by
  rintro ⟨-, hmeets⟩
  obtain ⟨h, hstep, m, hmoving, hmove⟩ : ∃ h, step { inputLanguageId := 0x0411 }
      (.changeCompositionRange noCursor ⟨0, 1⟩ [⟨10, 20, 8, 16⟩]) = some h ∧
      ∃ m, h.moving (.composition noCursor (GCS_COMPSTR ||| GCS_CURSORPOS)) = some m ∧
        m.1.moveImeWindow m.2 = .outOfBounds (-2) := ⟨_, rfl, _, rfl, rfl⟩
  exact ((hmeets h hstep).1 m hmoving).1 (-2) hmove

end OsrImeHandler
end NplBrowser
