import NplBrowser.DialogTest
import NplBrowser.StdString
import NplBrowser.UrlRequest
import NplBrowser.WindowTestRunner

/-!
# The handlers of the message router

`PromptHandler` and the handlers of the binding, window, URL request and dialog tests, each asked for the
queries of an eligible page. Three of them take the rest of a message from behind a separator they have
not looked for, so that the bare name of the message throws. The dialog handler accepts a name it does not
know and the URL request handler a URL no request can be made for, and neither answers then. Apart from
these a query that is accepted is answered once, at once or when its operation ends.
-/

namespace NplBrowser

namespace MessageRouter

inductive Fault
  /-- `std::out_of_range`, thrown by `substr`. -/
  | outOfRange
  | nullDeref
deriving DecidableEq

/-- What a handler has done. -/
inductive BrowserCall
  | setPos (bounds : Rect)
  | minimize
  | maximize
  | restore
  | setWindowlessFrameRate (fps : Int)
  /-- Posted to the main thread. -/
  | setDSF (dsf : Double)
deriving DecidableEq

/-- What comes of a query that is answered at once or not handled. -/
structure QueryAnswer where
  returned : Bool
  /-- What the callback was executed with. -/
  replies : List Bytes := []
  calls : List BrowserCall := []
deriving DecidableEq

def cut (s : Bytes) (pos count : Int) : Except Fault Bytes :=
  match substr s pos count with
  | some t => .ok t
  | none => .error .outOfRange

end MessageRouter

open MessageRouter

/-! ### The binding test -/

namespace BindingTest

def kTestMessageName : Bytes := lit "BindingTest"

def onQuery (isTestUrl : Bool) (request : Bytes) : Except Fault QueryAnswer :=
  if !isTestUrl then .ok { returned := false }
  else if find request kTestMessageName 0 = 0 then do
    -- `sizeof` counts the terminator
    let result ← cut request (kTestMessageName.length + 1) npos
    return { returned := true, replies := [result.reverse] }
  else .ok { returned := false }

end BindingTest

/-! ### The window test -/

namespace WindowTest

def kMessagePositionName : Bytes := lit "WindowTest.Position"

def kMessageMinimizeName : Bytes := lit "WindowTest.Minimize"

def kMessageMaximizeName : Bytes := lit "WindowTest.Maximize"

def kMessageRestoreName : Bytes := lit "WindowTest.Restore"

/-- `ss >> i`: the number and what is left. `none`: there is none, or it is not an `int`. -/
def readInt (s : Bytes) : Option (Int32 × Bytes) :=
  let s := s.dropWhile isSpace
  let neg := s.head? == some 45
  let s := if s.head? == some 45 || s.head? == some 43 then s.tail else s
  let digits := s.takeWhile isDigit
  let n : Int := if neg then -digitsValue 10 digits else digitsValue 10 digits
  if digits = [] ∨ n < -2 ^ 31 ∨ 2 ^ 31 ≤ n then none else some (.ofInt n, s.drop digits.length)

theorem readInt_length {s rest : Bytes} {i : Int32} (h : readInt s = some (i, rest)) :
    rest.length < s.length := by
  unfold readInt at h
  dsimp only at h
  have hblanks := (List.dropWhile_sublist (l := s) isSpace).length_le
  revert h
  generalize s.dropWhile isSpace = t at hblanks ⊢
  have hsign : (if t.head? == some 45 || t.head? == some 43 then t.tail else t).length ≤ t.length := by
    split
    · rw [List.length_tail]
      exact Nat.sub_le _ _
    · exact Nat.le_refl _
  generalize (if t.head? == some 45 || t.head? == some 43 then t.tail else t) = u at hsign ⊢
  generalize (if t.head? == some 45 then (-digitsValue 10 (u.takeWhile isDigit) : Int)
    else digitsValue 10 (u.takeWhile isDigit)) = n
  intro h
  split at h
  · cases h
  · rename_i hdigits
    rw [not_or] at hdigits
    obtain ⟨-, rfl⟩ := Prod.mk.inj (Option.some.inj h)
    have hpos := List.length_pos_iff.2 hdigits.1
    have hle := (List.takeWhile_prefix (l := u) isDigit).length_le
    rw [List.length_drop]
    omega

/-- The comma-delimited list of integer values. -/
def readInts (s : Bytes) : List Int32 :=
  match _h : readInt s with
  | none => []
  | some (i, rest) => i :: readInts (if rest.head? = some 44 then rest.tail else rest)
termination_by s.length
decreasing_by
  have hlt := readInt_length _h
  split
  · rw [List.length_tail]
    omega
  · exact hlt

/-- What a message asks the runner for. -/
def parse (messageName : Bytes) : Except Fault (Option BrowserCall) :=
  if find messageName kMessagePositionName 0 = 0 then do
    let vals ← cut messageName (kMessagePositionName.length + 1) npos
    match readInts vals with
    | [x, y, width, height] => return some (.setPos { x, y, width, height })
    | _ => return none
  else if messageName = kMessageMinimizeName then .ok (some .minimize)
  else if messageName = kMessageMaximizeName then .ok (some .maximize)
  else if messageName = kMessageRestoreName then .ok (some .restore)
  -- not reached, it says
  else .ok none

/-- `WindowTestRunnerWin`, which looks whether there is a window, and `WindowTestRunnerViews`, which does
not look whether the browser is in one. -/
inductive Runner
  | win
  | views (inWindow : Bool)
deriving DecidableEq

def onQuery (runner : Runner) (isTestUrl : Bool) (request : Bytes) : Except Fault QueryAnswer :=
  if !isTestUrl then .ok { returned := false }
  else do
    let call ← parse request
    if call.isSome ∧ runner = .views false then throw .nullDeref
    return { returned := true, replies := [[]], calls := call.toList }

end WindowTest

/-! ### Prompts -/

namespace PromptHandler

def kPrompt : Bytes := lit "Prompt."

def kPromptFPS : Bytes := lit "FPS"

def kPromptDSF : Bytes := lit "DSF"

/-- `OnQuery`, for the frame rate of the default settings. -/
def onQuery (windowlessFrameRate : Int) (request : Bytes) : Except Fault QueryAnswer :=
  if find request kPrompt 0 ≠ 0 then .ok { returned := false }
  else do
    let type ← cut request kPrompt.length npos
    let delim := find type (lit ":") 0
    if delim = npos then return { returned := false }
    let value ← cut type (delim + 1) npos
    let type ← cut type 0 delim
    let calls :=
      if value = lit "null" then []
      else if type = kPromptFPS then
        [.setWindowlessFrameRate (if atoi value ≤ 0 then windowlessFrameRate else atoi value)]
      else if type = kPromptDSF then [.setDSF (atof value)]
      else []
    return { returned := true, replies := [[]], calls }

end PromptHandler

/-! ### The queries that are answered at once -/

namespace MessageRouter

/-- Nothing is thrown, and a query that is accepted is answered once. -/
def AnsweredOnce (outcome : Except Fault QueryAnswer) : Prop :=
  ∃ answer, outcome = .ok answer ∧ answer.replies.length = if answer.returned then 1 else 0

variable {s p : Bytes}

theorem answeredOnce_ok {answer : QueryAnswer} (h : answer.replies.length = if answer.returned then 1 else 0) :
    AnsweredOnce (.ok answer) := ⟨answer, rfl, h⟩

theorem not_answeredOnce_error (fault : Fault) : ¬ AnsweredOnce (.error fault) := by
  rintro ⟨_, h, -⟩
  cases h

/-- There is nothing behind a bare name. -/
theorem eq_iff_length_lt (h : p <+: s) : s = p ↔ s.length < p.length + 1 :=
  ⟨fun hs => hs ▸ Nat.lt_succ_self _, fun hlt =>
    (h.eq_of_length (Nat.le_antisymm h.length_le (Nat.le_of_lt_succ hlt))).symm⟩

/-- What stands behind a name and a separator. -/
theorem cut_name (h : p <+: s) : cut s (p.length + 1) npos =
    if s = p then .error .outOfRange else .ok (s.drop (p.length + 1)) := by
  unfold cut substr npos
  by_cases hs : s = p
  · rw [if_pos hs, if_pos]
    rw [eq_iff_length_lt h] at hs
    omega
  · rw [if_neg hs, if_neg]
    · rfl
    · rw [eq_iff_length_lt h] at hs
      omega

theorem cut_ok {pos : Int} (hpos : 0 ≤ pos) (hle : pos ≤ s.length) (count : Int) :
    ∃ t, cut s pos count = .ok t := by
  unfold cut substr
  rw [if_neg (by omega)]
  exact ⟨_, rfl⟩

end MessageRouter

theorem BindingTest.answeredOnce_iff (isTestUrl : Bool) (request : Bytes) :
    AnsweredOnce (onQuery isTestUrl request) ↔ (isTestUrl = true → request ≠ kTestMessageName) := by
  unfold onQuery
  rcases isTestUrl with _ | _
  · exact iff_of_true (answeredOnce_ok rfl) (by simp)
  · rw [if_neg (by simp)]
    by_cases hpre : kTestMessageName <+: request
    · rw [if_pos ((find_eq_zero_iff _ _).2 hpre), cut_name hpre]
      by_cases hname : request = kTestMessageName
      · rw [if_pos hname]
        exact iff_of_false (not_answeredOnce_error _) fun h => h rfl hname
      · rw [if_neg hname]
        exact iff_of_true (answeredOnce_ok rfl) fun _ => hname
    · rw [if_neg (mt (find_eq_zero_iff _ _).1 hpre)]
      refine iff_of_true (answeredOnce_ok rfl) fun _ hname => hpre ?_
      rw [hname]

theorem WindowTest.parse_cases (request : Bytes) :
    (request = kMessagePositionName ∧ parse request = .error .outOfRange) ∨
      request ≠ kMessagePositionName ∧ ∃ call, parse request = .ok call := by
  unfold parse
  by_cases hpre : kMessagePositionName <+: request
  · rw [if_pos ((find_eq_zero_iff _ _).2 hpre), cut_name hpre]
    by_cases hname : request = kMessagePositionName
    · rw [if_pos hname]
      exact .inl ⟨hname, rfl⟩
    · rw [if_neg hname]
      refine .inr ⟨hname, ?_⟩
      show ∃ call, (match readInts _ with | [x, y, width, height] => _ | _ => _) = Except.ok call
      split <;> exact ⟨_, rfl⟩
  · rw [if_neg (mt (find_eq_zero_iff _ _).1 hpre)]
    refine .inr ⟨fun hname => hpre (by rw [hname]), ?_⟩
    split_ifs <;> exact ⟨_, rfl⟩

theorem WindowTest.answeredOnce_iff (runner : Runner) (isTestUrl : Bool) (request : Bytes) :
    AnsweredOnce (onQuery runner isTestUrl request) ↔ (isTestUrl = true → request ≠ kMessagePositionName ∧
      (runner = .views false → parse request = .ok none)) := by
  unfold onQuery
  rcases isTestUrl with _ | _
  · exact iff_of_true (answeredOnce_ok rfl) (by simp)
  · rw [if_neg (by simp)]
    rcases parse_cases request with ⟨hname, hparse⟩ | ⟨hname, call, hparse⟩
    · rw [hparse]
      exact iff_of_false (not_answeredOnce_error _) fun h => (h rfl).1 hname
    · rw [hparse]
      by_cases hnull : call.isSome ∧ runner = .views false
      · refine iff_of_false ?_ fun h => ?_
        · show ¬ AnsweredOnce (if call.isSome ∧ runner = .views false then _ else _)
          rw [if_pos hnull]
          exact not_answeredOnce_error _
        · have hnone := (h rfl).2 hnull.2
          rw [Except.ok.injEq] at hnone
          rw [hnone] at hnull
          cases hnull.1
      · refine iff_of_true ?_ fun _ => ⟨hname, fun hrunner => ?_⟩
        · show AnsweredOnce (if call.isSome ∧ runner = .views false then _ else _)
          rw [if_neg hnull]
          exact answeredOnce_ok rfl
        · rcases call with _ | call
          · rfl
          · exact absurd ⟨rfl, hrunner⟩ hnull

theorem PromptHandler.answeredOnce (windowlessFrameRate : Int) (request : Bytes) :
    AnsweredOnce (onQuery windowlessFrameRate request) := by
  unfold onQuery
  by_cases hpre : kPrompt <+: request
  · rw [if_neg (not_not_intro ((find_eq_zero_iff _ _).2 hpre))]
    have hle : (kPrompt.length : Int) ≤ request.length := Int.ofNat_le.2 hpre.length_le
    obtain ⟨type, htype⟩ := cut_ok (Int.natCast_nonneg kPrompt.length) hle npos
    rw [htype]
    show AnsweredOnce (if find type (lit ":") 0 = npos then _ else _)
    by_cases hdelim : find type (lit ":") 0 = npos
    · rw [if_pos hdelim]
      exact answeredOnce_ok rfl
    · rw [if_neg hdelim]
      obtain ⟨delim, hfind⟩ : ∃ delim : Nat, Search.findFrom (lit ":") type 0 = some delim := by
        rw [find_zero] at hdelim
        cases hfind : Search.findFrom (lit ":") type 0 with
        | none =>
          rw [hfind] at hdelim
          exact absurd rfl hdelim
        | some delim => exact ⟨delim, rfl⟩
      have hbound : delim + 1 ≤ type.length := by
        obtain ⟨-, hat, -⟩ := Search.findFrom_eq_some_iff.1 hfind
        exact hat.le (by decide)
      have hposition : find type (lit ":") 0 = delim := by rw [find_zero, hfind]; rfl
      obtain ⟨value, hvalue⟩ : ∃ t, cut type (delim + 1) npos = .ok t := cut_ok (by omega) (by omega) npos
      obtain ⟨name, hname⟩ : ∃ t, cut type 0 delim = .ok t := cut_ok (Int.le_refl 0) (by omega) delim
      rw [hposition, hvalue, hname]
      exact answeredOnce_ok rfl
  · rw [if_pos (mt (find_eq_zero_iff _ _).1 hpre)]
    exact answeredOnce_ok rfl

end NplBrowser
