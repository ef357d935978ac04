import NplBrowser.CefValue
import NplBrowser.StdString
import NplBrowser.Lib.Run
import Mathlib.Data.List.Nodup
import Mathlib.Logic.Function.Basic

/-!
# Setting preferences (`preferences_test.cc`)

A nested dictionary is applied element by element, until one fails (`applyPrefs_eq`). The report names a
preference each time it is set, so one that goes by a dotted and by a nested name may be listed twice; and
a string for a double preference is made an integer.

Which values `SetPreference` takes is a parameter.
-/

namespace NplBrowser

/-- The registered preferences of a `CefRequestContext`, with their values. -/
abbrev Preferences := Bytes → Option CefValue

namespace PreferencesTest

def kPreferenceApplicationError : Int := 1

/-- The context and the out-parameters of `ApplyPrefs`. -/
structure Report where
  prefs : Preferences
  error : Bytes := []
  changedNames : List Bytes := []

/-- The supplied value after the conversion in `SetPref`, which knows the existing one. -/
def converted (existing value : CefValue) : CefValue :=
  match existing, value with
  | .bool _, .string s =>
    if s = lit "true" ∨ s = lit "1" then .bool true
    else if s = lit "false" ∨ s = lit "0" then .bool false
    else value
  | .int _, .string s => .int (atoi s)
  | .double _, .string s => .int (atof s).toInt32.toInt
  | _, _ => value

/-- The value of a name that is not empty. -/
def Report.find? (r : Report) (name : Bytes) : Option CefValue := if name = [] then none else r.prefs name

def Report.unregistered (r : Report) (name : Bytes) : Report :=
  { r with error := lit "Trying to create an unregistered preference: " ++ name }

def currentName (name key : Bytes) : Bytes := if name = [] then key else name ++ lit "." ++ key

section
-- the error text of `SetPreference`, if it fails
variable (setPreference : Preferences → Bytes → CefValue → Option Bytes)

/-- `SetPref` of a preference that exists. -/
def setPref (name : Bytes) (existing value : CefValue) (r : Report) : Report × Bool :=
  let value := converted existing value
  if existing.isEqual value then (r, true)
  else
    match setPreference r.prefs name value with
    | some error => ({ r with error := error ++ lit ": " ++ name }, false)
    | none =>
      ({ r with
          prefs := Function.update r.prefs name (some value)
          changedNames := r.changedNames ++ [name] }, true)

mutual

def applyPrefs (name : Bytes) (value : CefValue) (r : Report) : Report × Bool :=
  match r.find? name, value with
  | some existing, value => setPref setPreference name existing value r
  | none, .dictionary d => applyKeys name d r
  | none, _ => (r.unregistered name, false)

/-- The loop over the keys of a dictionary. -/
def applyKeys (name : Bytes) (d : List (Bytes × CefValue)) (r : Report) : Report × Bool :=
  match d with
  | [] => (r, true)
  | (key, value) :: d =>
    let (r, success) := applyPrefs (currentName name key) value r
    if success then applyKeys name d r else (r, false)

end

/-- What is sent back: the changed names, the error if there is one, and whether nothing has changed. -/
def message (success : Bool) (error : Bytes) (changedNames : List Bytes) : Bytes :=
  let message :=
    if changedNames ≠ [] then
      lit "Successfully changed " ++ decimal changedNames.length ++ lit " preferences; " ++
        (lit ", ").intercalate changedNames
    else []
  let message :=
    if !success then (if message ≠ [] then message ++ lit "\n" else message) ++ error else message
  if changedNames = [] then
    (if message ≠ [] then message ++ lit "\n" else message) ++ lit "No preferences changed."
  else message

/-- `OnPreferencesSet`: the preferences afterwards, and what the callback is executed with. -/
def onPreferencesSet (prefs : Preferences) (preferences : CefDictionaryValue) :
    Preferences × Except (Int × Bytes) Bytes :=
  let (r, success) := applyPrefs setPreference [] (.dictionary preferences) { prefs }
  let message := message success r.error r.changedNames
  (r.prefs, if success then .ok message else .error (kPreferenceApplicationError, message))

/-! ### Element by element -/

mutual

/-- The elements of a value, in order, each with its name. -/
def elements (registered : Bytes → Bool) (name : Bytes) (value : CefValue) : List (Bytes × CefValue) :=
  match registered name, value with
  | false, .dictionary d => elementsOf registered name d
  | _, value => [(name, value)]

def elementsOf (registered : Bytes → Bool) (name : Bytes) (d : List (Bytes × CefValue)) :
    List (Bytes × CefValue) :=
  match d with
  | [] => []
  | (key, value) :: d => elements registered (currentName name key) value ++ elementsOf registered name d

end

def applyElement (r : Report) (e : Bytes × CefValue) : Report × Bool :=
  match r.find? e.1 with
  | some existing => setPref setPreference e.1 existing e.2 r
  | none => (r.unregistered e.1, false)

def applyElements (l : List (Bytes × CefValue)) (r : Report) : Report × Bool :=
  match l with
  | [] => (r, true)
  | e :: l =>
    let (r, success) := applyElement setPreference r e
    if success then applyElements l r else (r, false)

/-- An element that does not fail. -/
def step (r : Report) (e : Bytes × CefValue) : Option Report :=
  if (applyElement setPreference r e).2 then some (applyElement setPreference r e).1 else none

/-- `SetPreference` takes `x` for the element `e`. -/
structure Takes (r : Report) (e : Bytes × CefValue) (own x : CefValue) : Prop where
  existing : r.find? e.1 = some own
  offered : x = converted own e.2
  differs : own.isEqual x = false
  taken : setPreference r.prefs e.1 x = none

end

/-! ### A right report -/

/-- A supplied value in the type of the preference's own value, if it has one there. -/
def ownValue (own value : CefValue) : Option CefValue :=
  if value.getType = own.getType then some value
  else
    match own, value with
    | .bool _, .string s =>
      if s = lit "true" ∨ s = lit "1" then some (.bool true)
      else if s = lit "false" ∨ s = lit "0" then some (.bool false)
      else none
    | .int _, .string s => some (.int (atoi s))
    | .double _, .string s => some (.double (atof s))
    | _, _ => none

/-- Of the elements `supplied`, the preferences `changed` were changed and no others, once each and to a
supplied value. -/
structure Accurate (initial final : Preferences) (supplied : List (Bytes × CefValue)) (changed : List Bytes) :
    Prop where
  nodup : changed.Nodup
  changed_iff : ∀ n, n ∈ changed ↔ final n ≠ initial n
  value : ∀ n ∈ changed, ∃ own v, initial n = some own ∧ (n, v) ∈ supplied ∧ final n = ownValue own v

section
variable (setPreference : Preferences → Bytes → CefValue → Option Bytes) (initial : Preferences)

/-- What is left and reported in the end is what was changed by the elements before the first that fails. -/
def Reported (supplied : List (Bytes × CefValue)) (result : Report × Bool) : Prop :=
  ∃ done rest r, supplied = done ++ rest ∧ Lts.exec (step setPreference) { prefs := initial } done = some r ∧
    (if result.2 then rest = [] else ∃ e ∈ rest.head?, step setPreference r e = none) ∧
    result.1.prefs = r.prefs ∧ result.1.changedNames = r.changedNames ∧
    Accurate initial r.prefs done r.changedNames

/-- What `SetPreference` takes for an element is of the preference's type and not what is stored, which is
what was stored at first. -/
def Regular (r : Report) (e : Bytes × CefValue) : Prop :=
  ∀ own x, Takes setPreference r e own x →
    r.prefs e.1 = initial e.1 ∧ x.getType = own.getType ∧ x ≠ own

end

section
variable {setPreference : Preferences → Bytes → CefValue → Option Bytes} {initial : Preferences}
  {r r' m : Report} {e : Bytes × CefValue} {l : List (Bytes × CefValue)} {own x value : CefValue}

def Report.registered (r : Report) (name : Bytes) : Bool := (r.find? name).isSome

def Report.change (r : Report) (name : Bytes) (x : CefValue) : Report :=
  { r with prefs := Function.update r.prefs name (some x), changedNames := r.changedNames ++ [name] }

@[simp] theorem Report.prefs_change_self (r : Report) (name : Bytes) (x : CefValue) :
    (r.change name x).prefs name = some x := Function.update_self ..

theorem Report.prefs_change_of_ne {n name : Bytes} (h : n ≠ name) (r : Report) (x : CefValue) :
    (r.change name x).prefs n = r.prefs n := Function.update_of_ne h ..

@[simp] theorem Report.changedNames_change (r : Report) (name : Bytes) (x : CefValue) :
    (r.change name x).changedNames = r.changedNames ++ [name] := rfl

variable (setPreference) in
/-- An element sets its preference, or all it may do is fail. -/
theorem applyElement_cases (r : Report) (e : Bytes × CefValue) :
    (∃ own x, Takes setPreference r e own x ∧ applyElement setPreference r e = (r.change e.1 x, true)) ∨
    (¬ ∃ own x, Takes setPreference r e own x) ∧
      (applyElement setPreference r e = (r, true) ∨
        ∃ error, applyElement setPreference r e = ({ r with error }, false)) := by
  unfold applyElement
  rcases hfind : r.find? e.1 with _ | own
  · exact .inr ⟨fun ⟨_, _, ht⟩ => by simpa [hfind] using ht.existing, .inr ⟨_, rfl⟩⟩
  · dsimp only [setPref]
    rcases hequal : own.isEqual (converted own e.2) with _ | _
    · rcases htaken : setPreference r.prefs e.1 (converted own e.2) with _ | error
      · exact .inl ⟨own, _, ⟨hfind, rfl, hequal, htaken⟩, by simp [Report.change]⟩
      · refine .inr ⟨?_, .inr ⟨_, rfl⟩⟩
        rintro ⟨own', x, hexisting, rfl, -, ht⟩
        rw [hfind, Option.some.injEq] at hexisting
        subst hexisting
        rw [htaken] at ht
        cases ht
    · refine .inr ⟨?_, .inl rfl⟩
      rintro ⟨own', x, hexisting, rfl, hdiffers, -⟩
      rw [hfind, Option.some.injEq] at hexisting
      subst hexisting
      rw [hequal] at hdiffers
      cases hdiffers

theorem step_cases (h : step setPreference r e = some r') :
    (∃ own x, Takes setPreference r e own x ∧ r' = r.change e.1 x) ∨
      (¬ ∃ own x, Takes setPreference r e own x) ∧ r' = r := by
  unfold step at h
  rcases applyElement_cases setPreference r e with ⟨own, x, ht, heq⟩ | ⟨hnot, heq | ⟨error, heq⟩⟩
  · rw [heq] at h
    exact .inl ⟨own, x, ht, (Option.some.inj h).symm⟩
  · rw [heq] at h
    exact .inr ⟨hnot, (Option.some.inj h).symm⟩
  · rw [heq] at h
    cases h

theorem Takes.step (h : Takes setPreference r e own x) :
    PreferencesTest.step setPreference r e = some (r.change e.1 x) := by
  unfold PreferencesTest.step
  rcases applyElement_cases setPreference r e with ⟨own', x', ht, heq⟩ | ⟨hnot, -⟩
  · rw [heq, if_pos rfl]
    have hown := h.existing.symm.trans ht.existing
    rw [Option.some.injEq] at hown
    rw [h.offered, ht.offered, hown]
  · exact absurd ⟨own, x, h⟩ hnot

/-! ### The whole dictionary -/

theorem applyElements_append (l l' : List (Bytes × CefValue)) (r : Report) :
    applyElements setPreference (l ++ l') r =
      if (applyElements setPreference l r).2 then applyElements setPreference l' (applyElements setPreference l r).1
      else ((applyElements setPreference l r).1, false) := by
  induction l generalizing r with
  | nil => rfl
  | cons e l ih =>
    rw [List.cons_append, applyElements, applyElements]
    dsimp only
    split
    · exact ih _
    · rfl

theorem registered_applyElement (r : Report) (e : Bytes × CefValue) :
    (applyElement setPreference r e).1.registered = r.registered := by
  rcases applyElement_cases setPreference r e with ⟨own, x, ht, heq⟩ | ⟨-, heq | ⟨error, heq⟩⟩
  · rw [heq]
    funext n
    have hexisting := ht.existing
    unfold Report.registered Report.find? Report.change at *
    by_cases hn : n = e.1
    · subst hn
      split at hexisting
      · cases hexisting
      · simp [*]
    · simp [Function.update_of_ne hn]
  · rw [heq]
  · rw [heq]
    rfl

variable (setPreference) in
theorem registered_applyElements (l : List (Bytes × CefValue)) (r : Report) :
    (applyElements setPreference l r).1.registered = r.registered := by
  induction l generalizing r with
  | nil => rfl
  | cons e l ih =>
    rw [applyElements]
    dsimp only
    split
    · rw [ih, registered_applyElement]
    · exact registered_applyElement r e

theorem applyElements_singleton (e : Bytes × CefValue) (r : Report) :
    applyElements setPreference [e] r = applyElement setPreference r e := by
  rw [applyElements]
  dsimp only
  split
  · rename_i h
    exact Prod.ext rfl h.symm
  · rename_i h
    exact Prod.ext rfl (by simpa using h)

mutual

theorem applyPrefs_eq (name : Bytes) (value : CefValue) (r : Report) :
    applyPrefs setPreference name value r =
      applyElements setPreference (elements r.registered name value) r := by
  rcases hfind : r.find? name with _ | existing
  · have hregistered : r.registered name = false := by rw [Report.registered, hfind]; rfl
    have hunregistered : applyElement setPreference r (name, value) = (r.unregistered name, false) := by
      unfold applyElement
      rw [hfind]
    match value with
    | .dictionary d =>
      have h := applyKeys_eq name d r
      unfold applyPrefs elements
      rw [hfind, hregistered]
      exact h
    | .null | .bool _ | .int _ | .double _ | .string _ | .binary _ | .list _ =>
      unfold applyPrefs elements
      rw [hfind, hregistered]
      dsimp only
      rw [applyElements_singleton]
      exact hunregistered.symm
  · have hregistered : r.registered name = true := by rw [Report.registered, hfind]; rfl
    unfold applyPrefs elements
    rw [hfind, hregistered]
    dsimp only
    rw [applyElements_singleton]
    unfold applyElement
    rw [hfind]

theorem applyKeys_eq (name : Bytes) (d : List (Bytes × CefValue)) (r : Report) :
    applyKeys setPreference name d r =
      applyElements setPreference (elementsOf r.registered name d) r := by
  match d with
  | [] =>
    unfold applyKeys elementsOf
    rfl
  | (key, value) :: d =>
    have hvalue := applyPrefs_eq (currentName name key) value r
    have hregistered := registered_applyElements setPreference
      (elements r.registered (currentName name key) value) r
    have hrest := applyKeys_eq name d
      (applyElements setPreference (elements r.registered (currentName name key) value) r).1
    rw [hregistered] at hrest
    unfold applyKeys elementsOf
    rw [applyElements_append, hvalue]
    dsimp only
    rw [hrest]

end

variable (setPreference) in
/-- `ApplyPrefs` stops at the first element that fails, with what the ones before it have done. -/
theorem applyElements_outcome (l : List (Bytes × CefValue)) (r : Report) :
    ∃ done rest m, l = done ++ rest ∧ Lts.exec (step setPreference) r done = some m ∧
      (if (applyElements setPreference l r).2 then rest = [] else ∃ e ∈ rest.head?, step setPreference m e = none) ∧
      (applyElements setPreference l r).1.prefs = m.prefs ∧
      (applyElements setPreference l r).1.changedNames = m.changedNames := by
  induction l generalizing r with
  | nil => exact ⟨[], [], r, rfl, rfl, rfl, rfl, rfl⟩
  | cons e l ih =>
    rcases hsuccess : (applyElement setPreference r e).2 with _ | _
    · have hstep : step setPreference r e = none := by simp [step, hsuccess]
      have hresult : applyElements setPreference (e :: l) r = ((applyElement setPreference r e).1, false) := by
        simp [applyElements, hsuccess]
      refine ⟨[], e :: l, r, rfl, rfl, ?_, ?_⟩
      · rw [hresult]
        exact ⟨e, rfl, hstep⟩
      · rw [hresult]
        rcases applyElement_cases setPreference r e with
          ⟨own, x, -, heq⟩ | ⟨-, heq | ⟨error, heq⟩⟩
        · rw [heq] at hsuccess
          cases hsuccess
        · rw [heq] at hsuccess
          cases hsuccess
        · rw [heq]
          exact ⟨rfl, rfl⟩
    · have hstep : step setPreference r e = some (applyElement setPreference r e).1 := by simp [step, hsuccess]
      have hresult : applyElements setPreference (e :: l) r =
          applyElements setPreference l (applyElement setPreference r e).1 := by
        simp [applyElements, hsuccess]
      obtain ⟨done, rest, m, hl, hexec, hend⟩ := ih (applyElement setPreference r e).1
      rw [hresult]
      exact ⟨e :: done, rest, m, by rw [hl, List.cons_append], by rw [Lts.exec_cons hstep, hexec], hend⟩

/-- What is sent back names the preferences changed by the elements before the first that fails, and is an
error just when one fails. -/
theorem onPreferencesSet_outcome (prefs : Preferences) (preferences : CefDictionaryValue) :
    ∃ done rest m,
      elements ({ prefs } : Report).registered [] (.dictionary preferences) = done ++ rest ∧
      Lts.exec (step setPreference) { prefs } done = some m ∧
      (onPreferencesSet setPreference prefs preferences).1 = m.prefs ∧
      (rest = [] → (onPreferencesSet setPreference prefs preferences).2 = .ok (message true [] m.changedNames)) ∧
      (rest ≠ [] → ∃ error, (onPreferencesSet setPreference prefs preferences).2 =
        .error (kPreferenceApplicationError, message false error m.changedNames)) := by
  obtain ⟨done, rest, m, hl, hexec, hend, hprefs, hnames⟩ := applyElements_outcome setPreference
    (elements ({ prefs } : Report).registered [] (.dictionary preferences)) { prefs }
  rw [← applyPrefs_eq] at hend hprefs hnames
  unfold onPreferencesSet
  refine ⟨done, rest, m, hl, hexec, hprefs, fun hrest => ?_, fun hrest => ?_⟩
  · split at hend
    · rename_i hsuccess
      dsimp only
      rw [hsuccess, hnames]
      rfl
    · obtain ⟨e, he, -⟩ := hend
      rw [hrest] at he
      cases he
  · split at hend
    · exact absurd hend hrest
    · rename_i hsuccess
      rw [Bool.not_eq_true] at hsuccess
      dsimp only
      rw [hsuccess, hnames]
      exact ⟨_, rfl⟩

/-! ### When the report is right -/

theorem Report.existing {name : Bytes} (h : r.find? name = some own) : r.prefs name = some own := by
  unfold find? at h
  split at h
  · cases h
  · exact h

theorem exec_changes (h : Lts.exec (step setPreference) r l = some m) :
    ∃ later, m.changedNames = r.changedNames ++ later ∧ ∀ n ∉ later, m.prefs n = r.prefs n := by
  induction l generalizing r with
  | nil =>
    cases h
    exact ⟨[], (List.append_nil _).symm, fun _ _ => rfl⟩
  | cons e l ih =>
    obtain ⟨r', hs, hm⟩ := Option.bind_eq_some_iff.1 h
    obtain ⟨later, hnames, hprefs⟩ := ih hm
    rcases step_cases hs with ⟨own, x, -, rfl⟩ | ⟨-, rfl⟩
    · refine ⟨e.1 :: later, by simp [hnames], fun n hn => ?_⟩
      rw [List.mem_cons, not_or] at hn
      rw [hprefs n hn.2, Report.prefs_change_of_ne hn.1]
    · exact ⟨later, hnames, hprefs⟩

theorem getType_ownValue (h : ownValue own value = some x) : x.getType = own.getType := by
  unfold ownValue at h
  split at h
  · cases h
    assumption
  · split at h
    · split_ifs at h <;> cases h <;> rfl
    · cases h
      rfl
    · cases h
      rfl
    · cases h

/-- A conversion to the preference's type is the right one. -/
theorem ownValue_converted (h : (converted own value).getType = own.getType) :
    ownValue own value = some (converted own value) := by
  unfold ownValue
  split
  · rename_i hsame
    unfold converted
    split
    · cases hsame
    · cases hsame
    · cases hsame
    · rfl
  · rename_i hsame
    unfold converted at h ⊢
    split
    · dsimp only at h ⊢
      split_ifs at h ⊢
      · rfl
      · rfl
      · cases h
    · rfl
    · cases h
    · rename_i hbool hint hdouble
      split at h
      · exact absurd rfl (hbool _ _ rfl)
      · exact absurd rfl (hint _ _ rfl)
      · exact absurd rfl (hdouble _ _ rfl)
      · exact absurd h hsame

theorem accurate_start (initial : Preferences) : Accurate initial initial [] [] where
  nodup := List.nodup_nil
  changed_iff n := by simp
  value n h := by cases h

theorem Accurate.step {supplied : List (Bytes × CefValue)} (ha : Accurate initial r.prefs supplied r.changedNames)
    (hr : Regular setPreference initial r e) (hs : PreferencesTest.step setPreference r e = some r') :
    Accurate initial r'.prefs (supplied ++ [e]) r'.changedNames := by
  have hmore : ∀ n ∈ r.changedNames, ∃ own v, initial n = some own ∧ (n, v) ∈ supplied ++ [e] ∧
      r.prefs n = ownValue own v := by
    intro n hn
    obtain ⟨own, v, hown, hv, hfinal⟩ := ha.value n hn
    exact ⟨own, v, hown, List.mem_append_left _ hv, hfinal⟩
  rcases step_cases hs with ⟨own, x, ht, rfl⟩ | ⟨-, rfl⟩
  · obtain ⟨hfirst, htype, hne⟩ := hr own x ht
    have hown : initial e.1 = some own := hfirst ▸ Report.existing ht.existing
    have hnew : e.1 ∉ r.changedNames := fun hmem => (ha.changed_iff e.1).1 hmem hfirst
    refine ⟨?_, fun n => ?_, fun n hn => ?_⟩
    · rw [Report.changedNames_change]
      exact List.nodup_append.2 ⟨ha.nodup, List.nodup_singleton _, by rintro n hn _ hmem rfl; simp_all⟩
    · rw [Report.changedNames_change, List.mem_append, List.mem_singleton]
      by_cases hn : n = e.1
      · subst hn
        rw [Report.prefs_change_self, hown]
        simpa using hne
      · rw [Report.prefs_change_of_ne hn, ← ha.changed_iff n]
        exact or_iff_left hn
    · rw [Report.changedNames_change, List.mem_append, List.mem_singleton] at hn
      by_cases hself : n = e.1
      · subst hself
        rw [Report.prefs_change_self]
        refine ⟨own, e.2, hown, List.mem_append_right _ (List.mem_singleton.2 rfl), ?_⟩
        rw [ht.offered] at htype ⊢
        exact (ownValue_converted htype).symm
      · rw [Report.prefs_change_of_ne hself]
        exact hmore n (hn.resolve_right hself)
  · exact ⟨ha.nodup, ha.changed_iff, hmore⟩

theorem accurate_run (h : Lts.Run (step setPreference) (Regular setPreference initial) { prefs := initial } l m) :
    Accurate initial m.prefs l m.changedNames :=
  h.hist (I := fun supplied r => Accurate initial r.prefs supplied r.changedNames) (p := [])
    (fun _ _ _ _ ha hr hs => ha.step hr hs) (accurate_start initial)

/-- Seen from behind, every element on the way was regular. -/
theorem meets_of_accurate {rest supplied : List (Bytes × CefValue)}
    (ha : Accurate initial m.prefs supplied m.changedNames)
    (hrest : Lts.Meets (step setPreference) (Regular setPreference initial) m rest)
    (hr : ∀ n ∉ r.changedNames, r.prefs n = initial n)
    (h : Lts.exec (step setPreference) r l = some m) :
    Lts.Meets (step setPreference) (Regular setPreference initial) r (l ++ rest) := by
  induction l generalizing r with
  | nil =>
    cases h
    exact hrest
  | cons e l ih =>
    obtain ⟨r', hs, hm⟩ := Option.bind_eq_some_iff.1 h
    refine ⟨fun own x ht => ?_, fun r'' hs' => ?_⟩
    · rw [ht.step, Option.some.injEq] at hs
      subst hs
      obtain ⟨later, hnames, hprefs⟩ := exec_changes hm
      have hnodup := ha.nodup
      rw [hnames, Report.changedNames_change, List.append_assoc, List.singleton_append,
        List.nodup_middle, List.nodup_cons, List.mem_append, not_or] at hnodup
      obtain ⟨⟨hbefore, hlater⟩, -⟩ := hnodup
      have hmem : e.1 ∈ m.changedNames := by rw [hnames]; simp
      have hfinal : m.prefs e.1 = some x := by rw [hprefs _ hlater, Report.prefs_change_self]
      have hfirst := hr e.1 hbefore
      have hown : initial e.1 = some own := hfirst ▸ Report.existing ht.existing
      obtain ⟨own', v, hown', -, hvalue⟩ := ha.value e.1 hmem
      rw [hown, Option.some.injEq] at hown'
      subst hown'
      refine ⟨hfirst, getType_ownValue (hvalue.symm.trans hfinal), ?_⟩
      rintro rfl
      exact (ha.changed_iff e.1).1 hmem (hfinal.trans hown.symm)
    · rw [hs, Option.some.injEq] at hs'
      subst hs'
      refine ih (fun n hn => ?_) hm
      rcases step_cases hs with ⟨own, x, -, rfl⟩ | ⟨-, rfl⟩
      · rw [Report.changedNames_change, List.mem_append, List.mem_singleton, not_or] at hn
        rw [Report.prefs_change_of_ne hn.2, hr n hn.1]
      · exact hr n hn

end

/-- The report of every nested dictionary is right just when each value that is taken is of its
preference's type and differs from the value stored, which has not been changed before. -/
theorem reported_iff (setPreference : Preferences → Bytes → CefValue → Option Bytes) (initial : Preferences)
    (preferences : CefDictionaryValue) :
    let start : Report := { prefs := initial }
    let supplied := elements start.registered [] (.dictionary preferences)
    Reported setPreference initial supplied (applyPrefs setPreference [] (.dictionary preferences) start) ↔
      Lts.Meets (step setPreference) (Regular setPreference initial) start supplied := by
  intro start supplied
  rw [applyPrefs_eq]
  constructor
  · rintro ⟨done, rest, m, hsupplied, hexec, hend, -, -, ha⟩
    rw [hsupplied]
    refine meets_of_accurate ha ?_ (fun _ _ => rfl) hexec
    split at hend
    · rw [hend]
      trivial
    · obtain ⟨e, he, hfails⟩ := hend
      obtain ⟨rest', rfl⟩ := List.head?_eq_some_iff.1 he
      refine ⟨fun own x ht => ?_, fun r hs => ?_⟩
      · rw [ht.step] at hfails
        cases hfails
      · rw [hfails] at hs
        cases hs
  · intro hmeets
    obtain ⟨done, rest, m, hsupplied, hexec, hend, hprefs, hnames⟩ := applyElements_outcome
      setPreference supplied start
    refine ⟨done, rest, m, hsupplied, hexec, hend, hprefs, hnames, ?_⟩
    rw [hsupplied] at hmeets
    exact accurate_run (Lts.run_of_meets hmeets.of_append hexec)

/-- A preference by its nested and by its dotted name is listed twice, and a double preference that is
supplied with the string `1.5` becomes the integer 1. -/
theorem not_reported :
    (let start : Report := { prefs := fun n => if n = lit "a.b" then some (.int 0) else none }
      let preferences : CefValue :=
        .dictionary [(lit "a", .dictionary [(lit "b", .int 1)]), (lit "a.b", .int 2)]
      ¬ Reported (fun _ _ _ => none) start.prefs (elements start.registered [] preferences)
        (applyPrefs (fun _ _ _ => none) [] preferences start)) ∧
    (let start : Report := { prefs := fun n => if n = lit "d" then some (.double .zero) else none }
      let preferences : CefValue := .dictionary [(lit "d", .string (lit "1.5"))]
      ¬ Reported (fun _ _ _ => none) start.prefs (elements start.registered [] preferences)
        (applyPrefs (fun _ _ _ => none) [] preferences start)) := by
  constructor
  · rintro start preferences ⟨done, rest, r, -, -, -, -, hnames, ha⟩
    have htwice : (applyPrefs (fun _ _ _ => none) [] preferences start).1.changedNames =
        [lit "a.b", lit "a.b"] := by decide +kernel
    have hnodup := ha.nodup
    rw [← hnames, htwice] at hnodup
    exact absurd hnodup (by decide)
  · rintro start preferences ⟨done, rest, r, -, -, -, hprefs, hnames, ha⟩
    have hchanged : (applyPrefs (fun _ _ _ => none) [] preferences start).1.changedNames = [lit "d"] := by
      decide +kernel
    have hfinal : (applyPrefs (fun _ _ _ => none) [] preferences start).1.prefs (lit "d") = some (.int 1) := by
      rfl
    obtain ⟨own, v, hown, -, hvalue⟩ := ha.value (lit "d") (by rw [← hnames, hchanged]; exact .head _)
    obtain rfl : CefValue.double .zero = own := Option.some.inj hown
    rw [← hprefs, hfinal] at hvalue
    exact absurd (getType_ownValue hvalue.symm) (by decide)

end PreferencesTest
end NplBrowser
