import NplBrowser.StdString

/-!
# Replacing in a string (`test_runner.cc`)

`StringReplace` searches on behind what it has put in, so that every occurrence in the original is
replaced once; of a single character the result is that of replacing every one on its own.
-/

namespace NplBrowser

section
variable {«from» «to» : Bytes} {c : UInt8} {pos p : Nat} {result : Bytes}

theorem findFrom_le (h : «from» ≠ []) (hp : Search.findFrom «from» result pos = some p) :
    pos ≤ p ∧ p + «from».length ≤ result.length := by
  obtain ⟨hle, hat, -⟩ := Search.findFrom_eq_some_iff.1 hp
  exact ⟨hle, hat.le h⟩

/-- The loop of `StringReplace`. -/
def replaceLoop («from» «to» : Bytes) (h : «from» ≠ []) (result : Bytes) (pos : Nat) : Bytes :=
  match _hp : Search.findFrom «from» result pos with
  | some p =>
    replaceLoop «from» «to» h (result.take p ++ «to» ++ result.drop (p + «from».length)) (p + «to».length)
  | none => result
termination_by result.length - pos
decreasing_by
  have hle := findFrom_le h _hp
  have hpos := List.length_pos_iff.2 h
  simp only [List.length_append, List.length_take, List.length_drop]
  omega

/-- `StringReplace`, which does not return for an empty `from`. -/
def stringReplace (str «from» «to» : Bytes) (h : «from» ≠ [] := by decide) : Bytes := replaceLoop «from» «to» h str 0

theorem replaceLoop_of_none (h : «from» ≠ []) (hp : Search.findFrom «from» result pos = none) :
    replaceLoop «from» «to» h result pos = result := by
  rw [replaceLoop]
  split
  · rename_i hp'
    rw [hp] at hp'
    cases hp'
  · rfl

theorem replaceLoop_of_some (h : «from» ≠ []) (hp : Search.findFrom «from» result pos = some p) :
    replaceLoop «from» «to» h result pos =
      replaceLoop «from» «to» h (result.take p ++ «to» ++ result.drop (p + «from».length)) (p + «to».length) := by
  rw [replaceLoop]
  split
  · rename_i hp'
    rw [hp, Option.some.injEq] at hp'
    rw [hp']
  · rename_i hp'
    rw [hp] at hp'
    cases hp'

/-- Behind `a`, which has been searched. -/
theorem replaceLoop_singleton (h : [c] ≠ []) (a s : Bytes) :
    replaceLoop [c] «to» h (a ++ s) a.length = a ++ s.flatMap fun b => if b = c then «to» else [b] := by
  induction s generalizing a with
  | nil =>
    rw [replaceLoop_of_none, List.flatMap_nil]
    refine Search.findFrom_eq_none_iff.2 fun j hj hat => ?_
    have hle := hat.le h
    simp only [List.append_nil, List.length_cons, List.length_nil] at hle
    omega
  | cons b s ih =>
    by_cases hb : b = c
    · subst hb
      have hfind : Search.findFrom [b] (a ++ b :: s) a.length = some a.length :=
        Search.findFrom_singleton (List.not_mem_nil) a s
      have hresult : (a ++ b :: s).take a.length ++ «to» ++ (a ++ b :: s).drop (a.length + [b].length) =
          (a ++ «to») ++ s := by simp
      rw [replaceLoop_of_some h hfind, hresult, ← List.length_append, ih, List.flatMap_cons, if_pos rfl,
        List.append_assoc]
    · have hskip : Search.findFrom [c] (a ++ b :: s) a.length =
          Search.findFrom [c] ((a ++ [b]) ++ s) (a ++ [b]).length := by
        have hfirst : Search.first [c] (b :: s) = (Search.first [c] s).map (· + 1) :=
          if_neg (by simpa using Ne.symm hb)
        unfold Search.findFrom
        rw [List.drop_left, List.drop_left, hfirst, Option.map_map, List.length_append]
        congr 1
        funext i
        simp only [Function.comp_apply, List.length_cons, List.length_nil]
        omega
      have hstep : replaceLoop [c] «to» h (a ++ b :: s) a.length =
          replaceLoop [c] «to» h ((a ++ [b]) ++ s) (a ++ [b]).length := by
        rw [← List.append_cons] at hskip ⊢
        cases hfind : Search.findFrom [c] (a ++ b :: s) a.length with
        | none => exact (replaceLoop_of_none h hfind).trans (replaceLoop_of_none h (hskip ▸ hfind)).symm
        | some p => exact (replaceLoop_of_some h hfind).trans (replaceLoop_of_some h (hskip ▸ hfind)).symm
      rw [hstep, ih, List.flatMap_cons, if_neg hb, List.append_assoc]

theorem stringReplace_singleton (str : Bytes) (c : UInt8) («to» : Bytes) (h : [c] ≠ []) :
    stringReplace str [c] «to» h = str.flatMap fun b => if b = c then «to» else [b] :=
  replaceLoop_singleton h [] str

end

end NplBrowser
