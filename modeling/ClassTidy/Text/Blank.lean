/-!
# Blanks and words

A blank is a character with the Unicode property White_Space. The words of a text are its maximal
runs of characters that are not blank, in order: this is how a class attribute falls into classes
and a category's specification into entries.
-/

namespace ClassTidy.Text

/-- The characters with the property White_Space: 25 of them, all in the basic plane. -/
def isBlank (c : Char) : Bool :=
  let n := c.toNat
  (0x09 ≤ n && n ≤ 0x0D) || n == 0x20 || n == 0x85 || n == 0xA0 || n == 0x1680
    || (0x2000 ≤ n && n ≤ 0x200A) || n == 0x2028 || n == 0x2029 || n == 0x202F
    || n == 0x205F || n == 0x3000

/-- The maximal runs of characters that are not blank. -/
def runs : List Char → List (List Char)
  | [] => []
  | c :: cs =>
    if isBlank c then runs cs
    else (c :: cs.takeWhile (!isBlank ·)) :: runs (cs.dropWhile (!isBlank ·))
  termination_by cs => cs.length
  decreasing_by
    · simp
    · have := (List.dropWhile_sublist (p := (!isBlank ·)) (l := cs)).length_le
      simp only [List.length_cons]
      omega

/-- The words of a text: its runs of characters that are not blank. -/
def words (s : String) : List String :=
  (runs s.toList).map String.ofList

/-- Every run has a character, and none of its characters is blank. -/
theorem ne_nil_of_mem_runs {cs w : List Char} (h : w ∈ runs cs) :
    w ≠ [] ∧ ∀ c ∈ w, isBlank c = false := by
  fun_induction runs cs with
  | case1 => simp at h
  | case2 c cs _ ih => exact ih h
  | case3 c cs hc ih =>
    rcases List.mem_cons.mp h with rfl | h
    · refine ⟨by simp, fun d hd => ?_⟩
      rcases List.mem_cons.mp hd with rfl | hd
      · simpa using hc
      · simpa using List.all_eq_true.mp (List.all_takeWhile (l := cs)) d hd
    · exact ih h

end ClassTidy.Text
