import ClassTidy.Command.Program
import ClassTidy.Proofs.Owners

/-!
# The listed buckets and the inline layout

The buckets of an attribute are listed from classes that are gathered label by label, and each label
that has been seen is passed over. The inline layout takes the scoped classes of the distinct labels
instead. What is still to be gathered are the distinct labels that have not been seen
(`gather_eq`), so at the start both are the same:

> `listing_eq`: the listed buckets are those of the combined classes;
> `listing_lines_eq_inline`: the lines of the listed buckets are the inline layout.
-/

namespace ClassTidy.Command

/-- The labels still to come add the classes of the distinct ones among them that have not been
seen. -/
theorem gather_eq (a : Attribute) (seen classes labels : List String) :
    gather a seen classes labels
      = classes ++ (labels.filter (· ∉ seen)).eraseDups.flatMap a.scopedTo := by
  induction labels generalizing seen classes with
  | nil => simp [gather]
  | cons label labels ih =>
    rw [gather]
    by_cases hseen : label ∈ seen
    · rw [if_pos hseen, ih, List.filter_cons_of_neg (by simpa using hseen)]
    · -- The label is the first of the distinct ones, and from now on it has been seen.
      have hrest : labels.filter (· ∉ label :: seen)
          = (labels.filter (· ∉ seen)).filter (!· == label) := by
        rw [List.filter_filter]
        apply List.filter_congr
        intro other _
        rw [Bool.eq_iff_iff]
        simp
      rw [if_neg hseen, ih, List.filter_cons_of_pos (by simpa using hseen), List.eraseDups_cons,
        List.flatMap_cons, hrest, List.append_assoc]

/-- **The listed buckets are those of the combined classes.** -/
theorem listing_eq (s : Settings) (a : Attribute) :
    listing s a = s.sort (a.combined s.viewports) := by
  have hall : s.viewports.filter (· ∉ []) = s.viewports := List.filter_eq_self.mpr (by simp)
  rw [listing, gather_eq, hall, Attribute.combined]

/-- **Listing and the inline layout see the same buckets.** What is printed for a listing are the
buckets of `listing`, and their lines are the layout of the attribute in inline mode, in the same
width, measure and placement. The buckets depend on none of these, nor on the mode. -/
theorem listing_lines_eq_inline (s : Settings) (a : Attribute) :
    (∀ o : Options, o.action = .group →
      o.print s a = (listing s a).toJson.toPrettyText ++ "\n") ∧
    (listing s a).lines s.measure.width s.printWidth s.placement
      = Settings.layout { s with mode := .inline } a ∧
    (∀ mode placement width measure,
      let s' : Settings :=
        { s with mode := mode, placement := placement, printWidth := width, measure := measure }
      listing s' a = listing s a) := by
  refine ⟨?_, ?_, ?_⟩
  · intro o haction
    rw [Options.print, haction]
  · rw [listing_eq]
    rfl
  · intro mode placement width measure s'
    rw [listing_eq, listing_eq]
    rfl

/-- A label given twice, the empty label, and classes of a label that is not among the viewports. -/
theorem listing_lines_eq_inline_repeated_label :
    let s : Settings :=
      { taxonomy := [⟨"box", "flex p-*"⟩], viewports := ["md", "", "md", "sm"], printWidth := 9 }
    let inline : Settings := { s with mode := .inline }
    let a : Attribute :=
      { base := ["p-4"]
        byViewport := .ofList [("sm", ["flex"]), ("", ["?"]), ("lg", ["flex"]), ("md", ["p-2"])] }
    let o : Options := { action := .group, config := "c.json" }
    o.action = .group ∧
      listing s a = ⟨[⟨"box", [⟨"flex", ["sm:flex"]⟩, ⟨"p-*", ["p-4", "md:p-2"]⟩]⟩], [":?"]⟩ ∧
      o.print s a = (listing s a).toJson.toPrettyText ++ "\n" ∧
      inline.layout a = ["sm:flex", "p-4 md:p-2", ":?"] ∧
      (listing s a).lines s.measure.width s.printWidth s.placement = inline.layout a := by
  intro s inline a o
  obtain ⟨hprint, hlines, -⟩ := listing_lines_eq_inline s a
  have hlisting :
      listing s a = ⟨[⟨"box", [⟨"flex", ["sm:flex"]⟩, ⟨"p-*", ["p-4", "md:p-2"]⟩]⟩], [":?"]⟩ := by
    rw [listing_eq, Settings.sort, Sorted.ofClasses, Taxonomy.ranking_eq_insertionSort]
    decide +kernel
  have hlayout : inline.layout a = ["sm:flex", "p-4 md:p-2", ":?"] := by
    rw [← hlines, hlisting]
    decide +kernel
  exact ⟨rfl, hlisting, hprint o rfl, hlayout, hlines⟩

end ClassTidy.Command
