import Mathlib.Data.List.Find
import ClassTidy.Proofs.BareNames

/-!
# Text behind an interpolation

The text of an interpolation is not known in advance, so it must not decide which entry owns a
class. The lookup key ends before the first `${`, but the scope is taken off before the cut, and a
label might go on into the interpolation. A label without the mark `${` does not: its scope ends in
a colon, which is no character of the mark.

> `bareName_append_mark`: the scope that is taken off stands before the interpolation;
> `lookupKey_append_mark`: so a class is looked up by what stands before its interpolation.

No mark is left in what is looked up (`not_interpolated_lookupKey`), whatever the labels are, and a
stem with a mark begins no such text:

> `owner?_before_interpolation`: both together.
-/

namespace ClassTidy

/-- The two characters that begin an interpolation. -/
def interpolationMark : String := "$\x7b"

@[simp] theorem toList_interpolationMark : interpolationMark.toList = ['$', '{'] := rfl

/-- An interpolation begins somewhere in the text. -/
def Interpolated (text : String) : Prop :=
  interpolationMark.toList <:+: text.toList

instance (text : String) : Decidable (Interpolated text) :=
  inferInstanceAs (Decidable (_ <:+: _))

variable {viewports : List String} {label : String}

/-! ## The cut -/

/-- What stands behind a mark is cut off, and what stands before it is cut as it is alone: the mark
does not begin with its second character, so no other mark goes into it. -/
theorem beforeInterpolation_append_mark (cs rest : List Char) :
    beforeInterpolation (cs ++ '$' :: '{' :: rest) = beforeInterpolation cs := by
  induction cs with
  | nil => rfl
  | cons c cs ih =>
    have hnext : (cs ++ '$' :: '{' :: rest).head? = some '{' ↔ cs.head? = some '{' := by
      cases cs <;> simp
    rw [List.cons_append, beforeInterpolation, beforeInterpolation, ih]
    simp only [hnext]

theorem literalPart_append_mark (k s : String) :
    literalPart (k ++ interpolationMark ++ s) = literalPart k := by
  unfold literalPart
  rw [String.toList_append, String.toList_append, toList_interpolationMark, List.append_assoc]
  exact congrArg String.ofList (beforeInterpolation_append_mark k.toList s.toList)

/-- No mark is left before the cut. -/
theorem not_mark_infix_beforeInterpolation (cs : List Char) :
    ¬interpolationMark.toList <:+: beforeInterpolation cs := by
  rw [toList_interpolationMark]
  induction cs with
  | nil => decide
  | cons c cs ih =>
    rw [beforeInterpolation]
    split
    next => decide
    next hc =>
      rw [List.infix_cons_iff]
      rintro (hfront | hinfix)
      · -- A mark at the front would have been cut, since what is left begins as the text does.
        obtain ⟨rfl, hrest⟩ := List.cons_prefix_cons.mp hfront
        obtain ⟨rest, hcs⟩ := hrest.trans (beforeInterpolation_begins cs)
        exact hc ⟨rfl, by rw [← hcs]; rfl⟩
      · exact ih hinfix

theorem not_interpolated_lookupKey (viewports : List String) (cls : String) :
    ¬Interpolated (lookupKey viewports cls) := by
  unfold Interpolated lookupKey literalPart
  rw [String.toList_ofList]
  exact not_mark_infix_beforeInterpolation _

/-! ## The scope -/

/-- A text that ends in a colon, and has no mark before it, does not go on into a mark. -/
theorem prefix_append_mark_iff {l cs rest : List Char} (hl : ¬interpolationMark.toList <:+: l) :
    l ++ [':'] <+: cs ++ '$' :: '{' :: rest ↔ l ++ [':'] <+: cs := by
  refine ⟨?_, fun h => h.trans (List.prefix_append ..)⟩
  intro h
  rcases List.prefix_or_prefix_of_prefix h (List.prefix_append cs _) with hle | ⟨more, hmore⟩
  · exact hle
  · rw [← hmore, List.prefix_append_right_inj] at h
    -- The text goes on behind `cs` as the mark does, up to a colon.
    rcases List.eq_nil_or_concat' more with rfl | ⟨front, c, rfl⟩
    · rw [List.append_nil] at hmore
      exact hmore ▸ List.prefix_rfl
    · rw [← List.append_assoc] at hmore
      obtain ⟨rfl, hcolon⟩ := List.append_inj' hmore rfl
      obtain rfl := List.singleton_inj.mp hcolon
      match front with
      | [] => exact absurd h (by simp)
      | [c] => exact absurd h (by simp)
      | c :: d :: front =>
        rw [List.cons_append, List.cons_append, List.cons_prefix_cons, List.cons_prefix_cons] at h
        obtain ⟨rfl, rfl, -⟩ := h
        exact absurd ⟨cs, front, by simp [toList_interpolationMark]⟩ hl

/-- A label without a mark scopes a class by what stands before the interpolation. -/
theorem scopes_append_mark (hlabel : ¬Interpolated label) (k s : String) :
    scopes label (k ++ interpolationMark ++ s) = scopes label k := by
  have hcolon : (label ++ ":").toList = label.toList ++ [':'] := String.toList_append ..
  unfold scopes
  congr 1
  rw [Bool.eq_iff_iff, List.isPrefixOf_iff_prefix, List.isPrefixOf_iff_prefix, hcolon,
    String.toList_append, String.toList_append, toList_interpolationMark, List.append_assoc]
  exact prefix_append_mark_iff hlabel

/-- The scope of a class is taken off what stands before the interpolation. -/
theorem bareName_append_mark (hlabels : ∀ label ∈ viewports, ¬Interpolated label) (k s : String) :
    bareName viewports (k ++ interpolationMark ++ s)
      = bareName viewports k ++ interpolationMark ++ s := by
  have hfind : viewports.find? (scopes · (k ++ interpolationMark ++ s))
      = viewports.find? (scopes · k) := by
    apply List.find?_congr
    intro label hlabel
    exact scopes_append_mark (hlabels label hlabel) k s
  cases hk : viewports.find? (scopes · k) with
  | none => rw [bareName_eq_self hk, bareName_eq_self (hfind.trans hk)]
  | some label =>
    apply inScope_injective label
    rw [inScope_bareName (hfind.trans hk), inScope_append, inScope_append, inScope_bareName hk]

/-- **A class is looked up by what stands before its interpolation.** -/
theorem lookupKey_append_mark (hlabels : ∀ label ∈ viewports, ¬Interpolated label)
    (k s : String) : lookupKey viewports (k ++ interpolationMark ++ s) = lookupKey viewports k := by
  rw [lookupKey, bareName_append_mark hlabels, literalPart_append_mark, lookupKey]

/-- A label with a mark in it may take off the interpolation. -/
example : lookupKey ["a$\x7bb\x7d"] ("a" ++ interpolationMark ++ "b\x7d:p") = "p" := by decide

/-! ## Owners -/

namespace Taxonomy

/-- **Interpolated text decides nothing.** If no label has a mark in it, a class that goes on in an
interpolation is owned by the entry that owns what stands before, or by none. And an entry whose
stem has a mark in it owns no class, whatever the labels are. -/
theorem owner?_before_interpolation (t : Taxonomy) :
    (∀ viewports : List String, (∀ label ∈ viewports, ¬Interpolated label) → ∀ k s : String,
      owner? t.ranking viewports (k ++ interpolationMark ++ s) = owner? t.ranking viewports k) ∧
    (∀ (viewports : List String) (cls : String) (e : Entry), Interpolated e.stem →
      owner? t.ranking viewports cls ≠ some e) := by
  constructor
  · intro viewports hlabels k s
    unfold owner?
    rw [lookupKey_append_mark hlabels]
  · intro viewports cls e hstem howner
    obtain ⟨before, hwins⟩ := owner?_eq_some_iff.mp howner
    exact not_interpolated_lookupKey viewports cls (hstem.trans hwins.begins.isInfix)

/-- A scoped class with a dollar in front of its interpolation, and a stem with a mark in it. -/
theorem owner?_before_interpolation_dollar :
    let t : Taxonomy := [⟨"space", "p-$\x7bx p-$* p-"⟩]
    let viewports := ["md:x", "", "md"]
    let k := "md:p-$"
    let s := "x\x7d:p-$\x7by\x7d"
    let e : Entry := ⟨0, 0, "p-$\x7bx"⟩
    (∀ label ∈ viewports, ¬Interpolated label) ∧
      owner? t.ranking viewports k = some ⟨0, 1, "p-$*"⟩ ∧
      owner? t.ranking viewports (k ++ interpolationMark ++ s) = some ⟨0, 1, "p-$*"⟩ ∧
      (e ∈ t.entries ∧ Interpolated e.stem) ∧
      owner? t.ranking viewports "md:p-$\x7bx\x7d" ≠ some e := by
  intro t viewports k s e
  have hlabels : ∀ label ∈ viewports, ¬Interpolated label := by decide
  have howner : owner? t.ranking viewports k = some ⟨0, 1, "p-$*"⟩ := by
    rw [ranking_eq_insertionSort]
    decide +kernel
  have hentries : t.entries = [e, ⟨0, 1, "p-$*"⟩, ⟨0, 2, "p-"⟩] := by decide +kernel
  have he : e ∈ t.entries := by
    rw [hentries]
    decide
  have hstem : Interpolated e.stem := by decide
  obtain ⟨hbefore, hnever⟩ := owner?_before_interpolation t
  exact ⟨hlabels, howner, (hbefore viewports hlabels k s).trans howner, ⟨he, hstem⟩,
    hnever viewports _ e hstem⟩

end Taxonomy

end ClassTidy
