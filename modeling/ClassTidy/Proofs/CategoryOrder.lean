import Mathlib.Logic.Equiv.Basic
import ClassTidy.Proofs.LongestStem
import ClassTidy.Proofs.Partition

/-!
# The order of the categories

The same categories in another order have other positions, and entries of different categories that
tie may change places. `Places` says where each category of one taxonomy stands in the other, and
every statement below is about two taxonomies so related, so that each holds both ways:

> `stem_eq_of_owners`: a class has an owner in both or in none, and the owners have one stem;
> `owner_moved`: if only one category declares this stem, the owner is the same entry of it.

For within a category nothing changes places, and the first entry that is found of all with a stem
is the first of its own category (`find?_declared`). So the order of the categories only decides
where their shelves stand:

> `category_order`: classes are uncategorized in both or in none, and the shelves are permuted as
> the categories are, if no stem is declared in two of them.
-/

namespace ClassTidy

/-- The entry in the category that stands where its own is placed. -/
def Entry.moved (place : Equiv.Perm ℕ) (e : Entry) : Entry :=
  { e with category := place e.category }

namespace Taxonomy

/-- The category at each position of the first taxonomy stands in the second one where it is
placed. -/
def Places (place : Equiv.Perm ℕ) (t t' : Taxonomy) : Prop :=
  ∀ i, t'[place i]? = t[i]?

/-- The category at the position declares an entry with this stem. -/
def DeclaresStem (t : Taxonomy) (i : ℕ) (s : String) : Prop :=
  ∃ c, t[i]? = some c ∧ ∃ key ∈ c.declared, stem key = s

/-- One category in front, and the others placed behind it. -/
private def placeBehind (place : Equiv.Perm ℕ) : Equiv.Perm ℕ where
  toFun
    | 0 => 0
    | i + 1 => place i + 1
  invFun
    | 0 => 0
    | i + 1 => place.symm i + 1
  left_inv i := by cases i <;> simp
  right_inv i := by cases i <;> simp

/-- Categories in another order are placed somewhere. -/
theorem exists_places_of_perm {t t' : Taxonomy} (h : t'.Perm t) :
    ∃ place, Places place t t' := by
  induction h with
  | nil => exact ⟨Equiv.refl ℕ, fun _ => rfl⟩
  | cons c _ ih =>
    obtain ⟨place, hplace⟩ := ih
    refine ⟨placeBehind place, ?_⟩
    intro i
    cases i with
    | zero => rfl
    | succ i => exact hplace i
  | swap c c' t =>
    refine ⟨Equiv.swap 0 1, ?_⟩
    intro i
    match i with
    | 0 => rw [Equiv.swap_apply_left]; rfl
    | 1 => rw [Equiv.swap_apply_right]; rfl
    | i + 2 => rw [Equiv.swap_apply_of_ne_of_ne (by omega) (by omega)]; rfl
  | trans _ _ ih ih' =>
    obtain ⟨place, hplace⟩ := ih
    obtain ⟨place', hplace'⟩ := ih'
    refine ⟨place'.trans place, ?_⟩
    intro i
    show _[place (place' i)]? = _
    rw [hplace, hplace']

variable {place : Equiv.Perm ℕ} {t t' : Taxonomy} {viewports : List String} {cls : String}
  {e e' : Entry}

theorem Places.symm (h : Places place t t') : Places place.symm t' t := by
  intro i
  rw [← h (place.symm i), Equiv.apply_symm_apply]

/-- No categories are placed as no categories. -/
theorem Places.eq_nil_iff (h : Places place t t') : t' = [] ↔ t = [] := by
  have hnil : ∀ {place : Equiv.Perm ℕ} {t t' : Taxonomy}, Places place t t' → t' = [] → t = [] := by
    intro place t t' h ht'
    have hfirst := h 0
    rw [ht', List.getElem?_nil] at hfirst
    exact List.eq_nil_of_length_eq_zero (Nat.le_zero.mp (List.getElem?_eq_none_iff.mp hfirst.symm))
  exact ⟨hnil h, hnil h.symm⟩

/-- An entry is declared by the same category where that is placed. -/
theorem Places.mem_entries (h : Places place t t') (he : e ∈ t.entries) :
    e.moved place ∈ t'.entries := by
  rw [mem_entries_iff] at he ⊢
  obtain ⟨c, hc, hkey⟩ := he
  exact ⟨c, (h e.category).trans hc, hkey⟩

/-- The stems that a category declares are those of its entries. -/
theorem declaresStem_iff {i : ℕ} {s : String} :
    t.DeclaresStem i s ↔ ∃ e ∈ t.entries, e.category = i ∧ e.stem = s := by
  constructor
  · intro h
    obtain ⟨c, hc, key, hkey, hstem⟩ := h
    exact ⟨⟨i, c.keys.idxOf key, key⟩,
      mem_entries_iff.mpr ⟨c, hc, Category.getElem?_keys_iff.mpr ⟨hkey, rfl⟩⟩, rfl, hstem⟩
  · intro h
    obtain ⟨e, he, rfl, rfl⟩ := h
    obtain ⟨c, hc, hkey⟩ := mem_entries_iff.mp he
    exact ⟨c, hc, e.key, (Category.getElem?_keys_iff.mp hkey).1, rfl⟩

theorem declaresStem_of_mem (he : e ∈ t.entries) : t.DeclaresStem e.category e.stem :=
  declaresStem_iff.mpr ⟨e, he, rfl, rfl⟩

/-! ## Owners -/

/-- A class without an owner has none if the categories stand in another order. -/
theorem owner?_eq_none_of_places (h : Places place t t')
    (hnone : owner? t.ranking viewports cls = none) : owner? t'.ranking viewports cls = none := by
  rw [owner?_eq_none_iff] at hnone ⊢
  intro e he
  exact hnone (e.moved place.symm) (h.symm.mem_entries he)

theorem owner?_eq_none_iff_of_places (h : Places place t t') :
    owner? t.ranking viewports cls = none ↔ owner? t'.ranking viewports cls = none :=
  ⟨owner?_eq_none_of_places h, owner?_eq_none_of_places h.symm⟩

/-- The owner has a stem as long as that of the owner in any other order, at least. -/
theorem length_le_of_owners (h : Places place t t')
    (ho : owner? t.ranking viewports cls = some e)
    (ho' : owner? t'.ranking viewports cls = some e') : e'.length ≤ e.length := by
  obtain ⟨before, hwins⟩ := owner?_eq_some_iff.mp ho
  have hbegins := stem_begins_of_owner ho'
  exact hwins.longest (e'.moved place.symm) (h.symm.mem_entries (owner_mem_entries ho')) hbegins

/-- **The owners have one stem.** -/
theorem stem_eq_of_owners (h : Places place t t') (ho : owner? t.ranking viewports cls = some e)
    (ho' : owner? t'.ranking viewports cls = some e') : e'.stem = e.stem :=
  Entry.stem_eq_of_length_eq (stem_begins_of_owner ho') (stem_begins_of_owner ho)
    (Nat.le_antisymm (length_le_of_owners h ho ho') (length_le_of_owners h.symm ho' ho))

/-- The owner is the first entry of its category with its stem. -/
theorem find?_declared (ho : owner? t.ranking viewports cls = some e) :
    ∃ c, t[e.category]? = some c ∧ c.declared.find? (stem · = e.stem) = some e.key ∧
      e.bucket = c.keys.idxOf e.key := by
  obtain ⟨before, hwins⟩ := owner?_eq_some_iff.mp ho
  have hfirst : t.entries.find? (·.stem = e.stem) = some e := by
    rw [List.find?_eq_some_iff_append]
    obtain ⟨after, hafter⟩ := hwins.declared
    refine ⟨by simp, before, after, by rw [← hafter]; simp, ?_⟩
    intro e' he'
    rw [Bool.not_eq_true', decide_eq_false_iff_not]
    intro hstem
    exact not_wins_of_stem_mem he' hstem hwins
  unfold entries at hfirst
  rw [List.find?_flatMap] at hfirst
  obtain ⟨⟨c, i⟩, hci, hfind⟩ := List.exists_of_findSome?_eq_some hfirst
  unfold Category.entries at hfind
  rw [List.find?_map, Option.map_eq_some_iff] at hfind
  obtain ⟨key, hkey, rfl⟩ := hfind
  exact ⟨c, List.mem_zipIdx_iff_getElem?.mp hci, hkey, rfl⟩

/-- **The owner stays the same entry** of the category that alone declares its stem. -/
theorem owner_moved (h : Places place t t') (ho : owner? t.ranking viewports cls = some e)
    (ho' : owner? t'.ranking viewports cls = some e')
    (hone : ∀ i, t.DeclaresStem i e.stem → i = e.category) :
    e' = e.moved place := by
  have hstem := stem_eq_of_owners h ho ho'
  have hcategory : e'.category = place e.category := by
    have hdeclares := declaresStem_of_mem (h.symm.mem_entries (owner_mem_entries ho'))
    have hplaced : place.symm e'.category = e.category := hone _ (hstem ▸ hdeclares)
    rw [← hplaced, Equiv.apply_symm_apply]
  obtain ⟨c, hc, hkey, hbucket⟩ := find?_declared ho
  obtain ⟨c', hc', hkey', hbucket'⟩ := find?_declared ho'
  rw [hcategory, h e.category, hc] at hc'
  obtain rfl := Option.some.inj hc'
  rw [hstem, hkey] at hkey'
  have hsame : e.key = e'.key := Option.some.inj hkey'
  obtain ⟨i', j', key'⟩ := e'
  simp only at hcategory hbucket' hsame
  rw [Entry.moved, hcategory, hbucket', ← hsame, ← hbucket]

/-! ## Shelves -/

/-- A class is in the bucket at two positions if it is in the same bucket of the shelf that stands
where the category is placed. -/
theorem ownedAt_of_places (h : Places place t t')
    (hone : ∀ s i j, t.DeclaresStem i s → t.DeclaresStem j s → i = j) (i j : ℕ) :
    ownedAt t' viewports (place i) j cls = ownedAt t viewports i j cls := by
  unfold ownedAt
  cases ho : owner? t.ranking viewports cls with
  | none => rw [(owner?_eq_none_iff_of_places h).mp ho]; rfl
  | some e =>
    cases ho' : owner? t'.ranking viewports cls with
    | none =>
      rw [(owner?_eq_none_iff_of_places h).mpr ho'] at ho
      cases ho
    | some e' =>
      have hmoved := owner_moved h ho ho' fun i hi =>
        hone e.stem i e.category hi (declaresStem_of_mem (owner_mem_entries ho))
      rw [hmoved, Option.any_some, Option.any_some]
      apply congrArg (· && e.bucket == j)
      show (place e.category == place i) = (e.category == i)
      rw [Bool.eq_iff_iff, beq_iff_eq, beq_iff_eq, place.apply_eq_iff_eq]

/-- Classes are uncategorized whatever the order of the categories. -/
theorem uncategorized_of_places (h : Places place t t') (classes : List String) :
    (Sorted.ofClasses t' viewports classes).uncategorized
      = (Sorted.ofClasses t viewports classes).uncategorized := by
  by_cases hempty : classes = [] ∨ t = []
  · rw [Sorted.ofClasses_eq_empty hempty,
      Sorted.ofClasses_eq_empty (hempty.imp_right h.eq_nil_iff.mpr)]
  · obtain ⟨hc, ht⟩ := not_or.mp hempty
    rw [Sorted.ofClasses_eq_filled hc ht,
      Sorted.ofClasses_eq_filled hc (mt h.eq_nil_iff.mp ht)]
    apply List.filter_congr
    intro cls _
    unfold unowned
    rw [Bool.eq_iff_iff, Option.isNone_iff_eq_none, Option.isNone_iff_eq_none]
    exact (owner?_eq_none_iff_of_places h).symm

/-- Shelves stand where their categories are placed. -/
theorem shelves_of_places (h : Places place t t')
    (hone : ∀ s i j, t.DeclaresStem i s → t.DeclaresStem j s → i = j) (classes : List String)
    (i : ℕ) : (Sorted.ofClasses t' viewports classes).shelves[place i]?
      = (Sorted.ofClasses t viewports classes).shelves[i]? := by
  by_cases hempty : classes = [] ∨ t = []
  · rw [Sorted.ofClasses_eq_empty hempty,
      Sorted.ofClasses_eq_empty (hempty.imp_right h.eq_nil_iff.mpr)]
    rfl
  · obtain ⟨hc, ht⟩ := not_or.mp hempty
    rw [Sorted.ofClasses_eq_filled hc ht,
      Sorted.ofClasses_eq_filled hc (mt h.eq_nil_iff.mp ht), Sorted.getElem?_shelves_filled,
      Sorted.getElem?_shelves_filled, h i]
    have hat : ∀ j, ownedAt t' viewports (place i) j = ownedAt t viewports i j :=
      fun j => funext fun cls => ownedAt_of_places h hone i j
    simp only [hat]

/-- **The order of the categories decides where their classes stand, not which classes they have.**
Categories in another order are placed somewhere. However they are placed, a class has an owner in
both orders or in none, and the owners have one stem; if only one category declares this stem, the
owner has the same key in the same category, where that is placed. So the same classes are
uncategorized, and if no stem is declared in two categories, the shelves are permuted as the
categories are. -/
theorem category_order {t t' : Taxonomy} (h : t'.Perm t) :
    (∃ place, Places place t t') ∧
    ∀ place, Places place t t' → ∀ viewports : List String,
      (∀ cls,
        let owner := owner? t.ranking viewports cls
        let owner' := owner? t'.ranking viewports cls
        (owner.isSome = owner'.isSome) ∧
        ∀ e e', owner = some e → owner' = some e' →
          e'.stem = e.stem ∧
          ((∀ i j, t.DeclaresStem i e.stem → t.DeclaresStem j e.stem → i = j) →
            e'.key = e.key ∧ e'.category = place e.category)) ∧
      ∀ classes,
        let sorted := Sorted.ofClasses t viewports classes
        let sorted' := Sorted.ofClasses t' viewports classes
        sorted'.uncategorized = sorted.uncategorized ∧
        ((∀ s i j, t.DeclaresStem i s → t.DeclaresStem j s → i = j) →
          ∀ i, sorted'.shelves[place i]? = sorted.shelves[i]?) := by
  refine ⟨exists_places_of_perm h, ?_⟩
  intro place hplace viewports
  constructor
  · intro cls owner owner'
    constructor
    · have hnone : owner = none ↔ owner' = none := owner?_eq_none_iff_of_places hplace
      rw [Bool.eq_iff_iff, Option.isSome_iff_ne_none, Option.isSome_iff_ne_none, ne_eq, hnone]
    · intro e e' ho ho'
      refine ⟨stem_eq_of_owners hplace ho ho', ?_⟩
      intro hone
      have hmoved := owner_moved hplace ho ho' fun i hi =>
        hone i e.category hi (declaresStem_of_mem (owner_mem_entries ho))
      rw [hmoved]
      exact ⟨rfl, rfl⟩
  · intro classes sorted sorted'
    exact ⟨uncategorized_of_places hplace classes,
      fun hone i => shelves_of_places hplace hone classes i⟩

/-- Two categories of one name, a star beside none, and a stem that goes on another. -/
theorem category_order_one_name :
    let t : Taxonomy := [⟨"space", "p-* p-"⟩, ⟨"size", "p-x m-"⟩, ⟨"space", ""⟩]
    let t' : Taxonomy := [⟨"size", "p-x m-"⟩, ⟨"space", ""⟩, ⟨"space", "p-* p-"⟩]
    let place : Equiv.Perm ℕ := (Equiv.swap 0 2).trans (Equiv.swap 0 1)
    let owner := owner? t.ranking ["md"] "md:p-1"
    let owner' := owner? t'.ranking ["md"] "md:p-1"
    let classes := ["md:p-1", "p-x", "?"]
    let sorted := Sorted.ofClasses t ["md"] classes
    let sorted' := Sorted.ofClasses t' ["md"] classes
    t'.Perm t ∧ Places place t t' ∧
      (∀ s i j, t.DeclaresStem i s → t.DeclaresStem j s → i = j) ∧
      owner = some ⟨0, 0, "p-*"⟩ ∧
      (∃ e', owner' = some e' ∧ e'.stem = "p-" ∧ e'.key = "p-*" ∧ e'.category = 2) ∧
      sorted'.uncategorized = sorted.uncategorized ∧ sorted'.shelves[2]? = sorted.shelves[0]? := by
  intro t t' place owner owner' classes sorted sorted'
  have hperm : t'.Perm t := by decide
  have hplace : Places place t t' := by
    intro i
    match i with
    | 0 => rfl
    | 1 => rfl
    | 2 => rfl
    | i + 3 =>
      have hne : i + 3 ≠ 0 ∧ i + 3 ≠ 1 ∧ i + 3 ≠ 2 := by omega
      have hstays : place (i + 3) = i + 3 := by
        show Equiv.swap 0 1 (Equiv.swap 0 2 (i + 3)) = i + 3
        rw [Equiv.swap_apply_of_ne_of_ne hne.1 hne.2.2,
          Equiv.swap_apply_of_ne_of_ne hne.1 hne.2.1]
      rw [hstays]
      rfl
  have hentries : t.entries
      = [⟨0, 0, "p-*"⟩, ⟨0, 1, "p-"⟩, ⟨1, 0, "p-x"⟩, ⟨1, 1, "m-"⟩] := by decide +kernel
  have hone : ∀ s i j, t.DeclaresStem i s → t.DeclaresStem j s → i = j := by
    intro s i j hi hj
    obtain ⟨e, he, rfl, rfl⟩ := declaresStem_iff.mp hi
    obtain ⟨e', he', rfl, hstem⟩ := declaresStem_iff.mp hj
    rw [hentries] at he he'
    have hall : ∀ e ∈ ([⟨0, 0, "p-*"⟩, ⟨0, 1, "p-"⟩, ⟨1, 0, "p-x"⟩, ⟨1, 1, "m-"⟩] : List Entry),
        ∀ e' ∈ ([⟨0, 0, "p-*"⟩, ⟨0, 1, "p-"⟩, ⟨1, 0, "p-x"⟩, ⟨1, 1, "m-"⟩] : List Entry),
          e'.stem = e.stem → e.category = e'.category := by decide
    exact hall e he e' he' hstem
  have howner : owner = some ⟨0, 0, "p-*"⟩ := by
    refine owner?_eq_some_iff.mpr ⟨[], ⟨?_, by decide, ?_, by decide⟩⟩
    · rw [hentries]
      exact ⟨_, rfl⟩
    · rw [hentries]
      decide
  obtain ⟨hclass, hclasses⟩ := (category_order hperm).2 place hplace ["md"]
  obtain ⟨hsome, hsame⟩ := hclass "md:p-1"
  obtain ⟨huncategorized, hshelves⟩ := hclasses classes
  have howner' : ∃ e', owner' = some e' ∧ e'.stem = "p-" ∧ e'.key = "p-*" ∧ e'.category = 2 := by
    have howns : owner'.isSome = true := by
      rw [← hsome]
      exact Option.isSome_of_eq_some howner
    obtain ⟨e', he'⟩ := Option.isSome_iff_exists.mp howns
    obtain ⟨hstem, hkey⟩ := hsame _ e' howner he'
    obtain ⟨hkey, hcategory⟩ := hkey fun i j => hone _ i j
    exact ⟨e', he', hstem.trans (by decide), hkey, hcategory⟩
  exact ⟨hperm, hplace, hone, howner, howner', huncategorized, hshelves hone 0⟩

end Taxonomy

end ClassTidy
