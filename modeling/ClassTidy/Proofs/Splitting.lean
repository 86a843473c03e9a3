import ClassTidy.Proofs.BareNames
import ClassTidy.Proofs.Merging

/-!
# Splitting a text loses nothing

A word of a text is either a base class or stored under the first label that scopes it, less its
scope. The words that are stored under a label are found again by putting their names into its
scope, so what is stored can be told from the words:

> `base_ofWords_eq_bare`: the base classes are the words that are their own bare names;
> `toList_byViewport_ofWords`: under each label, in order of first use, stand the bare names of the
> words that it is the first to scope.

When the classes are sorted, their scopes are taken off once more, by a search of its own through
the labels. The same names come out:

> `ofText_lossless`: no word of the text is lost, and each is looked up by the name it is stored by.
-/

namespace ClassTidy

namespace OrderedMap

variable {α : Type} {β γ : Type} [DecidableEq α]

/-- A key that is new comes last, and no other key moves. -/
theorem keys_insert (m : OrderedMap α β) (key : α) (value : β) :
    (m.insert key value).keys = if key ∈ m.keys then m.keys else m.keys ++ [key] := by
  show (put key value m.toList).map Prod.fst = _
  rw [put_eq m.nodup]
  unfold keys
  split
  next =>
    rw [List.map_map]
    apply List.map_congr_left
    intro p _
    show (if p.1 = key then (key, value) else p).1 = p.1
    split
    next hp => exact hp.symm
    next => rfl
  next => rw [List.map_append, List.map_singleton]

/-- The value of a pair is what is found for its key. -/
theorem get?_of_mem {m : OrderedMap α β} {p : α × β} (h : p ∈ m.toList) :
    m.get? p.1 = some p.2 := by
  obtain ⟨before, after, hsplit⟩ := List.append_of_mem h
  have hnodup := m.nodup
  rw [hsplit, List.map_append, List.map_cons, List.nodup_append] at hnodup
  have hfind : m.toList.find? (·.1 = p.1) = some p := by
    refine List.find?_eq_some_iff_append.mpr ⟨by simp, before, after, hsplit, ?_⟩
    intro q hq
    have hne : q.1 ≠ p.1 := hnodup.2.2 _ (List.mem_map_of_mem hq) _ (List.mem_cons_self ..)
    simpa using hne
  rw [get?, hfind, Option.map_some]

/-- What is found for a key stands in a pair with it, and in no other. -/
theorem get?_eq_some_iff {m : OrderedMap α β} {key : α} {value : β} :
    m.get? key = some value ↔ (key, value) ∈ m.toList := by
  refine ⟨?_, fun h => get?_of_mem h⟩
  intro h
  obtain ⟨p, hp, rfl⟩ := Option.map_eq_some_iff.mp h
  have hkey : p.1 = key := by simpa using List.find?_some hp
  rw [← hkey]
  exact List.mem_of_find?_eq_some hp

/-- The pairs of a map are its keys with what is found for them. -/
theorem toList_eq_map_keys (m : OrderedMap α (List γ)) :
    m.toList = m.keys.map fun key => (key, (m.get? key).getD []) := by
  unfold keys
  rw [List.map_map]
  conv_lhs => rw [← List.map_id m.toList]
  apply List.map_congr_left
  intro p hp
  show p = (p.1, (m.get? p.1).getD [])
  rw [get?_of_mem hp, Option.getD_some]

end OrderedMap

namespace Attribute

variable {viewports words : List String} {label : String}

theorem ofWords_concat (viewports words : List String) (word : String) :
    ofWords viewports (words ++ [word]) = push viewports (ofWords viewports words) word := by
  unfold ofWords
  rw [List.foldl_append, List.foldl_cons, List.foldl_nil]

/-- The base classes are the words that have no scope to take off. -/
theorem base_ofWords_eq_bare (viewports words : List String) :
    (ofWords viewports words).base = words.filter fun word => bareName viewports word = word := by
  rw [base_ofWords]
  apply List.filter_congr
  intro word _
  rw [decide_eq_decide, viewportRank_eq_zero_iff, bareName_eq_self_iff]

/-- One more word brings the label that it is stored under into use. -/
theorem keys_byViewport_push (a : Attribute) (word : String) :
    (push viewports a word).byViewport.keys
      = match viewports.find? (scopes · word) with
        | some label =>
          if label ∈ a.byViewport.keys then a.byViewport.keys else a.byViewport.keys ++ [label]
        | none => a.byViewport.keys := by
  unfold push
  rcases scope?_cases viewports word with ⟨hfind, hscope⟩ | ⟨label, name, hfind, hscope, -⟩
  · rw [hscope, hfind]
  · rw [hscope, hfind]
    exact OrderedMap.keys_insert ..

/-- The labels stand in the order in which the words bring them into use. -/
theorem keys_byViewport_ofWords (viewports words : List String) :
    (ofWords viewports words).byViewport.keys
      = (words.filterMap fun word => viewports.find? (scopes · word)).eraseDups := by
  induction words using List.reverseRecOn with
  | nil => rfl
  | append_singleton words word ih =>
    rw [ofWords_concat, keys_byViewport_push, ih, List.filterMap_append]
    cases hfind : viewports.find? (scopes · word) with
    | none =>
      rw [List.filterMap_cons_none (by exact hfind), List.filterMap_nil, List.append_nil]
    | some label =>
      rw [List.filterMap_cons_some (by exact hfind), List.filterMap_nil, eraseDups_concat]
      simp only [List.mem_eraseDups]

/-- The names of a label are the bare names of the words that it is the first to scope. -/
theorem getD_get?_byViewport_ofWords (viewports words : List String) (label : String) :
    ((ofWords viewports words).byViewport.get? label).getD []
      = (words.filter fun word => viewports.find? (scopes · word) = some label).map
          (bareName viewports) := by
  apply (List.map_injective_iff.mpr (inScope_injective label))
  have hscoped := scopedTo_ofWords viewports words label
  simp only [viewportRank_eq_label_iff] at hscoped
  rw [List.map_map]
  refine hscoped.trans ?_
  conv_lhs => rw [← List.map_id (words.filter _)]
  apply List.map_congr_left
  intro word hword
  exact (inScope_bareName (of_decide_eq_true (List.mem_filter.mp hword).2)).symm

/-- **Where the words that have a scope are stored.** -/
theorem toList_byViewport_ofWords (viewports words : List String) :
    (ofWords viewports words).byViewport.toList
      = (words.filterMap fun word => viewports.find? (scopes · word)).eraseDups.map fun label =>
          (label, (words.filter fun word => viewports.find? (scopes · word) = some label).map
            (bareName viewports)) := by
  rw [OrderedMap.toList_eq_map_keys, keys_byViewport_ofWords]
  simp only [getD_get?_byViewport_ofWords]

/-- A word is stored, as its bare name, under the label that is the first to scope it. -/
theorem exists_mem_byViewport {word : String} (hword : word ∈ words)
    (hfind : viewports.find? (scopes · word) = some label) :
    ∃ names, (label, names) ∈ (ofWords viewports words).byViewport.toList ∧
      bareName viewports word ∈ names := by
  rw [toList_byViewport_ofWords]
  refine ⟨_, List.mem_map_of_mem (List.mem_eraseDups.mpr ?_), List.mem_map_of_mem ?_⟩
  · exact List.mem_filterMap.mpr ⟨word, hword, hfind⟩
  · exact List.mem_filter.mpr ⟨hword, decide_eq_true hfind⟩

/-- Every list that is stored has a name. -/
theorem ne_nil_of_mem_byViewport {names : List String}
    (h : (label, names) ∈ (ofWords viewports words).byViewport.toList) : names ≠ [] := by
  rw [toList_byViewport_ofWords] at h
  obtain ⟨label', hlabel, heq⟩ := List.mem_map.mp h
  obtain ⟨rfl, rfl⟩ := Prod.mk.inj heq
  obtain ⟨word, hword, hfind⟩ := List.mem_filterMap.mp (List.mem_eraseDups.mp hlabel)
  have hmem : word ∈ words.filter fun word => viewports.find? (scopes · word) = some label' :=
    List.mem_filter.mpr ⟨hword, decide_eq_true hfind⟩
  exact List.ne_nil_of_mem (List.mem_map_of_mem hmem)

/-- A name that is stored under a label comes out of the scope of the label. -/
theorem bareName_of_mem_byViewport {names : List String} {name : String}
    (h : (label, names) ∈ (ofWords viewports words).byViewport.toList) (hname : name ∈ names) :
    bareName viewports (inScope label name) = name := by
  rw [toList_byViewport_ofWords] at h
  obtain ⟨label', -, heq⟩ := List.mem_map.mp h
  obtain ⟨rfl, rfl⟩ := Prod.mk.inj heq
  obtain ⟨word, hword, rfl⟩ := List.mem_map.mp hname
  rw [inScope_bareName (of_decide_eq_true (List.mem_filter.mp hword).2)]

/-- **Splitting a text loses nothing, and takes off what sorting takes off.** The base classes are
the words that are their own bare names, in the order of the text. Every other word is stored under
one label, the first that scopes it, as its bare name, which makes the word again in the scope of
the label. The labels stand in order of first use, each with its names in the order of the text.
A name that is stored comes out of its scope when the class is looked up, so it is looked up by the
name up to its first interpolation. All classes together are the words in another order. -/
theorem ofText_lossless (viewports : List String) (text : String) :
    let words := Text.words text
    let a := ofText viewports text
    a.base = (words.filter fun word => bareName viewports word = word) ∧
    (∀ word ∈ words, bareName viewports word ≠ word →
      ∃ label names, viewports.find? (scopes · word) = some label ∧
        inScope label (bareName viewports word) = word ∧
        (label, names) ∈ a.byViewport.toList ∧ bareName viewports word ∈ names) ∧
    a.byViewport.toList
      = ((words.filterMap fun word => viewports.find? (scopes · word)).eraseDups.map fun label =>
          (label, (words.filter fun word => viewports.find? (scopes · word) = some label).map
            (bareName viewports))) ∧
    (∀ label names, (label, names) ∈ a.byViewport.toList → names ≠ [] ∧
      ∀ name ∈ names, bareName viewports (inScope label name) = name ∧
        lookupKey viewports (inScope label name) = literalPart name) ∧
    (a.combined viewports).Perm words := by
  intro words a
  refine ⟨base_ofWords_eq_bare viewports words, ?_, toList_byViewport_ofWords viewports words,
    ?_, ?_⟩
  · intro word hword hne
    obtain ⟨label, hfind⟩ := Option.ne_none_iff_exists'.mp (mt bareName_eq_self_iff.mpr hne)
    obtain ⟨names, hnames, hname⟩ := exists_mem_byViewport hword hfind
    exact ⟨label, names, hfind, inScope_bareName hfind, hnames, hname⟩
  · intro label names h
    refine ⟨ne_nil_of_mem_byViewport h, fun name hname => ?_⟩
    have hbare := bareName_of_mem_byViewport h hname
    exact ⟨hbare, by rw [lookupKey, hbare]⟩
  · show ((ofWords viewports words).combined viewports).Perm words
    rw [combined_ofWords]
    exact sortBy_perm _ words

/-- A label that another one continues behind a colon, the empty label, a name without characters
and one that looks scoped itself and is interpolated. -/
theorem ofText_lossless_nested :
    let viewports := ["", "md:x", "md", "md:x"]
    let text := "p-1 md: md:x:a :p\tmd:md:${b} p-1 md:p-1"
    let a := ofText viewports text
    a.base = ["p-1", ":p", "p-1"] ∧
      a.byViewport.toList = [("md", ["", "md:${b}", "p-1"]), ("md:x", ["a"])] ∧
      bareName viewports (inScope "md" "md:${b}") = "md:${b}" ∧
      lookupKey viewports (inScope "md" "md:${b}") = "md:" ∧
      a.combined viewports
        = ["p-1", ":p", "p-1", "md:x:a", "md:", "md:md:${b}", "md:p-1"] ∧
      (a.combined viewports).Perm (Text.words text) := by
  intro viewports text a
  obtain ⟨-, -, -, hnames, hperm⟩ := ofText_lossless viewports text
  have hbase : a.base = ["p-1", ":p", "p-1"] := by
    unfold a text viewports
    decide +kernel
  have hstored : a.byViewport.toList = [("md", ["", "md:${b}", "p-1"]), ("md:x", ["a"])] := by
    unfold a text viewports
    decide +kernel
  have hcombined : a.combined viewports
      = ["p-1", ":p", "p-1", "md:x:a", "md:", "md:md:${b}", "md:p-1"] := by
    unfold a text viewports
    decide +kernel
  have hmem : ("md", ["", "md:${b}", "p-1"]) ∈ a.byViewport.toList := by
    rw [hstored]
    exact List.mem_cons_self ..
  obtain ⟨hbare, hkey⟩ := (hnames _ _ hmem).2 "md:${b}" (by decide)
  exact ⟨hbase, hstored, hbare, hkey, hcombined, hperm⟩

end Attribute

end ClassTidy
