import ClassTidy.Command.Options

/-!
# Command lines and their items

`Item.Spells` says which words spell which items, and the items of a command line are those that
its words spell (`ofWords?_eq_some_iff`). What the options of the items are may be followed item by
item:

> `ofItems?_filterMap`: items that are changed or left out one by one change the options likewise;
> `foldl_add_eq_lastGiven`: an option has the value that the last item of its kind gives;
> `ofArgs?_of_addsFlag`: a flag may stand at any places and does the same as in the last.
-/

namespace ClassTidy.Command

theorem lt_of_width? {word : String} {n : Nat} (h : width? word = some n) : n < UInt64.size := by
  obtain ⟨⟨-, -, hlt⟩, hn⟩ := Option.ite_none_right_eq_some.mp h
  rw [← Option.some.inj hn]
  exact hlt

namespace Item

/-- The words spell the items: each item takes a word or two, and two dashes end the options. -/
inductive Spells : List String → List Item → Prop where
  | nil : Spells [] []
  | dashes : Spells ["--"] []
  | dashesInput (word : String) : Spells ["--", word] [.input word]
  | word {word : String} {item : Item} {words : List String} {items : List Item} :
    ofWord? word = some item → Spells words items → Spells (word :: words) (item :: items)
  | pair {option word : String} {item : Item} {words : List String} {items : List Item} :
    ofPair? option word = some item → Spells words items →
      Spells (option :: word :: words) (item :: items)

/-- An option that takes the word behind it along stands for an item of its own kind. -/
theorem ofPair?_cases {option word : String} {item : Item} (h : ofPair? option word = some item) :
    (option = "--config" ∧ item = .config word) ∨
    (option = "--print-width" ∧ ∃ n, width? word = some n ∧ item = .printWidth n) ∨
    (option = "--grouping" ∧ item = .mode (.ofName word)) ∨
    (option = "--uncategorized" ∧ ∃ p,
      (word, p) ∈ [("before", Placement.before), ("after", .after)] ∧ item = .placement p) ∨
    (option = "--width-measure" ∧ ∃ m,
      (word, m) ∈ [("chars", Measure.chars), ("display", .display)] ∧ item = .measure m) := by
  unfold ofPair? at h
  split at h
  next ho => exact Or.inl ⟨ho, (Option.some.inj h).symm⟩
  right
  split at h
  next ho =>
    obtain ⟨n, hn, hitem⟩ := Option.map_eq_some_iff.mp h
    exact Or.inl ⟨ho, n, hn, hitem.symm⟩
  right
  split at h
  next ho => exact Or.inl ⟨ho, (Option.some.inj h).symm⟩
  right
  split at h
  next ho =>
    left
    split at h
    next hw => exact ⟨ho, .before, by simp [hw], (Option.some.inj h).symm⟩
    split at h
    next hw => exact ⟨ho, .after, by simp [hw], (Option.some.inj h).symm⟩
    next => cases h
  right
  split at h
  next ho =>
    split at h
    next hw => exact ⟨ho, .chars, by simp [hw], (Option.some.inj h).symm⟩
    split at h
    next hw => exact ⟨ho, .display, by simp [hw], (Option.some.inj h).symm⟩
    next => cases h
  next => cases h

/-- Such an option is no item by itself. -/
theorem ofWord?_eq_none_of_ofPair? {option word : String} {item : Item}
    (h : ofPair? option word = some item) : option ≠ "--" ∧ ofWord? option = none := by
  rcases ofPair?_cases h with ⟨rfl, -⟩ | ⟨rfl, -⟩ | ⟨rfl, -⟩ | ⟨rfl, -⟩ | ⟨rfl, -⟩ <;>
    exact ⟨by decide, by decide⟩

theorem ne_dashes_of_ofWord? {word : String} {item : Item} (h : ofWord? word = some item) :
    word ≠ "--" := by
  rintro rfl
  have hnone : ofWord? "--" = none := by decide
  rw [hnone] at h
  cases h

/-- A word that is an item by itself stands for it in front of any words. -/
theorem ofWords?_word {word : String} {item : Item} (h : ofWord? word = some item)
    (words : List String) : ofWords? (word :: words) = (ofWords? words).map (item :: ·) := by
  have hne := ne_dashes_of_ofWord? h
  cases words with
  | nil =>
    have hone : ofWords? [word] = (ofWord? word).map ([·]) := by
      rw [ofWords?]
      exact hne
    rw [hone, h]
    rfl
  | cons word' words =>
    rw [ofWords?, if_neg hne, h]
    intro heq
    exact absurd heq hne

/-- An option and the word behind it stand for their item in front of any words. -/
theorem ofWords?_pair {option word : String} {item : Item} (h : ofPair? option word = some item)
    (words : List String) :
    ofWords? (option :: word :: words) = (ofWords? words).map (item :: ·) := by
  obtain ⟨hne, hnone⟩ := ofWord?_eq_none_of_ofPair? h
  rw [ofWords?, if_neg hne, hnone, h]
  intro heq
  exact absurd heq hne

/-- **A command line has the items that its words spell.** -/
theorem ofWords?_eq_some_iff {words : List String} {items : List Item} :
    ofWords? words = some items ↔ Spells words items := by
  constructor
  · intro h
    fun_induction ofWords? words generalizing items with
    | case1 => cases h; exact .nil
    | case2 => cases h; exact .dashes
    | case3 word => cases h; exact .dashesInput word
    | case4 word hne =>
      obtain ⟨item, hitem, rfl⟩ := Option.map_eq_some_iff.mp h
      exact .word hitem .nil
    | case5 => cases h
    -- The word in front is an item by itself, or it takes the next one along.
    | case6 word word' words _ hne item hitem ih =>
      obtain ⟨items, hitems, rfl⟩ := Option.map_eq_some_iff.mp h
      exact .word hitem (ih hitems)
    | case7 word word' words _ hne hnone item hitem ih =>
      obtain ⟨items, hitems, rfl⟩ := Option.map_eq_some_iff.mp h
      exact .pair hitem (ih hitems)
    | case8 => cases h
  · intro h
    induction h with
    | nil => rfl
    | dashes => rfl
    | dashesInput word => rfl
    | word hitem _ ih => rw [ofWords?_word hitem, ih]; rfl
    | pair hitem _ ih => rw [ofWords?_pair hitem, ih]; rfl

end Item

namespace Options

/-! ## Following the items -/

/-- The options of items come from the items, one after the other. -/
theorem exists_foldl_of_ofItems? {items : List Item} {o : Options} (h : ofItems? items = some o) :
    ∃ path, items.foldl add { config := path } = o := by
  unfold ofItems? at h
  split at h
  · cases h
  · cases h
  · exact ⟨_, Option.some.inj h⟩

/-- A switch that one kind of item turns on, and no item turns off, is on if it was on before or if
one of the items turns it on. -/
theorem foldl_add_switch (flag : Item) (read : Options → Bool)
    (hadd : ∀ o item, read (o.add item) = true ↔ read o = true ∨ flag = item) (items : List Item)
    (o : Options) : read (items.foldl add o) = true ↔ read o = true ∨ flag ∈ items := by
  induction items generalizing o with
  | nil => simp
  | cons item items ih => rw [List.foldl_cons, ih, hadd, List.mem_cons, or_assoc]

/-- The values that the items give, of which the last counts. -/
def lastGiven {α : Type} (pick : Item → Option α) (items : List Item) : Option α :=
  (items.filterMap pick).getLast?

theorem mem_of_lastGiven {α : Type} {pick : Item → Option α} {items : List Item} {a : α}
    (h : lastGiven pick items = some a) : ∃ item ∈ items, pick item = some a :=
  List.mem_filterMap.mp (List.mem_of_getLast? h)

/-- An option that every item of its kind sets has the value of the last of them. -/
theorem foldl_add_eq_lastGiven {α : Type} (pick : Item → Option α) (read : Options → Option α)
    (hadd : ∀ o item, read (o.add item) = (pick item).or (read o)) (items : List Item)
    (o : Options) : read (items.foldl add o) = (lastGiven pick items).or (read o) := by
  unfold lastGiven
  induction items generalizing o with
  | nil => rfl
  | cons item items ih =>
    rw [List.foldl_cons, ih, hadd]
    cases hpick : pick item with
    | none => rw [List.filterMap_cons_none hpick, Option.none_or]
    | some a =>
      rw [List.filterMap_cons_some hpick, List.getLast?_cons, Option.some_or]
      cases (items.filterMap pick).getLast? <;> rfl

/-- If items are changed or left out one by one, and each change or gap does to the options what a
function of options does, then the options of all items are changed by this function. -/
theorem ofItems?_filterMap {f : Item → Option Item} {g : Options → Options}
    (rename : String → String)
    (hconfig : ∀ item, (f item).bind configOf? = (configOf? item).map rename)
    (hinput : ∀ item, (f item).bind inputOf? = inputOf? item)
    (hstart : ∀ path, g { config := path } = { config := rename path })
    (hadd : ∀ o item, g (o.add item) = match f item with
      | some item' => (g o).add item'
      | none => g o) (items : List Item) :
    ofItems? (items.filterMap f) = (ofItems? items).map g := by
  have hfold : ∀ o, (items.filterMap f).foldl add (g o) = g (items.foldl add o) := by
    induction items with
    | nil => exact fun _ => rfl
    | cons item items ih =>
      intro o
      have hstep := hadd o item
      rw [List.foldl_cons, ← ih, hstep]
      cases hitem : f item with
      | none => rw [List.filterMap_cons_none hitem]
      | some item' => rw [List.filterMap_cons_some hitem, List.foldl_cons]
  have hconfigs : (items.filterMap f).filterMap configOf?
      = (items.filterMap configOf?).map rename := by
    rw [List.filterMap_filterMap, List.map_filterMap]
    exact congrArg (items.filterMap ·) (funext hconfig)
  have hinputs : (items.filterMap f).filterMap inputOf? = items.filterMap inputOf? := by
    rw [List.filterMap_filterMap]
    exact congrArg (items.filterMap ·) (funext hinput)
  unfold ofItems?
  rw [hconfigs, hinputs]
  cases items.filterMap configOf? with
  | nil => rfl
  | cons path paths =>
    have hoptions : (items.filterMap f).foldl add { config := rename path }
        = g (items.foldl add { config := path }) := by
      rw [← hstart, hfold]
    rcases items.filterMap inputOf? with _ | ⟨input, _ | ⟨input', inputs⟩⟩
    · exact congrArg some hoptions
    · exact congrArg some hoptions
    · rfl

end Options

/-! ## Flags -/

/-- The item is a flag: `--parsed` or `--json`. -/
def Item.IsFlag (flag : Item) : Prop :=
  flag = .parsed ∨ flag = .json

/-- The second command line has the items of the first, and the flag at some places besides. -/
def AddsFlag (flag : Item) (args args' : List String) : Prop :=
  ∃ items items', Item.ofWords? args = some items ∧ Item.ofWords? args' = some items' ∧
    flag ∉ items ∧ flag ∈ items' ∧ items'.filter (· ≠ flag) = items

/-- A flag may stand in front of all other items. -/
theorem addsFlag_cons {flag : Item} {word : String} (hword : Item.ofWord? word = some flag)
    {args : List String} {items : List Item} (h : Item.ofWords? args = some items)
    (hnot : flag ∉ items) : AddsFlag flag args (word :: args) := by
  refine ⟨items, flag :: items, h, ?_, hnot, List.mem_cons_self .., ?_⟩
  · rw [Item.ofWords?_word hword, h]
    rfl
  · rw [List.filter_cons_of_neg (by simp), List.filter_eq_self]
    intro item hitem
    exact decide_eq_true fun heq => hnot (heq ▸ hitem)

namespace Options

variable {flag : Item}

/-- A flag may be added before or after another item. -/
theorem add_add_comm (hflag : flag.IsFlag) (o : Options) (item : Item) :
    (o.add flag).add item = (o.add item).add flag := by
  rcases hflag with rfl | rfl <;> cases item <;> rfl

/-- A flag that comes again changes nothing. -/
theorem add_add_self (hflag : flag.IsFlag) (o : Options) :
    (o.add flag).add flag = o.add flag := by
  rcases hflag with rfl | rfl <;> rfl

/-- A flag may be added before or after all other items. -/
theorem foldl_add_comm (hflag : flag.IsFlag) (items : List Item) (o : Options) :
    items.foldl add (o.add flag) = (items.foldl add o).add flag := by
  induction items generalizing o with
  | nil => rfl
  | cons item items ih => rw [List.foldl_cons, List.foldl_cons, add_add_comm hflag, ih]

/-- So it does not matter where a flag stands, nor how often. -/
theorem foldl_add_filter (hflag : flag.IsFlag) {items : List Item} (hin : flag ∈ items)
    (o : Options) : items.foldl add o = ((items.filter (· ≠ flag)).foldl add o).add flag := by
  have hadd : ∀ o : Options, (items.foldl add o).add flag
      = ((items.filter (· ≠ flag)).foldl add o).add flag := by
    clear hin
    induction items with
    | nil => exact fun _ => rfl
    | cons item items ih =>
      intro o
      by_cases hitem : item = flag
      · rw [List.filter_cons_of_neg (by simpa using hitem), ← ih, hitem, List.foldl_cons,
          foldl_add_comm hflag, add_add_self hflag]
      · rw [List.filter_cons_of_pos (by simpa using hitem), List.foldl_cons, List.foldl_cons, ih]
  obtain ⟨before, after, rfl⟩ := List.append_of_mem hin
  rw [← hadd, List.foldl_append, List.foldl_cons, foldl_add_comm hflag, add_add_self hflag]

/-- The switch of a flag is off if the flag is not there. -/
theorem switch_of_addsFlag (read : Options → Bool)
    (hstart : ∀ path, read { config := path } = false)
    (hadd : ∀ o item, read (o.add item) = true ↔ read o = true ∨ flag = item)
    {args args' : List String} {o : Options} (h : AddsFlag flag args args')
    (ho : ofArgs? args = some o) : read o = false := by
  obtain ⟨items, items', hitems, -, hnot, -⟩ := h
  rw [ofArgs?, hitems, Option.bind_some] at ho
  obtain ⟨path, rfl⟩ := exists_foldl_of_ofItems? ho
  rw [Bool.eq_false_iff, ne_eq, foldl_add_switch flag read hadd, hstart]
  simpa using hnot

/-- **A flag may stand at any places** of a command line, and does to the options what it does as
the last item. -/
theorem ofArgs?_of_addsFlag (hflag : flag.IsFlag) {args args' : List String} {o : Options}
    (h : AddsFlag flag args args') (ho : ofArgs? args = some o) :
    ofArgs? args' = some (o.add flag) := by
  obtain ⟨items, items', hitems, hitems', -, hin, rfl⟩ := h
  have hgives : ∀ pick : Item → Option String, pick flag = none →
      (items'.filter (· ≠ flag)).filterMap pick = items'.filterMap pick := by
    intro pick hpick
    rw [List.filterMap_filter]
    apply congrArg (items'.filterMap ·)
    funext item
    by_cases hitem : item = flag
    · simp [hitem, hpick]
    · simp [hitem]
  have hconfigs := hgives configOf? (by rcases hflag with rfl | rfl <;> rfl)
  have hinputs := hgives inputOf? (by rcases hflag with rfl | rfl <;> rfl)
  rw [ofArgs?, hitems, Option.bind_some, ofItems?, hconfigs, hinputs] at ho
  rw [ofArgs?, hitems', Option.bind_some, ofItems?]
  split at ho
  next => cases ho
  next => cases ho
  next path paths _ _ _ =>
    rw [← Option.some.inj ho, foldl_add_filter hflag hin]

end Options

end ClassTidy.Command
