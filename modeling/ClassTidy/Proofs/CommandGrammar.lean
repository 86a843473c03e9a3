import Mathlib.Algebra.Group.Nat.Defs
import ClassTidy.Proofs.Overrides

/-!
# The grammar of command lines

`Item.WrittenAs` lists the words that each kind of item is written with. A command line is taken
apart (`Decomposition`) into the words of its items and an ending, and it can be taken apart in one
way at most, since no item begins with the words of another (`eq_of_append_eq`):

> `Decomposition.Of.unique`: words have one decomposition at most;
> `spells_iff_decomposition`: what words spell are the items of their decomposition.

What is accepted, and what the options of an accepted line are, can be told from the decomposition:

> `command_line_grammar`: a line is accepted exactly if it has a decomposition with a settings file
> and at most one input, and of each kind of item the last one counts.
-/

namespace ClassTidy.Command

/-- The word is the number in decimal digits, behind a plus sign or not. -/
def IsDecimal (word : String) (n : Nat) : Prop :=
  ∃ digits, (word.toList = digits ∨ word.toList = '+' :: digits) ∧ digits ≠ [] ∧
    (∀ d ∈ digits, d.isDigit = true) ∧ Nat.ofDigitChars 10 digits 0 = n

/-- A width is a decimal number below `2^64`. -/
theorem width?_eq_some_iff {word : String} {n : Nat} :
    width? word = some n ↔ IsDecimal word n ∧ n < 2 ^ 64 := by
  unfold width?
  rw [Option.ite_none_right_eq_some, Option.some.injEq]
  constructor
  · intro h
    obtain ⟨⟨hne, hall, hlt⟩, hn⟩ := h
    rw [hn] at hlt
    refine ⟨⟨_, ?_, hne, List.all_eq_true.mp hall, hn⟩, hlt⟩
    split
    next hplus =>
      obtain ⟨rest, hrest⟩ := List.head?_eq_some_iff.mp hplus
      exact Or.inr (by rw [hrest]; rfl)
    next => exact Or.inl rfl
  · intro h
    obtain ⟨⟨digits, hword, hne, hall, hn⟩, hlt⟩ := h
    have hdigits : (if word.toList.head? = some '+' then word.toList.drop 1 else word.toList)
        = digits := by
      rcases hword with hword | hword
      · rw [hword, if_neg]
        intro hplus
        have hdigit := hall '+' (List.mem_of_head? hplus)
        exact absurd hdigit (by decide)
      · rw [hword]
        rfl
    rw [hdigits]
    exact ⟨⟨hne, List.all_eq_true.mpr hall, by rw [← hn] at hlt; exact hlt⟩, hn⟩

namespace Item

/-- The words that an item is written with. -/
inductive WrittenAs : List String → Item → Prop where
  | format : WrittenAs ["format"] (.action .format)
  | group : WrittenAs ["group"] (.action .group)
  | parsed : WrittenAs ["--parsed"] .parsed
  | json : WrittenAs ["--json"] .json
  | config (path : String) : WrittenAs ["--config", path] (.config path)
  | printWidth {word : String} {n : Nat} :
    IsDecimal word n → n < 2 ^ 64 → WrittenAs ["--print-width", word] (.printWidth n)
  | mode (name : String) : WrittenAs ["--grouping", name] (.mode (.ofName name))
  | before : WrittenAs ["--uncategorized", "before"] (.placement .before)
  | after : WrittenAs ["--uncategorized", "after"] (.placement .after)
  | chars : WrittenAs ["--width-measure", "chars"] (.measure .chars)
  | display : WrittenAs ["--width-measure", "display"] (.measure .display)
  | standardInput : WrittenAs ["-"] (.input "-")
  | input {path : String} :
    path.toList.head? ≠ some '-' → path ≠ "format" → path ≠ "group" →
      WrittenAs [path] (.input path)

/-- A word that is an item by itself. -/
theorem writtenAs_of_ofWord? {word : String} {item : Item} (h : ofWord? word = some item) :
    WrittenAs [word] item := by
  unfold ofWord? at h
  split at h
  next hword => cases h; rw [hword]; exact .format
  next hformat =>
  split at h
  next hword => cases h; rw [hword]; exact .group
  next hgroup =>
  split at h
  next hword => cases h; rw [hword]; exact .parsed
  split at h
  next hword => cases h; rw [hword]; exact .json
  split at h
  next hword =>
    cases h
    rcases hword with rfl | hdash
    · exact .standardInput
    · exact .input hdash hformat hgroup
  next => cases h

/-- An option and the word that it takes along. -/
theorem writtenAs_of_ofPair? {option word : String} {item : Item}
    (h : ofPair? option word = some item) : WrittenAs [option, word] item := by
  rcases ofPair?_cases h with ⟨rfl, rfl⟩ | ⟨rfl, n, hn, rfl⟩ | ⟨rfl, rfl⟩ | ⟨rfl, p, hp, rfl⟩ |
    ⟨rfl, m, hm, rfl⟩
  · exact .config word
  · obtain ⟨hword, hlt⟩ := width?_eq_some_iff.mp hn
    exact .printWidth hword hlt
  · exact .mode word
  · simp only [List.mem_cons, Prod.mk.injEq, List.not_mem_nil, or_false] at hp
    rcases hp with ⟨rfl, rfl⟩ | ⟨rfl, rfl⟩
    · exact .before
    · exact .after
  · simp only [List.mem_cons, Prod.mk.injEq, List.not_mem_nil, or_false] at hm
    rcases hm with ⟨rfl, rfl⟩ | ⟨rfl, rfl⟩
    · exact .chars
    · exact .display

/-- An item is written with the word that it is by itself, or with an option and the word that the
option takes along. -/
theorem writtenAs_iff {words : List String} {item : Item} : WrittenAs words item ↔
    (∃ word, words = [word] ∧ ofWord? word = some item) ∨
    ∃ option word, words = [option, word] ∧ ofPair? option word = some item := by
  constructor
  · intro h
    cases h with
    | format => exact Or.inl ⟨_, rfl, rfl⟩
    | group => exact Or.inl ⟨_, rfl, rfl⟩
    | parsed => exact Or.inl ⟨_, rfl, rfl⟩
    | json => exact Or.inl ⟨_, rfl, rfl⟩
    | config path => exact Or.inr ⟨_, _, rfl, rfl⟩
    | printWidth hword hn =>
      refine Or.inr ⟨_, _, rfl, ?_⟩
      show (width? _).map Item.printWidth = _
      rw [width?_eq_some_iff.mpr ⟨hword, hn⟩]
      rfl
    | mode name => exact Or.inr ⟨_, _, rfl, rfl⟩
    | before => exact Or.inr ⟨_, _, rfl, rfl⟩
    | after => exact Or.inr ⟨_, _, rfl, rfl⟩
    | chars => exact Or.inr ⟨_, _, rfl, rfl⟩
    | display => exact Or.inr ⟨_, _, rfl, rfl⟩
    | standardInput => exact Or.inl ⟨_, rfl, rfl⟩
    | @input path hdash hformat hgroup =>
      refine Or.inl ⟨path, rfl, ?_⟩
      have hne : ∀ option : String, option.toList.head? = some '-' → path ≠ option := by
        intro option hoption heq
        exact hdash (heq ▸ hoption)
      rw [ofWord?, if_neg hformat, if_neg hgroup, if_neg (hne _ rfl), if_neg (hne _ rfl),
        if_pos (Or.inr hdash)]
  · intro h
    rcases h with ⟨word, rfl, h⟩ | ⟨option, word, rfl, h⟩
    · exact writtenAs_of_ofWord? h
    · exact writtenAs_of_ofPair? h

/-- No item is written with two dashes in front. -/
theorem WrittenAs.exists_cons {words : List String} {item : Item} (h : WrittenAs words item) :
    ∃ word rest, words = word :: rest ∧ word ≠ "--" := by
  rcases writtenAs_iff.mp h with ⟨word, rfl, hword⟩ | ⟨option, word, rfl, hpair⟩
  · exact ⟨word, [], rfl, ne_dashes_of_ofWord? hword⟩
  · exact ⟨option, [word], rfl, (ofWord?_eq_none_of_ofPair? hpair).1⟩

/-- Of words that begin with an item, it can be told which item it is and where it ends. -/
theorem WrittenAs.eq_of_append_eq {words words' rest rest' : List String} {item item' : Item}
    (h : WrittenAs words item) (h' : WrittenAs words' item')
    (heq : words ++ rest = words' ++ rest') : words = words' ∧ item = item' ∧ rest = rest' := by
  -- An option that takes a word along is no item by itself, so both items take as many words.
  have hlone : ∀ {option word : String} {item item' : Item},
      ofPair? option word = some item → ¬ofWord? option = some item' := by
    intro option word item item' hpair hword
    rw [(ofWord?_eq_none_of_ofPair? hpair).2] at hword
    cases hword
  rcases writtenAs_iff.mp h with ⟨word, rfl, hitem⟩ | ⟨option, word, rfl, hitem⟩ <;>
    rcases writtenAs_iff.mp h' with ⟨word', rfl, hitem'⟩ | ⟨option', word', rfl, hitem'⟩ <;>
    simp only [List.cons_append, List.nil_append, List.cons.injEq] at heq
  · obtain ⟨rfl, rfl⟩ := heq
    exact ⟨rfl, Option.some.inj (hitem.symm.trans hitem'), rfl⟩
  · obtain ⟨rfl, -⟩ := heq
    exact absurd hitem (hlone hitem')
  · obtain ⟨rfl, -⟩ := heq
    exact absurd hitem' (hlone hitem)
  · obtain ⟨rfl, rfl, rfl⟩ := heq
    exact ⟨rfl, Option.some.inj (hitem.symm.trans hitem'), rfl⟩

end Item

/-! ## Taking a command line apart -/

/-- How the words of a command line end behind its items. -/
inductive Ending where
  /-- With the last item. -/
  | none
  | dashes
  /-- With two dashes and the input, whatever it looks like. -/
  | dashesInput (word : String)
deriving DecidableEq, Repr

namespace Ending

def words : Ending → List String
  | none => []
  | dashes => ["--"]
  | dashesInput word => ["--", word]

def items : Ending → List Item
  | none => []
  | dashes => []
  | dashesInput word => [.input word]

theorem words_injective {e e' : Ending} (h : e.words = e'.words) : e = e' := by
  cases e <;> cases e' <;> cases h <;> rfl

/-- Behind the last item there is nothing, or two dashes. -/
theorem head?_words (e : Ending) : e.words.head? = Option.none ∨ e.words.head? = some "--" := by
  cases e with
  | none => exact Or.inl rfl
  | dashes => exact Or.inr rfl
  | dashesInput word => exact Or.inr rfl

end Ending

/-- Items, each with the words that it is written with, and an ending. -/
structure Decomposition where
  parts : List (List String × Item)
  ending : Ending
deriving DecidableEq, Repr

namespace Decomposition

def words (d : Decomposition) : List String :=
  d.parts.flatMap Prod.fst ++ d.ending.words

def items (d : Decomposition) : List Item :=
  d.parts.map Prod.snd ++ d.ending.items

/-- The words are taken apart into items as they are written. -/
structure Of (d : Decomposition) (words : List String) : Prop where
  written : ∀ part ∈ d.parts, Item.WrittenAs part.1 part.2
  words_eq : d.words = words

/-- What words spell are the items of a decomposition. -/
theorem spells_iff_decomposition {words : List String} {items : List Item} :
    Item.Spells words items ↔ ∃ d : Decomposition, d.Of words ∧ d.items = items := by
  constructor
  · intro h
    induction h with
    | nil => exact ⟨⟨[], .none⟩, ⟨by simp, rfl⟩, rfl⟩
    | dashes => exact ⟨⟨[], .dashes⟩, ⟨by simp, rfl⟩, rfl⟩
    | dashesInput word => exact ⟨⟨[], .dashesInput word⟩, ⟨by simp, rfl⟩, rfl⟩
    | @word word item words items hitem _ ih =>
      obtain ⟨d, hd, rfl⟩ := ih
      have hwritten : Item.WrittenAs [word] item :=
        Item.writtenAs_iff.mpr (Or.inl ⟨word, rfl, hitem⟩)
      refine ⟨⟨([word], item) :: d.parts, d.ending⟩, ⟨?_, ?_⟩, rfl⟩
      · exact List.forall_mem_cons.mpr ⟨hwritten, hd.written⟩
      · exact congrArg (word :: ·) hd.words_eq
    | @pair option word item words items hitem _ ih =>
      obtain ⟨d, hd, rfl⟩ := ih
      have hwritten : Item.WrittenAs [option, word] item :=
        Item.writtenAs_iff.mpr (Or.inr ⟨option, word, rfl, hitem⟩)
      refine ⟨⟨([option, word], item) :: d.parts, d.ending⟩, ⟨?_, ?_⟩, rfl⟩
      · exact List.forall_mem_cons.mpr ⟨hwritten, hd.written⟩
      · exact congrArg (option :: word :: ·) hd.words_eq
  · intro h
    obtain ⟨⟨parts, ending⟩, ⟨hwritten, rfl⟩, rfl⟩ := h
    induction parts with
    | nil =>
      cases ending with
      | none => exact .nil
      | dashes => exact .dashes
      | dashesInput word => exact .dashesInput word
    | cons part parts ih =>
      obtain ⟨hpart, hparts⟩ := List.forall_mem_cons.mp hwritten
      obtain ⟨words, item⟩ := part
      rcases Item.writtenAs_iff.mp hpart with ⟨word, rfl, hitem⟩ | ⟨option, word, rfl, hitem⟩
      · exact .word hitem (ih hparts)
      · exact .pair hitem (ih hparts)

/-- Where the items end, no item begins. -/
private theorem not_writtenAs_ending {e : Ending} {words rest : List String} {item : Item}
    (heq : e.words = words ++ rest) : ¬Item.WrittenAs words item := by
  intro h
  obtain ⟨word, more, rfl, hne⟩ := h.exists_cons
  have hhead := e.head?_words
  rw [heq, List.cons_append, List.head?_cons] at hhead
  rcases hhead with hhead | hhead
  · cases hhead
  · exact hne (Option.some.inj hhead)

/-- **Words have one decomposition at most.** -/
theorem Of.unique {d d' : Decomposition} {words : List String} (h : d.Of words)
    (h' : d'.Of words) : d = d' := by
  obtain ⟨parts, ending⟩ := d
  obtain ⟨parts', ending'⟩ := d'
  obtain ⟨hwritten, hwords⟩ := h
  obtain ⟨hwritten', hwords'⟩ := h'
  have heq := hwords.trans hwords'.symm
  clear hwords hwords'
  unfold Decomposition.words at heq
  induction parts generalizing parts' with
  | nil =>
    cases parts' with
    | nil =>
      have hending : ending = ending' := Ending.words_injective heq
      rw [hending]
    | cons part' parts' =>
      rw [List.flatMap_nil, List.nil_append, List.flatMap_cons, List.append_assoc] at heq
      exact absurd (hwritten' part' (List.mem_cons_self ..)) (not_writtenAs_ending heq)
  | cons part parts ih =>
    obtain ⟨hpart, hparts⟩ := List.forall_mem_cons.mp hwritten
    cases parts' with
    | nil =>
      rw [List.flatMap_nil, List.nil_append, List.flatMap_cons, List.append_assoc] at heq
      exact absurd hpart (not_writtenAs_ending heq.symm)
    | cons part' parts' =>
      obtain ⟨hpart', hparts'⟩ := List.forall_mem_cons.mp hwritten'
      simp only [List.flatMap_cons, List.append_assoc] at heq
      obtain ⟨hwords, hitem, hrest⟩ := hpart.eq_of_append_eq hpart' heq
      have htail := ih parts' hparts hparts' hrest
      rw [Decomposition.mk.injEq] at htail ⊢
      rw [htail.1, Prod.ext hwords hitem]
      exact ⟨rfl, htail.2⟩

end Decomposition

/-! ## What a command line asks for -/

namespace Options

/-- What an item says is to be done. -/
def actionOf? : Item → Option Action
  | .action a => some a
  | _ => none

/-- Each option is what the last item of its kind says, if there is one, and the input is the only
one that there is. -/
structure Resolves (items : List Item) (o : Options) : Prop where
  action : o.action = (lastGiven actionOf? items).getD .format
  config : lastGiven configOf? items = some o.config
  input : items.filterMap inputOf? = o.input.toList
  parsed : o.parsed = true ↔ Item.parsed ∈ items
  json : o.json = true ↔ Item.json ∈ items
  printWidth : o.printWidth = lastGiven Item.printWidth? items
  mode : o.mode = lastGiven Item.mode? items
  placement : o.placement = lastGiven Item.placement? items
  measure : o.measure = lastGiven Item.measure? items

/-- Items have options exactly if a settings file is among them and at most one input. -/
theorem isSome_ofItems?_iff {items : List Item} : (ofItems? items).isSome = true ↔
    (∃ path, .config path ∈ items) ∧ (items.filterMap inputOf?).length ≤ 1 := by
  have hconfig : items.filterMap configOf? ≠ [] ↔ ∃ path, .config path ∈ items := by
    constructor
    · intro hne
      obtain ⟨path, hpath⟩ := List.exists_mem_of_ne_nil _ hne
      obtain ⟨item, hitem, hgives⟩ := List.mem_filterMap.mp hpath
      cases item <;> cases hgives
      exact ⟨path, hitem⟩
    · intro h
      obtain ⟨path, hpath⟩ := h
      exact List.ne_nil_of_mem (List.mem_filterMap.mpr ⟨_, hpath, rfl⟩)
  rw [← hconfig, ofItems?]
  rcases items.filterMap configOf? with _ | ⟨path, paths⟩
  · simp
  · rcases items.filterMap inputOf? with _ | ⟨input, _ | ⟨input', inputs⟩⟩ <;> simp

/-- The options of items are those that the items say. -/
theorem resolves_of_ofItems? {items : List Item} {o : Options} (h : ofItems? items = some o) :
    Resolves items o := by
  obtain ⟨hwidth, hmode, hplacement, hmeasure⟩ := given_of_ofItems? h
  obtain ⟨⟨path', hpath'⟩, hinputs⟩ := isSome_ofItems?_iff.mp (Option.isSome_of_eq_some h)
  obtain ⟨path, rfl⟩ := exists_foldl_of_ofItems? h
  have haction := foldl_add_eq_lastGiven actionOf? (fun o => some o.action)
    (fun o item => by cases item <;> rfl) items { config := path }
  have hconfig := foldl_add_eq_lastGiven configOf? (fun o => some o.config)
    (fun o item => by cases item <;> rfl) items { config := path }
  have hinput := foldl_add_eq_lastGiven inputOf? Options.input
    (fun o item => by cases item <;> rfl) items { config := path }
  have hparsed := foldl_add_switch .parsed Options.parsed
    (fun o item => by cases item <;> simp [add]) items { config := path }
  have hjson := foldl_add_switch .json Options.json
    (fun o item => by cases item <;> simp [add]) items { config := path }
  refine ⟨?_, ?_, ?_, ?_, ?_, hwidth, hmode, hplacement, hmeasure⟩
  · cases hgiven : lastGiven actionOf? items with
    | none => rw [hgiven] at haction; exact Option.some.inj haction
    | some a => rw [hgiven] at haction; exact Option.some.inj haction
  · -- A settings file is given, so the one at the start does not count.
    have hne : items.filterMap configOf? ≠ [] :=
      List.ne_nil_of_mem (List.mem_filterMap.mpr ⟨_, hpath', rfl⟩)
    have hgiven : lastGiven configOf? items = some ((items.filterMap configOf?).getLast hne) :=
      List.getLast?_eq_some_getLast hne
    rw [hgiven, Option.some_or] at hconfig
    rw [hgiven, hconfig]
  · rw [hinput, Option.or_none]
    unfold lastGiven
    match hall : items.filterMap inputOf? with
    | [] => rfl
    | [_] => rfl
    | _ :: _ :: _ => rw [hall] at hinputs; simp at hinputs
  · rw [hparsed]
    simp
  · rw [hjson]
    simp

/-- **The grammar of command lines.** Words are accepted exactly if they can be taken apart into
items, each as it is written, and an ending, with a settings file among the items and at most one
input. They can be taken apart in one way at most. If they are accepted, the last item of each kind
counts, and a flag is set exactly if its item is there. -/
theorem command_line_grammar (args : List String) :
    ((ofArgs? args).isSome = true ↔ ∃ d : Decomposition, d.Of args ∧
      (∃ path, .config path ∈ d.items) ∧ (d.items.filterMap inputOf?).length ≤ 1) ∧
    (∀ d d' : Decomposition, d.Of args → d'.Of args → d = d') ∧
    (∀ (o : Options) (d : Decomposition), ofArgs? args = some o → d.Of args →
      Resolves d.items o) := by
  have hitems : ∀ d : Decomposition, d.Of args → Item.ofWords? args = some d.items := by
    intro d hd
    exact Item.ofWords?_eq_some_iff.mpr (Decomposition.spells_iff_decomposition.mpr ⟨d, hd, rfl⟩)
  refine ⟨⟨?_, ?_⟩, fun d d' hd hd' => hd.unique hd', ?_⟩
  · intro h
    obtain ⟨o, ho⟩ := Option.isSome_iff_exists.mp h
    obtain ⟨items, hwords, ho⟩ := Option.bind_eq_some_iff.mp ho
    obtain ⟨d, hd, rfl⟩ :=
      Decomposition.spells_iff_decomposition.mp (Item.ofWords?_eq_some_iff.mp hwords)
    exact ⟨d, hd, isSome_ofItems?_iff.mp (Option.isSome_of_eq_some ho)⟩
  · intro h
    obtain ⟨d, hd, hcomplete⟩ := h
    rw [ofArgs?, hitems d hd, Option.bind_some]
    exact isSome_ofItems?_iff.mpr hcomplete
  · intro o d ho hd
    rw [ofArgs?, hitems d hd, Option.bind_some] at ho
    exact resolves_of_ofItems? ho

/-- Values that look like options, a width with a sign and zeros, and an input that looks like a
flag. -/
theorem command_line_grammar_values_like_options :
    let args := ["--print-width", "+007", "--config", "--json", "group", "--grouping", "--",
      "--config", "group", "--print-width", "12", "--", "--parsed"]
    let d : Decomposition :=
      { parts := [(["--print-width", "+007"], .printWidth 7), (["--config", "--json"],
          .config "--json"), (["group"], .action .group), (["--grouping", "--"], .mode .unknown),
          (["--config", "group"], .config "group"), (["--print-width", "12"], .printWidth 12)]
        ending := .dashesInput "--parsed" }
    let o : Options :=
      { action := .group
        config := "group"
        input := some "--parsed"
        printWidth := some 12
        mode := some .unknown }
    ofArgs? args = some o ∧ d.Of args ∧ Resolves d.items o ∧ ∀ d', d'.Of args → d' = d := by
  intro args d o
  have ho : ofArgs? args = some o := by decide
  have hseven : IsDecimal "+007" 7 := ⟨['0', '0', '7'], Or.inr rfl, by simp, by simp, rfl⟩
  have htwelve : IsDecimal "12" 12 := ⟨['1', '2'], Or.inl rfl, by simp, by simp, rfl⟩
  have hd : d.Of args := by
    refine ⟨?_, rfl⟩
    intro part hpart
    simp only [d, List.mem_cons, List.not_mem_nil, or_false] at hpart
    rcases hpart with rfl | rfl | rfl | rfl | rfl | rfl
    · exact .printWidth hseven (by decide)
    · exact .config "--json"
    · exact .group
    · exact .mode "--"
    · exact .config "group"
    · exact .printWidth htwelve (by decide)
  obtain ⟨-, hunique, hresolves⟩ := command_line_grammar args
  exact ⟨ho, hd, hresolves o d ho hd, fun d' hd' => hunique d' d hd' hd⟩

end Options

end ClassTidy.Command
