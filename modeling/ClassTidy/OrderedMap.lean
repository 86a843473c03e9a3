/-!
# Maps that keep the order of insertion

A key keeps the place at which it was first inserted, and holds the value that was inserted last.
-/

namespace ClassTidy

universe u v

/-- A map from keys to values whose keys stand in order of first insertion. -/
structure OrderedMap (α : Type u) (β : Type v) where
  toList : List (α × β)
  nodup : (toList.map Prod.fst).Nodup

namespace OrderedMap

variable {α : Type u} {β : Type v}

def empty : OrderedMap α β := ⟨[], by simp⟩

instance : EmptyCollection (OrderedMap α β) := ⟨empty⟩

/-- The keys, in order of first insertion. -/
def keys (m : OrderedMap α β) : List α := m.toList.map Prod.fst

variable [DecidableEq α]

/-- The pairs with the value of `key` replaced where it stands, or put at the end. -/
def put (key : α) (value : β) : List (α × β) → List (α × β)
  | [] => [(key, value)]
  | p :: rest => if p.1 = key then (key, value) :: rest else p :: put key value rest

theorem mem_keys_put {key a : α} {value : β} {l : List (α × β)} :
    a ∈ (put key value l).map Prod.fst ↔ a = key ∨ a ∈ l.map Prod.fst := by
  induction l with
  | nil => simp [put]
  | cons p rest ih =>
    rw [put]
    split
    · next h => simp [h]
    · simp only [List.map_cons, List.mem_cons, ih]
      exact or_left_comm

theorem nodup_put {key : α} {value : β} {l : List (α × β)} (h : (l.map Prod.fst).Nodup) :
    ((put key value l).map Prod.fst).Nodup := by
  induction l with
  | nil => simp [put]
  | cons p rest ih =>
    rw [List.map_cons, List.nodup_cons] at h
    rw [put]
    split
    · next hp => rw [List.map_cons, List.nodup_cons, ← hp]; exact h
    · next hp =>
      rw [List.map_cons, List.nodup_cons, mem_keys_put]
      exact ⟨not_or.mpr ⟨hp, h.1⟩, ih h.2⟩

/-- Gives `key` the value: where the key stands already, or at the end. -/
def insert (m : OrderedMap α β) (key : α) (value : β) : OrderedMap α β :=
  ⟨put key value m.toList, nodup_put m.nodup⟩

def get? (m : OrderedMap α β) (key : α) : Option β :=
  (m.toList.find? (·.1 = key)).map Prod.snd

/-- Putting a value changes what is found for its key, and for no other. -/
@[simp] theorem find?_put {key k : α} {value : β} {l : List (α × β)} :
    (put key value l).find? (·.1 = k)
      = if key = k then some (key, value) else l.find? (·.1 = k) := by
  induction l with
  | nil =>
    rw [put, List.find?_cons, List.find?_nil]
    by_cases hk : key = k <;> simp [hk]
  | cons p rest ih =>
    rw [put]
    split
    · next hp =>
      rw [List.find?_cons, List.find?_cons, hp]
      by_cases hk : key = k <;> simp [hk]
    · next hp =>
      rw [List.find?_cons, List.find?_cons, ih]
      by_cases hk : key = k
      · rw [if_pos hk, if_pos hk, decide_eq_false fun h : p.1 = k => hp (h.trans hk.symm)]
      · rw [if_neg hk, if_neg hk]

@[simp] theorem get?_insert (m : OrderedMap α β) (key k : α) (value : β) :
    (m.insert key value).get? k = if key = k then some value else m.get? k := by
  unfold insert get?
  rw [find?_put]
  split <;> rfl

/-- The pairs inserted one after the other. -/
def ofList (l : List (α × β)) : OrderedMap α β :=
  l.foldl (fun m p => m.insert p.1 p.2) ∅

/-- Adds a value to the list of a key, which starts empty. -/
def push {γ : Type v} (m : OrderedMap α (List γ)) (key : α) (value : γ) : OrderedMap α (List γ) :=
  m.insert key ((m.get? key).getD [] ++ [value])

/-- A value that is added is last in the list of its key, and the other lists stay. -/
@[simp] theorem getD_get?_push {γ : Type v} (m : OrderedMap α (List γ)) (key k : α) (value : γ) :
    ((m.push key value).get? k).getD []
      = if key = k then (m.get? k).getD [] ++ [value] else (m.get? k).getD [] := by
  rw [push, get?_insert]
  split
  · next h => rw [h]; rfl
  · rfl

end OrderedMap

end ClassTidy
