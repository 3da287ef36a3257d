import Mathlib.Data.List.Basic

/-!
# The last value that is set

A loop over a list assigns a variable in some of its rounds. After the loop the variable has the
value of the last round that has assigned it, or the value it had before. The library fixes neither
the entries nor the state that the variable is part of.
-/

namespace LibTg

variable {Entry State Value : Type*}

/-- The last value that an entry of a list sets. -/
def lastSet (set : Entry → Option Value) (entries : List Entry) : Option Value :=
  (entries.filterMap set).getLast?

variable {set : Entry → Option Value}

@[simp]
theorem lastSet_nil : lastSet set [] = none := rfl

theorem lastSet_append (first second : List Entry) :
    lastSet set (first ++ second) = (lastSet set second).or (lastSet set first) := by
  unfold lastSet
  rw [List.filterMap_append, List.getLast?_append]

@[simp]
theorem lastSet_singleton (entry : Entry) : lastSet set [entry] = set entry := by
  unfold lastSet
  cases hset : set entry <;> simp [hset]

theorem lastSet_cons (entry : Entry) (entries : List Entry) :
    lastSet set (entry :: entries) = (lastSet set entries).or (set entry) := by
  rw [← List.singleton_append, lastSet_append, lastSet_singleton]

/-- Entries that set nothing may be left out. -/
theorem lastSet_filter (keep : Entry → Bool) (entries : List Entry)
    (hkeep : ∀ entry ∈ entries, keep entry = false → set entry = none) :
    lastSet set (entries.filter keep) = lastSet set entries := by
  unfold lastSet
  rw [List.filterMap_filter]
  congr 1
  apply List.filterMap_congr
  intro entry hmem
  cases hentry : keep entry with
  | false => simp [hkeep entry hmem hentry]
  | true => rfl

/-- Where every entry sets a value, the last entry counts. -/
theorem lastSet_some (value : Entry → Value) (entries : List Entry) :
    lastSet (fun entry ↦ some (value entry)) entries = entries.getLast?.map value := by
  unfold lastSet
  rw [List.filterMap_eq_map', List.getLast?_map]

/-- A value made from an optional one is set where that one is. -/
theorem lastSet_map {Other : Type*} (value : Value → Other) (entries : List Entry) :
    lastSet (fun entry ↦ (set entry).map value) entries = (lastSet set entries).map value := by
  unfold lastSet
  rw [← List.map_filterMap, List.getLast?_map]

/-- A loop leaves what its rounds keep. -/
theorem foldl_keep {step : State → Entry → State} {get : State → Value}
    (hstep : ∀ state entry, get (step state entry) = get state) (entries : List Entry)
    (state : State) : get (entries.foldl step state) = get state := by
  induction entries generalizing state with
  | nil => rfl
  | cons entry entries ih => rw [List.foldl_cons, ih, hstep]

/-- What a loop leaves in a variable that its rounds set or keep. -/
theorem foldl_lastSet (set : Entry → Option Value) (get : State → Value)
    (step : State → Entry → State)
    (hstep : ∀ state entry, get (step state entry) = (set entry).getD (get state))
    (entries : List Entry) (state : State) :
    get (entries.foldl step state) = (lastSet set entries).getD (get state) := by
  induction entries generalizing state with
  | nil => rfl
  | cons entry entries ih =>
    rw [List.foldl_cons, ih, lastSet_cons, hstep]
    cases lastSet set entries <;> simp

end LibTg
