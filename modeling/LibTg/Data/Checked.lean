import Mathlib.Data.List.Basic

/-!
# Unchecked computations and their checked counterparts

A partial computation makes a list of accesses and has a result if none of them faults. Its checked
counterpart makes the same steps and fails at the first access that is not permitted. The relation
between the two says that all accesses are permitted exactly if the checked computation succeeds, and
that both results agree in this case. It is preserved by composition, so that a program of any size
is compared with its counterpart statement by statement.
-/

namespace LibTg

section Follows

variable {Access Result Reference : Type*}

/-- A computation with the given accesses and result, and its checked counterpart. -/
structure Follows (permitted : Access → Prop) (agree : Result → Reference → Prop)
    (accesses : List Access) (result : Option Result) (checked : Option Reference) : Prop where
  permitted_iff : (∀ access ∈ accesses, permitted access) ↔ checked.isSome
  agrees : ∀ {reference}, checked = some reference →
    ∃ value, result = some value ∧ agree value reference

variable {permitted : Access → Prop} {agree : Result → Reference → Prop}

/-- No access, and two results that agree. -/
theorem Follows.pure {value : Result} {reference : Reference} (h : agree value reference) :
    Follows permitted agree [] (some value) (some reference) where
  permitted_iff := by simp
  agrees := by
    intro other hother
    cases hother
    exact ⟨value, rfl, h⟩

/-- One access that is permitted exactly if the check succeeds. -/
theorem Follows.access {access : Access} {result : Option Result} {checked : Option Reference}
    (hpermitted : permitted access ↔ checked.isSome)
    (hagrees : ∀ {reference}, checked = some reference →
      ∃ value, result = some value ∧ agree value reference) :
    Follows permitted agree [access] result checked where
  permitted_iff := by rw [List.forall_mem_singleton, hpermitted]
  agrees := hagrees

/-- An access more that is permitted in any case. -/
theorem Follows.cons {access : Access} {accesses : List Access} {result : Option Result}
    {checked : Option Reference} (hpermitted : permitted access)
    (h : Follows permitted agree accesses result checked) :
    Follows permitted agree (access :: accesses) result checked where
  permitted_iff := by rw [List.forall_mem_cons, and_iff_right hpermitted, h.permitted_iff]
  agrees := h.agrees

variable {Result' Reference' : Type*} {agree' : Result' → Reference' → Prop}

/-- Two computations in sequence, the second for the result of the first. -/
theorem Follows.bind {accesses : List Access} {result : Option Result}
    {checked : Option Reference} {laterAccesses : Result → List Access}
    {later : Result → Option Result'} {laterChecked : Reference → Option Reference'}
    (hfirst : Follows permitted agree accesses result checked)
    (hlater : ∀ value reference, agree value reference →
      Follows permitted agree' (laterAccesses value) (later value) (laterChecked reference)) :
    Follows permitted agree' (accesses ++ result.elim [] laterAccesses) (result.bind later)
      (checked.bind laterChecked) := by
  cases hchecked : checked with
  | none =>
    have hfails : ¬ ∀ access ∈ accesses, permitted access := by
      rw [hfirst.permitted_iff, hchecked]
      exact Bool.false_ne_true
    constructor
    · rw [List.forall_mem_append]
      exact iff_of_false (fun h ↦ hfails h.1) Bool.false_ne_true
    · intro reference hreference
      cases hreference
  | some reference =>
    obtain ⟨value, hvalue, hagree⟩ := hfirst.agrees hchecked
    have hpermitted : ∀ access ∈ accesses, permitted access := by
      rw [hfirst.permitted_iff, hchecked]
      rfl
    have hrest := hlater value reference hagree
    constructor
    · rw [List.forall_mem_append, hvalue, Option.elim_some, Option.bind_some, ← hrest.permitted_iff]
      exact and_iff_right hpermitted
    · intro final hfinal
      rw [hvalue]
      exact hrest.agrees hfinal

/-- A second computation without accesses. -/
theorem Follows.finish {accesses : List Access} {result : Option Result}
    {checked : Option Reference} {later : Result → Option Result'}
    {laterChecked : Reference → Option Reference'}
    (hfirst : Follows permitted agree accesses result checked)
    (hlater : ∀ value reference, agree value reference →
      Follows permitted agree' [] (later value) (laterChecked reference)) :
    Follows permitted agree' accesses (result.bind later) (checked.bind laterChecked) := by
  have hnothing : result.elim [] (fun _ ↦ ([] : List Access)) = [] := by cases result <;> rfl
  have hboth := hfirst.bind hlater
  rwa [hnothing, List.append_nil] at hboth

/-- The results agree in any weaker sense too. -/
theorem Follows.mono {agree' : Result → Reference → Prop} {accesses : List Access}
    {result : Option Result} {checked : Option Reference}
    (h : Follows permitted agree accesses result checked)
    (hagree : ∀ value reference, agree value reference → agree' value reference) :
    Follows permitted agree' accesses result checked where
  permitted_iff := h.permitted_iff
  agrees := by
    intro reference hreference
    obtain ⟨value, hvalue, hstrong⟩ := h.agrees hreference
    exact ⟨value, hvalue, hagree value reference hstrong⟩

/-- The results may be packed differently as long as they still agree. -/
theorem Follows.map {accesses : List Access} {result : Option Result} {checked : Option Reference}
    {pack : Result → Result'} {pack' : Reference → Reference'}
    (h : Follows permitted agree accesses result checked)
    (hpack : ∀ value reference, agree value reference → agree' (pack value) (pack' reference)) :
    Follows permitted agree' accesses (result.map pack) (checked.map pack') where
  permitted_iff := by rw [h.permitted_iff, Option.isSome_map]
  agrees := by
    intro reference hreference
    obtain ⟨before, hbefore, rfl⟩ := Option.map_eq_some_iff.mp hreference
    obtain ⟨value, hvalue, hagree⟩ := h.agrees hbefore
    exact ⟨pack value, by rw [hvalue, Option.map_some], hpack value before hagree⟩

end Follows

end LibTg
