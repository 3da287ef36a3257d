import Mathlib.Data.List.Basic
import Mathlib.Tactic.Ring

/-!
# Sequences in chunks

A sequence that arrives piece by piece is a list of chunks. A reader that takes items from the front
leaves the rest in chunks again. The positions between two chunks are the cuts; taking items moves
the later cuts along.
-/

namespace LibTg

variable {Item : Type*}

/-- The chunks that are left when `count` items have been taken from the front. -/
def dropItems : ℕ → List (List Item) → List (List Item)
  | _, [] => []
  | count, chunk :: rest =>
    if count < chunk.length then chunk.drop count :: rest
    else dropItems (count - chunk.length) rest

/-- A position at which one chunk ends and the next one begins. -/
def IsCut (chunks : List (List Item)) (position : ℕ) : Prop :=
  ∃ left right, chunks = left ++ right ∧ left.flatten.length = position

def NonemptyChunks (chunks : List (List Item)) : Prop := ∀ chunk ∈ chunks, chunk ≠ []

theorem flatten_dropItems (count : ℕ) (chunks : List (List Item)) :
    (dropItems count chunks).flatten = chunks.flatten.drop count := by
  induction chunks generalizing count with
  | nil => rw [dropItems, List.flatten_nil, List.drop_nil]
  | cons chunk rest ih =>
    rw [dropItems, List.flatten_cons]
    split
    case isTrue hlt => rw [List.flatten_cons, List.drop_append_of_le_length hlt.le]
    case isFalse hle =>
      rw [ih, List.drop_append, List.drop_of_length_le (not_lt.mp hle), List.nil_append]

theorem nonemptyChunks_dropItems {chunks : List (List Item)} (h : NonemptyChunks chunks)
    (count : ℕ) : NonemptyChunks (dropItems count chunks) := by
  induction chunks generalizing count with
  | nil => exact h
  | cons chunk rest ih =>
    obtain ⟨-, hrest⟩ := List.forall_mem_cons.mp h
    rw [dropItems]
    split
    case isTrue hlt =>
      refine List.forall_mem_cons.mpr ⟨fun hnil ↦ ?_, hrest⟩
      rw [List.drop_eq_nil_iff] at hnil
      omega
    case isFalse => exact ih hrest _

theorem dropItems_zero {chunks : List (List Item)} (h : NonemptyChunks chunks) :
    dropItems 0 chunks = chunks := by
  cases chunks with
  | nil => rfl
  | cons chunk rest =>
    have hpos := List.length_pos_iff.mpr (h chunk List.mem_cons_self)
    rw [dropItems, if_pos hpos, List.drop_zero]

theorem dropItems_add (first second : ℕ) (chunks : List (List Item)) :
    dropItems (first + second) chunks = dropItems second (dropItems first chunks) := by
  induction chunks generalizing first with
  | nil => rfl
  | cons chunk rest ih =>
    rw [dropItems, dropItems]
    by_cases hfirst : first < chunk.length
    · rw [if_pos hfirst, dropItems, List.length_drop]
      by_cases hboth : first + second < chunk.length
      · rw [if_pos hboth, if_pos (by omega), List.drop_drop]
      · rw [if_neg hboth, if_neg (by omega)]
        congr 1
        omega
    · rw [if_neg hfirst, if_neg (by omega), ← ih]
      congr 1
      omega

/-! ## Cuts -/

theorem isCut_nil_iff {position : ℕ} : IsCut ([] : List (List Item)) position ↔ position = 0 := by
  constructor
  · rintro ⟨left, right, hsplit, rfl⟩
    rw [(List.append_eq_nil_iff.mp hsplit.symm).1]
    rfl
  · rintro rfl
    exact ⟨[], [], rfl, rfl⟩

/-- The cuts behind the first chunk. -/
theorem isCut_cons_iff {chunk : List Item} {rest : List (List Item)} {position : ℕ}
    (hpos : 0 < position) :
    IsCut (chunk :: rest) position ↔ ∃ later, IsCut rest later ∧ position = chunk.length + later := by
  constructor
  · rintro ⟨left, right, hsplit, rfl⟩
    cases left with
    | nil => exact absurd hpos (lt_irrefl 0)
    | cons first others =>
      obtain ⟨rfl, rfl⟩ := List.cons.inj hsplit
      exact ⟨_, ⟨others, right, rfl, rfl⟩, by rw [List.flatten_cons, List.length_append]⟩
  · rintro ⟨later, ⟨left, right, rfl, rfl⟩, rfl⟩
    exact ⟨chunk :: left, right, rfl, by rw [List.flatten_cons, List.length_append]⟩

theorem isCut_length_cons (chunk : List Item) (rest : List (List Item)) :
    IsCut (chunk :: rest) chunk.length :=
  ⟨[chunk], rest, rfl, by rw [List.flatten_cons, List.flatten_nil, List.append_nil]⟩

/-- Taking items from the front moves the cuts behind them. -/
theorem isCut_dropItems_iff (count : ℕ) {chunks : List (List Item)} {position : ℕ}
    (hpos : 0 < position) :
    IsCut (dropItems count chunks) position ↔ IsCut chunks (count + position) := by
  induction chunks generalizing count with
  | nil =>
    rw [dropItems, isCut_nil_iff, isCut_nil_iff]
    omega
  | cons chunk rest ih =>
    rw [dropItems, isCut_cons_iff (Nat.add_pos_right count hpos)]
    split
    case isTrue hlt =>
      rw [isCut_cons_iff hpos, List.length_drop]
      refine exists_congr fun later ↦ and_congr_right fun _ ↦ ?_
      omega
    case isFalse hle =>
      rw [ih]
      constructor
      · intro hcut
        exact ⟨_, hcut, by omega⟩
      · rintro ⟨later, hcut, heq⟩
        have hlater : count - chunk.length + position = later := by omega
        rw [hlater]
        exact hcut

end LibTg
