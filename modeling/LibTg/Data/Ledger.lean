import Mathlib.Order.Nat
import Mathlib.Data.List.Nodup
import Mathlib.Data.List.Perm.Basic

/-!
# Blocks that are allocated and released

Blocks of a heap are numbered in the order in which they are allocated. A holding is a part of a
heap: the blocks that can be reached from it, those of them that nothing releases, and what is released
for it, which is nothing if that faults. Holdings that are built one after the other have different
blocks, so that they are put together by putting their lists together, and a holding whose blocks are
all accounted for releases each block once exactly if none is lost.
-/

namespace LibTg

/-- A part of a heap. -/
structure Holding where
  owned : List ℕ
  lost : List ℕ
  released : Option (List ℕ)

namespace Holding

/-- Releasing one part after another. -/
def releaseBoth (first second : Option (List ℕ)) : Option (List ℕ) :=
  first.bind fun earlier ↦ second.map fun later ↦ earlier ++ later

/-- No block. -/
def empty : Holding := ⟨[], [], some []⟩

/-- Two parts of a heap. -/
def append (first second : Holding) : Holding where
  owned := first.owned ++ second.owned
  lost := first.lost ++ second.lost
  released := releaseBoth first.released second.released

/-- Every reachable block is released once, and nothing else is. -/
def ReleasesOnce (holding : Holding) : Prop :=
  ∃ released, holding.released = some released ∧ released.Nodup ∧
    ∀ block, block ∈ released ↔ block ∈ holding.owned

/-- The blocks are different ones with numbers from `lower` to `upper`, and under a condition each is
either released or lost. -/
structure Settled (holding : Holding) (lower upper : ℕ) (fits : Prop) : Prop where
  le : lower ≤ upper
  nodup : holding.owned.Nodup
  range : ∀ block ∈ holding.owned, lower ≤ block ∧ block < upper
  accounted : fits → ∃ released, holding.released = some released ∧
    (released ++ holding.lost).Perm holding.owned

variable {holding first second : Holding} {lower middle upper : ℕ} {fits fits' : Prop}

theorem released_append (first second : Holding) :
    (first.append second).released = releaseBoth first.released second.released := rfl

@[simp]
theorem releaseBoth_nil (released : Option (List ℕ)) : releaseBoth released (some []) = released := by
  cases released with
  | none => rfl
  | some blocks => exact congrArg some (List.append_nil blocks)

@[simp]
theorem nil_releaseBoth (released : Option (List ℕ)) : releaseBoth (some []) released = released := by
  cases released <;> rfl

theorem releaseBoth_assoc (first second third : Option (List ℕ)) :
    releaseBoth (releaseBoth first second) third =
      releaseBoth first (releaseBoth second third) := by
  cases first with
  | none => rfl
  | some earlier =>
    cases second with
    | none => rfl
    | some middle =>
      cases third with
      | none => rfl
      | some later => exact congrArg some (List.append_assoc earlier middle later)

theorem releaseBoth_eq_some_iff {first second : Option (List ℕ)} {blocks : List ℕ} :
    releaseBoth first second = some blocks ↔
      ∃ earlier later, first = some earlier ∧ second = some later ∧ earlier ++ later = blocks := by
  rw [releaseBoth, Option.bind_eq_some_iff]
  constructor
  · rintro ⟨earlier, hearlier, hrest⟩
    obtain ⟨later, hlater, heq⟩ := Option.map_eq_some_iff.mp hrest
    exact ⟨earlier, later, hearlier, hlater, heq⟩
  · rintro ⟨earlier, later, hearlier, hlater, heq⟩
    exact ⟨earlier, hearlier, Option.map_eq_some_iff.mpr ⟨later, hlater, heq⟩⟩

theorem settled_empty (hle : lower ≤ upper) : empty.Settled lower upper fits where
  le := hle
  nodup := List.nodup_nil
  range := nofun
  accounted _ := ⟨[], rfl, List.Perm.refl _⟩

/-- A block that is released. -/
theorem settled_released (block : ℕ) :
    Settled ⟨[block], [], some [block]⟩ block (block + 1) fits where
  le := Nat.le_succ block
  nodup := List.nodup_singleton block
  range other hother := by
    rw [List.mem_singleton.mp hother]
    exact ⟨le_rfl, Nat.lt_succ_self block⟩
  accounted _ := ⟨[block], rfl, List.Perm.refl _⟩

/-- A block that is lost. -/
theorem settled_lost (block : ℕ) :
    Settled ⟨[block], [block], some []⟩ block (block + 1) fits where
  le := Nat.le_succ block
  nodup := List.nodup_singleton block
  range other hother := by
    rw [List.mem_singleton.mp hother]
    exact ⟨le_rfl, Nat.lt_succ_self block⟩
  accounted _ := ⟨[], rfl, List.Perm.refl _⟩

/-- The same blocks in another order. -/
theorem Settled.perm (h : holding.Settled lower upper fits)
    (howned : holding.owned.Perm first.owned) (hlost : holding.lost.Perm first.lost)
    (hreleased : ∀ released, holding.released = some released →
      ∃ other, first.released = some other ∧ released.Perm other) :
    first.Settled lower upper fits where
  le := h.le
  nodup := howned.nodup_iff.mp h.nodup
  range block hblock := h.range block (howned.mem_iff.mpr hblock)
  accounted hfits := by
    obtain ⟨released, hsome, hperm⟩ := h.accounted hfits
    obtain ⟨other, hother, hsame⟩ := hreleased released hsome
    exact ⟨other, hother, ((hsame.append hlost).symm.trans hperm).trans howned⟩

/-- The condition may be stronger. -/
theorem Settled.imp (h : holding.Settled lower upper fits) (himp : fits' → fits) :
    holding.Settled lower upper fits' where
  le := h.le
  nodup := h.nodup
  range := h.range
  accounted hfits := h.accounted (himp hfits)

/-- One part is built after the other. -/
theorem Settled.append (hfirst : first.Settled lower middle fits)
    (hsecond : second.Settled middle upper fits') :
    (first.append second).Settled lower upper (fits ∧ fits') where
  le := hfirst.le.trans hsecond.le
  nodup := by
    change (first.owned ++ second.owned).Nodup
    rw [List.nodup_append]
    refine ⟨hfirst.nodup, hsecond.nodup, fun block hblock other hother heq ↦ ?_⟩
    have hbelow := (hfirst.range block hblock).2
    have habove := (hsecond.range other hother).1
    omega
  range block hblock := by
    rcases List.mem_append.mp hblock with hmem | hmem
    · obtain ⟨hlower, hupper⟩ := hfirst.range block hmem
      exact ⟨hlower, hupper.trans_le hsecond.le⟩
    · obtain ⟨hlower, hupper⟩ := hsecond.range block hmem
      exact ⟨hfirst.le.trans hlower, hupper⟩
  accounted hfits := by
    obtain ⟨earlier, hearlier, hperm⟩ := hfirst.accounted hfits.1
    obtain ⟨later, hlater, hperm'⟩ := hsecond.accounted hfits.2
    refine ⟨earlier ++ later,
      releaseBoth_eq_some_iff.mpr ⟨earlier, later, hearlier, hlater, rfl⟩, ?_⟩
    calc earlier ++ later ++ (first.lost ++ second.lost)
        = earlier ++ (later ++ (first.lost ++ second.lost)) := List.append_assoc ..
      _ = earlier ++ (later ++ first.lost ++ second.lost) := by rw [List.append_assoc later]
      List.Perm _ (earlier ++ (first.lost ++ later ++ second.lost)) :=
        (List.perm_append_comm.append_right _).append_left _
      List.Perm _ (earlier ++ first.lost ++ (later ++ second.lost)) := by
        rw [List.append_assoc, List.append_assoc]
      List.Perm _ (first.owned ++ second.owned) := hperm.append hperm'

/-- The part that was built later is released first. -/
theorem Settled.swap (h : (first.append second).Settled lower upper fits) :
    (second.append first).Settled lower upper fits := by
  have howned : (first.append second).owned.Perm (second.append first).owned :=
    List.perm_append_comm
  have hlost : (first.append second).lost.Perm (second.append first).lost := List.perm_append_comm
  apply h.perm howned hlost
  intro released hreleased
  obtain ⟨earlier, later, hearlier, hlater, rfl⟩ := releaseBoth_eq_some_iff.mp hreleased
  exact ⟨later ++ earlier, releaseBoth_eq_some_iff.mpr ⟨later, earlier, hlater, hearlier, rfl⟩,
    List.perm_append_comm⟩

/-- Under the condition each block is released once exactly if none is lost. -/
theorem Settled.releasesOnce_iff (h : holding.Settled lower upper fits) (hfits : fits) :
    holding.ReleasesOnce ↔ holding.lost = [] := by
  obtain ⟨released, hreleased, hperm⟩ := h.accounted hfits
  constructor
  · rintro ⟨other, hother, -, hiff⟩
    rw [hreleased, Option.some.injEq] at hother
    rw [List.eq_nil_iff_forall_not_mem]
    intro block hblock
    have howned : block ∈ holding.owned := hperm.subset (List.mem_append_right _ hblock)
    have hmem : block ∈ released := hother ▸ (hiff block).mpr howned
    have hnodup := hperm.nodup_iff.mpr h.nodup
    exact (List.nodup_append.mp hnodup).2.2 block hmem block hblock rfl
  · intro hlost
    rw [hlost, List.append_nil] at hperm
    exact ⟨released, hreleased, hperm.nodup_iff.mpr h.nodup, fun block ↦ hperm.mem_iff⟩

end Holding

end LibTg
