import LibTg.Data.LittleEndian
import LibTg.Data.Run
import Mathlib.Data.List.Nodup

/-!
# Random ids (`tl/buf.c`, `tg/messages.c`, `tg/files.c`)

`buf_rand` calls `srand` with the current second before it draws its bytes, so that what it returns
depends on this second alone. Session ids, salts, nonces, the ids of uploaded files and the random ids
of messages all come from it. The generator of the C library is a parameter: a function of the last
seed and of the number of values drawn since.
-/

namespace LibTg.Tg

/-- `rand()` after a seed and a number of calls. -/
abbrev Rand := UInt32 → ℕ → ℕ

/-- The generator: the argument of the last `srand`, and the number of calls of `rand` since. -/
structure Generator where
  seed : UInt32
  drawn : ℕ
  deriving DecidableEq

section Draw

variable (rand : Rand)

/-- The loop of `buf_rand`. -/
def drawBytes : ℕ → Generator → Bytes × Generator
  | 0, generator => ([], generator)
  | count + 1, generator =>
    let byte := UInt8.ofNat (rand generator.seed generator.drawn % 256)
    let (rest, generator) := drawBytes count { generator with drawn := generator.drawn + 1 }
    (byte :: rest, generator)

/-- `(unsigned int)time(NULL)`. -/
def seedOf (now : ℕ) : UInt32 := UInt32.ofNat now

/-- `buf_rand` in a given second. -/
def bufRandAt (now size : ℕ) : Bytes × Generator := drawBytes rand size ⟨seedOf now, 0⟩

end Draw

/-- What random bytes are drawn for: `random_id` in `tg_message_send`, `file_id` and `random_id` in
`tg_document_send`, `random_id` in `tg_contact_send` and in `tg_send_geopoint`, `tg->ssid`,
`tg->salt`, and anything else. -/
inductive Purpose
  | messageRandomId
  | documentFileId
  | documentRandomId
  | contactRandomId
  | geopointRandomId
  | ssid
  | salt
  | other (size : ℕ)
  deriving DecidableEq

/-- The argument of `buf_rand`. -/
def Purpose.size : Purpose → ℕ
  | .other size => size
  | _ => 8

/-- The bytes become a `random_id` or a `file_id`, by `buf_get_ui64`. -/
def Purpose.isId : Purpose → Bool
  | .ssid => false
  | .salt => false
  | .other _ => false
  | _ => true

/-- The generator, the clock, and all bytes that have been drawn. -/
structure Randomness where
  generator : Generator
  now : ℕ
  taken : List (Purpose × Bytes)
  deriving DecidableEq

/-- A call of `buf_rand` in a second that is not before the last one. -/
def randomStep (rand : Rand) (state : Randomness) (draw : Purpose × ℕ) : Option Randomness :=
  if state.now ≤ draw.2 then
    let (bytes, generator) := bufRandAt rand draw.2 draw.1.size
    some ⟨generator, draw.2, state.taken ++ [(draw.1, bytes)]⟩
  else none

/-- Neither two ids nor two strings of eight bytes are equal. -/
structure NoRepeats (taken : List (Purpose × Bytes)) : Prop where
  ids : ((taken.filter fun draw ↦ draw.1.isId).map fun draw ↦ getUi64 draw.2).Nodup
  words : ((taken.filter fun draw ↦ draw.1.size = 8).map Prod.snd).Nodup

/-- The first values after a seed, as bytes. -/
def firstBytes (rand : Rand) (seed : UInt32) (count : ℕ) : Bytes :=
  (List.range count).map fun index ↦ UInt8.ofNat (rand seed index % 256)

/-- Two different seconds whose seeds start the generator with different bytes. -/
def Apart (rand : Rand) (first second : ℕ) : Prop :=
  first ≠ second ∧ firstBytes rand (seedOf first) 8 ≠ firstBytes rand (seedOf second) 8

instance decidableApart (rand : Rand) (first second : ℕ) : Decidable (Apart rand first second) :=
  inferInstanceAs (Decidable (_ ∧ _))

/-- The seconds in which a run draws eight bytes. -/
def wordSeconds (draws : List (Purpose × ℕ)) : List ℕ :=
  (draws.filter fun draw ↦ draw.1.size = 8).map Prod.snd

/-! ## What is drawn -/

section Run

variable {rand : Rand}

theorem drawBytes_fst (count : ℕ) (generator : Generator) :
    (drawBytes rand count generator).1 = (List.range count).map fun index ↦
      UInt8.ofNat (rand generator.seed (generator.drawn + index) % 256) := by
  induction count generalizing generator with
  | zero => rfl
  | succ count ih =>
    rw [drawBytes]
    dsimp only
    rw [ih, List.range_succ_eq_map, List.map_cons, List.map_map]
    congr 1
    apply List.map_congr_left
    intro index _
    dsimp only [Function.comp]
    rw [Nat.add_assoc, Nat.add_comm 1 index]

/-- What `buf_rand` returns depends on the second alone. -/
theorem bufRandAt_fst (now size : ℕ) :
    (bufRandAt rand now size).1 = firstBytes rand (seedOf now) size := by
  rw [bufRandAt, drawBytes_fst, firstBytes]
  apply List.map_congr_left
  intro index _
  rw [Nat.zero_add]

theorem length_firstBytes (seed : UInt32) (count : ℕ) :
    (firstBytes rand seed count).length = count := by
  rw [firstBytes, List.length_map, List.length_range]

/-- What a draw takes. -/
def takenFor (rand : Rand) (draw : Purpose × ℕ) : Purpose × Bytes :=
  (draw.1, firstBytes rand (seedOf draw.2) draw.1.size)

theorem randomStep_taken {state next : Randomness} {draw : Purpose × ℕ}
    (hstep : randomStep rand state draw = some next) :
    next.taken = state.taken ++ [takenFor rand draw] := by
  rw [randomStep] at hstep
  split at hstep
  case isFalse => cases hstep
  case isTrue =>
    cases hstep
    rw [takenFor, ← bufRandAt_fst]
    rfl

/-- A run takes what its draws take. -/
theorem run_taken {state final : Randomness} {draws : List (Purpose × ℕ)}
    (hrun : run (randomStep rand) state draws = some final) :
    final.taken = state.taken ++ draws.map (takenFor rand) := by
  induction draws generalizing state with
  | nil =>
    rw [run_nil, Option.some.injEq] at hrun
    rw [hrun, List.map_nil, List.append_nil]
  | cons draw rest ih =>
    rw [run_cons, Option.bind_eq_some_iff] at hrun
    obtain ⟨next, hnext, hrest⟩ := hrun
    rw [ih hrest, randomStep_taken hnext, List.map_cons, List.append_assoc]
    rfl

theorem size_of_isId {purpose : Purpose} (hid : purpose.isId = true) : purpose.size = 8 := by
  cases purpose with
  | other => cases hid
  | _ => rfl

/-- Ids are among the strings of eight bytes. -/
theorem NoRepeats.of_words {draws : List (Purpose × ℕ)}
    (hwords : (((draws.map (takenFor rand)).filter fun draw ↦ draw.1.size = 8).map Prod.snd).Nodup) :
    NoRepeats (draws.map (takenFor rand)) where
  words := hwords
  ids := by
    have hsublist : ((draws.map (takenFor rand)).filter fun draw ↦ draw.1.isId).Sublist
        ((draws.map (takenFor rand)).filter fun draw ↦ draw.1.size = 8) :=
      List.monotone_filter_right _ fun draw hid ↦ decide_eq_true (size_of_isId hid)
    have hlength (bytes : Bytes)
        (hbytes : bytes ∈ ((draws.map (takenFor rand)).filter fun draw ↦ draw.1.isId).map Prod.snd) :
        bytes.length = 8 := by
      obtain ⟨draw, hdraw, rfl⟩ := List.mem_map.mp hbytes
      obtain ⟨hmem, hid⟩ := List.mem_filter.mp hdraw
      obtain ⟨source, -, rfl⟩ := List.mem_map.mp hmem
      exact (length_firstBytes _ _).trans (size_of_isId hid)
    have hnodup := List.Nodup.map_on (fun first hfirst second hsecond heq ↦
        (getUi64_inj (hlength first hfirst) (hlength second hsecond)).mp heq)
      (List.Nodup.sublist (hsublist.map Prod.snd) hwords)
    rw [List.map_map] at hnodup
    exact hnodup

/-- The strings of eight bytes of a run. -/
theorem words_eq (draws : List (Purpose × ℕ)) :
    ((draws.map (takenFor rand)).filter fun draw ↦ draw.1.size = 8).map Prod.snd =
      (wordSeconds draws).map fun now ↦ firstBytes rand (seedOf now) 8 := by
  rw [List.filter_map, List.map_map, wordSeconds, List.map_map]
  apply List.map_congr_left
  intro draw hdraw
  have hsize : draw.1.size = 8 := of_decide_eq_true (List.mem_filter.mp hdraw).2
  change firstBytes rand (seedOf draw.2) draw.1.size = _
  rw [hsize]
  rfl

/-- In every run nothing repeats exactly if any two draws of eight bytes fall into seconds that are
apart. -/
theorem run_noRepeats_iff {state final : Randomness} {draws : List (Purpose × ℕ)}
    (hstart : state.taken = []) (hrun : run (randomStep rand) state draws = some final) :
    NoRepeats final.taken ↔ (wordSeconds draws).Pairwise (Apart rand) := by
  have hapart : (wordSeconds draws).Pairwise (Apart rand) ↔
      ((wordSeconds draws).map fun now ↦ firstBytes rand (seedOf now) 8).Nodup := by
    rw [List.Nodup, List.pairwise_map]
    refine ⟨fun h ↦ h.imp fun hpair ↦ hpair.2, fun h ↦ h.imp fun hpair ↦ ⟨?_, hpair⟩⟩
    exact fun heq ↦ hpair (by rw [heq])
  rw [run_taken hrun, hstart, List.nil_append, hapart, ← words_eq]
  exact ⟨fun h ↦ h.words, NoRepeats.of_words⟩

end Run

/-! ## Two messages in one second, and in two -/

/-- A generator that the C standard gives as an example. -/
def sampleRand : Rand := fun seed drawn ↦
  let next := (fun state : ℕ ↦ (state * 1103515245 + 12345) % 2 ^ 32)^[drawn + 1] seed.toNat
  next / 65536 % 32768

/-- A program that has not drawn anything. -/
def Randomness.start : Randomness := ⟨⟨1, 0⟩, 0, []⟩

/-- What two messages take that are sent in these seconds. -/
def twoSends (first second : ℕ) : List (Purpose × Bytes) :=
  [takenFor sampleRand (.messageRandomId, first), takenFor sampleRand (.messageRandomId, second)]

theorem laterMessage_noRepeats : NoRepeats (twoSends 1700000000 1700000001) := by
  have hrun : run (randomStep sampleRand) .start
      [(.messageRandomId, 1700000000), (.messageRandomId, 1700000001)] =
        some ⟨⟨1700000001, 8⟩, 1700000001, twoSends 1700000000 1700000001⟩ := by decide +kernel
  exact (run_noRepeats_iff rfl hrun).mpr (by decide +kernel)

/-- The second message of a second gets the random id of the first. -/
theorem sameSecond_repeats :
    ∃ final, run (randomStep sampleRand) .start
        [(.messageRandomId, 1700000000), (.messageRandomId, 1700000000)] = some final ∧
      ¬ NoRepeats final.taken := by
  refine ⟨⟨⟨1700000000, 8⟩, 1700000000, twoSends 1700000000 1700000000⟩, by decide +kernel, ?_⟩
  exact fun hnone ↦ absurd hnone.words (by decide +kernel)

end LibTg.Tg
