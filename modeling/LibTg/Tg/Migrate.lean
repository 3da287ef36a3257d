import LibTg.Tg.Dispatch
import Mathlib.Data.List.ReduceOption

/-!
# Migrating to another data centre (`tg/errors.c`, `tg/dc.h`, `tg/queue.c`)

An error of the server may name the data centre that a request should go to. The number is taken as an
index into the table of data centres, whose last entries are test centres with numbers of their own.
`migrate_to_dc` then looks up an address in the configuration, and makes it the address of the client
unless only a file is elsewhere.
-/

namespace LibTg.Tg

open LibTg.Tl

/-- A `dc_t`, as far as it is read. -/
structure Dc where
  number : ℤ
  ipv4 : List Char
  deriving DecidableEq

/-- `DCs`. The first entry is `DCNULL`. -/
def dcs : List Dc :=
  [⟨0, "0".toList⟩, ⟨1, "149.154.175.53".toList⟩, ⟨2, "149.154.167.51".toList⟩,
    ⟨3, "149.154.175.100".toList⟩, ⟨4, "149.154.167.91".toList⟩, ⟨5, "91.108.56.130".toList⟩,
    ⟨10001, "149.154.175.10".toList⟩, ⟨10002, "149.154.167.40".toList⟩,
    ⟨10003, "149.154.175.117".toList⟩]

/-- `&DCs[n]`. A pointer to no entry has no meaning. -/
def dcAt (n : ℤ) : Option Dc := if 0 ≤ n then dcs[n.toNat]? else none

/-- What the four functions share, for the marker that they look for. Inside, `none` is `NULL`. -/
def migrateTarget (pattern : String) (error : Option (List Char)) : Option (Option Dc) :=
  match error with
  | none => some none
  | some error =>
    let n := tgErrorGetNum error pattern
    if n ≠ 0 then (dcAt n).map some else some none

def tgErrorMigrate (error : Option (List Char)) : Option (Option Dc) :=
  migrateTarget "MIGRATE_" error

def tgErrorPhoneMigrate (error : Option (List Char)) : Option (Option Dc) :=
  migrateTarget "PHONE_MIGRATE_" error

def tgErrorUserMigrate (error : Option (List Char)) : Option (Option Dc) :=
  migrateTarget "USER_MIGRATE_" error

def tgErrorFileMigrate (error : Option (List Char)) : Option (Option Dc) :=
  migrateTarget "FILE_MIGRATE_" error

/-- A `dcOption`, as far as it is read. -/
structure DcOption where
  id : UInt32
  ipAddress : Bytes

/-- `tg->config`, which may be `NULL`, with its `dc_options_`. -/
abbrev Config := Option (List (Option DcOption))

/-- The loop of `tg_ip_address_for_dc`. -/
def findOption (dc : ℤ) : List (Option DcOption) → Option DcOption
  | [] => none
  | none :: rest => findOption dc rest
  | some option :: rest => if option.id = UInt32.ofInt dc then some option else findOption dc rest

def tgIpAddressForDc (config : Config) (dc : ℤ) : Option (List Char) :=
  config.bind fun options ↦ (findOption dc options).map fun option ↦ cString option.ipAddress

/-- `sizeof(tg->ip)`. -/
def ipSize : ℕ := 16

/-- What `tg_set_server_address` leaves in `tg->ip`, whose last byte stays zero. -/
def tgSetServerAddress (ip : List Char) : List Char := ip.take (ipSize - 1)

/-- What `migrate_to_dc` leaves: `tg->ip`, the address that goes into the database, and the one of the
new queue. -/
structure Migration where
  ip : List Char
  saved : Option (List Char)
  queueIp : List Char
  deriving DecidableEq

/-- `migrate_to_dc` for an `rpc_error` with this text. -/
def migrateToDc (config : Config) (ip : List Char) (dc : Dc) (error : List Char) :
    Option Migration := do
  let address := (tgIpAddressForDc config dc.number).getD dc.ipv4
  let file ← tgErrorFileMigrate (some error)
  if file = none then some ⟨tgSetServerAddress address, some address, address⟩
  else some ⟨ip, none, address⟩

/-! ## The promise -/

/-- The function for a marker returns `NULL`, or a data centre with the number behind the marker. -/
def TargetKnown (pattern : String) (error : Option (List Char)) : Prop :=
  ∃ target, migrateTarget pattern error = some target ∧
    ∀ dc ∈ target, dc ∈ dcs ∧ ∀ text ∈ error, dc.number = tgErrorGetNum text pattern

/-- The markers of the four functions. -/
def migratePatterns : List String :=
  ["MIGRATE_", "PHONE_MIGRATE_", "USER_MIGRATE_", "FILE_MIGRATE_"]

/-- The marker in an error is `FILE_MIGRATE_`. -/
def IsFileMigrate (error : List Char) : Prop :=
  ∃ before rest, error = before ++ ("FILE_".toList ++ ("MIGRATE_".toList ++ rest)) ∧
    strstr "MIGRATE_".toList error = some ("MIGRATE_".toList ++ rest)

/-- The addresses of a data centre: the one in the table and those in the configuration. -/
def Dc.addresses (dc : Dc) (config : Config) : List (List Char) :=
  dc.ipv4 :: ((config.getD []).reduceOption.filter fun option ↦
    option.id = UInt32.ofInt dc.number).map fun option ↦ cString option.ipAddress

/-- `migrate_to_dc` changes `tg->ip` for no file, and only to an address of the data centre. -/
def AddressKept (config : Config) (ip : List Char) (error : List Char) : Prop :=
  ∀ dc, tgErrorMigrate (some error) = some (some dc) →
    ∃ after, migrateToDc config ip dc error = some after ∧
      (after.ip ≠ ip → ¬ IsFileMigrate error ∧ after.ip ∈ dc.addresses config)

/-- Every function finds a data centre that exists, and the client goes to one of its addresses. -/
def MigrationSafe (config : Config) (ip : List Char) (error : Option (List Char)) : Prop :=
  (∀ pattern ∈ migratePatterns, TargetKnown pattern error) ∧
    ∀ text ∈ error, AddressKept config ip text

/-- The numbers behind the markers are those of data centres in use, or there is none. If the client
is to move, then the address that the configuration has for the centre is not cut to something else. -/
structure NumbersFit (config : Config) (ip : List Char) (text : List Char) : Prop where
  numbers : ∀ pattern ∈ migratePatterns,
    0 ≤ tgErrorGetNum text pattern ∧ tgErrorGetNum text pattern ≤ 5
  address : tgErrorGetNum text "FILE_MIGRATE_" = 0 → ∀ dc ∈ dcs,
    dc.number = tgErrorGetNum text "MIGRATE_" → dc.number ≠ 0 →
      ∀ address ∈ tgIpAddressForDc config dc.number,
        address.take (ipSize - 1) = ip ∨ address.take (ipSize - 1) ∈ dc.addresses config

/-! ## Markers -/

/-- The first occurrence is the longest rest that begins with the pattern. -/
theorem length_le_of_strstr {pattern text found : List Char}
    (hfound : strstr pattern text = some found) {before rest : List Char}
    (htext : text = before ++ (pattern ++ rest)) : (pattern ++ rest).length ≤ found.length := by
  induction text generalizing before with
  | nil =>
    obtain ⟨-, hnil⟩ := List.append_eq_nil_iff.mp htext.symm
    rw [hnil]
    exact Nat.zero_le _
  | cons c tail ih =>
    rw [strstr] at hfound
    split at hfound
    case isTrue =>
      cases hfound
      calc (pattern ++ rest).length
        _ ≤ before.length + (pattern ++ rest).length := Nat.le_add_left _ _
        _ = (before ++ (pattern ++ rest)).length := List.length_append.symm
        _ = (c :: tail).length := congrArg List.length htext.symm
    case isFalse hnot =>
      cases before with
      | nil =>
        have hprefix : pattern <+: c :: tail := ⟨rest, htext.symm⟩
        exact absurd (List.isPrefixOf_iff_prefix.mpr hprefix) hnot
      | cons _ before => exact ih hfound (List.cons.inj htext).2

/-- If the first occurrence of a pattern stands behind `front`, it ends the first occurrence of both. -/
theorem strstr_front {front pattern text before rest : List Char} (hpattern : pattern ≠ [])
    (htext : text = before ++ (front ++ (pattern ++ rest)))
    (hfound : strstr pattern text = some (pattern ++ rest)) :
    strstr (front ++ pattern) text = some (front ++ (pattern ++ rest)) := by
  induction text generalizing before with
  | nil =>
    obtain ⟨-, hnil⟩ := List.append_eq_nil_iff.mp htext.symm
    obtain ⟨-, hnil⟩ := List.append_eq_nil_iff.mp hnil
    exact absurd (List.append_eq_nil_iff.mp hnil).1 hpattern
  | cons c tail ih =>
    rw [strstr]
    cases before with
    | nil =>
      have hprefix : front ++ pattern <+: c :: tail := ⟨rest, by rw [htext, List.append_assoc]; rfl⟩
      rw [if_pos (List.isPrefixOf_iff_prefix.mpr hprefix), htext]
      rfl
    | cons _ before =>
      have hlength := congrArg List.length htext
      have hnot : ¬ (front ++ pattern).isPrefixOf (c :: tail) = true := by
        intro hprefix
        obtain ⟨more, hmore⟩ := List.isPrefixOf_iff_prefix.mp hprefix
        have hle := length_le_of_strstr hfound
          (show c :: tail = front ++ (pattern ++ more) by rw [← hmore, List.append_assoc])
        have hsame := congrArg List.length hmore
        simp only [List.length_append, List.length_cons] at hlength hle hsame
        omega
      have htail : strstr pattern tail = some (pattern ++ rest) := by
        rw [strstr] at hfound
        split at hfound
        case isTrue =>
          have hsame := congrArg List.length (Option.some.inj hfound)
          simp only [List.length_append, List.length_cons] at hlength hsame
          omega
        case isFalse => exact hfound
      rw [if_neg hnot]
      exact ih (List.cons.inj htext).2 htail

/-- Behind `FILE_MIGRATE_` and behind its second part stands the same number. -/
theorem IsFileMigrate.getNum {text : List Char} (hfile : IsFileMigrate text) :
    tgErrorGetNum text "FILE_MIGRATE_" = tgErrorGetNum text "MIGRATE_" := by
  obtain ⟨before, rest, htext, hfound⟩ := hfile
  have hboth := strstr_front (by decide) htext hfound
  have hmarker : "FILE_MIGRATE_".toList = "FILE_".toList ++ "MIGRATE_".toList := by decide
  rw [tgErrorGetNum, tgErrorGetNum, hmarker, hboth, hfound]
  rfl

/-! ## The table -/

theorem dcAt_mem {n : ℤ} {dc : Dc} (hdc : dcAt n = some dc) : dc ∈ dcs := by
  rw [dcAt] at hdc
  split at hdc
  case isTrue => exact List.mem_of_getElem? hdc
  case isFalse => cases hdc

/-- Only the first entries have their index as their number. -/
theorem exists_dcAt_iff (n : ℤ) : (∃ dc, dcAt n = some dc ∧ dc.number = n) ↔ 0 ≤ n ∧ n ≤ 5 := by
  have htable : ∀ index : ℕ, index < 9 → ((dcs[index]?).any fun dc ↦ dc.number = (index : ℤ)) =
      decide (index ≤ 5) := by decide
  constructor
  · rintro ⟨dc, hdc, hnumber⟩
    rw [dcAt] at hdc
    split at hdc
    case isFalse => cases hdc
    case isTrue hn =>
      have hlt : n.toNat < 9 := (List.getElem?_eq_some_iff.mp hdc).1
      have hentry := htable n.toNat hlt
      rw [hdc, Option.any_some, decide_eq_decide, hnumber] at hentry
      exact ⟨hn, by omega⟩
  · rintro ⟨hn, hle⟩
    have hentry := htable n.toNat (by omega)
    rw [decide_eq_true (by omega), Option.any_eq_true] at hentry
    obtain ⟨dc, hdc, hnumber⟩ := hentry
    refine ⟨dc, by rw [dcAt, if_pos hn, hdc], ?_⟩
    rw [of_decide_eq_true hnumber, Int.toNat_of_nonneg hn]

theorem dcAt_number : ∀ dc ∈ dcs, dc.number ≤ 5 → dcAt dc.number = some dc := by decide

theorem take_ipv4 : ∀ dc ∈ dcs, dc.ipv4.take (ipSize - 1) = dc.ipv4 := by decide

/-! ## When the client goes to the right place -/

section Migration

variable {config : Config} {ip text : List Char}

/-- A function finds a data centre with the number behind its marker exactly if this is one in use. -/
theorem targetKnown_iff (pattern : String) :
    TargetKnown pattern (some text) ↔
      0 ≤ tgErrorGetNum text pattern ∧ tgErrorGetNum text pattern ≤ 5 := by
  rw [TargetKnown, migrateTarget]
  by_cases hzero : tgErrorGetNum text pattern ≠ 0
  · rw [if_pos hzero, ← exists_dcAt_iff]
    constructor
    · rintro ⟨target, htarget, hknown⟩
      obtain ⟨dc, hdc, rfl⟩ := Option.map_eq_some_iff.mp htarget
      exact ⟨dc, hdc, (hknown dc rfl).2 text rfl⟩
    · rintro ⟨dc, hdc, hnumber⟩
      refine ⟨some dc, by rw [hdc]; rfl, fun found hfound ↦ ?_⟩
      cases hfound
      refine ⟨dcAt_mem hdc, fun other hother ↦ ?_⟩
      cases hother
      exact hnumber
  · rw [if_neg hzero]
    have hnum : tgErrorGetNum text pattern = 0 := not_not.mp hzero
    rw [hnum]
    exact iff_of_true ⟨none, rfl, nofun⟩ ⟨le_rfl, by omega⟩

/-- What a function returns for a number in use. -/
theorem migrateTarget_eq {pattern : String} {dc : Dc} (hdc : dc ∈ dcs) (hle : dc.number ≤ 5)
    (hnumber : dc.number = tgErrorGetNum text pattern) (hzero : dc.number ≠ 0) :
    migrateTarget pattern (some text) = some (some dc) := by
  rw [migrateTarget, ← hnumber, if_pos hzero, dcAt_number dc hdc hle]
  rfl

/-- What `migrate_to_dc` leaves if the number behind `FILE_MIGRATE_` is one in use, or there is none. -/
theorem migrateToDc_eq (hknown : TargetKnown "FILE_MIGRATE_" (some text)) (dc : Dc) :
    migrateToDc config ip dc text =
      let address := (tgIpAddressForDc config dc.number).getD dc.ipv4
      if tgErrorGetNum text "FILE_MIGRATE_" = 0 then
        some ⟨tgSetServerAddress address, some address, address⟩
      else some ⟨ip, none, address⟩ := by
  obtain ⟨target, htarget, hdc⟩ := hknown
  have hnone : target = none ↔ tgErrorGetNum text "FILE_MIGRATE_" = 0 := by
    rw [migrateTarget] at htarget
    split at htarget
    case isTrue hne =>
      obtain ⟨found, -, rfl⟩ := Option.map_eq_some_iff.mp htarget
      exact iff_of_false nofun hne
    case isFalse heq =>
      cases htarget
      exact iff_of_true rfl (not_not.mp heq)
  rw [migrateToDc, tgErrorFileMigrate, htarget, Option.bind_eq_bind, Option.bind_some]
  by_cases hzero : tgErrorGetNum text "FILE_MIGRATE_" = 0
  · rw [if_pos (hnone.mpr hzero), if_pos hzero]
  · rw [if_neg fun h ↦ hzero (hnone.mp h), if_neg hzero]

/-- Every error of the server is followed to the right place exactly if its numbers are those of data
centres in use, and no address is cut to something else. -/
theorem migrationSafe_iff (config : Config) (ip : List Char) (error : Option (List Char)) :
    MigrationSafe config ip error ↔ ∀ text ∈ error, NumbersFit config ip text := by
  cases error with
  | none => exact iff_of_true ⟨fun _ _ ↦ ⟨none, rfl, nofun⟩, nofun⟩ nofun
  | some text =>
    simp only [MigrationSafe, Option.mem_some_iff, forall_eq', targetKnown_iff]
    constructor
    · rintro ⟨hnumbers, hkept⟩
      refine ⟨hnumbers, fun hfile dc hdc hnumber hzero address haddress ↦ ?_⟩
      have hmarker := hnumbers "MIGRATE_" (by decide)
      have hknown := (targetKnown_iff "FILE_MIGRATE_").mpr (hnumbers "FILE_MIGRATE_" (by decide))
      obtain ⟨after, hafter, hchange⟩ :=
        hkept dc (migrateTarget_eq hdc (hnumber ▸ hmarker.2) hnumber hzero)
      rw [migrateToDc_eq hknown, if_pos hfile, haddress] at hafter
      cases hafter
      by_cases hsame : address.take (ipSize - 1) = ip
      · exact .inl hsame
      · exact .inr (hchange hsame).2
    · rintro ⟨hnumbers, haddresses⟩
      refine ⟨hnumbers, fun dc hdc ↦ ?_⟩
      have hknown := (targetKnown_iff "FILE_MIGRATE_").mpr (hnumbers "FILE_MIGRATE_" (by decide))
      obtain ⟨target, htarget, hmarker⟩ :=
        (targetKnown_iff "MIGRATE_").mpr (hnumbers "MIGRATE_" (by decide))
      have hsame : target = some dc := Option.some.inj (htarget.symm.trans hdc)
      obtain ⟨hmem, hnumber⟩ := hmarker dc hsame
      have hnumber := hnumber text rfl
      have hzero : dc.number ≠ 0 := by
        intro heq
        rw [tgErrorMigrate, migrateTarget, ← hnumber, if_neg (not_not.mpr heq)] at hdc
        cases hdc
      rw [migrateToDc_eq hknown]
      by_cases hfile : tgErrorGetNum text "FILE_MIGRATE_" = 0
      · rw [if_pos hfile]
        refine ⟨_, rfl, fun hchange ↦ ⟨fun his ↦ hzero ?_, ?_⟩⟩
        · rw [hnumber, ← his.getNum, hfile]
        · rw [tgSetServerAddress] at hchange ⊢
          cases haddress : tgIpAddressForDc config dc.number with
          | none =>
            rw [Option.getD_none, take_ipv4 dc hmem]
            exact List.mem_cons_self
          | some address =>
            rw [haddress, Option.getD_some] at hchange
            rw [Option.getD_some]
            exact (haddresses hfile dc hmem hnumber hzero address haddress).resolve_left hchange
      · rw [if_neg hfile]
        exact ⟨_, rfl, fun hchange ↦ absurd rfl hchange⟩

end Migration

/-- The sixth entry is a test centre with the number 10001. -/
theorem migrate6_not_safe :
    ¬ MigrationSafe none "149.154.167.51".toList (some "PHONE_MIGRATE_6".toList) := by
  rw [migrationSafe_iff]
  intro hfit
  have hle := ((hfit _ rfl).numbers "MIGRATE_" (by decide)).2
  exact absurd hle (by decide +kernel)

end LibTg.Tg
