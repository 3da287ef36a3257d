import Mathlib.Data.List.TakeWhile
import Mathlib.Data.Nat.Digits.Defs

/-!
# Numbers in texts

`printInt` writes a number the way the conversions `%d` and `%ld` do, and `scanInt` reads one the way
`%d` does in `sscanf`. `scanHex` reads a number for `%x`.
-/

namespace LibTg

def isSpace (c : Char) : Bool := c = ' ' ∨ (9 ≤ c.toNat ∧ c.toNat ≤ 13)

/-- The decimal digits of a number. -/
def printNat (value : ℕ) : List Char := Nat.toDigits 10 value

/-- A number with its sign. -/
def printInt (value : ℤ) : List Char :=
  if 0 ≤ value then printNat value.toNat else '-' :: printNat (-value).toNat

/-- The digits at the front of a text, as a number, and what follows them. -/
def scanNat (text : List Char) : Option (ℕ × List Char) :=
  match text.takeWhile Char.isDigit with
  | [] => none
  | digits => some (Nat.ofDigitChars 10 digits 0, text.dropWhile Char.isDigit)

/-- `%d`: white space, a sign and digits. -/
def scanInt (text : List Char) : Option (ℤ × List Char) :=
  match text.dropWhile isSpace with
  | '-' :: rest => (scanNat rest).map fun found ↦ (-found.1, found.2)
  | '+' :: rest => (scanNat rest).map fun found ↦ (found.1, found.2)
  | rest => (scanNat rest).map fun found ↦ (found.1, found.2)

def hexDigit (c : Char) : Option ℕ :=
  if c.isDigit then some (c.toNat - '0'.toNat)
  else if 'a' ≤ c ∧ c ≤ 'f' then some (c.toNat - 'a'.toNat + 10)
  else if 'A' ≤ c ∧ c ≤ 'F' then some (c.toNat - 'A'.toNat + 10)
  else none

/-- The value of a text of hexadecimal digits. -/
def hexValue (text : List Char) : ℕ :=
  text.foldl (fun value c ↦ 16 * value + (hexDigit c).getD 0) 0

/-- A text behind `0x`, if that stands in front of a hexadecimal digit. -/
def skipHexPrefix : List Char → List Char
  | '0' :: x :: rest =>
    if (x = 'x' ∨ x = 'X') ∧ (rest.head?.bind hexDigit).isSome then rest else '0' :: x :: rest
  | text => text

def scanHexDigits (text : List Char) : Option ℕ :=
  match (skipHexPrefix text).takeWhile (hexDigit · |>.isSome) with
  | [] => none
  | digits => some (hexValue digits)

/-- `%x` into an `unsigned`: white space, a sign and digits. -/
def scanHex (text : List Char) : Option UInt32 :=
  match text.dropWhile isSpace with
  | '-' :: rest => (scanHexDigits rest).map fun value ↦ -UInt32.ofNat value
  | '+' :: rest => (scanHexDigits rest).map UInt32.ofNat
  | rest => (scanHexDigits rest).map UInt32.ofNat

/-! ## Printed numbers -/

theorem printNat_ne_nil (value : ℕ) : printNat value ≠ [] := Nat.toDigits_ne_nil

theorem isDigit_of_mem_printNat {value : ℕ} {c : Char} (hmem : c ∈ printNat value) :
    c.isDigit = true :=
  Nat.isDigit_of_mem_toDigits (by decide) (by decide) hmem

/-- Digits, up to something that is none. -/
theorem scanNat_append {digits rest : List Char} (hne : digits ≠ [])
    (hdigits : ∀ c ∈ digits, c.isDigit = true) (hrest : ∀ c ∈ rest.head?, c.isDigit = false) :
    scanNat (digits ++ rest) = some (Nat.ofDigitChars 10 digits 0, rest) := by
  have htake : rest.takeWhile Char.isDigit = [] := by
    cases rest with
    | nil => rfl
    | cons c rest => rw [List.takeWhile_cons, hrest c rfl, if_neg Bool.false_ne_true]
  have hdrop : rest.dropWhile Char.isDigit = rest := by
    cases rest with
    | nil => rfl
    | cons c rest => rw [List.dropWhile_cons, hrest c rfl, if_neg Bool.false_ne_true]
  rw [scanNat, List.takeWhile_append_of_pos hdigits, List.dropWhile_append_of_pos hdigits, htake,
    hdrop, List.append_nil]
  cases digits with
  | nil => exact absurd rfl hne
  | cons digit others => rfl

/-- A printed number is read back where no other digit follows. -/
theorem scanNat_printNat (value : ℕ) {rest : List Char}
    (hrest : ∀ c ∈ rest.head?, c.isDigit = false) :
    scanNat (printNat value ++ rest) = some (value, rest) := by
  rw [scanNat_append (printNat_ne_nil value) (fun _ ↦ isDigit_of_mem_printNat) hrest]
  exact congrArg (fun number ↦ some (number, rest)) Nat.ofDigitChars_ten_toDigits

theorem toNat_of_isDigit {c : Char} (hdigit : c.isDigit = true) :
    48 ≤ c.toNat ∧ c.toNat ≤ 57 := by
  simpa [Char.isDigit, UInt32.le_iff_toNat_le] using hdigit

/-- A digit is no white space and no sign. -/
theorem ne_of_isDigit {c : Char} (hdigit : c.isDigit = true) :
    isSpace c = false ∧ c ≠ '-' ∧ c ≠ '+' := by
  have hrange := toNat_of_isDigit hdigit
  refine ⟨?_, ?_, ?_⟩
  · simp only [isSpace, decide_eq_false_iff_not, not_or, not_and, not_le]
    refine ⟨?_, fun _ ↦ by omega⟩
    rintro rfl
    exact absurd hrange.1 (by decide)
  · rintro rfl
    exact absurd hrange.1 (by decide)
  · rintro rfl
    exact absurd hrange.1 (by decide)

/-- Without white space and a sign in front, `%d` is about digits alone. -/
theorem scanInt_of_digit {text : List Char} (hdigit : ∀ c ∈ text.head?, c.isDigit = true) :
    scanInt text = (scanNat text).map fun found ↦ (↑found.1, found.2) := by
  cases text with
  | nil => rfl
  | cons c rest =>
    obtain ⟨hspace, hminus, hplus⟩ := ne_of_isDigit (hdigit c rfl)
    rw [scanInt, List.dropWhile_cons, hspace, if_neg Bool.false_ne_true]
    split
    case h_1 heq => exact absurd (List.cons.inj heq).1 hminus
    case h_2 heq => exact absurd (List.cons.inj heq).1 hplus
    case h_3 => rfl

theorem scanInt_printNat (value : ℕ) {rest : List Char}
    (hrest : ∀ c ∈ rest.head?, c.isDigit = false) :
    scanInt (printNat value ++ rest) = some (↑value, rest) := by
  have hdigit : ∀ c ∈ (printNat value ++ rest).head?, c.isDigit = true := by
    intro c hmem
    cases hprint : printNat value with
    | nil => exact absurd hprint (printNat_ne_nil value)
    | cons digit others =>
      rw [hprint, List.cons_append, List.head?_cons, Option.mem_some_iff] at hmem
      exact isDigit_of_mem_printNat (hmem ▸ hprint ▸ List.mem_cons_self)
  rw [scanInt_of_digit hdigit, scanNat_printNat value hrest, Option.map_some]

/-- A printed integer is read back. -/
theorem scanInt_printInt (value : ℤ) : scanInt (printInt value) = some (value, []) := by
  have hend : ∀ c ∈ ([] : List Char).head?, c.isDigit = false := by simp
  unfold printInt
  split
  case isTrue hvalue =>
    have hscan := scanInt_printNat value.toNat hend
    rw [List.append_nil] at hscan
    rw [hscan, Int.toNat_of_nonneg hvalue]
  case isFalse hvalue =>
    have hscan := scanNat_printNat (-value).toNat hend
    rw [List.append_nil] at hscan
    have hminus : isSpace '-' = false := by decide
    rw [scanInt, List.dropWhile_cons, hminus, if_neg Bool.false_ne_true]
    simp only [hscan, Option.map_some]
    rw [Int.toNat_of_nonneg (by omega), neg_neg]

theorem printNat_injective : Function.Injective printNat := by
  intro first second h
  calc first = Nat.ofDigitChars 10 (printNat first) 0 := Nat.ofDigitChars_ten_toDigits.symm
    _ = Nat.ofDigitChars 10 (printNat second) 0 := by rw [h]
    _ = second := Nat.ofDigitChars_ten_toDigits

/-- A printed integer is made of digits and a sign. -/
theorem isDigit_or_eq_of_mem_printInt {value : ℤ} {c : Char} (hmem : c ∈ printInt value) :
    c.isDigit = true ∨ c = '-' := by
  unfold printInt at hmem
  split at hmem
  · exact .inl (isDigit_of_mem_printNat hmem)
  · rcases List.mem_cons.mp hmem with h | h
    · exact .inr h
    · exact .inl (isDigit_of_mem_printNat h)

theorem printInt_injective : Function.Injective printInt := by
  have hminus (value : ℕ) (rest : List Char) : printNat value ≠ '-' :: rest := by
    intro h
    have hmem : '-' ∈ printNat value := h ▸ List.mem_cons_self
    exact absurd (isDigit_of_mem_printNat hmem) (by decide)
  intro first second h
  unfold printInt at h
  split at h <;> split at h
  · have hvalue := printNat_injective h
    omega
  · exact absurd h (hminus _ _)
  · exact absurd h.symm (hminus _ _)
  · have hvalue := printNat_injective (List.cons.inj h).2
    omega

/-- Printed integers with something behind them that no integer holds. -/
theorem printInt_append_inj {first second : ℤ} {c : Char} (hc : c.isDigit = false ∧ c ≠ '-')
    {firstRest secondRest : List Char}
    (h : printInt first ++ c :: firstRest = printInt second ++ c :: secondRest) :
    first = second ∧ firstRest = secondRest := by
  have hfree (value : ℤ) : ∀ d ∈ printInt value, (d != c) = true := by
    intro d hd
    rw [bne_iff_ne]
    rintro rfl
    rcases isDigit_or_eq_of_mem_printInt hd with hdigit | hminus
    · rw [hc.1] at hdigit
      cases hdigit
    · exact hc.2 hminus
  have htake (value : ℤ) (rest : List Char) :
      (printInt value ++ c :: rest).takeWhile (· != c) = printInt value := by
    rw [List.takeWhile_append_of_pos (hfree value), List.takeWhile_cons, bne_self_eq_false,
      if_neg Bool.false_ne_true, List.append_nil]
  have hfirst : printInt first = printInt second := by
    rw [← htake first firstRest, h, htake]
  refine ⟨printInt_injective hfirst, ?_⟩
  rw [hfirst, List.append_cancel_left_eq, List.cons.injEq] at h
  exact h.2

/-! ## Hexadecimal texts -/

/-- A hexadecimal digit is no white space, no sign and no `x`. -/
theorem ne_of_hexDigit {c : Char} (hdigit : (hexDigit c).isSome = true) :
    isSpace c = false ∧ c ≠ '-' ∧ c ≠ '+' ∧ c ≠ 'x' ∧ c ≠ 'X' := by
  have hlarge : 48 ≤ c.toNat := by
    unfold hexDigit at hdigit
    split_ifs at hdigit with hdecimal hlower hupper
    · exact (toNat_of_isDigit hdecimal).1
    · have h : 'a'.toNat ≤ c.toNat := UInt32.le_iff_toNat_le.mp hlower.1
      exact le_trans (by decide) h
    · have h : 'A'.toNat ≤ c.toNat := UInt32.le_iff_toNat_le.mp hupper.1
      exact le_trans (by decide) h
    · exact absurd hdigit (by decide)
  have hspace : isSpace c = false := by
    simp only [isSpace, decide_eq_false_iff_not, not_or, not_and, not_le]
    refine ⟨?_, fun _ ↦ by omega⟩
    rintro rfl
    exact absurd hlarge (by decide)
  refine ⟨hspace, ?_, ?_, ?_, ?_⟩ <;> rintro rfl <;> exact absurd hdigit (by decide)

theorem skipHexPrefix_of_hex {text : List Char} (hhex : ∀ c ∈ text, (hexDigit c).isSome = true) :
    skipHexPrefix text = text := by
  unfold skipHexPrefix
  split
  case h_1 x rest =>
    obtain ⟨-, -, -, hx, hX⟩ := ne_of_hexDigit (hhex x (by simp))
    rw [if_neg]
    rintro ⟨hfront | hfront, -⟩
    · exact hx hfront
    · exact hX hfront
  case h_2 => rfl

theorem scanHexDigits_of_hex {text : List Char} (hne : text ≠ [])
    (hhex : ∀ c ∈ text, (hexDigit c).isSome = true) :
    scanHexDigits text = some (hexValue text) := by
  rw [scanHexDigits, skipHexPrefix_of_hex hhex, List.takeWhile_eq_self_iff.mpr hhex]
  cases text with
  | nil => exact absurd rfl hne
  | cons c rest => rfl

/-- A text of hexadecimal digits is read as a whole. -/
theorem scanHex_of_hex {text : List Char} (hne : text ≠ [])
    (hhex : ∀ c ∈ text, (hexDigit c).isSome = true) :
    scanHex text = some (UInt32.ofNat (hexValue text)) := by
  cases text with
  | nil => exact absurd rfl hne
  | cons c rest =>
    obtain ⟨hspace, hminus, hplus, -, -⟩ := ne_of_hexDigit (hhex c List.mem_cons_self)
    rw [scanHex, List.dropWhile_cons, hspace, if_neg Bool.false_ne_true]
    split
    case h_1 heq => exact absurd (List.cons.inj heq).1 hminus
    case h_2 heq => exact absurd (List.cons.inj heq).1 hplus
    case h_3 => rw [scanHexDigits_of_hex hne hhex, Option.map_some]

end LibTg
