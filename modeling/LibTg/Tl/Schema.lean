import LibTg.Data.LittleEndian

/-!
# Constructor descriptions (`tl_generator/tl_parser.h`)

The generators of `generator.c` read a constructor from a `struct method_t`. Argument types are
strings, and both generators find out what an argument is by comparing these strings and by looking
for `ector<` in them. An argument whose type is `NULL` comes from a `#` in the schema; it is a flags
word when its name contains `flags`.
-/

namespace LibTg.Tl

/-- `strstr`: the rest of the string from the first occurrence of `pattern` on. -/
def strstr (pattern : List Char) : List Char → Option (List Char)
  | [] => if pattern = [] then some [] else none
  | c :: rest => if pattern.isPrefixOf (c :: rest) then some (c :: rest) else strstr pattern rest

/-- The element type between `ector<` and the next `>`, for a type that contains `ector<`. -/
def vectorElem (type : String) : Option String :=
  (strstr "ector<".toList type.toList).map fun p ↦
    String.ofList ((p.drop "ector<".length).takeWhile (· ≠ '>'))

/-- One entry of `method_t.args`. -/
structure Arg where
  name : String
  type : Option String
  flagn : ℕ
  flagb : ℕ
  deriving DecidableEq, Repr

/-- A flags word, `flags:#` or `flagsK:#` in the schema. -/
def Arg.isFlags (arg : Arg) : Bool :=
  arg.type.isNone && (strstr "flags".toList arg.name.toList).isSome

/-- A `struct method_t`, with the `isMtproto` setting of the generator while it reads the schema
file of this constructor. -/
structure Method where
  name : String
  id : UInt32
  args : List Arg
  isMtproto : Bool
  deriving DecidableEq, Repr

/-- `id_vector`, which is also the constructor that `tl_vector()` writes. -/
def idVector : UInt32 := 0x1cb5c415

/-- The bit that an argument with `flagb = bit` has in its flags word. -/
def flagBit (bit : ℕ) : UInt32 := 1 <<< UInt32.ofNat bit

/-- Every argument under a flag comes after the flags word it names, counting from `seen`. -/
def Scoped : ℕ → List Arg → Prop
  | _, [] => True
  | seen, arg :: rest =>
    arg.flagn ≤ seen ∧ arg.flagb < 32 ∧ Scoped (if arg.isFlags then seen + 1 else seen) rest

instance decidableScoped : (seen : ℕ) → (args : List Arg) → Decidable (Scoped seen args)
  | _, [] => isTrue trivial
  | seen, arg :: rest =>
    have : Decidable (Scoped (if arg.isFlags then seen + 1 else seen) rest) :=
      decidableScoped _ rest
    inferInstanceAs (Decidable (_ ∧ _ ∧ _))

theorem flagBit_testBit (bit index : ℕ) (hbit : bit < 32) :
    (flagBit bit).toNat.testBit index = decide (bit = index) := by
  have hshift : (UInt32.ofNat bit).toNat % 32 = bit := by
    rw [UInt32.toNat_ofNat']
    omega
  have hvalue : (flagBit bit).toNat = 2 ^ bit := by
    rw [flagBit, UInt32.toNat_shiftLeft, hshift, UInt32.toNat_one, Nat.one_shiftLeft]
    exact Nat.mod_eq_of_lt (Nat.pow_lt_pow_right (by decide) hbit)
  rw [hvalue, Nat.testBit_two_pow]

end LibTg.Tl
