import LibTg.Data.SecureHash

/-!
# Deriving a key from a password

`tg_pbkdf2_sha512` calls the cryptographic library's PBKDF2 or, on systems whose library has none,
runs the iteration itself on the library's HMAC. The loop is the standard's derivation of a key as
long as one digest. The number of iterations is an `int`, so it stays below `2 ^ 31` in the source.
The library's HMAC gives a digest here; the source looks for a null pointer in the loop and then
returns what it has so far.
-/

namespace LibTg.Crypto

/-! ## The standard -/

/-- The chain of pseudorandom values of one block of the key. -/
def pbkdf2Chain (prf : Bytes → Bytes → Bytes) (password first : Bytes) : ℕ → Bytes
  | 0 => prf password first
  | index + 1 => prf password (pbkdf2Chain prf password first index)

/-- A block of the key: place by place the exclusive or of the whole chain. -/
def pbkdf2Block (prf : Bytes → Bytes → Bytes) (size : ℕ) (password first : Bytes) (count : ℕ) :
    Bytes :=
  (List.range size).map fun place ↦
    ((List.range count).map fun index ↦
      (pbkdf2Chain prf password first index).getD place 0).foldl (· ^^^ ·) 0

/-- A key of `length` bytes: blocks whose salts are numbered from one on, cut to the length. -/
def pbkdf2 (prf : Bytes → Bytes → Bytes) (size : ℕ) (password salt : Bytes) (count length : ℕ) :
    Bytes :=
  ((List.range ((length + size - 1) / size)).flatMap fun block ↦
    pbkdf2Block prf size password (salt ++ beBytes 4 (block + 1)) count).take length

/-! ## The function of the source -/

/-- `EVP_MD_size (EVP_sha512 ())`. -/
def hashSize : ℕ := 64

/-- One pass of the loop over the output and the last value of the chain. -/
def pbkdf2Pass (hmac : Bytes → Bytes → Bytes) (password : Bytes) (state : Bytes × Bytes) :
    Bytes × Bytes :=
  let buf := hmac password state.2
  ((List.range hashSize).map fun i ↦ state.1.getD i 0 ^^^ buf.getD i 0, buf)

def tgPbkdf2Sha512 (hmac : Bytes → Bytes → Bytes) (password salt : Bytes) (iterationCount : ℕ) :
    Bytes :=
  let dest := hmac password (salt ++ [0, 0, 0, 1])
  if 1 < iterationCount then
    (loop (fun _ ↦ pbkdf2Pass hmac password) (iterationCount - 1) (dest, dest)).1
  else dest

/-! ## The derived key -/

theorem pbkdf2Block_succ (prf : Bytes → Bytes → Bytes) (size : ℕ) (password first : Bytes)
    (count : ℕ) :
    pbkdf2Block prf size password first (count + 1) =
      (List.range size).map fun place ↦
        (pbkdf2Block prf size password first count).getD place 0 ^^^
          (pbkdf2Chain prf password first count).getD place 0 := by
  apply List.ext_getElem
  · simp only [pbkdf2Block, List.length_map, List.length_range]
  · intro place hplace _
    have hin : place < (pbkdf2Block prf size password first count).length := by
      simpa only [pbkdf2Block, List.length_map, List.length_range] using hplace
    rw [List.getElem_map, List.getElem_range, List.getD_eq_getElem _ _ hin]
    simp only [pbkdf2Block, List.getElem_map, List.getElem_range, List.range_succ, List.map_append,
      List.foldl_append, List.map_cons, List.map_nil, List.foldl_cons, List.foldl_nil]

/-- A chain of one value is a block by itself. -/
theorem pbkdf2Block_one {prf : Bytes → Bytes → Bytes} {size : ℕ} {password first : Bytes}
    (hsize : (prf password first).length = size) :
    pbkdf2Block prf size password first 1 = prf password first := by
  apply List.ext_getElem
  · rw [hsize, pbkdf2Block, List.length_map, List.length_range]
  · intro place _ hplace
    have hchain : pbkdf2Chain prf password first 0 = prf password first := rfl
    simp only [pbkdf2Block, List.getElem_map, List.getElem_range, List.range_one, List.map_cons,
      List.map_nil, List.foldl_cons, List.foldl_nil, hchain, List.getD_eq_getElem _ _ hplace,
      UInt8.zero_xor]

/-- The loop's output and its last value, pass by pass. -/
theorem loop_pbkdf2Pass {hmac : Bytes → Bytes → Bytes} {password first : Bytes}
    (hsize : (hmac password first).length = hashSize) (count : ℕ) :
    loop (fun _ ↦ pbkdf2Pass hmac password) count (hmac password first, hmac password first) =
      (pbkdf2Block hmac hashSize password first (count + 1),
        pbkdf2Chain hmac password first count) := by
  refine loop_invariant (fun index state ↦ state =
    (pbkdf2Block hmac hashSize password first (index + 1), pbkdf2Chain hmac password first index))
    ?_ ?_
  · rw [pbkdf2Block_one hsize]
    rfl
  · rintro index state - rfl
    rw [pbkdf2Pass, pbkdf2Block_succ _ _ _ _ (index + 1)]
    rfl

/-- The iteration derives the standard's key of one digest's length, for any number of iterations
that the assertion lets pass. -/
theorem tgPbkdf2Sha512_eq {hmac : Bytes → Bytes → Bytes} {password salt : Bytes}
    {iterationCount : ℕ} (hcount : 0 < iterationCount)
    (hsize : ∀ message, (hmac password message).length = hashSize) :
    tgPbkdf2Sha512 hmac password salt iterationCount =
      pbkdf2 hmac hashSize password salt iterationCount hashSize := by
  obtain ⟨count, rfl⟩ := Nat.exists_eq_succ_of_ne_zero hcount.ne'
  have hnumber : beBytes 4 1 = [0, 0, 0, 1] := by decide
  have hkey : pbkdf2 hmac hashSize password salt (count + 1) hashSize =
      pbkdf2Block hmac hashSize password (salt ++ [0, 0, 0, 1]) (count + 1) := by
    have hblocks : (hashSize + hashSize - 1) / hashSize = 1 := by decide
    rw [pbkdf2, hblocks, List.range_one, List.flatMap_cons, List.flatMap_nil, List.append_nil,
      Nat.zero_add, hnumber, List.take_of_length_le]
    rw [pbkdf2Block, List.length_map, List.length_range]
  rw [tgPbkdf2Sha512, Nat.succ_eq_add_one, hkey]
  by_cases hmore : 1 < count + 1
  · rw [if_pos hmore, Nat.add_sub_cancel, loop_pbkdf2Pass (hsize _)]
  · have hzero : count = 0 := by omega
    rw [if_neg hmore, hzero, pbkdf2Block_one (hsize _)]

/-- Three values of HMAC-SHA-512 under the key `password`: of `salt` and the number of the block, and
each of the one before. -/
def saltedDigest : Bytes :=
  [134, 127, 112, 207, 26, 222, 2, 207, 243, 117, 37, 153, 163, 165, 61, 196, 175, 52, 199, 166,
   105, 129, 90, 229, 213, 19, 85, 78, 28, 140, 242, 82, 192, 45, 71, 10, 40, 90, 5, 1, 186, 217,
   153, 191, 233, 67, 192, 143, 5, 2, 53, 215, 214, 139, 29, 165, 94, 99, 247, 59, 96, 165, 127,
   206]

def secondDigest : Bytes :=
  [103, 166, 177, 165, 188, 95, 114, 69, 182, 128, 226, 93, 65, 176, 243, 114, 193, 53, 221, 136,
   246, 129, 26, 148, 234, 11, 251, 179, 164, 234, 39, 110, 55, 65, 236, 34, 64, 249, 158, 158, 194,
   153, 116, 113, 166, 172, 154, 13, 187, 101, 6, 139, 161, 45, 27, 43, 90, 114, 208, 111, 146, 217,
   176, 128]

def thirdDigest : Bytes :=
  [87, 105, 189, 216, 104, 62, 58, 82, 1, 157, 254, 222, 182, 45, 234, 74, 161, 255, 20, 41, 246,
   219, 166, 204, 224, 8, 8, 171, 203, 162, 99, 116, 17, 126, 127, 97, 112, 90, 85, 5, 97, 225, 196,
   130, 186, 251, 92, 170, 182, 44, 154, 200, 180, 20, 28, 192, 240, 101, 53, 116, 74, 109, 9, 125]

def recordedHmac (_password message : Bytes) : Bytes :=
  if message = saltedDigest then secondDigest
  else if message = secondDigest then thirdDigest
  else saltedDigest

theorem length_recordedHmac (password message : Bytes) :
    (recordedHmac password message).length = hashSize := by
  unfold recordedHmac
  split
  · rfl
  · split <;> rfl

/-- The password `password`, the salt `salt` and three iterations. -/
theorem tgPbkdf2Sha512_eq_three :
    tgPbkdf2Sha512 recordedHmac [112, 97, 115, 115, 119, 111, 114, 100]
        [115, 97, 108, 116] 3 =
      pbkdf2 recordedHmac hashSize [112, 97, 115, 115, 119, 111, 114, 100]
        [115, 97, 108, 116] 3 hashSize :=
  tgPbkdf2Sha512_eq (by decide) (length_recordedHmac _)

end LibTg.Crypto
