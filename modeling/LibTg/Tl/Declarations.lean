import LibTg.Tl.SchemaParser

/-!
# Printed declarations

A declaration as a value, the line of the schema that it is printed as, and the `struct method_t` that
the parser is meant to read from that line. The parser takes a line with `{t:Type}` in it for the
declaration of `vector`; on every other printed declaration the two agree.
-/

namespace LibTg.Tl

/-- An argument. `flags word` is a flags word; `optional name word bit type` stands under a bit of
one. The first flags word has no number. -/
inductive ArgDecl where
  | plain (name type : List Char)
  | flags (word : Option ℕ)
  | optional (name : List Char) (word : Option ℕ) (bit : ℕ) (type : List Char)
  deriving DecidableEq, Repr

/-- The name of a flags word. -/
def flagsName (word : Option ℕ) : List Char :=
  "flags".toList ++ (word.map printNat).getD []

/-- The argument up to the `#` of a flags word. -/
def ArgDecl.head : ArgDecl → List Char
  | .plain name type => name ++ ':' :: type
  | .flags word => flagsName word ++ [':']
  | .optional name word bit type =>
    name ++ ':' :: (flagsName word ++ '.' :: printNat bit ++ '?' :: type)

/-- The argument as it is printed. -/
def ArgDecl.text : ArgDecl → List Char
  | .flags word => ArgDecl.head (.flags word) ++ ['#']
  | arg => arg.head

/-- The entry of `args` that an argument is meant to be read into. -/
def ArgDecl.entry : ArgDecl → ParsedArg
  | .plain name type => ⟨name, some type, 0, 0⟩
  | .flags word => ⟨flagsName word, none, 0, 0⟩
  | .optional name word bit type => ⟨name, some type, (word.getD 1 : ℕ), bit⟩

/-- The argument as it is meant to be read; `{X:Type}` is left out. -/
def ArgDecl.parsed (arg : ArgDecl) : Option ParsedArg :=
  if arg.text = "{X:Type}".toList then none else some arg.entry

/-- A declaration; `id` is a text of hexadecimal digits. -/
structure Declaration where
  name : List Char
  id : List Char
  args : List ArgDecl
  ret : List Char
  deriving DecidableEq, Repr

def Declaration.left (decl : Declaration) : List Char :=
  decl.name ++ '#' :: (decl.id ++ decl.args.flatMap (' ' :: ·.text))

/-- `name#id arg1:type1 … argn:typen = Ret;`. -/
def Declaration.text (decl : Declaration) : List Char :=
  decl.left ++ " = ".toList ++ decl.ret ++ ";".toList

/-- The declaration as it is meant to be read. -/
def Declaration.parsed (decl : Declaration) : ParsedMethod where
  name := some decl.name
  id := UInt32.ofNat (hexValue decl.id)
  ret := some decl.ret
  args := decl.args.filterMap ArgDecl.parsed
  nflags := (decl.args.filterMap ArgDecl.parsed).countP fun arg ↦ countsAsFlags arg.name

/-- The characters that no name and no type has: those that the parser cuts at, and those that end a
line or a string. -/
def reserved : List Char := [' ', '#', '=', ':', '?', ';', '/', '\n', '\x00']

/-- A name or a type. -/
def IsPlain (text : List Char) : Prop := text ≠ [] ∧ ∀ c ∈ text, c ∉ reserved

instance (text : List Char) : Decidable (IsPlain text) :=
  have : Decidable (∀ c ∈ text, c ∉ reserved) := List.decidableBAll _ text
  inferInstanceAs (Decidable (_ ∧ _))

/-- The numbers fit an `int`, and the flags words behind the first one are numbered from 2 on. -/
def ArgDecl.Ok : ArgDecl → Prop
  | .plain name type => IsPlain name ∧ IsPlain type
  | .flags _ => True
  | .optional name word bit type =>
    IsPlain name ∧ IsPlain type ∧ (∀ number ∈ word, 2 ≤ number ∧ number < 2 ^ 31) ∧ bit < 2 ^ 31

instance : (arg : ArgDecl) → Decidable arg.Ok
  | .plain _ _ => inferInstanceAs (Decidable (_ ∧ _))
  | .flags _ => isTrue trivial
  | .optional _ word _ _ =>
    have : Decidable (∀ number ∈ word, 2 ≤ number ∧ number < 2 ^ 31) :=
      match word with
      | none => isTrue fun _ hmem ↦ absurd hmem (Option.not_mem_none _)
      | some number => decidable_of_iff (2 ≤ number ∧ number < 2 ^ 31) (by simp)
    inferInstanceAs (Decidable (_ ∧ _ ∧ _ ∧ _))

/-- A declaration that fits `method_t` and the buffer for a line. -/
structure Declaration.Ok (decl : Declaration) : Prop where
  name : IsPlain decl.name
  id : decl.id ≠ [] ∧ ∀ c ∈ decl.id, (hexDigit c).isSome = true
  id_pos : 0 < hexValue decl.id
  id_lt : hexValue decl.id < 2 ^ 32
  args : ∀ arg ∈ decl.args, arg.Ok
  length_args : (decl.args.filterMap ArgDecl.parsed).length ≤ maxArgs
  ret : IsPlain decl.ret
  length_text : decl.text.length < 2 * bufsiz

/-- No argument is `{t:Type}` or has it inside. -/
def Declaration.NoVector (decl : Declaration) : Prop :=
  ∀ arg ∈ decl.args, ¬ "{t:Type}".toList <:+: arg.text

/-- A line of the file: a declaration, or a line without `=`. -/
inductive SchemaLine where
  | declaration (decl : Declaration)
  | other (text : List Char)
  deriving DecidableEq, Repr

/-- The line as it is printed. -/
def SchemaLine.text : SchemaLine → List Char
  | .declaration decl => decl.text
  | .other text => text

def SchemaLine.decl? : SchemaLine → Option Declaration
  | .declaration decl => some decl
  | .other _ => none

/-- A declaration that the parser can hold, or a line without `=`. -/
def SchemaLine.Ok : SchemaLine → Prop
  | .declaration decl => decl.Ok
  | .other text => '=' ∉ text ∧ '\n' ∉ text

/-- The file, one line after the other. -/
def schemaText (lines : List SchemaLine) : List Char := lines.flatMap (·.text ++ ['\n'])

/-! ## Characters -/

theorem free_of_not_reserved {text : List Char} (h : ∀ c ∈ text, c ∉ reserved)
    {delim : Char → Bool} (hdelim : ∀ c, delim c = true → c ∈ reserved) :
    ∀ c ∈ text, delim c = false := by
  intro c hmem
  rw [Bool.eq_false_iff]
  exact fun hc ↦ h c hmem (hdelim c hc)

theorem not_reserved_of_isDigit {c : Char} (hdigit : c.isDigit = true) : c ∉ reserved := by
  intro hmem
  simp only [reserved, List.mem_cons, List.not_mem_nil, or_false] at hmem
  rcases hmem with rfl | rfl | rfl | rfl | rfl | rfl | rfl | rfl | rfl <;>
    exact absurd hdigit (by decide)

theorem not_reserved_of_hexDigit {c : Char} (hdigit : (hexDigit c).isSome = true) :
    c ∉ reserved := by
  intro hmem
  simp only [reserved, List.mem_cons, List.not_mem_nil, or_false] at hmem
  rcases hmem with rfl | rfl | rfl | rfl | rfl | rfl | rfl | rfl | rfl <;>
    exact absurd hdigit (by decide)

theorem not_reserved_flagsName {word : Option ℕ} {c : Char} (hmem : c ∈ flagsName word) :
    c ∉ reserved := by
  rcases List.mem_append.mp hmem with hflags | hword
  · have hplain : IsPlain "flags".toList := by decide
    exact hplain.2 c hflags
  · cases word with
    | none => exact absurd hword List.not_mem_nil
    | some number => exact not_reserved_of_isDigit (isDigit_of_mem_printNat hword)

theorem flagsName_ne_nil (word : Option ℕ) : flagsName word ≠ [] :=
  List.append_ne_nil_of_left_ne_nil (by decide) _

theorem not_reserved_flag {word : Option ℕ} {bit : ℕ} {c : Char}
    (hmem : c ∈ flagsName word ++ '.' :: printNat bit) : c ∉ reserved := by
  rcases List.mem_append.mp hmem with hname | hrest
  · exact not_reserved_flagsName hname
  · rcases List.mem_cons.mp hrest with rfl | hbit
    · decide
    · exact not_reserved_of_isDigit (isDigit_of_mem_printNat hbit)

/-- What the parser cuts an argument at, apart from the `#` of a flags word. -/
theorem ArgDecl.Ok.head_reserved {arg : ArgDecl} (h : arg.Ok) {c : Char} (hmem : c ∈ arg.head)
    (hc : c ∈ reserved) : c = ':' ∨ c = '?' := by
  cases arg with
  | plain name type =>
    rcases List.mem_append.mp hmem with hname | htype
    · exact absurd hc (h.1.2 c hname)
    · rcases List.mem_cons.mp htype with hcolon | htype
      · exact Or.inl hcolon
      · exact absurd hc (h.2.2 c htype)
  | flags word =>
    rcases List.mem_append.mp hmem with hname | hcolon
    · exact absurd hc (not_reserved_flagsName hname)
    · exact Or.inl (List.mem_singleton.mp hcolon)
  | optional name word bit type =>
    rcases List.mem_append.mp hmem with hname | hrest
    · exact absurd hc (h.1.2 c hname)
    · rcases List.mem_cons.mp hrest with hcolon | hrest
      · exact Or.inl hcolon
      · rcases List.mem_append.mp hrest with hflag | hrest
        · exact absurd hc (not_reserved_flag hflag)
        · rcases List.mem_cons.mp hrest with hmark | htype
          · exact Or.inr hmark
          · exact absurd hc (h.2.1.2 c htype)

theorem ArgDecl.text_eq (arg : ArgDecl) : arg.text = arg.head ∨ arg.text = arg.head ++ ['#'] := by
  cases arg with
  | plain name type => exact Or.inl rfl
  | flags word => exact Or.inr rfl
  | optional name word bit type => exact Or.inl rfl

theorem ArgDecl.Ok.text_reserved {arg : ArgDecl} (h : arg.Ok) {c : Char} (hmem : c ∈ arg.text)
    (hc : c ∈ reserved) : c = ':' ∨ c = '?' ∨ c = '#' := by
  have hhead (hhead : c ∈ arg.head) : c = ':' ∨ c = '?' ∨ c = '#' :=
    (h.head_reserved hhead hc).imp_right Or.inl
  rcases arg.text_eq with heq | heq <;> rw [heq] at hmem
  · exact hhead hmem
  · rcases List.mem_append.mp hmem with hmem | hmem
    · exact hhead hmem
    · exact Or.inr (Or.inr (List.mem_singleton.mp hmem))

theorem ArgDecl.Ok.head_ne_nil {arg : ArgDecl} (h : arg.Ok) : arg.head ≠ [] := by
  cases arg with
  | plain name type => exact List.append_ne_nil_of_left_ne_nil h.1.1 _
  | flags word => exact List.append_ne_nil_of_right_ne_nil _ (List.cons_ne_nil _ _)
  | optional name word bit type => exact List.append_ne_nil_of_left_ne_nil h.1.1 _

/-- The `#` of a flags word does not make it `{X:Type}`. -/
theorem ArgDecl.head_eq_iff (arg : ArgDecl) :
    arg.head = "{X:Type}".toList ↔ arg.text = "{X:Type}".toList := by
  cases arg with
  | plain name type => exact Iff.rfl
  | flags word =>
    constructor
    · intro h
      have hlast := congrArg List.getLast? h
      simp [ArgDecl.head] at hlast
    · intro h
      have hlast := congrArg List.getLast? h
      simp [ArgDecl.text] at hlast
  | optional name word bit type => exact Iff.rfl

/-! ## Arguments -/

theorem strtokView_of_free {text : List Char} {delim : Char → Bool}
    (hfree : ∀ c ∈ text, delim c = false) : strtokView delim text = text := by
  have htake : text.takeWhile delim = [] := by
    cases text with
    | nil => rfl
    | cons c rest => rw [List.takeWhile_cons, hfree c List.mem_cons_self, if_neg Bool.false_ne_true]
  have hdrop : text.dropWhile delim = text := by
    cases text with
    | nil => rfl
    | cons c rest => rw [List.dropWhile_cons, hfree c List.mem_cons_self, if_neg Bool.false_ne_true]
  have hall : ∀ c ∈ text, (! delim c) = true := by
    intro c hmem
    rw [hfree c hmem]
    rfl
  rw [strtokView, htake, hdrop, List.takeWhile_eq_self_iff.mpr hall, List.nil_append]

theorem scanInt_printNat_nil (value : ℕ) : scanInt (printNat value) = some ((value : ℤ), []) := by
  have h := scanInt_printNat value (fun c hmem ↦ absurd hmem (Option.not_mem_none c) :
    ∀ c ∈ ([] : List Char).head?, c.isDigit = false)
  rwa [List.append_nil] at h

/-- The number of a flags word stands between `flags` and the point. -/
theorem scanFlags_flag (word : Option ℕ) (bit : ℕ) :
    scanFlags (flagsName word ++ '.' :: printNat bit) = (((word.getD 1 : ℕ) : ℤ), (bit : ℤ)) := by
  cases word with
  | none =>
    have hbit : scanFlagBit (flagsName none ++ '.' :: printNat bit) = some (bit : ℤ) := by
      calc scanFlagBit (flagsName none ++ '.' :: printNat bit)
          = (scanInt (printNat bit)).map Prod.fst := rfl
        _ = some (bit : ℤ) := by rw [scanInt_printNat_nil, Option.map_some]
    rw [scanFlags, hbit]
    rfl
  | some number =>
    have hpoint : ∀ c ∈ ('.' :: printNat bit).head?, c.isDigit = false := by
      intro c hmem
      rw [List.head?_cons, Option.mem_some_iff] at hmem
      subst hmem
      decide
    have hnone : scanFlagBit (flagsName (some number) ++ '.' :: printNat bit) = none := by
      cases hprint : printNat number with
      | nil => exact absurd hprint (printNat_ne_nil number)
      | cons digit others =>
        have hdigit : digit ≠ '.' := by
          rintro rfl
          exact absurd (isDigit_of_mem_printNat (hprint ▸ List.mem_cons_self)) (by decide)
        simp [scanFlagBit, flagsName, hprint, hdigit.symm]
    have hword : scanInt ((flagsName (some number) ++ '.' :: printNat bit).drop 5) =
        some ((number : ℤ), '.' :: printNat bit) := by
      calc scanInt ((flagsName (some number) ++ '.' :: printNat bit).drop 5)
          = scanInt (printNat number ++ '.' :: printNat bit) := rfl
        _ = some ((number : ℤ), '.' :: printNat bit) := scanInt_printNat number hpoint
    have hfront : "flags".toList.isPrefixOf (flagsName (some number) ++ '.' :: printNat bit) =
        true := rfl
    rw [scanFlags, hnone, scanFlagWord, if_pos hfront, hword]
    change ((number : ℤ), ((scanInt (printNat bit)).map Prod.fst).getD 0) = _
    rw [scanInt_printNat_nil]
    rfl

/-- An entry of `args` appended, with what it means for `nflags`. -/
def ParsedMethod.push (m : ParsedMethod) (arg : ParsedArg) : ParsedMethod :=
  { m with
    args := m.args ++ [arg]
    nflags := if countsAsFlags arg.name then m.nflags + 1 else m.nflags }

theorem parseMethodArgs_head (m : ParsedMethod) {arg : ArgDecl} (h : arg.Ok)
    (hroom : m.args.length < maxArgs) : parseMethodArgs m arg.head = some (m.push arg.entry) := by
  have hcolon : ∀ c, decide (c = ':') = true → c ∈ reserved := by
    intro c hc
    rw [of_decide_eq_true hc]
    decide
  have hmark : ∀ c, decide (c = '?') = true → c ∈ reserved := by
    intro c hc
    rw [of_decide_eq_true hc]
    decide
  rw [parseMethodArgs, if_neg (not_le.mpr hroom)]
  cases arg with
  | plain name type =>
    have hname := strtok_append_cons type h.1.1 (free_of_not_reserved h.1.2 hcolon) (decide_eq_true rfl)
    have htype := strtok_of_free h.2.1 (free_of_not_reserved h.2.2 hcolon)
    have hnone := strtok_of_free h.2.1 (free_of_not_reserved h.2.2 hmark)
    have hview := strtokView_of_free (free_of_not_reserved h.2.2 hmark)
    simp only [ArgDecl.head, hname, htype, Option.getD_some, hnone]
    rw [Option.map_some, hview]
    rfl
  | flags word =>
    have hname : strtok (fun c ↦ decide (c = ':')) (flagsName word ++ [':']) =
        (some (flagsName word), []) :=
      strtok_append_cons [] (flagsName_ne_nil word)
        (free_of_not_reserved (fun _ ↦ not_reserved_flagsName) hcolon) (decide_eq_true rfl)
    simp only [ArgDecl.head, hname]
    rfl
  | optional name word bit type =>
    have hname := strtok_append_cons (flagsName word ++ '.' :: printNat bit ++ '?' :: type) h.1.1
      (free_of_not_reserved h.1.2 hcolon) (decide_eq_true rfl)
    have hftype : strtok (fun c ↦ decide (c = ':'))
        (flagsName word ++ '.' :: printNat bit ++ '?' :: type) =
        (some (flagsName word ++ '.' :: printNat bit ++ '?' :: type), []) := by
      apply strtok_of_free
      · exact List.append_ne_nil_of_right_ne_nil _ (List.cons_ne_nil _ _)
      · intro c hmem
        rcases List.mem_append.mp hmem with hflag | hrest
        · exact free_of_not_reserved (fun _ ↦ not_reserved_flag) hcolon c hflag
        · rcases List.mem_cons.mp hrest with rfl | htype
          · decide
          · exact free_of_not_reserved h.2.1.2 hcolon c htype
    have hflag : strtok (fun c ↦ decide (c = '?'))
        (flagsName word ++ '.' :: printNat bit ++ '?' :: type) =
        (some (flagsName word ++ '.' :: printNat bit), type) :=
      strtok_append_cons type (List.append_ne_nil_of_right_ne_nil _ (List.cons_ne_nil _ _))
        (free_of_not_reserved (fun _ ↦ not_reserved_flag) hmark) (decide_eq_true rfl)
    have htype := strtok_of_free h.2.1.1 (free_of_not_reserved h.2.1.2 hmark)
    simp only [ArgDecl.head, hname, hftype, Option.getD_some, hflag, htype, Option.bind_eq_bind,
      Option.bind_some, scanFlags_flag]
    rfl

/-- What the loops of `parse_method` do with one argument. -/
def parseArg (m : ParsedMethod) (arg : List Char) : Option ParsedMethod :=
  if arg = "{X:Type}".toList then some m else parseMethodArgs m arg

/-- The entries of a list of arguments appended. -/
def ParsedMethod.pushAll (m : ParsedMethod) (args : List ParsedArg) : ParsedMethod :=
  { m with
    args := m.args ++ args
    nflags := m.nflags + args.countP fun arg ↦ countsAsFlags arg.name }

theorem pushAll_push (m : ParsedMethod) (arg : ParsedArg) (args : List ParsedArg) :
    (m.push arg).pushAll args = m.pushAll (arg :: args) := by
  simp only [ParsedMethod.pushAll, ParsedMethod.push, List.append_assoc, List.singleton_append,
    List.countP_cons]
  split <;> simp only [ParsedMethod.mk.injEq, true_and] <;> omega

/-- All arguments in turn. -/
theorem parseArgs_heads (m : ParsedMethod) {args : List ArgDecl} (h : ∀ arg ∈ args, arg.Ok)
    (hroom : m.args.length + (args.filterMap ArgDecl.parsed).length ≤ maxArgs) :
    (args.map ArgDecl.head).foldlM parseArg m =
      some (m.pushAll (args.filterMap ArgDecl.parsed)) := by
  induction args generalizing m with
  | nil =>
    simp only [List.map_nil, List.foldlM_nil, List.filterMap_nil, ParsedMethod.pushAll,
      List.append_nil, List.countP_nil, Nat.add_zero]
    rfl
  | cons arg rest ih =>
    obtain ⟨harg, hrest⟩ := List.forall_mem_cons.mp h
    rw [List.map_cons, List.foldlM_cons, parseArg]
    by_cases hgeneric : arg.text = "{X:Type}".toList
    · have hparsed : arg.parsed = none := if_pos hgeneric
      rw [List.filterMap_cons_none hparsed] at hroom ⊢
      rw [if_pos (arg.head_eq_iff.mpr hgeneric)]
      exact ih m hrest hroom
    · have hparsed : arg.parsed = some arg.entry := if_neg hgeneric
      rw [List.filterMap_cons_some hparsed, List.length_cons] at hroom
      rw [List.filterMap_cons_some hparsed, if_neg (fun hhead ↦ hgeneric (arg.head_eq_iff.mp hhead)),
        parseMethodArgs_head m harg (by omega), ← pushAll_push]
      apply ih _ hrest
      rw [ParsedMethod.push, List.length_append, List.length_singleton]
      omega

/-! ## The pieces of a declaration -/

/-- `#` and space, the two delimiters in front of the arguments. -/
def isCut (c : Char) : Bool := decide (c = '#') || decide (c = ' ')

/-- Behind the id only arguments are read. -/
theorem foldlM_parseIdOrArg (m : ParsedMethod) (args : List (List Char)) {idx : ℕ} (hidx : idx ≠ 1) :
    (args.foldlM parseIdOrArg (m, idx)).map Prod.fst = args.foldlM parseArg m := by
  induction args generalizing m with
  | nil => rfl
  | cons arg rest ih =>
    rw [List.foldlM_cons, List.foldlM_cons, parseIdOrArg, parseArg, if_neg hidx]
    by_cases hgeneric : arg = "{X:Type}".toList
    · rw [if_pos hgeneric, if_pos hgeneric]
      exact ih m
    · rw [if_neg hgeneric, if_neg hgeneric]
      cases parseMethodArgs m arg with
      | none => rfl
      | some m => exact ih m

theorem parseMethodIdAndArgs_eq (m : ParsedMethod) (buf : List Char) {idx : ℕ} (hidx : idx ≠ 1) :
    parseMethodIdAndArgs m buf idx = (tokens (· = ' ') buf).foldlM parseArg m := by
  rw [parseMethodIdAndArgs, strtokForeach_eq_tokens _ _ (Nat.lt_succ_self _),
    foldlM_parseIdOrArg m _ hidx]

/-- The piece with the id in front. -/
theorem parseMethodIdAndArgs_one (m : ParsedMethod) {buf id : List Char} {rest : List (List Char)}
    (htokens : tokens (· = ' ') buf = id :: rest) :
    parseMethodIdAndArgs m buf 1 = rest.foldlM parseArg { m with id := (scanHex id).getD m.id } := by
  rw [parseMethodIdAndArgs, strtokForeach_eq_tokens _ _ (Nat.lt_succ_self _), htokens,
    List.foldlM_cons]
  exact foldlM_parseIdOrArg _ rest (by decide)

/-- The pieces behind the first two. -/
theorem parsePieces_eq (m : ParsedMethod) (pieces : List (List Char)) {idx : ℕ} (hidx : 2 ≤ idx)
    (hvector : ∀ piece ∈ pieces, strstr "{t:Type}".toList piece = none) :
    parsePieces idx m pieces = (pieces.flatMap (tokens (· = ' '))).foldlM parseArg m := by
  induction pieces generalizing m idx with
  | nil => rfl
  | cons piece pieces ih =>
    obtain ⟨hpiece, hpieces⟩ := List.forall_mem_cons.mp hvector
    rw [parsePieces, if_neg (by omega), hpiece, if_neg (by decide),
      parseMethodIdAndArgs_eq m piece (by omega), List.flatMap_cons, List.foldlM_append]
    apply bind_congr
    intro m
    exact ih m (by omega) hpieces

/-! ## Whole declarations -/

theorem strstr_eq_none_iff (pattern text : List Char) :
    strstr pattern text = none ↔ ¬ pattern <:+: text := by
  induction text with
  | nil =>
    rw [strstr, List.infix_nil]
    split <;> simp_all
  | cons c rest ih =>
    rw [strstr, List.infix_cons_iff]
    by_cases hfront : pattern.isPrefixOf (c :: rest) = true
    · rw [if_pos hfront]
      simp [List.isPrefixOf_iff_prefix.mp hfront]
    · rw [if_neg hfront, ih, not_or]
      exact ⟨fun h ↦ ⟨fun h ↦ hfront (List.isPrefixOf_iff_prefix.mpr h), h⟩, fun h ↦ h.2⟩

theorem ArgDecl.Ok.head_not_cut {arg : ArgDecl} (h : arg.Ok) : ∀ c ∈ arg.head, isCut c = false := by
  intro c hmem
  rw [Bool.eq_false_iff]
  intro hcut
  have hreserved : c ∈ reserved := by
    rcases Bool.or_eq_true_iff.mp hcut with hc | hc <;> rw [of_decide_eq_true hc] <;> decide
  rcases h.head_reserved hmem hreserved with rfl | rfl <;> exact absurd hcut (by decide)

theorem ArgDecl.Ok.tokens_text {arg : ArgDecl} (h : arg.Ok) : tokens isCut arg.text = [arg.head] := by
  rcases arg.text_eq with heq | heq <;> rw [heq]
  · exact tokens_of_free h.head_ne_nil h.head_not_cut
  · rw [tokens_free_append_cons [] h.head_ne_nil h.head_not_cut rfl, tokens_nil]

/-- The declaration behind its name, with the space that `strtok` leaves in front of the `=`. -/
def Declaration.body (decl : Declaration) : List Char :=
  decl.id ++ (decl.args.map ArgDecl.text ++ [[]]).flatMap (' ' :: ·)

theorem Declaration.left_append (decl : Declaration) :
    decl.left ++ [' '] = decl.name ++ '#' :: decl.body := by
  simp [Declaration.left, Declaration.body, List.flatMap_map]

namespace Declaration.Ok

variable {decl : Declaration}

theorem id_not_reserved (h : decl.Ok) : ∀ c ∈ decl.id, c ∉ reserved :=
  fun c hmem ↦ not_reserved_of_hexDigit (h.id.2 c hmem)

/-- All pieces of the body, cut at `#` and spaces. -/
theorem tokens_body (h : decl.Ok) : tokens isCut decl.body = decl.id :: decl.args.map ArgDecl.head := by
  have hid : ∀ c ∈ decl.id, isCut c = false := by
    apply free_of_not_reserved h.id_not_reserved
    intro c hc
    rcases Bool.or_eq_true_iff.mp hc with hc | hc <;> rw [of_decide_eq_true hc] <;> decide
  have hargs : (decl.args.map ArgDecl.text).flatMap (tokens isCut) = decl.args.map ArgDecl.head := by
    rw [List.flatMap_map, List.map_eq_flatMap]
    apply List.flatMap_congr
    intro arg hmem
    exact (h.args arg hmem).tokens_text
  rw [Declaration.body, tokens_append_flatMap rfl, tokens_of_free h.id.1 hid, List.flatMap_append,
    hargs]
  simp [tokens_nil]

theorem strstr_piece (h : decl.Ok) (hvector : decl.NoVector) {piece : List Char}
    (hmem : piece ∈ tokens (· = '#') decl.body) : strstr "{t:Type}".toList piece = none := by
  rw [strstr_eq_none_iff]
  intro hpiece
  have hbody := hpiece.trans (isInfix_of_mem_tokens hmem)
  rcases isInfix_of_append_flatMap (by decide) hbody with hid | ⟨text, htext, hinfix⟩
  · have hbrace : '{' ∈ decl.id := hid.subset (by decide)
    exact absurd (h.id.2 _ hbrace) (by decide)
  · rcases List.mem_append.mp htext with htext | htext
    · obtain ⟨arg, harg, rfl⟩ := List.mem_map.mp htext
      exact hvector arg harg hinfix
    · rw [List.mem_singleton.mp htext] at hinfix
      exact absurd (List.infix_nil.mp hinfix) (by decide)

theorem parseMethodDecl_left (h : decl.Ok) (hvector : decl.NoVector) :
    parseMethodDecl { ParsedMethod.zero with ret := some decl.ret } (decl.left ++ [' ']) =
      some decl.parsed := by
  have hhash : ∀ c, decide (c = '#') = true → c ∈ reserved := by
    intro c hc
    rw [of_decide_eq_true hc]
    decide
  have hspace : ∀ c, decide (c = ' ') = true → c ∈ reserved := by
    intro c hc
    rw [of_decide_eq_true hc]
    decide
  have hslash : skipSlashes decl.name = some decl.name := by
    cases hname : decl.name with
    | nil => exact absurd hname h.name.1
    | cons c rest =>
      have hc : c ≠ '/' := by
        rintro rfl
        exact h.name.2 '/' (hname ▸ List.mem_cons_self) (by decide)
      unfold skipSlashes
      split
      case h_1 heq => exact absurd (List.cons.inj heq).1 hc
      case h_2 heq => exact absurd (List.cons.inj heq).1 hc
      case h_3 => rfl
  obtain ⟨more, pieces, hpieces⟩ :=
    tokens_free_append ((decl.args.map ArgDecl.text ++ [[]]).flatMap (' ' :: ·)) h.id.1
      (free_of_not_reserved h.id_not_reserved hhash)
  obtain ⟨more', args, hargs⟩ :=
    tokens_free_append more h.id.1 (free_of_not_reserved h.id_not_reserved hspace)
  have hall : decl.id :: decl.args.map ArgDecl.head =
      (decl.id ++ more') :: (args ++ pieces.flatMap (tokens (· = ' '))) := by
    calc decl.id :: decl.args.map ArgDecl.head
        = tokens isCut decl.body := h.tokens_body.symm
      _ = (tokens (· = '#') decl.body).flatMap (tokens (· = ' ')) :=
          (tokens_flatMap_tokens _ _).symm
      _ = _ := by rw [Declaration.body, hpieces, List.flatMap_cons, hargs, List.cons_append]
  obtain ⟨hid, hheads⟩ := List.cons.inj hall
  rw [← hid] at hargs
  have hvectors : ∀ piece ∈ (decl.id ++ more) :: pieces, strstr "{t:Type}".toList piece = none := by
    intro piece hmem
    exact h.strstr_piece hvector (by rwa [Declaration.body, hpieces])
  obtain ⟨hfirst, hrest⟩ := List.forall_mem_cons.mp hvectors
  have hhex : scanHex decl.id = some (UInt32.ofNat (hexValue decl.id)) :=
    scanHex_of_hex h.id.1 h.id.2
  rw [parseMethodDecl, strtokForeach_eq_tokens _ _ (Nat.lt_succ_self _), decl.left_append,
    tokens_free_append_cons _ h.name.1 (free_of_not_reserved h.name.2 hhash) (decide_eq_true rfl),
    Declaration.body, hpieces, parsePieces, if_pos rfl, hslash, Option.bind_eq_bind,
    Option.bind_some, parsePieces, if_neg (by decide), hfirst, if_neg (by decide),
    parseMethodIdAndArgs_one _ hargs, hhex]
  have hlater : (fun m ↦ parsePieces (0 + 1 + 1) m pieces) =
      fun m ↦ (pieces.flatMap (tokens (· = ' '))).foldlM parseArg m := by
    funext m
    exact parsePieces_eq m pieces (by decide) hrest
  rw [hlater, ← List.foldlM_append, ← hheads, parseArgs_heads _ h.args]
  · simp only [ParsedMethod.pushAll, ParsedMethod.zero, List.nil_append, Nat.zero_add,
      Option.getD_some]
    rfl
  · rw [show ParsedMethod.zero.args.length = 0 from rfl, Nat.zero_add]
    exact h.length_args

/-- The reserved characters before the `=`. -/
theorem left_reserved (h : decl.Ok) {c : Char} (hmem : c ∈ decl.left ++ [' '])
    (hc : c ∈ reserved) : c ∈ [' ', '#', ':', '?'] := by
  have htext {arg : ArgDecl} (harg : arg ∈ decl.args) (hmem : c ∈ arg.text) :
      c ∈ [' ', '#', ':', '?'] := by
    rcases (h.args arg harg).text_reserved hmem hc with rfl | rfl | rfl <;> decide
  rcases List.mem_append.mp hmem with hleft | hspace
  · rcases List.mem_append.mp hleft with hname | hrest
    · exact absurd hc (h.name.2 c hname)
    · rcases List.mem_cons.mp hrest with rfl | hrest
      · decide
      · rcases List.mem_append.mp hrest with hid | hargs
        · exact absurd hc (h.id_not_reserved c hid)
        · obtain ⟨arg, harg, hmem⟩ := List.mem_flatMap.mp hargs
          rcases List.mem_cons.mp hmem with rfl | hmem
          · decide
          · exact htext harg hmem
  · rw [List.mem_singleton.mp hspace]
    decide

theorem text_append (decl : Declaration) (tail : List Char) :
    decl.text ++ tail = decl.left ++ [' '] ++ '=' :: ' ' :: (decl.ret ++ ';' :: tail) := by
  simp [Declaration.text]

theorem text_reserved (h : decl.Ok) {c : Char} (hmem : c ∈ decl.text) (hc : c ∈ reserved) :
    c ∈ [' ', '#', ':', '?', '=', ';'] := by
  have hsplit := text_append decl []
  rw [List.append_nil] at hsplit
  rw [hsplit] at hmem
  rcases List.mem_append.mp hmem with hleft | hrest
  · have hfour := h.left_reserved hleft hc
    exact List.mem_append_left ['=', ';'] hfour
  · rcases List.mem_cons.mp hrest with rfl | hrest
    · decide
    · rcases List.mem_cons.mp hrest with rfl | hrest
      · decide
      · rcases List.mem_append.mp hrest with hret | hend
        · exact absurd hc (h.ret.2 c hret)
        · rw [List.mem_singleton.mp hend]
          decide

/-- The line of a declaration makes a call, with or without the line break at its end. -/
theorem parseLine_text (h : decl.Ok) (hvector : decl.NoVector) {tail : List Char}
    (htail : tail = [] ∨ tail = ['\n']) : parseLine (decl.text ++ tail) = some (.call decl.parsed) := by
  have hequals : ∀ c ∈ decl.left ++ [' '], decide (c = '=') = false := by
    intro c hmem
    apply decide_eq_false
    rintro rfl
    exact absurd (h.left_reserved hmem (by decide)) (by decide)
  have hright : ∀ c ∈ ' ' :: (decl.ret ++ ';' :: tail), decide (c = '=') = false := by
    intro c hmem
    apply decide_eq_false
    rintro rfl
    rcases List.mem_cons.mp hmem with hc | hmem
    · exact absurd hc (by decide)
    · rcases List.mem_append.mp hmem with hret | hend
      · exact h.ret.2 '=' hret (by decide)
      · rcases htail with rfl | rfl <;> revert hend <;> decide
  have hret : parseMethodReturn .zero (' ' :: (decl.ret ++ ';' :: tail)) =
      { ParsedMethod.zero with ret := some decl.ret } := by
    have hfree : ∀ c ∈ decl.ret, decide (c ∈ " ;".toList) = false := by
      apply free_of_not_reserved h.ret.2
      intro c hc
      have hboth : " ;".toList ⊆ reserved := by decide
      exact hboth (of_decide_eq_true hc)
    rw [parseMethodReturn, strtok_cons _ (by decide),
      strtok_append_cons tail h.ret.1 hfree (by decide)]
  have hhead : (decl.text ++ tail).head? ∉ [none, some ' ', some '\n'] := by
    rw [text_append, left_append]
    cases hname : decl.name with
    | nil => exact absurd hname h.name.1
    | cons c rest =>
      have hc : c ∉ reserved := h.name.2 c (hname ▸ List.mem_cons_self)
      intro hmem
      simp only [List.cons_append, List.head?_cons, List.mem_cons, List.not_mem_nil, or_false,
        reduceCtorEq, Option.some.injEq, false_or] at hmem
      rcases hmem with rfl | rfl <;> exact hc (by decide)
  have hmark : '?' ∉ decl.name := fun hmem ↦ h.name.2 '?' hmem (by decide)
  have hid : decl.parsed.id ≠ 0 := by
    intro hzero
    have hvalue := congrArg UInt32.toNat hzero
    rw [show decl.parsed.id = UInt32.ofNat (hexValue decl.id) from rfl,
      UInt32.toNat_ofNat_of_lt' h.id_lt, UInt32.toNat_zero] at hvalue
    exact absurd h.id_pos (by omega)
  rw [parseLine, if_neg hhead, text_append,
    strtok_append_cons _ (List.append_ne_nil_of_right_ne_nil _ (List.cons_ne_nil _ _)) hequals
      (by decide)]
  dsimp only
  rw [strtok_of_free (List.cons_ne_nil _ _) hright]
  dsimp only
  rw [hret, h.parseMethodDecl_left hvector, Option.bind_eq_bind, Option.bind_some]
  change (if '?' ∈ decl.name then _ else _) = _
  rw [if_neg hmark, if_neg hid]

end Declaration.Ok

/-! ## The file -/

theorem readLine_append {text : List Char} (hbreak : '\n' ∉ text) (rest : List Char) (count : ℕ) :
    readLine count (text ++ '\n' :: rest) =
      if text.length < count then (text ++ ['\n'], rest)
      else (text.take count, text.drop count ++ '\n' :: rest) := by
  induction text generalizing count with
  | nil =>
    cases count with
    | zero => rfl
    | succ count => rfl
  | cons c text ih =>
    obtain ⟨hc, htext⟩ := not_or.mp (List.mem_cons.not.mp hbreak)
    cases count with
    | zero => rfl
    | succ count =>
      rw [List.cons_append, readLine, if_neg (Ne.symm hc), ih htext]
      simp only [List.length_cons, Nat.add_lt_add_iff_right]
      split <;> rfl

section Callback

variable (callback : ℕ → SchemaCall → ℤ)

/-- From a line on, the parser makes certain calls and returns 0. -/
def Reads (text : List Char) (calls : List SchemaCall) : Prop :=
  ∀ fuel i count, text.length < fuel → parseSchema callback fuel i count text = some (calls, 0)

variable {callback}

theorem reads_nil : Reads callback [] [] := by
  intro fuel i count hfuel
  cases fuel with
  | zero => exact absurd hfuel (Nat.not_lt_zero _)
  | succ fuel => rfl

/-- A line that is skipped. -/
theorem Reads.skip {text line rest : List Char} {calls : List SchemaCall}
    (hread : readLine (bufsiz * 2 - 1) text = (line, rest)) (hlength : rest.length < text.length)
    (hline : parseLine (line.takeWhile (· ≠ '\x00')) = some .skip) (h : Reads callback rest calls) :
    Reads callback text calls := by
  intro fuel i count hfuel
  cases fuel with
  | zero => exact absurd hfuel (Nat.not_lt_zero _)
  | succ fuel =>
    have hne : text ≠ [] := List.ne_nil_of_length_pos (by omega)
    rw [parseSchema, if_neg hne, hread]
    dsimp only
    rw [hline]
    exact h fuel (i + 1) count (by omega)

/-- A line that makes a call. -/
theorem Reads.call (hcallback : ∀ count call, callback count call = 0)
    {text line rest : List Char} {m : ParsedMethod} {calls : List SchemaCall}
    (hread : readLine (bufsiz * 2 - 1) text = (line, rest)) (hlength : rest.length < text.length)
    (hline : parseLine (line.takeWhile (· ≠ '\x00')) = some (.call m))
    (h : Reads callback rest calls) : Reads callback text (.method m :: calls) := by
  intro fuel i count hfuel
  cases fuel with
  | zero => exact absurd hfuel (Nat.not_lt_zero _)
  | succ fuel =>
    have hne : text ≠ [] := List.ne_nil_of_length_pos (by omega)
    rw [parseSchema, if_neg hne, hread]
    dsimp only
    rw [hline]
    dsimp only
    rw [if_neg (not_not.mpr (hcallback count _)), h fuel (i + 1) (count + 1) (by omega),
      Option.map_some]

/-- A piece without `=` is skipped. -/
theorem parseLine_of_no_equals {buf : List Char} (hequals : '=' ∉ buf) :
    parseLine buf = some .skip := by
  rw [parseLine]
  split
  case isTrue => rfl
  case isFalse hhead =>
    have hne : buf ≠ [] := by
      rintro rfl
      exact hhead (by decide)
    have hfree : ∀ c ∈ buf, decide (c = '=') = false := by
      intro c hmem
      apply decide_eq_false
      rintro rfl
      exact hequals hmem
    rw [strtok_of_free hne hfree]
    rfl

/-- A line without `=`, which may take several rounds. -/
theorem reads_other {text rest : List Char} {calls : List SchemaCall} (hequals : '=' ∉ text)
    (hbreak : '\n' ∉ text) (h : Reads callback rest calls) :
    Reads callback (text ++ '\n' :: rest) calls := by
  induction hlength : text.length using Nat.strongRecOn generalizing text with
  | ind length ih =>
    have hread := readLine_append hbreak rest (bufsiz * 2 - 1)
    have htotal : (text ++ '\n' :: rest).length = text.length + (rest.length + 1) := by
      rw [List.length_append, List.length_cons]
    split at hread
    case isTrue =>
      have hline : '=' ∉ (text ++ ['\n']).takeWhile (· ≠ '\x00') := by
        intro hmem
        rcases List.mem_append.mp ((List.takeWhile_sublist _).subset hmem) with hmem | hmem
        · exact hequals hmem
        · exact absurd (List.mem_singleton.mp hmem) (by decide)
      exact h.skip hread (by omega) (parseLine_of_no_equals hline)
    case isFalse hlong =>
      have hline : '=' ∉ (text.take (bufsiz * 2 - 1)).takeWhile (· ≠ '\x00') := by
        intro hmem
        exact hequals ((List.take_sublist _ _).subset ((List.takeWhile_sublist _).subset hmem))
      have hshort : (text.drop (bufsiz * 2 - 1)).length < length := by
        rw [List.length_drop]
        unfold bufsiz at hlong ⊢
        omega
      have hlater := ih _ hshort (fun hmem ↦ hequals ((List.drop_sublist _ _).subset hmem))
        (fun hmem ↦ hbreak ((List.drop_sublist _ _).subset hmem)) rfl
      apply hlater.skip hread _ (parseLine_of_no_equals hline)
      rw [List.length_append, List.length_append]
      omega

theorem reads_declaration (hcallback : ∀ count call, callback count call = 0) {decl : Declaration}
    (hdecl : decl.Ok) (hvector : decl.NoVector) {rest : List Char} {calls : List SchemaCall}
    (h : Reads callback rest calls) :
    Reads callback (decl.text ++ '\n' :: rest) (.method decl.parsed :: calls) := by
  have hbreak : '\n' ∉ decl.text := by
    intro hmem
    exact absurd (hdecl.text_reserved hmem (by decide)) (by decide)
  have hnul : ∀ c ∈ decl.text, c ≠ '\x00' := by
    rintro c hmem rfl
    exact absurd (hdecl.text_reserved hmem (by decide)) (by decide)
  have hwhole {tail : List Char} (htail : tail = [] ∨ tail = ['\n']) :
      (decl.text ++ tail).takeWhile (· ≠ '\x00') = decl.text ++ tail := by
    apply List.takeWhile_eq_self_iff.mpr
    intro c hmem
    apply decide_eq_true
    rcases List.mem_append.mp hmem with hmem | hmem
    · exact hnul c hmem
    · rcases htail with rfl | rfl
      · exact absurd hmem List.not_mem_nil
      · rw [List.mem_singleton.mp hmem]
        decide
  have hread := readLine_append hbreak rest (bufsiz * 2 - 1)
  split at hread
  case isTrue =>
    apply h.call hcallback hread
    · rw [List.length_append, List.length_cons]
      omega
    · rw [hwhole (Or.inr rfl)]
      exact hdecl.parseLine_text hvector (Or.inr rfl)
  case isFalse hlong =>
    have hfits : decl.text.length = bufsiz * 2 - 1 := by
      have hlt := hdecl.length_text
      omega
    rw [← hfits, List.take_length, List.drop_length, List.nil_append] at hread
    rw [hfits] at hread
    have hlater : Reads callback ('\n' :: rest) calls :=
      reads_other List.not_mem_nil List.not_mem_nil h
    have hline := hwhole (Or.inl rfl)
    rw [List.append_nil] at hline
    apply hlater.call hcallback hread
    · rw [List.length_append, List.length_cons, hfits]
      unfold bufsiz
      omega
    · rw [hline, ← List.append_nil decl.text]
      exact hdecl.parseLine_text hvector (Or.inl rfl)

/-- All lines in turn. -/
theorem reads_schemaText (hcallback : ∀ count call, callback count call = 0)
    {lines : List SchemaLine} (h : ∀ line ∈ lines, line.Ok)
    (hvector : ∀ decl ∈ lines.filterMap SchemaLine.decl?, decl.NoVector) :
    Reads callback (schemaText lines)
      ((lines.filterMap SchemaLine.decl?).map fun decl ↦ .method decl.parsed) := by
  induction lines with
  | nil => exact reads_nil
  | cons line lines ih =>
    obtain ⟨hline, hlines⟩ := List.forall_mem_cons.mp h
    rw [schemaText, List.flatMap_cons, List.append_assoc, List.singleton_append]
    cases line with
    | declaration decl =>
      rw [List.filterMap_cons_some (show SchemaLine.decl? (.declaration decl) = some decl from rfl)]
        at hvector ⊢
      obtain ⟨hdecl, hrest⟩ := List.forall_mem_cons.mp hvector
      exact reads_declaration hcallback hline hdecl (ih hlines hrest)
    | other text =>
      rw [List.filterMap_cons_none (show SchemaLine.decl? (.other text) = none from rfl)]
        at hvector ⊢
      exact reads_other hline.1 hline.2 (ih hlines hvector)

/-- The parser calls the callback once for every printed declaration, in order, with what was
printed, unless a declaration looks like that of `vector`. -/
theorem tlParse_schemaText (hcallback : ∀ count call, callback count call = 0)
    (lines : List SchemaLine) (h : ∀ line ∈ lines, line.Ok)
    (hvector : ∀ decl ∈ lines.filterMap SchemaLine.decl?, decl.NoVector) :
    tlParse callback (some (schemaText lines)) =
      some ((lines.filterMap SchemaLine.decl?).map fun decl ↦ .method decl.parsed, 0) :=
  reads_schemaText hcallback h hvector _ 1 0 (Nat.lt_succ_self _)

end Callback

/-- A flags word, an argument under it and `{X:Type}`. -/
def initConnection : Declaration where
  name := "initConnection".toList
  id := "c1cd5ea9".toList
  args := [.plain "\x7bX".toList "Type\x7d".toList, .flags none, .plain "api_id".toList "int".toList,
    .optional "proxy".toList none 0 "InputClientProxy".toList, .flags (some 2),
    .optional "params".toList (some 2) 31 "JSONValue".toList,
    .plain "query".toList "!X".toList]
  ret := "X".toList

theorem initConnection_ok : initConnection.Ok where
  name := by decide
  id := ⟨by decide, List.all_eq_true.mp (by decide)⟩
  id_pos := by decide
  id_lt := by decide
  args := by decide +kernel
  length_args := by decide +kernel
  ret := by decide
  length_text := by decide +kernel

/-- The declaration between two other lines. -/
theorem tlParse_initConnection :
    tlParse (fun _ _ ↦ 0) (some (schemaText
      [.other "---functions---".toList, .declaration initConnection, .other []])) =
    some ([.method {
      name := some "initConnection".toList
      id := 0xc1cd5ea9
      ret := some "X".toList
      args := [⟨"flags".toList, none, 0, 0⟩, ⟨"api_id".toList, some "int".toList, 0, 0⟩,
        ⟨"proxy".toList, some "InputClientProxy".toList, 1, 0⟩, ⟨"flags2".toList, none, 0, 0⟩,
        ⟨"params".toList, some "JSONValue".toList, 2, 31⟩, ⟨"query".toList, some "!X".toList, 0, 0⟩]
      nflags := 2 }], 0) := by
  have hlines : ∀ line ∈ [SchemaLine.other "---functions---".toList, .declaration initConnection,
      .other []], line.Ok := by
    simp only [List.forall_mem_cons, SchemaLine.Ok]
    exact ⟨by decide, initConnection_ok, by decide, List.forall_mem_nil _⟩
  have hvector : initConnection.NoVector := by
    unfold Declaration.NoVector
    decide +kernel
  have hcallback : ∀ count call, (fun _ _ ↦ 0 : ℕ → SchemaCall → ℤ) count call = 0 :=
    fun _ _ ↦ rfl
  have h := tlParse_schemaText hcallback _ hlines
    (List.forall_mem_cons.mpr ⟨hvector, List.forall_mem_nil _⟩)
  exact h.trans (by decide +kernel)

/-- A declaration with the argument `{t:Type}`, which is not that of `vector`. -/
def boxDeclaration : Declaration where
  name := "box".toList
  id := "1".toList
  args := [.plain "\x7bt".toList "Type\x7d".toList, .plain "x".toList "int".toList]
  ret := "Box".toList

theorem boxDeclaration_ok : boxDeclaration.Ok where
  name := by decide
  id := ⟨by decide, List.all_eq_true.mp (by decide)⟩
  id_pos := by decide
  id_lt := by decide
  args := by decide +kernel
  length_args := by decide +kernel
  ret := by decide
  length_text := by decide +kernel

/-- Its arguments are lost, and `Type` is taken for its return type. -/
theorem tlParse_box :
    ¬ ∀ (callback : ℕ → SchemaCall → ℤ), (∀ count call, callback count call = 0) →
      ∀ lines : List SchemaLine, (∀ line ∈ lines, line.Ok) →
        tlParse callback (some (schemaText lines)) =
          some ((lines.filterMap SchemaLine.decl?).map fun decl ↦ .method decl.parsed, 0) := by
  intro hall
  have h := hall (fun _ _ ↦ 0) (fun _ _ ↦ rfl) [.declaration boxDeclaration]
    (List.forall_mem_cons.mpr ⟨boxDeclaration_ok, List.forall_mem_nil _⟩)
  revert h
  decide +kernel

end LibTg.Tl
