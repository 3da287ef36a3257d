import LibTg.Data.Decimal

/-!
# Texts of SQL

A statement reaches the database as a text which `sprintf` has made from a format and its arguments.
`lex` takes such a text apart. Its tokens depend on the arguments: a quote in a text that stands for
`%s` ends the literal around it. `lex_print` says what the tokens are when no argument holds a quote:
those of the format, with every argument in its place. A `Char` stands for one byte.
-/

namespace LibTg.Sql

/-- A token. The words are folded to lower case; names and keywords are told apart by the parser. -/
inductive Token
  | word (text : List Char)
  | quoted (text : List Char)
  | int (value : Int64)
  | symbol (c : Char)
  | illegal
  deriving DecidableEq, Repr

/-! ## The lexer -/

/-- What has been read of the token at hand. In `closed` the last character was a quote, which ends
the literal unless another one follows. -/
inductive Lexer
  | start
  | word (text : List Char)
  | minus
  | number (negative : Bool) (digits : List Char)
  | quote (text : List Char)
  | closed (text : List Char)
  deriving DecidableEq, Repr

def isWord (c : Char) : Bool := c.isAlphanum || c = '_'

/-- An integer literal with its sign; larger ones are not integers. -/
def intToken (negative : Bool) (digits : List Char) : Token :=
  let value : ℤ := Nat.ofDigitChars 10 digits 0
  let signed := if negative then -value else value
  if -2 ^ 63 ≤ signed ∧ signed < 2 ^ 63 then .int (Int64.ofInt signed) else .illegal

/-- The token that ends here. -/
def Lexer.emit : Lexer → List Token
  | .start => []
  | .word text => [.word (text.map Char.toLower)]
  | .minus => [.symbol '-']
  | .number negative digits => [intToken negative digits]
  | .quote _ => [.illegal]
  | .closed text => [.quoted text]

/-- The first character of a token. -/
def lexStart (c : Char) : Lexer × List Token :=
  if c = '\'' then (.quote [], [])
  else if c = '-' then (.minus, [])
  else if c.isDigit then (.number false [c], [])
  else if isWord c then (.word [c], [])
  else if isSpace c then (.start, [])
  else (.start, [.symbol c])

/-- The token at hand ends in front of a character. -/
def Lexer.flush (state : Lexer) (c : Char) : Lexer × List Token :=
  ((lexStart c).1, state.emit ++ (lexStart c).2)

def lexChar : Lexer → Char → Lexer × List Token
  | .start, c => lexStart c
  | .word text, c => if isWord c then (.word (text ++ [c]), []) else Lexer.flush (.word text) c
  | .minus, c => if c.isDigit then (.number true [c], []) else Lexer.flush .minus c
  | .number negative digits, c =>
    if c.isDigit then (.number negative (digits ++ [c]), [])
    else if isWord c then (.start, [.illegal])
    else Lexer.flush (.number negative digits) c
  | .quote text, c => if c = '\'' then (.closed text, []) else (.quote (text ++ [c]), [])
  | .closed text, c => if c = '\'' then (.quote (text ++ [c]), []) else Lexer.flush (.closed text) c

/-- The tokens of a text. -/
def lexFrom : Lexer → List Char → List Token
  | state, [] => state.emit
  | state, c :: rest =>
    match lexChar state c with
    | (next, out) => out ++ lexFrom next rest

/-- The tokens of a text. -/
def lex (text : List Char) : List Token := lexFrom .start text

/-! ## Formats -/

/-- An argument of `sprintf`: for `%d`, for `%ld` (or `%lld` where a `long` is short) and for
`%s`. -/
inductive Arg
  | d (value : Int32)
  | ld (value : Int64)
  | s (text : List Char)

theorem int32_toInt64_injective : Function.Injective Int32.toInt64 := by
  intro first second h
  have hints := congrArg Int64.toInt h
  rwa [Int32.toInt_toInt64, Int32.toInt_toInt64, Int32.toInt_inj] at hints

theorem uint64_toInt64_injective : Function.Injective UInt64.toInt64 :=
  Function.LeftInverse.injective UInt64.toUInt64_toInt64

theorem uint32_toInt32_injective : Function.Injective UInt32.toInt32 :=
  Function.LeftInverse.injective UInt32.toUInt32_toInt32

/-- A piece of the printed text. -/
inductive Piece
  | char (c : Char)
  | int (value : Int64)
  | text (value : List Char)

def Piece.print : Piece → List Char
  | .char c => [c]
  | .int value => printInt value.toInt
  | .text value => value

/-- A format with its arguments in place. -/
def format : List Char → List Arg → List Piece
  | '%' :: 'd' :: rest, .d value :: args => .int value.toInt64 :: format rest args
  | '%' :: 'l' :: 'd' :: rest, .ld value :: args => .int value :: format rest args
  | '%' :: 's' :: rest, .s text :: args => .text text :: format rest args
  | c :: rest, args => .char c :: format rest args
  | [], _ => []

def print (pieces : List Piece) : List Char := pieces.flatMap Piece.print

/-- A format that is made of adjacent literals. -/
def formats (texts : List String) (args : List Arg) : List Piece :=
  format (texts.map String.toList).flatten args

/-- `sprintf` into an array that is long enough. -/
def sprintf (texts : List String) (args : List Arg) : List Char := print (formats texts args)

@[simp]
theorem print_append (first second : List Piece) :
    print (first ++ second) = print first ++ print second := List.flatMap_append

/-- Literals are made of their characters, which evaluation wants at hand. -/
theorem map_toList_literals (characters : List (List Char)) {texts : List String}
    (h : characters.map String.ofList = texts) : texts.map String.toList = characters := by
  rw [← h, List.map_map]
  exact List.map_id'' (fun text ↦ String.toList_ofList) characters

theorem formats_literals (characters : List (List Char)) {texts : List String}
    (h : characters.map String.ofList = texts) (args : List Arg) :
    formats texts args = format characters.flatten args := by
  rw [formats, map_toList_literals characters h]

/-- The text that a piece prints. -/
def Piece.text? : Piece → Option (List Char)
  | .text value => some value
  | _ => none

/-- What is printed is at least as long as a text in it. -/
theorem length_le_sprintf (characters : List (List Char)) {texts : List String}
    (hliterals : characters.map String.ofList = texts) {args : List Arg} {text : List Char}
    (htexts : (format characters.flatten args).filterMap Piece.text? = [text]) :
    text.length ≤ (sprintf texts args).length := by
  have hmem : text ∈ (format characters.flatten args).filterMap Piece.text? := by
    rw [htexts]
    exact List.mem_singleton_self text
  obtain ⟨piece, hpiece, htext⟩ := List.mem_filterMap.mp hmem
  have hprint : piece.print = text := by
    cases piece with
    | text value => exact Option.some.inj htext
    | char c => cases htext
    | int value => cases htext
  have hsub : (piece.print).Sublist (print (format characters.flatten args)) :=
    List.sublist_flatten_of_mem (List.mem_map_of_mem hpiece)
  rw [sprintf, formats_literals characters hliterals, ← hprint]
  exact hsub.length_le

/-- A text without arguments prints as it is. -/
theorem print_format_nil (text : List Char) : print (format text []) = text := by
  induction text with
  | nil => rfl
  | cons c text ih =>
    have hformat : format (c :: text) [] = .char c :: format text [] := by
      rw [format] <;> intros <;> contradiction
    rw [hformat, print, List.flatMap_cons, ← print, ih]
    rfl

/-! ## Tokens of a format -/

/-- The lexer in a text with holes: after an integer, its digits are not looked at. -/
inductive Reading
  | lexer (state : Lexer)
  | int (value : Int64)
  deriving DecidableEq, Repr

/-- One piece. An integer stands between tokens or in a literal, a text only in a literal. -/
def readPiece : Reading → Piece → Option (Reading × List Token)
  | .lexer state, .char c => some (.lexer (lexChar state c).1, (lexChar state c).2)
  | .lexer .start, .int value => some (.int value, [])
  | .lexer (.quote text), .int value => some (.lexer (.quote (text ++ printInt value.toInt)), [])
  | .lexer (.quote text), .text value => some (.lexer (.quote (text ++ value)), [])
  | .int value, .char c =>
    if isWord c then none else some (.lexer (lexStart c).1, .int value :: (lexStart c).2)
  | _, _ => none

/-- The tokens of the pieces, if every argument stands where its characters do not matter. -/
def readFrom : Reading → List Piece → Option (List Token)
  | .lexer state, [] => some state.emit
  | .int value, [] => some [.int value]
  | reading, piece :: rest => do
    let (next, out) ← readPiece reading piece
    let tokens ← readFrom next rest
    return out ++ tokens

/-- The tokens of some of the pieces, and where the lexer is behind them. -/
def readPieces : Reading → List Piece → Option (Reading × List Token)
  | reading, [] => some (reading, [])
  | reading, piece :: rest => do
    let (next, out) ← readPiece reading piece
    let (last, tokens) ← readPieces next rest
    return (last, out ++ tokens)

theorem readFrom_cons (reading : Reading) (piece : Piece) (pieces : List Piece) :
    readFrom reading (piece :: pieces) = (readPiece reading piece).bind fun found ↦
      (readFrom found.1 pieces).bind fun tokens ↦ some (found.2 ++ tokens) := by
  cases reading <;> rfl

/-- The pieces of a text can be read one part after the other. -/
theorem readFrom_append {reading next : Reading} {first second : List Piece}
    {out tokens : List Token} (hfirst : readPieces reading first = some (next, out))
    (hsecond : readFrom next second = some tokens) :
    readFrom reading (first ++ second) = some (out ++ tokens) := by
  induction first generalizing reading out with
  | nil =>
    rw [readPieces, Option.some.injEq, Prod.mk.injEq] at hfirst
    rw [List.nil_append, ← hfirst.2, hfirst.1, hsecond, List.nil_append]
  | cons piece first ih =>
    simp only [readPieces, Option.bind_eq_bind, Option.bind_eq_some_iff] at hfirst
    obtain ⟨⟨middle, front⟩, hpiece, ⟨last, others⟩, hothers, heq⟩ := hfirst
    simp only [Option.pure_def, Option.some.injEq, Prod.mk.injEq] at heq
    rw [heq.1] at hothers
    rw [List.cons_append, readFrom_cons, hpiece, Option.bind_some, ih hothers, Option.bind_some,
      ← heq.2, List.append_assoc]

/-- Parts that each end between tokens. -/
theorem readFrom_flatMap {Item : Type*} {items : List Item} {parts : Item → List Piece}
    {out : Item → List Token}
    (hitems : ∀ item ∈ items, readPieces (.lexer .start) (parts item) =
      some (.lexer .start, out item))
    {more : List Piece} {tokens : List Token} (hmore : readFrom (.lexer .start) more = some tokens) :
    readFrom (.lexer .start) (items.flatMap parts ++ more) =
      some (items.flatMap out ++ tokens) := by
  induction items with
  | nil => exact hmore
  | cons item items ih =>
    have hrest := ih fun other hother ↦ hitems other (List.mem_cons_of_mem item hother)
    rw [List.flatMap_cons, List.flatMap_cons, List.append_assoc, List.append_assoc]
    exact readFrom_append (hitems item List.mem_cons_self) hrest

theorem readPieces_formats (characters : List (List Char)) {texts : List String}
    (hliterals : characters.map String.ofList = texts) {reading next : Reading} {args : List Arg}
    {tokens : List Token}
    (h : readPieces reading (format characters.flatten args) = some (next, tokens)) :
    readPieces reading (formats texts args) = some (next, tokens) := by
  rw [formats_literals characters hliterals, h]

theorem readFrom_formats (characters : List (List Char)) {texts : List String}
    (hliterals : characters.map String.ofList = texts) {reading : Reading} {args : List Arg}
    {tokens : List Token} (h : readFrom reading (format characters.flatten args) = some tokens) :
    readFrom reading (formats texts args) = some tokens := by
  rw [formats_literals characters hliterals, h]

/-- The lexer has reached this point of the text with holes. -/
inductive Reading.Reached : Reading → Lexer → Prop
  | lexer (state : Lexer) : Reading.Reached (.lexer state) state
  | int {value : Int64} {negative : Bool} {digits : List Char}
      (htoken : intToken negative digits = .int value) :
      Reading.Reached (.int value) (.number negative digits)

theorem lexFrom_cons (state : Lexer) (c : Char) (rest : List Char) :
    lexFrom state (c :: rest) = (lexChar state c).2 ++ lexFrom (lexChar state c).1 rest := rfl

/-- More digits. -/
theorem lexFrom_digits (negative : Bool) (digits : List Char) {more : List Char}
    (hmore : ∀ c ∈ more, c.isDigit = true) (rest : List Char) :
    lexFrom (.number negative digits) (more ++ rest) =
      lexFrom (.number negative (digits ++ more)) rest := by
  induction more generalizing digits with
  | nil => rw [List.nil_append, List.append_nil]
  | cons c more ih =>
    have hdigit := hmore c List.mem_cons_self
    rw [List.cons_append, lexFrom_cons, lexChar, if_pos hdigit, List.nil_append,
      ih (digits ++ [c]) fun d hd ↦ hmore d (List.mem_cons_of_mem c hd), List.append_assoc,
      List.singleton_append]

/-- Characters other than a quote, in a literal. -/
theorem lexFrom_quote (text : List Char) {more : List Char} (hmore : '\'' ∉ more)
    (rest : List Char) :
    lexFrom (.quote text) (more ++ rest) = lexFrom (.quote (text ++ more)) rest := by
  induction more generalizing text with
  | nil => rw [List.nil_append, List.append_nil]
  | cons c more ih =>
    have hne : c ≠ '\'' := fun h ↦ hmore (h ▸ List.mem_cons_self)
    rw [List.cons_append, lexFrom_cons, lexChar, if_neg hne, List.nil_append,
      ih (text ++ [c]) fun h ↦ hmore (List.mem_cons_of_mem c h), List.append_assoc,
      List.singleton_append]

/-- A printed integer is a sign and digits. -/
theorem lexFrom_printInt (value : Int64) : ∃ negative digits,
    intToken negative digits = .int value ∧
      ∀ rest, lexFrom .start (printInt value.toInt ++ rest) =
        lexFrom (.number negative digits) rest := by
  have hlower := value.le_toInt
  have hupper := value.toInt_lt
  have hround (number : ℕ) : Nat.ofDigitChars 10 (printNat number) 0 = number :=
    Nat.ofDigitChars_ten_toDigits
  by_cases hsign : 0 ≤ value.toInt
  · refine ⟨false, printNat value.toInt.toNat, ?_, fun rest ↦ ?_⟩
    · have hvalue : ((value.toInt.toNat : ℕ) : ℤ) = value.toInt := Int.toNat_of_nonneg hsign
      simp only [intToken, hround, hvalue, Bool.false_eq_true, if_false]
      rw [if_pos ⟨hlower, hupper⟩, Int64.ofInt_toInt]
    · rw [printInt, if_pos hsign]
      cases hprint : printNat value.toInt.toNat with
      | nil => exact absurd hprint (printNat_ne_nil _)
      | cons c more =>
        have hdigits : ∀ d ∈ c :: more, d.isDigit = true :=
          fun d hd ↦ isDigit_of_mem_printNat (hprint ▸ hd)
        have hdigit := hdigits c List.mem_cons_self
        have hquote : c ≠ '\'' := by rintro rfl; exact absurd hdigit (by decide)
        rw [List.cons_append, lexFrom_cons, lexChar, lexStart, if_neg hquote,
          if_neg (ne_of_isDigit hdigit).2.1, if_pos hdigit, List.nil_append,
          lexFrom_digits false [c] fun d hd ↦ hdigits d (List.mem_cons_of_mem c hd)]
        rfl
  · refine ⟨true, printNat (-value.toInt).toNat, ?_, fun rest ↦ ?_⟩
    · have hvalue : -(((-value.toInt).toNat : ℕ) : ℤ) = value.toInt := by omega
      simp only [intToken, hround, hvalue, if_true]
      rw [if_pos ⟨hlower, hupper⟩, Int64.ofInt_toInt]
    · rw [printInt, if_neg hsign]
      cases hprint : printNat (-value.toInt).toNat with
      | nil => exact absurd hprint (printNat_ne_nil _)
      | cons c more =>
        have hdigits : ∀ d ∈ c :: more, d.isDigit = true :=
          fun d hd ↦ isDigit_of_mem_printNat (hprint ▸ hd)
        have hstart : lexChar .start '-' = (.minus, []) := rfl
        have hfirst : lexChar .minus c = (.number true [c], []) :=
          if_pos (hdigits c List.mem_cons_self)
        rw [List.cons_append, lexFrom_cons, hstart, List.nil_append, List.cons_append, lexFrom_cons, hfirst,
          List.nil_append,
          lexFrom_digits true [c] fun d hd ↦ hdigits d (List.mem_cons_of_mem c hd)]
        rfl

/-- A printed integer holds no quote. -/
theorem quote_notMem_printInt (value : ℤ) : '\'' ∉ printInt value := by
  intro h
  rcases isDigit_or_eq_of_mem_printInt h with hdigit | hminus
  · exact absurd hdigit (by decide)
  · exact absurd hminus (by decide)

/-- The texts among the pieces hold no quote. -/
def QuoteFree (pieces : List Piece) : Prop := ∀ value, .text value ∈ pieces → '\'' ∉ value

theorem QuoteFree.append {first second : List Piece} (hfirst : QuoteFree first)
    (hsecond : QuoteFree second) : QuoteFree (first ++ second) := by
  intro value hvalue
  rcases List.mem_append.mp hvalue with h | h
  · exact hfirst value h
  · exact hsecond value h

theorem QuoteFree.flatMap {Item : Type*} {items : List Item} {parts : Item → List Piece}
    (hitems : ∀ item ∈ items, QuoteFree (parts item)) : QuoteFree (items.flatMap parts) := by
  intro value hvalue
  obtain ⟨item, hitem, hmem⟩ := List.mem_flatMap.mp hvalue
  exact hitems item hitem value hmem

theorem QuoteFree.text {value : List Char} (hvalue : '\'' ∉ value) : QuoteFree [.text value] := by
  intro other hother
  rw [List.mem_singleton, Piece.text.injEq] at hother
  exact hother ▸ hvalue

theorem QuoteFree.char (c : Char) : QuoteFree [.char c] := by
  intro value hvalue
  rw [List.mem_singleton] at hvalue
  cases hvalue

/-- The texts of a format are among its arguments. -/
theorem quoteFree_format {text : List Char} {args : List Arg}
    (hargs : ∀ value, .s value ∈ args → '\'' ∉ value) : QuoteFree (format text args) := by
  fun_induction format text args with
  | case1 rest value args ih =>
    intro found hfound
    rw [List.mem_cons] at hfound
    exact ih (fun value h ↦ hargs value (List.mem_cons_of_mem _ h)) found
      (hfound.resolve_left (by simp))
  | case2 rest value args ih =>
    intro found hfound
    rw [List.mem_cons] at hfound
    exact ih (fun value h ↦ hargs value (List.mem_cons_of_mem _ h)) found
      (hfound.resolve_left (by simp))
  | case3 rest printed args ih =>
    intro found hfound
    rw [List.mem_cons] at hfound
    rcases hfound with heq | hmem
    · rw [Piece.text.injEq] at heq
      exact heq ▸ hargs printed List.mem_cons_self
    · exact ih (fun value h ↦ hargs value (List.mem_cons_of_mem _ h)) found hmem
  | case4 args c rest _ _ _ ih =>
    intro found hfound
    rw [List.mem_cons] at hfound
    exact ih hargs found (hfound.resolve_left (by simp))
  | case5 args =>
    intro found hfound
    cases hfound

/-- Literals and integers hold no quote. -/
theorem quoteFree_of_noText {text : List Char} {args : List Arg} (hargs : ∀ value, .s value ∉ args) :
    QuoteFree (format text args) :=
  quoteFree_format fun value h ↦ absurd h (hargs value)

/-- Reading one piece and lexing its characters reach the same point. -/
theorem lexFrom_piece {reading next : Reading} {state : Lexer} {piece : Piece} {out : List Token}
    (hreached : reading.Reached state) (hread : readPiece reading piece = some (next, out))
    (hfree : ∀ value, piece = .text value → '\'' ∉ value) : ∃ after, next.Reached after ∧
      ∀ rest, lexFrom state (piece.print ++ rest) = out ++ lexFrom after rest := by
  cases hreached with
  | lexer state =>
    cases piece with
    | char c =>
      rw [readPiece, Option.some.injEq, Prod.mk.injEq] at hread
      obtain ⟨rfl, rfl⟩ := hread
      exact ⟨_, .lexer _, fun rest ↦ rfl⟩
    | int value =>
      cases state with
      | start =>
        rw [readPiece, Option.some.injEq, Prod.mk.injEq] at hread
        obtain ⟨rfl, rfl⟩ := hread
        obtain ⟨negative, digits, htoken, hlex⟩ := lexFrom_printInt value
        exact ⟨_, .int htoken, hlex⟩
      | quote text =>
        rw [readPiece, Option.some.injEq, Prod.mk.injEq] at hread
        obtain ⟨rfl, rfl⟩ := hread
        exact ⟨_, .lexer _, lexFrom_quote text (quote_notMem_printInt _)⟩
      | word text => cases hread
      | minus => cases hread
      | number negative digits => cases hread
      | closed text => cases hread
    | text value =>
      cases state with
      | quote text =>
        rw [readPiece, Option.some.injEq, Prod.mk.injEq] at hread
        obtain ⟨rfl, rfl⟩ := hread
        exact ⟨_, .lexer _, lexFrom_quote text (hfree value rfl)⟩
      | start => cases hread
      | word text => cases hread
      | minus => cases hread
      | number negative digits => cases hread
      | closed text => cases hread
  | @int value negative digits htoken =>
    cases piece with
    | char c =>
      rw [readPiece] at hread
      split at hread
      case isTrue => cases hread
      case isFalse hword =>
        rw [Option.some.injEq, Prod.mk.injEq] at hread
        obtain ⟨rfl, rfl⟩ := hread
        have hdigit : ¬ c.isDigit = true := by
          intro h
          exact hword (by simp [isWord, Char.isAlphanum, h])
        refine ⟨_, .lexer _, fun rest ↦ ?_⟩
        rw [Piece.print, List.singleton_append, lexFrom_cons, lexChar, if_neg hdigit, if_neg hword,
          Lexer.flush, Lexer.emit, htoken, List.singleton_append]
    | int other => cases hread
    | text text => cases hread

theorem lexFrom_print {reading : Reading} {state : Lexer} {pieces : List Piece}
    {tokens : List Token} (hreached : reading.Reached state) (hfree : QuoteFree pieces)
    (hread : readFrom reading pieces = some tokens) :
    lexFrom state (print pieces) = tokens := by
  induction pieces generalizing reading state tokens with
  | nil =>
    cases hreached with
    | lexer state => exact Option.some.inj hread
    | int htoken =>
      rw [readFrom, Option.some.injEq] at hread
      rw [← hread, print, List.flatMap_nil, lexFrom, Lexer.emit, htoken]
  | cons piece pieces ih =>
    rw [readFrom_cons, Option.bind_eq_some_iff] at hread
    obtain ⟨⟨next, out⟩, hpiece, hrest⟩ := hread
    rw [Option.bind_eq_some_iff] at hrest
    obtain ⟨others, hothers, heq⟩ := hrest
    rw [Option.some.injEq] at heq
    obtain ⟨after, hafter, hlex⟩ := lexFrom_piece hreached hpiece
      fun value h ↦ hfree value (h ▸ List.mem_cons_self)
    have htail := ih hafter (fun value h ↦ hfree value (List.mem_cons_of_mem piece h)) hothers
    calc lexFrom state (print (piece :: pieces)) = out ++ lexFrom after (print pieces) := hlex _
      _ = out ++ others := by rw [htail]
      _ = tokens := heq

/-- The tokens of a printed text are those of its format, with the arguments in their places. -/
theorem lex_print {pieces : List Piece} {tokens : List Token} (hfree : QuoteFree pieces)
    (hread : readFrom (.lexer .start) pieces = some tokens) : lex (print pieces) = tokens :=
  lexFrom_print (.lexer .start) hfree hread

end LibTg.Sql
