import Mathlib.Data.List.TakeWhile

/-!
# Tokens

A tokeniser cuts a text at the items that a predicate marks as delimiters, and drops empty pieces.
`strtok` finds one token at a time and leaves the rest of the text for the next call; `tokens` is what
a loop over all calls sees. Tokenising the tokens of a text once more is the same as tokenising the
text with both sets of delimiters.
-/

namespace LibTg

variable {Item : Type*}

/-- One call of a tokeniser: the next token, and the text behind the delimiter that ends it. -/
def strtok (delim : Item → Bool) (text : List Item) : Option (List Item) × List Item :=
  match text.dropWhile delim with
  | [] => (none, [])
  | first :: rest =>
    (some ((first :: rest).takeWhile (! delim ·)), ((first :: rest).dropWhile (! delim ·)).tail)

/-- The tokens that at most `fuel` calls find. -/
def strtokForeach (delim : Item → Bool) : ℕ → List Item → List (List Item)
  | 0, _ => []
  | fuel + 1, text =>
    match strtok delim text with
    | (none, _) => []
    | (some token, rest) => token :: strtokForeach delim fuel rest

def tokens (delim : Item → Bool) (text : List Item) : List (List Item) :=
  (text.splitOnP delim).filter (! ·.isEmpty)

variable {delim : Item → Bool}

/-- A text is free of delimiters, or it has a first one. -/
theorem delim_induction (delim : Item → Bool) {motive : List Item → Prop}
    (free : ∀ text, (∀ item ∈ text, delim item = false) → motive text)
    (cut : ∀ front item text, (∀ item ∈ front, delim item = false) → delim item = true →
      motive text → motive (front ++ item :: text)) (text : List Item) : motive text := by
  suffices h : ∀ front, (∀ item ∈ front, delim item = false) → motive (front ++ text) from
    h [] (fun _ hmem ↦ absurd hmem List.not_mem_nil)
  induction text with
  | nil =>
    intro front hfront
    rw [List.append_nil]
    exact free front hfront
  | cons item rest ih =>
    intro front hfront
    cases hitem : delim item with
    | true =>
      apply cut front item rest hfront hitem
      exact ih [] (fun _ hmem ↦ absurd hmem List.not_mem_nil)
    | false =>
      rw [List.append_cons]
      apply ih
      intro other hmem
      rcases List.mem_append.mp hmem with hmem | hmem
      · exact hfront other hmem
      · rw [List.mem_singleton.mp hmem]
        exact hitem

/-! ## The tokens of a composed text -/

theorem tokens_nil : tokens delim [] = [] := rfl

theorem tokens_append_cons (front text : List Item) {item : Item} (hitem : delim item = true) :
    tokens delim (front ++ item :: text) = tokens delim front ++ tokens delim text := by
  rw [tokens, List.splitOnP_append_cons _ _ hitem, List.filter_append]
  rfl

theorem tokens_cons (text : List Item) {item : Item} (hitem : delim item = true) :
    tokens delim (item :: text) = tokens delim text :=
  tokens_append_cons [] text hitem

theorem tokens_of_free {text : List Item} (hne : text ≠ [])
    (hfree : ∀ item ∈ text, delim item = false) : tokens delim text = [text] := by
  rw [tokens, List.splitOnP_eq_singleton hfree]
  simp [hne]

theorem tokens_free_append_cons {front : List Item} (text : List Item) {item : Item}
    (hne : front ≠ []) (hfree : ∀ item ∈ front, delim item = false) (hitem : delim item = true) :
    tokens delim (front ++ item :: text) = front :: tokens delim text := by
  rw [tokens_append_cons front text hitem, tokens_of_free hne hfree, List.singleton_append]

/-- What stands at the front of the first token. -/
theorem tokens_free_append {front : List Item} (text : List Item) (hne : front ≠ [])
    (hfree : ∀ item ∈ front, delim item = false) :
    ∃ more rest, tokens delim (front ++ text) = (front ++ more) :: rest := by
  have hfront {more : List Item} (hmore : ∀ item ∈ more, delim item = false) :
      ∀ item ∈ front ++ more, delim item = false := by
    intro item hmem
    exact (List.mem_append.mp hmem).elim (hfree item) (hmore item)
  induction text using delim_induction delim with
  | free text htext =>
    exact ⟨text, [], tokens_of_free (List.append_ne_nil_of_left_ne_nil hne text) (hfront htext)⟩
  | cut more item text hmore hitem _ =>
    refine ⟨more, tokens delim text, ?_⟩
    rw [← List.append_assoc]
    exact tokens_free_append_cons text (List.append_ne_nil_of_left_ne_nil hne more) (hfront hmore)
      hitem

/-- Texts that all begin with a delimiter are tokenised one by one. -/
theorem tokens_append_flatMap {item : Item} (hitem : delim item = true) (front : List Item)
    (pieces : List (List Item)) :
    tokens delim (front ++ pieces.flatMap (item :: ·)) =
      tokens delim front ++ pieces.flatMap (tokens delim) := by
  induction pieces generalizing front with
  | nil => simp [List.flatMap_nil]
  | cons piece pieces ih =>
    rw [List.flatMap_cons, List.cons_append, tokens_append_cons _ _ hitem, ih, List.flatMap_cons]

/-- A text without delimiters has no token but itself. -/
theorem eq_of_mem_tokens_of_free {text token : List Item}
    (hfree : ∀ item ∈ text, delim item = false) (hmem : token ∈ tokens delim text) :
    token = text := by
  rw [tokens, List.splitOnP_eq_singleton hfree] at hmem
  exact List.mem_singleton.mp (List.mem_filter.mp hmem).1

/-- A token is a part of its text. -/
theorem isInfix_of_mem_tokens {text token : List Item} (hmem : token ∈ tokens delim text) :
    token <:+: text := by
  induction text using delim_induction delim with
  | free text hfree =>
    exact (eq_of_mem_tokens_of_free hfree hmem) ▸ List.infix_rfl
  | cut front item text hfree hitem ih =>
    rw [tokens_append_cons _ _ hitem, List.mem_append] at hmem
    rcases hmem with hfront | hrest
    · rw [eq_of_mem_tokens_of_free hfree hfront]
      exact (List.prefix_append _ _).isInfix
    · exact (ih hrest).trans ((List.suffix_cons _ _).trans (List.suffix_append _ _)).isInfix

theorem splitOnP_congr {first second : Item → Bool} {text : List Item}
    (h : ∀ item ∈ text, first item = second item) : text.splitOnP first = text.splitOnP second := by
  induction text with
  | nil => rfl
  | cons item rest ih =>
    obtain ⟨hitem, hrest⟩ := List.forall_mem_cons.mp h
    rw [List.splitOnP_cons_eq_if_modifyHead, List.splitOnP_cons_eq_if_modifyHead, hitem, ih hrest]

theorem tokens_congr {first second : Item → Bool} {text : List Item}
    (h : ∀ item ∈ text, first item = second item) : tokens first text = tokens second text := by
  rw [tokens, tokens, splitOnP_congr h]

theorem tokens_flatMap_of_free (inner : Item → Bool) {text : List Item}
    (hfree : ∀ item ∈ text, delim item = false) :
    (tokens delim text).flatMap (tokens inner) =
      tokens (fun item ↦ delim item || inner item) text := by
  have hinner : tokens (fun item ↦ delim item || inner item) text = tokens inner text := by
    apply tokens_congr
    intro item hmem
    rw [hfree item hmem, Bool.false_or]
  rw [hinner]
  by_cases hnil : text = []
  · rw [hnil]
    rfl
  · rw [tokens_of_free hnil hfree, List.flatMap_singleton]

/-- Tokens of tokens. -/
theorem tokens_flatMap_tokens (inner : Item → Bool) (text : List Item) :
    (tokens delim text).flatMap (tokens inner) =
      tokens (fun item ↦ delim item || inner item) text := by
  induction text using delim_induction delim with
  | free text hfree => exact tokens_flatMap_of_free inner hfree
  | cut front item text hfree hitem ih =>
    have hboth : (delim item || inner item) = true := by rw [hitem, Bool.true_or]
    calc (tokens delim (front ++ item :: text)).flatMap (tokens inner)
        = (tokens delim front).flatMap (tokens inner) ++
            (tokens delim text).flatMap (tokens inner) := by
          rw [tokens_append_cons _ _ hitem, List.flatMap_append]
      _ = tokens (fun item ↦ delim item || inner item) front ++
            tokens (fun item ↦ delim item || inner item) text := by
          rw [tokens_flatMap_of_free inner hfree, ih]
      _ = tokens (fun item ↦ delim item || inner item) (front ++ item :: text) :=
          (tokens_append_cons front text hboth).symm

/-! ## Single calls -/

theorem strtok_cons (rest : List Item) {item : Item} (hitem : delim item = true) :
    strtok delim (item :: rest) = strtok delim rest := by
  rw [strtok, List.dropWhile_cons, if_pos hitem]
  rfl

/-- The last token. -/
theorem strtok_of_free {text : List Item} (hne : text ≠ [])
    (hfree : ∀ item ∈ text, delim item = false) : strtok delim text = (some text, []) := by
  cases text with
  | nil => exact absurd rfl hne
  | cons first rest =>
    have htoken : (first :: rest).takeWhile (! delim ·) = first :: rest := by
      apply List.takeWhile_eq_self_iff.mpr
      intro item hmem
      rw [hfree item hmem]
      rfl
    have hafter : (first :: rest).dropWhile (! delim ·) = [] := by
      apply List.dropWhile_eq_nil_iff.mpr
      intro item hmem
      rw [hfree item hmem]
      rfl
    rw [strtok, List.dropWhile_cons, hfree first List.mem_cons_self, if_neg Bool.false_ne_true]
    dsimp only
    rw [htoken, hafter, List.tail_nil]

/-- A token with a delimiter behind it. -/
theorem strtok_append_cons {front : List Item} (rest : List Item) {item : Item} (hne : front ≠ [])
    (hfree : ∀ item ∈ front, delim item = false) (hitem : delim item = true) :
    strtok delim (front ++ item :: rest) = (some front, rest) := by
  cases front with
  | nil => exact absurd rfl hne
  | cons first others =>
    have hnot : ∀ other ∈ first :: others, (! delim other) = true := by
      intro other hmem
      rw [hfree other hmem]
      rfl
    have htoken : (first :: others ++ item :: rest).takeWhile (! delim ·) = first :: others := by
      rw [List.takeWhile_append_of_pos hnot, List.takeWhile_cons, hitem]
      exact List.append_nil _
    have hafter : (first :: others ++ item :: rest).dropWhile (! delim ·) = item :: rest := by
      rw [List.dropWhile_append_of_pos hnot, List.dropWhile_cons, hitem]
      rfl
    rw [strtok, List.cons_append, List.dropWhile_cons, hfree first List.mem_cons_self,
      if_neg Bool.false_ne_true]
    dsimp only
    rw [← List.cons_append, htoken, hafter, List.tail_cons]

/-! ## The loop finds all tokens -/

/-- What one call does. -/
theorem strtok_cases (delim : Item → Bool) (text : List Item) :
    (strtok delim text = (none, []) ∧ tokens delim text = []) ∨
      ∃ token rest, strtok delim text = (some token, rest) ∧
        tokens delim text = token :: tokens delim rest ∧ rest.length < text.length := by
  induction text using delim_induction delim with
  | free text hfree =>
    by_cases hnil : text = []
    · rw [hnil]
      exact Or.inl ⟨rfl, rfl⟩
    · right
      refine ⟨text, [], strtok_of_free hnil hfree, ?_, List.length_pos_iff.mpr hnil⟩
      rw [tokens_of_free hnil hfree, tokens_nil]
  | cut front item text hfree hitem ih =>
    by_cases hnil : front = []
    · rw [hnil, List.nil_append, strtok_cons text hitem, tokens_cons text hitem, List.length_cons]
      rcases ih with hnone | ⟨token, rest, hcall, hcons, hlength⟩
      · exact Or.inl hnone
      · exact Or.inr ⟨token, rest, hcall, hcons, by omega⟩
    · right
      refine ⟨front, text, strtok_append_cons text hnil hfree hitem,
        tokens_free_append_cons text hnil hfree hitem, ?_⟩
      rw [List.length_append, List.length_cons]
      omega

theorem strtokForeach_eq_tokens (fuel : ℕ) (text : List Item) (hfuel : text.length < fuel) :
    strtokForeach delim fuel text = tokens delim text := by
  induction fuel generalizing text with
  | zero => exact absurd hfuel (Nat.not_lt_zero _)
  | succ fuel ih =>
    rcases strtok_cases delim text with ⟨hcall, hnil⟩ | ⟨token, rest, hcall, hcons, hlength⟩
    · rw [strtokForeach, hcall, hnil]
    · rw [strtokForeach, hcall, hcons]
      dsimp only
      rw [ih rest (by omega)]

/-! ## Parts of a composed text -/

theorem isPrefix_of_append_cons {part front text : List Item} {item : Item} (hitem : item ∉ part)
    (h : part <+: front ++ item :: text) : part <+: front := by
  induction front generalizing part with
  | nil =>
    cases part with
    | nil => exact List.nil_prefix
    | cons first rest =>
      have hfirst : first = item := (List.cons_prefix_cons.mp h).1
      exact absurd (hfirst ▸ List.mem_cons_self) hitem
  | cons other front ih =>
    cases part with
    | nil => exact List.nil_prefix
    | cons first rest =>
      obtain ⟨hfirst, hrest⟩ := List.cons_prefix_cons.mp h
      apply List.cons_prefix_cons.mpr
      exact ⟨hfirst, ih (fun hmem ↦ hitem (List.mem_cons_of_mem _ hmem)) hrest⟩

/-- A part without a certain item does not reach over that item. -/
theorem isInfix_of_append_cons {part front text : List Item} {item : Item} (hitem : item ∉ part)
    (h : part <:+: front ++ item :: text) : part <:+: front ∨ part <:+: text := by
  induction front with
  | nil =>
    rcases List.infix_cons_iff.mp h with hstart | hinfix
    · have hall : part <+: [] ++ item :: text := hstart
      exact Or.inl (isPrefix_of_append_cons hitem hall).isInfix
    · exact Or.inr hinfix
  | cons other front ih =>
    rcases List.infix_cons_iff.mp h with hstart | hinfix
    · have hall : part <+: (other :: front) ++ item :: text := hstart
      exact Or.inl (isPrefix_of_append_cons hitem hall).isInfix
    · rcases ih hinfix with hfront | htext
      · exact Or.inl (hfront.trans (List.suffix_cons _ _).isInfix)
      · exact Or.inr htext

/-- The same for texts that all begin with the item. -/
theorem isInfix_of_append_flatMap {part front : List Item} {item : Item} (hitem : item ∉ part)
    {pieces : List (List Item)} (h : part <:+: front ++ pieces.flatMap (item :: ·)) :
    part <:+: front ∨ ∃ piece ∈ pieces, part <:+: piece := by
  induction pieces generalizing front with
  | nil =>
    rw [List.flatMap_nil, List.append_nil] at h
    exact Or.inl h
  | cons piece pieces ih =>
    rw [List.flatMap_cons, List.cons_append] at h
    rcases isInfix_of_append_cons hitem h with hfront | hrest
    · exact Or.inl hfront
    · rcases ih hrest with hpiece | ⟨later, hmem, hlater⟩
      · exact Or.inr ⟨piece, List.mem_cons_self, hpiece⟩
      · exact Or.inr ⟨later, List.mem_cons_of_mem _ hmem, hlater⟩

end LibTg
