import Ventilation.Proofs.Formula.Composition
import Ventilation.Proofs.Formula.Language

/-!
# Tokens written one after another

A text may be written from tokens with blanks between them or none. It is split into the same tokens
again unless two of them run together, `splits_of_written`: the later one begins with a character
that the earlier one would take in. In a phrase no two tokens do.
-/

set_option autoImplicit false
set_option relaxedAutoImplicit false

namespace Ventilation.Formula

open Text

/-- The tokens in order, with any blanks before, between and after them. -/
inductive Written : List Char → List Token → Prop
  | nil : Written [] []
  | blank {c : Char} {cs : List Char} {tokens : List Token} (hc : isBlank c = true)
    (h : Written cs tokens) : Written (c :: cs) tokens
  | token {spelling rest : List Char} {token : Token} {tokens : List Token}
    (hspells : Spells spelling token) (h : Written rest tokens) :
    Written (spelling ++ rest) (token :: tokens)

theorem exists_written {tokens : List Token}
    (h : ∀ token ∈ tokens, ∃ spelling, Spells spelling token) : ∃ cs, Written cs tokens := by
  induction tokens with
  | nil => exact ⟨[], .nil⟩
  | cons token tokens ih =>
    obtain ⟨⟨spelling, hspells⟩, htokens⟩ := List.forall_mem_cons.1 h
    obtain ⟨cs, hcs⟩ := ih htokens
    exact ⟨spelling ++ cs, .token hspells hcs⟩

theorem written_of_splits {cs : List Char} {tokens : List Token} (h : Splits cs tokens) :
    Written cs tokens := by
  induction h with
  | nil => exact .nil
  | blank hc _ ih => exact .blank hc ih
  | token hspells _ _ ih => exact .token hspells ih

/-- What was cut off the front of a text is written there, whatever stops the text further on. -/
theorem exists_written_of_prefix {position : ℕ} {cs : List Char} {tokens : List Token}
    (h : tokens <+: (lex position cs).tokens) :
    ∃ front back, cs = front ++ back ∧ Written front tokens := by
  revert h tokens
  refine lex_induction (motive := fun cs lexed ↦ ∀ {tokens}, tokens <+: lexed.tokens →
    ∃ front back, cs = front ++ back ∧ Written front tokens) ?_ ?_ ?_ ?_ position cs
  · intro tokens h
    exact ⟨[], [], rfl, List.prefix_nil.1 h ▸ .nil⟩
  · intro c cs lexed hc ih tokens h
    obtain ⟨front, back, rfl, hwritten⟩ := ih h
    exact ⟨c :: front, back, rfl, .blank hc hwritten⟩
  · intro position c cs e hl tokens h
    exact ⟨[], c :: cs, rfl, List.prefix_nil.1 h ▸ .nil⟩
  · intro position c cs l lexed hl ih tokens h
    cases tokens with
    | nil => exact ⟨[], c :: cs, rfl, .nil⟩
    | cons token tokens =>
      obtain ⟨rfl, hrest⟩ := List.cons_prefix_cons.1 h
      obtain ⟨front, back, hback, hwritten⟩ := ih hrest
      refine ⟨c :: cs.take l.more ++ front, back, ?_, .token (taken_of_lexeme hl).2 hwritten⟩
      rw [List.append_assoc, ← hback, List.cons_append, List.take_append_drop]

/-! ### Where a token ends -/

/-- The characters that would make a token longer if they followed it. -/
def Token.Takes : Token → Char → Prop
  | .number _, c => c.isDigit = true ∨ c ∈ ['.', 'e', 'E']
  | .identifier _, c => isIdentifierChar c = true
  | .star, c => c = '*'
  | .slash, c => c = '/'
  | _, _ => False

section

variable {c : Char} {more rest : List Char} {token : Token}

theorem numeralCount_append (h : IsNumeral (c :: more))
    (hrest : ∀ d ∈ rest.head?, ¬ (d.isDigit = true ∨ d ∈ ['.', 'e', 'E'])) :
    numeralCount (c :: (more ++ rest)) = more.length + 1 := by
  have hbegins := beginsNumeral_append (beginsNumeral_of_isNumeral h) rest
  obtain ⟨count, hcount, hle, hnumeral⟩ := exists_numeralCount_eq hbegins
  have hge := length_le_numeralCount h (List.prefix_append (c :: more) rest)
  rw [List.cons_append, hcount] at hge
  rw [hcount]
  refine congrArg (· + 1) (Nat.le_antisymm ?_ (Nat.le_of_succ_le_succ hge))
  by_contra hlt
  -- what is measured beyond the numeral begins with a character that may not follow
  obtain ⟨extra, rfl⟩ := Nat.exists_eq_add_of_lt (Nat.not_le.1 hlt)
  rw [Nat.add_assoc, List.take_length_add_append] at hnumeral
  cases rest with
  | nil =>
    rw [List.append_nil] at hle
    omega
  | cons d rest =>
    rw [List.take_succ_cons, ← List.cons_append] at hnumeral
    exact hrest d rfl (isDigit_or_mem_of_isNumeral h hnumeral)

/-- A token is read on its own if it takes in nothing of what follows it. -/
theorem lexeme_of_not_takes (h : Spells (c :: more) token)
    (hrest : ∀ d ∈ rest.head?, ¬ token.Takes d) (position : ℕ) :
    lexeme position c (more ++ rest) = .ok ⟨token, more.length⟩ := by
  cases h with
  | number h hvalue =>
    rw [lexeme_of_beginsNumeral (beginsNumeral_append (beginsNumeral_of_isNumeral h) rest)]
    refine numberLexeme_eq (numeralCount_append h hrest) ?_
    rwa [List.take_left]
  | identifier h =>
    obtain ⟨hname, hmore⟩ := beginsName_of_isIdentifier h
    have hstop : rest.takeWhile isIdentifierChar = [] := by
      cases rest with
      | nil => rfl
      | cons d rest => exact List.takeWhile_cons_of_neg (hrest d rfl)
    rw [lexeme_of_beginsName hname, List.takeWhile_append_of_pos hmore, hstop, List.append_nil]
  | @model body hbody hname =>
    have hmodel := modelLexeme_append hbody rest
    rw [if_neg fun hempty ↦ hname (List.isEmpty_iff.1 hempty)] at hmodel
    rw [List.append_assoc, List.singleton_append, List.length_append, List.length_singleton]
    exact hmodel
  | mark hmark => exact lexeme_of_mark hmark _ _
  | single hdoubled =>
    rw [List.nil_append, lexeme_of_doubled hdoubled, if_neg]
    · rfl
    · intro hhead
      refine hrest c hhead ?_
      cases hdoubled <;> rfl
  | double hdoubled =>
    rw [List.singleton_append, lexeme_of_doubled hdoubled, List.head?_cons, if_pos rfl]
    rfl

theorem isLongest_of_not_takes {spelling : List Char} (h : Spells spelling token)
    (hrest : ∀ d ∈ rest.head?, ¬ token.Takes d) : IsLongest spelling (spelling ++ rest) := by
  obtain ⟨c, more, rfl⟩ := List.exists_cons_of_ne_nil (ne_nil_of_spells h)
  have hlongest := isLongest_of_lexeme (lexeme_of_not_takes h hrest 0)
  rwa [List.take_left] at hlongest

end

/-! ### Tokens that run together -/

/-- Numbers and names. -/
def Token.isWord : Token → Bool
  | .number _ | .identifier _ => true
  | _ => false

/-- The second token may begin with a character that the first one takes in. -/
def joins : Token → Token → Bool
  | .number _, next | .identifier _, next => next.isWord
  | .star, .star | .star, .doubleStar => true
  | .slash, .slash | .slash, .doubleSlash => true
  | _, _ => false

section

variable {c : Char} {cs more : List Char} {token next : Token} {tokens : List Token}

theorem visible_of_takes (h : token.Takes c) : Visible c := by
  cases token with
  | number value =>
    rcases h with hdigit | hmark
    · exact visible_of_isDigit hdigit
    · have hmarks : ∀ c ∈ ['.', 'e', 'E'], Visible c := by simp [Visible]
      exact hmarks c hmark
  | identifier name => exact visible_of_isIdentifierChar h
  | star =>
    obtain rfl : c = '*' := h
    decide
  | slash =>
    obtain rfl : c = '/' := h
    decide
  | _ => exact h.elim

theorem eq_of_spells_doubled {one two : Token} (hdoubled : Doubled c one two)
    (h : Spells (c :: more) next) : next = one ∨ next = two := by
  cases h with
  | number h _ =>
    exact absurd hdoubled ((isPlain_of_beginsNumeral (beginsNumeral_of_isNumeral h)).2.1 one two)
  | identifier h =>
    exact absurd hdoubled ((isPlain_of_beginsName (beginsName_of_isIdentifier h).1).2.1 one two)
  | model _ _ => cases hdoubled
  | mark hmark => cases hmark <;> cases hdoubled
  | single hother =>
    cases hother <;> (cases hdoubled; exact .inl rfl)
  | double hother =>
    cases hother <;> (cases hdoubled; exact .inr rfl)

theorem not_word_of_spells (hnext : next.isWord = false) (h : Spells (c :: more) next) :
    isIdentifierChar c = false ∧ c ≠ '.' := by
  cases h with
  | number _ _ => cases hnext
  | identifier _ => cases hnext
  | model _ _ => decide
  | mark hmark => cases hmark <;> decide
  | single hdoubled => cases hdoubled <;> decide
  | double hdoubled => cases hdoubled <;> decide

theorem isIdentifierChar_of_takes_number {value : Float} (h : (Token.number value).Takes c) :
    isIdentifierChar c = true ∨ c = '.' := by
  rcases h with hdigit | hmark
  · left
    unfold isIdentifierChar Char.isAlphanum
    rw [hdigit, Bool.or_true, Bool.true_or]
  · have hmarks : ∀ c ∈ ['.', 'e', 'E'], isIdentifierChar c = true ∨ c = '.' := by
      simp [isIdentifierChar]
    exact hmarks c hmark

theorem not_takes_of_joins (hjoins : joins token next = false) (h : Spells (c :: more) next) :
    ¬ token.Takes c := by
  intro htakes
  cases token with
  | number value =>
    obtain ⟨hchar, hpoint⟩ := not_word_of_spells hjoins h
    rcases isIdentifierChar_of_takes_number htakes with htrue | rfl
    · exact Bool.false_ne_true (hchar.symm.trans htrue)
    · exact hpoint rfl
  | identifier name =>
    exact Bool.false_ne_true ((not_word_of_spells hjoins h).1.symm.trans htakes)
  | star =>
    obtain rfl : c = '*' := htakes
    rcases eq_of_spells_doubled .star h with rfl | rfl <;> cases hjoins
  | slash =>
    obtain rfl : c = '/' := htakes
    rcases eq_of_spells_doubled .slash h with rfl | rfl <;> cases hjoins
  | _ => exact htakes

theorem head_of_written (h : Written cs tokens) :
    ∀ c ∈ cs.head?,
      isBlank c = true ∨ ∃ token ∈ tokens.head?, ∃ more, Spells (c :: more) token := by
  intro c hc
  cases h with
  | nil => cases hc
  | blank hblank _ =>
    obtain rfl := Option.some.inj hc
    exact .inl hblank
  | token hspells _ =>
    obtain ⟨d, more, rfl⟩ := List.exists_cons_of_ne_nil (ne_nil_of_spells hspells)
    obtain rfl := Option.some.inj hc
    exact .inr ⟨_, rfl, more, hspells⟩

/-- A text is split into the tokens that it was written from. -/
theorem splits_of_written (h : Written cs tokens)
    (hchain : tokens.IsChain fun token next ↦ joins token next = false) : Splits cs tokens := by
  induction h with
  | nil => exact .nil
  | blank hc _ ih => exact .blank hc (ih hchain)
  | @token spelling rest token tokens hspells hrest ih =>
    obtain ⟨hnext, hchain⟩ := List.isChain_cons.1 hchain
    refine .token hspells (isLongest_of_not_takes hspells fun d hd ↦ ?_) (ih hchain)
    rcases head_of_written hrest d hd with hblank | ⟨next, hmem, more, hspells⟩
    · intro htakes
      exact absurd hblank (Bool.eq_false_iff.1 (isBlank_of_visible (visible_of_takes htakes)))
    · exact not_takes_of_joins (hnext next hmem) hspells

/-! ### The tokens of a phrase -/

/-- A phrase may end with the token. -/
def Token.closes : Token → Bool
  | .number _ | .identifier _ | .model _ | .rightParen => true
  | _ => false

/-- A phrase may begin with the token. -/
def Token.opens : Token → Bool
  | .number _ | .identifier _ | .model _ | .leftParen | .plus | .minus => true
  | _ => false

/-- No two tokens side by side run together, and the tokens begin and end as a phrase does. -/
structure Spaced (tokens : List Token) : Prop where
  chain : tokens.IsChain fun token next ↦ joins token next = false
  opens : ∃ token ∈ tokens.head?, token.opens = true
  closes : ∃ token ∈ tokens.getLast?, token.closes = true

theorem joins_of_closes (hcloses : token.closes = true) (hnext : next.isWord = false) :
    joins token next = false := by
  cases token <;> first | rfl | exact hnext | cases hcloses

theorem joins_rightParen (token : Token) : joins token .rightParen = false := by
  cases token <;> rfl

theorem isWord_of_infixToken {op : Operator} (h : InfixToken token op) : token.isWord = false := by
  cases h with
  | additive h => cases h <;> rfl
  | multiplicative h => cases h <;> rfl
  | power => rfl

theorem joins_of_infixToken {op : Operator} (h : InfixToken token op) (hnext : next.opens = true) :
    joins token next = false := by
  cases h with
  | additive h => cases h <;> rfl
  | multiplicative h => cases h <;> (cases next <;> first | rfl | cases hnext)
  | power => rfl

namespace Spaced

variable {others : List Token}

theorem singleton (hopens : token.opens = true) (hcloses : token.closes = true) :
    Spaced [token] :=
  ⟨.singleton token, ⟨token, rfl, hopens⟩, ⟨token, rfl, hcloses⟩⟩

theorem chain_cons (h : Spaced tokens)
    (hjoins : ∀ next, next.opens = true → joins token next = false) :
    (token :: tokens).IsChain fun token next ↦ joins token next = false := by
  obtain ⟨first, hfirst, hopen⟩ := h.opens
  refine List.isChain_cons.2 ⟨fun next hnext ↦ ?_, h.chain⟩
  obtain rfl := Option.some.inj (hfirst.symm.trans hnext)
  exact hjoins first hopen

theorem cons (h : Spaced tokens) (hopens : token.opens = true)
    (hjoins : ∀ next, next.opens = true → joins token next = false) : Spaced (token :: tokens) := by
  obtain ⟨last, hlast, hclose⟩ := h.closes
  exact ⟨h.chain_cons hjoins, ⟨token, rfl, hopens⟩, last, List.mem_getLast?_cons hlast, hclose⟩

theorem around (hleft : Spaced tokens) (hright : Spaced others) (hword : token.isWord = false)
    (hjoins : ∀ next, next.opens = true → joins token next = false) :
    Spaced (tokens ++ token :: others) := by
  obtain ⟨first, hfirst, hopen⟩ := hleft.opens
  obtain ⟨last, hlast, hclose⟩ := hleft.closes
  obtain ⟨final, hfinal, hcloses⟩ := hright.closes
  refine ⟨List.isChain_append.2 ⟨hleft.chain, hright.chain_cons hjoins, ?_⟩,
    ⟨first, List.mem_head?_append_of_mem_head? hfirst, hopen⟩,
    final, List.mem_getLast?_append_of_mem_getLast? (List.mem_getLast?_cons hfinal), hcloses⟩
  intro before hbefore next hnext
  obtain rfl := Option.some.inj (hlast.symm.trans hbefore)
  obtain rfl := Option.some.inj hnext
  exact joins_of_closes hclose hword

theorem enclosed (h : Spaced tokens) : Spaced (.leftParen :: (tokens ++ [.rightParen])) := by
  refine ⟨List.isChain_cons.2 ⟨fun _ _ ↦ rfl, List.isChain_append.2 ⟨h.chain, .singleton _, ?_⟩⟩,
    ⟨.leftParen, rfl, rfl⟩, .rightParen, ?_, rfl⟩
  · intro before _ next hnext
    obtain rfl := Option.some.inj hnext
    exact joins_rightParen before
  · rw [← List.cons_append, List.getLast?_concat]
    rfl

/-- A name does not run together with its parenthesis. -/
theorem called (name : String) (h : Spaced (.leftParen :: tokens)) :
    Spaced (.identifier name :: .leftParen :: tokens) := by
  obtain ⟨last, hlast, hclose⟩ := h.closes
  refine ⟨List.isChain_cons.2 ⟨fun next hnext ↦ ?_, h.chain⟩, ⟨_, rfl, rfl⟩,
    last, List.mem_getLast?_cons hlast, hclose⟩
  obtain rfl := Option.some.inj hnext
  rfl

theorem empty_parens : Spaced [.leftParen, .rightParen] :=
  ⟨List.isChain_cons.2 ⟨fun _ _ ↦ rfl, .singleton _⟩, ⟨.leftParen, rfl, rfl⟩, .rightParen, rfl, rfl⟩

end Spaced

end

theorem spaced_listed {tokens : List Token} {trees : List Expr}
    (h : Listed (fun tokens _ ↦ Spaced tokens) tokens trees) : Spaced tokens := by
  induction h with
  | single h => exact h
  | more h _ ih => exact h.around ih rfl fun _ _ ↦ rfl

/-- In a phrase no two tokens run together. -/
theorem isCompositional_spaced : IsCompositional fun tokens _ ↦ Spaced tokens where
  number _ := .singleton rfl rfl
  model _ := .singleton rfl rfl
  constant _ := .singleton rfl rfl
  var _ := .singleton rfl rfl
  callEmpty function := Spaced.empty_parens.called function
  call function _ _ h := (spaced_listed h).enclosed.called function
  group h := h.enclosed
  sign hsign _ _ h := by
    cases hsign <;> exact h.cons rfl fun _ _ ↦ rfl
  binary hop _ _ _ _ hleft hright :=
    hleft.around hright (isWord_of_infixToken hop) fun _ ↦ joins_of_infixToken hop

end Ventilation.Formula
