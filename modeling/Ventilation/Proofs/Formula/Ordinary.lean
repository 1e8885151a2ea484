import Ventilation.Proofs.Formula.Balance
import Ventilation.Proofs.Formula.Exclusion

/-!
# Ordinary formulas pass the screen

The screen looks for words and marks anywhere in a text, across its tokens. A formula without model
references that uses no names but those of the price variables, the constants and the functions has
none of the marks, and no forbidden word: two letters side by side always belong to one name, since
the longest name is taken and a number has at most one letter.
-/

set_option autoImplicit false
set_option relaxedAutoImplicit false

namespace Ventilation.Formula

open Text

/-- The names that a formula finds bound: prices, sizes, constants and functions. -/
def ordinaryNames : List String :=
  ["TB", "WD", "BP", "MWD", "WIDTH", "HEIGHT", "SIZE", "pi", "e"] ++ Function.all.map Function.name

/-- Blanks other than line ends, letters, digits and the marks of the grammar. -/
def isOrdinary (c : Char) : Bool :=
  c.isAlphanum || (isBlank c && c ≠ '\n' && c ≠ '\r') ||
    ['.', '+', '-', '*', '/', '%', ',', '(', ')'].contains c

/-- The names in a text, from left to right. -/
def namesIn (text : String) : List String :=
  (lex 0 text.toList).tokens.filterMap fun
    | .identifier name => some name
    | _ => none

/-! ### What every match holds -/

/-- Texts one of which stands wherever the pattern does. -/
def Pattern.clues : Pattern → List (List Char)
  | .spaced text | .word text | .called text => [text.toList]
  | .around first _ => [first.toList]
  | .oneOf chars => chars.map fun c ↦ [c]

theorem Pattern.exists_clue {p : Pattern} {cs : List Char} (h : p.Matches cs) :
    ∃ clue ∈ p.clues, clue <:+: cs := by
  cases p with
  | spaced text =>
    obtain ⟨front, c, back, rfl, -⟩ := h
    exact ⟨_, List.mem_cons_self, front, c :: back, List.append_assoc _ _ _⟩
  | word text => exact ⟨_, List.mem_cons_self, h⟩
  | called text =>
    obtain ⟨front, blanks, back, rfl, -⟩ := h
    exact ⟨_, List.mem_cons_self, front, _, List.append_assoc _ _ _⟩
  | around first second =>
    obtain ⟨front, between, back, rfl⟩ := h
    exact ⟨_, List.mem_cons_self, front, _, List.append_assoc _ _ _⟩
  | oneOf chars =>
    obtain ⟨c, hc, hchars⟩ := h
    obtain ⟨front, back, rfl⟩ := List.append_of_mem hc
    exact ⟨[c], List.mem_map_of_mem hchars, front, back, by simp⟩

/-- Some character is none of an ordinary formula. -/
def IsUnusual (clue : List Char) : Prop := ∃ c ∈ clue, isOrdinary c = false

/-- At least two small letters that stand in no ordinary name, whatever the case of its letters. -/
def IsForeign (clue : List Char) : Prop :=
  2 ≤ clue.length ∧ clue.all Char.isLower = true ∧
    ∀ name ∈ ordinaryNames, ¬ clue <:+: name.toList.map Char.toLower

instance (clue : List Char) : Decidable (IsUnusual clue) :=
  List.decidableBEx (isOrdinary · = false) clue

instance (clue : List Char) : Decidable (IsForeign clue) :=
  inferInstanceAs (Decidable (_ ∧ _ ∧ _))

theorem clues_of_screenRules :
    ∀ rule ∈ screenRules, ∀ clue ∈ rule.1.clues, IsUnusual clue ∨ IsForeign clue := by
  decide +kernel

/-! ### The characters of an ordinary formula -/

section

variable {c : Char} {cs word : List Char} {token : Token} {tokens : List Token}

theorem isBlank_or_visible_of_isOrdinary (h : isOrdinary c = true) :
    isBlank c = true ∨ Visible c := by
  unfold isOrdinary Char.isAlphanum at h
  simp only [Bool.or_eq_true, Bool.and_eq_true, List.contains_iff_mem] at h
  rcases h with ((halpha | hdigit) | ⟨⟨hblank, -⟩, -⟩) | hmark
  · exact .inr (visible_of_isAlpha halpha)
  · exact .inr (visible_of_isDigit hdigit)
  · exact .inl hblank
  · have hmarks : ∀ c ∈ ['.', '+', '-', '*', '/', '%', ',', '(', ')'], Visible c := by
      simp [Visible]
    exact .inr (hmarks c hmark)

/-- Among ordinary characters, only letters are folded to small letters. -/
theorem isAlpha_of_isOrdinary (h : isOrdinary c = true) (hlower : (foldCase c).isLower = true) :
    c.isAlpha = true := by
  rcases isBlank_or_visible_of_isOrdinary h with hblank | hvisible
  · have halpha : c.isAlpha = true := by
      rw [foldCase_of_isBlank hblank] at hlower
      unfold Char.isAlpha
      rw [hlower, Bool.or_true]
    exact halpha
  · exact isAlpha_of_isLower_foldCase hvisible hlower

theorem isOrdinary_of_mem_name {name : String} (hname : name ∈ ordinaryNames)
    (hc : c ∈ name.toList) : isOrdinary c = true := by
  have hall : ∀ name ∈ ordinaryNames, name.toList.all Char.isAlphanum = true := by
    decide +kernel
  unfold isOrdinary
  rw [List.all_eq_true.1 (hall name hname) c hc, Bool.true_or, Bool.true_or]

theorem isOrdinary_of_isNumeral (h : IsNumeral cs) (hc : c ∈ cs) : isOrdinary c = true := by
  rcases mem_of_isNumeral h hc with hdigit | hmark
  · unfold isOrdinary Char.isAlphanum
    rw [hdigit, Bool.or_true, Bool.true_or, Bool.true_or]
  · have hmarks : ∀ c ∈ ['.', 'e', 'E', '+', '-'], isOrdinary c = true := by
      simp [isOrdinary]
    exact hmarks c hmark

theorem isOrdinary_of_spells (h : Spells cs token) (hbracket : '[' ∉ cs)
    (hname : ∀ name, token = .identifier name → name ∈ ordinaryNames) (hc : c ∈ cs) :
    isOrdinary c = true := by
  cases h with
  | number h _ => exact isOrdinary_of_isNumeral h hc
  | identifier _ =>
    refine isOrdinary_of_mem_name (hname _ rfl) ?_
    rwa [String.toList_ofList]
  | model _ _ => exact absurd List.mem_cons_self hbracket
  | mark hmark =>
    rw [List.mem_singleton.1 hc]
    cases hmark <;> rfl
  | single hdoubled =>
    rw [List.mem_singleton.1 hc]
    cases hdoubled <;> rfl
  | @double d one two hdoubled =>
    obtain rfl : c = d := by simpa using hc
    cases hdoubled <;> rfl

theorem isOrdinary_of_splits (h : Splits cs tokens) (hbracket : '[' ∉ cs)
    (hfeed : '\n' ∉ cs) (hreturn : '\r' ∉ cs)
    (hname : ∀ name, Token.identifier name ∈ tokens → name ∈ ordinaryNames) :
    ∀ c ∈ cs, isOrdinary c = true := by
  induction h with
  | nil => exact List.forall_mem_nil _
  | @blank d cs tokens hd _ ih =>
    rw [List.mem_cons, not_or] at hbracket hfeed hreturn
    refine List.forall_mem_cons.2 ⟨?_, ih hbracket.2 hfeed.2 hreturn.2 hname⟩
    unfold isOrdinary
    rw [hd, decide_eq_true (Ne.symm hfeed.1), decide_eq_true (Ne.symm hreturn.1)]
    simp
  | @token spelling rest token tokens hspells _ _ ih =>
    rw [List.mem_append, not_or] at hbracket hfeed hreturn
    refine List.forall_mem_append.2 ⟨fun c ↦ isOrdinary_of_spells hspells hbracket.1 ?_, ?_⟩
    · rintro name rfl
      exact hname name List.mem_cons_self
    · exact ih hbracket.2 hfeed.2 hreturn.2 fun name hmem ↦ hname name (List.mem_cons_of_mem _ hmem)

/-! ### Letters side by side -/

theorem letters_of_spells (h : Spells cs token) (hbracket : '[' ∉ cs) :
    (∃ name : String, token = .identifier name ∧ cs = name.toList ∧ IsIdentifier cs) ∨
      cs.countP Char.isAlpha ≤ 1 ∧ ∀ c ∈ cs.getLast?, c.isAlpha = false := by
  cases h with
  | number h _ => exact .inr (letters_of_isNumeral h)
  | identifier h => exact .inl ⟨_, rfl, String.toList_ofList.symm, h⟩
  | model _ _ => exact absurd List.mem_cons_self hbracket
  | mark hmark =>
    refine .inr (letters_of_forall_not_isAlpha (List.forall_mem_singleton.2 ?_))
    cases hmark <;> rfl
  | single hdoubled =>
    refine .inr (letters_of_forall_not_isAlpha (List.forall_mem_singleton.2 ?_))
    cases hdoubled <;> rfl
  | double hdoubled =>
    refine .inr (letters_of_forall_not_isAlpha ?_)
    cases hdoubled <;> simp

/-- A name is not the longest one if a letter follows it. -/
theorem not_isLongest_of_isAlpha {rest : List Char} (h : IsIdentifier cs) (hc : c.isAlpha = true) :
    ¬ IsLongest cs (cs ++ c :: rest) := by
  obtain ⟨d, more, rfl, hd, hmore⟩ := h
  intro hlongest
  have hlonger : IsIdentifier (d :: more ++ [c]) := by
    refine ⟨d, more ++ [c], rfl, hd, List.forall_mem_append.2 ⟨hmore, ?_⟩⟩
    refine List.forall_mem_singleton.2 ?_
    unfold isIdentifierChar Char.isAlphanum
    rw [hc, Bool.true_or, Bool.true_or]
  have hle := hlongest _ _ (.identifier hlonger) ⟨rest, by simp⟩
  rw [List.length_append, List.length_singleton] at hle
  omega

/-- What stands in two texts after one another stands in one of them, or across the border. -/
theorem infix_append_cases {xs ys : List Char} (h : word <:+: xs ++ ys) :
    word <:+: xs ∨ word <:+: ys ∨
      ∃ c d rest, c ∈ word ∧ c ∈ xs.getLast? ∧ d ∈ word ∧ ys = d :: rest := by
  rcases List.infix_append_iff.1 h with hxs | hys | ⟨front, back, rfl, hfront, hback⟩
  · exact .inl hxs
  · exact .inr (.inl hys)
  rcases List.eq_nil_or_concat front with rfl | ⟨more, c, rfl⟩
  · exact .inr (.inl hback.isInfix)
  cases back with
  | nil =>
    rw [List.append_nil]
    exact .inl hfront.isInfix
  | cons d back =>
    obtain ⟨before, rfl⟩ := hfront
    obtain ⟨rest, rfl⟩ := hback
    refine .inr (.inr ⟨c, d, back ++ rest, by simp, ?_, by simp, rfl⟩)
    rw [List.concat_eq_append, ← List.append_assoc, List.getLast?_concat]
    rfl

/-- Letters side by side belong to one name. -/
theorem exists_identifier_of_infix (h : Splits cs tokens) (hbracket : '[' ∉ cs)
    (hword : ∀ c ∈ word, c.isAlpha = true) (hlength : 2 ≤ word.length) (hstands : word <:+: cs) :
    ∃ name, Token.identifier name ∈ tokens ∧ word <:+: name.toList := by
  induction h with
  | nil =>
    rw [List.eq_nil_of_infix_nil hstands] at hlength
    cases hlength
  | @blank d cs tokens hd _ ih =>
    rcases List.infix_cons_iff.1 hstands with hprefix | hstands
    · -- a word does not begin with a blank
      rcases List.prefix_cons_iff.1 hprefix with rfl | ⟨back, rfl, -⟩
      · cases hlength
      · have hvisible := isBlank_of_visible (visible_of_isAlpha (hword d List.mem_cons_self))
        exact absurd hd (Bool.eq_false_iff.1 hvisible)
    · exact ih (fun hmem ↦ hbracket (List.mem_cons_of_mem _ hmem)) hstands
  | @token spelling rest token tokens hspells hlongest _ ih =>
    rw [List.mem_append, not_or] at hbracket
    have hletters := letters_of_spells hspells hbracket.1
    rcases infix_append_cases hstands with hinside | hinside | ⟨c, d, rest, hc, hlast, hd, rfl⟩
    · rcases hletters with ⟨name, rfl, rfl, -⟩ | ⟨hcount, -⟩
      · exact ⟨name, List.mem_cons_self, hinside⟩
      · have hle := hinside.sublist.countP_le (p := Char.isAlpha)
        rw [List.countP_eq_length.2 hword] at hle
        omega
    · obtain ⟨name, hmem, hname⟩ := ih hbracket.2 hinside
      exact ⟨name, List.mem_cons_of_mem _ hmem, hname⟩
    · rcases hletters with ⟨name, -, -, hidentifier⟩ | ⟨-, hend⟩
      · exact absurd hlongest (not_isLongest_of_isAlpha hidentifier (hword d hd))
      · exact absurd (hword c hc) (Bool.eq_false_iff.1 (hend c hlast))

/-! ### The screen passes -/

variable {text : String} {tree : Expr}

theorem mem_namesIn (h : Splits text.toList tokens) {name : String}
    (hname : Token.identifier name ∈ tokens) : name ∈ namesIn text := by
  unfold namesIn
  rw [lex_of_splits h]
  exact List.mem_filterMap.2 ⟨_, hname, rfl⟩

theorem not_rejects_of_ordinary (h : Splits text.toList tokens) (hbracket : '[' ∉ text.toList)
    (hfeed : '\n' ∉ text.toList) (hreturn : '\r' ∉ text.toList)
    (hnames : ∀ name ∈ namesIn text, name ∈ ordinaryNames) :
    ∀ rule ∈ screenRules, ¬ Rejects rule text := by
  intro rule hrule hrejects
  have hordinary := isOrdinary_of_splits h hbracket hfeed hreturn
    fun name hname ↦ hnames name (mem_namesIn h hname)
  obtain ⟨clue, hclue, hstands⟩ := Pattern.exists_clue hrejects
  rcases clues_of_screenRules rule hrule clue hclue with
    ⟨c, hc, hunusual⟩ | ⟨hlength, hlower, hforeign⟩
  · obtain ⟨d, hd, hfold⟩ := List.mem_map.1 (hstands.subset hc)
    have halpha : c.isAlpha = false := by
      refine Bool.eq_false_iff.2 fun halpha ↦ ?_
      unfold isOrdinary Char.isAlphanum at hunusual
      rw [halpha] at hunusual
      cases hunusual
    obtain rfl := eq_of_foldCase_eq halpha hfold
    rw [hordinary d hd] at hunusual
    cases hunusual
  · obtain ⟨word, hword, rfl⟩ := List.infix_map_iff.1 hstands
    have halpha : ∀ c ∈ word, c.isAlpha = true := fun c hc ↦
      isAlpha_of_isOrdinary (hordinary c (hword.subset hc))
        (List.all_eq_true.1 hlower _ (List.mem_map_of_mem hc))
    rw [List.length_map] at hlength
    obtain ⟨name, hname, hinside⟩ := exists_identifier_of_infix h hbracket halpha hlength hword
    have hfold : word.map foldCase = word.map Char.toLower :=
      List.map_congr_left fun c hc ↦ foldCase_of_visible (visible_of_isAlpha (halpha c hc))
    rw [hfold] at hforeign
    exact hforeign name (hnames name (mem_namesIn h hname)) (hinside.map _)

/-- A text without model references is read only if its parentheses pair up. If besides it stands on
one line and uses no names but the ordinary ones, the screen lets it pass, and it is a formula with
the tree that is read. -/
theorem ofText?_of_ordinary_names (text : String) (tree : Expr) (hparse : parse text = .ok tree)
    (hbracket : '[' ∉ text.toList) :
    IsBalanced text.toList ∧
      ('\n' ∉ text.toList → '\r' ∉ text.toList → (∀ name ∈ namesIn text, name ∈ ordinaryNames) →
        screen text = .ok () ∧ ofText? text = .ok ⟨trimmed text, tree⟩) := by
  have hbalanced := isBalanced_of_parse hparse hbracket
  refine ⟨hbalanced, fun hfeed hreturn hnames ↦ ?_⟩
  obtain ⟨-, tokens, hsplits, -⟩ := parse_eq_ok_iff.1 hparse
  have hrules := not_rejects_of_ordinary hsplits hbracket hfeed hreturn hnames
  have hscreen := screen_eq_ok_iff.2 ⟨hrules, (balanced_iff _).2 hbalanced⟩
  exact ⟨hscreen, ofText?_of_screen hscreen hparse⟩

/-- Calls, a constant and exponents, with a blank from outside ASCII. -/
theorem ofText?_of_ordinary_names_exponents :
    ∃ tree, parse "exp(TB)\u2003* 2e1 + min(1.5E-3, e)" = .ok tree ∧
      '[' ∉ "exp(TB)\u2003* 2e1 + min(1.5E-3, e)".toList ∧
      IsBalanced "exp(TB)\u2003* 2e1 + min(1.5E-3, e)".toList ∧
      ofText? "exp(TB)\u2003* 2e1 + min(1.5E-3, e)" =
        .ok ⟨trimmed "exp(TB)\u2003* 2e1 + min(1.5E-3, e)", tree⟩ := by
  obtain ⟨tree, htree⟩ :
      ∃ tree, (parse "exp(TB)\u2003* 2e1 + min(1.5E-3, e)").toOption = some tree :=
    Option.isSome_iff_exists.1 (by decide +kernel)
  have hparse := eq_ok_of_toOption htree
  obtain ⟨hbalanced, hpasses⟩ := ofText?_of_ordinary_names _ tree hparse (by decide +kernel)
  exact ⟨tree, hparse, by decide +kernel, hbalanced,
    (hpasses (by decide +kernel) (by decide +kernel) (by decide +kernel)).2⟩

end

end Ventilation.Formula
