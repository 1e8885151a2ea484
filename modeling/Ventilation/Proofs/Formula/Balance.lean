import Mathlib.Data.List.Count
import Ventilation.Proofs.Formula.Composition
import Ventilation.Proofs.Formula.Language
import Ventilation.Proofs.Formula.Pattern

/-!
# Parentheses pair up

The check of the screen passes a text whose parentheses pair up: none is closed before it is opened,
and as many are closed as are opened. The parentheses of every phrase pair up, at any depth around
it, and without model references there are no others in its text.
-/

set_option autoImplicit false
set_option relaxedAutoImplicit false

namespace Ventilation.Formula

open Text

/-- Nowhere are more parentheses closed than opened, and at the end there are as many. -/
def IsBalanced (cs : List Char) : Prop :=
  (∀ front, front <+: cs → front.count ')' ≤ front.count '(') ∧ cs.count ')' = cs.count '('

def isParen (c : Char) : Bool := c = '(' || c = ')'

/-! ### What the check counts -/

section

variable {c : Char} {cs : List Char} {depth : ℕ}

theorem balanced_open : balanced depth ('(' :: cs) = balanced (depth + 1) cs := by
  rw [balanced]

theorem balanced_close : balanced (depth + 1) (')' :: cs) = balanced depth cs := by
  rw [balanced]

theorem balanced_cons (hopen : c ≠ '(') (hclose : c ≠ ')') :
    balanced depth (c :: cs) = balanced depth cs := by
  rw [balanced]
  · exact hopen
  · exact hclose

theorem forall_prefix_cons {P : List Char → Prop} :
    (∀ front, front <+: c :: cs → P front) ↔ P [] ∧ ∀ front, front <+: cs → P (c :: front) := by
  constructor
  · intro h
    exact ⟨h [] List.nil_prefix, fun front hfront ↦ h _ (List.cons_prefix_cons.2 ⟨rfl, hfront⟩)⟩
  · rintro ⟨hnil, hcons⟩ front hfront
    rcases List.prefix_cons_iff.1 hfront with rfl | ⟨more, rfl, hmore⟩
    · exact hnil
    · exact hcons more hmore

/-- `depth` parentheses are open before the text. -/
theorem balanced_iff_count (depth : ℕ) (cs : List Char) :
    balanced depth cs = true ↔
      (∀ front, front <+: cs → front.count ')' ≤ depth + front.count '(') ∧
        cs.count ')' = depth + cs.count '(' := by
  induction cs generalizing depth with
  | nil => simp [balanced, eq_comm]
  | cons c cs ih =>
    rw [forall_prefix_cons, List.count_nil, List.count_nil, and_iff_right (Nat.zero_le _)]
    by_cases hopen : c = '('
    · subst hopen
      have hother : ∀ cs : List Char, ('(' :: cs).count ')' = cs.count ')' := fun cs ↦
        List.count_cons_of_ne (by decide)
      simp only [balanced_open, ih, hother, List.count_cons_self, Nat.add_right_comm depth 1,
        Nat.add_assoc]
    by_cases hclose : c = ')'
    · subst hclose
      have hother : ∀ cs : List Char, (')' :: cs).count '(' = cs.count '(' := fun cs ↦
        List.count_cons_of_ne (by decide)
      simp only [hother, List.count_cons_self]
      cases depth with
      | zero =>
        simp only [balanced, Bool.false_eq_true, false_iff]
        rintro ⟨hfront, -⟩
        exact absurd (hfront [] List.nil_prefix) (by decide)
      | succ depth =>
        simp only [balanced_close, ih, Nat.add_right_comm depth 1, Nat.add_le_add_iff_right,
          Nat.add_right_cancel_iff]
    · have hcount : ∀ d, d = '(' ∨ d = ')' → ∀ cs : List Char, (c :: cs).count d = cs.count d := by
        rintro d (rfl | rfl) cs
        · exact List.count_cons_of_ne hopen
        · exact List.count_cons_of_ne hclose
      simp only [balanced_cons hopen hclose, ih, hcount _ (.inl rfl), hcount _ (.inr rfl)]

theorem balanced_iff (cs : List Char) : balanced 0 cs = true ↔ IsBalanced cs := by
  simp only [balanced_iff_count, IsBalanced, Nat.zero_add]

theorem balanced_filter (depth : ℕ) (cs : List Char) :
    balanced depth (cs.filter isParen) = balanced depth cs := by
  induction cs generalizing depth with
  | nil => rfl
  | cons c cs ih =>
    by_cases hopen : c = '('
    · subst hopen
      rw [List.filter_cons_of_pos rfl, balanced_open, balanced_open, ih]
    by_cases hclose : c = ')'
    · subst hclose
      rw [List.filter_cons_of_pos rfl]
      cases depth with
      | zero => rfl
      | succ depth => rw [balanced_close, balanced_close, ih]
    · have hparen : ¬ isParen c = true := by simp [isParen, hopen, hclose]
      rw [List.filter_cons_of_neg hparen, balanced_cons hopen hclose, ih]

end

/-! ### The parentheses of a phrase -/

/-- A text changes no depth: it is passed at every one, and what is open after it was open
before. -/
def IsNeutral (cs : List Char) : Prop :=
  ∀ depth rest, balanced depth (cs ++ rest) = balanced depth rest

namespace IsNeutral

variable {cs others : List Char}

theorem nil : IsNeutral [] := fun _ _ ↦ rfl

theorem append (h : IsNeutral cs) (hothers : IsNeutral others) : IsNeutral (cs ++ others) := by
  intro depth rest
  rw [List.append_assoc, h, hothers]

theorem enclosed (h : IsNeutral cs) : IsNeutral ('(' :: (cs ++ [')'])) := by
  intro depth rest
  rw [List.cons_append, balanced_open, List.append_assoc, h, List.singleton_append, balanced_close]

end IsNeutral

def Token.paren? : Token → Option Char
  | leftParen => some '('
  | rightParen => some ')'
  | _ => none

/-- The parentheses among the tokens. -/
def parens (tokens : List Token) : List Char := tokens.filterMap Token.paren?

theorem parens_append (tokens others : List Token) :
    parens (tokens ++ others) = parens tokens ++ parens others :=
  List.filterMap_append

theorem parens_cons {token : Token} (h : token.paren? = none) (tokens : List Token) :
    parens (token :: tokens) = parens tokens :=
  List.filterMap_cons_none h

theorem paren?_of_infixToken {token : Token} {op : Operator} (h : InfixToken token op) :
    token.paren? = none := by
  cases h with
  | additive h => cases h <;> rfl
  | multiplicative h => cases h <;> rfl
  | power => rfl

theorem isNeutral_enclosed {tokens : List Token} (h : IsNeutral (parens tokens)) :
    IsNeutral (parens (.leftParen :: (tokens ++ [.rightParen]))) := by
  have henclosed := h.enclosed
  rwa [← show parens [.rightParen] = [')'] from rfl, ← parens_append] at henclosed

theorem isNeutral_listed {tokens : List Token} {trees : List Expr}
    (h : Listed (fun tokens _ ↦ IsNeutral (parens tokens)) tokens trees) :
    IsNeutral (parens tokens) := by
  induction h with
  | single h => exact h
  | more h _ ih =>
    rw [parens_append, parens_cons rfl]
    exact h.append ih

/-- The parentheses of a phrase pair up, whatever is open around it. -/
theorem isCompositional_neutral : IsCompositional fun tokens _ ↦ IsNeutral (parens tokens) where
  number _ := .nil
  model _ := .nil
  constant _ := .nil
  var _ := .nil
  callEmpty _ := IsNeutral.nil.enclosed
  call _ _ _ h := isNeutral_enclosed (isNeutral_listed h)
  group h := isNeutral_enclosed h
  sign hsign _ _ h := by
    cases hsign <;> exact h
  binary hop _ _ _ _ hleft hright := by
    rw [parens_append, parens_cons (paren?_of_infixToken hop)]
    exact hleft.append hright

/-! ### The parentheses of a text -/

section

variable {c : Char} {cs : List Char} {tokens : List Token}

theorem isParen_eq_false (h : c ≠ '(' ∧ c ≠ ')') : isParen c = false := by
  simp [isParen, h]

/-- A token other than a model shows the parenthesis that it is. -/
theorem filter_isParen_of_spells {token : Token} (h : Spells cs token) (hbracket : '[' ∉ cs) :
    cs.filter isParen = parens [token] := by
  cases h with
  | number h _ =>
    refine List.filter_eq_nil_iff.2 fun c hc hparen ↦ ?_
    rcases mem_of_isNumeral h hc with hdigit | hc
    · have hne : c ≠ '(' ∧ c ≠ ')' :=
        ⟨ne_of_isDigit hdigit (by decide), ne_of_isDigit hdigit (by decide)⟩
      rw [isParen_eq_false hne] at hparen
      cases hparen
    · have hnone : ∀ c ∈ ['.', 'e', 'E', '+', '-'], isParen c = false := by simp [isParen]
      rw [hnone c hc] at hparen
      cases hparen
  | identifier h =>
    refine List.filter_eq_nil_iff.2 fun c hc hparen ↦ ?_
    have hchar := isIdentifierChar_of_isIdentifier h hc
    have hne : c ≠ '(' ∧ c ≠ ')' := by
      constructor <;> (rintro rfl; cases hchar)
    rw [isParen_eq_false hne] at hparen
    cases hparen
  | model _ _ => exact absurd List.mem_cons_self hbracket
  | mark hmark => cases hmark <;> rfl
  | single hdoubled => cases hdoubled <;> rfl
  | double hdoubled => cases hdoubled <;> rfl

theorem filter_isParen_of_splits (h : Splits cs tokens) (hbracket : '[' ∉ cs) :
    cs.filter isParen = parens tokens := by
  induction h with
  | nil => rfl
  | @blank c cs tokens hc _ ih =>
    have hne : c ≠ '(' ∧ c ≠ ')' := by
      constructor <;> (rintro rfl; cases hc)
    rw [List.filter_cons_of_neg (by rw [isParen_eq_false hne]; exact Bool.false_ne_true),
      ih fun hmem ↦ hbracket (List.mem_cons_of_mem c hmem)]
  | @token spelling rest token tokens hspells _ _ ih =>
    rw [List.filter_append,
      filter_isParen_of_spells hspells fun hmem ↦ hbracket (List.mem_append_left _ hmem),
      ih fun hmem ↦ hbracket (List.mem_append_right _ hmem), ← parens_append, List.singleton_append]

/-- A text without model references is read only if its parentheses pair up. -/
theorem isBalanced_of_parse {text : String} {tree : Expr} (h : parse text = .ok tree)
    (hbracket : '[' ∉ text.toList) : IsBalanced text.toList := by
  obtain ⟨-, tokens, hsplits, hsum⟩ := parse_eq_ok_iff.1 h
  have hneutral := isCompositional_neutral.sum hsum 0 []
  rw [List.append_nil, ← filter_isParen_of_splits hsplits hbracket, balanced_filter] at hneutral
  exact (balanced_iff _).1 hneutral

end

end Ventilation.Formula
