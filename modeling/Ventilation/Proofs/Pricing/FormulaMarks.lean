import Ventilation.Proofs.Formula.Coincidence
import Ventilation.Proofs.Formula.Exclusion
import Ventilation.Proofs.Formula.Failure
import Ventilation.Proofs.Pricing.Damper
import Ventilation.Proofs.Text.Trim

/-!
# The marks of a formula

A modifier is evaluated only where one of the marks stands in its text. A formula without a mark is
a single number, the name of a constant or the name of a variable. The number would have been taken
as a factor, and every variable that pricing binds is a mark, so what is lost are the names of the
two constants alone.
-/

set_option autoImplicit false
set_option relaxedAutoImplicit false

namespace Ventilation

open Text

namespace Formula

/-! ### Formulas without a mark -/

/-- The mark in the spelling of every token that is no number, no name and no comma. -/
def Token.mark? : Token → Option Char
  | plus => some '+'
  | minus => some '-'
  | star | doubleStar => some '*'
  | slash | doubleSlash => some '/'
  | percent => some '%'
  | leftParen => some '('
  | rightParen => some ')'
  | model _ => some '['
  | number _ | identifier _ | comma => none

theorem mem_of_spells_mark {cs : List Char} {token : Token} {c : Char} (h : Spells cs token)
    (hc : token.mark? = some c) : c ∈ cs := by
  cases h with
  | number h _ => cases hc
  | identifier h => cases hc
  | model _ _ =>
    cases hc
    exact List.mem_cons_self
  | mark hmark => cases hmark <;> cases hc <;> exact List.mem_cons_self
  | single hdoubled => cases hdoubled <;> cases hc <;> exact List.mem_cons_self
  | double hdoubled => cases hdoubled <;> cases hc <;> exact List.mem_cons_self

theorem singleton_mem_formulaMarks {token : Token} {c : Char} (hc : token.mark? = some c) :
    String.singleton c ∈ Modifier.formulaMarks := by
  cases token <;> cases hc <;> decide

/-- A text with a token that has a mark looks like a formula. -/
theorem looksLikeFormula_of_mark {text : String} {tokens : List Token}
    (h : Splits text.toList tokens) {token : Token} (htoken : token ∈ tokens) {c : Char}
    (hc : token.mark? = some c) : Modifier.looksLikeFormula text = true := by
  obtain ⟨spelling, hspelling, hspells⟩ := exists_spelling_of_mem h htoken
  have hmem : c ∈ text.toList := hspelling.subset (mem_of_spells_mark hspells hc)
  refine List.any_eq_true.2 ⟨_, singleton_mem_formulaMarks hc, occurs_iff.2 ?_⟩
  rw [String.toList_singleton]
  exact (List.singleton_infix_iff c text.toList).2 hmem

/-- The phrases of one token that are no reference to a model. -/
inductive Atom : Phrase
  | number (value : Float) : Atom [.number value] (.number value)
  | constant {name : String} {value : Float} (h : Constant name value) :
    Atom [.identifier name] (.number value)
  | var (name : String) : Atom [.identifier name] (.var name)

/-- Tokens without a mark are those of an atom. -/
def AtomUnlessMarked (tokens : List Token) (tree : Expr) : Prop :=
  (∃ token ∈ tokens, ∃ c, token.mark? = some c) ∨ Atom tokens tree

theorem exists_mark_of_infixToken {token : Token} {op : Operator} (h : InfixToken token op) :
    ∃ c, token.mark? = some c := by
  cases h with
  | additive h => cases h <;> exact ⟨_, rfl⟩
  | multiplicative h => cases h <;> exact ⟨_, rfl⟩
  | power => exact ⟨_, rfl⟩

theorem exists_mark_of_signToken {token : Token} {sign : Sign} (h : SignToken token sign) :
    ∃ c, token.mark? = some c := by
  cases h <;> exact ⟨_, rfl⟩

/-- Whatever is built of parts has a mark, whether the parts have one or not. -/
theorem isCompositional_atomUnlessMarked : IsCompositional AtomUnlessMarked where
  number value := .inr (.number value)
  model name := .inl ⟨.model name, List.mem_cons_self, _, rfl⟩
  constant h := .inr (.constant h)
  var {name} _ := .inr (.var name)
  callEmpty function := .inl ⟨.leftParen, by simp, _, rfl⟩
  call function _ _ _ := .inl ⟨.leftParen, by simp, _, rfl⟩
  group _ := .inl ⟨.leftParen, List.mem_cons_self, _, rfl⟩
  sign hsign _ _ _ := .inl ⟨_, List.mem_cons_self, exists_mark_of_signToken hsign⟩
  binary hop _ _ _ _ _ _ :=
    .inl ⟨_, List.mem_append_right _ List.mem_cons_self, exists_mark_of_infixToken hop⟩

/-! ### Texts of one token -/

theorem isBlanks_of_splits_nil {cs : List Char} (h : Splits cs []) : IsBlanks cs := by
  generalize hnil : ([] : List Token) = tokens at h
  induction h with
  | nil => exact List.forall_mem_nil _
  | blank hc _ ih => exact List.forall_mem_cons.2 ⟨hc, ih hnil⟩
  | token _ _ _ _ => cases hnil

theorem isTrimmed_of_spells {spelling : List Char} {token : Token} (h : Spells spelling token) :
    IsTrimmed spelling :=
  ⟨fun _ hc ↦ isBlank_of_spells h (.inl hc), fun _ hc ↦ isBlank_of_spells h (.inr hc)⟩

theorem read_of_spells_number {cs : List Char} {x : Float} (h : Spells cs (.number x)) :
    Binary64.read cs = some x := by
  cases h with
  | number _ hvalue => exact hvalue
  | mark hmark => cases hmark
  | single hdoubled => cases hdoubled
  | double hdoubled => cases hdoubled

/-- A text of one token is that token with blanks around it. -/
theorem spells_trim {cs : List Char} {token : Token} (h : Splits cs [token]) :
    Spells (trim cs) token := by
  obtain ⟨front, spelling, back, rfl, hfront, hspells, hback⟩ := exists_of_splits_cons h
  rwa [trim_append hfront (isBlanks_of_splits_nil hback), (isTrimmed_of_spells hspells).trim_eq]

/-- What a formula without a mark is: a number, or a name and nothing else. -/
theorem number_or_name_of_unmarked {text : String} {tree : Expr} (h : parse text = .ok tree)
    (hplain : Modifier.looksLikeFormula text = false) :
    (∃ x, Binary64.read (trim text.toList) = some x ∧ tree = .number x) ∨
      (∃ x, Constant (trimmed text) x ∧ tree = .number x) ∨ tree = .var (trimmed text) := by
  obtain ⟨-, tokens, hsplits, hsum⟩ := parse_eq_ok_iff.1 h
  rcases isCompositional_atomUnlessMarked.sum hsum with ⟨token, htoken, c, hc⟩ | hatom
  · rw [looksLikeFormula_of_mark hsplits htoken hc] at hplain
    cases hplain
  · have hname : ∀ name, tokens = [.identifier name] → trimmed text = name := by
      rintro name rfl
      unfold trimmed
      rw [(eq_of_spells_identifier (spells_trim hsplits)).1, String.ofList_toList]
    cases hatom with
    | number x => exact .inl ⟨x, read_of_spells_number (spells_trim hsplits), rfl⟩
    | constant hconstant => exact .inr (.inl ⟨_, hname _ rfl ▸ hconstant, rfl⟩)
    | var name => exact .inr (.inr (congrArg Expr.var (hname name rfl).symm))

end Formula

namespace Modifier

/-- The variables that the stages of a price bind. -/
def pricingVariables : List String := ["TB", "WD", "BP", "MWD", "WIDTH", "HEIGHT", "SIZE"]

theorem mem_formulaMarks_of_mem {name : String} (h : name ∈ pricingVariables) :
    name ∈ formulaMarks :=
  List.mem_append_left _ h

/-- Only variables of pricing are bound. -/
def BindsPricing (v : Variables) : Prop :=
  ∀ name, v.contains name = true → name ∈ pricingVariables

theorem bindsPricing_empty : BindsPricing .empty := by
  intro name h
  cases h

theorem BindsPricing.set {v : Variables} (h : BindsPricing v) {name : String}
    (hname : name ∈ pricingVariables) (x : Float) : BindsPricing (v.set name x) := by
  intro other hother
  unfold Variables.contains at hother
  rw [get?_set] at hother
  split at hother
  · rename_i heq
    exact heq ▸ hname
  · exact h other hother

/-- The stages of a price bind nothing else. -/
theorem bindsPricing_context (s : ChainStages) (size : PricedSize)
    (price? : String → Option Float) (stage : Stage) :
    BindsPricing (s.context size price? stage).bindings := by
  have hsize : BindsPricing size.bindings := by
    cases size with
    | rect width height => exact (bindsPricing_empty.set (by decide) width).set (by decide) height
    | diameter inches => exact bindsPricing_empty.set (by decide) inches
    | length inches => exact bindsPricing_empty.set (by decide) inches
    | none => exact bindsPricing_empty
  have htable := (hsize.set (show "TB" ∈ _ by decide) s.tb).set (show "WD" ∈ _ by decide) s.wd
  have hbase := htable.set (show "BP" ∈ _ by decide) s.bp
  have hdamper := hbase.set (show "MWD" ∈ _ by decide) s.mwd
  cases stage with
  | base => exact htable
  | damper => exact hbase
  | damperAgain => exact hdamper
  | finish =>
    exact (hdamper.set (show "BP" ∈ _ by decide) s.base).set (show "MWD" ∈ _ by decide) s.base

/-- A variable of a formula with a value is bound. -/
theorem contains_of_mentions {text name : String} {context : Formula.Context} {x : Float}
    (h : Formula.Mentions text name) (hvalue : Formula.evaluateText text context = .ok x) :
    context.bindings.contains name = true := by
  by_contra hunbound
  obtain ⟨error, herror⟩ := Formula.exists_error_of_unbound h
    (Option.not_isSome_iff_eq_none.1 hunbound)
  rw [herror] at hvalue
  cases hvalue

/-- A formula with a value has a mark, unless it is a number or the name of a constant. -/
theorem looksLikeFormula_of_value {text : String} {context : Formula.Context} {x : Float}
    (hvalue : Formula.evaluateText text context = .ok x) (hnumber : number? text = none)
    (hpi : trimmed text ≠ "pi") (he : trimmed text ≠ "e") (hbound : BindsPricing context.bindings) :
    looksLikeFormula text = true := by
  obtain ⟨f, hf, hevaluate⟩ := bind_eq_ok_iff.1 hvalue
  by_contra hplain
  rcases Formula.number_or_name_of_unmarked (Formula.parse_of_ofText? hf)
    (Bool.eq_false_of_not_eq_true hplain) with ⟨y, hread, htree⟩ | ⟨y, hconstant, -⟩ | htree
  · -- the value of a formula is finite, and the text would have been a factor
    obtain ⟨hy, hfinite⟩ := Formula.Expr.evaluate_eq_ok_iff.1 hevaluate
    rw [htree] at hy
    obtain rfl : y = x := Except.ok.inj hy
    unfold number? at hnumber
    rw [hread, Option.filter_some, if_pos hfinite] at hnumber
    cases hnumber
  · generalize trimmed text = name at hconstant hpi he
    cases hconstant with
    | pi => exact hpi rfl
    | e => exact he rfl
  · have hmentions : Formula.Mentions text (trimmed text) := by
      refine ⟨f, hf, mem_sortedNames.2 ?_⟩
      rw [htree]
      exact List.mem_singleton_self _
    have hname := hbound _ (contains_of_mentions hmentions hvalue)
    exact hplain (Formula.looksLikeFormula_of_mentions hmentions (mem_formulaMarks_of_mem hname))

/-- Where nothing but variables of pricing is bound, a text that is not `pi` or `e` multiplies the
amount if it is a finite number, replaces it by its value if it is a formula that has one, and
otherwise leaves it. No formula with a value is missed for want of a mark. -/
theorem apply_of_bindsPricing (text : String) (hpi : trimmed text ≠ "pi") (he : trimmed text ≠ "e")
    (context : Formula.Context) (hbound : BindsPricing context.bindings) (base : Float) :
    (∀ n, number? text = some n → apply text base context = base * n) ∧
    (number? text = none →
      (∀ x, Formula.evaluateText text context = .ok x →
        looksLikeFormula text = true ∧ apply text base context = x) ∧
      ∀ error, Formula.evaluateText text context = .error error →
        apply text base context = base) := by
  refine ⟨fun n hn ↦ apply_of_number hn base context, fun hnumber ↦ ⟨fun x hx ↦ ?_, ?_⟩⟩
  · have hformula := looksLikeFormula_of_value hx hnumber hpi he hbound
    exact ⟨hformula, apply_of_value hnumber hformula hx base⟩
  · exact fun error herror ↦ apply_of_isIgnored ⟨hnumber, .inr ⟨error, herror⟩⟩ base

/-- What a finish is applied in, for a rectangle of 12 by 8. -/
def finishing : Formula.Context :=
  ChainStages.context ⟨100, 40, 110, 45, 110, 110⟩ (.rect 12 8) (fun _ ↦ none) .finish

/-- A factor, a formula, a numeral beyond all finite numbers, and an unknown name. -/
theorem apply_of_bindsPricing_finishing :
    apply " 1.5 " 4 finishing = 4 * 1.5 ∧
    (looksLikeFormula "(WIDTH)" = true ∧ apply "(WIDTH)" 4 finishing = 12) ∧
    apply "1e999" 4 finishing = 4 ∧ apply "tau" 4 finishing = 4 := by
  have hbound : BindsPricing finishing.bindings := bindsPricing_context _ _ _ _
  obtain ⟨hfactor, -⟩ :=
    apply_of_bindsPricing " 1.5 " (by decide) (by decide) finishing hbound 4
  obtain ⟨-, hformula⟩ :=
    apply_of_bindsPricing "(WIDTH)" (by decide) (by decide) finishing hbound 4
  obtain ⟨-, hinfinite⟩ :=
    apply_of_bindsPricing "1e999" (by decide) (by decide) finishing hbound 4
  obtain ⟨-, hname⟩ :=
    apply_of_bindsPricing "tau" (by decide) (by decide) finishing hbound 4
  exact ⟨hfactor 1.5 (by decide +kernel),
    (hformula (by decide +kernel)).1 12 (eq_ok_of_toOption (by decide +kernel)),
    (hinfinite (by decide +kernel)).2 .notFinite (by decide +kernel),
    (hname (by decide +kernel)).2 (.unknownVariable "tau") (by decide +kernel)⟩

end Modifier

end Ventilation
