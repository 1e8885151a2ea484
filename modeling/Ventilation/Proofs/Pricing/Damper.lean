import Ventilation.Proofs.Formula.Coincidence
import Ventilation.Proofs.Formula.Exclusion
import Ventilation.Proofs.Formula.Failure
import Ventilation.Proofs.Pricing.Stages

/-!
# The WD modifier of an item with a damper

With a damper the WD modifier is applied to `WD` and once more to what this gave, with `MWD` among
the variables the second time. A number multiplies twice. A formula has the same value both times
unless it mentions `MWD`, and a formula that does so has no value the first time.
-/

set_option autoImplicit false
set_option relaxedAutoImplicit false

namespace Ventilation

/-! ### A text that is evaluated twice -/

namespace Formula

/-- A text is a formula with this variable. -/
def Mentions (text name : String) : Prop := ∃ f, ofText? text = .ok f ∧ name ∈ f.variableNames

variable {text name : String} {v : Variables} {price? : String → Option Float}

theorem mentions_iff {names : List String}
    (h : (ofText? text).toOption.map variableNames = some names) :
    Mentions text name ↔ name ∈ names := by
  obtain ⟨f, hf, rfl⟩ := Option.map_eq_some_iff.1 h
  have hf := eq_ok_of_toOption hf
  constructor
  · rintro ⟨g, hg, hname⟩
    rwa [Except.ok.inj (hf.symm.trans hg)]
  · exact fun hname ↦ ⟨f, hf, hname⟩

/-- A variable that a text does not mention may as well be unbound. -/
theorem evaluateText_set (h : ¬ Mentions text name) (x : Float) :
    evaluateText text ⟨v.set name x, price?⟩ = evaluateText text ⟨v, price?⟩ := by
  refine evaluateText_eq_of_agreeOn fun f hf ↦ ⟨fun other hother ↦ ?_, fun _ _ ↦ rfl⟩
  have hne : other ≠ name := by
    rintro rfl
    exact h ⟨f, hf, Text.mem_sortedNames.2 hother⟩
  exact (get?_set v name other x).trans (if_neg hne)

/-- A text that mentions a variable which is not bound has no value. -/
theorem exists_error_of_unbound {context : Context} (h : Mentions text name)
    (hunbound : context.bindings.get? name = none) :
    ∃ error, evaluateText text context = .error error := by
  obtain ⟨f, hf, hname⟩ := h
  have hnode := Expr.mem_variableNames.1 (Text.mem_sortedNames.1 hname)
  obtain ⟨error, herror⟩ := Expr.exists_error_of_faultIn ⟨_, hnode, .unbound hunbound⟩
  refine ⟨error, ?_⟩
  unfold evaluateText
  rw [hf]
  exact herror

/-- A text in which a mark is a variable looks like a formula. -/
theorem looksLikeFormula_of_mentions (h : Mentions text name)
    (hmark : name ∈ Modifier.formulaMarks) : Modifier.looksLikeFormula text = true := by
  obtain ⟨f, hf, hname⟩ := h
  have hnode := Expr.mem_variableNames.1 (Text.mem_sortedNames.1 hname)
  exact List.any_eq_true.2
    ⟨name, hmark, Text.occurs_iff.2 (infix_of_name (parse_of_ofText? hf) hnode rfl)⟩

end Formula

namespace Modifier

variable {text : String} {context again : Formula.Context}

theorem apply_of_number {k : Float} (h : number? text = some k) (base : Float)
    (context : Formula.Context) : apply text base context = base * k := by
  unfold apply
  rw [h]

theorem apply_of_value (hnumber : number? text = none) (hformula : looksLikeFormula text = true)
    {x : Float} (hvalue : Formula.evaluateText text context = .ok x) (base : Float) :
    apply text base context = x := by
  unfold apply
  rw [hnumber]
  simp only [hformula, hvalue, if_true]

/-- A text that is no number is ignored, or replaces whatever it is applied to by its value. -/
theorem isIgnored_or_replaces (hnumber : number? text = none) (context : Formula.Context) :
    IsIgnored text context ∨ ∃ x, ∀ base, apply text base context = x := by
  cases hformula : looksLikeFormula text with
  | false => exact .inl ⟨hnumber, .inl hformula⟩
  | true =>
    cases hvalue : Formula.evaluateText text context with
    | error error => exact .inl ⟨hnumber, .inr ⟨error, hvalue⟩⟩
    | ok x => exact .inr ⟨x, apply_of_value hnumber hformula hvalue⟩

/-- To apply a text once more changes nothing where it has the value that it had before. -/
theorem apply_apply (hnumber : number? text = none)
    (hsame : Formula.evaluateText text again = Formula.evaluateText text context) (base : Float) :
    apply text (apply text base context) again = apply text base context := by
  have hfirst : apply text base context = apply text base again := by
    unfold apply
    rw [hsame]
  rcases isIgnored_or_replaces hnumber again with hignored | ⟨x, hx⟩
  · exact apply_of_isIgnored hignored _
  · rw [hx, hfirst, hx]

end Modifier

/-! ### The two applications -/

theorem get?_bindings_mwd (size : PricedSize) : size.bindings.get? "MWD" = none := by
  cases size <;> rfl

namespace ChainStages

variable (s : ChainStages) (size : PricedSize) (price? : String → Option Float)

/-- The second application sees what the first one sees, and `MWD`. -/
theorem context_damperAgain : s.context size price? .damperAgain =
    ⟨(s.context size price? .damper).bindings.set "MWD" s.mwd, price?⟩ := rfl

/-- The first application comes before there is a variable `MWD`. -/
theorem get?_context_damper : (s.context size price? .damper).bindings.get? "MWD" = none := by
  change (((size.bindings.set "TB" s.tb).set "WD" s.wd).set "BP" s.bp).get? "MWD" = none
  rw [get?_set, if_neg (by decide), get?_set, if_neg (by decide), get?_set, if_neg (by decide),
    get?_bindings_mwd]

end ChainStages

namespace ChainInput

variable {input : ChainInput} {tb wd : Option Float} {size : PricedSize}
  {price? : String → Option Float}

section WithDamper

variable {text : String} {s : ChainStages}

/-- The amounts of an item with a damper, by its WD modifier. -/
theorem isRun_of_damper (hdamper : input.withDamper = true)
    (htext : input.product.wdModifier? = some text) (h : s.IsRun input tb wd size price?) :
    s.mwd = Modifier.apply text (wd.getD 0) (s.context size price? .damper) ∧
      s.base = Modifier.apply text s.mwd (s.context size price? .damperAgain) := by
  obtain ⟨-, hwd, -, hmwd, hbase, -⟩ := h
  rw [htext, hwd] at hmwd
  rw [if_pos hdamper, htext] at hbase
  exact ⟨hmwd, hbase⟩

theorem amounts_of_no_modifier (hdamper : input.withDamper = true)
    (hnone : input.product.wdModifier? = none) (h : s.IsRun input tb wd size price?) :
    s.mwd = wd.getD 0 ∧ s.base = wd.getD 0 := by
  obtain ⟨-, hwd, -, hmwd, hbase, -⟩ := h
  rw [hnone] at hmwd hbase
  rw [if_pos hdamper] at hbase
  exact ⟨hmwd.trans hwd, hbase.trans (hmwd.trans hwd)⟩

theorem amounts_of_number (hdamper : input.withDamper = true)
    (htext : input.product.wdModifier? = some text) (h : s.IsRun input tb wd size price?)
    {k : Float} (hk : Modifier.number? text = some k) :
    s.mwd = wd.getD 0 * k ∧ s.base = wd.getD 0 * k * k := by
  obtain ⟨hmwd, hbase⟩ := isRun_of_damper hdamper htext h
  rw [Modifier.apply_of_number hk] at hmwd hbase
  exact ⟨hmwd, hmwd ▸ hbase⟩

/-- A formula without `MWD` has the same value, or none, both times. -/
theorem base_eq_mwd_of_not_mentions (hdamper : input.withDamper = true)
    (htext : input.product.wdModifier? = some text) (h : s.IsRun input tb wd size price?)
    (hnumber : Modifier.number? text = none) (hfree : ¬ Formula.Mentions text "MWD") :
    s.base = s.mwd := by
  obtain ⟨hmwd, hbase⟩ := isRun_of_damper hdamper htext h
  have hsame : Formula.evaluateText text (s.context size price? .damperAgain) =
      Formula.evaluateText text (s.context size price? .damper) := by
    rw [s.context_damperAgain]
    exact Formula.evaluateText_set hfree s.mwd
  rw [hbase, hmwd]
  exact Modifier.apply_apply hnumber hsame _

/-- A formula with `MWD` has no value in the first application. -/
theorem mwd_of_mentions (hdamper : input.withDamper = true)
    (htext : input.product.wdModifier? = some text) (h : s.IsRun input tb wd size price?)
    (hnumber : Modifier.number? text = none) (hmentions : Formula.Mentions text "MWD") :
    s.mwd = wd.getD 0 := by
  have hfails := Formula.exists_error_of_unbound hmentions (s.get?_context_damper size price?)
  rw [(isRun_of_damper hdamper htext h).1]
  exact Modifier.apply_of_isIgnored ⟨hnumber, .inr hfails⟩ _

end WithDamper

/-- With a damper the finish is applied to the amount that the second application of the WD modifier
gives. A number multiplies `WD` twice. A text that is no number leaves `MWD` as it is the second
time, unless it is a formula that mentions `MWD` and has a value then. Such a formula has no value
the first time, so that `MWD` is `WD`. -/
theorem base_of_damper (input : ChainInput) (hdamper : input.withDamper = true)
    (tb wd : Option Float) (size : PricedSize) (price? : String → Option Float) :
    let s := input.stages tb wd size price?
    let again := s.context size price? .damperAgain
    (∀ b, input.run tb wd size price? = .ok b →
      b.mwd = s.mwd ∧ wholePrice (input.applyFinish s.base again) = .ok b.price) ∧
    (input.product.wdModifier? = none → s.mwd = wd.getD 0 ∧ s.base = wd.getD 0) ∧
    ∀ text, input.product.wdModifier? = some text →
      (∀ k, Modifier.number? text = some k →
        s.mwd = wd.getD 0 * k ∧ s.base = wd.getD 0 * k * k) ∧
      (Modifier.number? text = none →
        ((¬ Formula.Mentions text "MWD" ∨
            ∃ error, Formula.evaluateText text again = .error error) →
          s.base = s.mwd) ∧
        (Formula.Mentions text "MWD" →
          s.mwd = wd.getD 0 ∧ ∀ x, Formula.evaluateText text again = .ok x → s.base = x)) := by
  intro s again
  have hrun : s.IsRun input tb wd size price? := input.isRun_stages tb wd size price?
  refine ⟨fun b hb ↦ ?_, fun hnone ↦ amounts_of_no_modifier hdamper hnone hrun,
    fun text htext ↦ ⟨fun k hk ↦ amounts_of_number hdamper htext hrun hk, fun hnumber ↦ ⟨?_, ?_⟩⟩⟩
  · obtain ⟨price, hprice, rfl⟩ := map_eq_ok_iff.1 hb
    exact ⟨rfl, hprice⟩
  · rintro (hfree | herror)
    · exact base_eq_mwd_of_not_mentions hdamper htext hrun hnumber hfree
    · rw [(isRun_of_damper hdamper htext hrun).2]
      exact Modifier.apply_of_isIgnored ⟨hnumber, .inr herror⟩ _
  · intro hmentions
    have hformula := Formula.looksLikeFormula_of_mentions hmentions (by decide)
    refine ⟨mwd_of_mentions hdamper htext hrun hnumber hmentions, fun x hx ↦ ?_⟩
    rw [(isRun_of_damper hdamper htext hrun).2]
    exact Modifier.apply_of_value hnumber hformula hx _

/-- An item with a damper whose product has this WD slot. -/
def damped (slot : String) : ChainInput where
  product := ⟨1, 1, "A", none, some slot, none, none, none⟩
  finish := none
  withDamper := true
  specialColorMultiplier := 1

/-- The number multiplies twice. Both formulas are without `MWD` in their first application, and
only the one that mentions it has another value in the second. -/
theorem base_of_damper_damped :
    (((damped "1.5").stages none (some 4) .none fun _ ↦ none).mwd = 4 * 1.5 ∧
      ((damped "1.5").stages none (some 4) .none fun _ ↦ none).base = 4 * 1.5 * 1.5) ∧
    ((damped "WD+1").stages none (some 4) .none fun _ ↦ none).base =
      ((damped "WD+1").stages none (some 4) .none fun _ ↦ none).mwd ∧
    ((damped "MWD+WD").stages none (some 4) .none fun _ ↦ none).mwd = 4 ∧
      ((damped "MWD+WD").stages none (some 4) .none fun _ ↦ none).base = 8 := by
  have hfree : ¬ Formula.Mentions "WD+1" "MWD" := by
    rw [Formula.mentions_iff (show _ = some ["WD"] by decide +kernel)]
    decide
  have hmentions : Formula.Mentions "MWD+WD" "MWD" :=
    (Formula.mentions_iff (show _ = some ["MWD", "WD"] by decide +kernel)).2 List.mem_cons_self
  obtain ⟨-, -, hnumber⟩ := base_of_damper (damped "1.5") rfl none (some 4) .none fun _ ↦ none
  obtain ⟨-, -, hwd⟩ := base_of_damper (damped "WD+1") rfl none (some 4) .none fun _ ↦ none
  obtain ⟨-, -, hagain⟩ := base_of_damper (damped "MWD+WD") rfl none (some 4) .none fun _ ↦ none
  obtain ⟨hmwd, hbase⟩ := ((hagain "MWD+WD" (by decide +kernel)).2 (by decide +kernel)).2 hmentions
  exact ⟨(hnumber "1.5" (by decide +kernel)).1 1.5 (by decide +kernel),
    ((hwd "WD+1" (by decide +kernel)).2 (by decide +kernel)).1 (.inl hfree), hmwd,
    hbase 8 (eq_ok_of_toOption (by decide +kernel))⟩

end ChainInput

end Ventilation
