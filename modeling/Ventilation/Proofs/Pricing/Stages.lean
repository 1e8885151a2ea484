import Mathlib.Tactic.Basic
import Ventilation.Proofs.Pricing.Refusal

/-!
# The stages of the chain

Each slot of a product is applied at its own stages, where its text sees the amounts of the stages
before. A text that has no value there leaves the amount as it is, so that the chain fails only at
the last rounding, and the slot may as well be empty. No stage reaches back: the finish and the
damper do not change the amounts before them, and without a damper the WD modifier reaches nothing
but its own amount, since the finish sees what it is applied to in the place of `MWD`.
-/

set_option autoImplicit false
set_option relaxedAutoImplicit false

namespace Ventilation

/-! ### Variables that are bound again -/

namespace Variables

/-- What a name was bound to does not matter once it is bound again. -/
theorem set_set_of_ne (v : Variables) {name other : String} (hne : name ≠ other) (x y z : Float) :
    ((v.set name x).set other y).set name z = (v.set other y).set name z := by
  have htwice : ∀ entry : String × Float,
      (!decide (entry.1 = name) && (!decide (entry.1 = other) && !decide (entry.1 = name))) =
        (!decide (entry.1 = name) && !decide (entry.1 = other)) := by
    intro entry
    cases decide (entry.1 = name) <;> simp
  simp [set, hne, hne.symm, List.filter_filter, htwice]

end Variables

/-! ### Texts that are ignored -/

namespace Modifier

/-- A text that is no number, and no formula with a value. -/
def IsIgnored (text : String) (context : Formula.Context) : Prop :=
  number? text = none ∧
    (looksLikeFormula text = false ∨ ∃ error, Formula.evaluateText text context = .error error)

theorem apply_of_isIgnored {text : String} {context : Formula.Context}
    (h : IsIgnored text context) (base : Float) : apply text base context = base := by
  obtain ⟨hnumber, hformula⟩ := h
  unfold apply
  rw [hnumber]
  rcases hformula with hplain | ⟨error, herror⟩
  · simp only [hplain, Bool.false_eq_true, if_false]
  · simp only [herror, ite_self]

end Modifier

/-! ### Slots and stages -/

/-- The slots that the price of an item goes through; `finish` is that of the selected finish. -/
inductive ModifierSlot where
  | tb
  | wd
  | finish

/-- Where a slot is applied. With a damper the WD slot is applied twice. -/
inductive Stage where
  | base
  | damper
  | damperAgain
  | finish

/-- What the text of a slot is evaluated in. -/
def ChainStages.context (s : ChainStages) (size : PricedSize) (price? : String → Option Float) :
    Stage → Formula.Context
  | .base => ⟨(size.bindings.set "TB" s.tb).set "WD" s.wd, price?⟩
  | .damper => ⟨((size.bindings.set "TB" s.tb).set "WD" s.wd).set "BP" s.bp, price?⟩
  | .damperAgain =>
    ⟨(((size.bindings.set "TB" s.tb).set "WD" s.wd).set "BP" s.bp).set "MWD" s.mwd, price?⟩
  | .finish =>
    ⟨(((((size.bindings.set "TB" s.tb).set "WD" s.wd).set "BP" s.bp).set "MWD" s.mwd).set "BP"
      s.base).set "MWD" s.base, price?⟩

/-- A product that does not offer a finish. -/
def Product.withoutFinish (p : Product) : Finish → Product
  | .none => { p with noFinishSlot := none }
  | .anodized => { p with anodizedSlot := none }
  | .powderCoated _ => { p with powderCoatedSlot := none }
  | .specialColor | .other _ => p

namespace ChainInput

variable (input : ChainInput) {tb wd : Option Float} {size : PricedSize}
  {price? : String → Option Float}

def modifier? : ModifierSlot → Option String
  | .tb => input.product.tbModifier?
  | .wd => input.product.wdModifier?
  | .finish => input.finish.bind input.product.finishMultiplier?

def stagesOf : ModifierSlot → List Stage
  | .tb => [.base]
  | .wd => if input.withDamper then [.damper, .damperAgain] else [.damper]
  | .finish => [.finish]

/-- The same item of a product with one slot empty. -/
def emptied : ModifierSlot → ChainInput
  | .tb => { input with product := { input.product with tbSlot := none } }
  | .wd => { input with product := { input.product with wdSlot := none } }
  | .finish =>
    { input with product := input.finish.elim input.product input.product.withoutFinish }

end ChainInput

/-! ### The equations of a run -/

/-- The amounts of an item, each by the ones before it. -/
structure ChainStages.IsRun (s : ChainStages) (input : ChainInput) (tb wd : Option Float)
    (size : PricedSize) (price? : String → Option Float) : Prop where
  tb : s.tb = tb.getD 0
  wd : s.wd = wd.getD 0
  bp : s.bp = Modifier.applyIfAny input.product.tbModifier? s.tb (s.context size price? .base)
  mwd : s.mwd = Modifier.applyIfAny input.product.wdModifier? s.wd (s.context size price? .damper)
  base : s.base =
    if input.withDamper then
      Modifier.applyIfAny input.product.wdModifier? s.mwd (s.context size price? .damperAgain)
    else s.bp
  finished : s.finished = input.applyFinish s.base (s.context size price? .damperAgain)

namespace ChainInput

variable {input : ChainInput} {tb wd : Option Float} {size : PricedSize}
  {price? : String → Option Float}

theorem isRun_stages (input : ChainInput) (tb wd : Option Float) (size : PricedSize)
    (price? : String → Option Float) :
    (input.stages tb wd size price?).IsRun input tb wd size price? :=
  ⟨rfl, rfl, rfl, rfl, rfl, rfl⟩

/-- The equations leave no choice. -/
theorem stages_eq_of_isRun {s : ChainStages} (h : s.IsRun input tb wd size price?) :
    input.stages tb wd size price? = s := by
  obtain ⟨stb, swd, sbp, smwd, sbase, sfinished⟩ := s
  obtain ⟨htb, hwd, hbp, hmwd, hbase, hfinished⟩ := h
  simp only [ChainStages.context] at htb hwd hbp hmwd hbase hfinished
  subst htb hwd hbp hmwd hbase hfinished
  rfl

/-- Another slot than that of the finish plays no part in the finish. -/
theorem applyFinish_emptied (input : ChainInput) (slot : ModifierSlot) (hslot : slot ≠ .finish) :
    (input.emptied slot).applyFinish = input.applyFinish := by
  obtain ⟨product, finish, withDamper, multiplier⟩ := input
  cases slot with
  | finish => exact absurd rfl hslot
  | tb | wd =>
    cases finish with
    | none => rfl
    | some finish => cases finish <;> rfl

/-- Of the slots that come before the finish none is emptied with it. -/
theorem modifiers_emptied_finish (input : ChainInput) :
    (input.emptied .finish).product.tbModifier? = input.product.tbModifier? ∧
      (input.emptied .finish).product.wdModifier? = input.product.wdModifier? := by
  obtain ⟨product, finish, withDamper, multiplier⟩ := input
  cases finish with
  | none => exact ⟨rfl, rfl⟩
  | some finish => cases finish <;> exact ⟨rfl, rfl⟩

/-- A finish whose text is ignored changes nothing, nor does one that is not offered. -/
theorem applyFinish_of_isIgnored {text : String} (htext : input.modifier? .finish = some text)
    {base : Float} {context : Formula.Context}
    (h : Modifier.IsIgnored text
      { context with bindings := (context.bindings.set "BP" base).set "MWD" base }) :
    input.applyFinish base context = base ∧
      (input.emptied .finish).applyFinish base context = base := by
  obtain ⟨product, finish, withDamper, multiplier⟩ := input
  obtain ⟨finish, rfl, hslot⟩ := Option.bind_eq_some_iff.1 htext
  have happly := Modifier.apply_of_isIgnored h base
  cases finish with
  | specialColor => cases hslot
  | other name => cases hslot
  | none | anodized | powderCoated color =>
    refine ⟨?_, rfl⟩
    unfold applyFinish
    simp only [hslot]
    exact happly

/-- A slot whose text is ignored wherever it is applied may as well be empty. -/
theorem stages_emptied {slot : ModifierSlot} {text : String}
    (htext : input.modifier? slot = some text)
    (h : ∀ stage ∈ input.stagesOf slot,
      Modifier.IsIgnored text ((input.stages tb wd size price?).context size price? stage)) :
    (input.emptied slot).stages tb wd size price? = input.stages tb wd size price? := by
  have hrun := input.isRun_stages tb wd size price?
  generalize input.stages tb wd size price? = s at h hrun ⊢
  apply stages_eq_of_isRun
  cases slot with
  | tb =>
    have hslot : input.product.tbModifier? = some text := htext
    have hbp := hrun.bp
    rw [hslot] at hbp
    refine { hrun with bp := hbp.trans ?_, finished := ?_ }
    · exact Modifier.apply_of_isIgnored (h .base (List.mem_singleton.2 rfl)) s.tb
    · rw [applyFinish_emptied input .tb nofun]
      exact hrun.finished
  | wd =>
    have hslot : input.product.wdModifier? = some text := htext
    have hmwd := hrun.mwd
    have hbase := hrun.base
    rw [hslot] at hmwd hbase
    refine { hrun with mwd := hmwd.trans ?_, base := hbase.trans ?_, finished := ?_ }
    · refine Modifier.apply_of_isIgnored (h .damper ?_) s.wd
      cases hdamper : input.withDamper <;> simp [stagesOf, hdamper]
    · change _ = if input.withDamper then s.mwd else s.bp
      by_cases hdamper : input.withDamper = true
      · rw [if_pos hdamper, if_pos hdamper]
        refine Modifier.apply_of_isIgnored (h .damperAgain ?_) s.mwd
        simp [stagesOf, hdamper]
      · rw [if_neg hdamper, if_neg hdamper]
    · rw [applyFinish_emptied input .wd nofun]
      exact hrun.finished
  | finish =>
    obtain ⟨htb, hwd⟩ := input.modifiers_emptied_finish
    have hignored : Modifier.IsIgnored text (s.context size price? .finish) :=
      h .finish (List.mem_singleton.2 rfl)
    obtain ⟨hfinished, hempty⟩ :
        input.applyFinish s.base (s.context size price? .damperAgain) = s.base ∧ _ :=
      applyFinish_of_isIgnored htext hignored
    refine { hrun with bp := ?_, mwd := ?_, base := ?_, finished := ?_ }
    · rw [htb]
      exact hrun.bp
    · rw [hwd]
      exact hrun.mwd
    · rw [hwd]
      exact hrun.base
    · rw [hempty, ← hfinished]
      exact hrun.finished

/-! ### Failures -/

/-- A chain fails only over an amount that is no price, and a slot whose text is ignored wherever it
is applied gives the result of a product with that slot empty. -/
theorem run_of_ignored_modifiers (input : ChainInput) (tb wd : Option Float) (size : PricedSize)
    (price? : String → Option Float) :
    (¬ IsRefused (input.stages tb wd size price?).finished →
      ∃ b, input.run tb wd size price? = .ok b) ∧
    (∀ error, input.run tb wd size price? = .error error ↔
      error = .invalidPrice (input.stages tb wd size price?).finished ∧
        IsRefused (input.stages tb wd size price?).finished) ∧
    ∀ slot text, input.modifier? slot = some text →
      (∀ stage ∈ input.stagesOf slot,
        Modifier.IsIgnored text ((input.stages tb wd size price?).context size price? stage)) →
      (input.emptied slot).run tb wd size price? = input.run tb wd size price? := by
  refine ⟨exists_run_of_not_isRefused, fun _ ↦ run_eq_error_iff, fun slot text htext h ↦ ?_⟩
  unfold run
  rw [stages_emptied htext h]

/-- An anodized item with a damper whose WD slot refers to a model that has no price. -/
def unresolved : ChainInput where
  product := ⟨1, 1, "A", some "TB*2", some "MWD+[B]", some "MWD*1.5", none, none⟩
  finish := some .anodized
  withDamper := true
  specialColorMultiplier := 1

/-- The slot is ignored both before there is a variable `MWD` and after it. -/
theorem run_of_ignored_modifiers_unresolved :
    unresolved.modifier? .wd = some "MWD+[B]" ∧
    (∀ stage ∈ unresolved.stagesOf .wd, Modifier.IsIgnored "MWD+[B]"
      ((unresolved.stages (some 10) (some 4) .none fun _ ↦ none).context .none (fun _ ↦ none)
        stage)) ∧
    (unresolved.emptied .wd).run (some 10) (some 4) .none (fun _ ↦ none) =
      unresolved.run (some 10) (some 4) .none fun _ ↦ none := by
  have hslot : unresolved.modifier? .wd = some "MWD+[B]" := by decide +kernel
  have hignored : ∀ stage ∈ unresolved.stagesOf .wd, Modifier.IsIgnored "MWD+[B]"
      ((unresolved.stages (some 10) (some 4) .none fun _ ↦ none).context .none (fun _ ↦ none)
        stage) := by
    intro stage hstage
    refine ⟨by decide +kernel, .inr (exists_error_of_toOption ?_)⟩
    have hstage' : stage = .damper ∨ stage = .damperAgain := by
      simpa [stagesOf, unresolved] using hstage
    rcases hstage' with rfl | rfl
    · decide +kernel
    · decide +kernel
  exact ⟨hslot, hignored,
    (run_of_ignored_modifiers unresolved (some 10) (some 4) .none fun _ ↦ none).2.2 .wd _ hslot
      hignored⟩

/-! ### What reaches what -/

/-- The same item of a product with another WD slot. -/
def withWdSlot (input : ChainInput) (slot : Option String) : ChainInput :=
  { input with product := { input.product with wdSlot := slot } }

theorem applyFinish_withWdSlot (input : ChainInput) (slot : Option String) :
    (input.withWdSlot slot).applyFinish = input.applyFinish := by
  obtain ⟨product, finish, withDamper, multiplier⟩ := input
  cases finish with
  | none => rfl
  | some finish => cases finish <;> rfl

/-- A finish sees what it is applied to in the place of `MWD`. -/
theorem applyFinish_set_mwd (input : ChainInput) (base : Float) (v : Variables) (x y : Float) :
    input.applyFinish base ⟨v.set "MWD" x, price?⟩ =
      input.applyFinish base ⟨v.set "MWD" y, price?⟩ := by
  unfold applyFinish
  simp only [Variables.set_set_of_ne v (show "MWD" ≠ "BP" by decide)]

/-- Without a damper another WD slot changes the amount `MWD` and no other. -/
theorem exists_stages_withWdSlot (hdamper : input.withDamper = false) (slot : Option String) :
    ∃ mwd, (input.withWdSlot slot).stages tb wd size price? =
      { input.stages tb wd size price? with mwd } := by
  have hrun := input.isRun_stages tb wd size price?
  generalize input.stages tb wd size price? = s at hrun ⊢
  refine ⟨Modifier.applyIfAny (slotText? slot) s.wd (s.context size price? .damper),
    stages_eq_of_isRun { hrun with mwd := rfl, base := ?_, finished := ?_ }⟩
  · have hbase := hrun.base
    rw [hdamper] at hbase
    change s.base = if input.withDamper then _ else s.bp
    rw [hdamper]
    exact hbase
  · rw [applyFinish_withWdSlot]
    exact hrun.finished.trans (input.applyFinish_set_mwd s.base _ _ _)

/-- The amounts before the finish are the same for every finish, multiplier and damper. Without a
damper, products that differ in the WD slot fail with the same error or have breakdowns that differ
in `MWD` alone. -/
theorem run_isolated (tb wd : Option Float) (size : PricedSize)
    (price? : String → Option Float) :
    (∀ i j : ChainInput, i.product = j.product → ∀ b c, i.run tb wd size price? = .ok b →
      j.run tb wd size price? = .ok c →
      b.tb = c.tb ∧ b.wd = c.wd ∧ b.bp = c.bp ∧ b.mwd = c.mwd) ∧
    ∀ i : ChainInput, i.withDamper = false → ∀ slot, ∃ mwd,
      (i.withWdSlot slot).run tb wd size price? =
        (i.run tb wd size price?).map fun b ↦ { b with mwd } := by
  constructor
  · intro i j hproduct b c hb hc
    obtain ⟨-, -, rfl⟩ := map_eq_ok_iff.1 hb
    obtain ⟨-, -, rfl⟩ := map_eq_ok_iff.1 hc
    unfold stages
    rw [hproduct]
    exact ⟨rfl, rfl, rfl, rfl⟩
  · intro i hdamper slot
    obtain ⟨mwd, hstages⟩ : ∃ mwd, (i.withWdSlot slot).stages tb wd size price? =
      { i.stages tb wd size price? with mwd } := exists_stages_withWdSlot hdamper slot
    refine ⟨mwd, ?_⟩
    unfold run
    rw [hstages]
    simp only
    cases wholePrice (i.stages tb wd size price?).finished with
    | error error => rfl
    | ok price => rfl

/-- An item of a product with all slots filled. -/
def fitted (finish : Option Finish) (withDamper : Bool) : ChainInput where
  product := ⟨1, 1, "A", some "TB*2", some "WD+BP", some "MWD*1.5", none, none⟩
  finish := finish
  withDamper := withDamper
  specialColorMultiplier := 2

/-- A plain item and an anodized one with a damper; the formula of the finish mentions `MWD`. -/
theorem run_isolated_fitted : ∃ b c mwd,
    (fitted none false).run (some 10) (some 4) .none (fun _ ↦ none) = .ok b ∧ b.price = 20 ∧
    (fitted (some .anodized) true).run (some 10) (some 4) .none (fun _ ↦ none) = .ok c ∧
      c.price = 36 ∧
    (b.tb = c.tb ∧ b.wd = c.wd ∧ b.bp = c.bp ∧ b.mwd = c.mwd) ∧
    ((fitted (some .anodized) false).withWdSlot none).run (some 10) (some 4) .none
        (fun _ ↦ none) =
      ((fitted (some .anodized) false).run (some 10) (some 4) .none fun _ ↦ none).map
        fun b ↦ { b with mwd } := by
  obtain ⟨hstages, hslot⟩ := run_isolated (some 10) (some 4) .none fun _ ↦ none
  obtain ⟨b, hb, hplain⟩ := map_eq_ok_iff.1 (eq_ok_of_toOption (show
    (((fitted none false).run (some 10) (some 4) .none fun _ ↦ none).map
      PriceBreakdown.price).toOption = some 20 by decide +kernel))
  obtain ⟨c, hc, hanodized⟩ := map_eq_ok_iff.1 (eq_ok_of_toOption (show
    (((fitted (some .anodized) true).run (some 10) (some 4) .none fun _ ↦ none).map
      PriceBreakdown.price).toOption = some 36 by decide +kernel))
  obtain ⟨mwd, hmwd⟩ := hslot (fitted (some .anodized) false) rfl none
  exact ⟨b, c, mwd, hb, hplain, hc, hanodized,
    hstages (fitted none false) (fitted (some .anodized) true) rfl b c hb hc, hmwd⟩

end ChainInput

end Ventilation
