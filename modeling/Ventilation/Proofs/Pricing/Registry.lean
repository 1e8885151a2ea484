import Mathlib.Data.List.Lattice
import Ventilation.Pricing.HandGear
import Ventilation.Proofs.Pricing.Answer

/-!
# Runs of registrations

A registry keeps its families in a list, and for each of their models the place of its family there.
Whatever calls are made of it, accepted or refused, each model has the place of the one family that
was accepted with it. A call checks all its models before it enters the first, so that a refused
one leaves the registry as it was.
-/

set_option autoImplicit false
set_option relaxedAutoImplicit false

namespace Ventilation.OverrideRegistry

variable {r r' : OverrideRegistry} {f : HandGearFamily Float}
  {accepted : List (HandGearFamily Float)}

/-! ### One call -/

/-- The first of the models that has a family already. -/
def taken? (r : OverrideRegistry) (models : List String) : Option String :=
  models.find? fun model ↦ (r.places.lookup model).isSome

theorem run_forM_checkFree (r : OverrideRegistry) (models : List String) :
    (models.forM checkFree).run r =
      match r.taken? models with
      | some model => .error (.duplicateModel model) r
      | none => .ok () r := by
  induction models with
  | nil => rfl
  | cons model models ih =>
    change (checkFree model >>= fun _ ↦ models.forM checkFree).run r = _
    rw [EStateM.run_bind]
    cases hplace : (r.places.lookup model).isSome with
    | true => simp [checkFree, taken?, hplace]
    | false => simpa [checkFree, taken?, hplace] using ih

theorem run_forM_enter (r : OverrideRegistry) (place : ℕ) (models : List String) :
    (models.forM (enter place)).run r =
      .ok () { r with places := models.reverse.map (·, place) ++ r.places } := by
  induction models generalizing r with
  | nil => rfl
  | cons model models ih =>
    change (enter place model >>= fun _ ↦ models.forM (enter place)).run r = _
    rw [EStateM.run_bind]
    change (models.forM (enter place)).run { r with places := (model, place) :: r.places } = _
    rw [ih]
    simp

/-- A call is refused over the first model that has a family, and changes nothing then. -/
theorem run_enroll (r : OverrideRegistry) (f : HandGearFamily Float) :
    (enroll f).run r =
      match r.taken? f.models with
      | some model => .error (.duplicateModel model) r
      | none =>
        .ok () ⟨r.families ++ [f], f.models.reverse.map (·, r.size) ++ r.places⟩ := by
  unfold enroll
  simp only [EStateM.run_bind, EStateM.run_get, run_forM_checkFree]
  cases r.taken? f.models with
  | some model => rfl
  | none => simp only [run_forM_enter, EStateM.run_modify]

theorem run_enroll_eq_error_iff {error : ConfigError} :
    (enroll f).run r = .error error r' ↔
      r' = r ∧ ∃ model, r.taken? f.models = some model ∧ error = .duplicateModel model := by
  rw [run_enroll]
  cases r.taken? f.models with
  | some model => simp [eq_comm, and_comm]
  | none => simp

theorem run_enroll_eq_ok_iff :
    (enroll f).run r = .ok () r' ↔ r.taken? f.models = none ∧
      r' = ⟨r.families ++ [f], f.models.reverse.map (·, r.size) ++ r.places⟩ := by
  rw [run_enroll]
  cases r.taken? f.models with
  | some model => simp
  | none => simp [eq_comm]

theorem register_eq_ok_iff : r.register f = .ok r' ↔ (enroll f).run r = .ok () r' := by
  unfold register
  cases (enroll f).run r <;> simp

/-! ### What a registry holds -/

/-- The registry holds just these families, and each of their models has the place of its family. -/
structure Holds (r : OverrideRegistry) (accepted : List (HandGearFamily Float)) : Prop where
  families_eq : r.families = accepted
  lookup_iff : ∀ model place, r.places.lookup model = some place ↔
    ∃ f, accepted[place]? = some f ∧ model ∈ f.models

theorem holds_empty : empty.Holds [] where
  families_eq := rfl
  lookup_iff model place := by simp [empty]

/-- Models that are entered together have one place, and all others the place that they had. -/
theorem lookup_entered (models : List String) (place : ℕ) (places : List (String × ℕ))
    (model : String) :
    (models.reverse.map (·, place) ++ places).lookup model =
      if model ∈ models then some place else places.lookup model := by
  induction models generalizing places with
  | nil => simp
  | cons other models ih =>
    rw [List.reverse_cons, List.map_append, List.append_assoc]
    change (models.reverse.map (·, place) ++ (other, place) :: places).lookup model = _
    rw [ih, List.lookup_cons]
    by_cases hmodel : model = other
    · simp [hmodel]
    · simp [hmodel, beq_eq_false_iff_ne.2 hmodel]

theorem getElem?_concat_eq_some_iff {α : Type} {xs : List α} {x y : α} {i : ℕ} :
    (xs ++ [x])[i]? = some y ↔ xs[i]? = some y ∨ i = xs.length ∧ x = y := by
  rw [List.getElem?_append]
  split
  · next hi => simp [Nat.ne_of_lt hi]
  · next hi =>
    rw [List.getElem?_eq_none (Nat.le_of_not_lt hi), List.getElem?_singleton]
    simp
    omega

namespace Holds

variable {model : String}

theorem size_eq (h : r.Holds accepted) : r.size = accepted.length :=
  congrArg List.length h.families_eq

theorem familyOf?_eq_some_iff (h : r.Holds accepted) :
    r.familyOf? model = some f ↔ f ∈ accepted ∧ model ∈ f.models := by
  unfold familyOf?
  rw [Option.bind_eq_some_iff, h.families_eq]
  constructor
  · rintro ⟨place, hplace, hf⟩
    obtain ⟨g, hg, hmodel⟩ := (h.lookup_iff model place).1 hplace
    obtain rfl := Option.some.inj (hf.symm.trans hg)
    exact ⟨List.mem_of_getElem? hf, hmodel⟩
  · rintro ⟨hf, hmodel⟩
    obtain ⟨place, hplace⟩ := List.mem_iff_getElem?.1 hf
    exact ⟨place, (h.lookup_iff model place).2 ⟨f, hplace, hmodel⟩, hplace⟩

theorem isSome_familyOf?_iff (h : r.Holds accepted) :
    (r.familyOf? model).isSome = true ↔ ∃ f ∈ accepted, model ∈ f.models := by
  simp only [Option.isSome_iff_exists, h.familyOf?_eq_some_iff]

/-- Every place is that of a family. -/
theorem isSome_lookup (h : r.Holds accepted) :
    (r.places.lookup model).isSome = (r.familyOf? model).isSome := by
  unfold familyOf?
  cases hplace : r.places.lookup model with
  | none => rfl
  | some place =>
    obtain ⟨f, hf, -⟩ := (h.lookup_iff model place).1 hplace
    simp [h.families_eq, hf]

theorem taken?_eq (h : r.Holds accepted) (models : List String) :
    r.taken? models = models.find? fun model ↦ (r.familyOf? model).isSome := by
  unfold taken?
  simp only [h.isSome_lookup]

/-- Families that hold a model in common would give it two places. -/
theorem pairwise_disjoint (h : r.Holds accepted) :
    accepted.Pairwise fun f g ↦ f.models.Disjoint g.models := by
  rw [List.pairwise_iff_getElem]
  intro i j hi hj hij model hf hg
  have hplace := (h.lookup_iff model i).2 ⟨_, List.getElem?_eq_getElem hi, hf⟩
  have hplace' := (h.lookup_iff model j).2 ⟨_, List.getElem?_eq_getElem hj, hg⟩
  exact Nat.ne_of_lt hij (Option.some.inj (hplace.symm.trans hplace'))

theorem taken?_eq_none_iff (h : r.Holds accepted) :
    r.taken? f.models = none ↔ ∀ g ∈ accepted, g.models.Disjoint f.models := by
  simp only [h.taken?_eq, List.find?_eq_none, h.isSome_familyOf?_iff]
  constructor
  · exact fun hfree g hg model hmodel hmodel' ↦ hfree model hmodel' ⟨g, hg, hmodel⟩
  · rintro hdisjoint model hmodel ⟨g, hg, hmodel'⟩
    exact hdisjoint g hg hmodel' hmodel

/-- An accepted call adds its family. -/
theorem enroll (h : r.Holds accepted) (hcall : (enroll f).run r = .ok () r') :
    r'.Holds (accepted ++ [f]) := by
  obtain ⟨hfree, rfl⟩ := run_enroll_eq_ok_iff.1 hcall
  refine ⟨by rw [h.families_eq], fun model place ↦ ?_⟩
  simp only [lookup_entered, getElem?_concat_eq_some_iff, h.size_eq]
  by_cases hmodel : model ∈ f.models
  · have hnone : ∀ g, accepted[place]? = some g → model ∉ g.models := fun g hg hmodel' ↦
      h.taken?_eq_none_iff.1 hfree g (List.mem_of_getElem? hg) hmodel' hmodel
    rw [if_pos hmodel]
    constructor
    · intro hplace
      exact ⟨f, .inr ⟨(Option.some.inj hplace).symm, rfl⟩, hmodel⟩
    · rintro ⟨g, hg | ⟨rfl, -⟩, hmodel'⟩
      · exact absurd hmodel' (hnone g hg)
      · rfl
  · rw [if_neg hmodel, h.lookup_iff]
    constructor
    · rintro ⟨g, hg, hmodel'⟩
      exact ⟨g, .inl hg, hmodel'⟩
    · rintro ⟨g, hg | ⟨-, rfl⟩, hmodel'⟩
      · exact ⟨g, hg, hmodel'⟩
      · exact absurd hmodel' hmodel

/-- Registering one family after the other succeeds if all are usable and none of their models is in
two families, those that the registry holds included. -/
theorem foldlM_register_iff (families : List (HandGearFamily Float)) (h : r.Holds accepted) :
    (∃ r', families.foldlM (fun r f ↦ do f.validate; r.register f) r = .ok r') ↔
      (∀ f ∈ families, f.validate = .ok ()) ∧
        (accepted ++ families).Pairwise fun f g ↦ f.models.Disjoint g.models := by
  induction families generalizing r accepted with
  | nil => simpa using iff_of_true ⟨r, rfl⟩ h.pairwise_disjoint
  | cons f families ih =>
    rw [List.foldlM_cons, List.append_cons, List.forall_mem_cons]
    constructor
    · rintro ⟨r', hrun⟩
      obtain ⟨next, hnext, hrun⟩ := bind_eq_ok_iff.1 hrun
      obtain ⟨_, hvalid, hcall⟩ := bind_eq_ok_iff.1 hnext
      obtain ⟨hrest, hdisjoint⟩ := (ih (h.enroll (register_eq_ok_iff.1 hcall))).1 ⟨r', hrun⟩
      exact ⟨⟨hvalid, hrest⟩, hdisjoint⟩
    · rintro ⟨⟨hvalid, hrest⟩, hdisjoint⟩
      have hfree : r.taken? f.models = none := by
        rw [h.taken?_eq_none_iff]
        intro g hg
        exact (List.pairwise_append.1 (List.pairwise_append.1 hdisjoint).1).2.2 g hg f
          List.mem_cons_self
      have hcall := run_enroll_eq_ok_iff.2 ⟨hfree, rfl⟩
      obtain ⟨r', hrun⟩ := (ih (h.enroll hcall)).2 ⟨hrest, hdisjoint⟩
      exact ⟨r', bind_eq_ok_iff.2
        ⟨_, bind_eq_ok_iff.2 ⟨(), hvalid, register_eq_ok_iff.2 hcall⟩, hrun⟩⟩

end Holds

/-! ### Runs of calls -/

/-- What a run of calls has come to: the registry, and the families that were accepted. -/
structure History where
  registry : OverrideRegistry
  accepted : List (HandGearFamily Float)

namespace History

/-- One more call. A run goes on with the registry that the call leaves, also if it is refused. -/
def call (h : History) (f : HandGearFamily Float) : History :=
  match (enroll f).run h.registry with
  | .ok _ r => ⟨r, h.accepted ++ [f]⟩
  | .error _ r => ⟨r, h.accepted⟩

/-- The calls of a run, from a registry without families. -/
def ofCalls (calls : List (HandGearFamily Float)) : History := calls.foldl call ⟨empty, []⟩

theorem holds_call {h : History} (hh : h.registry.Holds h.accepted) (f : HandGearFamily Float) :
    (h.call f).registry.Holds (h.call f).accepted := by
  unfold call
  cases hcall : (enroll f).run h.registry with
  | ok _ r => exact hh.enroll hcall
  | error error r =>
    obtain ⟨rfl, -⟩ := run_enroll_eq_error_iff.1 hcall
    exact hh

theorem holds_ofCalls (calls : List (HandGearFamily Float)) :
    (ofCalls calls).registry.Holds (ofCalls calls).accepted := by
  unfold ofCalls
  generalize hstart : (⟨empty, []⟩ : History) = start
  have hholds : start.registry.Holds start.accepted := hstart ▸ holds_empty
  clear hstart
  induction calls generalizing start with
  | nil => exact hholds
  | cons f calls ih => exact ih _ (holds_call hholds f)

end History

/-- Over any run of calls a model has a family just if that was accepted and lists the model, and no
two accepted families list a model in common. There are as many families as calls were accepted. A
call is accepted unless one of its models has a family; it then names the first such model and
leaves the registry as it was. A family may list a model twice. So the families of the options are
taken in just if all are usable and no model is in two of them. -/
theorem familyOf?_of_calls :
    (∀ calls : List (HandGearFamily Float),
      (∀ model f, (History.ofCalls calls).registry.familyOf? model = some f ↔
        f ∈ (History.ofCalls calls).accepted ∧ model ∈ f.models) ∧
      ((History.ofCalls calls).accepted.Pairwise fun f g ↦ f.models.Disjoint g.models) ∧
      (History.ofCalls calls).registry.size = (History.ofCalls calls).accepted.length ∧
      ∀ f,
        ((∃ r, (enroll f).run (History.ofCalls calls).registry = .ok () r) ↔
          ∀ model ∈ f.models, (History.ofCalls calls).registry.familyOf? model = none) ∧
        ∀ error r, (enroll f).run (History.ofCalls calls).registry = .error error r ↔
          r = (History.ofCalls calls).registry ∧ ∃ model, error = .duplicateModel model ∧
            f.models.find? (fun model ↦
              ((History.ofCalls calls).registry.familyOf? model).isSome) = some model) ∧
    ∀ o : EngineOptions, (∃ r, ofOptions o = .ok r) ↔
      (∀ f ∈ o.families, f.validate = .ok ()) ∧
        o.families.Pairwise fun f g ↦ f.models.Disjoint g.models := by
  refine ⟨fun calls ↦ ?_, fun o ↦ holds_empty.foldlM_register_iff o.families⟩
  have hholds := History.holds_ofCalls calls
  generalize (History.ofCalls calls).registry = r at hholds ⊢
  generalize (History.ofCalls calls).accepted = accepted at hholds ⊢
  refine ⟨fun model f ↦ hholds.familyOf?_eq_some_iff, hholds.pairwise_disjoint, hholds.size_eq,
    fun f ↦ ⟨?_, fun error r' ↦ ?_⟩⟩
  · simp only [run_enroll_eq_ok_iff, exists_and_left, exists_eq, and_true, hholds.taken?_eq,
      List.find?_eq_none, Option.not_isSome_iff_eq_none]
  · simp only [run_enroll_eq_error_iff, hholds.taken?_eq, and_comm]

/-- A family with the usual figures. -/
def familyOfModels (models : List String) : HandGearFamily Float :=
  { HandGearFamily.standard with models }

/-- A family that lists a model twice is accepted. A family that shares this model is refused, and
its other model, which comes first, has no family afterwards. -/
theorem familyOf?_of_calls_shared :
    ∃ r, (enroll (familyOfModels ["B", "A"])).run
          (History.ofCalls [familyOfModels ["A", "A"]]).registry =
        .error (.duplicateModel "A") r ∧
      r = (History.ofCalls [familyOfModels ["A", "A"]]).registry ∧
      r.familyOf? "A" = some (familyOfModels ["A", "A"]) ∧ r.familyOf? "B" = none := by
  have hcalls := familyOf?_of_calls.1 [familyOfModels ["A", "A"]]
  have hrefused := ((hcalls.2.2.2 (familyOfModels ["B", "A"])).2 (.duplicateModel "A") _).2
    ⟨rfl, "A", rfl, rfl⟩
  exact ⟨_, hrefused, rfl, (hcalls.1 "A" _).2 ⟨List.mem_cons_self, List.mem_cons_self⟩, rfl⟩

end Ventilation.OverrideRegistry
