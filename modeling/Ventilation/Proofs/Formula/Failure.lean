import Mathlib.Tactic.Basic
import Ventilation.Proofs.Formula.Occurrence

/-!
# How an evaluation fails

Every node of a tree is evaluated, so that a name without a value fails the whole tree wherever it
stands, and so does a call of an unknown function or with a wrong number of arguments. A tree
without such a fault has a finite value or fails in its arithmetic. The functions never miss an
argument: they are applied to no fewer values than they take.
-/

set_option autoImplicit false
set_option relaxedAutoImplicit false

namespace Ventilation.Formula

/-- The failures of arithmetic, as against those of names and of calls. -/
inductive Error.IsArithmetic : Error → Prop
  | divisionByZero : IsArithmetic .divisionByZero
  | domain (operation : String) : IsArithmetic (.domain operation)
  | notFinite : IsArithmetic .notFinite
  | fractionalDigits : IsArithmetic (.argument .fractionalDigits)

namespace Expr

/-- A node has no value in a context, whatever else the tree holds, and how it fails. -/
inductive HasFault (context : Context) : Expr → Error → Prop
  | unbound {name : String} (h : context.bindings.get? name = none) :
    HasFault context (.var name) (.unknownVariable name)
  | unresolved {name : String} (h : context.price? name = none) :
    HasFault context (.model name) (.unresolvedModel name)
  | unregistered {name : String} {args : List Expr} (h : ∀ f : Function, f.name ≠ name) :
    HasFault context (.call name args) (.unknownFunction name)
  | unadmitted {f : Function} {args : List Expr} (h : f.arity.admits args.length = false) :
    HasFault context (.call f.name args) (.argumentCount f.name f.arity args.length)

end Expr

/-! ### Functions and operators -/

section Arithmetic

variable {e : Error}

theorem isArithmetic_of_inDomain {operation : String} {x : Float}
    (h : Function.inDomain operation x = .error e) : e.IsArithmetic := by
  unfold Function.inDomain at h
  split at h
  · cases h
    exact .domain operation
  · cases h

theorem isArithmetic_of_power {base exponent : Float}
    (h : Function.power base exponent = .error e) : e.IsArithmetic := by
  unfold Function.power at h
  split at h
  · cases h
    exact .domain "pow"
  · exact isArithmetic_of_inDomain h

theorem isArithmetic_of_roundAt {x : Float} {digits : Option Float}
    (h : Function.roundAt x digits = .error e) : e.IsArithmetic := by
  unfold Function.roundAt at h
  split at h
  · cases h
  · split at h
    · cases h
      exact .fractionalDigits
    · cases h

theorem isArithmetic_of_logarithm {x : Float} {base : Option Float}
    (h : Function.logarithm x base = .error e) : e.IsArithmetic := by
  unfold Function.logarithm at h
  split at h
  · cases h
    exact .domain "log"
  · split at h
    · cases h
    · split at h
      · cases h
        exact .domain "log"
      · split at h
        · cases h
          exact .divisionByZero
        · cases h

theorem isArithmetic_of_domain_ite {p : Prop} [Decidable p] {operation : String} {x : Float}
    (h : (if p then .error (.domain operation) else .ok x : Except Error Float) = .error e) :
    e.IsArithmetic := by
  split at h
  · cases h
    exact .domain operation
  · cases h

theorem isArithmetic_of_divided {value : Option Float} (h : divided value = .error e) :
    e.IsArithmetic := by
  cases value with
  | none =>
    cases h
    exact .divisionByZero
  | some x => cases h

theorem Operator.isArithmetic_of_apply {op : Operator} {left right : Float}
    (h : op.apply left right = .error e) : e.IsArithmetic := by
  cases op with
  | add => cases h
  | subtract => cases h
  | multiply => cases h
  | divide => exact isArithmetic_of_divided h
  | floorDivide => exact isArithmetic_of_divided h
  | modulo => exact isArithmetic_of_divided h
  | power =>
    dsimp only [Operator.apply, Operator.applyWith, raised] at h
    split at h
    · cases h
      exact .divisionByZero
    · exact isArithmetic_of_inDomain h

namespace Function

theorem exists_cons_of_admits {f : Function} {args : List Float}
    (h : f.arity.admits args.length = true) : ∃ x rest, args = x :: rest := by
  cases args with
  | nil => cases f <;> cases h
  | cons x rest => exact ⟨x, rest, rfl⟩

/-- A function that is given as many values as it takes fails in its arithmetic only. -/
theorem isArithmetic_of_apply {f : Function} {args : List Float}
    (hcount : f.arity.admits args.length = true) (h : f.apply args = .error e) :
    e.IsArithmetic := by
  obtain ⟨x, rest, rfl⟩ := exists_cons_of_admits hcount
  cases f with
  | min => cases h
  | max => cases h
  | ceil => cases h
  | floor => cases h
  | abs => cases h
  | exp => cases h
  | sqrt => exact isArithmetic_of_domain_ite h
  | log10 => exact isArithmetic_of_domain_ite h
  | sin => exact isArithmetic_of_inDomain h
  | cos => exact isArithmetic_of_inDomain h
  | tan => exact isArithmetic_of_inDomain h
  | round => exact isArithmetic_of_roundAt h
  | log => exact isArithmetic_of_logarithm h
  | pow =>
    -- the exponent is there, since two values are taken
    cases rest with
    | nil => cases hcount
    | cons y rest => exact isArithmetic_of_power h

theorem ofName?_name (f : Function) : ofName? f.name = some f := by
  cases f <;> rfl

theorem name_eq_of_ofName? {name : String} {f : Function} (h : ofName? name = some f) :
    f.name = name := by
  simpa using List.find?_some h

theorem ofName?_eq_none {name : String} (h : ∀ f : Function, f.name ≠ name) :
    ofName? name = none :=
  List.find?_eq_none.2 fun f _ hname ↦ h f (by simpa using hname)

theorem checkArity_of_admits {f : Function} {count : Nat} (h : f.arity.admits count = true) :
    f.checkArity count = .ok () :=
  if_pos h

theorem checkArity_of_not_admits {f : Function} {count : Nat} (h : f.arity.admits count = false) :
    f.checkArity count = .error (.argumentCount f.name f.arity count) :=
  if_neg (by rw [h]; exact Bool.false_ne_true)

end Function

end Arithmetic

namespace Expr

variable {context : Context} {e : Error}

/-! ### Every node is evaluated -/

theorem value_call (f : Function) (args : List Expr) :
    (call f.name args).value context = (do
      f.checkArity args.length
      let values ← valuesOf context args
      f.apply values) := by
  rw [value, Function.ofName?_name]

theorem value_of_hasFault {node : Expr} (h : HasFault context node e) :
    node.value context = .error e := by
  cases h with
  | unbound h =>
    rw [value]
    simp only [h]
  | unresolved h =>
    rw [value]
    simp only [h]
  | unregistered h => rw [value, Function.ofName?_eq_none h]
  | unadmitted h =>
    rw [value_call, Function.checkArity_of_not_admits h]
    rfl

/-- A call of a function that admits its arguments is without fault. -/
theorem not_hasFault_call {f : Function} {args : List Expr}
    (hcount : f.arity.admits args.length = true) : ¬ HasFault context (.call f.name args) e := by
  intro h
  generalize hname : f.name = name at h
  cases h with
  | unregistered h => exact h f hname
  | @unadmitted other _ hother =>
    have hsame := Function.ofName?_name other
    rw [← hname, Function.ofName?_name] at hsame
    obtain rfl := Option.some.inj hsame
    rw [hcount] at hother
    cases hother

theorem value_of_mem {trees : List Expr} {values : List Float}
    (h : valuesOf context trees = .ok values) :
    ∀ tree ∈ trees, ∃ x, tree.value context = .ok x := by
  induction trees generalizing values with
  | nil =>
    intro tree htree
    cases htree
  | cons tree trees ih =>
    rw [valuesOf] at h
    obtain ⟨x, hx, h⟩ := bind_eq_ok_iff.1 h
    obtain ⟨xs, hxs, -⟩ := bind_eq_ok_iff.1 h
    exact List.forall_mem_cons.2 ⟨⟨x, hx⟩, ih hxs⟩

theorem length_of_valuesOf {trees : List Expr} {values : List Float}
    (h : valuesOf context trees = .ok values) : values.length = trees.length := by
  induction trees generalizing values with
  | nil =>
    cases h
    rfl
  | cons tree trees ih =>
    rw [valuesOf] at h
    obtain ⟨x, -, h⟩ := bind_eq_ok_iff.1 h
    obtain ⟨xs, hxs, h⟩ := bind_eq_ok_iff.1 h
    cases h
    rw [List.length_cons, List.length_cons, ih hxs]

/-- A tree has a value only if each of its nodes has one. -/
theorem value_of_contains {tree node : Expr} (hnode : tree.Contains node) {x : Float}
    (h : tree.value context = .ok x) : ∃ y, node.value context = .ok y := by
  induction hnode generalizing x with
  | root tree => exact ⟨x, h⟩
  | operand _ ih =>
    rw [value] at h
    obtain ⟨y, hy, -⟩ := map_eq_ok_iff.1 h
    exact ih hy
  | left _ ih =>
    rw [value] at h
    obtain ⟨y, hy, -⟩ := bind_eq_ok_iff.1 h
    exact ih hy
  | right _ ih =>
    rw [value] at h
    obtain ⟨l, hl, h⟩ := bind_eq_ok_iff.1 h
    obtain ⟨y, hy, -⟩ := bind_eq_ok_iff.1 h
    exact ih hy
  | arg harg _ ih =>
    rw [value] at h
    split at h
    · cases h
    · obtain ⟨-, -, h⟩ := bind_eq_ok_iff.1 h
      obtain ⟨values, hvalues, -⟩ := bind_eq_ok_iff.1 h
      obtain ⟨y, hy⟩ := value_of_mem hvalues _ harg
      exact ih hy

/-! ### Where a failure comes from -/

/-- A fault stands on a node of the tree. -/
def FaultIn (context : Context) (tree : Expr) (e : Error) : Prop :=
  ∃ node, tree.Contains node ∧ HasFault context node e

theorem FaultIn.lift {tree whole : Expr} (h : FaultIn context tree e)
    (hwhole : ∀ node, tree.Contains node → whole.Contains node) : FaultIn context whole e := by
  obtain ⟨node, hnode, hfault⟩ := h
  exact ⟨node, hwhole node hnode, hfault⟩

mutual

theorem isArithmetic_or_faultIn (tree : Expr) (h : tree.value context = .error e) :
    e.IsArithmetic ∨ FaultIn context tree e := by
  cases tree with
  | number x =>
    rw [value] at h
    cases h
  | var name =>
    rw [value] at h
    split at h
    · cases h
    · rename_i hname
      cases h
      exact .inr ⟨_, .root _, .unbound hname⟩
  | model name =>
    rw [value] at h
    split at h
    · cases h
    · rename_i hname
      cases h
      exact .inr ⟨_, .root _, .unresolved hname⟩
  | sign op operand =>
    rw [value] at h
    cases hoperand : operand.value context with
    | ok x =>
      rw [hoperand] at h
      cases h
    | error e' =>
      rw [hoperand] at h
      cases h
      exact (isArithmetic_or_faultIn operand hoperand).imp_right fun hfault ↦
        hfault.lift fun _ ↦ .operand
  | binary op left right =>
    rw [value] at h
    rcases bind_eq_error_iff.1 h with hleft | ⟨l, -, h⟩
    · exact (isArithmetic_or_faultIn left hleft).imp_right fun hfault ↦ hfault.lift fun _ ↦ .left
    rcases bind_eq_error_iff.1 h with hright | ⟨r, -, h⟩
    · exact (isArithmetic_or_faultIn right hright).imp_right fun hfault ↦
        hfault.lift fun _ ↦ .right
    · exact .inl (Operator.isArithmetic_of_apply h)
  | call name args =>
    cases hf : Function.ofName? name with
    | none =>
      rw [value, hf] at h
      cases h
      refine .inr ⟨_, .root _, .unregistered fun f hname ↦ ?_⟩
      rw [← hname, Function.ofName?_name] at hf
      cases hf
    | some f =>
      obtain rfl := Function.name_eq_of_ofName? hf
      rw [value_call] at h
      cases hcount : f.arity.admits args.length with
      | false =>
        rw [Function.checkArity_of_not_admits hcount] at h
        cases h
        exact .inr ⟨_, .root _, .unadmitted hcount⟩
      | true =>
        rw [Function.checkArity_of_admits hcount, ok_bind] at h
        rcases bind_eq_error_iff.1 h with hargs | ⟨values, hvalues, h⟩
        · refine (isArithmetic_or_faultIn_arg args hargs).imp_right ?_
          rintro ⟨arg, harg, hfault⟩
          exact hfault.lift fun _ ↦ .arg harg
        · rw [← length_of_valuesOf hvalues] at hcount
          exact .inl (Function.isArithmetic_of_apply hcount h)

theorem isArithmetic_or_faultIn_arg (args : List Expr) (h : valuesOf context args = .error e) :
    e.IsArithmetic ∨ ∃ arg ∈ args, FaultIn context arg e := by
  cases args with
  | nil => cases h
  | cons arg args =>
    rw [valuesOf] at h
    rcases bind_eq_error_iff.1 h with harg | ⟨x, -, h⟩
    · exact (isArithmetic_or_faultIn arg harg).imp_right fun hfault ↦
        ⟨arg, List.mem_cons_self, hfault⟩
    rcases bind_eq_error_iff.1 h with hargs | ⟨xs, -, h⟩
    · refine (isArithmetic_or_faultIn_arg args hargs).imp_right ?_
      rintro ⟨other, hother, hfault⟩
      exact ⟨other, List.mem_cons_of_mem _ hother, hfault⟩
    · cases h

end

theorem evaluate_eq_ok_iff {tree : Expr} {x : Float} :
    tree.evaluate context = .ok x ↔ tree.value context = .ok x ∧ x.isFinite = true := by
  unfold evaluate
  rw [bind_eq_ok_iff]
  constructor
  · rintro ⟨y, hy, h⟩
    split at h
    · cases h
      exact ⟨hy, ‹_›⟩
    · cases h
  · rintro ⟨hx, hfinite⟩
    exact ⟨x, hx, if_pos hfinite⟩

theorem isArithmetic_or_faultIn_of_evaluate {tree : Expr} (h : tree.evaluate context = .error e) :
    e.IsArithmetic ∨ FaultIn context tree e := by
  unfold evaluate at h
  rcases bind_eq_error_iff.1 h with hvalue | ⟨x, -, h⟩
  · exact isArithmetic_or_faultIn tree hvalue
  · split at h
    · cases h
    · cases h
      exact .inl .notFinite

theorem exists_error_of_faultIn {tree : Expr} (h : FaultIn context tree e) :
    ∃ e', tree.evaluate context = .error e' := by
  obtain ⟨node, hnode, hfault⟩ := h
  cases heval : tree.evaluate context with
  | error e' => exact ⟨e', rfl⟩
  | ok x =>
    obtain ⟨y, hy⟩ := value_of_contains hnode (evaluate_eq_ok_iff.1 heval).1
    rw [value_of_hasFault hfault] at hy
    cases hy

theorem not_faultIn_argument {tree : Expr} {error : ArgumentError} :
    ¬ FaultIn context tree (.argument error) := by
  rintro ⟨node, -, hfault⟩
  cases hfault

/-- A tree with a fault fails. One without a fault has a finite value or fails in its arithmetic,
and every other error names a fault of the tree. A tree that has a value has evaluated each of its
nodes. No function of a formula misses an argument, and none chooses among nothing. -/
theorem evaluate_of_faults (context : Context) (tree : Expr) :
    ((∃ e, FaultIn context tree e) → ∃ e, tree.evaluate context = .error e) ∧
    ((∀ e, ¬ FaultIn context tree e) →
      (∃ x, tree.evaluate context = .ok x ∧ x.isFinite = true) ∨
        ∃ e, tree.evaluate context = .error e ∧ e.IsArithmetic) ∧
    (∀ e, tree.evaluate context = .error e → e.IsArithmetic ∨ FaultIn context tree e) ∧
    (∀ x, tree.evaluate context = .ok x →
      ∀ node, tree.Contains node → ∃ y, node.value context = .ok y) ∧
    (∀ function index, tree.evaluate context ≠ .error (.argument (.missing function index))) ∧
    ∀ function, tree.evaluate context ≠ .error (.argument (.nothing function)) := by
  have hmissing : ∀ error, error ≠ .fractionalDigits →
      tree.evaluate context ≠ .error (.argument error) := by
    intro error herror h
    rcases isArithmetic_or_faultIn_of_evaluate h with harithmetic | hfault
    · cases harithmetic
      exact herror rfl
    · exact not_faultIn_argument hfault
  refine ⟨fun ⟨e, hfault⟩ ↦ exists_error_of_faultIn hfault, fun hnone ↦ ?_,
    fun e ↦ isArithmetic_or_faultIn_of_evaluate,
    fun x hx node hnode ↦ value_of_contains hnode (evaluate_eq_ok_iff.1 hx).1,
    fun function index ↦ hmissing _ (by simp), fun function ↦ hmissing _ (by simp)⟩
  cases heval : tree.evaluate context with
  | ok x => exact .inl ⟨x, rfl, (evaluate_eq_ok_iff.1 heval).2⟩
  | error e =>
    exact .inr ⟨e, rfl, (isArithmetic_or_faultIn_of_evaluate heval).resolve_right (hnone e)⟩

/-- The division fails before the unbound variable is met, and the call with too few arguments
before any of them is evaluated. The last tree is without fault. -/
theorem evaluate_of_faults_hidden :
    (∃ e, (binary .add (binary .divide (number 1) (number 0)) (var "WD")).evaluate
      ⟨.empty, fun _ ↦ none⟩ = .error e) ∧
    (∃ e, (call "max" [var "WD"]).evaluate ⟨.empty, fun _ ↦ none⟩ = .error e) ∧
    ((∃ x, (call "round" [number 2, model "A"]).evaluate ⟨.empty, fun _ ↦ some 0.5⟩ = .ok x ∧
        x.isFinite = true) ∨
      ∃ e, (call "round" [number 2, model "A"]).evaluate ⟨.empty, fun _ ↦ some 0.5⟩ = .error e ∧
        e.IsArithmetic) := by
  refine ⟨(evaluate_of_faults _ _).1 ⟨_, var "WD", .right (.root _), .unbound rfl⟩,
    (evaluate_of_faults _ _).1 ⟨_, _, .root _, .unadmitted (f := .max) rfl⟩,
    (evaluate_of_faults _ _).2.1 ?_⟩
  rintro e ⟨node, hnode, hfault⟩
  cases hnode with
  | root => exact not_hasFault_call (f := .round) rfl hfault
  | arg harg hnode =>
    rcases List.mem_pair.1 harg with rfl | rfl
    · cases hnode
      cases hfault
    · cases hnode
      cases hfault with
      | unresolved h => cases h

end Expr

end Ventilation.Formula
