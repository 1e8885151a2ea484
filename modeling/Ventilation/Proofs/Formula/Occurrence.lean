import Ventilation.Proofs.Formula.Agreement
import Ventilation.Proofs.Formula.Parsing
import Ventilation.Proofs.Text.Names

/-!
# The names that occur in a formula

The variables and models that a formula lists are just those of the nodes of its tree, in strictly
increasing order, and its value depends on nothing else. A constant is no variable: the reader has
put its value into the tree.
-/

set_option autoImplicit false
set_option relaxedAutoImplicit false

namespace Ventilation.Formula

namespace Expr

/-- A node stands somewhere in a tree. -/
inductive Contains : Expr → Expr → Prop
  | root (tree : Expr) : Contains tree tree
  | operand {op : Sign} {operand node : Expr} (h : Contains operand node) :
    Contains (.sign op operand) node
  | left {op : Operator} {left right node : Expr} (h : Contains left node) :
    Contains (.binary op left right) node
  | right {op : Operator} {left right node : Expr} (h : Contains right node) :
    Contains (.binary op left right) node
  | arg {function : String} {args : List Expr} {arg node : Expr} (harg : arg ∈ args)
    (h : Contains arg node) : Contains (.call function args) node

/-! ### Walking a tree -/

mutual

/-- The nodes of a tree, each before those below it. -/
def nodes (tree : Expr) : List Expr :=
  tree :: match tree with
    | sign _ operand => operand.nodes
    | binary _ left right => left.nodes ++ right.nodes
    | call _ args => nodesOf args
    | number _ | var _ | model _ => []

def nodesOf : List Expr → List Expr
  | [] => []
  | tree :: trees => tree.nodes ++ nodesOf trees

end

theorem mem_nodesOf {node : Expr} {trees : List Expr} :
    node ∈ nodesOf trees ↔ ∃ tree ∈ trees, node ∈ tree.nodes := by
  induction trees with
  | nil => simp [nodesOf]
  | cons tree trees ih => simp [nodesOf, ih]

theorem mem_nodes_of_contains {tree node : Expr} (h : tree.Contains node) : node ∈ tree.nodes := by
  induction h with
  | root tree =>
    unfold nodes
    exact List.mem_cons_self
  | operand _ ih =>
    unfold nodes
    exact List.mem_cons_of_mem _ ih
  | left _ ih =>
    unfold nodes
    exact List.mem_cons_of_mem _ (List.mem_append_left _ ih)
  | right _ ih =>
    unfold nodes
    exact List.mem_cons_of_mem _ (List.mem_append_right _ ih)
  | arg harg _ ih =>
    unfold nodes
    exact List.mem_cons_of_mem _ (mem_nodesOf.2 ⟨_, harg, ih⟩)

theorem contains_of_mem_nodes {node : Expr} (tree : Expr) (h : node ∈ tree.nodes) :
    tree.Contains node := by
  unfold nodes at h
  rcases List.mem_cons.1 h with rfl | h
  · exact .root _
  cases tree with
  | number x => cases h
  | var name => cases h
  | model name => cases h
  | sign op operand => exact .operand (contains_of_mem_nodes operand h)
  | binary op left right =>
    rcases List.mem_append.1 h with h | h
    · exact .left (contains_of_mem_nodes left h)
    · exact .right (contains_of_mem_nodes right h)
  | call function args =>
    obtain ⟨arg, harg, h⟩ := mem_nodesOf.1 h
    exact .arg harg (contains_of_mem_nodes arg h)

/-- The name of a variable. -/
def varName? : Expr → Option String
  | var name => some name
  | _ => none

/-- The name of a model that is referred to. -/
def modelName? : Expr → Option String
  | model name => some name
  | _ => none

mutual

theorem variableNames_eq_filterMap (tree : Expr) :
    tree.variableNames = tree.nodes.filterMap varName? := by
  cases tree with
  | number x => rfl
  | var name => rfl
  | model name => rfl
  | sign op operand => exact variableNames_eq_filterMap operand
  | binary op left right =>
    change left.variableNames ++ right.variableNames =
      (left.nodes ++ right.nodes).filterMap varName?
    rw [List.filterMap_append, variableNames_eq_filterMap left, variableNames_eq_filterMap right]
  | call function args => exact variableNamesOf_eq_filterMap args

theorem variableNamesOf_eq_filterMap (trees : List Expr) :
    variableNamesOf trees = (nodesOf trees).filterMap varName? := by
  cases trees with
  | nil => rfl
  | cons tree trees =>
    change tree.variableNames ++ variableNamesOf trees =
      (tree.nodes ++ nodesOf trees).filterMap varName?
    rw [List.filterMap_append, variableNames_eq_filterMap tree, variableNamesOf_eq_filterMap trees]

end

mutual

theorem models_eq_filterMap (tree : Expr) : tree.models = tree.nodes.filterMap modelName? := by
  cases tree with
  | number x => rfl
  | var name => rfl
  | model name => rfl
  | sign op operand => exact models_eq_filterMap operand
  | binary op left right =>
    change left.models ++ right.models = (left.nodes ++ right.nodes).filterMap modelName?
    rw [List.filterMap_append, models_eq_filterMap left, models_eq_filterMap right]
  | call function args => exact modelsOf_eq_filterMap args

theorem modelsOf_eq_filterMap (trees : List Expr) :
    modelsOf trees = (nodesOf trees).filterMap modelName? := by
  cases trees with
  | nil => rfl
  | cons tree trees =>
    change tree.models ++ modelsOf trees = (tree.nodes ++ nodesOf trees).filterMap modelName?
    rw [List.filterMap_append, models_eq_filterMap tree, modelsOf_eq_filterMap trees]

end

/-- What a walk picks off the nodes of one kind are the names of the nodes of that kind. -/
theorem mem_filterMap_nodes {pick : Expr → Option String} {node : String → Expr}
    (hpick : ∀ other name, pick other = some name ↔ other = node name) {tree : Expr}
    {name : String} : name ∈ tree.nodes.filterMap pick ↔ tree.Contains (node name) := by
  rw [List.mem_filterMap]
  constructor
  · rintro ⟨other, hother, hname⟩
    obtain rfl := (hpick other name).1 hname
    exact contains_of_mem_nodes tree hother
  · exact fun h ↦ ⟨node name, mem_nodes_of_contains h, (hpick _ _).2 rfl⟩

theorem mem_variableNames {tree : Expr} {name : String} :
    name ∈ tree.variableNames ↔ tree.Contains (.var name) := by
  rw [variableNames_eq_filterMap]
  refine mem_filterMap_nodes fun other name ↦ ?_
  cases other <;> simp [varName?]

theorem mem_models {tree : Expr} {name : String} :
    name ∈ tree.models ↔ tree.Contains (.model name) := by
  rw [models_eq_filterMap]
  refine mem_filterMap_nodes fun other name ↦ ?_
  cases other <;> simp [modelName?]

/-! ### Trees that can be read -/

/-- A property of every tree that stands for a phrase, as it passes from the parts of a tree to the
whole. -/
structure IsHereditary (P : Expr → Prop) : Prop where
  number (value : Float) : P (.number value)
  model (name : String) : P (.model name)
  var {name : String} (h : ∀ value, ¬ Constant name value) : P (.var name)
  sign (op : Sign) {operand : Expr} (h : P operand) : P (.sign op operand)
  binary (op : Operator) {left right : Expr} (hleft : P left) (hright : P right) :
    P (.binary op left right)
  call (function : String) {args : List Expr} (h : ∀ arg ∈ args, P arg) : P (.call function args)

namespace IsHereditary

variable {P : Expr → Prop} {phrase : Phrase} {tokens : List Token} {tree : Expr}

theorem leftGrouped (hP : IsHereditary P) {operator : Token → Operator → Prop}
    (hphrase : ∀ tokens tree, phrase tokens tree → P tree)
    (h : LeftGrouped operator phrase tokens tree) : P tree := by
  induction h with
  | single h => exact hphrase _ _ h
  | more _ _ hright ih => exact hP.binary _ ih (hphrase _ _ hright)

theorem sum (hP : IsHereditary P) (hphrase : ∀ tokens tree, phrase tokens tree → P tree)
    (h : Sum phrase tokens tree) : P tree :=
  hP.leftGrouped (fun _ _ ↦ hP.leftGrouped hphrase) h

theorem listed {trees : List Expr} (hphrase : ∀ tokens tree, phrase tokens tree → P tree)
    (h : Listed phrase tokens trees) : ∀ tree ∈ trees, P tree := by
  induction h with
  | single h => exact List.forall_mem_singleton.2 (hphrase _ _ h)
  | more h _ ih => exact List.forall_mem_cons.2 ⟨hphrase _ _ h, ih⟩

theorem primary (hP : IsHereditary P) (hphrase : ∀ tokens tree, phrase tokens tree → P tree)
    (h : Primary phrase tokens tree) : P tree := by
  cases h with
  | number value => exact hP.number value
  | model name => exact hP.model name
  | constant h => exact hP.number _
  | var h => exact hP.var h
  | callEmpty function => exact hP.call function fun arg harg ↦ by cases harg
  | call function h => exact hP.call function (listed (fun _ _ ↦ hP.sum hphrase) h)
  | group h => exact hP.sum hphrase h

theorem unary (hP : IsHereditary P) (room : ℕ) (h : Unary room tokens tree) : P tree := by
  induction room generalizing tokens tree with
  | zero => exact h.elim
  | succ room ih =>
    cases h with
    | sign hsign h => exact hP.sign _ (ih h)
    | power h =>
      cases h with
      | primary h => exact hP.primary (fun _ _ ↦ ih) h
      | raised hbase hexponent =>
        exact hP.binary _ (hP.primary (fun _ _ ↦ ih) hbase) (ih hexponent)

theorem parse (hP : IsHereditary P) {text : String} (h : parse text = .ok tree) : P tree := by
  unfold Formula.parse at h
  simp only at h
  split at h
  · cases h
  · exact hP.sum (fun _ _ ↦ hP.unary maxNesting) (parseTokens_eq_ok_iff.1 h).2

end IsHereditary

/-- A node other than the root stands in one of the parts. -/
theorem isHereditary_of_forall_var {P : String → Prop}
    (h : ∀ name, (∀ value, ¬ Constant name value) → P name) :
    IsHereditary fun tree ↦ ∀ name, tree.Contains (.var name) → P name where
  number value name hname := by cases hname
  model other name hname := by cases hname
  var hvar name hname := by
    cases hname
    exact h _ hvar
  sign op operand hoperand name hname := by
    cases hname with
    | operand hname => exact hoperand name hname
  binary op left right hleft hright name hname := by
    cases hname with
    | left hname => exact hleft name hname
    | right hname => exact hright name hname
  call function args hargs name hname := by
    cases hname with
    | arg harg hname => exact hargs _ harg name hname

theorem not_constant_of_contains {text : String} {tree : Expr} (h : parse text = .ok tree)
    {name : String} (hname : tree.Contains (.var name)) (value : Float) : ¬ Constant name value :=
  (isHereditary_of_forall_var fun _ ↦ id).parse h name hname value

end Expr

/-! ### What a formula declares -/

theorem parse_of_ofText? {text : String} {f : Formula} (h : ofText? text = .ok f) :
    parse text = .ok f.tree := by
  obtain ⟨-, -, h⟩ := bind_eq_ok_iff.1 h
  split at h
  · rename_i tree htree
    cases h
    exact htree
  · cases h

/-- The variables and the models of a formula are listed in strictly increasing order, each that
stands anywhere in its tree and no other, a constant never being a variable. The formula has the
same value, or the same error, in any two contexts that agree on these; without a resolver no model
has a price. -/
theorem evaluate_eq_of_listed_names (text : String) (f : Formula) (hf : ofText? text = .ok f) :
    f.variableNames.Pairwise (· < ·) ∧ f.models.Pairwise (· < ·) ∧
      (∀ name, name ∈ f.variableNames ↔ f.tree.Contains (.var name)) ∧
      (∀ name, name ∈ f.models ↔ f.tree.Contains (.model name)) ∧
      "pi" ∉ f.variableNames ∧ "e" ∉ f.variableNames ∧
      ∀ a b : Context, AgreeOn a b f.variableNames f.models → f.evaluate a = f.evaluate b := by
  have hvariables : ∀ name, name ∈ f.variableNames ↔ f.tree.Contains (.var name) := fun name ↦
    Text.mem_sortedNames.trans Expr.mem_variableNames
  have hmodels : ∀ name, name ∈ f.models ↔ f.tree.Contains (.model name) := fun name ↦
    Text.mem_sortedNames.trans Expr.mem_models
  have hconstant : ∀ name value, Constant name value → name ∉ f.variableNames :=
    fun name value hvalue hname ↦
      Expr.not_constant_of_contains (parse_of_ofText? hf) ((hvariables name).1 hname) value hvalue
  refine ⟨Text.pairwise_sortedNames _, Text.pairwise_sortedNames _, hvariables, hmodels,
    hconstant _ _ .pi, hconstant _ _ .e, fun a b h ↦ ?_⟩
  have hagree : AgreeOn a b f.tree.variableNames f.tree.models :=
    ⟨fun name hname ↦ h.binding name (Text.mem_sortedNames.2 hname),
      fun model hmodel ↦ h.price model (Text.mem_sortedNames.2 hmodel)⟩
  unfold Formula.evaluate Expr.evaluate
  rw [Expr.value_eq_of_agreeOn f.tree hagree]

/-- The contexts differ in a variable and in a model that the formula does not mention. -/
theorem evaluate_eq_of_listed_names_maximum :
    ∃ f, ofText? "max(TB*1.1, [B]) + pi*WD - TB + [A]" = .ok f ∧
      f.variableNames = ["TB", "WD"] ∧ f.models = ["A", "B"] ∧
      f.evaluate ⟨(Variables.empty.set "TB" 100).set "WD" 50, fun _ ↦ some 7⟩ =
        f.evaluate ⟨((Variables.empty.set "SIZE" 8).set "WD" 50).set "TB" 100,
          fun model ↦ if model = "C" then none else some 7⟩ := by
  obtain ⟨f, hf, hnames⟩ : ∃ f, (ofText? "max(TB*1.1, [B]) + pi*WD - TB + [A]").toOption = some f ∧
      (f.variableNames, f.models) = (["TB", "WD"], ["A", "B"]) :=
    Option.map_eq_some_iff.1 (by decide +kernel)
  obtain ⟨hvariables, hmodels⟩ := Prod.mk.inj hnames
  have hf := eq_ok_of_toOption hf
  refine ⟨f, hf, hvariables, hmodels,
    (evaluate_eq_of_listed_names _ f hf).2.2.2.2.2.2 _ _ ⟨?_, ?_⟩⟩
  · rw [hvariables]
    decide +kernel
  · rw [hmodels]
    decide +kernel

end Ventilation.Formula
