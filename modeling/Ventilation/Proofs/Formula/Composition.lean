import Mathlib.Tactic.Basic
import Ventilation.Proofs.Formula.Occurrence

/-!
# Relations between tokens and trees

What passes from the parts of a phrase to the whole holds of every phrase and its tree. The first
relation of this kind: the tokens of a node stand together among those of a tree that contains it,
a name of a function right before its parenthesis.
-/

set_option autoImplicit false
set_option relaxedAutoImplicit false

namespace Ventilation.Formula

/-- The tokens between two operands. -/
inductive InfixToken : Token → Operator → Prop
  | additive {token : Token} {op : Operator} (h : Additive token op) : InfixToken token op
  | multiplicative {token : Token} {op : Operator} (h : Multiplicative token op) :
    InfixToken token op
  | power : InfixToken .doubleStar .power

/-- A relation between tokens and a tree, as it passes from the parts of a phrase to the whole. -/
structure IsCompositional (P : Phrase) : Prop where
  number (value : Float) : P [.number value] (.number value)
  model (name : String) : P [.model name] (.model name)
  constant {name : String} {value : Float} (h : Constant name value) :
    P [.identifier name] (.number value)
  var {name : String} (h : ∀ value, ¬ Constant name value) : P [.identifier name] (.var name)
  callEmpty (function : String) :
    P [.identifier function, .leftParen, .rightParen] (.call function [])
  call (function : String) {tokens : List Token} {trees : List Expr} (h : Listed P tokens trees) :
    P (.identifier function :: .leftParen :: (tokens ++ [.rightParen])) (.call function trees)
  group {tokens : List Token} {tree : Expr} (h : P tokens tree) :
    P (.leftParen :: (tokens ++ [.rightParen])) tree
  sign {token : Token} {sign : Sign} (hsign : SignToken token sign) {tokens : List Token}
    {tree : Expr} (h : P tokens tree) : P (token :: tokens) (.sign sign tree)
  binary {token : Token} {op : Operator} (hop : InfixToken token op) {tokens others : List Token}
    {left right : Expr} (hleft : P tokens left) (hright : P others right) :
    P (tokens ++ token :: others) (.binary op left right)

namespace IsCompositional

variable {P phrase : Phrase} {tokens : List Token} {tree : Expr}

theorem leftGrouped (hP : IsCompositional P) {operator : Token → Operator → Prop}
    (hoperator : ∀ token op, operator token op → InfixToken token op)
    (hphrase : ∀ tokens tree, phrase tokens tree → P tokens tree)
    (h : LeftGrouped operator phrase tokens tree) : P tokens tree := by
  induction h with
  | single h => exact hphrase _ _ h
  | more _ hop hright ih => exact hP.binary (hoperator _ _ hop) ih (hphrase _ _ hright)

theorem of_sum (hP : IsCompositional P)
    (hphrase : ∀ tokens tree, phrase tokens tree → P tokens tree)
    (h : Sum phrase tokens tree) : P tokens tree :=
  hP.leftGrouped (fun _ _ ↦ .additive)
    (fun _ _ ↦ hP.leftGrouped (fun _ _ ↦ .multiplicative) hphrase) h

theorem listed_mono {trees : List Expr}
    (hphrase : ∀ tokens tree, phrase tokens tree → P tokens tree)
    (h : Listed phrase tokens trees) : Listed P tokens trees := by
  induction h with
  | single h => exact .single (hphrase _ _ h)
  | more h _ ih => exact .more (hphrase _ _ h) ih

theorem primary (hP : IsCompositional P)
    (hphrase : ∀ tokens tree, phrase tokens tree → P tokens tree)
    (h : Primary phrase tokens tree) : P tokens tree := by
  cases h with
  | number value => exact hP.number value
  | model name => exact hP.model name
  | constant h => exact hP.constant h
  | var h => exact hP.var h
  | callEmpty function => exact hP.callEmpty function
  | call function h => exact hP.call function (listed_mono (fun _ _ ↦ hP.of_sum hphrase) h)
  | group h => exact hP.group (hP.of_sum hphrase h)

theorem unary (hP : IsCompositional P) (room : ℕ) (h : Unary room tokens tree) :
    P tokens tree := by
  induction room generalizing tokens tree with
  | zero => exact h.elim
  | succ room ih =>
    cases h with
    | sign hsign h => exact hP.sign hsign (ih h)
    | power h =>
      cases h with
      | primary h => exact hP.primary (fun _ _ ↦ ih) h
      | raised hbase hexponent =>
        exact hP.binary .power (hP.primary (fun _ _ ↦ ih) hbase) (ih hexponent)

theorem sum (hP : IsCompositional P) {room : ℕ} (h : Sum (Unary room) tokens tree) :
    P tokens tree :=
  hP.of_sum (fun _ _ ↦ hP.unary room) h

end IsCompositional

/-! ### The tokens of a node -/

namespace Expr

/-- The tokens by which a node shows: its name, and for a call the parenthesis after it. -/
def anchor : Expr → List Token
  | var name => [.identifier name]
  | model name => [.model name]
  | call function _ => [.identifier function, .leftParen]
  | number _ | sign _ _ | binary _ _ _ => []

/-- The tokens of each node of the tree stand among the tokens. -/
def Anchored (tokens : List Token) (tree : Expr) : Prop :=
  ∀ node, tree.Contains node → node.anchor <:+: tokens

theorem Anchored.mono {tokens more : List Token} {tree : Expr} (h : Anchored tokens tree)
    (hmore : tokens <:+: more) : Anchored more tree :=
  fun node hnode ↦ (h node hnode).trans hmore

theorem anchored_args {tokens : List Token} {trees : List Expr} (h : Listed Anchored tokens trees) :
    ∀ tree ∈ trees, Anchored tokens tree := by
  induction h with
  | single h => exact List.forall_mem_singleton.2 h
  | more h _ ih =>
    refine List.forall_mem_cons.2 ⟨h.mono (List.prefix_append _ _).isInfix, fun tree htree ↦ ?_⟩
    exact (ih tree htree).mono (((List.suffix_cons _ _).trans (List.suffix_append _ _)).isInfix)

theorem isCompositional_anchored : IsCompositional Anchored where
  number value node hnode := by
    cases hnode
    exact List.nil_infix
  model name node hnode := by
    cases hnode
    exact List.infix_rfl
  constant _ node hnode := by
    cases hnode
    exact List.nil_infix
  var _ node hnode := by
    cases hnode
    exact List.infix_rfl
  callEmpty function node hnode := by
    cases hnode with
    | root => exact ⟨[], [.rightParen], rfl⟩
    | arg harg _ => cases harg
  call function tokens trees h node hnode := by
    cases hnode with
    | root => exact ⟨[], tokens ++ [.rightParen], rfl⟩
    | arg harg hnode =>
      refine (anchored_args h _ harg node hnode).trans ?_
      exact ⟨[.identifier function, .leftParen], [.rightParen], rfl⟩
  group h := h.mono ⟨[.leftParen], [.rightParen], rfl⟩
  sign _ tokens tree h node hnode := by
    cases hnode with
    | root => exact List.nil_infix
    | operand hnode => exact (h node hnode).trans (List.suffix_cons _ _).isInfix
  binary _ tokens others left right hleft hright node hnode := by
    cases hnode with
    | root => exact List.nil_infix
    | left hnode => exact (hleft node hnode).trans (List.prefix_append _ _).isInfix
    | right hnode =>
      refine (hright node hnode).trans ?_
      exact ((List.suffix_cons _ _).trans (List.suffix_append _ _)).isInfix

end Expr

end Ventilation.Formula
