import Ventilation.Proofs.Formula.Descent
import Ventilation.Proofs.Formula.Nesting

/-!
# The size of formulas

A tree that was read has at most as many nodes as its text has bytes without the blanks around it,
`length_nodes_le`: each node has a token of its own. Going through a tree takes at most as many
calls within one another as it has nodes, so for no tree that was read does its evaluation or a walk
over its nodes take more than 1024.
-/

set_option autoImplicit false
set_option relaxedAutoImplicit false

namespace Ventilation.Formula

open Text

/-! ### Nodes, tokens and bytes -/

section

variable {tokens : List Token} {cs : List Char}

theorem length_nodesOf_le {trees : List Expr}
    (h : Listed (fun tokens tree ↦ tree.nodes.length ≤ tokens.length) tokens trees) :
    (Expr.nodesOf trees).length ≤ tokens.length := by
  induction h with
  | single h =>
    rw [Expr.nodesOf, Expr.nodesOf, List.append_nil]
    exact h
  | more h _ ih =>
    rw [Expr.nodesOf, List.length_append, List.length_append, List.length_cons]
    omega

theorem isCompositional_length_nodes :
    IsCompositional fun tokens tree ↦ tree.nodes.length ≤ tokens.length where
  number _ := Nat.le_refl 1
  model _ := Nat.le_refl 1
  constant _ := Nat.le_refl 1
  var _ := Nat.le_refl 1
  callEmpty _ := Nat.le_add_left 1 2
  call function tokens trees h := by
    have hargs := length_nodesOf_le h
    rw [Expr.nodes]
    simp only [List.length_cons, List.length_append]
    omega
  group h := by
    simp only [List.length_cons, List.length_append]
    omega
  sign _ _ _ h := by
    rw [Expr.nodes]
    exact Nat.succ_le_succ h
  binary _ _ _ _ _ hleft hright := by
    rw [Expr.nodes]
    simp only [List.length_cons, List.length_append]
    omega

theorem length_le_of_written (h : Written cs tokens) : tokens.length ≤ byteCount cs := by
  induction h with
  | nil => exact Nat.le_refl 0
  | blank _ _ ih => exact ih.trans (Nat.le_add_left _ _)
  | token hspells _ ih =>
    have hpos := byteCount_pos (ne_nil_of_spells hspells)
    rw [List.length_cons, byteCount_append]
    omega

end

/-- Each node of a tree that was read has a byte of its own. -/
theorem length_nodes_le {text : String} {tree : Expr} (h : parse text = .ok tree) :
    tree.nodes.length ≤ (trimmed text).utf8ByteSize ∧
      (trimmed text).utf8ByteSize ≤ maxLength := by
  obtain ⟨hsize, tokens, hsplits, hsum⟩ := parse_eq_ok_iff.1 h
  refine ⟨?_, hsize⟩
  have htokens := length_le_of_written (written_of_splits (splits_trim.2 hsplits))
  rw [byteCount_eq] at htokens
  exact (isCompositional_length_nodes.sum hsum).trans htokens

/-! ### Calls within one another -/

namespace Expr

mutual

/-- How many nodes of a tree stand at most below one another. -/
def height : Expr → ℕ
  | number _ | var _ | model _ => 1
  | sign _ operand => operand.height + 1
  | binary _ left right => max left.height right.height + 1
  | call _ args => heightOf args + 1

def heightOf : List Expr → ℕ
  | [] => 0
  | e :: es => max e.height (heightOf es)

end

theorem height_pos (tree : Expr) : 0 < tree.height := by
  cases tree <;> exact Nat.succ_pos _

mutual

theorem height_le_length_nodes (tree : Expr) : tree.height ≤ tree.nodes.length := by
  cases tree with
  | number _ | var _ | model _ => exact Nat.le_refl 1
  | sign op operand =>
    rw [height, nodes]
    exact Nat.succ_le_succ (height_le_length_nodes operand)
  | binary op left right =>
    have hleft := height_le_length_nodes left
    have hright := height_le_length_nodes right
    rw [height, nodes]
    simp only [List.length_cons, List.length_append]
    omega
  | call function args =>
    rw [height, nodes]
    exact Nat.succ_le_succ (heightOf_le_length_nodesOf args)

theorem heightOf_le_length_nodesOf (trees : List Expr) :
    heightOf trees ≤ (nodesOf trees).length := by
  cases trees with
  | nil => exact Nat.le_refl 0
  | cons tree trees =>
    have htree := height_le_length_nodes tree
    have htrees := heightOf_le_length_nodesOf trees
    rw [heightOf, nodesOf, List.length_append]
    omega

end

mutual

/-- The nodes of a tree, by a walk for which there is room for so many calls within one another. -/
def nodesWithin (room : ℕ) (tree : Expr) : Option (List Expr) :=
  match room with
  | 0 => none
  | room + 1 =>
    match tree with
    | number _ | var _ | model _ => return [tree]
    | sign _ operand => return tree :: (← operand.nodesWithin room)
    | binary _ left right => do
      let front ← left.nodesWithin room
      let back ← right.nodesWithin room
      return tree :: (front ++ back)
    | call _ args => return tree :: (← nodesOfWithin room args)

def nodesOfWithin (room : ℕ) : List Expr → Option (List Expr)
  | [] => return []
  | e :: es => do
    let front ← e.nodesWithin room
    let back ← nodesOfWithin room es
    return front ++ back

end

mutual

/-- The value of a tree, by an evaluation for which there is room for so many calls within one
another. -/
def valueWithin (context : Context) (room : ℕ) (tree : Expr) : ExceptT Error Option Float :=
  match room with
  | 0 => ExceptT.mk none
  | room + 1 =>
    match tree with
    | number x => return x
    | var name =>
      match context.bindings.get? name with
      | some x => return x
      | none => throw (.unknownVariable name)
    | model name =>
      match context.price? name with
      | some x => return x
      | none => throw (.unresolvedModel name)
    | sign op operand => op.apply <$> operand.valueWithin context room
    | binary op left right => do
      let l ← left.valueWithin context room
      let r ← right.valueWithin context room
      liftExcept (op.apply l r)
    | call name args =>
      match Function.ofName? name with
      | none => throw (.unknownFunction name)
      | some function => do
        liftExcept (function.checkArity args.length)
        let values ← valuesWithin context room args
        liftExcept (function.apply values)

def valuesWithin (context : Context) (room : ℕ) : List Expr → ExceptT Error Option (List Float)
  | [] => return []
  | e :: es => do
    let x ← e.valueWithin context room
    let xs ← valuesWithin context room es
    return x :: xs

end

mutual

theorem nodesWithin_eq (tree : Expr) {room : ℕ} (h : tree.height ≤ room) :
    tree.nodesWithin room = some tree.nodes := by
  cases room with
  | zero => exact absurd h (Nat.not_le.2 tree.height_pos)
  | succ room =>
    cases tree with
    | number _ | var _ | model _ => rfl
    | sign op operand =>
      rw [height] at h
      rw [nodesWithin, nodesWithin_eq operand (Nat.le_of_succ_le_succ h), nodes]
      rfl
    | binary op left right =>
      rw [height] at h
      rw [nodesWithin, nodesWithin_eq left (by omega), nodesWithin_eq right (by omega), nodes]
      rfl
    | call function args =>
      rw [height] at h
      rw [nodesWithin, nodesOfWithin_eq args (Nat.le_of_succ_le_succ h), nodes]
      rfl

theorem nodesOfWithin_eq (trees : List Expr) {room : ℕ} (h : heightOf trees ≤ room) :
    nodesOfWithin room trees = some (nodesOf trees) := by
  cases trees with
  | nil => rfl
  | cons tree trees =>
    rw [heightOf] at h
    rw [nodesOfWithin, nodesWithin_eq tree (by omega), nodesOfWithin_eq trees (by omega), nodesOf]
    rfl

end

section

variable {α β : Type}

theorem run_liftExcept (x : Except Error α) :
    (liftExcept x : ExceptT Error Option α).run = some x := by
  cases x <;> rfl

theorem liftExcept_bind (x : Except Error α) (f : α → Except Error β) :
    (liftExcept x >>= fun a ↦ liftExcept (f a) : ExceptT Error Option β) =
      liftExcept (x >>= f) := by
  cases x <;> rfl

end

mutual

theorem valueWithin_eq (context : Context) (tree : Expr) {room : ℕ} (h : tree.height ≤ room) :
    tree.valueWithin context room = liftExcept (tree.value context) := by
  cases room with
  | zero => exact absurd h (Nat.not_le.2 tree.height_pos)
  | succ room =>
    cases tree with
    | number x => rfl
    | var name =>
      rw [valueWithin, value]
      cases context.bindings.get? name <;> rfl
    | model name =>
      rw [valueWithin, value]
      cases context.price? name <;> rfl
    | sign op operand =>
      rw [height] at h
      rw [valueWithin, valueWithin_eq context operand (Nat.le_of_succ_le_succ h), value]
      cases operand.value context <;> rfl
    | binary op left right =>
      rw [height] at h
      rw [valueWithin, valueWithin_eq context left (by omega),
        valueWithin_eq context right (by omega), value]
      simp only [liftExcept_bind]
    | call name args =>
      rw [height] at h
      rw [valueWithin, value]
      cases Function.ofName? name with
      | none => rfl
      | some function =>
        dsimp only
        rw [valuesWithin_eq context args (Nat.le_of_succ_le_succ h)]
        simp only [liftExcept_bind]

theorem valuesWithin_eq (context : Context) (trees : List Expr) {room : ℕ}
    (h : heightOf trees ≤ room) :
    valuesWithin context room trees = liftExcept (valuesOf context trees) := by
  cases trees with
  | nil => rfl
  | cons tree trees =>
    rw [heightOf] at h
    rw [valuesWithin, valueWithin_eq context tree (by omega),
      valuesWithin_eq context trees (by omega), valuesOf]
    cases tree.value context with
    | error e => rfl
    | ok x => cases valuesOf context trees <;> rfl

end

end Expr

/-! ### Limits -/

/-- Formulas that are read are small and shallow. While a text is read, at most 64 signed operands
are read within one another, and none once the reader has ended, whatever it answers. It answers
that the nesting is too deep only where the text begins with an unfinished sum whose last operand
opens 65 of them within one another. A tree that is read has at most as many nodes as the text has
bytes without the blanks around it, thus 1024, and no more calls within one another are needed to
evaluate it or to walk over its nodes. -/
theorem reads_within_limits (text : String) :
    (∃ s, Runs (readText text) Cursor.start (parse text) s ∧
      (∀ depth ∈ s.depths, depth ≤ 64) ∧ s.depth = 0) ∧
    (parse text = .error .tooDeep → ∃ front back before deep,
      (trimmed text).toList = front ++ back ∧ Written front (before ++ deep) ∧
        BeforeOperand (Unary 64) before ∧ Nest 65 deep) ∧
    ∀ tree, parse text = .ok tree →
      tree.nodes.length ≤ (trimmed text).utf8ByteSize ∧ (trimmed text).utf8ByteSize ≤ 1024 ∧
        (∀ context, (tree.valueWithin context 1024).run = some (tree.value context)) ∧
        tree.nodesWithin 1024 = some tree.nodes := by
  refine ⟨?_, fun h ↦ ?_, fun tree h ↦ ?_⟩
  · obtain ⟨s, hruns, hsafe, hdepth, -⟩ := exists_runs_readText text
    exact ⟨s, hruns, hsafe.depths, hdepth⟩
  · obtain ⟨before, deep, hinitial, hbefore, hnest⟩ := nest_of_parse h
    obtain ⟨front, back, hfront, hwritten⟩ := exists_written_of_prefix hinitial
    refine ⟨front, back, before, deep, ?_, hwritten, hbefore, hnest⟩
    rwa [trimmed, String.toList_ofList]
  · obtain ⟨hnodes, hsize⟩ := length_nodes_le h
    have hheight : tree.height ≤ 1024 := tree.height_le_length_nodes.trans (hnodes.trans hsize)
    refine ⟨hnodes, hsize, fun context ↦ ?_, tree.nodesWithin_eq hheight⟩
    rw [tree.valueWithin_eq context hheight, Expr.run_liftExcept]

theorem unary_of_signs (room : ℕ) (rest : List Token) :
    unary none room (List.replicate room .minus ++ rest) = .error .tooDeep := by
  induction room with
  | zero => rfl
  | succ room ih =>
    simp only [List.replicate_succ, List.cons_append, unary, signed, stepOnto_none, ok_bind, ih]
    rfl

/-- As many signs as there is room for leave none for an operand; with one sign there are as many
nodes as bytes. -/
theorem reads_within_limits_signs :
    parse (String.ofList (List.replicate 64 '-' ++ ['x'])) = .error .tooDeep ∧
      (∃ front back before deep,
        (trimmed (String.ofList (List.replicate 64 '-' ++ ['x']))).toList = front ++ back ∧
          Written front (before ++ deep) ∧ BeforeOperand (Unary 64) before ∧ Nest 65 deep) ∧
      parse "-x" = .ok (.sign .negate (.var "x")) ∧
      (Expr.sign .negate (.var "x")).nodes.length ≤ (trimmed "-x").utf8ByteSize := by
  have hsigns : lex 0 (trim (List.replicate 64 '-' ++ ['x'])) =
      ⟨List.replicate 64 .minus ++ [.identifier "x"], none⟩ :=
    congrArg₂ Lexed.mk (by decide +kernel) (by decide +kernel)
  have hdeep : parse (String.ofList (List.replicate 64 '-' ++ ['x'])) = .error .tooDeep := by
    unfold parse
    rw [String.toList_ofList]
    dsimp only
    rw [if_neg (by decide +kernel), hsigns, parseTokens, stepOnto_none, ok_bind, expression, level,
      level, maxNesting, unary_of_signs]
    rfl
  have hsign : lex 0 "-x".toList = ⟨[.minus, .identifier "x"], none⟩ :=
    congrArg₂ Lexed.mk (by decide +kernel) (by decide +kernel)
  have hname : ∀ value, ¬ Constant "x" value := by
    intro value h
    have hvalue := constant_iff.2 h
    simp [constant?] at hvalue
  have hok : parse "-x" = .ok (.sign .negate (.var "x")) :=
    parse_eq_ok_iff.2 ⟨by decide, _, splits_of_lex hsign,
      .single (.single (.sign .minus (.power (.primary (.var hname)))))⟩
  exact ⟨hdeep, (reads_within_limits _).2.1 hdeep, hok, ((reads_within_limits _).2.2 _ hok).1⟩

end Ventilation.Formula
