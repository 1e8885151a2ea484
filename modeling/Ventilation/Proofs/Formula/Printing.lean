import Ventilation.Proofs.Formula.Written

/-!
# Reading undoes printing

A tree is printed with parentheses around an operand only if it binds looser than its place asks
for. Whatever blanks stand between the tokens, the text is read to the same tree if and only if it
has at most 1024 bytes and nests at most 64 deep. How deep, `nesting`, is counted on the tree:
signs, parentheses, calls and exponents. No text of the tree nests less.
-/

set_option autoImplicit false
set_option relaxedAutoImplicit false

namespace Ventilation.Formula

open Text

/-! ### Levels -/

/-- The places of the grammar, from the loosest to the tightest. -/
inductive Level where
  | sum
  | term
  | unary
  | primary

namespace Level

def rank : Level → ℕ
  | sum => 0
  | term => 1
  | unary => 2
  | primary => 3

/-- In parentheses if what stands at the place binds looser than the place asks for. -/
def fit (place own : Level) (tokens : List Token) : List Token :=
  if own.rank < place.rank then .leftParen :: (tokens ++ [.rightParen]) else tokens

/-- How deep that nests; parentheses make it one deeper. -/
def nest (place own : Level) (nesting : ℕ) : ℕ :=
  if own.rank < place.rank then nesting + 1 else nesting

/-- The phrases that may stand at the place, with room for nesting so deep. -/
def Admits : Level → ℕ → Phrase
  | sum, room => Sum (Unary room)
  | term, room => Term (Unary room)
  | unary, room => Unary room
  | primary, 0 => fun _ _ ↦ False
  | primary, room + 1 => Primary (Unary room)

end Level

def Sign.token : Sign → Token
  | negate => .minus
  | plus => .plus

namespace Operator

def token : Operator → Token
  | add => .plus
  | subtract => .minus
  | multiply => .star
  | divide => .slash
  | floorDivide => .doubleSlash
  | modulo => .percent
  | power => .doubleStar

/-- Where an operation may stand without parentheses. -/
def level : Operator → Level
  | add | subtract => .sum
  | multiply | divide | floorDivide | modulo => .term
  | power => .unary

def leftLevel : Operator → Level
  | add | subtract => .sum
  | multiply | divide | floorDivide | modulo => .term
  | power => .primary

def rightLevel : Operator → Level
  | add | subtract => .term
  | multiply | divide | floorDivide | modulo => .unary
  | power => .unary

/-- How much deeper the right operand stands than the operation. -/
def rightNesting : Operator → ℕ
  | power => 1
  | _ => 0

end Operator

namespace Expr

/-- Where a tree may stand without parentheses. -/
def level : Expr → Level
  | binary op _ _ => op.level
  | sign _ _ => .unary
  | number _ | var _ | model _ | call _ _ => .primary

mutual

/-- The tokens of a tree, in parentheses only where the grammar asks for them. -/
def printed : Expr → List Token
  | number value => [.number value]
  | var name => [.identifier name]
  | model name => [.model name]
  | sign op operand => op.token :: Level.fit .unary operand.level operand.printed
  | binary op left right =>
    op.leftLevel.fit left.level left.printed ++
      op.token :: op.rightLevel.fit right.level right.printed
  | call function args => .identifier function :: .leftParen :: (printedOf args ++ [.rightParen])

/-- The tokens of several trees, with commas between them. -/
def printedOf : List Expr → List Token
  | [] => []
  | [tree] => tree.printed
  | tree :: next :: trees => tree.printed ++ .comma :: printedOf (next :: trees)

end

mutual

/-- How deep signs, parentheses, calls and exponents nest in what is printed, counting from 1. -/
def nesting : Expr → ℕ
  | number _ | var _ | model _ => 1
  | sign _ operand => Level.nest .unary operand.level operand.nesting + 1
  | binary op left right =>
    max (op.leftLevel.nest left.level left.nesting)
      (op.rightLevel.nest right.level right.nesting + op.rightNesting)
  | call _ args => nestingOf args + 1

/-- The deepest nesting among several trees. -/
def nestingOf : List Expr → ℕ
  | [] => 0
  | tree :: trees => max tree.nesting (nestingOf trees)

end

end Expr

/-! ### What is printed is a phrase -/

section

variable {room nesting : ℕ} {tokens others : List Token} {tree left right : Expr}

namespace Level

variable {place own : Level}

/-- What may stand at a tighter place may stand at a looser one. -/
theorem Admits.loosen (h : own.Admits room tokens tree) (hle : place.rank ≤ own.rank) :
    place.Admits room tokens tree := by
  have hunary : primary.Admits room tokens tree → unary.Admits room tokens tree := by
    intro h
    cases room with
    | zero => exact h.elim
    | succ room => exact .power (.primary h)
  cases own with
  | sum =>
    cases place with
    | sum => exact h
    | _ => simp [rank] at hle
  | term =>
    cases place with
    | sum => exact .single h
    | term => exact h
    | _ => simp [rank] at hle
  | unary =>
    cases place with
    | sum => exact .single (.single h)
    | term => exact .single h
    | unary => exact h
    | primary => simp [rank] at hle
  | primary =>
    cases place with
    | sum => exact .single (.single (hunary h))
    | term => exact .single (hunary h)
    | unary => exact hunary h
    | primary => exact h

theorem rank_le_primary (place : Level) : place.rank ≤ primary.rank := by
  cases place <;> decide

/-- A phrase may stand at any place, in parentheses if need be. -/
theorem admits_fit (h : ∀ room, nesting ≤ room → own.Admits room tokens tree)
    (hroom : place.nest own nesting ≤ room) : place.Admits room (place.fit own tokens) tree := by
  unfold nest at hroom
  unfold fit
  split at hroom
  · rename_i hlt
    -- the parentheses take one of the room, and a sum may stand within them
    obtain ⟨room, rfl⟩ := Nat.exists_eq_add_of_lt hroom
    rw [if_pos hlt]
    have hsum : sum.Admits (nesting + room) tokens tree :=
      (h _ (Nat.le_add_right _ _)).loosen (Nat.zero_le _)
    have hgroup : primary.Admits (nesting + room + 1)
        (.leftParen :: (tokens ++ [.rightParen])) tree := Primary.group hsum
    exact hgroup.loosen (rank_le_primary place)
  · rename_i hge
    rw [if_neg hge]
    exact (h room hroom).loosen (Nat.not_lt.1 hge)

end Level

theorem signToken_token (op : Sign) : SignToken op.token op := by
  cases op
  · exact .minus
  · exact .plus

theorem admits_binary (op : Operator)
    (hleft : op.leftLevel.Admits (room + op.rightNesting) tokens left)
    (hright : op.rightLevel.Admits room others right) :
    op.level.Admits (room + op.rightNesting) (tokens ++ op.token :: others)
      (.binary op left right) := by
  cases op with
  | add => exact .more hleft .plus hright
  | subtract => exact .more hleft .minus hright
  | multiply => exact .more hleft .star hright
  | divide => exact .more hleft .slash hright
  | floorDivide => exact .more hleft .doubleSlash hright
  | modulo => exact .more hleft .percent hright
  | power => exact .power (.raised hleft hright)

end

namespace Expr

/-- No variable has the name of a constant. -/
def AvoidsConstants (tree : Expr) : Prop :=
  ∀ name, tree.Contains (.var name) → ∀ value, ¬ Constant name value

mutual

/-- With room for its nesting, a tree is printed as a phrase of its own level. -/
theorem admits_printed (tree : Expr) (h : tree.AvoidsConstants) {room : ℕ}
    (hroom : tree.nesting ≤ room) : tree.level.Admits room tree.printed tree := by
  cases tree with
  | number value =>
    obtain ⟨room, rfl⟩ := Nat.exists_eq_add_of_le' hroom
    exact .number value
  | var name =>
    obtain ⟨room, rfl⟩ := Nat.exists_eq_add_of_le' hroom
    exact .var (h name (.root _))
  | model name =>
    obtain ⟨room, rfl⟩ := Nat.exists_eq_add_of_le' hroom
    exact .model name
  | sign op operand =>
    obtain ⟨room, rfl⟩ := Nat.exists_eq_add_of_le' (Nat.le_of_add_left_le hroom)
    have hoperand : operand.AvoidsConstants := fun name hname ↦ h name (.operand hname)
    exact .sign (signToken_token op) (Level.admits_fit (fun _ ↦ admits_printed operand hoperand)
      (Nat.le_of_add_le_add_right hroom))
  | binary op left right =>
    -- only the exponent of a power has less room than the whole
    obtain ⟨hleft, hright⟩ := Nat.max_le.1 hroom
    obtain ⟨room, rfl⟩ := Nat.exists_eq_add_of_le' (Nat.le_of_add_left_le hright)
    refine admits_binary op (Level.admits_fit (fun _ ↦ admits_printed left ?_) hleft)
      (Level.admits_fit (fun _ ↦ admits_printed right ?_) (Nat.le_of_add_le_add_right hright))
    · exact fun name hname ↦ h name (.left hname)
    · exact fun name hname ↦ h name (.right hname)
  | call function args =>
    obtain ⟨room, rfl⟩ := Nat.exists_eq_add_of_le' (Nat.le_of_add_left_le hroom)
    cases args with
    | nil => exact .callEmpty function
    | cons arg args =>
      refine .call function (listed_printedOf (arg :: args) ?_ (List.cons_ne_nil _ _)
        (Nat.le_of_add_le_add_right hroom))
      exact fun arg harg name hname ↦ h name (.arg harg hname)

theorem listed_printedOf (trees : List Expr) (h : ∀ tree ∈ trees, tree.AvoidsConstants)
    (hne : trees ≠ []) {room : ℕ} (hroom : nestingOf trees ≤ room) :
    Listed (Sum (Unary room)) (printedOf trees) trees := by
  cases trees with
  | nil => exact absurd rfl hne
  | cons tree trees =>
    obtain ⟨htree, htrees⟩ := Nat.max_le.1 hroom
    obtain ⟨hfirst, hothers⟩ := List.forall_mem_cons.1 h
    have hsum : Level.sum.Admits room tree.printed tree :=
      (admits_printed tree hfirst htree).loosen (Nat.zero_le _)
    cases trees with
    | nil => exact .single hsum
    | cons next trees =>
      exact .more hsum (listed_printedOf (next :: trees) hothers (List.cons_ne_nil _ _) htrees)

end

theorem sum_printed {tree : Expr} (h : tree.AvoidsConstants) {room : ℕ}
    (hroom : tree.nesting ≤ room) : Sum (Unary room) tree.printed tree := by
  have hsum : Level.sum.Admits room tree.printed tree :=
    (admits_printed tree h hroom).loosen (Nat.zero_le _)
  exact hsum

end Expr

/-! ### No text nests less -/

namespace Level

variable {place next own : Level} {nesting room : ℕ}

theorem le_nest (place own : Level) (nesting : ℕ) : nesting ≤ place.nest own nesting := by
  unfold nest
  split <;> omega

theorem nest_le (place own : Level) (nesting : ℕ) : place.nest own nesting ≤ nesting + 1 := by
  unfold nest
  split <;> omega

theorem nest_of_le (h : place.rank ≤ own.rank) : place.nest own nesting = nesting :=
  if_neg (Nat.not_lt.2 h)

theorem nest_mono (h : place.rank ≤ next.rank) :
    place.nest own nesting ≤ next.nest own nesting := by
  by_cases hplace : place.rank ≤ own.rank
  · rw [nest_of_le hplace]
    exact le_nest next own nesting
  · unfold nest
    rw [if_pos (by omega), if_pos (by omega)]

end Level

namespace Expr

/-- How deep a tree nests at a place, in parentheses if need be. -/
def nestingAt (place : Level) (tree : Expr) : ℕ := place.nest tree.level tree.nesting

section

variable {phrase : Phrase} {room : ℕ} {tokens : List Token} {tree left right : Expr}

theorem nestingAt_binary {op : Operator}
    (hleft : left.nestingAt op.leftLevel ≤ room + op.rightNesting)
    (hright : right.nestingAt op.rightLevel ≤ room) :
    (binary op left right).nestingAt op.level ≤ room + op.rightNesting := by
  have hnesting : (binary op left right).nestingAt op.level = (binary op left right).nesting :=
    Level.nest_of_le (Nat.le_refl _)
  rw [hnesting]
  exact Nat.max_le.2 ⟨hleft, Nat.add_le_add_right hright _⟩

theorem nestingAt_of_leftGrouped {place next : Level} {related : Token → Operator → Prop}
    (hrelated : ∀ token op, related token op →
      op.level = place ∧ op.leftLevel = place ∧ op.rightLevel = next ∧ op.rightNesting = 0)
    (hplace : place.rank ≤ next.rank)
    (hphrase : ∀ tokens tree, phrase tokens tree → tree.nestingAt next ≤ room)
    (h : LeftGrouped related phrase tokens tree) : tree.nestingAt place ≤ room := by
  induction h with
  | single h => exact (Level.nest_mono hplace).trans (hphrase _ _ h)
  | @more _ _ left right token op _ hop hright ih =>
    obtain ⟨hlevel, hleft, hnext, hnone⟩ := hrelated token op hop
    have hbinary : (binary op left right).nestingAt op.level ≤ room + op.rightNesting := by
      refine nestingAt_binary ?_ ?_
      · rwa [hleft, hnone]
      · rw [hnext]
        exact hphrase _ _ hright
    rwa [hlevel, hnone] at hbinary

theorem nesting_of_sum (hphrase : ∀ tokens tree, phrase tokens tree → tree.nestingAt .unary ≤ room)
    (h : Sum phrase tokens tree) : tree.nesting ≤ room := by
  have hterm : ∀ tokens tree, Term phrase tokens tree → tree.nestingAt .term ≤ room := by
    intro tokens tree h
    refine nestingAt_of_leftGrouped (fun token op hop ↦ ?_) (by decide) hphrase h
    cases hop <;> exact ⟨rfl, rfl, rfl, rfl⟩
  have hsum : tree.nestingAt .sum ≤ room := by
    refine nestingAt_of_leftGrouped (fun token op hop ↦ ?_) (by decide) hterm h
    cases hop <;> exact ⟨rfl, rfl, rfl, rfl⟩
  exact (Level.le_nest _ _ _).trans hsum

theorem nestingOf_of_listed {trees : List Expr}
    (hphrase : ∀ tokens tree, phrase tokens tree → tree.nesting ≤ room)
    (h : Listed phrase tokens trees) : nestingOf trees ≤ room := by
  induction h with
  | single h => exact Nat.max_le.2 ⟨hphrase _ _ h, Nat.zero_le _⟩
  | more h _ ih => exact Nat.max_le.2 ⟨hphrase _ _ h, ih⟩

theorem nestingAt_of_primary
    (hphrase : ∀ tokens tree, phrase tokens tree → tree.nestingAt .unary ≤ room)
    (h : Primary phrase tokens tree) : tree.nestingAt .primary ≤ room + 1 := by
  cases h with
  | number value => exact Nat.le_add_left 1 room
  | model name => exact Nat.le_add_left 1 room
  | constant _ => exact Nat.le_add_left 1 room
  | var _ => exact Nat.le_add_left 1 room
  | callEmpty function => exact Nat.le_add_left 1 room
  | call function h =>
    exact Nat.succ_le_succ (nestingOf_of_listed (fun _ _ ↦ nesting_of_sum hphrase) h)
  | group h => exact (Level.nest_le _ _ _).trans (Nat.succ_le_succ (nesting_of_sum hphrase h))

theorem nestingAt_of_unary (room : ℕ) {tokens : List Token} {tree : Expr}
    (h : Unary room tokens tree) : tree.nestingAt .unary ≤ room := by
  induction room generalizing tokens tree with
  | zero => exact h.elim
  | succ room ih =>
    cases h with
    | sign _ h => exact Nat.succ_le_succ (ih h)
    | power h =>
      cases h with
      | primary h =>
        exact (Level.nest_mono (by decide)).trans (nestingAt_of_primary (fun _ _ ↦ ih) h)
      | raised hbase hexponent =>
        exact nestingAt_binary (nestingAt_of_primary (fun _ _ ↦ ih) hbase) (ih hexponent)

end

/-! ### Trees that can be written -/

/-- Every number has a numeral that is read to it, and every name can be written as one of its
kind; no variable has the name of a constant. -/
structure IsPrintable (tree : Expr) : Prop where
  number : ∀ value, tree.Contains (.number value) →
    ∃ numeral, IsNumeral numeral ∧ Binary64.read numeral = some value
  var : ∀ name, tree.Contains (.var name) → IsIdentifier name.toList ∧ name ≠ "pi" ∧ name ≠ "e"
  model : ∀ name, tree.Contains (.model name) →
    name.toList ≠ [] ∧ trim name.toList = name.toList ∧ ']' ∉ name.toList
  call : ∀ function args, tree.Contains (.call function args) → IsIdentifier function.toList

namespace IsPrintable

variable {tree part : Expr}

theorem of_part (h : tree.IsPrintable) (hpart : ∀ node, part.Contains node → tree.Contains node) :
    part.IsPrintable where
  number value hvalue := h.number value (hpart _ hvalue)
  var name hname := h.var name (hpart _ hname)
  model name hname := h.model name (hpart _ hname)
  call function args hcall := h.call function args (hpart _ hcall)

theorem avoidsConstants (h : tree.IsPrintable) : tree.AvoidsConstants := by
  intro name hname value hconstant
  obtain ⟨-, hpi, he⟩ := h.var name hname
  cases hconstant with
  | pi => exact hpi rfl
  | e => exact he rfl

end IsPrintable

end Expr

/-- A token that has a spelling. -/
def Token.IsSpelled (token : Token) : Prop := ∃ spelling, Spells spelling token

section

variable {token : Token} {tokens : List Token}

theorem isSpelled_identifier {name : String} (h : IsIdentifier name.toList) :
    (Token.identifier name).IsSpelled :=
  ⟨name.toList, by simpa using Spells.identifier h⟩

theorem isSpelled_model {name : String} (hne : name.toList ≠ [])
    (htrim : trim name.toList = name.toList) (hbracket : ']' ∉ name.toList) :
    (Token.model name).IsSpelled := by
  have hname : trim name.toList ≠ [] := by rwa [htrim]
  have hspells := Spells.model hbracket hname
  rw [htrim, String.ofList_toList] at hspells
  exact ⟨_, hspells⟩

theorem isSpelled_of_infixToken {op : Operator} (h : InfixToken token op) : token.IsSpelled := by
  cases h with
  | additive h =>
    cases h with
    | plus => exact ⟨_, .mark .plus⟩
    | minus => exact ⟨_, .mark .minus⟩
  | multiplicative h =>
    cases h with
    | star => exact ⟨_, .single .star⟩
    | slash => exact ⟨_, .single .slash⟩
    | doubleSlash => exact ⟨_, .double .slash⟩
    | percent => exact ⟨_, .mark .percent⟩
  | power => exact ⟨_, .double .star⟩

theorem isSpelled_of_signToken {sign : Sign} (h : SignToken token sign) : token.IsSpelled := by
  cases h with
  | minus => exact ⟨_, .mark .minus⟩
  | plus => exact ⟨_, .mark .plus⟩

theorem isSpelled_of_constant {name : String} {value : Float} (h : Constant name value) :
    (Token.identifier name).IsSpelled := by
  refine isSpelled_identifier ?_
  cases h with
  | pi => exact ⟨'p', ['i'], rfl, .inl rfl, by simp [isIdentifierChar]⟩
  | e => exact ⟨'e', [], rfl, .inl rfl, List.forall_mem_nil _⟩

theorem isSpelled_enclosed (h : ∀ token ∈ tokens, token.IsSpelled) :
    ∀ token ∈ .leftParen :: (tokens ++ [.rightParen]), token.IsSpelled := by
  refine List.forall_mem_cons.2 ⟨⟨_, .mark .leftParen⟩, List.forall_mem_append.2 ⟨h, ?_⟩⟩
  exact List.forall_mem_singleton.2 ⟨_, .mark .rightParen⟩

theorem isSpelled_called {function : String} (hfunction : IsIdentifier function.toList)
    (h : ∀ token ∈ tokens, token.IsSpelled) :
    ∀ token ∈ .identifier function :: .leftParen :: (tokens ++ [.rightParen]), token.IsSpelled :=
  List.forall_mem_cons.2 ⟨isSpelled_identifier hfunction, isSpelled_enclosed h⟩

theorem isSpelled_listed {trees : List Expr}
    (h : Listed (fun tokens tree ↦ tree.IsPrintable → ∀ token ∈ tokens, token.IsSpelled) tokens
      trees) (htrees : ∀ tree ∈ trees, tree.IsPrintable) : ∀ token ∈ tokens, token.IsSpelled := by
  induction h with
  | single h => exact h (List.forall_mem_singleton.1 htrees)
  | more h _ ih =>
    obtain ⟨htree, hothers⟩ := List.forall_mem_cons.1 htrees
    exact List.forall_mem_append.2 ⟨h htree, List.forall_mem_cons.2 ⟨⟨_, .mark .comma⟩, ih hothers⟩⟩

/-- The tokens of a printable tree have spellings. -/
theorem isCompositional_spelled :
    IsCompositional fun tokens tree ↦ tree.IsPrintable → ∀ token ∈ tokens, token.IsSpelled where
  number value h := by
    obtain ⟨numeral, hnumeral, hvalue⟩ := h.number value (.root _)
    exact List.forall_mem_singleton.2 ⟨numeral, .number hnumeral hvalue⟩
  model name h := by
    obtain ⟨hne, htrim, hbracket⟩ := h.model name (.root _)
    exact List.forall_mem_singleton.2 (isSpelled_model hne htrim hbracket)
  constant hconstant _ := List.forall_mem_singleton.2 (isSpelled_of_constant hconstant)
  var _ h := List.forall_mem_singleton.2 (isSpelled_identifier (h.var _ (.root _)).1)
  callEmpty function h := isSpelled_called (h.call function _ (.root _)) (List.forall_mem_nil _)
  call function tokens trees hargs h := by
    refine isSpelled_called (h.call function _ (.root _)) (isSpelled_listed hargs fun arg harg ↦ ?_)
    exact h.of_part fun node hnode ↦ .arg harg hnode
  group hinner h := isSpelled_enclosed (hinner h)
  sign hsign _ _ hoperand h := by
    refine List.forall_mem_cons.2 ⟨isSpelled_of_signToken hsign, hoperand ?_⟩
    exact h.of_part fun node hnode ↦ .operand hnode
  binary hop _ _ _ _ hleft hright h := by
    refine List.forall_mem_append.2 ⟨hleft ?_, List.forall_mem_cons.2
      ⟨isSpelled_of_infixToken hop, hright ?_⟩⟩
    · exact h.of_part fun node hnode ↦ .left hnode
    · exact h.of_part fun node hnode ↦ .right hnode

end

/-- A tree whose numbers and names can be written has a text. Whatever blanks stand between its
tokens, the text is read to the same tree if and only if it is neither too long nor nested too
deep. -/
theorem parse_printed (tree : Expr) (h : tree.IsPrintable) :
    (∃ cs, Written cs tree.printed) ∧ ∀ text : String, Written text.toList tree.printed →
      (parse text = .ok tree ↔ (trimmed text).utf8ByteSize ≤ 1024 ∧ tree.nesting ≤ 64) := by
  have hphrase := Expr.sum_printed h.avoidsConstants (Nat.le_refl _)
  refine ⟨exists_written (isCompositional_spelled.sum hphrase h), fun text hwritten ↦ ?_⟩
  have hsplits := splits_of_written hwritten (isCompositional_spaced.sum hphrase).chain
  rw [parse_eq_ok_iff]
  refine and_congr_right fun _ ↦ ?_
  constructor
  · rintro ⟨tokens, -, hsum⟩
    exact Expr.nesting_of_sum (fun _ _ ↦ Expr.nestingAt_of_unary _) hsum
  · intro hnesting
    exact ⟨_, hsplits, Expr.sum_printed h.avoidsConstants hnesting⟩

/-- A sign binds looser than an exponent, so the base is printed in parentheses. -/
theorem parse_printed_negative_base :
    (Expr.binary .power (.sign .negate (.var "x")) (.number 2)).IsPrintable ∧
      parse "( -x)\u2003**2" = .ok (.binary .power (.sign .negate (.var "x")) (.number 2)) := by
  have hprintable : (Expr.binary .power (.sign .negate (.var "x")) (.number 2)).IsPrintable := by
    constructor
    · intro value h
      obtain rfl : value = 2 := by simpa [Expr.nodes] using Expr.mem_nodes_of_contains h
      exact ⟨['2'], ⟨['2'], [], [], rfl, by simp [AllDigits], .none, .none, '2', by simp⟩,
        by decide +kernel⟩
    · intro name h
      obtain rfl : name = "x" := by simpa [Expr.nodes] using Expr.mem_nodes_of_contains h
      exact ⟨⟨'x', [], rfl, .inl rfl, List.forall_mem_nil _⟩, by decide, by decide⟩
    · intro name h
      simpa [Expr.nodes] using Expr.mem_nodes_of_contains h
    · intro function args h
      simpa [Expr.nodes] using Expr.mem_nodes_of_contains h
  have hlex : lex 0 "( -x)\u2003**2".toList =
      ⟨(Expr.binary .power (.sign .negate (.var "x")) (.number 2)).printed, none⟩ :=
    congrArg₂ Lexed.mk (by decide +kernel) (by decide +kernel)
  have hwritten := written_of_splits (splits_of_lex hlex)
  exact ⟨hprintable, ((parse_printed _ hprintable).2 _ hwritten).2 ⟨by decide +kernel, by decide⟩⟩

end Ventilation.Formula
