import Mathlib.Tactic.Basic
import Ventilation.Proofs.Formula.Grammar
import Ventilation.Proofs.Pricing.Answer

/-!
# Reading follows the grammar

Every reader takes a phrase of its kind and gives its tree, `parseTokens_eq_ok_iff`. That a reader
takes nothing but phrases is carried from reader to reader by `Sound`, which also says that it stops
before the end of a text with a fault; that it takes every phrase which is not followed by a token
the phrase would go on with, by `Complete`.
-/

set_option autoImplicit false
set_option relaxedAutoImplicit false

namespace Ventilation.Formula

variable {fault : Option ParseError}

/-- A reader takes a tree off the front of `tokens` and leaves `rest`. -/
def Reads (reader : Reader) (tokens : List Token) (tree : Expr) (rest : List Token) : Prop :=
  ∃ shorter, reader tokens = .ok ⟨tree, rest, shorter⟩

/-- What is taken is a phrase, and something is left of a text with a fault. -/
def Sound (fault : Option ParseError) (reader : Reader) (phrase : Phrase) : Prop :=
  ∀ ⦃tokens tree rest⦄, Reads reader tokens tree rest →
    (∃ taken, tokens = taken ++ rest ∧ phrase taken tree) ∧ (fault ≠ none → rest ≠ [])

/-- A phrase is taken unless the next token is one that it would go on with. -/
def Complete (reader : Reader) (phrase : Phrase) (goesOn : Token → Prop) : Prop :=
  ∀ ⦃taken tree rest⦄, phrase taken tree → (∀ token ∈ rest.head?, ¬ goesOn token) →
    Reads reader (taken ++ rest) tree rest

theorem reads_of_eq_ok {reader : Reader} {tokens : List Token} {parsed : Parsed tokens}
    (h : reader tokens = .ok parsed) : Reads reader tokens parsed.tree parsed.rest :=
  ⟨parsed.shorter, h⟩

theorem stepOnto_eq_ok_iff {rest : List Token} :
    stepOnto fault rest = .ok () ↔ (fault ≠ none → rest ≠ []) := by
  cases rest <;> cases fault <;> simp [stepOnto]

theorem eq_of_stepOnto {rest : List Token} {e : ParseError} (h : stepOnto fault rest = .error e) :
    fault = some e := by
  cases rest with
  | nil =>
    cases fault with
    | none => cases h
    | some fault => exact congrArg some (Except.error.inj h)
  | cons token rest => cases h

theorem stepOnto_none (rest : List Token) : stepOnto none rest = .ok () :=
  stepOnto_eq_ok_iff.2 fun h ↦ absurd rfl h

/-! ### Levels of operators -/

section Level

variable {operator : Token → Option Operator} {reader : Reader} {phrase : Phrase}
  {related : Token → Operator → Prop}

theorem sound_chain (hreader : Sound fault reader phrase)
    (hrelated : ∀ token op, operator token = some op → related token op) {left : Expr}
    {tokens before : List Token} {whole : Extended tokens}
    (h : chain fault operator reader left tokens = .ok whole)
    (hleft : LeftGrouped related phrase before left) (hfault : fault ≠ none → tokens ≠ []) :
    (∃ taken, tokens = taken ++ whole.rest ∧
      LeftGrouped related phrase (before ++ taken) whole.tree) ∧
    (fault ≠ none → whole.rest ≠ []) := by
  -- each round reads an operand, so fewer tokens are left for the next one
  induction hlength : tokens.length using Nat.strongRecOn
    generalizing tokens left before with
  | ind length ih =>
    subst hlength
    rw [chain.eq_def] at h
    cases tokens with
    | nil =>
      obtain rfl := Except.ok.inj h
      exact ⟨⟨[], rfl, by rwa [List.append_nil]⟩, hfault⟩
    | cons token rest =>
      cases hop : operator token with
      | none =>
        simp only [hop] at h
        obtain rfl := Except.ok.inj h
        exact ⟨⟨[], rfl, by rwa [List.append_nil]⟩, hfault⟩
      | some op =>
        simp only [hop] at h
        obtain ⟨-, -, h⟩ := bind_eq_ok_iff.1 h
        obtain ⟨right, hright, h⟩ := bind_eq_ok_iff.1 h
        obtain ⟨further, hfurther, h⟩ := bind_eq_ok_iff.1 h
        obtain rfl := Except.ok.inj h
        obtain ⟨⟨taken, htaken, hphrase⟩, hend⟩ := hreader (reads_of_eq_ok hright)
        have hlength : right.rest.length < (token :: rest).length :=
          Nat.lt_succ_of_lt right.shorter
        obtain ⟨⟨more, hmore, hgrouped⟩, hlast⟩ := ih _ hlength hfurther
          (.more hleft (hrelated _ _ hop) hphrase) hend rfl
        refine ⟨⟨token :: (taken ++ more), ?_, ?_⟩, hlast⟩
        · rw [List.cons_append, List.append_assoc, ← hmore, ← htaken]
        · rwa [List.append_assoc, List.cons_append] at hgrouped

theorem sound_level (hreader : Sound fault reader phrase)
    (hrelated : ∀ token op, operator token = some op → related token op) :
    Sound fault (level fault operator reader) (LeftGrouped related phrase) := by
  intro tokens tree rest h
  obtain ⟨shorter, h⟩ := h
  obtain ⟨first, hfirst, h⟩ := bind_eq_ok_iff.1 h
  obtain ⟨whole, hwhole, h⟩ := bind_eq_ok_iff.1 h
  obtain ⟨⟨taken, htaken, hphrase⟩, hend⟩ := hreader (reads_of_eq_ok hfirst)
  obtain ⟨⟨more, hmore, hgrouped⟩, hlast⟩ :=
    sound_chain hreader hrelated hwhole (.single hphrase) hend
  cases h
  refine ⟨⟨taken ++ more, ?_, hgrouped⟩, hlast⟩
  rw [List.append_assoc, ← hmore, ← htaken]

end Level

theorem additive_iff {token : Token} {op : Operator} :
    additive? token = some op ↔ Additive token op := by
  constructor
  · intro h
    cases token <;> cases h <;> constructor
  · intro h
    cases h <;> rfl

theorem multiplicative_iff {token : Token} {op : Operator} :
    multiplicative? token = some op ↔ Multiplicative token op := by
  constructor
  · intro h
    cases token <;> cases h <;> constructor
  · intro h
    cases h <;> rfl

theorem constant_iff {name : String} {value : Float} :
    constant? name = some value ↔ Constant name value := by
  constructor
  · intro h
    unfold constant? at h
    split at h
    · rename_i hname
      subst hname
      cases h
      exact .pi
    · split at h
      · rename_i hname
        subst hname
        cases h
        exact .e
      · cases h
  · intro h
    cases h <;> rfl

theorem nameTree_of_constant {name : String} {value : Float} (h : Constant name value) :
    nameTree name = .number value := by
  unfold nameTree
  rw [constant_iff.2 h]

theorem nameTree_of_not_constant {name : String} (h : ∀ value, ¬ Constant name value) :
    nameTree name = .var name := by
  unfold nameTree
  cases hvalue : constant? name with
  | none => rfl
  | some value => exact absurd (constant_iff.1 hvalue) (h value)

theorem primary_nameTree (unary : Phrase) (name : String) :
    Primary unary [.identifier name] (nameTree name) := by
  by_cases h : ∃ value, Constant name value
  · obtain ⟨value, hvalue⟩ := h
    rw [nameTree_of_constant hvalue]
    exact .constant hvalue
  · rw [nameTree_of_not_constant (not_exists.1 h)]
    exact .var (not_exists.1 h)

section

variable {reader : Reader} {phrase : Phrase}

theorem sound_expression (h : Sound fault reader phrase) :
    Sound fault (expression fault reader) (Sum phrase) :=
  sound_level (sound_level h fun _ _ ↦ multiplicative_iff.1) fun _ _ ↦ additive_iff.1

/-! ### Calls and groups -/

theorem eq_of_closed {tokens rest : List Token} {shorter : rest.length < tokens.length}
    {tree : Expr} {parsed : Parsed tokens} (h : closed fault rest shorter tree = .ok parsed) :
    rest = .rightParen :: parsed.rest ∧ parsed.tree = tree ∧ (fault ≠ none → parsed.rest ≠ []) := by
  unfold closed at h
  split at h
  · obtain ⟨⟨⟩, hstep, h⟩ := bind_eq_ok_iff.1 h
    cases h
    exact ⟨rfl, rfl, stepOnto_eq_ok_iff.1 hstep⟩
  · cases h

theorem append_closed (taken : List Token) {rest after : List Token}
    (h : rest = .rightParen :: after) : taken ++ rest = taken ++ [.rightParen] ++ after := by
  rw [h, List.append_assoc]
  rfl

theorem sound_arguments (hreader : Sound fault reader phrase) {tokens : List Token}
    {args : Arguments tokens} (h : arguments fault reader tokens = .ok args) :
    (∃ taken, tokens = taken ++ args.rest ∧ Listed phrase taken args.trees) ∧
      (fault ≠ none → args.rest ≠ []) := by
  induction hlength : tokens.length using Nat.strongRecOn generalizing tokens with
  | ind length ih =>
    subst hlength
    rw [arguments.eq_def] at h
    obtain ⟨first, hfirst, h⟩ := bind_eq_ok_iff.1 h
    obtain ⟨⟨taken, htaken, hphrase⟩, hend⟩ := hreader (reads_of_eq_ok hfirst)
    split at h
    · rename_i rest hrest
      obtain ⟨-, -, h⟩ := bind_eq_ok_iff.1 h
      obtain ⟨others, hothers, h⟩ := bind_eq_ok_iff.1 h
      cases h
      have hlength : rest.length < tokens.length := by
        have hshorter := first.shorter
        rw [hrest, List.length_cons] at hshorter
        omega
      obtain ⟨⟨more, hmore, hlisted⟩, hlast⟩ := ih _ hlength hothers rfl
      refine ⟨⟨taken ++ .comma :: more, ?_, .more hphrase hlisted⟩, hlast⟩
      rw [List.append_assoc, List.cons_append, ← hmore, ← hrest]
      exact htaken
    · cases h
      exact ⟨⟨taken, htaken, .single hphrase⟩, hend⟩

theorem sound_named {name : String} {tokens : List Token} {whole : Extended tokens}
    (hreader : Sound fault reader phrase) (h : named fault reader name tokens = .ok whole)
    (hfault : fault ≠ none → tokens ≠ []) :
    (∃ taken, tokens = taken ++ whole.rest ∧
      Primary phrase (.identifier name :: taken) whole.tree) ∧
    (fault ≠ none → whole.rest ≠ []) := by
  unfold named at h
  split at h
  · obtain ⟨-, -, h⟩ := bind_eq_ok_iff.1 h
    obtain ⟨parsed, hcall, h⟩ := bind_eq_ok_iff.1 h
    cases h
    unfold call at hcall
    split at hcall
    · obtain ⟨⟨⟩, hstep, hcall⟩ := bind_eq_ok_iff.1 hcall
      cases hcall
      exact ⟨⟨[.leftParen, .rightParen], rfl, .callEmpty name⟩, stepOnto_eq_ok_iff.1 hstep⟩
    · obtain ⟨args, hargs, hcall⟩ := bind_eq_ok_iff.1 hcall
      obtain ⟨⟨taken, htaken, hlisted⟩, -⟩ := sound_arguments (sound_expression hreader) hargs
      obtain ⟨hrest, htree, hend⟩ := eq_of_closed hcall
      refine ⟨⟨.leftParen :: (taken ++ [.rightParen]), ?_, ?_⟩, hend⟩
      · exact congrArg _ (htaken.trans (append_closed taken hrest))
      · rw [htree]
        exact .call name hlisted
  · cases h
    exact ⟨⟨[], rfl, primary_nameTree phrase name⟩, hfault⟩

theorem sound_primary (hreader : Sound fault reader phrase) :
    Sound fault (primary fault reader) (Primary phrase) := by
  intro tokens tree rest h
  obtain ⟨shorter, h⟩ := h
  unfold primary at h
  split at h
  · obtain ⟨⟨⟩, hstep, h⟩ := bind_eq_ok_iff.1 h
    cases h
    exact ⟨⟨[_], rfl, .number _⟩, stepOnto_eq_ok_iff.1 hstep⟩
  · obtain ⟨⟨⟩, hstep, h⟩ := bind_eq_ok_iff.1 h
    cases h
    exact ⟨⟨[_], rfl, .model _⟩, stepOnto_eq_ok_iff.1 hstep⟩
  · obtain ⟨-, -, h⟩ := bind_eq_ok_iff.1 h
    obtain ⟨inner, hinner, h⟩ := bind_eq_ok_iff.1 h
    obtain ⟨⟨taken, htaken, hsum⟩, -⟩ := sound_expression hreader (reads_of_eq_ok hinner)
    obtain ⟨hrest, rfl, hend⟩ := eq_of_closed h
    refine ⟨⟨.leftParen :: (taken ++ [.rightParen]), ?_, .group hsum⟩, hend⟩
    exact congrArg _ (htaken.trans (append_closed taken hrest))
  · obtain ⟨⟨⟩, hstep, h⟩ := bind_eq_ok_iff.1 h
    obtain ⟨whole, hwhole, h⟩ := bind_eq_ok_iff.1 h
    cases h
    obtain ⟨⟨taken, htaken, hprimary⟩, hend⟩ :=
      sound_named hreader hwhole (stepOnto_eq_ok_iff.1 hstep)
    exact ⟨⟨_ :: taken, congrArg _ htaken, hprimary⟩, hend⟩
  · cases h

theorem sound_power (hreader : Sound fault reader phrase) :
    Sound fault (power fault reader) (Power phrase) := by
  intro tokens tree rest h
  obtain ⟨shorter, h⟩ := h
  obtain ⟨base, hbase, h⟩ := bind_eq_ok_iff.1 h
  obtain ⟨⟨taken, htaken, hprimary⟩, hend⟩ := sound_primary hreader (reads_of_eq_ok hbase)
  split at h
  · rename_i after hafter
    obtain ⟨-, -, h⟩ := bind_eq_ok_iff.1 h
    obtain ⟨exponent, hexponent, h⟩ := bind_eq_ok_iff.1 h
    cases h
    obtain ⟨⟨more, hmore, hphrase⟩, hlast⟩ := hreader (reads_of_eq_ok hexponent)
    refine ⟨⟨taken ++ .doubleStar :: more, ?_, .raised hprimary hphrase⟩, hlast⟩
    rw [List.append_assoc, List.cons_append, ← hmore, ← hafter]
    exact htaken
  · cases h
    exact ⟨⟨taken, htaken, .primary hprimary⟩, hend⟩

theorem sound_signed (hreader : Sound fault reader phrase) {token : Token} {sign : Sign}
    (hsign : SignToken token sign) {tokens rest : List Token} {tree : Expr}
    {shorter : rest.length < (token :: tokens).length}
    (h : signed fault reader sign tokens token = .ok ⟨tree, rest, shorter⟩) :
    (∃ taken, token :: tokens = taken ++ rest ∧ Signed phrase taken tree) ∧
      (fault ≠ none → rest ≠ []) := by
  obtain ⟨-, -, h⟩ := bind_eq_ok_iff.1 h
  obtain ⟨operand, hoperand, h⟩ := bind_eq_ok_iff.1 h
  cases h
  obtain ⟨⟨taken, htaken, hphrase⟩, hend⟩ := hreader (reads_of_eq_ok hoperand)
  exact ⟨⟨token :: taken, congrArg _ htaken, .sign hsign hphrase⟩, hend⟩

end

theorem sound_unary (room : Nat) : Sound fault (unary fault room) (Unary room) := by
  induction room with
  | zero =>
    intro tokens tree rest h
    obtain ⟨shorter, h⟩ := h
    cases h
  | succ room ih =>
    intro tokens tree rest h
    obtain ⟨shorter, h⟩ := h
    unfold unary at h
    split at h
    · exact sound_signed ih .minus h
    · exact sound_signed ih .plus h
    · obtain ⟨⟨taken, htaken, hpower⟩, hend⟩ := sound_power ih ⟨shorter, h⟩
      exact ⟨⟨taken, htaken, .power hpower⟩, hend⟩

/-! ### Every phrase is taken -/

theorem not_goesOn_cons {goesOn : Token → Prop} {token : Token} (h : ¬ goesOn token)
    (rest : List Token) : ∀ next ∈ (token :: rest).head?, ¬ goesOn next := by
  intro next hnext
  obtain rfl := Option.some.inj hnext
  exact h

section Level

variable {operator : Token → Option Operator} {reader : Reader} {phrase : Phrase}
  {related : Token → Operator → Prop} {goesOn : Token → Prop}

/-- The operators after `left` are read to `tree`, up to `rest`. -/
def Continues (operator : Token → Option Operator) (reader : Reader) (left : Expr)
    (tokens : List Token) (tree : Expr) (rest : List Token) : Prop :=
  ∃ notLonger, chain none operator reader left tokens = .ok ⟨tree, rest, notLonger⟩

theorem continues_stop {left : Expr} {tokens : List Token}
    (h : ∀ token ∈ tokens.head?, operator token = none) :
    Continues operator reader left tokens left tokens := by
  refine ⟨Nat.le_refl _, ?_⟩
  rw [chain.eq_def]
  cases tokens with
  | nil => rfl
  | cons token rest => simp only [h token rfl]

theorem continues_more {left right tree : Expr} {token : Token} {op : Operator}
    {others rest last : List Token} (hop : operator token = some op)
    (hright : Reads reader others right rest)
    (h : Continues operator reader (.binary op left right) rest tree last) :
    Continues operator reader left (token :: others) tree last := by
  obtain ⟨shorter, hright⟩ := hright
  obtain ⟨notLonger, h⟩ := h
  refine ⟨Nat.le_succ_of_le (Nat.le_trans notLonger (Nat.le_of_lt shorter)), ?_⟩
  rw [chain.eq_def]
  simp only [hop, stepOnto_none, ok_bind, hright, h]
  rfl

theorem reads_level {tokens rest last : List Token} {first tree : Expr}
    (hfirst : Reads reader tokens first rest)
    (h : Continues operator reader first rest tree last) :
    Reads (level none operator reader) tokens tree last := by
  obtain ⟨shorter, hfirst⟩ := hfirst
  obtain ⟨notLonger, h⟩ := h
  refine ⟨Nat.lt_of_le_of_lt notLonger shorter, ?_⟩
  unfold level
  simp only [hfirst, ok_bind, h]
  rfl

/-- What a level takes before its last operator it goes on from. -/
theorem reads_leftGrouped (hreader : Complete reader phrase goesOn)
    (hrelated : ∀ token op, related token op → operator token = some op ∧ ¬ goesOn token)
    {taken : List Token} {left : Expr} (h : LeftGrouped related phrase taken left)
    {rest last : List Token} {tree : Expr} (hrest : ∀ token ∈ rest.head?, ¬ goesOn token)
    (hlast : Continues operator reader left rest tree last) :
    Reads (level none operator reader) (taken ++ rest) tree last := by
  induction h generalizing rest tree with
  | single h => exact reads_level (hreader h hrest) hlast
  | @more tokens others left right token op hleft hop hright ih =>
    obtain ⟨hoperator, hgoesOn⟩ := hrelated _ _ hop
    rw [List.append_assoc, List.cons_append]
    exact ih (not_goesOn_cons hgoesOn _) (continues_more hoperator (hreader hright hrest) hlast)

theorem complete_level (hreader : Complete reader phrase goesOn)
    (hrelated : ∀ token op, related token op → operator token = some op ∧ ¬ goesOn token) :
    Complete (level none operator reader) (LeftGrouped related phrase)
      fun token ↦ goesOn token ∨ operator token ≠ none := by
  intro taken tree rest h hrest
  refine reads_leftGrouped hreader hrelated h (fun token ht hgoesOn ↦ hrest token ht (.inl hgoesOn))
    (continues_stop fun token ht ↦ ?_)
  exact Decidable.byContradiction fun hoperator ↦ hrest token ht (.inr hoperator)

end Level

/-- The tokens that a power would go on with. -/
def PowerMark (token : Token) : Prop := token = .leftParen ∨ token = .doubleStar

def TermMark (token : Token) : Prop := PowerMark token ∨ multiplicative? token ≠ none

def SumMark (token : Token) : Prop := TermMark token ∨ additive? token ≠ none

section

variable {reader : Reader} {phrase : Phrase}

theorem not_powerMark_of_multiplicative {token : Token} {op : Operator}
    (h : Multiplicative token op) : ¬ PowerMark token := by
  cases h <;> simp [PowerMark]

theorem not_termMark_of_additive {token : Token} {op : Operator} (h : Additive token op) :
    ¬ TermMark token := by
  cases h <;> simp [TermMark, PowerMark, multiplicative?]

theorem complete_expression (h : Complete reader phrase PowerMark) :
    Complete (expression none reader) (Sum phrase) SumMark :=
  complete_level
    (complete_level h fun _ _ hop ↦
      ⟨multiplicative_iff.2 hop, not_powerMark_of_multiplicative hop⟩)
    fun _ _ hop ↦ ⟨additive_iff.2 hop, not_termMark_of_additive hop⟩

theorem not_sumMark_rightParen : ¬ SumMark .rightParen := by
  simp [SumMark, TermMark, PowerMark, multiplicative?, additive?]

theorem not_sumMark_comma : ¬ SumMark .comma := by
  simp [SumMark, TermMark, PowerMark, multiplicative?, additive?]

/-- A phrase has a first token, which closes no parenthesis. -/
def Opens (tokens : List Token) : Prop := ∃ token rest, tokens = token :: rest ∧ token ≠ .rightParen

theorem Opens.append {tokens : List Token} (h : Opens tokens) (more : List Token) :
    Opens (tokens ++ more) := by
  obtain ⟨token, rest, rfl, htoken⟩ := h
  exact ⟨token, rest ++ more, rfl, htoken⟩

theorem opens_leftGrouped {related : Token → Operator → Prop}
    (hphrase : ∀ tokens tree, phrase tokens tree → Opens tokens) {tokens : List Token} {tree : Expr}
    (h : LeftGrouped related phrase tokens tree) : Opens tokens := by
  induction h with
  | single h => exact hphrase _ _ h
  | more _ _ _ ih => exact ih.append _

theorem opens_sum (hphrase : ∀ tokens tree, phrase tokens tree → Opens tokens)
    {tokens : List Token} {tree : Expr} (h : Sum phrase tokens tree) : Opens tokens :=
  opens_leftGrouped (fun _ _ ↦ opens_leftGrouped hphrase) h

theorem opens_listed (hphrase : ∀ tokens tree, phrase tokens tree → Opens tokens)
    {tokens : List Token} {trees : List Expr} (h : Listed phrase tokens trees) : Opens tokens := by
  cases h with
  | single h => exact hphrase _ _ h
  | more h _ => exact (hphrase _ _ h).append _

theorem opens_primary {tokens : List Token} {tree : Expr} (h : Primary phrase tokens tree) :
    Opens tokens := by
  cases h <;> exact ⟨_, _, rfl, by simp⟩

theorem opens_signed {tokens : List Token} {tree : Expr} (h : Signed phrase tokens tree) :
    Opens tokens := by
  cases h with
  | sign hsign _ =>
    cases hsign
    · exact ⟨_, _, rfl, by simp⟩
    · exact ⟨_, _, rfl, by simp⟩
  | power h =>
    cases h with
    | primary h => exact opens_primary h
    | raised h _ => exact (opens_primary h).append _

theorem opens_unary {room : Nat} {tokens : List Token} {tree : Expr}
    (h : Unary room tokens tree) : Opens tokens := by
  cases room with
  | zero => exact h.elim
  | succ room => exact opens_signed h

/-- A list of phrases ends at the closing parenthesis. -/
theorem arguments_of_listed (hreader : Complete reader phrase SumMark) {taken : List Token}
    {trees : List Expr} (h : Listed phrase taken trees) (rest : List Token) :
    ∃ shorter, arguments none reader (taken ++ .rightParen :: rest) =
      .ok ⟨trees, .rightParen :: rest, shorter⟩ := by
  induction h with
  | @single tokens tree h =>
    obtain ⟨shorter, hfirst⟩ := hreader h (not_goesOn_cons not_sumMark_rightParen rest)
    refine ⟨shorter, ?_⟩
    rw [arguments.eq_def, hfirst]
    rfl
  | @more tokens others tree trees h _ ih =>
    obtain ⟨shorterFirst, hfirst⟩ :=
      hreader h (not_goesOn_cons not_sumMark_comma (others ++ .rightParen :: rest))
    obtain ⟨shorterOthers, hothers⟩ := ih
    rw [List.append_assoc, List.cons_append]
    refine ⟨?_, ?_⟩
    · simp only [List.length_append, List.length_cons]
      omega
    · rw [arguments.eq_def, hfirst]
      simp only [ok_bind, stepOnto_none, hothers]
      rfl

theorem closed_none (tokens : List Token) {after : List Token}
    (shorter : (Token.rightParen :: after).length < tokens.length) (tree : Expr) :
    ∃ shorter', closed none (.rightParen :: after) shorter tree = .ok ⟨tree, after, shorter'⟩ := by
  refine ⟨Nat.lt_of_succ_lt shorter, ?_⟩
  cases after <;> rfl

theorem reads_name (name : String) {rest : List Token}
    (hrest : ∀ token ∈ rest.head?, ¬ token = .leftParen) :
    Reads (primary none reader) ([.identifier name] ++ rest) (nameTree name) rest := by
  have hnamed : named none reader name rest = .ok ⟨nameTree name, rest, Nat.le_refl _⟩ := by
    unfold named
    split
    · exact absurd rfl (hrest _ rfl)
    · rfl
  refine ⟨Nat.lt_succ_self _, ?_⟩
  simp only [List.singleton_append, primary, stepOnto_none, ok_bind, hnamed]
  rfl

theorem call_of_opens (reader : Reader) (function : String) {tokens : List Token}
    (h : Opens tokens) :
    call none reader function tokens = (do
      let args ← arguments none reader tokens
      closed none args.rest args.shorter (.call function args.trees)) := by
  obtain ⟨token, rest, rfl, htoken⟩ := h
  cases token
  case rightParen => exact absurd rfl htoken
  all_goals rfl

theorem reads_call (hreader : Complete reader phrase PowerMark)
    (hopens : ∀ tokens tree, phrase tokens tree → Opens tokens) (function : String)
    {tokens : List Token} {trees : List Expr} (h : Listed (Sum phrase) tokens trees)
    (rest : List Token) :
    Reads (primary none reader)
      (.identifier function :: .leftParen :: (tokens ++ .rightParen :: rest))
      (.call function trees) rest := by
  have hopen : Opens (tokens ++ .rightParen :: rest) :=
    (opens_listed (fun _ _ ↦ opens_sum hopens) h).append _
  obtain ⟨shorter, hargs⟩ := arguments_of_listed (complete_expression hreader) h rest
  obtain ⟨shorter', hclosed⟩ := closed_none _ shorter (.call function trees)
  have hcall := call_of_opens (expression none reader) function hopen
  rw [hargs, ok_bind, hclosed] at hcall
  refine ⟨Nat.lt_succ_of_lt (Nat.lt_succ_of_lt shorter'), ?_⟩
  simp only [primary, named, stepOnto_none, ok_bind, hcall]
  rfl

theorem reads_group (hreader : Complete reader phrase PowerMark) {tokens : List Token}
    {tree : Expr} (h : Sum phrase tokens tree) (rest : List Token) :
    Reads (primary none reader) (.leftParen :: (tokens ++ .rightParen :: rest)) tree rest := by
  obtain ⟨shorter, hread⟩ :=
    complete_expression hreader h (not_goesOn_cons not_sumMark_rightParen rest)
  obtain ⟨shorter', hclosed⟩ := closed_none (.leftParen :: (tokens ++ .rightParen :: rest))
    (Nat.lt_succ_of_lt shorter) tree
  refine ⟨shorter', ?_⟩
  simp only [primary, stepOnto_none, ok_bind, hread]
  exact hclosed

theorem complete_primary (hreader : Complete reader phrase PowerMark)
    (hopens : ∀ tokens tree, phrase tokens tree → Opens tokens) :
    Complete (primary none reader) (Primary phrase) (· = .leftParen) := by
  intro taken tree rest h hrest
  cases h with
  | number value =>
    refine ⟨Nat.lt_succ_self _, ?_⟩
    simp only [List.singleton_append, primary, stepOnto_none, ok_bind]
    rfl
  | model name =>
    refine ⟨Nat.lt_succ_self _, ?_⟩
    simp only [List.singleton_append, primary, stepOnto_none, ok_bind]
    rfl
  | constant hvalue => exact nameTree_of_constant hvalue ▸ reads_name _ hrest
  | var hname => exact nameTree_of_not_constant hname ▸ reads_name _ hrest
  | callEmpty function =>
    refine ⟨?_, ?_⟩
    · simp only [List.length_append, List.length_cons]
      omega
    · simp only [List.cons_append, List.nil_append, primary, named, call, stepOnto_none, ok_bind]
      rfl
  | @call function tokens trees hlisted =>
    rw [List.cons_append, List.cons_append, List.append_assoc, List.singleton_append]
    exact reads_call hreader hopens function hlisted rest
  | @group tokens tree hsum =>
    rw [List.cons_append, List.append_assoc, List.singleton_append]
    exact reads_group hreader hsum rest

theorem complete_power (hreader : Complete reader phrase PowerMark)
    (hopens : ∀ tokens tree, phrase tokens tree → Opens tokens) :
    Complete (power none reader) (Power phrase) PowerMark := by
  have hprimary := complete_primary hreader hopens
  intro taken tree rest h hrest
  cases h with
  | primary h =>
    obtain ⟨shorter, hread⟩ := hprimary h fun token htoken hparen ↦ hrest token htoken (.inl hparen)
    refine ⟨shorter, ?_⟩
    unfold power
    simp only [hread, ok_bind]
    split
    · exact absurd (.inr rfl) (hrest .doubleStar rfl)
    · rfl
  | @raised tokens others base exponent hbase hexponent =>
    have hstar : ∀ token ∈ (Token.doubleStar :: (others ++ rest)).head?, ¬ token = .leftParen :=
      not_goesOn_cons (by simp) _
    obtain ⟨shorterBase, hreadBase⟩ := hprimary hbase hstar
    obtain ⟨shorterExponent, hreadExponent⟩ := hreader hexponent hrest
    rw [List.append_assoc, List.cons_append]
    refine ⟨?_, ?_⟩
    · simp only [List.length_append, List.length_cons]
      omega
    · unfold power
      simp only [hreadBase, ok_bind, stepOnto_none, hreadExponent]
      rfl

end

/-- No power begins with a sign. -/
theorem unary_of_power {phrase : Phrase} {taken : List Token} {tree : Expr}
    (h : Power phrase taken tree) (room : Nat) (rest : List Token) :
    unary none (room + 1) (taken ++ rest) = power none (unary none room) (taken ++ rest) := by
  have hprimary : ∀ {taken : List Token} {tree : Expr} (rest : List Token),
      Primary phrase taken tree →
        unary none (room + 1) (taken ++ rest) = power none (unary none room) (taken ++ rest) := by
    intro taken tree rest h
    cases h <;> rfl
  cases h with
  | primary h => exact hprimary rest h
  | raised h _ =>
    rw [List.append_assoc]
    exact hprimary _ h

theorem complete_unary (room : Nat) : Complete (unary none room) (Unary room) PowerMark := by
  induction room with
  | zero =>
    intro taken tree rest h
    exact h.elim
  | succ room ih =>
    intro taken tree rest h hrest
    cases h with
    | sign hsign h =>
      obtain ⟨shorter, hread⟩ := ih h hrest
      refine ⟨Nat.lt_succ_of_lt shorter, ?_⟩
      cases hsign
      · simp only [List.cons_append, unary, signed, stepOnto_none, ok_bind, hread]
        rfl
      · simp only [List.cons_append, unary, signed, stepOnto_none, ok_bind, hread]
        rfl
    | power h =>
      obtain ⟨shorter, hread⟩ := complete_power ih (fun _ _ ↦ opens_unary) h hrest
      exact ⟨shorter, (unary_of_power h room rest).trans hread⟩

/-- Just the tokens of a sum are read, to its tree, and only off a text without fault. -/
theorem parseTokens_eq_ok_iff {tokens : List Token} {tree : Expr} :
    parseTokens fault tokens = .ok tree ↔ fault = none ∧ Sum (Unary maxNesting) tokens tree := by
  constructor
  · intro h
    obtain ⟨-, -, h⟩ := bind_eq_ok_iff.1 h
    obtain ⟨whole, hwhole, h⟩ := bind_eq_ok_iff.1 h
    obtain ⟨⟨taken, htaken, hsum⟩, hend⟩ :=
      sound_expression (sound_unary maxNesting) (reads_of_eq_ok hwhole)
    split at h
    · rename_i hrest
      cases h
      rw [hrest, List.append_nil] at htaken
      exact ⟨Decidable.byContradiction fun hfault ↦ hend hfault hrest, htaken ▸ hsum⟩
    · cases h
  · rintro ⟨rfl, h⟩
    have hreads : Reads (expression none (unary none maxNesting)) (tokens ++ []) tree [] :=
      complete_expression (complete_unary maxNesting) h fun token htoken ↦ by cases htoken
    rw [List.append_nil] at hreads
    obtain ⟨shorter, hread⟩ := hreads
    unfold parseTokens
    simp only [stepOnto_none, ok_bind, hread]
    rfl

theorem sum_unique {tokens : List Token} {tree tree' : Expr}
    (h : Sum (Unary maxNesting) tokens tree) (h' : Sum (Unary maxNesting) tokens tree') :
    tree = tree' := by
  have hread : parseTokens none tokens = .ok tree := parseTokens_eq_ok_iff.2 ⟨rfl, h⟩
  have hread' : parseTokens none tokens = .ok tree' := parseTokens_eq_ok_iff.2 ⟨rfl, h'⟩
  exact Except.ok.inj (hread.symm.trans hread')

end Ventilation.Formula
