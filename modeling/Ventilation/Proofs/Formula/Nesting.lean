import Ventilation.Proofs.Formula.Written

/-!
# Nesting

What stands in a text that is refused for its nesting. Where a reader of signed operands with room
for `n` of them runs out of it, the tokens open `n + 1` within one another, `overflows_unary`: one
after a sign, as an exponent, in parentheses or in an argument of the one before.
-/

set_option autoImplicit false
set_option relaxedAutoImplicit false

namespace Ventilation.Formula

/-- Nothing, or a phrase and an operator after it. -/
inductive Leads (operator : Token → Operator → Prop) (operand : Phrase) : List Token → Prop
  | first : Leads operator operand []
  | next {tokens : List Token} {tree : Expr} {token : Token} {op : Operator}
    (h : LeftGrouped operator operand tokens tree) (hop : operator token op) :
    Leads operator operand (tokens ++ [token])

/-- What stands in a sum before one of its signed operands. -/
inductive BeforeOperand (unary : Phrase) : List Token → Prop
  | intro {terms factors : List Token} (hterms : Leads Additive (Term unary) terms)
    (hfactors : Leads Multiplicative unary factors) : BeforeOperand unary (terms ++ factors)

/-- What stands in a call before one of its arguments. -/
inductive BeforeArgument (expr : Phrase) : List Token → Prop
  | first : BeforeArgument expr []
  | next {tokens : List Token} {trees : List Expr} (h : Listed expr tokens trees) :
    BeforeArgument expr (tokens ++ [.comma])

/-- Tokens that open so many signed operands, each within the one before: the next one is the
operand of a sign, an exponent, or an operand of the sum in parentheses or in an argument. -/
inductive Nest : ℕ → List Token → Prop
  | operand : Nest 1 []
  | sign {n : ℕ} {tokens : List Token} {token : Token} {sign : Sign} (hsign : SignToken token sign)
    (h : Nest n tokens) : Nest (n + 1) (token :: tokens)
  | exponent {n room : ℕ} {base tokens : List Token} {tree : Expr}
    (hbase : Primary (Unary room) base tree) (h : Nest n tokens) :
    Nest (n + 1) (base ++ .doubleStar :: tokens)
  | group {n room : ℕ} {before tokens : List Token} (hbefore : BeforeOperand (Unary room) before)
    (h : Nest n tokens) : Nest (n + 1) (.leftParen :: (before ++ tokens))
  | argument {n room : ℕ} (function : String) {args before tokens : List Token}
    (hargs : BeforeArgument (Sum (Unary room)) args) (hbefore : BeforeOperand (Unary room) before)
    (h : Nest n tokens) :
    Nest (n + 1) (.identifier function :: .leftParen :: (args ++ (before ++ tokens)))

/-- Tokens of one kind and then tokens of another kind. -/
def After (front back : List Token → Prop) (tokens : List Token) : Prop :=
  ∃ taken rest, tokens = taken ++ rest ∧ front taken ∧ back rest

/-- Where the reader finds the nesting too deep, tokens of a kind stand in front. -/
def Overflows (reader : Reader) (kind : List Token → Prop) : Prop :=
  ∀ ⦃tokens⦄, reader tokens = .error .tooDeep → ∃ deep, deep <+: tokens ∧ kind deep

section

variable {fault : Option ParseError} {reader : Reader} {phrase : Phrase}
  {kind : List Token → Prop}

/-- Stepping onto the next token is not what goes too deep. -/
theorem tooDeep_of_stepOnto_bind {α : Type} (hfault : fault ≠ some .tooDeep) {rest : List Token}
    {f : Unit → Except ParseError α} (h : stepOnto fault rest >>= f = .error .tooDeep) :
    f () = .error .tooDeep := by
  obtain hstep | ⟨⟨⟩, -, h⟩ := bind_eq_error_iff.1 h
  · exact absurd (eq_of_stepOnto hstep) hfault
  · exact h

/-! ### Sums -/

section

variable {operator : Token → Option Operator} {related : Token → Operator → Prop}

theorem overflows_chain (hfault : fault ≠ some .tooDeep) (hsound : Sound fault reader phrase)
    (hreader : Overflows reader kind)
    (hrelated : ∀ token op, operator token = some op → related token op) {left : Expr}
    {before tokens : List Token} (hleft : LeftGrouped related phrase before left)
    (h : chain fault operator reader left tokens = .error .tooDeep) :
    ∃ deep, deep <+: before ++ tokens ∧ After (Leads related phrase) kind deep := by
  -- each round reads an operand, so fewer tokens are left for the next one
  induction hlength : tokens.length using Nat.strongRecOn generalizing tokens left before with
  | ind length ih =>
    subst hlength
    rw [chain.eq_def] at h
    cases tokens with
    | nil => cases h
    | cons token rest =>
      cases hop : operator token with
      | none =>
        simp only [hop] at h
        cases h
      | some op =>
        simp only [hop] at h
        obtain hright | ⟨right, hright, h⟩ :=
          bind_eq_error_iff.1 (tooDeep_of_stepOnto_bind hfault h)
        · obtain ⟨deep, hdeep, hkind⟩ := hreader hright
          refine ⟨before ++ [token] ++ deep, ?_, before ++ [token], deep, rfl,
            .next hleft (hrelated _ _ hop), hkind⟩
          rw [List.append_assoc, List.singleton_append]
          exact (List.prefix_append_right_inj before).2 (List.cons_prefix_cons.2 ⟨rfl, hdeep⟩)
        · obtain ⟨⟨taken, htaken, hphrase⟩, -⟩ := hsound (reads_of_eq_ok hright)
          obtain hmore | ⟨whole, -, h⟩ := bind_eq_error_iff.1 h
          · have hlength : right.rest.length < (token :: rest).length :=
              Nat.lt_succ_of_lt right.shorter
            have hgrouped := LeftGrouped.more hleft (hrelated _ _ hop) hphrase
            obtain ⟨deep, hdeep, hkind⟩ := ih _ hlength hgrouped hmore rfl
            rw [List.append_assoc, List.cons_append, ← htaken] at hdeep
            exact ⟨deep, hdeep, hkind⟩
          · cases h

theorem overflows_level (hfault : fault ≠ some .tooDeep) (hsound : Sound fault reader phrase)
    (hreader : Overflows reader kind)
    (hrelated : ∀ token op, operator token = some op → related token op) :
    Overflows (level fault operator reader) (After (Leads related phrase) kind) := by
  intro tokens h
  obtain hfirst | ⟨first, hfirst, h⟩ := bind_eq_error_iff.1 h
  · obtain ⟨deep, hdeep, hkind⟩ := hreader hfirst
    exact ⟨deep, hdeep, [], deep, rfl, .first, hkind⟩
  · obtain ⟨⟨taken, htaken, hphrase⟩, -⟩ := hsound (reads_of_eq_ok hfirst)
    obtain hchain | ⟨whole, -, h⟩ := bind_eq_error_iff.1 h
    · obtain ⟨deep, hdeep, hkind⟩ :=
        overflows_chain hfault hsound hreader hrelated (.single hphrase) hchain
      rw [← htaken] at hdeep
      exact ⟨deep, hdeep, hkind⟩
    · cases h

end

theorem overflows_expression (hfault : fault ≠ some .tooDeep) (hsound : Sound fault reader phrase)
    (hreader : Overflows reader kind) :
    Overflows (expression fault reader) (After (BeforeOperand phrase) kind) := by
  have hterm : Overflows (level fault multiplicative? reader)
      (After (Leads Multiplicative phrase) kind) :=
    overflows_level hfault hsound hreader fun _ _ ↦ multiplicative_iff.1
  have hterms : Sound fault (level fault multiplicative? reader) (Term phrase) :=
    sound_level hsound fun _ _ ↦ multiplicative_iff.1
  intro tokens h
  obtain ⟨_, hdeep, terms, _, rfl, hleads, factors, deep, rfl, hfactors, hkind⟩ :=
    overflows_level hfault hterms hterm (fun _ _ ↦ additive_iff.1) h
  exact ⟨_, hdeep, terms ++ factors, deep, (List.append_assoc _ _ _).symm, .intro hleads hfactors,
    hkind⟩

/-! ### Calls and groups -/

theorem closed_ne_tooDeep (hfault : fault ≠ some .tooDeep) {tokens rest : List Token}
    (shorter : rest.length < tokens.length) (tree : Expr) :
    closed fault rest shorter tree ≠ .error .tooDeep := by
  intro h
  unfold closed at h
  split at h
  · cases tooDeep_of_stepOnto_bind hfault h
  · cases h

theorem BeforeArgument.cons {taken args : List Token} {tree : Expr}
    (hargs : BeforeArgument phrase args) (h : phrase taken tree) :
    BeforeArgument phrase (taken ++ .comma :: args) := by
  cases hargs with
  | first => exact .next (.single h)
  | next hlisted =>
    rw [← List.cons_append, ← List.append_assoc]
    exact .next (.more h hlisted)

theorem overflows_arguments (hfault : fault ≠ some .tooDeep) (hsound : Sound fault reader phrase)
    (hreader : Overflows reader kind) {tokens : List Token}
    (h : arguments fault reader tokens = .error .tooDeep) :
    ∃ deep, deep <+: tokens ∧ After (BeforeArgument phrase) kind deep := by
  induction hlength : tokens.length using Nat.strongRecOn generalizing tokens with
  | ind length ih =>
    subst hlength
    rw [arguments.eq_def] at h
    obtain hfirst | ⟨first, hfirst, h⟩ := bind_eq_error_iff.1 h
    · obtain ⟨deep, hdeep, hkind⟩ := hreader hfirst
      exact ⟨deep, hdeep, [], deep, rfl, .first, hkind⟩
    obtain ⟨⟨taken, htaken, hphrase⟩, -⟩ := hsound (reads_of_eq_ok hfirst)
    split at h
    · rename_i rest hrest
      obtain hothers | ⟨others, -, h⟩ :=
        bind_eq_error_iff.1 (tooDeep_of_stepOnto_bind hfault h)
      · have hlength : rest.length < tokens.length := by
          have hshorter := first.shorter
          rw [hrest, List.length_cons] at hshorter
          omega
        obtain ⟨_, hdeep, args, deep, rfl, hargs, hkind⟩ := ih _ hlength hothers rfl
        refine ⟨taken ++ .comma :: args ++ deep, ?_, _, deep, rfl, hargs.cons hphrase, hkind⟩
        rw [htaken, hrest, List.append_assoc, List.cons_append]
        exact (List.prefix_append_right_inj taken).2 (List.cons_prefix_cons.2 ⟨rfl, hdeep⟩)
      · cases h
    · cases h

/-! ### Operands -/

section

variable {n room : ℕ}

theorem overflows_named (hfault : fault ≠ some .tooDeep) (hsound : Sound fault reader (Unary room))
    (hreader : Overflows reader (Nest n)) (name : String) {tokens : List Token}
    (h : named fault reader name tokens = .error .tooDeep) :
    ∃ deep, deep <+: .identifier name :: tokens ∧ Nest (n + 1) deep := by
  have hexpr := overflows_expression hfault hsound hreader
  unfold named at h
  split at h
  · obtain hcall | ⟨whole, -, h⟩ := bind_eq_error_iff.1 (tooDeep_of_stepOnto_bind hfault h)
    · unfold call at hcall
      split at hcall
      · cases tooDeep_of_stepOnto_bind hfault hcall
      · obtain hargs | ⟨args, -, hcall⟩ := bind_eq_error_iff.1 hcall
        · obtain ⟨_, hdeep, args, _, rfl, hbefore, before, deep, rfl, hoperand, hnest⟩ :=
            overflows_arguments hfault (sound_expression hsound) hexpr hargs
          refine ⟨_, ?_, .argument name hbefore hoperand hnest⟩
          exact List.cons_prefix_cons.2 ⟨rfl, List.cons_prefix_cons.2 ⟨rfl, hdeep⟩⟩
        · exact absurd hcall (closed_ne_tooDeep hfault _ _)
    · cases h
  · cases h

theorem overflows_primary (hfault : fault ≠ some .tooDeep)
    (hsound : Sound fault reader (Unary room)) (hreader : Overflows reader (Nest n)) :
    Overflows (primary fault reader) (Nest (n + 1)) := by
  intro tokens h
  unfold primary at h
  split at h
  · cases tooDeep_of_stepOnto_bind hfault h
  · cases tooDeep_of_stepOnto_bind hfault h
  · obtain hinner | ⟨inner, -, h⟩ := bind_eq_error_iff.1 (tooDeep_of_stepOnto_bind hfault h)
    · obtain ⟨_, hdeep, before, deep, rfl, hbefore, hnest⟩ :=
        overflows_expression hfault hsound hreader hinner
      exact ⟨_, List.cons_prefix_cons.2 ⟨rfl, hdeep⟩, .group hbefore hnest⟩
    · exact absurd h (closed_ne_tooDeep hfault _ _)
  · obtain hnamed | ⟨whole, -, h⟩ := bind_eq_error_iff.1 (tooDeep_of_stepOnto_bind hfault h)
    · exact overflows_named hfault hsound hreader _ hnamed
    · cases h
  · cases h

theorem overflows_power (hfault : fault ≠ some .tooDeep)
    (hsound : Sound fault reader (Unary room)) (hreader : Overflows reader (Nest n)) :
    Overflows (power fault reader) (Nest (n + 1)) := by
  intro tokens h
  obtain hbase | ⟨base, hbase, h⟩ := bind_eq_error_iff.1 h
  · exact overflows_primary hfault hsound hreader hbase
  obtain ⟨⟨taken, htaken, hprimary⟩, -⟩ := sound_primary hsound (reads_of_eq_ok hbase)
  split at h
  · rename_i rest hrest
    obtain hexponent | ⟨exponent, -, h⟩ :=
      bind_eq_error_iff.1 (tooDeep_of_stepOnto_bind hfault h)
    · obtain ⟨deep, hdeep, hnest⟩ := hreader hexponent
      refine ⟨_, ?_, .exponent hprimary hnest⟩
      rw [htaken, hrest]
      exact (List.prefix_append_right_inj taken).2 (List.cons_prefix_cons.2 ⟨rfl, hdeep⟩)
    · cases h
  · cases h

theorem overflows_signed (hfault : fault ≠ some .tooDeep) (hreader : Overflows reader (Nest n))
    {sign : Sign} {token : Token} (hsign : SignToken token sign) {rest : List Token}
    (h : signed fault reader sign rest token = .error .tooDeep) :
    ∃ deep, deep <+: token :: rest ∧ Nest (n + 1) deep := by
  obtain hoperand | ⟨operand, -, h⟩ := bind_eq_error_iff.1 (tooDeep_of_stepOnto_bind hfault h)
  · obtain ⟨deep, hdeep, hnest⟩ := hreader hoperand
    exact ⟨_, List.cons_prefix_cons.2 ⟨rfl, hdeep⟩, .sign hsign hnest⟩
  · cases h

end

theorem overflows_unary (hfault : fault ≠ some .tooDeep) (room : ℕ) :
    Overflows (unary fault room) (Nest (room + 1)) := by
  induction room with
  | zero => exact fun tokens _ ↦ ⟨[], List.nil_prefix, .operand⟩
  | succ room ih =>
    intro tokens h
    unfold unary at h
    split at h
    · exact overflows_signed hfault ih .minus h
    · exact overflows_signed hfault ih .plus h
    · exact overflows_power hfault (sound_unary room) ih h

end

/-! ### Texts -/

theorem nest_of_parse {text : String} (h : parse text = .error .tooDeep) :
    ∃ before deep, before ++ deep <+: (lex 0 (Text.trim text.toList)).tokens ∧
      BeforeOperand (Unary maxNesting) before ∧ Nest (maxNesting + 1) deep := by
  unfold parse at h
  dsimp only at h
  split at h
  · cases h
  · have hfault : (lex 0 (Text.trim text.toList)).fault ≠ some .tooDeep :=
      fun hfault ↦ nomatch isLexical_of_lex hfault
    obtain hexpr | ⟨whole, -, h⟩ := bind_eq_error_iff.1 (tooDeep_of_stepOnto_bind hfault h)
    · obtain ⟨_, hdeep, before, deep, rfl, hbefore, hnest⟩ :=
        overflows_expression hfault (sound_unary maxNesting) (overflows_unary hfault maxNesting)
          hexpr
      exact ⟨before, deep, hdeep, hbefore, hnest⟩
    · split at h
      · cases h
      · cases h

end Ventilation.Formula
