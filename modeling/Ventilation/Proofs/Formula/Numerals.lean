import Mathlib.Data.List.TakeWhile
import Mathlib.Tactic.Basic
import Ventilation.Formula.Token
import Ventilation.Proofs.Number.Reading

/-!
# Numerals of formulas

What a numeral is, and that `numeralCount` measures the longest one at the front of a text:
`isNumeral_take` and `length_le_numeralCount`. The three parts of a numeral are measured one after
the other. That this misses no longer numeral rests on what stands after a part which was cut too
short: a character that no later part begins with.
-/

set_option autoImplicit false
set_option relaxedAutoImplicit false

namespace Ventilation.Formula

open Text Binary64

def AllDigits (cs : List Char) : Prop := ∀ c ∈ cs, c.isDigit = true

/-- Nothing, or a point and digits after it. -/
inductive IsFraction : List Char → Prop
  | none : IsFraction []
  | point {digits : List Char} (h : AllDigits digits) : IsFraction ('.' :: digits)

inductive IsSign : List Char → Prop
  | none : IsSign []
  | plus : IsSign ['+']
  | minus : IsSign ['-']

/-- Nothing, or a mark, a sign that may be missing and at least one digit. -/
inductive IsExponent : List Char → Prop
  | none : IsExponent []
  | mark {c : Char} {sign digits : List Char} (hc : c = 'e' ∨ c = 'E') (hsign : IsSign sign)
    (hdigits : AllDigits digits) (hne : digits ≠ []) : IsExponent (c :: (sign ++ digits))

/-- Digits, a fraction and an exponent, with a digit before the exponent. -/
def IsNumeral (cs : List Char) : Prop :=
  ∃ whole fraction exponent, cs = whole ++ (fraction ++ exponent) ∧ AllDigits whole ∧
    IsFraction fraction ∧ IsExponent exponent ∧ ∃ c ∈ whole ++ fraction, c.isDigit = true

/-! ### Parts are measured to their end -/

/-- Of the texts with `part`, those at the front of `cs` have at most `count` characters, and after
the shorter ones `cs` goes on with a character in `goesOn`. -/
def Measures (count : Nat) (part : List Char → Prop) (goesOn : Char → Prop) (cs : List Char) :
    Prop :=
  ∀ ⦃front⦄, part front → front <+: cs → front.length ≤ count ∧
    (front.length < count → ∀ c ∈ (cs.drop front.length).head?, goesOn c)

theorem prefix_drop_of_append {front more cs : List Char} (h : front ++ more <+: cs) :
    more <+: cs.drop front.length := by
  obtain ⟨rest, rfl⟩ := h
  rw [List.append_assoc, List.drop_left]
  exact List.prefix_append more rest

/-- Two parts after one another are measured one after the other. -/
theorem length_append_le {count countMore : Nat} {part more : List Char → Prop}
    {goesOn goesOnMore : Char → Prop} {cs : List Char} (hpart : Measures count part goesOn cs)
    (hmore : Measures countMore more goesOnMore (cs.drop count))
    (hstop : ∀ c back, more (c :: back) → ¬ goesOn c) {front back : List Char} (hfront : part front)
    (hback : more back) (h : front ++ back <+: cs) :
    front.length + back.length ≤ count + countMore := by
  obtain ⟨hle, hgoesOn⟩ := hpart hfront ((List.prefix_append front back).trans h)
  have hrest : back <+: cs.drop front.length := prefix_drop_of_append h
  rcases Nat.lt_or_eq_of_le hle with hlt | heq
  · cases back with
    | nil => exact Nat.le_add_right_of_le hle
    | cons c back =>
      obtain ⟨rest, hrest⟩ := hrest
      refine absurd (hgoesOn hlt c ?_) (hstop c back hback)
      rw [← hrest]
      rfl
  · rw [heq] at hrest ⊢
    exact Nat.add_le_add_left (hmore hback hrest).1 count

theorem take_takeWhile_length (p : Char → Bool) (cs : List Char) :
    cs.take (cs.takeWhile p).length = cs.takeWhile p :=
  (List.prefix_iff_eq_take.1 (List.takeWhile_prefix p)).symm

theorem allDigits_take (cs : List Char) : AllDigits (cs.take (digitCount cs)) := by
  intro c hc
  rw [digitCount, take_takeWhile_length] at hc
  exact List.mem_takeWhile_imp hc

theorem digitCount_le (cs : List Char) : digitCount cs ≤ cs.length :=
  (List.takeWhile_prefix Char.isDigit).length_le

theorem digitCount_append {front : List Char} (h : AllDigits front) (back : List Char) :
    digitCount (front ++ back) = front.length + digitCount back := by
  unfold digitCount
  rw [List.takeWhile_append_of_pos h, List.length_append]

theorem measures_digits (cs : List Char) :
    Measures (digitCount cs) AllDigits (fun c ↦ c.isDigit = true) cs := by
  rintro front hfront ⟨back, rfl⟩
  rw [digitCount_append hfront, List.drop_left]
  refine ⟨Nat.le_add_right _ _, fun hlt c hc ↦ ?_⟩
  cases back with
  | nil => cases hc
  | cons d back =>
    obtain rfl := Option.some.inj hc
    refine Decidable.byContradiction fun hdigit ↦ ?_
    have hzero : digitCount (d :: back) = 0 := by
      unfold digitCount
      rw [List.takeWhile_cons_of_neg hdigit, List.length_nil]
    omega

/-! ### Fractions -/

theorem fractionCount_le (cs : List Char) : fractionCount cs ≤ cs.length := by
  unfold fractionCount
  split
  · rename_i rest
    have hle := digitCount_le rest
    rw [List.length_cons]
    omega
  · exact Nat.zero_le _

theorem isFraction_take (cs : List Char) : IsFraction (cs.take (fractionCount cs)) := by
  unfold fractionCount
  split
  · rename_i rest
    rw [Nat.add_comm, List.take_succ_cons]
    exact .point (allDigits_take rest)
  · exact .none

theorem measures_fraction (cs : List Char) :
    Measures (fractionCount cs) IsFraction (fun c ↦ c.isDigit = true ∨ c = '.') cs := by
  rintro front hfront hinitial
  cases hfront with
  | none =>
    refine ⟨Nat.zero_le _, fun hlt c hc ↦ .inr ?_⟩
    unfold fractionCount at hlt
    split at hlt
    · exact (Option.some.inj hc).symm
    · exact absurd hlt (Nat.lt_irrefl 0)
  | @point digits hdigits =>
    obtain ⟨back, rfl⟩ := hinitial
    obtain ⟨hle, hgoesOn⟩ := measures_digits (digits ++ back) hdigits (List.prefix_append _ _)
    have hcount : fractionCount ('.' :: digits ++ back) = digitCount (digits ++ back) + 1 :=
      Nat.add_comm _ _
    rw [hcount, List.length_cons]
    exact ⟨Nat.succ_le_succ hle, fun hlt c hc ↦ .inl (hgoesOn (Nat.lt_of_succ_lt_succ hlt) c hc)⟩

/-! ### Exponents -/

/-- How many characters at the front are a sign. -/
def signCount : List Char → Nat
  | '+' :: _ => 1
  | '-' :: _ => 1
  | _ => 0

theorem exponentCount_cons (c : Char) (cs : List Char) :
    exponentCount (c :: cs) =
      if c = 'e' ∨ c = 'E' then
        if digitCount (cs.drop (signCount cs)) = 0 then 0
        else 1 + signCount cs + digitCount (cs.drop (signCount cs))
      else 0 := by
  rfl

theorem exponentCount_le (cs : List Char) : exponentCount cs ≤ cs.length := by
  cases cs with
  | nil => exact Nat.le_refl 0
  | cons c cs =>
    have hle := digitCount_le (cs.drop (signCount cs))
    rw [List.length_drop] at hle
    rw [exponentCount_cons, List.length_cons]
    split_ifs <;> omega

theorem isSign_take (cs : List Char) : IsSign (cs.take (signCount cs)) := by
  unfold signCount
  split
  · exact .plus
  · exact .minus
  · exact .none

theorem signCount_append {sign digits : List Char} (hsign : IsSign sign)
    (hdigits : AllDigits digits) (hne : digits ≠ []) (back : List Char) :
    signCount (sign ++ (digits ++ back)) = sign.length := by
  obtain ⟨d, digits, rfl⟩ := List.exists_cons_of_ne_nil hne
  have hd : d.isDigit = true := hdigits d List.mem_cons_self
  have hplus : d ≠ '+' := ne_of_isDigit hd (by decide)
  have hminus : d ≠ '-' := ne_of_isDigit hd (by decide)
  cases hsign with
  | none =>
    simp [signCount, hplus, hminus]
  | plus => rfl
  | minus => rfl

/-- A mark, a sign and digits are taken one after another. -/
theorem take_exponent (c : Char) (cs : List Char) :
    (c :: cs).take (1 + signCount cs + digitCount (cs.drop (signCount cs))) =
      c :: (cs.take (signCount cs) ++
        (cs.drop (signCount cs)).take (digitCount (cs.drop (signCount cs)))) := by
  rw [Nat.add_assoc, Nat.add_comm 1, List.take_succ_cons, List.take_add]

theorem isExponent_take (cs : List Char) : IsExponent (cs.take (exponentCount cs)) := by
  cases cs with
  | nil => exact .none
  | cons c cs =>
    rw [exponentCount_cons]
    by_cases hc : c = 'e' ∨ c = 'E'
    · rw [if_pos hc]
      by_cases hzero : digitCount (cs.drop (signCount cs)) = 0
      · rw [if_pos hzero]
        exact .none
      · rw [if_neg hzero, take_exponent]
        refine .mark hc (isSign_take cs) (allDigits_take _) fun hnil ↦ hzero ?_
        have hlength := congrArg List.length hnil
        rw [List.length_take, List.length_nil] at hlength
        have hle := digitCount_le (cs.drop (signCount cs))
        omega
    · rw [if_neg hc]
      exact .none

theorem measures_exponent (cs : List Char) :
    Measures (exponentCount cs) IsExponent (fun _ ↦ True) cs := by
  rintro front hfront ⟨back, rfl⟩
  refine ⟨?_, fun _ _ _ ↦ trivial⟩
  cases hfront with
  | none => exact Nat.zero_le _
  | @mark c sign digits hc hsign hdigits hne =>
    have hcount : digitCount (digits ++ back) = digits.length + digitCount back :=
      digitCount_append hdigits back
    have hpos : 0 < digits.length := List.length_pos_iff.2 hne
    rw [List.cons_append, List.append_assoc, exponentCount_cons, if_pos hc,
      signCount_append hsign hdigits hne, List.drop_left, hcount, if_neg (by omega)]
    simp only [List.length_cons, List.length_append]
    omega

/-! ### Numerals -/

theorem not_isDigit_of_mark {c : Char} (hc : c = 'e' ∨ c = 'E') : ¬ c.isDigit = true := by
  rcases hc with rfl | rfl
  · decide
  · decide

theorem exponent_head {c : Char} {back : List Char} (h : IsExponent (c :: back)) :
    ¬ (c.isDigit = true ∨ c = '.') := by
  cases h with
  | mark hc _ _ _ =>
    rintro (hdigit | rfl)
    · exact not_isDigit_of_mark hc hdigit
    · simp at hc

/-- What may stand after the digits at the front of a numeral. -/
def IsTail (cs : List Char) : Prop :=
  ∃ fraction exponent, cs = fraction ++ exponent ∧ IsFraction fraction ∧ IsExponent exponent

theorem tail_head {c : Char} {back : List Char} (h : IsTail (c :: back)) : ¬ c.isDigit = true := by
  obtain ⟨fraction, exponent, heq, hfraction, hexponent⟩ := h
  cases hfraction with
  | none =>
    rw [List.nil_append] at heq
    exact fun hc ↦ exponent_head (heq ▸ hexponent) (.inl hc)
  | point _ =>
    rw [(List.cons.inj heq).1]
    decide

/-- How many characters at the front are a fraction and an exponent. -/
def tailCount (cs : List Char) : Nat :=
  fractionCount cs + exponentCount (cs.drop (fractionCount cs))

theorem tailCount_le (cs : List Char) : tailCount cs ≤ cs.length := by
  have hfraction := fractionCount_le cs
  have hexponent := exponentCount_le (cs.drop (fractionCount cs))
  rw [List.length_drop] at hexponent
  unfold tailCount
  omega

theorem take_tailCount (cs : List Char) :
    cs.take (tailCount cs) = cs.take (fractionCount cs) ++
      (cs.drop (fractionCount cs)).take (exponentCount (cs.drop (fractionCount cs))) :=
  List.take_add

theorem measures_tail (cs : List Char) : Measures (tailCount cs) IsTail (fun _ ↦ True) cs := by
  rintro front ⟨fraction, exponent, rfl, hfraction, hexponent⟩ hinitial
  refine ⟨?_, fun _ _ _ ↦ trivial⟩
  rw [List.length_append]
  exact length_append_le (measures_fraction cs) (measures_exponent _) (fun _ _ ↦ exponent_head)
    hfraction hexponent hinitial

theorem numeralCount_eq (cs : List Char) :
    numeralCount cs = digitCount cs + tailCount (cs.drop (digitCount cs)) := by
  unfold numeralCount tailCount
  rw [List.drop_drop, Nat.add_assoc]

theorem numeralCount_le (cs : List Char) : numeralCount cs ≤ cs.length := by
  have hwhole := digitCount_le cs
  have htail := tailCount_le (cs.drop (digitCount cs))
  rw [List.length_drop] at htail
  rw [numeralCount_eq]
  omega

/-- No longer text at the front is a numeral. -/
theorem length_le_numeralCount {front cs : List Char} (h : IsNumeral front)
    (hinitial : front <+: cs) : front.length ≤ numeralCount cs := by
  obtain ⟨whole, fraction, exponent, rfl, hwhole, hfraction, hexponent, -⟩ := h
  rw [numeralCount_eq, List.length_append]
  exact length_append_le (measures_digits cs) (measures_tail _) (fun _ _ ↦ tail_head) hwhole
    ⟨fraction, exponent, rfl, hfraction, hexponent⟩ hinitial

/-- How a numeral begins. -/
def BeginsNumeral (c : Char) (cs : List Char) : Prop :=
  c.isDigit = true ∨ c = '.' ∧ cs.head?.any Char.isDigit = true

theorem exists_cons_of_isNumeral {cs : List Char} (h : IsNumeral cs) :
    ∃ c rest, cs = c :: rest ∧ BeginsNumeral c rest := by
  obtain ⟨whole, fraction, exponent, rfl, hwhole, hfraction, -, hdigit⟩ := h
  cases whole with
  | cons c whole => exact ⟨c, _, rfl, .inl (hwhole c List.mem_cons_self)⟩
  | nil =>
    obtain ⟨c, hc, hcdigit⟩ := hdigit
    cases hfraction with
    | none => cases hc
    | @point digits hdigits =>
      refine ⟨'.', digits ++ exponent, rfl, .inr ⟨rfl, ?_⟩⟩
      rcases List.mem_cons.1 hc with rfl | hc
      · exact absurd hcdigit (by decide)
      · obtain ⟨d, digits, rfl⟩ := List.exists_cons_of_ne_nil (List.ne_nil_of_mem hc)
        exact hdigits d List.mem_cons_self

theorem beginsNumeral_of_isNumeral {c : Char} {cs : List Char} (h : IsNumeral (c :: cs)) :
    BeginsNumeral c cs := by
  obtain ⟨_, _, heq, hbegins⟩ := exists_cons_of_isNumeral h
  obtain ⟨rfl, rfl⟩ := List.cons.inj heq
  exact hbegins

theorem digitCount_cons {c : Char} (hc : c.isDigit = true) (cs : List Char) :
    digitCount (c :: cs) = digitCount cs + 1 := by
  unfold digitCount
  rw [List.takeWhile_cons_of_pos hc, List.length_cons]

/-- What is measured is a numeral. -/
theorem isNumeral_take {c : Char} {cs : List Char} (h : BeginsNumeral c cs) :
    IsNumeral ((c :: cs).take (numeralCount (c :: cs))) := by
  rw [numeralCount_eq, List.take_add, take_tailCount]
  refine ⟨_, _, _, rfl, allDigits_take _, isFraction_take _, isExponent_take _, ?_⟩
  -- the digit stands among the first ones, or right after the point
  rcases h with hc | ⟨rfl, hc⟩
  · refine ⟨c, List.mem_append_left _ ?_, hc⟩
    rw [digitCount_cons hc, List.take_succ_cons]
    exact List.mem_cons_self
  · cases cs with
    | nil => cases hc
    | cons d cs =>
      have hzero : digitCount ('.' :: d :: cs) = 0 := rfl
      have hcount : fractionCount ('.' :: d :: cs) = digitCount cs + 2 := by
        change 1 + digitCount (d :: cs) = _
        rw [digitCount_cons hc]
        omega
      refine ⟨d, List.mem_append_right _ ?_, hc⟩
      rw [hzero, List.drop_zero, hcount, List.take_succ_cons, List.take_succ_cons]
      exact List.mem_cons_of_mem _ List.mem_cons_self

theorem exists_numeralCount_eq {c : Char} {cs : List Char} (h : BeginsNumeral c cs) :
    ∃ more, numeralCount (c :: cs) = more + 1 ∧ more ≤ cs.length ∧
      IsNumeral (c :: cs.take more) := by
  have hnumeral := isNumeral_take h
  have hle := numeralCount_le (c :: cs)
  cases hcount : numeralCount (c :: cs) with
  | zero =>
    rw [hcount, List.take_zero] at hnumeral
    obtain ⟨_, _, hnil, -⟩ := exists_cons_of_isNumeral hnumeral
    cases hnil
  | succ more =>
    rw [hcount, List.take_succ_cons] at hnumeral
    rw [hcount] at hle
    exact ⟨more, rfl, Nat.le_of_succ_le_succ hle, hnumeral⟩

/-! ### The characters of a numeral -/

section

variable {c : Char} {cs : List Char}

theorem mem_of_isNumeral (h : IsNumeral cs) (hc : c ∈ cs) :
    c.isDigit = true ∨ c ∈ ['.', 'e', 'E', '+', '-'] := by
  obtain ⟨whole, fraction, exponent, rfl, hwhole, hfraction, hexponent, -⟩ := h
  rcases List.mem_append.1 hc with hc | hc
  · exact .inl (hwhole c hc)
  rcases List.mem_append.1 hc with hc | hc
  · cases hfraction with
    | none => cases hc
    | point hdigits =>
      rcases List.mem_cons.1 hc with rfl | hc
      · exact .inr (by decide)
      · exact .inl (hdigits c hc)
  · cases hexponent with
    | none => cases hc
    | mark hmark hsign hdigits _ =>
      rcases List.mem_cons.1 hc with rfl | hc
      · rcases hmark with rfl | rfl <;> exact .inr (by decide)
      rcases List.mem_append.1 hc with hc | hc
      · cases hsign with
        | none => cases hc
        | plus =>
          rw [List.mem_singleton.1 hc]
          exact .inr (by decide)
        | minus =>
          rw [List.mem_singleton.1 hc]
          exact .inr (by decide)
      · exact .inl (hdigits c hc)

theorem isAlpha_eq_false_of_mem_fraction (h : IsFraction cs) (hc : c ∈ cs) : c.isAlpha = false := by
  cases h with
  | none => cases hc
  | point hdigits =>
    rcases List.mem_cons.1 hc with rfl | hc
    · rfl
    · exact isAlpha_eq_false_of_isDigit (hdigits c hc)

theorem letters_of_forall_not_isAlpha (h : ∀ c ∈ cs, c.isAlpha = false) :
    cs.countP Char.isAlpha ≤ 1 ∧ ∀ c ∈ cs.getLast?, c.isAlpha = false := by
  rw [List.countP_eq_zero.2 fun c hc ↦ Bool.eq_false_iff.1 (h c hc)]
  exact ⟨Nat.zero_le 1, fun c hc ↦ h c (List.mem_of_mem_getLast? hc)⟩

/-- A numeral has at most one letter, and does not end with it. -/
theorem letters_of_isNumeral (h : IsNumeral cs) :
    cs.countP Char.isAlpha ≤ 1 ∧ ∀ c ∈ cs.getLast?, c.isAlpha = false := by
  obtain ⟨whole, fraction, exponent, rfl, hwhole, hfraction, hexponent, -⟩ := h
  have hfront : ∀ c ∈ whole ++ fraction, c.isAlpha = false :=
    List.forall_mem_append.2 ⟨fun c hc ↦ isAlpha_eq_false_of_isDigit (hwhole c hc),
      fun c ↦ isAlpha_eq_false_of_mem_fraction hfraction⟩
  rw [← List.append_assoc]
  cases hexponent with
  | none =>
    rw [List.append_nil]
    exact letters_of_forall_not_isAlpha hfront
  | @mark e sign digits _ hsign hdigits hne =>
    have hback : ∀ c ∈ sign ++ digits, c.isAlpha = false := by
      refine List.forall_mem_append.2 ⟨fun c hc ↦ ?_, fun c hc ↦
        isAlpha_eq_false_of_isDigit (hdigits c hc)⟩
      cases hsign with
      | none => cases hc
      | plus => exact List.mem_singleton.1 hc ▸ rfl
      | minus => exact List.mem_singleton.1 hc ▸ rfl
    constructor
    · rw [List.countP_append, List.countP_cons,
        List.countP_eq_zero.2 fun c hc ↦ Bool.eq_false_iff.1 (hfront c hc),
        List.countP_eq_zero.2 fun c hc ↦ Bool.eq_false_iff.1 (hback c hc)]
      split <;> omega
    · intro c hc
      have hlast : (whole ++ fraction ++ e :: (sign ++ digits)).getLast? = digits.getLast? := by
        rw [List.append_cons, ← List.append_assoc, List.getLast?_append_of_ne_nil _ hne]
      rw [hlast] at hc
      exact isAlpha_eq_false_of_isDigit (hdigits c (List.mem_of_mem_getLast? hc))

/-- A sign stands right after the letter of an exponent. -/
theorem exists_isAlpha_of_sign {front back : List Char} (hc : c = '+' ∨ c = '-')
    (h : IsNumeral (front ++ c :: back)) : ∃ d ∈ front.getLast?, d.isAlpha = true := by
  obtain ⟨whole, fraction, exponent, heq, hwhole, hfraction, hexponent, -⟩ := h
  have hdigit : c.isDigit = false := by rcases hc with rfl | rfl <;> rfl
  have hdigits : ∀ {digits}, AllDigits digits → c ∉ digits := fun hall hmem ↦
    Bool.false_ne_true (hdigit.symm.trans (hall c hmem))
  have hfront : c ∉ whole ++ fraction := by
    rw [List.mem_append, not_or]
    refine ⟨hdigits hwhole, fun hmem ↦ ?_⟩
    cases hfraction with
    | none => cases hmem
    | point hall =>
      rcases List.mem_cons.1 hmem with rfl | hmem
      · simp at hc
      · exact hdigits hall hmem
  have hmem : c ∈ exponent := by
    have hall : c ∈ (whole ++ fraction) ++ exponent := by
      rw [List.append_assoc, ← heq]
      exact List.mem_append_right _ List.mem_cons_self
    exact (List.mem_append.1 hall).resolve_left hfront
  cases hexponent with
  | none => cases hmem
  | @mark m sign digits hm hsign hall _ =>
    have hne : c ≠ m := by
      rintro rfl
      rcases hc with rfl | rfl <;> simp at hm
    obtain rfl : sign = [c] := by
      rcases List.mem_append.1 ((List.mem_cons.1 hmem).resolve_left hne) with hmem | hmem
      · cases hsign with
        | none => cases hmem
        | plus => rw [List.mem_singleton.1 hmem]
        | minus => rw [List.mem_singleton.1 hmem]
      · exact absurd hmem (hdigits hall)
    -- the sign stands nowhere else, so what is before it is the same
    have hbefore : c ∉ whole ++ fraction ++ [m] := by
      rw [List.mem_append, List.mem_singleton, not_or]
      exact ⟨hfront, hne⟩
    have hsplit : (whole ++ fraction ++ [m]) ++ c :: digits = front ++ c :: back := by
      rw [heq]
      simp
    obtain ⟨rfl, -, -⟩ := (List.append_cons_inj_of_notMem hbefore (hdigits hall)).1 hsplit
    refine ⟨m, List.getLast?_concat, ?_⟩
    rcases hm with rfl | rfl <;> rfl

/-- After a numeral, a longer one goes on with a digit, a point or the letter of an exponent. -/
theorem isDigit_or_mem_of_isNumeral {back : List Char} (h : IsNumeral cs)
    (hlonger : IsNumeral (cs ++ c :: back)) : c.isDigit = true ∨ c ∈ ['.', 'e', 'E'] := by
  have hmem := mem_of_isNumeral hlonger (List.mem_append_right cs List.mem_cons_self)
  refine hmem.imp_right fun hmarks ↦ ?_
  by_cases hsign : c = '+' ∨ c = '-'
  · obtain ⟨d, hd, halpha⟩ := exists_isAlpha_of_sign hsign hlonger
    exact absurd halpha (Bool.eq_false_iff.1 ((letters_of_isNumeral h).2 d hd))
  · rw [not_or] at hsign
    simpa [hsign] using hmarks

end

/-! ### Numerals are read -/

theorem readExponent_append {sign digits : List Char} (hsign : IsSign sign)
    (hdigits : AllDigits digits) (hne : digits ≠ []) :
    ∃ n, readExponent (sign ++ digits) = some n := by
  have hall : digits.all Char.isDigit = true := List.all_eq_true.2 hdigits
  obtain ⟨d, digits, rfl⟩ := List.exists_cons_of_ne_nil hne
  have hd : d.isDigit = true := hdigits d List.mem_cons_self
  have hplus : d ≠ '+' := ne_of_isDigit hd (by decide)
  have hminus : d ≠ '-' := ne_of_isDigit hd (by decide)
  cases hsign with
  | none => simp [readExponent, hplus, hminus, hall]
  | plus => simp [readExponent, hall]
  | minus => simp [readExponent, hall]

theorem exists_exponent {exponent : List Char} (h : IsExponent exponent) :
    ∃ n, (match exponent with
      | [] => some 0
      | c :: rest => if c = 'e' ∨ c = 'E' then readExponent rest else none) = some n := by
  cases h with
  | none => exact ⟨0, rfl⟩
  | mark hc hsign hdigits hne =>
    obtain ⟨n, hn⟩ := readExponent_append hsign hdigits hne
    exact ⟨n, (if_pos hc).trans hn⟩

theorem exists_readMagnitude {cs : List Char} (h : IsNumeral cs) :
    ∃ value, readMagnitude false cs = some value := by
  obtain ⟨whole, fraction, exponent, rfl, hwhole, hfraction, hexponent, c, hc, hdigit⟩ := h
  obtain ⟨n, hn⟩ := exists_exponent hexponent
  have htail : ∀ d ∈ (fraction ++ exponent).head?, ¬ d.isDigit = true := by
    intro d hd
    obtain ⟨back, hback⟩ := List.head?_eq_some_iff.1 hd
    have htail : IsTail (d :: back) := ⟨fraction, exponent, hback.symm, hfraction, hexponent⟩
    exact tail_head htail
  have hend : ∀ d ∈ exponent.head?, ¬ (d.isDigit = true ∨ d = '.') := by
    intro d hd
    obtain ⟨back, hback⟩ := List.head?_eq_some_iff.1 hd
    exact exponent_head (hback ▸ hexponent)
  unfold readMagnitude
  rw [spanDigits_append hwhole htail]
  cases hfraction with
  | none =>
    have hdigits : ¬ (whole.isEmpty && ([] : List Char).isEmpty) = true := by
      rw [List.append_nil] at hc
      rw [Bool.and_eq_true]
      exact fun hempty ↦ List.ne_nil_of_mem hc (List.isEmpty_iff.1 hempty.1)
    simp only [List.nil_append]
    split
    · exact absurd (.inr rfl) (hend '.' rfl)
    · rw [if_neg hdigits]
      exact ⟨_, congrArg _ hn⟩
  | @point digits hdigits =>
    rw [List.cons_append]
    simp only [spanDigits_append hdigits fun d hd hdigit ↦ hend d hd (.inl hdigit)]
    have hdigits : ¬ (whole.isEmpty && digits.isEmpty) = true := by
      rw [Bool.and_eq_true]
      rintro ⟨hleft, hright⟩
      rw [List.isEmpty_iff.1 hleft, List.isEmpty_iff.1 hright, List.nil_append] at hc
      obtain rfl := List.mem_singleton.1 hc
      exact absurd hdigit (by decide)
    rw [if_neg hdigits]
    exact ⟨_, congrArg _ hn⟩

/-- Every numeral is the text of a number. -/
theorem exists_read_of_isNumeral {cs : List Char} (h : IsNumeral cs) :
    ∃ value, read cs = some value := by
  obtain ⟨value, hvalue⟩ := exists_readMagnitude h
  obtain ⟨c, rest, rfl, hc⟩ := exists_cons_of_isNumeral h
  exact ⟨value, (read_of_numeral (hc.imp_right And.left)).trans hvalue⟩

end Ventilation.Formula
