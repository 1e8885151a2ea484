import Mathlib.Data.List.TakeWhile
import Ventilation.Formula.Basic
import Ventilation.Proofs.Pricing.Answer
import Ventilation.Proofs.Text.Search

/-!
# The patterns of the screen

Where each pattern occurs in a text, apart from how it is looked for. A text passes the screen if
and only if no rule's pattern occurs in it, whatever the case of its letters, and its parentheses
pair up.
-/

set_option autoImplicit false
set_option relaxedAutoImplicit false

namespace Ventilation.Formula

open Text

/-- A pattern stands somewhere in a text. -/
def Pattern.Matches : Pattern → List Char → Prop
  | .spaced text, cs => ∃ front c back, cs = front ++ (text.toList ++ c :: back) ∧ isBlank c = true
  | .word text, cs => text.toList <:+: cs
  | .called text, cs => ∃ front blanks back,
    cs = front ++ (text.toList ++ (blanks ++ '(' :: back)) ∧ ∀ c ∈ blanks, isBlank c = true
  | .around first second, cs => ∃ front between back,
    cs = front ++ (first.toList ++ (between ++ (second.toList ++ back)))
  | .oneOf chars, cs => ∃ c ∈ cs, c ∈ chars

theorem wordBefore_iff {next : List Char → Bool} (hnext : next [] = false) {word cs : List Char} :
    wordBefore next word cs = true ↔
      ∃ front rest, cs = front ++ (word ++ rest) ∧ next rest = true := by
  induction cs with
  | nil =>
    constructor
    · intro h
      cases h
    · rintro ⟨front, rest, heq, hrest⟩
      rw [(List.append_eq_nil_iff.1 (List.append_eq_nil_iff.1 heq.symm).2).2, hnext] at hrest
      cases hrest
  | cons c cs ih =>
    unfold wordBefore
    rw [Bool.or_eq_true, ih]
    constructor
    · rintro (h | ⟨front, rest, rfl, hrest⟩)
      · split at h
        · rename_i rest hfront
          exact ⟨[], rest, (List.isPrefixOf?_eq_some_iff_append_eq.1 hfront).symm, h⟩
        · cases h
      · exact ⟨c :: front, rest, rfl, hrest⟩
    · rintro ⟨front, rest, heq, hrest⟩
      cases front with
      | nil =>
        rw [List.nil_append] at heq
        rw [List.isPrefixOf?_eq_some_iff_append_eq.2 heq.symm]
        exact .inl hrest
      | cons d front =>
        obtain ⟨rfl, rfl⟩ := List.cons.inj heq
        exact .inr ⟨front, rest, rfl, hrest⟩

theorem head?_trimStart_eq_iff {c : Char} (hc : isBlank c = false) {cs : List Char} :
    (trimStart cs).head? = some c ↔
      ∃ blanks back, cs = blanks ++ c :: back ∧ ∀ d ∈ blanks, isBlank d = true := by
  constructor
  · intro h
    obtain ⟨back, hback⟩ := List.head?_eq_some_iff.1 h
    refine ⟨cs.takeWhile isBlank, back, ?_, fun d ↦ List.mem_takeWhile_imp⟩
    rw [← hback, trimStart, List.takeWhile_append_dropWhile]
  · rintro ⟨blanks, back, rfl, hblanks⟩
    rw [trimStart, List.dropWhile_append_of_pos hblanks, List.dropWhile_cons_of_neg (by simp [hc])]
    rfl

theorem Pattern.occursIn_iff (p : Pattern) (cs : List Char) :
    p.occursIn cs = true ↔ p.Matches cs := by
  cases p with
  | spaced text =>
    refine (wordBefore_iff rfl).trans ?_
    constructor
    · rintro ⟨front, rest, rfl, hrest⟩
      cases rest with
      | nil => cases hrest
      | cons c back => exact ⟨front, c, back, rfl, hrest⟩
    · rintro ⟨front, c, back, rfl, hc⟩
      exact ⟨front, c :: back, rfl, hc⟩
  | word text => exact occurs_iff
  | called text =>
    refine (wordBefore_iff (by decide)).trans ?_
    constructor
    · rintro ⟨front, rest, rfl, hrest⟩
      obtain ⟨blanks, back, rfl, hblanks⟩ :=
        (head?_trimStart_eq_iff (by decide)).1 (of_decide_eq_true hrest)
      exact ⟨front, blanks, back, rfl, hblanks⟩
    · rintro ⟨front, blanks, back, rfl, hblanks⟩
      exact ⟨front, _, rfl,
        decide_eq_true ((head?_trimStart_eq_iff (by decide)).2 ⟨blanks, back, rfl, hblanks⟩)⟩
  | around first second =>
    unfold Pattern.occursIn Pattern.Matches
    dsimp only
    constructor
    · intro h
      split at h
      · rename_i before rest hsplit
        obtain ⟨between, back, rfl⟩ := occurs_iff.1 h
        exact ⟨before, between, back, by rw [eq_append_of_splitOnce hsplit, List.append_assoc]⟩
      · cases h
    · rintro ⟨front, between, back, rfl⟩
      obtain ⟨before, rest, hsplit, hrest⟩ :=
        exists_splitOnce first.toList front (between ++ (second.toList ++ back))
      rw [hsplit]
      refine occurs_iff.2 (List.IsInfix.trans ⟨between, back, ?_⟩ hrest.isInfix)
      rw [List.append_assoc]
  | oneOf chars =>
    unfold Pattern.occursIn Pattern.Matches
    simp only [List.any_eq_true, List.contains_iff_mem]

/-! ### Texts that pass -/

variable {text : String}

/-- A rule rejects a text. -/
def Rejects (rule : Pattern × Forbidden) (text : String) : Prop :=
  rule.1.Matches (text.toList.map foldCase)

theorem forbiddenIn?_eq_none_iff :
    forbiddenIn? text.toList = none ↔ ∀ rule ∈ screenRules, ¬ Rejects rule text := by
  unfold forbiddenIn? Rejects
  rw [Option.map_eq_none_iff, List.find?_eq_none]
  simp only [Pattern.occursIn_iff]

theorem screen_eq_ok_iff :
    screen text = .ok () ↔
      (∀ rule ∈ screenRules, ¬ Rejects rule text) ∧ balanced 0 text.toList = true := by
  rw [← forbiddenIn?_eq_none_iff]
  unfold screen
  cases hforbidden : forbiddenIn? text.toList with
  | some construct => simp
  | none => by_cases hbalanced : balanced 0 text.toList = true <;> simp [hbalanced]

theorem screen_of_ofText? {f : Formula} (h : ofText? text = .ok f) : screen text = .ok () := by
  obtain ⟨⟨⟩, hscreen, -⟩ := bind_eq_ok_iff.1 h
  exact hscreen

theorem ofText?_of_screen {tree : Expr} (hscreen : screen text = .ok ())
    (hparse : parse text = .ok tree) : ofText? text = .ok ⟨trimmed text, tree⟩ := by
  unfold ofText?
  rw [hscreen, ok_bind, hparse]

theorem exists_forbidden_of_rejects {rule : Pattern × Forbidden} (hrule : rule ∈ screenRules)
    (h : Rejects rule text) : ∃ construct, ofText? text = .error (.forbidden construct) := by
  cases hforbidden : forbiddenIn? text.toList with
  | none => exact absurd h (forbiddenIn?_eq_none_iff.1 hforbidden rule hrule)
  | some construct =>
    refine ⟨construct, ?_⟩
    unfold ofText? screen
    rw [hforbidden]
    rfl

end Ventilation.Formula
