import Mathlib.Data.List.Infix
import Mathlib.Data.Nat.Notation
import Ventilation.Text.Search

/-!
# Searching a text

`splitOnce` finds the first place of a mark: it fails only where the mark stands nowhere, and what
follows the mark at any place stands in the part that is left. A mark whose first character does not
return in it cannot overlap itself. Then `splitOnce` stops at the first mark after a text without
one, and `removeAll` goes through a text part by part.
-/

set_option autoImplicit false
set_option relaxedAutoImplicit false

namespace Ventilation.Text

variable {mark part cs before rest : List Char}

theorem eq_append_of_splitOnce (h : splitOnce mark cs = some (before, rest)) :
    cs = before ++ (mark ++ rest) := by
  induction cs generalizing before rest with
  | nil =>
    unfold splitOnce at h
    split at h
    · rename_i hmark
      cases h
      rw [List.isEmpty_iff.1 hmark]
      rfl
    · cases h
  | cons c cs ih =>
    unfold splitOnce at h
    split at h
    · rename_i hfront
      cases h
      exact (List.isPrefixOf?_eq_some_iff_append_eq.1 hfront).symm
    · obtain ⟨⟨front, back⟩, hsplit, heq⟩ := Option.map_eq_some_iff.1 h
      cases heq
      exact congrArg (c :: ·) (ih hsplit)

theorem exists_splitOnce (mark front back : List Char) :
    ∃ before rest, splitOnce mark (front ++ (mark ++ back)) = some (before, rest) ∧
      back <:+ rest := by
  induction front with
  | nil =>
    rw [List.nil_append]
    cases htext : mark ++ back with
    | nil =>
      obtain ⟨rfl, rfl⟩ := List.append_eq_nil_iff.1 htext
      exact ⟨[], [], rfl, List.suffix_rfl⟩
    | cons c cs =>
      refine ⟨[], back, ?_, List.suffix_rfl⟩
      unfold splitOnce
      rw [List.isPrefixOf?_eq_some_iff_append_eq.2 htext]
  | cons c front ih =>
    obtain ⟨before, rest, hsplit, hback⟩ := ih
    rw [List.cons_append]
    cases hfront : mark.isPrefixOf? (c :: (front ++ (mark ++ back))) with
    | none =>
      refine ⟨c :: before, rest, ?_, hback⟩
      unfold splitOnce
      rw [hfront]
      simp only [hsplit, Option.map_some]
    | some later =>
      -- an earlier place of the mark, after which more is left
      have heq := List.isPrefixOf?_eq_some_iff_append_eq.1 hfront
      have hlater : later <:+ c :: (front ++ (mark ++ back)) := ⟨mark, heq⟩
      have hsuffix : back <:+ c :: (front ++ (mark ++ back)) := ⟨c :: (front ++ mark), by simp⟩
      have hlength := congrArg List.length heq
      simp only [List.length_append, List.length_cons] at hlength
      refine ⟨[], later, ?_, List.suffix_of_suffix_length_le hsuffix hlater (by omega)⟩
      unfold splitOnce
      rw [hfront]

theorem occurs_iff : occurs part cs = true ↔ part <:+: cs := by
  unfold occurs
  rw [Option.isSome_iff_exists]
  constructor
  · rintro ⟨⟨before, rest⟩, hsplit⟩
    exact ⟨before, rest, by rw [eq_append_of_splitOnce hsplit, List.append_assoc]⟩
  · rintro ⟨front, back, rfl⟩
    obtain ⟨before, rest, hsplit, -⟩ := exists_splitOnce part front back
    exact ⟨_, by rw [List.append_assoc, hsplit]⟩

theorem splitOnce_eq_none_iff : splitOnce mark cs = none ↔ ¬ mark <:+: cs := by
  rw [← occurs_iff, occurs, Option.not_isSome_iff_eq_none]

/-- No mark stands before the first one. -/
theorem not_infix_of_splitOnce (hne : mark ≠ []) (h : splitOnce mark cs = some (before, rest)) :
    ¬ mark <:+: before := by
  rintro ⟨front, back, rfl⟩
  have hcs := eq_append_of_splitOnce h
  obtain ⟨before', rest', hsplit, hback⟩ := exists_splitOnce mark front (back ++ (mark ++ rest))
  rw [List.append_assoc, List.append_assoc] at hcs
  rw [← hcs, h] at hsplit
  obtain rfl : rest = rest' := congrArg Prod.snd (Option.some.inj hsplit)
  have hlength := hback.length_le
  have hpos := List.length_pos_of_ne_nil hne
  rw [List.length_append, List.length_append] at hlength
  omega

/-! ### Texts apart -/

/-- The text does not go on with a character from within the mark, so that no place of the mark
reaches into it. -/
def Apart (mark cs : List Char) : Prop := ∀ c ∈ cs.head?, c ∉ mark.tail

theorem Apart.of_head {c : Char} (h : c ∉ mark.tail) (cs : List Char) : Apart mark (c :: cs) := by
  rintro d ⟨⟩
  exact h

theorem Apart.nil (mark : List Char) : Apart mark [] := nofun

theorem infix_append_iff (h : Apart mark rest) :
    mark <:+: before ++ rest ↔ mark <:+: before ∨ mark <:+: rest := by
  rw [List.infix_append_iff, ← or_assoc, or_iff_left_iff_imp]
  rintro ⟨front, back, rfl, hfront, hback⟩
  cases back with
  | nil =>
    rw [List.append_nil]
    exact .inl hfront.isInfix
  | cons c back =>
    cases front with
    | nil => exact .inr hback.isInfix
    | cons d front =>
      obtain ⟨later, rfl⟩ := hback
      exact absurd (List.mem_append_right front List.mem_cons_self) (h c rfl)

/-- A mark does not begin in a text without its first character. -/
theorem infix_append_iff_of_notMem {c : Char} (h : c ∉ before) :
    c :: part <:+: before ++ rest ↔ c :: part <:+: rest := by
  induction before with
  | nil => rfl
  | cons d before ih =>
    rw [List.mem_cons, not_or] at h
    rw [List.cons_append, List.infix_cons_iff, ih h.2, or_iff_right_iff_imp]
    exact fun hprefix ↦ absurd (List.cons_prefix_cons.1 hprefix).1 h.1

theorem prefix_append_iff {c : Char} (h : Apart mark rest) :
    mark <+: c :: before ++ rest ↔ mark <+: c :: before := by
  refine ⟨fun hprefix ↦ ?_, fun hprefix ↦ hprefix.trans (List.prefix_append _ _)⟩
  rcases List.prefix_or_prefix_of_prefix hprefix (List.prefix_append (c :: before) rest) with
    hprefix' | ⟨back, rfl⟩
  · exact hprefix'
  · cases back with
    | nil => rw [List.append_nil]
    | cons d back =>
      obtain ⟨later, hlater⟩ := (List.prefix_append_right_inj _).1 hprefix
      rw [← hlater] at h
      exact absurd (List.mem_append_right before List.mem_cons_self) (h d rfl)

/-- A text is split at a mark whose first character stands nowhere before it. -/
theorem splitOnce_of_notMem {c : Char} (h : c ∉ before) (rest : List Char) :
    splitOnce (c :: part) (before ++ (c :: part ++ rest)) = some (before, rest) := by
  induction before with
  | nil =>
    rw [List.nil_append, List.cons_append]
    unfold splitOnce
    rw [List.isPrefixOf?_eq_some_iff_append_eq.2 (List.cons_append ..)]
  | cons d before ih =>
    rw [List.mem_cons, not_or] at h
    have hfront : (c :: part).isPrefixOf? (d :: (before ++ (c :: part ++ rest))) = none := by
      unfold List.isPrefixOf?
      rw [if_neg (by simpa using h.1)]
    rw [List.cons_append]
    unfold splitOnce
    rw [hfront]
    simp only [ih h.2, Option.map_some]

theorem splitOnce_append (hne : mark ≠ []) (hself : Apart mark mark) (h : ¬ mark <:+: before)
    (rest : List Char) : splitOnce mark (before ++ (mark ++ rest)) = some (before, rest) := by
  obtain ⟨c, tail, rfl⟩ := List.exists_cons_of_ne_nil hne
  induction before with
  | nil =>
    rw [List.nil_append, List.cons_append]
    unfold splitOnce
    rw [List.isPrefixOf?_eq_some_iff_append_eq.2 (List.cons_append ..)]
  | cons d before ih =>
    rw [List.infix_cons_iff, not_or] at h
    have hnone : (c :: tail).isPrefixOf? (d :: (before ++ (c :: tail ++ rest))) = none := by
      rw [Option.eq_none_iff_forall_ne_some]
      intro later hlater
      have hprefix : c :: tail <+: d :: before ++ (c :: tail ++ rest) :=
        ⟨later, List.isPrefixOf?_eq_some_iff_append_eq.1 hlater⟩
      exact h.1 ((prefix_append_iff (Apart.of_head (hself c rfl) _)).1 hprefix)
    rw [List.cons_append]
    unfold splitOnce
    rw [hnone]
    simp only [ih h.2, Option.map_some]

/-! ### Texts without a mark -/

theorem removeAllAfter_append {pending : ℕ} (h : Apart mark rest) (hpending : pending ≤ cs.length) :
    removeAllAfter mark pending (cs ++ rest) =
      removeAllAfter mark pending cs ++ removeAllAfter mark 0 rest := by
  induction cs generalizing pending with
  | nil =>
    obtain rfl := Nat.le_zero.1 hpending
    rfl
  | cons c cs ih =>
    cases pending with
    | succ pending => exact ih (Nat.le_of_succ_le_succ hpending)
    | zero =>
      rw [List.cons_append, removeAllAfter, removeAllAfter]
      by_cases hfront : mark <+: c :: cs
      · have hwhole : mark <+: c :: (cs ++ rest) := (prefix_append_iff h).2 hfront
        have hlength := hfront.length_le
        rw [if_pos (List.isPrefixOf_iff_prefix.2 hwhole),
          if_pos (List.isPrefixOf_iff_prefix.2 hfront)]
        exact ih (by rw [List.length_cons] at hlength; omega)
      · have hwhole : ¬ mark <+: c :: (cs ++ rest) := mt (prefix_append_iff h).1 hfront
        rw [if_neg (mt List.isPrefixOf_iff_prefix.1 hwhole),
          if_neg (mt List.isPrefixOf_iff_prefix.1 hfront), ih (Nat.zero_le _), List.cons_append]

theorem removeAll_append (h : Apart mark rest) (cs : List Char) :
    removeAll mark (cs ++ rest) = removeAll mark cs ++ removeAll mark rest :=
  removeAllAfter_append h (Nat.zero_le _)

/-- The characters of a mark are passed over. -/
theorem removeAllAfter_length_append (mark cs rest : List Char) :
    removeAllAfter mark cs.length (cs ++ rest) = removeAll mark rest := by
  induction cs with
  | nil => rfl
  | cons c cs ih => exact ih

theorem removeAll_self (mark : List Char) : removeAll mark mark = [] := by
  cases mark with
  | nil => rfl
  | cons c tail =>
    unfold removeAll removeAllAfter
    rw [if_pos (List.isPrefixOf_iff_prefix.2 List.prefix_rfl)]
    have hskip := removeAllAfter_length_append (c :: tail) tail []
    rwa [List.append_nil] at hskip

theorem removeAll_of_not_infix (h : ¬ mark <:+: cs) : removeAll mark cs = cs := by
  unfold removeAll
  induction cs with
  | nil => rfl
  | cons c cs ih =>
    rw [List.infix_cons_iff, not_or] at h
    rw [removeAllAfter, if_neg (mt List.isPrefixOf_iff_prefix.1 h.1), ih h.2]

theorem length_removeAllAfter_le (mark : List Char) (pending : ℕ) (cs : List Char) :
    (removeAllAfter mark pending cs).length ≤ cs.length := by
  induction cs generalizing pending with
  | nil => exact Nat.zero_le _
  | cons c cs ih =>
    cases pending with
    | succ pending => exact (ih pending).trans (Nat.le_succ _)
    | zero =>
      rw [removeAllAfter]
      split
      · exact (ih _).trans (Nat.le_succ _)
      · exact Nat.succ_le_succ (ih 0)

theorem length_removeAll_le (mark cs : List Char) : (removeAll mark cs).length ≤ cs.length :=
  length_removeAllAfter_le mark 0 cs

/-- Taking out a mark makes a text shorter by that mark at least. -/
theorem length_removeAll_add_le (hne : mark ≠ []) (hself : Apart mark mark) (h : mark <:+: cs) :
    (removeAll mark cs).length + mark.length ≤ cs.length := by
  obtain ⟨front, back, rfl⟩ := h
  obtain ⟨c, tail, rfl⟩ := List.exists_cons_of_ne_nil hne
  have hapart : Apart (c :: tail) (c :: tail ++ back) := Apart.of_head (hself c rfl) _
  have hprefix : c :: tail <+: c :: (tail ++ back) := List.prefix_append (c :: tail) back
  have hfront := length_removeAll_le (c :: tail) front
  have hback : (removeAll (c :: tail) (c :: tail ++ back)).length ≤ back.length := by
    have hskip : removeAllAfter (c :: tail) tail.length (tail ++ back) =
        removeAll (c :: tail) back := removeAllAfter_length_append _ tail back
    rw [List.cons_append, removeAll, removeAllAfter, if_pos (List.isPrefixOf_iff_prefix.2 hprefix)]
    exact hskip ▸ length_removeAll_le _ back
  rw [List.append_assoc, removeAll_append hapart, List.length_append, List.length_append,
    List.length_append]
  omega

end Ventilation.Text
