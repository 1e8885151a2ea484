import Mathlib.Data.List.Perm.Basic
import Mathlib.Data.String.Basic
import Ventilation.Text.Search

/-!
# Lists of names

`sortedNames` gives the names of a list in strictly increasing order, whatever their order and
however often they stand there.
-/

set_option autoImplicit false
set_option relaxedAutoImplicit false

namespace Ventilation.Text

variable {a b other : String} {rest : List String}

theorem insertName_of_lt (h : a < other) : insertName a (other :: rest) = a :: other :: rest := by
  rw [insertName, if_pos h]

theorem insertName_self : insertName a (a :: rest) = a :: rest := by
  rw [insertName, if_neg (lt_irrefl a), if_pos rfl]

theorem insertName_of_gt (h : other < a) :
    insertName a (other :: rest) = other :: insertName a rest := by
  rw [insertName, if_neg (not_lt_of_gt h), if_neg (ne_of_gt h)]

/-- Names may be put into a list in any order. -/
theorem insertName_comm (a b : String) (names : List String) :
    insertName a (insertName b names) = insertName b (insertName a names) := by
  induction names with
  | nil =>
    rcases lt_trichotomy a b with h | rfl | h
    · rw [insertName, insertName, insertName_of_lt h, insertName_of_gt h, insertName]
    · rfl
    · rw [insertName, insertName, insertName_of_lt h, insertName_of_gt h, insertName]
  | cons other rest ih =>
    rcases lt_trichotomy a other with ha | rfl | ha
    · rcases lt_trichotomy b other with hb | rfl | hb
      · rw [insertName_of_lt ha, insertName_of_lt hb]
        rcases lt_trichotomy a b with h | rfl | h
        · rw [insertName_of_lt h, insertName_of_gt h, insertName_of_lt hb]
        · rfl
        · rw [insertName_of_lt h, insertName_of_gt h, insertName_of_lt ha]
      · rw [insertName_self, insertName_of_lt ha, insertName_of_gt ha, insertName_self]
      · rw [insertName_of_gt hb, insertName_of_lt ha, insertName_of_lt ha,
          insertName_of_gt (ha.trans hb), insertName_of_gt hb]
    · rcases lt_trichotomy b a with hb | rfl | hb
      · rw [insertName_self, insertName_of_lt hb, insertName_of_gt hb, insertName_self]
      · rfl
      · rw [insertName_self, insertName_of_gt hb, insertName_self]
    · rcases lt_trichotomy b other with hb | rfl | hb
      · rw [insertName_of_gt ha, insertName_of_lt hb, insertName_of_lt hb,
          insertName_of_gt (hb.trans ha), insertName_of_gt ha]
      · rw [insertName_self, insertName_of_gt ha, insertName_self]
      · rw [insertName_of_gt ha, insertName_of_gt hb, insertName_of_gt ha, insertName_of_gt hb, ih]

theorem sortedNames_eq_of_perm {names names' : List String} (h : names.Perm names') :
    sortedNames names = sortedNames names' := by
  have : LeftCommutative insertName := ⟨insertName_comm⟩
  exact h.foldr_eq []

/-! ### Members and order -/

theorem mem_insertName {names : List String} :
    other ∈ insertName a names ↔ other = a ∨ other ∈ names := by
  induction names with
  | nil => simp [insertName]
  | cons name names ih =>
    rcases lt_trichotomy a name with h | rfl | h
    · rw [insertName_of_lt h, List.mem_cons]
    · rw [insertName_self, List.mem_cons, ← or_assoc, or_self]
    · rw [insertName_of_gt h, List.mem_cons, ih, List.mem_cons, or_left_comm]

theorem mem_sortedNames {names : List String} : other ∈ sortedNames names ↔ other ∈ names := by
  induction names with
  | nil => rfl
  | cons name names ih =>
    rw [sortedNames, List.foldr_cons, mem_insertName, List.mem_cons]
    exact or_congr_right ih

theorem pairwise_insertName {names : List String} (h : names.Pairwise (· < ·)) :
    (insertName a names).Pairwise (· < ·) := by
  induction names with
  | nil => exact List.pairwise_singleton _ a
  | cons name names ih =>
    obtain ⟨hname, hnames⟩ := List.pairwise_cons.1 h
    rcases lt_trichotomy a name with ha | rfl | ha
    · rw [insertName_of_lt ha, List.pairwise_cons]
      refine ⟨fun other hother ↦ ?_, h⟩
      rcases List.mem_cons.1 hother with rfl | hother
      · exact ha
      · exact ha.trans (hname other hother)
    · rwa [insertName_self]
    · rw [insertName_of_gt ha, List.pairwise_cons]
      refine ⟨fun other hother ↦ ?_, ih hnames⟩
      rcases mem_insertName.1 hother with rfl | hother
      · exact ha
      · exact hname other hother

theorem pairwise_sortedNames (names : List String) : (sortedNames names).Pairwise (· < ·) := by
  induction names with
  | nil => exact .nil
  | cons name names ih => exact pairwise_insertName ih

end Ventilation.Text
