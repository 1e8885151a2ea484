import Mathlib.Data.List.Infix
import Mathlib.Data.List.TakeWhile
import Ventilation.Proofs.Text.Character

/-!
# Blanks around a text

`trim` cuts a text into blanks, the trimmed text and blanks again. It takes away what stands around
a text and leaves a text alone that begins and ends with other characters.
-/

set_option autoImplicit false
set_option relaxedAutoImplicit false

namespace Ventilation.Text

variable {cs front back first second : List Char}

def IsBlanks (cs : List Char) : Prop := ∀ c ∈ cs, isBlank c = true

/-- A text that neither begins nor ends with a blank. -/
structure IsTrimmed (cs : List Char) : Prop where
  head : ∀ c ∈ cs.head?, isBlank c = false
  last : ∀ c ∈ cs.getLast?, isBlank c = false

/-! ### The front of a text -/

theorem trimStart_append (hfront : IsBlanks front) (cs : List Char) :
    trimStart (front ++ cs) = trimStart cs :=
  List.dropWhile_append_of_pos hfront

theorem trimStart_of_head (h : ∀ c ∈ cs.head?, isBlank c = false) : trimStart cs = cs := by
  cases cs with
  | nil => rfl
  | cons c cs => exact List.dropWhile_cons_of_neg (by simp [h c rfl])

theorem trimStart_append_of_head (hfront : IsBlanks front)
    (h : ∀ c ∈ cs.head?, isBlank c = false) : trimStart (front ++ cs) = cs := by
  rw [trimStart_append hfront, trimStart_of_head h]

theorem head_of_not_blank {c : Char} (hc : isBlank c = false) (cs : List Char) :
    ∀ d ∈ (c :: cs).head?, isBlank d = false := by
  rintro d ⟨⟩
  exact hc

theorem trimStart_of_isBlanks (h : IsBlanks cs) : trimStart cs = [] := by
  rw [← List.append_nil cs, trimStart_append h]
  rfl

theorem head_trimStart (cs : List Char) : ∀ c ∈ (trimStart cs).head?, isBlank c = false := by
  intro c hc
  have hhead := List.head?_dropWhile_not isBlank cs
  rwa [show (cs.dropWhile isBlank).head? = some c from hc] at hhead

theorem exists_trimStart (cs : List Char) : ∃ front, IsBlanks front ∧ cs = front ++ trimStart cs :=
  ⟨cs.takeWhile isBlank, fun _ ↦ List.mem_takeWhile_imp, List.takeWhile_append_dropWhile.symm⟩

/-! ### The end of a text -/

theorem isBlanks_reverse : IsBlanks cs.reverse ↔ IsBlanks cs :=
  forall_congr' fun _ ↦ imp_congr_left List.mem_reverse

theorem trimEnd_append (hback : IsBlanks back) (cs : List Char) :
    trimEnd (cs ++ back) = trimEnd cs := by
  unfold trimEnd
  rw [List.reverse_append]
  exact congrArg List.reverse (trimStart_append (isBlanks_reverse.2 hback) cs.reverse)

theorem trimEnd_of_last (h : ∀ c ∈ cs.getLast?, isBlank c = false) : trimEnd cs = cs := by
  rw [← List.head?_reverse] at h
  exact (congrArg List.reverse (trimStart_of_head h)).trans (List.reverse_reverse cs)

theorem trimEnd_of_isBlanks (h : IsBlanks cs) : trimEnd cs = [] := by
  rw [← List.nil_append cs, trimEnd_append h]
  rfl

theorem trimEnd_append_of_last (hback : IsBlanks back)
    (h : ∀ c ∈ cs.getLast?, isBlank c = false) : trimEnd (cs ++ back) = cs := by
  rw [trimEnd_append hback, trimEnd_of_last h]

theorem last_trimEnd (cs : List Char) : ∀ c ∈ (trimEnd cs).getLast?, isBlank c = false := by
  unfold trimEnd
  rw [List.getLast?_reverse]
  exact head_trimStart cs.reverse

theorem exists_trimEnd (cs : List Char) : ∃ back, IsBlanks back ∧ cs = trimEnd cs ++ back := by
  obtain ⟨front, hfront, heq⟩ := exists_trimStart cs.reverse
  refine ⟨front.reverse, isBlanks_reverse.2 hfront, ?_⟩
  have hreverse := congrArg List.reverse heq
  rwa [List.reverse_reverse, List.reverse_append] at hreverse

/-! ### Both ends -/

theorem IsTrimmed.nil : IsTrimmed [] := ⟨nofun, nofun⟩

theorem IsTrimmed.of_visible (h : ∀ c ∈ cs, Visible c) : IsTrimmed cs where
  head c hc := isBlank_of_visible (h c (List.mem_of_mem_head? hc))
  last c hc := isBlank_of_visible (h c (List.mem_of_mem_getLast? hc))

theorem IsTrimmed.trim_eq (h : IsTrimmed cs) : trim cs = cs := by
  unfold trim
  rw [trimStart_of_head h.head, trimEnd_of_last h.last]

/-- Blanks around a text are taken away. -/
theorem trim_append (hfront : IsBlanks front) (hback : IsBlanks back) (cs : List Char) :
    trim (front ++ (cs ++ back)) = trim cs := by
  unfold trim
  rw [trimStart_append hfront]
  obtain ⟨blanks, hblanks, heq⟩ := exists_trimStart cs
  cases htrimmed : trimStart cs with
  | nil =>
    rw [htrimmed, List.append_nil] at heq
    rw [heq, trimStart_append hblanks, trimStart_of_isBlanks hback]
  | cons c rest =>
    have hc : isBlank c = false := head_trimStart cs c (by rw [htrimmed]; rfl)
    rw [heq, List.append_assoc, trimStart_append hblanks, htrimmed, List.cons_append,
      trimStart_of_head (head_of_not_blank hc _), ← List.cons_append, trimEnd_append hback]

theorem isTrimmed_trim (cs : List Char) : IsTrimmed (trim cs) := by
  refine ⟨fun c hc ↦ ?_, last_trimEnd (trimStart cs)⟩
  obtain ⟨back, -, heq⟩ := exists_trimEnd (trimStart cs)
  apply head_trimStart cs c
  rw [heq, List.head?_append]
  exact Option.mem_def.2 (Option.or_eq_some_iff.2 (.inl hc))

/-- A text is its trimmed text between blanks. -/
theorem exists_blanks_trim (cs : List Char) :
    ∃ front back, IsBlanks front ∧ IsBlanks back ∧ cs = front ++ (trim cs ++ back) := by
  obtain ⟨front, hfront, hstart⟩ := exists_trimStart cs
  obtain ⟨back, hback, hend⟩ := exists_trimEnd (trimStart cs)
  exact ⟨front, back, hfront, hback, hstart.trans (congrArg (front ++ ·) hend)⟩

theorem isInfix_trim (cs : List Char) : trim cs <:+: cs := by
  obtain ⟨front, back, -, -, heq⟩ := exists_blanks_trim cs
  exact ⟨front, back, by rw [List.append_assoc, ← heq]⟩

theorem trimStart_suffix (cs : List Char) : trimStart cs <:+ cs := by
  obtain ⟨front, -, heq⟩ := exists_trimStart cs
  exact ⟨front, heq.symm⟩

theorem IsTrimmed.append (hfirst : IsTrimmed first) (hsecond : IsTrimmed second) :
    IsTrimmed (first ++ second) where
  head c hc := by
    rw [List.head?_append, Option.mem_def, Option.or_eq_some_iff] at hc
    rcases hc with hc | ⟨-, hc⟩
    · exact hfirst.head c hc
    · exact hsecond.head c hc
  last c hc := by
    rw [List.getLast?_append, Option.mem_def, Option.or_eq_some_iff] at hc
    rcases hc with hc | ⟨-, hc⟩
    · exact hsecond.last c hc
    · exact hfirst.last c hc

/-- A text between two trimmed ones may be of any kind. -/
theorem IsTrimmed.append_append (hfirst : IsTrimmed first) (hne : first ≠ [])
    (hsecond : IsTrimmed second) (hne' : second ≠ []) (cs : List Char) :
    IsTrimmed (first ++ (cs ++ second)) where
  head := by
    rw [List.head?_append_of_ne_nil _ hne]
    exact hfirst.head
  last := by
    rw [← List.append_assoc, List.getLast?_append_of_ne_nil _ hne']
    exact hsecond.last

theorem trim_trimStart (cs : List Char) : trim (trimStart cs) = trim cs := by
  unfold trim
  rw [trimStart_of_head (head_trimStart cs)]

theorem trim_trimEnd (cs : List Char) : trim (trimEnd cs) = trim cs := by
  obtain ⟨back, hback, heq⟩ := exists_trimEnd cs
  have h := trim_append (List.forall_mem_nil _) hback (trimEnd cs)
  rwa [List.nil_append, ← heq, eq_comm] at h

/-- Around a text that is not blank only the outer blanks are taken away. -/
theorem trim_append_append (hcs : IsTrimmed cs) (hne : cs ≠ []) (front back : List Char) :
    trim (front ++ (cs ++ back)) = trimStart front ++ (cs ++ trimEnd back) := by
  obtain ⟨blanks, hblanks, hfront⟩ := exists_trimStart front
  obtain ⟨blanks', hblanks', hback⟩ := exists_trimEnd back
  have hhead : ∀ d ∈ (trimStart front ++ (cs ++ back)).head?, isBlank d = false := by
    rw [List.head?_append, List.head?_append_of_ne_nil _ hne]
    intro d hd
    rcases Option.or_eq_some_iff.1 hd with hd | ⟨-, hd⟩
    · exact head_trimStart front d hd
    · exact hcs.head d hd
  have hlast : ∀ d ∈ (trimStart front ++ cs ++ trimEnd back).getLast?, isBlank d = false := by
    rw [List.getLast?_append, List.getLast?_append_of_ne_nil _ hne]
    intro d hd
    rcases Option.or_eq_some_iff.1 hd with hd | ⟨-, hd⟩
    · exact last_trimEnd back d hd
    · exact hcs.last d hd
  calc trim (front ++ (cs ++ back))
      = trimEnd (trimStart (blanks ++ (trimStart front ++ (cs ++ back)))) := by
        rw [← List.append_assoc blanks, ← hfront]
        rfl
    _ = trimEnd (trimStart front ++ cs ++ trimEnd back ++ blanks') := by
        rw [trimStart_append_of_head hblanks hhead, List.append_assoc _ (trimEnd back), ← hback,
          List.append_assoc]
    _ = trimStart front ++ (cs ++ trimEnd back) := by
        rw [trimEnd_append_of_last hblanks' hlast, List.append_assoc]

/-- The front of a text that begins with no blank begins with none. -/
theorem head_of_append (h : ∀ c ∈ (first ++ second).head?, isBlank c = false) :
    ∀ c ∈ first.head?, isBlank c = false := fun c hc ↦
  h c (by rw [List.head?_append]; exact Option.or_eq_some_iff.2 (.inl hc))

theorem last_of_append (h : ∀ c ∈ (first ++ second).getLast?, isBlank c = false) :
    ∀ c ∈ second.getLast?, isBlank c = false := fun c hc ↦
  h c (by rw [List.getLast?_append]; exact Option.or_eq_some_iff.2 (.inl hc))

end Ventilation.Text
