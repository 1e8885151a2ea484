import Ventilation.Proofs.Formula.Numerals

/-!
# Cursors in a text

A reader that keeps a byte position in its text cuts the text there. A step of it has no outcome if
it cuts within a character or past the end, nor if it does not end. `Goes` says of a step that it
has one, and which characters it moves past. The cursor logs the positions it was moved to and what
was cut from the text for a number, so that a run can be asked for all of them.
-/

set_option autoImplicit false
set_option relaxedAutoImplicit false

namespace Ventilation.Formula

/-! ### Slices -/

/-- The text that a reader moves through. -/
abbrev Source := List Char

/-- The text from a byte on, unless that byte lies within a character or past the end. -/
def sliceFrom? : List Char → ℕ → Option (List Char)
  | cs, 0 => some cs
  | [], _ + 1 => none
  | c :: cs, position + 1 =>
    if c.utf8Size ≤ position + 1 then sliceFrom? cs (position + 1 - c.utf8Size) else none

/-- The text between two bytes, unless one of them lies within a character or past the end. -/
def slice? (text : List Char) (start stop : ℕ) : Option (List Char) := do
  let back ← sliceFrom? text start
  let rest ← sliceFrom? text stop
  if start ≤ stop then some (back.take (back.length - rest.length)) else none

theorem byteCount_append (front back : List Char) :
    byteCount (front ++ back) = byteCount front + byteCount back := by
  induction front with
  | nil => rw [List.nil_append, byteCount, Nat.zero_add]
  | cons c front ih => rw [List.cons_append, byteCount, byteCount, ih, Nat.add_assoc]

theorem byteCount_pos {cs : List Char} (h : cs ≠ []) : 0 < byteCount cs := by
  obtain ⟨c, rest, rfl⟩ := List.exists_cons_of_ne_nil h
  exact Nat.add_pos_left c.utf8Size_pos _

theorem sliceFrom?_cons_add (c : Char) (cs : List Char) (position : ℕ) :
    sliceFrom? (c :: cs) (c.utf8Size + position) = sliceFrom? cs position := by
  obtain ⟨n, hn⟩ : ∃ n, c.utf8Size + position = n + 1 :=
    ⟨c.utf8Size + position - 1, by have := c.utf8Size_pos; omega⟩
  rw [hn, sliceFrom?, if_pos (by omega), ← hn, Nat.add_sub_cancel_left]

theorem sliceFrom?_append (front rest : List Char) :
    sliceFrom? (front ++ rest) (byteCount front) = some rest := by
  induction front with
  | nil => cases rest <;> rfl
  | cons c front ih => rw [List.cons_append, byteCount, sliceFrom?_cons_add, ih]

theorem exists_append_of_sliceFrom? {text rest : List Char} {position : ℕ}
    (h : sliceFrom? text position = some rest) :
    ∃ front, text = front ++ rest ∧ byteCount front = position := by
  induction text generalizing position with
  | nil =>
    cases position with
    | zero => exact ⟨[], Option.some.inj h, rfl⟩
    | succ position => cases h
  | cons c cs ih =>
    cases position with
    | zero => exact ⟨[], Option.some.inj h, rfl⟩
    | succ position =>
      rw [sliceFrom?] at h
      split at h
      · obtain ⟨front, rfl, hfront⟩ := ih h
        refine ⟨c :: front, rfl, ?_⟩
        rw [byteCount, hfront]
        omega
      · cases h

theorem sliceFrom?_eq_some_iff {text rest : List Char} {position : ℕ} :
    sliceFrom? text position = some rest ↔
      ∃ front, text = front ++ rest ∧ byteCount front = position := by
  refine ⟨exists_append_of_sliceFrom?, ?_⟩
  rintro ⟨front, rfl, rfl⟩
  exact sliceFrom?_append front rest

theorem slice?_append (front middle rest : List Char) :
    slice? (front ++ (middle ++ rest)) (byteCount front) (byteCount front + byteCount middle) =
      some middle := by
  have hstop := sliceFrom?_append (front ++ middle) rest
  rw [List.append_assoc, byteCount_append] at hstop
  unfold slice?
  rw [sliceFrom?_append, hstop]
  simp

/-- A byte position lies between two characters, before the first or after the last. -/
def IsBoundary (text : List Char) (position : ℕ) : Prop :=
  ∃ front, front <+: text ∧ byteCount front = position

/-! ### Cursors and steps -/

/-- Where a reader stands in its text, and a log of what it did. -/
structure Cursor where
  position : ℕ
  /-- The token that was scanned last, if it was not the end of the text. -/
  current : Option Token
  /-- How many signed operands are being read, each within the one before. -/
  depth : ℕ
  /-- The positions that were reached. -/
  positions : List ℕ
  /-- How often a token was scanned. -/
  scans : ℕ
  /-- What was cut from the text for a number. -/
  numerals : List (List Char)
  /-- The depths that were reached. -/
  depths : List ℕ

namespace Cursor

def start : Cursor := ⟨0, none, 0, [0], 0, [], [0]⟩

/-- Moved past a character. -/
def past (s : Cursor) (c : Char) : Cursor :=
  { s with
    position := s.position + c.utf8Size
    positions := (s.position + c.utf8Size) :: s.positions }

end Cursor

/-- A step of a reader: it fails, or gives something. It has no outcome if it cuts the text where
that cannot be cut, or does not end. -/
abbrev Step := ExceptT ParseError (StateT Cursor Option)

/-- What was cut from the text, if it can be cut there. -/
def cut {α : Type} (slice : Option α) : Step α := liftM (liftM slice : StateT Cursor Option α)

/-- A step ends with an answer, the cursor at `s'`. -/
def Runs {α : Type} (m : Step α) (s : Cursor) (answer : Except ParseError α) (s' : Cursor) : Prop :=
  m.run.run s = some (answer, s')

namespace Runs

variable {α β : Type} {m : Step α} {f : α → Step β} {s s' s'' : Cursor}

theorem pure (a : α) (s : Cursor) : Runs (pure a) s (.ok a) s := rfl

theorem throw (e : ParseError) (s : Cursor) : Runs (throw e : Step α) s (.error e) s := rfl

theorem get (s : Cursor) : Runs MonadState.get s (.ok s) s := rfl

theorem modify (g : Cursor → Cursor) (s : Cursor) : Runs (modify g) s (.ok ⟨⟩) (g s) := rfl

theorem bind {a : α} {answer : Except ParseError β} (hm : Runs m s (.ok a) s')
    (hf : Runs (f a) s' answer s'') : Runs (m >>= f) s answer s'' := by
  unfold Runs at *
  simp only [ExceptT.run_bind, StateT.run_bind, hm]
  exact hf

theorem bind_error {e : ParseError} (hm : Runs m s (.error e) s') :
    Runs (m >>= f) s (.error e) s' := by
  unfold Runs at *
  simp only [ExceptT.run_bind, StateT.run_bind, hm]
  rfl

theorem cut {slice : Option α} {a : α} (h : slice = some a) (s : Cursor) :
    Runs (cut slice) s (.ok a) s := by
  subst h
  rfl

end Runs

/-! ### Where a cursor stands -/

section

variable {text front rest cs : List Char} {s s' s'' : Cursor} {c : Char}

/-- What stands behind the cursor. -/
def StandsAt (text : List Char) (s : Cursor) (rest : List Char) : Prop :=
  sliceFrom? text s.position = some rest

/-- The cursor has moved past some characters, from one to the next, and perhaps cut numerals. -/
structure Passed (s : Cursor) (front : List Char) (s' : Cursor) : Prop where
  position : s'.position = s.position + byteCount front
  current : s'.current = s.current
  depth : s'.depth = s.depth
  scans : s'.scans = s.scans
  depths : s'.depths = s.depths
  positions : ∀ p ∈ s'.positions, p ∈ s.positions ∨
    ∃ part, part <+: front ∧ p = s.position + byteCount part
  numerals : ∀ numeral ∈ s'.numerals, numeral ∈ s.numerals ∨ IsNumeral numeral

namespace Passed

theorem refl (s : Cursor) : Passed s [] s :=
  ⟨rfl, rfl, rfl, rfl, rfl, fun _ ↦ .inl, fun _ ↦ .inl⟩

theorem past (s : Cursor) (c : Char) : Passed s [c] (s.past c) where
  position := rfl
  current := rfl
  depth := rfl
  scans := rfl
  depths := rfl
  positions p hp := by
    rcases List.mem_cons.1 hp with rfl | hp
    · exact .inr ⟨[c], List.prefix_rfl, rfl⟩
    · exact .inl hp
  numerals _ := .inl

theorem trans {more : List Char} (h : Passed s front s') (h' : Passed s' more s'') :
    Passed s (front ++ more) s'' where
  position := by rw [h'.position, h.position, byteCount_append, Nat.add_assoc]
  current := h'.current.trans h.current
  depth := h'.depth.trans h.depth
  scans := h'.scans.trans h.scans
  depths := h'.depths.trans h.depths
  positions p hp := by
    rcases h'.positions p hp with hp | ⟨part, hpart, rfl⟩
    · refine (h.positions p hp).imp_right ?_
      rintro ⟨part, hpart, rfl⟩
      exact ⟨part, hpart.trans (List.prefix_append _ _), rfl⟩
    · refine .inr ⟨front ++ part, (List.prefix_append_right_inj front).2 hpart, ?_⟩
      rw [h.position, byteCount_append, Nat.add_assoc]
  numerals numeral hnumeral := (h'.numerals numeral hnumeral).elim (h.numerals numeral) .inr

theorem cutNumeral {numeral : List Char} (h : Passed s front s') (hnumeral : IsNumeral numeral) :
    Passed s front { s' with numerals := numeral :: s'.numerals } where
  position := h.position
  current := h.current
  depth := h.depth
  scans := h.scans
  depths := h.depths
  positions := h.positions
  numerals other hother := by
    rcases List.mem_cons.1 hother with rfl | hother
    · exact .inr hnumeral
    · exact h.numerals other hother

theorem standsAt (h : Passed s front s') (hs : StandsAt text s (front ++ rest)) :
    StandsAt text s' rest := by
  obtain ⟨before, rfl, hbefore⟩ := exists_append_of_sliceFrom? hs
  refine sliceFrom?_eq_some_iff.2 ⟨before ++ front, (List.append_assoc _ _ _).symm, ?_⟩
  rw [h.position, byteCount_append, hbefore]

theorem isBoundary (h : Passed s front s') (hs : StandsAt text s (front ++ rest)) {p : ℕ}
    (hp : p ∈ s'.positions) : p ∈ s.positions ∨ IsBoundary text p := by
  refine (h.positions p hp).imp_right ?_
  rintro ⟨part, ⟨more, rfl⟩, rfl⟩
  obtain ⟨before, rfl, hbefore⟩ := exists_append_of_sliceFrom? hs
  exact ⟨before ++ part, ⟨more ++ rest, by simp⟩, by rw [byteCount_append, hbefore]⟩

/-- What lies between two places of the cursor can be cut from the text. -/
theorem slice (h : Passed s front s') (hs : StandsAt text s (front ++ rest)) :
    slice? text s.position s'.position = some front := by
  obtain ⟨before, rfl, hbefore⟩ := exists_append_of_sliceFrom? hs
  rw [h.position, ← hbefore]
  exact slice?_append before front rest

end Passed

/-- From `s` the step ends with an answer, moved past `front`. -/
def Goes {α : Type} (m : Step α) (s : Cursor) (answer : Except ParseError α) (front : List Char) :
    Prop :=
  ∃ s', Runs m s answer s' ∧ Passed s front s'

namespace Goes

variable {α β : Type} {m : Step α} {f : α → Step β} {a : α} {answer : Except ParseError β}

theorem pure (a : α) (s : Cursor) : Goes (pure a) s (.ok a) [] := ⟨s, .pure a s, .refl s⟩

theorem throw (e : ParseError) (s : Cursor) : Goes (throw e : Step α) s (.error e) [] :=
  ⟨s, .throw e s, .refl s⟩

theorem bind {more : List Char} (hm : Goes m s (.ok a) front)
    (hf : ∀ s', Passed s front s' → Goes (f a) s' answer more) :
    Goes (m >>= f) s answer (front ++ more) := by
  obtain ⟨s', hruns, hpassed⟩ := hm
  obtain ⟨s'', hmore, hpassed'⟩ := hf s' hpassed
  exact ⟨s'', hruns.bind hmore, hpassed.trans hpassed'⟩

theorem bind_pure (hm : Goes m s (.ok a) front) (b : β) :
    Goes (m >>= fun _ ↦ Pure.pure b) s (.ok b) front := by
  have h : Goes (m >>= fun _ ↦ Pure.pure b) s (.ok b) (front ++ []) := hm.bind fun s' _ ↦ .pure b s'
  rwa [List.append_nil] at h

/-- A step that only looks goes on with what it saw. -/
theorem look (hm : Runs m s (.ok a) s) (hf : Goes (f a) s answer front) :
    Goes (m >>= f) s answer front := by
  obtain ⟨s', hruns, hpassed⟩ := hf
  exact ⟨s', hm.bind hruns, hpassed⟩

end Goes

theorem exists_standsAt_iff : (∃ rest, StandsAt text s rest) ↔ IsBoundary text s.position := by
  constructor
  · rintro ⟨rest, h⟩
    obtain ⟨front, rfl, hfront⟩ := exists_append_of_sliceFrom? h
    exact ⟨front, List.prefix_append front rest, hfront⟩
  · rintro ⟨front, ⟨rest, rfl⟩, hfront⟩
    exact ⟨rest, sliceFrom?_eq_some_iff.2 ⟨front, rfl, hfront⟩⟩

theorem position_le (h : StandsAt text s rest) : s.position ≤ byteCount text := by
  obtain ⟨front, rfl, hfront⟩ := exists_append_of_sliceFrom? h
  rw [byteCount_append, ← hfront]
  exact Nat.le_add_right _ _

/-- A cursor is at the end of the text if nothing stands behind it. -/
theorem byteCount_le_position_iff (h : StandsAt text s rest) :
    byteCount text ≤ s.position ↔ rest = [] := by
  obtain ⟨front, rfl, hfront⟩ := exists_append_of_sliceFrom? h
  rw [byteCount_append, ← hfront]
  constructor
  · intro hle
    by_contra hne
    have hpos := byteCount_pos hne
    omega
  · rintro rfl
    exact Nat.le_refl _

end

end Ventilation.Formula
