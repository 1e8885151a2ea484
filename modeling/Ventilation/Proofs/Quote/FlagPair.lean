import Mathlib.Data.List.Basic
import Ventilation.Proofs.Text.Character
import Ventilation.Proofs.Text.Trim
import Ventilation.Quote.ProductCode

/-!
# Flags written as a pair

A pair names both flags in any letter case, with a comma between them, blanks around each and
parentheses around the whole, either of which may be missing. `isPair` recognizes these texts and
no others, and `beforeFlags?` finds the longest one that a text ends in. A pair holds an opening
parenthesis only where it begins with one, so that a longer text that ends in such a pair is none.
-/

set_option autoImplicit false
set_option relaxedAutoImplicit false

namespace Ventilation.ProductCode

open Text

variable {word first second cs before rest pair : List Char} {c : Char}

/-! ### Words -/

structure IsWord (word : List Char) : Prop where
  ne_nil : word ≠ []
  isAlpha : ∀ c ∈ word, c.isAlpha = true

theorem isWord_damperWord : IsWord damperWord := ⟨by decide, List.all_eq_true.1 rfl⟩

theorem isWord_screenWord : IsWord screenWord := ⟨by decide, List.all_eq_true.1 rfl⟩

/-- The word in any letter case. -/
def SpellsWord (word cs : List Char) : Prop := cs.map foldCase = word

theorem SpellsWord.isLetter (h : SpellsWord word cs) (hword : IsWord word) (hc : c ∈ cs) :
    isBlank c = false ∧ 65 ≤ c.toNat := by
  have halpha : (foldCase c).isAlpha = true :=
    hword.isAlpha _ (h ▸ List.mem_map_of_mem hc)
  constructor
  · rw [← Bool.not_eq_true]
    intro hblank
    rw [foldCase_of_isBlank hblank] at halpha
    exact Bool.false_ne_true ((isBlank_of_visible (visible_of_isAlpha halpha)).symm.trans hblank)
  · by_contra hlt
    rw [foldCase_of_lt (Nat.lt_of_not_le hlt), isAlpha_iff] at halpha
    omega

theorem SpellsWord.ne_nil (h : SpellsWord word cs) (hword : IsWord word) : cs ≠ [] := by
  rintro rfl
  exact hword.ne_nil h.symm

theorem SpellsWord.length_eq (h : SpellsWord word cs) : word.length = cs.length := by
  rw [← h, List.length_map]

theorem afterWord?_eq_some_iff :
    afterWord? word cs = some rest ↔ ∃ spelled, SpellsWord word spelled ∧ cs = spelled ++ rest := by
  unfold afterWord?
  constructor
  · intro h
    split at h
    · next hspelled =>
      exact ⟨_, hspelled, by rw [← Option.some.inj h, List.take_append_drop]⟩
    · cases h
  · rintro ⟨spelled, hspelled, rfl⟩
    rw [hspelled.length_eq, List.take_left, List.drop_left]
    exact if_pos hspelled

/-! ### Parentheses -/

theorem exists_skip (c : Char) (cs : List Char) :
    ∃ opening, (opening = [] ∨ opening = [c]) ∧ cs = opening ++ skip c cs := by
  cases cs with
  | nil => exact ⟨[], .inl rfl, rfl⟩
  | cons d cs =>
    by_cases hd : d = c
    · exact ⟨[c], .inr rfl, by rw [skip, if_pos hd, hd, List.singleton_append]⟩
    · exact ⟨[], .inl rfl, by rw [skip, if_neg hd, List.nil_append]⟩

theorem skip_self (c : Char) (cs : List Char) : skip c (c :: cs) = cs := if_pos rfl

theorem skip_of_ne (h : ∀ d ∈ cs.head?, d ≠ c) : skip c cs = cs := by
  cases cs with
  | nil => rfl
  | cons d cs => exact if_neg (h d rfl)

/-! ### Pairs -/

/-- A pair of two words. -/
inductive IsPairText (first second : List Char) : List Char → Prop where
  | intro {opening closing one two a b c d : List Char} :
      opening = [] ∨ opening = ['('] → closing = [] ∨ closing = [')'] →
      IsBlanks a → IsBlanks b → IsBlanks c → IsBlanks d →
      SpellsWord first one → SpellsWord second two →
      IsPairText first second
        (opening ++ (a ++ (one ++ (b ++ (',' :: (c ++ (two ++ (d ++ closing))))))))

theorem isPairText_of_isPair (h : isPair first second cs = true) :
    IsPairText first second cs := by
  obtain ⟨opening, hopening, hcs⟩ := exists_skip '(' cs
  obtain ⟨a, ha, hstart⟩ := exists_trimStart (skip '(' cs)
  unfold isPair at h
  split at h
  · cases h
  next afterFirst hfirst =>
  obtain ⟨one, hone, hfirst⟩ := afterWord?_eq_some_iff.1 hfirst
  obtain ⟨b, hb, hbetween⟩ := exists_trimStart afterFirst
  split at h
  swap
  · cases h
  next afterComma hcomma =>
  obtain ⟨c, hc, hsecond⟩ := exists_trimStart afterComma
  split at h
  · cases h
  next afterSecond hword =>
  obtain ⟨two, htwo, hword⟩ := afterWord?_eq_some_iff.1 hword
  obtain ⟨d, hd, hlast⟩ := exists_trimStart afterSecond
  obtain ⟨closing, hclosing, hend⟩ := exists_skip ')' (trimStart afterSecond)
  rw [List.isEmpty_iff.1 h, List.append_nil] at hend
  rw [hcs, hstart, hfirst, hbetween, hcomma, hsecond, hword, hlast, hend]
  exact .intro hopening (hend ▸ hclosing) ha hb hc hd hone htwo

theorem SpellsWord.head (h : SpellsWord word cs) (hword : IsWord word) (rest : List Char) :
    ∀ c ∈ (cs ++ rest).head?, isBlank c = false ∧ 65 ≤ c.toNat := by
  obtain ⟨d, cs, rfl⟩ := List.exists_cons_of_ne_nil (h.ne_nil hword)
  rintro c ⟨⟩
  exact h.isLetter hword List.mem_cons_self

theorem isPair_of_isPairText (hfirst : IsWord first) (hsecond : IsWord second)
    (h : IsPairText first second cs) : isPair first second cs = true := by
  obtain ⟨hopening, hclosing, ha, hb, hc, hd, hone, htwo⟩ := h
  next opening closing one two a b c d =>
  have hskip (rest : List Char) :
      skip '(' (opening ++ (a ++ (one ++ rest))) = a ++ (one ++ rest) := by
    rcases hopening with rfl | rfl
    · refine skip_of_ne fun e he ↦ ?_
      cases a with
      | nil =>
        rintro rfl
        exact absurd (hone.head hfirst rest '(' he).2 (by decide)
      | cons e' a =>
        rintro rfl
        exact Bool.false_ne_true (ha '(' (by rw [← Option.some.inj he]; exact List.mem_cons_self))
    · exact skip_self '(' _
  have hclose : skip ')' (trimStart (d ++ closing)) = [] := by
    rcases hclosing with rfl | rfl
    · rw [List.append_nil, trimStart_of_isBlanks hd]
      rfl
    · rw [trimStart_append_of_head hd (head_of_not_blank rfl []), skip_self]
  unfold isPair
  rw [hskip, trimStart_append_of_head ha fun e he ↦ (hone.head hfirst _ e he).1,
    afterWord?_eq_some_iff.2 ⟨one, hone, rfl⟩]
  simp only
  rw [trimStart_append_of_head hb (head_of_not_blank rfl _)]
  simp only
  rw [trimStart_append_of_head hc fun e he ↦ (htwo.head hsecond _ e he).1,
    afterWord?_eq_some_iff.2 ⟨two, htwo, rfl⟩]
  simp only
  rw [hclose]
  rfl

theorem isPair_iff (hfirst : IsWord first) (hsecond : IsWord second) :
    isPair first second cs = true ↔ IsPairText first second cs :=
  ⟨isPairText_of_isPair, isPair_of_isPairText hfirst hsecond⟩

/-! ### The characters of a pair -/

theorem not_mem_blanks (hc : isBlank c = false) (h : IsBlanks cs) : c ∉ cs := fun hmem ↦
  Bool.false_ne_true (hc.symm.trans (h c hmem))

theorem SpellsWord.not_mem (h : SpellsWord word cs) (hword : IsWord word) (hc : c.toNat < 65) :
    c ∉ cs := fun hmem ↦
  absurd (h.isLetter hword hmem).2 (Nat.not_le_of_lt hc)

/-- A character that is no part of a pair, the opening parenthesis set aside. -/
structure IsForeign (c : Char) : Prop where
  isBlank : isBlank c = false
  lt : c.toNat < 65
  ne_comma : c ≠ ','
  ne_closing : c ≠ ')'

theorem isForeign_opening : IsForeign '(' := ⟨rfl, by decide, by decide, by decide⟩

theorem isForeign_dot : IsForeign '.' := ⟨rfl, by decide, by decide, by decide⟩

/-- A foreign character can only stand at the front of a pair, as its opening parenthesis. -/
theorem IsPairText.not_mem (h : IsPairText first second cs) (hfirst : IsWord first)
    (hsecond : IsWord second) (hc : IsForeign c) : c ∉ cs.tail ∧ (c ∈ cs → c = '(') := by
  obtain ⟨hopening, hclosing, ha, hb, hblanks, hd, hone, htwo⟩ := h
  next opening closing one two a b blanks d =>
  have hrest : c ∉ a ++ (one ++ (b ++ (',' :: (blanks ++ (two ++ (d ++ closing)))))) := by
    simp only [List.mem_append, List.mem_cons, not_or]
    refine ⟨not_mem_blanks hc.isBlank ha, hone.not_mem hfirst hc.lt, not_mem_blanks hc.isBlank hb,
      hc.ne_comma, not_mem_blanks hc.isBlank hblanks, htwo.not_mem hsecond hc.lt,
      not_mem_blanks hc.isBlank hd, ?_⟩
    rcases hclosing with rfl | rfl
    · exact List.not_mem_nil
    · simpa using hc.ne_closing
  rcases hopening with rfl | rfl
  · exact ⟨fun hmem ↦ hrest (List.mem_of_mem_tail hmem), fun hmem ↦ absurd hmem hrest⟩
  · exact ⟨hrest, fun hmem ↦ (List.mem_cons.1 hmem).resolve_right hrest⟩

theorem IsPairText.length_lt (h : IsPairText first second cs) :
    first.length + second.length < cs.length := by
  obtain ⟨-, -, -, -, -, -, hone, htwo⟩ := h
  rw [hone.length_eq, htwo.length_eq]
  simp only [List.length_append, List.length_cons]
  omega

/-- There is one comma in a pair, and the second word is all that can be read after it. -/
theorem IsPairText.exists_comma (h : IsPairText first second cs) (hfirst : IsWord first)
    (hsecond : IsWord second) :
    ∃ before after, cs = before ++ ',' :: after ∧ ',' ∉ before ∧ ',' ∉ after ∧
      (after.filter fun c ↦ !isBlank c && c != ')').map foldCase = second := by
  obtain ⟨hopening, hclosing, ha, hb, hblanks, hd, hone, htwo⟩ := h
  next opening closing one two a b blanks d =>
  refine ⟨opening ++ (a ++ (one ++ b)), blanks ++ (two ++ (d ++ closing)),
    by simp only [List.append_assoc], ?_, ?_, ?_⟩
  · simp only [List.mem_append, not_or]
    refine ⟨?_, not_mem_blanks rfl ha, hone.not_mem hfirst (by decide), not_mem_blanks rfl hb⟩
    rcases hopening with rfl | rfl <;> decide
  · simp only [List.mem_append, not_or]
    refine ⟨not_mem_blanks rfl hblanks, htwo.not_mem hsecond (by decide), not_mem_blanks rfl hd, ?_⟩
    rcases hclosing with rfl | rfl <;> decide
  · have hskipped {cs : List Char} (h : IsBlanks cs) :
        (cs.filter fun c ↦ !isBlank c && c != ')') = [] :=
      List.filter_eq_nil_iff.2 fun c hc ↦ by simp [h c hc]
    have hkept : (two.filter fun c ↦ !isBlank c && c != ')') = two := by
      refine List.filter_eq_self.2 fun c hc ↦ ?_
      have hletter := htwo.isLetter hsecond hc
      have hne : c ≠ ')' := by
        rintro rfl
        exact absurd hletter.2 (by decide)
      simp [hletter.1, hne]
    have hclosed : (closing.filter fun c ↦ !isBlank c && c != ')') = [] := by
      rcases hclosing with rfl | rfl <;> rfl
    rw [List.filter_append, List.filter_append, List.filter_append, hskipped hblanks, hkept,
      hskipped hd, hclosed, List.nil_append, List.append_nil, List.append_nil]
    exact htwo

/-- Pairs at the end of one text name the same word last. -/
theorem IsPairText.second_eq {first' second' longer : List Char}
    (h : IsPairText first second cs) (hfirst : IsWord first) (hsecond : IsWord second)
    (h' : IsPairText first' second' longer) (hfirst' : IsWord first') (hsecond' : IsWord second')
    (hsuffix : cs <:+ longer) : second = second' := by
  obtain ⟨before, after, rfl, -, -, hword⟩ := h.exists_comma hfirst hsecond
  obtain ⟨before', after', rfl, hbefore, hafter, hword'⟩ := h'.exists_comma hfirst' hsecond'
  obtain ⟨front, hfront⟩ := hsuffix
  rw [← List.append_assoc, eq_comm, List.append_cons_inj_of_notMem hbefore hafter] at hfront
  rw [← hword, ← hword', hfront.2.2]

/-! ### Pairs at the end of a text -/

theorem beforePair?_eq_none_iff (hfirst : IsWord first) (hsecond : IsWord second) :
    beforePair? first second cs = none ↔ ∀ pair, pair <:+ cs → ¬ IsPairText first second pair := by
  induction cs with
  | nil =>
    refine iff_of_true rfl fun pair hpair h ↦ ?_
    rw [List.suffix_nil.1 hpair] at h
    exact absurd h.length_lt (Nat.not_lt_zero _)
  | cons c cs ih =>
    simp only [List.suffix_cons_iff, forall_eq_or_imp]
    rw [← ih, ← isPair_iff hfirst hsecond, beforePair?]
    split
    · next h => exact iff_of_false nofun fun hnone ↦ hnone.1 h
    · next h => rw [Option.map_eq_none_iff, and_iff_right h]

/-- What is found is the longest pair. -/
theorem exists_pair_of_beforePair? (hfirst : IsWord first) (hsecond : IsWord second)
    (h : beforePair? first second cs = some before) :
    ∃ pair, cs = before ++ pair ∧ IsPairText first second pair ∧
      ∀ later, later <:+ cs → IsPairText first second later → later <:+ pair := by
  induction cs generalizing before with
  | nil => cases h
  | cons c cs ih =>
    unfold beforePair? at h
    split at h
    · next hpair =>
      obtain rfl := Option.some.inj h
      exact ⟨c :: cs, rfl, isPairText_of_isPair hpair, fun later hlater _ ↦ hlater⟩
    · next hpair =>
      obtain ⟨front, hfront, rfl⟩ := Option.map_eq_some_iff.1 h
      obtain ⟨pair, rfl, hpair', hlongest⟩ := ih hfront
      refine ⟨pair, rfl, hpair', fun later hlater hlater' ↦ ?_⟩
      rcases List.suffix_cons_iff.1 hlater with rfl | hsuffix
      · exact absurd (isPair_of_isPairText hfirst hsecond hlater') hpair
      · exact hlongest later hsuffix hlater'

/-! ### Both flags -/

/-- A pair of both flags in either order. -/
def IsFlagPair (cs : List Char) : Prop :=
  IsPairText damperWord screenWord cs ∨ IsPairText screenWord damperWord cs

def EndsInPair (cs : List Char) : Prop := ∃ pair, pair <:+ cs ∧ IsFlagPair pair

theorem IsFlagPair.not_mem (h : IsFlagPair cs) (hc : IsForeign c) :
    c ∉ cs.tail ∧ (c ∈ cs → c = '(') :=
  h.elim (fun h ↦ h.not_mem isWord_damperWord isWord_screenWord hc)
    fun h ↦ h.not_mem isWord_screenWord isWord_damperWord hc

theorem IsFlagPair.length_lt (h : IsFlagPair cs) : 5 < cs.length :=
  h.elim IsPairText.length_lt IsPairText.length_lt

theorem beforeFlags?_eq_none_iff : beforeFlags? cs = none ↔ ¬ EndsInPair cs := by
  unfold beforeFlags?
  rw [Option.or_eq_none_iff, beforePair?_eq_none_iff isWord_damperWord isWord_screenWord,
    beforePair?_eq_none_iff isWord_screenWord isWord_damperWord]
  constructor
  · rintro ⟨hdamper, hscreen⟩ ⟨pair, hsuffix, h | h⟩
    · exact hdamper pair hsuffix h
    · exact hscreen pair hsuffix h
  · intro h
    exact ⟨fun pair hsuffix hpair ↦ h ⟨pair, hsuffix, .inl hpair⟩,
      fun pair hsuffix hpair ↦ h ⟨pair, hsuffix, .inr hpair⟩⟩

theorem exists_pair_of_beforeFlags? (h : beforeFlags? cs = some before) :
    ∃ pair, cs = before ++ pair ∧ IsFlagPair pair := by
  rcases Option.or_eq_some_iff.1 h with h | ⟨-, h⟩
  · obtain ⟨pair, hcs, hpair, -⟩ :=
      exists_pair_of_beforePair? isWord_damperWord isWord_screenWord h
    exact ⟨pair, hcs, .inl hpair⟩
  · obtain ⟨pair, hcs, hpair, -⟩ :=
      exists_pair_of_beforePair? isWord_screenWord isWord_damperWord h
    exact ⟨pair, hcs, .inr hpair⟩

/-- A pair that begins with its parenthesis is found as it stands. -/
theorem beforePair?_append (hfirst : IsWord first) (hsecond : IsWord second) {inner : List Char}
    (h : IsPairText first second ('(' :: inner)) (before : List Char) :
    beforePair? first second (before ++ '(' :: inner) = some before := by
  have hsuffix : '(' :: inner <:+ before ++ '(' :: inner := List.suffix_append _ _
  cases hfound : beforePair? first second (before ++ '(' :: inner) with
  | none => exact absurd h ((beforePair?_eq_none_iff hfirst hsecond).1 hfound _ hsuffix)
  | some front =>
    obtain ⟨pair, heq, hpair, hlongest⟩ := exists_pair_of_beforePair? hfirst hsecond hfound
    obtain ⟨further, rfl⟩ := hlongest _ hsuffix h
    cases further with
    | nil => rw [List.append_cancel_right heq]
    | cons c further =>
      exact absurd (List.mem_append_right further List.mem_cons_self)
        (hpair.not_mem hfirst hsecond isForeign_opening).1

/-- A text does not end in a pair of each order. -/
theorem beforePair?_swap (hfirst : IsWord first) (hsecond : IsWord second) (hne : first ≠ second)
    (h : IsPairText first second pair) (hsuffix : pair <:+ cs) :
    beforePair? second first cs = none := by
  rw [beforePair?_eq_none_iff hsecond hfirst]
  intro swapped hswapped h'
  rcases List.suffix_or_suffix_of_suffix hsuffix hswapped with hle | hle
  · exact hne.symm (h.second_eq hfirst hsecond h' hsecond hfirst hle)
  · exact hne (h'.second_eq hsecond hfirst h hfirst hsecond hle)

theorem beforeFlags?_append {inner : List Char} (h : IsFlagPair ('(' :: inner))
    (before : List Char) : beforeFlags? (before ++ '(' :: inner) = some before := by
  unfold beforeFlags?
  rcases h with h | h
  · rw [beforePair?_append isWord_damperWord isWord_screenWord h, Option.some_or]
  · rw [beforePair?_swap isWord_screenWord isWord_damperWord (by decide) h
        (List.suffix_append before _),
      beforePair?_append isWord_screenWord isWord_damperWord h, Option.none_or]

/-- A text ends in no pair if it ends in a parenthesis of its own that is shorter than any pair. -/
theorem not_endsInPair_append {flag : List Char} (h : '(' ∈ flag) (hlength : flag.length ≤ 5)
    (cs : List Char) : ¬ EndsInPair (cs ++ flag) := by
  rintro ⟨pair, hsuffix, hpair⟩
  have hlong := hpair.length_lt
  rcases List.suffix_or_suffix_of_suffix hsuffix (List.suffix_append cs flag) with
    hle | ⟨front, rfl⟩
  · have := hle.length_le
    omega
  · cases front with
    | nil =>
      rw [List.nil_append] at hlong
      omega
    | cons c front =>
      exact (hpair.not_mem isForeign_opening).1 (List.mem_append_right front h)

/-- No pair reaches over a dot. -/
theorem IsFlagPair.suffix_of_append (hpair : IsFlagPair pair) (h : pair <:+ before ++ '.' :: cs) :
    pair <:+ cs := by
  have hdot : '.' ∉ pair := fun hmem ↦ absurd ((hpair.not_mem isForeign_dot).2 hmem) (by decide)
  rcases List.suffix_or_suffix_of_suffix h (List.suffix_append before ('.' :: cs)) with
    hle | ⟨front, rfl⟩
  · rcases List.suffix_cons_iff.1 hle with rfl | hle
    · exact absurd List.mem_cons_self hdot
    · exact hle
  · exact absurd (List.mem_append_right front List.mem_cons_self) hdot

theorem EndsInPair.of_append (h : EndsInPair (before ++ '.' :: cs)) : EndsInPair cs := by
  obtain ⟨pair, hsuffix, hpair⟩ := h
  exact ⟨pair, hpair.suffix_of_append hsuffix, hpair⟩

end Ventilation.ProductCode
