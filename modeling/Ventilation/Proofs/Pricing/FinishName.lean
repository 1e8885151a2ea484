import Ventilation.Pricing.Chain
import Ventilation.Proofs.Text.Search
import Ventilation.Proofs.Text.Trim

/-!
# Names of finishes

A finish is read again from its own text, `Finish.ofName_text`: what is kept as a colour begins with
no separator and ends with no blank, so that it is cut off in the same place. Every name that holds
the coating stands for the coating, `Finish.exists_ofName_of_occurs`, and no price depends on its
colour.
-/

set_option autoImplicit false
set_option relaxedAutoImplicit false

namespace Ventilation

open Text Binary64

namespace Finish

/-- Blanks around a name do not count. -/
theorem ofName_eq_of_trim_eq {name other : String} (h : trim name.toList = trim other.toList) :
    ofName name = ofName other := by
  unfold ofName
  rw [h]

/-! ### Powder coatings -/

/-- A text that is equal to a known name but for the letter case holds no text of the coating. -/
theorem lowerAscii_ne_of_occurs {cs : List Char} (known : String)
    (hknown : ¬ lowerAscii powderCoatedName.toList <:+: lowerAscii known.toList)
    (h : powderCoatedName.toList <:+: cs) :
    ¬ (lowerAscii cs == lowerAscii known.toList) = true := by
  intro heq
  have hinfix : lowerAscii powderCoatedName.toList <:+: lowerAscii cs := h.map Char.toLower
  rw [beq_iff_eq.1 heq] at hinfix
  exact hknown hinfix

/-- A name that holds the coating stands for it, with what follows as its colour. -/
theorem ofName_of_splitOnce {name : String} {before rest : List Char}
    (h : splitOnce powderCoatedName.toList (trim name.toList) = some (before, rest)) :
    ofName name = .powderCoated (if (trim (rest.dropWhile isSeparator)).isEmpty then Option.none
      else some (String.ofList (trim (rest.dropWhile isSeparator)))) := by
  have hinfix : powderCoatedName.toList <:+: trim name.toList :=
    ⟨before, rest, by rw [eq_append_of_splitOnce h, List.append_assoc]⟩
  unfold ofName
  simp only
  rw [if_neg (lowerAscii_ne_of_occurs noneName (by decide +kernel) hinfix),
    if_neg (lowerAscii_ne_of_occurs anodizedName (by decide +kernel) hinfix), h]

theorem exists_ofName_of_occurs {name : String}
    (h : powderCoatedName.toList <:+: trim name.toList) :
    ∃ color, ofName name = .powderCoated color := by
  obtain ⟨⟨before, rest⟩, hsplit⟩ := Option.isSome_iff_exists.1 (occurs_iff.2 h)
  exact ⟨_, ofName_of_splitOnce hsplit⟩

/-- What is kept of a name as its colour. -/
structure IsColor (cs : List Char) : Prop where
  ne_nil : cs ≠ []
  isTrimmed : IsTrimmed cs
  head : ∀ c ∈ cs.head?, isSeparator c = false

theorem isColor_trim {rest : List Char} (h : trim (rest.dropWhile isSeparator) ≠ []) :
    IsColor (trim (rest.dropWhile isSeparator)) := by
  have hrest : ∀ c ∈ (rest.dropWhile isSeparator).head?, isSeparator c = false := by
    intro c hc
    have hhead := List.head?_dropWhile_not isSeparator rest
    rwa [Option.mem_def.1 hc] at hhead
  refine ⟨h, isTrimmed_trim _, fun c hc ↦ hrest c ?_⟩
  -- nothing is trimmed off the front, where a blank would be a separator
  have hstart : trimStart (rest.dropWhile isSeparator) = rest.dropWhile isSeparator := by
    refine trimStart_of_head fun d hd ↦ ?_
    have hseparator := hrest d hd
    unfold isSeparator at hseparator
    simp only [Bool.or_eq_false_iff] at hseparator
    exact hseparator.1.1
  obtain ⟨back, -, heq⟩ := exists_trimEnd (rest.dropWhile isSeparator)
  unfold trim at hc
  rw [hstart] at hc
  rw [heq, List.head?_append]
  exact Option.mem_def.2 (Option.or_eq_some_iff.2 (.inl hc))

/-- A colour is found again after the name of the coating. -/
theorem ofName_text_of_isColor {color : List Char} (h : IsColor color) :
    ofName (text (.powderCoated (some (String.ofList color)))) =
      .powderCoated (some (String.ofList color)) := by
  have hname : IsTrimmed powderCoatedName.toList := by
    refine ⟨?_, ?_⟩
    · simp [powderCoatedName, isBlank, inRanges]
    · simp [powderCoatedName, isBlank, inRanges]
  have htext : (text (.powderCoated (some (String.ofList color)))).toList =
      powderCoatedName.toList ++ ([' ', '-', ' '] ++ color) := by
    unfold text
    simp only [String.toList_append, String.toList_ofList, List.append_assoc]
    rfl
  have htrim : trim (powderCoatedName.toList ++ ([' ', '-', ' '] ++ color)) =
      powderCoatedName.toList ++ ([' ', '-', ' '] ++ color) :=
    (hname.append_append (by decide) h.isTrimmed h.ne_nil _).trim_eq
  have hsplit : splitOnce powderCoatedName.toList
      (trim (text (.powderCoated (some (String.ofList color)))).toList) =
      some ([], [' ', '-', ' '] ++ color) := by
    rw [htext, htrim]
    exact splitOnce_of_notMem (List.not_mem_nil : _ ∉ []) _
  have hcolor : ([' ', '-', ' '] ++ color).dropWhile isSeparator = color := by
    rw [List.dropWhile_append_of_pos (by simp [isSeparator, isBlank, inRanges])]
    obtain ⟨c, rest, rfl⟩ := List.exists_cons_of_ne_nil h.ne_nil
    exact List.dropWhile_cons_of_neg (by simp [h.head c rfl])
  rw [ofName_of_splitOnce hsplit, hcolor, h.isTrimmed.trim_eq,
    if_neg (by simpa using h.ne_nil)]

/-! ### Round trip -/

/-- Without the coating a name is one of the other known ones, or is kept whole but for the blanks
around it. -/
theorem ofName_of_splitOnce_eq_none {name : String}
    (h : splitOnce powderCoatedName.toList (trim name.toList) = Option.none) :
    ofName name ∈ [.none, .anodized, .specialColor, .other (String.ofList (trim name.toList))] := by
  unfold ofName
  simp only [h]
  split
  · simp
  · split
    · simp
    · split
      · simp
      · simp

/-- A finish is read again from its text. -/
theorem ofName_text (name : String) : ofName (ofName name).text = ofName name := by
  cases hsplit : splitOnce powderCoatedName.toList (trim name.toList) with
  | some parts =>
    obtain ⟨before, rest⟩ := parts
    rw [ofName_of_splitOnce hsplit]
    split
    · decide +kernel
    · rename_i hempty
      exact ofName_text_of_isColor (isColor_trim (by simpa using hempty))
  | none =>
    have hknown := ofName_of_splitOnce_eq_none hsplit
    simp only [List.mem_cons, List.not_mem_nil, or_false] at hknown
    rcases hknown with hname | hname | hname | hname
    · rw [hname]
      decide +kernel
    · rw [hname]
      decide +kernel
    · rw [hname]
      decide +kernel
    · have htext : (ofName name).text = String.ofList (trim name.toList) := by rw [hname]; rfl
      rw [htext]
      refine ofName_eq_of_trim_eq ?_
      rw [String.toList_ofList, (isTrimmed_trim _).trim_eq]

end Finish

/-! ### Prices -/

/-- The colour of a coating is not looked at. -/
theorem ChainInput.run_powderCoated (input : ChainInput) (color other : Option String)
    (tb wd : Option Float) (size : PricedSize) (price? : String → Option Float) :
    { input with finish := some (.powderCoated color) }.run tb wd size price? =
      { input with finish := some (.powderCoated other) }.run tb wd size price? := rfl

/-- A finish is read again from its own text. Names that hold the coating have the multiplier of
that slot, and an item is priced alike under any two of them, whatever stands around the coating or
follows it as a colour. -/
theorem ofName_survives_printing :
    (∀ name, Finish.ofName (Finish.ofName name).text = Finish.ofName name) ∧
    ∀ name other, Finish.powderCoatedName.toList <:+: trim name.toList →
      Finish.powderCoatedName.toList <:+: trim other.toList →
      (∀ p : Product, p.finishMultiplier? (Finish.ofName name) = slotText? p.powderCoatedSlot ∧
        p.finishMultiplier? (Finish.ofName name) = p.finishMultiplier? (Finish.ofName other)) ∧
      ∀ (input : ChainInput) (tb wd : Option Float) (size : PricedSize)
        (price? : String → Option Float),
        { input with finish := some (Finish.ofName name) }.run tb wd size price? =
          { input with finish := some (Finish.ofName other) }.run tb wd size price? := by
  refine ⟨Finish.ofName_text, fun name other hname hother ↦ ?_⟩
  obtain ⟨color, hcolor⟩ := Finish.exists_ofName_of_occurs hname
  obtain ⟨color', hcolor'⟩ := Finish.exists_ofName_of_occurs hother
  rw [hcolor, hcolor']
  exact ⟨fun p ↦ ⟨rfl, rfl⟩, fun input ↦ input.run_powderCoated color color'⟩

/-- A coating within another name and one with a colour, of which the printed name is kept. -/
theorem ofName_survives_printing_colored :
    (Finish.ofName " matt Powder Coated :- RAL 9010").text = "Powder Coated - RAL 9010" ∧
    Finish.ofName "Powder Coated - RAL 9010" = .powderCoated (some "RAL 9010") ∧
    Finish.powderCoatedName.toList <:+: trim " matt Powder Coated :- RAL 9010".toList ∧
    Finish.powderCoatedName.toList <:+: trim "Powder Coated".toList ∧
    ∀ (input : ChainInput) (tb wd : Option Float) (size : PricedSize)
      (price? : String → Option Float),
      { input with finish := some (Finish.ofName " matt Powder Coated :- RAL 9010") }.run
        tb wd size price? =
      { input with finish := some (Finish.ofName "Powder Coated") }.run tb wd size price? := by
  have hname : Finish.powderCoatedName.toList <:+: trim " matt Powder Coated :- RAL 9010".toList :=
    occurs_iff.1 (by decide +kernel)
  have hplain : Finish.powderCoatedName.toList <:+: trim "Powder Coated".toList :=
    occurs_iff.1 (by decide +kernel)
  have htext : (Finish.ofName " matt Powder Coated :- RAL 9010").text =
      "Powder Coated - RAL 9010" := by decide +kernel
  have hread := ofName_survives_printing.1 " matt Powder Coated :- RAL 9010"
  rw [htext] at hread
  refine ⟨htext, hread.trans (by decide +kernel), hname, hplain, ?_⟩
  exact (ofName_survives_printing.2 _ _ hname hplain).2

end Ventilation
