import Ventilation.Proofs.Measure.LengthText
import Ventilation.Proofs.Quote.Turned

/-!
# The size that a quote line shows

A line shows the size as it was ordered, in the units of the caller. The lengths that are read from
it are those that were ordered, turned if the height was the larger side of a rectangle.
-/

set_option autoImplicit false
set_option relaxedAutoImplicit false

namespace Ventilation

open Text Binary64

/-- The two sides of a size, each read as a length. -/
def shownSides? (size : String) (defaultUnit : LengthUnit) :
    Option (Except MeasureError Length × Except MeasureError Length) :=
  (splitOnce [' ', 'x', ' '] size.toList).map fun (first, second) =>
    (Length.ofText? (String.ofList first) defaultUnit,
      Length.ofText? (String.ofList second) defaultUnit)

theorem Length.space_notMem_text {l : Length} (h : IsUnsigned l.value) : ' ' ∉ l.text.toList := by
  have hspace : ¬ Visible ' ' := by decide
  have htext : l.text.toList = textChars plain l.value ++ l.unit.suffix.toList := by
    unfold Length.text display Binary64.text
    rw [String.toList_append, String.toList_ofList]
  rw [htext, List.mem_append, not_or]
  refine ⟨fun hmem ↦ ?_, fun hmem ↦ hspace (LengthUnit.visible_of_mem_suffix l.unit _ hmem)⟩
  exact absurd (range_of_mem_isPlainNumeral (isPlainNumeral_textChars h) _ hmem).1 (by decide)

/-- The sides of a size are read back. -/
theorem shownSides?_sidesText {first second : Length} (hfirst : IsUnsigned first.value)
    (hsecond : IsUnsigned second.value) (defaultUnit : LengthUnit) :
    shownSides? (Engine.sidesText first second) defaultUnit = some (.ok first, .ok second) := by
  have htext : (Engine.sidesText first second).toList =
      first.text.toList ++ ([' ', 'x', ' '] ++ second.text.toList) := by
    unfold Engine.sidesText
    rw [String.toList_append, String.toList_append, List.append_assoc]
    rfl
  unfold shownSides?
  rw [htext, splitOnce_of_notMem (Length.space_notMem_text hfirst), Option.map_some]
  simp only [String.ofList_toList, Length.ofText?_text hfirst, Length.ofText?_text hsecond]

namespace Engine

variable {e : Engine} {model : String} {r : QuoteRequest} {line : PricedLine}
  {width height : Length}

theorem sides_of_rectangular (h : r.dimensions = .rectangular width height) (model : String) :
    r.sides model = .ok (width, height) := by
  unfold QuoteRequest.sides
  rw [h]

theorem shown_of_quoteRectangular (h : e.quoteRectangular model r = .ok line)
    (hdimensions : r.dimensions = .rectangular width height) :
    line.size = if (canonicalSides width height).2 then sidesText height width
      else sidesText width height := by
  unfold quoteRectangular at h
  rw [sides_of_rectangular hdimensions, ok_bind] at h
  obtain ⟨rounded, -, h⟩ := bind_eq_ok_iff.1 h
  obtain ⟨neutral, -, h⟩ := bind_eq_ok_iff.1 h
  obtain ⟨finished, -, h⟩ := bind_eq_ok_iff.1 h
  obtain ⟨filter, -, h⟩ := bind_eq_ok_iff.1 h
  obtain rfl := Except.ok.inj h
  rfl

theorem shown_of_quotePricePerFoot (h : e.quotePricePerFoot model r = .ok line)
    (hdimensions : r.dimensions = .rectangular width height) :
    line.size = sidesText width height := by
  unfold quotePricePerFoot at h
  rw [sides_of_rectangular hdimensions, ok_bind] at h
  obtain ⟨side, -, h⟩ := bind_eq_ok_iff.1 h
  cases side with
  | none => cases h
  | some side =>
    obtain ⟨neutral, -, h⟩ := bind_eq_ok_iff.1 h
    obtain ⟨finished, -, h⟩ := bind_eq_ok_iff.1 h
    obtain ⟨filter, -, h⟩ := bind_eq_ok_iff.1 h
    obtain rfl := Except.ok.inj h
    rfl

theorem shown_of_quoteDiameter {size : Length} (h : e.quoteDiameter model r = .ok line)
    (hdimensions : r.dimensions = .diameter size) : line.size = size.text := by
  unfold quoteDiameter at h
  rw [hdimensions] at h
  obtain ⟨rounded, -, h⟩ := bind_eq_ok_iff.1 h
  obtain ⟨neutral, -, h⟩ := bind_eq_ok_iff.1 h
  obtain ⟨finished, -, h⟩ := bind_eq_ok_iff.1 h
  obtain ⟨filter, -, h⟩ := bind_eq_ok_iff.1 h
  obtain rfl := Except.ok.inj h
  rfl

/-- What a line shows is what the line of its shape shows. -/
theorem exists_lineOfShape {item : QuoteItem} {shape : Shape} (h : e.quote r = .ok item)
    (hshape : e.shape (trimmed r.code.model) = .ok shape) :
    ∃ line, e.lineOfShape (trimmed r.code.model) r shape = .ok line ∧ item.size = line.size := by
  obtain ⟨line, hline, hshows⟩ := exists_shows_of_quote h
  exact ⟨line, (priceLine_eq_lineOfShape hshape).symm.trans hline, hshows.size⟩

/-- A finite length without a sign is read back from its text, also with blanks around it and the
sign of its unit in any letter case, whatever the default unit. So are the lengths ordered from the
size that their quote line shows: both sides of a rectangle, turned if the height is the larger one,
those of a linear product and a diameter. -/
theorem lengths_read_back :
    (∀ l : Length, IsUnsigned l.value → ∀ defaultUnit,
      Length.ofText? l.text defaultUnit = .ok l ∧
        ∀ text, l.IsWritten text → Length.ofText? text defaultUnit = .ok l) ∧
    ∀ (e : Engine) (r : QuoteRequest) (item : QuoteItem), e.quote r = .ok item →
      (∀ width height, r.dimensions = .rectangular width height →
        IsUnsigned width.value → IsUnsigned height.value → ∀ defaultUnit,
        (e.shape (trimmed r.code.model) = .ok .rectangular →
          shownSides? item.size defaultUnit = some (if (canonicalSides width height).2
            then (.ok height, .ok width) else (.ok width, .ok height))) ∧
        (e.shape (trimmed r.code.model) = .ok .pricePerFoot →
          shownSides? item.size defaultUnit = some (.ok width, .ok height))) ∧
      ∀ size, r.dimensions = .diameter size → IsUnsigned size.value → ∀ defaultUnit,
        e.shape (trimmed r.code.model) = .ok .diameter →
          Length.ofText? item.size defaultUnit = .ok size := by
  refine ⟨fun l hvalue defaultUnit ↦ ⟨Length.ofText?_text hvalue defaultUnit, fun text htext ↦
    Length.ofText?_of_isWritten htext hvalue defaultUnit⟩, fun e r item hitem ↦ ⟨?_, ?_⟩⟩
  · intro width height hdimensions hwidth hheight defaultUnit
    refine ⟨fun hshape ↦ ?_, fun hshape ↦ ?_⟩
    · obtain ⟨line, hline, hsize⟩ := exists_lineOfShape hitem hshape
      rw [hsize, shown_of_quoteRectangular hline hdimensions]
      split
      · exact shownSides?_sidesText hheight hwidth defaultUnit
      · exact shownSides?_sidesText hwidth hheight defaultUnit
    · obtain ⟨line, hline, hsize⟩ := exists_lineOfShape hitem hshape
      rw [hsize, shown_of_quotePricePerFoot hline hdimensions]
      exact shownSides?_sidesText hwidth hheight defaultUnit
  · intro size hdimensions hvalue defaultUnit hshape
    obtain ⟨line, hline, hsize⟩ := exists_lineOfShape hitem hshape
    rw [hsize, shown_of_quoteDiameter hline hdimensions]
    exact Length.ofText?_text hvalue defaultUnit

/-- A rectangular model with one row of 40 by 40 inches, and a round one with a row of 8 inches. -/
def ducts : Engine where
  catalog := {
    products := some [⟨1, 1, "R", none, none, none, none, none⟩,
      ⟨2, 2, "RD", none, none, none, none, none⟩]
    prices := some [⟨1, 1, some 40, some 40, some 300, none, none⟩,
      ⟨2, 2, some 8, none, some 90, none, none⟩]
    rowMultipliers := some []
    columnMultipliers := some [] }
  options := .standard
  overrides := .empty

def ductRequest (model : String) (dimensions : QuoteDimensions) : QuoteRequest where
  code := ⟨model, false, false, none⟩
  finish := none
  quantity := 1
  discount := Decimal.ofInt 0
  specialColorMultiplier := none
  dimensions := dimensions

/-- 500.5 millimetres by 3 feet are shown turned, as `3ft x 500.5mm`, and a diameter of 15
centimetres as `15cm`. -/
theorem lengths_read_back_ducts :
    (IsUnsigned 500.5 ∧ Length.ofText? "500.5mm" .feet = .ok ⟨500.5, .millimeters⟩ ∧
      (Length.mk 500.5 .millimeters).IsWritten " 500.5Mm\n" ∧
      Length.ofText? " 500.5Mm\n" .feet = .ok ⟨500.5, .millimeters⟩) ∧
    (∃ item, ducts.quote (ductRequest "R" (.rectangular ⟨500.5, .millimeters⟩ ⟨3, .feet⟩)) =
        .ok item ∧ IsUnsigned 3 ∧ ducts.shape (trimmed "R") = .ok .rectangular ∧
      shownSides? item.size .meters = some (.ok ⟨3, .feet⟩, .ok ⟨500.5, .millimeters⟩)) ∧
    ∃ item, ducts.quote (ductRequest "RD" (.diameter ⟨15, .centimeters⟩)) = .ok item ∧
      IsUnsigned 15 ∧ ducts.shape (trimmed "RD") = .ok .diameter ∧
      Length.ofText? item.size .meters = .ok ⟨15, .centimeters⟩ := by
  have hwidth : IsUnsigned 500.5 := ⟨by decide +kernel, by decide +kernel⟩
  have hheight : IsUnsigned 3 := ⟨by decide +kernel, by decide +kernel⟩
  have hsize : IsUnsigned 15 := ⟨by decide +kernel, by decide +kernel⟩
  have hrectangular : ducts.shape (trimmed "R") = .ok .rectangular :=
    eq_ok_of_toOption (by decide +kernel)
  have hround : ducts.shape (trimmed "RD") = .ok .diameter :=
    eq_ok_of_toOption (by decide +kernel)
  have hturned : (canonicalSides ⟨500.5, .millimeters⟩ ⟨3, .feet⟩).2 = true := by decide +kernel
  have htext : (Length.mk 500.5 .millimeters).text = "500.5mm" := by decide +kernel
  have hwritten : (Length.mk 500.5 .millimeters).IsWritten " 500.5Mm\n" := by
    have hblanks : " 500.5Mm\n" =
        String.ofList ([' '] ++ ((display 500.5).toList ++ ['M', 'm'] ++ ['\n'])) := by
      decide +kernel
    rw [hblanks]
    exact .text (by simp [IsBlanks, isBlank, inRanges]) (by simp [IsBlanks, isBlank, inRanges])
      (by decide +kernel)
  obtain ⟨rectangle, hrectangle⟩ : ∃ item, ducts.quote
      (ductRequest "R" (.rectangular ⟨500.5, .millimeters⟩ ⟨3, .feet⟩)) = .ok item :=
    exists_item_of_isSome (by decide +kernel)
  obtain ⟨circle, hcircle⟩ : ∃ item, ducts.quote
      (ductRequest "RD" (.diameter ⟨15, .centimeters⟩)) = .ok item :=
    exists_item_of_isSome (by decide +kernel)
  obtain ⟨hlengths, hlines⟩ := lengths_read_back
  obtain ⟨hread, hall⟩ := hlengths ⟨500.5, .millimeters⟩ hwidth .feet
  have hshown := ((hlines _ _ _ hrectangle).1 _ _ rfl hwidth hheight .meters).1 hrectangular
  rw [if_pos hturned] at hshown
  exact ⟨⟨hwidth, htext ▸ hread, hwritten, hall _ hwritten⟩,
    ⟨rectangle, hrectangle, hheight, hrectangular, hshown⟩,
    circle, hcircle, hsize, hround, (hlines _ _ _ hcircle).2 _ rfl hsize .meters hround⟩

end Engine

end Ventilation
