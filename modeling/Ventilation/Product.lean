import Ventilation.Finish

/-!
Products and their modifier slots. Many models may share one price table. A slot holds a number, a
formula or nothing; a finish with an empty slot is not offered.
-/

set_option autoImplicit false

namespace Ventilation

open Text

structure Product where
  productId : Int
  tableId : Int
  model : String
  tbSlot : Option String
  wdSlot : Option String
  anodizedSlot : Option String
  powderCoatedSlot : Option String
  noFinishSlot : Option String
  deriving DecidableEq, Repr

/-- The trimmed text of a slot; a blank slot holds nothing. -/
def slotText? (slot : Option String) : Option String :=
  (slot.map trimmed).filter fun text => !text.isEmpty

namespace Product

/-- The modifier from table price to base price. -/
def tbModifier? (p : Product) : Option String := slotText? p.tbSlot

/-- The modifier of the price with damper. -/
def wdModifier? (p : Product) : Option String := slotText? p.wdSlot

/-- The stored multiplier of a finish. -/
def finishMultiplier? (p : Product) : Finish → Option String
  | .none => slotText? p.noFinishSlot
  | .anodized => slotText? p.anodizedSlot
  | .powderCoated _ => slotText? p.powderCoatedSlot
  | .specialColor | .other _ => none

/-- The finishes offered, in catalog order; a special colour always is. -/
def availableFinishes (p : Product) : List String :=
  let stored := [.none, .anodized, .powderCoated none].filter fun finish =>
    (p.finishMultiplier? finish).isSome
  stored.map Finish.family ++ [Finish.specialColorName]

/-- Whether the model can be ordered with a damper. -/
def hasDamper (p : Product) : Bool := p.wdModifier?.isSome

end Product

end Ventilation
