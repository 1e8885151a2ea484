import Ventilation.Pricing.Chain
import Ventilation.Pricing.Options

/-!
Dampers operated by hand gear. An item that is higher or wider than a panel is built from equal
panels and priced by them; every item carries the price of its gear cells.
-/

set_option autoImplicit false

namespace Ventilation

namespace HandGearFamily

variable {α : Type} [Scalar α]

/-- Rows and columns of panels that an item is built from. -/
def panels (f : HandGearFamily α) (d : Dimensions α) : α × α :=
  (Scalar.larger (Scalar.ceil (d.height / f.maxHeight)) (Scalar.ofNat 1),
    Scalar.larger (Scalar.ceil (d.width / f.maxWidth)) (Scalar.ofNat 1))

def isOversized (f : HandGearFamily α) (d : Dimensions α) : Bool :=
  f.maxHeight < d.height || f.maxWidth < d.width

/-- The whole-inch size of one panel, within the limits of the family. -/
def panelSize (f : HandGearFamily α) (d : Dimensions α) : Dimensions α where
  width := Scalar.smaller (Scalar.trunc (d.width / (f.panels d).2)) f.maxWidth
  height := Scalar.smaller (Scalar.trunc (d.height / (f.panels d).1)) f.maxHeight

/-- How many gear cells stand along a side, at 25 millimetres to the inch. -/
def cells (f : HandGearFamily α) (inches : α) : α :=
  Scalar.ceil (inches * Scalar.ofNat 25 / f.cellMm)

/-- The price of the gear cells of an item. -/
def surcharge (f : HandGearFamily α) (d : Dimensions α) : α :=
  f.cells d.height * f.cells d.width * f.unitPrice

/-- The price of one panel: at its own size, or else at the largest tabulated size within it. -/
def panelPrice? (f : HandGearFamily α) (catalog : Catalog α) (tableId : Int) (d : Dimensions α) :
    Except CatalogError (Option (TablePrice α)) := do
  let size := f.panelSize d
  match ← catalog.priceAt? tableId size.height size.width with
  | some price => return some price
  | none => return (← catalog.closestPrice? tableId size.height size.width).map ClosestPrice.price

end HandGearFamily

/-- The column an item is sold from, or the other one if it is empty. -/
def TablePrice.eitherBase? {α : Type} (p : TablePrice α) (withDamper : Bool) : Option α :=
  if withDamper then p.wd.or p.tb else p.tb.or p.wd

/-- Prices an item beyond the panel limits from its panels; any other item, and one whose panels
have no price, is left to the table. -/
def HandGearFamily.priceOversized? (f : HandGearFamily Float) (catalog : Catalog Float)
    (product : Product) (d : Dimensions Float) (withDamper : Bool) :
    Except PricingError (Option PriceBreakdown) := do
  if !f.isOversized d then return none
  match ← fromCatalog (f.panelPrice? catalog product.tableId d) with
  | none => return none
  | some panel =>
    match panel.eitherBase? withDamper with
    | none => return none
    | some base => do
      let count := (f.panels d).1 * (f.panels d).2
      let total := panel.scaled count
      let tb := total.tb.getD 0
      let wd := total.wd.getD 0
      let surcharge := f.surcharge d
      let price ← wholePrice (base * count + surcharge)
      return some ⟨tb, wd, tb, wd, surcharge, price⟩

/-- The families of an engine, and for each of their models the place of its family; no model is in
two families. -/
structure OverrideRegistry where
  families : List (HandGearFamily Float)
  places : List (String × Nat)

/-- A call that goes on with the registry, also where it is refused. -/
abbrev Registration := EStateM ConfigError OverrideRegistry

namespace OverrideRegistry

def empty : OverrideRegistry := ⟨[], []⟩

/-- The family of a model. -/
def familyOf? (r : OverrideRegistry) (model : String) : Option (HandGearFamily Float) :=
  (r.places.lookup model).bind fun place => r.families[place]?

def size (r : OverrideRegistry) : Nat := r.families.length

/-- Refuses a model that has a family. -/
def checkFree (model : String) : Registration Unit := do
  if ((← get).places.lookup model).isSome then throw (.duplicateModel model)

/-- Gives a model its place; one that has a place already gets another. -/
def enter (place : Nat) (model : String) : Registration Unit :=
  modify fun r => { r with places := (model, place) :: r.places }

/-- Takes a family in. All its models are checked before the first of them is entered. -/
def enroll (f : HandGearFamily Float) : Registration Unit := do
  let place := (← get).size
  f.models.forM checkFree
  f.models.forM (enter place)
  modify fun r => { r with families := r.families ++ [f] }

/-- Adds a family, unless one of its models is in a family already. -/
def register (r : OverrideRegistry) (f : HandGearFamily Float) :
    Except ConfigError OverrideRegistry :=
  match (enroll f).run r with
  | .ok _ r => .ok r
  | .error error _ => .error error

/-- The registry of the configured families. -/
def ofOptions (o : EngineOptions) : Except ConfigError OverrideRegistry :=
  o.families.foldlM (fun r f => do
    f.validate
    r.register f) empty

end OverrideRegistry

end Ventilation
