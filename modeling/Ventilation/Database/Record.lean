import Ventilation.Database.Bytes

/-!
The records of a database file: a list of types, then the fields one after another.
-/

set_option autoImplicit false

namespace Ventilation.Database

inductive Field where
  | null
  | integer (n : Int)
  | real (x : Float)
  | text (s : String)
  | blob

/-- The codes of the types from a place up to `stop`, of which there are no more than `fuel`. -/
def typeCodes? (bytes : ByteArray) (stop : Nat) : Nat → Nat → Option (List Nat)
  | 0, _ => some []
  | fuel + 1, start =>
    if stop ≤ start then some []
    else do
      let (code, next) ← varint? bytes start
      return code :: (← typeCodes? bytes stop fuel next)

/-- How many bytes a field of a type takes. -/
def fieldSize (code : Nat) : Nat :=
  match code with
  | 0 | 8 | 9 | 10 | 11 => 0
  | 5 => 6
  | 6 | 7 => 8
  | code => if code < 5 then code else (code - 12) / 2

def field? (bytes : ByteArray) (start code : Nat) : Option Field :=
  match code with
  | 0 => some .null
  | 7 => (bigEndian? bytes start 8).map fun n => .real (Float.ofBits (UInt64.ofNat n))
  | 8 => some (.integer 0)
  | 9 => some (.integer 1)
  | 10 | 11 => none
  | code =>
    if code < 7 then (signed? bytes start (fieldSize code)).map .integer
    else if code % 2 = 0 then some .blob
    else (String.fromUTF8? (bytes.extract start (start + fieldSize code))).map .text

def fields? (bytes : ByteArray) : Nat → List Nat → Option (List Field)
  | _, [] => some []
  | start, code :: codes => do
    let field ← field? bytes start code
    return field :: (← fields? bytes (start + fieldSize code) codes)

/-- The fields of a record. -/
def record? (bytes : ByteArray) : Option (List Field) := do
  let (size, start) ← varint? bytes 0
  let codes ← typeCodes? bytes size size start
  fields? bytes size codes

end Ventilation.Database
