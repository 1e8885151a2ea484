/-!
Numbers in the bytes of a database file: with a fixed number of bytes, the highest first, and with
as many bytes as they need.
-/

set_option autoImplicit false

namespace Ventilation.Database

def byte? (bytes : ByteArray) (i : Nat) : Option Nat := bytes[i]?.map UInt8.toNat

/-- The number of `count` bytes from `start` on. -/
def bigEndian? (bytes : ByteArray) (start : Nat) : Nat → Option Nat
  | 0 => some 0
  | count + 1 => do
    let high ← bigEndian? bytes start count
    let low ← byte? bytes (start + count)
    return 256 * high + low

/-- The same with a sign in the highest bit. -/
def signed? (bytes : ByteArray) (start count : Nat) : Option Int :=
  (bigEndian? bytes start count).map fun n =>
    let span := Nat.pow 256 count
    if span ≤ 2 * n then (n : Int) - span else n

/-- Goes on with a number of which `high` was read, with at most so many bytes left. -/
def varintOn (bytes : ByteArray) (start high : Nat) : Nat → Option (Nat × Nat)
  | 0 => do
    let b ← byte? bytes start
    return (256 * high + b, start + 1)
  | more + 1 => do
    let b ← byte? bytes start
    if b < 128 then return (128 * high + b, start + 1)
    else varintOn bytes (start + 1) (128 * high + (b - 128)) more

/-- A number of one to nine bytes and the place after it. Seven bits count in each byte whose
highest bit says that there are more, eight in the ninth. -/
def varint? (bytes : ByteArray) (start : Nat) : Option (Nat × Nat) := varintOn bytes start 0 8

end Ventilation.Database
