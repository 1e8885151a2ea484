import Ventilation.Database.Record
import Ventilation.Number.Binary64

/-!
The tables of a database file. A table is a tree of pages: inner pages name their subtrees, leaves
hold the rows, and what a leaf has no room for goes on in a chain of further pages.
-/

set_option autoImplicit false

namespace Ventilation.Database

/-- How a file is cut into pages, and how much of a page counts. -/
structure Layout where
  pageSize : Nat
  usable : Nat

/-- The layout in the header of a file. -/
def layout? (file : ByteArray) : Option Layout := do
  if String.fromUTF8? (file.extract 0 16) = some "SQLite format 3\x00" then
    let size ← bigEndian? file 16 2
    let reserved ← byte? file 20
    let pageSize := if size = 1 then 65536 else size
    return ⟨pageSize, pageSize - reserved⟩
  else none

/-- Where a page begins. Pages are counted from 1. -/
def Layout.pageStart (l : Layout) (page : Nat) : Nat := (page - 1) * l.pageSize

/-- The bytes of a chain of pages, as many as are needed. -/
def chain? (file : ByteArray) (l : Layout) (page needed : Nat) : Nat → Option ByteArray
  | 0 => none
  | fuel + 1 => do
    let start := l.pageStart page
    let next ← bigEndian? file start 4
    let room := l.usable - 4
    let here := file.extract (start + 4) (start + 4 + min needed room)
    if needed ≤ room then return here
    else return here ++ (← chain? file l next (needed - room) fuel)

/-- How many bytes of a row stand in its leaf. -/
def Layout.localSize (l : Layout) (size : Nat) : Nat :=
  let most := l.usable - 35
  if size ≤ most then size
  else
    let least := (l.usable - 12) * 32 / 255 - 23
    let fitting := least + (size - least) % (l.usable - 4)
    if fitting ≤ most then fitting else least

/-- A row with its number. -/
structure Row where
  number : Int
  fields : List Field

/-- The record of so many bytes that begins in a leaf. -/
def payload? (file : ByteArray) (l : Layout) (start size : Nat) : Option ByteArray :=
  let here := l.localSize size
  let front := file.extract start (start + here)
  if here = size then some front
  else do
    let page ← bigEndian? file (start + here) 4
    let rest ← chain? file l page (size - here) file.size
    return front ++ rest

def row? (file : ByteArray) (l : Layout) (start : Nat) : Option Row := do
  let (size, start) ← varint? file start
  let (number, start) ← varint? file start
  let payload ← payload? file l start size
  let fields ← record? payload
  return ⟨if twoTo 63 ≤ number then (number : Int) - twoTo 64 else number, fields⟩

/-- The rows below a page, in a tree of so many levels at most. -/
def rowsBelow? (file : ByteArray) (l : Layout) : Nat → Nat → Option (List Row)
  | 0, _ => none
  | depth + 1, page => do
    let start := l.pageStart page
    let header := if page = 1 then start + 100 else start
    let kind ← byte? file header
    let count ← bigEndian? file (header + 3) 2
    let cell? (after i : Nat) : Option Nat :=
      (bigEndian? file (header + after + 2 * i) 2).map (start + ·)
    if kind = 13 then (List.range count).mapM fun i => do row? file l (← cell? 8 i)
    else if kind = 5 then
      let below ← (List.range count).mapM fun i => do
        let page ← bigEndian? file (← cell? 12 i) 4
        rowsBelow? file l depth page
      let last ← bigEndian? file (header + 8) 4
      return below.flatten ++ (← rowsBelow? file l depth last)
    else none

/-- No tree of pages has more levels. -/
def maxLevels : Nat := 20

/-- A table by its first page and its definition. -/
structure TableEntry where
  name : String
  page : Nat
  definition : String

def entry? (row : Row) : Option TableEntry :=
  match row.fields with
  | [.text kind, .text name, _, .integer page, .text definition] =>
    if kind = "table" then some ⟨name, page.toNat, definition⟩ else none
  | _ => none

/-- The tables that a file lists on its first page. -/
def entries? (file : ByteArray) (l : Layout) : Option (List TableEntry) :=
  (rowsBelow? file l maxLevels 1).map fun rows => rows.filterMap entry?

end Ventilation.Database
