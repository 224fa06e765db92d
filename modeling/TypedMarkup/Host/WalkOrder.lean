import TypedMarkup.Host.Value

/-!
Contract: the order in which the values of a set are met.

Owns: `walkOrder`. Numbers are met by their slots in a table. A number stands in the slot that its
residue names, or in the first free one of a walk through the table that starts there; the table
grows before it is three fifths full. A set that holds anything but numbers is met in the order in
which its values were added.
-/

namespace TypedMarkup

namespace WalkOrder

def prime : Nat := Nat.pow 2 61 - 1

def infiniteResidue : Int := 314159

/-- The residue of a number with a sign. Minus one is no residue. -/
def signedResidue (negative : Bool) (magnitude : Nat) : Int :=
  let residue : Int := if negative then -(magnitude % prime : Nat) else (magnitude % prime : Nat)
  if residue = -1 then -2 else residue

/-- The residue of a number. Equal numbers have equal ones. -/
def residue? : Value → Option Int
  | .bool value => some (if value then 1 else 0)
  | .int value => some (signedResidue (value < 0) value.natAbs)
  | .real (.infinite negative) _ =>
    some (if negative then -infiniteResidue else infiniteResidue)
  | .real (.finite negative mantissa exponent) _ =>
    some (signedResidue negative (mantissa * Nat.pow 2 (exponent % 61).toNat))
  | _ => none

def wordOf (residue : Int) : Nat := (residue % Nat.pow 2 64).toNat

/-- A number in a table: its word, and its place among the values of the set. -/
structure Entry where
  word : Nat
  place : Nat

/-- A table of slots, and how many of them are taken. -/
structure Table where
  slots : Array (Option Entry)
  used : Nat

def isFree (slots : Array (Option Entry)) (slot : Nat) : Bool :=
  (slots.getD slot none).isNone

/-- The first free slot of the walk from a slot on. Ten slots in a row are tried if there are as
many up to the end, then the walk jumps; `rest` is what is left of the word to decide where. -/
def freeSlot (slots : Array (Option Entry)) : (fuel slot rest : Nat) → Nat
  | 0, slot, _ => slot
  | fuel + 1, slot, rest =>
    let run := if slot + 9 < slots.size then 10 else 1
    match (List.range run).find? fun offset => isFree slots (slot + offset) with
    | some offset => slot + offset
    | none => freeSlot slots fuel ((slot * 5 + 1 + rest / 32) % slots.size) (rest / 32)

def settle (slots : Array (Option Entry)) (entry : Entry) : Array (Option Entry) :=
  let slot := freeSlot slots (64 + slots.size) (entry.word % slots.size) entry.word
  slots.setIfInBounds slot (some entry)

/-- A table for more entries than a number: the next power of two, and at least eight slots. -/
def slotsAbove (count : Nat) : Array (Option Entry) :=
  Array.replicate (max 8 (Nat.pow 2 (count.log2 + 1))) none

def grow (table : Table) : Table :=
  let wanted := if 50000 < table.used then table.used * 2 else table.used * 4
  ⟨(table.slots.toList.filterMap id).foldl settle (slotsAbove wanted), table.used⟩

def add (table : Table) (entry : Entry) : Table :=
  let filled : Table := ⟨settle table.slots entry, table.used + 1⟩
  if filled.used * 5 < (filled.slots.size - 1) * 3 then filled else grow filled

/-- The slots that numbers come to stand in, by their places among the values. -/
def slotsOf (residues : List Int) : Array Nat :=
  let entries := residues.zipIdx.map fun entry => Entry.mk (wordOf entry.1) entry.2
  let table := entries.foldl add ⟨Array.replicate 8 none, 0⟩
  table.slots.toList.zipIdx.foldl (fun found entry =>
    match entry.1 with
    | some settled => found.setIfInBounds settled.place entry.2
    | none => found) (Array.replicate residues.length 0)

end WalkOrder

/-- Puts what belongs to the values of a set, in the order in which they were added, into the order
in which they are met. -/
def walkOrder {α : Type} (values : List Value) (belongings : List α) : List α :=
  match values.mapM WalkOrder.residue? with
  | some residues =>
    let slots := WalkOrder.slotsOf residues
    let ordered := belongings.zipIdx.mergeSort fun left right =>
      slots.getD left.2 0 ≤ slots.getD right.2 0
    ordered.map Prod.fst
  | none => belongings

end TypedMarkup
