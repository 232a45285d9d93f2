import Mathlib.Algebra.Group.Int.Defs
import Mathlib.Data.String.Basic

/-!
# The items of a poll

A polled payload is JSON, and an item's identity is a field of it: an id, or a watermark. Watermarks
compare as numbers when both are, and else as texts.
-/

namespace Lightspeed.Bots

/-! ## Numbers -/

/-- A finite 64-bit float, by its bits. -/
structure F64 where
  bits : BitVec 64
  finite : bits.toNat / 2 ^ 52 % 2 ^ 11 ≠ 2047
  deriving DecidableEq

/-- A float's value in units of `2 ^ (-1074)`, of which every finite float is a whole multiple. -/
def F64.units (f : F64) : Int :=
  let fraction := f.bits.toNat % 2 ^ 52
  let exponent := f.bits.toNat / 2 ^ 52 % 2 ^ 11
  let magnitude : Nat := if exponent = 0 then fraction else (2 ^ 52 + fraction) * 2 ^ (exponent - 1)
  if f.bits.toNat < 2 ^ 63 then magnitude else -(magnitude : Int)

/-- The float that is nearest to a number, of two equally near the one with an even significand. -/
def roundToF64 (n : Nat) : Nat :=
  let shift := n.log2 - 52
  let significand := n / 2 ^ shift
  let rest := 2 * (n % 2 ^ shift)
  if 2 ^ shift < rest ∨ (rest = 2 ^ shift ∧ significand % 2 = 1) then (significand + 1) * 2 ^ shift
  else significand * 2 ^ shift

/-- A JSON number: an integer that is not negative, one that is so far below minus one, or a float. -/
inductive Number where
  | posInt (value : Nat)
  | negInt (below : Nat)
  | float (value : F64)
  deriving DecidableEq

/-- A number as a float, in the units of `F64.units`. -/
def Number.asF64 : Number → Int
  | .posInt value => roundToF64 value * 2 ^ 1074
  | .negInt below => -(roundToF64 (below + 1) * 2 ^ 1074)
  | .float value => value.units

section

variable (floatText : F64 → String)

/-- Integers without a fraction, floats in their shortest form. -/
def numberToString : Number → String
  | .posInt value => toString value
  | .negInt below => "-" ++ toString (below + 1)
  | .float value => floatText value

end

/-! ## Values -/

inductive Value where
  | null
  | bool (value : Bool)
  | number (value : Number)
  | string (value : String)
  | array (items : List Value)
  /-- An object's fields, each name once. -/
  | object (fields : List (String × Value))

/-- A decimal number of 64 bits, as the standard library reads one. -/
def parseUsize (text : String) : Option Nat :=
  let digits :=
    match text.toList with
    | '+' :: rest => rest
    | chars => chars
  if digits.isEmpty || !digits.all Char.isDigit then none
  else
    let value := digits.foldl (fun n ch => 10 * n + (ch.toNat - '0'.toNat)) 0
    if value < 2 ^ 64 then some value else none

/-- One segment of a path: an object's field, or an array's item. -/
def resolveSegment (current : Value) (segment : String) : Option Value :=
  if segment.isEmpty then none
  else
    match current with
    | .array items => (parseUsize segment).bind fun index => items[index]?
    | .object fields => (fields.find? fun field => field.1 == segment).map Prod.snd
    | _ => none

/-- What a dotted path leads to. -/
def resolvePath (value : Value) (path : String) : Option Value :=
  ((path.toList.splitOn '.').map String.ofList).foldlM resolveSegment value

/-! ## Identity -/

/-- How the items of a poll are told apart: by an id, or by a field that only grows. -/
inductive PollCursorSpec where
  | idSet (id : String)
  | watermark (field : String)

/-- A watermark is a string or a number. -/
inductive Mark where
  | string (value : String)
  | number (value : Number)
  deriving DecidableEq

def watermarkValue (item : Value) (field : String) : Option Mark :=
  match resolvePath item field with
  | some (.string value) => some (.string value)
  | some (.number value) => some (.number value)
  | _ => none

def Mark.asF64 : Mark → Option Int
  | .number value => some value.asF64
  | .string _ => none

section

variable (floatText : F64 → String)

def watermarkString : Mark → String
  | .string value => value
  | .number value => numberToString floatText value

/-- The identity of one item: its id as a text, of scalars only, or its watermark. -/
def pollItemKey (item : Value) : PollCursorSpec → Option String
  | .idSet id =>
    match resolvePath item id with
    | some (.string value) => some value
    | some (.number value) => some (numberToString floatText value)
    | some (.bool value) => some (toString value)
    | _ => none
  | .watermark field => (watermarkValue item field).map (watermarkString floatText)

/-- Numbers compare as numbers, and anything else as texts. -/
def watermarkAfter (value mark : Mark) : Bool :=
  match value.asF64, mark.asF64 with
  | some value, some mark => mark < value
  | _, _ => watermarkString floatText mark < watermarkString floatText value

def watermarkOrdering (a b : Mark) : Ordering :=
  if watermarkAfter floatText a b then .gt
  else if watermarkAfter floatText b a then .lt
  else .eq

end

end Lightspeed.Bots
