/-!
JSON values. A number is an integer of 64 bits, with or without sign, or a double given by its bits.
The members of an object stand in the order in which their keys first appeared, each key once.
-/
namespace CoreWarden.Json

inductive Number where
  | int (value : Int)
  | float (bits : UInt64)
  deriving DecidableEq, Inhabited

/-- The integers a number may be: from the least signed to the greatest unsigned one of 64 bits. -/
def Number.InRange : Number → Prop
  | .int i => -0x8000000000000000 ≤ i ∧ i < 0x10000000000000000
  | .float _ => True

inductive Value where
  | null
  | bool (value : Bool)
  | number (value : Number)
  | string (text : String)
  | array (items : List Value)
  | object (members : List (String × Value))
  deriving BEq, Inhabited

namespace Value

def int (i : Int) : Value := .number (.int i)

def nat (n : Nat) : Value := .int n

def ofOption (f : α → Value) : Option α → Value
  | none => .null
  | some a => f a

/-- Members with `key` set: in place where the key is present, else at the end. -/
def put (key : String) (value : α) : List (String × α) → List (String × α)
  | [] => [(key, value)]
  | (k, v) :: rest => if k = key then (k, value) :: rest else (k, v) :: put key value rest

def lookup (key : String) : List (String × α) → Option α
  | [] => none
  | (k, v) :: rest => if k = key then some v else lookup key rest

def get? (key : String) : Value → Option Value
  | .object members => lookup key members
  | _ => none

theorem lookup_put_self (key : String) (value : α) (members : List (String × α)) :
    lookup key (put key value members) = some value := by
  induction members with
  | nil => simp [put, lookup]
  | cons m rest ih => by_cases h : m.1 = key <;> simp [put, lookup, h, ih]

theorem lookup_put_of_ne {key other : String} (h : other ≠ key) (value : α)
    (members : List (String × α)) : lookup other (put key value members) = lookup other members := by
  induction members with
  | nil => simp [put, lookup, h.symm]
  | cons m rest ih =>
    by_cases hm : m.1 = key
    · simp [put, lookup, hm, h.symm]
    · simp [put, lookup, hm, ih]

end Value

class Encode (α : Type) where
  encode : α → Value

export Encode (encode)

instance : Encode Value := ⟨id⟩
instance : Encode String := ⟨.string⟩
instance : Encode Bool := ⟨.bool⟩
instance : Encode UInt16 := ⟨fun n => .nat n.toNat⟩
instance : Encode UInt32 := ⟨fun n => .nat n.toNat⟩
instance : Encode UInt64 := ⟨fun n => .nat n.toNat⟩
instance : Encode Int32 := ⟨fun n => .int n.toInt⟩
instance [Encode α] : Encode (Option α) := ⟨Value.ofOption encode⟩
instance [Encode α] : Encode (List α) := ⟨fun xs => .array (xs.map encode)⟩

end CoreWarden.Json
