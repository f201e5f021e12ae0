import Apex.Domain.InputLimits

/-!
# Pages Of Native Responses

A page that a provider sends is bounded before it is written as JSON. The bytes it would take
are counted over a stack, with what is cheap to know of each value: the punctuation, each
character of a string as it will be escaped, and for a number a bound instead of its text.
Only a page that passes is handed to the check that writes it.

## Main definitions

* `spend`: What is left of it after one value, the values below it apart.
* `nativePageWithinSerializedBudget`: The whole count.
* `validatedNativeMappingPage`: The check of a page.
-/

namespace Apex.Services.PublicProjection

open Domain.InputLimits

def characterBytes (character : Char) : Nat :=
  if character = '"' ∨ character = '\\' ∨ character.toNat ∈ [8, 9, 10, 12, 13] then 2
  else if character.toNat < 0x20 then 6
  else if character.toNat ≤ 0x7F then 1
  else if character.toNat ≤ 0x7FF then 2
  else if character.toNat ≤ 0xFFFF then 3
  else 4

/-- The loop over the characters, which stops where the budget is used up. -/
def consume (remaining : Nat) : Nat → List Char → Option Nat
  | consumed, [] => some (remaining - consumed)
  | consumed, character :: rest =>
    if remaining < consumed + characterBytes character then none
    else consume remaining (consumed + characterBytes character) rest

/-- `_remaining_after_json_string`; `none` where it returns `-1`. -/
def remainingAfterJsonString (value : String) (remaining : Nat) : Option Nat :=
  if remaining < value.length + 2 then none else consume remaining 2 value.toList

/-- `remaining -= cost`, and `none` below zero. -/
def less (remaining cost : Nat) : Option Nat :=
  if remaining < cost then none else some (remaining - cost)

def maxJsonKeyChars : Nat := 255

def spendKeys : Nat → List String → Option Nat
  | remaining, [] => some remaining
  | remaining, key :: keys =>
    if key.isEmpty || decide (maxJsonKeyChars < key.length) || hasNul key then none
    else (remainingAfterJsonString key remaining).bind (spendKeys · keys)

def integerBytes (n : Int) : Nat :=
  max 1 (bitLength n * 30103 / 100000 + 1) + if n < 0 then 1 else 0

/-- One value, given how many more may be seen and how many are on the stack. -/
def spend (left pending remaining : Nat) : Json → Option Nat
  | .dict items =>
    if left < items.length + pending then none
    else (less remaining (2 + (items.length - 1) + items.length)).bind
      (spendKeys · (items.map Prod.fst))
  | .list xs => if left < xs.length + pending then none else less remaining (2 + (xs.length - 1))
  | .str s => remainingAfterJsonString s remaining
  | .null => less remaining 4
  | .bool b => less remaining (if b then 4 else 5)
  | .int n => less remaining (integerBytes n)
  | .float _ => less remaining 32

/-- The loop over the stack. The second argument is how many more values may be seen. -/
def withinBudget (maxDepth : Nat) : Nat → Nat → List (Json × Nat) → Bool
  | _, _, [] => true
  | 0, _, _ :: _ => false
  | left + 1, remaining, (current, depth) :: stack =>
    if maxDepth < depth then false
    else
      match spend left stack.length remaining current with
      | none => false
      | some remaining => withinBudget maxDepth left remaining
          ((current.children.map fun v => (v, depth + 1)).reverse ++ stack)

def wrapped (value : Json) : Json := .dict [("items", value)]

def nativePageWithinSerializedBudget (value : Json) (maxBytes maxNodes maxDepth : Int) : Bool :=
  if maxBytes < 1 ∨ maxNodes < 1 ∨ maxDepth < 0 then false
  else withinBudget maxDepth.toNat maxNodes.toNat maxBytes.toNat [(wrapped value, 0)]

def isPage (requestedLimit : Int) : Json → Bool
  | .list xs => decide ((xs.length : Int) ≤ requestedLimit) && xs.all isObject
  | _ => false

def validatedNativeMappingPage (floatText : PyFloat → List Char) (value : Json)
    (requestedLimit : Int) (label : String) (maxBytes maxNodes maxDepth : Int) :
    Except String Json := do
  let error := label ++ " returned an invalid or oversized page"
  raiseIf (decide (requestedLimit < 0 ∨ maxBytes < 1 ∨ maxNodes < 1 ∨ maxDepth < 0)) error
  raiseIf (!isPage requestedLimit value) error
  raiseIf (!nativePageWithinSerializedBudget value maxBytes maxNodes maxDepth) error
  match validateJsonObject ⟨maxBytes.toNat, maxNodes.toNat, maxDepth.toNat, maxJsonKeyChars⟩
      label floatText (wrapped value) with
  | .error _ => .error error
  | .ok () => .ok value

end Apex.Services.PublicProjection
