import Apex.Core.Json
import Mathlib.Data.List.DropRight

/-!
# Texts

The string operations of the source that the checks of its inputs are written
with: which characters are white space, what `strip` leaves, and which
characters are control characters.

## Main definitions

* `isPySpace`: The characters `str.isspace` accepts.
* `strip`: A text without the white space around it.
* `rstripSlash`: A text without the slashes at its end.
* `hasControl`: Whether a text holds a control character.

## Theorems

* `trim_trim`: What is left of a list without the elements around it is left again.
* `strip_strip`: A stripped text stays as it is.
-/

namespace Apex

open List

def isPySpace (c : Char) : Bool :=
  let n := c.toNat
  (0x09 ≤ n && n ≤ 0x0D) || (0x1C ≤ n && n ≤ 0x20) || n == 0x85 || n == 0xA0 || n == 0x1680
    || (0x2000 ≤ n && n ≤ 0x200A) || n == 0x2028 || n == 0x2029 || n == 0x202F || n == 0x205F
    || n == 0x3000

/-- `value.strip()`. -/
def strip (s : String) : String :=
  String.ofList (((s.toList.dropWhile isPySpace).reverse.dropWhile isPySpace).reverse)

theorem trim_trim {α : Type} (p : α → Bool) (l : List α) :
    rdropWhile p (dropWhile p (rdropWhile p (dropWhile p l))) = rdropWhile p (dropWhile p l) := by
  rcases hl : rdropWhile p (dropWhile p l) with _ | ⟨a, rest⟩
  · rfl
  -- The first element that is left is the first one the front kept.
  have hprefix : (a :: rest) <+: dropWhile p l := hl ▸ List.rdropWhile_prefix p _
  rcases hprefix with ⟨tail, htail⟩
  have ha : p a = false := by
    have hhead := head?_dropWhile_not p l
    rw [← htail] at hhead
    exact hhead
  rw [dropWhile_cons_of_neg (by rw [ha]; exact Bool.false_ne_true), ← hl, rdropWhile_idempotent]

theorem strip_strip (s : String) : strip (strip s) = strip s := by
  have h := trim_trim isPySpace s.toList
  simp only [strip, String.toList_ofList]
  exact congrArg String.ofList h

/-- `value.rstrip("/")`. -/
def rstripSlash (s : String) : String :=
  String.ofList ((s.toList.reverse.dropWhile (· == '/')).reverse)

def hasControl (s : String) : Bool :=
  s.toList.any (fun c => c.toNat < 0x20 || c.toNat == 0x7F)

end Apex
