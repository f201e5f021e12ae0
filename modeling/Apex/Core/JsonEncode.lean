import Apex.Core.Json
import Mathlib.Algebra.Order.BigOperators.Group.List
import Mathlib.Algebra.Order.Group.Nat

/-!
# Writing JSON

The compact text of a value: no blanks between tokens, and every character kept that
does not have to be escaped. How a double is written is a parameter; an integer is
written in decimal.

What a budget is stated in is the number of bytes of that text in UTF-8. It is additive
over the values below: a container costs its brackets, and a separator for each element
but the first. No text is shorter than the characters it holds, so a bound on the bytes
is one on the characters as well.

## Main definitions

* `escapeChar`, `quoteChars`: A character, and a string, as JSON writes them.
* `Json.encode`: The text of a value.
* `utf8Length`: The number of bytes of a text.
* `Json.bytes`: The number of bytes of the text of a value.
* `Json.total`: A sum over a value and the values below it.

## Theorems

* `Json.bytes_str`, `Json.bytes_list`, `Json.bytes_dict`: What each kind of value costs.
* `Json.chars_le_bytes`: A text is no shorter than what it holds.
* `Json.total_le`: Sums are compared value by value.
* `Json.bytes_eq_total`: The bytes of a text are such a sum.
-/

namespace Apex

open List

def hexDigit (n : Nat) : Char := Nat.digitChar (n % 16)

def escapeChar (c : Char) : List Char :=
  if c = '"' then ['\\', '"']
  else if c = '\\' then ['\\', '\\']
  else if c = '\n' then ['\\', 'n']
  else if c = '\r' then ['\\', 'r']
  else if c = '\t' then ['\\', 't']
  else if c.toNat = 12 then ['\\', 'f']
  else if c.toNat = 8 then ['\\', 'b']
  else if c.toNat < 32 then ['\\', 'u', '0', '0', hexDigit (c.toNat / 16), hexDigit c.toNat]
  else [c]

variable (cs : List Char)

def quoteChars : List Char := '"' :: (cs.flatMap escapeChar ++ ['"'])

def utf8Length : Nat := (cs.map Char.utf8Size).sum

namespace Json

section

variable (floatText : PyFloat → List Char)

mutual

def encode : Json → List Char
  | .null => ['n', 'u', 'l', 'l']
  | .bool true => ['t', 'r', 'u', 'e']
  | .bool false => ['f', 'a', 'l', 's', 'e']
  | .int n => (toString n).toList
  | .float x => floatText x
  | .str s => quoteChars s.toList
  | .list xs => '[' :: (encodeList xs ++ [']'])
  | .dict items => '{' :: (encodeItems items ++ ['}'])

/-- The elements of a list, with separators between them. -/
def encodeList : List Json → List Char
  | [] => []
  | x :: xs => encode x ++ encodeMore xs

def encodeMore : List Json → List Char
  | [] => []
  | x :: xs => ',' :: (encode x ++ encodeMore xs)

/-- The items of a dictionary, with separators between them. -/
def encodeItems : List (String × Json) → List Char
  | [] => []
  | (k, v) :: items => quoteChars k.toList ++ ':' :: (encode v ++ encodeMoreItems items)

def encodeMoreItems : List (String × Json) → List Char
  | [] => []
  | (k, v) :: items => ',' :: (quoteChars k.toList ++ ':' :: (encode v ++ encodeMoreItems items))

end

/-- The number of bytes of the text of a value. -/
def bytes (v : Json) : Nat := utf8Length (v.encode floatText)

end

end Json

@[simp] theorem utf8Length_nil : utf8Length [] = 0 := rfl

@[simp] theorem utf8Length_cons (c : Char) (cs : List Char) :
    utf8Length (c :: cs) = c.utf8Size + utf8Length cs := by
  rw [utf8Length, map_cons, sum_cons, utf8Length]

@[simp] theorem utf8Length_append (ds : List Char) :
    utf8Length (cs ++ ds) = utf8Length cs + utf8Length ds := by
  rw [utf8Length, map_append, sum_append, utf8Length, utf8Length]

theorem length_le_utf8Length : cs.length ≤ utf8Length cs := by
  induction cs with
  | nil => exact Nat.le_refl 0
  | cons c cs ih =>
    have hpos := c.utf8Size_pos
    rw [utf8Length_cons, length_cons]
    omega

theorem utf8Length_escapeChar_pos (c : Char) : 0 < utf8Length (escapeChar c) := by
  refine Nat.lt_of_lt_of_le ?_ (length_le_utf8Length _)
  rw [escapeChar]
  split_ifs <;> exact Nat.succ_pos _

/-- The number of bytes a string costs between its quotes. -/
def escapedBytes : Nat := (cs.map fun c => utf8Length (escapeChar c)).sum

theorem utf8Length_flatMap_escape :
    utf8Length (cs.flatMap escapeChar) = escapedBytes cs := by
  induction cs with
  | nil => rfl
  | cons c cs ih =>
    rw [flatMap_cons, utf8Length_append, ih, escapedBytes, escapedBytes, map_cons, sum_cons]

theorem utf8Length_quoteChars :
    utf8Length (quoteChars cs) = 2 + escapedBytes cs := by
  have hquote : Char.utf8Size '"' = 1 := rfl
  rw [quoteChars, utf8Length_cons, utf8Length_append, utf8Length_flatMap_escape, utf8Length_cons,
    utf8Length_nil, hquote]
  omega

theorem length_le_escapedBytes : cs.length ≤ escapedBytes cs := by
  induction cs with
  | nil => exact Nat.le_refl 0
  | cons c cs ih =>
    have hpos := utf8Length_escapeChar_pos c
    rw [escapedBytes, map_cons, sum_cons, length_cons]
    rw [escapedBytes] at ih
    omega

theorem escapedBytes_replicate (n : Nat) (c : Char) :
    escapedBytes (replicate n c) = n * utf8Length (escapeChar c) := by
  rw [escapedBytes, map_replicate, sum_replicate_nat]

namespace Json

variable {floatText : PyFloat → List Char}

theorem bytes_str (s : String) :
    bytes floatText (.str s) = 2 + escapedBytes s.toList := utf8Length_quoteChars _

theorem utf8Length_encodeMore : ∀ xs : List Json,
    utf8Length (encodeMore floatText xs) = (xs.map fun x => bytes floatText x + 1).sum
  | [] => by rw [encodeMore, utf8Length_nil, map_nil, sum_nil]
  | x :: xs => by
    have hcomma : Char.utf8Size ',' = 1 := rfl
    rw [encodeMore, utf8Length_cons, utf8Length_append, utf8Length_encodeMore xs, hcomma,
      map_cons, sum_cons, bytes]
    omega

/-- What an item of a dictionary costs, its separators included. -/
def itemBytes (floatText : PyFloat → List Char) (kv : String × Json) : Nat :=
  escapedBytes kv.1.toList + bytes floatText kv.2 + 4

theorem utf8Length_encodeMoreItems : ∀ items : List (String × Json),
    utf8Length (encodeMoreItems floatText items) = (items.map (itemBytes floatText)).sum
  | [] => by rw [encodeMoreItems, utf8Length_nil, map_nil, sum_nil]
  | (k, v) :: items => by
    have hcomma : Char.utf8Size ',' = 1 := rfl
    have hcolon : Char.utf8Size ':' = 1 := rfl
    rw [encodeMoreItems, utf8Length_cons, utf8Length_append, utf8Length_cons, utf8Length_append,
      utf8Length_encodeMoreItems items, utf8Length_quoteChars, hcomma, hcolon, map_cons,
      sum_cons, itemBytes, bytes]
    dsimp only
    omega

theorem bytes_list (xs : List Json) :
    bytes floatText (.list xs) + min 1 xs.length
      = 2 + (xs.map fun x => bytes floatText x + 1).sum := by
  have hopen : Char.utf8Size '[' = 1 := rfl
  have hclose : Char.utf8Size ']' = 1 := rfl
  cases xs with
  | nil => rfl
  | cons x xs =>
    rw [bytes, encode, utf8Length_cons, utf8Length_append, encodeList, utf8Length_append,
      utf8Length_encodeMore, utf8Length_cons, utf8Length_nil, hopen, hclose, map_cons,
      sum_cons, length_cons, bytes]
    omega

theorem bytes_dict (items : List (String × Json)) :
    bytes floatText (.dict items) + min 1 items.length
      = 2 + (items.map (itemBytes floatText)).sum := by
  have hopen : Char.utf8Size '{' = 1 := rfl
  have hclose : Char.utf8Size '}' = 1 := rfl
  have hcolon : Char.utf8Size ':' = 1 := rfl
  cases items with
  | nil => rfl
  | cons kv items =>
    rcases kv with ⟨k, v⟩
    rw [bytes, encode, utf8Length_cons, utf8Length_append, encodeItems, utf8Length_append,
      utf8Length_cons, utf8Length_append, utf8Length_encodeMoreItems, utf8Length_quoteChars,
      utf8Length_cons, utf8Length_nil, hopen, hclose, hcolon, map_cons, sum_cons,
      length_cons, itemBytes, bytes]
    dsimp only
    omega

variable (v : Json)

theorem chars_le_bytes : v.chars ≤ bytes floatText v := by
  induction v using inductionOn with
  | null | bool | int | float => exact Nat.zero_le _
  | str s =>
    have hle := length_le_escapedBytes s.toList
    rw [bytes_str, chars, ← String.length_toList]
    omega
  | list xs ih =>
    have hsum : (xs.map chars).sum ≤ (xs.map (bytes floatText)).sum :=
      sum_le_sum ih
    have hbytes := @bytes_list floatText xs
    rw [sum_map_add, map_const', sum_replicate_nat, Nat.mul_one] at hbytes
    rw [chars, charsList_eq]
    omega
  | dict items ih =>
    have hsum : (items.map fun kv => kv.1.length + chars kv.2).sum
        ≤ (items.map fun kv => escapedBytes kv.1.toList + bytes floatText kv.2).sum := by
      refine sum_le_sum fun kv hkv => Nat.add_le_add ?_ (ih kv hkv)
      rw [← String.length_toList]
      exact length_le_escapedBytes _
    have hbytes := @bytes_dict floatText items
    have hitems : (items.map (itemBytes floatText)).sum
        = (items.map fun kv => escapedBytes kv.1.toList + bytes floatText kv.2).sum
          + 4 * items.length := by
      have hfun : itemBytes floatText
          = fun kv => (escapedBytes kv.1.toList + bytes floatText kv.2) + 4 := rfl
      rw [hfun, sum_map_add, map_const', sum_replicate_nat, Nat.mul_comm]
    rw [chars, charsItems_eq]
    omega

mutual

/-- What a value and the values below it cost, if each has a cost of its own. -/
def total (own : Json → Nat) : Json → Nat
  | .list xs => own (.list xs) + totalList own xs
  | .dict items => own (.dict items) + totalItems own items
  | v => own v

def totalList (own : Json → Nat) : List Json → Nat
  | [] => 0
  | x :: xs => total own x + totalList own xs

def totalItems (own : Json → Nat) : List (String × Json) → Nat
  | [] => 0
  | (_, v) :: items => total own v + totalItems own items

end

theorem totalList_eq (own : Json → Nat) : ∀ xs : List Json,
    totalList own xs = (xs.map (total own)).sum
  | [] => rfl
  | x :: xs => by rw [totalList, totalList_eq own xs, map_cons, sum_cons]

theorem totalItems_eq (own : Json → Nat) : ∀ items : List (String × Json),
    totalItems own items = ((items.map Prod.snd).map (total own)).sum
  | [] => rfl
  | (k, v) :: items => by
    rw [totalItems, totalItems_eq own items, map_cons, map_cons, sum_cons]

theorem total_eq (own : Json → Nat) (v : Json) :
    total own v = own v + (v.children.map (total own)).sum := by
  cases v with
  | list xs => rw [total, totalList_eq, children]
  | dict items => rw [total, totalItems_eq, children]
  | _ => rfl

theorem childrenInduction {P : Json → Prop} (h : ∀ v, (∀ c ∈ v.children, P c) → P v) (v : Json) :
    P v := by
  have hleaf : ∀ v : Json, v.children = [] → P v := fun v hv =>
    h v fun c hc => absurd (hv ▸ hc) not_mem_nil
  refine inductionOn (hleaf _ rfl) (fun _ => hleaf _ rfl) (fun _ => hleaf _ rfl)
    (fun _ => hleaf _ rfl) (fun _ => hleaf _ rfl) (fun xs ih => h _ ih) (fun items ih => h _ ?_) v
  intro c hc
  rcases List.mem_map.mp hc with ⟨kv, hkv, rfl⟩
  exact ih kv hkv

theorem total_le {f g : Json → Nat} {p : Json → Bool} (h : ∀ v, p v = true → f v ≤ g v)
    (v : Json) : v.every p = true → total f v ≤ total g v := by
  induction v using childrenInduction with
  | h v ih =>
    intro hv
    rw [every_eq] at hv
    rw [total_eq, total_eq]
    exact Nat.add_le_add (h v hv.1) (sum_le_sum fun c hc => ih c hc (hv.2 c hc))

theorem total_add (f g : Json → Nat) (v : Json) :
    total (fun w => f w + g w) v = total f v + total g v := by
  induction v using childrenInduction with
  | h v ih =>
    rw [total_eq, total_eq f, total_eq g, map_congr_left ih, sum_map_add]
    omega

/-- The bytes of a value that are not in the values below it. -/
def ownBytes (floatText : PyFloat → List Char) : Json → Nat
  | .list xs => 2 + (xs.length - 1)
  | .dict items => 2 + (items.length - 1) + items.length +
      (items.map fun kv => 2 + escapedBytes kv.1.toList).sum
  | v => bytes floatText v

theorem bytes_eq :
    bytes floatText v = ownBytes floatText v + (v.children.map (bytes floatText)).sum := by
  cases v with
  | list xs =>
    have hbytes := @bytes_list floatText xs
    rw [sum_map_add, map_const', sum_replicate_nat, Nat.mul_one] at hbytes
    rw [ownBytes, children]
    omega
  | dict items =>
    have hbytes := @bytes_dict floatText items
    have hitems : (items.map (itemBytes floatText)).sum =
        (items.map fun kv => 2 + escapedBytes kv.1.toList).sum +
          ((items.map Prod.snd).map (bytes floatText)).sum + 2 * items.length := by
      have hfun : itemBytes floatText = fun kv =>
          (2 + escapedBytes kv.1.toList) + bytes floatText kv.2 + 2 := by
        funext kv
        rw [itemBytes]
        omega
      rw [hfun, sum_map_add, sum_map_add, map_const', sum_replicate_nat, List.map_map]
      have hcomp : (bytes floatText ∘ Prod.snd) = fun kv : String × Json =>
          bytes floatText kv.2 := rfl
      rw [hcomp]
      omega
    rw [ownBytes, children]
    omega
  | _ => rfl

theorem bytes_eq_total : bytes floatText v = total (ownBytes floatText) v := by
  induction v using childrenInduction with
  | h v ih => rw [bytes_eq, total_eq, map_congr_left ih]

end Json

end Apex
