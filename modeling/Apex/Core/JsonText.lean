import Mathlib.Data.List.Basic
import Mathlib.Order.Defs.LinearOrder

/-!
# Parsing JSON From Left To Right

The grammar of JSON texts, and a parser that reads a text one character after the other.
The parser keeps the containers that are open and the number of values and member names
that have begun, and it stops at the first character that cannot continue any JSON text.

## Main definitions

* `Derives`: The grammar: texts of values, of elements and of members, with the nesting and
  the number of their values and names.
* `Config`, `step`: The parser.

## Theorems

* `reading_of_derives`: A JSON text is read within its nesting and its number of values.
-/

namespace Apex.JsonText

open List
open Option hiding or_self

def isBlank (c : Char) : Bool := [' ', '\t', '\n', '\r'].contains c

def isDigit (c : Char) : Bool := ['0', '1', '2', '3', '4', '5', '6', '7', '8', '9'].contains c

/-- A digit that a number of several digits can begin with. -/
def isLeading (c : Char) : Bool := ['1', '2', '3', '4', '5', '6', '7', '8', '9'].contains c

def isHex (c : Char) : Bool :=
  isDigit c || ['a', 'b', 'c', 'd', 'e', 'f', 'A', 'B', 'C', 'D', 'E', 'F'].contains c

/-- A character that stands for itself in a string. -/
def isPlain (c : Char) : Bool := decide (32 ≤ c.toNat) && c != '"' && c != '\\'

def isEscape (c : Char) : Bool := ['"', '\\', '/', 'b', 'f', 'n', 'r', 't'].contains c

inductive Word where
  | true
  | false
  | null
  deriving DecidableEq

def Word.chars : Word → List Char
  | .true => ['t', 'r', 'u', 'e']
  | .false => ['f', 'a', 'l', 's', 'e']
  | .null => ['n', 'u', 'l', 'l']

def Blanks (cs : List Char) : Prop := ∀ c ∈ cs, isBlank c = true

def Digits (cs : List Char) : Prop := ∀ c ∈ cs, isDigit c = true

/-- What follows the quote a string begins with. -/
inductive StringRest : List Char → Prop
  | close : StringRest ['"']
  | plain {c : Char} {cs : List Char} (h : isPlain c = true) (hcs : StringRest cs) :
      StringRest (c :: cs)
  | escape {c : Char} {cs : List Char} (h : isEscape c = true) (hcs : StringRest cs) :
      StringRest ('\\' :: c :: cs)
  | unicode {a b c d : Char} {cs : List Char} (ha : isHex a = true) (hb : isHex b = true)
      (hc : isHex c = true) (hd : isHex d = true) (hcs : StringRest cs) :
      StringRest ('\\' :: 'u' :: a :: b :: c :: d :: cs)

inductive Integer : List Char → Prop
  | zero : Integer ['0']
  | leading {c : Char} {cs : List Char} (h : isLeading c = true) (hcs : Digits cs) :
      Integer (c :: cs)

/-- What follows the integer part: a fraction, if there is one. -/
inductive Fraction : List Char → Prop
  | none : Fraction []
  | digits {c : Char} {cs : List Char} (h : isDigit c = true) (hcs : Digits cs) :
      Fraction ('.' :: c :: cs)

/-- What follows the fraction: an exponent, if there is one. -/
inductive Exponent : List Char → Prop
  | none : Exponent []
  | digits {e c : Char} {cs : List Char} (he : e = 'e' ∨ e = 'E') (h : isDigit c = true)
      (hcs : Digits cs) : Exponent (e :: c :: cs)
  | signed {e s c : Char} {cs : List Char} (he : e = 'e' ∨ e = 'E') (hs : s = '+' ∨ s = '-')
      (h : isDigit c = true) (hcs : Digits cs) : Exponent (e :: s :: c :: cs)

inductive Number : List Char → Prop
  | positive {is fs es : List Char} (hi : Integer is) (hf : Fraction fs) (he : Exponent es) :
      Number (is ++ fs ++ es)
  | negative {is fs es : List Char} (hi : Integer is) (hf : Fraction fs) (he : Exponent es) :
      Number ('-' :: (is ++ fs ++ es))

inductive Symbol where
  | value
  | element
  | elements
  | member
  | members

inductive Derives : Symbol → List Char → Nat → Nat → Prop
  | string {cs : List Char} (h : StringRest cs) : Derives .value ('"' :: cs) 0 1
  | number {cs : List Char} (h : Number cs) : Derives .value cs 0 1
  | literal (word : Word) : Derives .value word.chars 0 1
  | emptyArray {ws : List Char} (h : Blanks ws) : Derives .value ('[' :: (ws ++ [']'])) 1 1
  | array {cs : List Char} {d n : Nat} (h : Derives .elements cs d n) :
      Derives .value ('[' :: (cs ++ [']'])) (d + 1) (n + 1)
  | emptyObject {ws : List Char} (h : Blanks ws) : Derives .value ('{' :: (ws ++ ['}'])) 1 1
  | object {cs : List Char} {d n : Nat} (h : Derives .members cs d n) :
      Derives .value ('{' :: (cs ++ ['}'])) (d + 1) (n + 1)
  | element {ws cs ws' : List Char} {d n : Nat} (hw : Blanks ws) (h : Derives .value cs d n)
      (hw' : Blanks ws') : Derives .element (ws ++ (cs ++ ws')) d n
  | lastElement {cs : List Char} {d n : Nat} (h : Derives .element cs d n) :
      Derives .elements cs d n
  | moreElements {cs es : List Char} {d n d' n' : Nat} (h : Derives .element cs d n)
      (hes : Derives .elements es d' n') : Derives .elements (cs ++ ',' :: es) (max d d') (n + n')
  | member {ws ks ws' cs : List Char} {d n : Nat} (hw : Blanks ws) (hk : StringRest ks)
      (hw' : Blanks ws') (h : Derives .element cs d n) :
      Derives .member (ws ++ '"' :: (ks ++ (ws' ++ ':' :: cs))) d (n + 1)
  | lastMember {cs : List Char} {d n : Nat} (h : Derives .member cs d n) : Derives .members cs d n
  | moreMembers {cs ms : List Char} {d n d' n' : Nat} (h : Derives .member cs d n)
      (hms : Derives .members ms d' n') : Derives .members (cs ++ ',' :: ms) (max d d') (n + n')

inductive Container where
  | array
  | object
  deriving DecidableEq

/-- Where the parser is in a string. In an escape of hexadecimal digits some are missing. -/
inductive StringMode where
  | plain
  | escape
  | hex (missing : Nat)
  deriving DecidableEq

/-- Where the parser is in a number, by what it has read last. -/
inductive NumberMode where
  | minus
  | zero
  | integer
  | point
  | fraction
  | exponent
  | sign
  | power
  deriving DecidableEq

/-- What the parser waits for or is in. `first` and `firstName` are what may follow an
    opening bracket. -/
inductive Mode where
  | value
  | first
  | name
  | firstName
  | colon
  | after
  | string (isName : Bool) (mode : StringMode)
  | literal (word : Word) (read : Nat)
  | number (mode : NumberMode)
  deriving DecidableEq

/-- The open containers, innermost first, the number of values and member names that have
    begun, and the mode. -/
structure Config where
  containers : List Container
  begun : Nat
  mode : Mode

/-- The next mode in a string; `none` at its end. -/
def stringStep : StringMode → Char → Option (Option StringMode)
  | .plain, c =>
    if c = '"' then some none
    else if c = '\\' then some (some .escape)
    else if isPlain c then some (some .plain) else none
  | .escape, c =>
    if c = 'u' then some (some (.hex 3)) else if isEscape c then some (some .plain) else none
  | .hex n, c =>
    if isHex c then some (some (match n with | 0 => .plain | n + 1 => .hex n)) else none

/-- The next mode in a number, if the character continues it. -/
def numberStep : NumberMode → Char → Option NumberMode
  | .minus, c => if c = '0' then some .zero else if isLeading c then some .integer else none
  | .zero, c => if c = '.' then some .point else if c = 'e' ∨ c = 'E' then some .exponent else none
  | .integer, c =>
    if isDigit c then some .integer
    else if c = '.' then some .point
    else if c = 'e' ∨ c = 'E' then some .exponent else none
  | .point, c => if isDigit c then some .fraction else none
  | .fraction, c =>
    if isDigit c then some .fraction
    else if c = 'e' ∨ c = 'E' then some .exponent else none
  | .exponent, c =>
    if c = '+' ∨ c = '-' then some .sign else if isDigit c then some .power else none
  | .sign, c => if isDigit c then some .power else none
  | .power, c => if isDigit c then some .power else none

def numberEnds : NumberMode → Bool
  | .zero | .integer | .fraction | .power => true
  | .minus | .point | .exponent | .sign => false

/-- Close the innermost container, if it is of a kind. -/
def close (kind : Container) (c : Config) : Option Config :=
  match c.containers with
  | k :: ks => if k = kind then some { c with containers := ks, mode := .after } else none
  | [] => none

variable (c : Config) (ch : Char) (text : List Char)

def afterStep : Option Config :=
  if isBlank ch then some { c with mode := .after }
  else if ch = ',' then
    match c.containers with
    | .array :: _ => some { c with mode := .value }
    | .object :: _ => some { c with mode := .name }
    | [] => none
  else if ch = ']' then close .array c
  else if ch = '}' then close .object c
  else none

def valueStep : Option Config :=
  if isBlank ch then some c
  else
    let begins (mode : Mode) : Option Config := some { c with begun := c.begun + 1, mode }
    if ch = '"' then begins (.string false .plain)
    else if ch = '[' then
      some { containers := .array :: c.containers, begun := c.begun + 1, mode := .first }
    else if ch = '{' then
      some { containers := .object :: c.containers, begun := c.begun + 1, mode := .firstName }
    else if ch = '-' then begins (.number .minus)
    else if ch = '0' then begins (.number .zero)
    else if isLeading ch then begins (.number .integer)
    else if ch = 't' then begins (.literal .true 1)
    else if ch = 'f' then begins (.literal .false 1)
    else if ch = 'n' then begins (.literal .null 1)
    else none

def nameStep : Option Config :=
  if isBlank ch then some c
  else if ch = '"' then some { c with begun := c.begun + 1, mode := .string true .plain }
  else none

/-- One character; `none` where no JSON text goes on with it. -/
def step : Option Config :=
  match c.mode with
  | .value => valueStep c ch
  | .first => if ch = ']' then close .array c else valueStep c ch
  | .name => nameStep c ch
  | .firstName => if ch = '}' then close .object c else nameStep c ch
  | .colon =>
    if isBlank ch then some c else if ch = ':' then some { c with mode := .value } else none
  | .after => afterStep c ch
  | .string isName mode =>
    (stringStep mode ch).map fun
      | some mode => { c with mode := .string isName mode }
      | none => { c with mode := if isName then .colon else .after }
  | .literal word read =>
    match word.chars[read]? with
    | some r => if ch = r then some { c with mode := .literal word (read + 1) } else none
    | none => afterStep c ch
  | .number mode =>
    match numberStep mode ch with
    | some mode => some { c with mode := .number mode }
    | none => if numberEnds mode then afterStep c ch else none

/-- Where the parser is after a text, if it gets to its end. -/
def readFrom : Option Config :=
  text.foldlM step c

def start : Config := ⟨[], 0, .value⟩

/-- Where the parser is after a text from the start. -/
def reading : Option Config := readFrom start text

/-- A value that is complete, if the text ends here. -/
def Mode.ends : Mode → Bool
  | .after => true
  | .literal word read => decide (word.chars.length ≤ read)
  | .number mode => numberEnds mode
  | _ => false

theorem readFrom_cons :
    readFrom c (ch :: text) = (step c ch).bind (fun c' => readFrom c' text) := foldlM_cons ..

theorem readFrom_append (text' : List Char) :
    readFrom c (text ++ text') = (readFrom c text).bind (fun c' => readFrom c' text') :=
  foldlM_append ..

/-- A text is read, and on the way there are at most so many open containers and so many
    values and names that have begun. -/
def Bounded (depth begun : Nat) (c : Config) (text : List Char) (c' : Config) : Prop :=
  readFrom c text = some c' ∧ ∀ read rest m, read ++ rest = text → readFrom c read = some m →
    m.containers.length ≤ depth ∧ m.begun ≤ begun

section Reading

variable {depth begun : Nat} {c c' c'' : Config} {ch : Char} {text text' : List Char}

theorem bounded_nil (h : c.containers.length ≤ depth ∧ c.begun ≤ begun) :
    Bounded depth begun c [] c := by
  refine ⟨rfl, fun read rest m happ hm => ?_⟩
  rw [(append_eq_nil_iff.mp happ).1] at hm
  cases hm
  exact h

theorem Bounded.cons (hstep : step c ch = some c')
    (hc : c.containers.length ≤ depth ∧ c.begun ≤ begun) (h : Bounded depth begun c' text c'') :
    Bounded depth begun c (ch :: text) c'' := by
  refine ⟨by rw [readFrom_cons, hstep]; exact h.1, fun read rest m happ hm => ?_⟩
  cases read with
  | nil =>
    cases hm
    exact hc
  | cons ch' read =>
    rw [cons_append, cons.injEq] at happ
    rw [happ.1, readFrom_cons, hstep] at hm
    exact h.2 read rest m happ.2 hm

section

variable (h : Bounded depth begun c text c')

include h

theorem Bounded.append
    (h' : Bounded depth begun c' text' c'') : Bounded depth begun c (text ++ text') c'' := by
  refine ⟨by rw [readFrom_append, h.1]; exact h'.1, fun read rest m happ hm => ?_⟩
  rcases append_eq_append_iff.mp happ with ⟨mid, htext, _⟩ | ⟨mid, hread, htext'⟩
  · exact h.2 read mid m htext.symm hm
  · rw [hread, readFrom_append, h.1] at hm
    exact h'.2 mid rest m htext'.symm hm

theorem Bounded.mono {depth' begun' : Nat}
    (hd : depth ≤ depth') (hb : begun ≤ begun') : Bounded depth' begun' c text c' :=
  ⟨h.1, fun read rest m happ hm => ⟨Nat.le_trans (h.2 read rest m happ hm).1 hd,
    Nat.le_trans (h.2 read rest m happ hm).2 hb⟩⟩

theorem Bounded.last :
    c'.containers.length ≤ depth ∧ c'.begun ≤ begun :=
  h.2 text [] c' (append_nil _) h.1

theorem Bounded.snoc (hstep : step c' ch = some c'')
    (hc : c''.containers.length ≤ depth ∧ c''.begun ≤ begun) :
    Bounded depth begun c (text ++ [ch]) c'' :=
  h.append ((bounded_nil hc).cons hstep h.last)

end

end Reading

/-- Characters that cannot be in a literal or a number. -/
def closers : List Char := [' ', '\t', '\n', '\r', ',', ']', '}']

variable {ch : Char} {ks : List Container} {m mode mode' : Mode} {k d n : Nat} {cs : List Char}

theorem isBlank_closer (h : isBlank ch = true) : ch ∈ closers := by
  have hall : [' ', '\t', '\n', '\r'].all closers.contains = true := by decide
  exact contains_iff_mem.mp (List.all_eq_true.mp hall ch (contains_iff_mem.mp h))

theorem step_of_ends (hm : m.ends = true)
    (hch : ch ∈ closers) : step ⟨ks, k, m⟩ ch = afterStep ⟨ks, k, .after⟩ ch := by
  cases m with
  | after => rfl
  | literal word read =>
    have hread : word.chars[read]? = none :=
      getElem?_eq_none (of_decide_eq_true hm)
    simp only [step, hread]
    rfl
  | number mode =>
    have hall : closers.all (fun c => (numberStep mode c).isNone) = true := by
      cases mode <;> decide
    have hnone : numberStep mode ch = none :=
      isNone_iff_eq_none.mp (List.all_eq_true.mp hall ch hch)
    have hends : numberEnds mode = true := hm
    simp only [step, hnone, hends, if_true]
    rfl
  | value => cases hm
  | first => cases hm
  | name => cases hm
  | firstName => cases hm
  | colon => cases hm
  | string _ _ => cases hm

section Blanks

variable {ks : List Container} {k depth begun : Nat} {ws : List Char}

variable {mode : Mode}

theorem bounded_blanks (hws : Blanks ws) (hks : ks.length ≤ depth) (hk : k ≤ begun)
    (hmode : ∀ ch, isBlank ch = true → step ⟨ks, k, mode⟩ ch = some ⟨ks, k, mode⟩) :
    Bounded depth begun ⟨ks, k, mode⟩ ws ⟨ks, k, mode⟩ := by
  induction ws with
  | nil => exact bounded_nil ⟨hks, hk⟩
  | cons ch ws ih =>
    exact (ih fun c hc => hws c (mem_cons_of_mem _ hc)).cons
      (hmode ch (hws ch mem_cons_self)) ⟨hks, hk⟩

theorem step_blank_of_starts {ch : Char} (hch : isBlank ch = true)
    (hmode : mode ∈ [Mode.value, .first, .name, .firstName, .colon, .after]) :
    step ⟨ks, k, mode⟩ ch = some ⟨ks, k, mode⟩ := by
  have hclose : ch ≠ ']' ∧ ch ≠ '}' := by
    constructor
    · rintro rfl
      revert hch
      decide
    · rintro rfl
      revert hch
      decide
  simp only [mem_cons, not_mem_nil, or_false] at hmode
  rcases hmode with rfl | rfl | rfl | rfl | rfl | rfl
  · exact if_pos hch
  · exact (if_neg hclose.1).trans (if_pos hch)
  · exact if_pos hch
  · exact (if_neg hclose.2).trans (if_pos hch)
  · exact if_pos hch
  · exact if_pos hch

theorem bounded_trailing {m : Mode} (hm : m.ends = true) (hws : Blanks ws) (hks : ks.length ≤ depth)
    (hk : k ≤ begun) : ∃ m', m'.ends = true ∧ Bounded depth begun ⟨ks, k, m⟩ ws ⟨ks, k, m'⟩ := by
  cases ws with
  | nil => exact ⟨m, hm, bounded_nil ⟨hks, hk⟩⟩
  | cons ch ws =>
    have hch := hws ch mem_cons_self
    refine ⟨.after, rfl, (bounded_blanks (fun c hc => hws c (mem_cons_of_mem _ hc)) hks hk
      fun c hc => step_blank_of_starts hc (by decide)).cons ?_ ⟨hks, hk⟩⟩
    rw [step_of_ends hm (isBlank_closer hch)]
    exact if_pos hch

end Blanks

section Scalars

variable {ks : List Container} {k depth begun : Nat} {cs : List Char}

variable {isName : Bool} {ch : Char} {mode : NumberMode}

theorem step_hex (n : Nat) (h : isHex ch = true) :
    step ⟨ks, k, .string isName (.hex (n + 1))⟩ ch = some ⟨ks, k, .string isName (.hex n)⟩ := by
  simp only [step, stringStep, h, if_true, map_some]

theorem step_lastHex (h : isHex ch = true) :
    step ⟨ks, k, .string isName (.hex 0)⟩ ch = some ⟨ks, k, .string isName .plain⟩ := by
  simp only [step, stringStep, h, if_true, map_some]

theorem bounded_string (isName : Bool) (h : StringRest cs) (hks : ks.length ≤ depth)
    (hk : k ≤ begun) : Bounded depth begun ⟨ks, k, .string isName .plain⟩ cs
      ⟨ks, k, if isName then .colon else .after⟩ := by
  have hc := And.intro hks hk
  induction h with
  | close => exact (bounded_nil hc).cons (by cases isName <;> rfl) hc
  | @plain c cs h _ ih =>
    refine ih.cons ?_ hc
    have hne : c ≠ '"' ∧ c ≠ '\\' := by
      constructor
      · rintro rfl
        revert h
        decide
      · rintro rfl
        revert h
        decide
    simp only [step, stringStep, hne.1, hne.2, h, if_true, if_false, Option.map_some]
  | @escape c cs h _ ih =>
    refine (ih.cons ?_ hc).cons rfl hc
    have hne : c ≠ 'u' := by
      rintro rfl
      revert h
      decide
    simp only [step, stringStep, hne, h, if_true, if_false, Option.map_some]
  | unicode ha hb hc' hd _ ih =>
    have hlast := (ih.cons (step_lastHex hd) hc).cons (step_hex 0 hc') hc
    have hdigits := hlast.cons (step_hex 1 hb) hc
    exact ((hdigits.cons (step_hex 2 ha) hc).cons rfl hc).cons rfl hc

theorem bounded_digits (hmode : mode ∈ [NumberMode.integer, .fraction, .power]) (h : Digits cs)
    (hks : ks.length ≤ depth) (hk : k ≤ begun) :
    Bounded depth begun ⟨ks, k, .number mode⟩ cs ⟨ks, k, .number mode⟩ := by
  induction cs with
  | nil => exact bounded_nil ⟨hks, hk⟩
  | cons c cs ih =>
    refine (ih fun c hc => h c (List.mem_cons_of_mem _ hc)).cons ?_ ⟨hks, hk⟩
    have hdigit := h c List.mem_cons_self
    simp only [List.mem_cons, List.not_mem_nil, or_false] at hmode
    rcases hmode with rfl | rfl | rfl <;> simp only [step, numberStep, hdigit, if_true]

theorem digit_ne {c : Char} (h : isDigit c = true) :
    c ≠ '+' ∧ c ≠ '-' ∧ c ≠ '.' ∧ c ≠ 'e' ∧ c ≠ 'E' := by
  refine ⟨?_, ?_, ?_, ?_, ?_⟩
  all_goals
    rintro rfl
    revert h
    decide

theorem bounded_exponent (hmode : mode ∈ [NumberMode.zero, .integer, .fraction]) (h : Exponent cs)
    (hks : ks.length ≤ depth) (hk : k ≤ begun) :
    ∃ mode', numberEnds mode' = true ∧
      Bounded depth begun ⟨ks, k, .number mode⟩ cs ⟨ks, k, .number mode'⟩ := by
  have hc := And.intro hks hk
  have hexp : ∀ e, e = 'e' ∨ e = 'E' →
      step ⟨ks, k, .number mode⟩ e = some ⟨ks, k, .number .exponent⟩ := by
    simp only [List.mem_cons, List.not_mem_nil, or_false] at hmode
    rintro e (rfl | rfl) <;> rcases hmode with rfl | rfl | rfl <;> rfl
  cases h with
  | none =>
    refine ⟨mode, ?_, bounded_nil hc⟩
    simp only [List.mem_cons, List.not_mem_nil, or_false] at hmode
    rcases hmode with rfl | rfl | rfl <;> rfl
  | @digits e c cs he h hcs =>
    refine ⟨.power, rfl, .cons (hexp e he) hc (.cons ?_ hc (bounded_digits (by decide) hcs hks hk))⟩
    simp only [step, numberStep, (digit_ne h).1, (digit_ne h).2.1, or_self, h, if_true, if_false]
  | @signed e s c cs he hs h hcs =>
    have hsign : step ⟨ks, k, .number .exponent⟩ s = some ⟨ks, k, .number .sign⟩ := by
      simp only [step, numberStep, hs, if_true]
    refine ⟨.power, rfl, .cons (hexp e he) hc (.cons hsign hc (.cons ?_ hc
      (bounded_digits (by decide) hcs hks hk)))⟩
    simp only [step, numberStep, h, if_true]

theorem bounded_fraction (hmode : mode ∈ [NumberMode.zero, .integer]) (h : Fraction cs)
    (hks : ks.length ≤ depth) (hk : k ≤ begun) :
    ∃ mode' ∈ [NumberMode.zero, .integer, .fraction],
      Bounded depth begun ⟨ks, k, .number mode⟩ cs ⟨ks, k, .number mode'⟩ := by
  have hc := And.intro hks hk
  simp only [List.mem_cons, List.not_mem_nil, or_false] at hmode
  cases h with
  | none =>
    refine ⟨mode, ?_, bounded_nil hc⟩
    rcases hmode with rfl | rfl <;> decide
  | @digits c cs h hcs =>
    have hpoint : step ⟨ks, k, .number mode⟩ '.' = some ⟨ks, k, .number .point⟩ := by
      rcases hmode with rfl | rfl <;> rfl
    refine ⟨.fraction, by decide, .cons hpoint hc (.cons ?_ hc
      (bounded_digits (by decide) hcs hks hk))⟩
    simp only [step, numberStep, h, if_true]

theorem bounded_integer {c : Config} (h : Integer cs)
    (hc : c.containers.length ≤ depth ∧ c.begun ≤ begun) (hks : ks.length ≤ depth) (hk : k ≤ begun)
    (hzero : step c '0' = some ⟨ks, k, .number .zero⟩)
    (hlead : ∀ ch, isLeading ch = true → step c ch = some ⟨ks, k, .number .integer⟩) :
    ∃ mode ∈ [NumberMode.zero, .integer], Bounded depth begun c cs ⟨ks, k, .number mode⟩ := by
  cases h with
  | zero => exact ⟨.zero, by decide, (bounded_nil ⟨hks, hk⟩).cons hzero hc⟩
  | leading h hcs =>
    exact ⟨.integer, by decide, (bounded_digits (by decide) hcs hks hk).cons (hlead _ h) hc⟩

end Scalars

section Values

variable {ks : List Container} {k : Nat} {mode : Mode} {ch : Char}

def Mode.awaits (mode : Mode) : Prop := mode = .value ∨ mode = .first

def Mode.awaitsName (mode : Mode) : Prop := mode = .name ∨ mode = .firstName

theorem step_awaits (hmode : mode.awaits) (hch : ch ≠ ']') :
    step ⟨ks, k, mode⟩ ch = valueStep ⟨ks, k, mode⟩ ch := by
  rcases hmode with rfl | rfl
  · rfl
  · exact if_neg hch

theorem leading_ne {c : Char} (h : isLeading ch = true) (hc : isLeading c = false) : ch ≠ c := by
  rintro rfl
  rw [hc] at h
  cases h

theorem valueStep_leading (ks : List Container) (k : Nat) (mode : Mode) (h : isLeading ch = true) :
    valueStep ⟨ks, k, mode⟩ ch = some ⟨ks, k + 1, .number .integer⟩ := by
  have hblank : isBlank ch = false := by
    simp only [isBlank, List.contains_eq_mem, List.mem_cons, List.not_mem_nil, or_false,
      leading_ne h (show isLeading ' ' = false by decide),
      leading_ne h (show isLeading '\t' = false by decide),
      leading_ne h (show isLeading '\n' = false by decide),
      leading_ne h (show isLeading '\r' = false by decide), decide_false]
  simp only [valueStep, hblank, leading_ne h (show isLeading '"' = false by decide),
    leading_ne h (show isLeading '[' = false by decide),
    leading_ne h (show isLeading '{' = false by decide),
    leading_ne h (show isLeading '-' = false by decide),
    leading_ne h (show isLeading '0' = false by decide), h, Bool.false_eq_true, if_false, if_true]

variable {begun depth : Nat}

theorem bounded_number {cs : List Char} (h : Number cs) (hmode : mode.awaits)
    (hks : ks.length ≤ depth) (hk : k + 1 ≤ begun) :
    ∃ m, m.ends = true ∧ Bounded depth begun ⟨ks, k, mode⟩ cs ⟨ks, k + 1, m⟩ := by
  have hc : ks.length ≤ depth ∧ k ≤ begun := ⟨hks, Nat.le_of_succ_le hk⟩
  have hrest : ∀ {c : Config} {is fs es : List Char},
      c.containers.length ≤ depth ∧ c.begun ≤ begun → Integer is → Fraction fs → Exponent es →
      step c '0' = some ⟨ks, k + 1, .number .zero⟩ →
      (∀ ch, isLeading ch = true → step c ch = some ⟨ks, k + 1, .number .integer⟩) →
      ∃ m, m.ends = true ∧ Bounded depth begun c (is ++ fs ++ es) ⟨ks, k + 1, m⟩ := by
    intro c is fs es hc hi hf he hzero hlead
    rcases bounded_integer hi hc hks hk hzero hlead with ⟨m₁, hm₁, hread₁⟩
    rcases bounded_fraction hm₁ hf hks hk with ⟨m₂, hm₂, hread₂⟩
    rcases bounded_exponent hm₂ he hks hk with ⟨m₃, hm₃, hread₃⟩
    exact ⟨.number m₃, hm₃, (hread₁.append hread₂).append hread₃⟩
  cases h with
  | positive hi hf he =>
    refine hrest hc hi hf he ?_ fun ch hch => ?_
    · rw [step_awaits hmode (by decide)]
      rfl
    · rw [step_awaits hmode (leading_ne hch (by decide)), valueStep_leading ks k mode hch]
  | negative hi hf he =>
    have hminus : step ⟨ks, k, mode⟩ '-' = some ⟨ks, k + 1, .number .minus⟩ := by
      rw [step_awaits hmode (by decide)]
      rfl
    have hlead : ∀ ch, isLeading ch = true →
        step ⟨ks, k + 1, .number .minus⟩ ch = some ⟨ks, k + 1, .number .integer⟩ := by
      intro ch hch
      have hne : ch ≠ '0' := by
        rintro rfl
        revert hch
        decide
      simp only [step, numberStep, hne, hch, if_true, if_false]
    rcases hrest ⟨hks, hk⟩ hi hf he rfl hlead with ⟨m, hm, hread⟩
    exact ⟨m, hm, hread.cons hminus hc⟩

theorem bounded_word (word : Word) (hmode : mode.awaits) (hks : ks.length ≤ depth)
    (hk : k + 1 ≤ begun) :
    Bounded depth begun ⟨ks, k, mode⟩ word.chars ⟨ks, k + 1, .literal word word.chars.length⟩ := by
  have hc : ks.length ≤ depth ∧ k ≤ begun := ⟨hks, Nat.le_of_succ_le hk⟩
  have hc' := And.intro hks hk
  cases word with
  | true =>
    refine Bounded.cons ((step_awaits hmode (by decide)).trans rfl) hc ?_
    exact (((bounded_nil hc').cons rfl hc').cons rfl hc').cons rfl hc'
  | false =>
    refine Bounded.cons ((step_awaits hmode (by decide)).trans rfl) hc ?_
    exact ((((bounded_nil hc').cons rfl hc').cons rfl hc').cons rfl hc').cons rfl hc'
  | null =>
    refine Bounded.cons ((step_awaits hmode (by decide)).trans rfl) hc ?_
    exact (((bounded_nil hc').cons rfl hc').cons rfl hc').cons rfl hc'

end Values

def Symbol.begins : Symbol → Config → Prop
  | .value, c => c.mode.awaits
  | .element, c => c.mode.awaits
  | .elements, c => c.mode.awaits ∧ c.containers.head? = some .array
  | .member, c => c.mode.awaitsName
  | .members, c => c.mode.awaitsName ∧ c.containers.head? = some .object

theorem bounded_container {kind : Container} {opening closing : Char}
    (hopen : step ⟨ks, k, mode⟩ opening = some ⟨kind :: ks, k + 1, mode'⟩)
    (hread : Bounded ((kind :: ks).length + d) (k + 1 + n) ⟨kind :: ks, k + 1, mode'⟩ cs
      ⟨kind :: ks, k + 1 + n, m⟩)
    (hclose : step ⟨kind :: ks, k + 1 + n, m⟩ closing = some ⟨ks, k + 1 + n, .after⟩) :
    Bounded (ks.length + (d + 1)) (k + (n + 1)) ⟨ks, k, mode⟩ (opening :: (cs ++ [closing]))
      ⟨ks, k + (n + 1), .after⟩ := by
  have hlen : (kind :: ks).length + d = ks.length + (d + 1) := by
    rw [length_cons]
    omega
  have hcount : k + 1 + n = k + (n + 1) := by omega
  rw [hlen, hcount] at hread
  rw [hcount] at hclose
  exact Bounded.cons hopen ⟨Nat.le_add_right _ _, Nat.le_add_right _ _⟩
    (hread.snoc hclose ⟨Nat.le_add_right _ _, Nat.le_refl _⟩)

theorem bounded_comma {d' n' : Nat} {m' : Mode} {es : List Char}
    (hread : Bounded (ks.length + d) (k + n) ⟨ks, k, mode⟩ cs ⟨ks, k + n, m⟩)
    (hcomma : step ⟨ks, k + n, m⟩ ',' = some ⟨ks, k + n, mode'⟩)
    (hrest : Bounded (ks.length + d') (k + n + n') ⟨ks, k + n, mode'⟩ es ⟨ks, k + n + n', m'⟩) :
    Bounded (ks.length + max d d') (k + (n + n')) ⟨ks, k, mode⟩ (cs ++ ',' :: es)
      ⟨ks, k + (n + n'), m'⟩ := by
  rw [Nat.add_assoc k n n'] at hrest
  have hle : ks.length + d ≤ ks.length + max d d' := Nat.add_le_add_left (Nat.le_max_left _ _) _
  have hle' : ks.length + d' ≤ ks.length + max d d' := Nat.add_le_add_left (Nat.le_max_right _ _) _
  exact (hread.mono hle (by omega)).append
    (.cons hcomma ⟨Nat.le_add_right _ _, by dsimp only; omega⟩ (hrest.mono hle' (Nat.le_refl _)))

theorem bounded_of_derives {s : Symbol} (h : Derives s cs d n) :
    ∀ {ks : List Container} {k : Nat} {mode : Mode}, s.begins ⟨ks, k, mode⟩ →
      ∃ m, m.ends = true ∧ Bounded (ks.length + d) (k + n) ⟨ks, k, mode⟩ cs ⟨ks, k + n, m⟩ := by
  induction h with
  | string h =>
    intro ks k mode hmode
    exact ⟨.after, rfl, Bounded.cons ((step_awaits hmode (by decide)).trans rfl)
      ⟨Nat.le_refl _, Nat.le_succ _⟩ (bounded_string false h (Nat.le_refl _) (Nat.le_refl _))⟩
  | number h => exact fun hmode => bounded_number h hmode (Nat.le_refl _) (Nat.le_refl _)
  | literal word =>
    intro ks k mode hmode
    refine ⟨.literal word word.chars.length, decide_eq_true (Nat.le_refl _), ?_⟩
    exact bounded_word word hmode (Nat.le_refl _) (Nat.le_refl _)
  | emptyArray h =>
    intro ks k mode hmode
    have hdepth : (Container.array :: ks).length ≤ ks.length + 1 := Nat.le_refl _
    exact ⟨.after, rfl, Bounded.cons ((step_awaits hmode (by decide)).trans rfl)
      ⟨Nat.le_succ _, Nat.le_succ _⟩ ((bounded_blanks h hdepth (Nat.le_refl _) fun c hc =>
        step_blank_of_starts hc (by decide)).snoc rfl ⟨Nat.le_succ _, Nat.le_refl _⟩)⟩
  | array _ ih =>
    intro ks k mode hmode
    rcases @ih (.array :: ks) (k + 1) _ ⟨.inr rfl, rfl⟩ with ⟨m, hm, hread⟩
    exact ⟨.after, rfl, bounded_container ((step_awaits hmode (by decide)).trans rfl) hread
      (step_of_ends hm (by decide))⟩
  | emptyObject h =>
    intro ks k mode hmode
    have hdepth : (Container.object :: ks).length ≤ ks.length + 1 := Nat.le_refl _
    exact ⟨.after, rfl, Bounded.cons ((step_awaits hmode (by decide)).trans rfl)
      ⟨Nat.le_succ _, Nat.le_succ _⟩ ((bounded_blanks h hdepth (Nat.le_refl _) fun c hc =>
        step_blank_of_starts hc (by decide)).snoc rfl ⟨Nat.le_succ _, Nat.le_refl _⟩)⟩
  | object _ ih =>
    intro ks k mode hmode
    rcases @ih (.object :: ks) (k + 1) _ ⟨.inr rfl, rfl⟩ with ⟨m, hm, hread⟩
    exact ⟨.after, rfl, bounded_container ((step_awaits hmode (by decide)).trans rfl) hread
      (step_of_ends hm (by decide))⟩
  | element hw _ hw' ih =>
    intro ks k mode hmode
    rcases ih hmode with ⟨m, hm, hread⟩
    rcases bounded_trailing hm hw' (Nat.le_add_right _ _) (Nat.le_refl _) with ⟨m', hm', htrail⟩
    have hstarts : mode ∈ [Mode.value, .first, .name, .firstName, .colon, .after] := by
      rcases hmode with hmode | hmode <;> cases hmode <;> decide
    exact ⟨m', hm', (bounded_blanks hw (Nat.le_add_right _ _) (Nat.le_add_right _ _) fun c hc =>
      step_blank_of_starts hc hstarts).append (hread.append htrail)⟩
  | lastElement _ ih => exact fun hmode => ih hmode.1
  | moreElements _ _ ih ih' =>
    intro ks k mode hmode
    rcases ih hmode.1 with ⟨m, hm, hread⟩
    rcases ih' ⟨.inl rfl, hmode.2⟩ with ⟨m', hm', hrest⟩
    refine ⟨m', hm', bounded_comma hread ((step_of_ends hm (by decide)).trans ?_) hrest⟩
    rcases head?_eq_some_iff.mp hmode.2 with ⟨ks', hks⟩
    cases hks
    rfl
  | @member ws names ws' cs d n hw hk hw' _ ih =>
    intro ks k mode hmode
    rcases @ih ks (k + 1) .value (.inl rfl) with ⟨m, hm, hread⟩
    rw [Nat.add_right_comm k 1 n] at hread
    have hstarts : mode ∈ [Mode.value, .first, .name, .firstName, .colon, .after] := by
      rcases hmode with hmode | hmode <;> cases hmode <;> decide
    have hquote : step ⟨ks, k, mode⟩ '"' = some ⟨ks, k + 1, .string true .plain⟩ := by
      rcases hmode with hmode | hmode <;> cases hmode <;> rfl
    have hdepth : ks.length ≤ ks.length + d := Nat.le_add_right _ _
    have hcount : k ≤ k + n + 1 ∧ k + 1 ≤ k + n + 1 := by omega
    refine ⟨m, hm, (bounded_blanks hw hdepth hcount.1 fun c hc =>
      step_blank_of_starts hc hstarts).append (.cons hquote ⟨hdepth, hcount.1⟩
        ((bounded_string true hk hdepth hcount.2).append
          ((bounded_blanks hw' hdepth hcount.2 fun c hc =>
            step_blank_of_starts hc (by decide)).append (.cons rfl ⟨hdepth, hcount.2⟩ hread))))⟩
  | lastMember _ ih => exact fun hmode => ih hmode.1
  | moreMembers _ _ ih ih' =>
    intro ks k mode hmode
    rcases ih hmode.1 with ⟨m, hm, hread⟩
    rcases ih' ⟨.inl rfl, hmode.2⟩ with ⟨m', hm', hrest⟩
    refine ⟨m', hm', bounded_comma hread ((step_of_ends hm (by decide)).trans ?_) hrest⟩
    rcases head?_eq_some_iff.mp hmode.2 with ⟨ks', hks⟩
    cases hks
    rfl

theorem reading_of_derives {text : List Char} (h : Derives .element text d n) :
    ∃ m, m.ends = true ∧ Bounded d n start text ⟨[], n, m⟩ := by
  rcases @bounded_of_derives _ _ _ _ h [] 0 .value (.inl rfl) with ⟨m, hm, hread⟩
  rw [length_nil, Nat.zero_add, Nat.zero_add] at hread
  exact ⟨m, hm, hread⟩

end Apex.JsonText
