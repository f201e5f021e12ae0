import Apex.Core.Traversal
import Apex.Domain.Diagnostics

/-!
# The Credential Scanner On Value Graphs

In memory a document is no tree: lists, tuples and mappings are objects that may be shared,
and may contain themselves. The scanner keeps a stack of values and suspended iterators, and
the identities of the objects it has entered, so that it goes through each of them once.

The objects are given by what each identity holds. `scanTurn` is one turn of the scanner's
loop: the frame on top of the stack is popped, an iterator yields its next member and is put
back below it, and a value is counted, accounted for and entered. The budget of nodes is
looked at twice, before a member is taken and when a value is counted.

## Main definitions

* `GraphValue`, `GraphObject`: Values, and what objects hold.
* `containsCredentialMaterialIn`: The scan of a value.
-/

namespace Apex.Domain

/-- A key of a mapping: a text, or an object of any other type. -/
inductive GraphKey
  | text (key : String)
  | other

/-- A value: `None`, a boolean or a number, a text, or a reference to an object. -/
inductive GraphValue (ρ : Type)
  | scalar
  | text (text : String)
  | object (r : ρ)

/-- What an object holds: the members of a list or a tuple, or the items of a mapping. -/
inductive GraphObject (ρ : Type)
  | sequence (members : List (GraphValue ρ))
  | mapping (items : List (GraphKey × GraphValue ρ))

/-- A frame of the stack: a value, or an iterator by what it has still to yield. -/
inductive Frame (ρ : Type)
  | value (current : GraphValue ρ)
  | sequence (rest : List (GraphValue ρ))
  | mapping (rest : List (GraphKey × GraphValue ρ))

structure GraphScan (ρ : Type) where
  stack : List (Frame ρ)
  seen : Finset ρ
  counters : ScanState

/-- `iter(current)`, or `iter(current.items())`. -/
def GraphObject.iter {ρ : Type} : GraphObject ρ → Frame ρ
  | .sequence members => .sequence members
  | .mapping items => .mapping items

section

variable {ρ : Type} (rules : CredentialRules) (lim : ScanLimits)

/-- `safe_key`: only texts are keys. -/
def safeGraphKey (key : GraphKey) (s : ScanState) : Option ScanState :=
  match key with
  | .text key => safeKey rules lim key s
  | .other => none

def safeText (text : String) (s : ScanState) : Option ScanState :=
  match accountText lim text false s with
  | none => none
  | some s =>
    if boundedDiagnostic rules text (max 1 (min text.length lim.maxStringChars)) != text
    then none
    else some s

variable [DecidableEq ρ] (heap : ρ → GraphObject ρ)

/-- A value is popped: it is counted, and judged or entered. -/
def scanCurrent (current : GraphValue ρ) (stack : List (Frame ρ)) (seen : Finset ρ)
    (counters : ScanState) : Bool ⊕ GraphScan ρ :=
  let counters := { counters with nodes := counters.nodes + 1 }
  if lim.maxNodes < counters.nodes then .inl true
  else
    match current with
    | .text text =>
      match safeText rules lim text counters with
      | none => .inl true
      | some counters => .inr ⟨stack, seen, counters⟩
    | .scalar => .inr ⟨stack, seen, counters⟩
    | .object r =>
      if r ∈ seen then .inr ⟨stack, seen, counters⟩
      else .inr ⟨(heap r).iter :: stack, insert r seen, counters⟩

/-- One turn of the loop: the answer, or the scanner after it. -/
def scanTurn (s : GraphScan ρ) : Bool ⊕ GraphScan ρ :=
  match s.stack with
  | [] => .inl false
  | .sequence [] :: stack => .inr ⟨stack, s.seen, s.counters⟩
  | .mapping [] :: stack => .inr ⟨stack, s.seen, s.counters⟩
  | .sequence (child :: rest) :: stack =>
    if lim.maxNodes ≤ s.counters.nodes then .inl true
    else .inr ⟨.value child :: .sequence rest :: stack, s.seen, s.counters⟩
  | .mapping ((rawKey, nested) :: rest) :: stack =>
    if lim.maxNodes ≤ s.counters.nodes then .inl true
    else
      match safeGraphKey rules lim rawKey s.counters with
      | none => .inl true
      | some counters => .inr ⟨.value nested :: .mapping rest :: stack, s.seen, counters⟩
  | .value current :: stack => scanCurrent rules lim heap current stack s.seen s.counters

/-- The loop, for as many turns; `none` where it has not come to an answer. -/
def scanFor : Nat → GraphScan ρ → Option Bool
  | 0, _ => none
  | turns + 1, s =>
    match scanTurn rules lim heap s with
    | .inl answer => some answer
    | .inr s => scanFor turns s

/-- `contains_credential_material(value)`, by as many turns of its loop. -/
def containsCredentialMaterialIn (turns : Nat) (value : GraphValue ρ) : Option Bool :=
  scanFor rules lim heap turns ⟨[.value value], ∅, ⟨0, 0⟩⟩

end

section

variable {ρ : Type}

def GraphObject.members : GraphObject ρ → List (GraphValue ρ)
  | .sequence members => members
  | .mapping items => items.map Prod.snd

def GraphObject.keys : GraphObject ρ → List GraphKey
  | .sequence _ => []
  | .mapping items => items.map Prod.fst

/-- What is reachable in a value: the value, and the members of every object that is. -/
inductive Part (heap : ρ → GraphObject ρ) (value : GraphValue ρ) : GraphValue ρ → Prop
  | self : Part heap value value
  | member {r : ρ} {nested : GraphValue ρ} (h : Part heap value (.object r))
      (hmem : nested ∈ (heap r).members) : Part heap value nested

def GraphValue.chars : GraphValue ρ → Nat
  | .text s => s.length
  | _ => 0

def GraphKey.chars : GraphKey → Nat
  | .text key => key.length
  | .other => 0

/-- The characters an object accounts for: those of its keys and of its texts. -/
def GraphObject.chars (object : GraphObject ρ) : Nat :=
  (object.keys.map GraphKey.chars).sum + (object.members.map GraphValue.chars).sum

open scoped Classical in
/-- The references that are visited: the one to the value, and every member of every object
    that is reachable, where an object counts once however often it is referred to. -/
noncomputable def visitedReferences [Fintype ρ] (heap : ρ → GraphObject ρ)
    (value : GraphValue ρ) : Nat :=
  1 + ∑ r with Part heap value (.object r), (heap r).members.length

open scoped Classical in
/-- The characters of the texts and keys that are visited. -/
noncomputable def visitedChars [Fintype ρ] (heap : ρ → GraphObject ρ)
    (value : GraphValue ρ) : Nat :=
  value.chars + ∑ r with Part heap value (.object r), (heap r).chars

/-- What the scanner is to find in a value: every text that is reachable passes, every key
    that is is a text and passes, and what is visited is within the budgets. -/
structure Clean [Fintype ρ] (rules : CredentialRules) (lim : ScanLimits)
    (heap : ρ → GraphObject ρ) (value : GraphValue ρ) : Prop where
  texts : ∀ text, Part heap value (.text text) → textOk rules lim.maxStringChars text = true
  keys : ∀ r, Part heap value (.object r) → ∀ key ∈ (heap r).keys,
    ∃ name, key = .text name ∧ keyOk rules lim.maxKeyChars name = true
  references : visitedReferences heap value ≤ lim.maxNodes
  chars : visitedChars heap value ≤ lim.maxTotalChars

inductive Deleted : GraphObject ρ → GraphObject ρ → Prop
  | sequence {fewer members : List (GraphValue ρ)} (h : fewer.Sublist members) :
      Deleted (.sequence fewer) (.sequence members)
  | mapping {fewer items : List (GraphKey × GraphValue ρ)} (h : fewer.Sublist items) :
      Deleted (.mapping fewer) (.mapping items)

/-- As many turns as any scan of a value takes. -/
def enoughTurns [Fintype ρ] (heap : ρ → GraphObject ρ) : Nat :=
  2 + ∑ r, (2 * (heap r).members.length + 1)

end

end Apex.Domain
