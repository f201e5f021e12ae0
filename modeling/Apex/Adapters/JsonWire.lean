import Apex.Core.Check

/-!
# Provider JSON Under Limits

Before a body from a provider is parsed, one pass over its characters counts containers,
strings and scalars. The pass knows no grammar: it tells strings from what is outside of
them, and outside it skips a scalar up to the next delimiter.

## Main definitions

* `WireScan`, `scanChar`: One character of the pass.
* `validateJsonWireLimits`: The pass.
-/

namespace Apex.Adapters

structure WireScan where
  depth : Int := 0
  tokens : Nat := 0
  inString : Bool := false
  escaped : Bool := false
  inScalar : Bool := false

/-- `" \t\r\n,]}:"`, at which a scalar ends. -/
def scalarDelimiters : List Char := [' ', '\t', '\r', '\n', ',', ']', '}', ':']

/-- `" \t\r\n,:"`, which are passed over. -/
def separators : List Char := [' ', '\t', '\r', '\n', ',', ':']

def consumeToken (maxTokens : Nat) (s : WireScan) : Except String WireScan :=
  if maxTokens < s.tokens + 1 then
    .error s!"provider JSON exceeds the {maxTokens}-token structural limit"
  else .ok { s with tokens := s.tokens + 1 }

/-- One character of `_validate_json_wire_limits`. -/
def scanChar (maxDepth maxTokens : Nat) (s : WireScan) (char : Char) : Except String WireScan :=
  if s.inString then
    .ok (if s.escaped then { s with escaped := false }
      else if char = '\\' then { s with escaped := true }
      else if char = '"' then { s with inString := false }
      else s)
  else if s.inScalar && !scalarDelimiters.contains char then .ok s
  else
    let s := { s with inScalar := false }
    if char = '"' then do
      let s ← consumeToken maxTokens s
      pure { s with inString := true }
    else if ['[', '{'].contains char then do
      let s ← consumeToken maxTokens s
      let s := { s with depth := s.depth + 1 }
      if (maxDepth : Int) < s.depth then
        .error s!"provider JSON exceeds the {maxDepth}-level nesting limit"
      else .ok s
    else if [']', '}'].contains char then .ok { s with depth := s.depth - 1 }
    else if separators.contains char then .ok s
    else do
      let s ← consumeToken maxTokens s
      pure { s with inScalar := true }

def validateJsonWireLimits (maxDepth maxTokens : Nat) (text : List Char) : Except String WireScan :=
  text.foldlM (scanChar maxDepth maxTokens) {}

def hardJsonMaxDepth : Nat := 128
def hardJsonMaxTokens : Nat := 1000000

def validateJsonLimits (maxDepth maxTokens : Nat) : Except String Unit := do
  raiseIf (!(decide (1 ≤ maxDepth) && decide (maxDepth ≤ hardJsonMaxDepth)))
    s!"max_depth must be between 1 and {hardJsonMaxDepth}"
  raiseIf (!(decide (1 ≤ maxTokens) && decide (maxTokens ≤ hardJsonMaxTokens)))
    s!"max_tokens must be between 1 and {hardJsonMaxTokens}"

/-- `parse_json_bytes`, from the decoded text on. What the pass or the parser raises is
    not told. -/
def parseJsonText {α : Type} (loads : List Char → Except String α) (context : String)
    (maxDepth maxTokens : Nat) (text : List Char) : Except String α := do
  validateJsonLimits maxDepth maxTokens
  match validateJsonWireLimits maxDepth maxTokens text with
  | .error _ => .error s!"{context} returned invalid JSON"
  | .ok _ =>
    match loads text with
    | .error _ => .error s!"{context} returned invalid JSON"
    | .ok parsed => .ok parsed

end Apex.Adapters
