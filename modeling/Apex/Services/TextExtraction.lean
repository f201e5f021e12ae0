import Apex.Core.Trail
import Apex.Core.TrimLines

/-!
# Text Extraction

The builder that normalises an extracted text while it arrives, and keeps only
its beginning.

`Builder` holds the characters that certainly belong to the result, and the
white space that may turn out to lie inside it: the part in front of the
unfinished line (`outer`) and the part at the end of that line (`line`). Each of
the three counts all its characters and keeps at most as many as the limit
lets it. The methods are trails, so that what holds between two writes can be
said as well as what they leave.

## Main definitions

* `Builder`: The state of `_NormalizedTextBuilder`.
* `feed`: Take one chunk of the text.
* `finish`: What the builder gives in the end.
* `normalForm`: What is to be computed, from the whole text.
-/

namespace Apex.Services

open Apex.Trail

/-- The characters `feed` looks at together. -/
def normalizeChunkChars : Nat := 64 * 1024

/-- White space that waits: its length, and the beginning of it that is kept. -/
structure Pending where
  count : Nat
  parts : List (List Char)
  retained : Nat
  deriving Repr, DecidableEq

def Pending.empty : Pending := ⟨0, [], 0⟩

variable (text : List Char) (b : Builder)

/-- `_prefix_for_pending`: what of a text is kept when so much is kept already. -/
def prefixForPending (room : Option Nat) (retained : Nat) : List Char :=
  match room with
  | none => text
  | some room => text.take (room - retained)

def Pending.keep (p : Pending) (text : List Char) (room : Option Nat) : Pending :=
  let kept := prefixForPending text room p.retained
  if kept = [] then p
  else { p with parts := p.parts ++ [kept], retained := p.retained + kept.length }

/-- Count a text and keep what there is room for. -/
def Pending.add (p : Pending) (text : List Char) (room : Option Nat) : Pending :=
  ({ p with count := p.count + text.length } : Pending).keep text room

structure Builder where
  limit : Option Nat
  parts : List (List Char)
  retainedChars : Nat
  charCount : Nat
  started : Bool
  outer : Pending
  line : Pending
  pendingCr : Bool
  deriving Repr, DecidableEq

structure BoundedText where
  text : String
  charCount : Nat
  deriving Repr, DecidableEq

/-- `__init__`: a negative bound is none. -/
def Builder.new (maxChars : Option Int) : Builder :=
  { limit := match maxChars with
      | none => none
      | some n => if n ≥ 0 then some n.toNat else none
    parts := [], retainedChars := 0, charCount := 0, started := false
    outer := .empty, line := .empty, pendingCr := false }

def Builder.retentionRoom : Option Nat :=
  b.limit.map fun limit => limit - b.retainedChars

def Builder.setLine (p : Pending) (b : Builder) : Builder := { b with line := p }

def Builder.setOuter (p : Pending) (b : Builder) : Builder := { b with outer := p }

def addLinePending : Trail Builder :=
  if text = [] then skip else write fun b => b.setLine (b.line.add text b.retentionRoom)

def addOuterPending : Trail Builder :=
  if text = [] then skip else write fun b => b.setOuter (b.outer.add text b.retentionRoom)

def discardLinePending : Trail Builder := write (Builder.setLine .empty)

def discardOuterPending : Trail Builder := write (Builder.setOuter .empty)

def moveLinePendingToOuter : Trail Builder :=
  look fun b =>
    if b.line.count = 0 then skip
    else
      (write fun b => b.setOuter { b.outer with count := b.outer.count + b.line.count }).andThen
        ((each (fun part => write fun c => c.setOuter (c.outer.keep part b.retentionRoom))
          b.line.parts).andThen discardLinePending)

def Builder.commitPart (kept : List Char) (b : Builder) : Builder :=
  if kept = [] then b
  else { b with parts := b.parts ++ [kept], retainedChars := b.retainedChars + kept.length }

def Builder.countChars (n : Nat) (b : Builder) : Builder := { b with charCount := b.charCount + n }

def appendCommitted : Trail Builder :=
  if text = [] then skip
  else
    (write (Builder.countChars text.length)).andThen
      (write fun b => b.commitPart (prefixForPending text b.retentionRoom 0))

/-- The beginnings of the parts that fit into what remains. -/
def takeParts : Nat → List (List Char) → List (List Char)
  | _, [] => []
  | remaining, part :: rest =>
    if remaining = 0 then []
    else
      let kept := part.take remaining
      kept :: takeParts (remaining - kept.length) rest

/-- The parts of the white space that `_commit_outer_pending` keeps. -/
def keptParts (room : Option Nat) (parts : List (List Char)) : List (List Char) :=
  match room with
  | none => parts
  | some room => takeParts room parts

def commitOuterPending : Trail Builder :=
  look fun b =>
    if b.outer.count = 0 then skip
    else
      (write (Builder.countChars b.outer.count)).andThen
        ((each (fun part => write (Builder.commitPart part))
          (keptParts b.retentionRoom b.outer.parts)).andThen discardOuterPending)

def Builder.start : Builder := { b with started := true }

/-- `_confirm_non_whitespace`: the text ends in a character that is not white
    space. -/
def confirmNonWhitespace : Trail Builder :=
  moveLinePendingToOuter.andThen
    (look fun b =>
      if b.started then commitOuterPending.andThen (appendCommitted text)
      else
        discardOuterPending.andThen
          (let text := text.dropWhile isPySpace
           if text = [] then skip else (write Builder.start).andThen (appendCommitted text)))

/-- `_feed_line_segment`: a text without line ends. -/
def feedLineSegment : Trail Builder :=
  if text = [] then skip
  else
    let core := text.rdropWhile isPySpace
    (if core = [] then skip else confirmNonWhitespace core).andThen
      (addLinePending (text.drop core.length))

def lineBreak : Trail Builder := discardLinePending.andThen (addOuterPending ['\n'])

/-- `text.replace("\r\n", "\n")`. -/
def replaceCrLf : List Char → List Char
  | [] => []
  | '\r' :: '\n' :: rest => '\n' :: replaceCrLf rest
  | c :: rest => c :: replaceCrLf rest

def replaceCr : List Char := text.map fun c => if c = '\r' then '\n' else c

/-- The runs of line ends that `_NEWLINE_RUN_RE` finds, each with the text in
    front of it, and the text behind the last one. -/
def newlineRuns : List Char → List (List Char × List Char) × List Char
  | [] => ([], [])
  | c :: rest =>
    match newlineRuns rest with
    | ([], tail) => if c = '\n' then ([([], [c])], tail) else ([], c :: tail)
    | ((segment, run) :: more, tail) =>
      if c = '\n' then
        if segment = [] then (([], c :: run) :: more, tail)
        else (([], [c]) :: (segment, run) :: more, tail)
      else ((c :: segment, run) :: more, tail)

def Builder.setPendingCr (pending : Bool) (b : Builder) : Builder := { b with pendingCr := pending }

/-- The rest of `_feed_chunk`, when no carriage return is pending: a carriage
    return at the end waits for the next chunk. -/
def feedNormalized : Trail Builder :=
  let deferred := text.getLast? = some '\r'
  let text := if deferred then text.dropLast else text
  let (runs, tail) := newlineRuns (replaceCr (replaceCrLf text))
  (if deferred then write (Builder.setPendingCr true) else skip).andThen
    ((each (fun (segment, run) =>
        (feedLineSegment segment).andThen (discardLinePending.andThen (addOuterPending run)))
      runs).andThen (feedLineSegment tail))

def feedChunk : Trail Builder :=
  if text = [] then skip
  else
    look fun b =>
      if b.pendingCr then
        let text := if text.head? = some '\n' then text.tail else text
        lineBreak.andThen ((write (Builder.setPendingCr false)).andThen
          (if text = [] then skip else feedNormalized text))
      else feedNormalized text

/-- `text[offset : offset + size] for offset in range(0, len(text), size)`. -/
def pieces (size : Nat) (text : List Char) : List (List Char) :=
  (List.range ((text.length + size - 1) / size)).map fun i => (text.drop (i * size)).take size

def feed (text : String) : Trail Builder := each feedChunk (pieces normalizeChunkChars text.toList)

/-- `finish`: the white space that still waits is at the end of the document. -/
def finish : Trail Builder := discardLinePending.andThen discardOuterPending

def Builder.result : BoundedText :=
  { text := String.ofList b.parts.flatten, charCount := b.charCount }

/-- Feed the chunks of a text to a new builder and finish it. -/
def normalizeRun (chunks : List String) : Trail Builder := (each feed chunks).andThen finish

/-- What the builder gives for the chunks of a text. -/
def normalizeChunks (maxChars : Option Int) (chunks : List String) : BoundedText :=
  ((normalizeRun chunks).last (Builder.new maxChars)).result

/-- The characters a builder holds on to, in its three buffers. -/
def Builder.held : Nat :=
  b.parts.flatten.length + b.outer.parts.flatten.length + b.line.parts.flatten.length

/-- A normalised text, as the documentation of the builder has it: line ends
    become LF, every line and the document are trimmed. -/
def normalForm (text : String) : List Char :=
  trimLines isPySpace '\n' (replaceCr (replaceCrLf text.toList))

/-- The first characters of a text, all of them when there is no bound. -/
def firstChars (maxChars : Option Int) (text : List Char) : List Char :=
  match maxChars with
  | none => text
  | some n => if n < 0 then text else text.take n.toNat

/-- `_extract_plaintext`, for what an incremental decoder gives for the chunks
    of the file and at its end. -/
def extractPlaintext (decoded : List String) (maxChars : Int) : BoundedText :=
  normalizeChunks (if maxChars > 0 then some maxChars else none) decoded

end Apex.Services
