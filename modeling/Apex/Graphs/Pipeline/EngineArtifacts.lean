import Apex.Core.Check
import Apex.Core.Comparison

/-!
# The Artifact Store An Engine Sees

An engine that collects its results is handed a facade of the artifact store. The names it
chooses are hints: what it writes goes into numbered slots below a name that belongs to
the attempt, so that a process that dies and starts over writes to the same slots. Count
and bytes are reserved before the store is asked; what fails is deleted again.

The store and the engine may do anything. What the store answers to each request, and what
it holds afterwards, is part of the call here.

## Main definitions

* `EngineArtifactStoreView`: What the facade knows.
* `ObjectStore`: What the store holds, and the writes it was asked for.
* `put`, `putStream`, `cleanupExcept`: The operations.
-/

namespace Apex.Graphs.EngineArtifacts

def maxEngineArtifactWrites : Nat := 32

def maxEngineArtifactBytesPerObject : Int := 512 * 1024 * 1024

def maxEngineArtifactBytesTotal : Int := 1024 * 1024 * 1024

abbrev Bytes := List UInt8

/-- What an engine hands over, or a stream yields. -/
inductive Chunk where
  | bytes (data : Bytes)
  /-- Something else. -/
  | other
  /-- The stream raises. -/
  | raises

structure StoredArtifact where
  key : String
  uri : String
  size : Int

inductive ArtifactError where
  | value (message : String)
  | runtime (message : String)
  /-- What the store or the stream has raised. -/
  | raised
  deriving DecidableEq

def cannotCompensate : ArtifactError :=
  .runtime "artifact store cannot compensate an incomplete engine write"

def couldNotCompensate : ArtifactError :=
  .runtime "artifact store could not compensate an incomplete engine write"

/-- What the facade uses: how an address is taken apart and quoted, and whether the store can
    delete. -/
structure ArtifactEnv where
  /-- What `validate_uri` says of an address. -/
  uriOk : String → Bool
  /-- `_artifact_uri_matches_key`. -/
  uriMatchesKey : (uri expectedKey : String) → Bool
  /-- `urllib.parse.quote` of a path. -/
  quote : String → String
  /-- `callable(getattr(store, "delete", None))`. -/
  canDelete : Bool

/-- A write the store was asked for: its key, the bytes that were handed over, and what was
    acknowledged, if anything. -/
structure StoreWrite where
  key : String
  sent : Nat
  acknowledged : Option Json

structure ObjectStore where
  objects : String → Option Bytes
  writes : List StoreWrite

/-- What the store answers to a write, and what it holds under the key afterwards. -/
structure WriteAnswer where
  leaves : Option Bytes
  acknowledged : Option Json

inductive DeleteAnswer where
  | returned
  /-- `KeyError` or `FileNotFoundError`. -/
  | missing
  /-- Anything else; the object may be there still. -/
  | raised (removed : Bool)

/-- `_EngineArtifactStoreView`, without its store. -/
structure EngineArtifactStoreView where
  written : Dict (StoredArtifact × String)
  attempted : Dict Int
  requested : List String
  compensated : List String
  reservedBytes : Int

structure Facade where
  view : EngineArtifactStoreView
  store : ObjectStore

def newFacade (objects : String → Option Bytes) : Facade :=
  ⟨⟨∅, ∅, [], [], 0⟩, ⟨objects, []⟩⟩

def fourDigits (slot : Nat) : String :=
  String.ofList (List.replicate (4 - (toString slot).length) '0') ++ toString slot

variable (env : ArtifactEnv) (ns key : String) (maxBytes : Int) (s : Facade) (answer : WriteAnswer)

def slotKey (slot : Nat) : String := ns ++ ("/artifact-" ++ fourDigits slot)

def allSlotKeys : List String :=
  (List.range maxEngineArtifactWrites).map (slotKey ns)

/-- `_key`: the name an engine asks for. -/
def checkKey : Except ArtifactError Unit :=
  raiseIf (!key.startsWith (ns ++ "/") || key == ns ++ "/" || decide (1024 < key.length)
      || hasNul key || key.toList.contains '\\'
      || (key.splitOn "/").any fun part => part == "" || part == "." || part == "..")
    (.value ("execution engine artifact key must remain beneath '" ++ ns ++ "'"))

def checkContentType (contentType : String) : Except ArtifactError Unit :=
  raiseIf (contentType == "" || decide (255 < contentType.length)
      || contentType.toList.any fun c => c == Char.ofNat 0 || c == '\r' || c == '\n')
    (.value "execution engine artifact content type is invalid")

/-- Whether a text holds a character that `StoredArtifact` refuses. -/
def hasControlChar (s : String) : Bool := s.toList.any fun c => c.toNat < 0x20 || c.toNat == 0x7F

/-- `validate_stored_artifact_ack`: nothing is returned where it raises. -/
def validateStoredArtifactAck (value : Json) (expectedKey : String) (expectedSize : Int)
    (maxSize : Option Int) : Option StoredArtifact := do
  let d ← value.dict?
  match d.get? "key", d.get? "uri", d.get? "size" with
  | some (.str key), some (.str uri), some (.int size) =>
    if d.length = 3 ∧ 1 ≤ key.length ∧ key.length ≤ 1024 ∧ 1 ≤ uri.length ∧ uri.length ≤ 4096
        ∧ 0 ≤ size ∧ hasControlChar key = false ∧ env.uriOk uri = true ∧ key = expectedKey
        ∧ size = expectedSize ∧ (maxSize.all fun limit => decide (size ≤ limit)) = true
        ∧ env.uriMatchesKey uri expectedKey = true then
      some ⟨key, uri, size⟩
    else none
  | _, _, _ => none

def canonicalArtifactUri : String :=
  "apex-artifact:///" ++ env.quote key

def reserve (v : EngineArtifactStoreView) (requestedKey : String) (size : Int) :
    Except ArtifactError (String × EngineArtifactStoreView) := do
  raiseIf (v.requested.contains requestedKey)
    (.value "execution engine artifact keys may be attempted only once")
  raiseIf (decide (maxEngineArtifactWrites ≤ v.attempted.length))
    (.value "execution engine artifact write count exceeds the hard limit")
  raiseIf (decide (size < 0) || decide (maxEngineArtifactBytesPerObject < size))
    (.value "execution engine artifact exceeds the per-object byte limit")
  raiseIf (decide (maxEngineArtifactBytesTotal - v.reservedBytes < size))
    (.value "execution engine artifacts exceed the aggregate byte limit")
  let storageKey := slotKey ns v.attempted.length
  pure (storageKey, { v with
    requested := requestedKey :: v.requested
    attempted := v.attempted.set storageKey size
    reservedBytes := v.reservedBytes + size })

/-- What a store holds when something else is under a key. -/
def ObjectStore.with (s : ObjectStore) (key : String) (object : Option Bytes) : ObjectStore :=
  { s with objects := fun k => if k = key then object else s.objects k }

@[simp] theorem ObjectStore.with_objects (s : ObjectStore) (key : String) (object : Option Bytes)
    (k : String) : (s.with key object).objects k = if k = key then object else s.objects k := rfl

def Facade.compensate (key : String) : Facade :=
  ⟨{ s.view with
      compensated := key :: s.view.compensated
      written := s.view.written.filterKeys (· != key) }, s.store.with key none⟩

@[simp] theorem Facade.compensate_store (key : String) :
    (s.compensate key).store = s.store.with key none := rfl

variable (answers : String → DeleteAnswer)

/-- `_cleanup_keys`: whether one of the deletions has failed. -/
def cleanupKeys : List String → Facade → Bool × Facade
  | [], s => (false, s)
  | key :: rest, s =>
    match answers key with
    | .raised removed =>
      let left := if removed then ⟨s.view, s.store.with key none⟩ else s
      (true, (cleanupKeys rest left).2)
    | _ => cleanupKeys rest (s.compensate key)

def cleanupDefinitively (keys : List String) (s : Facade) : Except ArtifactError Unit × Facade :=
  let pending := keys.filter fun key => !s.view.compensated.contains key
  if pending.isEmpty then (.ok (), s)
  else if !env.canDelete then (.error cannotCompensate, s)
  else
    let result := cleanupKeys answers pending s
    (if result.1 then .error couldNotCompensate else .ok (), result.2)

def cleanupExcept (retained : List String) (s : Facade) : Except ArtifactError Unit × Facade :=
  cleanupDefinitively env answers ((allSlotKeys ns).filter fun key => !retained.contains key) s

/-- `except BaseException` of a write: the key is deleted, and what was raised is raised again
    unless that fails. -/
def failed (key : String) (error : ArtifactError)
    (s : Facade) : Except ArtifactError StoredArtifact × Facade :=
  match cleanupDefinitively env answers [key] s with
  | (.ok (), s') => (.error error, s')
  | (.error uncompensated, s') => (.error uncompensated, s')

def Facade.write (key : String) (sent : Nat) (answer : WriteAnswer) : Facade :=
  { s with store :=
      { s.store.with key answer.leaves with
        writes := s.store.writes ++ [⟨key, sent, answer.acknowledged⟩] } }

/-- What was acknowledged is remembered under the canonical address. -/
def Facade.remember (key : String) (stored : StoredArtifact)
    (contentType : String) : Except ArtifactError StoredArtifact × Facade :=
  let stored := { stored with uri := canonicalArtifactUri env key }
  (.ok stored, { s with view := { s.view with
    written := s.view.written.set key (stored, contentType) } })

/-- What is checked of the acknowledgement of a write. -/
def acknowledge (key : String) (size : Int)
    (maxSize : Option Int) : Except ArtifactError StoredArtifact :=
  match answer.acknowledged with
  | none => .error .raised
  | some value =>
    someOr (.runtime "artifact store returned invalid object metadata")
      (validateStoredArtifactAck env value key size maxSize)

/-- `put`, given what the store answers. -/
def put (data : Chunk) (contentType : String) (answer : WriteAnswer)
    (deletes : String → DeleteAnswer) (s : Facade) :
    Except ArtifactError StoredArtifact × Facade :=
  match checkKey ns key, checkContentType contentType, data with
  | .ok _, .ok _, .bytes bytes =>
    match reserve ns s.view key bytes.length with
    | .error e => (.error e, s)
    | .ok (storageKey, view) =>
      let s := Facade.write ⟨view, s.store⟩ storageKey bytes.length answer
      match acknowledge env answer storageKey bytes.length none with
      | .error e => failed env deletes storageKey e s
      | .ok stored => s.remember env storageKey stored contentType
  | .error e, _, _ => (.error e, s)
  | _, .error e, _ => (.error e, s)
  | _, _, _ => (.error (.value "execution engine artifact data must be bytes"), s)

/-- `counted_stream`, while the store reads it. -/
structure CountedStream where
  rest : List Chunk
  consumed : Nat
  exhausted : Bool
  finished : Bool

/-- The store reads once. A stream that has raised is at its end. -/
def CountedStream.read (c : CountedStream) : CountedStream :=
  if c.finished then c
  else
    match c.rest with
    | [] => { c with exhausted := true, finished := true }
    | .bytes data :: rest =>
      if maxBytes - c.consumed < data.length then { c with rest := rest, finished := true }
      else { c with rest := rest, consumed := c.consumed + data.length }
    | _ :: rest => { c with rest := rest, finished := true }

def CountedStream.reads : Nat → CountedStream → CountedStream
  | 0, c => c
  | n + 1, c => CountedStream.reads n (c.read maxBytes)

/-- The acknowledgement of a stream, which has to be read to its end. -/
def acknowledgeStream (key : String) (maxBytes : Int)
    (c : CountedStream) : Except ArtifactError StoredArtifact := do
  let stored ← acknowledge env answer key c.consumed (some maxBytes)
  raiseIf (!c.exhausted) (.runtime "artifact store did not consume the complete artifact stream")
  pure stored

/-- What was reserved for a stream and not needed is given back. -/
def EngineArtifactStoreView.refund (v : EngineArtifactStoreView) (key : String) (maxBytes : Int)
    (consumed : Nat) : EngineArtifactStoreView :=
  { v with
    reservedBytes := v.reservedBytes - (maxBytes - consumed)
    attempted := v.attempted.set key consumed }

/-- `put_stream`, given how often the store reads and what it answers. -/
def putStream (stream : List Chunk) (contentType : String) (maxBytes : Int) (reads : Nat)
    (answer : WriteAnswer) (deletes : String → DeleteAnswer) (s : Facade) :
    Except ArtifactError StoredArtifact × Facade :=
  if maxBytes < 1 then
    (.error (.value "execution engine artifact max_bytes must be a positive integer"), s)
  else
    match checkKey ns key, checkContentType contentType with
    | .ok _, .ok _ =>
      match reserve ns s.view key maxBytes with
      | .error e => (.error e, s)
      | .ok (storageKey, view) =>
        let c := CountedStream.reads maxBytes reads ⟨stream, 0, false, false⟩
        let s := Facade.write ⟨view, s.store⟩ storageKey c.consumed answer
        match acknowledgeStream env answer storageKey maxBytes c with
        | .error e => failed env deletes storageKey e s
        | .ok stored =>
          Facade.remember env ⟨s.view.refund storageKey maxBytes c.consumed, s.store⟩
            storageKey stored contentType
    | .error e, _ => (.error e, s)
    | _, .error e => (.error e, s)

/-- A call of an engine, with what the store does to it. -/
inductive ArtifactCall where
  | put (key : String) (data : Chunk) (contentType : String) (answer : WriteAnswer)
      (deletes : String → DeleteAnswer)
  | putStream (key : String) (stream : List Chunk) (contentType : String) (maxBytes : Int)
      (reads : Nat) (answer : WriteAnswer) (deletes : String → DeleteAnswer)

def ArtifactCall.perform :
    ArtifactCall → Except ArtifactError StoredArtifact × Facade
  | .put key data contentType answer deletes =>
    EngineArtifacts.put env ns key data contentType answer deletes s
  | .putStream key stream contentType maxBytes reads answer deletes =>
    EngineArtifacts.putStream env ns key stream contentType maxBytes reads answer deletes s

def performAll (calls : List ArtifactCall) :
    Facade :=
  calls.foldl (fun s call => (call.perform env ns s).2) s

end Apex.Graphs.EngineArtifacts
