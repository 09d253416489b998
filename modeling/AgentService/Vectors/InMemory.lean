import AgentService.Concurrent.Debts
import AgentService.Storage.InMemory
import AgentService.Vectors.Records

/-!
# Memories in the in-memory store

`trpcservice/runtime/storage/inmemory/capabilities.go`: `PutMemory`, `DeleteMemory`,
`EnqueueMemoryIndex`, and the worker that writes the vector index. A locked section is one
operation, and so are the sending to the queue of the index and each of the two steps of the worker:
it takes a record from the queue, and then locks the store and compares the record with the present
one. The worker is part of the environment, as are the writers of vectors of other sources. The
store is not closed.
-/

namespace AgentService.Vectors.InMemory

open Concurrent
open Storage (Err CtxErr validateTenant key)

/-- `Store`: the maps of memories and vectors, the queue, and the record that the worker has
taken. -/
structure Store where
  memories : Go.Map MemoryRecord := ∅
  vectors : Go.Map VectorRecord := ∅
  indexQueue : List MemoryRecord := []
  worker : Option MemoryRecord := none

/-- The capacity of the queue. -/
def queueSize : ℕ := 128

/-- The key of a memory in the map of vectors. -/
def vectorKey (tenantID memoryID : String) : String :=
  key [tenantID, VectorSource.memory.text, memoryID]

namespace Store

/-! ## Locked sections -/

/-- The locked section of `PutMemory`. -/
def put (s : Store) (input : MemoryInput) (memoryID metadata : String) : MemoryRecord × Store :=
  let k := key [input.tenantID, memoryID]
  let value : MemoryRecord :=
    match s.memories.lookup k with
    | some existing =>
      { existing with
        content := input.content, topics := input.topics, metadata, embedding := input.embedding,
        userID := input.userID, sessionID := input.sessionID, version := existing.version + 1,
        deletedAt := none }
    | none =>
      { tenantID := input.tenantID, memoryID, userID := input.userID,
        sessionID := input.sessionID, content := input.content, topics := input.topics, metadata,
        embedding := input.embedding, version := 1, deletedAt := none }
  (value, { s with memories := s.memories.insert k value })

/-- The locked section of `DeleteMemory`. -/
def delete (s : Store) (now : ℤ) (tenantID memoryID : String) : Option Err × Store :=
  let k := key [tenantID, memoryID]
  match (s.memories.lookup k).filter fun r => r.deletedAt = none with
  | none => (some .notFound, s)
  | some value =>
    (none, { s with
      memories := s.memories.insert k { value with deletedAt := some now, version := value.version + 1 }
      vectors := s.vectors.erase (vectorKey tenantID memoryID) })

/-- The second `select` of `enqueueIndex`, for a context that is done or not. It waits while the
queue is full. -/
def send (s : Store) (done : Option CtxErr) (value : MemoryRecord) : Option (Option Err × Store) :=
  match done with
  | some cause => some (some (.ctx cause), s)
  | none =>
    if s.indexQueue.length < queueSize then
      some (none, { s with indexQueue := s.indexQueue ++ [value] })
    else none

/-- The worker takes a record from the queue. A deleted one is dropped. -/
def receive (s : Store) : Store :=
  match s.worker, s.indexQueue with
  | none, value :: rest =>
    { s with indexQueue := rest, worker := if value.deletedAt = none then some value else none }
  | _, _ => s

/-- The locked section of the worker. -/
def index (s : Store) : Store :=
  match s.worker with
  | none => s
  | some value =>
    let s := { s with worker := none }
    match s.memories.lookup (key [value.tenantID, value.memoryID]) with
    | none => s
    | some current =>
      if current.version = value.version ∧ current.deletedAt = none then
        if current.embedding.length = 0 then
          { s with vectors := s.vectors.erase (vectorKey value.tenantID value.memoryID) }
        else
          { s with
            vectors := s.vectors.insert (vectorKey value.tenantID value.memoryID) current.vector }
      else s

/-- A vector of another source is written or deleted. -/
def foreign (s : Store) (tenantID source documentID : String) (value : Option VectorRecord) :
    Store :=
  if source = VectorSource.memory.text then s
  else
    match value with
    | some value => { s with vectors := s.vectors.insert (key [tenantID, source, documentID]) value }
    | none => { s with vectors := s.vectors.erase (key [tenantID, source, documentID]) }

end Store

/-! ## Operations -/

/-- The atomic operations. -/
inductive Op where
  /-- `ctx.Err()`. -/
  | ctxErr (ctx : ℕ)
  /-- `uuid.NewString()`. -/
  | newString
  | put (input : MemoryInput) (memoryID metadata : String)
  | delete (tenantID memoryID : String)
  /-- The locked section of `EnqueueMemoryIndex`. -/
  | read (tenantID memoryID : String)
  /-- The second `select` of `enqueueIndex`. -/
  | send (ctx : ℕ) (value : MemoryRecord)
  deriving DecidableEq

/-- What an operation returns. -/
def Op.Res : Op → Type
  | .ctxErr _ | .delete _ _ | .send _ _ => Option Err
  | .newString => String
  | .put _ _ _ => MemoryRecord
  | .read _ _ => Option MemoryRecord

/-- What is left to the environment. -/
structure Choice where
  /-- Why the context is done, if it is. -/
  done : Option CtxErr := none
  /-- The text of a new identifier. -/
  uuid : String := ""
  /-- The clock. -/
  now : ℤ := 0

/-- One operation. -/
def perform : (o : Op) → Choice → Store → Option (o.Res × Store)
  | .ctxErr _, ch, s => some (ch.done.map .ctx, s)
  | .newString, ch, s => some (ch.uuid, s)
  | .put input memoryID metadata, _, s => some (s.put input memoryID metadata)
  | .delete t m, ch, s => some (s.delete ch.now t m)
  | .read t m, _, s => some (s.memories.lookup (key [t, m]), s)
  | .send _ value, ch, s => s.send ch.done value

/-- A step of the environment. -/
inductive Move where
  /-- The worker takes a record. -/
  | receive
  /-- The worker writes the index. -/
  | index
  /-- A vector of another source is written or deleted. -/
  | foreign (tenantID source documentID : String) (value : Option VectorRecord)

/-- The store with its worker. -/
abbrev machine : Machine where
  State := Store
  Op := Op
  Res := Op.Res
  Choice := Choice
  perform := perform
  Move := Move
  advance
    | .receive, s => s.receive
    | .index, s => s.index
    | .foreign t source d value, s => s.foreign t source d value

/-- Code of the store. -/
abbrev Code := Program machine

/-! ## The methods -/

/-- `ctx.Err()`. -/
def ctxErr (ctx : ℕ) : Code (Option Err) := Program.perform (M := machine) (.ctxErr ctx)

/-- `uuid.NewString()`. -/
def newString : Code String := Program.perform (M := machine) .newString

/-- The locked section of `PutMemory`. -/
def put (input : MemoryInput) (memoryID metadata : String) : Code MemoryRecord :=
  Program.perform (M := machine) (.put input memoryID metadata)

/-- The locked section of `DeleteMemory`. -/
def delete (tenantID memoryID : String) : Code (Option Err) :=
  Program.perform (M := machine) (.delete tenantID memoryID)

/-- The locked section of `EnqueueMemoryIndex`. -/
def read (tenantID memoryID : String) : Code (Option MemoryRecord) :=
  Program.perform (M := machine) (.read tenantID memoryID)

/-- `enqueueIndex`. -/
def enqueueIndex (ctx : ℕ) (value : MemoryRecord) : Code (Option Err) :=
  Program.perform (M := machine) (.send ctx value)

/-- The identifier of a memory that is put: the one of the input, or a new one. -/
def memoryIDOf (input : MemoryInput) : Code String := do
  if input.memoryID = "" then return "mem_" ++ (← newString) else return input.memoryID

/-- `Store.PutMemory`. A context is `none` if it is nil. -/
def putMemory (ctx : Option ℕ) (input : MemoryInput) : Code (Option Err) :=
  match ctx with
  | none => return some .invalid
  | some ctx => do
    match ← ctxErr ctx with
    | some err => return some err
    | none =>
      if input.invalid then return some .invalid
      else
        match input.metadata.encode with
        | none => return some .invalid
        | some metadata =>
          let memoryID ← memoryIDOf input
          let value ← put input memoryID metadata
          enqueueIndex ctx value

/-- `Store.DeleteMemory`. -/
def deleteMemory (ctx : Option ℕ) (tenantID memoryID : String) : Code (Option Err) :=
  match ctx with
  | none => return some .invalid
  | some ctx => do
    match ← ctxErr ctx with
    | some err => return some err
    | none =>
      if validateTenant tenantID ≠ none ∨ memoryID = "" then return some .invalid
      else delete tenantID memoryID

/-- `Store.EnqueueMemoryIndex`. -/
def enqueueMemoryIndex (ctx : Option ℕ) (value : MemoryRecord) : Code (Option Err) :=
  match ctx with
  | none => return some .invalid
  | some ctx => do
    match ← ctxErr ctx with
    | some err => return some err
    | none =>
      if validateTenant value.tenantID ≠ none ∨ value.memoryID = "" ∨ value.version < 1 then
        return some .invalid
      else
        match ← read value.tenantID value.memoryID with
        | none => return some .notFound
        | some current =>
          if current.deletedAt ≠ none then return some .notFound
          else if current.version ≠ value.version then return some .conflict
          else enqueueIndex ctx current

/-- The calls. -/
inductive Call where
  | putMemory (ctx : Option ℕ) (input : MemoryInput)
  | deleteMemory (ctx : Option ℕ) (tenantID memoryID : String)
  | enqueueMemoryIndex (ctx : Option ℕ) (value : MemoryRecord)

/-- Any number of calls on the store. -/
abbrev pool : Pool machine where
  Call := Call
  Result := Option Err
  body
    | .putMemory ctx input => putMemory ctx input
    | .deleteMemory ctx tenantID memoryID => deleteMemory ctx tenantID memoryID
    | .enqueueMemoryIndex ctx value => enqueueMemoryIndex ctx value

end AgentService.Vectors.InMemory
