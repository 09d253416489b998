import Mathlib.Data.List.AList
import AgentService.Concurrent.Debts
import AgentService.Vectors.Records

/-!
# Memories and knowledge in PostgreSQL

`trpcservice/runtime/storage/postgres/capabilities.go`: `PutMemory`, `DeleteMemory`, `PutKnowledge`,
and `DeleteKnowledge`, over the tables `runtime_memory`, `runtime_knowledge`, and
`runtime_vector_index`. A statement outside a transaction is one operation, and so is a transaction.
A statement may fail for a reason of its own (a constraint, a lost connection, a context that is
done, an answer that cannot be decoded); it may then have been executed or not.

The operations on the index come last in the methods, apart from the transactions. The projection of
a row is inserted for one version of it, but an index entry is deleted whatever the version of the
row is (`deleteVector`).
-/

namespace AgentService.Vectors.Postgres

open Concurrent
open Storage (Err validateTenant)

/-- The tables. -/
structure Database where
  /-- `runtime_memory`, by tenant and memory. -/
  memories : AList fun _ : String × String => MemoryRecord := ∅
  /-- `runtime_knowledge`, by tenant and document. -/
  knowledge : AList fun _ : String × String => KnowledgeDocument := ∅
  /-- `runtime_vector_index`, by tenant, source, and document. -/
  vectors : AList fun _ : String × VectorSource × String => VectorRecord := ∅

namespace Database

/-! ## Statements -/

/-- `INSERT INTO runtime_memory … ON CONFLICT (tenant_id,memory_id) DO UPDATE … RETURNING …`. -/
def upsertMemory (db : Database) (value : MemoryRecord) : MemoryRecord × Database :=
  let row : MemoryRecord :=
    match db.memories.lookup (value.tenantID, value.memoryID) with
    | none => { value with version := 1, deletedAt := none }
    | some old => { value with version := old.version + 1, deletedAt := none }
  (row, { db with memories := db.memories.insert (value.tenantID, value.memoryID) row })

/-- `INSERT INTO runtime_knowledge … ON CONFLICT (tenant_id,document_id) DO UPDATE … RETURNING …`.
-/
def upsertKnowledge (db : Database) (value : KnowledgeDocument) : KnowledgeDocument × Database :=
  let row : KnowledgeDocument :=
    match db.knowledge.lookup (value.tenantID, value.documentID) with
    | none => { value with version := 1 }
    | some old => { value with version := old.version + 1 }
  (row, { db with knowledge := db.knowledge.insert (value.tenantID, value.documentID) row })

/-- The row of a memory or of a knowledge document that is not deleted, as a vector. -/
def row (db : Database) (tenantID : String) (source : VectorSource) (documentID : String) :
    Option VectorRecord :=
  match source with
  | .generic => none
  | .memory =>
    ((db.memories.lookup (tenantID, documentID)).filter fun r => r.deletedAt = none).map
      MemoryRecord.vector
  | .knowledge => (db.knowledge.lookup (tenantID, documentID)).map KnowledgeDocument.vector

/-- `INSERT INTO runtime_vector_index … SELECT … WHERE … version=$3 … AND embedding <> '[]' ON
CONFLICT … DO UPDATE … WHERE EXCLUDED.version >= runtime_vector_index.version`, with the number of
rows affected. -/
def insertVector (db : Database) (tenantID : String) (source : VectorSource) (documentID : String)
    (version : ℤ) : ℕ × Database :=
  match db.row tenantID source documentID with
  | none => (0, db)
  | some excluded =>
    if excluded.version = version ∧ excluded.embedding ≠ [] ∧
        ∀ old ∈ db.vectors.lookup (tenantID, source, documentID), excluded.version ≥ old.version then
      (1, { db with vectors := db.vectors.insert (tenantID, source, documentID) excluded })
    else (0, db)

/-- `DELETE FROM runtime_vector_index WHERE tenant_id=$1 AND source=$2 AND document_id=$3`. -/
def deleteVector (db : Database) (tenantID : String) (source : VectorSource) (documentID : String) :
    Database :=
  { db with vectors := db.vectors.erase (tenantID, source, documentID) }

/-- `SELECT … FROM runtime_memory WHERE … AND deleted_at IS NULL`. -/
def selectMemory (db : Database) (tenantID memoryID : String) : Except Err MemoryRecord :=
  match (db.memories.lookup (tenantID, memoryID)).filter fun r => r.deletedAt = none with
  | none => .error .notFound
  | some value => .ok value

/-- The transaction of `DeleteMemory`. -/
def deleteMemory (db : Database) (now : ℤ) (tenantID memoryID : String) :
    Except Err Unit × Database :=
  match (db.memories.lookup (tenantID, memoryID)).filter fun r => r.deletedAt = none with
  | none => (.error .notFound, db)
  | some r =>
    let row : MemoryRecord := { r with deletedAt := some now, version := r.version + 1 }
    (.ok (), deleteVector { db with memories := db.memories.insert (tenantID, memoryID) row }
      tenantID .memory memoryID)

/-- The transaction of `DeleteKnowledge`. -/
def deleteKnowledge (db : Database) (tenantID documentID : String) : Except Err Unit × Database :=
  match db.knowledge.lookup (tenantID, documentID) with
  | none => (.error .notFound, db)
  | some _ =>
    (.ok (), deleteVector { db with knowledge := db.knowledge.erase (tenantID, documentID) }
      tenantID .knowledge documentID)

end Database

/-! ## Operations -/

/-- The atomic operations. -/
inductive Op where
  /-- `checkCapability`, for a context that is not nil. -/
  | check
  /-- `uuid.NewString()`. -/
  | newString
  | upsertMemory (value : MemoryRecord)
  | upsertKnowledge (value : KnowledgeDocument)
  | insertVector (tenantID : String) (source : VectorSource) (documentID : String) (version : ℤ)
  | deleteVector (tenantID : String) (source : VectorSource) (documentID : String)
  | selectMemory (tenantID memoryID : String)
  | deleteMemory (tenantID memoryID : String)
  | deleteKnowledge (tenantID documentID : String)
  deriving DecidableEq

/-- What an operation returns when it does not fail. -/
def Op.Value : Op → Type
  | .newString => String
  | .upsertMemory _ | .selectMemory _ _ => MemoryRecord
  | .upsertKnowledge _ => KnowledgeDocument
  | .insertVector _ _ _ _ => ℕ
  | .check | .deleteVector _ _ _ | .deleteMemory _ _ | .deleteKnowledge _ _ => Unit

/-- What is left to the environment. -/
structure Choice where
  /-- The clock of the database. -/
  now : ℤ := 0
  /-- The text of a new identifier. -/
  uuid : String := ""
  /-- Why the operation fails, if it does. -/
  fault : Option Err := none
  /-- Whether an operation that fails was executed. -/
  executed : Bool := false

/-- An operation that does not fail. -/
def execute : (o : Op) → Choice → Database → Except Err o.Value × Database
  | .check, _, db => (.ok (), db)
  | .newString, ch, db => (.ok ch.uuid, db)
  | .upsertMemory value, _, db => (.ok (db.upsertMemory value).1, (db.upsertMemory value).2)
  | .upsertKnowledge value, _, db =>
    (.ok (db.upsertKnowledge value).1, (db.upsertKnowledge value).2)
  | .insertVector t source d version, _, db =>
    (.ok (db.insertVector t source d version).1, (db.insertVector t source d version).2)
  | .deleteVector t source d, _, db => (.ok (), db.deleteVector t source d)
  | .selectMemory t m, _, db => (db.selectMemory t m, db)
  | .deleteMemory t m, ch, db => db.deleteMemory ch.now t m
  | .deleteKnowledge t d, _, db => db.deleteKnowledge t d

/-- One operation. -/
def perform (o : Op) (ch : Choice) (db : Database) : Option (Except Err o.Value × Database) :=
  match ch.fault with
  | none => some (execute o ch db)
  | some err => some (.error err, if ch.executed then (execute o ch db).2 else db)

/-- The database. -/
abbrev machine : Machine where
  State := Database
  Op := Op
  Res o := Except Err o.Value
  Choice := Choice
  perform := perform
  Move := Empty
  advance m _ := m.elim

/-- Code of the store. -/
abbrev Code := Program machine

/-! ## The methods -/

/-- `uuid.NewString()`. -/
def newString : Code (Except Err String) := Program.perform (M := machine) .newString

/-- The first statement of `PutMemory`. -/
def upsertMemory (value : MemoryRecord) : Code (Except Err MemoryRecord) :=
  Program.perform (M := machine) (.upsertMemory value)

/-- The first statement of `PutKnowledge`. -/
def upsertKnowledge (value : KnowledgeDocument) : Code (Except Err KnowledgeDocument) :=
  Program.perform (M := machine) (.upsertKnowledge value)

/-- The statements that write to the index. -/
def insertVector (tenantID : String) (source : VectorSource) (documentID : String) (version : ℤ) :
    Code (Except Err ℕ) :=
  Program.perform (M := machine) (.insertVector tenantID source documentID version)

/-- The statements that delete from the index. -/
def deleteVector (tenantID : String) (source : VectorSource) (documentID : String) :
    Code (Except Err Unit) :=
  Program.perform (M := machine) (.deleteVector tenantID source documentID)

/-- The statement of `GetMemory`. -/
def selectMemory (tenantID memoryID : String) : Code (Except Err MemoryRecord) :=
  Program.perform (M := machine) (.selectMemory tenantID memoryID)

/-- The transaction of `DeleteMemory`. -/
def deleteMemoryRow (tenantID memoryID : String) : Code (Except Err Unit) :=
  Program.perform (M := machine) (.deleteMemory tenantID memoryID)

/-- The transaction of `DeleteKnowledge`. -/
def deleteKnowledgeRow (tenantID documentID : String) : Code (Except Err Unit) :=
  Program.perform (M := machine) (.deleteKnowledge tenantID documentID)

/-- `checkCapability`. A context is `none` if it is nil. -/
def checkCapability (ctx : Option ℕ) : Code (Except Err Unit) :=
  match ctx with
  | none => return .error .invalid
  | some _ => Program.perform (M := machine) .check

/-- `Store.GetMemory`. -/
def getMemory (ctx : Option ℕ) (tenantID memoryID : String) : Code (Except Err MemoryRecord) := do
  match ← checkCapability ctx with
  | .error err => return .error err
  | .ok _ =>
    if validateTenant tenantID ≠ none ∨ memoryID = "" then return .error .invalid
    else selectMemory tenantID memoryID

/-- `Store.EnqueueMemoryIndex`. -/
def enqueueMemoryIndex (ctx : Option ℕ) (value : MemoryRecord) : Code (Except Err Unit) := do
  match ← checkCapability ctx with
  | .error err => return .error err
  | .ok _ =>
    if validateTenant value.tenantID ≠ none ∨ value.memoryID = "" ∨ value.version < 1 then
      return .error .invalid
    else
      match ← insertVector value.tenantID .memory value.memoryID value.version with
      | .error err => return .error err
      | .ok count =>
        if count > 0 then return .ok ()
        else
          match ← getMemory ctx value.tenantID value.memoryID with
          | .error err => return .error err
          | .ok current =>
            if current.version ≠ value.version then return .error .conflict
            else if current.embedding.length > 0 then return .ok ()
            else deleteVector value.tenantID .memory value.memoryID

/-- The identifier of a memory that is put: the one of the input, or a new one. -/
def memoryIDOf (input : MemoryInput) : Code (Except Err String) := do
  if input.memoryID = "" then
    match ← newString with
    | .error err => return .error err
    | .ok uuid => return .ok ("mem_" ++ uuid)
  else return .ok input.memoryID

/-- `Store.PutMemory`. -/
def putMemory (ctx : Option ℕ) (input : MemoryInput) : Code (Except Err Unit) := do
  match ← checkCapability ctx with
  | .error err => return .error err
  | .ok _ =>
    if input.invalid then return .error .invalid
    else
      match ← memoryIDOf input with
      | .error err => return .error err
      | .ok memoryID =>
        match input.metadata.encode with
        | none => return .error .invalid
        | some metadata =>
          match ← upsertMemory
            { tenantID := input.tenantID, memoryID, userID := input.userID,
              sessionID := input.sessionID, content := input.content, topics := input.topics,
              metadata, embedding := input.embedding, version := 1, deletedAt := none } with
          | .error err => return .error err
          | .ok value => enqueueMemoryIndex ctx value

/-- `Store.DeleteMemory`. -/
def deleteMemory (ctx : Option ℕ) (tenantID memoryID : String) : Code (Except Err Unit) := do
  match ← checkCapability ctx with
  | .error err => return .error err
  | .ok _ =>
    if validateTenant tenantID ≠ none ∨ memoryID = "" then return .error .invalid
    else deleteMemoryRow tenantID memoryID

/-- `Store.PutKnowledge`. `sha256` is the hexadecimal digest of a content. -/
def putKnowledge (sha256 : String → String) (ctx : Option ℕ) (value : KnowledgeInput) :
    Code (Except Err Unit) := do
  match ← checkCapability ctx with
  | .error err => return .error err
  | .ok _ =>
    if value.invalid then return .error .invalid
    else
      match value.metadata.encode with
      | none => return .error .invalid
      | some metadata =>
        match ← upsertKnowledge
          { tenantID := value.tenantID, documentID := value.documentID, content := value.content,
            metadata, embedding := value.embedding,
            digest := if value.digest = "" then sha256 value.content else value.digest,
            version := 1 } with
        | .error err => return .error err
        | .ok out =>
          if out.embedding.length > 0 then
            match ← insertVector out.tenantID .knowledge out.documentID out.version with
            | .error err => return .error err
            | .ok _ => return .ok ()
          else deleteVector out.tenantID .knowledge out.documentID

/-- `Store.DeleteKnowledge`. -/
def deleteKnowledge (ctx : Option ℕ) (tenantID documentID : String) : Code (Except Err Unit) := do
  match ← checkCapability ctx with
  | .error err => return .error err
  | .ok _ =>
    if validateTenant tenantID ≠ none ∨ documentID = "" then return .error .invalid
    else deleteKnowledgeRow tenantID documentID

/-- The calls. -/
inductive Call where
  | putMemory (ctx : Option ℕ) (input : MemoryInput)
  | deleteMemory (ctx : Option ℕ) (tenantID memoryID : String)
  | putKnowledge (ctx : Option ℕ) (value : KnowledgeInput)
  | deleteKnowledge (ctx : Option ℕ) (tenantID documentID : String)

/-- Any number of calls on the store. -/
abbrev pool (sha256 : String → String) : Pool machine where
  Call := Call
  Result := Except Err Unit
  body
    | .putMemory ctx input => putMemory ctx input
    | .deleteMemory ctx tenantID memoryID => deleteMemory ctx tenantID memoryID
    | .putKnowledge ctx value => putKnowledge sha256 ctx value
    | .deleteKnowledge ctx tenantID documentID => deleteKnowledge ctx tenantID documentID

end AgentService.Vectors.Postgres
