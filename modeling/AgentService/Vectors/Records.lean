import AgentService.Storage.Contract

/-!
# Memories, knowledge documents, and their vectors

The records of `trpcservice/runtime/storage/capabilities.go` that are projected into a vector index,
and the checks of their inputs. A `float64` is its 64 bits. A `map[string]any` is the JSON text that
stands for it; an input may also be nil, or have no JSON form. The times of a record are left out,
except for `DeletedAt`: nothing below reads them.
-/

namespace AgentService.Vectors

open Storage (Err validateTenant)

/-- A `float64`, as its bits in the format of IEEE 754. -/
abbrev Float64 := BitVec 64

/-- `math.IsNaN` or `math.IsInf`: all bits of the exponent are set. -/
def Float64.nonFinite (x : Float64) : Bool := x.extractLsb' 52 11 = BitVec.allOnes 11

/-- A `map[string]any` of an input. -/
inductive Metadata where
  | nil
  /-- A map with this JSON text. -/
  | object (json : String)
  /-- A map that `json.Marshal` refuses. -/
  | unencodable
  deriving DecidableEq

/-- The JSON text of a map, with the empty map for `nil`. -/
def Metadata.encode : Metadata → Option String
  | .nil => some "\x7b\x7d"
  | .object json => some json
  | .unencodable => none

/-- `VectorSource`. -/
inductive VectorSource where
  | generic
  | memory
  | knowledge
  deriving DecidableEq

/-- The text of a source. -/
def VectorSource.text : VectorSource → String
  | .generic => "generic"
  | .memory => "memory"
  | .knowledge => "knowledge"

/-- `MemoryInput`. -/
structure MemoryInput where
  tenantID : String
  memoryID : String := ""
  userID : String
  sessionID : String := ""
  content : String
  topics : List String := []
  metadata : Metadata := .nil
  embedding : List Float64 := []
  deriving DecidableEq

/-- `MemoryRecord`. -/
structure MemoryRecord where
  tenantID : String
  memoryID : String
  userID : String
  sessionID : String
  content : String
  topics : List String
  metadata : String
  embedding : List Float64
  version : ℤ
  deletedAt : Option ℤ
  deriving DecidableEq

/-- `KnowledgeDocument` of a caller. -/
structure KnowledgeInput where
  tenantID : String
  documentID : String
  content : String
  metadata : Metadata := .nil
  embedding : List Float64 := []
  digest : String := ""
  deriving DecidableEq

/-- `KnowledgeDocument`. -/
structure KnowledgeDocument where
  tenantID : String
  documentID : String
  content : String
  metadata : String
  embedding : List Float64
  digest : String
  version : ℤ
  deriving DecidableEq

/-- `VectorRecord`. -/
structure VectorRecord where
  tenantID : String
  source : VectorSource
  documentID : String
  content : String
  metadata : String
  embedding : List Float64
  version : ℤ
  deriving DecidableEq

/-! ## Checks -/

/-- `ValidateText`. -/
def validateText (value : String) (max : ℕ) (requireNonEmpty : Bool) : Bool :=
  if Go.trimSpace value = "" then !requireNonEmpty && value = ""
  else max = 0 || (Go.runes value).length ≤ max

/-- `ValidateEmbedding`. -/
def validateEmbedding (values : List Float64) : Bool := values.all fun x => !x.nonFinite

/-- The checks of `PutMemory`. -/
def MemoryInput.invalid (input : MemoryInput) : Bool :=
  validateTenant input.tenantID ≠ none || !validateText input.userID 256 true ||
    !validateText input.content 0 true || !validateText input.memoryID 256 false ||
    !validateText input.sessionID 256 false || !validateEmbedding input.embedding

/-- The checks of `PutKnowledge`. -/
def KnowledgeInput.invalid (value : KnowledgeInput) : Bool :=
  validateTenant value.tenantID ≠ none || !validateText value.documentID 256 true ||
    !validateText value.content 0 true || !validateText value.digest 128 false ||
    !validateEmbedding value.embedding

/-! ## Vectors of records -/

/-- The vector of a memory. -/
def MemoryRecord.vector (r : MemoryRecord) : VectorRecord where
  tenantID := r.tenantID
  source := .memory
  documentID := r.memoryID
  content := r.content
  metadata := r.metadata
  embedding := r.embedding
  version := r.version

/-- The vector of a knowledge document. -/
def KnowledgeDocument.vector (r : KnowledgeDocument) : VectorRecord where
  tenantID := r.tenantID
  source := .knowledge
  documentID := r.documentID
  content := r.content
  metadata := r.metadata
  embedding := r.embedding
  version := r.version

/-- Whether a vector is to be indexed: its embedding is not empty. -/
def VectorRecord.indexed (v : VectorRecord) : Bool := v.embedding ≠ []

/-- What an index has for a row: its vector, unless there is no row or the embedding is empty. -/
def projection (row : Option VectorRecord) : Option VectorRecord := row.filter VectorRecord.indexed

end AgentService.Vectors
