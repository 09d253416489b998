import AgentService.Concurrent.Rely
import AgentService.Migration.Digest

/-!
# The migration tool

`Tool` of `trpcservice/runtime/migration/migration.go` over the memory adapters. A call of an
adapter and a section under the lock of the tool are atomic; between them the environment puts
records into the source. What Go leaves open is up to the environment too: the order in which a
snapshot lists the records of a map, the order that `sort.Slice` gives to records of one key, and
when a context is done.

The methods of the tool are programs over these operations. The lemmas at the end say what an
operation can do to the state (`performs_source`, `performs_destination`, `performs_router`,
`performs_tool`), and that the environment only adds to the logs of the source (`State.Follows`).
-/

namespace AgentService.Migration

open Concurrent

/-- `Phase`. -/
inductive Phase where
  | dualWrite
  | copy
  | catchUp
  | validate
  | cutover
  | rollback
  deriving DecidableEq, Repr

/-- `Report`. -/
structure Report where
  tenantID : String := ""
  phase : Option Phase := none
  copied : ℕ := 0
  caughtUp : ℕ := 0
  sourceWatermark : ℤ := 0
  destinationWatermark : ℤ := 0
  sourceDigest : String := ""
  destinationDigest : String := ""
  cutoverBackend : Option Backend := none
  rollbackAllowed : Bool := false
  validated : Bool := false
  deriving DecidableEq

/-- `Tool`, without its adapters. -/
structure Tool where
  barriers : Go.Map ℤ := ∅
  copied : Go.Map Bool := ∅
  caughtUp : Go.Map Bool := ∅
  cutovers : Go.Map Backend := ∅

/-- The tool and its adapters. -/
structure State where
  source : MemorySource := {}
  destination : MemoryDestination := {}
  router : MemoryRouter := {}
  tool : Tool := {}

/-! ## Operations -/

/-- The atomic operations. -/
inductive Op where
  /-- `ctx.Err()`. -/
  | ctxErr (ctx : ℕ)
  /-- `sort.Slice` of `normalizeRecords`. -/
  | sortSlice (records : List Record)
  | beginDualWrite (tenantID : String)
  | snapshotSource (tenantID : String)
  | changes (tenantID : String) (after : ℤ)
  | apply (records : List Record)
  | snapshotDestination (tenantID : String)
  | current (tenantID : String)
  | set (tenantID : String) (backend : Backend)
  /-- The locked section of `Begin`. -/
  | begun (tenantID : String) (watermark : ℤ)
  /-- The locked sections that read the barrier and the flags of a tenant. -/
  | flags (tenantID : String)
  /-- The last locked section of `Copy`. -/
  | setCopied (tenantID : String)
  /-- The last locked section of `CatchUp`. -/
  | setCaughtUp (tenantID : String)
  /-- The locked sections that read `cutovers`. -/
  | cutover (tenantID : String)
  /-- The last locked section of `Cutover`. -/
  | setCutover (tenantID : String) (backend : Backend)
  deriving DecidableEq

/-- Whether an operation reads the watermark of a tenant for the barrier. -/
def Op.isBarrier (tenantID : String) : Op → Bool
  | .beginDualWrite t => t = tenantID
  | _ => false

/-- Whether an operation reads the changes of a tenant. -/
def Op.isChanges (tenantID : String) : Op → Bool
  | .changes t _ => t = tenantID
  | _ => false

/-- What the locked sections read of a tenant: its barrier, and whether it is copied and caught
up. -/
structure Flags where
  barrier : Option ℤ
  copied : Bool
  caughtUp : Bool
  deriving DecidableEq

/-- What an operation returns. -/
def Op.Res : Op → Type
  | .ctxErr _ => Option Err
  | .sortSlice _ => List Record
  | .beginDualWrite _ => Except Err ℤ
  | .snapshotSource _ | .snapshotDestination _ => Except Err Snapshot
  | .changes _ _ => Except Err (List Change × ℤ)
  | .apply _ | .set _ _ => Option Err
  | .current _ => Except Err Backend
  | .flags _ => Flags
  | .cutover _ => Option Backend
  | .begun _ _ | .setCopied _ | .setCaughtUp _ | .setCutover _ _ => Unit

/-- What is left to the environment. -/
structure Choice where
  /-- Whether a context is done. -/
  done : Bool := false
  /-- The order of a snapshot or of a sorted slice. -/
  order : List Record := []

/-- `t.barriers[tenantID]`, `t.copied[tenantID]`, and `t.caughtUp[tenantID]`. -/
def Tool.flagsOf (t : Tool) (tenantID : String) : Flags where
  barrier := t.barriers.lookup tenantID
  copied := (t.copied.lookup tenantID).getD false
  caughtUp := (t.caughtUp.lookup tenantID).getD false

/-- The locked section of `Begin`. -/
def Tool.withBarrier (t : Tool) (tenantID : String) (watermark : ℤ) : Tool where
  barriers := t.barriers.insert tenantID watermark
  copied := t.copied.insert tenantID false
  caughtUp := t.caughtUp.insert tenantID false
  cutovers := t.cutovers.erase tenantID

/-- The last locked section of `Copy`. -/
def Tool.withCopied (t : Tool) (tenantID : String) : Tool :=
  { t with copied := t.copied.insert tenantID true, caughtUp := t.caughtUp.insert tenantID false }

/-- The last locked section of `CatchUp`. -/
def Tool.withCaughtUp (t : Tool) (tenantID : String) : Tool :=
  { t with caughtUp := t.caughtUp.insert tenantID true }

/-- The last locked section of `Cutover`. -/
def Tool.withCutover (t : Tool) (tenantID : String) (backend : Backend) : Tool :=
  { t with cutovers := t.cutovers.insert tenantID backend }

@[simp] theorem Tool.flagsOf_withBarrier (t : Tool) (tenantID : String) (watermark : ℤ) :
    (t.withBarrier tenantID watermark).flagsOf tenantID = ⟨some watermark, false, false⟩ := by
  simp [flagsOf, withBarrier]

@[simp] theorem Tool.flagsOf_withCopied (t : Tool) (tenantID : String) :
    (t.withCopied tenantID).flagsOf tenantID = ⟨t.barriers.lookup tenantID, true, false⟩ := by
  simp [flagsOf, withCopied]

/-- One operation. -/
def perform : (o : Op) → Choice → State → Option (o.Res × State)
  | .ctxErr _, ch, s => some (if ch.done then some .canceled else none, s)
  | .sortSlice records, ch, s => if Sorted records ch.order then some (ch.order, s) else none
  | .beginDualWrite t, _, s =>
    some ((s.source.beginDualWrite t).1, { s with source := (s.source.beginDualWrite t).2 })
  | .snapshotSource t, ch, s =>
    if ch.order.Perm (values (s.source.recordsOf t)) then some (s.source.snapshot t ch.order, s)
    else none
  | .changes t after, _, s => some (s.source.changesAfter t after, s)
  | .apply records, _, s =>
    some ((s.destination.apply records).1, { s with destination := (s.destination.apply records).2 })
  | .snapshotDestination t, ch, s =>
    if ch.order.Perm (values (s.destination.recordsOf t)) then
      some (s.destination.snapshot t ch.order, s)
    else none
  | .current t, _, s => some (s.router.current t, s)
  | .set t backend, _, s =>
    some ((s.router.set t backend).1, { s with router := (s.router.set t backend).2 })
  | .begun t watermark, _, s => some ((), { s with tool := s.tool.withBarrier t watermark })
  | .flags t, _, s => some (s.tool.flagsOf t, s)
  | .setCopied t, _, s => some ((), { s with tool := s.tool.withCopied t })
  | .setCaughtUp t, _, s => some ((), { s with tool := s.tool.withCaughtUp t })
  | .cutover t, _, s => some (s.tool.cutovers.lookup t, s)
  | .setCutover t backend, _, s => some ((), { s with tool := s.tool.withCutover t backend })

/-- The adapters and the tool, with an environment that puts records. -/
abbrev machine : Machine where
  State := State
  Op := Op
  Res := Op.Res
  Choice := Choice
  perform := perform
  Move := String × Record
  advance m s := { s with source := (s.source.put m.1 m.2).2 }

instance : Std.Refl machine.Moves := ⟨fun _ => .refl⟩

/-- Code of the tool. -/
abbrev Code := Program machine

/-! ## The methods -/

/-- `ctx.Err()`. -/
def ctxErr (ctx : ℕ) : Code (Option Err) := Program.perform (M := machine) (.ctxErr ctx)

/-- `source.BeginDualWrite`. -/
def beginDualWrite (tenantID : String) : Code (Except Err ℤ) :=
  Program.perform (M := machine) (.beginDualWrite tenantID)

/-- `source.Snapshot`. -/
def snapshotSource (tenantID : String) : Code (Except Err Snapshot) :=
  Program.perform (M := machine) (.snapshotSource tenantID)

/-- `source.Changes`. -/
def changes (tenantID : String) (after : ℤ) : Code (Except Err (List Change × ℤ)) :=
  Program.perform (M := machine) (.changes tenantID after)

/-- `destination.Apply`. -/
def apply (records : List Record) : Code (Option Err) :=
  Program.perform (M := machine) (.apply records)

/-- `destination.Snapshot`. -/
def snapshotDestination (tenantID : String) : Code (Except Err Snapshot) :=
  Program.perform (M := machine) (.snapshotDestination tenantID)

/-- `router.Current`. -/
def current (tenantID : String) : Code (Except Err Backend) :=
  Program.perform (M := machine) (.current tenantID)

/-- `router.Set`. -/
def set (tenantID : String) (backend : Backend) : Code (Option Err) :=
  Program.perform (M := machine) (.set tenantID backend)

/-- The flags of a tenant. -/
def flags (tenantID : String) : Code Flags := Program.perform (M := machine) (.flags tenantID)

/-- `t.cutovers[tenantID]`. -/
def cutoverOf (tenantID : String) : Code (Option Backend) :=
  Program.perform (M := machine) (.cutover tenantID)

/-- The locked section of `Begin`. -/
def begun (tenantID : String) (watermark : ℤ) : Code Unit :=
  Program.perform (M := machine) (.begun tenantID watermark)

/-- The last locked section of `Copy`. -/
def setCopied (tenantID : String) : Code Unit := Program.perform (M := machine) (.setCopied tenantID)

/-- The last locked section of `CatchUp`. -/
def setCaughtUp (tenantID : String) : Code Unit :=
  Program.perform (M := machine) (.setCaughtUp tenantID)

/-- The last locked section of `Cutover`. -/
def setCutover (tenantID : String) (backend : Backend) : Code Unit :=
  Program.perform (M := machine) (.setCutover tenantID backend)

/-- `validate`. A context is `none` if it is nil. -/
def validate (ctx : Option ℕ) (tenantID : String) : Code (Option Err) :=
  match ctx with
  | none => return some .invalid
  | some ctx => if tenantID = "" then return some .invalid else ctxErr ctx

/-- `normalizeRecords`. -/
def normalizeRecords (tenantID : String) (records : List Record) : Code (List Record) :=
  Program.perform (M := machine)
    (.sortSlice (records.map fun r => if tenantID ≠ "" then { r with tenantID } else r))

/-- `Digest`. -/
def digest (sha256 : List UInt8 → List UInt8) (records : List Record) : Code String := do
  return digestOf sha256 (← normalizeRecords "" records)

/-- What a method returns. -/
abbrev Outcome := Report × Option Err

namespace Tool

/-- `Begin`. -/
def begin (ctx : Option ℕ) (tenantID : String) : Code Outcome := do
  match ← Migration.validate ctx tenantID with
  | some err => return ({}, some err)
  | none =>
    match ← beginDualWrite tenantID with
    | .error err => return ({}, some err)
    | .ok watermark =>
      begun tenantID watermark
      return ({ tenantID, phase := some .dualWrite, sourceWatermark := watermark }, none)

/-- `Copy`. -/
def copy (ctx : Option ℕ) (tenantID : String) : Code Outcome := do
  match ← Migration.validate ctx tenantID with
  | some err => return ({}, some err)
  | none =>
    match (← flags tenantID).barrier with
    | none => return ({}, some .conflict)
    | some barrier =>
      match ← snapshotSource tenantID with
      | .error err => return ({}, some err)
      | .ok snapshot =>
        if snapshot.watermark < barrier then return ({}, some .conflict)
        else
          let records ← normalizeRecords tenantID snapshot.records
          match ← apply records with
          | some err => return ({}, some err)
          | none =>
            setCopied tenantID
            return ({ tenantID, phase := some .copy, copied := records.length,
                      sourceWatermark := snapshot.watermark }, none)

/-- `CatchUp`. -/
def catchUp (ctx : Option ℕ) (tenantID : String) : Code Outcome := do
  match ← Migration.validate ctx tenantID with
  | some err => return ({}, some err)
  | none =>
    let read ← flags tenantID
    match read.barrier, read.copied with
    | some barrier, true =>
      match ← changes tenantID barrier with
      | .error err => return ({}, some err)
      | .ok (changes, watermark) =>
        let records := (changes.filter fun change => ¬ change.sequence ≤ barrier).map Change.record
        match ← apply (← normalizeRecords tenantID records) with
        | some err => return ({}, some err)
        | none =>
          setCaughtUp tenantID
          return ({ tenantID, phase := some .catchUp, caughtUp := records.length,
                    sourceWatermark := watermark, destinationWatermark := watermark }, none)
    | _, _ => return ({}, some .conflict)

variable (sha256 : List UInt8 → List UInt8)

/-- The comparison of two snapshots in `Validate`: their digests, and whether they agree. -/
def compare (tenantID : String) (source destination : Snapshot) :
    Code (String × String × Bool) := do
  let sourceDigest ← digest sha256 source.records
  let destinationDigest ← digest sha256 destination.records
  if sourceDigest = destinationDigest then
    let sources ← normalizeRecords tenantID source.records
    let destinations ← normalizeRecords tenantID destination.records
    return (sourceDigest, destinationDigest, sources.length = destinations.length)
  else return (sourceDigest, destinationDigest, false)

/-- `Validate`. -/
def validate (ctx : Option ℕ) (tenantID : String) : Code Outcome := do
  match ← Migration.validate ctx tenantID with
  | some err => return ({}, some err)
  | none =>
    match ← snapshotSource tenantID with
    | .error err => return ({}, some err)
    | .ok source =>
      match ← snapshotDestination tenantID with
      | .error err => return ({}, some err)
      | .ok destination =>
        let (sourceDigest, destinationDigest, validated) ← compare sha256 tenantID source destination
        let report : Report :=
          { tenantID, phase := some .validate, sourceWatermark := source.watermark,
            destinationWatermark := destination.watermark, sourceDigest, destinationDigest,
            validated }
        return (report, if validated then none else some .validation)

/-- The report of a cutover after its validation. -/
def switched (validation : Report) : Report :=
  { validation with phase := some .cutover, cutoverBackend := some .destination,
                    rollbackAllowed := true }

/-- `Cutover`. -/
def cutover (ctx : Option ℕ) (tenantID : String) : Code Outcome := do
  match ← Migration.validate ctx tenantID with
  | some err => return ({}, some err)
  | none =>
    let read ← flags tenantID
    if read.barrier = none ∨ ¬ read.copied ∨ ¬ read.caughtUp then return ({}, some .conflict)
    else
      match ← validate sha256 ctx tenantID with
      | (validation, some err) => return (validation, some err)
      | (validation, none) =>
        match ← current tenantID with
        | .error err => return ({}, some err)
        | .ok .destination =>
          match ← cutoverOf tenantID with
          | none => return ({}, some .conflict)
          | some _ => return (switched validation, none)
        | .ok previous =>
          match ← set tenantID .destination with
          | some err => return ({}, some err)
          | none =>
            setCutover tenantID previous
            return (switched validation, none)

/-- `Rollback`. -/
def rollback (ctx : Option ℕ) (tenantID : String) : Code Outcome := do
  match ← Migration.validate ctx tenantID with
  | some err => return ({}, some err)
  | none =>
    match ← cutoverOf tenantID with
    | none | some .destination => return ({}, some .conflict)
    | some previous =>
      match ← validate sha256 ctx tenantID with
      | (_, some err) => return ({}, some err)
      | (_, none) =>
        match ← set tenantID previous with
        | some err => return ({}, some err)
        | none =>
          return ({ tenantID, phase := some .rollback, cutoverBackend := some previous,
                    validated := true }, none)

end Tool

/-! ## What the operations and the environment do -/

/-- The source of the second state is the one of the first, with more records put. -/
structure State.Grows (s s' : State) : Prop where
  /-- The logs of the source get longer. -/
  log : ∀ t, s.source.log t <+: s'.source.log t
  /-- The source stays one that `Put` has filled. -/
  sound : s.source.Sound → s'.source.Sound

variable {s1 s2 s3 : State}

theorem State.Grows.trans (h : s1.Grows s2) (h' : s2.Grows s3) : s1.Grows s3 :=
  ⟨fun t => (h.log t).trans (h'.log t), fun hs => h'.sound (h.sound hs)⟩

instance : IsTrans machine.State State.Grows := ⟨fun _ _ _ => State.Grows.trans⟩

/-- What the environment can do between two operations: it adds to the logs of the source. -/
structure State.Follows (s s' : State) : Prop extends s.Grows s' where
  destination : s'.destination = s.destination
  router : s'.router = s.router
  tool : s'.tool = s.tool

theorem State.Follows.refl (s : State) : s.Follows s :=
  ⟨⟨fun _ => List.prefix_refl _, id⟩, rfl, rfl, rfl⟩

theorem State.Follows.trans (h : s1.Follows s2) (h' : s2.Follows s3) : s1.Follows s3 :=
  ⟨h.toGrows.trans h'.toGrows, h'.destination.trans h.destination, h'.router.trans h.router,
    h'.tool.trans h.tool⟩

instance : IsTrans machine.State State.Follows := ⟨fun _ _ _ => State.Follows.trans⟩

/-- The environment puts records. -/
theorem follows_of_moves {s s' : State} (h : machine.Moves s s') : s.Follows s' := by
  induction h with
  | refl => exact .refl s
  | tail _ hmove ih =>
    obtain ⟨m, rfl⟩ := hmove
    exact ih.trans ⟨⟨fun t => MemorySource.log_put _ m.1 m.2 t, fun hs => hs.put m.1 m.2⟩, rfl, rfl,
      rfl⟩

/-- The start of double writes leaves the records and the logs alone. -/
theorem sound_beginDualWrite (s : MemorySource) (t : String) :
    (∀ t', (s.beginDualWrite t).2.log t' = s.log t') ∧ (s.Sound → (s.beginDualWrite t).2.Sound) := by
  unfold MemorySource.beginDualWrite
  split_ifs
  · exact ⟨fun _ => rfl, id⟩
  · exact ⟨fun _ => rfl, fun h => ⟨h.changes, h.version, h.seq, h.named, h.records⟩⟩

variable {o : Op} {s s' : State} {r : o.Res}

/-- The operations that write to the state. -/
def Op.writes : Op → Bool
  | .beginDualWrite _ | .apply _ | .set _ _ | .begun _ _ | .setCopied _ | .setCaughtUp _
  | .setCutover _ _ => true
  | _ => false

/-- The other operations leave the state alone. -/
theorem performs_reads (h : machine.Performs o s r s') (ho : o.writes = false) : s' = s := by
  obtain ⟨ch, h⟩ := h
  change perform o ch s = some (r, s') at h
  cases o with
  | beginDualWrite | apply | set | begun | setCopied | setCaughtUp | setCutover => cases ho
  | sortSlice | snapshotSource | snapshotDestination =>
    simp only [perform] at h
    split_ifs at h
    cases h
    rfl
  | ctxErr | changes | current | flags | cutover =>
    cases h
    rfl

/-- An operation adds nothing to the logs of the source. -/
theorem performs_source (h : machine.Performs o s r s') : s.Grows s' := by
  cases o with
  | beginDualWrite t =>
    obtain ⟨ch, h⟩ := h
    cases h
    obtain ⟨hlog, hsound⟩ := sound_beginDualWrite s.source t
    exact ⟨fun t' => (hlog t') ▸ List.prefix_refl _, hsound⟩
  | apply | set | begun | setCopied | setCaughtUp | setCutover =>
    obtain ⟨ch, h⟩ := h
    cases h
    exact ⟨fun _ => List.prefix_refl _, id⟩
  | _ =>
    rw [performs_reads h rfl]
    exact (State.Follows.refl s).toGrows

/-- The operations that change the destination. -/
def Op.applies : Op → Bool
  | .apply _ => true
  | _ => false

/-- Only `Apply` changes the destination. -/
theorem performs_destination (h : machine.Performs o s r s') (ho : o.applies = false) :
    s'.destination = s.destination := by
  cases o with
  | apply => cases ho
  | beginDualWrite | set | begun | setCopied | setCaughtUp | setCutover =>
    obtain ⟨_, h⟩ := h
    cases h
    rfl
  | _ => rw [performs_reads h rfl]

/-- The operations that change a route. -/
def Op.sets : Op → Bool
  | .set _ _ => true
  | _ => false

/-- Only `Set` changes the routes. -/
theorem performs_router (h : machine.Performs o s r s') (ho : o.sets = false) :
    s'.router = s.router := by
  cases o with
  | set => cases ho
  | beginDualWrite | apply | begun | setCopied | setCaughtUp | setCutover =>
    obtain ⟨_, h⟩ := h
    cases h
    rfl
  | _ => rw [performs_reads h rfl]

/-- `sort.Slice`. -/
theorem performs_sortSlice {records ordered : List Record}
    (h : machine.Performs (.sortSlice records) s ordered s') : Sorted records ordered := by
  obtain ⟨ch, h⟩ := h
  change perform (.sortSlice records) ch s = some (ordered, s') at h
  simp only [perform] at h
  split_ifs at h with hsorted
  cases h
  exact hsorted

variable {t : String} {snapshot : Except Err Snapshot}

/-- `source.Snapshot`. -/
theorem performs_snapshotSource (h : machine.Performs (.snapshotSource t) s snapshot s')
    (ht : t ≠ "") : ∃ order, snapshot = .ok ⟨order, s.source.seqOf t⟩ ∧
      order.Perm (values (s.source.recordsOf t)) := by
  obtain ⟨ch, h⟩ := h
  change perform (.snapshotSource t) ch s = some (snapshot, s') at h
  simp only [perform] at h
  split_ifs at h with hperm
  cases h
  exact ⟨ch.order, if_neg ht, hperm⟩

/-- `destination.Snapshot`. -/
theorem performs_snapshotDestination (h : machine.Performs (.snapshotDestination t) s snapshot s')
    (ht : t ≠ "") : ∃ order, snapshot = .ok ⟨order, s.destination.waterOf t⟩ ∧
      order.Perm (values (s.destination.recordsOf t)) := by
  obtain ⟨ch, h⟩ := h
  change perform (.snapshotDestination t) ch s = some (snapshot, s') at h
  simp only [perform] at h
  split_ifs at h with hperm
  cases h
  exact ⟨ch.order, if_neg ht, hperm⟩

/-- `source.BeginDualWrite`. -/
theorem performs_beginDualWrite {watermark : Except Err ℤ}
    (h : machine.Performs (.beginDualWrite t) s watermark s') (ht : t ≠ "") :
    watermark = .ok (s.source.seqOf t) ∧ s.Follows s' := by
  have hgrows := performs_source h
  obtain ⟨_, h⟩ := h
  cases h
  refine ⟨?_, hgrows, rfl, rfl, rfl⟩
  rw [MemorySource.beginDualWrite, if_neg ht]

/-- The flags of a tenant. -/
theorem performs_flags {read : Flags} (h : machine.Performs (.flags t) s read s') :
    read = s.tool.flagsOf t := by
  obtain ⟨_, h⟩ := h
  cases h
  rfl

/-- `t.cutovers[tenantID]`. -/
theorem performs_cutover {previous : Option Backend}
    (h : machine.Performs (.cutover t) s previous s') : previous = s.tool.cutovers.lookup t := by
  obtain ⟨_, h⟩ := h
  cases h
  rfl

variable {backend : Backend}

/-- `t.cutovers[tenantID] = previous`. -/
theorem performs_setCutover {r : machine.Res (.setCutover t backend)}
    (h : machine.Performs (.setCutover t backend) s r s') :
    s' = { s with tool := s.tool.withCutover t backend } := by
  obtain ⟨_, h⟩ := h
  cases h
  rfl

/-- `source.Changes`. -/
theorem performs_changes {after : ℤ} {read : Except Err (List Change × ℤ)}
    (h : machine.Performs (.changes t after) s read s') : read = s.source.changesAfter t after := by
  obtain ⟨_, h⟩ := h
  cases h
  rfl

/-- `destination.Apply`. -/
theorem performs_apply {records : List Record} {err : Option Err}
    (h : machine.Performs (.apply records) s err s') : err = (s.destination.apply records).1 ∧
      s' = { s with destination := (s.destination.apply records).2 } := by
  obtain ⟨_, h⟩ := h
  cases h
  exact ⟨rfl, rfl⟩

/-- `router.Current`. -/
theorem performs_current {backend : Except Err Backend}
    (h : machine.Performs (.current t) s backend s') (ht : t ≠ "") :
    backend = .ok (s.router.selected t) := by
  obtain ⟨_, h⟩ := h
  cases h
  exact if_neg ht

/-- `router.Set`. -/
theorem performs_set {err : Option Err} (h : machine.Performs (.set t backend) s err s')
    (ht : t ≠ "") :
    err = none ∧ s' = { s with router := { backend := s.router.backend.insert t backend } } := by
  obtain ⟨_, h⟩ := h
  cases h
  simp only [MemoryRouter.set, if_neg ht]
  exact ⟨trivial, trivial⟩

end AgentService.Migration
