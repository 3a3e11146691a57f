import ArkadeSdk.Contracts.ContractRows
import Mathlib.Data.List.Range

/-! Gap-limit discovery of contracts. Indices are probed a window at a time and taken in ascending
order. An index that some handler did not answer truncates the scan. -/

namespace ArkadeSdk.Contracts

def SCAN_MAX_INDEX : ℕ := 10000

def DEFAULT_SCAN_BATCH : ℤ := 10

structure ScanContractsOptions where
  gapLimit : Option ℤ
  batchSize : Option ℤ
  hd : Bool
  materialize : ℕ → Except String String

/-- Options that passed their checks. -/
structure ScanLimits where
  gapLimit : ℕ
  batchSize : ℕ
  hd : Bool
  materialize : ℕ → Except String String
  gapLimit_pos : 0 < gapLimit
  batchSize_pos : 0 < batchSize

def ScanContractsOptions.limits (opts : ScanContractsOptions) : Except String ScanLimits :=
  let gapLimit := opts.gapLimit.getD 20
  let batchSize := opts.batchSize.getD DEFAULT_SCAN_BATCH
  if hgap : gapLimit ≤ 0 then
    .error ("scanContracts: gapLimit must be a positive integer (got " ++ toString gapLimit ++ ")")
  else if hbatch : batchSize ≤ 0 then
    .error ("scanContracts: batchSize must be a positive integer (got " ++ toString batchSize ++ ")")
  else .ok ⟨gapLimit.toNat, batchSize.toNat, opts.hd, opts.materialize, by omega, by omega⟩

def ScanLimits.maxIdx (limits : ScanLimits) : ℕ := if limits.hd then SCAN_MAX_INDEX else 0

structure HandlerError where
  handler : String
  index : ℕ
  toIndex : Option ℕ
  error : String
  deriving DecidableEq

/-- A handler's answer for a window: hits, the indices it could not answer for, and its failures at
the index each is anchored at. -/
structure HandlerWindowProbe where
  found : ℕ → List CreateContractParams
  indeterminate : ℕ → Bool
  errors : ℕ → Option HandlerError

/-- The handlers that can be probed, `boarding` first. -/
def discoverables (handlers : List ContractHandler) : List (String × Discoverable) :=
  let registered := handlers.filterMap fun h ↦ h.discoverable.map fun d ↦ (h.type, d)
  registered.filter (·.1 = "boarding") ++ registered.filter (·.1 ≠ "boarding")

def rangeStart (entries : List (ℕ × String)) : ℕ := (entries.head?.map (·.1)).getD 0

def rangeStop (entries : List (ℕ × String)) : ℕ := (entries.getLast?.map (·.1)).getD 0

def failRange (type : String) (entries : List (ℕ × String))
    (found : ℕ → List CreateContractParams) (error : String) : HandlerWindowProbe :=
  let start := rangeStart entries
  let stop := rangeStop entries
  { found := found
    indeterminate := fun index ↦ entries.any (·.1 = index)
    errors := fun index ↦
      if index = start then some ⟨type, start, if stop > start then some stop else none, error⟩
      else none }

/-- Probe one handler over a whole window. A range's answer has to cover every index of it. -/
def probeHandler (handler : String × Discoverable) (entries : List (ℕ × String)) :
    HandlerWindowProbe :=
  match handler.2.discoverRange with
  | none =>
    let answer (index : ℕ) := (entries.find? (·.1 = index)).map fun e ↦
      handler.2.discoverAt e.1 e.2
    { found := fun index ↦ match answer index with
        | some (.ok found) => found
        | _ => []
      indeterminate := fun index ↦ match answer index with
        | some (.error _) => true
        | _ => false
      errors := fun index ↦ match answer index with
        | some (.error error) => some ⟨handler.1, index, none, error⟩
        | _ => none }
  | some discoverRange => match discoverRange entries with
    | .error error => failRange handler.1 entries (fun _ ↦ []) error
    | .ok ranged =>
      let found (index : ℕ) := if entries.any (·.1 = index) then (ranged index).getD [] else []
      match entries.find? fun e ↦ (ranged e.1).isNone with
      | some missing => failRange handler.1 entries found
          (handler.1 ++ ".discoverRange resolved without index " ++ toString missing.1 ++
            " of the requested range [" ++ toString (rangeStart entries) ++ ".." ++
            toString (rangeStop entries) ++ "]")
      | none => ⟨found, fun _ ↦ false, fun _ ↦ none⟩

inductive Thrown
  | materialize (error : String)
  | persist (error : String)
  | ceiling (error : String)
  deriving DecidableEq

/-- `materialized` and `persisted` record what was asked for, and which rows were saved at which
index. -/
structure Scan where
  store : Store
  handlerErrors : List HandlerError
  highestConfirmedUsedIndex : ℤ
  truncatedAt : Option ℕ
  unused : ℕ
  thrown : Option Thrown
  materialized : List ℕ
  persisted : List (ℕ × Contract)

variable (env : Environment)

/-- An index with its hits, and whether somebody could not answer for it. -/
def visit (found : List CreateContractParams) (indeterminate : Bool) (errors : List HandlerError)
    (s : Scan) (index : ℕ) : Scan :=
  if s.thrown.isSome then s
  else
    let result := persistAll env s.store found
    let s := { s with
      store := result.1
      handlerErrors := s.handlerErrors ++ errors
      persisted := s.persisted ++
        (result.1.contracts.drop s.store.contracts.length).map fun row ↦ (index, row) }
    match result.2 with
    | some error => { s with thrown := some (.persist error) }
    | none =>
      let truncatedAt := s.truncatedAt.or (if indeterminate then some index else none)
      { s with
        truncatedAt := truncatedAt
        highestConfirmedUsedIndex := if found ≠ [] then index else s.highestConfirmedUsedIndex
        unused := if truncatedAt.isSome then s.unused else if found ≠ [] then 0 else s.unused + 1 }

def visitProbed (probes : List HandlerWindowProbe) (s : Scan) (index : ℕ) : Scan :=
  visit env (probes.flatMap (·.found index)) (probes.any (·.indeterminate index))
    (probes.filterMap (·.errors index)) s index

/-- The descriptors of a window, up to the first that cannot be derived. -/
def materializeAll (materialize : ℕ → Except String String) :
    List ℕ → List (ℕ × String) × Option String
  | [] => ([], none)
  | index :: rest => match materialize index with
    | .error error => ([], some error)
    | .ok descriptor =>
      let result := materializeAll materialize rest
      ((index, descriptor) :: result.1, result.2)

/-- The window is capped at what a scan of one index at a time could still reach. -/
def windowEnd (limits : ScanLimits) (unused i : ℕ) : ℕ :=
  min limits.maxIdx (i + min limits.batchSize (limits.gapLimit - unused) - 1)

theorem le_windowEnd {limits : ScanLimits} {unused i : ℕ} (hi : i ≤ limits.maxIdx)
    (hunused : unused < limits.gapLimit) : i ≤ windowEnd limits unused i := by
  have hbatch := limits.batchSize_pos
  unfold windowEnd
  omega

/-- The end of the loop. Reaching the ceiling with an open gap window is no result. -/
def ScanLimits.finish (limits : ScanLimits) (s : Scan) (i : ℕ) : Scan :=
  if limits.hd ∧ i > limits.maxIdx ∧ s.unused < limits.gapLimit then
    { s with thrown := some (.ceiling
      ("scanContracts: reached SCAN_MAX_INDEX (" ++ toString SCAN_MAX_INDEX ++
        ") without closing the " ++ toString limits.gapLimit ++
        "-index gap window; a Discoverable handler may be returning unconditional hits")) }
  else s

def scanWindows (limits : ScanLimits) (s : Scan) (i : ℕ) : Scan :=
  if h : i ≤ limits.maxIdx ∧ s.unused < limits.gapLimit then
    let stop := windowEnd limits s.unused i + 1
    let window := List.range' i (stop - i)
    let entries := materializeAll limits.materialize window
    let s := { s with materialized := s.materialized ++ entries.1.map (·.1) }
    match entries.2 with
    | some error => { s with thrown := some (.materialize error) }
    | none =>
      let probes := (discoverables env.contractHandlers).map (probeHandler · entries.1)
      let s' := window.foldl (visitProbed env probes) s
      if s'.thrown.isSome ∨ s'.truncatedAt.isSome then s' else scanWindows limits s' stop
  else limits.finish s i
termination_by limits.maxIdx + 1 - i
decreasing_by
  have := le_windowEnd h.1 h.2
  omega

def Scan.start (store : Store) : Scan := ⟨store, [], -1, none, 0, none, [], []⟩

def runScan (opts : ScanContractsOptions) (store : Store) : Except String Scan :=
  opts.limits.map fun limits ↦ scanWindows env limits (.start store) 0

structure ScanResult where
  lastIndexUsed : ℤ
  highestConfirmedUsedIndex : ℤ
  truncatedAt : Option ℕ
  handlerErrors : List HandlerError

/-- What the caller gets. -/
def Scan.result (s : Scan) : Except Thrown ScanResult :=
  match s.thrown with
  | some thrown => .error thrown
  | none => .ok ⟨s.highestConfirmedUsedIndex, s.highestConfirmedUsedIndex, s.truncatedAt,
      s.handlerErrors⟩

end ArkadeSdk.Contracts
