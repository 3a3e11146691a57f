import Mathlib.Data.Int.Notation
import Mathlib.Data.List.Basic

/-! Contract rows, at most one a script. -/

namespace ArkadeSdk.Contracts

inductive ContractState
  | active
  | inactive
  deriving DecidableEq, Repr

inductive ContractWatchState
  | watched
  | awaitingFunds
  | retained
  deriving DecidableEq, Repr

structure CreateContractParams where
  label : Option String
  type : String
  params : List (String × String)
  script : String
  address : String
  state : Option ContractState
  watch : Option ContractWatchState
  deriving DecidableEq

structure Contract where
  label : Option String
  type : String
  params : List (String × String)
  script : String
  address : String
  state : ContractState
  watch : Option ContractWatchState
  createdAt : ℤ
  deriving DecidableEq

def watchStateOf (contract : Contract) : ContractWatchState := contract.watch.getD .watched

def isWatchedContract (contract : Contract) : Bool := watchStateOf contract ≠ .retained

/-- How a handler finds its contracts: index by index, or for a whole window at once. -/
structure Discoverable where
  discoverAt : ℕ → String → Except String (List CreateContractParams)
  discoverRange : Option (List (ℕ × String) → Except String (ℕ → Option (List CreateContractParams)))

structure ContractHandler where
  type : String
  createScript : List (String × String) → Except String String
  discoverable : Option Discoverable

/-- The registry, and the clock at each save. -/
structure Environment where
  contractHandlers : List ContractHandler
  now : ℕ → ℤ

/-- The rows, the speculative look-ahead scripts, and the scripts handed to the watcher. -/
structure Store where
  contracts : List Contract
  lookAheadEntries : List String
  subscribed : List String
  deriving DecidableEq

def areCoalescibleContractTypes (a b : String) : Bool :=
  a = "default" && b = "boarding" || a = "boarding" && b = "default"

def CreateContractParams.toContract (params : CreateContractParams) (now : ℤ) : Contract where
  label := params.label
  type := params.type
  params := params.params
  script := params.script
  address := params.address
  state := params.state.getD .active
  watch := params.watch
  createdAt := now

variable (env : Environment)

/-- What is wrong with the parameters. -/
def checkScript (params : CreateContractParams) : Except String Unit :=
  match env.contractHandlers.find? (·.type = params.type) with
  | none => .error ("No handler registered for contract type '" ++ params.type ++ "'")
  | some handler => match handler.createScript params.params with
    | .ok derivedScript =>
      if derivedScript = params.script then .ok ()
      else .error ("Script mismatch: provided script does not match script derived from params. " ++
        "Expected " ++ derivedScript ++ ", got " ++ params.script)
    | .error message =>
      if (message.splitOn "mismatch").length > 1 then .error message
      else .error ("Invalid params for contract type '" ++ params.type ++ "': " ++ message)

/-- The row of the script, and whether it is new. The first row of a script wins over a coalescible
one. -/
def upsertContractRow (contracts : List Contract) (params : CreateContractParams) :
    Except String (Contract × Bool) :=
  (checkScript env params).bind fun () ↦
    match contracts.find? (·.script = params.script) with
    | some existing =>
      if existing.type = params.type ∨ areCoalescibleContractTypes existing.type params.type then
        .ok (existing, false)
      else
        .error ("Contract with script " ++ params.script ++ " already exists with type " ++
          existing.type ++ ".")
    | none => .ok (params.toContract (env.now contracts.length), true)

def persistAndWatchContract (store : Store) (params : CreateContractParams) : Except String Store :=
  (upsertContractRow env store.contracts params).map fun (contract, persisted) ↦
    let lookAheadEntries := store.lookAheadEntries.filter (· ≠ params.script)
    if persisted then
      ⟨store.contracts ++ [contract], lookAheadEntries, store.subscribed ++ [contract.script]⟩
    else ⟨store.contracts, lookAheadEntries, store.subscribed⟩

/-- One contract after the other, up to the first that is refused. -/
def persistAll (store : Store) : List CreateContractParams → Store × Option String
  | [] => (store, none)
  | params :: rest => match persistAndWatchContract env store params with
    | .error message => (store, some message)
    | .ok store => persistAll store rest

end ArkadeSdk.Contracts
