import Mathlib.Algebra.Group.Int.Defs
import Mathlib.Data.List.Sort
import ArkadeSdk.Lib.JsMap
import ArkadeSdk.Lib.LabelledRun

/-! The receive address of a rotating wallet: a chain of rotations, the rows that they and other
parts of the wallet write, and the boot that chooses the address from the rows. -/

namespace ArkadeSdk.ReceiveRotator

open JsMap

/-- A receive script is told by its options. Its owner is the leaf key at an index. -/
@[ext]
structure Tapscript where
  owner : ℕ
  serverPubKey : String
  csvTimelock : ℕ
  delegatePubKey : Option String
  deriving DecidableEq

inductive ContractType
  | default
  | delegate
  | boarding
  deriving DecidableEq

def Tapscript.type (t : Tapscript) : ContractType :=
  if t.delegatePubKey.isSome then .delegate else .default

/-- `source`: whether the row is tagged `wallet-receive`. A descriptor is the index in it. -/
@[ext]
structure Metadata where
  source : Bool
  signingDescriptor : Option ℕ
  deriving DecidableEq

structure CreateContractParams where
  script : Tapscript
  type : ContractType
  metadata : Metadata

structure Contract where
  type : ContractType
  metadata : Metadata
  active : Bool
  createdAt : ℤ

abbrev Rows := Entries Tapscript Contract

def CreateContractParams.toContract (params : CreateContractParams) (createdAt : ℤ) : Contract :=
  ⟨params.type, params.metadata, true, createdAt⟩

def areCoalescibleContractTypes (a b : ContractType) : Bool :=
  a = .default && b = .boarding || a = .boarding && b = .default

def signingDescriptorIndex (descriptor : Option ℕ) : ℕ := descriptor.getD 0

def buildReceiveContract (current : Tapscript) (descriptor : ℕ) (tagSource : Bool) :
    CreateContractParams :=
  let tapscript := { current with owner := descriptor }
  ⟨tapscript, tapscript.type, ⟨tagSource, some descriptor⟩⟩

/-- The later of two rows comes first, by creation time and then by index. -/
def newer (a b : Tapscript × Contract) : Prop :=
  b.2.createdAt < a.2.createdAt ∨ b.2.createdAt = a.2.createdAt ∧
    signingDescriptorIndex b.2.metadata.signingDescriptor ≤
      signingDescriptorIndex a.2.metadata.signingDescriptor

instance : DecidableRel newer := fun _ _ ↦ inferInstanceAs (Decidable (_ ∨ _))

def isReceive (serverPubKey : String) (expectedType : ContractType)
    (row : Tapscript × Contract) : Bool :=
  row.2.type = expectedType && row.2.active && row.1.serverPubKey = serverPubKey &&
    row.2.metadata.source

def pickActiveReceive (rows : Rows) (serverPubKey : String) (expectedType : ContractType) :
    Option Tapscript :=
  (((rows.filter (isReceive serverPubKey expectedType)).insertionSort newer).head?).map (·.1)

def ROTATION_MAX_BACKOFF_MS : ℤ := 60000

inductive Job
  | rotate
  | signer (newServerPubKey : String)

/-- What a task on the chain waits for. -/
inductive Stage
  | allocating
  | reading (newServerPubKey : String)
  | looking (params : CreateContractParams)
  | saving (params : CreateContractParams) (createdAt : ℤ)
  | watching (script : Tapscript)
  | boarding (newOffchain : Tapscript)
  | retiring (previousTagged : Tapscript)
  | refilling

inductive Phase
  | queued
  | running (stage : Stage)
  | settled

def Phase.isSettled : Phase → Bool
  | .settled => true
  | _ => false

structure Task where
  job : Job
  phase : Phase

structure Store where
  rows : Rows
  lastIndexUsed : Option ℕ

/-- `tasks`: the rotator's chain, each task after the one before it. `looks`: the rows that other
parts of the wallet are about to save since they found none for the script. -/
structure Wallet extends Store where
  offchainTapscript : Tapscript
  boardingTapscript : Tapscript
  currentTaggedScript : Option Tapscript
  watched : List Tapscript
  tasks : List Task
  consecutiveFailures : ℕ
  nextRotationAllowedAt : ℤ
  looks : List (CreateContractParams × ℤ)

inductive State
  | stopped (store : Store)
  | running (wallet : Wallet)

/-- What a task waited for ends well, but for `failed`. With a fault the row was retired and its
watcher could not be told. The others: `received` and `signer` queue tasks, `allocate` and
`advance` move the shared index stream, `look` and `otherSaved` write another component's row
(which tags nothing but boarding rows), `unwatch` slides the look-ahead band past a script. -/
inductive Event
  | received (contractScript : Tapscript)
  | signer (newServerPubKey : String)
  | start (i : ℕ) (now : ℤ)
  | allocated (i : ℕ)
  | read (i : ℕ)
  | looked (i : ℕ) (now : ℤ)
  | saved (i : ℕ)
  | watched (i : ℕ)
  | boarded (i : ℕ) (now : ℤ)
  | retired (i : ℕ) (fault : Option ℤ)
  | refilled (i : ℕ)
  | failed (i : ℕ) (now : ℤ)
  | allocate
  | advance (index : ℕ)
  | look (params : CreateContractParams) (now : ℤ)
  | otherSaved (k : ℕ)
  | newBoarding (tapscript : Tapscript)
  | unwatch (script : Tapscript)
  | stop
  | boot (serverPubKey : String) (csvTimelock : ℕ) (delegatePubKey : Option String)
      (boardingTapscript : Tapscript)

def Store.nextIndex (s : Store) : ℕ :=
  match s.lastIndexUsed with
  | none => 0
  | some last => last + 1

def Store.advanced (s : Store) (index : ℕ) : Option ℕ :=
  match s.lastIndexUsed with
  | none => some index
  | some last => some (max last index)

namespace Wallet

variable (w : Wallet)

def enqueue (job : Job) : Wallet := { w with tasks := w.tasks ++ [⟨job, .queued⟩] }

def enter (i : ℕ) (phase : Phase) : Wallet :=
  { w with tasks := w.tasks.modify i fun task ↦ { task with phase := phase } }

def stageOf (i : ℕ) : Option (Job × Stage) :=
  match w.tasks[i]? with
  | some ⟨job, .running stage⟩ => some (job, stage)
  | _ => none

/-- The task before this one, if there is one, has settled. -/
def ready (i : ℕ) : Bool :=
  i = 0 || w.tasks[i - 1]?.any (·.phase.isSettled)

def backoffMs (consecutiveFailures : ℕ) : ℤ :=
  min (2 ^ min consecutiveFailures 16 * 1000) ROTATION_MAX_BACKOFF_MS

/-- A task rejects. A rotation that does puts off the next ones. -/
def fail (i : ℕ) (now : ℤ) (job : Job) : Wallet :=
  match job with
  | .signer _ => w.enter i .settled
  | .rotate =>
    { w.enter i .settled with
      consecutiveFailures := w.consecutiveFailures + 1
      nextRotationAllowedAt := now + backoffMs (w.consecutiveFailures + 1) }

def begin (i : ℕ) (now : ℤ) (job : Job) : Wallet :=
  match job with
  | .rotate =>
    if now < w.nextRotationAllowedAt then w.enter i .settled
    else w.enter i (.running .allocating)
  | .signer newServerPubKey =>
    if newServerPubKey = w.offchainTapscript.serverPubKey then w.enter i .settled
    else w.enter i (.running (.reading newServerPubKey))

def signerContract (newServerPubKey : String) : CreateContractParams :=
  let newOffchain := { w.offchainTapscript with serverPubKey := newServerPubKey }
  let metadata := (get w.rows w.offchainTapscript).map (·.metadata)
  ⟨newOffchain, newOffchain.type, metadata.getD ⟨false, none⟩⟩

/-- `createContract` has returned. A rotation swaps the tapscript at once, a change of the server
key goes on with the boarding contract. -/
def created (i : ℕ) (job : Job) (script : Tapscript) : Wallet :=
  match job with
  | .signer _ => w.enter i (.running (.boarding script))
  | .rotate =>
    let swapped := { w with offchainTapscript := script }
    match w.currentTaggedScript with
    | none => { swapped.enter i (.running .refilling) with currentTaggedScript := some script }
    | some previousTagged =>
      if previousTagged = script then
        { swapped.enter i (.running .refilling) with currentTaggedScript := some script }
      else swapped.enter i (.running (.retiring previousTagged))

def boardingContract (serverPubKey : String) : CreateContractParams :=
  let metadata := (get w.rows w.boardingTapscript).map (·.metadata)
  ⟨{ w.boardingTapscript with serverPubKey := serverPubKey }, .boarding,
    metadata.getD ⟨false, none⟩⟩

/-- The boarding contract is created where it has no row, and the wallet moves to the new key. -/
def commitSigner (i : ℕ) (now : ℤ) (newOffchain : Tapscript) : Wallet :=
  let params := w.boardingContract newOffchain.serverPubKey
  let stored : Wallet :=
    match get w.rows params.script with
    | some _ => w
    | none => { w with
        rows := set params.script (params.toContract now) w.rows
        watched := params.script :: w.watched }
  { stored.enter i (.running .refilling) with
    offchainTapscript := newOffchain
    boardingTapscript := params.script }

def finish (i : ℕ) (job : Job) : Wallet :=
  match job with
  | .signer _ => w.enter i .settled
  | .rotate => { w.enter i .settled with consecutiveFailures := 0, nextRotationAllowedAt := 0 }

def step (w : Wallet) : Event → Option Wallet
  | .received contractScript =>
    some (if contractScript = w.offchainTapscript then w.enqueue .rotate else w)
  | .signer newServerPubKey =>
    some (if newServerPubKey = w.offchainTapscript.serverPubKey then w
      else w.enqueue (.signer newServerPubKey))
  | .start i now =>
    match w.tasks[i]? with
    | some ⟨job, .queued⟩ => if w.ready i then some (w.begin i now job) else none
    | _ => none
  | .allocated i =>
    match w.stageOf i with
    | some (_, .allocating) =>
      let descriptor := w.nextIndex
      some { w.enter i (.running (.looking
          (buildReceiveContract w.offchainTapscript descriptor true))) with
        lastIndexUsed := some descriptor }
    | _ => none
  | .read i =>
    match w.stageOf i with
    | some (_, .reading newServerPubKey) =>
      some (w.enter i (.running (.looking (w.signerContract newServerPubKey))))
    | _ => none
  | .looked i now =>
    match w.stageOf i with
    | some (job, .looking params) =>
      match get w.rows params.script with
      | none => some (w.enter i (.running (.saving params now)))
      | some existing =>
        if existing.type = params.type || areCoalescibleContractTypes existing.type params.type
        then some (w.created i job params.script)
        else some (w.fail i now job)
    | _ => none
  | .saved i =>
    match w.stageOf i with
    | some (_, .saving params createdAt) =>
      some { w.enter i (.running (.watching params.script)) with
        rows := set params.script (params.toContract createdAt) w.rows }
    | _ => none
  | .watched i =>
    match w.stageOf i with
    | some (job, .watching script) =>
      some (({ w with watched := script :: w.watched } : Wallet).created i job script)
    | _ => none
  | .boarded i now =>
    match w.stageOf i with
    | some (_, .boarding newOffchain) => some (w.commitSigner i now newOffchain)
    | _ => none
  | .retired i fault =>
    match w.stageOf i with
    | some (job, .retiring previousTagged) =>
      (get w.rows previousTagged).map fun row ↦
        let rows := set previousTagged { row with active := false } w.rows
        match fault with
        | some now => { w.fail i now job with rows := rows }
        | none => { w.enter i (.running .refilling) with
            rows := rows
            currentTaggedScript := some w.offchainTapscript }
    | _ => none
  | .refilled i =>
    match w.stageOf i with
    | some (job, .refilling) => some (w.finish i job)
    | _ => none
  | .failed i now =>
    match w.stageOf i with
    | some (_, .refilling) | none => none
    | some (job, _) => some (w.fail i now job)
  | .allocate => some { w with lastIndexUsed := some w.nextIndex }
  | .advance index => some { w with lastIndexUsed := w.advanced index }
  | .look params now =>
    if (get w.rows params.script).isSome then some w
    else if params.metadata.source &&
        (params.type ≠ .boarding || params.metadata.signingDescriptor ≠ some params.script.owner)
      then none
    else some { w with looks := w.looks ++ [(params, now)] }
  | .otherSaved k =>
    match w.looks[k]? with
    | none => none
    | some (params, createdAt) =>
      some { w with
        rows := set params.script (params.toContract createdAt) w.rows
        watched := params.script :: w.watched
        looks := w.looks.eraseIdx k }
  | .newBoarding tapscript => some { w with boardingTapscript := tapscript }
  | .unwatch script => some { w with watched := w.watched.filter (· ≠ script) }
  | .stop | .boot .. => none

end Wallet

/-- `defaultBoot`, and the tapscript that `resolveBoot` makes of its answer. With no row of its own
the wallet shows the key at index 0, and takes that index where none was taken. -/
def boot (s : Store) (serverPubKey : String) (csvTimelock : ℕ) (delegatePubKey : Option String)
    (boardingTapscript : Tapscript) : Wallet :=
  let baseline : Tapscript := ⟨0, serverPubKey, csvTimelock, delegatePubKey⟩
  let existing := pickActiveReceive s.rows serverPubKey baseline.type
  { rows := s.rows
    lastIndexUsed := if existing.isSome then s.lastIndexUsed else some (s.lastIndexUsed.getD 0)
    offchainTapscript := { baseline with owner := (existing.map (·.owner)).getD 0 }
    boardingTapscript := boardingTapscript
    currentTaggedScript := existing
    watched := s.rows.map Prod.fst
    tasks := []
    consecutiveFailures := 0
    nextRotationAllowedAt := 0
    looks := [] }

def step : State → Event → Option State
  | .stopped store, .boot serverPubKey csvTimelock delegatePubKey boardingTapscript =>
    some (.running (boot store serverPubKey csvTimelock delegatePubKey boardingTapscript))
  | .stopped _, _ => none
  | .running w, .stop => some (.stopped w.toStore)
  | .running w, e => (w.step e).map .running

end ArkadeSdk.ReceiveRotator
