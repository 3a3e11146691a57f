import ArkadeSdk.Lib.JsMap
import ArkadeSdk.Wallet.Batch

/-! The records of settlement intents, and who writes them: `settle`, the hooks of the batch it
joins, and `reconcileIntents`. -/

namespace ArkadeSdk.IntentRecords

open JsNumber BatchTree Batch

abbrev IntentTxId := String
abbrev Outpoint := Txid × ℕ

inductive ArkIntentState
  | waitingToSubmit
  | waitingForBatch
  | batchInProgress
  | batchFailed
  | batchSucceeded
  | cancelled
  deriving DecidableEq

def isTerminalIntentState : ArkIntentState → Bool
  | .batchFailed | .batchSucceeded | .cancelled => true
  | .waitingToSubmit | .waitingForBatch | .batchInProgress => false

structure ArkIntent where
  intentTxId : IntentTxId
  intentId : Option String
  state : ArkIntentState
  validUntil : Option ℤ
  createdAt : ℤ
  updatedAt : ℤ
  batchId : Option String
  commitmentTransactionId : Option Txid
  cancellationReason : Option String
  intentVtxos : List Outpoint
  deriving DecidableEq

abbrev Rows := JsMap.Entries IntentTxId ArkIntent

def reduceIntentState (current : ArkIntentState) (event : SettlementEvent) : ArkIntentState :=
  if isTerminalIntentState current then current
  else match event with
    | .batchStarted _ _ => .batchInProgress
    | .batchFinalized _ => .batchSucceeded
    | .batchFailed _ => .batchFailed
    | _ => current

def applySettlementEventToIntent (intent : ArkIntent) (batchId : String) (event : SettlementEvent) :
    Option ArkIntent :=
  let next := reduceIntentState intent.state event
  if next = intent.state then none
  else
    let updated := { intent with state := next, batchId := some batchId }
    some <| match event with
      | .batchFinalized commitmentTxid =>
        { updated with commitmentTransactionId := some commitmentTxid }
      | .batchFailed reason => { updated with cancellationReason := some reason }
      | _ => updated

structure IndexedCoin where
  isSpent : Bool
  settledBy : Option Txid
  deriving DecidableEq

abbrev Told := JsMap.Entries Outpoint IndexedCoin

def toldOf (vtxos : List (Outpoint × IndexedCoin)) : Told :=
  vtxos.foldl (fun told e ↦ JsMap.set e.1 e.2 told) []

/-- Spent offchain counts as well. -/
def isConsumed : Option IndexedCoin → Bool
  | none => false
  | some vtxo => vtxo.isSpent || vtxo.settledBy.isSome

def terminal (intent : ArkIntent) (state : ArkIntentState) (now : ℤ) : ArkIntent :=
  { intent with state := state, updatedAt := now }

def classifyIntent (intent : ArkIntent) (vtxosByOutpoint : Told) (now : ℤ) : Option ArkIntent :=
  if isTerminalIntentState intent.state then none
  else
    let consumed := intent.intentVtxos.map (JsMap.get vtxosByOutpoint)
    if intent.intentVtxos ≠ [] ∧ consumed.all isConsumed then
      some { terminal intent .batchSucceeded now with
        commitmentTransactionId := intent.commitmentTransactionId <|>
          (consumed.map (·.bind (·.settledBy))).findSome? (·.filter (· ≠ "")) }
    else if intent.state = .waitingToSubmit then
      some { terminal intent .cancelled now with
        cancellationReason := some "reconciliation: intent was never submitted before restart" }
    else if intent.validUntil.any (· < now) then
      some { terminal intent .cancelled now with
        cancellationReason := some "reconciliation: intent expired" }
    else none

/-- A run of `reconcileIntents`, by the call it waits for. `next` is what an intent, last seen in
the state `seen`, is to be saved as. -/
inductive Pass
  | listing
  | fetching (intents : List ArkIntent)
  | refreshing (seen : ArkIntentState) (next : ArkIntent) (rest : List ArkIntent) (told : Told)
    (now : ℤ)
  | saving (next : ArkIntent) (rest : List ArkIntent) (told : Told) (now : ℤ)
  | ended

def Pass.loop (told : Told) (now : ℤ) : List ArkIntent → Pass
  | [] => .ended
  | intent :: rest =>
    match classifyIntent intent told now with
    | none => loop told now rest
    | some next => .refreshing intent.state next rest told now

inductive PassAnswer
  | listed (intents : Option (List ArkIntent)) (now : ℤ)
  | fetched (vtxos : Option (List (Outpoint × IndexedCoin))) (now : ℤ)
  | refreshed (ok : Bool)
  | saved (ok : Bool)

/-- What the wallet's intents are: the inputs that an intent's id stands for, and the handler of
its batch once the server has named it. -/
structure Wallet where
  inputs : IntentTxId → List Outpoint
  libraries : Batch.Libraries
  handler : IntentTxId → String → Batch.Handler

structure Patch where
  state : ArkIntentState
  intentId : Option String
  commitmentTransactionId : Option Txid
  cancellationReason : Option String
  deriving DecidableEq

/-- The two ways in which a settlement writes its record once it has read it. -/
inductive Write
  | persistIntentSnapshot (patch : Patch)
  | persistTransition (batchId : String) (event : SettlementEvent)

def Write.next (w : Wallet) (id : IntentTxId) (now : ℤ) (existing : Option ArkIntent) :
    Write → Option ArkIntent
  | .persistIntentSnapshot patch =>
    if existing.any (isTerminalIntentState ·.state) then none
    else some {
      intentTxId := id
      intentId := patch.intentId <|> existing.bind (·.intentId)
      state := patch.state
      validUntil := existing.bind (·.validUntil)
      createdAt := (existing.map (·.createdAt)).getD now
      updatedAt := now
      batchId := existing.bind (·.batchId)
      commitmentTransactionId :=
        patch.commitmentTransactionId <|> existing.bind (·.commitmentTransactionId)
      cancellationReason := patch.cancellationReason <|> existing.bind (·.cancellationReason)
      intentVtxos := w.inputs id }
  | .persistTransition batchId event =>
    existing.bind fun intent ↦ applySettlementEventToIntent intent batchId event

/-- What a settlement goes on with after a write: its checks, the batch, the wallet's own records,
the deletion of the intent, or nothing any more. -/
inductive After
  | check
  | join (intentId : String)
  | resume (intentId : String) (batch : Batch.State)
  | commit (commitmentTxid : Txid)
  | delete (reason : String)
  | throw

/-- The call that a settlement waits for. In `safeRegisterIntent` a registration comes a second
time (`again`) after a release of the inputs. -/
inductive Phase
  | reading (write : Write) (after : After)
  | saving (next : ArkIntent) (after : After)
  | checking
  | registering (again : Bool)
  | releasing
  | joining (intentId : String) (batch : Batch.State)
  | storing (commitmentTxid : Txid)
  | deleting (reason : String)

def After.phase : After → Option Phase
  | .check => some .checking
  | .join intentId => some (.joining intentId Batch.initial)
  | .resume intentId batch => some (.joining intentId batch)
  | .commit commitmentTxid => some (.storing commitmentTxid)
  | .delete reason => some (.deleting reason)
  | .throw => none

inductive Checks
  | throws
  | noStream (reason : String)
  | pass

inductive Registration
  | resolves (intentId : String)
  | duplicatedInput
  | rejects (reason : String)

inductive Answer
  | read (ok : Bool) (now : ℤ)
  | saved (ok : Bool)
  | checked (checks : Checks)
  | registered (registration : Registration)
  | released (ok : Bool)
  | event (batchId : String) (event : SettlementEvent) (answers : Answers) (reason : String)
  | closed (reason : String)
  | stored (ok : Bool)
  | deleted (ok : Bool)

/-- Registrations on their way, the intents the server holds, and which commitment transaction
settled an output. -/
structure Server where
  requests : List IntentTxId
  live : List IntentTxId
  settled : Outpoint → Option Txid

inductive Entry
  | returned (id : IntentTxId) (commitmentTxid : Txid)
  | reconciled (next : ArkIntent)

structure State where
  rows : Rows
  settle : Option (IntentTxId × Phase)
  passes : List Pass
  server : Server
  log : List Entry

def initial : State := ⟨[], none, [], ⟨[], [], fun _ ↦ none⟩, []⟩

/-- One settlement runs at a time. `accepts`, `finalizes`, `fails` and `settles` are the server's
own: it takes a registration, a batch of its ends, an output is settled in some other way. -/
inductive Input
  | starts (id : IntentTxId)
  | settle (answer : Answer)
  | passStarts
  | pass (k : ℕ) (answer : PassAnswer)
  | crash
  | accepts (id : IntentTxId)
  | finalizes (id : IntentTxId) (commitmentTxid : Txid)
  | fails (id : IntentTxId)
  | settles (outpoint : Outpoint) (commitmentTxid : Txid)

/-- `deleteIntent` of the inputs of an intent: every intent over them goes. -/
def Server.deleteIntent (w : Wallet) (id : IntentTxId) (server : Server) : Server :=
  { server with live := server.live.filter fun other ↦
      other ≠ id && (w.inputs other).all (· ∉ w.inputs id) }

def Server.finalize (w : Wallet) (id : IntentTxId) (commitmentTxid : Txid) (server : Server) :
    Server :=
  { server with
    live := server.live.filter (· ≠ id)
    settled := fun o ↦ if o ∈ w.inputs id then some commitmentTxid else server.settled o }

namespace State

def enter (s : State) (id : IntentTxId) (phase : Phase) : State :=
  { s with settle := some (id, phase) }

def goOn (s : State) (id : IntentTxId) (after : After) : State :=
  { s with settle := after.phase.map fun phase ↦ (id, phase) }

def save (s : State) (ok : Bool) (next : ArkIntent) : State :=
  if ok then { s with rows := JsMap.set next.intentTxId next s.rows } else s

def register (s : State) (id : IntentTxId) (again : Bool) : State :=
  { s.enter id (.registering again) with
    server := { s.server with requests := id :: s.server.requests } }

end State

/-- One event of the batch: `join` handles it, and three kinds of it are recorded. -/
def joinStep (w : Wallet) (s : State) (id : IntentTxId) (intentId : String) (batch : Batch.State)
    (batchId : String) (event : SettlementEvent) (answers : Answers) (reason : String) :
    Option State :=
  (Batch.step w.libraries (w.handler id intentId) batch (event, answers)).map fun batch' ↦
    match event with
    | .batchStarted intentIdHashes _ =>
      if batch'.ended then s.enter id (.deleting reason)
      else if (w.handler id intentId).intentIdHash ∈ intentIdHashes then
        s.enter id (.reading (.persistTransition batchId event) (.resume intentId batch'))
      else s.enter id (.joining intentId batch')
    | .batchFailed failure =>
      s.enter id (.reading (.persistTransition batchId event) (.delete failure))
    | .batchFinalized commitmentTxid =>
      if batch'.ended then
        s.enter id (.reading (.persistTransition batchId event) (.commit commitmentTxid))
      else s.enter id (.joining intentId batch')
    | _ =>
      if batch'.ended then s.enter id (.deleting reason)
      else s.enter id (.joining intentId batch')

/-- The settlement of the intent `id` goes on with the answer it waits for. -/
def settleStep (w : Wallet) (s : State) (id : IntentTxId) : Phase → Answer → Option State
  | .reading write after, .read ok now =>
    match if ok then write.next w id now (JsMap.get s.rows id) else none with
    | none => some (s.goOn id after)
    | some next => some (s.enter id (.saving next after))
  | .saving next after, .saved ok => some ((s.save ok next).goOn id after)
  | .checking, .checked .throws => some { s with settle := none }
  | .checking, .checked (.noStream reason) => some (s.enter id (.deleting reason))
  | .checking, .checked .pass => some (s.register id false)
  | .registering _, .registered (.resolves intentId) =>
    some (s.enter id (.reading (.persistIntentSnapshot
      ⟨.waitingForBatch, some intentId, none, none⟩) (.join intentId)))
  | .registering again, .registered .duplicatedInput =>
    some (s.enter id (if again then .deleting "duplicated input" else .releasing))
  | .registering _, .registered (.rejects reason) => some (s.enter id (.deleting reason))
  | .releasing, .released ok =>
    if ok then some ({ s with server := s.server.deleteIntent w id }.register id true)
    else some (s.enter id (.deleting "duplicated input"))
  | .joining intentId batch, .event batchId event answers reason =>
    joinStep w s id intentId batch batchId event answers reason
  | .joining _ _, .closed reason => some (s.enter id (.deleting reason))
  | .storing commitmentTxid, .stored ok =>
    if ok then some { s with settle := none, log := .returned id commitmentTxid :: s.log }
    else some (s.enter id (.reading (.persistIntentSnapshot
      ⟨.batchSucceeded, none, some commitmentTxid, none⟩) .throw))
  | .deleting reason, .deleted ok =>
    let s := if ok then { s with server := s.server.deleteIntent w id } else s
    some (s.enter id (.reading (.persistIntentSnapshot
      ⟨.cancelled, none, none, some reason⟩) .throw))
  | _, _ => none

def nonTerminal (rows : Rows) : List ArkIntent :=
  (rows.map (·.2)).filter (!isTerminalIntentState ·.state)

/-- The next phase of a pass, and what it writes. The repository chooses the order of a list. -/
def passStep (rows : Rows) : Pass → PassAnswer → Option (Pass × Option ArkIntent)
  | .listing, .listed none _ => some (.ended, none)
  | .listing, .listed (some intents) now =>
    if intents.Perm (nonTerminal rows) then
      if intents.flatMap (·.intentVtxos) = [] then some (.loop [] now intents, none)
      else some (.fetching intents, none)
    else none
  | .fetching _, .fetched none _ => some (.ended, none)
  | .fetching intents, .fetched (some vtxos) now => some (.loop (toldOf vtxos) now intents, none)
  | .refreshing seen next rest told now, .refreshed ok =>
    if ok && (JsMap.get rows next.intentTxId).any (·.state = seen) then
      some (.saving next rest told now, none)
    else some (.loop told now rest, none)
  | .saving next rest told now, .saved ok =>
    some (.loop told now rest, if ok then some next else none)
  | _, _ => none

def step (w : Wallet) (s : State) : Input → Option State
  | .starts id =>
    if s.settle.isNone then some (s.enter id (.reading (.persistIntentSnapshot
      ⟨.waitingToSubmit, none, none, none⟩) .check))
    else none
  | .settle answer => s.settle.bind fun (id, phase) ↦ settleStep w s id phase answer
  | .passStarts => some { s with passes := s.passes ++ [.listing] }
  | .pass k answer => do
    let pass ← s.passes[k]?
    let (pass', saved) ← passStep s.rows pass answer
    let s := { s with passes := s.passes.set k pass' }
    match saved with
    | none => some s
    | some next => some { s.save true next with log := .reconciled next :: s.log }
  | .crash => some { s with settle := none, passes := [] }
  | .accepts id =>
    if id ∈ s.server.requests then some { s with server := { s.server with
      requests := s.server.requests.erase id
      live := id :: s.server.live } }
    else none
  | .finalizes id commitmentTxid =>
    if id ∈ s.server.live then some { s with server := s.server.finalize w id commitmentTxid }
    else none
  | .fails id => some { s with server := { s.server with live := s.server.live.filter (· ≠ id) } }
  | .settles outpoint commitmentTxid => some { s with server := { s.server with
      settled := fun o ↦ if o = outpoint then some commitmentTxid else s.server.settled o } }

end ArkadeSdk.IntentRecords
