import ArkadeSdk.Lib.LabelledRun
import ArkadeSdk.Lib.WireFormat

/-! Offchain sends, the recovery of interrupted ones, and the persisted setting `hasPendingTx`. -/

namespace ArkadeSdk.PendingTx

open JsNumber

abbrev Txid := String

structure OffchainTx where
  arkTx : Txid
  checkpoints : List Txid
  deriving DecidableEq

/-- What `signArkTx` returns: the id of the signed transaction, and how many checkpoints a batch
signer signed along. -/
structure SignedArkTx where
  arkTx : Txid
  userSignedCheckpoints : Option ℕ

/-- The transactions in the response, by their ids; one that does not decode is `none`. -/
structure SubmitTxResponse where
  arkTxid : Txid
  finalArkTx : Option (Option Txid)
  signedCheckpointTxs : List (Option Txid)

def checkSigner (signed : SignedArkTx) (tx : OffchainTx) : Except Message Unit :=
  match signed.userSignedCheckpoints with
  | none => .ok ()
  | some n => WireFormat.rejectIf (n ≠ tx.checkpoints.length)
      [.text "signer returned ", .value (.ofNat n), .text " signed checkpoints, expected ",
        .value (.ofNat tx.checkpoints.length)]

def assertSubmittedArkTxid (response : SubmitTxResponse) (signedArkTx : Txid) (context : String) :
    Except Message Unit := do
  WireFormat.rejectIf (response.arkTxid ≠ signedArkTx)
    (message (context ++ " returned ark txid " ++ response.arkTxid ++ ", expected " ++ signedArkTx))
  match response.finalArkTx with
  | none => return
  | some none => throw (message "invalid PSBT")
  | some (some finalTxid) =>
    WireFormat.rejectIf (finalTxid ≠ signedArkTx) (message
      (context ++ " returned final ark tx " ++ finalTxid ++ ", expected " ++ signedArkTx))

/-- The loop over the server's checkpoints; `byTxid` are the local ones not matched yet. -/
def matchFrom (context : String) (index : ℕ) (byTxid : List Txid) :
    List (Option Txid) → Except Message (List Txid)
  | [] => .ok []
  | none :: _ => .error (message "invalid PSBT")
  | some server :: rest => do
    WireFormat.rejectIf (server ∉ byTxid)
      [.text (context ++ " checkpoint "), .value (.ofNat index),
        .text (" txid " ++ server ++ " does not match any submitted checkpoint")]
    let matched ← matchFrom context (index + 1) (byTxid.erase server) rest
    return server :: matched

def matchServerCheckpoints (serverCheckpointTxs : List (Option Txid))
    (expectedCheckpoints : List Txid) (context : String) : Except Message (List Txid) := do
  WireFormat.rejectIf (serverCheckpointTxs.length ≠ expectedCheckpoints.length)
    [.text (context ++ " returned "), .value (.ofNat serverCheckpointTxs.length),
      .text " checkpoints, expected ", .value (.ofNat expectedCheckpoints.length)]
  matchFrom context 0 expectedCheckpoints serverCheckpointTxs

/-- What `submitOffchainTx` checks of a response before it signs a checkpoint. -/
def checkResponse (response : SubmitTxResponse) (arkTx : Txid) (tx : OffchainTx) :
    Except Message (List Txid) := do
  assertSubmittedArkTxid response arkTx "submitTx"
  matchServerCheckpoints response.signedCheckpointTxs tx.checkpoints "submitTx"

/-- Where the send that holds the transaction lock stands. `marked` and `cleared` are after a
write of the setting, before the send goes on. -/
inductive Send
  | signing (tx : OffchainTx)
  | marking (arkTx : Txid) (tx : OffchainTx)
  | marked (arkTx : Txid) (tx : OffchainTx)
  | submitting (arkTx : Txid) (tx : OffchainTx)
  | signingCheckpoints (arkTxid : Txid)
  | finalizing (arkTxid : Txid)
  | clearing (arkTxid : Txid)
  | cleared (arkTxid : Txid)
  deriving DecidableEq

/-- What a batch of `finalizePendingTxs` awaits: the answer of `getPendingTxs`, or, for one of the
answered transactions, its signatures and then `finalizeTx`. A batch that fails makes the whole
call throw, while the other batches go on. -/
inductive Work
  | asking
  | signing (arkTxid : Txid) (rest : List Txid)
  | finalizing (arkTxid : Txid) (rest : List Txid)
  | done
  | failed
  deriving DecidableEq

structure Batch where
  work : Work
  finalized : List Txid
  pending : List Txid
  deriving DecidableEq

inductive Pass
  | reading
  | gathering
  | running (seen : List Txid) (batches : List Batch)
  | clearing (finalized pending : List Txid)
  | done
  deriving DecidableEq

inductive Owner
  | send
  | pass (k : ℕ)
  deriving DecidableEq

/-- A queued `updateWalletState` that sets `hasPendingTx`. -/
structure Write where
  owner : Owner
  value : Bool
  deriving DecidableEq

/-- `requests` are the submissions on their way to the server. Of the server there are the
transactions that it has accepted, and those that it has finalized. -/
structure State where
  hasPendingTx : Bool
  writes : List Write
  send : Option Send
  passes : List Pass
  requests : List Txid
  finalizeRequests : List Txid
  accepted : List Txid
  finalized : List Txid
  deriving DecidableEq

def MAX_INPUTS_PER_INTENT : ℕ := 20

inductive Input
  | buildAndSubmitOffchainTx (tx : OffchainTx)
  | arkTxSigned (signed : SignedArkTx)
  | writeLands
  | writeFails
  | submitTx
  | accept (arkTxid : Txid)
  | refuse (arkTxid : Txid)
  | submitted (response : SubmitTxResponse)
  | checkpointsSigned
  | finalize (arkTxid : Txid)
  | finalized
  | sendFails
  | sendReturns
  | finalizePendingTxs
  | flagRead (k : ℕ)
  | gathered (k coins : ℕ)
  | passFails (k : ℕ)
  | answered (k b : ℕ) (pendingTxs : List Txid)
  | pendingSigned (k b : ℕ)
  | pendingFinalized (k b : ℕ)
  | pendingFails (k b : ℕ)
  | batchFails (k b : ℕ)
  | allSettled (k : ℕ)
  | crash

/-- The loop of a batch up to its next await: transactions that another batch has seen are
skipped. -/
def Batch.next (seen : List Txid) (batch : Batch) : List Txid → List Txid × Batch
  | [] => (seen, { batch with work := .done })
  | arkTxid :: rest =>
    if arkTxid ∈ seen then Batch.next seen batch rest
    else (arkTxid :: seen,
      { batch with work := .signing arkTxid rest, pending := batch.pending ++ [arkTxid] })

/-- One turn of batch `b` of a running pass. -/
def Pass.turn (f : List Txid → Batch → Option (List Txid × Batch)) (b : ℕ) : Pass → Option Pass
  | .running seen batches => do
    let batch ← batches[b]?
    let (seen, batch) ← f seen batch
    return .running seen (batches.set b batch)
  | _ => none

def State.onPass (s : State) (k : ℕ) (f : Pass → Option Pass) : Option State := do
  let pass ← s.passes[k]?
  let pass ← f pass
  return { s with passes := s.passes.set k pass }

/-- The transaction that batch `b` of pass `k` is signing. -/
def State.signingIn (s : State) (k b : ℕ) : Option Txid :=
  match s.passes[k]? with
  | some (.running _ batches) => match batches[b]? with
    | some ⟨.signing arkTxid _, _, _⟩ => some arkTxid
    | _ => none
  | _ => none

/-- What a write does when it is over: `landed` unless it failed. -/
def State.resume (s : State) (owner : Owner) (landed : Bool) : State :=
  match owner with
  | .send => match s.send with
    | some (.marking arkTx tx) =>
      { s with send := if landed then some (.marked arkTx tx) else none }
    | some (.clearing arkTxid) => { s with send := some (.cleared arkTxid) }
    | _ => s
  | .pass k => { s with passes := s.passes.set k .done }

def step (s : State) : Input → Option State
  | .buildAndSubmitOffchainTx tx => match s.send with
    | none => some { s with send := some (.signing tx) }
    | some _ => none
  | .arkTxSigned signed => match s.send with
    | some (.signing tx) => match checkSigner signed tx with
      | .ok _ => some { s with
          send := some (.marking signed.arkTx tx), writes := s.writes ++ [⟨.send, true⟩] }
      | .error _ => some { s with send := none }
    | _ => none
  | .writeLands => match s.writes with
    | [] => none
    | w :: rest => some ({ s with writes := rest, hasPendingTx := w.value }.resume w.owner true)
  | .writeFails => match s.writes with
    | [] => none
    | w :: rest => some ({ s with writes := rest }.resume w.owner false)
  | .submitTx => match s.send with
    | some (.marked arkTx tx) => some { s with
        send := some (.submitting arkTx tx), requests := arkTx :: s.requests }
    | _ => none
  | .accept arkTxid =>
    if arkTxid ∈ s.requests then some { s with
      requests := s.requests.erase arkTxid, accepted := arkTxid :: s.accepted }
    else none
  | .refuse arkTxid =>
    if arkTxid ∈ s.requests then some { s with requests := s.requests.erase arkTxid } else none
  | .submitted response => match s.send with
    | some (.submitting arkTx tx) => match checkResponse response arkTx tx with
      | .ok _ => some { s with send := some (.signingCheckpoints response.arkTxid) }
      | .error _ => some { s with send := none }
    | _ => none
  | .checkpointsSigned => match s.send with
    | some (.signingCheckpoints arkTxid) => some { s with
        send := some (.finalizing arkTxid), finalizeRequests := arkTxid :: s.finalizeRequests }
    | _ => none
  | .finalize arkTxid =>
    if arkTxid ∈ s.finalizeRequests ∧ arkTxid ∈ s.accepted then
      some { s with finalized := arkTxid :: s.finalized }
    else none
  | .finalized => match s.send with
    | some (.finalizing arkTxid) =>
      if arkTxid ∈ s.finalized then some { s with
        send := some (.clearing arkTxid), writes := s.writes ++ [⟨.send, false⟩] }
      else none
    | _ => none
  | .sendFails => match s.send with
    | some (.signing _) | some (.submitting _ _) | some (.signingCheckpoints _)
    | some (.finalizing _) => some { s with send := none }
    | _ => none
  | .sendReturns => match s.send with
    | some (.cleared _) => some { s with send := none }
    | _ => none
  | .finalizePendingTxs => some { s with passes := s.passes ++ [.reading] }
  | .flagRead k => s.onPass k fun
    | .reading => some (if s.hasPendingTx then .gathering else .done)
    | _ => none
  | .gathered k coins => s.onPass k fun
    | .gathering => some (if coins = 0 then .done else
        .running [] (List.replicate ((coins + MAX_INPUTS_PER_INTENT - 1) / MAX_INPUTS_PER_INTENT)
          ⟨.asking, [], []⟩))
    | _ => none
  | .passFails k => s.onPass k fun
    | .reading | .gathering => some .done
    | _ => none
  | .answered k b pendingTxs => s.onPass k (Pass.turn (fun seen batch ↦ match batch.work with
    | .asking => some (batch.next seen pendingTxs)
    | _ => none) b)
  | .pendingSigned k b => do
    let arkTxid ← s.signingIn k b
    let s ← s.onPass k (Pass.turn (fun seen batch ↦ match batch.work with
      | .signing arkTxid rest => some (seen, { batch with work := .finalizing arkTxid rest })
      | _ => none) b)
    return { s with finalizeRequests := arkTxid :: s.finalizeRequests }
  | .pendingFinalized k b => s.onPass k (Pass.turn (fun seen batch ↦ match batch.work with
    | .finalizing arkTxid rest =>
      if arkTxid ∈ s.finalized then
        some (Batch.next seen { batch with finalized := batch.finalized ++ [arkTxid] } rest)
      else none
    | _ => none) b)
  | .pendingFails k b => s.onPass k (Pass.turn (fun seen batch ↦ match batch.work with
    | .signing _ rest | .finalizing _ rest => some (batch.next seen rest)
    | _ => none) b)
  | .batchFails k b => s.onPass k (Pass.turn (fun seen batch ↦ match batch.work with
    | .asking => some (seen, { batch with work := .failed })
    | _ => none) b)
  | .allSettled k => match s.passes[k]? with
    | some (.running _ batches) =>
      if batches.all (·.work = .done) then
        let finalized := batches.flatMap (·.finalized)
        let pending := batches.flatMap (·.pending)
        if finalized.length = pending.length then some { s with
          passes := s.passes.set k (.clearing finalized pending)
          writes := s.writes ++ [⟨.pass k, false⟩] }
        else some { s with passes := s.passes.set k .done }
      else none
    | _ => none
  | .crash => some { s with writes := [], send := none, passes := [] }

end ArkadeSdk.PendingTx
