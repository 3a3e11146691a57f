import ArkadeSdk.Lib.Decimal
import ArkadeSdk.Lib.LabelledRun
import ArkadeSdk.Lib.SerializedStore
import ArkadeSdk.Wallet.ContractSecrets

/-! Allocations, adoptions and other writes of one wallet repository in any order, with the claim
secrets that are provisioned from them. -/

namespace ArkadeSdk.ClaimSecrets

open JsNumber LabelledRun HDWallet ContractSecrets
open WireFormat (Bytes)

inductive Wallet
  | hd (account : String)
  | static (xOnlyPublicKey : Bytes)
  deriving DecidableEq

structure Preimage where
  bytes : Bytes
  length_eq : bytes.length = 32
  deriving DecidableEq

/-- The check of a caller's preimage, `none` where it throws. -/
def checkPreimage : Option Bytes → Option (Option Preimage)
  | none => some none
  | some bytes => if h : bytes.length = 32 then some (some ⟨bytes, h⟩) else none

/-- Who waits for an update: a provisioning call goes on with its descriptor. -/
inductive Purpose
  | other
  | claim (given : Option Preimage)
  deriving DecidableEq

structure Job where
  update : Update
  purpose : Purpose
  deriving DecidableEq

def Job.apply (lib : WalletLibraries) (job : Job) (stored : Option WalletState) :
    Except Message (Option WalletState × Option Allocation) :=
  job.update.apply lib.materialize stored

/-- The child index at the end of a descriptor, unless it is past the safe integers. -/
def strictSigningDescriptorIndex (descriptor : String) : Option ℕ :=
  match descriptor.toList.reverse.dropWhile Decimal.isSpace with
  | ')' :: cs =>
    match cs.dropWhile Char.isDigit with
    | '/' :: _ =>
      (Decimal.readDigits 10 (cs.takeWhile Char.isDigit).reverse).filter (· < 2 ^ 53)
    | _ => none
  | _ => none

/-- How far a provisioning call has come. A restart loses those under way. -/
inductive Outcome
  | underway
  | lost
  | done (result : Except Refusal ProvisionedClaimSecret)

/-- A call of `provisionClaimSecret` that has its descriptor. -/
structure Provision where
  descriptor : String
  given : Option Preimage
  outcome : Outcome

inductive Event
  | allocated (a : Allocation)
  | adopted (account : String) (index : ℕ)

def Event.account : Event → String
  | .allocated a => a.account
  | .adopted account _ => account

def Event.index : Event → ℕ
  | .allocated a => a.index
  | .adopted _ index => index

/-- The newest event is the head. `salts` are the random bytes drawn as salts so far. -/
structure World where
  wallet : SerializedStore.State (Option WalletState) Job (Option Allocation)
  provisions : List Provision
  log : List Event
  salts : List Bytes

def World.start (stored : Option WalletState) : World := ⟨.start stored, [], [], []⟩

inductive Input
  | submit (update : Update)
  | advanceLastIndexUsed (account : String) (index : Number)
  | adoptContractDescriptor (wallet : Wallet) (descriptor : String) (answer : SignerAnswer)
  | provisionClaimSecret (wallet : Wallet) (given : Option Bytes)
  | lock (input : SerializedStore.Input Job)
  | finish (k : ℕ) (first second : SignerAnswer) (salt fallback : Bytes)

namespace World

variable (lib : WalletLibraries) (w : World)

def submit (job : Job) : World :=
  { w with wallet := { w.wallet with lock := w.wallet.lock.enqueue () job } }

/-- Indices that the account could not derive are ignored. -/
def advanceLastIndexUsed (account : String) (index : Number) : World :=
  match advancesTo index with
  | none => w
  | some index => w.submit ⟨.advanceLastIndexUsed account index, .other⟩

/-- A static wallet has no watermark. A foreign descriptor is skipped, one that the account does not
derive or that names no index is an error. -/
def adoptContractDescriptor (wallet : Wallet) (descriptor : String) (answer : SignerAnswer) :
    World :=
  if isPerArtifactDescriptor lib descriptor = false then w
  else match answer, wallet with
    | .foreign, _ | .fails _, _ | .signer _, .static _ => w
    | .signer _, .hd account =>
      if lib.isOurs account descriptor = false then w
      else match strictSigningDescriptorIndex descriptor with
        | none => w
        | some index => w.advanceLastIndexUsed account (.ofNat index)

def provisionClaimSecret (wallet : Wallet) (given : Option Bytes) : World :=
  match checkPreimage given with
  | none => w
  | some given => match wallet with
    | .hd account => w.submit ⟨.getNextSigningDescriptor account, .claim given⟩
    | .static key =>
      { w with provisions := w.provisions ++ [⟨identityDescriptor key, given, .underway⟩] }

def resolved (job : Job) (result : Option Allocation) : World :=
  match result with
  | some a =>
    { w with
      log := .allocated a :: w.log
      provisions := match job.purpose with
        | .other => w.provisions
        | .claim given => w.provisions ++ [⟨a.descriptor, given, .underway⟩] }
  | none => match job.update with
    | .advanceLastIndexUsed account index => { w with log := .adopted account index :: w.log }
    | _ => w

def lose (p : Provision) : Provision :=
  match p.outcome with
  | .underway => { p with outcome := .lost }
  | _ => p

def step : Input → Option World
  | .submit (.advanceLastIndexUsed _ _) => none
  | .submit update => some (w.submit ⟨update, .other⟩)
  | .advanceLastIndexUsed account index => some (w.advanceLastIndexUsed account index)
  | .adoptContractDescriptor wallet descriptor answer =>
    some (w.adoptContractDescriptor lib wallet descriptor answer)
  | .provisionClaimSecret wallet given => some (w.provisionClaimSecret wallet given)
  | .lock (.submit _) => none
  | .lock input => (w.wallet.step (Job.apply lib) input).map fun (wallet, out) ↦
    let w := { w with
      wallet
      provisions := match input with
        | .restart => w.provisions.map lose
        | _ => w.provisions }
    match out with
    | none => w
    | some (job, result) => w.resolved job result
  | .finish k first second salt fallback => match w.provisions[k]? with
    | some ⟨descriptor, given, .underway⟩ => some { w with
        provisions := w.provisions.set k ⟨descriptor, given,
          .done (provisionFor lib first second descriptor (given.map (·.bytes)) salt fallback)⟩
        salts := salt :: w.salts }
    | _ => none

end World

/-- Every index that was handed out is above all indices handed out or adopted before it. -/
def Fresh (e : Event) (earlier : List Event) : Prop :=
  ∀ a, e = .allocated a → ∀ e' ∈ earlier, e'.index < a.index

def Provision.secret (p : Provision) : Option ProvisionedClaimSecret :=
  match p.outcome with
  | .done (.ok s) => some s
  | _ => none

structure SecretsKept (lib : WalletLibraries) (w : World) : Prop where
  indices : Chronicle Fresh w.log
  distinct : ∀ (i j : ℕ) (p q : Provision) (s t : ProvisionedClaimSecret),
    w.provisions[i]? = some p → w.provisions[j]? = some q → p.secret = some s → q.secret = some t →
    s.mustPersistPreimage = false → t.mustPersistPreimage = false → s.preimage = t.preimage → i = j
  recoverable : ∀ p ∈ w.provisions, ∀ s, p.secret = some s → Recoverable lib s

/-- `randomBytes(32)` draws 32 bytes, and as a salt none that it drew before. -/
def Random (w : World) : Input → Prop
  | .finish _ _ _ salt fallback => salt ∉ w.salts ∧ fallback.length = 32
  | _ => True

end ArkadeSdk.ClaimSecrets
