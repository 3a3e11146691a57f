import ArkadeSdk.Lib.LabelledRun
import ArkadeSdk.Script.Tapscript
import ArkadeSdk.Wallet.Batch

/-! The claims of a swap: the guard on the locked amount, what it infers from the spends at the
lockup, and the cooperative signature that rests on the same inference. -/

namespace ArkadeSdk.ClaimGuard

open WireFormat BatchTree Batch LabelledRun

structure Outpoint where
  txid : Txid
  vout : ℕ
  deriving DecidableEq

/-- A virtual output as the indexer tells it. -/
structure VirtualCoin extends VirtualFacts where
  outpoint : Outpoint
  value : ℕ
  arkTxId : Option Txid
  deriving DecidableEq

/-- A virtual output at one of the scripts of the wallet. -/
structure Receipt where
  script : Bytes
  txid : Txid
  vout : ℕ
  value : ℕ
  deriving DecidableEq

def isRecoverable (vtxo : VirtualCoin) : Bool := vtxo.swept && !vtxo.hasTerminalSpend

def total (vtxos : List VirtualCoin) : ℕ := (vtxos.map (·.value)).sum

def spendableOf (vtxos : List VirtualCoin) : List VirtualCoin :=
  vtxos.filter fun vtxo ↦ !vtxo.hasTerminalSpend

def spentOf (vtxos : List VirtualCoin) : List VirtualCoin :=
  vtxos.filter fun vtxo ↦ vtxo.hasTerminalSpend

def LOCKTIME_HEIGHT_THRESHOLD : ℕ := 500000000

def isBlockHeightLocktime (locktime : ℕ) : Bool := locktime < LOCKTIME_HEIGHT_THRESHOLD

/-- `now` is in seconds. -/
def isRefundLocktimeReached (locktime now : ℕ) (chainTipHeight : Option ℕ) : Bool :=
  if isBlockHeightLocktime locktime then chainTipHeight.any (locktime ≤ ·) else locktime ≤ now

/-- Unknown counts as reached. -/
def refundLocktimeReached (locktime : Option ℕ) (now : ℕ) (height : Option ℕ) : Bool :=
  match locktime with
  | none => true
  | some locktime =>
    if isBlockHeightLocktime locktime && height.isNone then true
    else isRefundLocktimeReached locktime now height

/-- What one look at a lockup is answered: the outputs there, the address of the wallet, the
outputs at its scripts and the height of the chain tip, if that can be read. -/
structure Answers where
  vtxos : List VirtualCoin
  address : String
  received : List Receipt
  height : Option ℕ

/-- The two destinations that a claim may have paid; `decode` gives the script of an Ark address
and nothing for any other. -/
def walletScripts (decode : String → Option Bytes) (toAddress : Option String)
    (address : String) : List Bytes :=
  ([toAddress, some address].reduceOption.filter (· ≠ "")).filterMap decode

def takenByTx (spent : List VirtualCoin) (txid : Txid) : ℕ :=
  total (spent.filter (·.arkTxId = some txid))

def receivedByTx (received : List Receipt) (txid : Txid) : ℕ :=
  ((received.filter (·.txid = txid)).map (·.value)).sum

section

variable (decode : String → Option Bytes)

/-- Every ark tx among the spends paid the scripts of the wallet what it took from the lockup. -/
def spentIntoOurWallet (toAddress : Option String) (a : Answers) (spent : List VirtualCoin) :
    Bool :=
  if spent.any fun vtxo ↦ !VirtualFacts.nonEmpty vtxo.arkTxId then false
  else if walletScripts decode toAddress a.address = [] then false
  else (spent.filterMap (·.arkTxId)).all fun txid ↦
    takenByTx spent txid ≤ receivedByTx a.received txid

def lockupClaimedByUs (toAddress : Option String) (refundLocktime : Option ℕ) (now : ℕ)
    (a : Answers) (spent : List VirtualCoin) : Bool :=
  if spent = [] then false
  else if spentIntoOurWallet decode toAddress a spent then true
  else if !refundLocktimeReached refundLocktime now a.height then true
  else false

structure ReverseSwap where
  onchainAmount : Option ℕ
  refund : Option ℕ
  deriving DecidableEq

/-- `amount` is that of the claim details, `refund` the refund locktime among their timeouts. -/
structure ChainSwap where
  acceptedQuoteAmount : Option ℕ
  amount : Option ℕ
  toAddress : Option String
  refund : Option ℕ
  claimTxid : Option Txid
  deriving DecidableEq

def expectedReverseClaimAmount (stored : Option ReverseSwap) (pending : ReverseSwap) : Option ℕ :=
  (stored.bind (·.onchainAmount)).or pending.onchainAmount

def expectedClaimAmount (stored : Option ChainSwap) (pending : ChainSwap) : Option ℕ :=
  (stored.bind (·.acceptedQuoteAmount)).or (pending.acceptedQuoteAmount.or
    ((stored.bind (·.amount)).or pending.amount))

inductive Swap
  | reverse (swap : ReverseSwap)
  | btcToArk (swap : ChainSwap)
  | arkToBtc (swap : ChainSwap)
  deriving DecidableEq

def Swap.agreed : Swap → Option ℕ
  | .reverse swap => swap.onchainAmount
  | .btcToArk swap | .arkToBtc swap => swap.acceptedQuoteAmount.or swap.amount

/-- The refund locktime and the destination that the look at the lockup is given. -/
def Swap.refund : Swap → Option ℕ
  | .reverse swap => swap.refund
  | .btcToArk swap | .arkToBtc swap => swap.refund

def Swap.toAddress : Swap → Option String
  | .reverse _ => none
  | .btcToArk swap | .arkToBtc swap => swap.toAddress

/-- A copy of the record that a caller still has: the quotes accepted and the claims made since
may be missing from it. -/
structure ReverseSwap.CopyOf (pending stored : ReverseSwap) : Prop where
  onchainAmount : pending.onchainAmount = stored.onchainAmount
  refund : pending.refund = stored.refund

structure ChainSwap.CopyOf (pending stored : ChainSwap) : Prop where
  acceptedQuoteAmount : pending.acceptedQuoteAmount = none ∨ stored.acceptedQuoteAmount ≠ none
  amount : pending.amount = stored.amount
  toAddress : pending.toAddress = stored.toAddress
  refund : pending.refund = stored.refund
  claimTxid : pending.claimTxid = none ∨ pending.claimTxid = stored.claimTxid

instance (pending stored : ReverseSwap) : Decidable (pending.CopyOf stored) :=
  decidable_of_iff (pending = stored)
    ⟨fun h ↦ h ▸ ⟨rfl, rfl⟩, fun ⟨h, h'⟩ ↦ by cases pending; cases stored; subst h h'; rfl⟩

instance (pending stored : ChainSwap) : Decidable (pending.CopyOf stored) :=
  decidable_of_iff ((pending.acceptedQuoteAmount = none ∨ stored.acceptedQuoteAmount ≠ none) ∧
      pending.amount = stored.amount ∧ pending.toAddress = stored.toAddress ∧
      pending.refund = stored.refund ∧
      (pending.claimTxid = none ∨ pending.claimTxid = stored.claimTxid))
    ⟨fun ⟨quote, amount, address, refund, txid⟩ ↦ ⟨quote, amount, address, refund, txid⟩,
      fun ⟨quote, amount, address, refund, txid⟩ ↦ ⟨quote, amount, address, refund, txid⟩⟩

def CLAIM_VTXO_RETRY_ATTEMPTS : ℕ := 3

inductive Method
  | claimVHTLC
  | claimArk
  deriving DecidableEq

inductive ClaimError
  | noSpendable
  | alreadySpent
  | lockupAmountMismatch (expectedAmount lockedAmount : ℕ)
  deriving DecidableEq

inductive Attempt
  | retry
  | refused (error : ClaimError)
  | claim (spendable : List VirtualCoin)
  deriving DecidableEq

def covered (expected : Option ℕ) (vtxos : List VirtualCoin) : Bool :=
  expected.all (· ≤ total (spendableOf vtxos))

/-- Asked only when the amount alone does not settle the question. -/
def partiallyClaimed (expected : Option ℕ) (toAddress : Option String) (refundLocktime : Option ℕ)
    (now : ℕ) (a : Answers) : Bool :=
  if covered expected a.vtxos then false
  else lockupClaimedByUs decode toAddress refundLocktime now a (spentOf a.vtxos)

/-- What comes after the attempts: nothing is claimed below the agreed amount, unless part of the
lockup was claimed before. -/
def afterAttempts (method : Method) (expected : Option ℕ) (partially : Bool)
    (vtxos : List VirtualCoin) : Attempt :=
  if spendableOf vtxos = [] then
    .refused (if method = .claimVHTLC ∧ vtxos ≠ [] then .alreadySpent else .noSpendable)
  else
    match expected with
    | none => .claim (spendableOf vtxos)
    | some expected =>
      if !partially && total (spendableOf vtxos) < expected then
        .refused (.lockupAmountMismatch expected (total (spendableOf vtxos)))
      else .claim (spendableOf vtxos)

def attempt (method : Method) (expected : Option ℕ) (toAddress : Option String)
    (refundLocktime : Option ℕ) (now count : ℕ) (a : Answers) : Attempt :=
  let partially := partiallyClaimed decode expected toAddress refundLocktime now a
  if spendableOf a.vtxos ≠ [] ∧ (covered expected a.vtxos ∨ partially) ∨
      CLAIM_VTXO_RETRY_ATTEMPTS ≤ count then
    afterAttempts method expected partially a.vtxos
  else .retry

/-- The transactions of a claim: `claimVHTLC` takes the outputs one by one, `claimArk` the live
ones together and then the recoverable ones. -/
def claimTxs : Method → List VirtualCoin → List (List VirtualCoin)
  | .claimVHTLC, spendable => spendable.map ([·])
  | .claimArk, spendable =>
    let live := spendable.filter (!isRecoverable ·)
    (if live = [] then [] else [live]) ++ (spendable.filter isRecoverable).map ([·])

/-- The last of the three ways to establish the own claim. -/
def lockupSpentByUs (toAddress : Option String) (refundLocktime : Option ℕ) (now : ℕ)
    (a : Answers) : Bool :=
  let spent := a.vtxos.filter (·.isSpent = some true)
  if a.vtxos ≠ [] ∧ spent.length = a.vtxos.length then
    spentIntoOurWallet decode toAddress a spent ||
      !refundLocktimeReached refundLocktime now a.height
  else false

def assertClaimSideClaimed (stored : Option ChainSwap) (pending : ChainSwap) (now : ℕ)
    (a : Answers) : Bool :=
  VirtualFacts.nonEmpty pending.claimTxid ||
    VirtualFacts.nonEmpty (stored.bind (·.claimTxid)) ||
    lockupSpentByUs decode pending.toAddress pending.refund now a

end

/-- A transaction that took an output; the ark tx of an offchain spend is told by the indexer. -/
structure Spend where
  byWallet : Bool
  txid : Txid
  offchain : Bool
  deriving DecidableEq

/-- An output at the lockup as it is: since when it is onchain, and what took it. -/
structure Output where
  outpoint : Outpoint
  value : ℕ
  unrolledAt : Option (ℕ × ℕ)
  spend : Option Spend
  deriving DecidableEq

/-- The leaves that carry no signature of the wallet. -/
inductive RefundLeaf
  | refundWithoutReceiver
  | unilateralRefundWithoutReceiver
  deriving DecidableEq

/-- Where a claim stands: at an attempt, or with transactions of its outputs still to make. -/
inductive Phase
  | looking (count : ℕ)
  | claiming (vtxos : List VirtualCoin) (todo : List (List VirtualCoin)) (failed : Bool)
      (txid : Option Txid)

structure Call where
  method : Method
  expected : Option ℕ
  phase : Phase

/-- What happened, the newest entry first: spends taken for own claims, the preimage disclosed
for outputs worth so much, an output taken by an own claim, a signature posted. -/
inductive Entry
  | attributed
  | disclosed (lockedAmount : ℕ)
  | took (outpoint : Outpoint) (value : ℕ)
  | signed
  deriving DecidableEq

/-- `now` is in seconds, `seen` are the outputs the indexer has told of, `submitted` the claim
transactions that the server was handed. -/
structure World where
  stored : Swap
  unilateralRefundWithoutReceiverDelay : RelativeTimelock
  now : ℕ
  height : ℕ
  outputs : List Output
  receipts : List Receipt
  seen : List Outpoint
  calls : List Call
  submitted : List (List Outpoint)
  log : List Entry

inductive Input
  | fund (outpoint : Outpoint) (value : ℕ)
  | wait (seconds blocks : ℕ)
  | unroll (outpoint : Outpoint)
  | refund (leaf : RefundLeaf) (outpoints : List Outpoint) (txid : Txid) (offchain : Bool)
      (pays : List Receipt)
  | pay (receipt : Receipt)
  | claimVHTLC (pending : ReverseSwap) (reread : Bool)
  | claimArk (pending : ChainSwap)
  | claimBtc (pending : ChainSwap) (lockedAmount : ℕ)
  | look (i : ℕ) (a : Answers)
  | submit (i : ℕ)
  | land (outpoints : List Outpoint) (txid : Txid) (offchain : Bool) (pays : List Receipt)
  | answer (i : ℕ) (txid : Option Txid)
  | finish (i : ℕ)
  | drop (i : ℕ)
  | sign (pending : ChainSwap) (a : Answers)

/-- Before the lockup is funded. -/
def World.start (stored : Swap) (delay : RelativeTimelock) : World :=
  ⟨stored, delay, 0, 0, [], [], [], [], [], []⟩

def Output.tookBy (o : Output) (outpoints : List Outpoint) (spend : Spend) : Output :=
  if o.outpoint ∈ outpoints then { o with spend := some spend } else o

def Output.Tells (o : Output) (vtxo : VirtualCoin) : Bool :=
  o.outpoint = vtxo.outpoint && o.value = vtxo.value &&
    (!vtxo.hasTerminalSpend || o.spend.any fun spend ↦
      !VirtualFacts.nonEmpty vtxo.arkTxId || spend.offchain && vtxo.arkTxId = some spend.txid)

namespace World

/-- Truthful answers, which may lag: every output told of is there, a spend told of was made,
receipts told of were had, and the chain is at least as high as told. -/
def Truthful (w : World) (decode : String → Option Bytes) (a : Answers) : Bool :=
  (a.vtxos.all fun vtxo ↦ w.outputs.any (·.Tells vtxo)) &&
    decide (a.vtxos.map (·.outpoint)).Nodup &&
    (a.received.all fun r ↦ r ∈ w.receipts &&
      r.script ∈ walletScripts decode w.stored.toAddress a.address) &&
    decide a.received.Nodup && a.height.all (· ≤ w.height)

def Unspent (w : World) (outpoints : List Outpoint) : Bool :=
  outpoints.all fun p ↦ w.outputs.any fun o ↦ o.outpoint = p && o.spend.isNone

def TakenByUs (w : World) (outpoint : Outpoint) : Bool :=
  w.outputs.any fun o ↦ o.outpoint = outpoint && o.spend.any (·.byWallet)

/-- The absolute locktime on the chain and the clock as they are, or the delay since the output
is onchain. -/
def Matured (w : World) : RefundLeaf → Outpoint → Bool
  | .refundWithoutReceiver, _ => refundLocktimeReached w.stored.refund w.now (some w.height)
  | .unilateralRefundWithoutReceiver, p => w.outputs.any fun o ↦
      o.outpoint = p && o.unrolledAt.any fun (now, height) ↦
        match w.unilateralRefundWithoutReceiverDelay with
        | ⟨delay, .blocks⟩ => (height : ℤ) + delay ≤ w.height
        | ⟨delay, .seconds⟩ => (now : ℤ) + delay ≤ w.now

def taking (w : World) (outpoints : List Outpoint) (spend : Spend) (pays : List Receipt) : World :=
  { w with
    outputs := w.outputs.map (·.tookBy outpoints spend)
    receipts := pays ++ w.receipts }

def setCall (w : World) (i : ℕ) (call : Call) : World := { w with calls := w.calls.set i call }

def dropCall (w : World) (i : ℕ) : World := { w with calls := w.calls.eraseIdx i }

def startCall (w : World) (method : Method) (expected : Option ℕ) : World :=
  { w with calls := w.calls ++ [⟨method, expected, .looking 1⟩] }

/-- One attempt, with what it was told and whether it asked who spent. -/
def looked (w : World) (decode : String → Option Bytes) (a : Answers) (expected : Option ℕ) :
    World :=
  { w with
    seen := a.vtxos.map (·.outpoint) ++ w.seen
    log := if partiallyClaimed decode expected w.stored.toAddress w.stored.refund w.now a then
        .attributed :: w.log
      else w.log }

def tookEntries (w : World) (outpoints : List Outpoint) : List Entry :=
  (w.outputs.filter (·.outpoint ∈ outpoints)).map fun o ↦ .took o.outpoint o.value

def claimed (w : World) (txid : Option Txid) : World :=
  { w with
    stored := match w.stored with
      | .btcToArk swap => .btcToArk { swap with claimTxid := txid }
      | swap => swap }

end World

section

variable (decode : String → Option Bytes)

def step (w : World) : Input → Option World
  | .fund outpoint value =>
    if w.outputs.all (·.outpoint ≠ outpoint) then
      some { w with outputs := w.outputs ++ [⟨outpoint, value, none, none⟩] }
    else none
  | .wait seconds blocks =>
    some { w with now := w.now + seconds, height := w.height + blocks }
  | .unroll outpoint =>
    some { w with
      outputs := w.outputs.map fun o ↦
        if o.outpoint = outpoint ∧ o.unrolledAt = none then
          { o with unrolledAt := some (w.now, w.height) }
        else o }
  | .refund leaf outpoints txid offchain pays =>
    if w.Unspent outpoints && outpoints.all (w.Matured leaf) &&
        (!offchain || leaf = .refundWithoutReceiver) then
      some (w.taking outpoints ⟨false, txid, offchain⟩ pays)
    else none
  | .pay receipt => some { w with receipts := receipt :: w.receipts }
  | .claimVHTLC pending reread =>
    match w.stored with
    | .reverse stored =>
      if pending.CopyOf stored then
        some (w.startCall .claimVHTLC
          (expectedReverseClaimAmount (if reread then some stored else none) pending))
      else none
    | _ => none
  | .claimArk pending =>
    match w.stored with
    | .btcToArk stored =>
      if pending.CopyOf stored then
        if VirtualFacts.nonEmpty pending.toAddress then
          some (w.startCall .claimArk (expectedClaimAmount (some stored) pending))
        else some w
      else none
    | _ => none
  | .claimBtc pending lockedAmount =>
    match w.stored with
    | .arkToBtc stored =>
      if pending.CopyOf stored then
        if VirtualFacts.nonEmpty pending.toAddress ∧
            (expectedClaimAmount (some stored) pending).all (· ≤ lockedAmount) then
          some { w with log := .disclosed lockedAmount :: w.log }
        else some w
      else none
    | _ => none
  | .look i a =>
    match w.calls[i]? with
    | some ⟨method, expected, .looking count⟩ =>
      if w.Truthful decode a then
        match attempt decode method expected w.stored.toAddress w.stored.refund w.now count a with
        | .retry => some ((w.looked decode a expected).setCall i
            ⟨method, expected, .looking (count + 1)⟩)
        | .refused _ => some ((w.looked decode a expected).dropCall i)
        | .claim vtxos => some ((w.looked decode a expected).setCall i
            ⟨method, expected, .claiming vtxos (claimTxs method vtxos) false none⟩)
      else none
    | _ => none
  | .submit i =>
    match w.calls[i]? with
    | some ⟨_, _, .claiming vtxos (claimTx :: _) _ _⟩ =>
      some { w with
        submitted := claimTx.map (·.outpoint) :: w.submitted
        log := .disclosed (total vtxos) :: w.log }
    | _ => none
  | .land outpoints txid offchain pays =>
    if outpoints ∈ w.submitted ∧ w.Unspent outpoints then
      some { w.taking outpoints ⟨true, txid, offchain⟩ pays with
        log := w.tookEntries outpoints ++ w.log }
    else none
  | .answer i txid =>
    match w.calls[i]?, txid with
    | some ⟨method, expected, .claiming vtxos (claimTx :: todo) failed first⟩, some txid =>
      if claimTx.all fun vtxo ↦ w.TakenByUs vtxo.outpoint then
        some (w.setCall i ⟨method, expected, .claiming vtxos todo failed (first.or (some txid))⟩)
      else none
    | some ⟨.claimVHTLC, expected, .claiming vtxos (_ :: todo) _ first⟩, none =>
      some (w.setCall i ⟨.claimVHTLC, expected, .claiming vtxos todo true first⟩)
    | some ⟨.claimArk, _, .claiming _ (_ :: _) _ _⟩, none => some (w.dropCall i)
    | _, _ => none
  | .finish i =>
    match w.calls[i]? with
    | some ⟨.claimVHTLC, _, .claiming _ [] _ _⟩ => some (w.dropCall i)
    | some ⟨.claimArk, _, .claiming _ [] _ txid⟩ => some ((w.dropCall i).claimed txid)
    | _ => none
  | .drop i => some (w.dropCall i)
  | .sign pending a =>
    match w.stored with
    | .btcToArk stored =>
      if pending.CopyOf stored ∧ w.Truthful decode a then
        if assertClaimSideClaimed decode (some stored) pending w.now a then
          some { w with
            seen := a.vtxos.map (·.outpoint) ++ w.seen
            log := .signed :: w.log }
        else some { w with seen := a.vtxos.map (·.outpoint) ++ w.seen }
      else none
    | _ => none

end

end ArkadeSdk.ClaimGuard
