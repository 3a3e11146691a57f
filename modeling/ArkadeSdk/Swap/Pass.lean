import ArkadeSdk.Swap.OnchainHtlc

/-! One monitoring pass, cut at its awaits. A block runs from an answer to the next await with
nothing in between. -/

namespace ArkadeSdk.Rfq

open WireFormat JsNumber HexCodec

def REFUND_MTP_LAG_SECONDS : ℤ := 7200

/-- Which of the optional callbacks are there. The refund is not optional. -/
structure Wiring where
  claimOnchain : Bool
  claimLockup : Bool
  canRefundArkade : Bool
  saveSwap : Bool
  deriving DecidableEq

/-- The settings of a manager, and which of its optional dependencies are there. -/
structure Config where
  enableAutoActions : Bool
  chain : Bool
  contracts : Bool
  repository : Bool
  deriving DecidableEq

/-- What a manager remembers of one swap beside its record. -/
structure Memory where
  registered : Option Bool
  refundRefused : Bool
  lastClaimError : Option String
  claimedOutpoints : Option (List Outpoint)
  dirty : Bool
  deriving DecidableEq

def Memory.empty : Memory := ⟨none, false, none, none, false⟩

/-- An output as the indexer lists it. -/
structure IndexedVtxo where
  txid : String
  vout : ℕ
  value : Number
  deriving DecidableEq

/-- The two lists, each outpoint once and where it stands first. -/
def findLockupVtxos (spendable recoverable : List IndexedVtxo) : List LockupVtxo :=
  let all := spendable.map (fun v ↦ LockupVtxo.mk v.txid v.vout v.value false) ++
    recoverable.map fun v ↦ LockupVtxo.mk v.txid v.vout v.value true
  all.foldl (fun out v ↦ if out.any (·.outpoint = v.outpoint) then out else out ++ [v]) []

inductive RfqSwapActionName
  | claimOnchain
  | claimLockup
  | refundArkade
  deriving DecidableEq

/-- An action callback with what it is given beside the swap. -/
inductive Call
  | claimOnchain (utxo : ChainUtxo)
  | claimLockup (vtxos : List LockupVtxo) (partiallyClaimed : Bool)
  | refundArkade
  deriving DecidableEq

/-- What a pass waits for. -/
inductive Await
  | getContracts
  | registerLockup
  | lockupFate
  | lockupVtxos
  | claimLockup (vtxos : List LockupVtxo)
  | onchainHtlc
  | claimOnchain
  | drivenOnchain
  | canRefundArkade (now : ℤ) (wired : Bool)
  | refundArkade (now : ℤ)
  | driven
  | getRfqSwap
  | saveRfqSwap (record : RfqSwap)
  | saveSwap (swap : RfqSwap)
  deriving DecidableEq

/-- How an awaited promise settles. A rejection carries its error's text. -/
inductive Answer
  | yielded
  | contracts (existing : Except String Bool)
  | registered (row : Except String Unit)
  | fate (fate : Except String LockupFate)
  | vtxos (lists : Except String (List IndexedVtxo × List IndexedVtxo))
  | chain (view : Except String ChainView)
  | txid (txid : Except String String)
  /-- `none` is a probe that says yes, a throw counts as a reason. -/
  | probe (refusal : Option String)
  /-- The transaction pushed, if there was something to push. -/
  | refund (arkTxid : Option String)
  | refundNotLocallyPossible (reason : String)
  | refundFailed (error : String)
  | stored (record : Except String (Option RfqSwapOrigin))
  | written (done : Except String Unit)

/-- What can be seen of a manager. -/
inductive Event
  | added (rfqId : String)
  | tracked (rfqId : String) (ref : ℕ)
  | removed (rfqId : String)
  | started (pass : ℕ) (rfqId : String) (ref : ℕ)
  | answered (pass : ℕ) (rfqId : String) (ref : ℕ) (await : Await) (answer : Answer)
  | called (pass ref : ℕ) (swap : RfqSwap) (now : ℤ) (call : Call)
  | updated (ref : ℕ) (previous state : RfqSwapState)
  | actionFailed (ref : ℕ) (error : Message)
  | actionExecuted (ref : ℕ) (action : RfqSwapActionName)
  | untracked (pass ref tracked : ℕ)
  | retired (ref : ℕ)
  | swapCompleted (pass ref : ℕ)
  | swapFailed (pass ref : ℕ) (error : Message)
  | settled (pass : Option ℕ) (waiter found ref : ℕ) (answer : Except Message RfqSwapOutcome)
  | cancelled (waiter : ℕ)

/-- What a block reads and leaves alone. -/
structure Env where
  config : Config
  callbacks : Option Wiring
  origin : Option RfqSwapOrigin
  now : ℤ
  pass : ℕ
  ref : ℕ

/-- What a block works on. The log's newest entry is its head. -/
structure Work where
  swap : RfqSwap
  memory : Memory
  log : List Event

inductive Next
  | wait (await : Await)
  | done (persisted : Bool)

namespace Work

def say (w : Work) (e : Event) : Work := { w with log := e :: w.log }

def emitFailed (env : Env) (error : Message) (w : Work) : Work :=
  w.say (.actionFailed env.ref error)

def emitAction (env : Env) (action : RfqSwapActionName) (w : Work) : Work :=
  w.say (.actionExecuted env.ref action)

def touch (env : Env) (w : Work) : Work :=
  { w with swap := { w.swap with updatedAt := env.now }, memory := { w.memory with dirty := true } }

def setState (env : Env) (state : RfqSwapState) (w : Work) : Work :=
  if w.swap.state = state then w else
    let blockedReason :=
      if w.swap.state = .needs_counterparty then none else w.swap.blockedReason
    let labelled :=
      { w with swap := { w.swap with state := state, blockedReason := blockedReason } }
    (labelled.touch env).say (.updated env.ref w.swap.state state)

def fail (env : Env) (error : Message) (w : Work) : Work :=
  { w with swap := { w.swap with failure := some error } }.setState env .failed

def block (env : Env) (reason : Message) (w : Work) : Work :=
  let blocked := if w.swap.blockedReason = some reason then w
    else { w with swap := { w.swap with blockedReason := some reason } }.touch env
  blocked.setState env .needs_counterparty

def unblock (env : Env) (w : Work) : Work :=
  if w.swap.state = .needs_counterparty then
    w.setState env (if truthy (traderClaimTxid w.swap) then .claimed else .pending)
  else w

def setOnchainState (env : Env) (state : RfqSwapState) (w : Work) : Work :=
  if w.swap.state = .needs_counterparty ∧ env.now ≥ w.swap.refundLocktime then w
  else w.setState env state

def stampLockupSpends (env : Env) (spends : List (Option String)) (w : Work) : Work :=
  match spends.reduceOption with
  | [] => w
  | arkTxids =>
    { w with swap := { w.swap with lockupSpendArkTxids := some arkTxids } }.touch env

def hasUnclaimedOutpoint (vtxos : List LockupVtxo) (w : Work) : Bool :=
  match w.memory.claimedOutpoints with
  | none => true
  | some claimed => vtxos.any fun vtxo ↦ !claimed.contains vtxo.outpoint

def rememberClaimed (vtxos : List LockupVtxo) (w : Work) : Work :=
  let claimed := w.memory.claimedOutpoints.getD []
  { w with memory :=
    { w.memory with claimedOutpoints := some (claimed ++ vtxos.map LockupVtxo.outpoint) } }

/-- Hand the swap to a callback and wait for it. -/
def call (env : Env) (c : Call) (await : Await) (w : Work) : Work × Next :=
  (w.say (.called env.pass env.ref w.swap env.now c), .wait await)

/-- Nothing is left for the drive to do. -/
def handled (w : Work) : Work × Next := (w, .wait .driven)

end Work

open Work

section

variable (env : Env)

/-- Up to the first await: the lockup is registered once. -/
def ensureRegistered (w : Work) : Work × Next :=
  if env.config.contracts = false ∨ w.memory.registered.isSome then (w, .wait .lockupFate)
  else match w.swap.lockup with
    | none => (w, .wait .getContracts)
    | some lockup =>
      if lockup.pkScript ≠ w.swap.lockupPkScript then
        (emitFailed env
          (message ("swap " ++ w.swap.rfqId ++ " lockup script " ++ base16.encode lockup.pkScript ++
            " does not match its lockupPkScript " ++ base16.encode w.swap.lockupPkScript))
          { w with memory := { w.memory with registered := some false } }, .wait .lockupFate)
      else (w, .wait .registerLockup)

def afterGetContracts (existing : Except String Bool) (w : Work) : Work × Next :=
  (match existing with
    | .ok true => { w with memory := { w.memory with registered := some true } }
    | .error error => emitFailed env (message error) w
    | .ok false =>
      emitFailed env
        (message ("swap " ++ w.swap.rfqId ++ " carries no lockup script and has no contract row, " ++
          "so it cannot be registered — pass `lockup` to subscribe instead of polling"))
        { w with memory := { w.memory with registered := some false } },
    .wait .lockupFate)

def afterRegisterLockup (row : Except String Unit) (w : Work) : Work × Next :=
  (match row with
    | .ok () => { w with memory := { w.memory with registered := some true } }
    | .error error => emitFailed env (message error) w,
    .wait .lockupFate)

/-- The receive leg, up to its read of the lockup. -/
def driveReceiveClaim (w : Work) : Work × Next :=
  if env.now < w.swap.refundLocktime then (w, .wait .lockupVtxos)
  else if env.now < w.swap.refundLocktime + REFUND_MTP_LAG_SECONDS then
    if truthy w.swap.claimArkTxid then handled w
    else handled (block env (message
      "the claim window closed with the lockup unclaimed — only the solver can act now") w)
  else match w.memory.lastClaimError with
    | some failure =>
      if failure ≠ "" ∧ truthy w.swap.claimArkTxid = false then
        handled (fail env (message failure) w)
      else handled (setState env .refunded w)
    | none => handled (setState env .refunded w)

def claimIfFunded (vtxos : List LockupVtxo) (w : Work) : Work × Next :=
  let partiallyClaimed := w.swap.claimArkTxid.isSome
  let locked := lockedAmount vtxos
  if vtxos = [] then handled (unblock env w)
  else if partiallyClaimed ∧ hasUnclaimedOutpoint vtxos w = false then handled w
  else if partiallyClaimed = false ∧ w.swap.expectedAmount.isFinite = false then
    handled (block env
      [.text "expectedAmount is not a finite number (", .value w.swap.expectedAmount,
        .text "), so the funded value cannot be checked — refusing to publish the preimage"] w)
  else if partiallyClaimed = false ∧
      (locked.isFinite = false ∨ locked.lt w.swap.expectedAmount) then
    handled (block env
      [.text "lockup holds ", .value locked, .text " sats, below the agreed ",
        .value w.swap.expectedAmount, .text " — refusing to publish the preimage"] w)
  else match env.callbacks with
    | none =>
      handled (block env (message
        "no callbacks are wired, so this wallet cannot claim the lockup") w)
    | some wiring =>
      if wiring.claimLockup = false then
        handled (block env (message
          "no claimLockup callback is wired, so this wallet cannot claim the lockup") w)
      else if env.config.enableAutoActions = false then handled (setState env .claimable w)
      else call env (.claimLockup vtxos partiallyClaimed) (.claimLockup vtxos)
        (setState env .claimable w)

def afterLockupVtxos (lists : Except String (List IndexedVtxo × List IndexedVtxo)) (w : Work) :
    Work × Next :=
  match lists with
  | .error error => handled (emitFailed env (message error) w)
  | .ok (spendable, recoverable) => claimIfFunded env (findLockupVtxos spendable recoverable) w

def afterClaimLockup (vtxos : List LockupVtxo) (txid : Except String String) (w : Work) :
    Work × Next :=
  match txid with
  | .ok arkTxid =>
    let cleared := { w with memory := { w.memory with lastClaimError := none } }
    let remembered := rememberClaimed vtxos cleared
    let submitted := { remembered with swap := { w.swap with claimArkTxid := some arkTxid } }
    handled (emitAction env .claimLockup (setState env .claimed (touch env submitted)))
  | .error error =>
    handled (emitFailed env (message error)
      { w with memory := { w.memory with lastClaimError := some error } })

/-- The Arkade lockup, up to the probe's answer. -/
def driveArkadeRefund (w : Work) : Work × Next :=
  (w, .wait (.canRefundArkade env.now (env.callbacks.any (·.canRefundArkade))))

/-- The L1 half, up to its read. -/
def driveOnchain (w : Work) : Work × Next :=
  if env.config.chain then (w, .wait .onchainHtlc)
  else handled (fail env (message
    "onchain-send swap monitored without a ChainSource — the L1 fill cannot be seen or claimed") w)

def rememberFunding (phase : OnchainHtlcPhase) (w : Work) : Work :=
  match phase.utxo, w.swap.funding with
  | some utxo, none =>
    touch env { w with swap := { w.swap with funding := some ⟨utxo.txid, utxo.vout⟩ } }
  | _, _ => w

def claimFill (utxo : ChainUtxo) (w : Work) : Work × Next :=
  if truthy w.swap.claimTxid then (w, .wait .drivenOnchain)
  else match env.callbacks with
    | none => handled (setOnchainState env .claimable w)
    | some wiring =>
      if wiring.claimOnchain = false then
        handled (block env (message
          "no claimOnchain callback is wired, so this wallet cannot claim the L1 fill") w)
      else if env.config.enableAutoActions = false then
        handled (setOnchainState env .claimable w)
      else call env (.claimOnchain utxo) .claimOnchain (setOnchainState env .claimable w)

def recoverClaim (txid : String) (w : Work) : Work :=
  let known := if truthy w.swap.claimTxid then w
    else touch env { w with swap := { w.swap with claimTxid := some txid } }
  setOnchainState env .claimed known

def afterOnchainHtlc (view : Except String ChainView) (w : Work) : Work × Next :=
  match view with
  | .error _ => (w, .wait .drivenOnchain)
  | .ok chain =>
    let phase := classifyOnchainHtlc chain w.swap.htlc w.swap.minConfirmations w.swap.funding
    let seen := rememberFunding env phase w
    match nextOnchainAction phase w.swap.htlc.refundLocktime env.now, phase with
    | .claim, .claimable utxo => claimFill env utxo seen
    | .claimed, .claimed txid _ => (recoverClaim env txid seen, .wait .drivenOnchain)
    | _, _ => (seen, .wait .drivenOnchain)

def afterClaimOnchain (txid : Except String String) (w : Work) : Work × Next :=
  match txid with
  | .ok txid =>
    let published := { w with swap := { w.swap with claimTxid := some txid } }
    handled (emitAction env .claimOnchain (setOnchainState env .claimed published))
  | .error error => handled (emitFailed env (message error) w)

/-- From the probe's answer on. The time is the one read before the probe. -/
def afterCanRefundArkade (now : ℤ) (refusal : Option String) (w : Work) : Work × Next :=
  let claiming := w.swap.state = .claimable ∨ w.swap.state = .claimed
  let reprobed := { w with memory := { w.memory with refundRefused := false } }
  if truthy refusal then
    if now < w.swap.refundLocktime ∧ claiming then handled w
    else handled (block env (message (refusal.getD "")) w)
  else if w.memory.refundRefused ∧ env.callbacks.any (·.canRefundArkade) = false then handled w
  else if now < w.swap.refundLocktime then handled (unblock env reprobed)
  else match env.callbacks with
    | none =>
      handled (block env (message
        "no callbacks are wired, so this wallet cannot push the refund") reprobed)
    | some _ =>
      if env.config.enableAutoActions = false then
        handled (block env (message
          "automatic actions are disabled, so this wallet will not push the refund") reprobed)
      else call env .refundArkade (.refundArkade now) (unblock env reprobed)

def afterRefundArkade (arkTxid : Option String) (w : Work) : Work × Next :=
  let pushed := match arkTxid with
    | some arkTxid => touch env { w with swap := { w.swap with refundArkTxid := some arkTxid } }
    | none => w
  handled (emitAction env .refundArkade (setState env .refunded pushed))

def afterRefundNotLocallyPossible (reason : String) (w : Work) : Work × Next :=
  handled (block env (message reason)
    { w with memory := { w.memory with refundRefused := true } })

def afterRefundFailed (now : ℤ) (error : String) (w : Work) : Work × Next :=
  let reported := emitFailed env (message error) w
  if now ≥ w.swap.refundLocktime + REFUND_MTP_LAG_SECONDS then
    handled (fail env (message error) reported)
  else handled reported

/-- What the chain said of the lockup decides which leg is driven, or ends the swap. -/
def afterLockupFate (fate : Except String LockupFate) (w : Work) : Work × Next :=
  let fate := fate.toOption.getD .unknown
  match fate.verdict with
  | some state => handled (setState env state (stampLockupSpends env fate.spends w))
  | none => match w.swap.kind with
    | .lightning_receive => driveReceiveClaim env w
    | .onchain_send =>
      if w.swap.state = .claimed then driveArkadeRefund env w else driveOnchain env w
    | .lightning_send => driveArkadeRefund env w

/-- The second sink, once the first has taken the record. -/
def saveProjection (w : Work) : Work × Next :=
  if env.callbacks.any (·.saveSwap) then (w, .wait (.saveSwap w.swap)) else (w, .done true)

def save (w : Work) : Work × Next :=
  if env.config.repository then (w, .wait .getRfqSwap) else saveProjection env w

def afterDriven (w : Work) : Work × Next :=
  if w.memory.dirty then save env w else (w, .done true)

def originRequired (rfqId : String) : Message :=
  message ("rfq swap " ++ rfqId ++ " has no stored record and no origin was supplied; pass the " ++
    "request-time origin as addSwap's second argument so its first record can be " ++ "written")

def afterGetRfqSwap (record : Except String (Option RfqSwapOrigin)) (w : Work) : Work × Next :=
  match record with
  | .error error => (emitFailed env (message error) w, .done false)
  | .ok stored => match stored.or env.origin with
    | none => (emitFailed env (originRequired w.swap.rfqId) w, .done false)
    | some origin => match assertSameSwap origin w.swap with
      | .error error => (emitFailed env error w, .done false)
      | .ok () => (w, .wait (.saveRfqSwap w.swap))

def afterSaveRfqSwap (done : Except String Unit) (w : Work) : Work × Next :=
  match done with
  | .error error => (emitFailed env (message error) w, .done false)
  | .ok () => saveProjection env w

def afterSaveSwap (done : Except String Unit) (w : Work) : Work × Next :=
  match done with
  | .error error => (emitFailed env (message error) w, .done false)
  | .ok () => (w, .done true)

end

/-- The block that an answer starts, where it answers what the pass waits for. A probe that is
not there says yes. -/
def resume (env : Env) (w : Work) : Await → Answer → Option (Work × Next)
  | .getContracts, .contracts existing => some (afterGetContracts env existing w)
  | .registerLockup, .registered row => some (afterRegisterLockup env row w)
  | .lockupFate, .fate fate => some (afterLockupFate env fate w)
  | .lockupVtxos, .vtxos lists => some (afterLockupVtxos env lists w)
  | .claimLockup vtxos, .txid txid => some (afterClaimLockup env vtxos txid w)
  | .onchainHtlc, .chain view => some (afterOnchainHtlc env view w)
  | .claimOnchain, .txid txid => some (afterClaimOnchain env txid w)
  | .drivenOnchain, .yielded => some (driveArkadeRefund env w)
  | .canRefundArkade now true, .probe refusal => some (afterCanRefundArkade env now refusal w)
  | .canRefundArkade now false, .yielded => some (afterCanRefundArkade env now none w)
  | .refundArkade _, .refund arkTxid => some (afterRefundArkade env arkTxid w)
  | .refundArkade _, .refundNotLocallyPossible reason =>
    some (afterRefundNotLocallyPossible env reason w)
  | .refundArkade now, .refundFailed error => some (afterRefundFailed env now error w)
  | .driven, .yielded => some (afterDriven env w)
  | .getRfqSwap, .stored record => some (afterGetRfqSwap env record w)
  | .saveRfqSwap _, .written done => some (afterSaveRfqSwap env done w)
  | .saveSwap _, .written done => some (afterSaveSwap env done w)
  | _, _ => none

end ArkadeSdk.Rfq
