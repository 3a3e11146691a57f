import ArkadeSdk.Lib.JsNumber
import ArkadeSdk.Lib.LabelledRun
import ArkadeSdk.Wallet.BatchJoin
import Mathlib.Data.List.Sort

/-! Renewal and periodic settlement: each pass runs on after every call that it waits for, and one
flag is shared between them. -/

namespace ArkadeSdk.Renewal

open JsNumber

structure Outpoint where
  txid : String
  vout : ℕ
  deriving DecidableEq

structure TimeHeight where
  timestamp : ℤ
  height : Option ℤ
  deriving DecidableEq

structure VirtualCoin where
  outpoint : Outpoint
  value : ℤ
  isSwept : Bool
  expiresAt : Option ℤ
  expiresAtHeight : Option ℤ
  deriving DecidableEq

structure BoardingCoin where
  outpoint : Outpoint
  value : ℤ
  confirmed : Bool
  blockTime : Option ℤ
  blockHeight : Option ℤ
  deriving DecidableEq

/-- The programs of the operator for the fees of an intent. -/
structure Estimator where
  offchainInput : VirtualCoin → ℚ
  onchainInput : ℤ → ℚ
  offchainOutput : Option (ℤ → String → ℚ)

/-- `FeeAmount.satoshis` -/
def satoshis (fee : ℚ) : ℤ := ⌈fee⌉

structure ArkInfo where
  estimator : Estimator
  vtxoMaxAmount : ℤ

def noFees : Estimator := ⟨fun _ ↦ 0, fun _ ↦ 0, none⟩

def MAX_VTXOS_PER_SETTLEMENT : ℕ := 50

/-- The key of `byExpiryAscending`: urgent, at a time, or never. -/
def expiryKey (now : TimeHeight) (vtxo : VirtualCoin) : ℤ × ℤ :=
  if vtxo.isSwept then (-1, 0)
  else match vtxo.expiresAt, vtxo.expiresAtHeight with
    | some expiresAt, _ => (0, expiresAt)
    | none, some expiresAtHeight =>
      if now.height.any (expiresAtHeight ≤ ·) then (-1, 0) else (1, 0)
    | none, none => (1, 0)

/-- Not after the other one. -/
def expiresBy (now : TimeHeight) (a b : VirtualCoin) : Prop :=
  (expiryKey now a).1 < (expiryKey now b).1 ∨
    (expiryKey now a).1 = (expiryKey now b).1 ∧ (expiryKey now a).2 ≤ (expiryKey now b).2

instance (now : TimeHeight) : DecidableRel (expiresBy now) :=
  fun _ _ ↦ inferInstanceAs (Decidable (_ ∨ _))

/-- A stable sort. -/
def byExpiryAscending (vtxos : List VirtualCoin) (now : TimeHeight) : List VirtualCoin :=
  vtxos.insertionSort (expiresBy now)

/-- The loop of `capSettlementBatch`, with the batch and the total so far. -/
def capFrom (maxAmount : ℤ) (batch : List VirtualCoin) (total : ℤ) :
    List VirtualCoin → List VirtualCoin
  | [] => batch
  | vtxo :: rest =>
    if MAX_VTXOS_PER_SETTLEMENT ≤ batch.length then batch
    else if 0 ≤ maxAmount ∧ maxAmount < total + vtxo.value then capFrom maxAmount batch total rest
    else capFrom maxAmount (batch ++ [vtxo]) (total + vtxo.value) rest

def capSettlementBatch (sorted : List VirtualCoin) (maxAmount : ℤ) : List VirtualCoin :=
  capFrom maxAmount [] 0 sorted

/-- The fee of an input that can pay for itself. -/
def payable (estimator : Estimator) (vtxo : VirtualCoin) : Bool :=
  satoshis (estimator.offchainInput vtxo) < vtxo.value

def net (estimator : Estimator) (vtxo : VirtualCoin) : ℤ :=
  vtxo.value - satoshis (estimator.offchainInput vtxo)

def subtotalOf (estimator : Estimator) (vtxos : List VirtualCoin) : ℤ :=
  (vtxos.map (net estimator)).sum

def deductOffchainOutputFee (subtotal : ℤ) (estimator : Estimator) (arkAddress : String) : ℤ :=
  match estimator.offchainOutput with
  | none => subtotal
  | some program => subtotal - satoshis (program subtotal arkAddress)

/-- The inputs that `renewVtxos` is left with: what pays for itself, capped where a cap bites. -/
def renewalInputs (info : Option ArkInfo) (now : TimeHeight) (vtxos : List VirtualCoin) :
    Except String (List VirtualCoin) :=
  let estimator := (info.map (·.estimator)).getD noFees
  let vtxoMaxAmount := (info.map (·.vtxoMaxAmount)).getD (-1)
  let vtxos := vtxos.filter (payable estimator)
  if vtxos = [] then
    .error "No VTXOs available to renew: every expiring VTXO is worth less than its own intent fee"
  else
    let capped := capSettlementBatch (byExpiryAscending vtxos now) vtxoMaxAmount
    if capped.length < vtxos.length then
      if capped = [] then .error ("No VTXOs available to renew within the per-output limit " ++
        toString vtxoMaxAmount)
      else .ok capped
    else .ok vtxos

/-- Of what a second selection gives, the outpoints that the first one gave too. -/
def among (candidates refreshed : List VirtualCoin) : List VirtualCoin :=
  refreshed.filter fun v ↦ v.outpoint ∈ candidates.map VirtualCoin.outpoint

/-- At `nowSeconds`, and with the height of the chain tip for a timelock in blocks. -/
def hasBoardingTxExpired (coin : BoardingCoin) (boardingTimelock : RelativeTimelock)
    (chainTipHeight : Option ℤ) (nowSeconds : ℤ) : Bool :=
  match coin.blockTime.filter (· ≠ 0) with
  | none => false
  | some blockTime =>
    if boardingTimelock.value = 0 then true
    else match boardingTimelock.type with
      | .blocks =>
        match chainTipHeight, coin.blockHeight.filter (· ≠ 0) with
        | some tip, some blockHeight => boardingTimelock.value ≤ tip - blockHeight
        | _, _ => false
      | .seconds => blockTime + boardingTimelock.value ≤ nowSeconds

def unsettledBoarding (knownBoardingUtxos : List Outpoint) (boardingTimelock : RelativeTimelock)
    (chainTipHeight : Option ℤ) (nowSeconds : ℤ) (boardingUtxos : List BoardingCoin) :
    List BoardingCoin :=
  let expiredSet := (boardingUtxos.filter fun utxo ↦
    hasBoardingTxExpired utxo boardingTimelock chainTipHeight nowSeconds).map (·.outpoint)
  boardingUtxos.filter fun u ↦
    u.confirmed && decide (u.outpoint ∉ knownBoardingUtxos) && decide (u.outpoint ∉ expiredSet)

/-- The boarding inputs that are worth their fee. -/
def filteredBoarding (estimator : Estimator) (unsettled : List BoardingCoin) : List BoardingCoin :=
  unsettled.filter fun u ↦ estimator.onchainInput u.value < u.value

def boardingTotal (estimator : Estimator) (boarding : List BoardingCoin) : ℤ :=
  (boarding.map fun u ↦ u.value - satoshis (estimator.onchainInput u.value)).sum

/-- The loop over the expiring virtual outputs, with what was taken and the total so far. -/
def takeVtxos (estimator : Estimator) (vtxoMaxAmount : ℤ) (filteredVtxos : List VirtualCoin)
    (totalAmount : ℤ) : List VirtualCoin → List VirtualCoin × ℤ
  | [] => (filteredVtxos, totalAmount)
  | v :: rest =>
    if MAX_VTXOS_PER_SETTLEMENT ≤ filteredVtxos.length then (filteredVtxos, totalAmount)
    else if v.value ≤ satoshis (estimator.offchainInput v) ∨
        0 ≤ vtxoMaxAmount ∧ vtxoMaxAmount < totalAmount + net estimator v then
      takeVtxos estimator vtxoMaxAmount filteredVtxos totalAmount rest
    else takeVtxos estimator vtxoMaxAmount (filteredVtxos ++ [v]) (totalAmount + net estimator v)
      rest

/-- What a pass waits for: its inputs so far, and what it still needs of what it was told. -/
inductive Phase
  | renewTip
  | renewSelect (now : TimeHeight)
  | renewRefresh (now : TimeHeight) (candidates : List VirtualCoin)
  | renewReselect (now : TimeHeight) (candidates : List VirtualCoin)
  | renewInfo (now : TimeHeight) (vtxos : List VirtualCoin)
  | renewRotate (estimator : Estimator) (vtxos : List VirtualCoin)
  | renewAddress (estimator : Estimator) (vtxos : List VirtualCoin)
  | renewSettle (vtxos : List VirtualCoin) (address : String) (amount : ℤ)
  | pollBoarding
  | pollChainTip (boardingUtxos : List BoardingCoin)
  | pollTip (unsettled : List BoardingCoin)
  | pollSelect (unsettled : List BoardingCoin) (now : TimeHeight)
  | pollRefresh (unsettled : List BoardingCoin) (now : TimeHeight) (candidates : List VirtualCoin)
  | pollReselect (unsettled : List BoardingCoin) (now : TimeHeight) (candidates : List VirtualCoin)
  | pollInfo (unsettled : List BoardingCoin) (now : TimeHeight) (expiring : List VirtualCoin)
  | pollRotate (estimator : Estimator) (boarding : List BoardingCoin) (vtxos : List VirtualCoin)
      (totalAmount : ℤ)
  | pollAddress (estimator : Estimator) (boarding : List BoardingCoin) (vtxos : List VirtualCoin)
      (totalAmount : ℤ)
  | pollSettle (boarding : List BoardingCoin) (vtxos : List VirtualCoin) (address : String)
      (amount : ℤ)
  | pollRest
  | ended

/-- What comes back from such a call. -/
inductive Answer
  | throws
  | time (now : TimeHeight)
  | vtxos (vtxos : List VirtualCoin)
  | refreshed
  | boarding (boardingUtxos : List BoardingCoin)
  | chainTip (height : ℤ)
  | info (info : ArkInfo)
  | done
  | address (address : String)
  | settled
  | alreadySpent

/-- The wallet, as far as a pass asks what it can do. -/
structure Manager where
  boardingTimelock : RelativeTimelock
  dustAmount : ℤ
  infoProvider : Bool
  migrationCapable : Bool

structure State where
  renewalInProgress : Bool
  lastRenewalTimestamp : ℤ
  lastPeriodicSettleTimestamp : ℤ
  consecutivePeriodicSettleFailures : ℕ
  knownBoardingUtxos : List Outpoint
  pollInProgress : Bool
  tasks : List Phase

def initial : State := ⟨false, 0, 0, 0, [], false, []⟩

/-- The argument of `renewVtxos`, as it comes over the message bus. -/
inductive ThresholdSeconds
  | missing
  | other
  | number (n : Number)

/-- A positive finite number, where one is given. -/
def ThresholdSeconds.valid : ThresholdSeconds → Bool
  | .missing => true
  | .other => false
  | .number n => n.isFinite && Number.lt (.ofInt 0) n

/-- A call from outside, or the answer that pass `k` waits for. `now` is the clock. -/
inductive Input
  | renewVtxos (thresholdSeconds : ThresholdSeconds)
  | vtxoReceived
  | pollBoardingUtxos
  | answer (k : ℕ) (answer : Answer)

/-- Whether it may begin a renewal. -/
def Input.renews : Input → Bool
  | .renewVtxos _ | .vtxoReceived => true
  | .pollBoardingUtxos | .answer _ _ => false

def RENEWAL_COOLDOWN_MS : ℤ := 30000
def PERIODIC_SETTLE_COOLDOWN_MS : ℤ := 30000
def PERIODIC_SETTLE_MAX_BACKOFF_MS : ℤ := 300000

namespace State

def enter (s : State) (k : ℕ) (phase : Phase) : State := { s with tasks := s.tasks.set k phase }

def spawn (s : State) (phase : Phase) : State := { s with tasks := s.tasks ++ [phase] }

/-- The `finally` of `renewVtxos`. -/
def endRenewal (s : State) (k : ℕ) (now : ℤ) : State :=
  { s with renewalInProgress := false, lastRenewalTimestamp := now }.enter k .ended

/-- `runPeriodicSettle` is over, and the poll goes on to what comes after it. -/
def endPeriodicSettle (s : State) (k : ℕ) : State := s.enter k .pollRest

def cooldownMs (s : State) : ℤ :=
  min (PERIODIC_SETTLE_COOLDOWN_MS * 2 ^ s.consecutivePeriodicSettleFailures)
    PERIODIC_SETTLE_MAX_BACKOFF_MS

/-- With the expiring virtual outputs at hand: nothing to do, too early, or on to the fees. -/
def periodicCandidates (s : State) (k : ℕ) (now : ℤ) (unsettled : List BoardingCoin)
    (tip : TimeHeight) (expiring : List VirtualCoin) : State :=
  if unsettled = [] ∧ expiring = [] then s.endPeriodicSettle k
  else if now - s.lastPeriodicSettleTimestamp < s.cooldownMs then s.endPeriodicSettle k
  else s.enter k (.pollInfo unsettled tip expiring)

/-- With the fees at hand: what is settled, and whether the wallet may have to rotate first. -/
def periodicInputs (manager : Manager) (s : State) (k : ℕ) (info : ArkInfo)
    (unsettled : List BoardingCoin) (tip : TimeHeight) (expiring : List VirtualCoin) : State :=
  let boarding := filteredBoarding info.estimator unsettled
  let (vtxos, totalAmount) := takeVtxos info.estimator info.vtxoMaxAmount []
    (boardingTotal info.estimator boarding) (byExpiryAscending expiring tip)
  if boarding = [] ∧ vtxos = [] then s.endPeriodicSettle k
  else if manager.migrationCapable then
    s.enter k (.pollRotate info.estimator boarding vtxos totalAmount)
  else s.enter k (.pollAddress info.estimator boarding vtxos totalAmount)

/-- With the address at hand: the flag is raised where virtual outputs are among the inputs. -/
def periodicSettle (manager : Manager) (s : State) (k : ℕ) (estimator : Estimator)
    (boarding : List BoardingCoin) (vtxos : List VirtualCoin) (totalAmount : ℤ)
    (address : String) : State :=
  let amount := deductOffchainOutputFee totalAmount estimator address
  if amount < manager.dustAmount then s.endPeriodicSettle k
  else { s with renewalInProgress := if vtxos = [] then s.renewalInProgress else true }.enter k
    (.pollSettle boarding vtxos address amount)

/-- The `finally` of `runPeriodicSettle`. -/
def periodicSettled (s : State) (k : ℕ) (now : ℤ) (boarding : List BoardingCoin)
    (vtxos : List VirtualCoin) (answer : Answer) : State :=
  let s := { s with lastPeriodicSettleTimestamp := now }
  let s := if vtxos = [] then s
    else { s with lastRenewalTimestamp := now, renewalInProgress := false }
  match answer with
  | .settled => { s with
      knownBoardingUtxos := s.knownBoardingUtxos ++ boarding.map BoardingCoin.outpoint
      consecutivePeriodicSettleFailures := 0 }.endPeriodicSettle k
  | .alreadySpent => s.endPeriodicSettle k
  | _ => { s with
      consecutivePeriodicSettleFailures :=
        s.consecutivePeriodicSettleFailures + 1 }.endPeriodicSettle k

/-- After the boarding inputs: the flag is read before the tip is asked for. -/
def periodicStart (manager : Manager) (s : State) (k : ℕ) (now : ℤ)
    (boardingUtxos : List BoardingCoin) (chainTipHeight : Option ℤ) : State :=
  let unsettled := unsettledBoarding s.knownBoardingUtxos manager.boardingTimelock chainTipHeight
    (now / 1000) boardingUtxos
  if s.renewalInProgress then s.periodicCandidates k now unsettled ⟨now, none⟩ []
  else s.enter k (.pollTip unsettled)

/-- Pass `k` runs on from what it waited for. -/
def resume (manager : Manager) (s : State) (k : ℕ) (now : ℤ) :
    Phase → Answer → Option State
  | .renewTip, .time tip => some (s.enter k (.renewSelect tip))
  | .renewSelect tip, .vtxos vtxos =>
    if vtxos = [] then some (s.endRenewal k now) else some (s.enter k (.renewRefresh tip vtxos))
  | .renewRefresh tip candidates, .refreshed => some (s.enter k (.renewReselect tip candidates))
  | .renewRefresh tip candidates, .throws => some (s.enter k (.renewInfo tip candidates))
  | .renewReselect tip candidates, .vtxos refreshed =>
    let vtxos := among candidates refreshed
    if vtxos = [] then some (s.endRenewal k now) else some (s.enter k (.renewInfo tip vtxos))
  | .renewReselect tip candidates, .throws => some (s.enter k (.renewInfo tip candidates))
  | .renewInfo tip vtxos, .info info =>
    match renewalInputs (if manager.infoProvider then some info else none) tip vtxos with
    | .error _ => some (s.endRenewal k now)
    | .ok vtxos =>
      let estimator := if manager.infoProvider then info.estimator else noFees
      if manager.infoProvider && manager.migrationCapable then
        some (s.enter k (.renewRotate estimator vtxos))
      else some (s.enter k (.renewAddress estimator vtxos))
  | .renewRotate estimator vtxos, .done => some (s.enter k (.renewAddress estimator vtxos))
  | .renewAddress estimator vtxos, .address address =>
    let amount := deductOffchainOutputFee (subtotalOf estimator vtxos) estimator address
    if amount < manager.dustAmount then some (s.endRenewal k now)
    else some (s.enter k (.renewSettle vtxos address amount))
  | .renewSettle _ _ _, .settled | .renewSettle _ _ _, .alreadySpent =>
    some (s.endRenewal k now)
  | .renewTip, .throws | .renewSelect _, .throws | .renewInfo _ _, .throws
  | .renewRotate _ _, .throws | .renewAddress _ _, .throws | .renewSettle _ _ _, .throws =>
    some (s.endRenewal k now)
  | .pollBoarding, .boarding boardingUtxos =>
    if manager.boardingTimelock.type = .blocks then some (s.enter k (.pollChainTip boardingUtxos))
    else some (s.periodicStart manager k now boardingUtxos none)
  | .pollChainTip boardingUtxos, .chainTip height =>
    some (s.periodicStart manager k now boardingUtxos (some height))
  | .pollTip unsettled, .time tip => some (s.enter k (.pollSelect unsettled tip))
  | .pollTip unsettled, .throws =>
    some (s.periodicCandidates k now unsettled ⟨now, none⟩ [])
  | .pollSelect unsettled tip, .vtxos vtxos =>
    if vtxos = [] then some (s.periodicCandidates k now unsettled tip [])
    else some (s.enter k (.pollRefresh unsettled tip vtxos))
  | .pollSelect unsettled tip, .throws => some (s.periodicCandidates k now unsettled tip [])
  | .pollRefresh unsettled tip candidates, .refreshed =>
    some (s.enter k (.pollReselect unsettled tip candidates))
  | .pollRefresh unsettled tip candidates, .throws =>
    some (s.periodicCandidates k now unsettled tip candidates)
  | .pollReselect unsettled tip candidates, .vtxos refreshed =>
    some (s.periodicCandidates k now unsettled tip
      (among candidates refreshed))
  | .pollReselect unsettled tip candidates, .throws =>
    some (s.periodicCandidates k now unsettled tip candidates)
  | .pollInfo unsettled tip expiring, .info info =>
    some (s.periodicInputs manager k info unsettled tip expiring)
  | .pollRotate estimator boarding vtxos totalAmount, .done =>
    some (s.enter k (.pollAddress estimator boarding vtxos totalAmount))
  | .pollAddress estimator boarding vtxos totalAmount, .address address =>
    some (s.periodicSettle manager k estimator boarding vtxos totalAmount address)
  | .pollSettle boarding vtxos _ _, .settled =>
    some (s.periodicSettled k now boarding vtxos .settled)
  | .pollSettle boarding vtxos _ _, .alreadySpent =>
    some (s.periodicSettled k now boarding vtxos .alreadySpent)
  | .pollSettle boarding vtxos _ _, .throws =>
    some (s.periodicSettled k now boarding vtxos .throws)
  | .pollChainTip _, .throws | .pollInfo _ _ _, .throws | .pollRotate _ _ _ _, .throws
  | .pollAddress _ _ _ _, .throws => some (s.endPeriodicSettle k)
  | .pollBoarding, .throws | .pollRest, .done | .pollRest, .throws =>
    some ({ s with pollInProgress := false }.enter k .ended)
  | _, _ => none

/-- `renewVtxos`, up to its first call. -/
def renewVtxos (s : State) (thresholdSeconds : ThresholdSeconds) : State :=
  if !thresholdSeconds.valid || s.renewalInProgress then s
  else { s with renewalInProgress := true }.spawn .renewTip

end State

def step (manager : Manager) (s : State) : Input × ℤ → Option State
  | (.renewVtxos thresholdSeconds, _) => some (s.renewVtxos thresholdSeconds)
  | (.vtxoReceived, now) =>
    if !s.renewalInProgress && RENEWAL_COOLDOWN_MS ≤ now - s.lastRenewalTimestamp then
      some (s.renewVtxos .missing)
    else some s
  | (.pollBoardingUtxos, _) =>
    if s.pollInProgress then some s
    else some ({ s with pollInProgress := true }.spawn .pollBoarding)
  | (.answer k answer, now) =>
    match s.tasks[k]? with
    | none => none
    | some phase => s.resume manager k now phase answer

end ArkadeSdk.Renewal
