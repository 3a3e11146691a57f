import ArkadeSdk.Swap.AssetSwap

/-! The two writers of an offer's record: the calls that cancel offers, and the watcher that takes
one spend event after the other. Each is cut at its awaits. What it waits for is first served, and
it goes on some time later. -/

namespace ArkadeSdk.OfferStatus

open WireFormat HexCodec

inductive Request
  | getUtxos
  | getAllSwaps
  | saveSwap (swap : AssetSwap)
  | send
  | getVirtualTxs (txids : List String)
  deriving DecidableEq

/-- How a request settles. A transaction that does not parse is `none`. -/
inductive Answer
  | utxos (vtxos : Except String (List Deposit))
  | swaps (swaps : Except String (List AssetSwap))
  | saved (done : Except String Unit)
  | sent (txid : Except String String)
  | txs (txs : Except String (List (Option SpendTx)))

inductive CancelPhase
  | selecting (fundingTxid : Option String)
  | checking (swapId : String)
  | marking (swapId : String)
  | savingMark (swapId : String) (updated : AssetSwap)
  | sending (swapId : String) (hasLocalRecord : Bool)
  | recording (swapId txid : String)
  | savingOutcome (swapId txid : String) (updated : AssetSwap)
  | finished (txid : Except String String)

def cancelling : AssetSwapChanges := ⟨.cancelling, none, none⟩

def cancelledBy (txid : String) : AssetSwapChanges := ⟨.cancelled, some txid, none⟩

/-- The record that `updateAssetSwap` saves, if the list has one. -/
def updatedIn (swaps : List AssetSwap) (id : String) (changes : AssetSwapChanges) :
    Option AssetSwap :=
  (AssetSwap.mergeById id changes (AssetSwap.byNewest swaps)).find? (·.id = id)

def selectUtxo (fundingTxid : Option String) (vtxos : List Deposit) : Except String Deposit :=
  match fundingTxid.filter (· ≠ "") with
  | some fundingTxid => match vtxos.find? (·.txid = fundingTxid) with
    | some vtxo => .ok vtxo
    | none => .error "no spendable VTXO at the swap address"
  | none => match vtxos with
    | [] => .error "no spendable VTXO at the swap address"
    | [vtxo] => .ok vtxo
    | _ => .error ("multiple spendable deposits at the swap address — pass fundingTxid to select " ++
        "one")

namespace CancelPhase

def request : CancelPhase → Option Request
  | .selecting _ => some .getUtxos
  | .checking _ | .marking _ | .recording _ _ => some .getAllSwaps
  | .savingMark _ updated | .savingOutcome _ _ updated => some (.saveSwap updated)
  | .sending _ _ => some .send
  | .finished _ => none

/-- Up to the next await. The marker gates the broadcast, so that what fails before it throws. -/
def resume : CancelPhase → Answer → Option CancelPhase
  | .selecting fundingTxid, .utxos vtxos => some <|
    match vtxos.bind (selectUtxo fundingTxid) with
    | .error error => .finished (.error error)
    | .ok vtxo => .checking (fundingTxid.getD vtxo.txid)
  | .checking swapId, .swaps swaps => some <|
    match swaps with
    | .error error => .finished (.error error)
    | .ok swaps => if swaps.any (·.id = swapId) then .marking swapId else .sending swapId false
  | .marking swapId, .swaps swaps => some <|
    match swaps with
    | .error error => .finished (.error error)
    | .ok swaps => match updatedIn swaps swapId cancelling with
      | some updated => .savingMark swapId updated
      | none => .sending swapId true
  | .savingMark swapId _, .saved done => some <|
    match done with
    | .error error => .finished (.error error)
    | .ok () => .sending swapId true
  | .sending swapId hasLocalRecord, .sent txid => some <|
    match txid with
    | .error error => .finished (.error error)
    | .ok txid => if hasLocalRecord then .recording swapId txid else .finished (.ok txid)
  | .recording swapId txid, .swaps swaps => some <|
    match swaps with
    | .error _ => .finished (.ok txid)
    | .ok swaps => match updatedIn swaps swapId (cancelledBy txid) with
      | some updated => .savingOutcome swapId txid updated
      | none => .finished (.ok txid)
  | .savingOutcome _ txid _, .saved _ => some (.finished (.ok txid))
  | _, _ => none

end CancelPhase

variable {Tree : Type} (L : OfferLibraries Tree)

/-- What `cancelOffer` checks before its first await that matters here: the offer decodes, and its
covenant is the one it names. -/
def cancelOffer (serverKey : Bytes) (offerHex : String) (fundingTxid : Option String) :
    CancelPhase :=
  match base16.decode offerHex with
  | none => .finished (.error "hex.decode: invalid input")
  | some data => match Offer.decodeOffer data with
    | .error _ => .finished (.error "malformed offer")
    | .ok offer => match offerLeaves L offer serverKey with
      | none => .finished (.error ("rebuilt covenant does not match the offer's swapPkScript — the " ++
          "server signing key has likely rotated since funding; pass swapAddress (the funded " ++
          "address) to pin the original key"))
      | some _ => .selecting fundingTxid

structure SpentVtxo where
  txid : String
  vout : ℕ
  spentBy : Option String
  arkTxId : Option String
  deriving DecidableEq

/-- A `vtxo_spent` event. -/
structure SpendEvent where
  kind : Option String
  contractScript : String
  vtxos : List SpentVtxo
  timestamp : ℤ
  deriving DecidableEq

def OFFER_CONTRACT_KIND : String := "asset-swap-offer"

/-- `vtxo.arkTxId || vtxo.spentBy`. -/
def SpentVtxo.spentTxid (vtxo : SpentVtxo) : Option String :=
  (vtxo.arkTxId.filter (· ≠ "")).or (vtxo.spentBy.filter (· ≠ ""))

def SpentVtxo.deposit (vtxo : SpentVtxo) : Deposit := ⟨vtxo.txid, vtxo.vout⟩

/-- Where the loop over an event's outputs is. -/
structure Turn where
  event : SpendEvent
  vtxo : SpentVtxo
  spentTxid : String
  rest : List SpentVtxo

inductive WatchPhase
  | idle
  | finding (turn : Turn)
  | classifying (turn : Turn) (swap : AssetSwap)
  | updating (turn : Turn) (swap : AssetSwap) (changes : AssetSwapChanges)
  | saving (turn : Turn) (changes : AssetSwapChanges) (updated : AssetSwap)

def nextTurn (event : SpendEvent) : List SpentVtxo → WatchPhase
  | [] => .idle
  | vtxo :: rest => match vtxo.spentTxid with
    | some spentTxid => .finding ⟨event, vtxo, spentTxid, rest⟩
    | none => nextTurn event rest

def handleSpend (event : SpendEvent) : WatchPhase :=
  if event.kind = some OFFER_CONTRACT_KIND then nextTurn event event.vtxos else .idle

def Turn.next (turn : Turn) : WatchPhase := nextTurn turn.event turn.rest

/-- The record of the deposit. -/
def Turn.find (turn : Turn) (swaps : List AssetSwap) : Option AssetSwap :=
  (AssetSwap.byNewest swaps).find? fun s ↦
    s.fundingTxid = turn.vtxo.txid ∧ s.swapPkScript = turn.event.contractScript

/-- `cancelOffer` recorded the spend itself. -/
def Turn.recognizes (turn : Turn) (swap : AssetSwap) : Bool :=
  swap.spentTxid = some turn.spentTxid && swap.status = .cancelling

/-- What the fetched transactions say of the spend. -/
def Turn.classify (serverPubkey : Bytes) (turn : Turn) (swap : AssetSwap)
    (txs : Except String (List (Option SpendTx))) : SpendKind :=
  match txs, base16.decode swap.offerHex with
  | .ok txs, some data => match Offer.decodeOffer data with
    | .ok offer =>
      if txs.all Option.isSome then
        classifyDepositSpend L offer serverPubkey txs.reduceOption turn.vtxo.deposit
      else .indeterminate
    | .error _ => .indeterminate
  | _, _ => .indeterminate

def Turn.decide (turn : Turn) (swap : AssetSwap) (kind : SpendKind) : WatchPhase :=
  match spendUpdate swap turn.spentTxid kind turn.event.timestamp with
  | some changes => .updating turn swap changes
  | none => turn.next

namespace WatchPhase

def request : WatchPhase → Option Request
  | .idle => none
  | .finding _ | .updating _ _ _ => some .getAllSwaps
  | .classifying turn _ => some (.getVirtualTxs (spendTxidsOf turn.vtxo.spentBy turn.vtxo.arkTxId))
  | .saving _ _ updated => some (.saveSwap updated)

def resume (serverPubkey : Bytes) : WatchPhase → Answer → Option WatchPhase
  | .finding turn, .swaps swaps => some <|
    match turn.find (swaps.toOption.getD []) with
    | none => turn.next
    | some swap =>
      if turn.recognizes swap then turn.decide swap .cancelled
      else if spendTxidsOf turn.vtxo.spentBy turn.vtxo.arkTxId = [] then
        turn.decide swap .indeterminate
      else .classifying turn swap
  | .classifying turn swap, .txs txs => some (turn.decide swap (turn.classify L serverPubkey swap txs))
  | .updating turn swap changes, .swaps swaps => some <|
    match swaps with
    | .error _ => turn.next
    | .ok swaps => match updatedIn swaps swap.id changes with
      | some updated => .saving turn changes updated
      | none => turn.next
  | .saving turn _ _, .saved _ => some turn.next
  | _, _ => none

end WatchPhase

inductive Party
  | cancel (call : ℕ)
  | watcher
  deriving DecidableEq

/-- What can be seen: a write that landed, with what it replaced, a cancel that was submitted, and
what was fetched of a spend. -/
inductive Event
  | wrote (party : Party) (before : Option AssetSwap) (after : AssetSwap)
  | submitted (swapId txid : String)
  | fetched (swap : AssetSwap) (deposit : Deposit) (txs : List (Option SpendTx))

structure Waiting (Phase : Type) where
  phase : Phase
  answer : Option Answer

structure State where
  swaps : List AssetSwap
  cancels : List (Waiting CancelPhase)
  watcher : Waiting WatchPhase
  queue : List SpendEvent
  log : List Event

inductive Input
  | cancelOffer (serverKey : Bytes) (offerHex : String) (fundingTxid : Option String)
  | spent (event : SpendEvent)
  | serve (party : Party) (answer : Answer)
  | resume (party : Party)

/-- Insert or replace by id. -/
def upsert (swap : AssetSwap) (swaps : List AssetSwap) : List AssetSwap :=
  if swaps.any (·.id = swap.id) then swaps.map fun s ↦ if s.id = swap.id then swap else s
  else swaps ++ [swap]

/-- What serving a request does to the store, where the answer is one to it. A read sees every
record, in no particular order. -/
def serveStore (swaps : List AssetSwap) : Request → Answer → Option (List AssetSwap)
  | .getUtxos, .utxos _ => some swaps
  | .getAllSwaps, .swaps (.ok listed) => if listed.Perm swaps then some swaps else none
  | .getAllSwaps, .swaps (.error _) => some swaps
  | .saveSwap swap, .saved (.ok ()) => some (upsert swap swaps)
  | .saveSwap _, .saved (.error _) => some swaps
  | .send, .sent _ => some swaps
  | .getVirtualTxs _, .txs _ => some swaps
  | _, _ => none

def written (party : Party) (swaps : List AssetSwap) : Option Request → Answer → List Event
  | some (.saveSwap swap), .saved (.ok ()) =>
    [.wrote party (swaps.find? (·.id = swap.id)) swap]
  | _, _ => []

def CancelPhase.seen : CancelPhase → Answer → List Event
  | .sending swapId _, .sent (.ok txid) => [.submitted swapId txid]
  | _, _ => []

def WatchPhase.seen : WatchPhase → Answer → List Event
  | .classifying turn swap, .txs (.ok txs) => [.fetched swap turn.vtxo.deposit txs]
  | _, _ => []

def serveCancel (s : State) (call : ℕ) (answer : Answer) : Option State := do
  let waiting ← s.cancels[call]?
  let request ← waiting.phase.request
  if waiting.answer.isSome then none
  else
    let swaps ← serveStore s.swaps request answer
    return { s with
      swaps := swaps
      cancels := s.cancels.set call ⟨waiting.phase, some answer⟩
      log := waiting.phase.seen answer ++ written (.cancel call) s.swaps (some request) answer ++
        s.log }

def serveWatcher (s : State) (answer : Answer) : Option State := do
  let request ← s.watcher.phase.request
  if s.watcher.answer.isSome then none
  else
    let swaps ← serveStore s.swaps request answer
    return { s with
      swaps := swaps
      watcher := ⟨s.watcher.phase, some answer⟩
      log := s.watcher.phase.seen answer ++ written .watcher s.swaps (some request) answer ++
        s.log }

def resumeCancel (s : State) (call : ℕ) : Option State := do
  let waiting ← s.cancels[call]?
  let answer ← waiting.answer
  let phase ← waiting.phase.resume answer
  return { s with cancels := s.cancels.set call ⟨phase, none⟩ }

/-- The next event in the queue starts once the last one is through. -/
def dequeue : WatchPhase → List SpendEvent → WatchPhase × List SpendEvent
  | .idle, [] => (.idle, [])
  | .idle, event :: queue => dequeue (handleSpend event) queue
  | phase, queue => (phase, queue)

def resumeWatcher (serverPubkey : Bytes) (s : State) : Option State := do
  let answer ← s.watcher.answer
  let phase ← s.watcher.phase.resume L serverPubkey answer
  let (phase, queue) := dequeue phase s.queue
  return { s with watcher := ⟨phase, none⟩, queue := queue }

def step (serverPubkey : Bytes) (s : State) : Input → Option State
  | .cancelOffer serverKey offerHex fundingTxid =>
    some { s with cancels := s.cancels ++ [⟨cancelOffer L serverKey offerHex fundingTxid, none⟩] }
  | .spent event =>
    match s.watcher.phase with
    | .idle =>
      let (phase, queue) := dequeue .idle (s.queue ++ [event])
      some { s with watcher := ⟨phase, none⟩, queue := queue }
    | _ => some { s with queue := s.queue ++ [event] }
  | .serve (.cancel call) answer => serveCancel s call answer
  | .serve .watcher answer => serveWatcher s answer
  | .resume (.cancel call) => resumeCancel s call
  | .resume .watcher => resumeWatcher L serverPubkey s

end ArkadeSdk.OfferStatus
