import ArkadeSdk.Lib.JsMap
import ArkadeSdk.Lib.JsNumber
import ArkadeSdk.Lib.KeyedLog
import Mathlib.Data.List.Sort

/-! The history of a wallet, told from its virtual outputs and its boarding transactions. -/

namespace ArkadeSdk.History

open JsNumber

/-- A transaction's id. The empty string stands for no transaction. -/
abbrev Txid := { txid : String // txid ≠ "" }

structure Asset where
  assetId : String
  amount : ℤ
  deriving DecidableEq

inductive VirtualState
  | preconfirmed
  | settled
  | swept
  | spent
  deriving DecidableEq

structure VirtualStatus where
  state : VirtualState
  commitmentTxIds : Option (List Txid)
  deriving DecidableEq

structure VirtualCoin where
  txid : Txid
  vout : ℕ
  value : ℤ
  createdAt : ℤ
  isLeaf : Bool
  isSpent : Option Bool
  settledBy : Option String
  arkTxId : Option String
  commitmentTxIds : Option (List Txid)
  virtualStatus : Option VirtualStatus
  assets : Option (List Asset)
  deriving DecidableEq

/-- A virtual output whose facts have been filled in. -/
structure NormalizedVirtualCoin where
  txid : Txid
  vout : ℕ
  value : ℤ
  createdAt : ℤ
  isLeaf : Bool
  isSpent : Bool
  settledBy : Option String
  arkTxId : Option String
  commitmentTxIds : List Txid
  assets : Option (List Asset)
  deriving DecidableEq

def normalizeVtxo (v : VirtualCoin) : NormalizedVirtualCoin where
  txid := v.txid
  vout := v.vout
  value := v.value
  createdAt := v.createdAt
  isLeaf := v.isLeaf
  isSpent := v.isSpent.getD (v.virtualStatus.map (·.state) = some .spent)
  settledBy := v.settledBy
  arkTxId := v.arkTxId
  commitmentTxIds := (v.commitmentTxIds.or (v.virtualStatus.bind (·.commitmentTxIds))).getD []
  assets := v.assets

inductive TxType
  | TxSent
  | TxReceived
  deriving DecidableEq

inductive BuiltinTxTag
  | boarding
  | batch
  | offchain
  | exit
  deriving DecidableEq

/-- The commitment is undefined for a leaf that names none. -/
structure TxKey where
  boardingTxid : String
  commitmentTxid : Option String
  arkTxid : String
  deriving DecidableEq

def txKey : TxKey := ⟨"", some "", ""⟩

structure ArkTransaction where
  key : TxKey
  type : TxType
  amount : ℤ
  settled : Bool
  createdAt : ℤ
  assets : Option (List Asset)
  deriving DecidableEq

structure ExtendedArkTransaction extends ArkTransaction where
  tag : BuiltinTxTag
  deriving DecidableEq

def given (id : Option String) : Option Txid :=
  id.bind fun txid ↦ if h : txid ≠ "" then some ⟨txid, h⟩ else none

def listAssets (amounts : JsMap.Entries String ℤ) : Option (List Asset) :=
  if amounts.isEmpty then none else some (amounts.map fun (assetId, amount) ↦ ⟨assetId, amount⟩)

def addAsset (amounts : JsMap.Entries String ℤ) (a : Asset) : JsMap.Entries String ℤ :=
  JsMap.set a.assetId ((JsMap.get amounts a.assetId).getD 0 + a.amount) amounts

def removeAsset (amounts : JsMap.Entries String ℤ) (a : Asset) : JsMap.Entries String ℤ :=
  let remaining := (JsMap.get amounts a.assetId).getD 0 - a.amount
  if remaining ≠ 0 then JsMap.set a.assetId remaining amounts else JsMap.erase a.assetId amounts

def assetsOf (vtxos : List NormalizedVirtualCoin) : List Asset :=
  vtxos.flatMap fun vtxo ↦ vtxo.assets.getD []

def collectAssets (vtxos : List NormalizedVirtualCoin) : Option (List Asset) :=
  listAssets ((assetsOf vtxos).foldl addAsset [])

def subtractAssets (spent change : List NormalizedVirtualCoin) : Option (List Asset) :=
  listAssets ((assetsOf spent).foldl removeAsset ((assetsOf change).foldl addAsset []))

def isSettledBoardingReceive (tx : ArkTransaction) : Bool :=
  tx.type = .TxReceived && tx.settled && tx.key.boardingTxid ≠ ""

/-- Whether one of the transactions answers the predicate, and the others. -/
def consumeBoardingReceive (boardingTxs : List ArkTransaction) (p : ArkTransaction → Bool) :
    Bool × List ArkTransaction :=
  (boardingTxs.any p, boardingTxs.eraseP p)

/-- What the loop reads and does not change. -/
structure Ledger where
  vtxos : List NormalizedVirtualCoin
  commitmentsToIgnore : List String
  resolvedCreatedAt : JsMap.Entries String ℤ

structure Progress where
  sent : List ExtendedArkTransaction
  received : List ExtendedArkTransaction
  unmatchedSettledBoardingTxs : List ArkTransaction

def sumValues (vtxos : List NormalizedVirtualCoin) : ℤ := (vtxos.map (·.value)).sum

def commitmentTxid (vtxo : NormalizedVirtualCoin) : Option String :=
  vtxo.commitmentTxIds.head?.map (·.val)

namespace Ledger

variable (ledger : Ledger)

def ignores (id : Option String) : Bool := id.any fun c ↦ ledger.commitmentsToIgnore.contains c

def receivedBatch (vtxo : NormalizedVirtualCoin) : ExtendedArkTransaction where
  key := { txKey with commitmentTxid := commitmentTxid vtxo }
  tag := .batch
  type := .TxReceived
  amount := vtxo.value
  settled := vtxo.isLeaf || vtxo.isSpent
  createdAt := vtxo.createdAt
  assets := collectAssets [vtxo]

def receivedOffchain (vtxo : NormalizedVirtualCoin) : ExtendedArkTransaction where
  key := { txKey with arkTxid := vtxo.txid.val }
  tag := .offchain
  type := .TxReceived
  amount := vtxo.value
  settled := vtxo.isLeaf || vtxo.isSpent
  createdAt := vtxo.createdAt
  assets := collectAssets [vtxo]

def visitReceived (vtxo : NormalizedVirtualCoin) (p : Progress) : Progress :=
  if vtxo.isLeaf then
    if ledger.ignores (commitmentTxid vtxo) ||
        ledger.ignores ((given vtxo.settledBy).map (·.val)) then
      { p with
        unmatchedSettledBoardingTxs :=
          (consumeBoardingReceive p.unmatchedSettledBoardingTxs fun tx ↦
            tx.createdAt ≤ vtxo.createdAt &&
              (tx.key.commitmentTxid = commitmentTxid vtxo ||
                tx.key.commitmentTxid = vtxo.settledBy)).2 }
    else if ledger.vtxos.filter (fun v ↦ v.settledBy = commitmentTxid vtxo) = [] then
      let duplicateBoardingReceive :=
        consumeBoardingReceive p.unmatchedSettledBoardingTxs fun tx ↦
          tx.amount = vtxo.value && tx.createdAt ≤ vtxo.createdAt
      { p with
        unmatchedSettledBoardingTxs := duplicateBoardingReceive.2
        received := if duplicateBoardingReceive.1 then p.received
          else p.received ++ [receivedBatch vtxo] }
    else p
  else if ledger.vtxos.filter (fun v ↦ v.arkTxId = some vtxo.txid.val) = [] then
    { p with received := p.received ++ [receivedOffchain vtxo] }
  else p

/-- The outputs that the transaction spends, and those of its own that the wallet holds. -/
def spentIn (arkTxId : Txid) : List NormalizedVirtualCoin :=
  ledger.vtxos.filter fun v ↦ v.arkTxId = some arkTxId.val

def changesOf (arkTxId : Txid) : List NormalizedVirtualCoin :=
  ledger.vtxos.filter fun v ↦ v.txid = arkTxId

/-- Nothing leaves the wallet where all comes back and no asset moves. -/
def sentOffchain (vtxo : NormalizedVirtualCoin) (arkTxId : Txid) :
    Option ExtendedArkTransaction :=
  let changes := ledger.changesOf arkTxId
  let allSpent := ledger.spentIn arkTxId
  let spentAmount := sumValues allSpent
  let (txAmount, txTime) := match changes with
    | change :: _ => (spentAmount - sumValues changes, change.createdAt)
    | [] => (spentAmount,
      (JsMap.get ledger.resolvedCreatedAt arkTxId.val).getD (vtxo.createdAt + 1))
  let assets := subtractAssets allSpent changes
  if txAmount ≠ 0 ∨ assets ≠ none then
    some { key := { txKey with arkTxid := arkTxId.val }, tag := .offchain, type := .TxSent
           amount := txAmount, settled := true, createdAt := txTime, assets }
  else none

def visitOffchain (vtxo : NormalizedVirtualCoin) (sent : List ExtendedArkTransaction) :
    List ExtendedArkTransaction :=
  match given vtxo.arkTxId with
  | some arkTxId =>
    if sent.any fun s ↦ s.key.arkTxid = arkTxId.val then sent
    else sent ++ (ledger.sentOffchain vtxo arkTxId).toList
  | none => sent

def forfeitedTo (settledBy : Txid) : List NormalizedVirtualCoin :=
  ledger.vtxos.filter fun v ↦ v.settledBy = some settledBy.val

def refreshedBy (settledBy : Txid) : List NormalizedVirtualCoin :=
  ledger.vtxos.filter fun v ↦
    v.isLeaf && decide (0 < v.commitmentTxIds.length) && v.commitmentTxIds.all (settledBy = ·)

def sentExit (vtxo : NormalizedVirtualCoin) (settledBy : Txid) :
    Option ExtendedArkTransaction :=
  let changes := ledger.refreshedBy settledBy
  let forfeitVtxos := ledger.forfeitedTo settledBy
  let forfeitAmount := sumValues forfeitVtxos
  match changes with
  | change :: _ =>
    let settledAmount := sumValues changes
    if forfeitAmount > settledAmount then
      some { key := { txKey with commitmentTxid := some settledBy.val }, tag := .exit
             type := .TxSent, amount := forfeitAmount - settledAmount, settled := true
             createdAt := change.createdAt, assets := subtractAssets forfeitVtxos changes }
    else none
  | [] =>
    some { key := { txKey with commitmentTxid := some settledBy.val }, tag := .exit, type := .TxSent
           amount := forfeitAmount, settled := true
           createdAt := vtxo.createdAt + 1, assets := subtractAssets forfeitVtxos [] }

def visitExit (vtxo : NormalizedVirtualCoin) (sent : List ExtendedArkTransaction) :
    List ExtendedArkTransaction :=
  match given vtxo.settledBy with
  | some settledBy =>
    if ledger.commitmentsToIgnore.contains settledBy.val then sent
    else if sent.any fun s ↦ s.key.commitmentTxid = some settledBy.val then sent
    else sent ++ (ledger.sentExit vtxo settledBy).toList
  | none => sent

def visit (p : Progress) (vtxo : NormalizedVirtualCoin) : Progress :=
  let p := ledger.visitReceived vtxo p
  if vtxo.isSpent then
    { p with sent := ledger.visitExit vtxo (ledger.visitOffchain vtxo p.sent) }
  else p

end Ledger

/-- The spending transactions of which the wallet holds no output, each once. -/
def collectArkTxidsNeedingCreatedAt (vtxos : List NormalizedVirtualCoin) : List String :=
  let ownTxids := vtxos.map (·.txid)
  vtxos.foldl
    (fun txids vtxo ↦
      match given vtxo.arkTxId with
      | some arkTxId =>
        if vtxo.isSpent && !ownTxids.contains arkTxId && !txids.contains arkTxId.val
        then txids ++ [arkTxId.val] else txids
      | none => txids)
    []

abbrev ResolveTxCreatedAt := List String → Except Message (JsMap.Entries String ℤ)

def resolveCreatedAt (resolveTxCreatedAt : Option ResolveTxCreatedAt)
    (vtxos : List NormalizedVirtualCoin) : Except Message (JsMap.Entries String ℤ) :=
  match resolveTxCreatedAt with
  | none => .ok []
  | some resolve =>
    match collectArkTxidsNeedingCreatedAt vtxos with
    | [] => .ok []
    | txids => resolve txids

def sortByCreatedAt (vtxos : List VirtualCoin) : List NormalizedVirtualCoin :=
  (vtxos.map normalizeVtxo).insertionSort fun a b ↦ a.createdAt ≤ b.createdAt

def Ledger.run (ledger : Ledger) (allBoardingTxs : List ArkTransaction) : Progress :=
  ledger.vtxos.foldl ledger.visit
    ⟨[], [], (allBoardingTxs.filter isSettledBoardingReceive).insertionSort
      fun a b ↦ a.createdAt ≤ b.createdAt⟩

def buildTransactionHistory (vtxos : List VirtualCoin) (allBoardingTxs : List ArkTransaction)
    (commitmentsToIgnore : List String) (resolveTxCreatedAt : Option ResolveTxCreatedAt) :
    Except Message (List ExtendedArkTransaction) := do
  let fromOldestVtxo := sortByCreatedAt vtxos
  let resolvedCreatedAt ← resolveCreatedAt resolveTxCreatedAt fromOldestVtxo
  let p := Ledger.run ⟨fromOldestVtxo, commitmentsToIgnore, resolvedCreatedAt⟩ allBoardingTxs
  let boardingTx := allBoardingTxs.map fun tx ↦ { tx with tag := BuiltinTxTag.boarding }
  return (boardingTx ++ p.sent ++ p.received).insertionSort fun a b ↦ b.createdAt ≤ a.createdAt

def coin (txid : Txid) (value : ℤ) : VirtualCoin where
  txid := txid
  vout := 0
  value := value
  createdAt := 0
  isLeaf := false
  isSpent := some false
  settledBy := none
  arkTxId := none
  commitmentTxIds := none
  virtualStatus := none
  assets := none

def txA : Txid := ⟨"a", by decide⟩
def txB : Txid := ⟨"b", by decide⟩
def txC : Txid := ⟨"c", by decide⟩

/-- A leaf of ten is spent by a transaction that leaves six as change. -/
def payment : List VirtualCoin :=
  [{ coin txA 10 with isLeaf := true, commitmentTxIds := some [txC], isSpent := some true
                      arkTxId := some "b" },
    coin txB 6]

def historyOf (vtxos : List VirtualCoin) : List ExtendedArkTransaction :=
  (buildTransactionHistory vtxos [] [] none).toOption.getD []

end ArkadeSdk.History
