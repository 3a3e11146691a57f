import ArkadeSdk.Wallet.FeeAmount
import ArkadeSdk.Wallet.Vtxo

/-! Moving boarding outputs into the ark and virtual outputs out of it. -/

namespace ArkadeSdk.Ramps

open WireFormat JsNumber Vtxo

inductive OffchainInputType
  | recoverable
  | vtxo
  deriving DecidableEq

structure OffchainInput where
  amount : ℤ
  type : OffchainInputType
  weight : ℤ
  birth : ℤ
  expiry : Option ℤ
  deriving DecidableEq

structure OnchainInput where
  amount : ℤ
  deriving DecidableEq

structure FeeOutput where
  amount : ℤ
  script : String
  deriving DecidableEq

/-- The programs of the operator; one that is missing charges nothing. -/
structure Estimator where
  intentOffchainInput : Option (OffchainInput → FeeAmount)
  intentOnchainInput : Option (OnchainInput → FeeAmount)
  intentOffchainOutput : Option (FeeOutput → FeeAmount)
  intentOnchainOutput : Option (FeeOutput → FeeAmount)

def evalProgram {α : Type} (program : Option (α → FeeAmount)) (args : α) : FeeAmount :=
  match program with
  | none => .ZERO
  | some program => program args

namespace Estimator

variable (e : Estimator)

def evalOffchainInput : OffchainInput → FeeAmount := evalProgram e.intentOffchainInput
def evalOnchainInput : OnchainInput → FeeAmount := evalProgram e.intentOnchainInput
def evalOffchainOutput : FeeOutput → FeeAmount := evalProgram e.intentOffchainOutput
def evalOnchainOutput : FeeOutput → FeeAmount := evalProgram e.intentOnchainOutput

def evaluate (offchainInputs : List OffchainInput) (onchainInputs : List OnchainInput)
    (offchainOutputs onchainOutputs : List FeeOutput) : FeeAmount :=
  let fee := offchainInputs.foldl (fun fee input ↦ fee.add (e.evalOffchainInput input)) .ZERO
  let fee := onchainInputs.foldl (fun fee input ↦ fee.add (e.evalOnchainInput input)) fee
  let fee := offchainOutputs.foldl (fun fee output ↦ fee.add (e.evalOffchainOutput output)) fee
  onchainOutputs.foldl (fun fee output ↦ fee.add (e.evalOnchainOutput output)) fee

end Estimator

def toOffchainInputFeeParams (vtxo : VirtualCoin) : OffchainInput where
  amount := vtxo.value
  type := if vtxo.isSwept then .recoverable else .vtxo
  weight := 0
  birth := vtxo.createdAt
  expiry := vtxo.toBatchExpiry.filter (· ≠ 0)

structure ExtendedCoin where
  txid : String
  vout : ℕ
  value : ℤ
  deriving DecidableEq

/-- An address with the hexadecimal script that it decodes to. -/
inductive Address
  | ark (pkScript : String)
  | onchain (script : String)
  | other (text : String)
  deriving DecidableEq

structure Output where
  address : Address
  amount : ℤ
  deriving DecidableEq

/-- The argument of `settle`, its inputs of one kind in either direction. -/
structure SettleParams (ι : Type) where
  inputs : List ι
  outputs : List Output

structure Wallet where
  boardingUtxos : List ExtendedCoin
  spendableVtxos : List VirtualCoin
  pkScript : String
  boardingScript : String
  dustAmount : ℤ

/-- In what the two directions differ: the names in their errors, how an input is priced, the check
of the change, and the price of the output. -/
structure Direction (ι : Type) where
  inputNames : String
  name : String
  value : ι → ℤ
  inputFee : ι → FeeAmount
  checkChange : ℤ → Except Message Unit
  outputFee : Except Message (ℤ → FeeAmount)

structure Ramped (ι : Type) where
  inputs : List ι
  amount : ℤ
  change : ℤ

variable {ι : Type} (d : Direction ι)

def Direction.filtered (inputs : List ι) : List ι :=
  inputs.filter fun input ↦ !(d.value input ≤ (d.inputFee input).satoshis)

def Direction.totalAmount (inputs : List ι) : ℤ :=
  ((d.filtered inputs).map fun input ↦ d.value input - (d.inputFee input).satoshis).sum

/-- An amount of nought counts as none here. -/
def Direction.changeOf (totalAmount : ℤ) : Option ℤ → Except Message ℤ
  | none => .ok 0
  | some amount =>
    if amount = 0 then .ok 0
    else if totalAmount < amount then
      .error (message ("Amount is greater than total amount of " ++ d.inputNames ++ " after fees"))
    else .ok (totalAmount - amount)

/-- An amount of nought stays one here: `amount ?? totalAmount`. -/
def ramp (inputs : List ι) (amount : Option ℤ) : Except Message (Ramped ι) := do
  rejectIf ((d.filtered inputs).length = 0)
    (message ("No " ++ d.inputNames ++ " available after deducting fees"))
  let change ← d.changeOf (d.totalAmount inputs) amount
  d.checkChange change
  let amount := amount.getD (d.totalAmount inputs)
  let outputFee ← d.outputFee
  rejectIf (amount < (outputFee amount).satoshis)
    [.text ("can't deduct fees from " ++ d.name ++ " amount ("),
      .value (.ofInt (outputFee amount).satoshis), .text " > ", .value (.ofInt amount), .text ")"]
  return ⟨d.filtered inputs, amount - (outputFee amount).satoshis, change⟩

def Ramped.outputs (r : Ramped ι) (destination changeAddress : Address) : List Output :=
  ⟨destination, r.amount⟩ :: if 0 < r.change then [⟨changeAddress, r.change⟩] else []

def onboarding (e : Estimator) (wallet : Wallet) : Direction ExtendedCoin where
  inputNames := "boarding utxos"
  name := "onboard"
  value utxo := utxo.value
  inputFee utxo := e.evalOnchainInput ⟨utxo.value⟩
  checkChange _ := .ok ()
  outputFee := .ok fun amount ↦ e.evalOffchainOutput ⟨amount, wallet.pkScript⟩

/-- What `settle` is called with. -/
def onboard (wallet : Wallet) (e : Estimator) (boardingUtxos : Option (List ExtendedCoin))
    (amount : Option ℤ) : Except Message (SettleParams ExtendedCoin) := do
  let r ← ramp (onboarding e wallet) (boardingUtxos.getD wallet.boardingUtxos) amount
  return ⟨r.inputs, r.outputs (.ark wallet.pkScript) (.onchain wallet.boardingScript)⟩

def offboardDestinationScript : Address → Except Message String
  | .onchain script => .ok script
  | .ark pkScript => .error (message ("Failed to decode destination address: " ++ pkScript))
  | .other text => .error (message ("Failed to decode destination address: " ++ text))

/-- `DustChangeError` -/
def dustChangeError (change dustAmount : ℤ) : Message :=
  [.text "change ", .value (.ofInt change), .text " sats is below dust threshold ",
    .value (.ofInt dustAmount), .text "; consider exiting the full balance"]

def offboarding (e : Estimator) (wallet : Wallet) (destinationAddress : Address) :
    Direction VirtualCoin where
  inputNames := "vtxos"
  name := "offboard"
  value vtxo := vtxo.value
  inputFee vtxo := e.evalOffchainInput (toOffchainInputFeeParams vtxo)
  checkChange change :=
    rejectIf (0 < change ∧ change < wallet.dustAmount) (dustChangeError change wallet.dustAmount)
  outputFee := do
    let destinationScript ← offboardDestinationScript destinationAddress
    return fun amount ↦ e.evalOnchainOutput ⟨amount, destinationScript⟩

/-- What `settle` is called with. -/
def offboard (wallet : Wallet) (destinationAddress : Address) (e : Estimator)
    (amount : Option ℤ) : Except Message (SettleParams VirtualCoin) := do
  let r ← ramp (offboarding e wallet destinationAddress) wallet.spendableVtxos amount
  return ⟨r.inputs, r.outputs destinationAddress (.ark wallet.pkScript)⟩

end ArkadeSdk.Ramps
