import ArkadeSdk.Extension.Envelope
import ArkadeSdk.Script.ExitPaths

/-! An offchain transaction, its checkpoints and the locktime that its leaves ask for. -/

namespace ArkadeSdk.ArkTx

open WireFormat JsNumber BtcScript ScriptCoder

structure ArkTxInput (ControlBlock : Type) where
  txid : String
  vout : ℕ
  value : ℕ
  tapLeafScript : TapLeafScript ControlBlock
  tapTree : Bytes

structure TxInput (ControlBlock : Type) where
  txid : String
  index : ℕ
  sequence : ℕ
  witnessScript : Bytes
  witnessAmount : ℕ
  tapLeafScript : List (TapLeafScript ControlBlock)
  vtxoTaprootTree : Bytes

structure TransactionOutput where
  script : Option Bytes
  amount : ℕ

structure Transaction (ControlBlock : Type) where
  version : ℕ
  lockTime : ℤ
  inputs : List (TxInput ControlBlock)
  outputs : List TransactionOutput

structure OffchainTx (ControlBlock : Type) where
  arkTx : Transaction ControlBlock
  checkpoints : List (Transaction ControlBlock)

def P2A : TransactionOutput := ⟨some [0x51, 0x02, 0x4e, 0x73], 0⟩

def DEFAULT_SEQUENCE : ℕ := 4294967295

def MAX_OP_RETURN : ℕ := 2

/-- The taproot part of the transaction library: payments and their scripts, the coder of the tap
trees, and the ids of transactions. -/
structure Taproot (ControlBlock : Type) where
  p2tr : Option TaprootTreeNode → Except Message (Option (List (TapLeafScript ControlBlock)))
  pkScript : List Bytes → Bytes
  encodeTapTree : List Bytes → Bytes
  decodeTapTree : Bytes → Except Message (List Bytes)
  txId : Transaction ControlBlock → String

section Build

variable (L : Libraries) (hex : HexCodec.Codec) {ControlBlock : Type} (T : Taproot ControlBlock)

def isSeconds (locktime : ℤ) : Bool := locktime ≥ 500000000

def mixedUnits : Message := message "cannot mix seconds and blocks locktime"

def raiseLock (lockTime absoluteTimelock : ℤ) : Except Message ℤ := do
  rejectIf (lockTime ≠ 0 ∧ isSeconds lockTime ≠ isSeconds absoluteTimelock) mixedUnits
  return if absoluteTimelock > lockTime then absoluteTimelock else lockTime

/-- One pass of the first loop of `buildVirtualTx`. -/
def addLock (lockTime : ℤ) (input : ArkTxInput ControlBlock) : Except Message ℤ := do
  match ← decodeTapscript L hex (scriptFromTapLeafScript input.tapLeafScript.2) with
  | .cltvMultisig tapscript => raiseLock lockTime tapscript.params.absoluteTimelock
  | _ => return lockTime

/-- `VtxoScript.decode(tapTree).pkScript` -/
def treePkScript (tapTree : Bytes) : Except Message Bytes := do
  let scripts ← T.decodeTapTree tapTree
  let _ ← VtxoScript.new T.p2tr scripts
  return T.pkScript scripts

/-- An input whose sequence is left out gets the default one. -/
def txInput (lockTime : ℤ) (input : ArkTxInput ControlBlock) :
    Except Message (TxInput ControlBlock) := do
  let witnessScript ← treePkScript T input.tapTree
  return {
    txid := input.txid
    index := input.vout
    sequence := if lockTime ≠ 0 then DEFAULT_SEQUENCE - 1 else DEFAULT_SEQUENCE
    witnessScript := witnessScript
    witnessAmount := input.value
    tapLeafScript := [input.tapLeafScript]
    vtxoTaprootTree := input.tapTree }

def buildVirtualTx (inputs : List (ArkTxInput ControlBlock)) (outputs : List TransactionOutput) :
    Except Message (Transaction ControlBlock) := do
  let lockTime ← inputs.foldlM (addLock L hex) 0
  let txInputs ← inputs.mapM (txInput T lockTime)
  return ⟨3, lockTime, txInputs, outputs ++ [P2A]⟩

def findLeaf (self : VtxoScript ControlBlock) (scriptHex : String) :
    Except Message (TapLeafScript ControlBlock) :=
  match self.leaves.find? fun leaf ↦
      hex.encode (scriptFromTapLeafScript leaf.2) = scriptHex with
  | some leaf => .ok leaf
  | none => .error (message ("leaf '" ++ scriptHex ++ "' not found"))

/-- A transaction, and the input that spends it. -/
structure Checkpoint (ControlBlock : Type) where
  tx : Transaction ControlBlock
  input : ArkTxInput ControlBlock

def buildCheckpointTx (vtxo : ArkTxInput ControlBlock) (serverUnrollScript : Bytes) :
    Except Message (Checkpoint ControlBlock) := do
  let collaborativeClosure ←
    decodeTapscript L hex (scriptFromTapLeafScript vtxo.tapLeafScript.2)
  let scripts := [serverUnrollScript, collaborativeClosure.script]
  let checkpointVtxoScript ← VtxoScript.new T.p2tr scripts
  let checkpointTx ← buildVirtualTx L hex T [vtxo] [⟨some (T.pkScript scripts), vtxo.value⟩]
  let collaborativeLeafProof ←
    findLeaf hex checkpointVtxoScript (hex.encode collaborativeClosure.script)
  return ⟨checkpointTx, {
    txid := T.txId checkpointTx
    vout := 0
    value := vtxo.value
    tapLeafScript := collaborativeLeafProof
    tapTree := T.encodeTapTree scripts }⟩

/-- What the loop over the outputs counts: `OP_RETURN` outputs, and whether an extension came. -/
def countOutput (s : ℕ × Bool) (entry : TransactionOutput × ℕ) : Except Message (ℕ × Bool) :=
  match entry.1.script with
  | none => .error [.text "missing output script ", .value (.ofNat entry.2)]
  | some script => do
    let isExtension := Extension.isExtension L.OP script
    let isOpReturn ← if isExtension then pure true else
      (fun asm : List Item ↦ decide (asm[0]? = some (.op "RETURN"))) <$> decode L.OP script
    let countOpReturn := if isOpReturn then s.1 + 1 else s.1
    if isExtension then
      rejectIf s.2 (message "multiple extension outputs")
      return (countOpReturn, true)
    else return (countOpReturn, s.2)

def checkOutputs (outputs : List TransactionOutput) : Except Message Unit := do
  let (countOpReturn, _) ← outputs.zipIdx.foldlM (countOutput L) (0, false)
  rejectIf (countOpReturn > MAX_OP_RETURN)
    [.text "too many OP_RETURN outputs: ", .value (.ofNat countOpReturn), .text " > ",
      .value (.ofNat MAX_OP_RETURN)]

def buildOffchainTx (inputs : List (ArkTxInput ControlBlock)) (outputs : List TransactionOutput)
    (serverUnrollScript : Bytes) : Except Message (OffchainTx ControlBlock) := do
  checkOutputs L outputs
  let checkpoints ← inputs.mapM fun input ↦ buildCheckpointTx L hex T input serverUnrollScript
  let arkTx ← buildVirtualTx L hex T (checkpoints.map (·.input)) outputs
  return ⟨arkTx, checkpoints.map (·.tx)⟩

def locktimeOf (input : ArkTxInput ControlBlock) : Option ℤ :=
  match decodeTapscript L hex (scriptFromTapLeafScript input.tapLeafScript.2) with
  | .ok (.cltvMultisig tapscript) => some tapscript.params.absoluteTimelock
  | _ => none

def locktimes (inputs : List (ArkTxInput ControlBlock)) : List ℤ :=
  inputs.filterMap (locktimeOf L hex)

variable (inputs : List (ArkTxInput ControlBlock)) (outputs : List TransactionOutput)
  (serverUnrollScript : Bytes)

/-- Nothing but the locktimes stands in the way of the transaction: the outputs are fine, every
spending leaf decodes and has its checkpoint. -/
structure Buildable : Prop where
  outputs : checkOutputs L outputs = .ok ()
  checkpoint : ∀ input ∈ inputs, ∃ c,
    buildCheckpointTx L hex T input serverUnrollScript = .ok c ∧
      ∃ script, treePkScript T c.input.tapTree = .ok script

/-- Every leaf accepts the locktime of the transaction, and no input opts out of it. -/
structure Satisfies (tx : Transaction ControlBlock) : Prop where
  reached : ∀ c ∈ locktimes L hex inputs, c ≤ tx.lockTime
  unit : ∀ c ∈ locktimes L hex inputs, isSeconds c = isSeconds tx.lockTime
  nonFinal : tx.lockTime ≠ 0 → ∀ input ∈ tx.inputs, input.sequence ≠ DEFAULT_SEQUENCE

structure LocktimesSound : Prop where
  outcome : (buildOffchainTx L hex T inputs outputs serverUnrollScript = .error mixedUnits ∧
      ∃ c ∈ locktimes L hex inputs, ∃ c' ∈ locktimes L hex inputs, isSeconds c ≠ isSeconds c') ∨
    ∃ tx, buildOffchainTx L hex T inputs outputs serverUnrollScript = .ok tx ∧
      Satisfies L hex inputs tx.arkTx
  anyOrder : ∀ inputs', inputs'.Perm inputs →
    (·.arkTx.lockTime) <$> buildOffchainTx L hex T inputs' outputs serverUnrollScript =
      (·.arkTx.lockTime) <$> buildOffchainTx L hex T inputs outputs serverUnrollScript

/-- A leaf that is open from the start together with one that waits for a time, and none that waits
for a height. -/
def ZeroWithSeconds : Prop :=
  0 ∈ locktimes L hex inputs ∧ (∃ c ∈ locktimes L hex inputs, isSeconds c = true) ∧
    ∀ c ∈ locktimes L hex inputs, c ≠ 0 → isSeconds c = true

end Build

section RaiseLock

variable {lockTime c : ℤ} {cs : List ℤ}

theorem raiseLock_same (h : lockTime = 0 ∨ isSeconds lockTime = isSeconds c) :
    raiseLock lockTime c = .ok (max lockTime c) := by
  have hunit : ¬(lockTime ≠ 0 ∧ isSeconds lockTime ≠ isSeconds c) := by
    rintro ⟨hne, hdiff⟩
    exact h.elim hne hdiff
  rw [raiseLock, rejectIf, if_neg hunit]
  refine congrArg Except.ok ?_
  split <;> omega

theorem raiseLock_other (h : lockTime ≠ 0) (hdiff : isSeconds lockTime ≠ isSeconds c) :
    raiseLock lockTime c = .error mixedUnits := by
  rw [raiseLock, rejectIf, if_pos ⟨h, hdiff⟩]
  rfl

theorem foldlM_raiseLock_same {unit : Bool} (hl : lockTime = 0 ∨ isSeconds lockTime = unit)
    (hcs : ∀ c ∈ cs, isSeconds c = unit) :
    cs.foldlM raiseLock lockTime = .ok (cs.foldl max lockTime) := by
  induction cs generalizing lockTime with
  | nil => rfl
  | cons c cs ih =>
    obtain ⟨hc, hcs⟩ := List.forall_mem_cons.mp hcs
    rw [List.foldlM_cons, raiseLock_same (hl.imp_right (·.trans hc.symm))]
    refine ih ?_ hcs
    rcases max_choice lockTime c with h | h
    · rwa [h]
    · rw [h]
      exact .inr hc

theorem isSeconds_max (h : isSeconds lockTime = isSeconds c) :
    isSeconds (max lockTime c) = isSeconds lockTime := by
  rcases max_choice lockTime c with hmax | hmax
  · rw [hmax]
  · rw [hmax, h]

theorem foldlM_raiseLock_mixed (hl : 0 < lockTime)
    (hcs : ∃ c ∈ cs, isSeconds lockTime ≠ isSeconds c) :
    cs.foldlM raiseLock lockTime = .error mixedUnits := by
  induction cs generalizing lockTime with
  | nil =>
    obtain ⟨c, hc, -⟩ := hcs
    cases hc
  | cons c cs ih =>
    rw [List.foldlM_cons]
    by_cases hunit : isSeconds lockTime = isSeconds c
    · rw [raiseLock_same (.inr hunit)]
      refine ih (lt_max_of_lt_left hl) ?_
      obtain ⟨c', hc', hdiff⟩ := hcs
      rcases List.mem_cons.mp hc' with rfl | hc'
      · exact absurd hunit hdiff
      · exact ⟨c', hc', (isSeconds_max hunit).symm ▸ hdiff⟩
    · rw [raiseLock_other hl.ne' hunit]
      rfl

theorem foldlM_raiseLock_error (hnonneg : ∀ c ∈ cs, 0 ≤ c) {time height : ℤ} (htime : time ∈ cs)
    (hseconds : isSeconds time = true) (hheight : height ∈ cs) (hne : height ≠ 0)
    (hblocks : isSeconds height = false) :
    cs.foldlM raiseLock 0 = .error mixedUnits := by
  have htime0 : time ≠ 0 := by
    rintro rfl
    cases hseconds
  induction cs with
  | nil => cases htime
  | cons c cs ih =>
    obtain ⟨hc, hrest⟩ := List.forall_mem_cons.mp hnonneg
    rw [List.foldlM_cons, raiseLock_same (.inl rfl), max_eq_right hc]
    by_cases hzero : c = 0
    · subst hzero
      exact ih hrest (List.mem_of_ne_of_mem htime0 htime) (List.mem_of_ne_of_mem hne hheight)
    · refine foldlM_raiseLock_mixed (by omega) ?_
      cases hunit : isSeconds c with
      | true =>
        refine ⟨height, List.mem_of_ne_of_mem ?_ hheight, by simp [hblocks]⟩
        rintro rfl
        exact absurd (hblocks.symm.trans hunit) (by decide)
      | false =>
        refine ⟨time, List.mem_of_ne_of_mem ?_ htime, by simp [hseconds]⟩
        rintro rfl
        exact absurd (hseconds.symm.trans hunit) (by decide)

theorem foldlM_raiseLock_zeros {zeros : List ℤ} (h : ∀ c ∈ zeros, c = 0) :
    (zeros ++ cs).foldlM raiseLock 0 = cs.foldlM raiseLock 0 := by
  induction zeros with
  | nil => rfl
  | cons c zeros ih =>
    obtain ⟨rfl, hrest⟩ := List.forall_mem_cons.mp h
    rw [List.cons_append, List.foldlM_cons, raiseLock_same (.inl rfl)]
    exact ih hrest

theorem le_foldlM_raiseLock {m : ℤ} (h : cs.foldlM raiseLock lockTime = .ok m) :
    lockTime ≤ m ∧ ∀ c ∈ cs, c ≤ m := by
  induction cs generalizing lockTime with
  | nil =>
    cases h
    exact ⟨le_rfl, by simp⟩
  | cons c cs ih =>
    rw [List.foldlM_cons] at h
    obtain ⟨next, hnext, h⟩ := bind_ok.mp h
    obtain ⟨-, hnext⟩ := then_ok.mp hnext
    obtain ⟨hle, hcs⟩ := ih h
    have hmax : lockTime ≤ next ∧ c ≤ next := by
      cases hnext
      split <;> omega
    exact ⟨hmax.1.trans hle, List.forall_mem_cons.mpr ⟨hmax.2.trans hle, hcs⟩⟩

theorem foldl_max_mem : cs.foldl max lockTime = lockTime ∨ cs.foldl max lockTime ∈ cs := by
  induction cs generalizing lockTime with
  | nil => exact .inl rfl
  | cons c cs ih =>
    rw [List.foldl_cons]
    rcases @ih (max lockTime c) with h | h
    · rw [h]
      rcases max_choice lockTime c with hmax | hmax
      · exact .inl hmax
      · exact .inr (hmax.symm ▸ List.mem_cons_self)
    · exact .inr (List.mem_cons_of_mem _ h)

end RaiseLock

section Checkpoints

variable {L : Libraries} {hex : HexCodec.Codec} {ControlBlock : Type} {T : Taproot ControlBlock}
  {inputs : List (ArkTxInput ControlBlock)} {outputs : List TransactionOutput}
  {serverUnrollScript : Bytes} {lockTime : ℤ}

theorem decodeAs_script {script : Bytes} {type : TapscriptType} {t : Tapscript}
    (h : Tapscript.decodeAs L script type = .ok t) : t.script = script := by
  cases type with
  | Multisig =>
    obtain ⟨u, hu, rfl⟩ := map_ok.mp h
    exact (MultisigTapscript.decode_sound hu).2
  | CSVMultisig =>
    obtain ⟨u, hu, rfl⟩ := map_ok.mp h
    exact (CSVMultisigTapscript.decode_sound hu).2
  | ConditionCSVMultisig =>
    obtain ⟨u, hu, rfl⟩ := map_ok.mp h
    obtain ⟨-, -, -, -, -, -, -, -, -, -, hscript⟩ :=
      ConditionCSVMultisigTapscript.decode_parts hu
    exact hscript
  | ConditionMultisig =>
    obtain ⟨u, hu, rfl⟩ := map_ok.mp h
    obtain ⟨-, -, -, -, -, -, -, -, -, -, hscript⟩ := ConditionMultisigTapscript.decode_parts hu
    exact hscript
  | CLTVMultisig =>
    obtain ⟨u, hu, rfl⟩ := map_ok.mp h
    exact (CLTVMultisigTapscript.decode_sound hu).2

theorem buildCheckpointTx_leaf {input : ArkTxInput ControlBlock} {c : Checkpoint ControlBlock}
    (h : buildCheckpointTx L hex T input serverUnrollScript = .ok c) :
    scriptFromTapLeafScript c.input.tapLeafScript.2 =
        scriptFromTapLeafScript input.tapLeafScript.2 ∧
      ∃ t, decodeTapscript L hex (scriptFromTapLeafScript input.tapLeafScript.2) = .ok t := by
  obtain ⟨closure, hclosure, h⟩ := bind_ok.mp h
  obtain ⟨v, -, h⟩ := bind_ok.mp h
  obtain ⟨tx, -, h⟩ := bind_ok.mp h
  obtain ⟨leaf, hleaf, h⟩ := bind_ok.mp h
  cases h
  refine ⟨?_, closure, hclosure⟩
  obtain ⟨type, htype⟩ := decodeTapscript_ok.mp hclosure
  unfold findLeaf at hleaf
  split at hleaf
  · next leaf' hfind =>
    cases hleaf
    have hhex : hex.encode (scriptFromTapLeafScript leaf.2) = hex.encode closure.script := by
      simpa using List.find?_some hfind
    exact (hex.encode_injective hhex).trans (decodeAs_script htype)
  · cases hleaf

theorem locktimeOf_congr {input input' : ArkTxInput ControlBlock}
    (h : scriptFromTapLeafScript input.tapLeafScript.2 =
      scriptFromTapLeafScript input'.tapLeafScript.2) :
    locktimeOf L hex input = locktimeOf L hex input' := by
  unfold locktimeOf
  rw [h]

theorem foldlM_addLock (hdecode : ∀ input ∈ inputs, ∃ t,
    decodeTapscript L hex (scriptFromTapLeafScript input.tapLeafScript.2) = .ok t) :
    inputs.foldlM (addLock L hex) lockTime =
      (locktimes L hex inputs).foldlM raiseLock lockTime := by
  unfold locktimes
  induction inputs generalizing lockTime with
  | nil => rfl
  | cons input inputs ih =>
    obtain ⟨⟨t, ht⟩, hrest⟩ := List.forall_mem_cons.mp hdecode
    rw [List.foldlM_cons, addLock, ht, List.filterMap_cons, locktimeOf, ht]
    cases t with
    | cltvMultisig t =>
      dsimp only
      rw [List.foldlM_cons]
      refine congrArg _ (funext fun next ↦ ih hrest)
    | multisig t | csvMultisig t | conditionCSVMultisig t | conditionMultisig t => exact ih hrest

theorem Buildable.perm {inputs' : List (ArkTxInput ControlBlock)}
    (h : Buildable L hex T inputs outputs serverUnrollScript) (hperm : inputs'.Perm inputs) :
    Buildable L hex T inputs' outputs serverUnrollScript :=
  ⟨h.outputs, fun input hinput ↦ h.checkpoint input (hperm.subset hinput)⟩

theorem Buildable.checkpoints (h : Buildable L hex T inputs outputs serverUnrollScript) :
    ∃ checkpoints, inputs.mapM (buildCheckpointTx L hex T · serverUnrollScript) = .ok checkpoints ∧
      (checkpoints.map (·.input)).foldlM (addLock L hex) 0 =
        (locktimes L hex inputs).foldlM raiseLock 0 ∧
      ∀ c ∈ checkpoints, ∃ script, treePkScript T c.input.tapTree = .ok script := by
  obtain ⟨checkpoints, hcheckpoints⟩ := exists_mapM_ok fun input hinput ↦
    (h.checkpoint input hinput).imp fun c hc ↦ hc.1
  refine ⟨checkpoints, hcheckpoints, ?_, fun c hc ↦ ?_⟩
  · have hsame : locktimes L hex (checkpoints.map (·.input)) = locktimes L hex inputs := by
      have hforall := mapM_ok_forall₂ hcheckpoints
      unfold locktimes
      clear hcheckpoints h
      induction hforall with
      | nil => rfl
      | cons hc _ ih =>
        rw [List.map_cons, List.filterMap_cons, List.filterMap_cons, ih,
          locktimeOf_congr (buildCheckpointTx_leaf hc).1]
    rw [← hsame]
    refine foldlM_addLock fun input hinput ↦ ?_
    obtain ⟨c, hc, rfl⟩ := List.mem_map.mp hinput
    obtain ⟨vtxo, -, hvtxo⟩ := mem_mapM_ok hcheckpoints hc
    obtain ⟨hleaf, t, ht⟩ := buildCheckpointTx_leaf hvtxo
    exact ⟨t, hleaf ▸ ht⟩
  · obtain ⟨vtxo, hvtxo, hbuild⟩ := mem_mapM_ok hcheckpoints hc
    obtain ⟨c', hc', hscript⟩ := h.checkpoint vtxo hvtxo
    obtain rfl := Except.ok.inj (hbuild.symm.trans hc')
    exact hscript

theorem Buildable.buildOffchainTx_error
    (h : Buildable L hex T inputs outputs serverUnrollScript) {e : Message}
    (hlock : (locktimes L hex inputs).foldlM raiseLock 0 = .error e) :
    buildOffchainTx L hex T inputs outputs serverUnrollScript = .error e := by
  obtain ⟨checkpoints, hcheckpoints, hfold, -⟩ := h.checkpoints
  have hvirtual : buildVirtualTx L hex T (checkpoints.map (·.input)) outputs = .error e := by
    rw [buildVirtualTx, hfold, hlock]
    rfl
  rw [buildOffchainTx, h.outputs, hcheckpoints]
  simp only [bind, Except.bind, hvirtual]

theorem Buildable.buildOffchainTx_ok (h : Buildable L hex T inputs outputs serverUnrollScript)
    (hlock : (locktimes L hex inputs).foldlM raiseLock 0 = .ok lockTime) :
    ∃ tx, buildOffchainTx L hex T inputs outputs serverUnrollScript = .ok tx ∧
      tx.arkTx.lockTime = lockTime ∧
      (lockTime ≠ 0 → ∀ input ∈ tx.arkTx.inputs, input.sequence ≠ DEFAULT_SEQUENCE) := by
  obtain ⟨checkpoints, hcheckpoints, hfold, hscripts⟩ := h.checkpoints
  have hinput : ∀ input ∈ checkpoints.map (·.input), ∃ i, txInput T lockTime input = .ok i := by
    intro input hmem
    obtain ⟨c, hc, rfl⟩ := List.mem_map.mp hmem
    obtain ⟨script, hscript⟩ := hscripts c hc
    exact ⟨_, by rw [txInput, hscript]; rfl⟩
  obtain ⟨txInputs, htxInputs⟩ := exists_mapM_ok hinput
  have hvirtual : buildVirtualTx L hex T (checkpoints.map (·.input)) outputs =
      .ok ⟨3, lockTime, txInputs, outputs ++ [P2A]⟩ := by
    exact bind_ok.mpr ⟨lockTime, hfold.trans hlock, bind_ok.mpr ⟨txInputs, htxInputs, rfl⟩⟩
  refine ⟨⟨⟨3, lockTime, txInputs, outputs ++ [P2A]⟩, checkpoints.map (·.tx)⟩, ?_, rfl,
    fun hne i hi ↦ ?_⟩
  · rw [buildOffchainTx, h.outputs, hcheckpoints]
    simp only [bind, Except.bind, hvirtual]
    rfl
  · obtain ⟨input, -, htx⟩ := mem_mapM_ok htxInputs hi
    obtain ⟨script, -, htx⟩ := bind_ok.mp htx
    cases htx
    simp [hne, DEFAULT_SEQUENCE]

end Checkpoints

section Order

variable {L : Libraries} {hex : HexCodec.Codec} {ControlBlock : Type} {T : Taproot ControlBlock}
  {inputs : List (ArkTxInput ControlBlock)} {outputs : List TransactionOutput}
  {serverUnrollScript : Bytes}

theorem Buildable.lockTime_eq (h : Buildable L hex T inputs outputs serverUnrollScript) :
    (·.arkTx.lockTime) <$> buildOffchainTx L hex T inputs outputs serverUnrollScript =
      (locktimes L hex inputs).foldlM raiseLock 0 := by
  cases hlock : (locktimes L hex inputs).foldlM raiseLock 0 with
  | error e =>
    rw [h.buildOffchainTx_error hlock]
    rfl
  | ok lockTime =>
    obtain ⟨tx, htx, hlockTime, -⟩ := h.buildOffchainTx_ok hlock
    rw [htx]
    exact congrArg Except.ok hlockTime

theorem locktimes_perm {inputs' : List (ArkTxInput ControlBlock)} (h : inputs'.Perm inputs) :
    (locktimes L hex inputs').Perm (locktimes L hex inputs) :=
  h.filterMap _

theorem foldlM_raiseLock_perm_same {cs cs' : List ℤ} (hperm : cs'.Perm cs) {unit : Bool}
    (hunit : ∀ c ∈ cs, isSeconds c = unit) :
    cs'.foldlM raiseLock 0 = cs.foldlM raiseLock 0 := by
  rw [foldlM_raiseLock_same (.inl rfl) hunit,
    foldlM_raiseLock_same (.inl rfl) fun c hc ↦ hunit c (hperm.subset hc)]
  exact congrArg _ (hperm.foldl_eq 0)

theorem locktimesSound_of_unit (h : Buildable L hex T inputs outputs serverUnrollScript)
    (hnonneg : ∀ c ∈ locktimes L hex inputs, 0 ≤ c) {unit : Bool}
    (hunit : ∀ c ∈ locktimes L hex inputs, isSeconds c = unit) :
    LocktimesSound L hex T inputs outputs serverUnrollScript := by
  have hfold := foldlM_raiseLock_same (.inl rfl) hunit
  constructor
  · right
    obtain ⟨tx, htx, hlockTime, hfinal⟩ := h.buildOffchainTx_ok hfold
    have hreached := (le_foldlM_raiseLock hfold).2
    refine ⟨tx, htx, fun c hc ↦ hlockTime ▸ hreached c hc, fun c hc ↦ ?_, hlockTime ▸ hfinal⟩
    rw [hlockTime]
    rcases foldl_max_mem with hmax | hmax
    · have hle := hreached c hc
      rw [hmax] at hle ⊢
      rw [le_antisymm hle (hnonneg c hc)]
    · rw [hunit c hc, hunit _ hmax]
  · intro inputs' hperm
    rw [(h.perm hperm).lockTime_eq, h.lockTime_eq]
    exact foldlM_raiseLock_perm_same (locktimes_perm hperm) hunit

theorem locktimesSound_of_mixed (h : Buildable L hex T inputs outputs serverUnrollScript)
    (hnonneg : ∀ c ∈ locktimes L hex inputs, 0 ≤ c) {time height : ℤ}
    (htime : time ∈ locktimes L hex inputs) (hseconds : isSeconds time = true)
    (hheight : height ∈ locktimes L hex inputs) (hne : height ≠ 0)
    (hblocks : isSeconds height = false) :
    LocktimesSound L hex T inputs outputs serverUnrollScript := by
  have hfold := foldlM_raiseLock_error hnonneg htime hseconds hheight hne hblocks
  constructor
  · left
    refine ⟨h.buildOffchainTx_error hfold, time, htime, height, hheight, ?_⟩
    rw [hseconds, hblocks]
    decide
  · intro inputs' hperm
    have hlocks : (locktimes L hex inputs').Perm (locktimes L hex inputs) := locktimes_perm hperm
    rw [(h.perm hperm).lockTime_eq, h.lockTime_eq, hfold]
    exact foldlM_raiseLock_error (fun c hc ↦ hnonneg c (hlocks.subset hc))
      (hlocks.symm.subset htime) hseconds (hlocks.symm.subset hheight) hne hblocks

/-- With its zeros first, the transaction has a time that a zero leaf does not know; as it stands,
it has the same or none. -/
theorem not_locktimesSound (h : Buildable L hex T inputs outputs serverUnrollScript)
    (hzero : ZeroWithSeconds L hex inputs) :
    ¬LocktimesSound L hex T inputs outputs serverUnrollScript := by
  obtain ⟨hmem, ⟨time, htime, hseconds⟩, hrest⟩ := hzero
  intro hsound
  let isZero (input : ArkTxInput ControlBlock) : Bool := locktimeOf L hex input = some 0
  have hperm : (inputs.filter isZero ++ inputs.filter (!isZero ·)).Perm inputs :=
    List.filter_append_perm isZero inputs
  have hzeros : ∀ c ∈ locktimes L hex (inputs.filter isZero), c = 0 := by
    intro c hc
    obtain ⟨input, hinput, hc⟩ := List.mem_filterMap.mp hc
    have hz := of_decide_eq_true (List.mem_filter.mp hinput).2
    exact Option.some.inj (hc.symm.trans hz)
  have hothers : ∀ c ∈ locktimes L hex (inputs.filter (!isZero ·)), isSeconds c = true := by
    intro c hc
    obtain ⟨input, hinput, hc⟩ := List.mem_filterMap.mp hc
    obtain ⟨hinput, hz⟩ := List.mem_filter.mp hinput
    refine hrest c (List.mem_filterMap.mpr ⟨input, hinput, hc⟩) ?_
    rintro rfl
    simp [isZero, hc] at hz
  have hfold : (locktimes L hex (inputs.filter isZero ++ inputs.filter (!isZero ·))).foldlM
      raiseLock 0 = .ok ((locktimes L hex (inputs.filter (!isZero ·))).foldl max 0) := by
    unfold locktimes at hzeros ⊢
    rw [List.filterMap_append, foldlM_raiseLock_zeros hzeros]
    exact foldlM_raiseLock_same (.inl rfl) hothers
  have horder := hsound.anyOrder _ hperm
  rw [(h.perm hperm).lockTime_eq, hfold] at horder
  rcases hsound.outcome with ⟨herror, -⟩ | ⟨tx, htx, hsat⟩
  · rw [herror] at horder
    cases horder
  · have hlt := hsat.reached time htime
    have hunit := hsat.unit 0 hmem
    simp only [isSeconds, decide_eq_true_eq, decide_eq_decide] at hseconds hunit
    omega

theorem buildOffchainTx_locktimes_iff
    (h : Buildable L hex T inputs outputs serverUnrollScript)
    (hrange : ∀ c ∈ locktimes L hex inputs, 0 ≤ c ∧ c < 2 ^ 32) :
    LocktimesSound L hex T inputs outputs serverUnrollScript ↔ ¬ZeroWithSeconds L hex inputs := by
  have hnonneg : ∀ c ∈ locktimes L hex inputs, 0 ≤ c := fun c hc ↦ (hrange c hc).1
  refine ⟨fun hsound hzero ↦ not_locktimesSound h hzero hsound, fun hzero ↦ ?_⟩
  by_cases htime : ∃ c ∈ locktimes L hex inputs, isSeconds c = true
  · obtain ⟨time, htime, hseconds⟩ := htime
    by_cases hheight : ∃ c ∈ locktimes L hex inputs, c ≠ 0 ∧ isSeconds c = false
    · obtain ⟨height, hheight, hne, hblocks⟩ := hheight
      exact locktimesSound_of_mixed h hnonneg htime hseconds hheight hne hblocks
    · have hrest : ∀ c ∈ locktimes L hex inputs, c ≠ 0 → isSeconds c = true := by
        intro c hc hne
        by_contra hblocks
        exact hheight ⟨c, hc, hne, by simpa using hblocks⟩
      have hnone : 0 ∉ locktimes L hex inputs := fun hmem ↦
        hzero ⟨hmem, ⟨time, htime, hseconds⟩, hrest⟩
      exact locktimesSound_of_unit h hnonneg fun c hc ↦
        hrest c hc fun heq ↦ hnone (heq ▸ hc)
  · have hblocks : ∀ c ∈ locktimes L hex inputs, isSeconds c = false :=
      fun c hc ↦ Bool.eq_false_of_not_eq_true fun hseconds ↦ htime ⟨c, hc, hseconds⟩
    exact locktimesSound_of_unit h hnonneg hblocks

end Order

section Sample

def tapTreeField (scripts : List Bytes) : Bytes :=
  scripts.flatMap fun script ↦ 1 :: 0xc0 :: UInt8.ofNat script.length :: script

def readTapTreeField : ℕ → Bytes → Except Message (List Bytes)
  | _, [] => .ok []
  | fuel + 1, _ :: _ :: length :: rest => do
    let scripts ← readTapTreeField fuel (rest.drop length.toNat)
    return rest.take length.toNat :: scripts
  | _, _ => .error (message "Reader: not enough data")

def sampleTaproot : Taproot Unit where
  p2tr := plainP2tr
  pkScript _ := 0x51 :: 0x20 :: List.replicate 32 7
  encodeTapTree := tapTreeField
  decodeTapTree field := readTapTreeField field.length field
  txId _ := "checkpoint"

def lockParams (lock : ℤ) : TapscriptParams := .cltvMultisig ⟨⟨[List.replicate 32 1], none⟩, lock⟩

/-- A signature behind `locktime CHECKLOCKTIMEVERIFY DROP`. -/
def lockLeaf (locktime : Bytes) : Bytes :=
  locktime ++ [0xb1, 0x75, 0x20] ++ List.replicate 32 1 ++ [0xac]

def lockInput (txid : String) (locktime : Bytes) : ArkTxInput Unit :=
  ⟨txid, 0, 1000, ((), lockLeaf locktime ++ [0xc0]), tapTreeField [lockLeaf locktime]⟩

/-- Zero, `144` and `500000000` as script numbers. -/
def openBytes : Bytes := [0x00]

def dayBytes : Bytes := [0x02, 0x90, 0x00]

def secondsBytes : Bytes := [0x04, 0x00, 0x65, 0xcd, 0x1d]

def unrollScript : Bytes := [0x02, 0x90, 0x00, 0xb2, 0x75, 0x20] ++ List.replicate 32 2 ++ [0xac]

section LockInput

variable {txid : String} {locktime : Bytes} {lock : ℤ}

theorem decodeTapscript_lockLeaf (h : Tapscript.encode standardLibraries (lockParams lock) =
      .ok ((lockParams lock).closure (lockLeaf locktime))) (hrange : 0 ≤ lock ∧ lock < 2 ^ 32) :
    decodeTapscript standardLibraries HexCodec.base16
      (scriptFromTapLeafScript (lockInput txid locktime).tapLeafScript.2) =
        .ok ((lockParams lock).closure (lockLeaf locktime)) := by
  have hscript : scriptFromTapLeafScript (lockInput txid locktime).tapLeafScript.2 =
      lockLeaf locktime := List.dropLast_concat
  rw [hscript]
  exact decodeTapscript_ok.mpr ⟨_, Tapscript.decodeAs_encode h hrange (.inl rfl)⟩

theorem locktimeOf_lockInput (h : Tapscript.encode standardLibraries (lockParams lock) =
      .ok ((lockParams lock).closure (lockLeaf locktime))) (hrange : 0 ≤ lock ∧ lock < 2 ^ 32) :
    locktimeOf standardLibraries HexCodec.base16 (lockInput txid locktime) = some lock := by
  rw [locktimeOf, decodeTapscript_lockLeaf h hrange]
  rfl

theorem new_pair (a b : Bytes) : VtxoScript.new plainP2tr [a, b] =
    .ok ⟨[a, b], [((), a ++ [0xc0]), ((), b ++ [0xc0])]⟩ := by
  have htree : assembleBtcdTaprootTree [a, b] =
      .ok (some (.branch (.leaf ⟨a, TAP_LEAF_VERSION⟩) (.leaf ⟨b, TAP_LEAF_VERSION⟩))) := by
    simp [assembleBtcdTaprootTree, assembleLeaves, pairLeaves, LeafTree.merge, bind, Except.bind,
      pure, Except.pure]
  rw [VtxoScript.new, htree]
  rfl

theorem checkpoint_lockInput (h : Tapscript.encode standardLibraries (lockParams lock) =
      .ok ((lockParams lock).closure (lockLeaf locktime))) (hrange : 0 ≤ lock ∧ lock < 2 ^ 32)
    (htree : sampleTaproot.decodeTapTree (tapTreeField [lockLeaf locktime]) =
      .ok [lockLeaf locktime])
    (htree' : sampleTaproot.decodeTapTree (tapTreeField [unrollScript, lockLeaf locktime]) =
      .ok [unrollScript, lockLeaf locktime]) :
    ∃ c, buildCheckpointTx standardLibraries HexCodec.base16 sampleTaproot
      (lockInput txid locktime) unrollScript = .ok c ∧
      ∃ script, treePkScript sampleTaproot c.input.tapTree = .ok script := by
  have hdecode : decodeTapscript standardLibraries HexCodec.base16
      (scriptFromTapLeafScript (lockInput txid locktime).tapLeafScript.2) =
        .ok ((lockParams lock).closure (lockLeaf locktime)) := decodeTapscript_lockLeaf h hrange
  have hlock : [lockInput txid locktime].foldlM (addLock standardLibraries HexCodec.base16) 0 =
      .ok (max 0 lock) := by
    rw [List.foldlM_cons, addLock, hdecode]
    exact bind_ok.mpr ⟨_, raiseLock_same (.inl rfl), rfl⟩
  obtain ⟨i, hi⟩ : ∃ i, [lockInput txid locktime].mapM (txInput sampleTaproot (max 0 lock)) =
      .ok i :=
    exists_mapM_ok fun input hinput ↦ by
      obtain rfl := List.mem_singleton.mp hinput
      exact ⟨_, bind_ok.mpr ⟨_, bind_ok.mpr ⟨_, htree, rfl⟩, rfl⟩⟩
  obtain ⟨leaf, hleaf⟩ : ∃ leaf, findLeaf HexCodec.base16
      ⟨[unrollScript, lockLeaf locktime], [((), unrollScript ++ [0xc0]),
        ((), lockLeaf locktime ++ [0xc0])]⟩ (HexCodec.base16.encode (lockLeaf locktime)) =
          .ok leaf := by
    have hfind : ([((), unrollScript ++ [0xc0]), ((), lockLeaf locktime ++ [0xc0])].find?
        fun leaf : TapLeafScript Unit ↦ HexCodec.base16.encode (scriptFromTapLeafScript leaf.2) =
          HexCodec.base16.encode (lockLeaf locktime)).isSome := by
      rw [List.find?_isSome]
      exact ⟨_, List.mem_pair.mpr (.inr rfl), by simp [scriptFromTapLeafScript]⟩
    obtain ⟨leaf, hleaf⟩ := Option.isSome_iff_exists.mp hfind
    exact ⟨leaf, by rw [findLeaf, hleaf]⟩
  exact ⟨_, bind_ok.mpr ⟨_, hdecode, bind_ok.mpr ⟨_, new_pair _ _, bind_ok.mpr ⟨_,
    bind_ok.mpr ⟨_, hlock, bind_ok.mpr ⟨i, hi, rfl⟩⟩, bind_ok.mpr ⟨leaf, hleaf, rfl⟩⟩⟩⟩,
    _, bind_ok.mpr ⟨_, htree', bind_ok.mpr ⟨_, new_pair _ _, rfl⟩⟩⟩

end LockInput

/-- A leaf that is open from the start, and one that waits for a time. -/
def mixedInputs : List (ArkTxInput Unit) := [lockInput "a" openBytes, lockInput "b" secondsBytes]

theorem openLeaf_encode : Tapscript.encode standardLibraries (lockParams 0) =
    .ok ((lockParams 0).closure (lockLeaf openBytes)) := rfl

theorem dayLeaf_encode : Tapscript.encode standardLibraries (lockParams 144) =
    .ok ((lockParams 144).closure (lockLeaf dayBytes)) := rfl

theorem secondsLeaf_encode : Tapscript.encode standardLibraries (lockParams 500000000) =
    .ok ((lockParams 500000000).closure (lockLeaf secondsBytes)) := rfl

theorem mixedInputs_buildable :
    Buildable standardLibraries HexCodec.base16 sampleTaproot mixedInputs [] unrollScript where
  outputs := rfl
  checkpoint input hinput := by
    rcases List.mem_pair.mp hinput with rfl | rfl
    · exact checkpoint_lockInput openLeaf_encode (by decide) rfl rfl
    · exact checkpoint_lockInput secondsLeaf_encode (by decide) rfl rfl

theorem mixedInputs_locktimes :
    locktimes standardLibraries HexCodec.base16 mixedInputs = [0, 500000000] := by
  simp [locktimes, mixedInputs, locktimeOf_lockInput openLeaf_encode (by decide),
    locktimeOf_lockInput secondsLeaf_encode (by decide)]

/-- The transaction waits for a time, which the first leaf does not accept. -/
theorem open_leaf_with_time : ¬LocktimesSound standardLibraries HexCodec.base16 sampleTaproot
    mixedInputs [] unrollScript := by
  refine not_locktimesSound mixedInputs_buildable ?_
  rw [ZeroWithSeconds, mixedInputs_locktimes]
  decide

/-- A day in blocks. -/
theorem day_locktime_sound :
    LocktimesSound standardLibraries HexCodec.base16 sampleTaproot [lockInput "a" dayBytes] []
      unrollScript ↔ ¬ZeroWithSeconds standardLibraries HexCodec.base16
        [lockInput "a" dayBytes] := by
  refine buildOffchainTx_locktimes_iff ⟨rfl, fun input hinput ↦ ?_⟩ ?_
  · obtain rfl := List.mem_singleton.mp hinput
    exact checkpoint_lockInput dayLeaf_encode (by decide) rfl rfl
  · have hlocks : locktimes standardLibraries HexCodec.base16 [lockInput "a" dayBytes] = [144] := by
      simp [locktimes, locktimeOf_lockInput dayLeaf_encode (by decide)]
    rw [hlocks]
    decide

end Sample

end ArkadeSdk.ArkTx
