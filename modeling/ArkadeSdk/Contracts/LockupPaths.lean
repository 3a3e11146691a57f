import ArkadeSdk.Contracts.PathMaturity

/-! The paths of a lockup: a claim for the receiver who has the preimage, a refund for the
sender. -/

namespace ArkadeSdk.Paths

open WireFormat JsNumber ScriptCoder
open Contracts (Contract)

variable (expandKey : String → Except Message Bytes) {Tree : Type} (L : ProgramLibraries Tree)

/-- A lockup, with the other leaves that it keeps by name. -/
structure LockupScript (Tree : Type) extends VHTLC.BaseScript Tree where
  refundWithoutReceiverScript : Bytes
  unilateralClaimScript : Bytes
  unilateralRefundWithoutReceiverScript : Bytes

def LockupScript.new (preimageCondition : Bytes → Except Message Bytes) (options : VHTLC.Options) :
    Except Message (LockupScript Tree) := do
  let base ← VHTLC.BaseScript.new L preimageCondition options
  let conditionScript ← preimageCondition options.preimageHash
  let refundWithoutReceiver ← CLTVMultisigTapscript.encode L.toLibraries
    ⟨⟨[options.sender, options.server], none⟩, options.refundLocktime⟩
  let unilateralClaim ← ConditionCSVMultisigTapscript.encode L.toLibraries
    ⟨⟨⟨[options.receiver], none⟩, options.unilateralClaimDelay⟩, conditionScript⟩
  let unilateralRefundWithoutReceiver ← CSVMultisigTapscript.encode L.toLibraries
    ⟨⟨[options.sender], none⟩, options.unilateralRefundWithoutReceiverDelay⟩
  return ⟨base, refundWithoutReceiver.script, unilateralClaim.script,
    unilateralRefundWithoutReceiver.script⟩

/-- `contract.params.preimage`, unless it is blank. -/
def preimageOf (contract : Contract) : Option String :=
  givenText (contract.params.lookup "preimage")

def claimDelayOf (contract : Contract) : Number := numberParam (contract.params.lookup "claimDelay")

def refundDelayOf (contract : Contract) : Number :=
  numberParam (contract.params.lookup "refundNoReceiverDelay")

namespace VHTLCContractHandler

def selectPath (script : LockupScript Tree) (contract : Contract) (context : PathContext) :
    Except Message (Option PathSelection) := do
  let role := resolveRole expandKey contract context
  let preimage := preimageOf contract
  let refundLocktime ← VHTLC.bigIntParam (contract.params.lookup "refundLocktime")
  match context.collaborative, role, preimage with
  | _, none, _ => return none
  | true, some .receiver, some preimage =>
    let witness ← VHTLC.decodeHex (some preimage)
    return some ⟨script.claimScript, some [witness], none⟩
  | true, some .sender, _ =>
    if isCltvSatisfied context refundLocktime then
      return some ⟨script.refundWithoutReceiverScript, none, none⟩
    else return none
  | false, some .receiver, some preimage =>
    let sequence := claimDelayOf contract
    if !(← isCsvSpendable L.toLibraries context (some sequence)) then return none
    let witness ← VHTLC.decodeHex (some preimage)
    return some ⟨script.unilateralClaimScript, some [witness], some sequence⟩
  | false, some .sender, _ =>
    let sequence := refundDelayOf contract
    if !(← isCsvSpendable L.toLibraries context (some sequence)) then return none
    return some ⟨script.unilateralRefundWithoutReceiverScript, none, some sequence⟩
  | _, some .receiver, none => return none

def getAllSpendingPaths (script : LockupScript Tree) (contract : Contract) (context : PathContext) :
    Except Message (List PathSelection) :=
  let role := resolveRole expandKey contract context
  let preimage := preimageOf contract
  match context.collaborative, role, preimage with
  | _, none, _ => return []
  | true, some .receiver, some preimage => do
    let witness ← VHTLC.decodeHex (some preimage)
    return [⟨script.claimScript, some [witness], none⟩]
  | true, some .sender, _ => return [⟨script.refundWithoutReceiverScript, none, none⟩]
  | false, some .receiver, some preimage => do
    let sequence := claimDelayOf contract
    let witness ← VHTLC.decodeHex (some preimage)
    return [⟨script.unilateralClaimScript, some [witness], some sequence⟩]
  | false, some .sender, _ =>
    return [⟨script.unilateralRefundWithoutReceiverScript, none, some (refundDelayOf contract)⟩]
  | _, some .receiver, none => return []

def getSpendablePaths (script : LockupScript Tree) (contract : Contract) (context : PathContext) :
    Except Message (List PathSelection) := do
  let role := resolveRole expandKey contract context
  let preimage := preimageOf contract
  match role with
  | none => return []
  | some role =>
    let refundLocktime ← VHTLC.bigIntParam (contract.params.lookup "refundLocktime")
    match context.collaborative, role, preimage with
    | true, .receiver, some preimage =>
      let witness ← VHTLC.decodeHex (some preimage)
      return [⟨script.claimScript, some [witness], none⟩]
    | true, .sender, _ =>
      if isCltvSatisfied context refundLocktime then
        return [⟨script.refundWithoutReceiverScript, none, none⟩]
      else return []
    | false, .receiver, some preimage =>
      let sequence := claimDelayOf contract
      if ← isCsvSpendable L.toLibraries context (some sequence) then
        let witness ← VHTLC.decodeHex (some preimage)
        return [⟨script.unilateralClaimScript, some [witness], some sequence⟩]
      else return []
    | false, .sender, _ =>
      let sequence := refundDelayOf contract
      if ← isCsvSpendable L.toLibraries context (some sequence) then
        return [⟨script.unilateralRefundWithoutReceiverScript, none, some sequence⟩]
      else return []
    | _, .receiver, none => return []

/-- The first version reads the fields that both have. -/
def deserializeParams (params : VHTLC.Params) : Except Message VHTLC.Options := do
  let sender ← VHTLC.decodeHex (params.lookup "sender")
  let receiver ← VHTLC.decodeHex (params.lookup "receiver")
  let server ← VHTLC.decodeHex (params.lookup "server")
  let preimageHash ← VHTLC.decodeHex (params.lookup "hash")
  let refundLocktime ← VHTLC.bigIntParam (params.lookup "refundLocktime")
  let unilateralClaimDelay ← sequenceToTimelock L.toLibraries
    (VHTLC.toSequence (params.lookup "claimDelay"))
  let unilateralRefundDelay ← sequenceToTimelock L.toLibraries
    (VHTLC.toSequence (params.lookup "refundDelay"))
  let unilateralRefundWithoutReceiverDelay ← sequenceToTimelock L.toLibraries
    (VHTLC.toSequence (params.lookup "refundNoReceiverDelay"))
  return ⟨sender, receiver, server, preimageHash, refundLocktime, unilateralClaimDelay,
    unilateralRefundDelay, unilateralRefundWithoutReceiverDelay, none, none, none⟩

def createScript (params : VHTLC.Params) : Except Message (LockupScript Tree) := do
  let typed ← deserializeParams L params
  LockupScript.new L (VHTLC.preimageConditionScript L) typed

end VHTLCContractHandler

/-- Both versions choose their paths alike, and differ in how a row is built. -/
def lockupHandler (createScript : VHTLC.Params → Except Message (LockupScript Tree)) :
    PathHandler (LockupScript Tree) where
  createScript := createScript
  selectPath := VHTLCContractHandler.selectPath expandKey L
  getAllSpendingPaths := VHTLCContractHandler.getAllSpendingPaths expandKey
  getSpendablePaths := VHTLCContractHandler.getSpendablePaths expandKey L

def VHTLCContractHandler : PathHandler (LockupScript Tree) :=
  lockupHandler expandKey L (VHTLCContractHandler.createScript L)

def VHTLCV2ContractHandler : PathHandler (LockupScript Tree) :=
  lockupHandler expandKey L fun params ↦ do
    let typed ← VHTLC.deserializeParams L params
    LockupScript.new L (VHTLC.preimageConditionScriptV2 L) typed

def Role.name : Role → String
  | .sender => "sender"
  | .receiver => "receiver"

/-- The path of a role, unless it is the receiver's and the row has no preimage. -/
def pathOf (script : LockupScript Tree) (contract : Contract) (collaborative : Bool) :
    Role → Option (Except Message PathSelection)
  | .receiver => (preimageOf contract).map fun preimage ↦ (fun witness ↦
      if collaborative then ⟨script.claimScript, some [witness], none⟩
      else ⟨script.unilateralClaimScript, some [witness], some (claimDelayOf contract)⟩) <$>
        VHTLC.decodeHex (some preimage)
  | .sender => some (.ok (
      if collaborative then ⟨script.refundWithoutReceiverScript, none, none⟩
      else ⟨script.unilateralRefundWithoutReceiverScript, none, some (refundDelayOf contract)⟩))

def isOpen (contract : Contract) (context : PathContext) : Role → Except Message Bool
  | .receiver =>
    if context.collaborative then .ok true
    else isCsvSpendable L.toLibraries context (some (claimDelayOf contract))
  | .sender =>
    if context.collaborative then isCltvSatisfied context <$>
      VHTLC.bigIntParam (contract.params.lookup "refundLocktime")
    else isCsvSpendable L.toLibraries context (some (refundDelayOf contract))

def single : Option (Except Message PathSelection) → Except Message (List PathSelection)
  | none => .ok []
  | some path => (fun path ↦ [path]) <$> path

structure LockupRow (preimageCondition : Bytes → Except Message Bytes) (contract : Contract)
    (script : LockupScript Tree) (options : VHTLC.Options) (conditionScript : Bytes) : Prop where
  sender : VHTLC.decodeHex (contract.params.lookup "sender") = .ok options.sender
  receiver : VHTLC.decodeHex (contract.params.lookup "receiver") = .ok options.receiver
  server : VHTLC.decodeHex (contract.params.lookup "server") = .ok options.server
  hash : VHTLC.decodeHex (contract.params.lookup "hash") = .ok options.preimageHash
  refundLocktime : VHTLC.bigIntParam (contract.params.lookup "refundLocktime") =
    .ok options.refundLocktime
  claimDelay : sequenceToTimelock L.toLibraries (sequenceBits (claimDelayOf contract)) =
    .ok options.unilateralClaimDelay
  refundDelay : sequenceToTimelock L.toLibraries (sequenceBits (refundDelayOf contract)) =
    .ok options.unilateralRefundWithoutReceiverDelay
  condition : preimageCondition options.preimageHash = .ok conditionScript
  claim : LeafOf L.toLibraries (.conditionMultisig
    ⟨⟨[options.receiver, options.server], none⟩, conditionScript⟩) script.claimScript
  refundWithoutReceiver : LeafOf L.toLibraries (.cltvMultisig
    ⟨⟨[options.sender, options.server], none⟩, options.refundLocktime⟩)
      script.refundWithoutReceiverScript
  unilateralClaim : LeafOf L.toLibraries (.conditionCSVMultisig
    ⟨⟨⟨[options.receiver], none⟩, options.unilateralClaimDelay⟩, conditionScript⟩)
      script.unilateralClaimScript
  unilateralRefund : LeafOf L.toLibraries (.csvMultisig
    ⟨⟨[options.sender], none⟩, options.unilateralRefundWithoutReceiverDelay⟩)
      script.unilateralRefundWithoutReceiverScript

/-- The leaf of the wallet's role, with the row's preimage behind its hash. -/
structure LockupMine (preimageCondition : Bytes → Except Message Bytes) (contract : Contract)
    (context : PathContext) (params : TapscriptParams) (path : PathSelection) (role : Role)
    (own server : Bytes) : Prop where
  resolved : resolveRole expandKey contract context = some role
  own_key : VHTLC.decodeHex (contract.params.lookup role.name) = .ok own
  server_key : VHTLC.decodeHex (contract.params.lookup "server") = .ok server
  own_mem : own ∈ params.signers
  signers : ∀ key ∈ params.signers, key = own ∨ key = server
  preimage : match params.condition with
    | none => path.extraWitness = none
    | some condition => role = .receiver ∧ ∃ hash preimage witness,
        VHTLC.decodeHex (contract.params.lookup "hash") = .ok hash ∧
          preimageCondition hash = .ok condition ∧ preimageOf contract = some preimage ∧
            VHTLC.decodeHex (some preimage) = .ok witness ∧ path.extraWitness = some [witness]

section Row

variable {expandKey} {L} {preimageCondition : Bytes → Except Message Bytes} {contract : Contract}
  {script : LockupScript Tree} {options : VHTLC.Options} {conditionScript : Bytes} {role : Role}
  {context : PathContext}

theorem LockupRow.isOpen_ok (row : LockupRow L preimageCondition contract script options
    conditionScript) (context : PathContext) (role : Role) :
    ∃ b, isOpen L contract context role = .ok b := by
  cases role with
  | receiver =>
    by_cases hc : context.collaborative = true
    · exact ⟨true, if_pos hc⟩
    · obtain ⟨b, hb, -⟩ := isCsvSpendable_eq context row.claimDelay
      exact ⟨b, (if_neg hc).trans hb⟩
  | sender =>
    by_cases hc : context.collaborative = true
    · exact ⟨isCltvSatisfied context options.refundLocktime,
        (if_pos hc).trans (map_ok.mpr ⟨_, row.refundLocktime, rfl⟩)⟩
    · obtain ⟨b, hb, -⟩ := isCsvSpendable_eq context row.refundDelay
      exact ⟨b, (if_neg hc).trans hb⟩

theorem isOpen_later {context' : PathContext} (h : Later context context')
    (hopen : isOpen L contract context role = .ok true) :
    isOpen L contract context' role = .ok true := by
  unfold isOpen at hopen ⊢
  rw [h.collaborative]
  cases role with
  | receiver =>
    dsimp only at hopen ⊢
    split
    · rfl
    · rename_i hc
      rw [if_neg hc] at hopen
      exact isCsvSpendable_later hopen h
  | sender =>
    dsimp only at hopen ⊢
    split
    · rename_i hc
      rw [if_pos hc] at hopen
      obtain ⟨locktime, hl, hopen⟩ := map_ok.mp hopen
      exact map_ok.mpr ⟨locktime, hl, isCltvSatisfied_later hopen h⟩
    · rename_i hc
      rw [if_neg hc] at hopen
      exact isCsvSpendable_later hopen h

theorem getAllSpendingPaths_eq (hrole : resolveRole expandKey contract context = some role) :
    VHTLCContractHandler.getAllSpendingPaths expandKey script contract context =
      single (pathOf script contract context.collaborative role) := by
  unfold VHTLCContractHandler.getAllSpendingPaths pathOf
  rw [hrole]
  cases role with
  | receiver =>
    cases preimageOf contract with
    | none => cases context.collaborative <;> rfl
    | some preimage =>
      cases context.collaborative with
      | true => cases hd : VHTLC.decodeHex (some preimage) <;> simp [hd, single]
      | false => cases hd : VHTLC.decodeHex (some preimage) <;> simp [hd, single]
  | sender => cases context.collaborative <;> rfl

theorem getSpendablePaths_eq (row : LockupRow L preimageCondition contract script options
    conditionScript) (hrole : resolveRole expandKey contract context = some role) {b : Bool}
    (hb : isOpen L contract context role = .ok b) :
    VHTLCContractHandler.getSpendablePaths expandKey L script contract context =
      if b then single (pathOf script contract context.collaborative role) else .ok [] := by
  unfold VHTLCContractHandler.getSpendablePaths
  unfold isOpen at hb
  simp only [hrole, row.refundLocktime] at hb ⊢
  dsimp only [bind, Except.bind]
  cases role with
  | receiver =>
    cases hp : preimageOf contract with
    | none => cases context.collaborative <;> cases b <;> simp [pathOf, hp, single]
    | some preimage =>
      cases hc : context.collaborative with
      | true =>
        simp only [hc, if_true, Except.ok.injEq] at hb
        subst hb
        cases hd : VHTLC.decodeHex (some preimage) <;> simp [pathOf, hp, hd, single]
      | false =>
        simp only [hc, Bool.false_eq_true, if_false] at hb
        simp only [hb]
        cases b <;> cases hd : VHTLC.decodeHex (some preimage) <;>
          simp [pathOf, hp, hd, single]
  | sender =>
    cases hc : context.collaborative with
    | true =>
      simp only [hc, if_true] at hb
      obtain rfl := Except.ok.inj hb
      cases preimageOf contract <;> cases isCltvSatisfied context options.refundLocktime <;> rfl
    | false =>
      simp only [hc, Bool.false_eq_true, if_false] at hb
      simp only [hb]
      cases preimageOf contract <;> cases b <;> rfl

theorem paths_of_no_role (L : ProgramLibraries Tree) (script : LockupScript Tree)
    (hrole : resolveRole expandKey contract context = none) :
    VHTLCContractHandler.getAllSpendingPaths expandKey script contract context = .ok [] ∧
      VHTLCContractHandler.getSpendablePaths expandKey L script contract context = .ok [] := by
  unfold VHTLCContractHandler.getAllSpendingPaths VHTLCContractHandler.getSpendablePaths
  rw [hrole]
  cases context.collaborative <;> exact ⟨rfl, rfl⟩

theorem selectPath_eq (row : LockupRow L preimageCondition contract script options
    conditionScript) (context : PathContext) :
    VHTLCContractHandler.selectPath expandKey L script contract context =
      List.head? <$> VHTLCContractHandler.getSpendablePaths expandKey L script contract context := by
  unfold VHTLCContractHandler.selectPath VHTLCContractHandler.getSpendablePaths
  simp only [row.refundLocktime]
  dsimp only [bind, Except.bind]
  cases resolveRole expandKey contract context with
  | none => cases context.collaborative <;> rfl
  | some role =>
    cases role with
    | receiver =>
      cases preimageOf contract with
      | none => cases context.collaborative <;> rfl
      | some preimage =>
        cases context.collaborative with
        | true =>
          dsimp only
          cases VHTLC.decodeHex (some preimage) <;> rfl
        | false =>
          dsimp only
          cases isCsvSpendable L.toLibraries context (some (claimDelayOf contract)) with
          | error e => rfl
          | ok b => cases b <;> cases VHTLC.decodeHex (some preimage) <;> rfl
    | sender =>
      cases context.collaborative with
      | true =>
        dsimp only
        cases isCltvSatisfied context options.refundLocktime <;> rfl
      | false =>
        dsimp only
        cases isCsvSpendable L.toLibraries context (some (refundDelayOf contract)) with
        | error e => rfl
        | ok b => cases b <;> rfl

/-- The role's leaf is one that it signs, and behind an open gate its locks have matured. -/
theorem LockupRow.leaf (row : LockupRow L preimageCondition contract script options
    conditionScript) (hrole : resolveRole expandKey contract context = some role)
    {path : PathSelection}
    (hpath : pathOf script contract context.collaborative role = some (.ok path)) :
    ∃ params, LeafOf L.toLibraries params path.leaf ∧
      (∃ own server, LockupMine expandKey preimageCondition contract context params path role own
        server) ∧
      (isOpen L contract context role = .ok true → Timely L.toLibraries context params path) := by
  cases role with
  | receiver =>
    obtain ⟨preimage, hpreimage, hwitness⟩ := Option.map_eq_some_iff.mp hpath
    obtain ⟨witness, hdecode, hpath⟩ := map_ok.mp hwitness
    have hattached : ∃ hash preimage witness',
        VHTLC.decodeHex (contract.params.lookup "hash") = .ok hash ∧
          preimageCondition hash = .ok conditionScript ∧ preimageOf contract = some preimage ∧
            VHTLC.decodeHex (some preimage) = .ok witness' ∧ some [witness] = some [witness'] :=
      ⟨_, preimage, witness, row.hash, row.condition, hpreimage, hdecode, rfl⟩
    by_cases hc : context.collaborative = true
    · rw [if_pos hc] at hpath
      subst hpath
      exact ⟨_, row.claim, ⟨_, _, hrole, row.receiver, row.server, List.mem_cons_self,
        by simp [TapscriptParams.signers, TapscriptParams.toMultisig], rfl, hattached⟩,
        fun _ ↦ .of_unlocked rfl rfl⟩
    · rw [if_neg hc] at hpath
      subst hpath
      refine ⟨_, row.unilateralClaim, ⟨_, _, hrole, row.receiver, row.server, List.mem_cons_self,
        by simp [TapscriptParams.signers, TapscriptParams.toMultisig], rfl, hattached⟩,
        fun hopen ↦ ⟨?_, by simp [TapscriptParams.locktime]⟩⟩
      rintro timelock ⟨⟩
      obtain ⟨b, hb, hmatured⟩ := isCsvSpendable_eq context row.claimDelay
      obtain rfl := Except.ok.inj (hb.symm.trans ((if_neg hc).symm.trans hopen))
      exact ⟨hmatured.mp rfl, _, rfl, row.claimDelay⟩
  | sender =>
    obtain rfl := Except.ok.inj (Option.some.inj hpath)
    by_cases hc : context.collaborative = true
    · simp only [if_pos hc]
      refine ⟨_, row.refundWithoutReceiver, ⟨_, _, hrole, row.sender, row.server,
        List.mem_cons_self, by simp [TapscriptParams.signers, TapscriptParams.toMultisig], rfl⟩,
        fun hopen ↦ ⟨by simp [TapscriptParams.timelock], ?_⟩⟩
      rintro locktime ⟨⟩
      obtain ⟨locktime, hlocktime, hopen⟩ := map_ok.mp ((if_pos hc).symm.trans hopen)
      obtain rfl := Except.ok.inj (hlocktime.symm.trans row.refundLocktime)
      exact isCltvSatisfied_iff.mp hopen
    · simp only [if_neg hc]
      refine ⟨_, row.unilateralRefund, ⟨_, _, hrole, row.sender, row.server, List.mem_cons_self,
        by simp [TapscriptParams.signers, TapscriptParams.toMultisig], rfl⟩,
        fun hopen ↦ ⟨?_, by simp [TapscriptParams.locktime]⟩⟩
      rintro timelock ⟨⟩
      obtain ⟨b, hb, hmatured⟩ := isCsvSpendable_eq context row.refundDelay
      obtain rfl := Except.ok.inj (hb.symm.trans ((if_neg hc).symm.trans hopen))
      exact ⟨hmatured.mp rfl, _, rfl, row.refundDelay⟩

theorem mem_single {path? : Option (Except Message PathSelection)} {paths : List PathSelection}
    {path : PathSelection} (h : single path? = .ok paths) (hmem : path ∈ paths) :
    path? = some (.ok path) := by
  cases path? with
  | none =>
    obtain rfl := Except.ok.inj h
    cases hmem
  | some path? =>
    obtain ⟨path', hpath, rfl⟩ := map_ok.mp h
    rw [hpath, List.mem_singleton.mp hmem]

theorem LockupRow.of_offered (row : LockupRow L preimageCondition contract script options
    conditionScript) {offered : List PathSelection} {path : PathSelection}
    (ho : VHTLCContractHandler.getSpendablePaths expandKey L script contract context = .ok offered)
    (hpath : path ∈ offered) :
    ∃ role, resolveRole expandKey contract context = some role ∧
      isOpen L contract context role = .ok true ∧
        single (pathOf script contract context.collaborative role) = .ok offered := by
  cases hrole : resolveRole expandKey contract context with
  | none =>
    obtain rfl := Except.ok.inj ((paths_of_no_role L script hrole).2.symm.trans ho)
    cases hpath
  | some role =>
    obtain ⟨b, hb⟩ := row.isOpen_ok context role
    have ho := (getSpendablePaths_eq row hrole hb).symm.trans ho
    cases b with
    | true => exact ⟨role, rfl, hb, ho⟩
    | false =>
      obtain rfl := Except.ok.inj ho
      cases hpath

theorem LockupRow.right (row : LockupRow L preimageCondition contract script options
    conditionScript) (createScript : VHTLC.Params → Except Message (LockupScript Tree)) :
    PathsRight L.toLibraries (lockupHandler expandKey L createScript) script contract
      (fun context params path ↦ ∃ role own server,
        LockupMine expandKey preimageCondition contract context params path role own server) True := by
  constructor
  case listed =>
    intro hreadable context
    cases hrole : resolveRole expandKey contract context with
    | none =>
      obtain ⟨hall, hoffered⟩ := paths_of_no_role L script hrole
      exact ⟨[], [], hall, hoffered⟩
    | some role =>
      obtain ⟨b, hb⟩ := row.isOpen_ok context role
      have hsingle : ∃ paths, single (pathOf script contract context.collaborative role) =
          .ok paths := by
        cases role with
        | sender => exact ⟨_, rfl⟩
        | receiver =>
          unfold pathOf
          cases hp : preimageOf contract with
          | none => exact ⟨[], rfl⟩
          | some preimage =>
            obtain ⟨witness, hw⟩ := Option.isSome_iff_exists.mp (hreadable preimage hp)
            have hdecode : VHTLC.decodeHex (some preimage) = .ok witness := by
              simp [VHTLC.decodeHex, hw]
            simp only [Option.map_some, hdecode]
            exact ⟨_, rfl⟩
      obtain ⟨paths, hpaths⟩ := hsingle
      refine ⟨paths, if b then paths else [], (getAllSpendingPaths_eq hrole).trans hpaths, ?_⟩
      refine (getSpendablePaths_eq row hrole hb).trans ?_
      cases b with
      | true => exact hpaths
      | false => rfl
  case sublist =>
    intro context all offered ha ho
    cases hrole : resolveRole expandKey contract context with
    | none =>
      obtain rfl := Except.ok.inj ((paths_of_no_role L script hrole).2.symm.trans ho)
      exact List.nil_sublist _
    | some role =>
      obtain ⟨b, hb⟩ := row.isOpen_ok context role
      have ha := (getAllSpendingPaths_eq hrole).symm.trans ha
      have ho := (getSpendablePaths_eq row hrole hb).symm.trans ho
      cases b with
      | true =>
        obtain rfl := Except.ok.inj (ha.symm.trans ho)
        exact List.Sublist.refl _
      | false =>
        obtain rfl := Except.ok.inj ho
        exact List.nil_sublist _
  case selected => exact selectPath_eq row
  case known =>
    intro context all ha path hpath
    cases hrole : resolveRole expandKey contract context with
    | none =>
      obtain rfl := Except.ok.inj ((paths_of_no_role L script hrole).1.symm.trans ha)
      cases hpath
    | some role =>
      have hone := mem_single ((getAllSpendingPaths_eq hrole).symm.trans ha) hpath
      obtain ⟨params, hleaf, hmine, -⟩ := row.leaf hrole hone
      exact ⟨params, hleaf, role, hmine⟩
  case offered =>
    intro context offered ho path hpath
    obtain ⟨role, hrole, hopen, hsingle⟩ := row.of_offered ho hpath
    obtain ⟨params, hleaf, hmine, htimely⟩ := row.leaf hrole (mem_single hsingle hpath)
    exact ⟨params, hleaf, ⟨role, hmine⟩, fun _ ↦ htimely hopen⟩
  case stays =>
    intro context context' hlater offered ho path hpath
    obtain ⟨role, hrole, hopen, hsingle⟩ := row.of_offered ho hpath
    have hrole' := (resolveRole_later expandKey contract hlater).trans hrole
    have ho' := getSpendablePaths_eq row hrole' (isOpen_later hlater hopen)
    rw [hlater.collaborative] at ho'
    exact ⟨offered, ho'.trans hsingle, hpath⟩

theorem LockupScript.new_row (hnew : LockupScript.new L preimageCondition options = .ok script)
    (sender : VHTLC.decodeHex (contract.params.lookup "sender") = .ok options.sender)
    (receiver : VHTLC.decodeHex (contract.params.lookup "receiver") = .ok options.receiver)
    (server : VHTLC.decodeHex (contract.params.lookup "server") = .ok options.server)
    (hash : VHTLC.decodeHex (contract.params.lookup "hash") = .ok options.preimageHash)
    (refundLocktime : VHTLC.bigIntParam (contract.params.lookup "refundLocktime") =
      .ok options.refundLocktime)
    (claimDelay : sequenceToTimelock L.toLibraries
      (VHTLC.toSequence (contract.params.lookup "claimDelay")) = .ok options.unilateralClaimDelay)
    (refundDelay : sequenceToTimelock L.toLibraries
      (VHTLC.toSequence (contract.params.lookup "refundNoReceiverDelay")) =
        .ok options.unilateralRefundWithoutReceiverDelay) :
    ∃ conditionScript, LockupRow L preimageCondition contract script options conditionScript := by
  simp only [LockupScript.new, bind_ok, pure_ok] at hnew
  obtain ⟨base, hbase, conditionScript, hcondition, refundWithoutReceiver, hrefund, unilateralClaim,
    hunilateralClaim, unilateralRefund, hunilateralRefund, rfl⟩ := hnew
  simp only [VHTLC.BaseScript.new, bind_ok, pure_ok] at hbase
  obtain ⟨_, -, condition', hcondition', claim, hclaim, _, -, _, -, _, -, _, -, _, -, _, -, _, -, _,
    -, rfl⟩ := hbase
  obtain rfl := Except.ok.inj (hcondition.symm.trans hcondition')
  rw [toSequence_eq] at claimDelay refundDelay
  exact ⟨conditionScript, sender, receiver, server, hash, refundLocktime, claimDelay, refundDelay,
    hcondition, ⟨.conditionMultisig claim, map_ok.mpr ⟨claim, hclaim, rfl⟩, rfl⟩,
    ⟨.cltvMultisig refundWithoutReceiver, map_ok.mpr ⟨_, hrefund, rfl⟩, rfl⟩,
    ⟨.conditionCSVMultisig unilateralClaim, map_ok.mpr ⟨_, hunilateralClaim, rfl⟩, rfl⟩,
    ⟨.csvMultisig unilateralRefund, map_ok.mpr ⟨_, hunilateralRefund, rfl⟩, rfl⟩⟩

end Row

theorem VHTLCContractHandler.paths {contract : Contract} {script : LockupScript Tree}
    (h : (VHTLCContractHandler expandKey L).createScript contract.params = .ok script) :
    PathsRight L.toLibraries (VHTLCContractHandler expandKey L) script contract
      (fun context params path ↦ ∃ role own server, LockupMine expandKey
        (VHTLC.preimageConditionScript L) contract context params path role own server) True := by
  obtain ⟨options, htyped, hnew⟩ := bind_ok.mp h
  simp only [VHTLCContractHandler.deserializeParams, bind_ok, pure_ok] at htyped
  obtain ⟨sender, hsender, receiver, hreceiver, server, hserver, hash, hhash, refundLocktime,
    hrefundLocktime, claimDelay, hclaimDelay, refundDelay, -, soloDelay, hsoloDelay, rfl⟩ := htyped
  obtain ⟨conditionScript, row⟩ := LockupScript.new_row hnew hsender hreceiver hserver hhash
    hrefundLocktime hclaimDelay hsoloDelay
  exact row.right _

theorem VHTLCV2ContractHandler.paths {contract : Contract} {script : LockupScript Tree}
    (h : (VHTLCV2ContractHandler expandKey L).createScript contract.params = .ok script) :
    PathsRight L.toLibraries (VHTLCV2ContractHandler expandKey L) script contract
      (fun context params path ↦ ∃ role own server, LockupMine expandKey
        (VHTLC.preimageConditionScriptV2 L) contract context params path role own server) True := by
  obtain ⟨options, htyped, hnew⟩ := bind_ok.mp h
  simp only [VHTLC.deserializeParams, bind_ok, pure_ok] at htyped
  obtain ⟨claim, -, refund, -, _, -, _, -, asset, -, sender, hsender, receiver, hreceiver, server,
    hserver, hash, hhash, refundLocktime, hrefundLocktime, claimDelay, hclaimDelay, refundDelay, -,
    soloDelay, hsoloDelay, nonInteractiveClaim, -, rfl⟩ := htyped
  obtain ⟨conditionScript, row⟩ := LockupScript.new_row hnew hsender hreceiver hserver hhash
    hrefundLocktime hclaimDelay hsoloDelay
  exact row.right _

end ArkadeSdk.Paths
