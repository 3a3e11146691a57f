import ArkadeSdk.Contracts.PathMaturity
import ArkadeSdk.Lib.Sieve

/-! The paths of a compiled program: its functions without a covenant whose condition the arguments
of the row already meet. -/

namespace ArkadeSdk.Paths

open WireFormat JsNumber JsRecord ScriptCoder HexCodec Sieve
open Contracts (Contract)

variable (expandKey : String → Except Message Bytes) (J : Json.Text) {Tree : Type}
  (L : ProgramLibraries Tree)

namespace ArkadeContractHandler

/-- The descriptor's key, or else the bare one. -/
def walletKeyFrom (context : PathContext) : Option String :=
  ((givenText context.walletDescriptor).bind (extractRawPubKey expandKey)).or
    ((givenText context.walletPubKey).bind (extractRawPubKey expandKey))

/-- What the condition is shown without the arguments of a call, when these are not needed. -/
def staticWitness (fn : CompiledProgramFunction) (args : Args) : Option (List Bytes) :=
  ((fn.definition.tapscript.witness.getD []).mapM fun w ↦
    witnessRefToBytes w Record.empty args).toOption

/-- `witness.length > 0 ? { extraWitness: witness } : {}`. -/
def extraWitness (witness : List Bytes) : Option (List Bytes) :=
  if witness = [] then none else some witness

def serverHex (script : ArkadeProgramScript Tree) : String := base16.encode script.keys.serverKey

def signerHexes (fn : CompiledProgramFunction) : List String := fn.signerKeys.map base16.encode

/-- A wallet that is known has to be a signer, where somebody beside the server signs. -/
def mustSign (script : ArkadeProgramScript Tree) (context : PathContext)
    (fn : CompiledProgramFunction) : Prop :=
  let nonServer := (signerHexes fn).filter (· ≠ serverHex script)
  ∀ walletKey ∈ walletKeyFrom expandKey context, nonServer ≠ [] → walletKey ∈ nonServer

instance (script : ArkadeProgramScript Tree) (context : PathContext)
    (fn : CompiledProgramFunction) : Decidable (mustSign expandKey script context fn) :=
  inferInstanceAs (Decidable (∀ walletKey ∈ walletKeyFrom expandKey context, _ → _))

/-- A delay that has still to run, where it is looked at. -/
def isYoung (context : PathContext) (checked : Bool) (sequence : Option Number) :
    Except Message Bool :=
  if checked then (!·) <$> isCsvSpendable L.toLibraries context sequence else .ok false

/-- The body of the loop over the functions. -/
def pathFor (script : ArkadeProgramScript Tree) (context : PathContext) (checkTimelocks : Bool)
    (fn : CompiledProgramFunction) : Except Message (Option PathSelection) :=
  if fn.arkadeScript.isSome then return none
  else match staticWitness fn script.args with
  | none => return none
  | some witness =>
    if ¬mustSign expandKey script context fn then return none
    else do
      let csv ← fn.definition.tapscript.csv.mapM fun csv ↦ csv.resolve script.args
      let cltv ← fn.definition.tapscript.cltv.mapM fun cltv ↦ resolveTimelockValue cltv script.args
      let early := checkTimelocks && cltv.any fun cltv ↦ !isCltvSatisfied context cltv
      if context.collaborative then
        if csv.isSome then return none
        else if early then return none
        else return some ⟨fn.leafScript, extraWitness witness, none⟩
      else if serverHex script ∈ signerHexes fn then return none
      else do
        let sequence ← csv.mapM fun csv ↦ Number.ofNat <$> timelockToSequence L.toLibraries csv
        let young ← isYoung L context (checkTimelocks && csv.isSome) sequence
        if young then return none
        else if early then return none
        else return some ⟨fn.leafScript, extraWitness witness, sequence⟩

def pathsFor (script : ArkadeProgramScript Tree) (context : PathContext) (checkTimelocks : Bool) :
    Except Message (List PathSelection) :=
  sieve (pathFor expandKey L script context checkTimelocks) script.compiled

/-- The row's texts that a program is read from. -/
def storedParams (params : VHTLC.Params) : StoredParams where
  program := params.lookup "program"
  args := params.lookup "args"
  serverKey := params.lookup "serverKey"
  userKey := params.lookup "userKey"
  emulatorKey := params.lookup "emulatorKey"

def createScript (params : VHTLC.Params) : Except Message (ArkadeProgramScript Tree) := do
  let typed ← deserializeArkadeContractParams base16 J (storedParams params)
  ArkadeProgramScript.new L typed.program typed.args typed.toProgramKeys

end ArkadeContractHandler

/-- The row itself is not looked at. -/
def ArkadeContractHandler : PathHandler (ArkadeProgramScript Tree) where
  createScript := ArkadeContractHandler.createScript J L
  selectPath script _ context :=
    List.head? <$> ArkadeContractHandler.pathsFor expandKey L script context true
  getAllSpendingPaths script _ context :=
    ArkadeContractHandler.pathsFor expandKey L script context false
  getSpendablePaths script _ context :=
    ArkadeContractHandler.pathsFor expandKey L script context true

section Function

variable {expandKey} {L} {script : ArkadeProgramScript Tree} {context : PathContext}
  {fn : CompiledProgramFunction} {path : PathSelection}

/-- What is shown of a function, whether or not its locks have matured. -/
structure Shown (expandKey : String → Except Message Bytes) (L : ProgramLibraries Tree)
    (script : ArkadeProgramScript Tree) (context : PathContext) (fn : CompiledProgramFunction)
    (path : PathSelection) (csv : Option RelativeTimelock) (cltv : Option ℤ)
    (witness : List Bytes) : Prop where
  uncovered : fn.arkadeScript.isSome = false
  static : ArkadeContractHandler.staticWitness fn script.args = some witness
  signer : ArkadeContractHandler.mustSign expandKey script context fn
  csv_read : (fn.definition.tapscript.csv.mapM fun csv ↦ csv.resolve script.args) = .ok csv
  cltv_read : (fn.definition.tapscript.cltv.mapM fun cltv ↦ resolveTimelockValue cltv script.args) =
    .ok cltv
  leaf : path.leaf = fn.leafScript
  attached : path.extraWitness = ArkadeContractHandler.extraWitness witness
  cooperative : context.collaborative = true → csv = none ∧ path.sequence = none
  unilateral : context.collaborative = false →
    ArkadeContractHandler.serverHex script ∉ ArkadeContractHandler.signerHexes fn ∧
      (csv.mapM fun csv ↦ Number.ofNat <$> timelockToSequence L.toLibraries csv) = .ok path.sequence

/-- The locks of a function pass their checks. -/
structure Ready (L : ProgramLibraries Tree) (context : PathContext) (path : PathSelection)
    (csv : Option RelativeTimelock) (cltv : Option ℤ) : Prop where
  aged : csv.isSome → isCsvSpendable L.toLibraries context path.sequence = .ok true
  due : ∀ locktime ∈ cltv, isCltvSatisfied context locktime = true

theorem ready_cltv {checkTimelocks : Bool} {cltv : Option ℤ} :
    (checkTimelocks && cltv.any fun cltv ↦ !isCltvSatisfied context cltv) = false ↔
      (checkTimelocks = true → ∀ locktime ∈ cltv, isCltvSatisfied context locktime = true) := by
  cases checkTimelocks <;> cases cltv <;> simp

open ArkadeContractHandler in
theorem pathFor_some {checkTimelocks : Bool} :
    pathFor expandKey L script context checkTimelocks fn = .ok (some path) ↔
      ∃ csv cltv witness, Shown expandKey L script context fn path csv cltv witness ∧
        (checkTimelocks = true → Ready L context path csv cltv) := by
  constructor
  · intro h
    unfold pathFor at h
    split at h
    · cases h
    rename_i huncovered
    split at h
    · cases h
    rename_i witness hwitness
    split at h
    · cases h
    rename_i hsign
    obtain ⟨csv, hcsv, h⟩ := bind_ok.mp h
    obtain ⟨cltv, hcltv, h⟩ := bind_ok.mp h
    dsimp only at h
    split at h
    · rename_i hc
      split at h
      · cases h
      rename_i hnone
      split at h
      · cases h
      rename_i hearly
      obtain rfl := Option.some.inj (Except.ok.inj h)
      have hnone : csv = none := by simpa using hnone
      refine ⟨csv, cltv, witness, ⟨by simpa using huncovered, hwitness, not_not.mp hsign, hcsv,
        hcltv, rfl, rfl, fun _ ↦ ⟨hnone, rfl⟩, by simp [hc]⟩, fun hcheck ↦ ⟨by simp [hnone], ?_⟩⟩
      exact ready_cltv.mp (Bool.not_eq_true _ ▸ hearly) hcheck
    · rename_i hc
      split at h
      · cases h
      rename_i hserver
      obtain ⟨sequence, hsequence, h⟩ := bind_ok.mp h
      obtain ⟨young, hyoung, h⟩ := bind_ok.mp h
      split at h
      · cases h
      rename_i hold
      split at h
      · cases h
      rename_i hearly
      obtain rfl := Option.some.inj (Except.ok.inj h)
      refine ⟨csv, cltv, witness, ⟨by simpa using huncovered, hwitness, not_not.mp hsign, hcsv,
        hcltv, rfl, rfl, by simp [hc], fun _ ↦ ⟨hserver, hsequence⟩⟩, fun hcheck ↦ ⟨fun hsome ↦ ?_,
          ready_cltv.mp (Bool.not_eq_true _ ▸ hearly) hcheck⟩⟩
      rw [isYoung, if_pos (by simp [hcheck, hsome])] at hyoung
      obtain ⟨b, hb, rfl⟩ := map_ok.mp hyoung
      have hold : b = true := by simpa using hold
      exact hold ▸ hb
  · rintro ⟨csv, cltv, witness, shown, hready⟩
    have hearly : (checkTimelocks && cltv.any fun cltv ↦ !isCltvSatisfied context cltv) = false :=
      ready_cltv.mpr fun hcheck ↦ (hready hcheck).due
    obtain ⟨leaf, attached, sequence⟩ := path
    obtain rfl : leaf = fn.leafScript := shown.leaf
    obtain rfl : attached = extraWitness witness := shown.attached
    unfold pathFor
    simp only [shown.uncovered, Bool.false_eq_true, if_false, shown.static, not_not.mpr shown.signer]
    refine bind_ok.mpr ⟨csv, shown.csv_read, bind_ok.mpr ⟨cltv, shown.cltv_read, ?_⟩⟩
    simp only [hearly, Bool.false_eq_true, if_false]
    cases hc : context.collaborative with
    | true =>
      obtain ⟨rfl, rfl⟩ : csv = none ∧ sequence = none := shown.cooperative hc
      rfl
    | false =>
      obtain ⟨hserver, hsequence⟩ := shown.unilateral hc
      rw [if_neg Bool.false_ne_true, if_neg hserver]
      refine bind_ok.mpr ⟨sequence, hsequence, bind_ok.mpr ⟨false, ?_, rfl⟩⟩
      by_cases hcheck : (checkTimelocks && csv.isSome) = true
      · obtain ⟨htrue, hsome⟩ := Bool.and_eq_true_iff.mp hcheck
        rw [isYoung, if_pos hcheck, (hready htrue).aged hsome]
        rfl
      · rw [isYoung, if_neg hcheck]

end Function

section Compiled

variable {expandKey} {L} {J} {script : ArkadeProgramScript Tree} {context : PathContext}
  {fn : CompiledProgramFunction} {path : PathSelection}

/-- The closure that a function without a covenant is compiled to. -/
structure FunctionLeaf (L : ProgramLibraries Tree) (seg : TapscriptSegment) (args : Args)
    (pubkeys : List Bytes) (leaf : Bytes) (params : TapscriptParams) : Prop where
  leaf : LeafOf L.toLibraries params leaf
  signers : params.signers = pubkeys
  csv : (seg.csv.mapM fun csv ↦ csv.resolve args) = .ok params.timelock
  cltv : (seg.cltv.mapM fun cltv ↦ resolveTimelockValue cltv args) = .ok params.locktime
  sequence : ∀ timelock ∈ params.timelock, ∃ n, timelockToSequence L.toLibraries timelock = .ok n

theorem encodeTapscriptSegment_leaf {seg : TapscriptSegment} {pubkeys : List Bytes} {args : Args}
    {leaf : Bytes} (hvalid : validateTapscript seg = .ok ())
    (h : encodeTapscriptSegment L seg pubkeys args = .ok leaf) :
    ∃ params, FunctionLeaf L seg args pubkeys leaf params := by
  obtain ⟨-, hvalid⟩ := then_ok.mp hvalid
  obtain ⟨-, hvalid⟩ := then_ok.mp hvalid
  have hone := rejectIf_ok.mp (then_ok.mp hvalid).1
  unfold encodeTapscriptSegment at h
  cases hcsv : seg.csv with
  | some csv =>
    have hcltv : seg.cltv = none := by
      cases hc : seg.cltv with
      | none => rfl
      | some cltv => exact absurd ⟨by simp [hcsv], by simp [hc]⟩ hone
    simp only [hcsv] at h
    obtain ⟨timelock, htimelock, h⟩ := bind_ok.mp h
    have hread : (seg.csv.mapM fun csv ↦ csv.resolve args) = .ok (some timelock) := by
      rw [hcsv]
      exact map_ok.mpr ⟨timelock, htimelock, rfl⟩
    have hnone : (seg.cltv.mapM fun cltv ↦ resolveTimelockValue cltv args) = .ok none := by
      rw [hcltv]
      rfl
    cases hasm : seg.asm with
    | some asm =>
      simp only [hasm] at h
      obtain ⟨conditionScript, -, h⟩ := bind_ok.mp h
      obtain ⟨t, ht, rfl⟩ := map_ok.mp h
      refine ⟨.conditionCSVMultisig ⟨⟨⟨pubkeys, none⟩, timelock⟩, conditionScript⟩,
        ⟨.conditionCSVMultisig t, map_ok.mpr ⟨t, ht, rfl⟩, rfl⟩, rfl, hread, hnone, ?_⟩
      rintro _ ⟨⟩
      obtain ⟨verify, -, ht⟩ := bind_ok.mp ht
      obtain ⟨m, hm, -⟩ := bind_ok.mp ht
      exact VHTLC.csv_sequence hm
    | none =>
      simp only [hasm] at h
      obtain ⟨t, ht, rfl⟩ := map_ok.mp h
      refine ⟨.csvMultisig ⟨⟨pubkeys, none⟩, timelock⟩,
        ⟨.csvMultisig t, map_ok.mpr ⟨t, ht, rfl⟩, rfl⟩, rfl, hread, hnone, ?_⟩
      rintro _ ⟨⟩
      exact VHTLC.csv_sequence ht
  | none =>
    have hnone : (seg.csv.mapM fun csv ↦ csv.resolve args) = .ok none := by
      rw [hcsv]
      rfl
    simp only [hcsv] at h
    cases hcltv : seg.cltv with
    | some cltv =>
      simp only [hcltv] at h
      obtain ⟨locktime, hlocktime, h⟩ := bind_ok.mp h
      obtain ⟨t, ht, rfl⟩ := map_ok.mp h
      refine ⟨.cltvMultisig ⟨⟨pubkeys, none⟩, locktime⟩,
        ⟨.cltvMultisig t, map_ok.mpr ⟨t, ht, rfl⟩, rfl⟩, rfl, hnone, ?_, by
          simp [TapscriptParams.timelock]⟩
      rw [hcltv]
      exact map_ok.mpr ⟨locktime, hlocktime, rfl⟩
    | none =>
      have hnone' : (seg.cltv.mapM fun cltv ↦ resolveTimelockValue cltv args) = .ok none := by
        rw [hcltv]
        rfl
      simp only [hcltv] at h
      cases hasm : seg.asm with
      | some asm =>
        simp only [hasm] at h
        obtain ⟨conditionScript, -, h⟩ := bind_ok.mp h
        obtain ⟨t, ht, rfl⟩ := map_ok.mp h
        exact ⟨.conditionMultisig ⟨⟨pubkeys, none⟩, conditionScript⟩,
          ⟨.conditionMultisig t, map_ok.mpr ⟨t, ht, rfl⟩, rfl⟩, rfl, hnone, hnone', by
            simp [TapscriptParams.timelock]⟩
      | none =>
        simp only [hasm] at h
        obtain ⟨t, ht, rfl⟩ := map_ok.mp h
        exact ⟨.multisig ⟨pubkeys, none⟩, ⟨.multisig t, map_ok.mpr ⟨t, ht, rfl⟩, rfl⟩, rfl, hnone,
          hnone', by simp [TapscriptParams.timelock]⟩

theorem compiled_leaf {program : Program} {args : Args} {keys : ProgramKeys}
    (h : ArkadeProgramScript.new L program args keys = .ok script) (hfn : fn ∈ script.compiled)
    (huncovered : fn.arkadeScript.isSome = false) :
    ∃ params, FunctionLeaf L fn.definition.tapscript script.args fn.signerKeys fn.leafScript
      params := by
  obtain ⟨compiled, hcompiled, h⟩ := bind_ok.mp h
  obtain ⟨tree, -, h⟩ := bind_ok.mp h
  obtain rfl := pure_ok.mp h
  obtain ⟨-, hcompiled⟩ := then_ok.mp hcompiled
  obtain ⟨-, hcompiled⟩ := then_ok.mp hcompiled
  obtain ⟨-, hcompiled⟩ := then_ok.mp hcompiled
  obtain ⟨-, hcompiled⟩ := then_ok.mp hcompiled
  obtain ⟨entry, -, hentry⟩ := mem_mapM_ok hcompiled hfn
  simp only [compileFunction, bind_ok, pure_ok] at hentry
  obtain ⟨⟨⟩, hvalid, pubkeys, -, arkadeScript, -, leafPubkeys, hkeys, leafScript, hleaf, rfl⟩ :=
    hentry
  cases arkadeScript with
  | some _ => cases huncovered
  | none =>
    obtain rfl := Except.ok.inj hkeys
    exact encodeTapscriptSegment_leaf hvalid hleaf

/-- A leaf of the program that the wallet can sign, with what its condition is to be shown. -/
structure ProgramMine (expandKey : String → Except Message Bytes) {Tree : Type}
    (script : ArkadeProgramScript Tree) (context : PathContext) (params : TapscriptParams)
    (path : PathSelection) (fn : CompiledProgramFunction) (witness : List Bytes) : Prop where
  compiled : fn ∈ script.compiled
  uncovered : fn.arkadeScript = none
  resolved : ((fn.definition.tapscript.witness.getD []).mapM fun w ↦
    witnessRefToBytes w Record.empty script.args) = .ok witness
  attached : path.extraWitness = if witness = [] then none else some witness
  signers : params.signers = fn.signerKeys
  signer : ∀ walletKey ∈ ArkadeContractHandler.walletKeyFrom expandKey context,
    (∃ key ∈ params.signers, key ≠ script.keys.serverKey) →
      ∃ key ∈ params.signers, key ≠ script.keys.serverKey ∧ base16.encode key = walletKey
  cooperative : context.collaborative = true → params.timelock = none
  unilateral : context.collaborative = false → script.keys.serverKey ∉ params.signers

theorem staticWitness_eq {args : Args} {witness : List Bytes}
    (h : ArkadeContractHandler.staticWitness fn args = some witness) :
    ((fn.definition.tapscript.witness.getD []).mapM fun w ↦
      witnessRefToBytes w Record.empty args) = .ok witness := by
  unfold ArkadeContractHandler.staticWitness at h
  cases hw : (fn.definition.tapscript.witness.getD []).mapM fun w ↦
      witnessRefToBytes w Record.empty args with
  | ok bytes =>
    rw [hw] at h
    rw [Option.some.inj h]
  | error e =>
    rw [hw] at h
    cases h

theorem mem_signerHexes {key : Bytes} :
    base16.encode key ∈ ArkadeContractHandler.signerHexes fn ↔ key ∈ fn.signerKeys := by
  constructor
  · intro h
    obtain ⟨key', hmem, heq⟩ := List.mem_map.mp h
    rwa [← base16.encode_injective heq]
  · exact List.mem_map_of_mem

theorem Shown.mine {params : TapscriptParams} {csv : Option RelativeTimelock} {cltv : Option ℤ}
    {witness : List Bytes} (hfn : fn ∈ script.compiled)
    (shown : Shown expandKey L script context fn path csv cltv witness)
    (leaf : FunctionLeaf L fn.definition.tapscript script.args fn.signerKeys fn.leafScript params) :
    ProgramMine expandKey script context params path fn witness := by
  obtain rfl := Except.ok.inj (shown.csv_read.symm.trans leaf.csv)
  refine ⟨hfn, by simpa using shown.uncovered, staticWitness_eq shown.static, shown.attached,
    leaf.signers, ?_, fun hc ↦ (shown.cooperative hc).1, fun hc hmem ↦ ?_⟩
  · rintro walletKey hwallet ⟨key, hmem, hne⟩
    rw [leaf.signers] at hmem ⊢
    have hother : base16.encode key ∈ (ArkadeContractHandler.signerHexes fn).filter
        (· ≠ ArkadeContractHandler.serverHex script) := by
      apply List.mem_filter.mpr
      exact ⟨mem_signerHexes.mpr hmem, decide_eq_true fun h ↦ hne (base16.encode_injective h)⟩
    obtain ⟨hsigner, hserver⟩ := List.mem_filter.mp
      (shown.signer walletKey hwallet (List.ne_nil_of_mem hother))
    obtain ⟨key', hmem', rfl⟩ := List.mem_map.mp hsigner
    refine ⟨key', hmem', ?_, rfl⟩
    rintro rfl
    simp [ArkadeContractHandler.serverHex] at hserver
  · rw [leaf.signers] at hmem
    exact (shown.unilateral hc).1 (mem_signerHexes.mpr hmem)

theorem sequence_readable {timelock : RelativeTimelock} {n : ℕ}
    (h : timelockToSequence L.toLibraries timelock = .ok n) :
    sequenceToTimelock L.toLibraries (sequenceBits (.ofNat n)) = .ok timelock := by
  have htrunc : sequenceBits (.ofNat n) = n := Number.trunc_natCast n
  rw [htrunc, sequenceToTimelock, L.bip68_decode_encode h]

theorem Shown.timely {params : TapscriptParams} {csv : Option RelativeTimelock} {cltv : Option ℤ}
    {witness : List Bytes} (shown : Shown expandKey L script context fn path csv cltv witness)
    (ready : Ready L context path csv cltv)
    (leaf : FunctionLeaf L fn.definition.tapscript script.args fn.signerKeys fn.leafScript params) :
    Timely L.toLibraries context params path := by
  obtain rfl := Except.ok.inj (shown.csv_read.symm.trans leaf.csv)
  obtain rfl := Except.ok.inj (shown.cltv_read.symm.trans leaf.cltv)
  refine ⟨fun timelock ht ↦ ?_, fun locktime hl ↦ isCltvSatisfied_iff.mp (ready.due locktime hl)⟩
  rw [Option.mem_def] at ht
  cases hc : context.collaborative with
  | true =>
    rw [(shown.cooperative hc).1] at ht
    cases ht
  | false =>
    have hsequence := (shown.unilateral hc).2
    rw [ht] at hsequence
    obtain ⟨n, hn, hpath⟩ := map_ok.mp hsequence
    obtain ⟨k, hk, rfl⟩ := map_ok.mp hn
    have hbits := sequence_readable hk
    obtain ⟨b, hb, hmatured⟩ := isCsvSpendable_eq context hbits
    have haged := ready.aged (by simp [ht])
    rw [← hpath] at haged ⊢
    obtain rfl := Except.ok.inj (hb.symm.trans haged)
    exact ⟨hmatured.mp rfl, _, rfl, hbits⟩

theorem mustSign_later {context' : PathContext} (h : Later context context') :
    ArkadeContractHandler.mustSign expandKey script context' fn ↔
      ArkadeContractHandler.mustSign expandKey script context fn := by
  simp only [ArkadeContractHandler.mustSign, ArkadeContractHandler.walletKeyFrom,
    h.walletDescriptor, h.walletPubKey]

theorem Shown.later {csv : Option RelativeTimelock} {cltv : Option ℤ} {witness : List Bytes}
    {context' : PathContext} (shown : Shown expandKey L script context fn path csv cltv witness)
    (h : Later context context') : Shown expandKey L script context' fn path csv cltv witness :=
  { shown with
    signer := (mustSign_later h).mpr shown.signer
    cooperative := fun hc ↦ shown.cooperative (h.collaborative ▸ hc)
    unilateral := fun hc ↦ shown.unilateral (h.collaborative ▸ hc) }

theorem FunctionLeaf.young_ok {seg : TapscriptSegment} {args : Args} {pubkeys : List Bytes}
    {script : Bytes} {params : TapscriptParams}
    (leaf : FunctionLeaf L seg args pubkeys script params) (context : PathContext)
    (checkTimelocks : Bool) :
    ∃ sequence young, (params.timelock.mapM fun csv ↦
        Number.ofNat <$> timelockToSequence L.toLibraries csv) = .ok sequence ∧
      ArkadeContractHandler.isYoung L context (checkTimelocks && params.timelock.isSome) sequence =
        .ok young := by
  cases ht : params.timelock with
  | none => exact ⟨none, false, rfl, by rw [Option.isSome_none, Bool.and_false]; rfl⟩
  | some timelock =>
    obtain ⟨n, hn⟩ := leaf.sequence timelock ht
    obtain ⟨b, hb, -⟩ := isCsvSpendable_eq context (sequence_readable hn)
    have hsequence : ((some timelock).mapM fun csv ↦
        Number.ofNat <$> timelockToSequence L.toLibraries csv) = .ok (some (.ofNat n)) :=
      map_ok.mpr ⟨_, map_ok.mpr ⟨n, hn, rfl⟩, rfl⟩
    cases checkTimelocks with
    | true => exact ⟨_, !b, hsequence, map_ok.mpr ⟨b, hb, rfl⟩⟩
    | false => exact ⟨_, false, hsequence, rfl⟩

open ArkadeContractHandler in
theorem exists_pathFor_ok (checkTimelocks : Bool) (context : PathContext)
    (hleaf : fn.arkadeScript.isSome = false → ∃ params,
      FunctionLeaf L fn.definition.tapscript script.args fn.signerKeys fn.leafScript params) :
    ∃ o, pathFor expandKey L script context checkTimelocks fn = .ok o := by
  unfold pathFor
  split
  · exact ⟨none, rfl⟩
  rename_i huncovered
  obtain ⟨params, leaf⟩ := hleaf (by simpa using huncovered)
  split
  · exact ⟨none, rfl⟩
  split
  · exact ⟨none, rfl⟩
  simp only [leaf.csv, leaf.cltv]
  dsimp only [bind, Except.bind]
  split
  · split
    · exact ⟨none, rfl⟩
    · split <;> exact ⟨_, rfl⟩
  split
  · exact ⟨none, rfl⟩
  obtain ⟨sequence, young, hsequence, hyoung⟩ := leaf.young_ok context checkTimelocks
  simp only [hsequence, hyoung]
  split
  · exact ⟨none, rfl⟩
  · split <;> exact ⟨_, rfl⟩

theorem mem_pathsFor {program : Program} {args : Args} {keys : ProgramKeys}
    (hnew : ArkadeProgramScript.new L program args keys = .ok script) {checkTimelocks : Bool}
    {paths : List PathSelection}
    (h : ArkadeContractHandler.pathsFor expandKey L script context checkTimelocks = .ok paths)
    (hpath : path ∈ paths) :
    ∃ params, LeafOf L.toLibraries params path.leaf ∧
      (∃ fn witness, ProgramMine expandKey script context params path fn witness) ∧
      (checkTimelocks = true → Timely L.toLibraries context params path) := by
  obtain ⟨fn, hfn, hsome⟩ := (mem_sieve h).mp hpath
  obtain ⟨csv, cltv, witness, shown, hready⟩ := pathFor_some.mp hsome
  obtain ⟨params, leaf⟩ := compiled_leaf hnew hfn shown.uncovered
  exact ⟨params, shown.leaf ▸ leaf.leaf, ⟨fn, witness, shown.mine hfn leaf⟩,
    fun hcheck ↦ shown.timely (hready hcheck) leaf⟩

theorem ready_later {csv : Option RelativeTimelock} {cltv : Option ℤ} {context' : PathContext}
    (ready : Ready L context path csv cltv) (h : Later context context') :
    Ready L context' path csv cltv :=
  ⟨fun hsome ↦ isCsvSpendable_later (ready.aged hsome) h,
    fun locktime hl ↦ isCltvSatisfied_later (ready.due locktime hl) h⟩

end Compiled

theorem ArkadeContractHandler.paths {contract : Contract} {script : ArkadeProgramScript Tree}
    (h : (ArkadeContractHandler expandKey J L).createScript contract.params = .ok script) :
    PathsRight L.toLibraries (ArkadeContractHandler expandKey J L) script contract
      (fun context params path ↦ ∃ fn witness,
        ProgramMine expandKey script context params path fn witness) True := by
  obtain ⟨typed, -, hnew⟩ := bind_ok.mp h
  have hlisted : ∀ context checkTimelocks, ∃ paths,
      ArkadeContractHandler.pathsFor expandKey L script context checkTimelocks = .ok paths :=
    fun context checkTimelocks ↦ exists_sieve_ok fun fn hfn ↦
      exists_pathFor_ok checkTimelocks context fun huncovered ↦ compiled_leaf hnew hfn huncovered
  constructor
  case listed =>
    intro _ context
    obtain ⟨all, hall⟩ := hlisted context false
    obtain ⟨offered, hoffered⟩ := hlisted context true
    exact ⟨all, offered, hall, hoffered⟩
  case sublist =>
    intro context all offered ha ho
    refine sieve_sublist (fun fn _ path hpath ↦ ?_) ho ha
    obtain ⟨csv, cltv, witness, shown, -⟩ := pathFor_some.mp hpath
    exact pathFor_some.mpr ⟨csv, cltv, witness, shown, by simp⟩
  case selected => exact fun _ ↦ rfl
  case known =>
    intro context all ha path hpath
    obtain ⟨params, hleaf, hmine, -⟩ := mem_pathsFor hnew ha hpath
    exact ⟨params, hleaf, hmine⟩
  case offered =>
    intro context offered ho path hpath
    obtain ⟨params, hleaf, hmine, htimely⟩ := mem_pathsFor hnew ho hpath
    exact ⟨params, hleaf, hmine, fun _ ↦ htimely rfl⟩
  case stays =>
    intro context context' hlater offered ho path hpath
    obtain ⟨offered', ho'⟩ := hlisted context' true
    obtain ⟨fn, hfn, hsome⟩ := (mem_sieve ho).mp hpath
    obtain ⟨csv, cltv, witness, shown, hready⟩ := pathFor_some.mp hsome
    refine ⟨offered', ho', (mem_sieve ho').mpr ⟨fn, hfn, pathFor_some.mpr ⟨csv, cltv, witness,
      shown.later hlater, fun hcheck ↦ ready_later (hready hcheck) hlater⟩⟩⟩

end ArkadeSdk.Paths
