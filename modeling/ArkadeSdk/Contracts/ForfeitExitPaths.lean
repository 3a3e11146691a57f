import ArkadeSdk.Contracts.PathMaturity
import ArkadeSdk.Wallet.BoardingSweepOwn

/-! The contracts with one leaf for cooperation and one for the exit offer no more than these. -/

namespace ArkadeSdk.Paths

open WireFormat JsNumber ScriptCoder
open Contracts (Contract)

/-- The row's own key signs, and nobody beyond the others named. -/
structure OwnedBy (own : Bytes) (others : List Bytes) (params : TapscriptParams)
    (path : PathSelection) : Prop where
  own_mem : own ∈ params.signers
  signers : ∀ key ∈ params.signers, key = own ∨ key ∈ others
  condition : params.condition = none
  bare : path.extraWitness = none

section ForfeitExit

variable {L : Libraries} {contract : Contract} {leaves : ForfeitExitScript}

structure ForfeitExitRow (L : Libraries) (contract : Contract) (leaves : ForfeitExitScript)
    (Mine : TapscriptParams → PathSelection → Prop) (forfeit exit : TapscriptParams) : Prop where
  forfeit_leaf : LeafOf L forfeit leaves.forfeit
  exit_leaf : LeafOf L exit leaves.exit
  forfeit_mine : Mine forfeit ⟨leaves.forfeit, none, none⟩
  exit_mine : Mine exit ⟨leaves.exit, none, exitSequence contract⟩
  forfeit_open : forfeit.timelock = none ∧ forfeit.locktime = none
  exit_open : exit.locktime = none
  delay : ∀ n ∈ exitSequence contract, ∃ timelock,
    sequenceToTimelock L (sequenceBits n) = .ok timelock ∧ exit.timelock = some timelock

variable {Mine : TapscriptParams → PathSelection → Prop} {forfeit exit : TapscriptParams}

/-- Whether the exit is open can be told, and says that its delay has run when the row has one. -/
theorem ForfeitExitRow.spendable (row : ForfeitExitRow L contract leaves Mine forfeit exit)
    (context : PathContext) : ∃ b, isCsvSpendable L context (exitSequence contract) = .ok b ∧
      (b = true → (exitSequence contract).isSome →
        Timely L context exit ⟨leaves.exit, none, exitSequence contract⟩) := by
  cases hn : exitSequence contract with
  | none => exact ⟨true, rfl, by simp⟩
  | some n =>
    obtain ⟨timelock, ht, hexit⟩ := row.delay n hn
    obtain ⟨b, hb, hmatured⟩ := isCsvSpendable_eq context ht
    refine ⟨b, hb, fun hopen _ ↦ ⟨?_, ?_⟩⟩
    · rintro t hmem
      obtain rfl := Option.some.inj (hexit.symm.trans hmem)
      exact ⟨hmatured.mp hopen, n, rfl, ht⟩
    · simp [row.exit_open]

theorem ForfeitExitRow.right (row : ForfeitExitRow L contract leaves Mine forfeit exit)
    {Script : Type} {handler : PathHandler Script} {script : Script}
    (extra : PathContext → List PathSelection)
    (hselect : ∀ context, handler.selectPath script contract context =
      selectForfeitOrExitPath L leaves contract context)
    (hall : ∀ context, handler.getAllSpendingPaths script contract context =
      .ok (forfeitExitAllPaths leaves contract context ++ extra context))
    (hspend : ∀ context, handler.getSpendablePaths script contract context =
      forfeitExitSpendablePaths L leaves contract context)
    (hextra : ∀ context, ∀ path ∈ extra context, ∃ params, LeafOf L params path.leaf ∧
      Mine params path) :
    PathsRight L handler script contract (fun _ ↦ Mine) (exitSequence contract).isSome := by
  have hoffered : ∀ context, ∃ b, isCsvSpendable L context (exitSequence contract) = .ok b ∧
      handler.getSpendablePaths script contract context =
        .ok ((if context.collaborative then [⟨leaves.forfeit, none, none⟩] else []) ++
          if b then [⟨leaves.exit, none, exitSequence contract⟩] else []) := by
    intro context
    obtain ⟨b, hb, -⟩ := row.spendable context
    refine ⟨b, hb, ?_⟩
    rw [hspend, forfeitExitSpendablePaths, hb]
    cases b with
    | true => rfl
    | false =>
      rw [if_neg Bool.false_ne_true, List.append_nil]
      rfl
  constructor
  case listed =>
    intro _ context
    obtain ⟨b, -, hb⟩ := hoffered context
    exact ⟨_, _, hall context, hb⟩
  case sublist =>
    intro context all offered ha ho
    obtain ⟨b, -, hb⟩ := hoffered context
    obtain rfl := Except.ok.inj ((hall context).symm.trans ha)
    obtain rfl := Except.ok.inj (hb.symm.trans ho)
    rw [forfeitExitAllPaths, List.append_assoc]
    apply List.Sublist.append (List.Sublist.refl _)
    cases b with
    | true => exact List.sublist_append_left _ _
    | false => exact List.nil_sublist _
  case selected =>
    intro context
    obtain ⟨b, hb, ho⟩ := hoffered context
    rw [hselect, ho, selectForfeitOrExitPath]
    cases context.collaborative with
    | true => rfl
    | false =>
      dsimp only
      rw [if_neg (by decide), if_neg (by decide), hb]
      cases b <;> rfl
  case known =>
    intro context all ha path hpath
    obtain rfl := Except.ok.inj ((hall context).symm.trans ha)
    rcases List.mem_append.mp hpath with hpath | hpath
    · rcases List.mem_append.mp hpath with hpath | hpath
      · split at hpath
        · obtain rfl := List.mem_singleton.mp hpath
          exact ⟨forfeit, row.forfeit_leaf, row.forfeit_mine⟩
        · cases hpath
      · obtain rfl := List.mem_singleton.mp hpath
        exact ⟨exit, row.exit_leaf, row.exit_mine⟩
    · exact hextra context path hpath
  case offered =>
    intro context offered ho path hpath
    obtain ⟨b, hb, hok⟩ := hoffered context
    obtain ⟨b', hb', htimely⟩ := row.spendable context
    obtain rfl := Except.ok.inj (hb.symm.trans hb')
    obtain rfl := Except.ok.inj (hok.symm.trans ho)
    rcases List.mem_append.mp hpath with hpath | hpath
    · split at hpath
      · obtain rfl := List.mem_singleton.mp hpath
        obtain ⟨htimelock, hlocktime⟩ := row.forfeit_open
        exact ⟨forfeit, row.forfeit_leaf, row.forfeit_mine, fun _ ↦ .of_unlocked htimelock hlocktime⟩
      · cases hpath
    · split at hpath
      · obtain rfl := List.mem_singleton.mp hpath
        exact ⟨exit, row.exit_leaf, row.exit_mine, htimely ‹_›⟩
      · cases hpath
  case stays =>
    intro context context' hlater offered ho path hpath
    obtain ⟨b, hb, hok⟩ := hoffered context
    obtain ⟨b', hb', hok'⟩ := hoffered context'
    obtain rfl := Except.ok.inj (hok.symm.trans ho)
    refine ⟨_, hok', ?_⟩
    rw [hlater.collaborative]
    rcases List.mem_append.mp hpath with hforfeit | hexit
    · exact List.mem_append_left _ hforfeit
    · split at hexit
      · -- the exit was open, so it still is
        rename_i hopen
        subst hopen
        obtain rfl := Except.ok.inj (hb'.symm.trans (isCsvSpendable_later hb hlater))
        exact List.mem_append_right _ hexit
      · cases hexit

end ForfeitExit

variable (expandKey : String → Except Message Bytes) {L : Libraries} {contract : Contract}

def KeyAt (contract : Contract) (name : String) (key : Bytes) : Prop :=
  extractPubKeyBytes expandKey (contract.params.lookup name) = .ok key

/-- The row's key signs, with or without the server's. -/
def DefaultMine (contract : Contract) (params : TapscriptParams) (path : PathSelection) : Prop :=
  ∃ own server, KeyAt expandKey contract "pubKey" own ∧
    KeyAt expandKey contract "serverPubKey" server ∧ OwnedBy own [server] params path

def DelegateMine (contract : Contract) (params : TapscriptParams) (path : PathSelection) : Prop :=
  ∃ own server delegate, KeyAt expandKey contract "pubKey" own ∧
    KeyAt expandKey contract "serverPubKey" server ∧
      KeyAt expandKey contract "delegatePubKey" delegate ∧
        OwnedBy own [server, delegate] params path

theorem deserializeCsvTimelock_sequence {value : Option String} {timelock : RelativeTimelock}
    (h : deserializeCsvTimelock L value = .ok timelock) :
    ∀ n ∈ (givenText value).map JsCoercion.stringToNumber,
      sequenceToTimelock L (sequenceBits n) = .ok timelock := by
  intro n hn
  unfold deserializeCsvTimelock at h
  cases hv : givenText value with
  | none => simp [hv] at hn
  | some text =>
    rw [hv] at h hn
    obtain rfl := Option.some.inj hn
    rw [← h]
    exact congrArg (sequenceToTimelock L) (toSequence_eq (some text)).symm

theorem multisig_leafOf {params : MultisigTapscript.Params}
    {t : ArkTapscript MultisigTapscript.Params} (h : MultisigTapscript.encode L params = .ok t) :
    LeafOf L (.multisig params) t.script := ⟨.multisig t, map_ok.mpr ⟨t, h, rfl⟩, rfl⟩

theorem csvMultisig_leafOf {params : CSVMultisigTapscript.Params}
    {t : ArkTapscript CSVMultisigTapscript.Params} (h : CSVMultisigTapscript.encode L params = .ok t) :
    LeafOf L (.csvMultisig params) t.script := ⟨.csvMultisig t, map_ok.mpr ⟨t, h, rfl⟩, rfl⟩

theorem forfeitExitRow {options : DefaultVtxo.Options} {script : DefaultVtxo.Script}
    (hnew : DefaultVtxo.Script.new L options = .ok script)
    (htimelock : deserializeCsvTimelock L (contract.params.lookup "csvTimelock") =
      .ok options.csvTimelock) (Mine : TapscriptParams → PathSelection → Prop)
    (hmine : ∀ {params path}, OwnedBy options.pubKey [options.serverPubKey] params path →
      Mine params path) :
    ∃ forfeit exit, ForfeitExitRow L contract (DefaultContractHandler.leaves script) Mine
      forfeit exit := by
  obtain ⟨forfeit, exit, hforfeit, hexit, rfl⟩ := DefaultVtxo.Script.new_ok hnew
  refine ⟨_, _, multisig_leafOf hforfeit, csvMultisig_leafOf hexit, hmine ?_, hmine ?_,
    ⟨rfl, rfl⟩, rfl, ?_⟩
  · exact ⟨List.mem_cons_self, by simp [TapscriptParams.signers, TapscriptParams.toMultisig],
      rfl, rfl⟩
  · exact ⟨List.mem_cons_self, by simp [TapscriptParams.signers, TapscriptParams.toMultisig],
      rfl, rfl⟩
  · intro n hn
    exact ⟨_, deserializeCsvTimelock_sequence htimelock n hn, rfl⟩

theorem DefaultContractHandler.paths {script : DefaultVtxo.Script}
    (h : (DefaultContractHandler expandKey L).createScript contract.params = .ok script) :
    PathsRight L (DefaultContractHandler expandKey L) script contract
      (fun _ ↦ DefaultMine expandKey contract) (exitSequence contract).isSome := by
  obtain ⟨options, htyped, hnew⟩ := bind_ok.mp h
  obtain ⟨own, hown, htyped⟩ := bind_ok.mp htyped
  obtain ⟨server, hserver, htyped⟩ := bind_ok.mp htyped
  obtain ⟨csvTimelock, hcsv, htyped⟩ := bind_ok.mp htyped
  obtain rfl := pure_ok.mp htyped
  obtain ⟨forfeit, exit, row⟩ := forfeitExitRow hnew hcsv (DefaultMine expandKey contract)
    fun howned ↦ ⟨own, server, hown, hserver, howned⟩
  refine row.right (fun _ ↦ []) (fun _ ↦ rfl) (fun context ↦ ?_) (fun _ ↦ rfl) (by simp)
  rw [List.append_nil]
  rfl

theorem BoardingContractHandler.paths {script : DefaultVtxo.Script}
    (h : (BoardingContractHandler expandKey L).createScript contract.params = .ok script) :
    PathsRight L (BoardingContractHandler expandKey L) script contract
      (fun _ ↦ DefaultMine expandKey contract) (exitSequence contract).isSome :=
  have right := DefaultContractHandler.paths expandKey h
  ⟨right.listed, right.sublist, right.selected, right.known, right.offered, right.stays⟩

theorem DelegateContractHandler.paths {script : DelegateVtxo.Script}
    (h : (DelegateContractHandler expandKey L).createScript contract.params = .ok script) :
    PathsRight L (DelegateContractHandler expandKey L) script contract
      (fun _ ↦ DelegateMine expandKey contract) (exitSequence contract).isSome := by
  obtain ⟨options, htyped, hnew⟩ := bind_ok.mp h
  obtain ⟨own, hown, htyped⟩ := bind_ok.mp htyped
  obtain ⟨server, hserver, htyped⟩ := bind_ok.mp htyped
  obtain ⟨delegate, hdelegate, htyped⟩ := bind_ok.mp htyped
  obtain ⟨csvTimelock, hcsv, htyped⟩ := bind_ok.mp htyped
  obtain rfl := pure_ok.mp htyped
  obtain ⟨defaultVtxo, hdefault, hnew⟩ := bind_ok.mp hnew
  obtain ⟨leaf, hleaf, hnew⟩ := bind_ok.mp hnew
  obtain rfl := pure_ok.mp hnew
  have hmine : ∀ {params path}, OwnedBy own [server, delegate] params path →
      DelegateMine expandKey contract params path :=
    fun howned ↦ ⟨own, server, delegate, hown, hserver, hdelegate, howned⟩
  obtain ⟨forfeit, exit, row⟩ := forfeitExitRow hdefault hcsv (DelegateMine expandKey contract)
    fun howned ↦ hmine ⟨howned.own_mem, fun key hkey ↦
      (howned.signers key hkey).imp_right (List.mem_append_left [delegate]),
      howned.condition, howned.bare⟩
  refine row.right _ (fun _ ↦ rfl) (fun context ↦ rfl) (fun _ ↦ rfl) fun context path hpath ↦ ?_
  split at hpath
  · obtain rfl := List.mem_singleton.mp hpath
    refine ⟨_, multisig_leafOf hleaf, hmine ⟨List.mem_cons_self, ?_, rfl, rfl⟩⟩
    intro key hkey
    simp only [TapscriptParams.signers, TapscriptParams.toMultisig, List.mem_cons,
      List.not_mem_nil, or_false] at hkey ⊢
    tauto
  · cases hpath

end ArkadeSdk.Paths
