import ArkadeSdk.Contracts.PathSelection
import ArkadeSdk.Script.TapscriptUnique

/-! When a leaf may be spent, that it stays so as the chain grows, and what a handler owes the
wallet. -/

namespace ArkadeSdk

open WireFormat JsNumber

namespace TapscriptParams

def timelock : TapscriptParams → Option RelativeTimelock
  | .csvMultisig params => some params.timelock
  | .conditionCSVMultisig params => some params.timelock
  | _ => none

def locktime : TapscriptParams → Option ℤ
  | .cltvMultisig params => some params.absoluteTimelock
  | _ => none

def condition : TapscriptParams → Option Bytes
  | .conditionCSVMultisig params => some params.conditionScript
  | .conditionMultisig params => some params.conditionScript
  | _ => none

def signers (params : TapscriptParams) : List Bytes := params.toMultisig.pubkeys

end TapscriptParams

namespace Paths

open Contracts (Contract)

def CltvMatured (context : PathContext) (locktime : ℤ) : Prop :=
  if locktime < CLTV_HEIGHT_THRESHOLD then ∃ height ∈ context.blockHeight, locktime ≤ height
  else locktime ≤ nowSeconds context

def CsvMatured (context : PathContext) (timelock : RelativeTimelock) : Prop :=
  ∃ vtxo ∈ context.vtxo, match timelock.type with
    | .blocks => ∃ height ∈ context.blockHeight, ∃ confirmed ∈ vtxo.blockHeight,
        timelock.value ≤ height - confirmed
    | .seconds => ∃ blockTime ∈ vtxo.blockTime, timelock.value ≤ nowSeconds context - blockTime

/-- The same coin and keys, when the chain has grown. -/
structure Later (context context' : PathContext) : Prop where
  collaborative : context'.collaborative = context.collaborative
  walletDescriptor : context'.walletDescriptor = context.walletDescriptor
  walletPubKey : context'.walletPubKey = context.walletPubKey
  role : context'.role = context.role
  vtxo : context'.vtxo = context.vtxo
  height : ∀ height ∈ context.blockHeight, ∃ height' ∈ context'.blockHeight, height ≤ height'
  time : match context.chainTime with
    | some time => ∃ time' ∈ context'.chainTime, time ≤ time'
    | none => context'.chainTime = none ∧ context.currentTime ≤ context'.currentTime

variable {L : Libraries} {context context' : PathContext}

theorem Later.nowSeconds_le (h : Later context context') : nowSeconds context ≤ nowSeconds context' := by
  have htime := h.time
  unfold nowSeconds
  cases hc : context.chainTime with
  | some time =>
    rw [hc] at htime
    obtain ⟨time', hmem, hle⟩ := htime
    rw [Option.mem_def.mp hmem]
    exact Int.floor_le_floor hle
  | none =>
    rw [hc] at htime
    obtain ⟨hnone, hle⟩ := htime
    rw [hnone]
    apply Int.floor_le_floor
    simp only [Option.getD_none]
    linarith

theorem CltvMatured.later {locktime : ℤ} (hm : CltvMatured context locktime)
    (h : Later context context') : CltvMatured context' locktime := by
  unfold CltvMatured at hm ⊢
  split
  · rename_i hlt
    rw [if_pos hlt] at hm
    obtain ⟨height, hmem, hle⟩ := hm
    obtain ⟨height', hmem', hle'⟩ := h.height height hmem
    exact ⟨height', hmem', hle.trans hle'⟩
  · rename_i hlt
    rw [if_neg hlt] at hm
    exact hm.trans h.nowSeconds_le

theorem CsvMatured.later {timelock : RelativeTimelock} (hm : CsvMatured context timelock)
    (h : Later context context') : CsvMatured context' timelock := by
  obtain ⟨vtxo, hvtxo, hm⟩ := hm
  refine ⟨vtxo, h.vtxo ▸ hvtxo, ?_⟩
  obtain ⟨value, type⟩ := timelock
  cases type with
  | blocks =>
    obtain ⟨height, hmem, confirmed, hconfirmed, hle⟩ := hm
    obtain ⟨height', hmem', hle'⟩ := h.height height hmem
    refine ⟨height', hmem', confirmed, hconfirmed, ?_⟩
    dsimp only at hle ⊢
    omega
  | seconds =>
    obtain ⟨blockTime, hmem, hle⟩ := hm
    have hnow := h.nowSeconds_le
    refine ⟨blockTime, hmem, ?_⟩
    dsimp only at hle ⊢
    omega

theorem isCltvSatisfied_iff {locktime : ℤ} :
    isCltvSatisfied context locktime = true ↔ CltvMatured context locktime := by
  unfold isCltvSatisfied cltvMaturity CltvMatured
  by_cases hlt : locktime < CLTV_HEIGHT_THRESHOLD
  · cases hb : context.blockHeight with
    | none => simp [hlt]
    | some height => by_cases hle : locktime ≤ height <;> simp [hlt, hle]
  · by_cases hle : locktime ≤ nowSeconds context <;> simp [hlt, hle]

theorem isCltvSatisfied_later {locktime : ℤ} (hs : isCltvSatisfied context locktime = true)
    (h : Later context context') : isCltvSatisfied context' locktime = true :=
  isCltvSatisfied_iff.mpr ((isCltvSatisfied_iff.mp hs).later h)

theorem isCsvSpendable_eq (context : PathContext) {n : Number} {timelock : RelativeTimelock}
    (ht : sequenceToTimelock L (sequenceBits n) = .ok timelock) :
    ∃ b, isCsvSpendable L context (some n) = .ok b ∧ (b = true ↔ CsvMatured context timelock) := by
  obtain ⟨value, type⟩ := timelock
  unfold isCsvSpendable CsvMatured
  cases hv : context.vtxo with
  | none => exact ⟨false, rfl, by simp⟩
  | some vtxo =>
    simp only [ht]
    cases type with
    | blocks =>
      cases hb : context.blockHeight with
      | none => exact ⟨false, rfl, by simp⟩
      | some height =>
        cases hc : vtxo.blockHeight with
        | none => exact ⟨false, rfl, by simp [hc]⟩
        | some confirmed => exact ⟨_, rfl, by simp [hc]⟩
    | seconds =>
      cases hb : vtxo.blockTime with
      | none => exact ⟨false, rfl, by simp [hb]⟩
      | some blockTime => exact ⟨_, rfl, by simp [hb]⟩

theorem toSequence_eq (text : Option String) :
    VHTLC.toSequence text = sequenceBits (numberParam text) := by
  cases text with
  | none => rfl
  | some text =>
    simp only [VHTLC.toSequence, numberParam, Option.map_some, Option.getD_some]
    cases JsCoercion.stringToNumber text <;> rfl

theorem isCsvSpendable_later {sequence : Option Number}
    (hs : isCsvSpendable L context sequence = .ok true) (h : Later context context') :
    isCsvSpendable L context' sequence = .ok true := by
  cases sequence with
  | none => rfl
  | some n =>
    cases ht : sequenceToTimelock L (sequenceBits n) with
    | ok timelock =>
      obtain ⟨b, hb, hmatured⟩ := isCsvSpendable_eq context ht
      obtain ⟨b', hb', hmatured'⟩ := isCsvSpendable_eq context' ht
      obtain rfl := Except.ok.inj (hb.symm.trans hs)
      rw [hb', hmatured'.mpr ((hmatured.mp rfl).later h)]
    | error e =>
      -- an unreadable number passes for nobody
      unfold isCsvSpendable at hs
      cases hv : context.vtxo with
      | none => simp [hv] at hs
      | some vtxo =>
        simp only [hv, ht] at hs
        cases hs

theorem resolveRole_later (expandKey : String → Except Message Bytes) (contract : Contract)
    (h : Later context context') :
    resolveRole expandKey contract context' = resolveRole expandKey contract context := by
  simp only [resolveRole, explicitRole, h.role, h.walletDescriptor, h.walletPubKey]

/-- The leaf has the script of the closure with these parameters. -/
def LeafOf (L : Libraries) (params : TapscriptParams) (leaf : Bytes) : Prop :=
  ∃ t, Tapscript.encode L params = .ok t ∧ t.script = leaf

/-- The locks of the leaf have matured, and the input's sequence is that of its delay. -/
structure Timely (L : Libraries) (context : PathContext) (params : TapscriptParams)
    (path : PathSelection) : Prop where
  csv : ∀ timelock ∈ params.timelock, CsvMatured context timelock ∧
    ∃ n ∈ path.sequence, sequenceToTimelock L (sequenceBits n) = .ok timelock
  cltv : ∀ locktime ∈ params.locktime, CltvMatured context locktime

theorem Timely.of_unlocked {params : TapscriptParams} {path : PathSelection}
    (ht : params.timelock = none) (hl : params.locktime = none) : Timely L context params path :=
  ⟨by simp [ht], by simp [hl]⟩

/-- The preimage of the row, when there is one, is a hexadecimal text. -/
def PreimageReadable (contract : Contract) : Prop :=
  ∀ text ∈ givenText (contract.params.lookup "preimage"), (HexCodec.base16.decode text).isSome

/-- The row's paths, where `Mine` says which leaves the wallet can sign, and `recorded` that the
row names the delay of its exit. -/
structure PathsRight (L : Libraries) {Script : Type} (handler : PathHandler Script)
    (script : Script) (contract : Contract)
    (Mine : PathContext → TapscriptParams → PathSelection → Prop) (recorded : Prop) : Prop where
  listed : PreimageReadable contract → ∀ context, ∃ all offered,
    handler.getAllSpendingPaths script contract context = .ok all ∧
      handler.getSpendablePaths script contract context = .ok offered
  sublist : ∀ context all offered, handler.getAllSpendingPaths script contract context = .ok all →
    handler.getSpendablePaths script contract context = .ok offered → offered.Sublist all
  selected : ∀ context, handler.selectPath script contract context =
    List.head? <$> handler.getSpendablePaths script contract context
  known : ∀ context all, handler.getAllSpendingPaths script contract context = .ok all →
    ∀ path ∈ all, ∃ params, LeafOf L params path.leaf ∧ Mine context params path
  offered : ∀ context offered, handler.getSpendablePaths script contract context = .ok offered →
    ∀ path ∈ offered, ∃ params, LeafOf L params path.leaf ∧ Mine context params path ∧
      (recorded → Timely L context params path)
  stays : ∀ context context', Later context context' → ∀ offered,
    handler.getSpendablePaths script contract context = .ok offered → ∀ path ∈ offered,
      ∃ offered', handler.getSpendablePaths script contract context' = .ok offered' ∧
        path ∈ offered'

end Paths

end ArkadeSdk
