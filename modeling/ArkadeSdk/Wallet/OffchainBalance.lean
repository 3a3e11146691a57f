import ArkadeSdk.Lib.Tally
import ArkadeSdk.Wallet.CanonicalVtxo

/-! The offchain balance: what is owned, by what can be done with it. -/

namespace ArkadeSdk.Balance

open JsNumber JsDate CanonicalVtxo

instance : Add Number := ⟨Number.add⟩

instance : Zero Number := ⟨.finite 0⟩

instance : AddCommMonoid Number where
  add_assoc a b c := by
    show Number.add (Number.add a b) c = Number.add a (Number.add b c)
    cases a <;> cases b <;> cases c <;> simp [Number.add, add_assoc]
  zero_add a := by
    show Number.add (.finite 0) a = a
    cases a <;> simp [Number.add]
  add_zero a := by
    show Number.add a (.finite 0) = a
    cases a <;> simp [Number.add]
  add_comm a b := by
    show Number.add a b = Number.add b a
    cases a <;> cases b <;> simp [Number.add, add_comm]
  nsmul := nsmulRec

/-- What the wallet adds to a coin is nothing but input to the capabilities. -/
structure NormalizedExtendedVirtualCoin (Extension : Type) extends NormalizedVirtualCoin where
  extension : Extension

structure BalanceCapabilities (Extension : Type) where
  now : TimeHeight
  isPendingRecovery : NormalizedExtendedVirtualCoin Extension → Bool
  isGenericallySpendable : NormalizedExtendedVirtualCoin Extension → Bool
  isUnlocked : NormalizedExtendedVirtualCoin Extension → Bool

/-- The variables of the loop. -/
structure Totals where
  settled : Number
  preconfirmed : Number
  available : Number
  gated : Number
  intentLocked : Number
  recoverable : Number
  pendingRecovery : Number
  owned : JsMap.Entries String ℤ
  spendable : JsMap.Entries String ℤ

structure OffchainBalance where
  settled : Number
  preconfirmed : Number
  available : Number
  gated : Number
  intentLocked : Number
  recoverable : Number
  pendingRecovery : Number
  total : Number
  assets : JsMap.Entries String ℤ
  availableAssets : JsMap.Entries String ℤ

def assetEntries (vtxo : NormalizedVirtualCoin) : List (String × ℤ) :=
  (vtxo.assets.getD []).map fun asset ↦ (asset.assetId, asset.amount)

def addAssets (into : JsMap.Entries String ℤ) (vtxo : NormalizedVirtualCoin) :
    JsMap.Entries String ℤ :=
  (assetEntries vtxo).foldl Tally.add into

section Balance

variable {Extension : Type} (parseDate : String → Date) (caps : BalanceCapabilities Extension)

def addVtxo (t : Totals) (vtxo : NormalizedExtendedVirtualCoin Extension) : Totals :=
  if hasTerminalSpend parseDate vtxo.toCoin then t
  else
    let t := { t with owned := addAssets t.owned vtxo.toNormalizedVirtualCoin }
    if caps.isPendingRecovery vtxo then
      { t with pendingRecovery := t.pendingRecovery + vtxo.value }
    else if canRecoverOnchain parseDate vtxo.toCoin caps.now then
      { t with recoverable := t.recoverable + vtxo.value }
    else if !canSpendOffchain parseDate vtxo.toCoin caps.now then t
    else
      let t :=
        if vtxo.isPreconfirmed then { t with preconfirmed := t.preconfirmed + vtxo.value }
        else { t with settled := t.settled + vtxo.value }
      if !caps.isGenericallySpendable vtxo then { t with gated := t.gated + vtxo.value }
      else if !caps.isUnlocked vtxo then { t with intentLocked := t.intentLocked + vtxo.value }
      else
        { t with
          available := t.available + vtxo.value
          spendable := addAssets t.spendable vtxo.toNormalizedVirtualCoin }

def computeTotals (vtxos : List (NormalizedExtendedVirtualCoin Extension)) : Totals :=
  vtxos.foldl (addVtxo parseDate caps) ⟨0, 0, 0, 0, 0, 0, 0, [], []⟩

def computeOffchainBalance (vtxos : List (NormalizedExtendedVirtualCoin Extension)) :
    OffchainBalance :=
  let t := computeTotals parseDate caps vtxos
  { settled := t.settled
    preconfirmed := t.preconfirmed
    available := t.available
    gated := t.gated
    intentLocked := t.intentLocked
    recoverable := t.recoverable
    pendingRecovery := t.pendingRecovery
    total := t.settled + t.preconfirmed + t.recoverable + t.pendingRecovery
    assets := t.owned
    availableAssets := t.spendable }

inductive Bucket
  | available
  | gated
  | intentLocked
  | recoverable
  | pendingRecovery
  deriving DecidableEq

/-- Where an output counts that has no terminal spend. -/
def bucketOf (vtxo : NormalizedExtendedVirtualCoin Extension) : Bucket :=
  if caps.isPendingRecovery vtxo then .pendingRecovery
  else if canRecoverOnchain parseDate vtxo.toCoin caps.now then .recoverable
  else if !caps.isGenericallySpendable vtxo then .gated
  else if !caps.isUnlocked vtxo then .intentLocked
  else .available

def OffchainBalance.figure (b : OffchainBalance) : Bucket → Number
  | .available => b.available
  | .gated => b.gated
  | .intentLocked => b.intentLocked
  | .recoverable => b.recoverable
  | .pendingRecovery => b.pendingRecovery

def owned (vtxos : List (NormalizedExtendedVirtualCoin Extension)) :
    List (NormalizedExtendedVirtualCoin Extension) :=
  vtxos.filter fun vtxo ↦ !hasTerminalSpend parseDate vtxo.toCoin

def inBucket (bucket : Bucket) (vtxos : List (NormalizedExtendedVirtualCoin Extension)) :
    List (NormalizedExtendedVirtualCoin Extension) :=
  (owned parseDate vtxos).filter fun vtxo ↦ bucketOf parseDate caps vtxo = bucket

/-- The preconfirmed or the settled among those that can be spent. -/
def ofKind (preconfirmed : Bool) (vtxos : List (NormalizedExtendedVirtualCoin Extension)) :
    List (NormalizedExtendedVirtualCoin Extension) :=
  (owned parseDate vtxos).filter fun vtxo ↦
    bucketOf parseDate caps vtxo ∈ [.available, .gated, .intentLocked] ∧
      vtxo.isPreconfirmed = preconfirmed

def totalValue (vtxos : List (NormalizedExtendedVirtualCoin Extension)) : Number :=
  (vtxos.map (·.value)).sum

def assetsOf (vtxos : List (NormalizedExtendedVirtualCoin Extension)) : List (String × ℤ) :=
  vtxos.flatMap fun vtxo ↦ assetEntries vtxo.toNormalizedVirtualCoin

def assetAmount (vtxos : List (NormalizedExtendedVirtualCoin Extension)) (assetId : String) : ℤ :=
  Tally.amountOf (assetsOf vtxos) assetId

def amountIn (assets : JsMap.Entries String ℤ) (assetId : String) : ℤ :=
  (JsMap.get assets assetId).getD 0

structure SameFigures (b b' : OffchainBalance) : Prop where
  settled : b.settled = b'.settled
  preconfirmed : b.preconfirmed = b'.preconfirmed
  total : b.total = b'.total
  figure : ∀ bucket, b.figure bucket = b'.figure bucket
  assets : ∀ assetId, JsMap.get b.assets assetId = JsMap.get b'.assets assetId
  availableAssets : ∀ assetId,
    JsMap.get b.availableAssets assetId = JsMap.get b'.availableAssets assetId

structure BalancePartition (vtxos : List (NormalizedExtendedVirtualCoin Extension))
    (b : OffchainBalance) : Prop where
  total : b.total = totalValue (owned parseDate vtxos)
  split : b.settled + b.preconfirmed = b.available + b.gated + b.intentLocked
  bucket : ∀ bucket, b.figure bucket = totalValue (inBucket parseDate caps bucket vtxos)
  availableAssets : ∀ assetId, amountIn b.availableAssets assetId =
    assetAmount (inBucket parseDate caps .available vtxos) assetId
  assets : ∀ assetId, amountIn b.availableAssets assetId ≤ amountIn b.assets assetId
  anyOrder : ∀ vtxos', vtxos'.Perm vtxos →
    SameFigures (computeOffchainBalance parseDate caps vtxos') b

end Balance

section Proofs

variable {Extension : Type} {parseDate : String → Date} {caps : BalanceCapabilities Extension}
  {vtxos vtxos' : List (NormalizedExtendedVirtualCoin Extension)}

/-- What is owned and cannot be recovered can be spent, so that one of the buckets takes it. -/
theorem addVtxo_eq (t : Totals) (vtxo : NormalizedExtendedVirtualCoin Extension)
    (hspend : hasTerminalSpend parseDate vtxo.toCoin = false) :
    addVtxo parseDate caps t vtxo =
      let t := { t with owned := addAssets t.owned vtxo.toNormalizedVirtualCoin }
      let spent :=
        if vtxo.isPreconfirmed then { t with preconfirmed := t.preconfirmed + vtxo.value }
        else { t with settled := t.settled + vtxo.value }
      match bucketOf parseDate caps vtxo with
      | .pendingRecovery => { t with pendingRecovery := t.pendingRecovery + vtxo.value }
      | .recoverable => { t with recoverable := t.recoverable + vtxo.value }
      | .gated => { spent with gated := spent.gated + vtxo.value }
      | .intentLocked => { spent with intentLocked := spent.intentLocked + vtxo.value }
      | .available =>
        { spent with
          available := spent.available + vtxo.value
          spendable := addAssets spent.spendable vtxo.toNormalizedVirtualCoin } := by
  have hexclusive : canRecoverOnchain parseDate vtxo.toCoin caps.now = false →
      canSpendOffchain parseDate vtxo.toCoin caps.now = true := by
    rw [canRecoverOnchain_eq, canSpendOffchain_eq, hspend]
    intro h
    simpa using h
  unfold addVtxo bucketOf
  rw [if_neg (by simp [hspend])]
  dsimp only
  cases hpending : caps.isPendingRecovery vtxo with
  | true => rfl
  | false =>
    cases hrecover : canRecoverOnchain parseDate vtxo.toCoin caps.now with
    | true => rfl
    | false =>
      rw [hexclusive hrecover]
      cases caps.isGenericallySpendable vtxo with
      | false => rfl
      | true => cases caps.isUnlocked vtxo <;> rfl

theorem addVtxo_spent (t : Totals) {vtxo : NormalizedExtendedVirtualCoin Extension}
    (hspend : hasTerminalSpend parseDate vtxo.toCoin = true) :
    addVtxo parseDate caps t vtxo = t :=
  if_pos hspend

def Totals.figure (t : Totals) : Bucket → Number
  | .available => t.available
  | .gated => t.gated
  | .intentLocked => t.intentLocked
  | .recoverable => t.recoverable
  | .pendingRecovery => t.pendingRecovery

/-- Preconfirmed or settled, among what counts in neither form of recovery. -/
def Totals.kind (t : Totals) (preconfirmed : Bool) : Number :=
  if preconfirmed then t.preconfirmed else t.settled

def Totals.total (t : Totals) : Number :=
  t.settled + t.preconfirmed + t.recoverable + t.pendingRecovery

theorem figure_addVtxo (bucket : Bucket) (t : Totals)
    (vtxo : NormalizedExtendedVirtualCoin Extension) :
    (addVtxo parseDate caps t vtxo).figure bucket = t.figure bucket +
      totalValue (inBucket parseDate caps bucket [vtxo]) := by
  cases hspend : hasTerminalSpend parseDate vtxo.toCoin with
  | true => simp [addVtxo_spent t hspend, inBucket, owned, hspend, totalValue]
  | false =>
    rw [addVtxo_eq t vtxo hspend]
    have hone : inBucket parseDate caps bucket [vtxo] =
        if bucketOf parseDate caps vtxo = bucket then [vtxo] else [] := by
      simp [inBucket, owned, hspend, List.filter_cons]
    rw [hone]
    cases bucketOf parseDate caps vtxo <;> cases bucket <;>
      cases vtxo.isPreconfirmed <;> simp [Totals.figure, totalValue]

theorem total_addVtxo (t : Totals) (vtxo : NormalizedExtendedVirtualCoin Extension) :
    (addVtxo parseDate caps t vtxo).total = t.total + totalValue (owned parseDate [vtxo]) := by
  cases hspend : hasTerminalSpend parseDate vtxo.toCoin with
  | true => simp [addVtxo_spent t hspend, owned, hspend, totalValue]
  | false =>
    rw [addVtxo_eq t vtxo hspend]
    have hone : owned parseDate [vtxo] = [vtxo] := by simp [owned, hspend]
    rw [hone]
    cases bucketOf parseDate caps vtxo <;> cases vtxo.isPreconfirmed <;>
      simp [Totals.total, totalValue, add_comm, add_left_comm]

theorem kind_addVtxo (preconfirmed : Bool) (t : Totals)
    (vtxo : NormalizedExtendedVirtualCoin Extension) :
    (addVtxo parseDate caps t vtxo).kind preconfirmed = t.kind preconfirmed +
      totalValue (ofKind parseDate caps preconfirmed [vtxo]) := by
  cases hspend : hasTerminalSpend parseDate vtxo.toCoin with
  | true => simp [addVtxo_spent t hspend, ofKind, owned, hspend, totalValue]
  | false =>
    rw [addVtxo_eq t vtxo hspend]
    have hone : ofKind parseDate caps preconfirmed [vtxo] =
        if bucketOf parseDate caps vtxo ∈ [.available, .gated, .intentLocked] ∧
          vtxo.isPreconfirmed = preconfirmed then [vtxo] else [] := by
      simp [ofKind, owned, hspend, List.filter_cons]
    rw [hone]
    cases bucketOf parseDate caps vtxo <;> cases vtxo.isPreconfirmed <;> cases preconfirmed <;>
      simp [Totals.kind, totalValue]

theorem split_addVtxo {t : Totals}
    (h : t.settled + t.preconfirmed = t.available + t.gated + t.intentLocked)
    (vtxo : NormalizedExtendedVirtualCoin Extension) :
    (addVtxo parseDate caps t vtxo).settled + (addVtxo parseDate caps t vtxo).preconfirmed =
      (addVtxo parseDate caps t vtxo).available + (addVtxo parseDate caps t vtxo).gated +
        (addVtxo parseDate caps t vtxo).intentLocked := by
  cases hspend : hasTerminalSpend parseDate vtxo.toCoin with
  | true => rwa [addVtxo_spent t hspend]
  | false =>
    rw [addVtxo_eq t vtxo hspend]
    cases bucketOf parseDate caps vtxo <;> cases vtxo.isPreconfirmed <;>
      simp only [Bool.false_eq_true, if_false, if_true]
    all_goals first
      | exact h
      | rw [add_right_comm t.settled, h]; abel
      | rw [← add_assoc, h]; abel

theorem owned_addVtxo (t : Totals) (vtxo : NormalizedExtendedVirtualCoin Extension) :
    (addVtxo parseDate caps t vtxo).owned =
      (assetsOf (owned parseDate [vtxo])).foldl Tally.add t.owned := by
  cases hspend : hasTerminalSpend parseDate vtxo.toCoin with
  | true => simp [addVtxo_spent t hspend, owned, hspend, assetsOf]
  | false =>
    rw [addVtxo_eq t vtxo hspend]
    have hone : owned parseDate [vtxo] = [vtxo] := by simp [owned, hspend]
    rw [hone]
    cases bucketOf parseDate caps vtxo <;> cases vtxo.isPreconfirmed <;>
      simp [assetsOf, addAssets]

theorem spendable_addVtxo (t : Totals) (vtxo : NormalizedExtendedVirtualCoin Extension) :
    (addVtxo parseDate caps t vtxo).spendable =
      (assetsOf (inBucket parseDate caps .available [vtxo])).foldl Tally.add t.spendable := by
  cases hspend : hasTerminalSpend parseDate vtxo.toCoin with
  | true => simp [addVtxo_spent t hspend, inBucket, owned, hspend, assetsOf]
  | false =>
    rw [addVtxo_eq t vtxo hspend]
    have hone : inBucket parseDate caps .available [vtxo] =
        if bucketOf parseDate caps vtxo = .available then [vtxo] else [] := by
      simp [inBucket, owned, hspend, List.filter_cons]
    rw [hone]
    cases bucketOf parseDate caps vtxo <;> cases vtxo.isPreconfirmed <;>
      simp [assetsOf, addAssets]

theorem foldl_number (f : Totals → Number)
    (part : List (NormalizedExtendedVirtualCoin Extension) →
      List (NormalizedExtendedVirtualCoin Extension))
    (hpart : ∀ vtxo vtxos, part (vtxo :: vtxos) = part [vtxo] ++ part vtxos) (hnil : part [] = [])
    (hstep : ∀ t vtxo, f (addVtxo parseDate caps t vtxo) = f t + totalValue (part [vtxo]))
    (t : Totals) :
    f (vtxos.foldl (addVtxo parseDate caps) t) = f t + totalValue (part vtxos) := by
  induction vtxos generalizing t with
  | nil => simp [hnil, totalValue]
  | cons vtxo vtxos ih =>
    rw [List.foldl_cons, ih, hstep, hpart vtxo vtxos, add_assoc]
    simp [totalValue]

theorem foldl_assets (f : Totals → JsMap.Entries String ℤ)
    (part : List (NormalizedExtendedVirtualCoin Extension) →
      List (NormalizedExtendedVirtualCoin Extension))
    (hpart : ∀ vtxo vtxos, part (vtxo :: vtxos) = part [vtxo] ++ part vtxos) (hnil : part [] = [])
    (hstep : ∀ t vtxo, f (addVtxo parseDate caps t vtxo) =
      (assetsOf (part [vtxo])).foldl Tally.add (f t)) (t : Totals) :
    f (vtxos.foldl (addVtxo parseDate caps) t) =
      (assetsOf (part vtxos)).foldl Tally.add (f t) := by
  induction vtxos generalizing t with
  | nil => simp [hnil, assetsOf]
  | cons vtxo vtxos ih =>
    rw [List.foldl_cons, ih, hstep, hpart vtxo vtxos]
    simp [assetsOf]

theorem owned_cons (vtxo : NormalizedExtendedVirtualCoin Extension)
    (vtxos : List (NormalizedExtendedVirtualCoin Extension)) :
    owned parseDate (vtxo :: vtxos) = owned parseDate [vtxo] ++ owned parseDate vtxos := by
  rw [owned, owned, owned, ← List.filter_append, List.singleton_append]

theorem inBucket_cons (bucket : Bucket) (vtxo : NormalizedExtendedVirtualCoin Extension)
    (vtxos : List (NormalizedExtendedVirtualCoin Extension)) :
    inBucket parseDate caps bucket (vtxo :: vtxos) =
      inBucket parseDate caps bucket [vtxo] ++ inBucket parseDate caps bucket vtxos := by
  rw [inBucket, inBucket, inBucket, owned_cons, List.filter_append]

theorem ofKind_cons (preconfirmed : Bool) (vtxo : NormalizedExtendedVirtualCoin Extension)
    (vtxos : List (NormalizedExtendedVirtualCoin Extension)) :
    ofKind parseDate caps preconfirmed (vtxo :: vtxos) =
      ofKind parseDate caps preconfirmed [vtxo] ++ ofKind parseDate caps preconfirmed vtxos := by
  rw [ofKind, ofKind, ofKind, owned_cons, List.filter_append]

theorem figure_computeTotals (bucket : Bucket) :
    (computeTotals parseDate caps vtxos).figure bucket =
      totalValue (inBucket parseDate caps bucket vtxos) := by
  refine (foldl_number (·.figure bucket) (inBucket parseDate caps bucket) (inBucket_cons bucket)
    rfl (figure_addVtxo bucket) _).trans ?_
  cases bucket <;> exact zero_add _

theorem kind_computeTotals (preconfirmed : Bool) :
    (computeTotals parseDate caps vtxos).kind preconfirmed =
      totalValue (ofKind parseDate caps preconfirmed vtxos) := by
  refine (foldl_number (·.kind preconfirmed) (ofKind parseDate caps preconfirmed)
    (ofKind_cons preconfirmed) rfl (kind_addVtxo preconfirmed) _).trans ?_
  cases preconfirmed <;> exact zero_add _

theorem total_computeTotals :
    (computeTotals parseDate caps vtxos).total = totalValue (owned parseDate vtxos) := by
  refine (foldl_number (·.total) (owned parseDate) owned_cons rfl total_addVtxo _).trans ?_
  rw [show Totals.total ⟨0, 0, 0, 0, 0, 0, 0, [], []⟩ = 0 from by simp [Totals.total], zero_add]

theorem owned_computeTotals : (computeTotals parseDate caps vtxos).owned =
    (assetsOf (owned parseDate vtxos)).foldl Tally.add [] :=
  foldl_assets (·.owned) (owned parseDate) owned_cons rfl owned_addVtxo _

theorem spendable_computeTotals : (computeTotals parseDate caps vtxos).spendable =
    (assetsOf (inBucket parseDate caps .available vtxos)).foldl Tally.add [] :=
  foldl_assets (·.spendable) (inBucket parseDate caps .available) (inBucket_cons .available) rfl
    spendable_addVtxo _

theorem split_computeTotals :
    (computeTotals parseDate caps vtxos).settled +
        (computeTotals parseDate caps vtxos).preconfirmed =
      (computeTotals parseDate caps vtxos).available + (computeTotals parseDate caps vtxos).gated +
        (computeTotals parseDate caps vtxos).intentLocked := by
  unfold computeTotals
  induction vtxos using List.reverseRecOn with
  | nil => simp
  | append_singleton vtxos vtxo ih =>
    rw [List.foldl_append]
    exact split_addVtxo ih vtxo

theorem totalValue_perm (h : vtxos.Perm vtxos') : totalValue vtxos = totalValue vtxos' :=
  (h.map _).sum_eq

theorem owned_perm (h : vtxos.Perm vtxos') :
    (owned parseDate vtxos).Perm (owned parseDate vtxos') :=
  h.filter _

theorem inBucket_perm (bucket : Bucket) (h : vtxos.Perm vtxos') :
    (inBucket parseDate caps bucket vtxos).Perm (inBucket parseDate caps bucket vtxos') :=
  (owned_perm h).filter _

theorem ofKind_perm (preconfirmed : Bool) (h : vtxos.Perm vtxos') :
    (ofKind parseDate caps preconfirmed vtxos).Perm (ofKind parseDate caps preconfirmed vtxos') :=
  (owned_perm h).filter _

theorem get_tally (l : List (String × ℤ)) (assetId : String) :
    JsMap.get (l.foldl Tally.add []) assetId =
      if assetId ∈ l.map Prod.fst then some (Tally.amountOf l assetId) else none := by
  have hamount := Tally.get_foldl_add l [] assetId
  have hkeys := Tally.mem_keys_foldl_add l [] assetId
  simp only [List.map_nil, List.not_mem_nil, false_or] at hkeys
  cases hget : JsMap.get (l.foldl Tally.add []) assetId with
  | none =>
    rw [if_neg fun hmem ↦ ?_]
    obtain ⟨amount, hentry⟩ := Tally.exists_of_mem_keys (hkeys.mpr hmem)
    have hsome := JsMap.get_of_mem (Tally.nodup_foldl_add (m := []) l List.nodup_nil) hentry
    cases hget.symm.trans hsome
  | some amount =>
    have hmem := hkeys.mp (List.mem_map.mpr ⟨_, JsMap.mem_of_get hget, rfl⟩)
    rw [hget] at hamount
    rw [if_pos hmem]
    simpa using hamount

theorem get_tally_perm {l l' : List (String × ℤ)} (h : l.Perm l') (assetId : String) :
    JsMap.get (l.foldl Tally.add []) assetId = JsMap.get (l'.foldl Tally.add []) assetId := by
  have hamount : Tally.amountOf l assetId = Tally.amountOf l' assetId :=
    ((h.filter _).map _).sum_eq
  rw [get_tally, get_tally, hamount]
  simp only [(h.map Prod.fst).mem_iff]

theorem assetsOf_perm (h : vtxos.Perm vtxos') : (assetsOf vtxos).Perm (assetsOf vtxos') :=
  h.flatMap_right _

theorem sameFigures_of_perm (h : vtxos.Perm vtxos') :
    SameFigures (computeOffchainBalance parseDate caps vtxos)
      (computeOffchainBalance parseDate caps vtxos') where
  settled := by
    have hkind : totalValue (ofKind parseDate caps false vtxos) =
        totalValue (ofKind parseDate caps false vtxos') := totalValue_perm (ofKind_perm false h)
    rwa [← kind_computeTotals, ← kind_computeTotals] at hkind
  preconfirmed := by
    have hkind : totalValue (ofKind parseDate caps true vtxos) =
        totalValue (ofKind parseDate caps true vtxos') := totalValue_perm (ofKind_perm true h)
    rwa [← kind_computeTotals, ← kind_computeTotals] at hkind
  total := total_computeTotals.trans
    ((totalValue_perm (owned_perm h)).trans total_computeTotals.symm)
  figure bucket := by
    have hfigure : totalValue (inBucket parseDate caps bucket vtxos) =
        totalValue (inBucket parseDate caps bucket vtxos') :=
      totalValue_perm (inBucket_perm bucket h)
    rw [← figure_computeTotals, ← figure_computeTotals] at hfigure
    cases bucket <;> exact hfigure
  assets assetId := by
    show JsMap.get (computeTotals parseDate caps vtxos).owned assetId =
      JsMap.get (computeTotals parseDate caps vtxos').owned assetId
    rw [owned_computeTotals, owned_computeTotals]
    exact get_tally_perm (assetsOf_perm (owned_perm h)) assetId
  availableAssets assetId := by
    show JsMap.get (computeTotals parseDate caps vtxos).spendable assetId =
      JsMap.get (computeTotals parseDate caps vtxos').spendable assetId
    rw [spendable_computeTotals, spendable_computeTotals]
    exact get_tally_perm (assetsOf_perm (inBucket_perm .available h)) assetId

theorem amountIn_tally (l : List (String × ℤ)) (assetId : String) :
    amountIn (l.foldl Tally.add []) assetId = Tally.amountOf l assetId := by
  rw [amountIn, Tally.get_foldl_add]
  simp

theorem assetAmount_filter_le {l : List (NormalizedExtendedVirtualCoin Extension)}
    (h : ∀ vtxo ∈ l, ∀ asset ∈ vtxo.assets.getD [], 0 ≤ asset.amount)
    (p : NormalizedExtendedVirtualCoin Extension → Bool) (assetId : String) :
    assetAmount (l.filter p) assetId ≤ assetAmount l assetId := by
  induction l with
  | nil => exact le_rfl
  | cons vtxo l ih =>
    obtain ⟨hvtxo, hl⟩ := List.forall_mem_cons.mp h
    have hrest := ih hl
    have hcons (l : List (NormalizedExtendedVirtualCoin Extension)) :
        assetAmount (vtxo :: l) assetId =
          Tally.amountOf (assetEntries vtxo.toNormalizedVirtualCoin) assetId +
            assetAmount l assetId :=
      Tally.amountOf_append _ _ _
    have hnonneg : 0 ≤ Tally.amountOf (assetEntries vtxo.toNormalizedVirtualCoin) assetId := by
      refine Tally.amountOf_nonneg (fun e he ↦ ?_) assetId
      obtain ⟨asset, hasset, rfl⟩ := List.mem_map.mp he
      exact hvtxo asset hasset
    rw [List.filter_cons]
    split
    · rw [hcons, hcons]
      omega
    · rw [hcons]
      omega

theorem computeOffchainBalance_partition
    (hassets : ∀ vtxo ∈ vtxos, ∀ asset ∈ vtxo.assets.getD [], 0 ≤ asset.amount) :
    BalancePartition parseDate caps vtxos (computeOffchainBalance parseDate caps vtxos) where
  total := total_computeTotals
  split := split_computeTotals
  bucket bucket := by
    rw [← figure_computeTotals]
    cases bucket <;> rfl
  availableAssets assetId := by
    show amountIn (computeTotals parseDate caps vtxos).spendable assetId = _
    rw [spendable_computeTotals, amountIn_tally]
    rfl
  assets assetId := by
    show amountIn (computeTotals parseDate caps vtxos).spendable assetId ≤
      amountIn (computeTotals parseDate caps vtxos).owned assetId
    rw [spendable_computeTotals, owned_computeTotals, amountIn_tally, amountIn_tally]
    exact assetAmount_filter_le (fun vtxo hvtxo ↦ hassets vtxo (List.mem_filter.mp hvtxo).1) _
      assetId
  anyOrder _ h := sameFigures_of_perm h

def assetCoin : NormalizedExtendedVirtualCoin Unit where
  txid := "a1"
  vout := 0
  value := .ofNat 1000
  confirmed := true
  isLeaf := true
  createdAt := .invalid
  script := "5120"
  isUnrolled := false
  settledBy := none
  arkTxId := none
  assets := some [⟨"gold", 5⟩]
  expiresAt := none
  expiresAtHeight := none
  isSpent := false
  isSwept := false
  isPreconfirmed := true
  spentBy := ""
  commitmentTxIds := ["c0"]
  virtualStatus := ⟨.preconfirmed, some ["c0"], none⟩
  extension := ()

def openCapabilities : BalanceCapabilities Unit where
  now := ⟨.invalid, none⟩
  isPendingRecovery _ := false
  isGenericallySpendable _ := true
  isUnlocked _ := true

theorem assetCoin_partition :
    BalancePartition (fun _ ↦ Date.invalid) openCapabilities [assetCoin]
      (computeOffchainBalance (fun _ ↦ Date.invalid) openCapabilities [assetCoin]) :=
  computeOffchainBalance_partition (by decide)

end Proofs

end ArkadeSdk.Balance
