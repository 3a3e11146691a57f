import ArkadeSdk.Lib.JsCoercion
import ArkadeSdk.Lib.JsDate

/-! Virtual outputs as the wire tells them, their facts, and the legacy status that sums these
up. -/

namespace ArkadeSdk.CanonicalVtxo

open WireFormat JsNumber JsCoercion JsDate

inductive VirtualState
  | preconfirmed
  | settled
  | swept
  | spent
  deriving DecidableEq

structure VirtualStatus where
  state : VirtualState
  commitmentTxIds : Option (List String)
  batchExpiry : Option Number

structure Asset where
  assetId : String
  amount : ℤ

/-- What no conversion touches. -/
structure CoinData where
  txid : String
  vout : ℕ
  value : Number
  confirmed : Bool
  isLeaf : Bool
  createdAt : Date
  script : String
  isUnrolled : Bool
  settledBy : Option String
  arkTxId : Option String
  assets : Option (List Asset)

/-- A date, or the text that a backend made of one. -/
inductive StoredDate
  | date (d : Date)
  | iso (text : String)

structure VirtualCoin extends CoinData where
  isSpent : Option Bool
  isSwept : Option Bool
  isPreconfirmed : Option Bool
  spentBy : Option String
  commitmentTxIds : Option (List String)
  expiresAt : Option StoredDate
  expiresAtHeight : Option Number
  virtualStatus : Option VirtualStatus

structure Expiry where
  expiresAt : Option Date
  expiresAtHeight : Option Number

structure NormalizedVirtualCoin extends CoinData, Expiry where
  isSpent : Bool
  isSwept : Bool
  isPreconfirmed : Bool
  spentBy : String
  commitmentTxIds : List String
  virtualStatus : VirtualStatus

def NormalizedVirtualCoin.toCoin (c : NormalizedVirtualCoin) : VirtualCoin where
  toCoinData := c.toCoinData
  isSpent := some c.isSpent
  isSwept := some c.isSwept
  isPreconfirmed := some c.isPreconfirmed
  spentBy := some c.spentBy
  commitmentTxIds := some c.commitmentTxIds
  expiresAt := c.expiresAt.map .date
  expiresAtHeight := c.expiresAtHeight
  virtualStatus := some c.virtualStatus

/-- The first of January 2025. -/
def EXPIRY_MIN_PLAUSIBLE_MS : ℤ := 1735689600000

/-- `n * k`, for a positive `k`. -/
def scale (k : ℚ) : Number → Number
  | .finite q => ofRat (q * k)
  | n => n

def parseWireExpiry (raw : Option String) : Expiry :=
  match raw with
  | none => ⟨none, none⟩
  | some raw =>
    if raw = "" then ⟨none, none⟩
    else
      let n := stringToNumber raw
      if !n.isFinite || n.le (.ofNat 0) then ⟨none, none⟩
      else
        let ms := scale 1000 n
        if (Number.ofInt EXPIRY_MIN_PLAUSIBLE_MS).le ms then ⟨some (.ofNumber ms), none⟩
        else ⟨none, some n⟩

def toBatchExpiry (c : Expiry) : Option Number :=
  match c.expiresAt with
  | some d => some d.getTime
  | none => c.expiresAtHeight.map (scale 1000)

def parseLegacyExpiry (batchExpiry : Option Number) : Expiry :=
  match batchExpiry with
  | none => ⟨none, none⟩
  | some batchExpiry =>
    if batchExpiry.le (.ofNat 0) then ⟨none, none⟩
    else if (Number.ofInt EXPIRY_MIN_PLAUSIBLE_MS).le batchExpiry then
      ⟨some (.ofNumber batchExpiry), none⟩
    else ⟨none, some (scale (1 / 1000) batchExpiry)⟩

def toVirtualStatus (isSpent isSwept isPreconfirmed : Bool) (commitmentTxIds : List String)
    (expiry : Expiry) : VirtualStatus where
  state :=
    if isSpent then .spent
    else if isSwept then .swept
    else if isPreconfirmed then .preconfirmed
    else .settled
  commitmentTxIds := some commitmentTxIds
  batchExpiry := toBatchExpiry expiry

section Normalize

variable (parseDate : String → Date)

/-- `new Date(v.expiresAt)` -/
def coerceDate : StoredDate → Date
  | .date d => d
  | .iso text => parseDate text

def normalizeVtxo (v : VirtualCoin) : NormalizedVirtualCoin :=
  let state := v.virtualStatus.map (·.state)
  let canonicalExpiry := v.expiresAt.isSome || v.expiresAtHeight.isSome
  let expiry : Expiry :=
    if canonicalExpiry then ⟨v.expiresAt.map (coerceDate parseDate), v.expiresAtHeight⟩
    else parseLegacyExpiry (v.virtualStatus.bind (·.batchExpiry))
  let isSpent := v.isSpent.getD (state = some .spent)
  let isSwept := v.isSwept.getD (state = some .swept)
  let isPreconfirmed := v.isPreconfirmed.getD (state = some .preconfirmed)
  let commitmentTxIds :=
    (v.commitmentTxIds.or (v.virtualStatus.bind (·.commitmentTxIds))).getD []
  { toCoinData := v.toCoinData
    isSpent := isSpent
    isSwept := isSwept
    isPreconfirmed := isPreconfirmed
    spentBy := v.spentBy.getD ""
    commitmentTxIds := commitmentTxIds
    toExpiry := expiry
    virtualStatus := v.virtualStatus.getD
      (toVirtualStatus isSpent isSwept isPreconfirmed commitmentTxIds expiry) }

end Normalize

structure WireAsset where
  assetId : String
  amount : String

/-- A virtual output as the indexer sends it. -/
structure Vtxo where
  txid : String
  vout : ℕ
  createdAt : String
  expiresAt : Option String
  amount : String
  script : String
  isPreconfirmed : Bool
  isSwept : Bool
  isUnrolled : Bool
  isSpent : Bool
  spentBy : Option String
  commitmentTxids : List String
  settledBy : Option String
  arkTxid : Option String
  assets : Option (List WireAsset)

/-- An amount that is no integer throws. -/
def convertAsset (a : WireAsset) : Except Message Asset :=
  (fun amount ↦ ⟨a.assetId, amount⟩) <$> textToBigInt a.amount

def convertVtxo (vtxo : Vtxo) : Except Message NormalizedVirtualCoin := do
  let expiry := parseWireExpiry vtxo.expiresAt
  let assets ← vtxo.assets.mapM (·.mapM convertAsset)
  return {
    txid := vtxo.txid
    vout := vtxo.vout
    value := stringToNumber vtxo.amount
    confirmed := !vtxo.isSwept && !vtxo.isPreconfirmed
    isLeaf := !vtxo.isPreconfirmed
    isSpent := vtxo.isSpent
    isSwept := vtxo.isSwept
    isPreconfirmed := vtxo.isPreconfirmed
    commitmentTxIds := vtxo.commitmentTxids
    toExpiry := expiry
    virtualStatus := toVirtualStatus vtxo.isSpent vtxo.isSwept vtxo.isPreconfirmed
      vtxo.commitmentTxids expiry
    spentBy := vtxo.spentBy.getD ""
    settledBy := vtxo.settledBy
    arkTxId := vtxo.arkTxid
    createdAt := .ofNumber (scale 1000 (stringToNumber vtxo.createdAt))
    isUnrolled := vtxo.isUnrolled
    script := vtxo.script
    assets := assets }

/-- The height is left out where no chain tip is at hand. -/
structure TimeHeight where
  timestamp : Date
  height : Option Number

def truthy (text : Option String) : Bool := text.getD "" ≠ ""

def Expiry.isPast (n : Expiry) (now : TimeHeight) : Bool :=
  (n.expiresAt.any fun expiresAt ↦ expiresAt.getTime.le now.timestamp.getTime) ||
    n.expiresAtHeight.any fun expiresAtHeight ↦
      now.height.any fun height ↦ expiresAtHeight.le height

section Capabilities

variable (parseDate : String → Date) (vtxo : VirtualCoin) (now : TimeHeight)

def hasTerminalSpend : Bool :=
  let n := normalizeVtxo parseDate vtxo
  n.isSpent || truthy (some n.spentBy) || truthy n.settledBy

def isPastExpiry : Bool := (normalizeVtxo parseDate vtxo).toExpiry.isPast now

def canSpendOffchain : Bool :=
  let n := normalizeVtxo parseDate vtxo
  !hasTerminalSpend parseDate n.toCoin && !(n.isSwept || isPastExpiry parseDate n.toCoin now)

def canRecoverOnchain : Bool :=
  let n := normalizeVtxo parseDate vtxo
  !hasTerminalSpend parseDate n.toCoin && (n.isSwept || isPastExpiry parseDate n.toCoin now)

end Capabilities

theorem lt_maxDouble : (EXPIRY_MIN_PLAUSIBLE_MS : ℚ) < 2 ^ 1024 - 2 ^ 970 := by
  have hone : (1 : ℚ) ≤ 2 ^ 970 := one_le_pow₀ (by norm_num)
  have hsplit : (2 : ℚ) ^ 1024 = 2 ^ 970 * 2 ^ 54 := by rw [← pow_add]
  rw [hsplit, EXPIRY_MIN_PLAUSIBLE_MS]
  generalize (2 : ℚ) ^ 970 = x at hone
  norm_num
  linarith

theorem ofRat_cases {q : ℚ} (hzero : 0 ≤ q) :
    ofRat q = .finite q ∨ ofRat q = .posInf ∧ (EXPIRY_MIN_PLAUSIBLE_MS : ℚ) < q := by
  have hmax := lt_maxDouble
  have hmin : (0 : ℚ) < EXPIRY_MIN_PLAUSIBLE_MS := by norm_num [EXPIRY_MIN_PLAUSIBLE_MS]
  unfold ofRat
  generalize (2 : ℚ) ^ 1024 - 2 ^ 970 = max at hmax
  split
  · exact .inr ⟨rfl, by linarith⟩
  · rw [if_neg (by linarith)]
    exact .inl rfl

theorem ofRat_of_lt {q : ℚ} (hzero : 0 ≤ q) (h : q < EXPIRY_MIN_PLAUSIBLE_MS) :
    ofRat q = .finite q :=
  (ofRat_cases hzero).resolve_right fun hinf ↦ (hinf.2.trans h).false

theorem le_nan_left (a : Number) : Number.nan.le a = false := by
  cases a <;> rfl

theorem le_nan_right (a : Number) : a.le .nan = false := by
  cases a <;> rfl

theorem not_le_ofNat_zero {n : Number} (hfinite : n.isFinite = true)
    (h : n.le (.ofNat 0) = false) : ∃ q : ℚ, 0 < q ∧ n = .finite q := by
  obtain ⟨q, rfl⟩ := Number.isFinite_iff.mp hfinite
  refine ⟨q, ?_, rfl⟩
  simpa [Number.ofNat] using h

/-- A date on the wire reads as that date again, or as a height that no chain reaches. -/
theorem isPast_parseLegacyExpiry_date {ms : Number} (now : TimeHeight)
    (hms : (Number.ofInt EXPIRY_MIN_PLAUSIBLE_MS).le ms = true) :
    (parseLegacyExpiry (some (Date.ofNumber ms).getTime)).isPast now =
      Expiry.isPast ⟨some (.ofNumber ms), none⟩ now := by
  cases htime : (Date.ofNumber ms).time with
  | none =>
    have hnan : (Date.ofNumber ms).getTime = .nan := by rw [Date.getTime, htime]
    simp only [parseLegacyExpiry, hnan, le_nan_left, le_nan_right, Bool.false_eq_true, if_false]
    simp [Expiry.isPast, hnan, le_nan_left, scale]
  | some t =>
    have hget : (Date.ofNumber ms).getTime = .ofInt t := by rw [Date.getTime, htime]
    have hle : EXPIRY_MIN_PLAUSIBLE_MS ≤ t := by
      cases ms with
      | nan | posInf | negInf => cases htime
      | finite q =>
        rw [Date.ofNumber] at htime
        split at htime
        · obtain rfl := Option.some.inj htime
          exact le_trunc (by decide) (by simpa [Number.ofInt] using hms)
        · cases htime
    have hpos : (Number.ofInt t).le (.ofNat 0) = false := by
      have h0 : (0 : ℤ) < t := lt_of_lt_of_le (by decide) hle
      simpa [Number.ofInt, Number.ofNat] using h0
    have hmin : (Number.ofInt EXPIRY_MIN_PLAUSIBLE_MS).le (.ofInt t) = true := by
      simpa [Number.ofInt] using hle
    rw [parseLegacyExpiry, hget]
    simp only [hpos, hmin, Bool.false_eq_true, if_false, if_true]
    rw [← hget, Date.ofNumber_getTime]

theorem parseLegacyExpiry_height {q : ℚ} (hpos : 0 < q)
    (hms : (Number.ofInt EXPIRY_MIN_PLAUSIBLE_MS).le (scale 1000 (.finite q)) = false) :
    parseLegacyExpiry (some (scale 1000 (.finite q))) = ⟨none, some (.finite q)⟩ := by
  have hlt : q * 1000 < EXPIRY_MIN_PLAUSIBLE_MS := by
    rcases ofRat_cases (q := q * 1000) (by positivity) with h | ⟨h, -⟩
    · simpa [scale, h, Number.ofInt] using hms
    · simp [scale, h, Number.ofInt, Number.le] at hms
  have hscale : scale 1000 (.finite q) = .finite (q * 1000) := ofRat_of_lt (by positivity) hlt
  rw [hscale] at hms ⊢
  have hzero : (Number.finite (q * 1000)).le (.ofNat 0) = false := by
    simpa [Number.ofNat] using hpos
  have hback : q * 1000 * (1 / 1000) = q := by ring
  have hq : q < EXPIRY_MIN_PLAUSIBLE_MS := by linarith
  simp only [parseLegacyExpiry, hzero, hms, Bool.false_eq_true, if_false]
  rw [scale, hback, ofRat_of_lt hpos.le hq]

theorem isPast_parseLegacyExpiry (raw : Option String) (now : TimeHeight) :
    (parseLegacyExpiry (toBatchExpiry (parseWireExpiry raw))).isPast now =
      (parseWireExpiry raw).isPast now := by
  unfold parseWireExpiry
  split
  · rfl
  · next raw =>
    split
    · rfl
    · dsimp only
      split
      · rfl
      · next hguard =>
        rw [Bool.not_eq_true, Bool.or_eq_false_iff, Bool.not_eq_false'] at hguard
        obtain ⟨q, hpos, hq⟩ := not_le_ofNat_zero hguard.1 hguard.2
        rw [hq]
        split
        · next hms => exact isPast_parseLegacyExpiry_date now hms
        · next hms =>
          rw [Bool.not_eq_true] at hms
          exact congrArg (Expiry.isPast · now) (parseLegacyExpiry_height hpos hms)

section Normalized

variable {parseDate : String → Date}

def ExpirySettled (n : NormalizedVirtualCoin) : Prop :=
  n.expiresAt = none → n.expiresAtHeight = none →
    parseLegacyExpiry n.virtualStatus.batchExpiry = ⟨none, none⟩

theorem normalizeVtxo_toCoin {n : NormalizedVirtualCoin} (h : ExpirySettled n) :
    normalizeVtxo parseDate n.toCoin = n := by
  have hexpiry : (normalizeVtxo parseDate n.toCoin).toExpiry =
      ⟨n.expiresAt, n.expiresAtHeight⟩ := by
    cases hdate : n.expiresAt with
    | some d => simp [normalizeVtxo, NormalizedVirtualCoin.toCoin, hdate, coerceDate]
    | none =>
      cases hheight : n.expiresAtHeight with
      | some height => simp [normalizeVtxo, NormalizedVirtualCoin.toCoin, hdate, hheight]
      | none =>
        simp [normalizeVtxo, NormalizedVirtualCoin.toCoin, hdate, hheight, h hdate hheight]
  have hrest : normalizeVtxo parseDate n.toCoin =
      { n with toExpiry := (normalizeVtxo parseDate n.toCoin).toExpiry } := rfl
  rw [hrest, hexpiry]

theorem toBatchExpiry_none : parseLegacyExpiry (toBatchExpiry ⟨none, none⟩) = ⟨none, none⟩ := rfl

theorem expirySettled_normalizeVtxo (v : VirtualCoin) :
    ExpirySettled (normalizeVtxo parseDate v) := by
  intro hdate hheight
  unfold normalizeVtxo at hdate hheight ⊢
  dsimp only at hdate hheight ⊢
  by_cases hcanonical : (v.expiresAt.isSome || v.expiresAtHeight.isSome) = true
  · rw [if_pos hcanonical] at hdate hheight
    rw [Option.map_eq_none_iff] at hdate
    rw [hdate, show v.expiresAtHeight = none from hheight] at hcanonical
    cases hcanonical
  · rw [if_neg hcanonical] at hdate hheight ⊢
    have hnone : parseLegacyExpiry (v.virtualStatus.bind (·.batchExpiry)) = ⟨none, none⟩ := by
      cases hexpiry : parseLegacyExpiry (v.virtualStatus.bind (·.batchExpiry)) with
      | mk expiresAt expiresAtHeight =>
        rw [hexpiry] at hdate hheight
        rw [show expiresAt = none from hdate, show expiresAtHeight = none from hheight]
    cases hstatus : v.virtualStatus with
    | some status =>
      rw [hstatus] at hnone
      exact hnone
    | none => exact toBatchExpiry_none

theorem normalizeVtxo_idem (v : VirtualCoin) :
    normalizeVtxo parseDate (normalizeVtxo parseDate v).toCoin = normalizeVtxo parseDate v :=
  normalizeVtxo_toCoin (expirySettled_normalizeVtxo v)

theorem parseWireExpiry_none {raw : Option String} (hdate : (parseWireExpiry raw).expiresAt = none)
    (hheight : (parseWireExpiry raw).expiresAtHeight = none) :
    parseWireExpiry raw = ⟨none, none⟩ := by
  cases hexpiry : parseWireExpiry raw with
  | mk expiresAt expiresAtHeight =>
    rw [hexpiry] at hdate hheight
    rw [show expiresAt = none from hdate, show expiresAtHeight = none from hheight]

variable {w : Vtxo} {c : NormalizedVirtualCoin}

theorem convertVtxo_facts (h : convertVtxo w = .ok c) :
    c.toExpiry = parseWireExpiry w.expiresAt ∧
      c.virtualStatus =
        toVirtualStatus c.isSpent c.isSwept c.isPreconfirmed c.commitmentTxIds c.toExpiry := by
  obtain ⟨assets, -, h⟩ := bind_ok.mp h
  cases h
  exact ⟨rfl, rfl⟩

theorem expirySettled_convertVtxo (h : convertVtxo w = .ok c) : ExpirySettled c := by
  obtain ⟨hexpiry, hstatus⟩ := convertVtxo_facts h
  intro hdate hheight
  have hnone : c.toExpiry = ⟨none, none⟩ := by
    rw [hexpiry]
    exact parseWireExpiry_none (hexpiry ▸ hdate) (hexpiry ▸ hheight)
  rw [hstatus, toVirtualStatus, hnone]
  rfl

def legacyProjection (c : NormalizedVirtualCoin) : VirtualCoin :=
  { c.toCoin with
    isSpent := none
    isSwept := none
    isPreconfirmed := none
    commitmentTxIds := none
    expiresAt := none
    expiresAtHeight := none }

theorem hasTerminalSpend_toCoin {n : NormalizedVirtualCoin} (h : ExpirySettled n) :
    hasTerminalSpend parseDate n.toCoin =
      (n.isSpent || truthy (some n.spentBy) || truthy n.settledBy) := by
  rw [hasTerminalSpend, normalizeVtxo_toCoin h]

theorem canSpendOffchain_eq (v : VirtualCoin) (now : TimeHeight) :
    canSpendOffchain parseDate v now = (!hasTerminalSpend parseDate v &&
      !((normalizeVtxo parseDate v).isSwept || isPastExpiry parseDate v now)) := by
  rw [canSpendOffchain, hasTerminalSpend, isPastExpiry, normalizeVtxo_idem]
  rfl

theorem canRecoverOnchain_eq (v : VirtualCoin) (now : TimeHeight) :
    canRecoverOnchain parseDate v now = (!hasTerminalSpend parseDate v &&
      ((normalizeVtxo parseDate v).isSwept || isPastExpiry parseDate v now)) := by
  rw [canRecoverOnchain, hasTerminalSpend, isPastExpiry, normalizeVtxo_idem]
  rfl

theorem isSpent_legacyProjection (h : convertVtxo w = .ok c) :
    (normalizeVtxo parseDate (legacyProjection c)).isSpent = c.isSpent := by
  have hstatus := (convertVtxo_facts h).2
  simp only [normalizeVtxo, legacyProjection, NormalizedVirtualCoin.toCoin, hstatus,
    toVirtualStatus]
  cases c.isSpent <;> cases c.isSwept <;> cases c.isPreconfirmed <;> rfl

theorem isSwept_legacyProjection (h : convertVtxo w = .ok c) (hspent : c.isSpent = false) :
    (normalizeVtxo parseDate (legacyProjection c)).isSwept = c.isSwept := by
  have hstatus := (convertVtxo_facts h).2
  simp only [normalizeVtxo, legacyProjection, NormalizedVirtualCoin.toCoin, hstatus,
    toVirtualStatus, hspent]
  cases c.isSwept <;> cases c.isPreconfirmed <;> rfl

theorem hasTerminalSpend_legacyProjection (h : convertVtxo w = .ok c) :
    hasTerminalSpend parseDate (legacyProjection c) = hasTerminalSpend parseDate c.toCoin := by
  rw [hasTerminalSpend_toCoin (expirySettled_convertVtxo h), hasTerminalSpend,
    isSpent_legacyProjection h]
  rfl

theorem isPastExpiry_legacyProjection (h : convertVtxo w = .ok c) (now : TimeHeight) :
    isPastExpiry parseDate (legacyProjection c) now = isPastExpiry parseDate c.toCoin now := by
  obtain ⟨hexpiry, hstatus⟩ := convertVtxo_facts h
  have hlegacy : (normalizeVtxo parseDate (legacyProjection c)).toExpiry =
      parseLegacyExpiry (toBatchExpiry c.toExpiry) := by
    simp [normalizeVtxo, legacyProjection, NormalizedVirtualCoin.toCoin, hstatus, toVirtualStatus]
  rw [isPastExpiry, isPastExpiry, normalizeVtxo_toCoin (expirySettled_convertVtxo h), hlegacy,
    hexpiry]
  exact isPast_parseLegacyExpiry w.expiresAt now

theorem isSwept_or_legacyProjection (h : convertVtxo w = .ok c) (now : TimeHeight)
    (hspend : hasTerminalSpend parseDate c.toCoin = false) :
    ((normalizeVtxo parseDate (legacyProjection c)).isSwept ||
        isPastExpiry parseDate (legacyProjection c) now) =
      ((normalizeVtxo parseDate c.toCoin).isSwept || isPastExpiry parseDate c.toCoin now) := by
  have hsettled := expirySettled_convertVtxo h
  rw [hasTerminalSpend_toCoin hsettled, Bool.or_eq_false_iff, Bool.or_eq_false_iff] at hspend
  rw [isPastExpiry_legacyProjection h, isSwept_legacyProjection h hspend.1.1,
    normalizeVtxo_toCoin hsettled]

theorem exactly_one_capability (v : VirtualCoin) (now : TimeHeight) :
    [hasTerminalSpend parseDate v, canSpendOffchain parseDate v now,
      canRecoverOnchain parseDate v now].count true = 1 := by
  rw [canSpendOffchain_eq, canRecoverOnchain_eq]
  cases hasTerminalSpend parseDate v <;>
    cases (normalizeVtxo parseDate v).isSwept || isPastExpiry parseDate v now <;> rfl

theorem convertVtxo_legacy_capabilities (h : convertVtxo w = .ok c) (now : TimeHeight) :
    hasTerminalSpend parseDate (legacyProjection c) = hasTerminalSpend parseDate c.toCoin ∧
      (hasTerminalSpend parseDate c.toCoin = false →
        isPastExpiry parseDate (legacyProjection c) now = isPastExpiry parseDate c.toCoin now) ∧
      canSpendOffchain parseDate (legacyProjection c) now =
        canSpendOffchain parseDate c.toCoin now ∧
      canRecoverOnchain parseDate (legacyProjection c) now =
        canRecoverOnchain parseDate c.toCoin now ∧
      (∀ v, normalizeVtxo parseDate (normalizeVtxo parseDate v).toCoin =
        normalizeVtxo parseDate v) ∧
      ∀ v, [hasTerminalSpend parseDate v, canSpendOffchain parseDate v now,
        canRecoverOnchain parseDate v now].count true = 1 := by
  have hspend : hasTerminalSpend parseDate (legacyProjection c) =
      hasTerminalSpend parseDate c.toCoin := hasTerminalSpend_legacyProjection h
  refine ⟨hspend, fun _ ↦ isPastExpiry_legacyProjection h now, ?_, ?_, normalizeVtxo_idem,
    fun v ↦ exactly_one_capability v now⟩
  · rw [canSpendOffchain_eq, canSpendOffchain_eq, hspend]
    cases hterminal : hasTerminalSpend parseDate c.toCoin with
    | true => rfl
    | false => rw [isSwept_or_legacyProjection h now hterminal]
  · rw [canRecoverOnchain_eq, canRecoverOnchain_eq, hspend]
    cases hterminal : hasTerminalSpend parseDate c.toCoin with
    | true => rfl
    | false => rw [isSwept_or_legacyProjection h now hterminal]

/-- A preconfirmed output whose batch expires at a height. -/
def heightVtxo : Vtxo where
  txid := "a1"
  vout := 0
  createdAt := "1780000000"
  expiresAt := some "800000"
  amount := "1000"
  script := "5120"
  isPreconfirmed := true
  isSwept := false
  isUnrolled := false
  isSpent := false
  spentBy := some ""
  commitmentTxids := ["c0"]
  settledBy := none
  arkTxid := none
  assets := none

theorem heightVtxo_legacy : ∃ c, convertVtxo heightVtxo = .ok c ∧
    canRecoverOnchain (fun _ ↦ Date.invalid) (legacyProjection c)
        ⟨.ofNumber (.ofNat 1800000000000), some (.ofNat 800001)⟩ =
      canRecoverOnchain (fun _ ↦ Date.invalid) c.toCoin
        ⟨.ofNumber (.ofNat 1800000000000), some (.ofNat 800001)⟩ := by
  obtain ⟨c, hc⟩ : ∃ c, convertVtxo heightVtxo = .ok c := ⟨_, rfl⟩
  exact ⟨c, hc, (convertVtxo_legacy_capabilities hc _).2.2.2.1⟩

end Normalized

end ArkadeSdk.CanonicalVtxo
