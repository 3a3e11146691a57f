import ArkadeSdk.Lib.JsMap
import ArkadeSdk.Lib.JsNumber

/-! The wallet's state record and those who write it: the sync cursor, the pending flag, the
server's snapshot and the allocator of descriptors. -/

namespace ArkadeSdk.HDWallet

open JsNumber

/-- What the allocator keeps, as it is found in store. -/
structure StoredHDSettings where
  descriptor : String
  lastIndexUsed : Option Number
  deriving DecidableEq

inductive Setting
  | hd (stored : StoredHDSettings)
  | flag (value : Bool)
  | snapshot (text : String)
  deriving DecidableEq

structure WalletState where
  lastSyncTime : Option Number
  settings : Option (JsMap.Entries String Setting)
  deriving DecidableEq

def HD_SETTINGS_KEY : String := "hd"
def CURSOR_MIGRATED_KEY : String := "vtxoCursorMigrated"
def ARK_INFO_SNAPSHOT_KEY : String := "arkInfoSnapshot"
def PENDING_TX_KEY : String := "hasPendingTx"

namespace WalletState

def empty : WalletState := ⟨none, none⟩

def setting (s : WalletState) (key : String) : Option Setting :=
  s.settings.bind fun settings ↦ JsMap.get settings key

/-- `{ ...state.settings, [key]: value }` -/
def withSetting (s : WalletState) (key : String) (value : Setting) : JsMap.Entries String Setting :=
  JsMap.set key value (s.settings.getD [])

end WalletState

def hasMigrationMarker (s : WalletState) : Bool :=
  s.setting CURSOR_MIGRATED_KEY = some (.flag true)

def maxNumber (a b : Number) : Number :=
  if a = .nan ∨ b = .nan then .nan else if a.lt b then b else a

def advanceSyncCursor (lastUpdatedAt : Number) (s : WalletState) : WalletState :=
  let current := if hasMigrationMarker s then s.lastSyncTime.getD (.ofNat 0) else .ofNat 0
  { lastSyncTime := some (maxNumber current lastUpdatedAt)
    settings := some (s.withSetting CURSOR_MIGRATED_KEY (.flag true)) }

def clearSyncCursor (s : WalletState) : WalletState where
  lastSyncTime := none
  settings := some (JsMap.erase CURSOR_MIGRATED_KEY (s.settings.getD []))

def setPendingTxFlag (value : Bool) (s : WalletState) : WalletState :=
  { s with settings := some (s.withSetting PENDING_TX_KEY (.flag value)) }

def saveArkInfoSnapshot (snapshot : String) (s : WalletState) : WalletState :=
  { s with settings := some (s.withSetting ARK_INFO_SNAPSHOT_KEY (.snapshot snapshot)) }

/-- Settings that have been validated. -/
structure HDWalletSettings where
  descriptor : String
  lastIndexUsed : Option ℕ
  deriving DecidableEq

def HDWalletSettings.stored (settings : HDWalletSettings) : StoredHDSettings :=
  ⟨settings.descriptor, settings.lastIndexUsed.map .ofNat⟩

def mismatch (stored expected : String) : Message :=
  [.text "HD descriptor mismatch: stored \"", .text stored, .text "\", expected \"",
    .text expected, .text "\". Refusing to reuse HD state from a different identity."]

def corrupt (value : Number) : Message :=
  [.text "Corrupt HD settings: lastIndexUsed is not a non-negative integer (got ", .value value,
    .text ")."]

/-- A non-negative integer. -/
def toIndex : Number → Option ℕ
  | .finite q => if q.den = 1 ∧ 0 ≤ q.num then some q.num.toNat else none
  | _ => none

def parseSettings (expected : String) (s : WalletState) : Except Message HDWalletSettings :=
  match s.setting HD_SETTINGS_KEY with
  | none | some (.flag false) => .ok ⟨expected, none⟩
  | some (.flag true) | some (.snapshot _) => .error (mismatch "undefined" expected)
  | some (.hd stored) =>
    if stored.descriptor ≠ expected then .error (mismatch stored.descriptor expected)
    else match stored.lastIndexUsed with
      | none => .ok ⟨expected, none⟩
      | some value => match toIndex value with
        | none => .error (corrupt value)
        | some index => .ok ⟨expected, some index⟩

def HARDENED_INDEX_OFFSET : ℕ := 0x80000000

/-- The descriptor of an identity's account at an index, `none` where the library derives none. -/
abbrev Materialize := String → ℕ → Option String

def cannotMaterialize (index : ℕ) : Message :=
  [.text "HDDescriptorProvider: cannot materialize descriptor at index ", .value (.ofNat index)]

def withHDSettings (s : WalletState) (settings : HDWalletSettings) : WalletState :=
  { s with settings := some (s.withSetting HD_SETTINGS_KEY (.hd settings.stored)) }

/-- An index and its descriptor, handed out under an account. -/
structure Allocation where
  account : String
  index : ℕ
  descriptor : String
  deriving DecidableEq

/-- The closure of `getNextSigningDescriptor` inside `mutate`. -/
def allocate (materialize : Materialize) (account : String) (s : WalletState) :
    Except Message (WalletState × Allocation) := do
  let settings ← parseSettings account s
  let next := match settings.lastIndexUsed with
    | none => 0
    | some index => index + 1
  match materialize account next with
  | none => throw (cannotMaterialize next)
  | some descriptor =>
    return (withHDSettings s { settings with lastIndexUsed := some next },
      ⟨account, next, descriptor⟩)

/-- The closure of `advanceLastIndexUsed` inside `mutate`. -/
def advance (account : String) (index : ℕ) (s : WalletState) : Except Message WalletState := do
  let settings ← parseSettings account s
  return withHDSettings s { settings with lastIndexUsed := match settings.lastIndexUsed with
    | none => some index
    | some last => if index > last then some index else some last }

/-- The guard of `advanceLastIndexUsed`. -/
def advancesTo (index : Number) : Option ℕ :=
  (toIndex index).filter (· < HARDENED_INDEX_OFFSET)

inductive Update
  | advanceSyncCursor (lastUpdatedAt : Number)
  | clearSyncCursor
  | setPendingTxFlag (value : Bool)
  | saveArkInfoSnapshot (snapshot : String)
  | getNextSigningDescriptor (account : String)
  | advanceLastIndexUsed (account : String) (index : ℕ)
  deriving DecidableEq

/-- The record before its first write reads as empty. -/
def Update.apply (materialize : Materialize) (u : Update) (stored : Option WalletState) :
    Except Message (Option WalletState × Option Allocation) :=
  let s := stored.getD .empty
  match u with
  | .advanceSyncCursor lastUpdatedAt =>
    .ok (some (HDWallet.advanceSyncCursor lastUpdatedAt s), none)
  | .clearSyncCursor => .ok (some (HDWallet.clearSyncCursor s), none)
  | .setPendingTxFlag value => .ok (some (HDWallet.setPendingTxFlag value s), none)
  | .saveArkInfoSnapshot snapshot => .ok (some (HDWallet.saveArkInfoSnapshot snapshot s), none)
  | .getNextSigningDescriptor account =>
    (allocate materialize account s).map fun (s, allocation) ↦ (some s, some allocation)
  | .advanceLastIndexUsed account index => (advance account index s).map fun s ↦ (some s, none)

/-- The account in store and the last index that it handed out. -/
def watermark (stored : Option WalletState) : Option (String × ℕ) :=
  match (stored.getD .empty).setting HD_SETTINGS_KEY with
  | some (.hd ⟨account, some value⟩) => (toIndex value).map fun index ↦ (account, index)
  | _ => none

/-- The watermark stays with its account and is not lowered. -/
def Grows (before after : Option (String × ℕ)) : Prop :=
  ∀ account index, before = some (account, index) →
    ∃ index' ≥ index, after = some (account, index')

theorem Grows.refl (mark : Option (String × ℕ)) : Grows mark mark :=
  fun _ index h ↦ ⟨index, Nat.le_refl index, h⟩

theorem Grows.trans {a b c : Option (String × ℕ)} (h : Grows a b) (h' : Grows b c) : Grows a c := by
  intro account index ha
  obtain ⟨index', hle, hb⟩ := h account index ha
  obtain ⟨index'', hle', hc⟩ := h' account index' hb
  exact ⟨index'', Nat.le_trans hle hle', hc⟩

@[simp] theorem toIndex_ofNat (n : ℕ) : toIndex (.ofNat n) = some n := by
  simp [toIndex, Number.ofNat]

section Setting

variable (s : WalletState) (key key' : String) (value : Setting)

theorem setting_withSetting (time : Option Number) :
    (⟨time, some (s.withSetting key value)⟩ : WalletState).setting key' =
      if key = key' then some value else s.setting key' := by
  unfold WalletState.setting WalletState.withSetting
  dsimp only [Option.bind_some]
  rw [JsMap.get_set]
  cases s.settings <;> rfl

end Setting

theorem watermark_congr {s s' : Option WalletState}
    (h : (s'.getD .empty).setting HD_SETTINGS_KEY = (s.getD .empty).setting HD_SETTINGS_KEY) :
    watermark s' = watermark s := by
  unfold watermark
  rw [h]

theorem watermark_withHDSettings (s : WalletState) (settings : HDWalletSettings) :
    watermark (some (withHDSettings s settings)) =
      settings.lastIndexUsed.map fun index ↦ (settings.descriptor, index) := by
  have hsetting : (withHDSettings s settings).setting HD_SETTINGS_KEY =
      some (.hd settings.stored) :=
    (setting_withSetting s HD_SETTINGS_KEY HD_SETTINGS_KEY _ s.lastSyncTime).trans (if_pos rfl)
  unfold watermark
  rw [Option.getD_some, hsetting]
  obtain ⟨account, last⟩ := settings
  cases last with
  | none => rfl
  | some index => simp [HDWalletSettings.stored]

theorem watermark_of_parseSettings {account : String} {s : WalletState}
    {settings : HDWalletSettings} (h : parseSettings account s = .ok settings) :
    settings.descriptor = account ∧
      watermark (some s) = settings.lastIndexUsed.map fun index ↦ (account, index) := by
  unfold parseSettings at h
  unfold watermark
  rw [Option.getD_some]
  split at h
  · rename_i hnone
    rw [hnone]
    cases h
    exact ⟨rfl, rfl⟩
  · rename_i hflag
    rw [hflag]
    cases h
    exact ⟨rfl, rfl⟩
  · cases h
  · cases h
  · rename_i stored hhd
    rw [hhd]
    obtain ⟨descriptor, last⟩ := stored
    split at h
    · cases h
    · rename_i hdescriptor
      obtain rfl := not_not.mp hdescriptor
      cases last with
      | none =>
        cases h
        exact ⟨rfl, rfl⟩
      | some value =>
        dsimp only at h ⊢
        cases hvalue : toIndex value with
        | none =>
          rw [hvalue] at h
          cases h
        | some index =>
          rw [hvalue] at h
          cases h
          exact ⟨rfl, rfl⟩

theorem allocate_spec {materialize : Materialize} {account : String} {s s' : WalletState}
    {a : Allocation} (h : allocate materialize account s = .ok (s', a)) :
    materialize a.account a.index = some a.descriptor ∧
    watermark (some s') = some (a.account, a.index) ∧
    ∀ account' index, watermark (some s) = some (account', index) →
      account' = a.account ∧ index < a.index := by
  unfold allocate at h
  cases hparse : parseSettings account s with
  | error e =>
    rw [hparse] at h
    cases h
  | ok settings =>
    rw [hparse] at h
    obtain ⟨rfl, hmark⟩ := watermark_of_parseSettings hparse
    dsimp only [bind, Except.bind] at h
    split at h
    · cases h
    · rename_i descriptor hmaterialize
      cases h
      refine ⟨hmaterialize, watermark_withHDSettings s _, fun account' index hbefore ↦ ?_⟩
      rw [hmark] at hbefore
      obtain ⟨last, hlast, heq⟩ := Option.map_eq_some_iff.mp hbefore
      obtain ⟨rfl, rfl⟩ := Prod.mk.inj heq
      rw [hlast]
      exact ⟨rfl, Nat.lt_succ_self last⟩

theorem advance_spec {account : String} {index : ℕ} {s s' : WalletState}
    (h : advance account index s = .ok s') :
    Grows (watermark (some s)) (watermark (some s')) ∧
      ∃ index' ≥ index, watermark (some s') = some (account, index') := by
  unfold advance at h
  cases hparse : parseSettings account s with
  | error e =>
    rw [hparse] at h
    cases h
  | ok settings =>
    rw [hparse] at h
    obtain ⟨rfl, hmark⟩ := watermark_of_parseSettings hparse
    cases h
    rw [watermark_withHDSettings, hmark]
    cases settings.lastIndexUsed with
    | none => exact ⟨nofun, index, Nat.le_refl index, rfl⟩
    | some last =>
      dsimp only [Option.map_some]
      split
      · rename_i hgt
        refine ⟨fun account' index' heq ↦ ?_, index, Nat.le_refl index, rfl⟩
        obtain ⟨rfl, rfl⟩ := Prod.mk.inj (Option.some.inj heq)
        exact ⟨index, Nat.le_of_lt hgt, rfl⟩
      · rename_i hle
        exact ⟨.refl _, last, Nat.le_of_not_lt hle, rfl⟩

/-- What an update does to the watermark: most leave it, an allocation hands out the next index, and
an advance lifts it at least to its index. -/
theorem apply_spec {materialize : Materialize} {u : Update} {s s' : Option WalletState}
    {result : Option Allocation} (h : u.apply materialize s = .ok (s', result)) :
    Grows (watermark s) (watermark s') ∧
    (∀ a, result = some a → materialize a.account a.index = some a.descriptor ∧
      watermark s' = some (a.account, a.index) ∧
      ∀ account index, watermark s = some (account, index) →
        account = a.account ∧ index < a.index) ∧
    (∀ account index, u = .advanceLastIndexUsed account index →
      ∃ index' ≥ index, watermark s' = some (account, index')) := by
  have hsame {next : WalletState} (hhd : next.setting HD_SETTINGS_KEY =
      (s.getD .empty).setting HD_SETTINGS_KEY) : Grows (watermark s) (watermark (some next)) := by
    have heq : watermark (some next) = watermark s := watermark_congr hhd
    exact heq ▸ .refl _
  cases u with
  | advanceSyncCursor lastUpdatedAt =>
    cases h
    exact ⟨hsame (setting_withSetting _ CURSOR_MIGRATED_KEY HD_SETTINGS_KEY _ _), nofun, nofun⟩
  | clearSyncCursor =>
    cases h
    refine ⟨hsame ?_, nofun, nofun⟩
    unfold clearSyncCursor WalletState.setting
    dsimp only [Option.bind_some]
    rw [JsMap.get_erase, if_neg (by decide)]
    cases (s.getD .empty).settings <;> rfl
  | setPendingTxFlag value =>
    cases h
    exact ⟨hsame (setting_withSetting _ PENDING_TX_KEY HD_SETTINGS_KEY _ _), nofun, nofun⟩
  | saveArkInfoSnapshot snapshot =>
    cases h
    exact ⟨hsame (setting_withSetting _ ARK_INFO_SNAPSHOT_KEY HD_SETTINGS_KEY _ _), nofun, nofun⟩
  | getNextSigningDescriptor account =>
    dsimp only [Update.apply] at h
    cases halloc : allocate materialize account (s.getD .empty) with
    | error e =>
      rw [halloc] at h
      cases h
    | ok allocated =>
      rw [halloc] at h
      cases h
      obtain ⟨hmaterialize, hafter, hbefore⟩ := allocate_spec halloc
      refine ⟨fun account' index hmark ↦ ?_, fun a ha ↦ ?_, nofun⟩
      · obtain ⟨rfl, hlt⟩ := hbefore account' index hmark
        exact ⟨_, Nat.le_of_lt hlt, hafter⟩
      · obtain rfl := Option.some.inj ha
        exact ⟨hmaterialize, hafter, hbefore⟩
  | advanceLastIndexUsed account index =>
    dsimp only [Update.apply] at h
    cases hadvance : advance account index (s.getD .empty) with
    | error e =>
      rw [hadvance] at h
      cases h
    | ok next =>
      rw [hadvance] at h
      cases h
      obtain ⟨hgrows, hmark⟩ := advance_spec hadvance
      refine ⟨hgrows, nofun, fun account' index' heq ↦ ?_⟩
      cases heq
      exact hmark

end ArkadeSdk.HDWallet
