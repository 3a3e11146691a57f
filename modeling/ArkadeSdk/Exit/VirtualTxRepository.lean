import ArkadeSdk.Exit.Ancestry
import ArkadeSdk.Lib.JsMap
import Mathlib.Data.List.Sort
import Mathlib.Data.List.Indexes

/-! Stores of exit branches, in memory and in SQL tables. -/

namespace ArkadeSdk.Exit

open JsNumber

structure Outpoint where
  txid : String
  vout : ℕ
  deriving DecidableEq

structure VirtualTx where
  txid : String
  psbt : Option String
  expiresAt : Option Number
  type : ChainedTxType
  deriving DecidableEq

structure VtxoBranch where
  vtxoTxid : String
  vtxoVout : ℕ
  virtualTxid : String
  position : ℕ
  deriving DecidableEq

def VtxoBranch.vtxo (b : VtxoBranch) : Outpoint := ⟨b.vtxoTxid, b.vtxoVout⟩

def branchRows (vtxo : Outpoint) (txids : List String) : List VtxoBranch :=
  txids.mapIdx fun i txid ↦ ⟨vtxo.txid, vtxo.vout, txid, i⟩

def mergeChainedTxType (incoming : ChainedTxType) (prev : Option ChainedTxType) : ChainedTxType :=
  if incoming ≠ .unspecified then incoming else prev.getD .unspecified

namespace VirtualTx

/-- An incoming record over the stored one. -/
def merge (t : VirtualTx) (prev : Option VirtualTx) : VirtualTx where
  txid := t.txid
  psbt := t.psbt <|> prev.bind (·.psbt)
  expiresAt := t.expiresAt <|> prev.bind (·.expiresAt)
  type := mergeChainedTxType t.type (prev.map (·.type))

/-- What becomes of the record of one transaction when a batch is written over it. -/
def mergeAll (txs : List VirtualTx) (txid : String) (prev : Option VirtualTx) : Option VirtualTx :=
  (txs.filter (·.txid = txid)).foldl (fun prev t ↦ some (t.merge prev)) prev

end VirtualTx

structure VirtualTxRepository where
  Store : Type
  empty : Store
  upsertVirtualTxs : List VirtualTx → Store → Store
  getVirtualTx : Store → String → Option VirtualTx
  setBranch : Outpoint → List VtxoBranch → Store → Store
  getBranch : Store → Outpoint → List VirtualTx
  hasBranch : Store → Outpoint → Bool
  pruneForSpentVtxo : Outpoint → Store → Store

/-- What callers rely on: each operation through the records and the lists of ids that the store
holds. -/
structure VirtualTxRepository.Lawful (r : VirtualTxRepository) where
  entries : r.Store → Outpoint → List String
  entries_empty : ∀ v, entries r.empty v = []
  getVirtualTx_empty : ∀ txid, r.getVirtualTx r.empty txid = none
  getBranch_eq : ∀ s v, r.getBranch s v = (entries s v).filterMap (r.getVirtualTx s)
  hasBranch_iff : ∀ s v, r.hasBranch s v = true ↔ entries s v ≠ []
  getVirtualTx_upsert : ∀ txs s txid, r.getVirtualTx (r.upsertVirtualTxs txs s) txid =
    VirtualTx.mergeAll txs txid (r.getVirtualTx s txid)
  entries_upsert : ∀ txs s, entries (r.upsertVirtualTxs txs s) = entries s
  getVirtualTx_setBranch : ∀ v b s, r.getVirtualTx (r.setBranch v b s) = r.getVirtualTx s
  entries_setBranch : ∀ v txids s u, entries (r.setBranch v (branchRows v txids) s) u =
    if u = v then txids else entries s u
  entries_prune : ∀ v s u, entries (r.pruneForSpentVtxo v s) u = if u = v then [] else entries s u
  getVirtualTx_prune_kept : ∀ v s txid, (txid ∈ entries s v → ∃ u ≠ v, txid ∈ entries s u) →
    r.getVirtualTx (r.pruneForSpentVtxo v s) txid = r.getVirtualTx s txid
  getVirtualTx_prune_gone : ∀ v s txid, txid ∈ entries s v → (∀ u ≠ v, txid ∉ entries s u) →
    r.getVirtualTx (r.pruneForSpentVtxo v s) txid = none

/-- `opKey` tells outpoints apart, so they are the keys here. -/
structure InMemoryVirtualTxRepository where
  txs : JsMap.Entries String VirtualTx
  branches : JsMap.Entries Outpoint (List VtxoBranch)
  keys_unique : (branches.map Prod.fst).Nodup
  deriving DecidableEq

namespace InMemoryVirtualTxRepository

def upsertVirtualTx (s : InMemoryVirtualTxRepository) (t : VirtualTx) :
    InMemoryVirtualTxRepository :=
  match JsMap.get s.txs t.txid with
  | none => { s with txs := JsMap.set t.txid t s.txs }
  | some prev => { s with txs := JsMap.set t.txid (t.merge (some prev)) s.txs }

def upsertVirtualTxs (txs : List VirtualTx) (s : InMemoryVirtualTxRepository) :
    InMemoryVirtualTxRepository :=
  txs.foldl upsertVirtualTx s

def getVirtualTx (s : InMemoryVirtualTxRepository) (txid : String) : Option VirtualTx :=
  JsMap.get s.txs txid

def setBranch (vtxo : Outpoint) (branch : List VtxoBranch) (s : InMemoryVirtualTxRepository) :
    InMemoryVirtualTxRepository :=
  { s with
    branches := JsMap.set vtxo (branch.insertionSort fun a b ↦ a.position ≤ b.position) s.branches
    keys_unique := JsMap.nodup_set s.keys_unique _ _ }

def rows (s : InMemoryVirtualTxRepository) (vtxo : Outpoint) : List VtxoBranch :=
  (JsMap.get s.branches vtxo).getD []

def getBranch (s : InMemoryVirtualTxRepository) (vtxo : Outpoint) : List VirtualTx :=
  (s.rows vtxo).filterMap fun x ↦ JsMap.get s.txs x.virtualTxid

def hasBranch (s : InMemoryVirtualTxRepository) (vtxo : Outpoint) : Bool :=
  0 < (s.rows vtxo).length

def pruneForSpentVtxo (vtxo : Outpoint) (s : InMemoryVirtualTxRepository) :
    InMemoryVirtualTxRepository :=
  let removed := s.rows vtxo
  let branches := JsMap.erase vtxo s.branches
  let stillReferenced := branches.flatMap fun b ↦ b.2.map (·.virtualTxid)
  { txs := removed.foldl
      (fun txs e ↦ if e.virtualTxid ∉ stillReferenced then JsMap.erase e.virtualTxid txs else txs)
      s.txs
    branches
    keys_unique := JsMap.nodup_erase s.keys_unique _ }

end InMemoryVirtualTxRepository

structure VtxRow where
  txid : String
  psbt : Option String
  expires_at : Option Number
  type : ChainedTxType
  deriving DecidableEq

/-- `INSERT OR REPLACE` takes the row with the same primary key out first. -/
def insertOrReplace {ρ κ : Type} [DecidableEq κ] (key : ρ → κ) (row : ρ) (table : List ρ) :
    List ρ :=
  table.filter (key · ≠ key row) ++ [row]

/-- The rows of the two tables. `txid` is the primary key of the first. -/
structure SQLiteVirtualTxRepository where
  virtual_txs : List VtxRow
  vtxo_branches : List VtxoBranch
  txid_unique : (virtual_txs.map (·.txid)).Nodup

namespace SQLiteVirtualTxRepository

def rowToTx (r : VtxRow) : VirtualTx := ⟨r.txid, r.psbt, r.expires_at, r.type⟩

theorem nodup_insertOrReplace {table : List VtxRow} (h : (table.map (·.txid)).Nodup)
    (row : VtxRow) : ((insertOrReplace (·.txid) row table).map (·.txid)).Nodup := by
  unfold insertOrReplace
  rw [List.map_append]
  refine List.nodup_append.mpr ⟨(List.filter_sublist.map _).nodup h, List.nodup_singleton _, ?_⟩
  rintro a ha b hb rfl
  obtain ⟨x, hx, rfl⟩ := List.mem_map.mp ha
  exact of_decide_eq_true (List.mem_filter.mp hx).2 (List.mem_singleton.mp hb)

def insertTx (row : VtxRow) (s : SQLiteVirtualTxRepository) : SQLiteVirtualTxRepository :=
  { s with
    virtual_txs := insertOrReplace (·.txid) row s.virtual_txs
    txid_unique := nodup_insertOrReplace s.txid_unique row }

/-- One record of a batch, against the rows that the batch has seen of each transaction. -/
def upsertVirtualTx (acc : SQLiteVirtualTxRepository × JsMap.Entries String VtxRow)
    (t : VirtualTx) : SQLiteVirtualTxRepository × JsMap.Entries String VtxRow :=
  let prev := JsMap.get acc.2 t.txid
  let row : VtxRow :=
    ⟨t.txid, t.psbt <|> prev.bind (·.psbt), t.expiresAt <|> prev.bind (·.expires_at),
      mergeChainedTxType t.type (prev.map (·.type))⟩
  (acc.1.insertTx row, JsMap.set t.txid row acc.2)

def upsertVirtualTxs (txs : List VirtualTx) (s : SQLiteVirtualTxRepository) :
    SQLiteVirtualTxRepository :=
  let existing := s.virtual_txs.filter (·.txid ∈ txs.map (·.txid))
  let prevByTxid := existing.foldl (fun m r ↦ JsMap.set r.txid r m) []
  (txs.foldl upsertVirtualTx (s, prevByTxid)).1

def getVirtualTx (s : SQLiteVirtualTxRepository) (txid : String) : Option VirtualTx :=
  (s.virtual_txs.find? (·.txid = txid)).map rowToTx

/-- `(vtxo_txid, vtxo_vout, position)` is the primary key. -/
def setBranch (vtxo : Outpoint) (branch : List VtxoBranch) (s : SQLiteVirtualTxRepository) :
    SQLiteVirtualTxRepository :=
  { s with
    vtxo_branches := branch.foldl
      (fun table b ↦ insertOrReplace (fun row ↦ (row.vtxo, row.position)) b table)
      (s.vtxo_branches.filter (·.vtxo ≠ vtxo)) }

def rows (s : SQLiteVirtualTxRepository) (vtxo : Outpoint) : List VtxoBranch :=
  s.vtxo_branches.filter (·.vtxo = vtxo)

def getBranch (s : SQLiteVirtualTxRepository) (vtxo : Outpoint) : List VirtualTx :=
  ((s.rows vtxo).insertionSort fun a b ↦ a.position ≤ b.position).flatMap fun b ↦
    (s.virtual_txs.filter (·.txid = b.virtualTxid)).map rowToTx

def hasBranch (s : SQLiteVirtualTxRepository) (vtxo : Outpoint) : Bool :=
  0 < (s.rows vtxo).length

/-- Listed by this branch and, once its rows are deleted, by none. -/
def orphaned (s : SQLiteVirtualTxRepository) (vtxo : Outpoint) (txid : String) : Bool :=
  (s.rows vtxo).any (·.virtualTxid = txid) &&
    !(s.vtxo_branches.filter (·.vtxo ≠ vtxo)).any (·.virtualTxid = txid)

def pruneForSpentVtxo (vtxo : Outpoint) (s : SQLiteVirtualTxRepository) :
    SQLiteVirtualTxRepository where
  virtual_txs := s.virtual_txs.filter fun t ↦ !s.orphaned vtxo t.txid
  vtxo_branches := s.vtxo_branches.filter (·.vtxo ≠ vtxo)
  txid_unique := (List.filter_sublist.map _).nodup s.txid_unique

end SQLiteVirtualTxRepository

inductive Backend
  | inMemory
  | sqlite

def Backend.repository : Backend → VirtualTxRepository
  | .inMemory =>
    { Store := InMemoryVirtualTxRepository
      empty := ⟨[], [], List.nodup_nil⟩
      upsertVirtualTxs := InMemoryVirtualTxRepository.upsertVirtualTxs
      getVirtualTx := InMemoryVirtualTxRepository.getVirtualTx
      setBranch := InMemoryVirtualTxRepository.setBranch
      getBranch := InMemoryVirtualTxRepository.getBranch
      hasBranch := InMemoryVirtualTxRepository.hasBranch
      pruneForSpentVtxo := InMemoryVirtualTxRepository.pruneForSpentVtxo }
  | .sqlite =>
    { Store := SQLiteVirtualTxRepository
      empty := ⟨[], [], List.nodup_nil⟩
      upsertVirtualTxs := SQLiteVirtualTxRepository.upsertVirtualTxs
      getVirtualTx := SQLiteVirtualTxRepository.getVirtualTx
      setBranch := SQLiteVirtualTxRepository.setBranch
      getBranch := SQLiteVirtualTxRepository.getBranch
      hasBranch := SQLiteVirtualTxRepository.hasBranch
      pruneForSpentVtxo := SQLiteVirtualTxRepository.pruneForSpentVtxo }

end ArkadeSdk.Exit
