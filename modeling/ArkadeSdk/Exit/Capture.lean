import ArkadeSdk.Exit.VirtualTxRepository
import ArkadeSdk.Lib.LabelledRun

/-! Captures of exit branches and prunes of spent outputs over one repository. A capture stands
still wherever it waits for the resolver or the repository, and anything else may happen there. -/

namespace ArkadeSdk.Exit

open JsNumber JsCoercion LabelledRun

inductive ExitCaptureMode
  | lite
  | full
  deriving DecidableEq

/-- What the resolver knows, and the id that a PSBT decodes to. -/
structure Resolver where
  vtxoChain : Outpoint → List ChainTx
  psbtId : String → String

/-- The transactions whose PSBTs a full capture asks for. -/
def nonCommitment (ordered : List ChainTx) : List String :=
  (ordered.filter (·.chainedType ≠ .commitment)).map (·.txid)

def psbtByTxid (net : Resolver) (mode : ExitCaptureMode) (ordered : List ChainTx)
    (psbts : List String) : JsMap.Entries String String :=
  if mode = .full ∧ 0 < (nonCommitment ordered).length then
    psbts.foldl (fun m psbt ↦ JsMap.set (net.psbtId psbt) psbt m) []
  else []

def expiryOf (c : ChainTx) : Option Number :=
  let expires := stringToNumber c.expiresAt
  if expires.isFinite ∧ Number.lt (.ofNat 0) expires then some expires else none

def virtualTxs (psbts : JsMap.Entries String String) (ordered : List ChainTx) : List VirtualTx :=
  ordered.map fun c ↦ ⟨c.txid, JsMap.get psbts c.txid, expiryOf c, c.chainedType⟩

/-- Where a capture waits: for the chain, for the PSBTs or the write of the transactions, or for
the write of the branch. -/
inductive Phase
  | resolving
  | ordered (branch : List ChainTx)
  | published (branch : List ChainTx)
  deriving DecidableEq

structure Capture where
  vtxo : Outpoint
  mode : ExitCaptureMode
  phase : Phase
  deriving DecidableEq

/-- `fullBranches` are the outputs whose branch a full capture has stored. -/
structure World (r : VirtualTxRepository) where
  store : r.Store
  captures : List Capture
  fullBranches : List Outpoint

inductive Action
  | capture (vtxo : Outpoint) (value : ℚ) (mode : ExitCaptureMode) (minExitWorthSats : ℚ)
  | chainFails (i : ℕ)
  | chainAnswers (i : ℕ)
  | readThrough (i : ℕ) (fresh : List String)
  | upsert (i : ℕ) (psbts : List String)
  | setBranch (i : ℕ)
  | prune (vtxo : Outpoint)

section Step

variable (r : VirtualTxRepository) (net : Resolver)

def World.start : World r := ⟨r.empty, [], []⟩

variable {r}

/-- Below the floor and with a branch in store a capture returns at once. -/
def World.begin (w : World r) (vtxo : Outpoint) (value : ℚ) (mode : ExitCaptureMode)
    (minExitWorthSats : ℚ) : World r :=
  if value < minExitWorthSats then w
  else if r.hasBranch w.store vtxo then w
  else { w with captures := w.captures ++ [⟨vtxo, mode, .resolving⟩] }

/-- The chain is put in order. On a cycle the capture ends with an error. -/
def World.chainAnswered (w : World r) (i : ℕ) (c : Capture) : World r :=
  match orderAncestryFirst (net.vtxoChain c.vtxo) with
  | none => { w with captures := w.captures.eraseIdx i }
  | some ordered => { w with captures := w.captures.set i { c with phase := .ordered ordered } }

/-- The resolver writes what it fetched through to the repository before it answers. -/
def readThroughTxs (fresh : List String) : List VirtualTx :=
  fresh.map fun psbt ↦ ⟨net.psbtId psbt, some psbt, none, .unspecified⟩

def World.published (w : World r) (i : ℕ) (c : Capture) (ordered : List ChainTx)
    (psbts : List String) : World r :=
  { w with
    store := r.upsertVirtualTxs (virtualTxs (psbtByTxid net c.mode ordered psbts) ordered) w.store
    captures := w.captures.set i { c with phase := .published ordered } }

def World.finished (w : World r) (i : ℕ) (c : Capture) (ordered : List ChainTx) : World r where
  store := r.setBranch c.vtxo (branchRows c.vtxo (ordered.map (·.txid))) w.store
  captures := w.captures.eraseIdx i
  fullBranches := if c.mode = .full then c.vtxo :: w.fullBranches else w.fullBranches

def World.pruned (w : World r) (vtxo : Outpoint) : World r :=
  { w with
    store := r.pruneForSpentVtxo vtxo w.store
    fullBranches := w.fullBranches.filter (· ≠ vtxo) }

def step (w : World r) : Action → Option (World r)
  | .capture vtxo value mode minExitWorthSats => some (w.begin vtxo value mode minExitWorthSats)
  | .chainFails i =>
    match w.captures[i]? with
    | some ⟨_, _, .resolving⟩ => some { w with captures := w.captures.eraseIdx i }
    | _ => none
  | .chainAnswers i =>
    match w.captures[i]? with
    | some ⟨vtxo, mode, .resolving⟩ => some (w.chainAnswered net i ⟨vtxo, mode, .resolving⟩)
    | _ => none
  | .readThrough i fresh =>
    match w.captures[i]? with
    | some ⟨_, .full, .ordered ordered⟩ =>
      if fresh.all fun psbt ↦ net.psbtId psbt ∈ nonCommitment ordered then
        some { w with store := r.upsertVirtualTxs (readThroughTxs net fresh) w.store }
      else none
    | _ => none
  | .upsert i psbts =>
    match w.captures[i]? with
    | some ⟨vtxo, mode, .ordered ordered⟩ =>
      some (w.published net i ⟨vtxo, mode, .ordered ordered⟩ ordered psbts)
    | _ => none
  | .setBranch i =>
    match w.captures[i]? with
    | some ⟨vtxo, mode, .published ordered⟩ =>
      some (w.finished i ⟨vtxo, mode, .published ordered⟩ ordered)
    | _ => none
  | .prune vtxo => some (w.pruned vtxo)

/-- The stored branch of an output lists a transaction. -/
def References (w : World r) (vtxo : Outpoint) (txid : String) : Prop :=
  txid ∈ (r.getBranch w.store vtxo).map (·.txid)

/-- A record of a transaction of a chain: with a specific type once one was reported, and with its
PSBT when a full capture stored it. -/
structure Records (full : Prop) (c : ChainTx) (t : VirtualTx) : Prop where
  txid : t.txid = c.txid
  type : c.chainedType ≠ .unspecified → t.type ≠ .unspecified
  reported : ∃ vtxo, ∃ c' ∈ net.vtxoChain vtxo, c'.txid = c.txid ∧ c'.chainedType = t.type
  psbt : full → c.chainedType ≠ .commitment →
    ∃ psbt, t.psbt = some psbt ∧ net.psbtId psbt = c.txid

/-- Stored branches are complete, branches in progress have what they need, prunes leave what
other branches list, and nothing is left that no branch needs. -/
structure ExitDataKept (w : World r) : Prop where
  complete : ∀ vtxo, r.hasBranch w.store vtxo = true →
    ∃ ordered, ordered.Perm (net.vtxoChain vtxo) ∧ AncestorsFirst ordered ∧
      List.Forall₂ (Records net (vtxo ∈ w.fullBranches)) ordered (r.getBranch w.store vtxo)
  needed : ∀ c ∈ w.captures, ∀ ordered, c.phase = .published ordered → ∀ x ∈ ordered,
    ∃ t, r.getVirtualTx w.store x.txid = some t ∧ Records net (c.mode = .full) x t
  pruned : ∀ vtxo other, other ≠ vtxo → ∀ txid, References w other txid →
    r.getVirtualTx (w.pruned vtxo).store txid = r.getVirtualTx w.store txid
  collected : ∀ txid, r.getVirtualTx w.store txid ≠ none →
    (∃ vtxo, References w vtxo txid) ∨
      ∃ c ∈ w.captures, txid ∈ (net.vtxoChain c.vtxo).map (·.txid)

/-- No prune falls between the two writes of a capture that needs what only the pruned branch
lists, and full captures get every PSBT that they ask for. -/
def Safe (w : World r) : Action → Prop
  | .prune vtxo => ∀ c ∈ w.captures, ∀ ordered, c.phase = .published ordered →
      ∀ x ∈ ordered, References w vtxo x.txid → ∃ other ≠ vtxo, References w other x.txid
  | .upsert i psbts => ∀ c ordered, w.captures[i]? = some c → c.mode = .full →
      c.phase = .ordered ordered → ∀ txid ∈ nonCommitment ordered,
        ∃ psbt ∈ psbts, net.psbtId psbt = txid
  | _ => True

end Step

section Sample

/-- Two outputs below one tree transaction. -/
def sampleChain (vtxo : Outpoint) : List ChainTx :=
  [⟨vtxo.txid, "", .ark, ["tree"]⟩, ⟨"tree", "", .tree, ["root"]⟩, ⟨"root", "", .commitment, []⟩]

def sampleResolver : Resolver := ⟨sampleChain, fun psbt ↦ psbt⟩

/-- The branch of the first output is stored, the second has its transactions written when the
first is pruned. -/
def lossyRun : List Action :=
  [.capture ⟨"a", 0⟩ 5000 .full 1000, .chainAnswers 0, .upsert 0 ["tree", "a"], .setBranch 0,
    .capture ⟨"b", 0⟩ 5000 .full 1000, .chainAnswers 0, .upsert 0 ["tree", "b"],
    .prune ⟨"a", 0⟩, .setBranch 0]

/-- Everything is done, and the branch of the second output is stored without its ancestors. -/
def AncestorsLost (backend : Backend) : Prop :=
  ∃ w, exec (step sampleResolver) (World.start backend.repository) lossyRun = some w ∧
    w.captures = [] ∧ backend.repository.hasBranch w.store ⟨"b", 0⟩ = true ∧
    (backend.repository.getBranch w.store ⟨"b", 0⟩).map (·.txid) = ["b"] ∧
    ¬ExitDataKept sampleResolver w

theorem not_kept_of_one {r : VirtualTxRepository} {w : World r}
    (hbranch : r.hasBranch w.store ⟨"b", 0⟩ = true)
    (hone : (r.getBranch w.store ⟨"b", 0⟩).length = 1) : ¬ExitDataKept sampleResolver w := by
  intro h
  obtain ⟨ordered, hperm, -, hrecords⟩ := h.complete ⟨"b", 0⟩ hbranch
  have hthree : ordered.length = 3 := hperm.length_eq
  have heq := hrecords.length_eq
  omega

theorem shared_ancestors_lost : AncestorsLost .inMemory ∧ AncestorsLost .sqlite :=
  ⟨⟨_, rfl, rfl, rfl, rfl, not_kept_of_one rfl rfl⟩,
    ⟨_, rfl, rfl, rfl, rfl, not_kept_of_one rfl rfl⟩⟩

end Sample

end ArkadeSdk.Exit
