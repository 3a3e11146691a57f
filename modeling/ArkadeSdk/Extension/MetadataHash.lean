import ArkadeSdk.Extension.AssetWire
import ArkadeSdk.Lib.MerkleTree

/-! The root of a metadata list, and what it binds. -/

namespace ArkadeSdk.Asset

open WireFormat JsNumber Buffer

/-- The tagged hash of 32 bytes, and the order of bytes. -/
structure HashLibraries where
  taggedHash : String → Bytes → Bytes
  compareBytes : Bytes → Bytes → ℤ
  length_taggedHash : ∀ tag msg, (taggedHash tag msg).length = 32
  compareBytes_asymm : ∀ a b, compareBytes a b = -1 → compareBytes b a ≠ -1
  compareBytes_total : ∀ a b, compareBytes a b ≠ -1 → compareBytes b a ≠ -1 → a = b

namespace MetadataList

def ARK_LEAF_TAG : String := "ArkadeAssetLeaf"
def ARK_BRANCH_TAG : String := "ArkadeAssetBranch"
def ARK_LEAF_VERSION : UInt8 := 0x00

end MetadataList

open MetadataList

variable (H : HashLibraries)

def leafBytes (md : Metadata) : Bytes :=
  ARK_LEAF_VERSION :: (writeVarSlice md.key ++ writeVarSlice md.value)

def computeMetadataLeafHash (md : Metadata) : Bytes := H.taggedHash ARK_LEAF_TAG (leafBytes md)

/-- The smaller child comes first. -/
def branchBytes (a b : Bytes) : Bytes := if H.compareBytes a b = -1 then a ++ b else b ++ a

def computeMetadataBranchHash (a b : Bytes) : Bytes :=
  H.taggedHash ARK_BRANCH_TAG (branchBytes H a b)

def buildMetadataMerkleTree (leaves : List Metadata) : List (List Bytes) :=
  if leaves.length = 0 then []
  else MerkleTree.levels (computeMetadataBranchHash H) (leaves.map (computeMetadataLeafHash H))

/-- `undefined` where the last level has no node. -/
def MetadataList.hash (items : List Metadata) : Except Message (Option Bytes) := do
  rejectIf (items.length = 0) (message "missing metadata list")
  return (buildMetadataMerkleTree H items).getLast?.bind List.head?

variable {H}

theorem leafBytes_inj {md md' : Metadata} (h : md.validate = .ok ()) (h' : md'.validate = .ok ())
    (hbytes : leafBytes md = leafBytes md') : md = md' := by
  have hread := reads_metadata (Metadata.validate_ok.mp h) []
  have hread' := reads_metadata (Metadata.validate_ok.mp h') []
  have hserialize : md.serializeTo = md'.serializeTo := (List.cons.inj hbytes).2
  rw [hserialize, hread'] at hread
  cases hread
  rfl

theorem branchBytes_comm (a b : Bytes) : branchBytes H a b = branchBytes H b a := by
  unfold branchBytes
  by_cases hab : H.compareBytes a b = -1
  · rw [if_pos hab, if_neg (H.compareBytes_asymm a b hab)]
  · by_cases hba : H.compareBytes b a = -1
    · rw [if_neg hab, if_pos hba]
    · rw [H.compareBytes_total a b hab hba]

theorem branchBytes_inj {a b a' b' : Bytes} (ha : a.length = a'.length) (hb : a.length = b.length)
    (hb' : b.length = b'.length) (h : branchBytes H a b = branchBytes H a' b') :
    (a = a' ∧ b = b') ∨ (a = b' ∧ b = a') := by
  unfold branchBytes at h
  split at h <;> split at h
  · exact .inl (List.append_inj h ha)
  · exact .inr (List.append_inj h (by omega))
  · exact .inr (List.append_inj h (by omega)).symm
  · exact .inl (List.append_inj h (by omega)).symm

def metadataScheme (H : HashLibraries) : MerkleTree.Scheme Metadata (String × Bytes) Bytes where
  hash msg := H.taggedHash msg.1 msg.2
  leafMessage md := (ARK_LEAF_TAG, leafBytes md)
  branchMessage a b := (ARK_BRANCH_TAG, branchBytes H a b)
  leafMessage_ne _ _ _ h := absurd (Prod.mk.inj h).1 (by decide)
  branchMessage_inj _ _ _ _ h := branchBytes_inj (by simp only [H.length_taggedHash])
    (by simp only [H.length_taggedHash]) (by simp only [H.length_taggedHash]) (Prod.mk.inj h).2

/-- The tag and the message of every hash that is taken for the root. -/
def MetadataList.hashed (H : HashLibraries) (items : List Metadata) : List (String × Bytes) :=
  match MerkleTree.tree items with
  | some tree => (metadataScheme H).messages tree
  | none => []

theorem MetadataList.hash_eq_top {items : List Metadata} (h : items ≠ []) : hash H items =
    .ok (MerkleTree.top (computeMetadataBranchHash H) (items.map (computeMetadataLeafHash H))) := by
  refine then_ok.mpr ⟨rejectIf_ok.mpr (by simpa using h), ?_⟩
  rw [buildMetadataMerkleTree, if_neg (by simpa using h)]
  rfl

theorem MetadataList.hash_eq_root {items : List Metadata} (h : items ≠ []) :
    hash H items = .ok ((MerkleTree.tree items).map (metadataScheme H).root) := by
  rw [hash_eq_top h, ← MerkleTree.Scheme.top_eq_root]
  rfl

/-- The root binds the entries as a multiset, unless two of the hashed messages collide, and it does
not tell the order of a pair of leaves. -/
theorem MetadataList.hash_binds {items items' : List Metadata} (hne : items ≠ [])
    (hne' : items' ≠ []) (hvalid : ∀ md ∈ items, md.validate = .ok ())
    (hvalid' : ∀ md ∈ items', md.validate = .ok ())
    (hcollision : ∀ p ∈ hashed H items, ∀ q ∈ hashed H items',
      H.taggedHash p.1 p.2 = H.taggedHash q.1 q.2 → p = q) :
    (hash H items = hash H items' → items.Perm items') ∧
      ∀ front a b back, front.length % 2 = 0 →
        hash H (front ++ b :: a :: back) = hash H (front ++ a :: b :: back) := by
  constructor
  · intro hhash
    obtain ⟨t, ht⟩ := MerkleTree.tree_isSome hne
    obtain ⟨t', ht'⟩ := MerkleTree.tree_isSome hne'
    have hleaves := MerkleTree.leaves_tree ht
    have hleaves' := MerkleTree.leaves_tree ht'
    rw [hash_eq_root hne, hash_eq_root hne', ht, ht'] at hhash
    rw [hashed, hashed, ht, ht'] at hcollision
    have hroot : (metadataScheme H).root t = (metadataScheme H).root t' :=
      Option.some.inj (Except.ok.inj hhash)
    rw [← hleaves, ← hleaves']
    rw [← hleaves] at hvalid
    rw [← hleaves'] at hvalid'
    refine MerkleTree.Scheme.leaves_perm (fun md hmd md' hmd' hmessage ↦ ?_) hcollision hroot
    exact leafBytes_inj (hvalid md hmd) (hvalid' md' hmd') (Prod.mk.inj hmessage).2
  · intro front a b back heven
    rw [hash_eq_top (by simp), hash_eq_top (by simp)]
    simp only [List.map_append, List.map_cons]
    rw [MerkleTree.top_swap (fun x y ↦ congrArg _ (branchBytes_comm x y)) (by simpa using heven)]

/-- The order of @scure/btc-signer: by the first byte that differs, else by length. -/
def compareBytes : Bytes → Bytes → ℤ
  | [], [] => 0
  | [], _ :: _ => -1
  | _ :: _, [] => 1
  | a :: as, b :: bs => if a < b then -1 else if b < a then 1 else compareBytes as bs

theorem compareBytes_neg (a b : Bytes) : compareBytes a b = -compareBytes b a := by
  induction a, b using compareBytes.induct with
  | case1 => rfl
  | case2 => rfl
  | case3 => rfl
  | case4 a as b bs h => simp [compareBytes, h, UInt8.lt_asymm h]
  | case5 a as b bs h h' => simp [compareBytes, h, h']
  | case6 a as b bs h h' ih => simp [compareBytes, h, h', ih]

theorem eq_of_compareBytes {a b : Bytes} (h : compareBytes a b = 0) : a = b := by
  induction a, b using compareBytes.induct with
  | case1 => rfl
  | case2 => cases h
  | case3 => cases h
  | case4 a as b bs hlt => simp [compareBytes, hlt] at h
  | case5 a as b bs hlt hlt' => simp [compareBytes, hlt, hlt'] at h
  | case6 a as b bs hlt hlt' ih =>
    have heq : a = b := UInt8.le_antisymm (UInt8.not_lt.mp hlt') (UInt8.not_lt.mp hlt)
    rw [heq, ih (by simpa [compareBytes, hlt, hlt'] using h)]

theorem compareBytes_range (a b : Bytes) :
    compareBytes a b = -1 ∨ compareBytes a b = 0 ∨ compareBytes a b = 1 := by
  induction a, b using compareBytes.induct with
  | case1 => simp [compareBytes]
  | case2 => simp [compareBytes]
  | case3 => simp [compareBytes]
  | case4 a as b bs h => simp [compareBytes, h]
  | case5 a as b bs h h' => simp [compareBytes, h, h']
  | case6 a as b bs h h' ih => simpa [compareBytes, h, h'] using ih

/-- Enough of a hash for two entries: the length of the tag and the first bytes of the message. -/
def shortHash (tag : String) (msg : Bytes) : Bytes :=
  (UInt8.ofNat tag.length :: (msg.take 31)) ++ List.replicate (31 - msg.length) 0

def shortLibraries : HashLibraries where
  taggedHash := shortHash
  compareBytes := compareBytes
  length_taggedHash tag msg := by simp [shortHash]; omega
  compareBytes_asymm a b h h' := by
    rw [compareBytes_neg, h'] at h
    cases h
  compareBytes_total a b h h' := by
    have hneg := compareBytes_neg a b
    rcases compareBytes_range a b with hab | hab | hab
    · exact absurd hab h
    · exact eq_of_compareBytes hab
    · exact absurd (by omega) h'

theorem MetadataList.swapped_pair_bound :
    (hash shortLibraries [⟨[1], [2]⟩, ⟨[3], [4]⟩] = hash shortLibraries [⟨[3], [4]⟩, ⟨[1], [2]⟩] →
      [(⟨[1], [2]⟩ : Metadata), ⟨[3], [4]⟩].Perm [⟨[3], [4]⟩, ⟨[1], [2]⟩]) ∧
      ∀ front a b back, front.length % 2 = 0 → hash shortLibraries (front ++ b :: a :: back) =
        hash shortLibraries (front ++ a :: b :: back) := by
  have htree (x y : Metadata) : MerkleTree.tree [x, y] = some (.branch (.leaf x) (.leaf y)) := by
    rw [MerkleTree.tree, MerkleTree.top_next (by simp), MerkleTree.top_of_length_le (by rfl)]
    rfl
  refine hash_binds (List.cons_ne_nil _ _) (List.cons_ne_nil _ _) (by decide) (by decide) ?_
  rw [hashed, hashed, htree, htree]
  decide

end ArkadeSdk.Asset
