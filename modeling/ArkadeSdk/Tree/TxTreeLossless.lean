import ArkadeSdk.Tree.TxTreeDistinct
import Mathlib.Data.List.Perm.Subperm
import Mathlib.Order.Interval.Finset.Nat

/-! Building a tree from what a server sent: that it ends, and when every chunk is in what it
returns. -/

namespace ArkadeSdk.BatchTree

open WireFormat JsNumber

/-- `TxTree.create` on a stack of another depth. -/
def TxTree.createWithin (lib : TxLibrary) (depth : ℕ) (chunks : List TxTreeNode) :
    Except Message TxTree := do
  rejectIf (chunks = []) (message "empty chunks")
  let byTxid ← chunksByTxid lib [] chunks
  match (byTxid.map (·.1)).filter fun txid ↦ !isChild byTxid txid with
  | [] => throw (message "no root chunk found")
  | [rootTxid] =>
    match ← buildGraph byTxid depth rootTxid with
    | none => throw (message ("chunk not found for root txid: " ++ rootTxid))
    | some graph =>
      rejectIf (graph.nbOfNodes ≠ chunks.length)
        [.text "number of chunks (", .value (.ofNat chunks.length),
          .text ") is not equal to the number of nodes in the graph (",
          .value (.ofNat graph.nbOfNodes), .text ")"]
      return graph
  | rootTxids => throw (message
      ("multiple root chunks found: " ++ String.intercalate ", " rootTxids))

section

variable {chunks : Chunks}

def overflow : Message := message "Maximum call stack size exceeded"

/-- The recursion from `txid` ends within `depth` calls. -/
def Ends (chunks : Chunks) (depth : ℕ) (txid : Txid) : Prop :=
  ∃ x, buildGraph chunks depth txid = .ok x

theorem buildChildren_error {build : Txid → Except Message (Option TxTree)} {e : Message}
    (hbuild : ∀ txid e', build txid = .error e' → e' = e) {children : Children}
    {l : List (OutputIndex × Txid)} {e' : Message}
    (h : buildChildren build children l = .error e') : e' = e := by
  induction l generalizing children with
  | nil => cases h
  | cons c l ih =>
    unfold buildChildren at h
    cases hc : build c.2 with
    | error e'' =>
      rw [hc] at h
      cases h
      exact hbuild _ _ hc
    | ok x =>
      rw [hc] at h
      cases x with
      | none => exact ih h
      | some child => exact ih h

theorem buildGraph_error {depth : ℕ} {txid : Txid} {e : Message}
    (h : buildGraph chunks depth txid = .error e) : e = overflow := by
  induction depth generalizing txid e with
  | zero =>
    cases h
    rfl
  | succ depth ih =>
    unfold buildGraph at h
    split at h
    · cases h
    · next chunk _ =>
      cases hchildren : buildChildren (buildGraph chunks depth) .nil chunk.children with
      | error e' =>
        rw [hchildren] at h
        cases h
        exact buildChildren_error (fun _ _ ↦ ih) hchildren
      | ok children =>
        rw [hchildren] at h
        cases h

theorem buildChildren_congr {build build' : Txid → Except Message (Option TxTree)}
    {l : List (OutputIndex × Txid)} (h : ∀ c ∈ l, build c.2 = build' c.2) (children : Children) :
    buildChildren build children l = buildChildren build' children l := by
  induction l generalizing children with
  | nil => rfl
  | cons c l ih =>
    have hrest := fun next ↦ ih (fun c' hc' ↦ h c' (List.mem_cons_of_mem _ hc')) next
    unfold buildChildren
    rw [h c List.mem_cons_self]
    refine congrArg _ (funext fun x ↦ ?_)
    cases x with
    | none => exact hrest _
    | some child => exact hrest _

theorem buildChildren_ends {build : Txid → Except Message (Option TxTree)}
    {l : List (OutputIndex × Txid)} (h : ∀ c ∈ l, ∃ x, build c.2 = .ok x) (children : Children) :
    ∃ built, buildChildren build children l = .ok built := by
  induction l generalizing children with
  | nil => exact ⟨children, rfl⟩
  | cons c l ih =>
    obtain ⟨x, hx⟩ := h c List.mem_cons_self
    unfold buildChildren
    rw [hx]
    cases x with
    | none => exact ih (fun c' hc' ↦ h c' (List.mem_cons_of_mem _ hc')) _
    | some child => exact ih (fun c' hc' ↦ h c' (List.mem_cons_of_mem _ hc')) _

theorem ends_succ {depth : ℕ} {txid : Txid} : Ends chunks (depth + 1) txid ↔
    ∀ chunk, JsMap.get chunks txid = some chunk → ∀ c ∈ chunk.children, Ends chunks depth c.2 := by
  constructor
  · rintro ⟨x, hx⟩ chunk hget
    unfold buildGraph at hx
    rw [hget] at hx
    obtain ⟨built, hbuilt, -⟩ := bind_ok.mp hx
    exact (buildChildren_ok hbuilt List.nodup_nil).2.1
  · intro h
    unfold Ends buildGraph
    cases hget : JsMap.get chunks txid with
    | none => exact ⟨none, rfl⟩
    | some chunk =>
      obtain ⟨built, hbuilt⟩ := buildChildren_ends (h chunk hget) .nil
      exact ⟨_, bind_ok.mpr ⟨built, hbuilt, rfl⟩⟩

theorem buildGraph_deeper {depth : ℕ} {txid : Txid} (h : Ends chunks depth txid) (extra : ℕ) :
    buildGraph chunks (depth + extra) txid = buildGraph chunks depth txid := by
  induction depth generalizing txid with
  | zero =>
    obtain ⟨x, hx⟩ := h
    cases hx
  | succ depth ih =>
    have hchildren := ends_succ.mp h
    rw [Nat.add_right_comm]
    unfold buildGraph
    cases hget : JsMap.get chunks txid with
    | none => rfl
    | some chunk =>
      dsimp only
      rw [buildChildren_congr fun c hc ↦ ih (hchildren chunk hget c hc)]

theorem Ends.mono {depth depth' : ℕ} {txid : Txid} (h : Ends chunks depth txid)
    (hle : depth ≤ depth') : Ends chunks depth' txid := by
  obtain ⟨extra, rfl⟩ := Nat.exists_eq_add_of_le hle
  obtain ⟨x, hx⟩ := h
  exact ⟨x, (buildGraph_deeper ⟨x, hx⟩ extra).trans hx⟩

/-- A recursion of `depth + 2` calls passes through a chunk for every smaller number. -/
theorem ends_chain {depth : ℕ} {txid : Txid} (h : Ends chunks (depth + 1) txid)
    (hnot : ¬Ends chunks depth txid) : ∀ j ≤ depth, ∃ u, Ends chunks (j + 1) u ∧ ¬Ends chunks j u ∧
      (0 < j → (JsMap.get chunks u).isSome) := by
  induction depth generalizing txid with
  | zero =>
    intro j hj
    obtain rfl := Nat.le_zero.mp hj
    exact ⟨txid, h, hnot, fun hpos ↦ absurd hpos (Nat.lt_irrefl _)⟩
  | succ depth ih =>
    have hchildren := ends_succ.mp h
    rw [ends_succ] at hnot
    push Not at hnot
    obtain ⟨chunk, hget, c, hc, hchild⟩ := hnot
    intro j hj
    rcases Nat.lt_or_eq_of_le hj with hlt | rfl
    · exact ih (hchildren chunk hget c hc) hchild j (Nat.le_of_lt_succ hlt)
    · refine ⟨txid, h, ?_, fun _ ↦ by rw [hget]; rfl⟩
      rw [ends_succ]
      exact fun hall ↦ hchild (hall chunk hget c hc)

/-- As many calls as there are chunks, and one more, are enough or nothing is. -/
theorem ends_within {depth : ℕ} {txid : Txid} (h : Ends chunks depth txid) :
    Ends chunks (chunks.length + 1) txid := by
  classical
  have hsome : ∃ n, Ends chunks n txid := ⟨depth, h⟩
  obtain ⟨least, hleast, hmin⟩ : ∃ least, Ends chunks least txid ∧
      ∀ m < least, ¬Ends chunks m txid :=
    ⟨Nat.find hsome, Nat.find_spec hsome, fun m hm ↦ Nat.find_min hsome hm⟩
  cases least with
  | zero => exact hleast.mono (Nat.zero_le _)
  | succ least =>
    refine hleast.mono (Nat.succ_le_succ ?_)
    choose! u hends hnot hsome using ends_chain hleast (hmin least (Nat.lt_succ_self _))
    have hmaps : ∀ j ∈ Finset.Icc 1 least, u j ∈ (chunks.map Prod.fst).toFinset := by
      intro j hj
      obtain ⟨hpos, hle⟩ := Finset.mem_Icc.mp hj
      obtain ⟨chunk, hget⟩ := Option.isSome_iff_exists.mp (hsome j hle hpos)
      exact List.mem_toFinset.mpr (List.mem_map.mpr ⟨_, JsMap.mem_of_get hget, rfl⟩)
    have hinj : Set.InjOn u (Finset.Icc 1 least : Finset ℕ) := by
      intro i hi j hj heq
      have hi := (Finset.mem_Icc.mp hi).2
      have hj := (Finset.mem_Icc.mp hj).2
      by_contra hne
      rcases Nat.lt_or_gt_of_ne hne with hlt | hgt
      · exact hnot j hj (heq ▸ (hends i hi).mono hlt)
      · exact hnot i hi (heq ▸ (hends j hj).mono hgt)
    have hcard := Finset.card_le_card_of_injOn u hmaps hinj
    rw [Nat.card_Icc, Nat.add_sub_cancel] at hcard
    exact hcard.trans ((List.toFinset_card_le _).trans_eq (List.length_map _))

theorem buildGraph_within {depth : ℕ} {txid : Txid} (hdepth : chunks.length < depth) :
    buildGraph chunks depth txid = buildGraph chunks (chunks.length + 1) txid := by
  obtain ⟨extra, rfl⟩ := Nat.exists_eq_add_of_lt hdepth
  cases h : buildGraph chunks (chunks.length + 1) txid with
  | ok x =>
    have hdeeper := buildGraph_deeper ⟨x, h⟩ extra
    rw [h] at hdeeper
    rw [← hdeeper]
    congr 1
    omega
  | error e =>
    obtain rfl := buildGraph_error h
    cases h' : buildGraph chunks (chunks.length + extra + 1) txid with
    | error e' => rw [buildGraph_error h']
    | ok x =>
      obtain ⟨y, hy⟩ := ends_within ⟨x, h'⟩
      rw [h] at hy
      cases hy

end

/-- The map of the chunks, from those that are in it already. -/
def index (id : Transaction → Txid) (byTxid : Chunks) (decoded : List DecodedNode) : Chunks :=
  decoded.foldl (fun byTxid d ↦ JsMap.set (id d.tx) d byTxid) byTxid

theorem chunksByTxid_eq {lib : TxLibrary} {chunks : List TxTreeNode} {decoded : List DecodedNode}
    (h : chunks.mapM (decodeNode lib) = .ok decoded) (byTxid : Chunks) :
    chunksByTxid lib byTxid chunks = .ok (index lib.id byTxid decoded) := by
  induction chunks generalizing decoded byTxid with
  | nil =>
    cases h
    rfl
  | cons chunk chunks ih =>
    obtain ⟨d, hd, ds, hds, rfl⟩ := mapM_cons_ok.mp h
    exact bind_ok.mpr ⟨d, hd, ih hds _⟩

theorem index_nodup {id : Transaction → Txid} {decoded : List DecodedNode} {byTxid : Chunks}
    (h : (byTxid.map Prod.fst ++ decoded.map fun d ↦ id d.tx).Nodup) :
    index id byTxid decoded = byTxid ++ decoded.map fun d ↦ (id d.tx, d) := by
  induction decoded generalizing byTxid with
  | nil => simp [index]
  | cons d decoded ih =>
    have hnew : id d.tx ∉ byTxid.map Prod.fst := by
      intro hmem
      exact (List.nodup_append.mp h).2.2 _ hmem _ List.mem_cons_self rfl
    have hset := JsMap.set_new d hnew
    have hnext : ((JsMap.set (id d.tx) d byTxid).map Prod.fst ++
        decoded.map fun d ↦ id d.tx).Nodup := by
      rw [hset, List.map_append, List.append_assoc]
      exact h
    have hstep : index id byTxid (d :: decoded) = index id (JsMap.set (id d.tx) d byTxid) decoded :=
      rfl
    rw [hstep, ih hnext, hset, List.append_assoc]
    rfl

theorem length_chunksByTxid_le {lib : TxLibrary} {byTxid chunks : Chunks}
    {nodes : List TxTreeNode} (h : chunksByTxid lib byTxid nodes = .ok chunks) :
    chunks.length ≤ byTxid.length + nodes.length := by
  induction nodes generalizing byTxid with
  | nil =>
    cases h
    exact le_rfl
  | cons node nodes ih =>
    obtain ⟨d, hd, h⟩ := bind_ok.mp h
    have hrest := ih h
    have hset := JsMap.length_set_le (lib.id d.tx) d byTxid
    rw [List.length_cons]
    omega

mutual

/-- The ids of the nodes, a parent before its children. -/
def TxTree.txids (id : Transaction → Txid) : TxTree → List Txid
  | .node root children => id root :: children.txids id

def Children.txids (id : Transaction → Txid) : Children → List Txid
  | .nil => []
  | .cons _ child rest => child.txids id ++ rest.txids id

end

def supplied (id : Transaction → Txid) (decoded : List DecodedNode) (chunk : DecodedNode) :
    List (OutputIndex × Txid) :=
  chunk.children.filter fun c ↦ c.2 ∈ decoded.map fun d ↦ id d.tx

/-- Each chunk is one node, and a node's children are those that its chunk lists and that were
sent. -/
structure Lossless (id : Transaction → Txid) (decoded : List DecodedNode) (tree : TxTree) :
    Prop where
  once : ∀ d ∈ decoded, (tree.txids id).count (id d.tx) = 1
  children : ∀ path sub, At tree path sub → ∃ d ∈ decoded, d.tx = sub.root ∧
    ∀ txid, txid ∈ sub.children.toList.map (fun e ↦ id e.2.root) ↔
      txid ∈ (supplied id decoded d).map Prod.snd

def setAll {ν : Type} (m : JsMap.Entries OutputIndex ν) (l : List (OutputIndex × ν)) :
    JsMap.Entries OutputIndex ν :=
  l.foldl (fun m c ↦ JsMap.set c.1 c.2 m) m

/-- Of the children that were sent, the last one for each output. -/
def childTxids (id : Transaction → Txid) (decoded : List DecodedNode) (chunk : DecodedNode) :
    List Txid :=
  (setAll [] (supplied id decoded chunk)).map Prod.snd

/-- The chunks are of different transactions, no child that was sent gives way to another one of
the same output, and none has two places. -/
structure Unambiguous (id : Transaction → Txid) (decoded : List DecodedNode) : Prop where
  chunks : (decoded.map fun d ↦ id d.tx).Nodup
  children : ∀ d ∈ decoded, (supplied id decoded d).map Prod.snd ⊆ childTxids id decoded d
  places : (decoded.flatMap (childTxids id decoded)).Nodup

section

variable {id : Transaction → Txid}

mutual

theorem TxTree.length_txids (tree : TxTree) : (tree.txids id).length = tree.nbOfNodes := by
  match tree with
  | .node root children =>
    rw [TxTree.txids, TxTree.nbOfNodes, List.length_cons, Children.length_txids children,
      Nat.add_comm]

theorem Children.length_txids (children : Children) :
    (children.txids id).length = children.nbOfNodes := by
  match children with
  | .nil => rfl
  | .cons outputIndex child rest =>
    rw [Children.txids, Children.nbOfNodes, List.length_append, TxTree.length_txids child,
      Children.length_txids rest]

end

mutual

theorem TxTree.txids_at (tree : TxTree) :
    ∀ txid ∈ tree.txids id, ∃ path sub, At tree path sub ∧ id sub.root = txid := by
  match tree with
  | .node root children =>
    intro txid htxid
    rcases List.mem_cons.mp htxid with rfl | htxid
    · exact ⟨[], _, .root, rfl⟩
    · obtain ⟨e, he, path, sub, hat, hsub⟩ := Children.txids_at children txid htxid
      exact ⟨path ++ [e.1], sub, (At.child .root he).trans hat, hsub⟩

theorem Children.txids_at (children : Children) :
    ∀ txid ∈ children.txids id, ∃ e ∈ children.toList, ∃ path sub, At e.2 path sub ∧
      id sub.root = txid := by
  match children with
  | .nil =>
    intro txid htxid
    cases htxid
  | .cons outputIndex child rest =>
    intro txid htxid
    rcases List.mem_append.mp htxid with htxid | htxid
    · obtain ⟨path, sub, hat, hsub⟩ := TxTree.txids_at child txid htxid
      exact ⟨(outputIndex, child), List.mem_cons_self, path, sub, hat, hsub⟩
    · obtain ⟨e, he, hrest⟩ := Children.txids_at rest txid htxid
      exact ⟨e, List.mem_cons_of_mem _ he, hrest⟩

end

mutual

theorem TxTree.txids_nodup (tree : TxTree) (hdistinct : Distinct id tree) (hkeyed : Keyed tree) :
    (tree.txids id).Nodup := by
  match tree with
  | .node root children =>
    refine List.nodup_cons.mpr ⟨?_, ?_⟩
    · intro hroot
      obtain ⟨e, he, path, sub, hat, hsub⟩ := Children.txids_at children _ hroot
      have hbelow : At (.node root children) (path ++ [e.1]) sub := (At.child .root he).trans hat
      have hpath := hdistinct _ _ _ _ hbelow .root hsub
      simp at hpath
    · exact Children.txids_nodup children (hkeyed _ _ .root) (fun e he ↦ hdistinct.child he)
        (fun e he ↦ hkeyed.child he) fun e he e' he' hne _ _ _ _ ↦ hdistinct.apart he he' hne

theorem Children.txids_nodup (children : Children)
    (hkeys : (children.toList.map Prod.fst).Nodup)
    (hdistinct : ∀ e ∈ children.toList, Distinct id e.2)
    (hkeyed : ∀ e ∈ children.toList, Keyed e.2)
    (hapart : ∀ e ∈ children.toList, ∀ e' ∈ children.toList, e.1 ≠ e'.1 →
      ∀ path path' sub sub', At e.2 path sub → At e'.2 path' sub' → id sub.root ≠ id sub'.root) :
    (children.txids id).Nodup := by
  match children with
  | .nil => exact List.nodup_nil
  | .cons outputIndex child rest =>
    obtain ⟨hnew, hrest⟩ := List.nodup_cons.mp hkeys
    have hhead := TxTree.txids_nodup child (hdistinct _ List.mem_cons_self)
      (hkeyed _ List.mem_cons_self)
    have htail := Children.txids_nodup rest hrest
      (fun e he ↦ hdistinct e (List.mem_cons_of_mem _ he))
      (fun e he ↦ hkeyed e (List.mem_cons_of_mem _ he))
      fun e he e' he' ↦ hapart e (List.mem_cons_of_mem _ he) e' (List.mem_cons_of_mem _ he')
    refine List.nodup_append.mpr ⟨hhead, htail, ?_⟩
    rintro txid htxid _ htxid' rfl
    obtain ⟨path, sub, hat, hsub⟩ := TxTree.txids_at child txid htxid
    obtain ⟨e, he, path', sub', hat', hsub'⟩ := Children.txids_at rest txid htxid'
    have hne : outputIndex ≠ e.1 := by
      intro heq
      exact hnew (List.mem_map.mpr ⟨e, he, heq.symm⟩)
    exact hapart (outputIndex, child) List.mem_cons_self e (List.mem_cons_of_mem _ he) hne
      path path' sub sub' hat hat' (hsub.trans hsub'.symm)

end

def Children.ids (id : Transaction → Txid) (children : Children) : List Txid :=
  children.toList.map fun e ↦ id e.2.root

mutual

theorem TxTree.txids_perm {next : Txid → List Txid} (tree : TxTree)
    (h : ∀ path sub, At tree path sub → next (id sub.root) = sub.children.ids id) :
    (id tree.root :: (tree.txids id).flatMap next).Perm (tree.txids id) := by
  match tree with
  | .node root children =>
    have hroot : next (id root) = children.ids id := h _ _ .root
    rw [TxTree.txids, List.flatMap_cons, hroot]
    refine (Children.txids_perm children fun e he path sub hat ↦ ?_).cons _
    exact h _ _ ((At.child .root he).trans hat)

theorem Children.txids_perm {next : Txid → List Txid} (children : Children)
    (h : ∀ e ∈ children.toList, ∀ path sub, At e.2 path sub →
      next (id sub.root) = sub.children.ids id) :
    (children.ids id ++ (children.txids id).flatMap next).Perm (children.txids id) := by
  match children with
  | .nil => exact .refl _
  | .cons outputIndex child rest =>
    have hhead := TxTree.txids_perm child (h _ List.mem_cons_self)
    have htail := Children.txids_perm rest fun e he ↦ h e (List.mem_cons_of_mem _ he)
    have hids : (Children.cons outputIndex child rest).ids id = id child.root :: rest.ids id := rfl
    rw [hids, Children.txids, List.flatMap_append]
    refine .trans ?_ (hhead.append htail)
    rw [List.cons_append, List.cons_append, ← List.append_assoc, ← List.append_assoc]
    exact ((List.perm_append_comm.append_right _).cons _)

end

end

section

variable {id : Transaction → Txid}

theorem mapM_length {lib : TxLibrary} {nodes : List TxTreeNode} {decoded : List DecodedNode}
    (h : nodes.mapM (decodeNode lib) = .ok decoded) : decoded.length = nodes.length := by
  induction nodes generalizing decoded with
  | nil =>
    cases h
    rfl
  | cons node nodes ih =>
    obtain ⟨d, -, ds, hds, rfl⟩ := mapM_cons_ok.mp h
    rw [List.length_cons, List.length_cons, ih hds]

def childId (id : Transaction → Txid) (e : OutputIndex × TxTree) : OutputIndex × Txid :=
  (e.1, id e.2.root)

theorem map_set (i : OutputIndex) (child : TxTree) (l : JsMap.Entries OutputIndex TxTree) :
    (JsMap.set i child l).map (childId id) = JsMap.set i (id child.root) (l.map (childId id)) := by
  induction l with
  | nil => rfl
  | cons e l ih =>
    obtain ⟨j, other⟩ := e
    have hhead : childId id (j, other) = (j, id other.root) := rfl
    rw [JsMap.set, List.map_cons, hhead, JsMap.set]
    split
    · rfl
    · rw [List.map_cons, ih, hhead]

theorem mem_setAll {ν : Type} {m : JsMap.Entries OutputIndex ν} {l : List (OutputIndex × ν)}
    {e : OutputIndex × ν} (h : e ∈ setAll m l) : e ∈ m ∨ e ∈ l := by
  induction l generalizing m with
  | nil => exact .inl h
  | cons c l ih =>
    rcases ih h with h | h
    · rcases JsMap.mem_set h with h | rfl
      · exact .inl h
      · exact .inr List.mem_cons_self
    · exact .inr (List.mem_cons_of_mem _ h)

theorem childTxids_subset (id : Transaction → Txid) (decoded : List DecodedNode)
    (chunk : DecodedNode) :
    childTxids id decoded chunk ⊆ (supplied id decoded chunk).map Prod.snd := by
  intro txid htxid
  obtain ⟨c, hc, rfl⟩ := List.mem_map.mp htxid
  rcases mem_setAll hc with hc | hc
  · cases hc
  · exact List.mem_map.mpr ⟨c, hc, rfl⟩

theorem buildChildren_ids {build : Txid → Except Message (Option TxTree)} {found : Txid → Bool}
    (hsome : ∀ txid tree, build txid = .ok (some tree) → id tree.root = txid ∧ found txid = true)
    (hnone : ∀ txid, build txid = .ok none → found txid = false) {children built : Children}
    {l : List (OutputIndex × Txid)} (h : buildChildren build children l = .ok built) :
    built.toList.map (childId id) =
      setAll (children.toList.map (childId id)) (l.filter fun c ↦ found c.2) := by
  induction l generalizing children with
  | nil =>
    cases h
    rfl
  | cons c l ih =>
    obtain ⟨x, hx, h⟩ := bind_ok.mp h
    cases x with
    | none =>
      rw [List.filter_cons_of_neg (by simp [hnone _ hx])]
      exact ih h
    | some child =>
      obtain ⟨hid, hfound⟩ := hsome _ _ hx
      have hlist : (children.set c.1 child).toList = JsMap.set c.1 child children.toList :=
        Children.toList_ofList _
      have hkeep : (c :: l).filter (fun c ↦ found c.2) = c :: l.filter (fun c ↦ found c.2) :=
        List.filter_cons_of_pos hfound
      rw [hkeep, ih h, hlist, map_set, hid]
      rfl

theorem buildGraph_none {chunks : Chunks} {depth : ℕ} {txid : Txid}
    (h : buildGraph chunks depth txid = .ok none) : JsMap.get chunks txid = none := by
  cases depth with
  | zero => cases h
  | succ depth =>
    unfold buildGraph at h
    cases hget : JsMap.get chunks txid with
    | none => rfl
    | some chunk =>
      rw [hget] at h
      obtain ⟨children, -, h⟩ := bind_ok.mp h
      cases h

/-- A node is a chunk with the children of it that are there. -/
def Placed (id : Transaction → Txid) (chunks : Chunks) (tree : TxTree) : Prop :=
  ∃ chunk, JsMap.get chunks (id tree.root) = some chunk ∧ chunk.tx = tree.root ∧
    tree.children.toList.map (childId id) =
      setAll [] (chunk.children.filter fun c ↦ (JsMap.get chunks c.2).isSome)

theorem buildGraph_placed {lib : TxLibrary} {chunks : Chunks} (hindexed : Indexed lib chunks)
    {depth : ℕ} {txid : Txid} {tree : TxTree}
    (h : buildGraph chunks depth txid = .ok (some tree)) {path : List OutputIndex} {sub : TxTree}
    (hat : At tree path sub) : Placed lib.id chunks sub := by
  induction depth generalizing txid tree path sub with
  | zero => cases h
  | succ depth ih =>
    unfold buildGraph at h
    cases hget : JsMap.get chunks txid with
    | none =>
      rw [hget] at h
      cases h
    | some chunk =>
      rw [hget] at h
      obtain ⟨children, hchildren, h⟩ := bind_ok.mp h
      cases h
      rcases hat.from_root with ⟨-, rfl⟩ | ⟨e, he, path', hat⟩
      · refine ⟨chunk, ?_, rfl, ?_⟩
        · have hid : lib.id chunk.tx = txid := (hindexed txid chunk hget).1
          rw [← hget, ← hid]
          rfl
        refine @buildChildren_ids lib.id _ (fun txid ↦ (JsMap.get chunks txid).isSome) ?_ ?_ .nil
          children _ hchildren
        · intro child tree htree
          have hid := (buildGraph_ok hindexed htree).1
          obtain ⟨chunk, hchunk, -⟩ := ih htree .root
          rw [hid] at hchunk
          rw [hchunk]
          exact ⟨hid, rfl⟩
        · intro child hnone
          rw [buildGraph_none hnone]
          rfl
      · obtain ⟨-, -, hmem⟩ := buildChildren_ok hchildren List.nodup_nil
        rcases hmem e he with he | ⟨c, -, hbuild⟩
        · cases he
        · exact ih hbuild hat

theorem mem_index {byTxid : Chunks} {decoded : List DecodedNode} {txid : Txid} {d : DecodedNode}
    (h : JsMap.get (index id byTxid decoded) txid = some d) :
    d ∈ decoded ∨ JsMap.get byTxid txid = some d := by
  induction decoded generalizing byTxid with
  | nil => exact .inr h
  | cons d' decoded ih =>
    rcases ih h with h | h
    · exact .inl (List.mem_cons_of_mem _ h)
    · rw [JsMap.get_set] at h
      split at h
      · cases h
        exact .inl List.mem_cons_self
      · exact .inr h

theorem isSome_index {byTxid : Chunks} {decoded : List DecodedNode} {txid : Txid} :
    (JsMap.get (index id byTxid decoded) txid).isSome ↔
      (JsMap.get byTxid txid).isSome ∨ txid ∈ decoded.map fun d ↦ id d.tx := by
  induction decoded generalizing byTxid with
  | nil => simp [index]
  | cons d decoded ih =>
    have hstep : index id byTxid (d :: decoded) = index id (JsMap.set (id d.tx) d byTxid) decoded :=
      rfl
    rw [hstep, ih, JsMap.get_set, List.map_cons, List.mem_cons]
    by_cases hid : id d.tx = txid
    · simp [hid]
    · have hne : ¬txid = id d.tx := fun heq ↦ hid heq.symm
      simp [hid, hne]

theorem get_index {decoded : List DecodedNode} (h : (decoded.map fun d ↦ id d.tx).Nodup)
    {d : DecodedNode} (hd : d ∈ decoded) :
    JsMap.get (index id [] decoded) (id d.tx) = some d := by
  have hindex : index id [] decoded = decoded.map fun d ↦ (id d.tx, d) := index_nodup h
  refine JsMap.get_of_mem ?_ ?_
  · rw [hindex, List.map_map]
    exact h
  · rw [hindex]
    exact List.mem_map.mpr ⟨d, hd, rfl⟩

end

section

variable {lib : TxLibrary} {nodes : List TxTreeNode} {decoded : List DecodedNode} {tree : TxTree}

/-- What is returned was built from the only chunk that no other one lists, and has as many nodes
as there are chunks. -/
theorem create_ok (hdecoded : nodes.mapM (decodeNode lib) = .ok decoded)
    (h : TxTree.create lib nodes = .ok tree) :
    Indexed lib (index lib.id [] decoded) ∧ tree.nbOfNodes = decoded.length ∧
      isChild (index lib.id [] decoded) (lib.id tree.root) = false ∧
      ∃ depth, buildGraph (index lib.id [] decoded) depth (lib.id tree.root) = .ok (some tree) := by
  obtain ⟨-, h⟩ := then_ok.mp h
  obtain ⟨chunks, hchunks, h⟩ := bind_ok.mp h
  have hindexed : Indexed lib chunks := chunksByTxid_indexed hchunks fun _ _ h ↦ (by cases h)
  rw [chunksByTxid_eq hdecoded] at hchunks
  cases hchunks
  split at h
  · cases h
  · next rootTxid hrootTxids =>
    obtain ⟨graph, hgraph, h⟩ := bind_ok.mp h
    cases graph with
    | none => cases h
    | some graph =>
      obtain ⟨hcount, h⟩ := then_ok.mp h
      obtain rfl := pure_ok.mp h
      have hcount : graph.nbOfNodes = nodes.length := by simpa using hcount
      have hid := (buildGraph_ok hindexed hgraph).1
      have hmem : rootTxid ∈ ((index lib.id [] decoded).map (·.1)).filter fun txid ↦
          !isChild (index lib.id [] decoded) txid := by
        rw [hrootTxids]
        exact List.mem_singleton_self _
      refine ⟨hindexed, hcount.trans (mapM_length hdecoded).symm, ?_,
        (index lib.id [] decoded).length + 1, ?_⟩
      · rw [hid]
        simpa using (List.mem_filter.mp hmem).2
      · rw [hid]
        exact hgraph
  · cases h

/-- A node's chunk was sent, and its children are those that are last for an output. -/
theorem create_placed (hdecoded : nodes.mapM (decodeNode lib) = .ok decoded)
    (h : TxTree.create lib nodes = .ok tree) {path : List OutputIndex} {sub : TxTree}
    (hat : At tree path sub) : ∃ d ∈ decoded,
      JsMap.get (index lib.id [] decoded) (lib.id sub.root) = some d ∧ d.tx = sub.root ∧
      sub.children.toList.map (childId lib.id) = setAll [] (supplied lib.id decoded d) := by
  obtain ⟨hindexed, -, -, depth, hgraph⟩ := create_ok hdecoded h
  obtain ⟨d, hget, htx, hchildren⟩ := buildGraph_placed hindexed hgraph hat
  have hd : d ∈ decoded := (mem_index hget).resolve_right fun hnil ↦ (by cases hnil)
  refine ⟨d, hd, hget, htx, hchildren.trans ?_⟩
  refine congrArg _ (List.filter_congr fun c _ ↦ ?_)
  have hsome : (JsMap.get (index lib.id [] decoded) c.2).isSome ↔
      (JsMap.get ([] : Chunks) c.2).isSome ∨ c.2 ∈ decoded.map fun d ↦ lib.id d.tx := isSome_index
  rw [Bool.eq_iff_iff, decide_eq_true_iff, hsome]
  simp

theorem childTxids_eq {sub : TxTree} {d : DecodedNode}
    (h : sub.children.toList.map (childId lib.id) = setAll [] (supplied lib.id decoded d)) :
    sub.children.ids lib.id = childTxids lib.id decoded d := by
  rw [childTxids, ← h, List.map_map]
  rfl

theorem create_unambiguous_distinct (hdecoded : nodes.mapM (decodeNode lib) = .ok decoded)
    (h : TxTree.create lib nodes = .ok tree) (hsound : Unambiguous lib.id decoded) :
    Distinct lib.id tree := by
  obtain ⟨hindexed, -, hroot, depth, hgraph⟩ := create_ok hdecoded h
  have hself : ∀ chunk, JsMap.get (index lib.id [] decoded) (lib.id tree.root) = some chunk →
      hasChild chunk (lib.id tree.root) = false := by
    intro chunk hget
    by_contra hchild
    exact buildGraph_self hget (by simpa using hchild) _ _ hgraph
  have hbelow : ∀ i path sub, At tree (i :: path) sub → lib.id sub.root ≠ lib.id tree.root := by
    intro i path sub hat
    rcases root_once (buildGraph_ok hindexed hgraph).2 hroot hself hat with hnil | hne
    · cases hnil
    · exact hne
  intro path path' sub sub' hat hat' hid
  induction hat generalizing path' sub' with
  | root =>
    cases hat' with
    | root => rfl
    | child hparent hmem => exact absurd hid.symm (hbelow _ _ _ (hparent.child hmem))
  | @child path parent child i hparent hmem ih =>
    cases hat' with
    | root => exact absurd hid (hbelow _ _ _ (hparent.child hmem))
    | @child path' parent' child' j hparent' hmem' =>
      obtain ⟨d, hd, hget, htx, hchildren⟩ := create_placed hdecoded h hparent
      obtain ⟨d', hd', hget', htx', hchildren'⟩ := create_placed hdecoded h hparent'
      have hi : (i, lib.id child.root) ∈ setAll [] (supplied lib.id decoded d) := by
        rw [← hchildren]
        exact List.mem_map.mpr ⟨_, hmem, rfl⟩
      have hj : (j, lib.id child.root) ∈ setAll [] (supplied lib.id decoded d') := by
        rw [← hchildren', hid]
        exact List.mem_map.mpr ⟨_, hmem', rfl⟩
      obtain ⟨hplaces, hparents⟩ := List.nodup_flatMap.mp hsound.places
      have hsame : d = d' := by
        by_contra hne
        have : Std.Symm (Function.onFun List.Disjoint (childTxids lib.id decoded)) :=
          ⟨fun _ _ hdisjoint ↦ hdisjoint.symm⟩
        have hdisjoint := hparents.forall hd hd' hne
        exact hdisjoint (List.mem_map.mpr ⟨_, hi, rfl⟩) (List.mem_map.mpr ⟨_, hj, rfl⟩)
      subst hsame
      obtain rfl : i = j :=
        congrArg Prod.fst (List.inj_on_of_nodup_map (hplaces d hd) hi hj rfl)
      rw [ih _ _ hparent' (by rw [← htx, ← htx'])]

theorem create_txids_subset (hdecoded : nodes.mapM (decodeNode lib) = .ok decoded)
    (h : TxTree.create lib nodes = .ok tree) :
    tree.txids lib.id ⊆ decoded.map fun d ↦ lib.id d.tx := by
  intro txid htxid
  obtain ⟨path, sub, hat, rfl⟩ := tree.txids_at txid htxid
  obtain ⟨d, hd, -, htx, -⟩ := create_placed hdecoded h hat
  exact List.mem_map.mpr ⟨d, hd, congrArg lib.id htx⟩

theorem create_perm (hdecoded : nodes.mapM (decodeNode lib) = .ok decoded)
    (h : TxTree.create lib nodes = .ok tree) (hnodup : (tree.txids lib.id).Nodup) :
    (tree.txids lib.id).Perm (decoded.map fun d ↦ lib.id d.tx) := by
  obtain ⟨-, hcount, -⟩ := create_ok hdecoded h
  refine (List.subperm_of_subset hnodup (create_txids_subset hdecoded h)).perm_of_length_le ?_
  rw [tree.length_txids, hcount, List.length_map]

theorem create_unambiguous_lossless (hdecoded : nodes.mapM (decodeNode lib) = .ok decoded)
    (h : TxTree.create lib nodes = .ok tree) (hsound : Unambiguous lib.id decoded) :
    Lossless lib.id decoded tree := by
  obtain ⟨hindexed, -, -, depth, hgraph⟩ := create_ok hdecoded h
  have hnodup : (tree.txids lib.id).Nodup :=
    tree.txids_nodup (create_unambiguous_distinct hdecoded h hsound)
      fun path sub hat ↦ ((buildGraph_ok hindexed hgraph).2 path sub hat).2
  have hperm := create_perm hdecoded h hnodup
  refine ⟨fun d hd ↦ ?_, fun path sub hat ↦ ?_⟩
  · refine List.count_eq_one_of_mem hnodup ?_
    exact hperm.mem_iff.mpr (List.mem_map.mpr ⟨d, hd, rfl⟩)
  · obtain ⟨d, hd, -, htx, hchildren⟩ := create_placed hdecoded h hat
    refine ⟨d, hd, htx, fun txid ↦ ?_⟩
    have hids : sub.children.toList.map (fun e ↦ lib.id e.2.root) = childTxids lib.id decoded d :=
      childTxids_eq hchildren
    rw [hids]
    exact ⟨fun htxid ↦ childTxids_subset _ _ _ htxid, fun htxid ↦ hsound.children d hd htxid⟩

theorem create_lossless_unambiguous (hdecoded : nodes.mapM (decodeNode lib) = .ok decoded)
    (h : TxTree.create lib nodes = .ok tree) (hlossless : Lossless lib.id decoded tree) :
    Unambiguous lib.id decoded := by
  have hnodup : (tree.txids lib.id).Nodup := by
    refine List.nodup_iff_count_le_one.mpr fun txid ↦ ?_
    by_cases htxid : txid ∈ tree.txids lib.id
    · obtain ⟨d, hd, rfl⟩ := List.mem_map.mp (create_txids_subset hdecoded h htxid)
      exact (hlossless.once d hd).le
    · rw [List.count_eq_zero_of_not_mem htxid]
      exact Nat.zero_le _
  have hperm := create_perm hdecoded h hnodup
  have hchunks : (decoded.map fun d ↦ lib.id d.tx).Nodup := hperm.nodup hnodup
  refine ⟨hchunks, fun d hd ↦ ?_, ?_⟩
  · have hnode : lib.id d.tx ∈ tree.txids lib.id :=
      List.count_pos_iff.mp ((hlossless.once d hd).symm ▸ Nat.one_pos)
    obtain ⟨path, sub, hat, hsub⟩ := tree.txids_at _ hnode
    obtain ⟨d', hd', htx', hlisted⟩ := hlossless.children path sub hat
    obtain ⟨d'', hd'', -, htx'', hchildren⟩ := create_placed hdecoded h hat
    obtain rfl : d' = d := List.inj_on_of_nodup_map hchunks hd' hd (by rw [htx', hsub])
    obtain rfl : d'' = d' := List.inj_on_of_nodup_map hchunks hd'' hd' (by rw [htx', htx''])
    intro txid htxid
    exact childTxids_eq hchildren ▸ (hlisted txid).mpr htxid
  · let next : Txid → List Txid := fun txid ↦
      ((JsMap.get (index lib.id [] decoded) txid).map (childTxids lib.id decoded)).getD []
    have hnext : ∀ path sub, At tree path sub →
        next (lib.id sub.root) = sub.children.ids lib.id := by
      intro path sub hat
      obtain ⟨d, -, hget, -, hchildren⟩ := create_placed hdecoded h hat
      rw [childTxids_eq hchildren]
      simp only [next, hget, Option.map_some, Option.getD_some]
    have hflat : decoded.flatMap (childTxids lib.id decoded) =
        (decoded.map fun d ↦ lib.id d.tx).flatMap next := by
      rw [List.flatMap_map]
      refine List.flatMap_congr fun d hd ↦ ?_
      simp only [next, get_index hchunks hd, Option.map_some, Option.getD_some]
    rw [hflat]
    have hall : (lib.id tree.root :: (tree.txids lib.id).flatMap next).Nodup :=
      (tree.txids_perm hnext).symm.nodup hnodup
    exact (hperm.flatMap_right next).nodup (List.nodup_cons.mp hall).2

end

/-- A deeper stack makes no difference, and nothing is lost exactly where the chunks are
unambiguous. -/
theorem create_ends_lossless_iff (lib : TxLibrary) (nodes : List TxTreeNode) :
    (∀ depth, nodes.length < depth →
      TxTree.createWithin lib depth nodes = TxTree.create lib nodes) ∧
    ∀ decoded tree, nodes.mapM (decodeNode lib) = .ok decoded →
      TxTree.create lib nodes = .ok tree →
      (Lossless lib.id decoded tree ↔ Unambiguous lib.id decoded) := by
  refine ⟨fun depth hdepth ↦ ?_, fun decoded tree hdecoded h ↦
    ⟨create_lossless_unambiguous hdecoded h, create_unambiguous_lossless hdecoded h⟩⟩
  unfold TxTree.createWithin TxTree.create
  refine congrArg _ (funext fun _ ↦ ?_)
  cases hchunks : chunksByTxid lib [] nodes with
  | error e => rfl
  | ok chunks =>
    have hle : chunks.length ≤ nodes.length := by
      have hlength := length_chunksByTxid_le hchunks
      rwa [List.length_nil, Nat.zero_add] at hlength
    have hsame : buildGraph chunks depth = buildGraph chunks (chunks.length + 1) :=
      funext fun txid ↦ buildGraph_within (hle.trans_lt hdepth)
    dsimp only [bind, Except.bind]
    exact hsame ▸ rfl

/-- A transaction is its id. -/
def namedLibrary : TxLibrary :=
  ⟨fun psbt ↦ .ok ⟨[⟨some psbt, some 0, none⟩], []⟩,
    fun tx ↦ (tx.outpoints.head?.bind Prod.fst).getD ""⟩

def namedTx (txid : Txid) : Transaction := ⟨[⟨some txid, some 0, none⟩], []⟩

theorem create_lossless_chain :
    Lossless namedLibrary.id [⟨namedTx "a", [(some 0, "b")]⟩, ⟨namedTx "b", []⟩]
        (.node (namedTx "a") (.cons (some 0) (.node (namedTx "b") .nil) .nil)) ↔
      Unambiguous namedLibrary.id [⟨namedTx "a", [(some 0, "b")]⟩, ⟨namedTx "b", []⟩] :=
  (create_ends_lossless_iff namedLibrary [⟨"a", "a", [(some 0, "b")]⟩, ⟨"b", "b", []⟩]).2 _ _
    rfl rfl

/-- A chunk that was sent twice makes up for one that was sent once and stands in two places. -/
def sharedChunks : List TxTreeNode :=
  [⟨"a", "a", [(some 0, "b"), (some 1, "b"), (some 2, "c")]⟩, ⟨"b", "b", []⟩, ⟨"c", "c", []⟩,
    ⟨"c", "c", []⟩]

def sharedTree : TxTree :=
  .node (namedTx "a") (.cons (some 0) (.node (namedTx "b") .nil)
    (.cons (some 1) (.node (namedTx "b") .nil) (.cons (some 2) (.node (namedTx "c") .nil) .nil)))

theorem shared_chunk_returned : ∃ decoded,
    sharedChunks.mapM (decodeNode namedLibrary) = .ok decoded ∧
    TxTree.create namedLibrary sharedChunks = .ok sharedTree ∧
    ¬Lossless namedLibrary.id decoded sharedTree := by
  refine ⟨_, rfl, rfl, ?_⟩
  intro h
  have honce := h.once _ (List.mem_cons_of_mem _ List.mem_cons_self)
  exact absurd honce (by decide)

end ArkadeSdk.BatchTree
