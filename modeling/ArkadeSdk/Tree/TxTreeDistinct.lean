import ArkadeSdk.Tree.TxTree

/-! In a tree that was built and checked, no transaction stands twice. -/

namespace ArkadeSdk.BatchTree

open WireFormat JsNumber

/-- The subtree that a path leads to; the path lists the outputs from the last one to the first. -/
inductive At (tree : TxTree) : List OutputIndex → TxTree → Prop
  | root : At tree [] tree
  | child {path : List OutputIndex} {parent child : TxTree} {i : OutputIndex} :
      At tree path parent → (i, child) ∈ parent.children.toList → At tree (i :: path) child

theorem At.trans {tree mid sub : TxTree} {path path' : List OutputIndex} (h : At tree path mid)
    (h' : At mid path' sub) : At tree (path' ++ path) sub := by
  induction h' with
  | root => exact h
  | child _ hmem ih => exact ih.child hmem

theorem At.from_root {tree sub : TxTree} {path : List OutputIndex} (h : At tree path sub) :
    (path = [] ∧ sub = tree) ∨
      ∃ e ∈ tree.children.toList, ∃ path', At e.2 path' sub := by
  induction h with
  | root => exact .inl ⟨rfl, rfl⟩
  | @child path parent child i hparent hmem ih =>
    rcases ih with ⟨-, rfl⟩ | ⟨e, he, path', hat⟩
    · exact .inr ⟨(i, child), hmem, [], .root⟩
    · exact .inr ⟨e, he, i :: path', hat.child hmem⟩

section

variable {lib : TxLibrary}

theorem spends_outpoints {tx : Transaction} {txid : Txid} {i : OutputIndex}
    (h : spends tx txid i = true) (hone : tx.inputs.length = 1) :
    ∃ n : ℕ, i = some (n : ℤ) ∧ tx.outpoints = [(some txid, some n)] := by
  obtain ⟨input, hinput⟩ := List.length_eq_one_iff.mp hone
  simp only [spends, hinput, Bool.and_eq_true, decide_eq_true_eq] at h
  obtain ⟨⟨htxid, hindex⟩, hsome⟩ := h
  cases hn : input.index with
  | none =>
    rw [hn] at hindex
    rw [← hindex] at hsome
    cases hsome
  | some n =>
    rw [hn] at hindex
    refine ⟨n, hindex.symm, ?_⟩
    simp [Transaction.outpoints, hinput, htxid, hn]

theorem validate_root {tree : TxTree} (h : tree.validate lib = .ok ()) :
    tree.root.inputs.length = 1 := by
  cases tree with
  | node root children =>
    simp only [TxTree.validate, then_ok, rejectIf_ok, ne_eq, not_not] at h
    exact h.1

theorem validate_children {parent : Transaction} {children : Children}
    (h : children.validate lib parent = .ok ()) :
    ∀ e ∈ children.toList, e.2.validate lib = .ok () ∧
      spends e.2.root (lib.id parent) e.1 = true := by
  match children with
  | .nil =>
    intro e he
    cases he
  | .cons outputIndex child rest =>
    simp only [Children.validate, then_ok, rejectIf_ok, checkChild] at h
    obtain ⟨-, hchild, ⟨hspends, -⟩, hrest⟩ := h
    intro e he
    rcases List.mem_cons.mp he with rfl | he
    · exact ⟨hchild, by simpa using hspends⟩
    · exact validate_children hrest e he

/-- A child is valid, and spends the output of its parent that it hangs from and nothing else. -/
theorem validate_child {tree child : TxTree} {i : OutputIndex} (h : tree.validate lib = .ok ())
    (hmem : (i, child) ∈ tree.children.toList) : child.validate lib = .ok () ∧
      ∃ n : ℕ, i = some (n : ℤ) ∧ child.root.outpoints = [(some (lib.id tree.root), some n)] := by
  cases tree with
  | node root children =>
    have hchildren : children.validate lib root = .ok () := by
      simp only [TxTree.validate, then_ok] at h
      exact h.2.2
    obtain ⟨hvalid, hspends⟩ := validate_children hchildren _ hmem
    exact ⟨hvalid, spends_outpoints hspends (validate_root hvalid)⟩

theorem At.valid {tree sub : TxTree} {path : List OutputIndex} (h : At tree path sub)
    (hvalid : tree.validate lib = .ok ()) : sub.validate lib = .ok () := by
  induction h with
  | root => exact hvalid
  | child _ hmem ih => exact (validate_child ih hmem).1

theorem At.path_unique {tree : TxTree} (hfree : lib.CollisionFree)
    (hvalid : tree.validate lib = .ok ())
    (hdecoded : ∀ path sub, At tree path sub → lib.Decoded sub.root)
    (hroot : ∀ i path sub, At tree (i :: path) sub → lib.id sub.root ≠ lib.id tree.root)
    {path path' : List OutputIndex} {sub sub' : TxTree} (h : At tree path sub)
    (h' : At tree path' sub') (hid : lib.id sub.root = lib.id sub'.root) : path = path' := by
  induction h generalizing path' sub' with
  | root =>
    cases h' with
    | root => rfl
    | child hparent hmem => exact absurd hid.symm (hroot _ _ _ (hparent.child hmem))
  | @child path parent child i hparent hmem ih =>
    cases h' with
    | root => exact absurd hid (hroot _ _ _ (hparent.child hmem))
    | @child path' parent' _ j hparent' hmem' =>
      obtain ⟨-, n, rfl, hout⟩ := validate_child (hparent.valid hvalid) hmem
      obtain ⟨-, n', rfl, hout'⟩ := validate_child (hparent'.valid hvalid) hmem'
      have hsame := (hfree _ _ (hdecoded _ _ (hparent.child hmem))
        (hdecoded _ _ (hparent'.child hmem')) hid).1
      rw [hout, hout'] at hsame
      simp only [List.cons.injEq, Prod.mk.injEq, Option.some.injEq, and_true] at hsame
      obtain ⟨hparents, rfl⟩ := hsame
      rw [ih hparent' hparents]

end

/-- No node has two children at one output. -/
def Keyed (tree : TxTree) : Prop :=
  ∀ path sub, At tree path sub → (sub.children.toList.map Prod.fst).Nodup

mutual

theorem TxTree.leaves_at (tree : TxTree) :
    ∀ leaf ∈ tree.leaves, ∃ path sub, At tree path sub ∧ sub.root = leaf := by
  match tree with
  | .node root .nil =>
    intro leaf hleaf
    exact ⟨[], _, .root, (List.mem_singleton.mp hleaf).symm⟩
  | .node root (.cons outputIndex child rest) =>
    intro leaf hleaf
    have hall : leaf ∈ (Children.cons outputIndex child rest).leaves := hleaf
    obtain ⟨e, he, path, sub, hat, hsub⟩ := Children.leaves_at _ leaf hall
    exact ⟨path ++ [e.1], sub, (At.child .root he).trans hat, hsub⟩

theorem Children.leaves_at (children : Children) :
    ∀ leaf ∈ children.leaves, ∃ e ∈ children.toList, ∃ path sub, At e.2 path sub ∧
      sub.root = leaf := by
  match children with
  | .nil =>
    intro leaf hleaf
    cases hleaf
  | .cons outputIndex child rest =>
    intro leaf hleaf
    rcases List.mem_append.mp hleaf with hleaf | hleaf
    · obtain ⟨path, sub, hat, hsub⟩ := TxTree.leaves_at child leaf hleaf
      exact ⟨(outputIndex, child), List.mem_cons_self, path, sub, hat, hsub⟩
    · obtain ⟨e, he, hrest⟩ := Children.leaves_at rest leaf hleaf
      exact ⟨e, List.mem_cons_of_mem _ he, hrest⟩

end

/-- Whatever tells the nodes of a tree apart by their paths. -/
def Distinct (id : Transaction → Txid) (tree : TxTree) : Prop :=
  ∀ path path' sub sub', At tree path sub → At tree path' sub' → id sub.root = id sub'.root →
    path = path'

theorem Distinct.child {id : Transaction → Txid} {tree : TxTree} (h : Distinct id tree)
    {e : OutputIndex × TxTree} (he : e ∈ tree.children.toList) : Distinct id e.2 := by
  intro path path' sub sub' hat hat' hid
  have hstep : At tree [e.1] e.2 := At.child .root he
  exact List.append_cancel_right (h _ _ _ _ (hstep.trans hat) (hstep.trans hat') hid)

theorem Keyed.child {tree : TxTree} (h : Keyed tree) {e : OutputIndex × TxTree}
    (he : e ∈ tree.children.toList) : Keyed e.2 := by
  intro path sub hat
  exact h _ _ ((At.child .root he).trans hat)

theorem Distinct.apart {id : Transaction → Txid} {tree : TxTree} (h : Distinct id tree)
    {e e' : OutputIndex × TxTree} (he : e ∈ tree.children.toList)
    (he' : e' ∈ tree.children.toList) (hne : e.1 ≠ e'.1) {path path' : List OutputIndex}
    {sub sub' : TxTree} (hat : At e.2 path sub) (hat' : At e'.2 path' sub') :
    id sub.root ≠ id sub'.root := by
  intro hid
  have hpaths := h _ _ _ _ ((At.child .root he).trans hat) ((At.child .root he').trans hat') hid
  exact hne (List.append_inj_right' hpaths rfl |> List.singleton_inj.mp)

mutual

theorem TxTree.leaves_nodup {id : Transaction → Txid} (tree : TxTree) (hdistinct : Distinct id tree)
    (hkeyed : Keyed tree) : (tree.leaves.map id).Nodup := by
  match tree with
  | .node root .nil => exact List.nodup_singleton _
  | .node root (.cons outputIndex child rest) =>
    exact Children.leaves_nodup (.cons outputIndex child rest) (hkeyed _ _ .root)
      (fun e he ↦ hdistinct.child he) (fun e he ↦ hkeyed.child he)
      fun e he e' he' hne _ _ _ _ ↦ hdistinct.apart he he' hne

theorem Children.leaves_nodup {id : Transaction → Txid} (children : Children)
    (hkeys : (children.toList.map Prod.fst).Nodup)
    (hdistinct : ∀ e ∈ children.toList, Distinct id e.2)
    (hkeyed : ∀ e ∈ children.toList, Keyed e.2)
    (hapart : ∀ e ∈ children.toList, ∀ e' ∈ children.toList, e.1 ≠ e'.1 →
      ∀ path path' sub sub', At e.2 path sub → At e'.2 path' sub' → id sub.root ≠ id sub'.root) :
    (children.leaves.map id).Nodup := by
  match children with
  | .nil => exact List.nodup_nil
  | .cons outputIndex child rest =>
    obtain ⟨hnew, hrest⟩ := List.nodup_cons.mp hkeys
    have hhead := TxTree.leaves_nodup child (hdistinct _ List.mem_cons_self)
      (hkeyed _ List.mem_cons_self)
    have htail := Children.leaves_nodup rest hrest
      (fun e he ↦ hdistinct e (List.mem_cons_of_mem _ he))
      (fun e he ↦ hkeyed e (List.mem_cons_of_mem _ he))
      fun e he e' he' ↦ hapart e (List.mem_cons_of_mem _ he) e' (List.mem_cons_of_mem _ he')
    rw [Children.leaves, List.map_append]
    refine List.nodup_append.mpr ⟨hhead, htail, ?_⟩
    intro a ha b hb hab
    obtain ⟨leaf, hleaf, rfl⟩ := List.mem_map.mp ha
    obtain ⟨leaf', hleaf', rfl⟩ := List.mem_map.mp hb
    obtain ⟨path, sub, hat, rfl⟩ := TxTree.leaves_at child leaf hleaf
    obtain ⟨e, he, path', sub', hat', rfl⟩ := Children.leaves_at rest leaf' hleaf'
    have hne : outputIndex ≠ e.1 := by
      intro heq
      exact hnew (List.mem_map.mpr ⟨e, he, heq.symm⟩)
    exact hapart (outputIndex, child) List.mem_cons_self e (List.mem_cons_of_mem _ he) hne
      path path' sub sub' hat hat' hab

end

/-- A chunk is found under the id of its transaction, which came with it. -/
def Indexed (lib : TxLibrary) (chunks : Chunks) : Prop :=
  ∀ txid chunk, JsMap.get chunks txid = some chunk →
    lib.id chunk.tx = txid ∧ lib.Decoded chunk.tx

theorem chunksByTxid_indexed {lib : TxLibrary} {chunks byTxid : Chunks} {nodes : List TxTreeNode}
    (h : chunksByTxid lib chunks nodes = .ok byTxid) (hids : Indexed lib chunks) :
    Indexed lib byTxid := by
  induction nodes generalizing chunks with
  | nil =>
    cases h
    exact hids
  | cons node nodes ih =>
    obtain ⟨decoded, hdecoded, h⟩ := bind_ok.mp h
    apply ih h
    intro txid chunk hget
    rw [JsMap.get_set] at hget
    split at hget
    · rename_i htxid
      cases hget
      obtain ⟨tx, htx, hnode⟩ := bind_ok.mp hdecoded
      obtain rfl := pure_ok.mp hnode
      exact ⟨htxid, node.tx, htx⟩
    · exact hids txid chunk hget

theorem buildChildren_ok {build : Txid → Except Message (Option TxTree)}
    {children built : Children} {l : List (OutputIndex × Txid)}
    (h : buildChildren build children l = .ok built)
    (hkeys : (children.toList.map Prod.fst).Nodup) :
    (built.toList.map Prod.fst).Nodup ∧
      (∀ e ∈ l, ∃ x, build e.2 = .ok x) ∧
      ∀ e ∈ built.toList, e ∈ children.toList ∨ ∃ c ∈ l, build c.2 = .ok (some e.2) := by
  induction l generalizing children with
  | nil =>
    cases h
    exact ⟨hkeys, by simp, fun e he ↦ .inl he⟩
  | cons c l ih =>
    obtain ⟨x, hx, h⟩ := bind_ok.mp h
    have hfinish {next : Children} (hnext : (next.toList.map Prod.fst).Nodup)
        (hsub : ∀ e ∈ next.toList, e ∈ children.toList ∨ build c.2 = .ok (some e.2))
        (h : buildChildren build next l = .ok built) :
        (built.toList.map Prod.fst).Nodup ∧ (∀ e ∈ c :: l, ∃ x, build e.2 = .ok x) ∧
          ∀ e ∈ built.toList, e ∈ children.toList ∨
            ∃ c' ∈ c :: l, build c'.2 = .ok (some e.2) := by
      obtain ⟨hbuilt, hall, hmem⟩ := ih h hnext
      refine ⟨hbuilt, List.forall_mem_cons.mpr ⟨⟨x, hx⟩, hall⟩, ?_⟩
      intro e he
      rcases hmem e he with he | ⟨c', hc', he⟩
      · rcases hsub e he with he | he
        · exact .inl he
        · exact .inr ⟨c, List.mem_cons_self, he⟩
      · exact .inr ⟨c', List.mem_cons_of_mem _ hc', he⟩
    cases x with
    | none => exact hfinish hkeys (fun e he ↦ .inl he) h
    | some child =>
      have hlist : (children.set c.1 child).toList = JsMap.set c.1 child children.toList :=
        Children.toList_ofList _
      refine hfinish (by rw [hlist]; exact JsMap.nodup_set hkeys _ _) ?_ h
      intro e he
      rw [hlist] at he
      rcases JsMap.mem_set he with he | rfl
      · exact .inl he
      · exact .inr hx

/-- A node stands for the chunk of its id, and its children for children of that chunk. -/
def Faithful (lib : TxLibrary) (chunks : Chunks) (tree : TxTree) : Prop :=
  (∃ chunk, JsMap.get chunks (lib.id tree.root) = some chunk ∧ chunk.tx = tree.root ∧
    ∀ e ∈ tree.children.toList, hasChild chunk (lib.id e.2.root) = true) ∧
  (tree.children.toList.map Prod.fst).Nodup

theorem buildGraph_ok {lib : TxLibrary} {chunks : Chunks} (hids : Indexed lib chunks)
    {depth : ℕ} {txid : Txid} {tree : TxTree}
    (h : buildGraph chunks depth txid = .ok (some tree)) :
    lib.id tree.root = txid ∧ ∀ path sub, At tree path sub → Faithful lib chunks sub := by
  induction depth generalizing txid tree with
  | zero => cases h
  | succ depth ih =>
    unfold buildGraph at h
    cases hget : JsMap.get chunks txid with
    | none =>
      rw [hget] at h
      cases h
    | some chunk =>
      rw [hget] at h
      obtain ⟨children, hchildren, h⟩ := bind_ok.mp h
      cases h
      obtain ⟨hkeys, -, hmem⟩ := buildChildren_ok hchildren List.nodup_nil
      have hid : lib.id chunk.tx = txid := (hids txid chunk hget).1
      have hbuilt : ∀ e ∈ children.toList, ∃ c ∈ chunk.children,
          buildGraph chunks depth c.2 = .ok (some e.2) := by
        intro e he
        rcases hmem e he with he | he
        · cases he
        · exact he
      refine ⟨hid, ?_⟩
      intro path sub hat
      rcases hat.from_root with ⟨-, rfl⟩ | ⟨e, he, path', hat⟩
      · have hown : JsMap.get chunks (lib.id chunk.tx) = some chunk := by
          rw [hid]
          exact hget
        refine ⟨⟨chunk, hown, rfl, ?_⟩, hkeys⟩
        intro e he
        obtain ⟨c, hc, hbuild⟩ := hbuilt e he
        rw [(ih hbuild).1]
        exact List.any_eq_true.mpr ⟨c, hc, by simp⟩
      · obtain ⟨c, -, hbuild⟩ := hbuilt e he
        exact (ih hbuild).2 path' sub hat

theorem buildGraph_self {chunks : Chunks} {txid : Txid} {chunk : DecodedNode}
    (hget : JsMap.get chunks txid = some chunk) (hself : hasChild chunk txid = true) (depth : ℕ)
    (x : Option TxTree) : buildGraph chunks depth txid ≠ .ok x := by
  induction depth generalizing x with
  | zero =>
    intro h
    cases h
  | succ depth ih =>
    intro h
    unfold buildGraph at h
    rw [hget] at h
    obtain ⟨children, hchildren, -⟩ := bind_ok.mp h
    obtain ⟨c, hc, htxid⟩ := List.any_eq_true.mp hself
    obtain ⟨-, hall, -⟩ := buildChildren_ok hchildren List.nodup_nil
    obtain ⟨y, hy⟩ := hall c hc
    rw [of_decide_eq_true htxid] at hy
    exact ih y hy

theorem root_once {lib : TxLibrary} {chunks : Chunks} {tree : TxTree}
    (hfaithful : ∀ path sub, At tree path sub → Faithful lib chunks sub)
    (hroot : isChild chunks (lib.id tree.root) = false)
    (hself : ∀ chunk, JsMap.get chunks (lib.id tree.root) = some chunk →
      hasChild chunk (lib.id tree.root) = false)
    {path : List OutputIndex} {sub : TxTree} (h : At tree path sub) :
    path = [] ∨ lib.id sub.root ≠ lib.id tree.root := by
  induction h with
  | root => exact .inl rfl
  | @child path parent child i hparent hmem ih =>
    refine .inr ?_
    intro hid
    obtain ⟨⟨chunk, hget, -, hchildren⟩, -⟩ := hfaithful path parent hparent
    have hchild := hchildren _ hmem
    rw [hid] at hchild
    by_cases hsame : lib.id parent.root = lib.id tree.root
    · rw [hsame] at hget
      rw [hself chunk hget] at hchild
      cases hchild
    · have hchild : isChild chunks (lib.id tree.root) = true :=
        List.any_eq_true.mpr ⟨_, JsMap.mem_of_get hget, by simp [hsame, hchild]⟩
      rw [hroot] at hchild
      cases hchild

theorem create_distinct {lib : TxLibrary} (hfree : lib.CollisionFree) {nodes : List TxTreeNode}
    {tree : TxTree} (h : TxTree.create lib nodes = .ok tree)
    (hvalid : tree.validate lib = .ok ()) : (tree.leaves.map lib.id).Nodup := by
  obtain ⟨-, h⟩ := then_ok.mp h
  obtain ⟨chunks, hchunks, h⟩ := bind_ok.mp h
  have hids : Indexed lib chunks := chunksByTxid_indexed hchunks fun _ _ h ↦ (by cases h)
  split at h
  · cases h
  · rename_i rootTxid hrootTxids
    obtain ⟨graph, hgraph, h⟩ := bind_ok.mp h
    cases graph with
    | none => cases h
    | some graph =>
      obtain ⟨-, h⟩ := then_ok.mp h
      obtain rfl := pure_ok.mp h
      obtain ⟨hid, hfaithful⟩ := buildGraph_ok hids hgraph
      have hroot : isChild chunks (lib.id graph.root) = false := by
        have hmem : rootTxid ∈ (chunks.map (·.1)).filter fun txid ↦ !isChild chunks txid := by
          rw [hrootTxids]
          exact List.mem_singleton_self _
        rw [hid]
        simpa using (List.mem_filter.mp hmem).2
      have hself : ∀ chunk, JsMap.get chunks (lib.id graph.root) = some chunk →
          hasChild chunk (lib.id graph.root) = false := by
        intro chunk hget
        by_contra hchild
        rw [hid] at hget hchild
        exact buildGraph_self hget (by simpa using hchild) _ _ hgraph
      have hdistinct : Distinct lib.id graph := by
        intro path path' sub sub' hat hat' heq
        refine hat.path_unique hfree hvalid ?_ ?_ hat' heq
        · intro path sub hat
          obtain ⟨⟨chunk, hget, hchunk, -⟩, -⟩ := hfaithful path sub hat
          rw [← hchunk]
          exact (hids _ _ hget).2
        intro i path sub hbelow
        rcases root_once hfaithful hroot hself hbelow with hnil | hne
        · cases hnil
        · exact hne
      exact graph.leaves_nodup hdistinct fun path sub hat ↦ (hfaithful path sub hat).2
  · cases h

end ArkadeSdk.BatchTree
