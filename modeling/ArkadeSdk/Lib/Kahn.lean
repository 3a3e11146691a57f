import Mathlib.Data.Finset.Card
import Mathlib.Data.Finset.Dedup
import Mathlib.Data.List.Nodup
import Mathlib.Data.Set.Finite.List
import Mathlib.Logic.Relation
import Mathlib.Order.WellFounded

/-! Kahn's algorithm: a node is taken once as many of its dependencies have been taken as it
names. -/

namespace Kahn

variable {T I : Type} [DecidableEq I] (idOf : T → I) (depsOf : T → List I)
  (sort : List T → List T) (nodes : List T)

/-- The dependencies of a node that are nodes themselves, as often as it names them. -/
def parents (n : T) : List I := (depsOf n).filter (· ∈ nodes.map idOf)

structure State (T I : Type) where
  inDegree : I → ℤ
  queue : List T
  order : List T

/-- One child of a node that was taken. -/
def release (s : (I → ℤ) × List T) (child : T) : (I → ℤ) × List T :=
  let deg := s.1 (idOf child) - 1
  (Function.update s.1 (idOf child) deg, if deg = 0 then s.2 ++ [child] else s.2)

def children (n : T) : List T := sort (nodes.filter fun c ↦ idOf n ∈ depsOf c)

/-- The first node of the queue is taken. -/
def visit (s : State T I) : State T I :=
  match s.queue with
  | [] => s
  | n :: queue =>
    let next := (children idOf depsOf sort nodes n).foldl (release idOf) (s.inDegree, queue)
    ⟨next.1, next.2, s.order ++ [n]⟩

def start : State T I where
  inDegree i := ((nodes.find? (idOf · = i)).map fun n ↦
    ((parents idOf depsOf nodes n).length : ℤ)).getD 0
  queue := sort (nodes.filter fun n ↦ (parents idOf depsOf nodes n).length = 0)
  order := []

/-- Every node is taken once at most, so as many visits as nodes are enough. -/
def order : List T :=
  ((visit idOf depsOf sort nodes)^[nodes.length] (start idOf depsOf sort nodes)).order

/-- Every dependency of a node comes before it. -/
def Ordered (l : List T) : Prop :=
  ∀ before (n : T) after, l = before ++ n :: after →
    ∀ p ∈ parents idOf depsOf nodes n, p ∈ before.map idOf

/-- A node that names no dependency twice, with all of them taken. -/
def Free (done : List I) (n : T) : Prop :=
  (parents idOf depsOf nodes n).Nodup ∧ ∀ p ∈ parents idOf depsOf nodes n, p ∈ done

/-- How many names of dependencies are left when each one taken counts once. -/
def left (done : List I) (n : T) : ℤ :=
  (parents idOf depsOf nodes n).length -
    ((parents idOf depsOf nodes n).toFinset ∩ done.toFinset).card

/-- Node `c` depends on node `p`. -/
def Edge (p c : I) : Prop := ∃ n ∈ nodes, idOf n = c ∧ p ∈ parents idOf depsOf nodes n

variable {idOf depsOf sort nodes}

theorem mem_parents {n : T} {p : I} :
    p ∈ parents idOf depsOf nodes n ↔ p ∈ depsOf n ∧ ∃ m ∈ nodes, idOf m = p := by
  simp [parents]

theorem left_eq_zero {done : List I} {n : T} :
    left idOf depsOf nodes done n = 0 ↔ Free idOf depsOf nodes done n := by
  unfold left Free
  set ps := parents idOf depsOf nodes n
  have hinter : (ps.toFinset ∩ done.toFinset).card ≤ ps.toFinset.card :=
    Finset.card_le_card Finset.inter_subset_left
  have hcard : ps.toFinset.card ≤ ps.length := List.toFinset_card_le ps
  constructor
  · intro h
    have hlen : ps.toFinset.card = ps.length := by omega
    have hall : ps.toFinset ∩ done.toFinset = ps.toFinset :=
      Finset.eq_of_subset_of_card_le Finset.inter_subset_left (by omega)
    refine ⟨Multiset.toFinset_card_eq_card_iff_nodup.mp hlen, fun p hp ↦ ?_⟩
    have hmem : p ∈ ps.toFinset ∩ done.toFinset := by
      rw [hall]
      exact List.mem_toFinset.mpr hp
    exact List.mem_toFinset.mp (Finset.mem_inter.mp hmem).2
  · rintro ⟨hnodup, hdone⟩
    have hall : ps.toFinset ∩ done.toFinset = ps.toFinset :=
      Finset.inter_eq_left.mpr fun p hp ↦
        List.mem_toFinset.mpr (hdone p (List.mem_toFinset.mp hp))
    rw [hall, List.toFinset_card_of_nodup hnodup, sub_self]

theorem left_concat {done : List I} {n : T} {i : I} (hi : i ∉ done) :
    left idOf depsOf nodes (done ++ [i]) n = left idOf depsOf nodes done n -
      if i ∈ parents idOf depsOf nodes n then 1 else 0 := by
  unfold left
  set ps := parents idOf depsOf nodes n
  have hdone : (done ++ [i]).toFinset = insert i done.toFinset := by
    ext j
    simp
  rw [hdone]
  split
  · rename_i hmem
    rw [Finset.inter_insert_of_mem (List.mem_toFinset.mpr hmem), Finset.card_insert_of_notMem]
    · push_cast
      omega
    · simp [hi]
  · rename_i hmem
    rw [Finset.inter_insert_of_notMem (by simpa using hmem), sub_zero]

theorem Free.mono {done done' : List I} {n : T} (h : Free idOf depsOf nodes done n)
    (hsub : done ⊆ done') : Free idOf depsOf nodes done' n :=
  ⟨h.1, fun p hp ↦ hsub (h.2 p hp)⟩

/-- Children with ids of their own are released one by one. -/
theorem foldl_release {cs : List T} (hcs : (cs.map idOf).Nodup) (deg : I → ℤ) (queue : List T) :
    cs.foldl (release idOf) (deg, queue) =
      (fun i ↦ deg i - if i ∈ cs.map idOf then 1 else 0,
        queue ++ cs.filter fun c ↦ deg (idOf c) = 1) := by
  induction cs generalizing deg queue with
  | nil => simp
  | cons c cs ih =>
    obtain ⟨hc, hcs⟩ := List.nodup_cons.mp hcs
    rw [List.foldl_cons, release, ih hcs]
    have hsame : ∀ c' ∈ cs, Function.update deg (idOf c) (deg (idOf c) - 1) (idOf c') =
        deg (idOf c') := by
      intro c' hc'
      refine Function.update_of_ne (fun heq ↦ hc ?_) _ _
      exact heq ▸ List.mem_map_of_mem hc'
    ext1
    · funext i
      by_cases hi : i = idOf c
      · subst hi
        simp [hc]
      · simp [hi]
    · dsimp only
      have hfilter : cs.filter (fun c' ↦ decide
          (Function.update deg (idOf c) (deg (idOf c) - 1) (idOf c') = 1)) =
          cs.filter fun c' ↦ decide (deg (idOf c') = 1) :=
        List.filter_congr fun c' hc' ↦ by rw [hsame c' hc']
      rw [hfilter, List.filter_cons]
      by_cases hdeg : deg (idOf c) = 1
      · rw [if_pos (by omega), if_pos (by simpa using hdeg), List.append_assoc,
          List.singleton_append]
      · rw [if_neg (by omega), if_neg (by simpa using hdeg)]

/-- What holds between two visits. -/
structure Inv (idOf : T → I) (depsOf : T → List I) (nodes : List T) (s : State T I) : Prop where
  inDegree : ∀ n ∈ nodes,
    s.inDegree (idOf n) = left idOf depsOf nodes (s.order.map idOf) n
  nodup : (s.order ++ s.queue).Nodup
  subset : ∀ n ∈ s.order ++ s.queue, n ∈ nodes
  mem_iff : ∀ n ∈ nodes, n ∈ s.order ++ s.queue ↔ Free idOf depsOf nodes (s.order.map idOf) n
  ordered : Ordered idOf depsOf nodes s.order

theorem Ordered.concat {l : List T} {n : T} (h : Ordered idOf depsOf nodes l)
    (hn : ∀ p ∈ parents idOf depsOf nodes n, p ∈ l.map idOf) :
    Ordered idOf depsOf nodes (l ++ [n]) := by
  intro before x after heq p hp
  rcases List.eq_nil_or_concat' after with rfl | ⟨after, last, rfl⟩
  · obtain ⟨rfl, hx⟩ := List.append_inj' heq rfl
    obtain rfl := (List.cons.inj hx).1
    exact hn p hp
  · rw [← List.cons_append, ← List.append_assoc] at heq
    exact h before x after (List.append_inj' heq rfl).1 p hp

theorem start_inv (hsort : ∀ l, (sort l).Perm l) (hids : (nodes.map idOf).Nodup) :
    Inv idOf depsOf nodes (start idOf depsOf sort nodes) where
  inDegree n hn := by
    have hfind : nodes.find? (fun m ↦ decide (idOf m = idOf n)) = some n := by
      rw [List.find?_eq_some_iff_getElem]
      obtain ⟨i, hi, hget⟩ := List.getElem_of_mem hn
      refine ⟨by simp, i, hi, hget, fun j hj ↦ ?_⟩
      have hne : idOf nodes[j] ≠ idOf n := by
        intro heq
        have hsame : nodes[j] = nodes[i] :=
          List.inj_on_of_nodup_map hids (List.getElem_mem _) (List.getElem_mem hi)
            (heq.trans (by rw [hget]))
        exact absurd (hids.of_map.getElem_inj_iff.mp hsame) (by omega)
      simpa using hne
    simp [start, left, hfind]
  nodup := by
    have hperm := hsort (nodes.filter fun n ↦ (parents idOf depsOf nodes n).length = 0)
    exact hperm.nodup_iff.mpr (hids.of_map.filter _)
  subset n hn := (List.mem_filter.mp ((hsort _).mem_iff.mp hn)).1
  mem_iff n hn := by
    have hmem : n ∈ (start idOf depsOf sort nodes).order ++ (start idOf depsOf sort nodes).queue ↔
        (parents idOf depsOf nodes n).length = 0 := by
      simp [start, (hsort _).mem_iff, hn]
    rw [hmem, List.length_eq_zero_iff]
    constructor
    · intro h
      rw [Free, h]
      simp
    · rintro ⟨-, hall⟩
      exact List.eq_nil_iff_forall_not_mem.mpr fun p hp ↦ absurd (hall p hp) List.not_mem_nil
  ordered before n after h := by
    cases before <;> cases h

theorem mem_children (hsort : ∀ l, (sort l).Perm l) {n c : T} :
    c ∈ children idOf depsOf sort nodes n ↔ c ∈ nodes ∧ idOf n ∈ depsOf c := by
  rw [children, (hsort _).mem_iff, List.mem_filter, decide_eq_true_iff]

theorem nodup_children (hsort : ∀ l, (sort l).Perm l) (hids : (nodes.map idOf).Nodup) (n : T) :
    ((children idOf depsOf sort nodes n).map idOf).Nodup :=
  ((hsort _).map idOf).nodup_iff.mpr (hids.sublist (List.filter_sublist.map idOf))

/-- A visit takes the first of the queue and adds its children that had one name left. -/
theorem visit_cons (hsort : ∀ l, (sort l).Perm l) (hids : (nodes.map idOf).Nodup)
    {s : State T I} {n : T} {queue : List T} (hqueue : s.queue = n :: queue) :
    visit idOf depsOf sort nodes s =
      { inDegree := fun i ↦ s.inDegree i -
          if i ∈ (children idOf depsOf sort nodes n).map idOf then 1 else 0
        queue := queue ++ (children idOf depsOf sort nodes n).filter
          fun c ↦ s.inDegree (idOf c) = 1
        order := s.order ++ [n] } := by
  rw [visit, hqueue]
  dsimp only
  rw [foldl_release (nodup_children hsort hids n)]

theorem visit_inv (hsort : ∀ l, (sort l).Perm l) (hids : (nodes.map idOf).Nodup)
    {s : State T I} (h : Inv idOf depsOf nodes s) :
    Inv idOf depsOf nodes (visit idOf depsOf sort nodes s) := by
  cases hqueue : s.queue with
  | nil => rwa [visit, hqueue]
  | cons n queue =>
    rw [visit_cons hsort hids hqueue]
    have hmem : n ∈ s.order ++ s.queue := by simp [hqueue]
    have hn : n ∈ nodes := h.subset n hmem
    have hnew : idOf n ∉ s.order.map idOf := by
      intro hin
      obtain ⟨m, hm, heq⟩ := List.mem_map.mp hin
      obtain rfl := List.inj_on_of_nodup_map hids (h.subset m (List.mem_append_left _ hm)) hn heq
      exact List.disjoint_of_nodup_append h.nodup hm (by simp [hqueue])
    have hids' : (s.order ++ [n]).map idOf = s.order.map idOf ++ [idOf n] := by simp
    have hchild : ∀ c ∈ nodes, (idOf c ∈ (children idOf depsOf sort nodes n).map idOf ↔
        idOf n ∈ parents idOf depsOf nodes c) := by
      intro c hc
      rw [mem_parents, List.mem_map]
      constructor
      · rintro ⟨c', hc', heq⟩
        obtain ⟨hc', hdep⟩ := (mem_children hsort).mp hc'
        obtain rfl := List.inj_on_of_nodup_map hids hc' hc heq
        exact ⟨hdep, n, hn, rfl⟩
      · rintro ⟨hdep, -⟩
        exact ⟨c, (mem_children hsort).mpr ⟨hc, hdep⟩, rfl⟩
    -- A child that had one name left is free now, every other node is as free as before.
    have hfree : ∀ c ∈ nodes, (Free idOf depsOf nodes (s.order.map idOf ++ [idOf n]) c ↔
        c ∈ s.order ++ s.queue ∨
          c ∈ children idOf depsOf sort nodes n ∧ s.inDegree (idOf c) = 1) := by
      intro c hc
      rw [h.mem_iff c hc, ← left_eq_zero, ← left_eq_zero, left_concat hnew, h.inDegree c hc,
        mem_children hsort]
      have hpar : idOf n ∈ parents idOf depsOf nodes c ↔ c ∈ nodes ∧ idOf n ∈ depsOf c := by
        rw [mem_parents]
        exact ⟨fun hp ↦ ⟨hc, hp.1⟩, fun hp ↦ ⟨hp.2, n, hn, rfl⟩⟩
      by_cases hp : idOf n ∈ parents idOf depsOf nodes c
      · have hne : left idOf depsOf nodes (s.order.map idOf) c ≠ 0 := by
          intro hzero
          exact hnew ((left_eq_zero.mp hzero).2 _ hp)
        rw [if_pos hp, and_iff_right (hpar.mp hp), or_iff_right hne]
        omega
      · have hchild' : ¬(c ∈ nodes ∧ idOf n ∈ depsOf c) := hpar.not.mp hp
        rw [if_neg hp, sub_zero]
        exact ⟨Or.inl, fun h ↦ h.resolve_right fun h ↦ hchild' h.1⟩
    have hqmem : ∀ c, c ∈ s.order ++ [n] ++ (queue ++ (children idOf depsOf sort nodes n).filter
        fun c ↦ s.inDegree (idOf c) = 1) ↔ c ∈ s.order ++ s.queue ∨
          c ∈ children idOf depsOf sort nodes n ∧ s.inDegree (idOf c) = 1 := by
      intro c
      simp [hqueue, or_assoc]
    have hfirst : s.order ++ [n] ++ queue = s.order ++ s.queue := by simp [hqueue]
    refine ⟨fun c hc ↦ ?_, ?_, fun c hc ↦ ?_, fun c hc ↦ ?_, h.ordered.concat ?_⟩
    · dsimp only
      rw [hids', left_concat hnew, h.inDegree c hc]
      simp only [hchild c hc]
    · dsimp only
      rw [← List.append_assoc, hfirst, List.nodup_append]
      refine ⟨h.nodup, (nodup_children hsort hids n).of_map.filter _, ?_⟩
      rintro c hc c' hc' rfl
      obtain ⟨hc', hone⟩ := List.mem_filter.mp hc'
      have hcn := ((mem_children hsort).mp hc').1
      have hzero := left_eq_zero.mpr ((h.mem_iff c hcn).mp hc)
      rw [← h.inDegree c hcn, of_decide_eq_true hone] at hzero
      exact one_ne_zero hzero
    · rcases (hqmem c).mp hc with hc | ⟨hc, -⟩
      · exact h.subset c hc
      · exact ((mem_children hsort).mp hc).1
    · dsimp only
      rw [hids', hfree c hc]
      exact hqmem c
    · exact ((h.mem_iff n hn).mp hmem).2

theorem Inv.length_le {s : State T I} (h : Inv idOf depsOf nodes s) :
    (s.order ++ s.queue).length ≤ nodes.length :=
  (h.nodup.subperm h.subset).length_le

theorem iterate_inv (hsort : ∀ l, (sort l).Perm l) (hids : (nodes.map idOf).Nodup) (k : ℕ) :
    Inv idOf depsOf nodes ((visit idOf depsOf sort nodes)^[k] (start idOf depsOf sort nodes)) := by
  induction k with
  | zero => exact start_inv hsort hids
  | succ k ih =>
    rw [Function.iterate_succ_apply']
    exact visit_inv hsort hids ih

/-- Every visit takes a node as long as the queue has one. -/
theorem iterate_length (k : ℕ) (s : State T I) :
    ((visit idOf depsOf sort nodes)^[k] s).queue = [] ∨
      ((visit idOf depsOf sort nodes)^[k] s).order.length = s.order.length + k := by
  induction k with
  | zero => exact .inr rfl
  | succ k ih =>
    rw [Function.iterate_succ_apply']
    set t := (visit idOf depsOf sort nodes)^[k] s
    cases hqueue : t.queue with
    | nil =>
      left
      rw [visit, hqueue]
      exact hqueue
    | cons n queue =>
      have hlen := ih.resolve_left (by simp [hqueue])
      right
      rw [visit, hqueue]
      simp [hlen, Nat.add_assoc]

theorem order_inv (hsort : ∀ l, (sort l).Perm l) (hids : (nodes.map idOf).Nodup) :
    ∃ inDegree, Inv idOf depsOf nodes ⟨inDegree, [], order idOf depsOf sort nodes⟩ := by
  have hinv : Inv idOf depsOf nodes ((visit idOf depsOf sort nodes)^[nodes.length]
      (start idOf depsOf sort nodes)) := iterate_inv hsort hids nodes.length
  have hqueue : ((visit idOf depsOf sort nodes)^[nodes.length]
      (start idOf depsOf sort nodes)).queue = [] := by
    rcases iterate_length nodes.length (start idOf depsOf sort nodes) with h | h
    · exact h
    · have hle := hinv.length_le
      rw [List.length_append, h] at hle
      exact List.length_eq_zero_iff.mp (by omega)
  refine ⟨((visit idOf depsOf sort nodes)^[nodes.length]
      (start idOf depsOf sort nodes)).inDegree, ?_⟩
  rw [← hqueue]
  exact hinv

/-- The nodes taken are those that name no dependency twice and whose dependencies are taken. -/
theorem mem_order (hsort : ∀ l, (sort l).Perm l) (hids : (nodes.map idOf).Nodup) {n : T}
    (hn : n ∈ nodes) : n ∈ order idOf depsOf sort nodes ↔
      Free idOf depsOf nodes ((order idOf depsOf sort nodes).map idOf) n := by
  obtain ⟨_, hinv⟩ := order_inv hsort hids
  simpa using hinv.mem_iff n hn

theorem order_nodup (hsort : ∀ l, (sort l).Perm l) (hids : (nodes.map idOf).Nodup) :
    (order idOf depsOf sort nodes).Nodup := by
  obtain ⟨_, hinv⟩ := order_inv hsort hids
  simpa using hinv.nodup

theorem order_subset (hsort : ∀ l, (sort l).Perm l) (hids : (nodes.map idOf).Nodup) :
    order idOf depsOf sort nodes ⊆ nodes := by
  obtain ⟨_, hinv⟩ := order_inv hsort hids
  exact fun n hn ↦ hinv.subset n (by simpa using hn)

theorem order_ordered (hsort : ∀ l, (sort l).Perm l) (hids : (nodes.map idOf).Nodup) :
    Ordered idOf depsOf nodes (order idOf depsOf sort nodes) := by
  obtain ⟨_, hinv⟩ := order_inv hsort hids
  exact hinv.ordered

theorem order_perm_iff (hsort : ∀ l, (sort l).Perm l) (hids : (nodes.map idOf).Nodup) :
    (order idOf depsOf sort nodes).length = nodes.length ↔
      (order idOf depsOf sort nodes).Perm nodes := by
  constructor
  · intro h
    exact ((order_nodup hsort hids).subperm (order_subset hsort hids)).perm_of_length_le h.ge
  · exact fun h ↦ h.length_eq

/-- Without a cycle, all nodes are taken as soon as none of them names a dependency twice. -/
theorem order_perm_of_acyclic (hsort : ∀ l, (sort l).Perm l) (hids : (nodes.map idOf).Nodup)
    (hacyclic : ∀ i, ¬Relation.TransGen (Edge idOf depsOf nodes) i i) :
    (order idOf depsOf sort nodes).Perm nodes ↔
      ∀ n ∈ nodes, (parents idOf depsOf nodes n).Nodup := by
  constructor
  · exact fun h n hn ↦ ((mem_order hsort hids hn).mp (h.symm.subset hn)).1
  · intro hnames
    have hids' : ∀ n ∈ nodes, n ∈ order idOf depsOf sort nodes := by
      let Node := {i // i ∈ nodes.map idOf}
      let Below : Node → Node → Prop :=
        fun p c ↦ Relation.TransGen (Edge idOf depsOf nodes) p.1 c.1
      have : Finite Node := (List.finite_toSet (nodes.map idOf)).to_subtype
      have : IsTrans Node Below := ⟨fun _ _ _ h h' ↦ h.trans h'⟩
      have : Std.Irrefl Below := ⟨fun c h ↦ hacyclic c.1 h⟩
      have hwf : WellFounded Below := Finite.wellFounded_of_trans_of_irrefl Below
      have hall : ∀ c : Node, ∀ n ∈ nodes, idOf n = c.1 →
          n ∈ order idOf depsOf sort nodes := by
        intro c
        induction c using hwf.induction with
        | _ c ih =>
          intro n hn hc
          refine (mem_order hsort hids hn).mpr ⟨hnames n hn, fun p hp ↦ ?_⟩
          obtain ⟨m, hm, hid⟩ := (mem_parents.mp hp).2
          have hbelow : Below ⟨p, List.mem_map.mpr ⟨m, hm, hid⟩⟩ c := .single ⟨n, hn, hc, hp⟩
          exact List.mem_map.mpr ⟨m, ih _ hbelow m hm hid, hid⟩
      exact fun n hn ↦ hall ⟨idOf n, List.mem_map_of_mem hn⟩ n hn rfl
    exact (List.perm_ext_iff_of_nodup (order_nodup hsort hids) hids.of_map).mpr
      fun n ↦ ⟨fun h ↦ order_subset hsort hids h, hids' n⟩

end Kahn

/-! A relation from a finite list of things has no cycle exactly when it can be ranked. -/

namespace Acyclic

variable {I : Type} {r : I → I → Prop} {rank : I → ℕ}

theorem rank_lt (hrank : ∀ a b, r a b → rank a < rank b) {a b : I} (h : Relation.TransGen r a b) :
    rank a < rank b := by
  induction h with
  | single hab => exact hrank _ _ hab
  | tail _ hbc ih => exact ih.trans (hrank _ _ hbc)

theorem of_rank (hrank : ∀ a b, r a b → rank a < rank b) (i : I) :
    ¬Relation.TransGen r i i := fun h ↦ (rank_lt hrank h).false

open Classical in
/-- The rank of a thing is the number of things below it. -/
theorem exists_rank {things : List I} (hmem : ∀ a b, r a b → a ∈ things)
    (hacyclic : ∀ i, ¬Relation.TransGen r i i) :
    ∃ rank : I → ℕ, ∀ a b, r a b → rank a < rank b := by
  let below : I → Finset I := fun b ↦ things.toFinset.filter (Relation.TransGen r · b)
  refine ⟨fun b ↦ (below b).card, fun a b hab ↦ ?_⟩
  have hsub : below a ⊆ below b := by
    intro c hc
    obtain ⟨hc, hca⟩ := Finset.mem_filter.mp hc
    exact Finset.mem_filter.mpr ⟨hc, hca.tail hab⟩
  have ha : a ∈ below b :=
    Finset.mem_filter.mpr ⟨List.mem_toFinset.mpr (hmem a b hab), .single hab⟩
  have ha' : a ∉ below a := fun h ↦ hacyclic a (Finset.mem_filter.mp h).2
  exact Finset.card_lt_card ⟨hsub, fun h ↦ ha' (h ha)⟩

end Acyclic
