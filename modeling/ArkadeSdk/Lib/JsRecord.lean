import ArkadeSdk.Lib.Decimal

/-! Objects used as string-keyed records: their own properties, in the order the language lists
them. -/

namespace JsRecord

def arrayIndex (k : String) : Option ℕ :=
  match Decimal.ofText k with
  | none => none
  | some z => if 0 ≤ z ∧ z < 4294967295 ∧ Decimal.toText z = k then some z.toNat else none

theorem arrayIndex_inj {k k' : String} {i : ℕ} (h : arrayIndex k = some i)
    (h' : arrayIndex k' = some i) : k = k' := by
  have htext {s : String} (hs : arrayIndex s = some i) : Decimal.toText i = s := by
    unfold arrayIndex at hs
    split at hs
    · cases hs
    · split at hs
      · rename_i z _ hz
        obtain ⟨h0, -, hz⟩ := hz
        obtain rfl := Option.some.inj hs
        rwa [Int.toNat_of_nonneg h0]
      · cases hs
  rw [← htext h, ← htext h']

/-- Array indices first and in ascending order, then the other keys as they were added. -/
def Before (k k' : String) : Prop :=
  match arrayIndex k, arrayIndex k' with
  | some i, some j => i < j
  | some _, none => True
  | none, some _ => False
  | none, none => k ≠ k'

instance (k k' : String) : Decidable (Before k k') := by
  unfold Before
  split <;> infer_instance

theorem Before.ne {k k' : String} (h : Before k k') : k ≠ k' := by
  rintro rfl
  unfold Before at h
  split at h <;> simp_all

/-- A new index goes before the first key it precedes. -/
def Precedes (k k' : String) : Prop := (arrayIndex k).isSome = true ∧ Before k k'

instance (k k' : String) : Decidable (Precedes k k') := by
  unfold Precedes
  infer_instance

theorem Precedes.trans {k k' k'' : String} (h : Precedes k k') (h' : Before k' k'') :
    Before k k'' := by
  obtain ⟨hindex, h⟩ := h
  obtain ⟨i, hi⟩ := Option.isSome_iff_exists.mp hindex
  unfold Before at *
  rw [hi] at h ⊢
  cases hj : arrayIndex k' with
  | none =>
    rw [hj] at h'
    cases hm : arrayIndex k'' with
    | none => trivial
    | some m => simp [hm] at h'
  | some j =>
    rw [hj] at h h'
    cases hm : arrayIndex k'' with
    | none => trivial
    | some m =>
      rw [hm] at h'
      exact lt_trans h h'

theorem before_of_not_precedes {k k' : String} (hne : k ≠ k') (h : ¬Precedes k k') :
    Before k' k := by
  unfold Precedes at h
  unfold Before at *
  cases hi : arrayIndex k with
  | none =>
    cases hj : arrayIndex k' with
    | none => exact fun he ↦ hne he.symm
    | some j => trivial
  | some i =>
    rw [hi] at h
    cases hj : arrayIndex k' with
    | none => simp [hj] at h
    | some j =>
      rw [hj] at h
      simp only [Option.isSome_some, true_and, not_lt] at h
      refine lt_of_le_of_ne h ?_
      rintro rfl
      exact hne (arrayIndex_inj hi hj)

variable {α β : Type}

def Ordered (l : List (String × α)) : Prop := l.Pairwise fun p q ↦ Before p.1 q.1

structure Record (α : Type) where
  entries : List (String × α)
  ordered : Ordered entries

/-- Assign to a key: in place, or where the order puts a new key. -/
def insertEntry (k : String) (v : α) : List (String × α) → List (String × α)
  | [] => [(k, v)]
  | p :: l =>
    if k = p.1 then (k, v) :: l
    else if Precedes k p.1 then (k, v) :: p :: l
    else p :: insertEntry k v l

theorem mem_insertEntry {k : String} {v : α} {l : List (String × α)} {p : String × α}
    (h : p ∈ insertEntry k v l) : p.1 = k ∨ p ∈ l := by
  induction l with
  | nil =>
    obtain rfl := List.mem_singleton.mp h
    exact .inl rfl
  | cons q l ih =>
    unfold insertEntry at h
    split at h
    · rcases List.mem_cons.mp h with rfl | h
      · exact .inl rfl
      · exact .inr (List.mem_cons_of_mem q h)
    · split at h
      · rcases List.mem_cons.mp h with rfl | h
        · exact .inl rfl
        · exact .inr h
      · rcases List.mem_cons.mp h with rfl | h
        · exact .inr List.mem_cons_self
        · exact (ih h).imp_right (List.mem_cons_of_mem q)

theorem ordered_insertEntry (k : String) (v : α) {l : List (String × α)} (h : Ordered l) :
    Ordered (insertEntry k v l) := by
  induction l with
  | nil => exact List.pairwise_singleton _ _
  | cons p l ih =>
    obtain ⟨hp, hl⟩ := List.pairwise_cons.mp h
    unfold insertEntry
    split
    · rename_i hk
      subst hk
      exact List.pairwise_cons.mpr ⟨hp, hl⟩
    · rename_i hk
      split
      · rename_i hprecedes
        refine List.pairwise_cons.mpr ⟨fun q hq ↦ ?_, h⟩
        rcases List.mem_cons.mp hq with rfl | hq
        · exact hprecedes.2
        · exact hprecedes.trans (hp q hq)
      · rename_i hprecedes
        refine List.pairwise_cons.mpr ⟨fun q hq ↦ ?_, ih hl⟩
        rcases mem_insertEntry hq with hq | hq
        · rw [hq]
          exact before_of_not_precedes hk hprecedes
        · exact hp q hq

/-- A key that every other key comes before is added at the end. -/
theorem insertEntry_append {k : String} {v : α} {l : List (String × α)}
    (h : ∀ p ∈ l, Before p.1 k) : insertEntry k v l = l ++ [(k, v)] := by
  induction l with
  | nil => rfl
  | cons p l ih =>
    obtain ⟨hp, hl⟩ := List.forall_mem_cons.mp h
    have hprecedes : ¬Precedes k p.1 := fun hprecedes ↦ (hprecedes.trans hp).ne rfl
    rw [insertEntry, if_neg hp.ne.symm, if_neg hprecedes, ih hl, List.cons_append]

theorem lookup_cons_eq_ite (k : String) (p : String × α) (l : List (String × α)) :
    (p :: l).lookup k = if k = p.1 then some p.2 else l.lookup k := by
  rw [List.lookup_cons]
  by_cases hk : k = p.1
  · simp [hk]
  · simp [hk, beq_false_of_ne hk]

theorem lookup_insertEntry (k : String) (v : α) (l : List (String × α)) (k' : String) :
    (insertEntry k v l).lookup k' = if k' = k then some v else l.lookup k' := by
  induction l with
  | nil => rw [insertEntry, lookup_cons_eq_ite]
  | cons p l ih =>
    unfold insertEntry
    split
    · rename_i hp
      rw [lookup_cons_eq_ite, lookup_cons_eq_ite, ← hp]
      split <;> rfl
    · rename_i hp
      split
      · rw [lookup_cons_eq_ite]
      · rw [lookup_cons_eq_ite, lookup_cons_eq_ite, ih]
        by_cases hk : k' = k
        · rw [if_neg (hk ▸ hp), if_pos hk, if_pos hk]
        · simp [hk]

theorem Ordered.nodup {l : List (String × α)} (h : Ordered l) : (l.map Prod.fst).Nodup :=
  List.pairwise_map.mpr (h.imp Before.ne)

theorem Ordered.filterMap {l : List (String × α)} (h : Ordered l) (f : String → α → Option β) :
    Ordered (l.filterMap fun p ↦ (f p.1 p.2).map fun v ↦ (p.1, v)) := by
  refine List.pairwise_filterMap.mpr (h.imp ?_)
  intro p q hpq p' hp q' hq
  obtain ⟨v, -, rfl⟩ := Option.map_eq_some_iff.mp hp
  obtain ⟨w, -, rfl⟩ := Option.map_eq_some_iff.mp hq
  exact hpq

/-- Looking up among entries of which each is changed or left out. -/
theorem lookup_filterMap {l : List (String × α)} (h : Ordered l) (f : String → α → Option β)
    (k : String) : (l.filterMap fun p ↦ (f p.1 p.2).map fun v ↦ (p.1, v)).lookup k =
      (l.lookup k).bind (f k) := by
  induction l with
  | nil => rfl
  | cons p l ih =>
    obtain ⟨hp, hl⟩ := List.pairwise_cons.mp h
    have hnone : k = p.1 → l.lookup k = none := by
      rintro rfl
      refine List.lookup_eq_none_iff.mpr fun q hq ↦ ?_
      simpa using (hp q hq).ne
    rw [lookup_cons_eq_ite, List.filterMap_cons]
    cases hf : f p.1 p.2 with
    | none =>
      simp only [Option.map_none, ih hl]
      by_cases hk : k = p.1
      · rw [hnone hk, if_pos hk, Option.bind_some, hk, hf]
        rfl
      · rw [if_neg hk]
    | some v =>
      simp only [Option.map_some, lookup_cons_eq_ite, ih hl]
      by_cases hk : k = p.1
      · rw [if_pos hk, if_pos hk, Option.bind_some, hk, hf]
      · rw [if_neg hk, if_neg hk]

namespace Record

def objectPrototype : List String :=
  ["constructor", "__defineGetter__", "__defineSetter__", "hasOwnProperty", "__lookupGetter__",
    "__lookupSetter__", "isPrototypeOf", "propertyIsEnumerable", "toString", "valueOf",
    "__proto__", "toLocaleString"]

def empty : Record α := ⟨[], List.Pairwise.nil⟩

def keys (r : Record α) : List String := r.entries.map Prod.fst

def get (r : Record α) (k : String) : Option α := r.entries.lookup k

/-- `r[k] = v`. Assigning to `__proto__` makes no property. -/
def set (r : Record α) (k : String) (v : α) : Record α :=
  if k = "__proto__" then r else ⟨insertEntry k v r.entries, ordered_insertEntry k v r.ordered⟩

/-- A record filled entry by entry. -/
def ofEntries (l : List (String × α)) : Record α := l.foldl (fun r p ↦ r.set p.1 p.2) empty

theorem get_set {k : String} (hproto : k ≠ "__proto__") (r : Record α) (v : α) (k' : String) :
    (r.set k v).get k' = if k' = k then some v else r.get k' := by
  rw [set, if_neg hproto]
  exact lookup_insertEntry k v r.entries k'

/-- `{ ...r, ...l }`. -/
def spread (r : Record α) (l : List (String × α)) : Record α :=
  l.foldl (fun r p ↦ r.set p.1 p.2) r

theorem get_spread {l : List (String × α)} (hnodup : (l.map Prod.fst).Nodup)
    (hproto : "__proto__" ∉ l.map Prod.fst) (r : Record α) (k : String) :
    (r.spread l).get k = (l.lookup k).or (r.get k) := by
  induction l generalizing r with
  | nil => rfl
  | cons p l ih =>
    obtain ⟨hp, hnodup⟩ := List.nodup_cons.mp hnodup
    obtain ⟨hne, hproto⟩ := not_or.mp (List.mem_cons.not.mp hproto)
    have hspread : r.spread (p :: l) = (r.set p.1 p.2).spread l := rfl
    rw [hspread, ih hnodup hproto, get_set (Ne.symm hne), lookup_cons_eq_ite]
    by_cases hk : k = p.1
    · have hnone : l.lookup k = none := by
        apply List.lookup_eq_none_iff.mpr
        intro q hq
        have hq' : q.1 ≠ k := fun he ↦ hp (hk ▸ he ▸ List.mem_map_of_mem hq)
        simpa using hq'.symm
      rw [hnone, if_pos hk, if_pos hk]
      rfl
    · rw [if_neg hk, if_neg hk]

theorem ext_entries {r r' : Record α} (h : r.entries = r'.entries) : r = r' := by
  cases r
  cases r'
  cases h
  rfl

theorem foldl_set_entries {l : List (String × α)} {r : Record α}
    (h : Ordered (r.entries ++ l)) (hproto : "__proto__" ∉ l.map Prod.fst) :
    (l.foldl (fun r p ↦ r.set p.1 p.2) r).entries = r.entries ++ l := by
  induction l generalizing r with
  | nil => simp
  | cons p l ih =>
    simp only [List.map_cons, List.mem_cons, not_or] at hproto
    have hbefore : ∀ q ∈ r.entries, Before q.1 p.1 := fun q hq ↦
      (List.pairwise_append.mp h).2.2 q hq p List.mem_cons_self
    have hset : (r.set p.1 p.2).entries = r.entries ++ [p] := by
      rw [set, if_neg (Ne.symm hproto.1)]
      exact insertEntry_append hbefore
    rw [List.foldl_cons, ih (by simpa [hset] using h) hproto.2, hset, List.append_assoc]
    rfl

/-- A literal whose keys stand in the order they are kept in. -/
theorem entries_ofEntries {l : List (String × α)} (h : (l.map Prod.fst).Pairwise Before)
    (hproto : "__proto__" ∉ l.map Prod.fst) : (ofEntries l).entries = l :=
  foldl_set_entries (r := empty) (List.pairwise_map.mp h) hproto

/-- Copying a record entry by entry gives the record back. -/
theorem ofEntries_entries {r : Record α} (h : "__proto__" ∉ r.keys) : ofEntries r.entries = r :=
  ext_entries (foldl_set_entries (r := empty) r.ordered h)

/-- Filling a record entry by entry loses the entry under `__proto__` only. -/
theorem entries_ofEntries_of_ordered {l : List (String × α)} (h : Ordered l) :
    (ofEntries l).entries = l.filter (·.1 ≠ "__proto__") := by
  have hfilter : ∀ r : Record α, l.foldl (fun r p ↦ r.set p.1 p.2) r =
      (l.filter (·.1 ≠ "__proto__")).foldl (fun r p ↦ r.set p.1 p.2) r := by
    intro r
    rw [List.foldl_filter]
    congr 1
    funext r p
    by_cases hp : p.1 = "__proto__" <;> simp [set, hp]
  rw [ofEntries, hfilter]
  refine (foldl_set_entries (r := empty) (h.sublist List.filter_sublist) ?_).trans
    (List.nil_append _)
  intro hmem
  obtain ⟨p, hp, heq⟩ := List.mem_map.mp hmem
  simpa [heq] using (List.mem_filter.mp hp).2

theorem lookup_of_mem {l : List (String × α)} (h : Ordered l) {k : String} {v : α}
    (hmem : (k, v) ∈ l) : l.lookup k = some v := by
  induction l with
  | nil => cases hmem
  | cons p l ih =>
    obtain ⟨hp, hl⟩ := List.pairwise_cons.mp h
    rcases List.mem_cons.mp hmem with rfl | hmem
    · exact List.lookup_cons_self
    · have hne : (k == p.1) = false := by simpa using (hp (k, v) hmem).ne.symm
      rw [List.lookup_cons, hne]
      exact ih hl hmem

theorem get_of_mem {r : Record α} {k : String} {v : α} (h : (k, v) ∈ r.entries) :
    r.get k = some v := lookup_of_mem r.ordered h

def map (f : α → β) (r : Record α) : Record β where
  entries := r.entries.map fun p ↦ (p.1, f p.2)
  ordered := by
    unfold Ordered
    rw [List.pairwise_map]
    exact r.ordered

@[simp] theorem keys_map (f : α → β) (r : Record α) : (r.map f).keys = r.keys := by
  simp [keys, map]

end Record

end JsRecord
