import ArkadeSdk.Lib.WireFormat

/-! Readers that count the elements they decode, whether they return or throw. -/

namespace WireFormat

open JsNumber

variable {α β : Type}

/-- What is left is the end of the input, at least `n` bytes further on. -/
def Consumes (r : Reader α) (n : ℕ) : Prop :=
  ∀ s a rest, r.run s = .ok (a, rest) → ∃ used, s = used ++ rest ∧ n ≤ used.length

section Consumes

variable {r r' : Reader α} {f : α → Reader β} {n m : ℕ}

theorem Consumes.mono (h : Consumes r n) (hle : m ≤ n) : Consumes r m := by
  intro s a rest hr
  obtain ⟨used, hs, hn⟩ := h s a rest hr
  exact ⟨used, hs, hle.trans hn⟩

theorem consumes_pure (a : α) : Consumes (pure a : Reader α) 0 := by
  intro s b rest h
  obtain ⟨-, rfl⟩ := run_pure_ok.mp h
  exact ⟨[], rfl, Nat.le_refl 0⟩

theorem consumes_throw (e : Message) : Consumes (throw e : Reader α) n := by
  intro s a rest h
  cases h

theorem consumes_check (x : Except Message α) : Consumes (liftM x : Reader α) 0 := by
  intro s a rest h
  obtain ⟨-, rfl⟩ := run_liftM_ok.mp h
  exact ⟨[], rfl, Nat.le_refl 0⟩

theorem Consumes.bind (h : Consumes r n) (hf : ∀ a, Consumes (f a) m) :
    Consumes (r >>= f) (n + m) := by
  intro s b rest hrun
  obtain ⟨a, mid, hr, hrest⟩ := run_bind_ok hrun
  obtain ⟨used, rfl, hn⟩ := h s a mid hr
  obtain ⟨used', rfl, hm⟩ := hf a mid b rest hrest
  refine ⟨used ++ used', (List.append_assoc ..).symm, ?_⟩
  rw [List.length_append]
  exact Nat.add_le_add hn hm

/-- It is enough that the first step consumes that much. -/
theorem Consumes.bind_left (h : Consumes r n) (hf : ∀ a, Consumes (f a) 0) :
    Consumes (r >>= f) n :=
  h.bind hf

/-- It is enough that the later steps consume that much. -/
theorem Consumes.bind_right (h : Consumes r 0) (hf : ∀ a, Consumes (f a) n) :
    Consumes (r >>= f) n :=
  (h.bind hf).mono (Nat.zero_add n).ge

theorem Consumes.map {g : α → β} (h : Consumes r n) : Consumes (g <$> r) n := by
  rw [map_eq_pure_bind]
  exact h.bind_left fun a ↦ consumes_pure (g a)

theorem Consumes.ite {p : Prop} [Decidable p] (h : Consumes r n) (h' : Consumes r' n) :
    Consumes (if p then r else r') n := by
  split
  · exact h
  · exact h'

end Consumes

theorem consumes_remaining : Consumes remaining 0 := by
  intro s a rest h
  cases h
  exact ⟨[], rfl, Nat.le_refl 0⟩

theorem consumes_byte : Consumes readByte 1 := by
  intro s a rest h
  cases s with
  | nil => cases h
  | cons b s =>
    cases h
    exact ⟨[a], rfl, Nat.le_refl 1⟩

theorem consumes_slice (size : ℕ) : Consumes (readSlice size) size := by
  intro s a rest h
  exact ⟨a, readSlice_ok h, (readSlice_length h).ge⟩

theorem consumes_uint16LE : Consumes readUint16LE 2 := by
  intro s a rest h
  exact ⟨uint16LE a, readUint16LE_ok h, Nat.le_refl 2⟩

theorem consumes_uint32LE : Consumes readUint32LE 4 := by
  intro s a rest h
  simp only [StateT.run, readUint32LE] at h
  split at h
  · next b₀ b₁ b₂ b₃ s =>
    cases h
    exact ⟨[b₀, b₁, b₂, b₃], rfl, Nat.le_refl 4⟩
  · cases h

theorem consumes_leb128From (shift result : ℕ) : Consumes (readLeb128From shift result) 1 := by
  intro s
  induction s generalizing shift result with
  | nil =>
    intro a rest h
    cases h
  | cons b s ih =>
    intro a rest h
    simp only [StateT.run, readLeb128From] at h
    split at h
    · cases h
      exact ⟨[b], rfl, Nat.le_refl 1⟩
    · obtain ⟨used, rfl, -⟩ := ih _ _ a rest h
      exact ⟨b :: used, rfl, Nat.succ_le_succ (Nat.zero_le _)⟩

theorem consumes_leb128 : Consumes readLeb128 1 := consumes_leb128From 0 0

/-- A reader with the number of elements it has decoded by the time it returns or throws. -/
def Metered (α : Type) := Bytes → ℕ × Except Message (α × Bytes)

namespace Metered

instance : Monad Metered where
  pure a := fun s ↦ (0, .ok (a, s))
  bind m f := fun s ↦
    match m s with
    | (k, .ok (a, rest)) => (k + (f a rest).1, (f a rest).2)
    | (k, .error e) => (k, .error e)

/-- A reader that decodes no element of its own. -/
def free (r : Reader α) : Metered α := fun s ↦ (0, r.run s)

/-- What it decodes, if it does, is one more element. -/
def element (m : Metered α) : Metered α := fun s ↦
  match m s with
  | (k, .ok p) => (k + 1, .ok p)
  | (k, .error e) => (k, .error e)

def value (m : Metered α) : Reader α := fun s ↦ (m s).2

def many (m : Metered α) : ℕ → Metered (List α)
  | 0 => pure []
  | n + 1 => do
    let a ← m
    let as ← many m n
    return a :: as

variable {m m' : Metered α} {f : α → Metered β}

@[simp] theorem value_pure (a : α) : (pure a : Metered α).value = pure a := rfl

@[simp] theorem value_bind : (m >>= f).value = m.value >>= fun a ↦ (f a).value := by
  funext s
  simp only [value, Bind.bind, StateT.bind]
  split
  · next heq =>
    rw [heq]
    rfl
  · next heq =>
    rw [heq]
    rfl

@[simp] theorem value_free (r : Reader α) : (free r).value = r := rfl

@[simp] theorem value_element : (element m).value = m.value := by
  funext s
  simp only [value, element]
  split
  · next heq => rw [heq]
  · next heq => rw [heq]

@[simp] theorem value_ite {p : Prop} [Decidable p] :
    (if p then m else m').value = if p then m.value else m'.value := by
  split <;> rfl

@[simp] theorem value_many (n : ℕ) : (many m n).value = readMany m.value n := by
  induction n with
  | zero => rfl
  | succ n ih => simp [many, readMany, ih]

/-- The elements decoded are no more than the bytes consumed, less `n`, and no more than the
bytes there were when the reader throws. -/
structure Paid (m : Metered α) (n : ℕ) : Prop where
  ok : ∀ s k a rest, m s = (k, .ok (a, rest)) → ∃ used, s = used ++ rest ∧ k + n ≤ used.length
  error : ∀ s k e, m s = (k, .error e) → k ≤ s.length

theorem Paid.count_le {n : ℕ} (h : Paid m n) (s : Bytes) : (m s).1 ≤ s.length := by
  rcases hm : m s with ⟨k, e | ⟨a, rest⟩⟩
  · exact h.error s k e hm
  · obtain ⟨used, rfl, hk⟩ := h.ok s k a rest hm
    rw [List.length_append]
    exact ((Nat.le_add_right k n).trans hk).trans (Nat.le_add_right _ _)

theorem Paid.consumes {n : ℕ} (h : Paid m n) : Consumes m.value n := by
  intro s a rest hrun
  obtain ⟨used, hs, hk⟩ := h.ok s (m s).1 a rest (Prod.ext rfl hrun)
  exact ⟨used, hs, (Nat.le_add_left n _).trans hk⟩

theorem Paid.mono {n n' : ℕ} (h : Paid m n) (hle : n' ≤ n) : Paid m n' where
  ok s k a rest hm := by
    obtain ⟨used, hs, hk⟩ := h.ok s k a rest hm
    exact ⟨used, hs, (Nat.add_le_add_left hle k).trans hk⟩
  error := h.error

theorem paid_free {r : Reader α} {n : ℕ} (h : Consumes r n) : Paid (free r) n where
  ok s k a rest hm := by
    obtain ⟨rfl, hr⟩ := Prod.mk.inj hm
    obtain ⟨used, hs, hn⟩ := h s a rest hr
    exact ⟨used, hs, by rwa [Nat.zero_add]⟩
  error s k e hm := by
    obtain ⟨rfl, -⟩ := Prod.mk.inj hm
    exact Nat.zero_le _

theorem paid_pure (a : α) : Paid (pure a : Metered α) 0 := paid_free (consumes_pure a)

theorem Paid.element {n : ℕ} (h : Paid m (n + 1)) : Paid (element m) n where
  ok s k a rest hm := by
    unfold Metered.element at hm
    split at hm
    · next k' p heq =>
      cases hm
      obtain ⟨used, hs, hk⟩ := h.ok s k' a rest heq
      exact ⟨used, hs, by omega⟩
    · cases hm
  error s k e hm := by
    unfold Metered.element at hm
    split at hm
    · cases hm
    · next k' e' heq =>
      cases hm
      exact h.error s k e heq

theorem Paid.bind {n n' : ℕ} (h : Paid m n) (hf : ∀ a, Paid (f a) n') :
    Paid (m >>= f) (n + n') where
  ok s k b rest hm := by
    simp only [Bind.bind] at hm
    split at hm
    · next k' a mid heq =>
      obtain ⟨rfl, hrest⟩ := Prod.mk.inj hm
      obtain ⟨used, rfl, hk⟩ := h.ok s k' a mid heq
      obtain ⟨used', rfl, hk'⟩ := (hf a).ok mid _ b rest (Prod.ext rfl hrest)
      refine ⟨used ++ used', (List.append_assoc ..).symm, ?_⟩
      rw [List.length_append, Nat.add_add_add_comm]
      exact Nat.add_le_add hk hk'
    · cases hm
  error s k e hm := by
    simp only [Bind.bind] at hm
    split at hm
    · next k' a mid heq =>
      obtain ⟨rfl, -⟩ := Prod.mk.inj hm
      obtain ⟨used, rfl, hk⟩ := h.ok s k' a mid heq
      have hk' := (hf a).count_le mid
      rw [List.length_append]
      omega
    · next k' e' heq =>
      cases hm
      exact h.error s k e heq

theorem Paid.bind_left {n : ℕ} (h : Paid m n) (hf : ∀ a, Paid (f a) 0) : Paid (m >>= f) n :=
  h.bind hf

theorem Paid.ite {p : Prop} [Decidable p] {n : ℕ} (h : Paid m n) (h' : Paid m' n) :
    Paid (if p then m else m') n := by
  split
  · exact h
  · exact h'

theorem Paid.many (h : Paid m 0) (n : ℕ) : Paid (many m n) 0 := by
  induction n with
  | zero => exact paid_pure []
  | succ n ih => exact h.bind_left fun a ↦ ih.bind_left fun as ↦ paid_pure (a :: as)

/-- How the loop `for (let i = 0; more; i++) out.push(read(reader))` ends, if it does, from its
`i`-th turn on: `more` may look at `i` and at what is left. -/
inductive LoopRuns (m : Metered α) (more : ℕ → Bytes → Prop) :
    ℕ → Bytes → ℕ × Except Message (List α × Bytes) → Prop
  | stop {i : ℕ} {s : Bytes} (h : ¬more i s) : LoopRuns m more i s (0, .ok ([], s))
  | throw {i k : ℕ} {s : Bytes} {e : Message} (h : more i s) (hm : m s = (k, .error e)) :
      LoopRuns m more i s (k, .error e)
  | turn {i k k' : ℕ} {s rest : Bytes} {a : α} {result : Except Message (List α × Bytes)}
      (h : more i s) (hm : m s = (k, .ok (a, rest)))
      (hrest : LoopRuns m more (i + 1) rest (k', result)) :
      LoopRuns m more i s (k + k', (fun p ↦ (a :: p.1, p.2)) <$> result)

/-- A loop over elements that consume something ends, whatever it waits for. -/
theorem exists_loopRuns (h : Paid m 0) (hm : Consumes m.value 1) (more : ℕ → Bytes → Prop) (i : ℕ)
    (s : Bytes) : ∃ out, LoopRuns m more i s out ∧ out.1 ≤ s.length := by
  induction hn : s.length using Nat.strongRecOn generalizing i s with
  | _ n ih =>
    by_cases hmore : more i s
    · rcases hrun : m s with ⟨k, e | ⟨a, rest⟩⟩
      · exact ⟨_, .throw hmore hrun, hn ▸ h.error s k e hrun⟩
      · have hval : m.value.run s = .ok (a, rest) := congrArg Prod.snd hrun
        obtain ⟨used, rfl, hused⟩ := hm s a rest hval
        obtain ⟨used', hused', hk⟩ := h.ok _ k a rest hrun
        obtain rfl := List.append_cancel_right hused'
        rw [List.length_append] at hn
        obtain ⟨⟨k', result⟩, hloop, hle⟩ := ih rest.length (by omega) (i + 1) rest rfl
        exact ⟨_, .turn hmore hrun hloop, by dsimp only at hle ⊢; omega⟩
    · exact ⟨_, .stop hmore, Nat.zero_le _⟩

theorem LoopRuns.unique {more : ℕ → Bytes → Prop} {i : ℕ} {s : Bytes}
    {out out' : ℕ × Except Message (List α × Bytes)} (h : LoopRuns m more i s out)
    (h' : LoopRuns m more i s out') : out = out' := by
  induction h generalizing out' with
  | stop hmore =>
    cases h' with
    | stop => rfl
    | throw hmore' => exact absurd hmore' hmore
    | turn hmore' => exact absurd hmore' hmore
  | throw hmore hm =>
    cases h' with
    | stop hmore' => exact absurd hmore hmore'
    | throw _ hm' =>
      rw [hm] at hm'
      cases hm'
      rfl
    | turn _ hm' =>
      rw [hm] at hm'
      cases hm'
  | turn hmore hm _ ih =>
    cases h' with
    | stop hmore' => exact absurd hmore hmore'
    | throw _ hm' =>
      rw [hm] at hm'
      cases hm'
    | turn _ hm' hrest' =>
      rw [hm] at hm'
      cases hm'
      cases ih hrest'
      rfl

/-- The loop up to a count that the input names. -/
theorem loopRuns_many (n i : ℕ) (s : Bytes) :
    LoopRuns m (fun j _ ↦ j < i + n) i s (many m n s) := by
  induction n generalizing i s with
  | zero => exact .stop (Nat.lt_irrefl i)
  | succ n ih =>
    have hmore : i < i + (n + 1) := by omega
    simp only [many, Bind.bind]
    rcases hrun : m s with ⟨k, e | ⟨a, rest⟩⟩
    · exact .throw hmore hrun
    · have hrest := ih (i + 1) rest
      rw [show i + 1 + n = i + (n + 1) by omega] at hrest
      have hloop := LoopRuns.turn hmore hrun hrest
      dsimp only
      split
      · next heq =>
        rw [heq] at hloop
        exact hloop
      · next heq =>
        rw [heq] at hloop
        exact hloop

end Metered

end WireFormat
