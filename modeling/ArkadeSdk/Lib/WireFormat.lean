import ArkadeSdk.Lib.JsNumber
import Mathlib.Data.Nat.Bitwise
import Mathlib.Data.List.Basic

namespace WireFormat

open JsNumber

abbrev Bytes := List UInt8

/-- A computation that throws stops there: success splits at every step. -/
theorem bind_ok {ε α β : Type} {x : Except ε α} {f : α → Except ε β} {b : β} :
    x >>= f = .ok b ↔ ∃ a, x = .ok a ∧ f a = .ok b := by
  cases x with
  | error e =>
    constructor
    · intro h
      cases h
    · rintro ⟨a, ha, -⟩
      cases ha
  | ok a =>
    constructor
    · intro h
      exact ⟨a, rfl, h⟩
    · rintro ⟨c, hc, h⟩
      cases hc
      exact h

theorem then_ok {ε β : Type} {x : Except ε Unit} {f : Unit → Except ε β} {b : β} :
    x >>= f = .ok b ↔ x = .ok () ∧ f () = .ok b := by
  rw [bind_ok]
  constructor
  · rintro ⟨⟨⟩, h⟩
    exact h
  · exact fun h ↦ ⟨(), h⟩

theorem map_ok {ε α β : Type} {f : α → β} {x : Except ε α} {b : β} :
    f <$> x = .ok b ↔ ∃ a, x = .ok a ∧ f a = b := by
  cases x <;> simp

@[simp] theorem pure_ok {ε α : Type} {a b : α} : (pure a : Except ε α) = .ok b ↔ a = b := by
  constructor
  · intro h
    cases h
    rfl
  · rintro rfl
    rfl

theorem isOk_iff {ε α : Type} {x : Except ε α} : x.isOk = true ↔ ∃ a, x = .ok a := by
  cases x <;> simp [Except.isOk, Except.toBool]

theorem toOption_eq_some {ε α : Type} {x : Except ε α} {a : α} :
    x.toOption = some a ↔ x = .ok a := by
  cases x <;> simp [Except.toOption]

theorem mapM_cons_ok {ε α β : Type} {f : α → Except ε β} {a : α} {l : List α} {bs : List β} :
    (a :: l).mapM f = .ok bs ↔ ∃ b, f a = .ok b ∧ ∃ cs, l.mapM f = .ok cs ∧ bs = b :: cs := by
  rw [List.mapM_cons]
  simp only [bind_ok, pure_ok]
  simp only [eq_comm (a := bs)]

theorem mapM_eq_map {ε α β : Type} {f : α → Except ε β} {g : α → β} {l : List α}
    (h : ∀ a ∈ l, f a = .ok (g a)) : l.mapM f = .ok (l.map g) := by
  induction l with
  | nil => rfl
  | cons a l ih =>
    obtain ⟨ha, hl⟩ := List.forall_mem_cons.mp h
    exact mapM_cons_ok.mpr ⟨g a, ha, l.map g, ih hl, rfl⟩

/-- A traversal that succeeds element by element where another one does, with the results
mapped. -/
theorem mapM_map_ok {ε α β γ : Type} {f : α → Except ε β} {g : α → Except ε γ} {k : β → γ}
    {l : List α} {bs : List β} (h : l.mapM f = .ok bs)
    (hg : ∀ a ∈ l, ∀ b, f a = .ok b → g a = .ok (k b)) : l.mapM g = .ok (bs.map k) := by
  induction l generalizing bs with
  | nil =>
    cases h
    rfl
  | cons a l ih =>
    obtain ⟨b, hb, cs, hcs, rfl⟩ := mapM_cons_ok.mp h
    obtain ⟨ha, hl⟩ := List.forall_mem_cons.mp hg
    exact mapM_cons_ok.mpr ⟨k b, ha b hb, cs.map k, ih hcs hl, rfl⟩

theorem mapM_congr_ok {ε α β : Type} {f g : α → Except ε β} {l : List α} {bs : List β}
    (h : l.mapM f = .ok bs) (hg : ∀ a ∈ l, ∀ b, f a = .ok b → g a = .ok b) :
    l.mapM g = .ok bs := by
  have hmap := mapM_map_ok (k := id) h hg
  rwa [List.map_id] at hmap

theorem mapM_ok_forall {ε α β : Type} {f : α → Except ε β} {l : List α} {bs : List β}
    (h : l.mapM f = .ok bs) : ∀ a ∈ l, ∃ b, f a = .ok b := by
  induction l generalizing bs with
  | nil => simp
  | cons a l ih =>
    obtain ⟨b, hb, cs, hcs, -⟩ := mapM_cons_ok.mp h
    exact List.forall_mem_cons.mpr ⟨⟨b, hb⟩, ih hcs⟩

theorem mapM_ok_forall₂ {ε α β : Type} {f : α → Except ε β} {l : List α} {bs : List β}
    (h : l.mapM f = .ok bs) : List.Forall₂ (fun a b ↦ f a = .ok b) l bs := by
  induction l generalizing bs with
  | nil =>
    cases h
    exact .nil
  | cons a l ih =>
    obtain ⟨b, hb, rest, hrest, rfl⟩ := mapM_cons_ok.mp h
    exact .cons hb (ih hrest)

theorem exists_mapM_ok {ε α β : Type} {f : α → Except ε β} {l : List α}
    (h : ∀ a ∈ l, ∃ b, f a = .ok b) : ∃ bs, l.mapM f = .ok bs := by
  induction l with
  | nil => exact ⟨[], rfl⟩
  | cons a l ih =>
    obtain ⟨⟨b, hb⟩, hrest⟩ := List.forall_mem_cons.mp h
    obtain ⟨bs, hbs⟩ := ih hrest
    exact ⟨b :: bs, mapM_cons_ok.mpr ⟨b, hb, bs, hbs, rfl⟩⟩

theorem exists_mem_mapM_ok {ε α β : Type} {f : α → Except ε β} {l : List α} {bs : List β} {a : α}
    (h : l.mapM f = .ok bs) (ha : a ∈ l) : ∃ b ∈ bs, f a = .ok b := by
  induction l generalizing bs with
  | nil => cases ha
  | cons a' l ih =>
    obtain ⟨first, hfirst, rest, hrest, rfl⟩ := mapM_cons_ok.mp h
    rcases List.mem_cons.mp ha with rfl | ha
    · exact ⟨first, List.mem_cons_self, hfirst⟩
    · obtain ⟨b, hb, hf⟩ := ih hrest ha
      exact ⟨b, List.mem_cons_of_mem _ hb, hf⟩

theorem mem_mapM_ok {ε α β : Type} {f : α → Except ε β} {l : List α} {bs : List β} {b : β}
    (h : l.mapM f = .ok bs) (hb : b ∈ bs) : ∃ a ∈ l, f a = .ok b := by
  induction l generalizing bs with
  | nil =>
    cases h
    cases hb
  | cons a l ih =>
    obtain ⟨first, hfirst, rest, hrest, rfl⟩ := mapM_cons_ok.mp h
    rcases List.mem_cons.mp hb with rfl | hb
    · exact ⟨a, List.mem_cons_self, hfirst⟩
    · obtain ⟨a', ha', hf⟩ := ih hrest hb
      exact ⟨a', List.mem_cons_of_mem _ ha', hf⟩

theorem mapM_ok_of_forall₂ {ε α β : Type} {f : α → Except ε β} {l : List α} {bs : List β}
    (h : List.Forall₂ (fun a b ↦ f a = .ok b) l bs) : l.mapM f = .ok bs := by
  induction h with
  | nil => rfl
  | cons ha _ ih => exact mapM_cons_ok.mpr ⟨_, ha, _, ih, rfl⟩

theorem forM_ok {ε α : Type} {f : α → Except ε Unit} {l : List α} :
    l.forM f = .ok () ↔ ∀ a ∈ l, f a = .ok () := by
  induction l with
  | nil => simp [List.forM, pure, Except.pure]
  | cons a l ih =>
    rw [List.forM, List.forall_mem_cons, ← ih]
    exact then_ok

/-- `if (p) throw e;` -/
def rejectIf (p : Prop) [Decidable p] (e : Message) : Except Message Unit :=
  if p then .error e else .ok ()

@[simp] theorem rejectIf_ok {p : Prop} [Decidable p] {e : Message} {u : Unit} :
    rejectIf p e = .ok u ↔ ¬p := by
  unfold rejectIf
  split <;> simp [*]

/-- A reader consumes a prefix of its input or fails with a message. -/
abbrev Reader (α : Type) := StateT Bytes (Except Message) α

/-- `r` reads exactly `bs`, whatever follows, and returns `a`. -/
def Reads {α : Type} (r : Reader α) (bs : Bytes) (a : α) : Prop :=
  ∀ rest, r.run (bs ++ rest) = .ok (a, rest)

variable {α β : Type}

theorem reads_pure (a : α) : Reads (pure a : Reader α) [] a := fun _ ↦ rfl

theorem Reads.bind {r : Reader α} {f : α → Reader β} {bs cs : Bytes} {a : α} {b : β}
    (h : Reads r bs a) (h' : Reads (f a) cs b) : Reads (r >>= f) (bs ++ cs) b := by
  intro rest
  rw [StateT.run_bind, List.append_assoc, h (cs ++ rest)]
  exact h' rest

theorem Reads.map {r : Reader α} {f : α → β} {bs : Bytes} {a : α}
    (h : Reads r bs a) : Reads (f <$> r) bs (f a) := by
  intro rest
  rw [StateT.run_map, h rest]
  rfl

theorem Reads.bind_pure {r : Reader α} {f : α → Reader β} {bs : Bytes} {a : α} {b : β}
    (h : Reads r bs a) (h' : Reads (f a) [] b) : Reads (r >>= f) bs b := by
  simpa only [List.append_nil] using h.bind h'

theorem run_bind_ok {r : Reader α} {f : α → Reader β} {s t : Bytes} {b : β}
    (h : (r >>= f).run s = .ok (b, t)) : ∃ a u, r.run s = .ok (a, u) ∧ (f a).run u = .ok (b, t) := by
  rw [StateT.run_bind] at h
  cases hr : r.run s with
  | error e => rw [hr] at h; cases h
  | ok p => exact ⟨p.1, p.2, rfl, by rw [hr] at h; exact h⟩

theorem run_bind_eq {r : Reader α} {f : α → Reader β} {s t : Bytes} {a : α}
    (h : r.run s = .ok (a, t)) : (r >>= f).run s = (f a).run t := by
  rw [StateT.run_bind, h]
  rfl

@[simp] theorem run_throw (e : Message) (s : Bytes) :
    (throw e : Reader α).run s = .error e := rfl

@[simp] theorem run_pure_ok {a b : α} {s t : Bytes} :
    (pure a : Reader α).run s = .ok (b, t) ↔ a = b ∧ s = t := by
  constructor
  · intro h
    cases h
    exact ⟨rfl, rfl⟩
  · rintro ⟨rfl, rfl⟩
    rfl

theorem run_liftM_ok {x : Except Message α} {s t : Bytes} {a : α} :
    (liftM x : Reader α).run s = .ok (a, t) ↔ x = .ok a ∧ s = t := by
  cases x with
  | error e =>
    constructor
    · intro h
      cases h
    · rintro ⟨h, -⟩
      cases h
  | ok b =>
    constructor
    · intro h
      cases h
      exact ⟨rfl, rfl⟩
    · rintro ⟨h, rfl⟩
      cases h
      rfl

theorem reads_liftM {x : Except Message α} {a : α} (h : x = .ok a) :
    Reads (liftM x : Reader α) [] a := by
  subst h
  exact fun _ ↦ rfl

theorem Reads.check {p : Prop} [Decidable p] {e : Message} {f : Unit → Reader α} {bs : Bytes} {a : α}
    (hp : ¬p) (h : Reads (f ()) bs a) : Reads (liftM (rejectIf p e) >>= f) bs a :=
  (reads_liftM (rejectIf_ok.mpr hp)).bind h

/-- The number of bytes left, `reader.remaining()`. -/
def remaining : Reader ℕ := fun s ↦ .ok (s.length, s)

/-- A reader that looks at how much is left sees at least what it is about to read. -/
theorem reads_remaining {f : ℕ → Reader α} {bs : Bytes} {a : α}
    (h : ∀ n, bs.length ≤ n → Reads (f n) bs a) : Reads (remaining >>= f) bs a := by
  intro rest
  exact h (bs ++ rest).length (by simp) rest

/-- The loop `for (let i = 0; i < n; i++) out.push(read(reader))`. -/
def readMany (r : Reader α) : ℕ → Reader (List α)
  | 0 => pure []
  | n + 1 => do
    let a ← r
    let as ← readMany r n
    return a :: as

theorem reads_many {r : Reader α} {enc : α → Bytes} (l : List α)
    (h : ∀ a ∈ l, Reads r (enc a) a) : Reads (readMany r l.length) (l.flatMap enc) l := by
  induction l with
  | nil => exact reads_pure []
  | cons a l ih =>
    rw [List.flatMap_cons]
    refine (h a List.mem_cons_self).bind (Reads.bind_pure (ih fun b hb ↦ ?_) (reads_pure _))
    exact h b (List.mem_cons_of_mem a hb)

/-- Whatever a reader promises of its results holds of everything a loop collected. -/
theorem readMany_forall {r : Reader α} {P : α → Prop}
    (h : ∀ s a t, r.run s = .ok (a, t) → P a) (n : ℕ) :
    ∀ s l t, (readMany r n).run s = .ok (l, t) → ∀ a ∈ l, P a := by
  induction n with
  | zero =>
    intro s l t hl a ha
    obtain ⟨rfl, -⟩ := run_pure_ok.mp hl
    cases ha
  | succ n ih =>
    intro s l t hl a ha
    obtain ⟨b, u, hb, hl⟩ := run_bind_ok hl
    obtain ⟨bs, v, hbs, hl⟩ := run_bind_ok hl
    obtain ⟨rfl, -⟩ := run_pure_ok.mp hl
    rcases List.mem_cons.mp ha with rfl | ha
    · exact h _ _ _ hb
    · exact ih _ _ _ hbs a ha

theorem toNat_byte {n : ℕ} (h : n < 256) : (UInt8.ofNat n).toNat = n := by
  rw [UInt8.toNat_ofNat']
  omega

def readByte : Reader UInt8 := fun s ↦
  match s with
  | [] => .error (message "unexpected end of buffer")
  | b :: s => .ok (b, s)

theorem reads_byte (b : UInt8) : Reads readByte [b] b := fun _ ↦ rfl

def readSlice (size : ℕ) : Reader Bytes := fun s ↦
  if s.length < size then .error (message "unexpected end of buffer") else .ok (s.take size, s.drop size)

theorem reads_slice (bs : Bytes) : Reads (readSlice bs.length) bs bs := by
  intro rest
  simp [readSlice, StateT.run]

theorem readSlice_length {n : ℕ} {s t bs : Bytes} (h : (readSlice n).run s = .ok (bs, t)) :
    bs.length = n := by
  simp only [StateT.run, readSlice] at h
  split at h
  · cases h
  · cases h
    rw [List.length_take]
    omega

theorem readSlice_ok {n : ℕ} {s t bs : Bytes} (h : (readSlice n).run s = .ok (bs, t)) :
    s = bs ++ t := by
  simp only [StateT.run, readSlice] at h
  split at h
  · cases h
  · cases h
    exact (List.take_append_drop n s).symm

/-- Two bytes, little endian. -/
def uint16LE (n : ℕ) : Bytes := [UInt8.ofNat n, UInt8.ofNat (n / 256)]

def readUint16LE : Reader ℕ := fun s ↦
  match s with
  | a :: b :: s => .ok (a.toNat + 256 * b.toNat, s)
  | _ => .error (message "unexpected end of buffer")

theorem reads_uint16LE {n : ℕ} (h : n < 65536) : Reads readUint16LE (uint16LE n) n := by
  intro rest
  simp only [uint16LE, List.cons_append, List.nil_append, StateT.run, readUint16LE,
    UInt8.toNat_ofNat']
  congr 2
  omega

theorem readUint16LE_lt {s t : Bytes} {n : ℕ} (h : readUint16LE.run s = .ok (n, t)) : n < 65536 := by
  simp only [StateT.run, readUint16LE] at h
  split at h
  · rename_i a b _
    cases h
    have ha := a.toNat_lt
    have hb := b.toNat_lt
    omega
  · cases h

theorem readUint16LE_ok {s t : Bytes} {n : ℕ} (h : readUint16LE.run s = .ok (n, t)) :
    s = uint16LE n ++ t := by
  simp only [StateT.run, readUint16LE] at h
  split at h
  · rename_i a b rest
    cases h
    have ha := a.toNat_lt
    have hb := b.toNat_lt
    have hlow : UInt8.ofNat (a.toNat + 256 * b.toNat) = a := by
      apply UInt8.toNat_inj.mp
      rw [UInt8.toNat_ofNat']
      omega
    have hhigh : UInt8.ofNat ((a.toNat + 256 * b.toNat) / 256) = b := by
      apply UInt8.toNat_inj.mp
      rw [UInt8.toNat_ofNat']
      omega
    simp [uint16LE, hlow, hhigh]
  · cases h

/-- Four bytes, little endian. -/
def uint32LE (n : ℕ) : Bytes :=
  [UInt8.ofNat n, UInt8.ofNat (n / 256), UInt8.ofNat (n / 65536), UInt8.ofNat (n / 16777216)]

def readUint32LE : Reader ℕ := fun s ↦
  match s with
  | a :: b :: c :: d :: s =>
    .ok (a.toNat + 256 * b.toNat + 65536 * c.toNat + 16777216 * d.toNat, s)
  | _ => .error (message "unexpected end of buffer")

theorem reads_uint32LE {n : ℕ} (h : n < 2 ^ 32) : Reads readUint32LE (uint32LE n) n := by
  intro rest
  simp only [uint32LE, List.cons_append, List.nil_append, StateT.run, readUint32LE,
    UInt8.toNat_ofNat']
  congr 2
  omega

/-- Unsigned LEB128 with a bound on the number of continuation bytes. -/
def leb128Within : ℕ → ℕ → Bytes
  | 0, n => [UInt8.ofNat (n % 128)]
  | fuel + 1, n =>
    if n / 128 = 0 then [UInt8.ofNat (n % 128)]
    else UInt8.ofNat (n % 128 + 128) :: leb128Within fuel (n / 128)

/-- Unsigned LEB128; `n` continuation bytes are always enough for `n`. -/
def leb128 (n : ℕ) : Bytes := leb128Within n n

/-- Accumulate seven bits a byte while the continuation bit is set. The bits of
the bytes do not overlap, so the source's `|=` is a sum. -/
def readLeb128From (shift result : ℕ) : Bytes → Except Message (ℕ × Bytes)
  | [] => .error (message "unexpected end of buffer")
  | b :: s =>
    let result := result + b.toNat % 128 * 2 ^ shift
    if b.toNat < 128 then .ok (result, s) else readLeb128From (shift + 7) result s

def readLeb128 : Reader ℕ := readLeb128From 0 0

theorem readLeb128From_leb128Within (fuel n : ℕ) (h : n ≤ fuel) (shift result : ℕ) (rest : Bytes) :
    readLeb128From shift result (leb128Within fuel n ++ rest) =
      .ok (result + n * 2 ^ shift, rest) := by
  induction fuel generalizing n shift result with
  | zero =>
    obtain rfl : n = 0 := by omega
    simp [leb128Within, readLeb128From]
  | succ fuel ih =>
    by_cases hn : n / 128 = 0
    · have hlt : n < 128 := by omega
      simp [leb128Within, readLeb128From, hn, Nat.mod_eq_of_lt hlt, Nat.mod_eq_of_lt (a := n) (b := 256)
        (by omega), hlt]
    · have hbyte : (UInt8.ofNat (n % 128 + 128)).toNat = n % 128 + 128 := by
        rw [UInt8.toNat_ofNat']
        omega
      have hlow : (n % 128 + 128) % 128 = n % 128 := by omega
      simp only [leb128Within, hn, if_false, List.cons_append, readLeb128From, hbyte, hlow]
      rw [if_neg (by omega), ih (n / 128) (by omega)]
      have hsplit : n % 128 * 2 ^ shift + n / 128 * 2 ^ (shift + 7) = n * 2 ^ shift := by
        have h128 : (2 : ℕ) ^ (shift + 7) = 128 * 2 ^ shift := by rw [Nat.pow_add]; omega
        rw [h128, ← Nat.mul_assoc, ← Nat.add_mul]
        congr 1
        omega
      rw [Nat.add_assoc, hsplit]

theorem reads_leb128 (n : ℕ) : Reads readLeb128 (leb128 n) n := by
  intro rest
  have h := readLeb128From_leb128Within n n le_rfl 0 0 rest
  simpa [readLeb128, StateT.run, leb128] using h

end WireFormat
