import ArkadeSdk.Lib.LabelledRun
import Mathlib.Data.List.Basic
import Mathlib.Data.Nat.Notation
import Mathlib.Logic.Function.Basic

/-! The connections of the repositories to a database: they share one handle, are counted, and
reopen it when it was closed. -/

namespace ArkadeSdk.ManagedConnection

open LabelledRun

/-- Where an open of the database is. Its promise is unsettled while it is `pending`. When a blocked
open is `abandoned` its promise is rejected, but the request lives on. -/
inductive Status
  | unused
  | pending
  | abandoned
  | opened
  | closed
  | failed
  deriving DecidableEq

def Status.settled : Status → Bool
  | .unused => false
  | .pending => false
  | _ => true

/-- The promise that a connection holds: of an open, or a refused one. `noticed` are the promises
whose outcome the connection has dealt with. -/
structure Hold where
  opening : Option ℕ
  noticed : Bool
  deriving DecidableEq

structure Connection where
  version : ℕ
  current : Option Hold
  disposed : Bool

/-- The bookkeeping for one name. The opens are numbered. `closing` are those that `closeDatabase`
waits for. -/
structure State where
  status : ℕ → Status
  closing : ℕ → Bool
  opens : ℕ
  dbCache : Option (ℕ × ℕ)
  refCount : Option ℕ
  connections : List Connection

inductive Input
  | create (version : ℕ)
  | get (c : ℕ) (available : Bool)
  | dispose (c : ℕ)
  | notice (c : ℕ)
  | close (id : ℕ)
  | succeed (id : ℕ)
  | fail (id : ℕ)
  | blocked (id : ℕ)
  | terminated (id : ℕ)

def start : State where
  status _ := .unused
  closing _ := false
  opens := 0
  dbCache := none
  refCount := none
  connections := []

namespace State

variable (s : State)

def setStatus (id : ℕ) (status : Status) : State :=
  { s with status := Function.update s.status id status }

def forget (id : ℕ) : State :=
  if s.dbCache.map (·.2) = some id then { s with dbCache := none, refCount := none } else s

def openDatabase (dbVersion : ℕ) (available : Bool) : State × Option ℕ :=
  if !available then (s, none)
  else match s.dbCache with
    | some (version, id) =>
      if version ≠ dbVersion then (s, none)
      else ({ s with refCount := some (s.refCount.getD 0 + 1) }, some id)
    | none => ({ s.setStatus s.opens .pending with
      opens := s.opens + 1, dbCache := some (dbVersion, s.opens), refCount := some 1 },
      some s.opens)

def closeDatabase : State :=
  match s.dbCache with
  | none => s
  | some (_, id) =>
    let count := s.refCount.getD 1 - 1
    if 0 < count then { s with refCount := some count }
    else { s with
      refCount := none, dbCache := none, closing := Function.update s.closing id true }

def setConnection (c : ℕ) (connection : Connection) : State :=
  { s with connections := s.connections.set c connection }

def get (c : ℕ) (available : Bool) (connection : Connection) : State :=
  if connection.disposed || connection.current.isSome then s
  else
    let opened := s.openDatabase connection.version available
    opened.1.setConnection c { connection with current := some ⟨opened.2, false⟩ }

def dispose (c : ℕ) (connection : Connection) : State :=
  if connection.disposed then s
  else
    let t := s.setConnection c { connection with disposed := true, current := none }
    if connection.current.isNone then t else t.closeDatabase

/-- The `then` or the `catch` of the promise. -/
def notice (c : ℕ) (connection : Connection) : Option State :=
  match connection.current with
  | some ⟨none, false⟩ => some (s.setConnection c { connection with current := none })
  | some ⟨some id, false⟩ => match s.status id with
    | .abandoned | .failed => some (s.setConnection c { connection with current := none })
    | .opened | .closed =>
      some (s.setConnection c { connection with current := some ⟨some id, true⟩ })
    | _ => none
  | _ => none

/-- `closeDatabase` goes on. -/
def close (id : ℕ) : Option State :=
  if s.closing id && (s.status id).settled then
    let t := { s with closing := Function.update s.closing id false }
    some (if s.status id = .opened then t.setStatus id .closed else t)
  else none

def unnoticed (connection : Connection) : Bool :=
  match connection.current with
  | some ⟨none, noticed⟩ => !noticed
  | some ⟨some id, noticed⟩ => !noticed && (s.status id).settled
  | none => false

/-- All that is ready to go on has gone on, as it has before the next event. -/
def quiescent : Bool :=
  s.connections.all (!s.unnoticed ·) &&
    (List.range s.opens).all fun id ↦ !(s.closing id && (s.status id).settled)

/-- The request succeeds. What has been abandoned is closed at once. -/
def succeed (id : ℕ) : Option State :=
  match s.status id with
  | .pending => some (s.setStatus id .opened)
  | .abandoned => some (s.setStatus id .closed)
  | _ => none

def fail (id : ℕ) : Option State :=
  match s.status id with
  | .pending => some ((s.forget id).setStatus id .failed)
  | .abandoned => some (s.setStatus id .failed)
  | _ => none

def blocked (id : ℕ) : Option State :=
  match s.status id with
  | .pending => some ((s.forget id).setStatus id .abandoned)
  | _ => none

/-- The database changes its version elsewhere, or the connection ends. The connections listen. -/
def terminated (id : ℕ) : Option State :=
  match s.status id with
  | .opened => some { (s.forget id).setStatus id .closed with
    connections := s.connections.map fun connection ↦
      if connection.current = some ⟨some id, true⟩ then { connection with current := none }
      else connection }
  | _ => none

end State

def step (s : State) : Input → Option State
  | .create version => some { s with connections := s.connections ++ [⟨version, none, false⟩] }
  | .get c available => s.connections[c]?.map (s.get c available)
  | .dispose c => s.connections[c]?.map (s.dispose c)
  | .notice c => s.connections[c]?.bind (s.notice c)
  | .close id => s.close id
  | .succeed id => if s.quiescent then s.succeed id else none
  | .fail id => if s.quiescent then s.fail id else none
  | .blocked id => if s.quiescent then s.blocked id else none
  | .terminated id => if s.quiescent then s.terminated id else none

def holds (id : ℕ) (connection : Connection) : Bool :=
  connection.current.any (·.opening = some id)

def State.holders (s : State) (id : ℕ) : ℕ := s.connections.countP (holds id)

/-- A connection is not disposed of between the rejection of the promise it holds and the `catch`
of it. -/
def Orderly (s : State) : Input → Prop
  | .dispose c => ∀ connection, s.connections[c]? = some connection →
    ∀ hold, connection.current = some hold →
      ∃ id, hold.opening = some id ∧ (s.status id = .pending ∨ s.status id = .opened)
  | _ => True

/-- The count is that of the connections that hold the open in the cache. What a connection holds is
open and in the cache. What is open is held or about to be closed, and nothing is left open once
nothing is held. -/
structure Sound (s : State) : Prop where
  counted : ∀ version id, s.dbCache = some (version, id) →
    s.refCount = some (s.holders id) ∧ 0 < s.holders id
  alive : ∀ c ∈ s.connections, ∀ id, c.current = some ⟨some id, true⟩ →
    s.status id = .opened ∧ s.dbCache = some (c.version, id)
  tracked : ∀ id, s.status id = .opened → s.closing id = true ∨ 0 < s.holders id
  released : s.quiescent = true → (∀ c ∈ s.connections, c.current = none) →
    ∀ id, s.status id ≠ .opened

structure Inv (s : State) : Prop where
  cached : ∀ version id, s.dbCache = some (version, id) →
    (s.status id = .pending ∨ s.status id = .opened) ∧ s.closing id = false ∧
      s.refCount = some (s.holders id) ∧ 0 < s.holders id
  uncached : s.dbCache = none → s.refCount = none
  held : ∀ c ∈ s.connections, ∀ id noticed, c.current = some ⟨some id, noticed⟩ →
    s.dbCache = some (c.version, id) ∧ (noticed = true → s.status id = .opened) ∨
      noticed = false ∧ (s.status id = .abandoned ∨ s.status id = .failed)
  refused : ∀ c ∈ s.connections, c.current ≠ some ⟨none, true⟩
  tracked : ∀ id, s.status id = .pending ∨ s.status id = .opened →
    s.dbCache.map (·.2) = some id ∨ s.closing id = true
  fresh : ∀ id, s.opens ≤ id → s.status id = .unused ∧ s.closing id = false

section Invariant

variable {s t : State}

theorem countP_set_add {l : List Connection} {c : ℕ} {old new : Connection}
    (h : l[c]? = some old) (p : Connection → Bool) :
    (l.set c new).countP p + (if p old then 1 else 0) = l.countP p + (if p new then 1 else 0) := by
  induction l generalizing c with
  | nil => cases h
  | cons connection l ih =>
    cases c with
    | zero =>
      obtain rfl : connection = old := Option.some.inj h
      rw [List.set_cons_zero, List.countP_cons, List.countP_cons]
      omega
    | succ c =>
      have hrest := ih h
      rw [List.set_cons_succ, List.countP_cons, List.countP_cons]
      omega

theorem holders_setConnection {c : ℕ} {old new : Connection} (h : s.connections[c]? = some old)
    (id : ℕ) : (s.setConnection c new).holders id + (if holds id old then 1 else 0) =
      s.holders id + (if holds id new then 1 else 0) := countP_set_add h (holds id)

theorem holds_iff {connection : Connection} {id : ℕ} :
    holds id connection = true ↔ ∃ noticed, connection.current = some ⟨some id, noticed⟩ := by
  unfold holds
  cases hcurrent : connection.current with
  | none => simp
  | some hold =>
    obtain ⟨opening, noticed⟩ := hold
    simp

theorem holders_pos {id : ℕ} : 0 < s.holders id ↔
    ∃ c ∈ s.connections, ∃ noticed, c.current = some ⟨some id, noticed⟩ := by
  rw [State.holders, List.countP_pos_iff]
  exact exists_congr fun c ↦ and_congr_right fun _ ↦ holds_iff

theorem Inv.release (h : Inv s) {c : ℕ} {old new : Connection} (hc : s.connections[c]? = some old)
    (hnew : ∀ hold, new.current = some hold → hold = ⟨none, false⟩)
    (hold : ∀ version id, s.dbCache = some (version, id) → holds id old = false) :
    Inv (s.setConnection c new) := by
  have hmem : ∀ c' ∈ (s.setConnection c new).connections, c' ∈ s.connections ∨ c' = new :=
    fun c' hc' ↦ List.mem_or_eq_of_mem_set hc'
  refine ⟨fun version id hcache ↦ ?_, h.uncached, fun c' hc' id noticed hcurrent ↦ ?_,
    fun c' hc' hcurrent ↦ ?_, h.tracked, h.fresh⟩
  · obtain ⟨hstatus, hclosing, hcount, hpos⟩ := h.cached version id hcache
    have hholders := @holders_setConnection s c old new hc id
    have hnone : ¬holds id new = true := by
      intro hholds
      obtain ⟨noticed, hcurrent⟩ := holds_iff.mp hholds
      cases hnew _ hcurrent
    rw [hold version id hcache, if_neg hnone, if_neg Bool.false_ne_true] at hholders
    have hsame : (s.setConnection c new).holders id = s.holders id := hholders
    exact ⟨hstatus, hclosing, by rw [hsame]; exact hcount, by rw [hsame]; exact hpos⟩
  · obtain hc' | rfl := hmem c' hc'
    · exact h.held c' hc' id noticed hcurrent
    · cases hnew _ hcurrent
  · obtain hc' | rfl := hmem c' hc'
    · exact h.refused c' hc' hcurrent
    · cases hnew _ hcurrent

theorem Inv.create (h : Inv s) (version : ℕ) :
    Inv { s with connections := s.connections ++ [⟨version, none, false⟩] } := by
  have hholders : ∀ id, State.holders { s with
      connections := s.connections ++ [⟨version, none, false⟩] } id = s.holders id :=
    fun id ↦ List.countP_append
  refine ⟨fun version id hcache ↦ ?_, h.uncached, fun c hc id noticed hcurrent ↦ ?_,
    fun c hc hcurrent ↦ ?_, h.tracked, h.fresh⟩
  · rw [hholders]
    exact h.cached version id hcache
  · obtain hc | hc := List.mem_append.mp hc
    · exact h.held c hc id noticed hcurrent
    · obtain rfl := List.mem_singleton.mp hc
      cases hcurrent
  · obtain hc | hc := List.mem_append.mp hc
    · exact h.refused c hc hcurrent
    · obtain rfl := List.mem_singleton.mp hc
      cases hcurrent

theorem Inv.hold (h : Inv s) {c id : ℕ} {old : Connection} (hc : s.connections[c]? = some old)
    (hcurrent : old.current = none) (hcache : s.dbCache = some (old.version, id)) :
    Inv (State.setConnection { s with refCount := some (s.refCount.getD 0 + 1) } c
      { old with current := some ⟨some id, false⟩ }) := by
  refine ⟨fun version other hcache' ↦ ?_, fun hnone ↦ ?_, fun c' hc' other noticed hcurrent' ↦ ?_,
    fun c' hc' hcurrent' ↦ ?_, h.tracked, h.fresh⟩
  · obtain ⟨hstatus, hclosing, hcount, hpos⟩ := h.cached version other hcache'
    have hother : other = id := by
      have hsame := hcache'.symm.trans hcache
      exact (Prod.mk.inj (Option.some.inj hsame)).2
    subst hother
    have hholders := @holders_setConnection s c old { old with current := some ⟨some other, false⟩ }
      hc other
    have hold : holds other old = false := by simp [holds, hcurrent]
    have hnew : holds other { old with current := some ⟨some other, false⟩ } = true := by
      simp [holds]
    rw [hold, hnew, if_pos rfl, if_neg Bool.false_ne_true] at hholders
    refine ⟨hstatus, hclosing, ?_, ?_⟩
    · change some (s.refCount.getD 0 + 1) = some _
      rw [hcount]
      exact congrArg some hholders.symm
    · have hpos' : 0 < (s.setConnection c
          { old with current := some ⟨some other, false⟩ }).holders other := by omega
      exact hpos'
  · exact absurd (hcache.symm.trans hnone) (by simp)
  · obtain hc' | rfl := List.mem_or_eq_of_mem_set hc'
    · exact h.held c' hc' other noticed hcurrent'
    · cases hcurrent'
      exact .inl ⟨hcache, fun hnoticed ↦ by cases hnoticed⟩
  · obtain hc' | rfl := List.mem_or_eq_of_mem_set hc'
    · exact h.refused c' hc' hcurrent'
    · cases hcurrent'

theorem Inv.not_held_fresh (h : Inv s) {c : Connection} (hc : c ∈ s.connections) {id : ℕ}
    (hid : s.opens ≤ id) (noticed : Bool) : c.current ≠ some ⟨some id, noticed⟩ := by
  intro hcurrent
  have hunused := (h.fresh id hid).1
  obtain ⟨hcache, -⟩ | ⟨-, hstatus⟩ := h.held c hc id noticed hcurrent
  · have hstatus := (h.cached _ _ hcache).1
    simp [hunused] at hstatus
  · simp [hunused] at hstatus

theorem Inv.opening (h : Inv s) {c : ℕ} {old : Connection} (hc : s.connections[c]? = some old)
    (hcurrent : old.current = none) (hcache : s.dbCache = none) :
    Inv (State.setConnection { s.setStatus s.opens .pending with
      opens := s.opens + 1, dbCache := some (old.version, s.opens), refCount := some 1 } c
      { old with current := some ⟨some s.opens, false⟩ }) := by
  have hnotHeld := fun c' hc' ↦ @Inv.not_held_fresh s h c' hc' s.opens (Nat.le_refl _)
  have hzero : s.holders s.opens = 0 := by
    refine List.countP_eq_zero.mpr fun c' hc' hholds ↦ ?_
    obtain ⟨noticed, hcurrent'⟩ := holds_iff.mp hholds
    exact hnotHeld c' hc' noticed hcurrent'
  have hstatus : ∀ id, id ≠ s.opens →
      Function.update s.status s.opens .pending id = s.status id :=
    fun id hne ↦ Function.update_of_ne hne _ _
  refine ⟨fun version id hcache' ↦ ?_, fun hnone ↦ (by cases hnone),
    fun c' hc' id noticed hcurrent' ↦ ?_, fun c' hc' hcurrent' ↦ ?_, fun id hopen ↦ ?_,
    fun id hid ↦ ?_⟩
  · obtain ⟨rfl, rfl⟩ := Prod.mk.inj (Option.some.inj hcache')
    have hholders := @holders_setConnection s c old
      { old with current := some ⟨some s.opens, false⟩ } hc s.opens
    have hold : holds s.opens old = false := by simp [holds, hcurrent]
    have hnew : holds s.opens { old with current := some ⟨some s.opens, false⟩ } = true := by
      simp [holds]
    rw [hold, hnew, if_pos rfl, if_neg Bool.false_ne_true, hzero] at hholders
    have hone : State.holders (State.setConnection { s.setStatus s.opens .pending with
        opens := s.opens + 1, dbCache := some (old.version, s.opens), refCount := some 1 } c
        { old with current := some ⟨some s.opens, false⟩ }) s.opens = 1 := hholders
    exact ⟨.inl (Function.update_self ..), (h.fresh s.opens (Nat.le_refl _)).2, by rw [hone]; rfl,
      by rw [hone]; exact Nat.one_pos⟩
  · obtain hc' | rfl := List.mem_or_eq_of_mem_set hc'
    · have hne : id ≠ s.opens := fun heq ↦ hnotHeld c' hc' noticed (heq ▸ hcurrent')
      obtain ⟨hheld, -⟩ | ⟨hnoticed, hfailed⟩ := h.held c' hc' id noticed hcurrent'
      · rw [hcache] at hheld
        cases hheld
      · have hfailed' : Function.update s.status s.opens .pending id = .abandoned ∨
            Function.update s.status s.opens .pending id = .failed := by
          rw [hstatus id hne]
          exact hfailed
        exact .inr ⟨hnoticed, hfailed'⟩
    · cases hcurrent'
      exact .inl ⟨rfl, fun hnoticed ↦ by cases hnoticed⟩
  · obtain hc' | rfl := List.mem_or_eq_of_mem_set hc'
    · exact h.refused c' hc' hcurrent'
    · cases hcurrent'
  · by_cases hid : id = s.opens
    · exact .inl (by rw [hid]; rfl)
    · have hopen' : s.status id = .pending ∨ s.status id = .opened := hstatus id hid ▸ hopen
      obtain hcached | hclosing := h.tracked id hopen'
      · rw [hcache] at hcached
        cases hcached
      · exact .inr hclosing
  · have hlt : s.opens < id := hid
    obtain ⟨hunused, hclosing⟩ := h.fresh id (Nat.le_of_lt hlt)
    exact ⟨(hstatus id (Nat.ne_of_gt hlt)).trans hunused, hclosing⟩

theorem openDatabase_cases (dbVersion : ℕ) (available : Bool) :
    s.openDatabase dbVersion available = (s, none) ∨
    (∃ id, s.dbCache = some (dbVersion, id) ∧ s.openDatabase dbVersion available =
      ({ s with refCount := some (s.refCount.getD 0 + 1) }, some id)) ∨
    s.dbCache = none ∧ s.openDatabase dbVersion available = ({ s.setStatus s.opens .pending with
      opens := s.opens + 1, dbCache := some (dbVersion, s.opens), refCount := some 1 },
      some s.opens) := by
  unfold State.openDatabase
  split
  · exact .inl rfl
  split
  · next version id hcache =>
    split
    · exact .inl rfl
    · next hversion =>
      rw [not_not] at hversion
      exact .inr (.inl ⟨id, hversion ▸ hcache, rfl⟩)
  · next hcache => exact .inr (.inr ⟨hcache, rfl⟩)

theorem Inv.get (h : Inv s) {c : ℕ} {connection : Connection}
    (hc : s.connections[c]? = some connection) (available : Bool) :
    Inv (s.get c available connection) := by
  unfold State.get
  split
  · exact h
  next hidle =>
  have hcurrent : connection.current = none := by
    simp only [Bool.or_eq_true, not_or] at hidle
    simpa using hidle.2
  obtain hopen | ⟨id, hcache, hopen⟩ | ⟨hcache, hopen⟩ :=
    @openDatabase_cases s connection.version available
  · rw [hopen]
    refine h.release hc (fun hold hhold ↦ (Option.some.inj hhold).symm) fun version id _ ↦ ?_
    simp [holds, hcurrent]
  · rw [hopen]
    exact h.hold hc hcurrent hcache
  · rw [hopen]
    exact h.opening hc hcurrent hcache

theorem Inv.hear (h : Inv s) {c id : ℕ} {connection : Connection}
    (hc : s.connections[c]? = some connection)
    (hcurrent : connection.current = some ⟨some id, false⟩)
    (hstatus : s.status id = .opened ∨ s.status id = .closed) :
    Inv (s.setConnection c { connection with current := some ⟨some id, true⟩ }) := by
  obtain ⟨hcache, -⟩ | ⟨-, hfailed⟩ := h.held connection (List.mem_of_getElem? hc) id false hcurrent
  swap
  · obtain hstatus | hstatus := hstatus <;> simp [hstatus] at hfailed
  have hopened : s.status id = .opened := by
    obtain hpending | hopened := (h.cached _ _ hcache).1
    · simp [hpending] at hstatus
    · exact hopened
  have hholders : ∀ other, (s.setConnection c
      { connection with current := some ⟨some id, true⟩ }).holders other = s.holders other := by
    intro other
    have hset := @holders_setConnection s c connection
      { connection with current := some ⟨some id, true⟩ } hc other
    have hsame : holds other { connection with current := some ⟨some id, true⟩ } =
        holds other connection := by simp [holds, hcurrent]
    rw [hsame] at hset
    exact Nat.add_right_cancel hset
  refine ⟨fun version other hcache' ↦ ?_, h.uncached, fun c' hc' other noticed hcurrent' ↦ ?_,
    fun c' hc' hcurrent' ↦ ?_, h.tracked, h.fresh⟩
  · rw [hholders]
    exact h.cached version other hcache'
  · obtain hc' | rfl := List.mem_or_eq_of_mem_set hc'
    · exact h.held c' hc' other noticed hcurrent'
    · cases hcurrent'
      exact .inl ⟨hcache, fun _ ↦ hopened⟩
  · obtain hc' | rfl := List.mem_or_eq_of_mem_set hc'
    · exact h.refused c' hc' hcurrent'
    · cases hcurrent'

theorem Inv.notice (h : Inv s) {c : ℕ} {connection : Connection}
    (hc : s.connections[c]? = some connection) (hstep : s.notice c connection = some t) :
    Inv t := by
  have hmem := List.mem_of_getElem? hc
  unfold State.notice at hstep
  split at hstep
  · next hcurrent =>
    cases hstep
    refine h.release hc (fun hold hhold ↦ by cases hhold) fun version id _ ↦ ?_
    simp [holds, hcurrent]
  · next id hcurrent =>
    have hfailed : (∃ version, s.dbCache = some (version, id)) → s.status id ≠ .abandoned ∧
        s.status id ≠ .failed := by
      rintro ⟨version, hcache⟩
      obtain hstatus | hstatus := (h.cached version id hcache).1 <;> simp [hstatus]
    have hrelease : (∀ version, s.dbCache ≠ some (version, id)) →
        Inv (s.setConnection c { connection with current := none }) := by
      intro hne
      refine h.release hc (fun hold hhold ↦ by cases hhold) fun version other hcache ↦ ?_
      have hother : other ≠ id := fun heq ↦ hne version (heq ▸ hcache)
      simp [holds, hcurrent, hother.symm]
    split at hstep
    · next hstatus =>
      cases hstep
      exact hrelease fun version hcache ↦ (hfailed ⟨version, hcache⟩).1 hstatus
    · next hstatus =>
      cases hstep
      exact hrelease fun version hcache ↦ (hfailed ⟨version, hcache⟩).2 hstatus
    · next hstatus =>
      cases hstep
      exact h.hear hc hcurrent (.inl hstatus)
    · next hstatus =>
      cases hstep
      exact h.hear hc hcurrent (.inr hstatus)
    · cases hstep
  · cases hstep

theorem closeDatabase_eq {version id count : ℕ} (hcache : s.dbCache = some (version, id))
    (hcount : s.refCount = some count) : s.closeDatabase =
      if 0 < count - 1 then { s with refCount := some (count - 1) }
      else { s with
        refCount := none, dbCache := none, closing := Function.update s.closing id true } := by
  unfold State.closeDatabase
  rw [hcache]
  dsimp only
  rw [hcount]
  rfl

theorem Inv.unref (h : Inv s) {c id : ℕ} {old new : Connection} {noticed : Bool}
    (hc : s.connections[c]? = some old) (hcurrent : old.current = some ⟨some id, noticed⟩)
    (hnew : new.current = none) (hcache : s.dbCache = some (old.version, id)) :
    Inv (s.setConnection c new).closeDatabase := by
  obtain ⟨hstatus, hclosing, hcount, hpos⟩ := h.cached old.version id hcache
  have hholders : (s.setConnection c new).holders id + 1 = s.holders id := by
    have hset := @holders_setConnection s c old new hc id
    have hold : holds id old = true := by simp [holds, hcurrent]
    have hnone : holds id new = false := by simp [holds, hnew]
    rwa [hold, hnone, if_pos rfl, if_neg Bool.false_ne_true] at hset
  have hsingle : ∀ {version other}, s.dbCache = some (version, other) → other = id :=
    fun hother ↦ (Prod.mk.inj (Option.some.inj (hother.symm.trans hcache))).2
  have hheld : ∀ c' ∈ (s.setConnection c new).connections, ∀ other noticed,
      c'.current = some ⟨some other, noticed⟩ → c' ∈ s.connections := by
    intro c' hc' other noticed hcurrent'
    obtain hc' | rfl := List.mem_or_eq_of_mem_set hc'
    · exact hc'
    · rw [hnew] at hcurrent'
      cases hcurrent'
  have hrefused : ∀ c' ∈ (s.setConnection c new).connections,
      c'.current ≠ some ⟨none, true⟩ := by
    intro c' hc' hcurrent'
    obtain hc' | rfl := List.mem_or_eq_of_mem_set hc'
    · exact h.refused c' hc' hcurrent'
    · rw [hnew] at hcurrent'
      cases hcurrent'
  rw [closeDatabase_eq (s := s.setConnection c new) hcache hcount]
  split
  · refine ⟨fun version other hother ↦ ?_, fun hnone ↦ absurd (hcache.symm.trans hnone) (by simp),
      fun c' hc' other noticed hcurrent' ↦ h.held c' (hheld c' hc' other noticed hcurrent') other
        noticed hcurrent', hrefused, h.tracked, h.fresh⟩
    obtain rfl := hsingle hother
    refine ⟨hstatus, hclosing, ?_, ?_⟩
    · change some (s.holders other - 1) = some ((s.setConnection c new).holders other)
      rw [← hholders, Nat.add_sub_cancel]
    · change 0 < (s.setConnection c new).holders other
      omega
  · have hzero : (s.setConnection c new).holders id = 0 := by omega
    refine ⟨fun version other hother ↦ (by cases hother), fun _ ↦ rfl,
      fun c' hc' other noticed hcurrent' ↦ ?_, hrefused, fun other hopen ↦ ?_,
      fun other hfresh ↦ ?_⟩
    · have hmem := hheld c' hc' other noticed hcurrent'
      obtain ⟨hother, -⟩ | hfailed := h.held c' hmem other noticed hcurrent'
      · obtain rfl := hsingle hother
        have hpos' := (holders_pos (s := s.setConnection c new)).mpr ⟨c', hc', noticed, hcurrent'⟩
        omega
      · exact .inr hfailed
    · refine .inr ?_
      change Function.update s.closing id true other = true
      by_cases hsame : other = id
      · rw [hsame, Function.update_self]
      · rw [Function.update_of_ne hsame]
        refine (h.tracked other hopen).resolve_left fun hcached ↦ hsame ?_
        rw [hcache] at hcached
        exact (Option.some.inj hcached).symm
    · obtain ⟨hunused, hopen⟩ := h.fresh other hfresh
      have hne : other ≠ id := by
        rintro rfl
        obtain hstatus | hstatus := hstatus <;> simp [hstatus] at hunused
      exact ⟨hunused, (Function.update_of_ne hne _ _).trans hopen⟩

theorem Inv.dispose (h : Inv s) {c : ℕ} {connection : Connection}
    (hc : s.connections[c]? = some connection)
    (horderly : ∀ hold, connection.current = some hold →
      ∃ id, hold.opening = some id ∧ (s.status id = .pending ∨ s.status id = .opened)) :
    Inv (s.dispose c connection) := by
  unfold State.dispose
  split
  · exact h
  dsimp only
  cases hcurrent : connection.current with
  | none =>
    rw [Option.isNone_none, if_pos rfl]
    refine h.release hc (fun hold hhold ↦ by cases hhold) fun version id _ ↦ ?_
    simp [holds, hcurrent]
  | some hold =>
    rw [Option.isNone_some, if_neg Bool.false_ne_true]
    obtain ⟨opening, noticed⟩ := hold
    obtain ⟨id, rfl, hstatus⟩ := horderly _ hcurrent
    obtain ⟨hcache, -⟩ | ⟨-, hfailed⟩ :=
      h.held connection (List.mem_of_getElem? hc) id noticed hcurrent
    · exact h.unref hc hcurrent rfl hcache
    · obtain hstatus | hstatus := hstatus <;> simp [hstatus] at hfailed

theorem Inv.lt_opens (h : Inv s) {id : ℕ} (hstatus : s.status id ≠ .unused) : id < s.opens := by
  by_contra hle
  exact hstatus (h.fresh id (Nat.le_of_not_lt hle)).1

theorem Inv.uncachedStatus (h : Inv s) {id : ℕ} {status : Status} {closing : ℕ → Bool}
    (huncached : ∀ version, s.dbCache ≠ some (version, id))
    (hheld : ∀ c ∈ s.connections, ∀ noticed, c.current = some ⟨some id, noticed⟩ →
      status = .abandoned ∨ status = .failed)
    (hnew : status ≠ .pending ∧ status ≠ .opened)
    (hclosing : ∀ other, other ≠ id → closing other = s.closing other) (hlt : id < s.opens) :
    Inv { s with status := Function.update s.status id status, closing := closing } := by
  have hstatus : ∀ {other}, other ≠ id →
      Function.update s.status id status other = s.status other :=
    fun hne ↦ Function.update_of_ne hne _ _
  refine ⟨fun version other hcache ↦ ?_, h.uncached, fun c hc other noticed hcurrent ↦ ?_,
    h.refused, fun other hopen ↦ ?_, fun other hfresh ↦ ?_⟩
  · have hne : other ≠ id := fun heq ↦ huncached version (heq ▸ hcache)
    obtain ⟨hopen, hclosed, hcount⟩ := h.cached version other hcache
    rw [← hstatus hne] at hopen
    exact ⟨hopen, (hclosing other hne).trans hclosed, hcount⟩
  · obtain ⟨hcache, hopened⟩ | ⟨hnoticed, hfailed⟩ := h.held c hc other noticed hcurrent
    · have hne : other ≠ id := fun heq ↦ huncached c.version (heq ▸ hcache)
      exact .inl ⟨hcache, fun hnoticed ↦ (hstatus hne).trans (hopened hnoticed)⟩
    · refine .inr ⟨hnoticed, ?_⟩
      by_cases hsame : other = id
      · subst hsame
        have hfailed := hheld c hc noticed hcurrent
        rw [← @Function.update_self _ _ _ other status s.status] at hfailed
        exact hfailed
      · rw [← hstatus hsame] at hfailed
        exact hfailed
  · change Function.update s.status id status other = _ ∨
      Function.update s.status id status other = _ at hopen
    by_cases hsame : other = id
    · subst hsame
      rw [Function.update_self] at hopen
      exact absurd hopen (not_or.mpr hnew)
    · rw [hstatus hsame] at hopen
      exact (h.tracked other hopen).imp_right (hclosing other hsame).trans
  · have hne : other ≠ id := fun heq ↦ Nat.not_le_of_lt hlt (heq ▸ hfresh)
    obtain ⟨hunused, hopen⟩ := h.fresh other hfresh
    exact ⟨(hstatus hne).trans hunused, (hclosing other hne).trans hopen⟩

/-- What is not in the cache is held by those only that do not know yet that it failed. -/
theorem Inv.failed_of_uncached (h : Inv s) {id : ℕ}
    (huncached : ∀ version, s.dbCache ≠ some (version, id)) {c : Connection}
    (hc : c ∈ s.connections) {noticed : Bool} (hcurrent : c.current = some ⟨some id, noticed⟩) :
    noticed = false ∧ (s.status id = .abandoned ∨ s.status id = .failed) :=
  (h.held c hc id noticed hcurrent).resolve_left fun hcached ↦ huncached _ hcached.1

theorem Inv.close (h : Inv s) {id : ℕ} (hstep : s.close id = some t) : Inv t := by
  unfold State.close at hstep
  split at hstep
  swap
  · cases hstep
  next hready =>
  obtain ⟨hclosing, hsettled⟩ := (Bool.and_eq_true _ _).mp hready
  cases hstep
  have huncached : ∀ version, s.dbCache ≠ some (version, id) := by
    intro version hcache
    rw [(h.cached version id hcache).2.1] at hclosing
    cases hclosing
  have hclose : ∀ other, other ≠ id →
      Function.update s.closing id false other = s.closing other :=
    fun other hne ↦ Function.update_of_ne hne _ _
  have hlt : id < s.opens := h.lt_opens fun hunused ↦ by simp [hunused, Status.settled] at hsettled
  split
  · next hopened =>
    refine h.uncachedStatus huncached (fun c hc noticed hcurrent ↦ ?_) (by decide) hclose hlt
    have hfailed := (h.failed_of_uncached huncached hc hcurrent).2
    simp [hopened] at hfailed
  · next hopened =>
    have hsame := @Inv.uncachedStatus s h id (s.status id) _ huncached
      (fun c hc noticed hcurrent ↦ (h.failed_of_uncached huncached hc hcurrent).2)
      ⟨fun hpending ↦ by simp [hpending, Status.settled] at hsettled, hopened⟩ hclose hlt
    rw [Function.update_eq_self] at hsame
    exact hsame

theorem eq_of_cached {version id other : ℕ} (hcache : s.dbCache = some (version, id))
    (hother : s.dbCache.map (·.2) = some other) : other = id := by
  rw [hcache] at hother
  exact (Option.some.inj hother).symm

/-- The open in the cache leaves it, with its holders knowing or about to know. -/
theorem Inv.uncache (h : Inv s) {version id : ℕ} {status : Status} {connections : List Connection}
    (hcache : s.dbCache = some (version, id)) (hnew : status ≠ .pending ∧ status ≠ .opened)
    (hmem : ∀ c ∈ connections, ∀ hold, c.current = some hold →
      c ∈ s.connections ∧ (hold.opening = some id →
        hold.noticed = false ∧ (status = .abandoned ∨ status = .failed))) :
    Inv { s with
      status := Function.update s.status id status, dbCache := none, refCount := none
      connections := connections } := by
  have hstatus : ∀ {other}, other ≠ id →
      Function.update s.status id status other = s.status other :=
    fun hne ↦ Function.update_of_ne hne _ _
  have hlt : id < s.opens := by
    refine h.lt_opens ?_
    obtain hopen | hopen := (h.cached version id hcache).1 <;> simp [hopen]
  refine ⟨fun _ _ hnone ↦ (by cases hnone), fun _ ↦ rfl, fun c hc other noticed hcurrent ↦ ?_,
    fun c hc hcurrent ↦ h.refused c (hmem c hc _ hcurrent).1 hcurrent, fun other hopen ↦ ?_,
    fun other hfresh ↦ ?_⟩
  · obtain ⟨hold, hlast⟩ := hmem c hc _ hcurrent
    refine .inr ?_
    by_cases hsame : other = id
    · subst hsame
      obtain ⟨hnoticed, hfailed⟩ := hlast rfl
      rw [← @Function.update_self _ _ _ other status s.status] at hfailed
      exact ⟨hnoticed, hfailed⟩
    · obtain ⟨hcached, -⟩ | ⟨hnoticed, hfailed⟩ := h.held c hold other noticed hcurrent
      · exact absurd (Prod.mk.inj (Option.some.inj (hcached.symm.trans hcache))).2 hsame
      · rw [← hstatus hsame] at hfailed
        exact ⟨hnoticed, hfailed⟩
  · change Function.update s.status id status other = _ ∨
      Function.update s.status id status other = _ at hopen
    by_cases hsame : other = id
    · subst hsame
      rw [Function.update_self] at hopen
      exact absurd hopen (not_or.mpr hnew)
    · rw [hstatus hsame] at hopen
      exact .inr ((h.tracked other hopen).resolve_left fun hcached ↦
        hsame (eq_of_cached hcache hcached))
  · have hne : other ≠ id := fun heq ↦ Nat.not_le_of_lt hlt (heq ▸ hfresh)
    obtain ⟨hunused, hopen⟩ := h.fresh other hfresh
    exact ⟨(hstatus hne).trans hunused, hopen⟩

theorem Inv.reject (h : Inv s) {id : ℕ} {status : Status} (hpending : s.status id = .pending)
    (hstatus : status = .abandoned ∨ status = .failed) :
    Inv ((s.forget id).setStatus id status) := by
  have hlt : id < s.opens := h.lt_opens (by simp [hpending])
  have hnew : status ≠ .pending ∧ status ≠ .opened := by
    obtain rfl | rfl := hstatus <;> simp
  unfold State.forget
  split
  · next hcached =>
    obtain ⟨⟨version, other⟩, hcache, hid⟩ := Option.map_eq_some_iff.mp hcached
    have hcache : s.dbCache = some (version, id) := hid ▸ hcache
    refine h.uncache hcache hnew fun c hc hold hcurrent ↦ ⟨hc, fun hopening ↦ ?_⟩
    obtain ⟨opening, noticed⟩ := hold
    obtain rfl : opening = some id := hopening
    refine ⟨?_, hstatus⟩
    obtain ⟨-, hopened⟩ | ⟨hnoticed, -⟩ := h.held c hc id noticed hcurrent
    · rw [← Bool.not_eq_true]
      intro hnoticed
      rw [hopened hnoticed] at hpending
      cases hpending
    · exact hnoticed
  · next hcached =>
    have huncached : ∀ version, s.dbCache ≠ some (version, id) :=
      fun version hcache ↦ hcached (by rw [hcache]; rfl)
    exact h.uncachedStatus huncached (fun _ _ _ _ ↦ hstatus) hnew (fun _ _ ↦ rfl) hlt

theorem Inv.succeeded (h : Inv s) {id : ℕ} (hpending : s.status id = .pending) :
    Inv (s.setStatus id .opened) := by
  have hstatus : ∀ {other}, other ≠ id →
      Function.update s.status id .opened other = s.status other :=
    fun hne ↦ Function.update_of_ne hne _ _
  have hopened : ∀ {other}, s.status other = .opened →
      Function.update s.status id .opened other = .opened := by
    intro other hopen
    by_cases hsame : other = id
    · rw [hsame, Function.update_self]
    · rwa [hstatus hsame]
  refine ⟨fun version other hcache ↦ ?_, h.uncached, fun c hc other noticed hcurrent ↦ ?_,
    h.refused, fun other hopen ↦ ?_, fun other hfresh ↦ ?_⟩
  · obtain ⟨hopen, hrest⟩ := h.cached version other hcache
    refine ⟨?_, hrest⟩
    by_cases hsame : other = id
    · exact .inr (by rw [hsame]; exact Function.update_self ..)
    · rw [← hstatus hsame] at hopen
      exact hopen
  · obtain ⟨hcache, hopen⟩ | ⟨hnoticed, hfailed⟩ := h.held c hc other noticed hcurrent
    · exact .inl ⟨hcache, fun hnoticed ↦ hopened (hopen hnoticed)⟩
    · have hne : other ≠ id := by
        rintro rfl
        simp [hpending] at hfailed
      rw [← hstatus hne] at hfailed
      exact .inr ⟨hnoticed, hfailed⟩
  · by_cases hsame : other = id
    · exact h.tracked other (.inl (hsame ▸ hpending))
    · change Function.update s.status id .opened other = _ ∨
        Function.update s.status id .opened other = _ at hopen
      rw [hstatus hsame] at hopen
      exact h.tracked other hopen
  · obtain ⟨hunused, hclosing⟩ := h.fresh other hfresh
    have hne : other ≠ id := by
      rintro rfl
      rw [hpending] at hunused
      cases hunused
    exact ⟨(hstatus hne).trans hunused, hclosing⟩

theorem noticed_of_quiescent (hquiet : s.quiescent = true) {c : Connection}
    (hc : c ∈ s.connections) {id : ℕ} {noticed : Bool}
    (hcurrent : c.current = some ⟨some id, noticed⟩) (hsettled : (s.status id).settled = true) :
    noticed = true := by
  have hall := List.all_eq_true.mp ((Bool.and_eq_true _ _).mp hquiet).1 c hc
  simpa [State.unnoticed, hcurrent, hsettled] using hall

theorem closed_of_quiescent (hquiet : s.quiescent = true) {id : ℕ} (hlt : id < s.opens)
    (hsettled : (s.status id).settled = true) : s.closing id = false := by
  have hall := List.all_eq_true.mp ((Bool.and_eq_true _ _).mp hquiet).2 id (List.mem_range.mpr hlt)
  simpa [hsettled] using hall

theorem Inv.not_cached (h : Inv s) {id : ℕ} (hstatus : s.status id = .abandoned) (version : ℕ) :
    s.dbCache ≠ some (version, id) := by
  intro hcache
  obtain hopen | hopen := (h.cached version id hcache).1 <;> simp [hstatus] at hopen

theorem Inv.succeed (h : Inv s) {id : ℕ} (hquiet : s.quiescent = true)
    (hstep : s.succeed id = some t) : Inv t := by
  unfold State.succeed at hstep
  split at hstep
  · next hpending =>
    cases hstep
    exact h.succeeded hpending
  · next hstatus =>
    cases hstep
    refine h.uncachedStatus (h.not_cached hstatus) (fun c hc noticed hcurrent ↦ ?_) (by decide)
      (fun _ _ ↦ rfl) (h.lt_opens (by simp [hstatus]))
    have hnoticed := noticed_of_quiescent hquiet hc hcurrent (by rw [hstatus]; rfl)
    have hfailed := (h.failed_of_uncached (h.not_cached hstatus) hc hcurrent).1
    rw [hnoticed] at hfailed
    cases hfailed
  · cases hstep

theorem Inv.fail (h : Inv s) {id : ℕ} (hstep : s.fail id = some t) : Inv t := by
  unfold State.fail at hstep
  split at hstep
  · next hpending =>
    cases hstep
    exact h.reject hpending (.inr rfl)
  · next hstatus =>
    cases hstep
    exact h.uncachedStatus (h.not_cached hstatus) (fun _ _ _ _ ↦ .inr rfl) (by decide)
      (fun _ _ ↦ rfl) (h.lt_opens (by simp [hstatus]))
  · cases hstep

theorem Inv.blocked (h : Inv s) {id : ℕ} (hstep : s.blocked id = some t) : Inv t := by
  unfold State.blocked at hstep
  split at hstep
  · next hpending =>
    cases hstep
    exact h.reject hpending (.inl rfl)
  · cases hstep

theorem Inv.terminated (h : Inv s) {id : ℕ} (hquiet : s.quiescent = true)
    (hstep : s.terminated id = some t) : Inv t := by
  unfold State.terminated at hstep
  split at hstep
  swap
  · cases hstep
  next hopened =>
  have hsettled : (s.status id).settled = true := by rw [hopened]; rfl
  have hopen := closed_of_quiescent hquiet (h.lt_opens (by simp [hopened])) hsettled
  have hcached : s.dbCache.map (·.2) = some id :=
    (h.tracked id (.inr hopened)).resolve_right (by simp [hopen])
  obtain ⟨⟨version, other⟩, hcache, hid⟩ := Option.map_eq_some_iff.mp hcached
  have hcache : s.dbCache = some (version, id) := hid ▸ hcache
  cases hstep
  unfold State.forget
  rw [if_pos hcached]
  refine h.uncache hcache (by decide) fun c hc hold hcurrent ↦ ?_
  obtain ⟨c', hc', rfl⟩ := List.mem_map.mp hc
  split at hcurrent
  · cases hcurrent
  next hother =>
  rw [if_neg hother]
  refine ⟨hc', fun hopening ↦ ?_⟩
  obtain ⟨opening, noticed⟩ := hold
  obtain rfl : opening = some id := hopening
  have hnoticed := noticed_of_quiescent hquiet hc' hcurrent hsettled
  exact absurd (hnoticed ▸ hcurrent) hother

theorem inv_step {input : Input} (h : Inv s) (hok : Orderly s input)
    (hstep : step s input = some t) : Inv t := by
  cases input with
  | create version =>
    cases hstep
    exact h.create version
  | get c available =>
    obtain ⟨connection, hc, rfl⟩ := Option.map_eq_some_iff.mp hstep
    exact h.get hc available
  | dispose c =>
    obtain ⟨connection, hc, rfl⟩ := Option.map_eq_some_iff.mp hstep
    exact h.dispose hc (hok connection hc)
  | notice c =>
    obtain ⟨connection, hc, hnotice⟩ := Option.bind_eq_some_iff.mp hstep
    exact h.notice hc hnotice
  | close id => exact h.close hstep
  | succeed id =>
    obtain ⟨hquiet, hstep⟩ := Option.ite_none_right_eq_some.mp hstep
    exact h.succeed hquiet hstep
  | fail id =>
    obtain ⟨-, hstep⟩ := Option.ite_none_right_eq_some.mp hstep
    exact h.fail hstep
  | blocked id =>
    obtain ⟨-, hstep⟩ := Option.ite_none_right_eq_some.mp hstep
    exact h.blocked hstep
  | terminated id =>
    obtain ⟨hquiet, hstep⟩ := Option.ite_none_right_eq_some.mp hstep
    exact h.terminated hquiet hstep

theorem inv_start : Inv start where
  cached _ _ hcache := by cases hcache
  uncached _ := rfl
  held _ hc := by cases hc
  refused _ hc := by cases hc
  tracked _ hopen := by obtain hopen | hopen := hopen <;> cases hopen
  fresh _ _ := ⟨rfl, rfl⟩

end Invariant

/-! Two connections share an open, which is terminated under one of them. -/

def smallInputs : List Input :=
  [.create 1, .create 1, .get 0 true, .get 1 true, .succeed 0, .notice 0, .notice 1, .dispose 0,
    .terminated 0, .get 1 true, .succeed 1, .notice 1, .dispose 1, .close 1]

end ArkadeSdk.ManagedConnection
