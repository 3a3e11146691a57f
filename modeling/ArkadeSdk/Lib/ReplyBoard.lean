import ArkadeSdk.Lib.JsMap

/-! Tickets that wait for replies. A reply comes with a key, and one map says which ticket the next
reply with a key is for, so two tickets that wait with one key are in each other's way. -/

namespace ReplyBoard

open JsMap

variable {κ ρ ε : Type}

structure Ticket (κ ρ ε : Type) where
  key : κ
  info : ε
  registered : Bool
  reply : Option ρ

namespace Ticket

def waiting (t : Ticket κ ρ ε) : Bool := t.registered && t.reply.isNone

/-- A promise is settled once. -/
def settle (r : ρ) (t : Ticket κ ρ ε) : Ticket κ ρ ε := { t with reply := t.reply.or (some r) }

/-- The second ticket is the first one later on. -/
structure Grows (R : ε → ε → Prop) (t u : Ticket κ ρ ε) : Prop where
  key : u.key = t.key
  info : R t.info u.info
  reply : ∀ r, t.reply = some r → u.reply = some r

variable {R : ε → ε → Prop} {t u v : Ticket κ ρ ε}

theorem Grows.refl (hR : ∀ e, R e e) (t : Ticket κ ρ ε) : t.Grows R t :=
  ⟨rfl, hR _, fun _ h ↦ h⟩

theorem Grows.trans (hR : ∀ a b c, R a b → R b c → R a c) (h : t.Grows R u) (h' : u.Grows R v) :
    t.Grows R v where
  key := h'.key.trans h.key
  info := hR _ _ _ h.info h'.info
  reply r hr := h'.reply r (h.reply r hr)

theorem settle_grows (hR : ∀ e, R e e) (r : ρ) (t : Ticket κ ρ ε) : t.Grows R (t.settle r) where
  key := rfl
  info := hR _
  reply r' hr := by rw [settle, hr, Option.some_or]

@[simp] theorem settle_key (r : ρ) (t : Ticket κ ρ ε) : (t.settle r).key = t.key := rfl

@[simp] theorem settle_info (r : ρ) (t : Ticket κ ρ ε) : (t.settle r).info = t.info := rfl

@[simp] theorem settle_registered (r : ρ) (t : Ticket κ ρ ε) :
    (t.settle r).registered = t.registered := rfl

@[simp] theorem settle_waiting (r : ρ) (t : Ticket κ ρ ε) : (t.settle r).waiting = false := by
  cases h : t.reply <;> simp [waiting, settle, h]

theorem settle_isSome (r : ρ) (t : Ticket κ ρ ε) : (t.settle r).reply.isSome = true := by
  cases h : t.reply <;> simp [settle, h]

theorem settle_reply {r r' : ρ} {t : Ticket κ ρ ε} (h : (t.settle r).reply = some r') :
    t.reply = some r' ∨ r' = r := by
  cases ht : t.reply with
  | none =>
    rw [settle, ht, Option.none_or] at h
    exact .inr (Option.some.inj h).symm
  | some r₀ =>
    rw [settle, ht, Option.some_or] at h
    exact .inl h

end Ticket

structure Board (κ ρ ε : Type) where
  tickets : List (Ticket κ ρ ε)
  waiters : Entries κ ℕ

namespace Board

def empty : Board κ ρ ε := ⟨[], []⟩

/-- A ticket that no reply finds yet. -/
def issue (k : κ) (e : ε) (b : Board κ ρ ε) : Board κ ρ ε :=
  { b with tickets := b.tickets ++ [⟨k, e, false, none⟩] }

def update (i : ℕ) (f : ε → ε) (b : Board κ ρ ε) : Board κ ρ ε :=
  { b with tickets := b.tickets.modify i fun t ↦ { t with info := f t.info } }

/-- Every ticket that a waiter is for is settled. -/
def rejectAll (r : ρ) (b : Board κ ρ ε) : Board κ ρ ε where
  tickets := b.tickets.mapIdx fun i t ↦ if i ∈ b.waiters.map Prod.snd then t.settle r else t
  waiters := []

variable {b b' b'' : Board κ ρ ε} {i j : ℕ} {k : κ} {r : ρ} {t u : Ticket κ ρ ε}

theorem modify_cases {l : List (Ticket κ ρ ε)} {f : Ticket κ ρ ε → Ticket κ ρ ε}
    (h : (l.modify i f)[j]? = some u) :
    (i ≠ j ∧ l[j]? = some u) ∨ (i = j ∧ ∃ t, l[j]? = some t ∧ u = f t) := by
  rw [List.getElem?_modify] at h
  obtain ⟨t, ht, rfl⟩ := Option.map_eq_some_iff.mp h
  by_cases hij : i = j
  · exact .inr ⟨hij, t, ht, if_pos hij⟩
  · rw [if_neg hij]
    exact .inl ⟨hij, ht⟩

theorem modify_mono {l : List (Ticket κ ρ ε)} {f : Ticket κ ρ ε → Ticket κ ρ ε}
    (h : l[j]? = some t) : (l.modify i f)[j]? = some (if i = j then f t else t) := by
  rw [List.getElem?_modify, h]
  rfl

theorem append_cases {l : List (Ticket κ ρ ε)} (h : (l ++ [t])[j]? = some u) :
    l[j]? = some u ∨ (j = l.length ∧ u = t) := by
  rcases Nat.lt_trichotomy j l.length with hj | rfl | hj
  · rw [List.getElem?_append_left hj] at h
    exact .inl h
  · rw [List.getElem?_concat_length] at h
    exact .inr ⟨rfl, (Option.some.inj h).symm⟩
  · rw [List.getElem?_eq_none] at h
    · cases h
    · rw [List.length_append, List.length_singleton]
      omega

theorem append_old {l l' : List (Ticket κ ρ ε)} (h : l[j]? = some t) :
    (l ++ l')[j]? = some t := by
  obtain ⟨hj, -⟩ := List.getElem?_eq_some_iff.mp h
  rw [List.getElem?_append_left hj]
  exact h

theorem rejectAll_cases (h : (b.rejectAll r).tickets[j]? = some u) :
    ∃ t, b.tickets[j]? = some t ∧ u = if j ∈ b.waiters.map Prod.snd then t.settle r else t := by
  rw [rejectAll, List.getElem?_mapIdx] at h
  obtain ⟨t, ht, hu⟩ := Option.map_eq_some_iff.mp h
  exact ⟨t, ht, hu.symm⟩

theorem modify_other {l : List (Ticket κ ρ ε)} {f : Ticket κ ρ ε → Ticket κ ρ ε}
    (hij : i ≠ j) (h : l[j]? = some t) : (l.modify i f)[j]? = some t := by
  rw [modify_mono h, if_neg hij]

/-- Every ticket meets the condition. -/
def Each (P : Ticket κ ρ ε → Prop) (b : Board κ ρ ε) : Prop := ∀ t ∈ b.tickets, P t

variable {P : Ticket κ ρ ε → Prop}

theorem each_of (h : ∀ (j : ℕ) u, b.tickets[j]? = some u → P u) : b.Each P := by
  intro u hu
  obtain ⟨j, hj⟩ := List.mem_iff_getElem?.mp hu
  exact h j u hj

theorem Each.at (hb : b.Each P) (h : b.tickets[i]? = some t) : P t := hb t (List.mem_of_getElem? h)

theorem Each.issue {e : ε} (hb : b.Each P) (h : P ⟨k, e, false, none⟩) : (b.issue k e).Each P := by
  apply each_of
  intro j u hu
  rcases append_cases hu with hu | ⟨-, rfl⟩
  · exact hb.at hu
  · exact h

theorem Each.modify {f : Ticket κ ρ ε → Ticket κ ρ ε} {w : Entries κ ℕ} (hb : b.Each P)
    (h : ∀ t, b.tickets[i]? = some t → P t → P (f t)) :
    Each P ⟨b.tickets.modify i f, w⟩ := by
  apply each_of
  intro j u hu
  rcases modify_cases hu with ⟨-, hu⟩ | ⟨rfl, t, ht, rfl⟩
  · exact hb.at hu
  · exact h t ht (hb.at ht)

theorem Each.update {f : ε → ε} (hb : b.Each P)
    (h : ∀ t, b.tickets[i]? = some t → P t → P { t with info := f t.info }) :
    (b.update i f).Each P :=
  hb.modify h

theorem Each.rejectAll (hb : b.Each P) (h : ∀ t, P t → P (t.settle r)) :
    (b.rejectAll r).Each P := by
  apply each_of
  intro j u hu
  obtain ⟨t, ht, rfl⟩ := rejectAll_cases hu
  split
  · exact h t (hb.at ht)
  · exact hb.at ht

def Grows (R : ε → ε → Prop) (b b' : Board κ ρ ε) : Prop :=
  ∀ (i : ℕ) t, b.tickets[i]? = some t → ∃ u, b'.tickets[i]? = some u ∧ t.Grows R u

variable {R : ε → ε → Prop}

theorem Grows.refl (hR : ∀ e, R e e) (b : Board κ ρ ε) : b.Grows R b :=
  fun _ t ht ↦ ⟨t, ht, .refl hR t⟩

theorem Grows.trans (hR : ∀ a b c, R a b → R b c → R a c) (h : b.Grows R b')
    (h' : b'.Grows R b'') : b.Grows R b'' := by
  intro i t ht
  obtain ⟨u, hu, htu⟩ := h i t ht
  obtain ⟨v, hv, huv⟩ := h' i u hu
  exact ⟨v, hv, htu.trans hR huv⟩

theorem issue_grows (hR : ∀ e, R e e) (k : κ) (e : ε) : b.Grows R (b.issue k e) :=
  fun _ t ht ↦ ⟨t, append_old ht, .refl hR t⟩

theorem modify_grows {f : Ticket κ ρ ε → Ticket κ ρ ε} {w : Entries κ ℕ} (hR : ∀ e, R e e)
    (h : ∀ t : Ticket κ ρ ε, t.Grows R (f t)) : b.Grows R ⟨b.tickets.modify i f, w⟩ := by
  intro j t ht
  refine ⟨_, modify_mono ht, ?_⟩
  split
  · exact h t
  · exact .refl hR t

theorem update_grows (hR : ∀ e, R e e) {f : ε → ε}
    (h : ∀ t, b.tickets[i]? = some t → R t.info (f t.info)) : b.Grows R (b.update i f) := by
  intro j t ht
  refine ⟨_, modify_mono ht, ?_⟩
  split
  case isTrue hij =>
    subst hij
    exact ⟨rfl, h t ht, fun _ h ↦ h⟩
  case isFalse => exact .refl hR t

theorem rejectAll_grows (hR : ∀ e, R e e) (r : ρ) : b.Grows R (b.rejectAll r) := by
  intro j t ht
  refine ⟨if j ∈ b.waiters.map Prod.snd then t.settle r else t, ?_, ?_⟩
  · rw [rejectAll, List.getElem?_mapIdx, ht]
    rfl
  · split
    · exact Ticket.settle_grows hR r t
    · exact .refl hR t

section

variable [DecidableEq κ]

/-- From now on a reply with the ticket's key is for this ticket. -/
def register (i : ℕ) (b : Board κ ρ ε) : Board κ ρ ε :=
  match b.tickets[i]? with
  | none => b
  | some t => ⟨b.tickets.modify i fun t ↦ { t with registered := true }, set t.key i b.waiters⟩

/-- A ticket that is registered at once. -/
def enter (k : κ) (e : ε) (b : Board κ ρ ε) : Board κ ρ ε :=
  ⟨b.tickets ++ [⟨k, e, true, none⟩], set k b.tickets.length b.waiters⟩

/-- A reply with a key goes to the ticket that waits there, if one does. -/
def answer (k : κ) (r : ρ) (b : Board κ ρ ε) : Board κ ρ ε :=
  match get b.waiters k with
  | none => b
  | some i => ⟨b.tickets.modify i (·.settle r), erase k b.waiters⟩

/-- A ticket is given up: the waiter with its key goes, whichever ticket that is for. -/
def expire (i : ℕ) (r : ρ) (b : Board κ ρ ε) : Board κ ρ ε :=
  match b.tickets[i]? with
  | none => b
  | some t => ⟨b.tickets.modify i (·.settle r), erase t.key b.waiters⟩

/-- A ticket that waits is the one that a reply with its key is for. -/
structure Kept (b : Board κ ρ ε) : Prop where
  waiter : ∀ {i : ℕ} {t : Ticket κ ρ ε}, b.tickets[i]? = some t → t.waiting = true →
    get b.waiters t.key = some i
  ticket : ∀ {k : κ} {i : ℕ}, get b.waiters k = some i → ∃ t, b.tickets[i]? = some t ∧ t.key = k

theorem Kept.empty : (Board.empty : Board κ ρ ε).Kept where
  waiter h := by cases h
  ticket h := by cases h

theorem Kept.issue (hb : b.Kept) (k : κ) (e : ε) : (b.issue k e).Kept where
  waiter h hw := by
    rcases append_cases h with hold | ⟨-, rfl⟩
    · exact hb.waiter hold hw
    · cases hw
  ticket h := by
    obtain ⟨t, ht, hk⟩ := hb.ticket h
    exact ⟨t, append_old ht, hk⟩

/-- A new ticket may wait when no other one waits with its key. -/
theorem Kept.enter (hb : b.Kept) (hfree : ∀ u ∈ b.tickets, u.waiting = true → u.key ≠ k) (e : ε) :
    (b.enter k e).Kept where
  waiter {j u} h hw := by
    rcases append_cases h with hold | ⟨rfl, rfl⟩
    · have hne := hfree u (List.mem_of_getElem? hold) hw
      exact (get_set _ _ _ _).trans ((if_neg (Ne.symm hne)).trans (hb.waiter hold hw))
    · exact (get_set _ _ _ _).trans (if_pos rfl)
  ticket {k' j} h := by
    have hget := (get_set _ _ _ _).symm.trans h
    split at hget
    case isTrue heq =>
      cases hget
      exact ⟨_, List.getElem?_concat_length, heq⟩
    case isFalse =>
      obtain ⟨t, ht, hk⟩ := hb.ticket hget
      exact ⟨t, append_old ht, hk⟩

theorem Kept.update (hb : b.Kept) (i : ℕ) (f : ε → ε) : (b.update i f).Kept where
  waiter h hw := by
    rcases modify_cases h with ⟨-, hold⟩ | ⟨-, u, hold, rfl⟩
    · exact hb.waiter hold hw
    · have hwaits : u.waiting = true := hw
      have hget := hb.waiter hold hwaits
      exact hget
  ticket h := by
    obtain ⟨t, ht, hk⟩ := hb.ticket h
    refine ⟨_, modify_mono ht, ?_⟩
    split
    · exact hk
    · exact hk

/-- A ticket may be registered when none that waits has its key. -/
theorem Kept.register (hb : b.Kept)
    (hfree : ∀ t, b.tickets[i]? = some t → ∀ u ∈ b.tickets, u.waiting = true → u.key ≠ t.key) :
    (b.register i).Kept := by
  unfold Board.register
  split
  case h_1 => exact hb
  case h_2 t ht =>
    constructor
    · intro j u h hw
      rcases modify_cases h with ⟨hij, hold⟩ | ⟨rfl, u, hold, rfl⟩
      · have hne := hfree t ht u (List.mem_of_getElem? hold) hw
        rw [get_set, if_neg (Ne.symm hne)]
        exact hb.waiter hold hw
      · rw [ht] at hold
        cases hold
        rw [get_set, if_pos rfl]
    · intro k j h
      rw [get_set] at h
      split at h
      · cases h
        refine ⟨_, modify_mono ht, ?_⟩
        rw [if_pos rfl]
        assumption
      · obtain ⟨u, hu, hk⟩ := hb.ticket h
        refine ⟨_, modify_mono hu, ?_⟩
        split
        · exact hk
        · exact hk

/-- Whoever waits keeps its waiter when the one that goes was its own and it is settled. -/
theorem Kept.settled (hb : b.Kept) (hi : get b.waiters k = some i) :
    Kept ⟨b.tickets.modify i (·.settle r), erase k b.waiters⟩ where
  waiter h hw := by
    rcases modify_cases h with ⟨hij, h⟩ | ⟨-, t, -, rfl⟩
    · have hj := hb.waiter h hw
      rw [get_erase, if_neg]
      · exact hj
      · rintro rfl
        rw [hj] at hi
        exact hij (Option.some.inj hi).symm
    · rw [Ticket.settle_waiting] at hw
      cases hw
  ticket h := by
    rw [get_erase] at h
    split at h
    · cases h
    · obtain ⟨t, ht, hk⟩ := hb.ticket h
      refine ⟨_, modify_mono ht, ?_⟩
      split
      · exact hk
      · exact hk

theorem Kept.answer (hb : b.Kept) (k : κ) (r : ρ) : (b.answer k r).Kept := by
  unfold Board.answer
  split
  · exact hb
  · exact hb.settled ‹_›

theorem Kept.expire (hb : b.Kept) (r : ρ) (h : b.tickets[i]? = some t) (hw : t.waiting = true) :
    (b.expire i r).Kept := by
  unfold Board.expire
  rw [h]
  exact hb.settled (hb.waiter h hw)

theorem mem_waiters (hb : b.Kept) (h : b.tickets[i]? = some t) (hw : t.waiting = true) :
    i ∈ b.waiters.map Prod.snd :=
  List.mem_map_of_mem (f := Prod.snd) (mem_of_get (hb.waiter h hw))

theorem rejectAll_waiting (hb : b.Kept) (h : (b.rejectAll r).tickets[j]? = some u) :
    u.waiting = false := by
  obtain ⟨t, ht, rfl⟩ := rejectAll_cases h
  split
  · exact Ticket.settle_waiting r t
  · cases hw : t.waiting with
    | false => rfl
    | true =>
      have hmem := mem_waiters hb ht hw
      contradiction

theorem Kept.rejectAll (hb : b.Kept) (r : ρ) : (b.rejectAll r).Kept where
  waiter h hw := by
    rw [rejectAll_waiting hb h] at hw
    cases hw
  ticket h := by cases h

theorem Each.register (hb : b.Each P)
    (h : ∀ t, b.tickets[i]? = some t → P t → P { t with registered := true }) :
    (b.register i).Each P := by
  unfold Board.register
  split
  · exact hb
  · exact hb.modify h

theorem Each.enter {e : ε} (hb : b.Each P) (h : P ⟨k, e, true, none⟩) : (b.enter k e).Each P := by
  apply each_of
  intro j u hu
  rcases append_cases hu with hu | ⟨-, rfl⟩
  · exact hb.at hu
  · exact h

/-- A reply reaches a ticket with its own key only. -/
theorem Each.answer (hk : b.Kept) (hb : b.Each P)
    (h : ∀ i t, get b.waiters k = some i → b.tickets[i]? = some t → t.key = k → P t →
      P (t.settle r)) : (b.answer k r).Each P := by
  unfold Board.answer
  split
  · exact hb
  case h_2 i hi =>
    apply hb.modify
    intro t ht hP
    obtain ⟨u, hu, hkey⟩ := hk.ticket hi
    rw [ht] at hu
    cases hu
    exact h i t hi ht hkey hP

theorem Each.expire (hb : b.Each P) (h : ∀ t, b.tickets[i]? = some t → P t → P (t.settle r)) :
    (b.expire i r).Each P := by
  unfold Board.expire
  split
  · exact hb
  · exact hb.modify h

theorem expire_at (h : b.tickets[i]? = some t) :
    (b.expire i r).tickets[i]? = some (t.settle r) := by
  unfold expire
  rw [h]
  change (b.tickets.modify i _)[i]? = _
  rw [modify_mono h, if_pos rfl]

theorem register_other (hij : i ≠ j) (h : b.tickets[j]? = some t) :
    (b.register i).tickets[j]? = some t := by
  unfold register
  split
  · exact h
  · exact modify_other hij h

theorem answer_other (hk : b.Kept) (hne : t.key ≠ k) (h : b.tickets[j]? = some t) :
    (b.answer k r).tickets[j]? = some t := by
  unfold answer
  split
  · exact h
  case h_2 i hi =>
    apply modify_other ?_ h
    rintro rfl
    obtain ⟨u, hu, hkey⟩ := hk.ticket hi
    rw [h] at hu
    cases hu
    exact hne hkey

theorem expire_other (hij : i ≠ j) (h : b.tickets[j]? = some t) :
    (b.expire i r).tickets[j]? = some t := by
  unfold expire
  split
  · exact h
  · exact modify_other hij h

theorem enter_grows (hR : ∀ e, R e e) (k : κ) (e : ε) : b.Grows R (b.enter k e) :=
  fun _ t ht ↦ ⟨t, append_old ht, .refl hR t⟩

theorem register_grows (hR : ∀ e, R e e) (i : ℕ) : b.Grows R (b.register i) := by
  unfold register
  split
  · exact .refl hR b
  · exact modify_grows hR fun t ↦ ⟨rfl, hR _, fun _ h ↦ h⟩

theorem answer_grows (hR : ∀ e, R e e) (k : κ) (r : ρ) : b.Grows R (b.answer k r) := by
  unfold answer
  split
  · exact .refl hR b
  · exact modify_grows hR (Ticket.settle_grows hR r)

theorem expire_grows (hR : ∀ e, R e e) (i : ℕ) (r : ρ) : b.Grows R (b.expire i r) := by
  unfold expire
  split
  · exact .refl hR b
  · exact modify_grows hR (Ticket.settle_grows hR r)

end

end Board

end ReplyBoard
