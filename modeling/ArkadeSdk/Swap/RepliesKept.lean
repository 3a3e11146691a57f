import ArkadeSdk.Swap.ReplyTransport

/-! Calls over a socket are answered by their own replies as long as no two calls for one
negotiation wait at a time, no late reply meets a call of the other kind, and neither transport
ends under a call that it does not reject. -/

namespace ArkadeSdk.RfqCalls

open LabelledRun ReplyBoard ReplyBoard.Board
open Json (Value)

structure Answered (w : Wire) : Prop where
  in_time : ∀ c ∈ w.calls.tickets, c.info.due = true → outcome c ≠ none
  own_waiter : ∀ (i : ℕ) c, w.calls.tickets[i]? = some c → c.waiting = true →
    JsMap.get w.calls.waiters c.key = some i
  own_reply : ∀ c ∈ w.calls.tickets, ∀ v, outcome c = some (.ok (some v)) →
    isText (v.field "rfq_id") c.key = true
  uncrossed : ∀ c ∈ w.calls.tickets, ∀ v, c.info.sent = some (.ok ()) → c.reply = some (.ok v) →
    c.info.request.crosses v = false
  ended : w.closed = true ∨ w.lost = true → ∀ c ∈ w.calls.tickets, outcome c ≠ none

/-- What a caller was told stays so. -/
def OutcomesKept (w w' : Wire) : Prop :=
  ∀ (i : ℕ) c o, w.calls.tickets[i]? = some c → outcome c = some o →
    ∃ c', w'.calls.tickets[i]? = some c' ∧ outcome c' = some o

def RelayEvent.concerns (e : RelayEvent) (j : ℕ) (c : Call) : Prop :=
  match e with
  | .resume i _ | .timer i => i = j
  | .message frame => ∃ v, frameReply frame = some (c.key, v)
  | _ => False

def NostrEvent.concerns (e : NostrEvent) (j : ℕ) (c : Call) : Prop :=
  match e with
  | .published i _ | .timer i => i = j
  | .event payload => ∃ v, directReply payload = some (c.key, v)
  | .lost _ | .close => True
  | .call _ => False

def sendFailed (c : Call) : Bool :=
  match c.info.sent with
  | some (.error _) => true
  | _ => false

/-- No call that waits is for this negotiation. -/
def Free (w : Wire) (rfqId : String) : Prop :=
  ∀ c ∈ w.calls.tickets, c.waiting = true → c.key ≠ rfqId

/-- The reply is none to the other kind of request than that of the call it goes to. -/
def Meets (w : Wire) (reply : Option (String × Value)) : Prop :=
  ∀ k v, reply = some (k, v) → ∀ i c, JsMap.get w.calls.waiters k = some i →
    w.calls.tickets[i]? = some c → sendFailed c = false → c.info.request.crosses v = false

def relayOk (s : Relay) : RelayEvent → Prop
  | .call _ => s.closed = false ∧ s.lost = false
  | .opened subscribed => subscribed.isOk = true
  | .resume i _ => s.socket = .ready → ∀ c, s.calls.tickets[i]? = some c → Free s.toWire c.key
  | .message frame => Meets s.toWire (frameReply frame)
  | .lost | .close => ∀ c ∈ s.calls.tickets, outcome c ≠ none
  | .error | .timer _ => True

def nostrOk (text : Option Value → String) (s : Nostr) : NostrEvent → Prop
  | .call request => s.closed = false ∧ s.lost = false ∧ Free s.toWire (request.rfqId text)
  | .event payload => Meets s.toWire (directReply payload)
  | .timer i => ∀ c, s.calls.tickets[i]? = some c → c.info.sent ≠ none
  | .lost _ | .close => ∀ c ∈ s.calls.tickets, c.info.sent ≠ none
  | .published _ _ => True

/-- What stays of how a request was sent. -/
def Sending.Grows (a b : Sending) : Prop :=
  b.request = a.request ∧ (∀ o, a.sent = some o → b.sent = some o) ∧
    (a.due = true → b.due = true)

theorem Sending.Grows.refl (a : Sending) : a.Grows a := ⟨rfl, fun _ h ↦ h, fun h ↦ h⟩

theorem Sending.Grows.trans (a b c : Sending) (h : a.Grows b) (h' : b.Grows c) : a.Grows c :=
  ⟨h'.1.trans h.1, fun o ho ↦ h'.2.1 o (h.2.1 o ho), fun hd ↦ h'.2.2 (h.2.2 hd)⟩

theorem sent_grows {a : Sending} (h : a.sent = none) (sent : Except Failure Unit) :
    a.Grows { a with sent := some sent } := by
  refine ⟨rfl, fun o ho ↦ ?_, fun hd ↦ hd⟩
  rw [h] at ho
  cases ho

theorem due_grows (a : Sending) : a.Grows { a with due := true } :=
  ⟨rfl, fun _ h ↦ h, fun _ ↦ rfl⟩

theorem outcome_grows {c c' : Call} (h : c.Grows Sending.Grows c')
    {o : Except Failure (Option Value)} (ho : outcome c = some o) : outcome c' = some o := by
  unfold outcome at ho ⊢
  cases hs : c.info.sent with
  | none =>
    rw [hs] at ho
    cases ho
  | some sent =>
    rw [hs] at ho
    rw [h.info.2.1 sent hs]
    cases sent with
    | error e => exact ho
    | ok u =>
      obtain ⟨r, hr, ho⟩ := Option.map_eq_some_iff.mp ho
      rw [h.reply r hr, h.info.1, h.key]
      exact congrArg some ho

theorem outcome_ne_none_grows {c c' : Call} (h : c.Grows Sending.Grows c')
    (ho : outcome c ≠ none) : outcome c' ≠ none := by
  obtain ⟨o, ho⟩ := Option.ne_none_iff_exists'.mp ho
  rw [outcome_grows h ho]
  exact Option.some_ne_none o

theorem outcome_of_reply {c : Call} (hs : c.info.sent ≠ none) (hr : c.reply.isSome = true) :
    outcome c ≠ none := by
  unfold outcome
  obtain ⟨sent, hs⟩ := Option.ne_none_iff_exists'.mp hs
  obtain ⟨r, hr⟩ := Option.isSome_iff_exists.mp hr
  rw [hs, hr]
  cases sent with
  | error e => exact Option.some_ne_none _
  | ok u => exact Option.some_ne_none _

theorem expectQuote_ok {payload quote : Value} {rfqId : String} {pair : Option String}
    (h : expectQuote payload rfqId pair = .ok quote) : quote = payload := by
  unfold expectQuote at h
  split at h
  · cases h
  · split at h
    · cases h
    · split at h
      · cases h
        rfl
      · split at h
        · cases h
          rfl
        · cases h

theorem reply_of_outcome {c : Call} {v : Value} (h : outcome c = some (.ok (some v))) :
    c.reply = some (.ok v) := by
  unfold outcome at h
  split at h
  · cases h
  · cases h
  · obtain ⟨r, hr, h⟩ := Option.map_eq_some_iff.mp h
    cases r with
    | error e => cases h
    | ok payload =>
      rw [hr]
      change c.info.request.read c.key payload = .ok (some v) at h
      unfold Request.read at h
      split at h
      · cases hq : expectQuote payload c.key (pairOf ‹_›) with
        | error e =>
          rw [hq] at h
          cases h
        | ok quote =>
          rw [hq] at h
          cases h
          rw [expectQuote_ok hq]
      · split at h
        · cases h
          rfl
        · cases h

structure Fair (c : Call) : Prop where
  own : ∀ v, c.reply = some (.ok v) → isText (v.field "rfq_id") c.key = true
  uncrossed : sendFailed c = false → ∀ v, c.reply = some (.ok v) →
    c.info.request.crosses v = false
  due : c.info.due = true → outcome c ≠ none

theorem fair_issued (rfqId : String) (request : Request) (registered : Bool) :
    Fair ⟨rfqId, ⟨request, none, false⟩, registered, none⟩ where
  own v hv := by cases hv
  uncrossed _ v hv := by cases hv
  due h := by cases h

theorem Fair.register {c : Call} (h : Fair c) : Fair { c with registered := true } :=
  ⟨h.own, h.uncrossed, h.due⟩

theorem Fair.recordSent {c : Call} (h : Fair c) (hs : c.info.sent = none)
    (sent : Except Failure Unit) :
    Fair { c with info := { c.info with sent := some sent } } where
  own := h.own
  uncrossed _ := h.uncrossed (by rw [sendFailed, hs])
  due hd := by
    have ho := h.due hd
    rw [outcome, hs] at ho
    exact absurd rfl ho

theorem Fair.settle {c : Call} (h : Fair c) {r : Except Failure Value}
    (hown : ∀ v, r = .ok v → isText (v.field "rfq_id") c.key = true)
    (huncrossed : sendFailed c = false → ∀ v, r = .ok v → c.info.request.crosses v = false) :
    Fair (c.settle r) where
  own v hv := by
    rcases Ticket.settle_reply hv with hold | hnew
    · exact h.own v hold
    · exact hown v hnew.symm
  uncrossed hs v hv := by
    rcases Ticket.settle_reply hv with hold | hnew
    · exact h.uncrossed hs v hold
    · exact huncrossed hs v hnew.symm
  due hd := outcome_ne_none_grows (Ticket.settle_grows Sending.Grows.refl r c) (h.due hd)

theorem Fair.reject {c : Call} (h : Fair c) (e : Failure) : Fair (c.settle (.error e)) :=
  h.settle (fun _ hv ↦ by cases hv) fun _ _ hv ↦ by cases hv

theorem Fair.fire {c : Call} (h : Fair c) (hs : c.info.sent ≠ none)
    (hr : c.reply.isSome = true) : Fair { c with info := { c.info with due := true } } where
  own := h.own
  uncrossed := h.uncrossed
  due _ := outcome_of_reply hs hr

/-- A property of calls that settling them and recording their progress keeps. -/
structure Steady (P : Call → Prop) : Prop where
  settle : ∀ c r, P c → P (c.settle r)
  sent : ∀ (c : Call) sent, P c → P { c with info := { c.info with sent := some sent } }
  due : ∀ (c : Call), P c → P { c with info := { c.info with due := true } }

structure Sound (P : Call → Prop) (w : Wire) : Prop where
  kept : w.calls.Kept
  each : w.calls.Each fun c ↦
    Fair c ∧ P c ∧ (w.closed = true ∨ w.lost = true → outcome c ≠ none)

section

variable {P : Call → Prop} {w w' : Wire} {i j : ℕ} {c : Call} {e : Failure}

theorem Sound.answered (h : Sound P w) : Answered w where
  in_time c hc := (h.each c hc).1.due
  own_waiter i c hi hw := h.kept.waiter hi hw
  own_reply c hc v hv := (h.each c hc).1.own v (reply_of_outcome hv)
  uncrossed c hc v hs hv := by
    apply (h.each c hc).1.uncrossed ?_ v hv
    rw [sendFailed, hs]
  ended he c hc := (h.each c hc).2.2 he

theorem Sound.recordSent (hP : Steady P) (h : Sound P w)
    (hs : ∀ c, w.calls.tickets[i]? = some c → c.info.sent = none) (sent : Except Failure Unit) :
    Sound P { w with calls := recordSent i sent w.calls } where
  kept := h.kept.update i fun e ↦ { e with sent := some sent }
  each := by
    apply h.each.update
    rintro c hc ⟨hfair, hc', hended⟩
    refine ⟨hfair.recordSent (hs c hc) sent, hP.sent c sent hc', fun he ↦ ?_⟩
    have ho := hended he
    rw [outcome, hs c hc] at ho
    exact absurd rfl ho

theorem recordSent_grows {calls : Calls}
    (hs : ∀ c, calls.tickets[i]? = some c → c.info.sent = none) (sent : Except Failure Unit) :
    calls.Grows Sending.Grows (recordSent i sent calls) :=
  update_grows Sending.Grows.refl fun c hc ↦ sent_grows (hs c hc) sent

theorem Sound.deliver (hP : Steady P) (h : Sound P w) {reply : Option (String × Value)}
    (hown : ∀ k v, reply = some (k, v) → isText (v.field "rfq_id") k = true)
    (hmeets : Meets w reply) : Sound P (w.deliver reply) := by
  unfold Wire.deliver
  split
  · exact h
  case h_2 k payload =>
    constructor
    · exact h.kept.answer k _
    · apply h.each.answer h.kept
      rintro i c hi hc hkey ⟨hfair, hc', hended⟩
      refine ⟨hfair.settle (fun v hv ↦ ?_) (fun hs v hv ↦ ?_), hP.settle c _ hc', fun he ↦
        outcome_ne_none_grows (Ticket.settle_grows Sending.Grows.refl _ c) (hended he)⟩
      · cases hv
        rw [hkey]
        exact hown k payload rfl
      · cases hv
        exact hmeets k payload rfl i c hi hc hs

theorem deliver_grows (reply : Option (String × Value)) :
    w.calls.Grows Sending.Grows (w.deliver reply).calls := by
  unfold Wire.deliver
  split
  · exact .refl Sending.Grows.refl _
  · exact answer_grows Sending.Grows.refl _ _

theorem deliver_other (h : w.calls.Kept) {reply : Option (String × Value)}
    (hc : w.calls.tickets[j]? = some c) (hother : ¬∃ v, reply = some (c.key, v)) :
    (w.deliver reply).calls.tickets[j]? = some c := by
  unfold Wire.deliver
  split
  · exact hc
  case h_2 k payload =>
    apply answer_other h ?_ hc
    rintro rfl
    exact hother ⟨payload, rfl⟩

theorem frameReply_own {frame : Option Value} {k : String} {v : Value}
    (h : frameReply frame = some (k, v)) : isText (v.field "rfq_id") k = true := by
  unfold frameReply at h
  split at h
  · cases h
  · split at h
    · split at h
      · cases h
      · split at h
        case h_1 hid =>
          cases h
          rw [hid, isText]
          exact decide_eq_true rfl
        · cases h
    · cases h

theorem directReply_own {payload : Option Value} {k : String} {v : Value}
    (h : directReply payload = some (k, v)) : isText (v.field "rfq_id") k = true := by
  unfold directReply at h
  split at h
  · cases h
  · split at h
    case h_1 hid =>
      split at h
      · cases h
      · cases h
        rw [hid, isText]
        exact decide_eq_true rfl
    · cases h

theorem timer_cases (h : w.timer i e = some w') :
    ∃ c, w.calls.tickets[i]? = some c ∧ c.registered = true ∧
      w' = { w with
        calls := (if c.waiting then w.calls.expire i (.error e) else w.calls).update i
          fun e ↦ { e with due := true } } := by
  unfold Wire.timer at h
  split at h
  · cases h
  case h_2 c hc =>
    split at h
    case isTrue hb =>
      cases h
      obtain ⟨hreg, -⟩ := (Bool.and_eq_true _ _).mp hb
      exact ⟨c, hc, hreg, rfl⟩
    · cases h

theorem Sound.timer (hP : Steady P) (h : Sound P w)
    (hsent : ∀ c, w.calls.tickets[i]? = some c → c.registered = true → c.info.sent ≠ none)
    (ht : w.timer i e = some w') : Sound P w' := by
  obtain ⟨c, hc, hreg, rfl⟩ := timer_cases ht
  have hs := hsent c hc hreg
  split
  case isTrue hw =>
    constructor
    · exact (h.kept.expire _ hc hw).update i fun e ↦ { e with due := true }
    · have hexpired := h.each.expire (i := i) (r := .error e) fun t _ ht ↦
        ⟨ht.1.reject e, hP.settle t _ ht.2.1, fun he ↦
          outcome_ne_none_grows (Ticket.settle_grows Sending.Grows.refl _ t) (ht.2.2 he)⟩
      apply hexpired.update
      rintro t hti ⟨hfair, ht', hended⟩
      rw [expire_at hc] at hti
      cases hti
      have hr := Ticket.settle_isSome (.error e) c
      exact ⟨hfair.fire hs hr, hP.due _ ht', fun _ ↦ outcome_of_reply hs hr⟩
  case isFalse hw =>
    constructor
    · exact h.kept.update i fun e ↦ { e with due := true }
    · apply h.each.update
      rintro t hti ⟨hfair, ht', hended⟩
      rw [hc] at hti
      cases hti
      have hr : c.reply.isSome = true := by
        rw [Ticket.waiting, hreg] at hw
        simpa [Option.isSome_iff_ne_none] using hw
      exact ⟨hfair.fire hs hr, hP.due _ ht', fun _ ↦ outcome_of_reply hs hr⟩

theorem timer_grows (h : w.timer i e = some w') : w.calls.Grows Sending.Grows w'.calls := by
  obtain ⟨c, -, -, rfl⟩ := timer_cases h
  have hexpired : w.calls.Grows Sending.Grows
      (if c.waiting then w.calls.expire i (.error e) else w.calls) := by
    split
    · exact expire_grows Sending.Grows.refl i _
    · exact .refl Sending.Grows.refl _
  exact hexpired.trans Sending.Grows.trans
    (update_grows Sending.Grows.refl fun t _ ↦ due_grows t.info)

theorem timer_other (h : w.timer i e = some w') (hij : i ≠ j)
    (hc : w.calls.tickets[j]? = some c) : w'.calls.tickets[j]? = some c := by
  obtain ⟨c', -, -, rfl⟩ := timer_cases h
  apply modify_other hij
  split
  · exact expire_other hij hc
  · exact hc

theorem outcomesKept_of_grows (h : w.calls.Grows Sending.Grows w'.calls) : OutcomesKept w w' := by
  intro i c o hc ho
  obtain ⟨c', hc', hgrows⟩ := h i c hc
  exact ⟨c', hc', outcome_grows hgrows ho⟩

theorem OutcomesKept.refl (w : Wire) : OutcomesKept w w := fun _ c _ hc ho ↦ ⟨c, hc, ho⟩

theorem OutcomesKept.trans {w'' : Wire} (h : OutcomesKept w w') (h' : OutcomesKept w' w'') :
    OutcomesKept w w'' := by
  intro i c o hc ho
  obtain ⟨c', hc', ho'⟩ := h i c o hc ho
  exact h' i c' o hc' ho'

end

def relayCall (c : Call) : Prop := c.registered = true → c.info.sent ≠ none

theorem relayCall_steady : Steady relayCall where
  settle _ _ h := h
  sent _ _ _ _ := Option.some_ne_none _
  due _ h := h

structure RelaySound (s : Relay) : Prop where
  sound : Sound relayCall s.toWire
  audible : s.socket ≠ .silent

theorem Sound.initial {P : Call → Prop} (closed lost : Bool) :
    Sound P ⟨.empty, closed, lost⟩ where
  kept := .empty
  each c hc := by cases hc

section

variable {text : Option Value → String} {timeoutMs : Option ℕ} {s t : Relay}

theorem opened_cases {subscribed : Except Failure Unit}
    (h : relayStep text timeoutMs s (.opened subscribed) = some t) :
    t = { s with socket := if subscribed.isOk then .ready else .silent } := by
  unfold relayStep at h
  dsimp only at h
  split at h
  · exact (Option.some.inj h).symm
  · cases h

theorem error_cases (h : relayStep text timeoutMs s .error = some t) :
    t = s ∨ t = { s with socket := .failed } := by
  unfold relayStep at h
  dsimp only at h
  split at h
  · exact .inr (Option.some.inj h).symm
  · exact .inr (Option.some.inj h).symm
  · exact .inl (Option.some.inj h).symm

theorem resume_cases {i : ℕ} {sent : Except Failure Unit}
    (h : relayStep text timeoutMs s (.resume i sent) = some t) :
    (∀ c, s.calls.tickets[i]? = some c → c.info.sent = none) ∧
      ((s.socket = .ready ∧ t = { s with calls := (recordSent i sent s.calls).register i }) ∨
        ∃ e, t = { s with calls := recordSent i (.error e) s.calls }) := by
  unfold relayStep at h
  dsimp only at h
  split at h
  · cases h
  case h_2 c hc =>
    split at h
    · cases h
    case isFalse hs =>
      have hnone : ∀ c', s.calls.tickets[i]? = some c' → c'.info.sent = none := by
        intro c' hc'
        rw [hc] at hc'
        cases hc'
        simpa using hs
      refine ⟨hnone, ?_⟩
      split at h
      case h_1 hready =>
        cases h
        exact .inl ⟨hready, rfl⟩
      case h_2 =>
        cases h
        exact .inr ⟨_, rfl⟩
      case h_3 => cases h

theorem recordSent_before {i j : ℕ} {sent : Except Failure Unit} {calls : Calls} {c : Call}
    (h : (recordSent i sent calls).tickets[j]? = some c) :
    ∃ c₀, calls.tickets[j]? = some c₀ ∧ c.key = c₀.key ∧ c.waiting = c₀.waiting := by
  rcases modify_cases h with ⟨-, hold⟩ | ⟨-, c₀, hold, rfl⟩
  · exact ⟨c, hold, rfl, rfl⟩
  · exact ⟨c₀, hold, rfl, rfl⟩

theorem recordSent_at {i : ℕ} {sent : Except Failure Unit} {calls : Calls} {c : Call}
    (h : (recordSent i sent calls).tickets[i]? = some c) : c.info.sent = some sent := by
  rcases modify_cases h with ⟨hne, -⟩ | ⟨-, c, -, rfl⟩
  · exact absurd rfl hne
  · rfl

theorem RelaySound.step (h : RelaySound s) {e : RelayEvent} (hok : relayOk s e)
    (ht : relayStep text timeoutMs s e = some t) : RelaySound t := by
  cases e with
  | call request =>
    cases ht
    refine ⟨⟨h.sound.kept.issue _ _, h.sound.each.issue ?_⟩, h.audible⟩
    refine ⟨fair_issued _ request false, (fun hr ↦ by cases hr), ?_⟩
    rintro (he | he)
    · rw [hok.1] at he
      cases he
    · rw [hok.2] at he
      cases he
  | opened subscribed =>
    obtain rfl := opened_cases ht
    have hready : (if subscribed.isOk = true then Socket.ready else .silent) = .ready := if_pos hok
    refine ⟨h.sound, fun hs ↦ ?_⟩
    rw [hready] at hs
    cases hs
  | error =>
    rcases error_cases ht with rfl | rfl
    · exact h
    · exact ⟨h.sound, fun hs ↦ by cases hs⟩
  | resume i sent =>
    obtain ⟨hs, ⟨hready, rfl⟩ | ⟨e, rfl⟩⟩ := resume_cases ht
    · have hrecorded := h.sound.recordSent relayCall_steady hs sent
      refine ⟨⟨hrecorded.kept.register ?_, hrecorded.each.register ?_⟩, h.audible⟩
      · intro c hc u hu hw
        obtain ⟨c₀, hc₀, hkey, -⟩ := recordSent_before hc
        obtain ⟨j, hj⟩ := List.mem_iff_getElem?.mp hu
        obtain ⟨u₀, hu₀, hukey, huw⟩ := recordSent_before hj
        rw [huw] at hw
        rw [hukey, hkey]
        exact hok hready c₀ hc₀ u₀ (List.mem_of_getElem? hu₀) hw
      · rintro c hc ⟨hfair, -, hended⟩
        refine ⟨hfair.register, fun _ ↦ ?_, hended⟩
        rw [recordSent_at hc]
        exact Option.some_ne_none _
    · exact ⟨h.sound.recordSent relayCall_steady hs _, h.audible⟩
  | message frame =>
    cases ht
    have hown : ∀ k v, frameReply frame = some (k, v) → isText (v.field "rfq_id") k = true :=
      fun k v hkv ↦ frameReply_own hkv
    exact ⟨h.sound.deliver relayCall_steady hown hok, h.audible⟩
  | timer i =>
    obtain ⟨w, hw, rfl⟩ := Option.map_eq_some_iff.mp ht
    refine ⟨h.sound.timer relayCall_steady (fun c hc ↦ ?_) hw, h.audible⟩
    exact (h.sound.each.at hc).2.1
  | lost =>
    cases ht
    refine ⟨⟨h.sound.kept, fun c hc ↦ ?_⟩, h.audible⟩
    exact ⟨(h.sound.each c hc).1, (h.sound.each c hc).2.1, fun _ ↦ hok c hc⟩
  | close =>
    cases ht
    refine ⟨⟨h.sound.kept, fun c hc ↦ ?_⟩, h.audible⟩
    exact ⟨(h.sound.each c hc).1, (h.sound.each c hc).2.1, fun _ ↦ hok c hc⟩

theorem relayStep_grows {e : RelayEvent} (ht : relayStep text timeoutMs s e = some t) :
    s.calls.Grows Sending.Grows t.calls := by
  have hsame : s.calls.Grows Sending.Grows s.calls := .refl Sending.Grows.refl _
  cases e with
  | call request =>
    cases ht
    exact issue_grows Sending.Grows.refl _ _
  | opened subscribed =>
    obtain rfl := opened_cases ht
    exact hsame
  | error =>
    rcases error_cases ht with rfl | rfl
    · exact hsame
    · exact hsame
  | resume i sent =>
    obtain ⟨hs, ⟨-, rfl⟩ | ⟨e, rfl⟩⟩ := resume_cases ht
    · exact (recordSent_grows hs sent).trans Sending.Grows.trans
        (register_grows Sending.Grows.refl i)
    · exact recordSent_grows hs _
  | message frame =>
    cases ht
    exact deliver_grows _
  | timer i =>
    obtain ⟨w, hw, rfl⟩ := Option.map_eq_some_iff.mp ht
    exact timer_grows hw
  | lost =>
    cases ht
    exact hsame
  | close =>
    cases ht
    exact hsame

theorem relayStep_other (h : RelaySound s) {e : RelayEvent} {j : ℕ} {c : Call}
    (ht : relayStep text timeoutMs s e = some t) (hc : s.calls.tickets[j]? = some c)
    (hother : ¬e.concerns j c) : t.calls.tickets[j]? = some c := by
  cases e with
  | call request =>
    cases ht
    exact append_old hc
  | opened subscribed =>
    obtain rfl := opened_cases ht
    exact hc
  | error =>
    rcases error_cases ht with rfl | rfl
    · exact hc
    · exact hc
  | resume i sent =>
    obtain ⟨-, ⟨-, rfl⟩ | ⟨e, rfl⟩⟩ := resume_cases ht
    · exact register_other hother (modify_other hother hc)
    · exact modify_other hother hc
  | message frame =>
    cases ht
    exact deliver_other h.sound.kept hc hother
  | timer i =>
    obtain ⟨w, hw, rfl⟩ := Option.map_eq_some_iff.mp ht
    exact timer_other hw hother hc
  | lost =>
    cases ht
    exact hc
  | close =>
    cases ht
    exact hc

end

/-- A call sets its waiter before it publishes. -/
def nostrCall (c : Call) : Prop := c.registered = true

theorem nostrCall_steady : Steady nostrCall where
  settle _ _ h := h
  sent _ _ h := h
  due _ h := h

section

variable {text : Option Value → String} {timeoutMs : Option ℕ} {s t : Nostr}

theorem published_cases {i : ℕ} {relays : Except Failure (List Bool)}
    (h : nostrStep text timeoutMs s (.published i relays) = some t) :
    (∀ c, s.calls.tickets[i]? = some c → c.info.sent = none) ∧
      t = { s with calls := recordSent i (publishSent relays) s.calls } := by
  unfold nostrStep at h
  dsimp only at h
  split at h
  · cases h
  case h_2 c hc =>
    split at h
    · cases h
    case isFalse hs =>
      refine ⟨fun c' hc' ↦ ?_, (Option.some.inj h).symm⟩
      rw [hc] at hc'
      cases hc'
      simpa using hs

theorem lost_cases {reasons : List CloseReason}
    (h : nostrStep text timeoutMs s (.lost reasons) = some t) :
    (s.closed = true ∧ t = { s with lost := true }) ∨
      ∃ e, t = { s with lost := true, calls := s.calls.rejectAll (.error e) } := by
  unfold nostrStep at h
  dsimp only at h
  split at h
  case isTrue hclosed => exact .inl ⟨hclosed, (Option.some.inj h).symm⟩
  case isFalse => exact .inr ⟨_, (Option.some.inj h).symm⟩

theorem Sound.rejected {w : Wire} (h : Sound nostrCall w)
    (hsent : ∀ c ∈ w.calls.tickets, c.info.sent ≠ none) (e : Failure) (closed lost : Bool) :
    Sound nostrCall ⟨w.calls.rejectAll (.error e), closed, lost⟩ where
  kept := h.kept.rejectAll _
  each := by
    have heach : (w.calls.rejectAll (.error e)).Each fun c ↦
        Fair c ∧ nostrCall c ∧ c.info.sent ≠ none := by
      refine Each.rejectAll (fun c hc ↦ ⟨(h.each c hc).1, (h.each c hc).2.1, hsent c hc⟩) ?_
      rintro c ⟨hfair, hcall, hs⟩
      exact ⟨hfair.reject e, hcall, hs⟩
    intro c hc
    obtain ⟨hfair, hcall, hs⟩ := heach c hc
    refine ⟨hfair, hcall, fun _ ↦ outcome_of_reply hs ?_⟩
    obtain ⟨j, hj⟩ := List.mem_iff_getElem?.mp hc
    have hw := rejectAll_waiting h.kept hj
    rw [Ticket.waiting, hcall] at hw
    simpa [Option.isSome_iff_ne_none] using hw

theorem nostr_sound_step (h : Sound nostrCall s.toWire) {e : NostrEvent}
    (hok : nostrOk text s e) (ht : nostrStep text timeoutMs s e = some t) :
    Sound nostrCall t.toWire := by
  cases e with
  | call request =>
    cases ht
    obtain ⟨hclosed, hlost, hfree⟩ := hok
    refine ⟨h.kept.enter hfree _, h.each.enter ⟨fair_issued _ request true, rfl, ?_⟩⟩
    rintro (he | he)
    · rw [hclosed] at he
      cases he
    · rw [hlost] at he
      cases he
  | published i relays =>
    obtain ⟨hs, rfl⟩ := published_cases ht
    exact h.recordSent nostrCall_steady hs _
  | event payload =>
    cases ht
    have hown : ∀ k v, directReply payload = some (k, v) → isText (v.field "rfq_id") k = true :=
      fun k v hkv ↦ directReply_own hkv
    exact h.deliver nostrCall_steady hown hok
  | timer i =>
    obtain ⟨w, hw, rfl⟩ := Option.map_eq_some_iff.mp ht
    exact h.timer nostrCall_steady (fun c hc _ ↦ hok c hc) hw
  | lost reasons =>
    rcases lost_cases ht with ⟨hclosed, rfl⟩ | ⟨e, rfl⟩
    · refine ⟨h.kept, fun c hc ↦ ?_⟩
      obtain ⟨hfair, hcall, hended⟩ := h.each c hc
      exact ⟨hfair, hcall, fun _ ↦ hended (.inl hclosed)⟩
    · exact h.rejected hok e _ _
  | close =>
    cases ht
    exact h.rejected hok _ _ _

theorem nostrStep_grows {e : NostrEvent} (ht : nostrStep text timeoutMs s e = some t) :
    s.calls.Grows Sending.Grows t.calls := by
  cases e with
  | call request =>
    cases ht
    exact enter_grows Sending.Grows.refl _ _
  | published i relays =>
    obtain ⟨hs, rfl⟩ := published_cases ht
    exact recordSent_grows hs _
  | event payload =>
    cases ht
    exact deliver_grows _
  | timer i =>
    obtain ⟨w, hw, rfl⟩ := Option.map_eq_some_iff.mp ht
    exact timer_grows hw
  | lost reasons =>
    rcases lost_cases ht with ⟨-, rfl⟩ | ⟨e, rfl⟩
    · exact .refl Sending.Grows.refl _
    · exact rejectAll_grows Sending.Grows.refl _
  | close =>
    cases ht
    exact rejectAll_grows Sending.Grows.refl _

theorem nostrStep_other (h : Sound nostrCall s.toWire) {e : NostrEvent} {j : ℕ} {c : Call}
    (ht : nostrStep text timeoutMs s e = some t) (hc : s.calls.tickets[j]? = some c)
    (hother : ¬e.concerns j c) : t.calls.tickets[j]? = some c := by
  cases e with
  | call request =>
    cases ht
    exact append_old hc
  | published i relays =>
    obtain ⟨-, rfl⟩ := published_cases ht
    exact modify_other hother hc
  | event payload =>
    cases ht
    exact deliver_other h.kept hc hother
  | timer i =>
    obtain ⟨w, hw, rfl⟩ := Option.map_eq_some_iff.mp ht
    exact timer_other hw hother hc
  | lost reasons => exact absurd trivial hother
  | close => exact absurd trivial hother

end

/-- What a transport does from a state on: the calls there are in order, an event changes no call
that it is not about, and whatever happens nobody is told twice. -/
structure Conduct {σ ι : Type} (wire : σ → Wire) (step : σ → ι → Option σ)
    (concerns : ι → ℕ → Call → Prop) (s : σ) : Prop where
  answered : Answered (wire s)
  undisturbed : ∀ e t, step s e = some t → ∀ (j : ℕ) c, (wire s).calls.tickets[j]? = some c →
    ¬concerns e j c → (wire t).calls.tickets[j]? = some c
  settled_once : ∀ t, Run step (fun _ _ ↦ True) s t → OutcomesKept (wire s) (wire t)

theorem outcomesKept_run {σ ι : Type} {wire : σ → Wire} {step : σ → ι → Option σ}
    (hstep : ∀ s e t, step s e = some t → (wire s).calls.Grows Sending.Grows (wire t).calls)
    {s t : σ} (h : Run step (fun _ _ ↦ True) s t) : OutcomesKept (wire s) (wire t) := by
  induction h with
  | refl => exact .refl _
  | tail _ _ ht ih => exact ih.trans (outcomesKept_of_grows (hstep _ _ _ ht))

/-- On either transport, in every state that is reached by steps that meet its condition. -/
theorem calls_answered (text : Option Value → String) (timeoutMs : Option ℕ) :
    (∀ s, Run (relayStep text timeoutMs) relayOk .initial s →
      Conduct Relay.toWire (relayStep text timeoutMs) RelayEvent.concerns s ∧
        s.socket ≠ .silent) ∧
    ∀ s, Run (nostrStep text timeoutMs) (nostrOk text) .initial s →
      Conduct Nostr.toWire (nostrStep text timeoutMs) NostrEvent.concerns s := by
  constructor
  · intro s hrun
    have hs : RelaySound s := hrun.invariant (fun _ _ _ hs hok ht ↦ hs.step hok ht)
      ⟨.initial false false, fun h ↦ by cases h⟩
    refine ⟨⟨hs.sound.answered, fun e t ht j c hc hother ↦ ?_, fun t ht ↦ ?_⟩, hs.audible⟩
    · exact relayStep_other hs ht hc hother
    · exact outcomesKept_run (fun _ _ _ h ↦ relayStep_grows h) ht
  · intro s hrun
    have hs : Sound nostrCall s.toWire := by
      apply hrun.invariant (P := fun s ↦ Sound nostrCall s.toWire) ?_ (.initial false false)
      exact fun _ _ _ hs hok ht ↦ nostr_sound_step hs hok ht
    refine ⟨hs.answered, fun e t ht j c hc hother ↦ ?_, fun t ht ↦ ?_⟩
    · exact nostrStep_other hs ht hc hother
    · exact outcomesKept_run (fun _ _ _ h ↦ nostrStep_grows h) ht

/-- `String(v)`, on what an id may be. -/
def printed (v : Option Value) : String :=
  match v with
  | some (.string s) => s
  | some .null => "null"
  | some (.bool b) => toString b
  | _ => "undefined"

def freeCheck (w : Wire) (rfqId : String) : Bool :=
  w.calls.tickets.all fun c ↦ !c.waiting || c.key ≠ rfqId

theorem free_of_check {w : Wire} {rfqId : String} (h : freeCheck w rfqId = true) :
    Free w rfqId := by
  intro c hc hwaits
  have hfree := List.all_eq_true.mp h c hc
  rw [hwaits] at hfree
  exact of_decide_eq_true hfree

def meetsCheck (w : Wire) (reply : Option (String × Value)) : Bool :=
  reply.all fun (k, v) ↦ (JsMap.get w.calls.waiters k).all fun i ↦
    (w.calls.tickets[i]?).all fun c ↦ sendFailed c || !c.info.request.crosses v

theorem meets_of_check {w : Wire} {reply : Option (String × Value)}
    (h : meetsCheck w reply = true) : Meets w reply := by
  rintro k v rfl i c hget hc hsent
  have h : ((JsMap.get w.calls.waiters k).all fun i ↦
    (w.calls.tickets[i]?).all fun c ↦ sendFailed c || !c.info.request.crosses v) = true := h
  rw [hget, Option.all_some, hc, Option.all_some, hsent] at h
  simpa using h

def relayCheck (s : Relay) : RelayEvent → Bool
  | .call _ => !s.closed && !s.lost
  | .opened subscribed => subscribed.isOk
  | .resume i _ => (s.calls.tickets[i]?).all fun c ↦ freeCheck s.toWire c.key
  | .message frame => meetsCheck s.toWire (frameReply frame)
  | .lost | .close => false
  | .error | .timer _ => true

theorem relayOk_of_check (s : Relay) (e : RelayEvent) (h : relayCheck s e = true) :
    relayOk s e := by
  cases e with
  | call request =>
    obtain ⟨hclosed, hlost⟩ := (Bool.and_eq_true _ _).mp h
    exact ⟨(Bool.not_eq_true' _).mp hclosed, (Bool.not_eq_true' _).mp hlost⟩
  | opened => exact h
  | resume i sent =>
    intro _ c hc
    have h : (s.calls.tickets[i]?).all (fun c ↦ freeCheck s.toWire c.key) = true := h
    rw [hc] at h
    exact free_of_check h
  | message => exact meets_of_check h
  | lost | close => cases h
  | error | timer => trivial

def nostrCheck (s : Nostr) : NostrEvent → Bool
  | .call request => !s.closed && !s.lost && freeCheck s.toWire (request.rfqId printed)
  | .event payload => meetsCheck s.toWire (directReply payload)
  | .timer _ | .lost _ | .close => false
  | .published _ _ => true

theorem nostrOk_of_check (s : Nostr) (e : NostrEvent) (h : nostrCheck s e = true) :
    nostrOk printed s e := by
  cases e with
  | call request =>
    obtain ⟨h, hfree⟩ := (Bool.and_eq_true _ _).mp h
    obtain ⟨hclosed, hlost⟩ := (Bool.and_eq_true _ _).mp h
    exact ⟨(Bool.not_eq_true' _).mp hclosed, (Bool.not_eq_true' _).mp hlost, free_of_check hfree⟩
  | event => exact meets_of_check h
  | timer | lost | close => cases h
  | published => trivial

def askedFor (id : String) : Request := .quote (.object [("rfq_id", .string id)])

def replyFor (id : String) : Value :=
  .object [("type", .string "rfq_quote"), ("rfq_id", .string id)]

def frameFor (id : String) : Value :=
  .object [("op", .string "event"), ("event", .object [("payload", replyFor id)])]

/-- Two calls, the second of which is answered first. -/
def relayEvents : List RelayEvent :=
  [.call (askedFor "r"), .opened (.ok ()), .resume 0 (.ok ()), .call (askedFor "q"),
    .resume 1 (.ok ()), .message (some (frameFor "q")), .message (some (frameFor "r"))]

def nostrEvents : List NostrEvent :=
  [.call (askedFor "r"), .call (askedFor "q"), .event (some (replyFor "q")),
    .published 0 (.ok [true]), .published 1 (.ok [true]), .event (some (replyFor "r"))]

theorem quote_calls_answered :
    (∃ s, Conduct Relay.toWire (relayStep printed none) RelayEvent.concerns s ∧
      s.calls.tickets.map outcome =
        [some (.ok (some (replyFor "r"))), some (.ok (some (replyFor "q")))]) ∧
    ∃ s, Conduct Nostr.toWire (nostrStep printed none) NostrEvent.concerns s ∧
      s.calls.tickets.map outcome =
        [some (.ok (some (replyFor "r"))), some (.ok (some (replyFor "q")))] := by
  obtain ⟨s, hs, htold⟩ : ∃ s, exec (relayStep printed none) .initial relayEvents = some s ∧
      s.calls.tickets.map outcome =
        [some (.ok (some (replyFor "r"))), some (.ok (some (replyFor "q")))] := ⟨_, rfl, rfl⟩
  obtain ⟨t, ht, htold'⟩ : ∃ t, exec (nostrStep printed none) .initial nostrEvents = some t ∧
      t.calls.tickets.map outcome =
        [some (.ok (some (replyFor "r"))), some (.ok (some (replyFor "q")))] := ⟨_, rfl, rfl⟩
  have hrelay := run_of_exec hs (along_of_check relayOk_of_check rfl)
  have hnostr := run_of_exec ht (along_of_check nostrOk_of_check rfl)
  exact ⟨⟨s, ((calls_answered printed none).1 s hrelay).1, htold⟩,
    t, (calls_answered printed none).2 t hnostr, htold'⟩

/-- A status is asked for while a quote is: the quote settles the status call as null, and the
call that asked for it has no waiter. -/
theorem crossed_replies :
    (∃ s, Run (relayStep printed none) (fun _ _ ↦ True) .initial s ∧ ¬Answered s.toWire ∧
      s.calls.tickets.map outcome = [none, some (.ok none)]) ∧
    ∃ s, Run (nostrStep printed none) (fun _ _ ↦ True) .initial s ∧ ¬Answered s.toWire ∧
      s.calls.tickets.map outcome = [none, some (.ok none)] := by
  constructor
  · let events : List RelayEvent := [.opened (.ok ()), .call (askedFor "r"), .resume 0 (.ok ()),
      .call (.status "r"), .resume 1 (.ok ()), .message (some (frameFor "r"))]
    have hchecked : Along (relayStep printed none) (fun _ _ ↦ True) .initial events :=
      along_of_check (p := fun _ _ ↦ true) (fun _ _ _ ↦ trivial) rfl
    refine ⟨_, run_of_exec rfl hchecked, fun h ↦ ?_, rfl⟩
    have hwaits := h.own_waiter 0 _ rfl rfl
    cases hwaits
  · let events : List NostrEvent := [.call (askedFor "r"), .published 0 (.ok [true]),
      .call (.status "r"), .published 1 (.ok [true]), .event (some (replyFor "r"))]
    have hchecked : Along (nostrStep printed none) (fun _ _ ↦ True) .initial events :=
      along_of_check (p := fun _ _ ↦ true) (fun _ _ _ ↦ trivial) rfl
    refine ⟨_, run_of_exec rfl hchecked, fun h ↦ ?_, rfl⟩
    have hwaits := h.own_waiter 0 _ rfl rfl
    cases hwaits

end ArkadeSdk.RfqCalls
