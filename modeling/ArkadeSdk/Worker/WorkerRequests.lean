import ArkadeSdk.Lib.Words
import ArkadeSdk.Worker.MessageBus

/-! The page's side of the message bus: a request is sent again when the worker was restarted, and
waits while the worker initializes. -/

namespace ArkadeSdk.WorkerRequests

open LabelledRun MessageBus

def isMessageBusNotInitializedError (message : String) : Bool :=
  MESSAGE_BUS_NOT_INITIALIZED.toList <:+: message.toList

def isMessageBusInitializingError (message : String) : Bool :=
  MESSAGE_BUS_INITIALIZING.toList <:+: message.toList

def Plain (text : String) : Prop := isMessageBusNotInitializedError text = false

instance : DecidablePred Plain := fun _ ↦ inferInstanceAs (Decidable (_ = _))

theorem not_initialized_of_initializing {message : String}
    (h : isMessageBusInitializingError message = true) :
    isMessageBusNotInitializedError message = true := by
  have hpart : MESSAGE_BUS_NOT_INITIALIZED.toList <:+: MESSAGE_BUS_INITIALIZING.toList := by
    rw [MESSAGE_BUS_INITIALIZING, String.toList_append]
    exact (List.prefix_append _ _).isInfix
  exact decide_eq_true (hpart.trans (of_decide_eq_true h))

theorem plain_iff {text : String} :
    Plain text ↔ ¬MESSAGE_BUS_NOT_INITIALIZED.toList <:+: text.toList := decide_eq_false_iff_not

theorem toText_notMem (z : ℤ) :
    ∀ c ∈ (Decimal.toText z).toList, c ∉ MESSAGE_BUS_NOT_INITIALIZED.toList := by
  have hminus : '-' ∉ MESSAGE_BUS_NOT_INITIALIZED.toList := by decide
  have hall : ∀ d < 10, HexCodec.digit d ∉ MESSAGE_BUS_NOT_INITIALIZED.toList := by decide
  have hdigits : ∀ c ∈ Decimal.digits z.natAbs, c ∉ MESSAGE_BUS_NOT_INITIALIZED.toList := by
    intro c hc
    obtain ⟨d, hd, rfl⟩ := Decimal.digits_isDigit _ c hc
    exact hall d hd
  rw [Decimal.toText, String.toList_ofList]
  split
  · exact List.forall_mem_cons.mpr ⟨hminus, hdigits⟩
  · exact hdigits

theorem toText_ne_nil (z : ℤ) : (Decimal.toText z).toList ≠ [] := by
  rw [Decimal.toText, String.toList_ofList]
  split
  · exact List.cons_ne_nil _ _
  · exact Decimal.digits_ne_nil _

theorem plain_between {before middle after : String} (hbefore : Plain before) (hafter : Plain after)
    (hne : middle.toList ≠ [])
    (hmiddle : ∀ c ∈ middle.toList, c ∉ MESSAGE_BUS_NOT_INITIALIZED.toList) :
    Plain (before ++ middle ++ after) := by
  rw [plain_iff, String.toList_append, String.toList_append]
  intro h
  exact (Words.infix_between hne hmiddle h).elim (plain_iff.mp hbefore) (plain_iff.mp hafter)

theorem plain_parenthesized {before text : String} (hbefore : Plain before) (htext : Plain text) :
    Plain (before ++ parenthesized text) := by
  have hend : Plain (before ++ "(" ++ text ++ ")" ++ "") :=
    plain_between (plain_between hbefore htext (by decide) (List.forall_mem_singleton.mpr
      (by decide))) (by decide) (by decide) (List.forall_mem_singleton.mpr (by decide))
  rwa [String.append_empty, String.append_assoc, String.append_assoc,
    ← @String.append_assoc "("] at hend

theorem plain_timeoutText {label : String} (h : Plain label) (timeoutMs : ℤ) :
    Plain (timeoutText timeoutMs label) :=
  plain_parenthesized (plain_between (by decide) (by decide) (toText_ne_nil _) (toText_notMem _)) h

theorem plain_abandonedText {label : String} (h : Plain label) : Plain (abandonedText label) :=
  plain_parenthesized (plain_between (by decide) (by decide) (toText_ne_nil _) (toText_notMem _)) h

theorem plain_concat {text : List Char} {c : Char}
    (hc : MESSAGE_BUS_NOT_INITIALIZED.toList.getLast? ≠ some c)
    (h : ¬MESSAGE_BUS_NOT_INITIALIZED.toList <:+: text) :
    ¬MESSAGE_BUS_NOT_INITIALIZED.toList <:+: text ++ [c] := by
  rw [List.infix_concat_iff, not_or]
  refine ⟨fun hsuffix ↦ ?_, h⟩
  obtain hnil | ⟨rest, hrest, -⟩ := List.suffix_concat_iff.mp hsuffix
  · exact h (hnil ▸ List.nil_infix)
  · rw [hrest, List.getLast?_concat] at hc
    exact hc rfl

theorem plain_cons {text : List Char} {c : Char}
    (hc : MESSAGE_BUS_NOT_INITIALIZED.toList.head? ≠ some c)
    (h : ¬MESSAGE_BUS_NOT_INITIALIZED.toList <:+: text) :
    ¬MESSAGE_BUS_NOT_INITIALIZED.toList <:+: c :: text := by
  rw [List.infix_cons_iff, not_or]
  refine ⟨fun hprefix ↦ ?_, h⟩
  obtain hnil | ⟨rest, hrest, -⟩ := List.prefix_cons_iff.mp hprefix
  · exact h (hnil ▸ List.nil_infix)
  · rw [hrest] at hc
    exact hc rfl

theorem plain_labelFor {messageType : Option String} {handlerTag : Tag}
    (htype : ∀ type, messageType = some type → Plain type) (htag : Plain handlerTag) :
    Plain (labelFor messageType handlerTag) := by
  unfold labelFor
  split
  · exact htag
  split
  · exact htag
  · next type _ =>
    have hvia : " via ".toList = [' '] ++ ['v'] ++ ['i', 'a', ' '] := by decide
    have hbefore := plain_concat (c := ' ') (by decide) (plain_iff.mp (htype type rfl))
    have hafter := plain_cons (c := 'i') (by decide) (plain_cons (c := 'a') (by decide)
      (plain_cons (c := ' ') (by decide) (plain_iff.mp htag)))
    rw [plain_iff, String.toList_append, String.toList_append, hvia, ← List.append_assoc,
      ← List.append_assoc, List.append_assoc]
    intro h
    exact (Words.infix_between (by decide) (List.forall_mem_singleton.mpr (by decide)) h).elim
      hbefore hafter
theorem plain_unknownTag {tag : Tag} (h : Plain tag) : Plain ("Unknown handler tag: " ++ tag) := by
  have hcolon : "Unknown handler tag: ".toList =
      "Unknown handler tag".toList ++ [':'] ++ [' '] := by decide
  have hbefore : ¬MESSAGE_BUS_NOT_INITIALIZED.toList <:+: "Unknown handler tag".toList := by decide
  rw [plain_iff, String.toList_append, hcolon, List.append_assoc]
  intro hpart
  exact (Words.infix_between (by decide) (List.forall_mem_singleton.mpr (by decide)) hpart).elim
    hbefore (plain_cons (by decide) (plain_iff.mp h))

/-- An event that tells what became of a message: a handler got it, or it was refused. -/
def decides : Event → Bool
  | .handle _ _ => true
  | .respond _ (.refused _) => true
  | _ => false

/-- Only a message that comes in is handed on or refused. No other response to it says that the bus
is not initialized. -/
def Tells (s : MessageBus.State) (input : MessageBus.Input) : Event → Prop
  | .handle n _ => n = s.arrived ∧ ∃ message, input = .receive message
  | .respond n (.refused _) => n = s.arrived ∧ ∃ message, input = .receive message
  | .respond n .pong => n = s.arrived ∧ ∃ message, input = .receive message ∧ message.tag = "PING"
  | .respond n .initialized => n ∈ s.pendingInits.map (·.1)
  | .respond n (.initFailed _) => n ∈ s.pendingInits.map (·.1)
  | .respond _ response => ∀ message, response.error = some message → Plain message
  | _ => True

def PlainAnswer (answer : Answer) : Prop := ∀ message, answer.message = some message → Plain message

def PlainMessage (message : Message) : Prop :=
  Plain message.tag ∧ ∀ type, message.type = some type → Plain type

structure PlainEntry (e : Entry) : Prop where
  label : Plain e.label
  settled : ∀ answer, e.settled = some answer → PlainAnswer answer
  raced : ∀ answer, e.raced = some answer → PlainAnswer answer

structure Texts (s : MessageBus.State) : Prop where
  entries : ∀ c ∈ s.calls, ∀ e ∈ c.entries, PlainEntry e
  late : ∀ w ∈ s.lateDeliveries, Plain w.label

structure Progress (P : Event → Prop) (s t : MessageBus.State) : Prop where
  log : ∃ events, t.log = events ++ s.log ∧ ∀ e ∈ events, P e
  texts : Texts s → Texts t
  inits : t.pendingInits ⊆ s.pendingInits
  arrived : t.arrived = s.arrived

section Progress

variable {options : Options} {P : Event → Prop} {s t u : MessageBus.State}

theorem Progress.trans (h : Progress P s t) (h' : Progress P t u) : Progress P s u := by
  obtain ⟨events, hlog, hevents⟩ := h.log
  obtain ⟨events', hlog', hevents'⟩ := h'.log
  refine ⟨⟨events' ++ events, ?_, fun e he ↦ ?_⟩, fun hs ↦ h'.texts (h.texts hs),
    List.Subset.trans h'.inits h.inits, h'.arrived.trans h.arrived⟩
  · rw [hlog', hlog, List.append_assoc]
  · exact (List.mem_append.mp he).elim (hevents' e) (hevents e)

theorem progress_emit {event : Event} (h : P event) : Progress P s (s.emit event) where
  log := ⟨[event], rfl, fun _ he ↦ List.mem_singleton.mp he ▸ h⟩
  texts hs := ⟨hs.entries, hs.late⟩
  inits := List.Subset.refl _
  arrived := rfl

theorem progress_emitAll {events : List Event} (h : ∀ e ∈ events, P e) :
    Progress P s (s.emitAll events) where
  log := ⟨events.reverse, rfl, fun e he ↦ h e (List.mem_reverse.mp he)⟩
  texts hs := ⟨hs.entries, hs.late⟩
  inits := List.Subset.refl _
  arrived := rfl

theorem progress_rest (hlog : t.log = s.log) (hcalls : t.calls = s.calls)
    (hlate : t.lateDeliveries = s.lateDeliveries) (hinits : t.pendingInits ⊆ s.pendingInits)
    (harrived : t.arrived = s.arrived) : Progress P s t where
  log := ⟨[], hlog, fun _ he ↦ by cases he⟩
  texts hs := ⟨hcalls ▸ hs.entries, hlate ▸ hs.late⟩
  inits := hinits
  arrived := harrived

theorem progress_doInit (hP : ∀ e, e.number? = none → P e) : Progress P s (s.doInit options) := by
  unfold State.doInit
  split
  · exact progress_rest rfl rfl rfl (List.Subset.refl _) rfl
  split
  · refine Progress.trans (progress_rest (t := { s with
      timer := false, initialized := false, phase := .stopping }) rfl rfl rfl (List.Subset.refl _)
      rfl) (progress_emitAll fun e he ↦ ?_)
    obtain ⟨handler, -, rfl⟩ := List.mem_map.mp he
    exact hP _ rfl
  · exact progress_rest rfl rfl rfl (List.Subset.refl _) rfl

theorem progress_settleInit (hP : ∀ e, e.number? = none → P e) {error : Option String}
    (hinit : ∀ n ∈ s.pendingInits.map (·.1), P (.respond n (error.elim .initialized .initFailed))) :
    Progress P s (s.settleInit options error) := by
  unfold State.settleInit
  split
  · exact progress_rest rfl rfl rfl (List.Subset.refl _) rfl
  · next number messageTimeouts rest hpending =>
    have hnumber : number ∈ s.pendingInits.map (·.1) := by
      rw [hpending]
      exact List.mem_cons_self
    have hrest : Progress P s { s with pendingInits := rest } :=
      progress_rest rfl rfl rfl (hpending ▸ List.subset_cons_self _ _) rfl
    exact (hrest.trans (progress_emit (hinit number hnumber))).trans (progress_doInit hP)

theorem progress_startNext (hP : ∀ e, e.number? = none → P e) {started todo : List Tag}
    (hinit : ∀ n ∈ s.pendingInits.map (·.1), P (.respond n .initialized)) :
    Progress P s (s.startNext options started todo) := by
  unfold State.startNext
  split
  · have hrest : Progress P s { s.scheduleNextTick with initialized := true } :=
      progress_rest rfl rfl rfl (List.Subset.refl _) rfl
    exact hrest.trans (progress_settleInit hP hinit)
  · next updater todo =>
    have hrest : Progress P s { s with phase := .starting started updater todo } :=
      progress_rest rfl rfl rfl (List.Subset.refl _) rfl
    exact hrest.trans (progress_emit (hP _ rfl))

theorem progress_runTick (hP : ∀ e, e.number? = none → P e) : Progress P s (s.runTick options) := by
  unfold State.runTick
  split
  · exact progress_rest rfl rfl rfl (List.Subset.refl _) rfl
  split
  · exact progress_rest rfl rfl rfl (List.Subset.refl _) rfl
  split
  · exact progress_rest rfl rfl rfl (List.Subset.refl _) rfl
  · next updater rest _ =>
    have hrest : Progress P s { s with timer := false, tick := some (updater :: rest) } :=
      progress_rest rfl rfl rfl (List.Subset.refl _) rfl
    exact hrest.trans (progress_emit (hP _ rfl))

theorem progress_ticked (hP : ∀ e, e.number? = none → P e) (round : List Tag) :
    Progress P s (s.ticked round) := by
  unfold State.ticked
  split
  · exact progress_rest rfl rfl rfl (List.Subset.refl _) rfl
  · exact progress_rest rfl rfl rfl (List.Subset.refl _) rfl
  · next updater rest =>
    have hrest : Progress P s { s with tick := some (updater :: rest) } :=
      progress_rest rfl rfl rfl (List.Subset.refl _) rfl
    exact hrest.trans (progress_emit (hP _ rfl))

theorem PlainEntry.error {e : Entry} (h : PlainEntry e) (message : String)
    (herror : e.response.error = some message) : Plain message := by
  unfold Entry.response at herror
  split at herror
  · next text timeout hraced =>
    obtain rfl := Option.some.inj herror
    exact h.raced _ hraced text rfl
  · cases herror

theorem PlainEntry.settle {e : Entry} (h : PlainEntry e) {answer : Answer}
    (hanswer : PlainAnswer answer) : PlainEntry (e.settle answer) := by
  unfold Entry.settle
  split
  · exact h
  · refine ⟨h.label, fun other hother ↦ Option.some.inj hother ▸ hanswer, fun other hother ↦ ?_⟩
    obtain rfl := Option.some.inj hother
    cases hraced : e.raced with
    | none => exact hanswer
    | some first => exact h.raced first hraced

theorem PlainEntry.timeout {e : Entry} (h : PlainEntry e) : PlainEntry e.timeout := by
  unfold Entry.timeout
  split
  · exact h
  · next timeoutMs _ =>
    refine ⟨h.label, h.settled, fun other hother ↦ ?_⟩
    obtain rfl := Option.some.inj hother
    cases hraced : e.raced with
    | none =>
      intro message hmessage
      obtain rfl := Option.some.inj hmessage
      exact plain_timeoutText h.label timeoutMs
    | some first => exact h.raced first hraced

theorem progress_update (number : ℕ) (handler : Tag) {change : Entry → Entry}
    (hchange : ∀ e, PlainEntry e → PlainEntry (change e))
    (hP : ∀ n response, response.handler?.isSome = true →
      (∀ message, response.error = some message → Plain message) → P (.respond n response))
    (hs : Texts s) :
    Progress P s (s.update number handler change) := by
  unfold State.update
  split
  · exact progress_rest rfl rfl rfl (List.Subset.refl _) rfl
  next c hfind =>
  have hentries : ∀ e ∈ c.entries.map (fun e ↦ if e.handler = handler then change e else e),
      PlainEntry e := by
    intro e he
    obtain ⟨e', he', rfl⟩ := List.mem_map.mp he
    have hplain := hs.entries c (List.mem_of_find?_eq_some hfind) e' he'
    split
    · exact hchange e' hplain
    · exact hplain
  generalize hc : ({ c with entries := c.entries.map fun e ↦
    if e.handler = handler then change e else e } : Call) = c'
  have hplain : ∀ e ∈ c'.entries, PlainEntry e := hc ▸ hentries
  have hothers : ∀ c ∈ s.calls.filter (·.number ≠ number), ∀ e ∈ c.entries, PlainEntry e :=
    fun other hother ↦ hs.entries other (List.mem_filter.mp hother).1
  dsimp only
  split
  · refine ⟨⟨_, rfl, fun e he ↦ ?_⟩, fun _ ↦ ⟨hothers, fun w hw ↦ ?_⟩, List.Subset.refl _, rfl⟩
    · obtain he | he := List.mem_append.mp (List.mem_reverse.mp he)
      · obtain ⟨entry, hentry, rfl⟩ := List.mem_map.mp he
        refine hP _ _ ?_ (hplain entry hentry).error
        rw [entry.handler?_response]
        rfl
      · obtain ⟨entry, hentry, rfl⟩ := List.mem_map.mp he
        refine hP _ _ rfl fun message hmessage ↦ ?_
        obtain ⟨answer, hsettled, hanswer⟩ := Option.bind_eq_some_iff.mp hmessage
        exact (hplain entry (List.mem_filter.mp hentry).1).settled answer hsettled message hanswer
    · obtain hw | hw := List.mem_append.mp hw
      · exact hs.late w hw
      · obtain ⟨entry, hentry, rfl⟩ := List.mem_map.mp hw
        exact (hplain entry (List.mem_filter.mp hentry).1).label
  · refine ⟨⟨[], rfl, fun _ he ↦ by cases he⟩, fun _ ↦ ⟨fun other hother ↦ ?_, hs.late⟩,
      List.Subset.refl _, rfl⟩
    obtain hother | hother := List.mem_append.mp hother
    · exact hothers other hother
    · exact List.mem_singleton.mp hother ▸ hplain

theorem progress_deliverLate (number : ℕ) (handler : Tag) {message : LateDelivery → Option String}
    (hmessage : ∀ w, Plain w.label → ∀ text, message w = some text → Plain text)
    (hP : ∀ n response, response.handler?.isSome = true →
      (∀ message, response.error = some message → Plain message) → P (.respond n response))
    (hs : Texts s) : Progress P s (s.deliverLate number handler message) := by
  unfold State.deliverLate
  split
  · exact progress_rest rfl rfl rfl (List.Subset.refl _) rfl
  · next w hfind =>
    have hw := hs.late w (List.mem_of_find?_eq_some hfind)
    refine ⟨⟨[_], rfl, fun e he ↦ ?_⟩, fun _ ↦ ⟨hs.entries, fun w' hw' ↦ ?_⟩,
      List.Subset.refl _, rfl⟩
    · obtain rfl := List.mem_singleton.mp he
      exact hP _ _ rfl fun text htext ↦ hmessage w hw text htext
    · exact hs.late w' (List.mem_filter.mp hw').1

/-- What the answers of the handlers say. -/
def PlainInput : MessageBus.Input → Prop
  | .settled _ _ answer => PlainAnswer answer
  | _ => True

theorem tells_silent {input : MessageBus.Input} (e : Event) (h : e.number? = none) :
    Tells s input e := by
  cases e with
  | handle number handler => cases h
  | respond number response => cases h
  | _ => trivial

theorem tells_handler {input : MessageBus.Input} (n : ℕ) (response : Response)
    (hhandler : response.handler?.isSome = true)
    (hplain : ∀ message, response.error = some message → Plain message) :
    Tells s input (.respond n response) := by
  cases response with
  | answer handler => exact hplain
  | failure handler message timedOut => exact hplain
  | late handler message => exact hplain
  | _ => cases hhandler

theorem progress_step {input : MessageBus.Input} (hstep : MessageBus.step options s input = some t)
    (hinput : PlainInput input) (hreceive : ∀ message, input ≠ .receive message) (hs : Texts s) :
    Progress (Tells s input) s t := by
  have hrest : ∀ {t : MessageBus.State}, t.log = s.log → t.calls = s.calls →
      t.lateDeliveries = s.lateDeliveries → t.pendingInits = s.pendingInits →
      t.arrived = s.arrived → Progress (Tells s input) s t :=
    fun hlog hcalls hlate hinits ↦ progress_rest hlog hcalls hlate (hinits ▸ List.Subset.refl _)
  cases input with
  | receive message => exact absurd rfl (hreceive message)
  | stopped =>
    simp only [MessageBus.step] at hstep
    split at hstep <;> cases hstep
    exact hrest rfl rfl rfl rfl rfl
  | built error =>
    simp only [MessageBus.step] at hstep
    split at hstep
    · split at hstep <;> cases hstep
      · exact progress_startNext tells_silent fun n hn ↦ hn
      · exact progress_settleInit tells_silent fun n hn ↦ hn
    · cases hstep
  | started error =>
    simp only [MessageBus.step] at hstep
    split at hstep
    · next started updater todo _ =>
      split at hstep <;> cases hstep
      · exact (progress_emit (tells_silent _ rfl)).trans
          (progress_startNext tells_silent fun n hn ↦ hn)
      · next message =>
        have hunwinding : Progress (Tells s (.started (some message))) s
            { s with phase := .unwinding message } := hrest rfl rfl rfl rfl rfl
        refine hunwinding.trans (progress_emitAll fun e he ↦ ?_)
        obtain ⟨other, -, rfl⟩ := List.mem_map.mp he
        exact tells_silent _ rfl
    · cases hstep
  | unwound =>
    simp only [MessageBus.step] at hstep
    split at hstep <;> cases hstep
    exact progress_settleInit tells_silent fun n hn ↦ hn
  | settled number handler answer =>
    cases hstep
    have hupdate := progress_update (P := Tells s (.settled number handler answer)) number handler
      (fun e he ↦ he.settle hinput) tells_handler hs
    exact hupdate.trans (progress_deliverLate number handler (fun _ _ ↦ hinput) tells_handler
      (hupdate.texts hs))
  | timeout number handler =>
    cases hstep
    exact progress_update number handler (fun e he ↦ he.timeout) tells_handler hs
  | abandoned number handler =>
    cases hstep
    refine progress_deliverLate number handler (fun w hw text htext ↦ ?_) tells_handler hs
    obtain rfl := Option.some.inj htext
    exact plain_abandonedText hw
  | timerFires =>
    simp only [MessageBus.step] at hstep
    split at hstep <;> cases hstep
    exact progress_runTick tells_silent
  | activated =>
    simp only [MessageBus.step] at hstep
    split at hstep <;> cases hstep
    · exact progress_runTick tells_silent
    · exact hrest rfl rfl rfl rfl rfl
  | ticked =>
    simp only [MessageBus.step] at hstep
    split at hstep <;> cases hstep
    exact progress_ticked tells_silent _

/-- The bus takes in a message. A message that is not broadcast is handed on or refused once. -/
structure Taken (message : Message) (s t : MessageBus.State) : Prop where
  log : ∃ events, t.log = events ++ s.log ∧ (∀ e ∈ events, Tells s (.receive message) e) ∧
    (message.broadcast = false → events.countP decides ≤ 1)
  texts : Texts s → Texts t
  inits : ∀ p ∈ t.pendingInits, p ∈ s.pendingInits ∨
    p.1 = s.arrived ∧ message.tag = "INITIALIZE_MESSAGE_BUS"
  arrived : t.arrived = s.arrived + 1

theorem taken_emit {message : Message} {response : Response}
    (h : Tells s (.receive message) (.respond s.arrived response)) :
    Taken message s
      (State.emit { s with arrived := s.arrived + 1 } (.respond s.arrived response)) where
  log := ⟨[.respond s.arrived response], rfl, fun _ he ↦ List.mem_singleton.mp he ▸ h,
    fun _ ↦ List.countP_le_length⟩
  texts hs := ⟨hs.entries, hs.late⟩
  inits _ hp := .inl hp
  arrived := rfl

theorem taken_callHandlers {message : Message} {updaters : List Tag}
    (hone : message.broadcast = false → updaters.length ≤ 1) (hmessage : PlainMessage message)
    (hupdaters : ∀ updater ∈ updaters, Plain updater) :
    Taken message s ({ s with arrived := s.arrived + 1 }.callHandlers options s.arrived message
      updaters) where
  log := by
    refine ⟨_, rfl, fun e he ↦ ?_, fun hbroadcast ↦ ?_⟩
    · obtain ⟨updater, -, rfl⟩ := List.mem_map.mp (List.mem_reverse.mp he)
      exact ⟨rfl, message, rfl⟩
    · refine List.countP_le_length.trans ?_
      rw [List.length_reverse, List.length_map]
      exact hone hbroadcast
  texts hs := by
    refine ⟨fun c hc e he ↦ ?_, hs.late⟩
    obtain hc | hc := List.mem_append.mp hc
    · exact hs.entries c hc e he
    · obtain rfl := List.mem_singleton.mp hc
      obtain ⟨updater, hupdater, rfl⟩ := List.mem_map.mp he
      exact ⟨plain_labelFor hmessage.2 (hupdaters updater hupdater), fun _ h ↦ (by cases h),
        fun _ h ↦ (by cases h)⟩
  inits _ hp := .inl hp
  arrived := rfl

theorem taken_processMessage {message : Message} (hmessage : PlainMessage message)
    (hhandlers : ∀ handler ∈ options.handlers, Plain handler) :
    Taken message s (s.processMessage options message) := by
  unfold State.processMessage
  dsimp only
  split
  · next htag => exact taken_emit ⟨rfl, message, rfl, htag⟩
  split
  · next htag =>
    have hqueue : Taken message s { s with
        arrived := s.arrived + 1
        pendingInits := s.pendingInits ++ [(s.arrived, message.messageTimeouts)] } := by
      refine ⟨⟨[], rfl, fun _ he ↦ (by cases he), fun _ ↦ Nat.zero_le _⟩,
        fun hs ↦ ⟨hs.entries, hs.late⟩, fun p hp ↦ ?_, rfl⟩
      obtain hp | hp := List.mem_append.mp hp
      · exact .inl hp
      · obtain rfl := List.mem_singleton.mp hp
        exact .inr ⟨rfl, htag⟩
    split
    · have hinit := @progress_doInit options
        (fun e ↦ Tells s (.receive message) e ∧ decides e = false) { s with
          arrived := s.arrived + 1
          pendingInits := s.pendingInits ++ [(s.arrived, message.messageTimeouts)] } ?_
      · obtain ⟨events, hlog, hevents⟩ := hinit.log
        refine ⟨⟨events, hlog, fun e he ↦ (hevents e he).1, fun _ ↦ ?_⟩,
          fun hs ↦ hinit.texts (hqueue.texts hs), fun p hp ↦ hqueue.inits p (hinit.inits hp),
          hinit.arrived⟩
        rw [List.countP_eq_zero.mpr fun e he ↦ by simp [(hevents e he).2]]
        exact Nat.zero_le _
      · intro e he
        refine ⟨tells_silent e he, ?_⟩
        cases e with
        | handle number handler => cases he
        | respond number response => cases he
        | _ => rfl
    · exact hqueue
  split
  · exact taken_emit ⟨rfl, message, rfl⟩
  split
  · exact taken_emit (by rintro _ ⟨⟩; decide)
  split
  · next hbroadcast =>
    exact taken_callHandlers (fun hnot ↦ by simp [hnot] at hbroadcast) hmessage hhandlers
  split
  · next hmem =>
    exact taken_callHandlers (fun _ ↦ Nat.le_refl _) hmessage fun updater hupdater ↦
      List.mem_singleton.mp hupdater ▸ hmessage.1
  · refine taken_emit fun text htext ↦ ?_
    obtain rfl := Option.some.inj htext
    exact plain_unknownTag hmessage.1

end Progress

def MAX_INIT_WAITS : ℕ := 8

def maxRetries : ℕ := 2

def DEDUPABLE_REQUEST_TYPES : List String :=
  ["GET_ADDRESS", "GET_BALANCE", "GET_BOARDING_ADDRESS", "GET_BOARDING_UTXOS", "GET_STATUS",
    "GET_TRANSACTION_HISTORY", "IS_CONTRACT_MANAGER_WATCHING", "GET_DELEGATE_INFO",
    "GET_RECOVERABLE_BALANCE", "GET_EXPIRED_BOARDING_UTXOS", "GET_DEPRECATED_SIGNER_STATUS",
    "GET_VTXOS", "GET_SPENDABLE_VTXOS", "GET_CONTRACTS", "GET_CONTRACTS_WITH_VTXOS",
    "ANNOTATE_VTXOS", "GET_SPENDABLE_PATHS", "GET_ALL_SPENDING_PATHS", "GET_ASSET_DETAILS",
    "GET_EXPIRING_VTXOS", "RELOAD_WALLET"]

/-- `rest` is the text of all that the request holds besides its id and tag. With `events` it takes
several responses. -/
structure WalletUpdaterRequest where
  id : String
  type : String
  rest : String
  events : Bool

def getRequestDedupKey (request : WalletUpdaterRequest) : Option String :=
  if !request.events && decide (request.type ∈ DEDUPABLE_REQUEST_TYPES) then some request.rest
  else none

/-- Where a call of `sendMessageWithRetry` is. -/
inductive Phase
  | pinging
  | reinitializing (attempt initWaits : ℕ)
  | waiting (attempt initWaits : ℕ)
  | sleeping (attempt initWaits : ℕ)
  | resolved
  | rejected (message : String)
  deriving DecidableEq

def Phase.settled : Phase → Bool
  | .resolved => true
  | .rejected _ => true
  | _ => false

structure Reply where
  id : String
  error : Option String

structure Sending where
  request : WalletUpdaterRequest
  phase : Phase
  sends : ℕ

def Sending.dedupKey (c : Sending) : Option String := getRequestDedupKey c.request

/-- What the loop does about an error. -/
def afterError (message : String) (attempt initWaits : ℕ) : Phase :=
  if isMessageBusInitializingError message then
    if MAX_INIT_WAITS ≤ initWaits then .rejected message else .sleeping attempt (initWaits + 1)
  else if !isMessageBusNotInitializedError message ∨ maxRetries ≤ attempt then .rejected message
  else .reinitializing (attempt + 1) initWaits

namespace Sending

variable (c : Sending)

/-- `sendMessageDirect`, and `sendMessageStreaming` for a request with events. -/
def onResponse (error : Option String) (complete : Bool) : Sending :=
  match c.phase, error with
  | .waiting attempt initWaits, some message =>
    { c with phase := afterError message attempt initWaits }
  | .waiting _ _, none =>
    if c.request.events && !complete then c else { c with phase := .resolved }
  | _, _ => c

/-- The message is for the call that has its id. -/
def onReply (reply : Reply) (complete : Bool) : Sending :=
  if c.request.id = reply.id then c.onResponse reply.error complete else c

def onTimeout (id : String) : Sending :=
  match c.phase with
  | .waiting _ _ =>
    if c.request.events || c.request.id != id then c
    else
      let message := "Service worker message timed out " ++ parenthesized c.request.type
      { c with phase := .rejected message }
  | _ => c

def onPingFailed : Sending :=
  match c.phase with
  | .pinging => { c with phase := .reinitializing 0 0 }
  | _ => c

def onReinitFailed (message : String) : Sending :=
  match c.phase with
  | .reinitializing _ _ => { c with phase := .rejected message }
  | _ => c

def isReinitializing : Bool :=
  match c.phase with
  | .reinitializing _ _ => true
  | _ => false

/-- The call goes on with the attempt and the waits so far, if any are given for it. -/
def resume (next : Sending → Option (ℕ × ℕ)) : Sending :=
  match next c with
  | some (attempt, initWaits) =>
    { c with phase := .waiting attempt initWaits, sends := c.sends + 1 }
  | none => c

def whenPinged : Option (ℕ × ℕ) :=
  match c.phase with
  | .pinging => some (0, 0)
  | _ => none

def whenReinitialized : Option (ℕ × ℕ) :=
  match c.phase with
  | .reinitializing attempt initWaits => some (attempt, initWaits)
  | _ => none

def whenAwake (id : String) : Option (ℕ × ℕ) :=
  match c.phase with
  | .sleeping attempt initWaits => if c.request.id = id then some (attempt, initWaits) else none
  | _ => none

end Sending

/-- The options of the worker and of the wallet on the page. The tag of the wallet's messages is
none of the bus's own, and no tag says that the bus is not initialized. -/
structure Setting where
  options : Options
  messageTag : Tag
  messageTimeouts : Timeouts
  ordinary : messageTag ≠ "PING" ∧ messageTag ≠ "INITIALIZE_MESSAGE_BUS"
  plain : Plain messageTag ∧ ∀ handler ∈ options.handlers, Plain handler

def Setting.message (setting : Setting) (id type : String) : Message :=
  ⟨id, setting.messageTag, some type, false, []⟩

/-- The messages of `reinitialize`. -/
inductive Reinit
  | bus
  | wallet
  | status

/-- A page, the worker as it lives now with the messages it received, and what is between them. Of
all its lives, `handed` are the ids of the messages that its handlers got. -/
structure Session where
  initConfig : Bool
  calls : List Sending
  ping : Option String
  reinit : Option (Reinit × String)
  toWorker : List Message
  bus : MessageBus.State
  received : List Message
  toPage : List Reply
  handed : List (String × Tag)

/-- Ids are fresh where they are called so. With `mismatch` the worker has another identity. -/
inductive Move
  | created
  | call (request : WalletUpdaterRequest) (freshId : String)
  | deliver (complete : Bool) (mismatch : Option String) (freshId : String)
  | timeout (id : String)
  | pingTimeout (freshId : String)
  | reinitTimeout (message : String)
  | wake (id : String)
  | other (message : Message)
  | receive
  | work (input : MessageBus.Input)
  | event (number : ℕ) (handler : Tag)
  | killed
  | lost

def opening (setting : Setting) : Session where
  initConfig := false
  calls := []
  ping := none
  reinit := none
  toWorker := []
  bus := MessageBus.start setting.options
  received := []
  toPage := []
  handed := []

namespace Session

variable (setting : Setting) (w : Session)

def post (message : Message) : Session := { w with toWorker := w.toWorker ++ [message] }

def send (next : Sending → Option (ℕ × ℕ)) : Session := { w with
  calls := w.calls.map (·.resume next)
  toWorker := w.toWorker ++ (w.calls.filter fun c ↦ (next c).isSome).map fun c ↦
    setting.message c.request.id c.request.type }

def failReinit (message : String) : Session := { w with
  reinit := none
  calls := w.calls.map (·.onReinitFailed message) }

/-- `reinitialize`. -/
def reinitializeWorker (freshId : String) : Session :=
  if w.reinit.isSome then w
  else if w.initConfig then { w with reinit := some (.bus, freshId) }.post
    ⟨freshId, "INITIALIZE_MESSAGE_BUS", none, false, setting.messageTimeouts⟩
  else w.failReinit "Cannot re-initialize: wallet was not initialized via the SDK factory"

def onReinitReply (stage : Reinit) (error mismatch : Option String) (freshId : String) : Session :=
  match error, stage with
  | some message, _ => w.failReinit message
  | none, .bus => { w with reinit := some (.wallet, freshId) }.post
    (setting.message freshId "INIT_WALLET")
  | none, .wallet => { w with reinit := some (.status, freshId) }.post
    (setting.message freshId "GET_STATUS")
  | none, .status => match mismatch with
    | some message => w.failReinit message
    | none => { w with reinit := none }.send setting Sending.whenReinitialized

def onCallReply (reply : Reply) (complete : Bool) (freshId : String) : Session :=
  let w : Session := { w with calls := w.calls.map (·.onReply reply complete) }
  if w.calls.any Sending.isReinitializing then w.reinitializeWorker setting freshId else w

def onMessage (reply : Reply) (complete : Bool) (mismatch : Option String) (freshId : String) :
    Session :=
  if w.ping = some reply.id then { w with ping := none }.send setting Sending.whenPinged
  else match w.reinit with
    | some (stage, id) =>
      if id = reply.id then w.onReinitReply setting stage reply.error mismatch freshId
      else w.onCallReply setting reply complete freshId
    | none => w.onCallReply setting reply complete freshId

/-- `sendMessage`: a call like one in flight joins it. -/
def call (request : WalletUpdaterRequest) (freshId : String) : Session :=
  if w.calls.any fun c ↦ !c.phase.settled && (getRequestDedupKey request).isSome &&
    c.dedupKey = getRequestDedupKey request then w
  else if w.initConfig then
    let w : Session := { w with calls := w.calls ++ [⟨request, .pinging, 0⟩] }
    if w.ping.isSome then w
    else { w with ping := some freshId }.post ⟨freshId, "PING", none, false, []⟩
  else
    let w : Session := { w with calls := w.calls ++ [⟨request, .waiting 0 0, 1⟩] }
    w.post (setting.message request.id request.type)

def reply : Event → Option Reply
  | .respond number response => w.received[number]?.map fun message ↦ ⟨message.id, response.error⟩
  | _ => none

def handing : Event → Option (String × Tag)
  | .handle number handler => w.received[number]?.map fun message ↦ (message.id, handler)
  | _ => none

def progress (bus : MessageBus.State) : Session :=
  let events := bus.log.take (bus.log.length - w.bus.log.length)
  { w with
    bus := bus
    toPage := w.toPage ++ events.reverse.filterMap w.reply
    handed := events.filterMap w.handing ++ w.handed }

end Session

def move (setting : Setting) (w : Session) : Move → Option Session
  | .created => some { w with initConfig := true }
  | .call request freshId => some (w.call setting request freshId)
  | .deliver complete mismatch freshId => match w.toPage with
    | [] => none
    | reply :: rest =>
      some ({ w with toPage := rest }.onMessage setting reply complete mismatch freshId)
  | .timeout id => some { w with calls := w.calls.map (·.onTimeout id) }
  | .pingTimeout freshId =>
    if w.ping.isSome then some ({ w with
      ping := none
      calls := w.calls.map Sending.onPingFailed }.reinitializeWorker setting freshId)
    else none
  | .reinitTimeout message => if w.reinit.isSome then some (w.failReinit message) else none
  | .wake id => some (w.send setting (·.whenAwake id))
  | .other message => some (w.post message)
  | .receive => match w.toWorker with
    | [] => none
    | message :: rest =>
      some ({ w with toWorker := rest, received := w.received ++ [message] }.progress
        (w.bus.processMessage setting.options message))
  | .work input => match input with
    | .receive _ => none
    | _ => (MessageBus.step setting.options w.bus input).map w.progress
  | .event number handler =>
    if .handle number handler ∈ w.bus.log then some { w with
      toPage := w.toPage ++ (w.received[number]?.map fun message ↦ ⟨message.id, none⟩).toList }
    else none
  | .killed => some { w with bus := MessageBus.start setting.options, received := [] }
  | .lost => some { w with toWorker := w.toWorker.tail }

namespace Session

variable (w : Session)

def ids : List String := w.calls.map (·.request.id)

end Session

/-- The request is to be sent again, or the call failed since the bus was not initialized. -/
def Sending.unsent (c : Sending) : Bool :=
  match c.phase with
  | .waiting _ _ => false
  | .resolved => false
  | .rejected message => isMessageBusNotInitializedError message
  | _ => true

structure Unused (w : Session) (id : String) : Prop where
  ids : id ∉ w.ids
  messages : ∀ message ∈ w.toWorker ++ w.received, message.id ≠ id
  replies : ∀ reply ∈ w.toPage, reply.id ≠ id
  handed : ∀ p ∈ w.handed, p.1 ≠ id

/-- Ids that are called fresh are not in use, other messages have other ids and tags and types that
do not say that the bus is not initialized, as the errors of the handlers do not. -/
def Undisturbed (w : Session) : Move → Prop
  | .call request freshId => Unused w request.id ∧ Plain request.type ∧ freshId ∉ w.ids ∧
    request.id ≠ freshId
  | .deliver _ _ freshId => freshId ∉ w.ids
  | .pingTimeout freshId => freshId ∉ w.ids
  | .other message => message.id ∉ w.ids ∧ PlainMessage message
  | .work input => PlainInput input
  | _ => True

/-- A handler gets a request at most once, however often it is sent. It got what a call resolves
for, and nothing of a call that is to be sent again or failed since the bus was not initialized. -/
structure HandledOnce (w : Session) : Prop where
  once : ∀ c ∈ w.calls, w.handed.countP (·.1 = c.request.id) ≤ 1
  resolved : ∀ c ∈ w.calls, c.phase = .resolved → ∃ handler, (c.request.id, handler) ∈ w.handed
  unsent : ∀ c ∈ w.calls, c.unsent = true → ∀ handler, (c.request.id, handler) ∉ w.handed
  sends : ∀ c ∈ w.calls, c.sends ≤ maxRetries + MAX_INIT_WAITS + 1
  deduped : ((w.calls.filter (!·.phase.settled)).filterMap Sending.dedupKey).Nodup

def Reply.refuses (id : String) (reply : Reply) : Bool :=
  reply.id = id && reply.error.any isMessageBusNotInitializedError

def Sending.holds (id : String) (c : Sending) : Bool := c.request.id = id && c.unsent

/-- What may still become, or became, of a request: one token that is sent, refused, held by the
call or spent at a handler. -/
def Session.tokens (w : Session) (id : String) : ℕ :=
  w.toWorker.countP (·.id = id) + w.toPage.countP (Reply.refuses id) +
    w.handed.countP (·.1 = id) + w.calls.countP (Sending.holds id)

section Tokens

variable {setting : Setting} {w : Session} {id : String}

theorem tokens_send {next : Sending → Option (ℕ × ℕ)}
    (hnext : ∀ c, (next c).isSome = true → c.unsent = true) :
    (w.send setting next).tokens id = w.tokens id := by
  have hcalls : ∀ calls : List Sending,
      ((calls.filter fun c ↦ (next c).isSome).map fun c ↦
        setting.message c.request.id c.request.type).countP (·.id = id) +
      (calls.map (·.resume next)).countP (Sending.holds id) = calls.countP (Sending.holds id) := by
    intro calls
    induction calls with
    | nil => rfl
    | cons c calls ih =>
      rw [List.map_cons, List.countP_cons, List.countP_cons, ← ih]
      cases hc : next c with
      | none =>
        have hresume : c.resume next = c := by rw [Sending.resume, hc]
        rw [List.filter_cons_of_neg (by simp [hc]), hresume]
        omega
      | some pair =>
        have hholds : c.holds id = decide (c.request.id = id) := by
          rw [Sending.holds, hnext c (by rw [hc]; rfl), Bool.and_true]
        have hresume : (c.resume next).holds id = false := by
          rw [Sending.resume, hc]
          exact Bool.and_false _
        rw [List.filter_cons_of_pos (by rw [hc]; rfl), List.map_cons, List.countP_cons, hholds,
          hresume, if_neg Bool.false_ne_true]
        change _ + (if decide (c.request.id = id) = true then 1 else 0) + _ = _
        omega
  have hcount := hcalls w.calls
  simp only [Session.tokens, Session.send, List.countP_append]
  omega

theorem tokens_post {message : Message} (h : message.id ≠ id) :
    (w.post message).tokens id = w.tokens id := by
  simp [Session.tokens, Session.post, List.countP_append, h]

theorem countP_map_le {calls : List Sending} {f : Sending → Sending}
    (h : ∀ c ∈ calls, (f c).holds id = true → c.holds id = true) :
    (calls.map f).countP (Sending.holds id) ≤ calls.countP (Sending.holds id) := by
  rw [List.countP_map]
  exact List.countP_mono_left h

theorem holds_onReinitFailed {c : Sending} {message : String}
    (h : (c.onReinitFailed message).holds id = true) : c.holds id = true := by
  unfold Sending.onReinitFailed at h
  split at h
  · next attempt initWaits hphase =>
    obtain ⟨hid, -⟩ := (Bool.and_eq_true _ _).mp h
    exact (Bool.and_eq_true _ _).mpr ⟨hid, by simp [Sending.unsent, hphase]⟩
  · exact h

theorem tokens_failReinit (message : String) :
    (w.failReinit message).tokens id ≤ w.tokens id := by
  have hcalls := @countP_map_le id w.calls _ fun c _ hc ↦ @holds_onReinitFailed id c message hc
  simp only [Session.tokens, Session.failReinit]
  omega

theorem afterError_plain {message : String} (h : isMessageBusNotInitializedError message = false)
    (attempt initWaits : ℕ) : afterError message attempt initWaits = .rejected message := by
  have hnot : ¬isMessageBusInitializingError message = true := by
    intro hinit
    rw [not_initialized_of_initializing hinit] at h
    cases h
  rw [afterError, if_neg hnot, if_pos (.inl (by rw [h]; rfl))]

theorem Sending.request_onResponse (c : Sending) (error : Option String) (complete : Bool) :
    (c.onResponse error complete).request = c.request := by
  unfold onResponse
  split
  · rfl
  · split <;> rfl
  · rfl

theorem Sending.request_onReply (c : Sending) (reply : Reply) (complete : Bool) :
    (c.onReply reply complete).request = c.request := by
  unfold onReply
  split
  · exact c.request_onResponse _ _
  · rfl

theorem holds_onResponse {c : Sending} {error : Option String} {complete : Bool}
    (herror : error.any isMessageBusNotInitializedError = false)
    (h : (c.onResponse error complete).holds id = true) : c.holds id = true := by
  unfold Sending.onResponse at h
  split at h
  · next attempt initWaits message hphase =>
    rw [afterError_plain herror] at h
    have hunsent := ((Bool.and_eq_true _ _).mp h).2
    exact absurd hunsent (Bool.not_eq_true _ ▸ herror)
  · split at h
    · exact h
    · cases ((Bool.and_eq_true _ _).mp h).2
  · exact h

theorem id_of_holds {c : Sending} (h : c.holds id = true) : c.request.id = id :=
  of_decide_eq_true ((Bool.and_eq_true _ _).mp h).1

theorem holds_onReply {c : Sending} {reply : Reply} {complete : Bool}
    (hreply : reply.refuses id = false) (h : (c.onReply reply complete).holds id = true) :
    c.holds id = true := by
  have hid := id_of_holds h
  rw [Sending.request_onReply] at hid
  unfold Sending.onReply at h
  split at h
  · next hsame =>
    refine holds_onResponse ?_ h
    rw [Reply.refuses, ← hsame, hid, decide_eq_true rfl, Bool.true_and] at hreply
    exact hreply
  · exact h

theorem tokens_onReply {reply : Reply} {rest : List Reply} (hpage : w.toPage = reply :: rest)
    (hnodup : w.ids.Nodup) (complete : Bool) :
    Session.tokens { w with
      toPage := rest, calls := w.calls.map (·.onReply reply complete) } id ≤ w.tokens id := by
  have hcount : rest.countP (Reply.refuses id) +
      (w.calls.map (·.onReply reply complete)).countP (Sending.holds id) ≤
      (reply :: rest).countP (Reply.refuses id) + w.calls.countP (Sending.holds id) := by
    rw [List.countP_cons]
    cases hrefuses : reply.refuses id with
    | true =>
      have hone : (w.calls.map (·.onReply reply complete)).countP (Sending.holds id) ≤ 1 := by
        have hids := List.nodup_iff_count_le_one.mp hnodup id
        rw [Session.ids, List.count, List.countP_map] at hids
        rw [List.countP_map]
        refine le_trans (List.countP_mono_left fun c _ hc ↦ beq_iff_eq.mpr ?_) hids
        exact c.request_onReply reply complete ▸ id_of_holds hc
      rw [if_pos rfl]
      omega
    | false =>
      rw [if_neg Bool.false_ne_true]
      exact Nat.add_le_add_left (countP_map_le fun c _ hc ↦ holds_onReply hrefuses hc) _
  simp only [Session.tokens, hpage]
  omega

theorem countP_add_le {events : List Event} {p q r : Event → Bool}
    (h : ∀ e ∈ events, (p e = true → r e = true ∧ q e = false) ∧ (q e = true → r e = true)) :
    events.countP p + events.countP q ≤ events.countP r := by
  induction events with
  | nil => exact Nat.le_refl _
  | cons e events ih =>
    obtain ⟨⟨hp, hq⟩, hrest⟩ := List.forall_mem_cons.mp h
    have hrest := ih hrest
    rw [List.countP_cons, List.countP_cons, List.countP_cons]
    cases hpe : p e with
    | true =>
      obtain ⟨hr, hqe⟩ := hp hpe
      simp only [hr, hqe, if_true, Bool.false_eq_true, if_false]
      omega
    | false =>
      cases hqe : q e with
      | true =>
        simp only [hq hqe, if_true, Bool.false_eq_true, if_false]
        omega
      | false =>
        simp only [Bool.false_eq_true, if_false]
        omega

theorem countP_progress {events : List Event} {p : Event → Bool}
    (hreply : ∀ e ∈ events, (w.reply e).any (Reply.refuses id) = true → p e = true)
    (hhanding : ∀ e ∈ events, (w.handing e).any (·.1 = id) = true → p e = true) :
    (events.reverse.filterMap w.reply).countP (Reply.refuses id) +
      (events.filterMap w.handing).countP (·.1 = id) ≤ events.countP p := by
  rw [List.filterMap_reverse, List.countP_reverse, List.countP_filterMap, List.countP_filterMap]
  refine countP_add_le fun e he ↦ ⟨fun h ↦ ⟨hreply e he ?_, ?_⟩, fun h ↦ hhanding e he ?_⟩
  · cases hr : w.reply e with
    | none => simp [hr] at h
    | some reply => simpa [hr] using h
  · cases e with
    | respond number response => rfl
    | _ => cases h
  · cases hh : w.handing e with
    | none => simp [hh] at h
    | some pair => simpa [hh] using h

end Tokens

/-- What has been sent so far. -/
def Sending.Bounded (c : Sending) : Prop :=
  match c.phase with
  | .pinging => c.sends = 0
  | .reinitializing attempt initWaits =>
    c.sends = attempt + initWaits ∧ attempt ≤ maxRetries ∧ initWaits ≤ MAX_INIT_WAITS
  | .waiting attempt initWaits =>
    c.sends = attempt + initWaits + 1 ∧ attempt ≤ maxRetries ∧ initWaits ≤ MAX_INIT_WAITS
  | .sleeping attempt initWaits =>
    c.sends = attempt + initWaits ∧ attempt ≤ maxRetries ∧ initWaits ≤ MAX_INIT_WAITS
  | _ => c.sends ≤ maxRetries + MAX_INIT_WAITS + 1

/-- Calls in flight are unlike each other. -/
def Deduped (calls : List Sending) : Prop :=
  ((calls.filter (!·.phase.settled)).filterMap Sending.dedupKey).Nodup

structure Inv (setting : Setting) (w : Session) : Prop where
  bus : MessageBus.Inv setting.options w.bus
  texts : Texts w.bus
  arrived : w.bus.arrived = w.received.length
  inits : ∀ p ∈ w.bus.pendingInits, ∃ message, w.received[p.1]? = some message ∧
    message.tag = "INITIALIZE_MESSAGE_BUS"
  handed : ∀ n handler, .handle n handler ∈ w.bus.log → ∀ message, w.received[n]? = some message →
    (message.id, handler) ∈ w.handed
  plain : ∀ message ∈ w.toWorker, PlainMessage message
  mine : ∀ message ∈ w.toWorker ++ w.received, message.id ∈ w.ids →
    message.broadcast = false ∧ message.tag = setting.messageTag
  answered : ∀ reply ∈ w.toPage, reply.error = none → reply.id ∈ w.ids →
    ∃ handler, (reply.id, handler) ∈ w.handed
  nodup : w.ids.Nodup
  types : ∀ c ∈ w.calls, Plain c.request.type
  bounded : ∀ c ∈ w.calls, c.Bounded
  resolved : ∀ c ∈ w.calls, c.phase = .resolved → ∃ handler, (c.request.id, handler) ∈ w.handed
  deduped : Deduped w.calls
  once : ∀ id ∈ w.ids, w.tokens id ≤ 1

section Page

variable {setting : Setting} {w w' : Session}

/-- What the page does to its calls. -/
structure Keeps (w : Session) (f : Sending → Sending) : Prop where
  request : ∀ c, (f c).request = c.request
  bounded : ∀ c, c.Bounded → (f c).Bounded
  resolved : ∀ c ∈ w.calls, (f c).phase = .resolved → c.phase = .resolved ∨
    ∃ handler, (c.request.id, handler) ∈ w.handed
  settled : ∀ c, c.phase.settled = true → (f c).phase.settled = true

theorem ids_map {f : Sending → Sending} (h : ∀ c, (f c).request = c.request) :
    (w.calls.map f).map (·.request.id) = w.ids := by
  rw [List.map_map]
  exact List.map_congr_left fun c _ ↦ congrArg WalletUpdaterRequest.id (h c)

theorem unsettled_sublist {f : Sending → Sending} (hrequest : ∀ c, (f c).request = c.request)
    (hsettled : ∀ c, c.phase.settled = true → (f c).phase.settled = true) (calls : List Sending) :
    (((calls.map f).filter (!·.phase.settled)).filterMap Sending.dedupKey).Sublist
      ((calls.filter (!·.phase.settled)).filterMap Sending.dedupKey) := by
  induction calls with
  | nil => exact List.nil_sublist _
  | cons c calls ih =>
    rw [List.map_cons]
    cases hc : c.phase.settled with
    | true =>
      rw [List.filter_cons_of_neg (by simp [hsettled c hc]), List.filter_cons_of_neg (by simp [hc])]
      exact ih
    | false =>
      rw [List.filter_cons_of_pos (a := c) (by simp [hc])]
      have hskip := ih.trans (List.Sublist.filterMap Sending.dedupKey
        (List.sublist_cons_self c (calls.filter (!·.phase.settled))))
      cases hfc : (f c).phase.settled with
      | true =>
        rw [List.filter_cons_of_neg (a := f c) (by simp [hfc])]
        exact hskip
      | false =>
        have hkey : (f c).dedupKey = c.dedupKey := congrArg getRequestDedupKey (hrequest c)
        rw [List.filter_cons_of_pos (a := f c) (by simp [hfc]), List.filterMap_cons,
          List.filterMap_cons, hkey]
        split
        · exact ih
        · exact ih.cons_cons _

theorem deduped_map {calls : List Sending} {f : Sending → Sending}
    (hrequest : ∀ c, (f c).request = c.request)
    (hsettled : ∀ c, c.phase.settled = true → (f c).phase.settled = true) (h : Deduped calls) :
    Deduped (calls.map f) := (unsettled_sublist hrequest hsettled calls).nodup h

theorem Inv.page (h : Inv setting w) {f : Sending → Sending} (hkeeps : Keeps w f)
    (hbus : w'.bus = w.bus) (hreceived : w'.received = w.received) (hhanded : w'.handed = w.handed)
    (hcalls : w'.calls = w.calls.map f) (hpage : w'.toPage ⊆ w.toPage)
    (hworker : ∀ message ∈ w'.toWorker, message ∈ w.toWorker ∨ PlainMessage message ∧
      (message.id ∈ w.ids → message.broadcast = false ∧ message.tag = setting.messageTag))
    (htokens : ∀ id ∈ w.ids, w'.tokens id ≤ w.tokens id) : Inv setting w' := by
  have hids : w'.ids = w.ids := by
    rw [Session.ids, hcalls]
    exact ids_map hkeeps.request
  have hmem : ∀ c ∈ w'.calls, ∃ c' ∈ w.calls, f c' = c := by
    intro c hc
    rw [hcalls] at hc
    exact List.mem_map.mp hc
  refine ⟨hbus ▸ h.bus, hbus ▸ h.texts, ?_, ?_, ?_, ?_, ?_, ?_, hids ▸ h.nodup, ?_, ?_, ?_,
    hcalls ▸ deduped_map hkeeps.request hkeeps.settled h.deduped, fun id hid ↦ ?_⟩
  · rw [hbus, hreceived]
    exact h.arrived
  · rw [hbus, hreceived]
    exact h.inits
  · rw [hbus, hreceived, hhanded]
    exact h.handed
  · intro message hmessage
    exact (hworker message hmessage).elim (h.plain message) And.left
  · intro message hmessage hid
    rw [hids] at hid
    obtain hmessage | hmessage := List.mem_append.mp hmessage
    · obtain hmessage | hnew := hworker message hmessage
      · exact h.mine message (List.mem_append_left _ hmessage) hid
      · exact hnew.2 hid
    · exact h.mine message (List.mem_append_right _ (hreceived ▸ hmessage)) hid
  · intro reply hreply herror hid
    rw [hhanded]
    exact h.answered reply (hpage hreply) herror (hids ▸ hid)
  · intro c hc
    obtain ⟨c', hc', rfl⟩ := hmem c hc
    rw [hkeeps.request]
    exact h.types c' hc'
  · intro c hc
    obtain ⟨c', hc', rfl⟩ := hmem c hc
    exact hkeeps.bounded c' (h.bounded c' hc')
  · intro c hc hphase
    obtain ⟨c', hc', rfl⟩ := hmem c hc
    rw [hhanded, hkeeps.request]
    exact (hkeeps.resolved c' hc' hphase).elim (h.resolved c' hc') id
  · rw [hids] at hid
    exact (htokens id hid).trans (h.once id hid)

theorem keeps_id : Keeps w id := ⟨fun _ ↦ rfl, fun _ h ↦ h, fun _ _ h ↦ .inl h, fun _ h ↦ h⟩

/-- Calls that are let go on have sent what they may. -/
structure Resumes (next : Sending → Option (ℕ × ℕ)) : Prop where
  unsent : ∀ c, (next c).isSome = true → c.unsent = true ∧ c.phase.settled = false
  bounded : ∀ c attempt initWaits, next c = some (attempt, initWaits) → c.Bounded →
    c.sends = attempt + initWaits ∧ attempt ≤ maxRetries ∧ initWaits ≤ MAX_INIT_WAITS

theorem resumes_pinged : Resumes Sending.whenPinged := by
  constructor
  · intro c h
    unfold Sending.whenPinged at h
    split at h
    · next hphase => simp [Sending.unsent, Phase.settled, hphase]
    · cases h
  · intro c attempt initWaits h hbounded
    unfold Sending.whenPinged at h
    split at h
    · next hphase =>
      cases h
      simp only [Sending.Bounded, hphase] at hbounded
      exact ⟨hbounded, Nat.zero_le _, Nat.zero_le _⟩
    · cases h

theorem resumes_reinitialized : Resumes Sending.whenReinitialized := by
  constructor
  · intro c h
    unfold Sending.whenReinitialized at h
    split at h
    · next hphase => simp [Sending.unsent, Phase.settled, hphase]
    · cases h
  · intro c attempt initWaits h hbounded
    unfold Sending.whenReinitialized at h
    split at h
    · next hphase =>
      cases h
      simp only [Sending.Bounded, hphase] at hbounded
      exact hbounded
    · cases h

theorem resumes_awake (id : String) : Resumes (·.whenAwake id) := by
  constructor
  · intro c h
    unfold Sending.whenAwake at h
    split at h
    · next hphase => simp [Sending.unsent, Phase.settled, hphase]
    · cases h
  · intro c attempt initWaits h hbounded
    unfold Sending.whenAwake at h
    split at h
    · next hphase =>
      split at h <;> cases h
      simp only [Sending.Bounded, hphase] at hbounded
      exact hbounded
    · cases h

theorem Resumes.keeps {next : Sending → Option (ℕ × ℕ)} (h : Resumes next) :
    Keeps w (·.resume next) := by
  constructor
  · intro c
    unfold Sending.resume
    split <;> rfl
  · intro c hc
    unfold Sending.resume
    split
    · next attempt initWaits hnext =>
      obtain ⟨hsends, hattempt, hwaits⟩ := h.bounded c attempt initWaits hnext hc
      exact ⟨by rw [hsends], hattempt, hwaits⟩
    · exact hc
  · intro c _ hphase
    unfold Sending.resume at hphase
    split at hphase
    · cases hphase
    · exact .inl hphase
  · intro c hsettled
    unfold Sending.resume
    split
    · next hnext =>
      rw [(h.unsent c (by rw [hnext]; rfl)).2] at hsettled
      cases hsettled
    · exact hsettled

theorem Inv.send (h : Inv setting w) {next : Sending → Option (ℕ × ℕ)} (hnext : Resumes next) :
    Inv setting (w.send setting next) := by
  refine h.page hnext.keeps rfl rfl rfl rfl (List.Subset.refl _) (fun message hmessage ↦ ?_)
    fun id _ ↦ (tokens_send fun c hc ↦ (hnext.unsent c hc).1).le
  obtain hmessage | hmessage := List.mem_append.mp hmessage
  · exact .inl hmessage
  · obtain ⟨c, hc, rfl⟩ := List.mem_map.mp hmessage
    have htype := h.types c (List.mem_filter.mp hc).1
    exact .inr ⟨⟨setting.plain.1, fun type heq ↦ Option.some.inj heq ▸ htype⟩, fun _ ↦ ⟨rfl, rfl⟩⟩

theorem Inv.post (h : Inv setting w) {message : Message} (hplain : PlainMessage message)
    (hid : message.id ∉ w.ids) : Inv setting (w.post message) := by
  refine h.page keeps_id rfl rfl rfl (List.map_id _).symm (List.Subset.refl _)
    (fun other hother ↦ ?_) fun id hmem ↦ (tokens_post fun heq ↦ hid (heq ▸ hmem)).le
  obtain hother | hother := List.mem_append.mp hother
  · exact .inl hother
  · obtain rfl := List.mem_singleton.mp hother
    exact .inr ⟨hplain, fun hmem ↦ absurd hmem hid⟩

theorem keeps_onReinitFailed (message : String) : Keeps w (·.onReinitFailed message) := by
  constructor
  · intro c
    unfold Sending.onReinitFailed
    split <;> rfl
  · intro c hc
    unfold Sending.onReinitFailed
    split
    · next attempt initWaits hphase =>
      simp only [Sending.Bounded, hphase] at hc
      simp only [Sending.Bounded]
      omega
    · exact hc
  · intro c _ hphase
    unfold Sending.onReinitFailed at hphase
    split at hphase
    · cases hphase
    · exact .inl hphase
  · intro c hsettled
    unfold Sending.onReinitFailed
    split
    · rfl
    · exact hsettled

theorem Inv.failReinit (h : Inv setting w) (message : String) :
    Inv setting (w.failReinit message) :=
  h.page (keeps_onReinitFailed message) rfl rfl rfl rfl (List.Subset.refl _)
    (fun _ hmessage ↦ .inl hmessage) fun _ _ ↦ tokens_failReinit message

theorem Inv.rest (h : Inv setting w) (hcalls : w'.calls = w.calls)
    (hworker : w'.toWorker = w.toWorker) (hbus : w'.bus = w.bus)
    (hreceived : w'.received = w.received) (hpage : w'.toPage = w.toPage)
    (hhanded : w'.handed = w.handed) : Inv setting w' := by
  refine h.page keeps_id hbus hreceived hhanded (hcalls.trans (List.map_id _).symm)
    (hpage ▸ List.Subset.refl _) (fun message hmessage ↦ .inl (hworker ▸ hmessage)) fun id _ ↦ ?_
  rw [Session.tokens, hworker, hpage, hhanded, hcalls]
  exact Nat.le_refl _

theorem Inv.reinitializeWorker (h : Inv setting w) {freshId : String} (hfresh : freshId ∉ w.ids) :
    Inv setting (w.reinitializeWorker setting freshId) := by
  unfold Session.reinitializeWorker
  split
  · exact h
  split
  · have hrest := @Inv.rest setting w { w with reinit := some (.bus, freshId) } h rfl rfl rfl rfl
      rfl rfl
    have htag : Plain "INITIALIZE_MESSAGE_BUS" := by decide
    exact hrest.post ⟨htag, fun _ htype ↦ (by cases htype)⟩ hfresh
  · exact h.failReinit _

theorem Setting.plain_message (setting : Setting) (id : String) {type : String}
    (h : Plain type) : PlainMessage (setting.message id type) :=
  ⟨setting.plain.1, fun _ heq ↦ Option.some.inj heq ▸ h⟩

theorem Inv.onReinitReply (h : Inv setting w) (stage : Reinit) (error mismatch : Option String)
    {freshId : String} (hfresh : freshId ∉ w.ids) :
    Inv setting (w.onReinitReply setting stage error mismatch freshId) := by
  have hrest : ∀ reinit, Inv setting { w with reinit := reinit } :=
    fun reinit ↦ h.rest rfl rfl rfl rfl rfl rfl
  unfold Session.onReinitReply
  split
  · exact h.failReinit _
  · exact (hrest _).post (setting.plain_message _ (by decide)) hfresh
  · exact (hrest _).post (setting.plain_message _ (by decide)) hfresh
  · split
    · exact h.failReinit _
    · exact (hrest _).send resumes_reinitialized

theorem bounded_afterError {c : Sending} {attempt initWaits : ℕ}
    (hc : c.sends = attempt + initWaits + 1 ∧ attempt ≤ maxRetries ∧ initWaits ≤ MAX_INIT_WAITS)
    (message : String) :
    Sending.Bounded { c with phase := afterError message attempt initWaits } := by
  obtain ⟨hsends, hattempt, hwaits⟩ := hc
  have hsettled : c.sends ≤ maxRetries + MAX_INIT_WAITS + 1 := by omega
  unfold afterError
  split
  · split
    · exact hsettled
    · exact ⟨hsends, hattempt, by omega⟩
  · split
    · exact hsettled
    · next hretry =>
      have hlt := (not_or.mp hretry).2
      exact ⟨hsends.trans (Nat.add_right_comm _ _ _), by omega, hwaits⟩

theorem afterError_ne_resolved (message : String) (attempt initWaits : ℕ) :
    afterError message attempt initWaits ≠ .resolved := by
  unfold afterError
  split
  · split <;> simp
  · split <;> simp

theorem keeps_onReply (h : Inv setting w) {reply : Reply} (hreply : reply ∈ w.toPage)
    (complete : Bool) : Keeps w (·.onReply reply complete) := by
  refine ⟨fun c ↦ c.request_onReply reply complete, fun c hc ↦ ?_, fun c hc hphase ↦ ?_,
    fun c hsettled ↦ ?_⟩
  · unfold Sending.onReply Sending.onResponse
    split
    · split
      · next attempt initWaits message hphase _ =>
        simp only [Sending.Bounded, hphase] at hc
        exact bounded_afterError hc message
      · next attempt initWaits hphase _ =>
        split
        · exact hc
        · simp only [Sending.Bounded, hphase] at hc
          simp only [Sending.Bounded]
          omega
      · exact hc
    · exact hc
  · unfold Sending.onReply at hphase
    split at hphase
    · next hid =>
      unfold Sending.onResponse at hphase
      split at hphase
      · next message _ _ =>
        exact absurd hphase (afterError_ne_resolved message _ _)
      · next herror =>
        have hmem : reply.id ∈ w.ids := hid ▸ List.mem_map_of_mem hc
        exact .inr (hid ▸ h.answered reply hreply herror hmem)
      · exact .inl hphase
    · exact .inl hphase
  · unfold Sending.onReply Sending.onResponse
    split
    · split
      · next hphase _ => simp [Phase.settled, hphase] at hsettled
      · split
        · exact hsettled
        · rfl
      · exact hsettled
    · exact hsettled

theorem Inv.drop (h : Inv setting w) {reply : Reply} {rest : List Reply}
    (hpage : w.toPage = reply :: rest) : Inv setting { w with toPage := rest } := by
  refine h.page keeps_id rfl rfl rfl (List.map_id _).symm (hpage ▸ List.subset_cons_self _ _)
    (fun _ hmessage ↦ .inl hmessage) fun id _ ↦ ?_
  simp only [Session.tokens, hpage, List.countP_cons]
  omega

theorem Inv.onCallReply (h : Inv setting w) {reply : Reply} {rest : List Reply}
    (hpage : w.toPage = reply :: rest) (complete : Bool) {freshId : String}
    (hfresh : freshId ∉ w.ids) :
    Inv setting (Session.onCallReply setting { w with toPage := rest } reply complete freshId) := by
  have hkeeps := keeps_onReply h (hpage ▸ List.mem_cons_self) complete
  have hreply : Inv setting { w with
      toPage := rest, calls := w.calls.map (·.onReply reply complete) } :=
    h.page hkeeps rfl rfl rfl rfl (hpage ▸ List.subset_cons_self _ _)
      (fun _ hmessage ↦ .inl hmessage) fun id _ ↦ tokens_onReply hpage h.nodup complete
  unfold Session.onCallReply
  dsimp only
  split
  · refine hreply.reinitializeWorker ?_
    rw [Session.ids, ids_map hkeeps.request]
    exact hfresh
  · exact hreply

theorem Inv.onMessage (h : Inv setting w) {reply : Reply} {rest : List Reply}
    (hpage : w.toPage = reply :: rest) (complete : Bool) (mismatch : Option String)
    {freshId : String} (hfresh : freshId ∉ w.ids) :
    Inv setting (Session.onMessage setting { w with toPage := rest } reply complete mismatch
      freshId) := by
  have hdrop := h.drop hpage
  unfold Session.onMessage
  split
  · have hrest := @Inv.rest setting _ { w with toPage := rest, ping := none } hdrop rfl rfl rfl rfl
      rfl rfl
    exact hrest.send resumes_pinged
  split
  · split
    · exact hdrop.onReinitReply _ _ _ hfresh
    · exact h.onCallReply hpage complete hfresh
  · exact h.onCallReply hpage complete hfresh

theorem Sending.request_onTimeout (c : Sending) (id : String) :
    (c.onTimeout id).request = c.request := by
  unfold onTimeout
  split
  · split <;> rfl
  · rfl

theorem keeps_onTimeout (id : String) : Keeps w (·.onTimeout id) := by
  refine ⟨fun c ↦ c.request_onTimeout id, fun c hc ↦ ?_, fun c _ hphase ↦ ?_, fun c hsettled ↦ ?_⟩
  · unfold Sending.onTimeout
    split
    · next attempt initWaits hphase =>
      split
      · exact hc
      · simp only [Sending.Bounded, hphase] at hc
        simp only [Sending.Bounded]
        omega
    · exact hc
  · unfold Sending.onTimeout at hphase
    split at hphase
    · split at hphase
      · exact .inl hphase
      · cases hphase
    · exact .inl hphase
  · unfold Sending.onTimeout
    split
    · split
      · exact hsettled
      · rfl
    · exact hsettled

theorem Inv.onTimeout (h : Inv setting w) (id : String) :
    Inv setting { w with calls := w.calls.map (·.onTimeout id) } := by
  refine h.page (keeps_onTimeout id) rfl rfl rfl rfl (List.Subset.refl _)
    (fun _ hmessage ↦ .inl hmessage) fun other _ ↦ Nat.add_le_add_left (countP_map_le ?_) _
  intro c hc hholds
  unfold Sending.onTimeout at hholds
  split at hholds
  · split at hholds
    · exact hholds
    · have hplain : Plain ("Service worker message timed out " ++ parenthesized c.request.type) :=
        plain_parenthesized (by decide) (h.types c hc)
      have hunsent := ((Bool.and_eq_true _ _).mp hholds).2
      exact absurd hunsent (Bool.not_eq_true _ ▸ hplain)
  · exact hholds

theorem Sending.request_onPingFailed (c : Sending) : c.onPingFailed.request = c.request := by
  unfold onPingFailed
  split <;> rfl

theorem Inv.onPingFailed (h : Inv setting w) :
    Inv setting { w with ping := none, calls := w.calls.map Sending.onPingFailed } := by
  have hkeeps : Keeps w Sending.onPingFailed := by
    refine ⟨Sending.request_onPingFailed, fun c hc ↦ ?_, fun c _ hphase ↦ ?_, fun c hsettled ↦ ?_⟩
    · unfold Sending.onPingFailed
      split
      · next hphase =>
        simp only [Sending.Bounded, hphase] at hc
        exact ⟨hc, Nat.zero_le _, Nat.zero_le _⟩
      · exact hc
    · unfold Sending.onPingFailed at hphase
      split at hphase
      · cases hphase
      · exact .inl hphase
    · unfold Sending.onPingFailed
      split
      · next hphase => simp [Phase.settled, hphase] at hsettled
      · exact hsettled
  refine h.page hkeeps rfl rfl rfl rfl (List.Subset.refl _) (fun _ hmessage ↦ .inl hmessage)
    fun other _ ↦ Nat.add_le_add_left (countP_map_le ?_) _
  intro c _ hholds
  unfold Sending.onPingFailed at hholds
  split at hholds
  · next hphase =>
    have hid := id_of_holds hholds
    exact (Bool.and_eq_true _ _).mpr ⟨decide_eq_true hid, by simp [Sending.unsent, hphase]⟩
  · exact hholds

theorem Unused.tokens {id : String} (h : Unused w id) : w.tokens id = 0 := by
  have hworker : w.toWorker.countP (·.id = id) = 0 :=
    List.countP_eq_zero.mpr fun message hmessage heq ↦
      h.messages message (List.mem_append_left _ hmessage) (of_decide_eq_true heq)
  have hpage : w.toPage.countP (Reply.refuses id) = 0 := by
    refine List.countP_eq_zero.mpr fun reply hreply hrefuses ↦ h.replies reply hreply ?_
    exact of_decide_eq_true ((Bool.and_eq_true _ _).mp hrefuses).1
  have hhanded : w.handed.countP (·.1 = id) = 0 := List.countP_eq_zero.mpr fun p hp heq ↦
    h.handed p hp (of_decide_eq_true heq)
  have hcalls : w.calls.countP (Sending.holds id) = 0 := by
    refine List.countP_eq_zero.mpr fun c hc hholds ↦ h.ids ?_
    exact id_of_holds hholds ▸ List.mem_map_of_mem hc
  rw [Session.tokens, hworker, hpage, hhanded, hcalls]

theorem Inv.add (h : Inv setting w) {c : Sending} {messages : List Message}
    (hunused : Unused w c.request.id) (htype : Plain c.request.type) (hbounded : c.Bounded)
    (hsettled : c.phase.settled = false)
    (hkey : ∀ key, c.dedupKey = some key → ∀ c' ∈ w.calls, c'.phase.settled = false →
      c'.dedupKey ≠ some key)
    (hmessages : ∀ message ∈ messages, message = setting.message c.request.id c.request.type)
    (hone : messages.length + [c].countP Sending.unsent ≤ 1) :
    Inv setting { w with calls := w.calls ++ [c], toWorker := w.toWorker ++ messages } := by
  have hids : Session.ids { w with
      calls := w.calls ++ [c], toWorker := w.toWorker ++ messages } = w.ids ++ [c.request.id] :=
    List.map_append
  have hold : ∀ {id}, id ≠ c.request.id → id ∈ w.ids ++ [c.request.id] → id ∈ w.ids := by
    intro id hne hmem
    exact (List.mem_append.mp hmem).resolve_right fun hid ↦ hne (List.mem_singleton.mp hid)
  refine ⟨h.bus, h.texts, h.arrived, h.inits, h.handed, ?_, ?_, ?_, ?_, ?_, ?_, ?_, ?_, ?_⟩
  · intro message hmessage
    obtain hmessage | hmessage := List.mem_append.mp hmessage
    · exact h.plain message hmessage
    · exact hmessages message hmessage ▸ setting.plain_message _ htype
  · intro message hmessage hid
    rw [hids] at hid
    have hmine : message ∈ w.toWorker ++ w.received →
        message.broadcast = false ∧ message.tag = setting.messageTag :=
      fun hmem ↦ h.mine message hmem (hold (hunused.messages message hmem) hid)
    obtain hmessage | hmessage := List.mem_append.mp hmessage
    · obtain hmessage | hmessage := List.mem_append.mp hmessage
      · exact hmine (List.mem_append_left _ hmessage)
      · exact hmessages message hmessage ▸ ⟨rfl, rfl⟩
    · exact hmine (List.mem_append_right _ hmessage)
  · intro reply hreply herror hid
    rw [hids] at hid
    exact h.answered reply hreply herror (hold (hunused.replies reply hreply) hid)
  · rw [hids, List.nodup_append']
    refine ⟨h.nodup, List.nodup_singleton _, fun id hid hmem ↦ hunused.ids ?_⟩
    exact List.mem_singleton.mp hmem ▸ hid
  · intro c' hc'
    obtain hc' | hc' := List.mem_append.mp hc'
    · exact h.types c' hc'
    · exact List.mem_singleton.mp hc' ▸ htype
  · intro c' hc'
    obtain hc' | hc' := List.mem_append.mp hc'
    · exact h.bounded c' hc'
    · exact List.mem_singleton.mp hc' ▸ hbounded
  · intro c' hc' hphase
    obtain hc' | hc' := List.mem_append.mp hc'
    · exact h.resolved c' hc' hphase
    · obtain rfl := List.mem_singleton.mp hc'
      rw [hphase] at hsettled
      cases hsettled
  · unfold Deduped
    rw [List.filter_append, List.filterMap_append, List.filter_cons_of_pos (by simp [hsettled]),
      List.filter_nil]
    cases hkeys : c.dedupKey with
    | none =>
      rw [List.filterMap_cons_none hkeys, List.filterMap_nil, List.append_nil]
      exact h.deduped
    | some key =>
      rw [List.filterMap_cons_some hkeys, List.filterMap_nil, List.nodup_append']
      refine ⟨h.deduped, List.nodup_singleton _, fun other hother hmem ↦ ?_⟩
      obtain rfl := List.mem_singleton.mp hmem
      obtain ⟨c', hc', hkey'⟩ := List.mem_filterMap.mp hother
      obtain ⟨hc', hopen⟩ := List.mem_filter.mp hc'
      exact hkey _ hkeys c' hc' (by simpa using hopen) hkey'
  · intro id hid
    rw [hids] at hid
    have hcount : Session.tokens { w with
        calls := w.calls ++ [c], toWorker := w.toWorker ++ messages } id =
        w.tokens id + (messages.countP (·.id = id) + [c].countP (Sending.holds id)) := by
      simp only [Session.tokens, List.countP_append]
      omega
    rw [hcount]
    by_cases hsame : id = c.request.id
    · subst hsame
      have hle : [c].countP (Sending.holds c.request.id) ≤ [c].countP Sending.unsent :=
        List.countP_mono_left fun c' _ hholds ↦ ((Bool.and_eq_true _ _).mp hholds).2
      have hlength := @List.countP_le_length _ (·.id = c.request.id) messages
      rw [hunused.tokens]
      omega
    · have hother : messages.countP (·.id = id) = 0 := by
        refine List.countP_eq_zero.mpr fun message hmessage heq ↦ hsame ?_
        have hid := of_decide_eq_true heq
        rw [hmessages message hmessage] at hid
        exact hid.symm
      have hholds : [c].countP (Sending.holds id) = 0 := by
        refine List.countP_eq_zero.mpr fun c' hc' hholds ↦ hsame ?_
        exact List.mem_singleton.mp hc' ▸ (id_of_holds hholds).symm
      rw [hother, hholds]
      exact h.once id (hold hsame hid)

theorem Inv.call (h : Inv setting w) {request : WalletUpdaterRequest} {freshId : String}
    (hunused : Unused w request.id) (hfresh : freshId ∉ w.ids) (hne : request.id ≠ freshId)
    (htype : Plain request.type) : Inv setting (w.call setting request freshId) := by
  unfold Session.call
  split
  · exact h
  next hjoin =>
  have hkey : ∀ key, getRequestDedupKey request = some key → ∀ c' ∈ w.calls,
      c'.phase.settled = false → c'.dedupKey ≠ some key := by
    intro key hkey c' hc' hopen hsame
    refine hjoin (List.any_eq_true.mpr ⟨c', hc', ?_⟩)
    simp [hopen, hkey, hsame]
  split
  · have hadd : Inv setting { w with calls := w.calls ++ [⟨request, .pinging, 0⟩] } := by
      have hadd := @Inv.add setting w h ⟨request, .pinging, 0⟩ [] hunused htype rfl rfl hkey
        (fun _ hmessage ↦ by cases hmessage) (Nat.le_refl 1)
      rwa [List.append_nil] at hadd
    dsimp only
    split
    · exact hadd
    · have hrest := @Inv.rest setting _ { w with
        calls := w.calls ++ [⟨request, .pinging, 0⟩], ping := some freshId } hadd rfl rfl rfl rfl
        rfl rfl
      have htag : Plain "PING" := by decide
      refine hrest.post ⟨htag, fun _ htype ↦ (by cases htype)⟩ fun hmem ↦ ?_
      rw [Session.ids, List.map_append] at hmem
      exact (List.mem_append.mp hmem).elim hfresh fun hmem ↦ hne (List.mem_singleton.mp hmem).symm
  · refine @Inv.add setting w h ⟨request, .waiting 0 0, 1⟩ [_] hunused htype ⟨rfl, ?_, ?_⟩ rfl hkey
      (fun message hmessage ↦ List.mem_singleton.mp hmessage) (Nat.le_refl 1)
    · exact Nat.zero_le _
    · exact Nat.zero_le _

end Page

section Worker

variable {setting : Setting} {w w' : Session}

theorem handle_of_respond {log : List Event} (hlog : Chronicle Fits log) {n : ℕ}
    {response : Response} {handler : Tag} (hhandler : response.handler? = some handler)
    (h : .respond n response ∈ log) : .handle n handler ∈ log := by
  obtain ⟨newer, older, rfl⟩ := List.append_of_mem h
  have hfits := hlog.entry
  refine List.mem_append_right _ (List.mem_cons_of_mem _ ?_)
  cases response with
  | answer other =>
    cases hhandler
    exact hfits.1
  | failure other message timedOut =>
    cases hhandler
    exact hfits.1
  | late other message =>
    cases hhandler
    obtain ⟨text, hfailure⟩ := hfits.1
    obtain ⟨newer', older', rfl⟩ := List.append_of_mem hfailure
    exact List.mem_append_right _ (List.mem_cons_of_mem _ hlog.of_append.2.entry.1)
  | _ => cases hhandler

theorem getElem?_received {more : List Message} {n : ℕ} {message : Message}
    (h : w.received[n]? = some message) : (w.received ++ more)[n]? = some message := by
  rw [List.getElem?_append_left (List.getElem?_eq_some_iff.mp h).1]
  exact h

theorem Inv.not_pending (h : Inv setting w) {more : List Message} {n : ℕ}
    (hn : n ∈ w.bus.pendingInits.map (·.1)) {message : Message}
    (hmessage : (w.received ++ more)[n]? = some message) :
    message.id ∉ w.ids := by
  intro hid
  obtain ⟨p, hp, rfl⟩ := List.mem_map.mp hn
  obtain ⟨init, hinit, htag⟩ := h.inits p hp
  have hsame : (w.received ++ more)[p.1]? = some init := getElem?_received hinit
  rw [hmessage] at hsame
  obtain rfl := Option.some.inj hsame
  have hmine := h.mine message (List.mem_append_right _ (List.mem_of_getElem? hinit)) hid
  exact setting.ordinary.2 (hmine.2.symm.trans htag)

/-- Of the requests, the bus decides what becomes of the one that it takes in. -/
theorem decides_of_tells (h : Inv setting w) {input : MessageBus.Input} {more : List Message}
    (hmore : ∀ message, input = .receive message → more = [message]) {e : Event}
    (htells : Tells w.bus input e) {id : String} (hid : id ∈ w.ids)
    (hreceived : w'.received = w.received ++ more)
    (hcounts : (w'.reply e).any (Reply.refuses id) = true ∨ (w'.handing e).any (·.1 = id) = true) :
    (decides e && more.any (·.id = id)) = true := by
  have hlast : ∀ {n message other}, n = w.bus.arrived → w'.received[n]? = some message →
      input = .receive other → message.id = id → more.any (·.id = id) = true := by
    intro n message other hn hmessage hinput hsame
    rw [hn, h.arrived, hreceived, hmore other hinput, List.getElem?_concat_length] at hmessage
    obtain rfl := Option.some.inj hmessage
    rw [hmore other hinput]
    simp [hsame]
  cases e with
  | handle n handler =>
    obtain ⟨hn, other, hinput⟩ := htells
    obtain hcounts | hcounts := hcounts
    · cases hcounts
    · cases hmessage : w'.received[n]? with
      | none => simp [Session.handing, hmessage] at hcounts
      | some message =>
        refine (Bool.and_eq_true _ _).mpr ⟨rfl, hlast hn hmessage hinput ?_⟩
        simpa [Session.handing, hmessage] using hcounts
  | respond n response =>
    obtain hcounts | hcounts := hcounts
    · cases hmessage : w'.received[n]? with
      | none => simp [Session.reply, hmessage] at hcounts
      | some message =>
        simp only [Session.reply, hmessage, Option.map_some, Option.any_some] at hcounts
        obtain ⟨hsame, herror⟩ := (Bool.and_eq_true _ _).mp hcounts
        have hsame := of_decide_eq_true hsame
        have hplain : (∀ text, response.error = some text → Plain text) → False := by
          intro hall
          cases htext : response.error with
          | none => simp [htext] at herror
          | some text =>
            rw [htext] at herror
            exact Bool.eq_false_iff.mp (hall text htext) herror
        cases response with
        | refused initializing =>
          obtain ⟨hn, other, hinput⟩ := htells
          exact (Bool.and_eq_true _ _).mpr ⟨rfl, hlast hn hmessage hinput hsame⟩
        | initFailed text =>
          exact absurd (hsame ▸ hid) (h.not_pending htells (hreceived ▸ hmessage))
        | pong => cases herror
        | initialized => cases herror
        | invalid => exact absurd htells hplain
        | unknownTag tag => exact absurd htells hplain
        | answer handler => exact absurd htells hplain
        | failure handler message timedOut => exact absurd htells hplain
        | late handler message => exact absurd htells hplain
    · cases hcounts
  | _ =>
    exact absurd hcounts (by simp [Session.reply, Session.handing])

theorem eq_singleton {more : List Message} {message : Message} (h : more.length ≤ 1)
    (hmem : message ∈ more) : more = [message] := by
  obtain ⟨other, hother⟩ := List.length_eq_one_iff.mp
    (Nat.le_antisymm h (List.length_pos_of_mem hmem))
  rw [hother] at hmem ⊢
  rw [List.mem_singleton.mp hmem]

theorem Inv.progress (h : Inv setting w) {input : MessageBus.Input} {more rest : List Message}
    {t : MessageBus.State} {events : List Event} (hworker : w.toWorker = more ++ rest)
    (hmore : ∀ message, input = .receive message → more = [message])
    (hbus : MessageBus.Inv setting.options t) (htexts : Texts t)
    (hlog : t.log = events ++ w.bus.log) (htells : ∀ e ∈ events, Tells w.bus input e)
    (hone : ∀ message, more = [message] → message.broadcast = false → events.countP decides ≤ 1)
    (hsingle : more.length ≤ 1) (harrived : t.arrived = w.bus.arrived + more.length)
    (hinits : ∀ p ∈ t.pendingInits, p ∈ w.bus.pendingInits ∨ ∃ message, more = [message] ∧
      p.1 = w.bus.arrived ∧ message.tag = "INITIALIZE_MESSAGE_BUS") :
    Inv setting (Session.progress { w with
      toWorker := rest, received := w.received ++ more } t) := by
  generalize hw' : ({ w with toWorker := rest, received := w.received ++ more } : Session) = w'
  have hreceived : w'.received = w.received ++ more := hw' ▸ rfl
  have hevents : t.log.take (t.log.length - w'.bus.log.length) = events := by
    have hsame : w'.bus.log = w.bus.log := hw' ▸ rfl
    rw [hlog, hsame, List.length_append, Nat.add_sub_cancel, List.take_left]
  have hcalls : (w'.progress t).calls = w.calls := hw' ▸ rfl
  have htoWorker : (w'.progress t).toWorker = rest := hw' ▸ rfl
  have hpage : (w'.progress t).toPage = w.toPage ++ events.reverse.filterMap w'.reply := by
    have hold : w'.toPage = w.toPage := hw' ▸ rfl
    rw [Session.progress, hevents, hold]
  have hhanded : (w'.progress t).handed = events.filterMap w'.handing ++ w.handed := by
    have hold : w'.handed = w.handed := hw' ▸ rfl
    rw [Session.progress, hevents, hold]
  have hids : (w'.progress t).ids = w.ids := hw' ▸ rfl
  have hkept : ∀ p ∈ w.handed, p ∈ (w'.progress t).handed :=
    fun p hp ↦ hhanded ▸ List.mem_append_right _ hp
  have hnew : ∀ n handler, .handle n handler ∈ t.log → ∀ message, w'.received[n]? = some message →
      (message.id, handler) ∈ (w'.progress t).handed := by
    intro n handler hhandle message hmessage
    rw [hlog] at hhandle
    obtain hhandle | hhandle := List.mem_append.mp hhandle
    · refine hhanded ▸ List.mem_append_left _ (List.mem_filterMap.mpr ⟨_, hhandle, ?_⟩)
      rw [Session.handing, hmessage]
      rfl
    · have hlt := h.bus.messages.numbers _ hhandle n rfl
      rw [hreceived, List.getElem?_append_left (h.arrived ▸ hlt)] at hmessage
      exact hkept _ (h.handed n handler hhandle message hmessage)
  have hmine : ∀ message ∈ rest ++ (w.received ++ more), message.id ∈ w.ids →
      message.broadcast = false ∧ message.tag = setting.messageTag := by
    intro message hmessage hid
    refine h.mine message ?_ hid
    rw [hworker]
    simp only [List.mem_append] at hmessage ⊢
    tauto
  refine ⟨hbus, htexts, ?_, ?_, hnew, ?_, ?_, ?_, hids ▸ h.nodup, hcalls ▸ h.types,
    hcalls ▸ h.bounded, ?_, hcalls ▸ h.deduped, ?_⟩
  · have hsame : (w'.progress t).received = w.received ++ more := hreceived
    rw [hsame, List.length_append, ← h.arrived]
    exact harrived
  · intro p hp
    have hsame : (w'.progress t).received = w.received ++ more := hreceived
    rw [hsame]
    obtain hp | ⟨message, rfl, hnumber, htag⟩ := hinits p hp
    · obtain ⟨message, hmessage, htag⟩ := h.inits p hp
      exact ⟨message, getElem?_received hmessage, htag⟩
    · exact ⟨message, by rw [hnumber, h.arrived, List.getElem?_concat_length], htag⟩
  · intro message hmessage
    rw [htoWorker] at hmessage
    exact h.plain message (hworker ▸ List.mem_append_right _ hmessage)
  · intro message hmessage hid
    rw [htoWorker] at hmessage
    exact hmine message (hreceived ▸ hmessage) (hids ▸ hid)
  · intro reply hreply herror hid
    rw [hids] at hid
    rw [hpage] at hreply
    obtain hreply | hreply := List.mem_append.mp hreply
    · obtain ⟨handler, hhandler⟩ := h.answered reply hreply herror hid
      exact ⟨handler, hkept _ hhandler⟩
    obtain ⟨e, he, hreply⟩ := List.mem_filterMap.mp hreply
    have he := List.mem_reverse.mp he
    have htells := htells e he
    cases e with
    | respond n response =>
      cases hmessage : w'.received[n]? with
      | none => simp [Session.reply, hmessage] at hreply
      | some message =>
        simp only [Session.reply, hmessage, Option.map_some, Option.some.injEq] at hreply
        subst hreply
        have hmessage' : (w.received ++ more)[n]? = some message := hreceived ▸ hmessage
        have hhandler : ∀ handler, response.handler? = some handler →
            ∃ handler, (message.id, handler) ∈ (w'.progress t).handed := by
          intro handler hhandler
          refine ⟨handler, hnew n handler ?_ message hmessage⟩
          exact handle_of_respond hbus.messages.events hhandler
            (hlog ▸ List.mem_append_left _ he)
        cases response with
        | pong =>
          obtain ⟨hn, other, hinput, htag⟩ := htells
          have hother := hmore other hinput
          rw [hother, hn, h.arrived, List.getElem?_concat_length] at hmessage'
          obtain rfl := Option.some.inj hmessage'
          have hmem : other ∈ rest ++ (w.received ++ more) := by simp [hother]
          exact absurd ((hmine other hmem hid).2.symm.trans htag) setting.ordinary.1
        | initialized => exact absurd hid (h.not_pending htells hmessage')
        | answer handler => exact hhandler handler rfl
        | late handler text => exact hhandler handler rfl
        | _ => cases herror
    | _ => cases hreply
  · intro c hc hphase
    rw [hcalls] at hc
    obtain ⟨handler, hhandler⟩ := h.resolved c hc hphase
    exact ⟨handler, hkept _ hhandler⟩
  · intro id hid
    rw [hids] at hid
    have hcount := @countP_progress w' id events (fun e ↦ decides e && more.any (·.id = id))
      (fun e he hcounts ↦ decides_of_tells h hmore (htells e he) hid hreceived (.inl hcounts))
      fun e he hcounts ↦ decides_of_tells h hmore (htells e he) hid hreceived (.inr hcounts)
    have hle : events.countP (fun e ↦ decides e && more.any (·.id = id)) ≤
        more.countP (·.id = id) := by
      cases hany : more.any (·.id = id) with
      | false => simp
      | true =>
        obtain ⟨message, hmessage, hsame⟩ := List.any_eq_true.mp hany
        have hsame := of_decide_eq_true hsame
        have hpos : 0 < more.countP (·.id = id) :=
          List.countP_pos_iff.mpr ⟨message, hmessage, decide_eq_true hsame⟩
        have hmem : message ∈ rest ++ (w.received ++ more) := by simp [hmessage]
        have hbroadcast := (hmine message hmem (hsame ▸ hid)).1
        have hdecides := hone message (eq_singleton hsingle hmessage) hbroadcast
        have hand : (fun e ↦ decides e && true) = decides := funext fun e ↦ Bool.and_true _
        rw [hand]
        omega
    have honce := h.once id hid
    simp only [Session.tokens, hworker, List.countP_append] at honce
    simp only [Session.tokens, htoWorker, hpage, hhanded, hcalls, List.countP_append]
    omega

theorem Inv.receive (h : Inv setting w) {message : Message} {rest : List Message}
    (hworker : w.toWorker = message :: rest) :
    Inv setting (Session.progress { w with
      toWorker := rest, received := w.received ++ [message] }
      (w.bus.processMessage setting.options message)) := by
  have hmessage := h.plain message (hworker ▸ List.mem_cons_self)
  have htaken := @taken_processMessage setting.options w.bus message hmessage setting.plain.2
  obtain ⟨events, hlog, htells, hone⟩ := htaken.log
  refine @Inv.progress setting w h (.receive message) [message] rest _ events hworker
    (fun other hother ↦ ?_) (inv_processMessage h.bus message) (htaken.texts h.texts) hlog htells
    (fun other hother ↦ ?_)
    (Nat.le_refl 1) htaken.arrived fun p hp ↦ ?_
  · cases hother
    rfl
  · cases hother
    exact hone
  · exact (htaken.inits p hp).imp_right fun hnew ↦ ⟨message, rfl, hnew⟩

theorem Inv.work (h : Inv setting w) {input : MessageBus.Input} {t : MessageBus.State}
    (hstep : MessageBus.step setting.options w.bus input = some t) (hinput : PlainInput input)
    (hreceive : ∀ message, input ≠ .receive message) : Inv setting (w.progress t) := by
  have hprogress := progress_step hstep hinput hreceive h.texts
  obtain ⟨events, hlog, htells⟩ := hprogress.log
  have hwork := @Inv.progress setting w h input [] w.toWorker t events rfl
    (fun message heq ↦ absurd heq (hreceive message)) (inv_step h.bus hstep)
    (hprogress.texts h.texts) hlog htells (fun _ hmore ↦ by cases hmore) (Nat.zero_le _)
    hprogress.arrived fun p hp ↦ .inl (hprogress.inits hp)
  rw [List.append_nil] at hwork
  exact hwork

theorem Inv.event (h : Inv setting w) {number : ℕ} {handler : Tag}
    (hhandle : .handle number handler ∈ w.bus.log) : Inv setting { w with
      toPage := w.toPage ++
        (w.received[number]?.map fun message ↦ (⟨message.id, none⟩ : Reply)).toList } := by
  refine ⟨h.bus, h.texts, h.arrived, h.inits, h.handed, h.plain, h.mine, ?_, h.nodup, h.types,
    h.bounded, h.resolved, h.deduped, fun id hid ↦ ?_⟩
  · intro reply hreply herror hid
    obtain hreply | hreply := List.mem_append.mp hreply
    · exact h.answered reply hreply herror hid
    · cases hmessage : w.received[number]? with
      | none => simp [hmessage] at hreply
      | some message =>
        have hreply : reply = ⟨message.id, none⟩ := by simpa [hmessage] using hreply
        exact hreply ▸ ⟨handler, h.handed number handler hhandle message hmessage⟩
  · have hnone : (w.received[number]?.map fun message ↦ (⟨message.id, none⟩ : Reply)).toList.countP
        (Reply.refuses id) = 0 := by
      refine List.countP_eq_zero.mpr fun reply hreply ↦ ?_
      cases hmessage : w.received[number]? with
      | none => simp [hmessage] at hreply
      | some message =>
        have hreply : reply = ⟨message.id, none⟩ := by simpa [hmessage] using hreply
        simp [hreply, Reply.refuses]
    have honce := h.once id hid
    simp only [Session.tokens] at honce
    simp only [Session.tokens, List.countP_append, hnone]
    omega

theorem Inv.killed (h : Inv setting w) :
    Inv setting { w with bus := MessageBus.start setting.options, received := [] } where
  bus := inv_start
  texts := ⟨fun _ hc ↦ (by cases hc), fun _ hw ↦ (by cases hw)⟩
  arrived := rfl
  inits _ hp := by cases hp
  handed _ _ hhandle := by cases hhandle
  plain := h.plain
  mine message hmessage := by
    rw [List.append_nil] at hmessage
    exact h.mine message (List.mem_append_left _ hmessage)
  answered := h.answered
  nodup := h.nodup
  types := h.types
  bounded := h.bounded
  resolved := h.resolved
  deduped := h.deduped
  once := h.once

theorem Inv.lost (h : Inv setting w) : Inv setting { w with toWorker := w.toWorker.tail } := by
  refine h.page keeps_id rfl rfl rfl (List.map_id _).symm (List.Subset.refl _)
    (fun _ hmessage ↦ .inl (List.mem_of_mem_tail hmessage)) fun id _ ↦ ?_
  have hle := (List.tail_sublist w.toWorker).countP_le (p := (·.id = id))
  simp only [Session.tokens]
  omega

theorem inv_move {m : Move} (h : Inv setting w) (hok : Undisturbed w m)
    (hmove : move setting w m = some w') : Inv setting w' := by
  cases m with
  | created =>
    cases hmove
    exact h.rest rfl rfl rfl rfl rfl rfl
  | call request freshId =>
    cases hmove
    obtain ⟨hunused, htype, hfresh, hne⟩ := hok
    exact h.call hunused hfresh hne htype
  | deliver complete mismatch freshId =>
    simp only [move] at hmove
    split at hmove <;> cases hmove
    next hpage => exact h.onMessage hpage complete mismatch hok
  | timeout id =>
    cases hmove
    exact h.onTimeout id
  | pingTimeout freshId =>
    simp only [move] at hmove
    split at hmove <;> cases hmove
    refine h.onPingFailed.reinitializeWorker ?_
    rw [Session.ids, ids_map Sending.request_onPingFailed]
    exact hok
  | reinitTimeout message =>
    simp only [move] at hmove
    split at hmove <;> cases hmove
    exact h.failReinit message
  | wake id =>
    cases hmove
    exact h.send (resumes_awake id)
  | other message =>
    cases hmove
    exact h.post hok.2 hok.1
  | receive =>
    simp only [move] at hmove
    split at hmove <;> cases hmove
    next hworker => exact h.receive hworker
  | work input =>
    simp only [move] at hmove
    split at hmove
    · cases hmove
    · next hreceive =>
      obtain ⟨t, hstep, rfl⟩ := Option.map_eq_some_iff.mp hmove
      exact h.work hstep hok fun message heq ↦ hreceive message heq
  | event number handler =>
    simp only [move] at hmove
    split at hmove <;> cases hmove
    next hhandle => exact h.event hhandle
  | killed =>
    cases hmove
    exact h.killed
  | lost =>
    cases hmove
    exact h.lost

theorem inv_opening : Inv setting (opening setting) where
  bus := inv_start
  texts := ⟨fun _ hc ↦ (by cases hc), fun _ hw ↦ (by cases hw)⟩
  arrived := rfl
  inits _ hp := by cases hp
  handed _ _ hhandle := by cases hhandle
  plain _ hmessage := by cases hmessage
  mine _ hmessage := by cases hmessage
  answered _ hreply := by cases hreply
  nodup := .nil
  types _ hc := by cases hc
  bounded _ hc := by cases hc
  resolved _ hc := by cases hc
  deduped := .nil
  once _ hid := by cases hid

theorem Sending.Bounded.sends_le {c : Sending} (h : c.Bounded) :
    c.sends ≤ maxRetries + MAX_INIT_WAITS + 1 := by
  unfold Bounded at h
  split at h <;> omega

/-- Handlers get each request at most once, in whatever order the page, the worker's lives and the
bus take their steps. -/
theorem requests_handledOnce (h : Run (move setting) Undisturbed (opening setting) w) :
    HandledOnce w := by
  have hw : Inv setting w :=
    h.invariant (fun _ _ _ hw hok hmove ↦ inv_move hw hok hmove) inv_opening
  have htokens : ∀ c ∈ w.calls, w.tokens c.request.id ≤ 1 :=
    fun c hc ↦ hw.once _ (List.mem_map_of_mem hc)
  refine ⟨fun c hc ↦ ?_, hw.resolved, fun c hc hunsent handler hhanded ↦ ?_,
    fun c hc ↦ (hw.bounded c hc).sends_le, hw.deduped⟩
  · have hle := htokens c hc
    unfold Session.tokens at hle
    omega
  · have hle := htokens c hc
    have hholds : 0 < w.calls.countP (Sending.holds c.request.id) := by
      refine List.countP_pos_iff.mpr ⟨c, hc, ?_⟩
      rw [Sending.holds, hunsent, decide_eq_true rfl]
      rfl
    have hspent : 0 < w.handed.countP (·.1 = c.request.id) :=
      List.countP_pos_iff.mpr ⟨_, hhanded, decide_eq_true rfl⟩
    unfold Session.tokens at hle
    omega

end Worker

/-! A worker that was restarted refuses a request, which is sent again after the initialization. -/

def plainCheck (message : Message) : Bool := Plain message.tag && message.type.all (Plain ·)

def unusedCheck (w : Session) (id : String) : Bool :=
  !w.ids.contains id && (w.toWorker ++ w.received).all (·.id != id) && w.toPage.all (·.id != id) &&
    w.handed.all (·.1 != id)

def undisturbedCheck (w : Session) : Move → Bool
  | .call request freshId => unusedCheck w request.id && Plain request.type &&
    !w.ids.contains freshId && request.id != freshId
  | .deliver _ _ freshId => !w.ids.contains freshId
  | .pingTimeout freshId => !w.ids.contains freshId
  | .other message => !w.ids.contains message.id && plainCheck message
  | .work input => match input with
    | .settled _ _ answer => answer.message.all (Plain ·)
    | _ => true
  | _ => true

theorem plain_of_check {message : Message} (h : plainCheck message = true) :
    PlainMessage message := by
  obtain ⟨htag, htype⟩ := (Bool.and_eq_true _ _).mp h
  refine ⟨of_decide_eq_true htag, fun type heq ↦ ?_⟩
  rw [heq] at htype
  exact of_decide_eq_true htype

theorem unused_of_check {w : Session} {id : String} (h : unusedCheck w id = true) :
    Unused w id := by
  simp only [unusedCheck, Bool.and_eq_true, Bool.not_eq_true', List.all_eq_true, bne_iff_ne] at h
  obtain ⟨⟨⟨hids, hmessages⟩, hreplies⟩, hhanded⟩ := h
  exact ⟨by simpa using hids, hmessages, hreplies, hhanded⟩

theorem undisturbed_of_check (w : Session) (m : Move) (h : undisturbedCheck w m = true) :
    Undisturbed w m := by
  cases m with
  | call request freshId =>
    simp only [undisturbedCheck, Bool.and_eq_true] at h
    obtain ⟨⟨⟨hunused, htype⟩, hfresh⟩, hne⟩ := h
    exact ⟨unused_of_check hunused, of_decide_eq_true htype, by simpa using hfresh,
      by simpa using hne⟩
  | deliver complete mismatch freshId =>
    have hfresh : freshId ∉ w.ids := by simpa [undisturbedCheck] using h
    exact hfresh
  | pingTimeout freshId =>
    have hfresh : freshId ∉ w.ids := by simpa [undisturbedCheck] using h
    exact hfresh
  | other message =>
    obtain ⟨hfresh, hplain⟩ := (Bool.and_eq_true _ _).mp h
    exact ⟨by simpa using hfresh, plain_of_check hplain⟩
  | work input =>
    cases input with
    | settled number handler answer =>
      intro message hmessage
      have hall : answer.message.all (Plain ·) = true := h
      rw [hmessage] at hall
      exact of_decide_eq_true hall
    | _ => trivial
  | _ => trivial

def smallSetting : Setting where
  options := ⟨["WALLET_UPDATER"], List.nodup_singleton _, 30000, [], fun _ _ ↦ false⟩
  messageTag := "WALLET_UPDATER"
  messageTimeouts := []
  ordinary := by decide
  plain := by decide

def smallMoves : List Move :=
  [.created, .call ⟨"r", "SETTLE", "", false⟩ "p", .receive, .deliver true none "a", .receive,
    .deliver true none "b", .receive, .work (.built none), .work (.started none),
    .deliver true none "c", .receive, .work (.settled 3 "WALLET_UPDATER" .response),
    .deliver true none "d", .receive, .work (.settled 4 "WALLET_UPDATER" .response),
    .deliver true none "e", .receive, .work (.settled 5 "WALLET_UPDATER" .response),
    .deliver true none "f"]

theorem resent_handledOnce : ∃ w, w.calls.map (fun c ↦ (c.phase, c.sends)) = [(.resolved, 2)] ∧
    HandledOnce w := by
  have hrun : ∃ w, exec (move smallSetting) (opening smallSetting) smallMoves = some w ∧
      w.calls.map (fun c ↦ (c.phase, c.sends)) = [(.resolved, 2)] := ⟨_, rfl, rfl⟩
  obtain ⟨w, hexec, hcalls⟩ := hrun
  exact ⟨w, hcalls, requests_handledOnce (run_of_exec hexec
    (along_of_check undisturbed_of_check rfl))⟩

end ArkadeSdk.WorkerRequests
