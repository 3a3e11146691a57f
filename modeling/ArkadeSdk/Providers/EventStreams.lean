import ArkadeSdk.Lib.Decimal
import ArkadeSdk.Lib.LabelledRun

/-! Server-sent events, read off a response chunk by chunk, or handed on from an event source that
goes its own way. -/

namespace ArkadeSdk.EventStreams

open LabelledRun

section Lines

variable {α : Type} [BEq α] {x : α}

theorem splitOn_append (a b : List α) : (a ++ b).splitOn x =
    (a.splitOn x).dropLast ++ ((a.splitOn x).getLastD [] ++ b).splitOn x := by
  induction a with
  | nil => simp
  | cons c a ih =>
    rw [List.cons_append, List.splitOn_cons_eq_if_modifyHead,
      List.splitOn_cons_eq_if_modifyHead c a, ih]
    cases hsplit : a.splitOn x with
    | nil => exact absurd hsplit (List.splitOn_ne_nil x a)
    | cons first rest =>
      split
      · simp
      · cases rest with
        | nil => simp [List.splitOn_cons_eq_if_modifyHead, *]
        | cons second rest => simp

theorem splitOn_getLastD (a : List α) :
    ((a.splitOn x).getLastD []).splitOn x = [(a.splitOn x).getLastD []] := by
  have h := splitOn_append (x := x) a []
  have hne := List.splitOn_ne_nil x a
  have hlast : (a.splitOn x).getLastD [] = (a.splitOn x).getLast hne := by
    rw [List.getLastD_eq_getLast?, List.getLast?_eq_some_getLast hne, Option.getD_some]
  rw [List.append_nil, List.append_nil] at h
  have hsplit := List.dropLast_append_getLast hne
  rw [← hlast] at hsplit
  exact (List.append_cancel_left (hsplit.trans h)).symm

end Lines

section Response

variable {σ δ ε β : Type}

/-- The decoder takes the bytes one after the other. -/
structure TextDecoder (σ : Type) where
  start : σ
  step : σ → UInt8 → σ × List Char

/-- `decode` with `stream: true`. -/
def TextDecoder.decode (decoder : TextDecoder σ) : σ → List UInt8 → σ × List Char
  | s, [] => (s, [])
  | s, byte :: bytes =>
    let decoded := decoder.step s byte
    let rest := decoder.decode decoded.1 bytes
    (rest.1, decoded.2 ++ rest.2)

/-- The values that a reader has yielded, and the error that ended it. -/
structure Output (ε β : Type) where
  yielded : List β
  thrown : Option ε

/-- An error ends it. -/
def Output.andThen (o o' : Output ε β) : Output ε β :=
  match o.thrown with
  | some error => ⟨o.yielded, some error⟩
  | none => ⟨o.yielded ++ o'.yielded, o'.thrown⟩

variable (parse : List Char → Except ε δ) (parseData : δ → Except ε (Option β))

def processLine (line : List Char) : Except ε (Option β) :=
  let line := Decimal.trim line
  if line = [] then .ok none
  else if "data:".toList.isPrefixOf line then
    let jsonStr := Decimal.trim (line.drop 5)
    if jsonStr = [] then .ok none
    else do
      let data ← parse jsonStr
      parseData data
  else .ok none

def processLines : List (List Char) → Output ε β
  | [] => ⟨[], none⟩
  | line :: lines => match processLine parse parseData line with
    | .error error => ⟨[], some error⟩
    | .ok parsed => Output.andThen ⟨parsed.toList, none⟩ (processLines lines)

/-- The chunks are those read before the stream ends or is aborted. -/
def readChunks (decoder : TextDecoder σ) : σ → List Char → List (List UInt8) → Output ε β
  | _, _, [] => ⟨[], none⟩
  | s, buffer, value :: chunks =>
    let decoded := decoder.decode s value
    let lines := (buffer ++ decoded.2).splitOn '\n'
    (processLines parse parseData lines.dropLast).andThen
      (readChunks decoder decoded.1 (lines.getLastD []) chunks)

def sseStreamIterator (decoder : TextDecoder σ) (chunks : List (List UInt8)) : Output ε β :=
  readChunks parse parseData decoder decoder.start [] chunks

def completeLines (text : List Char) : List (List Char) := (text.splitOn '\n').dropLast

variable {parse parseData}

theorem Output.andThen_assoc (o₁ o₂ o₃ : Output ε β) :
    (o₁.andThen o₂).andThen o₃ = o₁.andThen (o₂.andThen o₃) := by
  cases h₁ : o₁.thrown with
  | some error => simp [andThen, h₁]
  | none =>
    cases h₂ : o₂.thrown with
    | some error => simp [andThen, h₁, h₂]
    | none => simp [andThen, h₁, h₂]

theorem processLines_append (l l' : List (List Char)) :
    processLines parse parseData (l ++ l') =
      (processLines parse parseData l).andThen (processLines parse parseData l') := by
  induction l with
  | nil => simp [processLines, Output.andThen]
  | cons line l ih =>
    rw [List.cons_append, processLines, processLines]
    cases processLine parse parseData line with
    | error error => rfl
    | ok parsed => rw [ih, Output.andThen_assoc]

theorem TextDecoder.decode_append (decoder : TextDecoder σ) (s : σ) (bytes bytes' : List UInt8) :
    decoder.decode s (bytes ++ bytes') =
      ((decoder.decode (decoder.decode s bytes).1 bytes').1,
        (decoder.decode s bytes).2 ++ (decoder.decode (decoder.decode s bytes).1 bytes').2) := by
  induction bytes generalizing s with
  | nil => rfl
  | cons byte bytes ih => simp only [List.cons_append, decode, ih, List.append_assoc]

theorem readChunks_eq (decoder : TextDecoder σ) (chunks : List (List UInt8)) (s : σ)
    {buffer : List Char} (hbuffer : buffer.splitOn '\n' = [buffer]) :
    readChunks parse parseData decoder s buffer chunks = processLines parse parseData
      (completeLines (buffer ++ (decoder.decode s chunks.flatten).2)) := by
  induction chunks generalizing s buffer with
  | nil =>
    rw [List.flatten_nil, TextDecoder.decode, List.append_nil, completeLines, hbuffer]
    rfl
  | cons value chunks ih =>
    simp only [readChunks]
    rw [ih _ (splitOn_getLastD _), ← processLines_append, List.flatten_cons,
      TextDecoder.decode_append, ← List.append_assoc]
    congr 1
    rw [completeLines, completeLines, splitOn_append (buffer ++ _),
      List.dropLast_append_of_ne_nil (List.splitOn_ne_nil _ _)]

/-- However the bytes of a response are cut into chunks, what is yielded and thrown comes from the
complete lines of its whole text. -/
theorem sseStreamIterator_eq (decoder : TextDecoder σ) (chunks : List (List UInt8)) :
    sseStreamIterator parse parseData decoder chunks = processLines parse parseData
      (completeLines (decoder.decode decoder.start chunks.flatten).2) :=
  readChunks_eq decoder chunks decoder.start rfl

end Response

section Iterator

variable {ε : Type}

inductive Request
  | next
  | return

/-- Where the generator is: at its start or a `yield` with nothing to serve, on the way out of a
`yield`, waiting for the promise, about to go on after it, or at its end. -/
inductive Phase (ε : Type)
  | suspended
  | yielding (event : ε)
  | awaiting
  | resolved (event : ε)
  | rejected (aborted : Bool)
  | done

/-- `close` rejects the promise that is waited for. -/
def Phase.wake : Phase ε → Phase ε
  | .awaiting => .rejected true
  | phase => phase

/-- What the iterator has and has done. `received` are the messages that came while it was open,
`beforeError` those of them that came before the first error of the source. -/
structure Books (ε : Type) where
  messageQueue : List ε
  errorQueue : ℕ
  closed : Bool
  listening : Bool
  connected : Bool
  delivered : List ε
  thrown : Option Bool
  received : List ε
  beforeError : Option (List ε)

structure State (ε : Type) extends Books ε where
  phase : Phase ε
  requests : List Request

def start : State ε where
  messageQueue := []
  errorQueue := 0
  closed := false
  listening := true
  connected := true
  phase := .suspended
  requests := []
  delivered := []
  thrown := none
  received := []
  beforeError := none

/-- What the consumer, the source and the scheduler do. A `tick` goes on with what is on its way. -/
inductive Input (ε : Type)
  | message (event : ε)
  | error
  | next
  | return
  | close
  | tick

namespace State

variable (s : State ε)

def finish : State ε :=
  { s with closed := true, listening := false, connected := false, phase := .done, requests := [] }

def loop : State ε :=
  if s.closed then s.finish
  else match s.messageQueue with
    | event :: queue => { s with messageQueue := queue, phase := .yielding event }
    | [] =>
      if 0 < s.errorQueue then
        { s with errorQueue := s.errorQueue - 1, thrown := some false }.finish
      else { s with phase := .awaiting }

def serve : State ε :=
  match s.requests with
  | [] => { s with phase := .suspended }
  | .next :: _ => s.loop
  | .return :: _ => s.finish

def deliver (event : ε) : State ε :=
  { s with delivered := s.delivered ++ [event], requests := s.requests.tail }.serve

def close : State ε :=
  if s.closed then s
  else { s with
    closed := true, messageQueue := [], errorQueue := 0, listening := false, connected := false
    phase := s.phase.wake }

/-- A request is served at once when nothing is being served. -/
def request (request : Request) : State ε :=
  match s.phase with
  | .done => s
  | .suspended => { s with requests := [request] }.serve
  | _ => { s with requests := s.requests ++ [request] }

def messageHandler (event : ε) : State ε :=
  if s.closed then s
  else match s.phase with
    | .awaiting => { s with phase := .resolved event, received := s.received ++ [event] }
    | _ => { s with
      messageQueue := s.messageQueue ++ [event], received := s.received ++ [event] }

def errorHandler : State ε :=
  if s.closed then s
  else
    let beforeError := some (s.beforeError.getD s.received)
    match s.phase with
    | .awaiting => { s with phase := .rejected false, beforeError }
    | _ => { s with errorQueue := s.errorQueue + 1, beforeError }

end State

def step (s : State ε) : Input ε → Option (State ε)
  | .message event => some (s.messageHandler event)
  | .error => some s.errorHandler
  | .next => some (s.request .next)
  | .return => some (s.close.request .return)
  | .close => some s.close
  | .tick => match s.phase with
    | .yielding event => some (s.deliver event)
    | .resolved event =>
      if s.closed then some s.finish else some { s with phase := .yielding event }
    | .rejected aborted => some { s with thrown := some aborted }.finish
    | _ => none

/-- The message that the generator has taken and not handed over yet. -/
def Phase.inHand : Phase ε → List ε
  | .yielding event => [event]
  | .resolved event => [event]
  | _ => []

/-- No message is lost, doubled or out of order before the iterator closes, an error comes after the
messages before it, no request waits for what is there already, and none is left at the end. -/
structure Faithful (s : State ε) : Prop where
  opened : s.closed = false → s.received = s.delivered ++ s.phase.inHand ++ s.messageQueue
  closed : s.delivered ++ s.phase.inHand <+: s.received
  failed : s.thrown = some false → ∃ l, s.beforeError = some l ∧ l <+: s.delivered
  awaiting : s.phase = .awaiting → s.closed = false ∧ s.messageQueue = [] ∧ s.errorQueue = 0
  suspended : s.phase = .suspended → s.requests = []
  ended : s.phase = .done → s.closed = true ∧ s.requests = []
  detached : s.listening = !s.closed ∧ s.connected = !s.closed

/-- The books when `hand` is on its way to the consumer. -/
structure Balanced (b : Books ε) (hand : List ε) : Prop where
  opened : b.closed = false → b.received = b.delivered ++ hand ++ b.messageQueue
  closed : b.delivered ++ hand <+: b.received
  failed : b.thrown = some false → ∃ l, b.beforeError = some l ∧ l <+: b.delivered
  detached : b.listening = !b.closed ∧ b.connected = !b.closed
  early : ∀ l, b.beforeError = some l → l <+: b.received
  queued : 0 < b.errorQueue → ∃ l, b.beforeError = some l

def Placed (s : State ε) : Phase ε → Prop
  | .suspended => s.requests = []
  | .awaiting => s.closed = false ∧ s.messageQueue = [] ∧ s.errorQueue = 0
  | .rejected false => ∃ l, s.beforeError = some l ∧ l <+: s.delivered
  | .done => s.closed = true ∧ s.requests = []
  | _ => True

structure Inv (s : State ε) : Prop where
  balanced : Balanced s.toBooks s.phase.inHand
  placed : Placed s s.phase

variable {s t : State ε}

theorem inv_start : Inv (start : State ε) where
  balanced := {
    opened _ := rfl
    closed := List.prefix_refl _
    failed h := by cases h
    detached := ⟨rfl, rfl⟩
    early _ h := by cases h
    queued h := absurd h (Nat.lt_irrefl 0) }
  placed := rfl

theorem Balanced.close {b : Books ε} {hand hand' : List ε} (h : Balanced b hand)
    (hhand : hand' <+: hand) (queue : List ε) (errors : ℕ) (herrors : errors ≤ b.errorQueue) :
    Balanced { b with
      messageQueue := queue, errorQueue := errors
      closed := true, listening := false, connected := false } hand' where
  opened hopen := by cases hopen
  closed := ((List.prefix_append_right_inj _).mpr hhand).trans h.closed
  failed := h.failed
  detached := ⟨rfl, rfl⟩
  early := h.early
  queued herror := h.queued (Nat.lt_of_lt_of_le herror herrors)

theorem inv_finish {hand : List ε} (h : Balanced s.toBooks hand) : Inv s.finish :=
  ⟨h.close (List.nil_prefix) _ _ (Nat.le_refl _), rfl, rfl⟩

theorem inv_loop (h : Balanced s.toBooks []) : Inv s.loop := by
  unfold State.loop
  split
  · exact inv_finish h
  · next hclosed =>
    have hreceived := h.opened (by simpa using hclosed)
    rw [List.append_nil] at hreceived
    split
    · next event queue hqueue =>
      have hreceived : s.received = s.delivered ++ [event] ++ queue := by
        rw [hreceived, hqueue, List.append_assoc, List.singleton_append]
      refine ⟨{ h with opened := fun _ ↦ hreceived, closed := ?_ }, trivial⟩
      exact hreceived ▸ List.prefix_append _ _
    · next hqueue =>
      rw [hqueue, List.append_nil] at hreceived
      split
      · next herror =>
        obtain ⟨l, hl⟩ := h.queued herror
        have hthrown : Balanced { s.toBooks with
            errorQueue := s.errorQueue - 1, thrown := some false } [] :=
          { h with
            failed := fun _ ↦ ⟨l, hl, hreceived ▸ h.early l hl⟩
            queued := fun _ ↦ ⟨l, hl⟩ }
        exact inv_finish hthrown
      · next herror =>
        exact ⟨h, by simpa using hclosed, hqueue, Nat.eq_zero_of_not_pos herror⟩

theorem inv_serve (h : Balanced s.toBooks []) : Inv s.serve := by
  unfold State.serve
  split
  · next hrequests => exact ⟨h, hrequests⟩
  · exact inv_loop h
  · exact inv_finish h

theorem inv_deliver {event : ε} (h : Balanced s.toBooks [event]) : Inv (s.deliver event) := by
  refine inv_serve { h with opened := fun hopen ↦ ?_, closed := ?_, failed := fun hthrown ↦ ?_ }
  · rw [List.append_nil]
    exact h.opened hopen
  · rw [List.append_nil]
    exact h.closed
  · obtain ⟨l, hl, hearly⟩ := h.failed hthrown
    exact ⟨l, hl, hearly.trans (List.prefix_append _ _)⟩

theorem Placed.mono {phase : Phase ε} (h : Placed s phase) (hne : phase ≠ .awaiting)
    (hrequests : phase = .suspended ∨ phase = .done → t.requests = s.requests)
    (hclosed : s.closed = true → t.closed = true)
    (hbefore : ∀ l, s.beforeError = some l → t.beforeError = some l)
    (hdelivered : t.delivered = s.delivered) : Placed t phase := by
  cases phase with
  | suspended => exact (hrequests (.inl rfl)).trans h
  | awaiting => exact absurd rfl hne
  | rejected aborted =>
    cases aborted with
    | true => trivial
    | false =>
      obtain ⟨l, hl, hearly⟩ := h
      exact ⟨l, hbefore l hl, hdelivered ▸ hearly⟩
  | done => exact ⟨hclosed h.1, (hrequests (.inr rfl)).trans h.2⟩
  | _ => trivial

theorem Phase.wake_of_ne {phase : Phase ε} (h : phase ≠ .awaiting) : phase.wake = phase := by
  cases phase with
  | awaiting => exact absurd rfl h
  | _ => rfl

theorem inv_close (hs : Inv s) : Inv s.close := by
  unfold State.close
  split
  · exact hs
  by_cases hphase : s.phase = .awaiting
  · rw [hphase]
    exact ⟨hs.balanced.close List.nil_prefix [] 0 (Nat.zero_le _), trivial⟩
  · rw [Phase.wake_of_ne hphase]
    exact ⟨hs.balanced.close (List.prefix_refl _) [] 0 (Nat.zero_le _),
      hs.placed.mono hphase (fun _ ↦ rfl) (fun _ ↦ rfl) (fun _ ↦ id) rfl⟩

theorem inv_request (hs : Inv s) (request : Request) : Inv (s.request request) := by
  have hbalanced := hs.balanced
  unfold State.request
  split
  · exact hs
  · next hphase =>
    rw [hphase] at hbalanced
    exact inv_serve hbalanced
  · next hdone hsuspended =>
    by_cases hphase : s.phase = .awaiting
    · have hplaced := hs.placed
      rw [hphase] at hplaced
      refine ⟨hbalanced, ?_⟩
      dsimp only
      rw [hphase]
      exact hplaced
    · exact ⟨hbalanced, hs.placed.mono hphase (fun h ↦ (h.elim hsuspended hdone).elim) id
        (fun _ ↦ id) rfl⟩

/-- A message goes to the request that waits, or to the end of the queue. -/
theorem inv_messageHandler (hs : Inv s) (event : ε) : Inv (s.messageHandler event) := by
  have hbalanced := hs.balanced
  unfold State.messageHandler
  split
  · exact hs
  next hclosed =>
  have hopen : s.closed = false := by simpa using hclosed
  have hreceived := hbalanced.opened hopen
  have hearly : ∀ l, s.beforeError = some l → l <+: s.received ++ [event] := fun l hl ↦
    (hbalanced.early l hl).trans (List.prefix_append _ _)
  split
  · next hphase =>
    obtain ⟨-, hqueue, -⟩ : s.closed = false ∧ s.messageQueue = [] ∧ s.errorQueue = 0 := by
      have hplaced := hs.placed
      rwa [hphase] at hplaced
    rw [hphase, hqueue, List.append_nil] at hreceived
    have hdelivered : s.received = s.delivered := by
      rw [hreceived]
      exact List.append_nil _
    refine ⟨{ hbalanced with opened := fun _ ↦ ?_, closed := ?_, early := hearly }, trivial⟩
    · simp [Phase.inHand, hdelivered, hqueue]
    · simp [Phase.inHand, hdelivered]
  · next hphase =>
    refine ⟨{ hbalanced with opened := fun _ ↦ ?_, closed := ?_, early := hearly },
      hs.placed.mono hphase (fun _ ↦ rfl) id (fun _ ↦ id) rfl⟩
    · rw [hreceived, List.append_assoc]
    · exact hbalanced.closed.trans (List.prefix_append _ _)

theorem inv_errorHandler (hs : Inv s) : Inv s.errorHandler := by
  have hbalanced := hs.balanced
  unfold State.errorHandler
  split
  · exact hs
  next hclosed =>
  have hopen : s.closed = false := by simpa using hclosed
  have hbefore : ∀ l, s.beforeError = some l →
      some (s.beforeError.getD s.received) = some l := by
    intro l hl
    rw [hl, Option.getD_some]
  have hearly : s.beforeError.getD s.received <+: s.received := by
    cases hb : s.beforeError with
    | none => exact List.prefix_refl _
    | some l => exact hbalanced.early l hb
  have hcounted : ∀ errors, Balanced { s.toBooks with
      errorQueue := errors, beforeError := some (s.beforeError.getD s.received) }
      s.phase.inHand := fun errors ↦ { hbalanced with
    failed := fun hthrown ↦ by
      obtain ⟨l, hl, hdelivered⟩ := hbalanced.failed hthrown
      exact ⟨l, hbefore l hl, hdelivered⟩
    early := fun l hl ↦ Option.some.inj hl ▸ hearly
    queued := fun _ ↦ ⟨_, rfl⟩ }
  dsimp only
  split
  · next hphase =>
    rw [hphase] at hcounted
    refine ⟨hcounted _, _, rfl, ?_⟩
    obtain ⟨-, hqueue, -⟩ : s.closed = false ∧ s.messageQueue = [] ∧ s.errorQueue = 0 := by
      have hplaced := hs.placed
      rwa [hphase] at hplaced
    have hreceived := hbalanced.opened hopen
    rw [hphase, hqueue, List.append_nil] at hreceived
    have hdelivered : s.received = s.delivered := by
      rw [hreceived]
      exact List.append_nil _
    exact hdelivered ▸ hearly
  · next hphase =>
    exact ⟨hcounted _, hs.placed.mono hphase (fun _ ↦ rfl) id hbefore rfl⟩

theorem inv_step {input : Input ε} (hs : Inv s) (h : step s input = some t) : Inv t := by
  have hbalanced := hs.balanced
  have hplaced := hs.placed
  cases input with
  | message event =>
    cases h
    exact inv_messageHandler hs event
  | error =>
    cases h
    exact inv_errorHandler hs
  | next =>
    cases h
    exact inv_request hs .next
  | «return» =>
    cases h
    exact inv_request (inv_close hs) .return
  | close =>
    cases h
    exact inv_close hs
  | tick =>
    cases hphase : s.phase with
    | yielding event =>
      simp only [step, hphase] at h
      cases h
      rw [hphase] at hbalanced
      exact inv_deliver hbalanced
    | resolved event =>
      simp only [step, hphase] at h
      rw [hphase] at hbalanced
      split at h <;> cases h
      · exact inv_finish hbalanced
      · exact ⟨hbalanced, trivial⟩
    | rejected aborted =>
      simp only [step, hphase] at h
      cases h
      rw [hphase] at hbalanced hplaced
      have hthrown : Balanced { s.toBooks with thrown := some aborted } [] :=
        { hbalanced with failed := fun h ↦ by cases h; exact hplaced }
      exact inv_finish hthrown
    | _ => simp [step, hphase] at h

/-- From a closed state on nothing is received, and what is in hand is all that is handed over. -/
def Silent (s t : State ε) : Prop :=
  s.closed = true → t.closed = true ∧ t.received = s.received ∧
    t.delivered ++ t.phase.inHand <+: s.delivered ++ s.phase.inHand

theorem Silent.refl (s : State ε) : Silent s s := fun h ↦ ⟨h, rfl, List.prefix_refl _⟩

theorem Silent.trans {u : State ε} (h : Silent s t) (h' : Silent t u) : Silent s u := by
  intro hs
  obtain ⟨ht, hreceived, hdelivered⟩ := h hs
  obtain ⟨hu, hreceived', hdelivered'⟩ := h' ht
  exact ⟨hu, hreceived'.trans hreceived, hdelivered'.trans hdelivered⟩

theorem silent_close (s : State ε) : Silent s s.close := by
  intro h
  rw [State.close, if_pos h]
  exact Silent.refl s h

theorem silent_serve {s : State ε} (h : s.closed = true) :
    s.serve.closed = true ∧ s.serve.received = s.received ∧ s.serve.delivered = s.delivered ∧
      s.serve.phase.inHand = [] := by
  unfold State.serve State.loop
  split
  · exact ⟨h, rfl, rfl, rfl⟩
  · rw [if_pos h]
    exact ⟨rfl, rfl, rfl, rfl⟩
  · exact ⟨rfl, rfl, rfl, rfl⟩

theorem silent_request (s : State ε) (request : Request) : Silent s (s.request request) := by
  intro h
  unfold State.request
  split
  · exact Silent.refl s h
  · obtain ⟨hclosed, hreceived, hdelivered, hhand⟩ :=
      @silent_serve _ { s with requests := [request] } h
    refine ⟨hclosed, hreceived, ?_⟩
    rw [hdelivered, hhand, List.append_nil]
    exact List.prefix_append _ _
  · exact ⟨h, rfl, List.prefix_refl _⟩

theorem silent_step {input : Input ε} (h : step s input = some t) : Silent s t := by
  cases input with
  | message event =>
    cases h
    intro h
    rw [State.messageHandler, if_pos h]
    exact Silent.refl s h
  | error =>
    cases h
    intro h
    rw [State.errorHandler, if_pos h]
    exact Silent.refl s h
  | next =>
    cases h
    exact silent_request s .next
  | «return» =>
    cases h
    exact (silent_close s).trans (silent_request _ .return)
  | close =>
    cases h
    exact silent_close s
  | tick =>
    cases hphase : s.phase with
    | yielding event =>
      simp only [step, hphase] at h
      cases h
      intro hs
      obtain ⟨hclosed, hreceived, hdelivered, hhand⟩ := @silent_serve _
        { s with delivered := s.delivered ++ [event], requests := s.requests.tail } hs
      refine ⟨hclosed, hreceived, ?_⟩
      rw [State.deliver, hdelivered, hhand, List.append_nil, hphase]
      exact List.prefix_refl _
    | resolved event =>
      simp only [step, hphase] at h
      split at h <;> cases h
      · refine fun _ ↦ ⟨rfl, rfl, ?_⟩
        exact (List.append_nil s.delivered).symm ▸ List.prefix_append _ _
      · next hopen => exact fun hs ↦ absurd hs hopen
    | rejected aborted =>
      simp only [step, hphase] at h
      cases h
      refine fun _ ↦ ⟨rfl, rfl, ?_⟩
      exact (List.append_nil s.delivered).symm ▸ List.prefix_append _ _
    | _ => simp [step, hphase] at h

/-- Whatever the order in which the source, the consumer and the scheduler act, the iterator is
faithful, and silent once it is closed. -/
theorem eventSourceIterator_faithful (h : Run step (fun _ _ ↦ True) start s)
    (h' : Run step (fun _ _ ↦ True) s t) : Faithful s ∧ Silent s t := by
  have hs : Inv s := h.invariant (fun _ _ _ hs _ hstep ↦ inv_step hs hstep) inv_start
  have hplaced := hs.placed
  refine ⟨⟨hs.balanced.opened, hs.balanced.closed, hs.balanced.failed, fun hphase ↦ ?_,
    fun hphase ↦ ?_, fun hphase ↦ ?_, hs.balanced.detached⟩, ?_⟩
  · rw [hphase] at hplaced
    exact hplaced
  · rw [hphase] at hplaced
    exact hplaced
  · rw [hphase] at hplaced
    exact hplaced
  · exact h'.relation (P := fun _ ↦ True) Silent.refl (fun _ _ _ ↦ Silent.trans)
      (fun _ _ _ _ _ _ ↦ trivial) (fun _ _ _ _ _ hstep ↦ silent_step hstep) trivial

/-- Two messages and an error, with one request made early, then a close with one in hand. -/
theorem closed_faithful : ∃ s t : State ℕ, s.closed = true ∧ s.received = [1, 2] ∧
    t.delivered = [1, 2] ∧ Faithful s ∧ Silent s t := by
  have hrun : ∃ s t : State ℕ, Run step (fun _ _ ↦ True) start s ∧
      Run step (fun _ _ ↦ True) s t ∧ s.closed = true ∧ s.received = [1, 2] ∧
      t.delivered = [1, 2] := by
    refine ⟨_, _, @run_of_exec _ _ _ _ _ _ [.next, .message 1, .message 2, .error, .tick, .tick,
      .next, .close] rfl ?_, @run_of_exec _ _ _ _ _ _ [.message 3, .tick] rfl ?_, rfl, rfl, rfl⟩
    · simp [Along]
    · simp [Along]
  obtain ⟨s, t, hs, ht, hclosed, hreceived, hdelivered⟩ := hrun
  exact ⟨s, t, hclosed, hreceived, hdelivered, eventSourceIterator_faithful hs ht⟩

end Iterator

end ArkadeSdk.EventStreams
