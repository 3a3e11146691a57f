import ArkadeSdk.Lib.LabelledRun
import ArkadeSdk.Lib.ReplyBoard
import ArkadeSdk.Swap.Quote

/-! The two transports that ask over a socket and tell replies apart by the id of the
negotiation: the dev broker's relay, and Nostr. -/

namespace ArkadeSdk.RfqCalls

open LabelledRun ReplyBoard
open Json (Value)
open Rfq (Piece)

inductive Failure
  | error (text : List Piece)
  | swapRefusal (reason rfqId : Value)
  | relayUnavailable (reasons : List String)
  | transportClosed

/-- `v === s`. -/
def isText (v : Option Value) (s : String) : Bool :=
  match v with
  | some (.string t) => t = s
  | _ => false

/-- `v ?? d`. -/
def orElse (v : Option Value) (d : Value) : Value :=
  match v with
  | none | some .null => d
  | some v => v

def expectQuote (payload : Value) (rfqId : String) (requestedPair : Option String) :
    Except Failure Value :=
  if isText (payload.field "type") "rfq_refusal" then
    .error (.swapRefusal (orElse (payload.field "reason") (.string "unknown"))
      (orElse (payload.field "rfq_id") (.string rfqId)))
  else if !isText (payload.field "type") "rfq_quote" || !isText (payload.field "rfq_id") rfqId then
    .error (.error [.text "unexpected reply: ",
      .value (some (orElse (payload.field "type") (.string "no payload")))])
  else
    match requestedPair with
    | none => .ok payload
    | some pair =>
      if isText (payload.field "pair") pair then .ok payload
      else .error (.error [.text "solver quoted ", .value (payload.field "pair"),
        .text (", not the requested " ++ pair)])

def pairOf (payload : Value) : Option String :=
  match payload.field "pair" with
  | some (.string pair) => some pair
  | _ => none

inductive Request
  | quote (payload : Value)
  | status (rfqId : String)

/-- The negotiation that a request is for. A quote's id is made text first. -/
def Request.rfqId (text : Option Value → String) : Request → String
  | .quote payload => text (payload.field "rfq_id")
  | .status rfqId => rfqId

/-- What a call makes of its reply. A status that is no status is null. -/
def Request.read (request : Request) (rfqId : String) (payload : Value) :
    Except Failure (Option Value) :=
  match request with
  | .quote asked => (expectQuote payload rfqId (pairOf asked)).map some
  | .status _ => .ok (if isText (payload.field "type") "rfq_status" then some payload else none)

def Request.crosses (request : Request) (payload : Value) : Bool :=
  match request with
  | .quote _ => isText (payload.field "type") "rfq_status"
  | .status _ => isText (payload.field "type") "rfq_quote"

structure Sending where
  request : Request
  /-- How sending it went, once that has ended. -/
  sent : Option (Except Failure Unit)
  /-- The timeout has passed since its timer was set. -/
  due : Bool

/-- A call, and the promise of its reply. It is registered from when its waiter and its timer are
set, and the timer runs for as long as it waits. -/
abbrev Call := Ticket String (Except Failure Value) Sending

abbrev Calls := Board String (Except Failure Value) Sending

/-- What the caller's promise was settled with. -/
def outcome (c : Call) : Option (Except Failure (Option Value)) :=
  match c.info.sent with
  | none => none
  | some (.error e) => some (.error e)
  | some (.ok ()) => c.reply.map fun r ↦ r.bind (c.info.request.read c.key)

structure Wire where
  calls : Calls
  closed : Bool
  lost : Bool

def DEFAULT_TIMEOUT_MS : ℕ := 30000

def within (what : String) (timeoutMs : Option ℕ) : Failure :=
  .error [.text (what ++ " within " ++ toString (timeoutMs.getD DEFAULT_TIMEOUT_MS) ++ "ms")]

def recordSent (i : ℕ) (sent : Except Failure Unit) (calls : Calls) : Calls :=
  calls.update i fun e ↦ { e with sent := some sent }

/-- The timeout passes: a call that waits has its timer still set. -/
def Wire.timer (i : ℕ) (e : Failure) (w : Wire) : Option Wire :=
  match w.calls.tickets[i]? with
  | none => none
  | some c =>
    if c.registered && !c.info.due then
      some { w with
        calls := (if c.waiting then w.calls.expire i (.error e) else w.calls).update i
          fun e ↦ { e with due := true } }
    else none

def Wire.deliver (reply : Option (String × Value)) (w : Wire) : Wire :=
  match reply with
  | none => w
  | some (rfqId, payload) => { w with calls := w.calls.answer rfqId (.ok payload) }

/-- `silent`: it opened, and its subscription could not be sent. -/
inductive Socket
  | connecting
  | ready
  | silent
  | failed

structure Relay extends Wire where
  socket : Socket

def Relay.initial : Relay where
  calls := .empty
  closed := false
  lost := false
  socket := .connecting

/-- `resume`: a call goes on after it waited for the socket. `message`: a frame, when it was
read. `lost`: the connection is gone. -/
inductive RelayEvent
  | call (request : Request)
  | opened (subscribed : Except Failure Unit)
  | error
  | resume (i : ℕ) (sent : Except Failure Unit)
  | message (frame : Option Value)
  | timer (i : ℕ)
  | lost
  | close

/-- The payload of an event frame, and its id. -/
def frameReply (frame : Option Value) : Option (String × Value) :=
  match frame with
  | none => none
  | some frame =>
    if isText (frame.field "op") "event" then
      match (frame.field "event").bind (·.field "payload") with
      | none => none
      | some payload =>
        match payload.field "rfq_id" with
        | some (.string rfqId) => some (rfqId, payload)
        | _ => none
    else none

section

variable (text : Option Value → String) (timeoutMs : Option ℕ)

/-- `relayTransport`. -/
def relayStep (s : Relay) : RelayEvent → Option Relay
  | .call request =>
    some { s with calls := s.calls.issue (request.rfqId text) ⟨request, none, false⟩ }
  | .opened subscribed =>
    match s.socket with
    | .connecting => some { s with socket := if subscribed.isOk then .ready else .silent }
    | _ => none
  | .error =>
    match s.socket with
    | .connecting | .silent => some { s with socket := .failed }
    | _ => some s
  | .resume i sent =>
    match s.calls.tickets[i]? with
    | none => none
    | some c =>
      if c.info.sent.isSome then none
      else
        match s.socket with
        | .ready => some { s with calls := (recordSent i sent s.calls).register i }
        | .failed =>
          some { s with
            calls := recordSent i (.error (.error [.text "relay connection failed"])) s.calls }
        | _ => none
  | .message frame => some { s with toWire := s.toWire.deliver (frameReply frame) }
  | .timer i =>
    (s.toWire.timer i (within "no reply" timeoutMs)).map fun w ↦ { s with toWire := w }
  | .lost => some { s with lost := true }
  | .close => some { s with closed := true }

end

structure Nostr extends Wire

def Nostr.initial : Nostr where
  calls := .empty
  closed := false
  lost := false

/-- A reason that the pool hands over when every relay has closed, in either of its shapes. -/
inductive CloseReason
  | text (s : String)
  | entry (url reason : Option String)

def closeReasons (raw : List CloseReason) : List String :=
  raw.map fun
    | .text s => s
    | .entry url reason =>
      match url.filter (· ≠ "") with
      | some url => url ++ ": " ++ reason.getD "closed"
      | none => reason.getD "closed"

/-- `published`: the send of a call ended, with what each relay answered or what it threw before.
`event`: a payload, when it could be decrypted and read. `lost`: `onclose`. -/
inductive NostrEvent
  | call (request : Request)
  | published (i : ℕ) (relays : Except Failure (List Bool))
  | event (payload : Option Value)
  | timer (i : ℕ)
  | lost (reasons : List CloseReason)
  | close

def publishSent (relays : Except Failure (List Bool)) : Except Failure Unit :=
  match relays with
  | .error e => .error e
  | .ok accepted =>
    if accepted.any id then .ok ()
    else .error (.error [.text "no relay accepted the RFQ message"])

def directReply (payload : Option Value) : Option (String × Value) :=
  match payload with
  | none => none
  | some payload =>
    match payload.field "rfq_id" with
    | some (.string rfqId) => if rfqId = "" then none else some (rfqId, payload)
    | _ => none

section

variable (text : Option Value → String) (timeoutMs : Option ℕ)

/-- `nostrRfqTransport`. -/
def nostrStep (s : Nostr) : NostrEvent → Option Nostr
  | .call request =>
    some { s with calls := s.calls.enter (request.rfqId text) ⟨request, none, false⟩ }
  | .published i relays =>
    match s.calls.tickets[i]? with
    | none => none
    | some c =>
      if c.info.sent.isSome then none
      else some { s with calls := recordSent i (publishSent relays) s.calls }
  | .event payload => some { s with toWire := s.toWire.deliver (directReply payload) }
  | .timer i =>
    (s.toWire.timer i (within "no solver reply" timeoutMs)).map fun w ↦ { s with toWire := w }
  | .lost reasons =>
    if s.closed then some { s with lost := true }
    else
      some { s with
        lost := true
        calls := s.calls.rejectAll (.error (.relayUnavailable (closeReasons reasons))) }
  | .close =>
    some { s with closed := true, calls := s.calls.rejectAll (.error .transportClosed) }

end

end ArkadeSdk.RfqCalls
