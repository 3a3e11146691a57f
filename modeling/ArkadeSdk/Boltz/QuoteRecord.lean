import ArkadeSdk.Lib.JsNumber
import ArkadeSdk.Lib.LabelledRun
import Mathlib.Logic.Function.Basic

/-! The record of a chain swap under all that writes it: status updates that save a copy, and
quotes, claims and refreshes that read the record and write it back. -/

namespace ArkadeSdk.QuoteRecord

open JsNumber LabelledRun

/-- `QuoteSwapOptions`, with integers where the code insists on them. -/
structure QuoteSwapOptions where
  minAcceptableAmount : Option ℤ
  maxSlippageBps : Option ℤ
  deriving DecidableEq

inductive QuoteError
  | invalidMinAcceptableAmount (v : ℤ)
  | invalidMaxSlippageBps (v : ℤ)
  | floorBelowOne (slippageBps : ℤ) (floor : ℕ)
  | noBaseline
  | nonSafeInteger (quotedAmount : Number)
  | nonPositive (quotedAmount : Number)
  | belowFloor (quotedAmount : Number) (floor : ℕ)

def validateQuoteOptions (options : QuoteSwapOptions) : Except QuoteError Unit := do
  if let some v := options.minAcceptableAmount then
    if v ≤ 0 then throw (.invalidMinAcceptableAmount v)
  if let some v := options.maxSlippageBps then
    if v < 0 ∨ 10000 < v then throw (.invalidMaxSlippageBps v)

/-- `Math.floor(floor - floor * slippageBps / 10000)`, refused below one. -/
def resolveEffectiveFloor (options : QuoteSwapOptions) (floor : ℕ) : Except QuoteError ℕ :=
  let slippageBps := options.maxSlippageBps.getD 0
  let effectiveFloor := (floor * 10000 - floor * slippageBps) / 10000
  if effectiveFloor < 1 then .error (.floorBelowOne slippageBps floor)
  else .ok effectiveFloor.toNat

def MAX_SAFE_INTEGER : ℕ := 2 ^ 53 - 1

def safeInteger : Number → Option ℤ
  | .finite q => if q.den = 1 ∧ q.num.natAbs ≤ MAX_SAFE_INTEGER then some q.num else none
  | _ => none

def validateQuote (amount : Number) (effectiveFloor : ℕ) : Except QuoteError ℕ :=
  match safeInteger amount with
  | none => .error (.nonSafeInteger amount)
  | some n =>
    if n ≤ 0 then .error (.nonPositive amount)
    else if n < effectiveFloor then .error (.belowFloor amount effectiveFloor)
    else .ok n.toNat

/-- The fields of a stored chain swap that change. -/
structure Record where
  status : String
  acceptedQuoteAmount : Option ℕ
  claimTxid : Option String
  deriving DecidableEq

/-- A copy of the record that a waiter, the manager or a caller has; `monitored` is that of the
manager. -/
structure Copy where
  record : Record
  monitored : Bool
  deriving DecidableEq

structure Delta where
  status : String
  claimTxid : Option String
  deriving DecidableEq

def Delta.over (delta : Delta) (record : Record) : Record :=
  { record with status := delta.status, claimTxid := delta.claimTxid.or record.claimTxid }

/-- What a caller mirrors onto its copy afterwards. -/
inductive Mirror
  | accepted (amount : ℕ)
  | claim (txid : String)
  deriving DecidableEq

def Mirror.onto (record : Record) : Mirror → Record
  | .accepted amount => { record with acceptedQuoteAmount := some amount }
  | .claim txid => { record with claimTxid := some txid }

/-- Work in progress: a save that has yet to serialise its copy, a write on its way, a quote that
waits for its floor, for the amount, or for the record to write, and an update that waits for the
record. -/
inductive Task
  | saves (copy : ℕ)
  | writes (record : Record) (mirror : Option (ℕ × Mirror))
  | quotes (caller : Option ℕ) (options : QuoteSwapOptions)
  | quoted (caller : Option ℕ) (isDefault : Bool) (floor effectiveFloor : ℕ)
  | records (caller : Option ℕ) (amount : ℕ)
  | updates (copy : ℕ) (delta : Delta) (mirror : Bool)
  | mirrors (copy : ℕ) (mirror : Mirror)
  deriving DecidableEq

/-- `posted` are the amounts the provider was sent, newest first, with whether the options were
the default ones; `firstClaim` is the first claim txid that was stored. -/
structure World where
  claimAmount : Option ℕ
  stored : Record
  copies : List Copy
  tasks : List Task
  posted : List (ℕ × Bool)
  firstClaim : Option String

/-- What becomes of a posted amount: the provider refuses it, or takes it and the answer is lost
or arrives. -/
inductive Posted
  | refused
  | lost
  | answered
  deriving DecidableEq

inductive Input
  | hold (monitored : Bool)
  | fork (j : ℕ) (monitored : Bool)
  | finalize (j : ℕ)
  | status (j : ℕ) (status : String)
  | save (j : ℕ)
  | serialise (i : ℕ)
  | quoteSwap (options : QuoteSwapOptions)
  | renegotiate (j : ℕ)
  | readFloor (i : ℕ) (answered : Bool)
  | post (i : ℕ) (amount : Number) (outcome : Posted)
  | readBack (i : ℕ) (answered : Bool)
  | claimed (j : ℕ) (status : String) (txid : String) (mirror : Bool)
  | rememberClaim (j : ℕ) (txid : String)
  | update (j : ℕ) (status : String)
  | readUpdate (i : ℕ) (answered : Bool)
  | land (i : ℕ)
  | mirror (i : ℕ)

/-- A swap as it was created. -/
def World.start (claimAmount : Option ℕ) (status : String) : World :=
  ⟨claimAmount, ⟨status, none, none⟩, [], [], [], none⟩

namespace World

def lastPosted (w : World) : Option ℕ := w.posted.head?.map Prod.fst

def agreed (w : World) : Option ℕ := w.lastPosted.or w.claimAmount

def addTask (w : World) (task : Task) : World := { w with tasks := w.tasks ++ [task] }

def setTask (w : World) (i : ℕ) (task : Task) : World := { w with tasks := w.tasks.set i task }

def endTask (w : World) (i : ℕ) : World := { w with tasks := w.tasks.eraseIdx i }

def modifyCopy (w : World) (j : ℕ) (f : Record → Record) : World :=
  { w with copies := w.copies.modify j fun copy ↦ { copy with record := f copy.record } }

/-- The mirror onto the copy of the manager. -/
def noteAcceptedQuote (w : World) (amount : ℕ) : World :=
  { w with
    copies := w.copies.map fun copy ↦
      if copy.monitored then { copy with record := Mirror.onto copy.record (.accepted amount) }
      else copy }

def quote (w : World) (caller : Option ℕ) (isDefault : Bool) (options : QuoteSwapOptions) : World :=
  match validateQuoteOptions options with
  | .error _ => w
  | .ok _ =>
    match options.minAcceptableAmount with
    | none => w.addTask (.quotes caller options)
    | some floor =>
      match resolveEffectiveFloor options floor.toNat with
      | .error _ => w
      | .ok effectiveFloor => w.addTask (.quoted caller isDefault floor.toNat effectiveFloor)

end World

def QuoteSwapOptions.isDefault (options : QuoteSwapOptions) : Bool := options = ⟨none, none⟩

def quoteOptionsForSwap (claimAmount : Option ℕ) (record : Record) : QuoteSwapOptions :=
  ⟨(record.acceptedQuoteAmount.or claimAmount).map Int.ofNat, none⟩

def step (w : World) : Input → Option World
  | .hold monitored => some { w with copies := w.copies ++ [⟨w.stored, monitored⟩] }
  | .fork j monitored =>
    (w.copies[j]?).map fun copy ↦ { w with copies := w.copies ++ [⟨copy.record, monitored⟩] }
  | .finalize j =>
    some { w with copies := w.copies.modify j fun copy ↦ { copy with monitored := false } }
  | .status j status =>
    some ((w.modifyCopy j fun record ↦ { record with status }).addTask (.saves j))
  | .save j => some (w.addTask (.saves j))
  | .serialise i =>
    match w.tasks[i]? with
    | some (.saves j) => (w.copies[j]?).map fun copy ↦ w.setTask i (.writes copy.record none)
    | _ => none
  | .quoteSwap options => some (w.quote none options.isDefault options)
  | .renegotiate j => (w.copies[j]?).map fun copy ↦
      w.quote (some j) true (quoteOptionsForSwap w.claimAmount copy.record)
  | .readFloor i answered =>
    match w.tasks[i]? with
    | some (.quotes caller options) =>
      match answered, w.stored.acceptedQuoteAmount.or w.claimAmount with
      | true, some floor =>
        match resolveEffectiveFloor options floor with
        | .error _ => some (w.endTask i)
        | .ok effectiveFloor =>
          some (w.setTask i (.quoted caller options.isDefault floor effectiveFloor))
      | _, _ => some (w.endTask i)
    | _ => none
  | .post i amount outcome =>
    match w.tasks[i]? with
    | some (.quoted caller isDefault _ effectiveFloor) =>
      match validateQuote amount effectiveFloor, outcome with
      | .error _, _ | .ok _, .refused => some (w.endTask i)
      | .ok amount, .lost =>
        some { w.endTask i with posted := (amount, isDefault) :: w.posted }
      | .ok amount, .answered =>
        some { (w.noteAcceptedQuote amount).setTask i (.records caller amount) with
          posted := (amount, isDefault) :: w.posted }
    | _ => none
  | .readBack i answered =>
    match w.tasks[i]? with
    | some (.records caller amount) =>
      if answered then
        some (w.setTask i (.writes { w.stored with acceptedQuoteAmount := some amount }
          (caller.map fun j ↦ (j, .accepted amount))))
      else
        match caller with
        | none => some (w.endTask i)
        | some j => some (w.setTask i (.mirrors j (.accepted amount)))
    | _ => none
  | .claimed j status txid mirror => some (w.addTask (.updates j ⟨status, some txid⟩ mirror))
  | .rememberClaim j txid => some (w.addTask (.mirrors j (.claim txid)))
  | .update j status => some (w.addTask (.updates j ⟨status, none⟩ false))
  | .readUpdate i answered =>
    match w.tasks[i]? with
    | some (.updates j delta mirror) => (w.copies[j]?).map fun copy ↦
        w.setTask i (.writes (delta.over (if answered then w.stored else copy.record))
          (if mirror then delta.claimTxid.map fun txid ↦ (j, .claim txid) else none))
    | _ => none
  | .land i =>
    match w.tasks[i]? with
    | some (.writes record mirror) =>
      let landed := { w with stored := record, firstClaim := w.firstClaim.or record.claimTxid }
      match mirror with
      | none => some (landed.endTask i)
      | some (j, mirror) => some (landed.setTask i (.mirrors j mirror))
    | _ => none
  | .mirror i =>
    match w.tasks[i]? with
    | some (.mirrors j mirror) => some ((w.modifyCopy j fun record ↦ mirror.onto record).endTask i)
    | _ => none

def NotBelowAgreed (claimAmount : Option ℕ) : ℕ × Bool → List (ℕ × Bool) → Prop
  | (amount, isDefault), before => isDefault = true →
      ∀ agreed, (before.head?.map Prod.fst).or claimAmount = some agreed → agreed ≤ amount

structure Heard where
  quotes : ℕ
  claim : Option String
  deriving DecidableEq

namespace Heard

def nothing : Heard := ⟨0, none⟩

def ofQuotes (heard : Heard) (quotes : ℕ) : Heard := { heard with quotes := quotes }

def ofClaim (heard : Heard) (claim : Option String) : Heard := { heard with claim := claim }

end Heard

/-- What is left when a task ends, those after it moving up. -/
def erased (heards : ℕ → Heard) (i : ℕ) : ℕ → Heard :=
  fun k ↦ if k < i then heards k else heards (k + 1)

/-- What the record has heard of, and each copy, and what each task in progress carries on. -/
structure Ledger where
  stored : Heard
  copies : ℕ → Heard
  tasks : ℕ → Heard

namespace Ledger

variable (l : Ledger) (w t : World)

/-- A copy is taken. -/
def takes (heard : Heard) : Ledger :=
  { l with copies := Function.update l.copies w.copies.length heard }

def begins (heard : Heard) : Ledger :=
  { l with tasks := Function.update l.tasks w.tasks.length heard }

def goesOn (i : ℕ) (heard : Heard) : Ledger :=
  { l with tasks :=
      if t.tasks.length < w.tasks.length then erased l.tasks i
      else Function.update l.tasks i heard }

/-- The copies of the manager hear of a quote that is answered. -/
def notes (quotes : ℕ) : Ledger :=
  { l with copies := fun j ↦
      if (w.copies[j]?).any Copy.monitored then (l.copies j).ofQuotes quotes else l.copies j }

def posts (i : ℕ) : Ledger :=
  if t.tasks.length < w.tasks.length then l.goesOn w t i .nothing
  else (l.notes w t.posted.length).goesOn w t i ⟨t.posted.length, none⟩

/-- A copy is told of a quote or of a claim. -/
def tells (i j : ℕ) : Mirror → Ledger
  | .accepted _ =>
    { l with copies := Function.update l.copies j ((l.copies j).ofQuotes (l.tasks i).quotes) }
  | .claim _ =>
    { l with copies := Function.update l.copies j ((l.copies j).ofClaim (l.tasks i).claim) }

def lands (i : ℕ) : Ledger := { l with stored := l.tasks i }

/-- A step from one world to another. What is read is the record, what is saved is a copy; a quote
is written with what is read after it, and a claim over what is read. -/
def hear : Input → Ledger
  | .hold _ => l.takes w l.stored
  | .fork j _ => l.takes w (l.copies j)
  | .finalize _ => l
  | .status _ _ | .save _ | .quoteSwap _ | .update _ _ => l.begins w .nothing
  | .renegotiate j => l.begins w (l.copies j)
  | .claimed _ _ txid _ | .rememberClaim _ txid => l.begins w ⟨0, some txid⟩
  | .serialise i => match w.tasks[i]? with
    | some (.saves j) => l.goesOn w t i (l.copies j)
    | _ => l
  | .readFloor i _ => l.goesOn w t i l.stored
  | .post i _ _ => l.posts w t i
  | .readBack i _ => l.goesOn w t i (l.stored.ofQuotes (l.tasks i).quotes)
  | .readUpdate i answered => match w.tasks[i]? with
    | some (.updates j _ _) =>
      let base := if answered then l.stored else l.copies j
      l.goesOn w t i (base.ofClaim ((l.tasks i).claim.or base.claim))
    | _ => l
  | .land i => (l.lands i).goesOn w t i (l.tasks i)
  | .mirror i => match w.tasks[i]? with
    | some (.mirrors j mirror) => (l.tells i j mirror).goesOn w t i .nothing
    | _ => l

end Ledger

/-- A world with its ledger beside it. -/
structure Watched where
  world : World
  ledger : Ledger

def Watched.start (claimAmount : Option ℕ) (status : String) : Watched :=
  ⟨.start claimAmount status, .nothing, fun _ ↦ .nothing, fun _ ↦ .nothing⟩

def watch (s : Watched) (input : Input) : Option Watched :=
  (step s.world input).map fun t ↦ ⟨t, s.ledger.hear s.world t input⟩

def Task.Stores : Task → Prop
  | .records _ _ => True
  | .writes _ _ => True
  | _ => False

/-- Another task has yet to write a version that has heard of the last posted quote. -/
def Watched.Carried (s : Watched) (i : ℕ) : Prop :=
  ∃ k ≠ i, ∃ task, s.world.tasks[k]? = some task ∧ task.Stores ∧
    (s.ledger.tasks k).quotes = s.world.posted.length

/-- What lands has heard of the quotes that the record has heard of, unless the last one is yet to
be written, and of the claim on record; a quote is posted at a floor from a version that has heard
of all quotes before it; what was posted is answered and the record can be read then. -/
def Undisturbed (s : Watched) : Input → Prop
  | .land i => (s.ledger.stored.quotes ≤ (s.ledger.tasks i).quotes ∨ s.Carried i) ∧
      (s.ledger.stored.claim = none ∨ (s.ledger.tasks i).claim = s.ledger.stored.claim)
  | .post i _ outcome => outcome ≠ .lost ∧
      ∀ caller floor effectiveFloor,
        s.world.tasks[i]? = some (.quoted caller true floor effectiveFloor) →
          (s.ledger.tasks i).quotes = s.world.posted.length
  | .readBack _ answered => answered = true
  | _ => True

end ArkadeSdk.QuoteRecord
