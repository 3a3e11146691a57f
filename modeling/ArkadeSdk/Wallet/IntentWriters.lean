import ArkadeSdk.Wallet.IntentRecords

/-! What settlements and passes of `reconcileIntents` write, and under which conditions. -/

namespace ArkadeSdk.IntentRecords

open JsNumber BatchTree Batch

variable {w : Wallet}

/-- The server takes no intent over an output that is settled or that another intent is over, a
batch of others settles none of these, and the indexer names no commitment that it does not know. -/
def Fair (w : Wallet) (s : State) : Input → Prop
  | .accepts id => id ∉ s.server.live ∧ ∀ o ∈ w.inputs id, s.server.settled o = none ∧
      ∀ other ∈ s.server.live, o ∉ w.inputs other
  | .settles outpoint _ => s.server.settled outpoint = none ∧
      ∀ other ∈ s.server.live, outpoint ∉ w.inputs other
  | .pass _ (.fetched (some vtxos) _) => ∀ e ∈ vtxos, ∀ txid,
      e.2.settledBy = some txid → s.server.settled e.1 = some txid
  | _ => True

def Unfinished (rows : Rows) (id : IntentTxId) : Prop :=
  ∀ row, JsMap.get rows id = some row → isTerminalIntentState row.state = false

def After.Abandoned : After → Prop
  | .delete _ | .throw => True
  | _ => False

/-- A settlement that can neither register its intent nor join a batch any more. -/
def Phase.Abandoned : Phase → Prop
  | .reading _ after | .saving _ after => after.Abandoned
  | .deleting _ => True
  | _ => False

/-- Every input is reported to be gone. -/
def AllConsumed (told : Told) (intent : ArkIntent) : Prop :=
  intent.intentVtxos ≠ [] ∧ ∀ o ∈ intent.intentVtxos, isConsumed (JsMap.get told o) = true

/-- One commitment transaction is reported to have settled every input. -/
def SettledByOne (told : Told) (intent : ArkIntent) : Prop :=
  ∃ txid, ∀ o ∈ intent.intentVtxos, ∃ coin,
    JsMap.get told o = some coin ∧ coin.settledBy = some txid

/-- The settlement has read its record and not saved it yet. -/
def Phase.Holds : Phase → Prop
  | .saving _ _ => True
  | _ => False

/-- The pass has read the record of `id` and not saved it yet. -/
def Pass.Holds (id : IntentTxId) : Pass → Prop
  | .saving next _ _ _ => next.intentTxId = id
  | _ => False

/-- The repository works where the first record is written and where a success is, and no record of
an earlier intent is in the way of the first one. -/
def ReadCondition (rows : Rows) (id : IntentTxId) (ok : Bool) : After → Prop
  | .check => ok = true ∧ Unfinished rows id
  | .commit _ => ok = true
  | _ => True

def WriteCondition (ok : Bool) : After → Prop
  | .check | .commit _ => ok = true
  | _ => True

def EventCondition (server : Server) (id : IntentTxId) (batch : Batch.State) :
    SettlementEvent → Prop
  | .batchFailed _ => id ∉ server.live
  | .batchFinalized _ => batch.step = .batchFinalization → id ∉ server.live
  | _ => True

/-- A settlement saves while no pass holds the record, and the deletion of an intent that the server
holds is acknowledged. -/
def SettleCondition (s : State) (id : IntentTxId) : Phase → Answer → Prop
  | .reading _ after, .read ok _ => ReadCondition s.rows id ok after
  | .saving _ after, .saved ok => WriteCondition ok after ∧
      (ok = true → ∀ pass ∈ s.passes, ¬pass.Holds id)
  | .joining _ batch, .event _ event _ _ => EventCondition s.server id batch event
  | .deleting _, .deleted ok => ok = true ∨ id ∉ s.server.live
  | _, _ => True

/-- A pass is told of inputs that are all gone only where one batch took them, and it saves while no
other writer holds the record. A record that still waits to be submitted, with inputs that are not
all gone, it finds only where the server does not hold the intent and its settlement has given
up. -/
def PassCondition (s : State) (k : ℕ) : Pass → PassAnswer → Prop
  | .fetching intents, .fetched (some vtxos) _ => ∀ intent ∈ intents,
      AllConsumed (toldOf vtxos) intent → SettledByOne (toldOf vtxos) intent
  | .saving next _ told _, .saved true =>
      (∀ j pass, s.passes[j]? = some pass → j ≠ k → ¬pass.Holds next.intentTxId) ∧
      (∀ phase, s.settle = some (next.intentTxId, phase) → ¬phase.Holds) ∧
      ∀ row, JsMap.get s.rows next.intentTxId = some row → row.state = .waitingToSubmit →
        ¬AllConsumed told row → next.intentTxId ∉ s.server.live ∧
          ∀ phase, s.settle = some (next.intentTxId, phase) → phase.Abandoned
  | _, _ => True

/-- Above all, no save comes between another writer's read and its save, and no registration arrives
that nobody waits for. -/
def Condition (s : State) : Input → Prop
  | .settle answer => ∀ id phase, s.settle = some (id, phase) → SettleCondition s id phase answer
  | .pass k answer => ∀ pass, s.passes[k]? = some pass → PassCondition s k pass answer
  | .accepts id => ∃ again, s.settle = some (id, .registering again)
  | _ => True

def Ok (w : Wallet) (s : State) (i : Input) : Prop := Fair w s i ∧ Condition s i

/-- A record of the intent, as `settle` makes them. -/
structure Sound (w : Wallet) (row : ArkIntent) : Prop where
  inputs : row.intentVtxos = w.inputs row.intentTxId
  validUntil : row.validUntil = none

def Succeeded (rows : Rows) (id : IntentTxId) : Prop :=
  ∃ row, JsMap.get rows id = some row ∧ row.state = .batchSucceeded

def Consumed (w : Wallet) (server : Server) (id : IntentTxId) : Prop :=
  w.inputs id ≠ [] ∧ ∀ o ∈ w.inputs id, (server.settled o).isSome = true

/-- A record that says where the intent is: under way, or settled for all to see. -/
def Tracks (w : Wallet) (server : Server) (id : IntentTxId) (state : ArkIntentState) : Prop :=
  isTerminalIntentState state = false ∨ state = .batchSucceeded ∧ Consumed w server id

def Tracked (w : Wallet) (rows : Rows) (server : Server) (id : IntentTxId) : Prop :=
  ∃ row, JsMap.get rows id = some row ∧ Tracks w server id row.state

/-- What the server has said of an output stays. -/
def Grows (server server' : Server) : Prop :=
  ∀ o txid, server.settled o = some txid → server'.settled o = some txid

theorem Grows.refl (server : Server) : Grows server server := fun _ _ h ↦ h

theorem Consumed.grows {server server' : Server} {id : IntentTxId} (h : Consumed w server id)
    (hgrows : Grows server server') : Consumed w server' id := by
  refine ⟨h.1, fun o ho ↦ ?_⟩
  obtain ⟨txid, htxid⟩ := Option.isSome_iff_exists.mp (h.2 o ho)
  rw [hgrows o txid htxid]
  rfl

theorem Tracked.grows {rows : Rows} {server server' : Server} {id : IntentTxId}
    (h : Tracked w rows server id) (hgrows : Grows server server') :
    Tracked w rows server' id := by
  obtain ⟨row, hrow, htracks⟩ := h
  refine ⟨row, hrow, ?_⟩
  rcases htracks with hopen | ⟨hstate, hconsumed⟩
  · exact .inl hopen
  · exact .inr ⟨hstate, hconsumed.grows hgrows⟩

theorem Tracked.saved {rows : Rows} {server : Server} {id : IntentTxId} {next : ArkIntent}
    (h : Tracked w rows server id)
    (hnext : next.intentTxId = id → Tracks w server id next.state) :
    Tracked w (JsMap.set next.intentTxId next rows) server id := by
  by_cases hid : next.intentTxId = id
  · refine ⟨next, ?_, hnext hid⟩
    rw [JsMap.get_set, if_pos hid]
  · obtain ⟨row, hrow, htracks⟩ := h
    refine ⟨row, ?_, htracks⟩
    rwa [JsMap.get_set, if_neg hid]

theorem tracked_set {rows : Rows} {server : Server} {next : ArkIntent}
    (h : Tracks w server next.intentTxId next.state) :
    Tracked w (JsMap.set next.intentTxId next rows) server next.intentTxId := by
  refine ⟨next, ?_, h⟩
  rw [JsMap.get_set, if_pos rfl]

theorem Succeeded.saved {rows : Rows} {id : IntentTxId} {next : ArkIntent} (h : Succeeded rows id)
    (hopen : Unfinished rows next.intentTxId) :
    Succeeded (JsMap.set next.intentTxId next rows) id := by
  obtain ⟨row, hrow, hstate⟩ := h
  by_cases hid : next.intentTxId = id
  · rw [hid] at hopen
    have hnot := hopen row hrow
    rw [hstate] at hnot
    cases hnot
  · refine ⟨row, ?_, hstate⟩
    rwa [JsMap.get_set, if_neg hid]

theorem Unfinished.saved {rows : Rows} {id : IntentTxId} {next : ArkIntent}
    (h : Unfinished rows id) (hne : next.intentTxId ≠ id) :
    Unfinished (JsMap.set next.intentTxId next rows) id := by
  intro row hrow
  rw [JsMap.get_set, if_neg hne] at hrow
  exact h row hrow

def Write.target : Write → ArkIntentState
  | .persistIntentSnapshot patch => patch.state
  | .persistTransition _ event => reduceIntentState .waitingToSubmit event

theorem applySettlementEventToIntent_ok {intent next : ArkIntent} {batchId : String}
    {event : SettlementEvent} (h : applySettlementEventToIntent intent batchId event = some next) :
    next.intentTxId = intent.intentTxId ∧ next.intentVtxos = intent.intentVtxos ∧
      next.validUntil = intent.validUntil ∧
      next.state = reduceIntentState .waitingToSubmit event := by
  unfold applySettlementEventToIntent at h
  dsimp only at h
  split at h
  · cases h
  · rename_i hmoves
    have hopen : isTerminalIntentState intent.state = false := by
      by_contra hterminal
      exact hmoves (by simp [reduceIntentState, hterminal])
    cases event <;> simp [reduceIntentState, hopen] at hmoves h <;> subst h <;>
      simp [reduceIntentState, isTerminalIntentState]

theorem Write.next_ok {write : Write} {id : IntentTxId} {now : ℤ} {existing : Option ArkIntent}
    {next : ArkIntent} (hrow : ∀ row, existing = some row → row.intentTxId = id ∧ Sound w row)
    (h : write.next w id now existing = some next) :
    next.intentTxId = id ∧ Sound w next ∧ next.state = write.target := by
  cases write with
  | persistIntentSnapshot patch =>
    dsimp only [Write.next] at h
    split at h
    · cases h
    · obtain rfl := Option.some.inj h
      refine ⟨rfl, ⟨rfl, ?_⟩, rfl⟩
      cases existing with
      | none => rfl
      | some row => exact (hrow row rfl).2.validUntil
  | persistTransition batchId event =>
    obtain ⟨row, hsome, h⟩ := Option.bind_eq_some_iff.mp h
    obtain ⟨hid, hsound⟩ := hrow row hsome
    obtain ⟨hid', hinputs, hvalid, hstate⟩ := applySettlementEventToIntent_ok h
    refine ⟨hid'.trans hid, ⟨?_, ?_⟩, hstate⟩
    · rw [hinputs, hsound.inputs, hid']
    · rw [hvalid, hsound.validUntil]

theorem Write.next_unfinished {write : Write} {rows : Rows} {id : IntentTxId} {now : ℤ}
    {next : ArkIntent} (h : write.next w id now (JsMap.get rows id) = some next) :
    Unfinished rows id := by
  intro row hrow
  rw [hrow] at h
  by_contra hterminal
  rw [Bool.not_eq_false] at hterminal
  cases write with
  | persistIntentSnapshot patch => simp [Write.next, hterminal] at h
  | persistTransition batchId event =>
    simp [Write.next, applySettlementEventToIntent, reduceIntentState, hterminal] at h

/-- A write to an end is left out only over a record that has ended. -/
theorem Write.next_none {write : Write} {id : IntentTxId} {now : ℤ} {row : ArkIntent}
    (htarget : isTerminalIntentState write.target = true)
    (h : write.next w id now (some row) = none) : isTerminalIntentState row.state = true := by
  by_contra hopen
  rw [Bool.not_eq_true] at hopen
  cases write with
  | persistIntentSnapshot patch => simp [Write.next, hopen] at h
  | persistTransition batchId event =>
    have happly : applySettlementEventToIntent row batchId event = none := h
    have hstate : reduceIntentState row.state event = row.state := by
      unfold applySettlementEventToIntent at happly
      dsimp only at happly
      split at happly
      · assumption
      · cases happly
    have hsame : reduceIntentState row.state event = reduceIntentState .waitingToSubmit event ∨
        reduceIntentState .waitingToSubmit event = .waitingToSubmit := by
      have hwaiting : isTerminalIntentState .waitingToSubmit = false := rfl
      cases event <;> simp [reduceIntentState, hopen, hwaiting]
    rcases hsame with hsame | hsame
    · rw [Write.target, ← hsame, hstate, hopen] at htarget
      cases htarget
    · rw [Write.target, hsame] at htarget
      cases htarget

/-- What a write that is about to be made must be for what comes after it. -/
def Fits (w : Wallet) (rows : Rows) (server : Server) (id : IntentTxId) (target : ArkIntentState) :
    After → Prop
  | .check => isTerminalIntentState target = false
  | .join _ | .resume _ _ => isTerminalIntentState target = false ∧ Tracked w rows server id
  | .commit _ => target = .batchSucceeded ∧ Tracked w rows server id ∧ id ∉ server.live
  | .delete _ | .throw => id ∉ server.live

def PhaseOk (w : Wallet) (rows : Rows) (server : Server) (id : IntentTxId) : Phase → Prop
  | .reading write after => Fits w rows server id write.target after ∧
      (after = .check → ∃ patch, write = .persistIntentSnapshot patch)
  | .saving next after => next.intentTxId = id ∧ Sound w next ∧ Unfinished rows id ∧
      Fits w rows server id next.state after
  | .checking | .registering _ | .releasing | .joining _ _ => Tracked w rows server id
  | .storing _ => Succeeded rows id ∧ id ∉ server.live
  | .deleting _ => True

/-- What must hold once the write is over. -/
def Done (w : Wallet) (rows : Rows) (server : Server) (id : IntentTxId) : After → Prop
  | .check | .join _ | .resume _ _ => Tracked w rows server id
  | .commit _ => Succeeded rows id ∧ id ∉ server.live
  | .delete _ | .throw => True

theorem Done.phaseOk {rows : Rows} {server : Server} {id : IntentTxId} {after : After}
    {phase : Phase} (h : Done w rows server id after) (hphase : after.phase = some phase) :
    PhaseOk w rows server id phase := by
  cases after with
  | check | join | resume | commit | delete =>
    cases hphase
    exact h
  | throw => cases hphase

section Preservation

variable {rows : Rows} {server server' : Server} {id : IntentTxId} {phase : Phase}

theorem Fits.grows {target : ArkIntentState} {after : After}
    (h : Fits w rows server id target after)
    (hlive : id ∈ server'.live → id ∈ server.live) (hgrows : Grows server server') :
    Fits w rows server' id target after := by
  cases after with
  | check => exact h
  | join | resume => exact ⟨h.1, h.2.grows hgrows⟩
  | commit => exact ⟨h.1, h.2.1.grows hgrows, fun hmem ↦ h.2.2 (hlive hmem)⟩
  | delete | throw => exact fun hmem ↦ h (hlive hmem)

theorem PhaseOk.grows (h : PhaseOk w rows server id phase)
    (hlive : id ∈ server'.live → id ∈ server.live) (hgrows : Grows server server') :
    PhaseOk w rows server' id phase := by
  cases phase with
  | reading => exact ⟨h.1.grows hlive hgrows, h.2⟩
  | saving =>
    obtain ⟨hid, hsound, hopen, hfits⟩ := h
    exact ⟨hid, hsound, hopen, hfits.grows hlive hgrows⟩
  | checking | registering | releasing | joining => exact Tracked.grows h hgrows
  | storing => exact ⟨h.1, fun hmem ↦ h.2 (hlive hmem)⟩
  | deleting => trivial

variable {next : ArkIntent}

theorem Fits.saved {target : ArkIntentState} {after : After}
    (h : Fits w rows server id target after)
    (hnext : next.intentTxId = id → after.Abandoned ∨ Tracks w server id next.state) :
    Fits w (JsMap.set next.intentTxId next rows) server id target after := by
  cases after with
  | check => exact h
  | join | resume => exact ⟨h.1, h.2.saved fun hid ↦ (hnext hid).resolve_left fun h ↦ h⟩
  | commit => exact ⟨h.1, h.2.1.saved fun hid ↦ (hnext hid).resolve_left fun h ↦ h, h.2.2⟩
  | delete | throw => exact h

theorem PhaseOk.saved (h : PhaseOk w rows server id phase)
    (hopen : Unfinished rows next.intentTxId) (hfree : next.intentTxId = id → ¬phase.Holds)
    (hnext : next.intentTxId = id → phase.Abandoned ∨ Tracks w server id next.state) :
    PhaseOk w (JsMap.set next.intentTxId next rows) server id phase := by
  cases phase with
  | reading => exact ⟨h.1.saved hnext, h.2⟩
  | saving written after =>
    obtain ⟨hid, hsound, hunfinished, hfits⟩ := h
    have hne : next.intentTxId ≠ id := fun heq ↦ hfree heq trivial
    exact ⟨hid, hsound, hunfinished.saved hne, hfits.saved hnext⟩
  | checking | registering | releasing | joining =>
    exact Tracked.saved h fun hid ↦ (hnext hid).resolve_left fun h ↦ h
  | storing => exact ⟨h.1.saved hopen, h.2⟩
  | deleting => trivial

end Preservation

theorem Fits.done {rows : Rows} {server : Server} {id : IntentTxId} {next : ArkIntent}
    {after : After} {ok : Bool} (h : Fits w rows server id next.state after)
    (hid : next.intentTxId = id)
    (hwrite : WriteCondition ok after) :
    Done w (if ok then JsMap.set next.intentTxId next rows else rows) server id after := by
  subst hid
  cases after with
  | check =>
    obtain rfl : ok = true := hwrite
    exact tracked_set (.inl h)
  | join | resume =>
    cases ok with
    | true => exact tracked_set (.inl h.1)
    | false => exact h.2
  | commit =>
    obtain rfl : ok = true := hwrite
    refine ⟨⟨next, ?_, h.1⟩, h.2.2⟩
    rw [if_pos rfl, JsMap.get_set, if_pos rfl]
  | delete | throw => trivial

def Truthful (server : Server) (told : Told) : Prop :=
  ∀ o coin txid, JsMap.get told o = some coin → coin.settledBy = some txid →
    server.settled o = some txid

theorem Truthful.grows {server server' : Server} {told : Told} (h : Truthful server told)
    (hgrows : Grows server server') : Truthful server' told :=
  fun o coin txid hcoin htxid ↦ hgrows o txid (h o coin txid hcoin htxid)

theorem mem_of_toldOf {vtxos : List (Outpoint × IndexedCoin)} {o : Outpoint} {coin : IndexedCoin}
    (h : JsMap.get (toldOf vtxos) o = some coin) : (o, coin) ∈ vtxos := by
  have hfold (told : Told)
      (h : JsMap.get (vtxos.foldl (fun told e ↦ JsMap.set e.1 e.2 told) told) o = some coin) :
      JsMap.get told o = some coin ∨ (o, coin) ∈ vtxos := by
    clear * - h
    induction vtxos generalizing told with
    | nil => exact .inl h
    | cons e vtxos ih =>
      rcases ih _ h with hget | hmem
      · rw [JsMap.get_set] at hget
        split at hget
        · rename_i hkey
          obtain rfl := Option.some.inj hget
          subst hkey
          exact .inr List.mem_cons_self
        · exact .inl hget
      · exact .inr (List.mem_cons_of_mem _ hmem)
  rcases hfold [] h with hnil | hmem
  · cases hnil
  · exact hmem

/-- What a pass may save over a record in the state `seen`. -/
structure Verdict (w : Wallet) (told : Told) (seen : ArkIntentState) (next : ArkIntent) : Prop where
  sound : Sound w next
  unfinished : isTerminalIntentState seen = false
  ends : next.state = .batchSucceeded ∧ next.intentVtxos ≠ [] ∧ SettledByOne told next ∨
    next.state = .cancelled ∧ seen = .waitingToSubmit ∧ ¬AllConsumed told next

theorem classifyIntent_ok {intent next : ArkIntent} {told : Told} {now : ℤ}
    (hsound : Sound w intent) (hone : AllConsumed told intent → SettledByOne told intent)
    (h : classifyIntent intent told now = some next) : Verdict w told intent.state next := by
  unfold classifyIntent at h
  dsimp only at h
  split_ifs at h with hterminal hconsumed hwaiting hexpired
  · obtain rfl := Option.some.inj h
    have hall : AllConsumed told intent := ⟨hconsumed.1, by simpa using hconsumed.2⟩
    exact ⟨⟨hsound.inputs, hsound.validUntil⟩, Bool.eq_false_iff.mpr hterminal,
      .inl ⟨rfl, hconsumed.1, hone hall⟩⟩
  · obtain rfl := Option.some.inj h
    have hnot : ¬AllConsumed told intent := by
      intro hall
      exact hconsumed ⟨hall.1, by simpa using hall.2⟩
    exact ⟨⟨hsound.inputs, hsound.validUntil⟩, Bool.eq_false_iff.mpr hterminal,
      .inr ⟨rfl, hwaiting, hnot⟩⟩
  · rw [hsound.validUntil] at hexpired
    cases hexpired

/-- An intent that a pass has still to look at. -/
structure Listed (w : Wallet) (told : Told) (intent : ArkIntent) : Prop where
  sound : Sound w intent
  one : AllConsumed told intent → SettledByOne told intent

def PassOk (w : Wallet) (rows : Rows) (server : Server) : Pass → Prop
  | .listing | .ended => True
  | .fetching intents => ∀ intent ∈ intents, Sound w intent
  | .refreshing seen next rest told _ => Verdict w told seen next ∧
      (∀ intent ∈ rest, Listed w told intent) ∧ Truthful server told
  | .saving next rest told _ =>
      (∃ row, JsMap.get rows next.intentTxId = some row ∧ Verdict w told row.state next) ∧
      (∀ intent ∈ rest, Listed w told intent) ∧ Truthful server told

theorem PassOk.grows {rows : Rows} {server server' : Server} {pass : Pass}
    (h : PassOk w rows server pass) (hgrows : Grows server server') :
    PassOk w rows server' pass := by
  cases pass with
  | listing | ended => trivial
  | fetching => exact h
  | refreshing | saving => exact ⟨h.1, h.2.1, h.2.2.grows hgrows⟩

theorem PassOk.saved {rows : Rows} {server : Server} {pass : Pass} {next : ArkIntent}
    (h : PassOk w rows server pass) (hfree : ¬pass.Holds next.intentTxId) :
    PassOk w (JsMap.set next.intentTxId next rows) server pass := by
  cases pass with
  | listing | ended => trivial
  | fetching | refreshing => exact h
  | saving written rest told now =>
    obtain ⟨⟨row, hrow, hverdict⟩, hrest⟩ := h
    refine ⟨⟨row, ?_, hverdict⟩, hrest⟩
    rwa [JsMap.get_set, if_neg fun heq ↦ hfree heq.symm]

theorem loop_ok {rows : Rows} {server : Server} {told : Told} {now : ℤ} {intents : List ArkIntent}
    (hlisted : ∀ intent ∈ intents, Listed w told intent) (htold : Truthful server told) :
    PassOk w rows server (.loop told now intents) := by
  induction intents with
  | nil => trivial
  | cons intent rest ih =>
    obtain ⟨hfirst, hrest⟩ := List.forall_mem_cons.mp hlisted
    unfold Pass.loop
    split
    · exact ih hrest
    · rename_i next hnext
      exact ⟨classifyIntent_ok hfirst.sound hfirst.one hnext, hrest, htold⟩

theorem loop_not_holds (told : Told) (now : ℤ) (intents : List ArkIntent) (id : IntentTxId) :
    ¬(Pass.loop told now intents).Holds id := by
  induction intents with
  | nil => exact fun h ↦ h
  | cons intent rest ih =>
    unfold Pass.loop
    split
    · exact ih
    · exact fun h ↦ h

theorem passStep_ok {s : State} {k : ℕ} {pass pass' : Pass} {answer : PassAnswer}
    {saved : Option ArkIntent} (hrows : ∀ e ∈ s.rows, Sound w e.2)
    (hfair : Fair w s (.pass k answer)) (hcond : PassCondition s k pass answer)
    (hpass : PassOk w s.rows s.server pass)
    (h : passStep s.rows pass answer = some (pass', saved)) :
    PassOk w s.rows s.server pass' ∧ ∀ next, saved = some next →
      (∀ id, ¬pass'.Holds id) ∧
        ∃ rest told now, pass = .saving next rest told now ∧ answer = .saved true := by
  unfold passStep at h
  split at h
  · obtain ⟨rfl, rfl⟩ := Prod.mk.inj (Option.some.inj h)
    exact ⟨trivial, fun _ h ↦ (by cases h)⟩
  · rename_i intents now
    split at h
    · rename_i hperm
      have hsound : ∀ intent ∈ intents, Sound w intent := by
        intro intent hintent
        have hmem := (List.mem_filter.mp (hperm.subset hintent)).1
        obtain ⟨e, he, rfl⟩ := List.mem_map.mp hmem
        exact hrows e he
      split at h
      · rename_i hnone
        obtain ⟨rfl, rfl⟩ := Prod.mk.inj (Option.some.inj h)
        refine ⟨loop_ok (fun intent hintent ↦ ⟨hsound intent hintent, ?_⟩)
          fun _ _ _ h ↦ (by cases h), fun _ h ↦ (by cases h)⟩
        intro hall
        exact absurd (List.flatMap_eq_nil_iff.mp hnone intent hintent) hall.1
      · obtain ⟨rfl, rfl⟩ := Prod.mk.inj (Option.some.inj h)
        exact ⟨hsound, fun _ h ↦ (by cases h)⟩
    · cases h
  · obtain ⟨rfl, rfl⟩ := Prod.mk.inj (Option.some.inj h)
    exact ⟨trivial, fun _ h ↦ (by cases h)⟩
  · rename_i intents vtxos now
    obtain ⟨rfl, rfl⟩ := Prod.mk.inj (Option.some.inj h)
    refine ⟨loop_ok (fun intent hintent ↦ ⟨hpass intent hintent, hcond intent hintent⟩) ?_,
      fun _ h ↦ (by cases h)⟩
    intro o coin txid hcoin htxid
    exact hfair (o, coin) (mem_of_toldOf hcoin) txid htxid
  · rename_i seen next rest told now ok
    split at h
    · rename_i hfresh
      obtain ⟨rfl, rfl⟩ := Prod.mk.inj (Option.some.inj h)
      obtain ⟨row, hrow, hseen⟩ := (Option.any_eq_true _ _).mp ((Bool.and_eq_true _ _).mp hfresh).2
      refine ⟨⟨⟨row, hrow, ?_⟩, hpass.2⟩, fun _ h ↦ (by cases h)⟩
      rw [of_decide_eq_true hseen]
      exact hpass.1
    · obtain ⟨rfl, rfl⟩ := Prod.mk.inj (Option.some.inj h)
      exact ⟨loop_ok hpass.2.1 hpass.2.2, fun _ h ↦ (by cases h)⟩
  · rename_i next rest told now ok
    obtain ⟨rfl, rfl⟩ := Prod.mk.inj (Option.some.inj h)
    refine ⟨loop_ok hpass.2.1 hpass.2.2, ?_⟩
    intro saved hsaved
    cases ok with
    | true =>
      obtain rfl := Option.some.inj hsaved
      exact ⟨loop_not_holds told now rest, rest, told, now, rfl, rfl⟩
    | false => cases hsaved
  · cases h

end ArkadeSdk.IntentRecords
