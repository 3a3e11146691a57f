import ArkadeSdk.Wallet.ReceiveRotator

/-! The receive address that a rotating wallet shows is registered, and a restart shows it again or
a later one, in every run whose rotations find no row of another kind and no clock that is behind
the rows of earlier rotations. -/

namespace ArkadeSdk.ReceiveRotator

open JsMap LabelledRun

/-- The script of a rotation has its own row, tagged and with the descriptor of its owner, and is
watched. -/
def Displayed (w : Wallet) : Prop :=
  w.offchainTapscript.owner ≠ 0 →
    ∃ contract, get w.rows w.offchainTapscript = some contract ∧ contract.active = true ∧
      contract.metadata = ⟨true, some w.offchainTapscript.owner⟩ ∧
      w.offchainTapscript ∈ w.watched

def Exclusive (w : Wallet) : Prop :=
  ∀ i j a b, w.stageOf i = some a → w.stageOf j = some b → i = j

/-- A process that stops here and boots for the same server key and contract shape shows the same
script, or a later one that has a row. -/
def Restarts (w : Wallet) : Prop :=
  ∀ boardingTapscript s,
    exec step (.running w) [.stop, .boot w.offchainTapscript.serverPubKey
      w.offchainTapscript.csvTimelock w.offchainTapscript.delegatePubKey boardingTapscript] =
        some s →
    ∃ w', s = .running w' ∧
      (w'.offchainTapscript = w.offchainTapscript ∨
        w.offchainTapscript.owner < w'.offchainTapscript.owner ∧
          (get w.rows w'.offchainTapscript).isSome = true)

/-- No receive address of an earlier index, for the same server key and type, is newer. -/
def Newest (rows : Rows) (d : Tapscript) (createdAt : ℤ) : Prop :=
  ∀ row ∈ rows, isReceive d.serverPubKey d.type row = true → row.1.owner < d.owner →
    row.2.createdAt ≤ createdAt

/-- The receive addresses for the same server key and type differ from this one by their owner. -/
def Alike (rows : Rows) (d : Tapscript) : Prop :=
  ∀ row ∈ rows, isReceive d.serverPubKey d.type row = true → row.1 = { d with owner := row.1.owner }

/-- A row that is there already is the one that would be written, and is watched. -/
def Matches (w : Wallet) (params : CreateContractParams) (existing : Contract) : Prop :=
  existing.active = true ∧ existing.type = params.type ∧ existing.metadata = params.metadata ∧
    params.script ∈ w.watched ∧ Newest w.rows params.script existing.createdAt

def Clear (w : Wallet) (params : CreateContractParams) (now : ℤ) : Prop :=
  Alike w.rows params.script ∧
    match get w.rows params.script with
    | some existing => Matches w params existing
    | none => Newest w.rows params.script now

def rotatorOk : State → Event → Prop
  | .running w, .looked i now =>
    ∀ job params, w.stageOf i = some (job, .looking params) → Clear w params now
  | .running w, .otherSaved k =>
    ∀ params createdAt, w.looks[k]? = some (params, createdAt) → get w.rows params.script = none
  | .running w, .unwatch script => get w.rows script = none
  | .stopped s, .boot serverPubKey csvTimelock delegatePubKey _ =>
    Alike s.rows ⟨0, serverPubKey, csvTimelock, delegatePubKey⟩
  | _, _ => True

theorem type_ne_boarding (d : Tapscript) : d.type ≠ .boarding := by
  unfold Tapscript.type
  split
  · exact fun h ↦ by cases h
  · exact fun h ↦ by cases h

theorem isReceive_iff {serverPubKey : String} {type : ContractType} {row : Tapscript × Contract} :
    isReceive serverPubKey type row = true ↔
      row.2.type = type ∧ row.2.active = true ∧ row.1.serverPubKey = serverPubKey ∧
        row.2.metadata.source = true := by
  simp [isReceive, and_assoc]

def Quiet (rows rows' : Rows) : Prop :=
  ∀ row ∈ rows', row ∈ rows ∨
    ∀ serverPubKey type, type ≠ .boarding → isReceive serverPubKey type row = false

section

variable {rows rows' : Rows} {d t : Tapscript} {c c' : ℤ} {contract : Contract}

theorem Newest.quiet (h : Newest rows d c) (hq : Quiet rows rows') : Newest rows' d c := by
  intro row hrow hr hlt
  rcases hq row hrow with hold | hnone
  · exact h row hold hr hlt
  · rw [hnone _ _ (type_ne_boarding d)] at hr
    cases hr

theorem Alike.quiet (h : Alike rows d) (hq : Quiet rows rows') : Alike rows' d := by
  intro row hrow hr
  rcases hq row hrow with hold | hnone
  · exact h row hold hr
  · rw [hnone _ _ (type_ne_boarding d)] at hr
    cases hr

theorem quiet_set (hc : contract.metadata.source = true → contract.type = .boarding) :
    Quiet rows (set t contract rows) := by
  intro row hrow
  rcases mem_set hrow with hold | rfl
  · exact .inl hold
  · refine .inr fun serverPubKey type hne ↦ Bool.eq_false_iff.mpr fun hr ↦ ?_
    obtain ⟨htype, -, -, hsource⟩ := isReceive_iff.mp hr
    exact hne (htype.symm.trans (hc hsource))

theorem quiet_retire (hc : contract.active = false) : Quiet rows (set t contract rows) := by
  intro row hrow
  rcases mem_set hrow with hold | rfl
  · exact .inl hold
  · refine .inr fun serverPubKey type _ ↦ Bool.eq_false_iff.mpr fun hr ↦ ?_
    obtain ⟨-, hactive, -⟩ := isReceive_iff.mp hr
    rw [hc] at hactive
    cases hactive

theorem Newest.set (h : Newest rows d c)
    (hle : t.serverPubKey = d.serverPubKey → d.owner ≤ t.owner) :
    Newest (set t contract rows) d c := by
  intro row hrow hr hlt
  rcases mem_set hrow with hold | rfl
  · exact h row hold hr hlt
  · obtain ⟨-, -, hserver, -⟩ := isReceive_iff.mp hr
    exact absurd hlt (not_lt.mpr (hle hserver))

theorem Alike.set (h : Alike rows d)
    (ht : t.serverPubKey = d.serverPubKey → t = { d with owner := t.owner }) :
    Alike (set t contract rows) d := by
  intro row hrow hr
  rcases mem_set hrow with hold | rfl
  · exact h row hold hr
  · obtain ⟨-, -, hserver, -⟩ := isReceive_iff.mp hr
    exact ht hserver

/-- The script has its own row, which no earlier address outranks. -/
def Registered (rows : Rows) (t : Tapscript) : Prop :=
  ∃ contract, get rows t = some contract ∧ contract.active = true ∧
    contract.metadata = ⟨true, some t.owner⟩ ∧ contract.type = t.type ∧
    Newest rows t contract.createdAt

theorem Registered.quiet (h : Registered rows t) (hq : Quiet rows rows')
    (hget : get rows' t = get rows t) : Registered rows' t := by
  obtain ⟨contract, hrow, hactive, hmeta, htype, hnewest⟩ := h
  exact ⟨contract, hget.trans hrow, hactive, hmeta, htype, hnewest.quiet hq⟩

theorem Registered.isSome (h : Registered rows t) : (get rows t).isSome = true := by
  obtain ⟨contract, hrow, -⟩ := h
  rw [hrow]
  rfl

theorem Registered.ne_none (h : Registered rows t) : get rows t ≠ none :=
  Option.isSome_iff_ne_none.mp h.isSome

/-- A receive address that is registered is one for its own server key and type. -/
theorem Registered.row (h : Registered rows t) :
    ∃ contract, (t, contract) ∈ rows ∧ isReceive t.serverPubKey t.type (t, contract) = true ∧
      contract.metadata.signingDescriptor = some t.owner ∧
      Newest rows t contract.createdAt := by
  obtain ⟨contract, hrow, hactive, hmeta, htype, hnewest⟩ := h
  refine ⟨contract, mem_of_get hrow, isReceive_iff.mpr ⟨htype, hactive, rfl, ?_⟩, ?_, hnewest⟩
  · rw [hmeta]
  · rw [hmeta]

end

/-- Whatever is not queued has only settled tasks before it. -/
def Ordered (tasks : List Task) : Prop :=
  ∀ (i : ℕ) task, tasks[i]? = some task → task.phase ≠ .queued →
    ∀ j, j < i → ∀ earlier, tasks[j]? = some earlier → earlier.phase = .settled

/-- It is this task's turn: those before it have settled, and those after it are queued. -/
structure Turn (tasks : List Task) (i : ℕ) : Prop where
  before : ∀ j : ℕ, j < i → ∀ task, tasks[j]? = some task → task.phase = .settled
  after : ∀ j : ℕ, i < j → ∀ task, tasks[j]? = some task → task.phase = .queued

section

variable {w w' : Wallet} {i j : ℕ} {a b : Job × Stage}

theorem stageOf_iff : w.stageOf i = some a ↔ w.tasks[i]? = some ⟨a.1, .running a.2⟩ := by
  unfold Wallet.stageOf
  constructor
  · intro h
    split at h
    case h_1 htask =>
      cases h
      exact htask
    case h_2 => cases h
  · intro h
    rw [h]

theorem Ordered.exclusive (h : Ordered w.tasks) : Exclusive w := by
  intro i j a b hi hj
  have hti := stageOf_iff.mp hi
  have htj := stageOf_iff.mp hj
  rcases Nat.lt_trichotomy i j with hlt | heq | hlt
  · have hsettled := h j _ htj (fun hq ↦ by cases hq) i hlt _ hti
    cases hsettled
  · exact heq
  · have hsettled := h i _ hti (fun hq ↦ by cases hq) j hlt _ htj
    cases hsettled

theorem Ordered.turn_of_running (h : Ordered w.tasks) (hi : w.stageOf i = some a) :
    Turn w.tasks i where
  before j hj task ht := h i _ (stageOf_iff.mp hi) (fun hq ↦ by cases hq) j hj task ht
  after j hj task ht := by
    by_contra hq
    have hsettled := h j task ht hq i hj _ (stageOf_iff.mp hi)
    cases hsettled

theorem isSettled_iff {phase : Phase} : phase.isSettled = true ↔ phase = .settled := by
  cases phase <;> simp [Phase.isSettled]

theorem Ordered.turn_of_ready {job : Job} (h : Ordered w.tasks)
    (hi : w.tasks[i]? = some ⟨job, .queued⟩) (hready : w.ready i = true) : Turn w.tasks i where
  before j hj task ht := by
    have hprevious : w.tasks[i - 1]?.any (·.phase.isSettled) = true := by
      rcases (Bool.or_eq_true _ _).mp hready with hzero | hprev
      · have hzero := of_decide_eq_true hzero
        omega
      · exact hprev
    obtain ⟨prev, hprev, hsettled⟩ := (Option.any_eq_true _ _).mp hprevious
    have hsettled := isSettled_iff.mp hsettled
    by_cases hj' : j = i - 1
    · rw [← hj', ht] at hprev
      cases hprev
      exact hsettled
    · refine h (i - 1) prev hprev (fun hq ↦ ?_) j (by omega) task ht
      rw [hsettled] at hq
      cases hq
  after j hj task ht := by
    by_contra hq
    have hsettled := h j task ht hq i hj _ hi
    cases hsettled

theorem getElem?_enter {phase : Phase} {task : Task}
    (h : (w.enter i phase).tasks[j]? = some task) :
    (i ≠ j ∧ w.tasks[j]? = some task) ∨ (i = j ∧ task.phase = phase) := by
  rw [Wallet.enter, List.getElem?_modify] at h
  obtain ⟨before, hbefore, rfl⟩ := Option.map_eq_some_iff.mp h
  by_cases hij : i = j
  · exact .inr ⟨hij, by rw [if_pos hij]⟩
  · rw [if_neg hij]
    exact .inl ⟨hij, hbefore⟩

theorem Turn.ordered {phase : Phase} (h : Turn w.tasks i) : Ordered (w.enter i phase).tasks := by
  intro k task hk hq j hj earlier he
  rcases getElem?_enter he with ⟨hij, he⟩ | ⟨rfl, -⟩
  · rcases getElem?_enter hk with ⟨hik, hk⟩ | ⟨rfl, -⟩
    · rcases Nat.lt_or_gt_of_ne hik with hlt | hgt
      · exact absurd (h.after k hlt task hk) hq
      · exact h.before j (by omega) earlier he
    · exact h.before j hj earlier he
  · rcases getElem?_enter hk with ⟨-, hk⟩ | ⟨rfl, -⟩
    · exact absurd (h.after k hj task hk) hq
    · exact absurd hj (lt_irrefl _)

theorem Turn.stageOf {phase : Phase} {job : Job} {stage : Stage} (h : Turn w.tasks i)
    (htasks : w'.tasks = (w.enter i phase).tasks) (hj : w'.stageOf j = some (job, stage)) :
    phase = .running stage := by
  have htask := stageOf_iff.mp hj
  rw [htasks] at htask
  rcases getElem?_enter htask with ⟨hij, htask⟩ | ⟨-, hphase⟩
  · rcases Nat.lt_or_gt_of_ne hij with hlt | hgt
    · have hqueued := h.after j hlt _ htask
      cases hqueued
    · have hsettled := h.before j hgt _ htask
      cases hsettled
  · exact hphase.symm

end

/-- A tagged row carries the descriptor of its owner, and a receive address has an index of the
stream. -/
structure Owned (s : Store) : Prop where
  nodup : (s.rows.map Prod.fst).Nodup
  descriptor : ∀ row ∈ s.rows, row.2.metadata.source = true →
    row.2.metadata.signingDescriptor = some row.1.owner
  allotted : ∀ row ∈ s.rows, row.2.metadata.source = true → row.2.type ≠ .boarding →
    ∃ last, s.lastIndexUsed = some last ∧ row.1.owner ≤ last

section

variable (s : Store) (d : Tapscript) (watched : List Tapscript)

/-- The script differs from the one that is shown by a later index or another server key. -/
structure Near (t : Tapscript) : Prop where
  alike : t = { d with owner := t.owner, serverPubKey := t.serverPubKey }
  later : d.owner ≤ t.owner
  allotted : ∃ last, s.lastIndexUsed = some last ∧ t.owner ≤ last

structure Fits (params : CreateContractParams) : Prop where
  near : Near s d params.script
  type : params.type = params.script.type
  tagged : params.script.owner ≠ 0 → params.metadata.source = true
  descriptor : params.metadata.source = true →
    params.metadata.signingDescriptor = some params.script.owner

structure Next (t : Tapscript) : Prop where
  near : Near s d t
  alike : Alike s.rows t
  registered : t.owner ≠ 0 → Registered s.rows t

def StageOk : Stage → Prop
  | .looking params => Fits s d params
  | .saving params createdAt =>
    Fits s d params ∧ Newest s.rows params.script createdAt ∧ Alike s.rows params.script
  | .watching script => Next s d script
  | .boarding newOffchain => Next s d newOffchain ∧ (newOffchain.owner ≠ 0 → newOffchain ∈ watched)
  | .retiring previousTagged => previousTagged ≠ d
  | .allocating | .reading _ | .refilling => True

structure Core (looks : List (CreateContractParams × ℤ)) : Prop where
  owned : Owned s
  allotted : ∃ last, s.lastIndexUsed = some last ∧ d.owner ≤ last
  alike : Alike s.rows d
  registered : d.owner ≠ 0 → Registered s.rows d
  watched : d.owner ≠ 0 → d ∈ watched
  looks : ∀ look ∈ looks, look.1.metadata.source = true →
    look.1.type = .boarding ∧ look.1.metadata.signingDescriptor = some look.1.script.owner

end

structure Sound (w : Wallet) : Prop where
  core : Core w.toStore w.offchainTapscript w.watched w.looks
  ordered : Ordered w.tasks
  stages : ∀ i job stage, w.stageOf i = some (job, stage) →
    StageOk w.toStore w.offchainTapscript w.watched stage

section

variable {w w' : Wallet} {i : ℕ}

theorem Sound.of_turn {p : Phase}
    (hcore : Core w'.toStore w'.offchainTapscript w'.watched w'.looks) (hturn : Turn w.tasks i)
    (htasks : w'.tasks = (w.enter i p).tasks)
    (hstage : ∀ stage, p = .running stage →
      StageOk w'.toStore w'.offchainTapscript w'.watched stage) : Sound w' where
  core := hcore
  ordered := by
    rw [htasks]
    exact hturn.ordered
  stages _ _ stage hj := hstage stage (hturn.stageOf htasks hj)

theorem Sound.of_same (h : Sound w)
    (hcore : Core w'.toStore w'.offchainTapscript w'.watched w'.looks)
    (htasks : w'.tasks = w.tasks)
    (hstage : ∀ stage, StageOk w.toStore w.offchainTapscript w.watched stage →
      StageOk w'.toStore w'.offchainTapscript w'.watched stage) : Sound w' where
  core := hcore
  ordered := by
    rw [htasks]
    exact h.ordered
  stages i job stage hi := by
    apply hstage
    apply h.stages i job
    rw [stageOf_iff] at hi ⊢
    rw [← htasks]
    exact hi

theorem Sound.enqueue (h : Sound w) (job : Job) : Sound (w.enqueue job) where
  core := h.core
  ordered i task hi hq j hj earlier he := by
    have hlt : i < w.tasks.length := by
      obtain ⟨hlt, -⟩ := List.getElem?_eq_some_iff.mp hi
      rw [Wallet.enqueue, List.length_append, List.length_singleton] at hlt
      by_contra hge
      obtain rfl : i = w.tasks.length := by omega
      rw [Wallet.enqueue, List.getElem?_concat_length] at hi
      cases hi
      exact hq rfl
    rw [Wallet.enqueue, List.getElem?_append_left hlt] at hi
    rw [Wallet.enqueue, List.getElem?_append_left (by omega)] at he
    exact h.ordered i task hi hq j hj earlier he
  stages i job' stage hi := by
    apply h.stages i job'
    rw [stageOf_iff] at hi ⊢
    rw [Wallet.enqueue, List.getElem?_append] at hi
    split at hi
    · exact hi
    · have htask := List.mem_singleton.mp (List.mem_of_getElem? hi)
      cases htask

theorem Sound.settle (h : Sound w) (hturn : Turn w.tasks i) : Sound (w.enter i .settled) :=
  .of_turn (p := .settled) h.core hturn rfl fun stage hs ↦ by cases hs

theorem Sound.fail (h : Sound w) (hturn : Turn w.tasks i) (now : ℤ) (job : Job) :
    Sound (w.fail i now job) := by
  cases job with
  | rotate => exact .of_turn (p := .settled) h.core hturn rfl fun stage hs ↦ by cases hs
  | signer newServerPubKey => exact h.settle hturn

theorem Sound.finish (h : Sound w) (hturn : Turn w.tasks i) (job : Job) :
    Sound (w.finish i job) := by
  cases job with
  | rotate => exact .of_turn (p := .settled) h.core hturn rfl fun stage hs ↦ by cases hs
  | signer newServerPubKey => exact h.settle hturn

theorem Sound.begin (h : Sound w) (hturn : Turn w.tasks i) (now : ℤ) (job : Job) :
    Sound (w.begin i now job) := by
  cases job with
  | rotate =>
    unfold Wallet.begin
    dsimp only
    split
    · exact h.settle hturn
    · refine .of_turn h.core hturn rfl fun stage hs ↦ ?_
      cases hs
      trivial
  | signer newServerPubKey =>
    unfold Wallet.begin
    dsimp only
    split
    · exact h.settle hturn
    · refine .of_turn h.core hturn rfl fun stage hs ↦ ?_
      cases hs
      trivial

/-- The stream has moved on. -/
structure Advanced (s s' : Store) : Prop where
  rows : s'.rows = s.rows
  index : ∀ last, s.lastIndexUsed = some last →
    ∃ last', s'.lastIndexUsed = some last' ∧ last ≤ last'

section

variable {s s' : Store} {d : Tapscript} {watched : List Tapscript}
  {looks : List (CreateContractParams × ℤ)}

theorem Advanced.bound {k : ℕ} (h : Advanced s s')
    (hk : ∃ last, s.lastIndexUsed = some last ∧ k ≤ last) :
    ∃ last, s'.lastIndexUsed = some last ∧ k ≤ last := by
  obtain ⟨last, hlast, hle⟩ := hk
  obtain ⟨last', hlast', hle'⟩ := h.index last hlast
  exact ⟨last', hlast', hle.trans hle'⟩

theorem Near.advanced {t : Tapscript} (h : Near s d t) (ha : Advanced s s') : Near s' d t :=
  ⟨h.alike, h.later, ha.bound h.allotted⟩

theorem Owned.advanced (h : Owned s) (ha : Advanced s s') : Owned s' where
  nodup := by
    rw [ha.rows]
    exact h.nodup
  descriptor := by
    rw [ha.rows]
    exact h.descriptor
  allotted := by
    rw [ha.rows]
    intro row hrow hsource hne
    exact ha.bound (h.allotted row hrow hsource hne)

theorem Core.advanced (h : Core s d watched looks) (ha : Advanced s s') :
    Core s' d watched looks where
  owned := h.owned.advanced ha
  allotted := ha.bound h.allotted
  alike := by
    rw [ha.rows]
    exact h.alike
  registered := by
    rw [ha.rows]
    exact h.registered
  watched := h.watched
  looks := h.looks

theorem Fits.advanced {params : CreateContractParams} (h : Fits s d params)
    (ha : Advanced s s') : Fits s' d params :=
  ⟨h.near.advanced ha, h.type, h.tagged, h.descriptor⟩

theorem Next.advanced {t : Tapscript} (h : Next s d t) (ha : Advanced s s') : Next s' d t where
  near := h.near.advanced ha
  alike := by
    rw [ha.rows]
    exact h.alike
  registered := by
    rw [ha.rows]
    exact h.registered

theorem StageOk.advanced (ha : Advanced s s') {stage : Stage} (h : StageOk s d watched stage) :
    StageOk s' d watched stage := by
  cases stage with
  | looking params => exact Fits.advanced h ha
  | saving params createdAt =>
    obtain ⟨hfits, hnewest, halike⟩ := h
    refine ⟨hfits.advanced ha, ?_, ?_⟩
    · rw [ha.rows]
      exact hnewest
    · rw [ha.rows]
      exact halike
  | watching script => exact Next.advanced h ha
  | boarding newOffchain => exact ⟨h.1.advanced ha, h.2⟩
  | retiring previousTagged => exact h
  | allocating => trivial
  | reading newServerPubKey => trivial
  | refilling => trivial

theorem advanced_next : Advanced s { s with lastIndexUsed := some s.nextIndex } where
  rows := rfl
  index last hlast := by
    refine ⟨_, rfl, ?_⟩
    rw [Store.nextIndex, hlast]
    exact Nat.le_succ last

theorem advanced_max (index : ℕ) : Advanced s { s with lastIndexUsed := s.advanced index } where
  rows := rfl
  index last hlast := by
    refine ⟨max last index, ?_, le_max_left _ _⟩
    simp only [Store.advanced, hlast]

end

section

variable {s s' : Store} {d : Tapscript} {watched watched' : List Tapscript}
  {looks : List (CreateContractParams × ℤ)}

/-- Rows that are no receive addresses were written, beside those that are looked at. -/
structure Beside (s s' : Store) (watched watched' : List Tapscript) : Prop where
  quiet : Quiet s.rows s'.rows
  index : s'.lastIndexUsed = s.lastIndexUsed
  owned : Owned s → Owned s'
  watched : ∀ t ∈ watched, t ∈ watched'

theorem Near.beside {t : Tapscript} (h : Near s d t) (hb : Beside s s' watched watched') :
    Near s' d t where
  alike := h.alike
  later := h.later
  allotted := by
    rw [hb.index]
    exact h.allotted

theorem Core.beside (h : Core s d watched looks) (hb : Beside s s' watched watched')
    (hd : d.owner ≠ 0 → get s'.rows d = get s.rows d) : Core s' d watched' looks where
  owned := hb.owned h.owned
  allotted := by
    rw [hb.index]
    exact h.allotted
  alike := h.alike.quiet hb.quiet
  registered hne := (h.registered hne).quiet hb.quiet (hd hne)
  watched hne := hb.watched d (h.watched hne)
  looks := h.looks

theorem Next.beside {t : Tapscript} (h : Next s d t) (hb : Beside s s' watched watched')
    (ht : t.owner ≠ 0 → get s'.rows t = get s.rows t) : Next s' d t where
  near := h.near.beside hb
  alike := h.alike.quiet hb.quiet
  registered hne := (h.registered hne).quiet hb.quiet (ht hne)

theorem StageOk.beside (hb : Beside s s' watched watched') {stage : Stage}
    (hrow : ∀ t, (get s.rows t).isSome = true → get s'.rows t = get s.rows t)
    (h : StageOk s d watched stage) : StageOk s' d watched' stage := by
  cases stage with
  | looking params =>
    have hfits : Fits s d params := h
    exact ⟨hfits.near.beside hb, hfits.type, hfits.tagged, hfits.descriptor⟩
  | saving params createdAt =>
    obtain ⟨hfits, hnewest, halike⟩ := h
    exact ⟨⟨hfits.near.beside hb, hfits.type, hfits.tagged, hfits.descriptor⟩,
      hnewest.quiet hb.quiet, halike.quiet hb.quiet⟩
  | watching script =>
    have hnext : Next s d script := h
    exact hnext.beside hb fun hne ↦ hrow _ (hnext.registered hne).isSome
  | boarding newOffchain =>
    obtain ⟨hnext, hwatched⟩ := h
    exact ⟨hnext.beside hb fun hne ↦ hrow _ (hnext.registered hne).isSome,
      fun hne ↦ hb.watched _ (hwatched hne)⟩
  | retiring previousTagged => exact h
  | allocating => trivial
  | reading newServerPubKey => trivial
  | refilling => trivial

theorem Owned.set {t : Tapscript} {contract : Contract} (h : Owned s)
    (hdesc : contract.metadata.source = true →
      contract.metadata.signingDescriptor = some t.owner)
    (hindex : contract.metadata.source = true → contract.type ≠ .boarding →
      ∃ last, s.lastIndexUsed = some last ∧ t.owner ≤ last) :
    Owned { s with rows := set t contract s.rows } where
  nodup := nodup_set h.nodup t contract
  descriptor row hrow hsource := by
    rcases mem_set hrow with hold | rfl
    · exact h.descriptor row hold hsource
    · exact hdesc hsource
  allotted row hrow hsource hne := by
    rcases mem_set hrow with hold | rfl
    · exact h.allotted row hold hsource hne
    · exact hindex hsource hne

theorem beside_new {t : Tapscript} (contract : Contract) (s : Store) (watched : List Tapscript)
    (hcontract : contract.metadata.source = true →
      contract.type = .boarding ∧ contract.metadata.signingDescriptor = some t.owner) :
    Beside s { s with rows := set t contract s.rows } watched (t :: watched) where
  quiet := quiet_set fun hsource ↦ (hcontract hsource).1
  index := rfl
  owned ho := ho.set (fun hsource ↦ (hcontract hsource).2)
    fun hsource hne ↦ absurd (hcontract hsource).1 hne
  watched _ ht := List.mem_cons_of_mem _ ht

theorem get_new {t t' : Tapscript} {contract : Contract} {rows : Rows}
    (hnone : get rows t = none) (h : (get rows t').isSome = true) :
    get (set t contract rows) t' = get rows t' := by
  rw [get_set, if_neg]
  rintro rfl
  rw [hnone] at h
  cases h

theorem beside_retired {t : Tapscript} {contract : Contract} (watched : List Tapscript)
    (ht : get s.rows t = some contract) :
    Beside s { s with rows := set t { contract with active := false } s.rows }
      watched watched where
  quiet := quiet_retire rfl
  index := rfl
  owned ho := ho.set (ho.descriptor _ (mem_of_get ht)) (ho.allotted _ (mem_of_get ht))
  watched _ ht := ht

theorem registered_saved {params : CreateContractParams} {createdAt : ℤ}
    (hfits : Fits s d params) (hnewest : Newest s.rows params.script createdAt)
    (hne : params.script.owner ≠ 0) :
    Registered (set params.script (params.toContract createdAt) s.rows) params.script := by
  have hsource := hfits.tagged hne
  have hdesc := hfits.descriptor hsource
  refine ⟨params.toContract createdAt, ?_, rfl, ?_, hfits.type, hnewest.set fun _ ↦ le_rfl⟩
  · rw [get_set, if_pos rfl]
  · change params.metadata = _
    rw [← hsource, ← hdesc]

theorem Core.saved {params : CreateContractParams} {createdAt : ℤ}
    (h : Core s d watched looks) (hfits : Fits s d params)
    (hnewest : Newest s.rows params.script createdAt) :
    Core { s with rows := set params.script (params.toContract createdAt) s.rows }
      d watched looks where
  owned := h.owned.set hfits.descriptor fun _ _ ↦ hfits.near.allotted
  allotted := h.allotted
  alike := by
    refine h.alike.set fun hserver ↦ ?_
    have halike := hfits.near.alike
    rw [hserver] at halike
    exact halike
  registered hne := by
    by_cases heq : params.script = d
    · subst heq
      exact registered_saved hfits hnewest hne
    · obtain ⟨contract, hrow, hactive, hmeta, htype, hn⟩ := h.registered hne
      refine ⟨contract, ?_, hactive, hmeta, htype, hn.set fun _ ↦ hfits.near.later⟩
      rw [get_set, if_neg heq]
      exact hrow
  watched := h.watched
  looks := h.looks

theorem Next.saved {params : CreateContractParams} {createdAt : ℤ} (hfits : Fits s d params)
    (hnewest : Newest s.rows params.script createdAt) (halike : Alike s.rows params.script) :
    Next { s with rows := set params.script (params.toContract createdAt) s.rows } d
      params.script where
  near := ⟨hfits.near.alike, hfits.near.later, hfits.near.allotted⟩
  alike := halike.set fun _ ↦ rfl
  registered := registered_saved hfits hnewest

theorem Core.swap {t : Tapscript} (h : Core s d watched looks) (hn : Next s d t)
    (hw : t.owner ≠ 0 → t ∈ watched) : Core s t watched looks :=
  ⟨h.owned, hn.near.allotted, hn.alike, hn.registered, hw, h.looks⟩

end

theorem Sound.created {t : Tapscript} (h : Sound w) (hturn : Turn w.tasks i) (job : Job)
    (hn : Next w.toStore w.offchainTapscript t) (hw : t.owner ≠ 0 → t ∈ w.watched) :
    Sound (w.created i job t) := by
  have hswapped := h.core.swap hn hw
  unfold Wallet.created
  cases job with
  | signer newServerPubKey =>
    refine .of_turn h.core hturn rfl fun stage hs ↦ ?_
    cases hs
    exact ⟨hn, hw⟩
  | rotate =>
    dsimp only
    split
    · refine .of_turn (p := .running .refilling) hswapped hturn rfl fun stage hs ↦ ?_
      cases hs
      trivial
    · split
      · refine .of_turn (p := .running .refilling) hswapped hturn rfl fun stage hs ↦ ?_
        cases hs
        trivial
      case isFalse hne =>
        refine .of_turn (p := .running (.retiring _)) hswapped hturn rfl fun stage hs ↦ ?_
        cases hs
        exact hne

theorem Wallet.nextIndex_gt {last k : ℕ} (hlast : w.lastIndexUsed = some last) (hk : k ≤ last) :
    k < w.nextIndex := by
  rw [Store.nextIndex, hlast]
  exact Nat.lt_succ_of_le hk

theorem fits_receive (h : Sound w) :
    Fits { w.toStore with lastIndexUsed := some w.nextIndex } w.offchainTapscript
      (buildReceiveContract w.offchainTapscript w.nextIndex true) where
  near :=
    { alike := rfl
      later := by
        obtain ⟨last, hlast, hle⟩ := h.core.allotted
        exact (Wallet.nextIndex_gt hlast hle).le
      allotted := ⟨_, rfl, le_rfl⟩ }
  type := rfl
  tagged _ := rfl
  descriptor _ := rfl

/-- A change of the server key keeps the owner, and the metadata of its row. -/
theorem fits_signer (h : Sound w) (newServerPubKey : String) :
    Fits w.toStore w.offchainTapscript (w.signerContract newServerPubKey) where
  near := ⟨rfl, le_rfl, h.core.allotted⟩
  type := rfl
  tagged hne := by
    obtain ⟨contract, hrow, -, hmeta, -⟩ := h.core.registered hne
    rw [Wallet.signerContract, hrow]
    change contract.metadata.source = true
    rw [hmeta]
  descriptor hsource := by
    unfold Wallet.signerContract at hsource ⊢
    dsimp only at hsource ⊢
    cases hrow : get w.rows w.offchainTapscript with
    | none =>
      rw [hrow] at hsource
      cases hsource
    | some contract =>
      rw [hrow] at hsource
      exact h.core.owned.descriptor _ (mem_of_get hrow) hsource

theorem Sound.looked {now : ℤ} {job : Job} {params : CreateContractParams} (h : Sound w)
    (hturn : Turn w.tasks i) (hfits : Fits w.toStore w.offchainTapscript params)
    (hclear : Clear w params now) {existing : Contract}
    (hrow : get w.rows params.script = some existing) : Sound (w.created i job params.script) := by
  obtain ⟨halike, hmatches⟩ := hclear
  rw [hrow] at hmatches
  obtain ⟨hactive, htype, hmeta, hwatched, hnewest⟩ := hmatches
  refine h.created hturn job ⟨hfits.near, halike, fun hne ↦ ?_⟩ fun _ ↦ hwatched
  have hsource := hfits.tagged hne
  refine ⟨existing, hrow, hactive, ?_, htype.trans hfits.type, hnewest⟩
  rw [hmeta, ← hsource, ← hfits.descriptor hsource]

/-- The boarding contract of the new server key has the metadata of the current one's row. -/
theorem boardingContract_own (h : Sound w) (serverPubKey : String) (now : ℤ)
    (hsource : ((w.boardingContract serverPubKey).toContract now).metadata.source = true) :
    ((w.boardingContract serverPubKey).toContract now).type = .boarding ∧
      ((w.boardingContract serverPubKey).toContract now).metadata.signingDescriptor =
        some (w.boardingContract serverPubKey).script.owner := by
  refine ⟨rfl, ?_⟩
  unfold CreateContractParams.toContract Wallet.boardingContract at hsource ⊢
  dsimp only at hsource ⊢
  cases hrow : get w.rows w.boardingTapscript with
  | none =>
    rw [hrow] at hsource
    cases hsource
  | some contract =>
    rw [hrow] at hsource
    exact h.core.owned.descriptor _ (mem_of_get hrow) hsource

theorem Sound.commitSigner {t : Tapscript} (h : Sound w) (hturn : Turn w.tasks i) (now : ℤ)
    (hn : Next w.toStore w.offchainTapscript t) (hw : t.owner ≠ 0 → t ∈ w.watched) :
    Sound (w.commitSigner i now t) := by
  have hswapped := h.core.swap hn hw
  unfold Wallet.commitSigner
  dsimp only
  split
  · refine .of_turn (p := .running .refilling) hswapped hturn rfl fun stage hs ↦ ?_
    cases hs
    trivial
  case h_2 hnone =>
    have hb := beside_new _ w.toStore w.watched (boardingContract_own h t.serverPubKey now)
    have hcore := hswapped.beside hb fun hne ↦ get_new hnone (hn.registered hne).isSome
    refine .of_turn (p := .running .refilling) hcore hturn rfl fun stage hs ↦ ?_
    cases hs
    trivial

theorem Sound.retired {t : Tapscript} {contract : Contract} {fault : Option ℤ} {job : Job}
    (h : Sound w) (hturn : Turn w.tasks i) (hne : t ≠ w.offchainTapscript)
    (hrow : get w.rows t = some contract) :
    Sound (match fault with
      | some now => { w.fail i now job with
          rows := set t { contract with active := false } w.rows }
      | none => { w.enter i (.running .refilling) with
          rows := set t { contract with active := false } w.rows
          currentTaggedScript := some w.offchainTapscript }) := by
  have hb := beside_retired w.watched hrow
  have hcore := h.core.beside hb fun _ ↦ by rw [get_set, if_neg hne]
  cases fault with
  | none =>
    refine .of_turn (p := .running .refilling) hcore hturn rfl fun stage hs ↦ ?_
    cases hs
    trivial
  | some now =>
    cases job with
    | rotate => exact .of_turn (p := .settled) hcore hturn rfl fun stage hs ↦ by cases hs
    | signer newServerPubKey =>
      exact .of_turn (p := .settled) hcore hturn rfl fun stage hs ↦ by cases hs

theorem Sound.otherSaved {params : CreateContractParams} {createdAt : ℤ} {k : ℕ} (h : Sound w)
    (hk : w.looks[k]? = some (params, createdAt)) (hnone : get w.rows params.script = none) :
    Sound { w with
      rows := set params.script (params.toContract createdAt) w.rows
      watched := params.script :: w.watched
      looks := w.looks.eraseIdx k } := by
  have hlook := h.core.looks _ (List.mem_of_getElem? hk)
  have hb := beside_new (params.toContract createdAt) w.toStore w.watched hlook
  have hcore := h.core.beside hb fun hne ↦ get_new hnone (h.core.registered hne).isSome
  refine h.of_same ⟨hcore.owned, hcore.allotted, hcore.alike, hcore.registered, hcore.watched,
    fun look hl ↦ h.core.looks look (List.mem_of_mem_eraseIdx hl)⟩ rfl ?_
  exact fun stage hstage ↦ hstage.beside hb fun t ht ↦ get_new hnone ht

theorem Sound.look {params : CreateContractParams} {now : ℤ} (h : Sound w)
    (hparams : params.metadata.source = true →
      params.type = .boarding ∧ params.metadata.signingDescriptor = some params.script.owner) :
    Sound { w with looks := w.looks ++ [(params, now)] } := by
  refine h.of_same ⟨h.core.owned, h.core.allotted, h.core.alike, h.core.registered,
    h.core.watched, fun look hl ↦ ?_⟩ rfl fun _ hstage ↦ hstage
  rcases List.mem_append.mp hl with hold | hnew
  · exact h.core.looks look hold
  · rw [List.mem_singleton.mp hnew]
    exact hparams

theorem mem_unwatched {rows : Rows} {watched : List Tapscript} {script t : Tapscript}
    (hnone : get rows script = none) (hrow : get rows t ≠ none) (ht : t ∈ watched) :
    t ∈ watched.filter (· ≠ script) := by
  refine List.mem_filter.mpr ⟨ht, decide_eq_true ?_⟩
  rintro rfl
  exact hrow hnone

theorem Sound.unwatch {script : Tapscript} (h : Sound w) (hnone : get w.rows script = none) :
    Sound { w with watched := w.watched.filter (· ≠ script) } := by
  refine h.of_same ⟨h.core.owned, h.core.allotted, h.core.alike, h.core.registered,
    fun hne ↦ ?_, h.core.looks⟩ rfl fun stage hstage ↦ ?_
  · exact mem_unwatched hnone (h.core.registered hne).ne_none (h.core.watched hne)
  · cases stage with
    | boarding newOffchain =>
      obtain ⟨hnext, hwatched⟩ := hstage
      exact ⟨hnext, fun hne ↦ mem_unwatched hnone (hnext.registered hne).ne_none (hwatched hne)⟩
    | looking params => exact hstage
    | saving params createdAt => exact hstage
    | watching script => exact hstage
    | retiring previousTagged => exact hstage
    | allocating => trivial
    | reading newServerPubKey => trivial
    | refilling => trivial

theorem Sound.step {e : Event} (h : Sound w) (hok : rotatorOk (.running w) e)
    (hs : w.step e = some w') : Sound w' := by
  unfold Wallet.step at hs
  cases e with
  | received contractScript =>
    cases hs
    split
    · exact h.enqueue .rotate
    · exact h
  | signer newServerPubKey =>
    cases hs
    split
    · exact h
    · exact h.enqueue (.signer newServerPubKey)
  | start i now =>
    dsimp only at hs
    split at hs
    case h_1 job hi =>
      split at hs
      case isTrue hready =>
        cases hs
        exact h.begin (h.ordered.turn_of_ready hi hready) now job
      case isFalse => cases hs
    case h_2 => cases hs
  | allocated i =>
    dsimp only at hs
    split at hs
    case h_1 job hi =>
      cases hs
      have hcore := h.core.advanced advanced_next
      refine .of_turn (p := .running (.looking _)) hcore (h.ordered.turn_of_running hi) rfl
        fun stage hst ↦ ?_
      cases hst
      have hfits := fits_receive h
      exact hfits
    case h_2 => cases hs
  | read i =>
    dsimp only at hs
    split at hs
    case h_1 job newServerPubKey hi =>
      cases hs
      refine .of_turn h.core (h.ordered.turn_of_running hi) rfl fun stage hst ↦ ?_
      cases hst
      exact fits_signer h newServerPubKey
    case h_2 => cases hs
  | looked i now =>
    dsimp only at hs
    split at hs
    case h_1 job params hi =>
      have hturn := h.ordered.turn_of_running hi
      have hfits : Fits w.toStore w.offchainTapscript params := h.stages i job _ hi
      have hclear : Clear w params now := hok job params hi
      split at hs
      case h_1 hnone =>
        cases hs
        refine .of_turn h.core hturn rfl fun stage hst ↦ ?_
        cases hst
        obtain ⟨halike, hnewest⟩ := hclear
        rw [hnone] at hnewest
        exact ⟨hfits, hnewest, halike⟩
      case h_2 existing hrow =>
        split at hs
        · cases hs
          exact h.looked hturn hfits hclear hrow
        · cases hs
          exact h.fail hturn now job
    case h_2 => cases hs
  | saved i =>
    dsimp only at hs
    split at hs
    case h_1 job params createdAt hi =>
      cases hs
      obtain ⟨hfits, hnewest, halike⟩ := h.stages i job _ hi
      refine .of_turn (p := .running (.watching _)) (h.core.saved hfits hnewest)
        (h.ordered.turn_of_running hi) rfl fun stage hst ↦ ?_
      cases hst
      exact Next.saved hfits hnewest halike
    case h_2 => cases hs
  | watched i =>
    dsimp only at hs
    split at hs
    case h_1 job script hi =>
      cases hs
      have hn : Next w.toStore w.offchainTapscript script := h.stages i job _ hi
      have hwatching : Sound { w with watched := script :: w.watched } := by
        refine h.of_same ⟨h.core.owned, h.core.allotted, h.core.alike, h.core.registered,
          fun hne ↦ List.mem_cons_of_mem _ (h.core.watched hne), h.core.looks⟩ rfl ?_
        intro stage hstage
        cases stage with
        | boarding newOffchain =>
          exact ⟨hstage.1, fun hne ↦ List.mem_cons_of_mem _ (hstage.2 hne)⟩
        | looking params => exact hstage
        | saving params createdAt => exact hstage
        | watching script => exact hstage
        | retiring previousTagged => exact hstage
        | allocating => trivial
        | reading newServerPubKey => trivial
        | refilling => trivial
      exact hwatching.created (h.ordered.turn_of_running hi) job hn fun _ ↦ List.mem_cons_self
    case h_2 => cases hs
  | boarded i now =>
    dsimp only at hs
    split at hs
    case h_1 job newOffchain hi =>
      cases hs
      obtain ⟨hn, hw⟩ := h.stages i job _ hi
      exact h.commitSigner (h.ordered.turn_of_running hi) now hn hw
    case h_2 => cases hs
  | retired i fault =>
    dsimp only at hs
    split at hs
    case h_1 job previousTagged hi =>
      obtain ⟨contract, hrow, rfl⟩ := Option.map_eq_some_iff.mp hs
      exact h.retired (h.ordered.turn_of_running hi) (h.stages i job _ hi) hrow
    case h_2 => cases hs
  | refilled i =>
    dsimp only at hs
    split at hs
    case h_1 job hi =>
      cases hs
      exact h.finish (h.ordered.turn_of_running hi) job
    case h_2 => cases hs
  | failed i now =>
    dsimp only at hs
    split at hs
    case h_1 => cases hs
    case h_2 => cases hs
    case h_3 job stage _ hi =>
      cases hs
      exact h.fail (h.ordered.turn_of_running hi) now job
  | allocate =>
    cases hs
    exact h.of_same (h.core.advanced advanced_next) rfl fun _ hstage ↦
      hstage.advanced advanced_next
  | advance index =>
    cases hs
    exact h.of_same (h.core.advanced (advanced_max index)) rfl fun _ hstage ↦
      hstage.advanced (advanced_max index)
  | look params now =>
    dsimp only at hs
    split at hs
    · cases hs
      exact h
    · split at hs
      · cases hs
      case isFalse hno =>
        cases hs
        refine h.look fun hsource ↦ ?_
        simpa [hsource] using hno
  | otherSaved k =>
    dsimp only at hs
    split at hs
    case h_1 => cases hs
    case h_2 params createdAt hk =>
      cases hs
      exact h.otherSaved hk (hok params createdAt hk)
  | newBoarding tapscript =>
    cases hs
    exact h.of_same h.core rfl fun _ hstage ↦ hstage
  | unwatch script =>
    cases hs
    exact h.unwatch hok
  | stop => cases hs
  | boot serverPubKey csvTimelock delegatePubKey boardingTapscript => cases hs

end

section

variable {rows : Rows} {d t : Tapscript} {serverPubKey : String} {type : ContractType}

instance : Std.Total newer where
  total a b := by
    unfold newer
    omega

instance : IsTrans (Tapscript × Contract) newer where
  trans a b c hab hbc := by
    unfold newer at hab hbc ⊢
    omega

/-- The row that is picked is one of the candidates, and none of them is newer. -/
theorem pickActiveReceive_some (h : pickActiveReceive rows serverPubKey type = some t) :
    ∃ contract, (t, contract) ∈ rows ∧ isReceive serverPubKey type (t, contract) = true ∧
      ∀ row ∈ rows, isReceive serverPubKey type row = true → newer (t, contract) row := by
  obtain ⟨⟨t', contract⟩, hhead, rfl⟩ := Option.map_eq_some_iff.mp h
  have hmem {row : Tapscript × Contract} :
      row ∈ (rows.filter (isReceive serverPubKey type)).insertionSort newer ↔
        row ∈ rows ∧ isReceive serverPubKey type row = true :=
    (List.mem_insertionSort newer).trans List.mem_filter
  have hsorted := List.pairwise_insertionSort newer (rows.filter (isReceive serverPubKey type))
  obtain ⟨hrow, hreceive⟩ := hmem.mp (List.mem_of_mem_head? hhead)
  refine ⟨contract, hrow, hreceive, fun row hr hrr ↦ ?_⟩
  obtain ⟨rest, hlist⟩ := List.head?_eq_some_iff.mp hhead
  have hrow' := hmem.mpr ⟨hr, hrr⟩
  rw [hlist] at hrow' hsorted
  rcases List.mem_cons.mp hrow' with rfl | hrest
  · exact (total_of newer _ _).elim id id
  · exact (List.pairwise_cons.mp hsorted).1 row hrest

theorem pickActiveReceive_none (h : pickActiveReceive rows serverPubKey type = none) :
    ∀ row ∈ rows, isReceive serverPubKey type row = false := by
  intro row hrow
  have hnil := List.head?_eq_none_iff.mp (Option.map_eq_none_iff.mp h)
  refine Bool.eq_false_iff.mpr fun hr ↦ ?_
  have hmem := (List.mem_insertionSort newer).mpr (List.mem_filter.mpr ⟨hrow, hr⟩)
  rw [hnil] at hmem
  cases hmem

theorem Alike.of_owner (h : Alike rows d) (owner : ℕ) : Alike rows { d with owner := owner } := h

end

theorem registered_of_pick {s : Store} {d t : Tapscript} (ho : Owned s) (ha : Alike s.rows d)
    (h : pickActiveReceive s.rows d.serverPubKey d.type = some t) :
    t = { d with owner := t.owner } ∧ Registered s.rows t ∧
      ∃ last, s.lastIndexUsed = some last ∧ t.owner ≤ last := by
  obtain ⟨contract, hrow, hreceive, hfirst⟩ := pickActiveReceive_some h
  obtain ⟨htype, hactive, -, hsource⟩ := isReceive_iff.mp hreceive
  have halike : t = { d with owner := t.owner } := ha _ hrow hreceive
  have hdesc := ho.descriptor _ hrow hsource
  have hboarding : contract.type ≠ .boarding := fun hb ↦
    type_ne_boarding d (htype.symm.trans hb)
  have hsame : t.serverPubKey = d.serverPubKey ∧ t.type = d.type := by
    rw [halike]
    exact ⟨rfl, rfl⟩
  refine ⟨halike, ⟨contract, get_of_mem ho.nodup hrow, hactive, ?_, ?_, ?_⟩,
    ho.allotted _ hrow hsource hboarding⟩
  · exact Metadata.ext hsource hdesc
  · exact htype.trans hsame.2.symm
  · intro row hr hrr _
    rw [hsame.1, hsame.2] at hrr
    rcases hfirst row hr hrr with hlt | ⟨heq, -⟩
    · exact hlt.le
    · exact heq.le

theorem boot_sound {s : Store} {serverPubKey : String} {csvTimelock : ℕ}
    {delegatePubKey : Option String} (boardingTapscript : Tapscript) (ho : Owned s)
    (ha : Alike s.rows ⟨0, serverPubKey, csvTimelock, delegatePubKey⟩) :
    Sound (boot s serverPubKey csvTimelock delegatePubKey boardingTapscript) where
  core := by
    unfold boot
    dsimp only
    cases hpick : pickActiveReceive s.rows serverPubKey
        (Tapscript.type ⟨0, serverPubKey, csvTimelock, delegatePubKey⟩) with
    | none =>
      have hadvanced : Advanced s { s with lastIndexUsed := some (s.lastIndexUsed.getD 0) } :=
        ⟨rfl, fun last hlast ↦ ⟨last, by rw [hlast, Option.getD_some], le_rfl⟩⟩
      exact ⟨ho.advanced hadvanced, ⟨_, rfl, Nat.zero_le _⟩, ha, fun hne ↦ absurd rfl hne,
        fun hne ↦ absurd rfl hne, fun look hl ↦ by cases hl⟩
    | some t =>
      obtain ⟨halike, hregistered, hallotted⟩ := registered_of_pick ho ha hpick
      have hshown : t.owner ≠ 0 → Registered s.rows ⟨t.owner, serverPubKey, csvTimelock,
          delegatePubKey⟩ := by
        intro _
        rw [halike] at hregistered
        exact hregistered
      refine ⟨ho, hallotted, ha.of_owner t.owner, hshown, fun hne ↦ ?_, fun look hl ↦ by cases hl⟩
      obtain ⟨contract, hrow, -⟩ := hshown hne
      exact List.mem_map_of_mem (f := Prod.fst) (mem_of_get hrow)
  ordered i task hi := by cases hi
  stages i job stage hi := by cases hi

theorem Sound.restarts {w : Wallet} (h : Sound w) : Restarts w := by
  intro boardingTapscript s hs
  cases hs
  refine ⟨_, rfl, ?_⟩
  unfold boot
  dsimp only
  cases hpick : pickActiveReceive w.rows w.offchainTapscript.serverPubKey
      (Tapscript.type ⟨0, w.offchainTapscript.serverPubKey, w.offchainTapscript.csvTimelock,
        w.offchainTapscript.delegatePubKey⟩) with
  | none =>
    left
    have hzero : w.offchainTapscript.owner = 0 := by
      by_contra hne
      obtain ⟨contract, hrow, hreceive, -⟩ := (h.core.registered hne).row
      have hnone := pickActiveReceive_none hpick _ hrow
      exact absurd (hreceive.symm.trans hnone) Bool.noConfusion
    exact Tapscript.ext hzero.symm rfl rfl rfl
  | some t =>
    obtain ⟨halike, hregistered, -⟩ := registered_of_pick h.core.owned h.core.alike hpick
    have hshown : (⟨t.owner, w.offchainTapscript.serverPubKey, w.offchainTapscript.csvTimelock,
        w.offchainTapscript.delegatePubKey⟩ : Tapscript) = t := halike.symm
    have hle : w.offchainTapscript.owner ≤ t.owner := by
      by_cases hzero : w.offchainTapscript.owner = 0
      · omega
      · obtain ⟨contract, hrow, hreceive, hdesc, hnewest⟩ := (h.core.registered hzero).row
        obtain ⟨picked, hpicked, hpreceive, hfirst⟩ := pickActiveReceive_some hpick
        have hpdesc := h.core.owned.descriptor _ hpicked (isReceive_iff.mp hpreceive).2.2.2
        by_contra hlt
        have hold := hnewest _ hpicked hpreceive (not_le.mp hlt)
        rcases hfirst _ hrow hreceive with hlater | ⟨-, hindex⟩
        · exact absurd hold (not_le.mpr hlater)
        · rw [hdesc, hpdesc] at hindex
          exact hlt hindex
    rcases Nat.eq_or_lt_of_le hle with heq | hlt
    · left
      exact Tapscript.ext heq.symm rfl rfl rfl
    · right
      refine ⟨hlt, ?_⟩
      change (get w.rows ⟨t.owner, _, _, _⟩).isSome = true
      rw [hshown]
      exact hregistered.isSome

def StateSound : State → Prop
  | .stopped s => Owned s
  | .running w => Sound w

theorem running_step {w : Wallet} {e : Event} (h : e ≠ .stop) :
    step (.running w) e = (w.step e).map .running := by
  cases e with
  | stop => exact absurd rfl h
  | _ => rfl

theorem StateSound.step {s t : State} {e : Event} (h : StateSound s) (hok : rotatorOk s e)
    (hs : step s e = some t) : StateSound t := by
  cases s with
  | stopped store =>
    cases e with
    | boot serverPubKey csvTimelock delegatePubKey boardingTapscript =>
      cases hs
      exact boot_sound boardingTapscript h hok
    | _ => cases hs
  | running w =>
    have hsound : Sound w := h
    by_cases hstop : e = .stop
    · rw [hstop] at hs
      cases hs
      exact hsound.core.owned
    · rw [running_step hstop] at hs
      obtain ⟨w', hw', rfl⟩ := Option.map_eq_some_iff.mp hs
      exact hsound.step hok hw'

def freshStore : Store := ⟨[], none⟩

/-- In every run from a fresh repository whose steps meet the condition. -/
theorem receive_address_kept {w : Wallet}
    (h : Run step rotatorOk (.stopped freshStore) (.running w)) :
    Displayed w ∧ Exclusive w ∧ Restarts w := by
  have hfresh : StateSound (.stopped freshStore) :=
    ⟨List.nodup_nil, (fun _ hrow ↦ by cases hrow), fun _ hrow ↦ by cases hrow⟩
  have hs : Sound w := h.invariant (P := StateSound) (fun _ _ _ hs hok ht ↦ hs.step hok ht) hfresh
  refine ⟨fun hne ↦ ?_, hs.ordered.exclusive, hs.restarts⟩
  obtain ⟨contract, hrow, hactive, hmeta, -, -⟩ := hs.core.registered hne
  exact ⟨contract, hrow, hactive, hmeta, hs.core.watched hne⟩

def baseline : Tapscript := ⟨0, "server", 144, none⟩

def firstBoot : Event := .boot "server" 144 none baseline

instance (rows : Rows) (d : Tapscript) (createdAt : ℤ) : Decidable (Newest rows d createdAt) :=
  inferInstanceAs (Decidable (∀ row ∈ rows, _ → _ → _))

instance (rows : Rows) (d : Tapscript) : Decidable (Alike rows d) :=
  inferInstanceAs (Decidable (∀ row ∈ rows, _ → _))

/-- The condition, where every rotation finds no row. -/
def rotatorCheck : State → Event → Bool
  | .running w, .looked i now =>
    match w.stageOf i with
    | some (_, .looking params) => decide (Alike w.rows params.script) &&
        (get w.rows params.script).isNone && decide (Newest w.rows params.script now)
    | _ => true
  | .running _, .otherSaved _ | .running _, .unwatch _ => false
  | .stopped s, .boot serverPubKey csvTimelock delegatePubKey _ =>
    decide (Alike s.rows ⟨0, serverPubKey, csvTimelock, delegatePubKey⟩)
  | _, _ => true

theorem rotatorOk_of_check (s : State) (e : Event) (h : rotatorCheck s e = true) :
    rotatorOk s e := by
  cases s with
  | stopped store =>
    cases e with
    | boot serverPubKey csvTimelock delegatePubKey boardingTapscript =>
      have halike : Alike store.rows ⟨0, serverPubKey, csvTimelock, delegatePubKey⟩ :=
        of_decide_eq_true h
      exact halike
    | _ => trivial
  | running w =>
    cases e with
    | looked i now =>
      intro job params hstage
      dsimp only [rotatorCheck] at h
      rw [hstage] at h
      obtain ⟨h, hnewest⟩ := (Bool.and_eq_true _ _).mp h
      obtain ⟨halike, hnone⟩ := (Bool.and_eq_true _ _).mp h
      refine ⟨of_decide_eq_true halike, ?_⟩
      rw [Option.isNone_iff_eq_none.mp hnone]
      exact of_decide_eq_true hnewest
    | otherSaved | unwatch => cases h
    | _ => trivial

def rotation (i : ℕ) (owner : ℕ) (now : ℤ) : List Event :=
  [.received { baseline with owner := owner }, .start i now, .allocated i, .looked i now,
    .saved i, .watched i]

def twoRotations : List Event :=
  firstBoot :: rotation 0 0 100 ++ [Event.refilled 0] ++ rotation 1 1 110 ++
    [Event.retired 1 none, .refilled 1, .stop, firstBoot]

theorem two_rotations_kept :
    ∃ w, exec step (.stopped freshStore) twoRotations = some (.running w) ∧
      w.offchainTapscript = { baseline with owner := 2 } ∧ Displayed w ∧ Exclusive w ∧
      Restarts w := by
  obtain ⟨w, hw, hshown⟩ : ∃ w,
      exec step (.stopped freshStore) twoRotations = some (.running w) ∧
      w.offchainTapscript = { baseline with owner := 2 } := ⟨_, rfl, rfl⟩
  have hrun := run_of_exec hw (along_of_check rotatorOk_of_check rfl)
  exact ⟨w, hw, hshown, receive_address_kept hrun⟩

/-- The band's row for index 1, before a rotation allocates that index. -/
def promoted : CreateContractParams := buildReceiveContract baseline 1 false

/-- The rotation finds the row of another component, and shows a script whose row is not tagged, so
a restart shows the baseline again. Or the clock steps back between two rotations, and a restart
before the first one's address is retired shows that one again. -/
theorem earlier_address_shown :
    (∃ w, Run step (fun _ _ ↦ True) (.stopped freshStore) (.running w) ∧ ¬Displayed w ∧
      ¬Restarts w) ∧
    ∃ w, Run step (fun _ _ ↦ True) (.stopped freshStore) (.running w) ∧
      w.offchainTapscript.owner = 2 ∧ ¬Restarts w := by
  constructor
  · let events : List Event := [firstBoot, .look promoted 50, .otherSaved 0, .received baseline,
      .start 0 90, .allocated 0, .looked 0 100]
    have hchecked : Along step (fun _ _ ↦ True) (.stopped freshStore) events :=
      along_of_check (p := fun _ _ ↦ true) (fun _ _ _ ↦ trivial) rfl
    refine ⟨_, run_of_exec rfl hchecked, fun h ↦ ?_, fun h ↦ ?_⟩
    · obtain ⟨contract, hrow, -, hmeta, -⟩ := h Nat.one_ne_zero
      cases hrow
      cases hmeta
    · obtain ⟨w', hw', hshown⟩ := h baseline _ rfl
      cases hw'
      rcases hshown with hsame | ⟨hlt, -⟩
      · cases hsame
      · exact absurd hlt (by decide)
  · let events : List Event := [firstBoot, .received baseline, .start 0 90, .allocated 0,
      .looked 0 100, .saved 0, .watched 0, .refilled 0,
      .received { baseline with owner := 1 }, .start 1 95, .allocated 1, .looked 1 99, .saved 1,
      .watched 1]
    have hchecked : Along step (fun _ _ ↦ True) (.stopped freshStore) events :=
      along_of_check (p := fun _ _ ↦ true) (fun _ _ _ ↦ trivial) rfl
    refine ⟨_, run_of_exec rfl hchecked, rfl, fun h ↦ ?_⟩
    obtain ⟨w', hw', hshown⟩ := h baseline _ rfl
    cases hw'
    rcases hshown with hsame | ⟨hlt, -⟩
    · cases hsame
    · exact absurd hlt (by decide)

end ArkadeSdk.ReceiveRotator
