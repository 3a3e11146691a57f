import ArkadeSdk.Wallet.BoardingSweep

/-! Expiry is judged with the delay of the current boarding address: each deposit is treated by the
delay of its own address where the two judgements agree, and nowhere else. -/

namespace ArkadeSdk

open WireFormat JsNumber ScriptCoder

variable {L : Libraries}

namespace DefaultVtxo

theorem Script.new_ok {options : Options} {script : Script}
    (h : Script.new L options = .ok script) :
    ∃ forfeit exit, MultisigTapscript.encode L ⟨[options.pubKey, options.serverPubKey], none⟩ =
        .ok forfeit ∧
      CSVMultisigTapscript.encode L ⟨⟨[options.pubKey], none⟩, options.csvTimelock⟩ = .ok exit ∧
      script = ⟨options, forfeit.script, exit.script⟩ := by
  obtain ⟨forfeit, hforfeit, h⟩ := bind_ok.mp h
  obtain ⟨exit, hexit, h⟩ := bind_ok.mp h
  exact ⟨forfeit, exit, hforfeit, hexit, (pure_ok.mp h).symm⟩

theorem Script.decode_exit {options : Options} {script : Script}
    (h : Script.new L options = .ok script) :
    ∃ tapscript, CSVMultisigTapscript.decode L script.exitScript = .ok tapscript ∧
      tapscript.params.timelock = options.csvTimelock ∧
        ∃ n, timelockToSequence L options.csvTimelock = .ok n := by
  obtain ⟨forfeit, exit, -, hexit, rfl⟩ := Script.new_ok h
  obtain ⟨n, m, hok⟩ := CSVMultisigTapscript.encode_ok hexit
  refine ⟨exit, CSVMultisigTapscript.decode_encode hexit (.inl rfl), ?_, n, hok.sequence⟩
  rw [hok.result]

theorem Script.exit_valid {options : Options} {script : Script}
    (h : Script.new L options = .ok script) :
    CSVMultisigTapscript.isScriptValid L script.exitScript = .ok () := by
  obtain ⟨forfeit, exit, -, hexit, rfl⟩ := Script.new_ok h
  obtain ⟨n, m, hok⟩ := CSVMultisigTapscript.encode_ok hexit
  exact hok.parts.2.1

theorem Script.forfeit_not_valid {options : Options} {script : Script}
    (h : Script.new L options = .ok script) :
    CSVMultisigTapscript.isScriptValid L script.forfeitScript ≠ .ok () := by
  obtain ⟨forfeit, exit, hforfeit, -, rfl⟩ := Script.new_ok h
  have hdecode := (MultisigTapscript.encode_ok hforfeit).canonical.decode
  intro hvalid
  obtain ⟨asm, hasm, hvalid⟩ := bind_ok.mp hvalid
  rw [hdecode] at hasm
  obtain rfl := Except.ok.inj hasm
  obtain ⟨-, hvalid⟩ := then_ok.mp hvalid
  have hnot := rejectIf_ok.mp hvalid
  exact hnot (.inl (by decide))

end DefaultVtxo

namespace BoardingSweep

open Renewal

def SitsOn (L : Libraries) (utxo : BoardingUtxo) (csvTimelock : RelativeTimelock) : Prop :=
  ∃ options script, DefaultVtxo.Script.new L options = .ok script ∧
    options.csvTimelock = csvTimelock ∧
      (utxo.leaves = [script.forfeitScript, script.exitScript] ∨
        utxo.leaves = [script.exitScript, script.forfeitScript])

/-- By this delay, the deposit has expired. -/
def expiredBy (env : Surroundings) (csvTimelock : RelativeTimelock) (utxo : BoardingUtxo) : Bool :=
  hasBoardingTxExpired utxo.toBoardingCoin csvTimelock (some env.chainTipHeight) env.nowSeconds

/-- Blocks are counted from the block that confirmed the deposit, and seconds from its time. -/
theorem expiredBy_iff {env : Surroundings} {t : RelativeTimelock} {utxo : BoardingUtxo}
    {time height : ℤ} (htime : utxo.blockTime = some time) (hheight : utxo.blockHeight = some height)
    (hconfirmed : time ≠ 0 ∧ height ≠ 0) (hdelay : t.value ≠ 0) :
    expiredBy env t utxo = true ↔ match t.type with
      | .blocks => t.value ≤ env.chainTipHeight - height
      | .seconds => time + t.value ≤ env.nowSeconds := by
  obtain ⟨value, type⟩ := t
  cases type with
  | blocks =>
    simp [expiredBy, hasBoardingTxExpired, htime, hheight, Option.filter_some, hconfirmed, hdelay]
  | seconds => simp [expiredBy, hasBoardingTxExpired, htime, Option.filter_some, hconfirmed, hdelay]

/-- The delay of the deposit's own address has elapsed. -/
def Elapsed (L : Libraries) (env : Surroundings) (utxo : BoardingUtxo) : Prop :=
  ∃ csvTimelock, SitsOn L utxo csvTimelock ∧ expiredBy env csvTimelock utxo = true

variable {env : Surroundings} {utxo : BoardingUtxo} {utxos : List BoardingUtxo}

theorem toBool_eq_true {x : Except Message Unit} : x.toBool = true ↔ x = .ok () := by
  cases x with
  | ok => simp [Except.toBool]
  | error e => simp [Except.toBool]

/-- The leaf that is found is the exit leaf, whose sequence is that of the delay. -/
theorem exitLeaf_of_sitsOn {csvTimelock : RelativeTimelock} (h : SitsOn L utxo csvTimelock) :
    ∃ leaf tapscript n, exitLeaf L utxo.leaves = some leaf ∧
      CSVMultisigTapscript.decode L leaf = .ok tapscript ∧
        tapscript.params.timelock = csvTimelock ∧ timelockToSequence L csvTimelock = .ok n ∧
          getSequence L leaf = some (n : ℤ) := by
  obtain ⟨options, script, hnew, rfl, hleaves⟩ := h
  obtain ⟨tapscript, hdecode, htimelock, n, hn⟩ := DefaultVtxo.Script.decode_exit hnew
  refine ⟨script.exitScript, tapscript, n, ?_, hdecode, htimelock, hn, ?_⟩
  · have hvalid := toBool_eq_true.mpr (DefaultVtxo.Script.exit_valid hnew)
    have hnot : ¬ (CSVMultisigTapscript.isScriptValid L script.forfeitScript).toBool = true :=
      mt toBool_eq_true.mp (DefaultVtxo.Script.forfeit_not_valid hnew)
    rcases hleaves with hleaves | hleaves
    · simp [exitLeaf, hleaves, hvalid, hnot]
    · simp [exitLeaf, hleaves, hvalid]
  · have hsequence : (CSVMultisigTapscript.decode L script.exitScript >>= fun tapscript ↦
        timelockToSequence L tapscript.params.timelock) = .ok n :=
      bind_ok.mpr ⟨tapscript, hdecode, htimelock ▸ hn⟩
    rw [getSequence, hsequence]

theorem sitsOn_unique {t t' : RelativeTimelock} (h : SitsOn L utxo t) (h' : SitsOn L utxo t') :
    t = t' := by
  obtain ⟨leaf, tapscript, -, hleaf, hdecode, rfl, -⟩ := exitLeaf_of_sitsOn h
  obtain ⟨leaf', tapscript', -, hleaf', hdecode', rfl, -⟩ := exitLeaf_of_sitsOn h'
  rw [hleaf] at hleaf'
  obtain rfl := Option.some.inj hleaf'
  rw [hdecode] at hdecode'
  rw [Except.ok.inj hdecode']

theorem elapsed_iff {csvTimelock : RelativeTimelock} (h : SitsOn L utxo csvTimelock) :
    Elapsed L env utxo ↔ expiredBy env csvTimelock utxo = true := by
  constructor
  · rintro ⟨t, ht, hexpired⟩
    rwa [sitsOn_unique h ht]
  · exact fun hexpired ↦ ⟨csvTimelock, h, hexpired⟩

theorem hasBoardingTxExpired_tipFor (coin : BoardingCoin) (t : RelativeTimelock) :
    hasBoardingTxExpired coin t (tipFor env t) env.nowSeconds =
      hasBoardingTxExpired coin t (some env.chainTipHeight) env.nowSeconds := by
  obtain ⟨value, type⟩ := t
  cases type with
  | blocks => rfl
  | seconds => rfl

/-- The input spends the deposit by its own exit leaf, with the sequence of its own delay. -/
def SatisfiesOwn (L : Libraries) (utxo : BoardingUtxo) (input : TxInput) : Prop :=
  ∃ csvTimelock n, SitsOn L utxo csvTimelock ∧ timelockToSequence L csvTimelock = .ok n ∧
    input.sequence = some (n : ℤ) ∧ exitLeaf L utxo.leaves = some input.tapLeafScript

/-- What the input's sequence asks for has passed. -/
def Final (L : Libraries) (env : Surroundings) (utxo : BoardingUtxo) (input : TxInput) : Prop :=
  ∃ sequence csvTimelock, input.sequence = some sequence ∧
    L.bip68Decode sequence = some csvTimelock ∧ expiredBy env csvTimelock utxo = true

/-- The sweep takes the deposits whose own delay has elapsed, and is final. -/
structure SweepsOwn (L : Libraries) (env : Surroundings) (utxos : List BoardingUtxo)
    (tx : SweepTx) : Prop where
  inputs : ∀ utxo ∈ utxos, utxo.outpoint ∈ tx.inputs.map (·.outpoint) ↔
    utxo.outpoint ∉ env.sweptBoardingUtxos ∧ Elapsed L env utxo
  final : ∀ input ∈ tx.inputs, ∃ utxo ∈ utxos, input.outpoint = utxo.outpoint ∧
    SatisfiesOwn L utxo input ∧ Final L env utxo input

def Current (L : Libraries) (env : Surroundings) (csvTimelock : RelativeTimelock) : Prop :=
  ∃ options, DefaultVtxo.Script.new L options = .ok env.boardingTapscript ∧
    options.csvTimelock = csvTimelock

variable {current : RelativeTimelock}

theorem getBoardingTimelock_ok (h : Current L env current) :
    getBoardingTimelock L env = .ok current := by
  obtain ⟨options, hnew, rfl⟩ := h
  obtain ⟨tapscript, hdecode, htimelock, -⟩ := DefaultVtxo.Script.decode_exit hnew
  rw [getBoardingTimelock, hdecode, ← htimelock]
  rfl

theorem sweep_inputs (hcurrent : Current L env current) {tx : SweepTx}
    (h : sweepExpiredBoardingUtxos L env utxos = .ok tx) :
    ((utxos.filter (expiredBy env current)).filter fun u ↦
      u.outpoint ∉ env.sweptBoardingUtxos).mapM (sweepInput L) = .ok tx.inputs := by
  obtain ⟨-, h⟩ := then_ok.mp h
  obtain ⟨expired, hexpired, h⟩ := bind_ok.mp h
  obtain ⟨-, h⟩ := then_ok.mp h
  obtain ⟨-, h⟩ := then_ok.mp h
  obtain ⟨inputs, hinputs, h⟩ := bind_ok.mp h
  obtain rfl := pure_ok.mp h
  obtain ⟨t, ht, hexpired⟩ := bind_ok.mp hexpired
  rw [getBoardingTimelock_ok hcurrent] at ht
  obtain rfl := Except.ok.inj ht
  obtain rfl := pure_ok.mp hexpired
  simp only [hasBoardingTxExpired_tipFor] at hinputs
  exact hinputs

theorem sweepInput_ok {input : TxInput} {csvTimelock : RelativeTimelock}
    (hsits : SitsOn L utxo csvTimelock) (h : sweepInput L utxo = .ok input) :
    input.outpoint = utxo.outpoint ∧ SatisfiesOwn L utxo input := by
  obtain ⟨leaf, tapscript, n, hleaf, -, -, hn, hsequence⟩ := exitLeaf_of_sitsOn hsits
  rw [sweepInput, hleaf] at h
  cases h
  exact ⟨rfl, csvTimelock, n, hsits, hn, hsequence, hleaf⟩

/-- The deposits that are swept are those that have expired by the current address's delay. -/
theorem mem_sweep_inputs (hcurrent : Current L env current)
    (hdistinct : (utxos.map (·.outpoint)).Nodup) (hsits : ∀ u ∈ utxos, ∃ t, SitsOn L u t)
    {tx : SweepTx} (h : sweepExpiredBoardingUtxos L env utxos = .ok tx) (hutxo : utxo ∈ utxos) :
    utxo.outpoint ∈ tx.inputs.map (·.outpoint) ↔
      utxo.outpoint ∉ env.sweptBoardingUtxos ∧ expiredBy env current utxo = true := by
  have hinputs := sweep_inputs hcurrent h
  constructor
  · intro hmem
    obtain ⟨input, hinput, hout⟩ := List.mem_map.mp hmem
    obtain ⟨u, hu, hsweep⟩ := mem_mapM_ok hinputs hinput
    obtain ⟨hu, hnew⟩ := List.mem_filter.mp hu
    obtain ⟨hu, hexpired⟩ := List.mem_filter.mp hu
    obtain ⟨t, ht⟩ := hsits u hu
    have hsame := (sweepInput_ok ht hsweep).1
    obtain rfl := List.inj_on_of_nodup_map hdistinct hu hutxo (hsame.symm.trans hout)
    exact ⟨of_decide_eq_true hnew, hexpired⟩
  · rintro ⟨hnew, hexpired⟩
    obtain ⟨input, hinput, hsweep⟩ := exists_mem_mapM_ok hinputs (List.mem_filter.mpr
      ⟨List.mem_filter.mpr ⟨hutxo, hexpired⟩, decide_eq_true hnew⟩)
    obtain ⟨t, ht⟩ := hsits utxo hutxo
    exact List.mem_map.mpr ⟨input, hinput, (sweepInput_ok ht hsweep).1⟩

theorem sweepsOwn_iff (hcurrent : Current L env current)
    (hdistinct : (utxos.map (·.outpoint)).Nodup) (hsits : ∀ u ∈ utxos, ∃ t, SitsOn L u t)
    {tx : SweepTx} (h : sweepExpiredBoardingUtxos L env utxos = .ok tx) :
    SweepsOwn L env utxos tx ↔ ∀ u ∈ utxos, u.outpoint ∉ env.sweptBoardingUtxos →
      (expiredBy env current u = true ↔ Elapsed L env u) := by
  have hmem := fun u (hu : u ∈ utxos) ↦ mem_sweep_inputs hcurrent hdistinct hsits h hu
  constructor
  · intro howns u hu hnew
    have howns := howns.inputs u hu
    rw [hmem u hu] at howns
    exact ⟨fun hexpired ↦ (howns.mp ⟨hnew, hexpired⟩).2,
      fun helapsed ↦ (howns.mpr ⟨hnew, helapsed⟩).2⟩
  · intro hagree
    refine ⟨fun u hu ↦ ?_, fun input hinput ↦ ?_⟩
    · rw [hmem u hu]
      exact and_congr_right fun hnew ↦ hagree u hu hnew
    · obtain ⟨u, hu, hsweep⟩ := mem_mapM_ok (sweep_inputs hcurrent h) hinput
      obtain ⟨hu, hnew⟩ := List.mem_filter.mp hu
      obtain ⟨hu, hexpired⟩ := List.mem_filter.mp hu
      obtain ⟨t, ht⟩ := hsits u hu
      obtain ⟨hout, hsatisfies⟩ := sweepInput_ok ht hsweep
      refine ⟨u, hu, hout, hsatisfies, ?_⟩
      obtain ⟨t', n, ht', hn, hsequence, -⟩ := hsatisfies
      refine ⟨n, t', hsequence, L.bip68_decode_encode hn, ?_⟩
      exact (elapsed_iff ht').mp ((hagree u hu (of_decide_eq_true hnew)).mp hexpired)

/-- None of the deposits that are put into a settlement has its own delay behind it. -/
def NoneElapsed (L : Libraries) (env : Surroundings) (utxos : List BoardingUtxo)
    (settled : List BoardingCoin) : Prop :=
  ∀ u ∈ utxos, u.toBoardingCoin ∈ settled → ¬ Elapsed L env u

/-- A deposit in a settlement is one that has not expired by the current address's delay. -/
theorem noneElapsed_iff {settled : List BoardingCoin} {considered : BoardingUtxo → Prop}
    (h : ∀ u ∈ utxos, u.toBoardingCoin ∈ settled ↔
      considered u ∧ ¬ expiredBy env current u = true) :
    NoneElapsed L env utxos settled ↔
      ∀ u ∈ utxos, considered u → Elapsed L env u → expiredBy env current u = true := by
  constructor
  · intro hnone u hu hconsidered helapsed
    by_contra hnot
    exact hnone u hu ((h u hu).mpr ⟨hconsidered, hnot⟩) helapsed
  · intro hall u hu hsettled helapsed
    obtain ⟨hconsidered, hnot⟩ := (h u hu).mp hsettled
    exact hnot (hall u hu hconsidered helapsed)

theorem runPeriodicSettle_boarding {info : ArkInfo} {now : TimeHeight} {dustAmount : ℤ}
    {address : String} {unsettled : List BoardingCoin} {expiring : List VirtualCoin}
    {s : Settlement.Proposal}
    (h : Settlement.runPeriodicSettle info now dustAmount address unsettled expiring = some s) :
    s.boarding = filteredBoarding info.estimator unsettled := by
  unfold Settlement.runPeriodicSettle at h
  dsimp only at h
  split at h
  · cases h
  · split at h <;> cases h
    rfl

theorem settleCandidates_boarding {info : ArkInfo} {dustAmount : ℤ} {address : String}
    {boarding : List BoardingCoin} {vtxos : List VirtualCoin} {s : Settlement.Proposal}
    (h : Settlement.settleCandidates info dustAmount address boarding vtxos = .ok s) :
    s.boarding = filteredBoarding info.estimator boarding := by
  unfold Settlement.settleCandidates at h
  dsimp only at h
  split at h
  · cases h
  · split at h <;> cases h
    rfl

theorem mem_filteredBoarding {e : Estimator} {coin : BoardingCoin} {l : List BoardingCoin} :
    coin ∈ filteredBoarding e l ↔ coin ∈ l ∧ e.onchainInput coin.value < coin.value := by
  rw [filteredBoarding, List.mem_filter, decide_eq_true_eq]

/-- The deposits that a periodic pass would put in, were they not judged expired. -/
def ForPeriodicSettle (e : Estimator) (known : List Outpoint) (u : BoardingUtxo) : Prop :=
  u.confirmed = true ∧ u.outpoint ∉ known ∧ e.onchainInput u.value < u.value

/-- The deposits that `settle()` would put in, were they not judged expired. -/
def ForSettle (e : Estimator) (u : BoardingUtxo) : Prop :=
  u.confirmed = true ∧ e.onchainInput u.value < u.value

theorem mem_periodicBoarding (hcurrent : Current L env current)
    (hdistinct : (utxos.map (·.outpoint)).Nodup) {known : List Outpoint}
    {unsettled : List BoardingCoin} (h : periodicBoarding L env known utxos = .ok unsettled)
    (e : Estimator) (hutxo : utxo ∈ utxos) :
    utxo.toBoardingCoin ∈ filteredBoarding e unsettled ↔
      ForPeriodicSettle e known utxo ∧ ¬ expiredBy env current utxo = true := by
  obtain ⟨t, ht, h⟩ := bind_ok.mp h
  rw [getBoardingTimelock_ok hcurrent] at ht
  obtain rfl := Except.ok.inj ht
  obtain rfl := pure_ok.mp h
  -- no other deposit has the same outpoint, so the set of outpoints judges the deposit itself
  have hset : utxo.outpoint ∈ ((utxos.map (·.toBoardingCoin)).filter fun coin ↦
      hasBoardingTxExpired coin current (tipFor env current) env.nowSeconds).map (·.outpoint) ↔
        expiredBy env current utxo = true := by
    constructor
    · intro hmem
      obtain ⟨coin, hcoin, hout⟩ := List.mem_map.mp hmem
      obtain ⟨hcoin, hexpired⟩ := List.mem_filter.mp hcoin
      obtain ⟨u, hu, rfl⟩ := List.mem_map.mp hcoin
      obtain rfl := List.inj_on_of_nodup_map hdistinct hu hutxo hout
      rwa [hasBoardingTxExpired_tipFor] at hexpired
    · intro hexpired
      refine List.mem_map.mpr ⟨_, List.mem_filter.mpr
        ⟨List.mem_map.mpr ⟨utxo, hutxo, rfl⟩, ?_⟩, rfl⟩
      rwa [hasBoardingTxExpired_tipFor]
  have hcoin : utxo.toBoardingCoin ∈ utxos.map (·.toBoardingCoin) :=
    List.mem_map.mpr ⟨utxo, hutxo, rfl⟩
  rw [mem_filteredBoarding, unsettledBoarding, List.mem_filter]
  simp only [Bool.and_eq_true, decide_eq_true_eq, hset, hcoin, true_and, ForPeriodicSettle]
  tauto

theorem mem_settleBoarding (e : Estimator) (hutxo : utxo ∈ utxos) :
    utxo.toBoardingCoin ∈ filteredBoarding e (Settlement.boardingCandidates current
        (tipFor env current) env.nowSeconds (utxos.map (·.toBoardingCoin))) ↔
      ForSettle e utxo ∧ ¬ expiredBy env current utxo = true := by
  have hcoin : utxo.toBoardingCoin ∈ utxos.map (·.toBoardingCoin) :=
    List.mem_map.mpr ⟨utxo, hutxo, rfl⟩
  rw [mem_filteredBoarding, Settlement.boardingCandidates, List.mem_filter]
  simp only [Bool.and_eq_true, Bool.not_eq_true', hasBoardingTxExpired_tipFor, hcoin, true_and,
    ForSettle, expiredBy, Bool.not_eq_true]
  tauto

/-- A sweep takes what has expired by its own delay, and a settlement nothing of it, exactly where
the delay of the current boarding address says the same of each deposit that is looked at. -/
theorem expiry_own_iff (hcurrent : Current L env current)
    (hdistinct : (utxos.map (·.outpoint)).Nodup) (hsits : ∀ u ∈ utxos, ∃ t, SitsOn L u t) :
    (∀ tx, sweepExpiredBoardingUtxos L env utxos = .ok tx →
      (SweepsOwn L env utxos tx ↔ ∀ u ∈ utxos, u.outpoint ∉ env.sweptBoardingUtxos →
        (expiredBy env current u = true ↔ Elapsed L env u))) ∧
    (∀ info now address known unsettled expiring s,
      periodicBoarding L env known utxos = .ok unsettled →
        Settlement.runPeriodicSettle info now env.dustAmount address unsettled expiring = some s →
          (NoneElapsed L env utxos s.boarding ↔
            ∀ u ∈ utxos, ForPeriodicSettle info.estimator known u → Elapsed L env u →
              expiredBy env current u = true)) ∧
    ∀ info address vtxos s, settle L env info address utxos vtxos = .ok (.ok s) →
      (NoneElapsed L env utxos s.boarding ↔
        ∀ u ∈ utxos, ForSettle info.estimator u → Elapsed L env u →
          expiredBy env current u = true) := by
  refine ⟨fun tx h ↦ sweepsOwn_iff hcurrent hdistinct hsits h,
    fun info now address known unsettled expiring s hunsettled h ↦ ?_,
    fun info address vtxos s h ↦ ?_⟩
  · rw [runPeriodicSettle_boarding h]
    exact noneElapsed_iff fun u hu ↦ mem_periodicBoarding hcurrent hdistinct hunsettled _ hu
  · obtain ⟨t, ht, h⟩ := bind_ok.mp h
    rw [getBoardingTimelock_ok hcurrent] at ht
    obtain rfl := Except.ok.inj ht
    have hboarding := settleCandidates_boarding (pure_ok.mp h)
    rw [hboarding]
    exact noneElapsed_iff fun u hu ↦ mem_settleBoarding _ hu

def optionsWith (blocks : ℤ) : DefaultVtxo.Options :=
  ⟨List.replicate 32 1, List.replicate 32 2, ⟨blocks, .blocks⟩⟩

def scriptWith (blocks : ℤ) : DefaultVtxo.Script :=
  match DefaultVtxo.Script.new standardLibraries (optionsWith blocks) with
  | .ok script => script
  | .error _ => ⟨optionsWith blocks, [], []⟩

/-- Confirmed at height 100, at the address with this delay. -/
def depositWith (blocks : ℤ) : BoardingUtxo :=
  ⟨⟨⟨"a", 0⟩, 100000, true, some 1000, some 100⟩,
    [(scriptWith blocks).forfeitScript, (scriptWith blocks).exitScript]⟩

/-- The chain is at height 300. -/
def walletWith (blocks : ℤ) : Surroundings :=
  ⟨scriptWith blocks, 300, 5000, none, List.replicate 34 0, 330, true, []⟩

def freeInfo : ArkInfo := ⟨noFees, -1⟩

theorem scriptWith_new :
    DefaultVtxo.Script.new standardLibraries (optionsWith 144) = .ok (scriptWith 144) ∧
      DefaultVtxo.Script.new standardLibraries (optionsWith 1000) = .ok (scriptWith 1000) := by
  decide

theorem sitsOn_day : SitsOn standardLibraries (depositWith 144) ⟨144, .blocks⟩ :=
  ⟨optionsWith 144, scriptWith 144, scriptWith_new.1, rfl, .inl rfl⟩

theorem sitsOn_week : SitsOn standardLibraries (depositWith 1000) ⟨1000, .blocks⟩ :=
  ⟨optionsWith 1000, scriptWith 1000, scriptWith_new.2, rfl, .inl rfl⟩

theorem current_day : Current standardLibraries (walletWith 144) ⟨144, .blocks⟩ :=
  ⟨optionsWith 144, scriptWith_new.1, rfl⟩

/-- 200 blocks on, a deposit behind 1000 blocks is swept by a wallet whose address is now behind
144, and one behind 144 blocks is settled by a wallet whose address is now behind 1000. -/
theorem earlier_address_misjudged :
    (∃ tx, sweepExpiredBoardingUtxos standardLibraries (walletWith 144) [depositWith 1000] =
        .ok tx ∧ ¬ SweepsOwn standardLibraries (walletWith 144) [depositWith 1000] tx) ∧
    ∃ s, settle standardLibraries (walletWith 1000) freeInfo "ark1" [depositWith 144] [] =
        .ok (.ok s) ∧ ¬ NoneElapsed standardLibraries (walletWith 1000) [depositWith 144]
          s.boarding := by
  constructor
  · have hruns : (sweepExpiredBoardingUtxos standardLibraries (walletWith 144)
        [depositWith 1000]).toOption.isSome = true := by decide +kernel
    obtain ⟨tx, htx⟩ := Option.isSome_iff_exists.mp hruns
    have htx := toOption_eq_some.mp htx
    refine ⟨tx, htx, fun howns ↦ ?_⟩
    have hagree := (sweepsOwn_iff current_day (by decide)
      (fun u hu ↦ ⟨_, List.mem_singleton.mp hu ▸ sitsOn_week⟩) htx).mp howns _
        List.mem_cons_self (by decide)
    rw [elapsed_iff sitsOn_week] at hagree
    exact absurd (hagree.mp (by decide +kernel)) (by decide +kernel)
  · refine ⟨⟨[(depositWith 144).toBoardingCoin], [], "ark1", 100000⟩, by decide +kernel,
      fun hnone ↦ ?_⟩
    refine hnone _ List.mem_cons_self List.mem_cons_self ?_
    exact (elapsed_iff sitsOn_day).mpr (by decide)

theorem day_deposit_swept : ∃ tx,
    sweepExpiredBoardingUtxos standardLibraries (walletWith 144) [depositWith 144] = .ok tx ∧
      SweepsOwn standardLibraries (walletWith 144) [depositWith 144] tx := by
  have hruns : (sweepExpiredBoardingUtxos standardLibraries (walletWith 144)
      [depositWith 144]).toOption.isSome = true := by decide +kernel
  obtain ⟨tx, htx⟩ := Option.isSome_iff_exists.mp hruns
  have htx := toOption_eq_some.mp htx
  refine ⟨tx, htx, ((expiry_own_iff current_day (by decide)
    fun u hu ↦ ⟨_, List.mem_singleton.mp hu ▸ sitsOn_day⟩).1 tx htx).mpr fun u hu _ ↦ ?_⟩
  rw [List.mem_singleton.mp hu, elapsed_iff sitsOn_day]

end BoardingSweep

end ArkadeSdk
