import ArkadeSdk.Wallet.Delegate
import Mathlib.Tactic.Linarith
import Mathlib.Tactic.Ring

/-! When a delegated renewal can be paid for and comes in time, and that every output is reported
once. -/

namespace ArkadeSdk.Delegate

open WireFormat JsNumber Vtxo

/-- The type that the operator prices an input by. -/
def feeType (coin : VirtualCoin) : VtxoType := if coin.isSwept then .recoverable else .vtxo

def inputFees (e : Estimator) (inputs : List VirtualCoin) : List FeeAmount :=
  inputs.map fun coin ↦ e.offchainInput coin (feeType coin)

def outputFees (e : Estimator) (outputs : List TxOut) : List FeeAmount :=
  outputs.map fun o ↦ e.offchainOutput o.amount o.script

/-- `Estimator.evaluate` -/
def evaluate (e : Estimator) (inputs : List VirtualCoin) (outputs : List TxOut) : FeeAmount :=
  .total (inputFees e inputs ++ outputFees e outputs)

def Delegation.offered (d : Delegation) : ℤ :=
  totalValue d.inputs - (d.outputs.map (·.amount)).sum

/-- The dates of expiry of the inputs that are not recoverable. A block height is none. -/
def dates (now : ℕ) (vtxos : List VirtualCoin) : List ℤ :=
  (vtxos.filter (!isRecoverable now ·)).filterMap (·.expiresAt)

/-- The delegation pays its way and comes in time. `now` and the dates are in milliseconds. -/
structure Sound (env : Surroundings) (now : ℕ) (e : Estimator) (d : Delegation) : Prop where
  paid : (evaluate e d.inputs d.outputs).satoshis ≤ d.offered
  dust : ∀ o ∈ d.outputs, env.dust ≤ o.amount
  delegatePaid : ∃ destination, d.outputs = feeOutputs env ++ [destination]
  forfeits : d.forfeits = (d.inputs.filter (!isRecoverable now ·)).map (·.outpoint)
  later : now < 1000 * d.validAt
  sooner : ∀ date ∈ dates now d.inputs, 1000 * d.validAt < date

variable {env : Surroundings} {e : Estimator} {now : ℕ} {vtxos : List VirtualCoin}
  {destination : Bytes} {delegateAt : Option ℤ} {d : Delegation}

/-- What an input leaves for the operator: its fee, or all that it is worth. -/
def setAside (e : Estimator) (coin : VirtualCoin) : ℚ :=
  min (e.offchainInput coin .vtxo).value coin.value

/-- What an input adds to the amount. -/
def worth (e : Estimator) (coin : VirtualCoin) : ℤ :=
  if coin.value ≤ (e.offchainInput coin .vtxo).value then 0
  else coin.value - (e.offchainInput coin .vtxo).satoshis

/-- What the destination is left with. -/
def payout (env : Surroundings) (e : Estimator) (vtxos : List VirtualCoin) : ℤ :=
  (vtxos.map (worth e)).sum - outputFee e (feeOutputs env) - env.fee

theorem toBigInt_ok {fee : ℚ} {n : ℤ} (h : toBigInt fee = .ok n) : fee = n := by
  unfold toBigInt at h
  split at h
  · next hden =>
    obtain rfl := Except.ok.inj h
    exact ((Rat.den_eq_one_iff fee).mp hden).symm
  · cases h

theorem addInput_ok {amount amount' : ℤ} {coin : VirtualCoin}
    (h : addInput e amount coin = .ok amount') :
    amount' = amount + worth e coin ∧ (worth e coin : ℚ) = coin.value - setAside e coin := by
  unfold addInput at h
  dsimp only at h
  split at h
  · next hle =>
    obtain rfl := Except.ok.inj h
    rw [worth, if_pos hle, setAside, min_eq_right hle]
    simp
  · next hlt =>
    obtain ⟨n, hn, h⟩ := bind_ok.mp h
    obtain rfl := pure_ok.mp h
    have hfee := toBigInt_ok hn
    rw [worth, if_neg hlt, setAside, min_eq_left (not_le.mp hlt).le, FeeAmount.satoshis, hfee,
      Int.ceil_intCast]
    constructor
    · ring
    · push_cast
      rfl

theorem addInputs_ok {amount amount' : ℤ} (h : vtxos.foldlM (addInput e) amount = .ok amount') :
    amount' = amount + (vtxos.map (worth e)).sum ∧
      ((vtxos.map (worth e)).sum : ℚ) = totalValue vtxos - (vtxos.map (setAside e)).sum := by
  induction vtxos generalizing amount with
  | nil =>
    obtain rfl := pure_ok.mp h
    simp [totalValue]
  | cons coin vtxos ih =>
    obtain ⟨next, hnext, h⟩ := bind_ok.mp h
    obtain ⟨hsum, hworth⟩ := ih h
    obtain ⟨hone, hcoin⟩ := addInput_ok hnext
    simp only [List.map_cons, List.sum_cons, totalValue] at hworth ⊢
    constructor
    · rw [hsum, hone]
      ring
    · rw [Int.cast_add, Int.cast_add, hcoin, hworth]
      ring

theorem delegate_ok (h : delegate env now vtxos destination delegateAt = .ok d) :
    let resolved := resolveDelegateAt now vtxos delegateAt
    let amount := payout env (env.estimatorAt resolved) vtxos
    d.inputs = vtxos ∧ d.outputs = feeOutputs env ++ [⟨destination, amount⟩] ∧
      d.validAt = resolved / 1000 ∧
      d.forfeits = (vtxos.filter (!isRecoverable now ·)).map (·.outpoint) ∧
      env.dust ≤ amount ∧
      ((vtxos.map (worth (env.estimatorAt resolved))).sum : ℚ) =
        totalValue vtxos - (vtxos.map (setAside (env.estimatorAt resolved))).sum := by
  intro resolved amount
  obtain ⟨-, h⟩ := then_ok.mp h
  obtain ⟨sum, hsum, h⟩ := bind_ok.mp h
  obtain ⟨-, h⟩ := then_ok.mp h
  obtain ⟨hdust, h⟩ := then_ok.mp h
  obtain ⟨-, h⟩ := then_ok.mp h
  obtain rfl := pure_ok.mp h
  obtain ⟨hamount, hworth⟩ := addInputs_ok hsum
  rw [zero_add] at hamount
  subst hamount
  exact ⟨rfl, rfl, rfl, rfl, not_lt.mp (rejectIf_ok.mp hdust), hworth⟩

/-- The latest moment that is meant without an explicit date: ten percent of the remaining time
before the first expiry, or a minute from now where none is ahead. -/
def latest (now : ℕ) (vtxos : List VirtualCoin) : ℚ :=
  match (expiries now vtxos).min? with
  | none => now + 60 * 1000
  | some first => if first ≤ now then now + 60 * 1000 else tenthBefore now first

/-- An explicit date, cut to a whole second, lies between now and each expiry. With none, there is a
whole second after now that is not too late, and all of these come before each expiry. -/
def Timely (now : ℕ) (vtxos : List VirtualCoin) : Option ℤ → Prop
  | some delegateAt => now < 1000 * (delegateAt / 1000) ∧
    ∀ date ∈ dates now vtxos, 1000 * (delegateAt / 1000) < date
  | none => (∃ second : ℤ, now < 1000 * second ∧ 1000 * second ≤ latest now vtxos) ∧
    ∀ second : ℤ, 1000 * second ≤ latest now vtxos → ∀ date ∈ dates now vtxos, 1000 * second < date

/-- When the delegation pays its way and comes in time. -/
structure Payable (env : Surroundings) (e : Estimator) (now : ℕ) (vtxos : List VirtualCoin)
    (destination : Bytes) (delegateAt : Option ℤ) : Prop where
  feeDust : env.fee = 0 ∨ env.dust ≤ env.fee
  covered : (evaluate e vtxos (feeOutputs env ++ [⟨destination, payout env e vtxos⟩])).value ≤
    (vtxos.map (setAside e)).sum + outputFee e (feeOutputs env)
  timely : Timely now vtxos delegateAt

theorem feeOutputs_amount : ((feeOutputs env).map (·.amount)).sum = env.fee := by
  unfold feeOutputs
  split
  · simp
  · next hfee =>
    rw [Nat.eq_zero_of_not_pos hfee]
    rfl

theorem feeOutputs_dust :
    (∀ o ∈ feeOutputs env, env.dust ≤ o.amount) ↔ env.fee = 0 ∨ env.dust ≤ env.fee := by
  unfold feeOutputs
  split
  · next hfee =>
    simp [hfee.ne']
  · next hfee =>
    simp [Nat.eq_zero_of_not_pos hfee]

theorem mem_expiries_ne_zero {expiry : ℤ} (h : expiry ∈ expiries now vtxos) : expiry ≠ 0 := by
  obtain ⟨coin, -, hcoin⟩ := List.mem_filterMap.mp h
  simpa using (Option.filter_eq_some_iff.mp hcoin).2

theorem foldl_min (l : List ℤ) (a : ℤ) :
    l.foldl min a = (l.min?).elim a (min a) := by
  induction l generalizing a with
  | nil => rfl
  | cons b l ih =>
    rw [List.foldl_cons, ih, List.min?_cons]
    cases l.min? with
    | none => rfl
    | some m => simp [min_assoc]

theorem resolveDelegateAt_none (hdates : ∀ expiry ∈ expiries now vtxos, expiry < MAX_SAFE_INTEGER) :
    resolveDelegateAt now vtxos none = ⌊latest now vtxos⌋ := by
  have hminute : ⌊(now + 60 * 1000 : ℚ)⌋ = now + 60 * 1000 := by
    exact_mod_cast Int.floor_intCast (R := ℚ) (now + 60 * 1000)
  simp only [resolveDelegateAt, latest]
  rw [foldl_min]
  cases hmin : (expiries now vtxos).min? with
  | none => simp [hminute]
  | some expiry =>
    have hmem := List.min?_mem hmin
    have hlt := hdates expiry hmem
    rw [Option.elim_some, min_eq_right hlt.le,
      if_neg (not_or.mpr ⟨mem_expiries_ne_zero hmem, hlt.ne⟩)]
    by_cases hpast : expiry ≤ now
    · rw [if_pos (by omega)]
      simp only [hpast, if_true, hminute]
    · rw [if_neg (by omega)]
      simp only [hpast, if_false]

theorem second_le_iff {x : ℚ} {second : ℤ} :
    1000 * (second : ℚ) ≤ x ↔ second ≤ ⌊x⌋ / 1000 := by
  have hcast : 1000 * (second : ℚ) = (1000 * second : ℤ) := by push_cast; rfl
  rw [hcast, ← Int.le_floor]
  omega

theorem timely_iff (delegateAt : Option ℤ)
    (hdates : ∀ expiry ∈ expiries now vtxos, expiry < MAX_SAFE_INTEGER) :
    ((now : ℤ) < 1000 * (resolveDelegateAt now vtxos delegateAt / 1000) ∧
      ∀ date ∈ dates now vtxos, 1000 * (resolveDelegateAt now vtxos delegateAt / 1000) < date) ↔
      Timely now vtxos delegateAt := by
  cases delegateAt with
  | some delegateAt => rfl
  | none =>
    rw [resolveDelegateAt_none hdates, Timely]
    simp only [second_le_iff]
    constructor
    · rintro ⟨hlater, hsooner⟩
      refine ⟨⟨_, hlater, le_rfl⟩, fun second hsecond date hdate ↦ ?_⟩
      have hdate := hsooner date hdate
      omega
    · rintro ⟨⟨second, hlater, hsecond⟩, hsooner⟩
      exact ⟨by omega, hsooner _ le_rfl⟩

theorem offered_eq (h : delegate env now vtxos destination delegateAt = .ok d) :
    let e := env.estimatorAt (resolveDelegateAt now vtxos delegateAt)
    (d.offered : ℚ) = (vtxos.map (setAside e)).sum + outputFee e (feeOutputs env) := by
  intro e
  obtain ⟨hinputs, houtputs, -, -, -, hworth⟩ := delegate_ok h
  rw [Delegation.offered, hinputs, houtputs, List.map_append, List.sum_append, feeOutputs_amount,
    List.map_singleton, List.sum_singleton, payout]
  rw [Int.cast_sub, Int.cast_add, Int.cast_sub, Int.cast_sub, hworth]
  ring

theorem sound_iff_payable (hdates : ∀ expiry ∈ expiries now vtxos, expiry < MAX_SAFE_INTEGER)
    (h : delegate env now vtxos destination delegateAt = .ok d) :
    let e := env.estimatorAt (resolveDelegateAt now vtxos delegateAt)
    Sound env now e d ↔ Payable env e now vtxos destination delegateAt := by
  intro e
  have hoffered := offered_eq h
  obtain ⟨hinputs, houtputs, hvalid, hforfeits, hdust, -⟩ := delegate_ok h
  have hpaid : (evaluate e d.inputs d.outputs).satoshis ≤ d.offered ↔
      (evaluate e vtxos (feeOutputs env ++ [⟨destination, payout env e vtxos⟩])).value ≤
        (vtxos.map (setAside e)).sum + outputFee e (feeOutputs env) := by
    rw [FeeAmount.satoshis_le, hoffered, hinputs, houtputs]
  have htimely := timely_iff delegateAt hdates
  rw [← hvalid] at htimely
  constructor
  · intro hsound
    refine ⟨feeOutputs_dust.mp fun o ho ↦ hsound.dust o ?_, hpaid.mp hsound.paid,
      htimely.mp ⟨hsound.later, hinputs ▸ hsound.sooner⟩⟩
    rw [houtputs]
    exact List.mem_append_left _ ho
  · rintro ⟨hfeeDust, hcovered, htime⟩
    obtain ⟨hlater, hsooner⟩ := htimely.mpr htime
    refine ⟨hpaid.mpr hcovered, fun o ho ↦ ?_, ⟨_, houtputs⟩, hinputs ▸ hforfeits, hlater,
      hinputs ▸ hsooner⟩
    rw [houtputs] at ho
    rcases List.mem_append.mp ho with ho | ho
    · exact feeOutputs_dust.mpr hfeeDust o ho
    · obtain rfl := List.mem_singleton.mp ho
      exact hdust

def Report.reported (report : Report) : List Outpoint :=
  report.delegated ++ report.failed.flatMap Prod.fst

theorem reported_record (report : Report) (vtxos : List VirtualCoin) (r : Except Message Unit) :
    (report.record vtxos r).reported.Perm (report.reported ++ outpoints vtxos) := by
  unfold Report.record Report.reported
  cases r with
  | ok u =>
    rw [List.append_assoc, List.append_assoc]
    exact List.perm_append_comm.append_left _
  | error error => simp

theorem reported_foldl (attempt : List VirtualCoin → Except Message Unit)
    (groups : JsMap.Entries ℤ (List VirtualCoin)) (report : Report) :
    (groups.foldl (fun report group ↦ report.record group.2 (attempt group.2)) report).reported.Perm
      (report.reported ++ outpoints (Grouping.members groups)) := by
  induction groups generalizing report with
  | nil => simp [Grouping.members, outpoints]
  | cons group groups ih =>
    have hmembers : outpoints (Grouping.members (group :: groups)) =
        outpoints group.2 ++ outpoints (Grouping.members groups) := List.map_append
    rw [hmembers, ← List.append_assoc]
    exact (ih _).trans <| (reported_record report group.2 (attempt group.2)).append_right _

/-- What is to be reported: what expires and what is recoverable. -/
def reportable (now : ℕ) (eligible : List VirtualCoin) : List VirtualCoin :=
  (eligible.filter fun vtxo ↦ !isRecoverable now vtxo && vtxo.batchExpiry.isSome) ++
    eligible.filter (isRecoverable now ·)

theorem members_groupsList {eligible : List VirtualCoin} (h : groupByExpiry now eligible ≠ []) :
    (Grouping.members (groupsList now eligible)).Perm (reportable now eligible) := by
  unfold groupsList
  dsimp only
  split
  · next hmin => simp [h] at hmin
  · exact (Grouping.members_extend _ _ _).trans ((Grouping.members_group _ _).append_right _)

theorem reportable_of_groups_nil {eligible : List VirtualCoin}
    (h : groupByExpiry now eligible = []) :
    reportable now eligible = eligible.filter (isRecoverable now ·) := by
  have hmembers := Grouping.members_group (fun vtxo ↦ getDayTimestamp (vtxo.batchExpiry.getD 0))
    (eligible.filter fun vtxo ↦ !isRecoverable now vtxo && vtxo.batchExpiry.isSome)
  rw [groupByExpiry] at h
  rw [h] at hmembers
  rw [reportable, ← hmembers.nil_eq, List.nil_append]

theorem reportable_perm (now : ℕ) (eligible : List VirtualCoin) :
    (reportable now eligible).Perm
      (eligible.filter fun vtxo ↦ isRecoverable now vtxo || vtxo.batchExpiry.isSome) := by
  unfold reportable
  induction eligible with
  | nil => exact .nil
  | cons vtxo eligible ih =>
    cases hrec : isRecoverable now vtxo with
    | true =>
      simp only [List.filter_cons, hrec, Bool.not_true, Bool.false_and, Bool.true_or,
        Bool.false_eq_true, if_false, if_true]
      exact List.perm_middle.trans (ih.cons vtxo)
    | false =>
      cases hexp : vtxo.batchExpiry.isSome with
      | true =>
        simp only [List.filter_cons, hrec, hexp, Bool.not_false, Bool.and_self, Bool.or_true,
          Bool.false_eq_true, if_false, if_true, List.cons_append]
        exact ih.cons vtxo
      | false => simpa [List.filter_cons, hrec, hexp] using ih

theorem reported_manage (accepts : Delegation → Except Message Unit) :
    (manage env accepts now vtxos destination delegateAt).reported.Perm
      (outpoints ((vtxos.filter env.isEligible).filter fun vtxo ↦
        delegateAt.isSome || isRecoverable now vtxo || vtxo.batchExpiry.isSome)) := by
  unfold manage
  dsimp only
  split
  · next hnone =>
    rw [hnone]
    exact .nil
  · split
    · next hsome =>
      refine (reported_record _ _ _).trans ?_
      simp [hsome, Report.reported, Report.empty]
    · next hsome =>
      simp only [Bool.not_eq_true] at hsome
      simp only [hsome, Bool.false_or]
      refine List.Perm.trans ?_ ((reportable_perm now _).map VirtualCoin.outpoint)
      split
      · next hgroups =>
        rw [reportable_of_groups_nil hgroups]
        exact reported_record _ _ _
      · next hgroups =>
        refine (reported_foldl
          (fun group ↦ delegate env now group destination delegateAt >>= accepts) _ _).trans ?_
        exact (members_groupsList hgroups).map VirtualCoin.outpoint

theorem reported_once (accepts : Delegation → Except Message Unit)
    (hdistinct : (outpoints vtxos).Nodup) {vtxo : VirtualCoin} (hvtxo : vtxo ∈ vtxos)
    (heligible : env.isEligible vtxo)
    (hreport : delegateAt.isSome ∨ isRecoverable now vtxo ∨ vtxo.batchExpiry.isSome) :
    (manage env accepts now vtxos destination delegateAt).reported.count vtxo.outpoint = 1 := by
  rw [(reported_manage accepts).count_eq]
  refine List.count_eq_one_of_mem ?_ (List.mem_map_of_mem ?_)
  · exact (hdistinct.sublist (List.filter_sublist.map _)).sublist (List.filter_sublist.map _)
  · refine List.mem_filter.mpr ⟨List.mem_filter.mpr ⟨hvtxo, heligible⟩, ?_⟩
    simpa [or_assoc] using hreport

/-- Whether a sent delegation pays its way and comes in time, and that whatever expires or is
recoverable is reported once: all that is eligible, with an explicit date. -/
theorem delegation_sound_iff (accepts : Delegation → Except Message Unit)
    (hdistinct : (outpoints vtxos).Nodup)
    (hdates : ∀ expiry ∈ expiries now vtxos, expiry < MAX_SAFE_INTEGER) :
    (∀ d, delegate env now vtxos destination delegateAt = .ok d →
      (Sound env now (env.estimatorAt (resolveDelegateAt now vtxos delegateAt)) d ↔
        Payable env (env.estimatorAt (resolveDelegateAt now vtxos delegateAt)) now vtxos
          destination delegateAt)) ∧
    ∀ vtxo ∈ vtxos, env.isEligible vtxo →
      delegateAt.isSome ∨ isRecoverable now vtxo ∨ vtxo.batchExpiry.isSome →
      (manage env accepts now vtxos destination delegateAt).reported.count vtxo.outpoint = 1 :=
  ⟨fun _ h ↦ sound_iff_payable hdates h, fun _ hvtxo heligible hreport ↦
    reported_once accepts hdistinct hvtxo heligible hreport⟩

def dayCoin : VirtualCoin where
  txid := "a"
  vout := 0
  value := 10000
  createdAt := 0
  isSpent := false
  isSwept := false
  spentBy := ""
  settledBy := none
  expiresAt := some 86400000
  expiresAtHeight := none
  assets := none

def sampleEnv (inputFee outputFee : ℚ) : Surroundings where
  estimatorAt := fun _ ↦ ⟨fun _ _ ↦ .ofRat inputFee, fun _ _ ↦ .ofRat outputFee⟩
  dust := 330
  fee := 500
  delegateScript := []
  isEligible := fun _ ↦ true
  signs := fun _ ↦ true

/-- What is handed over in either case. -/
def sampleDelegation : Delegation where
  inputs := [dayCoin]
  outputs := [⟨[], 500⟩, ⟨[], 9400⟩]
  assets := []
  validAt := 77760
  forfeits := [("a", 0)]

/-- The fee of the destination's output is left out. -/
theorem destination_fee_unpaid :
    delegate (sampleEnv 0 100) 0 [dayCoin] [] none = .ok sampleDelegation ∧
      sampleDelegation.offered = 100 ∧
      (evaluate ((sampleEnv 0 100).estimatorAt (resolveDelegateAt 0 [dayCoin] none))
        sampleDelegation.inputs sampleDelegation.outputs).satoshis = 200 ∧
      ¬Sound (sampleEnv 0 100) 0
        ((sampleEnv 0 100).estimatorAt (resolveDelegateAt 0 [dayCoin] none)) sampleDelegation := by
  have hsent : delegate (sampleEnv 0 100) 0 [dayCoin] [] none = .ok sampleDelegation := by
    decide +kernel
  have hoffered : sampleDelegation.offered = 100 := by decide
  have hfee : (evaluate ((sampleEnv 0 100).estimatorAt (resolveDelegateAt 0 [dayCoin] none))
      sampleDelegation.inputs sampleDelegation.outputs).satoshis = 200 := by
    decide +kernel
  refine ⟨hsent, hoffered, hfee, fun hsound ↦ ?_⟩
  have hpaid := hsound.paid
  rw [hoffered, hfee] at hpaid
  norm_num at hpaid

/-- Where fees are asked on inputs only. -/
theorem input_fee_paid :
    delegate (sampleEnv 100 0) 0 [dayCoin] [] none = .ok sampleDelegation ∧
      Sound (sampleEnv 100 0) 0
        ((sampleEnv 100 0).estimatorAt (resolveDelegateAt 0 [dayCoin] none)) sampleDelegation ∧
      (manage (sampleEnv 100 0) (fun _ ↦ .ok ()) 0 [dayCoin] [] none).reported.count
        ("a", 0) = 1 := by
  have hdates : ∀ expiry ∈ expiries 0 [dayCoin], expiry < MAX_SAFE_INTEGER := by decide
  obtain ⟨hsound, hreport⟩ := @delegation_sound_iff (sampleEnv 100 0) 0 [dayCoin] [] none
    (fun _ ↦ .ok ()) (by decide) hdates
  have hsent : delegate (sampleEnv 100 0) 0 [dayCoin] [] none = .ok sampleDelegation := by
    decide +kernel
  refine ⟨hsent, (hsound _ hsent).mpr ⟨.inr (by decide), by decide +kernel, ?_⟩,
    hreport dayCoin (List.mem_singleton_self _) rfl (.inr (.inr rfl))⟩
  have hlatest : latest 0 [dayCoin] = 77760000 := by decide +kernel
  refine ⟨⟨77760, by decide, by rw [hlatest]; norm_num⟩, fun second hsecond date hdate ↦ ?_⟩
  obtain rfl : date = 86400000 := List.mem_singleton.mp hdate
  rw [hlatest] at hsecond
  have hcast : (1000 * second : ℤ) ≤ 77760000 := by exact_mod_cast hsecond
  omega

end ArkadeSdk.Delegate
