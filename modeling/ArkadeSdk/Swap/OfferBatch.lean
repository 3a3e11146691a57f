import ArkadeSdk.Arkade.ProgramRederive
import ArkadeSdk.Script.Vhtlc
import ArkadeSdk.Swap.OfferCovenant
import Mathlib.Algebra.Order.BigOperators.Group.List

namespace ArkadeSdk.Offer

open WireFormat JsNumber BtcScript ScriptCoder JsRecord Vm

variable {Tree : Type} {L : ProgramLibraries Tree} {tx : Tx} {i : ℕ}

structure Deposit (L : ProgramLibraries Tree) where
  offer : Offer
  serverPubkey : Bytes
  script : ArkadeProgramScript Tree
  compiled : offerVtxoScript L offer serverPubkey = .ok script
  taproot : VHTLC.isP2trPkScript offer.makerPkScript = true
  asset : ∀ asset ∈ offer.wantAsset, asset.validate = .ok ()

/-- The fulfill covenant of the deposit accepts the transaction at input `i`. -/
def Accepted (tx : Tx) (i : ℕ) (deposit : Deposit L) : Prop :=
  ∃ bytes, covenant deposit.script = some bytes ∧ Accepts L.OP tx i bytes

theorem accepted_iff {deposit : Deposit L} : Accepted tx i deposit ↔ Fills tx deposit.offer := by
  obtain ⟨bytes, hbytes, hitems⟩ := covenant_items deposit.asset deposit.compiled
  unfold Accepted
  rw [hbytes]
  simp only [Option.some.injEq, exists_eq_left', accepts_iff (named_items _) hitems, run_items]

def Spends (tx : Tx) (inputs : List ℕ) (deposits : List (Deposit L)) : Prop :=
  inputs.Nodup ∧
    List.Forall₂ (fun i deposit ↦ i < tx.inputs.length ∧ Accepted tx i deposit) inputs deposits

def wants (deposits : List (Deposit L)) (makerPkScript : Bytes) (wanted : Option AssetKey) :
    List ℤ :=
  (deposits.filter fun deposit ↦ deposit.offer.makerPkScript = makerPkScript ∧
    deposit.offer.wanted = wanted).map fun deposit ↦ deposit.offer.wantAmount

/-- What the outputs that pay a taproot script carry together. -/
def paid (tx : Tx) (makerPkScript : Bytes) (wanted : Option AssetKey) : ℕ :=
  ((tx.outputs.filter fun out ↦ out.version = 1 ∧ out.program = makerPkScript.drop 2).map
    fun out ↦ (carried out wanted).getD 0).sum

def Delivers (tx : Tx) (deposits : List (Deposit L)) : Prop :=
  ∀ makerPkScript wanted, (wants deposits makerPkScript wanted).sum ≤ paid tx makerPkScript wanted

def largest (amounts : List ℤ) : ℤ := amounts.foldr max 0

theorem largest_le_iff {amounts : List ℤ} {z : ℤ} :
    largest amounts ≤ z ↔ 0 ≤ z ∧ ∀ a ∈ amounts, a ≤ z := by
  induction amounts with
  | nil => simp [largest]
  | cons a amounts ih =>
    simp only [largest, List.foldr_cons, max_le_iff, List.forall_mem_cons] at ih ⊢
    rw [ih]
    tauto

theorem le_largest {amounts : List ℤ} {a : ℤ} (h : a ∈ amounts) : a ≤ largest amounts :=
  (largest_le_iff.mp le_rfl).2 a h

theorem largest_nonneg (amounts : List ℤ) : 0 ≤ largest amounts :=
  (largest_le_iff.mp le_rfl).1

theorem mem_wants {deposits : List (Deposit L)} {deposit : Deposit L} (h : deposit ∈ deposits) :
    deposit.offer.wantAmount ∈
      wants deposits deposit.offer.makerPkScript deposit.offer.wanted :=
  List.mem_map_of_mem (List.mem_filter.mpr ⟨h, by simp⟩)

/-- A batch that no transaction fills short. -/
def Separate (deposits : List (Deposit L)) : Prop :=
  (∃ deposit ∈ deposits, ∃ other ∈ deposits,
    deposit.offer.makerPkScript ≠ other.offer.makerPkScript) ∨
  ∀ makerPkScript wanted, (wants deposits makerPkScript wanted).sum ≤
    largest (wants deposits makerPkScript wanted)

theorem Spends.fills {inputs : List ℕ} {deposits : List (Deposit L)}
    (h : Spends tx inputs deposits) : ∀ deposit ∈ deposits, Fills tx deposit.offer := by
  obtain ⟨-, hspends⟩ := h
  induction hspends with
  | nil => simp
  | cons hinput _ ih => exact List.forall_mem_cons.mpr ⟨accepted_iff.mp hinput.2, ih⟩

theorem taproot_ext {a b : Bytes} (ha : VHTLC.isP2trPkScript a = true)
    (hb : VHTLC.isP2trPkScript b = true) (h : a.drop 2 = b.drop 2) : a = b := by
  have hsplit : ∀ c : Bytes, VHTLC.isP2trPkScript c = true → c = 0x51 :: 0x20 :: c.drop 2 := by
    intro c hc
    match c with
    | [] => simp [VHTLC.isP2trPkScript] at hc
    | [_] => simp [VHTLC.isP2trPkScript] at hc
    | x :: y :: c =>
      simp only [VHTLC.isP2trPkScript, List.getElem?_cons_zero, List.getElem?_cons_succ,
        Option.some.injEq, Bool.and_eq_true, decide_eq_true_eq] at hc
      rw [hc.1.2, hc.2]
      rfl
  rw [hsplit a ha, hsplit b hb, h]

theorem fills_same_maker {deposit other : Deposit L} (h : Fills tx deposit.offer)
    (hother : Fills tx other.offer) : deposit.offer.makerPkScript = other.offer.makerPkScript := by
  obtain ⟨out, hout, -, hprogram, -⟩ := h
  obtain ⟨out', hout', -, hprogram', -⟩ := hother
  rw [hout] at hout'
  cases hout'
  exact taproot_ext deposit.taproot other.taproot (hprogram.symm.trans hprogram')

theorem Fills.le_paid {offer : Offer} (h : Fills tx offer) :
    offer.wantAmount ≤ paid tx offer.makerPkScript offer.wanted := by
  obtain ⟨out, hout, hversion, hprogram, amount, hamount, hle⟩ := h
  have hmem : out ∈ tx.outputs.filter fun out ↦
      out.version = 1 ∧ out.program = offer.makerPkScript.drop 2 :=
    List.mem_filter.mpr ⟨List.mem_of_getElem? hout, by simp [hversion, hprogram]⟩
  have hpaid : amount ≤ paid tx offer.makerPkScript offer.wanted := by
    have hsum := List.le_sum_of_mem (List.mem_map_of_mem
      (f := fun out ↦ (carried out offer.wanted).getD 0) hmem)
    rwa [hamount] at hsum
  omega

theorem Spends.largest_le_paid {inputs : List ℕ} {deposits : List (Deposit L)}
    (h : Spends tx inputs deposits) (makerPkScript : Bytes) (wanted : Option AssetKey) :
    largest (wants deposits makerPkScript wanted) ≤ paid tx makerPkScript wanted := by
  refine largest_le_iff.mpr ⟨by omega, fun a ha ↦ ?_⟩
  obtain ⟨deposit, hdeposit, rfl⟩ := List.mem_map.mp ha
  obtain ⟨hmem, heq⟩ := List.mem_filter.mp hdeposit
  obtain ⟨rfl, rfl⟩ : deposit.offer.makerPkScript = makerPkScript ∧
      deposit.offer.wanted = wanted := by simpa using heq
  exact (h.fills deposit hmem).le_paid

def leastAssets (deposits : List (Deposit L)) (makerPkScript : Bytes) : Assets where
  entries := (deposits.filterMap fun deposit ↦ deposit.offer.wanted).dedup.map fun key ↦
    (key, (largest (wants deposits makerPkScript (some key))).toNat)
  nodup := by
    rw [List.map_map]
    simpa [Function.comp_def] using List.nodup_dedup _

def leastOutput (deposits : List (Deposit L)) (makerPkScript : Bytes) : TxOut where
  version := 1
  program := makerPkScript.drop 2
  value := (largest (wants deposits makerPkScript none)).toNat
  assets := leastAssets deposits makerPkScript

/-- One input for each deposit, and one of the solver that brings what the output carries. -/
def leastTx (deposits : List (Deposit L)) (makerPkScript : Bytes) : Tx where
  inputs := deposits.map (fun _ ↦ ⟨0, ⟨[], List.nodup_nil⟩⟩) ++
    [⟨(leastOutput deposits makerPkScript).value, leastAssets deposits makerPkScript⟩]
  outputs := [leastOutput deposits makerPkScript]

theorem carried_leastOutput {deposits : List (Deposit L)} {deposit : Deposit L}
    (h : deposit ∈ deposits) (makerPkScript : Bytes) :
    carried (leastOutput deposits makerPkScript) deposit.offer.wanted =
      some (largest (wants deposits makerPkScript deposit.offer.wanted)).toNat := by
  cases hwanted : deposit.offer.wanted with
  | none => rfl
  | some key =>
    have hkey : key ∈ (deposits.filterMap fun deposit ↦ deposit.offer.wanted).dedup :=
      List.mem_dedup.mpr (List.mem_filterMap.mpr ⟨deposit, h, hwanted⟩)
    exact List.lookup_graph _ hkey

theorem leastTx_spends {deposits : List (Deposit L)} {makerPkScript : Bytes}
    (hmaker : ∀ deposit ∈ deposits, deposit.offer.makerPkScript = makerPkScript) :
    Spends (leastTx deposits makerPkScript) (List.range deposits.length) deposits := by
  refine ⟨List.nodup_range, List.forall₂_iff_get.mpr ⟨by simp, fun i hi hi' ↦ ?_⟩⟩
  simp only [List.get_eq_getElem, List.getElem_range]
  have hmem : deposits[i] ∈ deposits := List.getElem_mem hi'
  refine ⟨by simp [leastTx]; omega, accepted_iff.mpr ⟨_, rfl, rfl, ?_, _,
    carried_leastOutput hmem makerPkScript, ?_⟩⟩
  · rw [hmaker _ hmem]
    rfl
  · have hle := le_largest (mem_wants hmem)
    rw [hmaker _ hmem] at hle
    exact hle.trans (Int.self_le_toNat _)

theorem paid_leastTx {deposits : List (Deposit L)} {deposit : Deposit L} (h : deposit ∈ deposits)
    (makerPkScript : Bytes) :
    paid (leastTx deposits makerPkScript) makerPkScript deposit.offer.wanted =
      (largest (wants deposits makerPkScript deposit.offer.wanted)).toNat := by
  have hcarried := carried_leastOutput h makerPkScript
  simp only [paid, leastTx]
  rw [List.filter_cons_of_pos (by simp [leastOutput])]
  simp [hcarried]

/-- Every transaction that fills a batch delivers it, exactly where the batch is separate: output
0 is the one output that any of the covenants looks at. -/
theorem spends_deliver_iff (deposits : List (Deposit L)) :
    (∀ tx inputs, Spends tx inputs deposits → Delivers tx deposits) ↔ Separate deposits := by
  constructor
  · intro h
    by_contra hseparate
    simp only [Separate, not_or, not_exists, not_and, not_not, not_forall, not_le] at hseparate
    obtain ⟨hsame, makerPkScript, wanted, hlt⟩ := hseparate
    obtain ⟨a, ha⟩ : ∃ a, a ∈ wants deposits makerPkScript wanted := by
      apply List.exists_mem_of_ne_nil
      intro hnil
      rw [hnil] at hlt
      exact absurd hlt (by simp [largest])
    obtain ⟨deposit, hdeposit, -⟩ := List.mem_map.mp ha
    obtain ⟨hmem, heq⟩ := List.mem_filter.mp hdeposit
    obtain ⟨rfl, rfl⟩ : deposit.offer.makerPkScript = makerPkScript ∧
        deposit.offer.wanted = wanted := by simpa using heq
    have hdelivers := h _ _ (leastTx_spends fun other hother ↦ hsame other hother deposit hmem)
      deposit.offer.makerPkScript deposit.offer.wanted
    rw [paid_leastTx hmem, Int.toNat_of_nonneg (largest_nonneg _)] at hdelivers
    omega
  · intro h tx inputs hspends makerPkScript wanted
    rcases h with ⟨deposit, hdeposit, other, hother, hne⟩ | hsum
    · exact absurd (fills_same_maker (hspends.fills deposit hdeposit) (hspends.fills other hother))
        hne
    · exact (hsum makerPkScript wanted).trans (hspends.largest_le_paid makerPkScript wanted)

/-- Tweaking gives some key that is not one of the signers. -/
def fillLibraries : ProgramLibraries (List Bytes) where
  toLibraries := standardLibraries
  tweak _ _ := .ok (List.replicate 32 4)
  vtxoScript leaves := .ok leaves

/-- Fifty units of an asset for a thousand sats. -/
def sellOffer : Offer where
  swapPkScript := 0x51 :: 0x20 :: List.replicate 32 8
  wantAmount := 1000
  wantAsset := none
  offerAsset := some ⟨List.replicate 32 1, .ofNat 0⟩
  makerPkScript := 0x51 :: 0x20 :: List.replicate 32 7
  makerPublicKey := List.replicate 32 6
  emulatorPubkey := List.replicate 32 5

def units (amount : ℕ) : Assets :=
  ⟨[(⟨List.replicate 32 1, 0⟩, amount)], by simp⟩

/-- Two deposits and the solver's coin go in, one payment and the solver's takings come out. -/
def batchTx : Tx where
  inputs := [⟨330, units 50⟩, ⟨330, units 50⟩, ⟨2000, ⟨[], by simp⟩⟩]
  outputs := [⟨1, List.replicate 32 7, 1000, ⟨[], by simp⟩⟩, ⟨1, List.replicate 32 3, 1660, units 100⟩]

/-- Nothing is made or lost. -/
def Balanced (tx : Tx) : Prop :=
  ∀ wanted : Option AssetKey, (tx.inputs.map fun inp ↦ (carried ⟨0, [], inp.value, inp.assets⟩
    wanted).getD 0).sum = (tx.outputs.map fun out ↦ (carried out wanted).getD 0).sum

theorem batchTx_balanced : Balanced batchTx := by
  intro wanted
  cases wanted with
  | none => rfl
  | some key =>
    by_cases hkey : key = ⟨List.replicate 32 1, 0⟩
    · subst hkey
      rfl
    · have hlookup : ∀ amount, (units amount).amount key = none := by
        intro amount
        rw [units, Assets.amount, List.lookup_cons, beq_false_of_ne hkey]
        rfl
      have hempty : ∀ h, Assets.amount ⟨[], h⟩ key = none := fun _ ↦ rfl
      simp [batchTx, carried, hlookup, hempty]

/-- Both covenants accept the transaction that pays the maker once. -/
theorem batchTx_short : ∃ deposit : Deposit fillLibraries, deposit.offer = sellOffer ∧
    Spends batchTx [0, 1] [deposit, deposit] ∧ Balanced batchTx ∧
    ¬Delivers batchTx [deposit, deposit] := by
  obtain ⟨script, hscript⟩ : ∃ script,
      offerVtxoScript fillLibraries sellOffer (List.replicate 32 9) = .ok script := ⟨_, rfl⟩
  have hfills : Fills batchTx sellOffer := ⟨_, rfl, rfl, rfl, 1000, rfl, by decide⟩
  let deposit : Deposit fillLibraries :=
    ⟨sellOffer, List.replicate 32 9, script, hscript, by decide, by simp [sellOffer]⟩
  have haccepted : ∀ i, Accepted batchTx i deposit := fun i ↦ accepted_iff.mpr hfills
  refine ⟨deposit, rfl, ⟨by decide, ?_⟩, batchTx_balanced, fun hdelivers ↦ ?_⟩
  · exact .cons ⟨by decide, haccepted 0⟩ (.cons ⟨by decide, haccepted 1⟩ .nil)
  · have hpaid := hdelivers sellOffer.makerPkScript none
    have hwants : wants [deposit, deposit] sellOffer.makerPkScript none = [1000, 1000] := rfl
    rw [hwants] at hpaid
    exact absurd hpaid (by decide)

end ArkadeSdk.Offer
