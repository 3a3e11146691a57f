import ArkadeSdk.Wallet.AssetManager

/-! What the asset operations keep: every asset of the coins that are spent, and every satoshi. -/

namespace ArkadeSdk.AssetManager

open WireFormat JsNumber Asset Vtxo

theorem validateFrom_nodup {hex : HexCodec.Codec} {count : ℕ} {seen : List String}
    {groups : List AssetGroup} (h : Packet.validateFrom hex count seen groups = .ok ()) :
    (groups.filterMap (·.assetId)).Nodup ∧
      ∀ id ∈ groups.filterMap (·.assetId), hex.encode id.serializeTo ∉ seen := by
  induction groups generalizing seen with
  | nil => simp
  | cons group groups ih =>
    obtain ⟨seen', hseen, h⟩ := bind_ok.mp h
    obtain ⟨-, h⟩ := then_ok.mp h
    obtain ⟨hnodup, hnew⟩ := ih h
    cases hid : group.assetId with
    | none =>
      rw [hid] at hseen
      cases hseen
      rw [List.filterMap_cons_none hid]
      exact ⟨hnodup, hnew⟩
    | some id =>
      rw [hid] at hseen
      obtain ⟨hkey, hseen⟩ := then_ok.mp hseen
      obtain rfl := pure_ok.mp hseen
      rw [List.filterMap_cons_some hid]
      refine ⟨List.nodup_cons.mpr ⟨fun hmem ↦ ?_, hnodup⟩, ?_⟩
      · exact hnew id hmem List.mem_cons_self
      · intro id' hid'
        rcases List.mem_cons.mp hid' with rfl | hid'
        · exact rejectIf_ok.mp hkey
        · exact fun hmem ↦ hnew id' hid' (List.mem_cons_of_mem _ hmem)

theorem filter_assetId {groups : List AssetGroup} (h : (groups.filterMap (·.assetId)).Nodup)
    {group : AssetGroup} (hmem : group ∈ groups) {id : AssetId} (hid : group.assetId = some id) :
    groups.filter (·.assetId = some id) = [group] := by
  induction groups with
  | nil => cases hmem
  | cons g groups ih =>
    cases hg : g.assetId with
    | none =>
      rw [List.filterMap_cons_none hg] at h
      have hne : g ≠ group := by
        rintro rfl
        rw [hg] at hid
        cases hid
      rw [List.filter_cons_of_neg (by simp [hg])]
      exact ih h ((List.mem_cons.mp hmem).resolve_left hne.symm)
    | some id' =>
      rw [List.filterMap_cons_some hg] at h
      obtain ⟨hnew, hrest⟩ := List.nodup_cons.mp h
      by_cases heq : id' = id
      · subst heq
        have hnone : groups.filter (·.assetId = some id') = [] := by
          refine List.filter_eq_nil_iff.mpr fun g' hg' ↦ ?_
          simp only [decide_eq_true_eq]
          exact fun hid' ↦ hnew (List.mem_filterMap.mpr ⟨g', hg', hid'⟩)
        have hgroup : group = g := by
          rcases List.mem_cons.mp hmem with rfl | hmem
          · rfl
          · exact absurd (List.mem_filterMap.mpr ⟨group, hmem, hid⟩) hnew
        rw [List.filter_cons_of_pos (by simp [hg]), hnone, hgroup]
      · have hne : g ≠ group := by
          rintro rfl
          exact heq (Option.some.inj (hg.symm.trans hid))
        rw [List.filter_cons_of_neg (by simp [hg, heq])]
        exact ih hrest ((List.mem_cons.mp hmem).resolve_left hne.symm)

def carried (coins : List VirtualCoin) (assetId : String) : List AssetInput :=
  coins.zipIdx.flatMap fun (coin, inputIndex) ↦
    (coin.assetList.filter (·.assetId = assetId)).map
      fun asset ↦ .local (.ofNat inputIndex) asset.amount

def held (coins : List VirtualCoin) (assetId : String) : ℤ :=
  Tally.amountOf (assetsOf coins) assetId

def Holds (coins : List VirtualCoin) (assetId : String) : Prop :=
  ∃ coin ∈ coins, coin.hasAsset assetId = true

theorem holds_iff {coins : List VirtualCoin} {assetId : String} :
    Holds coins assetId ↔ assetId ∈ (assetsOf coins).map Prod.fst := by
  simp only [Holds, VirtualCoin.hasAsset, List.any_eq_true, decide_eq_true_eq, assetsOf,
    List.mem_map, List.mem_flatMap]
  constructor
  · rintro ⟨coin, hcoin, a, ha, rfl⟩
    exact ⟨(a.assetId, a.amount), ⟨coin, hcoin, a, ha, rfl⟩, rfl⟩
  · rintro ⟨_, ⟨coin, hcoin, a, ha, rfl⟩, rfl⟩
    exact ⟨coin, hcoin, a, ha, rfl⟩

theorem flatMap_selected (l : List (VirtualCoin × ℕ)) (assetId : String) :
    ((l.filter fun (coin, _) ↦ coin.assetList ≠ []).map
      fun (coin, inputIndex) ↦ (inputIndex, coin.assetList)).flatMap
        (fun (inputIndex, assets) ↦ (assets.filter (·.assetId = assetId)).map
          fun asset ↦ (inputIndex, asset.amount)) =
    l.flatMap fun p ↦ (p.1.assetList.filter (·.assetId = assetId)).map
      fun asset ↦ (p.2, asset.amount) := by
  induction l with
  | nil => rfl
  | cons p l ih =>
    obtain ⟨coin, inputIndex⟩ := p
    by_cases hnil : coin.assetList = []
    · rw [List.filter_cons_of_neg (by simp [hnil]), ih, List.flatMap_cons]
      simp only [hnil, List.filter_nil, List.map_nil, List.nil_append]
    · rw [List.filter_cons_of_pos (by simpa using hnil), List.map_cons, List.flatMap_cons, ih,
        List.flatMap_cons]

theorem changeInputs_eq (coins : List VirtualCoin) (assetId : String) :
    changeInputs (selectedCoinsToAssetInputs coins) assetId = .ok (carried coins assetId) := by
  have hcreate : ∀ p ∈ coins.zipIdx.flatMap fun p ↦
      (p.1.assetList.filter (·.assetId = assetId)).map fun asset ↦ (p.2, asset.amount),
      AssetInput.create (.ofNat p.1) (.bigint p.2) = .ok (.local (.ofNat p.1) p.2) :=
    fun p _ ↦ rfl
  unfold changeInputs selectedCoinsToAssetInputs
  rw [flatMap_selected, mapM_eq_map hcreate, carried, List.map_flatMap]
  simp only [List.map_map]
  rfl

variable {env : Surroundings} {coins : List VirtualCoin}

theorem assetGroup_ok {outputs : ℤ → Except Message (List AssetOutput)} {assetId : String}
    {amount : ℤ} {group : AssetGroup}
    (h : assetGroup env (selectedCoinsToAssetInputs coins) outputs assetId amount = .ok group) :
    ∃ id os, AssetId.fromString env.hex assetId = .ok id ∧ outputs amount = .ok os ∧
      group = ⟨some id, none, carried coins assetId, os, []⟩ := by
  obtain ⟨inputs, hinputs, h⟩ := bind_ok.mp h
  rw [changeInputs_eq] at hinputs
  obtain rfl := Except.ok.inj hinputs
  obtain ⟨id, hid, h⟩ := bind_ok.mp h
  obtain ⟨os, hos, h⟩ := bind_ok.mp h
  obtain ⟨-, h⟩ := then_ok.mp h
  exact ⟨id, os, hid, hos, (pure_ok.mp h).symm⟩

theorem wholeOutput_ok {amount : ℤ} {os : List AssetOutput} (h : wholeOutput amount = .ok os) :
    os = [⟨.ofNat 0, amount⟩] := by
  obtain ⟨output, houtput, h⟩ := bind_ok.mp h
  obtain rfl := pure_ok.mp h
  obtain ⟨amount', hamount, houtput⟩ := bind_ok.mp houtput
  obtain rfl := Except.ok.inj hamount
  obtain ⟨-, houtput⟩ := then_ok.mp houtput
  rw [pure_ok.mp houtput]

theorem remainingOutput_ok {amount : ℤ} {os : List AssetOutput}
    (h : remainingOutput amount = .ok os) (hnonneg : 0 ≤ amount) :
    (os.map (·.amount)).sum = amount ∧ ∀ o ∈ os, o.vout = .ofNat 0 := by
  unfold remainingOutput at h
  split at h
  · rw [wholeOutput_ok h]
    simp
  · obtain rfl := Except.ok.inj h
    simp only [List.map_nil, List.sum_nil, List.not_mem_nil, false_implies, implies_true, and_true]
    omega

/-- Each asset that the inputs hold or that changes has one group, which lists these inputs and
hands out what they hold with the change; all goes to the first output, which has all that the
inputs are worth. -/
structure Conserves (env : Surroundings) (change : String → ℤ) (packet : Packet)
    (s : Submission) : Prop where
  outputs : ∃ script, Extension.serialize ⟨[.asset packet]⟩ = .ok script ∧
    s.outputs = [⟨env.pkScript, totalValue s.inputs⟩, ⟨script, 0⟩]
  inputs : ∀ coin ∈ s.inputs, coin ∈ env.virtualCoins
  distinct : (outpoints s.inputs).Nodup
  group : ∀ assetId, Holds s.inputs assetId ∨ change assetId ≠ 0 → ∃ id group,
    AssetId.fromString env.hex assetId = .ok id ∧
      packet.groups.filter (·.assetId = some id) = [group] ∧
      group.inputs = carried s.inputs assetId ∧
      (group.outputs.map (·.amount)).sum = held s.inputs assetId + change assetId
  vout : ∀ group ∈ packet.groups, ∀ output ∈ group.outputs, output.vout = .ofNat 0

structure GroupOf (env : Surroundings) (coins : List VirtualCoin)
    (outputs : ℤ → Except Message (List AssetOutput)) (assetId : String) (amount : ℤ)
    (group : AssetGroup) : Prop where
  id : ∃ id, AssetId.fromString env.hex assetId = .ok id ∧ group.assetId = some id
  inputs : group.inputs = carried coins assetId
  outputs : outputs amount = .ok group.outputs

theorem groupOf {outputs : ℤ → Except Message (List AssetOutput)} {assetId : String}
    {amount : ℤ} {group : AssetGroup}
    (h : assetGroup env (selectedCoinsToAssetInputs coins) outputs assetId amount = .ok group) :
    GroupOf env coins outputs assetId amount group := by
  obtain ⟨id, os, hid, hos, rfl⟩ := assetGroup_ok h
  exact ⟨⟨id, hid, rfl⟩, rfl, hos⟩

theorem submission_ok {inputs : List VirtualCoin} {total : ℤ} {groups : List AssetGroup}
    {s : Submission} (h : submission env inputs total groups = .ok s) :
    (groups.filterMap (·.assetId)).Nodup ∧ s.inputs = inputs ∧
      ∃ script, Extension.serialize ⟨[.asset ⟨groups⟩]⟩ = .ok script ∧
        s.outputs = [⟨env.pkScript, total⟩, ⟨script, 0⟩] := by
  obtain ⟨packet, hpacket, h⟩ := bind_ok.mp h
  obtain ⟨hvalid, hpacket⟩ := then_ok.mp hpacket
  obtain rfl := pure_ok.mp hpacket
  obtain ⟨extension, hextension, h⟩ := bind_ok.mp h
  obtain ⟨-, hextension⟩ := then_ok.mp hextension
  obtain ⟨-, hextension⟩ := then_ok.mp hextension
  obtain rfl := pure_ok.mp hextension
  obtain ⟨script, hscript, h⟩ := bind_ok.mp h
  obtain rfl := pure_ok.mp h
  obtain ⟨-, hvalid⟩ := then_ok.mp hvalid
  exact ⟨(validateFrom_nodup hvalid).1, rfl, script, hscript, rfl⟩

theorem conserves {change : String → ℤ} {inputs : List VirtualCoin} {groups : List AssetGroup}
    {s : Submission} (h : submission env inputs (totalValue inputs) groups = .ok s)
    (hmem : ∀ coin ∈ inputs, coin ∈ env.virtualCoins) (hdistinct : (outpoints inputs).Nodup)
    (hgroup : ∀ assetId, Holds inputs assetId ∨ change assetId ≠ 0 → ∃ group ∈ groups,
      (∃ id, AssetId.fromString env.hex assetId = .ok id ∧ group.assetId = some id) ∧
        group.inputs = carried inputs assetId ∧
        (group.outputs.map (·.amount)).sum = held inputs assetId + change assetId)
    (hvout : ∀ group ∈ groups, ∀ output ∈ group.outputs, output.vout = .ofNat 0) :
    Conserves env change ⟨groups⟩ s := by
  obtain ⟨hnodup, rfl, houtputs⟩ := submission_ok h
  refine ⟨houtputs, hmem, hdistinct, fun assetId hholds ↦ ?_, hvout⟩
  obtain ⟨group, hmem, ⟨id, hid, hgid⟩, hinputs, hsum⟩ := hgroup assetId hholds
  exact ⟨id, group, hid, filter_assetId hnodup hmem hgid, hinputs, hsum⟩

theorem assetsOf_append (l l' : List VirtualCoin) : assetsOf (l ++ l') = assetsOf l ++ assetsOf l' :=
  List.flatMap_append

theorem totalValue_append (l l' : List VirtualCoin) :
    totalValue (l ++ l') = totalValue l + totalValue l' := by
  simp [totalValue]

theorem held_append (l l' : List VirtualCoin) (assetId : String) :
    held (l ++ l') assetId = held l assetId + held l' assetId := by
  rw [held, assetsOf_append, Tally.amountOf_append]
  rfl

/-- A selection and the coins added to it are coins of the wallet, and no coin is taken twice. -/
theorem additionalCoins_ok {selectedCoins additional : List VirtualCoin}
    (h : additionalCoins env selectedCoins = .ok additional)
    (hcoins : (outpoints env.virtualCoins).Nodup) (hsub : selectedCoins.Subperm env.virtualCoins) :
    (∀ coin ∈ selectedCoins ++ additional, coin ∈ env.virtualCoins) ∧
      (outpoints (selectedCoins ++ additional)).Nodup := by
  have hselected := nodup_outpoints hsub hcoins
  unfold additionalCoins at h
  dsimp only at h
  split at h
  · obtain ⟨selection, hselection, h⟩ := bind_ok.mp h
    obtain rfl := pure_ok.mp h
    have hadded := selectVirtualCoins_subperm hselection
    refine ⟨fun coin hcoin ↦ ?_, ?_⟩
    · rcases List.mem_append.mp hcoin with hcoin | hcoin
      · exact hsub.subset hcoin
      · exact List.mem_of_mem_filter (hadded.subset hcoin)
    · have hrest := nodup_outpoints hadded
        ((List.filter_sublist.map VirtualCoin.outpoint).nodup hcoins)
      rw [outpoints, List.map_append]
      refine List.nodup_append.mpr ⟨hselected, hrest, ?_⟩
      rintro o ho o' ho' rfl
      obtain ⟨sc, hsc, rfl⟩ := List.mem_map.mp ho
      obtain ⟨c, hc, hout⟩ := List.mem_map.mp ho'
      have hnot := (List.mem_filter.mp (hadded.subset hc)).2
      obtain ⟨htxid, hvout⟩ := Prod.mk.inj hout
      simp only [Bool.not_eq_true', List.any_eq_false, Bool.and_eq_true, decide_eq_true_eq] at hnot
      exact hnot sc hsc ⟨htxid.symm, hvout.symm⟩
  · obtain rfl := Except.ok.inj h
    rw [List.append_nil]
    exact ⟨fun coin hcoin ↦ hsub.subset hcoin, hselected⟩

theorem groups_of_changes {outputs : ℤ → Except Message (List AssetOutput)}
    {changes : JsMap.Entries String ℤ} {groups : List AssetGroup}
    (h : (changes.mapM fun (assetId, amount) ↦
      assetGroup env (selectedCoinsToAssetInputs coins) outputs assetId amount) = .ok groups) :
    (∀ assetId amount, (assetId, amount) ∈ changes →
      ∃ group ∈ groups, GroupOf env coins outputs assetId amount group) ∧
    ∀ group ∈ groups, ∃ assetId amount, (assetId, amount) ∈ changes ∧
      GroupOf env coins outputs assetId amount group := by
  constructor
  · intro assetId amount hmem
    obtain ⟨group, hmem, hgroup⟩ := exists_mem_mapM_ok h hmem
    exact ⟨group, hmem, groupOf hgroup⟩
  · intro group hgroup
    obtain ⟨⟨assetId, amount⟩, hmem, hgroup⟩ := mem_mapM_ok h hgroup
    exact ⟨assetId, amount, hmem, groupOf hgroup⟩

theorem GroupOf.whole {assetId : String} {amount : ℤ} {group : AssetGroup}
    (h : GroupOf env coins wholeOutput assetId amount group) :
    group.outputs = [⟨.ofNat 0, amount⟩] := wholeOutput_ok h.outputs

theorem GroupOf.not_issuance {outputs : ℤ → Except Message (List AssetOutput)} {assetId : String}
    {amount : ℤ} {group : AssetGroup} (h : GroupOf env coins outputs assetId amount group) :
    group.assetId ≠ none := by
  obtain ⟨id, -, hid⟩ := h.id
  rw [hid]
  exact Option.some_ne_none id

/-- A map of changes that holds what the inputs hold of its keys. -/
structure Changes (coins : List VirtualCoin) (change : String → ℤ)
    (changes : JsMap.Entries String ℤ) : Prop where
  nodup : (changes.map Prod.fst).Nodup
  amount : ∀ assetId amount, (assetId, amount) ∈ changes →
    amount = held coins assetId + change assetId

theorem changes_foldl (coins : List VirtualCoin) :
    Changes coins (fun _ ↦ 0) ((assetsOf coins).foldl Tally.add []) ∧
      ∀ assetId, Holds coins assetId →
        assetId ∈ ((assetsOf coins).foldl Tally.add []).map Prod.fst := by
  have hnodup : (((assetsOf coins).foldl Tally.add []).map Prod.fst).Nodup :=
    Tally.nodup_foldl_add _ List.nodup_nil
  refine ⟨⟨hnodup, fun assetId amount hmem ↦ ?_⟩, fun assetId hholds ↦ ?_⟩
  · have hget := Tally.get_foldl_add (assetsOf coins) [] assetId
    rw [JsMap.get_of_mem hnodup hmem] at hget
    simpa [held] using hget
  · exact (Tally.mem_keys_foldl_add _ _ _).mpr (.inr (holds_iff.mp hholds))

theorem issue_conserves {params : IssuanceParams} {s : Submission}
    (hcoins : (outpoints env.virtualCoins).Nodup) (h : issue env params = .ok s) :
    ∃ packet, Conserves env (fun _ ↦ 0) packet s ∧
      ∃ group, packet.groups.filter (·.assetId = none) = [group] ∧ group.inputs = [] ∧
        group.outputs = [⟨.ofNat 0, params.amount⟩] := by
  obtain ⟨-, h⟩ := then_ok.mp h
  obtain ⟨metadata, -, h⟩ := bind_ok.mp h
  obtain ⟨controlAssetRef, -, h⟩ := bind_ok.mp h
  obtain ⟨selection, hselection, h⟩ := bind_ok.mp h
  obtain ⟨output, houtput, h⟩ := bind_ok.mp h
  obtain ⟨issued, hissued, h⟩ := bind_ok.mp h
  obtain ⟨groups, hgroups, h⟩ := bind_ok.mp h
  have hsub := selectVirtualCoins_subperm hselection
  obtain ⟨hchanges, hkeys⟩ := changes_foldl selection.inputs
  obtain ⟨hkept, hmade⟩ := groups_of_changes hgroups
  obtain ⟨-, hissued⟩ := then_ok.mp hissued
  obtain rfl := pure_ok.mp hissued
  have hwhole : output = ⟨.ofNat 0, params.amount⟩ := by
    have hos : wholeOutput params.amount = .ok [output] := bind_ok.mpr ⟨output, houtput, rfl⟩
    exact (List.cons.inj (wholeOutput_ok hos)).1
  subst hwhole
  refine ⟨_, conserves h (fun coin hcoin ↦ hsub.subset hcoin) (nodup_outpoints hsub hcoins)
    (fun assetId hholds ↦ ?_) (fun group hgroup ↦ ?_),
    ⟨none, controlAssetRef, [], [⟨.ofNat 0, params.amount⟩], metadata⟩, ?_, rfl, rfl⟩
  · have hholds := hholds.resolve_right fun h ↦ h rfl
    obtain ⟨amount, hmem⟩ := Tally.exists_of_mem_keys (hkeys assetId hholds)
    obtain ⟨group, hgroup, hof⟩ := hkept assetId amount hmem
    refine ⟨group, List.mem_cons_of_mem _ hgroup, hof.id, hof.inputs, ?_⟩
    rw [hof.whole, ← hchanges.amount assetId amount hmem]
    simp
  · rcases List.mem_cons.mp hgroup with rfl | hgroup
    · simp
    · obtain ⟨assetId, amount, -, hof⟩ := hmade group hgroup
      rw [hof.whole]
      simp
  · have hnone : groups.filter (·.assetId = none) = [] := by
      refine List.filter_eq_nil_iff.mpr fun group hgroup ↦ ?_
      obtain ⟨assetId, amount, -, hof⟩ := hmade group hgroup
      simpa using hof.not_issuance
    rw [List.filter_cons_of_pos (by simp), hnone]

theorem countReissued_foldl (assetId : String) (l : List (String × ℤ))
    (counted : ℤ × JsMap.Entries String ℤ) :
    l.foldl (countReissued assetId) counted =
      (counted.1 + Tally.amountOf l assetId,
        (l.filter (·.1 ≠ assetId)).foldl Tally.add counted.2) := by
  induction l generalizing counted with
  | nil => simp
  | cons a l ih =>
    rw [List.foldl_cons, ih, Tally.amountOf_cons]
    unfold countReissued
    by_cases ha : a.1 = assetId
    · simp [ha, add_assoc]
    · simp [ha]

/-- The map of the assets that are not reissued holds what the coins hold of them. -/
theorem changes_others (target : String) (coins : List VirtualCoin) :
    let changes := ((assetsOf coins).filter (·.1 ≠ target)).foldl Tally.add []
    (∀ assetId amount, (assetId, amount) ∈ changes → amount = held coins assetId) ∧
      ∀ assetId, Holds coins assetId → assetId ≠ target → assetId ∈ changes.map Prod.fst := by
  intro changes
  have hnodup : (changes.map Prod.fst).Nodup := Tally.nodup_foldl_add _ List.nodup_nil
  have hkeys : ∀ assetId, assetId ∈ changes.map Prod.fst ↔
      assetId ∈ ((assetsOf coins).filter (·.1 ≠ target)).map Prod.fst := fun assetId ↦
    (Tally.mem_keys_foldl_add _ _ _).trans (by simp)
  constructor
  · intro assetId amount hmem
    have hne : target ≠ assetId := by
      rintro rfl
      have hkey := (hkeys target).mp (List.mem_map.mpr ⟨_, hmem, rfl⟩)
      obtain ⟨e, he, heq⟩ := List.mem_map.mp hkey
      exact absurd heq (by simpa using (List.mem_filter.mp he).2)
    have hget := Tally.get_foldl_add ((assetsOf coins).filter (·.1 ≠ target)) [] assetId
    rw [JsMap.get_of_mem hnodup hmem, Tally.amountOf_filter_ne hne] at hget
    simpa [held] using hget
  · intro assetId hholds hne
    obtain ⟨e, he, rfl⟩ := List.mem_map.mp (holds_iff.mp hholds)
    exact (hkeys e.1).mpr (List.mem_map.mpr ⟨e, List.mem_filter.mpr ⟨he, by simpa using hne⟩, rfl⟩)

theorem reissue_conserves {params : ReissuanceParams} {s : Submission}
    (hcoins : (outpoints env.virtualCoins).Nodup) (h : reissue env params = .ok s) :
    ∃ packet, Conserves env (fun assetId ↦ if assetId = params.assetId then params.amount else 0)
      packet s ∧ packet.groups.filter (·.assetId = none) = [] := by
  obtain ⟨-, h⟩ := then_ok.mp h
  obtain ⟨details, -, h⟩ := bind_ok.mp h
  split at h
  · cases h
  · obtain ⟨controlCoins, hcontrol, h⟩ := bind_ok.mp h
    obtain ⟨additional, hadditional, h⟩ := bind_ok.mp h
    rw [← List.foldl_append, ← assetsOf_append, countReissued_foldl] at h
    dsimp only at h
    obtain ⟨reissued, hreissued, h⟩ := bind_ok.mp h
    obtain ⟨groups, hgroups, h⟩ := bind_ok.mp h
    obtain ⟨hmem, hdistinct⟩ := additionalCoins_ok hadditional hcoins
      (selectCoinsWithAsset_subperm hcontrol)
    rw [← totalValue_append] at h
    have hof := groupOf hreissued
    obtain ⟨hkept, hmade⟩ := groups_of_changes hgroups
    have hchanges := changes_others params.assetId (controlCoins ++ additional)
    refine ⟨_, conserves h hmem hdistinct (fun assetId hholds ↦ ?_) (fun group hgroup ↦ ?_), ?_⟩
    · by_cases heq : assetId = params.assetId
      · subst heq
        refine ⟨reissued, List.mem_cons_self, hof.id, hof.inputs, ?_⟩
        rw [hof.whole]
        simp [held]
      · have hholds := hholds.resolve_right fun h ↦ h (if_neg heq)
        obtain ⟨amount, hentry⟩ := Tally.exists_of_mem_keys (hchanges.2 assetId hholds heq)
        obtain ⟨group, hgroup, hgof⟩ := hkept assetId amount hentry
        refine ⟨group, List.mem_cons_of_mem _ hgroup, hgof.id, hgof.inputs, ?_⟩
        rw [hgof.whole, hchanges.1 assetId amount hentry, if_neg heq]
        simp
    · rcases List.mem_cons.mp hgroup with rfl | hgroup
      · rw [hof.whole]
        simp
      · obtain ⟨assetId, amount, -, hgof⟩ := hmade group hgroup
        rw [hgof.whole]
        simp
    · refine List.filter_eq_nil_iff.mpr fun group hgroup ↦ ?_
      rcases List.mem_cons.mp hgroup with rfl | hgroup
      · simpa using hof.not_issuance
      · obtain ⟨assetId, amount, -, hgof⟩ := hmade group hgroup
        simpa using hgof.not_issuance

structure Listed (coin : VirtualCoin) : Prop where
  nodup : (coin.assetList.map (·.assetId)).Nodup
  positive : ∀ asset ∈ coin.assetList, 0 < asset.amount

theorem held_nonneg {coins : List VirtualCoin} (h : ∀ coin ∈ coins, Listed coin)
    (assetId : String) : 0 ≤ held coins assetId := by
  refine Tally.amountOf_nonneg (fun e he ↦ ?_) assetId
  obtain ⟨coin, hcoin, he⟩ := List.mem_flatMap.mp he
  obtain ⟨a, ha, rfl⟩ := List.mem_map.mp he
  exact ((h coin hcoin).positive a ha).le

theorem held_cons (coin : VirtualCoin) (hcoin : Listed coin) (coins : List VirtualCoin)
    (assetId : String) :
    held (coin :: coins) assetId = coin.assetAmount assetId + held coins assetId := by
  have hkeys : ((coin.assetList.map fun a ↦ (a.assetId, a.amount)).map Prod.fst).Nodup := by
    rw [List.map_map]
    exact hcoin.nodup
  have hone := Tally.amountOf_eq_find hkeys assetId
  rw [List.find?_map, Option.map_map] at hone
  rw [held, assetsOf, List.flatMap_cons, Tally.amountOf_append, hone]
  rfl

theorem takeAssets_total (assetId : String) (requiredAmount total : ℤ) (coins : List VirtualCoin)
    (h : ∀ coin ∈ coins, Listed coin) :
    (takeAssets assetId requiredAmount total coins).2 =
      total + held (takeAssets assetId requiredAmount total coins).1 assetId := by
  induction coins generalizing total with
  | nil => simp [takeAssets, held, assetsOf]
  | cons coin coins ih =>
    obtain ⟨hcoin, hcoins⟩ := List.forall_mem_cons.mp h
    unfold takeAssets
    split
    · simp [held, assetsOf]
    · dsimp only
      rw [ih _ hcoins, held_cons coin hcoin]
      omega

theorem selectCoinsWithAsset_held {coins selected : List VirtualCoin} {assetId : String}
    {requiredAmount : ℤ} (h : selectCoinsWithAsset coins assetId requiredAmount = .ok selected)
    (hlisted : ∀ coin ∈ coins, Listed coin) : requiredAmount ≤ held selected assetId := by
  obtain ⟨hless, h⟩ := then_ok.mp h
  obtain rfl := pure_ok.mp h
  have htotal := takeAssets_total assetId requiredAmount 0
    ((coins.filter (·.hasAsset assetId)).insertionSort
      fun a b ↦ a.assetAmount assetId ≤ b.assetAmount assetId) fun coin hcoin ↦
    hlisted coin (List.mem_of_mem_filter ((List.perm_insertionSort _ _).mem_iff.mp hcoin))
  have hle := rejectIf_ok.mp hless
  omega

theorem changes_burned (target : String) (amount : ℤ) (coins additional : List VirtualCoin) :
    let held₀ := (assetsOf coins).foldl Tally.add []
    let changes := (assetsOf additional).foldl Tally.add
      (JsMap.set target ((JsMap.get held₀ target).getD 0 - amount) held₀)
    Changes (coins ++ additional) (fun assetId ↦ if assetId = target then -amount else 0) changes ∧
      ∀ assetId, Holds (coins ++ additional) assetId ∨ assetId = target →
        assetId ∈ changes.map Prod.fst := by
  intro held₀ changes
  have hheldNodup : (held₀.map Prod.fst).Nodup :=
    Tally.nodup_foldl_add (assetsOf coins) (m := []) List.nodup_nil
  have hnodup : (changes.map Prod.fst).Nodup :=
    Tally.nodup_foldl_add _ (JsMap.nodup_set hheldNodup _ _)
  have hheld : ∀ assetId, (JsMap.get held₀ assetId).getD 0 = held coins assetId := by
    intro assetId
    have hget := Tally.get_foldl_add (assetsOf coins) [] assetId
    simpa [held] using hget
  refine ⟨⟨hnodup, fun assetId total hmem ↦ ?_⟩, fun assetId hholds ↦ ?_⟩
  · have hget := Tally.get_foldl_add (assetsOf additional)
      (JsMap.set target ((JsMap.get held₀ target).getD 0 - amount) held₀) assetId
    rw [JsMap.get_of_mem hnodup hmem, JsMap.get_set] at hget
    rw [held_append]
    by_cases heq : target = assetId
    · subst heq
      rw [if_pos rfl, hheld] at hget
      simp only [Option.getD_some] at hget
      rw [if_pos rfl, hget, held, held]
      ring
    · rw [if_neg heq, hheld] at hget
      simp only [Option.getD_some] at hget
      rw [if_neg fun h ↦ heq h.symm, hget, held, held, add_zero]
  · rw [Tally.mem_keys_foldl_add, JsMap.keys_set]
    rw [holds_iff, assetsOf_append, List.map_append, List.mem_append] at hholds
    rcases hholds with (hholds | hholds) | rfl
    · left
      have hkey : assetId ∈ held₀.map Prod.fst :=
        (Tally.mem_keys_foldl_add _ _ _).mpr (.inr hholds)
      split
      · exact hkey
      · exact List.mem_append_left _ hkey
    · exact .inr hholds
    · left
      split
      · assumption
      · exact List.mem_append_right _ List.mem_cons_self

theorem burn_conserves {params : BurnParams} {s : Submission}
    (hcoins : (outpoints env.virtualCoins).Nodup)
    (hlisted : ∀ coin ∈ env.virtualCoins, Listed coin) (h : burn env params = .ok s) :
    ∃ packet, Conserves env (fun assetId ↦ if assetId = params.assetId then -params.amount else 0)
      packet s ∧ packet.groups.filter (·.assetId = none) = [] := by
  obtain ⟨-, h⟩ := then_ok.mp h
  obtain ⟨assetCoins, hassetCoins, h⟩ := bind_ok.mp h
  obtain ⟨additional, hadditional, h⟩ := bind_ok.mp h
  obtain ⟨groups, hgroups, h⟩ := bind_ok.mp h
  obtain ⟨hmem, hdistinct⟩ := additionalCoins_ok hadditional hcoins
    (selectCoinsWithAsset_subperm hassetCoins)
  rw [← totalValue_append] at h
  obtain ⟨hchanges, hkeys⟩ := changes_burned params.assetId params.amount assetCoins additional
  obtain ⟨hkept, hmade⟩ := groups_of_changes hgroups
  have hall : ∀ coin ∈ assetCoins ++ additional, Listed coin := fun coin hcoin ↦
    hlisted coin (hmem coin hcoin)
  have henough := selectCoinsWithAsset_held hassetCoins hlisted
  -- what is left of an asset is never negative: what is burned is there
  have hnonneg : ∀ assetId, 0 ≤ held (assetCoins ++ additional) assetId +
      if assetId = params.assetId then -params.amount else 0 := by
    intro assetId
    by_cases heq : assetId = params.assetId
    · have hadded := held_nonneg (fun coin hcoin ↦ hall coin (List.mem_append_right _ hcoin))
        params.assetId
      rw [if_pos heq, heq, held_append]
      omega
    · rw [if_neg heq, add_zero]
      exact held_nonneg hall assetId
  have houtputs : ∀ assetId amount group,
      GroupOf env (assetCoins ++ additional) remainingOutput assetId amount group →
      (assetId, amount) ∈ _ → (group.outputs.map (·.amount)).sum = amount ∧
        ∀ o ∈ group.outputs, o.vout = .ofNat 0 := fun assetId amount group hof hentry ↦
    remainingOutput_ok hof.outputs ((hchanges.amount assetId amount hentry) ▸ hnonneg assetId)
  refine ⟨_, conserves h hmem hdistinct (fun assetId hholds ↦ ?_) (fun group hgroup ↦ ?_), ?_⟩
  · have hkey : Holds (assetCoins ++ additional) assetId ∨ assetId = params.assetId :=
      hholds.imp_right fun h ↦ by_contra fun hne ↦ h (if_neg hne)
    obtain ⟨amount, hentry⟩ := Tally.exists_of_mem_keys (hkeys assetId hkey)
    obtain ⟨group, hgroup, hof⟩ := hkept assetId amount hentry
    refine ⟨group, hgroup, hof.id, hof.inputs, ?_⟩
    rw [(houtputs assetId amount group hof hentry).1]
    exact hchanges.amount assetId amount hentry
  · obtain ⟨assetId, amount, hentry, hof⟩ := hmade group hgroup
    exact (houtputs assetId amount group hof hentry).2
  · refine List.filter_eq_nil_iff.mpr fun group hgroup ↦ ?_
    obtain ⟨assetId, amount, -, hof⟩ := hmade group hgroup
    simpa using hof.not_issuance

/-- What reaches `buildAndSubmitOffchainTx` keeps every asset and every satoshi, up to what is
issued, reissued or burned. -/
theorem assets_conserved (hcoins : (outpoints env.virtualCoins).Nodup)
    (hlisted : ∀ coin ∈ env.virtualCoins, Listed coin) :
    (∀ params s, issue env params = .ok s → ∃ packet, Conserves env (fun _ ↦ 0) packet s ∧
      ∃ group, packet.groups.filter (·.assetId = none) = [group] ∧ group.inputs = [] ∧
        group.outputs = [⟨.ofNat 0, params.amount⟩]) ∧
    (∀ params s, reissue env params = .ok s → ∃ packet,
      Conserves env (fun assetId ↦ if assetId = params.assetId then params.amount else 0)
        packet s ∧ packet.groups.filter (·.assetId = none) = []) ∧
    ∀ params s, burn env params = .ok s → ∃ packet,
      Conserves env (fun assetId ↦ if assetId = params.assetId then -params.amount else 0)
        packet s ∧ packet.groups.filter (·.assetId = none) = [] :=
  ⟨fun _ _ ↦ issue_conserves hcoins, fun _ _ ↦ reissue_conserves hcoins,
    fun _ _ ↦ burn_conserves hcoins hlisted⟩

/-- An asset id as a coin lists it: 34 bytes, all `0x11`. -/
def sampleAsset : String := String.ofList (List.replicate 68 '1')

def sampleCoin (txid : String) (value : ℤ) (assets : Option (List Vtxo.Asset)) : VirtualCoin :=
  ⟨txid, 0, value, 0, false, false, "", none, none, none, assets⟩

def controlAsset : String := String.ofList (List.replicate 68 '2')

/-- A wallet with a coin that holds ten of an asset, one that holds none and one that holds its
control asset. -/
def sampleWallet : Surroundings :=
  ⟨HexCodec.base16, fun _ ↦ [0x74], fun _ ↦ "", [sampleCoin "a" 330 (some [⟨sampleAsset, 10⟩]),
    sampleCoin "b" 1000 none, sampleCoin "c" 330 (some [⟨controlAsset, 1⟩])], 546, [0x51],
    fun _ ↦ .ok (some controlAsset)⟩

def sampleIssuance : IssuanceParams := ⟨7, some controlAsset, [("name", .text "T")]⟩

theorem sampleWallet_conserves :
    (∃ s packet, issue sampleWallet sampleIssuance = .ok s ∧
      Conserves sampleWallet (fun _ ↦ 0) packet s) ∧
    (∃ s packet, reissue sampleWallet ⟨sampleAsset, 5⟩ = .ok s ∧
      Conserves sampleWallet (fun assetId ↦ if assetId = sampleAsset then 5 else 0) packet s) ∧
    ∃ s packet, burn sampleWallet ⟨sampleAsset, 3⟩ = .ok s ∧
      Conserves sampleWallet (fun assetId ↦ if assetId = sampleAsset then -3 else 0) packet s := by
  have hlisted : ∀ coin ∈ sampleWallet.virtualCoins, Listed coin := by
    rintro coin (_ | ⟨_, _ | ⟨_, _ | ⟨_, ⟨⟩⟩⟩⟩)
    · exact ⟨by decide, by decide⟩
    · exact ⟨by decide, by decide⟩
    · exact ⟨by decide, by decide⟩
  have hdistinct : (outpoints sampleWallet.virtualCoins).Nodup := by decide
  obtain ⟨hissue, hreissue, hburn⟩ := assets_conserved hdistinct hlisted
  have hissued : (issue sampleWallet sampleIssuance).isOk = true := by decide +kernel
  have hreissued : (reissue sampleWallet ⟨sampleAsset, 5⟩).isOk = true := by decide +kernel
  have hburned : (burn sampleWallet ⟨sampleAsset, 3⟩).isOk = true := by decide +kernel
  obtain ⟨s, hs⟩ := isOk_iff.mp hissued
  obtain ⟨t, ht⟩ := isOk_iff.mp hreissued
  obtain ⟨u, hu⟩ := isOk_iff.mp hburned
  obtain ⟨issued, hissued, -⟩ := hissue _ _ hs
  obtain ⟨reissued, hreissued, -⟩ := hreissue _ _ ht
  obtain ⟨burned, hburned, -⟩ := hburn _ _ hu
  exact ⟨⟨s, issued, hs, hissued⟩, ⟨t, reissued, ht, hreissued⟩, u, burned, hu, hburned⟩

end ArkadeSdk.AssetManager
