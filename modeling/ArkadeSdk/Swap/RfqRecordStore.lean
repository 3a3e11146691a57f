import ArkadeSdk.Swap.PassFrame
import ArkadeSdk.Swap.RfqRecord

/-! The profile of a record stays in step with its live swap, write after write. -/

namespace ArkadeSdk.RfqRecord

open WireFormat JsNumber JsRecord BtcScript HexCodec Rfq
open Json (Value)

variable {Tree : Type} {L : RecordLibraries Tree}

/-- The swap after one more block of a pass. -/
def Drives (swap swap' : RfqSwap) : Prop :=
  ∃ env w await answer w' next, w.swap = swap ∧
    resume env w await answer = some (w', next) ∧ w'.swap = swap'

/-- What the manager does to a swap between two writes. -/
abbrev Updates : RfqSwap → RfqSwap → Prop := Relation.ReflTransGen Drives

theorem Updates.kept {swap swap' : RfqSwap} (h : Updates swap swap') :
    swap'.toRfqSwapTerms = swap.toRfqSwapTerms ∧
      (swap.funding.isSome → swap'.funding.isSome) ∧
      (swap.claimTxid.isSome → swap'.claimTxid.isSome) ∧
      (swap.claimArkTxid.isSome → swap'.claimArkTxid.isSome) := by
  induction h with
  | refl => exact ⟨rfl, id, id, id⟩
  | tail _ hdrives ih =>
    obtain ⟨env, w, await, answer, w', next, rfl, hresume, rfl⟩ := hdrives
    obtain ⟨hterms, hfunding, hclaim, hark⟩ := ih
    have hkept := resume_kept hresume
    exact ⟨hkept.terms.trans hterms, hkept.funding ∘ hfunding, hkept.claimTxid ∘ hclaim,
      hkept.claimArkTxid ∘ hark⟩

def store (L : RecordLibraries Tree) (origin : RfqSwapOrigin) (first : RfqSwap)
    (later : List RfqSwap) : Except Message RfqSwapRecord := do
  let record ← createRfqSwapRecord L origin first
  later.foldlM (updateRfqSwapRecord L) record

structure Records (profile : Profile) (name : String) (projected : Option Value)
    (present : Bool) : Prop where
  stored : ∀ value, projected = some value → profile.get name = some value
  present : (profile.get name).isSome = true → present = true

def textValue (text : Option String) : Option Value := (spelled text).map .string

def projectedNames : RfqSwapKind → List String
  | .lightning_send => []
  | .lightning_receive => ["expectedAmount", "claimArkTxid"]
  | .onchain_send => ["funding", "claimTxid"]

structure Mirrors (origin : RfqSwapOrigin) (profile : Profile) (swap : RfqSwap) : Prop where
  frame : ∀ name ∉ projectedNames swap.kind, profile.get name = origin.profile.get name
  expectedAmount : swap.kind = .lightning_receive →
    profile.get "expectedAmount" = some (.number swap.expectedAmount)
  claimArkTxid : swap.kind = .lightning_receive →
    Records profile "claimArkTxid" (textValue swap.claimArkTxid) swap.claimArkTxid.isSome
  funding : swap.kind = .onchain_send →
    Records profile "funding" (swap.funding.map fundingValue) swap.funding.isSome
  claimTxid : swap.kind = .onchain_send →
    Records profile "claimTxid" (textValue swap.claimTxid) swap.claimTxid.isSome

theorem get_project (profile : Profile) (swap : RfqSwap) (name : String) :
    (profile.spread (project swap.kind swap)).get name =
      ((project swap.kind swap).lookup name).or (profile.get name) := by
  apply Record.get_spread
  · cases swap.kind with
    | lightning_send => exact List.nodup_nil
    | lightning_receive =>
      unfold project textEntry
      cases spelled swap.claimArkTxid <;> simp
    | onchain_send =>
      unfold project textEntry
      cases swap.funding <;> cases spelled swap.claimTxid <;> simp
  · cases swap.kind with
    | lightning_send => exact List.not_mem_nil
    | lightning_receive =>
      unfold project textEntry
      cases spelled swap.claimArkTxid <;> simp
    | onchain_send =>
      unfold project textEntry
      cases swap.funding <;> cases spelled swap.claimTxid <;> simp

theorem lookup_textEntry (name : String) (text : Option String) :
    (textEntry name text).lookup name = textValue text := by
  unfold textEntry textValue
  cases spelled text <;> simp

theorem lookup_project_frame {swap : RfqSwap} {name : String}
    (h : name ∉ projectedNames swap.kind) : (project swap.kind swap).lookup name = none := by
  cases hkind : swap.kind with
  | lightning_send => rfl
  | lightning_receive =>
    rw [hkind] at h
    simp only [projectedNames, List.mem_cons, List.not_mem_nil, or_false, not_or] at h
    unfold project textEntry
    cases spelled swap.claimArkTxid <;> simp [lookup_cons_eq_ite, h]
  | onchain_send =>
    rw [hkind] at h
    simp only [projectedNames, List.mem_cons, List.not_mem_nil, or_false, not_or] at h
    unfold project textEntry
    cases swap.funding <;> cases spelled swap.claimTxid <;> simp [lookup_cons_eq_ite, h]

theorem Records.spread {profile : Profile} {swap : RfqSwap} {name : String}
    {projected : Option Value} {present : Bool}
    (hlookup : (project swap.kind swap).lookup name = projected)
    (hprojected : projected.isSome = true → present = true)
    (hbefore : (profile.get name).isSome = true → present = true) :
    Records (profile.spread (project swap.kind swap)) name projected present := by
  constructor
  · intro value hvalue
    rw [get_project, hlookup, hvalue]
    rfl
  · intro hsome
    rw [get_project, hlookup] at hsome
    cases hp : projected with
    | some value => exact hprojected (by rw [hp]; rfl)
    | none =>
      rw [hp, Option.none_or] at hsome
      exact hbefore hsome

theorem lookup_project_receive {swap : RfqSwap} (h : swap.kind = .lightning_receive) :
    (project swap.kind swap).lookup "expectedAmount" = some (.number swap.expectedAmount) ∧
      (project swap.kind swap).lookup "claimArkTxid" = textValue swap.claimArkTxid := by
  rw [h, ← lookup_textEntry "claimArkTxid"]
  exact ⟨rfl, rfl⟩

theorem lookup_project_onchain {swap : RfqSwap} (h : swap.kind = .onchain_send) :
    (project swap.kind swap).lookup "funding" = swap.funding.map fundingValue ∧
      (project swap.kind swap).lookup "claimTxid" = textValue swap.claimTxid := by
  rw [h, ← lookup_textEntry "claimTxid"]
  unfold project
  cases swap.funding with
  | some funding => exact ⟨rfl, rfl⟩
  | none =>
    refine ⟨?_, rfl⟩
    unfold textEntry
    cases spelled swap.claimTxid <;> rfl

theorem textValue_isSome {text : Option String} (h : (textValue text).isSome = true) :
    text.isSome = true := by
  cases text with
  | none => cases h
  | some s => rfl

/-- A write keeps the profile in step, from a profile that was ahead of the swap in nothing. -/
theorem Mirrors.spread {origin : RfqSwapOrigin} {profile : Profile} {swap : RfqSwap}
    (hframe : ∀ name ∉ projectedNames swap.kind, profile.get name = origin.profile.get name)
    (hclaimArk : swap.kind = .lightning_receive → (profile.get "claimArkTxid").isSome = true →
      swap.claimArkTxid.isSome = true)
    (hfunding : swap.kind = .onchain_send → (profile.get "funding").isSome = true →
      swap.funding.isSome = true)
    (hclaim : swap.kind = .onchain_send → (profile.get "claimTxid").isSome = true →
      swap.claimTxid.isSome = true) :
    Mirrors origin (profile.spread (project swap.kind swap)) swap where
  frame name hname := by
    rw [get_project, lookup_project_frame hname, Option.none_or]
    exact hframe name hname
  expectedAmount h := by
    rw [get_project, (lookup_project_receive h).1]
    rfl
  claimArkTxid h := .spread (lookup_project_receive h).2 textValue_isSome (hclaimArk h)
  funding h := .spread (lookup_project_onchain h).1 (by simp) (hfunding h)
  claimTxid h := .spread (lookup_project_onchain h).2 textValue_isSome (hclaim h)

/-- The origin and the swap are halves of one swap, and the origin has nothing yet that the
corridor projects. -/
structure Paired (L : RecordLibraries Tree) (origin : RfqSwapOrigin) (swap : RfqSwap) : Prop where
  kind : origin.kind = swap.kind
  address : L.decodeAddress origin.lockupAddress = .ok swap.lockupPkScript
  fresh : ∀ name ∈ ["claimArkTxid", "funding", "claimTxid"], origin.profile.get name = none

theorem assertSameSwap_ok {origin : RfqSwapOrigin} {swap : RfqSwap} (hkind : origin.kind = swap.kind)
    (haddress : L.decodeAddress origin.lockupAddress = .ok swap.lockupPkScript) :
    assertSameSwap L origin swap = .ok () := by
  unfold assertSameSwap Rfq.assertSameSwap
  simp only [hkind, ne_eq, not_true_eq_false, if_false, haddress]
  exact rejectIf_ok.mpr (by simp)

theorem createRfqSwapRecord_mirrors {origin : RfqSwapOrigin} {swap : RfqSwap}
    (h : Paired L origin swap) : ∃ profile, Mirrors origin profile swap ∧
      createRfqSwapRecord L origin swap = .ok (managerState origin profile swap) := by
  have habsent : ∀ name ∈ ["claimArkTxid", "funding", "claimTxid"], ∀ present : Bool,
      (origin.profile.get name).isSome = true → present = true := by
    intro name hname present hsome
    rw [h.fresh name hname] at hsome
    cases hsome
  refine ⟨origin.profile.spread (project swap.kind swap), .spread (fun _ _ ↦ rfl)
    (fun _ ↦ habsent _ (by simp) _) (fun _ ↦ habsent _ (by simp) _)
    (fun _ ↦ habsent _ (by simp) _), ?_⟩
  unfold createRfqSwapRecord
  rw [assertSameSwap_ok h.kind h.address, h.kind]
  rfl

theorem updateRfqSwapRecord_mirrors {origin : RfqSwapOrigin} {profile : Profile}
    {swap swap' : RfqSwap} (h : Paired L origin swap) (hmirrors : Mirrors origin profile swap)
    (hupdates : Updates swap swap') : ∃ profile', Mirrors origin profile' swap' ∧
      updateRfqSwapRecord L (managerState origin profile swap) swap' =
        .ok (managerState origin profile' swap') := by
  obtain ⟨hterms, hfunding, hclaim, hark⟩ := hupdates.kept
  have hkind : swap'.kind = swap.kind := congrArg RfqSwapTerms.kind hterms
  have hscript : swap'.lockupPkScript = swap.lockupPkScript :=
    congrArg RfqSwapTerms.lockupPkScript hterms
  refine ⟨profile.spread (project swap'.kind swap'), .spread ?_ ?_ ?_ ?_, ?_⟩
  · rw [hkind]
    exact hmirrors.frame
  · exact fun hk hsome ↦ hark ((hmirrors.claimArkTxid (hkind ▸ hk)).present hsome)
  · exact fun hk hsome ↦ hfunding ((hmirrors.funding (hkind ▸ hk)).present hsome)
  · exact fun hk hsome ↦ hclaim ((hmirrors.claimTxid (hkind ▸ hk)).present hsome)
  · have hsame : assertSameSwap L (managerState origin profile swap).toRfqSwapOrigin swap' =
        .ok () := assertSameSwap_ok (h.kind.trans hkind.symm) (hscript ▸ h.address)
    unfold updateRfqSwapRecord
    rw [hsame]
    have hrecord : (managerState origin profile swap).kind = swap'.kind := h.kind.trans hkind.symm
    simp only [hrecord]
    rfl

theorem store_mirrors {origin : RfqSwapOrigin} {first : RfqSwap} {later : List RfqSwap}
    (h : Paired L origin first) (hlater : List.IsChain Updates (first :: later)) :
    ∃ profile, Mirrors origin profile (later.getLastD first) ∧
      store L origin first later =
        .ok (managerState origin profile (later.getLastD first)) := by
  have hfold : ∀ (later : List RfqSwap) (swap : RfqSwap) (profile : Profile),
      Paired L origin swap → Mirrors origin profile swap → List.IsChain Updates (swap :: later) →
      ∃ profile', Mirrors origin profile' (later.getLastD swap) ∧
        later.foldlM (updateRfqSwapRecord L) (managerState origin profile swap) =
          .ok (managerState origin profile' (later.getLastD swap)) := by
    intro later
    induction later with
    | nil => exact fun swap profile _ hmirrors _ ↦ ⟨profile, hmirrors, rfl⟩
    | cons swap' later ih =>
      intro swap profile hpaired hmirrors hchain
      obtain ⟨hupdates, hchain⟩ := List.isChain_cons_cons.mp hchain
      obtain ⟨profile', hmirrors', hwrite⟩ :=
        updateRfqSwapRecord_mirrors hpaired hmirrors hupdates
      have hterms := hupdates.kept.1
      have hpaired' : Paired L origin swap' :=
        ⟨hpaired.kind.trans (congrArg RfqSwapTerms.kind hterms).symm,
          (congrArg RfqSwapTerms.lockupPkScript hterms) ▸ hpaired.address, hpaired.fresh⟩
      obtain ⟨profile'', hlast, hrest⟩ := ih swap' profile' hpaired' hmirrors' hchain
      rw [List.getLastD_cons]
      refine ⟨profile'', hlast, ?_⟩
      rw [List.foldlM_cons]
      exact bind_ok.mpr ⟨_, hwrite, hrest⟩
  obtain ⟨profile, hmirrors, hcreate⟩ := createRfqSwapRecord_mirrors h
  obtain ⟨profile', hlast, hrest⟩ := hfold later first profile h hmirrors hlater
  exact ⟨profile', hlast, bind_ok.mpr ⟨_, hcreate, hrest⟩⟩

theorem last_terms {first : RfqSwap} {later : List RfqSwap}
    (h : List.IsChain Updates (first :: later)) :
    (later.getLastD first).toRfqSwapTerms = first.toRfqSwapTerms := by
  induction later generalizing first with
  | nil => rfl
  | cons swap later ih =>
    obtain ⟨hupdates, hchain⟩ := List.isChain_cons_cons.mp h
    rw [List.getLastD_cons]
    exact (ih hchain).trans hupdates.kept.1

end ArkadeSdk.RfqRecord
