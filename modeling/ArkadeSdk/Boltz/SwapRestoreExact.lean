import ArkadeSdk.Boltz.SwapRestoreOwned

/-! Exactly when a restore attributes every swap of the wallet, and every record is good. -/

namespace ArkadeSdk.SwapRestore

open WireFormat JsNumber BtcScript HexCodec SwapCreation Selection
open Json (Value)

variable {Tap : Type} (L : SwapLibraries Tap)

theorem encode_ne_empty {b : Bytes} (h : b ≠ []) : base16.encode b ≠ "" := by
  intro hempty
  have hdecode := hexDecode_encode b
  rw [hempty] at hdecode
  have hnil : SwapCreation.hexDecode "" = .ok [] := rfl
  rw [hnil] at hdecode
  cases hdecode
  exact h rfl

theorem Signer.encode_ne_empty (signer : Signer) :
    base16.encode signer.compressedPublicKey ≠ "" := by
  apply SwapRestore.encode_ne_empty
  intro hnil
  have hlen := signer.length_compressed
  rw [hnil] at hlen
  cases hlen

theorem KeyText.ne_empty {text : String} {key : Bytes} (h : KeyText text key) : text ≠ "" := by
  rintro rfl
  obtain ⟨keyBytes, hdecode, hkey⟩ := h
  have hnil : SwapCreation.hexDecode "" = .ok [] := rfl
  rw [hnil] at hdecode
  cases hdecode
  cases hkey "" ""

def Wallet.identityKey (w : Wallet) : SwapOwnerKey :=
  ⟨base16.encode w.identity.compressedPublicKey, none⟩

theorem swapOwnerKeys_cases (w : Wallet) : swapOwnerKeys w = .ok w.keys ∧
    (w.keys = [w.identityKey] ∧
        (∀ hd used, w.hd = some hd → hd.getUsedSigningDescriptors ≠ .ok used) ∨
      ∃ hd used, w.hd = some hd ∧ hd.getUsedSigningDescriptors = .ok used ∧
        w.keys = used.foldl hd.addOwnerKey [w.identityKey]) := by
  have hidentity : rejectIf (base16.encode w.identity.compressedPublicKey = "")
      (message "Failed to get public key from wallet") = .ok () :=
    rejectIf_ok.mpr (Signer.encode_ne_empty _)
  have hkeys : ∀ {keys}, swapOwnerKeys w = .ok keys → w.keys = keys := by
    intro keys h
    rw [Wallet.keys, h]
  cases hhd : w.hd with
  | none =>
    have h : swapOwnerKeys w = .ok [w.identityKey] := by
      simp only [swapOwnerKeys, hhd]
      exact then_ok.mpr ⟨hidentity, rfl⟩
    rw [hkeys h]
    exact ⟨h, .inl ⟨rfl, by simp⟩⟩
  | some hd =>
    cases hused : hd.getUsedSigningDescriptors with
    | error e =>
      have h : swapOwnerKeys w = .ok [w.identityKey] := by
        simp only [swapOwnerKeys, hhd, hused]
        exact then_ok.mpr ⟨hidentity, rfl⟩
      rw [hkeys h]
      refine ⟨h, .inl ⟨rfl, ?_⟩⟩
      rintro _ used ⟨⟩ hok
      rw [hused] at hok
      cases hok
    | ok used =>
      have h : swapOwnerKeys w = .ok (used.foldl hd.addOwnerKey [w.identityKey]) := by
        simp only [swapOwnerKeys, hhd, hused]
        exact then_ok.mpr ⟨hidentity, rfl⟩
      rw [hkeys h]
      exact ⟨h, .inr ⟨hd, used, rfl, hused, rfl⟩⟩

theorem mem_foldl_addOwnerKey {hd : HDWallet} {owner : SwapOwnerKey} :
    ∀ {used : List String} {acc : List SwapOwnerKey}, owner ∈ used.foldl hd.addOwnerKey acc →
      owner ∈ acc ∨ ∃ d ∈ used, ∃ key, hd.deriveDescriptorLeafCompressedPubKey d = .ok key ∧
        owner = ⟨base16.encode key, some d⟩
  | [], _, h => .inl h
  | d :: used, acc, h => by
    have htail : owner ∈ used.foldl hd.addOwnerKey (hd.addOwnerKey acc d) := h
    rcases mem_foldl_addOwnerKey htail with hacc | ⟨d', hd', key, hkey, rfl⟩
    · unfold HDWallet.addOwnerKey at hacc
      split at hacc
      · exact .inl hacc
      · next key hkey =>
        split at hacc
        · exact .inl hacc
        · rcases List.mem_append.mp hacc with hacc | hnew
          · exact .inl hacc
          · exact .inr ⟨d, List.mem_cons_self, key, hkey, List.mem_singleton.mp hnew⟩
    · exact .inr ⟨d', List.mem_cons_of_mem _ hd', key, hkey, rfl⟩

/-- A key stays, and every key that a descriptor has is there in the end. -/
theorem foldl_addOwnerKey_mem (hd : HDWallet) : ∀ (used : List String) (acc : List SwapOwnerKey),
    (∀ owner ∈ acc, owner ∈ used.foldl hd.addOwnerKey acc) ∧
    ∀ d ∈ used, ∀ key, hd.deriveDescriptorLeafCompressedPubKey d = .ok key →
      ∃ owner ∈ used.foldl hd.addOwnerKey acc, owner.publicKey = base16.encode key
  | [], acc => ⟨fun _ h ↦ h, by simp⟩
  | d :: used, acc => by
    obtain ⟨hkept, hadded⟩ := foldl_addOwnerKey_mem hd used (hd.addOwnerKey acc d)
    have hstays : ∀ owner ∈ acc, owner ∈ hd.addOwnerKey acc d := by
      intro owner howner
      unfold HDWallet.addOwnerKey
      split
      · exact howner
      · split
        · exact howner
        · exact List.mem_append_left _ howner
    have hown : ∀ key, hd.deriveDescriptorLeafCompressedPubKey d = .ok key →
        ∃ owner ∈ hd.addOwnerKey acc d, owner.publicKey = base16.encode key := by
      intro key hkey
      simp only [HDWallet.addOwnerKey, hkey]
      split
      · next hany =>
        obtain ⟨owner, howner, heq⟩ := List.any_eq_true.mp hany
        exact ⟨owner, howner, of_decide_eq_true heq⟩
      · exact ⟨⟨base16.encode key, some d⟩, by simp, rfl⟩
    refine ⟨fun owner howner ↦ hkept owner (hstays owner howner), ?_⟩
    intro d' hd' key hkey
    rcases List.mem_cons.mp hd' with rfl | hd'
    · obtain ⟨owner, howner, heq⟩ := hown key hkey
      exact ⟨owner, hkept owner howner, heq⟩
    · exact hadded d' hd' key hkey

theorem signer_of_mem {w : Wallet} {owner : SwapOwnerKey} (h : owner ∈ w.keys) :
    w.Holds owner.publicKey ∧ ∃ signer, swapSigner w owner.signingDescriptor = .ok signer ∧
      KeyText owner.publicKey signer.xOnlyPublicKey := by
  have hidentity : owner ∈ [w.identityKey] → w.Holds owner.publicKey ∧
      ∃ signer, swapSigner w owner.signingDescriptor = .ok signer ∧
        KeyText owner.publicKey signer.xOnlyPublicKey := by
    intro howner
    obtain rfl := List.mem_singleton.mp howner
    exact ⟨.inl rfl, w.identity, rfl, keyText_signer _⟩
  obtain ⟨-, ⟨hkeys, -⟩ | ⟨hd, used, hhd, hused, hkeys⟩⟩ := swapOwnerKeys_cases w
  · rw [hkeys] at h
    exact hidentity h
  · rw [hkeys] at h
    rcases mem_foldl_addOwnerKey h with h | ⟨d, hmem, key, hkey, rfl⟩
    · exact hidentity h
    · refine ⟨.inr ⟨hd, used, d, key, hhd, hused, hmem, hkey, rfl⟩, ?_⟩
      obtain ⟨signer, hsigner, rfl⟩ := hd.signer_of_used hused hmem hkey
      have hne : d ≠ "" := by
        rintro rfl
        exact hd.derive_empty _ hkey
      have hfilter : (some d).filter (· ≠ "") = some d := by simp [Option.filter, hne]
      refine ⟨signer, ?_, keyText_signer signer⟩
      simp only [swapSigner, hfilter, hhd, hsigner]

theorem Wallet.Holds.mem {w : Wallet} {publicKey : String} (h : w.Holds publicKey) :
    ∃ owner ∈ w.keys, owner.publicKey = publicKey := by
  obtain ⟨-, ⟨hkeys, hnone⟩ | ⟨hd, used, hhd, hused, hkeys⟩⟩ := swapOwnerKeys_cases w
  · rcases h with rfl | ⟨hd, used, _, _, hhd, hused, -⟩
    · exact ⟨w.identityKey, by simp [hkeys], rfl⟩
    · exact absurd hused (hnone hd used hhd)
  · rw [hkeys]
    rcases h with rfl | ⟨hd', used', d, key, hhd', hused', hmem, hkey, rfl⟩
    · exact ⟨w.identityKey, (foldl_addOwnerKey_mem hd used _).1 _ List.mem_cons_self, rfl⟩
    · rw [hhd] at hhd'
      cases hhd'
      rw [hused] at hused'
      cases hused'
      exact (foldl_addOwnerKey_mem hd used _).2 d hmem key hkey

theorem filter_ne_empty_iff {text : Option String} {s : String} :
    text.filter (· ≠ "") = some s ↔ text = some s ∧ s ≠ "" := by
  cases text with
  | none => simp
  | some t =>
    simp only [Option.filter_eq_some_iff, Option.some.injEq, decide_eq_true_eq]

theorem matchSwapOwner_iff {arkInfo : ArkInfo} {candidates : List SwapOwnerKey} {leg : Leg}
    {preimageHash swapId : String} {timeouts : TimeoutBlockHeights} {owner : SwapOwnerKey} :
    matchSwapOwner L arkInfo candidates leg.ourRole leg.details.serverPublicKey preimageHash
      timeouts leg.details.lockupAddress swapId = some owner ↔
      ∃ hashBytes before after, SwapCreation.hexDecode preimageHash = .ok hashBytes ∧
        candidates = before ++ owner :: after ∧
        leg.ProbedFor L arkInfo owner.publicKey hashBytes timeouts ∧
        ∀ earlier ∈ before, ¬leg.ProbedFor L arkInfo earlier.publicKey hashBytes timeouts := by
  unfold matchSwapOwner
  cases hdecode : SwapCreation.hexDecode preimageHash with
  | error e => simp
  | ok hashBytes =>
    simp only [List.find?_eq_some_iff_append, Bool.not_eq_true', ← Bool.not_eq_true, isOk_iff,
      ← probed_iff]
    constructor
    · rintro ⟨hprobed, before, after, rfl, hnone⟩
      exact ⟨hashBytes, before, after, rfl, rfl, hprobed, hnone⟩
    · rintro ⟨_, before, after, ⟨⟩, rfl, hprobed, hnone⟩
      exact ⟨hprobed, before, after, rfl, hnone⟩

theorem attributed_iff (leg : Leg) {arkInfo : ArkInfo} {candidates : List SwapOwnerKey}
    {readHash : Option String} {swapId : String} {found : Attribution} :
    attributed L arkInfo candidates leg.ourRole leg.details readHash swapId = some found ↔
      readHash = some found.preimageHash ∧ ∃ hashBytes before after,
        SwapCreation.hexDecode found.preimageHash = .ok hashBytes ∧
        Read L leg readHash hashBytes found.timeoutBlockHeights ∧
        candidates = before ++ found.owner :: after ∧
        leg.ProbedFor L arkInfo found.owner.publicKey hashBytes found.timeoutBlockHeights ∧
        ∀ earlier ∈ before,
          ¬leg.ProbedFor L arkInfo earlier.publicKey hashBytes found.timeoutBlockHeights := by
  unfold attributed
  constructor
  · intro h
    split at h
    · next hash timeouts hfilter htimeouts =>
      obtain ⟨rfl, hne⟩ := filter_ne_empty_iff.mp hfilter
      obtain ⟨owner, howner, rfl⟩ := Option.map_eq_some_iff.mp h
      obtain ⟨hashBytes, before, after, hdecode, heq, hprobed, hnone⟩ :=
        (matchSwapOwner_iff L).mp howner
      exact ⟨rfl, hashBytes, before, after, hdecode, ⟨⟨hash, rfl, hne, hdecode⟩, htimeouts⟩, heq,
        hprobed, hnone⟩
    · cases h
  · rintro ⟨rfl, hashBytes, before, after, hdecode, ⟨⟨_, ⟨⟩, hne, -⟩, htimeouts⟩, heq, hprobed,
      hnone⟩
    rw [filter_ne_empty_iff.mpr ⟨rfl, hne⟩, htimeouts]
    refine Option.map_eq_some_iff.mpr ⟨found.owner, (matchSwapOwner_iff L).mpr ?_, rfl⟩
    exact ⟨hashBytes, before, after, hdecode, heq, hprobed, hnone⟩

/-- A leg that is found for some key of the wallet is attributed to the first such key. -/
theorem attributed_isSome {w : Wallet} {arkInfo : ArkInfo} {leg : Leg} {readHash : Option String}
    (swapId : String) :
    (attributed L arkInfo w.keys leg.ourRole leg.details readHash swapId).isSome ↔
      Found L w arkInfo leg readHash := by
  rw [Option.isSome_iff_exists]
  constructor
  · rintro ⟨found, h⟩
    obtain ⟨-, hashBytes, before, after, -, hread, hkeys, hprobed, -⟩ := (attributed_iff L leg).mp h
    have hmem : found.owner ∈ w.keys := by
      rw [hkeys]
      exact List.mem_append_right _ List.mem_cons_self
    exact ⟨found.owner.publicKey, hashBytes, _, (signer_of_mem hmem).1, hread, hprobed⟩
  · rintro ⟨publicKey, hashBytes, timeouts, hholds, hread, hprobed⟩
    obtain ⟨owner, howner, rfl⟩ := hholds.mem
    obtain ⟨⟨hash, rfl, hne, hdecode⟩, htimeouts⟩ := hread
    have hfound : (matchSwapOwner L arkInfo w.keys leg.ourRole leg.details.serverPublicKey hash
        timeouts leg.details.lockupAddress swapId).isSome := by
      simp only [matchSwapOwner, hdecode, List.find?_isSome, isOk_iff, ← probed_iff]
      exact ⟨owner, howner, hprobed⟩
    obtain ⟨first, hfirst⟩ := Option.isSome_iff_exists.mp hfound
    refine ⟨⟨first, hash, timeouts⟩, ?_⟩
    unfold attributed
    rw [filter_ne_empty_iff.mpr ⟨rfl, hne⟩, htimeouts]
    exact Option.map_eq_some_iff.mpr ⟨first, hfirst, rfl⟩

theorem attributed_locked (leg : Leg) {w : Wallet} {arkInfo : ArkInfo} {readHash : Option String}
    {swapId : String} {found : Attribution}
    (h : attributed L arkInfo w.keys leg.ourRole leg.details readHash swapId = some found)
    (hread : ∀ hash, readHash = some hash → hash ∈ leg.hashes) :
    w.Holds found.owner.publicKey ∧ LockedTo L arkInfo leg found.owner.publicKey := by
  obtain ⟨hhash, hashBytes, before, after, hdecode, ⟨⟨_, hsome, hne, -⟩, htimeouts⟩, hkeys, hprobed,
    -⟩ := (attributed_iff L leg).mp h
  rw [hhash] at hsome
  cases hsome
  have hmem : found.owner ∈ w.keys := by
    rw [hkeys]
    exact List.mem_append_right _ List.mem_cons_self
  obtain ⟨server, hserver, hlocked⟩ := hprobed.lockedUnder
  exact ⟨(signer_of_mem hmem).1, found.preimageHash, hread _ hhash, hne, hashBytes, hdecode,
    found.timeoutBlockHeights, states_of_resolve L htimeouts, server, hserver, hlocked⟩

theorem lockupArgs_receiver {arkInfo : ArkInfo} {ours counterparty : String} {hashBytes : Bytes}
    {timeouts : TimeoutBlockHeights} :
    lockupArgs arkInfo .receiver ours counterparty hashBytes timeouts =
      ⟨arkInfo.network, hashBytes, ours, counterparty, timeouts⟩ := rfl

theorem lockupArgs_sender {arkInfo : ArkInfo} {ours counterparty : String} {hashBytes : Bytes}
    {timeouts : TimeoutBlockHeights} :
    lockupArgs arkInfo .sender ours counterparty hashBytes timeouts =
      ⟨arkInfo.network, hashBytes, counterparty, ours, timeouts⟩ := rfl

theorem LockedUnder.keys {arkInfo : ArkInfo} {leg : Leg} {publicKey lockupAddress server : String}
    {hashBytes : Bytes} {timeouts : TimeoutBlockHeights}
    (h : LockedUnder L (leg.args arkInfo publicKey hashBytes timeouts) lockupAddress server) :
    (∃ ours, KeyText publicKey ours) ∧ ∃ theirs, KeyText leg.details.serverPublicKey theirs := by
  obtain ⟨script, hscript⟩ := h
  obtain ⟨receiver, sender, -, hr, hs, -⟩ := (createVHTLCScript_ok L).mp hscript
  rw [Leg.args] at hr hs
  cases hrole : leg.ourRole with
  | receiver =>
    rw [hrole, lockupArgs_receiver] at hr hs
    exact ⟨⟨_, hr⟩, _, hs⟩
  | sender =>
    rw [hrole, lockupArgs_sender] at hr hs
    exact ⟨⟨_, hs⟩, _, hr⟩

theorem Probed.retext {arkInfo : ArkInfo} {args : LockupArgs} {lockupAddress : String}
    {receiverPubkey senderPubkey : String} {receiver sender : Bytes}
    (h : Probed L arkInfo args lockupAddress)
    (hr : KeyText args.receiverPubkey receiver) (hs : KeyText args.senderPubkey sender)
    (hr' : KeyText receiverPubkey receiver) (hs' : KeyText senderPubkey sender) :
    Probed L arkInfo ⟨args.network, args.preimageHash, receiverPubkey, senderPubkey,
      args.timeoutBlockHeights⟩ lockupAddress := by
  obtain ⟨before, server, after, hcandidates, ⟨script, hscript⟩, hbuilt⟩ := h
  refine ⟨before, server, after, hcandidates,
    ⟨script, (createVHTLCScript_retext L hr hs hr' hs').mpr hscript⟩, fun earlier hearlier ↦ ?_⟩
  obtain ⟨built, hbuilt⟩ := hbuilt earlier hearlier
  exact ⟨built, (createVHTLCScript_retext L hr hs hr' hs').mpr hbuilt⟩

theorem ProbedFor.rebuilt {arkInfo : ArkInfo} {leg : Leg} {publicKey : String} {hashBytes : Bytes}
    {timeouts : TimeoutBlockHeights} {signer : Signer}
    (h : leg.ProbedFor L arkInfo publicKey hashBytes timeouts)
    (hsigner : KeyText publicKey signer.xOnlyPublicKey) :
    ∃ theirs, KeyText leg.details.serverPublicKey theirs ∧ ∀ swapId, ∃ resolved,
      resolveVHTLCForLockup L arkInfo (lockupArgs arkInfo leg.ourRole
        (base16.encode signer.xOnlyPublicKey) (base16.encode theirs) hashBytes timeouts)
        leg.details.lockupAddress swapId = .ok resolved ∧
      Rebuilt L arkInfo leg.ourRole publicKey leg.details.lockupAddress signer resolved := by
  obtain ⟨server, -, hlocked⟩ := Probed.lockedUnder L h
  obtain ⟨⟨ours, hours⟩, theirs, htheirs⟩ := LockedUnder.keys L hlocked
  obtain rfl := hsigner.unique hours
  have hours' := keyText_encode hsigner.length
  have htheirs' := keyText_encode htheirs.length
  refine ⟨theirs, htheirs, fun swapId ↦ ?_⟩
  -- our key is on the side of our role, before and after
  have hprobed : Probed L arkInfo (lockupArgs arkInfo leg.ourRole
      (base16.encode signer.xOnlyPublicKey) (base16.encode theirs) hashBytes timeouts)
      leg.details.lockupAddress := by
    unfold Leg.ProbedFor Leg.args at h
    cases hrole : leg.ourRole with
    | receiver =>
      rw [hrole, lockupArgs_receiver] at h
      rw [lockupArgs_receiver]
      have hretext := Probed.retext L h hsigner htheirs hours' htheirs'
      exact hretext
    | sender =>
      rw [hrole, lockupArgs_sender] at h
      rw [lockupArgs_sender]
      have hretext := Probed.retext L h htheirs hsigner htheirs' hours'
      exact hretext
  obtain ⟨resolved, hresolved⟩ := (probed_iff L swapId).mp hprobed
  obtain ⟨candidates, -, hprobe⟩ := (resolveVHTLCForLockup_iff L).mp hresolved
  obtain ⟨receiver, sender, hr, hs, hlockup⟩ := probeCandidates_built L hprobe
  obtain ⟨hreceiver, hsender, haddress⟩ := lockupScript_keys L hlockup
  refine ⟨resolved, hresolved, hsigner, ?_, haddress⟩
  cases hrole : leg.ourRole with
  | receiver =>
    rw [hrole, lockupArgs_receiver] at hr
    exact hreceiver.trans (hours'.unique hr).symm
  | sender =>
    rw [hrole, lockupArgs_sender] at hs
    exact hsender.trans (hours'.unique hs).symm

theorem normalize_signer (signer : Signer) (keyName swapId : String) :
    normalizeToXOnlyKey signer.xOnlyPublicKey keyName swapId = .ok signer.xOnlyPublicKey :=
  normalizeToXOnlyKey_ok.mpr (.inr ⟨signer.length_xOnly, rfl⟩)

theorem Rebuilt.address_ne {arkInfo : ArkInfo} {ourRole : Role} {publicKey lockupAddress : String}
    {signer : Signer} {resolved : ResolvedLockup Tap}
    (haddress : ∀ tree hrp key, L.arkAddress tree hrp key ≠ "")
    (h : Rebuilt L arkInfo ourRole publicKey lockupAddress signer resolved) :
    lockupAddress ≠ "" := by
  obtain ⟨hrp, -, heq⟩ := h.address
  rw [← heq]
  exact haddress _ _ _

theorem RestoredReverseSwap.readHash_mem {swap : RestoredReverseSwap} {hash : String}
    (h : swap.readHash = some hash) : hash ∈ swap.leg.hashes := by
  simp only [readHash, leg, Leg.hashes, List.mem_append, Option.mem_toList] at h ⊢
  rcases Option.or_eq_some_iff.mp h with h | ⟨-, h⟩
  · exact .inr h
  · exact .inl h

theorem RestoredSubmarineSwap.readHash_mem {swap : RestoredSubmarineSwap} {hash : String}
    (h : swap.readHash = some hash) : hash ∈ swap.leg.hashes := by
  simp only [readHash, leg, Leg.hashes, List.mem_append, Option.mem_toList] at h ⊢
  rcases Option.or_eq_some_iff.mp h with h | ⟨-, h⟩
  · exact .inl h
  · exact .inr h

variable {w : Wallet} {arkInfo : ArkInfo} {fees : ReverseFees}

theorem restoreReverse_isSome (swap : RestoredReverseSwap) :
    (restoreReverse L arkInfo w.keys fees swap).isSome ↔
      Found L w arkInfo swap.leg swap.readHash := by
  rw [← attributed_isSome L swap.id]
  simp only [restoreReverse, Option.isSome_map]
  rfl

theorem restoreReverse_attributed {swap : RestoredReverseSwap} {record : BoltzReverseSwap}
    (h : restoreReverse L arkInfo w.keys fees swap = some record) :
    Owned L w arkInfo swap.leg ∧ AttributedReverse L w arkInfo swap record := by
  obtain ⟨found, hfound, rfl⟩ := Option.map_eq_some_iff.mp h
  obtain ⟨hholds, hlocked⟩ := attributed_locked L swap.leg hfound
    fun _ ↦ swap.readHash_mem
  exact ⟨⟨_, hholds, hlocked⟩, rfl, hholds, hlocked, rfl⟩

theorem filter_some_ne {s : String} (h : s ≠ "") : (some s).filter (· ≠ "") = some s :=
  filter_ne_empty_iff.mpr ⟨rfl, h⟩

theorem restoreReverse_claims (haddress : ∀ tree hrp key, L.arkAddress tree hrp key ≠ "")
    {swap : RestoredReverseSwap} {record : BoltzReverseSwap}
    (h : restoreReverse L arkInfo w.keys fees swap = some record) :
    Claims L w arkInfo record := by
  obtain ⟨found, hfound, rfl⟩ := Option.map_eq_some_iff.mp h
  intro preimage bytes hne hbytes hhash
  obtain ⟨-, hashBytes, before, after, hdecode, -, hkeys, hprobed, -⟩ :=
    (attributed_iff L swap.leg).mp hfound
  have hmem : found.owner ∈ w.keys := by
    rw [hkeys]
    exact List.mem_append_right _ List.mem_cons_self
  obtain ⟨-, signer, hsigner, hkey⟩ := signer_of_mem hmem
  obtain rfl : hashBytes = L.sha256 bytes := by
    simp only at hhash
    rw [hdecode] at hhash
    cases hhash
    rfl
  obtain ⟨theirs, htheirs, hresolve⟩ := ProbedFor.rebuilt L hprobed hkey
  obtain ⟨resolved, hresolved, hrebuilt⟩ := hresolve swap.id
  have hserver := filter_some_ne (KeyText.ne_empty htheirs)
  have hlockup := filter_some_ne (hrebuilt.address_ne L haddress)
  refine ⟨signer, resolved, _, rfl, ?_, hrebuilt⟩
  obtain ⟨theirBytes, htheirBytes, hnormal⟩ := htheirs
  simp only [RestoredReverseSwap.leg] at hserver hlockup htheirBytes hresolved
  simp only [claimVHTLC, hserver, hlockup, bind_ok, pure_ok]
  exact ⟨(), rejectIf_ok.mpr hne, bytes, hbytes, signer, hsigner, _, normalize_signer _ _ _,
    theirBytes, htheirBytes, theirs, hnormal _ _, resolved, hresolved, rfl⟩

theorem restoreSubmarine_isSome {provider : Provider} (swap : RestoredSubmarineSwap) :
    (restoreSubmarine L provider arkInfo w.keys swap).isSome ↔
      Found L w arkInfo swap.leg swap.readHash := by
  rw [← attributed_isSome L swap.id]
  simp only [restoreSubmarine, Option.isSome_map]
  rfl

theorem restoreSubmarine_attributed {provider : Provider} {swap : RestoredSubmarineSwap}
    {record : BoltzSubmarineSwap}
    (h : restoreSubmarine L provider arkInfo w.keys swap = some record) :
    Owned L w arkInfo swap.leg ∧ AttributedSubmarine L w arkInfo swap record := by
  obtain ⟨found, hfound, rfl⟩ := Option.map_eq_some_iff.mp h
  obtain ⟨hholds, hlocked⟩ := attributed_locked L swap.leg hfound
    fun _ ↦ swap.readHash_mem
  exact ⟨⟨_, hholds, hlocked⟩, rfl, hholds, hlocked, rfl⟩

def RestoredSubmarineSwap.RefundsFrom (arkInfo : ArkInfo) (swap : RestoredSubmarineSwap)
    (publicKey : String) (timeouts : TimeoutBlockHeights) : Prop :=
  ∃ hash hashBytes, swap.refundHash L = .ok hash ∧ hash ≠ "" ∧
    SwapCreation.hexDecode hash = .ok hashBytes ∧
    swap.leg.ProbedFor L arkInfo publicKey hashBytes timeouts

theorem restoreSubmarine_refunds (haddress : ∀ tree hrp key, L.arkAddress tree hrp key ≠ "")
    {provider : Provider} {swap : RestoredSubmarineSwap} {record : BoltzSubmarineSwap}
    (h : restoreSubmarine L provider arkInfo w.keys swap = some record) :
    ∃ publicKey timeouts, swap.FoundFirst L w arkInfo publicKey timeouts ∧
      (Refunds L w arkInfo record ↔ swap.RefundsFrom L arkInfo publicKey timeouts) := by
  obtain ⟨found, hfound, rfl⟩ := Option.map_eq_some_iff.mp h
  obtain ⟨-, readBytes, before, after, -, hread, hkeys, hprobed, hnone⟩ :=
    (attributed_iff L swap.leg).mp hfound
  have hmem : found.owner ∈ w.keys := by
    rw [hkeys]
    exact List.mem_append_right _ List.mem_cons_self
  obtain ⟨-, signer, hsigner, hkey⟩ := signer_of_mem hmem
  refine ⟨found.owner.publicKey, found.timeoutBlockHeights,
    ⟨before, found.owner, after, readBytes, hkeys, rfl, hread, hprobed, hnone⟩, ?_⟩
  obtain ⟨theirs, htheirs, hresolve⟩ := ProbedFor.rebuilt L hprobed hkey
  have hserver := filter_some_ne (KeyText.ne_empty htheirs)
  have hlockup := filter_some_ne ((hresolve "").choose_spec.2.address_ne L haddress)
  simp only [RestoredSubmarineSwap.leg] at hserver hlockup htheirs
  constructor
  · rintro ⟨signer', context, _, -, hcontext, -⟩
    simp only [buildSubmarineVHTLCContext, hsigner, bind_ok, Except.ok.injEq,
      SwapCreation.buildSubmarineVHTLCContext, hserver, hlockup, normalize_signer] at hcontext
    obtain ⟨_, rfl, context', ⟨hash, hhash, _, hne, _, rfl, theirBytes, htheirBytes, theirs',
      htheirs', hashBytes, hdecode, resolved, hresolved, -⟩, -⟩ := hcontext
    refine ⟨hash, hashBytes, hhash, rejectIf_ok.mp hne, hdecode, ?_⟩
    obtain rfl := htheirs.unique (keyText_of_ok htheirBytes htheirs')
    have hretext := Probed.retext L ((probed_iff L _).mpr ⟨resolved, hresolved⟩)
      (keyText_encode htheirs.length) (keyText_encode hkey.length) htheirs hkey
    exact hretext
  · rintro ⟨hash, hashBytes, hhash, hne, hdecode, hprobed'⟩
    obtain ⟨theirs', htheirs', hresolve'⟩ := ProbedFor.rebuilt L hprobed' hkey
    obtain rfl := htheirs.unique htheirs'
    obtain ⟨resolved, hresolved, hrebuilt⟩ := hresolve' swap.id
    obtain ⟨theirBytes, htheirBytes, hnormal⟩ := htheirs
    refine ⟨signer, ⟨resolved, swap.refundDetails.lockupAddress, found.timeoutBlockHeights,
      signer.xOnlyPublicKey, theirs⟩, _, rfl, ?_, hrebuilt⟩
    simp only [buildSubmarineVHTLCContext, hsigner, bind_ok, Except.ok.injEq, pure_ok,
      SwapCreation.buildSubmarineVHTLCContext, hserver, hlockup, normalize_signer]
    exact ⟨signer, rfl, _, ⟨hash, hhash, (), rejectIf_ok.mpr hne, _, rfl, theirBytes, htheirBytes,
      theirs, hnormal _ _, hashBytes, hdecode, resolved, hresolved, rfl⟩, rfl⟩

theorem RestoredChainSwap.leg_eq {swap : RestoredChainSwap} {arkLeg : Details}
    (h : swap.arkLeg = some arkLeg) :
    swap.leg = some ⟨arkLeg, swap.ourRole, swap.preimageHash⟩ := by
  rw [leg, h, Option.map_some]

theorem restoreChain_isSome {swap : RestoredChainSwap} {leg : Leg} (hleg : swap.leg = some leg) :
    (restoreChain L arkInfo w.keys swap).isSome ↔ Found L w arkInfo leg swap.preimageHash := by
  obtain ⟨arkLeg, harkLeg, rfl⟩ := Option.map_eq_some_iff.mp hleg
  rw [← attributed_isSome L swap.id]
  simp only [restoreChain, harkLeg, Option.isSome_map]

theorem restoreChain_some {swap : RestoredChainSwap} {record : BoltzChainSwap}
    (h : restoreChain L arkInfo w.keys swap = some record) :
    ∃ arkLeg found, swap.arkLeg = some arkLeg ∧
      attributed L arkInfo w.keys swap.ourRole arkLeg swap.preimageHash swap.id = some found ∧
      record.id = swap.id ∧ record.request.source = swap.source ∧
      record.ourKey = found.owner.publicKey ∧
      record.arkDetails = some (chainSwapDetails L arkLeg) ∧
      record.request.preimageHash = found.preimageHash ∧
      record.signingDescriptor = found.owner.signingDescriptor := by
  unfold restoreChain at h
  split at h
  · cases h
  · next arkLeg harkLeg =>
    obtain ⟨found, hfound, rfl⟩ := Option.map_eq_some_iff.mp h
    refine ⟨arkLeg, found, harkLeg, hfound, rfl, rfl, ?_, ?_, rfl, rfl⟩
    · by_cases hlock : swap.source = .ARK <;>
        simp [BoltzChainSwap.ourKey, BoltzChainSwap.weLockArk, RestoredChainSwap.weLockArk, hlock]
    · by_cases hlock : swap.source = .ARK <;>
        simp only [RestoredChainSwap.arkLeg, RestoredChainSwap.weLockArk, hlock, decide_true,
          decide_false, if_true, Bool.false_eq_true, if_false] at harkLeg <;>
        simp [BoltzChainSwap.arkDetails, BoltzChainSwap.weLockArk, hlock, harkLeg]

theorem restoreChain_attributed {swap : RestoredChainSwap} {record : BoltzChainSwap}
    (h : restoreChain L arkInfo w.keys swap = some record) :
    (∃ leg, swap.leg = some leg ∧ Owned L w arkInfo leg) ∧
      AttributedChain L w arkInfo swap record := by
  obtain ⟨arkLeg, found, harkLeg, hfound, hid, hsource, hkey, hdetails, -, -⟩ :=
    restoreChain_some L h
  have hleg := RestoredChainSwap.leg_eq harkLeg
  obtain ⟨hholds, hlocked⟩ := attributed_locked L
    ⟨arkLeg, swap.ourRole, swap.preimageHash⟩ hfound fun hash hhash ↦ by
      simp [Leg.hashes, hhash]
  refine ⟨⟨_, hleg, _, hholds, hlocked⟩, hid, hsource, hkey ▸ hholds, ⟨_, hleg, hkey ▸ hlocked⟩, ?_⟩
  rw [hdetails, harkLeg]
  rfl

theorem restoreChain_spends {swap : RestoredChainSwap} {record : BoltzChainSwap}
    (h : restoreChain L arkInfo w.keys swap = some record) : Spends L w arkInfo record := by
  obtain ⟨arkLeg, found, harkLeg, hfound, hid, hsource, hourKey, hdetails, hhash, hdescriptor⟩ :=
    restoreChain_some L h
  obtain ⟨-, hashBytes, before, after, hdecode, ⟨-, htimeouts⟩, hkeys, hprobed, -⟩ :=
    (attributed_iff L ⟨arkLeg, swap.ourRole, swap.preimageHash⟩).mp hfound
  have hmem : found.owner ∈ w.keys := by
    rw [hkeys]
    exact List.mem_append_right _ List.mem_cons_self
  obtain ⟨-, signer, hsigner, hkey⟩ := signer_of_mem hmem
  obtain ⟨theirs, htheirs, hresolve⟩ := ProbedFor.rebuilt L hprobed hkey
  obtain ⟨resolved, hresolved, hrebuilt⟩ := hresolve record.id
  have hserver := KeyText.ne_empty htheirs
  obtain ⟨theirBytes, htheirBytes, hnormal⟩ := htheirs
  rw [← hdescriptor] at hsigner
  rw [← hhash] at hdecode
  simp only at hserver htheirBytes hresolved hrebuilt htimeouts
  have hrole : swap.ourRole = if record.weLockArk then .sender else .receiver := by
    rw [BoltzChainSwap.weLockArk, hsource]
    rfl
  refine ⟨signer, resolved, _, hdetails, ?_⟩
  rw [hrole] at hresolved hrebuilt
  rw [BoltzChainSwap.arkDetails] at hdetails
  rw [hourKey]
  split
  · next hlock =>
    rw [if_pos hlock] at hresolved hrebuilt hdetails
    refine ⟨?_, hrebuilt⟩
    simp only [refundArk, hdetails, chainSwapDetails, htimeouts, bind_ok, pure_ok]
    exact ⟨(), rejectIf_ok.mpr hserver, signer, hsigner, _, normalize_signer _ _ _, theirBytes,
      htheirBytes, theirs, hnormal _ _, hashBytes, hdecode, resolved, hresolved, rfl⟩
  · next hlock =>
    rw [if_neg hlock] at hresolved hrebuilt hdetails
    refine ⟨hsigner, ?_, hrebuilt⟩
    obtain ⟨ourBytes, hourBytes, hours⟩ := hkey
    have hclaim : record.request.claimPublicKey = found.owner.publicKey := by
      rw [← hourKey, BoltzChainSwap.ourKey, if_neg hlock]
    simp only [resolveClaimSideVHTLC, hdetails, chainSwapDetails, htimeouts, bind_ok, hclaim]
    exact ⟨(), rejectIf_ok.mpr hserver, ourBytes, hourBytes, _, hours _ _, theirBytes, htheirBytes,
      theirs, hnormal _ _, hashBytes, hdecode, hresolved⟩

theorem filterMap_cons_toList {α β : Type} (f : α → Option β) (a : α) (l : List α) :
    (a :: l).filterMap f = (f a).toList ++ l.filterMap f := by
  rw [List.filterMap_cons]
  cases f a <;> rfl

theorem foldl_restoreSwap {provider : Provider} {candidates : List SwapOwnerKey}
    (swaps : List RestoredSwap) (acc : RestoredSwaps) :
    swaps.foldl (restoreSwap L provider arkInfo candidates fees) acc =
      ⟨acc.chainSwaps ++
          (swaps.filterMap RestoredSwap.chain?).filterMap (restoreChain L arkInfo candidates),
        acc.reverseSwaps ++ (swaps.filterMap RestoredSwap.reverse?).filterMap
          (restoreReverse L arkInfo candidates fees),
        acc.submarineSwaps ++ (swaps.filterMap RestoredSwap.submarine?).filterMap
          (restoreSubmarine L provider arkInfo candidates)⟩ := by
  induction swaps generalizing acc with
  | nil => simp
  | cons swap swaps ih =>
    rw [List.foldl_cons, ih]
    cases swap <;>
      simp only [restoreSwap, RestoredSwap.reverse?, RestoredSwap.chain?, RestoredSwap.submarine?,
        filterMap_cons_toList, Option.toList_some, Option.toList_none, List.nil_append,
        List.singleton_append, List.append_assoc]

theorem ask_ok {server : Server} {keys : List String} {restored : List RestoredSwap} :
    server.provider.ask keys = .ok restored ↔
      (∀ entry ∈ server.answer keys, (isRestoredSwap entry).isSome) ∧
        restored = (server.answer keys).filterMap isRestoredSwap := by
  rw [← mapM_eq_some]
  unfold Provider.ask
  simp only [bind_ok]
  constructor
  · rintro ⟨_, ⟨⟩, h⟩
    simp only [isCreateSwapsRestoreResponse] at h
    split at h
    · cases h
    · next restored' hrestored =>
      rw [hrestored, ← pure_ok.mp h]
  · intro h
    refine ⟨_, rfl, ?_⟩
    simp only [isCreateSwapsRestoreResponse, h]
    rfl

theorem mapM_ask_ok {server : Server} {responses : List (List RestoredSwap)} :
    ∀ {chunks : List (List String)}, chunks.mapM server.provider.ask = .ok responses ↔
      (∀ entry ∈ chunks.flatMap server.answer, (isRestoredSwap entry).isSome) ∧
        responses = chunks.map fun keys ↦ (server.answer keys).filterMap isRestoredSwap := by
  intro chunks
  induction chunks generalizing responses with
  | nil =>
    simp only [List.mapM_nil, pure_ok, List.flatMap_nil, List.map_nil]
    exact ⟨fun h ↦ ⟨by simp, h.symm⟩, fun h ↦ h.2.symm⟩
  | cons keys chunks ih =>
    simp only [mapM_cons_ok, ask_ok, ih, List.flatMap_cons, List.mem_append, List.map_cons]
    constructor
    · rintro ⟨_, ⟨hkeys, rfl⟩, _, ⟨hchunks, rfl⟩, rfl⟩
      exact ⟨fun entry h ↦ h.elim (hkeys entry) (hchunks entry), rfl⟩
    · rintro ⟨hall, rfl⟩
      exact ⟨_, ⟨fun entry h ↦ hall entry (.inl h), rfl⟩, _,
        ⟨fun entry h ↦ hall entry (.inr h), rfl⟩, rfl⟩

theorem restoreSwaps_ok {server : Server} {restored : RestoredSwaps} :
    restoreSwaps L w server.provider fees arkInfo = .ok restored ↔
      (∀ entry ∈ server.entries w, (isRestoredSwap entry).isSome) ∧
        restored = (server.swaps w).foldl
          (restoreSwap L server.provider arkInfo w.keys fees) ⟨[], [], []⟩ := by
  have hflat : ∀ chunks : List (List String),
      (chunks.map fun keys ↦ (server.answer keys).filterMap isRestoredSwap).flatten =
        (chunks.flatMap server.answer).filterMap isRestoredSwap := by
    intro chunks
    rw [List.filterMap_flatMap, List.flatMap]
  simp only [restoreSwaps, Provider.restoreSwaps, (swapOwnerKeys_cases w).1, bind_ok, mapM_ask_ok,
    pure_ok, Except.ok.injEq]
  constructor
  · rintro ⟨_, rfl, _, ⟨_, ⟨hall, rfl⟩, rfl⟩, rfl⟩
    rw [hflat]
    exact ⟨hall, rfl⟩
  · rintro ⟨hall, rfl⟩
    refine ⟨_, rfl, _, ⟨_, ⟨hall, rfl⟩, rfl⟩, ?_⟩
    rw [hflat]
    rfl

theorem Read.unique {leg : Leg} {readHash : Option String} {hashBytes hashBytes' : Bytes}
    {timeouts timeouts' : TimeoutBlockHeights} (h : Read L leg readHash hashBytes timeouts)
    (h' : Read L leg readHash hashBytes' timeouts') :
    hashBytes = hashBytes' ∧ timeouts = timeouts' := by
  obtain ⟨⟨hash, hhash, -, hdecode⟩, htimeouts⟩ := h
  obtain ⟨⟨hash', hhash', -, hdecode'⟩, htimeouts'⟩ := h'
  rw [hhash] at hhash'
  cases hhash'
  rw [hdecode] at hdecode'
  cases hdecode'
  rw [htimeouts] at htimeouts'
  cases htimeouts'
  exact ⟨rfl, rfl⟩

theorem RestoredSubmarineSwap.FoundFirst.unique {swap : RestoredSubmarineSwap}
    {publicKey publicKey' : String} {timeouts timeouts' : TimeoutBlockHeights}
    (h : swap.FoundFirst L w arkInfo publicKey timeouts)
    (h' : swap.FoundFirst L w arkInfo publicKey' timeouts') :
    publicKey = publicKey' ∧ timeouts = timeouts' := by
  classical
  obtain ⟨before, owner, after, hashBytes, hkeys, rfl, hread, hprobed, hnone⟩ := h
  obtain ⟨before', owner', after', hashBytes', hkeys', rfl, hread', hprobed', hnone'⟩ := h'
  obtain ⟨rfl, rfl⟩ := hread.unique L hread'
  have hfirst : w.keys.find? (fun owner ↦ decide
      (swap.leg.ProbedFor L arkInfo owner.publicKey hashBytes timeouts)) = some owner :=
    List.find?_eq_some_iff_append.mpr ⟨decide_eq_true hprobed, before, after, hkeys,
      fun earlier hearlier ↦ by simp [hnone earlier hearlier]⟩
  have hfirst' : w.keys.find? (fun owner ↦ decide
      (swap.leg.ProbedFor L arkInfo owner.publicKey hashBytes timeouts)) = some owner' :=
    List.find?_eq_some_iff_append.mpr ⟨decide_eq_true hprobed', before', after', hkeys',
      fun earlier hearlier ↦ by simp [hnone' earlier hearlier]⟩
  rw [hfirst] at hfirst'
  cases hfirst'
  exact ⟨rfl, rfl⟩

theorem RestoredSubmarineSwap.FoundFirst.found {swap : RestoredSubmarineSwap} {publicKey : String}
    {timeouts : TimeoutBlockHeights} (h : swap.FoundFirst L w arkInfo publicKey timeouts) :
    Found L w arkInfo swap.leg swap.readHash := by
  obtain ⟨before, owner, after, hashBytes, hkeys, rfl, hread, hprobed, -⟩ := h
  have hmem : owner ∈ w.keys := by
    rw [hkeys]
    exact List.mem_append_right _ List.mem_cons_self
  exact ⟨owner.publicKey, hashBytes, timeouts, (signer_of_mem hmem).1, hread, hprobed⟩

theorem mem_reverse? {swaps : List RestoredSwap} {swap : RestoredReverseSwap} :
    swap ∈ swaps.filterMap RestoredSwap.reverse? ↔ .reverse swap ∈ swaps := by
  rw [List.mem_filterMap]
  constructor
  · rintro ⟨entry, hentry, h⟩
    cases entry <;> simp [RestoredSwap.reverse?] at h
    exact h ▸ hentry
  · exact fun h ↦ ⟨_, h, rfl⟩

theorem mem_submarine? {swaps : List RestoredSwap} {swap : RestoredSubmarineSwap} :
    swap ∈ swaps.filterMap RestoredSwap.submarine? ↔ .submarine swap ∈ swaps := by
  rw [List.mem_filterMap]
  constructor
  · rintro ⟨entry, hentry, h⟩
    cases entry <;> simp [RestoredSwap.submarine?] at h
    exact h ▸ hentry
  · exact fun h ↦ ⟨_, h, rfl⟩

theorem mem_chain? {swaps : List RestoredSwap} {swap : RestoredChainSwap} :
    swap ∈ swaps.filterMap RestoredSwap.chain? ↔ .chain swap ∈ swaps := by
  rw [List.mem_filterMap]
  constructor
  · rintro ⟨entry, hentry, h⟩
    cases entry <;> simp [RestoredSwap.chain?] at h
    exact h ▸ hentry
  · exact fun h ↦ ⟨_, h, rfl⟩

/-- The records of the submarine swaps refund when every swap that is found refunds from what its
record keeps. -/
theorem refunds_iff (haddress : ∀ tree hrp key, L.arkAddress tree hrp key ≠ "")
    {provider : Provider} {swaps : List RestoredSubmarineSwap} :
    (∀ record ∈ swaps.filterMap (restoreSubmarine L provider arkInfo w.keys),
        Refunds L w arkInfo record) ↔
      ∀ swap ∈ swaps, ∀ publicKey timeouts, swap.FoundFirst L w arkInfo publicKey timeouts →
        swap.RefundsFrom L arkInfo publicKey timeouts := by
  constructor
  · intro h swap hswap publicKey timeouts hfirst
    obtain ⟨record, hrecord⟩ :=
      Option.isSome_iff_exists.mp ((restoreSubmarine_isSome L swap).mpr (hfirst.found L))
    obtain ⟨publicKey', timeouts', hfirst', hiff⟩ := restoreSubmarine_refunds L haddress hrecord
    obtain ⟨rfl, rfl⟩ := hfirst.unique L hfirst'
    exact hiff.mp (h record (List.mem_filterMap.mpr ⟨swap, hswap, hrecord⟩))
  · intro h record hmem
    obtain ⟨swap, hswap, hrecord⟩ := List.mem_filterMap.mp hmem
    obtain ⟨publicKey, timeouts, hfirst, hiff⟩ := restoreSubmarine_refunds L haddress hrecord
    exact hiff.mpr (h swap hswap publicKey timeouts hfirst)

theorem selects_reverse {swaps : List RestoredSwap} :
    Selects (fun swap ↦ Owned L w arkInfo swap.leg) (AttributedReverse L w arkInfo)
      (swaps.filterMap RestoredSwap.reverse?) ((swaps.filterMap RestoredSwap.reverse?).filterMap
        (restoreReverse L arkInfo w.keys fees)) ↔
      ∀ swap, .reverse swap ∈ swaps → Owned L w arkInfo swap.leg →
        Found L w arkInfo swap.leg swap.readHash := by
  refine (selects_filterMap fun swap record h ↦ restoreReverse_attributed L h).trans ?_
  simp only [mem_reverse?, restoreReverse_isSome]

theorem selects_submarine {provider : Provider} {swaps : List RestoredSwap} :
    Selects (fun swap ↦ Owned L w arkInfo swap.leg) (AttributedSubmarine L w arkInfo)
      (swaps.filterMap RestoredSwap.submarine?)
      ((swaps.filterMap RestoredSwap.submarine?).filterMap
        (restoreSubmarine L provider arkInfo w.keys)) ↔
      ∀ swap, .submarine swap ∈ swaps → Owned L w arkInfo swap.leg →
        Found L w arkInfo swap.leg swap.readHash := by
  refine (selects_filterMap fun swap record h ↦ restoreSubmarine_attributed L h).trans ?_
  simp only [mem_submarine?, restoreSubmarine_isSome]

theorem selects_chain {swaps : List RestoredSwap} :
    Selects (fun swap ↦ ∃ leg, swap.leg = some leg ∧ Owned L w arkInfo leg)
      (AttributedChain L w arkInfo) (swaps.filterMap RestoredSwap.chain?)
      ((swaps.filterMap RestoredSwap.chain?).filterMap (restoreChain L arkInfo w.keys)) ↔
      ∀ swap leg, .chain swap ∈ swaps → swap.leg = some leg → Owned L w arkInfo leg →
        Found L w arkInfo leg swap.preimageHash := by
  refine (selects_filterMap fun swap record h ↦ restoreChain_attributed L h).trans ?_
  constructor
  · intro h swap leg hswap hleg howned
    exact (restoreChain_isSome L hleg).mp (h swap (mem_chain?.mpr hswap) ⟨leg, hleg, howned⟩)
  · rintro h swap hswap ⟨leg, hleg, howned⟩
    exact (restoreChain_isSome L hleg).mpr (h swap leg (mem_chain?.mp hswap) hleg howned)

/-- A restore attributes every swap of the wallet and no other, and every record is good for its
path, just when the responses are well formed, each of the wallet's swaps is found by what is read
of it, and each submarine swap refunds from what its record keeps. -/
theorem restores_all_iff (haddress : ∀ tree hrp key, L.arkAddress tree hrp key ≠ "") (w : Wallet)
    (server : Server) (fees : ReverseFees) (arkInfo : ArkInfo) :
    (∃ restored, restoreSwaps L w server.provider fees arkInfo = .ok restored ∧
        RestoresAll L w server arkInfo restored) ↔ Restorable L w server arkInfo := by
  constructor
  · rintro ⟨restored, hok, h⟩
    obtain ⟨hwellFormed, rfl⟩ := (restoreSwaps_ok L).mp hok
    rw [foldl_restoreSwap] at h
    obtain ⟨hreverse, hsubmarine, hchain, -, hrefunds, -⟩ := h
    simp only [List.nil_append] at hreverse hsubmarine hchain hrefunds
    have hrefunds := (refunds_iff L haddress).mp hrefunds
    exact
      { wellFormed := hwellFormed
        reverse := (selects_reverse L).mp hreverse
        submarine := (selects_submarine L).mp hsubmarine
        chain := (selects_chain L).mp hchain
        refunds := fun swap publicKey timeouts hswap ↦
          hrefunds swap (mem_submarine?.mpr hswap) publicKey timeouts }
  · intro h
    refine ⟨_, (restoreSwaps_ok L).mpr ⟨h.wellFormed, rfl⟩, ?_⟩
    rw [foldl_restoreSwap]
    constructor <;> simp only [List.nil_append]
    case reverse => exact (selects_reverse L).mpr h.reverse
    case submarine => exact (selects_submarine L).mpr h.submarine
    case chain => exact (selects_chain L).mpr h.chain
    case claims =>
      intro record hmem
      obtain ⟨swap, -, hrecord⟩ := List.mem_filterMap.mp hmem
      exact restoreReverse_claims L haddress hrecord
    case refunds =>
      exact (refunds_iff L haddress).mpr fun swap hswap publicKey timeouts ↦
        h.refunds swap publicKey timeouts (mem_submarine?.mp hswap)
    case spends =>
      intro record hmem
      obtain ⟨swap, -, hrecord⟩ := List.mem_filterMap.mp hmem
      exact restoreChain_spends L hrecord

/-- Addresses that only say their network. -/
def networkLibraries : SwapLibraries (List Bytes) :=
  { dearLibraries with arkAddress := fun _ hrp _ ↦ hrp ++ "1" }

def bareLeaf : Value := .object [("version", .number (.ofNat 0)), ("output", .string "")]

def blockTimeouts : Value :=
  .object [("refund", .number (.ofNat 1000)), ("unilateralClaim", .number (.ofNat 144)),
    ("unilateralRefund", .number (.ofNat 144)),
    ("unilateralRefundWithoutReceiver", .number (.ofNat 144))]

/-- A submarine swap without an invoice; only its refund details have the preimage hash. -/
def hashInLeg : Value :=
  .object [("to", .string "BTC"), ("from", .string "ARK"), ("type", .string "submarine"),
    ("id", .string "swap"), ("status", .string "swap.expired"), ("createdAt", .number (.ofNat 1)),
    ("refundDetails", .object [
      ("tree", .object [("claimLeaf", bareLeaf), ("refundLeaf", bareLeaf)]),
      ("lockupAddress", .string "ark1"),
      ("serverPublicKey", .string (base16.encode (List.replicate 32 6))),
      ("timeoutBlockHeights", blockTimeouts),
      ("preimageHash", .string (base16.encode (List.replicate 32 5)))])]

def ownWallet : Wallet := ⟨ownSigner, none⟩

def freeFees : ReverseFees := ⟨.ofNat 0, .ofNat 0, .ofNat 0⟩

def currentSigner : ArkInfo := ⟨"bitcoin", base16.encode (List.replicate 32 9), []⟩

def listing (entries : List Value) : Server where
  answer _ := entries
  getSwapPreimage _ := .error (message "no preimage")

/-- The swap is attributed to the wallet's key and restored, and its record cannot be refunded. -/
theorem restored_without_hash :
    (∃ restored record,
      restoreSwaps networkLibraries ownWallet (listing [hashInLeg]).provider freeFees
        currentSigner = .ok restored ∧
      record ∈ restored.submarineSwaps ∧
      ¬Refunds networkLibraries ownWallet currentSigner record) ∧
    ¬∃ restored,
      restoreSwaps networkLibraries ownWallet (listing [hashInLeg]).provider freeFees
        currentSigner = .ok restored ∧
      RestoresAll networkLibraries ownWallet (listing [hashInLeg]) currentSigner restored := by
  have hcontexts : ((restoreSwaps networkLibraries ownWallet (listing [hashInLeg]).provider freeFees
      currentSigner).toOption.map fun restored ↦ restored.submarineSwaps.map fun record ↦
        (buildSubmarineVHTLCContext networkLibraries ownWallet currentSigner record).isOk) =
      some [false] := by decide +kernel
  obtain ⟨restored, hrestored, hmap⟩ := Option.map_eq_some_iff.mp hcontexts
  have hok := toOption_eq_some.mp hrestored
  obtain ⟨record, hrecord, hbuild⟩ := List.map_eq_singleton_iff.mp hmap
  have hmem : record ∈ restored.submarineSwaps := by
    rw [hrecord]
    exact List.mem_singleton_self record
  have hrefunds : ¬Refunds networkLibraries ownWallet currentSigner record := by
    rintro ⟨signer, context, _, -, hcontext, -⟩
    rw [hcontext] at hbuild
    cases hbuild
  refine ⟨⟨restored, record, hok, hmem, hrefunds⟩, ?_⟩
  rintro ⟨restored', hok', h⟩
  rw [hok] at hok'
  cases hok'
  exact hrefunds (h.refunds record hmem)

/-- Addresses that say their leaves. -/
def treeLibraries : SwapLibraries (List Bytes) :=
  { dearLibraries with arkAddress := fun tree hrp _ ↦ hrp ++ ("1" ++ base16.encode tree.flatten) }

theorem treeLibraries_address (tree : List Bytes) (hrp : String) (key : Bytes) :
    treeLibraries.arkAddress tree hrp key ≠ "" := by
  intro h
  have hlen := congrArg String.length h
  simp [treeLibraries] at hlen

def derivedSigner : Signer := ⟨3 :: List.replicate 32 4, rfl⟩

/-- A wallet that has used one descriptor. -/
def derivedHd : HDWallet where
  getUsedSigningDescriptors := .ok ["tr(0)"]
  deriveDescriptorLeafCompressedPubKey descriptor :=
    if descriptor = "tr(0)" then .ok derivedSigner.compressedPublicKey
    else .error (message "no such descriptor")
  signerForDescriptor descriptor :=
    if descriptor = "tr(0)" then .ok derivedSigner else .error (message "no such descriptor")
  derive_empty key h := by cases h
  signer_of_used hused hd hkey := by
    cases hused
    obtain rfl := List.mem_singleton.mp hd
    cases hkey
    exact ⟨derivedSigner, rfl, rfl⟩

def hdWallet : Wallet := ⟨ownSigner, some derivedHd⟩

def derivedKey : String := base16.encode derivedSigner.compressedPublicKey

theorem hdWallet_keys : hdWallet.keys =
    [hdWallet.identityKey, ⟨derivedKey, some "tr(0)"⟩] := by
  have hne : ¬base16.encode ownSigner.compressedPublicKey =
      base16.encode derivedSigner.compressedPublicKey := by
    intro h
    exact absurd (base16.encode_injective h) (by decide)
  rcases (swapOwnerKeys_cases hdWallet).2 with ⟨-, hnone⟩ | ⟨hd, used, hhd, hused, hkeys⟩
  · exact absurd rfl (hnone derivedHd ["tr(0)"] rfl)
  · cases hhd
    cases hused
    rw [hkeys]
    simp [HDWallet.addOwnerKey, derivedHd, Wallet.identityKey, hdWallet, hne, derivedKey]

def derivedTimeouts : TimeoutBlockHeights := ⟨.ofNat 1000, .ofNat 144, .ofNat 144, .ofNat 144⟩

def derivedArgs : LockupArgs :=
  lockupArgs currentSigner .sender derivedKey (base16.encode (List.replicate 32 6))
    (List.replicate 32 5) derivedTimeouts

def derivedAddress : String :=
  ((createVHTLCScript treeLibraries derivedArgs currentSigner.signerPubkey).toOption.map
    Prod.snd).getD ""

theorem derivedArgs_created : ∃ script,
    createVHTLCScript treeLibraries derivedArgs currentSigner.signerPubkey =
      .ok (script, derivedAddress) := by
  have hok : (createVHTLCScript treeLibraries derivedArgs currentSigner.signerPubkey).isOk =
      true := by decide +kernel
  obtain ⟨result, hcreate⟩ := isOk_iff.mp hok
  rw [derivedAddress, hcreate]
  exact ⟨result.1, rfl⟩

def hashInSwap : Value :=
  .object [("to", .string "BTC"), ("from", .string "ARK"), ("type", .string "submarine"),
    ("id", .string "swap"), ("status", .string "swap.expired"), ("createdAt", .number (.ofNat 1)),
    ("preimageHash", .string (base16.encode (List.replicate 32 5))),
    ("refundDetails", .object [
      ("tree", .object [("claimLeaf", bareLeaf), ("refundLeaf", bareLeaf)]),
      ("lockupAddress", .string derivedAddress),
      ("serverPublicKey", .string (base16.encode (List.replicate 32 6))),
      ("timeoutBlockHeights", blockTimeouts)])]

def derivedSwap : RestoredSubmarineSwap where
  id := "swap"
  status := "swap.expired"
  createdAt := .ofNat 1
  preimageHash := some (base16.encode (List.replicate 32 5))
  invoice := none
  refundDetails := {
    tree := ⟨⟨.ofNat 0, ""⟩, ⟨.ofNat 0, ""⟩, none, none, none, none, none⟩
    amount := none
    keyIndex := none
    transaction := none
    lockupAddress := derivedAddress
    serverPublicKey := base16.encode (List.replicate 32 6)
    timeoutBlockHeight := none
    timeoutBlockHeights := some derivedTimeouts
    preimageHash := none }

theorem isRestoredSwap_hashInSwap : isRestoredSwap hashInSwap = some (.submarine derivedSwap) := rfl

theorem listing_entries (entry : Value) : (listing [entry]).entries hdWallet = [entry] := by
  rw [Server.entries, hdWallet_keys]
  rfl

theorem listing_swaps :
    (listing [hashInSwap]).swaps hdWallet = [.submarine derivedSwap] := by
  rw [Server.swaps, listing_entries, List.filterMap_cons, isRestoredSwap_hashInSwap]
  rfl

theorem derivedSwap_probed : derivedSwap.leg.ProbedFor treeLibraries currentSigner derivedKey
    (List.replicate 32 5) derivedTimeouts := by
  have hserver : serverKey currentSigner.signerPubkey = .ok currentSigner.signerPubkey :=
    bind_ok.mpr ⟨List.replicate 32 9, hexDecode_encode _, bind_ok.mpr ⟨_, rfl, rfl⟩⟩
  refine ⟨[], currentSigner.signerPubkey, [], ?_, derivedArgs_created, fun _ h ↦ by cases h⟩
  exact bind_ok.mpr ⟨_, hserver, bind_ok.mpr ⟨[], rfl, rfl⟩⟩

theorem hdWallet_restorable :
    Restorable treeLibraries hdWallet (listing [hashInSwap]) currentSigner where
  wellFormed := by
    rw [listing_entries]
    intro entry hentry
    obtain rfl := List.mem_singleton.mp hentry
    rw [isRestoredSwap_hashInSwap]
    rfl
  reverse := by
    rw [listing_swaps]
    intro swap hswap
    cases List.mem_singleton.mp hswap
  chain := by
    rw [listing_swaps]
    intro swap leg hswap
    cases List.mem_singleton.mp hswap
  submarine := by
    rw [listing_swaps]
    intro swap hswap _
    cases List.mem_singleton.mp hswap
    refine ⟨derivedKey, List.replicate 32 5, derivedTimeouts, .inr ⟨derivedHd, _, "tr(0)", _, rfl,
      rfl, List.mem_singleton_self _, rfl, rfl⟩, ⟨⟨_, rfl, ?_, hexDecode_encode _⟩, rfl⟩,
      derivedSwap_probed⟩
    exact encode_ne_empty (List.cons_ne_nil _ _)
  refunds := by
    rw [listing_swaps]
    intro swap publicKey timeouts hswap
    cases List.mem_singleton.mp hswap
    rintro ⟨before, owner, after, hashBytes, -, rfl, ⟨⟨hash, hhash, hne, hdecode⟩, -⟩, hprobed, -⟩
    exact ⟨hash, hashBytes, by cases hhash; rfl, hne, hdecode, hprobed⟩

theorem restores_listing : ∃ restored,
    restoreSwaps treeLibraries hdWallet (listing [hashInSwap]).provider freeFees currentSigner =
      .ok restored ∧
    RestoresAll treeLibraries hdWallet (listing [hashInSwap]) currentSigner restored :=
  (restores_all_iff treeLibraries treeLibraries_address hdWallet (listing [hashInSwap]) freeFees
    currentSigner).mpr hdWallet_restorable

end ArkadeSdk.SwapRestore
