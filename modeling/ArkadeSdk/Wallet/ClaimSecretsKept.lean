import ArkadeSdk.Wallet.ClaimSecrets

/-! No index is handed out twice, no derived preimage either, and every preimage comes back. -/

namespace ArkadeSdk.ClaimSecrets

open LabelledRun HDWallet ContractSecrets

local instance lawfulBEq_salt : LawfulBEq WireFormat.Bytes := inferInstance

section Lists

variable {α : Type} {l : List α} {x y : α} {i k : ℕ}

theorem getElem?_concat (h : (l ++ [x])[i]? = some y) :
    l[i]? = some y ∨ i = l.length ∧ y = x := by
  rw [List.getElem?_append] at h
  split at h
  · exact .inl h
  · rename_i hle
    rw [List.getElem?_singleton] at h
    split at h
    · exact .inr ⟨by omega, (Option.some.inj h).symm⟩
    · cases h

theorem getElem?_set_cases (h : (l.set k x)[i]? = some y) :
    i = k ∧ y = x ∨ i ≠ k ∧ l[i]? = some y := by
  by_cases hik : i = k
  · subst hik
    obtain ⟨hi, heq⟩ := List.getElem?_eq_some_iff.mp h
    exact .inl ⟨rfl, by simpa using heq.symm⟩
  · exact .inr ⟨hik, by rwa [List.getElem?_set_ne (Ne.symm hik)] at h⟩

end Lists

variable {lib : WalletLibraries} {w w' : World}

/-- An HD child was handed out at or below the watermark of its account. -/
def HandedOut (lib : WalletLibraries) (stored : Option WalletState) (descriptor : String) : Prop :=
  ∃ account i index, i ≤ index ∧ watermark stored = some (account, index) ∧
    lib.materialize account i = some descriptor

structure Inv (lib : WalletLibraries) (w : World) : Prop where
  wallet : w.wallet.Inv (Job.apply lib)
  indices : Chronicle Fresh w.log
  logged : ∀ e ∈ w.log, ∃ index ≥ e.index,
    watermark w.wallet.store = some (e.account, index)
  handedOut : ∀ p ∈ w.provisions, lib.parseHDDescriptor p.descriptor = true →
    HandedOut lib w.wallet.store p.descriptor
  apart : ∀ (i j : ℕ) (p q : Provision) key, w.provisions[i]? = some p →
    w.provisions[j]? = some q → lib.parseHDDescriptor p.descriptor = true →
    lib.parseHDDescriptor q.descriptor = true →
    lib.deriveDescriptorLeafPubKey p.descriptor = some key →
    lib.deriveDescriptorLeafPubKey q.descriptor = some key → i = j
  secrets : ∀ p ∈ w.provisions, ∀ s, p.secret = some s → s.descriptor = p.descriptor ∧
    Provisioned lib s ∧ ∀ salt, s.preimageSalt = some salt → salt ∈ w.salts
  salts : ∀ (i j : ℕ) (p q : Provision) s t salt, w.provisions[i]? = some p →
    w.provisions[j]? = some q → p.secret = some s → q.secret = some t →
    s.preimageSalt = some salt → t.preimageSalt = some salt → i = j

theorem inv_start (stored : Option WalletState) : Inv lib (World.start stored) where
  wallet := SerializedStore.State.inv_start stored
  indices := trivial
  logged := nofun
  handedOut := nofun
  apart _ _ _ _ _ h := nomatch h
  secrets := nofun
  salts _ _ _ _ _ _ _ h := nomatch h

theorem HandedOut.grows {before after : Option WalletState} {descriptor : String}
    (h : HandedOut lib before descriptor) (hgrows : Grows (watermark before) (watermark after)) :
    HandedOut lib after descriptor := by
  obtain ⟨account, i, index, hle, hmark, hmaterialize⟩ := h
  obtain ⟨index', hle', hmark'⟩ := hgrows account index hmark
  exact ⟨account, i, index', Nat.le_trans hle hle', hmark', hmaterialize⟩

theorem Inv.lifted (h : Inv lib w)
    {wallet : SerializedStore.State (Option WalletState) Job (Option Allocation)}
    (hwallet : wallet.Inv (Job.apply lib))
    (hgrows : Grows (watermark w.wallet.store) (watermark wallet.store)) :
    Inv lib { w with wallet } where
  wallet := hwallet
  indices := h.indices
  logged e he := by
    obtain ⟨index, hle, hmark⟩ := h.logged e he
    obtain ⟨index', hle', hmark'⟩ := hgrows e.account index hmark
    exact ⟨index', Nat.le_trans hle hle', hmark'⟩
  handedOut p hp hchild := (h.handedOut p hp hchild).grows hgrows
  apart := h.apart
  secrets := h.secrets
  salts := h.salts

theorem Inv.submit (h : Inv lib w) (job : Job) : Inv lib (w.submit job) := by
  have hstep : w.wallet.step (Job.apply lib) (.submit job) = some ((w.submit job).wallet, none) :=
    rfl
  exact h.lifted (h.wallet.step hstep).1 (.refl _)

theorem Inv.advanceLastIndexUsed (h : Inv lib w) (account : String) (index : JsNumber.Number) :
    Inv lib (w.advanceLastIndexUsed account index) := by
  unfold World.advanceLastIndexUsed
  split
  · exact h
  · exact h.submit _

theorem Inv.adoptContractDescriptor (h : Inv lib w) (wallet : Wallet) (descriptor : String)
    (answer : SignerAnswer) : Inv lib (w.adoptContractDescriptor lib wallet descriptor answer) := by
  unfold World.adoptContractDescriptor
  split
  · exact h
  · split
    · exact h
    · exact h
    · exact h
    · split
      · exact h
      · split
        · exact h
        · exact h.advanceLastIndexUsed _ _

theorem Inv.provide (h : Inv lib w) {descriptor : String} {given : Option Preimage}
    (hout : lib.parseHDDescriptor descriptor = true →
      HandedOut lib w.wallet.store descriptor)
    (hown : lib.parseHDDescriptor descriptor = true → ∀ p ∈ w.provisions,
      lib.parseHDDescriptor p.descriptor = true → ∀ key,
      lib.deriveDescriptorLeafPubKey p.descriptor = some key →
      lib.deriveDescriptorLeafPubKey descriptor ≠ some key) :
    Inv lib { w with provisions := w.provisions ++ [⟨descriptor, given, .underway⟩] } where
  wallet := h.wallet
  indices := h.indices
  logged := h.logged
  handedOut p hp hchild := by
    rcases List.mem_append.mp hp with hp | hp
    · exact h.handedOut p hp hchild
    · obtain rfl := List.mem_singleton.mp hp
      exact hout hchild
  apart i j p q key hp hq hpchild hqchild hpkey hqkey := by
    rcases getElem?_concat hp with hp | ⟨rfl, rfl⟩
    · rcases getElem?_concat hq with hq | ⟨rfl, rfl⟩
      · exact h.apart i j p q key hp hq hpchild hqchild hpkey hqkey
      · exact absurd hqkey (hown hqchild p (List.mem_of_getElem? hp) hpchild key hpkey)
    · rcases getElem?_concat hq with hq | ⟨rfl, rfl⟩
      · exact absurd hpkey (hown hpchild q (List.mem_of_getElem? hq) hqchild key hqkey)
      · rfl
  secrets p hp s hs := by
    rcases List.mem_append.mp hp with hp | hp
    · exact h.secrets p hp s hs
    · obtain rfl := List.mem_singleton.mp hp
      cases hs
  salts i j p q s t salt hp hq hs ht hsalt htsalt := by
    rcases getElem?_concat hp with hp | ⟨rfl, rfl⟩
    · rcases getElem?_concat hq with hq | ⟨rfl, rfl⟩
      · exact h.salts i j p q s t salt hp hq hs ht hsalt htsalt
      · cases ht
    · cases hs

/-- An update that resolves. Its allocation is above all that was handed out, so its key is new. -/
theorem Inv.resolved (h : Inv lib w) (hlib : lib.Sound)
    {wallet : SerializedStore.State (Option WalletState) Job (Option Allocation)}
    (hwallet : wallet.Inv (Job.apply lib)) {job : Job} {result : Option Allocation}
    (happly : job.apply lib w.wallet.store = .ok (wallet.store, result)) :
    Inv lib (World.resolved { w with wallet } job result) := by
  obtain ⟨hgrows, halloc, hadvance⟩ := apply_spec happly
  have hlifted := h.lifted hwallet hgrows
  unfold World.resolved
  cases result with
  | none =>
    dsimp only
    split
    · rename_i account index hupdate
      refine { hlifted with indices := ⟨nofun, h.indices⟩, logged := fun e he ↦ ?_ }
      rcases List.mem_cons.mp he with rfl | he
      · exact hadvance account index hupdate
      · exact hlifted.logged e he
    · exact hlifted
  | some a =>
    obtain ⟨hmaterialize, hmark, hbefore⟩ := halloc a rfl
    have hfresh : Fresh (.allocated a) w.log := by
      intro a' ha e he
      cases ha
      obtain ⟨index, hle, hindex⟩ := h.logged e he
      exact Nat.lt_of_le_of_lt hle (hbefore e.account index hindex).2
    have hlogged : Inv lib { w with wallet, log := .allocated a :: w.log } := by
      refine { hlifted with indices := ⟨hfresh, h.indices⟩, logged := fun e he ↦ ?_ }
      rcases List.mem_cons.mp he with rfl | he
      · exact ⟨a.index, Nat.le_refl _, hmark⟩
      · exact hlifted.logged e he
    dsimp only
    split
    · exact hlogged
    · refine hlogged.provide (fun _ ↦ ⟨a.account, a.index, a.index, Nat.le_refl _, hmark,
        hmaterialize⟩) fun _ p hp hchild key hkey hkey' ↦ ?_
      obtain ⟨account, i, index, hle, hindex, hp'⟩ := h.handedOut p hp hchild
      obtain ⟨rfl, hlt⟩ := hbefore account index hindex
      have heq := hlib.derivation _ i a.index _ _ key hp' hmaterialize hkey hkey'
      omega

theorem secret_done {descriptor : String} {given : Option Preimage}
    {result : Except Refusal ProvisionedClaimSecret} {s : ProvisionedClaimSecret}
    (h : Provision.secret ⟨descriptor, given, .done result⟩ = some s) : result = .ok s := by
  cases result with
  | error refusal => cases h
  | ok s' => exact congrArg Except.ok (Option.some.inj h)

theorem lose_descriptor (p : Provision) : (World.lose p).descriptor = p.descriptor := by
  unfold World.lose
  split <;> rfl

theorem lose_secret (p : Provision) : (World.lose p).secret = p.secret := by
  unfold World.lose
  split
  · rename_i hunderway
    simp [Provision.secret, hunderway]
  · rfl

theorem Inv.lose (h : Inv lib w) :
    Inv lib { w with provisions := w.provisions.map World.lose } where
  wallet := h.wallet
  indices := h.indices
  logged := h.logged
  handedOut p hp hchild := by
    obtain ⟨q, hq, rfl⟩ := List.mem_map.mp hp
    rw [lose_descriptor] at hchild ⊢
    exact h.handedOut q hq hchild
  apart i j p q key hp hq hpchild hqchild hpkey hqkey := by
    rw [List.getElem?_map] at hp hq
    obtain ⟨p, hp', rfl⟩ := Option.map_eq_some_iff.mp hp
    obtain ⟨q, hq', rfl⟩ := Option.map_eq_some_iff.mp hq
    rw [lose_descriptor] at hpchild hqchild hpkey hqkey
    exact h.apart i j p q key hp' hq' hpchild hqchild hpkey hqkey
  secrets p hp s hs := by
    obtain ⟨q, hq, rfl⟩ := List.mem_map.mp hp
    rw [lose_secret] at hs
    rw [lose_descriptor]
    exact h.secrets q hq s hs
  salts i j p q s t salt hp hq hs ht hsalt htsalt := by
    rw [List.getElem?_map] at hp hq
    obtain ⟨p, hp', rfl⟩ := Option.map_eq_some_iff.mp hp
    obtain ⟨q, hq', rfl⟩ := Option.map_eq_some_iff.mp hq
    rw [lose_secret] at hs ht
    exact h.salts i j p q s t salt hp' hq' hs ht hsalt htsalt

theorem Inv.lock (h : Inv lib w) (hlib : lib.Sound) {input : SerializedStore.Input Job}
    {out : SerializedStore.State (Option WalletState) Job (Option Allocation) ×
      Option (Job × Option Allocation)}
    (hstep : w.wallet.step (Job.apply lib) input = some out) :
    Inv lib (match out.2 with
      | none => { w with wallet := out.1 }
      | some (job, result) => World.resolved { w with wallet := out.1 } job result) := by
  obtain ⟨wallet, resolved⟩ := out
  obtain ⟨hwallet, hcases⟩ := h.wallet.step hstep
  rcases hcases with ⟨hstore, rfl⟩ | ⟨job, result, happly, rfl | rfl⟩
  · exact h.lifted hwallet (hstore ▸ .refl _)
  · exact h.lifted hwallet (apply_spec happly).1
  · exact h.resolved hlib hwallet happly

theorem Inv.finish (h : Inv lib w) {k : ℕ} {descriptor : String} {given : Option Preimage}
    {first second : SignerAnswer} {salt fallback : WireFormat.Bytes}
    (hk : w.provisions[k]? = some ⟨descriptor, given, .underway⟩)
    (hrandom : salt ∉ w.salts ∧ fallback.length = 32) :
    Inv lib { w with
      provisions := w.provisions.set k ⟨descriptor, given,
        .done (provisionFor lib first second descriptor (given.map (·.bytes)) salt fallback)⟩
      salts := salt :: w.salts } := by
  have hsecret {s : ProvisionedClaimSecret} (hs : Provision.secret ⟨descriptor, given,
      .done (provisionFor lib first second descriptor (given.map (·.bytes)) salt fallback)⟩ =
        some s) : s.descriptor = descriptor ∧ Provisioned lib s ∧
          ∀ drawn, s.preimageSalt = some drawn → drawn = salt := by
    refine provisionFor_eq_ok (fun p hp ↦ ?_) hrandom.2 (secret_done hs)
    obtain ⟨preimage, -, rfl⟩ := Option.map_eq_some_iff.mp hp
    exact preimage.length_eq
  have hold {i : ℕ} {p : Provision} (hp : (w.provisions.set k ⟨descriptor, given,
      .done (provisionFor lib first second descriptor (given.map (·.bytes)) salt fallback)⟩)[i]? =
        some p) : ∃ q, w.provisions[i]? = some q ∧ q.descriptor = p.descriptor := by
    rcases getElem?_set_cases hp with ⟨rfl, rfl⟩ | ⟨-, hp⟩
    · exact ⟨_, hk, rfl⟩
    · exact ⟨p, hp, rfl⟩
  refine ⟨h.wallet, h.indices, h.logged, fun p hp hchild ↦ ?_,
    fun i j p q key hp hq hpchild hqchild hpkey hqkey ↦ ?_, fun p hp s hs ↦ ?_,
    fun i j p q s t drawn hp hq hs ht hsdrawn htdrawn ↦ ?_⟩
  · obtain ⟨i, hp⟩ := List.mem_iff_getElem?.mp hp
    obtain ⟨q, hq, heq⟩ := hold hp
    exact heq ▸ h.handedOut q (List.mem_of_getElem? hq) (heq ▸ hchild)
  · obtain ⟨p', hp', hpeq⟩ := hold hp
    obtain ⟨q', hq', hqeq⟩ := hold hq
    exact h.apart i j p' q' key hp' hq' (hpeq ▸ hpchild) (hqeq ▸ hqchild) (hpeq ▸ hpkey)
      (hqeq ▸ hqkey)
  · rcases List.mem_or_eq_of_mem_set hp with hp | rfl
    · obtain ⟨heq, hprov, hsalt⟩ := h.secrets p hp s hs
      exact ⟨heq, hprov, fun drawn hdrawn ↦ List.mem_cons_of_mem _ (hsalt drawn hdrawn)⟩
    · obtain ⟨heq, hprov, hsalt⟩ := hsecret hs
      exact ⟨heq, hprov, fun drawn hdrawn ↦ hsalt drawn hdrawn ▸ List.mem_cons_self⟩
  · -- a salt that is drawn now is in no earlier secret
    rcases getElem?_set_cases hp with ⟨rfl, rfl⟩ | ⟨-, hp'⟩
    · rcases getElem?_set_cases hq with ⟨rfl, rfl⟩ | ⟨-, hq'⟩
      · rfl
      · obtain rfl := (hsecret hs).2.2 drawn hsdrawn
        exact absurd ((h.secrets q (List.mem_of_getElem? hq') t ht).2.2 drawn htdrawn) hrandom.1
    · rcases getElem?_set_cases hq with ⟨rfl, rfl⟩ | ⟨-, hq'⟩
      · obtain rfl := (hsecret ht).2.2 drawn htdrawn
        exact absurd ((h.secrets p (List.mem_of_getElem? hp') s hs).2.2 drawn hsdrawn) hrandom.1
      · exact h.salts i j p q s t drawn hp' hq' hs ht hsdrawn htdrawn

theorem inv_step (hlib : lib.Sound) (h : Inv lib w) {input : Input} (hrandom : Random w input)
    (hstep : w.step lib input = some w') : Inv lib w' := by
  cases input with
  | submit update =>
    cases update with
    | advanceLastIndexUsed account index => cases hstep
    | _ =>
      obtain rfl := Option.some.inj hstep
      exact h.submit _
  | advanceLastIndexUsed account index =>
    obtain rfl := Option.some.inj hstep
    exact h.advanceLastIndexUsed account index
  | adoptContractDescriptor wallet descriptor answer =>
    obtain rfl := Option.some.inj hstep
    exact h.adoptContractDescriptor wallet descriptor answer
  | provisionClaimSecret wallet given =>
    obtain rfl := Option.some.inj hstep
    unfold World.provisionClaimSecret
    split
    · exact h
    · split
      · exact h.submit _
      · rename_i key
        have hbare := hlib.bare key
        exact h.provide (fun hchild ↦ by simp [hbare] at hchild)
          fun hchild ↦ by simp [hbare] at hchild
  | lock input =>
    cases input with
    | submit job => cases hstep
    | restart =>
      obtain rfl := Option.some.inj hstep
      exact (h.lock hlib (rfl : w.wallet.step (Job.apply lib) .restart = some _)).lose
    | start i | read i | write i | fail i stored =>
      obtain ⟨out, hout, rfl⟩ := Option.map_eq_some_iff.mp hstep
      exact h.lock hlib hout
  | finish k first second salt fallback =>
    dsimp only [World.step] at hstep
    split at hstep
    · rename_i descriptor given hk
      obtain rfl := Option.some.inj hstep
      exact h.finish hk hrandom
    · cases hstep

theorem Inv.secretsKept (h : Inv lib w) (hlib : lib.Sound) : SecretsKept lib w where
  indices := h.indices
  distinct i j p q s t hp hq hs ht hsderived htderived heq := by
    obtain ⟨hsname, hsprov, -⟩ := h.secrets p (List.mem_of_getElem? hp) s hs
    obtain ⟨htname, htprov, -⟩ := h.secrets q (List.mem_of_getElem? hq) t ht
    cases hsprov with
    | stored hpersist => simp [hsderived] at hpersist
    | derived answer _ hschild hsmade =>
      cases htprov with
      | stored hpersist => simp [htderived] at hpersist
      | derived answer' _ htchild htmade =>
        obtain ⟨⟨key, hskey, htkey⟩, hsalts⟩ := derivePreimage_injective hlib hsmade (heq ▸ htmade)
        cases hsalt : s.preimageSalt with
        | none =>
          -- both are HD children, with one leaf key
          have hschild' := hschild.mpr hsalt
          have htchild' := htchild.mpr (hsalts ▸ hsalt)
          rw [hsname] at hschild' hskey
          rw [htname] at htchild' htkey
          exact h.apart i j p q key hp hq hschild' htchild' hskey htkey
        | some salt => exact h.salts i j p q s t salt hp hq hs ht hsalt (hsalts ▸ hsalt)
  recoverable p hp s hs := (h.secrets p hp s hs).2.1.recoverable

theorem resolved_store (w : World) (job : Job) (result : Option Allocation) :
    (w.resolved job result).wallet = w.wallet := by
  unfold World.resolved
  split
  · rfl
  · split <;> rfl

theorem advanceLastIndexUsed_store (w : World) (account : String) (index : JsNumber.Number) :
    (w.advanceLastIndexUsed account index).wallet.store = w.wallet.store := by
  unfold World.advanceLastIndexUsed
  split <;> rfl

theorem step_grows (h : Inv lib w) {input : Input} (hstep : w.step lib input = some w') :
    Grows (watermark w.wallet.store) (watermark w'.wallet.store) := by
  have hlock {input : SerializedStore.Input Job}
      {out : SerializedStore.State (Option WalletState) Job (Option Allocation) ×
        Option (Job × Option Allocation)}
      (hout : w.wallet.step (Job.apply lib) input = some out) :
      Grows (watermark w.wallet.store) (watermark out.1.store) := by
    obtain ⟨wallet, resolved⟩ := out
    rcases (h.wallet.step hout).2 with ⟨hstore, -⟩ | ⟨job, result, happly, -⟩
    · exact hstore ▸ .refl _
    · exact (apply_spec happly).1
  cases input with
  | submit update =>
    cases update with
    | advanceLastIndexUsed account index => cases hstep
    | _ =>
      obtain rfl := Option.some.inj hstep
      exact .refl _
  | advanceLastIndexUsed account index =>
    obtain rfl := Option.some.inj hstep
    rw [advanceLastIndexUsed_store]
    exact .refl _
  | adoptContractDescriptor wallet descriptor answer =>
    obtain rfl := Option.some.inj hstep
    unfold World.adoptContractDescriptor
    split
    · exact .refl _
    · split
      · exact .refl _
      · exact .refl _
      · exact .refl _
      · split
        · exact .refl _
        · split
          · exact .refl _
          · rw [advanceLastIndexUsed_store]
            exact .refl _
  | provisionClaimSecret wallet given =>
    obtain rfl := Option.some.inj hstep
    unfold World.provisionClaimSecret
    split
    · exact .refl _
    · split <;> exact .refl _
  | lock input =>
    cases input with
    | submit job => cases hstep
    | restart =>
      obtain rfl := Option.some.inj hstep
      exact .refl _
    | start i | read i | write i | fail i stored =>
      obtain ⟨out, hout, rfl⟩ := Option.map_eq_some_iff.mp hstep
      have hgrows := hlock hout
      obtain ⟨wallet, resolved⟩ := out
      cases resolved with
      | none => exact hgrows
      | some next =>
        obtain ⟨job, result⟩ := next
        dsimp only
        rw [resolved_store]
        exact hgrows
  | finish k first second salt fallback =>
    dsimp only [World.step] at hstep
    split at hstep
    · obtain rfl := Option.some.inj hstep
      exact .refl _
    · cases hstep

/-- In every run, no index is handed out again or below an adopted one, derived preimages differ,
every preimage can be had again, and from any state on the watermark is not lowered. -/
theorem secrets_kept (hlib : lib.Sound) (stored : Option WalletState)
    (h : Run (World.step lib) Random (World.start stored) w) :
    SecretsKept lib w ∧ ∀ w', Run (World.step lib) Random w w' →
      Grows (watermark w.wallet.store) (watermark w'.wallet.store) := by
  have hstep : ∀ s i t, Inv lib s → Random s i → World.step lib s i = some t → Inv lib t :=
    fun _ _ _ hinv hrandom hstep ↦ inv_step hlib hinv hrandom hstep
  have hinv := h.invariant hstep (inv_start stored)
  refine ⟨hinv.secretsKept hlib, fun w' h' ↦ ?_⟩
  exact h'.relation (R := fun s t ↦ Grows (watermark s.wallet.store) (watermark t.wallet.store))
    (fun _ ↦ .refl _) (fun _ _ _ ↦ Grows.trans) hstep
    (fun _ _ _ hinv _ hstep ↦ step_grows hinv hstep) hinv

section Sample

def sampleKey (n : UInt8) : WireFormat.Bytes := n :: List.replicate 31 0

/-- The first two descriptors of one account, and one identity's bare key. -/
def sampleDescriptor (n : ℕ) : Option String :=
  if n = 0 then some "tr([d34db33f/86'/0'/0']xpub/0/0)"
  else if n = 1 then some "tr([d34db33f/86'/0'/0']xpub/0/1)"
  else none

def sampleLibraries : WalletLibraries where
  sha256 := id
  signSchnorrDeterministic _ hash := hash
  parseHDDescriptor d := d.toList[3]? = some '['
  deriveDescriptorLeafPubKey d :=
    if some d = sampleDescriptor 0 then some (sampleKey 1)
    else if some d = sampleDescriptor 1 then some (sampleKey 2)
    else if d = identityDescriptor (sampleKey 3) then some (sampleKey 3)
    else none
  isOurs _ d := some d = sampleDescriptor 0 || some d = sampleDescriptor 1
  materialize _ n := sampleDescriptor n

theorem sampleDescriptor_eq_some {n : ℕ} {d : String} (h : sampleDescriptor n = some d) :
    n = 0 ∨ n = 1 := by
  unfold sampleDescriptor at h
  split at h
  · exact .inl ‹_›
  · split at h
    · exact .inr ‹_›
    · cases h

theorem sampleLibraries_sound : sampleLibraries.Sound where
  hash _ _ h := h
  signature _ _ _ _ h := h
  derivation account i j d d' key hd hd' hkey hkey' := by
    change sampleDescriptor i = some d at hd
    change sampleDescriptor j = some d' at hd'
    rcases sampleDescriptor_eq_some hd with rfl | rfl <;>
    rcases sampleDescriptor_eq_some hd' with rfl | rfl
    · rfl
    · cases hd
      cases hd'
      cases hkey
      cases hkey'
    · cases hd
      cases hd'
      cases hkey
      cases hkey'
    · rfl
  bare key := by
    cases key with
    | nil => rfl
    | cons x key =>
      have hdigit : ∀ n < 16, HexCodec.digit n ≠ '[' := by decide
      have hfirst : (identityDescriptor (x :: key)).toList[3]? =
          some (HexCodec.digit (x.toNat / 16)) := by
        simp [identityDescriptor, HexCodec.base16, HexCodec.encodeChars]
      have hlt : x.toNat / 16 < 16 := by
        have := x.toNat_lt
        omega
      have hne : (identityDescriptor (x :: key)).toList[3]? ≠ some '[' := by
        rw [hfirst]
        exact fun heq ↦ hdigit _ hlt (Option.some.inj heq)
      generalize identityDescriptor (x :: key) = descriptor at hne
      exact decide_eq_false hne

def checkRandom (w : World) : Input → Bool
  | .finish _ _ _ salt fallback => salt ∉ w.salts && fallback.length = 32
  | _ => true

theorem random_of_check (w : World) (input : Input) (h : checkRandom w input = true) :
    Random w input := by
  cases input with
  | finish => simpa [checkRandom, Random] using h
  | _ => trivial

def sampleSigner (n : UInt8) : SignerAnswer := .signer ⟨.ok (sampleKey n), true, true, true⟩

/-- Two secrets of an account and one of an identity key. -/
def sampleRun : List Input :=
  [.provisionClaimSecret (.hd "xpub") none, .provisionClaimSecret (.hd "xpub") none,
    .lock (.start 0), .lock (.read 0), .lock (.write 0),
    .lock (.start 1), .lock (.read 1), .lock (.write 1),
    .provisionClaimSecret (.static (sampleKey 3)) none,
    .finish 1 (sampleSigner 2) (sampleSigner 2) (sampleKey 4) (sampleKey 0),
    .finish 0 (sampleSigner 1) (sampleSigner 1) (sampleKey 5) (sampleKey 0),
    .finish 2 (sampleSigner 3) (sampleSigner 3) (sampleKey 6) (sampleKey 0)]

theorem secrets_kept_sample : ∃ w,
    exec (World.step sampleLibraries) (World.start none) sampleRun = some w ∧
      w.provisions.map (fun p ↦ p.secret.map (·.preimageSalt)) =
        [some none, some none, some (some (sampleKey 6))] ∧ SecretsKept sampleLibraries w := by
  refine ⟨_, rfl, rfl, (secrets_kept sampleLibraries_sound none ?_).1⟩
  exact run_of_exec (rfl : exec _ _ sampleRun = some _) (along_of_check random_of_check rfl)

end Sample

end ArkadeSdk.ClaimSecrets
