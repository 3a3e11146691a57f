import ArkadeSdk.Lib.JsMap
import ArkadeSdk.Lib.WireFormat
import Mathlib.Data.List.Perm.Subperm

/-! Submitting an offchain transaction and finalizing its checkpoints. -/

namespace ArkadeSdk.OffchainSubmit

open WireFormat JsNumber

abbrev Txid := String

/-- An entry of an input's `tapScriptSig`. -/
structure TapScriptSig where
  pubKey : Bytes
  leafHash : Bytes
  signature : Bytes
  deriving DecidableEq

/-- The transactions `τ` of the PSBT library: `encode` and `decode` go through base64, `leafHash` is
of the first tap leaf of an input, and the keys are hexadecimal. -/
structure PsbtLibrary (τ : Type) where
  id : τ → Txid
  encode : τ → String
  decode : String → Except Message τ
  inputsLength : τ → ℕ
  tapScriptSig : τ → ℕ → Option (List TapScriptSig)
  updateInput : τ → ℕ → List TapScriptSig → Except Message τ
  leafHash : τ → ℕ → Option String
  verifyTapscriptSignatures : τ → ℕ → String → String → Except Message Unit
  toXOnly : Bytes → Except Message String

/-- Updating an input adds signatures to those it has; an entry that is there stays, and nothing
that the txid depends on changes. -/
structure PsbtLibrary.Lawful {τ : Type} (lib : PsbtLibrary τ) : Prop where
  txid : ∀ {tx tx' i sigs}, lib.updateInput tx i sigs = .ok tx' → lib.id tx' = lib.id tx
  inputsLength : ∀ {tx tx' i sigs}, lib.updateInput tx i sigs = .ok tx' →
    lib.inputsLength tx' = lib.inputsLength tx
  added : ∀ {tx tx' i sigs}, lib.updateInput tx i sigs = .ok tx' →
    lib.tapScriptSig tx' i = some (((lib.tapScriptSig tx i).getD [] ++ sigs).eraseDups)
  others : ∀ {tx tx' i sigs j}, lib.updateInput tx i sigs = .ok tx' → j ≠ i →
    lib.tapScriptSig tx' j = lib.tapScriptSig tx j

structure OffchainTx (τ : Type) where
  arkTx : τ
  checkpoints : List τ

structure SignedArkTx (τ : Type) where
  arkTx : τ
  userSignedCheckpoints : Option (List τ)

/-- `signCheckpoint` is told which of the calls it answers. -/
structure OffchainTxSigner (τ : Type) where
  signArkTx : τ → List τ → Except Message (SignedArkTx τ)
  signCheckpoint : ℕ → τ → Except Message τ

structure SubmitResponse where
  arkTxid : Txid
  finalArkTx : Option String
  signedCheckpointTxs : List String

structure OffchainTxSubmitProvider where
  submitTx : String → List String → Except Message SubmitResponse
  finalizeTx : Txid → List String → Except Message Unit

structure Hooks where
  beforeSubmit : Except Message Unit
  afterFinalize : Except Message Unit

/-- A checkpoint that the server returned, with the one it matches. -/
structure Matched (τ : Type) where
  server : τ
  localTx : τ

/-- The calls of the provider and of `signCheckpoint`. -/
inductive Call (τ : Type)
  | submitTx (signedArkTx : String) (checkpointTxs : List String)
  | signCheckpoint (checkpoint : τ)
  | finalizeTx (arkTxid : Txid) (finalCheckpointTxs : List String)
  deriving DecidableEq

/-- What was called, and the result. -/
structure Outcome (τ : Type) where
  calls : List (Call τ)
  result : Except Message (Txid × List String)

section

variable {τ : Type} (lib : PsbtLibrary τ)

/-- The loop of `combineTapscriptSigs`, over the inputs that are left. -/
def combineInputs (signedTx : τ) : List ℕ → τ → Except Message τ
  | [], originalTx => .ok originalTx
  | i :: rest, originalTx =>
    match lib.tapScriptSig originalTx i, lib.tapScriptSig signedTx i with
    | none, _ => .error [.text "combineTapscriptSigs: originalTx input ", .value (.ofNat i),
        .text " has no tapScriptSig"]
    | _, none => .error [.text "combineTapscriptSigs: signedTx input ", .value (.ofNat i),
        .text " has no tapScriptSig"]
    | some sigs, some signedSigs => do
      let originalTx ← lib.updateInput originalTx i (sigs ++ signedSigs)
      combineInputs signedTx rest originalTx

def combineTapscriptSigs (signedTx originalTx : τ) : Except Message τ := do
  rejectIf (lib.inputsLength signedTx ≠ lib.inputsLength originalTx)
    [.text "combineTapscriptSigs: input count mismatch (signedTx ",
      .value (.ofNat (lib.inputsLength signedTx)), .text ", originalTx ",
      .value (.ofNat (lib.inputsLength originalTx)), .text ")"]
  combineInputs lib signedTx (List.range (lib.inputsLength signedTx)) originalTx

/-- `new Map(entries)` -/
def toMap {ν : Type} (entries : List (Txid × ν)) : JsMap.Entries Txid ν :=
  entries.foldl (fun m e ↦ JsMap.set e.1 e.2 m) []

/-- The loop of `matchServerCheckpoints`, over the map of those that are not matched. -/
def matchLoop (context : String) (byTxid : JsMap.Entries Txid τ) (index : ℕ) :
    List String → Except Message (List (Matched τ))
  | [] => .ok []
  | encoded :: rest => do
    let server ← lib.decode encoded
    match JsMap.get byTxid (lib.id server) with
    | none => throw [.text (context ++ " checkpoint "), .value (.ofNat index),
        .text (" txid " ++ lib.id server ++ " does not match any submitted checkpoint")]
    | some localTx => do
      let matched ← matchLoop context (JsMap.erase (lib.id server) byTxid) (index + 1) rest
      return ⟨server, localTx⟩ :: matched

def matchServerCheckpoints (serverCheckpointTxs : List String) (expectedCheckpoints : List τ)
    (context : String) : Except Message (List (Matched τ)) := do
  rejectIf (serverCheckpointTxs.length ≠ expectedCheckpoints.length)
    [.text (context ++ " returned "), .value (.ofNat serverCheckpointTxs.length),
      .text " checkpoints, expected ", .value (.ofNat expectedCheckpoints.length)]
  matchLoop lib context (toMap (expectedCheckpoints.map fun c ↦ (lib.id c, c))) 0
    serverCheckpointTxs

def assertSubmittedArkTxid (response : SubmitResponse) (signedArkTx : τ) (context : String) :
    Except Message Unit := do
  rejectIf (response.arkTxid ≠ lib.id signedArkTx)
    (message (context ++ " returned ark txid " ++ response.arkTxid ++ ", expected " ++
      lib.id signedArkTx))
  match response.finalArkTx with
  | none => return
  | some finalArkTx => do
    let finalTx ← lib.decode finalArkTx
    rejectIf (lib.id finalTx ≠ lib.id signedArkTx)
      (message (context ++ " returned final ark tx " ++ lib.id finalTx ++ ", expected " ++
        lib.id signedArkTx))

def assertServerSignedLeaf (serverTx localTx : τ) (inputIndex : ℕ) (serverPubkeyHex : String)
    (context : Message) : Except Message Unit :=
  match lib.leafHash localTx inputIndex with
  | none => .error (context ++ [.text ": input ", .value (.ofNat inputIndex),
      .text " carries no spend leaf to verify the server signature against"])
  | some leaf =>
    match lib.verifyTapscriptSignatures serverTx inputIndex serverPubkeyHex leaf with
    | .ok () => .ok ()
    | .error e => .error (context ++ [.text ": input ", .value (.ofNat inputIndex),
        .text " is not signed by the server on the leaf being spent ("] ++ e ++ [.text ")"])

/-- The checks under `verifyServerSignatures`, where they were asked for. -/
def verifyServerSignatures (serverPubkey : Option Bytes) (response : SubmitResponse) (arkTx : τ)
    (matched : List (Matched τ)) : Except Message Unit :=
  match serverPubkey with
  | none => .ok ()
  | some serverPubkey =>
    match response.finalArkTx with
    | none => .error
        (message "submitTx: server returned no final ark tx to verify its signatures against")
    | some finalArkTx => do
      let finalArkTx ← lib.decode finalArkTx
      let serverPubkeyHex ← lib.toXOnly serverPubkey
      (List.range (lib.inputsLength arkTx)).forM fun i ↦
        assertServerSignedLeaf lib finalArkTx arkTx i serverPubkeyHex (message "submitTx ark tx")
      matched.zipIdx.forM fun (m, index) ↦
        assertServerSignedLeaf lib m.server m.localTx 0 serverPubkeyHex
          [.text "submitTx checkpoint ", .value (.ofNat index)]

/-- The server's checkpoints with the user's signatures on them, each found by the txid of the
checkpoint at its place. -/
def combineMatched (checkpoints userSignedCheckpoints : List τ) (matched : List (Matched τ)) :
    Except Message (List τ) :=
  let userByTxid := toMap ((checkpoints.zip userSignedCheckpoints).map fun (c, u) ↦ (lib.id c, u))
  matched.mapM fun m ↦
    match JsMap.get userByTxid (lib.id m.localTx) with
    | none => .error (message "Cannot read properties of undefined (reading 'inputsLength')")
    | some user => combineTapscriptSigs lib user m.server

/-- `Promise.all`: every checkpoint is handed to the signer. -/
def signMatched (signer : OffchainTxSigner τ) (matched : List (Matched τ)) :
    Except Message (List τ) :=
  matched.zipIdx.mapM fun (m, index) ↦ signer.signCheckpoint index m.server

def finalCheckpoints (signer : OffchainTxSigner τ) (checkpoints : List τ)
    (userSignedCheckpoints : Option (List τ)) (matched : List (Matched τ)) :
    List (Call τ) × Except Message (List τ) :=
  match userSignedCheckpoints with
  | some users => ([], combineMatched lib checkpoints users matched)
  | none => (matched.map fun m ↦ .signCheckpoint m.server, signMatched signer matched)

def signArkTx (offchainTx : OffchainTx τ) (signer : OffchainTxSigner τ) (hooks : Hooks) :
    Except Message (SignedArkTx τ) := do
  let signed ← signer.signArkTx offchainTx.arkTx offchainTx.checkpoints
  match signed.userSignedCheckpoints with
  | none => hooks.beforeSubmit
  | some users => do
    rejectIf (users.length ≠ offchainTx.checkpoints.length)
      [.text "signer returned ", .value (.ofNat users.length),
        .text " signed checkpoints, expected ", .value (.ofNat offchainTx.checkpoints.length)]
    hooks.beforeSubmit
  return signed

/-- The response to the submission, and its checkpoints. -/
def submit (provider : OffchainTxSubmitProvider) (offchainTx : OffchainTx τ)
    (serverPubkey : Option Bytes) (signedArkTx : τ) :
    Except Message (SubmitResponse × List (Matched τ)) := do
  let response ← provider.submitTx (lib.encode signedArkTx) (offchainTx.checkpoints.map lib.encode)
  assertSubmittedArkTxid lib response signedArkTx "submitTx"
  let matched ← matchServerCheckpoints lib response.signedCheckpointTxs offchainTx.checkpoints
    "submitTx"
  verifyServerSignatures lib serverPubkey response offchainTx.arkTx matched
  return (response, matched)

def submitOffchainTx (provider : OffchainTxSubmitProvider) (offchainTx : OffchainTx τ)
    (signer : OffchainTxSigner τ) (hooks : Hooks) (serverPubkey : Option Bytes) : Outcome τ :=
  match signArkTx offchainTx signer hooks with
  | .error e => ⟨[], .error e⟩
  | .ok signed =>
    let submitCall :=
      .submitTx (lib.encode signed.arkTx) (offchainTx.checkpoints.map lib.encode)
    match submit lib provider offchainTx serverPubkey signed.arkTx with
    | .error e => ⟨[submitCall], .error e⟩
    | .ok (response, matched) =>
      let (signing, finals) := finalCheckpoints lib signer offchainTx.checkpoints
        signed.userSignedCheckpoints matched
      match finals with
      | .error e => ⟨submitCall :: signing, .error e⟩
      | .ok finals =>
        let finalCheckpointTxs := finals.map lib.encode
        ⟨submitCall :: (signing ++ [.finalizeTx response.arkTxid finalCheckpointTxs]), do
          provider.finalizeTx response.arkTxid finalCheckpointTxs
          hooks.afterFinalize
          return (response.arkTxid, response.signedCheckpointTxs)⟩

end

theorem eraseDups_again {α : Type} [DecidableEq α] (l m : List α) :
    (l ++ (l ++ m)).eraseDups = (l ++ m).eraseDups := by
  have hnil : l.removeAll l = [] := by
    refine List.eq_nil_iff_forall_not_mem.mpr fun a ha ↦ ?_
    simp [List.removeAll] at ha
  rw [List.eraseDups_append, List.eraseDups_append, List.removeAll, List.filter_append,
    ← List.removeAll, ← List.removeAll, hnil, List.nil_append]

section

variable {τ : Type} {lib : PsbtLibrary τ}

/-- Input `i` of `tx` carries what it does in `original`, and then what it does in `signed`. -/
def Carries (lib : PsbtLibrary τ) (original signed tx : τ) (i : ℕ) : Prop :=
  ∃ sigs signedSigs, lib.tapScriptSig original i = some sigs ∧
    lib.tapScriptSig signed i = some signedSigs ∧
    lib.tapScriptSig tx i = some (sigs ++ signedSigs).eraseDups

theorem combineInputs_ok (hlaws : lib.Lawful) {signed original tx : τ} {inputs : List ℕ}
    (hinputs : inputs.Nodup) (h : combineInputs lib signed inputs original = .ok tx) :
    lib.id tx = lib.id original ∧ (∀ i ∈ inputs, Carries lib original signed tx i) ∧
      ∀ i ∉ inputs, lib.tapScriptSig tx i = lib.tapScriptSig original i := by
  induction inputs generalizing original with
  | nil =>
    cases h
    exact ⟨rfl, by simp, fun _ _ ↦ rfl⟩
  | cons i rest ih =>
    obtain ⟨hnew, hrest⟩ := List.nodup_cons.mp hinputs
    unfold combineInputs at h
    split at h
    · cases h
    · cases h
    · next sigs signedSigs hsigs hsigned =>
      obtain ⟨updated, hupdated, h⟩ := bind_ok.mp h
      obtain ⟨hid, hcarries, hothers⟩ := ih hrest h
      refine ⟨hid.trans (hlaws.txid hupdated), ?_, ?_⟩
      · intro j hj
        rcases List.mem_cons.mp hj with rfl | hj
        · refine ⟨sigs, signedSigs, hsigs, hsigned, ?_⟩
          rw [hothers j hnew, hlaws.added hupdated, hsigs, Option.getD_some, eraseDups_again]
        · obtain ⟨sigs', signedSigs', hsigs', hsigned', hboth⟩ := hcarries j hj
          rw [hlaws.others hupdated fun heq ↦ hnew (heq ▸ hj)] at hsigs'
          exact ⟨sigs', signedSigs', hsigs', hsigned', hboth⟩
      · intro j hj
        obtain ⟨hne, hj⟩ := not_or.mp fun hor ↦ hj (List.mem_cons.mpr hor)
        rw [hothers j hj, hlaws.others hupdated hne]

theorem combineTapscriptSigs_ok (hlaws : lib.Lawful) {signed original tx : τ}
    (h : combineTapscriptSigs lib signed original = .ok tx) :
    lib.id tx = lib.id original ∧
      ∀ i < lib.inputsLength original, Carries lib original signed tx i := by
  obtain ⟨hcount, h⟩ := then_ok.mp h
  have hcount : lib.inputsLength signed = lib.inputsLength original := by simpa using hcount
  obtain ⟨hid, hcarries, -⟩ := combineInputs_ok hlaws List.nodup_range h
  refine ⟨hid, fun i hi ↦ hcarries i (List.mem_range.mpr ?_)⟩
  rw [hcount]
  exact hi

theorem toMap_from {ν : Type} {entries : List (Txid × ν)} {m : JsMap.Entries Txid ν}
    (h : (m.map Prod.fst ++ entries.map Prod.fst).Nodup) :
    entries.foldl (fun m e ↦ JsMap.set e.1 e.2 m) m = m ++ entries := by
  induction entries generalizing m with
  | nil => simp
  | cons e entries ih =>
    have hnew : e.1 ∉ m.map Prod.fst := fun hmem ↦
      (List.nodup_append.mp h).2.2 _ hmem _ List.mem_cons_self rfl
    have hset := JsMap.set_new e.2 hnew
    rw [List.foldl_cons, ih, hset, List.append_assoc]
    · rfl
    · rw [hset, List.map_append, List.append_assoc]
      exact h

theorem toMap_eq {ν : Type} {entries : List (Txid × ν)} (h : (entries.map Prod.fst).Nodup) :
    toMap entries = entries := toMap_from h

theorem matchLoop_ok {context : String} {byTxid : JsMap.Entries Txid τ} {index : ℕ}
    {encoded : List String} {matched : List (Matched τ)}
    (hkeys : (byTxid.map Prod.fst).Nodup) (hids : ∀ e ∈ byTxid, lib.id e.2 = e.1)
    (h : matchLoop lib context byTxid index encoded = .ok matched) :
    List.Forall₂ (fun encoded m ↦ lib.decode encoded = .ok m.server ∧
      lib.id m.server = lib.id m.localTx) encoded matched ∧
    (matched.map Matched.localTx).Subperm (byTxid.map Prod.snd) := by
  induction encoded generalizing byTxid index matched with
  | nil =>
    cases h
    exact ⟨.nil, List.nil_subperm⟩
  | cons psbt rest ih =>
    obtain ⟨server, hserver, h⟩ := bind_ok.mp h
    cases hget : JsMap.get byTxid (lib.id server) with
    | none =>
      rw [hget] at h
      cases h
    | some localTx =>
      rw [hget] at h
      obtain ⟨later, hlater, h⟩ := bind_ok.mp h
      obtain rfl := pure_ok.mp h
      have hmem := JsMap.mem_of_get hget
      obtain ⟨hall, hsub⟩ := ih (JsMap.nodup_erase hkeys _)
        (fun e he ↦ hids e (List.mem_of_mem_filter he)) hlater
      refine ⟨.cons ⟨hserver, (hids _ hmem).symm⟩ hall, ?_⟩
      have hperm := (JsMap.perm_erase hkeys hmem).map Prod.snd
      exact ((List.subperm_cons localTx).mpr hsub).trans hperm.symm.subperm

theorem matchServerCheckpoints_ok {serverCheckpointTxs : List String} {checkpoints : List τ}
    {context : String} {matched : List (Matched τ)} (hdistinct : (checkpoints.map lib.id).Nodup)
    (h : matchServerCheckpoints lib serverCheckpointTxs checkpoints context = .ok matched) :
    List.Forall₂ (fun encoded m ↦ lib.decode encoded = .ok m.server ∧
      lib.id m.server = lib.id m.localTx) serverCheckpointTxs matched ∧
    (matched.map Matched.localTx).Perm checkpoints := by
  obtain ⟨hcount, h⟩ := then_ok.mp h
  have hcount : serverCheckpointTxs.length = checkpoints.length := by simpa using hcount
  have hkeys : ((checkpoints.map fun c ↦ (lib.id c, c)).map Prod.fst).Nodup := by
    rw [List.map_map]
    exact hdistinct
  rw [toMap_eq hkeys] at h
  obtain ⟨hall, hsub⟩ := matchLoop_ok hkeys (fun e he ↦ by
    obtain ⟨c, -, rfl⟩ := List.mem_map.mp he
    rfl) h
  refine ⟨hall, hsub.perm_of_length_le ?_ |>.trans ?_⟩
  · rw [List.length_map, List.length_map, List.length_map, ← hcount, hall.length_eq]
  · rw [List.map_map]
    exact .of_eq (List.map_id _)

/-- The final checkpoints are those that were returned: with the signatures of the user's checkpoint
at the place of the one that they match, or as the signer answered. -/
def Finished (lib : PsbtLibrary τ) (signer : OffchainTxSigner τ) (checkpoints : List τ)
    (matched : List (Matched τ)) (finals : List τ) : Option (List τ) → Prop
  | some users => List.Forall₂ (fun m tx ↦ lib.id tx = lib.id m.localTx ∧
      ∃ (n : ℕ) (user : τ), checkpoints[n]? = some m.localTx ∧ users[n]? = some user ∧
        ∀ i < lib.inputsLength m.server, Carries lib m.server user tx i) matched finals
  | none => List.Forall₂ (fun p tx ↦ signer.signCheckpoint p.2 p.1.server = .ok tx) matched.zipIdx
      finals

theorem forall_of_forall₂ {α β : Type} {P : β → Prop} {l : List α} {m : List β}
    (h : List.Forall₂ (fun _ b ↦ P b) l m) : ∀ b ∈ m, P b := by
  induction h with
  | nil => simp
  | cons hb _ ih => exact List.forall_mem_cons.mpr ⟨hb, ih⟩

theorem get_user {checkpoints users : List τ} (hdistinct : (checkpoints.map lib.id).Nodup)
    (hlength : users.length = checkpoints.length) {localTx user : τ}
    (hlocal : localTx ∈ checkpoints)
    (h : JsMap.get (toMap ((checkpoints.zip users).map fun (c, u) ↦ (lib.id c, u)))
      (lib.id localTx) = some user) :
    ∃ n : ℕ, checkpoints[n]? = some localTx ∧ users[n]? = some user := by
  have hkeys : (((checkpoints.zip users).map fun (c, u) ↦ (lib.id c, u)).map Prod.fst).Nodup := by
    have hfst : (checkpoints.zip users).map (lib.id ∘ Prod.fst) = checkpoints.map lib.id := by
      rw [← List.map_map, List.map_fst_zip hlength.ge]
    rw [List.map_map]
    exact hfst ▸ hdistinct
  rw [toMap_eq hkeys] at h
  obtain ⟨⟨c, u⟩, hzip, heq⟩ := List.mem_map.mp (JsMap.mem_of_get h)
  obtain ⟨hid, rfl⟩ := Prod.mk.inj heq
  obtain rfl := List.inj_on_of_nodup_map hdistinct (List.of_mem_zip hzip).1 hlocal hid
  obtain ⟨n, hn⟩ := List.mem_iff_getElem?.mp hzip
  exact ⟨n, List.getElem?_zip_eq_some.mp hn⟩

theorem combineMatched_ok (hlaws : lib.Lawful) {checkpoints users : List τ}
    (hdistinct : (checkpoints.map lib.id).Nodup) (hlength : users.length = checkpoints.length)
    {matched : List (Matched τ)} (hmatched : ∀ m ∈ matched, m.localTx ∈ checkpoints ∧
      lib.id m.server = lib.id m.localTx) {finals : List τ}
    (h : combineMatched lib checkpoints users matched = .ok finals)
    (signer : OffchainTxSigner τ) :
    Finished lib signer checkpoints matched finals (some users) := by
  refine ((List.forall₂_and_left _ _).mpr ⟨hmatched, mapM_ok_forall₂ h⟩).imp ?_
  rintro m tx ⟨⟨hlocal, hid⟩, hcombined⟩
  dsimp only at hcombined
  split at hcombined
  · cases hcombined
  · next user huser =>
    obtain ⟨hkept, hcarries⟩ := combineTapscriptSigs_ok hlaws hcombined
    obtain ⟨n, hn, hn'⟩ := get_user hdistinct hlength hlocal huser
    exact ⟨hkept.trans hid, n, user, hn, hn', hcarries⟩

theorem signArkTx_ok {offchainTx : OffchainTx τ} {signer : OffchainTxSigner τ} {hooks : Hooks}
    {signed : SignedArkTx τ} (h : signArkTx offchainTx signer hooks = .ok signed) :
    signer.signArkTx offchainTx.arkTx offchainTx.checkpoints = .ok signed ∧
      ∀ users, signed.userSignedCheckpoints = some users →
        users.length = offchainTx.checkpoints.length := by
  obtain ⟨signed', hsigned, h⟩ := bind_ok.mp h
  cases husers : signed'.userSignedCheckpoints with
  | none =>
    rw [husers] at h
    obtain ⟨-, h⟩ := then_ok.mp h
    obtain rfl := pure_ok.mp h
    refine ⟨hsigned, fun users husers' ↦ ?_⟩
    cases husers.symm.trans husers'
  | some users =>
    rw [husers] at h
    obtain ⟨hlength, h⟩ := then_ok.mp h
    obtain ⟨-, h⟩ := then_ok.mp h
    obtain rfl := pure_ok.mp h
    refine ⟨hsigned, fun users' husers' ↦ ?_⟩
    obtain rfl := Option.some.inj (husers.symm.trans husers')
    simpa using hlength

/-- The calls of the signer are for what the server returned, and what comes of them is finished. -/
theorem finalCheckpoints_spec (hlaws : lib.Lawful) {checkpoints : List τ}
    (hdistinct : (checkpoints.map lib.id).Nodup) {users : Option (List τ)}
    (hlength : ∀ l, users = some l → l.length = checkpoints.length) {matched : List (Matched τ)}
    (hmatched : ∀ m ∈ matched, m.localTx ∈ checkpoints ∧ lib.id m.server = lib.id m.localTx)
    (signer : OffchainTxSigner τ) :
    (∀ call ∈ (finalCheckpoints lib signer checkpoints users matched).1, ∃ m ∈ matched,
      call = .signCheckpoint m.server) ∧
    ∀ finals, (finalCheckpoints lib signer checkpoints users matched).2 = .ok finals →
      Finished lib signer checkpoints matched finals users := by
  cases users with
  | some l =>
    exact ⟨by simp [finalCheckpoints], fun finals h ↦
      combineMatched_ok hlaws hdistinct (hlength l rfl) hmatched h signer⟩
  | none =>
    refine ⟨fun call hcall ↦ ?_, fun finals h ↦ mapM_ok_forall₂ h⟩
    obtain ⟨m, hm, rfl⟩ := List.mem_map.mp hcall
    exact ⟨m, hm, rfl⟩

variable {provider : OffchainTxSubmitProvider} {offchainTx : OffchainTx τ}
  {signer : OffchainTxSigner τ} {hooks : Hooks} {serverPubkey : Option Bytes}

theorem submit_ok {signedArkTx : τ} {response : SubmitResponse} {matched : List (Matched τ)}
    (h : submit lib provider offchainTx serverPubkey signedArkTx = .ok (response, matched)) :
    provider.submitTx (lib.encode signedArkTx) (offchainTx.checkpoints.map lib.encode) =
        .ok response ∧
      response.arkTxid = lib.id signedArkTx ∧
      matchServerCheckpoints lib response.signedCheckpointTxs offchainTx.checkpoints "submitTx" =
        .ok matched := by
  obtain ⟨response', hresponse, h⟩ := bind_ok.mp h
  obtain ⟨hark, h⟩ := then_ok.mp h
  obtain ⟨matched', hmatched, h⟩ := bind_ok.mp h
  obtain ⟨-, h⟩ := then_ok.mp h
  cases pure_ok.mp h
  obtain ⟨harkTxid, -⟩ := then_ok.mp hark
  exact ⟨hresponse, by simpa using harkTxid, hmatched⟩

/-- What is finalized are the local checkpoints as the server returned them, under the txid of the
transaction that was signed, and what the signer signs matches a local checkpoint. -/
theorem submitOffchainTx_finalizes (hlaws : lib.Lawful)
    (hdistinct : (offchainTx.checkpoints.map lib.id).Nodup) :
    (∀ arkTxid finalCheckpointTxs, .finalizeTx arkTxid finalCheckpointTxs ∈
        (submitOffchainTx lib provider offchainTx signer hooks serverPubkey).calls →
      ∃ signed response matched finals,
        signer.signArkTx offchainTx.arkTx offchainTx.checkpoints = .ok signed ∧
        arkTxid = lib.id signed.arkTx ∧
        provider.submitTx (lib.encode signed.arkTx) (offchainTx.checkpoints.map lib.encode) =
          .ok response ∧
        List.Forall₂ (fun encoded m ↦ lib.decode encoded = .ok m.server ∧
          lib.id m.server = lib.id m.localTx) response.signedCheckpointTxs matched ∧
        (matched.map Matched.localTx).Perm offchainTx.checkpoints ∧
        finalCheckpointTxs = finals.map lib.encode ∧
        Finished lib signer offchainTx.checkpoints matched finals signed.userSignedCheckpoints) ∧
    ∀ checkpoint, .signCheckpoint checkpoint ∈
        (submitOffchainTx lib provider offchainTx signer hooks serverPubkey).calls →
      ∃ c ∈ offchainTx.checkpoints, lib.id checkpoint = lib.id c := by
  unfold submitOffchainTx
  cases hsigned : signArkTx offchainTx signer hooks with
  | error e => simp
  | ok signed =>
    obtain ⟨hsigner, hlength⟩ := signArkTx_ok hsigned
    dsimp only
    cases hsubmit : submit lib provider offchainTx serverPubkey signed.arkTx with
    | error e => simp
    | ok submitted =>
      obtain ⟨response, matched⟩ := submitted
      obtain ⟨hresponse, harkTxid, hmatched⟩ := submit_ok hsubmit
      obtain ⟨hreturned, hperm⟩ := matchServerCheckpoints_ok hdistinct hmatched
      have hlocals : ∀ m ∈ matched, m.localTx ∈ offchainTx.checkpoints ∧
          lib.id m.server = lib.id m.localTx := by
        exact fun m hm ↦ ⟨hperm.mem_iff.mp (List.mem_map_of_mem hm),
          forall_of_forall₂ (hreturned.imp fun _ _ h ↦ h.2) m hm⟩
      obtain ⟨hsigning, hfinished⟩ :=
        finalCheckpoints_spec hlaws hdistinct hlength hlocals signer
      dsimp only
      generalize finalCheckpoints lib signer offchainTx.checkpoints signed.userSignedCheckpoints
        matched = final at hsigning hfinished
      obtain ⟨signing, finals⟩ := final
      have hlocal : ∀ checkpoint, .signCheckpoint checkpoint ∈ signing →
          ∃ c ∈ offchainTx.checkpoints, lib.id checkpoint = lib.id c := by
        intro checkpoint hmem
        obtain ⟨m, hm, heq⟩ := hsigning _ hmem
        obtain rfl := Call.signCheckpoint.inj heq
        exact ⟨m.localTx, hlocals m hm⟩
      have hnone : ∀ arkTxid txs, .finalizeTx arkTxid txs ∉ signing := by
        intro arkTxid txs hmem
        obtain ⟨m, -, heq⟩ := hsigning _ hmem
        cases heq
      cases finals with
      | error e =>
        refine ⟨fun arkTxid txs hmem ↦ ?_, fun checkpoint hmem ↦ ?_⟩
        · rcases List.mem_cons.mp hmem with heq | hmem
          · cases heq
          · exact absurd hmem (hnone _ _)
        · rcases List.mem_cons.mp hmem with heq | hmem
          · cases heq
          · exact hlocal _ hmem
      | ok finals =>
        refine ⟨fun arkTxid txs hmem ↦ ?_, fun checkpoint hmem ↦ ?_⟩
        · rcases List.mem_cons.mp hmem with heq | hmem
          · cases heq
          rcases List.mem_append.mp hmem with hmem | hmem
          · exact absurd hmem (hnone _ _)
          obtain ⟨rfl, rfl⟩ := Call.finalizeTx.inj (List.mem_singleton.mp hmem)
          exact ⟨signed, response, matched, finals, hsigner, harkTxid, hresponse, hreturned, hperm,
            rfl, hfinished finals rfl⟩
        · rcases List.mem_cons.mp hmem with heq | hmem
          · cases heq
          rcases List.mem_append.mp hmem with hmem | hmem
          · exact hlocal _ hmem
          · cases List.mem_singleton.mp hmem

end

/-- A transaction of one input. -/
structure SmallTx where
  txid : Txid
  sigs : List TapScriptSig
  deriving DecidableEq

def serverSig : TapScriptSig := ⟨[1], [0], [1]⟩

def userSig : TapScriptSig := ⟨[2], [0], [2]⟩

def smallLibrary : PsbtLibrary SmallTx where
  id tx := tx.txid
  encode tx := match tx.sigs with
    | [] => tx.txid
    | [sig] => if sig = serverSig then tx.txid ++ " by server" else tx.txid ++ " by user"
    | _ => tx.txid ++ " by both"
  decode psbt :=
    if psbt = "c by server" then .ok ⟨"c", [serverSig]⟩
    else if psbt = "d by server" then .ok ⟨"d", [serverSig]⟩
    else .error (message "invalid psbt")
  inputsLength _ := 1
  tapScriptSig tx i := if i = 0 then some tx.sigs else none
  updateInput tx i sigs :=
    if i = 0 then .ok { tx with sigs := (tx.sigs ++ sigs).eraseDups }
    else .error (message "Wrong input index")
  leafHash _ _ := none
  verifyTapscriptSignatures _ _ _ _ := .ok ()
  toXOnly _ := .ok ""

theorem smallLibrary_lawful : smallLibrary.Lawful := by
  have hupdate {tx tx' : SmallTx} {i : ℕ} {sigs : List TapScriptSig}
      (h : smallLibrary.updateInput tx i sigs = .ok tx') :
      i = 0 ∧ tx' = { tx with sigs := (tx.sigs ++ sigs).eraseDups } := by
    dsimp only [smallLibrary] at h
    split at h
    · next hi => exact ⟨hi, (Except.ok.inj h).symm⟩
    · cases h
  constructor
  · intro tx tx' i sigs h
    obtain ⟨-, rfl⟩ := hupdate h
    rfl
  · intro tx tx' i sigs h
    rfl
  · intro tx tx' i sigs h
    obtain ⟨rfl, rfl⟩ := hupdate h
    rfl
  · intro tx tx' i sigs j h hj
    obtain ⟨rfl, rfl⟩ := hupdate h
    dsimp only [smallLibrary]
    rw [if_neg hj, if_neg hj]

def smallOffchainTx : OffchainTx SmallTx := ⟨⟨"ark", []⟩, [⟨"c", []⟩]⟩

def smallProvider : OffchainTxSubmitProvider :=
  ⟨fun _ _ ↦ .ok ⟨"ark", none, ["c by server"]⟩, fun _ _ ↦ .ok ()⟩

def smallHooks : Hooks := ⟨.ok (), .ok ()⟩

/-- Its checkpoints come back the other way round. -/
def twoOffchainTx : OffchainTx SmallTx := ⟨⟨"ark", []⟩, [⟨"c", []⟩, ⟨"d", []⟩]⟩

def twoProvider : OffchainTxSubmitProvider :=
  ⟨fun _ _ ↦ .ok ⟨"ark", none, ["d by server", "c by server"]⟩, fun _ _ ↦ .ok ()⟩

def batchSigner : OffchainTxSigner SmallTx :=
  ⟨fun arkTx _ ↦ .ok ⟨arkTx, some [⟨"c", [userSig]⟩, ⟨"d", [userSig]⟩]⟩, fun _ tx ↦ .ok tx⟩

theorem small_batch_finalized :
    (submitOffchainTx smallLibrary twoProvider twoOffchainTx batchSigner smallHooks none).calls =
      [.submitTx "ark" ["c", "d"], .finalizeTx "ark" ["d by both", "c by both"]] ∧
    ∃ signed response matched finals,
      batchSigner.signArkTx twoOffchainTx.arkTx twoOffchainTx.checkpoints = .ok signed ∧
      "ark" = smallLibrary.id signed.arkTx ∧
      twoProvider.submitTx (smallLibrary.encode signed.arkTx)
        (twoOffchainTx.checkpoints.map smallLibrary.encode) = .ok response ∧
      List.Forall₂ (fun encoded m ↦ smallLibrary.decode encoded = .ok m.server ∧
        smallLibrary.id m.server = smallLibrary.id m.localTx) response.signedCheckpointTxs matched ∧
      (matched.map Matched.localTx).Perm twoOffchainTx.checkpoints ∧
      ["d by both", "c by both"] = finals.map smallLibrary.encode ∧
      Finished smallLibrary batchSigner twoOffchainTx.checkpoints matched finals
        signed.userSignedCheckpoints :=
  have hcalls : (submitOffchainTx smallLibrary twoProvider twoOffchainTx batchSigner smallHooks
      none).calls =
      [.submitTx "ark" ["c", "d"], .finalizeTx "ark" ["d by both", "c by both"]] := by decide
  ⟨hcalls, (submitOffchainTx_finalizes smallLibrary_lawful (by decide)).1 "ark"
    ["d by both", "c by both"] (hcalls ▸ List.mem_cons_of_mem _ List.mem_cons_self)⟩

/-- A signer that answers with another transaction. -/
def otherSigner : OffchainTxSigner SmallTx :=
  ⟨fun arkTx _ ↦ .ok ⟨arkTx, none⟩, fun _ _ ↦ .ok ⟨"d", []⟩⟩

theorem other_checkpoint_finalized :
    smallLibrary.Lawful ∧ (smallOffchainTx.checkpoints.map smallLibrary.id).Nodup ∧
    .finalizeTx "ark" ["d"] ∈ (submitOffchainTx smallLibrary smallProvider smallOffchainTx
      otherSigner smallHooks none).calls ∧
    ¬∃ finals : List SmallTx, ["d"] = finals.map smallLibrary.encode ∧
      (finals.map smallLibrary.id).Perm (smallOffchainTx.checkpoints.map smallLibrary.id) := by
  refine ⟨smallLibrary_lawful, by decide, by decide, ?_⟩
  rintro ⟨finals, hfinals, hperm⟩
  obtain ⟨⟨txid, sigs⟩, rfl, hencode⟩ := List.map_eq_singleton_iff.mp hfinals.symm
  obtain rfl : txid = "c" := List.singleton_inj.mp (List.perm_singleton.mp hperm)
  match sigs with
  | [] => exact absurd hencode (by decide)
  | [sig] =>
    dsimp only [smallLibrary] at hencode
    split at hencode
    · exact absurd hencode (by decide)
    · exact absurd hencode (by decide)
  | _ :: _ :: _ =>
    have hboth : "c" ++ " by both" = "d" := hencode
    exact absurd hboth (by decide)

end ArkadeSdk.OffchainSubmit
