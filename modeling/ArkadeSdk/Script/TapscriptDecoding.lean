import ArkadeSdk.Script.Tapscript

namespace ArkadeSdk

open WireFormat JsNumber BtcScript ScriptCoder

variable {L : Libraries}

theorem checkPubkeys_ok {pubkeys : List Bytes} :
    checkPubkeys pubkeys = .ok () ↔ ∀ pubkey ∈ pubkeys, pubkey.length = 32 := by
  induction pubkeys with
  | nil => simp [checkPubkeys]
  | cons pubkey pubkeys ih =>
    rw [checkPubkeys, then_ok, rejectIf_ok, not_not, ih, List.forall_mem_cons]

theorem named_op {p : String × UInt8} (hp : p ∈ standardCodes) {x : Item} (hx : x = .op p.1) :
    Named L.OP x := hx ▸ named_standard hp

@[simp] theorem rethrow_ok {α : Type} {text : String} {x : Except Message α} {a : α} :
    rethrow text x = .ok a ↔ x = .ok a := by
  cases x <;> simp [rethrow]

namespace MultisigTapscript

def asm (type : MultisigType) (pubkeys : List Bytes) : List Item :=
  match type with
  | .CHECKSIG => checksigAsm pubkeys
  | .CHECKSIGADD => (trMs pubkeys.length pubkeys).map settle

def resolved (params : Params) : MultisigType := params.type.getD .CHECKSIG

theorem named_checksigAsm (pubkeys : List Bytes) : ∀ x ∈ checksigAsm pubkeys, Named L.OP x := by
  induction pubkeys with
  | nil => simp [checksigAsm]
  | cons key keys ih =>
    cases keys with
    | nil =>
      simp only [checksigAsm, List.forall_mem_cons]
      exact ⟨named_data key, named_op (p := ("CHECKSIG", 0xac)) (by decide) rfl, by simp⟩
    | cons key' keys =>
      simp only [checksigAsm, List.forall_mem_cons] at ih ⊢
      exact ⟨named_data key, named_op (p := ("CHECKSIGVERIFY", 0xad)) (by decide) rfl, ih⟩

theorem named_trMs (m : ℕ) (pubkeys : List Bytes) : ∀ x ∈ trMs m pubkeys, Named L.OP x := by
  cases pubkeys with
  | nil => simp [trMs]
  | cons key keys =>
    intro x hx
    simp only [trMs, List.mem_append, List.mem_cons, List.not_mem_nil, or_false,
      List.mem_flatMap] at hx
    rcases hx with ((rfl | rfl) | ⟨k, -, rfl | rfl⟩) | rfl | rfl
    · exact named_data key
    · exact named_op (p := ("CHECKSIG", 0xac)) (by decide) rfl
    · exact named_data k
    · exact named_op (p := ("CHECKSIGADD", 0xba)) (by decide) rfl
    · exact named_num m
    · exact named_op (p := ("NUMEQUAL", 0x9c)) (by decide) rfl

theorem settle_key {key : Bytes} (h : key.length = 32) : settle (.data key) = .data key :=
  settle_data (by rintro rfl; simp at h)

theorem settle_checksigAsm {pubkeys : List Bytes} (h : ∀ k ∈ pubkeys, k.length = 32) :
    (checksigAsm pubkeys).map settle = checksigAsm pubkeys := by
  induction pubkeys with
  | nil => rfl
  | cons key keys ih =>
    obtain ⟨hkey, hkeys⟩ := List.forall_mem_cons.mp h
    cases keys with
    | nil => simp [checksigAsm, settle_key hkey]
    | cons key' keys =>
      have ih := ih hkeys
      simp only [checksigAsm, List.map_cons, settle_key hkey, settle_op] at ih ⊢
      rw [ih]

theorem settle_trMs {key : Bytes} {keys : List Bytes} (m : ℕ)
    (h : ∀ k ∈ key :: keys, k.length = 32) :
    (trMs m (key :: keys)).map settle = [Item.data key, .op "CHECKSIG"] ++
      (keys.flatMap fun key ↦ [Item.data key, .op "CHECKSIGADD"]) ++
        [settle (.num m), .op "NUMEQUAL"] := by
  obtain ⟨hkey, hkeys⟩ := List.forall_mem_cons.mp h
  have hmap : (keys.flatMap fun key ↦ [Item.data key, .op "CHECKSIGADD"]).map settle =
      keys.flatMap fun key ↦ [.data key, .op "CHECKSIGADD"] := by
    rw [List.map_flatMap]
    refine List.flatMap_congr fun k hk ↦ ?_
    simp [settle_key (hkeys k hk)]
  simp only [trMs, List.map_append, List.map_cons, List.map_nil, settle_key hkey, hmap]
  rfl

theorem encode_withType (params : Params) : encode L params.withType = encode L params := by
  obtain ⟨pubkeys, type⟩ := params
  cases type <;> rfl

structure Encoded (L : Libraries) (params : Params) (t : ArkTapscript Params) : Prop where
  result : t.params = params.withType
  ne_nil : params.pubkeys ≠ []
  valid : ∀ key ∈ params.pubkeys, key.length = 32
  canonical : Canonical L.OP t.script (asm (resolved params) params.pubkeys)

theorem encode_ok {params : Params} {t : ArkTapscript Params} (h : encode L params = .ok t) :
    Encoded L params t := by
  obtain ⟨hne, h⟩ := then_ok.mp h
  obtain ⟨hkeys, h⟩ := then_ok.mp h
  have hvalid := checkPubkeys_ok.mp hkeys
  have hnil : params.pubkeys ≠ [] := by simpa using hne
  dsimp only at h
  split at h
  · rename_i htype
    obtain ⟨script, hscript, h⟩ := bind_ok.mp h
    cases h
    have hresolved : resolved params = .CHECKSIGADD := Option.some.inj htype
    refine ⟨rfl, hnil, hvalid, ?_⟩
    rw [hresolved]
    exact canonical_of_encode (named_trMs _ _) (L.p2trMs_ok hscript)
  · rename_i htype
    obtain ⟨script, hscript, h⟩ := bind_ok.mp h
    cases h
    have hresolved : resolved params = .CHECKSIG := by
      cases hr : resolved params with
      | CHECKSIG => rfl
      | CHECKSIGADD => exact absurd (congrArg some hr) htype
    refine ⟨rfl, hnil, hvalid, ?_⟩
    rw [hresolved]
    have hc := canonical_of_encode (named_checksigAsm params.pubkeys) hscript
    rwa [settle_checksigAsm hvalid] at hc

theorem asm_getLast {pubkeys : List Bytes} (hne : pubkeys ≠ [])
    (h : ∀ key ∈ pubkeys, key.length = 32) (type : MultisigType) :
    (asm type pubkeys).getLast? =
      some (.op (match type with | .CHECKSIG => "CHECKSIG" | .CHECKSIGADD => "NUMEQUAL")) := by
  cases type with
  | CHECKSIG =>
    clear h
    show (checksigAsm pubkeys).getLast? = _
    induction pubkeys with
    | nil => exact absurd rfl hne
    | cons key keys ih =>
      cases keys with
      | nil => rfl
      | cons key' keys =>
        have hcons : checksigAsm (key :: key' :: keys) =
            [Item.data key, .op "CHECKSIGVERIFY"] ++ checksigAsm (key' :: keys) := rfl
        rw [hcons, List.getLast?_append, ih (by simp)]
        rfl
  | CHECKSIGADD =>
    cases pubkeys with
    | nil => exact absurd rfl hne
    | cons key keys =>
      rw [asm, settle_trMs _ h, List.getLast?_append]
      rfl

theorem asm_type_eq {type type' : MultisigType} {pubkeys pubkeys' : List Bytes}
    (hne : pubkeys ≠ []) (hne' : pubkeys' ≠ []) (h : ∀ key ∈ pubkeys, key.length = 32)
    (h' : ∀ key ∈ pubkeys', key.length = 32) (heq : asm type pubkeys = asm type' pubkeys') :
    type = type' := by
  have hlast := asm_getLast hne h type
  rw [heq, asm_getLast hne' h' type'] at hlast
  cases type <;> cases type' <;> simp at hlast ⊢

theorem parseChecksig_checksigAsm {pubkeys : List Bytes} (h : ∀ key ∈ pubkeys, key.length = 32) :
    parseChecksig (checksigAsm pubkeys) = .ok pubkeys := by
  induction pubkeys with
  | nil => rfl
  | cons key keys ih =>
    obtain ⟨hkey, hkeys⟩ := List.forall_mem_cons.mp h
    cases keys with
    | nil => simp [checksigAsm, parseChecksig, hkey]
    | cons key' keys =>
      have hne : checksigAsm (key' :: keys) ≠ [] := by
        cases keys <;> simp [checksigAsm]
      simp [checksigAsm, parseChecksig, hkey, hne, ih hkeys]

theorem parseChecksigAdd_flatMap {keys : List Bytes} (h : ∀ key ∈ keys, key.length = 32)
    (rest : List Item) :
    parseChecksigAdd ((keys.flatMap fun key ↦ [Item.data key, .op "CHECKSIGADD"]) ++ rest) =
      (fun p ↦ (keys ++ p.1, p.2)) <$> parseChecksigAdd rest := by
  induction keys with
  | nil =>
    simp only [List.flatMap_nil, List.nil_append]
    cases parseChecksigAdd rest <;> rfl
  | cons key keys ih =>
    obtain ⟨hkey, hkeys⟩ := List.forall_mem_cons.mp h
    simp only [List.flatMap_cons, List.cons_append, List.nil_append, parseChecksigAdd]
    rw [if_neg (not_not.mpr hkey), ih hkeys]
    cases parseChecksigAdd rest <;> rfl

theorem parseChecksigAdd_asm {pubkeys : List Bytes} (hne : pubkeys ≠ [])
    (h : ∀ key ∈ pubkeys, key.length = 32) :
    parseChecksigAdd (asm .CHECKSIGADD pubkeys) = (fun p ↦ (pubkeys ++ p.1, p.2)) <$>
      parseChecksigAdd [settle (.num pubkeys.length), .op "NUMEQUAL"] := by
  cases pubkeys with
  | nil => exact absurd rfl hne
  | cons key keys =>
    obtain ⟨hkey, hkeys⟩ := List.forall_mem_cons.mp h
    simp only [asm, settle_trMs _ h, List.cons_append, List.nil_append, parseChecksigAdd]
    rw [if_neg (not_not.mpr hkey), parseChecksigAdd_flatMap hkeys]
    cases parseChecksigAdd [settle (.num (key :: keys).length), .op "NUMEQUAL"] <;> rfl

theorem parseChecksigAdd_push (b : Bytes) (p : List Bytes × Bool) :
    parseChecksigAdd [.data b, .op "NUMEQUAL"] ≠ .ok p := by
  unfold parseChecksigAdd
  split <;> simp

/-- A key count above sixteen is a data push, which the parser takes for a key. -/
theorem parseChecksigAdd_count {n : ℕ} {p : List Bytes × Bool} :
    parseChecksigAdd [settle (.num n), .op "NUMEQUAL"] = .ok p ↔ n ≤ 16 ∧ p = ([], true) := by
  by_cases hn : n ≤ 16
  · have hsettle : settle (.num n) = .num n := by rw [settle, if_pos (by omega)]
    simp [hsettle, parseChecksigAdd, hn, eq_comm]
  · have hsettle : settle (.num n) = .data (ScriptNumber.encode n) := by
      rw [settle, if_neg (by omega)]
    rw [hsettle]
    exact iff_of_false (parseChecksigAdd_push _ p) fun h ↦ hn h.1

theorem reconstruct_ok {pubkeys : List Bytes} {type : MultisigType} {script : Bytes}
    {t : ArkTapscript Params} :
    reconstruct L pubkeys type script = .ok t ↔
      encode L ⟨pubkeys, some type⟩ = .ok t ∧ t.script = script := by
  unfold reconstruct
  constructor
  · intro h
    obtain ⟨-, h⟩ := then_ok.mp h
    obtain ⟨r, hr, h⟩ := bind_ok.mp h
    obtain ⟨hscript, h⟩ := then_ok.mp h
    cases h
    have hresult := (encode_ok hr).result
    have hs : r.script = script := not_not.mp (rejectIf_ok.mp hscript)
    obtain ⟨rparams, rscript⟩ := r
    simp only at hs hresult
    subst hs hresult
    exact ⟨hr, rfl⟩
  · rintro ⟨h, rfl⟩
    have hok := encode_ok h
    have hne : ¬pubkeys.length = 0 := mt List.length_eq_zero_iff.mp hok.ne_nil
    refine then_ok.mpr ⟨rejectIf_ok.mpr hne, bind_ok.mpr ⟨t, h, then_ok.mpr ⟨?_, ?_⟩⟩⟩
    · exact rejectIf_ok.mpr (not_not.mpr rfl)
    · have hresult := hok.result
      obtain ⟨tparams, tscript⟩ := t
      simp only at hresult
      subst hresult
      rfl

theorem decodeChecksigAdd_sound {script : Bytes} {t : ArkTapscript Params}
    (h : decodeChecksigAdd L script = .ok t) :
    t.params.type = some .CHECKSIGADD ∧ encode L t.params = .ok t ∧ t.script = script := by
  obtain ⟨asm, -, h⟩ := bind_ok.mp h
  obtain ⟨⟨pubkeys, found⟩, -, h⟩ := bind_ok.mp h
  obtain ⟨-, h⟩ := then_ok.mp h
  obtain ⟨henc, hs⟩ := reconstruct_ok.mp h
  have hresult : t.params = ⟨pubkeys, some .CHECKSIGADD⟩ := (encode_ok henc).result
  rw [hresult]
  exact ⟨rfl, henc, hs⟩

theorem decodeChecksig_sound {script : Bytes} {t : ArkTapscript Params}
    (h : decodeChecksig L script = .ok t) :
    t.params.type = some .CHECKSIG ∧ encode L t.params = .ok t ∧ t.script = script := by
  obtain ⟨asm, -, h⟩ := bind_ok.mp h
  obtain ⟨pubkeys, -, h⟩ := bind_ok.mp h
  obtain ⟨henc, hs⟩ := reconstruct_ok.mp h
  have hresult : t.params = ⟨pubkeys, some .CHECKSIG⟩ := (encode_ok henc).result
  rw [hresult]
  exact ⟨rfl, henc, hs⟩

theorem decode_ok {script : Bytes} {t : ArkTapscript Params} :
    decode L script = .ok t ↔ script ≠ [] ∧ (decodeChecksigAdd L script = .ok t ∨
      (∀ u, decodeChecksigAdd L script ≠ .ok u) ∧ decodeChecksig L script = .ok t) := by
  unfold decode
  rw [then_ok, rejectIf_ok, List.length_eq_zero_iff]
  refine and_congr_right fun _ ↦ ?_
  cases hadd : decodeChecksigAdd L script with
  | ok u => simp
  | error e => cases decodeChecksig L script <;> simp

theorem decode_sound {script : Bytes} {t : ArkTapscript Params} (h : decode L script = .ok t) :
    encode L t.params = .ok t ∧ t.script = script := by
  rcases (decode_ok.mp h).2 with h | ⟨-, h⟩
  · exact (decodeChecksigAdd_sound h).2
  · exact (decodeChecksig_sound h).2

/-- The condition under which a multisig script decodes. -/
def Decodable (params : Params) : Prop :=
  resolved params = .CHECKSIG ∨ params.pubkeys.length ≤ 16

theorem Encoded.script_ne_nil {params : Params} {t : ArkTapscript Params} (h : Encoded L params t) :
    t.script ≠ [] := by
  refine h.canonical.ne_nil fun hnil ↦ ?_
  have hlast := asm_getLast h.ne_nil h.valid (resolved params)
  rw [hnil] at hlast
  cases hlast

theorem encoded_type {params params' : Params} {t t' : ArkTapscript Params}
    (h : Encoded L params t) (h' : Encoded L params' t') (hs : t.script = t'.script) :
    resolved params = resolved params' := by
  have hcanonical := h.canonical
  rw [hs] at hcanonical
  exact asm_type_eq h.ne_nil h'.ne_nil h.valid h'.valid (hcanonical.unique h'.canonical)

theorem decode_encode {params : Params} {t : ArkTapscript Params} (h : encode L params = .ok t)
    (hd : Decodable params) : decode L t.script = .ok t := by
  have hok := encode_ok h
  have hresolved : encode L ⟨params.pubkeys, some (resolved params)⟩ = .ok t :=
    (encode_withType params).trans h
  refine decode_ok.mpr ⟨hok.script_ne_nil, ?_⟩
  have hdecode := hok.canonical.decode
  cases htype : resolved params with
  | CHECKSIG =>
    rw [htype] at hdecode hresolved
    refine Or.inr ⟨fun u hu ↦ ?_, ?_⟩
    · obtain ⟨hu, henc, hs⟩ := decodeChecksigAdd_sound hu
      have hsame := encoded_type (encode_ok henc) hok hs
      rw [htype, resolved, hu] at hsame
      cases hsame
    · refine bind_ok.mpr ⟨_, hdecode, bind_ok.mpr ⟨_, parseChecksig_checksigAsm hok.valid, ?_⟩⟩
      exact reconstruct_ok.mpr ⟨hresolved, rfl⟩
  | CHECKSIGADD =>
    rw [htype] at hdecode hresolved
    have hn : params.pubkeys.length ≤ 16 := by
      rcases hd with hd | hd
      · rw [htype] at hd
        cases hd
      · exact hd
    have hparse : parseChecksigAdd (asm .CHECKSIGADD params.pubkeys) =
        .ok (params.pubkeys, true) := by
      rw [parseChecksigAdd_asm hok.ne_nil hok.valid, parseChecksigAdd_count.mpr ⟨hn, rfl⟩]
      simp
    refine Or.inl (bind_ok.mpr ⟨_, hdecode, bind_ok.mpr ⟨_, hparse, then_ok.mpr ⟨rfl, ?_⟩⟩⟩)
    exact reconstruct_ok.mpr ⟨hresolved, rfl⟩

theorem decode_not_ok {params : Params} {t : ArkTapscript Params} (h : encode L params = .ok t)
    (hd : ¬Decodable params) (u : ArkTapscript Params) : decode L t.script ≠ .ok u := by
  have hok := encode_ok h
  obtain ⟨htype, hn⟩ := not_or.mp hd
  have hadd : resolved params = .CHECKSIGADD := by
    cases hr : resolved params with
    | CHECKSIG => exact absurd hr htype
    | CHECKSIGADD => rfl
  have hdecode := hok.canonical.decode
  rw [hadd] at hdecode
  intro hu
  rcases (decode_ok.mp hu).2 with hu | ⟨-, hu⟩
  · obtain ⟨items, hitems, hu⟩ := bind_ok.mp hu
    obtain ⟨p, hp, -⟩ := bind_ok.mp hu
    rw [hdecode] at hitems
    cases hitems
    rw [parseChecksigAdd_asm hok.ne_nil hok.valid] at hp
    cases hcount : parseChecksigAdd [settle (.num params.pubkeys.length), .op "NUMEQUAL"] with
    | error e =>
      rw [hcount] at hp
      cases hp
    | ok q => exact hn (parseChecksigAdd_count.mp hcount).1
  · obtain ⟨hu, henc, hs⟩ := decodeChecksig_sound hu
    have hsame := encoded_type (encode_ok henc) hok hs
    rw [hadd, resolved, hu] at hsame
    cases hsame

end MultisigTapscript

end ArkadeSdk
