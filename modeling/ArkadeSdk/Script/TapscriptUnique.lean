import ArkadeSdk.Script.TapscriptClosures
import Mathlib.Data.List.Perm.Basic

namespace ArkadeSdk

open WireFormat JsNumber BtcScript ScriptCoder

variable {L : Libraries}

/-- The opcodes that may follow a closure's first push. -/
def guardOps : TapscriptType → List String
  | .Multisig | .ConditionMultisig => ["CHECKSIG", "CHECKSIGVERIFY"]
  | .CSVMultisig | .ConditionCSVMultisig => ["CHECKSEQUENCEVERIFY"]
  | .CLTVMultisig => ["CHECKLOCKTIMEVERIFY"]

def isConditional : TapscriptType → Bool
  | .ConditionMultisig | .ConditionCSVMultisig => true
  | _ => false

def Opens (names : List String) (asm : List Item) : Prop := ∃ name ∈ names, asm[1]? = some (.op name)

/-- What a decoded script looks like to the decoder that accepts it. -/
def Shape (L : Libraries) (type : TapscriptType) (asm : List Item) : Prop :=
  if isConditional type then
    ∃ condition rest inner asm', splitVerify asm = some (condition, rest) ∧
      ScriptCoder.encode L.OP rest = .ok inner ∧ ScriptCoder.decode L.OP inner = .ok asm' ∧
      Opens (guardOps type) asm'
  else .op "VERIFY" ∉ asm ∧ Opens (guardOps type) asm

theorem opens_disjoint {type type' : TapscriptType} {asm : List Item}
    (h : Opens (guardOps type) asm) (h' : Opens (guardOps type') asm)
    (hc : isConditional type = isConditional type') : type = type' := by
  obtain ⟨name, hmem, hname⟩ := h
  obtain ⟨name', hmem', hname'⟩ := h'
  rw [hname] at hname'
  cases hname'
  cases type <;> cases type' <;> simp_all [guardOps, isConditional]

theorem shape_unique {type type' : TapscriptType} {asm : List Item} (h : Shape L type asm)
    (h' : Shape L type' asm) : type = type' := by
  unfold Shape at h h'
  cases hc : isConditional type <;> cases hc' : isConditional type' <;>
    simp only [hc, hc', if_true, Bool.false_eq_true, if_false] at h h'
  · exact opens_disjoint h.2 h'.2 (hc.trans hc'.symm)
  · obtain ⟨condition, rest, inner, asm', hsplit, -⟩ := h'
    exact absurd (mem_of_splitVerify hsplit) h.1
  · obtain ⟨condition, rest, inner, asm', hsplit, -⟩ := h
    exact absurd (mem_of_splitVerify hsplit) h'.1
  · obtain ⟨condition, rest, inner, asm', hsplit, hinner, hasm, hopens⟩ := h
    obtain ⟨condition', rest', inner', asm'', hsplit', hinner', hasm', hopens'⟩ := h'
    rw [hsplit] at hsplit'
    cases hsplit'
    rw [hinner] at hinner'
    cases hinner'
    rw [hasm] at hasm'
    cases hasm'
    exact opens_disjoint hopens hopens' (hc.trans hc'.symm)

theorem opens_asm {pubkeys : List Bytes} (hne : pubkeys ≠ [])
    (h : ∀ key ∈ pubkeys, key.length = 32) (type : MultisigTapscript.MultisigType) :
    Opens ["CHECKSIG", "CHECKSIGVERIFY"] (MultisigTapscript.asm type pubkeys) := by
  cases pubkeys with
  | nil => exact absurd rfl hne
  | cons key keys =>
    cases type with
    | CHECKSIG =>
      cases keys with
      | nil => exact ⟨"CHECKSIG", by simp, rfl⟩
      | cons key' keys => exact ⟨"CHECKSIGVERIFY", by simp, rfl⟩
    | CHECKSIGADD =>
      refine ⟨"CHECKSIG", by simp, ?_⟩
      rw [MultisigTapscript.asm, MultisigTapscript.settle_trMs _ h]
      rfl

theorem MultisigTapscript.Encoded.shape {params : MultisigTapscript.Params}
    {t : ArkTapscript MultisigTapscript.Params} (h : MultisigTapscript.Encoded L params t) :
    ∃ asm, ScriptCoder.decode L.OP t.script = .ok asm ∧ Shape L .Multisig asm :=
  ⟨_, h.canonical.decode, verify_not_mem_asm _, opens_asm h.ne_nil h.valid _⟩

theorem multisig_opens {script : Bytes} {t : ArkTapscript MultisigTapscript.Params}
    (h : MultisigTapscript.decode L script = .ok t) :
    ∃ asm, ScriptCoder.decode L.OP script = .ok asm ∧ .op "VERIFY" ∉ asm ∧
      Opens ["CHECKSIG", "CHECKSIGVERIFY"] asm := by
  obtain ⟨henc, rfl⟩ := MultisigTapscript.decode_sound h
  exact (MultisigTapscript.encode_ok henc).shape

theorem csvMultisig_opens {script : Bytes} {t : ArkTapscript CSVMultisigTapscript.Params}
    (h : CSVMultisigTapscript.decode L script = .ok t) :
    ∃ asm, ScriptCoder.decode L.OP script = .ok asm ∧ .op "VERIFY" ∉ asm ∧
      Opens ["CHECKSEQUENCEVERIFY"] asm := by
  obtain ⟨henc, rfl⟩ := CSVMultisigTapscript.decode_sound h
  obtain ⟨n, m, hok⟩ := CSVMultisigTapscript.encode_ok henc
  exact ⟨_, hok.canonical.decode, hok.verify_not_mem, "CHECKSEQUENCEVERIFY", by simp, rfl⟩

theorem cltvMultisig_opens {script : Bytes} {t : ArkTapscript CLTVMultisigTapscript.Params}
    (h : CLTVMultisigTapscript.decode L script = .ok t) :
    ∃ asm, ScriptCoder.decode L.OP script = .ok asm ∧ .op "VERIFY" ∉ asm ∧
      Opens ["CHECKLOCKTIMEVERIFY"] asm := by
  obtain ⟨henc, rfl⟩ := CLTVMultisigTapscript.decode_sound h
  obtain ⟨m, hok⟩ := CLTVMultisigTapscript.encode_ok henc
  refine ⟨_, hok.canonical.decode, ?_, "CHECKLOCKTIMEVERIFY", by simp, rfl⟩
  rw [List.mem_append]
  exact not_or.mpr ⟨verify_not_mem_lockAsm _ (by decide), verify_not_mem_asm _⟩

namespace Tapscript

theorem decodeAs_shape {script : Bytes} {type : TapscriptType} {t : Tapscript}
    (h : decodeAs L script type = .ok t) :
    ∃ asm, ScriptCoder.decode L.OP script = .ok asm ∧ Shape L type asm := by
  cases type with
  | Multisig =>
    obtain ⟨u, hu, -⟩ := map_ok.mp h
    obtain ⟨asm, hasm, hshape⟩ := multisig_opens hu
    exact ⟨asm, hasm, hshape⟩
  | CSVMultisig =>
    obtain ⟨u, hu, -⟩ := map_ok.mp h
    obtain ⟨asm, hasm, hshape⟩ := csvMultisig_opens hu
    exact ⟨asm, hasm, hshape⟩
  | CLTVMultisig =>
    obtain ⟨u, hu, -⟩ := map_ok.mp h
    obtain ⟨asm, hasm, hshape⟩ := cltvMultisig_opens hu
    exact ⟨asm, hasm, hshape⟩
  | ConditionCSVMultisig =>
    obtain ⟨u, hu, -⟩ := map_ok.mp h
    obtain ⟨asm, condition, rest, inner, m, hasm, hsplit, hinner, hm, -⟩ :=
      ConditionCSVMultisigTapscript.decode_parts hu
    obtain ⟨asm', hasm', -, hopens⟩ := csvMultisig_opens hm
    exact ⟨asm, hasm, condition, rest, inner, asm', hsplit, hinner, hasm', hopens⟩
  | ConditionMultisig =>
    obtain ⟨u, hu, -⟩ := map_ok.mp h
    obtain ⟨asm, condition, rest, inner, m, hasm, hsplit, hinner, hm, -⟩ :=
      ConditionMultisigTapscript.decode_parts hu
    obtain ⟨asm', hasm', -, hopens⟩ := multisig_opens hm
    exact ⟨asm, hasm, condition, rest, inner, asm', hsplit, hinner, hasm', hopens⟩

theorem decodeAs_unique {script : Bytes} {type type' : TapscriptType} {t t' : Tapscript}
    (h : decodeAs L script type = .ok t) (h' : decodeAs L script type' = .ok t') :
    type = type' := by
  obtain ⟨asm, hasm, hshape⟩ := decodeAs_shape h
  obtain ⟨asm', hasm', hshape'⟩ := decodeAs_shape h'
  rw [hasm] at hasm'
  cases hasm'
  exact shape_unique hshape hshape'

variable {hex : HexCodec.Codec}

theorem decodeFirst_ok {script : Bytes} {types : List TapscriptType} {t : Tapscript} :
    decodeFirst L hex script types = .ok t ↔ ∃ type ∈ types, decodeAs L script type = .ok t := by
  induction types with
  | nil => simp [decodeFirst]
  | cons type types ih =>
    rw [decodeFirst]
    cases hd : decodeAs L script type with
    | error e =>
      simp only [List.exists_mem_cons_iff, hd, reduceCtorEq, false_or]
      exact ih
    | ok u =>
      constructor
      · intro h
        exact ⟨type, List.mem_cons_self, hd.trans h⟩
      · rintro ⟨type', -, h⟩
        obtain rfl := decodeAs_unique hd h
        exact hd.symm.trans h

theorem decodeFirst_error {script : Bytes} {types : List TapscriptType} {e : Message}
    (h : decodeFirst L hex script types = .error e) :
    decodeFirst L hex script types = decodeFirst L hex script [] := by
  induction types with
  | nil => rfl
  | cons type types ih =>
    rw [decodeFirst] at h ⊢
    cases hd : decodeAs L script type with
    | ok u =>
      rw [hd] at h
      cases h
    | error e' =>
      rw [hd] at h
      exact ih h

theorem decodeFirst_perm {script : Bytes} {types types' : List TapscriptType}
    (h : types.Perm types') : decodeFirst L hex script types = decodeFirst L hex script types' := by
  cases hd : decodeFirst L hex script types with
  | ok t =>
    obtain ⟨type, hmem, ht⟩ := decodeFirst_ok.mp hd
    exact (decodeFirst_ok.mpr ⟨type, h.mem_iff.mp hmem, ht⟩).symm
  | error e =>
    cases hd' : decodeFirst L hex script types' with
    | ok t =>
      obtain ⟨type, hmem, ht⟩ := decodeFirst_ok.mp hd'
      have h := (@decodeFirst_ok _ hex _ _ _).mpr ⟨type, h.mem_iff.mpr hmem, ht⟩
      rw [hd] at h
      cases h
    | error e' => rw [← hd, ← hd', decodeFirst_error hd, decodeFirst_error hd']

theorem mem_types (type : TapscriptType) : type ∈ types := by cases type <;> decide

end Tapscript

theorem decodeTapscript_ok {hex : HexCodec.Codec} {script : Bytes} {t : Tapscript} :
    decodeTapscript L hex script = .ok t ↔ ∃ type, Tapscript.decodeAs L script type = .ok t := by
  rw [decodeTapscript, Tapscript.decodeFirst_ok]
  exact ⟨fun ⟨type, _, h⟩ ↦ ⟨type, h⟩, fun ⟨type, h⟩ ↦ ⟨type, Tapscript.mem_types type, h⟩⟩

namespace TapscriptParams

def toMultisig : TapscriptParams → MultisigTapscript.Params
  | .multisig params => params
  | .csvMultisig params => params.toMultisig
  | .conditionCSVMultisig params => params.toMultisig
  | .conditionMultisig params => params.toMultisig
  | .cltvMultisig params => params.toMultisig

def type : TapscriptParams → TapscriptType
  | .multisig _ => .Multisig
  | .csvMultisig _ => .CSVMultisig
  | .conditionCSVMultisig _ => .ConditionCSVMultisig
  | .conditionMultisig _ => .ConditionMultisig
  | .cltvMultisig _ => .CLTVMultisig

/-- A condition that re-encodes to itself, a relative timelock that has a sequence, an
absolute one of 32 bits. -/
def WellFormed (L : Libraries) : TapscriptParams → Prop
  | .multisig _ => True
  | .csvMultisig params => ∃ n, timelockToSequence L params.timelock = .ok n
  | .conditionCSVMultisig params => (∃ items, Canonical L.OP params.conditionScript items) ∧
      ∃ n, timelockToSequence L params.timelock = .ok n
  | .conditionMultisig params => ∃ items, Canonical L.OP params.conditionScript items
  | .cltvMultisig params => 0 ≤ params.absoluteTimelock ∧ params.absoluteTimelock < 2 ^ 32

/-- Keys of 32 bytes, at least one, and a CHECKSIGADD script for them if that form is asked for. -/
structure ValidKeys (L : Libraries) (params : MultisigTapscript.Params) : Prop where
  ne_nil : params.pubkeys ≠ []
  length : ∀ key ∈ params.pubkeys, key.length = 32
  script : MultisigTapscript.resolved params = .CHECKSIGADD →
    ∃ script, L.p2trMs params.pubkeys.length params.pubkeys = .ok script

/-- The closure of these parameters, the form of the multisig filled in. -/
def closure (script : Bytes) : TapscriptParams → Tapscript
  | .multisig params => .multisig ⟨params.withType, script⟩
  | .csvMultisig params => .csvMultisig ⟨⟨params.toMultisig.withType, params.timelock⟩, script⟩
  | .conditionCSVMultisig params => .conditionCSVMultisig
      ⟨⟨⟨params.toMultisig.withType, params.timelock⟩, params.conditionScript⟩, script⟩
  | .conditionMultisig params => .conditionMultisig
      ⟨⟨params.toMultisig.withType, params.conditionScript⟩, script⟩
  | .cltvMultisig params => .cltvMultisig
      ⟨⟨params.toMultisig.withType, params.absoluteTimelock⟩, script⟩

end TapscriptParams

namespace Tapscript

theorem decodeAs_encode {params : TapscriptParams} {t : Tapscript} (h : encode L params = .ok t)
    (hw : params.WellFormed L) (hd : MultisigTapscript.Decodable params.toMultisig) :
    decodeAs L t.script params.type = .ok t := by
  cases params with
  | multisig params =>
    obtain ⟨u, hu, rfl⟩ := map_ok.mp h
    exact map_ok.mpr ⟨u, MultisigTapscript.decode_encode hu hd, rfl⟩
  | csvMultisig params =>
    obtain ⟨u, hu, rfl⟩ := map_ok.mp h
    exact map_ok.mpr ⟨u, CSVMultisigTapscript.decode_encode hu hd, rfl⟩
  | conditionCSVMultisig params =>
    obtain ⟨u, hu, rfl⟩ := map_ok.mp h
    obtain ⟨⟨items, hc⟩, -⟩ := hw
    exact map_ok.mpr ⟨u, ConditionCSVMultisigTapscript.decode_encode hu hc hd, rfl⟩
  | conditionMultisig params =>
    obtain ⟨u, hu, rfl⟩ := map_ok.mp h
    obtain ⟨items, hc⟩ := hw
    exact map_ok.mpr ⟨u, ConditionMultisigTapscript.decode_encode hu hc hd, rfl⟩
  | cltvMultisig params =>
    obtain ⟨u, hu, rfl⟩ := map_ok.mp h
    exact map_ok.mpr ⟨u, CLTVMultisigTapscript.decode_encode hu hw hd, rfl⟩

theorem decodeAs_not_ok {params : TapscriptParams} {t : Tapscript} (h : encode L params = .ok t)
    (hw : params.WellFormed L) (hd : ¬MultisigTapscript.Decodable params.toMultisig)
    (u : Tapscript) : decodeAs L t.script params.type ≠ .ok u := by
  intro hu
  cases params with
  | multisig params =>
    obtain ⟨v, hv, rfl⟩ := map_ok.mp h
    obtain ⟨w, hw', -⟩ := map_ok.mp hu
    exact MultisigTapscript.decode_not_ok hv hd w hw'
  | csvMultisig params =>
    obtain ⟨v, hv, rfl⟩ := map_ok.mp h
    obtain ⟨w, hw', -⟩ := map_ok.mp hu
    exact CSVMultisigTapscript.decode_not_ok hv hd w hw'
  | conditionCSVMultisig params =>
    obtain ⟨v, hv, rfl⟩ := map_ok.mp h
    obtain ⟨w, hw', -⟩ := map_ok.mp hu
    obtain ⟨⟨items, hc⟩, -⟩ := hw
    exact ConditionCSVMultisigTapscript.decode_not_ok hv hc hd w hw'
  | conditionMultisig params =>
    obtain ⟨v, hv, rfl⟩ := map_ok.mp h
    obtain ⟨w, hw', -⟩ := map_ok.mp hu
    obtain ⟨items, hc⟩ := hw
    exact ConditionMultisigTapscript.decode_not_ok hv hc hd w hw'
  | cltvMultisig params =>
    obtain ⟨v, hv, rfl⟩ := map_ok.mp h
    obtain ⟨w, hw', -⟩ := map_ok.mp hu
    exact CLTVMultisigTapscript.decode_not_ok hv hd w hw'

theorem type_of_decodeAs {params : TapscriptParams} {script script' : Bytes}
    {type : TapscriptType} (h : decodeAs L script type = .ok (params.closure script')) :
    type = params.type := by
  cases params <;> cases type <;> obtain ⟨v, -, hv⟩ := map_ok.mp h <;> first | rfl | cases hv

theorem encode_closure {params : TapscriptParams} {t : Tapscript} (h : encode L params = .ok t) :
    t = params.closure t.script := by
  cases params with
  | multisig params =>
    obtain ⟨u, hu, rfl⟩ := map_ok.mp h
    have hresult := (MultisigTapscript.encode_ok hu).result
    obtain ⟨uparams, uscript⟩ := u
    simp only at hresult
    rw [hresult]
    rfl
  | csvMultisig params =>
    obtain ⟨u, hu, rfl⟩ := map_ok.mp h
    obtain ⟨n, m, hok⟩ := CSVMultisigTapscript.encode_ok hu
    have hresult := hok.result
    rw [(MultisigTapscript.encode_ok hok.multisig).result] at hresult
    obtain ⟨uparams, uscript⟩ := u
    simp only at hresult
    rw [hresult]
    rfl
  | conditionCSVMultisig params =>
    obtain ⟨u, hu, rfl⟩ := map_ok.mp h
    obtain ⟨verify, v, -, hv, rfl⟩ := ConditionCSVMultisigTapscript.encode_ok hu
    obtain ⟨n, m, hok⟩ := CSVMultisigTapscript.encode_ok hv
    simp only [hok.result, (MultisigTapscript.encode_ok hok.multisig).result]
    rfl
  | conditionMultisig params =>
    obtain ⟨u, hu, rfl⟩ := map_ok.mp h
    obtain ⟨verify, m, -, hm, rfl⟩ := ConditionMultisigTapscript.encode_ok hu
    simp only [(MultisigTapscript.encode_ok hm).result]
    rfl
  | cltvMultisig params =>
    obtain ⟨u, hu, rfl⟩ := map_ok.mp h
    obtain ⟨m, hok⟩ := CLTVMultisigTapscript.encode_ok hu
    have hresult := hok.result
    rw [(MultisigTapscript.encode_ok hok.multisig).result] at hresult
    obtain ⟨uparams, uscript⟩ := u
    simp only at hresult
    rw [hresult]
    rfl

end Tapscript

theorem short_checksigAsm {pubkeys : List Bytes} (h : ∀ key ∈ pubkeys, key.length = 32) :
    ∀ x ∈ MultisigTapscript.checksigAsm pubkeys, Short x := by
  induction pubkeys with
  | nil => simp [MultisigTapscript.checksigAsm]
  | cons key keys ih =>
    obtain ⟨hkey, hkeys⟩ := List.forall_mem_cons.mp h
    have hshort : Short (.data key) := by
      rw [Short]
      omega
    cases keys with
    | nil =>
      simp only [MultisigTapscript.checksigAsm, List.forall_mem_cons]
      exact ⟨hshort, trivial, by simp⟩
    | cons key' keys =>
      have ih := ih hkeys
      simp only [MultisigTapscript.checksigAsm, List.forall_mem_cons] at ih ⊢
      exact ⟨hshort, trivial, ih⟩

theorem short_numberItem {value : ℤ} (h : value.natAbs < 2 ^ 32) : Short (numberItem value) := by
  have hlen : (ScriptNumber.encode value).length ≤ 5 :=
    ScriptNumber.length_encode_le (k := 4) (by simpa using h)
  unfold numberItem
  split
  · rename_i b hb
    have hbyte := b.toNat_lt
    have hone : (ScriptNumber.encode (b.toNat : ℤ)).length ≤ 2 :=
      ScriptNumber.length_encode_le (k := 1) (by simpa using hbyte)
    simp only [Short]
    omega
  · simp only [Short]
    omega

theorem lockAsm_encodes {p : String × UInt8} (hp : p ∈ standardCodes) {value : ℤ}
    (h : value.natAbs < 2 ^ 32) :
    ∃ head, ScriptCoder.encode L.OP [numberItem value, .op p.1, .op "DROP"] = .ok head := by
  refine encode_succeeds ?_
  simp only [List.forall_mem_cons]
  exact ⟨⟨named_numberItem value, short_numberItem h⟩, ⟨named_standard hp, trivial⟩,
    ⟨named_op (p := ("DROP", 0x75)) (by decide) rfl, trivial⟩, by simp⟩

theorem TapscriptParams.ValidKeys.encodes {params : MultisigTapscript.Params}
    (h : TapscriptParams.ValidKeys L params) : ∃ t, MultisigTapscript.encode L params = .ok t := by
  have hne : ¬params.pubkeys.length = 0 := mt List.length_eq_zero_iff.mp h.ne_nil
  have hvalid := checkPubkeys_ok.mpr h.length
  by_cases htype : MultisigTapscript.resolved params = .CHECKSIGADD
  · obtain ⟨script, hscript⟩ := h.script htype
    have hif : params.withType.type = some .CHECKSIGADD := congrArg some htype
    refine ⟨⟨params.withType, script⟩, ?_⟩
    refine then_ok.mpr ⟨rejectIf_ok.mpr hne, then_ok.mpr ⟨hvalid, ?_⟩⟩
    dsimp only
    rw [if_pos hif]
    exact bind_ok.mpr ⟨script, hscript, rfl⟩
  · obtain ⟨script, hscript⟩ := @encode_succeeds L.OP _ fun x hx ↦
      ⟨MultisigTapscript.named_checksigAsm params.pubkeys x hx, short_checksigAsm h.length x hx⟩
    have hif : ¬params.withType.type = some .CHECKSIGADD := fun he ↦ htype (Option.some.inj he)
    refine ⟨⟨params.withType, script⟩, ?_⟩
    refine then_ok.mpr ⟨rejectIf_ok.mpr hne, then_ok.mpr ⟨hvalid, ?_⟩⟩
    dsimp only
    rw [if_neg hif]
    exact bind_ok.mpr ⟨script, hscript, rfl⟩

theorem csvMultisig_encodes {params : CSVMultisigTapscript.Params}
    (hkeys : TapscriptParams.ValidKeys L params.toMultisig) {n : ℕ}
    (hn : timelockToSequence L params.timelock = .ok n) :
    ∃ t, CSVMultisigTapscript.encode L params = .ok t := by
  obtain ⟨m, hm⟩ := hkeys.encodes
  have hlt := L.bip68_lt hn
  obtain ⟨head, hhead⟩ := @lockAsm_encodes L ("CHECKSEQUENCEVERIFY", 0xb2)
    (by decide) n (by simpa using hlt)
  refine ⟨⟨⟨m.params, params.timelock⟩, head ++ m.script⟩, ?_⟩
  refine then_ok.mpr ⟨checkPubkeys_ok.mpr hkeys.length, bind_ok.mpr ⟨n, hn, ?_⟩⟩
  exact bind_ok.mpr ⟨m, hm, bind_ok.mpr ⟨head, hhead, rfl⟩⟩

theorem Tapscript.encodes {params : TapscriptParams} (hw : params.WellFormed L)
    (hkeys : TapscriptParams.ValidKeys L params.toMultisig) :
    ∃ t, Tapscript.encode L params = .ok t := by
  have hverify : ∃ verify, ScriptCoder.encode L.OP [.op "VERIFY"] = .ok verify := by
    refine encode_succeeds ?_
    simp only [List.forall_mem_cons]
    exact ⟨⟨named_op (p := ("VERIFY", 0x69)) (by decide) rfl, trivial⟩, by simp⟩
  obtain ⟨verify, hverify⟩ := hverify
  cases params with
  | multisig params =>
    obtain ⟨m, hm⟩ := hkeys.encodes
    exact ⟨_, map_ok.mpr ⟨m, hm, rfl⟩⟩
  | csvMultisig params =>
    obtain ⟨n, hn⟩ := hw
    obtain ⟨m, hm⟩ := csvMultisig_encodes hkeys hn
    exact ⟨_, map_ok.mpr ⟨m, hm, rfl⟩⟩
  | conditionCSVMultisig params =>
    obtain ⟨-, n, hn⟩ := hw
    obtain ⟨m, hm⟩ := csvMultisig_encodes hkeys hn
    exact ⟨_, map_ok.mpr ⟨_, bind_ok.mpr ⟨verify, hverify, bind_ok.mpr ⟨m, hm, rfl⟩⟩, rfl⟩⟩
  | conditionMultisig params =>
    obtain ⟨m, hm⟩ := hkeys.encodes
    exact ⟨_, map_ok.mpr ⟨_, bind_ok.mpr ⟨verify, hverify, bind_ok.mpr ⟨m, hm, rfl⟩⟩, rfl⟩⟩
  | cltvMultisig params =>
    obtain ⟨m, hm⟩ := hkeys.encodes
    obtain ⟨h0, hlt⟩ := hw
    obtain ⟨head, hhead⟩ := @lockAsm_encodes L ("CHECKLOCKTIMEVERIFY", 0xb1)
      (by decide) params.absoluteTimelock (by omega)
    exact ⟨_, map_ok.mpr ⟨_, bind_ok.mpr ⟨head, hhead, bind_ok.mpr ⟨m, hm, rfl⟩⟩, rfl⟩⟩

/-- An encoded closure is decoded as itself exactly when it is not a CHECKSIGADD multisig of
more than sixteen keys; and whatever the script, at most one decoder accepts it. -/
theorem decodeTapscript_encode_iff (hex : HexCodec.Codec) {params : TapscriptParams}
    (hw : params.WellFormed L) (hkeys : TapscriptParams.ValidKeys L params.toMultisig) :
    ((∃ script, Tapscript.encode L params = .ok (params.closure script) ∧
        decodeTapscript L hex script = .ok (params.closure script)) ↔
      MultisigTapscript.resolved params.toMultisig = .CHECKSIG ∨
        params.toMultisig.pubkeys.length ≤ 16) ∧
      (∀ script type type' u u', Tapscript.decodeAs L script type = .ok u →
        Tapscript.decodeAs L script type' = .ok u' → type = type') ∧
      ∀ script types, types.Perm Tapscript.types →
        Tapscript.decodeFirst L hex script types = decodeTapscript L hex script := by
  refine ⟨⟨?_, fun hd ↦ ?_⟩, fun _ _ _ _ _ ↦ Tapscript.decodeAs_unique,
    fun _ _ ↦ Tapscript.decodeFirst_perm⟩
  · rintro ⟨script, henc, hdecode⟩
    obtain ⟨type, htype⟩ := decodeTapscript_ok.mp hdecode
    obtain rfl := Tapscript.type_of_decodeAs htype
    by_contra hd
    have hscript : (params.closure script).script = script := by cases params <;> rfl
    have hnot := Tapscript.decodeAs_not_ok henc hw hd (params.closure script)
    rw [hscript] at hnot
    exact hnot htype
  · obtain ⟨t, ht⟩ := Tapscript.encodes hw hkeys
    have hclosure := Tapscript.encode_closure ht
    refine ⟨t.script, by rw [← hclosure, ht], ?_⟩
    rw [← hclosure]
    exact decodeTapscript_ok.mpr ⟨params.type, Tapscript.decodeAs_encode ht hw hd⟩

/-- BIP 68: sixteen bits of blocks, or of units of 512 seconds under the type flag. -/
def bip68Encode (timelock : RelativeTimelock) : Except Message ℕ :=
  match timelock.type with
  | .blocks =>
    if 0 ≤ timelock.value ∧ timelock.value ≤ 0xffff then .ok timelock.value.toNat
    else .error (message "Expected Number blocks <= 65535")
  | .seconds =>
    if 0 ≤ timelock.value ∧ timelock.value ≤ 0xffff * 512 ∧ timelock.value % 512 = 0 then
      .ok (2 ^ 22 + timelock.value.toNat / 512)
    else .error (message "Expected Number seconds <= 33553920")

def bip68Decode (sequence : ℤ) : Option RelativeTimelock :=
  let n := sequence.toNat
  if n / 2 ^ 31 % 2 = 1 then none
  else if n / 2 ^ 22 % 2 = 1 then some ⟨(n % 2 ^ 16 * 512 : ℕ), .seconds⟩
  else some ⟨(n % 2 ^ 16 : ℕ), .blocks⟩

theorem bip68Encode_lt {timelock : RelativeTimelock} {n : ℕ}
    (h : bip68Encode timelock = .ok n) : n < 2 ^ 32 := by
  obtain ⟨value, type⟩ := timelock
  cases type <;> simp only [bip68Encode] at h <;> split at h <;> cases h <;> omega

theorem bip68Decode_bip68Encode {timelock : RelativeTimelock} {n : ℕ}
    (h : bip68Encode timelock = .ok n) : bip68Decode n = some timelock := by
  obtain ⟨value, type⟩ := timelock
  cases type with
  | blocks =>
    simp only [bip68Encode] at h
    split at h
    · cases h
      simp only [bip68Decode, Int.toNat_natCast]
      rw [if_neg (by omega), if_neg (by omega)]
      simp only [Option.some.injEq, RelativeTimelock.mk.injEq, and_true]
      omega
    · cases h
  | seconds =>
    simp only [bip68Encode] at h
    split at h
    · cases h
      simp only [bip68Decode, Int.toNat_natCast]
      rw [if_neg (by omega), if_pos (by omega)]
      simp only [Option.some.injEq, RelativeTimelock.mk.injEq, and_true]
      omega
    · cases h

def standardLibraries : Libraries where
  OP := standardOps
  p2trMs m keys := ScriptCoder.encode standardOps (trMs m keys)
  p2trMs_ok h := h
  bip68Encode := bip68Encode
  bip68Decode := bip68Decode
  bip68_lt := bip68Encode_lt
  bip68_decode_encode := bip68Decode_bip68Encode

/-- A day of blocks behind `DUP VERIFY`, for two keys. -/
def dayLock : TapscriptParams :=
  .conditionCSVMultisig ⟨⟨⟨[List.replicate 32 1, List.replicate 32 2], none⟩, ⟨144, .blocks⟩⟩,
    [0x76, 0x69]⟩

theorem dayLock_wellFormed : dayLock.WellFormed standardLibraries := by
  refine ⟨⟨[.op "DUP", .op "VERIFY"], @canonical_of_encode _ [.op "DUP", .op "VERIFY"] _ ?_ ?_⟩,
    144, rfl⟩
  · simp only [List.forall_mem_cons]
    exact ⟨named_standard (p := ("DUP", 0x76)) (by decide),
      named_standard (p := ("VERIFY", 0x69)) (by decide), by simp⟩
  · decide

theorem decodeTapscript_dayLock :
    ∃ script, Tapscript.encode standardLibraries dayLock = .ok (dayLock.closure script) ∧
      decodeTapscript standardLibraries HexCodec.base16 script = .ok (dayLock.closure script) := by
  refine (decodeTapscript_encode_iff HexCodec.base16 dayLock_wellFormed ⟨?_, ?_, ?_⟩).1.mpr (.inl rfl)
  · exact List.cons_ne_nil _ _
  · decide
  · intro h
    cases h

def seventeenKeys : TapscriptParams :=
  .multisig ⟨(List.range 17).map fun i ↦ List.replicate 32 (UInt8.ofNat i), some .CHECKSIGADD⟩

theorem decodeTapscript_seventeenKeys :
    ∃ t, Tapscript.encode standardLibraries seventeenKeys = .ok t ∧
      ∀ u, decodeTapscript standardLibraries HexCodec.base16 t.script ≠ .ok u := by
  obtain ⟨t, ht⟩ : ∃ t, Tapscript.encode standardLibraries seventeenKeys = .ok t := ⟨_, rfl⟩
  refine ⟨t, ht, fun u hu ↦ ?_⟩
  obtain ⟨m, hm, rfl⟩ := map_ok.mp ht
  obtain ⟨type, htype⟩ := decodeTapscript_ok.mp hu
  obtain ⟨asm, hasm, hshape⟩ := Tapscript.decodeAs_shape htype
  obtain ⟨asm', hasm', hmultisig⟩ := (MultisigTapscript.encode_ok hm).shape
  obtain rfl : asm = asm' := by
    have h := hasm.symm.trans hasm'
    cases h
    rfl
  obtain rfl := shape_unique hshape hmultisig
  have hnot : ¬MultisigTapscript.Decodable seventeenKeys.toMultisig := by
    unfold MultisigTapscript.Decodable
    decide
  exact Tapscript.decodeAs_not_ok ht trivial hnot u htype

end ArkadeSdk
