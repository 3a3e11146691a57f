import ArkadeSdk.Script.TapscriptDecoding

namespace ArkadeSdk

open WireFormat JsNumber BtcScript ScriptCoder

variable {L : Libraries}

theorem isOp_settle_numberItem (z : ℤ) : (settle (numberItem z)).isOp = false := by
  unfold numberItem
  split
  · simp only [settle]
    split <;> rfl
  · simp only [settle]
    split <;> rfl

theorem settle_numberItem_ne_op (z : ℤ) (name : String) : settle (numberItem z) ≠ .op name := by
  intro h
  have hop := isOp_settle_numberItem z
  rw [h] at hop
  cases hop

theorem named_numberItem (z : ℤ) : Named L.OP (numberItem z) := by
  unfold numberItem
  split
  · exact named_num _
  · exact named_data _

theorem encode_single {n : ℕ} {b : UInt8} (h : ScriptNumber.encode n = [b]) : b.toNat = n := by
  have hvalue := ScriptNumber.value_encode n
  rw [h] at hvalue
  by_cases htop : 128 ≤ b.toNat
  · have hn : n = 0 := by
      simp [ScriptNumber.value, ScriptNumber.parts, htop] at hvalue
      omega
    subst hn
    simp at h
  · simp [ScriptNumber.value, ScriptNumber.parts, htop] at hvalue
    omega

theorem readNumber_numberItem {n : ℕ} (h : n < 2 ^ 32) :
    readNumber (some (settle (numberItem n))) = .ok (n : ℤ) := by
  have hlen : (ScriptNumber.encode n).length ≤ 6 :=
    (ScriptNumber.length_encode_le (k := 4) (by simpa using h)).trans (by decide)
  have hdecode := ScriptNumber.decode_encode hlen
  cases henc : ScriptNumber.encode (n : ℤ) with
  | nil =>
    have hn : (n : ℤ) = 0 := by
      by_contra hne
      exact ScriptNumber.encode_ne_nil hne henc
    simp [numberItem, settle, readNumber, hn]
  | cons b bs =>
    cases bs with
    | nil =>
      have hb := encode_single henc
      rw [henc] at hdecode
      simp only [numberItem, henc, hb, settle]
      split
      · rfl
      · exact hdecode
    | cons b' bs =>
      simp only [numberItem, henc]
      rw [settle_data (by simp), ← henc]
      exact hdecode

def lockAsm (value : ℤ) (lock : String) : List Item :=
  [settle (numberItem value), .op lock, .op "DROP"]

theorem canonical_lockAsm {p : String × UInt8} (hp : p ∈ standardCodes) {value : ℤ}
    {head : Bytes} (h : ScriptCoder.encode L.OP [numberItem value, .op p.1, .op "DROP"] = .ok head) :
    Canonical L.OP head (lockAsm value p.1) := by
  refine canonical_of_encode ?_ h
  simp only [List.forall_mem_cons]
  exact ⟨named_numberItem value, named_standard hp, named_op (p := ("DROP", 0x75)) (by decide) rfl,
    by simp⟩

namespace CSVMultisigTapscript

structure Encoded (L : Libraries) (params : Params) (t : ArkTapscript Params) (n : ℕ)
    (m : ArkTapscript MultisigTapscript.Params) : Prop where
  sequence : L.bip68Encode params.timelock = .ok n
  multisig : MultisigTapscript.encode L params.toMultisig = .ok m
  result : t.params = ⟨m.params, params.timelock⟩
  canonical : Canonical L.OP t.script (lockAsm n "CHECKSEQUENCEVERIFY" ++
    MultisigTapscript.asm (MultisigTapscript.resolved params.toMultisig) params.pubkeys)

theorem encode_ok {params : Params} {t : ArkTapscript Params} (h : encode L params = .ok t) :
    ∃ n m, Encoded L params t n m := by
  obtain ⟨-, h⟩ := then_ok.mp h
  obtain ⟨n, hn, h⟩ := bind_ok.mp h
  dsimp only at h
  obtain ⟨m, hm, h⟩ := bind_ok.mp h
  obtain ⟨head, hhead, h⟩ := bind_ok.mp h
  cases h
  refine ⟨n, m, hn, hm, rfl, ?_⟩
  have hlock := canonical_lockAsm (p := ("CHECKSEQUENCEVERIFY", 0xb2)) (by decide) hhead
  exact hlock.append (MultisigTapscript.encode_ok hm).canonical

/-- Encoding looks at the keys and the form through `MultisigTapscript.encode` only. -/
theorem encode_result {params : Params} {t : ArkTapscript Params} (h : encode L params = .ok t) :
    encode L t.params = .ok t := by
  obtain ⟨n, m, hok⟩ := encode_ok h
  have hm := MultisigTapscript.encode_ok hok.multisig
  obtain ⟨hkeys, h⟩ := then_ok.mp h
  rw [hok.result, hm.result]
  refine then_ok.mpr ⟨hkeys, ?_⟩
  rw [MultisigTapscript.encode_withType]
  exact h

theorem decode_sound {script : Bytes} {t : ArkTapscript Params} (h : decode L script = .ok t) :
    encode L t.params = .ok t ∧ t.script = script := by
  obtain ⟨-, h⟩ := then_ok.mp h
  obtain ⟨-, h⟩ := then_ok.mp h
  obtain ⟨asm, -, h⟩ := bind_ok.mp h
  obtain ⟨multisigScript, -, h⟩ := bind_ok.mp h
  obtain ⟨multisig, hmultisig, h⟩ := bind_ok.mp h
  obtain ⟨sequenceNum, -, h⟩ := bind_ok.mp h
  obtain ⟨timelock, -, h⟩ := bind_ok.mp h
  obtain ⟨r, hr, h⟩ := bind_ok.mp h
  obtain ⟨hs, h⟩ := then_ok.mp h
  cases h
  have hs : r.script = script := not_not.mp (rejectIf_ok.mp hs)
  have hdecode := (MultisigTapscript.decode_sound (rethrow_ok.mp hmultisig)).1
  obtain ⟨n, m, hok⟩ := encode_ok hr
  obtain rfl : m = multisig := by
    have h := hok.multisig.symm.trans hdecode
    cases h
    rfl
  have hresult := hok.result
  obtain ⟨rparams, rscript⟩ := r
  simp only at hs hresult
  subst hs hresult
  exact ⟨hr, rfl⟩

theorem isScriptValid_ok {script : Bytes} {x : Item} {rest : List Item} (hx : x.isOp = false)
    (h : ScriptCoder.decode L.OP script = .ok (x :: .op "CHECKSEQUENCEVERIFY" :: .op "DROP" :: rest)) :
    isScriptValid L script = .ok () := by
  refine bind_ok.mpr ⟨_, h, then_ok.mpr ⟨rejectIf_ok.mpr (by simp [hx]), ?_⟩⟩
  exact rejectIf_ok.mpr (by simp)

theorem Encoded.parts {params : Params} {t : ArkTapscript Params} {n : ℕ}
    {m : ArkTapscript MultisigTapscript.Params} (h : Encoded L params t n m) :
    t.script ≠ [] ∧ isScriptValid L t.script = .ok () ∧
      ∃ asm, ScriptCoder.decode L.OP t.script = .ok asm ∧ readNumber asm.head? = .ok (n : ℤ) ∧
        ScriptCoder.encode L.OP (asm.drop 3) = .ok m.script := by
  refine ⟨h.canonical.ne_nil (by simp [lockAsm]), ?_, _, h.canonical.decode, ?_, ?_⟩
  · exact isScriptValid_ok (isOp_settle_numberItem n) h.canonical.decode
  · exact readNumber_numberItem (L.bip68_lt h.sequence)
  · exact (MultisigTapscript.encode_ok h.multisig).canonical.encode

theorem decode_encode {params : Params} {t : ArkTapscript Params} (h : encode L params = .ok t)
    (hd : MultisigTapscript.Decodable params.toMultisig) : decode L t.script = .ok t := by
  obtain ⟨n, m, hok⟩ := encode_ok h
  obtain ⟨hne, hvalid, asm, hasm, hnumber, htail⟩ := hok.parts
  have hm := MultisigTapscript.decode_encode hok.multisig hd
  have htimelock : sequenceToTimelock L n = .ok params.timelock := by
    rw [sequenceToTimelock, L.bip68_decode_encode hok.sequence]
  have hresult := encode_result h
  rw [hok.result] at hresult
  refine then_ok.mpr ⟨rejectIf_ok.mpr (mt List.length_eq_zero_iff.mp hne), then_ok.mpr ⟨hvalid, ?_⟩⟩
  refine bind_ok.mpr ⟨asm, hasm, bind_ok.mpr ⟨m.script, htail, bind_ok.mpr ⟨m, ?_, ?_⟩⟩⟩
  · exact rethrow_ok.mpr hm
  · refine bind_ok.mpr ⟨n, hnumber, bind_ok.mpr ⟨params.timelock, htimelock, ?_⟩⟩
    refine bind_ok.mpr ⟨t, hresult, then_ok.mpr ⟨rejectIf_ok.mpr (not_not.mpr rfl), ?_⟩⟩
    rw [← hok.result]
    rfl

theorem decode_not_ok {params : Params} {t : ArkTapscript Params} (h : encode L params = .ok t)
    (hd : ¬MultisigTapscript.Decodable params.toMultisig) (u : ArkTapscript Params) :
    decode L t.script ≠ .ok u := by
  obtain ⟨n, m, hok⟩ := encode_ok h
  obtain ⟨-, -, asm, hasm, -, htail⟩ := hok.parts
  intro hu
  obtain ⟨-, hu⟩ := then_ok.mp hu
  obtain ⟨-, hu⟩ := then_ok.mp hu
  obtain ⟨asm', hasm', hu⟩ := bind_ok.mp hu
  obtain ⟨multisigScript, hscript, hu⟩ := bind_ok.mp hu
  obtain ⟨multisig, hmultisig, -⟩ := bind_ok.mp hu
  rw [hasm] at hasm'
  cases hasm'
  rw [htail] at hscript
  cases hscript
  exact MultisigTapscript.decode_not_ok hok.multisig hd multisig (rethrow_ok.mp hmultisig)

end CSVMultisigTapscript

namespace CLTVMultisigTapscript

structure Encoded (L : Libraries) (params : Params) (t : ArkTapscript Params)
    (m : ArkTapscript MultisigTapscript.Params) : Prop where
  multisig : MultisigTapscript.encode L params.toMultisig = .ok m
  result : t.params = ⟨m.params, params.absoluteTimelock⟩
  canonical : Canonical L.OP t.script (lockAsm params.absoluteTimelock "CHECKLOCKTIMEVERIFY" ++
    MultisigTapscript.asm (MultisigTapscript.resolved params.toMultisig) params.pubkeys)

theorem encode_ok {params : Params} {t : ArkTapscript Params} (h : encode L params = .ok t) :
    ∃ m, Encoded L params t m := by
  unfold encode at h
  dsimp only at h
  obtain ⟨head, hhead, h⟩ := bind_ok.mp h
  obtain ⟨m, hm, h⟩ := bind_ok.mp h
  cases h
  refine ⟨m, hm, rfl, ?_⟩
  have hlock := canonical_lockAsm (p := ("CHECKLOCKTIMEVERIFY", 0xb1)) (by decide) hhead
  exact hlock.append (MultisigTapscript.encode_ok hm).canonical

theorem encode_result {params : Params} {t : ArkTapscript Params} (h : encode L params = .ok t) :
    encode L t.params = .ok t := by
  obtain ⟨m, hok⟩ := encode_ok h
  have hm := MultisigTapscript.encode_ok hok.multisig
  rw [hok.result, hm.result]
  unfold encode at h ⊢
  rw [MultisigTapscript.encode_withType]
  exact h

theorem decode_sound {script : Bytes} {t : ArkTapscript Params} (h : decode L script = .ok t) :
    encode L t.params = .ok t ∧ t.script = script := by
  obtain ⟨-, h⟩ := then_ok.mp h
  obtain ⟨-, h⟩ := then_ok.mp h
  obtain ⟨asm, -, h⟩ := bind_ok.mp h
  obtain ⟨multisigScript, -, h⟩ := bind_ok.mp h
  obtain ⟨multisig, hmultisig, h⟩ := bind_ok.mp h
  obtain ⟨absoluteTimelock, -, h⟩ := bind_ok.mp h
  obtain ⟨r, hr, h⟩ := bind_ok.mp h
  obtain ⟨hs, h⟩ := then_ok.mp h
  cases h
  have hs : r.script = script := not_not.mp (rejectIf_ok.mp hs)
  have hdecode := (MultisigTapscript.decode_sound (rethrow_ok.mp hmultisig)).1
  obtain ⟨m, hok⟩ := encode_ok hr
  obtain rfl : m = multisig := by
    have h := hok.multisig.symm.trans hdecode
    cases h
    rfl
  have hresult := hok.result
  obtain ⟨rparams, rscript⟩ := r
  simp only at hs hresult
  subst hs hresult
  exact ⟨hr, rfl⟩

theorem isScriptValid_ok {script : Bytes} {x : Item} {rest : List Item} (hx : x.isOp = false)
    (h : ScriptCoder.decode L.OP script = .ok (x :: .op "CHECKLOCKTIMEVERIFY" :: .op "DROP" :: rest)) :
    isScriptValid L script = .ok () := by
  refine bind_ok.mpr ⟨_, h, then_ok.mpr ⟨rejectIf_ok.mpr (by simp [hx]), ?_⟩⟩
  exact rejectIf_ok.mpr (by simp)

theorem Encoded.parts {params : Params} {t : ArkTapscript Params}
    {m : ArkTapscript MultisigTapscript.Params} (h : Encoded L params t m) :
    t.script ≠ [] ∧ isScriptValid L t.script = .ok () ∧
      ∃ asm, ScriptCoder.decode L.OP t.script = .ok asm ∧
        asm.head? = some (settle (numberItem params.absoluteTimelock)) ∧
        ScriptCoder.encode L.OP (asm.drop 3) = .ok m.script := by
  refine ⟨h.canonical.ne_nil (by simp [lockAsm]), ?_, _, h.canonical.decode, rfl, ?_⟩
  · exact isScriptValid_ok (isOp_settle_numberItem _) h.canonical.decode
  · exact (MultisigTapscript.encode_ok h.multisig).canonical.encode

theorem decode_encode {params : Params} {t : ArkTapscript Params} (h : encode L params = .ok t)
    (hlock : 0 ≤ params.absoluteTimelock ∧ params.absoluteTimelock < 2 ^ 32)
    (hd : MultisigTapscript.Decodable params.toMultisig) : decode L t.script = .ok t := by
  obtain ⟨m, hok⟩ := encode_ok h
  obtain ⟨hne, hvalid, asm, hasm, hhead, htail⟩ := hok.parts
  have hm := MultisigTapscript.decode_encode hok.multisig hd
  have hnumber : readNumber asm.head? = .ok params.absoluteTimelock := by
    obtain ⟨n, hn⟩ := Int.eq_ofNat_of_zero_le hlock.1
    rw [hhead, hn]
    exact readNumber_numberItem (by omega)
  have hresult := encode_result h
  rw [hok.result] at hresult
  refine then_ok.mpr ⟨rejectIf_ok.mpr (mt List.length_eq_zero_iff.mp hne), then_ok.mpr ⟨hvalid, ?_⟩⟩
  refine bind_ok.mpr ⟨asm, hasm, bind_ok.mpr ⟨m.script, htail, bind_ok.mpr ⟨m, ?_, ?_⟩⟩⟩
  · exact rethrow_ok.mpr hm
  · refine bind_ok.mpr ⟨params.absoluteTimelock, hnumber, bind_ok.mpr ⟨t, hresult, ?_⟩⟩
    refine then_ok.mpr ⟨rejectIf_ok.mpr (not_not.mpr rfl), ?_⟩
    rw [← hok.result]
    rfl

theorem decode_not_ok {params : Params} {t : ArkTapscript Params} (h : encode L params = .ok t)
    (hd : ¬MultisigTapscript.Decodable params.toMultisig) (u : ArkTapscript Params) :
    decode L t.script ≠ .ok u := by
  obtain ⟨m, hok⟩ := encode_ok h
  obtain ⟨-, -, asm, hasm, -, htail⟩ := hok.parts
  intro hu
  obtain ⟨-, hu⟩ := then_ok.mp hu
  obtain ⟨-, hu⟩ := then_ok.mp hu
  obtain ⟨asm', hasm', hu⟩ := bind_ok.mp hu
  obtain ⟨multisigScript, hscript, hu⟩ := bind_ok.mp hu
  obtain ⟨multisig, hmultisig, -⟩ := bind_ok.mp hu
  rw [hasm] at hasm'
  cases hasm'
  rw [htail] at hscript
  cases hscript
  exact MultisigTapscript.decode_not_ok hok.multisig hd multisig (rethrow_ok.mp hmultisig)

end CLTVMultisigTapscript

theorem splitVerify_eq_none {xs : List Item} (h : .op "VERIFY" ∉ xs) : splitVerify xs = none := by
  induction xs with
  | nil => rfl
  | cons x xs ih =>
    obtain ⟨hx, hxs⟩ := not_or.mp (mt List.mem_cons.mpr h)
    simp [splitVerify, ih hxs, Ne.symm hx]

theorem splitVerify_append (condition : List Item) {rest : List Item} (h : .op "VERIFY" ∉ rest) :
    splitVerify (condition ++ ([.op "VERIFY"] ++ rest)) = some (condition, rest) := by
  induction condition with
  | nil => simp [splitVerify, splitVerify_eq_none h]
  | cons x condition ih => rw [List.cons_append, splitVerify, ih]

theorem mem_of_splitVerify {xs : List Item} {p : List Item × List Item}
    (h : splitVerify xs = some p) : .op "VERIFY" ∈ xs := by
  by_contra hmem
  rw [splitVerify_eq_none hmem] at h
  cases h

theorem op_not_mem_asm {name : String}
    (h : name ∉ ["CHECKSIG", "CHECKSIGVERIFY", "CHECKSIGADD", "NUMEQUAL"]) {pubkeys : List Bytes}
    (type : MultisigTapscript.MultisigType) :
    Item.op name ∉ MultisigTapscript.asm type pubkeys := by
  simp only [List.mem_cons, List.not_mem_nil, or_false, not_or] at h
  obtain ⟨hsig, hverify, hadd, hequal⟩ := h
  cases type with
  | CHECKSIG =>
    show Item.op name ∉ MultisigTapscript.checksigAsm pubkeys
    induction pubkeys with
    | nil => simp [MultisigTapscript.checksigAsm]
    | cons key keys ih => cases keys <;> simp_all [MultisigTapscript.checksigAsm]
  | CHECKSIGADD =>
    intro hmem
    obtain ⟨x, hx, hsettle⟩ := List.mem_map.mp hmem
    cases x with
    | op name' =>
      rw [settle_op] at hsettle
      cases hsettle
      cases pubkeys with
      | nil => simp [trMs] at hx
      | cons key keys => simp [trMs, hsig, hadd, hequal] at hx
    | num n =>
      rw [settle] at hsettle
      split at hsettle <;> cases hsettle
    | data b =>
      rw [settle] at hsettle
      split at hsettle <;> cases hsettle

theorem verify_not_mem_asm {pubkeys : List Bytes} (type : MultisigTapscript.MultisigType) :
    Item.op "VERIFY" ∉ MultisigTapscript.asm type pubkeys := op_not_mem_asm (by decide) type

theorem verify_not_mem_lockAsm (value : ℤ) {lock : String} (h : lock ≠ "VERIFY") :
    Item.op "VERIFY" ∉ lockAsm value lock := by
  simp [lockAsm, Ne.symm (settle_numberItem_ne_op value "VERIFY"), Ne.symm h]

theorem condition_parts {condition verify inner : Bytes} {items rest : List Item}
    (hc : Canonical L.OP condition items) (hv : ScriptCoder.encode L.OP [.op "VERIFY"] = .ok verify)
    (hr : Canonical L.OP inner rest) (hnot : .op "VERIFY" ∉ rest) :
    condition ++ verify ++ inner ≠ [] ∧ checkVerify L (condition ++ verify ++ inner) = .ok () ∧
      ∃ asm, ScriptCoder.decode L.OP (condition ++ verify ++ inner) = .ok asm ∧
        splitVerify asm = some (items, rest) := by
  have hverify : Canonical L.OP verify [.op "VERIFY"] := by
    refine canonical_of_encode ?_ hv
    simp only [List.forall_mem_cons]
    exact ⟨named_op (p := ("VERIFY", 0x69)) (by decide) rfl, by simp⟩
  have hall : Canonical L.OP (condition ++ verify ++ inner) (items ++ ([.op "VERIFY"] ++ rest)) := by
    rw [List.append_assoc]
    exact hc.append (hverify.append hr)
  have hsplit := splitVerify_append items hnot
  refine ⟨hall.ne_nil (by simp), ?_, _, hall.decode, hsplit⟩
  refine bind_ok.mpr ⟨_, hall.decode, then_ok.mpr ⟨rejectIf_ok.mpr (by simp), ?_⟩⟩
  exact rejectIf_ok.mpr (by rw [hsplit]; simp)

theorem CSVMultisigTapscript.Encoded.verify_not_mem {params : CSVMultisigTapscript.Params}
    {t : ArkTapscript CSVMultisigTapscript.Params} {n : ℕ}
    {m : ArkTapscript MultisigTapscript.Params}
    (_h : CSVMultisigTapscript.Encoded L params t n m) :
    Item.op "VERIFY" ∉ lockAsm n "CHECKSEQUENCEVERIFY" ++
      MultisigTapscript.asm (MultisigTapscript.resolved params.toMultisig) params.pubkeys := by
  rw [List.mem_append]
  exact not_or.mpr ⟨verify_not_mem_lockAsm n (by decide), verify_not_mem_asm _⟩

namespace ConditionMultisigTapscript

theorem encode_ok {params : Params} {t : ArkTapscript Params} (h : encode L params = .ok t) :
    ∃ verify m, ScriptCoder.encode L.OP [.op "VERIFY"] = .ok verify ∧
      MultisigTapscript.encode L params.toMultisig = .ok m ∧
      t = ⟨⟨m.params, params.conditionScript⟩, params.conditionScript ++ verify ++ m.script⟩ := by
  obtain ⟨verify, hverify, h⟩ := bind_ok.mp h
  obtain ⟨m, hm, h⟩ := bind_ok.mp h
  cases h
  exact ⟨verify, m, hverify, hm, rfl⟩

theorem encode_result {params : Params} {t : ArkTapscript Params} (h : encode L params = .ok t) :
    encode L t.params = .ok t := by
  obtain ⟨verify, m, hverify, hm, rfl⟩ := encode_ok h
  refine bind_ok.mpr ⟨verify, hverify, bind_ok.mpr ⟨m, ?_, rfl⟩⟩
  rw [(MultisigTapscript.encode_ok hm).result, MultisigTapscript.encode_withType]
  exact hm

theorem decode_parts {script : Bytes} {t : ArkTapscript Params} (h : decode L script = .ok t) :
    ∃ asm condition rest inner m, ScriptCoder.decode L.OP script = .ok asm ∧
      splitVerify asm = some (condition, rest) ∧ ScriptCoder.encode L.OP rest = .ok inner ∧
      MultisigTapscript.decode L inner = .ok m ∧ encode L ⟨m.params, t.params.conditionScript⟩ = .ok t ∧
      t.script = script := by
  obtain ⟨-, h⟩ := then_ok.mp h
  obtain ⟨-, h⟩ := then_ok.mp h
  obtain ⟨asm, hasm, h⟩ := bind_ok.mp h
  split at h
  · cases h
  · rename_i condition rest hsplit
    obtain ⟨conditionScript, -, h⟩ := bind_ok.mp h
    obtain ⟨inner, hinner, h⟩ := bind_ok.mp h
    obtain ⟨m, hm, h⟩ := bind_ok.mp h
    obtain ⟨r, hr, h⟩ := bind_ok.mp h
    obtain ⟨hs, h⟩ := then_ok.mp h
    cases h
    have hs : r.script = script := not_not.mp (rejectIf_ok.mp hs)
    have hdecode := rethrow_ok.mp hm
    obtain ⟨verify, m', -, hm', hreq⟩ := encode_ok hr
    obtain rfl : m' = m := by
      have h := hm'.symm.trans (MultisigTapscript.decode_sound hdecode).1
      cases h
      rfl
    have heq : r = ⟨⟨m'.params, conditionScript⟩, script⟩ := by
      rw [← hs, hreq]
    rw [← heq]
    refine ⟨asm, condition, rest, inner, m', hasm, hsplit, hinner, hdecode, ?_, hs⟩
    rw [heq] at hr ⊢
    exact hr

theorem decode_encode {params : Params} {t : ArkTapscript Params} (h : encode L params = .ok t)
    {items : List Item} (hc : Canonical L.OP params.conditionScript items)
    (hd : MultisigTapscript.Decodable params.toMultisig) : decode L t.script = .ok t := by
  have hresult := encode_result h
  obtain ⟨verify, m, hverify, hm, rfl⟩ := encode_ok h
  have hok := (MultisigTapscript.encode_ok hm).canonical
  have hmdecode := MultisigTapscript.decode_encode hm hd
  obtain ⟨hne, hvalid, asm, hasm, hsplit⟩ := condition_parts hc hverify hok (verify_not_mem_asm _)
  refine then_ok.mpr ⟨rejectIf_ok.mpr (mt List.length_eq_zero_iff.mp hne), then_ok.mpr ⟨hvalid, ?_⟩⟩
  refine bind_ok.mpr ⟨asm, hasm, ?_⟩
  rw [hsplit]
  refine bind_ok.mpr ⟨_, hc.encode, bind_ok.mpr ⟨m.script, hok.encode, bind_ok.mpr ⟨m, ?_, ?_⟩⟩⟩
  · exact rethrow_ok.mpr hmdecode
  · exact bind_ok.mpr ⟨_, hresult, then_ok.mpr ⟨rejectIf_ok.mpr (not_not.mpr rfl), rfl⟩⟩

theorem decode_not_ok {params : Params} {t : ArkTapscript Params} (h : encode L params = .ok t)
    {items : List Item} (hc : Canonical L.OP params.conditionScript items)
    (hd : ¬MultisigTapscript.Decodable params.toMultisig) (u : ArkTapscript Params) :
    decode L t.script ≠ .ok u := by
  obtain ⟨verify, m, hverify, hm, rfl⟩ := encode_ok h
  intro hu
  have hok := (MultisigTapscript.encode_ok hm).canonical
  obtain ⟨-, -, asm, hasm, hsplit⟩ := condition_parts hc hverify hok (verify_not_mem_asm _)
  obtain ⟨asm', condition, rest', inner, m', hasm', hsplit', hinner, hdecode, -, -⟩ := decode_parts hu
  rw [hasm] at hasm'
  cases hasm'
  rw [hsplit] at hsplit'
  cases hsplit'
  rw [hok.encode] at hinner
  cases hinner
  exact MultisigTapscript.decode_not_ok hm hd m' hdecode

end ConditionMultisigTapscript

namespace ConditionCSVMultisigTapscript

theorem encode_ok {params : Params} {t : ArkTapscript Params} (h : encode L params = .ok t) :
    ∃ verify m, ScriptCoder.encode L.OP [.op "VERIFY"] = .ok verify ∧
      CSVMultisigTapscript.encode L params.toCsv = .ok m ∧
      t = ⟨⟨m.params, params.conditionScript⟩, params.conditionScript ++ verify ++ m.script⟩ := by
  obtain ⟨verify, hverify, h⟩ := bind_ok.mp h
  obtain ⟨m, hm, h⟩ := bind_ok.mp h
  cases h
  exact ⟨verify, m, hverify, hm, rfl⟩

theorem encode_result {params : Params} {t : ArkTapscript Params} (h : encode L params = .ok t) :
    encode L t.params = .ok t := by
  obtain ⟨verify, m, hverify, hm, rfl⟩ := encode_ok h
  refine bind_ok.mpr ⟨verify, hverify, bind_ok.mpr ⟨m, ?_, rfl⟩⟩
  exact CSVMultisigTapscript.encode_result hm

theorem decode_parts {script : Bytes} {t : ArkTapscript Params} (h : decode L script = .ok t) :
    ∃ asm condition rest inner m, ScriptCoder.decode L.OP script = .ok asm ∧
      splitVerify asm = some (condition, rest) ∧ ScriptCoder.encode L.OP rest = .ok inner ∧
      CSVMultisigTapscript.decode L inner = .ok m ∧ encode L ⟨m.params, t.params.conditionScript⟩ = .ok t ∧
      t.script = script := by
  obtain ⟨-, h⟩ := then_ok.mp h
  obtain ⟨-, h⟩ := then_ok.mp h
  obtain ⟨asm, hasm, h⟩ := bind_ok.mp h
  split at h
  · cases h
  · rename_i condition rest hsplit
    obtain ⟨conditionScript, -, h⟩ := bind_ok.mp h
    obtain ⟨inner, hinner, h⟩ := bind_ok.mp h
    obtain ⟨m, hm, h⟩ := bind_ok.mp h
    obtain ⟨r, hr, h⟩ := bind_ok.mp h
    obtain ⟨hs, h⟩ := then_ok.mp h
    cases h
    have hs : r.script = script := not_not.mp (rejectIf_ok.mp hs)
    have hdecode := rethrow_ok.mp hm
    obtain ⟨verify, m', -, hm', hreq⟩ := encode_ok hr
    obtain rfl : m' = m := by
      have h := hm'.symm.trans (CSVMultisigTapscript.decode_sound hdecode).1
      cases h
      rfl
    have heq : r = ⟨⟨m'.params, conditionScript⟩, script⟩ := by
      rw [← hs, hreq]
    rw [← heq]
    refine ⟨asm, condition, rest, inner, m', hasm, hsplit, hinner, hdecode, ?_, hs⟩
    rw [heq] at hr ⊢
    exact hr

theorem decode_encode {params : Params} {t : ArkTapscript Params} (h : encode L params = .ok t)
    {items : List Item} (hc : Canonical L.OP params.conditionScript items)
    (hd : MultisigTapscript.Decodable params.toMultisig) : decode L t.script = .ok t := by
  have hresult := encode_result h
  obtain ⟨verify, m, hverify, hm, rfl⟩ := encode_ok h
  obtain ⟨n, k, hk⟩ := CSVMultisigTapscript.encode_ok hm
  have hok := hk.canonical
  have hmdecode := CSVMultisigTapscript.decode_encode hm hd
  obtain ⟨hne, hvalid, asm, hasm, hsplit⟩ := condition_parts hc hverify hok hk.verify_not_mem
  refine then_ok.mpr ⟨rejectIf_ok.mpr (mt List.length_eq_zero_iff.mp hne), then_ok.mpr ⟨hvalid, ?_⟩⟩
  refine bind_ok.mpr ⟨asm, hasm, ?_⟩
  rw [hsplit]
  refine bind_ok.mpr ⟨_, hc.encode, bind_ok.mpr ⟨m.script, hok.encode, bind_ok.mpr ⟨m, ?_, ?_⟩⟩⟩
  · exact rethrow_ok.mpr hmdecode
  · exact bind_ok.mpr ⟨_, hresult, then_ok.mpr ⟨rejectIf_ok.mpr (not_not.mpr rfl), rfl⟩⟩

theorem decode_not_ok {params : Params} {t : ArkTapscript Params} (h : encode L params = .ok t)
    {items : List Item} (hc : Canonical L.OP params.conditionScript items)
    (hd : ¬MultisigTapscript.Decodable params.toMultisig) (u : ArkTapscript Params) :
    decode L t.script ≠ .ok u := by
  obtain ⟨verify, m, hverify, hm, rfl⟩ := encode_ok h
  intro hu
  obtain ⟨n, k, hk⟩ := CSVMultisigTapscript.encode_ok hm
  have hok := hk.canonical
  obtain ⟨-, -, asm, hasm, hsplit⟩ := condition_parts hc hverify hok hk.verify_not_mem
  obtain ⟨asm', condition, rest', inner, m', hasm', hsplit', hinner, hdecode, -, -⟩ := decode_parts hu
  rw [hasm] at hasm'
  cases hasm'
  rw [hsplit] at hsplit'
  cases hsplit'
  rw [hok.encode] at hinner
  cases hinner
  exact CSVMultisigTapscript.decode_not_ok hm hd m' hdecode

end ConditionCSVMultisigTapscript

end ArkadeSdk
