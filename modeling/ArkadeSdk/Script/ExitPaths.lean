import ArkadeSdk.Script.TapscriptUnique
import ArkadeSdk.Script.TaprootTree

/-! The script of a virtual output, and the unilateral exits among its leaves. -/

namespace ArkadeSdk

open WireFormat JsNumber BtcScript ScriptCoder

abbrev TapLeafScript (ControlBlock : Type) := ControlBlock × Bytes

structure VtxoScript (ControlBlock : Type) where
  scripts : List Bytes
  leaves : List (TapLeafScript ControlBlock)

/-- `p2tr` gives the leaves of the payment, when it has a tree. -/
def VtxoScript.new {ControlBlock : Type}
    (p2tr : Option TaprootTreeNode → Except Message (Option (List (TapLeafScript ControlBlock))))
    (scripts : List Bytes) : Except Message (VtxoScript ControlBlock) := do
  let tapTree ← assembleBtcdTaprootTree scripts
  match ← p2tr tapTree with
  | none => throw (message "invalid scripts")
  | some tapLeafScript =>
    rejectIf (tapLeafScript.length ≠ scripts.length) (message "invalid scripts")
    return ⟨scripts, tapLeafScript⟩

variable (L : Libraries)

/-- What the loop of `exitPaths` makes of a leaf; an error skips it. Where a script does not decode,
neither shape test passes. -/
def exitPath (script : Bytes) : Option Tapscript :=
  match CSVMultisigTapscript.isScriptValid L script with
  | .ok () => (Tapscript.decodeAs L script .CSVMultisig).toOption
  | .error _ =>
    match checkVerify L script with
    | .ok () => (Tapscript.decodeAs L script .ConditionCSVMultisig).toOption
    | .error _ => none

def VtxoScript.exitPaths {ControlBlock : Type} (self : VtxoScript ControlBlock) : List Tapscript :=
  self.leaves.filterMap fun leaf ↦ exitPath L (scriptFromTapLeafScript leaf.2)

def Tapscript.type : Tapscript → TapscriptType
  | .multisig _ => .Multisig
  | .csvMultisig _ => .CSVMultisig
  | .conditionCSVMultisig _ => .ConditionCSVMultisig
  | .conditionMultisig _ => .ConditionMultisig
  | .cltvMultisig _ => .CLTVMultisig

/-- The exits as `decodeTapscript` tells them. -/
def exitClosure (hex : HexCodec.Codec) (script : Bytes) : Option Tapscript :=
  match decodeTapscript L hex script with
  | .ok t => if t.type = .CSVMultisig ∨ t.type = .ConditionCSVMultisig then some t else none
  | .error _ => none

variable {L} {hex : HexCodec.Codec}

theorem CSVMultisigTapscript.isScriptValid_iff {script : Bytes} :
    isScriptValid L script = .ok () ↔ ∃ x rest, x.isOp = false ∧
      ScriptCoder.decode L.OP script =
        .ok (x :: .op "CHECKSEQUENCEVERIFY" :: .op "DROP" :: rest) := by
  constructor
  · intro h
    obtain ⟨asm, hasm, h⟩ := bind_ok.mp h
    match asm with
    | [] | [_] | [_, _] => cases h
    | x :: second :: third :: rest =>
      obtain ⟨hx, h⟩ := then_ok.mp h
      have hnames := rejectIf_ok.mp h
      rw [not_or, not_not, not_not] at hnames
      obtain ⟨rfl, rfl⟩ := hnames
      exact ⟨x, rest, Bool.eq_false_of_not_eq_true (rejectIf_ok.mp hx), hasm⟩
  · rintro ⟨x, rest, hx, hasm⟩
    exact isScriptValid_ok hx hasm

theorem Tapscript.decodeAs_type {script : Bytes} {type : TapscriptType} {t : Tapscript}
    (h : decodeAs L script type = .ok t) : t.type = type := by
  cases type with
  | Multisig | CSVMultisig | ConditionCSVMultisig | ConditionMultisig | CLTVMultisig =>
    obtain ⟨u, -, rfl⟩ := map_ok.mp h
    rfl

theorem exitClosure_eq_some {script : Bytes} {t : Tapscript} :
    exitClosure L hex script = some t ↔
      Tapscript.decodeAs L script .CSVMultisig = .ok t ∨
        Tapscript.decodeAs L script .ConditionCSVMultisig = .ok t := by
  constructor
  · intro h
    unfold exitClosure at h
    split at h
    · next u hu =>
      obtain ⟨type, htype⟩ := decodeTapscript_ok.mp hu
      obtain rfl := Tapscript.decodeAs_type htype
      split at h
      · next hexit =>
        cases h
        rcases hexit with hexit | hexit
        · exact .inl (hexit ▸ htype)
        · exact .inr (hexit ▸ htype)
      · cases h
    · cases h
  · rintro (h | h)
    · rw [exitClosure, decodeTapscript_ok.mpr ⟨_, h⟩]
      exact if_pos (.inl (Tapscript.decodeAs_type h))
    · rw [exitClosure, decodeTapscript_ok.mpr ⟨_, h⟩]
      exact if_pos (.inr (Tapscript.decodeAs_type h))

theorem isScriptValid_of_decodeAs {script : Bytes} {t : Tapscript}
    (h : Tapscript.decodeAs L script .CSVMultisig = .ok t) :
    CSVMultisigTapscript.isScriptValid L script = .ok () := by
  obtain ⟨u, hu, -⟩ := map_ok.mp h
  obtain ⟨-, hu⟩ := then_ok.mp hu
  exact (then_ok.mp hu).1

theorem checkVerify_of_decodeAs {script : Bytes} {t : Tapscript}
    (h : Tapscript.decodeAs L script .ConditionCSVMultisig = .ok t) :
    checkVerify L script = .ok () := by
  obtain ⟨u, hu, -⟩ := map_ok.mp h
  obtain ⟨-, hu⟩ := then_ok.mp hu
  exact (then_ok.mp hu).1

theorem exitPath_eq_some {script : Bytes} {t : Tapscript} :
    exitPath L script = some t ↔
      Tapscript.decodeAs L script .CSVMultisig = .ok t ∨
        (CSVMultisigTapscript.isScriptValid L script ≠ .ok () ∧
          Tapscript.decodeAs L script .ConditionCSVMultisig = .ok t) := by
  unfold exitPath
  cases hvalid : CSVMultisigTapscript.isScriptValid L script with
  | ok u => simp [toOption_eq_some]
  | error e =>
    have hcsv : Tapscript.decodeAs L script .CSVMultisig ≠ .ok t := by
      intro h
      cases hvalid.symm.trans (isScriptValid_of_decodeAs h)
    simp only [hcsv, false_or, ne_eq, reduceCtorEq, not_false_eq_true, true_and]
    cases hverify : checkVerify L script with
    | ok u => exact toOption_eq_some
    | error e =>
      refine iff_of_false (by simp) fun h ↦ ?_
      cases hverify.symm.trans (checkVerify_of_decodeAs h)

/-- `exitPaths` reports no leaf wrongly. -/
theorem exitClosure_of_exitPath {script : Bytes} {t : Tapscript} (h : exitPath L script = some t) :
    exitClosure L hex script = some t := by
  rcases exitPath_eq_some.mp h with h | ⟨-, h⟩
  · exact exitClosure_eq_some.mpr (.inl h)
  · exact exitClosure_eq_some.mpr (.inr h)

/-- A leaf is missed when it is an exit behind a condition whose script passes for one without. -/
theorem exitPath_eq_iff {script : Bytes} :
    exitPath L script = exitClosure L hex script ↔
      ((∃ t, Tapscript.decodeAs L script .ConditionCSVMultisig = .ok t) →
        CSVMultisigTapscript.isScriptValid L script ≠ .ok ()) := by
  constructor
  · rintro heq ⟨t, ht⟩ hvalid
    have hpath := heq.trans (exitClosure_eq_some.mpr (.inr ht))
    rcases exitPath_eq_some.mp hpath with h | ⟨h, -⟩
    · cases Tapscript.decodeAs_unique h ht
    · exact h hvalid
  · intro h
    refine Option.ext fun t ↦ ⟨exitClosure_of_exitPath, fun ht ↦ exitPath_eq_some.mpr ?_⟩
    rcases exitClosure_eq_some.mp ht with ht | ht
    · exact .inl ht
    · exact .inr ⟨h ⟨t, ht⟩, ht⟩

namespace TapscriptParams

/-- A condition script, where there is one, re-encodes to itself. -/
def CanonicalCondition (L : Libraries) : TapscriptParams → Prop
  | .conditionCSVMultisig params => ∃ items, Canonical L.OP params.conditionScript items
  | .conditionMultisig params => ∃ items, Canonical L.OP params.conditionScript items
  | _ => True

/-- An exit that `decodeTapscript` accepts and whose condition begins like an exit of its own. -/
def Hidden (L : Libraries) : TapscriptParams → Prop
  | .conditionCSVMultisig params =>
    MultisigTapscript.Decodable params.toMultisig ∧
      CSVMultisigTapscript.isScriptValid L params.conditionScript = .ok ()
  | _ => False

end TapscriptParams

theorem Tapscript.shape_of_encode {params : TapscriptParams} {t : Tapscript}
    (h : Tapscript.encode L params = .ok t) (hc : params.CanonicalCondition L) :
    ∃ asm, ScriptCoder.decode L.OP t.script = .ok asm ∧ Shape L params.type asm := by
  cases params with
  | multisig params =>
    obtain ⟨u, hu, rfl⟩ := map_ok.mp h
    exact (MultisigTapscript.encode_ok hu).shape
  | csvMultisig params =>
    obtain ⟨u, hu, rfl⟩ := map_ok.mp h
    obtain ⟨n, m, hok⟩ := CSVMultisigTapscript.encode_ok hu
    exact ⟨_, hok.canonical.decode, hok.verify_not_mem, "CHECKSEQUENCEVERIFY",
      List.mem_singleton_self _, rfl⟩
  | cltvMultisig params =>
    obtain ⟨u, hu, rfl⟩ := map_ok.mp h
    obtain ⟨m, hok⟩ := CLTVMultisigTapscript.encode_ok hu
    refine ⟨_, hok.canonical.decode, ?_, "CHECKLOCKTIMEVERIFY", List.mem_singleton_self _, rfl⟩
    rw [List.mem_append]
    exact not_or.mpr ⟨verify_not_mem_lockAsm _ (by decide), verify_not_mem_asm _⟩
  | conditionCSVMultisig params =>
    obtain ⟨u, hu, rfl⟩ := map_ok.mp h
    obtain ⟨items, hitems⟩ := hc
    obtain ⟨verify, v, hverify, hv, rfl⟩ := ConditionCSVMultisigTapscript.encode_ok hu
    obtain ⟨n, m, hok⟩ := CSVMultisigTapscript.encode_ok hv
    obtain ⟨-, -, asm, hasm, hsplit⟩ :=
      condition_parts hitems hverify hok.canonical hok.verify_not_mem
    exact ⟨asm, hasm, items, _, v.script, _, hsplit, hok.canonical.encode, hok.canonical.decode,
      "CHECKSEQUENCEVERIFY", List.mem_singleton_self _, rfl⟩
  | conditionMultisig params =>
    obtain ⟨u, hu, rfl⟩ := map_ok.mp h
    obtain ⟨items, hitems⟩ := hc
    obtain ⟨verify, m, hverify, hm, rfl⟩ := ConditionMultisigTapscript.encode_ok hu
    have hok := MultisigTapscript.encode_ok hm
    obtain ⟨-, -, asm, hasm, hsplit⟩ :=
      condition_parts hitems hverify hok.canonical (verify_not_mem_asm _)
    exact ⟨asm, hasm, items, _, m.script, _, hsplit, hok.canonical.encode, hok.canonical.decode,
      opens_asm hok.ne_nil hok.valid _⟩

theorem eq_of_splitVerify {xs condition rest : List Item}
    (h : splitVerify xs = some (condition, rest)) :
    xs = condition ++ .op "VERIFY" :: rest := by
  induction xs generalizing condition with
  | nil => cases h
  | cons x xs ih =>
    rw [splitVerify] at h
    split at h
    · next condition' rest' hsplit =>
      cases h
      rw [List.cons_append, ← ih hsplit]
    · split at h
      · next hx =>
        cases h
        rw [hx, List.nil_append]
      · cases h

/-- Whether the script of a conditional closure passes for one without depends on its condition. -/
theorem isScriptValid_condition {condition script : Bytes} {items rest asm : List Item}
    (hc : Canonical L.OP condition items) (hasm : ScriptCoder.decode L.OP script = .ok asm)
    (hsplit : splitVerify asm = some (items, rest)) :
    CSVMultisigTapscript.isScriptValid L script = .ok () ↔
      CSVMultisigTapscript.isScriptValid L condition = .ok () := by
  obtain rfl := eq_of_splitVerify hsplit
  rw [CSVMultisigTapscript.isScriptValid_iff, CSVMultisigTapscript.isScriptValid_iff, hasm,
    hc.decode]
  constructor
  · rintro ⟨x, tail, hx, heq⟩
    match items with
    | [] =>
      cases heq
      cases hx
    | [_] | [_, _] => simp at heq
    | y :: second :: third :: items =>
      simp only [List.cons_append, Except.ok.injEq, List.cons.injEq] at heq
      obtain ⟨rfl, rfl, rfl, -⟩ := heq
      exact ⟨y, items, hx, rfl⟩
  · rintro ⟨x, tail, hx, heq⟩
    cases heq
    exact ⟨x, tail ++ .op "VERIFY" :: rest, hx, rfl⟩

theorem exitPath_encode_iff {params : TapscriptParams} {t : Tapscript}
    (h : Tapscript.encode L params = .ok t) (hc : params.CanonicalCondition L) :
    exitPath L t.script = exitClosure L hex t.script ↔ ¬params.Hidden L := by
  obtain ⟨asm, hasm, hshape⟩ := Tapscript.shape_of_encode h hc
  have hother (hne : params.type ≠ .ConditionCSVMultisig) :
      exitPath L t.script = exitClosure L hex t.script := by
    rw [exitPath_eq_iff]
    rintro ⟨u, hu⟩
    obtain ⟨asm', hasm', hshape'⟩ := Tapscript.decodeAs_shape hu
    rw [hasm] at hasm'
    cases hasm'
    exact absurd (shape_unique hshape hshape') hne
  cases params with
  | multisig params => exact iff_of_true (hother nofun) id
  | csvMultisig params => exact iff_of_true (hother nofun) id
  | conditionMultisig params => exact iff_of_true (hother nofun) id
  | cltvMultisig params => exact iff_of_true (hother nofun) id
  | conditionCSVMultisig params =>
    obtain ⟨u, hu, rfl⟩ := map_ok.mp h
    obtain ⟨items, hitems⟩ := hc
    obtain ⟨verify, v, hverify, hv, rfl⟩ := ConditionCSVMultisigTapscript.encode_ok hu
    obtain ⟨n, m, hok⟩ := CSVMultisigTapscript.encode_ok hv
    obtain ⟨-, -, asm', hasm', hsplit⟩ :=
      condition_parts hitems hverify hok.canonical hok.verify_not_mem
    have hw : (TapscriptParams.conditionCSVMultisig params).WellFormed L :=
      ⟨⟨items, hitems⟩, n, hok.sequence⟩
    have hdecodable : (∃ u, Tapscript.decodeAs L (params.conditionScript ++ verify ++ v.script)
        .ConditionCSVMultisig = .ok u) ↔ MultisigTapscript.Decodable params.toMultisig := by
      refine ⟨fun ⟨u, hu⟩ ↦ ?_, fun hd ↦ ⟨_, Tapscript.decodeAs_encode h hw hd⟩⟩
      by_contra hd
      exact Tapscript.decodeAs_not_ok h hw hd u hu
    have hvalid := isScriptValid_condition hitems hasm' hsplit
    rw [exitPath_eq_iff, TapscriptParams.Hidden, not_and]
    exact imp_congr hdecodable (not_congr hvalid)

theorem eq_of_length_filterMap_le {α β : Type} {f g : α → Option β}
    (hle : ∀ a b, f a = some b → g a = some b) {xs : List α}
    (h : (xs.filterMap g).length ≤ (xs.filterMap f).length) : ∀ a ∈ xs, f a = g a := by
  have hlength (xs : List α) : (xs.filterMap f).length ≤ (xs.filterMap g).length := by
    induction xs with
    | nil => rfl
    | cons a xs ih =>
      cases hf : f a with
      | none =>
        rw [List.filterMap_cons_none hf]
        refine ih.trans ?_
        cases hg : g a with
        | none => rw [List.filterMap_cons_none hg]
        | some b =>
          rw [List.filterMap_cons_some hg]
          exact Nat.le_succ _
      | some b =>
        rw [List.filterMap_cons_some hf, List.filterMap_cons_some (hle a b hf)]
        exact Nat.succ_le_succ ih
  induction xs with
  | nil => simp
  | cons a xs ih =>
    have hxs := hlength xs
    cases hf : f a with
    | none =>
      rw [List.filterMap_cons_none hf] at h
      cases hg : g a with
      | none =>
        rw [List.filterMap_cons_none hg] at h
        exact List.forall_mem_cons.mpr ⟨hf.trans hg.symm, ih h⟩
      | some b =>
        rw [List.filterMap_cons_some hg, List.length_cons] at h
        omega
    | some b =>
      have hg := hle a b hf
      rw [List.filterMap_cons_some hf, List.filterMap_cons_some hg] at h
      exact List.forall_mem_cons.mpr ⟨hf.trans hg.symm, ih (Nat.le_of_succ_le_succ h)⟩

/-- The script of every leaf is one of the list, with the version of a tapscript behind it. -/
theorem VtxoScript.leaves_perm {ControlBlock : Type}
    {p2tr : Option TaprootTreeNode → Except Message (Option (List (TapLeafScript ControlBlock)))}
    (hp2tr : ∀ tree leaves, p2tr (some tree) = .ok (some leaves) → (leaves.map (·.2)).Perm
      (tree.leaves.map fun leaf ↦ leaf.script ++ [UInt8.ofNat leaf.leafVersion]))
    {scripts : List Bytes} {v : VtxoScript ControlBlock} (h : VtxoScript.new p2tr scripts = .ok v) :
    (v.leaves.map fun leaf ↦ scriptFromTapLeafScript leaf.2).Perm scripts := by
  obtain ⟨tapTree, htree, h⟩ := bind_ok.mp h
  obtain ⟨payment, hpayment, h⟩ := bind_ok.mp h
  cases payment with
  | none => cases h
  | some tapLeafScript =>
    obtain ⟨-, h⟩ := then_ok.mp h
    cases h
    rw [assembleBtcdTaprootTree] at htree
    split at htree
    · cases htree
    · next hlength =>
      have hne : scripts.map (fun script ↦ (⟨script, TAP_LEAF_VERSION⟩ : TaprootLeaf)) ≠ [] := by
        simpa using hlength
      obtain ⟨tree, htree', hperm, -⟩ := assembleLeaves_ok hne
      rw [htree'] at htree
      cases htree
      have hscripts := ((hp2tr tree _ hpayment).trans (hperm.map _)).map scriptFromTapLeafScript
      simp only [List.map_map] at hscripts
      refine hscripts.trans (.of_eq ?_)
      refine (List.map_congr_left fun script _ ↦ ?_).trans (List.map_id scripts)
      exact List.dropLast_concat

/-- `exitPaths` finds the exits that `decodeTapscript` finds, unless one is hidden. -/
theorem exitPaths_complete_iff {ControlBlock : Type}
    {p2tr : Option TaprootTreeNode → Except Message (Option (List (TapLeafScript ControlBlock)))}
    (hp2tr : ∀ tree leaves, p2tr (some tree) = .ok (some leaves) → (leaves.map (·.2)).Perm
      (tree.leaves.map fun leaf ↦ leaf.script ++ [UInt8.ofNat leaf.leafVersion]))
    {params : List TapscriptParams} {closures : List Tapscript}
    (hclosures : params.mapM (Tapscript.encode L) = .ok closures)
    (hconditions : ∀ p ∈ params, p.CanonicalCondition L) {v : VtxoScript ControlBlock}
    (hv : VtxoScript.new p2tr (closures.map Tapscript.script) = .ok v) :
    (v.exitPaths L).Perm ((closures.map Tapscript.script).filterMap (exitClosure L hex)) ↔
      ∀ p ∈ params, ¬p.Hidden L := by
  have hperm : (v.exitPaths L).Perm
      ((closures.map Tapscript.script).filterMap (exitPath L)) := by
    rw [VtxoScript.exitPaths, ← Function.comp_def, ← List.filterMap_map]
    exact (VtxoScript.leaves_perm hp2tr hv).filterMap _
  constructor
  · intro h p hp
    obtain ⟨t, ht, hencode⟩ := exists_mem_mapM_ok hclosures hp
    have hlength := (hperm.symm.trans h).length_eq
    have heq := eq_of_length_filterMap_le (fun _ _ ↦ exitClosure_of_exitPath) hlength.ge t.script
      (List.mem_map_of_mem ht)
    exact (exitPath_encode_iff hencode (hconditions p hp)).mp heq
  · intro h
    refine hperm.trans (.of_eq (List.filterMap_congr fun script hscript ↦ ?_))
    obtain ⟨t, ht, rfl⟩ := List.mem_map.mp hscript
    obtain ⟨p, hp, hencode⟩ := mem_mapM_ok hclosures ht
    exact (exitPath_encode_iff hencode (hconditions p hp)).mpr (h p hp)

/-- The leaves as `p2tr` lists them, without their control blocks. -/
def plainP2tr : Option TaprootTreeNode → Except Message (Option (List (TapLeafScript Unit)))
  | none => .ok none
  | some tree =>
    .ok (some (tree.leaves.map fun leaf ↦ ((), leaf.script ++ [UInt8.ofNat leaf.leafVersion])))

theorem plainP2tr_leaves (tree : TaprootTreeNode) (leaves : List (TapLeafScript Unit))
    (h : plainP2tr (some tree) = .ok (some leaves)) : (leaves.map (·.2)).Perm
      (tree.leaves.map fun leaf ↦ leaf.script ++ [UInt8.ofNat leaf.leafVersion]) := by
  cases h
  rw [List.map_map]
  exact .refl _

/-- A day of blocks behind `1 CHECKSEQUENCEVERIFY DROP 1 VERIFY`. -/
def hiddenLock : ConditionCSVMultisigTapscript.Params :=
  ⟨⟨⟨[List.replicate 32 1, List.replicate 32 2], none⟩, ⟨144, .blocks⟩⟩, [0x51, 0xb2, 0x75, 0x51]⟩

theorem hiddenLock_canonical : Canonical standardOps hiddenLock.conditionScript
    [.num 1, .op "CHECKSEQUENCEVERIFY", .op "DROP", .num 1] := by
  refine @canonical_of_encode _ [.num 1, .op "CHECKSEQUENCEVERIFY", .op "DROP", .num 1] _ ?_ ?_
  · simp only [List.forall_mem_cons]
    exact ⟨named_num 1, named_standard (p := ("CHECKSEQUENCEVERIFY", 0xb2)) (by decide),
      named_standard (p := ("DROP", 0x75)) (by decide), named_num 1, by simp⟩
  · decide

theorem hiddenLock_hidden :
    (TapscriptParams.conditionCSVMultisig hiddenLock).Hidden standardLibraries :=
  ⟨.inl rfl, CSVMultisigTapscript.isScriptValid_ok rfl hiddenLock_canonical.decode⟩

/-- `decodeTapscript` tells the exit, `exitPaths` is empty. -/
theorem hidden_exit_dropped : ∃ t v,
    Tapscript.encode standardLibraries (.conditionCSVMultisig hiddenLock) = .ok t ∧
    VtxoScript.new plainP2tr [t.script] = .ok v ∧
    exitClosure standardLibraries HexCodec.base16 t.script = some t ∧
    v.exitPaths standardLibraries = [] := by
  obtain ⟨t, ht⟩ : ∃ t, Tapscript.encode standardLibraries (.conditionCSVMultisig hiddenLock) =
      .ok t := ⟨_, rfl⟩
  have hdecode : Tapscript.decodeAs standardLibraries t.script .ConditionCSVMultisig = .ok t :=
    Tapscript.decodeAs_encode ht ⟨⟨_, hiddenLock_canonical⟩, 144, rfl⟩ (.inl rfl)
  have hclosure : exitClosure standardLibraries HexCodec.base16 t.script = some t :=
    exitClosure_eq_some.mpr (.inr hdecode)
  refine ⟨t, ⟨[t.script], [((), t.script ++ [0xc0])]⟩, ht, rfl, hclosure, ?_⟩
  have hne := mt (@exitPath_encode_iff _ HexCodec.base16 _ _ ht ⟨_, hiddenLock_canonical⟩).mp
    (not_not.mpr hiddenLock_hidden)
  have hpath : exitPath standardLibraries t.script = none := by
    cases h : exitPath standardLibraries t.script with
    | none => rfl
    | some u => exact absurd (h.trans (exitClosure_of_exitPath h).symm) hne
  simp [VtxoScript.exitPaths, scriptFromTapLeafScript, hpath]

theorem dayLock_exit_found : ∃ t v, Tapscript.encode standardLibraries dayLock = .ok t ∧
    VtxoScript.new plainP2tr [t.script] = .ok v ∧ (v.exitPaths standardLibraries).Perm
      ([t.script].filterMap (exitClosure standardLibraries HexCodec.base16)) := by
  obtain ⟨t, ht⟩ : ∃ t, Tapscript.encode standardLibraries dayLock = .ok t := ⟨_, rfl⟩
  refine ⟨t, ⟨[t.script], [((), t.script ++ [0xc0])]⟩, ht, rfl, ?_⟩
  have hcondition : dayLock.CanonicalCondition standardLibraries := dayLock_wellFormed.1
  refine (@exitPaths_complete_iff _ _ _ _ plainP2tr_leaves [dayLock] [t]
    (mapM_cons_ok.mpr ⟨t, ht, [], rfl, rfl⟩) (by simpa using hcondition) _ rfl).mpr ?_
  rw [List.forall_mem_singleton]
  rintro ⟨-, hvalid⟩
  revert hvalid
  decide +kernel

end ArkadeSdk
