import ArkadeSdk.Arkade.ArkadeScript
import ArkadeSdk.Lib.Decimal
import ArkadeSdk.Lib.Json
import ArkadeSdk.Lib.JsRecord
import ArkadeSdk.Lib.Selection
import ArkadeSdk.Lib.Words

namespace ArkadeSdk

namespace ArkadeScript

open WireFormat JsNumber BtcScript ScriptCoder HexCodec Decimal Words Json JsRecord

/-- `OP_0` to `OP_16`. -/
def numberToken (n : ℕ) : String := "OP_" ++ toText n

def numberCode (n : ℕ) : UInt8 := if n = 0 then 0 else UInt8.ofNat (0x50 + n)

def pushCodes : List (String × UInt8) :=
  [("PUSHDATA1", 0x4c), ("PUSHDATA2", 0x4d), ("PUSHDATA4", 0x4e)]

/-- An opcode's name: capitals, digits and underscores, not all digits, and no truth value. -/
def Spelled (s : String) : Prop :=
  s.toList.all (fun c ↦ c.isUpper || c.isDigit || c == '_') = true ∧
    s.toList.any Char.isUpper = true ∧ s ≠ "FALSE" ∧ s ≠ "TRUE"

instance (s : String) : Decidable (Spelled s) := inferInstanceAs (Decidable (_ ∧ _))

/-- The library's opcodes with what their texts rely on: no code is that of a direct push, only
the numbers carry `OP_` in their names, and no extension opcode is among them. -/
structure AsmTable extends OpTable where
  code_name : ∀ {s b}, name b = some s → code s = some b
  name_isSome : ∀ {s b}, code s = some b → (name b).isSome
  code_range : ∀ {s b}, code s = some b → b = 0 ∨ PUSHDATA1 ≤ b.toNat
  mem_pushCodes : ∀ {s b}, code s = some b → PUSHDATA1 ≤ b.toNat → b.toNat ≤ PUSHDATA4 →
    (s, b) ∈ pushCodes
  code_push : ∀ p ∈ pushCodes, code p.1 = some p.2
  code_negate : code "1NEGATE" = some 0x4f
  code_number : ∀ n ≤ 16, code (numberToken n) = some (numberCode n)
  of_startsWith : ∀ {s b}, code s = some b → startsWith "OP_" s → ∃ n ≤ 16, s = numberToken n
  spelled : ∀ {s b}, code s = some b → ¬startsWith "OP_" s → Spelled s
  fresh : ∀ p ∈ ARKADE_OP, code p.1 = none

variable (OP : OpTable)

/-- `key in ARKADE_OPS`, which also finds what every object inherits. -/
def inOps (key : String) : Bool := (code OP key).isSome || Record.objectPrototype.contains key

/-- One part of `toASM`. -/
def asmToken : Item → Except Message String
  | .op op => .ok (if startsWith "OP_" op then op else "OP_" ++ op)
  | .num op =>
    if op = 0 then .ok "OP_0"
    else if 1 ≤ op ∧ op ≤ 16 then .ok ("OP_" ++ toText op)
    else if op = -1 then .ok "OP_1NEGATE"
    else do
      let o ← BigNum.encode op
      return base16.encode o
  | .data op => .ok (base16.encode op)

def toASM (script : List Item) : Except Message String := do
  let parts ← script.mapM asmToken
  return String.intercalate " " parts

/-- `asm.trim().split(/\s+/).filter(Boolean)`. -/
def tokens (asm : String) : List String := (words isSpace (trim asm.toList)).map String.ofList

/-- The number that `/^OP_(\d+)$/` finds. -/
def numMatch (token : String) : Option ℕ :=
  if startsWith "OP_" token then readDigits 10 (slice 3 token).toList else none

def opKey (token : String) : String :=
  if startsWith "OP_" token then slice 3 token else token

/-- `/^[0-9a-fA-F]+$/.test(token) && token.length % 2 === 0`. -/
def isHex (token : String) : Bool :=
  token ≠ "" && token.toList.all (fun c ↦ (digitValue c).isSome) && token.toList.length % 2 = 0

/-- One token of `fromASM`. -/
def fromToken (token : String) : Except Message Item :=
  if token = "OP_0" ∨ token = "OP_FALSE" then .ok (.num 0)
  else if token = "OP_TRUE" then .ok (.num 1)
  else match (numMatch token).filter fun n ↦ 1 ≤ n ∧ n ≤ 16 with
    | some n => .ok (.num n)
    | none =>
      if inOps OP (opKey token) then .ok (.op (opKey token))
      else match if isHex token then base16.decode token else none with
        | some b => .ok (.data b)
        | none => .error (message ("Invalid ASM token: " ++ token))

def fromASM (asm : String) : Except Message (List Item) := (tokens asm).mapM (fromToken OP)

def asmToBytes (asm : String) : Except Message Bytes := do
  let script ← fromASM OP asm
  encode OP script

def bytesToASM (script : Bytes) : Except Message String := do
  let ops ← decode OP script
  toASM ops

variable {OP}

/-- A text that is split off whole. -/
def Unbroken (token : String) : Prop := ∀ c ∈ token.toList, isSpace c = false

theorem tokens_intercalate {parts : List String} (h : ∀ token ∈ parts, Unbroken token) :
    tokens (String.intercalate " " parts) = parts.filter (· ≠ "") := by
  have hlists : ∀ l ∈ parts.map String.toList, ∀ c ∈ l, isSpace c = false := by
    intro l hl
    obtain ⟨token, htoken, rfl⟩ := List.mem_map.mp hl
    exact h token htoken
  have hspace : " ".toList = [' '] := rfl
  rw [tokens, trim, words_dropWhile_reverse, words_dropWhile, String.toList_intercalate, hspace,
    words_intercalate (by decide) hlists, List.filter_map, List.map_map]
  have hid : String.ofList ∘ String.toList = id := by
    funext s
    exact String.ofList_toList
  have hempty : ((!·.isEmpty) ∘ String.toList : String → Bool) = (· ≠ "") := by
    funext s
    exact Bool.eq_iff_iff.mpr (by simp)
  rw [hid, hempty, List.map_id]

theorem isUpper_toNat {c : Char} (h : c.isUpper = true) : 65 ≤ c.toNat ∧ c.toNat ≤ 90 := by
  have hrange : decide (c.val ≥ 'A'.val ∧ c.val ≤ 'Z'.val) = true := h
  simpa [UInt32.le_iff_toNat_le] using hrange

theorem isDigit_toNat {c : Char} (h : c.isDigit = true) : 48 ≤ c.toNat ∧ c.toNat ≤ 57 := by
  simpa [Char.isDigit, UInt32.le_iff_toNat_le] using h

theorem isSpace_of_range {c : Char} (h : 48 ≤ c.toNat ∧ c.toNat ≤ 95) : isSpace c = false := by
  simp only [isSpace, List.mem_cons, List.not_mem_nil, or_false, Bool.or_eq_false_iff,
    decide_eq_false_iff_not, Bool.and_eq_false_iff]
  omega

theorem Spelled.unbroken {s : String} (h : Spelled s) : Unbroken s := by
  intro c hc
  have hkind := List.all_eq_true.mp h.1 c hc
  simp only [Bool.or_eq_true, beq_iff_eq, or_assoc] at hkind
  rcases hkind with hupper | hdigit | rfl
  · have := isUpper_toNat hupper
    exact isSpace_of_range (by omega)
  · have := isDigit_toNat hdigit
    exact isSpace_of_range (by omega)
  · decide

theorem Spelled.op_unbroken {s : String} (h : Spelled s) : Unbroken ("OP_" ++ s) := by
  intro c hc
  rw [String.toList_append] at hc
  rcases List.mem_append.mp hc with hc | hc
  · have hall : "OP_".toList.all (!isSpace ·) = true := by decide
    simpa using List.all_eq_true.mp hall c hc
  · exact h.unbroken c hc

/-- The extension opcodes: each name is its own key, spelled as an opcode, above the numbers. -/
theorem arkade_laws : ∀ p ∈ ARKADE_OP, ARKADE_OP.lookup p.1 = some p.2 ∧ 0x60 < p.2.toNat ∧
    Spelled p.1 ∧ ¬startsWith "OP_" p.1 := by
  decide +kernel

theorem number_laws : ∀ n : ℕ, n < 17 → numberToken n ≠ "" ∧
    (numberToken n).toList.all (!isSpace ·) = true ∧
    (n = 0 ∨ (numberToken n ∉ ["OP_0", "OP_FALSE", "OP_TRUE"] ∧
      (numMatch (numberToken n)).filter (fun n ↦ 1 ≤ n ∧ n ≤ 16) = some n)) ∧
    ARKADE_OP.lookup (numberToken n) = none ∧ (BigNum.encode n >>= push) = .ok [numberCode n] := by
  decide

theorem digitValue_upper {c : Char} {d : ℕ} (hc : c.isUpper = true) (h : digitValue c = some d) :
    10 ≤ d := by
  have hrange := isUpper_toNat hc
  simp only [digitValue] at h
  split at h
  · omega
  · split at h
    · omega
    · split at h
      · cases h
        omega
      · cases h

theorem readDigits_upper {cs : List Char} {c : Char} (hmem : c ∈ cs) (hc : c.isUpper = true) :
    readDigits 10 cs = none := by
  rw [readDigits, if_neg (List.ne_nil_of_mem hmem)]
  cases hds : cs.mapM digitValue with
  | none => rfl
  | some ds =>
    obtain ⟨hall, rfl⟩ := Selection.mapM_eq_some.mp hds
    obtain ⟨d, hd⟩ := Option.isSome_iff_exists.mp (hall c hmem)
    have hlarge := digitValue_upper hc hd
    refine if_neg fun hsmall ↦ ?_
    have hlt := List.all_eq_true.mp hsmall d (List.mem_filterMap.mpr ⟨c, hmem, hd⟩)
    have hlt : d < 10 := of_decide_eq_true hlt
    omega

theorem number_read {n : ℕ} (h : n ≤ 16) : fromToken OP (numberToken n) = .ok (.num n) := by
  obtain ⟨-, -, hread, -⟩ := number_laws n (by omega)
  rcases hread with rfl | ⟨hne, hmatch⟩
  · rfl
  · simp only [List.mem_cons, List.not_mem_nil, or_false, not_or] at hne
    obtain ⟨hzero, hfalse, htrue⟩ := hne
    rw [fromToken, if_neg (by simp [hzero, hfalse]), if_neg htrue, hmatch]

theorem slice_op (s : String) : slice 3 ("OP_" ++ s) = s := slice_append rfl

theorem append_ne {s t : String} (h : s ≠ t) : "OP_" ++ s ≠ "OP_" ++ t := by
  intro heq
  have hslice := congrArg (slice 3) heq
  rw [slice_op, slice_op] at hslice
  exact h hslice

theorem Spelled.not_number {s : String} (h : Spelled s) : s ≠ "0" := by
  rintro rfl
  exact absurd h (by decide)

theorem name_read {s : String} (hs : Spelled s) (hin : inOps OP s = true) :
    fromToken OP ("OP_" ++ s) = .ok (.op s) := by
  obtain ⟨-, hupper, hfalse, htrue⟩ := id hs
  obtain ⟨c, hmem, hc⟩ := List.any_eq_true.mp hupper
  have hmatch : numMatch ("OP_" ++ s) = none := by
    rw [numMatch, startsWith_append, if_pos rfl, slice_op, readDigits_upper hmem hc]
  have hkey : opKey ("OP_" ++ s) = s := by
    rw [opKey, startsWith_append, if_pos rfl, slice_op]
  have hnone : ¬("OP_" ++ s = "OP_0" ∨ "OP_" ++ s = "OP_FALSE") :=
    not_or.mpr ⟨append_ne (t := "0") hs.not_number, append_ne (t := "FALSE") hfalse⟩
  have htrue : "OP_" ++ s ≠ "OP_TRUE" := append_ne (t := "TRUE") htrue
  rw [fromToken, if_neg hnone, if_neg htrue, hmatch, hkey]
  exact if_pos hin

theorem mem_encodeChars {b : Bytes} {c : Char} (h : c ∈ encodeChars b) : ∃ n < 16, c = digit n := by
  obtain ⟨x, -, hc⟩ := List.mem_flatMap.mp h
  have hx := x.toNat_lt
  simp only [List.mem_cons, List.not_mem_nil, or_false] at hc
  rcases hc with rfl | rfl
  · exact ⟨_, by omega, rfl⟩
  · exact ⟨_, by omega, rfl⟩

theorem toList_base16 (b : Bytes) : (base16.encode b).toList = encodeChars b :=
  String.toList_ofList

theorem base16_unbroken (b : Bytes) : Unbroken (base16.encode b) := by
  intro c hc
  rw [toList_base16] at hc
  obtain ⟨n, hn, rfl⟩ := mem_encodeChars hc
  have hall : ∀ n < 16, isSpace (digit n) = false := by decide
  exact hall n hn

theorem base16_not_op (b : Bytes) : startsWith "OP_" (base16.encode b) = false := by
  rw [startsWith, Bool.eq_false_iff]
  intro h
  obtain ⟨rest, hrest⟩ := List.isPrefixOf_iff_prefix.mp h
  rw [toList_base16] at hrest
  have hmem : 'O' ∈ encodeChars b := by
    rw [← hrest]
    exact List.mem_append_left _ (by decide)
  obtain ⟨n, hn, hc⟩ := mem_encodeChars hmem
  have hall : ∀ n < 16, 'O' ≠ digit n := by decide
  exact hall n hn hc

theorem isHex_base16 {b : Bytes} (h : b ≠ []) : isHex (base16.encode b) = true := by
  have hne : base16.encode b ≠ "" := fun he ↦ h (base16.encode_eq_empty.mp he)
  have hdigits : (base16.encode b).toList.all (fun c ↦ (digitValue c).isSome) = true := by
    rw [toList_base16, List.all_eq_true]
    intro c hc
    obtain ⟨n, hn, rfl⟩ := mem_encodeChars hc
    rw [digitValue_digit n hn]
    rfl
  have hlen : (base16.encode b).toList.length % 2 = 0 := by
    rw [base16.length_encode, Nat.mul_mod_right]
  simp [isHex, hne, hdigits, hlen]

section

variable {T : AsmTable}

theorem mem_of_lookup {s : String} {b : UInt8} (h : ARKADE_OP.lookup s = some b) :
    (s, b) ∈ ARKADE_OP := by
  obtain ⟨l₁, l₂, heq, -⟩ := List.lookup_eq_some_iff.mp h
  rw [heq]
  simp

theorem code_cases {OP : OpTable} {s : String} {b : UInt8} (h : code OP s = some b) :
    (s, b) ∈ ARKADE_OP ∨ OP.code s = some b := by
  unfold code at h
  split at h
  · rename_i b' hlookup
    cases h
    exact .inl (mem_of_lookup hlookup)
  · exact .inr h

theorem code_of_name {s : String} {b : UInt8} (h : name T.toOpTable b = some s) :
    code T.toOpTable s = some b := by
  unfold name at h
  split at h
  · rename_i p hp
    cases h
    obtain rfl : p.2 = b := by simpa using List.find?_some hp
    rw [code, (arkade_laws p (List.mem_of_find?_eq_some hp)).1]
  · have hcode := T.code_name h
    rw [code]
    cases hlookup : ARKADE_OP.lookup s with
    | none => exact hcode
    | some b' =>
      rw [T.fresh _ (mem_of_lookup hlookup)] at hcode
      cases hcode

theorem name_of_code {s : String} {b : UInt8} (h : code T.toOpTable s = some b) :
    ∃ o, name T.toOpTable b = some o := by
  unfold name
  split
  · exact ⟨_, rfl⟩
  · rename_i hfind
    rcases code_cases h with hmem | hcode
    · exact absurd (List.find?_eq_none.mp hfind _ hmem) (by simp)
    · exact Option.isSome_iff_exists.mp (T.name_isSome hcode)

theorem code_of_fresh {OP : OpTable} {s : String} (h : ARKADE_OP.lookup s = none) :
    code OP s = OP.code s := by rw [code, h]

/-- The names of the push opcodes have a lone push opcode for their byte. -/
def IsPush (x : Item) : Prop := ∃ p ∈ pushCodes, x = .op p.1

theorem code_push {p : String × UInt8} (hp : p ∈ pushCodes) :
    code T.toOpTable p.1 = some p.2 := by
  have hall : ∀ p ∈ pushCodes, ARKADE_OP.lookup p.1 = none := by decide
  rw [code_of_fresh (hall p hp), T.code_push p hp]

theorem not_push {s : String} {b : UInt8} (h : code T.toOpTable s = some b) :
    ¬IsPush (.op s) ↔ ¬(0 < b.toNat ∧ b.toNat ≤ PUSHDATA4) := by
  rw [not_iff_not]
  constructor
  · rintro ⟨p, hp, heq⟩
    cases heq
    rw [code_push hp] at h
    cases h
    have hall : ∀ p ∈ pushCodes, 0 < p.2.toNat ∧ p.2.toNat ≤ PUSHDATA4 := by decide
    exact hall p hp
  · rintro ⟨hpos, hle⟩
    rcases code_cases h with hmem | hcode
    · have hlarge : 0x60 < b.toNat := (arkade_laws _ hmem).2.1
      unfold PUSHDATA4 at hle
      omega
    · rcases T.code_range hcode with rfl | hge
      · exact absurd hpos (by decide)
      · exact ⟨_, T.mem_pushCodes hcode hge hle, rfl⟩

end

section

variable {T : AsmTable}

theorem encodeItem_code {OP : OpTable} {o : String} {bs : Bytes} :
    encodeItem OP (.op o) = .ok bs ↔ ∃ b, code OP o = some b ∧ bs = [b] := by
  rw [encodeItem]
  cases code OP o with
  | none => simp
  | some b => simp [eq_comm]

theorem encodeItem_number {OP : OpTable} {n : ℕ} (h : n ≤ 16) :
    encodeItem OP (.num n) = .ok [numberCode n] := by
  obtain ⟨-, -, -, -, hbytes⟩ := number_laws n (by omega)
  exact hbytes

theorem numberToken_unbroken {n : ℕ} (h : n ≤ 16) :
    numberToken n ≠ "" ∧ Unbroken (numberToken n) := by
  obtain ⟨hne, hunbroken, -⟩ := number_laws n (by omega)
  exact ⟨hne, fun c hc ↦ by simpa using List.all_eq_true.mp hunbroken c hc⟩

theorem code_number {n : ℕ} (h : n ≤ 16) :
    code T.toOpTable (numberToken n) = some (numberCode n) := by
  obtain ⟨-, -, -, hfresh, -⟩ := number_laws n (by omega)
  rw [code_of_fresh hfresh, T.code_number n h]

theorem negate_bytes : (BigNum.encode (-1) >>= push) = .ok [0x4f] := by decide

theorem code_negate : code T.toOpTable "1NEGATE" = some 0x4f := by
  rw [code_of_fresh (by decide), T.code_negate]

theorem number_of_startsWith {o : String} {b : UInt8} (h : code T.toOpTable o = some b)
    (hop : startsWith "OP_" o = true) : ∃ n ≤ 16, o = numberToken n := by
  rcases code_cases h with hmem | hcode
  · exact absurd hop (arkade_laws _ hmem).2.2.2
  · exact T.of_startsWith hcode hop

theorem spelled_of_code {o : String} {b : UInt8} (h : code T.toOpTable o = some b)
    (hop : ¬startsWith "OP_" o = true) : Spelled o := by
  rcases code_cases h with hmem | hcode
  · exact (arkade_laws _ hmem).2.2.1
  · exact T.spelled hcode hop

/-- A digit string of lower case is no opcode's name, and nothing that an object inherits. -/
theorem base16_not_inOps {o : Bytes} : inOps T.toOpTable (base16.encode o) = false := by
  rw [inOps, Bool.or_eq_false_iff]
  constructor
  · rw [Option.isSome_eq_false_iff, Option.isNone_iff_eq_none]
    cases hcode : code T.toOpTable (base16.encode o) with
    | none => rfl
    | some b =>
      have hspelled := spelled_of_code hcode (by rw [base16_not_op]; decide)
      obtain ⟨c, hmem, hupper⟩ := List.any_eq_true.mp hspelled.2.1
      rw [toList_base16] at hmem
      obtain ⟨n, hn, rfl⟩ := mem_encodeChars hmem
      have hall : ∀ n < 16, (digit n).isUpper = false := by decide
      rw [hall n hn] at hupper
      cases hupper
  · rw [Bool.eq_false_iff]
    intro hin
    have hall : Record.objectPrototype.all
        (·.toList.any fun c ↦ (digitValue c).isNone) = true := by decide
    obtain ⟨c, hmem, hnone⟩ := List.any_eq_true.mp
      (List.all_eq_true.mp hall _ (List.contains_iff_mem.mp hin))
    rw [toList_base16] at hmem
    obtain ⟨n, hn, rfl⟩ := mem_encodeChars hmem
    rw [digitValue_digit n hn] at hnone
    cases hnone

theorem hex_read {o : Bytes} (h : o ≠ []) :
    fromToken T.toOpTable (base16.encode o) = .ok (.data o) := by
  have hop := base16_not_op o
  have hne : ∀ s, base16.encode o ≠ "OP_" ++ s := by
    intro s heq
    rw [heq, startsWith_append] at hop
    cases hop
  have hnone : ¬(base16.encode o = "OP_0" ∨ base16.encode o = "OP_FALSE") :=
    not_or.mpr ⟨hne "0", hne "FALSE"⟩
  have htrue : base16.encode o ≠ "OP_TRUE" := hne "TRUE"
  have hmatch : numMatch (base16.encode o) = none := by rw [numMatch, hop]; rfl
  have hkey : opKey (base16.encode o) = base16.encode o := by rw [opKey, hop]; rfl
  rw [fromToken, if_neg hnone, if_neg htrue, hmatch, hkey, isHex_base16 h, if_pos rfl,
    base16.decode_encode]
  exact if_neg (by rw [base16_not_inOps]; decide)

/-- Every item but the empty push has a token, which is read as an item of the same bytes. -/
theorem token_read {x : Item} {bs : Bytes} (h : encodeItem T.toOpTable x = .ok bs)
    (hx : x ≠ .data []) : ∃ token, asmToken x = .ok token ∧ token ≠ "" ∧ Unbroken token ∧
      ∃ y, fromToken T.toOpTable token = .ok y ∧ encodeItem T.toOpTable y = .ok bs := by
  cases x with
  | op o =>
    obtain ⟨b, hcode, rfl⟩ := encodeItem_code.mp h
    by_cases hop : startsWith "OP_" o = true
    · obtain ⟨n, hn, rfl⟩ := number_of_startsWith hcode hop
      obtain ⟨hne, hunbroken⟩ := numberToken_unbroken hn
      rw [code_number hn] at hcode
      cases hcode
      exact ⟨_, by rw [asmToken, if_pos hop], hne, hunbroken, _, number_read hn,
        encodeItem_number hn⟩
    · have hspelled := spelled_of_code hcode hop
      refine ⟨_, by rw [asmToken, if_neg hop], by simp, ?_, _,
        name_read hspelled ?_, h⟩
      · exact hspelled.op_unbroken
      · rw [inOps, hcode]
        rfl
  | num n =>
    by_cases hsmall : 0 ≤ n ∧ n ≤ 16
    · obtain ⟨k, rfl⟩ := Int.eq_ofNat_of_zero_le hsmall.1
      have hk : k ≤ 16 := by omega
      obtain ⟨hne, hunbroken⟩ := numberToken_unbroken hk
      rw [encodeItem_number hk] at h
      cases h
      refine ⟨_, ?_, hne, hunbroken, _, number_read hk, encodeItem_number hk⟩
      rw [asmToken]
      split
      · rename_i hzero
        obtain rfl : k = 0 := by omega
        rfl
      · rw [if_pos (by omega)]
        rfl
    · by_cases hneg : n = -1
      · subst hneg
        have hspelled : Spelled "1NEGATE" := by
          decide
        refine ⟨"OP_1NEGATE", rfl, by decide, hspelled.op_unbroken, _, name_read hspelled ?_, ?_⟩
        · rw [inOps, code_negate]
          rfl
        · rw [← h, encodeItem_code.mpr ⟨_, code_negate, rfl⟩]
          exact negate_bytes.symm
      · obtain ⟨o, ho, hpush⟩ := bind_ok.mp h
        have hne : o ≠ [] := by
          rw [(BigNum.encode_ok.mp ho).1]
          exact ScriptNumber.encode_ne_nil (by omega)
        refine ⟨base16.encode o, ?_, fun he ↦ hne (base16.encode_eq_empty.mp he),
          base16_unbroken o, _, hex_read hne, hpush⟩
        rw [asmToken, if_neg (by omega), if_neg (by omega), if_neg hneg, ho]
        rfl
  | data o =>
    have hne : o ≠ [] := by
      rintro rfl
      exact hx rfl
    exact ⟨_, rfl, fun he ↦ hne (base16.encode_eq_empty.mp he), base16_unbroken o, _,
      hex_read hne, h⟩

/-- What is read of a script's text writes the bytes of the script without its empty pushes. -/
theorem asm_read {xs : List Item} {bs : Bytes} (h : encode T.toOpTable xs = .ok bs) :
    ∃ parts ys, xs.mapM asmToken = .ok parts ∧ (∀ token ∈ parts, Unbroken token) ∧
      (parts.filter (· ≠ "")).mapM (fromToken T.toOpTable) = .ok ys ∧
      encode T.toOpTable ys = encode T.toOpTable (xs.filter (· ≠ .data [])) := by
  induction xs generalizing bs with
  | nil => exact ⟨[], [], rfl, by simp, rfl, rfl⟩
  | cons x xs ih =>
    obtain ⟨head, hhead, h⟩ := bind_ok.mp h
    obtain ⟨tail, htail, -⟩ := bind_ok.mp h
    obtain ⟨parts, ys, hparts, hunbroken, hread, hbytes⟩ := ih htail
    by_cases hx : x = .data []
    · subst hx
      refine ⟨"" :: parts, ys, mapM_cons_ok.mpr ⟨_, rfl, parts, hparts, rfl⟩, ?_, ?_, ?_⟩
      · exact List.forall_mem_cons.mpr ⟨by simp [Unbroken], hunbroken⟩
      · rwa [List.filter_cons_of_neg (by simp)]
      · rw [List.filter_cons_of_neg (by simp), hbytes]
    · obtain ⟨token, htoken, hne, htext, y, hy, hsame⟩ := token_read hhead hx
      refine ⟨token :: parts, y :: ys, mapM_cons_ok.mpr ⟨_, htoken, parts, hparts, rfl⟩, ?_, ?_, ?_⟩
      · exact List.forall_mem_cons.mpr ⟨htext, hunbroken⟩
      · rw [List.filter_cons_of_pos (by simpa using hne)]
        exact mapM_cons_ok.mpr ⟨y, hy, ys, hread, rfl⟩
      · rw [List.filter_cons_of_pos (by simpa using hx)]
        simp only [encode] at hbytes
        simp only [encode, encodeWith, hsame, hhead, hbytes]

theorem toASM_read {xs : List Item} {bs cs : Bytes} (h : encode T.toOpTable xs = .ok bs)
    (hcs : encode T.toOpTable (xs.filter (· ≠ .data [])) = .ok cs) :
    (toASM xs >>= asmToBytes T.toOpTable) = .ok cs := by
  obtain ⟨parts, ys, hparts, hunbroken, hread, hbytes⟩ := asm_read h
  have hasm : toASM xs = .ok (String.intercalate " " parts) :=
    bind_ok.mpr ⟨parts, hparts, rfl⟩
  have hscript : fromASM T.toOpTable (String.intercalate " " parts) = .ok ys := by
    rw [fromASM, tokens_intercalate hunbroken, hread]
  exact bind_ok.mpr ⟨_, hasm, bind_ok.mpr ⟨ys, hscript, hbytes.trans hcs⟩⟩

theorem encode_filter {OP : OpTable} {xs : List Item} {bs : Bytes} (h : encode OP xs = .ok bs) :
    ∃ cs, encode OP (xs.filter (· ≠ .data [])) = .ok cs ∧
      cs.length + xs.count (.data []) = bs.length := by
  induction xs generalizing bs with
  | nil =>
    cases h
    exact ⟨[], rfl, rfl⟩
  | cons x xs ih =>
    obtain ⟨head, hhead, h⟩ := bind_ok.mp h
    obtain ⟨tail, htail, hbs⟩ := bind_ok.mp h
    cases hbs
    obtain ⟨cs, hcs, hlen⟩ := ih htail
    by_cases hx : x = .data []
    · subst hx
      cases hhead
      refine ⟨cs, by rwa [List.filter_cons_of_neg (by simp)], ?_⟩
      rw [List.count_cons_self, List.length_append, List.length_singleton]
      omega
    · refine ⟨head ++ cs, ?_, ?_⟩
      · rw [List.filter_cons_of_pos (by simpa using hx)]
        exact bind_ok.mpr ⟨head, hhead, bind_ok.mpr ⟨cs, hcs, rfl⟩⟩
      · rw [List.count_cons_of_ne (by simpa using hx), List.length_append, List.length_append]
        omega

theorem asm_kept_iff {xs : List Item} {bs : Bytes} (h : encode T.toOpTable xs = .ok bs) :
    (toASM xs >>= asmToBytes T.toOpTable) = .ok bs ↔ .data [] ∉ xs := by
  obtain ⟨cs, hcs, hlen⟩ := encode_filter h
  rw [toASM_read h hcs, Except.ok.injEq]
  constructor
  · rintro rfl
    exact List.count_eq_zero.mp (by omega)
  · intro hmem
    have hall : xs.filter (· ≠ .data []) = xs :=
      List.filter_eq_self.mpr fun x hx ↦ by
        simp only [ne_eq, decide_not, Bool.not_eq_true', decide_eq_false_iff_not]
        rintro rfl
        exact hmem hx
    rw [hall, h] at hcs
    exact (Except.ok.inj hcs).symm

end

section

variable {T : AsmTable}

theorem encodeItem_settleBytes {OP : OpTable} (o : Bytes) :
    encodeItem OP (settleBytes o) = push o ∧ settleBytes o ≠ .data [] := by
  match o with
  | [] => exact ⟨encodeItem_number (n := 0) (by omega), by simp [settleBytes]⟩
  | [b] =>
    simp only [settleBytes]
    split
    · rename_i hb
      refine ⟨?_, by simp⟩
      have hne : b.toNat ≠ 0 := by omega
      rw [encodeItem_number hb.2, push, if_pos hb, numberCode, if_neg hne]
    · split
      · rename_i hb
        subst hb
        exact ⟨negate_bytes, by simp⟩
      · exact ⟨rfl, by simp⟩
  | b :: b' :: o => exact ⟨rfl, by simp [settleBytes]⟩

theorem decodeOp_bytes {b : UInt8} {y : Item} (h : decodeOp T.toOpTable b = .ok y) :
    encodeItem T.toOpTable y = .ok [b] ∧ y ≠ .data [] := by
  unfold decodeOp at h
  split at h
  · rename_i hb
    cases h
    subst hb
    exact ⟨encodeItem_number (n := 0) (by omega), by simp⟩
  · split at h
    · rename_i hb
      cases h
      have hnum : (b.toNat : ℤ) - 0x50 = ((b.toNat - 0x50 : ℕ) : ℤ) := by omega
      have hne : b.toNat - 0x50 ≠ 0 := by omega
      have hadd : 0x50 + (b.toNat - 0x50) = b.toNat := by omega
      refine ⟨?_, by simp⟩
      rw [hnum, encodeItem_number (by omega), numberCode, if_neg hne, hadd, UInt8.ofNat_toNat]
    · split at h
      · rename_i hb
        cases h
        subst hb
        exact ⟨negate_bytes, by simp⟩
      · split at h
        · cases h
        · rename_i op hop
          cases h
          exact ⟨encodeItem_code.mpr ⟨b, code_of_name hop, rfl⟩, by simp⟩

theorem decodeOp_ok {s : String} {b : UInt8} (h : code T.toOpTable s = some b) :
    ∃ y, decodeOp T.toOpTable b = .ok y := by
  obtain ⟨o, ho⟩ := name_of_code h
  unfold decodeOp
  rw [ho]
  split
  · exact ⟨_, rfl⟩
  · split
    · exact ⟨_, rfl⟩
    · split <;> exact ⟨_, rfl⟩

/-- What the decoder makes of an item's bytes. -/
def reread (OP : OpTable) : Item → Item
  | .op o => match (code OP o).map (decodeOp OP) with
    | some (.ok y) => y
    | _ => .op o
  | x => settle x

theorem readBack_reread {x : Item} (h : ¬IsPush x) :
    ReadBack (decodeOp T.toOpTable) (encodeItem T.toOpTable) x (reread T.toOpTable x) := by
  cases x with
  | op o =>
    intro bs hbs
    obtain ⟨b, hcode, rfl⟩ := encodeItem_code.mp hbs
    obtain ⟨y, hy⟩ := decodeOp_ok hcode
    refine ⟨by simp, reads_op ((not_push hcode).mp h) ?_⟩
    rw [reread, hcode, Option.map_some, hy]
  | num n => exact readBack_settle (named_num n)
  | data o => exact readBack_settle (named_data o)

theorem encodeItem_reread {x : Item} {bs : Bytes} (h : encodeItem T.toOpTable x = .ok bs) :
    encodeItem T.toOpTable (reread T.toOpTable x) = .ok bs ∧ reread T.toOpTable x ≠ .data [] := by
  cases x with
  | op o =>
    obtain ⟨b, hcode, rfl⟩ := encodeItem_code.mp h
    obtain ⟨y, hy⟩ := decodeOp_ok hcode
    rw [reread, hcode, Option.map_some, hy]
    exact decodeOp_bytes hy
  | num n =>
    obtain ⟨o, ho, hpush⟩ := bind_ok.mp h
    obtain ⟨rfl, -⟩ := BigNum.encode_ok.mp ho
    rw [← hpush]
    exact encodeItem_settleBytes _
  | data o =>
    rw [← h]
    exact encodeItem_settleBytes o

theorem encode_reread {xs : List Item} {bs : Bytes} (h : encode T.toOpTable xs = .ok bs) :
    encode T.toOpTable (xs.map (reread T.toOpTable)) = .ok bs ∧
      .data [] ∉ xs.map (reread T.toOpTable) := by
  induction xs generalizing bs with
  | nil => exact ⟨h, by simp⟩
  | cons x xs ih =>
    obtain ⟨head, hhead, h⟩ := bind_ok.mp h
    obtain ⟨tail, htail, hbs⟩ := bind_ok.mp h
    obtain ⟨hfirst, hne⟩ := encodeItem_reread hhead
    obtain ⟨hrest, hnone⟩ := ih htail
    refine ⟨bind_ok.mpr ⟨head, hfirst, bind_ok.mpr ⟨tail, hrest, hbs⟩⟩, ?_⟩
    rw [List.map_cons, List.mem_cons, not_or]
    exact ⟨fun heq ↦ hne heq.symm, hnone⟩

theorem readItem_kind {decodeOp : UInt8 → Except Message Item} {s t : Bytes} {x : Item}
    (h : (readItem decodeOp).run s = .ok (x, t)) : (∃ o, x = .data o) ∨
      ∃ b : UInt8, ¬(0 < b.toNat ∧ b.toNat ≤ PUSHDATA4) ∧ decodeOp b = .ok x := by
  obtain ⟨b, u, -, h⟩ := run_bind_ok h
  split at h
  · obtain ⟨len, v, -, h⟩ := run_bind_ok h
    obtain ⟨o, w, -, h⟩ := run_bind_ok h
    exact .inl ⟨o, (run_pure_ok.mp h).1.symm⟩
  · rename_i hb
    exact .inr ⟨b, hb, (run_liftM_ok.mp h).1⟩

theorem decodeWith_kind {decodeOp : UInt8 → Except Message Item} {s : Bytes} {xs : List Item}
    (h : decodeWith decodeOp s = .ok xs) : ∀ x ∈ xs, (∃ o, x = .data o) ∨
      ∃ b : UInt8, ¬(0 < b.toNat ∧ b.toNat ≤ PUSHDATA4) ∧ decodeOp b = .ok x := by
  induction hn : s.length using Nat.strong_induction_on generalizing s xs with
  | _ n ih =>
    by_cases hs : s = []
    · subst hs
      rw [decodeWith_nil] at h
      cases h
      simp
    · obtain ⟨bs, t, x, ys, hne, rfl, hread, hys, rfl⟩ := decodeWith_cons_ok hs h
      have hpos := List.length_pos_iff.mpr hne
      exact List.forall_mem_cons.mpr ⟨readItem_kind (hread []),
        ih t.length (by rw [← hn, List.length_append]; omega) hys rfl⟩

theorem decode_not_push {s : Bytes} {xs : List Item} (h : decode T.toOpTable s = .ok xs) :
    ∀ x ∈ xs, ¬IsPush x := by
  rintro x hx ⟨p, hp, rfl⟩
  rcases decodeWith_kind h _ hx with ⟨o, ho⟩ | ⟨b, hb, hop⟩
  · cases ho
  · obtain ⟨b', hcode, heq⟩ := encodeItem_code.mp (decodeOp_bytes hop).1
    cases heq
    exact (not_push hcode).mpr hb ⟨p, hp, rfl⟩

theorem decode_kept {xs : List Item} {bs : Bytes} (hpush : ∀ x ∈ xs, ¬IsPush x)
    (h : encode T.toOpTable xs = .ok bs) :
    decode T.toOpTable bs = .ok (xs.map (reread T.toOpTable)) :=
  decodeWith_encodeWith (fun x hx ↦ readBack_reread (hpush x hx)) h

theorem bytes_kept_iff {bs : Bytes} :
    ((bytesToASM T.toOpTable bs >>= asmToBytes T.toOpTable) = .ok bs ∧
        (decode T.toOpTable bs >>= encode T.toOpTable) = .ok bs) ↔
      ∃ xs, (∀ x ∈ xs, ¬IsPush x) ∧ encode T.toOpTable xs = .ok bs := by
  constructor
  · rintro ⟨-, h⟩
    obtain ⟨xs, hxs, h⟩ := bind_ok.mp h
    exact ⟨xs, decode_not_push hxs, h⟩
  · rintro ⟨xs, hpush, h⟩
    have hdecode := decode_kept hpush h
    obtain ⟨hencode, hnone⟩ := encode_reread h
    have htext : bytesToASM T.toOpTable bs = toASM (xs.map (reread T.toOpTable)) := by
      rw [bytesToASM, hdecode]
      rfl
    rw [htext, hdecode]
    exact ⟨(asm_kept_iff hencode).mpr hnone, hencode⟩

end

/-- Text keeps the bytes of exactly the scripts without an empty push, whose text is empty; and
bytes are kept, through text and through items, where no lone push opcode was written. -/
theorem asm_keeps_bytes_iff (T : AsmTable) :
    (∀ script bytes, encode T.toOpTable script = .ok bytes →
      ((toASM script >>= asmToBytes T.toOpTable) = .ok bytes ↔ .data [] ∉ script)) ∧
    ∀ bytes, ((bytesToASM T.toOpTable bytes >>= asmToBytes T.toOpTable) = .ok bytes ∧
        (decode T.toOpTable bytes >>= encode T.toOpTable) = .ok bytes) ↔
      ∃ script, (∀ x ∈ script, ¬IsPush x) ∧ encode T.toOpTable script = .ok bytes :=
  ⟨fun _ _ ↦ asm_kept_iff, fun _ ↦ bytes_kept_iff⟩

def asmCodes : List (String × UInt8) :=
  (List.range 17).map (fun n ↦ (numberToken n, numberCode n)) ++ pushCodes ++
    [("1NEGATE", 0x4f), ("RESERVED", 0x50)] ++ standardCodes

theorem mem_asmCodes {s : String} {b : UInt8}
    (h : (asmCodes.find? (·.1 == s)).map (·.2) = some b) : (s, b) ∈ asmCodes := by
  obtain ⟨p, hp, rfl⟩ := Option.map_eq_some_iff.mp h
  obtain rfl : p.1 = s := by simpa using List.find?_some hp
  exact List.mem_of_find?_eq_some hp

theorem asmCodes_find : ∀ p ∈ asmCodes, (asmCodes.find? (·.1 == p.1)).map (·.2) = some p.2 ∧
    (asmCodes.find? (·.2 == p.2)).map (·.1) = some p.1 := by
  decide

theorem asmCodes_laws : ∀ p ∈ asmCodes, (p.2 = 0 ∨ PUSHDATA1 ≤ p.2.toNat) ∧
    (PUSHDATA1 ≤ p.2.toNat → p.2.toNat ≤ PUSHDATA4 → p ∈ pushCodes) ∧
    (startsWith "OP_" p.1 → ∃ n ≤ 16, p.1 = numberToken n) ∧
    (¬startsWith "OP_" p.1 → Spelled p.1) ∧ ARKADE_OP.lookup p.1 = none := by
  decide +kernel

/-- The numbers, the pushes and the opcodes named above, and no others. -/
def asmOps : AsmTable where
  code s := (asmCodes.find? (·.1 == s)).map (·.2)
  name b := (asmCodes.find? (·.2 == b)).map (·.1)
  name_code h _ := (asmCodes_find _ (mem_asmCodes h)).2
  standard p hp := (asmCodes_find p (by simp [asmCodes, hp])).1
  code_name {s b} h := by
    obtain ⟨p, hp, rfl⟩ := Option.map_eq_some_iff.mp h
    obtain rfl : p.2 = b := by simpa using List.find?_some hp
    exact (asmCodes_find p (List.mem_of_find?_eq_some hp)).1
  name_isSome h := by
    rw [(asmCodes_find _ (mem_asmCodes h)).2]
    rfl
  code_range h := (asmCodes_laws _ (mem_asmCodes h)).1
  mem_pushCodes h := (asmCodes_laws _ (mem_asmCodes h)).2.1
  code_push p hp := (asmCodes_find p (by simp [asmCodes, hp])).1
  code_negate := (asmCodes_find ("1NEGATE", 0x4f) (by simp [asmCodes])).1
  code_number n hn := (asmCodes_find (numberToken n, numberCode n) (by
    simp only [asmCodes, List.mem_append, List.mem_map, List.mem_range]
    exact .inl (.inl (.inl ⟨n, by omega, rfl⟩)))).1
  of_startsWith h := (asmCodes_laws _ (mem_asmCodes h)).2.2.1
  spelled h := (asmCodes_laws _ (mem_asmCodes h)).2.2.2.1
  fresh p hp := by
    rw [Option.map_eq_none_iff, List.find?_eq_none]
    intro q hq heq
    have hnone := (asmCodes_laws q hq).2.2.2.2
    rw [beq_iff_eq.mp heq, (arkade_laws p hp).1] at hnone
    cases hnone

/-- An opcode, a number with an opcode and one without, and a push. -/
def sampleScript : List Item := [.op "DUP", .num 16, .num 17, .data [0xab, 0xcd]]

theorem sample_kept :
    (toASM sampleScript >>= asmToBytes asmOps.toOpTable) =
      .ok [0x76, 0x60, 0x01, 0x11, 0x02, 0xab, 0xcd] :=
  ((asm_keeps_bytes_iff asmOps).1 sampleScript _ (by decide)).mpr (by decide)

/-- An empty push is dropped from the text, and a lone push opcode does not come back. -/
theorem empty_push_lost :
    encode asmOps.toOpTable [.data []] = .ok [0x00] ∧
      (toASM [.data []] >>= asmToBytes asmOps.toOpTable) = .ok [] ∧
      encode asmOps.toOpTable [.op "PUSHDATA1"] = .ok [0x4c] ∧
      (decode asmOps.toOpTable [0x4c] >>= encode asmOps.toOpTable) ≠ .ok [0x4c] := by
  decide +kernel

end ArkadeScript

end ArkadeSdk
