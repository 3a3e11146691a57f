import ArkadeSdk.Lib.HexCodec
import Mathlib.Data.UInt

/-! Names and values in the query of a link. -/

namespace UrlSearchParams

open HexCodec (digit digitValue)

/-- Bytes that stand for themselves. -/
def unreserved (b : UInt8) : Bool :=
  let c := Char.ofNat b.toNat
  c.isAlphanum || c ∈ ['*', '-', '.', '_']

def encodeByte (b : UInt8) : List Char :=
  if b = 32 then ['+']
  else if unreserved b then [Char.ofNat b.toNat]
  else ['%', (digit (b.toNat / 16)).toUpper, (digit (b.toNat % 16)).toUpper]

def encodeBytes (bs : List UInt8) : List Char := bs.flatMap encodeByte

def encode (s : String) : List Char := encodeBytes s.toByteArray.data.toList

def decodeChars : List Char → List UInt8
  | '%' :: c :: d :: cs =>
    match digitValue c, digitValue d with
    | some hi, some lo => UInt8.ofNat (16 * hi + lo) :: decodeChars cs
    | _, _ => 37 :: decodeChars (c :: d :: cs)
  | '+' :: cs => 32 :: decodeChars cs
  | c :: cs => String.utf8EncodeChar c ++ decodeChars cs
  | [] => []

/-- Bytes as text; `lossy` replaces what is no UTF-8. -/
def ofBytes (lossy : List UInt8 → String) (bs : List UInt8) : String :=
  if h : bs.toByteArray.IsValidUTF8 then .ofByteArray bs.toByteArray h else lossy bs

def decode (lossy : List UInt8 → String) (cs : List Char) : String := ofBytes lossy (decodeChars cs)

theorem forall_byte {P : UInt8 → Prop} (h : ∀ n < 256, P (UInt8.ofNat n)) (b : UInt8) : P b := by
  have hb := h b.toNat b.toNat_lt
  rwa [UInt8.ofNat_toNat] at hb

theorem digitValue_toUpper :
    ∀ n < 16, digitValue (digit n).toUpper = some n := by decide

theorem decodeChars_unreserved {b : UInt8} (h : unreserved b = true) (cs : List Char) :
    decodeChars (Char.ofNat b.toNat :: cs) = b :: decodeChars cs := by
  have hplain : ∀ b : UInt8, unreserved b = true → Char.ofNat b.toNat ≠ '%' ∧
      Char.ofNat b.toNat ≠ '+' ∧ String.utf8EncodeChar (Char.ofNat b.toNat) = [b] :=
    forall_byte (by decide +kernel)
  obtain ⟨hpercent, hplus, hutf⟩ := hplain b h
  rw [decodeChars, hutf]
  · rfl
  · intro c d cs' hc
    exact absurd hc hpercent
  · intro hc
    exact absurd hc hplus

theorem decodeChars_encodeByte (b : UInt8) (cs : List Char) :
    decodeChars (encodeByte b ++ cs) = b :: decodeChars cs := by
  unfold encodeByte
  split
  · next hb =>
    subst hb
    rfl
  · split
    · next hb => exact decodeChars_unreserved hb cs
    · have hb := b.toNat_lt
      have hsplit : 16 * (b.toNat / 16) + b.toNat % 16 = b.toNat := by omega
      simp only [List.cons_append, List.nil_append, decodeChars,
        digitValue_toUpper _ (by omega : b.toNat / 16 < 16),
        digitValue_toUpper _ (by omega : b.toNat % 16 < 16), hsplit, UInt8.ofNat_toNat]

theorem decodeChars_encodeBytes (bs : List UInt8) : decodeChars (encodeBytes bs) = bs := by
  induction bs with
  | nil => rfl
  | cons b bs ih =>
    have hcons : encodeBytes (b :: bs) = encodeByte b ++ encodeBytes bs := rfl
    rw [hcons, decodeChars_encodeByte, ih]

theorem decode_encode (lossy : List UInt8 → String) (s : String) :
    decode lossy (encode s) = s := by
  have hbytes : s.toByteArray.data.toList.toByteArray = s.toByteArray := by
    apply ByteArray.ext
    rw [List.data_toByteArray, Array.toArray_toList]
  rw [decode, encode, decodeChars_encodeBytes, ofBytes]
  simp only [hbytes]
  rw [dif_pos s.isValidUTF8]

/-- The characters that divide a query do not occur in an encoded text. -/
theorem encode_chars (s : String) : ∀ c ∈ encode s, c ∉ ['&', '=', '?'] := by
  have hdigit : ∀ n < 16, (digit n).toUpper ∉ ['&', '=', '?'] := by decide
  intro c hc
  obtain ⟨b, -, hb⟩ := List.mem_flatMap.mp hc
  have hlt := b.toNat_lt
  unfold encodeByte at hb
  split at hb
  · obtain rfl := List.mem_singleton.mp hb
    decide
  · split at hb
    · next hplain =>
      obtain rfl := List.mem_singleton.mp hb
      intro hmark
      simp only [List.mem_cons, List.not_mem_nil, or_false] at hmark
      rcases hmark with hmark | hmark | hmark <;>
      · simp only [unreserved, hmark] at hplain
        exact absurd hplain (by decide)
    · simp only [List.mem_cons, List.not_mem_nil, or_false] at hb
      rcases hb with rfl | rfl | rfl
      · decide
      · exact hdigit _ (by omega)
      · exact hdigit _ (by omega)

def pairChars (p : String × String) : List Char := encode p.1 ++ '=' :: encode p.2

/-- `params.toString()`. -/
def toChars (entries : List (String × String)) : List Char :=
  ['&'].intercalate (entries.map pairChars)

def ofPair (lossy : List UInt8 → String) (cs : List Char) : String × String :=
  (decode lossy (cs.takeWhile (· ≠ '=')), decode lossy ((cs.dropWhile (· ≠ '=')).drop 1))

/-- One question mark may stand before a query. -/
def stripMark : List Char → List Char
  | '?' :: cs => cs
  | cs => cs

/-- `new URLSearchParams(query).entries()`. -/
def ofChars (lossy : List UInt8 → String) (query : List Char) : List (String × String) :=
  (((stripMark query).splitOn '&').filter (· ≠ [])).map (ofPair lossy)

theorem ofPair_pairChars (lossy : List UInt8 → String) (p : String × String) :
    ofPair lossy (pairChars p) = p := by
  have hname : ∀ c ∈ encode p.1, (decide (c ≠ '=')) = true := by
    intro c hc
    have := encode_chars p.1 c hc
    simp only [List.mem_cons, not_or] at this
    simpa using this.2.1
  rw [ofPair, pairChars, List.takeWhile_append_of_pos hname, List.dropWhile_append_of_pos hname]
  simp [decode_encode]

theorem pairChars_chars (p : String × String) : ∀ c ∈ pairChars p, c ≠ '&' ∧ c ≠ '?' := by
  intro c hc
  rcases List.mem_append.mp hc with hc | hc
  · have := encode_chars p.1 c hc
    simp_all
  · rcases List.mem_cons.mp hc with rfl | hc
    · decide
    · have := encode_chars p.2 c hc
      simp_all

theorem toChars_chars (entries : List (String × String)) : ∀ c ∈ toChars entries, c ≠ '?' := by
  intro c hc
  induction entries with
  | nil => simp [toChars, List.intercalate] at hc
  | cons p l ih =>
    cases l with
    | nil =>
      have hsingle : toChars [p] = pairChars p := by simp [toChars, List.intercalate]
      exact (pairChars_chars p c (hsingle ▸ hc)).2
    | cons q l =>
      have hcons : toChars (p :: q :: l) = pairChars p ++ '&' :: toChars (q :: l) := by
        simp [toChars, List.intercalate]
      rw [hcons] at hc
      rcases List.mem_append.mp hc with hc | hc
      · exact (pairChars_chars p c hc).2
      · rcases List.mem_cons.mp hc with rfl | hc
        · decide
        · exact ih hc

theorem stripMark_toChars (entries : List (String × String)) :
    stripMark (toChars entries) = toChars entries := by
  unfold stripMark
  split
  · next cs hcs => exact absurd rfl (toChars_chars entries '?' (hcs ▸ List.mem_cons_self))
  · rfl

theorem ofChars_toChars (lossy : List UInt8 → String) (entries : List (String × String)) :
    ofChars lossy (toChars entries) = entries := by
  by_cases hnil : entries = []
  · subst hnil
    rfl
  · have hne : ∀ cs ∈ entries.map pairChars, decide (cs ≠ []) = true := by
      intro cs hcs
      obtain ⟨p, -, rfl⟩ := List.mem_map.mp hcs
      simp [pairChars]
    have hsplit : (toChars entries).splitOn '&' = entries.map pairChars := by
      apply List.splitOn_intercalate
      · intro cs hcs hmem
        obtain ⟨p, -, rfl⟩ := List.mem_map.mp hcs
        exact (pairChars_chars p _ hmem).1 rfl
      · simpa using hnil
    have hpair : ofPair lossy ∘ pairChars = id := funext (ofPair_pairChars lossy)
    rw [ofChars, stripMark_toChars, hsplit, List.filter_eq_self.mpr hne, List.map_map, hpair,
      List.map_id]

end UrlSearchParams
