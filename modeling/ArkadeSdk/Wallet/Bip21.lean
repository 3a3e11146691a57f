import ArkadeSdk.Lib.JsDate
import ArkadeSdk.Lib.NumberText
import ArkadeSdk.Lib.UrlSearchParams

/-! Payment links: `BIP21.create`, `BIP21.parse` and `BIP21.amountSats`. -/

namespace ArkadeSdk.BIP21

open JsNumber JsRecord

inductive ParamValue
  | undefined
  | text (s : String)
  | number (v : Number)
  deriving DecidableEq

abbrev BIP21Params := Record ParamValue

structure BIP21ParseResult where
  originalString : String
  params : BIP21Params

/-- `toLowerCase()` of a text of ASCII characters. -/
def toLowerCase (s : String) : String := String.ofList (s.toList.map Char.toLower)

def Number.text : Number → String
  | .nan => "NaN"
  | .posInf => "Infinity"
  | .negInf => "-Infinity"
  | .finite q => String.ofList (NumberText.text q)

/-- The nearest double. -/
def Number.round : Number → Number
  | .finite q => .finite (Double.ofRat q)
  | v => v

/-- `Number(s)`. -/
def readNumber (s : String) : Number := Number.round (JsCoercion.stringToNumber s)

/-- `isFinite(v) && Number.isSafeInteger(Math.trunc(v))`. -/
def safeAmount : Number → Bool
  | .finite q => (JsNumber.Number.trunc q).natAbs ≤ 2 ^ 53 - 1
  | _ => false

def arkFormat (s : String) : Bool := "ark".toList <+: s.toList || "tark".toList <+: s.toList

def spFormat (s : String) : Bool := "sp".toList <+: s.toList

/-- The checks of `create` on one parameter. -/
def included (key : String) (value : ParamValue) : Bool :=
  match value with
  | .undefined => false
  | .text s =>
    if key = "amount" then safeAmount (readNumber s) && !(readNumber s).lt (.finite 0)
    else if key = "ark" then arkFormat s
    else if key = "sp" then spFormat s
    else true
  | .number v =>
    if key = "amount" then safeAmount v && !v.lt (.finite 0)
    else key ≠ "ark" && key ≠ "sp"

/-- `String(v)`. -/
def ParamValue.print : ParamValue → String
  | .undefined => "undefined"
  | .text s => s
  | .number v => Number.text v

def queryParams (params : BIP21Params) : BIP21Params :=
  .ofEntries ((params.entries.filter (·.1 ≠ "address")).filter fun p ↦ included p.1 p.2)

def query (params : BIP21Params) : List Char :=
  let entries := (queryParams params).entries
  if entries = [] then []
  else '?' :: UrlSearchParams.toChars (entries.map fun p ↦ (p.1, p.2.print))

def notAFunction : Message := message "address.toLowerCase is not a function"

/-- The address of a link: nothing for a missing one. -/
def addressText (params : BIP21Params) : Except Message String :=
  match params.get "address" with
  | none | some .undefined => .ok ""
  | some (.text s) => .ok (toLowerCase s)
  | some (.number v) => if v = .nan ∨ v = .finite 0 then .ok "" else .error notAFunction

def create (params : BIP21Params) : Except Message String := do
  let address ← addressText params
  return String.ofList ("bitcoin:".toList ++ (address.toList ++ query params))

/-- `/^(?:\d+\.?\d*|\.\d+)$/`. -/
def amountPattern (cs : List Char) : Bool :=
  let whole := cs.takeWhile Char.isDigit
  match cs.dropWhile Char.isDigit with
  | [] => whole ≠ []
  | c :: rest => c = '.' && rest.all Char.isDigit && (whole ≠ [] || rest ≠ [])

/-- The checks of `parse` on one entry of the query. -/
def readParam (key value : String) : Option ParamValue :=
  if value = "" then none
  else if key = "amount" then
    if amountPattern value.toList && safeAmount (readNumber value) then
      some (.number (readNumber value))
    else none
  else if key = "ark" then if arkFormat value then some (.text value) else none
  else if key = "sp" then if spFormat value then some (.text value) else none
  else some (.text value)

def INVALID_URI : Message := message "Invalid BIP21 URI"

section

-- what decoding makes of bytes that are no text
variable (lossy : List UInt8 → String)

def readQuery (query : List Char) : List (String × ParamValue) :=
  (UrlSearchParams.ofChars lossy query).filterMap fun p ↦
    (readParam p.1 p.2).map fun v ↦ (p.1, v)

def addressParams (address : List Char) : BIP21Params :=
  if address = [] then .empty
  else Record.empty.set "address" (.text (toLowerCase (String.ofList address)))

def parse (uri : String) : Except Message BIP21ParseResult :=
  if "bitcoin:".toList <+: (toLowerCase uri).toList then
    let parts := (uri.toList.drop 8).splitOn '?'
    let entries := match parts[1]? with
      | none => []
      | some query => readQuery lossy query
    .ok { originalString := uri, params := (addressParams (parts.headD [])).spread entries }
  else .error INVALID_URI

/-- `Math.round(btc * 1e8)`. -/
def toSats : Number → Number
  | .finite q => .finite ⌊Double.ofRat (q * 10 ^ 8) + 1 / 2⌋
  | v => v

def amountSats (uri : String) : Option Number :=
  match parse lossy uri with
  | .error _ => none
  | .ok result =>
    match result.params.get "amount" with
    | some (.number btc) => some (toSats btc)
    | _ => none

/-- What becomes of a parameter in the query. -/
def carry (key : String) (value : ParamValue) : Option ParamValue :=
  if key ≠ "address" ∧ key ≠ "__proto__" ∧ included key value = true then
    readParam key value.print
  else none

/-- The entries of the query. -/
def written (params : BIP21Params) : List (String × ParamValue) :=
  params.entries.filter fun p ↦
    p.1 ≠ "address" && p.1 ≠ "__proto__" && included p.1 p.2

theorem entries_queryParams (params : BIP21Params) :
    (queryParams params).entries = written params := by
  have hordered : Ordered ((params.entries.filter (·.1 ≠ "address")).filter
      fun p ↦ included p.1 p.2) :=
    (params.ordered.sublist List.filter_sublist).sublist List.filter_sublist
  rw [queryParams, Record.entries_ofEntries_of_ordered hordered, List.filter_filter,
    List.filter_filter, written]
  congr 1
  funext p
  by_cases hp : p.1 = "address" <;> simp [hp]

theorem readQuery_written (params : BIP21Params) :
    readQuery lossy (UrlSearchParams.toChars ((written params).map fun p ↦ (p.1, p.2.print))) =
      params.entries.filterMap fun p ↦ (carry p.1 p.2).map fun v ↦ (p.1, v) := by
  rw [readQuery, UrlSearchParams.ofChars_toChars, List.filterMap_map, written,
    List.filterMap_filter]
  congr 1
  funext p
  unfold carry
  by_cases hp : p.1 ≠ "address" ∧ p.1 ≠ "__proto__" ∧ included p.1 p.2 = true
  · rw [if_pos hp, if_pos (by simpa [and_assoc] using hp)]
    rfl
  · rw [if_neg hp, if_neg (by simpa [and_assoc] using hp)]
    rfl

theorem alphanum_toLower {c : Char} (h : c.isAlphanum = true) :
    c.toLower ≠ '?' ∧ c.toLower.toLower = c.toLower := by
  have hlt : c.toNat < 128 := by
    have hrange : (decide (c.val ≥ 'A'.val ∧ c.val ≤ 'Z'.val) ||
        decide (c.val ≥ 'a'.val) && decide (c.val ≤ 'z'.val) ||
        decide (c.val ≥ '0'.val) && decide (c.val ≤ '9'.val)) = true := h
    simp only [Bool.or_eq_true, Bool.and_eq_true, decide_eq_true_eq,
      UInt32.le_iff_toNat_le] at hrange
    have : c.toNat = c.val.toNat := rfl
    rcases hrange with (h | h) | h <;> simp at h <;> omega
  have hall : ∀ n < 128, (Char.ofNat n).isAlphanum = true → (Char.ofNat n).toLower ≠ '?' ∧
      (Char.ofNat n).toLower.toLower = (Char.ofNat n).toLower := by decide +kernel
  have hc := hall c.toNat hlt
  rw [Char.ofNat_toNat] at hc
  exact hc h

/-- The link is cut at the question mark that `create` put there. -/
theorem splitOn_link {address : List Char} (h : ∀ c ∈ address, c ≠ '?') (params : BIP21Params) :
    (address ++ query params).splitOn '?' = address ::
      if written params = [] then []
      else [UrlSearchParams.toChars ((written params).map fun p ↦ (p.1, p.2.print))] := by
  have hquery : query params = if written params = [] then []
      else '?' :: UrlSearchParams.toChars ((written params).map fun p ↦ (p.1, p.2.print)) := by
    rw [query, entries_queryParams]
  rw [hquery]
  by_cases hnil : written params = []
  · rw [if_pos hnil, if_pos hnil, List.append_nil]
    have hsplit : (['?'].intercalate [address]).splitOn '?' = [address] :=
      List.splitOn_intercalate '?' (by simpa using fun hc ↦ h _ hc rfl) (by simp)
    simpa [List.intercalate] using hsplit
  · rw [if_neg hnil, if_neg hnil]
    generalize hentries : (written params).map (fun p ↦ (p.1, p.2.print)) = entries
    have hmarks : ∀ cs ∈ [address, UrlSearchParams.toChars entries], '?' ∉ cs := by
      intro cs hcs hmem
      simp only [List.mem_cons, List.not_mem_nil, or_false] at hcs
      rcases hcs with rfl | rfl
      · exact h _ hmem rfl
      · exact UrlSearchParams.toChars_chars _ _ hmem rfl
    have hsplit := List.splitOn_intercalate '?' hmarks (by simp)
    simpa [List.intercalate] using hsplit

/-- What `create` writes for an address. -/
def link (address : String) (params : BIP21Params) : String :=
  String.ofList ("bitcoin:".toList ++ ((toLowerCase address).toList ++ query params))

theorem create_eq {params : BIP21Params} {address : String}
    (haddress : params.get "address" = some (.text address)) :
    create params = .ok (link address params) := by
  rw [create, addressText, haddress]
  rfl

theorem lower_chars {address : String} (h : ∀ c ∈ address.toList, c.isAlphanum = true) :
    (∀ c ∈ (toLowerCase address).toList, c ≠ '?') ∧
      toLowerCase (toLowerCase address) = toLowerCase address := by
  have hlower : (toLowerCase address).toList = address.toList.map Char.toLower :=
    String.toList_ofList
  constructor
  · intro c hc
    rw [hlower] at hc
    obtain ⟨d, hd, rfl⟩ := List.mem_map.mp hc
    exact (alphanum_toLower (h d hd)).1
  · rw [toLowerCase, hlower, toLowerCase, List.map_map]
    congr 1
    exact List.map_congr_left fun c hc ↦ (alphanum_toLower (h c hc)).2

theorem parse_link {address : String} (hne : address ≠ "")
    (halphanum : ∀ c ∈ address.toList, c.isAlphanum = true) (params : BIP21Params) :
    parse lossy (link address params) = .ok {
      originalString := link address params
      params := (Record.empty.set "address" (.text (toLowerCase address))).spread
        (params.entries.filterMap fun p ↦ (carry p.1 p.2).map fun v ↦ (p.1, v)) } := by
  obtain ⟨hchars, hagain⟩ := lower_chars halphanum
  have hcons : (toLowerCase address).toList ≠ [] := by
    simpa [toLowerCase] using hne
  have hlink : (link address params).toList =
      "bitcoin:".toList ++ ((toLowerCase address).toList ++ query params) := String.toList_ofList
  have hlower : "bitcoin:".toList.map Char.toLower = "bitcoin:".toList := by decide
  have hlength : "bitcoin:".toList.length = 8 := by decide
  have hscheme : "bitcoin:".toList <+: (toLowerCase (link address params)).toList := by
    have htext : (toLowerCase (link address params)).toList =
        (link address params).toList.map Char.toLower := String.toList_ofList
    refine ⟨((toLowerCase address).toList ++ query params).map Char.toLower, ?_⟩
    refine .trans ?_ (htext.trans (congrArg _ hlink)).symm
    exact .trans (congrArg (· ++ _) hlower.symm) List.map_append.symm
  have hdrop : (link address params).toList.drop 8 =
      (toLowerCase address).toList ++ query params :=
    (congrArg _ hlink).trans (List.drop_left' hlength)
  have hparams : addressParams (toLowerCase address).toList =
      Record.empty.set "address" (.text (toLowerCase address)) := by
    rw [addressParams, if_neg hcons, String.ofList_toList, hagain]
  rw [parse, if_pos hscheme, hdrop, splitOn_link hchars, ← readQuery_written lossy]
  simp only [List.headD_cons, hparams]
  by_cases hnil : written params = []
  · rw [if_pos hnil, hnil]
    rfl
  · rw [if_neg hnil]
    rfl

theorem get_parse_create {params : BIP21Params} {address : String}
    (haddress : params.get "address" = some (.text address)) (hne : address ≠ "")
    (halphanum : ∀ c ∈ address.toList, c.isAlphanum = true) :
    ∃ uri result, create params = .ok uri ∧ parse lossy uri = .ok result ∧
      ∀ k, result.params.get k = ((params.get k).bind (carry k)).or
        (if k = "address" then some (.text (toLowerCase address)) else none) := by
  refine ⟨_, _, create_eq haddress, parse_link lossy hne halphanum params, fun k ↦ ?_⟩
  have hordered := Ordered.filterMap params.ordered carry
  have hproto : "__proto__" ∉ (params.entries.filterMap fun p ↦
      (carry p.1 p.2).map fun v ↦ (p.1, v)).map Prod.fst := by
    intro hmem
    obtain ⟨_, hq, hp⟩ := List.mem_map.mp hmem
    obtain ⟨p, -, hq⟩ := List.mem_filterMap.mp hq
    obtain ⟨v, hv, rfl⟩ := Option.map_eq_some_iff.mp hq
    rw [carry, if_neg fun h ↦ h.2.1 hp] at hv
    cases hv
  dsimp only
  rw [Record.get_spread (Ordered.nodup hordered) hproto, lookup_filterMap params.ordered carry k,
    Record.get_set (by decide)]
  rfl

theorem amountPattern_chars {cs : List Char} (h : amountPattern cs = true) :
    ∀ c ∈ cs, c.isDigit = true ∨ c = '.' := by
  intro c hc
  rw [← List.takeWhile_append_dropWhile (p := Char.isDigit) (l := cs)] at hc
  rcases List.mem_append.mp hc with hc | hc
  · exact .inl (List.mem_takeWhile_imp hc)
  · unfold amountPattern at h
    dsimp only at h
    split at h
    · next hnil =>
      rw [hnil] at hc
      cases hc
    · next d ds hcons =>
      rw [hcons] at hc
      simp only [Bool.and_eq_true, decide_eq_true_eq, List.all_eq_true] at h
      rcases List.mem_cons.mp hc with rfl | hc
      · exact .inr h.1.1
      · exact .inl (h.1.2 c hc)

open NumberText in
theorem amountPattern_plain {cs : List Char} {q : ℚ} (h : Plain cs q) :
    amountPattern cs = true := by
  obtain ⟨whole, fraction, hne, hlt, rfl, -⟩ := h
  have hdigit : ∀ d < 10, (HexCodec.digit d).isDigit = true := by decide
  have hwhole : ∀ c ∈ whole.map HexCodec.digit, c.isDigit = true := by
    intro c hc
    obtain ⟨d, hd, rfl⟩ := List.mem_map.mp hc
    exact hdigit d (hlt d (List.mem_append_left _ hd))
  have hmap : whole.map HexCodec.digit ≠ [] := by simpa using hne
  rw [amountPattern, plainText, List.takeWhile_append_of_pos hwhole,
    List.dropWhile_append_of_pos hwhole]
  cases fraction with
  | nil => simp [pointed, hne]
  | cons d ds =>
    have hall : ∀ c ∈ (d :: ds).map HexCodec.digit, c.isDigit = true := by
      intro c hc
      obtain ⟨e, he, rfl⟩ := List.mem_map.mp hc
      exact hdigit e (hlt e (List.mem_append_right _ he))
    have htake : (pointed (d :: ds)).takeWhile Char.isDigit = [] := rfl
    have hdrop : (pointed (d :: ds)).dropWhile Char.isDigit =
      '.' :: (d :: ds).map HexCodec.digit := rfl
    rw [htake, hdrop, List.append_nil]
    simp only [decide_true, Bool.true_and, List.all_eq_true.mpr hall, Bool.true_and,
      decide_eq_true hmap, Bool.true_or]

/-- The amount in bitcoin for some satoshis. -/
def bitcoin (n : ℕ) : ℚ := Double.ofRat (n / 10 ^ 8)

theorem bitcoin_bounds {n : ℕ} (hn : n ≤ 21 * 10 ^ 14) :
    0 ≤ bitcoin n ∧ bitcoin n < 2 ^ 52 := by
  have hn' : (n : ℚ) ≤ 21 * 10 ^ 14 := by exact_mod_cast hn
  have hzero : (0 : ℚ) ≤ n / 10 ^ 8 := div_nonneg (Nat.cast_nonneg n) (by norm_num)
  obtain ⟨hlow, hhigh⟩ := Double.ofRat_bounds hzero
  refine ⟨Double.ofRat_nonneg hzero, lt_of_le_of_lt hhigh ?_⟩
  linarith

theorem safeAmount_finite {q : ℚ} (hzero : 0 ≤ q) (h : q < 2 ^ 52) :
    safeAmount (.finite q) = true := by
  have htrunc := JsDate.abs_trunc_le q
  rw [abs_of_nonneg hzero] at htrunc
  have hlt : |Number.trunc q| < 2 ^ 52 := by
    have hcast : ((|Number.trunc q| : ℤ) : ℚ) < 2 ^ 52 := by
      push_cast
      exact lt_of_le_of_lt htrunc h
    exact_mod_cast hcast
  obtain ⟨hlow, hhigh⟩ := abs_lt.mp hlt
  rw [safeAmount, decide_eq_true_eq]
  omega

/-- Nothing, and amounts from a millionth of a bitcoin on, are printed without an exponent. -/
theorem plain_bitcoin {n : ℕ} (hn : n ≤ 21 * 10 ^ 14) (h : ¬(1 ≤ n ∧ n ≤ 99)) :
    NumberText.Plain (NumberText.text (bitcoin n)) (n / 10 ^ 8) := by
  have hvalue : NumberText.value n (-8) = n / 10 ^ 8 := by
    rw [NumberText.value, zpow_neg, div_eq_mul_inv]
    norm_cast
  by_cases hzero : n = 0
  · subst hzero
    refine ⟨[0], [], by simp, by decide, ?_, by simp⟩
    rw [bitcoin, Nat.cast_zero, zero_div, Double.ofRat_zero]
    rfl
  · have hlow : (100 : ℚ) ≤ n := by exact_mod_cast (by omega : 100 ≤ n)
    have hhigh : (n : ℚ) ≤ 21 * 10 ^ 14 := by exact_mod_cast hn
    rw [bitcoin, ← hvalue]
    refine NumberText.plain_text (by omega) hn ?_ ?_
    · rw [hvalue]
      linarith
    · rw [hvalue]
      linarith

theorem exponent_bitcoin {n : ℕ} (hn : 1 ≤ n) (hn' : n ≤ 99) :
    'e' ∈ NumberText.text (bitcoin n) := by
  have hvalue : NumberText.value n (-8) = n / 10 ^ 8 := by
    rw [NumberText.value, zpow_neg, div_eq_mul_inv]
    norm_cast
  have hhigh : (n : ℚ) ≤ 99 := by exact_mod_cast hn'
  rw [bitcoin, ← hvalue]
  refine NumberText.exponent_text (by omega) (by omega) ?_
  rw [hvalue]
  linarith

theorem carry_amount {n : ℕ} (hn : n ≤ 21 * 10 ^ 14) :
    carry "amount" (.number (.finite (bitcoin n))) =
      if 1 ≤ n ∧ n ≤ 99 then none else some (.number (.finite (bitcoin n))) := by
  obtain ⟨hzero, hlt⟩ := bitcoin_bounds hn
  have hsafe := safeAmount_finite hzero hlt
  have hincluded : included "amount" (.number (.finite (bitcoin n))) = true := by
    simp [included, hsafe, hzero]
  have hcarry : carry "amount" (.number (.finite (bitcoin n))) =
      readParam "amount" (String.ofList (NumberText.text (bitcoin n))) := by
    rw [carry, if_pos ⟨by decide, by decide, hincluded⟩]
    rfl
  rw [hcarry, readParam]
  by_cases h : 1 ≤ n ∧ n ≤ 99
  · have hpattern : amountPattern (NumberText.text (bitcoin n)) = false := by
      refine Bool.eq_false_iff.mpr fun hpattern ↦ ?_
      rcases amountPattern_chars hpattern 'e' (exponent_bitcoin h.1 h.2) with he | he
      · exact absurd he (by decide)
      · exact absurd he (by decide)
    rw [if_pos h, if_pos rfl, String.toList_ofList, hpattern]
    simp
  · have hplain := plain_bitcoin hn h
    have hn' : (n : ℚ) ≤ 21 * 10 ^ 14 := by exact_mod_cast hn
    have hread : readNumber (String.ofList (NumberText.text (bitcoin n))) =
        .finite (bitcoin n) := by
      rw [readNumber, hplain.stringToNumber,
        JsCoercion.ofRat_eq_finite (by positivity) (by linarith)]
      rfl
    have hnil : String.ofList (NumberText.text (bitcoin n)) ≠ "" := by
      obtain ⟨whole, fraction, hne, -, htext, -⟩ := hplain
      simp [htext, NumberText.plainText, hne]
    rw [if_neg h, if_neg hnil, if_pos rfl, String.toList_ofList, amountPattern_plain hplain, hread,
      hsafe]
    rfl

theorem toSats_bitcoin {n : ℕ} (hn : n ≤ 21 * 10 ^ 14) :
    toSats (.finite (bitcoin n)) = .finite n := by
  rw [toSats, bitcoin, Double.round_mul_div (by norm_num) hn, Int.cast_natCast]

structure Payment (params : BIP21Params) (address : String) (n : ℕ) : Prop where
  paid : params.get "address" = some (.text address)
  nonempty : address ≠ ""
  alphanumeric : ∀ c ∈ address.toList, c.isAlphanum = true
  amount : params.get "amount" = some (.number (.finite (bitcoin n)))
  supply : n ≤ 21 * 10 ^ 14
  ark : ∀ v, params.get "ark" = some v → ∃ s, v = .text s ∧ arkFormat s = true
  sp : ∀ v, params.get "sp" = some v → ∃ s, v = .text s ∧ spFormat s = true
  others : ∀ k v, k ∉ ["address", "amount", "ark", "sp"] → params.get k = some v →
    ∃ s, v = .text s ∧ s ≠ ""

/-- The link carries the payment unchanged. -/
def RoundTrip (params : BIP21Params) (n : ℕ) : Prop :=
  ∃ uri result, create params = .ok uri ∧ parse lossy uri = .ok result ∧
    (∀ k ≠ "amount", result.params.get k = params.get k) ∧
    amountSats lossy uri = some (.finite n)

variable {params : BIP21Params} {address : String} {n : ℕ}

theorem Payment.carried (h : Payment params address n) {k : String} (haddress : k ≠ "address")
    (hamount : k ≠ "amount") (hproto : k ≠ "__proto__") :
    (params.get k).bind (carry k) = params.get k := by
  cases hget : params.get k with
  | none => rfl
  | some v =>
    rw [Option.bind_some]
    by_cases hark : k = "ark"
    · subst hark
      obtain ⟨s, rfl, hs⟩ := h.ark v hget
      have hne : s ≠ "" := by
        rintro rfl
        exact absurd hs (by decide)
      simp [carry, included, readParam, ParamValue.print, hs, hne]
    · by_cases hsp : k = "sp"
      · subst hsp
        obtain ⟨s, rfl, hs⟩ := h.sp v hget
        have hne : s ≠ "" := by
          rintro rfl
          exact absurd hs (by decide)
        simp [carry, included, readParam, ParamValue.print, hs, hne]
      · obtain ⟨s, rfl, hs⟩ := h.others k v (by simp [haddress, hamount, hark, hsp]) hget
        simp [carry, included, readParam, ParamValue.print, hs, haddress, hamount, hark, hsp,
          hproto]

theorem Payment.parsed (h : Payment params address n) :
    ∃ uri result, create params = .ok uri ∧ parse lossy uri = .ok result ∧
      result.params.get "address" = some (.text (toLowerCase address)) ∧
      result.params.get "__proto__" = none ∧
      (∀ k, k ≠ "address" → k ≠ "amount" → k ≠ "__proto__" →
        result.params.get k = params.get k) ∧
      amountSats lossy uri = if 1 ≤ n ∧ n ≤ 99 then none else some (.finite n) := by
  obtain ⟨uri, result, hcreate, hparse, hget⟩ :=
    get_parse_create lossy h.paid h.nonempty h.alphanumeric
  refine ⟨uri, result, hcreate, hparse, ?_, ?_, ?_, ?_⟩
  · rw [hget, h.paid, Option.bind_some, carry, if_neg fun h ↦ h.1 rfl, if_pos rfl]
    rfl
  · rw [hget, if_neg (by decide), Option.or_none, Option.bind_eq_none_iff]
    intro v _
    rw [carry, if_neg fun h ↦ h.2.1 rfl]
  · intro k haddress hamount hproto
    rw [hget, if_neg haddress, Option.or_none, h.carried haddress hamount hproto]
  · have hamount : result.params.get "amount" =
        if 1 ≤ n ∧ n ≤ 99 then none else some (.number (.finite (bitcoin n))) := by
      rw [hget, if_neg (by decide), Option.or_none, h.amount, Option.bind_some,
        carry_amount h.supply]
    rw [amountSats, hparse]
    dsimp only
    rw [hamount]
    by_cases hn : 1 ≤ n ∧ n ≤ 99
    · rw [if_pos hn, if_pos hn]
    · rw [if_neg hn, if_neg hn]
      exact congrArg some (toSats_bitcoin h.supply)

/-- A payment is carried unchanged exactly when its address has no capital letter, its amount is
printed without an exponent, and no parameter takes the name of an object's prototype. -/
theorem roundTrip_iff (h : Payment params address n) :
    RoundTrip lossy params n ↔
      toLowerCase address = address ∧ ¬(1 ≤ n ∧ n ≤ 99) ∧ params.get "__proto__" = none := by
  obtain ⟨uri, result, hcreate, hparse, haddress, hproto, hothers, hamount⟩ := h.parsed lossy
  constructor
  · rintro ⟨uri', result', hcreate', hparse', hget, hsats⟩
    obtain rfl := Except.ok.inj (hcreate.symm.trans hcreate')
    obtain rfl := Except.ok.inj (hparse.symm.trans hparse')
    refine ⟨?_, ?_, ?_⟩
    · have hlower := haddress.symm.trans ((hget "address" (by decide)).trans h.paid)
      simpa using hlower
    · intro hn
      rw [hamount, if_pos hn] at hsats
      cases hsats
    · exact (hget "__proto__" (by decide)).symm.trans hproto
  · rintro ⟨hlower, hn, hnone⟩
    refine ⟨uri, result, hcreate, hparse, fun k hk ↦ ?_, by rw [hamount, if_neg hn]⟩
    by_cases hk₁ : k = "address"
    · rw [hk₁, haddress, hlower, h.paid]
    · by_cases hk₂ : k = "__proto__"
      · rw [hk₂, hproto, hnone]
      · exact hothers k hk₁ hk hk₂

end

/-- An address, an amount and one more parameter. -/
def labelled (address : String) (n : ℕ) (label : String) : BIP21Params where
  entries := [("address", .text address), ("amount", .number (.finite (bitcoin n))),
    ("label", .text label)]
  ordered := by
    have hkeys : ["address", "amount", "label"].Pairwise Before := by decide +kernel
    exact List.pairwise_map.mp (show (List.map Prod.fst [_, _, _]).Pairwise Before from hkeys)

theorem payment_labelled {address label : String} {n : ℕ} (hne : address ≠ "")
    (halphanum : ∀ c ∈ address.toList, c.isAlphanum = true) (hn : n ≤ 21 * 10 ^ 14)
    (hlabel : label ≠ "") : Payment (labelled address n label) address n where
  paid := rfl
  nonempty := hne
  alphanumeric := halphanum
  amount := rfl
  supply := hn
  ark v hv := by cases hv
  sp v hv := by cases hv
  others k v hk hv := by
    simp only [List.mem_cons, List.not_mem_nil, or_false, not_or] at hk
    simp only [labelled, Record.get, lookup_cons_eq_ite, if_neg hk.1, if_neg hk.2.1] at hv
    split at hv
    · obtain rfl := Option.some.inj hv
      exact ⟨label, rfl, hlabel⟩
    · cases hv

/-- A link with a bech32 address and a label of reserved characters. -/
theorem roundTrip_bech32 : RoundTrip (fun _ ↦ "")
    (labelled "bc1qw508d6qejxtdg4y5r3zarvary0c5xw7kv8f3t4" 150000 "50% off? a=b&c + d") 150000 :=
  (roundTrip_iff _ (payment_labelled (by simp) (by simp) (by norm_num) (by simp))).mpr
    ⟨by simp [toLowerCase], by omega, rfl⟩

/-- A legacy address is put in lower case, and an amount below a hundred satoshis is dropped. -/
theorem legacy_or_small_altered :
    (Payment (labelled "1BvBMSEYstWetqTFn5Au4m4GFg7xJaNVN2" 150000 "rent")
        "1BvBMSEYstWetqTFn5Au4m4GFg7xJaNVN2" 150000 ∧
      ¬RoundTrip (fun _ ↦ "") (labelled "1BvBMSEYstWetqTFn5Au4m4GFg7xJaNVN2" 150000 "rent")
        150000) ∧
    Payment (labelled "bc1qw508d6qejxtdg4y5r3zarvary0c5xw7kv8f3t4" 50 "tip")
        "bc1qw508d6qejxtdg4y5r3zarvary0c5xw7kv8f3t4" 50 ∧
      ¬RoundTrip (fun _ ↦ "") (labelled "bc1qw508d6qejxtdg4y5r3zarvary0c5xw7kv8f3t4" 50 "tip")
        50 := by
  have hlegacy : Payment (labelled "1BvBMSEYstWetqTFn5Au4m4GFg7xJaNVN2" 150000 "rent")
      "1BvBMSEYstWetqTFn5Au4m4GFg7xJaNVN2" 150000 :=
    payment_labelled (by simp) (by simp) (by norm_num) (by simp)
  have hsmall : Payment (labelled "bc1qw508d6qejxtdg4y5r3zarvary0c5xw7kv8f3t4" 50 "tip")
      "bc1qw508d6qejxtdg4y5r3zarvary0c5xw7kv8f3t4" 50 :=
    payment_labelled (by simp) (by simp) (by norm_num) (by simp)
  refine ⟨⟨hlegacy, ?_⟩, hsmall, ?_⟩
  · rintro ⟨uri, result, hcreate, hparse, hget, -⟩
    obtain ⟨uri', result', hcreate', hparse', haddress, -⟩ := hlegacy.parsed fun _ ↦ ""
    obtain rfl := Except.ok.inj (hcreate.symm.trans hcreate')
    obtain rfl := Except.ok.inj (hparse.symm.trans hparse')
    have hlower := haddress.symm.trans ((hget "address" (by decide)).trans hlegacy.paid)
    exact absurd (ParamValue.text.inj (Option.some.inj hlower)) (by simp [toLowerCase])
  · rintro ⟨uri, result, hcreate, hparse, -, hsats⟩
    obtain ⟨uri', result', hcreate', -, -, -, -, hamount⟩ := hsmall.parsed fun _ ↦ ""
    obtain rfl := Except.ok.inj (hcreate.symm.trans hcreate')
    rw [hamount, if_pos (by omega)] at hsats
    cases hsats

end ArkadeSdk.BIP21
