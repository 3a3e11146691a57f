import ArkadeSdk.Lib.Distinct
import ArkadeSdk.Lib.JsMap
import ArkadeSdk.Lib.Paging
import ArkadeSdk.Wallet.CanonicalVtxo

/-! The batched queries of the indexer: which scripts were ever used, and every output of a list
of scripts. -/

namespace ArkadeSdk.ScriptProbe

open WireFormat CanonicalVtxo Paging

def DEFAULT_PAGE_SIZE : ℕ := 500

def SCRIPT_QUERY_CHUNK_SIZE : ℕ := 32

structure VtxoFilters where
  spendableOnly : Option Bool
  spentOnly : Option Bool
  recoverableOnly : Option Bool
  pendingOnly : Option Bool
  renewableOnly : Option Bool
  after : Option ℕ
  before : Option ℕ

def VtxoFilters.none : VtxoFilters :=
  ⟨Option.none, Option.none, Option.none, Option.none, Option.none, Option.none, Option.none⟩

structure GetVtxosOptions where
  filters : VtxoFilters
  scripts : List String
  pageIndex : ℕ
  pageSize : ℕ

/-- Everything a script query can filter on, without the cursor. -/
structure VtxoScriptQuery where
  filters : VtxoFilters := .none
  pageSize : Option ℕ := Option.none

structure PageResponse where
  current : ℕ
  next : ℕ
  total : ℕ

structure VtxosResponse where
  vtxos : List VirtualCoin
  page : Option PageResponse

abbrev IndexerProvider := GetVtxosOptions → Except String VtxosResponse

section Queries

variable (parseDate : String → JsDate.Date) (getVtxos : IndexerProvider)

def getNormalizedVtxos (opts : GetVtxosOptions) :
    Except String (List NormalizedVirtualCoin × Option PageResponse) := do
  let response ← getVtxos opts
  return (response.vtxos.map (normalizeVtxo parseDate), response.page)

/-- A response without page metadata is treated as unpaged. -/
def fetchPage (filters : VtxoFilters) (scripts : List String) (pageSize pageIndex : ℕ) :
    Except String (Page NormalizedVirtualCoin) := do
  let (vtxos, page) ← getNormalizedVtxos parseDate getVtxos ⟨filters, scripts, pageIndex, pageSize⟩
  return ⟨vtxos, page.isSome⟩

/-- The scripts of a chunk that no output was seen for, and those used so far. -/
structure Probe where
  remaining : List String
  used : List String

def Probe.visit (p : Probe) (vtxo : NormalizedVirtualCoin) : Probe :=
  if vtxo.script ∈ p.remaining then
    ⟨p.remaining.erase vtxo.script, Distinct.add id p.used vtxo.script⟩
  else p

def probeChunk (fuel : ℕ) (used scripts : List String) : Except (Stop String) (List String) :=
  Probe.used <$> readWhile
    (fetchPage parseDate getVtxos .none scripts DEFAULT_PAGE_SIZE)
    (fun p ↦ 0 < p.remaining.length) Probe.visit DEFAULT_PAGE_SIZE fuel 0
    ⟨Distinct.addAll id [] scripts, used⟩

/-- `fuel` bounds the requests that one chunk makes. -/
def detectUsedScripts (fuel : ℕ) (scriptHexes : List String) :
    Except (Stop String) (List String) :=
  let unique := Distinct.addAll id [] scriptHexes
  (slices SCRIPT_QUERY_CHUNK_SIZE unique).foldlM (probeChunk parseDate getVtxos fuel) []

def getAllNormalizedVtxos (fuel : ℕ) (scripts : List String) (opts : VtxoScriptQuery) :
    Except (Stop String) (List NormalizedVirtualCoin) :=
  let pageSize := opts.pageSize.getD DEFAULT_PAGE_SIZE
  (slices SCRIPT_QUERY_CHUNK_SIZE scripts).foldlM (fun all chunk ↦
    readWhile (fetchPage parseDate getVtxos opts.filters chunk pageSize) (fun _ ↦ true)
      (fun all vtxo ↦ all ++ [vtxo]) pageSize fuel 0 all) []

structure Entry where
  index : ℕ
  descriptor : String

/-- `C` are the candidates, `D` the discovered contracts. -/
structure Handler (C D : Type) where
  buildCandidates : ℕ → String → Except String (List C)
  script : C → String
  emit : C → ℕ → String → D

variable {C D : Type} (handler : Handler C D)

def buildPerIndex (entries : List Entry) : Except String (List (Entry × List C)) :=
  entries.mapM fun entry ↦ do
    let candidates ← handler.buildCandidates entry.index entry.descriptor
    return (entry, candidates)

/-- `out.set` for every entry, with the candidates that are used. -/
def report (used : C → Bool) (perIndex : List (Entry × List C)) :
    JsMap.Entries ℕ (List D) :=
  perIndex.foldl (fun out e ↦ JsMap.set e.1.index
    ((e.2.filter used).map fun c ↦ handler.emit c e.1.index e.1.descriptor) out) []

def discoverIndexerCandidates (fuel : ℕ) (entries : List Entry) :
    Except (Stop String) (JsMap.Entries ℕ (List D)) := do
  let perIndex ← (buildPerIndex handler entries).mapError Stop.failed
  let used ← detectUsedScripts parseDate getVtxos fuel
    (perIndex.flatMap fun e ↦ e.2.map handler.script)
  return report handler (used.contains <| handler.script ·) perIndex

/-- Whether a query for this script alone shows an output. -/
def queryScript (script : String) : Except String Bool := do
  let (vtxos, _) ← getNormalizedVtxos parseDate getVtxos ⟨.none, [script], 0, DEFAULT_PAGE_SIZE⟩
  return 0 < vtxos.length

def queryCandidates (e : Entry × List C) : Except String (Entry × List C) := do
  let found ← e.2.mapM fun c ↦ (c, ·) <$> queryScript parseDate getVtxos (handler.script c)
  return (e.1, (found.filter (·.2)).map (·.1))

def discoverEach (entries : List Entry) : Except String (JsMap.Entries ℕ (List D)) := do
  let perIndex ← buildPerIndex handler entries
  let found ← perIndex.mapM (queryCandidates parseDate getVtxos handler)
  return report handler (fun _ ↦ true) found

end Queries

section Content

variable (getVtxos : IndexerProvider) (stored : List VirtualCoin)

/-- The indexer answers a query with these filters out of what it holds, in some order: with
stable pages of the size asked for, or with everything and no word of pages. -/
def ServedBy (admits : VirtualCoin → Bool) (filters : VtxoFilters) : Prop :=
  ∀ scripts ≠ [], ∀ size > 0, ∃ listing : List VirtualCoin,
    listing.Perm (stored.filter fun v ↦ v.script ∈ scripts ∧ admits v) ∧
    ((∀ index, ∃ page, getVtxos ⟨filters, scripts, index, size⟩ =
        .ok ⟨pageAt size listing index, some page⟩) ∨
      ∀ index, getVtxos ⟨filters, scripts, index, size⟩ = .ok ⟨listing, none⟩)

def Owns (script : String) : Prop := ∃ v ∈ stored, v.script = script

instance (script : String) : Decidable (Owns stored script) :=
  inferInstanceAs (Decidable (∃ v ∈ stored, v.script = script))

end Content

section Served

variable (parseDate : String → JsDate.Date) {getVtxos : IndexerProvider}
  {stored : List VirtualCoin} {admits : VirtualCoin → Bool} {filters : VtxoFilters}

theorem serves_fetchPage (h : ServedBy getVtxos stored admits filters) {scripts : List String}
    (hscripts : scripts ≠ []) {size : ℕ} (hsize : 0 < size) :
    ∃ listing : List VirtualCoin,
      listing.Perm (stored.filter fun v ↦ v.script ∈ scripts ∧ admits v) ∧
      Serves (fetchPage parseDate getVtxos filters scripts size) size
        (listing.map (normalizeVtxo parseDate)) := by
  obtain ⟨listing, hperm, hserves⟩ := h scripts hscripts size hsize
  refine ⟨listing, hperm, hserves.imp (fun hpaged index ↦ ?_) fun hwhole index ↦ ?_⟩
  · obtain ⟨page, hpage⟩ := hpaged index
    rw [← map_pageAt]
    simp only [fetchPage, getNormalizedVtxos, hpage]
    rfl
  · simp only [fetchPage, getNormalizedVtxos, hwhole index]
    rfl

theorem length_listing {listing : List VirtualCoin} {p : VirtualCoin → Bool}
    (h : listing.Perm (stored.filter p)) : listing.length ≤ stored.length :=
  h.length_eq.trans_le (List.length_filter_le p stored)

structure Visited (start p : Probe) (seen : List NormalizedVirtualCoin) : Prop where
  remaining : ∀ s, s ∈ p.remaining ↔ s ∈ start.remaining ∧ ∀ v ∈ seen, v.script ≠ s
  used : ∀ s, s ∈ p.used ↔ s ∈ start.used ∨ s ∈ start.remaining ∧ ∃ v ∈ seen, v.script = s
  nodup : start.used.Nodup → p.used.Nodup

theorem visited_foldl {start : Probe} (h : start.remaining.Nodup)
    (seen : List NormalizedVirtualCoin) : Visited start (seen.foldl Probe.visit start) seen := by
  induction seen generalizing start with
  | nil => exact ⟨by simp, by simp, fun h ↦ h⟩
  | cons v seen ih =>
    rw [List.foldl_cons]
    by_cases hmem : v.script ∈ start.remaining
    · have hvisit : start.visit v =
          ⟨start.remaining.erase v.script, Distinct.add id start.used v.script⟩ := if_pos hmem
      have hrest := ih (hvisit ▸ h.erase v.script : (start.visit v).remaining.Nodup)
      rw [hvisit] at hrest ⊢
      refine ⟨fun s ↦ ?_, fun s ↦ ?_, fun hused ↦ hrest.nodup (Distinct.nodup_add_id hused _)⟩
      · rw [hrest.remaining, h.mem_erase_iff]
        simp only [List.forall_mem_cons]
        tauto
      · rw [hrest.used, h.mem_erase_iff, Distinct.mem_add_id]
        simp only [List.exists_mem_cons_iff]
        by_cases hs : s = v.script
        · subst hs
          simp [hmem]
        · have hs' : v.script ≠ s := fun heq ↦ hs heq.symm
          simp [hs, hs']
    · have hvisit : start.visit v = start := if_neg hmem
      rw [hvisit]
      have hrest := ih h
      have hother : ∀ s ∈ start.remaining, v.script ≠ s := fun s hs heq ↦ hmem (heq ▸ hs)
      refine ⟨fun s ↦ ?_, fun s ↦ ?_, hrest.nodup⟩
      · rw [hrest.remaining, List.forall_mem_cons]
        have := hother s
        tauto
      · rw [hrest.used, List.exists_mem_cons_iff]
        have := hother s
        tauto

theorem probeChunk_served (h : ServedBy getVtxos stored (fun _ ↦ true) .none) {fuel : ℕ}
    (hfuel : stored.length < fuel) {scripts : List String} (hscripts : scripts ≠ [])
    (used : List String) :
    ∃ used', probeChunk parseDate getVtxos fuel used scripts = .ok used' ∧
      (used.Nodup → used'.Nodup) ∧
      ∀ s, s ∈ used' ↔ s ∈ used ∨ s ∈ scripts ∧ Owns stored s := by
  obtain ⟨listing, hperm, hserves⟩ :=
    serves_fetchPage parseDate h hscripts (by decide : 0 < DEFAULT_PAGE_SIZE)
  have hremaining : ∀ s, s ∈ Distinct.addAll id [] scripts ↔ s ∈ scripts := by
    simp [Distinct.mem_addAll_id]
  have hnodup : (Distinct.addAll id [] scripts).Nodup := Distinct.nodup_addAll_id List.nodup_nil
  have hlength : (listing.map (normalizeVtxo parseDate)).length < fuel := by
    rw [List.length_map]
    exact (length_listing hperm).trans_lt hfuel
  let start : Probe := ⟨Distinct.addAll id [] scripts, used⟩
  obtain ⟨seen, rest, hsplit, hstop, hread⟩ := hserves.readWhile
    (fun p ↦ 0 < p.remaining.length) Probe.visit (by decide) hlength start
  have hvisited : Visited start (seen.foldl Probe.visit start) seen := visited_foldl hnodup seen
  refine ⟨_, by rw [probeChunk, hread]; rfl, hvisited.nodup, fun s ↦ ?_⟩
  rw [hvisited.used, hremaining]
  refine or_congr_right (and_congr_right fun hs ↦ ⟨?_, ?_⟩)
  · rintro ⟨v, hv, rfl⟩
    have hmem : v ∈ listing.map (normalizeVtxo parseDate) := by
      rw [hsplit]
      exact List.mem_append_left _ hv
    obtain ⟨w, hw, rfl⟩ := List.mem_map.mp hmem
    exact ⟨w, (List.mem_filter.mp (hperm.mem_iff.mp hw)).1, rfl⟩
  · rintro ⟨w, hw, rfl⟩
    have hlisted : w ∈ listing := hperm.mem_iff.mpr (List.mem_filter.mpr ⟨hw, by simpa using hs⟩)
    rcases hstop with rfl | hstop
    · -- the whole listing was read
      rw [List.append_nil] at hsplit
      exact ⟨_, hsplit ▸ List.mem_map_of_mem hlisted, rfl⟩
    · -- every script of the chunk was seen
      have hempty : (seen.foldl Probe.visit start).remaining = [] := by simpa using hstop
      by_contra hunseen
      have hleft := (hvisited.remaining w.script).mpr
        ⟨(hremaining _).mpr hs, fun v hv heq ↦ hunseen ⟨v, hv, heq⟩⟩
      rw [hempty] at hleft
      cases hleft

theorem foldlM_probeChunk (h : ServedBy getVtxos stored (fun _ ↦ true) .none) {fuel : ℕ}
    (hfuel : stored.length < fuel) {chunks : List (List String)}
    (hchunks : ∀ chunk ∈ chunks, chunk ≠ []) (used : List String) :
    ∃ used', chunks.foldlM (probeChunk parseDate getVtxos fuel) used = .ok used' ∧
      (used.Nodup → used'.Nodup) ∧
      ∀ s, s ∈ used' ↔ s ∈ used ∨ s ∈ chunks.flatten ∧ Owns stored s := by
  induction chunks generalizing used with
  | nil => exact ⟨used, rfl, fun h ↦ h, by simp⟩
  | cons chunk chunks ih =>
    obtain ⟨hchunk, hrest⟩ := List.forall_mem_cons.mp hchunks
    obtain ⟨used₁, hread, hnodup, hused⟩ := probeChunk_served parseDate h hfuel
      hchunk used
    obtain ⟨used₂, hread₂, hnodup₂, hused₂⟩ := ih hrest used₁
    refine ⟨used₂, ?_, hnodup₂ ∘ hnodup, fun s ↦ ?_⟩
    · rw [List.foldlM_cons, hread]
      exact hread₂
    · rw [hused₂, hused, List.flatten_cons, List.mem_append]
      tauto

theorem detectUsedScripts_exact (h : ServedBy getVtxos stored (fun _ ↦ true) .none) {fuel : ℕ}
    (hfuel : stored.length < fuel) (scriptHexes : List String) :
    ∃ used, detectUsedScripts parseDate getVtxos fuel scriptHexes = .ok used ∧ used.Nodup ∧
      ∀ s, s ∈ used ↔ s ∈ scriptHexes ∧ Owns stored s := by
  have hchunks : ∀ chunk ∈ slices SCRIPT_QUERY_CHUNK_SIZE (Distinct.addAll id [] scriptHexes),
      chunk ≠ [] :=
    fun chunk hchunk ↦ ne_nil_of_mem_slices (by decide) hchunk
  obtain ⟨used, hread, hnodup, hused⟩ := foldlM_probeChunk parseDate h hfuel hchunks []
  refine ⟨used, hread, hnodup List.nodup_nil, fun s ↦ ?_⟩
  rw [hused, flatten_slices (by decide), Distinct.mem_addAll_id]
  simp

theorem filter_append_perm {α : Type} {p q : α → Bool} {l : List α}
    (h : ∀ a ∈ l, p a = true → q a = false) :
    (l.filter p ++ l.filter q).Perm (l.filter fun a ↦ p a || q a) := by
  induction l with
  | nil => exact .nil
  | cons a l ih =>
    obtain ⟨ha, hl⟩ := List.forall_mem_cons.mp h
    cases hp : p a with
    | true => simpa [hp, ha hp] using ih hl
    | false =>
      cases hq : q a with
      | true => simpa [hp, hq] using List.perm_middle.trans ((ih hl).cons a)
      | false => simpa [hp, hq] using ih hl

theorem foldl_concat {α : Type} (all l : List α) :
    l.foldl (fun all a ↦ all ++ [a]) all = all ++ l := by
  induction l generalizing all with
  | nil => simp
  | cons a l ih => rw [List.foldl_cons, ih, List.append_assoc, List.singleton_append]

def outputsOf (stored : List VirtualCoin) (admits : VirtualCoin → Bool) (scripts : List String) :
    List NormalizedVirtualCoin :=
  (stored.filter fun v ↦ v.script ∈ scripts ∧ admits v).map (normalizeVtxo parseDate)

theorem readChunk_served (h : ServedBy getVtxos stored admits filters) {fuel : ℕ}
    (hfuel : stored.length < fuel) {scripts : List String} (hscripts : scripts ≠ []) {size : ℕ}
    (hsize : 0 < size) (all : List NormalizedVirtualCoin) :
    ∃ all', readWhile (fetchPage parseDate getVtxos filters scripts size) (fun _ ↦ true)
        (fun all vtxo ↦ all ++ [vtxo]) size fuel 0 all = .ok all' ∧
      all'.Perm (all ++ outputsOf parseDate stored admits scripts) := by
  obtain ⟨listing, hperm, hserves⟩ := serves_fetchPage parseDate h hscripts hsize
  have hlength : (listing.map (normalizeVtxo parseDate)).length < fuel := by
    rw [List.length_map]
    exact (length_listing hperm).trans_lt hfuel
  obtain ⟨seen, rest, hsplit, hstop, hread⟩ := hserves.readWhile (fun _ ↦ true)
    (fun all vtxo ↦ all ++ [vtxo]) hsize hlength all
  obtain rfl : rest = [] := hstop.resolve_right Bool.noConfusion
  rw [List.append_nil] at hsplit
  refine ⟨_, hread, ?_⟩
  rw [foldl_concat, ← hsplit]
  exact (hperm.map _).append_left all

theorem outputsOf_append {chunk rest : List String} (h : List.Disjoint chunk rest) :
    (outputsOf parseDate stored admits chunk ++ outputsOf parseDate stored admits rest).Perm
      (outputsOf parseDate stored admits (chunk ++ rest)) := by
  unfold outputsOf
  rw [← List.map_append]
  refine ((filter_append_perm fun v _ hv ↦ ?_).trans (.of_eq ?_)).map _
  · have hchunk : v.script ∈ chunk := (by simpa using hv : v.script ∈ chunk ∧ _).1
    simpa using fun hrest ↦ absurd hrest (h hchunk)
  · refine List.filter_congr fun v _ ↦ ?_
    simp only [List.mem_append, or_and_right, Bool.decide_or]

theorem foldlM_readChunk (h : ServedBy getVtxos stored admits filters) {fuel : ℕ}
    (hfuel : stored.length < fuel) {size : ℕ} (hsize : 0 < size) {chunks : List (List String)}
    (hchunks : ∀ chunk ∈ chunks, chunk ≠ []) (hnodup : chunks.flatten.Nodup)
    (all : List NormalizedVirtualCoin) :
    ∃ all', chunks.foldlM (fun all chunk ↦
        readWhile (fetchPage parseDate getVtxos filters chunk size) (fun _ ↦ true)
          (fun all vtxo ↦ all ++ [vtxo]) size fuel 0 all) all = .ok all' ∧
      all'.Perm (all ++ outputsOf parseDate stored admits chunks.flatten) := by
  induction chunks generalizing all with
  | nil => exact ⟨all, rfl, by simp [outputsOf]⟩
  | cons chunk chunks ih =>
    obtain ⟨hchunk, hrest⟩ := List.forall_mem_cons.mp hchunks
    rw [List.flatten_cons] at hnodup ⊢
    obtain ⟨-, hnodup', hdisjoint⟩ := List.nodup_append'.mp hnodup
    obtain ⟨all₁, hread, hperm⟩ := readChunk_served parseDate h hfuel hchunk hsize all
    obtain ⟨all₂, hread₂, hperm₂⟩ := ih hrest hnodup' all₁
    refine ⟨all₂, ?_, ?_⟩
    · rw [List.foldlM_cons, hread]
      exact hread₂
    · have happend : (outputsOf parseDate stored admits chunk ++
          outputsOf parseDate stored admits chunks.flatten).Perm
          (outputsOf parseDate stored admits (chunk ++ chunks.flatten)) :=
        outputsOf_append parseDate hdisjoint
      have hread : all₂.Perm (all ++ (outputsOf parseDate stored admits chunk ++
          outputsOf parseDate stored admits chunks.flatten)) := by
        rw [← List.append_assoc]
        exact hperm₂.trans (hperm.append_right _)
      exact hread.trans (happend.append_left all)

theorem getAllNormalizedVtxos_exact {opts : VtxoScriptQuery}
    (h : ServedBy getVtxos stored admits opts.filters) {fuel : ℕ} (hfuel : stored.length < fuel)
    (hsize : 0 < opts.pageSize.getD DEFAULT_PAGE_SIZE) {scripts : List String}
    (hscripts : scripts.Nodup) :
    ∃ all, getAllNormalizedVtxos parseDate getVtxos fuel scripts opts = .ok all ∧
      all.Perm (outputsOf parseDate stored admits scripts) := by
  have hchunks : ∀ chunk ∈ slices SCRIPT_QUERY_CHUNK_SIZE scripts, chunk ≠ [] :=
    fun chunk hchunk ↦ ne_nil_of_mem_slices (by decide) hchunk
  have hflatten : (slices SCRIPT_QUERY_CHUNK_SIZE scripts).flatten = scripts :=
    flatten_slices (by decide) scripts
  have hread := foldlM_readChunk parseDate h hfuel hsize hchunks (hflatten.symm ▸ hscripts) []
  rwa [hflatten, List.nil_append] at hread

theorem queryScript_served (h : ServedBy getVtxos stored (fun _ ↦ true) .none) (script : String) :
    queryScript parseDate getVtxos script = .ok (decide (Owns stored script)) := by
  have hone : [script] ≠ [] := List.cons_ne_nil _ _
  obtain ⟨listing, hperm, hserves⟩ :=
    serves_fetchPage parseDate h hone (by decide : 0 < DEFAULT_PAGE_SIZE)
  have hfirst : ∃ page, fetchPage parseDate getVtxos .none [script] DEFAULT_PAGE_SIZE 0 = .ok page ∧
      (page.items = [] ↔ listing = []) := by
    rcases hserves with hpaged | hwhole
    · refine ⟨_, hpaged 0, ?_⟩
      simp [pageAt, List.take_eq_nil_iff, DEFAULT_PAGE_SIZE]
    · exact ⟨_, hwhole 0, by simp⟩
  have howns : listing = [] ↔ ¬Owns stored script := by
    have hlisting : listing = [] ↔
        stored.filter (fun v ↦ v.script ∈ [script] ∧ (fun _ ↦ true) v = true) = [] := by
      rw [← List.length_eq_zero_iff, hperm.length_eq, List.length_eq_zero_iff]
    rw [hlisting, List.filter_eq_nil_iff]
    simp [Owns]
  obtain ⟨page, hpage, hitems⟩ := hfirst
  obtain ⟨⟨vtxos, response⟩, hread, hmade⟩ := bind_ok.mp hpage
  obtain rfl := pure_ok.mp hmade
  rw [queryScript, hread]
  refine congrArg Except.ok (decide_eq_decide.mpr ?_)
  rw [List.length_pos_iff, ne_eq, hitems, howns, not_not]

theorem queryCandidates_served {C D : Type} (handler : Handler C D)
    (h : ServedBy getVtxos stored (fun _ ↦ true) .none) (e : Entry × List C) :
    queryCandidates parseDate getVtxos handler e =
      .ok (e.1, e.2.filter fun c ↦ Owns stored (handler.script c)) := by
  have hfound : (e.2.mapM fun c ↦ (c, ·) <$> queryScript parseDate getVtxos (handler.script c)) =
      .ok (e.2.map fun c ↦ (c, decide (Owns stored (handler.script c)))) :=
    mapM_eq_map fun c _ ↦ by rw [queryScript_served parseDate h]; rfl
  rw [queryCandidates, hfound]
  refine congrArg (fun found ↦ Except.ok (e.1, found)) ?_
  simp [List.filter_map, Function.comp_def]

theorem report_filter {C D : Type} (handler : Handler C D) (used : C → Bool)
    (perIndex : List (Entry × List C)) :
    report handler used perIndex =
      report handler (fun _ ↦ true) (perIndex.map fun e ↦ (e.1, e.2.filter used)) := by
  simp [report, List.foldl_map]

theorem get_foldl_set {C D : Type} (handler : Handler C D) (used : C → Bool) {index : ℕ}
    {after : List (Entry × List C)} (h : ∀ e ∈ after, e.1.index ≠ index)
    (out : JsMap.Entries ℕ (List D)) :
    JsMap.get (after.foldl (fun out e ↦ JsMap.set e.1.index
        ((e.2.filter used).map fun c ↦ handler.emit c e.1.index e.1.descriptor) out) out) index =
      JsMap.get out index := by
  induction after generalizing out with
  | nil => rfl
  | cons e after ih =>
    obtain ⟨he, hafter⟩ := List.forall_mem_cons.mp h
    rw [List.foldl_cons, ih hafter, JsMap.get_set, if_neg he]

theorem get_report {C D : Type} (handler : Handler C D) (used : C → Bool)
    (before : List (Entry × List C)) {e : Entry × List C} {after : List (Entry × List C)}
    (h : ∀ e' ∈ after, e'.1.index ≠ e.1.index) :
    JsMap.get (report handler used (before ++ e :: after)) e.1.index =
      some ((e.2.filter used).map fun c ↦ handler.emit c e.1.index e.1.descriptor) := by
  rw [report, List.foldl_append, List.foldl_cons, get_foldl_set handler used h, JsMap.get_set,
    if_pos rfl]

theorem discoverIndexerCandidates_each {C D : Type} (handler : Handler C D)
    (h : ServedBy getVtxos stored (fun _ ↦ true) .none) {fuel : ℕ}
    (hfuel : stored.length < fuel) (entries : List Entry) :
    discoverIndexerCandidates parseDate getVtxos handler fuel entries =
      (discoverEach parseDate getVtxos handler entries).mapError .failed := by
  unfold discoverIndexerCandidates discoverEach
  cases hbuild : buildPerIndex handler entries with
  | error error => rfl
  | ok perIndex =>
    obtain ⟨used, hused, -, hmem⟩ := detectUsedScripts_exact parseDate h hfuel
      (perIndex.flatMap fun e ↦ e.2.map handler.script)
    have hfound : perIndex.mapM (queryCandidates parseDate getVtxos handler) =
        .ok (perIndex.map fun e ↦ (e.1, e.2.filter fun c ↦ Owns stored (handler.script c))) :=
      mapM_eq_map fun e _ ↦ queryCandidates_served parseDate handler h e
    have hsame : (perIndex.map fun e ↦ (e.1, e.2.filter (used.contains <| handler.script ·))) =
        perIndex.map fun e ↦ (e.1, e.2.filter fun c ↦ Owns stored (handler.script c)) := by
      refine List.map_congr_left fun e he ↦ congrArg _ (List.filter_congr fun c hc ↦ ?_)
      have hcandidate : handler.script c ∈ perIndex.flatMap fun e ↦ e.2.map handler.script :=
        List.mem_flatMap.mpr ⟨e, he, List.mem_map_of_mem hc⟩
      rw [List.contains_eq_mem]
      exact decide_eq_decide.mpr ((hmem _).trans (and_iff_right hcandidate))
    simp only [bind, Except.bind, Except.mapError, hused, hfound, pure, Except.pure]
    rw [report_filter, hsame]

theorem buildPerIndex_ok {C D : Type} {handler : Handler C D} {entries : List Entry}
    {perIndex : List (Entry × List C)} (h : buildPerIndex handler entries = .ok perIndex) :
    perIndex.map (·.1) = entries ∧
      ∀ p ∈ perIndex, handler.buildCandidates p.1.index p.1.descriptor = .ok p.2 := by
  induction entries generalizing perIndex with
  | nil =>
    cases h
    exact ⟨rfl, by simp⟩
  | cons e entries ih =>
    obtain ⟨p, hp, rest, hrest, rfl⟩ := mapM_cons_ok.mp h
    obtain ⟨candidates, hbuild, hmade⟩ := bind_ok.mp hp
    obtain rfl := pure_ok.mp hmade
    obtain ⟨hmap, hall⟩ := ih hrest
    exact ⟨by rw [List.map_cons, hmap], List.forall_mem_cons.mpr ⟨hbuild, hall⟩⟩

theorem discoverIndexerCandidates_get {C D : Type} {handler : Handler C D}
    (h : ServedBy getVtxos stored (fun _ ↦ true) .none) {fuel : ℕ}
    (hfuel : stored.length < fuel) {before after : List Entry} {e : Entry}
    {out : JsMap.Entries ℕ (List D)}
    (hout : discoverIndexerCandidates parseDate getVtxos handler fuel (before ++ e :: after) =
      .ok out) (hlast : ∀ e' ∈ after, e'.index ≠ e.index) :
    ∃ candidates, handler.buildCandidates e.index e.descriptor = .ok candidates ∧
      JsMap.get out e.index =
        some ((candidates.filter fun c ↦ Owns stored (handler.script c)).map fun c ↦
          handler.emit c e.index e.descriptor) := by
  obtain ⟨perIndex, hperIndex, hrest⟩ := bind_ok.mp hout
  obtain ⟨used, hused, hreport⟩ := bind_ok.mp hrest
  obtain rfl := pure_ok.mp hreport
  cases hbuild : buildPerIndex handler (before ++ e :: after) with
  | error error => rw [hbuild] at hperIndex; cases hperIndex
  | ok built =>
    rw [hbuild] at hperIndex
    obtain rfl : built = perIndex := Except.ok.inj hperIndex
    obtain ⟨hmap, hall⟩ := buildPerIndex_ok hbuild
    obtain ⟨before', rest, rfl, -, hsplit⟩ := List.map_eq_append_iff.mp hmap
    obtain ⟨p, after', rfl, rfl, rfl⟩ := List.map_eq_cons_iff.mp hsplit
    have hlast' : ∀ p' ∈ after', p'.1.index ≠ p.1.index :=
      fun p' hp' ↦ hlast p'.1 (List.mem_map_of_mem hp')
    refine ⟨p.2, hall p (by simp), ?_⟩
    rw [get_report handler _ before' hlast']
    obtain ⟨used', hused', -, hmem⟩ := detectUsedScripts_exact parseDate h hfuel
      ((before' ++ p :: after').flatMap fun e ↦ e.2.map handler.script)
    obtain rfl : used' = used := Except.ok.inj (hused'.symm.trans hused)
    refine congrArg _ (congrArg _ (List.filter_congr fun c hc ↦ ?_))
    have hcandidate : handler.script c ∈
        (before' ++ p :: after').flatMap fun e ↦ e.2.map handler.script :=
      List.mem_flatMap.mpr ⟨p, by simp, List.mem_map_of_mem hc⟩
    rw [List.contains_eq_mem]
    exact decide_eq_decide.mpr ((hmem _).trans (and_iff_right hcandidate))

/-- Batched probing is exact: the used scripts are found however the pages fill, each output is
read as often as it is stored, and discovery reports what single queries would. -/
theorem scriptProbing_exact {fuel : ℕ} (hfuel : stored.length < fuel)
    (h : ServedBy getVtxos stored (fun _ ↦ true) .none) :
    (∀ scriptHexes, ∃ used, detectUsedScripts parseDate getVtxos fuel scriptHexes = .ok used ∧
      used.Nodup ∧ ∀ s, s ∈ used ↔ s ∈ scriptHexes ∧ Owns stored s) ∧
    (∀ (opts : VtxoScriptQuery) (admits : VirtualCoin → Bool) (scripts : List String),
      ServedBy getVtxos stored admits opts.filters →
      0 < opts.pageSize.getD DEFAULT_PAGE_SIZE → scripts.Nodup →
      ∃ all, getAllNormalizedVtxos parseDate getVtxos fuel scripts opts = .ok all ∧
        all.Perm (outputsOf parseDate stored admits scripts)) ∧
    ∀ (C D : Type) (handler : Handler C D) (entries : List Entry),
      discoverIndexerCandidates parseDate getVtxos handler fuel entries =
        (discoverEach parseDate getVtxos handler entries).mapError .failed ∧
      ∀ out, discoverIndexerCandidates parseDate getVtxos handler fuel entries = .ok out →
        ∀ before (e : Entry) after, entries = before ++ e :: after →
          (∀ e' ∈ after, e'.index ≠ e.index) →
          ∃ candidates, handler.buildCandidates e.index e.descriptor = .ok candidates ∧
            JsMap.get out e.index =
              some ((candidates.filter fun c ↦ Owns stored (handler.script c)).map fun c ↦
                handler.emit c e.index e.descriptor) := by
  refine ⟨detectUsedScripts_exact parseDate h hfuel, fun opts admits scripts hserved hsize hnodup ↦
    getAllNormalizedVtxos_exact parseDate hserved hfuel hsize hnodup, fun C D handler entries ↦
    ⟨discoverIndexerCandidates_each parseDate handler h hfuel entries, ?_⟩⟩
  rintro out hout before e after rfl hlast
  exact discoverIndexerCandidates_get parseDate h hfuel hout hlast

end Served

section Sample

def sampleCoin (txid script : String) : VirtualCoin where
  txid := txid
  vout := 0
  value := .ofNat 1000
  confirmed := true
  isLeaf := true
  createdAt := .invalid
  script := script
  isUnrolled := false
  settledBy := none
  arkTxId := none
  assets := none
  isSpent := none
  isSwept := none
  isPreconfirmed := none
  spentBy := none
  commitmentTxIds := none
  expiresAt := none
  expiresAtHeight := none
  virtualStatus := none

def pageServer (stored : List VirtualCoin) : IndexerProvider := fun opts ↦
  let listing := stored.filter fun v ↦ v.script ∈ opts.scripts ∧ true
  .ok ⟨pageAt opts.pageSize listing opts.pageIndex,
    some ⟨opts.pageIndex, opts.pageIndex + 1,
      (listing.length + opts.pageSize - 1) / opts.pageSize⟩⟩

theorem pageServer_served (stored : List VirtualCoin) (filters : VtxoFilters) :
    ServedBy (pageServer stored) stored (fun _ ↦ true) filters :=
  fun scripts _ _ _ ↦ ⟨stored.filter fun v ↦ v.script ∈ scripts ∧ true, .refl _,
    .inl fun _ ↦ ⟨_, rfl⟩⟩

def sampleCoins : List VirtualCoin :=
  [sampleCoin "t0" "busy", sampleCoin "t1" "busy", sampleCoin "t2" "rare"]

theorem sampleCoins_probed :
    (∃ used, detectUsedScripts (fun _ ↦ .invalid) (pageServer sampleCoins) 4
        ["rare", "idle", "rare"] = .ok used ∧ used.Nodup ∧
      ∀ s, s ∈ used ↔ s ∈ ["rare", "idle", "rare"] ∧ Owns sampleCoins s) ∧
    ∃ all, getAllNormalizedVtxos (fun _ ↦ .invalid) (pageServer sampleCoins) 4
        ["rare", "busy"] ⟨.none, some 1⟩ = .ok all ∧
      all.Perm (outputsOf (fun _ ↦ .invalid) sampleCoins (fun _ ↦ true) ["rare", "busy"]) := by
  have hexact := scriptProbing_exact (fun _ ↦ .invalid) (by decide : sampleCoins.length < 4)
    (pageServer_served sampleCoins .none)
  exact ⟨hexact.1 _, hexact.2.1 _ _ _ (pageServer_served _ _) (by decide) (by decide)⟩

end Sample

end ArkadeSdk.ScriptProbe
