import ArkadeSdk.Extension.Emulator
import Mathlib.Data.List.Nodup

/-! Which emulator packets are read back from the bytes they are written as. -/

namespace ArkadeSdk

open WireFormat JsNumber Buffer

def EmulatorEntry.readBack (entry : EmulatorEntry) : EmulatorEntry :=
  { entry with witness := some (entry.witness.getD []) }

/-- An entry whose index fits the two bytes it is written in, and whose lengths fit four. -/
structure EmulatorEntry.Representable (entry : EmulatorEntry) : Prop where
  vin : entry.vin.inRange 0xffff = true
  script : entry.script.length ≤ 0xffffffff
  witness : (entry.witness.getD []).length ≤ 0xffffffff

namespace EmulatorPacket

theorem writeCompactSize_ok {n : ℕ} : (∃ bs, writeCompactSize n = .ok bs) ↔ n ≤ 0xffffffff := by
  unfold writeCompactSize
  split
  · simp
    omega
  · split
    · simp
      omega
    · split
      · next hle => simpa using hle
      · next hgt => simpa using hgt

theorem writeCompactSlice_ok {data : Bytes} :
    (∃ bs, writeCompactSlice data = .ok bs) ↔ data.length ≤ 0xffffffff := by
  rw [← writeCompactSize_ok]
  constructor
  · rintro ⟨bs, h⟩
    obtain ⟨size, hsize, -⟩ := bind_ok.mp h
    exact ⟨size, hsize⟩
  · rintro ⟨size, hsize⟩
    exact ⟨_, bind_ok.mpr ⟨size, hsize, rfl⟩⟩

theorem rejectEmptyScripts_readBack (entries : List EmulatorEntry) :
    rejectEmptyScripts (entries.map EmulatorEntry.readBack) = rejectEmptyScripts entries := by
  induction entries with
  | nil => rfl
  | cons entry entries ih =>
    rw [List.map_cons, rejectEmptyScripts, rejectEmptyScripts, ih]
    rfl

theorem rejectDuplicates_readBack (seen : List Number) (entries : List EmulatorEntry) :
    rejectDuplicates seen (entries.map EmulatorEntry.readBack) = rejectDuplicates seen entries := by
  induction entries generalizing seen with
  | nil => rfl
  | cons entry entries ih =>
    rw [List.map_cons, rejectDuplicates, rejectDuplicates, ih]
    rfl

theorem create_ok {entries : List EmulatorEntry} {packet : EmulatorPacket} :
    create entries = .ok packet ↔ (entries.length ≠ 0 ∧ rejectEmptyScripts entries = .ok () ∧
      rejectDuplicates [] entries = .ok ()) ∧ packet = ⟨entries⟩ := by
  simp only [create, then_ok, rejectIf_ok, pure_ok, and_assoc]
  simp only [@eq_comm _ _ packet]

theorem rejectDuplicates_ok {seen : List Number} {entries : List EmulatorEntry}
    (h : rejectDuplicates seen entries = .ok ()) : (entries.map (·.vin)).Nodup ∧
      ∀ e ∈ entries, e.vin ∉ seen := by
  induction entries generalizing seen with
  | nil => simp
  | cons entry entries ih =>
    obtain ⟨hnew, h⟩ := then_ok.mp h
    obtain ⟨hnodup, hrest⟩ := ih h
    refine ⟨List.nodup_cons.mpr ⟨fun hmem ↦ ?_, hnodup⟩, List.forall_mem_cons.mpr
      ⟨rejectIf_ok.mp hnew, fun e he hseen ↦ hrest e he (List.mem_cons_of_mem _ hseen)⟩⟩
    obtain ⟨e, he, hvin⟩ := List.mem_map.mp hmem
    exact hrest e he (hvin ▸ List.mem_cons_self)

theorem reads_entry {entry : EmulatorEntry} (hvin : entry.vin.inRange 0xffff = true)
    {script witness : Bytes} (hscript : writeCompactSlice entry.script = .ok script)
    (hwitness : writeCompactSlice (entry.witness.getD []) = .ok witness) :
    Reads readEntry (writeUint16LE entry.vin ++ (script ++ witness)) entry.readBack := by
  obtain ⟨n, hn, hnum⟩ := Number.inRange_iff.mp hvin
  have hback : (⟨.ofNat n, entry.script, some (entry.witness.getD [])⟩ : EmulatorEntry) =
      entry.readBack := by rw [← hnum]; rfl
  rw [hnum, ← hback]
  exact (reads_uint16LE_number (by omega)).bind
    ((reads_compactSlice hscript).bind ((reads_compactSlice hwitness).bind_pure (reads_pure _)))

theorem reads_entries (entries : List EmulatorEntry) (h : ∀ e ∈ entries, e.Representable) :
    ∃ bs, writeEntries entries = .ok bs ∧
      Reads (readMany readEntry entries.length) bs (entries.map EmulatorEntry.readBack) := by
  induction entries with
  | nil => exact ⟨[], rfl, reads_pure []⟩
  | cons entry entries ih =>
    obtain ⟨hentry, hrest⟩ := List.forall_mem_cons.mp h
    obtain ⟨script, hscript⟩ := writeCompactSlice_ok.mpr hentry.script
    obtain ⟨witness, hwitness⟩ := writeCompactSlice_ok.mpr hentry.witness
    obtain ⟨rest, hwrite, hread⟩ := ih hrest
    refine ⟨_, bind_ok.mpr ⟨script, hscript, bind_ok.mpr ⟨witness, hwitness,
      bind_ok.mpr ⟨rest, hwrite, rfl⟩⟩⟩, ?_⟩
    rw [← List.append_assoc script, ← List.append_assoc]
    exact (reads_entry hentry.vin hscript hwitness).bind (hread.bind_pure (reads_pure _))

theorem writeEntries_lengths {entries : List EmulatorEntry} {bs : Bytes}
    (h : writeEntries entries = .ok bs) : ∀ e ∈ entries,
      e.script.length ≤ 0xffffffff ∧ (e.witness.getD []).length ≤ 0xffffffff := by
  induction entries generalizing bs with
  | nil => simp
  | cons entry entries ih =>
    obtain ⟨script, hscript, h⟩ := bind_ok.mp h
    obtain ⟨witness, hwitness, h⟩ := bind_ok.mp h
    obtain ⟨rest, hrest, -⟩ := bind_ok.mp h
    exact List.forall_mem_cons.mpr ⟨⟨writeCompactSlice_ok.mp ⟨script, hscript⟩,
      writeCompactSlice_ok.mp ⟨witness, hwitness⟩⟩, ih hrest⟩

theorem readEntry_vin {s t : Bytes} {entry : EmulatorEntry}
    (h : readEntry.run s = .ok (entry, t)) : entry.vin.inRange 0xffff = true := by
  obtain ⟨vin, u, hvin, h⟩ := run_bind_ok h
  obtain ⟨script, v, -, h⟩ := run_bind_ok h
  obtain ⟨witness, w, -, h⟩ := run_bind_ok h
  obtain ⟨rfl, -⟩ := run_pure_ok.mp h
  have hlt := readUint16LE_lt hvin
  exact Number.inRange_ofNat.mpr (by omega)

theorem fromBytes_vin {bs : Bytes} {packet : EmulatorPacket} (h : fromBytes bs = .ok packet) :
    ∀ e ∈ packet.entries, e.vin.inRange 0xffff = true := by
  unfold fromBytes at h
  rw [map_eq_pure_bind] at h
  obtain ⟨⟨q, t⟩, hq, h⟩ := bind_ok.mp h
  obtain rfl : q = packet := pure_ok.mp h
  obtain ⟨count, u, -, hq⟩ := run_bind_ok hq
  obtain ⟨entries, v, hentries, hq⟩ := run_bind_ok hq
  obtain ⟨left, w, -, hq⟩ := run_bind_ok hq
  obtain ⟨-, x, -, hq⟩ := run_bind_ok hq
  obtain ⟨-, rfl⟩ := create_ok.mp (run_liftM_ok.mp hq).1
  exact readMany_forall (fun _ _ _ ↦ readEntry_vin) count u entries v hentries

def ComesBack (packet : EmulatorPacket) : Prop :=
  (∃ bs, packet.serialize = .ok bs ∧
    fromBytes bs = .ok ⟨packet.entries.map EmulatorEntry.readBack⟩) ∧
  (packet.entries.map (·.vin.toUint16)).Nodup

theorem toUint16_injOn {entries : List EmulatorEntry} (hnodup : (entries.map (·.vin)).Nodup)
    (h : ∀ e ∈ entries, e.vin.inRange 0xffff = true) :
    (entries.map (·.vin.toUint16)).Nodup := by
  have hmap : entries.map (·.vin.toUint16) = (entries.map (·.vin)).map (·.toUint16) := by
    rw [List.map_map]
    rfl
  rw [hmap]
  refine List.Nodup.map_on (fun a ha b hb hab ↦ ?_) hnodup
  obtain ⟨e, he, rfl⟩ := List.mem_map.mp ha
  obtain ⟨e', he', rfl⟩ := List.mem_map.mp hb
  obtain ⟨n, hn, hvin⟩ := Number.inRange_iff.mp (h e he)
  obtain ⟨n', hn', hvin'⟩ := Number.inRange_iff.mp (h e' he')
  rw [hvin, hvin'] at hab ⊢
  rw [Number.toUint16_ofNat (by omega), Number.toUint16_ofNat (by omega)] at hab
  rw [hab]

/-- A packet of entries that pass `create` is read back when every index fits two bytes and every
length four. -/
theorem read_back_iff {entries : List EmulatorEntry} {packet : EmulatorPacket}
    (h : create entries = .ok packet) : packet.ComesBack ↔
      entries.length ≤ 0xffffffff ∧ ∀ e ∈ entries, e.Representable := by
  obtain ⟨⟨hne, hscripts, hdistinct⟩, rfl⟩ := create_ok.mp h
  constructor
  · rintro ⟨⟨bs, hbs, hread⟩, -⟩
    obtain ⟨count, hcount, hbs⟩ := bind_ok.mp hbs
    obtain ⟨written, hwritten, -⟩ := bind_ok.mp hbs
    refine ⟨writeCompactSize_ok.mp ⟨count, hcount⟩, fun e he ↦ ?_⟩
    obtain ⟨hscript, hwitness⟩ := writeEntries_lengths hwritten e he
    exact ⟨fromBytes_vin hread e.readBack (List.mem_map_of_mem he), hscript, hwitness⟩
  · rintro ⟨hlength, hentries⟩
    refine ⟨?_, toUint16_injOn (rejectDuplicates_ok hdistinct).1 fun e he ↦ (hentries e he).vin⟩
    obtain ⟨count, hcount⟩ := writeCompactSize_ok.mpr hlength
    obtain ⟨written, hwritten, hread⟩ := reads_entries entries hentries
    refine ⟨_, bind_ok.mpr ⟨count, hcount, bind_ok.mpr ⟨written, hwritten, rfl⟩⟩, ?_⟩
    have hend := hread []
    rw [List.append_nil] at hend
    have hcreate : create (entries.map EmulatorEntry.readBack) =
        .ok ⟨entries.map EmulatorEntry.readBack⟩ := by
      refine create_ok.mpr ⟨⟨by rwa [List.length_map], ?_, ?_⟩, rfl⟩
      · rwa [rejectEmptyScripts_readBack]
      · rwa [rejectDuplicates_readBack]
    have hvalid : (liftM (create (entries.map EmulatorEntry.readBack)) : Reader _).run [] =
        .ok (⟨entries.map EmulatorEntry.readBack⟩, []) := run_liftM_ok.mpr ⟨hcreate, rfl⟩
    unfold fromBytes fromReader
    rw [run_bind_eq (reads_compactSize hcount written), run_bind_eq hend,
      run_bind_eq (a := 0) (t := []) rfl, run_bind_eq (a := ()) (t := []) rfl, hvalid]
    rfl

/-- Two indices that differ by 2¹⁶ are the same on the wire. -/
theorem wide_vin_not_read_back :
    create [⟨.ofNat 0, [1], none⟩, ⟨.ofNat 65536, [1], none⟩] =
        .ok ⟨[⟨.ofNat 0, [1], none⟩, ⟨.ofNat 65536, [1], none⟩]⟩ ∧
      ∃ bs, EmulatorPacket.serialize ⟨[⟨.ofNat 0, [1], none⟩, ⟨.ofNat 65536, [1], none⟩]⟩ = .ok bs ∧
        fromBytes bs = .error [.text "duplicate vin ", .value (.ofNat 0)] :=
  ⟨by decide, [2, 0, 0, 1, 1, 0, 0, 0, 1, 1, 0], by decide, by decide⟩

theorem two_entries_read_back :
    ComesBack ⟨[⟨.ofNat 0, [1], none⟩, ⟨.ofNat 65535, [2], some [3]⟩]⟩ := by
  have hcreate : create [⟨.ofNat 0, [1], none⟩, ⟨.ofNat 65535, [2], some [3]⟩] =
      .ok ⟨[⟨.ofNat 0, [1], none⟩, ⟨.ofNat 65535, [2], some [3]⟩]⟩ := by decide
  refine (read_back_iff hcreate).mpr ⟨by decide, fun e he ↦ ?_⟩
  simp only [List.mem_cons, List.not_mem_nil, or_false] at he
  rcases he with rfl | rfl
  · exact ⟨by decide, by decide, by decide⟩
  · exact ⟨by decide, by decide, by decide⟩

end EmulatorPacket

end ArkadeSdk
