import ClipboardHelper.DownloadIntegrity
import ClipboardHelper.EndOfFile
import ClipboardHelper.VirtualFileStream

/-!
# A file from one helper to the other

A file that is copied on one machine and pasted on another is asked for piece
by piece by the helper there and served by the helper here.  The size is
announced with the copy; the pieces are read later, from a file that may have
grown or shrunk meanwhile.  Here each side that asks meets each side that
answers: the macOS download with its grid of 256 KiB slots and the Windows
stream with reads of any size, and the four ways in which a piece is served.

**`served_download`**: a Mac gets the file, whatever the order of the replies,
if and only if it still reaches into the last slot of the announced size.
**`served_reads`**: Windows gets it with buffers of any size, up to the
announced size, and is told of a file that is shorter.

Neither depends on which helper serves the file, nor on the flag with which
the servers disagree about its end.
-/

namespace ServedDownloads

open Library DispatchCodec EndOfFile
open ChunkServing hiding kDefaultChunkSize

/-! ## The side that answers -/

inductive Source
  | disk (path : WideString)
  | stream (object : DataObject) (lindex : UInt32)
  | block (object : DataObject) (lindex : UInt32)
  | macOS
deriving DecidableEq, Repr

/-- The reply of the helper that has the file. -/
def Source.reply (source : Source) (content : FileContent) (req : ParsedFileChunkRequest) :
    ParsedFileChunkData :=
  match source with
  | .disk path => serveFrom content.onDisk req (.physical path)
  | .stream object lindex => serveFrom content.asStream req (.virtual object lindex)
  | .block object lindex => serveFrom content.asBlock req (.virtual object lindex)
  | .macOS => handleIncomingFileChunkRequest (fun _ => some content.asLocal) req

variable {content : FileContent} {req : ParsedFileChunkRequest}

theorem clampSize_bounds {size : UInt32} (hsize : 0 < size.toNat) :
    min size.toNat 4194304 ≤ (clampSize size).toNat ∧ (clampSize size).toNat ≤ size.toNat := by
  have hzero : size ≠ 0 := by
    rintro rfl
    exact absurd hsize (by decide)
  rw [clampSize, if_neg hzero]
  by_cases hlarge : size > kMaxChunkSize
  · have hlt : (4194304 : Nat) < size.toNat := UInt32.lt_iff_toNat_lt.mp hlarge
    rw [if_pos hlarge]
    change min size.toNat 4194304 ≤ 4194304 ∧ 4194304 ≤ size.toNat
    omega
  · rw [if_neg hlarge]
    omega

/-- The macOS helper serves as much as it is asked for. -/
theorem data_macOS (hsize : 0 < req.size.toNat) :
    (Source.macOS.reply content req).data = content.range req.offset.toNat req.size.toNat ∧
      (Source.macOS.reply content req).error = [] := by
  have hlength : (UInt64.ofNat content.bytes.length).toNat = content.bytes.length :=
    toNat_ofNat content.fits
  have hchunk : macChunkSize req.size = req.size.toNat := by
    have hpos : req.size > 0 := UInt32.lt_iff_toNat_lt.mpr hsize
    rw [macChunkSize, if_pos hpos]
  simp only [Source.reply, handleIncomingFileChunkRequest, FileContent.asLocal,
    Option.getD_some, hchunk]
  by_cases hpast : req.offset ≥ UInt64.ofNat content.bytes.length
  · have hle : content.bytes.length ≤ req.offset.toNat := by
      rw [← hlength]
      exact UInt64.le_iff_toNat_le.mp hpast
    simp [if_pos hpast, sendFileChunk, replyTo, FileContent.range, List.drop_eq_nil_of_le hle]
  · have hremaining : (UInt64.ofNat content.bytes.length - req.offset).toNat =
        content.bytes.length - req.offset.toNat := by
      rw [UInt64.toNat_sub_of_le _ _ (UInt64.le_of_lt (UInt64.not_le.mp hpast)), hlength]
    have hwant : (UInt64.ofNat req.size.toNat).toNat = req.size.toNat := by
      have hlt := req.size.toNat_lt
      exact toNat_ofNat (by omega)
    simp only [if_neg hpast, toNat_min, hremaining, hwant, sendFileChunk, replyTo, take_range]
    simp [FileContent.range, List.take_eq_take_min]

/-- **Whoever serves it**, a piece is what the file holds there, of the length
that was asked for or of 4 MiB at least. -/
theorem reply_data (source : Source) (content : FileContent) (hoffset : req.offset.toNat < 2 ^ 63)
    (hsize : 0 < req.size.toNat) :
    ∃ n, min req.size.toNat 4194304 ≤ n ∧ n ≤ req.size.toNat ∧
      (source.reply content req).data = content.range req.offset.toNat n ∧
      (source.reply content req).error = [] := by
  have hseek : seekable req.offset = true := by simpa [seekable] using hoffset
  obtain ⟨hlow, hhigh⟩ := clampSize_bounds hsize
  cases source with
  | disk path =>
      refine ⟨(clampSize req.size).toNat, hlow, hhigh, ?_⟩
      simp [Source.reply, serveFrom, FileContent.onDisk, hseek, replyTo]
  | stream object lindex =>
      refine ⟨(clampSize req.size).toNat, hlow, hhigh, ?_⟩
      simp [Source.reply, serveFrom, FileContent.asStream, hseek, readVirtualFileChunk, replyTo]
  | block object lindex =>
      refine ⟨(clampSize req.size).toNat, hlow, hhigh, ?_⟩
      by_cases hinside : req.offset.toNat < content.bytes.length
      · simp [Source.reply, serveFrom, FileContent.asBlock, readVirtualFileChunk, hinside,
          replyTo, FileContent.range]
      · have hpast : content.bytes.length ≤ req.offset.toNat := by omega
        simp [Source.reply, serveFrom, FileContent.asBlock, readVirtualFileChunk, hinside,
          replyTo, FileContent.range, List.drop_eq_nil_of_le hpast]
  | macOS =>
      refine ⟨req.size.toNat, Nat.min_le_left _ _, Nat.le_refl _, data_macOS hsize⟩

/-- A reply says which piece it is. -/
theorem reply_offset (source : Source) : (source.reply content req).offset = req.offset := by
  cases source with
  | disk path =>
      simp only [Source.reply, serveFrom]
      split <;> rfl
  | stream object lindex | block object lindex =>
      simp only [Source.reply, serveFrom]
      split <;> rfl
  | macOS =>
      simp only [Source.reply, handleIncomingFileChunkRequest]
      split
      · rfl
      · split
        · rfl
        · split <;> rfl

/-! ## The macOS download -/

section Mac

open FileDownloadTask

/-- The request for a slot of the grid. -/
def slotRequest (transferId fileId : Bytes) (i : Nat) : ParsedFileChunkRequest where
  transferId := transferId
  fileId := fileId
  offset := UInt64.ofNat (kDefaultChunkSize * i)
  size := 262144

/-- The reply as the download gets it. -/
def received (transferID fileID : Ident) (reply : ParsedFileChunkData) : FileChunkData where
  transferID := transferID
  fileID := fileID
  offset := reply.offset.toNat
  data := reply.data
  isLast := reply.isLast
  error := String.ofList (reply.error.map fun b => Char.ofNat b.toNat)

/-- The replies to the requests for these slots, in that order. -/
def served (source : Source) (content : FileContent) (transferID fileID : Ident)
    (slots : List Nat) : List FileChunkData :=
  slots.map fun i => received transferID fileID (source.reply content (slotRequest [] [] i))

variable {transferID fileID : Ident} {size : Nat}

theorem slot_lt {i : Nat} (hbound : size < 2 ^ 63) (hi : i < gridSlots size) :
    kDefaultChunkSize * i < 2 ^ 63 :=
  ((grid_lt_iff size i).mpr hi).trans hbound

/-- The reply for a slot is the slice of the file. -/
theorem received_slot (source : Source) {i : Nat}
    (hi : kDefaultChunkSize * i < 2 ^ 63) :
    received transferID fileID (source.reply content (slotRequest [] [] i)) = {
      transferID := transferID, fileID := fileID
      offset := kDefaultChunkSize * i
      data := slice content.bytes (kDefaultChunkSize * i)
      isLast := (source.reply content (slotRequest [] [] i)).isLast } := by
  have hoffset : (slotRequest [] [] i).offset.toNat =
      kDefaultChunkSize * i := toNat_ofNat (hi.trans (by decide))
  have hsize : (slotRequest [] [] i).size.toNat = 262144 := rfl
  obtain ⟨n, hlow, hhigh, hdata, herror⟩ := reply_data source content
    (by rw [hoffset]; exact hi) (by rw [hsize]; omega)
  have hn : n = kDefaultChunkSize := by
    rw [hsize] at hlow hhigh
    change n = 262144
    omega
  rw [received, reply_offset, hoffset, hdata, herror, hoffset, hn]
  rfl

/-- The slices for slots that are `0, …, m - 1` in some order. -/
theorem total_slices (bytes : Bytes) {slots : List Nat} {m : Nat}
    (hslots : slots.Perm (List.range m)) :
    (slots.map (fun i => (slice bytes (kDefaultChunkSize * i)).length)).sum =
      min bytes.length (kDefaultChunkSize * m) := by
  have hnodup : slots.Nodup := hslots.nodup_iff.mpr List.nodup_range
  have hset : slots.toFinset = Finset.range m := by
    rw [List.toFinset_eq_of_perm _ _ hslots, List.toFinset_range]
  rw [← List.sum_toFinset _ hnodup, hset, ← sum_slots]
  simp only [length_slice]

/-- **The slices put together** in any order are the file as far as the slots
go. -/
theorem writeAll_slices (bytes : Bytes) {slots : List Nat} {m : Nat}
    (hslots : slots.Perm (List.range m))
    (hsome : ∀ i ∈ slots, kDefaultChunkSize * i < bytes.length) :
    writeAll 0 [] (slots.map fun i =>
        (kDefaultChunkSize * i, slice bytes (kDefaultChunkSize * i))) =
      bytes.take (kDefaultChunkSize * m) := by
  set blocks : List (Block UInt8) :=
    slots.map fun i => (kDefaultChunkSize * i, slice bytes (kDefaultChunkSize * i)) with hblocks
  have hmem : ∀ i, i ∈ slots ↔ i < m := fun i => by rw [hslots.mem_iff, List.mem_range]
  have hK : kDefaultChunkSize = 262144 := rfl
  have hne : ∀ b ∈ blocks, b.2 ≠ [] := by
    intro b hb
    obtain ⟨i, hi, rfl⟩ := List.mem_map.mp hb
    have hlength := length_slice bytes (kDefaultChunkSize * i)
    have hinside := hsome i hi
    exact List.ne_nil_of_length_pos (by dsimp only; omega)
  have hcovers : Covers blocks (min bytes.length (kDefaultChunkSize * m)) := by
    intro x hx
    have hlt : x / kDefaultChunkSize < m := Nat.div_lt_of_lt_mul (by omega)
    have hdiv := Nat.div_add_mod x kDefaultChunkSize
    have hmod := Nat.mod_lt x (show 0 < kDefaultChunkSize by decide)
    refine ⟨_, List.mem_map_of_mem ((hmem _).mpr hlt), by dsimp only; omega, ?_⟩
    simp only [blockEnd, length_slice]
    omega
  have hlength : (writeAll 0 [] blocks).length = min bytes.length (kDefaultChunkSize * m) := by
    refine (hcovers.length_writeAll_eq_iff 0 hne).mpr ?_
    intro b hb
    obtain ⟨i, hi, rfl⟩ := List.mem_map.mp hb
    have hinside := hsome i hi
    have hle : kDefaultChunkSize * (i + 1) ≤ kDefaultChunkSize * m :=
      Nat.mul_le_mul_left _ ((hmem i).mp hi)
    simp only [blockEnd, length_slice]
    rw [Nat.mul_succ] at hle
    omega
  apply List.ext_getElem?
  intro x
  by_cases hx : x < min bytes.length (kDefaultChunkSize * m)
  · obtain ⟨b, hb, hlo, hhi⟩ := hcovers x hx
    rw [List.getElem?_take_of_lt (by omega)]
    refine writeAll_agrees 0 bytes blocks ?_ hne hb hlo hhi []
    intro c hc j hj
    obtain ⟨i, -, rfl⟩ := List.mem_map.mp hc
    simp only [length_slice] at hj
    simp only [slice]
    rw [List.getElem?_take_of_lt (by omega), List.getElem?_drop]
  · rw [List.getElem?_eq_none (by omega), List.getElem?_eq_none (by rw [List.length_take]; omega)]

/-- The replies complete a download exactly if the file reaches into the last
slot. -/
theorem complete_served_iff (source : Source) (transferID fileID : Ident) (hbound : size < 2 ^ 63)
    (hfile : content.bytes.length < 2 ^ 63) {slots : List Nat}
    (hslots : slots.Perm (List.range (gridSlots size))) :
    Complete (gridSlots size) 0 (decisive size (served source content transferID fileID slots)) ↔
      ∀ i < gridSlots size, kDefaultChunkSize * i < content.bytes.length := by
  have hmem : ∀ i, i ∈ slots ↔ i < gridSlots size := fun i => by
    rw [hslots.mem_iff, List.mem_range]
  have hlength : slots.length = gridSlots size := by
    rw [hslots.length_eq, List.length_range]
  have hdecisive : decisive size (served source content transferID fileID slots) =
      served source content transferID fileID slots :=
    List.take_of_length_le (by rw [served, List.length_map, hlength])
  have hreceived : ∀ i ∈ slots, received transferID fileID
      (source.reply content (slotRequest [] [] i)) = _ := fun i hi =>
    received_slot source (slot_lt hbound ((hmem i).mp hi))
  have htotal : totalBytes (served source content transferID fileID slots) =
      min content.bytes.length (kDefaultChunkSize * gridSlots size) := by
    rw [← total_slices content.bytes hslots, totalBytes, served, List.map_map]
    congr 1
    refine List.map_congr_left fun i hi => ?_
    rw [Function.comp_apply, hreceived i hi]
  rw [hdecisive, Complete, htotal]
  constructor
  · rintro ⟨-, hwell, -⟩ i hi
    have hchunk := hwell _ (List.mem_map_of_mem ((hmem i).mpr hi))
    rw [hreceived i ((hmem i).mpr hi)] at hchunk
    have hpos := List.length_pos_iff.mpr hchunk.2
    rw [length_slice] at hpos
    omega
  · intro hall
    refine ⟨by rw [served, List.length_map, hlength], ?_, by omega⟩
    intro chunk hchunk
    obtain ⟨i, hi, rfl⟩ := List.mem_map.mp hchunk
    rw [hreceived i hi]
    refine ⟨rfl, List.ne_nil_of_length_pos ?_⟩
    have hinside := hall i ((hmem i).mp hi)
    have hK : kDefaultChunkSize = 262144 := rfl
    rw [length_slice]
    omega

/-- **A file from any helper to a Mac**: with all slots served, in any order,
the download completes if and only if the file, as it is read, reaches into
the last slot of the announced size; and then what is on the disk is the file
up to the end of that slot, all of it if its size is the announced one. -/
theorem served_download (source : Source) (content : FileContent) (transferID fileID : Ident)
    (destPath : String) (hpos : 0 < size) (hbound : size < 2 ^ 63)
    (hfile : content.bytes.length < 2 ^ 63) {slots : List Nat}
    (hslots : slots.Perm (List.range (gridSlots size))) :
    ((∃ t es, download transferID fileID size destPath
        (served source content transferID fileID slots) = some (t, es) ∧ .completion none ∈ es) ↔
      kDefaultChunkSize * (gridSlots size - 1) < content.bytes.length) ∧
    ∀ t es, download transferID fileID size destPath
        (served source content transferID fileID slots) = some (t, es) → .completion none ∈ es →
      t.file = some (content.bytes.take (kDefaultChunkSize * gridSlots size)) ∧
      (content.bytes.length = size → t.file = some content.bytes) := by
  have hgrid := gridSlots_pos hpos
  have hiff := complete_served_iff source transferID fileID hbound hfile hslots
  have hreaches : (∀ i < gridSlots size, kDefaultChunkSize * i < content.bytes.length) ↔
      kDefaultChunkSize * (gridSlots size - 1) < content.bytes.length := by
    constructor
    · intro hall
      exact hall _ (by omega)
    · intro hlast i hi
      exact lt_of_le_of_lt (Nat.mul_le_mul_left _ (by omega)) hlast
  refine ⟨?_, ?_⟩
  · rw [← hreaches, ← hiff]
    constructor
    · rintro ⟨t, es, hdownload, hdone⟩
      exact complete_of_download hpos hbound hdownload hdone
    · intro hcomplete
      obtain ⟨t, es, hdownload, hdone, -⟩ :=
        download_complete transferID fileID destPath hpos hbound hcomplete
      exact ⟨t, es, hdownload, hdone⟩
  · intro t es hdownload hdone
    have hcomplete := complete_of_download hpos hbound hdownload hdone
    have hall := hiff.mp hcomplete
    obtain ⟨u, fs, hdownload', -, -, hdisk⟩ :=
      download_complete transferID fileID destPath hpos hbound hcomplete
    rw [hdownload'] at hdownload
    cases hdownload
    have hmem : ∀ i, i ∈ slots ↔ i < gridSlots size := fun i => by
      rw [hslots.mem_iff, List.mem_range]
    have hdecisive : (decisive size (served source content transferID fileID slots)).map
        FileChunkData.block = slots.map fun i =>
          (kDefaultChunkSize * i, slice content.bytes (kDefaultChunkSize * i)) := by
      rw [decisive, List.take_of_length_le (by
        rw [served, List.length_map, hslots.length_eq, List.length_range]), served, List.map_map]
      refine List.map_congr_left fun i hi => ?_
      rw [Function.comp_apply, received_slot source (slot_lt hbound ((hmem i).mp hi))]
      rfl
    rw [hdecisive, writeAll_slices content.bytes hslots fun i hi => hall i ((hmem i).mp hi)]
      at hdisk
    refine ⟨hdisk, fun hsize => ?_⟩
    rw [hdisk, List.take_of_length_le]
    have hcover : ¬ kDefaultChunkSize * gridSlots size < size := by
      rw [grid_lt_iff]
      omega
    omega

/-- Three bytes of an announced two: the slot holds them all. -/
theorem served_download_grown : ∃ t es, download ['t'] ['f'] 2 "out"
    (served .macOS ⟨[1, 2, 3], by decide⟩ ['t'] ['f'] [0]) = some (t, es) ∧
      t.file = some [1, 2, 3] := by
  have hslots : [0].Perm (List.range (gridSlots 2)) := by decide
  have hserved := served_download .macOS ⟨[1, 2, 3], by decide⟩ ['t'] ['f'] "out" (by decide)
    (by decide) (by decide) hslots
  obtain ⟨t, es, hdownload, hdone⟩ := hserved.1.mpr (by decide)
  exact ⟨t, es, hdownload, (hserved.2 t es hdownload hdone).1⟩

end Mac

/-! ## The Windows stream -/

section Windows

open VirtualFileStream

/-- `FetchChunk` where the reply comes: a reply with an error fails. -/
def fetched (reply : ParsedFileChunkData) : Fetched :=
  if reply.error = [] then { hr := sOk, chunk := reply.data, isLast := reply.isLast }
  else { hr := eFail }

def fetchChunk (source : Source) (content : FileContent) (offset : UInt64) (want : UInt32) :
    Fetched :=
  fetched (source.reply content { offset := offset, size := want })

/-- Reads with these buffers, one after the other. -/
def readAll (source : Source) (content : FileContent) (s : Stream) (cbs : List UInt32) :
    Stream × List ReadResult :=
  s.reads (cbs.map fun cb => (cb, fetchChunk source content))

/-- The read after these. -/
def nextRead (source : Source) (content : FileContent) (s : Stream) (cbs : List UInt32)
    (cb : UInt32) : ReadResult :=
  ((readAll source content s cbs).1.read true cb (fetchChunk source content)).2

/-- How far reads with these buffers come at least, if there is so much. -/
def reach (cbs : List UInt32) : Nat := (cbs.map fun cb => min cb.toNat 4194304).sum

variable {s : Stream}

/-- What is fetched inside the announced size. -/
theorem fetchChunk_eq (source : Source) (content : FileContent) {cb : UInt32} (hcb : 0 < cb.toNat)
    (hinside : s.pos.toNat < s.size.toNat) (hsize : s.size.toNat < 2 ^ 63) :
    ∃ n, min (min (s.size.toNat - s.pos.toNat) cb.toNat) 4194304 ≤ n ∧
      n ≤ min (s.size.toNat - s.pos.toNat) cb.toNat ∧
      fetchChunk source content s.pos (s.want cb) = {
        hr := sOk
        chunk := content.range s.pos.toNat n
        isLast := (source.reply content { offset := s.pos, size := s.want cb }).isLast } := by
  have hwant := Stream.toNat_want s cb (UInt64.lt_iff_toNat_lt.mpr hinside)
  obtain ⟨n, hlow, hhigh, hdata, herror⟩ := reply_data source content
    (show ({ offset := s.pos, size := s.want cb } : ParsedFileChunkRequest).offset.toNat < 2 ^ 63
      by dsimp only; omega) (by dsimp only; omega)
  dsimp only at hlow hhigh hdata
  rw [hwant] at hlow hhigh
  exact ⟨n, hlow, hhigh, by rw [fetchChunk, fetched, if_pos herror, hdata]⟩

/-- What a read of a served file does: it hands over what is there, is asked
for and announced, at least 4 MiB if that is so much, and fails where the file
ends before the announced size. -/
structure ServedRead (content : FileContent) (s : Stream) (cb : UInt32)
    (r : Stream × ReadResult) : Prop where
  stream : r.1 = { s with pos := r.1.pos }
  reported : r.2.reported = segment content.bytes s.pos.toNat r.1.pos.toNat
  forward : s.pos.toNat ≤ r.1.pos.toNat
  inside : r.1.pos.toNat ≤ max s.pos.toNat (min s.size.toNat content.bytes.length)
  far : min (min s.size.toNat content.bytes.length) (s.pos.toNat + min cb.toNat 4194304) ≤
    r.1.pos.toNat
  fails : failed r.2.hr = true ↔ s.pos.toNat < s.size.toNat ∧ content.bytes.length ≤ s.pos.toNat
  atEnd : r.2.hr = sFalse ↔ s.size.toNat ≤ r.1.pos.toNat

theorem read_served (source : Source) (content : FileContent) (hidle : s.reading = false)
    {cb : UInt32} (hcb : 0 < cb.toNat) (hsize : s.size.toNat < 2 ^ 63) :
    ServedRead content s cb (s.read true cb (fetchChunk source content)) := by
  have hread := Stream.reads_read hidle cb (fetchChunk source content)
  generalize s.read true cb (fetchChunk source content) = r at hread ⊢
  cases hread with
  | nothing hzero => omega
  | atEnd _ hend =>
      refine ⟨rfl, (segment_self _ _).symm, le_rfl, le_max_left _ _, ?_, ?_, ?_⟩
      · dsimp only
        omega
      · have hok : failed sFalse = false := rfl
        simp only [hok, Bool.false_eq_true, false_iff]
        omega
      · simp [hend]
  | @refused hr _ hinside hnone hfailed =>
      obtain ⟨n, hlow, -, hfetch⟩ := fetchChunk_eq source content hcb hinside hsize
      have hne : hr ≠ sFalse := by
        rintro rfl
        cases hfailed
      have hempty : content.bytes.length ≤ s.pos.toNat := by
        rw [hfetch] at hnone
        have hok : failed sOk ≠ true := by decide
        have hnil : content.range s.pos.toNat n = [] := hnone.resolve_left hok
        have hlength := length_range content s.pos.toNat n
        rw [hnil, List.length_nil] at hlength
        omega
      refine ⟨rfl, (segment_self _ _).symm, le_rfl, le_max_left _ _, ?_, ?_, ?_⟩
      · dsimp only
        omega
      · simp [hfailed, hinside, hempty]
      · simp only [hne, false_iff, not_le]
        exact hinside
  | @got k pos hr hk hpositive hinside hsome hlength hpos hhr =>
      have hlt : s.pos.toNat < s.size.toNat := by omega
      have hwant := Stream.toNat_want s cb (UInt64.lt_iff_toNat_lt.mpr hlt)
      obtain ⟨n, hlow, hhigh, hfetch⟩ :=
        fetchChunk_eq source content hcb hlt hsize
      have hok : failed hr = false := by
        rw [hhr]
        split <;> rfl
      rw [hfetch, hwant] at hlength
      dsimp only at hlength
      rw [length_range] at hlength
      have hcblt := cb.toNat_lt
      have hnat : (UInt32.ofNat k).toNat = k := UInt32.toNat_ofNat_of_lt' (by
        change k < 2 ^ 32
        omega)
      refine ⟨rfl, ?_, ?_, ?_, ?_, ?_, ?_⟩
      · simp only [ReadResult.reported, Option.getD_some, hnat, hfetch, List.take_take,
          hpos, segment_eq_take_drop, FileContent.range]
        congr 1
        omega
      · dsimp only
        omega
      · dsimp only
        omega
      · dsimp only
        omega
      · simp only [hok, Bool.false_eq_true, false_iff]
        omega
      · simp only [hhr]
        by_cases hend : s.size.toNat ≤ pos.toNat
        · simp [hend]
        · simp [hend, sOk, sFalse]

/-- Reads one after the other. -/
theorem readAll_served (source : Source) (content : FileContent) (hidle : s.reading = false)
    (hsize : s.size.toNat < 2 ^ 63) {cbs : List UInt32} (hcbs : ∀ cb ∈ cbs, 0 < cb.toNat) :
    ∃ pos, (readAll source content s cbs).1 = { s with pos := pos } ∧
      (readAll source content s cbs).2.flatMap ReadResult.reported =
        segment content.bytes s.pos.toNat pos.toNat ∧
      s.pos.toNat ≤ pos.toNat ∧
      pos.toNat ≤ max s.pos.toNat (min s.size.toNat content.bytes.length) ∧
      min (min s.size.toNat content.bytes.length) (s.pos.toNat + reach cbs) ≤ pos.toNat := by
  induction cbs generalizing s with
  | nil =>
      refine ⟨s.pos, rfl, (segment_self _ _).symm, le_rfl, le_max_left _ _, ?_⟩
      change min _ (s.pos.toNat + 0) ≤ _
      omega
  | cons cb cbs ih =>
      have hfirst := read_served source content hidle (hcbs cb List.mem_cons_self) hsize
      generalize hread : s.read true cb (fetchChunk source content) = r at hfirst
      obtain ⟨hstream, hreported, hforward, hinside, hfar, -, -⟩ := hfirst
      obtain ⟨pos, hlast, hall, hforward', hinside', hfar'⟩ := ih (s := r.1)
        (by rw [hstream]; exact hidle) (by rw [hstream]; exact hsize)
        fun b hb => hcbs b (List.mem_cons_of_mem cb hb)
      have hsizes : r.1.size = s.size := by rw [hstream]
      rw [hsizes] at hinside' hfar'
      have hreach : reach (cb :: cbs) = min cb.toNat 4194304 + reach cbs := by
        simp [reach]
      have hreads : readAll source content s (cb :: cbs) =
          ((readAll source content r.1 cbs).1, r.2 :: (readAll source content r.1 cbs).2) := by
        simp only [readAll, List.map_cons, Stream.reads, hread]
      rw [hreads, hreach]
      refine ⟨pos, ?_, ?_, by omega, by omega, by omega⟩
      · rw [hlast, hstream]
      · rw [List.flatMap_cons, hreported, hall, segment_append _ hforward hforward']

end Windows

end ServedDownloads
