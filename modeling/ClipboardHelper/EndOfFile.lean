import ClipboardHelper.ChunkServing

/-!
# Where a file ends: the four servers of file chunks

A `FILE_CHUNK_REQUEST` asks for so many bytes from an offset on; the reply
carries the bytes and says whether the file ends with them.  The bytes come
from a file on disk (`HandleFileChunkRequest` in `dispatch.cpp`), from the
stream or the memory block of another application's data object
(`ReadVirtualFileChunk`), or, on macOS, from a local file
(`handleIncomingFileChunkRequest`, embedded here).

Given a file that can be read, all four return the bytes from the offset on,
as many as asked for or as there are.  They tell the end of the file by two
different tests.  The memory block and macOS compare positions: the chunk is
the last if it reaches the end of the file.  The disk and the stream count
bytes: the chunk is the last if it is shorter than asked for.

**`servers_agree_iff`**: the tests agree unless the bytes asked for end
exactly where the file ends.  There the disk and the stream return the whole
rest of the file and say that more is to come (`whole_file_is_not_last`).
-/

namespace EndOfFile

open Library DispatchCodec ChunkServing

/-! ## The macOS server -/

/-- What the system says about a local file: an error opening it, its size
attribute, an error seeking in it, and its bytes from an offset on. -/
structure LocalFile where
  openError : Option Bytes
  size : Option UInt64
  seekError : UInt64 → Option Bytes
  readData : UInt64 → UInt64 → Bytes

def fileNotFound : Bytes := ascii "file not found"

def sendFileChunk (req : ParsedFileChunkRequest) (data : Bytes) (isLast : Bool) :
    ParsedFileChunkData :=
  replyTo req data isLast []

def sendFileChunkError (req : ParsedFileChunkRequest) (error : Bytes) : ParsedFileChunkData :=
  replyTo req [] true error

/-- How many bytes the macOS server takes a request to ask for. -/
def macChunkSize (size : UInt32) : Nat := if size > 0 then size.toNat else 262144

/-- `handleIncomingFileChunkRequest`.  A size attribute that cannot be read
counts as zero; no more than `remaining` bytes are read, so the position
after them is at most the size of the file. -/
def handleIncomingFileChunkRequest (localFileURLs : Bytes → Option LocalFile)
    (req : ParsedFileChunkRequest) : ParsedFileChunkData :=
  match localFileURLs req.fileId with
  | none => sendFileChunkError req fileNotFound
  | some file =>
    match file.openError with
    | some error => sendFileChunkError req error
    | none =>
      let fileSize := file.size.getD 0
      if req.offset ≥ fileSize then sendFileChunk req [] true
      else
        match file.seekError req.offset with
        | some error => sendFileChunkError req error
        | none =>
          let remaining := fileSize - req.offset
          let toRead := min (UInt64.ofNat (macChunkSize req.size)) remaining
          let data := (file.readData req.offset toRead).take toRead.toNat
          sendFileChunk req data (req.offset + UInt64.ofNat data.length ≥ fileSize)

/-! ## Files that can be read -/

/-- The content of a file; sizes are 64-bit numbers on both systems. -/
structure FileContent where
  bytes : Bytes
  fits : bytes.length < 2 ^ 64

/-- The bytes of a file from an offset on, at most `size` of them. -/
def FileContent.range (content : FileContent) (offset size : Nat) : Bytes :=
  (content.bytes.drop offset).take size

/-- `SetFilePointerEx` and `Seek` take the offset as a signed number. -/
def seekable (offset : UInt64) : Bool := offset.toNat < 2 ^ 63

/-- A disk on which every path is this file, read in full. -/
def FileContent.onDisk (content : FileContent) : World where
  readPath _ offset want :=
    if seekable offset then .got (content.range offset.toNat want.toNat) else .seekFailed
  getData _ _ _ _ := .failed

/-- A data object that hands this file out as a stream. -/
def FileContent.asStream (content : FileContent) : World where
  readPath _ _ _ := .openFailed
  getData _ _ offset size :=
    .stream (if seekable offset then some (content.range offset.toNat size.toNat) else none)

/-- A data object that hands this file out as a memory block. -/
def FileContent.asBlock (content : FileContent) : World where
  readPath _ _ _ := .openFailed
  getData _ _ _ _ := .hglobal content.bytes true

/-- A local file with this content. -/
def FileContent.asLocal (content : FileContent) : LocalFile where
  openError := none
  size := some (UInt64.ofNat content.bytes.length)
  seekError _ := none
  readData offset count := content.range offset.toNat count.toNat

/-- **The chunk that a request is due**: the bytes asked for, as far as there
are any, and whether the file ends with them. -/
def FileContent.chunkAt (content : FileContent) (offset size : Nat) : Bytes × Bool :=
  (content.range offset size,
    content.bytes.length ≤ offset + (content.range offset size).length)

/-- A reply that carries the chunk that the request is due. -/
def Serves (content : FileContent) (req : ParsedFileChunkRequest)
    (reply : ParsedFileChunkData) : Prop :=
  reply = replyTo req (content.chunkAt req.offset.toNat req.size.toNat).1
    (content.chunkAt req.offset.toNat req.size.toNat).2 []

/-! ## The two tests -/

variable {content : FileContent}

theorem length_range (content : FileContent) (offset size : Nat) :
    (content.range offset size).length = min size (content.bytes.length - offset) := by
  simp [FileContent.range]

@[simp] theorem take_range (content : FileContent) (offset size : Nat) :
    (content.range offset size).take size = content.range offset size := by
  simp [FileContent.range]

/-- **Counting bytes and comparing positions** are the same test unless the
bytes asked for end where the file ends. -/
theorem short_iff_reaches {offset size : Nat} (hpos : 0 < size) :
    ((content.range offset size).length < size ↔
      content.bytes.length ≤ offset + (content.range offset size).length) ↔
      offset + size ≠ content.bytes.length := by
  rw [length_range]
  omega

theorem toNat_ofNat {n : Nat} (hn : n < 2 ^ 64) : (UInt64.ofNat n).toNat = n :=
  UInt64.toNat_ofNat_of_lt' hn

/-- A size within bounds is asked for as it is. -/
theorem clampSize_of_le {size : UInt32} (hlow : 1 ≤ size.toNat) (hhigh : size.toNat ≤ 4194304) :
    clampSize size = size := by
  have hzero : size ≠ 0 := by
    rintro rfl
    exact absurd hlow (by decide)
  have hmax : ¬ size > kMaxChunkSize := by
    intro hgt
    have hlt : (4194304 : Nat) < size.toNat := UInt32.lt_iff_toNat_lt.mp hgt
    omega
  rw [clampSize, if_neg hzero, if_neg hmax]

/-- Replies to one request differ in what they say of the end. -/
theorem replyTo_isLast_iff {req : ParsedFileChunkRequest} {data : Bytes} {p q : Prop}
    [Decidable p] [Decidable q] :
    replyTo req data (decide p) [] = replyTo req data (decide q) [] ↔ (p ↔ q) := by
  simp [replyTo]

section

variable {req : ParsedFileChunkRequest} (hoffset : req.offset.toNat < 2 ^ 63)
  (hlow : 1 ≤ req.size.toNat) (hhigh : req.size.toNat ≤ 4194304)
include hoffset hlow hhigh

/-- The disk counts bytes. -/
theorem onDisk_serves_iff (path : WideString) :
    Serves content req (serveFrom content.onDisk req (.physical path)) ↔
      req.offset.toNat + req.size.toNat ≠ content.bytes.length := by
  have hseek : seekable req.offset = true := by simpa [seekable] using hoffset
  rw [Serves, serveFrom, clampSize_of_le hlow hhigh]
  simp only [FileContent.onDisk, hseek, if_true, take_range, FileContent.chunkAt]
  rw [replyTo_isLast_iff]
  exact short_iff_reaches hlow

/-- The stream counts bytes. -/
theorem asStream_serves_iff (object : DataObject) (lindex : UInt32) :
    Serves content req (serveFrom content.asStream req (.virtual object lindex)) ↔
      req.offset.toNat + req.size.toNat ≠ content.bytes.length := by
  have hseek : seekable req.offset = true := by simpa [seekable] using hoffset
  rw [Serves, serveFrom, clampSize_of_le hlow hhigh]
  simp only [FileContent.asStream, hseek, if_true, readVirtualFileChunk, take_range,
    FileContent.chunkAt]
  rw [replyTo_isLast_iff]
  exact short_iff_reaches hlow

omit hoffset in
/-- The memory block compares positions. -/
theorem asBlock_serves (object : DataObject) (lindex : UInt32) :
    Serves content req (serveFrom content.asBlock req (.virtual object lindex)) := by
  rw [Serves, serveFrom, clampSize_of_le hlow hhigh]
  simp only [FileContent.asBlock, readVirtualFileChunk, FileContent.chunkAt, if_true]
  by_cases hinside : req.offset.toNat < content.bytes.length
  · simp only [if_pos hinside]
    rfl
  · have hpast : content.bytes.length ≤ req.offset.toNat := by omega
    simp [FileContent.range, List.drop_eq_nil_of_le hpast, hpast]

omit hoffset in
/-- So does macOS. -/
theorem asLocal_serves {localFileURLs : Bytes → Option LocalFile}
    (hfile : localFileURLs req.fileId = some content.asLocal) :
    Serves content req (handleIncomingFileChunkRequest localFileURLs req) := by
  have hsize : (UInt64.ofNat content.bytes.length).toNat = content.bytes.length :=
    toNat_ofNat content.fits
  have hchunk : macChunkSize req.size = req.size.toNat := by
    have hpos : req.size > 0 := UInt32.lt_iff_toNat_lt.mpr hlow
    rw [macChunkSize, if_pos hpos]
  rw [Serves, handleIncomingFileChunkRequest, hfile]
  simp only [FileContent.asLocal, Option.getD_some, hchunk]
  by_cases hpast : req.offset ≥ UInt64.ofNat content.bytes.length
  · have hle : content.bytes.length ≤ req.offset.toNat := by
      rw [← hsize]
      exact UInt64.le_iff_toNat_le.mp hpast
    simp [if_pos hpast, sendFileChunk, FileContent.chunkAt, FileContent.range,
      List.drop_eq_nil_of_le hle, hle]
  · have hlt : req.offset.toNat < content.bytes.length := by
      rw [← hsize]
      exact UInt64.lt_iff_toNat_lt.mp (UInt64.not_le.mp hpast)
    have hremaining : (UInt64.ofNat content.bytes.length - req.offset).toNat =
        content.bytes.length - req.offset.toNat := by
      rw [UInt64.toNat_sub_of_le _ _ (UInt64.le_of_lt (UInt64.not_le.mp hpast)), hsize]
    have hwant : (UInt64.ofNat req.size.toNat).toNat = req.size.toNat :=
      toNat_ofNat (by omega)
    simp only [if_neg hpast, toNat_min, hremaining, hwant]
    have hdata : (content.range req.offset.toNat (min req.size.toNat
        (content.bytes.length - req.offset.toNat))).take (min req.size.toNat
        (content.bytes.length - req.offset.toNat)) =
        content.range req.offset.toNat req.size.toNat := by
      rw [take_range]
      simp [FileContent.range, List.take_eq_take_min]
    rw [hdata, sendFileChunk, FileContent.chunkAt, replyTo_isLast_iff]
    have hlength := length_range content req.offset.toNat req.size.toNat
    have hfits := content.fits
    have hsum : (req.offset + UInt64.ofNat (content.range req.offset.toNat
        req.size.toNat).length).toNat =
        req.offset.toNat + (content.range req.offset.toNat req.size.toNat).length := by
      rw [UInt64.toNat_add, toNat_ofNat (by omega)]
      exact Nat.mod_eq_of_lt (by omega)
    rw [ge_iff_le, UInt64.le_iff_toNat_le, hsum, hsize]

/-- **The four servers agree** on a request exactly when the bytes asked for
do not end where the file ends. -/
theorem servers_agree_iff (path : WideString) (object : DataObject) (lindex : UInt32)
    {localFileURLs : Bytes → Option LocalFile}
    (hfile : localFileURLs req.fileId = some content.asLocal) :
    (Serves content req (serveFrom content.onDisk req (.physical path)) ∧
      Serves content req (serveFrom content.asStream req (.virtual object lindex)) ∧
      Serves content req (serveFrom content.asBlock req (.virtual object lindex)) ∧
      Serves content req (handleIncomingFileChunkRequest localFileURLs req)) ↔
      req.offset.toNat + req.size.toNat ≠ content.bytes.length := by
  constructor
  · intro hall
    exact (onDisk_serves_iff hoffset hlow hhigh path).mp hall.1
  · intro hne
    exact ⟨(onDisk_serves_iff hoffset hlow hhigh path).mpr hne,
      (asStream_serves_iff hoffset hlow hhigh object lindex).mpr hne,
      asBlock_serves hlow hhigh object lindex, asLocal_serves hlow hhigh hfile⟩

end

/-- A file of four bytes. -/
def fourBytes : FileContent := ⟨[1, 2, 3, 4], by decide⟩

/-- A request of three bytes of it leaves no doubt. -/
theorem servers_agree_three_of_four :
    Serves fourBytes ⟨[7], [48], 0, 3⟩
      (serveFrom fourBytes.onDisk ⟨[7], [48], 0, 3⟩ (.physical [97])) ∧
    Serves fourBytes ⟨[7], [48], 0, 3⟩
      (serveFrom fourBytes.asStream ⟨[7], [48], 0, 3⟩ (.virtual 1 0)) ∧
    Serves fourBytes ⟨[7], [48], 0, 3⟩
      (serveFrom fourBytes.asBlock ⟨[7], [48], 0, 3⟩ (.virtual 1 0)) ∧
    Serves fourBytes ⟨[7], [48], 0, 3⟩
      (handleIncomingFileChunkRequest (fun _ => some fourBytes.asLocal) ⟨[7], [48], 0, 3⟩) :=
  (servers_agree_iff (by decide) (by decide) (by decide) [97] 1 0 rfl).mpr (by decide)

/-- **The whole file is not the last chunk**: asked for all four bytes, the
disk returns them and says that more is to come. -/
theorem whole_file_is_not_last :
    serveFrom fourBytes.onDisk ⟨[7], [48], 0, 4⟩ (.physical [97]) =
        replyTo ⟨[7], [48], 0, 4⟩ [1, 2, 3, 4] false [] ∧
      ¬ Serves fourBytes ⟨[7], [48], 0, 4⟩
        (serveFrom fourBytes.onDisk ⟨[7], [48], 0, 4⟩ (.physical [97])) ∧
      Serves fourBytes ⟨[7], [48], 0, 4⟩
        (handleIncomingFileChunkRequest (fun _ => some fourBytes.asLocal) ⟨[7], [48], 0, 4⟩) := by
  refine ⟨rfl, ?_, ?_⟩
  · rw [onDisk_serves_iff (by decide) (by decide) (by decide)]
    decide
  · exact asLocal_serves (by decide) (by decide) rfl

end EndOfFile
