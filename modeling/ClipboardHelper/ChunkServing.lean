import ClipboardHelper.Library.Machine
import ClipboardHelper.DispatchCodec

/-!
# Serving file chunks from the Windows clipboard

When the clipboard holds files, the helper tells the parent their metadata
and remembers where each file is (`UpdateFilePaths`, `UpdateVirtualFiles`).
The parent then pulls the bytes with `FILE_CHUNK_REQUEST`s, which name a
`transfer_id` and a `file_id`.  The `file_id` is the position in the list,
and the table has room for one snapshot only.

A request is served in two steps: `resolve` looks the `file_id` up under
`file_paths_mu_`, `serve` reads the file and replies; clipboard changes may
come in between and around.  The world that `serve` reads from (the disk, the
data objects of other applications) is an argument of the step.

A transfer means one snapshot to the parent.  **`served_from_snapshot_iff`**:
a request of such a transfer is answered from its snapshot, whatever the
world, exactly when at that moment the table has no entry for the `file_id`
or the very file that the snapshot has there; and along runs in which this
is so for every request, every reply without an error carries bytes of the
right file.  The lookup ignores the `transfer_id`, so a second copy in the
middle of a transfer splices two files (`second_copy_splices`).
-/

namespace ChunkServing

open Library DispatchCodec

/-! ## State -/

/-- The identity of an `IDataObject`; `0` is the null pointer. -/
abbrev DataObject := Nat

/-- A clipboard snapshot with the data object that its virtual files come
from. -/
structure Snapshot extends ClipboardSnapshot where
  virtualDataObject : DataObject := 0
deriving DecidableEq, Repr

/-- Where the bytes of a file are. -/
inductive FileSource
  | physical (path : WideString)
  | virtual (object : DataObject) (lindex : UInt32)
deriving DecidableEq, Repr

/-- The file at position `i` of a Files snapshot. -/
def Snapshot.file? (snap : Snapshot) (i : Nat) : Option FileSource :=
  if snap.virtualFiles ≠ [] then
    snap.virtualFiles[i]?.map (fun v => .virtual snap.virtualDataObject v.lindex)
  else snap.filePaths[i]?.map .physical

/-- The file tables of the dispatcher, and the request that the pipe thread
has resolved and not yet answered. -/
structure Server where
  filePaths : List (Bytes × WideString) := []
  virtualDataObject : DataObject := 0
  virtualLindex : List (Bytes × UInt32) := []
  inFlight : Option (ParsedFileChunkRequest × Option FileSource) := none
deriving DecidableEq, Repr

/-- `table[std::to_string(i)] = entries[i]` for every `i`, from empty. -/
def numbered {α : Type} (entries : List α) : List (Bytes × α) :=
  entries.mapIdx (fun i entry => (decimal i, entry))

def updateFilePaths (s : Server) (paths : List WideString) : Server :=
  { s with filePaths := numbered paths, virtualDataObject := 0, virtualLindex := [] }

def updateVirtualFiles (s : Server) (dataObject : DataObject)
    (lindexById : List UInt32) : Server :=
  { s with
      filePaths := [], virtualDataObject := dataObject,
      virtualLindex := numbered lindexById }

/-- The table update of `OnClipboardChanged` and of `GET_CLIPBOARD`. -/
def cacheSnapshot (s : Server) (snap : Snapshot) : Server :=
  if snap.contentType = .files then
    if snap.virtualFiles ≠ [] then
      updateVirtualFiles s snap.virtualDataObject
        (snap.virtualFiles.map (fun v => v.lindex))
    else updateFilePaths s snap.filePaths
  else s

/-- The inbound half of `ReleaseStaBoundResources`. -/
def releaseInbound (s : Server) : Server :=
  { s with virtualDataObject := 0, virtualLindex := [] }

/-! ## Reading -/

def kDefaultChunkSize : UInt32 := 262144
def kMaxChunkSize : UInt32 := 4194304

/-- How many bytes a request asks for. -/
def clampSize (size : UInt32) : UInt32 :=
  let want := if size = 0 then kDefaultChunkSize else size
  if want > kMaxChunkSize then kMaxChunkSize else want

/-- What comes of opening, seeking and reading a file. -/
inductive DiskRead
  | openFailed
  | seekFailed
  | readFailed
  | got (bytes : Bytes)
deriving DecidableEq, Repr

/-- What `GetData` hands out: nothing, a stream (whose `Seek` or `Read` may
fail), a memory block (which may fail to lock), or some other medium. -/
inductive Medium
  | failed
  | stream (read : Option Bytes)
  | hglobal (block : Bytes) (locks : Bool)
  | unsupported
deriving DecidableEq, Repr

/-- Everything outside the helper that a read depends on. -/
structure World where
  readPath : WideString → UInt64 → UInt32 → DiskRead
  getData : DataObject → UInt32 → UInt64 → UInt32 → Medium

/-- `ReadVirtualFileChunk`, on the medium that was handed out. -/
def readVirtualFileChunk (medium : Medium) (offset : UInt64) (size : UInt32) :
    Option (Bytes × Bool) :=
  match medium with
  | .failed => none
  | .stream none => none
  | .stream (some bytes) =>
    let got := bytes.take size.toNat
    some (got, got.length < size.toNat)
  | .hglobal block locks =>
    if offset.toNat < block.length then
      if locks then
        let taken := (block.drop offset.toNat).take size.toNat
        some (taken, offset.toNat + taken.length ≥ block.length)
      else none
    else some ([], true)
  | .unsupported => none

/-- The error texts of the replies. -/
def unknownFileId : Bytes := ascii "unknown file_id"
def virtualFileReadFailed : Bytes := ascii "virtual file read failed"
def openFailed : Bytes := ascii "open failed"
def seekFailed : Bytes := ascii "seek failed"
def readFailed : Bytes := ascii "read failed"

/-- The fields of the `FILE_CHUNK_DATA` that answers a request. -/
def replyTo (req : ParsedFileChunkRequest) (data : Bytes) (isLast : Bool) (error : Bytes) :
    ParsedFileChunkData :=
  { transferId := req.transferId, fileId := req.fileId, offset := req.offset, data := data,
    isLast := isLast, error := error }

/-- The reply to a request whose file is known. -/
def serveFrom (world : World) (req : ParsedFileChunkRequest) : FileSource → ParsedFileChunkData
  | .physical path =>
    match world.readPath path req.offset (clampSize req.size) with
    | .openFailed => replyTo req [] true openFailed
    | .seekFailed => replyTo req [] true seekFailed
    | .readFailed => replyTo req [] true readFailed
    | .got bytes =>
      let got := bytes.take (clampSize req.size).toNat
      replyTo req got (got.length < (clampSize req.size).toNat) []
  | .virtual object lindex =>
    match readVirtualFileChunk (world.getData object lindex req.offset (clampSize req.size))
        req.offset (clampSize req.size) with
    | none => replyTo req [] true virtualFileReadFailed
    | some (data, isLast) => replyTo req data isLast []

/-! ## Steps -/

/-- The lookup under `file_paths_mu_`.  A physical entry comes first; an
empty path counts as no path. -/
def lookup (s : Server) (fileId : Bytes) : Option FileSource :=
  match s.filePaths.lookup fileId with
  | some path => if path = [] then none else some (.physical path)
  | none =>
    match s.virtualLindex.lookup fileId with
    | some lindex =>
      if s.virtualDataObject = 0 then none else some (.virtual s.virtualDataObject lindex)
    | none => none

inductive Obs
  | cached (snap : Snapshot)
  | replied (world : World) (req : ParsedFileChunkRequest) (reply : ParsedFileChunkData)

/-- `HandleFileChunkRequest` up to the end of its locked block. -/
def resolve (s : Server) (subPayload : Bytes) : Option (Server × List Obs) :=
  match s.inFlight with
  | some _ => none
  | none =>
    match parseFileChunkRequest subPayload {} with
    | none => some (s, [])
    | some req => some ({ s with inFlight := some (req, lookup s req.fileId) }, [])

/-- The rest of it: read and reply. -/
def serve (s : Server) (world : World) : Option (Server × List Obs) :=
  match s.inFlight with
  | none => none
  | some (req, none) =>
    some ({ s with inFlight := none }, [.replied world req (replyTo req [] true unknownFileId)])
  | some (req, some source) =>
    some ({ s with inFlight := none }, [.replied world req (serveFrom world req source)])

inductive Action
  | snapshot (snap : Snapshot)
  | releaseInbound
  | resolve (subPayload : Bytes)
  | serve (world : World)

/-- **The chunk server**, under every interleaving of clipboard changes with
the requests of the parent. -/
def machine : Machine Server Action Obs where
  step s
    | .snapshot snap => some (cacheSnapshot s snap, [.cached snap])
    | .releaseInbound => some (releaseInbound s, [])
    | .resolve subPayload => resolve s subPayload
    | .serve world => serve s world

/-! ## The table is the last snapshot -/

/-- The entry under the numeral of `i` is the entry at position `i`. -/
theorem lookup_numbered {α : Type} (entries : List α) (i : Nat) :
    (numbered entries).lookup (decimal i) = entries[i]? := by
  -- over a list whose numerals start at `k`
  have hgen : ∀ (l : List α) (k : Nat),
      (l.mapIdx (fun j entry => (decimal (k + j), entry))).lookup (decimal (k + i)) =
        l[i]? := by
    induction i with
    | zero =>
        intro l k
        cases l with
        | nil => rfl
        | cons a l => simp [List.mapIdx_cons]
    | succ i ih =>
        intro l k
        cases l with
        | nil => rfl
        | cons a l =>
            have hne : (decimal (k + (i + 1)) == decimal (k + 0)) = false := by
              rw [beq_eq_false_iff_ne]
              exact fun heq => by simpa using decimal_injective heq
            rw [List.mapIdx_cons, List.lookup_cons, hne, List.getElem?_cons_succ, ← ih l (k + 1)]
            simp [Nat.add_assoc, Nat.add_comm 1]
  simpa [numbered] using hgen entries 0

/-- What the table holds for a `file_id` of `snap` is what `snap` has there,
or nothing. -/
def Matches (s : Server) (snap : Snapshot) : Prop :=
  ∀ i, lookup s (decimal i) = none ∨ lookup s (decimal i) = snap.file? i

theorem matches_cacheSnapshot (s : Server) {snap : Snapshot}
    (hfiles : snap.contentType = .files) : Matches (cacheSnapshot s snap) snap := by
  intro i
  by_cases hvirtual : snap.virtualFiles ≠ []
  · have hcache : cacheSnapshot s snap = updateVirtualFiles s snap.virtualDataObject
        (snap.virtualFiles.map (fun v => v.lindex)) := by
      rw [cacheSnapshot, if_pos hfiles, if_pos hvirtual]
    rw [hcache, lookup, Snapshot.file?, if_pos hvirtual]
    simp only [updateVirtualFiles, List.lookup_nil, lookup_numbered, List.getElem?_map]
    cases snap.virtualFiles[i]? with
    | none => simp
    | some v =>
        by_cases hnull : snap.virtualDataObject = 0
        · simp [hnull]
        · simp [hnull]
  · have hcache : cacheSnapshot s snap = updateFilePaths s snap.filePaths := by
      rw [cacheSnapshot, if_pos hfiles, if_neg hvirtual]
    rw [hcache, lookup, Snapshot.file?, if_neg hvirtual]
    simp only [updateFilePaths, lookup_numbered]
    cases snap.filePaths[i]? with
    | none => simp
    | some path =>
        by_cases hempty : path = []
        · simp [hempty]
        · simp [hempty]

theorem matches_releaseInbound {s : Server} {snap : Snapshot} (h : Matches s snap) :
    Matches (releaseInbound s) snap := by
  intro i
  have hi := h i
  rw [lookup] at hi ⊢
  simp only [releaseInbound, List.lookup_nil]
  cases hpath : s.filePaths.lookup (decimal i) with
  | none => exact .inl rfl
  | some path => simpa [hpath] using hi

def Obs.files? : Obs → Option Snapshot
  | .cached snap => if snap.contentType = .files then some snap else none
  | _ => none

/-- The Files snapshot that was cached last. -/
def lastFiles (h : List Obs) : Option Snapshot := (h.filterMap Obs.files?).getLast?

theorem lastFiles_concat (h : List Obs) (o : Obs) :
    lastFiles (h ++ [o]) = o.files?.or (lastFiles h) := by
  rw [lastFiles, List.filterMap_append, List.getLast?_append]
  cases ho : o.files? <;> simp [ho, lastFiles]

/-- What a step does to the tables. -/
theorem step_tables {s s' : Server} {a : Action} {os : List Obs}
    (h : machine.step s a = some (s', os)) :
    (∃ snap, os = [.cached snap] ∧ s' = cacheSnapshot s snap) ∨
      (os = [] ∧ s' = releaseInbound s) ∨
      ((∀ o ∈ os, o.files? = none) ∧ ∀ fileId, lookup s' fileId = lookup s fileId) := by
  cases a with
  | snapshot snap =>
      cases h
      exact .inl ⟨snap, rfl, rfl⟩
  | releaseInbound =>
      cases h
      exact .inr (.inl ⟨rfl, rfl⟩)
  | resolve subPayload =>
      refine .inr (.inr ?_)
      simp only [machine, resolve] at h
      split at h
      · cases h
      · split at h
        · cases h
          exact ⟨by simp, fun _ => rfl⟩
        · cases h
          exact ⟨by simp, fun _ => rfl⟩
  | serve world =>
      refine .inr (.inr ?_)
      simp only [machine, serve] at h
      split at h
      · cases h
      · cases h
        exact ⟨by simp [Obs.files?], fun _ => rfl⟩
      · cases h
        exact ⟨by simp [Obs.files?], fun _ => rfl⟩

/-- **The table is the last snapshot**, after every run. -/
theorem run_matches {h : List Obs} {s : Server}
    (hrun : Machine.Run machine Machine.always {} h s) {snap : Snapshot}
    (hlast : lastFiles h = some snap) : Matches s snap := by
  refine hrun.history_invariant
    (fun h s => ∀ snap, lastFiles h = some snap → Matches s snap) ?_ ?_ snap hlast
  · intro snap hnone
    cases hnone
  · intro h s a s' os hi _ hstep snap hlast
    rcases step_tables hstep with ⟨new, rfl, rfl⟩ | ⟨rfl, rfl⟩ | ⟨hos, hsame⟩
    · rw [lastFiles_concat] at hlast
      by_cases hfiles : new.contentType = .files
      · simp only [Obs.files?, if_pos hfiles, Option.some_or] at hlast
        cases hlast
        exact matches_cacheSnapshot s hfiles
      · simp only [Obs.files?, if_neg hfiles, Option.none_or] at hlast
        rw [cacheSnapshot, if_neg hfiles]
        exact hi snap hlast
    · rw [List.append_nil] at hlast
      exact matches_releaseInbound (hi snap hlast)
    · have hnone : os.filterMap Obs.files? = [] := List.filterMap_eq_nil_iff.mpr hos
      rw [lastFiles, List.filterMap_append, hnone, List.append_nil] at hlast
      intro i
      rw [hsame]
      exact hi snap hlast i

/-! ## Which file answers -/

/-- The reply to a request that is looked up in `s` and read from `world`. -/
def answer (s : Server) (world : World) (req : ParsedFileChunkRequest) : ParsedFileChunkData :=
  match lookup s req.fileId with
  | none => replyTo req [] true unknownFileId
  | some source => serveFrom world req source

/-- A reply that is an error or was read from `source`. -/
def ServedFrom (source : FileSource) (world : World) (req : ParsedFileChunkRequest)
    (reply : ParsedFileChunkData) : Prop :=
  reply.error = [] → reply = serveFrom world req source

/-- The world in which `marked` reads as `1` and every other file as `0`. -/
def taggedWorld (marked : FileSource) : World where
  readPath path _ _ := .got [if .physical path = marked then 1 else 0]
  getData object lindex _ _ :=
    .stream (some [if .virtual object lindex = marked then 1 else 0])

/-- A request always asks for at least one byte. -/
theorem clampSize_pos (size : UInt32) : 0 < (clampSize size).toNat := by
  have hpos : clampSize size ≠ 0 := by
    unfold clampSize kDefaultChunkSize kMaxChunkSize
    grind
  rw [Nat.pos_iff_ne_zero]
  intro hzero
  exact hpos (UInt32.toNat.inj hzero)

theorem serveFrom_taggedWorld (marked source : FileSource) (req : ParsedFileChunkRequest) :
    (serveFrom (taggedWorld marked) req source).data = [if source = marked then 1 else 0] ∧
      (serveFrom (taggedWorld marked) req source).error = [] := by
  obtain ⟨n, hn⟩ : ∃ n, (clampSize req.size).toNat = n + 1 :=
    Nat.exists_eq_add_one.mpr (clampSize_pos req.size)
  cases source with
  | physical path => simp [serveFrom, taggedWorld, replyTo, hn]
  | virtual object lindex =>
      simp [serveFrom, taggedWorld, readVirtualFileChunk, replyTo, hn]

theorem unknownFileId_ne_nil : unknownFileId ≠ [] := by
  decide

/-- **What the lookup must find** for a request to be answered from `source`
in every world. -/
theorem answer_servedFrom_iff (s : Server) (source : FileSource)
    (req : ParsedFileChunkRequest) :
    (∀ world, ServedFrom source world req (answer s world req)) ↔
      lookup s req.fileId = none ∨ lookup s req.fileId = some source := by
  constructor
  · intro hall
    cases hfound : lookup s req.fileId with
    | none => exact .inl rfl
    | some found =>
        refine .inr ?_
        have hserved := hall (taggedWorld found)
        rw [ServedFrom, answer, hfound] at hserved
        have hsame := hserved (serveFrom_taggedWorld found found req).2
        have hdata := congrArg ParsedFileChunkData.data hsame
        rw [(serveFrom_taggedWorld found found req).1,
          (serveFrom_taggedWorld found source req).1] at hdata
        by_cases heq : source = found
        · rw [heq]
        · simp [heq] at hdata
  · rintro (hnone | hsome) world hok
    · rw [answer, hnone] at hok
      exact absurd hok unknownFileId_ne_nil
    · rw [answer, hsome]

/-! ## Runs -/

/-- `book` says which snapshot the parent announced under a transfer.  The
request names file `i` of it, which is at `source`. -/
def Booked (book : Bytes → Option Snapshot) (req : ParsedFileChunkRequest) (i : Nat)
    (source : FileSource) : Prop :=
  ∃ snap, book req.transferId = some snap ∧ req.fileId = decimal i ∧
    snap.file? i = some source

/-- The condition on a step: a booked request is looked up while the table
has nothing, or the file of its own snapshot, under the `file_id`. -/
def fromSnapshot (book : Bytes → Option Snapshot) (s : Server) : Action → Prop
  | .resolve subPayload =>
    ∀ req, parseFileChunkRequest subPayload {} = some req → ∀ i source,
      Booked book req i source →
        lookup s (decimal i) = none ∨ lookup s (decimal i) = some source
  | _ => True

/-- Requests in flight and replies given are about the booked files. -/
structure Consistent (book : Bytes → Option Snapshot) (h : List Obs) (s : Server) : Prop where
  inFlight : ∀ req found, s.inFlight = some (req, found) → ∀ i source,
    Booked book req i source → found = none ∨ found = some source
  replied : ∀ world req reply, .replied world req reply ∈ h →
    (reply.transferId = req.transferId ∧ reply.fileId = req.fileId) ∧
      ∀ i source, Booked book req i source → ServedFrom source world req reply

theorem serveFrom_ids (world : World) (req : ParsedFileChunkRequest) (source : FileSource) :
    (serveFrom world req source).transferId = req.transferId ∧
      (serveFrom world req source).fileId = req.fileId := by
  cases source with
  | physical path =>
      simp only [serveFrom]
      split <;> exact ⟨rfl, rfl⟩
  | virtual object lindex =>
      simp only [serveFrom]
      split <;> exact ⟨rfl, rfl⟩

/-- **One step keeps the replies consistent.** -/
theorem step_consistent {book : Bytes → Option Snapshot} {h os : List Obs} {s s' : Server}
    {a : Action} (hi : Consistent book h s) (hok : fromSnapshot book s a)
    (hstep : machine.step s a = some (s', os)) : Consistent book (h ++ os) s' := by
  cases a with
  | snapshot snap =>
      cases hstep
      refine ⟨?_, fun world req reply hmem => hi.replied world req reply (by simpa using hmem)⟩
      have hsame : (cacheSnapshot s snap).inFlight = s.inFlight := by
        unfold cacheSnapshot
        (repeat' split) <;> rfl
      rw [hsame]
      exact hi.inFlight
  | releaseInbound =>
      cases hstep
      exact ⟨hi.inFlight, by simpa using hi.replied⟩
  | resolve subPayload =>
      simp only [machine, resolve] at hstep
      split at hstep
      · cases hstep
      · split at hstep
        · cases hstep
          exact ⟨hi.inFlight, by simpa using hi.replied⟩
        · rename_i req hparse
          cases hstep
          refine ⟨?_, by simpa using hi.replied⟩
          intro req' found hflight i source hbooked
          cases hflight
          obtain ⟨-, -, hid, -⟩ := id hbooked
          rw [hid]
          exact hok req hparse i source hbooked
  | serve world =>
      simp only [machine, serve] at hstep
      split at hstep
      · cases hstep
      · rename_i req hflight
        cases hstep
        refine ⟨by simp, ?_⟩
        intro world' req' reply hmem
        rcases List.mem_append.mp hmem with hold | hnew
        · exact hi.replied world' req' reply hold
        · simp only [List.mem_singleton, Obs.replied.injEq] at hnew
          obtain ⟨rfl, rfl, rfl⟩ := hnew
          exact ⟨⟨rfl, rfl⟩, fun _ _ _ herror => absurd herror unknownFileId_ne_nil⟩
      · rename_i req found hflight
        cases hstep
        refine ⟨by simp, ?_⟩
        intro world' req' reply hmem
        rcases List.mem_append.mp hmem with hold | hnew
        · exact hi.replied world' req' reply hold
        · simp only [List.mem_singleton, Obs.replied.injEq] at hnew
          obtain ⟨rfl, rfl, rfl⟩ := hnew
          refine ⟨serveFrom_ids world' req' found, fun i source hbooked _ => ?_⟩
          have hfound := hi.inFlight req' (some found) hflight i source hbooked
          simp only [reduceCtorEq, Option.some.injEq, false_or] at hfound
          rw [hfound]

/-- **Chunks come from the announced snapshot** exactly when the table still
has that snapshot's file under the `file_id`, or nothing.

* For one request, in any state: it is answered from file `i` of `snap` (or
  with an error) in every world if and only if the lookup finds nothing or
  that file.
* In every run whose requests are all resolved under this condition, every
  reply to a request of a booked transfer carries the request's ids and is an
  error or bytes of the announced file.
* The condition holds after every run in which the Files snapshot that was
  cached last has the same file, or none, at position `i`. -/
theorem served_from_snapshot_iff (book : Bytes → Option Snapshot) :
    (∀ (s : Server) (source : FileSource) (req : ParsedFileChunkRequest) (i : Nat),
      req.fileId = decimal i →
        ((∀ world, ServedFrom source world req (answer s world req)) ↔
          lookup s (decimal i) = none ∨ lookup s (decimal i) = some source)) ∧
    (∀ (h : List Obs) (s : Server), Machine.Run machine (fromSnapshot book) {} h s →
        ∀ world req reply, .replied world req reply ∈ h →
          (reply.transferId = req.transferId ∧ reply.fileId = req.fileId) ∧
            ∀ snap i source, book req.transferId = some snap → req.fileId = decimal i →
              snap.file? i = some source → ServedFrom source world req reply) ∧
    (∀ (h : List Obs) (s : Server), Machine.Run machine Machine.always {} h s →
      ∀ snap i source, lastFiles h = some snap →
        (snap.file? i = none ∨ snap.file? i = some source) →
          lookup s (decimal i) = none ∨ lookup s (decimal i) = some source) := by
  refine ⟨?_, ?_, ?_⟩
  · intro s source req i hid
    rw [← hid]
    exact answer_servedFrom_iff s source req
  · intro h s hrun world req reply hmem
    have hi : Consistent book h s := by
      apply hrun.history_invariant (Consistent book)
      · exact ⟨by simp, by simp⟩
      · exact fun h s a s' os hi hok hstep => step_consistent hi hok hstep
    obtain ⟨hids, hserved⟩ := hi.replied world req reply hmem
    exact ⟨hids, fun snap i source hbook hid hfile => hserved i source ⟨snap, hbook, hid, hfile⟩⟩
  · intro h s hrun snap i source hlast hfile
    rcases run_matches hrun hlast i with hnone | hfound
    · exact .inl hnone
    · rw [hfound]
      exact hfile

/-- A world whose files are their own names. -/
def namesWorld : World where
  readPath path _ _ := .got (path.map (fun c => UInt8.ofNat c.toNat))
  getData _ _ _ _ := .failed


/-- The clipboard after copying the file with the one-letter path `c`. -/
def oneFile (c : UInt16) : Snapshot := { contentType := .files, filePaths := [[c]] }

/-- A request for file `0` of transfer `t`, and its encoding. -/
def requestT : ParsedFileChunkRequest := { transferId := [0x74], fileId := decimal 0 }
def requestTPayload : Bytes := [0x0A, 0x01, 0x74, 0x12, 0x01, 0x30]

/-- `a` is copied and chunk `0` of transfer `t` served; the parent asks again
after `b` has been copied. -/
theorem copyTwice_run :
    ∃ s, Machine.Run machine Machine.always {}
      [.cached (oneFile 0x61), .replied namesWorld requestT (replyTo requestT [0x61] true []),
        .cached (oneFile 0x62), .replied namesWorld requestT (replyTo requestT [0x62] true [])]
      s := by
  have hexec : machine.exec {}
      [.snapshot (oneFile 0x61), .resolve requestTPayload, .serve namesWorld,
        .snapshot (oneFile 0x62), .resolve requestTPayload, .serve namesWorld] =
      some ({ filePaths := [([0x30], [0x62])] },
        [.cached (oneFile 0x61), .replied namesWorld requestT (replyTo requestT [0x61] true []),
          .cached (oneFile 0x62),
          .replied namesWorld requestT (replyTo requestT [0x62] true [])]) := by
    rfl
  exact ⟨_, Machine.Run.of_exec hexec⟩

/-- **A second copy splices two files**: transfer `t` is of the snapshot with
`a`, and its second chunk comes, without an error, from `b`. -/
theorem second_copy_splices :
    ∃ h s, Machine.Run machine Machine.always {} h s ∧ .cached (oneFile 0x61) ∈ h ∧
      (oneFile 0x61).file? 0 = some (.physical [0x61]) ∧
      ∃ reply, .replied namesWorld requestT reply ∈ h ∧ reply.error = [] ∧
        reply.data = [0x62] ∧ ¬ ServedFrom (.physical [0x61]) namesWorld requestT reply := by
  obtain ⟨s, hrun⟩ := copyTwice_run
  refine ⟨_, s, hrun, by simp, rfl, replyTo requestT [0x62] true [], by simp, rfl, rfl, ?_⟩
  intro hserved
  have hdata : ([0x62] : Bytes) = [0x61] := congrArg ParsedFileChunkData.data (hserved rfl)
  cases hdata

/-- The server after `a` has been copied. -/
def cachedA : Server := { filePaths := [([0x30], [0x61])] }

/-- Served in time: the chunk of transfer `t` is read from `a`. -/
theorem served_from_snapshot_in_time :
    ∃ h s, Machine.Run machine (fromSnapshot fun _ => some (oneFile 0x61)) {} h s ∧
      .replied namesWorld requestT (replyTo requestT [0x61] true []) ∈ h ∧
      ServedFrom (.physical [0x61]) namesWorld requestT (replyTo requestT [0x61] true []) := by
  have hcache : machine.step {} (.snapshot (oneFile 0x61)) =
      some (cachedA, [.cached (oneFile 0x61)]) := by
    rfl
  have hresolve : machine.step cachedA (.resolve requestTPayload) =
      some ({ cachedA with inFlight := some (requestT, some (.physical [0x61])) }, []) := by
    rfl
  have hserve : machine.step
      { cachedA with inFlight := some (requestT, some (.physical [0x61])) } (.serve namesWorld) =
      some (cachedA, [.replied namesWorld requestT (replyTo requestT [0x61] true [])]) := by
    rfl
  have hguard : fromSnapshot (fun _ => some (oneFile 0x61)) cachedA
      (.resolve requestTPayload) := by
    intro req hparse i source hbooked
    obtain ⟨snap, hsnap, hid, hfile⟩ := hbooked
    cases hsnap
    have hreq : req = requestT := Option.some.inj (hparse.symm.trans rfl)
    have hi : i = 0 := decimal_injective (by rw [← hid, hreq]; rfl)
    subst hi
    refine .inr ?_
    rw [← hfile]
    rfl
  have hfirst : Machine.Run machine (fromSnapshot fun _ => some (oneFile 0x61)) {} _ cachedA :=
    .snoc .nil (by exact trivial) hcache
  have hrun :=
    (hfirst.snoc hguard hresolve).snoc (by exact trivial) hserve
  refine ⟨_, _, hrun, by simp, ?_⟩
  exact ((served_from_snapshot_iff _).2.1 _ _ hrun _ _ _ (by simp)).2 (oneFile 0x61) 0 _ rfl rfl rfl

end ChunkServing
