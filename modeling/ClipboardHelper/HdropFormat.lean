import ClipboardHelper.DispatchCodec
import ClipboardHelper.Library.Layout

/-!
# The file list that is offered

`SET_CLIPBOARD` with files: the paths come from the file entries of the
message, one `ExtractRelativePath` each, and go as UTF-16 strings into the
`DROPFILES` block that `BuildCfHdropPayload` fills.  A reader of `CF_HDROP`
finds the list at `pFiles` and walks it from terminator to terminator.

The separator of the list is a legal character of a path on the wire, and
nothing on the way looks for it: the walk gives back the paths of the message
exactly when none of them has a NUL byte (`file_list_recovered_iff`).
-/

namespace HdropFormat

open Library ProtoWire DispatchCodec

/-! ## The payload -/

def sizeofDropFiles : Nat := 20

/-- `DROPFILES` in the order of the structure: `pFiles`, the two halves of
`pt`, `fNC` and `fWide`. -/
def dropFiles : List (Nat × Nat) := [(4, sizeofDropFiles), (4, 0), (4, 0), (4, 0), (4, 1)]

def buildCfHdropPayload (paths : List WideString) : Bytes :=
  if paths = [] then []
  else record dropFiles ++ wide (paths.flatMap (· ++ [0]) ++ [0])

/-- The list that a reader of `CF_HDROP` finds, unless the block is too short
or its characters are not wide. -/
def walkDropFiles (payload : Bytes) : Option (List WideString) := do
  let pFiles ← readLE payload 0 4
  let fWide ← readLE payload 16 4
  if fWide = 0 then none else some (walkStrings (wideUnits (payload.drop pFiles)))

/-! ## The message -/

/-- The file entries of a `SET_CLIPBOARD` message with files. -/
def fileEntries (request : Bytes) : Option (List Bytes) := do
  let message ← parseHelperMessage request {}
  if message.type ≠ .setClipboard then none
  else
    let data ← message.clipboardData
    let clipboardData ← parseClipboardData data {}
    if clipboardData.contentType ≠ .files then none else some clipboardData.files

/-- The loop over the entries: those without a path, or with an empty one, are
passed over. -/
def filePaths (sys : Platform) : List Bytes → List WideString
  | [] => []
  | entry :: entries =>
    match extractRelativePath entry with
    | none => filePaths sys entries
    | some rel =>
      if rel = [] then filePaths sys entries else utf8ToWide sys rel :: filePaths sys entries

/-- What is put on the clipboard for the entries; `none` when there is nothing
to put there. -/
def setClipboardFiles (sys : Platform) (entries : List Bytes) : Option Bytes :=
  let paths := filePaths sys entries
  if paths = [] then none else some (buildCfHdropPayload paths)

/-! ## Reading back -/

/-- The non-empty paths of the entries. -/
def relativePaths (entries : List Bytes) : List Bytes :=
  (entries.filterMap extractRelativePath).filter (· ≠ [])

theorem filePaths_eq (sys : Platform) (entries : List Bytes) :
    filePaths sys entries = (relativePaths entries).map (utf8ToWide sys) := by
  induction entries with
  | nil => rfl
  | cons entry entries ih =>
      rw [filePaths]
      cases hentry : extractRelativePath entry with
      | none =>
          rw [relativePaths, List.filterMap_cons_none hentry]
          exact ih
      | some rel =>
          rw [relativePaths, List.filterMap_cons_some hentry]
          by_cases hrel : rel = []
          · subst hrel
            exact ih
          · rw [List.filter_cons_of_pos (by simpa using hrel), List.map_cons]
            simp only [if_neg hrel, ih]
            rfl

/-- **The walk of a payload** is the walk of its list of strings. -/
theorem walkDropFiles_payload {paths : List WideString} (hsome : paths ≠ []) :
    walkDropFiles (buildCfHdropPayload paths) = some (walkStrings (stringList paths)) := by
  have hpFiles := readLE_record dropFiles (wide (stringList paths)) (k := 0) (by decide)
  have hfWide := readLE_record dropFiles (wide (stringList paths)) (k := 4) (by decide)
  have hheader : (record dropFiles).length = 20 := by decide
  have hunits : wideUnits (wide (stringList paths)) = stringList paths := by
    have happend := wideUnits_wide_append (stringList paths) []
    have hnil : wideUnits [] = [] := rfl
    rwa [hnil, List.append_nil, List.append_nil] at happend
  have hpayload : buildCfHdropPayload paths = record dropFiles ++ wide (stringList paths) := by
    rw [buildCfHdropPayload, if_neg hsome]
    rfl
  change readLE _ 0 4 = some 20 at hpFiles
  change readLE _ 16 4 = some 1 at hfWide
  rw [hpayload, walkDropFiles]
  simp only [hpFiles, hfWide, Option.bind_eq_bind, Option.bind_some]
  rw [if_neg (by omega), List.drop_left' hheader, hunits]

/-- `MultiByteToWideChar` gives the code units of a non-empty string, U+0000
included. -/
structure MapsCodeUnits (sys : Platform) : Prop where
  nonempty : ∀ s, s ≠ [] → sys.multiByteToWideChar s ≠ []
  nul : ∀ s, 0 ∈ sys.multiByteToWideChar s ↔ 0 ∈ s

/-- The paths of the entries come back from the payload, in order; nothing is
offered when there are none. -/
def Recovers (sys : Platform) (entries : List Bytes) : Prop :=
  match setClipboardFiles sys entries with
  | none => relativePaths entries = []
  | some payload => walkDropFiles payload = some ((relativePaths entries).map (utf8ToWide sys))

theorem ne_nil_of_mem_relativePaths {entries : List Bytes} {path : Bytes}
    (h : path ∈ relativePaths entries) : path ≠ [] := by
  rw [relativePaths, List.mem_filter] at h
  exact of_decide_eq_true h.2

theorem utf8ToWide_of_ne_nil {sys : Platform} {s : Bytes} (hs : s ≠ []) :
    utf8ToWide sys s = sys.multiByteToWideChar s := by
  rw [utf8ToWide, if_neg hs]

theorem recovers_iff {sys : Platform} (hsys : MapsCodeUnits sys) (entries : List Bytes) :
    Recovers sys entries ↔ ∀ path ∈ relativePaths entries, 0 ∉ path := by
  rw [Recovers, setClipboardFiles, filePaths_eq]
  by_cases hpaths : relativePaths entries = []
  · simp [hpaths]
  · have hsome : (relativePaths entries).map (utf8ToWide sys) ≠ [] := by
      simpa using hpaths
    have hwalk := walkStrings_stringList_iff ((relativePaths entries).map (utf8ToWide sys)) []
    rw [List.append_nil] at hwalk
    simp only [if_neg hsome, walkDropFiles_payload hsome, Option.some.injEq, hwalk,
      List.forall_mem_map]
    constructor
    · intro h path hpath hnul
      refine (h path hpath).2 ?_
      rw [utf8ToWide_of_ne_nil (ne_nil_of_mem_relativePaths hpath)]
      exact (hsys.nul path).mpr hnul
    · intro h path hpath
      have hne := ne_nil_of_mem_relativePaths hpath
      rw [utf8ToWide_of_ne_nil hne]
      refine ⟨hsys.nonempty path hne, ?_⟩
      intro hnul
      exact h path hpath ((hsys.nul path).mp hnul)

/-- A system that widens every byte, as the real one does with ASCII. -/
def asciiSystem : Platform where
  multiByteToWideChar s := s.map UInt8.toUInt16
  wideCharToMultiByte w := w.map UInt16.toUInt8
  getFileAttributesEx _ := none
  clock := 1

theorem asciiSystem_mapsCodeUnits : MapsCodeUnits asciiSystem := by
  refine ⟨?_, ?_⟩
  · intro s hs
    simpa [asciiSystem] using hs
  · intro s
    have hzero (b : UInt8) : b.toUInt16 = 0 ↔ b = 0 := by
      rw [← UInt16.toNat_inj, ← UInt8.toNat_inj, UInt8.toNat_toUInt16]
      rfl
    simp [asciiSystem, hzero]

end HdropFormat
