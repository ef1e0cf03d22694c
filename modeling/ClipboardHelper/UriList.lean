import ClipboardHelper.PasteFormats
import ClipboardHelper.Library.TextLines

/-!
# File lists for Linux file managers

The two formats of `uri_list_format.cpp` and the readers on the other side.
A payload of paths, one a line, becomes a list of `file://` URIs; a reader
takes the lines apart by the format's own line break, strips the scheme and
decodes the escapes.

`splitPathsLoop` is the loop of `SplitPaths` with its positions, and
`splitPathsLoop_eq` says that it yields the non-empty lines.  A URI has
printable characters only (`printable_makeFileUri`), so no path can break a
line, and the paths come back whatever bytes they are made of.
-/

namespace UriList

open Library PasteFormats

/-! ## The splitter -/

/-- `find('\n', start)`, or the end of the bytes. -/
def findLineEnd (bytes : Bytes) (start : Nat) : Nat :=
  start + ((bytes.drop start).takeWhile (· ≠ 0x0A)).length

/-- The loop of `SplitPaths` from `start`.  A round moves `start` behind a
line feed, so the rounds are at most one more than the bytes. -/
def splitPathsLoop (bytes : Bytes) : Nat → Nat → List Bytes
  | 0, _ => []
  | n + 1, start =>
    if start ≤ bytes.length then
      let lineEnd := findLineEnd bytes start
      let line := stripReturn ((bytes.drop start).take (lineEnd - start))
      let out := if line ≠ [] then [line] else []
      if bytes.length ≤ lineEnd then out
      else out ++ splitPathsLoop bytes n (lineEnd + 1)
    else []

/-- The lines of some bytes, non-empty without a trailing CR. -/
theorem splitPaths_single {line : Bytes} (h : 0x0A ∉ line) :
    splitPaths line = if stripReturn line ≠ [] then [stripReturn line] else [] := by
  rw [splitPaths, List.splitOn_eq_singleton h, List.map_singleton]
  by_cases hline : stripReturn line = []
  · simp [hline]
  · simp [hline]

theorem splitPaths_line {line : Bytes} (h : 0x0A ∉ line) (rest : Bytes) :
    splitPaths (line ++ 0x0A :: rest) =
      (if stripReturn line ≠ [] then [stripReturn line] else []) ++ splitPaths rest := by
  rw [splitPaths, List.splitOn_append_cons_self_of_not_mem h, List.map_cons, splitPaths]
  by_cases hline : stripReturn line = []
  · simp [hline]
  · simp [hline]

/-- **The loop yields the non-empty lines**: by induction on the rounds, from
any place. -/
theorem splitPathsLoop_eq_drop (bytes : Bytes) (n : Nat) :
    ∀ start, start ≤ bytes.length → bytes.length - start < n →
      splitPathsLoop bytes n start = splitPaths (bytes.drop start) := by
  induction n with
  | zero =>
      intro start _ hn
      omega
  | succ n ih =>
      intro start hstart hn
      have hnotin : (0x0A : UInt8) ∉ (bytes.drop start).takeWhile (· ≠ 0x0A) := by
        intro hmem
        simpa using List.mem_takeWhile_imp hmem
      have hcut := List.takeWhile_append_dropWhile (p := (· ≠ 0x0A)) (l := bytes.drop start)
      generalize hline : (bytes.drop start).takeWhile (· ≠ 0x0A) = line at hnotin hcut
      have hend : findLineEnd bytes start = start + line.length := by
        rw [findLineEnd, hline]
      have htake : (bytes.drop start).take (start + line.length - start) = line := by
        rw [Nat.add_sub_cancel_left, ← hcut, List.take_left]
      have hlength := congrArg List.length hcut
      rw [List.length_append, List.length_drop] at hlength
      rw [splitPathsLoop, if_pos hstart]
      simp only [hend, htake]
      cases hrest : (bytes.drop start).dropWhile (· ≠ 0x0A) with
      | nil =>
          rw [hrest, List.append_nil] at hcut
          rw [hrest, List.length_nil] at hlength
          rw [if_pos (by omega), ← hcut, splitPaths_single hnotin]
      | cons c rest =>
          have hc : c = 0x0A := by
            have hhead := List.head?_dropWhile_not (· ≠ 0x0A) (bytes.drop start)
            rw [hrest] at hhead
            simpa using hhead
          subst hc
          rw [hrest] at hcut
          rw [hrest, List.length_cons] at hlength
          have hnext : bytes.drop (start + line.length + 1) = rest := by
            rw [Nat.add_assoc, ← List.drop_drop, ← hcut, ← List.drop_drop, List.drop_left,
              List.drop_one, List.tail_cons]
          rw [if_neg (by omega), ih _ (by omega) (by omega), hnext, ← hcut,
            splitPaths_line hnotin]

theorem splitPathsLoop_eq (bytes : Bytes) :
    splitPathsLoop bytes (bytes.length + 1) 0 = splitPaths bytes :=
  splitPathsLoop_eq_drop bytes (bytes.length + 1) 0 (Nat.zero_le _) (by omega)

/-! ## Readers -/

/-- The path of a `file://` URI. -/
def pathOfUri (uri : Bytes) : Option Bytes :=
  if ascii "file://" <+: uri then some (percentDecode (uri.drop 7)) else none

/-- A reader of `text/uri-list`. -/
def readTextUriList (text : Bytes) : Option (List Bytes) := (crlfLines text).mapM pathOfUri

/-- A reader of `x-special/gnome-copied-files`: the operation stands in the
first line. -/
def readGnomeCopiedFiles (text : Bytes) : Option (List Bytes) :=
  match text.splitOn 0x0A with
  | [] => none
  | operation :: uris => if operation = ascii "copy" then uris.mapM pathOfUri else none

/-- The payload that carries a list of paths. -/
def joinPaths (paths : List Bytes) : Bytes := [0x0A].intercalate paths

/-! ## URIs -/

def Printable (c : UInt8) : Prop := 0x20 ≤ c.toNat ∧ c.toNat ≤ 0x7E

instance (c : UInt8) : Decidable (Printable c) :=
  inferInstanceAs (Decidable (0x20 ≤ c.toNat ∧ c.toNat ≤ 0x7E))

theorem percentEncodePath_eq (path : Bytes) :
    percentEncodePath path = percentEncode isUriPathSafe path := rfl

theorem printable_of_safe {c : UInt8} (h : isUriPathSafe c) : Printable c := by
  simp only [isUriPathSafe, Bool.or_eq_true, Bool.and_eq_true, decide_eq_true_eq,
    UInt8.le_iff_toNat_le, ← UInt8.toNat_inj, UInt8.reduceToNat] at h
  rw [Printable]
  omega

theorem printable_upperHex {n : Nat} (h : n < 16) : Printable (upperHex n) := by
  have hall : ∀ n : Fin 16, Printable (upperHex n.val) := by decide
  exact hall ⟨n, h⟩

/-- **A URI has printable characters only.** -/
theorem printable_makeFileUri {path : Bytes} {c : UInt8} (h : c ∈ makeFileUri path) :
    Printable c := by
  rw [makeFileUri, List.mem_append] at h
  cases h with
  | inl hscheme =>
      have hbytes : ascii "file://" = [0x66, 0x69, 0x6C, 0x65, 0x3A, 0x2F, 0x2F] := by decide
      rw [hbytes] at hscheme
      simp only [List.mem_cons, List.not_mem_nil, or_false] at hscheme
      obtain rfl | rfl | rfl | rfl | rfl | rfl | rfl := hscheme <;> decide
  | inr hpath =>
      rw [percentEncodePath_eq, percentEncode, List.mem_flatMap] at hpath
      obtain ⟨b, -, hb⟩ := hpath
      have hbyte := b.toNat_lt
      cases hsafe : isUriPathSafe b with
      | true =>
          rw [hsafe, if_pos rfl, List.mem_singleton] at hb
          exact hb ▸ printable_of_safe hsafe
      | false =>
          rw [hsafe, if_neg Bool.false_ne_true] at hb
          simp only [List.mem_cons, List.not_mem_nil, or_false] at hb
          obtain rfl | rfl | rfl := hb
          · decide
          · exact printable_upperHex (by omega)
          · exact printable_upperHex (by omega)

theorem not_mem_makeFileUri {c : UInt8} (hc : ¬ Printable c) (path : Bytes) :
    c ∉ makeFileUri path :=
  fun h => hc (printable_makeFileUri h)

theorem pathOfUri_makeFileUri (path : Bytes) : pathOfUri (makeFileUri path) = some path := by
  have hscheme : ascii "file://" <+: makeFileUri path := List.prefix_append _ _
  have hdrop : (makeFileUri path).drop 7 = percentEncode isUriPathSafe path :=
    List.drop_left' (by decide)
  rw [pathOfUri, if_pos hscheme, hdrop, percentDecode_percentEncode (by decide)]

theorem mapM_pathOfUri (paths : List Bytes) :
    (paths.map makeFileUri).mapM pathOfUri = some paths := by
  induction paths with
  | nil => rfl
  | cons path paths ih =>
      rw [List.map_cons, List.mapM_cons, pathOfUri_makeFileUri, ih]
      rfl

/-! ## The two formats -/

theorem formatTextUriList_eq (paths : List Bytes) :
    formatTextUriList paths = (paths.map makeFileUri).flatMap (· ++ [0x0D, 0x0A]) := by
  rw [formatTextUriList, List.flatMap_map]

theorem crlfLines_formatTextUriList (paths : List Bytes) :
    crlfLines (formatTextUriList paths) = paths.map makeFileUri := by
  rw [formatTextUriList_eq]
  refine crlfLines_flatMap ?_
  intro line hline
  obtain ⟨path, -, rfl⟩ := List.mem_map.mp hline
  exact not_mem_makeFileUri (by decide) path

theorem formatGnomeCopiedFiles_eq (paths : List Bytes) :
    formatGnomeCopiedFiles paths = [0x0A].intercalate (ascii "copy" :: paths.map makeFileUri) := by
  have htail : ∀ (first : Bytes) (rest : List Bytes),
      first ++ rest.flatMap (0x0A :: ·) = [0x0A].intercalate (first :: rest) := by
    intro first rest
    induction rest generalizing first with
    | nil => simp
    | cons line rest ih =>
        rw [List.flatMap_cons, List.cons_append, ih, List.intercalate_cons_cons]
        simp
  rw [← htail, formatGnomeCopiedFiles, List.flatMap_map]

theorem splitOn_formatGnomeCopiedFiles (paths : List Bytes) :
    (formatGnomeCopiedFiles paths).splitOn 0x0A = ascii "copy" :: paths.map makeFileUri := by
  rw [formatGnomeCopiedFiles_eq]
  refine List.splitOn_intercalate 0x0A ?_ (by simp)
  intro line hline
  rw [List.mem_cons] at hline
  cases hline with
  | inl hcopy =>
      rw [hcopy]
      decide
  | inr huri =>
      obtain ⟨path, -, rfl⟩ := List.mem_map.mp huri
      exact not_mem_makeFileUri (by decide) path

/-! ## Round trip -/

/-- A path that a line can carry. -/
def Carriable (path : Bytes) : Prop :=
  path ≠ [] ∧ 0x0A ∉ path ∧ path.getLast? ≠ some 0x0D

theorem splitPaths_joinPaths {paths : List Bytes} (h : ∀ path ∈ paths, Carriable path) :
    splitPaths (joinPaths paths) = paths := by
  cases paths with
  | nil => rfl
  | cons path rest =>
      have hsplit : (joinPaths (path :: rest)).splitOn 0x0A = path :: rest :=
        List.splitOn_intercalate 0x0A (fun line hline => (h line hline).2.1) (by simp)
      have hstrip : (path :: rest).map stripReturn = path :: rest := by
        conv_rhs => rw [← List.map_id (path :: rest)]
        refine List.map_congr_left ?_
        intro line hline
        rw [stripReturn, if_neg (h line hline).2.2]
        rfl
      rw [splitPaths, hsplit, hstrip, List.filter_eq_self]
      intro line hline
      exact decide_eq_true (h line hline).1

/-- The lines of some bytes that are non-empty without one trailing CR. -/
def inputLines (bytes : Bytes) : List Bytes :=
  (bytes.splitOn 0x0A).filter (fun line => stripReturn line ≠ [])

theorem splitPaths_eq_map (bytes : Bytes) :
    splitPaths bytes = (inputLines bytes).map stripReturn := by
  rw [splitPaths, inputLines, List.filter_map]
  rfl

/-- **File lists are read back.**  Paths that a line can carry come back from
either format; and whatever the bytes, the output is one printable URI for
each non-empty line, between the line breaks of the format. -/
theorem file_lists_read_back :
    (∀ paths : List Bytes, (∀ path ∈ paths, Carriable path) →
      readTextUriList (formatForMime (joinPaths paths) (ascii "text/uri-list")) = some paths
      ∧ readGnomeCopiedFiles
          (formatForMime (joinPaths paths) (ascii "x-special/gnome-copied-files")) = some paths)
    ∧ ∀ bytes : Bytes, ∃ uris : List Bytes,
        (∀ uri ∈ uris, ascii "file://" <+: uri ∧ ∀ c ∈ uri, Printable c)
        ∧ uris.length = (inputLines bytes).length
        ∧ formatForMime bytes (ascii "text/uri-list") = uris.flatMap (· ++ [0x0D, 0x0A])
        ∧ formatForMime bytes (ascii "x-special/gnome-copied-files") =
            [0x0A].intercalate (ascii "copy" :: uris) := by
  have htext (bytes : Bytes) :
      formatForMime bytes (ascii "text/uri-list") = formatTextUriList (splitPaths bytes) :=
    if_neg (by decide)
  have hgnome (bytes : Bytes) :
      formatForMime bytes (ascii "x-special/gnome-copied-files") =
        formatGnomeCopiedFiles (splitPaths bytes) :=
    if_pos rfl
  refine ⟨?_, ?_⟩
  · intro paths hpaths
    rw [htext, hgnome, splitPaths_joinPaths hpaths]
    refine ⟨?_, ?_⟩
    · rw [readTextUriList, crlfLines_formatTextUriList, mapM_pathOfUri]
    · rw [readGnomeCopiedFiles, splitOn_formatGnomeCopiedFiles]
      exact mapM_pathOfUri paths
  · intro bytes
    refine ⟨(splitPaths bytes).map makeFileUri, ?_, ?_, ?_, ?_⟩
    · intro uri huri
      obtain ⟨path, -, rfl⟩ := List.mem_map.mp huri
      exact ⟨List.prefix_append _ _, fun c hc => printable_makeFileUri hc⟩
    · rw [List.length_map, splitPaths_eq_map, List.length_map]
    · rw [htext, formatTextUriList_eq]
    · rw [hgnome, formatGnomeCopiedFiles_eq]

end UriList
