import ClipboardHelper.MessageFields

/-!
# The two readers of a file entry

`SET_CLIPBOARD` takes the path of a file entry from `ExtractRelativePath`,
`ANNOUNCE_DELAYED` from `ParseFileMetadataForVirtualFile`.  The first returns
at the first `relative_path` it meets and does not look at what follows
(`extractRelativePath_made`); the second scans the whole entry and keeps the
last one (`parse_fileMetadata`).
-/

namespace FileMetadataReaders

open Library ProtoWire DispatchCodec MessageFields

/-! ## The scan of the whole entry -/

def fileMetadataTable : List (Entry FileMetadataFields) :=
  [.slice kFMFieldFileId (fun d out => { out with fileId := d }),
   .slice kFMFieldFilename (fun d out => { out with filename := d }),
   .slice kFMFieldRelativePath (fun d out => { out with relativePath := d }),
   .varint kFMFieldFileSize (fun v out => { out with fileSize := v }),
   .varint kFMFieldIsDirectory (fun v out => { out with isDirectory := v ≠ 0 })]

def fileMetadataOf (out : FileMetadataFields) (fs : List Field) : FileMetadataFields :=
  { fileId := lastOr out.fileId id (slices kFMFieldFileId fs),
    filename := lastOr out.filename id (slices kFMFieldFilename fs),
    relativePath := lastOr out.relativePath id (slices kFMFieldRelativePath fs),
    fileSize := lastOr out.fileSize id (varints kFMFieldFileSize fs),
    isDirectory := lastOr out.isDirectory (fun v => decide (v ≠ 0))
      (varints kFMFieldIsDirectory fs) }

theorem fileMetadataField_eq : fileMetadataField = dispatch fileMetadataTable := rfl

theorem fileMetadata_one (out : FileMetadataFields) (f : Field) :
    applyField fileMetadataTable out f = fileMetadataOf out [f] := by
  obtain ⟨number, body⟩ := f
  cases body with
  | varint value =>
      by_cases hfileSize : number = kFMFieldFileSize
      · subst hfileSize
        rfl
      by_cases hisDirectory : number = kFMFieldIsDirectory
      · subst hisDirectory
        rfl
      simp [applyField, fileMetadataTable, fileMetadataOf, Entry.number, Entry.wire, Body.wire,
        WireType.varint, WireType.lengthDelim, hfileSize, hisDirectory]
  | slice bytes =>
      by_cases hfileId : number = kFMFieldFileId
      · subst hfileId
        rfl
      by_cases hfilename : number = kFMFieldFilename
      · subst hfilename
        rfl
      by_cases hrelativePath : number = kFMFieldRelativePath
      · subst hrelativePath
        rfl
      simp [applyField, fileMetadataTable, fileMetadataOf, Entry.number, Entry.wire, Body.wire,
        WireType.varint, WireType.lengthDelim, hfileId, hfilename, hrelativePath]
  | fixed64 bytes =>
      simp [applyField, fileMetadataTable, fileMetadataOf, Entry.wire, Body.wire, WireType.varint,
        WireType.lengthDelim, WireType.fixed64]
  | fixed32 bytes =>
      simp [applyField, fileMetadataTable, fileMetadataOf, Entry.wire, Body.wire, WireType.varint,
        WireType.lengthDelim, WireType.fixed32]

theorem fileMetadata_compositional :
    Compositional (parse fileMetadataField) fileMetadataTable fileMetadataOf := by
  refine compositional_dispatch fileMetadataField_eq (fun _ => rfl) fileMetadata_one ?_
  intro out fs gs
  simp [fileMetadataOf]

/-- What the loop ends up with. -/
theorem parse_fileMetadata {data : Bytes} {fs : List Field} (h : Made data fs) :
    parse fileMetadataField data {} = some (fileMetadataOf {} fs) :=
  fileMetadata_compositional.reads data fs {} h

/-! ## The first path -/

/-- The paths of an entry, in order. -/
def relativePaths (fs : List Field) : List Bytes := slices kFMFieldRelativePath fs

/-- One round: a path ends the loop, every other field is passed over. -/
theorem extractRelativePathLoop_field {n : Nat} {r : Reader} (hmore : r.eof = false) :
    extractRelativePathLoop (n + 1) r =
      (readField r).bind (fun (f, r) =>
        (relativePaths [f]).head?.or (extractRelativePathLoop n r)) := by
  rw [extractRelativePathLoop, hmore, readField]
  cases r.readTag with
  | none => rfl
  | some tag =>
      obtain ⟨number, wire, r'⟩ := tag
      simp only [Bool.false_eq_true, if_false, Option.bind_some]
      by_cases hpath : number = kFMFieldRelativePath ∧ wire = .lengthDelim
      · obtain ⟨rfl, rfl⟩ := hpath
        rw [if_pos ⟨rfl, rfl⟩, readBody_lengthDelim]
        cases r'.readLengthDelim with
        | none => rfl
        | some read => simp [relativePaths]
      · rw [if_neg hpath, skipField_eq]
        cases hread : readBody wire r' with
        | none => rfl
        | some read =>
            obtain ⟨body, after⟩ := read
            have hwire := wire_of_readBody hread
            have hnone : relativePaths [⟨number, body⟩] = [] := by
              cases body with
              | varint value => rfl
              | fixed64 bytes => rfl
              | fixed32 bytes => rfl
              | slice bytes =>
                  have hnumber : number ≠ kFMFieldRelativePath := by
                    intro hnumber
                    exact hpath ⟨hnumber, hwire.symm⟩
                  simp [relativePaths, hnumber]
            simp [hnone]

/-- The loop over fields: by induction on the fields, the loop stands behind
them unless one of them was a path. -/
theorem extractRelativePathLoop_made {piece : Bytes} {fs : List Field} (h : Made piece fs) :
    ∀ (data rest : Bytes) (pos fuel : Nat), data.drop pos = piece ++ rest →
      (piece ++ rest).length ≤ fuel → ∃ fuel', rest.length ≤ fuel' ∧
        extractRelativePathLoop fuel ⟨data, pos⟩ =
          (relativePaths fs).head?.or
            (extractRelativePathLoop fuel' ⟨data, pos + piece.length⟩) := by
  induction h with
  | nil =>
      intro data rest pos fuel _ hfuel
      exact ⟨fuel, hfuel, rfl⟩
  | @cons piece tail f fs hpiece _ ih =>
      intro data rest pos fuel hdata hfuel
      have hpos := hpiece.length_pos
      rw [List.append_assoc] at hdata hfuel
      rw [List.length_append] at hfuel
      obtain ⟨n, rfl⟩ : ∃ n, fuel = n + 1 := ⟨fuel - 1, by omega⟩
      have hmore : Reader.eof ⟨data, pos⟩ = false := by
        have hlen := congrArg List.length hdata
        simp only [List.length_drop, List.length_append] at hlen
        simp only [Reader.eof, decide_eq_false_iff_not]
        omega
      obtain ⟨fuel', hfuel', hrest⟩ :=
        ih data rest (pos + piece.length) n (drop_add_length hdata) (by omega)
      refine ⟨fuel', hfuel', ?_⟩
      have hcons : relativePaths (f :: fs) = relativePaths [f] ++ relativePaths fs :=
        slices_append kFMFieldRelativePath [f] fs
      rw [extractRelativePathLoop_field hmore, hpiece.reads data _ pos hdata, Option.bind_some,
        hcons, List.head?_append, Option.or_assoc, List.length_append, ← Nat.add_assoc, ← hrest]

/-- **`ExtractRelativePath` on a well-formed entry**: the first path. -/
theorem extractRelativePath_made {data : Bytes} {fs : List Field} (h : Made data fs) :
    extractRelativePath data = (relativePaths fs).head? := by
  obtain ⟨fuel', -, hrun⟩ :=
    extractRelativePathLoop_made h data [] 0 data.length (by simp) (by simp)
  rw [extractRelativePath, hrun]
  cases fuel' with
  | zero => exact Option.or_none
  | succ n => simp [extractRelativePathLoop, Reader.eof]

/-- It finds a path in every entry that begins with fields among which there
is one. -/
theorem extractRelativePath_prefix {front rest : Bytes} {fs : List Field} (h : Made front fs)
    (hpath : relativePaths fs ≠ []) :
    extractRelativePath (front ++ rest) = (relativePaths fs).head? := by
  obtain ⟨fuel', -, hrun⟩ :=
    extractRelativePathLoop_made h (front ++ rest) rest 0 (front ++ rest).length (by simp) (by simp)
  rw [extractRelativePath, hrun]
  cases hhead : (relativePaths fs).head? with
  | none => exact absurd (List.head?_eq_none_iff.mp hhead) hpath
  | some path => rfl

/-- And it finds none elsewhere: by induction on the rounds. -/
theorem made_of_extractRelativePathLoop (n : Nat) :
    ∀ {r : Reader} {path : Bytes}, extractRelativePathLoop n r = some path →
      ∃ front rest fs, r.data.drop r.pos = front ++ rest ∧ Made front fs
        ∧ relativePaths fs ≠ [] := by
  induction n with
  | zero =>
      intro r path h
      cases h
  | succ n ih =>
      intro r path h
      cases heof : r.eof with
      | true =>
          rw [extractRelativePathLoop, heof] at h
          cases h
      | false =>
          rw [extractRelativePathLoop_field heof, Option.bind_eq_some_iff] at h
          obtain ⟨⟨f, after⟩, hread, hrest⟩ := h
          obtain ⟨piece, rest, hdata, hreads, rfl⟩ := readField_local r after f hread
          have hpiece : IsField piece f := .of_reads hreads
          by_cases hpath : relativePaths [f] = []
          · dsimp only at hrest
            rw [hpath] at hrest
            obtain ⟨front, rest', fs, hdata', hmade, hfs⟩ := ih hrest
            rw [drop_add_length hdata] at hdata'
            refine ⟨piece ++ front, rest', f :: fs, ?_, .cons hpiece hmade, ?_⟩
            · rw [hdata, hdata', List.append_assoc]
            · have hcons : relativePaths (f :: fs) = relativePaths [f] ++ relativePaths fs :=
                slices_append kFMFieldRelativePath [f] fs
              rw [hcons, hpath]
              exact hfs
          · exact ⟨piece ++ [], rest, [f], by rw [List.append_nil, hdata],
              .cons hpiece .nil, hpath⟩

/-! ## Agreement -/

/-- On an entry that the loop accepts both readers have the same path, an
entry without one having the empty path; on any other `ExtractRelativePath`
finds none. -/
def ReadersAgree (data : Bytes) : Prop :=
  match parse fileMetadataField data {} with
  | some fields =>
    (extractRelativePath data = none ∧ fields.relativePath = [])
      ∨ extractRelativePath data = some fields.relativePath
  | none => extractRelativePath data = none

instance (data : Bytes) : Decidable (ReadersAgree data) :=
  match h : parse fileMetadataField data {} with
  | some fields =>
    decidable_of_iff ((extractRelativePath data = none ∧ fields.relativePath = [])
      ∨ extractRelativePath data = some fields.relativePath) (by rw [ReadersAgree, h])
  | none => decidable_of_iff (extractRelativePath data = none) (by rw [ReadersAgree, h])

/-- A well-formed entry whose first and last path are the same, or a
malformed one that does not begin with fields among which there is a path. -/
def PathSettled (data : Bytes) : Prop :=
  (∀ fs, Made data fs → (relativePaths fs).head? = (relativePaths fs).getLast?)
  ∧ ((¬ ∃ fs, Made data fs) →
      ∀ front rest fs, data = front ++ rest → Made front fs → relativePaths fs = [])

theorem made_unique {data : Bytes} {fs gs : List Field} (hfs : Made data fs)
    (hgs : Made data gs) : fs = gs := by
  rw [← fieldsOf_eq_some_iff] at hfs hgs
  rw [hfs, Option.some.injEq] at hgs
  exact hgs

/-- **When the two readers of a file entry agree.** -/
theorem readers_agree_iff (data : Bytes) : ReadersAgree data ↔ PathSettled data := by
  by_cases hdata : ∃ fs, Made data fs
  · obtain ⟨fs, hmade⟩ := hdata
    have hscan : (fileMetadataOf {} fs).relativePath = (relativePaths fs).getLast?.getD [] := by
      simp [fileMetadataOf, lastOr, relativePaths]
    have hagree : ReadersAgree data ↔
        (relativePaths fs).head? = (relativePaths fs).getLast? := by
      rw [ReadersAgree, parse_fileMetadata hmade, extractRelativePath_made hmade]
      simp only [hscan]
      cases hpaths : relativePaths fs with
      | nil => simp
      | cons path paths => simp [List.getLast?_cons]
    rw [hagree]
    constructor
    · intro h
      refine ⟨?_, fun hnone => absurd ⟨fs, hmade⟩ hnone⟩
      intro gs hgs
      rw [made_unique hgs hmade]
      exact h
    · intro h
      exact h.1 fs hmade
  · have hnone : parse fileMetadataField data {} = none := by
      have haccepts := fileMetadata_compositional.accepts data {}
      rw [← haccepts, Option.not_isSome_iff_eq_none] at hdata
      exact hdata
    have hagree : ReadersAgree data ↔ extractRelativePath data = none := by
      rw [ReadersAgree, hnone]
    rw [hagree]
    constructor
    · intro h
      refine ⟨fun fs hmade => absurd ⟨fs, hmade⟩ hdata, ?_⟩
      intro _ front rest fs hsplit hmade
      by_contra hpath
      rw [hsplit, extractRelativePath_prefix hmade hpath, List.head?_eq_none_iff] at h
      exact hpath h
    · intro h
      cases hextract : extractRelativePath data with
      | none => rfl
      | some path =>
          obtain ⟨front, rest, fs, hsplit, hmade, hpath⟩ :=
            made_of_extractRelativePathLoop data.length hextract
          exact absurd (h.2 hdata front rest fs hsplit hmade) hpath

/-- An entry with the paths `a` and `b`: one reader takes the first, the other
the last.  An entry that breaks off behind its path: one reader takes it, the
other rejects the entry. -/
theorem readers_disagree :
    ∃ twice torn : Bytes, ¬ ReadersAgree twice ∧ ¬ ReadersAgree torn
      ∧ extractRelativePath twice = some [97]
      ∧ (parse fileMetadataField twice {}).map (·.relativePath) = some [98]
      ∧ extractRelativePath torn = some [97] ∧ parse fileMetadataField torn {} = none :=
  ⟨[0x1A, 1, 97, 0x1A, 1, 98], [0x1A, 1, 97, 0x1A], by decide, by decide, by decide, by decide,
    by decide, by decide⟩

end FileMetadataReaders
