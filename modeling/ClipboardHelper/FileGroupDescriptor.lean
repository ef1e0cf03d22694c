import ClipboardHelper.Library.Layout
import ClipboardHelper.FileTables

/-!
# The file group descriptor of another application

`ReadVirtualFiles` looks at the memory that another application hands out as
`CFSTR_FILEDESCRIPTOR` and takes the name and the size of each virtual file
from it.  It checks the number of entries and that the array of descriptors
lies inside the memory.  Each name is then assigned to a `std::wstring`,
which looks for the first zero.

Here the memory is a byte string and every read says whether it stays inside.
Where it does, the result is what `FileTables.readVirtualFiles` works with
(`readVirtualFiles_refines`).

**`names_read_within_bounds_iff`**: an accepted blob is read inside its
bounds, and each name depends on its own `cFileName` only, exactly if every
`cFileName` contains a zero.  That the field has `MAX_PATH` units by ABI, as
the comment has it, does not stop the search at its end.
-/

namespace GroupDescriptor

open Library DispatchCodec FileTables

/-! ## The reader -/

/-- `FD_FILESIZE`. -/
def fdFileSize : Nat := 0x40

/-- Where entry `i` of the array begins. -/
def fgd (i : Nat) : Nat := 4 + i * sizeofFileDescriptor

/-- The offsets inside a `FILEDESCRIPTORW`. -/
def nFileSizeHigh : Nat := 64
def nFileSizeLow : Nat := 68
def cFileName : Nat := 72

/-- What comes of `ReadVirtualFiles`. -/
inductive Reading
  | rejected
  /-- It has read past the end of the memory. -/
  | outOfBounds
  | files (virtualFiles : List VirtualFileEntry)
deriving DecidableEq, Repr

def readItems (blob : Bytes) : Option Nat := readLE blob 0 4

def readName (blob : Bytes) (i : Nat) : Option WideString := readWide blob (fgd i + cFileName)

/-- The size, if `FD_FILESIZE` says that there is one. -/
def readSize (blob : Bytes) (i : Nat) : Option (Option UInt64) := do
  let dwFlags ← readLE blob (fgd i) 4
  if dwFlags &&& fdFileSize ≠ 0 then
    let low ← readLE blob (fgd i + nFileSizeLow) 4
    let high ← readLE blob (fgd i + nFileSizeHigh) 4
    return some (UInt64.ofNat (high * 2 ^ 32 + low))
  else
    return none

def readEntry (blob : Bytes) (i : Nat) : Option VirtualFileEntry := do
  let name ← readName blob i
  let size ← readSize blob i
  return { name := name, size := size.getD 0, lindex := UInt32.ofNat i }

/-- The body of the loop, from entry `i` on. -/
def readEntries (blob : Bytes) : Nat → Nat → Option (List VirtualFileEntry)
  | 0, _ => some []
  | n + 1, i => do
      let entry ← readEntry blob i
      let rest ← readEntries blob n (i + 1)
      return entry :: rest

def neededBytes (count : Nat) : Nat :=
  sizeofFileGroupDescriptor + (count - 1) * sizeofFileDescriptor

/-- `ReadVirtualFiles`, from the size checks on. -/
def readVirtualFiles (blob : Bytes) : Reading :=
  match readItems blob with
  | none => .outOfBounds
  | some count =>
    if kMaxInboundVirtualFiles < count then .rejected
    else if 0 < count ∧ blob.length < neededBytes count then .rejected
    else
      match readEntries blob count 0 with
      | none => .outOfBounds
      | some virtualFiles => .files virtualFiles

/-! ## What the checks leave -/

/-- The counts that pass both checks. -/
def Fits (blob : Bytes) (count : Nat) : Prop :=
  count ≤ kMaxInboundVirtualFiles ∧ (0 < count → neededBytes count ≤ blob.length)

/-- The 260 units of the `cFileName` of entry `i`. -/
def nameField (blob : Bytes) (i : Nat) : WideString :=
  wideUnits (segment blob (fgd i + cFileName) (fgd (i + 1)))

theorem fgd_succ (i : Nat) : fgd (i + 1) = fgd i + 592 := by
  simp only [fgd, sizeofFileDescriptor]
  omega

theorem neededBytes_succ (i : Nat) : neededBytes (i + 1) = fgd (i + 1) := by
  simp only [neededBytes, fgd, sizeofFileDescriptor, sizeofFileGroupDescriptor]
  omega

theorem Fits.inside {blob : Bytes} {count i : Nat} (h : Fits blob count) (hi : i < count) :
    fgd (i + 1) ≤ blob.length := by
  have hneeded := h.2 (by omega)
  simp only [neededBytes, fgd, sizeofFileDescriptor, sizeofFileGroupDescriptor] at hneeded ⊢
  omega

theorem readVirtualFiles_of_fits {blob : Bytes} {count : Nat}
    (hitems : readItems blob = some count) (hfits : Fits blob count) :
    readVirtualFiles blob =
      match readEntries blob count 0 with
      | none => .outOfBounds
      | some virtualFiles => .files virtualFiles := by
  have hcap : ¬ kMaxInboundVirtualFiles < count := Nat.not_lt.mpr hfits.1
  have hsize : ¬ (0 < count ∧ blob.length < neededBytes count) := by
    rintro ⟨hpos, hlt⟩
    exact absurd (hfits.2 hpos) (by omega)
  rw [readVirtualFiles, hitems]
  simp only [if_neg hcap, if_neg hsize]

theorem readVirtualFiles_rejected_iff {blob : Bytes} {count : Nat}
    (hitems : readItems blob = some count) :
    readVirtualFiles blob = .rejected ↔ ¬ Fits blob count := by
  constructor
  · intro hrejected hfits
    rw [readVirtualFiles_of_fits hitems hfits] at hrejected
    split at hrejected <;> cases hrejected
  · intro hfits
    rw [readVirtualFiles, hitems]
    by_cases hcap : kMaxInboundVirtualFiles < count
    · simp only [if_pos hcap]
    · have hsize : 0 < count ∧ blob.length < neededBytes count := by
        by_contra hno
        exact hfits ⟨Nat.not_lt.mp hcap, fun hpos => Nat.not_lt.mp fun hlt => hno ⟨hpos, hlt⟩⟩
      simp only [if_neg hcap, if_pos hsize]

theorem readLE_inside (bytes : Bytes) (offset width : Nat) (h : offset + width ≤ bytes.length) :
    ∃ n, readLE bytes offset width = some n :=
  Option.isSome_iff_exists.mp ((readLE_isSome_iff bytes offset width).mpr h)

/-- The other fields never cause trouble. -/
theorem readSize_inside {blob : Bytes} {i : Nat} (h : fgd (i + 1) ≤ blob.length) :
    ∃ size, readSize blob i = some size := by
  rw [fgd_succ] at h
  obtain ⟨dwFlags, hflags⟩ := readLE_inside blob (fgd i) 4 (by omega)
  obtain ⟨low, hlow⟩ := readLE_inside blob (fgd i + nFileSizeLow) 4
    (by rw [nFileSizeLow]; omega)
  obtain ⟨high, hhigh⟩ := readLE_inside blob (fgd i + nFileSizeHigh) 4
    (by rw [nFileSizeHigh]; omega)
  by_cases hset : dwFlags &&& fdFileSize = 0 <;> simp [readSize, hflags, hlow, hhigh, hset]

/-! ## The entries -/

theorem readEntries_eq {blob : Bytes} {entry : Nat → VirtualFileEntry} {n i : Nat}
    (h : ∀ k, i ≤ k → k < i + n → readEntry blob k = some (entry k)) :
    readEntries blob n i = some ((List.range' i n).map entry) := by
  induction n generalizing i with
  | zero => rfl
  | succ n ih =>
      have hfirst := h i (by omega) (by omega)
      have hrest := ih (i := i + 1) fun k hle hlt => h k (by omega) (by omega)
      simp only [readEntries, hfirst, hrest]
      rfl

theorem readEntry_of_readEntries {blob : Bytes} {virtualFiles : List VirtualFileEntry}
    {n i k : Nat} (h : readEntries blob n i = some virtualFiles) (hle : i ≤ k)
    (hlt : k < i + n) : ∃ entry, readEntry blob k = some entry := by
  induction n generalizing i virtualFiles with
  | zero => omega
  | succ n ih =>
      simp only [readEntries, Option.bind_eq_bind, Option.bind_eq_some_iff] at h
      obtain ⟨entry, hentry, rest, hrest, -⟩ := h
      rcases Nat.eq_or_lt_of_le hle with rfl | hbehind
      · exact ⟨entry, hentry⟩
      · exact ih hrest (by omega) (by omega)

/-- The search for a name begins with the units of its field and goes on
behind them. -/
theorem readName_eq {blob : Bytes} {i : Nat} (h : fgd (i + 1) ≤ blob.length) :
    readName blob i =
      nulTerminated (nameField blob i ++ wideUnits (blob.drop (fgd (i + 1)))) := by
  have hend : fgd (i + 1) = fgd i + cFileName + 520 := by
    rw [fgd_succ, cFileName]
  have hlength : (segment blob (fgd i + cFileName) (fgd (i + 1))).length = 2 * 260 := by
    rw [length_segment _ h, hend]
    omega
  have hsplit := segment_append_drop blob (a := fgd i + cFileName) (b := fgd (i + 1)) (by omega)
  rw [readName, readWide, ← hsplit, wideUnits_append hlength, nameField]

theorem readName_of_terminated {blob : Bytes} {i : Nat} (h : fgd (i + 1) ≤ blob.length)
    (hnul : 0 ∈ nameField blob i) : readName blob i = nulTerminated (nameField blob i) := by
  rw [readName_eq h, nulTerminated_append_of_mem hnul]

theorem readEntry_inside {blob : Bytes} {i : Nat} (h : fgd (i + 1) ≤ blob.length)
    {name : WideString} (hname : readName blob i = some name) :
    ∃ size, readSize blob i = some size ∧
      readEntry blob i = some { name := name, size := size.getD 0, lindex := UInt32.ofNat i } := by
  obtain ⟨size, hsize⟩ := readSize_inside h
  refine ⟨size, hsize, ?_⟩
  simp only [readEntry, hname, hsize]
  rfl

/-! ## The descriptor of the file tables -/

/-- The blob as `FileTables` has it: what can be read of each entry. -/
def describe (blob : Bytes) (count : UInt32) : FileTables.FileGroupDescriptor where
  cItems := count
  blobSize := blob.length
  fgd i := {
    name := (readName blob i).getD []
    fileSize := (readSize blob i).getD none }

theorem describe_sound_iff (blob : Bytes) (count : UInt32) :
    (describe blob count).sound = true ↔ Fits blob count.toNat := by
  have hzero : (count == 0) = true ↔ ¬ 0 < count.toNat := by
    rw [beq_iff_eq, Nat.pos_iff_ne_zero, not_not, ← UInt32.toNat_inj]
    rfl
  change (decide (count.toNat ≤ kMaxInboundVirtualFiles) &&
    (count == 0 || decide (neededBytes count.toNat ≤ blob.length))) = true ↔ _
  rw [Bool.and_eq_true, Bool.or_eq_true, decide_eq_true_eq, decide_eq_true_eq, hzero, Fits,
    imp_iff_not_or]

/-- **The reader over bytes refines the one over descriptors**: it accepts the
same blobs, and where it stays inside them the entries are the same. -/
theorem readVirtualFiles_refines {blob : Bytes} {count : UInt32}
    (hitems : readItems blob = some count.toNat) (object : ChunkServing.DataObject)
    (hobject : object ≠ 0) (hinside : readVirtualFiles blob ≠ .outOfBounds) :
    (FileTables.readVirtualFiles
        { object := object, descriptor := some (describe blob count) }).2 =
      match readVirtualFiles blob with
      | .files virtualFiles => some {
          contentType := .files
          virtualFiles := virtualFiles
          virtualDataObject := object }
      | _ => none := by
  by_cases hfits : Fits blob count.toNat
  · have hsound := (describe_sound_iff blob count).mpr hfits
    cases hentries : readEntries blob count.toNat 0 with
    | none =>
        refine absurd ?_ hinside
        rw [readVirtualFiles_of_fits hitems hfits, hentries]
    | some virtualFiles =>
        have heach : ∀ k, 0 ≤ k → k < 0 + count.toNat →
            readEntry blob k = some ((describe blob count).entry k) := by
          intro k hle hlt
          obtain ⟨entry, hentry⟩ := readEntry_of_readEntries hentries hle hlt
          have hread := hentry
          simp only [readEntry, Option.bind_eq_bind, Option.bind_eq_some_iff] at hread
          obtain ⟨name, hname, size, hsize, -⟩ := hread
          rw [readEntry, hname, hsize]
          simp [describe, FileTables.FileGroupDescriptor.entry, hname, hsize]
        have hall := readEntries_eq heach
        rw [readVirtualFiles_of_fits hitems hfits, hall]
        simp only [FileTables.readVirtualFiles, hobject, hsound, List.range_eq_range', if_true,
          Bool.false_eq_true, if_false]
        rfl
  · have hrejected := (readVirtualFiles_rejected_iff hitems).mpr hfits
    have hsound : (describe blob count).sound = false :=
      Bool.eq_false_iff.mpr fun h => hfits ((describe_sound_iff blob count).mp h)
    rw [hrejected]
    simp [FileTables.readVirtualFiles, hobject, hsound]

/-! ## Staying inside -/

/-- Only bytes of the blob are read, and the name of an entry is what every
accepted blob with the same `cFileName` at this place gives. -/
structure ReadsOwn (blob : Bytes) (count : Nat) : Prop where
  inside : readVirtualFiles blob ≠ .outOfBounds
  own : ∀ i < count, ∀ (other : Bytes) (otherCount : Nat), readItems other = some otherCount →
    i < otherCount → readVirtualFiles other ≠ .rejected →
    nameField other i = nameField blob i → readName other i = readName blob i

/-- The blob is rejected, or it is read as it should be. -/
def ReadWithinBounds (blob : Bytes) : Prop :=
  readVirtualFiles blob = .rejected ∨ ∃ count, readItems blob = some count ∧ ReadsOwn blob count

/-- The blob, cut off behind entry `i`, with as many entries as are left. -/
def cutOff (blob : Bytes) (i : Nat) : Bytes :=
  littleEndian 4 (i + 1) ++ segment blob 4 (fgd (i + 1))

theorem length_cutOff {blob : Bytes} {i : Nat} (h : fgd (i + 1) ≤ blob.length) :
    (cutOff blob i).length = fgd (i + 1) := by
  have hhead : 4 ≤ fgd (i + 1) := by
    rw [fgd]
    omega
  rw [cutOff, List.length_append, length_littleEndian, length_segment _ h]
  omega

theorem readItems_cutOff (blob : Bytes) {i : Nat} (hi : i < kMaxInboundVirtualFiles) :
    readItems (cutOff blob i) = some (i + 1) := by
  have hread := readLE_littleEndian [] (segment blob 4 (fgd (i + 1))) 4 (i + 1)
  have hfits : (i + 1) % 256 ^ 4 = i + 1 := by
    rw [kMaxInboundVirtualFiles] at hi
    exact Nat.mod_eq_of_lt (by omega)
  rw [hfits] at hread
  exact hread

theorem nameField_cutOff {blob : Bytes} {i : Nat} (h : fgd (i + 1) ≤ blob.length) :
    nameField (cutOff blob i) i = nameField blob i := by
  have hhead : 4 ≤ fgd i := by
    rw [fgd]
    omega
  have hsucc := fgd_succ i
  have hblob : blob = segment blob 0 4 ++ segment blob 4 (fgd (i + 1)) ++
      blob.drop (fgd (i + 1)) := by
    rw [segment_append blob (Nat.zero_le 4) (by omega), segment_append_drop _ (Nat.zero_le _),
      List.drop_zero]
  have hword : (segment blob 0 4).length = 4 := by
    rw [length_segment blob (by omega)]
  have hshift : ∀ front : Bytes, front.length = 4 →
      segment (front ++ segment blob 4 (fgd (i + 1))) (fgd i + cFileName) (fgd (i + 1)) =
        segment (segment blob 4 (fgd (i + 1))) (fgd i + cFileName - 4) (fgd (i + 1) - 4) := by
    intro front hfront
    have hright := segment_append_right front (segment blob 4 (fgd (i + 1)))
      (fgd i + cFileName - 4) (fgd (i + 1) - 4)
    rw [hfront, show 4 + (fgd i + cFileName - 4) = fgd i + cFileName by omega,
      show 4 + (fgd (i + 1) - 4) = fgd (i + 1) by omega] at hright
    exact hright
  have hleft : segment blob (fgd i + cFileName) (fgd (i + 1)) =
      segment (segment blob 0 4 ++ segment blob 4 (fgd (i + 1))) (fgd i + cFileName)
        (fgd (i + 1)) := by
    conv_lhs => rw [hblob]
    rw [segment_append_left]
    rw [List.length_append, hword, length_segment blob h]
    omega
  rw [nameField, nameField, hleft, cutOff, hshift _ (length_littleEndian 4 (i + 1)),
    hshift _ hword]

theorem fits_cutOff {blob : Bytes} {i : Nat} (h : fgd (i + 1) ≤ blob.length)
    (hi : i < kMaxInboundVirtualFiles) : Fits (cutOff blob i) (i + 1) := by
  refine ⟨hi, ?_⟩
  intro _
  rw [neededBytes_succ, length_cutOff h]

/-- Cut off behind an entry without a terminator, the blob is too short for
its name. -/
theorem readName_cutOff {blob : Bytes} {i : Nat} (h : fgd (i + 1) ≤ blob.length)
    (hnul : 0 ∉ nameField blob i) : readName (cutOff blob i) i = none := by
  have hlength := length_cutOff h
  rw [readName_eq (Nat.le_of_eq hlength.symm), nameField_cutOff h, ← hlength, List.drop_length,
    nulTerminated_append hnul]
  rfl

/-- **Names are read within bounds** exactly if every one of them ends in its
own field. -/
theorem names_read_within_bounds_iff {blob : Bytes} (hheader : 4 ≤ blob.length) :
    ReadWithinBounds blob ↔
      ∀ count, readItems blob = some count → Fits blob count →
        ∀ i < count, 0 ∈ nameField blob i := by
  obtain ⟨count, hitems⟩ := readLE_inside blob 0 4 hheader
  change readItems blob = some count at hitems
  constructor
  · intro hsafe n hn hfits i hi
    obtain rfl : n = count := Option.some.inj (hn.symm.trans hitems)
    have hinside := hfits.inside hi
    rcases hsafe with hrejected | ⟨n', hn', hown⟩
    · exact absurd hfits ((readVirtualFiles_rejected_iff hitems).mp hrejected)
    obtain rfl : n' = n := Option.some.inj (hn'.symm.trans hitems)
    by_contra hnul
    have hbound : i < kMaxInboundVirtualFiles := Nat.lt_of_lt_of_le hi hfits.1
    have hother := readItems_cutOff blob hbound
    -- the blob that ends where the field ends has no name to offer
    have hcut := hown.own i hi (cutOff blob i) (i + 1) hother (Nat.lt_succ_self i)
      (fun hrejected => (readVirtualFiles_rejected_iff hother).mp hrejected
        (fits_cutOff hinside hbound))
      (nameField_cutOff hinside)
    rw [readName_cutOff hinside hnul] at hcut
    apply hown.inside
    rw [readVirtualFiles_of_fits hitems hfits]
    cases hentries : readEntries blob n' 0 with
    | none => rfl
    | some virtualFiles =>
        obtain ⟨entry, hentry⟩ := readEntry_of_readEntries hentries (Nat.zero_le i) (by omega)
        simp [readEntry, ← hcut] at hentry
  · intro hterminated
    by_cases hfits : Fits blob count
    · refine Or.inr ⟨count, hitems, ?_, ?_⟩
      · have heach : ∀ i, 0 ≤ i → i < 0 + count →
            readEntry blob i = some ((readEntry blob i).getD { name := [] }) := by
          intro i _ hi
          have hinside := hfits.inside (i := i) (by omega)
          have hnul := hterminated count hitems hfits i (by omega)
          have hname := readName_of_terminated hinside hnul
          rw [nulTerminated, if_pos hnul] at hname
          obtain ⟨size, -, hentry⟩ := readEntry_inside hinside hname
          rw [hentry]
          rfl
        rw [readVirtualFiles_of_fits hitems hfits, readEntries_eq heach]
        simp
      · intro i hi other otherCount hother hiother haccepted hfield
        have hotherFits : Fits other otherCount := by
          by_contra hno
          exact haccepted ((readVirtualFiles_rejected_iff hother).mpr hno)
        have hnul := hterminated count hitems hfits i hi
        rw [readName_of_terminated (hfits.inside hi) hnul,
          readName_of_terminated (hotherFits.inside hiother) (hfield ▸ hnul), hfield]
    · exact Or.inl ((readVirtualFiles_rejected_iff hitems).mpr hfits)

/-- One entry, with `name` in its `cFileName`. -/
def oneEntry (name : WideString) : Bytes :=
  littleEndian 4 1 ++ List.replicate cFileName 0x41 ++ wide name

theorem length_oneEntry (name : WideString) : (oneEntry name).length = 76 + name.length * 2 := by
  rw [oneEntry, List.length_append, List.length_append, length_littleEndian, length_wide,
    List.length_replicate, cFileName]

theorem names_read_within_bounds_one :
    4 ≤ (oneEntry (0x61 :: List.replicate 259 0)).length ∧
      (ReadWithinBounds (oneEntry (0x61 :: List.replicate 259 0)) ↔
        ∀ count, readItems (oneEntry (0x61 :: List.replicate 259 0)) = some count →
          Fits (oneEntry (0x61 :: List.replicate 259 0)) count →
          ∀ i < count, 0 ∈ nameField (oneEntry (0x61 :: List.replicate 259 0)) i) := by
  have hheader : 4 ≤ (oneEntry (0x61 :: List.replicate 259 0)).length := by
    rw [length_oneEntry]
    omega
  exact ⟨hheader, names_read_within_bounds_iff hheader⟩

/-- **A name without an end.**  The blob has room for its one entry, and the
search for the end of the name leaves it. -/
theorem unterminated_name_read_past_end :
    (oneEntry (List.replicate 260 0x41)).length = sizeofFileGroupDescriptor ∧
      readVirtualFiles (oneEntry (List.replicate 260 0x41)) = .outOfBounds ∧
      ¬ ReadWithinBounds (oneEntry (List.replicate 260 0x41)) := by
  have hlength : (oneEntry (List.replicate 260 0x41)).length = sizeofFileGroupDescriptor := by
    rw [length_oneEntry, List.length_replicate]
    rfl
  have hitems : readItems (oneEntry (List.replicate 260 0x41)) = some 1 := by
    rw [readItems, oneEntry, List.append_assoc]
    exact readLE_littleEndian [] _ 4 1
  have hfits : Fits (oneEntry (List.replicate 260 0x41)) 1 := by
    refine ⟨by decide, fun _ => ?_⟩
    rw [hlength]
    rfl
  have hname : readName (oneEntry (List.replicate 260 0x41)) 0 = none := by
    have hfront : (littleEndian 4 1 ++ List.replicate cFileName 0x41).length =
        fgd 0 + cFileName := rfl
    have hunits := wideUnits_wide_append (List.replicate 260 0x41) []
    rw [List.append_nil] at hunits
    have hnul : (0 : UInt16) ∉ List.replicate 260 0x41 := fun h =>
      absurd (List.eq_of_mem_replicate h) (by decide)
    rw [readName, readWide, oneEntry, ← hfront, List.drop_left, hunits,
      nulTerminated_append hnul]
    rfl
  have hpast : readVirtualFiles (oneEntry (List.replicate 260 0x41)) = .outOfBounds := by
    rw [readVirtualFiles_of_fits hitems hfits]
    simp only [readEntries, readEntry, hname]
    rfl
  refine ⟨hlength, hpast, ?_⟩
  rintro (hrejected | ⟨count, -, hown⟩)
  · rw [hpast] at hrejected
    cases hrejected
  · exact hown.inside hpast

end GroupDescriptor
