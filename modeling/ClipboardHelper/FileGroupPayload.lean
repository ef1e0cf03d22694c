import ClipboardHelper.FileGroupDescriptor

/-!
# The file group descriptor that is offered

`BuildFileGroupDescriptorPayload` packs the files of an announcement into one
`FILEGROUPDESCRIPTORW`: the count, and a descriptor of 592 bytes for each
file, whose name is cut to what `cFileName` holds beside its terminator.

**`payload_read_back`**: `ReadVirtualFiles` reads from the payload the files
in their order, with their 64-bit sizes and with the longest prefix of each
name that fits and does not split a surrogate pair, every slash turned.
-/

namespace GroupDescriptor

open Library DispatchCodec FileTables

/-! ## The builder -/

def fdAttributes : Nat := 0x4
def fdWritesTime : Nat := 0x20
def fdProgressUi : Nat := 0x4000
def fileAttributeDirectory : Nat := 0x10
def fileAttributeNormal : Nat := 0x80
def kMaxVirtualFileSpecs : Nat := 100000
def maxPath : Nat := 260

/-- A `FILEDESCRIPTORW`, as far as it is filled in. -/
structure FileDescriptorW where
  dwFlags : Nat
  dwFileAttributes : Nat
  ftLastWriteTime : UInt64
  fileSizeHigh : UInt32
  fileSizeLow : UInt32
  fileName : WideString

/-- The fields before `cFileName` in the order of the structure; the class id,
the icon's size and position and the two other times stay zero. -/
def FileDescriptorW.fields (fd : FileDescriptorW) : List (Nat × Nat) :=
  [(4, fd.dwFlags), (16, 0), (8, 0), (8, 0), (4, fd.dwFileAttributes), (8, 0), (8, 0),
    (8, fd.ftLastWriteTime.toNat), (4, fd.fileSizeHigh.toNat), (4, fd.fileSizeLow.toNat)]

def FileDescriptorW.bytes (fd : FileDescriptorW) : Bytes := record fd.fields ++ wide fd.fileName

def isHighSurrogate (c : UInt16) : Bool := 0xD800 ≤ c && c ≤ 0xDBFF
def isLowSurrogate (c : UInt16) : Bool := 0xDC00 ≤ c && c ≤ 0xDFFF

/-- How much of a name is copied. -/
def copyLength (n : WideString) : Nat :=
  let copy := min n.length (maxPath - 1)
  if copy < n.length ∧ copy > 0 ∧ isHighSurrogate (n.getD (copy - 1) 0) then copy - 1 else copy

/-- `/` becomes `\`. -/
def toBackslash (c : UInt16) : UInt16 := if c = 0x2F then 0x5C else c

/-- The 260 units of `cFileName`: the name in a buffer of zeros. -/
def packName (n : WideString) : WideString :=
  (n.take (copyLength n)).map toBackslash ++ List.replicate (maxPath - copyLength n) 0

/-- The descriptor of one file at the time `now`. -/
def fileDescriptor (now : UInt64) (spec : VirtualFileSpec) : FileDescriptorW where
  dwFlags := fdFileSize ||| fdAttributes ||| fdWritesTime ||| fdProgressUi
  dwFileAttributes := if spec.isDirectory then fileAttributeDirectory else fileAttributeNormal
  ftLastWriteTime := now
  fileSizeLow := (spec.size &&& 0xFFFFFFFF).toUInt32
  fileSizeHigh := (spec.size >>> 32).toUInt32
  fileName := packName spec.name

/-- `BuildFileGroupDescriptorPayload`; `now i` is what
`GetSystemTimeAsFileTime` says for file `i`. -/
def buildFileGroupDescriptorPayload (now : Nat → UInt64) (specs : List VirtualFileSpec) : Bytes :=
  if specs = [] then []
  else if kMaxVirtualFileSpecs < specs.length then []
  else littleEndian 4 specs.length ++
    (specs.zipIdx.flatMap fun spec => (fileDescriptor (now spec.2) spec.1).bytes)

/-! ## Names -/

/-- Every high surrogate is followed by a low one, and none stands alone. -/
def WellFormed : WideString → Prop
  | [] => True
  | [c] => ¬ isHighSurrogate c ∧ ¬ isLowSurrogate c
  | c :: d :: rest =>
      if isHighSurrogate c then isLowSurrogate d ∧ WellFormed rest
      else ¬ isLowSurrogate c ∧ WellFormed (d :: rest)

instance decidableWellFormed : (n : WideString) → Decidable (WellFormed n)
  | [] => isTrue trivial
  | [c] => inferInstanceAs (Decidable (¬ isHighSurrogate c ∧ ¬ isLowSurrogate c))
  | c :: d :: rest =>
      have := decidableWellFormed rest
      have := decidableWellFormed (d :: rest)
      inferInstanceAs (Decidable (if isHighSurrogate c then isLowSurrogate d ∧ WellFormed rest
        else ¬ isLowSurrogate c ∧ WellFormed (d :: rest)))

/-- The name is cut between the two halves of a surrogate pair. -/
def Splits (n : WideString) (k : Nat) : Prop :=
  ∃ c d, 0 < k ∧ n[k - 1]? = some c ∧ n[k]? = some d ∧ isHighSurrogate c ∧ isLowSurrogate d

/-- The longest prefix of `n` that leaves room for the terminator and does not
split a pair. -/
structure LongestFitting (n p : WideString) : Prop where
  isPrefix : p <+: n
  fits : p.length ≤ maxPath - 1
  whole : ¬ Splits n p.length
  longest : ∀ k, k ≤ n.length → k ≤ maxPath - 1 → ¬ Splits n k → k ≤ p.length

theorem not_low_of_high {c : UInt16} (h : isHighSurrogate c) : ¬ isLowSurrogate c := by
  simp only [isHighSurrogate, isLowSurrogate, Bool.and_eq_true, decide_eq_true_eq,
    UInt16.le_iff_toNat_le] at h ⊢
  have hhigh : (0xDBFF : UInt16).toNat = 0xDBFF := rfl
  have hlow : (0xDC00 : UInt16).toNat = 0xDC00 := rfl
  omega

/-- In a well-formed name a high surrogate has its other half. -/
theorem WellFormed.low_follows {n : WideString} (h : WellFormed n) {k : Nat} {c : UInt16}
    (hk : n[k]? = some c) (hhigh : isHighSurrogate c) :
    ∃ d, n[k + 1]? = some d ∧ isLowSurrogate d := by
  induction n using WellFormed.induct generalizing k with
  | case1 => simp at hk
  | case2 c' =>
      cases k with
      | zero =>
          obtain rfl : c' = c := by simpa using hk
          exact absurd hhigh h.1
      | succ k => simp at hk
  | case3 c' d rest hc' ih =>
      rw [WellFormed, if_pos hc'] at h
      match k with
      | 0 => exact ⟨d, rfl, h.1⟩
      | 1 =>
          obtain rfl : d = c := by simpa using hk
          exact absurd h.1 (not_low_of_high hhigh)
      | k + 2 => exact ih h.2 (by simpa using hk)
  | case4 c' d rest hc' ih =>
      rw [WellFormed, if_neg hc'] at h
      match k with
      | 0 =>
          obtain rfl : c' = c := by simpa using hk
          exact absurd hhigh hc'
      | k + 1 => exact ih h.2 (by simpa using hk)

theorem copyLength_le (n : WideString) : copyLength n ≤ n.length ∧ copyLength n ≤ maxPath - 1 := by
  simp only [copyLength]
  split <;> omega

/-- **What is copied of a name** is its longest prefix that fits. -/
theorem longestFitting_take {n : WideString} (hwell : WellFormed n) :
    LongestFitting n (n.take (copyLength n)) := by
  obtain ⟨hlength, hfits⟩ := copyLength_le n
  have htake : (n.take (copyLength n)).length = copyLength n := by
    rw [List.length_take, Nat.min_eq_left hlength]
  refine ⟨List.take_prefix _ _, htake.trans_le hfits, ?_, ?_⟩ <;> rw [htake]
  · rintro ⟨c, d, hpos, hc, hd, hhigh, hlow⟩
    have hinside : copyLength n < n.length := (List.getElem?_eq_some_iff.mp hd).1
    simp only [copyLength] at hc hd hpos hinside
    split at hinside
    · -- it has backed off from a high surrogate, which is not the low half of a pair
      next hback =>
        rw [if_pos hback] at hd
        have hsame : n.getD (min n.length (maxPath - 1) - 1) 0 = d := by
          rw [List.getD_eq_getElem?_getD, hd]
          rfl
        rw [hsame] at hback
        exact not_low_of_high hback.2.2 hlow
    · next hstay =>
        rw [if_neg hstay] at hc hpos
        refine hstay ⟨hinside, hpos, ?_⟩
        rw [List.getD_eq_getElem?_getD, hc]
        exact hhigh
  · intro k hk hkfits hwhole
    by_contra hlonger
    simp only [copyLength] at hlonger
    split at hlonger
    · -- the one longer prefix that fits splits a pair
      next hback =>
        have hkmax : k = min n.length (maxPath - 1) := by omega
        have hlast : n[k - 1]? = some (n.getD (k - 1) 0) := by
          rw [List.getD_eq_getElem?_getD, List.getElem?_eq_getElem (by omega)]
          rfl
        rw [← hkmax] at hback
        obtain ⟨d, hd, hlow⟩ := hwell.low_follows hlast hback.2.2
        refine hwhole ⟨_, d, hback.2.1, hlast, ?_, hback.2.2, hlow⟩
        rwa [Nat.sub_add_cancel hback.2.1] at hd
    · omega

theorem toBackslash_ne_zero {c : UInt16} (hc : c ≠ 0) : toBackslash c ≠ 0 := by
  unfold toBackslash
  split
  · decide
  · exact hc

theorem length_packName (n : WideString) : (packName n).length = 260 := by
  obtain ⟨hlength, hfits⟩ := copyLength_le n
  rw [packName, List.length_append, List.length_map, List.length_take, List.length_replicate,
    Nat.min_eq_left hlength]
  rw [maxPath] at hfits ⊢
  omega

/-- The copied part of a name ends at the terminator behind it. -/
theorem nulTerminated_packName {n : WideString} (hnul : 0 ∉ n) (after : WideString) :
    nulTerminated (packName n ++ after) = some ((n.take (copyLength n)).map toBackslash) := by
  obtain ⟨-, hfits⟩ := copyLength_le n
  obtain ⟨spare, hspare⟩ : ∃ spare, maxPath - copyLength n = spare + 1 := by
    refine ⟨maxPath - copyLength n - 1, ?_⟩
    rw [maxPath] at hfits ⊢
    omega
  have hcopied : 0 ∉ (n.take (copyLength n)).map toBackslash := by
    intro hmem
    obtain ⟨c, hc, hzero⟩ := List.mem_map.mp hmem
    refine toBackslash_ne_zero ?_ hzero
    rintro rfl
    exact hnul (List.mem_of_mem_take hc)
  rw [packName, hspare, List.replicate_succ, List.append_assoc, List.cons_append]
  exact nulTerminated_of_nul hcopied _

/-! ## Reading back -/

theorem length_bytes (now : UInt64) (spec : VirtualFileSpec) :
    (fileDescriptor now spec).bytes.length = sizeofFileDescriptor := by
  rw [FileDescriptorW.bytes, List.length_append, length_record, length_wide]
  change 72 + (packName spec.name).length * 2 = 592
  rw [length_packName]

section Payload

variable {now : Nat → UInt64} {specs : List VirtualFileSpec}

theorem payload_eq (hsome : specs ≠ []) (hcap : specs.length ≤ kMaxVirtualFileSpecs) :
    buildFileGroupDescriptorPayload now specs =
      littleEndian 4 specs.length ++
        (specs.zipIdx.flatMap fun spec => (fileDescriptor (now spec.2) spec.1).bytes) := by
  rw [buildFileGroupDescriptorPayload, if_neg hsome, if_neg (Nat.not_lt.mpr hcap)]

theorem length_payload (hsome : specs ≠ []) (hcap : specs.length ≤ kMaxVirtualFileSpecs) :
    (buildFileGroupDescriptorPayload now specs).length = fgd specs.length := by
  rw [payload_eq hsome hcap, List.length_append, length_littleEndian,
    length_flatMap_const fun spec _ => length_bytes (now spec.2) spec.1, List.length_zipIdx, fgd]

theorem readItems_payload (hsome : specs ≠ []) (hcap : specs.length ≤ kMaxVirtualFileSpecs) :
    readItems (buildFileGroupDescriptorPayload now specs) = some specs.length := by
  have hread := readLE_littleEndian []
    (specs.zipIdx.flatMap fun spec => (fileDescriptor (now spec.2) spec.1).bytes) 4 specs.length
  have hfits : specs.length % 256 ^ 4 = specs.length := by
    rw [kMaxVirtualFileSpecs] at hcap
    exact Nat.mod_eq_of_lt (by omega)
  rw [hfits] at hread
  rw [payload_eq hsome hcap]
  exact hread

theorem fits_payload (hsome : specs ≠ []) (hcap : specs.length ≤ kMaxVirtualFileSpecs) :
    Fits (buildFileGroupDescriptorPayload now specs) specs.length := by
  refine ⟨hcap, fun hpos => ?_⟩
  obtain ⟨i, hi⟩ := Nat.exists_eq_add_of_lt hpos
  rw [length_payload hsome hcap, show specs.length = i + 1 by omega, neededBytes_succ]

variable (now)

/-- Descriptor `i` stands in its slot. -/
theorem drop_payload (hcap : specs.length ≤ kMaxVirtualFileSpecs) {i : Nat}
    (hi : i < specs.length) :
    ∃ after, (buildFileGroupDescriptorPayload now specs).drop (fgd i) =
      (fileDescriptor (now i) specs[i]).bytes ++ after := by
  have hsome : specs ≠ [] := List.ne_nil_of_length_pos (by omega)
  have hzip : i < specs.zipIdx.length := by
    rw [List.length_zipIdx]
    exact hi
  have hentry := drop_flatMap (fun spec _ => length_bytes (now spec.2) spec.1) hzip
  rw [List.getElem_zipIdx, Nat.zero_add] at hentry
  rw [payload_eq hsome hcap, fgd, ← List.drop_drop,
    List.drop_left' (length_littleEndian 4 specs.length)]
  exact ⟨_, hentry⟩

/-- A field of descriptor `i` is read back from its slot. -/
theorem readLE_payload (hcap : specs.length ≤ kMaxVirtualFileSpecs) {i k : Nat}
    (hi : i < specs.length) (hk : k < 10) :
    let fields := (fileDescriptor (now i) specs[i]).fields
    let field := fields.get ⟨k, hk⟩
    readLE (buildFileGroupDescriptorPayload now specs) (fgd i + offsetOf fields k) field.1 =
      some (field.2 % 256 ^ field.1) := by
  intro fields field
  have hsome : specs ≠ [] := List.ne_nil_of_length_pos (by omega)
  have hinside : fgd i ≤ (buildFileGroupDescriptorPayload now specs).length := by
    rw [length_payload hsome hcap, fgd, fgd]
    exact Nat.add_le_add_left (Nat.mul_le_mul_right _ (Nat.le_of_lt hi)) 4
  obtain ⟨after, hdrop⟩ := drop_payload now hcap hi
  rw [← readLE_drop hinside, hdrop, FileDescriptorW.bytes, List.append_assoc]
  exact readLE_record fields _ hk

theorem readName_payload (hcap : specs.length ≤ kMaxVirtualFileSpecs) {i : Nat}
    (hi : i < specs.length) (hnul : 0 ∉ specs[i].name) :
    readName (buildFileGroupDescriptorPayload now specs) i =
      some ((specs[i].name.take (copyLength specs[i].name)).map toBackslash) := by
  obtain ⟨after, hdrop⟩ := drop_payload now hcap hi
  have hfront : (record (fileDescriptor (now i) specs[i]).fields).length = cFileName := by
    rw [length_record]
    rfl
  rw [readName, readWide, ← List.drop_drop, hdrop, FileDescriptorW.bytes, List.append_assoc,
    ← hfront, List.drop_left, wideUnits_wide_append]
  exact nulTerminated_packName hnul _

/-- The two halves of a size make the size. -/
theorem size_of_halves (size : UInt64) :
    UInt64.ofNat ((size >>> 32).toUInt32.toNat * 2 ^ 32 +
      (size &&& 0xFFFFFFFF).toUInt32.toNat) = size := by
  have hsize := size.toNat_lt
  have hlow : (size &&& 0xFFFFFFFF).toUInt32.toNat = size.toNat % 2 ^ 32 := by
    have hmask : (0xFFFFFFFF : UInt64).toNat = 2 ^ 32 - 1 := rfl
    rw [UInt64.toNat_toUInt32, UInt64.toNat_and, hmask, Nat.and_two_pow_sub_one_eq_mod,
      Nat.mod_mod]
  have hhigh : (size >>> 32).toUInt32.toNat = size.toNat / 2 ^ 32 := by
    have hshift : (size >>> 32).toNat = size.toNat / 2 ^ 32 := by
      rw [UInt64.toNat_shiftRight]
      exact Nat.shiftRight_eq_div_pow _ _
    rw [UInt64.toNat_toUInt32, hshift]
    exact Nat.mod_eq_of_lt (by omega)
  rw [hlow, hhigh, Nat.div_add_mod', UInt64.ofNat_toNat]

theorem readSize_payload (hcap : specs.length ≤ kMaxVirtualFileSpecs) {i : Nat}
    (hi : i < specs.length) :
    readSize (buildFileGroupDescriptorPayload now specs) i = some (some specs[i].size) := by
  have hflags := readLE_payload now hcap hi (k := 0) (by omega)
  have hhigh := readLE_payload now hcap hi (k := 8) (by omega)
  have hlow := readLE_payload now hcap hi (k := 9) (by omega)
  have hhalf : ∀ half : UInt32, half.toNat % 256 ^ 4 = half.toNat :=
    fun half => Nat.mod_eq_of_lt half.toNat_lt
  change readLE _ (fgd i) 4 = some 0x4064 at hflags
  change readLE _ (fgd i + nFileSizeHigh) 4 =
    some ((specs[i].size >>> 32).toUInt32.toNat % 256 ^ 4) at hhigh
  change readLE _ (fgd i + nFileSizeLow) 4 =
    some ((specs[i].size &&& 0xFFFFFFFF).toUInt32.toNat % 256 ^ 4) at hlow
  rw [hhalf] at hhigh hlow
  have hset : 0x4064 &&& fdFileSize ≠ 0 := by decide
  simp only [readSize, hflags, hlow, hhigh, Option.bind_eq_bind, Option.bind_some, if_pos hset,
    size_of_halves]
  rfl

/-- The entry as which file `i` comes back. -/
def comesBack (specs : List VirtualFileSpec) (i : Nat) : VirtualFileEntry :=
  let spec := specs.getD i {}
  { name := (spec.name.take (copyLength spec.name)).map toBackslash
    size := spec.size
    lindex := UInt32.ofNat i }

theorem readEntry_payload (hcap : specs.length ≤ kMaxVirtualFileSpecs) {i : Nat}
    (hi : i < specs.length) (hnul : 0 ∉ specs[i].name) :
    readEntry (buildFileGroupDescriptorPayload now specs) i = some (comesBack specs i) := by
  have hspec : specs.getD i {} = specs[i] := List.getD_eq_getElem _ _ hi
  rw [readEntry, readName_payload now hcap hi hnul, readSize_payload now hcap hi, comesBack,
    hspec]
  rfl

end Payload

/-- **What is offered is what is read**: as many files in the same order, with
their sizes and with what fits of their names. -/
theorem payload_read_back (now : Nat → UInt64) {specs : List VirtualFileSpec}
    (hsome : 1 ≤ specs.length) (hcap : specs.length ≤ 100000)
    (hnames : ∀ spec ∈ specs, 0 ∉ spec.name ∧ WellFormed spec.name) :
    ∃ virtualFiles,
      readVirtualFiles (buildFileGroupDescriptorPayload now specs) = .files virtualFiles ∧
      virtualFiles.length = specs.length ∧
      ∀ i (hi : i < specs.length), ∃ p, LongestFitting specs[i].name p ∧
        virtualFiles[i]? = some {
          name := p.map toBackslash, size := specs[i].size, lindex := UInt32.ofNat i } := by
  have hne : specs ≠ [] := List.ne_nil_of_length_pos hsome
  have hentries : readEntries (buildFileGroupDescriptorPayload now specs) specs.length 0 =
      some ((List.range' 0 specs.length).map (comesBack specs)) := by
    refine readEntries_eq ?_
    intro i _ hi
    have hinside : i < specs.length := by omega
    exact readEntry_payload now hcap hinside (hnames _ (List.getElem_mem hinside)).1
  refine ⟨(List.range' 0 specs.length).map (comesBack specs), ?_, ?_, ?_⟩
  · rw [readVirtualFiles_of_fits (readItems_payload hne hcap) (fits_payload hne hcap), hentries]
  · rw [List.length_map, List.length_range']
  · intro i hi
    refine ⟨_, longestFitting_take (hnames _ (List.getElem_mem hi)).2, ?_⟩
    simp [hi, comesBack]

/-- A file in a directory and one whose name is a surrogate pair. -/
theorem payload_read_back_two :
    ∃ virtualFiles,
      readVirtualFiles (buildFileGroupDescriptorPayload (fun _ => 0)
        [{ name := [0x61, 0x2F, 0x62], size := 0x100000001 },
          { name := [0xD83D, 0xDE00], size := 7 }]) = .files virtualFiles ∧
      virtualFiles.length = 2 ∧
      ∀ i (hi : i < 2), ∃ p,
        LongestFitting ([{ name := [0x61, 0x2F, 0x62], size := 0x100000001 },
          { name := [0xD83D, 0xDE00], size := 7 }] : List VirtualFileSpec)[i].name p ∧
        virtualFiles[i]? = some {
          name := p.map toBackslash
          size := ([{ name := [0x61, 0x2F, 0x62], size := 0x100000001 },
            { name := [0xD83D, 0xDE00], size := 7 }] : List VirtualFileSpec)[i].size
          lindex := UInt32.ofNat i } := by
  refine payload_read_back (fun _ => 0) (by decide) (by decide) ?_
  intro spec hspec
  rcases List.mem_pair.mp hspec with rfl | rfl
  · exact ⟨by decide, by decide⟩
  · exact ⟨by decide, by decide⟩

end GroupDescriptor
