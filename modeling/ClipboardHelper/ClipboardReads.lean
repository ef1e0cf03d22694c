import ClipboardHelper.ClipboardCalls

/-!
# What `ReadClipboard` amounts to

The file tables' model takes a reading of the clipboard in one piece: it is
given what the system has to say (`FileTables.Clipboard`) and returns the
snapshot, with the references that were obtained and released.  Call by call
`ReadClipboard` opens the clipboard, goes through the formats, locks blocks and
asks the data object, and any of these may fail.

**`readings_follow_tables`**: on every path, whatever the system answers, the
result and what was done with references are those of the file tables' model,
for some clipboard; and a chunk of a virtual file is what `ChunkServing`
makes of some medium.  On the way each function gets what it leaves behind,
which the resources of `ClipboardOutcomes` rest on.
-/

namespace ClipboardCalls

open Library DispatchCodec DelayedRender DibFormat

/-! ## One call at a time -/

variable {α : Type} {s : Win32} {Q : α → Win32 → Prop}

theorem safe_then {c : Call} {f : Answer c → Calls α} :
    win32.Safe (call c >>= f) s Q ↔
      allowed s c ∧ ∀ r, answers s c r → win32.Safe (f r) (after s c r) Q :=
  System.safe_call

/-! ## Looking on -/

/-- What is done with references. -/
def observe : (c : Call) → Answer c → List FileTables.Obs
  | .oleGetClipboard, r =>
    match r with
    | some object => [.obtained object]
    | none => []
  | .release object, _ => [.released object]
  | _, _ => []

def watched : System Call Answer (List FileTables.Obs × Win32) := win32.observed observe

variable {os : List FileTables.Obs} {R : α → List FileTables.Obs × Win32 → Prop}

theorem watched_then {c : Call} {f : Answer c → Calls α} :
    watched.Safe (call c >>= f) (os, s) R ↔
      allowed s c ∧
        ∀ r, answers s c r → watched.Safe (f r) (os ++ observe c r, after s c r) R :=
  System.safe_call

/-- A call of which nothing is observed. -/
theorem watched_quiet {c : Call} {f : Answer c → Calls α} (hquiet : ∀ r, observe c r = []) :
    watched.Safe (call c >>= f) (os, s) R ↔
      allowed s c ∧ ∀ r, answers s c r → watched.Safe (f r) (os, after s c r) R := by
  rw [watched_then]
  refine and_congr_right fun _ => forall₂_congr fun r _ => ?_
  rw [hquiet, List.append_nil]

theorem watched_last {c : Call} {R : Answer c → List FileTables.Obs × Win32 → Prop}
    (hquiet : ∀ r, observe c r = []) :
    watched.Safe (call c) (os, s) R ↔
      allowed s c ∧ ∀ r, answers s c r → R r (os, after s c r) :=
  watched_quiet (f := pure) hquiet

/-! ## The scope -/

theorem safe_openAttempts {n : Nat} (hclosed : s.opened = false) :
    watched.Safe (openAttempts n) (os, s)
      (fun opened w => w = (os, { s with opened := opened })) := by
  have hsame : { s with opened := false } = s := by rw [← hclosed]
  induction n with
  | zero => exact congrArg (Prod.mk os) hsame.symm
  | succ n ih =>
      refine (watched_quiet fun _ => rfl).mpr ⟨hclosed, fun opened _ => ?_⟩
      cases opened with
      | true => exact rfl
      | false =>
          refine (watched_quiet fun _ => rfl).mpr ⟨trivial, fun _ _ => ?_⟩
          simpa only [after, hsame] using ih

/-- **The scope**: what is done inside finds the clipboard open, and has to
leave no block of it locked. -/
theorem safe_inClipboardScope {closed body : Calls α} (hclosed : s.opened = false)
    (hfails : watched.Safe closed (os, s) R)
    (hbody : watched.Safe body (os, { s with opened := true }) (fun value w =>
      w.2.opened = true ∧ Disjoint w.2.locked w.2.lent ∧
        R value (w.1, { w.2 with opened := false, lent := ∅ }))) :
    watched.Safe (inClipboardScope closed body) (os, s) R := by
  have hsame : { s with opened := false } = s := by rw [← hclosed]
  refine System.safe_bind.mpr ((watched_quiet fun _ => rfl).mpr ⟨trivial, fun held _ => ?_⟩)
  cases held with
  | true => exact hfails
  | false =>
      refine (safe_openAttempts hclosed).mono ?_
      rintro opened _ rfl
      cases opened with
      | false => rw [hsame]; exact hfails
      | true =>
          refine System.safe_bind.mpr (hbody.mono ?_)
          rintro value w ⟨hopened, hunlocked, hR⟩
          exact (watched_quiet fun _ => rfl).mpr ⟨⟨hopened, hunlocked⟩, fun _ _ => hR⟩

/-! ## Physical files -/

/-- Nothing but what the clipboard lends has changed. -/
def Lends (os : List FileTables.Obs) (s : Win32) (w : List FileTables.Obs × Win32) : Prop :=
  ∃ lent, w = (os, { s with lent := lent })

theorem safe_hdropPath {h : Handle} {i : Nat} (hlocked : h ∈ s.locked) :
    watched.Safe (hdropPath h i) (os, s) (fun _ w => w = (os, s)) := by
  refine (watched_quiet fun _ => rfl).mpr ⟨hlocked, fun length _ => ?_⟩
  by_cases hzero : length = 0
  · rw [if_pos hzero]
    exact rfl
  · rw [if_neg hzero]
    exact (watched_quiet fun _ => rfl).mpr ⟨hlocked, fun _ _ => rfl⟩

theorem safe_readHdrop (hopened : s.opened = true) :
    watched.Safe readHdrop (os, s) (fun _ w => Lends os s w) := by
  refine (watched_quiet fun _ => rfl).mpr ⟨trivial, fun available _ => ?_⟩
  cases available with
  | false => exact ⟨s.lent, rfl⟩
  | true =>
      refine (watched_quiet fun _ => rfl).mpr ⟨.inl hopened, fun r hr => ?_⟩
      cases r with
      | none => exact ⟨s.lent, rfl⟩
      | some h =>
          have hunlocked : h ∉ s.locked := (hr h rfl).2.1
          refine (watched_quiet fun _ => rfl).mpr
            ⟨⟨.inr (.inl (Finset.mem_insert_self h s.lent)), hunlocked⟩, fun locks _ => ?_⟩
          cases locks with
          | false => exact ⟨insert h s.lent, rfl⟩
          | true =>
              have hlocked : h ∈ insert h s.locked := Finset.mem_insert_self h s.locked
              refine (watched_quiet fun _ => rfl).mpr ⟨hlocked, fun count _ => ?_⟩
              refine System.safe_bind.mpr ((System.safe_collect (· = _) rfl ?_).mono ?_)
              · rintro i - _ rfl
                exact safe_hdropPath hlocked
              · rintro paths _ rfl
                refine (watched_quiet fun _ => rfl).mpr ⟨hlocked, fun _ _ => ?_⟩
                refine ⟨insert h s.lent, ?_⟩
                simp [after, Finset.erase_insert hunlocked]

/-! ## Text and images -/

/-- The clipboard has lent a block that can be locked, or none. -/
def Borrowed (os : List FileTables.Obs) (s : Win32) (r : Option Handle)
    (w : List FileTables.Obs × Win32) : Prop :=
  ∃ lent, w = (os, { s with lent := lent }) ∧ ∀ h, r = some h → h ∈ lent ∧ h ∉ s.locked

theorem safe_getClipboardData {format : Nat} (hopened : s.opened = true) :
    watched.Safe (call (.getClipboardData format)) (os, s) (Borrowed os s) := by
  refine (watched_last fun r => rfl).mpr ⟨.inl hopened, fun r hr => ?_⟩
  cases r with
  | none => exact ⟨s.lent, rfl, nofun⟩
  | some h =>
      refine ⟨insert h s.lent, rfl, ?_⟩
      rintro h' ⟨⟩
      exact ⟨Finset.mem_insert_self h s.lent, (hr h rfl).2.1⟩

theorem safe_blockContents {r : Option Handle} {w : List FileTables.Obs × Win32}
    (hborrowed : Borrowed os s r w) :
    watched.Safe (blockContents r) w (fun _ w => Lends os s w) := by
  obtain ⟨lent, rfl, hlent⟩ := hborrowed
  cases r with
  | none => exact ⟨lent, rfl⟩
  | some h =>
      obtain ⟨hmem, hunlocked⟩ := hlent h rfl
      refine (watched_quiet fun _ => rfl).mpr ⟨⟨.inr (.inl hmem), hunlocked⟩, fun locks _ => ?_⟩
      cases locks with
      | false => exact ⟨lent, rfl⟩
      | true =>
          have hlocked : h ∈ insert h s.locked := Finset.mem_insert_self h s.locked
          refine (watched_quiet fun _ => rfl).mpr ⟨hlocked, fun blob _ => ?_⟩
          refine (watched_quiet fun _ => rfl).mpr ⟨hlocked, fun _ _ => ⟨lent, ?_⟩⟩
          simp [after, Finset.erase_insert hunlocked]

theorem safe_readUnicodeText (hopened : s.opened = true) :
    watched.Safe readUnicodeText (os, s) (fun _ w => Lends os s w) := by
  refine (watched_quiet fun _ => rfl).mpr ⟨trivial, fun available _ => ?_⟩
  cases available with
  | false => exact ⟨s.lent, rfl⟩
  | true =>
      refine System.safe_bind.mpr ((safe_getClipboardData hopened).mono fun r w hr => ?_)
      exact System.safe_bind.mpr ((safe_blockContents hr).mono fun _ _ hlends => hlends)

theorem safe_dibHandle (hopened : s.opened = true) :
    watched.Safe dibHandle (os, s) (Borrowed os s) := by
  refine System.safe_bind.mpr ((safe_getClipboardData hopened).mono ?_)
  rintro r w hr
  cases r with
  | some h => exact hr
  | none =>
      obtain ⟨lent, rfl, -⟩ := hr
      exact safe_getClipboardData (s := { s with lent := lent }) hopened

theorem safe_readClipboardDibToBgra (hopened : s.opened = true) :
    watched.Safe readClipboardDibToBgra (os, s) (fun _ w => Lends os s w) := by
  refine System.safe_bind.mpr ((safe_dibHandle hopened).mono fun r w hr => ?_)
  exact System.safe_bind.mpr ((safe_blockContents hr).mono fun _ _ hlends => hlends)

theorem safe_dibAvailable :
    watched.Safe dibAvailable (os, s) (fun _ w => w = (os, s)) := by
  refine (watched_quiet fun _ => rfl).mpr ⟨trivial, fun available _ => ?_⟩
  cases available with
  | true => exact rfl
  | false => exact (watched_last fun _ => rfl).mpr ⟨trivial, fun _ _ => rfl⟩

theorem safe_readImagePng (hopened : s.opened = true) :
    watched.Safe readImagePng (os, s) (fun _ w => Lends os s w) := by
  refine System.safe_bind.mpr (safe_dibAvailable.mono ?_)
  rintro available _ rfl
  cases available with
  | false => exact ⟨s.lent, rfl⟩
  | true =>
      refine System.safe_bind.mpr ((safe_readClipboardDibToBgra hopened).mono ?_)
      rintro image _ ⟨lent, rfl⟩
      cases image with
      | none => exact ⟨lent, rfl⟩
      | some image =>
          exact (watched_last fun _ => rfl).mpr ⟨trivial, fun _ _ => ⟨lent, rfl⟩⟩

/-- What is found is some content of the file tables' model. -/
theorem safe_readOther (hopened : s.opened = true) :
    watched.Safe readOther (os, s) (fun r w =>
      Lends os s w ∧ ∃ other : FileTables.OtherContent, r = other.snapshot) := by
  refine System.safe_bind.mpr ((safe_readUnicodeText hopened).mono ?_)
  rintro text _ ⟨lent, rfl⟩
  cases text with
  | some text => exact ⟨⟨lent, rfl⟩, .text text, rfl⟩
  | none =>
      refine System.safe_bind.mpr
        ((safe_readImagePng (s := { s with lent := lent }) hopened).mono ?_)
      rintro png _ ⟨lent, rfl⟩
      cases png with
      | some png => exact ⟨⟨lent, rfl⟩, .image png, rfl⟩
      | none => exact ⟨⟨lent, rfl⟩, .nothing, rfl⟩

/-! ## Virtual files -/

/-- The snapshot of the files that an object describes. -/
def virtualSnapshot (object : Object) (virtualFiles : List VirtualFileEntry) :
    ChunkServing.Snapshot where
  contentType := .files
  virtualFiles := virtualFiles
  virtualDataObject := object

/-- A blob that is read within its bounds is some descriptor. -/
theorem readVirtualFiles_describe {object : Object} {blob : Bytes} (hobject : object ≠ 0)
    (hinside : GroupDescriptor.readVirtualFiles blob ≠ .outOfBounds) :
    ∃ descriptor, (FileTables.readVirtualFiles { object := object, descriptor := descriptor }).2 =
      match GroupDescriptor.readVirtualFiles blob with
      | .files virtualFiles => some (virtualSnapshot object virtualFiles)
      | _ => none := by
  cases hitems : GroupDescriptor.readItems blob with
  | none =>
      refine absurd ?_ hinside
      rw [GroupDescriptor.readVirtualFiles, hitems]
  | some count =>
      have hcount : count < 2 ^ 32 := readLE_lt hitems
      have hnat : (UInt32.ofNat count).toNat = count := UInt32.toNat_ofNat_of_lt' hcount
      rw [← hnat] at hitems
      exact ⟨some (GroupDescriptor.describe blob (.ofNat count)),
        GroupDescriptor.readVirtualFiles_refines hitems object hobject hinside⟩

/-- What is read of a descriptor is what the file tables' model reads of it. -/
def DescribedAs (object : Object) (r : Option (List VirtualFileEntry)) : Prop :=
  ∃ descriptor, (FileTables.readVirtualFiles { object := object, descriptor := descriptor }).2 =
    r.map (virtualSnapshot object)

theorem describedAs_none {object : Object} (hobject : object ≠ 0) : DescribedAs object none :=
  ⟨none, by simp [FileTables.readVirtualFiles, hobject]⟩

theorem safe_describedIn {object : Object} {h : Handle} (hobject : object ≠ 0)
    (hunlocked : h ∉ s.locked)
    (hinside : GroupDescriptor.readVirtualFiles (s.contents h) ≠ .outOfBounds) :
    watched.Safe (describedIn h) (os, { s with media := .hGlobal h ::ₘ s.media })
      (fun r w => w = (os, s) ∧ DescribedAs object r) := by
  have hmedium : .hGlobal h ∈ (.hGlobal h ::ₘ s.media : Multiset Medium) :=
    Multiset.mem_cons_self _ s.media
  refine (watched_quiet fun _ => rfl).mpr ⟨⟨.inr (.inr hmedium), hunlocked⟩, fun locks _ => ?_⟩
  cases locks with
  | false =>
      refine (watched_quiet fun _ => rfl).mpr ⟨⟨hmedium, hunlocked⟩, fun _ _ => ⟨?_, ?_⟩⟩
      · simp [after]
      · exact describedAs_none hobject
  | true =>
      have hlocked : h ∈ insert h s.locked := Finset.mem_insert_self h s.locked
      refine (watched_quiet fun _ => rfl).mpr ⟨hlocked, fun blob hblob => ?_⟩
      refine (watched_quiet fun _ => rfl).mpr ⟨hlocked, fun _ _ => ?_⟩
      refine (watched_quiet fun _ => rfl).mpr
        ⟨⟨hmedium, Finset.notMem_erase h _⟩, fun _ _ => ?_⟩
      obtain ⟨descriptor, hread⟩ := readVirtualFiles_describe hobject hinside
      have hblob : blob = s.contents h := hblob
      subst hblob
      simp only [after, if_true, Finset.erase_insert hunlocked, Multiset.erase_cons_head]
      cases hfiles : GroupDescriptor.readVirtualFiles (s.contents h) with
      | files virtualFiles =>
          rw [hfiles] at hread
          exact ⟨rfl, descriptor, hread⟩
      | rejected =>
          rw [hfiles] at hread
          exact ⟨rfl, descriptor, hread⟩
      | outOfBounds => exact absurd hfiles hinside

theorem safe_describedFiles {object : Object} (hobject : object ≠ 0)
    (hheld : object ∈ s.references) :
    watched.Safe (describedFiles object) (os, s)
      (fun r w => w = (os, s) ∧ DescribedAs object r) := by
  refine (watched_quiet fun _ => rfl).mpr ⟨trivial, fun registered _ => ?_⟩
  cases registered with
  | false => exact ⟨rfl, describedAs_none hobject⟩
  | true =>
      refine (watched_quiet fun _ => rfl).mpr ⟨hheld, fun r hr => ?_⟩
      cases r with
      | none => exact ⟨rfl, describedAs_none hobject⟩
      | some medium =>
          obtain ⟨hoffered, -, hblock⟩ := hr medium rfl
          cases medium with
          | stream id => exact hoffered.elim
          | hGlobal h =>
              obtain ⟨-, hunlocked, hinside⟩ := hblock h rfl
              exact safe_describedIn hobject hunlocked (hinside rfl)

/-- The references that go with a snapshot. -/
def kept : Option ChunkServing.Snapshot → Multiset Object
  | none => 0
  | some snap => if snap.virtualDataObject = 0 then 0 else {snap.virtualDataObject}

/-- A reference that is not passed on is released. -/
theorem fst_readVirtualFiles {object : Object} (hobject : object ≠ 0)
    (descriptor : Option FileTables.FileGroupDescriptor) :
    (FileTables.readVirtualFiles { object := object, descriptor := descriptor }).1 =
      match (FileTables.readVirtualFiles { object := object, descriptor := descriptor }).2 with
      | some _ => [.obtained object]
      | none => [.obtained object, .released object] := by
  simp only [FileTables.readVirtualFiles, hobject, if_false, Bool.false_eq_true]
  cases descriptor with
  | none => rfl
  | some d => cases hsound : d.sound <;> simp [hsound]

/-- **`ReadVirtualFiles` refines that of the file tables' model**: the same
snapshot, the same references obtained and released. -/
theorem safe_readVirtualFiles :
    watched.Safe readVirtualFiles (os, s) (fun r w =>
      ∃ ole, r = (FileTables.readVirtualFiles ole).2 ∧
        w = (os ++ (FileTables.readVirtualFiles ole).1,
          { s with references := kept r + s.references })) := by
  have hnone : { s with references := kept none + s.references } = s := by
    simp [kept]
  refine (watched_quiet fun _ => rfl).mpr ⟨trivial, fun held hheld => ?_⟩
  cases held with
  | true =>
      refine ⟨{ heldByThisThread := true }, rfl, ?_⟩
      rw [hnone]
      simp [FileTables.readVirtualFiles, after]
  | false =>
      refine watched_then.mpr ⟨Eq.symm hheld, fun r hr => ?_⟩
      cases r with
      | none =>
          refine ⟨{}, rfl, ?_⟩
          rw [hnone]
          simp [FileTables.readVirtualFiles, after, observe]
      | some object =>
          have hobject : object ≠ 0 := fun hzero => hr (congrArg some hzero)
          refine System.safe_bind.mpr
            ((safe_describedFiles hobject (Multiset.mem_cons_self _ _)).mono ?_)
          rintro virtualFiles _ ⟨rfl, descriptor, hread⟩
          have hobs := fst_readVirtualFiles hobject descriptor
          rw [hread] at hobs
          cases virtualFiles with
          | some virtualFiles =>
              refine ⟨{ object := object, descriptor := descriptor }, hread.symm, ?_⟩
              rw [hobs]
              simp [after, observe, kept, hobject]
          | none =>
              refine watched_then.mpr ⟨Multiset.mem_cons_self _ _, fun _ _ => ?_⟩
              refine ⟨{ object := object, descriptor := descriptor }, hread.symm, ?_⟩
              rw [hobs, hnone]
              simp [after, observe]

/-! ## The whole -/

theorem kept_snapshot (other : FileTables.OtherContent) : kept other.snapshot = 0 := by
  cases other <;> rfl

/-- What the file tables' model reads where there is a descriptor. -/
theorem readClipboard_descriptor (ole : FileTables.OleClipboard)
    (other : FileTables.OtherContent) :
    FileTables.readClipboard { descriptorAvailable := true, ole := ole, other := other } =
      ((FileTables.readVirtualFiles ole).1,
        (FileTables.readVirtualFiles ole).2 <|> other.snapshot) := by
  simp only [FileTables.readClipboard, ne_eq, not_true_eq_false, if_false, if_true]
  cases hread : FileTables.readVirtualFiles ole with
  | mk os r => cases r <;> rfl

/-- What is read of the opened clipboard. -/
def ReadAs (os : List FileTables.Obs) (s : Win32) (r : Option ChunkServing.Snapshot)
    (w : List FileTables.Obs × Win32) : Prop :=
  ∃ c, r = (FileTables.readClipboard c).2 ∧
    ∃ lent, w = (os ++ (FileTables.readClipboard c).1,
      { s with lent := lent, references := kept r + s.references })

theorem safe_readOpened (hopened : s.opened = true) :
    watched.Safe readOpened (os, s) (ReadAs os s) := by
  refine System.safe_bind.mpr ((safe_readHdrop hopened).mono ?_)
  rintro paths _ ⟨lent, rfl⟩
  by_cases hpaths : paths = []
  · rw [if_neg (not_not.mpr hpaths)]
    refine (watched_quiet fun _ => rfl).mpr ⟨trivial, fun available _ => ?_⟩
    cases available with
    | false =>
        refine (safe_readOther (s := { s with lent := lent }) hopened).mono ?_
        rintro r _ ⟨⟨lent, rfl⟩, other, rfl⟩
        refine ⟨{ other := other }, rfl, lent, ?_⟩
        rw [kept_snapshot]
        simp [FileTables.readClipboard]
    | true =>
        refine System.safe_bind.mpr (safe_readVirtualFiles.mono ?_)
        rintro r _ ⟨ole, hr, rfl⟩
        cases r with
        | some snap =>
            refine ⟨{ descriptorAvailable := true, ole := ole }, ?_, lent, ?_⟩
            · rw [readClipboard_descriptor, ← hr]
              rfl
            · rw [readClipboard_descriptor]
              rfl
        | none =>
            refine (safe_readOther (s := { s with
              lent := lent, references := kept none + s.references }) hopened).mono ?_
            rintro r _ ⟨⟨lent, rfl⟩, other, rfl⟩
            refine ⟨{ descriptorAvailable := true, ole := ole, other := other }, ?_, lent, ?_⟩
            · rw [readClipboard_descriptor, ← hr]
              rfl
            · rw [readClipboard_descriptor, kept_snapshot]
              rfl
  · rw [if_pos hpaths]
    refine ⟨{ hdropPaths := paths }, ?_, lent, ?_⟩
    · simp [FileTables.readClipboard, hpaths]
    · simp [FileTables.readClipboard, hpaths, kept]

/-! ## A chunk -/

/-- The part that is read is what `ChunkServing` reads of the medium. -/
theorem safe_readMedium {medium : Medium} {offset : UInt64} {size : UInt32}
    (hmem : medium ∈ s.media) (hunlocked : medium.Unlocked s) :
    win32.Safe (readMedium medium offset size) s (fun r s' => s' = s ∧
      ∃ m, r = ChunkServing.readVirtualFileChunk m offset size) := by
  cases medium with
  | stream id =>
      refine safe_then.mpr ⟨hmem, fun seeks _ => ?_⟩
      cases seeks with
      | false => exact ⟨rfl, .failed, rfl⟩
      | true =>
          refine safe_then.mpr ⟨hmem, fun r hr => ?_⟩
          cases r with
          | none => exact ⟨rfl, .failed, rfl⟩
          | some bytes =>
              refine ⟨rfl, .stream (some bytes), ?_⟩
              rw [ChunkServing.readVirtualFileChunk, List.take_of_length_le (hr bytes rfl)]
  | hGlobal h =>
      refine safe_then.mpr ⟨.inr (.inr hmem), fun total htotal => ?_⟩
      have htotal : total = (s.contents h).length := htotal
      subst htotal
      by_cases hinside : offset.toNat < (s.contents h).length
      · rw [if_pos hinside]
        refine safe_then.mpr ⟨⟨.inr (.inr hmem), hunlocked⟩, fun locks _ => ?_⟩
        cases locks with
        | false =>
            refine ⟨rfl, .hglobal (s.contents h) false, ?_⟩
            simp [ChunkServing.readVirtualFileChunk, hinside]
        | true =>
            have hlocked : h ∈ insert h s.locked := Finset.mem_insert_self h s.locked
            refine safe_then.mpr ⟨hlocked, fun block hblock => ?_⟩
            have hblock : block = s.contents h := hblock
            subst hblock
            refine safe_then.mpr ⟨hlocked, fun _ _ => ⟨?_, .hglobal (s.contents h) true, ?_⟩⟩
            · have hunlocked : h ∉ s.locked := hunlocked
              simp [after, Finset.erase_insert hunlocked]
            · simp [ChunkServing.readVirtualFileChunk, hinside]
      · rw [if_neg hinside]
        refine ⟨rfl, .hglobal (s.contents h) true, ?_⟩
        simp [ChunkServing.readVirtualFileChunk, hinside]

theorem safe_readVirtualFileChunk {object : Object} {lindex : UInt32} {offset : UInt64}
    {size : UInt32} (hheld : object ≠ 0 → object ∈ s.references) :
    win32.Safe (readVirtualFileChunk object lindex offset size) s (fun r s' => s' = s ∧
      ∃ m, r = ChunkServing.readVirtualFileChunk m offset size) := by
  rw [readVirtualFileChunk]
  by_cases hnull : object = 0 ∨ size = 0
  · rw [if_pos hnull]
    exact ⟨rfl, .failed, rfl⟩
  · rw [if_neg hnull]
    refine safe_then.mpr ⟨trivial, fun registered _ => ?_⟩
    cases registered with
    | false => exact ⟨rfl, .failed, rfl⟩
    | true =>
        refine safe_then.mpr ⟨hheld fun hzero => hnull (.inl hzero), fun r hr => ?_⟩
        cases r with
        | none => exact ⟨rfl, .failed, rfl⟩
        | some medium =>
            obtain ⟨-, -, hblock⟩ := hr medium rfl
            have hunlocked : medium.Unlocked s := by
              cases medium with
              | stream id => trivial
              | hGlobal h => exact (hblock h rfl).2.1
            refine System.safe_bind.mpr ((safe_readMedium (s := { s with
              media := medium ::ₘ s.media }) (Multiset.mem_cons_self medium s.media) ?_).mono ?_)
            · cases medium <;> exact hunlocked
            · rintro chunk _ ⟨rfl, m, rfl⟩
              refine safe_then.mpr ⟨⟨Multiset.mem_cons_self medium s.media, ?_⟩, fun _ _ => ?_⟩
              · cases medium <;> exact hunlocked
              · refine ⟨?_, m, rfl⟩
                simp [after]

/-! ## Along a path -/

/-- The clipboard is not open, and no block is locked. -/
structure Win32.Idle (s : Win32) : Prop where
  closed : s.opened = false
  unlocked : s.locked = ∅

theorem Win32.Idle.disjoint (hidle : s.Idle) (blocks : Finset Handle) :
    Disjoint s.locked blocks := by
  rw [hidle.unlocked]
  exact Finset.disjoint_empty_left blocks

/-- The reading as a whole: with the clipboard closed again, and the blocks
that it lent given back. -/
theorem safe_readClipboard (hidle : s.Idle) :
    watched.Safe readClipboard (os, s) (fun r w =>
      ∃ c, r = (FileTables.readClipboard c).2 ∧ w.1 = os ++ (FileTables.readClipboard c).1 ∧
        ∃ lent, w.2 = { s with lent := lent, references := kept r + s.references }) := by
  refine safe_inClipboardScope hidle.closed ?_ ?_
  · refine ⟨{ opens := false }, rfl, (List.append_nil os).symm, s.lent, ?_⟩
    simp [kept]
  · refine (safe_readOpened rfl).mono ?_
    rintro r _ ⟨c, hr, lent, rfl⟩
    refine ⟨rfl, hidle.disjoint lent, c, hr, rfl, ∅, ?_⟩
    simp [hidle.closed]

end ClipboardCalls
