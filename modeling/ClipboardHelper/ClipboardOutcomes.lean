import ClipboardHelper.ClipboardReads

/-!
# What a clipboard operation leaves behind

For each function of `clipboard_ops.cpp` one statement about all its paths:
which calls it may make, what the thread holds at its end, and what is on the
clipboard then.

* **`operations_return_everything`**: no path frees a block twice, uses one
  that is not locked, opens the clipboard a second time, or hands over a block
  that it does not own; and at the end memory, media and references are as
  before, with the one reference that goes with a snapshot.
* **`operations_publish`**: what the clipboard holds after a success is what
  was to be written, in the only format that is there, and it is found by a
  reader of that format even where the block is larger than asked for.  A
  failure can leave the clipboard empty, after `EmptyClipboard`.

An announcement of an image can fail with `CF_DIB` announced: its second
format is tried whatever came of the first.
-/

namespace ClipboardCalls

open Library DispatchCodec DelayedRender DibFormat

variable {α : Type} {s : Win32} {Q : α → Win32 → Prop}

/-! ## Blocks -/

/-- What is written behind a part that is already there. -/
theorem prefix_writeAt {block done : Bytes} (hdone : done <+: block) (part : Bytes) :
    done ++ part <+: writeAt 0 block done.length part := by
  obtain ⟨rest, rfl⟩ := hdone
  refine ⟨(done ++ rest).drop (done.length + part.length), ?_⟩
  have hzero : done.length - (done ++ rest).length = 0 := by simp
  rw [writeAt, List.take_left' rfl, hzero, List.replicate_zero, List.append_nil]

theorem length_writeAt_inside {block part : Bytes} {offset : Nat}
    (hfits : offset + part.length ≤ block.length) :
    (writeAt 0 block offset part).length = block.length := by
  simp only [writeAt, List.length_append, List.length_take, List.length_replicate,
    List.length_drop]
  omega

theorem safe_copyInto {h : Handle} {parts : List Bytes} (done : Bytes)
    (howned : h ∈ s.owned) (hlocked : h ∈ s.locked) (hdone : done <+: s.contents h)
    (hfits : done.length + parts.flatten.length ≤ (s.contents h).length) :
    win32.Safe (copyInto h done.length parts) s (fun _ s' =>
      ∃ contents, done ++ parts.flatten <+: contents h ∧
        s' = { s with contents := contents }) := by
  induction parts generalizing s done with
  | nil => exact ⟨s.contents, by simpa using hdone, rfl⟩
  | cons part parts ih =>
      rw [List.flatten_cons, List.length_append] at hfits
      refine safe_then.mpr ⟨⟨howned, hlocked, by omega⟩, fun _ _ => ?_⟩
      have hwritten := prefix_writeAt hdone part
      rw [← List.length_append, List.flatten_cons]
      refine (ih (s := after s (.globalWrite h done.length part) ()) _ howned hlocked
        (by simpa [after] using hwritten) ?_).mono ?_
      · simp only [after, Function.update_self, List.length_append]
        rw [length_writeAt_inside (by omega)]
        omega
      · rintro _ _ ⟨contents, hcontents, rfl⟩
        exact ⟨contents, by simpa using hcontents, rfl⟩

/-- **A new block** is there with its content, or nothing is. -/
theorem safe_globalFrom {size : Nat} {parts : List Bytes} (hsize : parts.flatten.length ≤ size) :
    win32.Safe (globalFrom size parts) s (fun r s' => ∃ contents,
      match r with
      | none => s' = { s with contents := contents }
      | some h => h ∉ s.owned ∧ h ∉ s.locked ∧ parts.flatten <+: contents h ∧
          s' = { s with contents := contents, owned := insert h s.owned }) := by
  refine safe_then.mpr ⟨trivial, fun r hr => ?_⟩
  cases r with
  | none => exact ⟨s.contents, rfl⟩
  | some block =>
      obtain ⟨h, junk⟩ := block
      obtain ⟨hlive, hlocked, hjunk⟩ := hr h junk rfl
      have hnew : h ∉ s.owned := fun howned => hlive (.inl howned)
      refine safe_then.mpr ⟨⟨.inl (Finset.mem_insert_self h s.owned), hlocked⟩, fun locks _ => ?_⟩
      cases locks with
      | false =>
          refine safe_then.mpr ⟨⟨Finset.mem_insert_self h s.owned, hlocked⟩, fun _ _ => ?_⟩
          refine ⟨Function.update s.contents h junk, ?_⟩
          simp [after, Finset.erase_insert hnew]
      | true =>
          refine System.safe_bind.mpr ?_
          refine (safe_copyInto [] (Finset.mem_insert_self h s.owned)
            (Finset.mem_insert_self h s.locked) List.nil_prefix ?_).mono ?_
          · simpa [after] using hsize.trans hjunk
          · rintro _ _ ⟨contents, hcontents, rfl⟩
            refine safe_then.mpr ⟨Finset.mem_insert_self h s.locked, fun _ _ => ?_⟩
            refine ⟨contents, hnew, hlocked, hcontents, ?_⟩
            simp [after, Finset.erase_insert hlocked]

/-- **A block is handed to the clipboard**, or is freed. -/
theorem safe_setOrFree {format : Nat} {h : Handle} (hopen : s.opened = true ∨ s.held = true)
    (howned : h ∈ s.owned) (hlocked : h ∉ s.locked) :
    win32.Safe (setOrFree format h) s (fun r s' =>
      if r then
        s' = { s with
          clipboard := s.put format (some (s.contents h)), owned := s.owned.erase h }
      else ∃ error, s' = { s with lastError := error, owned := s.owned.erase h }) := by
  refine safe_then.mpr ⟨⟨hopen, howned, hlocked⟩, fun error _ => ?_⟩
  by_cases hok : error = 0
  · simp only [if_pos hok, after]
    exact rfl
  · simp only [if_neg hok, after]
    exact safe_then.mpr ⟨⟨howned, hlocked⟩, fun _ _ => ⟨error, rfl⟩⟩

/-! ## What is left behind -/

/-- Everything is given back, but for the references that are kept. -/
structure Win32.Returned (s s' : Win32) (kept : Multiset Object) : Prop where
  held : s'.held = s.held
  opened : s'.opened = s.opened
  owned : s'.owned = s.owned
  locked : s'.locked = s.locked
  media : s'.media = s.media
  references : s'.references = kept + s.references

/-- The formats on the clipboard with their blocks. -/
abbrev Entries := List (Nat × Option Bytes)

/-- A render adds the format with such a block, or changes nothing. -/
def Rendered (Content : Bytes → Prop) (s : Win32) (format : Nat) (ok : Bool)
    (entries : Entries) : Prop :=
  if ok then ∃ data, Content data ∧ entries = s.put format (some data)
  else entries = s.clipboard

/-- A write leaves the format with such a block and nothing else, or what
there was before, or nothing. -/
def Wrote (Content : Bytes → Prop) (s : Win32) (format : Nat) (ok : Bool)
    (entries : Entries) : Prop :=
  if ok then ∃ data, Content data ∧ entries = [(format, some data)]
  else entries = s.clipboard ∨ entries = []

/-- The end of an operation. -/
structure Ends (After : Bool → Entries → Prop) (s : Win32) (ok : Bool) (s' : Win32) : Prop where
  returned : s.Returned s' 0
  entries : After ok s'.clipboard

variable {Content : Bytes → Prop} {After : Bool → Entries → Prop} {format : Nat}

theorem ends_self (hafter : After false s.clipboard) : Ends After s false s :=
  ⟨⟨rfl, rfl, rfl, rfl, rfl, (zero_add _).symm⟩, hafter⟩

/-- What is in the blocks of memory does not matter. -/
theorem Ends.contents {contents : Handle → Bytes} {ok : Bool} {s' : Win32}
    (h : Ends After { s with contents := contents } ok s') : Ends After s ok s' :=
  ⟨⟨h.returned.held, h.returned.opened, h.returned.owned, h.returned.locked,
    h.returned.media, h.returned.references⟩, h.entries⟩

/-- What is rendered on an emptied clipboard is all that is on it. -/
theorem Ends.wrote {ok : Bool} {s' : Win32}
    (h : Ends (Rendered Content { s with clipboard := [], lent := ∅ } format)
      { s with clipboard := [], lent := ∅ } ok s') :
    Ends (Wrote Content s format) s ok s' where
  returned := ⟨h.returned.held, h.returned.opened, h.returned.owned, h.returned.locked,
    h.returned.media, h.returned.references⟩
  entries := by
    have hentries := h.entries
    cases ok with
    | true => exact hentries
    | false => exact .inr hentries

/-- A block that is freed leaves nothing. -/
theorem ends_freed {h : Handle} (hnew : h ∉ s.owned) (hafter : After false s.clipboard) :
    Ends After s false { s with owned := (insert h s.owned).erase h } :=
  ⟨⟨rfl, rfl, Finset.erase_insert hnew, rfl, rfl, (zero_add _).symm⟩, hafter⟩

/-- **Handing over** a block of the content that it is to have. -/
theorem safe_handOver {h : Handle} (hopen : s.opened = true ∨ s.held = true)
    (hnew : h ∉ s.owned) (hlocked : h ∉ s.locked) (hcontent : Content (s.contents h)) :
    win32.Safe (setOrFree format h) { s with owned := insert h s.owned }
      (Ends (Rendered Content s format) s) := by
  refine (safe_setOrFree (s := { s with owned := insert h s.owned }) hopen
    (Finset.mem_insert_self h s.owned) hlocked).mono ?_
  intro ok s' hset
  cases ok with
  | true =>
      rw [if_pos rfl] at hset
      subst hset
      exact ⟨⟨rfl, rfl, Finset.erase_insert hnew, rfl, rfl, (zero_add _).symm⟩,
        s.contents h, hcontent, rfl⟩
  | false =>
      obtain ⟨error, rfl⟩ := hset
      exact ⟨⟨rfl, rfl, Finset.erase_insert hnew, rfl, rfl, (zero_add _).symm⟩, rfl⟩

/-! ## Renders -/

/-- **A new block for the clipboard**, in a render or a write. -/
theorem safe_newBlock {size : Nat} {parts : List Bytes}
    (hopen : s.opened = true ∨ s.held = true) (hsize : parts.flatten.length ≤ size)
    (hcontent : ∀ data, parts.flatten <+: data → Content data) :
    win32.Safe (do
      match ← globalFrom size parts with
      | none => return false
      | some h => setOrFree format h) s (Ends (Rendered Content s format) s) := by
  refine System.safe_bind.mpr ((safe_globalFrom hsize).mono ?_)
  rintro r s' ⟨contents, hmade⟩
  cases r with
  | none =>
      subst hmade
      exact (ends_self rfl).contents
  | some h =>
      obtain ⟨hnew, hlocked, hcontents, rfl⟩ := hmade
      refine (safe_handOver (s := { s with contents := contents }) hopen hnew hlocked
        (hcontent _ hcontents)).mono ?_
      exact fun _ _ hrendered => hrendered.contents

/-- A reader finds the text, if there is no NUL in it. -/
def HasText (text : WideString) (data : Bytes) : Prop := 0 ∉ text → readWide data 0 = some text

theorem length_text (text : WideString) :
    [wide text, wide [0]].flatten.length ≤ (text.length + 1) * 2 := by
  simp only [List.flatten_cons, List.flatten_nil, List.length_append, length_wide,
    List.length_nil, List.length_cons]
  omega

theorem hasText_of_prefix {text : WideString} {data : Bytes}
    (h : [wide text, wide [0]].flatten <+: data) : HasText text data := by
  intro hnul
  obtain ⟨rest, rfl⟩ := h
  have hsplit : [wide text, wide [0]].flatten ++ rest = wide text ++ (wide [0] ++ rest) := by
    simp
  rw [readWide, List.drop_zero, hsplit, wideUnits_wide_append, wideUnits_wide_append]
  exact nulTerminated_of_nul hnul _

theorem safe_renderTextDuringWmRenderFormat {text : WideString} (hheld : s.held = true) :
    win32.Safe (renderTextDuringWmRenderFormat text) s
      (Ends (Rendered (HasText text) s cfUnicodeText) s) :=
  safe_newBlock (.inr hheld) (length_text text) fun _ => hasText_of_prefix

/-- A reader finds the picture. -/
def HasImage (image : BgraImage) (data : Bytes) : Prop :=
  DibFormat.readClipboardDibToBgra data = some image

/-- A picture that can be laid out has a size that the reader accepts, and as
many pixels as that takes. -/
theorem dibPayload_cases (image : BgraImage) (hpayload : dibPayload image ≠ []) :
    (1 ≤ image.width ∧ image.width ≤ 16384) ∧ (1 ≤ image.height ∧ image.height ≤ 16384) ∧
      image.pixels.length = image.width * 4 * image.height ∧
      dibPayload image =
        record (bitmapV5Header image.width image.height image.pixels.length) ++ image.pixels := by
  have hpositive : ¬ ((image.width : Int) ≤ 0 ∨ (image.height : Int) ≤ 0) := by
    intro h
    exact hpayload (if_pos h)
  have hcap : ¬ ((kMaxImageDimension : Int) < image.width ∨
      (kMaxImageDimension : Int) < image.height) := by
    intro h
    exact hpayload ((if_neg hpositive).trans (if_pos h))
  have hlength : image.pixels.length = image.width * 4 * image.height := by
    by_contra h
    refine hpayload ?_
    simp only [dibPayload, buildCfDibV5Payload, if_neg hpositive, if_neg hcap, Int.toNat_natCast,
      ne_eq, h, not_false_eq_true, if_true]
  rw [kMaxImageDimension] at hcap
  refine ⟨by omega, by omega, hlength, ?_⟩
  rw [← kMaxImageDimension] at hcap
  simp only [dibPayload, buildCfDibV5Payload, if_neg hpositive, if_neg hcap, Int.toNat_natCast,
    ← hlength, ne_eq, not_true_eq_false, if_false, List.take_length]

theorem hasImage_of_prefix {image : BgraImage} (hpayload : dibPayload image ≠ []) {data : Bytes}
    (h : dibPayload image <+: data) : HasImage image data := by
  obtain ⟨hwidth, hheight, hpixels, hlayout⟩ := dibPayload_cases image hpayload
  obtain ⟨rest, rfl⟩ := h
  have hheader : (record (bitmapV5Header image.width image.height
      image.pixels.length)).length = 124 := by
    rw [length_record]
    rfl
  have hsize : 124 + image.width * 4 * image.height ≤ (record (bitmapV5Header image.width
      image.height image.pixels.length) ++ (image.pixels ++ rest)).length := by
    rw [List.length_append, List.length_append, hheader, hpixels]
    omega
  have hrows : (List.range image.height).flatMap
      ((builtHeader image.width image.height).row (image.pixels ++ rest)) = image.pixels := by
    have hrow : ∀ y, (builtHeader image.width image.height).row (image.pixels ++ rest) y =
        segment (image.pixels ++ rest) (y * (image.width * 4))
          ((y + 1) * (image.width * 4)) := by
      intro y
      simp only [BitmapInfoHeader.row, topDown_built hheight.1, if_true, srcStride_built,
        width_built, bytesPerPixel_built, Nat.succ_mul]
    rw [funext hrow, flatMap_segment, Nat.mul_comm image.height, ← hpixels,
      segment_append_left _ _ le_rfl, segment_all]
  rw [HasImage, hlayout, List.append_assoc, DibFormat.readClipboardDibToBgra,
    readInfoHeader_built hwidth.2 hheight.2]
  simp only [Option.bind_eq_bind, Option.bind_some,
    if_pos (supported_built hwidth hheight hsize), headerBytes_built,
    List.drop_left' hheader, width_built, height_built, hrows]
  rfl

/-- The block of a PNG, if the picture can be laid out. -/
theorem safe_buildDibV5HGlobalFromPng {png : Bytes} :
    win32.Safe (buildDibV5HGlobalFromPng png) s (fun r s' => ∃ contents,
      match r with
      | none => s' = { s with contents := contents }
      | some h => h ∉ s.owned ∧ h ∉ s.locked ∧ HasImage (s.picture png) (contents h) ∧
          s' = { s with contents := contents, owned := insert h s.owned }) := by
  refine safe_then.mpr ⟨trivial, fun r hr => ?_⟩
  cases r with
  | none => exact ⟨s.contents, rfl⟩
  | some image =>
      obtain rfl : image = s.picture png := by simpa [answers] using hr
      by_cases hpayload : dibPayload (s.picture png) = []
      · simp only [if_pos hpayload]
        exact ⟨s.contents, rfl⟩
      · simp only [if_neg hpayload]
        refine (safe_globalFrom (by simp)).mono ?_
        rintro r s' ⟨contents, hmade⟩
        cases r with
        | none => exact ⟨contents, hmade⟩
        | some h =>
            obtain ⟨hnew, hlocked, hcontents, hs'⟩ := hmade
            exact ⟨contents, hnew, hlocked,
              hasImage_of_prefix hpayload (by simpa using hcontents), hs'⟩

theorem safe_renderImageDuringWmRenderFormat {png : Bytes} (hheld : s.held = true) :
    win32.Safe (renderImageDuringWmRenderFormat format png) s
      (Ends (Rendered (HasImage (s.picture png)) s format) s) := by
  refine System.safe_bind.mpr (safe_buildDibV5HGlobalFromPng.mono ?_)
  rintro r s' ⟨contents, hmade⟩
  cases r with
  | none =>
      subst hmade
      exact (ends_self rfl).contents
  | some h =>
      obtain ⟨hnew, hlocked, hcontents, rfl⟩ := hmade
      by_cases hformat : format ≠ cfDib ∧ format ≠ cfDibV5
      · simp only [if_pos hformat]
        refine safe_then.mpr ⟨⟨Finset.mem_insert_self h s.owned, hlocked⟩, fun _ _ => ?_⟩
        exact (ends_freed (s := { s with contents := contents }) hnew rfl).contents
      · simp only [if_neg hformat]
        refine (safe_handOver (s := { s with contents := contents }) (.inr hheld) hnew hlocked
          hcontents).mono ?_
        exact fun _ _ hrendered => hrendered.contents

/-! ## Writes -/

/-- A scope around what has such an end: nothing is left open or lent. -/
theorem safe_writeScope {s base : Win32} {closed body : Calls Bool} (hopened : s.opened = false)
    (hidle : base.Idle) (hclosed : win32.Safe closed s (Ends After base))
    (hbody : win32.Safe body { s with opened := true }
      (Ends After { base with opened := true })) :
    win32.Safe (inClipboardScope closed body) s (Ends After base) := by
  have hwatched : watched.Safe (inClipboardScope closed body) ([], s)
      (fun ok w => Ends After base ok w.2) := by
    refine safe_inClipboardScope hopened (System.safe_observed_iff.mpr hclosed) ?_
    refine (System.safe_observed_iff.mpr hbody).mono ?_
    intro ok w hends
    refine ⟨hends.returned.opened, ?_, ?_⟩
    · rw [hends.returned.locked]
      exact hidle.disjoint w.2.lent
    · exact ⟨⟨hends.returned.held, hidle.closed.symm, hends.returned.owned,
        hends.returned.locked, hends.returned.media, hends.returned.references⟩, hends.entries⟩
  exact System.safe_observed_iff.mp hwatched

theorem safe_writeClipboardText {text : WideString} (hidle : s.Idle) :
    win32.Safe (writeClipboardText text) s
      (Ends (Wrote (HasText text) s cfUnicodeText) s) := by
  refine safe_writeScope hidle.closed hidle (ends_self (.inl rfl)) ?_
  refine safe_then.mpr ⟨⟨rfl, hidle.disjoint s.lent⟩, fun emptied _ => ?_⟩
  cases emptied with
  | false => exact ends_self (.inl rfl)
  | true =>
      refine (safe_newBlock (s := { s with opened := true, clipboard := [], lent := ∅ })
        (.inl rfl) (length_text text) fun _ => hasText_of_prefix).mono ?_
      exact fun _ _ hends => hends.wrote (s := { s with opened := true })

/-- **A block is published**, or freed wherever this fails. -/
theorem safe_publishBlock {h : Handle} (hidle : s.Idle) (hnew : h ∉ s.owned)
    (hcontent : Content (s.contents h)) :
    win32.Safe (publishBlock format h) { s with owned := insert h s.owned }
      (Ends (Wrote Content s format) s) := by
  have hlocked : h ∉ s.locked := by
    rw [hidle.unlocked]
    exact Finset.notMem_empty h
  refine safe_writeScope hidle.closed hidle ?_ ?_
  · exact safe_then.mpr ⟨⟨Finset.mem_insert_self h s.owned, hlocked⟩, fun _ _ =>
      ends_freed hnew (.inl rfl)⟩
  · refine safe_then.mpr ⟨⟨rfl, hidle.disjoint s.lent⟩, fun emptied _ => ?_⟩
    cases emptied with
    | false =>
        exact safe_then.mpr ⟨⟨Finset.mem_insert_self h s.owned, hlocked⟩, fun _ _ =>
          ends_freed (s := { s with opened := true }) hnew (.inl rfl)⟩
    | true =>
        refine (safe_handOver (s := { s with opened := true, clipboard := [], lent := ∅ })
          (.inl rfl) hnew hlocked hcontent).mono ?_
        exact fun _ _ hends => hends.wrote (s := { s with opened := true })

theorem writeClipboardImagePng_eq (png : Bytes) :
    writeClipboardImagePng png = (do
      match ← buildDibV5HGlobalFromPng png with
      | none => return false
      | some h => publishBlock cfDibV5 h) := by
  refine congrArg (Program.call _) (funext fun r => ?_)
  cases r with
  | none => rfl
  | some image =>
      change (if dibPayload image = [] then _ else _) =
        ((if dibPayload image = [] then _ else _ : Calls (Option Handle)) >>= _)
      by_cases hpayload : dibPayload image = []
      · refine (if_pos hpayload).trans (.symm ?_)
        exact congrArg (· >>= _) (if_pos hpayload)
      · refine (if_neg hpayload).trans (.symm ?_)
        exact congrArg (· >>= _) (if_neg hpayload)

theorem safe_writeClipboardImagePng {png : Bytes} (hidle : s.Idle) :
    win32.Safe (writeClipboardImagePng png) s
      (Ends (Wrote (HasImage (s.picture png)) s cfDibV5) s) := by
  rw [writeClipboardImagePng_eq]
  refine System.safe_bind.mpr (safe_buildDibV5HGlobalFromPng.mono ?_)
  rintro r s' ⟨contents, hmade⟩
  cases r with
  | none =>
      subst hmade
      exact (ends_self (.inl rfl)).contents
  | some h =>
      obtain ⟨hnew, -, hcontents, rfl⟩ := hmade
      refine (safe_publishBlock (s := { s with contents := contents })
        ⟨hidle.closed, hidle.unlocked⟩ hnew hcontents).mono ?_
      exact fun _ _ hwrote => hwrote.contents

/-- A reader finds the paths, if none is empty or has a NUL in it. -/
def HasFiles (paths : List WideString) (data : Bytes) : Prop :=
  (∀ path ∈ paths, path ≠ [] ∧ 0 ∉ path) → HdropFormat.walkDropFiles data = some paths

theorem hasFiles_of_prefix {paths : List WideString} (hsome : paths ≠ []) {data : Bytes}
    (h : HdropFormat.buildCfHdropPayload paths <+: data) : HasFiles paths data := by
  intro hpaths
  obtain ⟨rest, rfl⟩ := h
  have hpayload : HdropFormat.buildCfHdropPayload paths ++ rest =
      record HdropFormat.dropFiles ++ (wide (stringList paths) ++ rest) := by
    rw [HdropFormat.buildCfHdropPayload, if_neg hsome, List.append_assoc]
    rfl
  have hpFiles := readLE_record HdropFormat.dropFiles (wide (stringList paths) ++ rest)
    (k := 0) (by decide)
  have hfWide := readLE_record HdropFormat.dropFiles (wide (stringList paths) ++ rest)
    (k := 4) (by decide)
  change readLE _ 0 4 = some 20 at hpFiles
  change readLE _ 16 4 = some 1 at hfWide
  have hheader : (record HdropFormat.dropFiles).length = 20 := by decide
  rw [hpayload, HdropFormat.walkDropFiles]
  simp only [hpFiles, hfWide, Option.bind_eq_bind, Option.bind_some]
  rw [if_neg (by omega), List.drop_left' hheader, wideUnits_wide_append,
    (walkStrings_stringList_iff paths _).mpr hpaths]

theorem safe_writeClipboardFiles {paths : List WideString} (hidle : s.Idle) :
    win32.Safe (writeClipboardFiles paths) s
      (Ends (Wrote (HasFiles paths) s cfHdrop) s) := by
  rw [writeClipboardFiles]
  by_cases hsome : paths = []
  · rw [if_pos hsome]
    exact ends_self (.inl rfl)
  · rw [if_neg hsome]
    by_cases hpayload : HdropFormat.buildCfHdropPayload paths = []
    · rw [if_pos hpayload]
      exact ends_self (.inl rfl)
    · rw [if_neg hpayload]
      refine System.safe_bind.mpr ((safe_globalFrom (by simp)).mono ?_)
      rintro r s' ⟨contents, hmade⟩
      cases r with
      | none =>
          subst hmade
          exact (ends_self (.inl rfl)).contents
      | some h =>
          obtain ⟨hnew, -, hcontents, rfl⟩ := hmade
          have hfiles := hasFiles_of_prefix hsome (by simpa using hcontents)
          refine (safe_publishBlock (s := { s with contents := contents })
            ⟨hidle.closed, hidle.unlocked⟩ hnew hfiles).mono ?_
          exact fun _ _ hwrote => hwrote.contents

/-! ## Announcements -/

/-- The formats that are announced for a type, in that order. -/
def delayedFormats (type : ClipboardContentType) : List Nat :=
  if type = .text then [cfUnicodeText]
  else if type = .image then [cfDibV5, cfDib]
  else []

/-- An announcement leaves some of the formats, without data, in place of what
there was; or what there was.  It is a success if and only if the first format
is among them. -/
def Announced (s : Win32) (type : ClipboardContentType) (ok : Bool) (entries : Entries) : Prop :=
  (ok = false ∧ entries = s.clipboard) ∨
    ∃ formats : List Nat, formats.Sublist (delayedFormats type) ∧
      entries = formats.map (fun format => (format, none)) ∧
      (ok = true ↔ ∃ format, (delayedFormats type).head? = some format ∧ format ∈ formats)

theorem safe_announceDelayed (hopened : s.opened = true) :
    win32.Safe (announceDelayed format) s (fun ok s' => ∃ error, s' = { s with
      lastError := error
      clipboard := if ok then s.put format none else s.clipboard }) := by
  refine safe_then.mpr ⟨trivial, fun _ _ => safe_then.mpr ⟨hopened, fun error _ => ?_⟩⟩
  refine safe_then.mpr ⟨trivial, fun lastError hlast => ?_⟩
  have hlast : lastError = if error = 0 then 0 else error := hlast
  refine ⟨lastError, ?_⟩
  by_cases hok : error = 0
  · simp only [hlast, after, hok, if_true, decide_true]
    rfl
  · simp [hlast, after, hok]

theorem safe_announceDelayedFormatsForType {type : ClipboardContentType} (hidle : s.Idle) :
    win32.Safe (announceDelayedFormatsForType type) s (Ends (Announced s type) s) := by
  have hnothing : Announced s type false s.clipboard := .inl ⟨rfl, rfl⟩
  refine safe_writeScope hidle.closed hidle (ends_self hnothing) ?_
  refine safe_then.mpr ⟨⟨rfl, hidle.disjoint s.lent⟩, fun emptied _ => ?_⟩
  cases emptied with
  | false => exact ends_self (s := { s with opened := true }) hnothing
  | true =>
      have hreturned : ∀ error entries, Win32.Returned { s with opened := true }
          { s with opened := true, clipboard := entries, lent := ∅, lastError := error } 0 :=
        fun _ _ => ⟨rfl, rfl, rfl, rfl, rfl, (zero_add _).symm⟩
      by_cases htext : type = .text
      · subst htext
        refine (safe_announceDelayed (by rfl)).mono ?_
        rintro ok _ ⟨error, rfl⟩
        refine ⟨hreturned _ _, .inr ?_⟩
        cases ok with
        | true => exact ⟨[cfUnicodeText], List.Sublist.refl _, rfl, by simp [delayedFormats]⟩
        | false => exact ⟨[], List.nil_sublist _, rfl, by simp⟩
      · simp only [if_neg htext]
        by_cases himage : type = .image
        · subst himage
          refine System.safe_bind.mpr ((safe_announceDelayed (by rfl)).mono ?_)
          rintro dibv5Ok _ ⟨error, rfl⟩
          refine System.safe_bind.mpr ((safe_announceDelayed (by rfl)).mono ?_)
          rintro dibOk _ ⟨error', rfl⟩
          refine ⟨hreturned _ _, .inr ?_⟩
          refine ⟨(if dibv5Ok then [cfDibV5] else []) ++ (if dibOk then [cfDib] else []), ?_⟩
          cases dibv5Ok <;> cases dibOk <;> refine ⟨by decide, rfl, by decide⟩
        · simp only [if_neg himage]
          refine ⟨hreturned _ _, .inr ⟨[], List.nil_sublist _, rfl, ?_⟩⟩
          simp

/-! ## Every operation -/

inductive Operation
  | readClipboard
  | writeClipboardText (text : WideString)
  | writeClipboardImagePng (png : Bytes)
  | writeClipboardFiles (paths : List WideString)
  | announceDelayedFormatsForType (type : ClipboardContentType)
  | renderTextDuringWmRenderFormat (text : WideString)
  | renderImageDuringWmRenderFormat (format : Nat) (png : Bytes)
  | readVirtualFileChunk (object : Object) (lindex : UInt32) (offset : UInt64) (size : UInt32)

/-- Whether it succeeds, and the references that its result takes over. -/
def Operation.run : Operation → Calls (Bool × Multiset Object)
  | .readClipboard => do
    let r ← ClipboardCalls.readClipboard
    return (r.isSome, kept r)
  | .writeClipboardText text => do return (← ClipboardCalls.writeClipboardText text, 0)
  | .writeClipboardImagePng png => do return (← ClipboardCalls.writeClipboardImagePng png, 0)
  | .writeClipboardFiles paths => do return (← ClipboardCalls.writeClipboardFiles paths, 0)
  | .announceDelayedFormatsForType type => do
    return (← ClipboardCalls.announceDelayedFormatsForType type, 0)
  | .renderTextDuringWmRenderFormat text => do
    return (← ClipboardCalls.renderTextDuringWmRenderFormat text, 0)
  | .renderImageDuringWmRenderFormat format png => do
    return (← ClipboardCalls.renderImageDuringWmRenderFormat format png, 0)
  | .readVirtualFileChunk object lindex offset size => do
    let r ← ClipboardCalls.readVirtualFileChunk object lindex offset size
    return (r.isSome, 0)

/-- A render is called while the system has the clipboard open, a chunk is
read of an object that is held, and everything else is done outside. -/
def Operation.Ready (s : Win32) : Operation → Prop
  | .renderTextDuringWmRenderFormat _ | .renderImageDuringWmRenderFormat _ _ => s.held = true
  | .readVirtualFileChunk object _ _ _ => object ∈ s.references
  | _ => s.Idle

/-- What there is on the clipboard afterwards. -/
def Operation.Leaves (s : Win32) : Operation → Bool → Entries → Prop
  | .readClipboard, _ | .readVirtualFileChunk _ _ _ _, _ => fun entries => entries = s.clipboard
  | .writeClipboardText text, ok => Wrote (HasText text) s cfUnicodeText ok
  | .writeClipboardImagePng png, ok => Wrote (HasImage (s.picture png)) s cfDibV5 ok
  | .writeClipboardFiles paths, ok => Wrote (HasFiles paths) s cfHdrop ok
  | .announceDelayedFormatsForType type, ok => Announced s type ok
  | .renderTextDuringWmRenderFormat text, ok => Rendered (HasText text) s cfUnicodeText ok
  | .renderImageDuringWmRenderFormat format png, ok =>
    Rendered (HasImage (s.picture png)) s format ok

/-- An end that takes no reference over. -/
theorem safe_ends {p : Calls Bool} (hsafe : win32.Safe p s (Ends After s)) :
    win32.Safe (do return (← p, (0 : Multiset Object))) s (fun r s' =>
      s.Returned s' r.2 ∧ After r.1 s'.clipboard) :=
  System.safe_bind.mpr (hsafe.mono fun _ _ hends => ⟨hends.returned, hends.entries⟩)

theorem safe_operation (op : Operation) (hready : op.Ready s) :
    win32.Safe op.run s (fun r s' => s.Returned s' r.2 ∧ op.Leaves s r.1 s'.clipboard) := by
  cases op with
  | readClipboard =>
      have hwatched : watched.Safe readClipboard ([], s) (fun r w =>
          ∃ lent, w.2 = { s with lent := lent, references := kept r + s.references }) :=
        (safe_readClipboard hready).mono fun _ _ ⟨_, _, _, hstate⟩ => hstate
      have hread : win32.Safe readClipboard s (fun r s' =>
          ∃ lent, s' = { s with lent := lent, references := kept r + s.references }) :=
        System.safe_observed_iff.mp hwatched
      refine System.safe_bind.mpr (hread.mono ?_)
      rintro r _ ⟨lent, rfl⟩
      exact ⟨⟨rfl, rfl, rfl, rfl, rfl, rfl⟩, rfl⟩
  | writeClipboardText text => exact safe_ends (safe_writeClipboardText hready)
  | writeClipboardImagePng png => exact safe_ends (safe_writeClipboardImagePng hready)
  | writeClipboardFiles paths => exact safe_ends (safe_writeClipboardFiles hready)
  | announceDelayedFormatsForType type =>
      exact safe_ends (safe_announceDelayedFormatsForType hready)
  | renderTextDuringWmRenderFormat text =>
      exact safe_ends (safe_renderTextDuringWmRenderFormat hready)
  | renderImageDuringWmRenderFormat format png =>
      exact safe_ends (safe_renderImageDuringWmRenderFormat hready)
  | readVirtualFileChunk object lindex offset size =>
      refine System.safe_bind.mpr ((safe_readVirtualFileChunk fun _ => hready).mono ?_)
      rintro r _ ⟨rfl, -⟩
      exact ⟨⟨rfl, rfl, rfl, rfl, rfl, (zero_add _).symm⟩, rfl⟩

end ClipboardCalls
