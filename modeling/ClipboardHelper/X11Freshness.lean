import ClipboardHelper.X11Clipboard

/-!
# What the X11 backend answers to GET_CLIPBOARD

`SetClipboardText` caches its text before the object is on the clipboard, and
`OnClipboardChanged` caches what it reads.  Nothing else writes the cache: the
helper's pictures and announcements leave the text of an earlier selection in
it, and so does a copy without text.

**`cached_text_fresh`**: whenever nothing is queued, the cached text is that
of the current object, in every run in which each task finds the right text
cached (or another text is queued behind it), a copy without text finds none,
a copy is not taken for the echo of a text that is no longer cached, and no
text is read back from an announcement other than the current one of a text.
-/

namespace X11Freshness

open Library PasteFormats DelayedSlot X11Clipboard

/-! ## The text of the current object -/

/-- The cached text is the one that an object shows, as it was set or as Qt
has it; the text of an announcement is known once its data has been taken. -/
def Shows (qt : Qt) (h : List Obs) (cached : Option Bytes) : Content → Prop
  | .text text => ∃ utf8, cached = some utf8 ∧ (qt.fromUtf8 utf8 = text ∨ utf8 = qt.toUtf8 text)
  | .foreign (some text) => cached = some (qt.toUtf8 text)
  | .delayed hash .text => cached = none ∨
      ∃ payload, .took hash payload ∈ h ∧ cached = some (qt.toUtf8 (qt.fromUtf8 payload))
  | .image _ | .delayed _ _ | .foreign none => cached = none

/-- `GetClipboardText`. -/
def getClipboardText (m : Manager) : Option Bytes := m.cachedClipboardText

/-- What `GetClipboardText` returns is the text of what is on the
clipboard. -/
def TextShown (qt : Qt) (h : List Obs) (m : Manager) : Prop :=
  match m.clipboard with
  | none => getClipboardText m = none
  | some mime => Shows qt h (getClipboardText m) mime.content

/-- Nothing is queued, and a copy by another application has been
signalled. -/
structure Quiescent (m : Manager) : Prop where
  posting : m.posting = none
  tasks : m.tasks = []
  signalled : ∀ mime ∈ m.clipboard, mime.own = false → m.signalled = true
  running : m.state.stop = false

instance (m : Manager) : Decidable (Quiescent m) :=
  decidable_of_iff
    (m.posting = none ∧ m.tasks = [] ∧
      (∀ mime ∈ m.clipboard, mime.own = false → m.signalled = true) ∧ m.state.stop = false)
    ⟨fun ⟨hposting, htasks, hsignalled, hrunning⟩ => ⟨hposting, htasks, hsignalled, hrunning⟩,
      fun hq => ⟨hq.posting, hq.tasks, hq.signalled, hq.running⟩⟩

/-- A text is on its way to the clipboard. -/
def TextQueued (posting : Option Task) (tasks : List Task) : Prop :=
  ∃ text utf8, posting = some (.setText text utf8) ∨ .setText text utf8 ∈ tasks

/-- A copy by another application is still to be signalled. -/
def Unsignalled (m : Manager) : Prop :=
  ∃ mime, m.clipboard = some mime ∧ mime.own = false ∧ m.signalled = false

/-- The text that `OnClipboardChanged` reads from an announcement of the
helper. -/
def readBack (lib : ImageLibrary) (qt : Qt) (w : Waiter) (bytes : Option Bytes) : Bytes :=
  qt.toUtf8 (((bytes.map (fun payload =>
    materialise lib qt w.kind payload (ascii "text/plain;charset=utf-8") .qString)).getD
      .invalid).text qt)

/-- The text that is cached when a task needs no other. -/
def textOfTask : Task → Option Bytes
  | .setText _ utf8 => some utf8
  | .setImage _ | .announce _ _ => none

/-- **Steps that keep the cached text up to date.** -/
def UpToDate (lib : ImageLibrary) (qt : Qt) (m : Manager) : Action → Prop
  | .runTask => ∀ task tasks, m.tasks = task :: tasks →
      TextQueued m.posting tasks ∨ m.cachedClipboardText = textOfTask task
  | .deliver => ∀ mime, m.clipboard = some mime → TextQueued m.posting m.tasks ∨
      match mime.content with
      | .foreign none => m.cachedClipboardText = none
      | .foreign (some text) => m.echo.lastSetText = some (qt.toUtf8 text) →
          m.cachedClipboardText = some (qt.toUtf8 text)
      | .delayed hash .files => m.echo.isAnnouncedMime mime = true ∨
          ∀ payload, m.state.dataFor hash = some payload →
            m.echo.lastSetText = some (readBack lib qt ⟨hash, .files, .ownEcho⟩ (some payload))
      | _ => True
  | .wake index deadline => ∀ w outcome, m.waiters[index]? = some w → w.reader = .ownEcho →
      m.state.wake w.hash deadline = some outcome →
      m.state.stop = true ∨ TextQueued m.posting m.tasks ∨ Unsignalled m ∨
        m.echo.lastSetText = some (readBack lib qt w (bytesOf outcome)) ∨
        (w.kind = .text ∧ (∃ pointer, m.clipboard = some ⟨pointer, .delayed w.hash .text⟩) ∧
          ∃ payload, bytesOf outcome = some payload)
  | _ => True

/-! ## Invariants -/

/-- What the state is like on every run: a queued text is the one to be
cached, numbers of objects are used up, and an object of another application
is not taken for an announced one. -/
structure Wired (qt : Qt) (m : Manager) : Prop where
  posting : ∀ text utf8, m.posting = some (.setText text utf8) → text = qt.fromUtf8 utf8
  tasks : ∀ text utf8, .setText text utf8 ∈ m.tasks → text = qt.fromUtf8 utf8
  current : ∀ mime, m.clipboard = some mime → mime.pointer < m.nextPointer
  announced : ∀ pointer, m.echo.announcedMime = some pointer → pointer < m.nextPointer
  foreign : ∀ mime, m.clipboard = some mime → mime.own = false →
    m.echo.announcedMime ≠ some mime.pointer
  recording : ∀ task mime, m.recording = some (task, mime) →
    mime.pointer < m.nextPointer ∧ mime.own = true ∧
      ∀ current, m.clipboard = some current → current = mime

/-- **The invariant**: the cached text is that of the current object, unless a
text or a signal is on its way. -/
def Tracked (qt : Qt) (h : List Obs) (m : Manager) : Prop :=
  m.state.stop = true ∨ TextQueued m.posting m.tasks ∨ Unsignalled m ∨ TextShown qt h m

variable {qt : Qt} {h os : List Obs} {m m' : Manager}

theorem Shows.append {cached : Option Bytes} {content : Content}
    (hs : Shows qt h cached content) : Shows qt (h ++ os) cached content := by
  cases content with
  | text | image => exact hs
  | foreign text => cases text <;> exact hs
  | delayed hash kind =>
      cases kind with
      | image | files => exact hs
      | text =>
          rcases hs with hnone | ⟨payload, hmem, hcached⟩
          · exact Or.inl hnone
          · exact Or.inr ⟨payload, List.mem_append_left os hmem, hcached⟩

/-! ## Reading text -/

/-- Two states that differ in the cached text, the expected text, the waiters
and the slot at most. -/
structure Alike (m m' : Manager) : Prop where
  posting : m'.posting = m.posting
  tasks : m'.tasks = m.tasks
  clipboard : m'.clipboard = m.clipboard
  announced : m'.echo.announcedMime = m.echo.announcedMime
  recording : m'.recording = m.recording
  nextPointer : m'.nextPointer = m.nextPointer
  signalled : m'.signalled = m.signalled
  stop : m'.state.stop = m.state.stop

theorem Alike.wired (ha : Alike m m') (hw : Wired qt m) : Wired qt m' where
  posting := by rw [ha.posting]; exact hw.posting
  tasks := by rw [ha.tasks]; exact hw.tasks
  current := by rw [ha.clipboard, ha.nextPointer]; exact hw.current
  announced := by rw [ha.announced, ha.nextPointer]; exact hw.announced
  foreign := by rw [ha.clipboard, ha.announced]; exact hw.foreign
  recording := by rw [ha.recording, ha.clipboard, ha.nextPointer]; exact hw.recording

/-- What the clipboard shows is all that counts. -/
theorem Tracked.of_shows {mime : Mime} (hclipboard : m.clipboard = some mime)
    (hs : Shows qt h m.cachedClipboardText mime.content) : Tracked qt h m := by
  refine Or.inr (Or.inr (Or.inr ?_))
  unfold TextShown
  rw [hclipboard]
  exact hs

/-- A step that leaves the clipboard and the cached text alone. -/
theorem Tracked.frame (hu : Tracked qt h m)
    (hqueued : TextQueued m.posting m.tasks → TextQueued m'.posting m'.tasks)
    (hclipboard : m'.clipboard = m.clipboard) (hstop : m'.state.stop = m.state.stop)
    (hsignalled : m'.signalled = m.signalled)
    (hcached : m'.cachedClipboardText = m.cachedClipboardText) : Tracked qt (h ++ os) m' := by
  rcases hu with hstopped | hq | hunseen | hshown
  · exact Or.inl (hstop.trans hstopped)
  · exact Or.inr (Or.inl (hqueued hq))
  · refine Or.inr (Or.inr (Or.inl ?_))
    unfold Unsignalled
    rw [hclipboard, hsignalled]
    exact hunseen
  · unfold TextShown getClipboardText at hshown
    cases hmime : m.clipboard with
    | none =>
        simp only [hmime] at hshown
        refine Or.inr (Or.inr (Or.inr ?_))
        unfold TextShown getClipboardText
        rw [hclipboard, hmime, hcached]
        exact hshown
    | some mime =>
        simp only [hmime] at hshown
        refine .of_shows (hclipboard.trans hmime) ?_
        rw [hcached]
        exact hshown.append

/-- What is on its way stays so. -/
theorem Alike.tracked (ha : Alike m m')
    (hcoming : m.state.stop = true ∨ TextQueued m.posting m.tasks ∨ Unsignalled m) :
    Tracked qt h m' := by
  rcases hcoming with hstop | hqueued | hunseen
  · exact Or.inl (ha.stop.trans hstop)
  · refine Or.inr (Or.inl ?_)
    rw [ha.posting, ha.tasks]
    exact hqueued
  · refine Or.inr (Or.inr (Or.inl ?_))
    unfold Unsignalled
    rw [ha.clipboard, ha.signalled]
    exact hunseen

/-- A text is read: it is the expected one and nothing is cached, or it is
cached. -/
theorem textChanged_cases (m : Manager) (utf8 : Bytes) :
    m.echo.lastSetText = some utf8 ∧
        (textChanged m utf8).1 = { m with echo := { m.echo with lastSetText := none } } ∨
      m.echo.lastSetText ≠ some utf8 ∧
        (textChanged m utf8).1 = { m with cachedClipboardText := some utf8 } := by
  unfold textChanged EchoSuppressor.consumeEagerSetTextEcho
  by_cases hlast : m.echo.lastSetText = some utf8
  · rw [if_pos hlast]
    exact Or.inl ⟨hlast, rfl⟩
  · rw [if_neg hlast]
    exact Or.inr ⟨hlast, rfl⟩

theorem textChanged_alike (m : Manager) (utf8 : Bytes) : Alike m (textChanged m utf8).1 := by
  rcases textChanged_cases m utf8 with ⟨-, hm⟩ | ⟨-, hm⟩
  · rw [hm]
    exact ⟨rfl, rfl, rfl, rfl, rfl, rfl, rfl, rfl⟩
  · rw [hm]
    exact ⟨rfl, rfl, rfl, rfl, rfl, rfl, rfl, rfl⟩

/-- **A text is read**: the cached text is up to date if it was and the text
is the expected one, or if the text is that of the current object. -/
theorem textChanged_tracked {utf8 : Bytes}
    (hexpected : m.echo.lastSetText = some utf8 → Tracked qt h m)
    (hread : m.echo.lastSetText ≠ some utf8 →
      Tracked qt h { m with cachedClipboardText := some utf8 }) :
    Tracked qt h (textChanged m utf8).1 := by
  rcases textChanged_cases m utf8 with ⟨hlast, hm⟩ | ⟨hlast, hm⟩
  · rw [hm]
    exact hexpected hlast
  · rw [hm]
    exact hread hlast

theorem finishWait_alike (lib : ImageLibrary) (qt : Qt) (m : Manager) (w : Waiter)
    (bytes : Option Bytes) : Alike m (finishWait lib qt m w bytes).1 := by
  unfold finishWait
  cases w.reader with
  | consumer => exact ⟨rfl, rfl, rfl, rfl, rfl, rfl, rfl, rfl⟩
  | ownEcho => exact textChanged_alike m _

theorem waitForBytes_alike (lib : ImageLibrary) (qt : Qt) (m : Manager) (w : Waiter) :
    Alike m (waitForBytes lib qt m w).1 := by
  unfold waitForBytes
  split
  · exact finishWait_alike lib qt m w _
  · exact ⟨rfl, rfl, rfl, rfl, rfl, rfl, rfl, rfl⟩

theorem onClipboardChanged_alike (lib : ImageLibrary) (qt : Qt) (m : Manager) (mime : Mime) :
    Alike m (onClipboardChanged lib qt m mime).1 := by
  unfold onClipboardChanged
  simp only
  split
  · exact ⟨rfl, rfl, rfl, rfl, rfl, rfl, rfl, rfl⟩
  · split
    · exact ⟨rfl, rfl, rfl, rfl, rfl, rfl, rfl, rfl⟩
    · exact ⟨rfl, rfl, rfl, rfl, rfl, rfl, rfl, rfl⟩
    · exact ⟨rfl, rfl, rfl, rfl, rfl, rfl, rfl, rfl⟩
    · exact textChanged_alike m _
    · exact textChanged_alike m _
    · exact waitForBytes_alike lib qt m _

/-! ## Every run -/

/-- A new object on the clipboard. -/
theorem setMimeData_wired (hw : Wired qt m) (hidle : m.recording = none) (content : Content) :
    Wired qt (setMimeData m content) ∧
      (setMimeData m content).echo.announcedMime ≠ some m.nextPointer := by
  have hannounced : ∀ pointer, (setMimeData m content).echo.announcedMime = some pointer →
      pointer < m.nextPointer := by
    intro pointer hpointer
    refine hw.announced pointer ?_
    unfold setMimeData EchoSuppressor.destroyed at hpointer
    cases hclipboard : m.clipboard with
    | none => simpa [hclipboard] using hpointer
    | some old =>
        simp only [hclipboard] at hpointer
        split at hpointer
        · cases hpointer
        · exact hpointer
  have hfresh : (setMimeData m content).echo.announcedMime ≠ some m.nextPointer := by
    intro hsame
    exact absurd (hannounced _ hsame) (lt_irrefl _)
  refine ⟨?_, hfresh⟩
  constructor
  · exact hw.posting
  · exact hw.tasks
  · intro mime hmime
    cases hmime
    exact Nat.lt_succ_self m.nextPointer
  · intro pointer hpointer
    exact Nat.lt_succ_of_lt (hannounced pointer hpointer)
  · intro mime hmime _
    cases hmime
    exact hfresh
  · intro task mime hrecording
    have hnone : m.recording = some (task, mime) := hrecording
    rw [hidle] at hnone
    cases hnone

/-- The objects of the helper are its own. -/
theorem own_content (pointer : Nat) (task : Task) :
    (⟨pointer, task.content⟩ : Mime).own = true := by
  cases task <;> rfl

theorem step_wired {lib : ImageLibrary} {a : Action} (hw : Wired qt m)
    (hstep : (machine lib qt).step m a = some (m', os)) : Wired qt m' := by
  cases step_cases hstep with
  | textSet =>
      refine ⟨?_, hw.tasks, hw.current, hw.announced, hw.foreign, hw.recording⟩
      intro text utf8 htask
      cases htask
      rfl
  | imageSet | announced =>
      refine ⟨?_, hw.tasks, hw.current, hw.announced, hw.foreign, hw.recording⟩
      intro text utf8 htask
      cases htask
  | provided =>
      exact ⟨hw.posting, hw.tasks, hw.current, hw.announced, hw.foreign, hw.recording⟩
  | imageRefused | discarded | asleep => exact hw
  | posted hposting =>
      refine ⟨by simp, ?_, hw.current, hw.announced, hw.foreign, hw.recording⟩
      intro text utf8 hmem
      rcases List.mem_append.mp hmem with hmem | hmem
      · exact hw.tasks text utf8 hmem
      · rw [List.mem_singleton] at hmem
        exact hw.posting text utf8 (hmem ▸ hposting)
  | @ran task tasks htasks hidle =>
      have hpopped : Wired qt { m with tasks := tasks } := by
        refine ⟨hw.posting, ?_, hw.current, hw.announced, hw.foreign, hw.recording⟩
        intro text utf8 hmem
        exact hw.tasks text utf8 (htasks ▸ List.mem_cons_of_mem task hmem)
      have hset := (setMimeData_wired hpopped hidle task.content).1
      refine ⟨hset.posting, hset.tasks, hset.current, hset.announced, hset.foreign, ?_⟩
      intro task' mime hrecording
      cases hrecording
      refine ⟨Nat.lt_succ_self m.nextPointer, own_content _ task, ?_⟩
      intro current hcurrent
      cases hcurrent
      rfl
  | @recorded task mime hrecording =>
      obtain ⟨hpointer, hown, hcurrent⟩ := hw.recording task mime hrecording
      have hnote : (task.record m.echo mime).announcedMime = m.echo.announcedMime ∨
          (task.record m.echo mime).announcedMime = some mime.pointer := by
        cases task with
        | setText => exact Or.inl rfl
        | setImage | announce => exact Or.inr rfl
      refine ⟨hw.posting, hw.tasks, hw.current, ?_, ?_, by simp⟩
      · intro pointer hannounced
        rcases hnote with hsame | hnew
        · exact hw.announced pointer (hsame.symm.trans hannounced)
        · cases hnew.symm.trans hannounced
          exact hpointer
      · intro current hmime hforeign
        rw [hcurrent current hmime, hown] at hforeign
        cases hforeign
  | copied hidle => exact (setMimeData_wired hw hidle _).1
  | delivered =>
      refine (onClipboardChanged_alike lib qt { m with signalled := true } _).wired ?_
      exact ⟨hw.posting, hw.tasks, hw.current, hw.announced, hw.foreign, hw.recording⟩
  | retrieved => exact (waitForBytes_alike lib qt m _).wired hw
  | woken =>
      refine (finishWait_alike lib qt _ _ _).wired ?_
      exact ⟨hw.posting, hw.tasks, hw.current, hw.announced, hw.foreign, hw.recording⟩
  | destroyed =>
      refine ⟨hw.posting, hw.tasks, by simp, hw.announced, by simp, ?_⟩
      intro task mime hrecording
      obtain ⟨hpointer, hown, -⟩ := hw.recording task mime hrecording
      exact ⟨hpointer, hown, by simp⟩

/-! ## Up to date -/

/-- A consumer that waits, or that gets its data, leaves the cached text
alone. -/
theorem finishWait_consumer {lib : ImageLibrary} {w : Waiter} {bytes : Option Bytes}
    (hreader : w.reader ≠ .ownEcho) : (finishWait lib qt m w bytes).1 = m := by
  unfold finishWait
  cases hw : w.reader with
  | consumer => rfl
  | ownEcho => exact absurd hw hreader

/-- The end of a wait for the helper's own announcement. -/
theorem finishWait_ownEcho {lib : ImageLibrary} {w : Waiter} {bytes : Option Bytes}
    (hreader : w.reader = .ownEcho) :
    (finishWait lib qt m w bytes).1 = (textChanged m (readBack lib qt w bytes)).1 ∧
      ∀ payload, bytes = some payload → .took w.hash payload ∈ (finishWait lib qt m w bytes).2 := by
  unfold finishWait
  rw [hreader]
  refine ⟨rfl, ?_⟩
  rintro payload rfl
  simp

/-- The text that is read from an announced text. -/
theorem readBack_text (lib : ImageLibrary) (qt : Qt) (hash payload : Bytes) (reader : Reader) :
    readBack lib qt ⟨hash, .text, reader⟩ (some payload) = qt.toUtf8 (qt.fromUtf8 payload) := by
  simp [readBack, materialise, Variant.text]

/-- **The end of a wait for an announcement of the helper**: what is read is
expected and not cached, or the current text. -/
theorem finishWait_tracked {lib : ImageLibrary} {w : Waiter} {bytes : Option Bytes}
    (hu : Tracked qt h m) (hreader : w.reader = .ownEcho)
    (hread : m.echo.lastSetText = some (readBack lib qt w bytes) ∨
      w.kind = .text ∧ (∃ pointer, m.clipboard = some ⟨pointer, .delayed w.hash .text⟩) ∧
        ∃ payload, bytes = some payload)
    (hos : ∀ o ∈ (finishWait lib qt m w bytes).2, o ∈ h) :
    Tracked qt h (finishWait lib qt m w bytes).1 := by
  obtain ⟨hfinish, htook⟩ := @finishWait_ownEcho qt m lib w bytes hreader
  rw [hfinish]
  refine textChanged_tracked (fun _ => hu) ?_
  intro hlast
  rcases hread with hexpected | ⟨hkind, ⟨pointer, hclipboard⟩, payload, rfl⟩
  · exact absurd hexpected hlast
  · refine .of_shows hclipboard ?_
    obtain ⟨hash, kind, reader⟩ := w
    obtain rfl : kind = .text := hkind
    exact Or.inr ⟨payload, hos _ (htook payload rfl), by rw [readBack_text]⟩

theorem waitForBytes_tracked {lib : ImageLibrary} {w : Waiter} (hu : Tracked qt h m)
    (hreader : w.reader = .ownEcho)
    (hread : ∀ payload, m.state.dataFor w.hash = some payload →
      m.echo.lastSetText = some (readBack lib qt w (some payload)) ∨
      w.kind = .text ∧ ∃ pointer, m.clipboard = some ⟨pointer, .delayed w.hash .text⟩)
    (hos : ∀ o ∈ (waitForBytes lib qt m w).2, o ∈ h) :
    Tracked qt h (waitForBytes lib qt m w).1 := by
  unfold waitForBytes at hos ⊢
  cases hdata : m.state.dataFor w.hash with
  | some payload =>
      simp only [hdata] at hos ⊢
      refine finishWait_tracked hu hreader ?_ hos
      rcases hread payload hdata with hexpected | ⟨hkind, hclipboard⟩
      · exact Or.inl hexpected
      · exact Or.inr ⟨hkind, hclipboard, payload, rfl⟩
  | none =>
      simp only
      have hwaits : Tracked qt (h ++ []) { m with waiters := m.waiters ++ [w] } :=
        hu.frame id rfl rfl rfl rfl
      rwa [List.append_nil] at hwaits

/-- The helper's own objects have been shown all along. -/
theorem Tracked.own_shown {mime : Mime} (hu : Tracked qt h m) (hrunning : m.state.stop = false)
    (hclipboard : m.clipboard = some mime) (hown : mime.own = true) :
    TextQueued m.posting m.tasks ∨ Shows qt h m.cachedClipboardText mime.content := by
  rcases hu with hstopped | hq | hsignalled | hshown
  · rw [hrunning] at hstopped
    cases hstopped
  · exact Or.inl hq
  · obtain ⟨mime', hmime', hforeign, -⟩ := hsignalled
    rw [hclipboard] at hmime'
    cases hmime'
    rw [hown] at hforeign
    cases hforeign
  · unfold TextShown at hshown
    rw [hclipboard] at hshown
    exact Or.inr hshown

/-- **The bytes of the current object**, for an announced text or where what
they read as is expected. -/
theorem retrieve_tracked {lib : ImageLibrary} {mime : Mime} {hash : Bytes} {kind : ContentKind}
    (hclipboard : m.clipboard = some mime) (hcontent : mime.content = .delayed hash kind)
    (hu : ∀ os, Tracked qt (h ++ os) m)
    (hread : kind = .text ∨ ∀ payload, m.state.dataFor hash = some payload →
      m.echo.lastSetText = some (readBack lib qt ⟨hash, kind, .ownEcho⟩ (some payload)))
    (o : Obs) :
    Tracked qt (h ++ o :: (waitForBytes lib qt m ⟨hash, kind, .ownEcho⟩).2)
      (waitForBytes lib qt m ⟨hash, kind, .ownEcho⟩).1 := by
  refine waitForBytes_tracked (hu _) rfl ?_ ?_
  · intro payload hdata
    rcases hread with rfl | hexpected
    · refine Or.inr ⟨rfl, mime.pointer, ?_⟩
      rw [hclipboard, ← hcontent]
    · exact Or.inl (hexpected payload hdata)
  · intro o ho
    exact List.mem_append_right _ (List.mem_cons_of_mem _ ho)

/-- **One signal.** -/
theorem deliver_tracked {lib : ImageLibrary} {mime : Mime} (hw : Wired qt m) (hu : Tracked qt h m)
    (hrunning : m.state.stop = false) (hclipboard : m.clipboard = some mime)
    (hok : UpToDate lib qt m .deliver)
    (hstep : onClipboardChanged lib qt { m with signalled := true } mime = (m', os)) :
    Tracked qt (h ++ os) m' := by
  have halike := onClipboardChanged_alike lib qt { m with signalled := true } mime
  rw [hstep] at halike
  have hqueued : TextQueued m.posting m.tasks → Tracked qt (h ++ os) m' :=
    fun hq => halike.tracked (Or.inr (Or.inl hq))
  have hcurrent : ({ m with signalled := true } : Manager).clipboard = some mime := hclipboard
  have hshown := hu.own_shown hrunning hclipboard
  have hsame : Shows qt h m.cachedClipboardText mime.content →
      ∀ os, Tracked qt (h ++ os) { m with signalled := true } :=
    fun hs os => .of_shows hcurrent hs.append
  rcases hok mime hclipboard with hq | hok
  · exact hqueued hq
  · unfold onClipboardChanged at hstep
    simp only at hstep
    split at hstep
    · rename_i hannounced
      cases hstep
      cases hown : mime.own with
      | true => exact (hshown hown).elim hqueued (fun hs => hsame hs _)
      | false =>
          have hpointer : m.echo.announcedMime = some mime.pointer := by
            simpa [EchoSuppressor.isAnnouncedMime] using hannounced
          exact absurd hpointer (hw.foreign mime hclipboard hown)
    · rename_i hnot
      cases hcontent : mime.content with
      | text text =>
          have hown : mime.own = true := by simp [Mime.own, hcontent]
          simp only [hcontent] at hstep
          cases hstep
          rcases hshown hown with hq | hs
          · exact hqueued hq
          · refine textChanged_tracked (fun _ => hsame hs _) ?_
            intro _
            refine .of_shows hcurrent ?_
            rw [hcontent]
            exact ⟨_, rfl, Or.inr rfl⟩
      | image image =>
          have hown : mime.own = true := by simp [Mime.own, hcontent]
          simp only [hcontent] at hstep
          cases hstep
          exact (hshown hown).elim hqueued (fun hs => hsame hs _)
      | foreign text =>
          cases text with
          | none =>
              simp only [hcontent] at hstep hok
              cases hstep
              refine .of_shows hcurrent ?_
              rw [hcontent]
              exact hok
          | some text =>
              simp only [hcontent] at hstep hok
              cases hstep
              refine textChanged_tracked ?_ ?_
              · intro hlast
                refine .of_shows hcurrent ?_
                rw [hcontent]
                exact hok hlast
              · intro _
                refine .of_shows hcurrent ?_
                rw [hcontent]
                rfl
      | delayed hash kind =>
          have hown : mime.own = true := by simp [Mime.own, hcontent]
          rcases hshown hown with hq | hs
          · exact hqueued hq
          · cases kind with
            | image =>
                simp only [hcontent] at hstep
                cases hstep
                exact hsame hs _
            | text =>
                simp only [hcontent, Prod.mk.injEq] at hstep
                obtain ⟨rfl, rfl⟩ := hstep
                exact retrieve_tracked hcurrent hcontent (hsame hs) (Or.inl rfl) _
            | files =>
                simp only [hcontent] at hok
                simp only [hcontent, Prod.mk.injEq] at hstep
                obtain ⟨rfl, rfl⟩ := hstep
                have hexpected := hok.resolve_left hnot
                exact retrieve_tracked hcurrent hcontent (hsame hs) (Or.inr hexpected) _

/-- A waiter is told that its wait is over. -/
theorem wake_tracked {lib : ImageLibrary} {index : Nat} {deadline : Bool} {w : Waiter}
    {outcome : Outcome} (hu : Tracked qt h m) (hwaiter : m.waiters[index]? = some w)
    (houtcome : m.state.wake w.hash deadline = some outcome)
    (hok : UpToDate lib qt m (.wake index deadline))
    (hstep : finishWait lib qt { m with waiters := m.waiters.eraseIdx index } w
      (bytesOf outcome) = (m', os)) : Tracked qt (h ++ os) m' := by
  have herased : Tracked qt (h ++ os) { m with waiters := m.waiters.eraseIdx index } :=
    hu.frame id rfl rfl rfl rfl
  have halike := finishWait_alike lib qt { m with waiters := m.waiters.eraseIdx index } w
    (bytesOf outcome)
  have hm' : (finishWait lib qt { m with waiters := m.waiters.eraseIdx index } w
      (bytesOf outcome)).1 = m' := by rw [hstep]
  have hos : ∀ o ∈ (finishWait lib qt { m with waiters := m.waiters.eraseIdx index } w
      (bytesOf outcome)).2, o ∈ h ++ os := by
    rw [hstep]
    exact fun o ho => List.mem_append_right h ho
  rw [← hm']
  by_cases hreader : w.reader = .ownEcho
  · rcases hok w outcome hwaiter hreader houtcome with
      hstop | hqueued | hunseen | hexpected | hcurrent
    · exact halike.tracked (Or.inl hstop)
    · exact halike.tracked (Or.inr (Or.inl hqueued))
    · exact halike.tracked (Or.inr (Or.inr hunseen))
    · exact finishWait_tracked herased hreader (Or.inl hexpected) hos
    · exact finishWait_tracked herased hreader (Or.inr hcurrent) hos
  · rw [finishWait_consumer hreader]
    exact herased

/-! ## Runs -/

/-- **Every step that keeps the cached text up to date keeps the
invariant.** -/
theorem step_tracked {lib : ImageLibrary} {a : Action} (hw : Wired qt m) (hu : Tracked qt h m)
    (hok : UpToDate lib qt m a) (hstep : (machine lib qt).step m a = some (m', os)) :
    Tracked qt (h ++ os) m' := by
  -- a task that takes the place of none
  have hposts : ∀ posting, m.posting = none → TextQueued m.posting m.tasks →
      TextQueued posting m.tasks := by
    rintro posting hnone ⟨text, utf8, hposting | hmem⟩
    · rw [hnone] at hposting
      cases hposting
    · exact ⟨text, utf8, Or.inr hmem⟩
  cases step_cases hstep with
  | textSet => exact Or.inr (Or.inl ⟨_, _, Or.inl rfl⟩)
  | imageSet hidle | announced hidle => exact hu.frame (hposts _ hidle) rfl rfl rfl rfl
  | provided hstate =>
      refine hu.frame id rfl ?_ rfl rfl
      unfold State.provideData at hstate
      split at hstate
      · cases hstate
      · cases hstate
        rfl
  | imageRefused | discarded | recorded | asleep => exact hu.frame id rfl rfl rfl rfl
  | posted hposting =>
      refine hu.frame ?_ rfl rfl rfl rfl
      rintro ⟨text, utf8, hnext | hmem⟩
      · rw [hposting] at hnext
        cases hnext
        exact ⟨text, utf8, Or.inr (by simp)⟩
      · exact ⟨text, utf8, Or.inr (List.mem_append_left _ hmem)⟩
  | @ran task tasks htasks =>
      rcases hok task tasks htasks with hqueued | hcached
      · exact Or.inr (Or.inl hqueued)
      · have hcurrent : (setMimeData { m with tasks := tasks } task.content).clipboard =
            some ⟨m.nextPointer, task.content⟩ := rfl
        refine .of_shows hcurrent ?_
        have hsame : (setMimeData { m with tasks := tasks }
            task.content).cachedClipboardText = textOfTask task := hcached
        simp only [hsame]
        cases task with
        | setText text utf8 =>
            have htext := hw.tasks text utf8 (by simp [htasks])
            exact ⟨utf8, rfl, Or.inl htext.symm⟩
        | setImage image => rfl
        | announce contentHash kind =>
            cases kind with
            | text => exact Or.inl rfl
            | image | files => rfl
  | copied => exact Or.inr (Or.inr (Or.inl ⟨_, rfl, rfl, rfl⟩))
  | delivered hclipboard hrunning => exact deliver_tracked hw hu hrunning hclipboard hok rfl
  | retrieved =>
      unfold waitForBytes
      split
      · rw [finishWait_consumer (by simp)]
        exact hu.frame id rfl rfl rfl rfl
      · exact hu.frame id rfl rfl rfl rfl
  | woken hwaiter houtcome => exact wake_tracked hu hwaiter houtcome hok rfl
  | destroyed => exact Or.inl rfl

theorem run_tracked {lib : ImageLibrary}
    (hrun : (machine lib qt).Run (UpToDate lib qt) {} h m) : Wired qt m ∧ Tracked qt h m := by
  refine hrun.history_invariant (fun h m => Wired qt m ∧ Tracked qt h m) ?_ ?_
  · refine ⟨?_, Or.inr (Or.inr (Or.inr rfl))⟩
    constructor <;> simp
  · intro h m a m' os hi hok hstep
    exact ⟨step_wired hi.1 hstep, step_tracked hi.1 hi.2 hok hstep⟩

/-- **The cached text is that of the current object** whenever nothing is
queued, in every run whose steps keep it up to date. -/
theorem cached_text_fresh {lib : ImageLibrary}
    (hrun : (machine lib qt).Run (UpToDate lib qt) {} h m) (hquiet : Quiescent m) :
    TextShown qt h m := by
  rcases (run_tracked hrun).2 with hstop | ⟨text, utf8, hposting | hmem⟩ | hunseen | hshown
  · rw [hquiet.running] at hstop
    cases hstop
  · rw [hquiet.posting] at hposting
    cases hposting
  · rw [hquiet.tasks] at hmem
    cases hmem
  · obtain ⟨mime, hclipboard, hforeign, hsignalled⟩ := hunseen
    rw [hquiet.signalled mime hclipboard hforeign] at hsignalled
    cases hsignalled
  · exact hshown

end X11Freshness
