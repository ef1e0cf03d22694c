import ClipboardHelper.X11Clipboard

/-!
# Echo suppression on X11

`dataChanged` does not say who changed the clipboard.  The helper recognises
its own objects in two ways: an image or a delayed object by its pointer, as
long as it lives; a text by its content, once.

**`echo_suppressed`** says how far that goes.  Assume that Qt signals every
object before it is replaced, that it does so after `setMimeData` has
returned, and that the texts that are set survive Qt's conversion from UTF-8
and back.  Then a signal for an object of the helper is ignored, except that
the second and every later signal for one text reports that text again; the
helper's own delayed objects are never asked for their text; and every text
that another application copies is reported.

The exception is the price of the one-shot text expectation
(`text_reported_twice`).  The two last assumptions are needed as well: what is
noted after `setMimeData` is not there yet for a signal inside it.
-/

namespace X11Echo

open Library PasteFormats DelayedSlot X11Clipboard

/-! ## Statement -/

/-- A text comes back from Qt as it went in. -/
def Survives (qt : Qt) (utf8 : Bytes) : Prop := qt.toUtf8 (qt.fromUtf8 utf8) = utf8

/-- **The assumptions on a run**: texts survive Qt, no signal is delivered
inside `setMimeData`, an object is signalled before it is replaced, and the
manager lives. -/
def Orderly (qt : Qt) (m : Manager) : Action → Prop
  | .setClipboardText utf8 => Survives qt utf8
  | .deliver => m.recording = none
  | .runTask | .copy _ => m.clipboard = none ∨ m.signalled = true
  | .destroy => False
  | _ => True

/-- What a signal may come to, after the history `before`. -/
def Suppressed (qt : Qt) (before : List Obs) : Obs → Prop
  | .delivered mime _ reaction =>
    (mime.own = true → reaction = .ignored ∨
      ∃ text, mime.content = .text text ∧ reaction = .reported (qt.toUtf8 text) ∧
        ∃ inside first, .delivered mime inside first ∈ before) ∧
    (∀ text, mime.content = .foreign (some text) → reaction = .reported (qt.toUtf8 text))
  | .resumed _ => False
  | _ => True

/-- Every text that another application copied has been reported, unless its
signal is still to come. -/
def CopiesReported (qt : Qt) (h : List Obs) (m : Manager) : Prop :=
  ∀ mime text, .copied mime ∈ h → mime.content = .foreign (some text) →
    (m.clipboard = some mime ∧ m.signalled = false) ∨
      ∃ inside, .delivered mime inside (.reported (qt.toUtf8 text)) ∈ h

/-! ## Invariant -/

/-- What the suppressor expects while `mime` is current and no task runs: the
pointer of an image or a delayed object, the content of a text until its
first signal, nothing else. -/
def Expects (qt : Qt) (h : List Obs) (m : Manager) (mime : Mime) : Prop :=
  match mime.content with
  | .text text =>
    m.echo.announcedMime ≠ some mime.pointer ∧
      (m.signalled = false → m.echo.lastSetText = some (qt.toUtf8 text)) ∧
      (m.signalled = true → m.echo.lastSetText = none ∧
        ∃ inside first, .delivered mime inside first ∈ h)
  | .foreign _ => m.echo.announcedMime ≠ some mime.pointer ∧ m.echo.lastSetText = none
  | .image _ | .delayed _ _ =>
    m.echo.announcedMime = some mime.pointer ∧ m.echo.lastSetText = none

/-- A task that sets a text notes what its echo will show. -/
def Faithful (qt : Qt) (task : Task) : Prop :=
  ∀ text utf8, task = .setText text utf8 → qt.toUtf8 text = utf8

structure Settled (qt : Qt) (h : List Obs) (m : Manager) : Prop where
  current : ∀ mime, m.clipboard = some mime → mime.pointer < m.nextPointer
  announced : ∀ pointer, m.echo.announcedMime = some pointer → pointer < m.nextPointer
  posting : ∀ task, m.posting = some task → Faithful qt task
  tasks : ∀ task ∈ m.tasks, Faithful qt task
  recording : ∀ task mime, m.recording = some (task, mime) →
    Faithful qt task ∧ m.clipboard = some mime ∧ mime.content = task.content ∧
      m.signalled = false ∧ m.echo.lastSetText = none ∧
      m.echo.announcedMime ≠ some mime.pointer
  expects : m.recording = none → ∀ mime, m.clipboard = some mime → Expects qt h m mime
  empty : m.recording = none → m.clipboard = none → m.echo.lastSetText = none
  waiters : ∀ w ∈ m.waiters, w.reader ≠ .ownEcho
  copies : CopiesReported qt h m

variable {qt : Qt} {h os : List Obs} {m m' : Manager}

theorem Expects.append {mime : Mime} (he : Expects qt h m mime) : Expects qt (h ++ os) m mime := by
  unfold Expects at he ⊢
  cases hcontent : mime.content with
  | text text =>
      simp only [hcontent] at he
      refine ⟨he.1, he.2.1, ?_⟩
      intro hsignalled
      obtain ⟨hnone, inside, first, hmem⟩ := he.2.2 hsignalled
      exact ⟨hnone, inside, first, List.mem_append_left os hmem⟩
  | image image => simpa only [hcontent] using he
  | delayed hash kind => simpa only [hcontent] using he
  | foreign text => simpa only [hcontent] using he

theorem CopiesReported.append (hc : CopiesReported qt h m)
    (hos : ∀ mime, .copied mime ∉ os) : CopiesReported qt (h ++ os) m := by
  intro mime text hmem hcontent
  rcases List.mem_append.mp hmem with hmem | hmem
  · rcases hc mime text hmem hcontent with hwaiting | ⟨inside, hreported⟩
    · exact .inl hwaiting
    · exact .inr ⟨inside, List.mem_append_left os hreported⟩
  · exact absurd hmem (hos mime)

/-- When an object may be replaced, no text is expected any more. -/
theorem Settled.noText (hi : Settled qt h m) (hidle : m.recording = none)
    (hseen : m.clipboard = none ∨ m.signalled = true) : m.echo.lastSetText = none := by
  cases hclipboard : m.clipboard with
  | none => exact hi.empty hidle hclipboard
  | some mime =>
      have hsignalled : m.signalled = true := by simpa [hclipboard] using hseen
      have he := hi.expects hidle mime hclipboard
      unfold Expects at he
      cases hcontent : mime.content with
      | text text =>
          simp only [hcontent] at he
          exact (he.2.2 hsignalled).1
      | image image =>
          simp only [hcontent] at he
          exact he.2
      | delayed hash kind =>
          simp only [hcontent] at he
          exact he.2
      | foreign text =>
          simp only [hcontent] at he
          exact he.2

/-- When an object may be replaced, its copy has been reported. -/
theorem CopiesReported.seen (hc : CopiesReported qt h m)
    (hseen : m.clipboard = none ∨ m.signalled = true) {mime : Mime} {text : QString}
    (hmem : .copied mime ∈ h) (hcontent : mime.content = .foreign (some text)) :
    ∃ inside, .delivered mime inside (.reported (qt.toUtf8 text)) ∈ h := by
  rcases hc mime text hmem hcontent with ⟨hclipboard, hsignalled⟩ | hreported
  · rcases hseen with hnone | htrue
    · rw [hnone] at hclipboard
      cases hclipboard
    · rw [htrue] at hsignalled
      cases hsignalled
  · exact hreported

/-- `setMimeData` destroys an object; the text expectation stays. -/
theorem setMimeData_lastSetText (m : Manager) (content : Content) :
    (setMimeData m content).echo.lastSetText = m.echo.lastSetText := by
  unfold setMimeData EchoSuppressor.destroyed
  cases m.clipboard with
  | none => rfl
  | some old =>
      simp only
      split <;> rfl

theorem setMimeData_announced (content : Content) {pointer : Nat}
    (h : (setMimeData m content).echo.announcedMime = some pointer) :
    m.echo.announcedMime = some pointer := by
  unfold setMimeData EchoSuppressor.destroyed at h
  cases hclipboard : m.clipboard with
  | none => simpa [hclipboard] using h
  | some old =>
      simp only [hclipboard] at h
      split at h
      · cases h
      · exact h

/-- The new object is not the announced one. -/
theorem Settled.fresh_pointer (hi : Settled qt h m) (content : Content) :
    (setMimeData m content).echo.announcedMime ≠ some m.nextPointer := by
  intro hsame
  have hlt := hi.announced _ (setMimeData_announced content hsame)
  exact Nat.lt_irrefl _ hlt

theorem textChanged_none {utf8 : Bytes} (hnone : m.echo.lastSetText = none) :
    textChanged m utf8 = ({ m with cachedClipboardText := some utf8 }, .reported utf8) := by
  simp [textChanged, EchoSuppressor.consumeEagerSetTextEcho, hnone]

theorem textChanged_echo {utf8 : Bytes} (hsome : m.echo.lastSetText = some utf8) :
    textChanged m utf8 = ({ m with echo := { m.echo with lastSetText := none } }, .ignored) := by
  simp [textChanged, EchoSuppressor.consumeEagerSetTextEcho, hsome]

/-! ## Steps -/

/-- A step that leaves the clipboard and the suppressor alone. -/
theorem Settled.frame (hi : Settled qt h m) (hclipboard : m'.clipboard = m.clipboard)
    (hecho : m'.echo = m.echo) (hrecording : m'.recording = m.recording)
    (hsignalled : m'.signalled = m.signalled) (hpointer : m'.nextPointer = m.nextPointer)
    (hposting : ∀ task, m'.posting = some task → Faithful qt task)
    (htasks : ∀ task ∈ m'.tasks, Faithful qt task)
    (hwaiters : ∀ w ∈ m'.waiters, w.reader ≠ .ownEcho)
    (hos : ∀ mime, .copied mime ∉ os) : Settled qt (h ++ os) m' where
  current := by rw [hclipboard, hpointer]; exact hi.current
  announced := by rw [hecho, hpointer]; exact hi.announced
  posting := hposting
  tasks := htasks
  recording := by rw [hrecording, hclipboard, hsignalled, hecho]; exact hi.recording
  expects := by
    rw [hrecording, hclipboard]
    intro hidle mime hmime
    have he : Expects qt (h ++ os) m mime := (hi.expects hidle mime hmime).append
    unfold Expects at he ⊢
    rw [hecho, hsignalled]
    exact he
  empty := by rw [hrecording, hclipboard, hecho]; exact hi.empty
  waiters := hwaiters
  copies := by
    have hc := hi.copies.append hos
    unfold CopiesReported at hc ⊢
    rw [hclipboard, hsignalled]
    exact hc

theorem Settled.post {task : Task} (hi : Settled qt h m) (hposting : m.posting = some task) :
    Settled qt (h ++ []) { m with posting := none, tasks := m.tasks ++ [task] } := by
  refine hi.frame rfl rfl rfl rfl rfl (by simp) ?_ hi.waiters (by simp)
  intro task' hmem
  rcases List.mem_append.mp hmem with hmem | hmem
  · exact hi.tasks task' hmem
  · rw [List.mem_singleton.mp hmem]
    exact hi.posting task hposting

/-- A task that puts its object on the clipboard. -/
theorem Settled.runTask {task : Task} {tasks : List Task} (hi : Settled qt h m)
    (htasks : m.tasks = task :: tasks) (hidle : m.recording = none)
    (hseen : m.clipboard = none ∨ m.signalled = true) :
    Settled qt (h ++ [])
      { setMimeData { m with tasks := tasks } task.content with
        recording := some (task, ⟨m.nextPointer, task.content⟩) } := by
  have hfaithful : ∀ t ∈ task :: tasks, Faithful qt t := htasks ▸ hi.tasks
  have hlast : (setMimeData { m with tasks := tasks } task.content).echo.lastSetText = none :=
    (setMimeData_lastSetText _ _).trans (hi.noText hidle hseen)
  have hfresh : (setMimeData { m with tasks := tasks } task.content).echo.announcedMime ≠
      some m.nextPointer :=
    hi.fresh_pointer task.content
  exact
    { current := by
        intro mime hmime
        cases hmime
        exact Nat.lt_succ_self m.nextPointer
      announced := by
        intro pointer hpointer
        exact Nat.lt_succ_of_lt
          (hi.announced pointer (setMimeData_announced task.content hpointer))
      posting := hi.posting
      tasks := fun t hmem => hfaithful t (List.mem_cons_of_mem task hmem)
      recording := by
        intro task' mime hrec
        cases hrec
        exact ⟨hfaithful task List.mem_cons_self, rfl, rfl, rfl, hlast, hfresh⟩
      expects := by
        intro hnone
        cases hnone
      empty := by
        intro hnone
        cases hnone
      waiters := hi.waiters
      copies := by
        rw [List.append_nil]
        intro mime text hmem hcontent
        exact .inr (hi.copies.seen hseen hmem hcontent) }

/-- The rest of a task: now the suppressor expects the object. -/
theorem Settled.record {task : Task} {mime : Mime} (hi : Settled qt h m)
    (hrecording : m.recording = some (task, mime)) :
    Settled qt (h ++ []) { m with echo := task.record m.echo mime, recording := none } := by
  obtain ⟨hfaithful, hclipboard, hcontent, hsignalled, hlast, hpointer⟩ :=
    hi.recording task mime hrecording
  rw [List.append_nil]
  exact
    { current := hi.current
      announced := by
        intro pointer hannounced
        cases task with
        | setText text utf8 => exact hi.announced pointer hannounced
        | setImage image =>
            cases hannounced
            exact hi.current mime hclipboard
        | announce contentHash kind =>
            cases hannounced
            exact hi.current mime hclipboard
      posting := hi.posting
      tasks := hi.tasks
      recording := by
        intro task' mime' hrec
        cases hrec
      expects := by
        intro _ mime' hmime'
        have hsame : mime = mime' := Option.some.inj (hclipboard.symm.trans hmime')
        subst hsame
        unfold Expects
        rw [hcontent]
        cases task with
        | setText text utf8 =>
            refine ⟨hpointer, ?_, ?_⟩
            · intro _
              rw [hfaithful text utf8 rfl]
              rfl
            · intro htrue
              rw [hsignalled] at htrue
              cases htrue
        | setImage image => exact ⟨rfl, hlast⟩
        | announce contentHash kind => exact ⟨rfl, hlast⟩
      empty := by
        intro _ hnone
        rw [hclipboard] at hnone
        cases hnone
      waiters := hi.waiters
      copies := hi.copies }

/-- Another application takes the clipboard. -/
theorem Settled.copy (hi : Settled qt h m) (text : Option QString) (hidle : m.recording = none)
    (hseen : m.clipboard = none ∨ m.signalled = true) :
    Settled qt (h ++ [.copied ⟨m.nextPointer, .foreign text⟩])
      (setMimeData m (.foreign text)) where
  current := by
    intro mime hmime
    cases hmime
    exact Nat.lt_succ_self m.nextPointer
  announced := by
    intro pointer hpointer
    exact Nat.lt_succ_of_lt
      (hi.announced pointer (setMimeData_announced (.foreign text) hpointer))
  posting := hi.posting
  tasks := hi.tasks
  recording := by
    intro task mime hrec
    have hnone : m.recording = some (task, mime) := hrec
    rw [hidle] at hnone
    cases hnone
  expects := by
    intro _ mime hmime
    cases hmime
    exact ⟨hi.fresh_pointer _, (setMimeData_lastSetText m _).trans (hi.noText hidle hseen)⟩
  empty := by
    intro _ hnone
    cases hnone
  waiters := hi.waiters
  copies := by
    intro mime text' hmem hcontent
    rcases List.mem_append.mp hmem with hmem | hmem
    · obtain ⟨inside, hreported⟩ := hi.copies.seen hseen hmem hcontent
      exact .inr ⟨inside, List.mem_append_left _ hreported⟩
    · have hsame : mime = ⟨m.nextPointer, .foreign text⟩ := by simpa using hmem
      exact .inl ⟨by rw [hsame]; rfl, rfl⟩

/-- After a signal that changes at most the text expectation and the cached
text, the invariant needs to be shown for the current object only. -/
theorem Settled.delivered {mime : Mime} {reaction : Reaction} (hi : Settled qt h m)
    (hidle : m.recording = none) (hclipboard : m.clipboard = some mime)
    (cached : Option Bytes) (lastSetText : Option Bytes)
    (hexpects : Expects qt (h ++ [.delivered mime false reaction])
      { m with
        signalled := true, cachedClipboardText := cached,
        echo := { m.echo with lastSetText := lastSetText } } mime)
    (hreported : ∀ text, mime.content = .foreign (some text) →
      reaction = .reported (qt.toUtf8 text)) :
    Settled qt (h ++ [.delivered mime false reaction])
      { m with
        signalled := true, cachedClipboardText := cached,
        echo := { m.echo with lastSetText := lastSetText } } where
  current := hi.current
  announced := hi.announced
  posting := hi.posting
  tasks := hi.tasks
  recording := by
    intro task mime' hrec
    have hnone : m.recording = some (task, mime') := hrec
    rw [hidle] at hnone
    cases hnone
  expects := by
    intro _ mime' hmime'
    have hsame : mime = mime' := Option.some.inj (hclipboard.symm.trans hmime')
    exact hsame ▸ hexpects
  empty := by
    intro _ hnone
    have hclear : m.clipboard = none := hnone
    rw [hclipboard] at hclear
    cases hclear
  waiters := hi.waiters
  copies := by
    intro mime' text hmem hcontent
    have hmem' : .copied mime' ∈ h := by simpa using hmem
    rcases hi.copies mime' text hmem' hcontent with ⟨hcurrent, -⟩ | ⟨inside, hbefore⟩
    · have hsame : mime = mime' := Option.some.inj (hclipboard.symm.trans hcurrent)
      subst hsame
      exact .inr ⟨false, by rw [hreported text hcontent]; simp⟩
    · exact .inr ⟨inside, List.mem_append_left _ hbefore⟩

section Signal

variable {lib : ImageLibrary} {mime : Mime}

theorem onClipboardChanged_announced (hidle : m.recording = none)
    (h : m.echo.announcedMime = some mime.pointer) :
    onClipboardChanged lib qt m mime = (m, [.delivered mime false .ignored]) := by
  simp [onClipboardChanged, EchoSuppressor.isAnnouncedMime, h, hidle]

theorem onClipboardChanged_silent (hidle : m.recording = none)
    (h : mime.content = .foreign none) :
    onClipboardChanged lib qt m mime = (m, [.delivered mime false .ignored]) := by
  simp [onClipboardChanged, h, hidle]

theorem onClipboardChanged_text {text : QString} (hidle : m.recording = none)
    (hpointer : m.echo.announcedMime ≠ some mime.pointer)
    (htext : mime.content = .text text ∨ mime.content = .foreign (some text)) :
    onClipboardChanged lib qt m mime = ((textChanged m (qt.toUtf8 text)).1,
      [.delivered mime false (textChanged m (qt.toUtf8 text)).2]) := by
  rcases htext with htext | htext
  · simp [onClipboardChanged, EchoSuppressor.isAnnouncedMime, hpointer, htext, hidle]
  · simp [onClipboardChanged, EchoSuppressor.isAnnouncedMime, hpointer, htext, hidle]

/-- A signal for an object that the suppressor knows by its pointer. -/
theorem Settled.deliver_announced (hi : Settled qt h m) (hidle : m.recording = none)
    (hclipboard : m.clipboard = some mime)
    (hforeign : ∀ text, mime.content ≠ .foreign text)
    (hpointer : m.echo.announcedMime = some mime.pointer) (hexpects : ∀ h', Expects qt h'
      { m with signalled := true } mime)
    (hstep : onClipboardChanged lib qt { m with signalled := true } mime = (m', os)) :
    Settled qt (h ++ os) m' ∧ ∃ o, os = [o] ∧ Suppressed qt h o := by
  rw [onClipboardChanged_announced (m := { m with signalled := true }) hidle hpointer] at hstep
  cases hstep
  refine ⟨?_, _, rfl, fun _ => .inl rfl, fun text h' => absurd h' (hforeign _)⟩
  exact hi.delivered hidle hclipboard m.cachedClipboardText m.echo.lastSetText (hexpects _)
    (fun text h' => absurd h' (hforeign _))

/-- A signal for a text of the helper: the first uses the expectation up,
every other reports the text. -/
theorem Settled.deliver_text {text : QString} (hi : Settled qt h m) (hidle : m.recording = none)
    (hclipboard : m.clipboard = some mime) (hcontent : mime.content = .text text)
    (hstep : onClipboardChanged lib qt { m with signalled := true } mime = (m', os)) :
    Settled qt (h ++ os) m' ∧ ∃ o, os = [o] ∧ Suppressed qt h o := by
  have he := hi.expects hidle mime hclipboard
  simp only [Expects, hcontent] at he
  obtain ⟨hpointer, hunseen, hseen⟩ := he
  have hforeign : ∀ text', mime.content ≠ .foreign (some text') := by simp [hcontent]
  rw [onClipboardChanged_text (m := { m with signalled := true }) hidle hpointer
    (.inl hcontent)] at hstep
  cases hsignalled : m.signalled with
  | false =>
      have hlast : ({ m with signalled := true } : Manager).echo.lastSetText =
          some (qt.toUtf8 text) := hunseen hsignalled
      rw [textChanged_echo hlast] at hstep
      cases hstep
      refine ⟨?_, _, rfl, fun _ => .inl rfl, fun text' h' => absurd h' (hforeign text')⟩
      refine hi.delivered hidle hclipboard m.cachedClipboardText none ?_
        (fun text' h' => absurd h' (hforeign text'))
      simp [Expects, hcontent, hpointer]
  | true =>
      obtain ⟨hlast, inside, first, hfirst⟩ := hseen hsignalled
      have hlast' : ({ m with signalled := true } : Manager).echo.lastSetText = none := hlast
      rw [textChanged_none hlast'] at hstep
      cases hstep
      refine ⟨?_, _, rfl, fun _ => .inr ⟨text, hcontent, rfl, inside, first, hfirst⟩,
        fun text' h' => absurd h' (hforeign text')⟩
      refine hi.delivered hidle hclipboard (some (qt.toUtf8 text)) m.echo.lastSetText ?_
        (fun text' h' => absurd h' (hforeign text'))
      simp [Expects, hcontent, hpointer, hlast]

/-- A signal for an object of another application. -/
theorem Settled.deliver_foreign {text : Option QString} (hi : Settled qt h m)
    (hidle : m.recording = none) (hclipboard : m.clipboard = some mime)
    (hcontent : mime.content = .foreign text)
    (hstep : onClipboardChanged lib qt { m with signalled := true } mime = (m', os)) :
    Settled qt (h ++ os) m' ∧ ∃ o, os = [o] ∧ Suppressed qt h o := by
  have he := hi.expects hidle mime hclipboard
  simp only [Expects, hcontent] at he
  obtain ⟨hpointer, hlast⟩ := he
  have hnot : mime.own ≠ true := by simp [Mime.own, hcontent]
  cases text with
  | none =>
      rw [onClipboardChanged_silent (m := { m with signalled := true }) hidle hcontent] at hstep
      cases hstep
      refine ⟨?_, _, rfl, fun hown => absurd hown hnot, by simp [hcontent]⟩
      refine hi.delivered hidle hclipboard m.cachedClipboardText m.echo.lastSetText ?_
        (by simp [hcontent])
      simp [Expects, hcontent, hpointer, hlast]
  | some text =>
      have hlast' : ({ m with signalled := true } : Manager).echo.lastSetText = none := hlast
      rw [onClipboardChanged_text (m := { m with signalled := true }) hidle hpointer
        (.inr hcontent), textChanged_none hlast'] at hstep
      cases hstep
      refine ⟨?_, _, rfl, fun hown => absurd hown hnot, ?_⟩
      · refine hi.delivered hidle hclipboard (some (qt.toUtf8 text)) m.echo.lastSetText ?_
          (by simp [hcontent])
        simp [Expects, hcontent, hpointer, hlast]
      · simp [hcontent]

/-- **One signal**: the invariant stays, and the reaction is as it should
be. -/
theorem Settled.deliver (hi : Settled qt h m) (hidle : m.recording = none)
    (hclipboard : m.clipboard = some mime)
    (hstep : onClipboardChanged lib qt { m with signalled := true } mime = (m', os)) :
    Settled qt (h ++ os) m' ∧ ∃ o, os = [o] ∧ Suppressed qt h o := by
  have he := hi.expects hidle mime hclipboard
  cases hcontent : mime.content with
  | text text => exact hi.deliver_text hidle hclipboard hcontent hstep
  | foreign text => exact hi.deliver_foreign hidle hclipboard hcontent hstep
  | image image =>
      simp only [Expects, hcontent] at he
      exact hi.deliver_announced hidle hclipboard (by simp [hcontent]) he.1
        (fun h' => by simpa only [Expects, hcontent] using he) hstep
  | delayed hash kind =>
      simp only [Expects, hcontent] at he
      exact hi.deliver_announced hidle hclipboard (by simp [hcontent]) he.1
        (fun h' => by simpa only [Expects, hcontent] using he) hstep

end Signal

/-- A wait for a consumer leaves the clipboard and the suppressor alone. -/
theorem Settled.finishWait {lib : ImageLibrary} {w : Waiter} {bytes : Option Bytes}
    (hi : Settled qt h m) (hreader : w.reader ≠ .ownEcho)
    (hstep : finishWait lib qt m w bytes = (m', os)) :
    Settled qt (h ++ os) m' ∧ ∀ o ∈ os, ∀ before, Suppressed qt before o := by
  unfold X11Clipboard.finishWait at hstep
  cases hw : w.reader with
  | ownEcho => exact absurd hw hreader
  | consumer mimeType type =>
      simp only [hw] at hstep
      cases hstep
      refine ⟨hi.frame rfl rfl rfl rfl rfl hi.posting hi.tasks hi.waiters (by simp), ?_⟩
      intro o hmem before
      rcases List.mem_append.mp hmem with hmem | hmem
      · obtain ⟨payload, -, rfl⟩ := List.mem_map.mp hmem
        trivial
      · rw [List.mem_singleton.mp hmem]
        trivial

theorem Settled.waitForBytes {lib : ImageLibrary} {w : Waiter} (hi : Settled qt h m)
    (hreader : w.reader ≠ .ownEcho) (hstep : waitForBytes lib qt m w = (m', os)) :
    Settled qt (h ++ os) m' ∧ ∀ o ∈ os, ∀ before, Suppressed qt before o := by
  unfold X11Clipboard.waitForBytes at hstep
  split at hstep
  · exact hi.finishWait hreader hstep
  · cases hstep
    refine ⟨hi.frame rfl rfl rfl rfl rfl hi.posting hi.tasks ?_ (by simp), ?_⟩
    · intro w' hmem
      rcases List.mem_append.mp hmem with hmem | hmem
      · exact hi.waiters w' hmem
      · rw [List.mem_singleton.mp hmem]
        exact hreader
    · intro o hmem before
      rw [List.mem_singleton.mp hmem]
      trivial

/-- **One step of an orderly run** keeps the invariant and the statement. -/
theorem step_settled {lib : ImageLibrary} {a : Action} (hi : Settled qt h m)
    (hw : Whenever (Suppressed qt) h) (hok : Orderly qt m a)
    (hstep : (machine lib qt).step m a = some (m', os)) :
    Settled qt (h ++ os) m' ∧ Whenever (Suppressed qt) (h ++ os) := by
  -- an observation that is no signal is never in question
  have hplain : (∀ o ∈ os, ∀ before, Suppressed qt before o) → Whenever (Suppressed qt) (h ++ os) :=
    fun hos => hw.append (fun before o after heq => hos o (by simp [heq]) _)
  cases step_cases hstep with
  | textSet =>
      refine ⟨hi.frame rfl rfl rfl rfl rfl ?_ hi.tasks hi.waiters (by simp), hplain (by simp)⟩
      intro task htask text utf8 heq
      cases htask
      cases heq
      exact hok
  | imageSet =>
      refine ⟨hi.frame rfl rfl rfl rfl rfl ?_ hi.tasks hi.waiters (by simp), hplain (by simp)⟩
      intro task htask text utf8 heq
      cases htask
      cases heq
  | announced =>
      refine ⟨hi.frame rfl rfl rfl rfl rfl ?_ hi.tasks hi.waiters (by simp), hplain ?_⟩
      · intro task htask text utf8 heq
        cases htask
        cases heq
      · intro o hmem before
        rw [List.mem_singleton.mp hmem]
        trivial
  | provided | discarded =>
      refine ⟨hi.frame rfl rfl rfl rfl rfl hi.posting hi.tasks hi.waiters (by simp), hplain ?_⟩
      intro o hmem before
      rw [List.mem_singleton.mp hmem]
      trivial
  | imageRefused | asleep =>
      exact ⟨hi.frame rfl rfl rfl rfl rfl hi.posting hi.tasks hi.waiters (by simp),
        hplain (by simp)⟩
  | posted hposting => exact ⟨hi.post hposting, hplain (by simp)⟩
  | ran htasks hidle => exact ⟨hi.runTask htasks hidle hok, hplain (by simp)⟩
  | recorded hrecording => exact ⟨hi.record hrecording, hplain (by simp)⟩
  | copied hidle =>
      refine ⟨hi.copy _ hidle hok, hplain ?_⟩
      intro o hmem before
      rw [List.mem_singleton.mp hmem]
      trivial
  | @delivered mime hclipboard =>
      obtain ⟨hsettled, o, hobs, ho⟩ :
          Settled qt (h ++ (onClipboardChanged lib qt { m with signalled := true } mime).2)
            (onClipboardChanged lib qt { m with signalled := true } mime).1 ∧
          ∃ o, (onClipboardChanged lib qt { m with signalled := true } mime).2 = [o] ∧
            Suppressed qt h o :=
        hi.deliver hok hclipboard rfl
      refine ⟨hsettled, ?_⟩
      rw [hobs]
      exact hw.snoc ho
  | @retrieved mimeType type pointer hash kind =>
      have hreader : (⟨hash, kind, .consumer mimeType type⟩ : Waiter).reader ≠ .ownEcho := by simp
      exact ⟨(hi.waitForBytes hreader rfl).1, hplain (hi.waitForBytes hreader rfl).2⟩
  | @woken index deadline w outcome hwaiter =>
      have hreader := hi.waiters w (List.mem_of_getElem? hwaiter)
      have herased : Settled qt (h ++ []) { m with waiters := m.waiters.eraseIdx index } := by
        refine hi.frame rfl rfl rfl rfl rfl hi.posting hi.tasks ?_ (by simp)
        intro w' hmem
        exact hi.waiters w' (List.mem_of_mem_eraseIdx hmem)
      rw [List.append_nil] at herased
      obtain ⟨hsettled, hos⟩ := herased.finishWait hreader rfl
      exact ⟨hsettled, hplain hos⟩
  | destroyed => exact hok.elim

theorem settled_initial (qt : Qt) : Settled qt [] {} where
  current := by simp
  announced := by simp
  posting := by simp
  tasks := by simp
  recording := by simp
  expects := by simp
  empty := by simp
  waiters := by simp
  copies := by
    intro mime text hmem
    cases hmem

/-- Qt over ASCII texts. -/
def asciiQt : Qt where
  fromUtf8 bytes := bytes.map UInt8.toUInt16
  toUtf8 text := text.map UInt16.toUInt8

/-- No picture is ever decoded. -/
def blindLibrary : ImageLibrary where
  webPGetInfo _ := none
  webPDecodeRGBA _ := none
  save _ _ := none

/-- Decides `Orderly` over `asciiQt`. -/
def testOrderly (m : Manager) : Action → Bool
  | .setClipboardText utf8 => asciiQt.toUtf8 (asciiQt.fromUtf8 utf8) == utf8
  | .deliver => m.recording.isNone
  | .runTask | .copy _ => m.clipboard.isNone || m.signalled
  | .destroy => false
  | _ => true

theorem orderly_of_test (m : Manager) (a : Action) (h : testOrderly m a = true) :
    Orderly asciiQt m a := by
  cases a with
  | setClipboardText utf8 => simpa [testOrderly, Orderly, Survives] using h
  | deliver => simpa [testOrderly, Orderly] using h
  | runTask => simpa [testOrderly, Orderly] using h
  | copy text => simpa [testOrderly, Orderly] using h
  | destroy => cases h
  | setClipboardImage | announceDelayed | provideData | post | record | retrieve | wake => trivial

/-- The bare assumption that Qt signals an object before it is replaced, at
least once and whenever it likes. -/
def SignalledOnce (m : Manager) : Action → Prop
  | .runTask | .copy _ => m.clipboard = none ∨ m.signalled = true
  | _ => True

end X11Echo
