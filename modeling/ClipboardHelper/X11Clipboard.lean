import ClipboardHelper.Library.Machine
import ClipboardHelper.DelayedSlot

/-!
# The X11 backend of the Linux helper

`clipboard_manager_x11.cpp` with `echo_suppressor.cpp`.  Qt owns the
selection: the helper hands it a `QMimeData` object, Qt asks that object for
data and signals `dataChanged` when the clipboard has changed hands, also
when the helper itself changed it.  The slot is that of `DelayedSlot`; eager
sets do not touch it here.

The socket thread posts tasks; a task hands an object to Qt (`setMimeData`)
and *then* notes in the suppressor what it has set.  `dataChanged` may be
delivered at any moment of the main thread, also inside `setMimeData`.

A pointer is the number of its object; a number is never used twice, as the
`QPointer` of the suppressor forgets an object when Qt destroys it.
-/

namespace X11Clipboard

open Library PasteFormats DelayedSlot

/-! ## Qt -/

/-- A `QString`. -/
abbrev QString := List UInt16

/-- The two conversions of Qt between UTF-8 and its strings. -/
structure Qt where
  fromUtf8 : Bytes → QString
  toUtf8 : QString → Bytes

/-- What is in a `QMimeData` on the clipboard: the three objects that the
helper makes, and one of another application, which may offer text. -/
inductive Content
  | text (text : QString)
  | image (image : DecodedImage)
  | delayed (hash : Bytes) (kind : ContentKind)
  | foreign (text : Option QString)
deriving DecidableEq, Repr

structure Mime where
  pointer : Nat
  content : Content
deriving DecidableEq, Repr

/-- The helper has made the object. -/
def Mime.own (mime : Mime) : Bool :=
  match mime.content with
  | .foreign _ => false
  | _ => true

/-- The types that Qt asks a `QMimeData` for. -/
inductive MetaType
  | qString
  | qImage
  | other
deriving DecidableEq, Repr

inductive Variant
  | invalid
  | string (text : QString)
  | byteArray (bytes : Bytes)
  | image (image : DecodedImage)
deriving DecidableEq, Repr

/-! ## The suppressor -/

structure EchoSuppressor where
  lastSetText : Option Bytes := none
  announcedMime : Option Nat := none
deriving DecidableEq, Repr

namespace EchoSuppressor

def recordEagerSetText (e : EchoSuppressor) (utf8 : Bytes) : EchoSuppressor :=
  { e with lastSetText := some utf8 }

def recordAnnouncedMime (e : EchoSuppressor) (mime : Mime) : EchoSuppressor :=
  { e with announcedMime := some mime.pointer }

def isAnnouncedMime (e : EchoSuppressor) (current : Mime) : Bool :=
  e.announcedMime = some current.pointer

/-- `ConsumeEagerSetTextEcho`, with the suppressor it leaves. -/
def consumeEagerSetTextEcho (e : EchoSuppressor) (currentText : Bytes) : Bool × EchoSuppressor :=
  if e.lastSetText = some currentText then (true, { e with lastSetText := none }) else (false, e)

/-- Qt destroys an object: the `QPointer` to it becomes null. -/
def destroyed (e : EchoSuppressor) (mime : Mime) : EchoSuppressor :=
  if e.announcedMime = some mime.pointer then { e with announcedMime := none } else e

end EchoSuppressor

/-! ## State -/

/-- The lambdas that are posted to the main thread. -/
inductive Task
  | setText (text : QString) (utf8 : Bytes)
  | setImage (image : DecodedImage)
  | announce (contentHash : Bytes) (kind : ContentKind)
deriving DecidableEq, Repr

/-- Who called `retrieveData`: Qt for a consumer, or `OnClipboardChanged`
through `mime->text()` on the helper's own object. -/
inductive Reader
  | consumer (mimeType : Bytes) (type : MetaType)
  | ownEcho
deriving DecidableEq, Repr

/-- A `WaitForBytes` that waits. -/
structure Waiter where
  hash : Bytes
  kind : ContentKind
  reader : Reader
deriving DecidableEq, Repr

structure Manager where
  state : State := {}
  cachedClipboardText : Option Bytes := none
  /-- The socket thread is about to post this task. -/
  posting : Option Task := none
  tasks : List Task := []
  /-- `cb->mimeData(QClipboard::Clipboard)` -/
  clipboard : Option Mime := none
  echo : EchoSuppressor := {}
  /-- The main thread is in the lambda of this task, inside `setMimeData` or
  just behind it. -/
  recording : Option (Task × Mime) := none
  waiters : List Waiter := []
  nextPointer : Nat := 0
  /-- A `dataChanged` has been delivered for the current object. -/
  signalled : Bool := false
deriving DecidableEq, Repr

/-- What `OnClipboardChanged` made of a signal. -/
inductive Reaction
  | ignored
  | reported (utf8 : Bytes)
  /-- It asked the helper's own delayed object for its text. -/
  | retrieved
deriving DecidableEq, Repr

inductive Obs
  | announced (kind : ContentKind) (contentHash : Bytes)
  | provided (contentHash data : Bytes)
  | discarded (contentHash : Bytes)
  | requested (hash : Bytes)
  /-- A wait for `hash` returned `payload`. -/
  | took (hash payload : Bytes)
  /-- `retrieveData` returned to a consumer. -/
  | returned (result : Variant)
  /-- Another application took the clipboard with this object. -/
  | copied (mime : Mime)
  /-- `dataChanged` was delivered while `mime` was current, inside a
  `setMimeData` or not. -/
  | delivered (mime : Mime) (inside : Bool) (reaction : Reaction)
  /-- The rest of an `OnClipboardChanged` that had to wait for its text. -/
  | resumed (reaction : Reaction)
deriving DecidableEq, Repr

/-! ## Steps -/

/-- `MaterialiseText`, `MaterialiseFiles` and `MaterialiseImage`. -/
def materialise (lib : ImageLibrary) (qt : Qt) (kind : ContentKind) (payload mimeType : Bytes)
    (type : MetaType) : Variant :=
  match kind with
  | .text => if type = .qString then .string (qt.fromUtf8 payload) else .byteArray payload
  | .files => .byteArray (formatForMime payload mimeType)
  | .image =>
    let image := decodeWebP lib payload
    if !image.ok then .invalid
    else if type = .qImage ∨ mimeType = ascii "application/x-qt-image" then .image image
    else
      match formatOfMime mimeType with
      | none => .invalid
      | some format =>
        match lib.save image format with
        | none => .invalid
        | some out => .byteArray out

/-- `mime->text()` over what `retrieveData` returned; an invalid result makes
Qt try other formats, which fail alike, and ends in the empty text. -/
def Variant.text (qt : Qt) : Variant → QString
  | .string text => text
  | .byteArray bytes => qt.fromUtf8 bytes
  | .invalid | .image _ => []

/-- `OnClipboardChanged` once it has the text. -/
def textChanged (m : Manager) (utf8 : Bytes) : Manager × Reaction :=
  match m.echo.consumeEagerSetTextEcho utf8 with
  | (true, echo) => ({ m with echo := echo }, .ignored)
  | (false, _) => ({ m with cachedClipboardText := some utf8 }, .reported utf8)

/-- What the caller of `WaitForBytes` does with its result. -/
def finishWait (lib : ImageLibrary) (qt : Qt) (m : Manager) (w : Waiter) (bytes : Option Bytes) :
    Manager × List Obs :=
  let took := bytes.toList.map (fun payload => Obs.took w.hash payload)
  match w.reader with
  | .consumer mimeType type =>
    let result := (bytes.map (fun payload => materialise lib qt w.kind payload mimeType type)).getD
      .invalid
    (m, took ++ [.returned result])
  | .ownEcho =>
    let result := (bytes.map (fun payload =>
      materialise lib qt w.kind payload (ascii "text/plain;charset=utf-8") .qString)).getD .invalid
    let rest := textChanged m (qt.toUtf8 (result.text qt))
    (rest.1, took ++ [.resumed rest.2])

/-- `WaitForBytes`: data that is there is returned at once, otherwise the
request is sent and the caller waits. -/
def waitForBytes (lib : ImageLibrary) (qt : Qt) (m : Manager) (w : Waiter) :
    Manager × List Obs :=
  match m.state.dataFor w.hash with
  | some payload => finishWait lib qt m w (some payload)
  | none => ({ m with waiters := m.waiters ++ [w] }, [.requested w.hash])

/-- The bytes that the end of a wait returns. -/
def bytesOf : Outcome → Option Bytes
  | .wrote payload _ => some payload
  | .stopping | .stale | .timeout => none

/-- `QClipboard::setMimeData`: the object becomes current and the previous one
is destroyed. -/
def setMimeData (m : Manager) (content : Content) : Manager :=
  { m with
    clipboard := some ⟨m.nextPointer, content⟩,
    echo := match m.clipboard with
      | some old => m.echo.destroyed old
      | none => m.echo,
    nextPointer := m.nextPointer + 1,
    signalled := false }

/-- The object that a task hands to Qt. -/
def Task.content : Task → Content
  | .setText text _ => .text text
  | .setImage image => .image image
  | .announce contentHash kind => .delayed contentHash kind

/-- What a task notes after `setMimeData`. -/
def Task.record (e : EchoSuppressor) (mime : Mime) : Task → EchoSuppressor
  | .setText _ utf8 => e.recordEagerSetText utf8
  | .setImage _ | .announce _ _ => e.recordAnnouncedMime mime

/-- `OnClipboardChanged`.  An object has text if it offers plain text or a
list of files. -/
def onClipboardChanged (lib : ImageLibrary) (qt : Qt) (m : Manager) (mime : Mime) :
    Manager × List Obs :=
  let inside := m.recording.isSome
  if m.echo.isAnnouncedMime mime then (m, [.delivered mime inside .ignored])
  else
    match mime.content with
    | .image _ | .foreign none | .delayed _ .image => (m, [.delivered mime inside .ignored])
    | .text text | .foreign (some text) =>
      let rest := textChanged m (qt.toUtf8 text)
      (rest.1, [.delivered mime inside rest.2])
    | .delayed hash kind =>
      let rest := waitForBytes lib qt m ⟨hash, kind, .ownEcho⟩
      (rest.1, .delivered mime inside .retrieved :: rest.2)

inductive Action
  /-- Socket thread: the part of a call before its task is posted. -/
  | setClipboardText (utf8 : Bytes)
  | setClipboardImage (webpBytes : Bytes)
  | announceDelayed (kind : ContentKind) (contentHash : Bytes)
  | provideData (contentHash data : Bytes)
  | post
  /-- Main thread: the next task up to and into `setMimeData`, and its rest. -/
  | runTask
  | record
  /-- Main thread: another application takes the clipboard. -/
  | copy (text : Option QString)
  /-- Main thread: `dataChanged`. -/
  | deliver
  /-- A consumer asks for the current object's data. -/
  | retrieve (mimeType : Bytes) (type : MetaType)
  | wake (index : Nat) (deadline : Bool)
  /-- The destructor. -/
  | destroy
deriving DecidableEq, Repr

/-- **The backend.**  In the source a wait blocks the main thread; here other
events of the main thread may happen meanwhile, which only adds runs. -/
def machine (lib : ImageLibrary) (qt : Qt) : Machine Manager Action Obs where
  step m
    | .setClipboardText utf8 =>
      if m.posting = none ∧ m.state.stop = false then
        some ({ m with
            cachedClipboardText := some utf8,
            posting := some (.setText (qt.fromUtf8 utf8) utf8) }, [])
      else none
    | .setClipboardImage webpBytes =>
      if m.posting = none ∧ m.state.stop = false then
        let image := decodeWebP lib webpBytes
        if image.ok then some ({ m with posting := some (.setImage image) }, []) else some (m, [])
      else none
    | .announceDelayed kind contentHash =>
      if m.posting = none ∧ m.state.stop = false then
        some ({ m with
            state := m.state.announceDelayed kind contentHash,
            posting := some (.announce contentHash kind) },
          [.announced kind contentHash])
      else none
    | .provideData contentHash data =>
      if m.posting = none ∧ m.state.stop = false then
        match m.state.provideData contentHash data with
        | some state => some ({ m with state := state }, [.provided contentHash data])
        | none => some (m, [.discarded contentHash])
      else none
    | .post =>
      match m.posting with
      | some task => some ({ m with posting := none, tasks := m.tasks ++ [task] }, [])
      | none => none
    | .runTask =>
      match m.tasks with
      | task :: tasks =>
        if m.recording = none ∧ m.state.stop = false then
          let m' := setMimeData { m with tasks := tasks } task.content
          some ({ m' with recording := some (task, ⟨m.nextPointer, task.content⟩) }, [])
        else none
      | [] => none
    | .record =>
      match m.recording with
      | some (task, mime) =>
        some ({ m with echo := task.record m.echo mime, recording := none }, [])
      | none => none
    | .copy text =>
      if m.recording = none then
        some (setMimeData m (.foreign text), [.copied ⟨m.nextPointer, .foreign text⟩])
      else none
    | .deliver =>
      match m.clipboard with
      | some mime =>
        if m.state.stop = false then
          some (onClipboardChanged lib qt { m with signalled := true } mime)
        else none
      | none => none
    | .retrieve mimeType type =>
      match m.clipboard with
      | some ⟨_, .delayed hash kind⟩ =>
        some (waitForBytes lib qt m ⟨hash, kind, .consumer mimeType type⟩)
      | _ => none
    | .wake index deadline =>
      match m.waiters[index]? with
      | none => none
      | some w =>
        match m.state.wake w.hash deadline with
        | none => some (m, [])
        | some outcome =>
          some (finishWait lib qt { m with waiters := m.waiters.eraseIdx index } w
            (bytesOf outcome))
    | .destroy =>
      if m.state.stop = false then
        some ({ m with state := { m.state with stop := true }, clipboard := none }, [])
      else none

/-! ## What a step can do -/

/-- The steps, with what each of them needs. -/
inductive Step (lib : ImageLibrary) (qt : Qt) (m : Manager) : Action → Manager → List Obs → Prop
  | textSet {utf8 : Bytes} (hidle : m.posting = none) :
      Step lib qt m (.setClipboardText utf8)
        { m with
          cachedClipboardText := some utf8
          posting := some (.setText (qt.fromUtf8 utf8) utf8) } []
  | imageSet {webpBytes : Bytes} (hidle : m.posting = none) :
      Step lib qt m (.setClipboardImage webpBytes)
        { m with posting := some (.setImage (decodeWebP lib webpBytes)) } []
  | imageRefused {webpBytes : Bytes} : Step lib qt m (.setClipboardImage webpBytes) m []
  | announced {kind : ContentKind} {contentHash : Bytes} (hidle : m.posting = none) :
      Step lib qt m (.announceDelayed kind contentHash)
        { m with
          state := m.state.announceDelayed kind contentHash
          posting := some (.announce contentHash kind) } [.announced kind contentHash]
  | provided {contentHash data : Bytes} {state : State}
      (hstate : m.state.provideData contentHash data = some state) :
      Step lib qt m (.provideData contentHash data) { m with state := state }
        [.provided contentHash data]
  | discarded {contentHash data : Bytes} :
      Step lib qt m (.provideData contentHash data) m [.discarded contentHash]
  | posted {task : Task} (hposting : m.posting = some task) :
      Step lib qt m .post { m with posting := none, tasks := m.tasks ++ [task] } []
  | ran {task : Task} {tasks : List Task} (htasks : m.tasks = task :: tasks)
      (hidle : m.recording = none) :
      Step lib qt m .runTask
        { setMimeData { m with tasks := tasks } task.content with
          recording := some (task, ⟨m.nextPointer, task.content⟩) } []
  | recorded {task : Task} {mime : Mime} (hrecording : m.recording = some (task, mime)) :
      Step lib qt m .record { m with echo := task.record m.echo mime, recording := none } []
  | copied {text : Option QString} (hidle : m.recording = none) :
      Step lib qt m (.copy text) (setMimeData m (.foreign text))
        [.copied ⟨m.nextPointer, .foreign text⟩]
  | delivered {mime : Mime} (hclipboard : m.clipboard = some mime)
      (hstop : m.state.stop = false) :
      Step lib qt m .deliver (onClipboardChanged lib qt { m with signalled := true } mime).1
        (onClipboardChanged lib qt { m with signalled := true } mime).2
  | retrieved {mimeType : Bytes} {type : MetaType} {pointer : Nat} {hash : Bytes}
      {kind : ContentKind} (hclipboard : m.clipboard = some ⟨pointer, .delayed hash kind⟩) :
      Step lib qt m (.retrieve mimeType type)
        (waitForBytes lib qt m ⟨hash, kind, .consumer mimeType type⟩).1
        (waitForBytes lib qt m ⟨hash, kind, .consumer mimeType type⟩).2
  | asleep {index : Nat} {deadline : Bool} : Step lib qt m (.wake index deadline) m []
  | woken {index : Nat} {deadline : Bool} {w : Waiter} {outcome : Outcome}
      (hw : m.waiters[index]? = some w) (houtcome : m.state.wake w.hash deadline = some outcome) :
      Step lib qt m (.wake index deadline)
        (finishWait lib qt { m with waiters := m.waiters.eraseIdx index } w (bytesOf outcome)).1
        (finishWait lib qt { m with waiters := m.waiters.eraseIdx index } w (bytesOf outcome)).2
  | destroyed :
      Step lib qt m .destroy
        { m with state := { m.state with stop := true }, clipboard := none } []

/-- **Every step is one of these.** -/
theorem step_cases {lib : ImageLibrary} {qt : Qt} {m m' : Manager} {a : Action} {os : List Obs}
    (h : (machine lib qt).step m a = some (m', os)) : Step lib qt m a m' os := by
  cases a with
  | setClipboardText utf8 =>
      simp only [machine] at h
      split at h
      · rename_i hidle
        cases h
        exact .textSet hidle.1
      · cases h
  | setClipboardImage webpBytes =>
      simp only [machine] at h
      split at h
      · rename_i hidle
        split at h
        · cases h
          exact .imageSet hidle.1
        · cases h
          exact .imageRefused
      · cases h
  | announceDelayed kind contentHash =>
      simp only [machine] at h
      split at h
      · rename_i hidle
        cases h
        exact .announced hidle.1
      · cases h
  | provideData contentHash data =>
      simp only [machine] at h
      split at h
      · split at h
        · rename_i state hstate
          cases h
          exact .provided hstate
        · cases h
          exact .discarded
      · cases h
  | post =>
      simp only [machine] at h
      split at h
      · rename_i task hposting
        cases h
        exact .posted hposting
      · cases h
  | runTask =>
      simp only [machine] at h
      split at h
      · rename_i task tasks htasks
        split at h
        · rename_i hidle
          cases h
          exact .ran htasks hidle.1
        · cases h
      · cases h
  | record =>
      simp only [machine] at h
      split at h
      · rename_i task mime hrecording
        cases h
        exact .recorded hrecording
      · cases h
  | copy text =>
      simp only [machine] at h
      split at h
      · rename_i hidle
        cases h
        exact .copied hidle
      · cases h
  | deliver =>
      simp only [machine] at h
      split at h
      · rename_i mime hclipboard
        split at h
        · rename_i hstop
          have hstep : Step lib qt m .deliver _ _ := .delivered hclipboard hstop
          rwa [Option.some.inj h] at hstep
        · cases h
      · cases h
  | retrieve mimeType type =>
      simp only [machine] at h
      split at h
      · rename_i pointer hash kind hclipboard
        have hstep : Step lib qt m (.retrieve mimeType type)
            (waitForBytes lib qt m ⟨hash, kind, .consumer mimeType type⟩).1
            (waitForBytes lib qt m ⟨hash, kind, .consumer mimeType type⟩).2 :=
          .retrieved hclipboard
        rwa [Option.some.inj h] at hstep
      · cases h
  | wake index deadline =>
      simp only [machine] at h
      split at h
      · cases h
      · rename_i w hw
        split at h
        · cases h
          exact .asleep
        · rename_i outcome houtcome
          have hstep : Step lib qt m (.wake index deadline) _ _ := .woken hw houtcome
          rwa [Option.some.inj h] at hstep
  | destroy =>
      simp only [machine] at h
      split at h
      · cases h
        exact .destroyed
      · cases h

/-! ## Freshness -/

/-- Only `ProvideData` stores, and only an announcement supersedes: an eager
set leaves the slot alone. -/
def bearing : Bearing Obs where
  stores key data o := o = .provided key data
  supersedes o := ∃ kind contentHash, o = .announced kind contentHash
  takes hash payload o := o = .took hash payload

def Obs.announcement? : Obs → Option Bytes
  | .announced _ contentHash => some contentHash
  | _ => none

/-- The hashes that were announced, in order. -/
def announcedHashes (h : List Obs) : List Bytes := h.filterMap Obs.announcement?

@[simp] theorem announcedHashes_append (h os : List Obs) :
    announcedHashes (h ++ os) = announcedHashes h ++ announcedHashes os :=
  List.filterMap_append

theorem not_supersedes {os : List Obs} (hos : announcedHashes os = []) :
    ∀ o ∈ os, ¬ bearing.supersedes o := by
  intro o hmem ⟨kind, contentHash, ho⟩
  have hnone := List.filterMap_eq_nil_iff.mp hos o hmem
  rw [ho] at hnone
  cases hnone

/-- What a step does to the slot, and what it takes from it. -/
inductive Change (m : Manager) (os : List Obs) (m' : Manager) : Prop
  | announced (kind : ContentKind) (contentHash : Bytes)
      (state : m'.state = m.state.announceDelayed kind contentHash)
      (obs : os = [.announced kind contentHash])
  | provided (contentHash data : Bytes)
      (state : m.state.provideData contentHash data = some m'.state)
      (obs : os = [.provided contentHash data])
  | quiet (stop : Bool) (state : m'.state = { m.state with stop := stop })
      (obs : announcedHashes os = [])
      (taken : ∀ hash payload, .took hash payload ∈ os → m.state.dataFor hash = some payload)

theorem textChanged_state (m : Manager) (utf8 : Bytes) :
    (textChanged m utf8).1.state = m.state := by
  unfold textChanged EchoSuppressor.consumeEagerSetTextEcho
  split <;> rfl

theorem finishWait_state (lib : ImageLibrary) (qt : Qt) (m : Manager) (w : Waiter)
    (bytes : Option Bytes) : (finishWait lib qt m w bytes).1.state = m.state := by
  unfold finishWait
  cases w.reader with
  | consumer mimeType type => rfl
  | ownEcho => exact textChanged_state m _

/-- The end of a wait announces nothing and takes what it was given. -/
theorem finishWait_obs (lib : ImageLibrary) (qt : Qt) (m : Manager) (w : Waiter)
    (bytes : Option Bytes) :
    announcedHashes (finishWait lib qt m w bytes).2 = [] ∧
      ∀ hash payload, .took hash payload ∈ (finishWait lib qt m w bytes).2 →
        hash = w.hash ∧ bytes = some payload := by
  unfold finishWait
  cases w.reader with
  | consumer mimeType type =>
      cases bytes with
      | none => exact ⟨rfl, by simp⟩
      | some payload => exact ⟨rfl, by simp +contextual⟩
  | ownEcho =>
      cases bytes with
      | none => exact ⟨rfl, by simp⟩
      | some payload => exact ⟨rfl, by simp +contextual⟩

theorem waitForBytes_state (lib : ImageLibrary) (qt : Qt) (m : Manager) (w : Waiter) :
    (waitForBytes lib qt m w).1.state = m.state := by
  unfold waitForBytes
  split
  · exact finishWait_state lib qt m w _
  · rfl

theorem waitForBytes_obs (lib : ImageLibrary) (qt : Qt) (m : Manager) (w : Waiter) :
    announcedHashes (waitForBytes lib qt m w).2 = [] ∧
      ∀ hash payload, .took hash payload ∈ (waitForBytes lib qt m w).2 →
        m.state.dataFor hash = some payload := by
  unfold waitForBytes
  split
  · rename_i payload hdata
    obtain ⟨hobs, htook⟩ := finishWait_obs lib qt m w (some payload)
    refine ⟨hobs, ?_⟩
    intro hash payload' hmem
    obtain ⟨rfl, hpayload⟩ := htook hash payload' hmem
    rw [hdata, hpayload]
  · exact ⟨rfl, by simp⟩

theorem onClipboardChanged_change (lib : ImageLibrary) (qt : Qt) (m : Manager) (mime : Mime) :
    (onClipboardChanged lib qt m mime).1.state = m.state ∧
      announcedHashes (onClipboardChanged lib qt m mime).2 = [] ∧
      ∀ hash payload, .took hash payload ∈ (onClipboardChanged lib qt m mime).2 →
        m.state.dataFor hash = some payload := by
  unfold onClipboardChanged
  simp only
  split
  · exact ⟨rfl, rfl, by simp⟩
  · split
    · exact ⟨rfl, rfl, by simp⟩
    · exact ⟨rfl, rfl, by simp⟩
    · exact ⟨rfl, rfl, by simp⟩
    · exact ⟨textChanged_state m _, rfl, by simp⟩
    · exact ⟨textChanged_state m _, rfl, by simp⟩
    · rename_i hash kind _ _
      obtain ⟨hobs, htook⟩ := waitForBytes_obs lib qt m ⟨hash, kind, .ownEcho⟩
      refine ⟨waitForBytes_state lib qt m _, hobs, ?_⟩
      intro hash' payload hmem
      rcases List.mem_cons.mp hmem with hdelivered | hmem
      · cases hdelivered
      · exact htook hash' payload hmem

theorem step_change {lib : ImageLibrary} {qt : Qt} {m m' : Manager} {a : Action} {os : List Obs}
    (h : (machine lib qt).step m a = some (m', os)) : Change m os m' := by
  cases step_cases h with
  | announced => exact .announced _ _ rfl rfl
  | provided hstate => exact .provided _ _ hstate rfl
  | @delivered mime =>
      obtain ⟨hstate, hobs, htook⟩ :=
        onClipboardChanged_change lib qt { m with signalled := true } mime
      exact .quiet m.state.stop hstate hobs htook
  | retrieved =>
      obtain ⟨hobs, htook⟩ := waitForBytes_obs lib qt m _
      exact .quiet m.state.stop (waitForBytes_state lib qt m _) hobs htook
  | @woken index deadline w outcome hw houtcome =>
      have hstate := finishWait_state lib qt { m with waiters := m.waiters.eraseIdx index } w
        (bytesOf outcome)
      obtain ⟨hobs, htook⟩ := finishWait_obs lib qt
        { m with waiters := m.waiters.eraseIdx index } w (bytesOf outcome)
      refine .quiet m.state.stop hstate hobs ?_
      intro hash payload hmem
      obtain ⟨rfl, hbytes⟩ := htook hash payload hmem
      cases outcome with
      | wrote payload' kind =>
          obtain ⟨-, hdata, -⟩ := State.wake_wrote houtcome
          rw [hdata, hbytes.symm, bytesOf]
      | stopping | stale | timeout => cases hbytes
  | textSet | imageSet | imageRefused | discarded | posted | ran | recorded | copied | asleep =>
      exact .quiet m.state.stop rfl rfl (by simp)
  | destroyed => exact .quiet true rfl rfl (by simp)

/-- **The slot and the history**: data in the slot is fresh, and the current
hash is the one announced last. -/
structure Sound (h : List Obs) (m : Manager) : Prop where
  fresh : Fresh bearing h m.state
  latest : ∀ contentHash, (announcedHashes h).getLast? = some contentHash →
    m.state.currentHash = contentHash

theorem step_sound {lib : ImageLibrary} {qt : Qt} {h os : List Obs} {m m' : Manager} {a : Action}
    (hi : Sound h m ∧ Whenever bearing.TookFresh h)
    (hstep : (machine lib qt).step m a = some (m', os)) :
    Sound (h ++ os) m' ∧ Whenever bearing.TookFresh (h ++ os) := by
  cases step_change hstep with
  | announced kind contentHash state obs =>
      subst obs
      refine ⟨⟨by rw [state]; exact Fresh.announceDelayed kind contentHash, ?_⟩,
        tookFresh_of_none hi.2 (by simp [bearing])⟩
      intro contentHash' hlast
      have hsame : contentHash = contentHash' := by
        simpa [announcedHashes, Obs.announcement?] using hlast
      rw [state]
      exact hsame
  | provided contentHash data state obs =>
      subst obs
      refine ⟨⟨Fresh.provideData state rfl, ?_⟩, tookFresh_of_none hi.2 (by simp [bearing])⟩
      intro contentHash' hlast
      have hbefore : (announcedHashes h).getLast? = some contentHash' := by
        simpa [announcedHashes, Obs.announcement?] using hlast
      unfold State.provideData at state
      split at state
      · cases state
      · rw [← Option.some.inj state]
        exact hi.1.latest contentHash' hbefore
  | quiet stop state obs taken =>
      refine ⟨⟨?_, ?_⟩, ?_⟩
      · rw [state]
        exact (hi.1.fresh.quiet (not_supersedes obs) : Fresh bearing (h ++ os) m.state)
      · intro contentHash hlast
        rw [announcedHashes_append, obs, List.append_nil] at hlast
        rw [state]
        exact hi.1.latest contentHash hlast
      · refine hi.1.fresh.tookFresh hi.2 ?_ (not_supersedes obs)
        intro o hmem hash payload htook
        exact taken hash payload (htook ▸ hmem)

/-- **Freshness of the X11 slot**, over every run. -/
theorem run_fresh {lib : ImageLibrary} {qt : Qt} {ok : Manager → Action → Prop} {h : List Obs}
    {m : Manager} (hrun : (machine lib qt).Run ok {} h m) :
    Sound h m ∧ Whenever bearing.TookFresh h := by
  refine hrun.history_invariant (fun h m => Sound h m ∧ Whenever bearing.TookFresh h) ?_ ?_
  · refine ⟨⟨?_, ?_⟩, Whenever.nil⟩
    · intro data hdata
      cases hdata
    · intro contentHash hlast
      cases hlast
  · intro h m a m' os hi _ hstep
    exact step_sound hi hstep

end X11Clipboard
