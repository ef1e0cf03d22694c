import ClipboardHelper.Library.Pool
import ClipboardHelper.WaylandClipboard
import ClipboardHelper.X11Clipboard
import ClipboardHelper.X11Echo

/-!
# Waiters whose hash has been superseded

A wait for data is over when the data has come, or when nobody wants it any
more: the announcers wake the workers "so they observe the replaced hash and
exit via the Stale path".  The predicate that is tested on waking up knows of
two reasons only, the manager's end and data for the waiter's own hash, and
there is none under a superseded hash: no wait ever ends as stale
(`DelayedSlot.State.wake_ne_stale`).

**`superseded_waiters_leave_iff`**: a superseded waiter that is notified
leaves if and only if the manager is stopping.  Announcements, sets and
`ProvideData` notify it in vain, and it waits on until its deadline
(`WaylandClipboard.superseded_worker_waits`,
`X11Clipboard.superseded_waiter_waits`).
-/

namespace WaylandClipboard

open Library PasteFormats DelayedSlot

/-- The calls that run `notify_all` once they have changed the slot;
`ProvideData` does so for a hash that it refuses too. -/
def notifies : Action → Bool
  | .offer _ | .provideData _ _ | .destroy => true
  | .post | .runTask _ | .send _ _ _ | .cancelled | .wake _ _ _ => false

/-- Worker `index` waits under a hash that is not the current one. -/
def Superseded (m : Manager) (index : Nat) (w : Worker) : Prop :=
  m.workers[index]? = some w ∧ m.state.currentHash ≠ w.hash

/-- A notification that reaches worker `index` in this state ends its wait,
and its descriptor is closed with nothing in it. -/
def LeavesEmpty (lib : ImageLibrary) (m : Manager) (index : Nat) (w : Worker) : Prop :=
  ∀ calls, (machine lib).step m (.wake index false calls) =
    some ({ m with workers := m.workers.eraseIdx index }, [.wrote w.fd w.offer w.mime [] true])

theorem leavesEmpty_iff {lib : ImageLibrary} {h : List Obs} {m : Manager} {index : Nat}
    {w : Worker} (hi : Sound h m) (hsuperseded : Superseded m index w) :
    LeavesEmpty lib m index w ↔ m.state.stop = true := by
  obtain ⟨hw, hreplaced⟩ := hsuperseded
  have hwake := State.wake_noData (hi.fresh.noData hreplaced)
  constructor
  · intro hleaves
    by_contra hstop
    have hstep := hleaves []
    simp [machine, hw, hwake, hstop] at hstep
  · intro hstop calls
    simp [machine, hw, hwake, hstop, finishWorker]

theorem Offer.take_stop (s : State) (offer : Offer) : (offer.take s).stop = s.stop := by
  cases offer with
  | text utf8 => rfl
  | image webpBytes => rfl
  | delayed kind contentHash => cases kind <;> rfl

/-- Of the calls that notify, only the destructor leaves a stopped manager. -/
theorem stop_of_notifies {lib : ImageLibrary} {m m' : Manager} {a : Action} {os : List Obs}
    (hstep : (machine lib).step m a = some (m', os)) (hnotifies : notifies a = true) :
    m'.state.stop = true ↔ a = .destroy := by
  cases a with
  | offer offer =>
      cases step_cases hstep with
      | offered hidle hstop =>
          simp [Offer.take_stop, hstop]
  | provideData contentHash data =>
      have hstop : m'.state.stop = false := by
        simp only [machine] at hstep
        split at hstep
        · rename_i hcalled
          split at hstep
          · rename_i state hstate
            cases hstep
            exact (State.provideData_stop hstate).trans hcalled.2
          · cases hstep
            exact hcalled.2
        · cases hstep
      simp [hstop]
  | destroy =>
      cases step_cases hstep with
      | destroyed => simp
  | post | runTask | send | cancelled | wake => cases hnotifies

/-- The steps of a while in which `w` stays superseded: it is not its
deadline, and the manager is not destroyed. -/
def StillSuperseded (w : Worker) (m : Manager) (a : Action) : Prop :=
  m.state.currentHash ≠ w.hash ∧ a ≠ .destroy ∧
    ∀ index calls, a = .wake index true calls → m.workers[index]? ≠ some w

/-- A step of such a while keeps the worker waiting. -/
theorem superseded_step {lib : ImageLibrary} {h os : List Obs} {m m' : Manager} {a : Action}
    {w : Worker} (hi : Sound h m) (hstop : m.state.stop = false) (hw : w ∈ m.workers)
    (hstill : StillSuperseded w m a) (hstep : (machine lib).step m a = some (m', os)) :
    m'.state.stop = false ∧ w ∈ m'.workers := by
  obtain ⟨hsuperseded, hrunning, hearly⟩ := hstill
  cases step_cases hstep with
  | offered => exact ⟨(Offer.take_stop _ _).trans hstop, hw⟩
  | provided hstate => exact ⟨(State.provideData_stop hstate).trans hstop, hw⟩
  | asked => exact ⟨hstop, List.mem_append_left _ hw⟩
  | @woken index deadline calls w' outcome hw' houtcome =>
      refine ⟨hstop, mem_eraseIdx_of_ne hw' hw ?_⟩
      intro hsame
      subst hsame
      cases deadline with
      | true => exact hearly index calls rfl hw'
      | false =>
          -- The predicate needs data, and a superseded hash has none.
          rw [State.wake_noData (hi.fresh.noData hsuperseded), hstop] at houtcome
          cases houtcome
  | destroyed => exact absurd rfl hrunning
  | posted | discarded | ran | sent | cancelled | asleep => exact ⟨hstop, hw⟩

/-- **A superseded worker waits until its deadline**, however often it is
notified. -/
theorem superseded_worker_waits {lib : ImageLibrary} {h later : List Obs} {m m' : Manager}
    {w : Worker} (hrun : (machine lib).Run Machine.always {} h m) (hw : w ∈ m.workers)
    (hstop : m.state.stop = false) (hlater : (machine lib).Run (StillSuperseded w) m later m') :
    w ∈ m'.workers := by
  have hall : Sound (h ++ later) m' ∧ m'.state.stop = false ∧ w ∈ m'.workers := by
    refine hlater.history_invariant
      (fun later m' => Sound (h ++ later) m' ∧ m'.state.stop = false ∧ w ∈ m'.workers) ?_ ?_
    · rw [List.append_nil]
      exact ⟨(run_fresh hrun).1, hstop, hw⟩
    · intro later m a m' os hi hstill hstep
      obtain ⟨hsound, hrunning, hwaits⟩ := hi
      rw [← List.append_assoc]
      exact ⟨step_sound hsound hstep, superseded_step hsound hrunning hwaits hstill hstep⟩
  exact hall.2.2

end WaylandClipboard

namespace X11Clipboard

open Library PasteFormats DelayedSlot

/-- The calls that run `notify_all`; eager sets leave the slot alone, and
`ProvideData` notifies nobody of a hash that it refuses. -/
def notifies (m : Manager) : Action → Bool
  | .announceDelayed _ _ | .destroy => true
  | .provideData contentHash _ => m.state.currentHash = contentHash
  | .setClipboardText _ | .setClipboardImage _ | .post | .runTask | .record | .copy _ | .deliver
  | .retrieve _ _ | .wake _ _ => false

/-- Waiter `index` waits under a hash that is not the current one. -/
def Superseded (m : Manager) (index : Nat) (w : Waiter) : Prop :=
  m.waiters[index]? = some w ∧ m.state.currentHash ≠ w.hash

/-- A notification that reaches waiter `index` in this state ends its wait,
and `WaitForBytes` returns without bytes. -/
def LeavesEmpty (lib : ImageLibrary) (qt : Qt) (m : Manager) (index : Nat) (w : Waiter) : Prop :=
  (machine lib qt).step m (.wake index false) =
    some (finishWait lib qt { m with waiters := m.waiters.eraseIdx index } w none)

/-- The end of a wait is seen. -/
theorem finishWait_obs_ne_nil (lib : ImageLibrary) (qt : Qt) (m : Manager) (w : Waiter)
    (bytes : Option Bytes) : (finishWait lib qt m w bytes).2 ≠ [] := by
  unfold finishWait
  cases w.reader with
  | consumer mimeType type => simp
  | ownEcho => simp

theorem leavesEmpty_iff {lib : ImageLibrary} {qt : Qt} {h : List Obs} {m : Manager} {index : Nat}
    {w : Waiter} (hi : Sound h m) (hsuperseded : Superseded m index w) :
    LeavesEmpty lib qt m index w ↔ m.state.stop = true := by
  obtain ⟨hw, hreplaced⟩ := hsuperseded
  have hwake := State.wake_noData (hi.fresh.noData hreplaced)
  constructor
  · intro hleaves
    by_contra hstop
    have hstep : (machine lib qt).step m (.wake index false) = some (m, []) := by
      simp [machine, hw, hwake, hstop]
    have hsame := Option.some.inj (hleaves.symm.trans hstep)
    exact finishWait_obs_ne_nil lib qt _ w none (congrArg Prod.snd hsame)
  · intro hstop
    simp [LeavesEmpty, machine, hw, hwake, hstop, bytesOf]

/-- Of the calls that notify, only the destructor leaves a stopped manager. -/
theorem stop_of_notifies {lib : ImageLibrary} {qt : Qt} {m m' : Manager} {a : Action}
    {os : List Obs} (hstep : (machine lib qt).step m a = some (m', os))
    (hnotifies : notifies m a = true) : m'.state.stop = true ↔ a = .destroy := by
  cases a with
  | announceDelayed kind contentHash =>
      have hstop : m'.state.stop = false := by
        simp only [machine] at hstep
        split at hstep
        · rename_i hcalled
          cases hstep
          exact hcalled.2
        · cases hstep
      simp [hstop]
  | provideData contentHash data =>
      have hstop : m'.state.stop = false := by
        simp only [machine] at hstep
        split at hstep
        · rename_i hcalled
          split at hstep
          · rename_i state hstate
            cases hstep
            exact (State.provideData_stop hstate).trans hcalled.2
          · cases hstep
            exact hcalled.2
        · cases hstep
      simp [hstop]
  | destroy =>
      cases step_cases hstep with
      | destroyed => simp
  | setClipboardText | setClipboardImage | post | runTask | record | copy | deliver | retrieve
  | wake => cases hnotifies

/-! ## Until the deadline -/

theorem textChanged_waiters (m : Manager) (utf8 : Bytes) :
    (textChanged m utf8).1.waiters = m.waiters := by
  unfold textChanged EchoSuppressor.consumeEagerSetTextEcho
  split <;> rfl

theorem finishWait_waiters (lib : ImageLibrary) (qt : Qt) (m : Manager) (w : Waiter)
    (bytes : Option Bytes) : (finishWait lib qt m w bytes).1.waiters = m.waiters := by
  unfold finishWait
  cases w.reader with
  | consumer mimeType type => rfl
  | ownEcho => exact textChanged_waiters m _

theorem mem_waitForBytes {lib : ImageLibrary} {qt : Qt} {m : Manager} {w : Waiter} (w' : Waiter)
    (hw : w ∈ m.waiters) : w ∈ (waitForBytes lib qt m w').1.waiters := by
  unfold waitForBytes
  split
  · rwa [finishWait_waiters]
  · exact List.mem_append_left _ hw

theorem mem_onClipboardChanged {lib : ImageLibrary} {qt : Qt} {m : Manager} {w : Waiter}
    (mime : Mime) (hw : w ∈ m.waiters) : w ∈ (onClipboardChanged lib qt m mime).1.waiters := by
  unfold onClipboardChanged
  simp only
  split
  · exact hw
  · split
    · exact hw
    · exact hw
    · exact hw
    · rwa [textChanged_waiters]
    · rwa [textChanged_waiters]
    · exact mem_waitForBytes _ hw

/-- The steps of a while in which `w` stays superseded: it is not its
deadline, and the manager is not destroyed. -/
def StillSuperseded (w : Waiter) (m : Manager) (a : Action) : Prop :=
  m.state.currentHash ≠ w.hash ∧ a ≠ .destroy ∧
    ∀ index, a = .wake index true → m.waiters[index]? ≠ some w

/-- A step of such a while keeps the waiter waiting. -/
theorem superseded_step {lib : ImageLibrary} {qt : Qt} {h os : List Obs} {m m' : Manager}
    {a : Action} {w : Waiter} (hi : Sound h m) (hstop : m.state.stop = false)
    (hw : w ∈ m.waiters) (hstill : StillSuperseded w m a)
    (hstep : (machine lib qt).step m a = some (m', os)) :
    m'.state.stop = false ∧ w ∈ m'.waiters := by
  obtain ⟨hsuperseded, hrunning, hearly⟩ := hstill
  cases step_cases hstep with
  | provided hstate => exact ⟨(State.provideData_stop hstate).trans hstop, hw⟩
  | @delivered mime =>
      have hstate := (onClipboardChanged_change lib qt { m with signalled := true } mime).1
      exact ⟨by rw [hstate]; exact hstop, mem_onClipboardChanged mime hw⟩
  | retrieved => exact ⟨by rw [waitForBytes_state]; exact hstop, mem_waitForBytes _ hw⟩
  | @woken index deadline w' outcome hw' houtcome =>
      rw [finishWait_state, finishWait_waiters]
      refine ⟨hstop, mem_eraseIdx_of_ne hw' hw ?_⟩
      intro hsame
      subst hsame
      cases deadline with
      | true => exact hearly index rfl hw'
      | false =>
          rw [State.wake_noData (hi.fresh.noData hsuperseded), hstop] at houtcome
          cases houtcome
  | destroyed => exact absurd rfl hrunning
  | textSet | imageSet | imageRefused | announced | discarded | posted | ran | recorded | copied
    | asleep => exact ⟨hstop, hw⟩

/-- **A superseded waiter waits until its deadline**, however often it is
notified. -/
theorem superseded_waiter_waits {lib : ImageLibrary} {qt : Qt} {h later : List Obs}
    {m m' : Manager} {w : Waiter} (hrun : (machine lib qt).Run Machine.always {} h m)
    (hw : w ∈ m.waiters) (hstop : m.state.stop = false)
    (hlater : (machine lib qt).Run (StillSuperseded w) m later m') : w ∈ m'.waiters := by
  have hall : (Sound (h ++ later) m' ∧ Whenever bearing.TookFresh (h ++ later)) ∧
      m'.state.stop = false ∧ w ∈ m'.waiters := by
    refine hlater.history_invariant
      (fun later m' => (Sound (h ++ later) m' ∧ Whenever bearing.TookFresh (h ++ later)) ∧
        m'.state.stop = false ∧ w ∈ m'.waiters) ?_ ?_
    · rw [List.append_nil]
      exact ⟨run_fresh hrun, hstop, hw⟩
    · intro later m a m' os hi hstill hstep
      obtain ⟨hfresh, hrunning, hwaits⟩ := hi
      rw [← List.append_assoc]
      exact ⟨step_sound hfresh hstep, superseded_step hfresh.1 hrunning hwaits hstill hstep⟩
  exact hall.2.2

end X11Clipboard

namespace SupersededWaiters

open Library PasteFormats

/-- **A superseded waiter leaves only when the manager stops.**  In every
state of every run, a notification ends the wait of a superseded waiter if
and only if the manager is stopping; so of the calls that notify, the
destructor alone makes superseded waiters leave. -/
theorem superseded_waiters_leave_iff (lib : ImageLibrary) (qt : X11Clipboard.Qt) :
    (∀ h m, (WaylandClipboard.machine lib).Run Machine.always {} h m →
      (∀ index w, WaylandClipboard.Superseded m index w →
        (WaylandClipboard.LeavesEmpty lib m index w ↔ m.state.stop = true)) ∧
      ∀ a m' os, (WaylandClipboard.machine lib).step m a = some (m', os) →
        WaylandClipboard.notifies a = true → ∀ index w, WaylandClipboard.Superseded m' index w →
          (WaylandClipboard.LeavesEmpty lib m' index w ↔ a = .destroy)) ∧
    (∀ h m, (X11Clipboard.machine lib qt).Run Machine.always {} h m →
      (∀ index w, X11Clipboard.Superseded m index w →
        (X11Clipboard.LeavesEmpty lib qt m index w ↔ m.state.stop = true)) ∧
      ∀ a m' os, (X11Clipboard.machine lib qt).step m a = some (m', os) →
        X11Clipboard.notifies m a = true → ∀ index w, X11Clipboard.Superseded m' index w →
          (X11Clipboard.LeavesEmpty lib qt m' index w ↔ a = .destroy)) := by
  constructor
  · intro h m hrun
    have hsound := (WaylandClipboard.run_fresh hrun).1
    constructor
    · intro index w hw
      exact WaylandClipboard.leavesEmpty_iff hsound hw
    · intro a m' os hstep hnotifies index w hw
      have hafter := WaylandClipboard.step_sound hsound hstep
      rw [WaylandClipboard.leavesEmpty_iff hafter hw]
      exact WaylandClipboard.stop_of_notifies hstep hnotifies
  · intro h m hrun
    have hfresh := X11Clipboard.run_fresh hrun
    constructor
    · intro index w hw
      exact X11Clipboard.leavesEmpty_iff hfresh.1 hw
    · intro a m' os hstep hnotifies index w hw
      have hafter := (X11Clipboard.step_sound hfresh hstep).1
      rw [X11Clipboard.leavesEmpty_iff hafter hw]
      exact X11Clipboard.stop_of_notifies hstep hnotifies

/-! ## Runs -/

/-- A delayed text has been asked for on Wayland. -/
def waylandAsked : List WaylandClipboard.Action :=
  [.offer (.delayed .text [7]), .post, .runTask true, .send (ascii "text/plain") 3 []]

def waylandWorker : WaylandClipboard.Worker := ⟨3, [7], ascii "text/plain", 0⟩

/-- The manager then. -/
def waylandManager : WaylandClipboard.Manager :=
  { state := { currentHash := [7] }
    currentSource := some ⟨.text, 0⟩
    workers := [waylandWorker]
    offers := 1 }

/-- The same on X11. -/
def x11Asked : List X11Clipboard.Action :=
  [.announceDelayed .text [7], .post, .runTask, .record,
    .retrieve (ascii "text/plain") .qString]

def x11Waiter : X11Clipboard.Waiter := ⟨[7], .text, .consumer (ascii "text/plain") .qString⟩

def x11Manager : X11Clipboard.Manager :=
  { state := { currentHash := [7] }
    clipboard := some ⟨0, .delayed [7] .text⟩
    echo := { announcedMime := some 0 }
    waiters := [x11Waiter]
    nextPointer := 1 }

theorem wayland_asked : ∃ h, (WaylandClipboard.machine WaylandClipboard.noImages).Run
    Machine.always {} h waylandManager := by
  have hexec : ((WaylandClipboard.machine WaylandClipboard.noImages).exec {} waylandAsked).map
      (fun r => r.1) = some waylandManager := by decide
  obtain ⟨h, m, hrun, hm⟩ := Machine.Run.of_exec_map hexec
  have hreached : m = waylandManager := hm
  subst hreached
  exact ⟨h, hrun⟩

theorem x11_asked : ∃ h, (X11Clipboard.machine WaylandClipboard.noImages X11Echo.asciiQt).Run
    Machine.always {} h x11Manager := by
  have hexec : ((X11Clipboard.machine WaylandClipboard.noImages X11Echo.asciiQt).exec {}
      x11Asked).map (fun r => r.1) = some x11Manager := by decide
  obtain ⟨h, m, hrun, hm⟩ := Machine.Run.of_exec_map hexec
  have hreached : m = x11Manager := hm
  subst hreached
  exact ⟨h, hrun⟩

/-- The text is superseded by another, and then the manager is destroyed. -/
theorem superseded_waiters_leave_destroyed :
    (∃ h m m' os, (WaylandClipboard.machine WaylandClipboard.noImages).Run Machine.always {} h m ∧
      (WaylandClipboard.machine WaylandClipboard.noImages).step m .destroy = some (m', os) ∧
      WaylandClipboard.Superseded m' 0 waylandWorker ∧
      WaylandClipboard.LeavesEmpty WaylandClipboard.noImages m' 0 waylandWorker) ∧
    (∃ h m m' os, (X11Clipboard.machine WaylandClipboard.noImages X11Echo.asciiQt).Run
        Machine.always {} h m ∧
      (X11Clipboard.machine WaylandClipboard.noImages X11Echo.asciiQt).step m .destroy =
        some (m', os) ∧
      X11Clipboard.Superseded m' 0 x11Waiter ∧
      X11Clipboard.LeavesEmpty WaylandClipboard.noImages X11Echo.asciiQt m' 0 x11Waiter) := by
  have hiff := superseded_waiters_leave_iff WaylandClipboard.noImages X11Echo.asciiQt
  constructor
  · obtain ⟨h, hrun⟩ := wayland_asked
    have hrun' := Machine.Run.snoc (a := .offer (.delayed .text [9])) hrun trivial rfl
    refine ⟨_, _, _, _, hrun', rfl, ⟨rfl, by decide⟩, ?_⟩
    exact ((hiff.1 _ _ hrun').2 .destroy _ _ rfl rfl 0 waylandWorker ⟨rfl, by decide⟩).mpr rfl
  · obtain ⟨h, hrun⟩ := x11_asked
    have hrun' := Machine.Run.snoc (a := .announceDelayed .text [9]) hrun trivial rfl
    refine ⟨_, _, _, _, hrun', rfl, ⟨rfl, by decide⟩, ?_⟩
    exact ((hiff.2 _ _ hrun').2 .destroy _ _ rfl rfl 0 x11Waiter ⟨rfl, by decide⟩).mpr rfl

/-- **A superseded waiter is notified in vain**: the text is superseded by
another, the waiter tests its predicate, and goes on waiting. -/
theorem superseded_waiters_wait_on :
    (∃ h m m' os, (WaylandClipboard.machine WaylandClipboard.noImages).Run Machine.always {} h m ∧
      (WaylandClipboard.machine WaylandClipboard.noImages).step m (.offer (.delayed .text [9])) =
        some (m', os) ∧
      WaylandClipboard.Superseded m' 0 waylandWorker ∧
      (WaylandClipboard.machine WaylandClipboard.noImages).step m' (.wake 0 false []) =
        some (m', []) ∧
      ¬ WaylandClipboard.LeavesEmpty WaylandClipboard.noImages m' 0 waylandWorker) ∧
    (∃ h m m' os, (X11Clipboard.machine WaylandClipboard.noImages X11Echo.asciiQt).Run
        Machine.always {} h m ∧
      (X11Clipboard.machine WaylandClipboard.noImages X11Echo.asciiQt).step m
        (.announceDelayed .text [9]) = some (m', os) ∧
      X11Clipboard.Superseded m' 0 x11Waiter ∧
      (X11Clipboard.machine WaylandClipboard.noImages X11Echo.asciiQt).step m' (.wake 0 false) =
        some (m', []) ∧
      ¬ X11Clipboard.LeavesEmpty WaylandClipboard.noImages X11Echo.asciiQt m' 0 x11Waiter) := by
  constructor
  · obtain ⟨h, hrun⟩ := wayland_asked
    refine ⟨h, _, _, _, hrun, rfl, ⟨rfl, by decide⟩, rfl, ?_⟩
    intro hleaves
    cases hleaves []
  · obtain ⟨h, hrun⟩ := x11_asked
    refine ⟨h, _, _, _, hrun, rfl, ⟨rfl, by decide⟩, rfl, ?_⟩
    intro hleaves
    cases hleaves

end SupersededWaiters
