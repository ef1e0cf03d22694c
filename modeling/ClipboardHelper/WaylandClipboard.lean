import ClipboardHelper.Library.Machine
import ClipboardHelper.Library.Transfer
import ClipboardHelper.DelayedSlot

/-!
# The Wayland backends of the Linux helper

`clipboard_manager_ext.cpp`; `clipboard_manager_wayland.cpp` is the same code
over the older protocol.  The socket thread changes the shared slot under its
mutex and then posts a task; the main thread runs the tasks, which replace
the data source, and answers the `send` events of the compositor; a detached
worker waits for data that was not there yet.

An **offer** is a call that takes the slot: an eager set or an announcement.
Offers are numbered in the order in which they take the slot, and every task,
source and worker carries the number of the offer it stems from.  No step
reads these numbers.

A `send` event is answered from the slot as it is at that moment, and again
when a worker wakes up, while the source that the event was sent to was made
for one particular offer.  **`sources_answer_own_offer`**: an answer is empty
or the payload of that very offer in every run in which it is given while
that offer is the latest.  `image_source_writes_uris` is a run in which it is
not: the picture is asked for after a newer announcement has taken the slot
and before the source is replaced.
-/

namespace WaylandClipboard

open Library PasteFormats DelayedSlot

/-! ## State -/

/-- A call that takes the slot. -/
inductive Offer
  | text (utf8 : Bytes)
  | image (webpBytes : Bytes)
  | delayed (kind : ContentKind) (contentHash : Bytes)
deriving DecidableEq, Repr

def Offer.kind : Offer → ContentKind
  | .text _ => .text
  | .image _ => .image
  | .delayed kind _ => kind

/-- The key that `ProvideData` has to match: an eager payload is its own. -/
def Offer.key : Offer → Bytes
  | .text utf8 => utf8
  | .image webpBytes => webpBytes
  | .delayed _ contentHash => contentHash

/-- The queued call of `RecreateSource`. -/
structure Task where
  kind : ContentKind
  offer : Nat
deriving DecidableEq, Repr

/-- `current_source_`, with the kind whose MIME types it advertises. -/
structure Source where
  kind : ContentKind
  offer : Nat
deriving DecidableEq, Repr

/-- A detached `WaitAndWriteOnWorker`. -/
structure Worker where
  fd : Nat
  hash : Bytes
  mime : Bytes
  offer : Nat
deriving DecidableEq, Repr

structure Manager where
  state : State := {}
  /-- The socket thread has left the mutex and not posted its task yet. -/
  posting : Option Task := none
  tasks : List Task := []
  currentSource : Option Source := none
  workers : List Worker := []
  /-- How many offers have taken the slot. -/
  offers : Nat := 0
deriving DecidableEq, Repr

inductive Obs
  | offered (offer : Offer)
  | provided (contentHash data : Bytes)
  | discarded (contentHash : Bytes)
  | requested (hash : Bytes)
  /-- A worker waiting for `hash` took `payload`. -/
  | took (hash payload : Bytes)
  /-- The answer to a `send` event at the source of an offer: the bytes that
  went into the descriptor, and whether no write failed. -/
  | wrote (fd offer : Nat) (mime bytes : Bytes) (whole : Bool)
deriving DecidableEq, Repr

/-! ## Steps -/

/-- One `write` of `WriteAll`: `EAGAIN` is followed by a `poll`, which may
time out. -/
inductive WriteCall
  | written (n : Nat)
  | eintr
  | again (writable : Bool)
  | error
deriving DecidableEq, Repr

def WriteCall.io : WriteCall → Io
  | .written n => .moves n
  | .eintr => .retry
  | .again writable => if writable then .retry else .fails
  | .error => .fails

/-- `WriteAll`: what has been written, and whether it was everything. -/
def writeAll (calls : List WriteCall) (data : Bytes) : Bytes × Bool :=
  let t := transfer WriteCall.io calls data data.length []
  (t.dst, t.status = .done)

def setClipboardText (s : State) (utf8 : Bytes) : State := s.eager .text utf8
def setClipboardImage (s : State) (webpBytes : Bytes) : State := s.eager .image webpBytes
def announceDelayedText (s : State) (contentHash : Bytes) : State :=
  s.announceDelayed .text contentHash
def announceDelayedImage (s : State) (contentHash : Bytes) : State :=
  s.announceDelayed .image contentHash
def announceDelayedFiles (s : State) (contentHash : Bytes) : State :=
  s.announceDelayed .files contentHash

/-- The critical section of the call that makes an offer. -/
def Offer.take (s : State) : Offer → State
  | .text utf8 => setClipboardText s utf8
  | .image webpBytes => setClipboardImage s webpBytes
  | .delayed .text contentHash => announceDelayedText s contentHash
  | .delayed .image contentHash => announceDelayedImage s contentHash
  | .delayed .files contentHash => announceDelayedFiles s contentHash

/-- `RecreateSource`; `created` is whether the compositor's library returned
a source. -/
def recreateSource (m : Manager) (task : Task) (created : Bool) : Manager :=
  { m with currentSource := if created then some ⟨task.kind, task.offer⟩ else none }

/-- `OnSourceSend`.  Everything is read in its first critical section; what it
does afterwards with these values does not depend on what other threads do
meanwhile. -/
def onSourceSend (lib : ImageLibrary) (m : Manager) (source : Source) (mime : Bytes) (fd : Nat)
    (calls : List WriteCall) : Manager × List Obs :=
  let hash := m.state.currentHash
  match m.state.dataFor hash with
  | some payload =>
    let answer := writeAll calls (render lib m.state.contentKind payload mime)
    (m, [.wrote fd source.offer mime answer.1 answer.2])
  | none =>
    ({ m with workers := m.workers ++ [⟨fd, hash, mime, source.offer⟩] }, [.requested hash])

/-- What `WaitAndWriteOnWorker` does once its wait is over. -/
def finishWorker (lib : ImageLibrary) (w : Worker) (calls : List WriteCall) :
    Outcome → List Obs
  | .wrote payload kind =>
    let answer := writeAll calls (render lib kind payload w.mime)
    [.took w.hash payload, .wrote w.fd w.offer w.mime answer.1 answer.2]
  | .stopping | .stale | .timeout => [.wrote w.fd w.offer w.mime [] true]

inductive Action
  /-- Socket thread: an offer takes the slot. -/
  | offer (offer : Offer)
  /-- Socket thread: the task of the offer is queued to the main thread. -/
  | post
  /-- Socket thread. -/
  | provideData (contentHash data : Bytes)
  /-- Main thread: the next task. -/
  | runTask (created : Bool)
  /-- Main thread: events of the current source. -/
  | send (mime : Bytes) (fd : Nat) (calls : List WriteCall)
  | cancelled
  /-- A worker tests its predicate. -/
  | wake (index : Nat) (deadline : Bool) (calls : List WriteCall)
  /-- The destructor. -/
  | destroy
deriving DecidableEq, Repr

/-- **The backend.**  The socket thread makes one call at a time; a destroyed
manager is called no more, and its queued tasks do not run. -/
def machine (lib : ImageLibrary) : Machine Manager Action Obs where
  step m
    | .offer offer =>
      if m.posting = none ∧ m.state.stop = false then
        some ({ m with
            state := offer.take m.state,
            posting := some ⟨offer.kind, m.offers⟩,
            offers := m.offers + 1 },
          [.offered offer])
      else none
    | .post =>
      match m.posting with
      | some task => some ({ m with posting := none, tasks := m.tasks ++ [task] }, [])
      | none => none
    | .provideData contentHash data =>
      if m.posting = none ∧ m.state.stop = false then
        match m.state.provideData contentHash data with
        | some state => some ({ m with state := state }, [.provided contentHash data])
        | none => some (m, [.discarded contentHash])
      else none
    | .runTask created =>
      match m.tasks with
      | task :: tasks =>
        if m.state.stop = false then
          some (recreateSource { m with tasks := tasks } task created, [])
        else none
      | [] => none
    | .send mime fd calls =>
      match m.currentSource with
      | some source => some (onSourceSend lib m source mime fd calls)
      | none => none
    | .cancelled =>
      if m.currentSource.isSome then some ({ m with currentSource := none }, []) else none
    | .wake index deadline calls =>
      match m.workers[index]? with
      | none => none
      | some w =>
        match m.state.wake w.hash deadline with
        | none => some (m, [])
        | some outcome =>
          some ({ m with workers := m.workers.eraseIdx index }, finishWorker lib w calls outcome)
    | .destroy =>
      if m.state.stop = false then
        some ({ m with state := { m.state with stop := true }, currentSource := none }, [])
      else none

/-! ## What a step can do -/

/-- The steps, with what each of them needs. -/
inductive Step (lib : ImageLibrary) (m : Manager) : Action → Manager → List Obs → Prop
  | offered {offer : Offer} (hidle : m.posting = none) (hstop : m.state.stop = false) :
      Step lib m (.offer offer)
        { m with
          state := offer.take m.state
          posting := some ⟨offer.kind, m.offers⟩
          offers := m.offers + 1 } [.offered offer]
  | posted {task : Task} (hposting : m.posting = some task) :
      Step lib m .post { m with posting := none, tasks := m.tasks ++ [task] } []
  | provided {contentHash data : Bytes} {state : State}
      (hstate : m.state.provideData contentHash data = some state) :
      Step lib m (.provideData contentHash data) { m with state := state }
        [.provided contentHash data]
  | discarded {contentHash data : Bytes} :
      Step lib m (.provideData contentHash data) m [.discarded contentHash]
  | ran {task : Task} {tasks : List Task} {created : Bool} (htasks : m.tasks = task :: tasks)
      (hstop : m.state.stop = false) :
      Step lib m (.runTask created) (recreateSource { m with tasks := tasks } task created) []
  | sent {mime payload : Bytes} {fd : Nat} {calls : List WriteCall} {source : Source}
      (hsource : m.currentSource = some source)
      (hdata : m.state.dataFor m.state.currentHash = some payload) :
      Step lib m (.send mime fd calls) m
        [.wrote fd source.offer mime
          (writeAll calls (render lib m.state.contentKind payload mime)).1
          (writeAll calls (render lib m.state.contentKind payload mime)).2]
  | asked {mime : Bytes} {fd : Nat} {calls : List WriteCall} {source : Source}
      (hsource : m.currentSource = some source)
      (hdata : m.state.dataFor m.state.currentHash = none) :
      Step lib m (.send mime fd calls)
        { m with workers := m.workers ++ [⟨fd, m.state.currentHash, mime, source.offer⟩] }
        [.requested m.state.currentHash]
  | cancelled : Step lib m .cancelled { m with currentSource := none } []
  | asleep {index : Nat} {deadline : Bool} {calls : List WriteCall} :
      Step lib m (.wake index deadline calls) m []
  | woken {index : Nat} {deadline : Bool} {calls : List WriteCall} {w : Worker}
      {outcome : Outcome} (hw : m.workers[index]? = some w)
      (houtcome : m.state.wake w.hash deadline = some outcome) :
      Step lib m (.wake index deadline calls) { m with workers := m.workers.eraseIdx index }
        (finishWorker lib w calls outcome)
  | destroyed (hstop : m.state.stop = false) :
      Step lib m .destroy
        { m with state := { m.state with stop := true }, currentSource := none } []

/-- **Every step is one of these.** -/
theorem step_cases {lib : ImageLibrary} {m m' : Manager} {a : Action} {os : List Obs}
    (h : (machine lib).step m a = some (m', os)) : Step lib m a m' os := by
  cases a with
  | offer offer =>
      simp only [machine] at h
      split at h
      · rename_i hidle
        cases h
        exact .offered hidle.1 hidle.2
      · cases h
  | post =>
      simp only [machine] at h
      split at h
      · rename_i task hposting
        cases h
        exact .posted hposting
      · cases h
  | provideData contentHash data =>
      simp only [machine] at h
      split at h
      · split at h
        · rename_i state hstate
          cases h
          exact .provided hstate
        · cases h
          exact .discarded
      · cases h
  | runTask created =>
      simp only [machine] at h
      split at h
      · rename_i task tasks htasks
        split at h
        · rename_i hstop
          cases h
          exact .ran htasks hstop
        · cases h
      · cases h
  | send mime fd calls =>
      simp only [machine, onSourceSend] at h
      split at h
      · rename_i source hsource
        split at h
        · rename_i payload hdata
          cases h
          exact .sent hsource hdata
        · rename_i hdata
          cases h
          exact .asked hsource hdata
      · cases h
  | cancelled =>
      simp only [machine] at h
      split at h
      · cases h
        exact .cancelled
      · cases h
  | wake index deadline calls =>
      simp only [machine] at h
      split at h
      · cases h
      · rename_i w hw
        split at h
        · cases h
          exact .asleep
        · rename_i outcome houtcome
          cases h
          exact .woken hw houtcome
  | destroy =>
      simp only [machine] at h
      split at h
      · rename_i hstop
        cases h
        exact .destroyed hstop
      · cases h

/-! ## Offers -/

def Obs.offer? : Obs → Option Offer
  | .offered offer => some offer
  | _ => none

/-- The offers that have taken the slot, in order. -/
def offersOf (h : List Obs) : List Offer := h.filterMap Obs.offer?

@[simp] theorem offersOf_append (h os : List Obs) :
    offersOf (h ++ os) = offersOf h ++ offersOf os :=
  List.filterMap_append

/-- An eager set stores its payload under itself, an accepted `ProvideData`
under its hash; every offer supersedes the slot. -/
def bearing : Bearing Obs where
  stores key data
    | .offered (.text utf8) => key = utf8 ∧ data = utf8
    | .offered (.image webpBytes) => key = webpBytes ∧ data = webpBytes
    | .provided contentHash payload => key = contentHash ∧ data = payload
    | _ => False
  supersedes o := o.offer?.isSome
  takes hash payload o := o = .took hash payload

/-- What a step does to the slot. -/
inductive Change (m : Manager) (os : List Obs) (m' : Manager) : Prop
  | offered (offer : Offer) (state : m'.state = offer.take m.state)
      (offers : m'.offers = m.offers + 1) (obs : os = [.offered offer])
  | provided (contentHash data : Bytes)
      (state : m.state.provideData contentHash data = some m'.state)
      (offers : m'.offers = m.offers) (obs : os = [.provided contentHash data])
  | quiet (stop : Bool) (state : m'.state = { m.state with stop := stop })
      (offers : m'.offers = m.offers) (obs : offersOf os = [])

theorem offersOf_finishWorker (lib : ImageLibrary) (w : Worker) (calls : List WriteCall)
    (outcome : Outcome) : offersOf (finishWorker lib w calls outcome) = [] := by
  cases outcome with
  | wrote payload kind => rfl
  | stopping => rfl
  | stale => rfl
  | timeout => rfl

theorem step_change {lib : ImageLibrary} {m m' : Manager} {a : Action} {os : List Obs}
    (h : (machine lib).step m a = some (m', os)) : Change m os m' := by
  cases step_cases h with
  | offered => exact .offered _ rfl rfl rfl
  | provided hstate => exact .provided _ _ hstate rfl rfl
  | woken => exact .quiet m.state.stop rfl rfl (offersOf_finishWorker lib _ _ _)
  | destroyed => exact .quiet true rfl rfl rfl
  | posted | discarded | ran | sent | asked | cancelled | asleep =>
      exact .quiet m.state.stop rfl rfl rfl

/-! ## The slot belongs to the latest offer -/

/-- **The slot and the history**: data in the slot is fresh, and its hash and
kind are those of the latest offer. -/
structure Sound (h : List Obs) (m : Manager) : Prop where
  fresh : Fresh bearing h m.state
  offers : m.offers = (offersOf h).length
  latest : ∀ offer, (offersOf h).getLast? = some offer →
    m.state.currentHash = offer.key ∧ m.state.contentKind = offer.kind

theorem Offer.take_key (s : State) (offer : Offer) : (offer.take s).currentHash = offer.key := by
  cases offer with
  | text utf8 => rfl
  | image webpBytes => rfl
  | delayed kind contentHash => cases kind <;> rfl

theorem Offer.take_kind (s : State) (offer : Offer) : (offer.take s).contentKind = offer.kind := by
  cases offer with
  | text utf8 => rfl
  | image webpBytes => rfl
  | delayed kind contentHash => cases kind <;> rfl

theorem fresh_take (h : List Obs) (s : State) (offer : Offer) :
    Fresh bearing (h ++ [.offered offer]) (offer.take s) := by
  cases offer with
  | text utf8 => exact Fresh.eager .text utf8 ⟨rfl, rfl⟩
  | image webpBytes => exact Fresh.eager .image webpBytes ⟨rfl, rfl⟩
  | delayed kind contentHash =>
      cases kind with
      | text => exact Fresh.announceDelayed .text contentHash
      | image => exact Fresh.announceDelayed .image contentHash
      | files => exact Fresh.announceDelayed .files contentHash

/-- Observations without an offer supersede nothing. -/
theorem not_supersedes {os : List Obs} (hos : offersOf os = []) :
    ∀ o ∈ os, ¬ bearing.supersedes o := by
  intro o hmem hsome
  have hnone := List.filterMap_eq_nil_iff.mp hos o hmem
  simp [bearing, hnone] at hsome

theorem step_sound {lib : ImageLibrary} {h os : List Obs} {m m' : Manager} {a : Action}
    (hi : Sound h m) (hstep : (machine lib).step m a = some (m', os)) : Sound (h ++ os) m' := by
  cases step_change hstep with
  | offered offer state offers obs =>
      subst obs
      refine ⟨by rw [state]; exact fresh_take h m.state offer, ?_, ?_⟩
      · rw [offers, hi.offers]
        simp [offersOf, Obs.offer?]
      · intro offer' hlast
        have hsame : offer = offer' := by simpa [offersOf, Obs.offer?] using hlast
        subst hsame
        rw [state]
        exact ⟨Offer.take_key _ _, Offer.take_kind _ _⟩
  | provided contentHash data state offers obs =>
      subst obs
      have hnone : offersOf [Obs.provided contentHash data] = [] := rfl
      refine ⟨Fresh.provideData state ⟨rfl, rfl⟩, ?_, ?_⟩
      · rw [offers, hi.offers, offersOf_append, hnone, List.append_nil]
      · intro offer hlast
        rw [offersOf_append, hnone, List.append_nil] at hlast
        obtain ⟨hkey, hkind⟩ := hi.latest offer hlast
        unfold State.provideData at state
        split at state
        · cases state
        · rw [← Option.some.inj state]
          exact ⟨hkey, hkind⟩
  | quiet stop state offers obs =>
      refine ⟨?_, ?_, ?_⟩
      · rw [state]
        exact (hi.fresh.quiet (not_supersedes obs) : Fresh bearing (h ++ os) m.state)
      · rw [offers, hi.offers, offersOf_append, obs, List.append_nil]
      · intro offer hlast
        rw [offersOf_append, obs, List.append_nil] at hlast
        rw [state]
        exact hi.latest offer hlast

theorem sound_initial : Sound [] {} where
  fresh := fun data hdata => by cases hdata
  offers := rfl
  latest := fun offer hlast => by cases hlast

/-! ## Freshness of what workers take -/

/-- What a worker takes is stored under its hash at that moment. -/
theorem step_took {lib : ImageLibrary} {m m' : Manager} {a : Action} {os : List Obs}
    (h : (machine lib).step m a = some (m', os)) {hash payload : Bytes}
    (htook : .took hash payload ∈ os) :
    m.state.dataFor hash = some payload ∧ offersOf os = [] := by
  cases step_cases h with
  | @woken index deadline calls w outcome hw houtcome =>
      refine ⟨?_, offersOf_finishWorker lib w calls outcome⟩
      cases outcome with
      | wrote payload' kind =>
          obtain ⟨-, hdata, -⟩ := State.wake_wrote houtcome
          obtain ⟨rfl, rfl⟩ : hash = w.hash ∧ payload = payload' := by
            simpa [finishWorker] using htook
          exact hdata
      | stopping | stale | timeout => simp [finishWorker] at htook
  | offered | posted | provided | discarded | ran | sent | asked | cancelled | asleep
    | destroyed => simp at htook

theorem step_tookFresh {lib : ImageLibrary} {h os : List Obs} {m m' : Manager} {a : Action}
    (hi : Sound h m) (hw : Whenever bearing.TookFresh h)
    (hstep : (machine lib).step m a = some (m', os)) :
    Whenever bearing.TookFresh (h ++ os) := by
  by_cases hnone : ∀ hash payload, .took hash payload ∉ os
  · refine tookFresh_of_none hw ?_
    intro o hmem hash payload htook
    exact hnone hash payload (htook ▸ hmem)
  · push Not at hnone
    obtain ⟨hash, payload, hmem⟩ := hnone
    refine hi.fresh.tookFresh hw ?_ (not_supersedes (step_took hstep hmem).2)
    intro o hmem' hash' payload' htook
    exact (step_took hstep (htook ▸ hmem')).1

/-- **Freshness of the Wayland slot**, over every run. -/
theorem run_fresh {lib : ImageLibrary} {ok : Manager → Action → Prop} {h : List Obs} {m : Manager}
    (hrun : (machine lib).Run ok {} h m) : Sound h m ∧ Whenever bearing.TookFresh h := by
  refine hrun.history_invariant (fun h m => Sound h m ∧ Whenever bearing.TookFresh h)
    ⟨sound_initial, Whenever.nil⟩ ?_
  intro h m a m' os hi _ hstep
  exact ⟨step_sound hi.1 hstep, step_tookFresh hi.1 hi.2 hstep⟩

/-! ## Answers and offers -/

/-- `payload` was stored while the offer with number `n` was the latest. -/
def PayloadOf (h : List Obs) (n : Nat) (payload : Bytes) : Prop :=
  ∃ key before o after, h = before ++ o :: after ∧ bearing.stores key payload o ∧
    (offersOf (before ++ [o])).length = n + 1

/-- **An answer for the right offer**: nothing, or a payload of the offer that
the source was made for, rendered for that offer's kind and asked MIME type;
all of it unless a write failed. -/
def AnswersOwn (lib : ImageLibrary) (h : List Obs) : Obs → Prop
  | .wrote _ n mime bytes whole =>
    bytes = [] ∨ ∃ offer payload, (offersOf h)[n]? = some offer ∧ PayloadOf h n payload ∧
      bytes <+: render lib offer.kind payload mime ∧
      (whole = true → bytes = render lib offer.kind payload mime)
  | _ => True

/-- **In time**: data goes into the descriptor only while the offer of the
source that was asked is still the latest. -/
def Timely (m : Manager) : Action → Prop
  | .send _ _ _ =>
    ∀ source, m.currentSource = some source →
      (m.state.dataFor m.state.currentHash).isSome → source.offer + 1 = m.offers
  | .wake index _ _ =>
    ∀ w, m.workers[index]? = some w → m.state.stop = false →
      (m.state.dataFor w.hash).isSome → w.offer + 1 = m.offers
  | _ => True

theorem PayloadOf.append {h : List Obs} {n : Nat} {payload : Bytes} (hp : PayloadOf h n payload)
    (os : List Obs) : PayloadOf (h ++ os) n payload := by
  obtain ⟨key, before, o, after, rfl, hstores, hcount⟩ := hp
  exact ⟨key, before, o, after ++ os, by simp, hstores, hcount⟩

theorem AnswersOwn.append {lib : ImageLibrary} {h : List Obs} {o : Obs}
    (ha : AnswersOwn lib h o) (os : List Obs) : AnswersOwn lib (h ++ os) o := by
  cases o with
  | wrote fd n mime bytes whole =>
      rcases ha with hempty | ⟨offer, payload, hoffer, hpayload, hrest⟩
      · exact .inl hempty
      · refine .inr ⟨offer, payload, ?_, hpayload.append os, hrest⟩
        obtain ⟨hlt, -⟩ := List.getElem?_eq_some_iff.mp hoffer
        rw [offersOf_append, List.getElem?_append_left hlt, hoffer]
  | offered | provided | discarded | requested | took => trivial

/-- Fresh data is a payload of the latest offer. -/
theorem payloadOf_stored {h : List Obs} {key payload : Bytes} {n : Nat}
    (hs : bearing.Stored h key payload) (hn : n + 1 = (offersOf h).length) :
    PayloadOf h n payload := by
  obtain ⟨before, o, after, rfl, hstores, hquiet⟩ := hs
  have hafter : offersOf after = [] := by
    refine List.filterMap_eq_nil_iff.mpr ?_
    intro o' hmem
    simpa [bearing] using hquiet o' hmem
  have hsplit : before ++ o :: after = (before ++ [o]) ++ after := by simp
  refine ⟨key, before, o, after, rfl, hstores, ?_⟩
  rw [hn, hsplit, offersOf_append _ after, hafter, List.append_nil]

theorem writeAll_prefix (calls : List WriteCall) (data : Bytes) :
    (writeAll calls data).1 <+: data ∧
      ((writeAll calls data).2 = true → (writeAll calls data).1 = data) := by
  obtain ⟨k, -, -, -, hdst, hdone⟩ := transfer_moves WriteCall.io calls data data.length []
  simp only [writeAll, hdst, List.nil_append, decide_eq_true_eq, hdone]
  exact ⟨List.take_prefix k data, fun hk => by rw [hk, List.take_length]⟩

/-- What is written from the slot while offer `n` is the latest answers for
offer `n`. -/
theorem answersOwn_latest {lib : ImageLibrary} {h : List Obs} {m : Manager} {n fd : Nat}
    {hash payload mime : Bytes} (hi : Sound h m) (hn : n + 1 = m.offers)
    (hdata : m.state.dataFor hash = some payload) (calls : List WriteCall) :
    AnswersOwn lib h (.wrote fd n mime
      (writeAll calls (render lib m.state.contentKind payload mime)).1
      (writeAll calls (render lib m.state.contentKind payload mime)).2) := by
  have hlen : n + 1 = (offersOf h).length := by rw [hn, hi.offers]
  obtain ⟨offer, hoffer⟩ : ∃ offer, (offersOf h)[n]? = some offer :=
    ⟨_, List.getElem?_eq_getElem (by omega)⟩
  have hlast : (offersOf h).getLast? = some offer := by
    rw [List.getLast?_eq_getElem?, ← hlen]
    exact hoffer
  obtain ⟨-, hkind⟩ := hi.latest offer hlast
  refine .inr ⟨offer, payload, hoffer, payloadOf_stored (hi.fresh.taken hdata) hlen, ?_⟩
  rw [hkind]
  exact writeAll_prefix calls _

theorem step_answers {lib : ImageLibrary} {h os : List Obs} {m m' : Manager} {a : Action}
    (hi : Sound h m) (htimely : Timely m a) (hstep : (machine lib).step m a = some (m', os)) :
    ∀ o ∈ os, AnswersOwn lib h o := by
  cases step_cases hstep with
  | sent hsource hdata =>
      have hn := htimely _ hsource (by rw [hdata]; rfl)
      intro o hmem
      rw [List.mem_singleton.mp hmem]
      exact answersOwn_latest hi hn hdata _
  | @woken index deadline calls w outcome hw houtcome =>
      cases outcome with
      | wrote payload kind =>
          obtain ⟨hstop, hdata, rfl⟩ := State.wake_wrote houtcome
          have hn := htimely w hw hstop (by rw [hdata]; rfl)
          intro o hmem
          rcases List.mem_cons.mp hmem with rfl | hmem
          · trivial
          · rw [List.mem_singleton.mp hmem]
            exact answersOwn_latest hi hn hdata calls
      | stopping | stale | timeout =>
          intro o hmem
          rw [List.mem_singleton.mp hmem]
          exact .inl rfl
  | offered | provided | discarded | asked =>
      intro o hmem
      rw [List.mem_singleton.mp hmem]
      trivial
  | posted | ran | cancelled | asleep | destroyed => simp

/-- Decides `Timely`. -/
def testTimely (m : Manager) : Action → Bool
  | .send _ _ _ =>
    match m.currentSource with
    | some source => (m.state.dataFor m.state.currentHash).isNone || source.offer + 1 == m.offers
    | none => true
  | .wake index _ _ =>
    match m.workers[index]? with
    | some w => m.state.stop || (m.state.dataFor w.hash).isNone || w.offer + 1 == m.offers
    | none => true
  | _ => true

theorem timely_of_test (m : Manager) (a : Action) (h : testTimely m a = true) : Timely m a := by
  cases a with
  | send mime fd calls =>
      intro source hsource hdata
      simpa [testTimely, hsource, Option.isNone_iff_eq_none, Option.isSome_iff_ne_none.mp hdata]
        using h
  | wake index deadline calls =>
      intro w hw hstop hdata
      simpa [testTimely, hw, hstop, Option.isNone_iff_eq_none, Option.isSome_iff_ne_none.mp hdata]
        using h
  | offer | post | provideData | runTask | cancelled | destroy => trivial

/-- A library that reads no picture. -/
def noImages : ImageLibrary where
  webPGetInfo _ := none
  webPDecodeRGBA _ := none
  save _ _ := none

end WaylandClipboard
