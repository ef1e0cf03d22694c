import ClipboardHelper.WaylandClipboard

/-!
# The device side of the Wayland backends

What `ExtClipboardManager` and `WlrClipboardManager` do with the events of
their data-control device, around the source side of `WaylandClipboard`.

The compositor introduces an offer with `data_offer`, names its MIME types,
and then says with `selection` or `primary_selection` what the offer is for;
`offer_mimes_` tracks the offers in between.  A selection of another client
that offers text is received through a pipe, which a detached worker drains;
the worker then stores the text under the mutex and calls `on_changed` after
it has dropped the mutex.  An event that names an offer which the client has
destroyed arrives with null.

For the record only, a device also carries what the clipboard holds as far as
the compositor has told (`selection`).

The source side of every run is a run of `WaylandClipboard` (`run_manager`),
so what is proved there holds here.
-/

namespace WaylandDevice

open Library PasteFormats
open WaylandClipboard (Manager)

/-! ## Draining a pipe -/

/-- One `read` of `DrainFd`. -/
inductive ReadCall
  | got (first : UInt8) (rest : Bytes)
  | eof
  | eintr
  | error
deriving DecidableEq, Repr

/-- The cap on what is drained, 16 MiB. -/
def drainCap : Nat := 16777216

/-- `DrainFd` over the results of its calls: the buffer and the return value,
or `none` while it still waits. -/
def drainFd : List ReadCall → Bytes → Option (Bytes × Bool)
  | [], out => if drainCap ≤ out.length then some (out, true) else none
  | call :: calls, out =>
    if drainCap ≤ out.length then some (out, true)
    else
      match call with
      | .got first rest =>
        drainFd calls (out ++ (first :: rest).take (min 4096 (drainCap - out.length)))
      | .eof => some (out, true)
      | .eintr => drainFd calls out
      | .error => some (out, false)

/-- The text that a drain will come to, if it does not fail or wait
forever. -/
def drainedText (calls : List ReadCall) : Option Bytes :=
  match drainFd calls [] with
  | some (out, true) => some out
  | _ => none

/-- `DrainFd` keeps to its cap. -/
theorem length_drainFd (calls : List ReadCall) (out : Bytes) {result : Bytes × Bool}
    (h : drainFd calls out = some result) (hout : out.length ≤ drainCap) :
    result.1.length ≤ drainCap := by
  induction calls generalizing out with
  | nil =>
      simp only [drainFd] at h
      split at h
      · cases h
        exact hout
      · cases h
  | cons call calls ih =>
      simp only [drainFd] at h
      split at h
      · cases h
        exact hout
      · cases call with
        | got first rest =>
            refine ih _ h ?_
            rw [List.length_append, List.length_take]
            omega
        | eof | error =>
            cases h
            exact hout
        | eintr => exact ih out h hout

/-! ## State -/

/-- An offer, as the library hands it out. -/
abbrev OfferProxy := Nat

/-- How far a `DrainAndDispatchOnWorker` has come: it drains, it has closed
the pipe, or it has stored the text and holds the callback to call. -/
inductive Stage
  | draining
  | drained (text : Option Bytes)
  | stored (text : Bytes) (callback : Bool)
deriving DecidableEq, Repr

/-- A worker, with the calls of its `DrainFd` to come.  Workers are numbered
by their selection events. -/
structure Drain where
  number : Nat
  calls : List ReadCall
  stage : Stage := .draining
deriving DecidableEq, Repr

/-- What the clipboard holds: nothing, the helper's own offer with this
number, or another client's selection, with the worker that drains it and the
text that is known of it.  `replaced` is after the source was cancelled and
before the compositor has said what replaced it. -/
inductive Selection
  | empty
  | own (offer : Nat)
  | foreign (drain : Option Nat) (text : Option Bytes)
  | replaced
deriving DecidableEq, Repr

/-- When the helper's source is gone. -/
def Selection.withoutOwn (s instead : Selection) : Selection :=
  match s with
  | .own _ => instead
  | s => s

/-- When a worker has stored its text. -/
def Selection.learn (number : Nat) (text : Bytes) : Selection → Selection
  | .foreign (some n) known =>
    if n = number then .foreign (some n) (some text) else .foreign (some n) known
  | s => s

structure Device where
  manager : Manager := {}
  cachedClipboardText : Option Bytes := none
  /-- `on_changed` is set. -/
  onChanged : Bool := true
  /-- `offer_mimes_` -/
  offerMimes : List (OfferProxy × List Bytes) := []
  /-- The offers that are alive in the library. -/
  proxies : List OfferProxy := []
  nextProxy : OfferProxy := 0
  drains : List Drain := []
  nextDrain : Nat := 0
  /-- For the record: the calls that took the slot, and the clipboard. -/
  made : List WaylandClipboard.Offer := []
  selection : Selection := .empty
deriving DecidableEq, Repr

/-- `GetClipboardText`. -/
def Device.getClipboardText (d : Device) : Option Bytes := d.cachedClipboardText

inductive Obs
  | manager (o : WaylandClipboard.Obs)
  | introduced (offer : OfferProxy)
  | destroyed (offer : OfferProxy)
  /-- A primary selection was delivered with this offer. -/
  | primary (offer : OfferProxy)
  /-- A selection event with null has reset the cached text. -/
  | cleared
  /-- A worker was started, with these reads to come. -/
  | spawned (number : Nat) (calls : List ReadCall)
  /-- A worker stored its text, and a worker called `on_changed` with it. -/
  | stored (number : Nat) (text : Bytes)
  | reported (number : Nat) (text : Bytes)
deriving DecidableEq, Repr

/-! ## Device events -/

/-- `kTextMimeTypes`, in the order of preference. -/
def kTextMimeTypes : List Bytes :=
  [ascii "text/plain;charset=utf-8", ascii "UTF8_STRING", ascii "text/plain", ascii "TEXT",
    ascii "STRING"]

/-- `offer_mimes_.find(offer)`; an offer that is not tracked has no types. -/
def Device.mimesOf (d : Device) (offer : OfferProxy) : List Bytes :=
  (d.offerMimes.lookup offer).getD []

/-- `OnDeviceDataOffer`. -/
def onDeviceDataOffer (d : Device) (offer : Option OfferProxy) : Device × List Obs :=
  match offer with
  | none => (d, [])
  | some offer =>
    ({ d with
        offerMimes := (offer, []) :: d.offerMimes
        proxies := offer :: d.proxies
        nextProxy := offer + 1 }, [.introduced offer])

/-- `OnOfferMime`. -/
def onOfferMime (d : Device) (offer : OfferProxy) (mime : Bytes) : Device :=
  { d with
    offerMimes := d.offerMimes.map fun e => if e.1 = offer then (e.1, mime :: e.2) else e }

/-- `DrainOtherOffers`, without the types it returns. -/
def drainOtherOffers (d : Device) (keep : Option OfferProxy) : Device × List Obs :=
  let others := d.offerMimes.filter fun e => decide (some e.1 ≠ keep)
  ({ d with
      offerMimes := d.offerMimes.filter fun e => decide (some e.1 = keep)
      proxies := d.proxies.filter fun offer => decide (offer ∉ others.map Prod.fst) },
    others.map fun e => .destroyed e.1)

/-- `offer_mimes_.erase(offer)` and the `destroy` that ends every path behind
it. -/
def releaseOffer (d : Device) (offer : OfferProxy) : Device × List Obs :=
  ({ d with
      offerMimes := d.offerMimes.filter fun e => decide (e.1 ≠ offer)
      proxies := d.proxies.erase offer }, [.destroyed offer])

/-- The type to receive an offer with. -/
def chosenMime (d : Device) (offer : OfferProxy) : Option Bytes :=
  kTextMimeTypes.find? fun candidate => decide (candidate ∈ d.mimesOf offer)

/-- The worker for a selection, if it offers text and `pipe2` succeeds. -/
def spawnDrain (d : Device) (text pipe : Bool) (calls : List ReadCall) : Device × List Obs :=
  if text && pipe then
    ({ d with
        drains := d.drains ++ [{ number := d.nextDrain, calls := calls }]
        nextDrain := d.nextDrain + 1 }, [.spawned d.nextDrain calls])
  else (d, [])

/-- `OnDeviceSelection`; `overtaken` tells that the event says nothing of the
current selection: it is the echo of the helper's own, or the compositor has
handled a later change when it is delivered. -/
def onDeviceSelection (d : Device) (offer : Option OfferProxy) (overtaken pipe : Bool)
    (calls : List ReadCall) : Device × List Obs :=
  match offer with
  | none =>
    let drained := drainOtherOffers
      { d with
        cachedClipboardText := none
        selection := if overtaken then d.selection else .empty } none
    (drained.1, .cleared :: drained.2)
  | some offer =>
    if d.manager.currentSource.isSome then
      drainOtherOffers
        { d with selection := if overtaken then d.selection else .foreign none none } none
    else
      let text := (chosenMime d offer).isSome
      let drained := drainOtherOffers d (some offer)
      let released := releaseOffer drained.1 offer
      let worker := if text && pipe then some d.nextDrain else none
      let spawned := spawnDrain
        { released.1 with
          selection := if overtaken then d.selection else .foreign worker none } text pipe calls
      (spawned.1, drained.2 ++ released.2 ++ spawned.2)

/-- `S_DevicePrimarySelection`: the offer is destroyed and stays tracked. -/
def devicePrimarySelection (d : Device) (offer : Option OfferProxy) : Device × List Obs :=
  match offer with
  | none => (d, [])
  | some offer =>
    ({ d with proxies := d.proxies.erase offer }, [.primary offer, .destroyed offer])

/-- `TeardownWaylandObjects`, as far as the offers are concerned. -/
def teardownWaylandObjects (d : Device) : Device × List Obs :=
  ({ d with
      offerMimes := []
      proxies := d.proxies.filter fun offer => decide (offer ∉ d.offerMimes.map Prod.fst) },
    d.offerMimes.map fun e => .destroyed e.1)

/-! ## Workers -/

/-- `DrainFd` has returned. -/
def drain (d : Device) (index : Nat) : Option (Device × List Obs) :=
  match d.drains[index]? with
  | some w =>
    if w.stage = .draining then
      match drainFd w.calls [] with
      | some _ => some
          ({ d with
              drains := d.drains.set index { w with stage := .drained (drainedText w.calls) } },
            [])
      | none => none
    else none
  | none => none

/-- Behind the `close`: nothing is stored when the manager is being destroyed
or the drain has failed. -/
def store (d : Device) (index : Nat) : Option (Device × List Obs) :=
  match d.drains[index]? with
  | some w =>
    match w.stage with
    | .drained (some text) =>
      if d.manager.state.stop then some ({ d with drains := d.drains.eraseIdx index }, [])
      else some
        ({ d with
            cachedClipboardText := some text
            drains := d.drains.set index { w with stage := .stored text d.onChanged }
            selection := d.selection.learn w.number text }, [.stored w.number text])
    | .drained none => some ({ d with drains := d.drains.eraseIdx index }, [])
    | _ => none
  | none => none

/-- The callback is called, if there was one. -/
def report (d : Device) (index : Nat) : Option (Device × List Obs) :=
  match d.drains[index]? with
  | some w =>
    match w.stage with
    | .stored text callback => some
        ({ d with drains := d.drains.eraseIdx index },
          if callback then [.reported w.number text] else [])
    | _ => none
  | none => none

/-! ## The machine -/

/-- What the source side's steps do to the selection. -/
def selectionAfter (d : Device) : WaylandClipboard.Action → Selection
  | .runTask created =>
    match d.manager.tasks with
    | task :: _ => if created then .own task.offer else d.selection.withoutOwn .empty
    | [] => d.selection
  | .cancelled => d.selection.withoutOwn .replaced
  | _ => d.selection

/-- The calls that took the slot. -/
def madeAfter (d : Device) : WaylandClipboard.Action → List WaylandClipboard.Offer
  | .offer offer => d.made ++ [offer]
  | _ => d.made

inductive Action
  | manager (a : WaylandClipboard.Action)
  | dataOffer (offer : Option OfferProxy)
  | offerMime (offer : OfferProxy) (mime : Bytes)
  | selection (offer : Option OfferProxy) (overtaken pipe : Bool) (calls : List ReadCall)
  | primarySelection (offer : Option OfferProxy)
  | drain (index : Nat)
  | store (index : Nat)
  | report (index : Nat)
  /-- `Dispatcher::Detach`. -/
  | detach
deriving DecidableEq, Repr

/-- What the library delivers: new offers are fresh, and an event names an
offer that is alive. -/
def Deliverable (d : Device) : Action → Bool
  | .dataOffer (some offer) => offer = d.nextProxy
  | .offerMime offer _ | .selection (some offer) _ _ _ | .primarySelection (some offer) =>
    offer ∈ d.proxies
  | _ => true

/-- **The backend with its device.**  Destroying the manager tears the device
down; no event is delivered afterwards. -/
def machine (lib : ImageLibrary) : Machine Device Action Obs where
  step d
    | .manager a =>
      match (WaylandClipboard.machine lib).step d.manager a with
      | none => none
      | some (m, os) =>
        let lifted :=
          { d with
            manager := m
            made := madeAfter d a
            selection := selectionAfter d a }
        if a = .destroy then
          let torn := teardownWaylandObjects lifted
          some (torn.1, os.map .manager ++ torn.2)
        else some (lifted, os.map .manager)
    | .drain index => drain d index
    | .store index => store d index
    | .report index => report d index
    | .detach => some ({ d with onChanged := false }, [])
    | .dataOffer offer =>
      if d.manager.state.stop = false ∧ Deliverable d (.dataOffer offer) then
        some (onDeviceDataOffer d offer)
      else none
    | .offerMime offer mime =>
      if d.manager.state.stop = false ∧ Deliverable d (.offerMime offer mime) then
        some (onOfferMime d offer mime, [])
      else none
    | .selection offer overtaken pipe calls =>
      if d.manager.state.stop = false ∧ Deliverable d (.selection offer overtaken pipe calls) then
        some (onDeviceSelection d offer overtaken pipe calls)
      else none
    | .primarySelection offer =>
      if d.manager.state.stop = false ∧ Deliverable d (.primarySelection offer) then
        some (devicePrimarySelection d offer)
      else none

/-! ## What one step does -/

/-- A step of the source side. -/
def lift (d : Device) (a : WaylandClipboard.Action) (m : Manager) : Device :=
  { d with
    manager := m
    made := madeAfter d a
    selection := selectionAfter d a }

inductive Step (lib : ImageLibrary) (d : Device) : Action → Device → List Obs → Prop
  | lifted {a : WaylandClipboard.Action} {m : Manager} {os : List WaylandClipboard.Obs}
      (hstep : (WaylandClipboard.machine lib).step d.manager a = some (m, os))
      (halive : a ≠ .destroy) : Step lib d (.manager a) (lift d a m) (os.map .manager)
  | destroyed {m : Manager} {os : List WaylandClipboard.Obs}
      (hstep : (WaylandClipboard.machine lib).step d.manager .destroy = some (m, os)) :
      Step lib d (.manager .destroy) (teardownWaylandObjects (lift d .destroy m)).1
        (os.map .manager ++ (teardownWaylandObjects (lift d .destroy m)).2)
  | noOffer : Step lib d (.dataOffer none) d []
  | introduced (hstop : d.manager.state.stop = false) :
      Step lib d (.dataOffer (some d.nextProxy)) (onDeviceDataOffer d (some d.nextProxy)).1
        [.introduced d.nextProxy]
  | mime {offer : OfferProxy} {mime : Bytes} (hlive : offer ∈ d.proxies) :
      Step lib d (.offerMime offer mime) (onOfferMime d offer mime) []
  | selected {offer : Option OfferProxy} {overtaken pipe : Bool} {calls : List ReadCall}
      (hstop : d.manager.state.stop = false) (hlive : ∀ o, offer = some o → o ∈ d.proxies) :
      Step lib d (.selection offer overtaken pipe calls)
        (onDeviceSelection d offer overtaken pipe calls).1
        (onDeviceSelection d offer overtaken pipe calls).2
  | noPrimary : Step lib d (.primarySelection none) d []
  | primary {offer : OfferProxy} (hstop : d.manager.state.stop = false)
      (hlive : offer ∈ d.proxies) :
      Step lib d (.primarySelection (some offer))
        { d with proxies := d.proxies.erase offer } [.primary offer, .destroyed offer]
  | drained {index : Nat} {w : Drain} {result : Bytes × Bool} (hw : d.drains[index]? = some w)
      (hstage : w.stage = .draining) (hdrain : drainFd w.calls [] = some result) :
      Step lib d (.drain index)
        { d with
          drains := d.drains.set index { w with stage := .drained (drainedText w.calls) } } []
  | gaveUp {index : Nat} {w : Drain} {text : Option Bytes} (hw : d.drains[index]? = some w)
      (hstage : w.stage = .drained text)
      (hcause : d.manager.state.stop = true ∨ text = none) :
      Step lib d (.store index) { d with drains := d.drains.eraseIdx index } []
  | stored {index : Nat} {w : Drain} {text : Bytes} (hw : d.drains[index]? = some w)
      (hstage : w.stage = .drained (some text)) (hstop : d.manager.state.stop = false) :
      Step lib d (.store index)
        { d with
            cachedClipboardText := some text
            drains := d.drains.set index { w with stage := .stored text d.onChanged }
            selection := d.selection.learn w.number text } [.stored w.number text]
  | reported {index : Nat} {w : Drain} {text : Bytes} {callback : Bool}
      (hw : d.drains[index]? = some w) (hstage : w.stage = .stored text callback) :
      Step lib d (.report index) { d with drains := d.drains.eraseIdx index }
        (if callback then [.reported w.number text] else [])
  | detached : Step lib d .detach { d with onChanged := false } []

theorem store_step {lib : ImageLibrary} {d d' : Device} {index : Nat} {os : List Obs}
    (h : store d index = some (d', os)) : Step lib d (.store index) d' os := by
  unfold store at h
  split at h
  · rename_i w hw
    split at h
    · rename_i text hstage
      split at h
      · rename_i hstop
        cases h
        exact .gaveUp hw hstage (Or.inl hstop)
      · rename_i hstop
        cases h
        exact .stored hw hstage (by simpa using hstop)
    · rename_i hstage
      cases h
      exact .gaveUp hw hstage (Or.inr rfl)
    · cases h
  · cases h

theorem drain_step {lib : ImageLibrary} {d d' : Device} {index : Nat} {os : List Obs}
    (h : drain d index = some (d', os)) : Step lib d (.drain index) d' os := by
  unfold drain at h
  split at h
  · rename_i w hw
    split at h
    · rename_i hstage
      split at h
      · rename_i result hdrain
        cases h
        exact .drained hw hstage hdrain
      · cases h
    · cases h
  · cases h

theorem report_step {lib : ImageLibrary} {d d' : Device} {index : Nat} {os : List Obs}
    (h : report d index = some (d', os)) : Step lib d (.report index) d' os := by
  unfold report at h
  split at h
  · rename_i w hw
    split at h
    · rename_i text callback hstage
      cases h
      exact .reported hw hstage
    · cases h
  · cases h

/-- **Every step is one of these.** -/
theorem step_cases {lib : ImageLibrary} {d d' : Device} {a : Action} {os : List Obs}
    (h : (machine lib).step d a = some (d', os)) : Step lib d a d' os := by
  cases a with
  | manager a =>
      simp only [machine] at h
      split at h
      · cases h
      · rename_i m os' hstep
        split at h
        · rename_i ha
          subst ha
          cases h
          exact .destroyed hstep
        · rename_i ha
          cases h
          exact .lifted hstep ha
  | drain index => exact drain_step h
  | store index => exact store_step h
  | report index => exact report_step h
  | detach =>
      cases h
      exact .detached
  | dataOffer offer =>
      simp only [machine] at h
      split at h
      · rename_i hguard
        cases offer with
        | none =>
            cases h
            exact .noOffer
        | some offer =>
            obtain ⟨hstop, hfresh⟩ := hguard
            obtain rfl : offer = d.nextProxy := by simpa [Deliverable] using hfresh
            cases h
            exact .introduced hstop
      · cases h
  | offerMime offer mime =>
      simp only [machine] at h
      split at h
      · rename_i hguard
        cases h
        exact .mime (by simpa [Deliverable] using hguard.2)
      · cases h
  | selection offer overtaken pipe calls =>
      simp only [machine] at h
      split at h
      · rename_i hguard
        have hstep : Step lib d (.selection offer overtaken pipe calls)
            (onDeviceSelection d offer overtaken pipe calls).1
            (onDeviceSelection d offer overtaken pipe calls).2 := by
          refine .selected hguard.1 ?_
          rintro o rfl
          simpa [Deliverable] using hguard.2
        rwa [Option.some.inj h] at hstep
      · cases h
  | primarySelection offer =>
      simp only [machine] at h
      split at h
      · rename_i hguard
        cases offer with
        | none =>
            cases h
            exact .noPrimary
        | some offer =>
            cases h
            exact .primary hguard.1 (by simpa [Deliverable] using hguard.2)
      · cases h

/-- Only the destructor stops the manager. -/
theorem stop_of_lifted {lib : ImageLibrary} {m m' : Manager} {a : WaylandClipboard.Action}
    {os : List WaylandClipboard.Obs} (h : (WaylandClipboard.machine lib).step m a = some (m', os))
    (halive : a ≠ .destroy) : m'.state.stop = m.state.stop := by
  cases WaylandClipboard.step_cases h with
  | @offered offer =>
      cases offer with
      | text | image => rfl
      | delayed kind contentHash => cases kind <;> rfl
  | provided hstate =>
      unfold DelayedSlot.State.provideData at hstate
      split at hstate
      · cases hstate
      · cases hstate
        rfl
  | destroyed => exact absurd rfl halive
  | posted | discarded | ran | sent | asked | cancelled | asleep | woken => rfl

/-! ## The source side -/

def Obs.manager? : Obs → Option WaylandClipboard.Obs
  | .manager o => some o
  | _ => none

/-- The observations of the source side. -/
def managerObs (h : List Obs) : List WaylandClipboard.Obs := h.filterMap Obs.manager?

@[simp] theorem managerObs_append (h os : List Obs) :
    managerObs (h ++ os) = managerObs h ++ managerObs os :=
  List.filterMap_append

@[simp] theorem managerObs_map (os : List WaylandClipboard.Obs) :
    managerObs (os.map .manager) = os := by
  have hsome : Obs.manager? ∘ Obs.manager = some := rfl
  rw [managerObs, List.filterMap_map, hsome, List.filterMap_some]

/-- Observations of the device alone. -/
theorem managerObs_destroyed (entries : List (OfferProxy × List Bytes)) :
    managerObs (entries.map fun e => .destroyed e.1) = [] := by
  simp [managerObs, Obs.manager?]

theorem onDeviceSelection_manager (d : Device) (offer : Option OfferProxy)
    (overtaken pipe : Bool) (calls : List ReadCall) :
    (onDeviceSelection d offer overtaken pipe calls).1.manager = d.manager ∧
      managerObs (onDeviceSelection d offer overtaken pipe calls).2 = [] := by
  have hdrain : ∀ (d : Device) (keep : Option OfferProxy),
      managerObs (drainOtherOffers d keep).2 = [] := fun _ _ => managerObs_destroyed _
  have hspawn : ∀ (d : Device) (text pipe : Bool),
      (spawnDrain d text pipe calls).1.manager = d.manager ∧
        managerObs (spawnDrain d text pipe calls).2 = [] := by
    intro d text pipe
    unfold spawnDrain
    split
    · exact ⟨rfl, rfl⟩
    · exact ⟨rfl, rfl⟩
  unfold onDeviceSelection
  split
  · exact ⟨rfl, hdrain _ none⟩
  · split
    · exact ⟨rfl, hdrain _ none⟩
    · obtain ⟨hmanager, hobs⟩ := hspawn _ _ _
      refine ⟨hmanager, ?_⟩
      simp only [managerObs_append, hdrain, hobs]
      rfl

/-- **The source side of a run is a run of the source side.** -/
theorem run_manager {lib : ImageLibrary} {ok : Device → Action → Prop} {h : List Obs}
    {d : Device} (hrun : (machine lib).Run ok {} h d) :
    (WaylandClipboard.machine lib).Run Machine.always {} (managerObs h) d.manager := by
  induction hrun with
  | nil => exact .nil
  | @snoc h os d d' a _ _ step ih =>
      rw [managerObs_append]
      have hstill : managerObs os = [] → d'.manager = d.manager →
          (WaylandClipboard.machine lib).Run Machine.always {} (managerObs h ++ managerObs os)
            d'.manager := by
        intro hos hmanager
        rwa [hos, List.append_nil, hmanager]
      cases step_cases step with
      | lifted hstep halive =>
          rw [managerObs_map]
          exact .snoc ih trivial hstep
      | destroyed hstep =>
          rw [managerObs_append, managerObs_map, teardownWaylandObjects, managerObs_destroyed,
            List.append_nil]
          exact .snoc ih trivial hstep
      | selected hstop hlive =>
          obtain ⟨hmanager, hobs⟩ := onDeviceSelection_manager d _ _ _ _
          exact hstill hobs hmanager
      | reported hw hstage =>
          refine hstill ?_ rfl
          split <;> rfl
      | noOffer | introduced | mime | noPrimary | primary | drained | gaveUp | stored
        | detached => exact hstill rfl rfl

end WaylandDevice
