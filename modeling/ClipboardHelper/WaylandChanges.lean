import ClipboardHelper.Library.History
import ClipboardHelper.Library.Pool
import ClipboardHelper.WaylandDevice

/-!
# External changes on Wayland: the order of the drains

Each selection of another client that offers text is drained by a worker of
its own, which blocks on the pipe of an arbitrary application.  Whichever
worker gets through first stores its text first; the text carries no sequence
number, so an older selection can overwrite a newer one, and the parent can
be told of it last.

**`latest_selection_wins`**: stores and reports come in the order of the
selections, and at rest the cached text and the last report are those of the
latest one, in every run in which no worker stores before an older one that
is to store, none reports before an older one that has stored, and the latest
selection's drain does not fail.  `older_selection_wins` is a run in which
the older of two copies is drained last.
-/

namespace WaylandChanges

open Library PasteFormats WaylandDevice

/-! ## Stores and reports -/

def Obs.stored? : Obs → Option (Nat × Bytes)
  | .stored number text => some (number, text)
  | _ => none

def Obs.reported? : Obs → Option (Nat × Bytes)
  | .reported number text => some (number, text)
  | _ => none

/-- The texts stored along a history, with the numbers of their selections,
and those that `on_changed` was called with. -/
def stores (h : List Obs) : List (Nat × Bytes) := h.filterMap Obs.stored?
def reports (h : List Obs) : List (Nat × Bytes) := h.filterMap Obs.reported?

@[simp] theorem stores_append (h os : List Obs) : stores (h ++ os) = stores h ++ stores os :=
  List.filterMap_append

@[simp] theorem reports_append (h os : List Obs) : reports (h ++ os) = reports h ++ reports os :=
  List.filterMap_append

theorem mem_stores {h : List Obs} {number : Nat} {text : Bytes} :
    (number, text) ∈ stores h ↔ .stored number text ∈ h := by
  rw [stores, List.mem_filterMap]
  constructor
  · rintro ⟨o, ho, heq⟩
    cases o with
    | stored n t =>
        cases heq
        exact ho
    | _ => cases heq
  · intro hmem
    exact ⟨_, hmem, rfl⟩

/-- An observation that says nothing about workers and their texts. -/
def Obs.quiet : Obs → Bool
  | .cleared | .spawned .. | .stored .. | .reported .. => false
  | _ => true

theorem stores_quiet {os : List Obs} (hos : ∀ o ∈ os, Obs.quiet o = true) : stores os = [] := by
  refine List.filterMap_eq_nil_iff.mpr ?_
  intro o ho
  have hquiet := hos o ho
  cases o with
  | stored => cases hquiet
  | _ => rfl

theorem reports_quiet {os : List Obs} (hos : ∀ o ∈ os, Obs.quiet o = true) : reports os = [] := by
  refine List.filterMap_eq_nil_iff.mpr ?_
  intro o ho
  have hquiet := hos o ho
  cases o with
  | reported => cases hquiet
  | _ => rfl

/-! ## What a step does to the workers -/

/-- A selection event without its workers, as far as they are concerned:
nothing, the cached text is cleared, or a worker is started. -/
inductive Selected (d d' : Device) (calls : List ReadCall) (os : List Obs) : Prop
  | still (hdrains : d'.drains = d.drains) (hnext : d'.nextDrain = d.nextDrain)
      (hcached : d'.cachedClipboardText = d.cachedClipboardText)
      (hos : ∀ o ∈ os, Obs.quiet o = true)
  | cleared {rest : List Obs} (hdrains : d'.drains = d.drains)
      (hnext : d'.nextDrain = d.nextDrain) (hos : os = .cleared :: rest)
      (hrest : ∀ o ∈ rest, Obs.quiet o = true)
  | spawned {before : List Obs}
      (hdrains : d'.drains = d.drains ++ [{ number := d.nextDrain, calls := calls }])
      (hnext : d'.nextDrain = d.nextDrain + 1)
      (hcached : d'.cachedClipboardText = d.cachedClipboardText)
      (hos : os = before ++ [.spawned d.nextDrain calls])
      (hbefore : ∀ o ∈ before, Obs.quiet o = true)

theorem quiet_drainOtherOffers (d : Device) (keep : Option OfferProxy) :
    ∀ o ∈ (drainOtherOffers d keep).2, Obs.quiet o = true := by
  intro o ho
  obtain ⟨e, -, rfl⟩ := List.mem_map.mp ho
  rfl

/-- The end of a selection event, behind the steps that do not concern the
workers. -/
theorem spawnDrain_selected {d taken : Device} {before : List Obs} (text pipe : Bool)
    (calls : List ReadCall) (hdrains : taken.drains = d.drains)
    (hnext : taken.nextDrain = d.nextDrain)
    (hcached : taken.cachedClipboardText = d.cachedClipboardText)
    (hbefore : ∀ o ∈ before, Obs.quiet o = true) :
    Selected d (spawnDrain taken text pipe calls).1 calls
      (before ++ (spawnDrain taken text pipe calls).2) := by
  unfold spawnDrain
  split
  · rw [hnext]
    refine .spawned ?_ rfl hcached rfl hbefore
    rw [← hdrains]
  · rw [List.append_nil]
    exact .still hdrains hnext hcached hbefore

theorem onDeviceSelection_selected (d : Device) (offer : Option OfferProxy)
    (overtaken pipe : Bool) (calls : List ReadCall) :
    Selected d (onDeviceSelection d offer overtaken pipe calls).1 calls
      (onDeviceSelection d offer overtaken pipe calls).2 := by
  unfold onDeviceSelection
  split
  · exact .cleared rfl rfl rfl (quiet_drainOtherOffers _ none)
  · rename_i offer
    split
    · exact .still rfl rfl rfl (quiet_drainOtherOffers _ none)
    · refine spawnDrain_selected _ pipe calls ?_ ?_ ?_ ?_
      · rfl
      · rfl
      · rfl
      · intro o ho
        rcases List.mem_append.mp ho with ho | ho
        · exact quiet_drainOtherOffers _ _ o ho
        · rw [List.mem_singleton.mp ho]
          rfl

/-- A selection event leaves the callback alone. -/
theorem onDeviceSelection_onChanged (d : Device) (offer : Option OfferProxy)
    (overtaken pipe : Bool) (calls : List ReadCall) :
    (onDeviceSelection d offer overtaken pipe calls).1.onChanged = d.onChanged := by
  have hspawn : ∀ (d : Device) (text : Bool),
      (spawnDrain d text pipe calls).1.onChanged = d.onChanged := by
    intro d text
    unfold spawnDrain
    split
    · rfl
    · rfl
  unfold onDeviceSelection
  split
  · rfl
  · split
    · rfl
    · exact hspawn _ _

/-! ## In turn -/

/-- The worker is to store a text: it has drained one, or will. -/
def pending (w : Drain) : Bool :=
  match w.stage with
  | .draining => (drainedText w.calls).isSome
  | .drained text => text.isSome
  | .stored .. => false

/-- The worker has stored its text and has yet to call `on_changed`. -/
def unreported (w : Drain) : Bool :=
  match w.stage with
  | .stored .. => true
  | _ => false

/-- **In turn**: a worker does not store before an older one that is to store,
nor report before an older one that has stored; and a drain that fails is not
that of the latest selection. -/
def InTurn (d : Device) : Action → Prop
  | .store index => ∀ w, d.drains[index]? = some w →
      (w.stage = .drained none → w.number + 1 < d.nextDrain) ∧
      (pending w = true → ∀ w' ∈ d.drains, w'.number < w.number → pending w' = false)
  | .report index => ∀ w, d.drains[index]? = some w →
      ∀ w' ∈ d.drains, w'.number < w.number → unreported w' = false
  | _ => True

/-! ## The invariant -/

/-- What a history tells of the workers, of which `next` were started. -/
structure Recorded (h : List Obs) (next : Nat) : Prop where
  spawned : ∀ n calls, .spawned n calls ∈ h → n < next
  storedSpawned : ∀ n text, .stored n text ∈ h →
    ∃ calls, .spawned n calls ∈ h ∧ drainedText calls = some text
  reportedStored : ∀ n text, (n, text) ∈ reports h → .stored n text ∈ h
  storesInOrder : ((stores h).map Prod.fst).Pairwise (· < ·)
  reportsInOrder : ((reports h).map Prod.fst).Pairwise (· < ·)

/-- A worker's stage fits its reads. -/
structure Consistent (h : List Obs) (w : Drain) : Prop where
  spawned : .spawned w.number w.calls ∈ h
  drained : ∀ text, w.stage = .drained text → text = drainedText w.calls
  stored : ∀ text callback, w.stage = .stored text callback →
    .stored w.number text ∈ h ∧ drainedText w.calls = some text

/-- The workers are numbered in order, and whatever was stored or reported is
older than what is to be. -/
structure Workers (h : List Obs) (d : Device) : Prop where
  numbered : (d.drains.map Drain.number).Pairwise (· < ·)
  consistent : ∀ w ∈ d.drains, Consistent h w
  callback : d.onChanged = true → ∀ w ∈ d.drains, ∀ text callback,
    w.stage = .stored text callback → callback = true
  storesBefore : ∀ w ∈ d.drains, pending w = true → ∀ e ∈ stores h, e.1 < w.number
  reportsBefore : ∀ w ∈ d.drains, unreported w = true → ∀ e ∈ reports h, e.1 < w.number

/-- What is known of the latest selection: its worker is to store, or it has
stored; and it is to report or has reported, if `on_changed` was set. -/
structure Latest (h : List Obs) (d : Device) (n : Nat) : Prop where
  stores : d.manager.state.stop = false →
    (∃ w ∈ d.drains, w.number = n) ∨ ∃ text, .stored n text ∈ h
  cached : ∀ text calls, .stored n text ∈ h →
    Since (fun o => o = .spawned n calls) (fun o => o = .cleared) h →
    d.cachedClipboardText = some text
  reports : d.onChanged = true → ∀ text, .stored n text ∈ h →
    (∃ w ∈ d.drains, w.number = n ∧ unreported w = true) ∨
      (reports h).getLast? = some (n, text)

/-- **The invariant.** -/
structure Orderly (h : List Obs) (d : Device) : Prop where
  recorded : Recorded h d.nextDrain
  workers : Workers h d
  latest : ∀ n, d.nextDrain = n + 1 → Latest h d n

/-! ## The list of workers -/

theorem numbers_nodup {drains : List Drain}
    (hnumbered : (drains.map Drain.number).Pairwise (· < ·)) : (drains.map Drain.number).Nodup :=
  hnumbered.imp fun hlt => ne_of_lt hlt

/-- Workers with one number are one worker. -/
theorem eq_of_number {drains : List Drain}
    (hnumbered : (drains.map Drain.number).Pairwise (· < ·)) {w w' : Drain} (hw : w ∈ drains)
    (hw' : w' ∈ drains) (hnumber : w.number = w'.number) : w = w' :=
  List.inj_on_of_nodup_map (numbers_nodup hnumbered) hw hw' hnumber

/-! ## Longer histories -/

variable {h os : List Obs} {d d' : Device} {next : Nat}

/-- Nothing was started, stored or reported. -/
structure Silent (os : List Obs) : Prop where
  spawned : ∀ n calls, .spawned n calls ∉ os
  stores : stores os = []
  reports : reports os = []

theorem silent_of_quiet (hos : ∀ o ∈ os, Obs.quiet o = true) : Silent os where
  spawned n calls hmem := by cases hos _ hmem
  stores := stores_quiet hos
  reports := reports_quiet hos

theorem silent_cleared {rest : List Obs} (hrest : ∀ o ∈ rest, Obs.quiet o = true) :
    Silent (.cleared :: rest) where
  spawned n calls hmem := by
    rcases List.mem_cons.mp hmem with heq | hmem
    · cases heq
    · cases hrest _ hmem
  stores := by
    have hcons : stores (.cleared :: rest) = stores rest := rfl
    rw [hcons, stores_quiet hrest]
  reports := by
    have hcons : reports (.cleared :: rest) = reports rest := rfl
    rw [hcons, reports_quiet hrest]

/-- Nothing more was stored. -/
theorem stored_of_append (hos : stores os = []) {number : Nat} {text : Bytes}
    (hmem : .stored number text ∈ h ++ os) : .stored number text ∈ h := by
  rw [← mem_stores, stores_append, hos, List.append_nil, mem_stores] at hmem
  exact hmem

theorem Recorded.stored_lt (hr : Recorded h next) {n : Nat} {text : Bytes}
    (hstored : .stored n text ∈ h) : n < next := by
  obtain ⟨calls, hspawned, -⟩ := hr.storedSpawned n text hstored
  exact hr.spawned n calls hspawned

/-- A later entry of a list in order. -/
theorem pairwise_concat {l : List (Nat × Bytes)} {n : Nat} {text : Bytes}
    (hl : (l.map Prod.fst).Pairwise (· < ·)) (hn : ∀ e ∈ l, e.1 < n) :
    ((l ++ [(n, text)]).map Prod.fst).Pairwise (· < ·) := by
  rw [List.map_append, List.pairwise_append]
  refine ⟨hl, List.pairwise_singleton _ _, ?_⟩
  intro n' hn' n'' hn''
  obtain ⟨e, he, rfl⟩ := List.mem_map.mp hn'
  rw [List.mem_singleton.mp hn'']
  exact hn e he

theorem Recorded.silent (hr : Recorded h next) (hos : Silent os) : Recorded (h ++ os) next where
  spawned n calls hmem :=
    (List.mem_append.mp hmem).elim (hr.spawned n calls)
      (fun hin => absurd hin (hos.spawned n calls))
  storedSpawned n text hmem := by
    obtain ⟨calls, hspawned, hdrained⟩ := hr.storedSpawned n text (stored_of_append hos.stores hmem)
    exact ⟨calls, List.mem_append_left _ hspawned, hdrained⟩
  reportedStored n text hmem := by
    rw [reports_append, hos.reports, List.append_nil] at hmem
    exact List.mem_append_left _ (hr.reportedStored n text hmem)
  storesInOrder := by
    rw [stores_append, hos.stores, List.append_nil]
    exact hr.storesInOrder
  reportsInOrder := by
    rw [reports_append, hos.reports, List.append_nil]
    exact hr.reportsInOrder

theorem Recorded.spawn (hr : Recorded h next) (calls : List ReadCall) :
    Recorded (h ++ [.spawned next calls]) (next + 1) where
  spawned n calls' hmem := by
    rcases List.mem_append.mp hmem with hmem | hmem
    · exact Nat.lt_succ_of_lt (hr.spawned n calls' hmem)
    · rw [List.mem_singleton] at hmem
      cases hmem
      exact Nat.lt_succ_self next
  storedSpawned n text hmem := by
    obtain ⟨calls', hspawned, hdrained⟩ := hr.storedSpawned n text (stored_of_append rfl hmem)
    exact ⟨calls', List.mem_append_left _ hspawned, hdrained⟩
  reportedStored n text hmem := by
    have hbefore : (n, text) ∈ reports h := by simpa [reports, Obs.reported?] using hmem
    exact List.mem_append_left _ (hr.reportedStored n text hbefore)
  storesInOrder := by
    have hsame : stores (h ++ [.spawned next calls]) = stores h := by
      rw [stores_append]
      exact List.append_nil _
    rw [hsame]
    exact hr.storesInOrder
  reportsInOrder := by
    have hsame : reports (h ++ [.spawned next calls]) = reports h := by
      rw [reports_append]
      exact List.append_nil _
    rw [hsame]
    exact hr.reportsInOrder

theorem Recorded.store (hr : Recorded h next) {n : Nat} {calls : List ReadCall} {text : Bytes}
    (hspawned : .spawned n calls ∈ h) (hdrained : drainedText calls = some text)
    (hold : ∀ e ∈ stores h, e.1 < n) : Recorded (h ++ [.stored n text]) next where
  spawned n' calls' hmem := hr.spawned n' calls' (by simpa using hmem)
  storedSpawned n' text' hmem := by
    rcases List.mem_append.mp hmem with hmem | hmem
    · obtain ⟨calls', hspawned', hdrained'⟩ := hr.storedSpawned n' text' hmem
      exact ⟨calls', List.mem_append_left _ hspawned', hdrained'⟩
    · rw [List.mem_singleton] at hmem
      cases hmem
      exact ⟨calls, List.mem_append_left _ hspawned, hdrained⟩
  reportedStored n' text' hmem := by
    have hbefore : (n', text') ∈ reports h := by simpa [reports, Obs.reported?] using hmem
    exact List.mem_append_left _ (hr.reportedStored n' text' hbefore)
  storesInOrder := by
    rw [stores_append]
    exact pairwise_concat hr.storesInOrder hold
  reportsInOrder := by
    have hsame : reports (h ++ [.stored n text]) = reports h := by
      rw [reports_append]
      exact List.append_nil _
    rw [hsame]
    exact hr.reportsInOrder

theorem Recorded.report (hr : Recorded h next) {n : Nat} {text : Bytes}
    (hstored : .stored n text ∈ h) (hold : ∀ e ∈ reports h, e.1 < n) :
    Recorded (h ++ [.reported n text]) next where
  spawned n' calls hmem := hr.spawned n' calls (by simpa using hmem)
  storedSpawned n' text' hmem := by
    obtain ⟨calls, hspawned, hdrained⟩ := hr.storedSpawned n' text' (stored_of_append rfl hmem)
    exact ⟨calls, List.mem_append_left _ hspawned, hdrained⟩
  reportedStored n' text' hmem := by
    rw [reports_append] at hmem
    rcases List.mem_append.mp hmem with hmem | hmem
    · exact List.mem_append_left _ (hr.reportedStored n' text' hmem)
    · cases List.mem_singleton.mp hmem
      exact List.mem_append_left _ hstored
  storesInOrder := by
    have hsame : stores (h ++ [.reported n text]) = stores h := by
      rw [stores_append]
      exact List.append_nil _
    rw [hsame]
    exact hr.storesInOrder
  reportsInOrder := by
    rw [reports_append]
    exact pairwise_concat hr.reportsInOrder hold

theorem Consistent.mono {w : Drain} (hc : Consistent h w) : Consistent (h ++ os) w where
  spawned := List.mem_append_left _ hc.spawned
  drained := hc.drained
  stored text callback hstage :=
    ⟨List.mem_append_left _ (hc.stored text callback hstage).1,
      (hc.stored text callback hstage).2⟩

/-! ## Silent steps -/

/-- A worker is as it was, or has drained its pipe. -/
def Proceeds (drains : List Drain) (w' : Drain) : Prop :=
  w' ∈ drains ∨ ∃ w ∈ drains, w.stage = .draining ∧
    w' = { w with stage := .drained (drainedText w.calls) }

/-- Silent steps start nobody; workers at most drain their pipes. -/
theorem Workers.silent (hw : Workers h d) (hos : Silent os)
    (hchanged : d'.onChanged = true → d.onChanged = true)
    (hnumbered : (d'.drains.map Drain.number).Pairwise (· < ·))
    (hdrains : ∀ w' ∈ d'.drains, Proceeds d.drains w') : Workers (h ++ os) d' where
  numbered := hnumbered
  consistent w' hw' := by
    rcases hdrains w' hw' with hw' | ⟨w, hin, -, rfl⟩
    · exact (hw.consistent w' hw').mono
    · refine ⟨List.mem_append_left _ (hw.consistent w hin).spawned, ?_, ?_⟩
      · intro text htext
        cases htext
        rfl
      · intro text callback htext
        cases htext
  callback hon w' hw' text callback hstage := by
    rcases hdrains w' hw' with hw' | ⟨w, -, -, rfl⟩
    · exact hw.callback (hchanged hon) w' hw' text callback hstage
    · cases hstage
  storesBefore w' hw' hpending := by
    rw [stores_append, hos.stores, List.append_nil]
    rcases hdrains w' hw' with hw' | ⟨w, hin, hstage, rfl⟩
    · exact hw.storesBefore w' hw' hpending
    · exact hw.storesBefore w hin (by simpa [pending, hstage] using hpending)
  reportsBefore w' hw' hunrep := by
    rw [reports_append, hos.reports, List.append_nil]
    rcases hdrains w' hw' with hw' | ⟨w, -, -, rfl⟩
    · exact hw.reportsBefore w' hw' hunrep
    · cases hunrep

/-- What is known of the latest selection stays known. -/
theorem Latest.silent {n : Nat} (hl : Latest h d n) (hos : Silent os)
    (hstop : d'.manager.state.stop = false → d.manager.state.stop = false)
    (hchanged : d'.onChanged = true → d.onChanged = true)
    (hcached : ∀ calls, Since (fun o => o = .spawned n calls) (fun o => o = .cleared) (h ++ os) →
      Since (fun o => o = .spawned n calls) (fun o => o = .cleared) h ∧
        d'.cachedClipboardText = d.cachedClipboardText)
    (hlatest : d'.manager.state.stop = false → ∀ w ∈ d.drains, w.number = n →
      ∃ w' ∈ d'.drains, w'.number = n)
    (hunreported : ∀ w ∈ d.drains, unreported w = true → w ∈ d'.drains) :
    Latest (h ++ os) d' n where
  stores hrunning := by
    rcases hl.stores (hstop hrunning) with ⟨w, hw, hnumber⟩ | ⟨text, hstored⟩
    · exact Or.inl (hlatest hrunning w hw hnumber)
    · exact Or.inr ⟨text, List.mem_append_left _ hstored⟩
  cached text calls hstored hsince := by
    obtain ⟨hbefore, hsame⟩ := hcached calls hsince
    rw [hsame]
    exact hl.cached text calls (stored_of_append hos.stores hstored) hbefore
  reports hon text hstored := by
    rw [reports_append, hos.reports, List.append_nil]
    rcases hl.reports (hchanged hon) text (stored_of_append hos.stores hstored) with
      ⟨w, hw, hnumber, hunrep⟩ | hlast
    · exact Or.inl ⟨w, hunreported w hw hunrep, hnumber, hunrep⟩
    · exact Or.inr hlast

/-- A quiet step, by which a worker at most drains its pipe or ends. -/
theorem Orderly.still (hi : Orderly h d) (hos : ∀ o ∈ os, Obs.quiet o = true)
    (hnext : d'.nextDrain = d.nextDrain)
    (hcached : d'.cachedClipboardText = d.cachedClipboardText)
    (hstop : d'.manager.state.stop = false → d.manager.state.stop = false)
    (hchanged : d'.onChanged = true → d.onChanged = true)
    (hnumbered : (d'.drains.map Drain.number).Pairwise (· < ·))
    (hdrains : ∀ w' ∈ d'.drains, Proceeds d.drains w')
    (hlatest : ∀ n, d.nextDrain = n + 1 → d'.manager.state.stop = false → ∀ w ∈ d.drains,
      w.number = n → ∃ w' ∈ d'.drains, w'.number = n)
    (hunreported : ∀ w ∈ d.drains, unreported w = true → w ∈ d'.drains) :
    Orderly (h ++ os) d' where
  recorded := by
    rw [hnext]
    exact hi.recorded.silent (silent_of_quiet hos)
  workers := hi.workers.silent (silent_of_quiet hos) hchanged hnumbered hdrains
  latest n hn := by
    rw [hnext] at hn
    refine (hi.latest n hn).silent (silent_of_quiet hos) hstop hchanged ?_ (hlatest n hn)
      hunreported
    intro calls hsince
    refine ⟨(since_append_of_neither ?_ ?_).mp hsince, hcached⟩
    · rintro o ho rfl
      cases hos _ ho
    · rintro o ho rfl
      cases hos _ ho

/-- The cached text is cleared; the workers do not care, and nothing is known
of it since. -/
theorem Orderly.clear {rest : List Obs} (hi : Orderly h d)
    (hrest : ∀ o ∈ rest, Obs.quiet o = true) (hdrains : d'.drains = d.drains)
    (hnext : d'.nextDrain = d.nextDrain)
    (hstop : d'.manager.state.stop = d.manager.state.stop)
    (hchanged : d'.onChanged = d.onChanged) : Orderly (h ++ .cleared :: rest) d' where
  recorded := by
    rw [hnext]
    exact hi.recorded.silent (silent_cleared hrest)
  workers := by
    refine hi.workers.silent (silent_cleared hrest) (fun hon => hchanged ▸ hon) ?_ ?_
    · rw [hdrains]
      exact hi.workers.numbered
    · intro w hw
      exact Or.inl (hdrains ▸ hw)
  latest n hn := by
    rw [hnext] at hn
    refine (hi.latest n hn).silent (silent_cleared hrest) (fun hrunning => hstop ▸ hrunning)
      (fun hon => hchanged ▸ hon) ?_ ?_ ?_
    · intro calls hsince
      have hcons : h ++ .cleared :: rest = (h ++ [.cleared]) ++ rest := by simp
      rw [hcons, since_append_of_neither, since_snoc] at hsince
      · rcases hsince with hspawned | ⟨-, hclear⟩
        · cases hspawned
        · exact absurd rfl hclear
      · rintro o ho rfl
        cases hrest _ ho
      · rintro o ho rfl
        cases hrest _ ho
    · intro _ w hw hnumber
      exact ⟨w, hdrains ▸ hw, hnumber⟩
    · intro w hw _
      exact hdrains ▸ hw

/-! ## Every step in turn keeps the order -/

/-- A worker is started. -/
theorem Orderly.spawn {before : List Obs} {calls : List ReadCall} (hi : Orderly h d)
    (hbefore : ∀ o ∈ before, Obs.quiet o = true)
    (hdrains : d'.drains = d.drains ++ [{ number := d.nextDrain, calls := calls }])
    (hnext : d'.nextDrain = d.nextDrain + 1)
    (hchanged : d'.onChanged = d.onChanged) :
    Orderly (h ++ (before ++ [.spawned d.nextDrain calls])) d' := by
  rw [← List.append_assoc]
  have hr := hi.recorded.silent (silent_of_quiet hbefore)
  have hw := hi.workers.silent (silent_of_quiet hbefore) id hi.workers.numbered
    (fun w hw => Or.inl hw)
  have hmem : ∀ w ∈ d'.drains, w ∈ d.drains ∨ w = { number := d.nextDrain, calls := calls } := by
    intro w hw
    rw [hdrains] at hw
    exact (List.mem_append.mp hw).imp_right List.mem_singleton.mp
  have hstores : stores (h ++ before ++ [.spawned d.nextDrain calls]) = stores (h ++ before) := by
    rw [stores_append]
    exact List.append_nil _
  have hreports :
      reports (h ++ before ++ [.spawned d.nextDrain calls]) = reports (h ++ before) := by
    rw [reports_append]
    exact List.append_nil _
  refine ⟨?_, ⟨?_, ?_, ?_, ?_, ?_⟩, ?_⟩
  · rw [hnext]
    exact hr.spawn calls
  · rw [hdrains, List.map_append, List.pairwise_append]
    refine ⟨hw.numbered, List.pairwise_singleton _ _, ?_⟩
    intro n hn n' hn'
    obtain ⟨w, hin, rfl⟩ := List.mem_map.mp hn
    rw [List.mem_singleton.mp hn']
    exact hr.spawned _ _ (hw.consistent w hin).spawned
  · intro w hin
    rcases hmem w hin with hin | rfl
    · exact (hw.consistent w hin).mono
    · refine ⟨by simp, ?_, ?_⟩
      · intro text hstage
        cases hstage
      · intro text callback hstage
        cases hstage
  · intro hon w hin text callback hstage
    rcases hmem w hin with hin | rfl
    · exact hw.callback (hchanged ▸ hon) w hin text callback hstage
    · cases hstage
  · intro w hin hpending e he
    rw [hstores] at he
    rcases hmem w hin with hin | rfl
    · exact hw.storesBefore w hin hpending e he
    · exact hr.stored_lt (mem_stores.mp he)
  · intro w hin hunrep
    rw [hreports]
    rcases hmem w hin with hin | rfl
    · exact hw.reportsBefore w hin hunrep
    · cases hunrep
  · intro n hn
    obtain rfl : d.nextDrain = n := by omega
    have hfresh : ∀ text, .stored d.nextDrain text ∉
        h ++ before ++ [.spawned d.nextDrain calls] := by
      intro text hin
      exact absurd (hr.stored_lt (stored_of_append rfl hin)) (lt_irrefl _)
    refine ⟨?_, ?_, ?_⟩
    · intro _
      refine Or.inl ⟨{ number := d.nextDrain, calls := calls }, ?_, rfl⟩
      rw [hdrains]
      exact List.mem_append_right _ (List.mem_singleton_self _)
    · intro text calls' hstored
      exact absurd hstored (hfresh text)
    · intro _ text hstored
      exact absurd hstored (hfresh text)

/-- The workers when one of them has stored, in turn. -/
theorem Workers.store (hw : Workers h d) {index : Nat} {w : Drain} {text : Bytes}
    (hget : d.drains[index]? = some w) (hstage : w.stage = .drained (some text))
    (hturn : ∀ w' ∈ d.drains, w'.number < w.number → pending w' = false)
    (hreported : ∀ e ∈ reports h, e.1 < w.number)
    (hdrains : d'.drains = d.drains.set index { w with stage := .stored text d.onChanged })
    (hchanged : d'.onChanged = d.onChanged) : Workers (h ++ [.stored w.number text]) d' := by
  have hin : w ∈ d.drains := List.mem_of_getElem? hget
  have hdrained := (hw.consistent w hin).drained (some text) hstage
  have hnumbers : d'.drains.map Drain.number = d.drains.map Drain.number := by
    rw [hdrains]
    exact map_set_of_eq Drain.number hget rfl
  have hnumbered : (d'.drains.map Drain.number).Pairwise (· < ·) := by
    rw [hnumbers]
    exact hw.numbered
  have hnew : { w with stage := .stored text d.onChanged } ∈ d'.drains := by
    obtain ⟨hlt, -⟩ := List.getElem?_eq_some_iff.mp hget
    rw [hdrains]
    exact List.mem_set hlt _
  have hmem : ∀ w' ∈ d'.drains, w' ∈ d.drains ∧ w'.number ≠ w.number ∨
      w' = { w with stage := .stored text d.onChanged } := by
    intro w' hw'
    by_cases hnumber : w'.number = w.number
    · exact Or.inr (eq_of_number hnumbered hw' hnew hnumber)
    · rw [hdrains] at hw'
      rcases List.mem_or_eq_of_mem_set hw' with hw' | rfl
      · exact Or.inl ⟨hw', hnumber⟩
      · exact absurd rfl hnumber
  refine ⟨hnumbered, ?_, ?_, ?_, ?_⟩
  · intro w' hw'
    rcases hmem w' hw' with ⟨hw', -⟩ | rfl
    · exact (hw.consistent w' hw').mono
    · refine ⟨List.mem_append_left _ (hw.consistent w hin).spawned, ?_, ?_⟩
      · intro text' hstage'
        cases hstage'
      · intro text' callback hstage'
        cases hstage'
        exact ⟨by simp, hdrained.symm⟩
  · intro hon w' hw' text' callback hstage'
    rw [hchanged] at hon
    rcases hmem w' hw' with ⟨hw', -⟩ | rfl
    · exact hw.callback hon w' hw' text' callback hstage'
    · cases hstage'
      exact hon
  · intro w' hw' hpending e he
    rw [stores_append] at he
    rcases hmem w' hw' with ⟨hw', hne⟩ | rfl
    · rcases List.mem_append.mp he with he | he
      · exact hw.storesBefore w' hw' hpending e he
      · rw [List.mem_singleton.mp he]
        have hnot : ¬ w'.number < w.number := by
          intro hlt
          rw [hturn w' hw' hlt] at hpending
          cases hpending
        exact lt_of_le_of_ne (not_lt.mp hnot) (Ne.symm hne)
    · cases hpending
  · intro w' hw' hunrep e he
    have hbefore : e ∈ reports h := by simpa [reports, Obs.reported?] using he
    rcases hmem w' hw' with ⟨hw', -⟩ | rfl
    · exact hw.reportsBefore w' hw' hunrep e hbefore
    · exact hreported e hbefore

/-- **A worker stores its text, in turn.** -/
theorem Orderly.store (hi : Orderly h d) {index : Nat} {w : Drain} {text : Bytes}
    (hget : d.drains[index]? = some w) (hstage : w.stage = .drained (some text))
    (hturn : ∀ w' ∈ d.drains, w'.number < w.number → pending w' = false)
    (hdrains : d'.drains = d.drains.set index { w with stage := .stored text d.onChanged })
    (hcached : d'.cachedClipboardText = some text) (hnext : d'.nextDrain = d.nextDrain)
    (hstop : d'.manager.state.stop = d.manager.state.stop)
    (hchanged : d'.onChanged = d.onChanged) : Orderly (h ++ [.stored w.number text]) d' := by
  have hin : w ∈ d.drains := List.mem_of_getElem? hget
  have hspawned := (hi.workers.consistent w hin).spawned
  have hdrained := (hi.workers.consistent w hin).drained (some text) hstage
  have hold := hi.workers.storesBefore w hin (by simp [pending, hstage])
  have hreported : ∀ e ∈ reports h, e.1 < w.number := fun e he =>
    hold (e.1, e.2) (mem_stores.mpr (hi.recorded.reportedStored e.1 e.2 he))
  refine ⟨?_, hi.workers.store hget hstage hturn hreported hdrains hchanged, ?_⟩
  · rw [hnext]
    exact hi.recorded.store hspawned hdrained.symm hold
  · intro n hn
    rw [hnext] at hn
    have hnumber : w.number < d.nextDrain := hi.recorded.spawned _ _ hspawned
    -- the latest selection has not stored before, as its number is the largest
    have hlatest : ∀ text', .stored n text' ∈ h ++ [.stored w.number text] →
        n = w.number ∧ text' = text := by
      intro text' hmem
      rcases List.mem_append.mp hmem with hmem | hmem
      · have hlt : n < w.number := hold _ (mem_stores.mpr hmem)
        omega
      · rw [List.mem_singleton] at hmem
        cases hmem
        exact ⟨rfl, rfl⟩
    refine ⟨?_, ?_, ?_⟩
    · intro hrunning
      rcases (hi.latest n hn).stores (hstop.symm.trans hrunning) with
        ⟨w', hw', hn'⟩ | ⟨text', hstored⟩
      · left
        have hnumbers : d'.drains.map Drain.number = d.drains.map Drain.number := by
          rw [hdrains]
          exact map_set_of_eq Drain.number hget rfl
        have hin' : n ∈ d'.drains.map Drain.number := by
          rw [hnumbers]
          exact List.mem_map.mpr ⟨w', hw', hn'⟩
        exact List.mem_map.mp hin'
      · exact Or.inr ⟨text', List.mem_append_left _ hstored⟩
    · intro text' calls hstored _
      obtain ⟨-, rfl⟩ := hlatest text' hstored
      exact hcached
    · intro _ text' hstored
      obtain ⟨rfl, -⟩ := hlatest text' hstored
      obtain ⟨hlt, -⟩ := List.getElem?_eq_some_iff.mp hget
      refine Or.inl ⟨{ w with stage := .stored text d.onChanged }, ?_, rfl, rfl⟩
      rw [hdrains]
      exact List.mem_set hlt _

/-- The workers when one of them has reported, in turn, or had nobody to
report to. -/
theorem Workers.report (hw : Workers h d) {index : Nat} {w : Drain}
    (hget : d.drains[index]? = some w)
    (hturn : ∀ w' ∈ d.drains, w'.number < w.number → unreported w' = false)
    (hstores : stores os = []) (hreports : ∀ e ∈ reports os, e.1 = w.number)
    (hdrains : d'.drains = d.drains.eraseIdx index)
    (hchanged : d'.onChanged = d.onChanged) : Workers (h ++ os) d' := by
  have hmem : ∀ w' ∈ d'.drains, w' ∈ d.drains ∧ w'.number ≠ w.number := by
    intro w' hw'
    rw [hdrains] at hw'
    exact (mem_eraseIdx_iff (numbers_nodup hw.numbered) hget).mp hw'
  refine ⟨?_, ?_, ?_, ?_, ?_⟩
  · rw [hdrains]
    exact hw.numbered.sublist ((List.eraseIdx_sublist _ _).map _)
  · intro w' hw'
    exact (hw.consistent w' (hmem w' hw').1).mono
  · intro hon w' hw'
    rw [hchanged] at hon
    exact hw.callback hon w' (hmem w' hw').1
  · intro w' hw' hpending
    rw [stores_append, hstores, List.append_nil]
    exact hw.storesBefore w' (hmem w' hw').1 hpending
  · intro w' hw' hunrep e he
    obtain ⟨hin, hne⟩ := hmem w' hw'
    rw [reports_append] at he
    rcases List.mem_append.mp he with he | he
    · exact hw.reportsBefore w' hin hunrep e he
    · have hnot : ¬ w'.number < w.number := by
        intro hlt
        rw [hturn w' hin hlt] at hunrep
        cases hunrep
      rw [hreports e he]
      exact lt_of_le_of_ne (not_lt.mp hnot) (Ne.symm hne)

/-- **A worker reports its text, in turn.** -/
theorem Orderly.report (hi : Orderly h d) {index : Nat} {w : Drain} {text : Bytes}
    {callback : Bool} (hget : d.drains[index]? = some w)
    (hstage : w.stage = .stored text callback)
    (hturn : ∀ w' ∈ d.drains, w'.number < w.number → unreported w' = false)
    (hos : os = if callback then [.reported w.number text] else [])
    (hdrains : d'.drains = d.drains.eraseIdx index)
    (hcached : d'.cachedClipboardText = d.cachedClipboardText)
    (hnext : d'.nextDrain = d.nextDrain)
    (hstop : d'.manager.state.stop = d.manager.state.stop)
    (hchanged : d'.onChanged = d.onChanged) : Orderly (h ++ os) d' := by
  have hin : w ∈ d.drains := List.mem_of_getElem? hget
  obtain ⟨hstoredw, -⟩ := (hi.workers.consistent w hin).stored text callback hstage
  have hold := hi.workers.reportsBefore w hin (by simp [unreported, hstage])
  have hmem : ∀ w', w' ∈ d'.drains ↔ w' ∈ d.drains ∧ w'.number ≠ w.number := by
    intro w'
    rw [hdrains]
    exact mem_eraseIdx_iff (numbers_nodup hi.workers.numbered) hget
  have hstores : stores os = [] := by
    rw [hos]
    cases callback <;> rfl
  have hreports : reports os = if callback then [(w.number, text)] else [] := by
    rw [hos]
    cases callback <;> rfl
  refine ⟨?_, hi.workers.report hget hturn hstores ?_ hdrains hchanged, ?_⟩
  · rw [hnext, hos]
    cases callback with
    | true => exact hi.recorded.report hstoredw hold
    | false => exact hi.recorded.silent ⟨by simp, rfl, rfl⟩
  · intro e he
    rw [hreports] at he
    cases callback with
    | true => rw [List.mem_singleton.mp he]
    | false => cases he
  · intro n hn
    rw [hnext] at hn
    have hl := hi.latest n hn
    refine ⟨?_, ?_, ?_⟩
    · intro hrunning
      rcases hl.stores (hstop.symm.trans hrunning) with ⟨w', hw', hn'⟩ | ⟨text', hstored⟩
      · by_cases hsame : w'.number = w.number
        · rw [← hn', hsame]
          exact Or.inr ⟨text, List.mem_append_left _ hstoredw⟩
        · exact Or.inl ⟨w', (hmem w').mpr ⟨hw', hsame⟩, hn'⟩
      · exact Or.inr ⟨text', List.mem_append_left _ hstored⟩
    · intro text' calls hstored hsince
      rw [hcached]
      refine hl.cached text' calls (stored_of_append hstores hstored) ?_
      refine (since_append_of_neither ?_ ?_).mp hsince
      · rw [hos]
        cases callback <;> simp
      · rw [hos]
        cases callback <;> simp
    · intro hon text' hstored
      rw [hchanged] at hon
      obtain rfl : callback = true := hi.workers.callback hon w hin text callback hstage
      have hstored' := stored_of_append hstores hstored
      rw [reports_append, hreports, if_pos rfl, List.getLast?_concat]
      rcases hl.reports hon text' hstored' with ⟨w', hw', hn', hunrep'⟩ | hlast
      · by_cases hsame : w'.number = w.number
        · right
          obtain rfl : w.number = n := hsame ▸ hn'
          have hnodup : ((stores h).map Prod.fst).Nodup :=
            hi.recorded.storesInOrder.imp (fun hlt => ne_of_lt hlt)
          exact congrArg some (List.inj_on_of_nodup_map hnodup (mem_stores.mpr hstoredw)
            (mem_stores.mpr hstored') rfl)
        · exact Or.inl ⟨w', (hmem w').mpr ⟨hw', hsame⟩, hn', hunrep'⟩
      · have hlt : n < w.number := hold (n, text') (List.mem_of_getLast? hlast)
        have hnumber := hi.recorded.spawned _ _ (hi.workers.consistent w hin).spawned
        omega

/-- A worker has drained its pipe. -/
theorem Orderly.drained (hi : Orderly h d) {index : Nat} {w : Drain}
    (hget : d.drains[index]? = some w) (hstage : w.stage = .draining) :
    Orderly (h ++ []) { d with
      drains := d.drains.set index { w with stage := .drained (drainedText w.calls) } } := by
  have hin : w ∈ d.drains := List.mem_of_getElem? hget
  have hnumbers : (d.drains.set index { w with stage := .drained (drainedText w.calls) }).map
      Drain.number = d.drains.map Drain.number := map_set_of_eq Drain.number hget rfl
  refine hi.still (by simp) rfl rfl id id ?_ ?_ ?_ ?_
  · rw [hnumbers]
    exact hi.workers.numbered
  · intro w' hw'
    rcases List.mem_or_eq_of_mem_set hw' with hw' | rfl
    · exact Or.inl hw'
    · exact Or.inr ⟨w, hin, hstage, rfl⟩
  · intro n _ _ w' hw' hn
    have hmem : n ∈ (d.drains.set index
        { w with stage := .drained (drainedText w.calls) }).map Drain.number := by
      rw [hnumbers]
      exact List.mem_map.mpr ⟨w', hw', hn⟩
    exact List.mem_map.mp hmem
  · intro w' hw' hunrep
    refine mem_set_of_ne hget hw' ?_ _
    rintro rfl
    simp [unreported, hstage] at hunrep

/-- A worker that stores nothing is done. -/
theorem Orderly.gaveUp (hi : Orderly h d) {index : Nat} {w : Drain} {text : Option Bytes}
    (hget : d.drains[index]? = some w) (hstage : w.stage = .drained text)
    (hlater : d.manager.state.stop = true ∨ w.number + 1 < d.nextDrain) :
    Orderly (h ++ []) { d with drains := d.drains.eraseIdx index } := by
  refine hi.still (by simp) rfl rfl id id ?_ ?_ ?_ ?_
  · exact hi.workers.numbered.sublist ((List.eraseIdx_sublist _ _).map _)
  · intro w' hw'
    exact Or.inl (List.mem_of_mem_eraseIdx hw')
  · intro n hn hrunning w' hw' hnumber
    refine ⟨w', (mem_eraseIdx_iff (numbers_nodup hi.workers.numbered) hget).mpr ⟨hw', ?_⟩, hnumber⟩
    rcases hlater with hstop | hlater
    · have hboth : d.manager.state.stop = false := hrunning
      rw [hstop] at hboth
      cases hboth
    · omega
  · intro w' hw' hunrep
    refine mem_eraseIdx_of_ne hget hw' ?_
    rintro rfl
    simp [unreported, hstage] at hunrep

/-- A step that leaves the workers and the cached text alone. -/
theorem Orderly.same (hi : Orderly h d) (hos : ∀ o ∈ os, Obs.quiet o = true)
    (hdrains : d'.drains = d.drains) (hnext : d'.nextDrain = d.nextDrain)
    (hcached : d'.cachedClipboardText = d.cachedClipboardText)
    (hstop : d'.manager.state.stop = false → d.manager.state.stop = false)
    (hchanged : d'.onChanged = true → d.onChanged = true) : Orderly (h ++ os) d' := by
  refine hi.still hos hnext hcached hstop hchanged ?_ ?_ ?_ ?_
  · rw [hdrains]
    exact hi.workers.numbered
  · intro w hw
    exact Or.inl (hdrains ▸ hw)
  · intro n _ _ w hw hnumber
    exact ⟨w, hdrains ▸ hw, hnumber⟩
  · intro w hw _
    exact hdrains ▸ hw

/-- **Every step in turn keeps the order.** -/
theorem step_orderly {lib : ImageLibrary} {a : Action} (hi : Orderly h d) (hturn : InTurn d a)
    (hmove : (machine lib).step d a = some (d', os)) : Orderly (h ++ os) d' := by
  have hlifted : ∀ os : List WaylandClipboard.Obs,
      ∀ o ∈ os.map Obs.manager, Obs.quiet o = true := by
    intro os o ho
    obtain ⟨o', -, rfl⟩ := List.mem_map.mp ho
    rfl
  cases step_cases hmove with
  | lifted hstep halive =>
      have hstop := stop_of_lifted hstep halive
      exact hi.same (hlifted _) rfl rfl rfl (fun hrunning => hstop ▸ hrunning) id
  | @destroyed m os hstep =>
      refine hi.same ?_ rfl rfl rfl ?_ id
      · intro o ho
        rcases List.mem_append.mp ho with ho | ho
        · exact hlifted _ o ho
        · obtain ⟨e, -, rfl⟩ := List.mem_map.mp ho
          rfl
      · intro _
        cases WaylandClipboard.step_cases hstep with
        | destroyed hstop => exact hstop
  | selected hstop hlive =>
      rename_i offer overtaken pipe calls
      have hmanager := (onDeviceSelection_manager d offer overtaken pipe calls).1
      have hchanged := onDeviceSelection_onChanged d offer overtaken pipe calls
      cases onDeviceSelection_selected d offer overtaken pipe calls with
      | still hdrains hnext hcached hos =>
          refine hi.same hos hdrains hnext hcached ?_ ?_
          · rw [hmanager]
            exact id
          · rw [hchanged]
            exact id
      | cleared hdrains hnext hos hrest =>
          rw [hos]
          exact hi.clear hrest hdrains hnext (by rw [hmanager]) hchanged
      | spawned hdrains hnext hcached hos hbefore =>
          rw [hos]
          exact hi.spawn hbefore hdrains hnext hchanged
  | noOffer | mime | noPrimary => exact hi.same (by simp) rfl rfl rfl id id
  | introduced | primary => exact hi.same (by simp [Obs.quiet]) rfl rfl rfl id id
  | drained hw hstage => exact hi.drained hw hstage
  | gaveUp hw hstage hcause =>
      refine hi.gaveUp hw hstage ?_
      rcases hcause with hstop | rfl
      · exact Or.inl hstop
      · exact Or.inr ((hturn _ hw).1 hstage)
  | stored hw hstage =>
      refine hi.store hw hstage ?_ rfl rfl rfl rfl rfl
      exact (hturn _ hw).2 (by simp [pending, hstage])
  | reported hw hstage => exact hi.report hw hstage (hturn _ hw) rfl rfl rfl rfl rfl rfl
  | detached => exact hi.same (by simp) rfl rfl rfl id (fun hon => by cases hon)

/-- **Every run in turn keeps the order.** -/
theorem run_orderly {lib : ImageLibrary} (hrun : (machine lib).Run InTurn {} h d) :
    Orderly h d := by
  refine hrun.history_invariant Orderly ?_ ?_
  · refine ⟨?_, ?_, ?_⟩
    · constructor <;> simp [stores, reports]
    · constructor <;> simp
    · intro n hn
      cases hn
  · intro h d a d' os hi hturn hstep
    exact step_orderly hi hturn hstep

/-! ## The latest selection wins -/

/-- Every worker is done, and neither the manager nor the callback is gone. -/
def AtRest (d : Device) : Prop :=
  d.drains = [] ∧ d.manager.state.stop = false ∧ d.onChanged = true

instance (d : Device) : Decidable (AtRest d) :=
  inferInstanceAs
    (Decidable (d.drains = [] ∧ d.manager.state.stop = false ∧ d.onChanged = true))

/-- Stores and reports come in the order of their selections; and once every
worker is done, the last report has the text of the latest selection, which
is cached unless a null selection has come since. -/
structure LatestWins (h : List Obs) (d : Device) : Prop where
  storesInOrder : ((stores h).map Prod.fst).Pairwise (· < ·)
  reportsInOrder : ((reports h).map Prod.fst).Pairwise (· < ·)
  latest : AtRest d → ∀ n, d.nextDrain = n + 1 → ∃ calls text,
    .spawned n calls ∈ h ∧ drainedText calls = some text ∧
    (reports h).getLast? = some (n, text) ∧
    (Since (fun o => o = .spawned n calls) (fun o => o = .cleared) h →
      d.getClipboardText = some text)

theorem Orderly.latestWins (hi : Orderly h d) : LatestWins h d where
  storesInOrder := hi.recorded.storesInOrder
  reportsInOrder := hi.recorded.reportsInOrder
  latest := by
    rintro ⟨hdrains, hstop, hon⟩ n hn
    have hl := hi.latest n hn
    have hnobody : ∀ w, w ∉ d.drains := by
      rw [hdrains]
      simp
    obtain ⟨w, hw, -⟩ | ⟨text, hstored⟩ := hl.stores hstop
    · exact absurd hw (hnobody w)
    · obtain ⟨calls, hspawned, hdrained⟩ := hi.recorded.storedSpawned n text hstored
      refine ⟨calls, text, hspawned, hdrained, ?_, hl.cached text calls hstored⟩
      rcases hl.reports hon text hstored with ⟨w, hw, -⟩ | hlast
      · exact absurd hw (hnobody w)
      · exact hlast

/-- **The latest selection wins.**  Nothing older overwrites its text or is
reported after it, in every run in turn. -/
theorem latest_selection_wins (lib : ImageLibrary) (h : List Obs) (d : Device)
    (hrun : (machine lib).Run InTurn {} h d) : LatestWins h d :=
  (run_orderly hrun).latestWins

/-- Decides `InTurn`. -/
def inTurn (d : Device) : Action → Bool
  | .store index =>
    match d.drains[index]? with
    | some w =>
      (w.stage != .drained none || decide (w.number + 1 < d.nextDrain)) &&
        (!pending w || d.drains.all fun w' => decide (w.number ≤ w'.number) || !pending w')
    | none => true
  | .report index =>
    match d.drains[index]? with
    | some w => d.drains.all fun w' => decide (w.number ≤ w'.number) || !unreported w'
    | none => true
  | _ => true

theorem inTurn_of_test (d : Device) (a : Action) (htest : inTurn d a = true) : InTurn d a := by
  cases a with
  | store index =>
      intro w hw
      simp only [inTurn, hw, Bool.and_eq_true, Bool.or_eq_true, List.all_eq_true] at htest
      refine ⟨?_, ?_⟩
      · intro hnone
        rcases htest.1 with hstage | hlater
        · simp [hnone] at hstage
        · exact of_decide_eq_true hlater
      · intro hpending w' hw' hlt
        rcases htest.2 with hnot | hall
        · simp [hpending] at hnot
        · rcases hall w' hw' with hle | hnot
          · exact absurd (of_decide_eq_true hle) (not_le.mpr hlt)
          · simpa using hnot
  | report index =>
      intro w hw w' hw' hlt
      simp only [inTurn, hw, List.all_eq_true, Bool.or_eq_true] at htest
      rcases htest w' hw' with hle | hnot
      · exact absurd (of_decide_eq_true hle) (not_le.mpr hlt)
      · simpa using hnot
  | manager | dataOffer | offerMime | selection | primarySelection | drain | detach => trivial

/-- Two texts are copied one after the other. -/
def copyTwice : List Action :=
  [.dataOffer (some 0), .offerMime 0 (ascii "text/plain"),
    .selection (some 0) false true [.got 97 [], .eof], .dataOffer (some 1),
    .offerMime 1 (ascii "text/plain"), .selection (some 1) false true [.got 98 [], .eof]]

/-- Both workers get through, the second one waiting for the first; or the
first one comes last. -/
def finishInTurn : List Action :=
  [.drain 1, .drain 0, .store 0, .store 1, .report 0, .report 0]
def finishOlderLast : List Action :=
  [.drain 1, .store 1, .report 1, .drain 0, .store 0, .report 0]

/-- The second worker has drained first, and waits for the first. -/
theorem latest_selection_wins_twice :
    ∃ h d, (machine WaylandClipboard.noImages).Run InTurn {} h d ∧
      stores h = [(0, [97]), (1, [98])] ∧ reports h = [(0, [97]), (1, [98])] ∧
      d.getClipboardText = some [98] ∧ LatestWins h d := by
  have hexec : ((machine WaylandClipboard.noImages).execIf inTurn {}
      (copyTwice ++ finishInTurn)).map
      (fun r => (stores r.2, reports r.2, r.1.getClipboardText)) =
      some ([(0, [97]), (1, [98])], [(0, [97]), (1, [98])], some [98]) := by
    decide
  obtain ⟨h, d, hrun, hresult⟩ := Machine.Run.of_execIf_map inTurn_of_test hexec
  obtain ⟨hstores, hresult⟩ := Prod.mk.inj hresult
  obtain ⟨hreports, hcached⟩ := Prod.mk.inj hresult
  exact ⟨h, d, hrun, hstores, hreports, hcached,
    latest_selection_wins WaylandClipboard.noImages h d hrun⟩

/-- **An older selection wins**: the first of two copies comes through a slow
pipe.  At rest the older text is cached, and the parent was told of it
last. -/
theorem older_selection_wins :
    ∃ h d, (machine WaylandClipboard.noImages).Run Machine.always {} h d ∧ AtRest d ∧
      .spawned 1 [.got 98 [], .eof] ∈ h ∧ .cleared ∉ h ∧
      reports h = [(1, [98]), (0, [97])] ∧ d.getClipboardText = some [97] ∧
      ¬ LatestWins h d := by
  have hexec : ((machine WaylandClipboard.noImages).exec {}
      (copyTwice ++ finishOlderLast)).map
      (fun r => (r.2, decide (AtRest r.1), r.1.getClipboardText)) =
      some ([.introduced 0, .destroyed 0, .spawned 0 [.got 97 [], .eof], .introduced 1,
        .destroyed 1, .spawned 1 [.got 98 [], .eof], .stored 1 [98], .reported 1 [98],
        .stored 0 [97], .reported 0 [97]], true, some [97]) := by
    decide
  obtain ⟨h, d, hrun, hresult⟩ := Machine.Run.of_exec_map hexec
  obtain ⟨rfl, hresult⟩ := Prod.mk.inj hresult
  obtain ⟨hrest, hcached⟩ := Prod.mk.inj hresult
  refine ⟨_, d, hrun, of_decide_eq_true hrest, by simp, by simp, rfl, hcached, ?_⟩
  intro hwins
  exact absurd hwins.reportsInOrder (by decide)

end WaylandChanges
