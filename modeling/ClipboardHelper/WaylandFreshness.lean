import ClipboardHelper.Library.Pool
import ClipboardHelper.WaylandDevice

/-!
# What the Wayland backends answer to GET_CLIPBOARD

`GetClipboardText` returns `cached_clipboard_text`, which two places write:
a worker stores what it has drained, and a selection event with null resets
it.  Everything else that changes the clipboard leaves it alone: the helper's
own offers, a source that could not be made, a source that was cancelled, a
selection that is taken for an echo, one without text, one whose drain fails.

**`cached_text_fresh`**: whenever nothing is queued and no worker is at work,
the cached text is that of the current selection, in every run in which each
of these steps finds the right text cached already, nothing is stored for an
older selection unless the current one is still being drained, and no stale
null event resets a text that is known.
-/

namespace WaylandFreshness

open Library PasteFormats WaylandDevice

/-! ## The text of the current selection -/

/-- The text that is set by an offer of the helper; an announcement has none
yet. -/
def textOfOffer : WaylandClipboard.Offer → Option Bytes
  | .text utf8 => some utf8
  | .image _ | .delayed _ _ => none

/-- The text set by an offer, by its number. -/
def textOf (made : List WaylandClipboard.Offer) (n : Nat) : Option Bytes :=
  made[n]?.bind textOfOffer

/-- The text of the current selection, as far as the helper knows it. -/
def knownText (d : Device) : Option Bytes :=
  match d.selection with
  | .own n => textOf d.made n
  | .foreign _ text => text
  | .empty | .replaced => none

/-- Nothing is queued and no worker is at work. -/
structure Quiescent (d : Device) : Prop where
  posting : d.manager.posting = none
  tasks : d.manager.tasks = []
  drains : d.drains = []
  running : d.manager.state.stop = false

instance (d : Device) : Decidable (Quiescent d) :=
  decidable_of_iff
    (d.manager.posting = none ∧ d.manager.tasks = [] ∧ d.drains = [] ∧
      d.manager.state.stop = false)
    ⟨fun ⟨hposting, htasks, hdrains, hrunning⟩ => ⟨hposting, htasks, hdrains, hrunning⟩,
      fun hq => ⟨hq.posting, hq.tasks, hq.drains, hq.running⟩⟩

/-- The worker has not stored anything yet. -/
def unstored (w : Drain) : Bool :=
  match w.stage with
  | .stored _ _ => false
  | _ => true

/-- The current selection is the one that this worker drains. -/
def Drains (w : Drain) (d : Device) : Prop := ∃ text, d.selection = .foreign (some w.number) text

/-- The text of the current selection is still to come. -/
def InFlight (d : Device) : Prop := ∃ w ∈ d.drains, unstored w = true ∧ Drains w d

/-- **Steps that keep the cached text up to date.**  The condition is about
those that leave it as it is although the selection changes, and about those
that write it for a selection which is not the current one. -/
def UpToDate (d : Device) : Action → Prop
  | .manager (.runTask true) => ∀ task ∈ d.manager.tasks.head?,
      d.cachedClipboardText = textOf d.made task.offer
  | .manager (.runTask false) | .manager .cancelled =>
      ∀ n, d.selection = .own n → d.cachedClipboardText = none
  | .selection none overtaken _ _ => overtaken = true → knownText d = none
  | .selection (some offer) overtaken pipe _ => overtaken = false →
      d.manager.currentSource.isSome = true ∨ chosenMime d offer = none ∨ pipe = false →
      d.cachedClipboardText = none
  | .store index => ∀ w, d.drains[index]? = some w → d.manager.state.stop = false →
      (∀ text, w.stage = .drained (some text) → InFlight d ∨ knownText d = some text) ∧
      (w.stage = .drained none → Drains w d → d.cachedClipboardText = knownText d)
  | _ => True

/-! ## Invariant -/

/-- **The invariant**: what names an offer names one that was made; and the
cached text is that of the current selection, unless this is still being
drained. -/
structure Tracked (d : Device) : Prop where
  offers : d.manager.offers = d.made.length
  posting : ∀ task, d.manager.posting = some task → task.offer < d.made.length
  tasks : ∀ task ∈ d.manager.tasks, task.offer < d.made.length
  own : ∀ n, d.selection = .own n → n < d.made.length
  cached : d.manager.state.stop = true ∨ d.cachedClipboardText = knownText d ∨ InFlight d

/-! ## The source side -/

/-- What a step of the source side does to the queue: it posts the new offer,
or adds nothing to it. -/
theorem queue_of_step {lib : ImageLibrary} {m m' : WaylandClipboard.Manager}
    {a : WaylandClipboard.Action} {os : List WaylandClipboard.Obs}
    (h : (WaylandClipboard.machine lib).step m a = some (m', os)) :
    (∃ offer, a = .offer offer ∧ m'.offers = m.offers + 1 ∧
      m'.posting = some ⟨offer.kind, m.offers⟩ ∧ m'.tasks = m.tasks) ∨
    ((∀ offer, a ≠ .offer offer) ∧ m'.offers = m.offers ∧
      (∀ task, m'.posting = some task → m.posting = some task) ∧
      ∀ task ∈ m'.tasks, m.posting = some task ∨ task ∈ m.tasks) := by
  cases WaylandClipboard.step_cases h with
  | @offered offer => exact Or.inl ⟨offer, rfl, rfl, rfl, rfl⟩
  | posted hposting =>
      refine Or.inr ⟨by simp, rfl, by simp, ?_⟩
      intro task hmem
      rcases List.mem_append.mp hmem with hmem | hmem
      · exact Or.inr hmem
      · rw [List.mem_singleton.mp hmem]
        exact Or.inl hposting
  | ran htasks =>
      refine Or.inr ⟨by simp, rfl, fun _ hposting => hposting, ?_⟩
      intro task hmem
      rw [htasks]
      exact Or.inr (List.mem_cons_of_mem _ hmem)
  | provided | discarded | sent | asked | cancelled | asleep | woken | destroyed =>
      exact Or.inr ⟨by simp, rfl, fun _ hposting => hposting, fun _ hmem => Or.inr hmem⟩

/-- Later offers do not change the text of an earlier one. -/
theorem textOf_append {made : List WaylandClipboard.Offer} {n : Nat} (hn : n < made.length)
    (offer : WaylandClipboard.Offer) : textOf (made ++ [offer]) n = textOf made n := by
  rw [textOf, textOf, List.getElem?_append_left hn]

variable {d d' : Device}

/-- What is left of the selection without the helper's own source. -/
theorem withoutOwn_cases (d : Device) (instead : Selection) :
    (∃ n, d.selection = .own n) ∧ d.selection.withoutOwn instead = instead ∨
      d.selection.withoutOwn instead = d.selection ∧ ∀ n, d.selection ≠ .own n := by
  cases hs : d.selection with
  | own n => exact Or.inl ⟨⟨n, rfl⟩, rfl⟩
  | empty | replaced | foreign => exact Or.inr ⟨rfl, by simp⟩

/-- What a step of the source side does to the selection: it names an offer
that was made, and the cached text is right if it is a new one. -/
theorem selection_of_step (hi : Tracked d) {lib : ImageLibrary} {a : WaylandClipboard.Action}
    {m : WaylandClipboard.Manager} {os : List WaylandClipboard.Obs}
    (hok : UpToDate d (.manager a))
    (hstep : (WaylandClipboard.machine lib).step d.manager a = some (m, os)) :
    (∀ n, selectionAfter d a = .own n → n < d.made.length) ∧
      (selectionAfter d a = d.selection ∨
        (∀ offer, a ≠ .offer offer) ∧ d.cachedClipboardText = knownText (lift d a m)) := by
  have hgone : ∀ instead, instead = .empty ∨ instead = .replaced →
      (∀ n, d.selection = .own n → d.cachedClipboardText = none) →
      selectionAfter d a = d.selection.withoutOwn instead → (∀ offer, a ≠ .offer offer) →
      (∀ n, selectionAfter d a = .own n → n < d.made.length) ∧
        (selectionAfter d a = d.selection ∨
          (∀ offer, a ≠ .offer offer) ∧ d.cachedClipboardText = knownText (lift d a m)) := by
    intro instead hinstead hnone hafter hnot
    rcases withoutOwn_cases d instead with ⟨⟨n, hn⟩, hsame⟩ | ⟨hsame, hnever⟩
    · have hlifted : (lift d a m).selection = instead := hafter.trans hsame
      rw [hafter, hsame]
      rcases hinstead with rfl | rfl
      · exact ⟨by simp, Or.inr ⟨hnot, by rw [hnone n hn, knownText, hlifted]⟩⟩
      · exact ⟨by simp, Or.inr ⟨hnot, by rw [hnone n hn, knownText, hlifted]⟩⟩
    · rw [hafter, hsame]
      exact ⟨hi.own, Or.inl rfl⟩
  cases WaylandClipboard.step_cases hstep with
  | @ran task tasks created htasks =>
      cases created with
      | true =>
          have hafter : selectionAfter d (.runTask true) = .own task.offer := by
            simp [selectionAfter, htasks]
          have hhead : d.manager.tasks.head? = some task := by
            rw [htasks]
            rfl
          have hlifted : (lift d (.runTask true)
              (WaylandClipboard.recreateSource { d.manager with tasks := tasks } task
                true)).selection = .own task.offer := hafter
          rw [hafter]
          refine ⟨?_, Or.inr ⟨by simp, ?_⟩⟩
          · intro n hn
            cases hn
            exact hi.tasks task (by simp [htasks])
          · rw [knownText, hlifted]
            exact hok task hhead
      | false =>
          refine hgone .empty (Or.inl rfl) hok ?_ (by simp)
          simp [selectionAfter, htasks]
  | cancelled => exact hgone .replaced (Or.inr rfl) hok rfl (by simp)
  | offered | posted | provided | discarded | sent | asked | asleep | woken | destroyed =>
      exact ⟨hi.own, Or.inl rfl⟩

/-- A step that touches neither the selection nor the cached text, and by
which no worker gets to its store. -/
theorem Tracked.still (hi : Tracked d) (hmanager : d'.manager = d.manager)
    (hmade : d'.made = d.made) (hcached : d'.cachedClipboardText = d.cachedClipboardText)
    (hselection : d'.selection = d.selection)
    (hdrains : InFlight d → InFlight d') : Tracked d' where
  offers := by rw [hmanager, hmade]; exact hi.offers
  posting := by rw [hmanager, hmade]; exact hi.posting
  tasks := by rw [hmanager, hmade]; exact hi.tasks
  own := by rw [hselection, hmade]; exact hi.own
  cached := by
    have hknown : knownText d' = knownText d := by
      unfold knownText
      rw [hselection, hmade]
    rw [hmanager, hcached, hknown]
    exact hi.cached.imp_right (Or.imp_right hdrains)

/-- A step by which the cached text is right. -/
theorem Tracked.right (hi : Tracked d) (hmanager : d'.manager = d.manager)
    (hmade : d'.made = d.made) (hselection : ∀ n, d'.selection = .own n → d.selection = .own n)
    (hright : d'.cachedClipboardText = knownText d' ∨ InFlight d') : Tracked d' where
  offers := by rw [hmanager, hmade]; exact hi.offers
  posting := by rw [hmanager, hmade]; exact hi.posting
  tasks := by rw [hmanager, hmade]; exact hi.tasks
  own := by
    intro n hn
    rw [hmade]
    exact hi.own n (hselection n hn)
  cached := Or.inr hright

/-- A step of the source side. -/
theorem Tracked.lift (hi : Tracked d) {lib : ImageLibrary} {a : WaylandClipboard.Action}
    {m : WaylandClipboard.Manager} {os : List WaylandClipboard.Obs}
    (hok : UpToDate d (.manager a)) (halive : a ≠ .destroy)
    (hstep : (WaylandClipboard.machine lib).step d.manager a = some (m, os)) :
    Tracked (lift d a m) := by
  have hstop := stop_of_lifted hstep halive
  obtain ⟨hown, hselection⟩ := selection_of_step hi hok hstep
  rcases queue_of_step hstep with
    ⟨offer, rfl, hoffers, hposting, htasks⟩ | ⟨hnot, hoffers, hposting, htasks⟩
  · have hmade : (WaylandDevice.lift d (.offer offer) m).made = d.made ++ [offer] := rfl
    have hlength : (d.made ++ [offer]).length = d.made.length + 1 := List.length_append
    constructor
    · rw [hmade, hlength, ← hi.offers]
      exact hoffers
    · intro task htask
      have hsame : task = ⟨offer.kind, d.manager.offers⟩ :=
        Option.some.inj (htask.symm.trans hposting)
      rw [hmade, hlength, hsame, hi.offers]
      exact Nat.lt_succ_self _
    · intro task hmem
      have hmem' : task ∈ d.manager.tasks := htasks ▸ hmem
      rw [hmade, hlength]
      exact Nat.lt_succ_of_lt (hi.tasks task hmem')
    · intro n hn
      rw [hmade, hlength]
      exact Nat.lt_succ_of_lt (hown n hn)
    · have hknown : knownText (WaylandDevice.lift d (.offer offer) m) = knownText d := by
        have hsame : (WaylandDevice.lift d (.offer offer) m).selection = d.selection := rfl
        unfold knownText
        rw [hsame, hmade]
        cases hs : d.selection with
        | own n => exact textOf_append (hi.own n hs) offer
        | empty | replaced | foreign => rfl
      rw [hknown]
      exact hi.cached.imp_left hstop.trans
  · have hmade : (WaylandDevice.lift d a m).made = d.made := by
      cases a with
      | offer offer => exact absurd rfl (hnot offer)
      | post | provideData | runTask | send | cancelled | wake | destroy => rfl
    constructor
    · rw [hmade, ← hi.offers]
      exact hoffers
    · intro task htask
      rw [hmade]
      exact hi.posting task (hposting task htask)
    · intro task hmem
      rw [hmade]
      exact (htasks task hmem).elim (hi.posting task) (hi.tasks task)
    · intro n hn
      rw [hmade]
      exact hown n hn
    · rcases hselection with hsame | ⟨-, hright⟩
      · have hlifted : (WaylandDevice.lift d a m).selection = d.selection := hsame
        have hknown : knownText (WaylandDevice.lift d a m) = knownText d := by
          unfold knownText
          rw [hlifted, hmade]
        have hflight : InFlight d → InFlight (WaylandDevice.lift d a m) := by
          rintro ⟨w, hw, hunstored, text, hdrains⟩
          exact ⟨w, hw, hunstored, text, hlifted.trans hdrains⟩
        rw [hknown]
        rcases hi.cached with hstopped | hcached
        · exact Or.inl (hstop.trans hstopped)
        · exact Or.inr (hcached.imp_right hflight)
      · exact Or.inr (Or.inl hright)

/-- The end of a selection event, behind the steps that concern the offers. -/
theorem Tracked.spawn (hi : Tracked d) (overtaken : Bool) {text pipe : Bool} {calls : List ReadCall}
    (hmanager : d'.manager = d.manager) (hmade : d'.made = d.made)
    (hcached : d'.cachedClipboardText = d.cachedClipboardText) (hdrains : d'.drains = d.drains)
    (hselection : d'.selection = if overtaken then d.selection
      else .foreign (if text && pipe then some d'.nextDrain else none) none)
    (hnone : overtaken = false → (text && pipe) = false → d.cachedClipboardText = none) :
    Tracked (spawnDrain d' text pipe calls).1 := by
  unfold spawnDrain
  split
  · rename_i hspawn
    cases overtaken with
    | true =>
        have hsame : d'.selection = d.selection := hselection
        refine hi.still hmanager hmade hcached hsame ?_
        rintro ⟨w, hw, hunstored, known, hcurrent⟩
        refine ⟨w, ?_, hunstored, known, hsame.trans hcurrent⟩
        simp only [hdrains]
        exact List.mem_append_left _ hw
    | false =>
        have hnew : d'.selection = .foreign (some d'.nextDrain) none := by
          simpa [hspawn] using hselection
        refine hi.right hmanager hmade ?_ (Or.inr ?_)
        · intro n hn
          rw [hnew] at hn
          cases hn
        · exact ⟨{ number := d'.nextDrain, calls := calls }, by simp, rfl, none, hnew⟩
  · rename_i hquiet
    have hquiet' : (text && pipe) = false := by simpa using hquiet
    cases overtaken with
    | true =>
        have hsame : d'.selection = d.selection := hselection
        refine hi.still hmanager hmade hcached hsame ?_
        rintro ⟨w, hw, hunstored, known, hcurrent⟩
        exact ⟨w, hdrains ▸ hw, hunstored, known, hsame.trans hcurrent⟩
    | false =>
        have hnew : d'.selection = .foreign none none := by
          simpa [hquiet'] using hselection
        refine hi.right hmanager hmade ?_ (Or.inl ?_)
        · intro n hn
          rw [hnew] at hn
          cases hn
        · rw [hcached, hnone rfl hquiet', knownText, hnew]

/-- A selection event. -/
theorem Tracked.selected (hi : Tracked d) {offer : Option OfferProxy} {overtaken pipe : Bool}
    {calls : List ReadCall} (hok : UpToDate d (.selection offer overtaken pipe calls)) :
    Tracked (onDeviceSelection d offer overtaken pipe calls).1 := by
  unfold onDeviceSelection
  cases offer with
  | none =>
      refine hi.right rfl rfl ?_ (Or.inl ?_)
      · intro n hn
        cases overtaken with
        | true => exact hn
        | false => cases hn
      · cases overtaken with
        | true =>
            have hnone : knownText d = none := hok rfl
            exact hnone.symm
        | false => rfl
  | some offer =>
      simp only
      split
      · rename_i hsource
        cases overtaken with
        | true => exact hi.still rfl rfl rfl rfl id
        | false =>
            refine hi.right rfl rfl ?_ (Or.inl ?_)
            · intro n hn
              cases hn
            · exact hok rfl (Or.inl hsource)
      · refine hi.spawn overtaken rfl rfl rfl rfl rfl ?_
        intro hlatest hquiet
        refine hok hlatest (Or.inr ?_)
        cases hmime : chosenMime d offer with
        | none => exact Or.inl rfl
        | some mime => exact Or.inr (by simpa [hmime] using hquiet)

/-! ## Workers -/

/-- A worker is about to store what it has drained, if anything. -/
theorem Tracked.drained (hi : Tracked d) {index : Nat} {w : Drain}
    (hw : d.drains[index]? = some w) :
    Tracked { d with
      drains := d.drains.set index { w with stage := .drained (drainedText w.calls) } } := by
  refine hi.still rfl rfl rfl rfl ?_
  rintro ⟨w', hw', hunstored, hcurrent⟩
  by_cases hsame : w' = w
  · subst hsame
    obtain ⟨hlt, -⟩ := List.getElem?_eq_some_iff.mp hw
    exact ⟨_, List.mem_set hlt _, rfl, hcurrent⟩
  · exact ⟨w', mem_set_of_ne hw hw' hsame _, hunstored, hcurrent⟩

/-- A worker stores nothing. -/
theorem Tracked.gaveUp (hi : Tracked d) {index : Nat} {w : Drain} (hw : d.drains[index]? = some w)
    (hfailed : d.manager.state.stop = false → Drains w d → d.cachedClipboardText = knownText d) :
    Tracked { d with drains := d.drains.eraseIdx index } := by
  cases hstop : d.manager.state.stop with
  | true =>
      exact
        { offers := hi.offers
          posting := hi.posting
          tasks := hi.tasks
          own := hi.own
          cached := Or.inl hstop }
  | false =>
      by_cases hcurrent : Drains w d
      · exact hi.right rfl rfl (fun _ hn => hn) (Or.inl (hfailed hstop hcurrent))
      · refine hi.still rfl rfl rfl rfl ?_
        rintro ⟨w', hw', hunstored, hdrains⟩
        have hne : w' ≠ w := by
          rintro rfl
          exact hcurrent hdrains
        exact ⟨w', mem_eraseIdx_of_ne hw hw' hne, hunstored, hdrains⟩

/-- **A worker stores its text.**  It is that of the current selection, or
this is still to come, or they are equal. -/
theorem Tracked.stored (hi : Tracked d) {index : Nat} {w : Drain} {text : Bytes}
    (hw : d.drains[index]? = some w)
    (hright : InFlight d ∨ knownText d = some text) :
    Tracked { d with
      cachedClipboardText := some text
      drains := d.drains.set index { w with stage := .stored text d.onChanged }
      selection := d.selection.learn w.number text } := by
  have hlearn : ∀ s : Selection, s.learn w.number text = s ∨
      ∃ known, s = .foreign (some w.number) known ∧
        s.learn w.number text = .foreign (some w.number) (some text) := by
    intro s
    cases s with
    | empty | own | replaced => exact Or.inl rfl
    | foreign drain known =>
        cases drain with
        | none => exact Or.inl rfl
        | some n =>
            by_cases hn : n = w.number
            · exact Or.inr ⟨known, by rw [hn], by simp [Selection.learn, hn]⟩
            · exact Or.inl (by simp [Selection.learn, hn])
  rcases hlearn d.selection with hsame | ⟨known, hcurrent, hknown⟩
  · refine hi.right rfl rfl ?_ ?_
    · intro n hn
      exact hsame ▸ hn
    · rcases hright with ⟨w', hw', hunstored, known, hcurrent⟩ | hknown
      · by_cases heq : w' = w
        · subst heq
          left
          simp [knownText, hcurrent, Selection.learn]
        · exact Or.inr ⟨w', mem_set_of_ne hw hw' heq _, hunstored, known,
            hsame.trans hcurrent⟩
      · left
        have hlater : knownText { d with
            cachedClipboardText := some text
            drains := d.drains.set index { w with stage := .stored text d.onChanged }
            selection := d.selection.learn w.number text } = knownText d := by
          unfold knownText
          rw [hsame]
        rw [hlater, hknown]
  · refine hi.right rfl rfl ?_ (Or.inl ?_)
    · intro n hn
      rw [hknown] at hn
      cases hn
    · simp [knownText, hknown]

/-- A worker has called back. -/
theorem Tracked.reported (hi : Tracked d) {index : Nat} {w : Drain} {text : Bytes}
    {callback : Bool} (hw : d.drains[index]? = some w) (hstage : w.stage = .stored text callback) :
    Tracked { d with drains := d.drains.eraseIdx index } := by
  refine hi.still rfl rfl rfl rfl ?_
  rintro ⟨w', hw', hunstored, hcurrent⟩
  have hne : w' ≠ w := by
    rintro rfl
    simp [unstored, hstage] at hunstored
  exact ⟨w', mem_eraseIdx_of_ne hw hw' hne, hunstored, hcurrent⟩

/-! ## Runs -/

/-- **Every step that keeps the cached text up to date keeps the
invariant.** -/
theorem step_tracked {lib : ImageLibrary} {a : Action} {os : List Obs} (hi : Tracked d)
    (hok : UpToDate d a) (hmove : (machine lib).step d a = some (d', os)) : Tracked d' := by
  cases step_cases hmove with
  | lifted hstep halive => exact hi.lift hok halive hstep
  | destroyed hstep =>
      cases WaylandClipboard.step_cases hstep with
      | destroyed =>
          exact
            { offers := hi.offers
              posting := hi.posting
              tasks := hi.tasks
              own := hi.own
              cached := Or.inl rfl }
  | selected => exact hi.selected hok
  | drained hw => exact hi.drained hw
  | gaveUp hw hstage hcause =>
      refine hi.gaveUp hw ?_
      intro hrunning hcurrent
      rcases hcause with hstop | rfl
      · rw [hstop] at hrunning
        cases hrunning
      · exact (hok _ hw hrunning).2 hstage hcurrent
  | stored hw hstage hstop => exact hi.stored hw ((hok _ hw hstop).1 _ hstage)
  | reported hw hstage => exact hi.reported hw hstage
  | noOffer | introduced | mime | noPrimary | primary | detached =>
      exact hi.still rfl rfl rfl rfl id

theorem run_tracked {lib : ImageLibrary} {h : List Obs}
    (hrun : (machine lib).Run UpToDate {} h d) : Tracked d := by
  refine hrun.state_invariant Tracked ?_ ?_
  · exact
      { offers := rfl
        posting := by simp
        tasks := by simp
        own := by simp
        cached := Or.inr (Or.inl rfl) }
  · intro d a d' os hi hok hmove
    exact step_tracked hi hok hmove

/-- **The cached text is that of the current selection** whenever nothing is
queued and no worker is at work, in every run whose steps keep it up to
date. -/
theorem cached_text_fresh {lib : ImageLibrary} {h : List Obs}
    (hrun : (machine lib).Run UpToDate {} h d) (hquiet : Quiescent d) :
    d.getClipboardText = knownText d := by
  rcases (run_tracked hrun).cached with hstop | hright | ⟨w, hw, -⟩
  · rw [hquiet.running] at hstop
    cases hstop
  · exact hright
  · rw [hquiet.drains] at hw
    cases hw

end WaylandFreshness
