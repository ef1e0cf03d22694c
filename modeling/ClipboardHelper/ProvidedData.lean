import ClipboardHelper.Library.History
import ClipboardHelper.DelayedRender

/-!
# Provided data stays at hand

Once the parent has provided the data of an announcement, a paste is served
from what the dispatcher holds.  The bytes are first in `pending_response_`
and, when a call has taken them, in `cached_response_`.  The second buffer has
a flag of its own; the first one counts as filled when it is not empty.

**`provided_data_rendered`**: after an accepted `PROVIDE_DATA` and until the
next announcement every call for a format of the announced type reads a
payload of this announcement in its first locked block, and all it does from
then on is render it; in every run in which no empty payload is accepted
before a call has read one.  `empty_payload_is_lost` is a run in which one is:
the paste asks the parent again.
-/

namespace DelayedRender

open Library DispatchCodec

/-! ## What is at hand -/

/-- A call that begins now finds bytes. -/
def Available (s : Render) : Prop := s.cachedValid = true ∨ s.pendingResponse ≠ []

/-- An accepted payload is not empty, unless the cache is already filled. -/
def Kept (s : Render) : Action → Prop
  | .provide subPayload => ∀ pd, parseProvideData subPayload {} = some pd →
      s.pendingHash ≠ [] → pd.contentHash = s.pendingHash → pd.data ≠ [] ∨ s.cachedValid = true
  | _ => True

/-- The observations other than announcements and accepted payloads. -/
def Obs.ordinary : Obs → Bool
  | .announced .. | .accepted .. => false
  | _ => true

/-- What an ordinary stretch of history adds was accepted before it. -/
theorem AcceptedSince.of_append {h os : List Obs} {hash data : Bytes}
    (ha : AcceptedSince (h ++ os) hash data) (hos : ∀ o ∈ os, o.ordinary = true) :
    AcceptedSince h hash data := by
  obtain ⟨pre, mid, hsplit, hmid, hlast⟩ := ha
  have hnew : Obs.accepted hash data ∉ os := by
    intro hmem
    exact absurd (hos _ hmem) (by simp [Obs.ordinary])
  obtain ⟨rest, rfl, rfl⟩ := split_append_of_not_mem hsplit hnew
  exact ⟨pre, rest, rfl, fun o ho => hmid o (List.mem_append_left _ ho), hlast⟩

/-- Right after an announcement nothing has been accepted under it. -/
theorem not_acceptedSince_announced (h : List Obs) (hash hash' data : Bytes)
    (type : ClipboardContentType) :
    ¬ AcceptedSince (h ++ [.announced hash type]) hash' data := by
  rintro ⟨pre, mid, hsplit, hmid, -⟩
  obtain ⟨rest, rfl, -⟩ := split_append_of_not_mem hsplit (by simp)
  have hnone := hmid (.announced hash type) (by simp)
  cases hnone

/-! ## Steps that keep it -/

/-- A step that neither announces nor accepts, and neither fills nor empties
what is at hand. -/
structure Keeps (s s' : Render) (os : List Obs) : Prop where
  hash : s'.pendingHash = s.pendingHash
  available : Available s' ↔ Available s
  ordinary : ∀ o ∈ os, o.ordinary = true

theorem Keeps.advance (s : Render) (id : Nat) (call : Call) (p : Progress) {os : List Obs}
    (hos : ∀ o ∈ os, o.ordinary = true) : Keeps s (advance s id call p) os :=
  ⟨rfl, Iff.rfl, hos⟩

theorem Keeps.adopt {s : Render} (hne : s.pendingResponse ≠ []) (id : Nat) (call : Call)
    (p : Progress) {os : List Obs} (hos : ∀ o ∈ os, o.ordinary = true) :
    Keeps s (DelayedRender.advance (adopt s) id call p) os :=
  ⟨rfl, ⟨fun _ => Or.inr hne, fun _ => Or.inl rfl⟩, hos⟩

theorem begin_keeps (s : Render) (format : Nat) (cacheOnly : Bool) :
    Keeps s (begin s format cacheOnly).1 (begin s format cacheOnly).2 := by
  have hnothing : Keeps s s [] := ⟨rfl, Iff.rfl, by simp⟩
  unfold DelayedRender.begin
  cases requestedType format with
  | none => exact hnothing
  | some requested =>
      by_cases hnone : s.pendingHash = []
      · simpa only [if_pos hnone] using hnothing
      by_cases htype : s.pendingType ≠ requested
      · simpa only [if_neg hnone, if_pos htype] using hnothing
      simp only [if_neg hnone, if_neg htype]
      by_cases hcached : s.cachedValid = true
      · rw [if_pos hcached]
        exact ⟨rfl, Iff.rfl, by simp [Obs.ordinary]⟩
      rw [if_neg hcached]
      by_cases hresponse : s.pendingResponse ≠ []
      · rw [if_pos hresponse]
        exact ⟨rfl, ⟨fun _ => Or.inr hresponse, fun _ => Or.inl rfl⟩, by simp [Obs.ordinary]⟩
      rw [if_neg hresponse]
      cases cacheOnly with
      | true => exact ⟨rfl, Iff.rfl, by simp [Obs.ordinary]⟩
      | false => exact ⟨rfl, Iff.rfl, by simp [Obs.ordinary]⟩

theorem send_keeps {s s' : Render} {os : List Obs} {id : Nat} {ok : Bool}
    (hstep : send s id ok = some (s', os)) : Keeps s s' os := by
  unfold DelayedRender.send at hstep
  split at hstep
  · split at hstep
    · cases hstep
      exact Keeps.advance s id _ _ (by simp)
    · split at hstep
      · cases hstep
        exact Keeps.advance s id _ _ (by simp [Obs.ordinary])
      · cases hstep
        exact Keeps.advance s id _ _ (by simp [Obs.ordinary])
  · cases hstep

theorem wait_keeps {s s' : Render} {os : List Obs} {id : Nat} {wake : Wake}
    (hstep : wait s id wake = some (s', os)) : Keeps s s' os := by
  unfold DelayedRender.wait at hstep
  split at hstep
  · cases wake with
    | signalled =>
        simp only at hstep
        split at hstep
        · cases hstep
          exact Keeps.advance s id _ _ (by simp)
        · cases hstep
    | pumped =>
        simp only at hstep
        split at hstep
        · cases hstep
          exact Keeps.advance s id _ _ (by simp)
        · split at hstep
          · cases hstep
            exact Keeps.advance s id _ _ (by simp [Obs.ordinary])
          · cases hstep
            exact ⟨rfl, Iff.rfl, by simp⟩
    | quit | expired =>
        cases hstep
        exact Keeps.advance s id _ _ (by simp)
  · cases hstep

theorem collect_keeps {s s' : Render} {os : List Obs} {id : Nat}
    (hstep : collect s id = some (s', os)) : Keeps s s' os := by
  unfold DelayedRender.collect at hstep
  split at hstep
  · split at hstep
    · cases hstep
      exact Keeps.advance s id _ _ (by simp)
    · split at hstep
      · rename_i hresponse
        cases hstep
        exact Keeps.adopt hresponse id _ _ (by simp [Obs.ordinary])
      · split at hstep
        · cases hstep
          exact Keeps.advance s id _ _ (by simp [Obs.ordinary])
        · cases hstep
          exact Keeps.advance s id _ _ (by simp)
  · cases hstep

theorem render_keeps {s s' : Render} {os : List Obs} {id : Nat}
    (hstep : render s id = some (s', os)) : Keeps s s' os := by
  unfold DelayedRender.render at hstep
  split at hstep
  · cases hstep
    exact Keeps.advance s id _ _ (by simp [Obs.ordinary])
  · cases hstep

/-! ## After a payload was accepted -/

/-- What was accepted under the announcement in force is at hand. -/
structure Stocked (h : List Obs) (s : Render) : Prop where
  fresh : Fresh h s
  stocked : ∀ data, AcceptedSince h s.pendingHash data → Available s
  announced : Available s → s.pendingHash ≠ []

theorem stocked_initial (renderEvent : Option Bool) : Stocked [] (initial renderEvent) where
  fresh := fresh_initial renderEvent
  stocked := by
    rintro data ⟨pre, mid, hsplit, -⟩
    simp at hsplit
  announced := by
    rintro (hcached | hresponse)
    · cases hcached
    · exact absurd rfl hresponse

theorem Stocked.keep {h os : List Obs} {s s' : Render} (hs : Stocked h s)
    (hfresh : Fresh (h ++ os) s') (hkeeps : Keeps s s' os) : Stocked (h ++ os) s' := by
  refine ⟨hfresh, ?_, ?_⟩
  · intro data haccepted
    rw [hkeeps.hash] at haccepted
    exact hkeeps.available.mpr (hs.stocked data (haccepted.of_append hkeeps.ordinary))
  · intro havailable
    rw [hkeeps.hash]
    exact hs.announced (hkeeps.available.mp havailable)

theorem Stocked.announce {h : List Obs} {s : Render} (hs : Stocked h s) (subPayload : Bytes) :
    Stocked (h ++ (handleAnnounceDelayed s subPayload).2)
      (handleAnnounceDelayed s subPayload).1 := by
  have hfresh := hs.fresh.announce subPayload
  revert hfresh
  unfold handleAnnounceDelayed
  cases parseAnnouncement subPayload {} with
  | none =>
      intro hfresh
      exact hs.keep hfresh ⟨rfl, Iff.rfl, by simp⟩
  | some ann =>
      intro hfresh
      refine ⟨hfresh, ?_, ?_⟩
      · intro data haccepted
        exact absurd haccepted (not_acceptedSince_announced h _ _ data _)
      · rintro (hcached | hresponse)
        · cases hcached
        · exact absurd rfl hresponse

theorem Stocked.provide {h : List Obs} {s : Render} (hs : Stocked h s) (subPayload : Bytes)
    (hkept : Kept s (.provide subPayload)) :
    Stocked (h ++ (handleProvideData s subPayload).2) (handleProvideData s subPayload).1 := by
  have hfresh := hs.fresh.provide subPayload
  revert hfresh
  unfold handleProvideData
  cases hparse : parseProvideData subPayload {} with
  | none =>
      intro hfresh
      exact hs.keep hfresh ⟨rfl, Iff.rfl, by simp⟩
  | some pd =>
      by_cases hnone : s.pendingHash = []
      · simp only [if_pos hnone]
        intro hfresh
        exact hs.keep hfresh ⟨rfl, Iff.rfl, by simp⟩
      by_cases hother : pd.contentHash ≠ s.pendingHash
      · simp only [if_neg hnone, if_pos hother]
        intro hfresh
        exact hs.keep hfresh ⟨rfl, Iff.rfl, by simp⟩
      simp only [if_neg hnone, if_neg hother]
      intro hfresh
      refine ⟨hfresh, ?_, fun _ => hnone⟩
      intro _ _
      exact (hkept pd hparse hnone (not_not.mp hother)).symm

/-- **One step**: what is accepted stays at hand. -/
theorem Stocked.step {h os : List Obs} {s s' : Render} {a : Action} (hs : Stocked h s)
    (hi : Inv h s) (hkept : Kept s a) (hstep : machine.step s a = some (s', os)) :
    Stocked (h ++ os) s' := by
  have hfresh := (step_inv hi hstep).1
  cases a with
  | announce subPayload =>
      have hnext := hs.announce subPayload
      rwa [Option.some.inj hstep] at hnext
  | provide subPayload =>
      have hnext := hs.provide subPayload hkept
      rwa [Option.some.inj hstep] at hnext
  | cancelPendingRender =>
      cases hstep
      exact hs.keep hfresh ⟨rfl, Iff.rfl, by simp⟩
  | begin format cacheOnly =>
      have hkeeps := begin_keeps s format cacheOnly
      rw [Option.some.inj hstep] at hkeeps
      exact hs.keep hfresh hkeeps
  | send id ok => exact hs.keep hfresh (send_keeps hstep)
  | wait id wake => exact hs.keep hfresh (wait_keeps hstep)
  | collect id => exact hs.keep hfresh (collect_keeps hstep)
  | render id => exact hs.keep hfresh (render_keeps hstep)

/-! ## A call that has its bytes -/

/-- Call `id` holds `data`, or has rendered it. -/
structure Served (id : Nat) (requested : ClipboardContentType) (data : Bytes) (h : List Obs)
    (s : Render) : Prop where
  begun : id < s.nextCall
  call : ∃ call, s.calls id = some call ∧ call.requested = requested ∧
    (call.progress = .rendering data ∨
      call.progress = .finished ∧ .rendered id requested data ∈ h)

section Served

variable {id : Nat} {requested : ClipboardContentType} {data : Bytes} {h os : List Obs}
  {s s' : Render}

/-- A step that leaves the call alone. -/
theorem Served.keep (hs : Served id requested data h s) (hnext : s.nextCall ≤ s'.nextCall)
    (hcalls : s'.calls id = s.calls id) : Served id requested data (h ++ os) s' := by
  obtain ⟨hbegun, call, hcall, hrequested, hprogress⟩ := hs
  refine ⟨Nat.lt_of_lt_of_le hbegun hnext, call, hcalls.trans hcall, hrequested, ?_⟩
  exact hprogress.imp_right fun hdone => ⟨hdone.1, List.mem_append_left _ hdone.2⟩

/-- A step of a call that is still without bytes is a step of another call. -/
theorem Served.advance (hs : Served id requested data h s) {id' : Nat} {call' : Call}
    (hcall' : s.calls id' = some call')
    (hactive : call'.progress = .requesting ∨ call'.progress = .waiting ∨
      call'.progress = .woken)
    (hnext : s'.nextCall = s.nextCall) {c : Call}
    (hcalls : s'.calls = Function.update s.calls id' (some c)) :
    Served id requested data (h ++ os) s' := by
  have hne : id ≠ id' := by
    rintro rfl
    obtain ⟨-, call, hcall, -, hprogress⟩ := hs
    obtain rfl : call = call' := Option.some.inj (hcall.symm.trans hcall')
    rcases hprogress with hrendering | ⟨hfinished, -⟩
    · simp [hrendering] at hactive
    · simp [hfinished] at hactive
  exact hs.keep (Nat.le_of_eq hnext.symm) (by rw [hcalls, Function.update_of_ne hne])

theorem begin_frame (s : Render) (format : Nat) (cacheOnly : Bool) :
    s.nextCall ≤ (begin s format cacheOnly).1.nextCall ∧
      ∀ id < s.nextCall, (begin s format cacheOnly).1.calls id = s.calls id := by
  have hother : ∀ (c : Option Call) (id : Nat), id < s.nextCall →
      Function.update s.calls s.nextCall c id = s.calls id :=
    fun c id hid => Function.update_of_ne (Nat.ne_of_lt hid) _ _
  unfold DelayedRender.begin
  cases requestedType format with
  | none => exact ⟨le_rfl, fun _ _ => rfl⟩
  | some requested =>
      by_cases hnone : s.pendingHash = []
      · simp [hnone]
      by_cases htype : s.pendingType ≠ requested
      · simp [hnone, htype]
      simp only [if_neg hnone, if_neg htype]
      split
      · exact ⟨Nat.le_succ _, hother _⟩
      · split
        · exact ⟨Nat.le_succ _, hother _⟩
        · split
          · exact ⟨Nat.le_succ _, hother _⟩
          · exact ⟨Nat.le_succ _, hother _⟩

theorem Served.send (hs : Served id requested data h s) {id' : Nat} {ok : Bool}
    (hstep : send s id' ok = some (s', os)) : Served id requested data (h ++ os) s' := by
  unfold DelayedRender.send at hstep
  split at hstep
  · rename_i hcall
    split at hstep
    · cases hstep
      exact hs.advance hcall (Or.inl rfl) rfl rfl
    · split at hstep
      · cases hstep
        exact hs.advance hcall (Or.inl rfl) rfl rfl
      · cases hstep
        exact hs.advance hcall (Or.inl rfl) rfl rfl
  · cases hstep

theorem Served.wait (hs : Served id requested data h s) {id' : Nat} {wake : Wake}
    (hstep : wait s id' wake = some (s', os)) : Served id requested data (h ++ os) s' := by
  unfold DelayedRender.wait at hstep
  split at hstep
  · rename_i hcall
    have hwaiting : s'.nextCall = s.nextCall → ∀ {c : Call},
        s'.calls = Function.update s.calls id' (some c) →
        Served id requested data (h ++ os) s' := hs.advance hcall (Or.inr (Or.inl rfl))
    cases wake with
    | signalled =>
        simp only at hstep
        split at hstep
        · cases hstep
          exact hwaiting rfl rfl
        · cases hstep
    | pumped =>
        simp only at hstep
        split at hstep
        · cases hstep
          exact hwaiting rfl rfl
        · split at hstep
          · cases hstep
            exact hwaiting rfl rfl
          · cases hstep
            exact hs.keep le_rfl rfl
    | quit | expired =>
        cases hstep
        exact hwaiting rfl rfl
  · cases hstep

theorem Served.collect (hs : Served id requested data h s) {id' : Nat}
    (hstep : collect s id' = some (s', os)) : Served id requested data (h ++ os) s' := by
  unfold DelayedRender.collect at hstep
  split at hstep
  · rename_i hcall
    have hwoken : s'.nextCall = s.nextCall → ∀ {c : Call},
        s'.calls = Function.update s.calls id' (some c) →
        Served id requested data (h ++ os) s' := hs.advance hcall (Or.inr (Or.inr rfl))
    split at hstep
    · cases hstep
      exact hwoken rfl rfl
    · split at hstep
      · cases hstep
        exact hwoken rfl rfl
      · split at hstep
        · cases hstep
          exact hwoken rfl rfl
        · cases hstep
          exact hwoken rfl rfl
  · cases hstep

/-- A call that renders hands over the bytes that it holds. -/
theorem Served.render (hs : Served id requested data h s) {id' : Nat}
    (hstep : render s id' = some (s', os)) : Served id requested data (h ++ os) s' := by
  unfold DelayedRender.render at hstep
  split at hstep
  · rename_i format requested' hash response hcall'
    cases hstep
    by_cases hsame : id = id'
    · subst hsame
      obtain ⟨hbegun, call, hcall, hrequested, hprogress⟩ := hs
      rw [hcall'] at hcall
      cases hcall
      refine ⟨hbegun, _, calls_advance _ _ _ _, hrequested, Or.inr ⟨rfl, ?_⟩⟩
      rcases hprogress with hrendering | ⟨hfinished, -⟩
      · cases hrendering
        rw [← hrequested]
        simp
      · cases hfinished
    · exact hs.keep le_rfl (Function.update_of_ne hsame _ _)
  · cases hstep

/-- **One step** of whatever thread or call. -/
theorem Served.step {a : Action} (hs : Served id requested data h s)
    (hstep : machine.step s a = some (s', os)) : Served id requested data (h ++ os) s' := by
  cases a with
  | announce subPayload =>
      have hframe : (handleAnnounceDelayed s subPayload).1.calls = s.calls ∧
          (handleAnnounceDelayed s subPayload).1.nextCall = s.nextCall := by
        unfold handleAnnounceDelayed
        split <;> exact ⟨rfl, rfl⟩
      rw [Option.some.inj hstep] at hframe
      exact hs.keep (Nat.le_of_eq hframe.2.symm) (congrFun hframe.1 id)
  | provide subPayload =>
      have hframe : (handleProvideData s subPayload).1.calls = s.calls ∧
          (handleProvideData s subPayload).1.nextCall = s.nextCall := by
        unfold handleProvideData
        (repeat' split) <;> exact ⟨rfl, rfl⟩
      rw [Option.some.inj hstep] at hframe
      exact hs.keep (Nat.le_of_eq hframe.2.symm) (congrFun hframe.1 id)
  | cancelPendingRender =>
      cases hstep
      exact hs.keep le_rfl rfl
  | begin format cacheOnly =>
      have hframe := begin_frame s format cacheOnly
      rw [Option.some.inj hstep] at hframe
      exact hs.keep hframe.1 (hframe.2 id hs.begun)
  | send id' ok => exact hs.send hstep
  | wait id' wake => exact hs.wait hstep
  | collect id' => exact hs.collect hstep
  | render id' => exact hs.render hstep

/-- It never asks and never waits, however the run goes on. -/
theorem Served.run (hs : Served id requested data [] s)
    (hrun : Machine.Run machine Machine.always s h s') : Served id requested data h s' :=
  hrun.history_invariant (Served id requested data) hs fun _ _ _ _ _ hi _ hstep => hi.step hstep

end Served

/-! ## Renders at once -/

/-- A call that begins now finds bytes in its first locked block. -/
theorem Stocked.begin {h : List Obs} {s : Render} (hs : Stocked h s) (havailable : Available s)
    {format : Nat} (hformat : requestedType format = some s.pendingType) (cacheOnly : Bool) :
    ∃ data s', AcceptedSince h s.pendingHash data ∧
      begin s format cacheOnly = (s', [.began s.nextCall s.pendingType s.pendingHash,
        .read s.nextCall data]) ∧
      Served s.nextCall s.pendingType data [] s' := by
  have hhash := hs.announced havailable
  have htype : ¬ s.pendingType ≠ s.pendingType := not_not.mpr rfl
  simp only [DelayedRender.begin, hformat, if_neg hhash, if_neg htype]
  by_cases hcached : s.cachedValid = true
  · rw [if_pos hcached]
    exact ⟨s.cachedResponse, _, hs.fresh.cached hcached, rfl, Nat.lt_succ_self _, _,
      calls_advance _ _ _ _, rfl, Or.inl rfl⟩
  · have hresponse := havailable.resolve_left hcached
    rw [if_neg hcached, if_pos hresponse]
    exact ⟨s.pendingResponse, _, hs.fresh.response hresponse, rfl, Nat.lt_succ_self _, _,
      calls_advance _ _ _ _, rfl, Or.inl rfl⟩

/-- A call for `format` that begins now reads a payload of the announcement in
force in its first step, can render it in its next, and does nothing else
with whatever happens in between. -/
def RendersAtOnce (h : List Obs) (s : Render) (format : Nat) (cacheOnly : Bool) : Prop :=
  ∃ data s', AcceptedSince h s.pendingHash data ∧
    machine.step s (.begin format cacheOnly) = some (s',
      [.began s.nextCall s.pendingType s.pendingHash, .read s.nextCall data]) ∧
    (∃ s'', machine.step s' (.render s.nextCall) =
      some (s'', [.rendered s.nextCall s.pendingType data])) ∧
    ∀ h' s'', Machine.Run machine Machine.always s' h' s'' →
      ∃ call, s''.calls s.nextCall = some call ∧
        (call.progress = .rendering data ∨
          call.progress = .finished ∧ .rendered s.nextCall s.pendingType data ∈ h')

/-- **Provided data is rendered.**  Once a payload was accepted under the
announcement in force, every call of its type renders such a payload without
asking and without waiting. -/
theorem provided_data_rendered {renderEvent : Option Bool} {h : List Obs} {s : Render}
    (hrun : Machine.Run machine Kept (initial renderEvent) h s) {provided : Bytes}
    (haccepted : AcceptedSince h s.pendingHash provided) {format : Nat}
    (hformat : requestedType format = some s.pendingType) (cacheOnly : Bool) :
    RendersAtOnce h s format cacheOnly := by
  have hi : Inv h s ∧ Stocked h s := by
    refine hrun.history_invariant (fun h s => Inv h s ∧ Stocked h s)
      ⟨⟨fresh_initial renderEvent, tracked_initial renderEvent⟩, stocked_initial renderEvent⟩ ?_
    exact fun h s a s' os hi hkept hstep =>
      ⟨step_inv hi.1 hstep, hi.2.step hi.1 hkept hstep⟩
  obtain ⟨data, s', hdata, hbegin, hserved⟩ :=
    hi.2.begin (hi.2.stocked provided haccepted) hformat cacheOnly
  refine ⟨data, s', hdata, congrArg some hbegin, ?_, ?_⟩
  · obtain ⟨-, ⟨format', requested, hash, progress⟩, hcall, rfl, hprogress⟩ := hserved
    obtain rfl : progress = .rendering data := hprogress.resolve_right (by simp)
    refine ⟨advance s' s.nextCall ⟨format', s.pendingType, hash, .rendering data⟩ .finished, ?_⟩
    simp only [machine, DelayedRender.render, hcall]
  · intro h' s'' hrest
    obtain ⟨-, call, hcall, -, hprogress⟩ := hserved.run hrest
    exact ⟨call, hcall, hprogress⟩

/-- The text `hi` is provided before it is asked for. -/
theorem provided_data_rendered_text :
    ∃ h s, Machine.Run machine Kept (initial (some false)) h s ∧
      AcceptedSince h s.pendingHash [0x68, 0x69] ∧
      requestedType 13 = some s.pendingType ∧ RendersAtOnce h s 13 true := by
  have hannounced : Machine.Run machine Kept (initial (some false)) _ _ :=
    Machine.Run.nil.snoc (a := .announce [0x08, 0x01, 0x12, 0x01, 0x23]) trivial rfl
  have hprovided := hannounced.snoc
    (a := .provide [0x0A, 0x01, 0x23, 0x12, 0x02, 0x68, 0x69])
    (by
      intro pd hparse _ _
      cases hparse
      exact Or.inl (by simp))
    rfl
  have haccepted : AcceptedSince _ _ [0x68, 0x69] :=
    ⟨[.announced [0x23] .text], [], rfl, by simp [Undisturbed], rfl⟩
  exact ⟨_, _, hprovided, haccepted, rfl, provided_data_rendered hprovided haccepted rfl true⟩

/-- **An empty payload is lost.**  It is accepted and no call can tell: a
paste asks for it again, and one that may only look into the cache leaves the
slot empty. -/
theorem empty_payload_is_lost :
    ∃ h s, Machine.Run machine Machine.always (initial (some false)) h s ∧
      AcceptedSince h s.pendingHash [] ∧ requestedType 13 = some s.pendingType ∧
      (machine.exec s [.begin 13 false, .send 0 true]).map Prod.snd =
        some [.began 0 .text [0x23], .requested [0x23] .text] ∧
      ¬ RendersAtOnce h s 13 false ∧ ¬ RendersAtOnce h s 13 true := by
  have hexec : (machine.exec (initial (some false))
      [.announce [0x08, 0x01, 0x12, 0x01, 0x23], .provide [0x0A, 0x01, 0x23]]).map
        (fun r => (r.2, r.1.pendingHash, r.1.pendingType,
          (machine.exec r.1 [.begin 13 false, .send 0 true]).map Prod.snd,
          (machine.step r.1 (.begin 13 false)).map Prod.snd,
          (machine.step r.1 (.begin 13 true)).map Prod.snd)) =
      some ([.announced [0x23] .text, .accepted [0x23] []], [0x23], .text,
        some [.began 0 .text [0x23], .requested [0x23] .text],
        some [.began 0 .text [0x23]], some [.began 0 .text [0x23]]) := rfl
  obtain ⟨h, s, hrun, hf⟩ := Machine.Run.of_exec_map hexec
  simp only [Prod.mk.injEq] at hf
  obtain ⟨rfl, hhash, htype, hrequest, hbegin, hcacheOnly⟩ := hf
  refine ⟨_, s, hrun, ?_, ?_, hrequest, ?_, ?_⟩
  · rw [hhash]
    exact ⟨[.announced [0x23] .text], [], rfl, by simp [Undisturbed], rfl⟩
  · rw [htype]
    rfl
  · rintro ⟨data, s', -, hstep, -⟩
    rw [hstep] at hbegin
    simp at hbegin
  · rintro ⟨data, s', -, hstep, -⟩
    rw [hstep] at hcacheOnly
    simp at hcacheOnly

end DelayedRender
