import ClipboardHelper.RelayWaits

/-!
# What the parent is told of the clipboard

`OnClipboardChanged` reports what other applications copy and keeps back what
the helper has put on the clipboard itself, which it recognises by its owner.
Between that test and the reading another application may copy again, but the
helper cannot: the STA thread dispatches nothing there (`acting`).
-/

namespace ClipboardRelay

open Library DispatchCodec

variable {sys : Platform} {before : Option ClipboardSnapshot} {event : Option Bool}
variable {h : List Obs} {s s' : Relay} {a : Action} {os : List Obs}

/-! ## The call on top -/

/-- The call neither waits for the parent nor reads for the pipe thread. -/
def Frame.active : Frame → Bool
  | .rendering .. | .fetching .. | .reading .get _ | .found .get _ => false
  | _ => true

/-- The call on top, if it is an active one. -/
def acting : List Frame → Option Frame
  | f :: _ => if f.active then some f else none
  | [] => none

def Idle (stack : List Frame) : Prop := ∀ f ∈ stack, f.active = false

/-- Only the call on top may be active. -/
def Stacked (stack : List Frame) : Prop := Idle stack.tail

theorem Idle.stacked {stack : List Frame} (hidle : Idle stack) : Stacked stack :=
  fun f hf => hidle f (List.mem_of_mem_tail hf)

theorem Stacked.rest {f : Frame} {rest : List Frame} (hstacked : Stacked s.stack)
    (hstack : s.stack = f :: rest) : Idle rest := by
  rwa [hstack] at hstacked

theorem Idle.acting {stack : List Frame} (hidle : Idle stack) : acting stack = none := by
  cases stack with
  | nil => rfl
  | cons f rest => rw [ClipboardRelay.acting, hidle f List.mem_cons_self, if_neg Bool.false_ne_true]

theorem acting_active {f : Frame} (hf : f.active = true) (rest : List Frame) :
    acting (f :: rest) = some f := by
  rw [acting, if_pos hf]

theorem acting_passive {f : Frame} (hf : f.active = false) (rest : List Frame) :
    acting (f :: rest) = none := by
  rw [acting, if_neg (Bool.eq_false_iff.mp hf)]

/-- Messages are dispatched only where no call is active. -/
theorem idle_of_pumps {render : DelayedRender.Render} {stack : List Frame}
    (hstacked : Stacked stack) (hpumps : pumps render stack = true) : Idle stack := by
  cases stack with
  | nil => exact nofun
  | cons f rest =>
      intro g hg
      rcases List.mem_cons.mp hg with rfl | hg
      · cases g with
        | rendering | fetching => rfl
        | asking | owning | opening | reading | found | sending => cases hpumps
      · exact hstacked g hg

theorem Idle.pumped {stack : List Frame} (hidle : Idle stack) : Idle (pumped stack) := by
  cases stack with
  | nil => exact hidle
  | cons f rest =>
      cases f with
      | rendering =>
          intro g hg
          rcases List.mem_cons.mp hg with rfl | hg
          · rfl
          · exact hidle g (List.mem_cons_of_mem _ hg)
      | asking | owning | opening | reading | found | sending | fetching => exact hidle

theorem Idle.cancelAll {stack : List Frame} (hidle : Idle stack) : Idle (cancelAll stack) := by
  intro g hg
  obtain ⟨f, hf, rfl⟩ := List.mem_map.mp hg
  have hactive := hidle f hf
  cases f with
  | fetching => rfl
  | rendering | asking | owning | opening | reading | found | sending => exact hactive

/-- `DeliverChunk` changes no call but one that fetches. -/
theorem mem_deliverChunk {key : Bytes} {stack : List Frame} {f : Frame}
    (hf : f ∈ deliverChunk key stack) :
    f ∈ stack ∨ ∃ key own, f = .fetching key own true := by
  induction stack with
  | nil => cases hf
  | cons g rest ih =>
      have hpassed : f ∈ g :: deliverChunk key rest →
          f ∈ g :: rest ∨ ∃ key own, f = .fetching key own true := by
        intro hf
        rcases List.mem_cons.mp hf with rfl | hf
        · exact .inl List.mem_cons_self
        · exact (ih hf).imp (List.mem_cons_of_mem g) id
      cases g with
      | fetching key' own p =>
          rw [deliverChunk] at hf
          split at hf
          · rcases List.mem_cons.mp hf with rfl | hf
            · exact .inr ⟨_, _, rfl⟩
            · exact .inl (List.mem_cons_of_mem _ hf)
          · exact hpassed hf
      | rendering | asking | owning | opening | reading | found | sending => exact hpassed hf

theorem Idle.deliverChunk {key : Bytes} {stack : List Frame} (hidle : Idle stack) :
    Idle (deliverChunk key stack) := by
  intro f hf
  rcases mem_deliverChunk hf with hf | ⟨key, own, rfl⟩
  · exact hidle f hf
  · rfl

/-- A stack whose top is neither changed nor uncovered. -/
theorem deliverChunk_acting (key : Bytes) {stack : List Frame} (hstacked : Stacked stack) :
    acting (deliverChunk key stack) = acting stack ∧ Stacked (deliverChunk key stack) := by
  cases stack with
  | nil => exact ⟨rfl, hstacked⟩
  | cons f rest =>
      have hrest : Idle rest := hstacked
      cases f with
      | fetching key' own p =>
          rw [deliverChunk]
          split
          · exact ⟨rfl, hrest⟩
          · exact ⟨rfl, hrest.deliverChunk⟩
      | rendering | asking | owning | opening | sending => exact ⟨rfl, hrest.deliverChunk⟩
      | reading reader | found reader =>
          cases reader <;> exact ⟨rfl, hrest.deliverChunk⟩

theorem Idle.again {content : Content} {format : Nat} {stack : List Frame}
    (hidle : Idle stack) : Idle (again content format stack) := by
  cases stack with
  | nil => exact hidle
  | cons f rest =>
      cases f with
      | reading reader formats =>
          rw [ClipboardRelay.again]
          split
          · intro g hg
            rcases List.mem_cons.mp hg with rfl | hg
            · have hpassive := hidle _ List.mem_cons_self
              cases reader with
              | get => rfl
              | change => cases hpassive
            · exact hidle g (List.mem_cons_of_mem _ hg)
          · exact hidle
      | rendering | asking | owning | opening | found | sending | fetching => exact hidle

/-! ## What is reported -/

/-- Another application has put it there, perhaps before the helper began. -/
def Copied (before : Option ClipboardSnapshot) (h : List Obs) (change : Nat)
    (snapshot : ClipboardSnapshot) : Prop :=
  change = 0 ∧ before = some snapshot ∨ .copied change (some snapshot) ∈ h

/-- The change has been reported, or could not be. -/
def Told (h : List Obs) (change : Nat) : Prop :=
  (∃ snapshot, .changed change snapshot ∈ h) ∨ ∃ why, .missed change why ∈ h

def Obs.reported? : Obs → Option Nat
  | .changed change _ => some change
  | _ => none

/-- The changes that have been reported, in order. -/
def reports (h : List Obs) : List Nat := h.filterMap Obs.reported?

/-- What `OnClipboardChanged` may rely on. -/
def Acts (before : Option ClipboardSnapshot) (h : List Obs) (c : Clipboard) : Frame → Prop
  | .owning => ∀ obj snapshot, c.content ≠ .object obj snapshot
  | .opening .change => c.content.isForeign = true
  | .reading .change formats => c.content.isForeign = true ∧ formats = []
  | .found .change _ => False
  | .sending change snapshot =>
    change ≤ c.change ∧ Copied before h change snapshot ∧ ∀ k ∈ reports h, k ≤ change
  | _ => True

/-- The call is about to report the change, or to find out that it cannot. -/
def Handles (change : Nat) : Frame → Prop
  | .asking | .owning | .opening .change | .reading .change _ => True
  | .sending change' _ => change' = change
  | _ => False

/-- The invariant of all runs: what is reported has been copied, and a copy
that is not reported yet will be. -/
structure Reporting (before : Option ClipboardSnapshot) (h : List Obs) (s : Relay) : Prop where
  stacked : Stacked s.stack
  outbound : ∀ obj snapshot, s.clipboard.content = .object obj snapshot → s.outbound = some obj
  acts : ∀ f ∈ acting s.stack, Acts before h s.clipboard f
  copied : ∀ snapshot, s.clipboard.content = .foreign (some snapshot) →
    Copied before h s.clipboard.change snapshot
  changed : ∀ k snapshot, .changed k snapshot ∈ h → Copied before h k snapshot
  past : ∀ k ∈ reports h, k ≤ s.clipboard.change
  order : (reports h).Pairwise (· ≤ ·)
  told : s.clipboard.content.isForeign = true →
    s.clipboard.change = 0 ∨ Told h s.clipboard.change ∨ 0 < s.updates ∨
      ∃ f ∈ acting s.stack, Handles s.clipboard.change f
  unasked : .requested (.reader .change) ∉ h ∧
    ∀ id format p, .rendering id (.reader .change) format p ∉ s.stack

theorem Copied.append {change : Nat} {snapshot : ClipboardSnapshot}
    (hc : Copied before h change snapshot) (os : List Obs) :
    Copied before (h ++ os) change snapshot :=
  hc.imp_right (List.mem_append_left os)

theorem Told.append {change : Nat} (ht : Told h change) (os : List Obs) :
    Told (h ++ os) change :=
  ht.imp (fun ⟨snapshot, hmem⟩ => ⟨snapshot, List.mem_append_left os hmem⟩)
    fun ⟨why, hmem⟩ => ⟨why, List.mem_append_left os hmem⟩

/-- Nothing that `OnClipboardChanged` does. -/
def Obs.silent : Obs → Bool
  | .changed .. | .requested (.reader .change) => false
  | _ => true

theorem reports_silent (h : List Obs) (hos : ∀ o ∈ os, o.silent = true) :
    reports (h ++ os) = reports h := by
  have hnone : os.filterMap Obs.reported? = [] := by
    refine List.filterMap_eq_nil_iff.mpr fun o ho => ?_
    have hsilent := hos o ho
    cases o with
    | changed => cases hsilent
    | _ => rfl
  rw [reports, List.filterMap_append, hnone, List.append_nil, reports]

theorem Acts.same {c c' : Clipboard} {f : Frame} (ha : Acts before h c f)
    (hcontent : c'.content = c.content) (hchange : c.change ≤ c'.change) :
    Acts before h c' f := by
  cases f with
  | owning =>
      intro obj snapshot
      rw [hcontent]
      exact ha obj snapshot
  | opening reader =>
      cases reader with
      | change => exact (congrArg Content.isForeign hcontent).trans ha
      | get => trivial
  | reading reader =>
      cases reader with
      | change => exact ⟨(congrArg Content.isForeign hcontent).trans ha.1, ha.2⟩
      | get => trivial
  | found reader =>
      cases reader with
      | change => exact ha
      | get => trivial
  | sending => exact ⟨ha.1.trans hchange, ha.2⟩
  | asking | rendering | fetching => trivial

theorem Acts.append {c : Clipboard} {f : Frame} (ha : Acts before h c f)
    (hos : ∀ o ∈ os, o.silent = true) : Acts before (h ++ os) c f := by
  cases f with
  | sending change snapshot =>
      refine ⟨ha.1, ha.2.1.append os, ?_⟩
      rw [reports_silent h hos]
      exact ha.2.2
  | opening reader | reading reader | found reader => cases reader <;> exact ha
  | owning | asking | rendering | fetching => exact ha

/-- A step that reports nothing. -/
theorem Reporting.next (hi : Reporting before h s) (hos : ∀ o ∈ os, o.silent = true)
    (hstacked : Stacked s'.stack)
    (houtbound : ∀ obj snapshot, s'.clipboard.content = .object obj snapshot →
      s'.outbound = some obj)
    (hacts : ∀ f ∈ acting s'.stack, Acts before (h ++ os) s'.clipboard f)
    (hcopied : ∀ snapshot, s'.clipboard.content = .foreign (some snapshot) →
      Copied before (h ++ os) s'.clipboard.change snapshot)
    (hchange : s.clipboard.change ≤ s'.clipboard.change)
    (htold : s'.clipboard.content.isForeign = true →
      s'.clipboard.change = 0 ∨ Told (h ++ os) s'.clipboard.change ∨ 0 < s'.updates ∨
        ∃ f ∈ acting s'.stack, Handles s'.clipboard.change f)
    (hunasked : ∀ id format p, .rendering id (.reader .change) format p ∉ s'.stack) :
    Reporting before (h ++ os) s' where
  stacked := hstacked
  outbound := houtbound
  acts := hacts
  copied := hcopied
  changed k snapshot hmem := by
    rcases List.mem_append.mp hmem with hmem | hmem
    · exact (hi.changed k snapshot hmem).append os
    · cases hos _ hmem
  past k hk := by
    rw [reports_silent h hos] at hk
    exact (hi.past k hk).trans hchange
  order := by
    rw [reports_silent h hos]
    exact hi.order
  told := htold
  unasked := by
    refine ⟨fun hmem => ?_, hunasked⟩
    rcases List.mem_append.mp hmem with hmem | hmem
    · exact hi.unasked.1 hmem
    · cases hos _ hmem

/-- A step that leaves the clipboard as it is, and the change to be reported. -/
theorem Reporting.keep (hi : Reporting before h s) (hos : ∀ o ∈ os, o.silent = true)
    (hcontent : s'.clipboard.content = s.clipboard.content)
    (hchange : s'.clipboard.change = s.clipboard.change)
    (houtbound : ∀ obj snapshot, s.clipboard.content = .object obj snapshot →
      s'.outbound = s.outbound)
    (hstacked : Stacked s'.stack)
    (hacts : ∀ f ∈ acting s'.stack, Acts before (h ++ os) s.clipboard f)
    (htold : s.clipboard.content.isForeign = true →
      0 < s.updates ∨ (∃ f ∈ acting s.stack, Handles s.clipboard.change f) →
      Told (h ++ os) s.clipboard.change ∨ 0 < s'.updates ∨
        ∃ f ∈ acting s'.stack, Handles s.clipboard.change f)
    (hunasked : ∀ id format p, .rendering id (.reader .change) format p ∈ s'.stack →
      ∃ p', .rendering id (.reader .change) format p' ∈ s.stack) :
    Reporting before (h ++ os) s' := by
  refine hi.next hos hstacked ?_ ?_ ?_ hchange.ge ?_ ?_
  · intro obj snapshot hobject
    rw [hcontent] at hobject
    rw [houtbound obj snapshot hobject]
    exact hi.outbound obj snapshot hobject
  · exact fun f hf => (hacts f hf).same hcontent hchange.ge
  · intro snapshot hforeign
    rw [hchange]
    rw [hcontent] at hforeign
    exact (hi.copied snapshot hforeign).append os
  · intro hforeign
    rw [hchange]
    rw [hcontent] at hforeign
    rcases hi.told hforeign with hzero | htold' | hleft
    · exact .inl hzero
    · exact .inr (.inl (htold'.append os))
    · exact .inr (htold hforeign hleft)
  · intro id format p hmem
    obtain ⟨p', hmem'⟩ := hunasked id format p hmem
    exact hi.unasked.2 id format p' hmem'

/-! ## One step -/

theorem Quiet.silent (hos : Quiet os) : ∀ o ∈ os, o.silent = true := by
  intro o ho
  obtain ⟨r, rfl⟩ := hos o ho
  rfl

/-- A step that leaves the stack and what is on the clipboard as they are. -/
theorem Reporting.still (hi : Reporting before h s) (hos : ∀ o ∈ os, o.silent = true)
    (hcontent : s'.clipboard.content = s.clipboard.content)
    (hchange : s'.clipboard.change = s.clipboard.change) (houtbound : s'.outbound = s.outbound)
    (hstack : s'.stack = s.stack) (hupdates : s.updates ≤ s'.updates) :
    Reporting before (h ++ os) s' := by
  refine hi.keep hos hcontent hchange (fun _ _ _ => houtbound) (hstack ▸ hi.stacked) ?_ ?_ ?_
  · intro f hf
    exact (hi.acts f (hstack ▸ hf)).append hos
  · intro _ hleft
    rw [hstack]
    exact .inr (hleft.imp_left fun hpos => hpos.trans_le hupdates)
  · intro id format p hmem
    exact ⟨p, hstack ▸ hmem⟩

/-- A message is dispatched, and leaves at most one call that is neither
reading nor reporting. -/
theorem Reporting.dispatch (hi : Reporting before h s) (hpumps : pumps s.render s.stack = true)
    (hos : ∀ o ∈ os, o.silent = true) {calls : List Frame}
    (hcalls : calls = [] ∨ ∃ f, calls = [f] ∧ (∀ h c, Acts before h c f) ∧
      ∀ id format p, f ≠ .rendering id (.reader .change) format p)
    (hcontent : s'.clipboard.content = s.clipboard.content)
    (hchange : s'.clipboard.change = s.clipboard.change) (houtbound : s'.outbound = s.outbound)
    (hstack : s'.stack = calls ++ pumped s.stack)
    (hupdates : s.updates ≤ s'.updates ∨ calls = [.asking]) :
    Reporting before (h ++ os) s' := by
  have hidle : Idle s.stack := idle_of_pumps hi.stacked hpumps
  have hnone : acting s.stack = none := hidle.acting
  refine hi.keep hos hcontent hchange (fun _ _ _ => houtbound) ?_ ?_ ?_ ?_
  · rw [hstack]
    rcases hcalls with rfl | ⟨f, rfl, -⟩
    · exact hidle.pumped.stacked
    · exact hidle.pumped
  · intro f hf
    rw [hstack] at hf
    rcases hcalls with rfl | ⟨g, rfl, hg, -⟩
    · rw [List.nil_append, hidle.pumped.acting] at hf
      cases hf
    · by_cases hactive : g.active = true
      · rw [List.singleton_append, acting_active hactive] at hf
        cases hf
        exact hg _ _
      · rw [List.singleton_append, acting_passive (Bool.eq_false_iff.mpr hactive)] at hf
        cases hf
  · intro _ hleft
    rw [hnone] at hleft
    rcases hupdates with hle | rfl
    · rcases hleft with hpos | ⟨f, hf, -⟩
      · exact .inr (.inl (hpos.trans_le hle))
      · cases hf
    · rw [hstack]
      exact .inr (.inr ⟨.asking, rfl, trivial⟩)
  · intro id format p hmem
    rw [hstack] at hmem
    rcases List.mem_append.mp hmem with hmem | hmem
    · rcases hcalls with rfl | ⟨g, rfl, -, hg⟩
      · cases hmem
      · exact absurd (List.mem_singleton.mp hmem).symm (hg id format p)
    · exact inherits_pumped (List.forall_mem_nil _) _ _ _ p hmem

/-- The helper puts something on the clipboard. -/
theorem Reporting.put (hi : Reporting before h s) (hpumps : pumps s.render s.stack = true)
    {content : Content} {change : Nat}
    (hnot : ∀ snapshot, content ≠ .foreign (some snapshot))
    (hclipboard : s'.clipboard = s.clipboard.put content)
    (houtbound : ∀ obj snapshot, content = .object obj snapshot → s'.outbound = some obj)
    (hstack : s'.stack = pumped s.stack) (hupdates : s'.updates = s.updates + 1) :
    Reporting before (h ++ [.put change]) s' := by
  have hidle : Idle s.stack := idle_of_pumps hi.stacked hpumps
  have hcontent : s'.clipboard.content = content := congrArg Clipboard.content hclipboard
  have hmore : s'.clipboard.change = s.clipboard.change + 1 := congrArg Clipboard.change hclipboard
  refine hi.next (by simp [Obs.silent]) (hstack ▸ hidle.pumped.stacked) ?_ ?_ ?_ ?_ ?_ ?_
  · intro obj snapshot hobject
    exact houtbound obj snapshot (hcontent.symm.trans hobject)
  · intro f hf
    rw [hstack, hidle.pumped.acting] at hf
    cases hf
  · intro snapshot hforeign
    exact absurd (hcontent.symm.trans hforeign) (hnot snapshot)
  · omega
  · intro _
    exact .inr (.inr (.inl (by omega)))
  · intro id format p hmem
    rw [hstack] at hmem
    obtain ⟨p', hmem⟩ := inherits_pumped (List.forall_mem_nil _) _ _ _ p hmem
    exact hi.unasked.2 id format p' hmem

/-- The call on top gives way to another one, or returns. -/
theorem Reporting.move (hi : Reporting before h s) (hos : ∀ o ∈ os, o.silent = true)
    {f : Frame} {rest calls : List Frame} (hstack : s.stack = f :: rest)
    (hstack' : s'.stack = calls ++ rest)
    (hcontent : s'.clipboard.content = s.clipboard.content)
    (hchange : s'.clipboard.change = s.clipboard.change) (hupdates : s'.updates = s.updates)
    (houtbound : ∀ obj snapshot, s.clipboard.content = .object obj snapshot →
      s'.outbound = s.outbound)
    (hcalls : calls = [] ∨ ∃ g, calls = [g] ∧ Acts before (h ++ os) s.clipboard g ∧
      ∀ id format p, g ≠ .rendering id (.reader .change) format p)
    (htold : s.clipboard.content.isForeign = true → f.active = true →
      Handles s.clipboard.change f →
      Told (h ++ os) s.clipboard.change ∨
        ∃ g, calls = [g] ∧ g.active = true ∧ Handles s.clipboard.change g) :
    Reporting before (h ++ os) s' := by
  have hrest : Idle rest := hi.stacked.rest hstack
  refine hi.keep hos hcontent hchange houtbound ?_ ?_ ?_ ?_
  · rw [hstack']
    rcases hcalls with rfl | ⟨g, rfl, -⟩
    · exact hrest.stacked
    · exact hrest
  · intro g hg
    rw [hstack'] at hg
    rcases hcalls with rfl | ⟨f', rfl, hacts, -⟩
    · rw [List.nil_append, hrest.acting] at hg
      cases hg
    · by_cases hactive : f'.active = true
      · rw [List.singleton_append, acting_active hactive] at hg
        cases hg
        exact hacts
      · rw [List.singleton_append, acting_passive (Bool.eq_false_iff.mpr hactive)] at hg
        cases hg
  · intro hforeign hleft
    rcases hleft with hpos | ⟨g, hg, hhandles⟩
    · exact .inr (.inl (hupdates ▸ hpos))
    · rw [hstack] at hg
      by_cases hactive : f.active = true
      · rw [acting_active hactive] at hg
        cases hg
        rcases htold hforeign hactive hhandles with htold' | ⟨g, rfl, hg, hhandles'⟩
        · exact .inl htold'
        · refine .inr (.inr ⟨g, ?_, hhandles'⟩)
          rw [hstack', List.singleton_append, acting_active hg]
          rfl
      · rw [acting_passive (Bool.eq_false_iff.mpr hactive)] at hg
        cases hg
  · intro id format p hmem
    rw [hstack'] at hmem
    rw [hstack]
    rcases List.mem_append.mp hmem with hmem | hmem
    · rcases hcalls with rfl | ⟨g, rfl, -, hg⟩
      · cases hmem
      · exact absurd (List.mem_singleton.mp hmem).symm (hg id format p)
    · exact ⟨p, List.mem_cons_of_mem f hmem⟩

theorem fill_unowned {content : Content} (hcontent : content.windowOwned = false) (format : Nat)
    (snapshot : ClipboardSnapshot) : content.fill format snapshot = content := by
  cases content with
  | foreign | object => rfl
  | written | announced => cases hcontent

theorem fill_windowOwned (content : Content) (format : Nat) (snapshot : ClipboardSnapshot) :
    (content.fill format snapshot).windowOwned = content.windowOwned := by
  cases content <;> rfl

theorem isForeign_eq {content : Content} (hforeign : content.isForeign = true) :
    ∃ snapshot, content = .foreign snapshot := by
  cases content with
  | foreign snapshot => exact ⟨snapshot, rfl⟩
  | written | announced | object => cases hforeign

theorem isForeign_of_unowned {content : Content} (howned : content.windowOwned = false)
    (hobject : ∀ obj snapshot, content ≠ .object obj snapshot) : content.isForeign = true := by
  cases content with
  | foreign => rfl
  | written | announced => cases howned
  | object obj snapshot => exact absurd rfl (hobject obj snapshot)

/-- A call that renders moves on, and what is on the clipboard may be filled in. -/
theorem Reporting.render (hi : Reporting before h s) (hos : ∀ o ∈ os, o.silent = true)
    {content : Content} {format : Nat} {r : DelayedRender.Render}
    (hcontent : content = s.clipboard.content ∨
      ∃ snapshot, content = s.clipboard.content.fill format snapshot)
    (hidle : acting s.stack = none) :
    Reporting before (h ++ os)
      { s with render := r, clipboard := { s.clipboard with content := content } } := by
  by_cases howned : s.clipboard.content.windowOwned = true
  · have howned' : content.windowOwned = true := by
      rcases hcontent with rfl | ⟨snapshot, rfl⟩
      · exact howned
      · rw [fill_windowOwned]
        exact howned
    refine hi.next hos hi.stacked ?_ ?_ ?_ le_rfl ?_ hi.unasked.2
    · rintro obj snapshot rfl
      cases howned'
    · intro f hf
      rw [hidle] at hf
      cases hf
    · rintro snapshot rfl
      cases howned'
    · intro hforeign
      obtain ⟨snapshot, rfl⟩ := isForeign_eq hforeign
      cases howned'
  · have hsame : content = s.clipboard.content := by
      rcases hcontent with rfl | ⟨snapshot, rfl⟩
      · rfl
      · exact fill_unowned (Bool.eq_false_iff.mpr howned) format snapshot
    exact hi.still hos hsame rfl rfl rfl le_rfl

/-- The call renders nothing for `OnClipboardChanged`. -/
theorem ne_rendering {f : Frame} (hf : f.isRendering = false) (id format : Nat) (p : Bool) :
    f ≠ .rendering id (.reader .change) format p := by
  rintro rfl
  cases hf

/-- `OnClipboardChanged` reads nothing that it would have to ask for. -/
theorem Reporting.reader_of_formats (hi : Reporting before h s) {reader : Reader} {format : Nat}
    {formats : List Nat} {rest : List Frame}
    (hstack : s.stack = .reading reader (format :: formats) :: rest) : reader = .get := by
  cases reader with
  | get => rfl
  | change =>
      have hact := hi.acts (.reading .change (format :: formats)) (by rw [hstack]; rfl)
      cases hact.2

theorem step_reporting (hi : Reporting before h s) (hstep : Step s a os s') :
    Reporting before (h ++ os) s' := by
  have hnil : ∀ o ∈ ([] : List Obs), o.silent = true := List.forall_mem_nil _
  cases hstep with
  | continues _ _ _ hos | submits _ _ _ hos =>
      exact hi.still (List.forall_mem_cons.mpr ⟨rfl, hos.silent⟩) rfl rfl rfl rfl le_rfl
  | refuses | stops => exact hi.still (by simp [Obs.silent]) rfl rfl rfl rfl le_rfl
  | @delivers _ frame rest key =>
      obtain ⟨hacting, hstacked⟩ := deliverChunk_acting key hi.stacked
      refine hi.keep (by simp [Obs.silent]) rfl rfl (fun _ _ _ => rfl) hstacked ?_ ?_ ?_
      · intro f hf
        exact (hi.acts f (hacting ▸ hf)).append (by simp [Obs.silent])
      · intro _ hleft
        rw [hacting]
        exact .inr hleft
      · exact fun id format p hmem => inherits_deliverChunk key s.stack id _ format p hmem
  | replies =>
      refine hi.still (fun o ho => ?_) rfl rfl rfl rfl le_rfl
      obtain ⟨reply, -, rfl⟩ := List.mem_map.mp ho
      rfl
  | calls | arrives | opened | closed | pasted | wanted =>
      exact hi.still hnil rfl rfl rfl rfl le_rfl
  | notified => exact hi.still hnil rfl rfl rfl rfl (Nat.le_succ _)
  | abandoned => exact hi.still (by simp [Obs.silent]) rfl rfl rfl rfl le_rfl
  | itemDone _ hpumps | refused _ hpumps | fetchFails _ hpumps | posted hpumps =>
      exact hi.dispatch hpumps hnil (.inl rfl) rfl rfl rfl rfl (.inl le_rfl)
  | itemReads _ hpumps =>
      exact hi.dispatch hpumps hnil (.inr ⟨.opening .get, rfl, fun _ _ => trivial,
        ne_rendering rfl⟩) rfl rfl rfl rfl (.inl le_rfl)
  | @serves _ key _ hpumps =>
      exact hi.dispatch hpumps hnil (.inr ⟨.fetching key true false, rfl, fun _ _ => trivial,
        ne_rendering rfl⟩) rfl rfl rfl rfl (.inl le_rfl)
  | @fetches _ key _ _ hpumps =>
      exact hi.dispatch hpumps hnil (.inr ⟨.fetching key false false, rfl, fun _ _ => trivial,
        ne_rendering rfl⟩) rfl rfl rfl rfl (.inl le_rfl)
  | updates _ hpumps =>
      exact hi.dispatch hpumps hnil (.inr ⟨.asking, rfl, fun _ _ => trivial, ne_rendering rfl⟩)
        rfl rfl rfl rfl (.inr rfl)
  | pasteReturns _ hpumps =>
      exact hi.dispatch hpumps hnil (.inl rfl) (returned_content _ _) (returned_change _ _) rfl
        rfl (.inl le_rfl)
  | @pasteBegins _ paste format _ _ _ _ hpumps _ hos =>
      exact hi.dispatch hpumps hos.silent
        (.inr ⟨.rendering s.render.nextCall (.paste paste) format false, rfl, fun _ _ => trivial,
          fun _ _ _ heq => by cases heq⟩) rfl rfl rfl rfl (.inl le_rfl)
  | puts _ _ hpumps howned =>
      refine hi.put hpumps ?_ rfl ?_ rfl rfl
      · rintro snapshot rfl
        cases howned
      · rintro obj snapshot rfl
        cases howned
  | emptied _ hpumps =>
      refine hi.put hpumps (fun snapshot hcontent => ?_) rfl (fun obj snapshot hcontent => ?_) rfl
        rfl
      · cases hcontent
      · cases hcontent
  | publishes _ hpumps =>
      refine hi.put hpumps (fun snapshot hcontent => ?_) rfl (fun obj snapshot hcontent => ?_) rfl
        rfl
      · cases hcontent
      · cases hcontent
        rfl
  | @copied snapshot hopened =>
      refine hi.next (by simp [Obs.silent]) hi.stacked (fun _ _ hobject => by cases hobject) ?_ ?_
        (Nat.le_succ _) ?_ hi.unasked.2
      · intro f hf
        have hact := hi.acts f hf
        cases f with
        | owning =>
            intro obj snapshot hobject
            cases hobject
        | opening reader =>
            cases reader with
            | change => rfl
            | get => trivial
        | reading reader formats =>
            cases reader with
            | change => exact ⟨rfl, hact.2⟩
            | get => trivial
        | found reader =>
            cases reader with
            | change => exact hact
            | get => trivial
        | sending change snapshot =>
            refine ⟨Nat.le_succ_of_le hact.1, hact.2.1.append _, ?_⟩
            rw [reports_silent h (by simp [Obs.silent])]
            exact hact.2.2
        | asking | rendering | fetching => trivial
      · rintro snapshot ⟨⟩
        exact .inr (by simp [Relay.put, Clipboard.put])
      · intro _
        exact .inr (.inr (.inl (Nat.succ_pos _)))
  | @current _ rest obj snapshot hstack hcontent =>
      refine hi.move hnil hstack (List.nil_append _).symm rfl rfl rfl (fun _ _ _ => rfl)
        (.inl rfl) ?_
      intro hforeign
      rw [hcontent] at hforeign
      cases hforeign
  | @loses _ rest obj hstack houtbound hother =>
      have hrest : Idle rest := hi.stacked.rest hstack
      have hno : ∀ obj snapshot, s.clipboard.content ≠ .object obj snapshot := by
        intro obj' snapshot hobject
        have hsome := hi.outbound obj' snapshot hobject
        rw [houtbound] at hsome
        cases hsome
        exact hother snapshot hobject
      refine hi.keep (by simp [Obs.silent]) rfl rfl
        (fun obj snapshot h => absurd h (hno obj snapshot)) hrest.cancelAll ?_ ?_ ?_
      · rintro f ⟨⟩
        exact hno
      · exact fun _ _ => .inr (.inr ⟨.owning, rfl, trivial⟩)
      · intro id format p hmem
        rw [hstack]
        exact inherits_cancelAll .asking rest id _ format p hmem
  | asks hstack houtbound =>
      refine hi.move hnil hstack rfl rfl rfl rfl (fun _ _ _ => rfl)
        (.inr ⟨.owning, rfl, ?_, ne_rendering rfl⟩) fun _ _ _ => .inr ⟨_, rfl, rfl, trivial⟩
      intro obj snapshot hobject
      have hsome := hi.outbound obj snapshot hobject
      rw [houtbound] at hsome
      cases hsome
  | owned hstack howned =>
      refine hi.move hnil hstack (List.nil_append _).symm rfl rfl rfl (fun _ _ _ => rfl)
        (.inl rfl) ?_
      intro hforeign
      obtain ⟨snapshot, hcontent⟩ := isForeign_eq hforeign
      rw [hcontent] at howned
      cases howned
  | unowned hstack howned =>
      have hact := hi.acts .owning (by rw [hstack]; rfl)
      exact hi.move hnil hstack rfl rfl rfl rfl (fun _ _ _ => rfl)
        (.inr ⟨.opening .change, rfl, isForeign_of_unowned howned hact, ne_rendering rfl⟩)
        fun _ _ _ => .inr ⟨_, rfl, rfl, trivial⟩
  | @opensOwn _ reader rest hstack hfree =>
      cases reader with
      | get =>
          exact hi.move hnil hstack rfl rfl rfl rfl (fun _ _ _ => rfl)
            (.inr ⟨.reading .get s.clipboard.content.formats, rfl, trivial, ne_rendering rfl⟩)
            fun _ _ hhandles => hhandles.elim
      | change =>
          have hact := hi.acts (.opening .change) (by rw [hstack]; rfl)
          refine hi.move hnil hstack rfl rfl rfl rfl (fun _ _ _ => rfl)
            (.inr ⟨.reading .change s.clipboard.content.formats, rfl, ⟨hact, ?_⟩, ne_rendering rfl⟩)
            fun _ _ _ => .inr ⟨_, rfl, rfl, trivial⟩
          obtain ⟨snapshot, hcontent⟩ := isForeign_eq hact
          rw [hcontent]
          rfl
  | misses hstack =>
      exact hi.move (by simp [Obs.silent]) hstack (List.nil_append _).symm rfl rfl rfl
        (fun _ _ _ => rfl) (.inl rfl)
        fun _ _ _ => .inl (.inr ⟨_, List.mem_append_right h List.mem_cons_self⟩)
  | refusesGet hstack =>
      exact hi.move hnil hstack (List.nil_append _).symm rfl rfl rfl (fun _ _ _ => rfl) (.inl rfl)
        fun _ _ hhandles => hhandles.elim
  | unreadable hstack _ =>
      exact hi.move (by simp [Obs.silent]) hstack (List.nil_append _).symm rfl rfl rfl
        (fun _ _ _ => rfl) (.inl rfl)
        fun _ _ _ => .inl (.inr ⟨_, List.mem_append_right h List.mem_cons_self⟩)
  | @reads _ top rest snapshot hstack hread =>
      rcases hread with ⟨⟨formats, rfl⟩, hread⟩ | rfl
      · obtain ⟨hforeign, -⟩ := hi.acts (.reading .change formats) (by rw [hstack]; rfl)
        obtain ⟨found, hcontent⟩ := isForeign_eq hforeign
        have hfound : found = some snapshot := by
          rw [hcontent] at hread
          exact hread
        refine hi.move hnil hstack rfl rfl rfl rfl (fun _ _ _ => rfl)
          (.inr ⟨.sending s.clipboard.change snapshot, rfl, ⟨le_rfl, ?_, ?_⟩, ne_rendering rfl⟩)
          fun _ _ _ => .inr ⟨_, rfl, rfl, rfl⟩
        · exact (hi.copied snapshot (hfound ▸ hcontent)).append []
        · rw [List.append_nil]
          exact hi.past
      · exact (hi.acts (.found .change snapshot) (by rw [hstack]; rfl)).elim
  | @readsGet _ top rest _ _ hstack hget =>
      refine hi.move hnil hstack (List.nil_append _).symm rfl rfl rfl (fun _ _ _ => rfl) (.inl rfl)
        fun _ hactive _ => ?_
      cases top with
      | reading | found =>
          cases hget
          cases hactive
      | _ => exact hget.elim
  | @finds _ reader format formats rest snapshot hstack hrendered =>
      obtain rfl := hi.reader_of_formats hstack
      exact hi.move hnil hstack rfl rfl rfl rfl (fun _ _ _ => rfl)
        (.inr ⟨.found .get snapshot, rfl, trivial, ne_rendering rfl⟩)
        fun _ hactive _ => by cases hactive
  | @skips _ reader format formats rest hstack =>
      obtain rfl := hi.reader_of_formats hstack
      exact hi.move hnil hstack rfl rfl rfl rfl (fun _ _ _ => rfl)
        (.inr ⟨.reading .get formats, rfl, trivial, ne_rendering rfl⟩)
        fun _ hactive _ => by cases hactive
  | @asksFor _ reader format formats rest r os hstack hr hos =>
      obtain rfl := hi.reader_of_formats hstack
      have hrest : Idle rest := hi.stacked.rest hstack
      refine hi.keep hos.silent rfl rfl (fun _ _ _ => rfl)
        (List.forall_mem_cons.mpr ⟨rfl, hrest⟩) (fun _ hf => by cases hf) ?_ ?_
      · rintro - (hpos | ⟨f, hf, -⟩)
        · exact .inr (.inl hpos)
        · rw [hstack] at hf
          cases hf
      · intro id format' p hmem
        rw [hstack]
        rcases List.mem_cons.mp hmem with heq | hmem
        · cases heq
        · rcases List.mem_cons.mp hmem with heq | hmem
          · cases heq
          · exact ⟨p, List.mem_cons_of_mem _ hmem⟩
  | @sendsChange _ change snapshot rest ownVirtual hstack =>
      have hrest : Idle rest := hi.stacked.rest hstack
      obtain ⟨hle, hcopied, hpast⟩ := hi.acts (.sending change snapshot) (by rw [hstack]; rfl)
      have hreports : reports (h ++ [.changed change snapshot]) = reports h ++ [change] := by
        rw [reports, List.filterMap_append]
        rfl
      constructor
      · exact hrest.stacked
      · exact hi.outbound
      · rw [hrest.acting]
        exact fun _ hf => by cases hf
      · exact fun snapshot hcontent => (hi.copied snapshot hcontent).append _
      · intro k snapshot' hmem
        rcases List.mem_append.mp hmem with hmem | hmem
        · exact (hi.changed k snapshot' hmem).append _
        · cases List.mem_singleton.mp hmem
          exact hcopied.append _
      · rw [hreports]
        exact List.forall_mem_append.mpr ⟨hi.past, List.forall_mem_singleton.mpr hle⟩
      · rw [hreports]
        exact List.pairwise_append.mpr ⟨hi.order, List.pairwise_singleton _ _,
          fun k hk _ hlast => List.mem_singleton.mp hlast ▸ hpast k hk⟩
      · intro hforeign
        rcases hi.told hforeign with hzero | htold | hpos | ⟨f, hf, hhandles⟩
        · exact .inl hzero
        · exact .inr (.inl (htold.append _))
        · exact .inr (.inr (.inl hpos))
        · rw [hstack] at hf
          cases hf
          refine .inr (.inl (.inl ⟨snapshot, ?_⟩))
          rw [show s.clipboard.change = change from hhandles.symm]
          exact List.mem_append_right h List.mem_cons_self
      · refine ⟨fun hmem => ?_, fun id format p hmem => ?_⟩
        · rcases List.mem_append.mp hmem with hmem | hmem
          · exact hi.unasked.1 hmem
          · cases List.mem_singleton.mp hmem
        · exact hi.unasked.2 id format p (hstack ▸ List.mem_cons_of_mem _ hmem)
  | unsent hstack =>
      refine hi.move (by simp [Obs.silent]) hstack (List.nil_append _).symm rfl rfl rfl
        (fun _ _ _ => rfl) (.inl rfl) fun _ _ hhandles => .inl (.inr ⟨.notSent, ?_⟩)
      rw [show s.clipboard.change = _ from hhandles.symm]
      exact List.mem_append_right h List.mem_cons_self
  | @requests _ id asker format p rest _ _ _ _ hstack _ _ _ hos =>
      refine hi.still (fun o ho => ?_) rfl rfl rfl rfl le_rfl
      rcases hos o ho with rfl | ⟨r, rfl⟩
      · cases asker with
        | paste => rfl
        | reader reader =>
            cases reader with
            | get => rfl
            | change =>
                exact absurd (hstack ▸ List.mem_cons_self) (hi.unasked.2 id format p)
      · rfl
  | wakes hstack _ _ _ _ hcontent hos =>
      exact hi.render hos.silent hcontent (by rw [hstack]; rfl)
  | @rechecks _ id asker format rest _ hstack =>
      refine hi.move hnil hstack rfl rfl rfl rfl (fun _ _ _ => rfl)
        (.inr ⟨.rendering id asker format false, rfl, trivial, ?_⟩)
        fun _ hactive _ => by cases hactive
      rintro _ _ _ ⟨⟩
      exact hi.unasked.2 _ _ _ (hstack ▸ List.mem_cons_self)
  | @rechecked _ id asker format rest _ _ _ _ hstack _ _ _ _ hos =>
      refine hi.move hos.silent hstack rfl rfl rfl rfl (fun _ _ _ => rfl)
        (.inr ⟨.rendering id asker format false, rfl, trivial, ?_⟩)
        fun _ hactive _ => by cases hactive
      rintro _ _ _ ⟨⟩
      exact hi.unasked.2 _ _ _ (hstack ▸ List.mem_cons_self)
  | renderExpires hstack _ _ hos =>
      exact hi.still (List.forall_mem_cons.mpr ⟨rfl, hos.silent⟩) rfl rfl rfl rfl le_rfl
  | leavesPaste hstack =>
      exact hi.move hnil hstack (List.nil_append _).symm (returned_content _ _)
        (returned_change _ _) rfl (fun _ _ _ => rfl) (.inl rfl) fun _ hactive _ => by cases hactive
  | @fetched _ key own rest hstack =>
      cases own <;>
        exact hi.move hnil hstack (List.nil_append _).symm rfl rfl rfl (fun _ _ _ => rfl) (.inl rfl)
          fun _ hactive _ => by cases hactive
  | @fetchExpires key own p rest hstack =>
      cases own <;>
        exact hi.move (by simp [Obs.silent]) hstack (List.nil_append _).symm rfl rfl rfl
          (fun _ _ _ => rfl) (.inl rfl) fun _ hactive _ => by cases hactive
  | @leavesReader _ id reader format p rest _ hstack =>
      have hrest : Idle rest := hi.stacked.rest hstack
      refine hi.keep hnil rfl rfl (fun _ _ _ => rfl) hrest.again.stacked ?_ ?_ ?_
      · rw [hrest.again.acting]
        exact fun _ hf => by cases hf
      · rintro - (hpos | ⟨f, hf, -⟩)
        · exact .inr (.inl hpos)
        · rw [hstack] at hf
          cases hf
      · intro id' format' p' hmem
        rw [hstack]
        exact inherits_again _ _ rest id' _ format' p' hmem

/-! ## Every run -/

theorem reporting_initial : Reporting before [] (initial event before) where
  stacked := List.forall_mem_nil _
  outbound := nofun
  acts := nofun
  copied snapshot hcontent := .inl ⟨rfl, by cases hcontent; rfl⟩
  changed := nofun
  past := nofun
  order := List.Pairwise.nil
  told _ := .inl rfl
  unasked := ⟨nofun, nofun⟩

/-- **Copies are reported**: what the parent is told of has been copied by
another application, in that order; at rest it has been told of the last copy,
unless something is named that was in the way. -/
theorem copies_reported
    (hrun : (machine sys).Run Machine.always (initial event before) h s) :
    (∀ k snapshot, .changed k snapshot ∈ h → Copied before h k snapshot) ∧
      (reports h).Pairwise (· ≤ ·) ∧
      (Rests sys s → s.clipboard.content.isForeign = true →
        s.clipboard.change = 0 ∨ Told h s.clipboard.change) := by
  have hi : Reporting before h s := by
    refine hrun.history_invariant (Reporting before) reporting_initial ?_
    rintro h s a s' os hi - hstep
    exact step_reporting hi (step_cases hstep)
  refine ⟨hi.changed, hi.order, fun hrest hforeign => ?_⟩
  have hresting := resting (run_called hrun) (run_waits hrun) hrest
  rcases hi.told hforeign with hzero | htold | hpos | ⟨f, hf, -⟩
  · exact .inl hzero
  · exact .inr htold
  · rw [hresting.updates] at hpos
    exact absurd hpos (lt_irrefl 0)
  · rw [(idle_of_pumps hi.stacked hresting.pumps).acting] at hf
    cases hf

/-- Another application copies a text. -/
def textCopy : List Action :=
  [.opens, .copies (some { contentType := .text, text := [104, 105] }), .closes, .update,
    .isCurrent, .isOwner, .openClipboard true, .finishRead true, .sendChanged true]

theorem copies_reported_text : ∃ h s,
    (machine AnnounceDelayed.ascii.sys).Run Machine.always (initial (some false) none) h s ∧
      s.clipboard.change = 1 ∧ Told h 1 := by
  have hexec : ((machine AnnounceDelayed.ascii.sys).exec (initial (some false) none)
      textCopy).map (fun r => r.1) = some { initial (some false) none with
        clipboard := ⟨.foreign (some { contentType := .text, text := [104, 105] }), 1, none⟩ } := by
    rfl
  obtain ⟨h, s, hrun, hs⟩ := Machine.Run.of_exec_map hexec
  obtain rfl : s = _ := hs
  refine ⟨h, _, hrun, rfl, ((copies_reported hrun).2.2 ?_ rfl).resolve_left (by decide)⟩
  intro a hown
  cases a <;> first | rfl | cases hown

end ClipboardRelay
