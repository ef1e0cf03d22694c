import ClipboardHelper.ChunkProvider

/-!
# Which reply reaches which request

Two questions about `DispatcherChunkProvider`, over every interleaving.

**Whose bytes?**  A slot is filled only through the queue of its key, so what
a call returns came in a reply with the same key (`Provenance`).  The key is
`"<transfer_id>|<file_id>|<offset>"`, and the ids are opaque bytes: it
determines the three parts exactly when neither id contains the separator
(`makeKey_determines_iff`, `fetchChunk_own_bytes_iff`).

**One reply per waiter?**  `DeliverChunk` fills the front of the queue and
leaves it there.  It serves the oldest unanswered waiter exactly when the
front is still unanswered (`deliverChunk_fills_oldest_iff`); along runs in
which that is so, the n-th reply goes to the n-th staged request
(`Accounting`).  When a second reply comes before the first waiter has
detached, the first reply is lost and the second waiter starves
(`second_reply_overwrites`).
-/

namespace DispatcherChunkProvider

open Library DispatchCodec

/-! ## Reading the history -/

/-- A reply that was stored, and where. -/
def Obs.fill? : Obs → Option (SlotId × ParsedFileChunkData)
  | .delivered chunk (some id) => some (id, chunk)
  | _ => none

/-- A request that was staged. -/
def Obs.staged? : Obs → Option (SlotId × Request)
  | .staged id r => some (id, r)
  | _ => none

/-- The replies stored so far, in order, each with its slot. -/
def fills (h : List Obs) : List (SlotId × ParsedFileChunkData) := h.filterMap Obs.fill?

/-- The replies stored in one slot, in order. -/
def repliesInto (id : SlotId) (h : List Obs) : List ParsedFileChunkData :=
  ((fills h).filter (fun f => f.1 = id)).map Prod.snd

/-- The replies stored under one key, in order. -/
def fillsFor (key : Bytes) (h : List Obs) : List (SlotId × ParsedFileChunkData) :=
  (fills h).filter (fun f => replyKey f.2 = key)

/-- The requests staged under one key, in order. -/
def stagedFor (key : Bytes) (h : List Obs) : List (SlotId × Request) :=
  (h.filterMap Obs.staged?).filter (fun q => q.2.key = key)

theorem fills_append (h os : List Obs) : fills (h ++ os) = fills h ++ fills os :=
  List.filterMap_append

theorem fillsFor_append (key : Bytes) (h os : List Obs) :
    fillsFor key (h ++ os) = fillsFor key h ++ fillsFor key os := by
  rw [fillsFor, fills_append, List.filter_append]
  rfl

theorem repliesInto_append (id : SlotId) (h os : List Obs) :
    repliesInto id (h ++ os) = repliesInto id h ++ repliesInto id os := by
  rw [repliesInto, fills_append, List.filter_append, List.map_append]
  rfl

theorem stagedFor_append (key : Bytes) (h os : List Obs) :
    stagedFor key (h ++ os) = stagedFor key h ++ stagedFor key os := by
  rw [stagedFor, List.filterMap_append, List.filter_append]
  rfl

theorem fills_silent {os : List Obs} (hos : ∀ o ∈ os, o.silent = true) : fills os = [] := by
  refine List.filterMap_eq_nil_iff.mpr ?_
  intro o ho
  have hsilent := hos o ho
  cases o <;> simp_all [Obs.silent, Obs.fill?]

theorem stagedFor_silent {os : List Obs} (hos : ∀ o ∈ os, o.silent = true) (key : Bytes) :
    stagedFor key os = [] := by
  have hnone : os.filterMap Obs.staged? = [] := by
    refine List.filterMap_eq_nil_iff.mpr ?_
    intro o ho
    have hsilent := hos o ho
    cases o <;> simp_all [Obs.silent, Obs.staged?]
  rw [stagedFor, hnone, List.filter_nil]

/-! ## Provenance -/

/-- What a slot holds after the reply `chunk?` came last. -/
def replyOf : Option ParsedFileChunkData → Stored
  | none => {}
  | some chunk =>
    { received := true, data := chunk.data, isLast := chunk.isLast, error := chunk.error }

/-- The reply that a detached call took with it. -/
def Outcome.stored (o : Outcome) : Stored :=
  { received := o.received, data := o.data, isLast := o.isLast, error := o.error }

/-- Every slot holds the last reply stored in it, every reply in it has the
key of its request, and a call that succeeded returned that reply. -/
structure Provenance (h : List Obs) (s : Provider) : Prop where
  unused : ∀ id, view s id = none → repliesInto id h = []
  created : ∀ id r, view s id = some (r, .created) → repliesInto id h = []
  key : ∀ id r phase chunk, view s id = some (r, phase) → chunk ∈ repliesInto id h →
    replyKey chunk = r.key
  queued : ∀ id r, view s id = some (r, .queued) →
    DispatcherChunkProvider.stored s id = replyOf (repliesInto id h).getLast?
  holding : ∀ id r o, view s id = some (r, .holding o) →
    o.stored = replyOf (repliesInto id h).getLast?
  returned : ∀ id r data isLast, .returned id r .sOk data isLast ∈ h →
    view s id = some (r, .returned) ∧ ∃ chunk, (repliesInto id h).getLast? = some chunk ∧
      chunk.data = data ∧ chunk.isLast = isLast

theorem provenance_initial (pipe : Bool) : Provenance [] (initial pipe) where
  unused _ _ := rfl
  created _ _ _ := rfl
  key id r phase chunk hid := by simp [view, initial] at hid
  queued id r hid := by simp [view, initial] at hid
  holding id r o hid := by simp [view, initial] at hid
  returned id r data isLast h := by simp at h

/-- A step that stores no reply keeps what was stored. -/
theorem repliesInto_of_no_fill {os : List Obs} (hos : fills os = []) (id : SlotId)
    (h : List Obs) : repliesInto id (h ++ os) = repliesInto id h := by
  rw [repliesInto_append, repliesInto, repliesInto, hos]
  simp

/-- A step that moves no call and stores no reply. -/
theorem Provenance.still {h os : List Obs} {s s' : Provider} (hp : Provenance h s)
    (hview : view s' = view s)
    (hstored : DispatcherChunkProvider.stored s' = DispatcherChunkProvider.stored s)
    (hos : fills os = [])
    (hreturned : ∀ i r data isLast, .returned i r .sOk data isLast ∉ os) :
    Provenance (h ++ os) s' := by
  have hreplies := fun i => repliesInto_of_no_fill hos i h
  constructor
  · intro i
    rw [hreplies, hview]
    exact hp.unused i
  · intro i
    rw [hreplies, hview]
    exact hp.created i
  · intro i
    rw [hreplies, hview]
    exact hp.key i
  · intro i
    rw [hreplies, hview, hstored]
    exact hp.queued i
  · intro i
    rw [hreplies, hview]
    exact hp.holding i
  · intro i r data isLast hmem
    rw [hreplies, hview]
    rcases List.mem_append.mp hmem with hold | hnew
    · exact hp.returned i r data isLast hold
    · exact absurd hnew (hreturned i r data isLast)

/-- Storing a reply in a queued slot of its key. -/
theorem repliesInto_fill (i id : SlotId) (chunk : ParsedFileChunkData) (h : List Obs) :
    repliesInto i (h ++ [.delivered chunk (some id)]) =
      if i = id then repliesInto i h ++ [chunk] else repliesInto i h := by
  have hfills : fills [.delivered chunk (some id)] = [(id, chunk)] := rfl
  rw [repliesInto_append]
  by_cases hi : i = id
  · rw [if_pos hi, hi]
    simp [repliesInto, hfills]
  · rw [if_neg hi]
    simp [repliesInto, hfills, Ne.symm hi]

/-- Storing a reply in a queued slot of its key keeps provenance. -/
theorem Provenance.fill {h : List Obs} {s s' : Provider} (hp : Provenance h s)
    {id : SlotId} {r : Request} {chunk : ParsedFileChunkData}
    (hcall : view s id = some (r, .queued)) (hkey : replyKey chunk = r.key)
    (hview : view s' = view s)
    (hstored : DispatcherChunkProvider.stored s' =
      Function.update (DispatcherChunkProvider.stored s) id (replyOf (some chunk))) :
    Provenance (h ++ [.delivered chunk (some id)]) s' := by
  -- a call that is not queued is not the one whose slot was filled
  have hother : ∀ {i r' phase}, view s i = some (r', phase) → phase ≠ .queued →
      repliesInto i (h ++ [.delivered chunk (some id)]) = repliesInto i h := by
    intro i r' phase hi hphase
    have hne : i ≠ id := by
      rintro rfl
      rw [hcall] at hi
      cases hi
      exact hphase rfl
    rw [repliesInto_fill, if_neg hne]
  constructor
  · intro i hi
    rw [hview] at hi
    have hne : i ≠ id := by
      rintro rfl
      rw [hcall] at hi
      cases hi
    rw [repliesInto_fill, if_neg hne]
    exact hp.unused i hi
  · intro i r' hi
    rw [hview] at hi
    rw [hother hi (by simp)]
    exact hp.created i r' hi
  · intro i r' p c hi hc
    rw [hview] at hi
    rw [repliesInto_fill] at hc
    by_cases hne : i = id
    · subst hne
      rw [if_pos rfl] at hc
      rw [hcall] at hi
      cases hi
      rcases List.mem_append.mp hc with hold | hnew
      · exact hp.key i r _ c hcall hold
      · rw [List.mem_singleton.mp hnew, hkey]
    · rw [if_neg hne] at hc
      exact hp.key i r' p c hi hc
  · intro i r' hi
    rw [hview] at hi
    rw [hstored, repliesInto_fill]
    by_cases hne : i = id
    · subst hne
      rw [if_pos rfl, Function.update_self, List.getLast?_concat]
    · rw [if_neg hne, Function.update_of_ne hne]
      exact hp.queued i r' hi
  · intro i r' o hi
    rw [hview] at hi
    rw [hother hi (by simp)]
    exact hp.holding i r' o hi
  · intro i r' data isLast hmem
    obtain ⟨hret, hchunk⟩ := hp.returned i r' data isLast (by simpa using hmem)
    rw [hview, hother hret (by simp)]
    exact ⟨hret, hchunk⟩

/-- A step that moves one call on, from a phase before `returned`, and stores
no reply. -/
theorem Provenance.move {h os : List Obs} {s s' : Provider} (hp : Provenance h s)
    {id : SlotId} {r : Request} {phase phase' : Phase}
    (hcall : view s id = some (r, phase)) (hnot : phase ≠ .returned) (hos : fills os = [])
    (hview : view s' = Function.update (view s) id (some (r, phase')))
    (hcreated : phase' ≠ .created)
    (hstored : ∀ i ≠ id, DispatcherChunkProvider.stored s' i =
      DispatcherChunkProvider.stored s i)
    (hqueued : phase' = .queued → DispatcherChunkProvider.stored s' id =
      replyOf (repliesInto id h).getLast?)
    (hholding : ∀ o, phase' = .holding o → o.stored = replyOf (repliesInto id h).getLast?)
    (hreturned : ∀ i r' data isLast, .returned i r' .sOk data isLast ∈ os →
      i = id ∧ r' = r ∧ phase' = .returned ∧ ∃ chunk,
        (repliesInto id h).getLast? = some chunk ∧ chunk.data = data ∧
          chunk.isLast = isLast) :
    Provenance (h ++ os) s' := by
  have hreplies := fun i => repliesInto_of_no_fill hos i h
  have hother : ∀ i ≠ id, view s' i = view s i := by
    intro i hi
    rw [hview, Function.update_of_ne hi]
  have hself : view s' id = some (r, phase') := by rw [hview, Function.update_self]
  constructor
  · intro i hi
    have hne : i ≠ id := by
      rintro rfl
      rw [hself] at hi
      cases hi
    rw [hreplies]
    exact hp.unused i (by rwa [hother i hne] at hi)
  · intro i r' hi
    have hne : i ≠ id := by
      rintro rfl
      rw [hself] at hi
      cases hi
      exact hcreated rfl
    rw [hreplies]
    exact hp.created i r' (by rwa [hother i hne] at hi)
  · intro i r' p chunk hi hchunk
    rw [hreplies] at hchunk
    by_cases hne : i = id
    · subst hne
      rw [hself] at hi
      cases hi
      exact hp.key i r phase chunk hcall hchunk
    · exact hp.key i r' p chunk (by rwa [hother i hne] at hi) hchunk
  · intro i r' hi
    rw [hreplies]
    by_cases hne : i = id
    · subst hne
      rw [hself] at hi
      cases hi
      exact hqueued rfl
    · rw [hstored i hne]
      exact hp.queued i r' (by rwa [hother i hne] at hi)
  · intro i r' o hi
    rw [hreplies]
    by_cases hne : i = id
    · subst hne
      rw [hself] at hi
      cases hi
      exact hholding o rfl
    · exact hp.holding i r' o (by rwa [hother i hne] at hi)
  · intro i r' data isLast hmem
    rw [hreplies]
    rcases List.mem_append.mp hmem with hold | hnew
    · obtain ⟨hret, hchunk⟩ := hp.returned i r' data isLast hold
      have hne : i ≠ id := by
        rintro rfl
        rw [hcall] at hret
        cases hret
        exact hnot rfl
      exact ⟨by rw [hother i hne, hret], hchunk⟩
    · obtain ⟨rfl, rfl, rfl, hchunk⟩ := hreturned i r' data isLast hnew
      exact ⟨hself, hchunk⟩

/-- A successful outcome hands out the bytes it holds. -/
theorem Outcome.of_result_sOk {o : Outcome} (h : o.result = .sOk) :
    o.received = true ∧ o.outData = o.data ∧ o.outIsLast = o.isLast := by
  refine ⟨?_, if_pos h, if_pos h⟩
  unfold Outcome.result at h
  split at h
  · cases h
  · split at h
    · cases h
    · split at h
      · cases h
      · rename_i hrec
        simpa using hrec

/-- A new call, in a slot that nobody has used. -/
theorem Provenance.enter {h : List Obs} {s s' : Provider} (hp : Provenance h s) {id : SlotId}
    {r : Request} (hnone : view s id = none)
    (hview : view s' = Function.update (view s) id (some (r, .created)))
    (hstored : DispatcherChunkProvider.stored s' =
      Function.update (DispatcherChunkProvider.stored s) id {}) : Provenance h s' := by
  have hother : ∀ i ≠ id, view s' i = view s i := by
    intro i hi
    rw [hview, Function.update_of_ne hi]
  have hself : view s' id = some (r, .created) := by
    rw [hview, Function.update_self]
  have hempty := hp.unused id hnone
  -- whoever is past the first phase has been there before
  have hbefore : ∀ i r' phase, view s' i = some (r', phase) → phase ≠ .created →
      i ≠ id ∧ view s i = some (r', phase) := by
    intro i r' phase hi hphase
    have hne : i ≠ id := by
      rintro rfl
      rw [hself] at hi
      cases hi
      exact hphase rfl
    exact ⟨hne, by rwa [hother i hne] at hi⟩
  constructor
  · intro i hi
    have hne : i ≠ id := by
      rintro rfl
      rw [hself] at hi
      cases hi
    exact hp.unused i (by rwa [hother i hne] at hi)
  · intro i r' hi
    by_cases hne : i = id
    · rw [hne, hempty]
    · exact hp.created i r' (by rwa [hother i hne] at hi)
  · intro i r' p chunk hi hchunk
    have hne : i ≠ id := by
      rintro rfl
      rw [hempty] at hchunk
      cases hchunk
    exact hp.key i r' p chunk (by rwa [hother i hne] at hi) hchunk
  · intro i r' hi
    obtain ⟨hne, hold⟩ := hbefore i r' _ hi (by simp)
    rw [hstored, Function.update_of_ne hne]
    exact hp.queued i r' hold
  · intro i r' o hi
    obtain ⟨-, hold⟩ := hbefore i r' _ hi (by simp)
    exact hp.holding i r' o hold
  · intro i r' data isLast hmem
    obtain ⟨hret, hchunk⟩ := hp.returned i r' data isLast hmem
    have hne : i ≠ id := by
      rintro rfl
      rw [hnone] at hret
      cases hret
    exact ⟨by rw [hother i hne, hret], hchunk⟩

/-- **Provenance survives every step.** -/
theorem Change.provenance {s s' : Provider} {os : List Obs} (hchange : Change s s' os)
    (hs : WellFormed s) {h : List Obs} (hp : Provenance h s) : Provenance (h ++ os) s' := by
  cases hchange with
  | quiet hpending hnext hview hstored hos =>
      refine hp.still hview hstored (fills_silent hos) ?_
      intro i r data isLast hmem
      exact absurd (hos _ hmem) (by simp [Obs.silent])
  | entered hpending hnext hview hstored =>
      rw [List.append_nil]
      exact hp.enter (hs.fresh s.nextSlot (le_refl _)) hview hstored
  | @staged id r hcall hpending hnext hview hstored =>
      refine hp.move hcall (by simp) rfl hview (by simp) (fun i _ => by rw [hstored]) ?_
        (by simp) (by simp)
      intro _
      rw [hstored, hs.unfilled id r hcall, hp.created id r hcall]
      rfl
  | @abandoned id r hcall hpending hnext hview hstored =>
      exact hp.move hcall (by simp) rfl hview (by simp) (fun i _ => by rw [hstored])
        (by simp) (by simp) (by simp)
  | @detached id r o hcall hpending hnext hview hstored houtcome =>
      refine hp.move hcall (by simp) rfl hview (by simp)
        (fun i hi => by rw [hstored, Function.update_of_ne hi]) (by simp) ?_ (by simp)
      intro o' ho'
      cases ho'
      exact houtcome.symm.trans (hp.queued id r hcall)
  | @finished id r o hcall hpending hnext hview hstored =>
      refine hp.move hcall (by simp) rfl hview (by simp) (fun i _ => by rw [hstored])
        (by simp) (by simp) ?_
      intro i r' data isLast hmem
      simp only [List.mem_singleton, Obs.returned.injEq] at hmem
      obtain ⟨rfl, rfl, hok, rfl, rfl⟩ := hmem
      obtain ⟨hrec, hdata, hlast⟩ := Outcome.of_result_sOk hok.symm
      have hheld := hp.holding i r' o hcall
      refine ⟨rfl, rfl, rfl, ?_⟩
      cases hrep : (repliesInto i h).getLast? with
      | none =>
          rw [hrep] at hheld
          simp [Outcome.stored, replyOf, hrec] at hheld
      | some chunk =>
          rw [hrep] at hheld
          simp only [Outcome.stored, replyOf, Stored.mk.injEq] at hheld
          exact ⟨chunk, rfl, by rw [hdata, hheld.2.1], by rw [hlast, hheld.2.2.1]⟩
  | @dropped chunk hqueue hsame =>
      subst hsame
      exact hp.still rfl rfl rfl (by simp)
  | @filled chunk id rest hqueue hpending hnext hview hstored =>
      obtain ⟨r, hcall, hkey⟩ := (hs.queued (replyKey chunk) id).mp (by simp [hqueue])
      exact hp.fill hcall hkey.symm hview hstored

/-- **Queues, calls and replies agree** after every run. -/
theorem run_provenance {ok : Provider → Action → Prop} {pipe : Bool} {h : List Obs}
    {s : Provider} (hrun : Machine.Run machine ok (initial pipe) h s) :
    WellFormed s ∧ Provenance h s := by
  refine hrun.history_invariant (fun h s => WellFormed s ∧ Provenance h s) ?_ ?_
  · exact ⟨wellFormed_initial pipe, provenance_initial pipe⟩
  · rintro h s a s' os ⟨hs, hp⟩ - hstep
    have hchange := step_change hstep
    exact ⟨hchange.wellFormed hs, hchange.provenance hs hp⟩

/-! ## Whose bytes -/

theorem separator_not_mem_decimal (n : Nat) : separator ∉ decimal n := by
  intro h
  have hdigit := digit_of_mem_decimal h
  simp [separator] at hdigit

/-- The offset can always be read back from a key, and so can the two ids
joined by the separator. -/
theorem makeKey_eq {t f t' f' : Bytes} {o o' : UInt64} (h : makeKey t' f' o' = makeKey t f o) :
    t' ++ separator :: f' = t ++ separator :: f ∧ o' = o := by
  have hassoc : ∀ (x y : Bytes) (z : UInt64), makeKey x y z =
      (x ++ separator :: y) ++ separator :: decimal z.toNat := by
    intro x y z
    simp [makeKey]
  rw [hassoc, hassoc] at h
  obtain ⟨hids, hoffset⟩ := append_cons_inj_last (separator_not_mem_decimal _)
    (separator_not_mem_decimal _) h
  exact ⟨hids, UInt64.toNat_inj.mp (decimal_injective hoffset)⟩

/-- Ids that contain the separator can be split at another place. -/
theorem exists_other_split {t f : Bytes} (h : separator ∈ t ∨ separator ∈ f) :
    ∃ t' f', t' ++ separator :: f' = t ++ separator :: f ∧ t' ≠ t := by
  rcases h with h | h
  · obtain ⟨a, b, rfl⟩ := List.append_of_mem h
    refine ⟨a, b ++ separator :: f, by simp, ?_⟩
    intro heq
    simpa using congrArg List.length heq
  · obtain ⟨a, b, rfl⟩ := List.append_of_mem h
    refine ⟨t ++ separator :: a, b, by simp, ?_⟩
    intro heq
    simpa using congrArg List.length heq

/-- **When the key is exact.**  A key determines the three parts it was made
from exactly when neither id contains the separator. -/
theorem makeKey_determines_iff (t f : Bytes) (o : UInt64) :
    (∀ t' f' o', makeKey t' f' o' = makeKey t f o → t' = t ∧ f' = f ∧ o' = o) ↔
      separator ∉ t ∧ separator ∉ f := by
  constructor
  · intro hexact
    by_contra hsep
    have hmem : separator ∈ t ∨ separator ∈ f := by tauto
    obtain ⟨t', f', hsplit, hne⟩ := exists_other_split hmem
    have hkey : makeKey t' f' o = makeKey t f o := by
      have hassoc := congrArg (· ++ separator :: decimal o.toNat) hsplit
      simpa [makeKey] using hassoc
    exact hne (hexact t' f' o hkey).1
  · rintro ⟨ht, hf⟩ t' f' o' hkey
    obtain ⟨hids, rfl⟩ := makeKey_eq hkey
    obtain ⟨rfl, -, rfl⟩ := (List.append_cons_inj_of_notMem ht hf).mp hids.symm
    exact ⟨rfl, rfl, rfl⟩

@[simp]
theorem queue_empty (key : Bytes) : queue (∅ : Pending) key = [] := rfl

/-- One request, answered by a reply with the same key: a run in which the
call succeeds with the bytes of that reply. -/
theorem run_answered (r : Request) (ht : r.transferId ≠ []) (hf : r.fileId ≠ [])
    (chunk : ParsedFileChunkData) (hkey : replyKey chunk = r.key) (hok : chunk.error = []) :
    ∃ h s, Machine.Run machine Machine.always (initial true) h s ∧
      repliesInto 0 h = [chunk] ∧ .returned 0 r .sOk chunk.data chunk.isLast ∈ h := by
  have hexec : (machine.exec (initial true)
      [.enter r (some 1), .stage 0, .send 0 true, .deliver chunk, .wait 0 .pumped,
        .detach 0, .closeHandle 0, .finish 0]).map (fun result => result.2) =
      some [.staged 0 r, .sent 0 r, .delivered chunk (some 0), .withdrawn 0 r.key true,
        .returned 0 r .sOk chunk.data chunk.isLast] := by
    simp [Machine.exec, machine, enter, stage, send, deliverChunk, wait, detach, closeHandle,
      finish, initial, ht, hf, hkey, fill, outcomeOf, Outcome.result, Outcome.outData,
      Outcome.outIsLast, hok]
  obtain ⟨h, s, hrun, hhist⟩ := Machine.Run.of_exec_map hexec
  simp only at hhist
  subst hhist
  exact ⟨_, s, hrun, rfl, by simp⟩

/-- `FetchChunk(t, f, o)` only ever returns bytes that came for it: in every
run, a call that succeeds returns the last reply stored in its slot, and that
reply named exactly `t`, `f` and `o`. -/
def OwnBytesOnly (t f : Bytes) (o : UInt64) : Prop :=
  ∀ pipe h s, Machine.Run machine Machine.always (initial pipe) h s →
    ∀ id r data isLast, .returned id r .sOk data isLast ∈ h →
      r.transferId = t → r.fileId = f → r.offset = o →
      ∃ chunk, (repliesInto id h).getLast? = some chunk ∧ chunk.data = data ∧
        chunk.isLast = isLast ∧ chunk.transferId = t ∧ chunk.fileId = f ∧ chunk.offset = o

/-- **Own bytes only** is a property of the ids: it holds exactly when
neither contains the separator, which is exactly when their key determines
them. -/
theorem fetchChunk_own_bytes_iff (t f : Bytes) (o : UInt64) (ht : t ≠ []) (hf : f ≠ []) :
    (OwnBytesOnly t f o ↔ separator ∉ t ∧ separator ∉ f) ∧
      ((∀ t' f' o', makeKey t' f' o' = makeKey t f o → t' = t ∧ f' = f ∧ o' = o) ↔
        separator ∉ t ∧ separator ∉ f) := by
  refine ⟨⟨?_, ?_⟩, makeKey_determines_iff t f o⟩
  · intro hown
    refine (makeKey_determines_iff t f o).mp ?_
    intro t' f' o' hkey
    obtain ⟨h, s, hrun, hreplies, hret⟩ := run_answered ⟨t, f, o, 0⟩ ht hf
      { transferId := t', fileId := f', offset := o' } hkey rfl
    obtain ⟨chunk, hlast, -, -, hids⟩ := hown true h s hrun 0 _ _ _ hret rfl rfl rfl
    rw [hreplies] at hlast
    cases hlast
    exact hids
  · intro hsep pipe h s hrun id r data isLast hret ht' hf' ho'
    obtain ⟨-, hp⟩ := run_provenance hrun
    obtain ⟨hview, chunk, hlast, hdata, hislast⟩ := hp.returned id r data isLast hret
    have hkey := hp.key id r _ chunk hview (List.mem_of_getLast? hlast)
    rw [replyKey, Request.key, ht', hf', ho'] at hkey
    exact ⟨chunk, hlast, hdata, hislast, (makeKey_determines_iff t f o).mpr hsep _ _ _ hkey⟩

/-- Ids without a separator: the transfer `t`, its file `f`, at offset zero. -/
theorem fetchChunk_own_bytes_plain : OwnBytesOnly [0x74] [0x66] 0 :=
  (fetchChunk_own_bytes_iff [0x74] [0x66] 0 (by decide) (by decide)).1.mpr (by decide)

/-- **Another file's bytes.**  A call for file `"c"` of transfer `"a|b"`
succeeds with the bytes of file `"b|c"` of transfer `"a"`. -/
theorem fetchChunk_foreign_bytes : ¬ OwnBytesOnly [0x61, 0x7C, 0x62] [0x63] 0 := by
  intro hown
  obtain ⟨h, s, hrun, hreplies, hret⟩ := run_answered ⟨[0x61, 0x7C, 0x62], [0x63], 0, 4⟩
    (by decide) (by decide)
    { transferId := [0x61], fileId := [0x62, 0x7C, 0x63], data := [1, 2, 3, 4] }
    (by decide) rfl
  obtain ⟨chunk, hlast, -, -, hids, -⟩ := hown true h s hrun 0 _ _ _ hret rfl rfl rfl
  rw [hreplies] at hlast
  cases hlast
  exact absurd hids (by decide)

/-! ## One reply per waiter -/

/-- The waiters of a key that have no reply yet, oldest first. -/
def unanswered (s : Provider) (key : Bytes) : List SlotId :=
  (queue s.pending key).filter (fun i => !(stored s i).received)

/-- The waiter at the front of the queue, if any, has no reply yet. -/
def FrontUnanswered (s : Provider) (chunk : ParsedFileChunkData) : Prop :=
  ∀ i, (queue s.pending (replyKey chunk)).head? = some i → (stored s i).received = false

/-- What `DeliverChunk` is for: it stores the reply in one slot or in none,
leaves every other slot alone, picks the oldest waiter without a reply when
there is one, and never picks a slot that has a reply. -/
def FillsOldest (s : Provider) (chunk : ParsedFileChunkData) : Prop :=
  ∃ target, (deliverChunk s chunk).2 = [.delivered chunk target] ∧
    (∀ i, target = some i → stored (deliverChunk s chunk).1 i = replyOf (some chunk)) ∧
    (∀ i, target ≠ some i → stored (deliverChunk s chunk).1 i = stored s i) ∧
    (∀ i, (unanswered s (replyKey chunk)).head? = some i → target = some i) ∧
    (∀ i, target = some i → (stored s i).received = false)

/-- **One delivery.**  It serves the oldest unanswered waiter, and overwrites
nothing, exactly when the front of the queue is unanswered. -/
theorem deliverChunk_fills_oldest_iff (s : Provider) (chunk : ParsedFileChunkData) :
    FillsOldest s chunk ↔ FrontUnanswered s chunk := by
  cases hq : queue s.pending (replyKey chunk) with
  | nil =>
      have hnone : (deliverChunk s chunk) = (s, [.delivered chunk none]) := by
        rw [deliverChunk, hq]
      constructor
      · intro _ i hi
        rw [hq] at hi
        cases hi
      · intro _
        rw [FillsOldest, hnone]
        refine ⟨none, rfl, by simp, by simp, ?_, by simp⟩
        intro i hi
        simp [unanswered, hq] at hi
  | cons id rest =>
      have hfront : (queue s.pending (replyKey chunk)).head? = some id := by rw [hq]; rfl
      have hos : (deliverChunk s chunk).2 = [.delivered chunk (some id)] := by
        rw [deliverChunk, hq]
      have hstored : stored (deliverChunk s chunk).1 =
          Function.update (stored s) id (replyOf (some chunk)) := by
        rw [deliverChunk, hq]
        funext i
        by_cases hi : i = id
        · subst hi
          simp [stored, fill, replyOf]
        · simp [stored, Function.update_of_ne hi]
      constructor
      · rintro ⟨target, htarget, -, -, -, hfresh⟩ i hi
        rw [hos] at htarget
        rw [hfront] at hi
        simp only [List.cons.injEq, Obs.delivered.injEq, true_and, and_true] at htarget
        exact hfresh i (htarget.symm.trans hi)
      · intro hopen
        have hid := hopen id hfront
        refine ⟨some id, hos, ?_, ?_, ?_, ?_⟩
        · rintro i ⟨⟩
          rw [hstored, Function.update_self]
        · intro i hi
          rw [hstored, Function.update_of_ne (fun h => hi (by rw [h]))]
        · intro i hi
          simpa [unanswered, hq, hid] using hi
        · rintro i ⟨⟩
          exact hid

/-- Deliveries that meet an unanswered front. -/
def orderly : Provider → Action → Prop
  | s, .deliver chunk => FrontUnanswered s chunk
  | _, _ => True

/-- Only a delivery is observed as one. -/
theorem step_delivered {s s' : Provider} {a : Action} {os : List Obs}
    {chunk : ParsedFileChunkData} {target : Option SlotId}
    (h : machine.step s a = some (s', os)) (hmem : .delivered chunk target ∈ os) :
    a = .deliver chunk := by
  cases a with
  | deliver c =>
      have hos : (deliverChunk s c).2 = os := congrArg Prod.snd (Option.some.inj h)
      rw [← hos, deliverChunk] at hmem
      split at hmem <;> simp_all
  | cancelAll =>
      cases h
      simp at hmem
  | enter | stage | send | wait | detach | closeHandle | finish | signal =>
      -- no branch of these functions emits a delivery
      simp only [machine, enter, stage, send, wait, detach, closeHandle, finish, signal] at h
      repeat' split at h
      all_goals cases h <;> simp at hmem

/-- The unanswered waiters depend only on the queue and on who has a reply. -/
theorem unanswered_congr {s s' : Provider} {key : Bytes}
    (hqueue : queue s'.pending key = queue s.pending key)
    (hreceived : ∀ i ∈ queue s.pending key, (stored s' i).received = (stored s i).received) :
    unanswered s' key = unanswered s key := by
  rw [unanswered, unanswered, hqueue]
  apply List.filter_congr
  intro i hi
  rw [hreceived i hi]

/-- Withdrawing an answered waiter leaves the unanswered ones. -/
theorem unanswered_withdraw {s s' : Provider} (hs : WellFormed s) {id : SlotId} {r : Request}
    (hpending : s'.pending = eraseFromQueueLocked s.pending r.key id)
    (hreceived : ∀ i, (stored s' i).received = (stored s i).received) {key : Bytes}
    (hanswered : key = r.key → (stored s id).received = true) :
    unanswered s' key = unanswered s key := by
  by_cases hkey : key = r.key
  · have hqueue : queue s'.pending key = (queue s.pending key).erase id := by
      rw [hpending, queue_eraseFromQueueLocked, if_pos hkey, hkey]
    rw [unanswered, unanswered, hqueue, (hs.nodup key).erase_eq_filter, List.filter_filter]
    apply List.filter_congr
    intro i _
    rw [hreceived]
    by_cases hi : i = id
    · simp [hi, hanswered hkey]
    · simp [hi]
  · refine unanswered_congr ?_ (fun i _ => hreceived i)
    rw [hpending, queue_eraseFromQueueLocked, if_neg hkey]

/-- The books of an orderly run.  No slot is filled twice; and under a key
that no unanswered waiter has left, the staged requests are the answered ones
followed by the unanswered ones, in order. -/
structure Accounting (h : List Obs) (s : Provider) : Prop where
  once : ((fills h).map Prod.fst).Nodup
  books : ∀ key, (∀ id, .withdrawn id key false ∉ h) →
    (stagedFor key h).map Prod.fst = (fillsFor key h).map Prod.fst ++ unanswered s key

/-- Steps that neither stage nor store. -/
theorem Accounting.still {h os : List Obs} {s s' : Provider} (ha : Accounting h s)
    (hfills : fills os = []) (hstaged : ∀ key, stagedFor key os = [])
    (hsame : ∀ key, (∀ id, .withdrawn id key false ∉ os) →
      unanswered s' key = unanswered s key) : Accounting (h ++ os) s' := by
  constructor
  · rw [fills_append, hfills, List.append_nil]
    exact ha.once
  · intro key hkey
    have hbefore : ∀ id, .withdrawn id key false ∉ h :=
      fun id hid => hkey id (List.mem_append_left _ hid)
    have hnow : ∀ id, .withdrawn id key false ∉ os :=
      fun id hid => hkey id (List.mem_append_right _ hid)
    have hnone : fillsFor key os = [] := by rw [fillsFor, hfills, List.filter_nil]
    rw [stagedFor_append, hstaged, fillsFor_append, hnone, hsame key hnow, List.append_nil,
      List.append_nil]
    exact ha.books key hbefore

/-- A waiter enters the queue of its key, unanswered. -/
theorem Accounting.stage {s s' : Provider} {id : SlotId} {r : Request} {h : List Obs}
    (ha : Accounting h s) (hs : WellFormed s) (hcall : view s id = some (r, .created))
    (hpending : s'.pending = pushBack s.pending r.key id) (hstored : stored s' = stored s) :
    Accounting (h ++ [.staged id r]) s' := by
  have hopenSlot : (stored s id).received = false := by rw [hs.unfilled id r hcall]
  constructor
  · have hnone : fills [.staged id r] = [] := rfl
    rw [fills_append, hnone, List.append_nil]
    exact ha.once
  · intro key hkey
    have hbooks := ha.books key (fun i hi => hkey i (List.mem_append_left _ hi))
    have hone : stagedFor key [.staged id r] = if r.key = key then [(id, r)] else [] := by
      simp [stagedFor, Obs.staged?, List.filter_cons]
    rw [stagedFor_append, fillsFor_append, hone]
    by_cases hk : r.key = key
    · have hqueue : unanswered s' key = unanswered s key ++ [id] := by
        rw [unanswered, unanswered, hpending, queue_pushBack, if_pos hk.symm, hk, hstored,
          List.filter_append]
        simp [hopenSlot]
      rw [if_pos hk, hqueue, List.map_append, hbooks]
      simp [fillsFor, fills, Obs.fill?]
    · have hqueue : unanswered s' key = unanswered s key := by
        refine unanswered_congr ?_ (fun i _ => by rw [hstored])
        rw [hpending, queue_pushBack, if_neg (fun h => hk h.symm)]
      rw [if_neg hk, hqueue, List.append_nil, hbooks]
      simp [fillsFor, fills, Obs.fill?]

/-- A queued slot that is unanswered has not been filled before. -/
theorem Provenance.never_filled {s : Provider} {id : SlotId} {r : Request} {h : List Obs}
    (hp : Provenance h s) (hcall : view s id = some (r, .queued))
    (hopen : (stored s id).received = false) : repliesInto id h = [] := by
  have hstore := hp.queued id r hcall
  cases hlast : (repliesInto id h).getLast? with
  | none => exact List.getLast?_eq_none_iff.mp hlast
  | some c =>
      rw [hlast] at hstore
      rw [hstore] at hopen
      cases hopen

/-- Filling the front of a queue answers it and nobody else. -/
theorem unanswered_fill {s s' : Provider} {key : Bytes} {id : SlotId} {r : Request}
    {rest : List SlotId} {filled : Stored} (hs : WellFormed s)
    (hqueue : queue s.pending key = id :: rest) (hcall : view s id = some (r, .queued))
    (hrkey : r.key = key) (hpending : s'.pending = s.pending)
    (hstored : stored s' = Function.update (stored s) id filled)
    (hreceived : filled.received = true) :
    unanswered s' key = rest.filter (fun i => !(stored s i).received) ∧
      ∀ key', key ≠ key' → unanswered s' key' = unanswered s key' := by
  constructor
  · have hnot : id ∉ rest := by
      have hnodup := hs.nodup key
      rw [hqueue] at hnodup
      exact (List.nodup_cons.mp hnodup).1
    rw [unanswered, hpending, hqueue, hstored, List.filter_cons, if_neg (by simp [hreceived])]
    apply List.filter_congr
    intro i hi
    have hne : i ≠ id := by
      intro heq
      rw [heq] at hi
      exact hnot hi
    rw [Function.update_of_ne hne]
  · intro key' hk
    refine unanswered_congr (by rw [hpending]) ?_
    intro i hi
    have hne : i ≠ id := by
      intro heq
      rw [heq, hs.mem_queue hcall, hrkey] at hi
      exact hk hi.symm
    rw [hstored, Function.update_of_ne hne]

/-- A reply fills the front of its queue, which was unanswered. -/
theorem Accounting.fill {s s' : Provider} {chunk : ParsedFileChunkData} {id : SlotId}
    {rest : List SlotId} {h : List Obs} (ha : Accounting h s) (hs : WellFormed s)
    (hp : Provenance h s) (hqueue : queue s.pending (replyKey chunk) = id :: rest)
    (hpending : s'.pending = s.pending)
    (hstored : stored s' = Function.update (stored s) id
      { received := true, data := chunk.data, isLast := chunk.isLast, error := chunk.error })
    (hidopen : (stored s id).received = false) :
    Accounting (h ++ [.delivered chunk (some id)]) s' := by
  obtain ⟨r, hcall, hrkey⟩ := (hs.queued (replyKey chunk) id).mp (by simp [hqueue])
  have hnever := hp.never_filled hcall hidopen
  have hfills : fills [.delivered chunk (some id)] = [(id, chunk)] := rfl
  obtain ⟨hanswered, hothers⟩ := unanswered_fill hs hqueue hcall hrkey hpending hstored rfl
  constructor
  · rw [fills_append, hfills, List.map_append, List.nodup_append]
    refine ⟨ha.once, List.nodup_singleton id, ?_⟩
    intro a hmem b hb hab
    simp only [List.map_cons, List.map_nil, List.mem_singleton] at hb
    obtain ⟨f, hf, rfl⟩ := List.mem_map.mp hmem
    have hin : f.2 ∈ repliesInto id h :=
      List.mem_map_of_mem (List.mem_filter.mpr ⟨hf, by simp [hab, hb]⟩)
    rw [hnever] at hin
    cases hin
  · intro key hkey
    have hbooks := ha.books key (fun i hi => hkey i (List.mem_append_left _ hi))
    have hstagedNone : stagedFor key [.delivered chunk (some id)] = [] := rfl
    rw [stagedFor_append, hstagedNone, List.append_nil, hbooks, fillsFor_append,
      List.map_append, List.append_assoc]
    congr 1
    by_cases hk : replyKey chunk = key
    · subst hk
      rw [hanswered, unanswered, hqueue, List.filter_cons, if_pos (by simp [hidopen])]
      simp [fillsFor, hfills]
    · rw [hothers key hk]
      simp [fillsFor, hfills, hk]

/-- **The books survive every orderly step.** -/
theorem Change.accounting {s s' : Provider} {os : List Obs} (hchange : Change s s' os)
    (hs : WellFormed s) {h : List Obs} (hp : Provenance h s) (ha : Accounting h s)
    (hopen : ∀ chunk target, .delivered chunk target ∈ os → FrontUnanswered s chunk) :
    Accounting (h ++ os) s' := by
  cases hchange with
  | quiet hpending hnext hview hstored hos =>
      refine ha.still (fills_silent hos) (stagedFor_silent hos) ?_
      intro key _
      exact unanswered_congr (by rw [hpending]) (fun i _ => by rw [hstored])
  | @entered r hpending hnext hview hstored =>
      refine ha.still rfl (fun _ => rfl) ?_
      intro key _
      refine unanswered_congr (by rw [hpending]) ?_
      intro i hi
      have hne : i ≠ s.nextSlot := by
        rintro rfl
        obtain ⟨r', hr', -⟩ := (hs.queued key _).mp hi
        rw [hs.fresh _ (le_refl _)] at hr'
        cases hr'
      rw [hstored, Function.update_of_ne hne]
  | staged hcall hpending hnext hview hstored => exact ha.stage hs hcall hpending hstored
  | @abandoned id r hcall hpending hnext hview hstored =>
      refine ha.still rfl (fun _ => rfl) ?_
      intro key hkey
      refine unanswered_withdraw hs hpending (fun i => by rw [hstored]) ?_
      rintro rfl
      by_contra hrec
      exact hkey id (by simp [Bool.eq_false_iff.mpr hrec])
  | @detached id r o hcall hpending hnext hview hstored houtcome =>
      refine ha.still rfl (fun _ => rfl) ?_
      intro key hkey
      refine unanswered_withdraw hs hpending ?_ ?_
      · intro i
        rw [hstored]
        by_cases hi : i = id
        · rw [hi, Function.update_self]
        · rw [Function.update_of_ne hi]
      · rintro rfl
        by_contra hrec
        exact hkey id (by simp [Bool.eq_false_iff.mpr hrec])
  | finished hcall hpending hnext hview hstored =>
      refine ha.still rfl (fun _ => rfl) ?_
      intro key _
      exact unanswered_congr (by rw [hpending]) (fun i _ => by rw [hstored])
  | dropped hqueue hsame =>
      subst hsame
      exact ha.still rfl (fun _ => rfl) (fun _ _ => rfl)
  | @filled chunk id rest hqueue hpending hnext hview hstored =>
      have hidopen : (stored s id).received = false :=
        hopen chunk (some id) (by simp) id (by rw [hqueue]; rfl)
      exact ha.fill hs hp hqueue hpending hstored hidopen

/-- In a list of pairs with distinct first components, one pair has a given
first component. -/
theorem filter_fst_eq_singleton {β : Type} {l : List (SlotId × β)}
    (hnodup : (l.map Prod.fst).Nodup) {a : SlotId} {b : β} (hmem : (a, b) ∈ l) :
    l.filter (fun f => f.1 = a) = [(a, b)] := by
  induction l with
  | nil => cases hmem
  | cons x l ih =>
      rw [List.map_cons, List.nodup_cons] at hnodup
      rcases List.mem_cons.mp hmem with rfl | hmem
      · have hrest : l.filter (fun f => f.1 = a) = [] := by
          refine List.filter_eq_nil_iff.mpr ?_
          intro f hf hfa
          exact hnodup.1 (List.mem_map.mpr ⟨f, hf, of_decide_eq_true hfa⟩)
        rw [List.filter_cons, if_pos (by simp), hrest]
      · have hne : x.1 ≠ a := by
          rintro rfl
          exact hnodup.1 (List.mem_map.mpr ⟨_, hmem, rfl⟩)
        rw [List.filter_cons, if_neg (by simpa using hne), ih hnodup.2 hmem]

/-- The books of every orderly run. -/
theorem run_accounting {pipe : Bool} {h : List Obs} {s : Provider}
    (hrun : Machine.Run machine orderly (initial pipe) h s) : Accounting h s := by
  have hall : WellFormed s ∧ Provenance h s ∧ Accounting h s := by
    refine hrun.history_invariant
      (fun h s => WellFormed s ∧ Provenance h s ∧ Accounting h s) ?_ ?_
    · refine ⟨wellFormed_initial pipe, provenance_initial pipe, List.nodup_nil, ?_⟩
      intro key _
      rfl
    · rintro h s a s' os ⟨hs, hp, ha⟩ hguard hstep
      have hchange := step_change hstep
      refine ⟨hchange.wellFormed hs, hchange.provenance hs hp, hchange.accounting hs hp ha ?_⟩
      intro chunk target hmem
      rw [step_delivered hstep hmem] at hguard
      exact hguard
  exact hall.2.2

/-- A staged call and the only reply its slot ever got: it is in the slot
until the call detaches, it is what the call took along, and it is what the
call returned. -/
structure HasReply (h : List Obs) (s : Provider) (id : SlotId) (r : Request)
    (chunk : ParsedFileChunkData) : Prop where
  only : repliesInto id h = [chunk]
  queued : view s id = some (r, .queued) → stored s id = replyOf (some chunk)
  holding : ∀ o, view s id = some (r, .holding o) → o.stored = replyOf (some chunk)
  returned : ∀ data isLast, .returned id r .sOk data isLast ∈ h →
    data = chunk.data ∧ isLast = chunk.isLast

/-- **One reply per waiter.**  A delivery serves the oldest unanswered waiter
and overwrites nothing exactly when the front of its queue is unanswered.  In
every run whose deliveries all meet an unanswered front, no slot is filled
twice; and once as many replies have been stored under a key as requests were
staged under it, with no waiter withdrawn unanswered (by a failed send, a
timeout, a cancel or a quit), the n-th staged request has the n-th reply and
no other. -/
theorem one_reply_per_waiter (pipe : Bool) :
    (∀ s chunk, FillsOldest s chunk ↔ FrontUnanswered s chunk) ∧
    ∀ h s, Machine.Run machine orderly (initial pipe) h s →
      ((fills h).map Prod.fst).Nodup ∧
      ∀ key, (∀ id, .withdrawn id key false ∉ h) →
        (fillsFor key h).length = (stagedFor key h).length →
        ∀ (n : Nat) (id : SlotId) (r : Request), (stagedFor key h)[n]? = some (id, r) →
          ∃ chunk, (fillsFor key h)[n]? = some (id, chunk) ∧ HasReply h s id r chunk := by
  refine ⟨deliverChunk_fills_oldest_iff, ?_⟩
  intro h s hrun
  have ha := run_accounting hrun
  obtain ⟨-, hp⟩ := run_provenance hrun
  refine ⟨ha.once, ?_⟩
  intro key hkey hcount n id r hn
  have hbooks := ha.books key hkey
  have hlen := congrArg List.length hbooks
  simp only [List.length_map, List.length_append] at hlen
  have hnil : unanswered s key = [] := List.length_eq_zero_iff.mp (by omega)
  rw [hnil, List.append_nil] at hbooks
  have hfst : ((fillsFor key h).map Prod.fst)[n]? = some id := by
    rw [← hbooks, List.getElem?_map, hn, Option.map_some]
  rw [List.getElem?_map] at hfst
  obtain ⟨⟨id', chunk⟩, hfill, rfl⟩ := Option.map_eq_some_iff.mp hfst
  have hmem : (id', chunk) ∈ fills h := (List.mem_filter.mp (List.mem_of_getElem? hfill)).1
  have honly : repliesInto id' h = [chunk] := by
    rw [repliesInto, filter_fst_eq_singleton ha.once hmem]
    rfl
  have hlast : (repliesInto id' h).getLast? = some chunk := by
    rw [honly]
    rfl
  refine ⟨chunk, hfill, honly, ?_, ?_, ?_⟩
  · intro hview
    rw [hp.queued id' r hview, hlast]
  · intro o hview
    rw [hp.holding id' r o hview, hlast]
  · intro data isLast hret
    obtain ⟨-, c, hc, rfl, rfl⟩ := hp.returned id' r data isLast hret
    rw [hlast] at hc
    cases hc
    exact ⟨rfl, rfl⟩

/-- The file `f` of transfer `t`, at offset zero. -/
def sampleRequest : Request := { transferId := [0x74], fileId := [0x66], offset := 0, size := 4 }

/-- Replies to it. -/
def sampleReply (data : Bytes) : ParsedFileChunkData :=
  { transferId := [0x74], fileId := [0x66], offset := 0, data := data }

/-- The test for an orderly action. -/
def orderlyTest : Provider → Action → Bool
  | s, .deliver chunk =>
    (queue s.pending (replyKey chunk)).head?.all (fun i => !(stored s i).received)
  | _, _ => true

theorem orderly_of_test (s : Provider) (a : Action) (h : orderlyTest s a = true) :
    orderly s a := by
  cases a with
  | deliver chunk =>
      intro i hi
      simpa [orderlyTest, hi] using h
  | _ => trivial

/-- Two requests for the same chunk; the second reply comes after the first
call has detached, and each call has its own. -/
theorem one_reply_per_waiter_in_turn :
    ∃ h s, Machine.Run machine orderly (initial true) h s ∧
      (stagedFor sampleRequest.key h).map Prod.fst = [0, 1] ∧
      ∃ chunk, (fillsFor sampleRequest.key h)[1]? = some (1, chunk) ∧
        HasReply h s 1 sampleRequest chunk := by
  have hexec : (machine.execIf orderlyTest (initial true)
      [.enter sampleRequest (some 1), .stage 0, .send 0 true,
        .enter sampleRequest (some 2), .stage 1, .send 1 true,
        .deliver (sampleReply [1]), .wait 0 .pumped, .detach 0,
        .deliver (sampleReply [2])]).map (fun r => r.2) =
      some [.staged 0 sampleRequest, .sent 0 sampleRequest, .staged 1 sampleRequest,
        .sent 1 sampleRequest, .delivered (sampleReply [1]) (some 0),
        .withdrawn 0 sampleRequest.key true, .delivered (sampleReply [2]) (some 1)] := by
    decide
  obtain ⟨h, s, hrun, hhist⟩ := Machine.Run.of_execIf_map orderly_of_test hexec
  simp only at hhist
  subst hhist
  exact ⟨_, s, hrun, by decide, ((one_reply_per_waiter true).2 _ s hrun).2 sampleRequest.key
    (by simp) (by decide) 1 1 sampleRequest (by decide)⟩

/-- **The second reply overwrites the first.**  Two calls for the same chunk
are waiting, the second nested in the pump of the first, and both replies
arrive before either call detaches.  As many replies were delivered as
requests were staged and nobody gave up, and yet the first waiter was filled
twice and the second has nothing. -/
theorem second_reply_overwrites :
    ∃ h s, Machine.Run machine Machine.always (initial true) h s ∧
      (stagedFor sampleRequest.key h).map Prod.fst = [0, 1] ∧
      (fillsFor sampleRequest.key h).map Prod.fst = [0, 0] ∧
      (∀ id, .withdrawn id sampleRequest.key false ∉ h) ∧
      repliesInto 1 h = [] ∧ (stored s 1).received = false ∧
      (stored s 0).data = [2] := by
  have hexec : (machine.exec (initial true)
      [.enter sampleRequest (some 1), .stage 0, .send 0 true,
        .enter sampleRequest (some 2), .stage 1, .send 1 true,
        .deliver (sampleReply [1]), .deliver (sampleReply [2])]).map
        (fun r => (r.2, stored r.1 0, stored r.1 1)) =
      some ([.staged 0 sampleRequest, .sent 0 sampleRequest, .staged 1 sampleRequest,
        .sent 1 sampleRequest, .delivered (sampleReply [1]) (some 0),
        .delivered (sampleReply [2]) (some 0)], { received := true, data := [2] }, {}) := by
    decide
  obtain ⟨h, s, hrun, hresult⟩ := Machine.Run.of_exec_map hexec
  simp only [Prod.mk.injEq] at hresult
  obtain ⟨rfl, hfirst, hsecond⟩ := hresult
  refine ⟨_, s, hrun, by decide, by decide, by simp, by decide, ?_, ?_⟩
  · rw [hsecond]
  · rw [hfirst]

end DispatcherChunkProvider
