import ClipboardHelper.FileDownloadTask

/-!
# What a finished download has on disk

A download calls its completion with `nil` on the strength of two counters,
the next offset to request and the number of requests in flight.  The first
half of this file says what these counters amount to: after `n` well-formed
replies, `n` being the number of grid slots, the task is done, wherever the
replies were written.  The destination is intact exactly when those first `n`
replies happen to cover the file and stop at its end.

The second half is about a parent that answers every request once with the
bytes asked for.  Then any order of the replies is such a cover, the window
never exceeds its depth, and the file on disk is the content.
-/

namespace FileDownloadTask

open Library

/-- Replies whose seek and write both go through. -/
def deliver (chunks : List FileChunkData) : List Event :=
  chunks.map (fun chunk => .chunk chunk none)

/-- `startFileDownload` on the queue: create the task and start it on a
destination that can be created and opened. -/
def launch (transferID fileID : Ident) (size : Nat) (destPath : String) : Outcome :=
  match init transferID fileID size destPath with
  | none => none
  | some t => start t true true

/-- A launched task that has been handed the replies `chunks`, with all of
its effects since the launch. -/
def download (transferID fileID : Ident) (size : Nat) (destPath : String)
    (chunks : List FileChunkData) : Outcome :=
  match launch transferID fileID size destPath with
  | none => none
  | some (t, es) =>
    match taskMachine.exec t (deliver chunks) with
    | none => none
    | some (t', es') => some (t', es ++ es')

/-- The positioned blocks written, in order. -/
def writesOf (es : List Effect) : List (Block UInt8) :=
  es.filterMap fun
    | .write offset data => some (offset, data)
    | _ => none

/-- The offsets requested, in order. -/
def requestsOf (es : List Effect) : List Nat :=
  es.filterMap fun
    | .request offset => some offset
    | _ => none

/-- The values handed to the completion, in order. -/
def completionsOf (es : List Effect) : List (Option FileDownloadError) :=
  es.filterMap fun
    | .completion error => some error
    | _ => none

@[simp] theorem writesOf_append (es fs : List Effect) :
    writesOf (es ++ fs) = writesOf es ++ writesOf fs := List.filterMap_append

@[simp] theorem requestsOf_append (es fs : List Effect) :
    requestsOf (es ++ fs) = requestsOf es ++ requestsOf fs := List.filterMap_append

@[simp] theorem completionsOf_append (es fs : List Effect) :
    completionsOf (es ++ fs) = completionsOf es ++ completionsOf fs := List.filterMap_append

@[simp] theorem writesOf_requests (is : List Nat) (f : Nat → Nat) :
    writesOf (is.map (fun i => .request (f i))) = [] := by
  simp [writesOf, List.filterMap_map]

@[simp] theorem requestsOf_requests (is : List Nat) (f : Nat → Nat) :
    requestsOf (is.map (fun i => .request (f i))) = is.map f := by
  simp [requestsOf, List.filterMap_map]

@[simp] theorem completionsOf_requests (is : List Nat) (f : Nat → Nat) :
    completionsOf (is.map (fun i => .request (f i))) = [] := by
  simp [completionsOf, List.filterMap_map]

/-- The completion was called with `error` exactly when the effects say so. -/
theorem mem_completionsOf {es : List Effect} {error : Option FileDownloadError} :
    error ∈ completionsOf es ↔ .completion error ∈ es := by
  simp only [completionsOf, List.mem_filterMap]
  constructor
  · rintro ⟨e, he, heq⟩
    cases e with
    | completion error' =>
        cases heq
        exact he
    | request offset => cases heq
    | write offset data => cases heq
  · intro h
    exact ⟨_, h, rfl⟩

@[simp] theorem writesOf_replyEffects (size k : Nat) (chunk : FileChunkData) :
    writesOf (replyEffects size k chunk) = [chunk.block] := by
  unfold replyEffects nextRequests
  split
  · rfl
  · split <;> rfl

theorem requestsOf_replyEffects (size k : Nat) (chunk : FileChunkData) :
    requestsOf (replyEffects size k chunk) =
      if k + kPipelineDepth < gridSlots size then
        [kDefaultChunkSize * (k + kPipelineDepth)] else [] := by
  have hdepth : kPipelineDepth = 4 := rfl
  unfold replyEffects nextRequests
  by_cases hlast : k + 1 = gridSlots size
  · rw [if_pos hlast, if_neg (by omega)]
    rfl
  · rw [if_neg hlast]
    split <;> rfl

theorem completionsOf_replyEffects (size k : Nat) (chunk : FileChunkData) :
    completionsOf (replyEffects size k chunk) =
      if k + 1 = gridSlots size then [none] else [] := by
  unfold replyEffects nextRequests
  split
  · rfl
  · split <;> rfl

/-! ## What the two counters decide -/

/-- The bytes that a list of replies carries. -/
def totalBytes (chunks : List FileChunkData) : Nat :=
  (chunks.map (fun chunk => chunk.data.length)).sum

/-- `count` well-formed replies that keep the byte counter, now at
`received`, inside `Int64`. -/
def Complete (count received : Nat) (chunks : List FileChunkData) : Prop :=
  chunks.length = count ∧ (∀ chunk ∈ chunks, chunk.WellFormed) ∧
    received + totalBytes chunks < 2 ^ 63

/-- A finished task does nothing more. -/
theorem exec_finished {t : Task} (h : t.isFinished = true) (chunks : List FileChunkData) :
    taskMachine.exec t (deliver chunks) = some (t, []) := by
  induction chunks with
  | nil => rfl
  | cons chunk chunks ih =>
      have hstep : taskMachine.step t (.chunk chunk none) = some (t, []) :=
        handleChunkData_finished h chunk none
      simp only [deliver] at ih
      simp only [deliver, List.map_cons, Machine.exec, hstep, ih]
      rfl

/-- Handing over one more reply first. -/
theorem exec_deliver_cons {t t' : Task} {chunk : FileChunkData} {es : List Effect}
    (h : handleChunkData t chunk none = some (t', es)) (chunks : List FileChunkData) :
    taskMachine.exec t (deliver (chunk :: chunks)) =
      (taskMachine.exec t' (deliver chunks)).map (fun r => (r.1, es ++ r.2)) := by
  have hstep : taskMachine.step t (.chunk chunk none) = some (t', es) := h
  simp only [deliver, List.map_cons, Machine.exec, hstep]
  cases taskMachine.exec t' (List.map (fun chunk => Event.chunk chunk none) chunks) <;> rfl

/-- **Enough replies finish the download**, and what is on disk is what they
wrote. -/
theorem exec_complete {size : Nat} (hbound : size < 2 ^ 63) (chunks : List FileChunkData) :
    ∀ {k : Nat} {t : Task}, Awaiting size k t → k < gridSlots size →
      Complete (gridSlots size - k) t.receivedBytes (chunks.take (gridSlots size - k)) →
      ∃ t' es, taskMachine.exec t (deliver chunks) = some (t', es) ∧
        .completion none ∈ es ∧
        writesOf es = (chunks.take (gridSlots size - k)).map FileChunkData.block ∧
        t'.file = t.file.map (fun f => writeAll 0 f
          ((chunks.take (gridSlots size - k)).map FileChunkData.block)) := by
  induction chunks with
  | nil =>
      intro k t _ hk hcomplete
      have := hcomplete.1
      simp only [List.take_nil, List.length_nil] at this
      omega
  | cons chunk chunks ih =>
      intro k t ht hk hcomplete
      obtain ⟨m, hm⟩ : ∃ m, gridSlots size - k = m + 1 := ⟨gridSlots size - k - 1, by omega⟩
      rw [hm, List.take_succ_cons] at hcomplete ⊢
      obtain ⟨hlen, hwf, hroom⟩ := hcomplete
      simp only [totalBytes, List.map_cons, List.sum_cons] at hroom
      obtain ⟨t', hstep, hfile, hrecv, hnext⟩ := handleChunkData_reply ht hbound hk
        (hwf chunk List.mem_cons_self) (by omega)
      rw [exec_deliver_cons hstep]
      by_cases hlast : k + 1 = gridSlots size
      · rw [if_pos hlast] at hnext
        have hzero : m = 0 := by omega
        refine ⟨t', replyEffects size k chunk, by simp [exec_finished hnext], ?_, ?_, ?_⟩
        · simp [replyEffects, hlast]
        · simp [hzero]
        · simp [hzero, hfile, writeAll, FileChunkData.block]
      · rw [if_neg hlast] at hnext
        have hm' : gridSlots size - (k + 1) = m := by omega
        obtain ⟨t'', es, hexec, hdone, hwrites, hfile'⟩ := ih hnext (by omega) (by
          rw [hm', hrecv]
          exact ⟨by simpa using hlen, fun c hc => hwf c (List.mem_cons_of_mem _ hc),
            by simp only [totalBytes]; omega⟩)
        rw [hm'] at hwrites hfile'
        refine ⟨t'', replyEffects size k chunk ++ es, by simp [hexec], ?_, ?_, ?_⟩
        · exact List.mem_append_right _ hdone
        · simp [hwrites]
        · rw [hfile', hfile, Option.map_map]
          rfl

/-- **Only enough replies finish the download.** -/
theorem complete_of_exec {size : Nat} (hbound : size < 2 ^ 63) (chunks : List FileChunkData) :
    ∀ {k : Nat} {t t' : Task} {es : List Effect}, Awaiting size k t → k < gridSlots size →
      taskMachine.exec t (deliver chunks) = some (t', es) → .completion none ∈ es →
      Complete (gridSlots size - k) t.receivedBytes (chunks.take (gridSlots size - k)) := by
  induction chunks with
  | nil =>
      intro k t t' es _ _ hexec hdone
      cases hexec
      cases hdone
  | cons chunk chunks ih =>
      intro k t t' es ht hk hexec hdone
      obtain ⟨m, hm⟩ : ∃ m, gridSlots size - k = m + 1 := ⟨gridSlots size - k - 1, by omega⟩
      rw [hm, List.take_succ_cons]
      by_cases hwf : chunk.WellFormed
      · by_cases hroom : t.receivedBytes + chunk.data.length < 2 ^ 63
        · obtain ⟨u, hstep, _, hrecv, hnext⟩ := handleChunkData_reply ht hbound hk hwf hroom
          rw [exec_deliver_cons hstep] at hexec
          by_cases hlast : k + 1 = gridSlots size
          · have hzero : m = 0 := by omega
            subst hzero
            refine ⟨rfl, by simpa using hwf, ?_⟩
            simpa [totalBytes] using hroom
          · rw [if_neg hlast] at hnext
            obtain ⟨r, hr, heq⟩ := Option.map_eq_some_iff.mp hexec
            cases heq
            have hrest : .completion none ∈ r.2 := by
              rw [← mem_completionsOf, completionsOf_append, completionsOf_replyEffects,
                if_neg hlast] at hdone
              exact mem_completionsOf.mp (by simpa using hdone)
            have hm' : gridSlots size - (k + 1) = m := by omega
            obtain ⟨hlen, hall, hsum⟩ := ih hnext (by omega) hr hrest
            rw [hm'] at hlen hall hsum
            refine ⟨by simp [hlen], ?_, ?_⟩
            · intro c hc
              rcases List.mem_cons.mp hc with rfl | hc
              · exact hwf
              · exact hall c hc
            · simp only [totalBytes, List.map_cons, List.sum_cons] at hsum ⊢
              omega
        · have htrap : taskMachine.step t (.chunk chunk none) = none :=
            handleChunkData_trap ht hwf hroom
          simp [deliver, Machine.exec, htrap] at hexec
      · -- the download has failed; nothing after this can report success
        obtain ⟨u, error, hstep, hfin⟩ := handleChunkData_malformed ht hwf
        rw [exec_deliver_cons hstep, exec_finished hfin] at hexec
        cases hexec
        simp at hdone

/-! ## When a reported success is an intact file -/

/-- The blocks written cover `[0, size)` and the destination is `size` bytes
long. -/
def Intact (size : Nat) (t : Task) (es : List Effect) : Prop :=
  Covers (writesOf es) size ∧ ∃ f, t.file = some f ∧ f.length = size

/-- If the completion is called with `nil` in this download, the destination
is intact. -/
def FinishesIntact (transferID fileID : Ident) (size : Nat) (destPath : String)
    (chunks : List FileChunkData) : Prop :=
  ∀ t es, download transferID fileID size destPath chunks = some (t, es) →
    .completion none ∈ es → Intact size t es

/-- The replies that decide a download of `size` bytes: the first one for
each slot of the grid, by count. -/
def decisive (size : Nat) (chunks : List FileChunkData) : List FileChunkData :=
  chunks.take (gridSlots size)

/-- Unless they are too few, or one of them fails the download, the decisive
replies cover the file and none reaches past its end. -/
def RepliesFit (size : Nat) (chunks : List FileChunkData) : Prop :=
  Complete (gridSlots size) 0 (decisive size chunks) →
    Covers ((decisive size chunks).map FileChunkData.block) size ∧
      ∀ chunk ∈ decisive size chunks, chunk.offset + chunk.data.length ≤ size

/-- Each decisive reply answers a slot of its own, fills it and stays inside
the file. -/
def RepliesFillSlots (size : Nat) (chunks : List FileChunkData) : Prop :=
  ((decisive size chunks).map FileChunkData.offset).Nodup ∧
    ∀ chunk ∈ decisive size chunks,
      kDefaultChunkSize ∣ chunk.offset ∧ chunk.offset < size ∧
        min kDefaultChunkSize (size - chunk.offset) ≤ chunk.data.length ∧
        chunk.offset + chunk.data.length ≤ size

/-- A launched download of a representable, nonempty file. -/
theorem launch_awaiting (transferID fileID : Ident) {size : Nat} (destPath : String)
    (hpos : 0 < size) (hbound : size < 2 ^ 63) :
    ∃ t, launch transferID fileID size destPath = some (t,
        (List.range (min kPipelineDepth (gridSlots size))).map
          (fun i => .request (kDefaultChunkSize * i))) ∧
      Awaiting size 0 t ∧ t.file = some [] ∧ t.receivedBytes = 0 := by
  have hinit : init transferID fileID size destPath =
      some { transferID, fileID, fileSize := size, destPath } := if_pos (by omega)
  obtain ⟨t, hstart, hrest⟩ := start_awaiting hinit hpos
  exact ⟨t, by simp only [launch, hinit, hstart], hrest⟩

/-- A download is the execution of its launched task on the replies. -/
theorem download_eq {transferID fileID : Ident} {size : Nat} {destPath : String} {t : Task}
    {es : List Effect} (h : launch transferID fileID size destPath = some (t, es))
    (chunks : List FileChunkData) :
    download transferID fileID size destPath chunks =
      (taskMachine.exec t (deliver chunks)).map (fun r => (r.1, es ++ r.2)) := by
  simp only [download, h]
  cases taskMachine.exec t (deliver chunks) <;> rfl

/-- Distinct slot indices, as many as there are slots, are all of them. -/
theorem mem_of_nodup_slots {n : Nat} {slots : List Nat} (hnodup : slots.Nodup)
    (hlen : slots.length = n) (hlt : ∀ i ∈ slots, i < n) {i : Nat} (hi : i < n) :
    i ∈ slots := by
  have hsub : slots.toFinset ⊆ Finset.range n := by
    intro j hj
    exact Finset.mem_range.mpr (hlt j (List.mem_toFinset.mp hj))
  have hcard : (Finset.range n).card ≤ slots.toFinset.card := by
    rw [Finset.card_range, List.toFinset_card_of_nodup hnodup, hlen]
  have heq := Finset.eq_of_subset_of_card_le hsub hcard
  exact List.mem_toFinset.mp (heq ▸ Finset.mem_range.mpr hi)

/-- Every position of the file lies in the slot of its quotient. -/
theorem slot_of_position {size x : Nat} (hx : x < size) :
    x / kDefaultChunkSize < gridSlots size ∧
      kDefaultChunkSize * (x / kDefaultChunkSize) ≤ x ∧
      x < kDefaultChunkSize * (x / kDefaultChunkSize) + kDefaultChunkSize := by
  simp only [gridSlots, kDefaultChunkSize]
  omega

/-- Replies that fill all slots cover the file. -/
theorem RepliesFillSlots.fit {size : Nat} {chunks : List FileChunkData}
    (h : RepliesFillSlots size chunks) : RepliesFit size chunks := by
  intro hcomplete
  refine ⟨?_, fun chunk hc => (h.2 chunk hc).2.2.2⟩
  intro x hx
  obtain ⟨hslot, hlo, hhi⟩ := slot_of_position hx
  have hnodup : ((decisive size chunks).map
      (fun chunk => chunk.offset / kDefaultChunkSize)).Nodup := by
    rw [show (fun chunk : FileChunkData => chunk.offset / kDefaultChunkSize) =
      (· / kDefaultChunkSize) ∘ FileChunkData.offset from rfl, ← List.map_map]
    refine List.Nodup.map_on ?_ h.1
    intro a ha b hb hab
    obtain ⟨c, hc, rfl⟩ := List.mem_map.mp ha
    obtain ⟨d, hd, rfl⟩ := List.mem_map.mp hb
    exact (Nat.div_left_inj (h.2 c hc).1 (h.2 d hd).1).mp hab
  have hmem := mem_of_nodup_slots hnodup (by simpa using hcomplete.1) (by
    intro i hi
    obtain ⟨c, hc, rfl⟩ := List.mem_map.mp hi
    exact (slot_of_position (h.2 c hc).2.1).1) hslot
  obtain ⟨chunk, hc, hdiv⟩ := List.mem_map.mp hmem
  obtain ⟨hgrid, _, hfill, _⟩ := h.2 chunk hc
  have hoff : chunk.offset = kDefaultChunkSize * (x / kDefaultChunkSize) := by
    rw [← hdiv, Nat.mul_div_cancel' hgrid]
  refine ⟨chunk.block, List.mem_map_of_mem hc, ?_, ?_⟩
  · show chunk.offset ≤ x
    omega
  · show x < chunk.offset + chunk.data.length
    omega

/-- **The outcome of a complete download**: success is reported, and the
blocks of the decisive replies are what has been written. -/
theorem download_complete (transferID fileID : Ident) {size : Nat} (destPath : String)
    {chunks : List FileChunkData} (hpos : 0 < size) (hbound : size < 2 ^ 63)
    (hcomplete : Complete (gridSlots size) 0 (decisive size chunks)) :
    ∃ t es, download transferID fileID size destPath chunks = some (t, es) ∧
      .completion none ∈ es ∧
      writesOf es = (decisive size chunks).map FileChunkData.block ∧
      t.file = some (writeAll 0 [] ((decisive size chunks).map FileChunkData.block)) := by
  obtain ⟨t, hlaunch, hwait, hfile, hrecv⟩ :=
    launch_awaiting transferID fileID destPath hpos hbound
  obtain ⟨t', es, hexec, hdone, hwrites, hdisk⟩ := exec_complete hbound chunks hwait
    (gridSlots_pos hpos) (by simpa [hrecv, decisive] using hcomplete)
  refine ⟨t', _, by rw [download_eq hlaunch, hexec, Option.map_some],
    List.mem_append_right _ hdone, ?_, ?_⟩
  · simpa [decisive] using hwrites
  · simpa [hfile, decisive] using hdisk

/-- A download reports success only when it is complete. -/
theorem complete_of_download {transferID fileID : Ident} {size : Nat} {destPath : String}
    {chunks : List FileChunkData} {t : Task} {es : List Effect}
    (hpos : 0 < size) (hbound : size < 2 ^ 63)
    (hd : download transferID fileID size destPath chunks = some (t, es))
    (hdone : .completion none ∈ es) :
    Complete (gridSlots size) 0 (decisive size chunks) := by
  obtain ⟨t₀, hlaunch, hwait, -, hrecv⟩ :=
    launch_awaiting transferID fileID destPath hpos hbound
  rw [download_eq hlaunch] at hd
  obtain ⟨r, hexec, heq⟩ := Option.map_eq_some_iff.mp hd
  cases heq
  have hr : .completion none ∈ r.2 := by
    rw [← mem_completionsOf, completionsOf_append, completionsOf_requests] at hdone
    exact mem_completionsOf.mp (by simpa using hdone)
  simpa [hrecv, decisive] using
    complete_of_exec hbound chunks hwait (gridSlots_pos hpos) hexec hr

/-- The blocks of a complete download carry data. -/
theorem Complete.blocks_ne_nil {count received : Nat} {chunks : List FileChunkData}
    (h : Complete count received chunks) : ∀ b ∈ chunks.map FileChunkData.block, b.2 ≠ [] := by
  intro b hb
  obtain ⟨chunk, hc, rfl⟩ := List.mem_map.mp hb
  exact (h.2.1 chunk hc).2

/-- Success means an intact file exactly when the decisive replies fit. -/
theorem finishesIntact_iff_fit (transferID fileID : Ident) (size : Nat) (destPath : String)
    (chunks : List FileChunkData) (hpos : 0 < size) (hbound : size < 2 ^ 63) :
    FinishesIntact transferID fileID size destPath chunks ↔ RepliesFit size chunks := by
  constructor
  · intro hintact hcomplete
    obtain ⟨t, es, hd, hdone, hwrites, hdisk⟩ :=
      download_complete transferID fileID destPath hpos hbound hcomplete
    obtain ⟨hcov, f, hf, hlen⟩ := hintact t es hd hdone
    rw [hwrites] at hcov
    rw [hdisk] at hf
    cases hf
    have hends := (hcov.length_writeAll_eq_iff 0 hcomplete.blocks_ne_nil).mp hlen
    exact ⟨hcov, fun chunk hc => hends chunk.block (List.mem_map_of_mem hc)⟩
  · intro hfit t es hd hdone
    have hcomplete := complete_of_download hpos hbound hd hdone
    obtain ⟨u, fs, hd', -, hwrites, hdisk⟩ :=
      download_complete transferID fileID destPath hpos hbound hcomplete
    rw [hd'] at hd
    cases hd
    obtain ⟨hcov, hends⟩ := hfit hcomplete
    refine ⟨by rw [hwrites]; exact hcov, _, hdisk, ?_⟩
    refine (hcov.length_writeAll_eq_iff 0 hcomplete.blocks_ne_nil).mpr ?_
    intro b hb
    obtain ⟨chunk, hc, rfl⟩ := List.mem_map.mp hb
    exact hends chunk hc

/-- **Integrity of a reported success.**  A download that reports success
leaves an intact file exactly when its decisive replies, if they all go
through, cover the file and stop at its end.  Replies that each fill a slot
of their own do. -/
theorem finish_nil_intact_iff (transferID fileID : Ident) (size : Nat) (destPath : String)
    (chunks : List FileChunkData) (hpos : 0 < size) (hbound : size < 2 ^ 63) :
    (FinishesIntact transferID fileID size destPath chunks ↔ RepliesFit size chunks) ∧
      (RepliesFillSlots size chunks →
        FinishesIntact transferID fileID size destPath chunks) := by
  have hiff := finishesIntact_iff_fit transferID fileID size destPath chunks hpos hbound
  exact ⟨hiff, fun h => hiff.mpr h.fit⟩

/-- Two bytes in one reply are an intact download of two bytes. -/
theorem finish_nil_intact_two_bytes :
    FinishesIntact ['t'] ['f'] 2 "out" [⟨['t'], ['f'], 0, [7, 8], true, ""⟩] := by
  refine (finish_nil_intact_iff ['t'] ['f'] 2 "out" _ (by decide) (by decide)).2 ⟨?_, ?_⟩
  · decide
  · decide

/-- A single one-byte reply to the request for a two-byte file is reported as
success over a hole. -/
theorem finish_nil_short_reply_not_intact :
    ¬ FinishesIntact ['t'] ['f'] 2 "out" [⟨['t'], ['f'], 0, [7], true, ""⟩] := by
  intro h
  obtain ⟨-, f, hf, hlen⟩ := h
    { transferID := ['t'], fileID := ['f'], fileSize := 2, destPath := "out",
      receivedBytes := 1, nextRequestOffset := 262144, isFinished := true,
      sendRequest := true, file := some [7] }
    [.request 0, .write 0 [7], .completion none] (by decide) (by decide)
  cases hf
  cases hlen

/-! ## A parent that answers every request with the bytes asked for -/

/-- The bytes of one grid slot. -/
def slice (content : List UInt8) (offset : Nat) : List UInt8 :=
  (content.drop offset).take kDefaultChunkSize

/-- The exact answer to the request at `offset`. -/
def honestReply (transferID fileID : Ident) (content : List UInt8) (offset : Nat) :
    FileChunkData where
  transferID := transferID
  fileID := fileID
  offset := offset
  data := slice content offset
  isLast := decide (content.length ≤ offset + kDefaultChunkSize)

/-- The requests sent and not answered yet. -/
def outstanding (answered : List Nat) (es : List Effect) : List Nat :=
  (requestsOf es).diff answered

/-- A download whose outstanding requests are answered exactly, one by one
and in any order.  `answered` lists the answered offsets in that order. -/
inductive HonestRun (transferID fileID : Ident) (destPath : String) (content : List UInt8) :
    List Nat → List Effect → Task → Prop
  | launched {t : Task} {es : List Effect}
      (h : launch transferID fileID content.length destPath = some (t, es)) :
      HonestRun transferID fileID destPath content [] es t
  | answer {answered : List Nat} {es es' : List Effect} {t t' : Task} {offset : Nat}
      (before : HonestRun transferID fileID destPath content answered es t)
      (request : offset ∈ outstanding answered es)
      (reply : handleChunkData t (honestReply transferID fileID content offset) none =
        some (t', es')) :
      HonestRun transferID fileID destPath content (answered ++ [offset]) (es ++ es') t'

theorem length_slice (content : List UInt8) (offset : Nat) :
    (slice content offset).length = min kDefaultChunkSize (content.length - offset) := by
  simp [slice]

/-- A slice below the end of the content is a well-formed reply. -/
theorem honestReply_wellFormed (transferID fileID : Ident) {content : List UInt8}
    {offset : Nat} (h : offset < content.length) :
    (honestReply transferID fileID content offset).WellFormed := by
  refine ⟨rfl, ?_⟩
  intro hnil
  have hlen := length_slice content offset
  rw [show slice content offset = [] from hnil] at hlen
  simp only [List.length_nil, kDefaultChunkSize] at hlen
  omega

/-- The first `m` slots hold the first `c * m` bytes, up to the end. -/
theorem sum_slots (size m : Nat) :
    ∑ i ∈ Finset.range m, min kDefaultChunkSize (size - kDefaultChunkSize * i) =
      min size (kDefaultChunkSize * m) := by
  induction m with
  | zero => simp
  | succ m ih =>
      rw [Finset.sum_range_succ, ih, Nat.mul_succ]
      omega

/-- Distinct slots hold no more bytes than the file. -/
theorem sum_slices_le {content : List UInt8} {slots : List Nat} (hnodup : slots.Nodup)
    (hlt : ∀ i ∈ slots, i < gridSlots content.length) :
    (slots.map (fun i => (slice content (kDefaultChunkSize * i)).length)).sum ≤
      content.length := by
  calc (slots.map (fun i => (slice content (kDefaultChunkSize * i)).length)).sum
      = ∑ i ∈ slots.toFinset,
          min kDefaultChunkSize (content.length - kDefaultChunkSize * i) := by
        rw [List.sum_toFinset _ hnodup]
        simp only [length_slice]
    _ ≤ ∑ i ∈ Finset.range (gridSlots content.length),
          min kDefaultChunkSize (content.length - kDefaultChunkSize * i) := by
        apply Finset.sum_le_sum_of_subset
        intro i hi
        exact Finset.mem_range.mpr (hlt i (List.mem_toFinset.mp hi))
    _ ≤ content.length := by
        rw [sum_slots]
        omega

/-- What holds along every honest run, in terms of the answered slots. -/
structure Honest (content : List UInt8) (slots : List Nat) (es : List Effect) (t : Task) :
    Prop where
  nodup : slots.Nodup
  bound : ∀ i ∈ slots, i < min (gridSlots content.length) (slots.length + kPipelineDepth)
  requests : requestsOf es =
    (List.range (min (gridSlots content.length) (slots.length + kPipelineDepth))).map
      (kDefaultChunkSize * ·)
  completions : completionsOf es =
    if slots.length = gridSlots content.length then [none] else []
  received : t.receivedBytes =
    (slots.map (fun i => (slice content (kDefaultChunkSize * i)).length)).sum
  file : t.file = some (writeAll 0 []
    (slots.map (fun i => (kDefaultChunkSize * i, slice content (kDefaultChunkSize * i)))))
  state : if slots.length = gridSlots content.length then t.isFinished = true
    else Awaiting content.length slots.length t

theorem Honest.slot_lt {content : List UInt8} {slots : List Nat} {es : List Effect} {t : Task}
    (h : Honest content slots es t) : ∀ i ∈ slots, i < gridSlots content.length :=
  fun i hi => (h.bound i hi).trans_le (min_le_left _ _)

/-- Distinct slots are no more than there are. -/
theorem Honest.length_le {content : List UInt8} {slots : List Nat} {es : List Effect}
    {t : Task} (h : Honest content slots es t) :
    slots.length ≤ gridSlots content.length := by
  have hsub : slots ⊆ List.range (gridSlots content.length) :=
    fun i hi => List.mem_range.mpr (h.slot_lt i hi)
  simpa using (List.subperm_of_subset h.nodup hsub).length_le

theorem kDefaultChunkSize_mul_injective :
    Function.Injective (kDefaultChunkSize * · : Nat → Nat) := by
  intro i j hij
  simpa [kDefaultChunkSize] using hij

/-- The answered slots are among the requested ones, once each. -/
theorem Honest.answered_subperm {content : List UInt8} {slots : List Nat} {es : List Effect}
    {t : Task} (h : Honest content slots es t) :
    (slots.map (kDefaultChunkSize * ·)).Subperm (requestsOf es) := by
  refine List.subperm_of_subset (h.nodup.map kDefaultChunkSize_mul_injective) ?_
  intro o ho
  obtain ⟨i, hi, rfl⟩ := List.mem_map.mp ho
  rw [h.requests]
  exact List.mem_map_of_mem (List.mem_range.mpr (h.bound i hi))

theorem Honest.requests_nodup {content : List UInt8} {slots : List Nat} {es : List Effect}
    {t : Task} (h : Honest content slots es t) : (requestsOf es).Nodup := by
  rw [h.requests]
  exact List.nodup_range.map kDefaultChunkSize_mul_injective

/-- The window after one more answer contains the window before it. -/
theorem window_le_succ (n k : Nat) :
    min n (k + kPipelineDepth) ≤ min n (k + 1 + kPipelineDepth) :=
  min_le_min_left n (Nat.add_le_add_right k.le_succ kPipelineDepth)

/-- The slot just answered stays inside the window. -/
theorem lt_window_succ {n k i : Nat} (h : i < min n (k + kPipelineDepth)) :
    i < min n (k + 1 + kPipelineDepth) :=
  h.trans_le (window_le_succ n k)

/-- The window moves by one slot while there are slots left, and then stays. -/
theorem window_succ (n k : Nat) :
    min n (k + 1 + kPipelineDepth) =
      if k + kPipelineDepth < n then min n (k + kPipelineDepth) + 1
      else min n (k + kPipelineDepth) := by
  split <;> omega

/-- Answered and outstanding requests make up the requested ones. -/
theorem outstanding_count {n k out : Nat} (h : k + out = min n (k + kPipelineDepth)) :
    out = min n (k + kPipelineDepth) - k :=
  Nat.eq_sub_of_add_eq' h

/-- The outstanding requests, by count. -/
theorem Honest.length_outstanding {content : List UInt8} {slots : List Nat}
    {es : List Effect} {t : Task} (h : Honest content slots es t) :
    (outstanding (slots.map (kDefaultChunkSize * ·)) es).length =
      min (gridSlots content.length) (slots.length + kPipelineDepth) - slots.length := by
  have hperm := List.subperm_append_diff_self_of_count_le
    (List.subperm_ext_iff.mp h.answered_subperm)
  have hlen := hperm.length_eq
  have hreq := congrArg List.length h.requests
  simp only [List.length_append, List.length_map, List.length_range] at hlen hreq
  rw [hreq] at hlen
  exact outstanding_count hlen

/-- The outstanding requests, by what they are. -/
theorem Honest.mem_outstanding {content : List UInt8} {slots : List Nat}
    {es : List Effect} {t : Task} (h : Honest content slots es t) {offset : Nat}
    (ho : offset ∈ outstanding (slots.map (kDefaultChunkSize * ·)) es) :
    ∃ i, offset = kDefaultChunkSize * i ∧ i ∉ slots ∧
      i < min (gridSlots content.length) (slots.length + kPipelineDepth) := by
  have hmem := (h.requests_nodup.mem_sdiff_iff).mp ho
  rw [h.requests] at hmem
  obtain ⟨i, hi, rfl⟩ := List.mem_map.mp hmem.1
  exact ⟨i, rfl, fun his => hmem.2 (List.mem_map_of_mem his), List.mem_range.mp hi⟩

/-- **One honest answer.**  It can be processed, and it extends the answered
slots by one. -/
theorem Honest.answer (transferID fileID : Ident) {content : List UInt8} {slots : List Nat}
    {es : List Effect} {t : Task} (h : Honest content slots es t)
    (hbound : content.length < 2 ^ 63) {i : Nat} (hnew : i ∉ slots)
    (hreq : i < min (gridSlots content.length) (slots.length + kPipelineDepth)) :
    ∃ t' es', handleChunkData t
        (honestReply transferID fileID content (kDefaultChunkSize * i)) none =
          some (t', es') ∧ Honest content (slots ++ [i]) (es ++ es') t' := by
  have hnodup : (slots ++ [i]).Nodup := by
    rw [List.nodup_append]
    exact ⟨h.nodup, List.nodup_singleton i, fun a ha b hb hab =>
      hnew (by simpa [hab, List.mem_singleton.mp hb] using ha)⟩
  have hall : ∀ j ∈ slots ++ [i], j < gridSlots content.length := by
    intro j hj
    rcases List.mem_append.mp hj with hj | hj
    · exact h.slot_lt j hj
    · rw [List.mem_singleton.mp hj]
      exact hreq.trans_le (min_le_left _ _)
  have hlen : slots.length < gridSlots content.length := by
    have hsub : slots ++ [i] ⊆ List.range (gridSlots content.length) :=
      fun j hj => List.mem_range.mpr (hall j hj)
    simpa using (List.subperm_of_subset hnodup hsub).length_le
  have hsum := sum_slices_le hnodup hall
  simp only [List.map_append, List.map_cons, List.map_nil, List.sum_append, List.sum_cons,
    List.sum_nil, Nat.add_zero] at hsum
  have hwait := h.state
  rw [if_neg hlen.ne] at hwait
  have hwf := honestReply_wellFormed transferID fileID
    ((grid_lt_iff content.length i).mpr (hall i (by simp)))
  obtain ⟨t', hstep, hfile, hrecv, hstate⟩ := handleChunkData_reply hwait hbound hlen hwf (by
    rw [h.received]
    exact hsum.trans_lt hbound)
  refine ⟨t', _, hstep, hnodup, ?_, ?_, ?_, ?_, ?_, ?_⟩
  · intro j hj
    rw [List.length_append, List.length_singleton]
    rcases List.mem_append.mp hj with hj | hj
    · exact lt_window_succ (h.bound j hj)
    · rw [List.mem_singleton.mp hj]
      exact lt_window_succ hreq
  · rw [requestsOf_append, h.requests, requestsOf_replyEffects, List.length_append,
      List.length_singleton, window_succ]
    by_cases hgrid : slots.length + kPipelineDepth < gridSlots content.length
    · rw [if_pos hgrid, if_pos hgrid, min_eq_right hgrid.le, List.range_succ,
        List.map_append]
      rfl
    · rw [if_neg hgrid, if_neg hgrid, List.append_nil]
  · rw [completionsOf_append, h.completions, if_neg hlen.ne, completionsOf_replyEffects,
      List.nil_append, List.length_append, List.length_singleton]
  · rw [hrecv, h.received]
    simp [honestReply]
  · rw [hfile, h.file, List.map_append, writeAll_append]
    rfl
  · simpa using hstate

/-- Launching is the empty honest run. -/
theorem honest_launched {transferID fileID : Ident} {destPath : String}
    {content : List UInt8} (hpos : 0 < content.length) (hbound : content.length < 2 ^ 63)
    {t : Task} {es : List Effect}
    (h : launch transferID fileID content.length destPath = some (t, es)) :
    Honest content [] es t := by
  obtain ⟨t', hlaunch, hwait, hfile, hrecv⟩ :=
    launch_awaiting transferID fileID destPath hpos hbound
  rw [hlaunch] at h
  cases h
  have hslots := gridSlots_pos hpos
  refine ⟨List.nodup_nil, by simp, ?_, ?_, by simpa using hrecv, by simpa using hfile, ?_⟩
  · rw [requestsOf_requests, Nat.min_comm, List.length_nil, Nat.zero_add]
  · rw [completionsOf_requests, List.length_nil, if_neg (by omega)]
  · rw [List.length_nil, if_neg (by omega)]
    exact hwait

/-- **The honest invariant** along every order of answers. -/
theorem HonestRun.honest {transferID fileID : Ident} {destPath : String}
    {content : List UInt8} (hpos : 0 < content.length) (hbound : content.length < 2 ^ 63)
    {answered : List Nat} {es : List Effect} {t : Task}
    (h : HonestRun transferID fileID destPath content answered es t) :
    ∃ slots, answered = slots.map (kDefaultChunkSize * ·) ∧ Honest content slots es t := by
  induction h with
  | launched h => exact ⟨[], rfl, honest_launched hpos hbound h⟩
  | answer _ request reply ih =>
      obtain ⟨slots, rfl, hslots⟩ := ih
      obtain ⟨i, rfl, hnew, hreq⟩ := hslots.mem_outstanding request
      obtain ⟨t', es', hstep, hnext⟩ := hslots.answer _ _ hbound hnew hreq
      rw [hstep] at reply
      cases reply
      exact ⟨slots ++ [i], by simp, hnext⟩

/-- Once every slot has been answered the destination holds the content. -/
theorem Honest.file_eq {content : List UInt8} {slots : List Nat} {es : List Effect} {t : Task}
    (h : Honest content slots es t) (hall : slots.length = gridSlots content.length) :
    t.file = some content := by
  rw [h.file]
  congr 1
  have hne : ∀ b ∈ slots.map (fun i => (kDefaultChunkSize * i,
      slice content (kDefaultChunkSize * i))), b.2 ≠ [] := by
    intro b hb
    obtain ⟨i, hi, rfl⟩ := List.mem_map.mp hb
    exact (honestReply_wellFormed [] [] ((grid_lt_iff _ i).mpr (h.slot_lt i hi))).2
  have hpos : ∀ x < content.length, ∃ b ∈ slots.map (fun i => (kDefaultChunkSize * i,
      slice content (kDefaultChunkSize * i))), b.1 ≤ x ∧ x < blockEnd b := by
    intro x hx
    obtain ⟨hslot, hlo, hhi⟩ := slot_of_position hx
    refine ⟨_, List.mem_map_of_mem (mem_of_nodup_slots h.nodup hall h.slot_lt hslot), hlo, ?_⟩
    simp only [blockEnd, length_slice]
    omega
  have hlen : (writeAll 0 [] (slots.map (fun i => (kDefaultChunkSize * i,
      slice content (kDefaultChunkSize * i))))).length = content.length := by
    refine (Covers.length_writeAll_eq_iff hpos 0 hne).mpr ?_
    intro b hb
    obtain ⟨i, hi, rfl⟩ := List.mem_map.mp hb
    have := (grid_lt_iff content.length i).mpr (h.slot_lt i hi)
    simp only [blockEnd, length_slice]
    omega
  apply List.ext_getElem?
  intro x
  by_cases hx : x < content.length
  · obtain ⟨b, hb, hlo, hhi⟩ := hpos x hx
    refine writeAll_agrees 0 content _ ?_ hne hb hlo hhi []
    intro c hc j hj
    obtain ⟨i, -, rfl⟩ := List.mem_map.mp hc
    have hj' : j < kDefaultChunkSize := by
      rw [length_slice] at hj
      omega
    simp only [slice]
    rw [List.getElem?_take_of_lt hj', List.getElem?_drop]
  · rw [List.getElem?_eq_none (by omega), List.getElem?_eq_none (by omega)]

/-- **The honest download.**  Whatever the order of the answers, at most
`kPipelineDepth` requests are outstanding, every request is a grid offset
sent once, every outstanding request can still be answered, and the task
calls its completion once, with `nil`, when and only when the last of the
`gridSlots` answers has been processed; the file is then the content. -/
theorem honest_download (transferID fileID : Ident) (destPath : String)
    (content : List UInt8) (hpos : 0 < content.length) (hbound : content.length < 2 ^ 63) :
    (∃ es t, HonestRun transferID fileID destPath content [] es t) ∧
    ∀ answered es t, HonestRun transferID fileID destPath content answered es t →
      (outstanding answered es).length ≤ kPipelineDepth ∧
      (requestsOf es).Nodup ∧
      (∀ offset ∈ requestsOf es, kDefaultChunkSize ∣ offset ∧ offset < content.length) ∧
      (∀ offset ∈ outstanding answered es, ∃ es' t',
        HonestRun transferID fileID destPath content (answered ++ [offset]) (es ++ es') t') ∧
      answered.length ≤ gridSlots content.length ∧
      (answered.length < gridSlots content.length →
        outstanding answered es ≠ [] ∧ completionsOf es = []) ∧
      (answered.length = gridSlots content.length →
        outstanding answered es = [] ∧ completionsOf es = [none] ∧
        (∀ offset, kDefaultChunkSize ∣ offset → offset < content.length →
          offset ∈ requestsOf es) ∧
        t.file = some content) := by
  refine ⟨?_, ?_⟩
  · obtain ⟨t, hlaunch, -⟩ := launch_awaiting transferID fileID destPath hpos hbound
    exact ⟨_, t, .launched hlaunch⟩
  · intro answered es t hrun
    have hdepth : kPipelineDepth = 4 := rfl
    obtain ⟨slots, rfl, h⟩ := hrun.honest hpos hbound
    have hout := h.length_outstanding
    have hle := h.length_le
    refine ⟨by omega, h.requests_nodup, ?_, ?_, by simpa using hle, ?_, ?_⟩
    · intro offset ho
      rw [h.requests] at ho
      obtain ⟨i, hi, rfl⟩ := List.mem_map.mp ho
      have hlt := (List.mem_range.mp hi).trans_le (min_le_left _ _)
      exact ⟨⟨i, rfl⟩, (grid_lt_iff content.length i).mpr hlt⟩
    · intro offset ho
      obtain ⟨i, rfl, hnew, hreq⟩ := h.mem_outstanding ho
      obtain ⟨t', es', hstep, -⟩ := h.answer transferID fileID hbound hnew hreq
      exact ⟨es', t', .answer hrun ho hstep⟩
    · intro hlt
      rw [List.length_map] at hlt
      refine ⟨?_, by rw [h.completions, if_neg (by omega)]⟩
      intro hnil
      rw [hnil, List.length_nil] at hout
      omega
    · intro heq
      rw [List.length_map] at heq
      refine ⟨?_, by rw [h.completions, if_pos heq], ?_, h.file_eq heq⟩
      · exact List.length_eq_zero_iff.mp (by omega)
      · rintro offset ⟨i, rfl⟩ ho
        rw [h.requests, heq, min_eq_left (by omega)]
        exact List.mem_map_of_mem (List.mem_range.mpr ((grid_lt_iff _ i).mp ho))

/-- A three-byte file, through its only request. -/
theorem honest_download_three_bytes :
    ∃ es t, HonestRun ['t'] ['f'] "out" [1, 2, 3] [0] es t ∧ t.file = some [1, 2, 3] := by
  have hlaunched : HonestRun ['t'] ['f'] "out" [1, 2, 3] [] [.request 0]
      { transferID := ['t'], fileID := ['f'], fileSize := 3, destPath := "out",
        fileHandle := true, nextRequestOffset := 262144, inFlight := 1,
        sendRequest := true, file := some [] } := .launched (by decide)
  have hanswered : HonestRun ['t'] ['f'] "out" [1, 2, 3] ([] ++ [0])
      ([.request 0] ++ [.write 0 [1, 2, 3], .completion none])
      { transferID := ['t'], fileID := ['f'], fileSize := 3, destPath := "out",
        receivedBytes := 3, nextRequestOffset := 262144, isFinished := true,
        sendRequest := true, file := some [1, 2, 3] } :=
    .answer hlaunched (by decide) (by decide)
  have hall := (honest_download ['t'] ['f'] "out" [1, 2, 3] (by decide) (by decide)).2
    _ _ _ hanswered
  exact ⟨_, _, hanswered, (hall.2.2.2.2.2.2 (by decide)).2.2.2⟩

end FileDownloadTask
