import ClipboardHelper.LinuxStages

/-!
# How the Linux helper comes to its end

`SocketServer::Stop` takes `client_mutex_` to shut the client's socket down,
which is to end a pending `write`; but whoever writes holds the mutex.  A
client that does not read is therefore waited for (`stop_waits_for_client`).

**`helper_returns`**: in every run, once there is a reason to end, the threads
come to rest after so many steps of their own, and then the helper has
returned, unless a write waits for a client that neither reads nor goes away,
or the main thread for the consumer of a paste.  **`nothing_left_open`**: no
descriptor is opened or closed twice, the client's end is told once at most,
and all is closed when the helper has returned.  **`callbacks_end`**: no
callback runs on a destroyed dispatcher unless a detached thread holds one
when it is destroyed.
-/

namespace LinuxLifetime

open Library FrameTransport

variable {onConnect : Bytes} {s s' : Helper} {a : Action} {h os : List Obs}

/-- The threads of the helper have nothing to do. -/
abbrev Rests (onConnect : Bytes) (s : Helper) : Prop :=
  (machine onConnect).AtRest (fun a => a.own = true) s

/-- A write waits for a client that neither reads nor goes away, or the main
thread for the consumer of a paste. -/
def Waits (s : Helper) : Prop :=
  s.main = .pasting ∨ ∃ c w, s.client = some c ∧ s.lock = some w ∧
    c.room = 0 ∧ c.gone = false ∧ c.shut = false

/-- The parent asks the helper to end. -/
def AsksShutdown (frame : Bytes) : Prop :=
  ∃ msg, LinuxCodec.parseHelperMessage frame = some msg ∧ msg.type = .shutdown

/-- The client has gone, or asks the helper to end. -/
def Client.Ends (c : Client) : Prop :=
  c.gone = true ∨ ∃ frame, .frame frame ∈ c.inbox ∧ AsksShutdown frame

/-- There is a reason to end. -/
def Due (s : Helper) : Prop :=
  s.quit = true ∨ s.signalled = true ∨ (s.watchdog = .polling ∧ s.parent = false) ∨
    (∃ frame, s.worker = .handling frame ∧ AsksShutdown frame) ∨
    ∃ c, s.client = some c ∧ c.Ends

/-- Whoever waits for nobody does not hold the mutex. -/
theorem lock_eq_none_of_rest (hi : Sane s) (halive : s.main.over = false)
    (hrest : Rests onConnect s) (hwaits : ¬ Waits s) :
    s.lock = none := by
  by_contra hlock
  obtain ⟨w, hlock⟩ := Option.ne_none_iff_exists'.mp hlock
  have hfd := hi.wired.published (by rw [hlock]; nofun)
  rw [hi.session.clientFd] at hfd
  obtain ⟨c, hclient⟩ :=
    Option.ne_none_iff_exists'.mp (hi.session.client (Worker.holds_of_serves hfd))
  have hsend := hrest (.send 0) rfl
  simp only [machine, halive, Bool.false_eq_true, if_false, send, hlock, hclient] at hsend
  refine hwaits (.inr ⟨c, w, hclient, hlock, ?_⟩)
  split at hsend
  · cases hsend
  · rename_i hopen
    obtain ⟨hgone, hshut⟩ := not_or.mp hopen
    split at hsend
    · rename_i hroom
      exact ⟨hroom, Bool.eq_false_iff.mpr hgone, Bool.eq_false_iff.mpr hshut⟩
    · split at hsend <;> cases hsend

/-- Where the worker can be at rest. -/
theorem worker_of_rest (halive : s.main.over = false) (hlock : s.lock = none)
    (hrest : Rests onConnect s) :
    s.worker = .unborn ∨ s.worker = .writing ∨ s.worker = .returned ∨
      (s.worker = .accepting ∧ s.listening = true ∧ s.client = none) ∨
      (s.worker = .reading ∧ ∀ c, s.client = some c →
        c.inbox = [] ∧ c.gone = false ∧ c.shut = false) := by
  cases hw : s.worker with
  | unborn => exact .inl rfl
  | writing => exact .inr (.inl rfl)
  | returned => exact .inr (.inr (.inl rfl))
  | accepting =>
      have haccept := hrest .accept rfl
      simp only [machine, halive, workerStep, hw] at haccept
      refine .inr (.inr (.inr (.inl ⟨rfl, ?_⟩)))
      grind
  | reading =>
      have hread := hrest .read rfl
      simp only [machine, halive, workerStep, hw] at hread
      refine .inr (.inr (.inr (.inr ⟨rfl, fun c hclient => ?_⟩)))
      grind
  | loading => have := hrest .load rfl; simp [machine, halive, workerStep, hw] at this
  | testing => have := hrest .test rfl; simp [machine, halive, workerStep, hw] at this
  | refused => have := hrest .look rfl; simp [machine, halive, workerStep, hw] at this
  | accepted => have := hrest .publish rfl; simp [machine, halive, workerStep, hw, hlock] at this
  | greeting =>
      have := hrest .greet rfl
      simp only [machine, halive, workerStep, hw, hlock] at this
      grind
  | serving => have := hrest .serve rfl; simp [machine, halive, workerStep, hw] at this
  | handling frame =>
      have := hrest (.handle [] 0) rfl
      simp only [machine, halive, workerStep, hw] at this
      grind
  | replying reply =>
      have := hrest .reply rfl
      simp only [machine, halive, workerStep, hw, hlock] at this
      grind
  | withdrawing =>
      have := hrest .withdraw rfl
      simp [machine, halive, workerStep, hw, hlock] at this
  | closing => have := hrest .close rfl; simp [machine, halive, workerStep, hw] at this
  | firing => have := hrest .disconnect rfl; simp [machine, halive, workerStep, hw] at this

/-- Where the main thread can be at rest. -/
theorem main_of_rest (halive : s.main.over = false) (hlock : s.lock = none)
    (hrest : Rests onConnect s) :
    s.main = .writing ∨ s.main = .pasting ∨
      (s.main = .running ∧ s.quit = false ∧ s.signalled = false) ∨
      (s.main = .joiningWatchdog ∧ s.watchdog = .polling) ∨
      (s.main = .joiningWorker ∧ s.worker ≠ .returned) := by
  cases hm : s.main with
  | writing => exact .inl rfl
  | pasting => exact .inr (.inl rfl)
  | running =>
      have hquit := hrest .leaveLoop rfl
      have hsignalled := hrest .notifier rfl
      simp only [machine, mainStep, hm] at hquit hsignalled
      refine .inr (.inr (.inl ⟨rfl, ?_⟩))
      grind
  | joiningWatchdog =>
      have hjoin := hrest .joinWatchdog rfl
      simp only [machine, mainStep, hm] at hjoin
      refine .inr (.inr (.inr (.inl ⟨rfl, ?_⟩)))
      grind
  | joiningWorker =>
      have hjoin := hrest .joinWorker rfl
      simp only [machine, mainStep, hm] at hjoin
      refine .inr (.inr (.inr (.inr ⟨rfl, ?_⟩)))
      grind
  | starting =>
      have := hrest (.start .socketFails) rfl
      simp [machine, mainStep, hm, Main.over] at this
  | watching => have := hrest (.watch false) rfl; simp [machine, mainStep, hm, Main.over] at this
  | sending frame awaits =>
      have := hrest .sendFrame rfl
      simp [machine, mainStep, hm, hlock, Main.over] at this
  | awaiting => have := hrest .wake rfl; simp [machine, mainStep, hm, Main.over] at this
  | quitting => have := hrest .stopWatchdog rfl; simp [machine, mainStep, hm, Main.over] at this
  | stopping => have := hrest .stop rfl; simp [machine, mainStep, hm, Main.over] at this
  | closing => have := hrest .closeListener rfl; simp [machine, mainStep, hm, Main.over] at this
  | shutting =>
      have := hrest .shutdownClient rfl
      simp [machine, mainStep, hm, hlock, Main.over] at this
  | detaching => have := hrest .detach rfl; simp [machine, mainStep, hm, Main.over] at this
  | destroying => have := hrest .destroy rfl; simp [machine, mainStep, hm, Main.over] at this
  | exiting => have := hrest .exit rfl; simp [machine, mainStep, hm, Main.over] at this
  | failed | returned => rw [hm] at halive; cases halive

/-- The watchdog rests while there is nothing to see. -/
theorem watchdog_of_rest (halive : s.main.over = false)
    (hrest : Rests onConnect s) (hpolling : s.watchdog = .polling) :
    s.watchdogStop = false ∧ s.parent = true := by
  have hpoll := hrest .poll rfl
  simp only [machine, halive, poll, hpolling] at hpoll
  grind

theorem Calls.rest {owner : Owner} {frame : Bytes} {t : Helper}
    (hcalls : Calls onConnect s a owner frame t) :
    t.quit = s.quit ∧ t.signalled = s.signalled ∧ t.watchdog = s.watchdog ∧
      t.parent = s.parent ∧ t.client = s.client ∧ t.listening = s.listening := by
  cases hcalls <;> exact ⟨rfl, rfl, rfl, rfl, rfl, rfl⟩

/-- A quit that is posted stays, and so does a client that has gone. -/
theorem quit_step (hstep : Step onConnect s a os s') (hquit : s.quit = true) : s'.quit = true := by
  cases hstep with
  | skips hcalls => simp [hcalls.rest.1, hquit]
  | begins hcalls => simp [hcalls.rest.1, hquit]
  | sendFails | sendsAll => simp [hquit]
  | _ => first | exact hquit | rfl

theorem signalled_step (hstep : Step onConnect s a os s') (hsignalled : s.signalled = true) :
    s'.quit = true ∨ s'.signalled = true := by
  cases hstep with
  | notified => exact .inl rfl
  | skips hcalls => simp [hcalls.rest.2.1, hsignalled]
  | begins hcalls => simp [hcalls.rest.2.1, hsignalled]
  | sendFails | sendsAll => simp [hsignalled]
  | signals => exact .inr rfl
  | _ => exact .inr hsignalled

theorem parent_step (hi : Stages s) (hstep : Step onConnect s a os s')
    (hpolling : s.watchdog = .polling) (hparent : s.parent = false) :
    s'.quit = true ∨ (s'.watchdog = .polling ∧ s'.parent = false) := by
  cases hstep with
  | watches _ h => rw [hparent] at h; cases h
  | watchdogReturns _ hstop =>
      have hfar := hi.watchdogStop.mp hstop
      exact .inl (hi.quit (by omega))
  | fires => exact .inl rfl
  | skips hcalls =>
      obtain ⟨-, -, hwatchdog, hp, -⟩ := hcalls.rest
      simp [hwatchdog, hp, hpolling, hparent]
  | begins hcalls =>
      obtain ⟨-, -, hwatchdog, hp, -⟩ := hcalls.rest
      simp [hwatchdog, hp, hpolling, hparent]
  | sendFails | sendsAll => simp [hpolling, hparent]
  | parentDies => exact .inr ⟨hpolling, rfl⟩
  | _ => exact .inr ⟨hpolling, hparent⟩

theorem handle_of_asksShutdown {frame : Bytes} (hasks : AsksShutdown frame) (clock : UInt64) :
    LinuxDispatch.handle frame clock = .shutdown := by
  obtain ⟨msg, hparse, htype⟩ := hasks
  simp only [LinuxDispatch.handle, hparse, htype]
  rw [if_neg (by decide), if_neg (by decide), if_neg (by decide), if_neg (by decide),
    if_pos trivial]

theorem handling_step (hi : Sane s) (hstep : Step onConnect s a os s') {frame : Bytes}
    (hhandling : s.worker = .handling frame) (hasks : AsksShutdown frame) :
    s'.quit = true ∨ s'.worker = .handling frame := by
  have hkept : ∀ w, s.lock = some w → ∀ (t : Helper) (ok : Bool), t.worker = s.worker →
      (t.wrote ok w.owner).worker = .handling frame := by
    intro w hlock t ok ht
    cases howner : w.owner with
    | main | detached => exact ht.trans hhandling
    | greeting | reply =>
        have hwriting := (hi.writes hlock).2 (by rw [howner]; rfl)
        rw [hhandling] at hwriting
        cases hwriting
  cases hstep with
  | shutsDown => exact .inl rfl
  | answers h hother | performs h hother =>
      rw [hhandling] at h
      cases h
      exact absurd (handle_of_asksShutdown hasks _) hother
  | listens h =>
      rw [hi.stages.unborn.mpr (by rw [h]; rfl)] at hhandling
      cases hhandling
  | loads h | tests h | looks h | serves h | accepts h | refused h | silent h | reads h | ended h
  | unanswered h | clientCloses h | disconnects h | publishes h | withdraws h =>
      rw [hhandling] at h
      cases h
  | sendFails hlock => exact .inr (hkept _ hlock _ _ rfl)
  | sendsAll hlock => exact .inr (hkept _ hlock _ _ rfl)
  | skips hcalls | begins hcalls =>
      cases hcalls with
      | callback | detached => exact .inr hhandling
      | greeting h | reply h =>
          rw [hhandling] at h
          cases h
  | _ => exact .inr hhandling

theorem client_step (hstep : Step onConnect s a os s') {c : Client} (hclient : s.client = some c)
    (hends : c.Ends) :
    (∃ frame, s'.worker = .handling frame ∧ AsksShutdown frame) ∨
      ∃ c', s'.client = some c' ∧ c'.Ends := by
  cases hstep with
  | shuts =>
      refine .inr ⟨{ c with shut := c.shut || s.clientFd }, ?_, hends⟩
      simp [hclient]
  | @reads c₀ payload rest _ hc hinbox =>
      rw [hclient] at hc
      cases hc
      rcases hends with hgone | ⟨frame, hframe, hasks⟩
      · exact .inr ⟨_, rfl, .inl hgone⟩
      · rw [hinbox] at hframe
        rcases List.mem_cons.mp hframe with heq | hrest
        · cases heq
          exact .inl ⟨payload, rfl, hasks⟩
        · exact .inr ⟨_, rfl, .inr ⟨frame, hrest, hasks⟩⟩
  | connects hnone =>
      rw [hclient] at hnone
      cases hnone
  | outside _ hc _ hgone hinbox =>
      rw [hclient] at hc
      cases hc
      exact .inr ⟨_, rfl, hends.imp hgone fun ⟨frame, hframe, hasks⟩ =>
        ⟨frame, hinbox _ hframe, hasks⟩⟩
  | sends _ hc =>
      rw [hclient] at hc
      cases hc
      exact .inr ⟨_, rfl, hends⟩
  | sendsAll _ hc =>
      rw [hclient] at hc
      cases hc
      exact .inr ⟨_, wrote_client _ _ _, hends⟩
  | sendFails => exact .inr ⟨c, (wrote_client _ _ _).trans hclient, hends⟩
  | skips hcalls =>
      obtain ⟨-, -, -, -, hc, -⟩ := hcalls.rest
      exact .inr ⟨c, (wrote_client _ _ _).trans (hc.trans hclient), hends⟩
  | begins hcalls =>
      obtain ⟨-, -, -, -, hc, -⟩ := hcalls.rest
      exact .inr ⟨c, (writing_client _ _).trans (hc.trans hclient), hends⟩
  | _ => exact .inr ⟨c, hclient, hends⟩

/-- **A reason to end stays one.** -/
theorem due_step (hi : Sane s) (hstep : Step onConnect s a os s') (hdue : Due s) : Due s' := by
  rcases hdue with hquit | hsignalled | ⟨hpolling, hparent⟩ | ⟨frame, hhandling, hasks⟩ |
    ⟨c, hclient, hends⟩
  · exact .inl (quit_step hstep hquit)
  · exact (signalled_step hstep hsignalled).imp_right .inl
  · exact (parent_step hi.stages hstep hpolling hparent).imp_right fun h => .inr (.inl h)
  · exact (handling_step hi hstep hhandling hasks).imp_right fun h =>
      .inr (.inr (.inl ⟨frame, h, hasks⟩))
  · rcases client_step hstep hclient hends with h | h
    · exact .inr (.inr (.inr (.inl h)))
    · exact .inr (.inr (.inr (.inr h)))

/-- **At rest for a reason**: the helper has returned, or waits. -/
theorem over_of_rest (hi : Sane s)
    (hrest : Rests onConnect s) (hdue : Due s)
    (hwaits : ¬ Waits s) : s.main.over = true := by
  by_contra hover
  have halive := Bool.eq_false_iff.mpr hover
  have hlock := lock_eq_none_of_rest hi halive hrest hwaits
  obtain ⟨hmain, hworker⟩ := hi.wired.free hlock
  have hstages := hi.stages
  rcases main_of_rest halive hlock hrest with h | h | ⟨h, hquit, hsignalled⟩ | ⟨h, hpolling⟩ |
    ⟨h, hreturned⟩
  · exact hmain h
  · exact hwaits (.inl h)
  · have hrank : s.main.rank = 2 := by rw [h]; rfl
    have hstop : s.stop = false := Bool.eq_false_iff.mpr fun hstop => by
      have hfar := hstages.stop.mp hstop
      omega
    have hserving : s.worker ≠ .unborn ∧ s.worker ≠ .returned := by
      refine ⟨fun hw => ?_, fun hw => ?_⟩
      · have hstart := hstages.unborn.mp hw
        omega
      · rcases hstages.ended hw with hended | hended
        · rw [hquit] at hended
          cases hended
        · rw [hstop] at hended
          cases hended
    rcases hdue with hdue | hdue | ⟨hpolling, hparent⟩ | ⟨frame, hhandling, -⟩ | ⟨c, hclient, hdue⟩
    · rw [hquit] at hdue
      cases hdue
    · rw [hsignalled] at hdue
      cases hdue
    · rw [(watchdog_of_rest halive hrest hpolling).2] at hparent
      cases hparent
    · rcases worker_of_rest halive hlock hrest with hw | hw | hw | ⟨hw, -⟩ | ⟨hw, -⟩ <;>
        · rw [hhandling] at hw
          cases hw
    · rcases worker_of_rest halive hlock hrest with hw | hw | hw | ⟨-, -, hnone⟩ | ⟨-, hread⟩
      · exact hserving.1 hw
      · exact hworker hw
      · exact hserving.2 hw
      · rw [hclient] at hnone
        cases hnone
      · obtain ⟨hinbox, hgone, -⟩ := hread c hclient
        rcases hdue with hdue | ⟨frame, hframe, -⟩
        · rw [hgone] at hdue
          cases hdue
        · rw [hinbox] at hframe
          cases hframe
  · have hset := hstages.watchdogStop.mpr (by rw [h]; decide)
    rw [(watchdog_of_rest halive hrest hpolling).1] at hset
    cases hset
  · have hrank : s.main.rank = 8 := by rw [h]; rfl
    rcases worker_of_rest halive hlock hrest with hw | hw | hw | ⟨-, hlistening, -⟩ | ⟨hw, hread⟩
    · have hstart := hstages.unborn.mp hw
      omega
    · exact hworker hw
    · exact hreturned hw
    · have hearly := (hstages.listening.mp hlistening).2
      omega
    · obtain ⟨c, hclient⟩ := Option.ne_none_iff_exists'.mp (hi.session.client (by rw [hw]; rfl))
      have hshut := hstages.shut (by omega) hw c hclient
      rw [(hread c hclient).2.2] at hshut
      cases hshut

/-- **The helper returns**, once there is a reason to end: from then on its
threads take at most so many steps in a row without the outside, and wherever
they have come to rest, whatever has happened outside in between, `main` has
returned; unless a write waits for a client that neither reads nor goes away,
or the main thread for the consumer of a paste. -/
theorem helper_returns (hrun : (machine onConnect).Run Machine.always {} h s) (hdue : Due s)
    {later : List Obs} (hlater : (machine onConnect).Run Machine.always s later s') :
    (∀ as t os, (∀ a ∈ as, a.own = true) → (machine onConnect).exec s' as = some (t, os) →
        as.length ≤ effort onConnect s') ∧
      (Rests onConnect s' → Waits s' ∨ s'.main.over = true) := by
  have hkept : Sane s' ∧ Due s' := by
    refine hlater.state_invariant (fun t => Sane t ∧ Due t) ⟨run_sane hrun, hdue⟩ ?_
    rintro t a t' os ⟨hi, hd⟩ - hstep
    exact ⟨step_sane hi hstep, due_step hi (step_cases hstep).2 hd⟩
  constructor
  · intro as t os hown hexec
    have hle := Machine.length_le_of_uses_up uses_up hkept.1 hown hexec
    omega
  · intro hrest
    by_cases hwaits : Waits s'
    · exact .inl hwaits
    · exact .inr (over_of_rest hkept.1 hrest hkept.2 hwaits)

/-! ## What is open -/

def Obs.opened? (d : Descriptor) : Obs → Bool
  | .opened d' => d' = d
  | _ => false

def Obs.closed? (d : Descriptor) : Obs → Bool
  | .closed d' => d' = d
  | _ => false

def Obs.asked? (r : Reason) : Obs → Bool
  | .asked r' => r' = r
  | _ => false

/-- The descriptor is open. -/
def Helper.open? (s : Helper) : Descriptor → Bool
  | .listener => s.listening
  | .client => s.worker.holds

/-- The descriptor has been open or will not be. -/
def Helper.past (s : Helper) : Descriptor → Bool
  | .listener => s.main ≠ .starting
  | .client => match s.worker with
    | .unborn | .loading | .testing | .accepting => false
    | _ => true

structure Accounted (h : List Obs) (s : Helper) : Prop where
  balanced : ∀ d, h.countP (Obs.opened? d) = h.countP (Obs.closed? d) + (s.open? d).toNat
  once : ∀ d, h.countP (Obs.opened? d) ≤ (s.past d).toNat
  told : h.countP (Obs.asked? .disconnected) ≤ (decide (s.worker = .returned)).toNat
  why : s.quit = true → ∃ r, .asked r ∈ h

theorem Accounted.after (hi : Accounted h s)
    (hbalanced : ∀ d, os.countP (Obs.opened? d) + (s.open? d).toNat =
      os.countP (Obs.closed? d) + (s'.open? d).toNat)
    (honce : ∀ d, os.countP (Obs.opened? d) + (s.past d).toNat ≤ (s'.past d).toNat)
    (htold : os.countP (Obs.asked? .disconnected) + (decide (s.worker = .returned)).toNat ≤
      (decide (s'.worker = .returned)).toNat)
    (hwhy : s'.quit = true → s.quit = true ∨ ∃ r, .asked r ∈ os) : Accounted (h ++ os) s' where
  balanced d := by
    have hsofar := hi.balanced d
    have hstep := hbalanced d
    rw [List.countP_append, List.countP_append]
    omega
  once d := by
    have hsofar := hi.once d
    have hstep := honce d
    rw [List.countP_append]
    omega
  told := by
    have hsofar := hi.told
    rw [List.countP_append]
    omega
  why hquit := by
    rcases hwhy hquit with hbefore | ⟨r, hr⟩
    · obtain ⟨r, hr⟩ := hi.why hbefore
      exact ⟨r, List.mem_append_left os hr⟩
    · exact ⟨r, List.mem_append_right h hr⟩

/-- Steps that neither open nor close anything, and post no quit. -/
theorem Accounted.quiet (hi : Accounted h s) (hopen : ∀ d, s'.open? d = s.open? d)
    (hpast : ∀ d, s.past d = true → s'.past d = true)
    (hreturned : s.worker = .returned → s'.worker = .returned) (hquit : s'.quit = s.quit)
    (hos : ∀ o ∈ os, ∃ frame, o = .handled frame) : Accounted (h ++ os) s' := by
  have hnone : ∀ p : Obs → Bool, (∀ frame, p (.handled frame) = false) → os.countP p = 0 := by
    intro p hp
    refine List.countP_eq_zero.mpr fun o ho => ?_
    obtain ⟨frame, rfl⟩ := hos o ho
    rw [hp]
    exact Bool.false_ne_true
  refine hi.after (fun d => ?_) (fun d => ?_) ?_ fun h => .inl (hquit ▸ h)
  · rw [hnone _ fun _ => rfl, hnone _ fun _ => rfl, hopen]
  · rw [hnone _ fun _ => rfl, Nat.zero_add]
    cases hp : s.past d with
    | false => exact Nat.zero_le _
    | true => rw [hpast d hp]
  · rw [hnone _ fun _ => rfl, Nat.zero_add]
    by_cases hw : s.worker = .returned
    · rw [decide_eq_true hw, decide_eq_true (hreturned hw)]
    · rw [decide_eq_false hw]
      exact Nat.zero_le _

theorem Accounted.silent (hi : Accounted h s) (hopen : ∀ d, s'.open? d = s.open? d)
    (hpast : ∀ d, s.past d = true → s'.past d = true)
    (hreturned : s.worker = .returned → s'.worker = .returned) (hquit : s'.quit = s.quit) :
    Accounted (h ++ []) s' :=
  hi.quiet hopen hpast hreturned hquit (List.forall_mem_nil _)

theorem wrote_quiet (hi : Accounted h s) {t : Helper} {owner : Owner} {ok : Bool}
    (hmain : t.main = s.main) (hworker : t.worker = s.worker)
    (hlistening : t.listening = s.listening)
    (hquit : t.quit = s.quit) (hserves : owner.thread = .worker → s.worker.serves = true) :
    Accounted (h ++ []) (t.wrote ok owner) := by
  have hopened : t.open? .client = s.open? .client := congrArg Worker.holds hworker
  cases owner with
  | main awaits =>
      refine hi.silent (fun d => ?_) (fun d hd => ?_) (fun hw => hworker.trans hw) hquit
      · cases d with
        | listener => exact hlistening
        | client => exact hopened
      · cases d with
        | listener => cases awaits <;> rfl
        | client =>
            simp only [Helper.past, Helper.wrote, hworker] at hd ⊢
            exact hd
  | detached =>
      refine hi.silent (fun d => ?_) (fun d hd => ?_) (fun hw => hworker.trans hw) hquit
      · cases d with
        | listener => exact hlistening
        | client => exact hopened
      · cases d <;> simp only [Helper.past, Helper.wrote, hworker, hmain] at hd ⊢ <;> exact hd
  | greeting | reply =>
      have hw := hserves rfl
      refine hi.silent (fun d => ?_) (fun d hd => ?_) (fun hr => ?_) hquit
      · cases d with
        | listener => exact hlistening
        | client =>
            simp only [Helper.open?, Worker.holds_of_serves hw]
            cases ok <;> rfl
      · cases d with
        | listener => simpa only [Helper.past, Helper.wrote, hmain] using hd
        | client => cases ok <;> rfl
      · rw [hr] at hw
        cases hw

theorem step_accounted (hsane : Sane s) (hi : Accounted h s) (hstep : Step onConnect s a os s') :
    Accounted (h ++ os) s' := by
  cases hstep with
  | failed hs hos =>
      rcases hos with rfl | rfl
      all_goals
        refine hi.after (fun d => ?_) (fun d => ?_) ?_ .inl
        · cases d <;> simp [Obs.opened?, Obs.closed?, Helper.open?]
        · cases d <;> simp [Obs.opened?, Helper.past, hs]
        · simp [Obs.asked?]
  | listens hs =>
      have hclosed : s.listening = false := by
        refine Bool.eq_false_iff.mpr fun hl => ?_
        have hborn := (hsane.stages.listening.mp hl).1
        rw [hs] at hborn
        exact absurd hborn (by decide)
      have hunborn := hsane.stages.unborn.mpr (by rw [hs]; rfl)
      refine hi.after (fun d => ?_) (fun d => ?_) ?_ .inl
      · cases d <;> simp [Obs.opened?, Obs.closed?, Helper.open?, hclosed, hunborn, Worker.holds,
          Worker.serves]
      · cases d <;> simp [Obs.opened?, Helper.past, hs, hunborn]
      · simp [Obs.asked?, hunborn]
  | watches | unwatched | left | watchdogStops | watchdogJoined | stops | shuts | workerJoined
  | detaches | destroys | exits | wakes | calledBack | pastes | pasted =>
      refine hi.silent (fun d => ?_) (fun d hd => ?_) id rfl
      · cases d <;> rfl
      · cases d with
        | listener => rfl
        | client => exact hd
  | orphaned | notified | fires =>
      refine hi.after (fun d => ?_) (fun d => ?_) ?_ fun _ => .inr ⟨_, List.mem_singleton_self _⟩
      · cases d <;> simp [Obs.opened?, Obs.closed?, Helper.open?]
      · cases d <;> simp_all [Obs.opened?, Helper.past]
      · simp [Obs.asked?]
  | listenerCloses hs =>
      have hopen : s.listening = true := hsane.stages.listening.mpr (by rw [hs]; decide)
      refine hi.after (fun d => ?_) (fun d => ?_) ?_ .inl
      · cases d <;> simp [Obs.opened?, Obs.closed?, Helper.open?, hopen]
      · cases d <;> simp [Obs.opened?, Helper.past, hs]
      · simp [Obs.asked?]
  | loads hs | tests hs =>
      refine hi.silent (fun d => ?_) (fun d hd => ?_) (fun hr => ?_) rfl
      · cases d with
        | listener => rfl
        | client =>
            simp only [Helper.open?, hs]
            split <;> rfl
      · cases d with
        | listener => exact hd
        | client =>
            simp [Helper.past, hs] at hd
      · rw [hs] at hr
        cases hr
  | looks hs | serves hs =>
      refine hi.silent (fun d => ?_) (fun d hd => ?_) (fun hr => ?_) rfl
      · cases d with
        | listener => rfl
        | client =>
            simp only [Helper.open?, hs]
            split <;> rfl
      · cases d with
        | listener => exact hd
        | client =>
            simp only [Helper.past]
            cases s.stop <;> rfl
      · rw [hs] at hr
        cases hr
  | refused hs | publishes hs | silent hs | reads hs | ended hs | unanswered hs | withdraws hs =>
      refine hi.silent (fun d => ?_) (fun d hd => ?_) (fun hr => ?_) rfl
      · cases d with
        | listener => rfl
        | client =>
            simp only [Helper.open?, hs]
            rfl
      · cases d with
        | listener => exact hd
        | client => rfl
      · rw [hs] at hr
        cases hr
  | answers hs | performs hs =>
      refine hi.quiet (fun d => ?_) (fun d hd => ?_) (fun hr => ?_) rfl fun o ho => ?_
      · cases d with
        | listener => rfl
        | client =>
            simp only [Helper.open?, hs]
            rfl
      · cases d with
        | listener => exact hd
        | client => rfl
      · rw [hs] at hr
        cases hr
      · exact ⟨_, List.mem_singleton.mp ho⟩
  | shutsDown hs =>
      refine hi.after (fun d => ?_) (fun d => ?_) ?_ fun _ => .inr ⟨.shutdown, by simp⟩
      · cases d <;> simp [Obs.opened?, Obs.closed?, Helper.open?, hs, Worker.holds, Worker.serves]
      · cases d <;> simp [Obs.opened?, Helper.past, hs]
      · simp [Obs.asked?, hs]
  | accepts hs =>
      refine hi.after (fun d => ?_) (fun d => ?_) ?_ .inl
      · cases d <;> simp [Obs.opened?, Obs.closed?, Helper.open?, hs, Worker.holds, Worker.serves]
      · cases d <;> simp [Obs.opened?, Helper.past, hs]
      · simp [Obs.asked?, hs]
  | clientCloses hs =>
      refine hi.after (fun d => ?_) (fun d => ?_) ?_ .inl
      · cases d <;> simp [Obs.opened?, Obs.closed?, Helper.open?, hs, Worker.holds, Worker.serves]
      · cases d <;> simp [Obs.opened?, Helper.past, hs]
      · simp [Obs.asked?, hs]
  | disconnects hs =>
      refine hi.after (fun d => ?_) (fun d => ?_) ?_ fun _ => .inr ⟨_, List.mem_singleton_self _⟩
      · cases d <;> simp [Obs.opened?, Obs.closed?, Helper.open?, hs, Worker.holds, Worker.serves]
      · cases d <;> simp [Obs.opened?, Helper.past, hs]
      · simp [Obs.asked?, hs]
  | dangles =>
      refine hi.after (fun d => ?_) (fun d => ?_) ?_ .inl
      · cases d <;> simp [Obs.opened?, Obs.closed?, Helper.open?]
      · cases d <;> simp [Obs.opened?, Helper.past]
      · simp [Obs.asked?]
  | watchdogReturns | copies | connects | outside | parentDies | signals | sends =>
      exact hi.silent (fun d => by cases d <;> rfl) (fun d hd => by cases d <;> exact hd) id rfl
  | sendFails hlock => exact wrote_quiet hi rfl rfl rfl rfl (hsane.serves hlock)
  | sendsAll hlock => exact wrote_quiet hi rfl rfl rfl rfl (hsane.serves hlock)
  | skips hcalls =>
      obtain ⟨hm, hw, -⟩ := hcalls.unchanged
      obtain ⟨hquit, -, -, -, -, hlistening⟩ := hcalls.rest
      exact wrote_quiet hi hm hw hlistening hquit hcalls.serves
  | @begins _ owner frame t hcalls =>
      obtain ⟨hm, hw, -⟩ := hcalls.unchanged
      obtain ⟨hquit, -, -, -, -, hlistening⟩ := hcalls.rest
      cases howner : owner.thread with
      | main =>
          refine hi.silent (fun d => ?_) (fun d hd => ?_) (fun hr => hw.trans hr) hquit
          · cases d with
            | listener => exact hlistening
            | client => exact congrArg Worker.holds hw
          · cases d with
            | listener => rfl
            | client =>
                simp only [Helper.past, Helper.writing, hw] at hd ⊢
                exact hd
      | detached =>
          refine hi.silent (fun d => ?_) (fun d hd => ?_) (fun hr => hw.trans hr) hquit
          · cases d with
            | listener => exact hlistening
            | client => exact congrArg Worker.holds hw
          · cases d <;> simp only [Helper.past, Helper.writing, hw, hm] at hd ⊢ <;> exact hd
      | worker =>
          have hserves := hcalls.serves howner
          refine hi.silent (fun d => ?_) (fun d hd => ?_) (fun hr => ?_) hquit
          · cases d with
            | listener => exact hlistening
            | client =>
                exact (Worker.holds_of_serves hserves).symm
          · cases d with
            | listener => simpa only [Helper.past, Helper.writing, hm] using hd
            | client => rfl
          · rw [hr] at hserves
            cases hserves

/-- **Nothing is left open**: a descriptor is closed at most as often as it
was opened, once at most, the client's end is told once at most, and the loop
is left for a reason; and when `main` has returned, everything that was opened
is closed and the worker and the watchdog have returned or were never
started. -/
theorem nothing_left_open (hrun : (machine onConnect).Run Machine.always {} h s) :
    (∀ d, h.countP (Obs.closed? d) ≤ h.countP (Obs.opened? d) ∧
        h.countP (Obs.opened? d) ≤ 1) ∧
      h.countP (Obs.asked? .disconnected) ≤ 1 ∧
      (3 ≤ s.main.rank → ∃ r, .asked r ∈ h) ∧
      (s.main.over = true →
        (∀ d, h.countP (Obs.closed? d) = h.countP (Obs.opened? d)) ∧
        (s.worker = .returned ∨ s.worker = .unborn) ∧ s.watchdog ≠ .polling) := by
  have hi := run_sane hrun
  have hkept : Sane s ∧ Accounted h s := by
    refine hrun.history_invariant (fun h s => Sane s ∧ Accounted h s)
      ⟨sane_initial, fun d => by cases d <;> rfl, fun _ => Nat.zero_le _, Nat.zero_le _, nofun⟩ ?_
    rintro h s a s' os ⟨hs, ha⟩ - hstep
    exact ⟨step_sane hs hstep, step_accounted hs ha (step_cases hstep).2⟩
  obtain ⟨hbalanced, honce, htold, hwhy⟩ := hkept.2
  have hle : ∀ b : Bool, b.toNat ≤ 1 := Bool.toNat_le
  refine ⟨fun d => ⟨?_, (honce d).trans (hle _)⟩, htold.trans (hle _), fun hrank => ?_,
    fun hover => ?_⟩
  · rw [hbalanced d]
    exact Nat.le_add_right _ _
  · exact hwhy (hi.stages.quit hrank)
  · have hworker : s.worker = .returned ∨ s.worker = .unborn := by
      cases hm : s.main <;> rw [hm] at hover <;> try cases hover
      · exact .inr (hi.stages.unborn.mpr (by rw [hm]; rfl))
      · exact .inl (hi.stages.joined (by rw [hm]; decide))
    have hclosed : s.listening = false := by
      refine Bool.eq_false_iff.mpr fun hl => ?_
      have hrank := hi.stages.listening.mp hl
      cases hm : s.main <;> rw [hm] at hover hrank <;> try cases hover
      · exact absurd hrank.1 (by decide)
      · exact absurd hrank.2 (by decide)
    refine ⟨fun d => ?_, hworker, fun hpolling => ?_⟩
    · have hopen : s.open? d = false := by
        cases d with
        | listener => exact hclosed
        | client =>
            rcases hworker with hw | hw <;>
              simp [Helper.open?, hw, Worker.holds, Worker.serves]
      rw [hbalanced d, hopen]
      rfl
    · have hrank := hi.stages.watchdog hpolling
      cases hm : s.main <;> rw [hm] at hover hrank <;> try cases hover
      · exact absurd hrank.1 (by decide)
      · exact absurd hrank.2 (by decide)

/-! ## Callbacks -/

/-- No detached thread holds a callback when the dispatcher is destroyed. -/
def released (s : Helper) (a : Action) : Prop := a = .destroy → s.callers = []

/-- Behind the destruction nobody holds a callback, and none has run. -/
def Released (h : List Obs) (s : Helper) : Prop :=
  .dangling ∉ h ∧ (s.main = .exiting → s.callers = [])

theorem step_released (hi : Released h s) (hreleased : released s a)
    (hstep : (machine onConnect).step s a = some (s', os)) : Released (h ++ os) s' := by
  obtain ⟨hnone, hheld⟩ := hi
  obtain ⟨-, hstep⟩ := step_cases hstep
  have hquiet : ∀ os : List Obs, .dangling ∉ os → .dangling ∉ h ++ os := by
    intro os hos hmem
    exact (List.mem_append.mp hmem).elim hnone hos
  cases hstep with
  | destroys => exact ⟨hquiet _ (by simp), fun _ => hreleased rfl⟩
  | dangles hexiting hcopied =>
      rw [hheld hexiting] at hcopied
      exact absurd hcopied (Nat.not_lt_zero _)
  | copies hattached =>
      refine ⟨hquiet _ (by simp), fun hexiting => ?_⟩
      rw [show s.main = .exiting from hexiting] at hattached
      cases hattached
  | failed _ hos =>
      refine ⟨hquiet _ ?_, nofun⟩
      rcases hos with rfl | rfl <;> simp
  | listens | watches | orphaned | unwatched | left | watchdogStops | watchdogJoined
  | stops | listenerCloses | shuts | workerJoined | detaches | exits | wakes | calledBack
  | pastes | pasted => exact ⟨hquiet _ (by simp), nofun⟩
  | skips hcalls =>
      refine ⟨hquiet _ nofun, fun hexiting => ?_⟩
      cases hcalls with
      | callback h =>
          simp only [Helper.wrote] at hexiting
          split at hexiting <;> cases hexiting
      | greeting | reply => exact hheld hexiting
      | detached _ halive => exact absurd hexiting halive
  | begins hcalls =>
      refine ⟨hquiet _ nofun, fun hexiting => ?_⟩
      cases hcalls with
      | callback => cases hexiting
      | greeting | reply => exact hheld hexiting
      | detached _ halive => exact absurd hexiting halive
  | @sendFails _ w hlock | @sendsAll _ _ w _ hlock =>
      refine ⟨hquiet _ nofun, fun hexiting => ?_⟩
      rw [wrote_callers]
      cases howner : w.owner with
      | main awaits =>
          rw [howner] at hexiting
          cases awaits <;> cases hexiting
      | greeting | reply | detached =>
          rw [howner] at hexiting
          exact hheld hexiting
  | _ => exact ⟨hquiet _ (by simp), hheld⟩

/-- **Callbacks end with the dispatcher**, in every run in which no detached
thread holds one when it is destroyed; if one does, it may run afterwards. -/
theorem callbacks_end :
    (∀ h s, (machine onConnect).Run released {} h s → .dangling ∉ h) ∧
      ∀ h s, (machine onConnect).Run Machine.always {} h s → s.main = .destroying →
        s.callers ≠ [] → ∃ later s', (machine onConnect).Run Machine.always s later s' ∧
          .dangling ∈ later := by
  refine ⟨fun h s hrun => ?_, fun h s hrun hdestroying hheld => ?_⟩
  · refine (hrun.history_invariant Released ⟨List.not_mem_nil, fun _ => rfl⟩ ?_).1
    exact fun _ _ _ _ _ hi hok hstep => step_released hi hok hstep
  · obtain ⟨frame, rest, hcallers⟩ := List.exists_cons_of_ne_nil hheld
    have hexec : (machine onConnect).exec s [.destroy, .call 0] =
        some ({ s with main := .exiting, callers := rest }, [.dangling]) := by
      simp [Machine.exec, machine, mainStep, call, hdestroying, hcallers, Main.over]
    exact ⟨_, _, Machine.Run.of_exec hexec, List.mem_singleton_self _⟩

/-! ## Three runs -/

/-- A client that has been served and goes away. -/
def abandoned : Helper where
  main := .running
  worker := .reading
  watchdog := .polling
  client := some { room := 3, gone := true }
  listening := true
  clientFd := true

/-- The helper behind it. -/
def ended : Helper where
  main := .returned
  worker := .returned
  watchdog := .returned
  watchdogStop := true
  client := some { room := 3, gone := true }
  stop := true
  quit := true

theorem run_abandoned : ∃ h, (machine [1]).Run Machine.always {} h abandoned := by
  have hexec : ((machine [1]).exec {} [.start .listens, .watch true, .load, .test, .connect 8,
      .accept, .publish, .greet, .send 4, .serve, .hangsUp]).map (fun r => r.1) =
      some abandoned := rfl
  obtain ⟨h, s, hrun, hs⟩ := Machine.Run.of_exec_map hexec
  obtain rfl : s = _ := hs
  exact ⟨h, hrun⟩

theorem run_ended : ∃ h, (machine [1]).Run Machine.always abandoned h ended := by
  have hexec : ((machine [1]).exec abandoned [.read, .withdraw, .close, .disconnect, .leaveLoop,
      .stopWatchdog, .poll, .joinWatchdog, .stop, .closeListener, .shutdownClient, .joinWorker,
      .detach, .destroy, .exit]).map (fun r => r.1) = some ended := rfl
  obtain ⟨h, s, hrun, hs⟩ := Machine.Run.of_exec_map hexec
  obtain rfl : s = _ := hs
  exact ⟨h, hrun⟩

theorem helper_returns_abandoned : Waits ended ∨ ended.main.over = true := by
  obtain ⟨h, hrun⟩ := run_abandoned
  obtain ⟨later, hlater⟩ := run_ended
  exact (helper_returns hrun (.inr (.inr (.inr (.inr ⟨_, rfl, .inl rfl⟩)))) hlater).2
    fun _ _ => rfl

theorem nothing_left_open_abandoned : ∃ h, (machine [1]).Run Machine.always {} h ended ∧
    h.countP (Obs.closed? .client) = h.countP (Obs.opened? .client) := by
  obtain ⟨h, hrun⟩ := run_abandoned
  obtain ⟨later, hlater⟩ := run_ended
  have hwhole := hrun.append hlater
  exact ⟨_, hwhole, ((nothing_left_open hwhole).2.2.2 rfl).1 .client⟩

/-- A thread that has copied a callback before `Detach` calls it behind the
destruction. -/
theorem callbacks_end_copied :
    ∃ h s, (machine [1]).Run Machine.always {} h s ∧ .dangling ∈ h := by
  have hexec : ((machine [1]).exec {} [.start .listens, .watch false, .copied [], .signal,
      .notifier, .leaveLoop, .stopWatchdog, .joinWatchdog, .stop, .closeListener, .load,
      .shutdownClient, .disconnect, .joinWorker, .detach]).map (fun r => r.1) = some {
        main := .destroying, worker := .returned, watchdogStop := true, callers := [[]]
        stop := true, quit := true } := rfl
  obtain ⟨h, s, hrun, hs⟩ := Machine.Run.of_exec_map hexec
  obtain rfl : s = _ := hs
  obtain ⟨later, s', hlater, hmem⟩ := callbacks_end.2 h _ hrun rfl (List.cons_ne_nil _ _)
  exact ⟨_, s', hrun.append hlater, List.mem_append_right _ hmem⟩

/-- **A client that does not read**: the greeting waits for room in its
socket, and `Stop` for the mutex. -/
theorem stop_waits_for_client : ∃ h s, (machine [1]).Run Machine.always {} h s ∧
    s.main = .shutting ∧ Rests [1] s := by
  have hexec : ((machine [1]).exec {} [.start .listens, .watch false, .load, .test, .connect 0,
      .accept, .publish, .greet, .signal, .notifier, .leaveLoop, .stopWatchdog, .joinWatchdog,
      .stop, .closeListener]).map (fun r => r.1) = some {
        main := .shutting, worker := .writing, watchdogStop := true, client := some {}
        clientFd := true, lock := some ⟨.greeting, 5⟩, stop := true, quit := true } := rfl
  obtain ⟨h, s, hrun, hs⟩ := Machine.Run.of_exec_map hexec
  obtain rfl : s = _ := hs
  refine ⟨h, _, hrun, rfl, fun a hown => ?_⟩
  cases a <;> first | rfl | cases hown

end LinuxLifetime
