import ClipboardHelper.Library.Rest
import ClipboardHelper.LinuxLifetime

/-!
# What holds throughout the life of the Linux helper

The thread that writes holds the mutex (`Wired`), the client's descriptor is
published while the worker serves it (`Session`), and the flags and threads
are as the stage of the main thread has them (`Stages`).  Every step of its
own takes something of what the helper has left to do (`uses_up`).
-/

namespace LinuxLifetime

open Library FrameTransport

variable {onConnect : Bytes} {s s' : Helper} {a : Action} {h os : List Obs}

/-! ## What holds in every run -/

/-- How far the main thread has come. -/
def Main.rank : Main → Nat
  | .starting | .failed => 0
  | .watching => 1
  | .running | .sending .. | .writing | .awaiting | .pasting => 2
  | .quitting => 3
  | .joiningWatchdog => 4
  | .stopping => 5
  | .closing => 6
  | .shutting => 7
  | .joiningWorker => 8
  | .detaching => 9
  | .destroying => 10
  | .exiting => 11
  | .returned => 12

/-- The worker has published the client's descriptor. -/
def Worker.serves : Worker → Bool
  | .greeting | .serving | .reading | .handling _ | .replying _ | .writing | .withdrawing => true
  | _ => false

/-- The accepted descriptor is open. -/
def Worker.holds : Worker → Bool
  | .accepted | .closing => true
  | w => w.serves

theorem Worker.holds_of_serves {w : Worker} (hserves : w.serves = true) : w.holds = true := by
  cases w <;> first | rfl | cases hserves

/-- A worker that serves has begun, and has not ended. -/
theorem Worker.lives_of_serves {w : Worker} (hserves : w.serves = true) :
    w ≠ .unborn ∧ w ≠ .returned := by
  constructor <;>
    · rintro rfl
      cases hserves

structure Session (s : Helper) : Prop where
  clientFd : s.clientFd = s.worker.serves
  client : s.worker.holds = true → s.client ≠ none

structure Stages (s : Helper) : Prop where
  unborn : s.worker = .unborn ↔ s.main.rank = 0
  listening : s.listening = true ↔ 1 ≤ s.main.rank ∧ s.main.rank ≤ 6
  watchdog : s.watchdog = .polling → 2 ≤ s.main.rank ∧ s.main.rank ≤ 4
  watchdogStop : s.watchdogStop = true ↔ 4 ≤ s.main.rank
  stop : s.stop = true ↔ 6 ≤ s.main.rank
  quit : 3 ≤ s.main.rank → s.quit = true
  shut : 8 ≤ s.main.rank → s.worker = .reading → ∀ c, s.client = some c → c.shut = true
  joined : 9 ≤ s.main.rank → s.worker = .returned
  ended : s.worker = .returned → s.quit = true ∨ s.stop = true

/-- The thread that holds the mutex to write. -/
def Helper.writer (s : Helper) : Option Thread := s.lock.map fun w => w.owner.thread

/-- A thread that writes holds the mutex, and the client is published then. -/
structure Wired (s : Helper) : Prop where
  main : s.main = .writing ↔ s.writer = some .main
  worker : s.worker = .writing ↔ s.writer = some .worker
  published : s.lock ≠ none → s.clientFd = true

/-- Steps away from the mutex. -/
theorem Wired.keep (hi : Wired s) (hlock : s'.lock = s.lock)
    (hmain : s'.main = .writing ↔ s.main = .writing)
    (hworker : s'.worker = .writing ↔ s.worker = .writing)
    (hfd : s.lock ≠ none → s.clientFd = true → s'.clientFd = true) : Wired s' := by
  have hwriter : s'.writer = s.writer := by rw [Helper.writer, hlock, Helper.writer]
  refine ⟨?_, ?_, fun h => ?_⟩
  · rw [hmain, hwriter, hi.main]
  · rw [hworker, hwriter, hi.worker]
  · rw [hlock] at h
    exact hfd h (hi.published h)

theorem Wired.idle (hfree : s.lock = none) (hmain : s.main ≠ .writing)
    (hworker : s.worker ≠ .writing) : Wired s where
  main := by simp [Helper.writer, hfree, hmain]
  worker := by simp [Helper.writer, hfree, hworker]
  published h := absurd hfree h

/-- While nobody holds the mutex, no thread writes. -/
theorem Wired.free (hi : Wired s) (hfree : s.lock = none) :
    s.main ≠ .writing ∧ s.worker ≠ .writing := by
  have hwriter : s.writer = none := by rw [Helper.writer, hfree, Option.map_none]
  refine ⟨fun h => ?_, fun h => ?_⟩
  · have hmain := hi.main.mp h
    rw [hwriter] at hmain
    cases hmain
  · have hworker := hi.worker.mp h
    rw [hwriter] at hworker
    cases hworker

/-- A write has ended, or has not begun. -/
theorem Wired.wrote {t : Helper} {owner : Owner} {ok : Bool} (hfree : t.lock = none)
    (hmain : owner.thread ≠ .main → t.main ≠ .writing)
    (hworker : owner.thread ≠ .worker → t.worker ≠ .writing) : Wired (t.wrote ok owner) := by
  cases owner with
  | main awaits => exact .idle hfree (by cases awaits <;> simp [Helper.wrote]) (hworker nofun)
  | greeting => exact .idle hfree (hmain nofun) nofun
  | reply => exact .idle hfree (hmain nofun) (by cases ok <;> simp [Helper.wrote])
  | detached => exact .idle hfree (hmain nofun) (hworker nofun)

theorem Wired.ended (hi : Wired s) {w : Writer} {t : Helper} {ok : Bool} (hlock : s.lock = some w)
    (hfree : t.lock = none) (hmain : t.main = s.main) (hworker : t.worker = s.worker) :
    Wired (t.wrote ok w.owner) := by
  have hwriter : s.writer = some w.owner.thread := by rw [Helper.writer, hlock, Option.map_some]
  refine .wrote hfree (fun hne h => hne ?_) (fun hne h => hne ?_)
  · have hholds := hi.main.mp (hmain ▸ h)
    rw [hwriter] at hholds
    exact Option.some.inj hholds
  · have hholds := hi.worker.mp (hworker ▸ h)
    rw [hwriter] at hholds
    exact Option.some.inj hholds

theorem Calls.unchanged {owner : Owner} {frame : Bytes} {t : Helper}
    (hcalls : Calls onConnect s a owner frame t) :
    t.main = s.main ∧ t.worker = s.worker ∧ t.lock = s.lock ∧ t.clientFd = s.clientFd := by
  cases hcalls <;> exact ⟨rfl, rfl, rfl, rfl⟩

theorem Wired.begun (hi : Wired s) (hfree : s.lock = none) {owner : Owner} {left : Nat} {t : Helper}
    (hmain : t.main = s.main) (hworker : t.worker = s.worker) (hfd : t.clientFd = true) :
    Wired { t.writing owner.thread with lock := some ⟨owner, left⟩ } := by
  obtain ⟨hm, hw⟩ := hi.free hfree
  rw [← hmain] at hm
  rw [← hworker] at hw
  cases howner : owner.thread <;>
    refine ⟨?_, ?_, fun _ => hfd⟩ <;>
    simp [Helper.writer, Helper.writing, howner, hm, hw]

structure Sane (s : Helper) : Prop where
  wired : Wired s
  session : Session s
  stages : Stages s

/-- The writer is where it writes. -/
theorem Sane.writes (hi : Sane s) {w : Writer} (hlock : s.lock = some w) :
    (w.owner.thread = .main → s.main = .writing) ∧
      (w.owner.thread = .worker → s.worker = .writing) := by
  have hwriter : s.writer = some w.owner.thread := by rw [Helper.writer, hlock, Option.map_some]
  refine ⟨fun h => hi.wired.main.mpr ?_, fun h => hi.wired.worker.mpr ?_⟩
  · rw [hwriter, h]
  · rw [hwriter, h]

theorem Sane.serves (hi : Sane s) {w : Writer} (hlock : s.lock = some w)
    (hthread : w.owner.thread = .worker) : s.worker.serves = true := by
  rw [(hi.writes hlock).2 hthread]
  rfl

theorem step_wired (hi : Sane s) (hstep : Step onConnect s a os s') : Wired s' := by
  have hwired := hi.wired
  cases hstep with
  | listens h =>
      have hunborn := hi.stages.unborn.mpr (by rw [h]; rfl)
      refine hwired.keep rfl ?_ ?_ (fun _ => id) <;> simp [h, hunborn]
  | failed h | watches h | orphaned h | unwatched h | notified h | left h
  | watchdogStops h | watchdogJoined h | stops h | listenerCloses h | shuts h | workerJoined h
  | detaches h | destroys h | exits h | wakes h | calledBack h | pastes h | pasted h =>
      refine hwired.keep rfl ?_ ?_ (fun _ => id) <;> simp [h]
  | loads h | tests h | looks h | serves h =>
      refine hwired.keep rfl Iff.rfl ?_ (fun _ => id)
      dsimp only
      split <;> simp [h]
  | accepts h | refused h | silent h | reads h | ended h | answers h | performs h | shutsDown h
  | unanswered h | clientCloses h | disconnects h =>
      refine hwired.keep rfl ?_ ?_ (fun _ => id) <;> simp [h]
  | publishes h =>
      refine hwired.keep rfl ?_ ?_ (fun _ _ => rfl) <;> simp [h]
  | withdraws h hfree =>
      refine hwired.keep rfl ?_ ?_ (fun hlock => absurd hfree hlock) <;> simp [h]
  | watchdogReturns | fires | dangles | copies | connects | outside | parentDies | signals =>
      exact hwired.keep rfl Iff.rfl Iff.rfl (fun _ => id)
  | sendFails hlock => exact hwired.ended hlock rfl rfl rfl
  | sendsAll hlock => exact hwired.ended hlock rfl rfl rfl
  | @sends _ _ w _ hlock =>
      obtain ⟨hmain, hworker, hpublished⟩ := hwired
      have hwriter : s.writer = some w.owner.thread := by
        rw [Helper.writer, hlock, Option.map_some]
      rw [hwriter] at hmain hworker
      exact ⟨hmain, hworker, fun _ => hpublished (by rw [hlock]; nofun)⟩
  | skips hcalls hfree =>
      obtain ⟨hmain, hworker, hlock, -⟩ := hcalls.unchanged
      obtain ⟨hm, hw⟩ := hwired.free hfree
      exact .wrote (hlock.trans hfree) (fun _ => hmain ▸ hm) (fun _ => hworker ▸ hw)
  | begins hcalls hfree hclient =>
      obtain ⟨hmain, hworker, -, hfd⟩ := hcalls.unchanged
      exact hwired.begun hfree hmain hworker (hfd.trans hclient)

theorem Session.keep (hi : Session s) (hfd : s'.clientFd = s.clientFd)
    (hworker : s'.worker = s.worker) (hclient : s.client ≠ none → s'.client ≠ none) :
    Session s' where
  clientFd := by rw [hfd, hworker, hi.clientFd]
  client h := hclient (hi.client (hworker ▸ h))

/-- The worker moves on between two places that are alike to the session. -/
theorem Session.move (hi : Session s) (hfd : s'.clientFd = s.clientFd)
    (hclient : s.client ≠ none → s'.client ≠ none)
    (hserves : s'.worker.serves = s.worker.serves)
    (hholds : s'.worker.holds = true → s.worker.holds = true) : Session s' where
  clientFd := by rw [hfd, hserves, hi.clientFd]
  client h := hclient (hi.client (hholds h))

theorem Session.wrote (hi : Session s) {t : Helper} {owner : Owner} {ok : Bool}
    (hfd : t.clientFd = s.clientFd) (hworker : t.worker = s.worker)
    (hclient : s.client ≠ none → t.client ≠ none)
    (hserves : owner.thread = .worker → s.worker.serves = true) : Session (t.wrote ok owner) := by
  have hkept : Session t := hi.keep hfd hworker hclient
  have hholds : s.worker.serves = true → t.worker.holds = true := by
    intro h
    rw [hworker]
    exact Worker.holds_of_serves h
  cases owner with
  | main => exact ⟨hkept.clientFd, hkept.client⟩
  | detached => exact hkept
  | greeting =>
      have hworks := hserves rfl
      exact hkept.move rfl id (by rw [hworker, hworks]; rfl) fun _ => hholds hworks
  | reply =>
      have hworks := hserves rfl
      refine hkept.move rfl id ?_ fun _ => hholds hworks
      rw [hworker, hworks]
      cases ok <;> rfl

/-- Who is about to write for the worker serves the client. -/
theorem Calls.serves {owner : Owner} {frame : Bytes} {t : Helper}
    (hcalls : Calls onConnect s a owner frame t) (hthread : owner.thread = .worker) :
    s.worker.serves = true := by
  cases hcalls with
  | callback | detached => cases hthread
  | greeting h | reply h => rw [h]; rfl

theorem step_session (hi : Sane s) (hstep : Step onConnect s a os s') : Session s' := by
  have hsession := hi.session
  cases hstep with
  | failed | watches | orphaned | unwatched | notified | left | watchdogStops | watchdogJoined
  | stops | listenerCloses | workerJoined | detaches | destroys | exits | wakes | calledBack
  | pastes | pasted | watchdogReturns | fires | dangles | copies | parentDies | signals =>
      exact hsession.keep rfl rfl id
  | shuts => exact hsession.keep rfl rfl fun hne => by simpa using hne
  | connects | outside => exact hsession.keep rfl rfl fun _ => nofun
  | listens h =>
      have hunborn := hi.stages.unborn.mpr (by rw [h]; rfl)
      exact hsession.move rfl id (by rw [hunborn]; rfl) nofun
  | loads h | tests h | looks h | serves h =>
      refine hsession.move rfl id ?_ ?_ <;> dsimp only <;> split <;>
        simp [h, Worker.serves, Worker.holds]
  | refused h | silent h | ended h | answers h | performs h | shutsDown h | unanswered h
  | clientCloses h | disconnects h =>
      exact hsession.move rfl id (by rw [h]; rfl) (by rw [h]; first | exact fun _ => rfl | nofun)
  | accepts h _ hclient =>
      exact ⟨by rw [hsession.clientFd, h]; rfl, fun _ => hclient⟩
  | publishes h => exact ⟨rfl, fun _ => hsession.client (by rw [h]; rfl)⟩
  | reads h => exact hsession.move rfl (fun _ => nofun) (by rw [h]; rfl) fun _ => by rw [h]; rfl
  | withdraws h => exact ⟨rfl, fun _ => hsession.client (by rw [h]; rfl)⟩
  | sendFails hlock =>
      exact hsession.wrote rfl rfl id (hi.serves hlock)
  | sends => exact hsession.keep rfl rfl fun _ => nofun
  | sendsAll hlock => exact hsession.wrote rfl rfl (fun _ => nofun) (hi.serves hlock)
  | @skips _ owner frame t ok hcalls =>
      obtain ⟨-, hworker, -, hfd⟩ := hcalls.unchanged
      have hclient : t.client = s.client := by cases hcalls <;> rfl
      exact hsession.wrote hfd hworker (hclient ▸ id) hcalls.serves
  | @begins _ owner frame t hcalls =>
      obtain ⟨-, hworker, -, hfd⟩ := hcalls.unchanged
      have hclient : t.client = s.client := by cases hcalls <;> rfl
      have hkept : Session t := hsession.keep hfd hworker (hclient ▸ id)
      cases howner : owner.thread with
      | main | detached => exact ⟨hkept.clientFd, hkept.client⟩
      | worker =>
          have hserves := hcalls.serves howner
          refine ⟨?_, fun _ => hclient ▸ hsession.client ?_⟩
          · show t.clientFd = _
            rw [hfd, hsession.clientFd, hserves]
            rfl
          · exact Worker.holds_of_serves hserves

/-- The worker moves on. -/
theorem Stages.move (hi : Stages s)
    (hsame : { s' with
      worker := s.worker, client := s.client, clientFd := s.clientFd, lock := s.lock
      quit := s.quit } = s)
    (hborn : s.worker ≠ .unborn) (halive : s.worker ≠ .returned) (hw : s'.worker ≠ .unborn)
    (hquit : s.quit = true → s'.quit = true)
    (hend : s'.worker = .returned → s'.quit = true ∨ s.stop = true)
    (hread : s'.worker = .reading → s.stop = false) : Stages s' := by
  have hmain : s'.main = s.main := by rw [← hsame]
  have hrank : s.main.rank ≠ 0 := fun h => hborn (hi.unborn.mpr h)
  have hstopped : s'.stop = s.stop := by rw [← hsame]
  obtain ⟨-, hlistening, hwatchdog, hwatchdogStop, hstop, hquits, -, hjoined, -⟩ := hi
  rw [← hsame] at hlistening hwatchdog hwatchdogStop hstop
  rw [← hmain] at hrank hquits hjoined
  refine ⟨iff_of_false hw hrank, hlistening, hwatchdog, hwatchdogStop, hstop,
    fun h => hquit (hquits h), fun h hreading => ?_, fun h => absurd (hjoined h) halive, ?_⟩
  · have hrunning := hread hreading
    rw [← hstopped, hstop.mpr (by dsimp only; omega)] at hrunning
    cases hrunning
  · rw [hstopped]
    exact hend

/-- The main thread stays at its stage. -/
theorem Stages.stay (hi : Stages s) (hrank : s'.main.rank = s.main.rank)
    (hworker : s'.worker = s.worker) (hlistening : s'.listening = s.listening)
    (hwatchdog : s'.watchdog = .polling → s.watchdog = .polling)
    (hwatchdogStop : s'.watchdogStop = s.watchdogStop) (hstop : s'.stop = s.stop)
    (hquit : s.quit = true → s'.quit = true)
    (hclient : ∀ c', s'.client = some c' → s.worker.holds = true →
      ∃ c, s.client = some c ∧ (c.shut = true → c'.shut = true)) : Stages s' where
  unborn := by rw [hworker, hrank, hi.unborn]
  listening := by rw [hlistening, hrank, hi.listening]
  watchdog h := by
    rw [hrank]
    exact hi.watchdog (hwatchdog h)
  watchdogStop := by rw [hwatchdogStop, hrank, hi.watchdogStop]
  stop := by rw [hstop, hrank, hi.stop]
  quit h := hquit (hi.quit (hrank ▸ h))
  shut h hreading c' hc' := by
    rw [hworker] at hreading
    obtain ⟨c, hc, hshut⟩ := hclient c' hc' (by rw [hreading]; rfl)
    exact hshut (hi.shut (hrank ▸ h) hreading c hc)
  joined h := by
    rw [hworker]
    exact hi.joined (hrank ▸ h)
  ended h := by
    rw [hstop]
    exact (hi.ended (hworker ▸ h)).imp_left hquit

/-- A write has ended, or has not begun. -/
theorem Stages.wrote (hi : Stages s) {owner : Owner} {ok : Bool}
    (hmain : owner.thread = .main → s.main.rank = 2)
    (hworker : owner.thread = .worker → s.worker.serves = true) : Stages (s.wrote ok owner) := by
  cases owner with
  | main awaits =>
      refine hi.stay ?_ rfl rfl id rfl rfl id fun c hc _ => ⟨c, hc, id⟩
      rw [hmain rfl]
      cases awaits <;> rfl
  | greeting =>
      obtain ⟨hborn, halive⟩ := Worker.lives_of_serves (hworker rfl)
      exact hi.move rfl hborn halive nofun id nofun nofun
  | reply =>
      obtain ⟨hborn, halive⟩ := Worker.lives_of_serves (hworker rfl)
      refine hi.move rfl hborn halive ?_ id ?_ ?_ <;> cases ok <;> nofun
  | detached => exact hi

/-- Who is about to write on the main thread is in the event loop. -/
theorem Calls.running {owner : Owner} {frame : Bytes} {t : Helper}
    (hcalls : Calls onConnect s a owner frame t) (hthread : owner.thread = .main) :
    s.main.rank = 2 := by
  cases hcalls with
  | callback h => rw [h]; rfl
  | greeting | reply | detached => cases hthread

theorem Calls.stages {owner : Owner} {frame : Bytes} {t : Helper}
    (hcalls : Calls onConnect s a owner frame t) (hi : Stages s) : Stages t := by
  cases hcalls with
  | callback | greeting | reply => exact hi
  | detached => exact hi.stay rfl rfl rfl id rfl rfl id fun c hc _ => ⟨c, hc, id⟩

theorem step_stages (hi : Sane s) (hstep : Step onConnect s a os s') : Stages s' := by
  have hstages := hi.stages
  have hmain : ∀ w, s.lock = some w → w.owner.thread = .main → s.main.rank = 2 := by
    intro w hlock hthread
    rw [(hi.writes hlock).1 hthread]
    rfl
  cases hstep with
  | listens h | watches h | orphaned h | unwatched h | left h | watchdogStops h
  | watchdogJoined h | stops h | listenerCloses h | detaches h | destroys h | exits h =>
      obtain ⟨hunborn, hlistening, hwatchdog, hwatchdogStop, hstop, hquit, hshut, hjoined,
        hended⟩ := hstages
      constructor <;> grind [Main.rank]
  | shuts h hfree =>
      have hfd := hi.session.clientFd
      obtain ⟨hunborn, hlistening, hwatchdog, hwatchdogStop, hstop, hquit, -, -, hended⟩ := hstages
      have hrank : s.main.rank = 7 := by rw [h]; rfl
      rw [hrank] at hunborn hlistening hwatchdog hwatchdogStop hstop hquit
      refine ⟨?_, ?_, ?_, ?_, ?_, fun _ => hquit (by omega), ?_, ?_, hended⟩
      · exact hunborn.trans (by simp [Main.rank])
      · exact hlistening.trans (by simp [Main.rank])
      · exact fun hpolling => absurd (hwatchdog hpolling).2 (by omega)
      · exact hwatchdogStop.trans (by simp [Main.rank])
      · exact hstop.trans (by simp [Main.rank])
      · intro _ hreading c hc
        obtain ⟨c₀, -, rfl⟩ := Option.map_eq_some_iff.mp hc
        rw [hfd, hreading]
        exact Bool.or_true _
      · exact fun hjoined => absurd hjoined (by simp [Main.rank])
  | workerJoined h hreturned =>
      have hrank : s.main.rank = 8 := by rw [h]; rfl
      obtain ⟨hunborn, hlistening, hwatchdog, hwatchdogStop, hstop, hquit, -, -, hended⟩ := hstages
      rw [hrank] at hunborn hlistening hwatchdog hwatchdogStop hstop hquit
      refine ⟨?_, ?_, ?_, ?_, ?_, fun _ => hquit (by omega), ?_, fun _ => hreturned, hended⟩
      · exact hunborn.trans (by simp [Main.rank])
      · exact hlistening.trans (by simp [Main.rank])
      · exact fun hpolling => absurd (hwatchdog hpolling).2 (by omega)
      · exact hwatchdogStop.trans (by simp [Main.rank])
      · exact hstop.trans (by simp [Main.rank])
      · intro _ hreading
        rw [hreturned] at hreading
        cases hreading
  | failed h | wakes h | calledBack h | pastes h | pasted h =>
      exact hstages.stay (by rw [h]; rfl) rfl rfl id rfl rfl id fun c hc _ => ⟨c, hc, id⟩
  | notified => exact hstages.stay rfl rfl rfl id rfl rfl (fun _ => rfl) fun c hc _ => ⟨c, hc, id⟩
  | dangles | copies | parentDies | signals =>
      exact hstages.stay rfl rfl rfl id rfl rfl id fun c hc _ => ⟨c, hc, id⟩
  | watchdogReturns => exact hstages.stay rfl rfl rfl nofun rfl rfl id fun c hc _ => ⟨c, hc, id⟩
  | fires =>
      exact hstages.stay rfl rfl rfl nofun rfl rfl (fun _ => rfl) fun c hc _ => ⟨c, hc, id⟩
  | connects hclient =>
      refine hstages.stay rfl rfl rfl id rfl rfl id fun c hc hholds => ?_
      exact absurd hclient (hi.session.client hholds)
  | outside _ hclient hshut =>
      refine hstages.stay rfl rfl rfl id rfl rfl id fun c hc _ => ?_
      cases hc
      exact ⟨_, hclient, fun h => hshut.trans h⟩
  | loads h | tests h | looks h | serves h =>
      refine hstages.move rfl ?_ ?_ ?_ id ?_ ?_ <;> grind
  | accepts h | refused h | publishes h | silent h | ended h | answers h | performs h
  | unanswered h | withdraws h | clientCloses h | reads h =>
      exact hstages.move rfl (by rw [h]; nofun) (by rw [h]; nofun) nofun id nofun nofun
  | shutsDown h =>
      exact hstages.move rfl (by rw [h]; nofun) (by rw [h]; nofun) nofun (fun _ => rfl) nofun nofun
  | disconnects h =>
      exact hstages.move rfl (by rw [h]; nofun) (by rw [h]; nofun) nofun (fun _ => rfl)
        (fun _ => .inl rfl) nofun
  | sendFails hlock =>
      have hkept : Stages { s with lock := none } :=
        hstages.stay rfl rfl rfl id rfl rfl id fun c hc _ => ⟨c, hc, id⟩
      exact hkept.wrote (hmain _ hlock) (hi.serves hlock)
  | @sends _ count w c _ hclient =>
      refine hstages.stay rfl rfl rfl id rfl rfl id fun c' hc' _ => ?_
      cases hc'
      exact ⟨c, hclient, id⟩
  | @sendsAll _ room w c hlock hclient =>
      have hkept : Stages { s with client := some { c with room := room }, lock := none } := by
        refine hstages.stay rfl rfl rfl id rfl rfl id fun c' hc' _ => ?_
        cases hc'
        exact ⟨c, hclient, id⟩
      exact hkept.wrote (hmain _ hlock) (hi.serves hlock)
  | @skips _ owner frame t ok hcalls =>
      have hkept := hcalls.stages hstages
      obtain ⟨hm, hw, -⟩ := hcalls.unchanged
      exact hkept.wrote (hm ▸ hcalls.running) (hw ▸ hcalls.serves)
  | @begins _ owner frame t hcalls hfree hclient =>
      have hkept := hcalls.stages hstages
      obtain ⟨hm, hw, -⟩ := hcalls.unchanged
      cases howner : owner.thread with
      | main =>
          refine hkept.stay ?_ rfl rfl id rfl rfl id fun c hc _ => ⟨c, hc, id⟩
          rw [hm, hcalls.running howner]
          rfl
      | worker =>
          obtain ⟨hborn, halive⟩ := Worker.lives_of_serves (hw ▸ hcalls.serves howner)
          exact hkept.move rfl hborn halive nofun id nofun nofun
      | detached => exact hkept.stay rfl rfl rfl id rfl rfl id fun c hc _ => ⟨c, hc, id⟩

theorem step_sane (hi : Sane s) (hstep : (machine onConnect).step s a = some (s', os)) :
    Sane s' := by
  obtain ⟨-, hstep⟩ := step_cases hstep
  exact ⟨step_wired hi hstep, step_session hi hstep, step_stages hi hstep⟩

theorem sane_initial : Sane {} where
  wired := .idle rfl nofun nofun
  session := ⟨rfl, nofun⟩
  stages := by constructor <;> simp [Main.rank]

theorem run_sane (hrun : (machine onConnect).Run Machine.always {} h s) : Sane s :=
  hrun.state_invariant Sane sane_initial fun _ _ _ _ hi _ hstep => step_sane hi hstep

/-! ## Rest -/

/-- What a `WriteFrame` has to write at most. -/
def cost (payload : Bytes) : Nat := min payload.length kMaxFrameSize.toNat

def Main.effort : Main → Nat
  | .starting => 14
  | .watching => 13
  | .sending frame _ => cost frame + 19
  | .writing => 13
  | .awaiting => 12
  | .running | .pasting => 11
  | .quitting => 10
  | .joiningWatchdog => 9
  | .stopping => 8
  | .closing => 7
  | .shutting => 6
  | .joiningWorker => 5
  | .detaching => 4
  | .destroying => 3
  | .exiting => 2
  | .failed | .returned => 0

/-- `greeting` is the length of what `on_connect_` returns. -/
def Worker.effort (greeting : Nat) : Worker → Nat
  | .unborn => greeting + 19
  | .loading => greeting + 18
  | .testing => greeting + 17
  | .accepting => greeting + 16
  | .refused | .accepted => greeting + 15
  | .greeting => greeting + 14
  | .handling _ => kMaxFrameSize.toNat + 15
  | .replying reply => cost reply + 14
  | .writing => 8
  | .serving => 7
  | .reading => 6
  | .withdrawing => 5
  | .closing => 4
  | .firing => 3
  | .returned => 0

def Watchdog.effort : Watchdog → Nat
  | .polling => 1
  | _ => 0

/-- A frame that has arrived is yet to be handled and answered. -/
def inboxEffort (client : Option Client) : Nat :=
  (client.elim 0 fun c => c.inbox.length) * (kMaxFrameSize.toNat + 10)

def lockEffort (lock : Option Writer) : Nat := lock.elim 0 fun w => w.left + 1

def callersEffort (callers : List Bytes) : Nat := (callers.map fun frame => cost frame + 6).sum

def effort (onConnect : Bytes) (s : Helper) : Nat :=
  s.main.effort + s.worker.effort (cost onConnect) + s.watchdog.effort + inboxEffort s.client +
    lockEffort s.lock + callersEffort s.callers + s.signalled.toNat

theorem callersEffort_eraseIdx {callers : List Bytes} {i : Nat} {frame : Bytes}
    (hcopied : callers[i]? = some frame) :
    callersEffort (callers.eraseIdx i) + (cost frame + 6) = callersEffort callers := by
  induction callers generalizing i with
  | nil => cases hcopied
  | cons first rest ih =>
      cases i with
      | zero =>
          cases hcopied
          simp only [callersEffort, List.eraseIdx_zero, List.tail_cons, List.map_cons,
            List.sum_cons]
          omega
      | succ i =>
          have hrest := ih hcopied
          simp only [callersEffort, List.eraseIdx_cons_succ, List.map_cons, List.sum_cons]
            at hrest ⊢
          omega

/-- What a write leaves for its thread to do. -/
def Owner.after : Owner → Nat
  | .main _ => 12
  | .greeting | .reply => 7
  | .detached => 0

theorem wrote_effort (onConnect : Bytes) (t : Helper) (owner : Owner) (ok : Bool) :
    effort onConnect (t.wrote ok owner) +
        (match owner.thread with
          | .main => t.main.effort
          | .worker => t.worker.effort (cost onConnect)
          | .detached => 0) ≤
      effort onConnect t + owner.after := by
  cases owner with
  | main awaits =>
      cases awaits <;>
        simp only [Helper.wrote, effort, Owner.thread, Owner.after, Main.effort] <;> grind
  | greeting =>
      simp only [Helper.wrote, effort, Owner.thread, Owner.after, Worker.effort]
      omega
  | reply =>
      cases ok <;>
        simp only [Helper.wrote, effort, Owner.thread, Owner.after, Worker.effort] <;> grind
  | detached => exact Nat.le_refl _

/-- A write that ends, or does not begin, leaves less to do. -/
theorem wrote_less {t : Helper} {owner : Owner} {ok : Bool} {before : Nat}
    (hmain : owner.thread = .main → t.main.effort + before > effort onConnect t + 12)
    (hworker : owner.thread = .worker →
      t.worker.effort (cost onConnect) + before > effort onConnect t + 7)
    (hdetached : owner.thread = .detached → before > effort onConnect t) :
    effort onConnect (t.wrote ok owner) < before := by
  have hwrote := wrote_effort onConnect t owner ok
  cases owner with
  | main awaits =>
      have h := hmain rfl
      simp only [Owner.thread, Owner.after] at hwrote
      omega
  | greeting | reply =>
      have h := hworker rfl
      simp only [Owner.thread, Owner.after] at hwrote
      omega
  | detached => exact hdetached rfl

/-- **What the threads do themselves comes to an end.** -/
theorem uses_up : (machine onConnect).UsesUp (fun a => a.own = true) Sane (effort onConnect) := by
  intro s a s' os hi hown hstep
  refine ⟨step_sane hi hstep, ?_⟩
  obtain ⟨-, hstep⟩ := step_cases hstep
  cases hstep with
  | calledBack | pastes | pasted | copies | connects | parentDies | signals => cases hown
  | outside houtside => rw [houtside] at hown; cases hown
  | listens h =>
      have hunborn := hi.stages.unborn.mpr (by rw [h]; rfl)
      simp only [effort, h, hunborn, Main.effort, Worker.effort]
      omega
  | watches h =>
      simp only [effort, h, Main.effort, Watchdog.effort]
      omega
  | failed h | orphaned h | unwatched h | left h | watchdogStops h | watchdogJoined h | stops h
  | listenerCloses h | workerJoined h | detaches h | destroys h | exits h | wakes h =>
      simp only [effort, h, Main.effort]
      omega
  | notified h hsignalled =>
      simp only [effort, hsignalled, Bool.toNat_true, Bool.toNat_false]
      omega
  | shuts h =>
      have hinbox : inboxEffort (s.client.map fun c => { c with shut := c.shut || s.clientFd }) =
          inboxEffort s.client := by
        cases s.client <;> rfl
      simp only [effort, h, hinbox, Main.effort]
      omega
  | loads h | tests h | looks h | serves h =>
      simp only [effort, h]
      split <;> simp only [Worker.effort] <;> omega
  | accepts h | refused h | publishes h | silent h | ended h | withdraws h | clientCloses h
  | disconnects h | unanswered h =>
      simp only [effort, h, Worker.effort]
      omega
  | @reads c payload rest h hclient hinbox =>
      simp only [effort, h, hclient, hinbox, Worker.effort, inboxEffort, Option.elim_some,
        List.length_cons, Nat.succ_mul]
      omega
  | answers h =>
      have hcost : cost ‹_› ≤ kMaxFrameSize.toNat := Nat.min_le_right _ _
      simp only [effort, h, Worker.effort]
      omega
  | performs h | shutsDown h =>
      simp only [effort, h, Worker.effort]
      omega
  | watchdogReturns h | fires h =>
      simp only [effort, h, Watchdog.effort]
      omega
  | @sendFails _ w hlock =>
      have hfree :
          effort onConnect { s with lock := none } + (w.left + 1) = effort onConnect s := by
        simp only [effort, hlock, lockEffort, Option.elim_none, Option.elim_some]
        omega
      obtain ⟨hmain, hworker⟩ := hi.writes hlock
      refine wrote_less (fun h => ?_) (fun h => ?_) fun _ => by omega
      · have hwriting : s.main.effort = 13 := by rw [hmain h]; rfl
        dsimp only
        omega
      · have hwriting : s.worker.effort (cost onConnect) = 8 := by rw [hworker h]; rfl
        dsimp only
        omega
  | @sends _ count w c hlock hclient hmoves hless =>
      simp only [effort, hlock, hclient, lockEffort, inboxEffort, Option.elim_some]
      omega
  | @sendsAll _ room w c hlock hclient =>
      have hfree : effort onConnect
          { s with client := some { c with room := room }, lock := none } + (w.left + 1) =
            effort onConnect s := by
        simp only [effort, hlock, hclient, lockEffort, inboxEffort, Option.elim_none,
          Option.elim_some]
        omega
      obtain ⟨hmain, hworker⟩ := hi.writes hlock
      refine wrote_less (fun h => ?_) (fun h => ?_) fun _ => by omega
      · have hwriting : s.main.effort = 13 := by rw [hmain h]; rfl
        dsimp only
        omega
      · have hwriting : s.worker.effort (cost onConnect) = 8 := by rw [hworker h]; rfl
        dsimp only
        omega
  | @dangles i _ hcopied =>
      have hcallers := callersEffort_eraseIdx (List.getElem?_eq_getElem hcopied)
      simp only [effort]
      omega
  | @skips _ owner frame t ok hcalls =>
      cases hcalls with
      | callback h =>
          have hsending : s.main.effort = cost frame + 19 := by rw [h]; rfl
          exact wrote_less (fun _ => by omega) nofun nofun
      | greeting h =>
          have hgreeting : s.worker.effort (cost onConnect) = cost onConnect + 14 := by rw [h]; rfl
          exact wrote_less nofun (fun _ => by omega) nofun
      | reply h =>
          have hreplying : s.worker.effort (cost onConnect) = cost frame + 14 := by rw [h]; rfl
          exact wrote_less nofun (fun _ => by omega) nofun
      | detached hcopied =>
          have hcallers := callersEffort_eraseIdx hcopied
          refine wrote_less nofun nofun fun _ => ?_
          simp only [effort]
          omega
  | @begins _ owner frame t hcalls hfree _ hfits =>
      have hcost : cost frame = frame.length := Nat.min_eq_left hfits
      cases hcalls with
      | callback h | greeting h | reply h =>
          simp only [effort, Helper.writing, Owner.thread, h, hfree, hcost, lockEffort, Main.effort,
            Worker.effort, Option.elim_none, Option.elim_some]
          omega
      | detached hcopied =>
          have hcallers := callersEffort_eraseIdx hcopied
          simp only [effort, Helper.writing, Owner.thread, hfree, lockEffort, Option.elim_none,
            Option.elim_some]
          omega

end LinuxLifetime
