import MeshRoofFirmware.WifiCommands

set_option autoImplicit false

namespace MeshRoofFirmware.WifiFailures
open Library.ByteCodec Library.Runs Library.CachedSwitch NvmLayout WifiStation
open WifiCommands hiding Step step

inductive Call where
  | start (b : NvmMainBody) (behind : Bytes)
  | stop

def Call.body : Call → EspWifi → EspWifi × List Request
  | .start b behind => WifiStation.start b behind
  | .stop => WifiStation.stop

def Call.want : Call → Bool
  | .start _ _ => true
  | .stop => false

def Call.request : Call → Request
  | .start _ _ => .start
  | .stop => .stop

/-- A refused request changes nothing in the driver. -/
def tryRequest (err : Request → ℤ) (d : Driver) (r : Request) : Driver :=
  if err r = 0 then d.perform r else d

/-- One call and what it returns: on every path `ret` is set to 0 behind the last request. -/
def Wifi.attempt (s : Wifi) (err : Request → ℤ) (c : Call) : Wifi × ℤ :=
  let (station, requests) := c.body s.station
  (⟨station, requests.foldl (tryRequest err) s.driver⟩, 0)

inductive Step where
  | call (c : Call) (err : Request → ℤ)
  | between (a : WifiCommands.Step)

/-- A call is made once every event has been delivered. -/
def step (s : Wifi) : Step → Option Wifi
  | .call c err => if s.driver.queue.isEmpty then some (Wifi.attempt s err c).1 else none
  | .between a => if a.wants? = none then WifiCommands.step s a else none

/-- The flag tells the state of the driver, the answer tells whether the call got what it
asked for, and a driver in the other state was asked. -/
structure Meant (s : Wifi) (c : Call) (err : Request → ℤ) : Prop where
  flag : (Wifi.attempt s err c).1.station.started = (Wifi.attempt s err c).1.driver.running
  answer : (Wifi.attempt s err c).2 = 0 ↔ (Wifi.attempt s err c).1.driver.running = c.want
  tries : s.driver.running ≠ c.want → c.request ∈ (c.body s.station).2

def Granted (s : Wifi) (c : Call) (err : Request → ℤ) : Prop :=
  s.station.started ≠ c.want → err c.request = 0

theorem tryRequest_applyNetIf (err : Request → ℤ) (b : NvmMainBody) (d : Driver) :
    (applyNetIf b).foldl (tryRequest err) d = d := by
  unfold applyNetIf
  split_ifs <;> simp only [List.foldl_cons, List.foldl_nil, tryRequest, Driver.perform, ite_self]

theorem start_tries (err : Request → ℤ) (b : NvmMainBody) (config : StaConfig) (d : Driver) :
    ([Request.setMode, Request.setConfig config] ++ applyNetIf b ++ [Request.start]).foldl
      (tryRequest err) d = tryRequest err d .start := by
  have hmode : tryRequest err d .setMode = d := ite_self d
  have hconfig : tryRequest err d (.setConfig config) = d := ite_self d
  have hfront : [Request.setMode, Request.setConfig config].foldl (tryRequest err) d = d := by
    rw [List.foldl_cons, hmode, List.foldl_cons, hconfig, List.foldl_nil]
  rw [List.foldl_append, List.foldl_append, hfront, tryRequest_applyNetIf]
  rfl

theorem attempt_driver (s : Wifi) (err : Request → ℤ) (c : Call) :
    (Wifi.attempt s err c).1.driver =
      if s.station.started = c.want then s.driver else tryRequest err s.driver c.request := by
  cases c with
  | start b behind =>
    change ((WifiStation.start b behind s.station).2).foldl (tryRequest err) s.driver =
      if s.station.started = true then s.driver else tryRequest err s.driver .start
    unfold WifiStation.start
    split_ifs
    · rfl
    · exact start_tries err b _ s.driver
  | stop =>
    change ((WifiStation.stop s.station).2).foldl (tryRequest err) s.driver =
      if s.station.started = false then s.driver else tryRequest err s.driver .stop
    unfold WifiStation.stop
    cases s.station.started <;> rfl

theorem attempt_started (s : Wifi) (err : Request → ℤ) (c : Call) :
    (Wifi.attempt s err c).1.station.started = c.want := by
  cases c with
  | start b behind =>
    change (WifiStation.start b behind s.station).1.started = true
    unfold WifiStation.start
    split_ifs with h
    · exact h
    · rfl
  | stop =>
    change (WifiStation.stop s.station).1.started = false
    unfold WifiStation.stop
    split_ifs with h
    · exact Bool.not_eq_true' _ |>.mp h
    · rfl

theorem request_made {w : EspWifi} {c : Call} (h : w.started ≠ c.want) :
    c.request ∈ (c.body w).2 := by
  cases c with
  | start b behind =>
    change Request.start ∈ (WifiStation.start b behind w).2
    have hstarted : ¬ w.started = true := h
    unfold WifiStation.start
    rw [if_neg hstarted]
    exact List.mem_append_right _ List.mem_cons_self
  | stop =>
    change Request.stop ∈ (WifiStation.stop w).2
    have hstarted : w.started = true := by simpa [Call.want] using h
    unfold WifiStation.stop
    rw [hstarted]
    exact List.mem_cons_self

theorem perform_request (d : Driver) (c : Call) : (d.perform c.request).running = c.want := by
  cases c with
  | start b behind =>
    simp only [Call.request, Call.want, Driver.perform]
    split_ifs with h
    · exact h
    · rfl
  | stop =>
    change (if d.running then _ else d).running = false
    by_cases h : d.running = true
    · rw [if_pos h]
    · rw [if_neg h]
      exact Bool.not_eq_true _ |>.mp h

/-- From a flag that tells the truth a call does what it means exactly if the driver does not
refuse it. -/
theorem meant_iff {s : Wifi} (hsync : s.station.started = s.driver.running) (c : Call)
    (err : Request → ℤ) :
    Meant s c err ↔ Granted s c err := by
  have hstarted := attempt_started s err c
  have hdriver := attempt_driver s err c
  constructor
  · rintro ⟨hflag, -, -⟩ hne
    by_contra herr
    rw [if_neg hne, tryRequest, if_neg herr] at hdriver
    rw [hstarted, hdriver, ← hsync] at hflag
    exact hne hflag.symm
  · intro h
    have hrunning : (Wifi.attempt s err c).1.driver.running = c.want := by
      rw [hdriver]
      split_ifs with heq
      · exact hsync.symm.trans heq
      · rw [tryRequest, if_pos (h heq)]
        exact perform_request s.driver c
    exact ⟨hstarted.trans hrunning.symm, iff_of_true rfl hrunning,
      fun hne => request_made (hsync ▸ hne)⟩

def EveryCall (s : Wifi) (steps : List Step) (P : Wifi → Call → (Request → ℤ) → Prop) : Prop :=
  ∀ before c err later u, steps = before ++ .call c err :: later →
    run step s before = some u → P u c err

theorem call_enabled {s t : Wifi} {c : Call} {err : Request → ℤ}
    (h : step s (.call c err) = some t) :
    s.driver.queue = [] ∧ t = (Wifi.attempt s err c).1 := by
  obtain ⟨hqueue, ht⟩ := Option.ite_none_right_eq_some.mp h
  exact ⟨List.isEmpty_iff.mp hqueue, (Option.some.inj ht).symm⟩

theorem tracks_sync {s : Wifi} (h : Tracks (view s)) (hqueue : s.driver.queue = []) :
    s.station.started = s.driver.running := by
  simp only [Tracks, view, hqueue, List.filterMap_nil] at h
  exact h

theorem attempt_view {s : Wifi} {c : Call} {err : Request → ℤ} (h : err c.request = 0) :
    view (Wifi.attempt s err c).1 = (view s).command c.want := by
  have hperform : tryRequest (fun _ => 0) = Driver.perform := rfl
  have happly : (Wifi.attempt s (fun _ => 0) c).1 = s.apply c.body := by
    change Wifi.mk _ ((c.body s.station).2.foldl (tryRequest fun _ => 0) s.driver) = _
    rw [hperform]
    rfl
  have hdriver : (Wifi.attempt s err c).1.driver = (s.apply c.body).driver := by
    rw [← happly, attempt_driver, attempt_driver, tryRequest, tryRequest, if_pos h, if_pos rfl]
  have hview : view (Wifi.attempt s err c).1 = view (s.apply c.body) := by
    rw [view, view, hdriver]
    rfl
  rw [hview]
  cases c with
  | start b behind => exact start_view b behind s
  | stop => exact stop_view s

theorem attempt_tracks {s : Wifi} {c : Call} {err : Request → ℤ} (h : Tracks (view s))
    (hqueue : s.driver.queue = []) (hmeant : Meant s c err) :
    Tracks (view (Wifi.attempt s err c).1) := by
  by_cases heq : s.station.started = c.want
  · have hview : view (Wifi.attempt s err c).1 = view s := by
      rw [view, attempt_driver, attempt_started, if_pos heq, ← heq]
      rfl
    rw [hview]
    exact h
  · rw [attempt_view ((meant_iff (tracks_sync h hqueue) c err).mp hmeant heq)]
    exact command_tracks h c.want

theorem step_tracks (s : Wifi) (a : Step) (t : Wifi)
    (hmeant : ∀ c err, a = .call c err → s.station.started = s.driver.running → Meant s c err)
    (h : Tracks (view s)) (hstep : step s a = some t) : Tracks (view t) := by
  cases a with
  | call c err =>
    obtain ⟨hqueue, rfl⟩ := call_enabled hstep
    exact attempt_tracks h hqueue (hmeant c err rfl (tracks_sync h hqueue))
  | between a =>
    obtain ⟨-, hbetween⟩ := Option.ite_none_right_eq_some.mp hstep
    obtain ⟨ms, hms, -⟩ := step_view hbetween
    exact run_tracks h hms

theorem every_earlier {s : Wifi} {before : List Step} {c : Call} {err : Request → ℤ}
    {later : List Step} {P : Wifi → Call → (Request → ℤ) → Prop}
    (h : EveryCall s (before ++ .call c err :: later) P) : EveryCall s before P := by
  rintro done d e todo u rfl hu
  exact h done d e (todo ++ .call c err :: later) u (by simp) hu

theorem tracks_of_every {garbage : EspWifi} {steps : List Step} {u : Wifi}
    {P : Wifi → Call → (Request → ℤ) → Prop}
    (hP : ∀ s c err, s.station.started = s.driver.running → P s c err → Meant s c err)
    (h : EveryCall (initial garbage) steps P)
    (hrun : run step (initial garbage) steps = some u) : Tracks (view u) := by
  refine run_invariant_of_allowed step_tracks (initial_tracks garbage) ?_ hrun
  rintro done a todo t hsteps ht c err rfl hsync
  exact hP t c err hsync (h done c err todo t hsteps ht)

theorem call_of_run {garbage : EspWifi} {before : List Step} {c : Call} {err : Request → ℤ}
    {later : List Step} {s u : Wifi}
    (hrun : run step (initial garbage) (before ++ .call c err :: later) = some s)
    (hu : run step (initial garbage) before = some u) : u.driver.queue = [] := by
  obtain ⟨m, hm, hrest⟩ := run_append_iff.mp hrun
  rw [hu] at hm
  cases hm
  obtain ⟨t, ht, -⟩ := run_cons_iff.mp hrest
  exact (call_enabled ht).1

/-- Every call of a run does what it means exactly if no start or stop that the run asks of the
driver is refused. -/
theorem calls_meant_iff (garbage : EspWifi) (steps : List Step) (s : Wifi)
    (hrun : run step (initial garbage) steps = some s) :
    EveryCall (initial garbage) steps Meant ↔ EveryCall (initial garbage) steps Granted := by
  constructor
  · rintro h before c err later u rfl hu
    have htracks := tracks_of_every (fun _ _ _ _ hmeant => hmeant) (every_earlier h) hu
    exact (meant_iff (tracks_sync htracks (call_of_run hrun hu)) c err).mp
      (h before c err later u rfl hu)
  · rintro h before c err later u rfl hu
    have htracks := tracks_of_every (fun _ c err hsync => (meant_iff hsync c err).mpr)
      (every_earlier h) hu
    exact (meant_iff (tracks_sync htracks (call_of_run hrun hu)) c err).mpr
      (h before c err later u rfl hu)

def granting (_ : Request) : ℤ := 0

def refusing (_ : Request) : ℤ := -1

def refusedStart : List Step :=
  [.call (.start zeroBody []) refusing, .call (.start zeroBody []) granting]

def refusedRestart : List Step :=
  [.call (.start zeroBody []) granting, .between .deliver, .call .stop granting,
    .between .deliver] ++ refusedStart

theorem calls_meant_refusedRestart : ∃ s, run step (initial idleStation) refusedRestart = some s ∧
    (EveryCall (initial idleStation) refusedRestart Meant ↔
      EveryCall (initial idleStation) refusedRestart Granted) := by
  obtain ⟨s, hrun⟩ : ∃ s, run step (initial idleStation) refusedRestart = some s := ⟨_, rfl⟩
  exact ⟨s, hrun, calls_meant_iff idleStation refusedRestart s hrun⟩

theorem refusedStart_off : ∃ u s, run step (initial idleStation) (refusedStart.take 1) = some u ∧
    run step (initial idleStation) refusedStart = some s ∧
    (Wifi.attempt (initial idleStation) refusing (.start zeroBody [])).2 = 0 ∧
    u.station.started = true ∧ u.driver.running = false ∧
    (Call.body (.start zeroBody []) u.station).2 = [] ∧ s.driver.running = false ∧
    ¬ EveryCall (initial idleStation) refusedStart Meant := by
  refine ⟨_, _, rfl, rfl, rfl, rfl, rfl, rfl, rfl, fun h => ?_⟩
  have hflag := (h [] (.start zeroBody []) refusing _ _ rfl rfl).flag
  exact Bool.noConfusion hflag

end MeshRoofFirmware.WifiFailures
