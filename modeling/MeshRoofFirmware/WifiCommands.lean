import MeshRoofFirmware.WifiStation
import MeshRoofFirmware.Library.CachedSwitch

set_option autoImplicit false

namespace MeshRoofFirmware.WifiCommands
open Library.ByteCodec Library.Runs Library.CachedSwitch NvmLayout ConfigFields
open WifiStation

/-- The Wi-Fi driver: whether it runs and is associated, and its undelivered events. -/
structure Driver where
  running : Bool
  associated : Bool
  queue : List Event

def Driver.perform (d : Driver) : Request → Driver
  | .start => if d.running then d else { d with running := true, queue := d.queue ++ [.staStart] }
  | .stop =>
    if d.running then
      ⟨false, false, d.queue ++ (if d.associated then [.staDisconnected] else []) ++ [.staStop]⟩
    else d
  | .disconnect =>
    if d.associated then
      { d with associated := false, queue := d.queue ++ [.staDisconnected] }
    else d
  | _ => d

structure Wifi where
  station : EspWifi
  driver : Driver

def Wifi.apply (s : Wifi) (f : EspWifi → EspWifi × List Request) : Wifi :=
  ⟨(f s.station).1, (f s.station).2.foldl Driver.perform s.driver⟩

/-- The two calls, the delivery of the oldest event, and what the driver does on its own. -/
inductive Step where
  | start (b : NvmMainBody) (behind : Bytes)
  | stop
  | deliver
  | associate (payload : StaConnected)
  | lose
  | post (info : IpInfo) (dns1 dns2 dns3 : UInt32)

def step (s : Wifi) : Step → Option Wifi
  | .start b behind => some (s.apply (start b behind))
  | .stop => some (s.apply stop)
  | .deliver =>
    match s.driver.queue with
    | [] => none
    | event :: rest =>
      some (Wifi.apply ⟨s.station, { s.driver with queue := rest }⟩
        (fun w => espEventHandler w event))
  | .associate payload =>
    if s.driver.running && !s.driver.associated then
      some { s with driver := { s.driver with
        associated := true, queue := s.driver.queue ++ [.staConnected payload] } }
    else none
  | .lose =>
    if s.driver.associated then
      some { s with driver := { s.driver with
        associated := false, queue := s.driver.queue ++ [.staDisconnected] } }
    else none
  | .post info dns1 dns2 dns3 =>
    if s.driver.running then
      some { s with driver := { s.driver with
        queue := s.driver.queue ++ [.staGotIp info dns1 dns2 dns3] } }
    else none

def Step.wants? : Step → Option Bool
  | .start _ _ => some true
  | .stop => some false
  | _ => none

def Event.switches? : Event → Option Bool
  | .staStart => some true
  | .staStop => some false
  | _ => none

/-- The object's flag and the driver, with the start and stop events under way. -/
def view (s : Wifi) : Switch Bool :=
  ⟨s.station.started, s.driver.running, s.driver.queue.filterMap Event.switches?⟩

theorem perform_applyNetIf (b : NvmMainBody) (d : Driver) :
    (applyNetIf b).foldl Driver.perform d = d := by
  unfold applyNetIf
  split_ifs <;> rfl

theorem start_view (b : NvmMainBody) (behind : Bytes) (s : Wifi) :
    view (s.apply (start b behind)) = (view s).command true := by
  unfold Wifi.apply start Switch.command
  by_cases hstarted : s.station.started = true
  · simp only [hstarted, view, ↓reduceIte, List.foldl_nil]
  · simp only [hstarted, Bool.false_eq_true, ↓reduceIte, List.foldl_append, perform_applyNetIf,
      List.foldl_cons, List.foldl_nil, Driver.perform, view]
    by_cases hrunning : s.driver.running = true
    · simp only [hrunning, ↓reduceIte]
    · simp only [hrunning, Bool.false_eq_true, ↓reduceIte, List.filterMap_append]
      rfl

theorem stop_view (s : Wifi) : view (s.apply stop) = (view s).command false := by
  unfold Wifi.apply stop Switch.command
  by_cases hstarted : s.station.started = true
  · simp only [hstarted, view, Bool.not_true, Bool.false_eq_true, ↓reduceIte, List.foldl_cons,
      List.foldl_nil, Driver.perform, Bool.true_eq_false]
    by_cases hrunning : s.driver.running = true
    · simp only [hrunning, ↓reduceIte, List.filterMap_append, Bool.true_eq_false]
      cases s.driver.associated <;> simp [Event.switches?]
    · simp only [hrunning, Bool.false_eq_true, ↓reduceIte]
  · simp only [hstarted, view, Bool.not_false, ↓reduceIte, List.foldl_nil]

theorem perform_view (d : Driver) {requests : List Request}
    (h : ∀ r ∈ requests, r = .connect ∨ r = .disconnect) :
    (requests.foldl Driver.perform d).running = d.running ∧
      (requests.foldl Driver.perform d).queue.filterMap Event.switches? =
        d.queue.filterMap Event.switches? := by
  induction requests generalizing d with
  | nil => exact ⟨rfl, rfl⟩
  | cons r requests ih =>
    obtain ⟨hrunning, hqueue⟩ := ih (d.perform r) (fun q hq => h q (List.mem_cons_of_mem _ hq))
    rw [List.foldl_cons, hrunning, hqueue]
    rcases h r List.mem_cons_self with rfl | rfl
    · exact ⟨rfl, rfl⟩
    · by_cases hassociated : d.associated = true
      · simp only [Driver.perform, hassociated, ↓reduceIte, List.filterMap_append, true_and]
        exact List.append_nil _
      · simp only [Driver.perform, hassociated, Bool.false_eq_true, ↓reduceIte, and_self]

theorem handler_requests (w : EspWifi) (e : Event) :
    ∀ r ∈ (espEventHandler w e).2, r = .connect ∨ r = .disconnect := by
  cases e with
  | staDisconnected =>
    intro r hr
    change r ∈ (if w.started then [Request.connect] else []) at hr
    split_ifs at hr
    · exact Or.inl (List.mem_singleton.mp hr)
    · cases hr
  | staStart =>
    intro r hr
    exact Or.inl (List.mem_singleton.mp hr)
  | staStop =>
    intro r hr
    exact Or.inr (List.mem_singleton.mp hr)
  | _ => intro r hr; cases hr

theorem handler_started (w : EspWifi) (e : Event) :
    (espEventHandler w e).1.started = (Event.switches? e).getD w.started := by
  cases e <;> rfl

theorem step_view {s t : Wifi} {a : Step} (h : step s a = some t) :
    ∃ ms, run move (view s) ms = some (view t) ∧
      ms.filterMap Move.command? = a.wants?.toList := by
  cases a with
  | start b behind =>
    cases h
    refine ⟨[.command true], ?_, rfl⟩
    rw [start_view]
    rfl
  | stop =>
    cases h
    refine ⟨[.command false], ?_, rfl⟩
    rw [stop_view]
    rfl
  | deliver =>
    cases hqueue : s.driver.queue with
    | nil => simp [step, hqueue] at h
    | cons event rest =>
      simp only [step, hqueue, Option.some.injEq] at h
      subst h
      obtain ⟨hrunning, hpending⟩ := perform_view { s.driver with queue := rest }
        (handler_requests s.station event)
      have hview : view (Wifi.apply ⟨s.station, { s.driver with queue := rest }⟩
          (fun w => espEventHandler w event)) =
          ⟨(Event.switches? event).getD s.station.started, s.driver.running,
            rest.filterMap Event.switches?⟩ := by
        rw [view, ← handler_started, ← hpending]
        exact congrArg (fun running => Switch.mk _ running _) hrunning
      rw [hview]
      cases hswitch : Event.switches? event with
      | none =>
        refine ⟨[], ?_, rfl⟩
        rw [run_nil, view, hqueue, List.filterMap_cons_none hswitch]
        rfl
      | some mode =>
        refine ⟨[.arrive], ?_, rfl⟩
        rw [view, hqueue, List.filterMap_cons_some hswitch]
        rfl
  | associate payload | lose | post =>
    refine ⟨[], ?_, rfl⟩
    simp only [step, Option.ite_none_right_eq_some, Option.some.injEq] at h
    obtain ⟨-, rfl⟩ := h
    simp [run_nil, view, List.filterMap_append, Event.switches?]

theorem run_view {s t : Wifi} {steps : List Step} (h : run step s steps = some t) :
    ∃ ms, run move (view s) ms = some (view t) ∧
      ms.filterMap Move.command? = steps.filterMap Step.wants? := by
  induction steps generalizing s with
  | nil =>
    cases h
    exact ⟨[], rfl, rfl⟩
  | cons a steps ih =>
    obtain ⟨u, hu, hrest⟩ := run_cons_iff.mp h
    obtain ⟨ms, hms, hcommands⟩ := step_view hu
    obtain ⟨ns, hns, hlater⟩ := ih hrest
    refine ⟨ms ++ ns, run_append_iff.mpr ⟨_, hms, hns⟩, ?_⟩
    rw [List.filterMap_append, hcommands, hlater]
    cases hwants : a.wants? with
    | none => rw [List.filterMap_cons_none hwants]; rfl
    | some want => rw [List.filterMap_cons_some hwants]; rfl

def initial (garbage : EspWifi) : Wifi := ⟨construct garbage, ⟨false, false, []⟩⟩

def lastCall (steps : List Step) : Option Bool := (steps.filterMap Step.wants?).getLast?

/-- The last call is not met by a flag that already says what it wants while the driver does
something else. -/
def Heard (s : Wifi) (steps : List Step) : Prop :=
  ∀ before call later want u, steps = before ++ call :: later → call.wants? = some want →
    later.filterMap Step.wants? = [] → run step s before = some u →
      u.station.started = want → u.driver.running = want

theorem initial_tracks (garbage : EspWifi) : Tracks (view (initial garbage)) := rfl

theorem run_view_tracks {s t : Wifi} {steps : List Step} (h : Tracks (view s))
    (hrun : run step s steps = some t) : Tracks (view t) := by
  obtain ⟨ms, hms, -⟩ := run_view hrun
  exact run_tracks h hms

theorem call_view {u v : Wifi} {call : Step} {want : Bool} (hcall : call.wants? = some want)
    (h : step u call = some v) : view v = (view u).command want := by
  cases call with
  | start b behind =>
    cases hcall
    cases h
    exact start_view b behind u
  | stop =>
    cases hcall
    cases h
    exact stop_view u
  | _ => cases hcall

theorem lastCall_eq_some {steps : List Step} {want : Bool} (h : lastCall steps = some want) :
    ∃ before call later, steps = before ++ call :: later ∧ call.wants? = some want ∧
      later.filterMap Step.wants? = [] := by
  obtain ⟨front, hfront⟩ := List.getLast?_eq_some_iff.mp h
  obtain ⟨before, back, rfl, -, hback⟩ := List.filterMap_eq_append_iff.mp hfront
  obtain ⟨quiet, call, later, rfl, -, hcall, hlater⟩ := List.filterMap_eq_cons_iff.mp hback
  exact ⟨before ++ quiet, call, later, by rw [List.append_assoc], hcall, hlater⟩

theorem lastCall_of_split {before later : List Step} {call : Step} {want : Bool}
    (hcall : call.wants? = some want) (hlater : later.filterMap Step.wants? = []) :
    lastCall (before ++ call :: later) = some want := by
  rw [lastCall, List.filterMap_append, List.filterMap_cons_some hcall, hlater]
  exact List.getLast?_concat

theorem drained_wins_iff {garbage : EspWifi} {before later : List Step} {call : Step}
    {want : Bool} {u s : Wifi} (hcall : call.wants? = some want)
    (hlater : later.filterMap Step.wants? = [])
    (hu : run step (initial garbage) before = some u)
    (hrun : run step u (call :: later) = some s) (hdone : s.driver.queue = []) :
    (s.driver.running = want ∧ s.station.started = want) ↔
      (u.station.started = want → u.driver.running = want) := by
  obtain ⟨v, hv, hrest⟩ := run_cons_iff.mp hrun
  obtain ⟨ms, hms, hquiet⟩ := run_view hrest
  rw [call_view hcall hv] at hms
  have hpending : (view s).pending = [] := by
    change s.driver.queue.filterMap Event.switches? = []
    rw [hdone]
    rfl
  exact last_command_wins_iff (run_view_tracks (initial_tracks garbage) hu)
    (hquiet.trans hlater) hms hpending

/-- Once every event has been delivered the driver and the flag are as the last call asked,
exactly if that call was heard. -/
theorem last_call_wins_iff (garbage : EspWifi) (steps : List Step) (s : Wifi)
    (hrun : run step (initial garbage) steps = some s) (hdone : s.driver.queue = []) :
    ((s.driver.running = true ↔ lastCall steps = some true) ∧
      (s.station.started = true ↔ lastCall steps = some true)) ↔
        Heard (initial garbage) steps := by
  constructor
  · rintro ⟨hrunning, hstarted⟩ before call later want u rfl hcall hlater hu
    obtain ⟨m, hm, hrest⟩ := run_append_iff.mp hrun
    rw [hu] at hm
    cases hm
    rw [lastCall_of_split hcall hlater, Option.some.injEq, ← Bool.eq_iff_iff] at hrunning hstarted
    exact (drained_wins_iff hcall hlater hu hrest hdone).mp ⟨hrunning, hstarted⟩
  · intro hheard
    cases hlast : lastCall steps with
    | none =>
      have hnone : steps.filterMap Step.wants? = [] := List.getLast?_eq_none_iff.mp hlast
      obtain ⟨ms, hms, hquiet⟩ := run_view hrun
      have hactual : s.driver.running = false := run_quiet (hquiet.trans hnone) hms
      have htracks := run_tracks (initial_tracks garbage) hms
      have hflag : s.station.started = s.driver.running := by
        simp only [Tracks, view, hdone, List.filterMap_nil] at htracks
        exact htracks
      rw [hflag, hactual]
      exact ⟨by simp, by simp⟩
    | some want =>
      obtain ⟨before, call, later, rfl, hcall, hlater⟩ := lastCall_eq_some hlast
      obtain ⟨u, hu, hrest⟩ := run_append_iff.mp hrun
      have hwins := (drained_wins_iff hcall hlater hu hrest hdone).mpr
        (hheard before call later want u rfl hcall hlater hu)
      rw [Option.some.injEq, hwins.1, hwins.2]
      exact ⟨Iff.rfl, Iff.rfl⟩

/-- The second start finds the flag set by the late event of the first and does nothing. -/
def swallowedStart : List Step :=
  [.start zeroBody [], .stop, .deliver, .start zeroBody [], .deliver]

def startedAgain : List Step := swallowedStart ++ [.start zeroBody [], .deliver]

theorem last_call_wins_startedAgain : ∃ s, run step (initial idleStation) startedAgain = some s ∧
    s.driver.queue = [] ∧
    (((s.driver.running = true ↔ lastCall startedAgain = some true) ∧
        (s.station.started = true ↔ lastCall startedAgain = some true)) ↔
      Heard (initial idleStation) startedAgain) := by
  obtain ⟨s, hrun, hdone⟩ : ∃ s, run step (initial idleStation) startedAgain = some s ∧
      s.driver.queue = [] := ⟨_, rfl, rfl⟩
  exact ⟨s, hrun, hdone, last_call_wins_iff idleStation startedAgain s hrun hdone⟩

theorem swallowedStart_stopped : ∃ s, run step (initial idleStation) swallowedStart = some s ∧
    s.driver.queue = [] ∧ lastCall swallowedStart = some true ∧ s.driver.running = false ∧
      s.station.started = false :=
  ⟨_, rfl, rfl, rfl, rfl, rfl⟩

end MeshRoofFirmware.WifiCommands
