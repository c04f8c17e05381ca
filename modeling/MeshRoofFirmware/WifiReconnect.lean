import MeshRoofFirmware.WifiCommands

set_option autoImplicit false

namespace MeshRoofFirmware.WifiReconnect
open Library.ByteCodec Library.Runs Library.CachedSwitch NvmLayout WifiStation
open WifiCommands hiding Step step

structure Radio where
  wifi : Wifi
  trying : Bool

/-- A step as before, or the driver gives up the access point it has looked for. -/
inductive Step where
  | wifi (a : WifiCommands.Step)
  | giveUp

def asks (s : Wifi) : WifiCommands.Step → List Request
  | .start b behind => (start b behind s.station).2
  | .stop => (stop s.station).2
  | .deliver =>
    match s.driver.queue with
    | [] => []
    | event :: _ => (espEventHandler s.station event).2
  | _ => []

/-- A running driver without an access point looks for one from a call to connect on. -/
def tries (d : Driver) (trying : Bool) : Request → Bool
  | .connect => trying || (d.running && !d.associated)
  | .stop => false
  | .disconnect => false
  | _ => trying

def step (s : Radio) : Step → Option Radio
  | .wifi (.associate payload) =>
    if s.trying then
      (WifiCommands.step s.wifi (.associate payload)).map fun wifi => ⟨wifi, false⟩
    else none
  | .wifi a =>
    (WifiCommands.step s.wifi a).map fun wifi =>
      ⟨wifi, (asks s.wifi a).foldl (tries s.wifi.driver) s.trying⟩
  | .giveUp =>
    if s.trying then
      some ⟨⟨s.wifi.station, { s.wifi.driver with
        queue := s.wifi.driver.queue ++ [.staDisconnected] }⟩, false⟩
    else none

def initial (garbage : EspWifi) : Radio := ⟨WifiCommands.initial garbage, false⟩

/-- The flag and the attempt after one more event, at a driver that runs unassociated. -/
def hear (p : Bool × Bool) : Event → Bool × Bool
  | .staStart => (true, true)
  | .staStop => (false, false)
  | .staDisconnected => (p.1, p.2 || p.1)
  | _ => p

def heard (p : Bool × Bool) (queue : List Event) : Bool × Bool := queue.foldl hear p

theorem heard_fst (p : Bool × Bool) (queue : List Event) :
    (heard p queue).1 = (queue.filterMap Event.switches?).getLast?.getD p.1 := by
  induction queue generalizing p with
  | nil => rfl
  | cons e queue ih =>
    have hflag : (hear p e).1 = (Event.switches? e).getD p.1 := by cases e <;> rfl
    change (heard (hear p e) queue).1 = _
    rw [ih, hflag, List.filterMap_cons]
    cases Event.switches? e with
    | none => rfl
    | some mode =>
      dsimp only
      rw [List.getLast?_cons, Option.getD_some, Option.getD_some]

def Below (p q : Bool × Bool) : Prop := (p.1 = true → q.1 = true) ∧ (p.2 = true → q.2 = true)

theorem hear_mono {p q : Bool × Bool} (h : Below p q) (e : Event) :
    Below (hear p e) (hear q e) := by
  cases e with
  | staStart => exact ⟨fun _ => rfl, fun _ => rfl⟩
  | staStop => exact ⟨id, id⟩
  | staDisconnected =>
    refine ⟨h.1, fun htrying => ?_⟩
    change (p.2 || p.1) = true at htrying
    change (q.2 || q.1) = true
    rw [Bool.or_eq_true] at htrying ⊢
    exact htrying.imp h.2 h.1
  | _ => exact h

theorem heard_mono {p q : Bool × Bool} (h : Below p q) (queue : List Event) :
    Below (heard p queue) (heard q queue) := by
  induction queue generalizing p q with
  | nil => exact h
  | cons e queue ih => exact ih (hear_mono h e)

/-- A driver that runs unassociated looks for an access point once its events are delivered. -/
structure Hopeful (s : Radio) : Prop where
  tracks : Tracks (view s.wifi)
  sane : s.trying = true → s.wifi.driver.running = true ∧ s.wifi.driver.associated = false
  hope : s.wifi.driver.running = true → s.wifi.driver.associated = false →
    (heard (s.wifi.station.started, s.trying) s.wifi.driver.queue).2 = true

theorem initial_hopeful (garbage : EspWifi) : Hopeful (initial garbage) :=
  ⟨initial_tracks garbage, nofun, nofun⟩

/-- A disconnect event that comes last finds the flag as the driver is. -/
theorem heard_disconnected {s : Wifi} (h : Tracks (view s)) (hrunning : s.driver.running = true)
    {rest : List Event} (hqueue : s.driver.queue = rest ++ [.staDisconnected]) (trying : Bool) :
    (heard (s.station.started, trying) s.driver.queue).2 = true := by
  have hswitches : s.driver.queue.filterMap Event.switches? = rest.filterMap Event.switches? := by
    rw [hqueue, List.filterMap_append]
    exact List.append_nil _
  have htracks : (s.driver.queue.filterMap Event.switches?).getLast?.getD s.station.started =
      s.driver.running := h
  have hflag := heard_fst (s.station.started, trying) rest
  rw [← hswitches, htracks, hrunning] at hflag
  rw [hqueue, heard, List.foldl_append]
  change ((heard (s.station.started, trying) rest).2 ||
    (heard (s.station.started, trying) rest).1) = true
  rw [hflag, Bool.or_true]

theorem start_tries (b : NvmMainBody) (behind : Bytes) (w : EspWifi) (d : Driver) (trying : Bool) :
    (start b behind w).2.foldl (tries d) trying = trying := by
  unfold start applyNetIf
  split_ifs <;> rfl

theorem start_driver (b : NvmMainBody) (behind : Bytes) (s : Wifi) :
    (s.apply (start b behind)).driver =
      if s.station.started then s.driver else s.driver.perform .start := by
  change (start b behind s.station).2.foldl Driver.perform s.driver = _
  unfold start
  split_ifs
  · rfl
  · rw [List.foldl_append, List.foldl_append]
    simp only [List.foldl_cons, List.foldl_nil, perform_applyNetIf]
    rfl

theorem start_flag (b : NvmMainBody) (behind : Bytes) (s : Wifi) :
    (s.apply (start b behind)).station.started = true := by
  change (start b behind s.station).1.started = true
  unfold start
  split_ifs with hstarted
  · exact hstarted
  · rfl

theorem start_hopeful {s : Radio} (h : Hopeful s) (b : NvmMainBody) (behind : Bytes) :
    Hopeful ⟨s.wifi.apply (start b behind), s.trying⟩ := by
  have hdriver := start_driver b behind s.wifi
  have htracks : Tracks (view (s.wifi.apply (start b behind))) := by
    rw [start_view]
    exact command_tracks h.tracks true
  by_cases hstarted : s.wifi.station.started = true
  · rw [if_pos hstarted] at hdriver
    refine ⟨htracks, by rw [hdriver]; exact h.sane, ?_⟩
    have hhope := h.hope
    rw [hstarted] at hhope
    rw [start_flag, hdriver]
    exact hhope
  rw [if_neg hstarted, Driver.perform] at hdriver
  by_cases hrunning : s.wifi.driver.running = true
  · rw [if_pos hrunning] at hdriver
    refine ⟨htracks, by rw [hdriver]; exact h.sane, ?_⟩
    rw [start_flag, hdriver]
    intro hon hfree
    have hbelow : Below (s.wifi.station.started, s.trying) (true, s.trying) := ⟨fun _ => rfl, id⟩
    exact (heard_mono hbelow s.wifi.driver.queue).2 (h.hope hon hfree)
  · rw [if_neg hrunning] at hdriver
    refine ⟨htracks, fun htrying => absurd (h.sane htrying).1 hrunning, ?_⟩
    rw [hdriver]
    intro _ _
    change (heard _ (s.wifi.driver.queue ++ [.staStart])).2 = true
    rw [heard, List.foldl_append]
    rfl

theorem stop_hopeful {s : Radio} (h : Hopeful s) :
    Hopeful ⟨s.wifi.apply stop, (stop s.wifi.station).2.foldl (tries s.wifi.driver) s.trying⟩ := by
  have htracks : Tracks (view (s.wifi.apply stop)) := by
    rw [stop_view]
    exact command_tracks h.tracks false
  by_cases hstarted : s.wifi.station.started = true
  · have hstop : stop s.wifi.station = ({ s.wifi.station with started := false }, [.stop]) := by
      rw [stop, hstarted]
      rfl
    have hoff : (s.wifi.apply stop).driver.running = false := by
      change ((stop s.wifi.station).2.foldl Driver.perform s.wifi.driver).running = false
      rw [hstop]
      change (s.wifi.driver.perform .stop).running = false
      by_cases hrunning : s.wifi.driver.running = true
      · rw [Driver.perform, if_pos hrunning]
      · rw [Driver.perform, if_neg hrunning]
        exact Bool.eq_false_iff.mpr hrunning
    refine ⟨htracks, fun htrying => ?_, fun hon => ?_⟩
    · rw [hstop] at htrying
      cases htrying
    · rw [hoff] at hon
      cases hon
  · have hstop : stop s.wifi.station = (s.wifi.station, []) := by
      rw [stop, Bool.eq_false_iff.mpr hstarted]
      rfl
    have hsame : s.wifi.apply stop = s.wifi := by
      rw [Wifi.apply, hstop]
      rfl
    rw [hsame, hstop]
    exact h

def Radio.hears (s : Radio) (event : Event) (rest : List Event) : Radio :=
  ⟨Wifi.apply ⟨s.wifi.station, { s.wifi.driver with queue := rest }⟩
      (fun w => espEventHandler w event),
    (espEventHandler s.wifi.station event).2.foldl (tries s.wifi.driver) s.trying⟩

theorem deliver_eq_some {s t : Radio} :
    step s (.wifi .deliver) = some t ↔
      ∃ event rest, s.wifi.driver.queue = event :: rest ∧ t = s.hears event rest := by
  unfold step asks WifiCommands.step
  cases hqueue : s.wifi.driver.queue with
  | nil => simp
  | cons event rest => simp [Radio.hears, eq_comm]

theorem hears_tracks {s : Radio} (h : Hopeful s) {event : Event} {rest : List Event}
    (hqueue : s.wifi.driver.queue = event :: rest) : Tracks (view (s.hears event rest).wifi) := by
  have hstep : WifiCommands.step s.wifi .deliver = some (s.hears event rest).wifi := by
    rw [WifiCommands.step, hqueue]
    rfl
  obtain ⟨ms, hms, -⟩ := step_view hstep
  exact run_tracks h.tracks hms

theorem hears_running (s : Radio) (event : Event) (rest : List Event) :
    (s.hears event rest).wifi.driver.running = s.wifi.driver.running :=
  (perform_view { s.wifi.driver with queue := rest } (handler_requests s.wifi.station event)).1

theorem hears_free {s : Radio} (hfree : s.wifi.driver.associated = false) (event : Event)
    (rest : List Event) :
    (s.hears event rest).wifi.driver = { s.wifi.driver with queue := rest } ∧
      (s.hears event rest).wifi.station.started =
        (hear (s.wifi.station.started, s.trying) event).1 ∧
      ((s.hears event rest).trying = true →
        s.trying = true ∨ s.wifi.driver.running = true) ∧
      (s.wifi.driver.running = true →
        (s.hears event rest).trying = (hear (s.wifi.station.started, s.trying) event).2) := by
  cases event with
  | staStart =>
    refine ⟨rfl, rfl, fun h => ?_, fun hon => ?_⟩
    · change (s.trying || (s.wifi.driver.running && !s.wifi.driver.associated)) = true at h
      rw [hfree, Bool.not_false, Bool.and_true, Bool.or_eq_true] at h
      exact h
    · change (s.trying || (s.wifi.driver.running && !s.wifi.driver.associated)) = true
      rw [hon, hfree, Bool.not_false, Bool.and_true, Bool.or_true]
  | staStop =>
    refine ⟨?_, rfl, fun h => ?_, fun _ => rfl⟩
    · change Driver.perform { s.wifi.driver with queue := rest } .disconnect = _
      rw [Driver.perform, hfree]
      rfl
    · cases h
  | staDisconnected =>
    have hrequests : (espEventHandler s.wifi.station .staDisconnected).2 =
        if s.wifi.station.started then [.connect] else [] := rfl
    have htrying : (s.hears .staDisconnected rest).trying =
        (s.trying || (s.wifi.station.started && s.wifi.driver.running)) := by
      change (espEventHandler s.wifi.station .staDisconnected).2.foldl _ s.trying = _
      rw [hrequests]
      cases s.wifi.station.started with
      | false => simp
      | true => simp [tries, hfree]
    refine ⟨?_, rfl, fun h => ?_, fun hon => ?_⟩
    · change (espEventHandler s.wifi.station .staDisconnected).2.foldl Driver.perform
        { s.wifi.driver with queue := rest } = _
      rw [hrequests]
      split_ifs <;> rfl
    · rw [htrying, Bool.or_eq_true, Bool.and_eq_true] at h
      exact h.imp id And.right
    · rw [htrying, hon, Bool.and_true]
      rfl
  | homeChannelChange | staConnected | staGotIp | unhandled =>
    exact ⟨rfl, rfl, Or.inl, fun _ => rfl⟩

theorem hears_associated {s : Radio} (hassociated : s.wifi.driver.associated = true)
    (hquiet : s.trying = false) (event : Event) (rest : List Event) :
    (s.hears event rest).trying = false ∧
      ((s.hears event rest).wifi.driver.associated = true ∨
        (s.hears event rest).wifi.driver.queue = rest ++ [.staDisconnected]) := by
  cases event with
  | staStart =>
    refine ⟨?_, Or.inl hassociated⟩
    change (s.trying || (s.wifi.driver.running && !s.wifi.driver.associated)) = false
    rw [hquiet, hassociated, Bool.not_true, Bool.and_false, Bool.or_false]
  | staStop =>
    refine ⟨rfl, Or.inr ?_⟩
    change (Driver.perform { s.wifi.driver with queue := rest } .disconnect).queue = _
    rw [Driver.perform, hassociated]
    rfl
  | staDisconnected =>
    have hrequests : (espEventHandler s.wifi.station .staDisconnected).2 =
        if s.wifi.station.started then [.connect] else [] := rfl
    unfold Radio.hears Wifi.apply
    dsimp only
    rw [hrequests]
    split_ifs
    · refine ⟨?_, Or.inl hassociated⟩
      simp [tries, hquiet, hassociated]
    · exact ⟨hquiet, Or.inl hassociated⟩
  | homeChannelChange | staConnected | staGotIp | unhandled =>
    exact ⟨hquiet, Or.inl hassociated⟩

theorem hears_hopeful {s : Radio} (h : Hopeful s) {event : Event} {rest : List Event}
    (hqueue : s.wifi.driver.queue = event :: rest) : Hopeful (s.hears event rest) := by
  have htracks := hears_tracks h hqueue
  have hrunning := hears_running s event rest
  cases hassociated : s.wifi.driver.associated with
  | false =>
    obtain ⟨hdriver, hflag, hsane, htrying⟩ := hears_free hassociated event rest
    refine ⟨htracks, fun ht => ⟨?_, ?_⟩, fun hon hfree => ?_⟩
    · rw [hrunning]
      exact (hsane ht).elim (fun hs => (h.sane hs).1) id
    · rw [hdriver]
      exact hassociated
    · rw [hrunning] at hon
      have hhope := h.hope hon hassociated
      rw [hqueue] at hhope
      rw [hflag, htrying hon, hdriver]
      exact hhope
  | true =>
    have hquiet : s.trying = false := by
      by_contra hs
      have hfree := (h.sane ((Bool.not_eq_false _).mp hs)).2
      rw [hassociated] at hfree
      cases hfree
    obtain ⟨hoff, hstill⟩ := hears_associated hassociated hquiet event rest
    refine ⟨htracks, fun ht => ?_, fun hon hfree => ?_⟩
    · rw [hoff] at ht
      cases ht
    · rcases hstill with hstill | hlast
      · rw [hfree] at hstill
        cases hstill
      · -- the handler has just disconnected the driver, and is going to hear of it
        exact heard_disconnected htracks hon hlast _

theorem joined_tracks {s : Wifi} (h : Tracks (view s)) {d : Driver} {e : Event}
    (hevent : Event.switches? e = none) (hrunning : d.running = s.driver.running)
    (hqueue : d.queue = s.driver.queue ++ [e]) : Tracks (view ⟨s.station, d⟩) := by
  have hview : view ⟨s.station, d⟩ = view s := by
    rw [view, hqueue, List.filterMap_append, List.filterMap_cons_none hevent, hrunning]
    exact congrArg (Switch.mk _ _) (List.append_nil _)
  rw [hview]
  exact h

theorem step_hopeful (s : Radio) (a : Step) (t : Radio) (h : Hopeful s)
    (hstep : step s a = some t) : Hopeful t := by
  cases a with
  | giveUp =>
    obtain ⟨-, ht⟩ := Option.ite_none_right_eq_some.mp hstep
    cases ht
    have htracks := joined_tracks h.tracks (e := .staDisconnected) (d := { s.wifi.driver with
      queue := s.wifi.driver.queue ++ [.staDisconnected] }) rfl rfl rfl
    exact ⟨htracks, nofun, fun hon _ => heard_disconnected htracks hon rfl false⟩
  | wifi a =>
    cases a with
    | start b behind =>
      cases hstep
      have htrying := start_tries b behind s.wifi.station s.wifi.driver s.trying
      change Hopeful ⟨_, (start b behind s.wifi.station).2.foldl _ s.trying⟩
      rw [htrying]
      exact start_hopeful h b behind
    | stop =>
      cases hstep
      exact stop_hopeful h
    | deliver =>
      obtain ⟨event, rest, hqueue, rfl⟩ := deliver_eq_some.mp hstep
      exact hears_hopeful h hqueue
    | associate payload =>
      obtain ⟨-, hmap⟩ := Option.ite_none_right_eq_some.mp hstep
      obtain ⟨wifi, hwifi, rfl⟩ := Option.map_eq_some_iff.mp hmap
      obtain ⟨-, hwifi⟩ := Option.ite_none_right_eq_some.mp hwifi
      cases hwifi
      refine ⟨joined_tracks h.tracks (e := .staConnected payload) rfl rfl rfl, nofun, ?_⟩
      intro _ hfree
      cases hfree
    | lose =>
      obtain ⟨wifi, hwifi, rfl⟩ := Option.map_eq_some_iff.mp hstep
      obtain ⟨hassociated, hwifi⟩ := Option.ite_none_right_eq_some.mp hwifi
      cases hwifi
      have htracks := joined_tracks h.tracks (e := .staDisconnected) (d :=
        { s.wifi.driver with
          associated := false
          queue := s.wifi.driver.queue ++ [.staDisconnected] }) rfl rfl rfl
      refine ⟨htracks, fun ht => ?_, fun hon _ => heard_disconnected htracks hon rfl _⟩
      have hfree := (h.sane ht).2
      rw [hassociated] at hfree
      cases hfree
    | post info dns1 dns2 dns3 =>
      obtain ⟨wifi, hwifi, rfl⟩ := Option.map_eq_some_iff.mp hstep
      obtain ⟨-, hwifi⟩ := Option.ite_none_right_eq_some.mp hwifi
      cases hwifi
      refine ⟨joined_tracks h.tracks (e := .staGotIp info dns1 dns2 dns3) rfl rfl rfl,
        h.sane, fun hon hfree => ?_⟩
      change (heard _ (s.wifi.driver.queue ++ [.staGotIp info dns1 dns2 dns3])).2 = true
      rw [heard, List.foldl_append]
      exact h.hope hon hfree

/-- However the calls, the events and the driver's own steps interleave: once every event has
been delivered, the driver looks for its access point exactly if it runs and has none. -/
theorem drained_tries_iff (garbage : EspWifi) {acts : List Step} {s : Radio}
    (hrun : run step (initial garbage) acts = some s) (hdone : s.wifi.driver.queue = []) :
    s.trying = true ↔ s.wifi.driver.running = true ∧ s.wifi.driver.associated = false := by
  have h := run_invariant step_hopeful (initial_hopeful garbage) hrun
  refine ⟨h.sane, fun ⟨hon, hfree⟩ => ?_⟩
  have hhope := h.hope hon hfree
  rw [hdone] at hhope
  exact hhope

def lostInRestart : List Step :=
  [.wifi (.start zeroBody []), .wifi .deliver, .wifi (.associate zeroConnected), .wifi .deliver,
    .wifi .stop, .wifi (.start zeroBody []), .wifi .deliver, .wifi .deliver, .wifi .deliver,
    .giveUp, .wifi .deliver]

theorem drained_tries_restart : ∃ s, run step (initial idleStation) lostInRestart = some s ∧
    s.wifi.driver.queue = [] ∧ s.trying = true := by
  obtain ⟨s, hrun, hdone, hon, hfree⟩ : ∃ s, run step (initial idleStation) lostInRestart = some s ∧
      s.wifi.driver.queue = [] ∧ s.wifi.driver.running = true ∧
        s.wifi.driver.associated = false := ⟨_, rfl, rfl, rfl, rfl⟩
  exact ⟨s, hrun, hdone, (drained_tries_iff idleStation hrun hdone).mpr ⟨hon, hfree⟩⟩

end MeshRoofFirmware.WifiReconnect
