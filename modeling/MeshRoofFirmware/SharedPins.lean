import MeshRoofFirmware.Library.SharedCounter
import MeshRoofFirmware.Library.SharedLine
import MeshRoofFirmware.ConsoleInterleaving
import MeshRoofFirmware.ChatCommands
import MeshRoofFirmware.MeshSupervisor
import Mathlib.Algebra.Group.Int.Defs
import Mathlib.Data.Int.Order.Basic

set_option autoImplicit false

namespace MeshRoofFirmware.SharedPins
open Library.ByteCodec Library.CText Library.Runs Library.SharedLine
open ConsoleInterleaving (Console)

/-- `meshtastic_task`, when it has found the mesh device stuck, and `reset apply` on a console. -/
inductive Caller where
  | supervisor
  | console (k : Console)
  deriving DecidableEq

/-- Where a caller is in `MeshRoof::reset`; `_resetCount++` is a load and a store. -/
inductive ResetPhase where
  | idle
  | loaded (count : UInt32)
  | counted
  | pulled
  | released
  deriving DecidableEq

def ResetPhase.count? : ResetPhase → Option UInt32
  | .loaded count => some count
  | _ => none

structure ResetState where
  resetCount : UInt32
  outResetPin : Bool
  clock : ℤ
  lastReset : ℤ
  phase : Caller → ResetPhase
  printed : List (Console × Bytes)

inductive ResetRequest where
  | query
  | apply
  | syntaxError
  deriving DecidableEq

def resetRequest : List Bytes → ResetRequest
  | [_] => .query
  | [_, arg] => if arg = ascii "apply" then .apply else .syntaxError
  | _ => .syntaxError

inductive ResetAct where
  | command (k : Console) (argv : List Bytes) (now : ℤ)
  | stuck
  | store (p : Caller)
  | pull (p : Caller)
  | release (p : Caller)
  | stamp (p : Caller) (now : ℤ)

def ResetState.to (s : ResetState) (p : Caller) (phase : ResetPhase) : ResetState :=
  { s with phase := Function.update s.phase p phase }

def ResetState.print (s : ResetState) (k : Console) (texts : List Bytes) : ResetState :=
  { s with printed := s.printed ++ texts.map (k, ·) }

def resetReport (s : ResetState) (now : ℤ) : List Bytes :=
  let secsAgo := ((now - s.lastReset) % 2 ^ 32).toNat
  (ascii "reset count: " ++ decimal s.resetCount.toNat ++ ascii "\n") ::
    if secsAgo = 0 then [] else [ascii "last reset: " ++ decimal secsAgo ++ ascii " seconds ago\n"]

def resetStep (s : ResetState) : ResetAct → Option ResetState
  | .command k argv now =>
    match s.phase (.console k), resetRequest argv with
    | .idle, .query =>
      if s.clock ≤ now then some ({ s with clock := now }.print k (resetReport s now)) else none
    | .idle, .apply => some (s.to (.console k) (.loaded s.resetCount))
    | .idle, .syntaxError => some (s.print k [ascii "syntax error!\n"])
    | _, _ => none
  | .stuck =>
    match s.phase .supervisor with
    | .idle => some (s.to .supervisor (.loaded s.resetCount))
    | _ => none
  | .store p =>
    match s.phase p with
    | .loaded count => some ({ s with resetCount := count + 1 }.to p .counted)
    | _ => none
  | .pull p =>
    match s.phase p with
    | .counted => some ({ s with outResetPin := false }.to p .pulled)
    | _ => none
  | .release p =>
    match s.phase p with
    | .pulled => some ({ s with outResetPin := true }.to p .released)
    | _ => none
  | .stamp p now =>
    match s.phase p with
    | .released =>
      if s.clock ≤ now then some ({ s with clock := now, lastReset := now }.to p .idle) else none
    | _ => none

def ResetAct.begins (now : ℤ) : Caller → ResetAct
  | .supervisor => .stuck
  | .console k => .command k [ascii "reset", ascii "apply"] now

def resetBy (p : Caller) (now : ℤ) : List ResetAct :=
  [.begins now p, .store p, .pull p, .release p, .stamp p now]

@[simp] theorem reset_to_phase (s : ResetState) (p : Caller) (phase : ResetPhase) :
    (s.to p phase).phase p = phase := Function.update_self _ _ _

/-- Taken without a break, these steps are the reset that the supervisor takes as one. -/
theorem resetBy_reset {r : ResetState} {s u : MeshSupervisor.Supervisor} {p : Caller} {now : ℤ}
    (hcount : r.resetCount = s.resetCount) (hclock : r.clock = s.clock) (hidle : r.phase p = .idle)
    (hreset : MeshSupervisor.reset s now = some u) :
    ∃ t, run resetStep r (resetBy p now) = some t ∧ t.resetCount = u.resetCount ∧
      t.lastReset = u.lastReset ∧ t.clock = u.clock ∧ t.outResetPin = true ∧
      t.phase = r.phase := by
  obtain ⟨⟨hnow, -⟩, rfl⟩ := MeshSupervisor.reset_eq_some.mp hreset
  let loaded := r.to p (.loaded r.resetCount)
  let counted := { loaded with resetCount := r.resetCount + 1 }.to p .counted
  let pulled := { counted with outResetPin := false }.to p .pulled
  let released := { pulled with outResetPin := true }.to p .released
  have hload : resetStep r (.begins now p) = some loaded := by
    cases p <;> simp [ResetAct.begins, resetStep, hidle, resetRequest, loaded]
  have hstore : resetStep loaded (.store p) = some counted := by
    simp [resetStep, loaded, counted]
  have hpull : resetStep counted (.pull p) = some pulled := by
    simp [resetStep, counted, pulled]
  have hrelease : resetStep pulled (.release p) = some released := by
    simp [resetStep, pulled, released]
  have hstamp : resetStep released (.stamp p now) =
      some ({ released with clock := now, lastReset := now }.to p .idle) := by
    have hclocks : released.clock ≤ now := hclock.trans_le hnow
    simp [resetStep, released, hclocks]
  refine ⟨_, (run_cons hload).mpr ((run_cons hstore).mpr ((run_cons hpull).mpr
    ((run_cons hrelease).mpr ((run_cons hstamp).mpr run_nil)))), ?_, rfl, rfl, rfl, ?_⟩
  · exact congrArg (· + 1) hcount
  · change Function.update (Function.update (Function.update (Function.update (Function.update
      r.phase p _) p _) p _) p _) p _ = _
    rw [Function.update_idem, Function.update_idem, Function.update_idem, Function.update_idem,
      ← hidle, Function.update_eq_self]

def ResetPhase.pulls : ResetPhase → Bool
  | .pulled => true
  | _ => false

theorem pulls_iff {phase : ResetPhase} : phase.pulls = true ↔ phase = .pulled := by
  cases phase <;> simp [ResetPhase.pulls]

def resetLine (s : ResetState) : Line Caller := ⟨!s.outResetPin, fun p => (s.phase p).pulls⟩

theorem resetLine_to {s : ResetState} {p : Caller} {phase : ResetPhase}
    (h : phase.pulls = (s.phase p).pulls) : resetLine (s.to p phase) = resetLine s :=
  congrArg (Line.mk _) (holds_update ResetPhase.pulls h)

def ResetAct.edge? : ResetAct → Option (Edge Caller)
  | .pull p => some (.raise p)
  | .release p => some (.drop p)
  | _ => none

theorem reset_drives : Drives resetStep resetLine ResetAct.edge? := by
  intro s a t h
  cases a with
  | command k argv now =>
    simp only [resetStep] at h
    split at h
    · split_ifs at h
      cases h
      rfl
    · rename_i hidle _
      cases h
      exact resetLine_to (by rw [hidle]; rfl)
    · cases h
      rfl
    · cases h
  | stuck =>
    simp only [resetStep] at h
    split at h
    · rename_i hidle
      cases h
      exact resetLine_to (by rw [hidle]; rfl)
    · cases h
  | store p =>
    simp only [resetStep] at h
    split at h
    · rename_i count hloaded
      cases h
      exact resetLine_to (s := { s with resetCount := count + 1 }) (by rw [hloaded]; rfl)
    · cases h
  | pull p =>
    simp only [resetStep] at h
    split at h
    · cases h
      exact congrArg (Line.mk true) (Function.comp_update ResetPhase.pulls s.phase p .pulled)
    · cases h
  | release p =>
    simp only [resetStep] at h
    split at h
    · cases h
      exact congrArg (Line.mk false) (Function.comp_update ResetPhase.pulls s.phase p .released)
    · cases h
  | stamp p now =>
    simp only [resetStep] at h
    split at h
    · rename_i hreleased
      split_ifs at h
      cases h
      exact resetLine_to (s := { s with clock := now, lastReset := now })
        (by rw [hreleased]; rfl)
    · cases h

def ResetState.Quiet (s : ResetState) : Prop := s.outResetPin = true ∧ ∀ p, s.phase p = .idle

def constructed : ResetState := ⟨1, true, 0, 0, fun _ => .idle, []⟩

theorem constructed_quiet : constructed.Quiet := ⟨rfl, fun _ => rfl⟩

def overlapping : List ResetAct :=
  [.stuck, .store .supervisor, .pull .supervisor, .release .supervisor, .stamp .supervisor 5,
    .command .usb [ascii "reset", ascii "apply"] 6, .stuck, .store (.console .usb),
    .store .supervisor, .pull (.console .usb), .pull .supervisor]

/-- However the resets of the tasks interleave, the mesh device is held in reset only while one
of them has pulled the line and not released it yet. -/
theorem reset_released {s t : ResetState} {acts : List ResetAct} (hquiet : s.Quiet)
    (hrun : run resetStep s acts = some t) (hlow : t.outResetPin = false) :
    ∃ p, t.phase p = .pulled := by
  have hstart : Held (resetLine s) := by
    intro hraised
    change (!s.outResetPin) = true at hraised
    rw [hquiet.1] at hraised
    cases hraised
  have hraised : (resetLine t).raised = true := by
    change (!t.outResetPin) = true
    rw [hlow]
    rfl
  obtain ⟨p, hp⟩ := run_held reset_drives hstart hrun hraised
  exact ⟨p, pulls_iff.mp hp⟩

theorem reset_released_overlapping :
    ∃ t, run resetStep constructed overlapping = some t ∧ t.outResetPin = false ∧
      ∃ p, t.phase p = .pulled := by
  obtain ⟨t, hrun, hlow⟩ : ∃ t, run resetStep constructed overlapping = some t ∧
      t.outResetPin = false := ⟨_, rfl, rfl⟩
  exact ⟨t, hrun, hlow, reset_released constructed_quiet hrun hlow⟩

/-- The pulse of one reset lasts until its own release exactly if no other reset releases the
line before. -/
theorem reset_pulse_iff {s t u : ResetState} {p : Caller} {acts : List ResetAct}
    (hpull : resetStep s (.pull p) = some t) (hrun : run resetStep t acts = some u) :
    (∀ done todo m, acts = done ++ todo → run resetStep t done = some m → m.outResetPin = false) ↔
      ∀ q, .release q ∉ acts := by
  have hlow : (resetLine t).raised = true := by
    rw [reset_drives s (.pull p) t hpull]
    rfl
  have hlevel (m : ResetState) : (resetLine m).raised = true ↔ m.outResetPin = false := by
    change (!m.outResetPin) = true ↔ _
    rw [Bool.not_eq_true']
  have hedge (q : Caller) : .drop q ∉ acts.filterMap ResetAct.edge? ↔ .release q ∉ acts := by
    rw [List.mem_filterMap]
    refine not_congr ⟨?_, fun hmem => ⟨_, hmem, rfl⟩⟩
    rintro ⟨a, ha, hdrop⟩
    cases a <;> cases hdrop
    exact ha
  simp only [← hlevel, ← hedge]
  exact run_raised_iff reset_drives hlow hrun

def pulledByConsole : ResetState :=
  { constructed with
    outResetPin := false
    phase := fun p => if p = .supervisor then .counted else .pulled }

theorem reset_pulse_cut : ∃ t u, resetStep pulledByConsole (.pull .supervisor) = some t ∧
    run resetStep t [.release (.console .usb)] = some u ∧
    ¬ ∀ done todo m, [.release (.console .usb)] = done ++ todo →
      run resetStep t done = some m → m.outResetPin = false := by
  have hpull : resetStep pulledByConsole (.pull .supervisor) =
    some (pulledByConsole.to .supervisor .pulled) := rfl
  refine ⟨_, _, hpull, rfl, fun hlow => ?_⟩
  exact (reset_pulse_iff hpull rfl).mp hlow (.console .usb) List.mem_cons_self

open Library.SharedCounter in
def ResetAct.access? : ResetAct → Option (Access Caller)
  | .command k argv _ =>
    if resetRequest argv = .apply then some (.load (.console k)) else none
  | .stuck => some (.load .supervisor)
  | .store p => some (.store p)
  | _ => none

section Count
open Library.SharedCounter

def increments (acts : List ResetAct) : ℕ := stores (acts.filterMap ResetAct.access?)

/-- The member holds what the unbounded counter does, up to its width, and so does every
register that has loaded it. -/
structure Counts (s : ResetState) (c : Counter Caller) : Prop where
  value : s.resetCount = UInt32.ofNat c.value
  loaded : ∀ p, (s.phase p).count? = (c.loaded p).map UInt32.ofNat

theorem Counts.load {s : ResetState} {c : Counter Caller} (h : Counts s c) (p : Caller) :
    Counts (s.to p (.loaded s.resetCount))
      { c with loaded := Function.update c.loaded p (some c.value) } := by
  refine ⟨h.value, fun q => ?_⟩
  change (Function.update s.phase p _ q).count? = (Function.update c.loaded p _ q).map _
  by_cases hq : q = p
  · subst hq
    rw [Function.update_self, Function.update_self]
    exact congrArg some h.value
  · rw [Function.update_of_ne hq, Function.update_of_ne hq]
    exact h.loaded q

theorem Counts.moved {s t : ResetState} {c : Counter Caller} (h : Counts s c) {p : Caller}
    {phase : ResetPhase} (hcount : t.resetCount = s.resetCount)
    (hphase : t.phase = Function.update s.phase p phase) (hfrom : (s.phase p).count? = none)
    (hto : phase.count? = none) : Counts t c := by
  refine ⟨hcount.trans h.value, fun q => ?_⟩
  rw [← h.loaded q, hphase]
  by_cases hq : q = p
  · subst hq
    rw [Function.update_self, hfrom, hto]
  · rw [Function.update_of_ne hq]

theorem Counts.store {s : ResetState} {c : Counter Caller} (h : Counts s c) {p : Caller}
    {v : ℕ} (hv : c.loaded p = some v) :
    Counts ({ s with resetCount := UInt32.ofNat v + 1 }.to p .counted)
      ⟨v + 1, Function.update c.loaded p none⟩ := by
  refine ⟨(UInt32.ofNat_add v 1).symm, fun q => ?_⟩
  change (Function.update s.phase p _ q).count? = (Function.update c.loaded p _ q).map _
  by_cases hq : q = p
  · subst hq
    rw [Function.update_self, Function.update_self]
    rfl
  · rw [Function.update_of_ne hq, Function.update_of_ne hq]
    exact h.loaded q

theorem resetStep_counts (s : ResetState) (a : ResetAct) (t : ResetState) (c : Counter Caller)
    (h : Counts s c) (hstep : resetStep s a = some t) :
    ∃ d, run step c a.access?.toList = some d ∧ Counts t d := by
  cases a with
  | command k argv now =>
    simp only [resetStep] at hstep
    split at hstep
    · rename_i hrequest
      split_ifs at hstep
      cases hstep
      refine ⟨c, ?_, h.value, h.loaded⟩
      rw [ResetAct.access?, hrequest]
      rfl
    · rename_i hrequest
      cases hstep
      refine ⟨_, ?_, h.load (.console k)⟩
      rw [ResetAct.access?, hrequest]
      rfl
    · rename_i hrequest
      cases hstep
      refine ⟨c, ?_, h.value, h.loaded⟩
      rw [ResetAct.access?, hrequest]
      rfl
    · cases hstep
  | stuck =>
    simp only [resetStep] at hstep
    split at hstep
    · cases hstep
      exact ⟨_, rfl, h.load .supervisor⟩
    · cases hstep
  | store p =>
    simp only [resetStep] at hstep
    split at hstep
    · rename_i count hphase
      have hloaded := h.loaded p
      rw [hphase] at hloaded
      obtain ⟨v, hv, hcount⟩ := Option.map_eq_some_iff.mp hloaded.symm
      cases hstep
      refine ⟨⟨v + 1, Function.update c.loaded p none⟩, ?_, hcount ▸ h.store hv⟩
      change (step c (.store p)).bind _ = _
      rw [step, hv]
      rfl
    · cases hstep
  | pull p =>
    simp only [resetStep] at hstep
    split at hstep
    · rename_i hphase
      cases hstep
      exact ⟨c, rfl, h.moved rfl rfl (by rw [hphase]; rfl) rfl⟩
    · cases hstep
  | release p =>
    simp only [resetStep] at hstep
    split at hstep
    · rename_i hphase
      cases hstep
      exact ⟨c, rfl, h.moved rfl rfl (by rw [hphase]; rfl) rfl⟩
    · cases hstep
  | stamp p now =>
    simp only [resetStep] at hstep
    split at hstep
    · rename_i hphase
      split_ifs at hstep
      cases hstep
      exact ⟨c, rfl, h.moved rfl rfl (by rw [hphase]; rfl) rfl⟩
    · cases hstep

/-- `_resetCount` counts every reset exactly if no reset stores it while another one is between
its load and its store; it never counts more. -/
theorem reset_count_iff {s t : ResetState} {acts : List ResetAct} (hquiet : s.Quiet)
    (hrun : run resetStep s acts = some t)
    (hfew : s.resetCount.toNat + increments acts < 2 ^ 32) :
    t.resetCount.toNat ≤ s.resetCount.toNat + increments acts ∧
      (t.resetCount.toNat = s.resetCount.toNat + increments acts ↔
        Undisturbed (acts.filterMap ResetAct.access?)) := by
  let c : Counter Caller := ⟨s.resetCount.toNat, fun _ => none⟩
  have hstart : Counts s c := by
    refine ⟨UInt32.ofNat_toNat.symm, fun p => ?_⟩
    rw [hquiet.2 p]
    rfl
  obtain ⟨d, hd, hcounts⟩ := run_simulates resetStep_counts hstart hrun
  have htracks := run_tracks (fun _ => rfl) hd
  have hle : d.value ≤ s.resetCount.toNat + increments acts := htracks.value_le
  have hvalue : t.resetCount.toNat = d.value := by
    rw [hcounts.value]
    exact UInt32.toNat_ofNat_of_lt' (Nat.lt_of_le_of_lt hle hfew)
  rw [hvalue]
  exact ⟨hle, exact_iff htracks⟩

theorem reset_count_overlapping : ∃ t, run resetStep constructed overlapping = some t ∧
    t.resetCount = 3 ∧ increments overlapping = 3 ∧
      ¬ Undisturbed (overlapping.filterMap ResetAct.access?) := by
  obtain ⟨t, hrun, hcount⟩ : ∃ t, run resetStep constructed overlapping = some t ∧
      t.resetCount = 3 := ⟨_, rfl, rfl⟩
  refine ⟨t, hrun, hcount, rfl, fun hundisturbed => ?_⟩
  have hexact := (reset_count_iff constructed_quiet hrun (by decide)).2.mpr hundisturbed
  rw [hcount] at hexact
  exact absurd hexact (by decide)

end Count

section Buzzer
open Buzzer ChatCommands

inductive BuzzCaller where
  | console (k : Console)
  | message
  deriving DecidableEq

inductive BuzzPhase where
  | idle
  | called (ms : UInt32)
  | sounding (ms : UInt32)
  | elapsed
  deriving DecidableEq

structure BuzzerState where
  buzzerPin : Bool
  morseOn : Bool
  phase : BuzzCaller → BuzzPhase

inductive BuzzerAct where
  | command (k : Console) (argv : List Bytes)
  | message
  | pinStep (p : BuzzCaller) (step : PinStep)
  | toggleBuzzer (onOff : Bool)

def BuzzerState.to (s : BuzzerState) (p : BuzzCaller) (phase : BuzzPhase) : BuzzerState :=
  { s with phase := Function.update s.phase p phase }

@[simp] theorem to_phase (s : BuzzerState) (p : BuzzCaller) (phase : BuzzPhase) :
    (s.to p phase).phase p = phase := Function.update_self _ _ _

/-- A caller that is free to comes to `MeshRoof::buzz`, if it does at all. -/
def BuzzerState.call (s : BuzzerState) (p : BuzzCaller) (times : List UInt32) :
    Option BuzzerState :=
  match s.phase p, times with
  | .idle, [] => some s
  | .idle, ms :: _ => some (s.to p (.called ms))
  | _, _ => none

def BuzzerState.pinStep (s : BuzzerState) (p : BuzzCaller) (step : PinStep) :
    Option BuzzerState :=
  match s.phase p with
  | .idle => none
  | .called ms =>
    if step = .setLevel true then some ({ s with buzzerPin := true }.to p (.sounding ms))
    else none
  | .sounding ms => if step = .taskDelay ms then some (s.to p .elapsed) else none
  | .elapsed =>
    if step = .setLevel false then some ({ s with buzzerPin := false }.to p .idle) else none

def buzzerStep (s : BuzzerState) : BuzzerAct → Option BuzzerState
  | .command k argv =>
    -- nobody catches the exception that leaves the command then, and the run ends
    if (shellBuzz argv).ret = .error .outOfRange then none
    else s.call (.console k) (shellBuzz argv).buzzed
  | .message => s.call .message handleBuzz.buzzed
  | .pinStep p step => s.pinStep p step
  | .toggleBuzzer onOff => some { s with buzzerPin := onOff, morseOn := onOff }

theorem buzz_phases (s : BuzzerState) (p : BuzzCaller) (ms : UInt32) :
    ∃ t, run buzzerStep (s.to p (.called ms)) ((buzz ms).map (.pinStep p)) = some t ∧
      t.phase p = .idle := by
  let on : BuzzerState := { s.to p (.called ms) with buzzerPin := true }.to p (.sounding ms)
  refine ⟨{ on.to p .elapsed with buzzerPin := false }.to p .idle, ?_, to_phase _ p .idle⟩
  simp [run, buzz, buzzerStep, BuzzerState.pinStep, on]

def BuzzPhase.sounds : BuzzPhase → Bool
  | .sounding _ => true
  | .elapsed => true
  | _ => false

/-- Morse code holds the buzzer as the callers do. -/
def buzzerLine (s : BuzzerState) : Line (Option BuzzCaller) :=
  ⟨s.buzzerPin, fun p => p.elim s.morseOn fun q => (s.phase q).sounds⟩

def BuzzerAct.edge? : BuzzerAct → Option (Edge (Option BuzzCaller))
  | .pinStep p (.setLevel true) => some (.raise (some p))
  | .pinStep p (.setLevel false) => some (.drop (some p))
  | .toggleBuzzer true => some (.raise none)
  | .toggleBuzzer false => some (.drop none)
  | _ => none

theorem buzzerLine_to {s : BuzzerState} {p : BuzzCaller} {phase : BuzzPhase}
    (h : phase.sounds = (s.phase p).sounds) : buzzerLine (s.to p phase) = buzzerLine s := by
  have hsame := holds_update BuzzPhase.sounds h
  refine congrArg (Line.mk _) (funext fun q => ?_)
  cases q with
  | none => rfl
  | some q => exact congrFun hsame q

theorem buzzerLine_call {s t : BuzzerState} {p : BuzzCaller} {times : List UInt32}
    (h : s.call p times = some t) : buzzerLine t = buzzerLine s := by
  unfold BuzzerState.call at h
  split at h
  · cases h
    rfl
  · rename_i hidle
    cases h
    exact buzzerLine_to (by rw [hidle]; rfl)
  · cases h

theorem holds_to (s : BuzzerState) (p : BuzzCaller) (phase : BuzzPhase) :
    (buzzerLine (s.to p phase)).holds =
      Function.update (buzzerLine s).holds (some p) phase.sounds := by
  funext q
  cases q with
  | none => rfl
  | some q =>
    have hcomp := congrFun (Function.comp_update BuzzPhase.sounds s.phase p phase) q
    by_cases hq : q = p
    · subst hq
      rw [Function.update_self]
      exact hcomp.trans (Function.update_self _ _ _)
    · rw [Function.update_of_ne (fun e => hq (Option.some.inj e))]
      exact hcomp.trans (Function.update_of_ne hq _ _)

theorem buzzerLine_pinStep {s t : BuzzerState} {p : BuzzCaller} {step : PinStep}
    (h : s.pinStep p step = some t) :
    buzzerLine t = (buzzerLine s).after (BuzzerAct.pinStep p step).edge?.toList := by
  unfold BuzzerState.pinStep at h
  split at h
  · cases h
  · split_ifs at h with hstep
    cases h
    rw [hstep]
    exact congrArg (Line.mk true) (holds_to s p _)
  · rename_i ms hsounding
    split_ifs at h with hstep
    cases h
    rw [hstep]
    exact buzzerLine_to (by rw [hsounding]; rfl)
  · split_ifs at h with hstep
    cases h
    rw [hstep]
    exact congrArg (Line.mk false) (holds_to s p _)

theorem buzzer_drives : Drives buzzerStep buzzerLine BuzzerAct.edge? := by
  intro s a t h
  cases a with
  | command k argv =>
    rw [buzzerStep] at h
    split_ifs at h
    exact buzzerLine_call h
  | message => exact buzzerLine_call h
  | pinStep p step => exact buzzerLine_pinStep h
  | toggleBuzzer onOff =>
    cases h
    have hmorse : (fun p : Option BuzzCaller => p.elim onOff fun q => (s.phase q).sounds) =
        Function.update (buzzerLine s).holds none onOff := by
      funext q
      cases q with
      | none => rw [Function.update_self]; rfl
      | some q => rw [Function.update_of_ne (Option.some_ne_none q)]; rfl
    cases onOff <;> exact congrArg (Line.mk _) hmorse

/-- However the calls of `buzz` and the Morse code interleave, the buzzer sounds only while a
call has still to switch it off, or Morse code has not asked for silence yet. -/
theorem buzzer_sounds {s t : BuzzerState} {acts : List BuzzerAct} (hoff : s.buzzerPin = false)
    (hrun : run buzzerStep s acts = some t) (hon : t.buzzerPin = true) :
    t.morseOn = true ∨ ∃ p, (t.phase p).sounds = true := by
  have hstart : Held (buzzerLine s) := fun hraised => by
    change s.buzzerPin = true at hraised
    rw [hoff] at hraised
    cases hraised
  obtain ⟨p, hp⟩ := run_held buzzer_drives hstart hrun hon
  cases p with
  | none => exact Or.inl hp
  | some p => exact Or.inr ⟨p, hp⟩

def silent : BuzzerState := ⟨false, false, fun _ => .idle⟩

theorem buzzer_sounds_message :
    ∃ t, run buzzerStep silent [.message, .pinStep .message (.setLevel true)] = some t ∧
      t.buzzerPin = true ∧ (t.morseOn = true ∨ ∃ p, (t.phase p).sounds = true) := by
  obtain ⟨t, hrun, hon⟩ : ∃ t, run buzzerStep silent
      [.message, .pinStep .message (.setLevel true)] = some t ∧ t.buzzerPin = true :=
    ⟨_, rfl, rfl⟩
  exact ⟨t, hrun, hon, buzzer_sounds rfl hrun hon⟩

/-- A call is heard for the whole of its time exactly if in that time no other call ends and
Morse code does not ask for silence. -/
theorem beep_whole_iff {s t u : BuzzerState} {p : BuzzCaller} {acts : List BuzzerAct}
    (hon : buzzerStep s (.pinStep p (.setLevel true)) = some t)
    (hrun : run buzzerStep t acts = some u) :
    (∀ done todo m, acts = done ++ todo → run buzzerStep t done = some m →
        m.buzzerPin = true) ↔
      (∀ q, .pinStep q (.setLevel false) ∉ acts) ∧ .toggleBuzzer false ∉ acts := by
  have hraised : (buzzerLine t).raised = true := by
    rw [buzzer_drives s (.pinStep p (.setLevel true)) t hon]
    rfl
  refine (run_raised_iff buzzer_drives hraised hrun).trans ?_
  simp only [List.mem_filterMap, not_exists, not_and]
  constructor
  · intro hall
    exact ⟨fun q hmem => hall (some q) _ hmem rfl, fun hmem => hall none _ hmem rfl⟩
  · rintro ⟨hcalls, hmorse⟩ q a ha hdrop
    match a, hdrop with
    | .pinStep p (.setLevel false), _ => exact hcalls p ha
    | .toggleBuzzer false, _ => exact hmorse ha

def soundedByConsole : BuzzerState :=
  ⟨true, false, fun p => if p = .message then .called 500 else .elapsed⟩

theorem beep_cut : ∃ t u,
    buzzerStep soundedByConsole (.pinStep .message (.setLevel true)) = some t ∧
    run buzzerStep t [.pinStep (.console .usb) (.setLevel false)] = some u ∧
    ¬ ∀ done todo m, [.pinStep (.console .usb) (.setLevel false)] = done ++ todo →
      run buzzerStep t done = some m → m.buzzerPin = true := by
  have hon : buzzerStep soundedByConsole (.pinStep .message (.setLevel true)) =
    some ({ soundedByConsole with buzzerPin := true }.to .message (.sounding 500)) := rfl
  refine ⟨_, _, hon, rfl, fun hwhole => ?_⟩
  exact ((beep_whole_iff hon rfl).mp hwhole).1 (.console .usb) List.mem_cons_self

end Buzzer

end MeshRoofFirmware.SharedPins
