import MeshRoofFirmware.Library.CText
import MeshRoofFirmware.Library.Runs
import MeshRoofFirmware.Library.TimedLog
import Mathlib.Algebra.Group.Int.Defs
import Mathlib.Data.Int.Order.Basic

set_option autoImplicit false

/-! The loop of `meshtastic_task` and the resets it shares with the consoles. A step that
reads the clock is enabled for readings that do not go back and span less than 2^32 seconds. -/
namespace MeshRoofFirmware.MeshSupervisor
open Library.ByteCodec Library.CText Library.Runs Library.TimedLog

inductive Kind where
  | wantConfig
  | connected
  | heartbeat
  | autoReset
  | resetDone
  deriving DecidableEq

/-- The members of `MeshRoof` and the locals of the task; `log` tells what happened when. An
automatic reset is logged with the last reading before it starts. -/
structure Supervisor where
  boot : ℤ
  clock : ℤ
  resetCount : UInt32
  lastReset : ℤ
  now : ℤ
  lastWantConfig : ℤ
  lastHeartbeat : ℤ
  log : List (Entry Kind ℤ)
  printed : List Bytes

def Supervisor.time (s : Supervisor) (t : ℤ) : Option Supervisor :=
  if s.clock ≤ t ∧ t < s.boot + 2 ^ 32 then some { s with clock := t } else none

def Supervisor.note (s : Supervisor) (kind : Kind) (t : ℤ) : Supervisor :=
  { s with log := s.log ++ [⟨kind, t⟩] }

def Supervisor.print (s : Supervisor) (text : Bytes) : Supervisor :=
  { s with printed := s.printed ++ [text] }

def reset (s : Supervisor) (done : ℤ) : Option Supervisor := do
  let s ← { s with resetCount := s.resetCount + 1 }.time done
  some ({ s with lastReset := done }.note .resetDone done)

/-- The difference of two `time_t`, converted to `unsigned int`. -/
def getLastResetSecsAgo (s : Supervisor) (now : ℤ) : ℕ := ((now - s.lastReset) % 2 ^ 32).toNat

def construct (t₀ t₁ : ℤ) : Option Supervisor := reset ⟨t₀, t₀, 0, t₀, t₀, 0, t₀, [], []⟩ t₁

def enterLoop (s : Supervisor) (t : ℤ) : Option Supervisor := do
  let s ← s.time t
  some { s with now := t, lastHeartbeat := t, lastWantConfig := 0 }

/-- What one pass of the loop reads: the answers of `isConnected()` in the order of its calls,
the other getter, the clock, the results of the sends and of `mt_serial_process`. -/
structure Pass where
  now : ℤ
  connected₁ : Bool
  heardSecsAgo : UInt32
  agoNow : ℤ
  resetDone : ℤ
  connected₂ : Bool
  connected₃ : Bool
  wantConfigSent : Bool
  connected₄ : Bool
  heartbeatSent : Bool
  serial : List Bool

def sample (s : Supervisor) (t : ℤ) : Option Supervisor := do
  let s ← s.time t
  some { s with now := t }

def checkStuck (p : Pass) (s : Supervisor) : Option Supervisor :=
  if p.connected₁ = true ∧ p.heardSecsAgo > 300 then do
    let s ← s.time p.agoNow
    if getLastResetSecsAgo s p.agoNow > 120 then
      reset ((s.print (ascii "detected meshtastic stuck!\n")).note .autoReset p.agoNow) p.resetDone
    else some s
  else some s

def checkConfig (p : Pass) (s : Supervisor) : Supervisor :=
  if p.connected₂ = false ∧ s.now - s.lastWantConfig ≥ 5 then
    let s := if p.wantConfigSent then s else s.print (ascii "sendWantConfig failed!\n")
    { s with lastWantConfig := s.now }.note .wantConfig s.now
  else if p.connected₃ then { s with lastWantConfig := s.now }.note .connected s.now
  else s

def checkHeartbeat (p : Pass) (s : Supervisor) : Supervisor :=
  if p.connected₄ = true ∧ s.now - s.lastHeartbeat ≥ 60 then
    let s := if p.heartbeatSent then s else s.print (ascii "sendHeartbeat failed!\n")
    { s with lastHeartbeat := s.now }.note .heartbeat s.now
  else s

def readSerial (s : Supervisor) : List Bool → Supervisor
  | [] => s
  | true :: results => readSerial s results
  | false :: _ => s.print (ascii "mt_serial_process failed!\n")

/-- One pass of the loop, or a `reset apply` from a console between two passes. -/
inductive Tick where
  | pass (p : Pass)
  | resetApply (done : ℤ)

def step (s : Supervisor) : Tick → Option Supervisor
  | .pass p => do
    let s ← sample s p.now
    let s ← checkStuck p s
    some (readSerial (checkHeartbeat p (checkConfig p s)) p.serial)
  | .resetApply done => reset s done

/-- The constructor, the resets from a console before the loop, and the entry of the loop. -/
def boot (t₀ t₁ : ℤ) (early : List ℤ) (t₂ : ℤ) : Option Supervisor := do
  let s ← construct t₀ t₁
  let s ← run reset s early
  enterLoop s t₂

theorem time_eq_some {s u : Supervisor} {t : ℤ} :
    s.time t = some u ↔ (s.clock ≤ t ∧ t < s.boot + 2 ^ 32) ∧ { s with clock := t } = u := by
  rw [Supervisor.time, Option.ite_none_right_eq_some, Option.some.injEq]

theorem reset_eq_some {s u : Supervisor} {done : ℤ} :
    reset s done = some u ↔ (s.clock ≤ done ∧ done < s.boot + 2 ^ 32) ∧
      ({ s with clock := done, resetCount := s.resetCount + 1, lastReset := done }.note
        .resetDone done) = u := by
  simp only [reset, Option.bind_eq_bind, Option.bind_eq_some_iff, time_eq_some,
    Option.some.injEq]
  constructor
  · rintro ⟨v, ⟨hclock, rfl⟩, rfl⟩
    exact ⟨hclock, rfl⟩
  · rintro ⟨hclock, rfl⟩
    exact ⟨_, ⟨hclock, rfl⟩, rfl⟩

/-- The clock has not left its span, and every reset so far was over at the stamp. -/
structure Settled (s : Supervisor) : Prop where
  boot_le : s.boot ≤ s.lastReset
  reset_le : s.lastReset ≤ s.clock
  within : s.clock < s.boot + 2 ^ 32
  stamped : Until s.lastReset (· = .resetDone) s.log
  spaced : Follows (· + 120 < ·) (· = .resetDone) (· = .autoReset) s.log

theorem Settled.time {s u : Supervisor} (h : Settled s) {t : ℤ} (ht : s.time t = some u) :
    Settled u := by
  obtain ⟨⟨hle, hwithin⟩, rfl⟩ := time_eq_some.mp ht
  exact ⟨h.boot_le, h.reset_le.trans hle, hwithin, h.stamped, h.spaced⟩

theorem Settled.reset {s u : Supervisor} (h : Settled s) {done : ℤ}
    (hreset : reset s done = some u) : Settled u := by
  obtain ⟨⟨hle, hwithin⟩, rfl⟩ := reset_eq_some.mp hreset
  have hstamp : s.lastReset ≤ done := h.reset_le.trans hle
  refine ⟨h.boot_le.trans hstamp, le_refl done, hwithin, ?_, follows_other h.spaced nofun⟩
  exact until_record (until_later h.stamped hstamp) (fun _ => le_refl done)

theorem Settled.print {s : Supervisor} (h : Settled s) (text : Bytes) : Settled (s.print text) :=
  ⟨h.boot_le, h.reset_le, h.within, h.stamped, h.spaced⟩

theorem secsAgo_exact {s : Supervisor} (h : Settled s) :
    (getLastResetSecsAgo s s.clock : ℤ) = s.clock - s.lastReset := by
  have hboot := h.boot_le
  have hle := h.reset_le
  have hwithin := h.within
  have hmod : (s.clock - s.lastReset) % 2 ^ 32 = s.clock - s.lastReset :=
    Int.emod_eq_of_lt (by omega) (by omega)
  rw [getLastResetSecsAgo, hmod]
  omega

theorem Settled.autoReset {s : Supervisor} (h : Settled s)
    (hago : getLastResetSecsAgo s s.clock > 120) : Settled (s.note .autoReset s.clock) := by
  have hexact := secsAgo_exact h
  have hdue : s.lastReset + 120 < s.clock := by omega
  refine ⟨h.boot_le, h.reset_le, h.within, until_record h.stamped nofun, ?_⟩
  refine follows_stamp (fun a b c hab hbc => ?_) h.spaced h.stamped hdue
  exact lt_of_le_of_lt (Int.add_le_add_right hab 120) hbc

theorem Settled.note {s : Supervisor} (h : Settled s) (kind : Kind) (t : ℤ)
    (hdone : kind ≠ .resetDone) (hauto : kind ≠ .autoReset) : Settled (s.note kind t) :=
  ⟨h.boot_le, h.reset_le, h.within, until_record h.stamped fun hk => absurd hk hdone,
    follows_other h.spaced hauto⟩

theorem Settled.checkStuck {s u : Supervisor} (h : Settled s) {p : Pass}
    (hstep : checkStuck p s = some u) : Settled u := by
  unfold MeshSupervisor.checkStuck at hstep
  split_ifs at hstep
  · obtain ⟨v, hv, hrest⟩ := Option.bind_eq_some_iff.mp hstep
    have hsettled := h.time hv
    obtain ⟨-, rfl⟩ := time_eq_some.mp hv
    split_ifs at hrest with hago
    · exact ((hsettled.print _).autoReset hago).reset hrest
    · cases hrest
      exact hsettled
  · cases hstep
    exact h

def Config (kind : Kind) : Prop := kind = .wantConfig ∨ kind = .connected

/-- The stamps of the two sends, and the sample they are compared with. -/
structure Sampled (s : Supervisor) : Prop where
  now_le : s.now ≤ s.clock
  configStamped : Until s.lastWantConfig Config s.log
  configSampled : Until s.now Config s.log
  configSpaced : Follows (· + 5 ≤ ·) Config (· = .wantConfig) s.log
  beatStamped : Until s.lastHeartbeat (· = .heartbeat) s.log
  beatSampled : Until s.now (· = .heartbeat) s.log
  beatSpaced : Follows (· + 60 ≤ ·) (· = .heartbeat) (· = .heartbeat) s.log

theorem Sampled.note {s : Supervisor} (h : Sampled s) (kind : Kind) (t : ℤ)
    (hconfig : ¬ Config kind) (hbeat : kind ≠ .heartbeat) : Sampled (s.note kind t) := by
  refine ⟨h.now_le, until_record h.configStamped fun hk => absurd hk hconfig,
    until_record h.configSampled fun hk => absurd hk hconfig, ?_,
    until_record h.beatStamped fun hk => absurd hk hbeat,
    until_record h.beatSampled fun hk => absurd hk hbeat, follows_other h.beatSpaced hbeat⟩
  exact follows_other h.configSpaced (fun hk => hconfig (Or.inl hk))

theorem Sampled.time {s u : Supervisor} (h : Sampled s) {t : ℤ} (ht : s.time t = some u) :
    Sampled u := by
  obtain ⟨⟨hle, -⟩, rfl⟩ := time_eq_some.mp ht
  exact ⟨h.now_le.trans hle, h.configStamped, h.configSampled, h.configSpaced, h.beatStamped,
    h.beatSampled, h.beatSpaced⟩

theorem Sampled.print {s : Supervisor} (h : Sampled s) (text : Bytes) : Sampled (s.print text) :=
  ⟨h.now_le, h.configStamped, h.configSampled, h.configSpaced, h.beatStamped, h.beatSampled,
    h.beatSpaced⟩

theorem Sampled.reset {s u : Supervisor} (h : Sampled s) {done : ℤ}
    (hreset : reset s done = some u) : Sampled u := by
  obtain ⟨⟨hle, -⟩, rfl⟩ := reset_eq_some.mp hreset
  have hlater : Sampled { s with
      clock := done, resetCount := s.resetCount + 1, lastReset := done } :=
    ⟨h.now_le.trans hle, h.configStamped, h.configSampled, h.configSpaced, h.beatStamped,
      h.beatSampled, h.beatSpaced⟩
  exact hlater.note .resetDone done (by simp [Config]) nofun

theorem Sampled.sample {s u : Supervisor} (h : Sampled s) {t : ℤ} (ht : sample s t = some u) :
    Sampled u := by
  obtain ⟨v, hv, hu⟩ := Option.bind_eq_some_iff.mp ht
  obtain ⟨⟨hle, -⟩, rfl⟩ := time_eq_some.mp hv
  cases hu
  have hnow : s.now ≤ t := h.now_le.trans hle
  exact ⟨le_refl t, h.configStamped, until_later h.configSampled hnow, h.configSpaced,
    h.beatStamped, until_later h.beatSampled hnow, h.beatSpaced⟩

theorem Sampled.checkStuck {s u : Supervisor} (h : Sampled s) {p : Pass}
    (hstep : checkStuck p s = some u) : Sampled u := by
  unfold MeshSupervisor.checkStuck at hstep
  split_ifs at hstep
  · obtain ⟨v, hv, hrest⟩ := Option.bind_eq_some_iff.mp hstep
    have hsampled := h.time hv
    split_ifs at hrest
    · exact ((hsampled.print _).note .autoReset p.agoNow (by simp [Config]) nofun).reset hrest
    · cases hrest
      exact hsampled
  · cases hstep
    exact h

theorem Sampled.stampConfig {s : Supervisor} (h : Sampled s) {kind : Kind}
    (hkind : Config kind) (hdue : kind = .wantConfig → s.lastWantConfig + 5 ≤ s.now) :
    Sampled ({ s with lastWantConfig := s.now }.note kind s.now) := by
  have hbeat : kind ≠ .heartbeat := by
    rintro rfl
    rcases hkind with h | h <;> cases h
  refine ⟨h.now_le, until_record h.configSampled fun _ => le_refl _,
    until_record h.configSampled fun _ => le_refl _, ?_,
    until_record h.beatStamped fun hk => absurd hk hbeat,
    until_record h.beatSampled fun hk => absurd hk hbeat, follows_other h.beatSpaced hbeat⟩
  refine follows_record h.configSpaced (fun hwant e he hconfig => ?_)
  have hbefore := h.configStamped e he hconfig
  have hgap := hdue hwant
  change e.time + 5 ≤ s.now
  omega

theorem Sampled.checkConfig {s : Supervisor} (h : Sampled s) (p : Pass) :
    Sampled (checkConfig p s) := by
  unfold MeshSupervisor.checkConfig
  split_ifs with hdue hsent
  · exact h.stampConfig (Or.inl rfl) (fun _ => by omega)
  · exact (h.print _).stampConfig (Or.inl rfl) (fun _ => by
      change s.lastWantConfig + 5 ≤ s.now
      omega)
  · exact h.stampConfig (Or.inr rfl) nofun
  · exact h

theorem Sampled.stampBeat {s : Supervisor} (h : Sampled s)
    (hdue : s.lastHeartbeat + 60 ≤ s.now) :
    Sampled ({ s with lastHeartbeat := s.now }.note .heartbeat s.now) := by
  have hconfig : ¬ Config .heartbeat := by simp [Config]
  refine ⟨h.now_le, until_record h.configStamped fun hk => absurd hk hconfig,
    until_record h.configSampled fun hk => absurd hk hconfig, follows_other h.configSpaced nofun,
    until_record h.beatSampled fun _ => le_refl _,
    until_record h.beatSampled fun _ => le_refl _, ?_⟩
  refine follows_record h.beatSpaced (fun _ e he hbeat => ?_)
  have hbefore := h.beatStamped e he hbeat
  change e.time + 60 ≤ s.now
  omega

theorem Sampled.checkHeartbeat {s : Supervisor} (h : Sampled s) (p : Pass) :
    Sampled (checkHeartbeat p s) := by
  unfold MeshSupervisor.checkHeartbeat
  split_ifs with hdue hsent
  · exact h.stampBeat (by omega)
  · exact (h.print _).stampBeat (by
      change s.lastHeartbeat + 60 ≤ s.now
      omega)
  · exact h

def Supervised (s : Supervisor) : Prop := Settled s ∧ Sampled s

theorem Supervised.sample {s u : Supervisor} (h : Supervised s) {t : ℤ}
    (ht : sample s t = some u) : Supervised u := by
  obtain ⟨v, hv, hu⟩ := Option.bind_eq_some_iff.mp ht
  have hsettled := h.1.time hv
  refine ⟨?_, h.2.sample ht⟩
  cases hu
  exact ⟨hsettled.boot_le, hsettled.reset_le, hsettled.within, hsettled.stamped, hsettled.spaced⟩

theorem Settled.stampConfig {s : Supervisor} (h : Settled s) {kind : Kind}
    (hkind : Config kind) : Settled ({ s with lastWantConfig := s.now }.note kind s.now) := by
  have hmoved : Settled { s with lastWantConfig := s.now } :=
    ⟨h.boot_le, h.reset_le, h.within, h.stamped, h.spaced⟩
  rcases hkind with rfl | rfl
  · exact hmoved.note .wantConfig s.now nofun nofun
  · exact hmoved.note .connected s.now nofun nofun

theorem Supervised.checkConfig {s : Supervisor} (h : Supervised s) (p : Pass) :
    Supervised (checkConfig p s) := by
  refine ⟨?_, h.2.checkConfig p⟩
  unfold MeshSupervisor.checkConfig
  split_ifs
  · exact h.1.stampConfig (Or.inl rfl)
  · exact (h.1.print _).stampConfig (Or.inl rfl)
  · exact h.1.stampConfig (Or.inr rfl)
  · exact h.1

theorem Settled.stampBeat {s : Supervisor} (h : Settled s) :
    Settled ({ s with lastHeartbeat := s.now }.note .heartbeat s.now) := by
  have hmoved : Settled { s with lastHeartbeat := s.now } :=
    ⟨h.boot_le, h.reset_le, h.within, h.stamped, h.spaced⟩
  exact hmoved.note .heartbeat s.now nofun nofun

theorem Supervised.checkHeartbeat {s : Supervisor} (h : Supervised s) (p : Pass) :
    Supervised (checkHeartbeat p s) := by
  refine ⟨?_, h.2.checkHeartbeat p⟩
  unfold MeshSupervisor.checkHeartbeat
  split_ifs
  · exact h.1.stampBeat
  · exact (h.1.print _).stampBeat
  · exact h.1

theorem Supervised.readSerial {s : Supervisor} (h : Supervised s) (results : List Bool) :
    Supervised (readSerial s results) := by
  induction results with
  | nil => exact h
  | cons ok results ih =>
    cases ok with
    | true => exact ih
    | false => exact ⟨h.1.print _, h.2.print _⟩

theorem step_supervised (s : Supervisor) (tick : Tick) (u : Supervisor) (h : Supervised s)
    (hstep : step s tick = some u) : Supervised u := by
  cases tick with
  | resetApply done => exact ⟨h.1.reset hstep, h.2.reset hstep⟩
  | pass p =>
    obtain ⟨v, hv, hrest⟩ := Option.bind_eq_some_iff.mp hstep
    obtain ⟨w, hw, hu⟩ := Option.bind_eq_some_iff.mp hrest
    have hsampled := h.sample hv
    have hstuck : Supervised w := ⟨hsampled.1.checkStuck hw, hsampled.2.checkStuck hw⟩
    cases hu
    exact ((hstuck.checkConfig p).checkHeartbeat p).readSerial p.serial

def OnlyResets (s : Supervisor) : Prop := ∀ e ∈ s.log, e.kind = .resetDone

theorem early_reset (s : Supervisor) (done : ℤ) (u : Supervisor) (h : Settled s ∧ OnlyResets s)
    (hreset : reset s done = some u) : Settled u ∧ OnlyResets u := by
  refine ⟨h.1.reset hreset, ?_⟩
  obtain ⟨-, rfl⟩ := reset_eq_some.mp hreset
  intro e he
  rcases List.mem_append.mp he with hold | hnew
  · exact h.2 e hold
  · cases List.mem_singleton.mp hnew
    rfl

theorem boot_supervised {t₀ t₁ t₂ : ℤ} {early : List ℤ} {s : Supervisor}
    (hboot : boot t₀ t₁ early t₂ = some s) : Supervised s := by
  obtain ⟨u, hu, hrest⟩ := Option.bind_eq_some_iff.mp hboot
  obtain ⟨v, hv, hs⟩ := Option.bind_eq_some_iff.mp hrest
  have hstart : Settled ⟨t₀, t₀, 0, t₀, t₀, 0, t₀, [], []⟩ :=
    ⟨le_refl _, le_refl _, by change t₀ < t₀ + 2 ^ 32; omega, nofun, List.Pairwise.nil⟩
  have hconstruct := early_reset _ _ _ ⟨hstart, nofun⟩ hu
  obtain ⟨hsettled, honly⟩ := run_invariant early_reset hconstruct hv
  obtain ⟨w, hw, hs⟩ := Option.bind_eq_some_iff.mp hs
  have hentered := hsettled.time hw
  obtain ⟨-, rfl⟩ := time_eq_some.mp hw
  cases hs
  have hconfig : ∀ e ∈ v.log, ¬ Config e.kind := by
    intro e he
    rw [honly e he]
    simp [Config]
  have hbeat : ∀ e ∈ v.log, ¬ e.kind = .heartbeat := by
    intro e he
    rw [honly e he]
    nofun
  refine ⟨⟨hentered.boot_le, hentered.reset_le, hentered.within, hentered.stamped,
    hentered.spaced⟩, le_refl t₂, fun e he hk => absurd hk (hconfig e he),
    fun e he hk => absurd hk (hconfig e he), ?_, fun e he hk => absurd hk (hbeat e he),
    fun e he hk => absurd hk (hbeat e he), ?_⟩
  · exact List.pairwise_of_forall_mem_list fun e he f _ hk => absurd hk (hconfig e he)
  · exact List.pairwise_of_forall_mem_list fun e he f _ hk => absurd hk (hbeat e he)

/-- In every run the two sends keep their distances, and no reset is automatic within two
minutes of an earlier one. -/
theorem run_keeps_rates {t₀ t₁ t₂ : ℤ} {early : List ℤ} {ticks : List Tick} {s u : Supervisor}
    (hboot : boot t₀ t₁ early t₂ = some s) (hrun : run step s ticks = some u) :
    u.log.Pairwise (fun e f => e.kind = .wantConfig ∨ e.kind = .connected →
        f.kind = .wantConfig → e.time + 5 ≤ f.time) ∧
      u.log.Pairwise (fun e f => e.kind = .heartbeat → f.kind = .heartbeat →
        e.time + 60 ≤ f.time) ∧
      u.log.Pairwise (fun e f => e.kind = .resetDone → f.kind = .autoReset →
        e.time + 120 < f.time) := by
  obtain ⟨hsettled, hsampled⟩ := run_invariant step_supervised (boot_supervised hboot) hrun
  exact ⟨hsampled.configSpaced, hsampled.beatSpaced, hsettled.spaced⟩

def passAt (now : ℤ) (connected : Bool) (heardSecsAgo : UInt32) : Tick :=
  .pass ⟨now, connected, heardSecsAgo, now, now + 1, connected, connected, true, connected, true, []⟩

def stuckTicks : List Tick :=
  [passAt 10 false 0, passAt 70 true 0, .resetApply 75, passAt 300 true 400]

theorem run_keeps_rates_stuck : ∃ s u, boot 0 1 [] 2 = some s ∧ run step s stuckTicks = some u ∧
    u.log.map Entry.kind = [.resetDone, .wantConfig, .connected, .heartbeat, .resetDone, .autoReset,
      .resetDone, .connected, .heartbeat] ∧
      u.log.Pairwise (fun e f => e.kind = .wantConfig ∨ e.kind = .connected →
        f.kind = .wantConfig → e.time + 5 ≤ f.time) ∧
      u.log.Pairwise (fun e f => e.kind = .heartbeat → f.kind = .heartbeat →
        e.time + 60 ≤ f.time) ∧
      u.log.Pairwise (fun e f => e.kind = .resetDone → f.kind = .autoReset →
        e.time + 120 < f.time) := by
  obtain ⟨s, u, hboot, hrun, hkinds⟩ : ∃ s u, boot 0 1 [] 2 = some s ∧
      run step s stuckTicks = some u ∧ u.log.map Entry.kind = [.resetDone, .wantConfig, .connected,
        .heartbeat, .resetDone, .autoReset, .resetDone, .connected, .heartbeat] :=
    ⟨_, _, rfl, rfl, rfl⟩
  exact ⟨s, u, hboot, hrun, hkinds, run_keeps_rates hboot hrun⟩

end MeshRoofFirmware.MeshSupervisor
