import MeshRoofFirmware.Library.PeriodicJob
import MeshRoofFirmware.MeshSupervisor

set_option autoImplicit false

namespace MeshRoofFirmware.SupervisorProgress
open Library.ByteCodec Library.CText Library.Runs Library.TimedLog Library.PeriodicJob
open MeshSupervisor

def sends (kind : Kind) (s : Supervisor) : ℕ := s.log.countP (·.kind = kind)

def configJob (s : Supervisor) : Job := ⟨s.now, s.lastWantConfig, sends .wantConfig s⟩

def beatJob (s : Supervisor) : Job := ⟨s.now, s.lastHeartbeat, sends .heartbeat s⟩

def jobs (s : Supervisor) : Job × Job := (configJob s, beatJob s)

/-- The pass finds the device disconnected wherever it asks about the configuration. -/
def Disconnected (p : Pass) : Prop := p.connected₂ = false ∧ p.connected₃ = false

theorem sends_note (kind other : Kind) (s : Supervisor) (t : ℤ) :
    sends kind (s.note other t) = sends kind s + if other = kind then 1 else 0 := by
  have hlog : (s.note other t).log = s.log ++ [⟨other, t⟩] := rfl
  unfold sends
  rw [hlog, List.countP_append, List.countP_singleton]
  simp only [decide_eq_true_eq]

theorem jobs_note {s : Supervisor} {kind : Kind} (hconfig : kind ≠ .wantConfig)
    (hbeat : kind ≠ .heartbeat) (t : ℤ) : jobs (s.note kind t) = jobs s := by
  have hsends {other : Kind} (h : kind ≠ other) : sends other (s.note kind t) = sends other s := by
    rw [sends_note, if_neg h]
    rfl
  unfold jobs configJob beatJob
  rw [hsends hconfig, hsends hbeat]
  rfl

theorem jobs_reset {s u : Supervisor} {done : ℤ} (h : reset s done = some u) :
    jobs u = jobs s := by
  obtain ⟨-, rfl⟩ := reset_eq_some.mp h
  exact jobs_note (by nofun) (by nofun) done

theorem jobs_checkStuck {s u : Supervisor} {p : Pass} (h : checkStuck p s = some u) :
    jobs u = jobs s := by
  unfold checkStuck at h
  split_ifs at h
  · obtain ⟨v, hv, hrest⟩ := Option.bind_eq_some_iff.mp h
    obtain ⟨-, rfl⟩ := time_eq_some.mp hv
    split_ifs at hrest
    · exact (jobs_reset hrest).trans (jobs_note (by nofun) (by nofun) p.agoNow)
    · cases hrest
      rfl
  · cases h
    rfl

theorem jobs_readSerial (s : Supervisor) (results : List Bool) :
    jobs (readSerial s results) = jobs s := by
  induction results with
  | nil => rfl
  | cons ok results ih =>
    cases ok with
    | true => exact ih
    | false => rfl

theorem configJob_checkConfig {p : Pass} (h : Disconnected p) (s : Supervisor) :
    configJob (checkConfig p s) = (configJob s).poll 5 s.now := by
  have hsent (v : Supervisor) : configJob ({ v with lastWantConfig := v.now }.note .wantConfig v.now)
      = ⟨v.now, v.now, sends .wantConfig v + 1⟩ := by
    unfold configJob
    rw [sends_note, if_pos rfl]
    rfl
  have hpoll : (configJob s).poll 5 s.now = if s.now - s.lastWantConfig ≥ 5 then
      ⟨s.now, s.now, sends .wantConfig s + 1⟩ else configJob s := rfl
  rw [hpoll]
  unfold checkConfig
  by_cases hdue : s.now - s.lastWantConfig ≥ 5
  · rw [if_pos ⟨h.1, hdue⟩, if_pos hdue]
    split_ifs
    · exact hsent s
    · exact hsent (s.print _)
  · rw [if_neg (fun hboth => hdue hboth.2), if_neg hdue, h.2]
    rfl

theorem configJob_checkHeartbeat (p : Pass) (s : Supervisor) :
    configJob (checkHeartbeat p s) = configJob s := by
  have hbeat (v : Supervisor) : configJob ({ v with lastHeartbeat := v.now }.note .heartbeat v.now)
      = configJob v := by
    unfold configJob
    rw [sends_note, if_neg nofun]
    rfl
  unfold checkHeartbeat
  split_ifs
  · exact hbeat s
  · exact hbeat (s.print _)
  · rfl

theorem beatJob_checkConfig (p : Pass) (s : Supervisor) :
    beatJob (checkConfig p s) = beatJob s := by
  have hconfig (v : Supervisor) {kind : Kind} (hkind : kind ≠ .heartbeat) :
      beatJob ({ v with lastWantConfig := v.now }.note kind v.now) = beatJob v := by
    unfold beatJob
    rw [sends_note, if_neg hkind]
    rfl
  unfold checkConfig
  split_ifs
  · exact hconfig s nofun
  · exact hconfig (s.print _) nofun
  · exact hconfig s nofun
  · rfl

theorem beatJob_checkHeartbeat {p : Pass} (h : p.connected₄ = true) (s : Supervisor) :
    beatJob (checkHeartbeat p s) = (beatJob s).poll 60 s.now := by
  have hsent (v : Supervisor) : beatJob ({ v with lastHeartbeat := v.now }.note .heartbeat v.now)
      = ⟨v.now, v.now, sends .heartbeat v + 1⟩ := by
    unfold beatJob
    rw [sends_note, if_pos rfl]
    rfl
  have hpoll : (beatJob s).poll 60 s.now = if s.now - s.lastHeartbeat ≥ 60 then
      ⟨s.now, s.now, sends .heartbeat s + 1⟩ else beatJob s := rfl
  rw [hpoll]
  unfold checkHeartbeat
  by_cases hdue : s.now - s.lastHeartbeat ≥ 60
  · rw [if_pos ⟨h, hdue⟩, if_pos hdue]
    split_ifs
    · exact hsent s
    · exact hsent (s.print _)
  · rw [if_neg (fun hboth => hdue hboth.2), if_neg hdue]

theorem jobs_pass {s u : Supervisor} {p : Pass} (h : step s (.pass p) = some u) :
    ∃ w, w.now = p.now ∧ jobs w = jobs { s with now := p.now } ∧
      jobs u = jobs (checkHeartbeat p (checkConfig p w)) := by
  obtain ⟨v, hv, hrest⟩ := Option.bind_eq_some_iff.mp h
  obtain ⟨w, hw, hu⟩ := Option.bind_eq_some_iff.mp hrest
  obtain ⟨m, hm, hv⟩ := Option.bind_eq_some_iff.mp hv
  obtain ⟨-, rfl⟩ := time_eq_some.mp hm
  cases hv
  cases hu
  have hjobs := jobs_checkStuck hw
  exact ⟨w, congrArg (·.1.now) hjobs, hjobs, jobs_readSerial _ _⟩

/-- No pass of these ticks samples the clock later than `gap` after the one before. -/
def GapsWithin (gap : ℤ) : ℤ → List Tick → Prop
  | _, [] => True
  | now, .resetApply _ :: ticks => GapsWithin gap now ticks
  | now, .pass p :: ticks => p.now ≤ now + gap ∧ GapsWithin gap p.now ticks

/-- Every pass of this kind polls the job, and a reset leaves it alone. -/
structure Polls (job : Supervisor → Job) (period : ℤ) (kind : Pass → Prop) : Prop where
  now : ∀ s, (job s).now = s.now
  pass : ∀ s p u, kind p → step s (.pass p) = some u → job u = (job s).poll period p.now
  reset : ∀ s done u, step s (.resetApply done) = some u → job u = job s

theorem configJob_polls : Polls configJob 5 Disconnected := by
  refine ⟨fun s => rfl, fun s p u hp h => ?_, fun s done u h => congrArg (·.1) (jobs_reset h)⟩
  obtain ⟨w, hnow, hsame, hjobs⟩ := jobs_pass h
  have hconfig : configJob u = configJob (checkHeartbeat p (checkConfig p w)) :=
    congrArg (·.1) hjobs
  have hw : configJob w = configJob { s with now := p.now } := congrArg (·.1) hsame
  rw [hconfig, configJob_checkHeartbeat, configJob_checkConfig hp, hnow, hw]
  rfl

theorem beatJob_polls : Polls beatJob 60 (·.connected₄ = true) := by
  refine ⟨fun s => rfl, fun s p u hp h => ?_, fun s done u h => congrArg (·.2) (jobs_reset h)⟩
  obtain ⟨w, hnow, hsame, hjobs⟩ := jobs_pass h
  have hbeat : beatJob u = beatJob (checkHeartbeat p (checkConfig p w)) := congrArg (·.2) hjobs
  have hw : beatJob w = beatJob { s with now := p.now } := congrArg (·.2) hsame
  have hsampled : (checkConfig p w).now = p.now :=
    (congrArg (·.now) (beatJob_checkConfig p w)).trans hnow
  rw [hbeat, beatJob_checkHeartbeat hp, beatJob_checkConfig, hsampled, hw]
  rfl

theorem pass_now {s u : Supervisor} {p : Pass} (hs : s.now ≤ s.clock)
    (h : step s (.pass p) = some u) : s.now ≤ p.now ∧ u.now = p.now := by
  have hsample : s.clock ≤ p.now := by
    obtain ⟨v, hv, -⟩ := Option.bind_eq_some_iff.mp h
    obtain ⟨m, hm, -⟩ := Option.bind_eq_some_iff.mp hv
    exact (time_eq_some.mp hm).1.1
  obtain ⟨w, hnow, -, hjobs⟩ := jobs_pass h
  have hchecked : (checkHeartbeat p (checkConfig p w)).now = (checkConfig p w).now :=
    congrArg (·.now) (configJob_checkHeartbeat p (checkConfig p w))
  have hconfig : (checkConfig p w).now = w.now := congrArg (·.now) (beatJob_checkConfig p w)
  have hu : u.now = (checkHeartbeat p (checkConfig p w)).now := congrArg (·.1.now) hjobs
  exact ⟨hs.trans hsample, by rw [hu, hchecked, hconfig, hnow]⟩

theorem run_polls {job : Supervisor → Job} {period gap : ℤ} {kind : Pass → Prop}
    (hpolls : Polls job period kind) {s u : Supervisor} {ticks : List Tick} (hs : Supervised s)
    (hrun : run step s ticks = some u) (hkind : ∀ p, .pass p ∈ ticks → kind p)
    (hgaps : GapsWithin gap s.now ticks) :
    ∃ times, Paced gap s.now times ∧ job u = times.foldl (Job.poll period) (job s) := by
  induction ticks generalizing s with
  | nil =>
    cases hrun
    exact ⟨[], trivial, rfl⟩
  | cons tick ticks ih =>
    obtain ⟨t, ht, hrest⟩ := run_cons_iff.mp hrun
    have hsupervised := step_supervised s tick t hs ht
    have hkinds := fun p hp => hkind p (List.mem_cons_of_mem tick hp)
    cases tick with
    | resetApply done =>
      have hjob := hpolls.reset s done t ht
      have hnow : t.now = s.now := by rw [← hpolls.now t, hjob, hpolls.now s]
      obtain ⟨times, hpaced, hfold⟩ := ih hsupervised hrest hkinds (hnow ▸ hgaps)
      exact ⟨times, hnow ▸ hpaced, hjob ▸ hfold⟩
    | pass p =>
      obtain ⟨hback, hnow⟩ := pass_now hs.2.now_le ht
      have hjob := hpolls.pass s p t (hkind p List.mem_cons_self) ht
      obtain ⟨times, hpaced, hfold⟩ := ih hsupervised hrest hkinds (hnow ▸ hgaps.2)
      refine ⟨p.now :: times, ⟨hback, hgaps.1, hnow ▸ hpaced⟩, ?_⟩
      rw [List.foldl_cons, ← hjob]
      exact hfold

def Stamped (s : Supervisor) : Prop := s.lastWantConfig ≤ s.now ∧ s.lastHeartbeat ≤ s.now

theorem stamped_jobs {s u : Supervisor} (h : Stamped s) (hjobs : jobs u = jobs s) :
    Stamped u := by
  have hconfig := congrArg (·.1) hjobs
  have hbeat := congrArg (·.2) hjobs
  have hu : (configJob u).stamp ≤ (configJob u).now ∧ (beatJob u).stamp ≤ (beatJob u).now := by
    rw [show configJob u = configJob s from hconfig, show beatJob u = beatJob s from hbeat]
    exact h
  exact hu

theorem stamped_checkConfig {s : Supervisor} (h : Stamped s) (p : Pass) :
    Stamped (checkConfig p s) := by
  unfold checkConfig
  split_ifs
  · exact ⟨le_refl s.now, h.2⟩
  · exact ⟨le_refl s.now, h.2⟩
  · exact ⟨le_refl s.now, h.2⟩
  · exact h

theorem stamped_checkHeartbeat {s : Supervisor} (h : Stamped s) (p : Pass) :
    Stamped (checkHeartbeat p s) := by
  unfold checkHeartbeat
  split_ifs
  · exact ⟨h.1, le_refl s.now⟩
  · exact ⟨h.1, le_refl s.now⟩
  · exact h

theorem step_stamped (s : Supervisor) (tick : Tick) (u : Supervisor)
    (h : Supervised s ∧ Stamped s) (hstep : step s tick = some u) :
    Supervised u ∧ Stamped u := by
  refine ⟨step_supervised s tick u h.1 hstep, ?_⟩
  cases tick with
  | resetApply done => exact stamped_jobs h.2 (jobs_reset hstep)
  | pass p =>
    obtain ⟨hback, -⟩ := pass_now h.1.2.now_le hstep
    obtain ⟨w, -, hsame, hjobs⟩ := jobs_pass hstep
    have hsampled : Stamped { s with now := p.now } := ⟨h.2.1.trans hback, h.2.2.trans hback⟩
    have hw := stamped_jobs hsampled hsame
    exact stamped_jobs (stamped_checkHeartbeat (stamped_checkConfig hw p) p) hjobs

theorem boot_stamped {t₀ t₁ t₂ : ℤ} {early : List ℤ} {s : Supervisor} (hepoch : 0 ≤ t₂)
    (hboot : boot t₀ t₁ early t₂ = some s) : Stamped s := by
  obtain ⟨u, -, hrest⟩ := Option.bind_eq_some_iff.mp hboot
  obtain ⟨v, -, hs⟩ := Option.bind_eq_some_iff.mp hrest
  obtain ⟨w, -, hs⟩ := Option.bind_eq_some_iff.mp hs
  cases hs
  exact ⟨hepoch, le_refl t₂⟩

/-- How often a job is done in a part of a run in which every pass polls it. -/
theorem job_rate {job : Supervisor → Job} {period gap : ℤ} {kind : Pass → Prop}
    (hpolls : Polls job period kind) (hperiod : 0 < period) {s u : Supervisor}
    {ticks : List Tick} (hs : Supervised s) (hstamp : (job s).stamp ≤ s.now)
    (hrun : run step s ticks = some u) (hkind : ∀ p, .pass p ∈ ticks → kind p)
    (hgaps : GapsWithin gap s.now ticks) :
    ∃ more : ℕ, (job u).fired = (job s).fired + more ∧
      period * more ≤ u.now - (job s).stamp ∧
      u.now - s.now < (period + gap) * more + period := by
  obtain ⟨times, hpaced, hfold⟩ := run_polls hpolls hs hrun hkind hgaps
  rw [← hpolls.now s] at hstamp hpaced
  obtain ⟨more, hfired, hapart, hclose⟩ := polls_rate hstamp hperiod hpaced
  rw [← hfold, hpolls.now u] at hapart hclose
  rw [hpolls.now s] at hclose
  exact ⟨more, by rw [hfold, hfired], hapart, hclose⟩

/-- While the device does not answer, the loop asks for the configuration every five seconds:
not more often, and not less often than its passes allow. -/
theorem keeps_asking {t₀ t₁ t₂ gap : ℤ} {early : List ℤ} {before ticks : List Tick}
    {s v u : Supervisor} (hepoch : 0 ≤ t₂) (hboot : boot t₀ t₁ early t₂ = some s)
    (hbefore : run step s before = some v) (hrun : run step v ticks = some u)
    (hdisconnected : ∀ p, .pass p ∈ ticks → Disconnected p)
    (hgaps : GapsWithin gap v.now ticks) :
    ∃ asked : ℕ, sends .wantConfig u = sends .wantConfig v + asked ∧
      5 * asked ≤ u.now - v.lastWantConfig ∧ u.now - v.now < (5 + gap) * asked + 5 := by
  have hstart := And.intro (boot_supervised hboot) (boot_stamped hepoch hboot)
  obtain ⟨hsupervised, hstamped⟩ := run_invariant step_stamped hstart hbefore
  exact job_rate configJob_polls (by decide) hsupervised hstamped.1 hrun hdisconnected hgaps

def silentTicks : List Tick := [passAt 4 false 0, passAt 7 false 0, .resetApply 8, passAt 12 false 0]

theorem keeps_asking_silent : ∃ s u, boot 0 1 [] 2 = some s ∧ run step s silentTicks = some u ∧
    ∃ asked : ℕ, sends .wantConfig u = sends .wantConfig s + asked ∧
      5 * asked ≤ u.now - s.lastWantConfig ∧ u.now - s.now < (5 + 5) * asked + 5 := by
  obtain ⟨s, u, hboot, hrun, hnow⟩ : ∃ s u, boot 0 1 [] 2 = some s ∧
      run step s silentTicks = some u ∧ s.now = 2 := ⟨_, _, rfl, rfl, rfl⟩
  have hgaps : GapsWithin 5 s.now silentTicks := by
    rw [hnow]
    simp [silentTicks, passAt, GapsWithin]
  refine ⟨s, u, hboot, hrun, keeps_asking (by decide) hboot run_nil hrun (fun p hp => ?_) hgaps⟩
  simp only [silentTicks, passAt, List.mem_cons, Tick.pass.injEq, reduceCtorEq, List.not_mem_nil,
    or_false, false_or] at hp
  rcases hp with rfl | rfl | rfl <;> exact ⟨rfl, rfl⟩

/-- While the device is connected, the loop beats every minute. -/
theorem keeps_beating {t₀ t₁ t₂ gap : ℤ} {early : List ℤ} {before ticks : List Tick}
    {s v u : Supervisor} (hepoch : 0 ≤ t₂) (hboot : boot t₀ t₁ early t₂ = some s)
    (hbefore : run step s before = some v) (hrun : run step v ticks = some u)
    (hconnected : ∀ p, .pass p ∈ ticks → p.connected₄ = true)
    (hgaps : GapsWithin gap v.now ticks) :
    ∃ beats : ℕ, sends .heartbeat u = sends .heartbeat v + beats ∧
      60 * beats ≤ u.now - v.lastHeartbeat ∧ u.now - v.now < (60 + gap) * beats + 60 := by
  have hstart := And.intro (boot_supervised hboot) (boot_stamped hepoch hboot)
  obtain ⟨hsupervised, hstamped⟩ := run_invariant step_stamped hstart hbefore
  exact job_rate beatJob_polls (by decide) hsupervised hstamped.2 hrun hconnected hgaps

def answeringTicks : List Tick := [passAt 30 true 0, passAt 63 true 0, passAt 100 true 0]

theorem keeps_beating_answering : ∃ s u, boot 0 1 [] 2 = some s ∧
    run step s answeringTicks = some u ∧
    ∃ beats : ℕ, sends .heartbeat u = sends .heartbeat s + beats ∧
      60 * beats ≤ u.now - s.lastHeartbeat ∧ u.now - s.now < (60 + 40) * beats + 60 := by
  obtain ⟨s, u, hboot, hrun, hnow⟩ : ∃ s u, boot 0 1 [] 2 = some s ∧
      run step s answeringTicks = some u ∧ s.now = 2 := ⟨_, _, rfl, rfl, rfl⟩
  have hgaps : GapsWithin 40 s.now answeringTicks := by
    rw [hnow]
    simp [answeringTicks, passAt, GapsWithin]
  refine ⟨s, u, hboot, hrun, keeps_beating (by decide) hboot run_nil hrun (fun p hp => ?_) hgaps⟩
  simp only [answeringTicks, passAt, List.mem_cons, Tick.pass.injEq, List.not_mem_nil,
    or_false] at hp
  rcases hp with rfl | rfl | rfl <;> rfl

end MeshRoofFirmware.SupervisorProgress
