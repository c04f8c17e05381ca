import Mathlib.Algebra.Order.Ring.Int
import Mathlib.Tactic.Common

set_option autoImplicit false

namespace MeshRoofFirmware.Library.PeriodicJob

structure Job where
  now : ℤ
  stamp : ℤ
  fired : ℕ

def Job.poll (period : ℤ) (c : Job) (now : ℤ) : Job :=
  if now - c.stamp ≥ period then ⟨now, now, c.fired + 1⟩ else ⟨now, c.stamp, c.fired⟩

@[simp] theorem poll_now (period : ℤ) (c : Job) (now : ℤ) : (c.poll period now).now = now := by
  unfold Job.poll
  split_ifs <;> rfl

/-- The clock does not go back between two polls, and they are not further apart than `gap`. -/
def Paced (gap : ℤ) : ℤ → List ℤ → Prop
  | _, [] => True
  | now, next :: times => now ≤ next ∧ next ≤ now + gap ∧ Paced gap next times

structure Keeps (period gap start stamp : ℤ) (fired : ℕ) (c : Job) : Prop where
  stamp_le : c.stamp ≤ c.now
  apart : period * fired ≤ c.stamp - stamp
  close : c.stamp ≤ start + (period + gap) * fired
  recent : c.now < start + (period + gap) * fired + period

theorem keeps_start {c : Job} (hstamp : c.stamp ≤ c.now) {period gap : ℤ}
    (hperiod : 0 < period) : Keeps period gap c.now c.stamp 0 c :=
  ⟨hstamp, by simp, by simpa using hstamp, by simpa using hperiod⟩

theorem mul_succ_cast (period : ℤ) (n : ℕ) :
    period * ((n + 1 : ℕ) : ℤ) = period * n + period := by
  rw [Int.natCast_add, Int.mul_add, Int.natCast_one, Int.mul_one]

theorem poll_keeps {period gap start stamp : ℤ} {fired : ℕ} {c : Job} {now : ℤ}
    (h : Keeps period gap start stamp fired c) (hperiod : 0 < period) (hnow : c.now ≤ now)
    (hgap : now ≤ c.now + gap) :
    ∃ more, (c.poll period now).fired = c.fired + more ∧
      Keeps period gap start stamp (fired + more) (c.poll period now) := by
  obtain ⟨hstamp, hapart, hclose, hrecent⟩ := h
  by_cases hdue : now - c.stamp ≥ period
  · refine ⟨1, by rw [Job.poll, if_pos hdue], ?_⟩
    rw [Job.poll, if_pos hdue]
    have hapart' := mul_succ_cast period fired
    have hclose' := mul_succ_cast (period + gap) fired
    constructor
    · exact le_refl now
    · change _ ≤ now - stamp
      omega
    · change now ≤ _
      omega
    · change now < _
      omega
  · refine ⟨0, by rw [Job.poll, if_neg hdue]; rfl, ?_⟩
    rw [Job.poll, if_neg hdue]
    refine ⟨hstamp.trans hnow, hapart, hclose, ?_⟩
    change now < start + (period + gap) * fired + period
    omega

theorem polls_keep {period gap start stamp : ℤ} {fired : ℕ} {c : Job} {times : List ℤ}
    (h : Keeps period gap start stamp fired c) (hperiod : 0 < period)
    (hpaced : Paced gap c.now times) :
    ∃ more, (times.foldl (Job.poll period) c).fired = c.fired + more ∧
      Keeps period gap start stamp (fired + more) (times.foldl (Job.poll period) c) := by
  induction times generalizing c fired with
  | nil => exact ⟨0, rfl, h⟩
  | cons now times ih =>
    obtain ⟨hnow, hgap, hpaced⟩ := hpaced
    obtain ⟨first, hfirst, hkeeps⟩ := poll_keeps h hperiod hnow hgap
    obtain ⟨rest, hrest, hlast⟩ := ih hkeeps (by rwa [poll_now])
    refine ⟨first + rest, ?_, by rwa [← Nat.add_assoc]⟩
    rw [List.foldl_cons, hrest, hfirst, Nat.add_assoc]

/-- How often a job is done in a time: no more often than its period allows, and no less often
than the gaps between its polls. -/
theorem polls_rate {period gap : ℤ} {c : Job} {times : List ℤ} (hstamp : c.stamp ≤ c.now)
    (hperiod : 0 < period) (hpaced : Paced gap c.now times) :
    ∃ more : ℕ, (times.foldl (Job.poll period) c).fired = c.fired + more ∧
      period * more ≤ (times.foldl (Job.poll period) c).now - c.stamp ∧
      (times.foldl (Job.poll period) c).now - c.now < (period + gap) * more + period := by
  obtain ⟨more, hfired, hkeeps⟩ := polls_keep (keeps_start hstamp hperiod) hperiod hpaced
  rw [Nat.zero_add] at hkeeps
  have hapart := hkeeps.apart
  have hle := hkeeps.stamp_le
  have hrecent := hkeeps.recent
  exact ⟨more, hfired, by omega, by omega⟩

end MeshRoofFirmware.Library.PeriodicJob
