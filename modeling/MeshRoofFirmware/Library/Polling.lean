import Mathlib.Order.Nat
import Mathlib.Tactic.Common

set_option autoImplicit false

namespace MeshRoofFirmware.Library.Polling
variable {β : Type}

def poll (pass : ℕ → Option β) : ℕ → ℕ → Option β
  | 0, _ => none
  | passes + 1, n =>
    match pass n with
    | some b => some b
    | none => poll pass passes (n + 1)

def FirstAt (p : ℕ → Prop) (n : ℕ) : Prop := p n ∧ ∀ m < n, ¬ p m

theorem exists_firstAt {p : ℕ → Prop} {n : ℕ} (h : p n) : ∃ m ≤ n, FirstAt p m := by
  induction n using Nat.strong_induction_on with
  | _ n ih =>
    by_cases hearlier : ∃ m < n, p m
    · obtain ⟨m, hm, hp⟩ := hearlier
      obtain ⟨k, hk, hfirst⟩ := ih m hm hp
      exact ⟨k, by omega, hfirst⟩
    · refine ⟨n, le_rfl, h, fun m hm hp => hearlier ⟨m, hm, hp⟩⟩

/-- Two conditions come true first at the same index exactly if they agree until the second of
them has come true. -/
theorem firstAt_same_iff {p q : ℕ → Prop} :
    (∀ n, FirstAt p n ↔ FirstAt q n) ↔ ∀ n, (∀ m < n, ¬ q m) → (p n ↔ q n) := by
  constructor
  · intro hsame n hq
    have hp : ∀ m < n, ¬ p m := by
      intro m hm hpm
      obtain ⟨k, hk, hfirst⟩ := exists_firstAt hpm
      exact hq k (by omega) ((hsame k).mp hfirst).1
    constructor
    · intro hpn
      exact ((hsame n).mp ⟨hpn, hp⟩).1
    · intro hqn
      exact ((hsame n).mpr ⟨hqn, hq⟩).1
  · intro hagree n
    constructor
    · rintro ⟨hpn, hp⟩
      have hq : ∀ m < n, ¬ q m := by
        intro m hm hqm
        obtain ⟨k, hk, hqk, hbefore⟩ := exists_firstAt hqm
        exact hp k (by omega) ((hagree k hbefore).mpr hqk)
      exact ⟨(hagree n hq).mp hpn, hq⟩
    · rintro ⟨hqn, hq⟩
      refine ⟨(hagree n hq).mpr hqn, fun m hm hpm => ?_⟩
      exact hq m hm ((hagree m (fun k hk => hq k (by omega))).mp hpm)

section Poll
variable {pass : ℕ → Option β}

theorem poll_found {passes n : ℕ} {b : β} (h : poll pass passes n = some b) :
    ∃ k, n ≤ k ∧ pass k = some b ∧ ∀ m, n ≤ m → m < k → pass m = none := by
  induction passes generalizing n with
  | zero => cases h
  | succ passes ih =>
    rw [poll] at h
    cases hpass : pass n with
    | some c =>
      rw [hpass] at h
      exact ⟨n, le_rfl, hpass.trans h, fun m hle hlt => by omega⟩
    | none =>
      rw [hpass] at h
      obtain ⟨k, hk, hfound, hbefore⟩ := ih h
      refine ⟨k, by omega, hfound, fun m hle hlt => ?_⟩
      rcases Nat.eq_or_lt_of_le hle with rfl | hnext
      · exact hpass
      · exact hbefore m hnext hlt

theorem poll_reaches {b : β} (k : ℕ) {n : ℕ} (hfound : pass (n + k) = some b)
    (hbefore : ∀ m, n ≤ m → m < n + k → pass m = none) : poll pass (k + 1) n = some b := by
  induction k generalizing n with
  | zero =>
    change pass n = some b at hfound
    rw [poll, hfound]
  | succ k ih =>
    rw [poll, hbefore n le_rfl (by omega)]
    refine ih ?_ (fun m hle hlt => hbefore m (by omega) (by omega))
    rw [Nat.add_right_comm]
    exact hfound

/-- With enough passes a loop gives the result of the first pass that has one. -/
theorem poll_iff {b : β} : (∃ passes, poll pass passes 0 = some b) ↔
    ∃ k, FirstAt (fun n => pass n ≠ none) k ∧ pass k = some b := by
  constructor
  · rintro ⟨passes, h⟩
    obtain ⟨k, -, hfound, hbefore⟩ := poll_found h
    refine ⟨k, ⟨by simp [hfound], fun m hm hsome => hsome (hbefore m (Nat.zero_le m) hm)⟩, hfound⟩
  · rintro ⟨k, ⟨-, hbefore⟩, hfound⟩
    refine ⟨k + 1, poll_reaches k (by rwa [Nat.zero_add]) (fun m _ hm => ?_)⟩
    exact not_not.mp (hbefore m (by omega))

end Poll
end MeshRoofFirmware.Library.Polling
