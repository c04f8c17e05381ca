import MeshRoofFirmware.Library.Runs
import Mathlib.Data.List.Induction
import Mathlib.Logic.Function.Basic

set_option autoImplicit false

namespace MeshRoofFirmware.Library.SharedCounter
open Runs
variable {P : Type} [DecidableEq P]

structure Counter (P : Type) where
  value : ℕ
  loaded : P → Option ℕ

inductive Access (P : Type) where
  | load (p : P)
  | store (p : P)
  deriving DecidableEq

def Access.isStore : Access P → Bool
  | .load _ => false
  | .store _ => true

def step (c : Counter P) : Access P → Option (Counter P)
  | .load p => some { c with loaded := Function.update c.loaded p (some c.value) }
  | .store p => (c.loaded p).map fun v => ⟨v + 1, Function.update c.loaded p none⟩

def stores (acts : List (Access P)) : ℕ := acts.countP Access.isStore

def since (p : P) (acts : List (Access P)) : ℕ :=
  (acts.reverse.takeWhile (· ≠ .load p)).countP Access.isStore

/-- Nobody stores between the load and the store of an increment. -/
def Undisturbed (acts : List (Access P)) : Prop :=
  ∀ done p todo, acts = done ++ .store p :: todo → since p done = 0

omit [DecidableEq P] in
theorem stores_concat (acts : List (Access P)) (a : Access P) :
    stores (acts ++ [a]) = stores acts + if a.isStore then 1 else 0 := by
  rw [stores, List.countP_append, List.countP_singleton]
  rfl

theorem since_own_load (p : P) (acts : List (Access P)) : since p (acts ++ [.load p]) = 0 := by
  rw [since, List.reverse_append]
  simp

theorem since_concat {p : P} {a : Access P} (ha : a ≠ .load p) (acts : List (Access P)) :
    since p (acts ++ [a]) = since p acts + if a.isStore then 1 else 0 := by
  rw [since, List.reverse_append, List.reverse_singleton, List.singleton_append,
    List.takeWhile_cons_of_pos (by simpa using ha), List.countP_cons]
  rfl

theorem undisturbed_concat (acts : List (Access P)) (a : Access P) :
    Undisturbed (acts ++ [a]) ↔ Undisturbed acts ∧ ∀ p, a = .store p → since p acts = 0 := by
  constructor
  · intro h
    constructor
    · intro done p todo hsplit
      exact h done p (todo ++ [a]) (by rw [hsplit, List.append_assoc]; rfl)
    · rintro p rfl
      exact h acts p [] rfl
  · rintro ⟨hacts, hlast⟩ done p todo hsplit
    rcases List.eq_nil_or_concat todo with rfl | ⟨todo, b, rfl⟩
    · obtain ⟨rfl, hb⟩ := List.append_inj' hsplit rfl
      exact hlast p (List.singleton_inj.mp hb)
    · rw [List.concat_eq_append, ← List.cons_append, ← List.append_assoc] at hsplit
      exact hacts done p todo (List.append_inj' hsplit rfl).1

/-- Where a counter stands that was at `base` before these accesses: it never runs ahead of the
stores, it is exact while no increment was disturbed, and once one was it stays behind. -/
structure Tracks (base : ℕ) (acts : List (Access P)) (c : Counter P) : Prop where
  value_le : c.value ≤ base + stores acts
  loaded_le : ∀ p v, c.loaded p = some v → v + since p acts ≤ base + stores acts
  exact : Undisturbed acts → c.value = base + stores acts ∧
    ∀ p v, c.loaded p = some v → v + since p acts = base + stores acts
  behind : ¬ Undisturbed acts → c.value < base + stores acts ∧
    ∀ p v, c.loaded p = some v → v + since p acts < base + stores acts ∨ 0 < since p acts

theorem load_tracks {base : ℕ} {acts : List (Access P)} {c : Counter P} (h : Tracks base acts c)
    (p : P) : Tracks base (acts ++ [.load p])
      { c with loaded := Function.update c.loaded p (some c.value) } := by
  have hstores : stores (acts ++ [.load p]) = stores acts := stores_concat acts (.load p)
  have hsame : Undisturbed (acts ++ [.load p]) ↔ Undisturbed acts := by
    rw [undisturbed_concat]
    exact and_iff_left (fun q hq => by cases hq)
  have hown := since_own_load p acts
  have hother {q : P} (hq : q ≠ p) : since q (acts ++ [.load p]) = since q acts :=
    since_concat (fun e => hq (Access.load.inj e).symm) acts
  have hback {q : P} {v : ℕ} (hv : Function.update c.loaded p (some c.value) q = some v) :
      (q = p ∧ v = c.value) ∨ (q ≠ p ∧ c.loaded q = some v) := by
    by_cases hq : q = p
    · subst hq
      rw [Function.update_self] at hv
      exact Or.inl ⟨rfl, (Option.some.inj hv).symm⟩
    · rw [Function.update_of_ne hq] at hv
      exact Or.inr ⟨hq, hv⟩
  constructor
  · rw [hstores]
    exact h.value_le
  · intro q v hv
    rw [hstores]
    rcases hback hv with ⟨rfl, rfl⟩ | ⟨hq, hv⟩
    · rw [hown]
      exact h.value_le
    · rw [hother hq]
      exact h.loaded_le q v hv
  · intro hu
    obtain ⟨hvalue, hloaded⟩ := h.exact (hsame.mp hu)
    rw [hstores]
    refine ⟨hvalue, fun q v hv => ?_⟩
    rcases hback hv with ⟨rfl, rfl⟩ | ⟨hq, hv⟩
    · rw [hown]
      exact hvalue
    · rw [hother hq]
      exact hloaded q v hv
  · intro hu
    obtain ⟨hvalue, hloaded⟩ := h.behind (mt hsame.mpr hu)
    rw [hstores]
    refine ⟨hvalue, fun q v hv => ?_⟩
    rcases hback hv with ⟨rfl, rfl⟩ | ⟨hq, hv⟩
    · rw [hown]
      exact Or.inl hvalue
    · rw [hother hq]
      exact hloaded q v hv

theorem store_tracks {base : ℕ} {acts : List (Access P)} {c : Counter P} (h : Tracks base acts c)
    {p : P} {v : ℕ} (hv : c.loaded p = some v) : Tracks base (acts ++ [.store p])
      ⟨v + 1, Function.update c.loaded p none⟩ := by
  have hstores : stores (acts ++ [.store p]) = stores acts + 1 := stores_concat acts (.store p)
  have hsince (q : P) : since q (acts ++ [.store p]) = since q acts + 1 :=
    since_concat (fun e => by cases e) acts
  have hsame : Undisturbed (acts ++ [.store p]) ↔ Undisturbed acts ∧ since p acts = 0 := by
    rw [undisturbed_concat]
    refine and_congr_right fun _ => ⟨fun hall => hall p rfl, fun hp q hq => ?_⟩
    cases hq
    exact hp
  have hpending := h.loaded_le p v hv
  have hback {q : P} {w : ℕ} (hw : Function.update c.loaded p none q = some w) :
      c.loaded q = some w := by
    by_cases hq : q = p
    · subst hq
      rw [Function.update_self] at hw
      cases hw
    · rwa [Function.update_of_ne hq] at hw
  constructor
  · dsimp only
    omega
  · intro q w hw
    have hle := h.loaded_le q w (hback hw)
    rw [hsince]
    omega
  · intro hu
    obtain ⟨hacts, hp⟩ := hsame.mp hu
    obtain ⟨-, hloaded⟩ := h.exact hacts
    have hown := hloaded p v hv
    refine ⟨by dsimp only; omega, fun q w hw => ?_⟩
    have hq := hloaded q w (hback hw)
    rw [hsince]
    omega
  · intro hu
    refine ⟨?_, fun q w _ => ?_⟩
    · -- this store is disturbed, or what it stores was already behind when it was loaded
      by_cases hacts : Undisturbed acts
      · have hp : since p acts ≠ 0 := fun e => hu (hsame.mpr ⟨hacts, e⟩)
        dsimp only
        omega
      · have hlate := (h.behind hacts).2 p v hv
        dsimp only
        omega
    · rw [hsince]
      exact Or.inr (Nat.succ_pos _)

theorem step_tracks {base : ℕ} (done : List (Access P)) (c : Counter P) (a : Access P)
    (d : Counter P) (h : Tracks base done c) (hd : step c a = some d) :
    Tracks base (done ++ [a]) d := by
  cases a with
  | load p =>
    cases hd
    exact load_tracks h p
  | store p =>
    obtain ⟨v, hv, rfl⟩ := Option.map_eq_some_iff.mp hd
    exact store_tracks h hv

theorem start_tracks {c : Counter P} (hidle : ∀ p, c.loaded p = none) : Tracks c.value [] c := by
  have hnone {p : P} {v : ℕ} : ¬ c.loaded p = some v := by
    rw [hidle]
    exact nofun
  have hundisturbed : Undisturbed ([] : List (Access P)) := by
    intro done p todo hsplit
    simp at hsplit
  exact ⟨Nat.le_refl _, fun p v hv => absurd hv hnone, fun _ => ⟨rfl, fun p v hv => absurd hv hnone⟩,
    fun hu => absurd hundisturbed hu⟩

theorem run_tracks {c d : Counter P} {acts : List (Access P)} (hidle : ∀ p, c.loaded p = none)
    (hrun : run step c acts = some d) : Tracks c.value acts d :=
  run_history step_tracks (start_tracks hidle) hrun

/-- The counter has counted every increment exactly if none was disturbed. -/
theorem exact_iff {base : ℕ} {acts : List (Access P)} {c : Counter P} (h : Tracks base acts c) :
    c.value = base + stores acts ↔ Undisturbed acts := by
  constructor
  · intro hvalue
    by_contra hu
    have hlt := (h.behind hu).1
    omega
  · intro hu
    exact (h.exact hu).1

end MeshRoofFirmware.Library.SharedCounter
