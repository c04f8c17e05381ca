import MeshRoofFirmware.Library.Runs
import Mathlib.Data.Nat.Notation

set_option autoImplicit false

namespace MeshRoofFirmware.Library.Lifetimes
open Runs
variable {ρ : Type} [DecidableEq ρ]

inductive Use (ρ : Type) where
  | acquire (r : ρ)
  | release (r : ρ)
  deriving DecidableEq

/-- What is held after one use; there is none if it acquires what is held or releases what is
not. -/
def use (held : List ρ) : Use ρ → Option (List ρ)
  | .acquire r => if r ∈ held then none else some (r :: held)
  | .release r => if r ∈ held then some (held.erase r) else none

/-- Whatever the trace acquires it releases once, after it was acquired, and nothing else. -/
def Settled (uses : List (Use ρ)) : Prop := run use [] uses = some []

instance (uses : List (Use ρ)) : Decidable (Settled uses) :=
  inferInstanceAs (Decidable (run use [] uses = some []))

theorem use_count {held left : List ρ} {u : Use ρ} (h : use held u = some left) (r : ρ) :
    held.count r + [u].count (.acquire r) = left.count r + [u].count (.release r) := by
  cases u with
  | acquire q =>
    rw [use] at h
    split_ifs at h with hheld
    cases h
    by_cases hq : q = r
    · subst hq
      simp
    · simp [hq]
  | release q =>
    rw [use] at h
    split_ifs at h with hheld
    cases h
    by_cases hq : q = r
    · subst hq
      have hpos := List.count_pos_iff.mpr hheld
      have hacquire : [Use.release q].count (.acquire q) = 0 := by simp
      rw [List.count_erase_self, hacquire, List.count_singleton_self]
      omega
    · rw [List.count_erase_of_ne (Ne.symm hq)]
      simp [hq]

theorem run_count {uses : List (Use ρ)} {held left : List ρ} (h : run use held uses = some left)
    (r : ρ) : held.count r + uses.count (.acquire r) = left.count r + uses.count (.release r) := by
  induction uses generalizing held with
  | nil =>
    cases h
    rfl
  | cons u uses ih =>
    obtain ⟨next, hfirst, hrest⟩ := run_cons_iff.mp h
    have hone := use_count hfirst r
    have htail := ih hrest
    rw [← List.singleton_append, List.count_append, List.count_append]
    omega

theorem settled_count {uses : List (Use ρ)} (h : Settled uses) (r : ρ) :
    uses.count (.acquire r) = uses.count (.release r) := by
  have hcount := run_count h r
  simpa using hcount

theorem settled_released_le {uses done : List (Use ρ)} (h : Settled uses) (hdone : done <+: uses)
    (r : ρ) : done.count (.release r) ≤ done.count (.acquire r) := by
  obtain ⟨todo, rfl⟩ := hdone
  obtain ⟨held, hfirst, -⟩ := run_append_iff.mp h
  have hcount := run_count hfirst r
  rw [List.count_nil] at hcount
  omega

end MeshRoofFirmware.Library.Lifetimes
