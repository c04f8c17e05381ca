import Mathlib.Logic.Function.Basic
import Mathlib.Data.List.Basic

set_option autoImplicit false

/-! A store whose writes are all-or-nothing for one key and independent between keys.
Losing power in a sequence of writes leaves the effect of one of its prefixes. -/
namespace MeshRoofFirmware.Library.KeyedStore
variable {κ β : Type} [DecidableEq κ]

abbrev Store (κ β : Type) := κ → Option β

structure Write (κ β : Type) where
  key : κ
  value : β

def Store.set (s : Store κ β) (w : Write κ β) : Store κ β := Function.update s w.key (some w.value)

def Store.apply (s : Store κ β) (ws : List (Write κ β)) : Store κ β := ws.foldl Store.set s

theorem set_same (s : Store κ β) (w : Write κ β) : s.set w w.key = some w.value :=
  Function.update_self _ _ _

theorem set_other (s : Store κ β) (w : Write κ β) (k : κ) (h : k ≠ w.key) : s.set w k = s k :=
  Function.update_of_ne h _ _

omit [DecidableEq κ] in
theorem prefix_pair {ws : List (Write κ β)} {u v : Write κ β} (h : ws <+: [u, v]) :
    ws = [] ∨ ws = [u] ∨ ws = [u, v] := by
  rcases List.prefix_cons_iff.mp h with rfl | ⟨vs, rfl, hv⟩
  · exact Or.inl rfl
  · rcases List.prefix_cons_iff.mp hv with rfl | ⟨rest, rfl, hr⟩
    · exact Or.inr (Or.inl rfl)
    · rw [List.prefix_nil.mp hr]
      exact Or.inr (Or.inr rfl)

end MeshRoofFirmware.Library.KeyedStore
