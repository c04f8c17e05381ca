import Mathlib.Data.List.Basic
import Mathlib.Order.Basic
import Mathlib.Tactic.Common

set_option autoImplicit false

/-! Logs of timed events, and the rule by which a stamp keeps later events away from
earlier ones: a stamp that no earlier event is past is compared before the later event. -/
namespace MeshRoofFirmware.Library.TimedLog
variable {κ τ : Type}

structure Entry (κ τ : Type) where
  kind : κ
  time : τ
  deriving DecidableEq

/-- Each entry of the later kinds stands in the relation to all those of the earlier kinds
before it. -/
def Follows (r : τ → τ → Prop) (earlier later : κ → Prop) (log : List (Entry κ τ)) : Prop :=
  log.Pairwise (fun e f => earlier e.kind → later f.kind → r e.time f.time)

/-- No entry of these kinds is past the stamp. -/
def Until [LE τ] (stamp : τ) (kinds : κ → Prop) (log : List (Entry κ τ)) : Prop :=
  ∀ e ∈ log, kinds e.kind → e.time ≤ stamp

theorem until_later [Preorder τ] {stamp now : τ} {kinds : κ → Prop} {log : List (Entry κ τ)}
    (h : Until stamp kinds log) (hle : stamp ≤ now) : Until now kinds log :=
  fun e he hk => le_trans (h e he hk) hle

theorem until_record [LE τ] {stamp : τ} {kinds : κ → Prop} {log : List (Entry κ τ)}
    (h : Until stamp kinds log) {e : Entry κ τ} (he : kinds e.kind → e.time ≤ stamp) :
    Until stamp kinds (log ++ [e]) := by
  intro f hf hk
  rcases List.mem_append.mp hf with hold | hnew
  · exact h f hold hk
  · rw [List.mem_singleton] at hnew
    subst hnew
    exact he hk

theorem follows_record {r : τ → τ → Prop} {earlier later : κ → Prop} {log : List (Entry κ τ)}
    (h : Follows r earlier later log) {f : Entry κ τ}
    (hf : later f.kind → ∀ e ∈ log, earlier e.kind → r e.time f.time) :
    Follows r earlier later (log ++ [f]) := by
  rw [Follows, List.pairwise_append]
  refine ⟨h, List.pairwise_singleton _ _, ?_⟩
  intro e he g hg hearlier hlater
  rw [List.mem_singleton] at hg
  subst hg
  exact hf hlater e he hearlier

theorem follows_other {r : τ → τ → Prop} {earlier later : κ → Prop} {log : List (Entry κ τ)}
    (h : Follows r earlier later log) {f : Entry κ τ} (hf : ¬ later f.kind) :
    Follows r earlier later (log ++ [f]) :=
  follows_record h (fun hk => absurd hk hf)

theorem follows_stamp [Preorder τ] {r : τ → τ → Prop} (hr : ∀ s t u, s ≤ t → r t u → r s u)
    {earlier later : κ → Prop} {log : List (Entry κ τ)} (h : Follows r earlier later log)
    {stamp : τ} (hstamp : Until stamp earlier log) {f : Entry κ τ} (hdue : r stamp f.time) :
    Follows r earlier later (log ++ [f]) :=
  follows_record h (fun _ e he hk => hr _ _ _ (hstamp e he hk) hdue)

end MeshRoofFirmware.Library.TimedLog
