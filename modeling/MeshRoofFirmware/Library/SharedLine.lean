import MeshRoofFirmware.Library.Runs
import Mathlib.Logic.Function.Basic

set_option autoImplicit false

namespace MeshRoofFirmware.Library.SharedLine
open Runs
variable {P : Type} [DecidableEq P]

/-- The level of the line, and who has raised it and not dropped it since. -/
structure Line (P : Type) where
  raised : Bool
  holds : P → Bool

inductive Edge (P : Type) where
  | raise (p : P)
  | drop (p : P)
  deriving DecidableEq

def Line.edge (l : Line P) : Edge P → Line P
  | .raise p => ⟨true, Function.update l.holds p true⟩
  | .drop p => ⟨false, Function.update l.holds p false⟩

def Line.after (l : Line P) (edges : List (Edge P)) : Line P := edges.foldl Line.edge l

theorem after_append (l : Line P) (xs ys : List (Edge P)) :
    l.after (xs ++ ys) = (l.after xs).after ys := List.foldl_append

def Held (l : Line P) : Prop := l.raised = true → ∃ p, l.holds p = true

theorem edge_held (l : Line P) (e : Edge P) : Held (l.edge e) := by
  cases e with
  | raise p => exact fun _ => ⟨p, Function.update_self _ _ _⟩
  | drop p => exact fun h => absurd h Bool.false_ne_true

theorem after_held {l : Line P} (h : Held l) (edges : List (Edge P)) : Held (l.after edges) := by
  induction edges generalizing l with
  | nil => exact h
  | cons e edges ih => exact ih (edge_held l e)

theorem stays_raised_iff {l : Line P} (h : l.raised = true) (edges : List (Edge P)) :
    (∀ done, done <+: edges → (l.after done).raised = true) ↔ ∀ p, .drop p ∉ edges := by
  induction edges generalizing l with
  | nil =>
    refine iff_of_true (fun done hdone => ?_) (fun p => List.not_mem_nil)
    rw [List.prefix_nil.mp hdone]
    exact h
  | cons e edges ih =>
    have htail (hup : (l.edge e).raised = true) :
        (∀ done, done <+: e :: edges → (l.after done).raised = true) ↔
          ∀ p, .drop p ∉ edges := by
      rw [← ih hup]
      constructor
      · intro hall done hdone
        exact hall (e :: done) (List.cons_prefix_cons.mpr ⟨rfl, hdone⟩)
      · intro hall done hdone
        rcases List.prefix_cons_iff.mp hdone with rfl | ⟨rest, rfl, hrest⟩
        · exact h
        · exact hall rest hrest
    cases e with
    | raise q =>
      rw [htail rfl]
      simp
    | drop q =>
      refine iff_of_false (fun hall => ?_) (fun hnone => hnone q List.mem_cons_self)
      exact absurd (hall [.drop q] (List.cons_prefix_cons.mpr ⟨rfl, List.nil_prefix⟩))
        Bool.false_ne_true

/-- Parties that hold the line in some of their phases: one that moves between two phases in
which it does the same leaves all as it is. -/
theorem holds_update {φ : Type} (up : φ → Bool) {phase : P → φ} {p : P} {x : φ}
    (h : up x = up (phase p)) :
    (fun q => up (Function.update phase p x q)) = fun q => up (phase q) := by
  have hcomp := Function.comp_update up phase p x
  rw [h] at hcomp
  exact hcomp.trans (Function.update_eq_self p (up ∘ phase))

section Machine
variable {σ α : Type} {step : σ → α → Option σ} {line : σ → Line P} {edge? : α → Option (Edge P)}

def Drives (step : σ → α → Option σ) (line : σ → Line P) (edge? : α → Option (Edge P)) : Prop :=
  ∀ s a t, step s a = some t → line t = (line s).after (edge? a).toList

theorem run_line (h : Drives step line edge?) {s t : σ} {acts : List α}
    (hrun : run step s acts = some t) : line t = (line s).after (acts.filterMap edge?) := by
  induction acts generalizing s with
  | nil =>
    cases hrun
    rfl
  | cons a acts ih =>
    obtain ⟨u, hu, hrest⟩ := run_cons_iff.mp hrun
    rw [ih hrest, h s a u hu]
    cases hedge : edge? a with
    | none => rw [List.filterMap_cons_none hedge]; rfl
    | some e => rw [List.filterMap_cons_some hedge]; rfl

theorem run_held (h : Drives step line edge?) {s t : σ} {acts : List α} (hs : Held (line s))
    (hrun : run step s acts = some t) : Held (line t) := by
  rw [run_line h hrun]
  exact after_held hs _

theorem run_raised_iff (h : Drives step line edge?) {s t : σ} {acts : List α}
    (hs : (line s).raised = true) (hrun : run step s acts = some t) :
    (∀ done todo u, acts = done ++ todo → run step s done = some u → (line u).raised = true) ↔
      ∀ p, .drop p ∉ acts.filterMap edge? := by
  rw [← stays_raised_iff hs]
  constructor
  · intro hall edges hedges
    obtain ⟨done, ⟨todo, rfl⟩, rfl⟩ := List.prefix_filterMap_iff.mp hedges
    obtain ⟨u, hu, -⟩ := run_append_iff.mp hrun
    rw [← run_line h hu]
    exact hall done todo u rfl hu
  · rintro hall done todo u rfl hu
    rw [run_line h hu]
    exact hall _ (List.prefix_filterMap_iff.mpr ⟨done, List.prefix_append done todo, rfl⟩)

end Machine
end MeshRoofFirmware.Library.SharedLine
