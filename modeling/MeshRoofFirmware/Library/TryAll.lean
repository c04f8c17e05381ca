import Mathlib.Data.List.Basic

set_option autoImplicit false

namespace MeshRoofFirmware.Library.TryAll
variable {α β σ : Type}

def tryAll (add : α → σ → Bool × σ) : List α → Bool × σ → Bool × σ
  | [], acc => acc
  | x :: xs, (ok, s) => tryAll add xs (ok && (add x s).1, (add x s).2)

def addAll (add : α → σ → Bool × σ) (xs : List α) (s : σ) : σ :=
  xs.foldl (fun s x => (add x s).2) s

theorem tryAll_append (add : α → σ → Bool × σ) (xs ys : List α) (acc : Bool × σ) :
    tryAll add (xs ++ ys) acc = tryAll add ys (tryAll add xs acc) := by
  induction xs generalizing acc with
  | nil => rfl
  | cons x xs ih => exact ih _

theorem tryAll_map (add : α → σ → Bool × σ) (f : β → α) (xs : List β) (acc : Bool × σ) :
    tryAll add (xs.map f) acc = tryAll (fun x => add (f x)) xs acc := by
  induction xs generalizing acc with
  | nil => rfl
  | cons x xs ih => exact ih _

theorem tryAll_state (add : α → σ → Bool × σ) (xs : List α) (ok : Bool) (s : σ) :
    (tryAll add xs (ok, s)).2 = addAll add xs s := by
  induction xs generalizing ok s with
  | nil => rfl
  | cons x xs ih => exact ih _ _

/-- The result is true exactly if every element is accepted where its turn comes. -/
theorem tryAll_result_iff (add : α → σ → Bool × σ) (xs : List α) (ok : Bool) (s : σ) :
    (tryAll add xs (ok, s)).1 = true ↔ ok = true ∧
      ∀ done x todo, xs = done ++ x :: todo → (add x (addAll add done s)).1 = true := by
  induction xs generalizing ok s with
  | nil => exact ⟨fun h => ⟨h, by simp⟩, fun h => h.1⟩
  | cons y xs ih =>
    rw [tryAll, ih, Bool.and_eq_true]
    constructor
    · rintro ⟨⟨hok, hfirst⟩, hrest⟩
      refine ⟨hok, fun done x todo hsplit => ?_⟩
      cases done with
      | nil =>
        cases hsplit
        exact hfirst
      | cons z done =>
        obtain ⟨rfl, htail⟩ := List.cons_eq_cons.mp hsplit
        exact hrest done x todo htail
    · rintro ⟨hok, hall⟩
      refine ⟨⟨hok, hall [] y xs rfl⟩, fun done x todo hsplit => ?_⟩
      exact hall (y :: done) x todo (congrArg (y :: ·) hsplit)

end MeshRoofFirmware.Library.TryAll
