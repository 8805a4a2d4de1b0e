import Mathlib

/-!
# Runs of a step function

A step function takes a state and an action to the next state, or to none when the
action is not possible there.  A run performs a list of actions one after the other.
The rules here carry what holds of one step over to a run.
-/

namespace Runs

variable {σ α : Type*} (step : σ → α → Option σ)

/-- The state after performing the actions in turn, none when one of them is not
possible. -/
def run (s : σ) : List α → Option σ
  | [] => some s
  | a :: as => (step s a).bind (run · as)

@[simp]
theorem run_nil (s : σ) : run step s [] = some s := rfl

theorem run_cons {s t : σ} {a : α} {as : List α} :
  run step s (a :: as) = some t ↔ ∃ u, step s a = some u ∧ run step u as = some t
  := Option.bind_eq_some_iff

theorem run_append {s t : σ} {as bs : List α} :
  run step s (as ++ bs) = some t ↔ ∃ u, run step s as = some u ∧ run step u bs = some t
  := by
  induction as generalizing s with
  | nil => simp
  | cons a as ih =>
      rw [List.cons_append, run_cons]
      simp only [ih, run_cons]
      grind

theorem run_concat {s t : σ} {as : List α} {b : α} :
  run step s (as ++ [b]) = some t ↔ ∃ u, run step s as = some u ∧ step u b = some t
  := by
  rw [run_append]
  simp [run_cons]

/-- Every action of a list satisfies `P` in the state the run performs it in. -/
def Along (P : σ → α → Prop) : σ → List α → Prop
  | _, [] => True
  | s, a :: as => P s a ∧ ∀ t, step s a = some t → Along P t as

/-- Whether the actions of a list satisfy `P` can be computed. -/
instance Along.decidable {P : σ → α → Prop} [∀ s a, Decidable (P s a)] :
    (s : σ) → (as : List α) → Decidable (Along step P s as)
  | _, [] => .isTrue trivial
  | s, a :: as =>
      have : ∀ t, Decidable (Along step P t as) := fun t => Along.decidable t as
      inferInstanceAs (Decidable (P s a ∧ ∀ t ∈ step s a, Along step P t as))

theorem along_of_forall {P : σ → α → Prop} {s : σ} {as : List α} (h : ∀ a ∈ as, ∀ t, P t a) :
  Along step P s as
  := by
  induction as generalizing s with
  | nil => trivial
  | cons a as ih =>
      constructor
      · apply h a List.mem_cons_self
      · intro t _
        apply ih
        intro b hb
        apply h b (List.mem_cons_of_mem a hb)

/-- Along two lists of actions is along the first, and then along the second. -/
theorem along_append {P : σ → α → Prop} {s t : σ} {as bs : List α} (h : run step s as = some t) :
  Along step P s (as ++ bs) ↔ Along step P s as ∧ Along step P t bs
  := by
  induction as generalizing s with
  | nil =>
      cases h
      simp [Along]
  | cons a as ih =>
      obtain ⟨u, hu, ht⟩ := (run_cons step).mp h
      rw [List.cons_append, Along, Along, and_assoc]
      apply and_congr_right
      intro _
      constructor
      · intro hrest
        obtain ⟨has, hbs⟩ := (ih ht).mp (hrest u hu)
        refine ⟨?_, hbs⟩
        intro v hv
        cases hv.symm.trans hu
        exact has
      · rintro ⟨hrest, hbs⟩ v hv
        cases hv.symm.trans hu
        exact (ih ht).mpr ⟨hrest _ hu, hbs⟩

variable {step}

/-- What every step of an admitted action preserves holds at the end of a run of such
actions. -/
theorem run_invariant_along
    {P : σ → α → Prop} {I : σ → Prop}
    (hstep : ∀ s a t, P s a → I s → step s a = some t → I t)
    {s t : σ} {as : List α} (has : Along step P s as) (hs : I s) (h : run step s as = some t) :
  I t
  := by
  induction as generalizing s with
  | nil =>
      cases h
      apply hs
  | cons a as ih =>
      obtain ⟨u, hu, ht⟩ := (run_cons step).mp h
      apply ih (has.2 u hu) _ ht
      apply hstep s a u has.1 hs hu

/-- What every step preserves holds at the end of a run. -/
theorem run_invariant
    {I : σ → Prop} (hstep : ∀ s a t, I s → step s a = some t → I t)
    {s t : σ} {as : List α} (hs : I s) (h : run step s as = some t) :
  I t
  := by
  apply run_invariant_along (P := fun _ _ => True) _ _ hs h
  · intro s a t _
    apply hstep s a t
  · apply along_of_forall
    intro _ _ _
    trivial

/-- A preorder that every step of an admitted action goes up in, from states that satisfy
an invariant, relates the ends of a run of such actions. -/
theorem run_le_along
    {P : σ → α → Prop} {I : σ → Prop} (hI : ∀ s a t, I s → step s a = some t → I t)
    {R : σ → σ → Prop} (hrefl : ∀ s, R s s) (htrans : ∀ s t u, R s t → R t u → R s u)
    (hstep : ∀ s a t, P s a → I s → step s a = some t → R s t)
    {s t : σ} {as : List α} (has : Along step P s as) (hs : I s) (h : run step s as = some t) :
  R s t
  := by
  induction as generalizing s with
  | nil =>
      cases h
      apply hrefl
  | cons a as ih =>
      obtain ⟨u, hu, ht⟩ := (run_cons step).mp h
      apply htrans s u t (hstep s a u has.1 hs hu)
      apply ih (has.2 u hu) (hI s a u hs hu) ht

/-- A preorder that every step goes up in, from states that satisfy an invariant, relates
the ends of a run. -/
theorem run_le
    {I : σ → Prop} (hI : ∀ s a t, I s → step s a = some t → I t)
    {R : σ → σ → Prop} (hrefl : ∀ s, R s s) (htrans : ∀ s t u, R s t → R t u → R s u)
    (hstep : ∀ s a t, I s → step s a = some t → R s t)
    {s t : σ} {as : List α} (hs : I s) (h : run step s as = some t) :
  R s t
  := by
  apply run_le_along (P := fun _ _ => True) hI hrefl htrans _ _ hs h
  · intro s a t _
    apply hstep s a t
  · apply along_of_forall
    intro _ _ _
    trivial

/-- Two conditions that agree in the states of an invariant hold along the same lists. -/
theorem along_congr
    {P Q : σ → α → Prop} {I : σ → Prop} (hI : ∀ s a t, I s → step s a = some t → I t)
    (h : ∀ s a, I s → (P s a ↔ Q s a)) {s : σ} {as : List α} (hs : I s) :
  Along step P s as ↔ Along step Q s as
  := by
  induction as generalizing s with
  | nil => exact Iff.rfl
  | cons a as ih =>
      apply and_congr (h s a hs)
      apply forall_congr'
      intro t
      apply forall_congr'
      intro ht
      apply ih (hI s a t hs ht)

end Runs
