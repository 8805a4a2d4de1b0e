import Mathlib

/-!
# Sequences that are interrupted

Actions are performed one after the other, until one fails.  A sequence may be stopped before any of
its actions.  What holds before each action and at the end holds wherever it is stopped.
-/

namespace Interrupted

variable {σ ε ι : Type*}

/-- The state after some actions, and why they have failed. -/
def execute : List (σ → Except ε σ) → σ → σ × Option ε
  | [], s => (s, none)
  | action :: actions, s =>
      match action s with
      | .error e => (s, some e)
      | .ok s => execute actions s

/-- Actions lead from one condition to another without a failure, and `I` holds all along. -/
inductive Leads (I : σ → Prop) :
    (σ → Prop) → List (σ → Except ε σ) → (σ → Prop) → Prop
  | nil {P Q : σ → Prop} (hI : ∀ s, Q s → I s) (h : ∀ s, P s → Q s) : Leads I P [] Q
  | cons {P R Q : σ → Prop} {action : σ → Except ε σ} {actions : List (σ → Except ε σ)}
      (hI : ∀ s, P s → I s) (h : ∀ s, P s → ∃ s', action s = .ok s' ∧ R s')
      (hrest : Leads I R actions Q) : Leads I P (action :: actions) Q

variable {I P Q R : σ → Prop} {actions actions' : List (σ → Except ε σ)}

/-- Wherever the actions are stopped, none has failed. -/
theorem Leads.stopped (h : Leads I P actions Q) {s : σ} (hs : P s) (n : ℕ) :
  I (execute (actions.take n) s).1 ∧ (execute (actions.take n) s).2 = none
  := by
  induction h generalizing s n with
  | nil hI hQ =>
      rw [List.take_nil]
      exact ⟨hI s (hQ s hs), rfl⟩
  | cons hI haction _ ih =>
      cases n with
      | zero => exact ⟨hI s hs, rfl⟩
      | succ n =>
          obtain ⟨s', hs', hR⟩ := haction s hs
          rw [List.take_succ_cons, execute, hs']
          exact ih hR n

theorem Leads.done (h : Leads I P actions Q) {s : σ} (hs : P s) :
  Q (execute actions s).1 ∧ (execute actions s).2 = none
  := by
  induction h generalizing s with
  | nil _ hQ => exact ⟨hQ s hs, rfl⟩
  | cons _ haction _ ih =>
      obtain ⟨s', hs', hR⟩ := haction s hs
      rw [execute, hs']
      exact ih hR

theorem Leads.append (h : Leads I P actions R) (h' : Leads I R actions' Q) :
  Leads I P (actions ++ actions') Q
  := by
  induction h with
  | @nil P R hI hR =>
      cases h' with
      | nil hI' h' => exact .nil hI' fun s hs => h' s (hR s hs)
      | cons hI' h' hrest => exact .cons (fun s hs => hI s (hR s hs)) (fun s hs => h' s (hR s hs)) hrest
  | cons hI haction _ ih => exact .cons hI haction (ih h')

/-- A loop, by what holds when some of the items are done. -/
theorem Leads.loop
    {action : ι → σ → Except ε σ} {items : List ι} (inv : List ι → σ → Prop)
    (hI : ∀ before s, inv before s → I s)
    (h : ∀ before item, before ++ [item] <+: items → ∀ s, inv before s →
      ∃ s', action item s = .ok s' ∧ inv (before ++ [item]) s') :
  Leads I (inv []) (items.map action) (inv items)
  := by
  have hfrom : ∀ before rest, before ++ rest = items →
      Leads I (inv before) (rest.map action) (inv items) := by
    intro before rest
    induction rest generalizing before with
    | nil =>
        intro hitems
        rw [List.append_nil] at hitems
        subst hitems
        exact .nil (hI before) fun _ hs => hs
    | cons item rest ih =>
        intro hitems
        have hsplit : (before ++ [item]) ++ rest = items := by simpa using hitems
        exact .cons (hI before) (h before item ⟨rest, hsplit⟩) (ih _ hsplit)
  exact hfrom [] items rfl

end Interrupted
