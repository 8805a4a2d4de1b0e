import Mathlib

/-!
# Computations that may fail

What a computation in `Except` that returns has done: each of its steps has returned.  A
step may be a condition that has to hold, or a value that has to be there.
-/

namespace Fallible

variable {ε α β : Type*}

theorem bind_eq_ok {x : Except ε α} {f : α → Except ε β} {b : β} :
  x.bind f = .ok b ↔ ∃ a, x = .ok a ∧ f a = .ok b
  := by
  cases x with
  | error e => simp [Except.bind]
  | ok a => simp [Except.bind]

theorem map_eq_ok {x : Except ε α} {f : α → β} {b : β} :
  x.map f = .ok b ↔ ∃ a, x = .ok a ∧ f a = b
  := by
  cases x with
  | error e => simp [Except.map]
  | ok a => simp [Except.map]

theorem mapError_eq_ok {x : Except ε α} {f : ε → β} {a : α} :
  x.mapError f = .ok a ↔ x = .ok a
  := by
  cases x with
  | error e => simp [Except.mapError]
  | ok a => simp [Except.mapError]

theorem foldlM_nil_eq_ok {f : β → α → Except ε β} {b c : β} :
  [].foldlM f b = .ok c ↔ b = c
  := by
  constructor
  · intro h
    cases h
    rfl
  · rintro rfl
    rfl

theorem foldlM_cons_eq_ok {f : β → α → Except ε β} {a : α} {as : List α} {b c : β} :
  (a :: as).foldlM f b = .ok c ↔ ∃ b', f b a = .ok b' ∧ as.foldlM f b' = .ok c
  := by
  rw [List.foldlM_cons]
  apply bind_eq_ok

/-- What is made of each of a list, one after the other. -/
theorem map_of_mapM_eq_ok {f : α → Except ε β} {as : List α} {bs : List β}
    (h : as.mapM f = .ok bs) :
  as.map f = bs.map .ok
  := by
  induction as generalizing bs with
  | nil =>
      cases h
      rfl
  | cons a as ih =>
      rw [List.mapM_cons] at h
      obtain ⟨b, hb, h⟩ := bind_eq_ok.mp h
      obtain ⟨bs', hbs, h⟩ := bind_eq_ok.mp h
      cases h
      rw [List.map_cons, List.map_cons, hb, ih hbs]

/-- What a mapped list that never fails is made of. -/
theorem exists_of_map_ok {f : α → Except ε β} {as : List α} {bs : List β}
    (h : as.map f = bs.map .ok) :
  (∀ b ∈ bs, ∃ a ∈ as, f a = .ok b) ∧ ∀ a ∈ as, ∃ b ∈ bs, f a = .ok b
  := by
  constructor
  · intro b hb
    have hmem : (.ok b : Except ε β) ∈ as.map f := h ▸ List.mem_map_of_mem hb
    obtain ⟨a, ha, heq⟩ := List.mem_map.mp hmem
    exact ⟨a, ha, heq⟩
  · intro a ha
    have hmem : f a ∈ bs.map .ok := h ▸ List.mem_map_of_mem ha
    obtain ⟨b, hb, heq⟩ := List.mem_map.mp hmem
    exact ⟨b, hb, heq.symm⟩

theorem map_of_map_ok {γ : Type*} {f : α → Except ε β} {g : β → γ} {g' : α → γ}
    {as : List α} {bs : List β} (h : as.map f = bs.map .ok)
    (hg : ∀ a b, f a = .ok b → g b = g' a) :
  bs.map g = as.map g'
  := by
  induction as generalizing bs with
  | nil =>
      cases bs with
      | nil => rfl
      | cons b bs => cases h
  | cons a as ih =>
      cases bs with
      | nil => cases h
      | cons b bs =>
          obtain ⟨hfirst, hrest⟩ := List.cons_eq_cons.mp h
          rw [List.map_cons, List.map_cons, hg a b hfirst, ih hrest]

theorem mapM_of_forall {f : α → Except ε β} {g : α → β} {as : List α}
    (h : ∀ a ∈ as, f a = .ok (g a)) :
  as.mapM f = .ok (as.map g)
  := by
  induction as with
  | nil => rfl
  | cons a as ih =>
      rw [List.mapM_cons, h a (List.mem_cons_self ..),
        ih fun b hb => h b (List.mem_cons_of_mem _ hb)]
      rfl

/-- Doing something for each of a list returns when each time it returns. -/
theorem forM_eq_ok {f : α → Except ε Unit} {as : List α} :
  as.forM f = .ok () ↔ ∀ a ∈ as, f a = .ok ()
  := by
  induction as with
  | nil =>
      constructor
      · simp
      · intro _
        rfl
  | cons a as ih =>
      have hcons : (a :: as).forM f = (f a).bind fun _ => as.forM f := rfl
      rw [hcons, bind_eq_ok, List.forall_mem_cons, ← ih]
      exact ⟨fun ⟨_, h, h'⟩ => ⟨h, h'⟩, fun ⟨h, h'⟩ => ⟨(), h, h'⟩⟩

/-- Fails with `e` unless the condition holds. -/
def require (c : Prop) [Decidable c] (e : ε) : Except ε Unit :=
  if c then .ok () else .error e

theorem require_eq_ok {c : Prop} [Decidable c] {e : ε} {u : Unit} :
  require c e = .ok u ↔ c
  := by
  rw [require]
  split_ifs with h <;> simp [h]

/-- The value that is there, or `e`. -/
def present (a : Option α) (e : ε) : Except ε α :=
  match a with
  | some a => .ok a
  | none => .error e

theorem present_eq_ok {o : Option α} {e : ε} {a : α} :
  present o e = .ok a ↔ o = some a
  := by
  cases o <;> simp [present]

end Fallible
