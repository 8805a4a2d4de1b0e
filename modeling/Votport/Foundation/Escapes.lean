import Mathlib

/-!
# Escaped texts

In a text a mark escapes the element after it.  A text is read as tokens, each an element that is
escaped or not.  What is written of tokens is read back, and a text that is cut after some of its
tokens is not cut inside an escape.
-/

namespace Escapes

variable {α : Type*} [DecidableEq α] (mark : α)

/-- The tokens of a text: elements, and whether they are escaped.  A mark at the end escapes
nothing. -/
def tokens : List α → List (Bool × α)
  | [] => []
  | [c] => [(false, c)]
  | c :: d :: text =>
      if c = mark then (true, d) :: tokens text else (false, c) :: tokens (d :: text)

/-- How a token is written. -/
def token (t : Bool × α) : List α := if t.1 then [mark, t.2] else [t.2]

/-- How tokens are written. -/
def render (ts : List (Bool × α)) : List α := ts.flatMap (token mark)

/-- No mark stands there that escapes nothing. -/
def Plain (ts : List (Bool × α)) : Prop := ∀ t ∈ ts, t.1 = false → t.2 ≠ mark

/-- As many tokens as there is room for. -/
def fit : ℕ → List (Bool × α) → List (Bool × α)
  | _, [] => []
  | room, t :: ts =>
      if (token mark t).length ≤ room then t :: fit (room - (token mark t).length) ts else []

variable {mark}

theorem tokens_cons_of_ne {c : α} (hc : c ≠ mark) (text : List α) :
  tokens mark (c :: text) = (false, c) :: tokens mark text
  := by
  cases text with
  | nil => rfl
  | cons d text => rw [tokens, if_neg hc]

/-- A text is what is written of its tokens. -/
theorem render_tokens (text : List α) :
  render mark (tokens mark text) = text
  := by
  induction text using tokens.induct mark with
  | case1 => rfl
  | case2 c => rfl
  | case3 d text ih =>
      rw [tokens, if_pos rfl, render, List.flatMap_cons, ← render, ih]
      rfl
  | case4 c d text hc ih =>
      rw [tokens, if_neg hc, render, List.flatMap_cons, ← render, ih]
      rfl

/-- What is written is read back, whatever comes after it. -/
theorem tokens_render_append {ts : List (Bool × α)} (h : Plain mark ts) (text : List α) :
  tokens mark (render mark ts ++ text) = ts ++ tokens mark text
  := by
  induction ts with
  | nil => rfl
  | cons t ts ih =>
      have hrest := ih fun t' ht' => h t' (List.mem_cons_of_mem _ ht')
      obtain ⟨escaped, c⟩ := t
      rw [render, List.flatMap_cons, ← render, List.append_assoc]
      cases escaped with
      | true =>
          show tokens mark (mark :: c :: (render mark ts ++ text)) = _
          rw [tokens, if_pos rfl, hrest]
          rfl
      | false =>
          have hc : c ≠ mark := h (false, c) (List.mem_cons_self ..) rfl
          show tokens mark (c :: (render mark ts ++ text)) = _
          rw [tokens_cons_of_ne hc, hrest]
          rfl

/-- Only the last element of a text can be a mark that escapes nothing. -/
theorem plain_of_append {text : List α} {kept rest : List (Bool × α)}
    (h : tokens mark text = kept ++ rest) (hrest : rest ≠ []) :
  Plain mark kept
  := by
  induction text using tokens.induct mark generalizing kept with
  | case1 =>
      obtain ⟨rfl, _⟩ := List.append_eq_nil_iff.mp h.symm
      intro t ht
      cases ht
  | case2 c =>
      cases kept with
      | nil =>
          intro t ht
          cases ht
      | cons t kept =>
          obtain ⟨_, hnil⟩ := List.cons_eq_cons.mp h
          exact absurd (List.append_eq_nil_iff.mp hnil.symm).2 hrest
  | case3 d text ih =>
      rw [tokens, if_pos rfl] at h
      cases kept with
      | nil =>
          intro t ht
          cases ht
      | cons t kept =>
          obtain ⟨rfl, htail⟩ := List.cons_eq_cons.mp h
          intro t ht
          obtain rfl | ht := List.mem_cons.mp ht
          · intro hfalse
            cases hfalse
          · exact ih htail t ht
  | case4 c d text hc ih =>
      rw [tokens, if_neg hc] at h
      cases kept with
      | nil =>
          intro t ht
          cases ht
      | cons t kept =>
          obtain ⟨rfl, htail⟩ := List.cons_eq_cons.mp h
          intro t ht
          obtain rfl | ht := List.mem_cons.mp ht
          · exact fun _ => hc
          · exact ih htail t ht

/-- A text that ends with another element than the mark is read apart from what comes after it. -/
theorem tokens_append {text : List α} {c : α} (hc : c ≠ mark) (text' : List α) :
  tokens mark (text ++ [c] ++ text') = tokens mark (text ++ [c]) ++ tokens mark text'
  := by
  have hplain : Plain mark (tokens mark (text ++ [c])) := by
    induction text using tokens.induct mark with
    | case1 =>
        intro t ht
        rw [List.mem_singleton.mp ht]
        exact fun _ => hc
    | case2 d =>
        intro t ht
        rw [List.singleton_append, tokens] at ht
        split_ifs at ht with hd
        · rw [tokens, List.mem_singleton] at ht
          rw [ht]
          intro hfalse
          cases hfalse
        · obtain rfl | ht := List.mem_cons.mp ht
          · exact fun _ => hd
          · rw [List.mem_singleton.mp ht]
            exact fun _ => hc
    | case3 d text ih =>
        intro t ht
        rw [List.cons_append, List.cons_append, tokens, if_pos rfl] at ht
        obtain rfl | ht := List.mem_cons.mp ht
        · intro hfalse
          cases hfalse
        · exact ih t ht
    | case4 d e text hd ih =>
        intro t ht
        rw [List.cons_append, tokens_cons_of_ne hd] at ht
        obtain rfl | ht := List.mem_cons.mp ht
        · exact fun _ => hd
        · exact ih t ht
  have h := tokens_render_append hplain text'
  rwa [render_tokens] at h

omit [DecidableEq α] in
/-- What fits is written in the room, and the token after it would not fit. -/
theorem fit_spec (mark : α) (room : ℕ) (ts : List (Bool × α)) :
  ∃ rest, ts = fit mark room ts ++ rest ∧ (render mark (fit mark room ts)).length ≤ room
    ∧ ∀ t ∈ rest.head?, room < (render mark (fit mark room ts)).length + (token mark t).length
  := by
  induction ts generalizing room with
  | nil => exact ⟨[], rfl, Nat.zero_le _, fun _ h => by cases h⟩
  | cons t ts ih =>
      rw [fit]
      split_ifs with hroom
      · obtain ⟨rest, hts, hlength, hnext⟩ := ih (room - (token mark t).length)
        refine ⟨rest, by rw [List.cons_append, ← hts], ?_, ?_⟩
        · rw [render, List.flatMap_cons, ← render, List.length_append]
          omega
        · intro t' ht'
          have hlt := hnext t' ht'
          rw [render, List.flatMap_cons, ← render, List.length_append]
          omega
      · refine ⟨t :: ts, rfl, Nat.zero_le _, ?_⟩
        intro t' ht'
        obtain rfl := Option.some.inj ht'
        exact lt_of_lt_of_le (Nat.lt_of_not_le hroom) (Nat.le_add_left ..)

end Escapes
