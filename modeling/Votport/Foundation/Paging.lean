import Mathlib

/-!
# Pages of a sorted list

A heap with room for the least elements of a list holds the first elements of the sorted list.  A
page has the first of the elements after a cursor, and the cursor of the next page is the key of its
last element.  Whoever follows the cursors gets each element once.
-/

namespace Paging

variable {α κ ε : Type*}

/-! ### Heaps with room for the least -/

section Heap

variable (r : α → α → Prop) [DecidableRel r]

/-- One more element is put in, and the last is taken out when there are too many. -/
def pushBounded (room : ℕ) (heap : List α) (a : α) : List α :=
  if room < (heap.orderedInsert r a).length then (heap.orderedInsert r a).dropLast
  else heap.orderedInsert r a

variable {r}

theorem take_orderedInsert (n : ℕ) (a : α) (l : List α) :
  ((l.take n).orderedInsert r a).take n = (l.orderedInsert r a).take n
  := by
  induction l generalizing n with
  | nil => rw [List.take_nil]
  | cons b l ih =>
      cases n with
      | zero => rfl
      | succ n =>
          rw [List.take_succ_cons, List.orderedInsert_cons, List.orderedInsert_cons]
          split_ifs
          · rw [List.take_succ_cons, List.take_succ_cons]
            cases n with
            | zero => rfl
            | succ n =>
                rw [List.take_succ_cons, List.take_succ_cons, List.take_take,
                  Nat.min_eq_left (Nat.le_succ n)]
          · rw [List.take_succ_cons, List.take_succ_cons, ih]

theorem pushBounded_take (room : ℕ) (l : List α) (a : α) :
  pushBounded r room (l.take room) a = (l.orderedInsert r a).take room
  := by
  rw [← take_orderedInsert]
  have hlength : ((l.take room).orderedInsert r a).length = (l.take room).length + 1 :=
    List.orderedInsert_length ..
  have htake : (l.take room).length ≤ room := List.length_take_le ..
  unfold pushBounded
  split_ifs with hfull
  · rw [List.dropLast_eq_take]
    congr 1
    omega
  · exact (List.take_of_length_le (by omega)).symm

/-- What the heap holds in the end. -/
theorem foldl_pushBounded (room : ℕ) (l : List α) :
  l.foldl (pushBounded r room) [] = (l.reverse.insertionSort r).take room
  := by
  have hfold : ∀ (l sorted : List α), l.foldl (pushBounded r room) (sorted.take room)
      = (l.foldl (fun sorted a => sorted.orderedInsert r a) sorted).take room := by
    intro l
    induction l with
    | nil => exact fun _ => rfl
    | cons a l ih =>
        intro sorted
        rw [List.foldl_cons, List.foldl_cons, pushBounded_take, ih]
  have hstart := hfold l []
  rw [List.take_nil] at hstart
  rw [hstart, List.insertionSort, List.foldr_reverse]

end Heap

/-! ### Cursors -/

section Cursors

variable {ρ : Type*} {fetch : κ → Except ε ρ} {next : ρ → Option κ}

/-- The answers from a cursor on, when each next cursor is followed until there is none. -/
inductive Follows (fetch : κ → Except ε ρ) (next : ρ → Option κ) : κ → List ρ → Prop
  | last {cursor answer} (h : fetch cursor = .ok answer) (hlast : next answer = none) :
      Follows fetch next cursor [answer]
  | next {cursor cursor' answer answers} (h : fetch cursor = .ok answer)
      (hnext : next answer = some cursor') (hrest : Follows fetch next cursor' answers) :
      Follows fetch next cursor (answer :: answers)

/-- Each answer says how to go on, so there is one way only. -/
theorem Follows.unique
    {cursor : κ} {answers answers' : List ρ} (h : Follows fetch next cursor answers)
    (h' : Follows fetch next cursor answers') :
  answers = answers'
  := by
  induction h generalizing answers' with
  | last h hlast =>
      cases h' with
      | last h' _ =>
          cases h.symm.trans h'
          rfl
      | next h' hnext _ =>
          cases h.symm.trans h'
          cases hlast.symm.trans hnext
  | next h hnext _ ih =>
      cases h' with
      | last h' hlast =>
          cases h.symm.trans h'
          cases hlast.symm.trans hnext
      | next h' hnext' hrest =>
          cases h.symm.trans h'
          cases hnext.symm.trans hnext'
          rw [ih hrest]

variable {ο : Type*} [LinearOrder ο] {rank : κ → ο} {key : α → κ} {limit : ℕ}

/-- What comes after a cursor. -/
def after (rank : κ → ο) (key : α → κ) (cursor : κ) (l : List α) : List α :=
  l.filter fun a => rank cursor < rank (key a)

theorem after_last
    {l first rest : List α} {a : α} {cursor : κ}
    (hsorted : l.Pairwise fun a b => rank (key a) < rank (key b))
    (h : after rank key cursor l = first ++ a :: rest) :
  after rank key (key a) l = rest
  := by
  have hpairs : (after rank key cursor l).Pairwise fun a b => rank (key a) < rank (key b) :=
    hsorted.filter _
  have ha : rank cursor < rank (key a) := by
    have hmem : a ∈ after rank key cursor l :=
      h ▸ List.mem_append_right _ (List.mem_cons_self ..)
    exact of_decide_eq_true (List.mem_filter.mp hmem).2
  have hagain : after rank key (key a) l
      = after rank key (key a) (after rank key cursor l) := by
    unfold after
    rw [List.filter_filter]
    apply List.filter_congr
    intro b _
    rw [Bool.eq_iff_iff, Bool.and_eq_true, decide_eq_true_iff, decide_eq_true_iff]
    exact ⟨fun hb => ⟨hb, ha.trans hb⟩, fun hb => hb.1⟩
  rw [h] at hpairs
  rw [hagain, h]
  obtain ⟨_, hrest, hfirst⟩ := List.pairwise_append.mp hpairs
  obtain ⟨hrest, _⟩ := List.pairwise_cons.mp hrest
  unfold after
  rw [List.filter_append, List.filter_eq_nil_iff.mpr, List.nil_append,
    List.filter_cons_of_neg (by simp), List.filter_eq_self.mpr]
  · exact fun b hb => decide_eq_true (hrest b hb)
  · intro b hb hlt
    exact lt_asymm (of_decide_eq_true hlt) (hfirst b hb a (List.mem_cons_self ..))

/-- The first of the elements that are left, with the key of the last of these when there are more. -/
structure IsPage (key : α → κ) (limit : ℕ) (rest page : List α) (next : Option κ) : Prop where
  first : page = rest.take limit
  last : rest.length ≤ limit → next = none
  more : limit < rest.length → ∃ a, page.getLast? = some a ∧ next = some (key a)

/-- When each cursor that is met is answered with a page, there are finitely many answers, and their
pages have what comes after the first cursor. -/
theorem exists_follows
    {l : List α} (hsorted : l.Pairwise fun a b => rank (key a) < rank (key b)) (hlimit : 0 < limit)
    (Met : κ → Prop) (hmet : ∀ a ∈ l, Met (key a)) (Shows : ρ → List α → Prop)
    (hfetch : ∀ cursor, Met cursor → ∃ answer page, fetch cursor = .ok answer ∧ Shows answer page
      ∧ IsPage key limit (after rank key cursor l) page (next answer))
    {cursor : κ} (hcursor : Met cursor) :
  ∃ answers pages, Follows fetch next cursor answers ∧ List.Forall₂ Shows answers pages
    ∧ pages.flatten = after rank key cursor l ∧ (∀ page ∈ pages, page.length ≤ limit)
    ∧ pages.length ≤ (after rank key cursor l).length / limit + 1
  := by
  obtain ⟨n, hn⟩ : ∃ n, (after rank key cursor l).length ≤ n := ⟨_, le_rfl⟩
  induction n using Nat.strong_induction_on generalizing cursor with
  | _ n ih =>
      obtain ⟨answer, page, hanswer, hshows, hpage, hlast, hmore⟩ := hfetch cursor hcursor
      have hroom : page.length ≤ limit := by
        rw [hpage]
        exact List.length_take_le ..
      by_cases hshort : (after rank key cursor l).length ≤ limit
      · refine ⟨[answer], [page], .last hanswer (hlast hshort), .cons hshows .nil, ?_,
          by simpa using hroom, Nat.le_add_left 1 _⟩
        rw [List.flatten_singleton, hpage, List.take_of_length_le hshort]
      · obtain ⟨a, ha, hnext⟩ := hmore (not_le.mp hshort)
        obtain ⟨first, hfirst⟩ := List.getLast?_eq_some_iff.mp ha
        have hsplit : after rank key cursor l = first ++ a :: (after rank key cursor l).drop limit := by
          have happend := List.take_append_drop limit (after rank key cursor l)
          rw [← hpage, hfirst, List.append_assoc, List.singleton_append] at happend
          exact happend.symm
        have hrest := after_last hsorted hsplit
        have hmem : a ∈ l := by
          have hafter : a ∈ after rank key cursor l :=
            hsplit ▸ List.mem_append_right _ (List.mem_cons_self ..)
          exact (List.mem_filter.mp hafter).1
        have hlength : (after rank key (key a) l).length = (after rank key cursor l).length - limit := by
          rw [hrest, List.length_drop]
        obtain ⟨answers, pages, hfollows, hshow, hflatten, hrooms, hcount⟩ :=
          ih (n - limit) (by omega) (hmet a hmem) (by omega)
        refine ⟨answer :: answers, page :: pages, .next hanswer hnext hfollows,
          .cons hshows hshow, ?_, ?_, ?_⟩
        · rw [List.flatten_cons, hflatten, hrest, hpage, List.take_append_drop]
        · exact List.forall_mem_cons.mpr ⟨hroom, hrooms⟩
        · rw [hlength] at hcount
          rw [List.length_cons, Nat.div_eq_sub_div hlimit (not_le.mp hshort).le]
          omega

end Cursors

end Paging
