import Votport.Admin.Groups
import Mathlib.Tactic.Common

/-!
# Patches as sequences of operations

What an operation does to a group is said here by itself, and a list of operations does it one after
the other.  The reduction to accumulators has the same effect when no operation takes out what a
later one puts in and none puts in what a later one takes out, and when the names in filters are
folded as in lists.
-/

namespace Votport.Admin

variable {ν : Type*} {env : GroupEnv}

/-! ### What an operation does -/

/-- What an operation does to a group. -/
inductive GroupEffect
  | name (displayName : String)
  | list (members : List String)
  | add (members : List String)
  | remove (members : List String)
  | removeNamed (subject : String)
deriving DecidableEq, Repr

/-- The effects of an operation, in order. -/
def operationEffects (env : GroupEnv) (operation : Json ν) :
    Except ScimError (List GroupEffect) :=
  let op := operationName operation
  let value := jsonGet "value" operation
  let put (members : List String) : GroupEffect :=
    if op = "replace" then .list members else .add members
  if op = "replace" ∨ op = "add" then
    match ((jsonGet "path" operation).bind jsonStr).map trim with
    | none =>
        match value with
        | some (.obj entries) => do
            let named ← match jsonGet "displayName" (.obj entries) with
              | none => .ok []
              | some name => (admitDisplayName (some name)).map fun name => [.name name]
            let listed ← match jsonGet "members" (.obj entries) with
              | none => .ok []
              | some members => (admitMembers env (some members)).map fun members => [put members]
            .ok (named ++ listed)
        | _ => .error (.typed 400 "invalidValue" "a pathless operation needs a value object")
    | some path =>
        if eqIgnoreAsciiCase path "displayName" = true then
          (admitDisplayName value).map fun name => [.name name]
        else if eqIgnoreAsciiCase path "members" = true then
          (admitMembers env value).map fun members => [put members]
        else .error unsupportedOperation
  else if op = "remove" then
    match ((jsonGet "path" operation).bind jsonStr).map trim with
    | none => .error unsupportedOperation
    | some path =>
        if eqIgnoreAsciiCase path "members" = true then
          match value with
          | none => .ok [.list []]
          | some value => (admitMembers env (some value)).map fun members => [.remove members]
        else
          match filterSubject path with
          | none =>
              .error (.typed 400 "invalidPath"
                "remove supports members or members[value eq \"id\"]")
          | some subject => .ok [.removeNamed subject]
  else .error unsupportedOperation

/-- The effects of a patch. -/
def patchEffects (env : GroupEnv) (body : Json ν) : Except ScimError (List GroupEffect) :=
  match patchOperations body with
  | .error error => .error error
  | .ok operations => (operations.mapM (operationEffects env)).map List.flatten

/-- A group after one effect.  A filter removes what the list of its one name would. -/
def GroupEffect.apply (env : GroupEnv) (row : GroupRow) : GroupEffect → GroupRow
  | name displayName => { row with displayName }
  | list members => { row with members := members.toFinset }
  | add members => { row with members := row.members ∪ members.toFinset }
  | remove members =>
      { row with members := row.members.filter fun m => ¬ ∃ s ∈ members, sameSubject m s }
  | removeNamed subject =>
      { row with
        members := row.members.filter fun m => ¬ sameSubject m (env.toLowercase (trim subject)) }

/-- A group after effects one after the other. -/
def applyEffects (env : GroupEnv) (row : GroupRow) (effects : List GroupEffect) : GroupRow :=
  effects.foldl (GroupEffect.apply env) row

/-- The accumulators after one effect. -/
def GroupPatch.record (patch : GroupPatch) : GroupEffect → GroupPatch
  | .name displayName => { patch with displayName := some displayName }
  | .list members => { patch with replaceMembers := some members }
  | .add members => { patch with add := patch.add ++ members }
  | .remove members => { patch with remove := patch.remove ++ members }
  | .removeNamed subject => { patch with remove := patch.remove ++ [subject] }

/-- The accumulators of effects. -/
def GroupPatch.of (effects : List GroupEffect) : GroupPatch := effects.foldl record .empty

/-! ### The reduction -/

/-- An operation records its effects. -/
theorem patchGroupOperation_eq (patch : GroupPatch) (operation : Json ν) :
  patchGroupOperation env patch operation
    = (operationEffects env operation).map fun effects => effects.foldl GroupPatch.record patch
  := by
  unfold patchGroupOperation operationEffects
  dsimp only
  have hput : ∀ (patch : GroupPatch) (members : List String),
      (if operationName operation = "replace" then
        (.ok { patch with replaceMembers := some members } : Except ScimError GroupPatch)
      else .ok { patch with add := patch.add ++ members })
      = .ok (patch.record (if operationName operation = "replace" then .list members
          else .add members)) := by
    intro patch members
    split <;> rfl
  simp only [hput]
  generalize Option.map trim ((jsonGet "path" operation).bind jsonStr) = path
  generalize jsonGet "value" operation = value
  by_cases hreplace : operationName operation = "replace" ∨ operationName operation = "add"
  · rw [if_pos hreplace, if_pos hreplace]
    cases path with
    | none =>
        cases value with
        | none => rfl
        | some value =>
            cases value with
            | obj entries =>
                dsimp only
                generalize jsonGet "displayName" (Json.obj entries) = name
                generalize jsonGet "members" (Json.obj entries) = members
                cases name with
                | none =>
                    cases members with
                    | none => rfl
                    | some members => cases hm : admitMembers env (some members) <;> simp [hm] <;> rfl
                | some name =>
                    cases hn : admitDisplayName (some name) with
                    | error error => simp [hn]; rfl
                    | ok name =>
                        cases members with
                        | none => simp [hn]; rfl
                        | some members =>
                            cases hm : admitMembers env (some members) <;> simp [hn, hm] <;> rfl
            | null | bool | num | str | arr => rfl
    | some path =>
        dsimp only
        split
        · cases admitDisplayName value <;> rfl
        · split
          · cases admitMembers env value <;> rfl
          · rfl
  · rw [if_neg hreplace, if_neg hreplace]
    split
    · cases path with
      | none => rfl
      | some path =>
          dsimp only
          split
          · cases value with
            | none => rfl
            | some value =>
                dsimp only
                cases admitMembers env (some value) <;> rfl
          · cases filterSubject path <;> rfl
    · rfl

/-- The operations of a patch record their effects one after the other. -/
theorem foldlM_patchGroupOperation (operations : List (Json ν)) (patch : GroupPatch) :
  operations.foldlM (patchGroupOperation env) patch
    = ((operations.mapM (operationEffects env)).map List.flatten).map fun effects =>
        effects.foldl GroupPatch.record patch
  := by
  induction operations generalizing patch with
  | nil => rfl
  | cons operation operations ih =>
      rw [List.foldlM_cons, patchGroupOperation_eq, List.mapM_cons]
      cases operationEffects env operation with
      | error error => rfl
      | ok effects =>
          have hrest := ih (effects.foldl GroupPatch.record patch)
          simp only [Except.map, bind, Except.bind] at hrest ⊢
          rw [hrest]
          cases operations.mapM (operationEffects env) with
          | error error => rfl
          | ok rest =>
              simp only [pure, Except.pure, List.flatten_cons, List.foldl_append]

/-- What `patch_group` does, from the effects of the patch. -/
theorem patchGroup_eq
    {others : Finset String} {faults : StoreFaults} {row : GroupRow} {body : Json ν} :
  patchGroup env others faults row body
    = match patchEffects env body with
      | .error error => (.error error, row)
      | .ok effects => (GroupPatch.of effects).write others faults row
  := by
  rw [patchGroup, patchEffects]
  cases patchOperations body with
  | error error => rfl
  | ok operations =>
      dsimp only
      rw [foldlM_patchGroupOperation]
      cases (operations.mapM (operationEffects env)).map List.flatten <;> rfl

/-! ### A name at a time -/

/-- What an effect makes of the membership of a name, none when it leaves it. -/
def GroupEffect.touch (env : GroupEnv) (m : String) : GroupEffect → Option Bool
  | name _ => none
  | list members => some (decide (m ∈ members))
  | add members => if m ∈ members then some true else none
  | remove members => if ∃ s ∈ members, sameSubject m s then some false else none
  | removeNamed subject =>
      if sameSubject m (env.toLowercase (trim subject)) then some false else none

/-- What the last effect that touches the membership of a name makes of it. -/
def lastTouch (env : GroupEnv) (m : String) (effects : List GroupEffect) : Option Bool :=
  effects.foldl (fun last effect => (effect.touch env m).or last) none

theorem lastTouch_concat (m : String) (effects : List GroupEffect) (effect : GroupEffect) :
  lastTouch env m (effects ++ [effect]) = (effect.touch env m).or (lastTouch env m effects)
  := by
  rw [lastTouch, List.foldl_append]
  rfl

theorem applyEffects_concat (row : GroupRow) (effects : List GroupEffect) (effect : GroupEffect) :
  applyEffects env row (effects ++ [effect]) = effect.apply env (applyEffects env row effects)
  := by
  rw [applyEffects, List.foldl_append]
  rfl

theorem GroupPatch.of_concat (effects : List GroupEffect) (effect : GroupEffect) :
  of (effects ++ [effect]) = (of effects).record effect
  := by
  rw [of, List.foldl_append]
  rfl

theorem GroupEffect.mem_apply {row : GroupRow} {effect : GroupEffect} {m : String} :
  m ∈ (effect.apply env row).members
    ↔ (effect.touch env m).getD (decide (m ∈ row.members)) = true
  := by
  cases effect with
  | name displayName => simp [apply, touch]
  | list members => simp [apply, touch]
  | add members =>
      rw [apply, touch, Finset.mem_union, List.mem_toFinset]
      split_ifs with h <;> simp [h]
  | remove members =>
      rw [apply, touch, Finset.mem_filter]
      split_ifs with h <;> simp [h]
  | removeNamed subject =>
      rw [apply, touch, Finset.mem_filter]
      split_ifs with h <;> simp [h]

/-- After effects one after the other, a name is a member as the last one that touches it says. -/
theorem mem_applyEffects {row : GroupRow} {effects : List GroupEffect} {m : String} :
  m ∈ (applyEffects env row effects).members
    ↔ (lastTouch env m effects).getD (decide (m ∈ row.members)) = true
  := by
  induction effects using List.reverseRecOn with
  | nil => simp [applyEffects, lastTouch]
  | append_singleton effects effect ih =>
      rw [applyEffects_concat, GroupEffect.mem_apply, lastTouch_concat]
      cases effect.touch env m with
      | some _ => rfl
      | none => simpa using ih

theorem displayName_applyEffects {row : GroupRow} {effects : List GroupEffect} :
  (applyEffects env row effects).displayName
    = (GroupPatch.of effects).displayName.getD row.displayName
  := by
  induction effects using List.reverseRecOn with
  | nil => rfl
  | append_singleton effects effect ih =>
      rw [applyEffects_concat, GroupPatch.of_concat]
      cases effect with
      | name displayName => rfl
      | list | add | remove | removeNamed => exact ih

/-- The store takes the name out. -/
def GroupPatch.removes (patch : GroupPatch) (m : String) : Prop :=
  ∃ s ∈ patch.remove, sameSubject m s

instance (patch : GroupPatch) (m : String) : Decidable (patch.removes m) :=
  inferInstanceAs (Decidable (∃ s ∈ patch.remove, _))

/-- The name is added, or in the list in place of the members, or a member when there is none. -/
def GroupPatch.holds (patch : GroupPatch) (row : GroupRow) (m : String) : Prop :=
  m ∈ (patch.replaceMembers.map List.toFinset).getD row.members ∨ m ∈ patch.add

instance (patch : GroupPatch) (row : GroupRow) (m : String) : Decidable (patch.holds row m) :=
  inferInstanceAs (Decidable (_ ∨ _))

/-- What the last effect puts in is added, or in the last list. -/
theorem GroupPatch.of_lastTouch
    {row : GroupRow} {effects : List GroupEffect} {m : String}
    (h : (lastTouch env m effects).getD (decide (m ∈ row.members)) = true) :
  (of effects).holds row m
  := by
  induction effects using List.reverseRecOn with
  | nil =>
      left
      simpa [lastTouch, of, empty] using h
  | append_singleton effects effect ih =>
      rw [lastTouch_concat] at h
      rw [of_concat]
      cases effect with
      | name displayName => exact ih (by simpa [GroupEffect.touch] using h)
      | list members =>
          left
          simpa [GroupEffect.touch, record] using h
      | add members =>
          by_cases hm : m ∈ members
          · exact .inr (List.mem_append_right _ hm)
          · have hbefore := ih (by simpa [GroupEffect.touch, hm] using h)
            exact hbefore.imp_right (List.mem_append_left _)
      | remove members =>
          apply ih
          rw [GroupEffect.touch] at h
          split_ifs at h
          · simp at h
          · simpa using h
      | removeNamed subject =>
          apply ih
          rw [GroupEffect.touch] at h
          split_ifs at h
          · simp at h
          · simpa using h

/-! ### The two transactions -/

/-- The first transaction commits: nothing goes wrong in it and no other group has the name. -/
def GroupPatch.commits (patch : GroupPatch) (others : Finset String) (faults : StoreFaults) :
    Prop :=
  (patch.displayName.isSome = true ∨ patch.replaceMembers.isSome = true) →
    faults.first = none ∧ patch.displayName.any (· ∈ others) = false

/-- The group after the first transaction. -/
def GroupPatch.first (patch : GroupPatch) (row : GroupRow) : GroupRow where
  displayName := patch.displayName.getD row.displayName
  members := (patch.replaceMembers.map List.toFinset).getD row.members

/-- The group after both. -/
def GroupPatch.second (patch : GroupPatch) (row : GroupRow) : GroupRow where
  displayName := patch.displayName.getD row.displayName
  members := ((patch.first row).members ∪ patch.add.toFinset).filter fun m => ¬ patch.removes m

theorem GroupPatch.writeFirst_of_commits
    {patch : GroupPatch} {others : Finset String} {faults : StoreFaults} {row : GroupRow}
    (h : patch.commits others faults) :
  patch.writeFirst others faults row = .ok (patch.first row)
  := by
  rw [writeFirst]
  by_cases hneeded : patch.displayName.isSome = true ∨ patch.replaceMembers.isSome = true
  · obtain ⟨hfault, htaken⟩ := h hneeded
    rw [if_pos hneeded]
    simp only [replaceScimGroup, hfault, htaken]
    rfl
  · have hname : patch.displayName = none :=
      Option.not_isSome_iff_eq_none.mp fun hname => hneeded (.inl hname)
    have hlist : patch.replaceMembers = none :=
      Option.not_isSome_iff_eq_none.mp fun hlist => hneeded (.inr hlist)
    rw [if_neg hneeded, first, hname, hlist]
    rfl

theorem GroupPatch.writeFirst_of_not_commits
    {patch : GroupPatch} {others : Finset String} {faults : StoreFaults} {row : GroupRow}
    (h : ¬ patch.commits others faults) :
  ∃ error, patch.writeFirst others faults row = .error error
  := by
  obtain ⟨hneeded, hfails⟩ := Classical.not_imp.mp h
  rw [writeFirst, if_pos hneeded]
  unfold replaceScimGroup
  cases hfault : faults.first with
  | some error => exact ⟨error, rfl⟩
  | none =>
      have htaken : patch.displayName.any (· ∈ others) = true := by
        simpa [hfault] using hfails
      exact ⟨scimGroupNameTaken, if_pos htaken⟩

theorem GroupPatch.writeSecond_of_no_fault
    {patch : GroupPatch} {faults : StoreFaults} {row : GroupRow}
    (h : (patch.add = [] ∧ patch.remove = []) ∨ faults.second = none) :
  patch.writeSecond faults (patch.first row) = .ok (patch.second row)
  := by
  rw [writeSecond]
  by_cases hneeded : patch.add = [] ∧ patch.remove = []
  · rw [if_pos hneeded, second, hneeded.1]
    have hkept : ∀ m, ¬ patch.removes m := by
      intro m hm
      simp [removes, hneeded.2] at hm
    simp [hkept, first]
  · rw [if_neg hneeded, h.resolve_left hneeded]
    rfl

theorem GroupPatch.writeSecond_of_fault
    {patch : GroupPatch} {faults : StoreFaults} {row : GroupRow} {error : String}
    (hneeded : ¬ (patch.add = [] ∧ patch.remove = [])) (hfault : faults.second = some error) :
  patch.writeSecond faults row = .error error
  := by
  rw [writeSecond, if_neg hneeded, hfault]
  rfl

theorem GroupPatch.mem_second {patch : GroupPatch} {row : GroupRow} {m : String} :
  m ∈ (patch.second row).members ↔ patch.holds row m ∧ ¬ patch.removes m
  := by
  simp [second, first, holds]

/-- The name and the list in place of the members are those of the group. -/
def GroupPatch.KeepsGroup (patch : GroupPatch) (row : GroupRow) : Prop :=
  (∀ name ∈ patch.displayName, name = row.displayName)
    ∧ ∀ members ∈ patch.replaceMembers, members.toFinset = row.members

/-- The name is that of the group, and the members are the names that are put in and not taken
out. -/
def GroupPatch.KeepsMembers (patch : GroupPatch) (row : GroupRow) : Prop :=
  (∀ name ∈ patch.displayName, name = row.displayName)
    ∧ ∀ m, m ∈ row.members ↔ patch.holds row m ∧ ¬ patch.removes m

theorem getD_eq_self_iff {α : Type} {given : Option α} {a : α} :
  given.getD a = a ↔ ∀ b ∈ given, b = a
  := by
  cases given <;> simp

/-- The first transaction changes nothing. -/
theorem GroupPatch.first_eq_self_iff {patch : GroupPatch} {row : GroupRow} :
  patch.first row = row ↔ patch.KeepsGroup row
  := by
  rw [GroupRow.ext_iff, first, getD_eq_self_iff, getD_eq_self_iff, KeepsGroup]
  refine and_congr_right fun _ => ?_
  simp

/-- Both transactions change nothing. -/
theorem GroupPatch.second_eq_self_iff {patch : GroupPatch} {row : GroupRow} :
  patch.second row = row ↔ patch.KeepsMembers row
  := by
  have hname : (patch.second row).displayName = patch.displayName.getD row.displayName := rfl
  rw [GroupRow.ext_iff, hname, getD_eq_self_iff, Finset.ext_iff, KeepsMembers]
  refine and_congr_right fun _ => forall_congr' fun m => ?_
  rw [mem_second]
  exact Iff.comm

/-! ### The operations in order -/

/-- The answer has the group that the operations make, one after the other, and it is the group
afterwards; a refused or failed patch leaves the group as it was. -/
def PatchedInOrder (env : GroupEnv) (others : Finset String) (faults : StoreFaults)
    (row : GroupRow) (body : Json ν) : Prop :=
  match patchGroup env others faults row body with
  | (.ok answer, after) =>
      answer = after ∧ ∀ effects, patchEffects env body = .ok effects →
        after = applyEffects env row effects
  | (.error _, after) => after = row

/-- No name that the last operation on it puts in is taken out by another, and no name that it
leaves out is put in by another, or was in, without being taken out as the store compares it. -/
def Untangled (env : GroupEnv) (row : GroupRow) (effects : List GroupEffect) : Prop :=
  ∀ m, (GroupPatch.of effects).holds row m →
    ((lastTouch env m effects).getD (decide (m ∈ row.members)) = true
      ↔ ¬ (GroupPatch.of effects).removes m)

/-- Where the first transaction commits, either the second fails and the first has changed nothing,
or the group cannot be read afterwards and neither has changed anything, or all goes well and the
operations are untangled. -/
def Orderly (env : GroupEnv) (others : Finset String) (faults : StoreFaults) (row : GroupRow)
    (effects : List GroupEffect) : Prop :=
  let patch := GroupPatch.of effects
  patch.commits others faults →
    if ¬ (patch.add = [] ∧ patch.remove = []) ∧ faults.second.isSome = true then
      patch.KeepsGroup row
    else if faults.read.isSome = true then patch.KeepsMembers row
    else Untangled env row effects

theorem second_eq_applyEffects_iff {row : GroupRow} {effects : List GroupEffect} :
  (GroupPatch.of effects).second row = applyEffects env row effects ↔ Untangled env row effects
  := by
  constructor
  · intro h m hm
    rw [← mem_applyEffects, ← h, GroupPatch.mem_second]
    exact ⟨And.right, fun hkept => ⟨hm, hkept⟩⟩
  · intro h
    have hname : ((GroupPatch.of effects).second row).displayName
        = (applyEffects env row effects).displayName := displayName_applyEffects.symm
    have hmembers : ((GroupPatch.of effects).second row).members
        = (applyEffects env row effects).members := by
      ext m
      rw [GroupPatch.mem_second, mem_applyEffects]
      constructor
      · rintro ⟨hm, hkept⟩
        exact (h m hm).mpr hkept
      · intro hlast
        have hm := GroupPatch.of_lastTouch hlast
        exact ⟨hm, (h m hm).mp hlast⟩
    cases hs : (GroupPatch.of effects).second row
    cases ha : applyEffects env row effects
    rw [hs, ha] at hname hmembers
    dsimp only at hname hmembers
    rw [hname, hmembers]

/-- A patch of a group is its operations one after the other exactly when it is orderly. -/
theorem patched_in_order_iff
    {env : GroupEnv} {others : Finset String} {faults : StoreFaults} {row : GroupRow}
    {body : Json ν} :
  PatchedInOrder env others faults row body
    ↔ ∀ effects, patchEffects env body = .ok effects → Orderly env others faults row effects
  := by
  rw [PatchedInOrder, patchGroup_eq]
  cases heffects : patchEffects env body with
  | error error => simp
  | ok effects =>
      simp only [Except.ok.injEq, forall_eq', GroupPatch.write, Orderly]
      by_cases hcommits : (GroupPatch.of effects).commits others faults
      · rw [GroupPatch.writeFirst_of_commits hcommits]
        simp only [hcommits, true_imp_iff]
        by_cases hfails : ¬ ((GroupPatch.of effects).add = [] ∧ (GroupPatch.of effects).remove = [])
            ∧ faults.second.isSome = true
        · obtain ⟨error, herror⟩ := Option.isSome_iff_exists.mp hfails.2
          rw [GroupPatch.writeSecond_of_fault hfails.1 herror, if_pos hfails]
          exact GroupPatch.first_eq_self_iff
        · have hsecond : ((GroupPatch.of effects).add = [] ∧ (GroupPatch.of effects).remove = [])
              ∨ faults.second = none := by
            rw [← Option.not_isSome_iff_eq_none]
            tauto
          rw [GroupPatch.writeSecond_of_no_fault hsecond, if_neg hfails]
          cases faults.read with
          | some error => exact GroupPatch.second_eq_self_iff
          | none => simpa using second_eq_applyEffects_iff
      · obtain ⟨error, herror⟩ : ∃ error,
            (GroupPatch.of effects).writeFirst others faults row = .error error :=
          GroupPatch.writeFirst_of_not_commits hcommits
        rw [herror]
        simp [hcommits]

/-- A patch that removes a member and then adds it again, all in lists. -/
def removeThenAdd : Json Unit :=
  .obj [("Operations", .arr [
    .obj [("op", .str "remove"), ("path", .str "members"),
      ("value", .arr [.obj [("value", .str "bob")]])],
    .obj [("op", .str "add"), ("path", .str "members"),
      ("value", .arr [.obj [("value", .str "bob")]])]])]

/-- The member that is removed and added again is left out. -/
theorem removed_then_added :
  ¬ ∀ (env : GroupEnv) (others : Finset String) (faults : StoreFaults) (row : GroupRow)
    (body : Json Unit), PatchedInOrder env others faults row body
  := by
  intro h
  have hbob := h ⟨id⟩ ∅ ⟨none, none, none⟩ ⟨"staff", {"bob"}⟩ removeThenAdd
  have hcode : patchGroup ⟨id⟩ ∅ ⟨none, none, none⟩ ⟨"staff", {"bob"}⟩ removeThenAdd
      = (.ok ⟨"staff", ∅⟩, ⟨"staff", ∅⟩) := by decide
  have heffects : patchEffects ⟨id⟩ removeThenAdd = .ok [.remove ["bob"], .add ["bob"]] := by
    decide
  have hspec : applyEffects ⟨id⟩ ⟨"staff", {"bob"}⟩ [.remove ["bob"], .add ["bob"]]
      = ⟨"staff", {"bob"}⟩ := by decide
  rw [PatchedInOrder, hcode] at hbob
  have hafter := hbob.2 _ heffects
  rw [hspec] at hafter
  exact absurd hafter (by decide)

end Votport.Admin
