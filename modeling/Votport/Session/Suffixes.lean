import Mathlib.Data.List.DropRight
import Votport.Foundation.Fields
import Votport.Protocol.Paths

/-!
# Suffixes of stored names

Where a name is taken, the port tries it with numbers, before the extension.  What is too long gives
up characters of its stem, so the numbers keep the names apart.
-/

namespace Votport

/-- The stem of a name, and its extension with the dot. -/
def splitName (name : List Char) : List Char × List Char :=
  match rsplitDot name with
  | some (stem, extension) => if stem ≠ [] then (stem, '.' :: extension) else (name, [])
  | none => (name, [])

/-- What comes after the stem in an attempt. -/
def attemptSuffix (name : List Char) (attempt : ℕ) : List Char :=
  '-' :: (toString attempt).toList ++ (splitName name).2

variable {name : List Char} {attempt attempt' : ℕ}

theorem rsplitDot_eq {stem extension : List Char} (h : rsplitDot name = some (stem, extension)) :
  name = stem ++ '.' :: extension
  := by
  rw [rsplitDot] at h
  split at h
  · rename_i hdot
    obtain ⟨rfl, rfl⟩ := Prod.mk.inj (Option.some.inj h)
    have hsplit : name.rdropWhile (· ≠ '.') ++ name.rtakeWhile (· ≠ '.') = name :=
      List.rdropWhile_append_rtakeWhile ..
    have hne : name.rdropWhile (fun c => decide (c ≠ '.')) ≠ [] := by
      intro hnil
      rw [List.rdropWhile_eq_nil_iff] at hnil
      exact absurd rfl (of_decide_eq_true (hnil '.' hdot))
    have hlast : (name.rdropWhile fun c => decide (c ≠ '.')).getLast hne = '.' := by
      have hnot := List.rdropWhile_last_not (fun c => decide (c ≠ '.')) name hne
      simpa using hnot
    have hfront := List.dropLast_append_getLast hne
    rw [hlast] at hfront
    generalize (name.rdropWhile fun c => decide (c ≠ '.')).dropLast = front at hfront
    rw [← hfront, List.append_assoc, List.singleton_append] at hsplit
    generalize name.rtakeWhile (fun c => decide (c ≠ '.')) = extension at hsplit ⊢
    subst hsplit
    have hlength : (front ++ '.' :: extension).length - extension.length - 1 = front.length := by
      rw [List.length_append, List.length_cons]
      omega
    rw [hlength, List.take_left]
  · cases h

theorem splitName_append (name : List Char) :
  (splitName name).1 ++ (splitName name).2 = name
  := by
  rw [splitName]
  split
  · rename_i stem extension h
    split
    · exact (rsplitDot_eq h).symm
    · exact List.append_nil name
  · exact List.append_nil name

theorem withSuffix_eq (h : attempt ≠ 0) :
  withSuffix name attempt
    = takeBytes (min (utf8Len (splitName name).1)
        (maxPayloadNameBytes - utf8Len (attemptSuffix name attempt))) (splitName name).1
      ++ attemptSuffix name attempt
  := by
  rw [withSuffix, if_neg h, attemptSuffix, splitName]
  cases hsplit : rsplitDot name with
  | none => simp
  | some parts =>
      obtain ⟨stem, extension⟩ := parts
      by_cases hstem : stem = []
      · simp [hstem]
      · simp [hstem]

/-! ### Cutting -/

theorem takeBytes_prefix (n : ℕ) (text : List Char) :
  takeBytes n text <+: text
  := by
  induction text generalizing n with
  | nil => exact List.nil_prefix
  | cons c text ih =>
      rw [takeBytes]
      split
      · exact List.cons_prefix_cons.mpr ⟨rfl, ih _⟩
      · exact List.nil_prefix

theorem utf8Len_cons (c : Char) (text : List Char) :
  utf8Len (c :: text) = c.utf8Size + utf8Len text
  := by
  rw [utf8Len, utf8, List.flatMap_cons, List.length_append, String.length_utf8EncodeChar]
  rfl

theorem utf8Len_append (text text' : List Char) :
  utf8Len (text ++ text') = utf8Len text + utf8Len text'
  := by
  rw [utf8Len, utf8, List.flatMap_append, List.length_append]
  rfl

theorem utf8Len_takeBytes_le (n : ℕ) (text : List Char) :
  utf8Len (takeBytes n text) ≤ n
  := by
  induction text generalizing n with
  | nil => exact Nat.zero_le _
  | cons c text ih =>
      rw [takeBytes]
      split
      · have hrest := ih (n - c.utf8Size)
        rw [utf8Len_cons]
        omega
      · exact Nat.zero_le _

theorem takeBytes_of_le {n : ℕ} {text : List Char} (h : utf8Len text ≤ n) :
  takeBytes n text = text
  := by
  induction text generalizing n with
  | nil => rfl
  | cons c text ih =>
      rw [utf8Len_cons] at h
      rw [takeBytes, if_pos (by omega), ih (by omega)]

/-! ### Attempts -/

/-- The number of an attempt is read back from its name. -/
theorem withSuffix_inj (h : attempt ≠ 0) (h' : attempt' ≠ 0)
    (heq : withSuffix name attempt = withSuffix name attempt') :
  attempt = attempt'
  := by
  rw [withSuffix_eq h, withSuffix_eq h', attemptSuffix, attemptSuffix, ← List.append_assoc,
    ← List.append_assoc] at heq
  have hcut := List.append_cancel_right heq
  have hdash : ∀ n : ℕ, '-' ∉ (toString n).toList.reverse := by
    intro n hmem
    rw [List.mem_reverse, Nat.toString_eq_ofList_toDigits, String.toList_ofList] at hmem
    have hdigit := Nat.isDigit_of_mem_toDigits (by decide) (by decide) hmem
    cases hdigit
  have hreverse := congrArg List.reverse hcut
  rw [List.reverse_append, List.reverse_append, List.reverse_cons, List.reverse_cons,
    List.append_assoc, List.append_assoc] at hreverse
  obtain ⟨hdigits, _⟩ := Fields.append_cons_inj (hdash attempt) (hdash attempt') hreverse
  have hdigits := List.reverse_injective hdigits
  rw [Nat.toString_eq_ofList_toDigits, Nat.toString_eq_ofList_toDigits, String.toList_ofList,
    String.toList_ofList] at hdigits
  rw [← Nat.ofDigitChars_ten_toDigits (n := attempt), hdigits, Nat.ofDigitChars_ten_toDigits]

/-- The attempt with the number zero is the name.  Other attempts have different names with the
extension.  They are cut between characters, are within the budget when the suffix is, and are not
the name itself where it has room. -/
theorem withSuffix_fresh (name : List Char) :
  withSuffix name 0 = name
  ∧ (splitName name).1 ++ (splitName name).2 = name
  ∧ (∀ attempt attempt', attempt ≠ 0 → attempt' ≠ 0 → attempt ≠ attempt' →
      withSuffix name attempt ≠ withSuffix name attempt')
  ∧ ∀ attempt, attempt ≠ 0 → ∃ kept,
      kept <+: (splitName name).1
      ∧ withSuffix name attempt = kept ++ attemptSuffix name attempt
      ∧ (utf8Len (attemptSuffix name attempt) ≤ maxPayloadNameBytes →
          utf8Len (withSuffix name attempt) ≤ maxPayloadNameBytes)
      ∧ (utf8Len (splitName name).1 + utf8Len (attemptSuffix name attempt)
            ≤ maxPayloadNameBytes →
          kept = (splitName name).1)
      ∧ (utf8Len (splitName name).1 + utf8Len (attemptSuffix name attempt) ≤ maxPayloadNameBytes
            ∨ ¬attemptSuffix name attempt <:+ name →
          withSuffix name attempt ≠ name)
  := by
  refine ⟨if_pos rfl, splitName_append name, fun attempt attempt' h h' hne heq => ?_, ?_⟩
  · exact hne (withSuffix_inj h h' heq)
  intro attempt h
  have hbudget := utf8Len_takeBytes_le (min (utf8Len (splitName name).1)
    (maxPayloadNameBytes - utf8Len (attemptSuffix name attempt))) (splitName name).1
  have hroom : utf8Len (splitName name).1 + utf8Len (attemptSuffix name attempt)
        ≤ maxPayloadNameBytes →
      takeBytes (min (utf8Len (splitName name).1)
        (maxPayloadNameBytes - utf8Len (attemptSuffix name attempt))) (splitName name).1
      = (splitName name).1 := fun hle => takeBytes_of_le (le_min le_rfl (by omega))
  have heq : withSuffix name attempt = _ := withSuffix_eq h
  refine ⟨_, takeBytes_prefix .., heq, ?_, hroom, ?_⟩
  · intro hle
    rw [heq, utf8Len_append]
    omega
  · rintro (hle | hnot) hsame
    · -- With room for the suffix the attempt is longer than the name.
      have hlength := congrArg List.length hsame
      have hname := congrArg List.length (splitName_append name)
      rw [heq, hroom hle, attemptSuffix] at hlength
      simp only [List.length_append, List.length_cons] at hlength hname
      omega
    · apply hnot
      have hend : attemptSuffix name attempt <:+ withSuffix name attempt := by
        rw [heq]
        exact List.suffix_append ..
      rwa [hsame] at hend

/-- An extension that fills the budget. -/
def longExtension : List Char := 'a' :: '.' :: List.replicate 240 'x'

/-- A name of 242 bytes, which is admitted, and an attempt that is longer.  The attempt with the
number zero is the name. -/
theorem withSuffix_long :
  admitComponent ⟨id, id, fun _ => .ok (), fun _ => none⟩ longExtension false = .ok ()
    ∧ utf8Len longExtension = maxPayloadNameBytes
    ∧ maxPayloadNameBytes < utf8Len (withSuffix longExtension 1)
    ∧ withSuffix longExtension 0 = longExtension
  := by
  refine ⟨?_, ?_, ?_, ?_⟩
  · decide +kernel
  · decide +kernel
  · decide +kernel
  · rfl

end Votport
