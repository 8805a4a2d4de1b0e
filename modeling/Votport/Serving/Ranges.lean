import Votport.Auth.Spellings

/-!
# Ranges of a file

A request may ask for a part of a file, by its first and last byte or by the number of its last
bytes.  A range that begins after the file is refused, with the length of the file.
-/

namespace Votport.Serving

/-- The length or place that a text of digits gives. -/
def parsePlace (text : List Char) : Option ℕ := (parseU64 text).map UInt64.toNat

/-- `parse_range`, of a file with a length. -/
def parseRange (value : List Char) (length : ℕ) : Option (ℕ × ℕ) := do
  let (unit, spec) ← Fields.splitOnce '=' value
  if unit.map Char.toLower ≠ "bytes".toList ∨ spec = [] ∨ ',' ∈ spec ∨ length = 0 then none
  else
    let (start, last) ← Fields.splitOnce '-' spec
    if start = [] then
      let suffix ← parsePlace last
      if suffix = 0 then none else some (length - suffix, length - 1)
    else
      let first ← parsePlace start
      if length ≤ first then none
      else if last = [] then some (first, length - 1)
      else
        let last ← parsePlace last
        if last < first then none else some (first, min last (length - 1))

/-- A header is visible. -/
def isVisible (value : List Char) : Bool :=
  value.all fun c => c = '\t' || (decide (' ' ≤ c) && decide (c ≤ '~'))

/-- The headers that a range is read from. -/
structure RangeHeaders where
  range : List (List Char)
  ifRange : Option (List Char)

/-- What tells a range that cannot be satisfied. -/
def rangeNotSatisfiable (length : ℕ) : List Char := "bytes */".toList ++ decimalDigits length

/-- `requested_range`, of a file with a tag and a length. -/
def requestedRange (headers : RangeHeaders) (etag : List Char) (length : ℕ) :
    Except (List Char) (Option (ℕ × ℕ)) :=
  match headers.range with
  | [] => .ok none
  | _ :: _ :: _ => .error (rangeNotSatisfiable length)
  | [value] =>
      if headers.ifRange.any (fun tag => !isVisible tag || decide (tag ≠ etag)) = true then
        .ok none
      else if isVisible value = false then .error (rangeNotSatisfiable length)
      else
        match parseRange value length with
        | none => .error (rangeNotSatisfiable length)
        | some range => .ok (some range)

/-- The header of a part of a file. -/
def contentRange (first last length : ℕ) : List Char :=
  "bytes ".toList ++ (decimalDigits first
    ++ '-' :: (decimalDigits last ++ '/' :: decimalDigits length))

/-- What a file is answered with. -/
structure FileAnswer where
  status : ℕ
  contentRange : Option (List Char)
  body : List UInt8

/-- The answer to a request for a file with its content. -/
def serveFile (content : List UInt8) (etag : List Char) (headers : RangeHeaders) : FileAnswer :=
  match requestedRange headers etag content.length with
  | .error range => ⟨416, some range, []⟩
  | .ok none => ⟨200, none, content⟩
  | .ok (some (first, last)) =>
      ⟨206, some (contentRange first last content.length),
        (content.drop first).take (last + 1 - first)⟩

/-! ### The rest of a file -/

/-- The header that asks for the bytes from a place on. -/
def rangeFrom (first : ℕ) : List Char := "bytes=".toList ++ (decimalDigits first ++ ['-'])

theorem parsePlace_decimalDigits {n : ℕ} (h : n < 2 ^ 64) :
  parsePlace (decimalDigits n) = some n
  := by
  have hn : (UInt64.ofNat n).toNat = n := UInt64.toNat_ofNat_of_lt' h
  have hparse := parseU64_decimalDigits (UInt64.ofNat n)
  rw [hn] at hparse
  rw [parsePlace, hparse, Option.map_some, hn]

theorem comma_dash_notMem_decimalDigits (n : ℕ) :
  ',' ∉ decimalDigits n ∧ '-' ∉ decimalDigits n
  := by
  constructor
  · intro h
    cases (show ','.isDigit = false by decide).symm.trans (isDigit_of_mem_decimalDigits h)
  · intro h
    cases (show '-'.isDigit = false by decide).symm.trans (isDigit_of_mem_decimalDigits h)

/-- The bytes from a place on are a range of a file that goes on there. -/
theorem parseRange_rangeFrom {first length : ℕ} (hfirst : first < 2 ^ 64) :
  parseRange (rangeFrom first) length = if length ≤ first then none else some (first, length - 1)
  := by
  obtain ⟨hcomma, hdash⟩ := comma_dash_notMem_decimalDigits first
  have hunit : Fields.splitOnce '=' (rangeFrom first)
      = some ("bytes".toList, decimalDigits first ++ ['-']) :=
    Fields.splitOnce_append (x := "bytes".toList) (by decide) _
  have hspec : Fields.splitOnce '-' (decimalDigits first ++ ['-'])
      = some (decimalDigits first, []) :=
    Fields.splitOnce_append hdash []
  have hne := decimalDigits_ne_nil first
  have hlist : ',' ∉ decimalDigits first ++ ['-'] := by
    rw [List.mem_append, not_or]
    exact ⟨hcomma, by decide⟩
  unfold parseRange
  simp only [hunit, hspec, parsePlace_decimalDigits hfirst, Option.bind_eq_bind, Option.bind_some]
  by_cases hle : length ≤ first
  · rw [if_pos hle, if_pos hle, if_neg hne, ite_self]
  · have hchecked : ¬("bytes".toList.map Char.toLower ≠ "bytes".toList
        ∨ decimalDigits first ++ ['-'] = [] ∨ ',' ∈ decimalDigits first ++ ['-'] ∨ length = 0) := by
      rintro (h | h | h | h)
      · exact h (by decide)
      · exact List.append_ne_nil_of_right_ne_nil _ (List.cons_ne_nil _ _) h
      · exact hlist h
      · omega
    rw [if_neg hchecked, if_neg hne, if_neg hle, if_pos trivial, if_neg hle]

theorem requestedRange_rangeFrom {first length : ℕ} (etag : List Char) (hfirst : first < 2 ^ 64) :
  requestedRange ⟨[rangeFrom first], none⟩ etag length
    = if length ≤ first then .error (rangeNotSatisfiable length)
      else .ok (some (first, length - 1))
  := by
  have hvisible : isVisible (rangeFrom first) = true := by
    rw [isVisible, rangeFrom, List.all_append, List.all_append, Bool.and_eq_true,
      Bool.and_eq_true]
    refine ⟨by decide, List.all_eq_true.mpr fun c hc => ?_, by decide⟩
    have hdigit : ('0' ≤ c ∧ c ≤ '9') := by
      have h := isDigit_of_mem_decimalDigits hc
      rwa [Char.isDigit, Bool.and_eq_true, decide_eq_true_eq, decide_eq_true_eq] at h
    have hlow : ' ' ≤ c := UInt32.le_trans (show ' '.val ≤ '0'.val by decide) hdigit.1
    have hhigh : c ≤ '~' := UInt32.le_trans hdigit.2 (show '9'.val ≤ '~'.val by decide)
    rw [Bool.or_eq_true, Bool.and_eq_true]
    exact .inr ⟨decide_eq_true hlow, decide_eq_true hhigh⟩
  have hparse : parseRange (rangeFrom first) length
      = if length ≤ first then none else some (first, length - 1) := parseRange_rangeFrom hfirst
  by_cases hle : length ≤ first
  · rw [if_pos hle] at hparse ⊢
    simp [requestedRange, hvisible, hparse]
  · rw [if_neg hle] at hparse ⊢
    simp [requestedRange, hvisible, hparse]

/-- The rest of a file is served when there is one; after the last byte the range is refused. -/
theorem serveFile_rangeFrom {content etag : List _} {first : ℕ} (hfirst : first < 2 ^ 64) :
  serveFile content etag ⟨[rangeFrom first], none⟩
    = if content.length ≤ first then ⟨416, some (rangeNotSatisfiable content.length), []⟩
      else ⟨206, some (contentRange first (content.length - 1) content.length),
        content.drop first⟩
  := by
  unfold serveFile
  rw [requestedRange_rangeFrom etag hfirst]
  by_cases hle : content.length ≤ first
  · rw [if_pos hle, if_pos hle]
  · rw [if_neg hle, if_neg hle]
    dsimp only
    rw [List.take_of_length_le (by rw [List.length_drop]; omega)]

end Votport.Serving
