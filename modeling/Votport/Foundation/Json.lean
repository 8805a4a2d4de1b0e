import Mathlib

/-!
# JSON texts

A value is written without spaces: an object with its entries in the order it has them, a text
with the escapes that it needs, and a number with a text of its own.  The numbers are a
parameter.  What is written can be read in one way only: of two texts that agree up to what
follows a value, the values are the same and so are the rests.  The proofs follow the first
character, which tells the kind of a value, and what delimits a number.
-/

/-- A value with numbers of a type. -/
inductive Json (ν : Type*)
  | null
  | bool (b : Bool)
  | num (n : ν)
  | str (s : String)
  | arr (items : List (Json ν))
  | obj (entries : List (String × Json ν))

namespace Json

variable {ν : Type*}

mutual

/-- Every object has its entries in the order of their names. -/
def Ordered : Json ν → Prop
  | arr items => OrderedItems items
  | obj entries => (entries.map Prod.fst).Pairwise (· < ·) ∧ OrderedEntries entries
  | _ => True

def OrderedItems : List (Json ν) → Prop
  | [] => True
  | item :: items => item.Ordered ∧ OrderedItems items

def OrderedEntries : List (String × Json ν) → Prop
  | [] => True
  | (_, value) :: entries => value.Ordered ∧ OrderedEntries entries

end

/-! ### Numbers -/

/-- A character of a number. -/
def isNumberChar (c : Char) : Bool :=
  c.isDigit || c = '-' || c = '+' || c = '.' || c = 'e' || c = 'E'

/-- How numbers are written. -/
structure NumberFormat (ν : Type*) where
  text : ν → List Char
  nonempty : ∀ n, text n ≠ []
  chars : ∀ n, ∀ c ∈ text n, isNumberChar c = true
  injective : Function.Injective text

/-- No number goes on with the text. -/
def Delimited (rest : List Char) : Prop := ∀ c ∈ rest.head?, isNumberChar c = false

theorem delimited_nil : Delimited [] := nofun

theorem delimited_cons {c : Char} {rest : List Char} (h : isNumberChar c = false) :
  Delimited (c :: rest)
  := by
  intro d hd
  obtain rfl := Option.some.inj hd
  apply h

/-- Two runs of characters of a kind that something else follows are the same. -/
theorem run_unique
    {p : Char → Bool} {a b rest rest' : List Char} (ha : ∀ c ∈ a, p c = true)
    (hb : ∀ c ∈ b, p c = true) (hrest : ∀ c ∈ rest.head?, p c = false)
    (hrest' : ∀ c ∈ rest'.head?, p c = false) (h : a ++ rest = b ++ rest') :
  a = b ∧ rest = rest'
  := by
  have htake : ∀ {a rest : List Char}, (∀ c ∈ a, p c = true) → (∀ c ∈ rest.head?, p c = false) →
      (a ++ rest).takeWhile p = a := by
    intro a rest ha hrest
    rw [List.takeWhile_append_of_pos ha]
    cases rest with
    | nil => simp
    | cons c rest => simp [hrest c rfl]
  have hab : a = b := by
    rw [← htake ha hrest, h, htake hb hrest']
  rw [hab] at h
  exact ⟨hab, List.append_cancel_left h⟩

/-! ### Texts -/

/-- The lowercase digit of a value below sixteen. -/
def hexLetter (n : Nat) : Char :=
  if n < 10 then Char.ofNat ('0'.toNat + n) else Char.ofNat ('a'.toNat + (n - 10))

/-- A character of a text as it is written. -/
def escape (c : Char) : List Char :=
  if c = '"' then ['\\', '"']
  else if c = '\\' then ['\\', '\\']
  else if c.toNat < 32 then
    if c.toNat = 8 then ['\\', 'b']
    else if c.toNat = 9 then ['\\', 't']
    else if c.toNat = 10 then ['\\', 'n']
    else if c.toNat = 12 then ['\\', 'f']
    else if c.toNat = 13 then ['\\', 'r']
    else ['\\', 'u', '0', '0', hexLetter (c.toNat / 16), hexLetter (c.toNat % 16)]
  else [c]

/-- A text as it is written. -/
def writeString (s : String) : List Char := '"' :: s.toList.flatMap escape ++ ['"']

/-- The value of a lowercase hexadecimal digit. -/
def letterValue (c : Char) : Nat := if c.isDigit then c.toNat - 48 else c.toNat - 87

/-- The character that a short escape stands for. -/
def shortEscape (c : Char) : Char :=
  if c = 'b' then Char.ofNat 8
  else if c = 't' then Char.ofNat 9
  else if c = 'n' then Char.ofNat 10
  else if c = 'f' then Char.ofNat 12
  else if c = 'r' then Char.ofNat 13
  else c

/-- The first character of a written text, and what follows it. -/
def unescape : List Char → Option (Char × List Char)
  | '\\' :: 'u' :: _ :: _ :: a :: b :: rest =>
      some (Char.ofNat (16 * letterValue a + letterValue b), rest)
  | '\\' :: c :: rest => some (shortEscape c, rest)
  | c :: rest => some (c, rest)
  | [] => none

/-- A control character is read from its escape. -/
theorem unescape_control (n : Fin 32) (rest : List Char) :
  unescape (escape (Char.ofNat n) ++ rest) = some (Char.ofNat n, rest)
  := by
  fin_cases n <;> rfl

/-- A character is read from its escape. -/
theorem unescape_escape (c : Char) (rest : List Char) :
  unescape (escape c ++ rest) = some (c, rest)
  := by
  by_cases hcontrol : c.toNat < 32
  · have hread := unescape_control ⟨c.toNat, hcontrol⟩ rest
    rw [Char.ofNat_toNat] at hread
    apply hread
  by_cases hquote : c = '"'
  · rw [hquote]
    rfl
  by_cases hslash : c = '\\'
  · rw [hslash]
    rfl
  rw [escape, if_neg hquote, if_neg hslash, if_neg hcontrol]
  simp [unescape, hslash]

/-- The escape of a character does not begin like the end of a text. -/
theorem head?_escape (c : Char) (rest : List Char) :
  (escape c ++ rest).head? ≠ some '"'
  := by
  by_cases hcontrol : c.toNat < 32
  · have hhead : ∀ n : Fin 32, (escape (Char.ofNat n)).head? = some '\\' := by decide +kernel
    have hc := hhead ⟨c.toNat, hcontrol⟩
    rw [Char.ofNat_toNat] at hc
    rw [List.head?_append, hc, Option.some_or]
    decide
  by_cases hquote : c = '"'
  · rw [hquote]
    exact nofun
  by_cases hslash : c = '\\'
  · rw [hslash]
    exact nofun
  rw [escape, if_neg hquote, if_neg hslash, if_neg hcontrol]
  intro h
  apply hquote (Option.some.inj h)

/-- The characters of a written text can be read in one way only. -/
theorem escapes_unique
    {cs cs' rest rest' : List Char}
    (h : cs.flatMap escape ++ '"' :: rest = cs'.flatMap escape ++ '"' :: rest') :
  cs = cs' ∧ rest = rest'
  := by
  induction cs generalizing cs' with
  | nil =>
      cases cs' with
      | nil => exact ⟨rfl, (List.cons.inj h).2⟩
      | cons c' cs' =>
          rw [List.flatMap_cons, List.append_assoc] at h
          apply absurd _ (head?_escape c' (cs'.flatMap escape ++ '"' :: rest'))
          rw [← h]
          rfl
  | cons c cs ih =>
      rw [List.flatMap_cons, List.append_assoc] at h
      cases cs' with
      | nil =>
          apply absurd _ (head?_escape c (cs.flatMap escape ++ '"' :: rest))
          rw [h]
          rfl
      | cons c' cs' =>
          rw [List.flatMap_cons, List.append_assoc] at h
          have hread := congrArg unescape h
          rw [unescape_escape, unescape_escape] at hread
          obtain ⟨rfl, htail⟩ := Prod.mk.inj (Option.some.inj hread)
          obtain ⟨rfl, hrest⟩ := ih htail
          exact ⟨rfl, hrest⟩

/-- A written text can be read in one way only. -/
theorem writeString_unique
    {s s' : String} {rest rest' : List Char}
    (h : writeString s ++ rest = writeString s' ++ rest') :
  s = s' ∧ rest = rest'
  := by
  rw [writeString, writeString, List.append_assoc, List.append_assoc] at h
  obtain ⟨hs, hrest⟩ := escapes_unique (List.cons.inj h).2
  exact ⟨String.toList_inj.mp hs, hrest⟩

/-! ### Values -/

variable (format : NumberFormat ν)

mutual

/-- A value as it is written. -/
def write : Json ν → List Char
  | null => "null".toList
  | bool true => "true".toList
  | bool false => "false".toList
  | num n => format.text n
  | str s => writeString s
  | arr [] => ['[', ']']
  | arr (item :: items) => '[' :: (write item ++ writeItems items)
  | obj [] => ['{', '}']
  | obj ((key, value) :: entries) =>
      '{' :: (writeString key ++ ':' :: (write value ++ writeEntries entries))

/-- The items of a list after the first one. -/
def writeItems : List (Json ν) → List Char
  | [] => [']']
  | item :: items => ',' :: (write item ++ writeItems items)

/-- The entries of an object after the first one. -/
def writeEntries : List (String × Json ν) → List Char
  | [] => ['}']
  | (key, value) :: entries =>
      ',' :: (writeString key ++ ':' :: (write value ++ writeEntries entries))

end

/-- The kinds of values. -/
inductive Kind
  | null
  | true
  | false
  | num
  | str
  | arr
  | obj
  /-- What ends a list or an object, or goes on with it. -/
  | other
deriving DecidableEq

/-- The kind of a value. -/
def kind : Json ν → Kind
  | null => .null
  | bool b => if b then .true else .false
  | num _ => .num
  | str _ => .str
  | arr _ => .arr
  | obj _ => .obj

/-- The kind of value that a character begins. -/
def kindOf (c : Char) : Kind :=
  if isNumberChar c then .num
  else if c = 'n' then .null
  else if c = 't' then .true
  else if c = 'f' then .false
  else if c = '"' then .str
  else if c = '[' then .arr
  else if c = '{' then .obj
  else .other

/-- The first character tells the kind of a value. -/
theorem kindOf_write (a : Json ν) (rest : List Char) :
  (write format a ++ rest).head?.map kindOf = some a.kind
  := by
  cases a with
  | null => rfl
  | bool b => cases b <;> rfl
  | num n =>
      cases htext : format.text n with
      | nil => cases format.nonempty n htext
      | cons c cs =>
          have hc := format.chars n c (htext ▸ List.mem_cons_self)
          rw [write, htext, List.cons_append, List.head?_cons, Option.map_some, kindOf, if_pos hc]
          rfl
  | str s => rfl
  | arr items => cases items <;> rfl
  | obj entries =>
      cases entries with
      | nil => rfl
      | cons entry entries => rfl

/-- A value of no kind does not begin what is written. -/
theorem write_append_ne {a : Json ν} {rest rest' : List Char} {c : Char} (hc : kindOf c = .other) :
  write format a ++ rest ≠ c :: rest'
  := by
  intro h
  have hkind := kindOf_write format a rest
  rw [h, List.head?_cons, Option.map_some, hc] at hkind
  cases a with
  | bool b => cases b <;> cases hkind
  | _ => cases hkind

theorem kind_eq_of_write
    {a b : Json ν} {rest rest' : List Char} (h : write format a ++ rest = write format b ++ rest') :
  a.kind = b.kind
  := by
  have ha := kindOf_write format a rest
  rw [h, kindOf_write] at ha
  exact (Option.some.inj ha).symm

/-- What follows an item, or an entry, delimits a number. -/
theorem delimited_writeItems (items : List (Json ν)) (rest : List Char) :
  Delimited (writeItems format items ++ rest)
  := by
  cases items <;> exact delimited_cons rfl

theorem delimited_writeEntries (entries : List (String × Json ν)) (rest : List Char) :
  Delimited (writeEntries format entries ++ rest)
  := by
  cases entries <;> exact delimited_cons rfl

mutual

/-- A value can be read in one way only. -/
theorem write_unique :
  ∀ {a b : Json ν} {rest rest' : List Char}, Delimited rest → Delimited rest' →
    write format a ++ rest = write format b ++ rest' → a = b ∧ rest = rest'
  | null, b, rest, rest', _, _, h => by
      have hkind := kind_eq_of_write format h
      cases b with
      | null => exact ⟨rfl, List.append_cancel_left h⟩
      | bool c => cases c <;> cases hkind
      | _ => cases hkind
  | bool c, b, rest, rest', _, _, h => by
      have hkind := kind_eq_of_write format h
      cases b with
      | bool d =>
          cases c <;> cases d
          · exact ⟨rfl, List.append_cancel_left h⟩
          · cases hkind
          · cases hkind
          · exact ⟨rfl, List.append_cancel_left h⟩
      | _ => cases c <;> cases hkind
  | num n, b, rest, rest', hrest, hrest', h => by
      have hkind := kind_eq_of_write format h
      cases b with
      | num m =>
          rw [write, write] at h
          obtain ⟨htext, he⟩ := run_unique (format.chars n) (format.chars m) hrest hrest' h
          exact ⟨congrArg num (format.injective htext), he⟩
      | bool c => cases c <;> cases hkind
      | _ => cases hkind
  | str s, b, rest, rest', _, _, h => by
      have hkind := kind_eq_of_write format h
      cases b with
      | str t =>
          rw [write, write] at h
          obtain ⟨rfl, he⟩ := writeString_unique h
          exact ⟨rfl, he⟩
      | bool c => cases c <;> cases hkind
      | _ => cases hkind
  | arr items, b, rest, rest', _, _, h => by
      have hkind := kind_eq_of_write format h
      cases b with
      | arr items' =>
          cases items with
          | nil =>
              cases items' with
              | nil => exact ⟨rfl, List.append_cancel_left h⟩
              | cons item' items' =>
                  rw [write, write, List.cons_append, List.cons_append, List.cons_append,
                    List.append_assoc] at h
                  cases write_append_ne format rfl (List.cons.inj h).2.symm
          | cons item items =>
              cases items' with
              | nil =>
                  rw [write, write, List.cons_append, List.cons_append, List.cons_append,
                    List.append_assoc] at h
                  cases write_append_ne format rfl (List.cons.inj h).2
              | cons item' items' =>
                  rw [write, write, List.cons_append, List.cons_append, List.append_assoc,
                    List.append_assoc] at h
                  obtain ⟨rfl, htail⟩ := write_unique (delimited_writeItems format items rest)
                    (delimited_writeItems format items' rest') (List.cons.inj h).2
                  obtain ⟨rfl, he⟩ := writeItems_unique htail
                  exact ⟨rfl, he⟩
      | bool c => cases c <;> cases hkind
      | _ => cases hkind
  | obj entries, b, rest, rest', _, _, h => by
      have hkind := kind_eq_of_write format h
      cases b with
      | obj entries' =>
          cases entries with
          | nil =>
              cases entries' with
              | nil => exact ⟨rfl, List.append_cancel_left h⟩
              | cons entry' entries' =>
                  obtain ⟨key', value'⟩ := entry'
                  cases (List.cons.inj (List.cons.inj h).2).1
          | cons entry entries =>
              obtain ⟨key, value⟩ := entry
              cases entries' with
              | nil => cases (List.cons.inj (List.cons.inj h).2).1
              | cons entry' entries' =>
                  obtain ⟨key', value'⟩ := entry'
                  rw [write, write, List.cons_append, List.cons_append, List.append_assoc,
                    List.append_assoc] at h
                  obtain ⟨rfl, hvalue⟩ := writeString_unique (List.cons.inj h).2
                  rw [List.cons_append, List.cons_append, List.append_assoc,
                    List.append_assoc] at hvalue
                  obtain ⟨rfl, htail⟩ := write_unique (delimited_writeEntries format entries rest)
                    (delimited_writeEntries format entries' rest') (List.cons.inj hvalue).2
                  obtain ⟨rfl, he⟩ := writeEntries_unique htail
                  exact ⟨rfl, he⟩
      | bool c => cases c <;> cases hkind
      | _ => cases hkind

theorem writeItems_unique :
  ∀ {items items' : List (Json ν)} {rest rest' : List Char},
    writeItems format items ++ rest = writeItems format items' ++ rest' →
      items = items' ∧ rest = rest'
  | [], [], rest, rest', h => ⟨rfl, List.append_cancel_left h⟩
  | [], _ :: _, rest, rest', h => by cases (List.cons.inj h).1
  | _ :: _, [], rest, rest', h => by cases (List.cons.inj h).1
  | item :: items, item' :: items', rest, rest', h => by
      rw [writeItems, writeItems, List.cons_append, List.cons_append, List.append_assoc,
        List.append_assoc] at h
      obtain ⟨rfl, htail⟩ := write_unique (delimited_writeItems format items rest)
        (delimited_writeItems format items' rest') (List.cons.inj h).2
      obtain ⟨rfl, he⟩ := writeItems_unique htail
      exact ⟨rfl, he⟩

theorem writeEntries_unique :
  ∀ {entries entries' : List (String × Json ν)} {rest rest' : List Char},
    writeEntries format entries ++ rest = writeEntries format entries' ++ rest' →
      entries = entries' ∧ rest = rest'
  | [], [], rest, rest', h => ⟨rfl, List.append_cancel_left h⟩
  | [], (_, _) :: _, rest, rest', h => by cases (List.cons.inj h).1
  | (_, _) :: _, [], rest, rest', h => by cases (List.cons.inj h).1
  | (key, value) :: entries, (key', value') :: entries', rest, rest', h => by
      rw [writeEntries, writeEntries, List.cons_append, List.cons_append, List.append_assoc,
        List.append_assoc] at h
      obtain ⟨rfl, hvalue⟩ := writeString_unique (List.cons.inj h).2
      rw [List.cons_append, List.cons_append, List.append_assoc, List.append_assoc] at hvalue
      obtain ⟨rfl, htail⟩ := write_unique (delimited_writeEntries format entries rest)
        (delimited_writeEntries format entries' rest') (List.cons.inj hvalue).2
      obtain ⟨rfl, he⟩ := writeEntries_unique htail
      exact ⟨rfl, he⟩

end

/-- Different values are written differently. -/
theorem write_injective :
  Function.Injective (write format)
  := by
  intro a b h
  have he : write format a ++ [] = write format b ++ [] := by rw [h]
  exact (write_unique format delimited_nil delimited_nil he).1

end Json
