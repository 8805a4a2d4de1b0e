import Votport.Foundation.Neighbours
import Votport.Protocol.Portable

/-!
# Names that are admitted together

Names are admitted together exactly when each is admitted alone and no folded path comes first in
another.  Only neighbours in the order of the keys are compared, and a key ends its components with
the least byte.
-/

namespace Votport

open Listings Segments Neighbours

/-- What the keys of the crates are made of: the texts of the components, joined with a NUL, which
no normalization or case folding makes, moves or takes away. -/
structure ManifestEnv.Joins (env : ManifestEnv) (text : List Char → List Char) : Prop where
  portable : ∀ components, env.portable components = .ok () →
    ∀ component ∈ components, '\x00' ∉ component
  texts : ∀ component, '\x00' ∉ component → '\x00' ∉ text component
  key : ∀ components key, env.canonicalPathKey components = some key →
    key = utf8 (join '\x00' (components.map text))
  fold : ∀ name, '\x00' ∉ name → '\x00' ∉ foldName env.toPathEnv name
  foldJoin : ∀ names, (∀ name ∈ names, '\x00' ∉ name) →
    foldName env.toPathEnv (join '\x00' names)
      = join '\x00' (names.map (foldName env.toPathEnv))
  isPathPrefix : ∀ key key', env.isPathPrefix key key' = true ↔ key ++ [0] <+: key'

variable {env : ManifestEnv} {text : List Char → List Char} {name name' : List Char}
  {names names' : List (List Char)}

/-! ### Keys -/

/-- The folded texts of the components of a name. -/
def foldedPath (env : ManifestEnv) (text : List Char → List Char) (name : List Char) :
    List (List Char) :=
  (name.splitOn '/').map fun component => foldName env.toPathEnv (text component)

/-- A name is admitted alone. -/
def Admissible (env : ManifestEnv) (name : List Char) : Prop := ∃ key, foldedKey env name = .ok key

theorem admissible_iff : Admissible env name ↔ admitPortablePaths env [name] = .ok () := by
  constructor
  · rintro ⟨key, hkey⟩
    have hkeys : [name].mapM (foldedKey env) = .ok [key] := by
      rw [List.mapM_cons, hkey]
      rfl
    exact Fallible.bind_eq_ok.mpr ⟨[key], hkeys, Fallible.require_eq_ok.mpr (by simp)⟩
  · intro h
    obtain ⟨keys, hkeys, _⟩ := Fallible.bind_eq_ok.mp h
    have hmap := Fallible.map_of_mapM_eq_ok hkeys
    cases keys with
    | nil => cases hmap
    | cons key keys => exact ⟨key, (List.cons.inj hmap).1⟩

theorem utf8_inj {text text' : List Char} (h : utf8 text = utf8 text') : text = text' := by
  have hread := fromUtf8_utf8 text
  rw [h, fromUtf8_utf8] at hread
  exact (Option.some.inj hread).symm

theorem utf8_join (texts : List (List Char)) :
  utf8 (join '\x00' texts) = join 0 (texts.map utf8)
  := by
  induction texts with
  | nil => rfl
  | cons text texts ih =>
      by_cases hempty : texts = []
      · subst hempty
        simp [join]
      · rw [List.map_cons, join_cons text hempty, join_cons _ (by simpa using hempty), ← ih, utf8,
          List.flatMap_append, List.flatMap_cons]
        rfl

/-- The key of a name is that of its folded path. -/
theorem foldedKey_eq (hjoins : env.Joins text) {key : List UInt8}
    (h : foldedKey env name = .ok key) :
  key = utf8 (join '\x00' (foldedPath env text name))
    ∧ ∀ part ∈ foldedPath env text name, '\x00' ∉ part
  := by
  obtain ⟨_, _, h⟩ := Fallible.bind_eq_ok.mp h
  obtain ⟨_, hpath, h⟩ := Fallible.bind_eq_ok.mp h
  obtain ⟨bytes, hbytes, h⟩ := Fallible.bind_eq_ok.mp h
  obtain ⟨decoded, hdecoded, h⟩ := Fallible.bind_eq_ok.mp h
  obtain rfl := Except.ok.inj h
  obtain ⟨_, _, hportable⟩ := Fallible.bind_eq_ok.mp hpath
  have hcomponents := hjoins.portable _ (Fallible.mapError_eq_ok.mp hportable)
  have hbytes := hjoins.key _ _ (Fallible.present_eq_ok.mp hbytes)
  have hdecoded := Fallible.present_eq_ok.mp hdecoded
  rw [hbytes, fromUtf8_utf8] at hdecoded
  obtain rfl := Option.some.inj hdecoded
  have htexts : ∀ part ∈ (name.splitOn '/').map text, '\x00' ∉ part := by
    intro part hpart
    obtain ⟨component, hcomponent, rfl⟩ := List.mem_map.mp hpart
    exact hjoins.texts _ (hcomponents component hcomponent)
  constructor
  · rw [hjoins.foldJoin _ htexts, List.map_map]
    rfl
  · intro part hpart
    obtain ⟨component, hcomponent, rfl⟩ := List.mem_map.mp hpart
    exact hjoins.fold _ (htexts _ (List.mem_map_of_mem hcomponent))

/-- Two keys collide when the folded path of one comes first in the other. -/
theorem above_key_iff {path path' : List (List Char)} (hpath : path ≠ []) (hpath' : path' ≠ [])
    (hparts : ∀ part ∈ path, '\x00' ∉ part) (hparts' : ∀ part ∈ path', '\x00' ∉ part) :
  Above 0 (utf8 (join '\x00' path)) (utf8 (join '\x00' path')) ↔ path <+: path'
  := by
  have hzero : ∀ {path : List (List Char)}, (∀ part ∈ path, '\x00' ∉ part) →
      ∀ part ∈ path.map utf8, 0 ∉ part := by
    intro path hparts part hpart
    obtain ⟨text, htext, rfl⟩ := List.mem_map.mp hpart
    exact zero_not_mem_utf8 (hparts text htext)
  rw [utf8_join, utf8_join, above_join_iff (by simpa using hpath) (by simpa using hpath')
    (hzero hparts) (hzero hparts')]
  exact List.prefix_map_iff_of_injective fun _ _ => utf8_inj

theorem above_map_iff {key key' : List UInt8} :
  Above 0 (key.map UInt8.toNat) (key'.map UInt8.toNat) ↔ Above 0 key key'
  := by
  have hinj : Function.Injective UInt8.toNat := fun a b hab => UInt8.toNat_inj.mp hab
  have hzero : (key.map UInt8.toNat) ++ [0] = (key ++ [0]).map UInt8.toNat := by simp
  rw [Above, Above, hzero, List.prefix_map_iff_of_injective hinj, hinj.list_map.eq_iff]

theorem collide_iff (hjoins : env.Joins text) {key key' : List UInt8} :
  collide env key key' = true ↔ Above 0 key key'
  := by
  rw [collide, Bool.or_eq_true, decide_eq_true_eq, hjoins.isPathPrefix]
  rfl

/-- No neighbours in the order of the keys collide exactly when no two keys do. -/
theorem neighbours_iff (hjoins : env.Joins text) {keys : List (List UInt8)} :
  ¬((keys.insertionSort bytesLe).zip (keys.insertionSort bytesLe).tail).any
      (fun pair => collide env pair.1 pair.2) = true
    ↔ keys.Pairwise fun key key' => ¬Above 0 key key' ∧ ¬Above 0 key' key
  := by
  have hsymm : ∀ {key key' : List UInt8}, ¬Above 0 key key' ∧ ¬Above 0 key' key →
      ¬Above 0 key' key ∧ ¬Above 0 key key' := And.symm
  have hperm := List.perm_insertionSort bytesLe keys
  have hsorted := List.pairwise_insertionSort bytesLe keys
  rw [← hperm.pairwise_iff hsymm, List.any_eq_true]
  constructor
  · intro hbeside
    have hpairwise : ((keys.insertionSort bytesLe).map (List.map UInt8.toNat)).Pairwise
        fun key key' => ¬Above 0 key key' := by
      apply pairwise_of_neighbours Nat.zero_le
      · exact List.pairwise_map.mpr hsorted
      · intro pair hpair habove
        rw [← List.map_tail, List.zip_map] at hpair
        obtain ⟨pair', hpair', rfl⟩ := List.mem_map.mp hpair
        exact hbeside ⟨pair', hpair', (collide_iff hjoins).mpr (above_map_iff.mp habove)⟩
    rw [List.pairwise_map] at hpairwise
    refine (hpairwise.and hsorted).imp ?_
    rintro key key' ⟨hnot, hle⟩
    have hnot : ¬Above 0 key key' := fun h => hnot (above_map_iff.mpr h)
    refine ⟨hnot, ?_⟩
    rintro (rfl | ⟨rest, rfl⟩)
    · exact hnot (Or.inl rfl)
    · -- The longer key comes later.
      have hback : bytesLe key' (key' ++ [0] ++ rest) := by
        rw [bytesLe, List.append_assoc, List.map_append]
        exact le_append _ _
      apply hnot
      exact Or.inl (bytesLe_antisymm hle hback)
  · rintro hpairwise ⟨pair, hpair, hcollide⟩
    exact (mem_zip_tail hpair hpairwise).1 ((collide_iff hjoins).mp hcollide)

/-- Names are admitted together when each is admitted alone and no folded path comes first in
another, whatever their order. -/
theorem admitPortablePaths_iff (env : ManifestEnv) (text : List Char → List Char)
    (hjoins : env.Joins text) (names : List (List Char)) :
  (admitPortablePaths env names = .ok ()
    ↔ (∀ name ∈ names, admitPortablePaths env [name] = .ok ())
      ∧ names.Pairwise fun name name' =>
          ¬foldedPath env text name <+: foldedPath env text name'
            ∧ ¬foldedPath env text name' <+: foldedPath env text name)
  ∧ ∀ names', names.Perm names' →
      (admitPortablePaths env names = .ok () ↔ admitPortablePaths env names' = .ok ())
  := by
  have hiff : ∀ names, admitPortablePaths env names = .ok ()
      ↔ (∀ name ∈ names, Admissible env name)
        ∧ names.Pairwise fun name name' =>
            ¬foldedPath env text name <+: foldedPath env text name'
              ∧ ¬foldedPath env text name' <+: foldedPath env text name := by
    intro names
    have hkeyed : ∀ keys : List (List UInt8), names.mapM (foldedKey env) = .ok keys →
        ((keys.Pairwise fun key key' => ¬Above 0 key key' ∧ ¬Above 0 key' key)
          ↔ names.Pairwise fun name name' =>
            ¬foldedPath env text name <+: foldedPath env text name'
              ∧ ¬foldedPath env text name' <+: foldedPath env text name) := by
      intro keys hkeys
      have hmap := Fallible.map_of_mapM_eq_ok hkeys
      have heach := (Fallible.exists_of_map_ok hmap).2
      have hpath : ∀ name, foldedPath env text name ≠ [] := by
        intro name
        simp [foldedPath]
      have hkeys' : keys = names.map fun name => utf8 (join '\x00' (foldedPath env text name)) := by
        have hid : keys.map id
            = names.map fun name => utf8 (join '\x00' (foldedPath env text name)) :=
          Fallible.map_of_map_ok hmap fun name key hkey => (foldedKey_eq hjoins hkey).1
        rwa [List.map_id] at hid
      rw [hkeys', List.pairwise_map]
      apply List.Pairwise.iff_of_mem
      intro name name' hname hname'
      obtain ⟨_, _, hkey⟩ := heach name hname
      obtain ⟨_, _, hkey'⟩ := heach name' hname'
      have hparts := (foldedKey_eq hjoins hkey).2
      have hparts' := (foldedKey_eq hjoins hkey').2
      rw [above_key_iff (hpath name) (hpath name') hparts hparts',
        above_key_iff (hpath name') (hpath name) hparts' hparts]
    constructor
    · intro h
      obtain ⟨keys, hkeys, hrequire⟩ := Fallible.bind_eq_ok.mp h
      constructor
      · intro name hname
        obtain ⟨key, _, hkey⟩ :=
          (Fallible.exists_of_map_ok (Fallible.map_of_mapM_eq_ok hkeys)).2 name hname
        exact ⟨key, hkey⟩
      · exact (hkeyed keys hkeys).mp
          ((neighbours_iff hjoins).mp (Fallible.require_eq_ok.mp hrequire))
    · rintro ⟨hadmissible, hpairwise⟩
      choose! key hkey using hadmissible
      have hkeys := Fallible.mapM_of_forall hkey
      exact Fallible.bind_eq_ok.mpr ⟨_, hkeys, Fallible.require_eq_ok.mpr
        ((neighbours_iff hjoins).mpr ((hkeyed _ hkeys).mpr hpairwise))⟩
  constructor
  · rw [hiff]
    simp only [admissible_iff]
  · intro names' hperm
    rw [hiff, hiff, hperm.pairwise_iff And.symm]
    simp only [hperm.mem_iff]

/-- Names of small letters of ASCII. -/
def joinedPaths : ManifestEnv where
  nfc := id
  toFoldedCase := id
  portable := fun components =>
    if ∃ component ∈ components, '\x00' ∈ component then throw "ControlCharacter" else pure ()
  canonicalKey := fun name => some (utf8 name)
  canonicalPathKey := fun components => some (utf8 (join '\x00' components))
  isPathPrefix := fun key key' => decide (key ++ [0] <+: key')

theorem joinedPaths_joins :
  joinedPaths.Joins id
  where
  portable := by
    intro components h component hcomponent hzero
    have hsome : ∃ component ∈ components, '\x00' ∈ component := ⟨component, hcomponent, hzero⟩
    have h : (if ∃ component ∈ components, '\x00' ∈ component then throw "ControlCharacter"
        else pure ()) = Except.ok () := h
    rw [if_pos hsome] at h
    cases h
  texts := fun _ h => h
  key := by
    intro components key h
    rw [List.map_id]
    exact (Option.some.inj h).symm
  fold := fun _ h => h
  foldJoin := by
    intro names _
    change _ = join '\x00' (names.map id)
    rw [List.map_id]
    rfl
  isPathPrefix := fun _ _ => decide_eq_true_iff

/-- A folder and a file of the same name are refused, however they are listed. -/
theorem admitPortablePaths_folder :
  admitPortablePaths joinedPaths ["a".toList, "b".toList, "a/c".toList] ≠ .ok ()
    ∧ (admitPortablePaths joinedPaths ["a".toList, "b".toList, "a/c".toList] = .ok ()
      ↔ admitPortablePaths joinedPaths ["a/c".toList, "b".toList, "a".toList] = .ok ())
  := by
  obtain ⟨hadmits, hperm⟩ := admitPortablePaths_iff joinedPaths id joinedPaths_joins
    ["a".toList, "b".toList, "a/c".toList]
  refine ⟨fun h => ?_, hperm _ (by decide)⟩
  exact absurd (hadmits.mp h).2 (by decide)

end Votport
