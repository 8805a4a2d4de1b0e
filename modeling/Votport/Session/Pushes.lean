import Votport.Protocol.Collisions
import Votport.Protocol.Paths
import Votport.Session.Prepare

/-!
# Two transports

A manifest is admitted by the worker of the browser uploads and by that of the native pushes, each
in its own way.  The second reads the records of a package, whose paths may have raw bytes.  Both
pass the same destinations on.
-/

namespace Votport

/-! ### Manifests -/

/-- An object as the protocol counts it. -/
structure WireObject where
  suite : ℕ
  root : List UInt8
  length : UInt64
deriving DecidableEq

/-- `SessionError`, by the status it is answered with. -/
inductive SessionError where
  | bad (message : String)
  | conflict (message : String)
  | internal (message : String)
deriving DecidableEq

/-- How the bytes of an entry are stored. -/
inductive EntryStorage where
  | direct
  | pack
deriving DecidableEq

/-- An entry of the pages of a manifest. -/
structure PageEntry where
  storage : EntryStorage
  path : List (List Char)
  object : WireObject

/-- `vot_manifest::Component`. -/
inductive PathComponent where
  | text (text : List Char)
  | bytes (bytes : List UInt8)

/-- `vot_cli::EntryRecord`. -/
structure EntryRecord where
  storage : EntryStorage
  path : List PathComponent
  suite : ℕ
  logicalRoot : List UInt8
  logicalLength : UInt64

/-- `vot_cli::PackageSummary`. -/
structure PackageSummary where
  root : List UInt8
  logicalLength : UInt64
  entries : ℕ

/-- The record of an entry. -/
def PageEntry.record (entry : PageEntry) : EntryRecord where
  storage := entry.storage
  path := entry.path.map .text
  suite := entry.object.suite
  logicalRoot := entry.object.root
  logicalLength := entry.object.length

/-- A path and the object that goes there. -/
abbrev Destination : Type := List (List Char) × WireObject

def PageEntry.destination (entry : PageEntry) : Destination := (entry.path, entry.object)

/-- The record of an entry has all that the entry has. -/
theorem PageEntry.record_injective :
  Function.Injective PageEntry.record
  := by
  rintro ⟨storage, path, ⟨suite, root, length⟩⟩ ⟨storage', path', ⟨suite', root', length'⟩⟩ h
  obtain ⟨rfl, hpath, rfl, rfl, rfl⟩ := EntryRecord.mk.inj h
  have htexts : Function.Injective PathComponent.text := fun _ _ => PathComponent.text.inj
  obtain rfl := htexts.list_map hpath
  rfl

/-- The path of a destination. -/
def Destination.name (destination : Destination) : List Char :=
  Listings.join '/' destination.1

/-- What a worker has been set up with, and what it reads of the store: the manifest of the route of
the session with the time it was revoked, and whether the link is there. -/
structure WorkerSetup where
  maxTotalBytes : UInt64
  allowHidden : Bool
  expectedPackage : WireObject
  inboundRoute : Except String (Option (String × Option ℤ))
  linkMetadata : Except String Bool

/-- What the crates do: the roots of empty objects, and the digests of manifests. -/
structure TransportEnv extends ManifestEnv where
  emptyRoot : ℕ → Except SessionError (List UInt8)
  routeManifest : List (List Char × WireObject) → String

/-! ### Shared checks -/

/-- `ENTRY_ADMISSION_BYTES`. -/
def entryAdmissionBytes : ℕ := 4096

/-- `ENTRY_ADMISSION_FLOOR`. -/
def entryAdmissionFloor : ℕ := 256

/-- `max_entries_for_bytes`. -/
def maxEntriesForBytes (maxTotalBytes : UInt64) : ℕ :=
  min (maxTotalBytes.toNat / entryAdmissionBytes + entryAdmissionFloor) maxSessionEntries

/-- `entry_count_within_limit`. -/
def entryCountWithinLimit (count : ℕ) (maxTotalBytes : UInt64) : Prop :=
  count ≤ maxEntriesForBytes maxTotalBytes

instance {count : ℕ} {maxTotalBytes : UInt64} :
    Decidable (entryCountWithinLimit count maxTotalBytes) :=
  inferInstanceAs (Decidable (count ≤ maxEntriesForBytes maxTotalBytes))

/-- `validate_empty_object`. -/
def validateEmptyObject (env : TransportEnv) (object : WireObject) : Except SessionError Unit :=
  if object.length ≠ 0 then .ok ()
  else do
    let root ← env.emptyRoot object.suite
    Fallible.require (root = object.root) (.bad "empty object root is not canonical")

/-- `u64::checked_add`. -/
def checkedAdd (a b : UInt64) : Option UInt64 :=
  if a.toNat + b.toNat < 2 ^ 64 then some (a + b) else none

/-- `check_route_manifest`. -/
def checkRouteManifest (setup : WorkerSetup) (manifest : String) : Except String Unit := do
  match ← setup.inboundRoute with
  | none => return ()
  | some (expected, revokedAt) =>
      Fallible.require (revokedAt = none ∧ expected = manifest)
        "route manifest does not match its source evidence or route was revoked"

/-! ### Browser uploads -/

/-- What `handle_begin` does with an entry. -/
def beginEntry (env : TransportEnv) (setup : WorkerSetup) (total : UInt64) (entry : PageEntry) :
    Except SessionError UInt64 := do
  Fallible.require (entry.storage = .direct) (.bad "packed entries are not supported by votport")
  entry.path.forM fun component =>
    (admitComponent env.toPathEnv component setup.allowHidden).mapError .bad
  validateEmptyObject env entry.object
  Fallible.present (checkedAdd total entry.object.length) (.bad "total upload size overflows")

/-- `handle_begin` after the pages, up to the destinations that it prepares.  `finish` is what the
ingest of the pages ends with. -/
def handleBegin (env : TransportEnv) (setup : WorkerSetup) (finish : Except String PackageSummary)
    (entries : List PageEntry) : Except SessionError (List Destination) := do
  let summary ← finish.mapError fun code => .bad s!"manifest rejected: {code}"
  Fallible.require (summary.entries = entries.length)
    (.bad "package entry count does not match manifest")
  Fallible.require (entryCountWithinLimit entries.length setup.maxTotalBytes)
    (.bad s!"package exceeds {maxEntriesForBytes setup.maxTotalBytes} entries")
  let total ← entries.foldlM (beginEntry env setup) 0
  (admitPortablePaths env.toManifestEnv
    (entries.map fun entry => Listings.join '/' entry.path)).mapError .bad
  Fallible.require (total ≤ setup.maxTotalBytes)
    (.bad
      s!"upload of {total} bytes exceeds the {setup.maxTotalBytes} byte limit for this link")
  (checkRouteManifest setup
    (env.routeManifest
      (entries.map fun entry => (Listings.join '/' entry.path, entry.object)))).mapError .bad
  let link ← setup.linkMetadata.mapError fun error => .internal s!"link read failed: {error}"
  Fallible.require (link = true) (.conflict "request link no longer exists")
  return entries.map PageEntry.destination

/-! ### Native pushes -/

/-- The text of a component of a record. -/
def admitText (env : TransportEnv) (setup : WorkerSetup) (component : PathComponent) :
    Except SessionError (List Char) :=
  match component with
  | .text text => do
      (admitComponent env.toPathEnv text setup.allowHidden).mapError .bad
      return text
  | .bytes _ => .error (.bad "raw byte paths are not supported by votport")

/-- What `validate_push_manifest` does with a record. -/
def pushRecord (env : TransportEnv) (setup : WorkerSetup) (state : UInt64 × List Destination)
    (record : EntryRecord) : Except SessionError (UInt64 × List Destination) := do
  Fallible.require (record.storage = .direct) (.bad "packed entries are not supported by votport")
  let components ← record.path.mapM (admitText env setup)
  let object : WireObject := ⟨record.suite, record.logicalRoot, record.logicalLength⟩
  validateEmptyObject env object
  let total ← Fallible.present (checkedAdd state.1 object.length)
    (.bad "total upload size overflows")
  return (total, state.2 ++ [(components, object)])

/-- `validate_push_manifest`. -/
def validatePushManifest (env : TransportEnv) (setup : WorkerSetup) (summary : PackageSummary)
    (records : List EntryRecord) : Except SessionError (List Destination) := do
  Fallible.require
    (summary.root = setup.expectedPackage.root
      ∧ summary.logicalLength = setup.expectedPackage.length)
    (.bad "push manifest does not match the admitted package")
  let maxEntries := maxEntriesForBytes setup.maxTotalBytes
  Fallible.require
    (records ≠ [] ∧ records.length ≤ maxEntries ∧ summary.entries = records.length)
    (.bad s!"package entry count is outside 1..={maxEntries}")
  let (total, validated) ← records.foldlM (pushRecord env setup) (0, [])
  (admitPortablePaths env.toManifestEnv (validated.map Destination.name)).mapError .bad
  Fallible.require (total = summary.logicalLength)
    (.bad "manifest logical length does not match its entries")
  Fallible.require (total ≤ setup.maxTotalBytes)
    (.bad
      s!"upload of {total} bytes exceeds the {setup.maxTotalBytes} byte limit for this link")
  (checkRouteManifest setup
    (env.routeManifest
      (validated.map fun destination => (destination.name, destination.2)))).mapError .bad
  return validated

/-! ### What is admitted -/

variable {env : TransportEnv} {setup : WorkerSetup} {entry : PageEntry} {entries : List PageEntry}
  {record : EntryRecord} {records : List EntryRecord} {total total' : UInt64}
  {destinations : List Destination} {state : UInt64 × List Destination}

theorem checkedAdd_eq_some {a b c : UInt64} :
  checkedAdd a b = some c ↔ a.toNat + b.toNat = c.toNat
  := by
  unfold checkedAdd
  split_ifs with hfits
  · rw [Option.some_inj, ← UInt64.toNat_inj, UInt64.toNat_add, Nat.mod_eq_of_lt hfits]
  · refine iff_of_false (by simp) fun h => hfits ?_
    rw [h]
    exact c.toNat_lt

/-- An entry that both transports take. -/
structure AdmissibleEntry (env : TransportEnv) (setup : WorkerSetup) (entry : PageEntry) :
    Prop where
  direct : entry.storage = .direct
  components : ∀ component ∈ entry.path,
    admitComponent env.toPathEnv component setup.allowHidden = .ok ()
  empty : validateEmptyObject env entry.object = .ok ()

theorem forM_admitComponent {path : List (List Char)} :
  (path.forM fun component =>
      (admitComponent env.toPathEnv component setup.allowHidden).mapError SessionError.bad) = .ok ()
    ↔ ∀ component ∈ path, admitComponent env.toPathEnv component setup.allowHidden = .ok ()
  := by
  rw [Fallible.forM_eq_ok]
  simp only [Fallible.mapError_eq_ok]

theorem beginEntry_eq_ok :
  beginEntry env setup total entry = .ok total'
    ↔ AdmissibleEntry env setup entry ∧ checkedAdd total entry.object.length = some total'
  := by
  constructor
  · intro h
    obtain ⟨_, hdirect, h⟩ := Fallible.bind_eq_ok.mp h
    obtain ⟨_, hpath, h⟩ := Fallible.bind_eq_ok.mp h
    obtain ⟨_, hempty, h⟩ := Fallible.bind_eq_ok.mp h
    exact ⟨⟨Fallible.require_eq_ok.mp hdirect, forM_admitComponent.mp hpath, hempty⟩,
      Fallible.present_eq_ok.mp h⟩
  · rintro ⟨⟨hdirect, hpath, hempty⟩, htotal⟩
    refine Fallible.bind_eq_ok.mpr ⟨(), Fallible.require_eq_ok.mpr hdirect, ?_⟩
    refine Fallible.bind_eq_ok.mpr ⟨(), forM_admitComponent.mpr hpath, ?_⟩
    exact Fallible.bind_eq_ok.mpr ⟨(), hempty, Fallible.present_eq_ok.mpr htotal⟩

theorem admitText_eq_ok {component : PathComponent} {text : List Char} :
  admitText env setup component = .ok text
    ↔ component = .text text ∧ admitComponent env.toPathEnv text setup.allowHidden = .ok ()
  := by
  cases component with
  | text text' =>
      constructor
      · intro h
        obtain ⟨_, hadmit, h⟩ := Fallible.bind_eq_ok.mp h
        cases h
        exact ⟨rfl, Fallible.mapError_eq_ok.mp hadmit⟩
      · rintro ⟨htext, hadmit⟩
        cases htext
        exact Fallible.bind_eq_ok.mpr ⟨(), Fallible.mapError_eq_ok.mpr hadmit, rfl⟩
  | bytes bytes => exact iff_of_false (by intro h; cases h) (by rintro ⟨h, _⟩; cases h)

theorem mapM_admitText {path : List PathComponent} {components : List (List Char)} :
  path.mapM (admitText env setup) = .ok components
    ↔ path = components.map .text
      ∧ ∀ component ∈ components,
          admitComponent env.toPathEnv component setup.allowHidden = .ok ()
  := by
  constructor
  · intro h
    have hmap := Fallible.map_of_mapM_eq_ok h
    refine ⟨?_, ?_⟩
    · have hback : components.map PathComponent.text = path.map id :=
        Fallible.map_of_map_ok hmap fun component text htext => (admitText_eq_ok.mp htext).1.symm
      rw [hback, List.map_id]
    · intro component hmem
      obtain ⟨_, _, htext⟩ := (Fallible.exists_of_map_ok hmap).1 component hmem
      exact (admitText_eq_ok.mp htext).2
  · rintro ⟨rfl, hadmit⟩
    rw [List.mapM_map]
    have htexts := Fallible.mapM_of_forall (f := fun text => admitText env setup (.text text))
      (g := id) fun text hmem => admitText_eq_ok.mpr ⟨rfl, hadmit text hmem⟩
    rw [List.map_id] at htexts
    exact htexts

/-- A record is taken when it is that of an entry which is. -/
theorem pushRecord_eq_ok {state' : UInt64 × List Destination} :
  pushRecord env setup state record = .ok state'
    ↔ ∃ entry : PageEntry, record = entry.record ∧ beginEntry env setup state.1 entry = .ok state'.1
        ∧ state'.2 = state.2 ++ [entry.destination]
  := by
  constructor
  · intro h
    obtain ⟨_, hdirect, h⟩ := Fallible.bind_eq_ok.mp h
    obtain ⟨components, hpath, h⟩ := Fallible.bind_eq_ok.mp h
    obtain ⟨_, hempty, h⟩ := Fallible.bind_eq_ok.mp h
    obtain ⟨total, htotal, h⟩ := Fallible.bind_eq_ok.mp h
    cases h
    obtain ⟨htexts, hadmit⟩ := mapM_admitText.mp hpath
    obtain ⟨storage, path, suite, root, length⟩ := record
    refine ⟨⟨storage, components, suite, root, length⟩, ?_, ?_, rfl⟩
    · rw [PageEntry.record, ← htexts]
    · exact beginEntry_eq_ok.mpr
        ⟨⟨Fallible.require_eq_ok.mp hdirect, hadmit, hempty⟩, Fallible.present_eq_ok.mp htotal⟩
  · rintro ⟨entry, rfl, hbegin, hstate⟩
    obtain ⟨⟨hdirect, hadmit, hempty⟩, htotal⟩ := beginEntry_eq_ok.mp hbegin
    refine Fallible.bind_eq_ok.mpr ⟨(), Fallible.require_eq_ok.mpr hdirect, ?_⟩
    refine Fallible.bind_eq_ok.mpr ⟨entry.path, mapM_admitText.mpr ⟨rfl, hadmit⟩, ?_⟩
    refine Fallible.bind_eq_ok.mpr ⟨(), hempty, ?_⟩
    refine Fallible.bind_eq_ok.mpr ⟨state'.1, Fallible.present_eq_ok.mpr htotal, ?_⟩
    obtain ⟨total, validated⟩ := state'
    cases hstate
    rfl

/-- The two loops go through a manifest together. -/
theorem foldlM_pushRecord {state' : UInt64 × List Destination} :
  records.foldlM (pushRecord env setup) state = .ok state'
    ↔ ∃ entries : List PageEntry, records = entries.map PageEntry.record
        ∧ entries.foldlM (beginEntry env setup) state.1 = .ok state'.1
        ∧ state'.2 = state.2 ++ entries.map PageEntry.destination
  := by
  induction records generalizing state with
  | nil =>
      rw [Fallible.foldlM_nil_eq_ok]
      constructor
      · rintro rfl
        exact ⟨[], rfl, rfl, (List.append_nil _).symm⟩
      · rintro ⟨entries, hrecords, hfold, hstate⟩
        obtain rfl := List.map_eq_nil_iff.mp hrecords.symm
        rw [List.map_nil, List.append_nil] at hstate
        exact Prod.ext (Fallible.foldlM_nil_eq_ok.mp hfold) hstate.symm
  | cons record records ih =>
      rw [Fallible.foldlM_cons_eq_ok]
      constructor
      · rintro ⟨middle, hfirst, hrest⟩
        obtain ⟨entry, rfl, hbegin, hmiddle⟩ := pushRecord_eq_ok.mp hfirst
        obtain ⟨entries, rfl, hfold, hstate⟩ := ih.mp hrest
        refine ⟨entry :: entries, rfl, Fallible.foldlM_cons_eq_ok.mpr ⟨_, hbegin, hfold⟩, ?_⟩
        rw [hstate, hmiddle, List.append_assoc, List.map_cons, List.singleton_append]
      · rintro ⟨entries, hrecords, hfold, hstate⟩
        cases entries with
        | nil => cases hrecords
        | cons entry entries =>
            obtain ⟨hrecord, hrecords⟩ := List.cons_eq_cons.mp hrecords
            obtain ⟨middle, hbegin, hfold⟩ := Fallible.foldlM_cons_eq_ok.mp hfold
            refine ⟨(middle, state.2 ++ [entry.destination]), ?_, ?_⟩
            · exact pushRecord_eq_ok.mpr ⟨entry, hrecord, hbegin, rfl⟩
            · refine ih.mpr ⟨entries, hrecords, hfold, ?_⟩
              rw [hstate, List.append_assoc, List.map_cons, List.singleton_append]

/-- The total is the sum of the lengths, so it fits a word. -/
theorem foldlM_beginEntry_total (h : entries.foldlM (beginEntry env setup) total = .ok total') :
  total'.toNat = total.toNat + (entries.map fun entry => entry.object.length.toNat).sum
  := by
  induction entries generalizing total with
  | nil => rw [Fallible.foldlM_nil_eq_ok.mp h, List.map_nil, List.sum_nil, Nat.add_zero]
  | cons entry entries ih =>
      obtain ⟨middle, hbegin, hrest⟩ := Fallible.foldlM_cons_eq_ok.mp h
      have hmiddle := checkedAdd_eq_some.mp (beginEntry_eq_ok.mp hbegin).2
      rw [ih hrest, ← hmiddle, List.map_cons, List.sum_cons, Nat.add_assoc]

/-! ### The two admissions -/

variable {summary : PackageSummary}

/-- What both check of a manifest once its entries have been gone through. -/
structure Admitted (env : TransportEnv) (setup : WorkerSetup) (entries : List PageEntry)
    (total : UInt64) : Prop where
  fold : entries.foldlM (beginEntry env setup) 0 = .ok total
  portable : admitPortablePaths env.toManifestEnv
    (entries.map fun entry => Listings.join '/' entry.path) = .ok ()
  limit : total ≤ setup.maxTotalBytes
  route : checkRouteManifest setup (env.routeManifest
    (entries.map fun entry => (Listings.join '/' entry.path, entry.object))) = .ok ()

theorem handleBegin_eq_ok {finish : Except String PackageSummary} :
  handleBegin env setup finish entries = .ok destinations
    ↔ (∃ summary, finish = .ok summary ∧ summary.entries = entries.length)
      ∧ entryCountWithinLimit entries.length setup.maxTotalBytes
      ∧ (∃ total, Admitted env setup entries total)
      ∧ setup.linkMetadata = .ok true
      ∧ destinations = entries.map PageEntry.destination
  := by
  constructor
  · intro h
    obtain ⟨summary, hfinish, h⟩ := Fallible.bind_eq_ok.mp h
    obtain ⟨_, hentries, h⟩ := Fallible.bind_eq_ok.mp h
    obtain ⟨_, hcount, h⟩ := Fallible.bind_eq_ok.mp h
    obtain ⟨total, hfold, h⟩ := Fallible.bind_eq_ok.mp h
    obtain ⟨_, hportable, h⟩ := Fallible.bind_eq_ok.mp h
    obtain ⟨_, hlimit, h⟩ := Fallible.bind_eq_ok.mp h
    obtain ⟨_, hroute, h⟩ := Fallible.bind_eq_ok.mp h
    obtain ⟨link, hlink, h⟩ := Fallible.bind_eq_ok.mp h
    obtain ⟨_, hthere, h⟩ := Fallible.bind_eq_ok.mp h
    cases h
    obtain rfl := Fallible.require_eq_ok.mp hthere
    exact ⟨⟨summary, Fallible.mapError_eq_ok.mp hfinish, Fallible.require_eq_ok.mp hentries⟩,
      Fallible.require_eq_ok.mp hcount,
      ⟨total, hfold, Fallible.mapError_eq_ok.mp hportable, Fallible.require_eq_ok.mp hlimit,
        Fallible.mapError_eq_ok.mp hroute⟩,
      Fallible.mapError_eq_ok.mp hlink, rfl⟩
  · rintro ⟨⟨summary, hfinish, hentries⟩, hcount, ⟨total, hfold, hportable, hlimit, hroute⟩, hlink,
      rfl⟩
    refine Fallible.bind_eq_ok.mpr ⟨summary, Fallible.mapError_eq_ok.mpr hfinish, ?_⟩
    refine Fallible.bind_eq_ok.mpr ⟨(), Fallible.require_eq_ok.mpr hentries, ?_⟩
    refine Fallible.bind_eq_ok.mpr ⟨(), Fallible.require_eq_ok.mpr hcount, ?_⟩
    refine Fallible.bind_eq_ok.mpr ⟨total, hfold, ?_⟩
    refine Fallible.bind_eq_ok.mpr ⟨(), Fallible.mapError_eq_ok.mpr hportable, ?_⟩
    refine Fallible.bind_eq_ok.mpr ⟨(), Fallible.require_eq_ok.mpr hlimit, ?_⟩
    refine Fallible.bind_eq_ok.mpr ⟨(), Fallible.mapError_eq_ok.mpr hroute, ?_⟩
    refine Fallible.bind_eq_ok.mpr ⟨true, Fallible.mapError_eq_ok.mpr hlink, ?_⟩
    exact Fallible.bind_eq_ok.mpr ⟨(), Fallible.require_eq_ok.mpr rfl, rfl⟩

theorem validatePushManifest_eq_ok :
  validatePushManifest env setup summary records = .ok destinations
    ↔ ∃ (entries : List PageEntry) (total : UInt64), records = entries.map PageEntry.record
      ∧ (summary.root = setup.expectedPackage.root
        ∧ summary.logicalLength = setup.expectedPackage.length)
      ∧ (entries ≠ [] ∧ entries.length ≤ maxEntriesForBytes setup.maxTotalBytes
        ∧ summary.entries = entries.length)
      ∧ Admitted env setup entries total
      ∧ total = summary.logicalLength
      ∧ destinations = entries.map PageEntry.destination
  := by
  constructor
  · intro h
    obtain ⟨_, hexpected, h⟩ := Fallible.bind_eq_ok.mp h
    obtain ⟨_, hcount, h⟩ := Fallible.bind_eq_ok.mp h
    obtain ⟨⟨total, validated⟩, hfold, h⟩ := Fallible.bind_eq_ok.mp h
    obtain ⟨_, hportable, h⟩ := Fallible.bind_eq_ok.mp h
    obtain ⟨_, htotal, h⟩ := Fallible.bind_eq_ok.mp h
    obtain ⟨_, hlimit, h⟩ := Fallible.bind_eq_ok.mp h
    obtain ⟨_, hroute, h⟩ := Fallible.bind_eq_ok.mp h
    cases h
    obtain ⟨entries, rfl, hfold, hvalidated⟩ := foldlM_pushRecord.mp hfold
    have hvalidated : destinations = entries.map PageEntry.destination := hvalidated
    have hcount := Fallible.require_eq_ok.mp hcount
    rw [List.length_map, Ne, List.map_eq_nil_iff] at hcount
    rw [hvalidated, List.map_map] at hportable hroute
    exact ⟨entries, total, rfl, Fallible.require_eq_ok.mp hexpected, hcount,
      ⟨hfold, Fallible.mapError_eq_ok.mp hportable, Fallible.require_eq_ok.mp hlimit,
        Fallible.mapError_eq_ok.mp hroute⟩,
      Fallible.require_eq_ok.mp htotal, hvalidated⟩
  · rintro ⟨entries, total, rfl, hexpected, hcount, ⟨hfold, hportable, hlimit, hroute⟩, htotal, rfl⟩
    have hrecords : entries.map PageEntry.record ≠ []
        ∧ (entries.map PageEntry.record).length ≤ maxEntriesForBytes setup.maxTotalBytes
        ∧ summary.entries = (entries.map PageEntry.record).length := by
      rw [List.length_map, Ne, List.map_eq_nil_iff]
      exact hcount
    have hvalidated : (entries.map PageEntry.record).foldlM (pushRecord env setup) (0, [])
        = .ok (total, entries.map PageEntry.destination) :=
      foldlM_pushRecord.mpr ⟨entries, rfl, hfold, rfl⟩
    refine Fallible.bind_eq_ok.mpr ⟨(), Fallible.require_eq_ok.mpr hexpected, ?_⟩
    refine Fallible.bind_eq_ok.mpr ⟨(), Fallible.require_eq_ok.mpr hrecords, ?_⟩
    refine Fallible.bind_eq_ok.mpr ⟨_, hvalidated, ?_⟩
    refine Fallible.bind_eq_ok.mpr ⟨(), Fallible.mapError_eq_ok.mpr ?_, ?_⟩
    · rw [List.map_map]
      exact hportable
    refine Fallible.bind_eq_ok.mpr ⟨(), Fallible.require_eq_ok.mpr htotal, ?_⟩
    refine Fallible.bind_eq_ok.mpr ⟨(), Fallible.require_eq_ok.mpr hlimit, ?_⟩
    refine Fallible.bind_eq_ok.mpr ⟨(), Fallible.mapError_eq_ok.mpr ?_, rfl⟩
    rw [List.map_map]
    exact hroute

/-- What a push asks of a manifest beyond its entries: that it has some, and that it is the package
which was announced. -/
structure Announced (setup : WorkerSetup) (summary : PackageSummary) (entries : List PageEntry) :
    Prop where
  nonempty : entries ≠ []
  root : summary.root = setup.expectedPackage.root
  length : summary.logicalLength = setup.expectedPackage.length
  total : (entries.map fun entry => entry.object.length.toNat).sum = summary.logicalLength.toNat

theorem Admitted.total_toNat (h : Admitted env setup entries total) :
  total.toNat = (entries.map fun entry => entry.object.length.toNat).sum
  := by
  have htotal := foldlM_beginEntry_total h.fold
  rw [UInt64.toNat_zero, Nat.zero_add] at htotal
  exact htotal

/-- A push takes the manifests that a browser upload takes while the link is there, among those that
have entries and are the announced package, and passes the same destinations on.  Neither takes a
manifest that is longer than the limit, or whose names collide. -/
theorem transports_agree (env : TransportEnv) (setup : WorkerSetup) (summary : PackageSummary) :
  (∀ records destinations,
    (validatePushManifest env setup summary records = .ok destinations
        ∧ setup.linkMetadata = .ok true)
      ↔ ∃ entries : List PageEntry, records = entries.map PageEntry.record
        ∧ Announced setup summary entries
        ∧ handleBegin env setup (.ok summary) entries = .ok destinations)
  ∧ (∀ finish entries destinations,
    (handleBegin env setup finish entries = .ok destinations
        ∨ validatePushManifest env setup summary (entries.map PageEntry.record) = .ok destinations)
      → (entries.map fun entry => entry.object.length.toNat).sum ≤ setup.maxTotalBytes.toNat
        ∧ admitPortablePaths env.toManifestEnv
            (entries.map fun entry => Listings.join '/' entry.path) = .ok ()
        ∧ destinations = entries.map PageEntry.destination)
  := by
  refine ⟨fun records destinations => ⟨?_, ?_⟩, ?_⟩
  · rintro ⟨hpush, hlink⟩
    obtain ⟨entries, total, rfl, ⟨hroot, hlength⟩, ⟨hne, hcount, hentries⟩, hadmitted, htotal,
      hdestinations⟩ := validatePushManifest_eq_ok.mp hpush
    refine ⟨entries, rfl, ⟨hne, hroot, hlength, ?_⟩, ?_⟩
    · rw [← hadmitted.total_toNat, htotal]
    · exact handleBegin_eq_ok.mpr
        ⟨⟨summary, rfl, hentries⟩, hcount, ⟨total, hadmitted⟩, hlink, hdestinations⟩
  · rintro ⟨entries, rfl, ⟨hne, hroot, hlength, hsum⟩, hbegin⟩
    obtain ⟨⟨_, hfinish, hentries⟩, hcount, ⟨total, hadmitted⟩, hlink, hdestinations⟩ :=
      handleBegin_eq_ok.mp hbegin
    cases hfinish
    have htotal : total = summary.logicalLength := by
      rw [← UInt64.toNat_inj, hadmitted.total_toNat, hsum]
    refine ⟨validatePushManifest_eq_ok.mpr ?_, hlink⟩
    exact ⟨entries, total, rfl, ⟨hroot, hlength⟩, ⟨hne, hcount, hentries⟩, hadmitted, htotal,
      hdestinations⟩
  · intro finish entries destinations haccepted
    obtain ⟨total, hadmitted, hdestinations⟩ : ∃ total, Admitted env setup entries total
        ∧ destinations = entries.map PageEntry.destination := by
      rcases haccepted with hbegin | hpush
      · obtain ⟨_, _, ⟨total, hadmitted⟩, _, hdestinations⟩ := handleBegin_eq_ok.mp hbegin
        exact ⟨total, hadmitted, hdestinations⟩
      · obtain ⟨entries', total, hrecords, _, _, hadmitted, _, hdestinations⟩ :=
          validatePushManifest_eq_ok.mp hpush
        obtain rfl := PageEntry.record_injective.list_map hrecords
        exact ⟨total, hadmitted, hdestinations⟩
    have hlimit : total.toNat ≤ setup.maxTotalBytes.toNat := hadmitted.limit
    rw [hadmitted.total_toNat] at hlimit
    exact ⟨hlimit, hadmitted.portable, hdestinations⟩

/-- A package of one file. -/
def onePackage : PackageSummary := ⟨[], 1, 1⟩

def oneEntry : PageEntry := ⟨.direct, [['a']], ⟨1, [7], 1⟩⟩

/-- A worker for a link that has been deleted. -/
def deletedLink : WorkerSetup := ⟨4096, false, ⟨1, [], 1⟩, .ok none, .ok false⟩

/-- The crates on names of small letters. -/
def joinedTransport : TransportEnv where
  toManifestEnv := joinedPaths
  emptyRoot := fun _ => .ok []
  routeManifest := fun _ => ""

/-- A push of a manifest is still valid when the link has been deleted, and an upload is not. -/
theorem transports_differ :
  validatePushManifest joinedTransport deletedLink onePackage [oneEntry.record]
      = .ok [oneEntry.destination]
    ∧ handleBegin joinedTransport deletedLink (.ok onePackage) [oneEntry]
        = .error (.conflict "request link no longer exists")
  := by
  constructor
  · decide
  · decide

end Votport
