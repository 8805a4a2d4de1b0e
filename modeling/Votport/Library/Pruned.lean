import Votport.Library.Catalogs

/-!
# Only files that nobody names are deleted

The names of catalogs and leaf caches are read back as the objects they are of.  So a file is
deleted exactly when it is one of an object that no row and no cached root names, however the roots
are spelled.
-/

namespace Votport.Library

/-! ### Hexadecimal names -/

theorem hexDigit_of_isLowerHexDigit {c : Char} (h : isLowerHexDigit c = true) :
  ∃ v, hexDigit c = some v
  := by
  unfold hexDigit
  rcases Bool.or_eq_true_iff.mp h with hdigit | hletter
  · have hc : '0' ≤ c ∧ c ≤ '9' := by
      rwa [Char.isDigit, Bool.and_eq_true, decide_eq_true_eq, decide_eq_true_eq] at hdigit
    exact ⟨_, if_pos hc⟩
  · have hc : 'a' ≤ c ∧ c ≤ 'f' := by
      simpa using hletter
    by_cases hdigit : '0' ≤ c ∧ c ≤ '9'
    · exact ⟨_, if_pos hdigit⟩
    · exact ⟨_, (if_neg hdigit).trans (if_pos hc)⟩

theorem hexDecode_of_lowerHex :
  ∀ {n : ℕ} {text : List Char}, text.all isLowerHexDigit = true → text.length = 2 * n →
    ∃ bytes : List UInt8, bytes.length = n ∧ hexDecode text = some bytes
  | 0, text, _, hlength => by
      rw [List.eq_nil_of_length_eq_zero hlength]
      exact ⟨[], rfl, rfl⟩
  | n + 1, [], _, hlength => by
      rw [List.length_nil] at hlength
      omega
  | n + 1, [a], _, hlength => by
      rw [List.length_singleton] at hlength
      omega
  | n + 1, a :: b :: rest, htext, hlength => by
      rw [List.all_cons, List.all_cons, Bool.and_eq_true, Bool.and_eq_true] at htext
      rw [List.length_cons, List.length_cons] at hlength
      obtain ⟨bytes, hbytes, hrest⟩ := hexDecode_of_lowerHex (n := n) htext.2.2 (by omega)
      obtain ⟨high, hhigh⟩ := hexDigit_of_isLowerHexDigit htext.1
      obtain ⟨low, hlow⟩ := hexDigit_of_isLowerHexDigit htext.2.1
      refine ⟨(high * 16 + low) :: bytes, congrArg (· + 1) hbytes, ?_⟩
      rw [hexDecode, hhigh, hlow, hrest]
      rfl

/-- A digit of a hexadecimal text is one of sixteen, and has one byte. -/
theorem lowerHex_hexChar :
  ∀ n : Fin 16, isLowerHexDigit (hexChar n) = true
    ∧ (String.utf8EncodeChar (hexChar n)).length = 1
  := by
  decide

theorem utf8ByteSize_ofList (text : List Char) :
  (String.ofList text).utf8ByteSize = (utf8 text).length
  := by
  rw [← String.size_toByteArray, String.toByteArray_ofList]
  simp [List.utf8Encode, utf8]

/-- The texts with a number of lowercase digits are those of bytes. -/
theorem validHex_iff {n : ℕ} {text : List Char} :
  validHex (String.ofList text) (2 * n) = true
    ↔ ∃ bytes : List UInt8, bytes.length = n ∧ text = (hexEncode bytes).toList
  := by
  unfold validHex
  rw [Bool.and_eq_true, decide_eq_true_eq, utf8ByteSize_ofList]
  constructor
  · rintro ⟨hlength, hlower⟩
    have hall : text.all isLowerHexDigit = true := by
      rwa [lowerHex, String.toList_ofList] at hlower
    have hone : ∀ c ∈ text, (String.utf8EncodeChar c).length = 1 := by
      intro c hc
      obtain ⟨v, hv⟩ := hexDigit_of_isLowerHexDigit (List.all_eq_true.mp hall c hc)
      obtain ⟨hv, hchar⟩ := hexChar_of_lowerHex (List.all_eq_true.mp hall c hc) hv
      rw [← hchar]
      exact (lowerHex_hexChar ⟨v.toNat, hv⟩).2
    rw [length_utf8 hone] at hlength
    obtain ⟨bytes, hbytes, hdecode⟩ := hexDecode_of_lowerHex hall hlength
    refine ⟨bytes, hbytes, ?_⟩
    have hsame := hexEncode_of_hexDecode hlower
      (show hexDecode (String.ofList text).toList = some bytes by rwa [String.toList_ofList])
    rw [hsame, String.toList_ofList]
  · rintro ⟨bytes, rfl, rfl⟩
    rw [String.ofList_toList]
    refine ⟨?_, List.all_eq_true.mpr fun c hc => ?_⟩
    · rw [length_utf8, length_hexEncode]
      intro c hc
      obtain ⟨m, rfl⟩ := mem_hexEncode hc
      exact (lowerHex_hexChar m).2
    · obtain ⟨m, rfl⟩ := mem_hexEncode hc
      exact (lowerHex_hexChar m).1

/-! ### Names of files -/

theorem Suite.number_inj {suite suite' : Suite} (h : suite.number = suite'.number) :
  suite = suite'
  := by
  cases suite <;> cases suite' <;> first | rfl | exact absurd h (by decide)

theorem dash_notMem_decimalDigits (n : ℕ) : '-' ∉ decimalDigits n := by
  intro h
  cases (show '-'.isDigit = false by decide).symm.trans (isDigit_of_mem_decimalDigits h)

theorem CatalogObject.stem_inj {object object' : CatalogObject} (h : object.stem = object'.stem) :
  object = object'
  := by
  obtain ⟨suite, ⟨root, hroot⟩, length⟩ := object
  obtain ⟨suite', ⟨root', hroot'⟩, length'⟩ := object'
  obtain ⟨hsuite, hrest⟩ := List.cons.inj h
  have hlength : (hexEncode root).toList.length = (hexEncode root').toList.length := by
    rw [length_hexEncode, length_hexEncode, hroot, hroot']
  obtain ⟨hname, htail⟩ := List.append_inj (List.cons.inj hrest).2 hlength
  cases Suite.number_inj hsuite
  cases hexEncode_injective (String.toList_inj.mp hname)
  have hdigits := congrArg parseU64 (List.cons.inj htail).2
  rw [parseU64_decimalDigits, parseU64_decimalDigits] at hdigits
  cases hdigits
  rfl

theorem CatalogObject.catalogName_ne_leafName (object object' : CatalogObject) :
  object.catalogName ≠ object'.leafName
  := by
  intro h
  have hlast := congrArg List.reverse h
  rw [catalogName, leafName, List.reverse_append, List.reverse_append] at hlast
  have hfirst : some 'g' = some 's' := congrArg List.head? hlast
  exact absurd hfirst (by decide)

/-- The file is one of the object. -/
def CatalogObject.IsNamed (object : CatalogObject) (name : List Char) : Prop :=
  name = object.catalogName ∨ name = object.leafName

/-- A name is one of the files of one object. -/
theorem CatalogObject.isNamed_inj
    {object object' : CatalogObject} {name : List Char} (h : object.IsNamed name)
    (h' : object'.IsNamed name) :
  object = object'
  := by
  rcases h with rfl | rfl
  · rcases h' with h' | h'
    · exact stem_inj (List.append_cancel_right h')
    · exact absurd h' (catalogName_ne_leafName _ _)
  · rcases h' with h' | h'
    · exact absurd h'.symm (catalogName_ne_leafName _ _)
    · exact stem_inj (List.append_cancel_right h')

/-- The canonical names of catalogs are those that are generated. -/
theorem canonicalCatalogName_iff {name : List Char} :
  canonicalCatalogName name = true ↔ ∃ object : CatalogObject, name = object.catalogName
  := by
  constructor
  · intro h
    unfold canonicalCatalogName at h
    split at h
    case h_1 => cases h
    case h_2 stem hstem =>
      split at h
      case h_1 => cases h
      case h_2 suite rest hsuite =>
        split at h
        case isTrue => cases h
        case isFalse hnumber =>
          split at h
          case h_1 => cases h
          case h_2 root length hroot =>
            split at h
            case isTrue => cases h
            case isFalse hhex =>
              split at h
              case h_1 => cases h
              case h_2 value hvalue =>
                obtain ⟨-, hname⟩ := Bool.and_eq_true_iff.mp h
                have hname := of_decide_eq_true hname
                rw [Bool.not_eq_false] at hhex
                obtain ⟨bytes, hbytes, rfl⟩ := (validHex_iff (n := 32)).mp hhex
                have hsuites : ∃ s : Suite, suite = [s.number] := by
                  by_cases hone : suite = ['1']
                  · exact ⟨.blake3, hone⟩
                  · refine ⟨.sha256, ?_⟩
                    by_contra htwo
                    exact hnumber ⟨hone, htwo⟩
                obtain ⟨s, rfl⟩ := hsuites
                refine ⟨⟨s, ⟨bytes, hbytes⟩, value⟩, ?_⟩
                rw [hname]
                simp [CatalogObject.catalogName, CatalogObject.stem]
  · rintro ⟨object, rfl⟩
    have hdash : object.suite.number ≠ '-' := by
      cases object.suite <;> decide
    have hsplit : Fields.splitOnce '-' object.stem
        = some ([object.suite.number],
          (hexEncode object.root).toList ++ '-' :: decimalDigits object.length.toNat) :=
      Fields.splitOnce_append (x := [object.suite.number])
        (fun h => hdash (List.mem_singleton.mp h).symm) _
    have hrsplit : Fields.rsplitOnce ['-']
        ((hexEncode object.root).toList ++ '-' :: decimalDigits object.length.toNat)
        = some ((hexEncode object.root).toList, decimalDigits object.length.toNat) :=
      @Fields.rsplitOnce_append _ _ '-' [] _ _ (dash_notMem_decimalDigits _)
    have hsuite : ¬([object.suite.number] ≠ ['1'] ∧ [object.suite.number] ≠ ['2']) := by
      cases object.suite <;> decide
    have hhex : validHex (String.ofList (hexEncode object.root).toList) 64 = true :=
      (validHex_iff (n := 32)).mpr ⟨object.root, object.root.2, rfl⟩
    unfold canonicalCatalogName
    rw [CatalogObject.catalogName, Fields.stripSuffix_eq_some.mpr rfl]
    dsimp only
    rw [hsplit]
    dsimp only
    rw [if_neg hsuite, hrsplit]
    dsimp only
    rw [if_neg (by rw [hhex]; decide), parseU64_decimalDigits]
    refine Bool.and_eq_true_iff.mpr ⟨decide_eq_true rfl, decide_eq_true ?_⟩
    simp [CatalogObject.stem]

/-- So are those of leaf caches, which are checked as those of catalogs. -/
theorem canonicalLeafName_iff {name : List Char} :
  canonicalLeafName name = true ↔ ∃ object : CatalogObject, name = object.leafName
  := by
  constructor
  · intro h
    unfold canonicalLeafName at h
    split at h
    case h_1 => cases h
    case h_2 stem hstem =>
      obtain ⟨object, hobject⟩ := canonicalCatalogName_iff.mp h
      refine ⟨object, ?_⟩
      rw [Fields.stripSuffix_eq_some.mp hstem, List.append_cancel_right hobject,
        CatalogObject.leafName]
  · rintro ⟨object, rfl⟩
    unfold canonicalLeafName
    rw [CatalogObject.leafName, Fields.stripSuffix_eq_some.mpr rfl]
    exact canonicalCatalogName_iff.mpr ⟨object, rfl⟩

theorem canonicalProofName_iff {name : List Char} :
  canonicalProofName name = true ↔ ∃ object : CatalogObject, object.IsNamed name
  := by
  unfold canonicalProofName
  rw [Bool.or_eq_true, canonicalCatalogName_iff, canonicalLeafName_iff, ← exists_or]
  rfl

/-- The stages that are owned are those that are published under canonical names. -/
theorem ownedCatalogStageName_iff {name : List Char} :
  ownedCatalogStageName name = true
    ↔ ∃ (published : List Char) (token : List UInt8),
      canonicalProofName published = true ∧ token.length = 16 ∧ name = stageName published token
  := by
  constructor
  · intro h
    unfold ownedCatalogStageName at h
    split at h
    case h_2 => cases h
    case h_1 rest =>
      split at h
      case h_1 => cases h
      case h_2 published token hrest =>
        obtain ⟨hpublished, htoken⟩ := Bool.and_eq_true_iff.mp h
        obtain ⟨bytes, hbytes, rfl⟩ := (validHex_iff (n := 16)).mp htoken
        refine ⟨published, bytes, hpublished, hbytes, ?_⟩
        rw [stageName, Fields.append_of_rsplitOnce hrest]
  · rintro ⟨published, token, hpublished, htoken, rfl⟩
    have hdot : '.' ∉ "stage-".toList ++ (hexEncode token).toList := by
      intro h
      rcases List.mem_append.mp h with h | h
      · exact absurd h (by decide)
      · exact dot_notMem_hexEncode token h
    have hsplit : Fields.rsplitOnce stageMark (published ++ (stageMark ++ (hexEncode token).toList))
        = some (published, (hexEncode token).toList) :=
      Fields.rsplitOnce_append hdot
    simp only [ownedCatalogStageName, stageName, hsplit]
    exact Bool.and_eq_true_iff.mpr
      ⟨hpublished, (validHex_iff (n := 16)).mpr ⟨token, htoken, rfl⟩⟩

/-! ### Names that are kept -/

/-- A row names an object, in any spelling of its root. -/
structure ObjectKey.Names (key : ObjectKey) (object : CatalogObject) : Prop where
  suite : key.suite = "blake3" ∧ object.suite = .blake3 ∨ key.suite = "sha256" ∧ object.suite = .sha256
  root : hexDecode key.root.toList = some object.root.1
  length : key.length = object.length

/-- A cached root names an object. -/
structure CachedRoot.Names (entry : CachedRoot) (object : CatalogObject) : Prop where
  suite : object.suite = .blake3
  root : hexDecode entry.root.toList = some object.root.1
  size : entry.size = object.length

theorem ObjectKey.Names.inj
    {key : ObjectKey} {object object' : CatalogObject} (h : key.Names object)
    (h' : key.Names object') :
  object = object'
  := by
  obtain ⟨suite, root, length⟩ := object
  obtain ⟨suite', root', length'⟩ := object'
  have hsuite : suite = suite' := by
    rcases h.suite with ⟨hkey, hs⟩ | ⟨hkey, hs⟩
    · rcases h'.suite with ⟨-, hs'⟩ | ⟨hkey', -⟩
      · exact hs.trans hs'.symm
      · exact absurd (hkey.symm.trans hkey') (by decide)
    · rcases h'.suite with ⟨hkey', -⟩ | ⟨-, hs'⟩
      · exact absurd (hkey'.symm.trans hkey) (by decide)
      · exact hs.trans hs'.symm
  have hroot : root = root' := Subtype.ext (Option.some.inj (h.root.symm.trans h'.root))
  have hlength : length = length' := h.length.symm.trans h'.length
  rw [hsuite, hroot, hlength]

theorem suiteNumber_eq_ok {suite : String} {number : Char} :
  suiteNumber suite = .ok number
    ↔ ∃ s : Suite, (suite = "blake3" ∧ s = .blake3 ∨ suite = "sha256" ∧ s = .sha256)
      ∧ number = s.number
  := by
  unfold suiteNumber
  constructor
  · intro h
    split at h
    case isTrue hsuite =>
      cases h
      exact ⟨.blake3, .inl ⟨hsuite, rfl⟩, rfl⟩
    case isFalse =>
      split at h
      case isTrue hsuite =>
        cases h
        exact ⟨.sha256, .inr ⟨hsuite, rfl⟩, rfl⟩
      case isFalse => cases h
  · rintro ⟨s, ⟨rfl, rfl⟩ | ⟨rfl, rfl⟩, rfl⟩
    · rfl
    · rfl

theorem mem_proofNames {object : CatalogObject} {name : List Char} :
  name ∈ proofNames object.suite.number (hexEncode object.root) object.length
    ↔ object.IsNamed name
  := by
  unfold proofNames
  rw [List.mem_cons, List.mem_singleton]
  rfl

/-- A row that is parsed names one object. -/
theorem ObjectKey.parse_eq_ok {key : ObjectKey} {named : Char × String} :
  key.parse = .ok named
    ↔ ∃ object, key.Names object ∧ named = (object.suite.number, hexEncode object.root)
  := by
  unfold parse
  constructor
  · intro h
    obtain ⟨number, hnumber, h⟩ := Fallible.bind_eq_ok.mp h
    obtain ⟨root, hroot, h⟩ := Fallible.bind_eq_ok.mp h
    rw [Fallible.present_eq_ok] at hroot
    obtain ⟨bytes, hbytes, rfl⟩ := Option.map_eq_some_iff.mp hroot
    obtain ⟨hbytes, hlength⟩ := Option.filter_eq_some_iff.mp hbytes
    obtain ⟨s, hs, rfl⟩ := suiteNumber_eq_ok.mp hnumber
    cases h
    exact ⟨⟨s, ⟨bytes, of_decide_eq_true hlength⟩, key.length⟩, ⟨hs, hbytes, rfl⟩, rfl⟩
  · rintro ⟨object, hnames, rfl⟩
    refine Fallible.bind_eq_ok.mpr ⟨_, suiteNumber_eq_ok.mpr ⟨_, hnames.suite, rfl⟩, ?_⟩
    refine Fallible.bind_eq_ok.mpr ⟨_, Fallible.present_eq_ok.mpr ?_, rfl⟩
    rw [hnames.root, Option.filter_some, if_pos (decide_eq_true object.root.2)]
    rfl

/-- The rows are named one after the other. -/
theorem activeCatalogNames_concat (keys : List ObjectKey) (key : ObjectKey) :
  activeCatalogNames (keys ++ [key])
    = match key.parse with
      | .ok (suite, root) =>
          ((activeCatalogNames keys).1 ++ proofNames suite root key.length,
            (activeCatalogNames keys).2)
      | .error reason =>
          ((activeCatalogNames keys).1, (activeCatalogNames keys).2 ++ [(key.grantId, reason)])
  := by
  unfold activeCatalogNames
  rw [List.foldl_append]
  rfl

/-- Every row is parsed exactly when no row is reported, and then the names are those of the
objects that rows name. -/
theorem activeCatalogNames_spec (keys : List ObjectKey) :
  ((activeCatalogNames keys).2 = [] ↔ ∀ key ∈ keys, ∃ object, key.Names object)
    ∧ ∀ name, name ∈ (activeCatalogNames keys).1
      ↔ ∃ key ∈ keys, ∃ object, key.Names object ∧ object.IsNamed name
  := by
  induction keys using List.reverseRecOn with
  | nil => simp [activeCatalogNames]
  | append_singleton keys key ih =>
      rw [activeCatalogNames_concat]
      simp only [List.mem_append, List.mem_singleton, or_imp, forall_and, forall_eq, or_and_right,
        exists_or, exists_eq_left]
      cases hparse : key.parse with
      | ok named =>
          obtain ⟨object, hnames, rfl⟩ := ObjectKey.parse_eq_ok.mp hparse
          refine ⟨?_, fun name => ?_⟩
          · exact ih.1.trans (and_iff_left ⟨object, hnames⟩).symm
          · rw [List.mem_append, ih.2, hnames.length, mem_proofNames]
            refine or_congr_right ⟨fun h => ⟨object, hnames, h⟩, ?_⟩
            rintro ⟨object', hnames', hnamed⟩
            rwa [hnames.inj hnames']
      | error reason =>
          have hnone : ¬∃ object, key.Names object := by
            rintro ⟨object, hnames⟩
            cases hparse.symm.trans (ObjectKey.parse_eq_ok.mpr ⟨object, hnames, rfl⟩)
          refine ⟨?_, fun name => ?_⟩
          · refine iff_of_false ?_ (fun h => hnone h.2)
            exact List.append_ne_nil_of_right_ne_nil _ (List.cons_ne_nil _ _)
          · rw [ih.2]
            refine (or_iff_left ?_).symm
            rintro ⟨object, hnames, -⟩
            exact hnone ⟨object, hnames⟩

theorem mem_catalogNames {cached : List CachedRoot} {name : List Char} :
  name ∈ catalogNames cached
    ↔ ∃ entry ∈ cached, ∃ object, entry.Names object ∧ object.IsNamed name
  := by
  unfold catalogNames
  rw [List.mem_flatMap]
  refine exists_congr fun entry => and_congr_right fun _ => ?_
  constructor
  · intro h
    split at h
    case h_1 => cases h
    case h_2 bytes hbytes =>
      obtain ⟨hdecode, hlength⟩ := Option.filter_eq_some_iff.mp hbytes
      let object : CatalogObject := ⟨.blake3, ⟨bytes, of_decide_eq_true hlength⟩, entry.size⟩
      have hnamed : object.IsNamed name := mem_proofNames.mp h
      exact ⟨object, ⟨rfl, hdecode, rfl⟩, hnamed⟩
  · rintro ⟨object, hnames, hnamed⟩
    rw [hnames.root, Option.filter_some, if_pos (decide_eq_true object.root.2), hnames.size]
    have hmem := mem_proofNames.mpr hnamed
    rwa [hnames.suite] at hmem

/-! ### What is deleted -/

/-- No row and no cached root names an object. -/
def Unreferenced (keys : List ObjectKey) (cached : List CachedRoot)
    (object : CatalogObject) : Prop :=
  (∀ key ∈ keys, ¬key.Names object) ∧ ∀ entry ∈ cached, ¬entry.Names object

/-- The files that are deleted are those of objects that nobody names. -/
theorem prunes_iff
    {keys : List ObjectKey} {cached : List CachedRoot} {entry : DirEntry} :
  prunes ((activeCatalogNames keys).1 ++ catalogNames cached) entry = true
    ↔ entry.kind = .file ∧ entry.failing = false ∧ ∃ name object, fromUtf8 entry.name = some name
      ∧ CatalogObject.IsNamed object name ∧ Unreferenced keys cached object
  := by
  unfold prunes
  cases hname : fromUtf8 entry.name with
  | none =>
      refine iff_of_false (fun h => by cases h) ?_
      rintro ⟨-, -, name, object, h, -⟩
      cases h
  | some name =>
      dsimp only
      constructor
      · intro h
        split at h
        case isTrue => cases h
        case isFalse hkept =>
          obtain ⟨hkind, hfailing⟩ := Bool.and_eq_true_iff.mp h
          rw [not_or, Bool.not_eq_false, canonicalProofName_iff, List.mem_append, not_or,
            (activeCatalogNames_spec keys).2, mem_catalogNames] at hkept
          obtain ⟨⟨object, hnamed⟩, hkeys, hcached⟩ := hkept
          refine ⟨of_decide_eq_true hkind, by simpa using hfailing, name, object, rfl, hnamed, ?_⟩
          exact ⟨fun key hkey hnames => hkeys ⟨key, hkey, object, hnames, hnamed⟩,
            fun entry hentry hnames => hcached ⟨entry, hentry, object, hnames, hnamed⟩⟩
      · rintro ⟨hkind, hfailing, name', object, hsame, hnamed, hkeys, hcached⟩
        cases hsame
        have hkept : ¬(canonicalProofName name = false
            ∨ name ∈ (activeCatalogNames keys).1 ++ catalogNames cached) := by
          rw [not_or, Bool.not_eq_false, canonicalProofName_iff, List.mem_append, not_or,
            (activeCatalogNames_spec keys).2, mem_catalogNames]
          refine ⟨⟨object, hnamed⟩, ?_, ?_⟩
          · rintro ⟨key, hkey, object', hnames, hnamed'⟩
            rw [CatalogObject.isNamed_inj hnamed' hnamed] at hnames
            exact hkeys key hkey hnames
          · rintro ⟨entry, hentry, object', hnames, hnamed'⟩
            rw [CatalogObject.isNamed_inj hnamed' hnamed] at hnames
            exact hcached entry hentry hnames
        rw [if_neg hkept, hkind, hfailing]
        rfl

/-- Of the entries of the directory, a file is deleted when it is one of an object that no row and
no cached root names; when some row names no object or the rows cannot be read, nothing is. -/
theorem catalogs_pruned
    (root : Option EntryKind) (keys : Except String (List ObjectKey)) (cached : List CachedRoot)
    (entries : List DirEntry) :
  (∃ rest, cleanOutboundProofs root keys cached (some entries) = some rest
      ∧ ∀ entry, entry ∈ rest ↔ entry ∈ entries
        ∧ ¬(root = some .directory ∧ entry.kind = .file ∧ entry.failing = false
          ∧ ∃ rows, keys = .ok rows ∧ (∀ key ∈ rows, ∃ object, key.Names object)
            ∧ ∃ name object, fromUtf8 entry.name = some name
              ∧ CatalogObject.IsNamed object name ∧ Unreferenced rows cached object))
    ∧ (∀ object : CatalogObject, canonicalProofName object.catalogName = true
        ∧ canonicalProofName object.leafName = true)
    ∧ (∀ name, canonicalProofName name = true ↔ ∃! object : CatalogObject, object.IsNamed name)
    ∧ ∀ name, ownedCatalogStageName name = true
      ↔ ∃ (published : List Char) (token : List UInt8),
        canonicalProofName published = true ∧ token.length = 16 ∧ name = stageName published token
  := by
  refine ⟨?_, fun object => ?_, fun name => ?_, fun name => ownedCatalogStageName_iff⟩
  · have hkept : ∀ {p : DirEntry → Prop}, (∀ entry, ¬p entry) →
        ∃ rest, some entries = some rest ∧ ∀ entry, entry ∈ rest ↔ entry ∈ entries ∧ ¬p entry :=
      fun hp => ⟨entries, rfl, fun entry => (and_iff_left (hp entry)).symm⟩
    unfold cleanOutboundProofs
    by_cases hroot : root = some .directory
    · rw [if_neg (not_not.mpr hroot)]
      cases keys with
      | error error =>
          refine hkept ?_
          rintro entry ⟨-, -, -, rows, hrows, -⟩
          cases hrows
      | ok keys =>
          dsimp only
          by_cases hparsed : (activeCatalogNames keys).2 = []
          · rw [if_neg (not_not.mpr hparsed)]
            refine ⟨_, rfl, fun entry => ?_⟩
            rw [List.mem_filter, Bool.not_eq_true', ← Bool.not_eq_true, prunes_iff]
            refine and_congr_right fun _ => not_congr ?_
            constructor
            · rintro ⟨hkind, hfailing, hnamed⟩
              exact ⟨hroot, hkind, hfailing, keys, rfl,
                (activeCatalogNames_spec keys).1.mp hparsed, hnamed⟩
            · rintro ⟨-, hkind, hfailing, rows, hrows, -, hnamed⟩
              cases hrows
              exact ⟨hkind, hfailing, hnamed⟩
          · rw [if_pos hparsed]
            refine hkept ?_
            rintro entry ⟨-, -, -, rows, hrows, hnames, -⟩
            cases hrows
            exact hparsed ((activeCatalogNames_spec keys).1.mpr hnames)
    · rw [if_pos hroot]
      exact hkept fun entry h => hroot h.1
  · rw [canonicalProofName_iff, canonicalProofName_iff]
    exact ⟨⟨object, .inl rfl⟩, object, .inr rfl⟩
  · rw [canonicalProofName_iff]
    refine ⟨fun ⟨object, h⟩ => ⟨object, h, fun object' h' => CatalogObject.isNamed_inj h' h⟩, ?_⟩
    rintro ⟨object, h, -⟩
    exact ⟨object, h⟩

end Votport.Library
