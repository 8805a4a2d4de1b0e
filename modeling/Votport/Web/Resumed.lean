import Votport.Web.Download

/-!
# What a resumed download comes to

What is written at a place is what some answer has for this place, and a download is resolved with
as many bytes as announced.  The loop ends within its budget.  It can be resumed from every place
but the end of the file: there, nothing is left to ask for, and asking is an error.
-/

namespace Votport.Web

variable {file : DownloadFile} {options : DownloadOptions}

/-! ### Reading a body -/

/-- What reading a body makes of the download. -/
structure BodyRead (bytes : ℕ) (chunks : List (List UInt8)) (ending : BodyEnd)
    (before after : Download) (failure : Option Failure) : Prop where
  taken : ∃ taken, taken <+: chunks.flatten
    ∧ after = { before with
        content := before.content ++ taken
        written := before.written + taken.length }
  bounded : before.written ≤ bytes → after.written ≤ bytes
  complete : failure = none → after.written = bytes
  cut : ∀ f, failure = some f → f.transient = true → after.written < bytes
    ∨ ending = .failed true ∧ after.written = before.written + chunks.flatten.length
    ∨ bytes < after.written

theorem readBody_spec (bytes : ℕ) (chunks : List (List UInt8)) (ending : BodyEnd)
    (download : Download) :
  BodyRead bytes chunks ending download (readBody bytes chunks ending download).1
    (readBody bytes chunks ending download).2
  := by
  induction chunks generalizing download with
  | nil =>
      have htaken : ∃ taken, taken <+: ([] : List (List UInt8)).flatten
          ∧ download = { download with
            content := download.content ++ taken
            written := download.written + taken.length } :=
        ⟨[], List.prefix_rfl, by rw [List.append_nil]; rfl⟩
      cases ending with
      | done =>
          refine ⟨htaken, id, fun h => ?_, fun f h htransient => ?_⟩
          · by_contra hne
            exact Option.some_ne_none _ ((if_pos hne).symm.trans h)
          · have hne : download.written ≠ bytes := by
              intro heq
              have hnone : (readBody bytes [] .done download).2 = none := if_neg (not_not.mpr heq)
              rw [hnone] at h
              cases h
            rcases Nat.lt_or_gt_of_ne hne with hlt | hgt
            · exact .inl hlt
            · exact .inr (.inr hgt)
      | failed transient =>
          refine ⟨htaken, id, nofun, fun f h htransient => .inr (.inl ⟨?_, rfl⟩)⟩
          cases h
          rw [show transient = true from htransient]
  | cons chunk chunks ih =>
      unfold readBody
      by_cases hexceeds : bytes < download.written + chunk.length
      · rw [if_pos hexceeds]
        refine ⟨⟨[], List.nil_prefix, by rw [List.append_nil]; rfl⟩, id, nofun, ?_⟩
        intro f h htransient
        cases h
        cases htransient
      · rw [if_neg hexceeds]
        obtain ⟨⟨taken, htaken, hafter⟩, hbounded, hcomplete, hcut⟩ := ih { download with
          content := download.content ++ chunk
          written := download.written + chunk.length }
        refine ⟨⟨chunk ++ taken, ?_, ?_⟩, fun _ => hbounded (Nat.le_of_not_lt hexceeds), hcomplete,
          fun f h htransient => ?_⟩
        · rw [List.flatten_cons]
          exact List.prefix_append_right_inj chunk |>.mpr htaken
        · rw [hafter, List.append_assoc, List.length_append, Nat.add_assoc]
        · rcases hcut f h htransient with hlt | ⟨hending, hwritten⟩ | hgt
          · exact .inl hlt
          · refine .inr (.inl ⟨hending, ?_⟩)
            rw [hwritten, List.flatten_cons, List.length_append, Nat.add_assoc]
          · exact .inr (.inr hgt)

/-! ### Where bytes come from -/

/-- An answer has a byte for a place: in a whole body, or in one declared for the rest of the file
from some byte on. -/
def Sourced (file : DownloadFile) (response : Response) (i : ℕ) (b : UInt8) : Prop :=
  ∃ body, response.body = some body
    ∧ (response.status = 200 ∧ body.chunks.flatten[i]? = some b
      ∨ response.status = 206 ∧ ∃ first,
        matchContentRange response.contentRange = some (first, file.bytes - 1, file.bytes)
          ∧ first ≤ i ∧ body.chunks.flatten[i - first]? = some b)

/-- Every byte that is written comes from one of some replies. -/
structure Kept (file : DownloadFile) (replies : List Reply) (download : Download) : Prop where
  written : download.written = download.content.length
  bounded : download.written ≤ file.bytes
  sources : ∀ i b, download.content[i]? = some b →
    ∃ response, Reply.response response ∈ replies ∧ Sourced file response i b

theorem Kept.mono
    {replies replies' : List Reply} {download download' : Download}
    (h : Kept file replies download) (hreplies : replies ⊆ replies')
    (hwritten : download'.written = download.written)
    (hcontent : download'.content = download.content) :
  Kept file replies' download'
  := by
  refine ⟨?_, ?_, fun i b hb => ?_⟩
  · rw [hwritten, hcontent, h.written]
  · rw [hwritten]
    exact h.bounded
  · rw [hcontent] at hb
    obtain ⟨response, hmem, hsourced⟩ := h.sources i b hb
    exact ⟨response, hreplies hmem, hsourced⟩

/-- What becomes of an answer: it is refused, or its body is read for the rest or from the start. -/
inductive Received (file : DownloadFile) (response : Response) (before after : Download)
    (failure : Option Failure) : Prop
  | refused {url : List Char} {message : String} (hafter : after = { before with url := url })
      (hfailure : failure = some ⟨message, false⟩) : Received file response before after failure
  | rest {url : List Char} {body : ReplyBody} (hbody : response.body = some body)
      (hstatus : response.status = 206)
      (hrange : matchContentRange response.contentRange
        = some (before.written, file.bytes - 1, file.bytes))
      (hread : BodyRead file.bytes body.chunks body.ending { before with url := url } after
        failure) : Received file response before after failure
  | whole {url : List Char} {body : ReplyBody} (hbody : response.body = some body)
      (hstatus : response.status = 200)
      (hread : BodyRead file.bytes body.chunks body.ending
        { before with url := url, content := [], written := 0 } after failure) :
      Received file response before after failure

theorem receive_spec
    {response : Response} {download : Download}
    (hwritten : download.written = download.content.length) :
  Received file response download (receive file response download).1
    (receive file response download).2
  := by
  unfold receive
  cases hbody : response.body with
  | none => exact @Received.refused file response download download _ download.url _ rfl rfl
  | some body =>
      have hurl : ∃ url, (if response.url = [] then download
          else { download with url := response.url }) = { download with url := url } := by
        by_cases h : response.url = []
        · exact ⟨download.url, if_pos h⟩
        · exact ⟨response.url, if_neg h⟩
      obtain ⟨url, hurl⟩ := hurl
      dsimp only
      rw [hurl]
      by_cases hpart : response.status = 206
      · rw [if_pos hpart]
        by_cases hrange : matchContentRange response.contentRange
              = some (download.written, file.bytes - 1, file.bytes)
            ∧ download.written < file.bytes
        · rw [if_pos hrange]
          exact .rest hbody hpart hrange.1 (readBody_spec _ _ _ _)
        · rw [if_neg hrange]
          exact .refused rfl rfl
      · rw [if_neg hpart]
        by_cases hwhole : response.status = 200
        · rw [if_neg (not_not.mpr hwhole)]
          by_cases hzero : download.written = 0
          · rw [if_neg (not_not.mpr hzero)]
            have hempty : download.content = [] :=
              List.eq_nil_of_length_eq_zero (hwritten.symm.trans hzero)
            have hbase : { download with url := url }
                = { download with url := url, content := [], written := 0 } := by
              rw [← hempty, ← hzero]
            have hread := readBody_spec file.bytes body.chunks body.ending { download with url := url }
            rw [hbase] at hread
            rw [hbase]
            exact .whole hbody hwhole hread
          · rw [if_pos hzero]
            exact .whole hbody hwhole (readBody_spec _ _ _ _)
        · rw [if_pos hwhole]
          exact .refused rfl rfl

theorem Received.frame
    {response : Response} {before after : Download} {failure : Option Failure}
    (h : Received file response before after failure) :
  after.waited = before.waited ∧ after.attempt = before.attempt
    ∧ after.reauthorized = before.reauthorized
  := by
  cases h with
  | refused hafter _ =>
      rw [hafter]
      exact ⟨rfl, rfl, rfl⟩
  | rest _ _ _ hread =>
      obtain ⟨taken, -, hafter⟩ := hread.taken
      rw [hafter]
      exact ⟨rfl, rfl, rfl⟩
  | whole _ _ hread =>
      obtain ⟨taken, -, hafter⟩ := hread.taken
      rw [hafter]
      exact ⟨rfl, rfl, rfl⟩

/-- Reading an answer keeps where bytes come from. -/
theorem Received.kept
    {response : Response} {before after : Download} {failure : Option Failure}
    {replies : List Reply} (h : Received file response before after failure)
    (hbefore : Kept file replies before) (hmem : Reply.response response ∈ replies) :
  Kept file replies after
  := by
  have hprefix : ∀ {taken flat : List UInt8} {i : ℕ} {b : UInt8}, taken <+: flat →
      taken[i]? = some b → flat[i]? = some b := by
    intro taken flat i b hprefix hb
    obtain ⟨rest, rfl⟩ := hprefix
    rw [List.getElem?_append_left (List.getElem?_eq_some_iff.mp hb).1, hb]
  cases h with
  | refused hafter _ =>
      rw [hafter]
      exact hbefore.mono (List.Subset.refl _) rfl rfl
  | rest hbody hstatus hrange hread =>
      obtain ⟨taken, htaken, hafter⟩ := hread.taken
      refine ⟨?_, hread.bounded hbefore.bounded, fun i b hb => ?_⟩
      · rw [hafter, List.length_append, ← hbefore.written]
      · rw [hafter] at hb
        by_cases hi : i < before.content.length
        · rw [List.getElem?_append_left hi] at hb
          exact hbefore.sources i b hb
        · have hle : before.content.length ≤ i := Nat.le_of_not_lt hi
          rw [List.getElem?_append_right hle, ← hbefore.written] at hb
          refine ⟨response, hmem, _, hbody, .inr ⟨hstatus, before.written, hrange, ?_, ?_⟩⟩
          · rwa [hbefore.written]
          · exact hprefix htaken hb
  | whole hbody hstatus hread =>
      obtain ⟨taken, htaken, hafter⟩ := hread.taken
      refine ⟨?_, hread.bounded (Nat.zero_le _), fun i b hb => ?_⟩
      · rw [hafter]
        exact Nat.zero_add _
      · rw [hafter] at hb
        exact ⟨response, hmem, _, hbody, .inl ⟨hstatus, hprefix htaken hb⟩⟩

/-! ### Attempts -/

/-- The download of an attempt, with the authorization asked for once more when it was. -/
def Asked (before base : Download) : Prop :=
  base = before
    ∨ before.reauthorized < 2 ∧ base = { before with reauthorized := before.reauthorized + 1 }

/-- What an attempt comes to. -/
inductive Attempted (file : DownloadFile) (options : DownloadOptions) (reply : Reply)
    (before : Download) (outcome : Outcome) : Prop
  | restored (hcount : before.reauthorized < 2)
      (houtcome : outcome = .waiting { before with reauthorized := before.reauthorized + 1 }) :
      Attempted file options reply before outcome
  | failed {base : Download} {failure : Failure} (hbase : Asked before base)
      (houtcome : outcome = fail options failure base) :
      Attempted file options reply before outcome
  | broken {base after : Download} {response : Response} {failure : Failure}
      (hreply : reply = .response response) (hbase : Asked before base)
      (hreceived : Received file response base after (some failure))
      (houtcome : outcome = fail options failure after) :
      Attempted file options reply before outcome
  | resolved {base after : Download} {response : Response}
      (hreply : reply = .response response) (hbase : Asked before base)
      (hreceived : Received file response base after none)
      (houtcome : outcome = .resolved after) : Attempted file options reply before outcome

theorem take_spec
    {response : Response} {before base : Download} (hbase : Asked before base)
    (hwritten : base.written = base.content.length) :
  Attempted file options (.response response) before (take file options response base)
  := by
  unfold take
  by_cases hok : response.status < 200 ∨ 300 ≤ response.status
  · rw [if_pos hok]
    exact .failed hbase rfl
  · rw [if_neg hok]
    have hreceived : Received file response base (receive file response base).1
        (receive file response base).2 := receive_spec hwritten
    generalize hresult : receive file response base = result at hreceived
    obtain ⟨after, failure⟩ := result
    cases failure with
    | none => exact .resolved rfl hbase hreceived rfl
    | some failure => exact .broken rfl hbase hreceived rfl

theorem attempt_spec
    {reply : Reply} {before : Download} (hwritten : before.written = before.content.length) :
  Attempted file options reply before (attempt file options reply before)
  := by
  unfold attempt
  cases reply with
  | rejected transient => exact .failed (.inl rfl) rfl
  | response response =>
      dsimp only
      by_cases hserver : 500 ≤ response.status ∨ response.status = 429
      · rw [if_pos hserver]
        exact .failed (.inl rfl) rfl
      · rw [if_neg hserver]
        by_cases hlost : (response.status = 401 ∨ response.status = 403)
            ∧ options.onAuthLost = true ∧ before.reauthorized < 2
        · rw [if_pos hlost]
          have hasked : Asked before { before with reauthorized := before.reauthorized + 1 } :=
            .inr ⟨hlost.2.2, rfl⟩
          cases response.restored with
          | yes => exact .restored hlost.2.2 rfl
          | no => exact take_spec hasked hwritten
          | failed transient => exact .failed hasked rfl
        · rw [if_neg hlost]
          exact take_spec (.inl rfl) hwritten

/-- A failed attempt is repeated, or is the last. -/
theorem fail_spec (options : DownloadOptions) (failure : Failure) (download : Download) :
  fail options failure download = .rejected download failure.message
    ∨ failure.transient = true ∧ download.exhausted options = false
      ∧ fail options failure download = .waiting { download with
        waited := download.waited + download.delay
        attempt := download.attempt + 1 }
  := by
  unfold fail
  by_cases h : failure.transient = false ∨ download.exhausted options = true
  · exact .inl (if_pos h)
  · rw [not_or, Bool.not_eq_false, Bool.not_eq_true] at h
    exact .inr ⟨h.1, h.2, if_neg (by rw [h.1, h.2]; decide)⟩

theorem fail_download (options : DownloadOptions) (failure : Failure) (download : Download) :
  (fail options failure download).download.written = download.written
    ∧ (fail options failure download).download.content = download.content
  := by
  rcases fail_spec options failure download with h | ⟨-, -, h⟩
  · rw [h]
    exact ⟨rfl, rfl⟩
  · rw [h]
    exact ⟨rfl, rfl⟩

theorem Asked.kept
    {before base : Download} {replies : List Reply} (h : Asked before base)
    (hbefore : Kept file replies before) :
  Kept file replies base
  := by
  rcases h with rfl | ⟨-, rfl⟩
  · exact hbefore
  · exact hbefore.mono (List.Subset.refl _) rfl rfl

/-- An attempt keeps where bytes come from. -/
theorem attempt_kept
    {reply : Reply} {before : Download} {replies : List Reply} (hmem : reply ∈ replies)
    (hbefore : Kept file replies before) :
  Kept file replies (attempt file options reply before).download
  := by
  have hattempted : Attempted file options reply before (attempt file options reply before) :=
    attempt_spec hbefore.written
  cases hattempted with
  | restored _ houtcome =>
      rw [houtcome]
      exact hbefore.mono (List.Subset.refl _) rfl rfl
  | failed hbase houtcome =>
      rw [houtcome]
      obtain ⟨hwritten, hcontent⟩ := fail_download options _ _
      exact (hbase.kept hbefore).mono (List.Subset.refl _) hwritten hcontent
  | broken hreply hbase hreceived houtcome =>
      rw [houtcome]
      obtain ⟨hwritten, hcontent⟩ := fail_download options _ _
      have hafter := hreceived.kept (hbase.kept hbefore) (hreply ▸ hmem)
      exact hafter.mono (List.Subset.refl _) hwritten hcontent
  | resolved hreply hbase hreceived houtcome =>
      rw [houtcome]
      exact hreceived.kept (hbase.kept hbefore) (hreply ▸ hmem)

/-- A download that is resolved is complete. -/
theorem attempt_resolved
    {reply : Reply} {before after : Download}
    (hwritten : before.written = before.content.length)
    (h : attempt file options reply before = .resolved after) :
  after.written = file.bytes
  := by
  have hattempted : Attempted file options reply before (attempt file options reply before) :=
    attempt_spec hwritten
  cases hattempted with
  | restored _ houtcome => cases h.symm.trans houtcome
  | failed _ houtcome =>
      rcases fail_spec options _ _ with hfail | ⟨-, -, hfail⟩
      · cases h.symm.trans (houtcome.trans hfail)
      · cases h.symm.trans (houtcome.trans hfail)
  | broken _ _ _ houtcome =>
      rcases fail_spec options _ _ with hfail | ⟨-, -, hfail⟩
      · cases h.symm.trans (houtcome.trans hfail)
      · cases h.symm.trans (houtcome.trans hfail)
  | resolved _ _ hreceived houtcome =>
      cases h.symm.trans houtcome
      cases hreceived with
      | refused _ hfailure => cases hfailure
      | rest _ _ _ hread => exact hread.complete rfl
      | whole _ _ hread => exact hread.complete rfl

/-! ### The budget -/

/-- After some replies the loop has not waited or asked too often. -/
structure Paced (options : DownloadOptions) (count : ℕ) (download : Download) : Prop where
  count : count ≤ download.attempt + download.reauthorized
  asked : download.reauthorized ≤ 2
  slept : 500 * download.attempt ≤ download.waited
  budget : options.retries = none →
    download.waited ≤ options.retryBudgetMs.getD saveRetryBudgetMs
  retries : ∀ retries, options.retries = some retries → download.attempt + 1 ≤ max retries 1

theorem le_delay (download : Download) : 500 ≤ download.delay := by
  have hpos : 1 ≤ 2 ^ min download.attempt 10 := Nat.one_le_two_pow
  exact le_min (by omega) (by decide)

theorem fail_paced
    {failure : Failure} {before after : Download} {count : ℕ} (hbefore : Paced options count before)
    (h : fail options failure before = .waiting after) :
  Paced options (count + 1) after
  := by
  rcases fail_spec options failure before with hfail | ⟨-, hexhausted, hfail⟩
  · cases hfail.symm.trans h
  · cases hfail.symm.trans h
    have hdelay := le_delay before
    obtain ⟨hcount, hasked, hslept, -, -⟩ := hbefore
    unfold Download.exhausted at hexhausted
    refine ⟨?_, hasked, ?_, fun hnone => ?_, fun retries hretries => ?_⟩
    · dsimp only
      omega
    · dsimp only
      omega
    · rw [hnone] at hexhausted
      exact Nat.le_of_not_lt (of_decide_eq_false hexhausted)
    · rw [hretries] at hexhausted
      have hlt := of_decide_eq_false hexhausted
      dsimp only
      omega

theorem Asked.paced
    {before base : Download} {count : ℕ} (h : Asked before base)
    (hbefore : Paced options count before) :
  Paced options count base
  := by
  rcases h with rfl | ⟨hcount, rfl⟩
  · exact hbefore
  · exact ⟨Nat.le_succ_of_le hbefore.count, hcount, hbefore.slept, hbefore.budget,
      hbefore.retries⟩

theorem Received.paced
    {response : Response} {before after : Download} {failure : Option Failure} {count : ℕ}
    (h : Received file response before after failure) (hbefore : Paced options count before) :
  Paced options count after
  := by
  obtain ⟨hwaited, hattempt, hreauthorized⟩ := h.frame
  obtain ⟨hcount, hasked, hslept, hbudget, hretries⟩ := hbefore
  rw [← hattempt, ← hreauthorized] at hcount
  rw [← hreauthorized] at hasked
  rw [← hattempt, ← hwaited] at hslept
  rw [← hwaited] at hbudget
  rw [← hattempt] at hretries
  exact ⟨hcount, hasked, hslept, hbudget, hretries⟩

/-- Every attempt that is not the last counts. -/
theorem attempt_paced
    {reply : Reply} {before after : Download} {count : ℕ}
    (hwritten : before.written = before.content.length) (hbefore : Paced options count before)
    (h : attempt file options reply before = .waiting after) :
  Paced options (count + 1) after
  := by
  have hattempted : Attempted file options reply before (attempt file options reply before) :=
    attempt_spec hwritten
  cases hattempted with
  | restored hcount houtcome =>
      cases h.symm.trans houtcome
      exact ⟨Nat.succ_le_succ hbefore.count, hcount, hbefore.slept, hbefore.budget,
        hbefore.retries⟩
  | failed hbase houtcome => exact fail_paced (hbase.paced hbefore) (houtcome.symm.trans h)
  | broken _ hbase hreceived houtcome =>
      exact fail_paced (hreceived.paced (hbase.paced hbefore)) (houtcome.symm.trans h)
  | resolved _ _ _ houtcome => cases h.symm.trans houtcome

/-- The most replies that a download can get. -/
def replyBound (options : DownloadOptions) : ℕ :=
  match options.retries with
  | none => options.retryBudgetMs.getD saveRetryBudgetMs / 500 + 3
  | some retries => max retries 1 + 2

theorem Paced.lt_bound
    {download : Download} {count : ℕ} (h : Paced options count download) :
  count < replyBound options
  := by
  obtain ⟨hcount, hasked, hslept, hbudget, hretries⟩ := h
  unfold replyBound
  cases hoptions : options.retries with
  | none =>
      have hwaited := hbudget hoptions
      dsimp only
      omega
  | some retries =>
      have hattempt := hretries retries hoptions
      dsimp only
      omega

/-! ### Going on -/

/-- There is something left to ask for, or nothing to ask from. -/
def Open (file : DownloadFile) (download : Download) : Prop :=
  download.written = 0 ∨ download.written < file.bytes

/-- The connection fails when the last byte has been received. -/
def lateCut (file : DownloadFile) (download : Download) : Reply → Bool
  | .rejected _ => false
  | .response response =>
      response.body.any fun body =>
        decide (body.ending = .failed true ∧ 0 < file.bytes
          ∧ (response.status = 200 ∧ body.chunks.flatten.length = file.bytes
            ∨ response.status = 206
              ∧ download.written + body.chunks.flatten.length = file.bytes))

theorem fail_waiting
    {failure : Failure} {before after : Download}
    (h : fail options failure before = .waiting after) :
  failure.transient = true ∧ after.written = before.written
  := by
  rcases fail_spec options failure before with hfail | ⟨htransient, -, hfail⟩
  · cases hfail.symm.trans h
  · cases hfail.symm.trans h
    exact ⟨htransient, rfl⟩

theorem Asked.written
    {before base : Download} (h : Asked before base) :
  base.written = before.written
  := by
  rcases h with rfl | ⟨-, rfl⟩
  · rfl
  · rfl

/-- Without such a failure, the download can go on. -/
theorem attempt_open
    {reply : Reply} {before after : Download} {replies : List Reply}
    (hbefore : Kept file replies before) (hopen : Open file before)
    (hcut : lateCut file before reply = false)
    (h : attempt file options reply before = .waiting after) :
  Open file after
  := by
  have hattempted : Attempted file options reply before (attempt file options reply before) :=
    attempt_spec hbefore.written
  cases hattempted with
  | restored hcount houtcome =>
      cases h.symm.trans houtcome
      exact hopen
  | failed hbase houtcome =>
      have hwritten := (fail_waiting (houtcome.symm.trans h)).2
      unfold Open
      rwa [hwritten, hbase.written]
  | resolved _ _ _ houtcome => cases h.symm.trans houtcome
  | broken hreply hbase hreceived houtcome =>
      obtain ⟨htransient, hwritten⟩ := fail_waiting (houtcome.symm.trans h)
      subst hreply
      unfold Open
      rw [hwritten]
      have hlate : ∀ {body : ReplyBody} {response : Response}, response.body = some body →
          lateCut file before (.response response) = false → body.ending = .failed true →
          0 < file.bytes →
          (response.status = 200 → body.chunks.flatten.length ≠ file.bytes)
            ∧ (response.status = 206 →
              before.written + body.chunks.flatten.length ≠ file.bytes) := by
        intro body response hbody hcut hending hpos
        unfold lateCut at hcut
        dsimp only at hcut
        rw [hbody, Option.any_some, decide_eq_false_iff_not] at hcut
        exact ⟨fun hstatus hlength => hcut ⟨hending, hpos, .inl ⟨hstatus, hlength⟩⟩,
          fun hstatus hlength => hcut ⟨hending, hpos, .inr ⟨hstatus, hlength⟩⟩⟩
      cases hreceived with
      | refused _ hfailure =>
          cases hfailure
          cases htransient
      | rest hbody hstatus _ hread =>
          have hbounded := hread.bounded (hbase.kept hbefore).bounded
          rcases hread.cut _ rfl htransient with hlt | ⟨hending, hafter⟩ | hgt
          · exact .inr hlt
          · by_cases hpos : 0 < file.bytes
            · have hne := (hlate hbody hcut hending hpos).2 hstatus
              rw [← hbase.written] at hne
              exact .inr (lt_of_le_of_ne hbounded (by rw [hafter]; exact hne))
            · omega
          · omega
      | whole hbody hstatus hread =>
          have hbounded := hread.bounded (Nat.zero_le _)
          rcases hread.cut _ rfl htransient with hlt | ⟨hending, hafter⟩ | hgt
          · exact .inr hlt
          · by_cases hpos : 0 < file.bytes
            · have hne := (hlate hbody hcut hending hpos).1 hstatus
              rw [Nat.zero_add] at hafter
              exact .inr (lt_of_le_of_ne hbounded (by rw [hafter]; exact hne))
            · omega
          · omega

/-! ### What the server answers -/

theorem numberOf_decimalDigits (n : ℕ) : numberOf (decimalDigits n) = some n := by
  have hall : (decimalDigits n).all Char.isDigit = true := by
    rw [List.all_eq_true]
    intro c hc
    exact isDigit_of_mem_decimalDigits hc
  have hvalue : Nat.ofDigitChars 10 (decimalDigits n) 0 = n := by
    simp [decimalDigits]
  unfold numberOf
  rw [if_pos ⟨decimalDigits_ne_nil n, hall⟩, hvalue]

/-- The header of a part is read as it is written. -/
theorem matchContentRange_contentRange (first last length : ℕ) :
  matchContentRange (some (Serving.contentRange first last length)) = some (first, last, length)
  := by
  have hslash : '/' ∉ decimalDigits last := by
    intro h
    cases (show '/'.isDigit = false by decide).symm.trans (isDigit_of_mem_decimalDigits h)
  unfold matchContentRange Serving.contentRange
  simp only [Option.bind_eq_bind, Option.bind_some]
  rw [if_pos (List.prefix_append _ _)]
  have hdrop : ("bytes ".toList ++ (decimalDigits first
      ++ '-' :: (decimalDigits last ++ '/' :: decimalDigits length))).drop 6
      = decimalDigits first ++ '-' :: (decimalDigits last ++ '/' :: decimalDigits length) :=
    List.drop_left' rfl
  rw [hdrop, Fields.splitOnce_append (Serving.comma_dash_notMem_decimalDigits first).2,
    Option.bind_some, Fields.splitOnce_append hslash, Option.bind_some, numberOf_decimalDigits,
    numberOf_decimalDigits, numberOf_decimalDigits]
  rfl

/-- A part that has the rest of the file completes it. -/
theorem readBody_single
    {bytes : ℕ} {chunk : List UInt8} {download : Download}
    (h : download.written + chunk.length = bytes) :
  (readBody bytes [chunk] .done download).2 = none
  := by
  have hfits : ¬bytes < download.written + chunk.length := by omega
  unfold readBody
  rw [if_neg hfits]
  exact if_neg (not_not.mpr h)

theorem receive_single
    {response : Response} {download : Download} {chunk : List UInt8}
    (hbody : response.body = some ⟨[chunk], .done⟩)
    (hfits : download.written + chunk.length = file.bytes)
    (hkind : response.status = 206 ∧ download.written < file.bytes
        ∧ matchContentRange response.contentRange
          = some (download.written, file.bytes - 1, file.bytes)
      ∨ response.status = 200 ∧ download.written = 0) :
  (receive file response download).2 = none
  := by
  have hurl : ∃ url, (if response.url = [] then download
      else { download with url := response.url }) = { download with url := url } := by
    by_cases h : response.url = []
    · exact ⟨download.url, if_pos h⟩
    · exact ⟨response.url, if_neg h⟩
  obtain ⟨url, hurl⟩ := hurl
  unfold receive
  rw [hbody]
  dsimp only
  rw [hurl]
  rcases hkind with ⟨hpart, hlt, hrange⟩ | ⟨hwhole, hzero⟩
  · rw [if_pos hpart, if_pos ⟨hrange, hlt⟩]
    exact readBody_single hfits
  · have hpart : response.status ≠ 206 := by
      rw [hwhole]
      decide
    rw [if_neg hpart, if_neg (not_not.mpr hwhole), if_neg (not_not.mpr hzero)]
    exact readBody_single hfits

theorem attempt_single
    {response : Response} {download : Download} {chunk : List UInt8}
    (hbody : response.body = some ⟨[chunk], .done⟩)
    (hfits : download.written + chunk.length = file.bytes)
    (hkind : response.status = 206 ∧ download.written < file.bytes
        ∧ matchContentRange response.contentRange
          = some (download.written, file.bytes - 1, file.bytes)
      ∨ response.status = 200 ∧ download.written = 0) :
  ∃ after, attempt file options (.response response) download = .resolved after
  := by
  have hok : response.status = 206 ∨ response.status = 200 :=
    hkind.imp (fun h => h.1) (fun h => h.1)
  have hreceived := receive_single hbody hfits hkind
  unfold attempt take
  dsimp only
  rw [if_neg (by omega), if_neg (by omega), if_neg (by omega)]
  generalize receive file response download = result at hreceived ⊢
  obtain ⟨after, failure⟩ := result
  cases hreceived
  exact ⟨after, rfl⟩

/-- The server completes the download when it is open, and refuses the range when it is not. -/
theorem attempt_served
    {download : Download} {content : List UInt8} (etag : List Char)
    (hsafe : file.bytes ≤ maxSafeInteger) (hcontent : content.length = file.bytes)
    (hbounded : download.written ≤ file.bytes) :
  (Open file download → ∃ after,
      attempt file options (served content etag download) download = .resolved after)
    ∧ (¬Open file download →
      attempt file options (served content etag download) download
        = .rejected download "server returned an error")
  := by
  have hword : download.written < 2 ^ 64 := by
    unfold maxSafeInteger at hsafe
    omega
  unfold Open
  by_cases hzero : download.written = 0
  · refine ⟨fun _ => ?_, fun h => absurd (.inl hzero) h⟩
    have hrange : download.range = [] := if_pos hzero
    unfold served
    rw [hrange]
    refine attempt_single rfl ?_ (.inr ⟨rfl, hzero⟩)
    rw [hzero, Nat.zero_add]
    exact hcontent
  · have hrange : download.range = [Serving.rangeFrom download.written] := if_neg hzero
    have hanswer := @Serving.serveFile_rangeFrom content etag _ hword
    by_cases hopen : download.written < file.bytes
    · refine ⟨fun _ => ?_, fun h => absurd (.inr hopen) h⟩
      rw [if_neg (by rw [hcontent]; exact Nat.not_le.mpr hopen)] at hanswer
      unfold served
      rw [hrange, hanswer]
      refine attempt_single rfl ?_ (.inl ⟨rfl, hopen, ?_⟩)
      · rw [List.length_drop, hcontent]
        omega
      · rw [matchContentRange_contentRange, hcontent]
    · refine ⟨fun h => absurd h (by rw [not_or]; exact ⟨hzero, hopen⟩), fun _ => ?_⟩
      rw [if_pos (by rw [hcontent]; exact Nat.le_of_not_lt hopen)] at hanswer
      unfold served
      rw [hrange, hanswer]
      rfl

/-! ### Runs -/

/-- What holds of a run: where the bytes are from, and that the loop is within its budget. -/
structure Reached (file : DownloadFile) (options : DownloadOptions) (replies : List Reply)
    (outcome : Outcome) : Prop where
  kept : Kept file replies outcome.download
  resolved : ∀ download, outcome = .resolved download → download.written = file.bytes
  paced : ∀ download, outcome = .waiting download →
    file.bytes ≤ maxSafeInteger ∧ Paced options replies.length download
  bounded : replies.length ≤ replyBound options

theorem start_reached : Reached file options [] (start file) := by
  have hempty : Kept file [] ⟨0, 0, 0, 0, file.downloadUrl, []⟩ :=
    ⟨rfl, Nat.zero_le _, fun i b hb => by cases hb⟩
  have hpaced : Paced options 0 ⟨0, 0, 0, 0, file.downloadUrl, []⟩ :=
    ⟨Nat.zero_le _, Nat.zero_le _, Nat.le_refl _, fun _ => Nat.zero_le _, fun _ _ => le_max_right _ _⟩
  unfold start
  dsimp only
  split
  case isTrue => exact ⟨hempty, nofun, nofun, Nat.zero_le _⟩
  case isFalse hsafe =>
    refine ⟨hempty, nofun, fun download h => ?_, Nat.zero_le _⟩
    cases h
    exact ⟨Nat.le_of_not_lt hsafe, hpaced⟩

/-- Every run of replies reaches such an outcome. -/
theorem run_reached
    {replies : List Reply} {outcome : Outcome}
    (h : Runs.run (step file options) (start file) replies = some outcome) :
  Reached file options replies outcome
  := by
  induction replies using List.reverseRecOn generalizing outcome with
  | nil =>
      cases h
      exact start_reached
  | append_singleton replies reply ih =>
      obtain ⟨before, hbefore, hstep⟩ := (Runs.run_concat _).mp h
      have hreached := ih hbefore
      cases before with
      | resolved => cases hstep
      | rejected => cases hstep
      | waiting download =>
          obtain rfl : attempt file options reply download = outcome := Option.some.inj hstep
          obtain ⟨hsafe, hpaced⟩ := hreached.paced download rfl
          have hkept : Kept file (replies ++ [reply]) download :=
            hreached.kept.mono (List.subset_append_left _ _) rfl rfl
          have hmem : reply ∈ replies ++ [reply] :=
            List.mem_append_right _ (List.mem_singleton.mpr rfl)
          refine ⟨attempt_kept hmem hkept, fun after hafter => ?_, fun after hafter => ?_, ?_⟩
          · exact attempt_resolved hkept.written hafter
          · rw [List.length_append]
            exact ⟨hsafe, attempt_paced hkept.written hpaced hafter⟩
          · rw [List.length_append]
            exact hpaced.lt_bound

/-- No connection failed after the last byte, so the loop can go on. -/
theorem run_open
    {replies : List Reply} {download : Download}
    (halong : Runs.Along (step file options)
      (fun outcome reply => lateCut file outcome.download reply = false) (start file) replies)
    (h : Runs.run (step file options) (start file) replies = some (.waiting download)) :
  Open file download
  := by
  induction replies using List.reverseRecOn generalizing download with
  | nil =>
      have hstart : start file = .waiting download := Option.some.inj h
      unfold start at hstart
      dsimp only at hstart
      split at hstart
      · cases hstart
      · cases hstart
        exact .inl rfl
  | append_singleton replies reply ih =>
      obtain ⟨before, hbefore, hstep⟩ := (Runs.run_concat _).mp h
      obtain ⟨halong, hlast⟩ := (Runs.along_append _ hbefore).mp halong
      cases before with
      | resolved => cases hstep
      | rejected => cases hstep
      | waiting before =>
          have hkept := (run_reached hbefore).kept
          exact attempt_open hkept (ih halong hbefore) hlast.1 (Option.some.inj hstep)

/-- A download writes bytes of the answers for their places and no more than announced, it is
resolved with all of them, and it ends within its budget.  Unless a connection fails after the last
byte, the server's answer completes it whenever it waits. -/
theorem downloads_resume
    {replies : List Reply} {outcome : Outcome}
    (h : Runs.run (step file options) (start file) replies = some outcome) :
  (outcome.download.content.length ≤ file.bytes
      ∧ ∀ i b, outcome.download.content[i]? = some b →
        ∃ response, Reply.response response ∈ replies ∧ Sourced file response i b)
    ∧ (∀ download, outcome = .resolved download → download.content.length = file.bytes)
    ∧ (∀ download, outcome = .waiting download → options.retries = none →
        download.waited ≤ options.retryBudgetMs.getD saveRetryBudgetMs)
    ∧ replies.length ≤ replyBound options
    ∧ (Runs.Along (step file options)
        (fun outcome reply => lateCut file outcome.download reply = false) (start file) replies →
      ∀ download, outcome = .waiting download → ∀ content etag, content.length = file.bytes →
        ∃ after, attempt file options (served content etag download) download = .resolved after)
  := by
  have hreached := run_reached h
  refine ⟨⟨?_, hreached.kept.sources⟩, fun download hdownload => ?_, fun download hdownload => ?_,
    hreached.bounded, fun halong download hdownload content etag hcontent => ?_⟩
  · rw [← hreached.kept.written]
    exact hreached.kept.bounded
  · have hwritten := hreached.kept.written
    rw [hdownload] at hwritten
    exact hwritten.symm.trans (hreached.resolved download hdownload)
  · exact (hreached.paced download hdownload).2.budget
  · subst hdownload
    obtain ⟨hsafe, -⟩ := hreached.paced download rfl
    exact (attempt_served etag hsafe hcontent hreached.kept.bounded).1 (run_open halong h)

/-- A file of two bytes. -/
def sampleFile : DownloadFile := ⟨2, "/f".toList⟩

/-- An answer whose connection fails after some bytes. -/
def cutAfter (bytes : List UInt8) : Reply :=
  .response ⟨200, "/f?lease".toList, none, some ⟨[bytes], .failed true⟩, .no⟩

/-- A download whose connection failed after its first byte is completed. -/
theorem downloads_resume_cut :
  ∃ download, Runs.run (step sampleFile ⟨none, none, false⟩) (start sampleFile) [cutAfter [7]]
      = some (.waiting download)
    ∧ ∃ after, attempt sampleFile ⟨none, none, false⟩ (served [7, 8] [] download) download
      = .resolved after
  := by
  refine ⟨⟨500, 1, 0, 1, "/f?lease".toList, [7]⟩, rfl, ?_⟩
  have hrun : Runs.run (step sampleFile ⟨none, none, false⟩) (start sampleFile) [cutAfter [7]]
      = some (.waiting ⟨500, 1, 0, 1, "/f?lease".toList, [7]⟩) := rfl
  refine (downloads_resume hrun).2.2.2.2 ?_ _ rfl [7, 8] [] rfl
  decide

/-- When the connection fails after the last byte, the next answer is a permanent failure. -/
theorem cut_at_the_end :
  ∃ download, Runs.run (step sampleFile ⟨none, none, false⟩) (start sampleFile) [cutAfter [7, 8]]
      = some (.waiting download)
    ∧ download.content = [7, 8]
    ∧ attempt sampleFile ⟨none, none, false⟩ (served [7, 8] [] download) download
      = .rejected download "server returned an error"
  := by
  refine ⟨⟨500, 2, 0, 1, "/f?lease".toList, [7, 8]⟩, rfl, rfl, ?_⟩
  refine (attempt_served [] (by decide) rfl (by decide)).2 ?_
  rintro (h | h)
  · exact absurd h (by decide)
  · exact absurd h (by decide)

end Votport.Web
