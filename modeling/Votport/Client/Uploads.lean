import Votport.Auth.Spellings
import Votport.Library.Chunks
import Votport.Library.Pruned

/-!
# The client that uploads in chunks

The client sends the chunk where it stands, and goes where the answer says.  It may be told to go back
a few times only.  Whatever the port answers it ends, and when it ends well its file is at the path.
-/

namespace Votport

/-! ### The loop -/

/-- `ChunkReply`, or an error. -/
inductive PortReply
  | stored (offset : ℕ)
  | resume (offset : ℕ)
  | failed (status : ℕ) (message : String)

/-- What `admin_upload_chunk` makes of an answer.  A refusal has no offset. -/
def ChunkAnswer.portReply : ChunkAnswer → PortReply
  | .complete offset _ => .stored offset
  | .stored offset _ => .stored offset
  | .conflict offset _ => .resume offset
  | .refused status message => .failed status message

/-- Why the client gives up. -/
inductive UploadError
  | refused (status : ℕ) (message : String)
  | standsAt (next last : ℕ)
  | unpublished (next total : ℕ)
  | unchanged (next : ℕ)
  | rewound
deriving DecidableEq

/-- `UPLOAD_CHUNK`. -/
def uploadChunk : ℕ := 8 * 1024 * 1024

/-- `MAX_UPLOAD_BACKWARD_RECOVERIES`. -/
def maxUploadBackwardRecoveries : ℕ := 3

/-- `next_chunk`. -/
def nextChunk (offset total size : ℕ) : Option (ℕ × ℕ) :=
  if total ≤ offset ∨ size = 0 then none else some (offset, min (offset + size) total - 1)

/-- The variables of the loop of `upload_file`. -/
structure Upload where
  offset : ℕ
  backwardRecoveries : ℕ
deriving DecidableEq

/-- `accept_resume_offset`. -/
def Upload.acceptResumeOffset (u : Upload) (total next : ℕ) : Except UploadError Upload := do
  Fallible.require (next < total) (.unpublished next total)
  Fallible.require (next ≠ u.offset) (.unchanged next)
  if next < u.offset then
    Fallible.require (u.backwardRecoveries < maxUploadBackwardRecoveries) .rewound
    return ⟨next, u.backwardRecoveries + 1⟩
  else return ⟨next, u.backwardRecoveries⟩

/-- What the loop does with the reply to a chunk that ends at `last`. -/
def Upload.accept (u : Upload) (total last : ℕ) : PortReply → Except UploadError Upload
  | .stored next =>
      if next = last + 1 ∨ next = total then .ok { u with offset := next }
      else .error (.standsAt next last)
  | .resume next => u.acceptResumeOffset total next
  | .failed status message => .error (.refused status message)

/-- The loop of `upload_file`, while there are replies. -/
def uploadFile (total : ℕ) (u : Upload) : List PortReply → Option (Except UploadError Unit)
  | [] => if nextChunk u.offset total uploadChunk = none then some (.ok ()) else none
  | reply :: replies =>
      match nextChunk u.offset total uploadChunk with
      | none => some (.ok ())
      | some (_, last) =>
          match u.accept total last reply with
          | .error e => some (.error e)
          | .ok u => uploadFile total u replies

variable {total next last : ℕ} {u u' : Upload}

theorem nextChunk_eq_some {start : ℕ}
    (h : nextChunk u.offset total uploadChunk = some (start, last)) :
  start = u.offset ∧ u.offset ≤ last ∧ last < total ∧ last < u.offset + uploadChunk
  := by
  have hsize : 0 < uploadChunk := by decide
  unfold nextChunk at h
  split_ifs at h with hend
  cases h
  rw [not_or, not_le] at hend
  omega

/-- How many replies the loop can still take. -/
def Upload.left (total : ℕ) (u : Upload) : ℕ :=
  (maxUploadBackwardRecoveries - u.backwardRecoveries) * total + (total - u.offset)

/-- What the loop stands at. -/
structure Upload.Within (total : ℕ) (u : Upload) : Prop where
  offset : u.offset ≤ total
  backwardRecoveries : u.backwardRecoveries ≤ maxUploadBackwardRecoveries

/-- A reply that is accepted leaves fewer. -/
theorem Upload.accept_left
    {start : ℕ} {reply : PortReply} (hwithin : u.Within total)
    (hchunk : nextChunk u.offset total uploadChunk = some (start, last))
    (h : u.accept total last reply = .ok u') :
  u'.Within total ∧ u'.left total < u.left total
  := by
  obtain ⟨_, hle, hlast, _⟩ := nextChunk_eq_some hchunk
  obtain ⟨hoffset, hrecoveries⟩ := hwithin
  unfold Upload.left
  cases reply with
  | stored next =>
      rw [Upload.accept] at h
      split_ifs at h with hnext
      cases h
      refine ⟨⟨?_, hrecoveries⟩, ?_⟩
      · dsimp only
        omega
      · dsimp only
        omega
  | resume next =>
      obtain ⟨_, hbefore, h⟩ := Fallible.bind_eq_ok.mp h
      obtain ⟨_, hchanged, h⟩ := Fallible.bind_eq_ok.mp h
      have hnext := Fallible.require_eq_ok.mp hbefore
      have hne := Fallible.require_eq_ok.mp hchanged
      split_ifs at h with hback
      · obtain ⟨_, hfew, h⟩ := Fallible.bind_eq_ok.mp h
        have hlt := Fallible.require_eq_ok.mp hfew
        cases h
        refine ⟨⟨hnext.le, hlt⟩, ?_⟩
        dsimp only
        have hsplit : maxUploadBackwardRecoveries - u.backwardRecoveries
            = maxUploadBackwardRecoveries - (u.backwardRecoveries + 1) + 1 := by
          omega
        rw [hsplit, Nat.add_mul, Nat.one_mul]
        omega
      · cases h
        refine ⟨⟨hnext.le, hrecoveries⟩, ?_⟩
        dsimp only
        omega
  | failed status message => cases h

/-- Whatever the port answers, the loop ends. -/
theorem uploadFile_ends
    {replies : List PortReply} (hwithin : u.Within total) (h : u.left total ≤ replies.length) :
  (uploadFile total u replies).isSome = true
  := by
  induction replies generalizing u with
  | nil =>
      have hoffset := hwithin.offset
      have hend : total ≤ u.offset := by
        unfold Upload.left at h
        rw [List.length_nil] at h
        omega
      have hnone : nextChunk u.offset total uploadChunk = none := if_pos (Or.inl hend)
      rw [uploadFile, if_pos hnone]
      rfl
  | cons reply replies ih =>
      rw [uploadFile]
      split
      · rfl
      · rename_i start last hchunk
        split
        · rfl
        · rename_i u' hu'
          obtain ⟨hwithin', hleft⟩ := Upload.accept_left hwithin hchunk hu'
          rw [List.length_cons] at h
          exact ih hwithin' (by omega)

theorem Upload.acceptResumeOffset_ok (h : u.acceptResumeOffset total next = .ok u') :
  u'.offset = next ∧ next < total
  := by
  obtain ⟨_, hbefore, h⟩ := Fallible.bind_eq_ok.mp h
  obtain ⟨_, _, h⟩ := Fallible.bind_eq_ok.mp h
  refine ⟨?_, Fallible.require_eq_ok.mp hbefore⟩
  split_ifs at h
  · obtain ⟨_, _, h⟩ := Fallible.bind_eq_ok.mp h
    cases h
    rfl
  · cases h
    rfl

/-- An offset before that of the client is refused for one reason only. -/
theorem Upload.acceptResumeOffset_error
    {e : UploadError} (hback : next < u.offset) (hnext : next < total)
    (h : u.acceptResumeOffset total next = .error e) :
  e = .rewound ∧ maxUploadBackwardRecoveries ≤ u.backwardRecoveries
  := by
  unfold Upload.acceptResumeOffset at h
  simp only [Fallible.require, if_pos hnext, if_pos hback.ne, if_pos hback, bind, Except.bind] at h
  by_cases hfew : u.backwardRecoveries < maxUploadBackwardRecoveries
  · rw [if_pos hfew] at h
    cases h
  · rw [if_neg hfew] at h
    cases h
    exact ⟨rfl, not_lt.mp hfew⟩

/-- The loop ends well only after the port has said that it has the whole file. -/
theorem uploadFile_stored
    {replies : List PortReply} (hwithin : u.Within total)
    (h : uploadFile total u replies = some (.ok ())) :
  u.offset = total ∨ .stored total ∈ replies
  := by
  have hwhole : ∀ {u : Upload}, u.Within total → nextChunk u.offset total uploadChunk = none →
      u.offset = total := by
    intro u hwithin hnone
    have hsize : uploadChunk ≠ 0 := by decide
    unfold nextChunk at hnone
    split_ifs at hnone with hend
    exact le_antisymm hwithin.offset (hend.resolve_right hsize)
  induction replies generalizing u with
  | nil =>
      rw [uploadFile] at h
      split_ifs at h with hnone
      exact .inl (hwhole hwithin hnone)
  | cons reply replies ih =>
      rw [uploadFile] at h
      split at h
      · rename_i hnone
        exact .inl (hwhole hwithin hnone)
      · rename_i start last hchunk
        split at h
        · cases h
        · rename_i u' hu'
          obtain ⟨hwithin', _⟩ := Upload.accept_left hwithin hchunk hu'
          obtain hend | hmem := ih hwithin' h
          · refine .inr ?_
            cases reply with
            | stored next =>
                rw [Upload.accept] at hu'
                split_ifs at hu'
                cases hu'
                rw [← hend]
                exact List.mem_cons_self ..
            | resume next =>
                obtain ⟨hoffset, hlt⟩ := Upload.acceptResumeOffset_ok hu'
                omega
            | failed status message => cases hu'
          · exact .inr (List.mem_cons_of_mem _ hmem)

/-- The loop at its start. -/
def uploadStart : Upload where
  offset := 0
  backwardRecoveries := 0

theorem uploadStart_within (total : ℕ) : uploadStart.Within total := ⟨Nat.zero_le _, Nat.zero_le _⟩

theorem uploadStart_left (total : ℕ) :
  uploadStart.left total = 4 * total
  := by
  unfold Upload.left
  change (3 - 0) * total + (total - 0) = 4 * total
  omega

/-- Whatever the port answers, the loop is over after four replies for each byte of the file, and it
ends well only when one of them says that the port has all of the file. -/
theorem upload_ends
    {replies : List PortReply} (h : 4 * total ≤ replies.length) :
  ∃ result, uploadFile total uploadStart replies = some result
    ∧ (result = .ok () → total = 0 ∨ .stored total ∈ replies)
  := by
  have hleft : uploadStart.left total ≤ replies.length := by
    rw [uploadStart_left]
    exact h
  obtain ⟨result, hresult⟩ :=
    Option.isSome_iff_exists.mp (uploadFile_ends (uploadStart_within total) hleft)
  refine ⟨result, hresult, ?_⟩
  rintro rfl
  obtain hend | hmem := uploadFile_stored (uploadStart_within total) hresult
  · exact .inl hend.symm
  · exact .inr hmem

/-- The port goes on to the same place. -/
theorem upload_ends_unchanged :
  ∃ result, uploadFile 2 uploadStart (List.replicate 8 (PortReply.resume 1)) = some result
    ∧ (result = .ok () → 2 = 0 ∨ PortReply.stored 2 ∈ List.replicate 8 (PortReply.resume 1))
  := upload_ends (by decide)

/-! ### Requests -/

/-- The headers that `admin_upload_chunk` sends with the bytes of a chunk. -/
def chunkHeaders (chunk : OutboundChunk) : ChunkHeaders where
  uploadId := some chunk.id
  contentRange := some ("bytes ".toList ++ (decimalDigits chunk.start ++ '-' ::
    (decimalDigits chunk.last)) ++ '/' :: decimalDigits chunk.total)
  contentLength := some (decimalDigits chunk.len)

/-- `hex::encode` of 32 bytes. -/
def uploadId (token : { bytes : List UInt8 // bytes.length = 32 }) : List Char :=
  (hexEncode token.1).toList

theorem parseU64_digits {n : ℕ} (h : n < 2 ^ 64) :
  (parseU64 (decimalDigits n)).map UInt64.toNat = some n
  := by
  have hvalue : (UInt64.ofNat n).toNat = n := by
    rw [UInt64.toNat_ofNat']
    exact Nat.mod_eq_of_lt h
  have hparse := parseU64_decimalDigits (UInt64.ofNat n)
  rw [hvalue] at hparse
  rw [hparse, Option.map_some, hvalue]

theorem notMem_decimalDigits {n : ℕ} {c : Char} (hc : c.isDigit = false) : c ∉ decimalDigits n := by
  intro hmem
  rw [isDigit_of_mem_decimalDigits hmem] at hc
  cases hc

/-- The port reads the chunk that the client means. -/
theorem admitChunk_chunkHeaders
    {maxUploadBytes : ℕ} (token : { bytes : List UInt8 // bytes.length = 32 })
    {start last total : ℕ} (hstart : start ≤ last) (hlast : last < total)
    (hlen : last - start + 1 ≤ maxOutboundChunkBytes) (htotal : total ≤ maxUploadBytes)
    (hmax : maxUploadBytes < 2 ^ 64) :
  admitChunk maxUploadBytes (chunkHeaders ⟨uploadId token, start, last, total⟩)
    = .ok ⟨uploadId token, start, last, total⟩
  := by
  have hchunk : maxOutboundChunkBytes < 2 ^ 64 := by decide
  have hhex : validHex (String.ofList (uploadId token)) (2 * 32) = true :=
    Library.validHex_iff.mpr ⟨token.1, token.2, rfl⟩
  obtain ⟨start', hstart', hstartNat⟩ := Option.map_eq_some_iff.mp
    (parseU64_digits (show start < 2 ^ 64 by omega))
  obtain ⟨last', hlast', hlastNat⟩ := Option.map_eq_some_iff.mp
    (parseU64_digits (show last < 2 ^ 64 by omega))
  obtain ⟨total', htotal', htotalNat⟩ := Option.map_eq_some_iff.mp
    (parseU64_digits (show total < 2 ^ 64 by omega))
  obtain ⟨len', hlen', hlenNat⟩ := Option.map_eq_some_iff.mp
    (parseU64_digits (show last - start + 1 < 2 ^ 64 by omega))
  have hcut : Fields.splitOnce '/' ((decimalDigits start ++ '-' :: decimalDigits last)
      ++ '/' :: decimalDigits total)
      = some (decimalDigits start ++ '-' :: decimalDigits last, decimalDigits total) := by
    apply Fields.splitOnce_append
    have hdash : '/' ≠ '-' := by decide
    have hdigits : ∀ n, '/' ∉ decimalDigits n := fun n => notMem_decimalDigits (by decide)
    simp [hdash, hdigits]
  have hcut' : Fields.splitOnce '-' (decimalDigits start ++ '-' :: decimalDigits last)
      = some (decimalDigits start, decimalDigits last) :=
    Fields.splitOnce_append (notMem_decimalDigits (by decide)) _
  have hstrip : ("bytes ".toList ++ (decimalDigits start ++ '-' :: decimalDigits last)
      ++ '/' :: decimalDigits total).dropPrefix? "bytes ".toList
      = some ((decimalDigits start ++ '-' :: decimalDigits last) ++ '/' :: decimalDigits total) := by
    rw [List.append_assoc]
    simp [List.dropPrefix?]
  have hword : start' ≤ last' := UInt64.le_iff_toNat_le.mpr (by omega)
  have hzero : total' ≠ 0 := by
    intro hzero
    rw [hzero] at htotalNat
    change 0 = total at htotalNat
    omega
  have hrange : parseOutboundContentRange
      (chunkHeaders ⟨uploadId token, start, last, total⟩).contentRange
      = .ok (start, last, total) := by
    have hfields : parseOutboundContentRange (some ("bytes ".toList
        ++ (decimalDigits start ++ '-' :: decimalDigits last) ++ '/' :: decimalDigits total))
        = .ok (start'.toNat, last'.toNat, total'.toNat) := by
      simp only [parseOutboundContentRange, Fallible.present, bind, Except.bind, hstrip, hcut, hcut',
        hstart', hlast', htotal', Fallible.require, if_pos (And.intro hword hzero)]
      rfl
    rw [hstartNat, hlastNat, htotalNat] at hfields
    exact hfields
  have hdeclared : ((some (decimalDigits (last - start + 1))).bind parseU64).map UInt64.toNat
      = some (last - start + 1) := by
    rw [Option.bind_some, hlen', Option.map_some, hlenNat]
  have hid : (some (uploadId token)).filter (fun id => validHex (String.ofList id) 64)
      = some (uploadId token) := by
    rw [Option.filter_some, if_pos hhex]
  have hword' : last - start + 1 < 2 ^ 64 := by omega
  change (Fallible.present ((some (uploadId token)).filter _) _).bind _ = _
  simp only [chunkHeaders, OutboundChunk.len] at hrange ⊢
  simp only [hid, hrange, hdeclared, Fallible.present, bind, Except.bind, Fallible.require, hword',
    hlen, htotal, hlast, if_true]
  rfl

/-! ### The client and the port -/

/-- An upload at a path: the port, the variables of the client's loop, how many answers it has got,
and how it has ended. -/
structure UploadWorld where
  shelf : Shelf
  client : Upload
  answers : ℕ
  result : Option (Except UploadError Unit)

/-- What happens: the request for the client's chunk reaches the port, or anything else does.  The
answer to a chunk where the client stands may get to the client. -/
inductive UploadEvent
  | ask (delivered : Bool)
  | other (event : ShelfEvent) (delivered : Bool)

/-- Whether the answer gets to the client. -/
def UploadEvent.delivered : UploadEvent → Bool
  | .ask delivered => delivered
  | .other _ delivered => delivered

/-- The upload of a file that the port can take. -/
structure UploadTask where
  token : { bytes : List UInt8 // bytes.length = 32 }
  file : List UInt8
  maxUploadBytes : ℕ
  nonempty : file ≠ []
  fits : file.length ≤ maxUploadBytes
  words : maxUploadBytes < 2 ^ 64

namespace UploadWorld

variable (task : UploadTask) (w : UploadWorld)

/-- The chunk where the client stands. -/
def chunk : Option OutboundChunk :=
  (nextChunk w.client.offset task.file.length uploadChunk).map fun (start, last) =>
    ⟨uploadId task.token, start, last, task.file.length⟩

/-- What happens at the port. -/
def event : UploadEvent → Option ShelfEvent
  | .ask _ => (w.chunk task).map fun chunk => .begin (chunkHeaders chunk)
  | .other event _ => some event

/-- The loop goes on with an answer. -/
def receive (chunk : OutboundChunk) (answer : ChunkAnswer) : UploadWorld :=
  match w.client.accept task.file.length chunk.last answer.portReply with
  | .error e => { w with answers := w.answers + 1, result := some (.error e) }
  | .ok client =>
      { w with
        client := client
        answers := w.answers + 1
        result := if nextChunk client.offset task.file.length uploadChunk = none then some (.ok ())
          else none }

/-- The answer that the client gets. -/
def answered (e : UploadEvent) : Option ChunkReply → Option (OutboundChunk × ChunkAnswer)
  | none => none
  | some reply =>
      match w.chunk task with
      | none => none
      | some chunk =>
          if e.delivered = true ∧ w.result = none ∧ reply.chunk = some chunk then
            some (chunk, reply.answer)
          else none

/-- One step of the upload. -/
def step (w : UploadWorld) (e : UploadEvent) : Option UploadWorld := do
  let event ← w.event task e
  let (shelf, reply) ← w.shelf.step task.maxUploadBytes event
  match w.answered task e reply with
  | none => some { w with shelf := shelf }
  | some (chunk, answer) => some (({ w with shelf := shelf } : UploadWorld).receive task chunk answer)

/-- Whoever else asks sends the bytes of the file that is meant; and no write of an earlier request
is in flight when a request gets the lock. -/
def Honest (files : List Char → List UInt8) (w : UploadWorld) : UploadEvent → Prop
  | .ask _ => w.shelf.flights = []
  | .other event _ => w.shelf.Honest files task.maxUploadBytes event

instance {files : List Char → List UInt8} : (e : UploadEvent) → Decidable (w.Honest task files e)
  | .ask _ => inferInstanceAs (Decidable (w.shelf.flights = []))
  | .other event _ => inferInstanceAs (Decidable (w.shelf.Honest files task.maxUploadBytes event))

/-- What holds all along. -/
structure Good (files : List Char → List UInt8) : Prop where
  sound : w.shelf.Sound files
  within : w.client.Within task.file.length
  answers : w.answers ≤ 4 * task.file.length
  left : w.result = none → w.answers + w.client.left task.file.length ≤ 4 * task.file.length

/-- How the loop may end in a step. -/
def Ends (w w' : UploadWorld) : Prop :=
  match w'.result with
  | none => True
  | some (.ok ()) => ∃ inode, w'.shelf.destination = some inode ∧ w'.shelf.data inode = task.file
  | some (.error (.refused _ _)) => True
  | some (.error .rewound) => w.client.backwardRecoveries = maxUploadBackwardRecoveries
  | some (.error _) => False

end UploadWorld

variable {task : UploadTask} {w w' : UploadWorld} {files : List Char → List UInt8}

theorem UploadWorld.chunk_eq_some {chunk : OutboundChunk} (h : w.chunk task = some chunk) :
  ∃ last, nextChunk w.client.offset task.file.length uploadChunk = some (w.client.offset, last)
    ∧ chunk = ⟨uploadId task.token, w.client.offset, last, task.file.length⟩
  := by
  obtain ⟨⟨start, last⟩, hnext, rfl⟩ := Option.map_eq_some_iff.mp h
  obtain ⟨rfl, _⟩ := nextChunk_eq_some hnext
  exact ⟨last, hnext, rfl⟩

/-- The port reads the headers of the client's request as the chunk that it means. -/
theorem UploadWorld.chunk_admitted {chunk : OutboundChunk} (h : w.chunk task = some chunk) :
  admitChunk task.maxUploadBytes (chunkHeaders chunk) = .ok chunk
  := by
  obtain ⟨last, hnext, rfl⟩ := UploadWorld.chunk_eq_some h
  obtain ⟨_, hle, hlast, hsize⟩ := nextChunk_eq_some hnext
  have hroom : uploadChunk ≤ maxOutboundChunkBytes := by decide
  exact admitChunk_chunkHeaders task.token hle hlast (by omega) task.fits task.words

/-- The client's request is honest. -/
theorem UploadWorld.ask_honest
    (hfile : files (uploadId task.token) = task.file) {chunk : OutboundChunk}
    (h : w.chunk task = some chunk) {s : Shelf} (hsettled : s.flights = []) :
  s.Honest files task.maxUploadBytes (.begin (chunkHeaders chunk))
  := by
  obtain ⟨last, hnext, rfl⟩ := UploadWorld.chunk_eq_some h
  have hadmitted := UploadWorld.chunk_admitted h
  intro chunk' hchunk'
  rw [hadmitted] at hchunk'
  cases hchunk'
  change task.file.length = (files (uploadId task.token)).length ∧ _
  rw [hfile]
  exact ⟨rfl, hsettled⟩

/-- A true answer to the client's chunk is never taken for a wrong one. -/
theorem UploadWorld.Good.receive
    (hfile : files (uploadId task.token) = task.file) (h : w.Good task files) (hopen : w.result = none)
    {chunk : OutboundChunk} (hchunk : w.chunk task = some chunk) {answer : ChunkAnswer}
    {s : Shelf} (hsound : s.Sound files) (htold : answer.Told files s chunk) :
  (({ w with shelf := s } : UploadWorld).receive task chunk answer).Good task files
    ∧ w.Ends task (({ w with shelf := s } : UploadWorld).receive task chunk answer)
  := by
  obtain ⟨last, hnext, rfl⟩ := UploadWorld.chunk_eq_some hchunk
  obtain ⟨_, hle, hlast, _⟩ := nextChunk_eq_some hnext
  have hcount := h.left hopen
  have hless : 0 < w.client.left task.file.length := by
    unfold Upload.left
    omega
  have hgood : ∀ client result, client.Within task.file.length →
      client.left task.file.length < w.client.left task.file.length →
      ({ w with shelf := s, client := client, answers := w.answers + 1, result := result } :
        UploadWorld).Good task files := by
    intro client result hwithin hleft
    exact ⟨hsound, hwithin, by change w.answers + 1 ≤ _; omega,
      fun _ => by change w.answers + 1 + client.left _ ≤ _; omega⟩
  have hgone : ∀ e, ({ w with shelf := s, answers := w.answers + 1, result := some (.error e) } :
      UploadWorld).Good task files := by
    intro e
    exact ⟨hsound, h.within, by change w.answers + 1 ≤ _; omega, by rintro ⟨⟩⟩
  unfold UploadWorld.receive
  cases haccept : w.client.accept task.file.length last answer.portReply with
  | error e =>
      refine ⟨hgone e, ?_⟩
      cases answer with
      | complete offset bytes =>
          have haccepts : w.client.accept task.file.length last (.stored offset)
              = .ok { w.client with offset := offset } := if_pos (.inr htold.1)
          cases haccepts.symm.trans haccept
      | stored offset bytes =>
          have haccepts : w.client.accept task.file.length last (.stored offset)
              = .ok { w.client with offset := offset } := if_pos (.inl htold.1)
          cases haccepts.symm.trans haccept
      | conflict offset bytes =>
          obtain ⟨rfl, hmany⟩ := Upload.acceptResumeOffset_error htold.1 htold.2.2.1 haccept
          exact le_antisymm h.within.backwardRecoveries hmany
      | refused status message =>
          cases haccept
          trivial
  | ok client =>
      obtain ⟨hwithin, hleft⟩ := Upload.accept_left h.within hnext haccept
      refine ⟨hgood client _ hwithin hleft, ?_⟩
      have hmore : client.offset < task.file.length →
          nextChunk client.offset task.file.length uploadChunk ≠ none := by
        intro hlt hnone
        have hsize : uploadChunk ≠ 0 := by decide
        unfold nextChunk at hnone
        split_ifs at hnone with hend
        exact hlt.not_ge (hend.resolve_right hsize)
      unfold UploadWorld.Ends
      cases answer with
      | complete offset bytes =>
          obtain ⟨_, _, _, inode, hdestination, hdata⟩ := htold
          dsimp only
          split_ifs
          · exact ⟨inode, hdestination, hdata.trans hfile⟩
          · trivial
      | stored offset bytes =>
          have haccepts : w.client.accept task.file.length last (.stored offset)
              = .ok { w.client with offset := offset } := if_pos (.inl htold.1)
          cases haccepts.symm.trans haccept
          dsimp only
          rw [if_neg (hmore htold.2.2.1)]
          trivial
      | conflict offset bytes =>
          obtain ⟨hoffset, hlt⟩ := Upload.acceptResumeOffset_ok haccept
          dsimp only
          rw [if_neg (hmore (hoffset ▸ hlt))]
          trivial
      | refused status message => cases haccept

theorem UploadWorld.Ends.refl (h : w.result = none) (s : Shelf) :
  w.Ends task { w with shelf := s }
  := by
  unfold UploadWorld.Ends
  rw [h]
  trivial

theorem UploadWorld.Good.step
    (hfile : files (uploadId task.token) = task.file) (h : w.Good task files) {e : UploadEvent}
    (hhonest : w.Honest task files e) (hstep : w.step task e = some w') :
  w'.Good task files ∧ (w.result = none → w.Ends task w')
  := by
  obtain ⟨event, hevent, hstep⟩ := Option.bind_eq_some_iff.mp hstep
  obtain ⟨⟨s, reply⟩, hshelf, hstep⟩ := Option.bind_eq_some_iff.mp hstep
  dsimp only at hstep
  have hhonest' : w.shelf.Honest files task.maxUploadBytes event := by
    cases e with
    | ask delivered =>
        obtain ⟨chunk, hchunk, rfl⟩ := Option.map_eq_some_iff.mp hevent
        exact UploadWorld.ask_honest hfile hchunk hhonest
    | other event' delivered =>
        cases hevent
        exact hhonest
  have hmoved := h.sound.step hhonest' hshelf
  cases hanswered : w.answered task e reply with
  | none =>
      rw [hanswered] at hstep
      cases hstep
      exact ⟨⟨hmoved.sound, h.within, h.answers, h.left⟩, fun hopen => .refl hopen s⟩
  | some answered =>
      obtain ⟨chunk, answer⟩ := answered
      rw [hanswered] at hstep
      cases hstep
      obtain ⟨reply', hreply, hopen, hchunk, hto, rfl⟩ : ∃ reply', reply = some reply'
          ∧ w.result = none ∧ w.chunk task = some chunk ∧ reply'.chunk = some chunk
          ∧ reply'.answer = answer := by
        unfold UploadWorld.answered at hanswered
        cases reply with
        | none => cases hanswered
        | some reply' =>
            cases hchunk : w.chunk task with
            | none =>
                rw [hchunk] at hanswered
                cases hanswered
            | some chunk' =>
                rw [hchunk] at hanswered
                dsimp only at hanswered
                split_ifs at hanswered with hto
                cases hanswered
                exact ⟨reply', rfl, hto.2.1, rfl, hto.2.2, rfl⟩
      obtain ⟨hgood, hends⟩ := h.receive hfile hopen hchunk hmoved.sound
        (hmoved.told reply' hreply chunk hto)
      exact ⟨hgood, fun _ => hends⟩

/-- An upload that has not begun, at a path where there is nothing. -/
def uploadBegins : UploadWorld where
  shelf := emptyShelf
  client := uploadStart
  answers := 0
  result := none

theorem uploadBegins_good : uploadBegins.Good task files where
  sound := emptyShelf_sound
  within := uploadStart_within _
  answers := Nat.zero_le _
  left := by
    intro _
    change 0 + uploadStart.left _ ≤ _
    rw [uploadStart_left, Nat.zero_add]

/-- A file of one byte. -/
def oneByteTask : UploadTask where
  token := ⟨List.replicate 32 0, rfl⟩
  file := [7]
  maxUploadBytes := 100
  nonempty := by decide
  fits := by decide
  words := by decide

/-- The first request is dropped. -/
def oneByteEvents : List UploadEvent :=
  [.ask true, .other (.dropped [7] 0) true, .other (.lands 0 1) true, .ask true,
    .other (.frame [7]) true]

end Votport
