import Votport.Foundation.Runs
import Votport.Serving.Ranges

/-!
# A download that is resumed

The browser writes the body of an answer to a file and asks again for the rest when the connection
fails, from the byte that it has come to.  A whole body starts the file over.  The time it waits
between attempts is bounded, and so is how often the authorization is restored.
-/

namespace Votport.Web

/-- `SAVE_RETRY_BUDGET_MS`. -/
def saveRetryBudgetMs : ℕ := 10 * 60 * 1000

/-- `SAVE_RETRY_CAP_MS`. -/
def saveRetryCapMs : ℕ := 8000

/-- `Number.MAX_SAFE_INTEGER`. -/
def maxSafeInteger : ℕ := 2 ^ 53 - 1

/-- A file with its announced size. -/
structure DownloadFile where
  bytes : ℕ
  downloadUrl : List Char

/-- The options: the attempts or the time to wait, and whether a lost authorization is restored. -/
structure DownloadOptions where
  retries : Option ℕ
  retryBudgetMs : Option ℕ
  onAuthLost : Bool

/-- How the reading of a body ends.  A failure is transient when it is a `TypeError`. -/
inductive BodyEnd
  | done
  | failed (transient : Bool)
deriving DecidableEq

/-- The body of an answer, in the parts it is read in. -/
structure ReplyBody where
  chunks : List (List UInt8)
  ending : BodyEnd
deriving DecidableEq

/-- What restoring the authorization comes to. -/
inductive Restored
  | yes
  | no
  | failed (transient : Bool)
deriving DecidableEq

/-- An answer, with where it came from after redirects.  What restoring the authorization comes to
is part of it. -/
structure Response where
  status : ℕ
  url : List Char
  contentRange : Option (List Char)
  body : Option ReplyBody
  restored : Restored
deriving DecidableEq

/-- What `fetch` comes to. -/
inductive Reply
  | rejected (transient : Bool)
  | response (response : Response)
deriving DecidableEq

/-- The variables of the loop, with the writable. -/
structure Download where
  waited : ℕ
  written : ℕ
  reauthorized : ℕ
  attempt : ℕ
  url : List Char
  content : List UInt8
deriving DecidableEq

/-- An error of an attempt. -/
structure Failure where
  message : String
  transient : Bool
deriving DecidableEq

/-- The loop goes on, or the promise is settled. -/
inductive Outcome
  | waiting (download : Download)
  | resolved (download : Download)
  | rejected (download : Download) (message : String)
deriving DecidableEq

/-- The variables at the outcome. -/
def Outcome.download : Outcome → Download
  | waiting download => download
  | resolved download => download
  | rejected download _ => download

/-- The number that digits stand for. -/
def numberOf (text : List Char) : Option ℕ :=
  if text ≠ [] ∧ text.all Char.isDigit = true then some (Nat.ofDigitChars 10 text 0) else none

/-- The numbers of a header that says which part a body is. -/
def matchContentRange (header : Option (List Char)) : Option (ℕ × ℕ × ℕ) := do
  let header ← header
  let rest ← if "bytes ".toList <+: header then some (header.drop 6) else none
  let (first, rest) ← Fields.splitOnce '-' rest
  let (last, length) ← Fields.splitOnce '/' rest
  return (← numberOf first, ← numberOf last, ← numberOf length)

/-- The header of the next request. -/
def Download.range (download : Download) : List (List Char) :=
  if download.written = 0 then [] else [Serving.rangeFrom download.written]

/-- The parts of a body are written one after the other. -/
def readBody (bytes : ℕ) : List (List UInt8) → BodyEnd → Download → Download × Option Failure
  | [], .done, download =>
      (download, if download.written ≠ bytes then some ⟨"download response truncated", true⟩ else none)
  | [], .failed transient, download => (download, some ⟨"the body cannot be read", transient⟩)
  | chunk :: chunks, ending, download =>
      if bytes < download.written + chunk.length then
        (download, some ⟨"download response exceeds the file size", false⟩)
      else
        readBody bytes chunks ending
          { download with
            content := download.content ++ chunk
            written := download.written + chunk.length }

/-- The body of an answer for the rest of the file, or for all of it. -/
def receive (file : DownloadFile) (response : Response) (download : Download) :
    Download × Option Failure :=
  match response.body with
  | none => (download, some ⟨"browser cannot stream this response", false⟩)
  | some body =>
      let download :=
        if response.url = [] then download else { download with url := response.url }
      if response.status = 206 then
        if matchContentRange response.contentRange
              = some (download.written, file.bytes - 1, file.bytes)
            ∧ download.written < file.bytes then
          readBody file.bytes body.chunks body.ending download
        else (download, some ⟨"download response has an invalid byte range", false⟩)
      else if response.status ≠ 200 then
        (download, some ⟨"unexpected download status", false⟩)
      else if download.written ≠ 0 then
        readBody file.bytes body.chunks body.ending { download with content := [], written := 0 }
      else readBody file.bytes body.chunks body.ending download

/-- How long is waited before the next attempt. -/
def Download.delay (download : Download) : ℕ :=
  min (500 * 2 ^ min download.attempt 10) saveRetryCapMs

/-- There is no other attempt. -/
def Download.exhausted (options : DownloadOptions) (download : Download) : Bool :=
  match options.retries with
  | none => decide (options.retryBudgetMs.getD saveRetryBudgetMs < download.waited + download.delay)
  | some retries => decide (retries ≤ download.attempt + 1)

/-- After a failure, the attempt is repeated when the failure is transient. -/
def fail (options : DownloadOptions) (failure : Failure) (download : Download) : Outcome :=
  if failure.transient = false ∨ download.exhausted options = true then
    .rejected download failure.message
  else
    .waiting { download with
      waited := download.waited + download.delay
      attempt := download.attempt + 1 }

/-- An answer that is not a failure of the server is refused, or its body is written. -/
def take (file : DownloadFile) (options : DownloadOptions) (response : Response)
    (download : Download) : Outcome :=
  if response.status < 200 ∨ 300 ≤ response.status then
    fail options ⟨"server returned an error", false⟩ download
  else
    match receive file response download with
    | (download, none) => .resolved download
    | (download, some failure) => fail options failure download

/-- One attempt of `streamToWritable`. -/
def attempt (file : DownloadFile) (options : DownloadOptions) (reply : Reply)
    (download : Download) : Outcome :=
  match reply with
  | .rejected transient => fail options ⟨"the request failed", transient⟩ download
  | .response response =>
      if 500 ≤ response.status ∨ response.status = 429 then
        fail options ⟨"server returned an error", true⟩ download
      else if (response.status = 401 ∨ response.status = 403) ∧ options.onAuthLost = true
          ∧ download.reauthorized < 2 then
        let download := { download with reauthorized := download.reauthorized + 1 }
        match response.restored with
        | .yes => .waiting download
        | .no => take file options response download
        | .failed transient => fail options ⟨"the authorization failed", transient⟩ download
      else take file options response download

/-- What `streamToWritable` begins with. -/
def start (file : DownloadFile) : Outcome :=
  let download := ⟨0, 0, 0, 0, file.downloadUrl, []⟩
  if maxSafeInteger < file.bytes then .rejected download "invalid file size" else .waiting download

/-- A reply to the request of the loop. -/
def step (file : DownloadFile) (options : DownloadOptions) (outcome : Outcome) (reply : Reply) :
    Option Outcome :=
  match outcome with
  | .waiting download => some (attempt file options reply download)
  | _ => none

/-! ### What a file is served with -/

/-- The answer of the server to the next request, received in one part. -/
def served (content : List UInt8) (etag : List Char) (download : Download) : Reply :=
  let answer := Serving.serveFile content etag ⟨download.range, none⟩
  .response {
    status := answer.status
    url := download.url
    contentRange := answer.contentRange
    body := some ⟨[answer.body], .done⟩
    restored := .no }

end Votport.Web
