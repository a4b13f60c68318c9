/-
Downloading media (`download.go`, `download-to-file.go`, `mediaconn.go`).

Media is fetched from a list of hosts. `DownloadMediaWithPath` asks one host after the other until one gives the media or
an error that no other host can mend; `downloadAndDecrypt` asks one host up to five times, checks the hash of what came
and its MAC, decrypts it and checks the hash of the plaintext. The variants `…ToFile` write the body into a file that the
caller opened, and decrypt it there.

Model: the network is a sequence of attempts; each request takes the next one, so a sequence of answers is any sequence.
An attempt fails before there is a body, or is answered with a status and a body that is read up to its end or up to an
error. What the `select` after a failed attempt does is part of the attempt: the timer, or the context with its error.
Of a transport error the model keeps what the code asks about it. A response whose body was read to its end has the
length it announced, as `net/http` checks. The file does not fail and is extended with zeros when it is preallocated.
HKDF, HMAC, SHA-256 and AES are functions, and so is `retryafter.Should`, which retries none of 403, 404 and 410.
Left out: URLs and headers, which only the network reads, logging, and the length of the waits.
-/
import Hypermeow.Util.CbcStream

namespace Hypermeow.Client.Media

open Lib Util Go List

/-! ## The network -/

/-- what the code asks about an error of the transport: is it `context.Canceled`, a `net.Error`, an HTTP/2 stream error? -/
structure TransportError where
  canceled : Bool
  net : Bool
  stream : Bool
deriving DecidableEq, Repr

inductive CtxError where
  | canceled
  | deadlineExceeded
deriving DecidableEq, Repr

inductive MediaConnError where
  | query
  | unexpectedChild
  | attributes
  | host
deriving DecidableEq, Repr

inductive MediaError where
  | transport (e : TransportError)
  /-- `DownloadHTTPError` -/
  | http (status : ℕ)
  | ctx (e : CtxError)
  | checksumLength (n : ℕ)
  | tooShortFile
  | invalidMediaEncSHA256
  | invalidMediaHMAC
  | invalidMediaSHA256
  | invalidUnencryptedMediaSHA256
  | decrypt (e : CbcError)
  | decryptFile (e : StreamError)
  | readMAC
  | path
  | refresh (e : MediaConnError)
  | lastHost (e : MediaError)
deriving DecidableEq, Repr

/-- the body of a response: the bytes that are read and how reading ends -/
structure Body where
  data : Bytes
  err : Option TransportError
  contentLength : Option ℕ
  complete : err = none → ∀ n, contentLength = some n → n = data.length

inductive Response where
  | failed (e : TransportError)
  | answered (status : ℕ) (body : Body)

structure Attempt where
  response : Response
  /-- the context's error, when it is done before the next attempt -/
  wait : Option CtxError

/-- the next attempt, and the file that the caller opened -/
structure World where
  next : ℕ
  file : File

abbrev Proc := Go World MediaError

structure Env where
  /-- `hkdfutil.SHA256(key, nil, info, 112)` -/
  hkdf : Bytes → Bytes → Bytes
  hmac : Bytes → Bytes → Bytes
  sha256 : Bytes → Bytes
  aes : Bytes → BlockCipher
  /-- `retryafter.Should(status, true)` -/
  retryStatus : ℕ → Bool
  length_hkdf : ∀ key info, (hkdf key info).length = 112
  length_hmac : ∀ key data, (hmac key data).length = 32
  length_sha256 : ∀ data, (sha256 data).length = 32
  retryStatus_gone : ∀ status ∈ [403, 404, 410], retryStatus status = false

/-! ## Hosts -/

/-- a child of the `media_conn` node -/
inductive ConnChild where
  | host (hostname : Option Bytes)
  | other
deriving DecidableEq, Repr

/-- the answer to the `media_conn` query -/
inductive ConnReply where
  | failed
  /-- no child, or a first child with another tag -/
  | unexpected
  | mediaConn (attributesOK : Bool) (children : List ConnChild)
deriving DecidableEq, Repr

def connHosts : List ConnChild → Except MediaConnError (List Bytes)
  | [] => .ok []
  | .other :: children => connHosts children
  | .host none :: _ => .error .host
  | .host (some hostname) :: children => (connHosts children).map (hostname :: ·)

def queryMediaConn : ConnReply → Except MediaConnError (List Bytes)
  | .failed => .error .query
  | .unexpected => .error .unexpectedChild
  | .mediaConn attributesOK children => if attributesOK then connHosts children else .error .attributes

/-- `cached` are the hosts of a connection that has not expired -/
def refreshMediaConn (cached : Option (List Bytes)) (reply : ConnReply) : Except MediaConnError (List Bytes) :=
  match cached with
  | some hosts => .ok hosts
  | none => queryMediaConn reply

/-- errors after which no other host is asked -/
def MediaError.final : MediaError → Bool
  | .transport e => e.canceled
  | .http status => decide (status ∈ [403, 404, 410])
  | .ctx e => decide (e = .canceled)
  | .invalidMediaSHA256 => true
  | _ => false

/-- the loop over the hosts; `nothing` is what is returned when there are none -/
def downloadFromHosts {α : Type} (download : Proc α) (nothing : α) : List Bytes → Proc α
  | [] => pure nothing
  | _ :: hosts => do
    match ← Go.attempt download with
    | .ok a => pure a
    | .error e =>
      if e.final then Go.throw e
      else if hosts = [] then Go.throw (.lastHost e)
      else downloadFromHosts download nothing hosts

/-- what is to be downloaded -/
structure Request where
  directPath : Bytes
  encFileHash : Option Bytes
  fileHash : Option Bytes
  mediaKey : Option Bytes
  mediaType : Bytes
deriving DecidableEq, Repr

def Request.startsWithSlash (r : Request) : Bool := r.directPath.head? == some 47

/-- the hash of the file that is asked for; without one and without leave to have none, zeros -/
def Request.hash (r : Request) (allowNoHash : Bool) : Option Bytes :=
  if !allowNoHash && r.fileHash.isNone then some (List.replicate 32 0) else r.fileHash

/-! ## Keys and requests -/

variable (E : Env) (net : ℕ → Attempt)

structure MediaKeys where
  iv : Bytes
  cipherKey : Bytes
  macKey : Bytes
  refKey : Bytes
deriving DecidableEq, Repr

def getMediaKeys (mediaKey : Option Bytes) (appInfo : Bytes) : MediaKeys :=
  let mediaKeyExpanded := E.hkdf (mediaKey.getD []) appInfo
  { iv := mediaKeyExpanded.take 16
    cipherKey := (mediaKeyExpanded.drop 16).take 32
    macKey := (mediaKeyExpanded.drop 48).take 32
    refKey := mediaKeyExpanded.drop 80 }

def mediaHMACLength : ℕ := 10

/-- the MAC that belongs to a ciphertext -/
def mediaHMAC (keys : MediaKeys) (file : Bytes) : Bytes := (E.hmac keys.macKey (keys.iv ++ file)).take mediaHMACLength

def shouldRetryMediaDownload : MediaError → Bool
  | .transport e => !e.canceled && (e.net || e.stream)
  | .http status => E.retryStatus status
  | .ctx e => decide (e = .deadlineExceeded)
  | _ => false

def doMediaDownloadRequest : Proc Body := do
  let w ← Go.get
  Go.modify fun w => { w with next := w.next + 1 }
  match (net w.next).response with
  | .failed e => Go.throw (.transport e)
  | .answered status body => if status ≠ 200 then Go.throw (.http status) else pure body

/-- the context's error in the wait after the last attempt -/
def waitForRetry : Proc (Option CtxError) := do
  let w ← Go.get
  pure (net (w.next - 1)).wait

/-! ## In memory -/

def downloadMedia : Proc Bytes := do
  let body ← doMediaDownloadRequest net
  match body.err with
  | some e => Go.throw (.transport e)
  | none => pure body.data

def downloadEncryptedMedia (checksum : Bytes) : Proc (Bytes × Bytes) :=
  if checksum.length ≠ 32 then Go.throw (.checksumLength checksum.length)
  else do
    let data ← downloadMedia net
    if data.length ≤ mediaHMACLength then Go.throw .tooShortFile
    else if E.sha256 data ≠ checksum then Go.throw .invalidMediaEncSHA256
    else pure (data.take (data.length - mediaHMACLength), data.drop (data.length - mediaHMACLength))

/-- one attempt -/
def downloadPossiblyEncryptedMedia (checksum : Option Bytes) : Proc (Bytes × Option Bytes) :=
  match checksum with
  | none => do
    let file ← downloadMedia net
    pure (file, none)
  | some checksum => do
    let r ← downloadEncryptedMedia E net checksum
    pure (r.1, some r.2)

/-- the attempts that are left, and the results of the last one -/
def downloadPossiblyEncryptedMediaWithRetries (checksum : Option Bytes) :
    ℕ → Except MediaError (Bytes × Option Bytes) → Proc (Bytes × Option Bytes)
  | 0, .ok r => pure r
  | 0, .error e => Go.throw e
  | n + 1, _ => do
    match ← Go.attempt (downloadPossiblyEncryptedMedia E net checksum) with
    | .ok r => pure r
    | .error e =>
      if shouldRetryMediaDownload E e then do
        match ← waitForRetry net with
        | some ctx => Go.throw (.ctx ctx)
        | none => downloadPossiblyEncryptedMediaWithRetries checksum n (.error e)
      else Go.throw e

def validateMedia (keys : MediaKeys) (file : Bytes) (mac : Option Bytes) : Proc Unit :=
  if mediaHMAC E keys file = mac.getD [] then pure () else Go.throw .invalidMediaHMAC

/-- the rest of `downloadAndDecrypt`: the checks of what was downloaded -/
def openMedia (mediaKey : Option Bytes) (appInfo : Bytes) (fileEncSHA256 fileSHA256 : Option Bytes) (ciphertext : Bytes)
    (mac : Option Bytes) : Proc Bytes :=
  let keys := getMediaKeys E mediaKey appInfo
  if mediaKey = none ∧ fileEncSHA256 = none ∧ mac = none then
    -- unencrypted media
    if fileSHA256 ≠ none ∧ E.sha256 ciphertext ≠ fileSHA256.getD [] then Go.throw .invalidUnencryptedMediaSHA256
    else pure ciphertext
  else do
    validateMedia E keys ciphertext mac
    let data ← Go.mapErr .decrypt (decrypt E.aes keys.cipherKey keys.iv ciphertext)
    if E.sha256 data ≠ fileSHA256.getD [] then Go.throw .invalidMediaSHA256 else pure data

def downloadAndDecrypt (mediaKey : Option Bytes) (appInfo : Bytes) (fileEncSHA256 fileSHA256 : Option Bytes) :
    Proc Bytes := do
  let (ciphertext, mac) ← downloadPossiblyEncryptedMediaWithRetries E net fileEncSHA256 5 (.ok ([], none))
  openMedia E mediaKey appInfo fileEncSHA256 fileSHA256 ciphertext mac

def downloadMediaWithPath (conn : Except MediaConnError (List Bytes)) (r : Request) (allowNoHash : Bool) : Proc Bytes :=
  if !r.startsWithSlash then Go.throw .path
  else match conn with
    | .error e => Go.throw (.refresh e)
    | .ok hosts =>
      downloadFromHosts (downloadAndDecrypt E net r.mediaKey r.mediaType r.encFileHash (r.hash allowNoHash)) [] hosts

/-! ## To a file -/

def onFile (f : File → File) : Proc Unit := Go.modify fun w => { w with file := f w.file }

/-- `io.Copy(hasher, file)`: the bytes that the hasher is given -/
def hashFile : Proc Bytes := do
  let w ← Go.get
  onFile fun f => f.readAll.2
  pure w.file.readAll.1

/-- `preallocates` says that the file is an `*os.File` on a system where preallocating extends it -/
def downloadMediaToFile (preallocates : Bool) : Proc (ℕ × Bytes) := do
  let body ← doMediaDownloadRequest net
  if preallocates then onFile fun f => f.preallocate (body.contentLength.getD 0) else pure ()
  onFile fun f => f.write body.data
  match body.err with
  | some e => Go.throw (.transport e)
  | none => pure (body.data.length, E.sha256 body.data)

def downloadEncryptedMediaToFile (preallocates : Bool) (checksum : Bytes) : Proc Bytes :=
  if checksum.length ≠ 32 then Go.throw (.checksumLength checksum.length)
  else do
    let (size, hash) ← downloadMediaToFile E net preallocates
    if size ≤ mediaHMACLength then Go.throw .tooShortFile
    else if checksum ≠ hash then Go.throw .invalidMediaEncSHA256
    else do
      let w ← Go.get
      match w.file.readAt mediaHMACLength (size - mediaHMACLength) with
      | none => Go.throw .readMAC
      | some mac => do
        onFile fun f => f.truncate (size - mediaHMACLength)
        pure mac

/-- one attempt; it returns the MAC -/
def downloadPossiblyEncryptedMediaToFile (preallocates : Bool) (checksum : Option Bytes) : Proc (Option Bytes) :=
  match checksum with
  | none => do
    let _ ← downloadMediaToFile E net preallocates
    pure none
  | some checksum => some <$> downloadEncryptedMediaToFile E net preallocates checksum

/-- here the error of the last attempt is overwritten by the one of `Seek`, which is none -/
def downloadPossiblyEncryptedMediaWithRetriesToFile (preallocates : Bool) (checksum : Option Bytes) :
    ℕ → Except MediaError (Option Bytes) → Proc (Option Bytes)
  | 0, .ok mac => pure mac
  | 0, .error e => Go.throw e
  | n + 1, _ => do
    match ← Go.attempt (downloadPossiblyEncryptedMediaToFile E net preallocates checksum) with
    | .ok mac => pure mac
    | .error e =>
      if shouldRetryMediaDownload E e then do
        onFile File.seekStart
        match ← waitForRetry net with
        | some ctx => Go.throw (.ctx ctx)
        | none => downloadPossiblyEncryptedMediaWithRetriesToFile preallocates checksum n (.ok none)
      else Go.throw e

def validateMediaFile (keys : MediaKeys) (mac : Option Bytes) : Proc Unit := do
  onFile File.seekStart
  let file ← hashFile
  if mediaHMAC E keys file = mac.getD [] then pure () else Go.throw .invalidMediaHMAC

def decryptInFile (key iv : Bytes) : Proc Unit :=
  Go.mapErr .decryptFile (Go.zoom World.file (fun f w => { w with file := f }) (decryptFile E.aes key iv))

/-- the rest of `downloadAndDecryptToFile` -/
def openMediaFile (mediaKey : Option Bytes) (appInfo : Bytes) (fileEncSHA256 fileSHA256 : Option Bytes)
    (mac : Option Bytes) : Proc Unit :=
  let keys := getMediaKeys E mediaKey appInfo
  if mediaKey = none ∧ fileEncSHA256 = none ∧ mac = none then
    match fileSHA256 with
    | none => pure ()
    | some hash => do
      onFile File.seekStart
      let file ← hashFile
      if hash ≠ E.sha256 file then Go.throw .invalidUnencryptedMediaSHA256 else pure ()
  else do
    validateMediaFile E keys mac
    onFile File.seekStart
    decryptInFile E keys.cipherKey keys.iv
    onFile File.seekStart
    let file ← hashFile
    if fileSHA256.getD [] ≠ E.sha256 file then Go.throw .invalidMediaSHA256 else pure ()

def downloadAndDecryptToFile (preallocates : Bool) (mediaKey : Option Bytes) (appInfo : Bytes)
    (fileEncSHA256 fileSHA256 : Option Bytes) : Proc Unit := do
  let mac ← downloadPossiblyEncryptedMediaWithRetriesToFile E net preallocates fileEncSHA256 5 (.ok none)
  openMediaFile E mediaKey appInfo fileEncSHA256 fileSHA256 mac

def downloadMediaWithPathToFile (conn : Except MediaConnError (List Bytes)) (preallocates : Bool) (r : Request)
    (allowNoHash : Bool) : Proc Unit :=
  if !r.startsWithSlash then Go.throw .path
  else match conn with
    | .error e => Go.throw (.refresh e)
    | .ok hosts => downloadFromHosts (downloadAndDecryptToFile E net preallocates r.mediaKey r.mediaType r.encFileHash
        (r.hash allowNoHash)) () hosts

/-! ## What an attempt gives -/

/-- the whole body, or how the attempt fails -/
def Attempt.fetched (a : Attempt) : Except MediaError Bytes :=
  match a.response with
  | .failed e => .error (.transport e)
  | .answered status body =>
    if status ≠ 200 then .error (.http status)
    else match body.err with
      | some e => .error (.transport e)
      | none => .ok body.data

/-- the file after what came of the body was written -/
def Attempt.received (preallocates : Bool) (a : Attempt) (f : File) : File :=
  match a.response with
  | .failed _ => f
  | .answered status body =>
    if status ≠ 200 then f
    else (if preallocates then f.preallocate (body.contentLength.getD 0) else f).write body.data

/-- the ciphertext and the MAC, after the checks of `downloadEncryptedMedia` -/
def accepted (checksum : Option Bytes) (fetched : Except MediaError Bytes) : Except MediaError (Bytes × Option Bytes) :=
  match checksum, fetched with
  | _, .error e => .error e
  | none, .ok data => .ok (data, none)
  | some checksum, .ok data =>
    if data.length ≤ mediaHMACLength then .error .tooShortFile
    else if E.sha256 data ≠ checksum then .error .invalidMediaEncSHA256
    else .ok (data.take (data.length - mediaHMACLength), some (data.drop (data.length - mediaHMACLength)))

/-- a checksum that `downloadEncryptedMedia` takes -/
def ChecksumFits (checksum : Option Bytes) : Prop := ∀ c, checksum = some c → c.length = 32

variable {E net} {checksum : Option Bytes} {preallocates : Bool} {w : World}

theorem doMediaDownloadRequest_run (w : World) :
    doMediaDownloadRequest net w = (match (net w.next).response with
      | .failed e => .err (.transport e)
      | .answered status body => if status ≠ 200 then .err (.http status) else .ok body,
      { w with next := w.next + 1 }) := by
  rw [doMediaDownloadRequest, get_bind, modify_bind]
  cases (net w.next).response with
  | failed e => rfl
  | answered status body =>
    simp only
    split_ifs <;> rfl

theorem downloadMedia_run (w : World) :
    downloadMedia net w = (.ofExcept (net w.next).fetched, { w with next := w.next + 1 }) := by
  rw [downloadMedia, bind_run, doMediaDownloadRequest_run, Attempt.fetched]
  cases (net w.next).response with
  | failed e => rfl
  | answered status body =>
    simp only
    split_ifs
    · rfl
    · cases hb : body.err <;> simp only [hb] <;> rfl

theorem downloadMediaToFile_run (w : World) :
    downloadMediaToFile E net preallocates w =
      (.ofExcept ((net w.next).fetched.map fun data => (data.length, E.sha256 data)),
        ⟨w.next + 1, (net w.next).received preallocates w.file⟩) := by
  rw [downloadMediaToFile, bind_run, doMediaDownloadRequest_run, Attempt.fetched, Attempt.received]
  cases (net w.next).response with
  | failed e => rfl
  | answered status body =>
    simp only
    by_cases hs : status ≠ 200
    · simp only [if_pos hs]
      rfl
    · simp only [if_neg hs]
      cases preallocates <;> cases body.err <;> rfl

theorem downloadPossiblyEncryptedMedia_run (E : Env) (net : ℕ → Attempt) (hc : ChecksumFits checksum) (w : World) :
    downloadPossiblyEncryptedMedia E net checksum w =
      (.ofExcept (accepted E checksum (net w.next).fetched), { w with next := w.next + 1 }) := by
  cases checksum with
  | none =>
    rw [downloadPossiblyEncryptedMedia, bind_run, downloadMedia_run]
    cases (net w.next).fetched <;> rfl
  | some c =>
    rw [downloadPossiblyEncryptedMedia, downloadEncryptedMedia, if_neg (by simpa using hc c rfl), bind_run, bind_run,
      downloadMedia_run]
    cases (net w.next).fetched with
    | error e => rfl
    | ok data =>
      simp only [Outcome.ofExcept, accepted]
      split_ifs <;> rfl

/-- a checksum of the wrong length fails before anything is asked -/
theorem downloadPossiblyEncryptedMedia_unfit (E : Env) (net : ℕ → Attempt) (preallocates : Bool) {c : Bytes}
    (hc : c.length ≠ 32) (w : World) :
    downloadPossiblyEncryptedMedia E net (some c) w = (.err (.checksumLength c.length), w) ∧
      downloadPossiblyEncryptedMediaToFile E net preallocates (some c) w = (.err (.checksumLength c.length), w) := by
  rw [downloadPossiblyEncryptedMedia, downloadEncryptedMedia, if_pos hc, downloadPossiblyEncryptedMediaToFile,
    downloadEncryptedMediaToFile, if_pos hc]
  exact ⟨rfl, rfl⟩

variable {a : Attempt} {data : Bytes}

/-- a body that came whole, and what was written of it -/
theorem Attempt.fetched_ok (h : a.fetched = .ok data) :
    ∃ body : Body, body.data = data ∧ body.err = none ∧ ∀ preallocates f, a.received preallocates f =
      (if preallocates then f.preallocate (body.contentLength.getD 0) else f).write data := by
  rw [Attempt.fetched] at h
  cases hr : a.response with
  | failed e =>
    rw [hr] at h
    cases h
  | answered status body =>
    rw [hr] at h
    simp only at h
    split_ifs at h with hs
    cases hb : body.err with
    | some e =>
      rw [hb] at h
      cases h
    | none =>
      rw [hb] at h
      cases h
      refine ⟨body, rfl, hb, fun preallocates f => ?_⟩
      rw [Attempt.received, hr]
      simp only
      rw [if_neg hs]

theorem length_received (h : a.fetched = .ok data) (hne : data ≠ []) (f : File) :
    data.length ≤ (a.received preallocates f).content.length := by
  obtain ⟨body, -, -, hrec⟩ := a.fetched_ok h
  rw [hrec, File.write]
  simp only [length_overwrite _ _ hne]
  omega

/-- what an attempt leaves in the file -/
theorem downloadPossiblyEncryptedMediaToFile_cases (E : Env) (net : ℕ → Attempt) (preallocates : Bool)
    (hc : ChecksumFits checksum) (w : World) :
    let f := (net w.next).received preallocates w.file
    (∃ e, accepted E checksum (net w.next).fetched = .error e ∧
        downloadPossiblyEncryptedMediaToFile E net preallocates checksum w = (.err e, ⟨w.next + 1, f⟩)) ∨
      (∃ data, (net w.next).fetched = .ok data ∧ checksum = none ∧
        downloadPossiblyEncryptedMediaToFile E net preallocates checksum w = (.ok none, ⟨w.next + 1, f⟩)) ∨
      ∃ data, (net w.next).fetched = .ok data ∧ checksum = some (E.sha256 data) ∧ mediaHMACLength < data.length ∧
        downloadPossiblyEncryptedMediaToFile E net preallocates checksum w =
          (.ok (some ((f.content.drop (data.length - mediaHMACLength)).take mediaHMACLength)),
            ⟨w.next + 1, f.truncate (data.length - mediaHMACLength)⟩) := by
  intro f
  have hrun : downloadMediaToFile E net preallocates w = _ := downloadMediaToFile_run w
  cases hf : (net w.next).fetched with
  | error e =>
    left
    rw [hf] at hrun
    refine ⟨e, by cases checksum <;> rfl, ?_⟩
    cases checksum with
    | none => exact bind_err hrun
    | some c =>
      rw [downloadPossiblyEncryptedMediaToFile, downloadEncryptedMediaToFile, if_neg (by simpa using hc c rfl)]
      exact bind_err (bind_err hrun)
  | ok data =>
    rw [hf] at hrun
    cases checksum with
    | none => exact .inr (.inl ⟨data, rfl, rfl, bind_ok hrun⟩)
    | some c =>
      rw [downloadPossiblyEncryptedMediaToFile, downloadEncryptedMediaToFile, if_neg (by simpa using hc c rfl)]
      simp only [accepted]
      by_cases hshort : data.length ≤ mediaHMACLength
      · left
        refine ⟨.tooShortFile, if_pos hshort, bind_err ?_⟩
        rw [bind_ok hrun]
        simp only [if_pos hshort]
        rfl
      · rw [if_neg hshort]
        by_cases hsum : E.sha256 data = c
        · right
          right
          have hlen : mediaHMACLength < data.length := not_le.1 hshort
          have hne : data ≠ [] := ne_nil_of_length_pos (Nat.zero_lt_of_lt hlen)
          have hle : data.length ≤ f.content.length := length_received hf hne w.file
          have hread : f.readAt mediaHMACLength (data.length - mediaHMACLength) = some _ := f.readAt_run (by omega)
          refine ⟨data, rfl, by rw [hsum], hlen, ?_⟩
          refine (bind_ok (t := ⟨w.next + 1, f.truncate (data.length - mediaHMACLength)⟩) ?_).trans rfl
          rw [bind_ok hrun]
          simp only [if_neg hshort, hsum, ne_eq, not_true, if_false]
          rw [get_bind]
          simp only [f, hread]
          rfl
        · left
          refine ⟨.invalidMediaEncSHA256, if_pos hsum, bind_err ?_⟩
          rw [bind_ok hrun]
          simp only [if_neg hshort, if_pos (Ne.symm hsum)]
          rfl

variable {w' : World}

/-- an attempt that succeeds is the last one -/
theorem retries_of_ok {r : Bytes × Option Bytes} (n : ℕ) (last : Except MediaError (Bytes × Option Bytes))
    (h : downloadPossiblyEncryptedMedia E net checksum w = (.ok r, w')) :
    downloadPossiblyEncryptedMediaWithRetries E net checksum (n + 1) last w = (.ok r, w') := by
  rw [downloadPossiblyEncryptedMediaWithRetries, bind_ok (attempt_eq_ok.2 h)]
  rfl

theorem retriesToFile_of_ok {mac : Option Bytes} (n : ℕ) (last : Except MediaError (Option Bytes))
    (h : downloadPossiblyEncryptedMediaToFile E net preallocates checksum w = (.ok mac, w')) :
    downloadPossiblyEncryptedMediaWithRetriesToFile E net preallocates checksum (n + 1) last w = (.ok mac, w') := by
  rw [downloadPossiblyEncryptedMediaWithRetriesToFile, bind_ok (attempt_eq_ok.2 h)]
  rfl

/-- an attempt that fails is repeated, or its error is returned -/
theorem retries_of_err {e : MediaError} (n : ℕ) (last : Except MediaError (Bytes × Option Bytes))
    (h : downloadPossiblyEncryptedMedia E net checksum w = (.err e, w')) :
    downloadPossiblyEncryptedMediaWithRetries E net checksum (n + 1) last w =
      if shouldRetryMediaDownload E e then
        match (net (w'.next - 1)).wait with
        | some ctx => (.err (.ctx ctx), w')
        | none => downloadPossiblyEncryptedMediaWithRetries E net checksum n (.error e) w'
      else (.err e, w') := by
  rw [downloadPossiblyEncryptedMediaWithRetries, bind_ok (attempt_eq_error.2 h)]
  simp only
  split_ifs
  · rw [waitForRetry, bind_assoc, get_bind, bind_ok (pure_run _ _)]
    cases (net (w'.next - 1)).wait <;> rfl
  · rfl

theorem retriesToFile_of_err {e : MediaError} (n : ℕ) (last : Except MediaError (Option Bytes))
    (h : downloadPossiblyEncryptedMediaToFile E net preallocates checksum w = (.err e, w')) :
    downloadPossiblyEncryptedMediaWithRetriesToFile E net preallocates checksum (n + 1) last w =
      if shouldRetryMediaDownload E e then
        match (net (w'.next - 1)).wait with
        | some ctx => (.err (.ctx ctx), ⟨w'.next, w'.file.seekStart⟩)
        | none => downloadPossiblyEncryptedMediaWithRetriesToFile E net preallocates checksum n (.ok none)
            ⟨w'.next, w'.file.seekStart⟩
      else (.err e, w') := by
  rw [downloadPossiblyEncryptedMediaWithRetriesToFile, bind_ok (attempt_eq_error.2 h)]
  simp only
  split_ifs
  · rw [onFile, modify_bind, waitForRetry, bind_assoc, get_bind,
      bind_ok (pure_run _ _)]
    cases (net (w'.next - 1)).wait <;> rfl
  · rfl

/-! ## The file at its start -/

variable {f : File}

/-- a body that is written from the start of the file on -/
theorem received_start (preallocates : Bool) (h : a.fetched = .ok data) (hf : f.offset = 0) :
    ∃ tail, (a.received preallocates f).content = data ++ tail ∧ (f.content.length ≤ data.length → tail = []) := by
  obtain ⟨body, rfl, herr, hrec⟩ := a.fetched_ok h
  have hroom : body.contentLength.getD 0 ≤ body.data.length := by
    cases hcl : body.contentLength with
    | none => exact Nat.zero_le _
    | some n => exact (body.complete herr n hcl).le
  refine ⟨(if preallocates then f.preallocate (body.contentLength.getD 0) else f).content.drop body.data.length, ?_,
    fun hle => drop_eq_nil_of_le ?_⟩
  · rw [hrec, File.write]
    cases preallocates <;> simp only [Bool.false_eq_true, if_false, if_true, File.preallocate, hf, overwrite_zero]
  · cases preallocates with
    | false => exact hle
    | true =>
      simp only [if_true, File.preallocate, length_append, length_replicate]
      omega

/-- the MAC is at the end of the body, and the file is cut to what is before it -/
theorem received_mac {tail : Bytes} (h : f.content = data ++ tail) (hlen : mediaHMACLength < data.length) :
    (f.content.drop (data.length - mediaHMACLength)).take mediaHMACLength = data.drop (data.length - mediaHMACLength) ∧
      (f.truncate (data.length - mediaHMACLength)).content = data.take (data.length - mediaHMACLength) := by
  have hle : data.length - mediaHMACLength ≤ data.length := Nat.sub_le _ _
  have hmac : (data.drop (data.length - mediaHMACLength)).length = mediaHMACLength := by
    rw [length_drop]
    omega
  constructor
  · rw [h, drop_append_of_le_length hle, take_left' hmac]
  · rw [File.truncate_le _ (by rw [h, length_append]; omega)]
    simp only [h]
    rw [take_append_of_le_length hle]

/-- an attempt that downloads the body to the start of the file and finds its checksum right -/
theorem downloadToFile_start (E : Env) (preallocates : Bool) (hdata : (net w.next).fetched = .ok data)
    (hlen : mediaHMACLength < data.length) (hw : w.file.offset = 0) :
    ∃ f, downloadPossiblyEncryptedMediaToFile E net preallocates (some (E.sha256 data)) w =
        (.ok (some (data.drop (data.length - mediaHMACLength))), ⟨w.next + 1, f⟩) ∧
      f.content = data.take (data.length - mediaHMACLength) := by
  have hfit : ChecksumFits (some (E.sha256 data)) := by
    intro c hc
    cases hc
    exact E.length_sha256 data
  obtain ⟨tail, hcontent, -⟩ := received_start preallocates hdata hw
  obtain ⟨hmac, hcut⟩ := received_mac hcontent hlen
  rcases downloadPossiblyEncryptedMediaToFile_cases E net preallocates hfit w with
    ⟨e, he, -⟩ | ⟨_, -, hc, -⟩ | ⟨d, hd, -, -, hrun⟩
  · rw [hdata, accepted, if_neg (by omega), if_neg (by simp)] at he
    cases he
  · cases hc
  · rw [hdata] at hd
    cases hd
    exact ⟨_, by rw [hrun, hmac], hcut⟩

/-! ## Opening -/

theorem length_getMediaKeys (mediaKey : Option Bytes) (appInfo : Bytes) :
    (getMediaKeys E mediaKey appInfo).iv.length = blockSize ∧
      (getMediaKeys E mediaKey appInfo).cipherKey.length ∈ aesKeySizes := by
  have h := E.length_hkdf (mediaKey.getD []) appInfo
  constructor
  · simp [getMediaKeys, h, blockSize]
  · simp [getMediaKeys, h, aesKeySizes]

theorem length_mediaHMAC (keys : MediaKeys) (file : Bytes) : (mediaHMAC E keys file).length = mediaHMACLength := by
  simp [mediaHMAC, E.length_hmac, mediaHMACLength]

theorem seekStart_run (n : ℕ) (content : Bytes) (offset : ℕ) :
    onFile File.seekStart ⟨n, ⟨content, offset⟩⟩ = (.ok (), ⟨n, ⟨content, 0⟩⟩) := rfl

theorem decryptInFile_ok {key iv : Bytes} {f' : File} (h : decryptFile E.aes key iv f = (.ok (), f')) (n : ℕ) :
    decryptInFile E key iv ⟨n, f⟩ = (.ok (), ⟨n, f'⟩) :=
  mapErr_ok (zoom_run h)

theorem decryptInFile_err {key iv : Bytes} {f' : File} {e : StreamError} (h : decryptFile E.aes key iv f = (.err e, f'))
    (n : ℕ) : decryptInFile E key iv ⟨n, f⟩ = (.err (.decryptFile e), ⟨n, f'⟩) :=
  mapErr_err (zoom_run h)

theorem hashFile_run (w : World) : hashFile w = (.ok w.file.readAll.1, { w with file := w.file.readAll.2 }) := rfl

/-- the whole file is hashed -/
theorem seek_hashFile {β : Type} (k : Bytes → Proc β) (w : World) :
    (do onFile File.seekStart
        let file ← hashFile
        k file : Proc β) w = k w.file.content ⟨w.next, ⟨w.file.content, w.file.content.length⟩⟩ := by
  rw [onFile, modify_bind, bind_ok (hashFile_run _)]
  simp [File.seekStart, File.readAll]

/-- **The file is opened like the bytes it holds.** Both fail, and then both with an error after which no other host is
asked or both with one after which it is; or the file holds what is returned. -/
theorem openMedia_alike (E : Env) (mediaKey : Option Bytes) (appInfo : Bytes) (fileEncSHA256 fileSHA256 : Option Bytes)
    {mac : Option Bytes} {ciphertext : Bytes} {w v : World} (hv : v.file.content = ciphertext)
    (hne : mac ≠ none → ciphertext ≠ []) :
    (∃ data v', openMedia E mediaKey appInfo fileEncSHA256 fileSHA256 ciphertext mac w = (.ok data, w) ∧
      openMediaFile E mediaKey appInfo fileEncSHA256 fileSHA256 mac v = (.ok (), v') ∧ v'.file.content = data ∧
      v'.next = v.next) ∨
    ∃ e e' v', openMedia E mediaKey appInfo fileEncSHA256 fileSHA256 ciphertext mac w = (.err e, w) ∧
      openMediaFile E mediaKey appInfo fileEncSHA256 fileSHA256 mac v = (.err e', v') ∧ e'.final = e.final ∧
      v'.next = v.next := by
  unfold openMedia openMediaFile
  by_cases hplain : mediaKey = none ∧ fileEncSHA256 = none ∧ mac = none
  · rw [if_pos hplain, if_pos hplain]
    cases fileSHA256 with
    | none => exact .inl ⟨ciphertext, v, rfl, rfl, hv, rfl⟩
    | some hash =>
      simp only
      rw [seek_hashFile, hv]
      by_cases hhash : E.sha256 ciphertext = hash
      · left
        rw [if_neg (by simp [hhash]), if_neg (by simp [hhash])]
        exact ⟨_, _, rfl, rfl, rfl, rfl⟩
      · right
        rw [if_pos ⟨by simp, hhash⟩, if_pos (Ne.symm hhash)]
        exact ⟨_, _, _, rfl, rfl, rfl, rfl⟩
  · rw [if_neg hplain, if_neg hplain]
    obtain ⟨hiv, hkey⟩ := length_getMediaKeys (E := E) mediaKey appInfo
    have hvalid : validateMediaFile E (getMediaKeys E mediaKey appInfo) mac v =
        (if mediaHMAC E (getMediaKeys E mediaKey appInfo) ciphertext = mac.getD [] then pure ()
          else Go.throw .invalidMediaHMAC : Proc Unit) ⟨v.next, ⟨ciphertext, ciphertext.length⟩⟩ := by
      rw [validateMediaFile, seek_hashFile, hv]
    by_cases hmac : mediaHMAC E (getMediaKeys E mediaKey appInfo) ciphertext = mac.getD []
    · have hbytes : ciphertext ≠ [] := by
        refine hne fun hnone => ?_
        have := length_mediaHMAC (E := E) (getMediaKeys E mediaKey appInfo) ciphertext
        rw [hmac, hnone] at this
        cases this
      rw [validateMedia, if_pos hmac, bind_ok (pure_run _ _)]
      rw [if_pos hmac] at hvalid
      rw [bind_ok hvalid, bind_ok (seekStart_run _ _ _)]
      rcases decryptFile_cases E.aes hkey hiv hbytes w with
        ⟨e, e', f', hfile, hmem⟩ | ⟨pt, f', hfile, rfl, hmem⟩
      · right
        exact ⟨_, _, _, bind_err (mapErr_err hmem), bind_err (decryptInFile_err hfile _), rfl, rfl⟩
      · rw [bind_ok (mapErr_ok hmem), bind_ok (decryptInFile_ok hfile _), seek_hashFile]
        by_cases hhash : E.sha256 f'.content = fileSHA256.getD []
        · left
          rw [if_neg (by simp [hhash]), if_neg (by simp [hhash])]
          exact ⟨_, _, rfl, rfl, rfl, rfl⟩
        · right
          rw [if_pos hhash, if_pos (Ne.symm hhash)]
          exact ⟨_, _, _, rfl, rfl, rfl, rfl⟩
    · right
      rw [validateMedia, if_neg hmac]
      rw [if_neg hmac] at hvalid
      exact ⟨_, _, _, bind_err rfl, bind_err hvalid, rfl, rfl⟩

/-! ## An environment to compute with -/

/-- the first 32 bytes -/
def plainHash (data : Bytes) : Bytes := (data ++ List.replicate 32 0).take 32

theorem length_plainHash (data : Bytes) : (plainHash data).length = 32 := by simp [plainHash]

theorem unavailable_not_gone : ∀ status ∈ [403, 404, 410], decide (status = 503) = false := by decide

theorem length_plainBlock (b : Bytes) (h : b.length = blockSize) : (id b).length = blockSize := h

theorem plainBlock_plainBlock (b : Bytes) (_ : b.length = blockSize) : id (id b) = b := rfl

/-- blocks that are not encrypted -/
def plainCipher : BlockCipher := ⟨id, id, length_plainBlock, plainBlock_plainBlock⟩

/-- hashes and MACs are the first bytes -/
def plainEnv : Env where
  hkdf _ _ := List.replicate 112 0
  hmac _ data := plainHash data
  sha256 data := plainHash data
  aes _ := plainCipher
  retryStatus status := decide (status = 503)
  length_hkdf _ _ := length_replicate
  length_hmac _ data := length_plainHash data
  length_sha256 data := length_plainHash data
  retryStatus_gone := unavailable_not_gone

/-- a host that serves the body -/
def serves (body : Bytes) : Attempt := ⟨.answered 200 ⟨body, none, none, fun _ _ h => by cases h⟩, none⟩

/-- a connection that is lost after these bytes -/
def breaksAfter (bytes : Bytes) : Attempt :=
  ⟨.answered 200 ⟨bytes, some ⟨false, true, false⟩, none, fun h => by cases h⟩, none⟩

/-- a network that is down -/
def unreachable : Attempt := ⟨.failed ⟨false, true, false⟩, none⟩

end Hypermeow.Client.Media
