/-
Uploading media, and downloading it again (`Upload`, `UploadReader` of `upload.go`).

`Upload` encrypts a byte slice and appends ten bytes of MAC. `UploadReader` streams a reader through `EncryptStream` into a
temporary file; when the reader is the file itself, it is overwritten in place.

Model: the media key is any, the random bytes that are drawn. What is handed to `rawUpload` is the body and its announced
size; what the server answers is left out. An empty temporary file with `WriteAt` may be at any offset; one without is at
its start, and a write to it may be short.

Result: `upload_roundtrip`, what is handed to `rawUpload`, once a host serves it, makes both ways to download return the
plaintext.
-/
import Hypermeow.Client.Media

namespace Hypermeow.Client.Media

open Lib Util Go List

/-! ## Uploading -/

inductive UploadError where
  | encrypt (e : CbcError)
  | encryptStream (e : StreamError)
deriving DecidableEq, Repr

structure UploadResponse where
  mediaKey : Bytes
  fileEncSHA256 : Bytes
  fileSHA256 : Bytes
  fileLength : ℕ
deriving DecidableEq, Repr

/-- what `rawUpload` is called with -/
structure RawUpload where
  dataToUpload : Bytes
  uploadSize : ℕ
  resp : UploadResponse
deriving DecidableEq, Repr

variable (E : Env) {σ : Type}

def upload (mediaKey plaintext appInfo : Bytes) : Go σ UploadError RawUpload := do
  let keys := getMediaKeys E (some mediaKey) appInfo
  let ciphertext ← Go.mapErr .encrypt (encrypt E.aes none keys.cipherKey (some keys.iv) plaintext)
  let dataToUpload := ciphertext ++ mediaHMAC E keys ciphertext
  pure
    { dataToUpload := dataToUpload
      uploadSize := dataToUpload.length
      resp :=
        { mediaKey := mediaKey
          fileEncSHA256 := E.sha256 dataToUpload
          fileSHA256 := E.sha256 plaintext
          fileLength := plaintext.length } }

/-- `tempFile` is the temporary file among what is streamed through -/
def uploadReader (S : Streams σ) (tempFile : σ → File) (mediaKey appInfo : Bytes) : Go σ UploadError RawUpload := do
  let keys := getMediaKeys E (some mediaKey) appInfo
  let enc ← Go.mapErr .encryptStream (encryptStream E.aes E.sha256 E.hmac S keys.cipherKey keys.iv keys.macKey)
  let s ← Go.get
  pure
    { dataToUpload := (tempFile s).seekStart.readAll.1
      uploadSize := enc.cipherSize
      resp :=
        { mediaKey := mediaKey
          fileEncSHA256 := enc.cipherSHA256
          fileSHA256 := enc.plainSHA256
          fileLength := enc.size } }

/-- a call of `Upload`, or of `UploadReader` with one of the kinds of temporary file -/
inductive UploadCall where
  | bytes (plaintext : Bytes)
  /-- a reader that returns the chunks, and an empty file with `WriteAt` -/
  | toFile (chunks : List Bytes) (offset : ℕ)
  /-- a reader, and an empty file without; a write takes at most `room + 1` bytes -/
  | toWriter (chunks : List Bytes) (room : ℕ)
  /-- one file at its start, with `WriteAt` -/
  | inPlace (content : Bytes)

def UploadCall.plaintext : UploadCall → Bytes
  | .bytes plaintext => plaintext
  | .toFile chunks _ => chunks.flatten
  | .toWriter chunks _ => chunks.flatten
  | .inPlace content => content

def UploadCall.run (mediaKey appInfo : Bytes) : UploadCall → Outcome UploadError RawUpload
  | .bytes plaintext => (upload E mediaKey plaintext appInfo ()).1
  | .toFile chunks offset => (uploadReader E .toFile Prod.snd mediaKey appInfo (chunks, ⟨[], offset⟩)).1
  | .toWriter chunks room => (uploadReader E (.toWriter (room + 1)) Prod.snd mediaKey appInfo (chunks, ⟨[], 0⟩)).1
  | .inPlace content => (uploadReader E .inPlace id mediaKey appInfo ⟨content, 0⟩).1

/-! ## What is handed to rawUpload -/

def mediaIV (mediaKey : Option Bytes) (appInfo : Bytes) : IV :=
  ⟨(getMediaKeys E mediaKey appInfo).iv, (length_getMediaKeys mediaKey appInfo).1⟩

/-- the ciphertext of the plaintext -/
def mediaCiphertext (mediaKey appInfo plaintext : Bytes) : Bytes :=
  cipherBlocks E.aes (getMediaKeys E (some mediaKey) appInfo).cipherKey (mediaIV E (some mediaKey) appInfo) plaintext

/-- the ciphertext and its MAC -/
def mediaBody (mediaKey appInfo plaintext : Bytes) : Bytes :=
  mediaCiphertext E mediaKey appInfo plaintext ++
    mediaHMAC E (getMediaKeys E (some mediaKey) appInfo) (mediaCiphertext E mediaKey appInfo plaintext)

/-- what each call hands over -/
def rawUploadOf (mediaKey appInfo plaintext : Bytes) : RawUpload :=
  { dataToUpload := mediaBody E mediaKey appInfo plaintext
    uploadSize := (mediaBody E mediaKey appInfo plaintext).length
    resp :=
      { mediaKey := mediaKey
        fileEncSHA256 := E.sha256 (mediaBody E mediaKey appInfo plaintext)
        fileSHA256 := E.sha256 plaintext
        fileLength := plaintext.length } }

variable {E} {mediaKey appInfo plaintext : Bytes}

theorem mediaIV_val (mediaKey : Option Bytes) : (mediaIV E mediaKey appInfo).1 = (getMediaKeys E mediaKey appInfo).iv :=
  rfl

theorem length_mediaCiphertext :
    (mediaCiphertext E mediaKey appInfo plaintext).length = (plaintext.length / blockSize + 1) * blockSize :=
  length_cipherBlocks _ _ _ _

theorem length_mediaBody :
    (mediaBody E mediaKey appInfo plaintext).length =
      plaintext.length + (blockSize - plaintext.length % blockSize + 10) := by
  rw [mediaBody, length_append, length_mediaCiphertext, length_mediaHMAC]
  simp only [blockSize, mediaHMACLength]
  omega

theorem upload_run (s : σ) :
    upload E mediaKey plaintext appInfo s = (.ok (rawUploadOf E mediaKey appInfo plaintext), s) := by
  have hkey := (length_getMediaKeys (E := E) (some mediaKey) appInfo).2
  have hrun := (encrypt_cases E.aes hkey (mediaIV E (some mediaKey) appInfo) plaintext s).2 none
  rw [mediaIV_val] at hrun
  rw [upload, bind_ok (mapErr_ok hrun)]
  rfl

theorem uploadReader_run {S : Streams σ} {tempFile : σ → File} {Open : σ → Bytes → Bytes → Prop}
    {Closed : σ → Bytes → Prop} (hS : S.Law Open Closed) (htemp : ∀ s out, Closed s out → (tempFile s).content = out)
    {s : σ} (hopen : Open s plaintext []) :
    (uploadReader E S tempFile mediaKey appInfo s).1 = .ok (rawUploadOf E mediaKey appInfo plaintext) := by
  have hkey := (length_getMediaKeys (E := E) (some mediaKey) appInfo).2
  obtain ⟨s', hrun, hclosed⟩ := encryptStream_run E.aes hS hkey (mediaIV E (some mediaKey) appInfo) E.sha256 E.hmac
    (getMediaKeys E (some mediaKey) appInfo).macKey hopen
  have hbody : (tempFile s').content = mediaBody E mediaKey appInfo plaintext := htemp s' _ hclosed
  have hread : (tempFile s').seekStart.readAll.1 = mediaBody E mediaKey appInfo plaintext := by
    rw [← hbody]
    rfl
  rw [mediaIV_val] at hrun
  rw [uploadReader, bind_ok (mapErr_ok hrun), get_bind]
  simp only [hread, rawUploadOf, length_mediaBody]
  rfl

/-- every call hands over the same -/
theorem UploadCall.run_eq (call : UploadCall) :
    call.run E mediaKey appInfo = .ok (rawUploadOf E mediaKey appInfo call.plaintext) := by
  cases call with
  | bytes plaintext => rw [UploadCall.run, upload_run]; rfl
  | toFile chunks offset => exact uploadReader_run Streams.law_toFile (fun _ _ h => h) ⟨rfl, rfl⟩
  | toWriter chunks room =>
    refine uploadReader_run (Streams.law_toWriter (Nat.succ_pos room)) (fun s out h => ?_) ⟨rfl, rfl⟩
    rw [h]
  | inPlace content => exact uploadReader_run Streams.law_inPlace (fun _ _ h => h) rfl

/-! ## Downloading it again -/

variable {net : ℕ → Attempt} {w : World} {preallocates : Bool}

/-- the body is taken apart again -/
theorem take_drop_mediaBody (E : Env) (mediaKey appInfo plaintext : Bytes) :
    let body := mediaBody E mediaKey appInfo plaintext
    body.take (body.length - mediaHMACLength) = mediaCiphertext E mediaKey appInfo plaintext ∧
      body.drop (body.length - mediaHMACLength) = mediaHMAC E (getMediaKeys E (some mediaKey) appInfo)
        (mediaCiphertext E mediaKey appInfo plaintext) ∧ mediaHMACLength < body.length := by
  intro body
  have hmac := length_mediaHMAC (E := E) (getMediaKeys E (some mediaKey) appInfo)
    (mediaCiphertext E mediaKey appInfo plaintext)
  have hlen : body.length - mediaHMACLength = (mediaCiphertext E mediaKey appInfo plaintext).length := by
    simp only [body, mediaBody, length_append, hmac, Nat.add_sub_cancel]
  rw [hlen]
  refine ⟨take_left, drop_left, ?_⟩
  rw [length_mediaBody]
  simp only [mediaHMACLength, blockSize]
  omega

theorem openMedia_mediaCiphertext (E : Env) (mediaKey appInfo plaintext : Bytes) (fileEncSHA256 : Option Bytes)
    (w : World) :
    openMedia E (some mediaKey) appInfo fileEncSHA256 (some (E.sha256 plaintext))
      (mediaCiphertext E mediaKey appInfo plaintext) (some (mediaHMAC E (getMediaKeys E (some mediaKey) appInfo)
        (mediaCiphertext E mediaKey appInfo plaintext))) w = (.ok plaintext, w) := by
  have hkey := (length_getMediaKeys (E := E) (some mediaKey) appInfo).2
  have hdec := decrypt_encrypt E.aes hkey (mediaIV E (some mediaKey) appInfo) plaintext w
  rw [mediaIV_val] at hdec
  rw [openMedia, if_neg (by simp), validateMedia, Option.getD_some, if_pos rfl, bind_ok (pure_run _ _),
    mediaCiphertext, bind_ok (mapErr_ok hdec), if_neg (by simp)]
  rfl

theorem accepted_mediaBody (h : (net w.next).fetched = .ok (mediaBody E mediaKey appInfo plaintext)) :
    accepted E (some (E.sha256 (mediaBody E mediaKey appInfo plaintext))) (net w.next).fetched =
      .ok (mediaCiphertext E mediaKey appInfo plaintext, some (mediaHMAC E (getMediaKeys E (some mediaKey) appInfo)
        (mediaCiphertext E mediaKey appInfo plaintext))) := by
  obtain ⟨htake, hdrop, hlen⟩ := take_drop_mediaBody E mediaKey appInfo plaintext
  rw [h, accepted, if_neg (by omega), if_neg (by simp), htake, hdrop]

/-- **Round trip.** Whatever the plaintext, the key, the media type and the way to upload: what is handed to `rawUpload` has
the announced size, and when a host serves it, both ways to download return the plaintext; to a file, from its start on,
whatever it held. -/
theorem upload_roundtrip (E : Env) (mediaKey appInfo : Bytes) (call : UploadCall) :
    ∃ up, call.run E mediaKey appInfo = .ok up ∧ up.uploadSize = up.dataToUpload.length ∧ up.resp.mediaKey = mediaKey ∧
      up.resp.fileLength = call.plaintext.length ∧
      ∀ net w, (net w.next).fetched = .ok up.dataToUpload →
        downloadAndDecrypt E net (some up.resp.mediaKey) appInfo (some up.resp.fileEncSHA256) (some up.resp.fileSHA256) w =
          (.ok call.plaintext, { w with next := w.next + 1 }) ∧
        ∀ preallocates, w.file.offset = 0 → ∃ w', downloadAndDecryptToFile E net preallocates (some up.resp.mediaKey) appInfo
          (some up.resp.fileEncSHA256) (some up.resp.fileSHA256) w = (.ok (), w') ∧ w'.file.content = call.plaintext := by
  refine ⟨_, call.run_eq, rfl, rfl, rfl, fun net w hserved => ?_⟩
  generalize call.plaintext = plaintext at hserved ⊢
  simp only [rawUploadOf] at hserved ⊢
  obtain ⟨htake, hdrop, hlen⟩ := take_drop_mediaBody E mediaKey appInfo plaintext
  have hfit : ChecksumFits (some (E.sha256 (mediaBody E mediaKey appInfo plaintext))) := by
    intro c hc
    cases hc
    exact E.length_sha256 _
  constructor
  · have hrun := downloadPossiblyEncryptedMedia_run E net hfit w
    rw [accepted_mediaBody hserved] at hrun
    rw [downloadAndDecrypt, bind_ok (retries_of_ok 4 _ hrun)]
    exact openMedia_mediaCiphertext _ _ _ _ _ _
  · intro preallocates hw
    obtain ⟨f, hrun, hcontent⟩ := downloadToFile_start E preallocates hserved hlen hw
    rw [htake] at hcontent
    rw [hdrop] at hrun
    rw [downloadAndDecryptToFile, bind_ok (retriesToFile_of_ok 4 _ hrun)]
    have hne : mediaCiphertext E mediaKey appInfo plaintext ≠ [] := by
      apply ne_nil_of_length_pos
      rw [length_mediaCiphertext]
      simp [blockSize]
    have hopen := openMedia_mediaCiphertext E mediaKey appInfo plaintext
      (some (E.sha256 (mediaBody E mediaKey appInfo plaintext))) w
    rcases openMedia_alike E (some mediaKey) appInfo (some (E.sha256 (mediaBody E mediaKey appInfo plaintext)))
      (some (E.sha256 plaintext)) (v := ⟨w.next + 1, f⟩) (w := w) hcontent fun _ => hne with
      ⟨data, v', hdata, hfile, rfl, -⟩ | ⟨e, e', v', herr, -⟩
    · rw [hopen] at hdata
      cases hdata
      exact ⟨v', hfile, rfl⟩
    · rw [hopen] at herr
      cases herr

/-- a file that is encrypted in place and served -/
theorem upload_roundtrip_inPlace :
    ∃ up, (UploadCall.inPlace [5]).run plainEnv [3] [] = .ok up ∧
      downloadAndDecrypt plainEnv (fun _ => serves up.dataToUpload) (some up.resp.mediaKey) []
        (some up.resp.fileEncSHA256) (some up.resp.fileSHA256) ⟨0, ⟨[], 0⟩⟩ = (.ok [5], ⟨1, ⟨[], 0⟩⟩) := by
  obtain ⟨up, hrun, -, -, -, h⟩ := upload_roundtrip plainEnv [3] [] (.inPlace [5])
  exact ⟨up, hrun, (h (fun _ => serves up.dataToUpload) ⟨0, ⟨[], 0⟩⟩ rfl).1⟩

end Hypermeow.Client.Media
