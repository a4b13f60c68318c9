/-
Downloading to a file against downloading to memory (`DownloadMediaWithPathToFile`, `DownloadMediaWithPath`).

Both variants ask the same hosts in the same order and repeat an attempt after the same errors. The file variant writes
what comes into one file, and what an attempt or a host leaves there (bytes, and the offset) is found by the next one. After
a failed attempt it goes back to the start of the file, and the error of that step, none, takes the place of the error of
the attempt.

`RetriesFit` says what one host must find: at a body that came whole, the file is at its start, and when the media is not
encrypted it holds no more than the body; and when all five attempts failed, media that is not encrypted is checked against
a hash that what is left in the file does not have.

Results:
- `exhausted_file_succeeds`, `next_host_appends`, `shorter_body_keeps_tail`: without each of the conditions it does not.
-/
import Hypermeow.Client.MediaIntegrity

namespace Hypermeow.Client.Media

open Lib Util Go List

/-! ## The condition -/

/-- media that is downloaded without a key -/
def Request.Plain (r : Request) : Prop := r.mediaKey = none ∧ r.encFileHash = none

section Condition

variable (E : Env) (net : ℕ → Attempt) (preallocates : Bool) (r : Request) (hash : Option Bytes)

/-- media that is not encrypted and fails the check of its hash -/
def Mismatch (data : Bytes) : Prop := ∃ h, hash = some h ∧ E.sha256 data ≠ h

/-- a body that comes whole finds the file at its start; when it is not encrypted, there is no more in the file than comes,
or what came and what is in the file then are both refused -/
def AttemptFits (f : File) (a : Attempt) : Prop :=
  ∀ data, a.fetched = .ok data →
    (r.encFileHash = some (E.sha256 data) → f.offset = 0) ∧
    (r.Plain → f.offset = 0 ∧ f.content.length ≤ data.length ∨
      Mismatch E hash data ∧ Mismatch E hash (a.received preallocates f).content)

/-- with the attempts that are left: each fits, and when all of them failed, what is left in the file is refused -/
def RetriesFit : ℕ → World → Prop
  | 0, w => r.Plain → Mismatch E hash w.file.content
  | n + 1, w => AttemptFits E preallocates r hash w.file (net w.next) ∧
    ∀ e w', downloadPossiblyEncryptedMediaToFile E net preallocates r.encFileHash w = (.err e, w') →
      shouldRetryMediaDownload E e = true → (net w.next).wait = none → RetriesFit n ⟨w'.next, w'.file.seekStart⟩

end Condition

variable {E : Env} {net : ℕ → Attempt} {preallocates : Bool} {r : Request} {hash : Option Bytes} {w v : World}

/-! ## One attempt -/

/-- what the file variant has of the ciphertext and MAC that the other one returns -/
inductive Stored (E : Env) (r : Request) (hash : Option Bytes) (ciphertext : Bytes) : Option Bytes → File → Prop where
  | same {mac f} (h : f.content = ciphertext) (hne : mac ≠ none → ciphertext ≠ []) : Stored E r hash ciphertext mac f
  | refused {f} (h : r.Plain) (hm : Mismatch E hash ciphertext) (hf : Mismatch E hash f.content) :
    Stored E r hash ciphertext none f
  | keyed {f} (h : ¬ r.Plain) : Stored E r hash ciphertext none f

/-- both attempts fail with the same error, or both succeed -/
theorem attempt_alike (hnext : w.next = v.next) (hfit : AttemptFits E preallocates r hash v.file (net v.next)) :
    (∃ e w' v', downloadPossiblyEncryptedMedia E net r.encFileHash w = (.err e, w') ∧
      downloadPossiblyEncryptedMediaToFile E net preallocates r.encFileHash v = (.err e, v') ∧ w'.next = v'.next ∧
      (shouldRetryMediaDownload E e = true → v'.next = v.next + 1)) ∨
    ∃ ciphertext mac w' v', downloadPossiblyEncryptedMedia E net r.encFileHash w = (.ok (ciphertext, mac), w') ∧
      downloadPossiblyEncryptedMediaToFile E net preallocates r.encFileHash v = (.ok mac, v') ∧ w'.next = v'.next ∧
      Stored E r hash ciphertext mac v'.file := by
  rcases checksumFits_or r.encFileHash with hc | ⟨c, hc, hne⟩
  · have hmem := downloadPossiblyEncryptedMedia_run E net hc w
    rw [hnext] at hmem
    rcases downloadPossiblyEncryptedMediaToFile_cases E net preallocates hc v with
      ⟨e, he, hrun⟩ | ⟨data, hdata, hnone, hrun⟩ | ⟨data, hdata, hsum, hlen, -⟩
    · left
      rw [he] at hmem
      exact ⟨e, _, _, hmem, hrun, rfl, fun _ => rfl⟩
    · right
      have hacc : accepted E r.encFileHash (net v.next).fetched = .ok (data, none) := by rw [hdata, hnone, accepted]
      rw [hacc] at hmem
      refine ⟨data, none, _, _, hmem, hrun, rfl, ?_⟩
      by_cases hkey : r.mediaKey = none
      · rcases (hfit data hdata).2 ⟨hkey, hnone⟩ with ⟨hoff, hle⟩ | ⟨hm, hf⟩
        · obtain ⟨tail, hcontent, htail⟩ := received_start preallocates hdata hoff
          rw [htail hle, append_nil] at hcontent
          exact .same hcontent fun h => absurd rfl h
        · exact .refused ⟨hkey, hnone⟩ hm hf
      · exact .keyed fun h => hkey h.1
    · right
      have hacc : accepted E r.encFileHash (net v.next).fetched = .ok (data.take (data.length - mediaHMACLength),
          some (data.drop (data.length - mediaHMACLength))) := by
        rw [hdata, hsum, accepted, if_neg (by omega), if_neg (by simp)]
      rw [hacc] at hmem
      obtain ⟨f, hrun, hcontent⟩ := downloadToFile_start E preallocates hdata hlen
        ((hfit data hdata).1 hsum)
      rw [← hsum] at hrun
      refine ⟨_, _, _, _, hmem, hrun, rfl, .same hcontent fun _ => ?_⟩
      apply ne_nil_of_length_pos
      rw [length_take]
      omega
  · left
    rw [hc]
    refine ⟨_, w, v, (downloadPossiblyEncryptedMedia_unfit E net preallocates hne w).1,
      (downloadPossiblyEncryptedMedia_unfit E net preallocates hne v).2, hnext, fun h => by cases h⟩

/-! ## One host -/

/-- the loops of attempts: both fail with one error; both succeed; or only the file variant forgets the error -/
inductive LoopAlike (E : Env) (r : Request) (hash : Option Bytes) :
    Outcome MediaError (Bytes × Option Bytes) × World → Outcome MediaError (Option Bytes) × World → Prop where
  | failed {e w v} (h : w.next = v.next) : LoopAlike E r hash (.err e, w) (.err e, v)
  | downloaded {ciphertext mac w v} (h : w.next = v.next) (hs : Stored E r hash ciphertext mac v.file) :
    LoopAlike E r hash (.ok (ciphertext, mac), w) (.ok mac, v)
  | exhausted {e w v} (h : w.next = v.next) (he : shouldRetryMediaDownload E e = true)
    (hf : r.Plain → Mismatch E hash v.file.content) : LoopAlike E r hash (.err e, w) (.ok none, v)

theorem retries_alike {n : ℕ} (last : Except MediaError (Bytes × Option Bytes))
    (last' : Except MediaError (Option Bytes)) (hnext : w.next = v.next)
    (hfit : RetriesFit E net preallocates r hash n v)
    (hlast : n = 0 → last' = .ok none ∧ ∃ e, last = .error e ∧ shouldRetryMediaDownload E e = true) :
    LoopAlike E r hash (downloadPossiblyEncryptedMediaWithRetries E net r.encFileHash n last w)
      (downloadPossiblyEncryptedMediaWithRetriesToFile E net preallocates r.encFileHash n last' v) := by
  induction n generalizing w v last last' with
  | zero =>
    obtain ⟨rfl, e, rfl, he⟩ := hlast rfl
    exact .exhausted hnext he hfit
  | succ n ih =>
    rcases attempt_alike hnext hfit.1 with
      ⟨e, w', v', hmem, hfile, hnext', hone⟩ | ⟨c, mac, w', v', hmem, hfile, hnext', hs⟩
    · rw [retries_of_err n last hmem, retriesToFile_of_err n last' hfile]
      by_cases hretry : shouldRetryMediaDownload E e = true
      · rw [if_pos hretry, if_pos hretry, hnext', hone hretry, Nat.add_sub_cancel]
        cases hwait : (net v.next).wait with
        | some ctx =>
          refine .failed ?_
          rw [hnext', hone hretry]
        | none =>
          simp only
          rw [← hone hretry]
          exact ih _ _ hnext' (hfit.2 e v' hfile hretry hwait) fun _ => ⟨rfl, e, rfl, hretry⟩
      · rw [if_neg hretry, if_neg hretry]
        exact .failed hnext'
    · rw [retries_of_ok n last hmem, retriesToFile_of_ok n last' hfile]
      exact .downloaded hnext' hs

/-- both hosts give the same, or both fail and either both go on with the next host or none does -/
inductive HostAlike : Outcome MediaError Bytes × World → Outcome MediaError Unit × World → Prop where
  | failed {e e' w v} (h : w.next = v.next) (he : e'.final = e.final) : HostAlike (.err e, w) (.err e', v)
  | downloaded {data w v} (h : v.file.content = data) : HostAlike (.ok data, w) (.ok (), v)

/-- an error that is worth another attempt is worth another host -/
theorem not_final_of_shouldRetry {e : MediaError} (h : shouldRetryMediaDownload E e = true) : e.final = false := by
  cases e with
  | transport e =>
    simp only [shouldRetryMediaDownload, Bool.and_eq_true, Bool.not_eq_true'] at h
    exact h.1
  | http status =>
    refine decide_eq_false fun hgone => ?_
    have := E.retryStatus_gone status hgone
    rw [show E.retryStatus status = true from h] at this
    cases this
  | ctx e => cases e <;> first | rfl | cases h
  | _ => cases h

/-- media that is not encrypted and does not have its hash is refused -/
theorem openMediaFile_mismatch (hr : r.Plain) (hm : Mismatch E hash v.file.content) :
    ∃ v', openMediaFile E r.mediaKey r.mediaType r.encFileHash hash none v = (.err .invalidUnencryptedMediaSHA256, v') ∧
      v'.next = v.next := by
  obtain ⟨h, rfl, hne⟩ := hm
  unfold openMediaFile
  rw [if_pos ⟨hr.1, hr.2, rfl⟩]
  simp only
  rw [seek_hashFile, if_pos (Ne.symm hne)]
  exact ⟨_, rfl, rfl⟩

theorem openMedia_mismatch {ciphertext : Bytes} (hr : r.Plain) (hm : Mismatch E hash ciphertext) :
    openMedia E r.mediaKey r.mediaType r.encFileHash hash ciphertext none w =
      (.err .invalidUnencryptedMediaSHA256, w) := by
  obtain ⟨h, rfl, hne⟩ := hm
  unfold openMedia
  rw [if_pos ⟨hr.1, hr.2, rfl⟩, if_pos ⟨by simp, hne⟩]
  rfl

/-- without a MAC nothing that is encrypted is opened -/
theorem openMedia_noMAC {ciphertext : Bytes} (hr : ¬ r.Plain) :
    openMedia E r.mediaKey r.mediaType r.encFileHash hash ciphertext none w = (.err .invalidMediaHMAC, w) := by
  have hmac : ¬ mediaHMAC E (getMediaKeys E r.mediaKey r.mediaType) ciphertext = (none : Option Bytes).getD [] := by
    intro h
    have := length_mediaHMAC (E := E) (getMediaKeys E r.mediaKey r.mediaType) ciphertext
    rw [h] at this
    cases this
  unfold openMedia
  rw [if_neg fun h => hr ⟨h.1, h.2.1⟩, validateMedia, if_neg hmac]
  exact bind_err (throw_run _ _)

theorem openMediaFile_noMAC (E : Env) (hash : Option Bytes) (v : World) (hr : ¬ r.Plain) :
    ∃ e v', openMediaFile E r.mediaKey r.mediaType r.encFileHash hash none v = (.err e, v') ∧ e.final = false ∧
      v'.next = v.next := by
  have hnone : (none : Option Bytes) ≠ none → v.file.content ≠ [] := fun h => absurd rfl h
  rcases openMedia_alike E r.mediaKey r.mediaType r.encFileHash hash (w := v) rfl hnone with
    ⟨data, v', hmem, -⟩ | ⟨e, e', v', hmem, hfile, hfinal, hnext⟩
  · rw [openMedia_noMAC hr] at hmem
    cases hmem
  · rw [openMedia_noMAC hr] at hmem
    cases hmem
    exact ⟨e', v', hfile, hfinal, hnext⟩

theorem downloadAndDecrypt_alike (hnext : w.next = v.next) (hfit : RetriesFit E net preallocates r hash 5 v) :
    HostAlike (downloadAndDecrypt E net r.mediaKey r.mediaType r.encFileHash hash w)
      (downloadAndDecryptToFile E net preallocates r.mediaKey r.mediaType r.encFileHash hash v) := by
  have hloop := retries_alike (.ok ([], none)) (.ok none) hnext hfit (by simp)
  rw [downloadAndDecrypt, downloadAndDecryptToFile]
  generalize hm : downloadPossiblyEncryptedMediaWithRetries E net r.encFileHash 5 (.ok ([], none)) w = rm at hloop
  generalize hf : downloadPossiblyEncryptedMediaWithRetriesToFile E net preallocates r.encFileHash 5 (.ok none) v = rf
    at hloop
  cases hloop with
  | failed h =>
    rw [bind_err hm, bind_err hf]
    exact .failed h rfl
  | @exhausted e w' v' h he hleft =>
    rw [bind_err hm, bind_ok hf]
    by_cases hr : r.Plain
    · obtain ⟨v'', hopen, hnext'⟩ := openMediaFile_mismatch hr (hleft hr)
      rw [hopen]
      exact .failed (h.trans hnext'.symm) (not_final_of_shouldRetry he).symm
    · obtain ⟨e', v'', hopen, hfinal, hnext'⟩ := openMediaFile_noMAC E hash v' hr
      rw [hopen]
      exact .failed (h.trans hnext'.symm) (hfinal.trans (not_final_of_shouldRetry he).symm)
  | @downloaded ciphertext mac w' v' h hs =>
    rw [bind_ok hm, bind_ok hf]
    simp only
    cases hs with
    | same hcontent hne =>
      rcases openMedia_alike E r.mediaKey r.mediaType r.encFileHash hash (w := w') hcontent hne with
        ⟨data, v'', hmem, hfile, hdata, -⟩ | ⟨e, e', v'', hmem, hfile, hfinal, hnext'⟩
      · rw [hmem, hfile]
        exact .downloaded hdata
      · rw [hmem, hfile]
        exact .failed (h.trans hnext'.symm) hfinal
    | refused hr hmis hleft =>
      obtain ⟨v'', hopen, hnext'⟩ := openMediaFile_mismatch hr hleft
      rw [openMedia_mismatch hr hmis, hopen]
      exact .failed (h.trans hnext'.symm) rfl
    | keyed hr =>
      obtain ⟨e', v'', hopen, hfinal, hnext'⟩ := openMediaFile_noMAC E hash v' hr
      rw [openMedia_noMAC hr, hopen]
      exact .failed (h.trans hnext'.symm) hfinal

/-! ## All hosts -/

/-- both fail, or the file holds what the other one returns -/
inductive Agree : Outcome MediaError Bytes × World → Outcome MediaError Unit × World → Prop where
  | failed {e e' w v} : Agree (.err e, w) (.err e', v)
  | downloaded {data w v} (h : v.file.content = data) : Agree (.ok data, w) (.ok (), v)

theorem downloadFromHosts_agree {download : Proc Bytes} {toFile : Proc Unit} {P : World → Prop} {hosts : List Bytes}
    (hhost : ∀ w v, w.next = v.next → P v → HostAlike (download w) (toFile v)) (hnext : w.next = v.next)
    (hP : EachHost toFile P hosts v) (hne : hosts ≠ []) :
    Agree (downloadFromHosts download [] hosts w) (downloadFromHosts toFile () hosts v) := by
  induction hosts generalizing w v with
  | nil => exact absurd rfl hne
  | cons host hosts ih =>
    have halike := hhost w v hnext hP.1
    rw [downloadFromHosts, downloadFromHosts]
    generalize hm : download w = rm at halike
    generalize hf : toFile v = rf at halike
    cases halike with
    | downloaded h =>
      rw [bind_ok (attempt_eq_ok.2 hm), bind_ok (attempt_eq_ok.2 hf)]
      exact .downloaded h
    | @failed e e' w' v' h he =>
      rw [bind_ok (attempt_eq_error.2 hm), bind_ok (attempt_eq_error.2 hf)]
      simp only
      rw [he]
      cases hfinal : e.final with
      | true => exact .failed
      | false =>
        simp only [Bool.false_eq_true, if_false]
        by_cases hlast : hosts = []
        · rw [if_pos hlast, if_pos hlast]
          exact .failed
        · rw [if_neg hlast, if_neg hlast]
          exact ih h (hP.2 e' v' hf (he.trans hfinal)) hlast

theorem Agree.iff {rm : Outcome MediaError Bytes × World} {rf : Outcome MediaError Unit × World} (h : Agree rm rf)
    (data : Bytes) : (∃ w', rm = (.ok data, w')) ↔ ∃ v', rf = (.ok (), v') ∧ v'.file.content = data := by
  cases h with
  | failed => simp
  | @downloaded d w v h =>
    constructor
    · rintro ⟨w', hw⟩
      cases hw
      exact ⟨v, rfl, h⟩
    · rintro ⟨v', hv, rfl⟩
      cases hv
      exact ⟨w, by rw [h]⟩

/-! ## Results -/

/-- **Downloading to a file is downloading.** From an empty file at its start, whatever the hosts answer: when each host
finds the file as `RetriesFit` says, the file variant succeeds exactly when the other one does, and the file then holds
what the other one returns. -/
theorem toFile_equals_download (E : Env) (net : ℕ → Attempt) (conn : Except MediaConnError (List Bytes)) (r : Request)
    (allowNoHash preallocates : Bool) (n : ℕ)
    (hfit : ∀ hosts, conn = .ok hosts → EachHost (downloadAndDecryptToFile E net preallocates r.mediaKey r.mediaType
      r.encFileHash (r.hash allowNoHash)) (RetriesFit E net preallocates r (r.hash allowNoHash) 5) hosts ⟨n, ⟨[], 0⟩⟩)
    (data : Bytes) :
    (∃ w', downloadMediaWithPath E net conn r allowNoHash ⟨n, ⟨[], 0⟩⟩ = (.ok data, w')) ↔
      ∃ w', downloadMediaWithPathToFile E net conn preallocates r allowNoHash ⟨n, ⟨[], 0⟩⟩ = (.ok (), w') ∧
        w'.file.content = data := by
  refine Agree.iff ?_ data
  unfold downloadMediaWithPath downloadMediaWithPathToFile
  cases r.startsWithSlash with
  | false => exact .failed
  | true =>
    cases conn with
    | error e => exact .failed
    | ok hosts =>
      cases hosts with
      | nil => exact .downloaded rfl
      | cons host hosts =>
        exact downloadFromHosts_agree (fun _ _ => downloadAndDecrypt_alike) rfl (hfit _ rfl) (by simp)

/-- the first attempt breaks off, the second one gives the body -/
def secondAttempt (first second : Attempt) (k : ℕ) : Attempt := if k = 0 then first else second

/-- a retry writes over what the first attempt left -/
theorem toFile_equals_download_retry :
    (downloadMediaWithPath plainEnv (secondAttempt (breaksAfter [1, 2]) (serves oneByte)) (.ok [[1]]) oneByteRequest false
        ⟨0, ⟨[], 0⟩⟩).1 = .ok [5] ∧
      ∃ w', downloadMediaWithPathToFile plainEnv (secondAttempt (breaksAfter [1, 2]) (serves oneByte)) (.ok [[1]]) false
        oneByteRequest false ⟨0, ⟨[], 0⟩⟩ = (.ok (), w') ∧ w'.file.content = [5] := by
  refine ⟨rfl, (toFile_equals_download plainEnv (secondAttempt (breaksAfter [1, 2]) (serves oneByte)) (.ok [[1]])
    oneByteRequest false false 0 (fun hosts hhosts => ?_) [5]).1 ⟨⟨2, ⟨[], 0⟩⟩, rfl⟩⟩
  cases hhosts
  refine ⟨⟨fun data hdata => ?_, fun e w' he _ _ => ?_⟩, fun _ _ _ _ => trivial⟩
  · cases hdata
  · cases he
    refine ⟨fun data _ => ⟨fun _ => rfl, fun hplain => ?_⟩, fun e w' he _ _ => ?_⟩
    · cases hplain.1
    · cases he

/-- the network is down, there is no hash: five failures are a success with an empty file -/
theorem exhausted_file_succeeds :
    let r : Request := ⟨[47], none, none, none, []⟩
    (downloadMediaWithPath plainEnv (fun _ => unreachable) (.ok [[1]]) r true ⟨0, ⟨[], 0⟩⟩).1 =
        .err (.lastHost (.transport ⟨false, true, false⟩)) ∧
      (downloadMediaWithPathToFile plainEnv (fun _ => unreachable) (.ok [[1]]) true r true ⟨0, ⟨[], 0⟩⟩).1 = .ok () := by
  exact ⟨rfl, rfl⟩

/-- the first host serves something else: what the second one serves is written behind it and is refused -/
theorem next_host_appends :
    (downloadMediaWithPath plainEnv (secondAttempt (serves [1, 2]) (serves oneByte)) (.ok [[1], [2]]) oneByteRequest false
        ⟨0, ⟨[], 0⟩⟩).1 = .ok [5] ∧
      (downloadMediaWithPathToFile plainEnv (secondAttempt (serves [1, 2]) (serves oneByte)) (.ok [[1], [2]]) true
        oneByteRequest false ⟨0, ⟨[], 0⟩⟩).1 = .err (.lastHost .invalidMediaHMAC) := by
  exact ⟨rfl, rfl⟩

/-- media that is not encrypted, and a retry that is shorter than what the first attempt left -/
theorem shorter_body_keeps_tail :
    let r : Request := ⟨[47], none, none, none, []⟩
    let net := secondAttempt (breaksAfter [1, 2, 3]) (serves [9])
    (downloadMediaWithPath plainEnv net (.ok [[1]]) r true ⟨0, ⟨[], 0⟩⟩).1 = .ok [9] ∧
      (downloadMediaWithPathToFile plainEnv net (.ok [[1]]) true r true ⟨0, ⟨[], 0⟩⟩).2.file.content = [9, 2, 3] := by
  exact ⟨rfl, rfl⟩

end Hypermeow.Client.Media
