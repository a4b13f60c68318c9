/-
What a download without an error has verified (`DownloadMediaWithPath`, `DownloadMediaWithPathToFile`).

`Verified` is the promise: the bytes hash to the given file hash, and when a hash of the encrypted file was given, they are
the decryption of a body that came in this call, whose hash is that one and whose MAC is right.

Results:
- `media_integrity`: in memory the promise is kept exactly when a host is asked, or the call fails before, or nothing is
  what was asked for. To a file it is kept under the same condition when, with a hash of the encrypted file, each host
  is asked with the file at its start.
- `no_hosts_no_error`: a connection without hosts gives no error and no bytes.
- `other_ciphertext_accepted`: a file that an earlier host left behind its start passes with a ciphertext whose hash is
  not the given one.
-/
import Hypermeow.Client.Upload

namespace Hypermeow.Client.Media

open Lib Util Go

/-! ## The promise -/

section Promise

variable (E : Env) (net : ℕ → Attempt) (r : Request)

/-- the hash that is asked for; none is zeros -/
def Request.target : Bytes := r.fileHash.getD (List.replicate 32 0)

/-- the bytes are what is in the body: its hash is the given one, its MAC is right, and they are its decryption -/
structure Authentic (checksum body data : Bytes) : Prop where
  checksum : E.sha256 body = checksum
  long : mediaHMACLength < body.length
  mac : mediaHMAC E (getMediaKeys E r.mediaKey r.mediaType) (body.take (body.length - mediaHMACLength)) =
    body.drop (body.length - mediaHMACLength)
  decrypted : decrypt E.aes (getMediaKeys E r.mediaKey r.mediaType).cipherKey
    (getMediaKeys E r.mediaKey r.mediaType).iv (body.take (body.length - mediaHMACLength)) () = (.ok data, ())

/-- `data` was verified with the attempts from `first` to before `last` -/
structure Verified (first last : ℕ) (data : Bytes) : Prop where
  hash : E.sha256 data = r.target
  encrypted : ∀ checksum, r.encFileHash = some checksum → ∃ k body, first ≤ k ∧ k < last ∧
    (net k).fetched = .ok body ∧ Authentic E r checksum body data

variable {E net r} in
theorem Verified.mono {first first' last : ℕ} {data : Bytes} (h : Verified E net r first last data) (hle : first' ≤ first) :
    Verified E net r first' last data := by
  refine ⟨h.hash, fun c hc => ?_⟩
  obtain ⟨k, body, hk, hrest⟩ := h.encrypted c hc
  exact ⟨k, body, hle.trans hk, hrest⟩

/-- every host that is asked is asked in a state with `P` -/
def EachHost {α : Type} (download : Proc α) (P : World → Prop) : List Bytes → World → Prop
  | [], _ => True
  | _ :: hosts, w => P w ∧ ∀ e w', download w = (.err e, w') → e.final = false → EachHost download P hosts w'

/-- a host is asked, or the call fails before, or no bytes are what was asked for -/
def Answerable (conn : Except MediaConnError (List Bytes)) (content : Bytes) : Prop :=
  r.startsWithSlash = false ∨ conn ≠ .ok [] ∨ (E.sha256 content = r.target ∧ r.encFileHash = none)

/-- with a hash of the encrypted file, each host is asked with the file at its start -/
def AskedAtStart (preallocates : Bool) (conn : Except MediaConnError (List Bytes)) (w : World) : Prop :=
  r.encFileHash ≠ none → ∀ hosts, conn = .ok hosts → EachHost (downloadAndDecryptToFile E net preallocates r.mediaKey
    r.mediaType r.encFileHash (r.hash false)) (fun w => w.file.offset = 0) hosts w

end Promise

variable {E : Env} {net : ℕ → Attempt} {checksum : Option Bytes} {preallocates : Bool} {w w' : World} {r : Request}

/-! ## The attempts only go on -/

theorem onFile_keeps (f : File → File) : Go.Keeps World.next (onFile f) := fun _ => rfl

theorem hashFile_keeps : Go.Keeps World.next hashFile := fun _ => rfl

theorem decryptInFile_keeps (key iv : Bytes) : Go.Keeps World.next (decryptInFile E key iv) := .mapErr fun _ => rfl

theorem openMedia_keeps (mediaKey : Option Bytes) (appInfo : Bytes) (fileEncSHA256 fileSHA256 : Option Bytes)
    (ciphertext : Bytes) (mac : Option Bytes) :
    Go.Keeps World.next (openMedia E mediaKey appInfo fileEncSHA256 fileSHA256 ciphertext mac) :=
  .ite (.ite (.throw _) (.pure _)) (.bind (.ite (.pure _) (.throw _)) fun _ =>
    .bind (.mapErr (decrypt_keeps _ _ _ _)) fun _ => .ite (.throw _) (.pure _))

theorem openMediaFile_keeps (mediaKey : Option Bytes) (appInfo : Bytes) (fileEncSHA256 fileSHA256 mac : Option Bytes) :
    Go.Keeps World.next (openMediaFile E mediaKey appInfo fileEncSHA256 fileSHA256 mac) := by
  refine .ite ?_ ?_
  · cases fileSHA256 with
    | none => exact .pure _
    | some hash => exact .bind (onFile_keeps _) fun _ => .bind hashFile_keeps fun _ => .ite (.throw _) (.pure _)
  · refine .bind (.bind (onFile_keeps _) fun _ => .bind hashFile_keeps fun _ => .ite (.pure _) (.throw _)) fun _ => ?_
    exact .bind (onFile_keeps _) fun _ => .bind (decryptInFile_keeps _ _) fun _ => .bind (onFile_keeps _) fun _ =>
      .bind hashFile_keeps fun _ => .ite (.throw _) (.pure _)

theorem checksumFits_or (checksum : Option Bytes) : ChecksumFits checksum ∨ ∃ c, checksum = some c ∧ c.length ≠ 32 := by
  by_cases h : ChecksumFits checksum
  · exact .inl h
  · rw [ChecksumFits] at h
    push Not at h
    exact .inr h

/-- an attempt takes one request or none -/
theorem attempt_grows : Go.Grows World.next (downloadPossiblyEncryptedMedia E net checksum) := by
  intro w
  rcases checksumFits_or checksum with h | ⟨c, rfl, hc⟩
  · rw [downloadPossiblyEncryptedMedia_run E net h]
    exact Nat.le_succ _
  · rw [(downloadPossiblyEncryptedMedia_unfit E net false hc w).1]

theorem attemptToFile_grows : Go.Grows World.next (downloadPossiblyEncryptedMediaToFile E net preallocates checksum) := by
  intro w
  rcases checksumFits_or checksum with h | ⟨c, rfl, hc⟩
  · rcases downloadPossiblyEncryptedMediaToFile_cases E net preallocates h w with
      ⟨e, -, hrun⟩ | ⟨data, -, -, hrun⟩ | ⟨data, -, -, -, hrun⟩ <;> rw [hrun] <;> exact Nat.le_succ _
  · rw [(downloadPossiblyEncryptedMedia_unfit E net preallocates hc w).2]

theorem retries_grows (n : ℕ) (last : Except MediaError (Bytes × Option Bytes)) :
    Go.Grows World.next (downloadPossiblyEncryptedMediaWithRetries E net checksum n last) := by
  induction n generalizing last with
  | zero => cases last <;> exact fun _ => le_refl _
  | succ n ih =>
    refine .bind attempt_grows.attempt fun res => ?_
    cases res with
    | ok r => exact fun _ => le_refl _
    | error e =>
      refine .ite (.bind (fun _ => le_refl _) fun ctx => ?_) fun _ => le_refl _
      cases ctx with
      | some c => exact fun _ => le_refl _
      | none => exact ih _

theorem retriesToFile_grows (n : ℕ) (last : Except MediaError (Option Bytes)) :
    Go.Grows World.next (downloadPossiblyEncryptedMediaWithRetriesToFile E net preallocates checksum n last) := by
  induction n generalizing last with
  | zero => cases last <;> exact fun _ => le_refl _
  | succ n ih =>
    refine .bind attemptToFile_grows.attempt fun res => ?_
    cases res with
    | ok r => exact fun _ => le_refl _
    | error e =>
      refine .ite (.bind (.of_keeps (onFile_keeps _)) fun _ => .bind (fun _ => le_refl _) fun ctx => ?_) fun _ => le_refl _
      cases ctx with
      | some c => exact fun _ => le_refl _
      | none => exact ih _

theorem downloadAndDecrypt_grows (mediaKey : Option Bytes) (appInfo : Bytes) (fileEncSHA256 fileSHA256 : Option Bytes) :
    Go.Grows World.next (downloadAndDecrypt E net mediaKey appInfo fileEncSHA256 fileSHA256) :=
  .bind (retries_grows _ _) fun _ => .of_keeps (openMedia_keeps _ _ _ _ _ _)

theorem downloadAndDecryptToFile_grows (mediaKey : Option Bytes) (appInfo : Bytes)
    (fileEncSHA256 fileSHA256 : Option Bytes) :
    Go.Grows World.next (downloadAndDecryptToFile E net preallocates mediaKey appInfo fileEncSHA256 fileSHA256) :=
  .bind (retriesToFile_grows _ _) fun _ => .of_keeps (openMediaFile_keeps _ _ _ _ _)

/-! ## Hosts -/

variable {α : Type} {P : World → Prop}

theorem eachHost_of_forall {download : Proc α} (h : ∀ w, P w) (hosts : List Bytes)
    (w : World) : EachHost download P hosts w := by
  induction hosts generalizing w with
  | nil => exact trivial
  | cons host hosts ih => exact ⟨h w, fun _ w' _ _ => ih w'⟩

theorem EachHost.mono {download : Proc α} {Q : World → Prop} (h : ∀ w, P w → Q w) {hosts : List Bytes}
    (hP : EachHost download P hosts w) : EachHost download Q hosts w := by
  induction hosts generalizing w with
  | nil => exact trivial
  | cons host hosts ih => exact ⟨h w hP.1, fun e w' he hfinal => ih (hP.2 e w' he hfinal)⟩

/-- what is returned comes from one host that was asked -/
theorem downloadFromHosts_ok {download : Proc α} {nothing a : α} {hosts : List Bytes}
    (hgrow : Go.Grows World.next download) (hP : EachHost download P hosts w) (hne : hosts ≠ [])
    (h : downloadFromHosts download nothing hosts w = (.ok a, w')) :
    ∃ v, w.next ≤ v.next ∧ P v ∧ download v = (.ok a, w') := by
  induction hosts generalizing w with
  | nil => exact absurd rfl hne
  | cons host hosts ih =>
    rw [downloadFromHosts] at h
    obtain ⟨res, v, hres, hrest⟩ := bind_eq_ok.1 h
    cases res with
    | ok b =>
      cases hrest
      exact ⟨w, le_refl _, hP.1, attempt_eq_ok.1 hres⟩
    | error e =>
      have herr := attempt_eq_error.1 hres
      simp only at hrest
      split_ifs at hrest with hfinal hlast
      · cases hrest
      · cases hrest
      · obtain ⟨u, hle, hPu, hu⟩ := ih (hP.2 e v herr (by simpa using hfinal)) hlast hrest
        exact ⟨u, (hgrow.run herr).trans hle, hPu, hu⟩

/-! ## One host -/

variable {c : Bytes}

theorem accepted_ok {fetched : Except MediaError Bytes} {res : Bytes × Option Bytes}
    (h : accepted E (some c) fetched = .ok res) :
    ∃ body, fetched = .ok body ∧ E.sha256 body = c ∧ mediaHMACLength < body.length ∧
      res = (body.take (body.length - mediaHMACLength), some (body.drop (body.length - mediaHMACLength))) := by
  cases fetched with
  | error e => cases h
  | ok body =>
    rw [accepted] at h
    split_ifs at h with hshort hsum
    cases h
    exact ⟨body, rfl, not_not.1 hsum, not_le.1 hshort, rfl⟩

variable {n : ℕ}

/-- what the loop returns was accepted in one of its attempts -/
theorem retries_ok (hc : ChecksumFits checksum) {last : Except MediaError (Bytes × Option Bytes)}
    {res : Bytes × Option Bytes} (hlast : n = 0 → ∃ e, last = .error e)
    (h : downloadPossiblyEncryptedMediaWithRetries E net checksum n last w = (.ok res, w')) :
    ∃ k, w.next ≤ k ∧ k < w'.next ∧ accepted E checksum (net k).fetched = .ok res := by
  induction n generalizing w last with
  | zero =>
    obtain ⟨e, rfl⟩ := hlast rfl
    cases h
  | succ n ih =>
    have hrun := downloadPossiblyEncryptedMedia_run E net hc w
    cases hacc : accepted E checksum (net w.next).fetched with
    | ok r =>
      rw [hacc] at hrun
      rw [retries_of_ok n last hrun] at h
      cases h
      exact ⟨w.next, le_refl _, Nat.lt_succ_self _, hacc⟩
    | error e =>
      rw [hacc] at hrun
      rw [retries_of_err n last hrun] at h
      split_ifs at h
      · split at h
        · cases h
        · obtain ⟨k, hle, hlt, hk⟩ := ih (fun _ => ⟨e, rfl⟩) h
          exact ⟨k, Nat.le_of_succ_le hle, hlt, hk⟩
      · cases h

variable {last : Except MediaError (Option Bytes)} {mac : Option Bytes}

/-- what the loop returns is what one of its attempts returned, the first where the file stood or a later one from its
start; when all attempts fail, it returns no MAC -/
theorem retriesToFile_attempt (hc : ChecksumFits checksum) (hlast : last = .ok none)
    (h : downloadPossiblyEncryptedMediaWithRetriesToFile E net preallocates checksum n last w = (.ok mac, w')) :
    mac = none ∨ ∃ v, w.next ≤ v.next ∧ (v = w ∨ v.file.offset = 0) ∧
      downloadPossiblyEncryptedMediaToFile E net preallocates checksum v = (.ok mac, w') := by
  induction n generalizing w last with
  | zero =>
    rw [hlast] at h
    cases h
    exact .inl rfl
  | succ n ih =>
    rcases downloadPossiblyEncryptedMediaToFile_cases E net preallocates hc w with
      ⟨e, -, hrun⟩ | ⟨body, -, -, hrun⟩ | ⟨body, -, -, -, hrun⟩
    · rw [retriesToFile_of_err n last hrun] at h
      split_ifs at h
      · split at h
        · cases h
        · rcases ih rfl h with hnone | ⟨v, hle, hstart, hv⟩
          · exact .inl hnone
          · refine .inr ⟨v, Nat.le_of_succ_le hle, .inr ?_, hv⟩
            rcases hstart with rfl | hstart
            · rfl
            · exact hstart
      · cases h
    · rw [retriesToFile_of_ok n last hrun] at h
      cases h
      exact .inl rfl
    · rw [retriesToFile_of_ok n last hrun] at h
      exact .inr ⟨w, le_refl _, .inl rfl, hrun.trans h⟩

/-- from the start of the file on, the loop leaves the ciphertext it accepted -/
theorem retriesToFile_ok (hc : ChecksumFits (some c)) (hlast : last = .ok none) (hw : w.file.offset = 0)
    (h : downloadPossiblyEncryptedMediaWithRetriesToFile E net preallocates (some c) n last w = (.ok mac, w')) :
    mac = none ∨ ∃ k body, w.next ≤ k ∧ k < w'.next ∧ (net k).fetched = .ok body ∧ E.sha256 body = c ∧
      mediaHMACLength < body.length ∧ mac = some (body.drop (body.length - mediaHMACLength)) ∧
      w'.file.content = body.take (body.length - mediaHMACLength) := by
  rcases retriesToFile_attempt hc hlast h with hnone | ⟨v, hle, hstart, hv⟩
  · exact .inl hnone
  have hoffset : v.file.offset = 0 := by
    rcases hstart with rfl | hstart
    · exact hw
    · exact hstart
  rcases downloadPossiblyEncryptedMediaToFile_cases E net preallocates hc v with
    ⟨e, -, hrun⟩ | ⟨body, -, hnone, -⟩ | ⟨body, hbody, hsum, hlen, -⟩
  · cases hrun.symm.trans hv
  · cases hnone
  · cases hsum
    obtain ⟨f, hrun, hcontent⟩ := downloadToFile_start E preallocates hbody hlen hoffset
    cases hrun.symm.trans hv
    exact .inr ⟨v.next, body, hle, Nat.lt_succ_self _, hbody, rfl, hlen, rfl, hcontent⟩

/-- without a checksum there is no MAC -/
theorem retriesToFile_mac
    (hlast : last = .ok none)
    (h : downloadPossiblyEncryptedMediaWithRetriesToFile E net preallocates none n last w = (.ok mac, w')) :
    mac = none := by
  have hc : ChecksumFits none := fun _ h => by cases h
  rcases retriesToFile_attempt hc hlast h with hnone | ⟨v, -, -, hv⟩
  · exact hnone
  rcases downloadPossiblyEncryptedMediaToFile_cases E net preallocates hc v with
    ⟨e, -, hrun⟩ | ⟨body, -, -, hrun⟩ | ⟨body, -, hsum, -, -⟩
  · cases hrun.symm.trans hv
  · cases hrun.symm.trans hv
    rfl
  · cases hsum

/-- what is opened without an error has the hash, and a MAC that is right -/
theorem openMedia_ok {mediaKey fileEncSHA256 : Option Bytes} {appInfo hash ciphertext data : Bytes}
    (h : openMedia E mediaKey appInfo fileEncSHA256 (some hash) ciphertext mac w = (.ok data, w')) :
    w' = w ∧ E.sha256 data = hash ∧ (fileEncSHA256 ≠ none →
      mediaHMAC E (getMediaKeys E mediaKey appInfo) ciphertext = mac.getD [] ∧
      decrypt E.aes (getMediaKeys E mediaKey appInfo).cipherKey (getMediaKeys E mediaKey appInfo).iv ciphertext () =
        (.ok data, ())) := by
  unfold openMedia at h
  by_cases hplain : mediaKey = none ∧ fileEncSHA256 = none ∧ mac = none
  · rw [if_pos hplain] at h
    split_ifs at h with hhash
    · cases h
    · cases h
      refine ⟨rfl, ?_, fun henc => absurd hplain.2.1 henc⟩
      simpa using hhash
  · rw [if_neg hplain, validateMedia] at h
    by_cases hmac : mediaHMAC E (getMediaKeys E mediaKey appInfo) ciphertext = mac.getD []
    · rw [if_pos hmac, bind_ok (pure_run _ _)] at h
      obtain ⟨pt, s₁, hdec, hrest⟩ := bind_eq_ok.1 h
      have hdec' := mapErr_eq_ok.1 hdec
      have hs : s₁ = w := (decrypt_keeps (f := id) E.aes _ _ _).run hdec'
      split_ifs at hrest with hhash
      · cases hrest
      · cases hrest
        exact ⟨hs, not_not.1 hhash, fun _ => ⟨hmac, decrypt_any E.aes hdec' ()⟩⟩
    · rw [if_neg hmac, bind_err (throw_run _ _)] at h
      cases h

theorem Request.hash_false (r : Request) : r.hash false = some r.target := by
  cases h : r.fileHash <;> simp [Request.hash, Request.target, h]

/-- a checksum of the wrong length is an error with every host -/
theorem retries_unfit (preallocates : Bool) (hc : c.length ≠ 32) (n : ℕ)
    (last : Except MediaError (Bytes × Option Bytes)) (last' : Except MediaError (Option Bytes)) (w : World) :
    downloadPossiblyEncryptedMediaWithRetries E net (some c) (n + 1) last w = (.err (.checksumLength c.length), w) ∧
      downloadPossiblyEncryptedMediaWithRetriesToFile E net preallocates (some c) (n + 1) last' w =
        (.err (.checksumLength c.length), w) := by
  obtain ⟨hmem, hfile⟩ := downloadPossiblyEncryptedMedia_unfit E net preallocates hc w
  exact ⟨retries_of_err n last hmem, retriesToFile_of_err n last' hfile⟩

/-- one host, in memory -/
theorem downloadAndDecrypt_verified {data : Bytes}
    (h : downloadAndDecrypt E net r.mediaKey r.mediaType r.encFileHash (r.hash false) w = (.ok data, w')) :
    Verified E net r w.next w'.next data := by
  rw [downloadAndDecrypt, Request.hash_false] at h
  obtain ⟨⟨ciphertext, mac⟩, v, hdown, hopen⟩ := bind_eq_ok.1 h
  obtain ⟨rfl, hhash, henc⟩ := openMedia_ok hopen
  refine ⟨hhash, fun c hc => ?_⟩
  rw [hc] at hdown
  rcases checksumFits_or (some c) with hfit | ⟨c', hc', hne⟩
  · obtain ⟨k, hle, hlt, hacc⟩ := retries_ok hfit (by simp) hdown
    obtain ⟨body, hbody, hsum, hlong, hres⟩ := accepted_ok hacc
    cases hres
    obtain ⟨hmac, hdec⟩ := henc (by rw [hc]; simp)
    exact ⟨k, body, hle, hlt, hbody, hsum, hlong, hmac, hdec⟩
  · cases hc'
    rw [(retries_unfit false hne 4 _ (.ok none) w).1] at hdown
    cases hdown

/-- one host, to a file -/
theorem downloadAndDecryptToFile_verified (hw : r.encFileHash ≠ none → w.file.offset = 0)
    (h : downloadAndDecryptToFile E net preallocates r.mediaKey r.mediaType r.encFileHash (r.hash false) w =
      (.ok (), w')) :
    Verified E net r w.next w'.next w'.file.content := by
  rw [downloadAndDecryptToFile, Request.hash_false] at h
  obtain ⟨mac, v, hdown, hopen⟩ := bind_eq_ok.1 h
  have hnext : w'.next = v.next := (openMediaFile_keeps _ _ _ _ _).run hopen
  -- what is in the file when it is opened
  have hstored : mac = none ∨ ∃ c k body, r.encFileHash = some c ∧ w.next ≤ k ∧ k < v.next ∧ (net k).fetched = .ok body ∧
      E.sha256 body = c ∧ mediaHMACLength < body.length ∧ mac = some (body.drop (body.length - mediaHMACLength)) ∧
      v.file.content = body.take (body.length - mediaHMACLength) := by
    cases henc : r.encFileHash with
    | none =>
      rw [henc] at hdown
      exact .inl (retriesToFile_mac rfl hdown)
    | some c =>
      rw [henc] at hdown
      rcases checksumFits_or (some c) with hfit | ⟨c', hc', hne⟩
      · rcases retriesToFile_ok hfit rfl (hw (by rw [henc]; simp)) hdown with hnone | ⟨k, body, hrest⟩
        · exact .inl hnone
        · exact .inr ⟨c, k, body, rfl, hrest⟩
      · cases hc'
        rw [(retries_unfit preallocates hne 4 (.ok ([], none)) _ w).2] at hdown
        cases hdown
  have hne : mac ≠ none → v.file.content ≠ [] := by
    intro hmac
    rcases hstored with hnone | ⟨c, k, body, -, -, -, -, -, hlong, -, hcontent⟩
    · exact absurd hnone hmac
    · apply List.ne_nil_of_length_pos
      rw [hcontent, List.length_take]
      omega
  rcases openMedia_alike E r.mediaKey r.mediaType r.encFileHash (some r.target) (w := v) rfl hne with
    ⟨data, v', hmem, hfile, hdata, -⟩ | ⟨e, e', v', -, hfile, -, -⟩
  · rw [hopen] at hfile
    cases hfile
    obtain ⟨-, hhash, henc⟩ := openMedia_ok hmem
    rw [hdata]
    refine ⟨hhash, fun c hc => ?_⟩
    obtain ⟨hmac, hdec⟩ := henc (by rw [hc]; simp)
    rcases hstored with rfl | ⟨c', k, body, hc', hle, hlt, hbody, hsum, hlong, rfl, hcontent⟩
    · have := length_mediaHMAC (E := E) (getMediaKeys E r.mediaKey r.mediaType) v.file.content
      rw [hmac] at this
      cases this
    · rw [hc] at hc'
      cases hc'
      rw [hcontent] at hmac hdec
      exact ⟨k, body, hle, by rw [hnext]; exact hlt, hbody, hsum, hlong, hmac, hdec⟩
  · rw [hopen] at hfile
    cases hfile

/-! ## Results -/

/-- no host is asked: nothing is downloaded -/
theorem verified_nothing {content : Bytes} :
    Verified E net r n n content ↔ E.sha256 content = r.target ∧ r.encFileHash = none := by
  constructor
  · rintro ⟨hhash, henc⟩
    refine ⟨hhash, ?_⟩
    cases hc : r.encFileHash with
    | none => rfl
    | some c =>
      obtain ⟨k, -, hle, hlt, -⟩ := henc c hc
      omega
  · rintro ⟨hhash, henc⟩
    refine ⟨hhash, fun c hc => ?_⟩
    rw [henc] at hc
    cases hc

/-- **Media integrity.** In memory, whatever the hosts answer: what is returned without an error is verified exactly when
a host is asked, or the call fails before, or nothing was asked for. To a file the same is necessary, and it is enough
when each host is asked with the file at its start. -/
theorem media_integrity (E : Env) (net : ℕ → Attempt) (r : Request) (conn : Except MediaConnError (List Bytes))
    (preallocates : Bool) (w : World) :
    ((∀ data w', downloadMediaWithPath E net conn r false w = (.ok data, w') → Verified E net r w.next w'.next data) ↔
      Answerable E r conn []) ∧
    ((∀ w', downloadMediaWithPathToFile E net conn preallocates r false w = (.ok (), w') →
      Verified E net r w.next w'.next w'.file.content) → Answerable E r conn w.file.content) ∧
    (Answerable E r conn w.file.content → AskedAtStart E net r preallocates conn w →
      ∀ w', downloadMediaWithPathToFile E net conn preallocates r false w = (.ok (), w') →
        Verified E net r w.next w'.next w'.file.content) := by
  cases hslash : r.startsWithSlash with
  | false =>
    have hans : ∀ content, Answerable E r conn content := fun _ => .inl hslash
    refine ⟨iff_of_true (fun data w' h => ?_) (hans _), fun _ => hans _, fun _ _ w' h => ?_⟩
    · unfold downloadMediaWithPath at h
      rw [hslash] at h
      cases h
    · unfold downloadMediaWithPathToFile at h
      rw [hslash] at h
      cases h
  | true =>
    cases conn with
    | error e =>
      have hans : ∀ content, Answerable E r (.error e) content := fun _ => .inr (.inl (by simp))
      refine ⟨iff_of_true (fun data w' h => ?_) (hans _), fun _ => hans _, fun _ _ w' h => ?_⟩
      · rw [downloadMediaWithPath, hslash] at h
        cases h
      · rw [downloadMediaWithPathToFile, hslash] at h
        cases h
    | ok hosts =>
      have hmem : downloadMediaWithPath E net (.ok hosts) r false w = downloadFromHosts
          (downloadAndDecrypt E net r.mediaKey r.mediaType r.encFileHash (r.hash false)) [] hosts w := by
        rw [downloadMediaWithPath, hslash]
        rfl
      have hfile : downloadMediaWithPathToFile E net (.ok hosts) preallocates r false w = downloadFromHosts
          (downloadAndDecryptToFile E net preallocates r.mediaKey r.mediaType r.encFileHash (r.hash false)) () hosts w := by
        rw [downloadMediaWithPathToFile, hslash]
        rfl
      rw [hmem, hfile]
      by_cases hne : hosts = []
      · subst hne
        have hans : ∀ content, Answerable E r (.ok []) content ↔ E.sha256 content = r.target ∧ r.encFileHash = none := by
          intro content
          simp [Answerable, hslash]
        rw [hans, hans]
        refine ⟨⟨fun h => verified_nothing.1 (h [] w rfl), fun h data w' hd => ?_⟩, fun h => verified_nothing.1 (h w rfl),
          fun h _ w' hd => ?_⟩
        · cases hd
          exact verified_nothing.2 h
        · cases hd
          exact verified_nothing.2 h
      · have hans : ∀ content, Answerable E r (.ok hosts) content := fun _ => .inr (.inl (by simpa using hne))
        refine ⟨iff_of_true (fun data w' h => ?_) (hans _), fun _ => hans _, fun _ hstart w' h => ?_⟩
        · obtain ⟨v, hle, -, hv⟩ := downloadFromHosts_ok (downloadAndDecrypt_grows _ _ _ _)
            (eachHost_of_forall (fun _ => trivial) hosts w) hne h
          exact (downloadAndDecrypt_verified hv).mono hle
        · have hP : EachHost (downloadAndDecryptToFile E net preallocates r.mediaKey r.mediaType r.encFileHash
              (r.hash false)) (fun w => r.encFileHash ≠ none → w.file.offset = 0) hosts w := by
            by_cases henc : r.encFileHash = none
            · exact eachHost_of_forall (fun _ hne' => absurd henc hne') hosts w
            · exact (hstart henc hosts rfl).mono fun _ h _ => h
          obtain ⟨v, hle, hPv, hv⟩ := downloadFromHosts_ok (downloadAndDecryptToFile_grows _ _ _ _) hP hne h
          exact (downloadAndDecryptToFile_verified hPv hv).mono hle

/-- a plaintext of one byte, encrypted, with its MAC -/
def oneByte : Bytes := [5] ++ List.replicate 15 15 ++ List.replicate 10 0

def oneByteRequest : Request := ⟨[47], some (plainEnv.sha256 oneByte), some (plainEnv.sha256 [5]), some [3], []⟩

/-- a host that serves it -/
theorem media_integrity_served :
    (downloadMediaWithPath plainEnv (fun _ => serves oneByte) (.ok [[1]]) oneByteRequest false ⟨0, ⟨[], 0⟩⟩).1 =
        .ok [5] ∧
      Verified plainEnv (fun _ => serves oneByte) oneByteRequest 0 1 [5] ∧
      ∃ w', downloadMediaWithPathToFile plainEnv (fun _ => serves oneByte) (.ok [[1]]) false oneByteRequest false
          ⟨0, ⟨[], 0⟩⟩ = (.ok (), w') ∧
        Verified plainEnv (fun _ => serves oneByte) oneByteRequest 0 w'.next w'.file.content := by
  obtain ⟨hmem, -, hfile⟩ := media_integrity plainEnv (fun _ => serves oneByte) oneByteRequest (.ok [[1]]) false
    ⟨0, ⟨[], 0⟩⟩
  refine ⟨rfl, hmem.2 (.inr (.inl (by simp))) [5] ⟨1, ⟨[], 0⟩⟩ rfl, _, rfl, ?_⟩
  refine hfile (.inr (.inl (by simp))) (fun _ hosts hhosts => ?_) _ rfl
  cases hhosts
  exact ⟨rfl, fun _ _ _ _ => trivial⟩

/-- the connection has no hosts: no error, and no bytes -/
theorem no_hosts_no_error :
    let conn := refreshMediaConn none (.mediaConn true [])
    let r : Request := ⟨[47], some (List.replicate 32 1), some (List.replicate 32 2), some [3], []⟩
    downloadMediaWithPath plainEnv (fun _ => unreachable) conn r false ⟨0, ⟨[], 0⟩⟩ = (.ok [], ⟨0, ⟨[], 0⟩⟩) ∧
      downloadMediaWithPathToFile plainEnv (fun _ => unreachable) conn true r false ⟨0, ⟨[], 0⟩⟩ =
        (.ok (), ⟨0, ⟨[], 0⟩⟩) ∧
      plainEnv.sha256 [] ≠ List.replicate 32 2 := by
  exact ⟨rfl, rfl, by decide⟩

/-- bytes with the right hash and no right MAC -/
def otherRequest : Request := { oneByteRequest with encFileHash := some (plainEnv.sha256 (List.replicate 26 9)) }

/-- the first host serves another ciphertext of the plaintext, the second one the bytes with the hash -/
def oneByteFirst (k : ℕ) : Attempt := if k = 0 then serves oneByte else serves (List.replicate 26 9)

/-- the file variant opens what the first host left -/
theorem other_ciphertext_accepted :
    (downloadMediaWithPath plainEnv oneByteFirst (.ok [[1], [2]]) otherRequest false ⟨0, ⟨[], 0⟩⟩).1 =
        .err (.lastHost .invalidMediaHMAC) ∧
      downloadMediaWithPathToFile plainEnv oneByteFirst (.ok [[1], [2]]) false otherRequest false ⟨0, ⟨[], 0⟩⟩ =
        (.ok (), ⟨2, ⟨[5], 1⟩⟩) ∧
      ¬ Verified plainEnv oneByteFirst otherRequest 0 2 [5] := by
  refine ⟨rfl, rfl, fun h => ?_⟩
  obtain ⟨k, body, -, -, hbody, hauth⟩ := h.encrypted _ rfl
  by_cases hk : k = 0
  · rw [oneByteFirst, if_pos hk] at hbody
    cases hbody
    exact absurd hauth.checksum (by decide)
  · rw [oneByteFirst, if_neg hk] at hbody
    cases hbody
    exact absurd hauth.mac (by decide)

end Hypermeow.Client.Media
