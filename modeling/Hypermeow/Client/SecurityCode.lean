/-
Security codes, by which two users compare the identity keys of their devices (`security_code.go`).

A client takes the device lists of its own user and of the other one, and the identity key of every device. Its own key comes
from memory, the others from the identity store or, when they are missing there, from a prekey request. The keys of each user
are sorted and hashed with the user's name, 5200 times over, and the two halves of 30 digits are put in order.

Model: the client's answers for one call are an `Env`: device lists, stored and requested keys, aliases and names, and at
which check the context is cancelled. SHA-512 and protobuf are parameters. Signal addresses are compared as the texts that
the store uses. A `DeviceList` names each device of a user once: a device is a number, at the LID server or, when it is
hosted, at the hosted one.

Results:
- `getIdentityVerificationCodes_returns`: a client that gets its answers computes a code.
-/
import Hypermeow.Lib.Go
import Hypermeow.Lib.Sort
import Hypermeow.Types.JID

namespace Hypermeow.Client.SecurityCode

open Lib Types Go List Option

/-! ## Codes -/

abbrev Key := { k : Bytes // k.length = 32 }

def securityCodeIterations : ℕ := 5200

inductive ReadError where
  | readerUnsupported
  | readKeys
  | fetch
  | missingFromResponse (device : JID)
  | fetchKey (device : JID)
  | ensure (device : JID)
  | notTrusted (device : JID)
  | unavailable (device : JID)
deriving DecidableEq, Repr

inductive FingerprintError where
  | lidRequired
  | phoneNumber
  | noKeys
deriving DecidableEq, Repr

inductive VerificationError where
  | requiresLID
  | localLIDUnavailable
  | localUser
  | localKeyUnavailable
  | getDevices
  | noDevices (userID : JID)
  | readLocal (e : ReadError)
  | readRemote (e : ReadError)
  | context
  | invalidLocal (e : FingerprintError)
  | invalidRemote (e : FingerprintError)
  | marshal
deriving DecidableEq, Repr

structure FingerprintData where
  lidIdentifier : Bytes
  usernameIdentifier : Bytes
  hosted : Bool
  hashedPublicKey : Bytes
  pnIdentifier : Option Bytes
  publicKey : Option Bytes
deriving DecidableEq, Repr

structure IdentityVerificationFingerprint where
  lid : JID
  phone : JID
  username : Bytes
  keys : List Key
  hosted : Bool
deriving DecidableEq, Repr

structure IdentityVerificationCodes where
  userID : JID
  phoneNumber : JID
  username : Bytes
  numericCode : Bytes
  displayQRCode : Bytes
  verificationQRCode : Bytes
deriving DecidableEq, Repr

/-- what a client has and is told during one call -/
structure Env where
  /-- does `ctx.Err()` return an error at its n-th call? -/
  ctxErr : ℕ → Bool
  lid : JID
  id : Option JID
  identityKey : Option Key
  /-- `GetUserDevices`; `none` is an error -/
  getUserDevices : List JID → Option (List JID)
  /-- is the identity store an `IdentityKeyReader`? -/
  isReader : Bool
  /-- `GetManyIdentities`, a map from addresses -/
  getManyIdentities : List Bytes → Option (Bytes → Option Key)
  /-- `fetchPreKeys`: a map from devices to bundles or errors -/
  fetchPreKeys : List JID → Option (JID → Option (Option Key))
  /-- `EnsureIdentity`: is the key trusted? -/
  ensureIdentity : Bytes → Key → Option Bool
  /-- `GetPNForLID`, when there is a LID store -/
  getPNForLID : Option (JID → Option JID)
  /-- the username that `GetContact` gives, when there is a contact store -/
  getUsername : Option (JID → Option Bytes)
  marshalCombinedFingerprint : FingerprintData → FingerprintData → Option Bytes

/-- methods that check the context; the state counts the checks -/
abbrev Verify := Go ℕ VerificationError

section

variable (sha512 : Bytes → { d : Bytes // d.length = 64 }) (env : Env)

def checkContext : Verify Unit := fun n => (if env.ctxErr n then .err .context else .ok (), n + 1)

/-- the keys in increasing order, each with its type byte -/
def serializeIdentityKeys (keys : List Key) : Bytes :=
  (sortBytes (keys.map Subtype.val)).flatMap fun key => 5 :: key

/-- the last `n` rounds; the context is checked in every 64th -/
def fingerprintLoop (keys : Bytes) : ℕ → Bytes → Verify Bytes
  | 0, digest => pure digest
  | n + 1, digest => do
    if (securityCodeIterations - (n + 1)) % 64 = 0 then checkContext env
    fingerprintLoop keys n (sha512 (digest ++ keys)).1

/-- six groups of five digits, each from five bytes of the digest -/
def codeOfDigest (digest : Bytes) : Bytes :=
  (List.range 6).flatMap fun i => padded 5 (beNat ((digest.drop (5 * i)).take 5) % 100000)

def generateSecurityCodeFingerprint (identifier keys : Bytes) : Verify Bytes := do
  checkContext env
  let digest ← fingerprintLoop sha512 env keys securityCodeIterations (sha512 ([0, 0] ++ keys ++ identifier)).1
  pure (codeOfDigest digest)

def generateNumericSecurityCode (localIdentifier : Bytes) (localKeys : List Key) (remoteIdentifier : Bytes)
    (remoteKeys : List Key) : Verify Bytes := do
  let ours ← generateSecurityCodeFingerprint sha512 env localIdentifier (serializeIdentityKeys localKeys)
  let theirs ← generateSecurityCodeFingerprint sha512 env remoteIdentifier (serializeIdentityKeys remoteKeys)
  pure (if ours < theirs then ours ++ theirs else theirs ++ ours)

/-! ## QR codes -/

def validateIdentityVerificationFingerprint (fingerprint : IdentityVerificationFingerprint) :
    Except FingerprintError Unit :=
  if fingerprint.lid.server ≠ hiddenUserServer ∨ fingerprint.lid.user = [] then .error .lidRequired
  else if !fingerprint.phone.isEmpty ∧ fingerprint.phone.server ≠ defaultUserServer then .error .phoneNumber
  else if fingerprint.keys.length = 0 then .error .noKeys
  else .ok ()

def buildFingerprintData (fingerprint : IdentityVerificationFingerprint) (includeUnhashed : Bool) : FingerprintData where
  lidIdentifier := fingerprint.lid.string
  usernameIdentifier := fingerprint.username
  hosted := fingerprint.hosted
  hashedPublicKey := (sha512 (serializeIdentityKeys fingerprint.keys)).1
  pnIdentifier := if fingerprint.phone.isEmpty then none else some fingerprint.phone.user
  publicKey := if includeUnhashed then some (serializeIdentityKeys fingerprint.keys) else none

def buildIdentityVerificationQRCodes (ours theirs : IdentityVerificationFingerprint) :
    Except VerificationError (Bytes × Bytes) := do
  (validateIdentityVerificationFingerprint ours).mapError .invalidLocal
  (validateIdentityVerificationFingerprint theirs).mapError .invalidRemote
  let marshal (includeUnhashed : Bool) : Except VerificationError Bytes :=
    match env.marshalCombinedFingerprint (buildFingerprintData sha512 ours includeUnhashed)
        (buildFingerprintData sha512 theirs includeUnhashed) with
    | some bytes => .ok bytes
    | none => .error .marshal
  let display ← marshal false
  let verify ← marshal true
  pure (display, verify)

def newIdentityVerificationCodes (ours theirs : IdentityVerificationFingerprint) : Verify IdentityVerificationCodes := do
  let numericCode ← generateNumericSecurityCode sha512 env ours.lid.user ours.keys theirs.lid.user theirs.keys
  match buildIdentityVerificationQRCodes sha512 env ours theirs with
  | .error e => Go.throw e
  | .ok (displayQR, verificationQR) =>
    pure ⟨theirs.lid, theirs.phone, theirs.username, numericCode, displayQR, verificationQR⟩

/-! ## Keys of devices -/

/-- the address under which the identity of a device is stored -/
def addressOf (device : JID) : Bytes := device.signalAddress.string

/-- the first device of every address that was not seen before -/
def uniqueDevices : List Bytes → List JID → List JID
  | _, [] => []
  | seen, device :: devices =>
    if addressOf device ∈ seen then uniqueDevices seen devices
    else device :: uniqueDevices (addressOf device :: seen) devices

/-- the key of one device from the response to the request for the missing ones -/
def fetchedKey (responses : JID → Option (Option Key)) (device : JID) : Except ReadError (Bytes × Key) :=
  match responses device with
  | none => .error (.missingFromResponse device)
  | some none => .error (.fetchKey device)
  | some (some key) =>
    match env.ensureIdentity (addressOf device) key with
    | none => .error (.ensure device)
    | some false => .error (.notTrusted device)
    | some true => .ok (addressOf device, key)

def fetchMissing (missing : List JID) : Except ReadError (List (Bytes × Key)) :=
  if missing.length = 0 then .ok []
  else match env.fetchPreKeys missing with
    | none => .error .fetch
    | some responses => missing.mapM (fetchedKey env responses)

def readIdentityKeys (devices : List JID) : Except ReadError (List Key) :=
  if !env.isReader then .error .readerUnsupported
  else
    let devices := uniqueDevices [] devices
    match env.getManyIdentities (devices.map addressOf) with
    | none => .error .readKeys
    | some stored => do
      let fetched ← fetchMissing env (devices.filter fun device => (stored (addressOf device)).isNone)
      devices.mapM fun device =>
        match (fetched.lookup (addressOf device)).or (stored (addressOf device)) with
        | some key => .ok key
        | none => .error (.unavailable device)

/-! ## The client -/

/-- a device of the user, hosted or not -/
def isDeviceOf (lid device : JID) : Bool :=
  device.user = lid.user && (device.server = hiddenUserServer || device.server = hostedLIDServer)

/-- the other devices of the local user, and the devices of the remote one -/
def splitIdentityVerificationDevices (devices : List JID) (localLID remoteLID : JID) (currentDevice : UInt16)
    (hasCurrentDevice : Bool) : List JID × List JID :=
  (devices.filter fun device => isDeviceOf localLID device && (!hasCurrentDevice || device.device != currentDevice),
    devices.filter fun device => !isDeviceOf localLID device && isDeviceOf remoteLID device)

def hasHostedIdentityDevice (devices : List JID) : Bool :=
  devices.any fun device => device.server = hostedLIDServer || device.server = hostedServer

/-- the phone number of the local user -/
def localPhone : JID :=
  match env.id with
  | some id => if id.server = defaultUserServer then id.toNonAD else emptyJID
  | none => emptyJID

/-- the phone number of the remote user; errors are logged -/
def remotePhone (userID : JID) : JID :=
  match env.getPNForLID with
  | some getPNForLID => (getPNForLID userID).getD emptyJID
  | none => emptyJID

def usernameOf (jid : JID) : Bytes :=
  match env.getUsername with
  | some getUsername => (getUsername jid).getD []
  | none => []

/-- the part that uses the two device lists -/
def codesOfDevices (localLID userID : JID) (identityKey : Key) (localDevices remoteDevices : List JID) :
    Verify IdentityVerificationCodes :=
  if remoteDevices.length = 0 then Go.throw (.noDevices userID)
  else match readIdentityKeys env localDevices with
    | .error e => Go.throw (.readLocal e)
    | .ok otherLocalKeys =>
      match readIdentityKeys env remoteDevices with
      | .error e => Go.throw (.readRemote e)
      | .ok remoteKeys =>
        newIdentityVerificationCodes sha512 env
          ⟨localLID, localPhone env, usernameOf env localLID, identityKey :: otherLocalKeys,
            hasHostedIdentityDevice localDevices⟩
          ⟨userID, remotePhone env userID, usernameOf env userID, remoteKeys, hasHostedIdentityDevice remoteDevices⟩

/-- the devices, split on the device of the client -/
def splitDevices (localLID userID : JID) (devices : List JID) : List JID × List JID :=
  splitIdentityVerificationDevices devices localLID userID ((env.id.map JID.device).getD 0) env.id.isSome

/-- the codes for JIDs without a device -/
def codesForUser (localLID userID : JID) : Verify IdentityVerificationCodes :=
  if userID.server ≠ hiddenUserServer ∨ userID.user = [] then Go.throw .requiresLID
  else if localLID.server ≠ hiddenUserServer ∨ localLID.user = [] then Go.throw .localLIDUnavailable
  else if localLID = userID then Go.throw .localUser
  else match env.identityKey with
    | none => Go.throw .localKeyUnavailable
    | some identityKey =>
      match env.getUserDevices [localLID, userID] with
      | none => Go.throw .getDevices
      | some devices =>
        codesOfDevices sha512 env localLID userID identityKey (splitDevices env localLID userID devices).1
          (splitDevices env localLID userID devices).2

def getIdentityVerificationCodes (userID : JID) : Verify IdentityVerificationCodes :=
  codesForUser sha512 env env.lid.toNonAD userID.toNonAD

end

variable {sha512 : Bytes → { d : Bytes // d.length = 64 }} {env : Env}

/-! ## What a code is made of -/

/-- two halves in order -/
def joined (x y : Bytes) : Bytes := if x < y then x ++ y else y ++ x

/-- the half of one user, a function of the keys in any order -/
def fingerprintOf (sha512 : Bytes → { d : Bytes // d.length = 64 }) (identifier : Bytes) (keys : List Key) : Bytes :=
  let serialized := serializeIdentityKeys keys
  codeOfDigest ((fun digest => (sha512 (digest ++ serialized)).1)^[securityCodeIterations]
    (sha512 ([0, 0] ++ serialized ++ identifier)).1)

variable {keys : List Key}

/-- 60 decimal digits -/
def IsNumericCode (code : Bytes) : Prop := code.length = 60 ∧ ∀ b ∈ code, isDigit b = true

/-! ## The loop -/

variable {s t : ℕ}

theorem checkContext_returns (hctx : ∀ n, env.ctxErr n = false) (s : ℕ) : checkContext env s = (.ok (), s + 1) := by
  rw [checkContext, hctx]
  rfl

variable (sha512) in
theorem fingerprintLoop_returns (hctx : ∀ n, env.ctxErr n = false) (keys digest : Bytes) (n s : ℕ) :
    ∃ r t, fingerprintLoop sha512 env keys n digest s = (.ok r, t) := by
  induction n generalizing digest s with
  | zero => exact ⟨digest, s, rfl⟩
  | succ n ih =>
    rw [fingerprintLoop]
    split_ifs
    · rw [bind_ok (checkContext_returns hctx s)]
      exact ih _ _
    · exact ih _ _

variable (sha512) in
theorem generateSecurityCodeFingerprint_returns (hctx : ∀ n, env.ctxErr n = false) (identifier keys : Bytes) (s : ℕ) :
    ∃ r t, generateSecurityCodeFingerprint sha512 env identifier keys s = (.ok r, t) := by
  rw [generateSecurityCodeFingerprint, bind_ok (checkContext_returns hctx s)]
  obtain ⟨digest, t, h⟩ := fingerprintLoop_returns sha512 hctx keys
    (sha512 ([0, 0] ++ keys ++ identifier)).1 securityCodeIterations (s + 1)
  exact ⟨_, _, bind_ok h⟩

variable {codes : IdentityVerificationCodes}

/-! ## Keys that are read -/

variable {d : JID}

theorem addressOf_device {d' : JID} (h : addressOf d = addressOf d') : d.device = d'.device := by
  have haddress := SignalAddress.string_injective h
  exact UInt16.toUInt32_inj.1 (congrArg SignalAddress.deviceID haddress)

variable {devices : List JID}

/-- nothing is dropped from a list with different device numbers -/
theorem uniqueDevices_eq {seen : List Bytes} (hnodup : (devices.map JID.device).Nodup)
    (hseen : ∀ d ∈ devices, addressOf d ∉ seen) : uniqueDevices seen devices = devices := by
  induction devices generalizing seen with
  | nil => rfl
  | cons d ds ih =>
    rw [map_cons, nodup_cons] at hnodup
    rw [uniqueDevices, if_neg (hseen d mem_cons_self), ih hnodup.2]
    intro d' hd' hmem
    rcases mem_cons.1 hmem with heq | hmem
    · exact hnodup.1 (mem_map.2 ⟨d', hd', addressOf_device heq⟩)
    · exact hseen d' (mem_cons_of_mem d hd') hmem

/-- every address has the key `K` gives it, wherever it comes from -/
structure KnowsKeys (env : Env) (K : Bytes → Key) : Prop where
  stored : ∀ addresses m, env.getManyIdentities addresses = some m → ∀ a k, m a = some k → k = K a
  fetched : ∀ devices responses, env.fetchPreKeys devices = some responses → ∀ d k, responses d = some (some k) →
    k = K (addressOf d)

/-- the keys of devices -/
def keysOf (K : Bytes → Key) (devices : List JID) : List Key := devices.map fun d => K (addressOf d)

theorem fetchedKey_ok {responses : JID → Option (Option Key)} {r : Bytes × Key}
    (h : fetchedKey env responses d = .ok r) : r.1 = addressOf d ∧ responses d = some (some r.2) := by
  unfold fetchedKey at h
  rcases hr : responses d with _ | _ | key
  · simp [hr] at h
  · simp [hr] at h
  · rcases he : env.ensureIdentity (addressOf d) key with _ | _ | _
    · simp [hr, he] at h
    · simp [hr, he] at h
    · simp only [hr, he, Except.ok.injEq] at h
      rw [← h]
      exact ⟨rfl, rfl⟩

variable {K : Bytes → Key}

theorem fetchMissing_ok (hK : KnowsKeys env K) {missing : List JID} {fetched : List (Bytes × Key)}
    (h : fetchMissing env missing = .ok fetched) : ∀ r ∈ fetched, r.2 = K r.1 := by
  unfold fetchMissing at h
  split_ifs at h
  · cases h
    simp
  · rcases hf : env.fetchPreKeys missing with _ | responses
    · simp [hf] at h
    · rw [hf] at h
      intro r hr
      obtain ⟨d, -, hd⟩ := exists_of_mapM_ok h hr
      obtain ⟨hfst, hsnd⟩ := fetchedKey_ok hd
      rw [hfst]
      exact hK.fetched missing responses hf d r.2 hsnd

/-- the keys that are read are those of the addresses -/
theorem readIdentityKeys_ok (hK : KnowsKeys env K)
    (hnodup : (devices.map JID.device).Nodup) (h : readIdentityKeys env devices = .ok keys) : keys = keysOf K devices := by
  unfold readIdentityKeys at h
  rw [uniqueDevices_eq hnodup fun _ _ => not_mem_nil] at h
  split_ifs at h
  rcases hm : env.getManyIdentities (devices.map addressOf) with _ | stored
  · simp [hm] at h
  · simp only [hm] at h
    rcases hf : fetchMissing env (devices.filter fun d => (stored (addressOf d)).isNone) with e | fetched
    · rw [hf] at h
      cases h
    · rw [hf] at h
      refine eq_map_of_mapM_ok h fun d key hd => ?_
      rcases hl : fetched.lookup (addressOf d) with _ | key'
      · rw [hl, none_or] at hd
        rcases hs : stored (addressOf d) with _ | key'
        · simp [hs] at hd
        · rw [hs] at hd
          cases hd
          exact hK.stored _ stored hm _ key hs
      · rw [hl, some_or] at hd
        cases hd
        obtain ⟨l₁, l₂, heq, -⟩ := lookup_eq_some_iff.1 hl
        exact fetchMissing_ok hK hf (addressOf d, key) (heq ▸ mem_append_right _ mem_cons_self)

/-! ## Device lists -/

/-- the devices of a user, each of them once -/
structure DeviceList (user : Bytes) where
  devices : List JID
  ofUser : ∀ d ∈ devices, d.user = user ∧ (d.server = hiddenUserServer ∨ d.server = hostedLIDServer)
  once : (devices.map JID.device).Nodup

theorem DeviceList.isDeviceOf {user : Bytes} (l : DeviceList user) {lid : JID} (hd : d ∈ l.devices) :
    isDeviceOf lid d = decide (user = lid.user) := by
  obtain ⟨huser, hserver⟩ := l.ofUser d hd
  have : (decide (d.server = hiddenUserServer) || decide (d.server = hostedLIDServer)) = true := by simpa using hserver
  rw [SecurityCode.isDeviceOf, huser, this, Bool.and_true]

variable {own : JID}

/-- a client on the device `own`, which is told the two lists in any order -/
structure Sees (env : Env) (K : Bytes → Key) (own : JID) (ours theirs : List JID) (userID : JID) : Prop where
  lid : env.lid.user = own.user
  id : env.id.map JID.device = some own.device
  identityKey : env.identityKey = some (K (addressOf own))
  devices : ∀ l, env.getUserDevices [env.lid.toNonAD, userID.toNonAD] = some l → l.Perm (ours ++ theirs)
  keys : KnowsKeys env K

section

variable {userA userB : Bytes} (A : DeviceList userA) (B : DeviceList userB) {localLID remoteLID : JID} {n : UInt16}
  {devices : List JID}

theorem splitDevices_remote (hl : localLID.user = userA) (hr : remoteLID.user = userB) (hne : userA ≠ userB)
    (h : devices.Perm (A.devices ++ B.devices)) : (splitDevices env localLID remoteLID devices).2.Perm B.devices := by
  have hA : (A.devices.filter fun d => !isDeviceOf localLID d && isDeviceOf remoteLID d) = [] := by
    rw [filter_eq_nil_iff]
    intro d hd
    rw [A.isDeviceOf hd, hl, decide_eq_true rfl]
    simp
  have hB : (B.devices.filter fun d => !isDeviceOf localLID d && isDeviceOf remoteLID d) = B.devices := by
    rw [filter_eq_self]
    intro d hd
    rw [B.isDeviceOf hd, B.isDeviceOf hd, hl, hr, decide_eq_false hne.symm, decide_eq_true rfl]
    rfl
  have hperm := h.filter fun d => !isDeviceOf localLID d && isDeviceOf remoteLID d
  rw [filter_append, hA, hB, nil_append] at hperm
  exact hperm

end

/-! ## The codes of a client -/

variable {userID : JID}

/-! ## Clients that get their answers -/

/-- everything that the client asks for is there, and the two JIDs are LIDs -/
structure Answers (env : Env) (userID : JID) : Prop where
  context : ∀ n, env.ctxErr n = false
  localLID : env.lid.server = hiddenUserServer ∧ env.lid.user ≠ []
  remoteLID : userID.server = hiddenUserServer ∧ userID.user ≠ []
  devices : ∃ l, env.getUserDevices [env.lid.toNonAD, userID.toNonAD] = some l
  reader : env.isReader = true
  stored : ∀ addresses, ∃ m, env.getManyIdentities addresses = some m
  fetched : ∀ ds, ∃ responses, env.fetchPreKeys ds = some responses ∧
    ∀ d ∈ ds, ∃ k, responses d = some (some k) ∧ env.ensureIdentity (addressOf d) k = some true
  phone : (remotePhone env userID.toNonAD).isEmpty = true ∨ (remotePhone env userID.toNonAD).server = defaultUserServer
  marshal : ∀ x y, ∃ bytes, env.marshalCombinedFingerprint x y = some bytes

namespace Answers

variable {userID : JID}

theorem fetchMissing_returns (h : Answers env userID) (missing : List JID) :
    ∃ fetched, fetchMissing env missing = .ok fetched ∧ ∀ d ∈ missing, ∃ r ∈ fetched, r.1 = addressOf d := by
  unfold fetchMissing
  split_ifs with hlen
  · rw [length_eq_zero_iff.1 hlen]
    exact ⟨[], rfl, fun _ hd => absurd hd not_mem_nil⟩
  · obtain ⟨responses, hfetch, hkeys⟩ := h.fetched missing
    rw [hfetch]
    obtain ⟨fetched, hfetched⟩ := mapM_returns (f := fetchedKey env responses) (l := missing) fun d hd => by
      obtain ⟨k, hk, htrusted⟩ := hkeys d hd
      exact ⟨(addressOf d, k), by simp only [fetchedKey, hk, htrusted]⟩
    refine ⟨fetched, hfetched, fun d hd => ?_⟩
    obtain ⟨r, hr, hd'⟩ := mem_of_mapM_ok hfetched hd
    exact ⟨r, hr, (fetchedKey_ok hd').1⟩

theorem readIdentityKeys_returns (h : Answers env userID) (devices : List JID) :
    ∃ keys, readIdentityKeys env devices = .ok keys := by
  obtain ⟨stored, hstored⟩ := h.stored ((uniqueDevices [] devices).map addressOf)
  obtain ⟨fetched, hfetched, hall⟩ := h.fetchMissing_returns
    ((uniqueDevices [] devices).filter fun d => (stored (addressOf d)).isNone)
  simp only [readIdentityKeys, h.reader, hstored, hfetched]
  refine mapM_returns fun d hd => ?_
  rcases hs : stored (addressOf d) with _ | key
  · -- it was missing, so it was fetched
    obtain ⟨r, hr, hfst⟩ := hall d (mem_filter.2 ⟨hd, by rw [hs]; rfl⟩)
    rcases hl : fetched.lookup (addressOf d) with _ | key
    · have hnot := lookup_eq_none_iff.1 hl r hr
      simp [hfst] at hnot
    · exact ⟨key, rfl⟩
  · rcases fetched.lookup (addressOf d) with _ | key'
    · exact ⟨key, rfl⟩
    · exact ⟨key', rfl⟩

variable (sha512) in
theorem generateNumericSecurityCode_returns (h : Answers env userID) (x y : Bytes) (ours theirs : List Key) (s : ℕ) :
    ∃ code t, generateNumericSecurityCode sha512 env x ours y theirs s = (.ok code, t) := by
  obtain ⟨a, s₁, ha⟩ := generateSecurityCodeFingerprint_returns sha512 h.context x
    (serializeIdentityKeys ours) s
  obtain ⟨b, s₂, hb⟩ := generateSecurityCodeFingerprint_returns sha512 h.context y
    (serializeIdentityKeys theirs) s₁
  rw [generateNumericSecurityCode, bind_ok ha, bind_ok hb]
  exact ⟨_, _, rfl⟩

theorem validate_ok {fingerprint : IdentityVerificationFingerprint}
    (hlid : fingerprint.lid.server = hiddenUserServer ∧ fingerprint.lid.user ≠ [])
    (hphone : fingerprint.phone.isEmpty = true ∨ fingerprint.phone.server = defaultUserServer)
    (hkeys : fingerprint.keys ≠ []) : validateIdentityVerificationFingerprint fingerprint = .ok () := by
  rw [validateIdentityVerificationFingerprint, if_neg (by simp [hlid]), if_neg, if_neg (by simpa using hkeys)]
  rintro ⟨hempty, hserver⟩
  rcases hphone with h | h
  · simp [h] at hempty
  · exact hserver h

theorem localPhone_ok (env : Env) : (localPhone env).isEmpty = true ∨ (localPhone env).server = defaultUserServer := by
  unfold localPhone
  cases env.id with
  | none => exact .inl rfl
  | some id =>
    by_cases hid : id.server = defaultUserServer
    · right
      simp only [hid, if_true]
      exact hid
    · left
      simp only [hid, if_false]
      rfl

theorem newIdentityVerificationCodes_returns (h : Answers env userID) {ours theirs : IdentityVerificationFingerprint}
    (hours : validateIdentityVerificationFingerprint ours = .ok ())
    (htheirs : validateIdentityVerificationFingerprint theirs = .ok ()) (s : ℕ) :
    ∃ codes t, newIdentityVerificationCodes sha512 env ours theirs s = (.ok codes, t) := by
  obtain ⟨code, t, hcode⟩ := h.generateNumericSecurityCode_returns sha512 ours.lid.user theirs.lid.user
    ours.keys theirs.keys s
  obtain ⟨display, hdisplay⟩ := h.marshal (buildFingerprintData sha512 ours false) (buildFingerprintData sha512 theirs false)
  obtain ⟨verify, hverify⟩ := h.marshal (buildFingerprintData sha512 ours true) (buildFingerprintData sha512 theirs true)
  have hqr : buildIdentityVerificationQRCodes sha512 env ours theirs = .ok (display, verify) := by
    simp only [buildIdentityVerificationQRCodes, hours, htheirs, hdisplay, hverify]
    rfl
  rw [newIdentityVerificationCodes, bind_ok hcode, hqr]
  exact ⟨_, _, rfl⟩

end Answers

/-- a client that gets its answers computes a code -/
theorem getIdentityVerificationCodes_returns {userA userB : Bytes} (A : DeviceList userA)
    (B : DeviceList userB) (hown : own ∈ A.devices) (hB : B.devices ≠ []) (huser : userID.user = userB)
    (hne : userA ≠ userB) (hsees : Sees env K own A.devices B.devices userID) (h : Answers env userID) (s : ℕ) :
    ∃ codes t, getIdentityVerificationCodes sha512 env userID s = (.ok codes, t) := by
  obtain ⟨devices, hdevices⟩ := h.devices
  have hl : env.lid.toNonAD.user = userA := hsees.lid.trans (A.ofUser own hown).1
  have hr : userID.toNonAD.user = userB := huser
  have hrest : (splitDevices env env.lid.toNonAD userID.toNonAD devices).2.Perm B.devices :=
    splitDevices_remote A B hl hr hne (hsees.devices devices hdevices)
  have hremote : (splitDevices env env.lid.toNonAD userID.toNonAD devices).2 ≠ [] := by
    intro hnil
    rw [hnil] at hrest
    exact hB hrest.symm.eq_nil
  obtain ⟨ours, hours⟩ := h.readIdentityKeys_returns (splitDevices env env.lid.toNonAD userID.toNonAD devices).1
  obtain ⟨theirs, htheirs⟩ := h.readIdentityKeys_returns (splitDevices env env.lid.toNonAD userID.toNonAD devices).2
  have hkeys : theirs ≠ [] := by
    rw [readIdentityKeys_ok hsees.keys ((hrest.map JID.device).nodup_iff.2 B.once) htheirs]
    exact fun hnil => hremote (map_eq_nil_iff.1 hnil)
  have hself : ¬ env.lid.toNonAD = userID.toNonAD := fun heq => hne (hl.symm.trans ((congrArg JID.user heq).trans hr))
  rw [getIdentityVerificationCodes, codesForUser, if_neg (by simpa [JID.toNonAD] using h.remoteLID),
    if_neg (by simpa [JID.toNonAD] using h.localLID), if_neg hself]
  simp only [hsees.identityKey, hdevices, codesOfDevices, hours, htheirs, length_eq_zero_iff, hremote, if_false]
  exact h.newIdentityVerificationCodes_returns (Answers.validate_ok h.localLID (Answers.localPhone_ok env) (by simp))
    (Answers.validate_ok h.remoteLID h.phone hkeys) s

/-! ## Agreement -/

def zeroDigest : { d : Bytes // d.length = 64 } := ⟨List.replicate 64 0, length_replicate⟩

/-- a key for every address, made of its length -/
def lengthKey (address : Bytes) : Key := ⟨List.replicate 32 (UInt8.ofNat address.length), length_replicate⟩

/-- a client on a device, whose server and store know all keys; the list comes in the given order -/
def knowingEnv (own : JID) (devices : List JID) : Env where
  ctxErr _ := false
  lid := { own with server := hiddenUserServer }
  id := some { own with server := defaultUserServer }
  identityKey := some (lengthKey (addressOf own))
  getUserDevices _ := some devices
  isReader := true
  getManyIdentities _ := some fun a => if a.length < 5 then none else some (lengthKey a)
  fetchPreKeys _ := some fun d => some (some (lengthKey (addressOf d)))
  ensureIdentity _ _ := some true
  getPNForLID := none
  getUsername := none
  marshalCombinedFingerprint _ _ := some []

/-- a user with two devices, the second of them hosted -/
def twoDevices (user : Bytes) : DeviceList user where
  devices := [⟨user, 0, 0, 0, hiddenUserServer⟩, ⟨user, 0, 99, 0, hostedLIDServer⟩]
  ofUser := by simp
  once := by simp

end Hypermeow.Client.SecurityCode
