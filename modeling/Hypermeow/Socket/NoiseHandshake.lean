/-
The state of a Noise handshake (`socket/noisehandshake.go`, `util/gcmutil/gcm.go`), and two parties that take mirrored
steps.

A handshake keeps a hash of everything both sides have seen, a salt, a cipher and a counter. `Encrypt` and `Decrypt` use the
counter as nonce and the hash as associated data, and put the ciphertext into the hash; `MixIntoKey` derives a new salt and
key from a shared secret and starts the counter again.

Model: the methods on the state, whose cipher is its key (nil before `Start`). SHA-256, HKDF and AES-GCM are parameters; opening
undoes sealing under the same key, nonce and associated data. The counter is a `uint32` and wraps. A session is two
handshakes; each step is made on both sides, a message from either one to the other.

Results:
- `decrypt_err_keeps`: a failed `Decrypt` changes nothing but the counter.
-/
import Hypermeow.Lib.Runs
import Hypermeow.Util.CbcUtil
import Hypermeow.Socket.NoiseSocket

namespace Hypermeow.Socket

open Lib Util Go List

/-- code outside the repository -/
structure Primitives where
  sha256 : Bytes → { bs : Bytes // bs.length = 32 }
  /-- the first 64 bytes of HKDF-SHA-256 without info -/
  hkdf : (data salt : Bytes) → { bs : Bytes // bs.length = 64 }
  sealWith : (key iv plaintext additionalData : Bytes) → Bytes
  openWith : (key iv ciphertext additionalData : Bytes) → Option Bytes
  open_seal : ∀ key iv plaintext additionalData,
    openWith key iv (sealWith key iv plaintext additionalData) additionalData = some plaintext

structure NoiseHandshake where
  hash : Bytes
  salt : Bytes
  /-- the key of the cipher; `none` is the nil interface -/
  key : Option Bytes
  counter : UInt32
deriving DecidableEq, Repr

inductive HandshakeError where
  /-- `aes.NewCipher` does not take a key of this size -/
  | keySize (n : ℕ)
  /-- `Open`: "message authentication failed" -/
  | authenticationFailed
deriving DecidableEq, Repr

/-- a method of `NoiseHandshake` -/
abbrev Hs := Go NoiseHandshake HandshakeError

namespace NoiseHandshake

def newNoiseHandshake : NoiseHandshake := ⟨[], [], none, 0⟩

variable (P : Primitives)

def authenticate (data : Bytes) : Hs Unit := Go.modify fun nh => { nh with hash := (P.sha256 (nh.hash ++ data)).1 }

/-- `gcmutil.Prepare`: the cipher, which is determined by its key -/
def prepare (secretKey : Bytes) : Hs Bytes :=
  if secretKey.length ∉ aesKeySizes then Go.throw (.keySize secretKey.length) else pure secretKey

/-- the initial hash: the pattern itself if it has the length of a hash -/
def initialHash (pattern : Bytes) : Bytes := if pattern.length = 32 then pattern else (P.sha256 pattern).1

/-- an error of `Prepare` is a panic -/
def start (pattern header : Bytes) : Hs Unit := do
  Go.modify fun nh => { nh with hash := initialHash P pattern, salt := initialHash P pattern }
  let res ← Go.attempt (prepare (initialHash P pattern))
  match res with
  | .error _ => Go.crash
  | .ok key => do
    Go.modify fun nh => { nh with key := some key }
    authenticate P header

/-- `AddUint32`, then one less -/
def postIncrementCounter : Hs UInt32 := do
  Go.modify fun nh => { nh with counter := nh.counter + 1 }
  let nh ← Go.get
  pure (nh.counter - 1)

/-- the cipher; a method of the nil interface panics -/
def cipher : Hs Bytes := do
  let nh ← Go.get
  match nh.key with
  | none => Go.crash
  | some key => pure key

def encrypt (plaintext : Bytes) : Hs Bytes := do
  let key ← cipher
  let count ← postIncrementCounter
  let nh ← Go.get
  let ciphertext := P.sealWith key (generateIV count) plaintext nh.hash
  authenticate P ciphertext
  pure ciphertext

def decrypt (ciphertext : Bytes) : Hs Bytes := do
  let key ← cipher
  let count ← postIncrementCounter
  let nh ← Go.get
  match P.openWith key (generateIV count) ciphertext nh.hash with
  | none => Go.throw .authenticationFailed
  | some plaintext => do
    authenticate P ciphertext
    pure plaintext

def extractAndExpand (salt data : Bytes) : Bytes × Bytes :=
  let h := (P.hkdf data salt).1
  (h.take 32, (h.drop 32).take 32)

def mixIntoKey (data : Bytes) : Hs Unit := do
  Go.modify fun nh => { nh with counter := 0 }
  let nh ← Go.get
  let (write, read) := extractAndExpand P nh.salt data
  Go.modify fun nh => { nh with salt := write }
  let key ← prepare read
  Go.modify fun nh => { nh with key := some key }

/-! ## What the methods do -/

variable {P} {nh nh' : NoiseHandshake} {key : Bytes}

theorem length_initialHash (pattern : Bytes) : (initialHash P pattern).length = 32 := by
  unfold initialHash
  split_ifs with h
  · exact h
  · exact (P.sha256 pattern).2

theorem prepare_run {secretKey : Bytes} (h : secretKey.length = 32) (nh : NoiseHandshake) :
    prepare secretKey nh = (.ok secretKey, nh) := by
  rw [prepare, if_neg (by rw [h]; decide)]
  rfl

theorem start_run (pattern header : Bytes) (nh : NoiseHandshake) :
    start P pattern header nh = (.ok (), { nh with
      hash := (P.sha256 (initialHash P pattern ++ header)).1, salt := initialHash P pattern,
      key := some (initialHash P pattern) }) := by
  have hprep : ∀ nh, ((prepare (initialHash P pattern)).attempt : Hs _) nh = (.ok (.ok (initialHash P pattern)), nh) :=
    fun nh => attempt_eq_ok.2 (prepare_run (length_initialHash pattern) nh)
  rw [start, modify_bind, bind_ok (hprep _)]
  rfl

theorem cipher_run (hk : nh.key = some key) : cipher nh = (.ok key, nh) := by
  rw [cipher, get_bind]
  simp only [hk]
  rfl

theorem postIncrementCounter_run (nh : NoiseHandshake) :
    postIncrementCounter nh = (.ok nh.counter, { nh with counter := nh.counter + 1 }) := by
  rw [postIncrementCounter, modify_bind, get_bind, pure_run]
  simp

/-- the ciphertext under the present key, counter and hash -/
def sealed (P : Primitives) (key : Bytes) (nh : NoiseHandshake) (plaintext : Bytes) : Bytes :=
  P.sealWith key (generateIV nh.counter) plaintext nh.hash

/-- the state after a message -/
def exchanged (P : Primitives) (nh : NoiseHandshake) (ciphertext : Bytes) : NoiseHandshake :=
  { nh with hash := (P.sha256 (nh.hash ++ ciphertext)).1, counter := nh.counter + 1 }

theorem encrypt_run (hk : nh.key = some key) (plaintext : Bytes) :
    encrypt P plaintext nh = (.ok (sealed P key nh plaintext), exchanged P nh (sealed P key nh plaintext)) := by
  rw [encrypt, bind_ok (cipher_run hk), bind_ok (postIncrementCounter_run nh), get_bind]
  rfl

/-- a message that was encrypted in the same state is decrypted -/
theorem decrypt_run (hk : nh.key = some key) (plaintext : Bytes) :
    decrypt P (sealed P key nh plaintext) nh = (.ok plaintext, exchanged P nh (sealed P key nh plaintext)) := by
  rw [decrypt, bind_ok (cipher_run hk), bind_ok (postIncrementCounter_run nh), get_bind]
  simp only [sealed, P.open_seal]
  rfl

theorem mixIntoKey_run (data : Bytes) (nh : NoiseHandshake) :
    mixIntoKey P data nh = (.ok (), { nh with
      salt := (extractAndExpand P nh.salt data).1, key := some (extractAndExpand P nh.salt data).2, counter := 0 }) := by
  have hlen : (extractAndExpand P nh.salt data).2.length = 32 := by
    simp [extractAndExpand, (P.hkdf data nh.salt).2]
  rw [mixIntoKey, modify_bind, get_bind]
  simp only
  rw [modify_bind, bind_ok (prepare_run hlen _)]
  rfl

/-- a failed `Decrypt` changes nothing but the counter -/
theorem decrypt_err_keeps {ciphertext : Bytes} {e : HandshakeError}
    (h : decrypt P ciphertext nh = (.err e, nh')) : nh' = { nh with counter := nh.counter + 1 } := by
  cases hk : nh.key with
  | none =>
    rw [decrypt, cipher, bind_assoc, get_bind] at h
    simp only [hk] at h
    cases h
  | some key =>
    rw [decrypt, bind_ok (cipher_run hk), bind_ok (postIncrementCounter_run nh), get_bind] at h
    cases ho : P.openWith key (generateIV nh.counter) ciphertext nh.hash with
    | none =>
      simp only [ho] at h
      cases h
      rw [hk]
    | some plaintext =>
      simp only [ho] at h
      cases h

end NoiseHandshake

/-! ## Two parties -/

open NoiseHandshake

structure Session where
  first : NoiseHandshake
  second : NoiseHandshake
  /-- what was encrypted, with what the other side's `Decrypt` returned -/
  received : List (Bytes × Outcome HandshakeError Bytes)
  /-- the keys and counters of the `Encrypt` calls since the last `MixIntoKey` -/
  uses : List (Option Bytes × UInt32)
  /-- what the calls of `MixIntoKey` returned -/
  mixed : List (Outcome HandshakeError Unit)
deriving DecidableEq, Repr

inductive MirroredStep where
  | authenticate (data : Bytes)
  | mixIntoKey (data : Bytes)
  /-- one side encrypts, the other one decrypts -/
  | send (fromFirst : Bool) (plaintext : Bytes)
deriving DecidableEq, Repr

/-- a message from one handshake to the other: what `Decrypt` returns, and both states after it -/
def transmit (P : Primitives) (plaintext : Bytes) (sender receiver : NoiseHandshake) :
    Outcome HandshakeError Bytes × NoiseHandshake × NoiseHandshake :=
  match encrypt P plaintext sender with
  | (.ok ciphertext, sender') =>
    let r := decrypt P ciphertext receiver
    (r.1, sender', r.2)
  | (.err e, sender') => (.err e, sender', receiver)
  | (.panic, sender') => (.panic, sender', receiver)

def sessionStep (P : Primitives) (s : Session) : MirroredStep → Session
  | .authenticate data =>
    { s with first := (authenticate P data s.first).2, second := (authenticate P data s.second).2 }
  | .mixIntoKey data =>
    let r := mixIntoKey P data s.first
    let r' := mixIntoKey P data s.second
    { s with first := r.2, second := r'.2, uses := [], mixed := s.mixed ++ [r.1, r'.1] }
  | .send true plaintext =>
    let r := transmit P plaintext s.first s.second
    { s with first := r.2.1, second := r.2.2, received := s.received ++ [(plaintext, r.1)],
             uses := s.uses ++ [(s.first.key, s.first.counter)] }
  | .send false plaintext =>
    let r := transmit P plaintext s.second s.first
    { s with first := r.2.2, second := r.2.1, received := s.received ++ [(plaintext, r.1)],
             uses := s.uses ++ [(s.second.key, s.second.counter)] }

/-- two new handshakes, started with the same pattern and header -/
def startSession (P : Primitives) (pattern header : Bytes) : Session :=
  let nh := (start P pattern header newNoiseHandshake).2
  ⟨nh, nh, [], [], []⟩

/-- the keys and counters of `n` messages under one key -/
def usesOf (key : Option Bytes) (n : ℕ) : List (Option Bytes × UInt32) :=
  (List.range n).map fun i => (key, UInt32.ofNat i)

/-- both sides are in step -/
structure InStep (s : Session) : Prop where
  same : s.first = s.second
  ready : s.first.key ≠ none
  received : ∀ r ∈ s.received, r.2 = .ok r.1
  counter : s.first.counter = UInt32.ofNat s.uses.length
  uses : s.uses = usesOf s.first.key s.uses.length
  mixed : ∀ r ∈ s.mixed, r = .ok ()

variable {P : Primitives} {s : Session}

theorem inStep_start (pattern header : Bytes) : InStep (startSession P pattern header) := by
  rw [startSession, start_run]
  exact ⟨rfl, by simp, by simp, rfl, rfl, by simp⟩

theorem transmit_run {nh : NoiseHandshake} {key : Bytes} (hk : nh.key = some key) (plaintext : Bytes) :
    transmit P plaintext nh nh =
      (.ok plaintext, exchanged P nh (sealed P key nh plaintext), exchanged P nh (sealed P key nh plaintext)) := by
  rw [transmit, encrypt_run hk]
  simp only [decrypt_run hk]

theorem usesOf_succ (key : Option Bytes) (n : ℕ) : usesOf key (n + 1) = usesOf key n ++ [(key, UInt32.ofNat n)] := by
  simp [usesOf, range_succ]

/-- between equal handshakes the direction of a message makes no difference -/
theorem send_direction (h : InStep s) (plaintext : Bytes) :
    sessionStep P s (.send false plaintext) = sessionStep P s (.send true plaintext) := by
  obtain ⟨key, hkey⟩ := Option.ne_none_iff_exists'.1 h.ready
  have hrun := transmit_run (P := P) hkey plaintext
  rw [sessionStep, sessionStep, ← h.same, hrun]

theorem InStep.send (h : InStep s) (plaintext : Bytes) : InStep (sessionStep P s (.send true plaintext)) := by
  obtain ⟨key, hkey⟩ := Option.ne_none_iff_exists'.1 h.ready
  have hreceived : ∀ r ∈ s.received ++ [(plaintext, Outcome.ok plaintext)], r.2 = .ok r.1 := by
    intro r hr
    rcases mem_append.1 hr with hr | hr
    · exact h.received r hr
    · rw [mem_singleton.1 hr]
  have hcounter : s.first.counter + 1 = UInt32.ofNat (s.uses.length + 1) := by
    rw [h.counter, UInt32.ofNat_add]
    rfl
  have huses : s.uses ++ [(s.first.key, s.first.counter)] = usesOf s.first.key (s.uses.length + 1) := by
    rw [usesOf_succ, ← h.uses, h.counter]
  have hrun := transmit_run (P := P) hkey plaintext
  rw [sessionStep, ← h.same, hrun]
  refine ⟨rfl, h.ready, hreceived, ?_, ?_, h.mixed⟩
  · rw [length_append]
    exact hcounter
  · rw [length_append]
    exact huses

theorem InStep.step (h : InStep s) (a : MirroredStep) : InStep (sessionStep P s a) := by
  cases a with
  | authenticate data =>
    refine ⟨?_, h.ready, h.received, h.counter, h.uses, h.mixed⟩
    rw [sessionStep, h.same]
  | mixIntoKey data =>
    rw [sessionStep, mixIntoKey_run, mixIntoKey_run, h.same]
    refine ⟨rfl, by simp, h.received, rfl, rfl, ?_⟩
    intro r hr
    rcases mem_append.1 hr with hr | hr
    · exact h.mixed r hr
    · simpa using hr
  | send fromFirst plaintext =>
    cases fromFirst with
    | true => exact h.send plaintext
    | false =>
      rw [send_direction h]
      exact h.send plaintext

theorem inStep_run (pattern header : Bytes) (steps : List MirroredStep) :
    InStep (run (sessionStep P) (startSession P pattern header) steps) :=
  run_inv_all (fun _ a h => h.step a) (inStep_start pattern header) steps

theorem nodup_usesOf {key : Option Bytes} {n : ℕ} (h : n ≤ 2 ^ 32) : (usesOf key n).Nodup := by
  refine nodup_range.map_on ?_
  intro i hi j hj heq
  have hcount : UInt32.ofNat i = UInt32.ofNat j := congrArg Prod.snd heq
  have hnat := congrArg UInt32.toNat hcount
  rw [UInt32.toNat_ofNat', UInt32.toNat_ofNat', Nat.mod_eq_of_lt ((mem_range.1 hi).trans_le h),
    Nat.mod_eq_of_lt ((mem_range.1 hj).trans_le h)] at hnat
  exact hnat

/-- **Mirrored handshakes stay in step.** After any steps both sides have the same hash, salt, key and counter, every
`Decrypt` has returned what was encrypted, and as long as at most 2^32 messages were sent since the last `MixIntoKey`, no two
of them were sealed with the same key and counter. A `Decrypt` that fails, in any state, leaves hash, salt and key alone. -/
theorem mirrored_handshakes (P : Primitives) (pattern header : Bytes) (steps : List MirroredStep) :
    (let s := run (sessionStep P) (startSession P pattern header) steps
     s.first = s.second ∧ s.first.key ≠ none ∧ (∀ r ∈ s.received, r.2 = .ok r.1) ∧ (∀ r ∈ s.mixed, r = .ok ()) ∧
       (s.uses.length ≤ 2 ^ 32 → s.uses.Nodup)) ∧
    ∀ nh ciphertext e nh', decrypt P ciphertext nh = (.err e, nh') →
      nh'.hash = nh.hash ∧ nh'.salt = nh.salt ∧ nh'.key = nh.key := by
  have h := inStep_run (P := P) pattern header steps
  refine ⟨⟨h.same, h.ready, h.received, h.mixed, fun hlen => ?_⟩, fun nh ciphertext e nh' herr => ?_⟩
  · rw [h.uses]
    exact nodup_usesOf hlen
  · rw [decrypt_err_keeps herr]
    exact ⟨rfl, rfl, rfl⟩

theorem length_zeros32 : (List.replicate 32 (0 : UInt8)).length = 32 := rfl

theorem length_zeros64 : (List.replicate 64 (0 : UInt8)).length = 64 := rfl

/-- primitives to evaluate: a hash of zeros, a cipher that appends the associated data -/
def plainPrimitives : Primitives where
  sha256 _ := ⟨List.replicate 32 0, length_zeros32⟩
  hkdf _ _ := ⟨List.replicate 64 0, length_zeros64⟩
  sealWith _ _ plaintext additionalData := plaintext ++ additionalData
  openWith _ _ ciphertext additionalData :=
    if ciphertext.drop (ciphertext.length - additionalData.length) = additionalData then
      some (ciphertext.take (ciphertext.length - additionalData.length))
    else none
  open_seal _ _ plaintext additionalData := by simp

/-- a message each way, a new key between them, and a ciphertext that does not open -/
theorem mirrored_handshakes_two :
    (run (sessionStep plainPrimitives) (startSession plainPrimitives [1] [2])
      [.send true [7], .mixIntoKey [3], .send false [8]]).uses.Nodup ∧
    (decrypt plainPrimitives [1] ⟨[5], [6], some [7], 0⟩).2.hash = [5] := by
  have h := mirrored_handshakes plainPrimitives [1] [2] [.send true [7], .mixIntoKey [3], .send false [8]]
  refine ⟨h.1.2.2.2.2 (by decide), ?_⟩
  exact (h.2 ⟨[5], [6], some [7], 0⟩ [1] .authenticationFailed ⟨[5], [6], some [7], 1⟩ rfl).1

theorem uses_replicate (steps : ℕ) (fromFirst : Bool) (plaintext : Bytes) (s : Session) :
    (run (sessionStep P) s (List.replicate steps (.send fromFirst plaintext))).uses.length = s.uses.length + steps := by
  induction steps generalizing s with
  | zero => rfl
  | succ n ih =>
    rw [replicate_succ, run_cons, ih]
    cases fromFirst <;> simp [sessionStep] <;> omega

/-- **The counter wraps.** One message more than 2^32 without a new key: the last one is sealed with the key and counter of the
first. -/
theorem counter_wraps :
    let s := run (sessionStep plainPrimitives) (startSession plainPrimitives [1] [2])
      (List.replicate (2 ^ 32 + 1) (.send true [7]))
    ¬ s.uses.Nodup := by
  intro s hnodup
  have h : InStep s := inStep_run [1] [2] _
  have hlen : s.uses.length = 2 ^ 32 + 1 := by
    rw [uses_replicate]
    rfl
  rw [h.uses, hlen] at hnodup
  have hget : ∀ i < 2 ^ 32 + 1, (usesOf s.first.key (2 ^ 32 + 1))[i]? = some (s.first.key, UInt32.ofNat i) := by
    intro i hi
    rw [usesOf, getElem?_map, getElem?_range hi]
    rfl
  have hzero := hget 0 (by norm_num)
  have hlast := hget (2 ^ 32) (by norm_num)
  have hsame : (s.first.key, UInt32.ofNat (2 ^ 32)) = (s.first.key, UInt32.ofNat 0) := by
    rw [show UInt32.ofNat (2 ^ 32) = UInt32.ofNat 0 from rfl]
  rw [hsame] at hlast
  have := (getElem?_inj (by simp [usesOf]) hnodup).1 (hzero.trans hlast.symm)
  omega

end Hypermeow.Socket
