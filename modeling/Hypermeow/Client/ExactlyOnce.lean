/-
Exactly-once delivery through the decrypted-event buffer.

Results, for every sequence of deliveries and all fates, with plaintexts that are not empty:
- `inv_run`: the log agrees with the rows, and every entry of the log was legal when it was made.
- `buffer_exactly_once`: a decryption is committed at most once for a hash; from then on until the clear every
  `bufferedDecrypt` returns that plaintext from the buffer and the handler is called with it again; after the clear every
  `bufferedDecrypt` answers that the event was processed, and the handler is never called for it.
-/
import Hypermeow.Client.EventBuffer

namespace Hypermeow.Client

open Lib Types Go List

variable {ρ : Type}

/-! ## The invariant -/

def Committed (log : List BufferEvent) (hash plaintext : Bytes) : Prop :=
  BufferEvent.decrypt hash (.committed plaintext) ∈ log

def Cleared (log : List BufferEvent) (hash : Bytes) : Prop := BufferEvent.cleared hash ∈ log

/-- what must have happened before an event -/
def LegalAfter (earlier : List BufferEvent) : BufferEvent → Prop
  | .decrypt _ .readFailed => True
  | .decrypt hash .alreadyProcessed => Cleared earlier hash
  | .decrypt hash (.buffered p) => Committed earlier hash p ∧ ¬ Cleared earlier hash
  | .decrypt hash (.committed _) => (∀ q, ¬ Committed earlier hash q) ∧ ¬ Cleared earlier hash
  | .decrypt hash .rolledBack => (∀ q, ¬ Committed earlier hash q) ∧ ¬ Cleared earlier hash
  | .handler (some hash) m _ => (∃ p v, Committed earlier hash p ∧ unpadMessage p v = some m) ∧ ¬ Cleared earlier hash
  | .handler none _ _ => True
  | .cleared hash => ∃ p, Committed earlier hash p

/-- every event of the log was legal after those before it -/
def Legal : List BufferEvent → Prop
  | [] => True
  | e :: earlier => LegalAfter earlier e ∧ Legal earlier

/-- what a row of the buffer says about its hash -/
def RowAgrees (log : List BufferEvent) (hash : Bytes) : Option (Option Bytes) → Prop
  | none => (∀ p, ¬ Committed log hash p) ∧ ¬ Cleared log hash
  | some (some p) => Committed log hash p ∧ ¬ Cleared log hash ∧ p ≠ []
  | some none => (∃ p, Committed log hash p) ∧ Cleared log hash

structure BufferInv (w : DecryptWorld ρ) : Prop where
  legal : Legal w.log
  rows : ∀ hash, RowAgrees w.log hash (w.db.eventBuffer hash)

/-! ## The log alone -/

variable {e : BufferEvent} {log : List BufferEvent} {hash p : Bytes}

theorem committed_cons : Committed (e :: log) hash p ↔ e = .decrypt hash (.committed p) ∨ Committed log hash p := by
  unfold Committed
  rw [mem_cons]
  constructor
  · rintro (h | h)
    · exact .inl h.symm
    · exact .inr h
  · rintro (h | h)
    · exact .inl h.symm
    · exact .inr h

theorem cleared_cons : Cleared (e :: log) hash ↔ e = .cleared hash ∨ Cleared log hash := by
  unfold Cleared
  rw [mem_cons, eq_comm]

/-- the plaintext of a hash is committed once -/
theorem Legal.unique (h : Legal log) {q : Bytes} (hp : Committed log hash p) (hq : Committed log hash q) : p = q := by
  induction log with
  | nil => cases hp
  | cons e log ih =>
    rcases committed_cons.1 hp with rfl | hp' <;> rcases committed_cons.1 hq with heq | hq'
    · cases heq
      rfl
    · exact absurd hq' (h.1.1 q)
    · subst heq
      exact absurd hp' (h.1.1 p)
    · exact ih h.2 hp' hq'

/-- does the event commit a decryption of the hash? -/
def isCommit (hash : Bytes) : BufferEvent → Bool
  | .decrypt h (.committed _) => h == hash
  | _ => false

theorem countP_eq_zero (h : ∀ p, ¬ Committed log hash p) : log.countP (isCommit hash) = 0 := by
  rw [List.countP_eq_zero]
  intro e he hc
  cases e with
  | decrypt h' c =>
    cases c with
    | committed p =>
      have : h' = hash := by simpa [isCommit] using hc
      subst this
      exact h p he
    | _ => cases hc
  | _ => cases hc

theorem Legal.countP_le_one (h : Legal log) (hash : Bytes) : log.countP (isCommit hash) ≤ 1 := by
  induction log with
  | nil => simp
  | cons e log ih =>
    rw [countP_cons]
    split_ifs with hc
    · cases e with
      | decrypt h' c =>
        cases c with
        | committed p =>
          have : h' = hash := by simpa [isCommit] using hc
          subst this
          rw [countP_eq_zero h.1.1]
        | _ => cases hc
      | _ => cases hc
    · exact ih h.2

theorem Legal.of_append {later earlier : List BufferEvent} (h : Legal (later ++ earlier)) : Legal earlier := by
  induction later with
  | nil => exact h
  | cons e later ih => exact ih h.2

/-! ## The invariant along the code -/

/-- does the event commit or clear the hash? -/
def Concerns (e : BufferEvent) (hash : Bytes) : Prop := (∃ p, e = .decrypt hash (.committed p)) ∨ e = .cleared hash

/-- the hash that the event commits or clears -/
def concerned : BufferEvent → Option Bytes
  | .decrypt hash (.committed _) => some hash
  | .cleared hash => some hash
  | _ => none

theorem Concerns.concerned_eq (h : Concerns e hash) : concerned e = some hash := by
  rcases h with ⟨p, rfl⟩ | rfl
  · rfl
  · rfl

theorem RowAgrees.cons {row : Option (Option Bytes)}
    (h : RowAgrees log hash row) (he : ¬ Concerns e hash) : RowAgrees (e :: log) hash row := by
  have hcom : ∀ p, Committed (e :: log) hash p ↔ Committed log hash p := by
    intro p
    rw [committed_cons]
    exact or_iff_right fun heq => he (.inl ⟨p, heq⟩)
  have hclr : Cleared (e :: log) hash ↔ Cleared log hash := by
    rw [cleared_cons]
    exact or_iff_right fun heq => he (.inr heq)
  rcases row with _ | _ | p
  · simpa only [RowAgrees, hcom, hclr] using h
  · simpa only [RowAgrees, hcom, hclr] using h
  · simpa only [RowAgrees, hcom, hclr] using h

theorem BufferInv.note {w : DecryptWorld ρ} (h : BufferInv w) (hl : LegalAfter w.log e)
    (he : concerned e = none) : BufferInv { w with log := e :: w.log } := by
  refine ⟨⟨hl, h.legal⟩, fun hash => (h.rows hash).cons fun hc => ?_⟩
  rw [hc.concerned_eq] at he
  cases he

/-- the Signal store is not part of the invariant -/
theorem BufferInv.signal {w : DecryptWorld ρ} (h : BufferInv w) (s : ρ) :
    BufferInv { w with db := { w.db with signal := s } } :=
  ⟨h.legal, h.rows⟩

/-- one row changes, with the event that says so -/
theorem BufferInv.set {w : DecryptWorld ρ} (h : BufferInv w) {row : Option (Option Bytes)} (s : ρ) (hl : LegalAfter w.log e) (hrow : RowAgrees (e :: w.log) hash row)
    (he : concerned e = some hash) :
    BufferInv ⟨⟨s, Function.update w.db.eventBuffer hash row⟩, e :: w.log⟩ := by
  refine ⟨⟨hl, h.legal⟩, ?_⟩
  intro k
  by_cases hk : k = hash
  · rw [hk]
    change RowAgrees _ hash (Function.update w.db.eventBuffer hash row hash)
    rw [Function.update_self]
    exact hrow
  · change RowAgrees _ k (Function.update w.db.eventBuffer hash row k)
    rw [Function.update_of_ne hk]
    exact (h.rows k).cons fun hc => hk (Option.some.inj (hc.concerned_eq.symm.trans he))

theorem BufferInv.commit {w : DecryptWorld ρ} (h : BufferInv w) (hrow : w.db.eventBuffer hash = none)
    (hp : p ≠ []) (s : ρ) :
    BufferInv ⟨⟨s, Function.update w.db.eventBuffer hash (some (some p))⟩,
      .decrypt hash (.committed p) :: w.log⟩ := by
  have habsent : RowAgrees w.log hash none := hrow ▸ h.rows hash
  refine h.set s habsent ⟨committed_cons.2 (.inl rfl), ?_, hp⟩ rfl
  intro hc
  rcases cleared_cons.1 hc with heq | hc
  · cases heq
  · exact habsent.2 hc

theorem BufferInv.clear {w : DecryptWorld ρ} (h : BufferInv w) (hrow : w.db.eventBuffer hash = some (some p)) :
    BufferInv ⟨w.db.clearBufferedEventPlaintext hash, .cleared hash :: w.log⟩ := by
  have hagrees : RowAgrees w.log hash (some (some p)) := hrow ▸ h.rows hash
  unfold EventDB.clearBufferedEventPlaintext
  rw [hrow]
  exact h.set w.db.signal ⟨p, hagrees.1⟩ ⟨⟨p, committed_cons.2 (.inr hagrees.1)⟩, cleared_cons.2 (.inl rfl)⟩ rfl

/-! ## The buffer -/

/-- a decryption that never gives an empty plaintext -/
def NonEmpty (decrypt : Decryption ρ) : Prop := ∀ s p s', decrypt s = (.ok p, s') → p ≠ []

theorem decryptAndPut_ok {decrypt : Decryption ρ} (hne : NonEmpty decrypt) {db db' : EventDB ρ}
    (h : decryptAndPut decrypt hash db = .ok (p, db')) :
    p ≠ [] ∧ ∃ s, db' = ⟨s, Function.update db.eventBuffer hash (some (some p))⟩ := by
  unfold decryptAndPut at h
  rcases hd : decrypt db.signal with ⟨e | q, s⟩ <;> simp only [hd] at h
  · cases h
  · unfold EventDB.putBufferedEvent at h
    cases hrow : db.eventBuffer hash with
    | some r =>
      simp only [hrow] at h
      cases h
    | none =>
      simp only [hrow] at h
      cases h
      exact ⟨hne db.signal p s hd, s, rfl⟩

section

variable {env : DecryptEnv ρ}

/-- the state in which a row holds the plaintext -/
def Holds (r : Bytes × Bytes) (w : DecryptWorld ρ) : Prop := BufferInv w ∧ w.db.eventBuffer r.2 = some (some r.1)

variable {p : Bytes}

theorem upholds_settle (s : ρ) (buffer : Bytes → Option (Option Bytes)) (hash : Bytes) (hp : p ≠ []) (effect : Bool) :
    Go.Upholds BufferInv (fun w => BufferInv w ∧ w.db.eventBuffer = buffer ∧ buffer hash = none)
      (settle hash p ⟨s, Function.update buffer hash (some (some p))⟩ effect)
      (fun _ w => BufferInv w ∧ (effect = true → w.db.eventBuffer hash = some (some p))) := by
  rintro w ⟨hi, rfl, hrow⟩
  cases effect with
  | true => exact ⟨hi.commit hrow hp s, fun _ => Function.update_self ..⟩
  | false =>
    have habsent : RowAgrees w.log hash none := hrow ▸ hi.rows hash
    exact ⟨hi.note habsent rfl, fun h => by cases h⟩

theorem upholds_doDecryptionTxn {decrypt : Decryption ρ} (hne : NonEmpty decrypt) (hash : Bytes) (fate : Fate) :
    Go.Upholds BufferInv (fun w => BufferInv w ∧ w.db.eventBuffer hash = none) (doDecryptionTxn decrypt hash fate)
      (fun p w => Holds (p, hash) w) := by
  rintro w ⟨hi, hrow⟩
  unfold doDecryptionTxn
  rw [get_bind]
  cases hd : decryptAndPut decrypt hash w.db with
  | error e =>
    have habsent : RowAgrees w.log hash none := hrow ▸ hi.rows hash
    exact hi.note habsent rfl
  | ok r =>
    obtain ⟨p, db⟩ := r
    obtain ⟨hp, s, rfl⟩ := decryptAndPut_ok hne hd
    have hsettle := upholds_settle s w.db.eventBuffer hash hp
    cases fate with
    | done =>
      have h : Go.Upholds BufferInv _ (settle hash p _ true >>= fun _ => pure p) fun p w => Holds (p, hash) w :=
        (hsettle true).bind fun _ _ h => ⟨h.1, h.2 rfl⟩
      exact h w ⟨hi, rfl, hrow⟩
    | fails effect => exact Go.Upholds.bind (hsettle effect) (fun _ _ h => h.1) w ⟨hi, rfl, hrow⟩
    | crash effect => exact Go.Upholds.bind (hsettle effect) (fun _ _ h => h.1) w ⟨hi, rfl, hrow⟩

/-- reading does not change the rows; a plaintext that is not empty is scanned as it is -/
theorem upholds_getBufferedEvent (hash : Bytes) (fate : Fate) :
    Go.Upholds BufferInv BufferInv (getBufferedEvent env hash fate)
      (fun row w => BufferInv w ∧ w.db.eventBuffer hash = row) := by
  intro w hi
  cases fate with
  | done =>
    refine ⟨hi, ?_⟩
    rcases hrow : w.db.eventBuffer hash with _ | _ | p
    · rfl
    · simp [DecryptEnv.scan]
    · have hagrees : RowAgrees w.log hash (some (some p)) := hrow ▸ hi.rows hash
      simp [DecryptEnv.scan, hagrees.2.2]
  | fails effect => exact hi.note trivial rfl
  | crash effect => exact hi

theorem upholds_bufferedDecrypt (henable : env.enableDecryptedEventBuffer = true) {decrypt : Decryption ρ}
    (hne : NonEmpty decrypt) (ciphertext : Bytes) (extra : List Bytes) (fates : Fates ρ) :
    Go.Upholds BufferInv BufferInv (bufferedDecrypt env ciphertext decrypt extra fates) Holds := by
  unfold bufferedDecrypt
  rw [if_neg (by simp [henable])]
  refine (upholds_getBufferedEvent _ fates.get).bind fun buf => ?_
  rcases buf with _ | _ | p
  · exact (upholds_doDecryptionTxn hne _ fates.txn).bind fun p w h => h
  · rintro w ⟨hi, hrow⟩
    have hagrees : RowAgrees w.log _ (some none) := hrow ▸ hi.rows _
    exact hi.note hagrees.2 rfl
  · rintro w ⟨hi, hrow⟩
    have hagrees : RowAgrees w.log _ (some (some p)) := hrow ▸ hi.rows _
    exact ⟨hi.note ⟨hagrees.1, hagrees.2.1⟩ rfl, hrow⟩

/-! ## Stanzas -/

/-- no message decrypts to nothing -/
structure PlaintextsNonEmpty (env : DecryptEnv ρ) : Prop where
  preKey : ∀ stateless sender content, NonEmpty (env.decryptPreKey stateless sender content)
  normal : ∀ sender content, NonEmpty (env.decryptNormal sender content)
  senderKey : ∀ chat sender content, NonEmpty (env.decryptSenderKey chat sender content)

theorem nonEmpty_autoTrusting {decrypt : Decryption ρ} (h : NonEmpty decrypt) (sender : JID) :
    NonEmpty (autoTrusting env sender decrypt) := by
  intro s p s' hs
  unfold autoTrusting at hs
  split at hs
  · split_ifs at hs
    · split at hs
      · cases hs
      · exact h _ p s' hs
    · cases hs
  · exact h s p s' hs

/-- what is known of a decrypted message: its plaintext is in the buffer, if it went through it -/
def Delivered (r : Bytes × Option Bytes) (w : DecryptWorld ρ) : Prop :=
  BufferInv w ∧ ∀ hash, r.2 = some hash →
    ∃ p v, w.db.eventBuffer hash = some (some p) ∧ unpadMessage p v = some r.1

theorem upholds_decryptContent (henable : env.enableDecryptedEventBuffer = true) (child : EncChild) (encType : Bytes)
    {decrypt : Bytes → Decryption ρ} (hne : ∀ content, NonEmpty (decrypt content)) (extra : List Bytes)
    (fates : Fates ρ) :
    Go.Upholds BufferInv BufferInv (decryptContent env child encType decrypt extra fates) Delivered := by
  unfold decryptContent
  split
  · exact .throw _
  · split_ifs
    · exact .throw _
    · refine (upholds_bufferedDecrypt henable (hne _) _ extra fates).bind fun r => ?_
      rintro w ⟨hi, hrow⟩
      cases hu : unpadMessage r.1 child.version with
      | none => exact hi
      | some m =>
        refine ⟨hi, ?_⟩
        intro hash heq
        cases heq
        exact ⟨r.1, child.version, hrow, hu⟩

variable {info : StanzaInfo} {child : EncChild}

theorem upholds_decryptEnc (henable : env.enableDecryptedEventBuffer = true) (hne : PlaintextsNonEmpty env) {fates : Fates ρ} {encType : Bytes}
    {x : Go (DecryptWorld ρ) DecryptError (Bytes × Option Bytes)}
    (hx : decryptEnc env info child fates encType = some x) : Go.Upholds BufferInv BufferInv x Delivered := by
  unfold decryptEnc at hx
  split_ifs at hx
  · cases hx
    unfold decryptDM
    split_ifs
    · exact upholds_decryptContent henable child _ (fun c => nonEmpty_autoTrusting (hne.preKey _ _ c) _) _ fates
    · exact upholds_decryptContent henable child _ (hne.normal _) _ fates
  · cases hx
    exact upholds_decryptContent henable child _ (hne.senderKey _ _) _ fates
  · cases hx
    unfold decryptBotMessage
    split
    · intro w hi
      exact ⟨hi, fun _ h => by cases h⟩
    · exact .throw _

/-- a handler call is legal while the row holds the plaintext, and leaves it there -/
theorem upholds_callHandler (hash : Option Bytes) (m : Bytes) (fates : Fates ρ) :
    Go.Upholds BufferInv (Delivered (m, hash)) (callHandler hash m fates) (fun _ w => Delivered (m, hash) w) := by
  rintro w ⟨hi, hrow⟩
  have hlegal : LegalAfter w.log (.handler hash m fates.handler) := by
    cases hash with
    | none => trivial
    | some hash =>
      obtain ⟨p, v, hp, hu⟩ := hrow hash rfl
      have hagrees : RowAgrees w.log hash (some (some p)) := hp ▸ hi.rows hash
      exact ⟨⟨p, v, hagrees.1, hu⟩, hagrees.2.1⟩
  have hnote : BufferInv { w with log := .handler hash m fates.handler :: w.log } := hi.note hlegal rfl
  have hi' := hnote.signal (fates.handlerEffect w.db.signal)
  unfold callHandler note
  rw [modify_bind, modify_bind]
  revert hi'
  cases fates.handler with
  | succeeds => exact fun hi' => ⟨hi', hrow⟩
  | fails => exact fun hi' => ⟨hi', hrow⟩
  | panics => exact fun hi' => ⟨hi', hrow⟩
  | crash => exact fun hi' => hi'

theorem upholds_settleClear (hash : Bytes) (effect : Bool) :
    Go.Upholds BufferInv (fun w : DecryptWorld ρ => BufferInv w ∧ ∃ p, w.db.eventBuffer hash = some (some p))
      (settleClear hash effect) (fun _ w => BufferInv w) := by
  rintro w ⟨hi, p, hrow⟩
  cases effect with
  | true => exact hi.clear hrow
  | false => exact hi

theorem upholds_clearBufferedEvent (hash : Bytes) (fate : Fate) :
    Go.Upholds BufferInv (fun w : DecryptWorld ρ => BufferInv w ∧ ∃ p, w.db.eventBuffer hash = some (some p))
      (clearBufferedEvent hash fate) (fun _ w => BufferInv w) := by
  cases fate with
  | done => exact (upholds_settleClear hash true).bind fun _ _ h => h
  | fails effect => exact (upholds_settleClear hash effect).bind fun _ _ h => h
  | crash effect => exact (upholds_settleClear hash effect).bind fun _ _ h => h

theorem upholds_afterHandler (hash : Option Bytes) (m : Bytes) (fates : Fates ρ) (failed : Bool) :
    Go.Upholds BufferInv (Delivered (m, hash)) (afterHandler env hash fates failed) (fun _ w => BufferInv w) := by
  unfold afterHandler
  cases failed with
  | true => exact fun w h => h.1
  | false =>
    cases hash with
    | none => exact fun w h => h.1
    | some hash =>
      by_cases he : env.enableDecryptedEventBuffer = true
      · simp only [he, if_true, Bool.false_eq_true, if_false]
        refine (upholds_clearBufferedEvent hash fates.clear).conseq ?_ fun _ _ h => h
        rintro w ⟨hi, hrow⟩
        obtain ⟨p, _, hp, _⟩ := hrow hash rfl
        exact ⟨hi, p, hp⟩
      · simp only [he, Bool.false_eq_true, if_false]
        exact fun w h => h.1

theorem upholds_handleMessage (child : EncChild) (fates : Fates ρ) (m : Bytes) (hash : Option Bytes) :
    Go.Upholds BufferInv (Delivered (m, hash)) (handleMessage env child fates m hash) (fun _ w => BufferInv w) := by
  have hcall : Go.Upholds BufferInv (Delivered (m, hash))
      (callHandler hash m fates >>= fun failed => afterHandler env hash fates failed) (fun _ w => BufferInv w) :=
    (upholds_callHandler hash m fates).bind fun failed => upholds_afterHandler hash m fates failed
  unfold handleMessage
  split_ifs
  · exact fun w h => h.1
  · exact hcall
  · exact upholds_afterHandler hash m fates false
  · exact hcall
  · exact upholds_afterHandler hash m fates false

section

variable (henable : env.enableDecryptedEventBuffer = true)
include henable

theorem upholds_decryptChild (hne : PlaintextsNonEmpty env) (info : StanzaInfo) (child : EncChild) (fates : Fates ρ) :
    Go.Upholds BufferInv BufferInv (decryptChild env info child fates) (fun _ w => BufferInv w) := by
  unfold decryptChild
  split_ifs
  · exact fun w h => h
  · split
    · exact fun w h => h
    · split
      · exact fun w h => h
      · rename_i x hx
        refine (upholds_decryptEnc henable hne hx).attempt.bind fun r => ?_
        cases r with
        | ok r => exact upholds_handleMessage child fates r.1 r.2
        | error e =>
          obtain ⟨n, hn⟩ : ∃ n, handleResult env child fates (.error e) = pure n := by
            cases e with
            | signal e => cases e <;> exact ⟨_, rfl⟩
            | _ => exact ⟨_, rfl⟩
          rw [hn]
          exact fun w hi => hi

theorem upholds_decryptMessages (hne : PlaintextsNonEmpty env)
    (info : StanzaInfo) (children : List (EncChild × Fates ρ)) :
    Go.Upholds BufferInv BufferInv (decryptMessages env info children) (fun _ w => BufferInv w) := by
  induction children with
  | nil => exact fun w h => h
  | cons c children ih =>
    refine (upholds_decryptChild henable hne info c.1 c.2).bind fun next => ?_
    cases next with
    | goOn => exact ih
    | stop => exact fun w h => h

theorem inv_deliver (hne : PlaintextsNonEmpty env)
    {w : DecryptWorld ρ} (h : BufferInv w) (d : Delivery ρ) : BufferInv (deliver env w d) := by
  unfold deliver
  split_ifs
  · exact (upholds_decryptMessages henable hne d.info d.children).inv (fun _ _ h => h) h
  · exact h

end

theorem inv_freshStore (s : ρ) : BufferInv (freshStore s) := by
  refine ⟨trivial, ?_⟩
  intro hash
  exact ⟨fun p hp => not_mem_nil hp, fun hc => not_mem_nil hc⟩

/-- **The log agrees with the rows** after every sequence of deliveries, with crashes anywhere. -/
theorem inv_run (henable : env.enableDecryptedEventBuffer = true) (hne : PlaintextsNonEmpty env) (s : ρ)
    (ds : List (Delivery ρ)) : BufferInv (run (deliver env) (freshStore s) ds) :=
  run_inv_all (I := BufferInv) (fun _ d h => inv_deliver henable hne h d) (inv_freshStore s) ds

/-! ## What a row means for the next call -/

variable {hash : Bytes}

theorem BufferInv.row_of_committed {w : DecryptWorld ρ} (h : BufferInv w)
    (hp : Committed w.log hash p) (hc : ¬ Cleared w.log hash) : w.db.eventBuffer hash = some (some p) ∧ p ≠ [] := by
  have hrow := h.rows hash
  rcases hr : w.db.eventBuffer hash with _ | _ | q <;> rw [hr] at hrow
  · exact absurd hp (hrow.1 p)
  · exact absurd hrow.2 hc
  · obtain rfl := h.legal.unique hp hrow.1
    exact ⟨rfl, hrow.2.2⟩

theorem BufferInv.row_of_cleared {w : DecryptWorld ρ} (h : BufferInv w) (hc : Cleared w.log hash) :
    w.db.eventBuffer hash = some none := by
  have hrow := h.rows hash
  rcases hr : w.db.eventBuffer hash with _ | _ | q <;> rw [hr] at hrow
  · exact absurd hc hrow.2
  · exact absurd hc hrow.2.1

section

variable (henable : env.enableDecryptedEventBuffer = true)
include henable

/-- the read went through: the row answers -/
theorem bufferedDecrypt_done {fates : Fates ρ}
    (hget : fates.get = .done) (ciphertext : Bytes) (decrypt : Decryption ρ) (extra : List Bytes) (w : DecryptWorld ρ) :
    bufferedDecrypt env ciphertext decrypt extra fates w =
      answer decrypt (bufferHash env ciphertext extra) fates.txn
        ((w.db.eventBuffer (bufferHash env ciphertext extra)).map env.scan) w := by
  unfold bufferedDecrypt getBufferedEvent
  rw [if_neg (by simp [henable]), hget]
  rfl

/-- with a row, the database stays as it is whatever happens to the call -/
theorem bufferedDecrypt_db (fates : Fates ρ) (ciphertext : Bytes)
    (decrypt : Decryption ρ) (extra : List Bytes) {w : DecryptWorld ρ}
    (hrow : (w.db.eventBuffer (bufferHash env ciphertext extra)).isSome) :
    (bufferedDecrypt env ciphertext decrypt extra fates w).2.db = w.db := by
  cases hget : fates.get with
  | done =>
    rw [bufferedDecrypt_done henable hget]
    obtain ⟨row, hrow⟩ := Option.isSome_iff_exists.1 hrow
    rw [hrow, Option.map_some]
    cases env.scan row with
    | none => rfl
    | some p => rfl
  | fails effect =>
    unfold bufferedDecrypt getBufferedEvent
    rw [if_neg (by simp [henable]), hget]
    rfl
  | crash effect =>
    unfold bufferedDecrypt getBufferedEvent
    rw [if_neg (by simp [henable]), hget]
    rfl

theorem bufferedDecrypt_of_plaintext {fates : Fates ρ}
    (hget : fates.get = .done) {ciphertext : Bytes} (decrypt : Decryption ρ) {extra : List Bytes}
    {w : DecryptWorld ρ} (hrow : w.db.eventBuffer (bufferHash env ciphertext extra) = some (some p)) (hp : p ≠ []) :
    bufferedDecrypt env ciphertext decrypt extra fates w =
      (.ok (p, bufferHash env ciphertext extra),
        { w with log := .decrypt (bufferHash env ciphertext extra) (.buffered p) :: w.log }) := by
  have hscan : env.scan (some p) = some p := by simp [DecryptEnv.scan, hp]
  rw [bufferedDecrypt_done henable hget, hrow, Option.map_some, hscan]
  rfl

theorem bufferedDecrypt_of_processed {fates : Fates ρ}
    (hget : fates.get = .done) {ciphertext : Bytes} (decrypt : Decryption ρ) {extra : List Bytes}
    {w : DecryptWorld ρ} (hrow : w.db.eventBuffer (bufferHash env ciphertext extra) = some none) :
    bufferedDecrypt env ciphertext decrypt extra fates w =
      (.err .alreadyProcessed,
        { w with log := .decrypt (bufferHash env ciphertext extra) .alreadyProcessed :: w.log }) := by
  have hscan : env.scan none = none := by simp [DecryptEnv.scan]
  rw [bufferedDecrypt_done henable hget, hrow, Option.map_some, hscan]
  rfl

end

/-- the hash under which a child of a stanza is looked up, if it gets that far -/
def childHash (env : DecryptEnv ρ) (info : StanzaInfo) (child : EncChild) : Option Bytes :=
  if child.tag ≠ ascii "enc" then none
  else
    match child.encType, child.content with
    | some encType, some content =>
      if env.parses encType content = false then none
      else if encType = ascii "pkmsg" then some (bufferHash env content [ascii "prekey", info.sender.string])
      else if encType = ascii "msg" then some (bufferHash env content [ascii "normal", info.sender.string])
      else if info.isGroup ∧ encType = ascii "skmsg" then
        some (bufferHash env content [ascii "senderkey", info.chat.string, info.sender.string])
      else none
    | _, _ => none

/-- such a child is decrypted through the buffer -/
theorem childHash_spec (fates : Fates ρ) (h : childHash env info child = some hash) :
    ∃ encType content decrypt extra, child.content = some content ∧ env.parses encType content = true ∧
      bufferHash env content extra = hash ∧
      decryptChild env info child fates =
        (Go.attempt (decryptContent env child encType decrypt extra fates) >>= handleResult env child fates) := by
  unfold childHash at h
  split_ifs at h with htag
  split at h
  · rename_i encType content hencType hcontent
    have hchild : ∀ x, decryptEnc env info child fates encType = some x →
        decryptChild env info child fates = (Go.attempt x >>= handleResult env child fates) := by
      intro x hx
      unfold decryptChild
      rw [if_neg htag]
      simp only [hencType, hx]
    cases hparse : env.parses encType content with
    | false =>
      rw [hparse] at h
      cases h
    | true =>
    rw [if_neg (by simp [hparse])] at h
    split_ifs at h with hpk hmsg hsk
    · subst hpk
      exact ⟨_, content, _, _, hcontent, hparse, Option.some.inj h, hchild _ rfl⟩
    · subst hmsg
      exact ⟨_, content, _, _, hcontent, hparse, Option.some.inj h, hchild _ rfl⟩
    · have henc : decryptEnc env info child fates encType =
          some (decryptGroupMsg env child info.sender info.chat fates) := by
        unfold decryptEnc
        rw [if_neg (by tauto), if_pos hsk]
      rw [hsk.2] at hparse
      exact ⟨_, content, _, _, hcontent, hparse, Option.some.inj h, hchild _ henc⟩
  · cases h

/-- a message of this version that the handler is called with -/
def Decodes (env : DecryptEnv ρ) (version : ℕ) (m : Bytes) : Prop :=
  (version = 2 ∧ env.unmarshals m = true) ∨ (version = 3 ∧ env.decodesArmadillo m = true)

theorem handleMessage_of_decodes {m : Bytes} (h : Decodes env child.version m) (fates : Fates ρ) (hash : Option Bytes) :
    handleMessage env child fates m hash = (callHandler hash m fates >>= fun failed => afterHandler env hash fates failed) := by
  unfold handleMessage
  rcases h with ⟨hv, hm⟩ | ⟨hv, hm⟩
  · rw [if_pos hv, if_neg (by simp [hm])]
  · rw [if_neg (by omega), if_pos hv, if_neg (by simp [hm])]

/-- the log only grows -/
theorem suffix_afterHandler (hash : Option Bytes) (fates : Fates ρ) (failed : Bool) (w : DecryptWorld ρ) :
    w.log <:+ (afterHandler env hash fates failed w).2.log := by
  have hclear : ∀ h fate, w.log <:+ (clearBufferedEvent h fate w).2.log := by
    intro h fate
    rcases fate with _ | (_ | _) | (_ | _)
    · exact suffix_cons _ _
    · exact suffix_rfl
    · exact suffix_cons _ _
    · exact suffix_rfl
    · exact suffix_cons _ _
  unfold afterHandler
  split_ifs
  · exact suffix_rfl
  · cases hash with
    | none => exact suffix_rfl
    | some h => exact hclear h fates.clear
  · cases hash <;> exact suffix_rfl

theorem callHandler_log (hash : Option Bytes) (m : Bytes) (fates : Fates ρ) (w : DecryptWorld ρ) :
    (callHandler hash m fates w).2.log = .handler hash m fates.handler :: w.log := by
  unfold callHandler note
  rw [modify_bind, modify_bind]
  cases fates.handler <;> rfl

/-- a child whose plaintext is in the buffer goes to the handler with it -/
theorem decryptChild_of_plaintext (henable : env.enableDecryptedEventBuffer = true) {m : Bytes} (hchild : childHash env info child = some hash) {fates : Fates ρ}
    (hget : fates.get = .done) {w : DecryptWorld ρ} (hrow : w.db.eventBuffer hash = some (some p)) (hp : p ≠ [])
    (hm : unpadMessage p child.version = some m) (hdec : Decodes env child.version m) :
    .handler (some hash) m fates.handler :: .decrypt hash (.buffered p) :: w.log <:+
      (decryptChild env info child fates w).2.log := by
  obtain ⟨encType, content, decrypt, extra, hcontent, hparse, rfl, heq⟩ := childHash_spec fates hchild
  have hbuf := bufferedDecrypt_of_plaintext henable hget (decrypt content) hrow hp
  set w' : DecryptWorld ρ := { w with log := .decrypt (bufferHash env content extra) (.buffered p) :: w.log }
  have hdecrypt : decryptContent env child encType decrypt extra fates w =
      (.ok (m, some (bufferHash env content extra)), w') := by
    unfold decryptContent
    rw [hcontent]
    change (if env.parses encType content = false then _ else _ : Go _ _ _) w = _
    rw [if_neg (by simp [hparse]), bind_ok hbuf, hm]
    rfl
  have hattempt : (Go.attempt (decryptContent env child encType decrypt extra fates) : Go _ Empty _) w =
      (.ok (.ok (m, some (bufferHash env content extra))), w') := by
    rw [Go.attempt, hdecrypt]
  rw [heq, bind_ok hattempt]
  change _ <:+ (handleMessage env child fates m (some (bufferHash env content extra)) _).2.log
  rw [handleMessage_of_decodes hdec]
  have hlog := callHandler_log (some (bufferHash env content extra)) m fates w'
  rw [bind_run]
  rcases hcall : callHandler (some (bufferHash env content extra)) m fates w' with ⟨failed | e | _, t⟩ <;>
    rw [hcall] at hlog
  · have hsuffix : t.log <:+ (afterHandler env (some (bufferHash env content extra)) fates failed t).2.log :=
      suffix_afterHandler _ fates failed t
    rwa [show t.log = _ from hlog] at hsuffix
  · cases e
  · rw [← show t.log = _ from hlog]

/-! ## Exactly once -/

/-- **The buffer delivers exactly once.** After every sequence of deliveries, with every fate of the database calls and
the handlers and crashes anywhere, for every hash:
- a decryption is committed at most once;
- in the log, between the commit of `p` and the clear, a call answers `p` from the buffer or fails to read it, and the
  handler is only called with what `p` unpads to; after the clear, a call answers that the event was processed or fails
  to read, and the handler is not called;
- between the commit and the clear, the next `bufferedDecrypt` leaves the database alone and, if it can read, returns
  `p`, so that a redelivered child that decodes goes to the handler again;
- after the clear, the next one leaves the database alone and, if it can read, answers `ErrEventAlreadyProcessed`. -/
theorem buffer_exactly_once (env : DecryptEnv ρ) (henable : env.enableDecryptedEventBuffer = true)
    (hne : PlaintextsNonEmpty env) (s : ρ) (ds : List (Delivery ρ)) (w : DecryptWorld ρ)
    (hw : w = run (deliver env) (freshStore s) ds) (hash : Bytes) :
    w.log.countP (isCommit hash) ≤ 1 ∧
    (∀ later e earlier, w.log = later ++ e :: earlier →
      (∀ p, Committed earlier hash p → ¬ Cleared earlier hash →
        (∀ c, e = .decrypt hash c → c = .buffered p ∨ c = .readFailed) ∧
        ∀ m o, e = .handler (some hash) m o → ∃ v, unpadMessage p v = some m) ∧
      (Cleared earlier hash →
        (∀ c, e = .decrypt hash c → c = .alreadyProcessed ∨ c = .readFailed) ∧ ∀ m o, e ≠ .handler (some hash) m o)) ∧
    (∀ p, Committed w.log hash p → ¬ Cleared w.log hash →
      (∀ ciphertext decrypt extra fates, bufferHash env ciphertext extra = hash →
        (bufferedDecrypt env ciphertext decrypt extra fates w).2.db = w.db ∧
        (fates.get = .done → (bufferedDecrypt env ciphertext decrypt extra fates w).1 = .ok (p, hash))) ∧
      ∀ info child fates m, childHash env info child = some hash → fates.get = .done →
        unpadMessage p child.version = some m → Decodes env child.version m →
        .handler (some hash) m fates.handler :: .decrypt hash (.buffered p) :: w.log <:+
          (decryptChild env info child fates w).2.log) ∧
    (Cleared w.log hash → ∀ ciphertext decrypt extra fates, bufferHash env ciphertext extra = hash →
      (bufferedDecrypt env ciphertext decrypt extra fates w).2.db = w.db ∧
      (fates.get = .done → (bufferedDecrypt env ciphertext decrypt extra fates w).1 = .err .alreadyProcessed)) := by
  have hi : BufferInv w := hw ▸ inv_run henable hne s ds
  refine ⟨hi.legal.countP_le_one hash, ?_, ?_, ?_⟩
  · intro later e earlier hlog
    have hlegal : Legal (e :: earlier) := (hlog ▸ hi.legal).of_append
    refine ⟨?_, ?_⟩
    · intro p hp hc
      refine ⟨?_, ?_⟩
      · rintro c rfl
        cases c with
        | readFailed => exact .inr rfl
        | alreadyProcessed => exact absurd hlegal.1 hc
        | buffered q => exact .inl (congrArg _ (hlegal.2.unique hlegal.1.1 hp))
        | committed q => exact absurd hp (hlegal.1.1 p)
        | rolledBack => exact absurd hp (hlegal.1.1 p)
      · rintro m o rfl
        obtain ⟨⟨q, v, hq, hm⟩, -⟩ := hlegal.1
        exact ⟨v, hlegal.2.unique hq hp ▸ hm⟩
    · intro hc
      refine ⟨?_, ?_⟩
      · rintro c rfl
        cases c with
        | readFailed => exact .inr rfl
        | alreadyProcessed => exact .inl rfl
        | buffered q => exact absurd hc hlegal.1.2
        | committed q => exact absurd hc hlegal.1.2
        | rolledBack => exact absurd hc hlegal.1.2
      · rintro m o rfl
        exact hlegal.1.2 hc
  · intro p hp hc
    obtain ⟨hrow, hpne⟩ := hi.row_of_committed hp hc
    refine ⟨?_, ?_⟩
    · rintro ciphertext decrypt extra fates rfl
      refine ⟨bufferedDecrypt_db henable fates ciphertext decrypt extra (by rw [hrow]; rfl), ?_⟩
      intro hget
      rw [bufferedDecrypt_of_plaintext henable hget decrypt hrow hpne]
    · intro info child fates m hchild hget hm hdec
      exact decryptChild_of_plaintext henable hchild hget hrow hpne hm hdec
  · rintro hc ciphertext decrypt extra fates rfl
    have hrow := hi.row_of_cleared hc
    refine ⟨bufferedDecrypt_db henable fates ciphertext decrypt extra (by rw [hrow]; rfl), ?_⟩
    intro hget
    rw [bufferedDecrypt_of_processed henable hget decrypt hrow]

end

/-! ## A message that is delivered three times -/

/-- one message can be decrypted, by moving the ratchet from 0 to 1 -/
def oneMessage (content : Bytes) : Decryption ℕ := fun ratchet =>
  if ratchet = 0 then (.ok (content ++ [1]), 1) else (.error .oldCounter, ratchet)

def oneMessageEnv : DecryptEnv ℕ where
  enableDecryptedEventBuffer := true
  autoTrustIdentity := false
  sha256 := id
  parses := fun _ _ => true
  decryptPreKey := fun _ _ content => oneMessage content
  decryptNormal := fun _ content => oneMessage content
  decryptSenderKey := fun _ _ content => oneMessage content
  clearUntrustedIdentity := fun _ ratchet => (.ok (), ratchet)
  unmarshals := fun _ => true
  decodesArmadillo := fun _ => true
  emptyAsNil := true

theorem plaintextsNonEmpty_oneMessageEnv : PlaintextsNonEmpty oneMessageEnv := by
  have h : ∀ content, NonEmpty (oneMessage content) := by
    intro content s p s' hs
    unfold oneMessage at hs
    split_ifs at hs
    · obtain ⟨hp, -⟩ := Prod.mk.inj hs
      cases hp
      simp
    · cases hs
  exact ⟨fun _ _ => h, fun _ => h, fun _ _ => h⟩

/-- a delivery of the message `hi`, with this fate of the transaction and the handler -/
def hiDelivery (txn : Fate) (handler : HandlerFate) : Delivery ℕ where
  info := ⟨newJID (ascii "2") hiddenUserServer, newJID (ascii "2") hiddenUserServer, false, false⟩
  lidResolved := true
  children := [(⟨ascii "enc", some (ascii "msg"), some (ascii "hi"), 2, false⟩,
    ⟨.done, txn, handler, id, .done, none⟩)]

/-- the process dies after the commit, the handler fails, the handler succeeds, and the message comes once more -/
def hiDeliveries : List (Delivery ℕ) :=
  [hiDelivery (.crash true) .succeeds, hiDelivery .done .fails, hiDelivery .done .succeeds, hiDelivery .done .succeeds]

def hiHash : Bytes := ascii "hi" ++ [0] ++ ascii "normal" ++ [0] ++ ascii "2@lid" ++ [0, 0]

theorem buffer_exactly_once_hi :
    (run (deliver oneMessageEnv) (freshStore 0) hiDeliveries).log =
      [.decrypt hiHash .alreadyProcessed, .cleared hiHash, .handler (some hiHash) (ascii "hi") .succeeds,
        .decrypt hiHash (.buffered (ascii "hi" ++ [1])), .handler (some hiHash) (ascii "hi") .fails,
        .decrypt hiHash (.buffered (ascii "hi" ++ [1])), .decrypt hiHash (.committed (ascii "hi" ++ [1]))] ∧
    (run (deliver oneMessageEnv) (freshStore 0) hiDeliveries).log.countP (isCommit hiHash) ≤ 1 :=
  ⟨by decide +kernel,
    (buffer_exactly_once oneMessageEnv rfl plaintextsNonEmpty_oneMessageEnv 0 hiDeliveries _ rfl hiHash).1⟩

end Hypermeow.Client
