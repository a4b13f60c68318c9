/-
Does the remote path answer like the local one?

`decryptMessagesRemote` is a copy of the loop of `decryptMessages` for a client whose keys are kept by a remote store, and
is meant to send the same receipts and acknowledgements. Compared are the two loops on one stanza whose children have
corresponding outcomes (`Corresponds`): what the remote store reports about a payload is what decrypting it locally gives.

They differ in four ways:
- a bot's message secret (`msmsg`) is refused by the remote loop for every sender and without an event;
- content that is not a byte slice is a decryption failure locally and is skipped remotely;
- a message that was already processed leaves the failure flag of the local loop alone and clears that of the remote one;
- a payload of an unknown version changes the flag of the remote loop only.

Results:
- `already_delivered_clears_failure`: a stanza that is refused locally and gets a delivery receipt remotely.
-/
import Hypermeow.Client.Answers

namespace Hypermeow.Client.Answers

open Lib List

/-! ## Corresponding outcomes -/

/-- the local outcomes of a payload and what the remote store says about it; nothing corresponds to an unreached store -/
inductive Corresponds : Fate → Prop where
  | handled {f : Fate} : f.decrypt = .plaintext → f.decodes = true → f.handler = .succeeded →
      f.receive = .received false → Corresponds f
  | alreadyProcessed {f : Fate} : f.decrypt = .failed .alreadyProcessed → f.receive = .received true → Corresponds f
  | oldCounter {f : Fate} {c : Bool} : f.decrypt = .failed .oldCounter → f.receive = .decryptError .oldCounter c →
      Corresponds f
  | undecodable {f : Fate} {c : Bool} : f.decrypt = .plaintext → f.decodes = false →
      f.receive = .decryptError .undecodable c → Corresponds f
  | noSenderKey {f : Fate} : f.decrypt = .failed .noSenderKey → f.receive = .decryptError .noSenderKey false →
      Corresponds f
  | otherFailure {f : Fate} : f.decrypt = .failed .other → f.receive = .decryptError .other false → Corresponds f
  | cancelled {f : Fate} : f.decrypt = .failed .canceled → f.receive = .decryptError .other true → Corresponds f
  | unavailable {f : Fate} : f.receive = .unavailable → Corresponds f

/-- what the other side and the application see -/
def Act.isVisible : Act → Bool
  | .send _ _ => true
  | .undecryptable _ => true
  | _ => false

def visible (acts : List Act) : List Act := acts.filter Act.isVisible

/-! ## The condition -/

section Condition

variable (info : MessageInfo)

/-- what a child is for the loops -/
inductive Payload where
  | skipped
  | secret
  /-- a direct or a group message -/
  | attempted (type : EncType) (e : EncNode)
deriving DecidableEq, Repr

def payload : MessageChild → Payload
  | .enc e =>
    match e.type with
    | none => .skipped
    | some type =>
      if type = .msmsg then .secret
      else if type.isDirect || (decide (type = .skmsg) && info.isGroup) then .attempted type e
      else .skipped
  | _ => .skipped

/-- the ways in which the remote loop ends early -/
inductive RemoteStop where
  | secret
  | unavailable
  | cancelled
  | failed (isUnavailable : Bool) (decryptFail : Bytes)
deriving DecidableEq, Repr

/-- what stops the remote loop at a byte payload, if anything; `direct` says whether a direct message came before -/
def payloadStop (direct : Bool) (type : EncType) (e : EncNode) (f : Fate) : Option RemoteStop :=
  match f.receive with
  | .received _ => none
  | .decryptError .oldCounter _ => none
  | .decryptError .undecodable _ => none
  | .unavailable => some .unavailable
  | .decryptError failure canceled =>
    if f.ctxDone ∨ canceled then some .cancelled
    else some (.failed (decide (type = .skmsg) && !direct && decide (failure = .noSenderKey)) e.decryptFail)

/-- the first child that stops the remote loop -/
def firstStop : (direct : Bool) → List (MessageChild × Fate) → Option RemoteStop
  | _, [] => none
  | direct, (c, f) :: xs =>
    match payload info c with
    | .skipped => firstStop direct xs
    | .secret => some .secret
    | .attempted type e =>
      let direct := direct || type.isDirect
      if !e.bytes then firstStop direct xs
      else match payloadStop direct type e f with
        | some s => some s
        | none => firstStop direct xs

/-- the versions that `decryptMessages` decodes -/
def EncNode.isKnown (e : EncNode) : Bool := decide (e.version = 2) || decide (e.version = 3)

/-- the failure flag of the local loop after a payload that does not stop it -/
def localFailed (failed : Bool) (e : EncNode) (f : Fate) : Bool :=
  match f.receive with
  | .received alreadyDelivered => if alreadyDelivered || !e.isKnown then failed else false
  | .decryptError .undecodable _ => if e.isKnown then true else failed
  | _ => failed

/-- the failure flag of the remote loop after it -/
def remoteFailed (failed : Bool) (f : Fate) : Bool :=
  match f.receive with
  | .received _ => false
  | .decryptError .undecodable _ => true
  | _ => failed

/-- the local loop stopped at content that is no byte slice: the remote loop goes on and must come to the same answer -/
def StopsAlike (ctxDone : Bool) (decryptFail : Bytes) : Option RemoteStop → Prop
  | some .unavailable => True
  | some .cancelled => ctxDone = true
  | some (.failed isUnavailable mode) => ctxDone = false ∧ isUnavailable = false ∧ mode = decryptFail
  | some .secret => False
  | none => False

/-- none of the differences shows in the answer; `failed` and `undecodable` are the flags of the two loops -/
def SameAnswer : (direct failed undecodable : Bool) → List (MessageChild × Fate) → Prop
  | _, failed, undecodable, [] => failed = undecodable
  | direct, failed, undecodable, (c, f) :: xs =>
    match payload info c with
    | .skipped => SameAnswer direct failed undecodable xs
    | .secret => False
    | .attempted type e =>
      let direct := direct || type.isDirect
      if !e.bytes then StopsAlike f.ctxDone e.decryptFail (firstStop info direct xs)
      else match payloadStop direct type e f with
        | some _ => True
        | none => SameAnswer direct (localFailed failed e f) (remoteFailed undecodable f) xs

end Condition

/-! ## The bodies of the loops -/

section Bodies

variable {cli : Cli} {info : MessageInfo} {c : MessageChild} {f : Fate} {flags : Flags}

def MessageChild.isEnc : MessageChild → Bool
  | .enc _ => true
  | _ => false

/-- the flags after a child that is passed over -/
def Flags.past (flags : Flags) (c : MessageChild) : Flags :=
  { flags with recognizedStanza := flags.recognizedStanza || c.isEnc }

theorem bodies_skipped (h : payload info c = .skipped) :
    decryptChild cli info flags (c, f) = .goOn [] (flags.past c) ∧
      receiveChild cli info flags (c, f) = .goOn [] (flags.past c) := by
  cases c with
  | unavailable type => simp [decryptChild, receiveChild, Flags.past, MessageChild.isEnc]
  | other tag => simp [decryptChild, receiveChild, Flags.past, MessageChild.isEnc]
  | enc e =>
    cases ht : e.type with
    | none => simp [decryptChild, receiveChild, ht, Flags.past, MessageChild.isEnc]
    | some type =>
      rw [payload, ht] at h
      cases type <;> simp_all [decryptChild, receiveChild, decryptEnc, EncType.isDirect, Flags.past, MessageChild.isEnc]

theorem receiveChild_secret (h : payload info c = .secret) :
    receiveChild cli info flags (c, f) = .stop [backgroundIfAsyncAck cli (.ack nackMissingMessageSecret)] := by
  cases c with
  | unavailable type => cases h
  | other tag => cases h
  | enc e =>
    cases ht : e.type with
    | none => rw [payload, ht] at h; cases h
    | some type =>
      rw [payload, ht] at h
      simp only at h
      split_ifs at h with h₁
      simp only [receiveChild, ht, if_pos h₁]

variable {type : EncType} {e : EncNode}

/-- an attempted child is an enc node with its type -/
theorem payload_attempted (h : payload info c = .attempted type e) :
    c = .enc e ∧ e.type = some type ∧ type ≠ .msmsg ∧
      (type.isDirect || (decide (type = .skmsg) && info.isGroup)) = true := by
  cases c with
  | unavailable type => cases h
  | other tag => cases h
  | enc e' =>
    rw [payload] at h
    cases ht : e'.type with
    | none => rw [ht] at h; cases h
    | some type' =>
      rw [ht] at h
      simp only at h
      split_ifs at h with h₁ h₂
      cases h
      exact ⟨rfl, ht, h₁, h₂⟩

theorem decryptEnc_attempted (hs : cli.isShadow = false)
    (h : (type.isDirect || (decide (type = .skmsg) && info.isGroup)) = true) :
    decryptEnc cli info type e f = some (if e.bytes then f.decrypt else .failed .other) := by
  cases type <;> simp_all [decryptEnc, decryptDM, decryptGroupMsg, EncType.isDirect]

/-- the flags after the type was looked at -/
def Flags.seen (flags : Flags) (type : EncType) : Flags :=
  ⟨true, flags.failed, flags.containsDirectMsg || type.isDirect⟩

theorem decryptChild_attempted (hs : cli.isShadow = false) (h : payload info c = .attempted type e) :
    decryptChild cli info flags (c, f) =
      match (if e.bytes then f.decrypt else .failed .other : Decrypted) with
      | .plaintext => decodeAndHandle (flags.seen type) e f
      | .failed err => decryptFailed cli (flags.seen type) type e f err
      | .panics => .panic := by
  obtain ⟨rfl, ht, -, hok⟩ := payload_attempted h
  simp only [decryptChild, ht, decryptEnc_attempted hs hok, Flags.seen]
  cases (if e.bytes then f.decrypt else .failed .other : Decrypted) <;> rfl

/-- content that is no byte slice is skipped -/
theorem receiveChild_noBytes (h : payload info c = .attempted type e)
    (hb : e.bytes = false) : receiveChild cli info flags (c, f) = .goOn [] (flags.seen type) := by
  obtain ⟨rfl, ht, hms, hok⟩ := payload_attempted h
  simp only [receiveChild, ht, if_neg hms, hok, hb, Flags.seen]
  rfl

/-- what is visible of an early end of the remote loop -/
def RemoteStop.acts (cli : Cli) : RemoteStop → List Act
  | .secret => [backgroundIfAsyncAck cli (.ack nackMissingMessageSecret)]
  | .unavailable => []
  | .cancelled => []
  | .failed isUnavailable mode =>
    [.send (!cli.synchronousAck) (.retryReceipt isUnavailable), .send (!cli.synchronousAck) (.ack 0),
      .undecryptable ⟨isUnavailable, [], mode⟩]

theorem receiveChild_bytes (h : payload info c = .attempted type e) (hb : e.bytes = true) :
    match payloadStop (flags.seen type).containsDirectMsg type e f with
    | some s => ∃ acts, receiveChild cli info flags (c, f) = .stop acts ∧ visible acts = s.acts cli
    | none => ∃ acts, receiveChild cli info flags (c, f) =
        .goOn acts { flags.seen type with failed := remoteFailed flags.failed f } ∧ visible acts = [] := by
  obtain ⟨rfl, ht, hms, hok⟩ := payload_attempted h
  simp only [receiveChild, ht, if_neg hms, hok, hb, Flags.seen, payloadStop, remoteFailed, Bool.not_true,
    Bool.false_eq_true, if_false]
  rcases f.receive with already | ⟨failure, canceled⟩ | _
  · cases already <;> exact ⟨_, rfl, rfl⟩
  · cases failure with
    | oldCounter => exact ⟨_, rfl, rfl⟩
    | undecodable => exact ⟨_, rfl, rfl⟩
    | other =>
      simp only
      split_ifs <;> exact ⟨_, rfl, rfl⟩
    | noSenderKey =>
      simp only
      split_ifs <;> exact ⟨_, rfl, rfl⟩
  · exact ⟨_, rfl, rfl⟩

/-- content that is no byte slice fails to decrypt -/
theorem decryptChild_noBytes (hs : cli.isShadow = false) (h : payload info c = .attempted type e) (hb : e.bytes = false) :
    decryptChild cli info flags (c, f) =
      if f.ctxDone then .stop [.cancelled] else .stop (askForRetry cli false e) := by
  have hms := (payload_attempted h).2.2.1
  rw [decryptChild_attempted hs h, hb]
  simp [decryptFailed, giveUp, hms]

theorem decryptChild_bytes (hs : cli.isShadow = false)
    (h : payload info c = .attempted type e) (hb : e.bytes = true) (hc : Corresponds f) :
    match payloadStop (flags.seen type).containsDirectMsg type e f with
    | some s => s = .unavailable ∨ ∃ acts, decryptChild cli info flags (c, f) = .stop acts ∧ visible acts = s.acts cli
    | none => ∃ acts, decryptChild cli info flags (c, f) =
        .goOn acts { flags.seen type with failed := localFailed flags.failed e f } ∧ visible acts = [] := by
  have hms := (payload_attempted h).2.2.1
  rw [decryptChild_attempted hs h, hb, if_pos rfl]
  cases hc with
  | handled hd hdec hh hr =>
    simp only [hd, payloadStop, hr, localFailed, decodeAndHandle, hdec, handleDecrypted, hh, EncNode.isKnown]
    by_cases h2 : e.version = 2
    · simp [h2, visible, Act.isVisible]
    · by_cases h3 : e.version = 3
      · simp [h3, visible, Act.isVisible]
      · simp [h2, h3, visible, Flags.seen]
  | alreadyProcessed hd hr =>
    simp only [hd, payloadStop, hr, localFailed, decryptFailed]
    exact ⟨_, rfl, rfl⟩
  | oldCounter hd hr =>
    simp only [hd, payloadStop, hr, localFailed, decryptFailed]
    exact ⟨_, rfl, rfl⟩
  | undecodable hd hdec hr =>
    simp only [hd, payloadStop, hr, localFailed, decodeAndHandle, hdec, EncNode.isKnown]
    by_cases h2 : e.version = 2
    · simp [h2, visible]
    · by_cases h3 : e.version = 3
      · simp [h3, visible]
      · simp [h2, h3, visible, Flags.seen]
  | noSenderKey hd hr =>
    simp only [hd, payloadStop, hr, decryptFailed, giveUp, if_neg hms]
    cases f.ctxDone <;> exact .inr ⟨_, rfl, rfl⟩
  | otherFailure hd hr =>
    simp only [hd, payloadStop, hr, decryptFailed, giveUp, if_neg hms]
    cases f.ctxDone <;> exact .inr ⟨_, rfl, rfl⟩
  | cancelled hd hr =>
    simp only [hd, payloadStop, hr, decryptFailed, giveUp]
    cases f.ctxDone <;> exact .inr ⟨_, rfl, rfl⟩
  | unavailable hr =>
    simp only [payloadStop, hr]
    exact .inl trivial

end Bodies

/-! ## The loops -/

section Loops

variable (cli : Cli) (info : MessageInfo)

theorem visible_append (a b : List Act) : visible (a ++ b) = visible a ++ visible b := filter_append _ _

/-- an answer after the last child -/
theorem visible_finalAnswer (flags : Flags) : ∃ o, visible (finalAnswer cli flags) = [.send (!cli.synchronousAck) o] := by
  rw [finalAnswer]
  split_ifs <;> exact ⟨_, rfl⟩

/-- the remote loop shows its first stop, or one answer at the end -/
theorem visible_remote (flags : Flags) (xs : List (MessageChild × Fate)) :
    match firstStop info flags.containsDirectMsg xs with
    | some s => visible (recovered (loop (receiveChild cli info) (finalAnswer cli) flags xs)) = s.acts cli
    | none => ∃ o, visible (recovered (loop (receiveChild cli info) (finalAnswer cli) flags xs)) =
        [.send (!cli.synchronousAck) o] := by
  induction xs generalizing flags with
  | nil => exact visible_finalAnswer cli flags
  | cons x xs ih =>
    rcases x with ⟨c, f⟩
    rw [firstStop]
    cases hp : payload info c with
    | skipped =>
      rw [loop_goOn (bodies_skipped hp).2]
      exact ih (flags.past c)
    | secret =>
      rw [loop_stop (receiveChild_secret hp)]
      rfl
    | attempted type e =>
      simp only
      cases hb : e.bytes with
      | false =>
        rw [loop_goOn (receiveChild_noBytes hp hb)]
        exact ih (flags.seen type)
      | true =>
        have hbody := @receiveChild_bytes cli info c f flags type e hp hb
        simp only [Bool.not_true, Bool.false_eq_true, if_false]
        cases hs : payloadStop (flags.containsDirectMsg || type.isDirect) type e f with
        | some s =>
          simp only [Flags.seen, hs] at hbody
          obtain ⟨acts, hstop, hvis⟩ := hbody
          rw [loop_stop hstop]
          exact hvis
        | none =>
          simp only [Flags.seen, hs] at hbody
          obtain ⟨acts, hgo, hvis⟩ := hbody
          rw [loop_goOn hgo, visible_append, hvis, nil_append]
          exact ih { flags.seen type with failed := remoteFailed flags.failed f }

/-- the local loop refuses a secret only together with an event -/
def Explained (acts : List Act) : Prop :=
  ∀ b, Act.send b (.ack nackMissingMessageSecret) ∈ acts → acts.any Act.isUndecryptable = true

theorem explained_of_event {acts : List Act} (h : acts.any Act.isUndecryptable = true) : Explained acts := fun _ _ => h

theorem explained_of_none {acts : List Act} (h : ∀ b, Act.send b (.ack nackMissingMessageSecret) ∉ acts) :
    Explained acts := fun b hb => absurd hb (h b)

theorem Explained.append {a b : List Act} (ha : Explained a) (hb : Explained b) : Explained (a ++ b) := by
  intro bg hmem
  rw [any_append, Bool.or_eq_true]
  rcases mem_append.1 hmem with h | h
  · exact .inl (ha bg h)
  · exact .inr (hb bg h)

/-- what a round of the local loop does is explained -/
def Next.Explained : Next → Prop
  | .goOn acts _ => Answers.Explained acts
  | .stop acts => Answers.Explained acts
  | .panic => True

section

variable (flags : Flags)
include flags

theorem explained_decodeAndHandle (e : EncNode) (f : Fate) : (decodeAndHandle flags e f).Explained := by
  have hh : ∀ flags, (handleDecrypted flags f).Explained := by
    intro flags
    rw [handleDecrypted]
    cases f.handler with
    | succeeded => exact explained_of_none (by simp)
    | failed => exact explained_of_none (by simp)
    | panics => trivial
  rw [decodeAndHandle]
  split_ifs
  · exact hh _
  · exact explained_of_none (by simp)
  · exact hh _
  · exact explained_of_none (by simp)
  · exact explained_of_none (by simp)

theorem explained_giveUp (type : EncType) (e : EncNode) (f : Fate) (err : DecryptFailure) :
    (giveUp cli flags type e f err).Explained := by
  rw [giveUp]
  split_ifs
  · exact explained_of_none (by simp)
  · exact explained_of_event rfl
  · exact explained_of_event rfl

theorem explained_decryptFailed (type : EncType) (e : EncNode) (f : Fate) (err : DecryptFailure) :
    (decryptFailed cli flags type e f err).Explained := by
  cases err with
  | alreadyProcessed => exact explained_of_none (by simp)
  | oldCounter => exact explained_of_none (by simp)
  | shadowGroupUnsupported => exact explained_of_event rfl
  | noSenderKey => exact explained_giveUp cli flags type e f _
  | canceled => exact explained_giveUp cli flags type e f _
  | other => exact explained_giveUp cli flags type e f _

theorem explained_decryptChild (x : MessageChild × Fate) : (decryptChild cli info flags x).Explained := by
  rcases x with ⟨c, f⟩
  cases c with
  | unavailable type => exact explained_of_none (by simp)
  | other tag => exact explained_of_none (by simp)
  | enc e =>
    rw [decryptChild]
    cases e.type with
    | none => exact explained_of_none (by simp)
    | some type =>
      simp only
      rcases decryptEnc cli info type e f with _ | _ | err | _
      · exact explained_of_none (by simp)
      · exact explained_decodeAndHandle _ _ _
      · exact explained_decryptFailed _ _ _ _ _ _
      · trivial

theorem explained_loop (xs : List (MessageChild × Fate)) :
    Explained (recovered (loop (decryptChild cli info) (finalAnswer cli) flags xs)) := by
  induction xs generalizing flags with
  | nil =>
    refine explained_of_none fun b => ?_
    rw [loop, recovered, finalAnswer]
    split_ifs <;> simp [backgroundIfAsyncAck, nackMissingMessageSecret, nackUnrecognizedStanza, nackInvalidProtobuf]
  | cons x xs ih =>
    have hx := explained_decryptChild cli info flags x
    cases hb : decryptChild cli info flags x with
    | goOn acts flags' =>
      rw [hb] at hx
      rw [loop_goOn hb]
      exact Explained.append hx (ih flags')
    | stop acts =>
      rw [hb] at hx
      rw [loop_stop hb]
      exact hx
    | panic =>
      rw [loop_panic hb]
      exact explained_of_none (by simp [nackMissingMessageSecret])

/-- so the local loop never shows what the remote loop shows for a secret -/
theorem visible_ne_secret (xs : List (MessageChild × Fate)) :
    RemoteStop.secret.acts cli ≠ visible (recovered (loop (decryptChild cli info) (finalAnswer cli) flags xs)) := by
  intro heq
  have hmem : backgroundIfAsyncAck cli (.ack nackMissingMessageSecret) ∈
      visible (recovered (loop (decryptChild cli info) (finalAnswer cli) flags xs)) := by
    rw [← heq]
    exact mem_singleton_self _
  obtain ⟨a, ha, hu⟩ := any_eq_true.1 (explained_loop cli info flags xs _ (mem_filter.1 hmem).1)
  have hvis : a ∈ visible (recovered (loop (decryptChild cli info) (finalAnswer cli) flags xs)) := by
    refine mem_filter.2 ⟨ha, ?_⟩
    cases a <;> simp_all [Act.isUndecryptable, Act.isVisible]
  rw [← heq] at hvis
  rw [mem_singleton.1 hvis] at hu
  simp [backgroundIfAsyncAck, Act.isUndecryptable] at hu

/-- what the local loop shows for content that is no byte slice, against the stop of the remote loop -/
theorem stopsAlike_iff {e : EncNode} {f : Fate} {rest : List (MessageChild × Fate)} :
    (firstStop info flags.containsDirectMsg rest = some .unavailable ∨
      visible (recovered (loop (receiveChild cli info) (finalAnswer cli) flags rest)) =
        visible (if f.ctxDone then [.cancelled] else askForRetry cli false e)) ↔
      StopsAlike f.ctxDone e.decryptFail (firstStop info flags.containsDirectMsg rest) := by
  have hlocal : visible (if f.ctxDone then [.cancelled] else askForRetry cli false e) =
      if f.ctxDone then [] else askForRetry cli false e := by
    cases f.ctxDone <;> rfl
  have hvis := visible_remote cli info flags rest
  rw [hlocal]
  rcases hs : firstStop info flags.containsDirectMsg rest with _ | s
  · rw [hs] at hvis
    obtain ⟨o, ho⟩ := hvis
    rw [ho]
    refine iff_of_false ?_ id
    cases f.ctxDone <;> simp [askForRetry]
  · rw [hs] at hvis
    simp only at hvis
    rw [hvis]
    cases s with
    | unavailable => exact iff_of_true (.inl rfl) trivial
    | secret =>
      refine iff_of_false ?_ id
      cases f.ctxDone <;> simp [askForRetry, RemoteStop.acts]
    | cancelled => cases f.ctxDone <;> simp [askForRetry, RemoteStop.acts, StopsAlike]
    | failed isUnavailable mode => cases f.ctxDone <;> simp [askForRetry, RemoteStop.acts, StopsAlike]

end

end Loops

section Compare

variable {cli : Cli} {info : MessageInfo}

theorem finalAnswers_iff {r d fl fr : Bool} (hr : r = false → fl = fr) :
    visible (finalAnswer cli ⟨r, fr, d⟩) = visible (finalAnswer cli ⟨r, fl, d⟩) ↔ fl = fr := by
  cases r with
  | false => exact iff_of_true (by rw [hr rfl]) (hr rfl)
  | true =>
    have hvis : ∀ failed, visible (finalAnswer cli ⟨true, failed, d⟩) = finalAnswer cli ⟨true, failed, d⟩ := by
      intro failed
      cases failed <;> rfl
    rw [hvis, hvis]
    cases fl <;> cases fr <;> simp [finalAnswer, backgroundIfAsyncAck]

/-- the two loops from corresponding flags: the remote store is not reached or they show the same, exactly if the
differences do not matter -/
theorem sameAnswer_iff (hs : cli.isShadow = false) (xs : List (MessageChild × Fate)) (hc : ∀ x ∈ xs, Corresponds x.2)
    {r d fl fr : Bool} (hr : r = false → fl = fr) :
    (firstStop info d xs = some .unavailable ∨
      visible (recovered (loop (receiveChild cli info) (finalAnswer cli) ⟨r, fr, d⟩ xs)) =
        visible (recovered (loop (decryptChild cli info) (finalAnswer cli) ⟨r, fl, d⟩ xs))) ↔
      SameAnswer info d fl fr xs := by
  induction xs generalizing r d fl fr with
  | nil =>
    rw [firstStop, SameAnswer, ← @finalAnswers_iff cli r d fl fr hr]
    exact or_iff_right (by simp)
  | cons x xs ih =>
    rcases x with ⟨c, f⟩
    have hcs : ∀ x ∈ xs, Corresponds x.2 := fun x hx => hc x (mem_cons_of_mem _ hx)
    have hcf : Corresponds f := hc (c, f) mem_cons_self
    rw [firstStop, SameAnswer]
    cases hp : payload info c with
    | skipped =>
      rw [loop_goOn (bodies_skipped hp).1, loop_goOn (bodies_skipped hp).2]
      exact ih hcs fun h => hr (Bool.or_eq_false_iff.1 h).1
    | secret =>
      rw [loop_stop (receiveChild_secret hp)]
      refine iff_of_false ?_ id
      rintro (h | h)
      · cases h
      · exact visible_ne_secret cli info _ _ h
    | attempted type e =>
      simp only
      cases hb : e.bytes with
      | false =>
        have hl : recovered (loop (decryptChild cli info) (finalAnswer cli) ⟨r, fl, d⟩ ((c, f) :: xs)) =
            if f.ctxDone then [.cancelled] else askForRetry cli false e := by
          have := @decryptChild_noBytes cli info c f ⟨r, fl, d⟩ type e hs hp hb
          cases hd : f.ctxDone <;> rw [hd] at this <;> exact loop_stop this
        rw [hl, loop_goOn (receiveChild_noBytes hp hb)]
        exact stopsAlike_iff cli info (Flags.seen ⟨r, fr, d⟩ type)
      | true =>
        have hl := @decryptChild_bytes cli info c f ⟨r, fl, d⟩ type e hs hp hb hcf
        have hrem := @receiveChild_bytes cli info c f ⟨r, fr, d⟩ type e hp hb
        simp only [Flags.seen] at hl hrem
        simp only [Bool.not_true, Bool.false_eq_true, if_false]
        cases hstop : payloadStop (d || type.isDirect) type e f with
        | some s =>
          rw [hstop] at hl hrem
          obtain ⟨acts, hbody, hvis⟩ := hrem
          refine iff_of_true ?_ trivial
          rcases hl with rfl | ⟨acts', hbody', hvis'⟩
          · exact .inl rfl
          · rw [loop_stop hbody, loop_stop hbody', hvis, hvis']
            exact .inr rfl
        | none =>
          rw [hstop] at hl hrem
          obtain ⟨acts, hbody, hvis⟩ := hrem
          obtain ⟨acts', hbody', hvis'⟩ := hl
          rw [loop_goOn hbody, loop_goOn hbody', visible_append, visible_append, hvis, hvis']
          exact ih hcs fun h => by cases h

end Compare

/-! ## Results -/

/-- the remote path answers like the local one; when the store is not reached it sends nothing -/
def FollowsLocal (unreached : Prop) (remoteActs localActs : List Act) : Prop :=
  (unreached → visible remoteActs = []) ∧ (¬ unreached → visible remoteActs = visible localActs)

/-- the stanza is answered before either loop starts -/
def AnsweredBefore (sender : SenderFate) (children : List (MessageChild × Fate)) : Prop :=
  unavailableType children ≠ none ∨ sender ≠ .resolved

/-- a payload that the remote loop hands over does not reach the store -/
def Unreached (info : MessageInfo) (sender : SenderFate) (children : List (MessageChild × Fate)) : Prop :=
  ¬ AnsweredBefore sender children ∧ firstStop info false children = some .unavailable

theorem decryptMessages_before (cli : Cli) {info : MessageInfo} {sender : SenderFate}
    {children : List (MessageChild × Fate)} (h : AnsweredBefore sender children) (b : Bool) :
    decryptMessages { cli with isRemoteSignal := b } info sender children = decryptMessages cli info sender children := by
  rw [decryptMessages, decryptMessages]
  cases hun : unavailableType children with
  | some type => simp only [decryptMessagesBody, hun]
  | none =>
    cases sender with
    | resolved => exact (h.elim (fun h => h hun) fun h => h rfl).elim
    | unresolved => simp only [decryptMessagesBody, hun]
    | panics => simp only [decryptMessagesBody, hun]

/-- **When the remote path answers like the local one.** For every client that is no shadow, every stanza and all
corresponding outcomes: a remote-keyed client sends the receipts, retry receipts and acknowledgements of a local one and
reports undecryptable messages like it, and sends nothing when the store is not reached, exactly if the stanza is answered
before the loops or none of the differences shows. -/
theorem remote_answers_iff (cli : Cli) (hs : cli.isShadow = false) (info : MessageInfo) (sender : SenderFate)
    (children : List (MessageChild × Fate)) (hc : ∀ x ∈ children, Corresponds x.2) :
    FollowsLocal (Unreached info sender children)
        (decryptMessages { cli with isRemoteSignal := true } info sender children)
        (decryptMessages { cli with isRemoteSignal := false } info sender children) ↔
      AnsweredBefore sender children ∨ SameAnswer info false false false children := by
  by_cases hb : AnsweredBefore sender children
  · refine iff_of_true ⟨fun h => absurd hb h.1, fun _ => ?_⟩ (.inl hb)
    rw [decryptMessages_before cli hb true, decryptMessages_before cli hb false]
  · obtain ⟨hun, hsender⟩ : unavailableType children = none ∧ sender = .resolved := by
      rw [AnsweredBefore, not_or, not_not, not_not] at hb
      exact hb
    rw [or_iff_right hb, ← @sameAnswer_iff cli info hs children hc false false false false (fun _ => rfl), FollowsLocal,
      Unreached]
    have hremote : decryptMessages { cli with isRemoteSignal := true } info sender children =
        recovered (loop (receiveChild cli info) (finalAnswer cli) noFlags children) := by
      simp only [decryptMessages, decryptMessagesBody, hun, hsender, decryptMessagesRemote, if_true]
      rfl
    have hlocal : decryptMessages { cli with isRemoteSignal := false } info sender children =
        recovered (loop (decryptChild cli info) (finalAnswer cli) noFlags children) := by
      simp only [decryptMessages, decryptMessagesBody, hun, hsender]
      rfl
    have hvis := visible_remote cli info noFlags children
    rw [hremote, hlocal]
    constructor
    · intro h
      by_cases hu : firstStop info false children = some .unavailable
      · exact .inl hu
      · exact .inr (h.2 fun h' => hu h'.2)
    · rintro (hu | heq)
      · refine ⟨fun _ => ?_, fun h => absurd ⟨hb, hu⟩ h⟩
        have hfirst : firstStop info noFlags.containsDirectMsg children = some .unavailable := hu
        rw [hfirst] at hvis
        exact hvis
      · refine ⟨fun h => ?_, fun _ => heq⟩
        have hfirst : firstStop info noFlags.containsDirectMsg children = some .unavailable := h.2
        rw [hfirst] at hvis
        exact hvis

/-- a group message without a sender key -/
def noSenderKeyFate : Fate := ⟨false, .failed .noSenderKey, true, true, .succeeded, .decryptError .noSenderKey false⟩

theorem remote_answers_no_sender_key :
    FollowsLocal (Unreached ⟨true, false⟩ .resolved [(encChild .skmsg, noSenderKeyFate)])
      (decryptMessages ⟨true, false, true⟩ ⟨true, false⟩ .resolved [(encChild .skmsg, noSenderKeyFate)])
      (decryptMessages ⟨true, false, false⟩ ⟨true, false⟩ .resolved [(encChild .skmsg, noSenderKeyFate)]) := by
  refine (remote_answers_iff ⟨true, false, false⟩ rfl ⟨true, false⟩ .resolved [(encChild .skmsg, noSenderKeyFate)]
    fun x hx => ?_).2 (.inr trivial)
  rw [mem_singleton.1 hx]
  exact .noSenderKey rfl rfl

/-- a payload that does not decode -/
def undecodableFate : Fate := ⟨false, .plaintext, true, false, .succeeded, .decryptError .undecodable false⟩

/-- a payload that was handled before -/
def processedFate : Fate := ⟨false, .failed .alreadyProcessed, true, true, .succeeded, .received true⟩

/-- refused locally, and a delivery receipt remotely -/
theorem already_delivered_clears_failure :
    (∀ x ∈ [(encChild .msg, undecodableFate), (encChild .msg, processedFate)], Corresponds x.2) ∧
    decryptMessages ⟨true, false, false⟩ ⟨false, false⟩ .resolved
      [(encChild .msg, undecodableFate), (encChild .msg, processedFate)] =
        [.send false (.ack nackInvalidProtobuf)] ∧
    decryptMessages ⟨true, false, true⟩ ⟨false, false⟩ .resolved
      [(encChild .msg, undecodableFate), (encChild .msg, processedFate)] = [.send false .messageReceipt] := by
  refine ⟨?_, by decide, by decide⟩
  intro x hx
  rcases mem_pair.1 hx with rfl | rfl
  · exact .undecodable rfl rfl rfl
  · exact .alreadyProcessed rfl rfl

end Hypermeow.Client.Answers
