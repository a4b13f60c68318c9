/-
Response waiters (`request.go`): matching an incoming `iq` or `ack` with the caller that waits for it.

`waitResponse` makes a channel with room for one node and registers it under the request ID. `receiveResponse` looks the ID
up and deletes the entry under the lock, and sends the node on the channel after the lock is released. `cancelResponse`
closes the caller's channel and deletes the entry under the lock. `clearResponseWaiters` offers one node to every
registered channel, closing a channel that cannot take it, and empties the map.

Model: a scheduler picks the next action. A channel is the index of the `waitResponse` call that made it. `lookup` is
`receiveResponse` up to the unlock, `send` and `giveUp` are the two branches of its select. `cancel` is enabled once for
each caller. A send on a closed channel and a second close are run-time panics and are recorded. `given` logs every node
that was put into a channel, with its channel; a response is named by the number of its lookup.

Results:
- `send_after_cancel`: a response that arrives as its caller gives up is sent on the closed channel.
-/
import Hypermeow.Lib.Runs

namespace Hypermeow.Client

open Lib List Option

/-- what a channel is given -/
inductive Given where
  | response (n : ℕ)
  | disconnect
deriving DecidableEq, Repr

inductive ChanPanic where
  | sendOnClosed (ch : ℕ)
  | closeOfClosed (ch : ℕ)
deriving DecidableEq, Repr

/-- a caller and the channel it waits on -/
structure Waiter where
  reqID : String
  /-- the one slot of the channel -/
  buf : Option Given
  closed : Bool
  /-- the caller has called `cancelResponse` -/
  cancelled : Bool
deriving DecidableEq, Repr

/-- a `receiveResponse` call between its unlock and its send -/
structure Receiver where
  ch : ℕ
  response : ℕ
deriving DecidableEq, Repr

structure WaiterSt where
  responseWaiters : List (String × ℕ)
  waiters : List Waiter
  receivers : List Receiver
  /-- number of responses looked up so far -/
  nextResponse : ℕ
  given : List (ℕ × Given)
  panics : List ChanPanic
deriving DecidableEq, Repr

inductive WaiterOp where
  | wait (reqID : String)
  | lookup (tag : String) (id : Option String)
  | send (r : ℕ)
  | giveUp (r : ℕ)
  | cancel (w : ℕ)
  | clear
  | take (w : ℕ)
deriving DecidableEq, Repr

def noWaiters : WaiterSt := ⟨[], [], [], 0, [], []⟩

/-- is channel `ch` closed? -/
def isClosed (s : WaiterSt) (ch : ℕ) : Bool := s.waiters[ch]?.any (·.closed)

/-- is the slot of channel `ch` taken? -/
def isFull (s : WaiterSt) (ch : ℕ) : Bool := s.waiters[ch]?.any (·.buf.isSome)

/-- the node goes into the free slot of `ch` -/
def put (s : WaiterSt) (ch : ℕ) (g : Given) : WaiterSt :=
  { s with waiters := s.waiters.modify ch fun w => { w with buf := some g }, given := s.given ++ [(ch, g)] }

/-- `close(ch)` -/
def closeChan (s : WaiterSt) (ch : ℕ) : WaiterSt :=
  if isClosed s ch then { s with panics := s.panics ++ [.closeOfClosed ch] }
  else { s with waiters := s.waiters.modify ch fun w => { w with closed := true } }

/-- one round of the loop of `clearResponseWaiters`: a send without waiting, else close -/
def offer (s : WaiterSt) (ch : ℕ) : WaiterSt :=
  if isClosed s ch then { s with panics := s.panics ++ [.sendOnClosed ch] }
  else if isFull s ch then closeChan s ch
  else put s ch .disconnect

def waiterStep (s : WaiterSt) : WaiterOp → WaiterSt
  | .wait reqID => { s with
    waiters := s.waiters ++ [⟨reqID, none, false, false⟩],
    responseWaiters := (reqID, s.waiters.length) :: s.responseWaiters.filter fun e => e.1 ≠ reqID }
  | .lookup tag id =>
    match id with
    | none => s
    | some id =>
      if tag ≠ "iq" ∧ tag ≠ "ack" then s
      else match s.responseWaiters.find? fun e => e.1 = id with
        | none => s
        | some e => { s with
          responseWaiters := s.responseWaiters.filter fun e => e.1 ≠ id,
          receivers := s.receivers ++ [⟨e.2, s.nextResponse⟩], nextResponse := s.nextResponse + 1 }
  | .send r =>
    match s.receivers[r]? with
    | none => s
    | some rc =>
      if isClosed s rc.ch then
        { s with receivers := s.receivers.eraseIdx r, panics := s.panics ++ [.sendOnClosed rc.ch] }
      -- a full channel blocks the sender
      else if isFull s rc.ch then s
      else { put s rc.ch (.response rc.response) with receivers := s.receivers.eraseIdx r }
  | .giveUp r => { s with receivers := s.receivers.eraseIdx r }
  | .cancel w =>
    match s.waiters[w]? with
    | none => s
    | some wt =>
      if wt.cancelled then s
      else
        let s := closeChan s w
        { s with
          waiters := s.waiters.modify w fun w => { w with cancelled := true },
          responseWaiters := s.responseWaiters.filter fun e => e.1 ≠ wt.reqID }
  | .clear => { (s.responseWaiters.map Prod.snd).foldl offer s with responseWaiters := [] }
  | .take w => { s with waiters := s.waiters.modify w fun w => { w with buf := none } }

/-! ## Safety -/

/-- the responses among the given nodes -/
def givenResponses (given : List (ℕ × Given)) : List ℕ :=
  given.filterMap fun e => match e.2 with
    | .response n => some n
    | .disconnect => none

/-- nothing panicked, no channel got two nodes, no response went to two channels -/
structure WaitersSafe (s : WaiterSt) : Prop where
  quiet : s.panics = []
  once : (s.given.map Prod.fst).Nodup
  unique : (givenResponses s.given).Nodup

/-- the condition on a step: a caller does not cancel while a response for it has been looked up and not sent yet -/
def NoLateCancel (s : WaiterSt) : WaiterOp → Prop
  | .cancel w => ∀ rc ∈ s.receivers, rc.ch ≠ w
  | _ => True

/-- channels that may still be sent on: the registered ones and those of pending responses -/
def openChans (s : WaiterSt) : List ℕ := s.responseWaiters.map Prod.snd ++ s.receivers.map (·.ch)

structure WaiterInv (s : WaiterSt) : Prop where
  quiet : s.panics = []
  once : (s.given.map Prod.fst).Nodup
  /-- a response is pending or given, in one place -/
  unique : (s.receivers.map (·.response) ++ givenResponses s.given).Nodup
  below : ∀ n ∈ s.receivers.map (·.response) ++ givenResponses s.given, n < s.nextResponse
  distinct : (openChans s).Nodup
  /-- a channel that may still be sent on exists, is open, and has not been given anything -/
  exist : ∀ c ∈ openChans s, c < s.waiters.length
  isOpen : ∀ c ∈ openChans s, isClosed s c = false
  fresh : ∀ c ∈ openChans s, c ∉ s.given.map Prod.fst
  /-- what sits in a channel was given to it -/
  full : ∀ c, isFull s c = true → c ∈ s.given.map Prod.fst
  /-- only the caller closes its channel -/
  closer : ∀ (c : ℕ) (w : Waiter), s.waiters[c]? = some w → w.closed = true → w.cancelled = true
  named : ∀ e ∈ s.responseWaiters, ∀ w, s.waiters[e.2]? = some w → w.reqID = e.1
  past : ∀ c ∈ s.given.map Prod.fst, c < s.waiters.length

variable {s : WaiterSt}

theorem WaiterInv.safe (h : WaiterInv s) : WaitersSafe s :=
  ⟨h.quiet, h.once, (nodup_append.1 h.unique).2.1⟩

theorem waiterInv_init : WaiterInv noWaiters := by
  constructor <;> simp [noWaiters, openChans, givenResponses, isFull]

/-! ## What the channel operations change -/

variable {c : ℕ}

/-- what holds of a waiter after an update held before it -/
theorem any_of_modify {ws : List Waiter} {f : Waiter → Waiter} {p : Waiter → Bool} {d : ℕ}
    (h : (ws.modify c f)[d]?.any p = true) (hp : c = d → ∀ w, p (f w) = true → p w = true) : ws[d]?.any p = true := by
  rw [getElem?_modify] at h
  cases hw : ws[d]? with
  | none =>
    rw [hw] at h
    exact h
  | some w =>
    rw [hw] at h
    by_cases hcd : c = d
    · exact hp hcd w (by simpa [hcd] using h)
    · simpa [hcd] using h

/-- fewer registered channels and fewer pending responses -/
theorem WaiterInv.shrink (h : WaiterInv s) {m : List (String × ℕ)} {rs : List Receiver}
    (hm : m.Sublist s.responseWaiters) (hr : rs.Sublist s.receivers) :
    WaiterInv { s with responseWaiters := m, receivers := rs } := by
  have hopen : (openChans { s with responseWaiters := m, receivers := rs }).Sublist (openChans s) :=
    (hm.map _).append (hr.map _)
  have hresp := (hr.map (·.response)).append (Sublist.refl (givenResponses s.given))
  exact { h with
    unique := h.unique.sublist hresp
    below := fun n hn => h.below n (hresp.subset hn)
    distinct := h.distinct.sublist hopen
    exist := fun c hc => h.exist c (hopen.subset hc)
    isOpen := fun c hc => h.isOpen c (hopen.subset hc)
    fresh := fun c hc => h.fresh c (hopen.subset hc)
    named := fun e he => h.named e (hm.subset he) }

/-- one waiter is updated: it keeps its request, is closed only by its caller, and if it is still sent on stays open; a node
that comes into its channel was given to it -/
theorem WaiterInv.modify (h : WaiterInv s) {f : Waiter → Waiter} (hid : ∀ w, (f w).reqID = w.reqID)
    (hcloser : ∀ w, (w.closed = true → w.cancelled = true) → (f w).closed = true → (f w).cancelled = true)
    (hopen : c ∈ openChans s → ∀ w, (f w).closed = w.closed)
    (hbuf : c ∉ s.given.map Prod.fst → ∀ w, (f w).buf.isSome = true → w.buf.isSome = true) :
    WaiterInv { s with waiters := s.waiters.modify c f } := by
  have hget : ∀ {d : ℕ} {w : Waiter}, (s.waiters.modify c f)[d]? = some w →
      ∃ v, s.waiters[d]? = some v ∧ w = if c = d then f v else v := by
    intro d w hw
    rw [getElem?_modify] at hw
    obtain ⟨v, hv, rfl⟩ := map_eq_some_iff.1 hw
    exact ⟨v, hv, by split_ifs <;> rfl⟩
  refine { h with exist := ?_, isOpen := ?_, full := ?_, closer := ?_, named := ?_, past := ?_ }
  · intro d hd
    rw [length_modify]
    exact h.exist d hd
  · intro d hd
    refine Bool.eq_false_iff.2 fun hc => Bool.eq_false_iff.1 (h.isOpen d hd) (any_of_modify hc fun hcd w hw => ?_)
    rwa [hopen (hcd ▸ hd)] at hw
  · intro d hd
    by_contra hno
    exact hno (h.full d (any_of_modify hd fun hcd => hbuf (hcd ▸ hno)))
  · intro d w hw hwc
    obtain ⟨v, hv, rfl⟩ := hget hw
    have hv := h.closer d v hv
    split_ifs at hwc ⊢
    · exact hcloser v hv hwc
    · exact hv hwc
  · intro e he w hw
    obtain ⟨v, hv, rfl⟩ := hget hw
    have hv := h.named e he v hv
    split_ifs
    · exact (hid v).trans hv
    · exact hv
  · intro d hd
    rw [length_modify]
    exact h.past d hd

/-- a node is given to a channel that was given nothing and will not be sent on again -/
theorem WaiterInv.give (h : WaiterInv s) {g : Given} (hc : c < s.waiters.length)
    (hopen : c ∉ openChans s) (hfresh : c ∉ s.given.map Prod.fst)
    (hg : ∀ n, g = .response n → n < s.nextResponse ∧ n ∉ s.receivers.map (·.response) ++ givenResponses s.given) :
    WaiterInv { s with given := s.given ++ [(c, g)] } := by
  have hresp : givenResponses (s.given ++ [(c, g)]) = givenResponses s.given ++ givenResponses [(c, g)] :=
    filterMap_append
  have hfst : (s.given ++ [(c, g)]).map Prod.fst = s.given.map Prod.fst ++ [c] := map_append
  have hnew : ∀ n ∈ givenResponses [(c, g)], g = .response n := by
    intro n hn
    cases g with
    | response m => simp [givenResponses] at hn; rw [hn]
    | disconnect => simp [givenResponses] at hn
  refine { h with once := ?_, unique := ?_, below := ?_, fresh := ?_, full := ?_, past := ?_ }
  · rw [hfst, ← concat_eq_append]
    exact h.once.concat hfresh
  · rw [hresp, ← append_assoc]
    refine nodup_append.2 ⟨h.unique, ?_, fun a ha b hb hab => ?_⟩
    · cases g <;> simp [givenResponses]
    · subst hab; exact (hg _ (hnew _ hb)).2 ha
  · intro n hn
    rw [hresp, ← append_assoc] at hn
    rcases mem_append.1 hn with hn | hn
    · exact h.below n hn
    · exact (hg n (hnew n hn)).1
  · intro d hd hgiven
    rw [hfst] at hgiven
    rcases mem_append.1 hgiven with hgiven | hgiven
    · exact h.fresh d hd hgiven
    · exact hopen (mem_singleton.1 hgiven ▸ hd)
  · intro d hd
    rw [hfst]
    exact mem_append_left _ (h.full d hd)
  · intro d hd
    rw [hfst] at hd
    rcases mem_append.1 hd with hd | hd
    · exact h.past d hd
    · rwa [mem_singleton.1 hd]

theorem WaiterInv.put (h : WaiterInv s) {g : Given} (hc : c < s.waiters.length)
    (hopen : c ∉ openChans s) (hfresh : c ∉ s.given.map Prod.fst)
    (hg : ∀ n, g = .response n → n < s.nextResponse ∧ n ∉ s.receivers.map (·.response) ++ givenResponses s.given) :
    WaiterInv (put s c g) :=
  (h.give hc hopen hfresh hg).modify (fun _ => rfl) (fun _ hw => hw) (fun _ _ => rfl) fun hno => absurd (by simp) hno

/-- an open channel has a free slot -/
theorem WaiterInv.free (h : WaiterInv s) (hc : c ∈ openChans s) : isFull s c = false := by
  cases hf : isFull s c with
  | false => rfl
  | true => exact absurd (h.full c hf) (h.fresh c hc)

/-! ## The steps -/

theorem getElem?_snoc_of_some {ws : List Waiter} {v w : Waiter} (h : (ws ++ [v])[c]? = some w) :
    ws[c]? = some w ∨ (c = ws.length ∧ w = v) := by
  rcases Nat.lt_trichotomy c ws.length with hlt | rfl | hgt
  · rw [getElem?_append_left hlt] at h; exact .inl h
  · simp only [getElem?_concat_length, some.injEq] at h; exact .inr ⟨rfl, h.symm⟩
  · rw [getElem?_eq_none (by simp; omega)] at h; cases h

section

variable (h : WaiterInv s)
include h

theorem WaiterInv.wait (reqID : String) : WaiterInv (waiterStep s (.wait reqID)) := by
  -- a re-registered ID drops the old entry; the new channel is one nobody has seen
  have h0 := h.shrink (filter_sublist (p := fun e => decide (e.1 ≠ reqID))) (Sublist.refl s.receivers)
  set m := s.responseWaiters.filter fun e => e.1 ≠ reqID
  have hopen : openChans (waiterStep s (.wait reqID)) =
      s.waiters.length :: openChans { s with responseWaiters := m } := rfl
  have hany : ∀ (c : ℕ) (p : Waiter → Bool), p ⟨reqID, none, false, false⟩ = false →
      (s.waiters ++ [⟨reqID, none, false, false⟩])[c]?.any p = s.waiters[c]?.any p := by
    intro c p hp
    rcases Nat.lt_or_ge c s.waiters.length with hlt | hge
    · rw [getElem?_append_left hlt]
    · rw [getElem?_eq_none hge]
      rcases Nat.eq_or_lt_of_le hge with rfl | hgt
      · simp [hp]
      · rw [getElem?_eq_none (by simp; omega)]
  refine { h with
    distinct := ?_, exist := ?_, isOpen := ?_, fresh := ?_, full := ?_, closer := ?_, named := ?_, past := ?_ }
  · rw [hopen]
    exact nodup_cons.2 ⟨fun hm => absurd (h0.exist _ hm) (Nat.lt_irrefl _), h0.distinct⟩
  · intro c hc
    rw [hopen] at hc
    simp only [waiterStep, length_append, length_singleton]
    rcases mem_cons.1 hc with rfl | hc
    · omega
    · exact Nat.lt_succ_of_lt (h0.exist c hc)
  · intro c hc
    rw [hopen] at hc
    rw [isClosed, waiterStep, hany c _ rfl]
    rcases mem_cons.1 hc with rfl | hc
    · simp
    · exact h0.isOpen c hc
  · intro c hc
    rw [hopen] at hc
    rcases mem_cons.1 hc with rfl | hc
    · exact fun hg => absurd (h.past _ hg) (Nat.lt_irrefl _)
    · exact h0.fresh c hc
  · intro c hc
    rw [isFull, waiterStep, hany c _ rfl] at hc
    exact h.full c hc
  · intro c w hw hcl
    rcases getElem?_snoc_of_some hw with hw | ⟨-, rfl⟩
    · exact h.closer c w hw hcl
    · cases hcl
  · intro e he w hw
    rcases mem_cons.1 he with rfl | he
    · simp only [waiterStep, getElem?_concat_length, some.injEq] at hw
      rw [← hw]
    · have hlt := h0.exist e.2 (mem_append_left _ (mem_map_of_mem he))
      rw [waiterStep, getElem?_append_left hlt] at hw
      exact h0.named e he w hw
  · intro c hc
    simp only [waiterStep, length_append, length_singleton]
    have := h.past c hc
    omega

theorem WaiterInv.lookup (tag : String) (id : Option String) : WaiterInv (waiterStep s (.lookup tag id)) := by
  simp only [waiterStep]
  cases id with
  | none => exact h
  | some id =>
    simp only
    split_ifs
    · exact h
    · cases hf : s.responseWaiters.find? fun e => e.1 = id with
      | none => exact h
      | some e =>
        have he : e ∈ s.responseWaiters := mem_of_find?_eq_some hf
        have hid : e.1 = id := by simpa using find?_some hf
        have hsub := filter_sublist (p := fun e => decide (e.1 ≠ id)) (l := s.responseWaiters)
        set m := s.responseWaiters.filter fun e => e.1 ≠ id
        -- the channel moves from the map to the pending responses
        have hopen : (openChans { s with
            responseWaiters := m, receivers := s.receivers ++ [⟨e.2, s.nextResponse⟩],
            nextResponse := s.nextResponse + 1 }).Perm (e.2 :: openChans { s with responseWaiters := m }) := by
          simp only [openChans, map_append, map_cons, map_nil, ← append_assoc]
          exact perm_append_singleton _ _
        have hdel : e.2 ∉ openChans { s with responseWaiters := m } := by
          intro hc
          rcases mem_append.1 hc with hc | hc
          · obtain ⟨e', he', heq⟩ := mem_map.1 hc
            have hsame : e' = e := inj_on_of_nodup_map (nodup_append.1 h.distinct).1
              (hsub.subset he') he heq
            subst hsame
            have := (mem_filter.1 he').2
            simp [hid] at this
          · exact (nodup_append.1 h.distinct).2.2 _ (mem_map_of_mem he) _ hc rfl
        have hmem : e.2 ∈ openChans s := mem_append_left _ (mem_map_of_mem he)
        have h0 := h.shrink hsub (Sublist.refl s.receivers)
        have hcov : ∀ c ∈ openChans { s with
            responseWaiters := m, receivers := s.receivers ++ [⟨e.2, s.nextResponse⟩],
            nextResponse := s.nextResponse + 1 }, c ∈ openChans s := by
          intro c hc
          rcases mem_cons.1 (hopen.subset hc) with rfl | hc
          · exact hmem
          · exact (hsub.map _).append (Sublist.refl _) |>.subset hc
        refine { h with
          unique := ?_, below := ?_, distinct := ?_, exist := fun c hc => h.exist c (hcov c hc)
          isOpen := fun c hc => h.isOpen c (hcov c hc), fresh := fun c hc => h.fresh c (hcov c hc)
          named := h0.named }
        · have hp : (List.map Receiver.response (s.receivers ++ [⟨e.2, s.nextResponse⟩]) ++
              givenResponses s.given).Perm
                (s.nextResponse :: (s.receivers.map Receiver.response ++ givenResponses s.given)) := by
            simp only [map_append, map_cons, map_nil, append_assoc, singleton_append]
            exact perm_middle
          exact hp.nodup_iff.2 (nodup_cons.2
            ⟨fun hn => absurd (h.below _ hn) (Nat.lt_irrefl _), h.unique⟩)
        · intro n hn
          simp only [map_append, map_cons, map_nil, mem_append, mem_singleton] at hn
          rcases hn with (hn | rfl) | hn
          · exact Nat.lt_succ_of_lt (h.below n (mem_append_left _ hn))
          · exact Nat.lt_succ_self _
          · exact Nat.lt_succ_of_lt (h.below n (mem_append_right _ hn))
        · exact hopen.nodup_iff.2 (nodup_cons.2 ⟨hdel, h0.distinct⟩)

theorem WaiterInv.send (r : ℕ) : WaiterInv (waiterStep s (.send r)) := by
  simp only [waiterStep]
  cases hr : s.receivers[r]? with
  | none => exact h
  | some rc =>
    have hmem : rc ∈ s.receivers := mem_of_getElem? hr
    have hopen : rc.ch ∈ openChans s := mem_append_right _ (mem_map_of_mem hmem)
    simp only [h.isOpen _ hopen, h.free hopen, Bool.false_eq_true, if_false]
    have h0 := h.shrink (Sublist.refl s.responseWaiters) (eraseIdx_sublist s.receivers r)
    obtain ⟨hlt, hget⟩ := List.getElem?_eq_some_iff.1 hr
    have hperm : s.receivers.Perm (rc :: s.receivers.eraseIdx r) := by
      rw [← hget]; exact (getElem_cons_eraseIdx_perm hlt).symm
    -- the channel and the response number leave the pending list with the receiver
    have hch : rc.ch ∉ openChans { s with receivers := s.receivers.eraseIdx r } := by
      have hp : (openChans s).Perm (rc.ch :: openChans { s with receivers := s.receivers.eraseIdx r }) :=
        ((List.Perm.refl _).append (hperm.map _)).trans perm_middle
      exact (nodup_cons.1 (hp.nodup_iff.1 h.distinct)).1
    have hresp : rc.response ∉ (s.receivers.eraseIdx r).map (·.response) ++ givenResponses s.given := by
      have hp := (hperm.map (·.response)).append (List.Perm.refl (givenResponses s.given))
      exact (nodup_cons.1 (hp.nodup_iff.1 h.unique)).1
    refine h0.put (h.exist _ hopen) hch (h.fresh _ hopen) fun n hn => ?_
    cases hn
    exact ⟨h.below _ (mem_append_left _ (mem_map_of_mem hmem)), hresp⟩

theorem WaiterInv.cancel (w : ℕ) (hok : NoLateCancel s (.cancel w)) : WaiterInv (waiterStep s (.cancel w)) := by
  simp only [waiterStep]
  cases hw : s.waiters[w]? with
  | none => exact h
  | some wt =>
    simp only
    split_ifs with hcan
    · exact h
    · have hcl : isClosed s w = false := by
        rw [isClosed, hw, any_some]
        exact Bool.eq_false_iff.2 fun hc => hcan (h.closer w wt hw hc)
      have h0 := h.shrink (filter_sublist (p := fun e => decide (e.1 ≠ wt.reqID))) (Sublist.refl s.receivers)
      -- the only entry that can hold the channel has the caller's request ID
      have hopen : w ∉ openChans { s with responseWaiters := s.responseWaiters.filter fun e => e.1 ≠ wt.reqID } := by
        intro hm
        rcases mem_append.1 hm with hm | hm
        · obtain ⟨e, he, rfl⟩ := mem_map.1 hm
          have hne := (mem_filter.1 he).2
          have := h.named e (mem_filter.1 he).1 wt hw
          simp [this] at hne
        · obtain ⟨rc, hrc, heq⟩ := mem_map.1 hm
          exact hok rc hrc heq
      simp only [Client.closeChan, hcl, Bool.false_eq_true, if_false, modify_modify_eq]
      exact h0.modify (fun _ => rfl) (fun _ _ _ => rfl) (fun hin => absurd hin hopen) fun _ _ => id

/-- one round of the clearing loop -/
theorem WaiterInv.offer {e : String × ℕ} {rest : List (String × ℕ)} (hs : s.responseWaiters = e :: rest) :
    WaiterInv { offer s e.2 with responseWaiters := rest } := by
  have hmem : e.2 ∈ openChans s := by simp [openChans, hs]
  have h0 := h.shrink (hs ▸ sublist_cons_self e rest : rest.Sublist s.responseWaiters)
    (Sublist.refl s.receivers)
  have hopen : e.2 ∉ openChans { s with responseWaiters := rest } := by
    have := h.distinct
    rw [openChans, hs] at this
    exact (nodup_cons.1 this).1
  simp only [Client.offer, h.isOpen _ hmem, h.free hmem, Bool.false_eq_true, if_false]
  exact h0.put (h.exist _ hmem) hopen (h.fresh _ hmem) fun n hn => nomatch hn

end

theorem offer_responseWaiters (s : WaiterSt) (c : ℕ) (m : List (String × ℕ)) :
    offer { s with responseWaiters := m } c = { offer s c with responseWaiters := m } := by
  have hc : isClosed { s with responseWaiters := m } c = isClosed s c := rfl
  have hf : isFull { s with responseWaiters := m } c = isFull s c := rfl
  simp only [offer, closeChan, hc, hf]
  cases isClosed s c <;> cases isFull s c <;> rfl

theorem foldl_offer_responseWaiters (cs : List ℕ) (s : WaiterSt) (m : List (String × ℕ)) :
    cs.foldl offer { s with responseWaiters := m } = { cs.foldl offer s with responseWaiters := m } := by
  induction cs generalizing s with
  | nil => rfl
  | cons c cs ih => rw [foldl_cons, offer_responseWaiters, ih]; rfl

theorem WaiterInv.clear {m : List (String × ℕ)} : ∀ {s : WaiterSt}, WaiterInv s → s.responseWaiters = m →
    WaiterInv { (m.map Prod.snd).foldl Client.offer s with responseWaiters := [] } := by
  induction m with
  | nil =>
    intro s h hs
    exact h.shrink (nil_sublist _) (Sublist.refl s.receivers)
  | cons e rest ih =>
    intro s h hs
    have := ih (h.offer hs) rfl
    rwa [foldl_offer_responseWaiters] at this

theorem WaiterInv.take (h : WaiterInv s) (w : ℕ) : WaiterInv (waiterStep s (.take w)) :=
  h.modify (fun _ => rfl) (fun _ hw => hw) (fun _ _ => rfl) fun _ _ hbuf => by cases hbuf

theorem waiterStep_inv (s : WaiterSt) (o : WaiterOp) (hok : NoLateCancel s o) (h : WaiterInv s) :
    WaiterInv (waiterStep s o) := by
  cases o with
  | wait reqID => exact h.wait reqID
  | lookup tag id => exact h.lookup tag id
  | send r => exact h.send r
  | giveUp r => exact h.shrink (Sublist.refl _) (eraseIdx_sublist _ _)
  | cancel w => exact h.cancel w hok
  | clear => exact h.clear rfl
  | take w => exact h.take w

/-! ## Main results -/

/-- **Waiters are safe when no caller cancels late.** In every run in which no caller cancels while a response for it has
been looked up and not sent yet, in every state reached: nothing has panicked, no channel was given two nodes, and no
response was given to two channels. -/
theorem waiters_safe (ops : List WaiterOp) (hok : Along waiterStep NoLateCancel noWaiters ops) (n : ℕ) :
    WaitersSafe (run waiterStep noWaiters (ops.take n)) :=
  (run_inv_take waiterStep_inv waiterInv_init hok n).safe

/-- two callers and a disconnect: the response of the first is delivered, then every waiter left is cleared and cancels -/
theorem waiters_safe_two :
    let ops := [.wait "a", .wait "b", .lookup "iq" (some "a"), .send 0, .clear, .take 0, .cancel 1, .cancel 0]
    WaitersSafe (run waiterStep noWaiters (ops.take 8)) ∧
      (run waiterStep noWaiters (ops.take 8)).given = [(0, .response 0), (1, .disconnect)] := by
  intro ops
  have hok : Along waiterStep NoLateCancel noWaiters ops := by
    refine ⟨trivial, trivial, trivial, trivial, trivial, trivial, ?_, ?_, trivial⟩
    · show ∀ rc ∈ _, _
      decide
    · show ∀ rc ∈ _, _
      decide
  exact ⟨waiters_safe ops hok 8, by decide⟩

/-- a response is looked up, its caller gives up and closes the channel, and the response is sent on the closed channel -/
theorem send_after_cancel :
    let s := run waiterStep noWaiters [.wait "a", .lookup "iq" (some "a"), .cancel 0, .send 0]
    s.panics = [.sendOnClosed 0] ∧ ¬ WaitersSafe s :=
  ⟨by decide, fun h => absurd h.quiet (by decide)⟩

end Hypermeow.Client
