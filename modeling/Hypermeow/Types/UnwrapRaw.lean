/-
Unwrapping of a received message (`UnwrapRaw`, `unwrapAssociatedChild` of `types/events/events.go`).

A message may be wrapped in other messages. `UnwrapRaw` opens the wrappers in a fixed order, each one if it has a message,
and points `evt.Message` at what it finds: at a place inside the tree of `evt.RawMessage`, or, once an associated child was
taken out of a message with a context, at a copy. A message without a context gets the one of the raw message in the end.

Model: the raw message is a tree, and `evt.Message` is a path into it or a message of its own. Contexts are maps from fields
to values. Only the context of a message is ever assigned, and nothing is assigned inside a shared context.
-/
import Mathlib.Data.Option.Basic
import Mathlib.Logic.Function.Basic

namespace Hypermeow.Types.Unwrap

open Option

/-! ## Messages -/

inductive Wrapper where
  | deviceSent | botInvoke | ephemeral | associatedChild | viewOnce | viewOnceV2 | viewOnceV2Extension | lottieSticker
  | documentWithCaption | edited
deriving DecidableEq, Repr

structure DeviceSentMeta where
  destinationJID : String
  phash : String
deriving DecidableEq, Repr

/-- `MessageContextInfo`: the fields that are set, with their values -/
abbrev ContextInfo (F V : Type) := F → Option V

/-- a message: what is no wrapper, the context, the header of the device-sent wrapper, and the wrappers; a wrapper may be
there without a message in it -/
inductive Message (β F V : Type) where
  | mk (body : β) (context : Option (ContextInfo F V)) (sent : DeviceSentMeta)
      (wrappers : Wrapper → Option (Option (Message β F V)))

variable {β F V : Type}

namespace Message

def context : Message β F V → Option (ContextInfo F V)
  | mk _ context _ _ => context

def sent : Message β F V → DeviceSentMeta
  | mk _ _ sent _ => sent

def wrappers : Message β F V → Wrapper → Option (Option (Message β F V))
  | mk _ _ _ wrappers => wrappers

/-- `GetX().GetMessage()` for the wrapper `X` -/
def inner (m : Message β F V) (w : Wrapper) : Option (Message β F V) := (m.wrappers w).join

def withContext (ctx : ContextInfo F V) : Message β F V → Message β F V
  | mk body _ sent wrappers => mk body (some ctx) sent wrappers

/-- the message at a path of wrappers -/
def get : List Wrapper → Message β F V → Option (Message β F V)
  | [], m => some m
  | w :: path, m => (m.inner w).bind (get path)

/-- the context of the message at a path is assigned -/
def setContext (ctx : ContextInfo F V) : List Wrapper → Message β F V → Message β F V
  | [], m => m.withContext ctx
  | w :: path, mk body context sent wrappers =>
    mk body context sent (Function.update wrappers w ((wrappers w).map (Option.map (setContext ctx path))))

section

variable (m : Message β F V)
include m

@[simp] theorem context_withContext (ctx : ContextInfo F V) : (m.withContext ctx).context = some ctx := by
  cases m
  rfl

@[simp] theorem sent_setContext (ctx : ContextInfo F V) (path : List Wrapper) :
    (m.setContext ctx path).sent = m.sent := by
  cases m
  cases path <;> rfl

theorem context_setContext_cons (ctx : ContextInfo F V) (w : Wrapper) (path : List Wrapper) :
    (m.setContext ctx (w :: path)).context = m.context := by
  cases m
  rfl

theorem inner_withContext (ctx : ContextInfo F V) (w : Wrapper) : (m.withContext ctx).inner w = m.inner w := by
  cases m
  rfl

theorem inner_setContext_self (ctx : ContextInfo F V) (w : Wrapper) (path : List Wrapper) :
    (m.setContext ctx (w :: path)).inner w = (m.inner w).map (setContext ctx path) := by
  obtain ⟨body, context, sent, wrappers⟩ := m
  show (Function.update wrappers w ((wrappers w).map (Option.map (setContext ctx path))) w).join = (wrappers w).join.map _
  rw [Function.update_self]
  rcases wrappers w with _ | _ | child <;> rfl

theorem inner_setContext_of_ne (ctx : ContextInfo F V) {w v : Wrapper} (h : v ≠ w)
    (path : List Wrapper) : (m.setContext ctx (w :: path)).inner v = m.inner v := by
  obtain ⟨body, context, sent, wrappers⟩ := m
  show (Function.update wrappers w _ v).join = (wrappers v).join
  rw [Function.update_of_ne h]

/-- an assignment to a context opens and closes no wrapper -/
theorem inner_setContext_eq_none (ctx : ContextInfo F V) (path : List Wrapper) (w : Wrapper)
    (h : m.inner w = none) : (m.setContext ctx path).inner w = none := by
  cases path with
  | nil => rw [setContext, inner_withContext, h]
  | cons v path =>
    by_cases hv : w = v
    · rw [hv, inner_setContext_self, ← hv, h, map_none]
    · rw [inner_setContext_of_ne m ctx hv, h]

end

theorem get_append (path rest : List Wrapper) (m : Message β F V) :
    m.get (path ++ rest) = (m.get path).bind (get rest) := by
  induction path generalizing m with
  | nil => rfl
  | cons w path ih =>
    show (m.inner w).bind (get (path ++ rest)) = ((m.inner w).bind (get path)).bind (get rest)
    rw [bind_assoc]
    exact Option.bind_congr fun child _ => ih child

theorem get_setContext (path : List Wrapper) (m : Message β F V) (ctx : ContextInfo F V) :
    (m.setContext ctx path).get path = (m.get path).map (withContext ctx) := by
  induction path generalizing m with
  | nil => rfl
  | cons w path ih =>
    show ((m.setContext ctx (w :: path)).inner w).bind (get path) = ((m.inner w).bind (get path)).map (withContext ctx)
    rw [inner_setContext_self]
    cases m.inner w with
    | none => rfl
    | some child => exact ih child

end Message

/-! ## Events -/

structure Flags where
  isBotInvoke : Bool := false
  isEphemeral : Bool := false
  isAssociatedChild : Bool := false
  isViewOnce : Bool := false
  isViewOnceV2 : Bool := false
  isViewOnceV2Extension : Bool := false
  isLottieSticker : Bool := false
  isDocumentWithCaption : Bool := false
  isEdit : Bool := false
  deviceSentMeta : Option DeviceSentMeta := none
deriving DecidableEq, Repr

namespace Flags

/-- flags are only ever set; `DeviceSentMeta` is assigned -/
def merge (f g : Flags) : Flags where
  isBotInvoke := f.isBotInvoke || g.isBotInvoke
  isEphemeral := f.isEphemeral || g.isEphemeral
  isAssociatedChild := f.isAssociatedChild || g.isAssociatedChild
  isViewOnce := f.isViewOnce || g.isViewOnce
  isViewOnceV2 := f.isViewOnceV2 || g.isViewOnceV2
  isViewOnceV2Extension := f.isViewOnceV2Extension || g.isViewOnceV2Extension
  isLottieSticker := f.isLottieSticker || g.isLottieSticker
  isDocumentWithCaption := f.isDocumentWithCaption || g.isDocumentWithCaption
  isEdit := f.isEdit || g.isEdit
  deviceSentMeta := g.deviceSentMeta.or f.deviceSentMeta

theorem merge_empty (f : Flags) : f.merge {} = f := by
  simp [merge]

theorem merge_assoc (f g h : Flags) : (f.merge g).merge h = f.merge (g.merge h) := by
  simp [merge, Bool.or_assoc, Option.or_assoc]

theorem merge_merge_self (f g : Flags) : (f.merge g).merge g = f.merge g := by
  cases hg : g.deviceSentMeta <;> simp [merge, hg]

end Flags

/-- what is set when a wrapper of a message is opened -/
def Wrapper.flags (outer : Message β F V) : Wrapper → Flags
  | .deviceSent => { deviceSentMeta := some outer.sent }
  | .botInvoke => { isBotInvoke := true }
  | .ephemeral => { isEphemeral := true }
  | .associatedChild => { isAssociatedChild := true }
  | .viewOnce => { isViewOnce := true }
  | .viewOnceV2 => { isViewOnce := true, isViewOnceV2 := true }
  | .viewOnceV2Extension => { isViewOnce := true, isViewOnceV2 := true, isViewOnceV2Extension := true }
  | .lottieSticker => { isLottieSticker := true }
  | .documentWithCaption => { isDocumentWithCaption := true }
  | .edited => { isEdit := true }

/-- where `evt.Message` points to -/
inductive Ref (β F V : Type) where
  /-- into the raw message -/
  | raw (path : List Wrapper)
  /-- a message that is reachable from nowhere else -/
  | own (m : Message β F V)

structure Event (β F V : Type) where
  raw : Option (Message β F V)
  message : Ref β F V
  flags : Flags

/-- the message that `evt.Message` points to -/
def Event.content (evt : Event β F V) : Option (Message β F V) :=
  match evt.message with
  | .raw path => evt.raw.bind (Message.get path)
  | .own m => some m

/-- `evt.Message` moves on to a message inside the one it points to -/
def Ref.enter (w : Wrapper) (child : Message β F V) : Ref β F V → Ref β F V
  | .raw path => .raw (path ++ [w])
  | .own _ => .own child

/-- the fields of the wrapper win -/
def overlay (ctx wrapperCtx : ContextInfo F V) : ContextInfo F V := fun field => (wrapperCtx field).or (ctx field)

def unwrapAssociatedChild (child : Message β F V) (wrapperCtx : Option (ContextInfo F V)) (ref : Ref β F V) : Ref β F V :=
  match wrapperCtx with
  | none => ref.enter .associatedChild child
  | some wrapperCtx =>
    match child.context with
    | none => .own (child.withContext wrapperCtx)
    | some ctx => .own (child.withContext (overlay ctx wrapperCtx))

/-- one of the ten conditions of `UnwrapRaw`: a wrapper is opened if it has a message -/
def openWrapper (evt : Event β F V) (w : Wrapper) : Event β F V :=
  match evt.content with
  | none => evt
  | some outer =>
    match outer.inner w with
    | none => evt
    | some child =>
      { evt with
        message :=
          if w = .associatedChild then unwrapAssociatedChild child outer.context evt.message
          else evt.message.enter w child
        flags := evt.flags.merge (w.flags outer) }

/-- the order in which wrappers are opened -/
def order : List Wrapper :=
  [.deviceSent, .botInvoke, .ephemeral, .associatedChild, .viewOnce, .viewOnceV2, .viewOnceV2Extension, .lottieSticker,
    .documentWithCaption, .edited]

/-- `evt.Message.MessageContextInfo` is assigned -/
def Event.setContext (evt : Event β F V) (ctx : ContextInfo F V) : Event β F V :=
  match evt.message with
  | .raw path => { evt with raw := evt.raw.map (Message.setContext ctx path) }
  | .own m => { evt with message := .own (m.withContext ctx) }

/-- the last condition of `UnwrapRaw` -/
def inheritContext (evt : Event β F V) : Event β F V :=
  match evt.content, evt.raw with
  | some m, some raw =>
    match m.context, raw.context with
    | none, some ctx => evt.setContext ctx
    | _, _ => evt
  | _, _ => evt

def unwrapRaw (evt : Event β F V) : Event β F V :=
  inheritContext (order.foldl openWrapper { evt with message := .raw [] })

/-! ## Ways into a message -/

/-- the wrappers that are opened, out of some that are tried one after the other -/
def route : List Wrapper → Message β F V → List Wrapper
  | [], _ => []
  | w :: ws, m =>
    match m.inner w with
    | none => route ws m
    | some child => w :: route ws child

/-- the message that is reached -/
def innermost : List Wrapper → Message β F V → Message β F V
  | [], m => m
  | w :: ws, m => innermost ws ((m.inner w).getD m)

/-- an associated child is opened that is wrapped in a message with a context -/
def copies : List Wrapper → Message β F V → Bool
  | [], _ => false
  | w :: ws, m =>
    match m.inner w with
    | none => copies ws m
    | some child => (w = .associatedChild && m.context.isSome) || copies ws child

/-- the flags that are set -/
def flagsOf : List Wrapper → Message β F V → Flags
  | [], _ => {}
  | w :: ws, m =>
    match m.inner w with
    | none => flagsOf ws m
    | some child => (w.flags m).merge (flagsOf ws child)

theorem get_route (ws : List Wrapper) (m : Message β F V) : m.get (route ws m) = some (innermost ws m) := by
  induction ws generalizing m with
  | nil => rfl
  | cons w ws ih =>
    unfold route innermost
    cases h : m.inner w with
    | none => exact ih m
    | some child =>
      show (m.inner w).bind (Message.get (route ws child)) = some (innermost ws child)
      rw [h]
      exact ih child

/-- **The context at the end of the way.** When the context of the message that is reached is assigned, the same wrappers
are opened again, the same flags are set, and nothing is copied that was not copied before. -/
theorem route_setContext (ws : List Wrapper) (m : Message β F V) (ctx : ContextInfo F V) :
    route ws (m.setContext ctx (route ws m)) = route ws m ∧ flagsOf ws (m.setContext ctx (route ws m)) = flagsOf ws m ∧
      (copies ws m = false → copies ws (m.setContext ctx (route ws m)) = false) := by
  induction ws generalizing m with
  | nil => exact ⟨rfl, rfl, id⟩
  | cons w ws ih =>
    cases h : m.inner w with
    | none =>
      have hroute : route (w :: ws) m = route ws m := by rw [route, h]
      have hnone := m.inner_setContext_eq_none ctx (route ws m) w h
      rw [hroute]
      simp only [route, flagsOf, copies, h, hnone]
      exact ih m
    | some child =>
      have hroute : route (w :: ws) m = w :: route ws child := by rw [route, h]
      have hsome : (m.setContext ctx (w :: route ws child)).inner w = some (child.setContext ctx (route ws child)) := by
        rw [Message.inner_setContext_self, h, map_some]
      have hflags : w.flags (m.setContext ctx (w :: route ws child)) = w.flags m := by
        cases w <;> simp [Wrapper.flags]
      obtain ⟨hr, hf, hc⟩ := ih child
      rw [hroute]
      simp only [route, flagsOf, copies, h, hsome, hflags, hr, hf, Message.context_setContext_cons, Bool.or_eq_false_iff]
      exact ⟨trivial, trivial, fun hno => ⟨hno.1, hc hno.2⟩⟩

/-! ## The wrappers of an event -/

variable {evt : Event β F V} {m : Message β F V}

variable {w : Wrapper}

section

variable (hc : evt.content = some m)
include hc

theorem openWrapper_none (h : m.inner w = none) : openWrapper evt w = evt := by
  simp only [openWrapper, hc, h]

theorem openWrapper_some {child : Message β F V} (h : m.inner w = some child) :
    openWrapper evt w =
      { evt with
        message :=
          if w = .associatedChild then unwrapAssociatedChild child m.context evt.message else evt.message.enter w child
        flags := evt.flags.merge (w.flags m) } := by
  simp only [openWrapper, hc, h]

/-- a wrapper is opened without a copy -/
theorem openWrapper_enter {child : Message β F V} (h : m.inner w = some child)
    (hno : ¬(w = .associatedChild ∧ m.context.isSome = true)) :
    openWrapper evt w = { evt with message := evt.message.enter w child, flags := evt.flags.merge (w.flags m) } := by
  rw [openWrapper_some hc h]
  by_cases hw : w = .associatedChild
  · have hnone : m.context = none := by
      rw [← not_isSome_iff_eq_none]
      exact fun hsome => hno ⟨hw, hsome⟩
    rw [if_pos hw, hnone, hw]
    rfl
  · rw [if_neg hw]

theorem content_enter {child : Message β F V} (h : m.inner w = some child)
    (flags : Flags) : Event.content { evt with message := evt.message.enter w child, flags } = some child := by
  obtain ⟨raw, message, f⟩ := evt
  cases message with
  | raw path =>
    have hraw : raw.bind (Message.get path) = some m := hc
    obtain ⟨r, rfl, hr⟩ := bind_eq_some_iff.1 hraw
    show r.get (path ++ [w]) = some child
    rw [Message.get_append, hr]
    show (m.inner w).bind some = some child
    rw [h]
    rfl
  | own _ => rfl

end

/-- wrappers are opened inside the raw message as long as nothing is copied -/
theorem foldl_route (ws : List Wrapper) {path : List Wrapper} (href : evt.message = .raw path)
    (hc : evt.content = some m) (hno : copies ws m = false) :
    ws.foldl openWrapper evt =
      { evt with message := .raw (path ++ route ws m), flags := evt.flags.merge (flagsOf ws m) } := by
  induction ws generalizing evt m path with
  | nil =>
    obtain ⟨raw, message, flags⟩ := evt
    obtain rfl : message = .raw path := href
    simp [route, flagsOf, Flags.merge_empty]
  | cons w ws ih =>
    rw [List.foldl_cons]
    cases h : m.inner w with
    | none =>
      simp only [copies, h] at hno
      rw [openWrapper_none hc h, ih href hc hno]
      simp only [route, flagsOf, h]
    | some child =>
      simp only [copies, h, Bool.or_eq_false_iff] at hno
      have hplain : ¬(w = .associatedChild ∧ m.context.isSome = true) := by
        simpa using hno.1
      have henter : evt.message.enter w child = .raw (path ++ [w]) := by
        rw [href]
        rfl
      rw [openWrapper_enter hc h hplain, ih henter (content_enter hc h _) hno.2]
      simp only [route, flagsOf, h, Flags.merge_assoc, List.append_assoc, List.singleton_append]

theorem foldl_own (ws : List Wrapper) (hown : ∃ m, evt.message = .own m) :
    ∃ m, (ws.foldl openWrapper evt).message = .own m := by
  induction ws generalizing evt with
  | nil => exact hown
  | cons w ws ih =>
    obtain ⟨m, hm⟩ := hown
    have hc : evt.content = some m := by rw [Event.content, hm]
    refine ih ?_
    cases h : m.inner w with
    | none =>
      rw [openWrapper_none hc h]
      exact ⟨m, hm⟩
    | some child =>
      rw [openWrapper_some hc h]
      by_cases hw : w = .associatedChild
      · cases hctx : m.context <;> cases hchild : child.context <;>
          simp [hw, hm, hchild, unwrapAssociatedChild, Ref.enter]
      · simp [hw, hm, Ref.enter]

/-- once something is copied, the event has a message of its own -/
theorem foldl_copied (ws : List Wrapper) (hc : evt.content = some m) (hcopied : copies ws m = true) :
    ∃ m, (ws.foldl openWrapper evt).message = .own m := by
  induction ws generalizing evt m with
  | nil => simp [copies] at hcopied
  | cons w ws ih =>
    rw [List.foldl_cons]
    cases h : m.inner w with
    | none =>
      simp only [copies, h] at hcopied
      rw [openWrapper_none hc h]
      exact ih hc hcopied
    | some child =>
      simp only [copies, h, Bool.or_eq_true, Bool.and_eq_true, decide_eq_true_eq] at hcopied
      by_cases hw : w = .associatedChild ∧ m.context.isSome = true
      · obtain ⟨ctx, hctx⟩ := isSome_iff_exists.1 hw.2
        rw [openWrapper_some hc h]
        refine foldl_own ws ?_
        cases hchild : child.context <;> simp [hw.1, hctx, hchild, unwrapAssociatedChild]
      · rw [openWrapper_enter hc h hw]
        exact ih (content_enter hc h _) (hcopied.resolve_left hw)

theorem openWrapper_raw (evt : Event β F V) (w : Wrapper) : (openWrapper evt w).raw = evt.raw := by
  unfold openWrapper
  split
  · rfl
  · split <;> rfl

theorem foldl_raw (ws : List Wrapper) (evt : Event β F V) : (ws.foldl openWrapper evt).raw = evt.raw := by
  induction ws generalizing evt with
  | nil => rfl
  | cons w ws ih => rw [List.foldl_cons, ih, openWrapper_raw]

/-- the flags an event has do not decide what is opened -/
theorem openWrapper_flags (evt : Event β F V) (w : Wrapper) :
    ∃ g, ∀ f, openWrapper { evt with flags := f } w = { openWrapper evt w with flags := f.merge g } := by
  cases hc : evt.content with
  | none =>
    refine ⟨{}, fun f => ?_⟩
    have hc' : Event.content { evt with flags := f } = none := hc
    simp only [openWrapper, hc, hc', Flags.merge_empty]
  | some m =>
    cases h : m.inner w with
    | none =>
      refine ⟨{}, fun f => ?_⟩
      have hc' : Event.content { evt with flags := f } = some m := hc
      rw [openWrapper_none hc h, openWrapper_none hc' h, Flags.merge_empty]
    | some child =>
      refine ⟨w.flags m, fun f => ?_⟩
      have hc' : Event.content { evt with flags := f } = some m := hc
      rw [openWrapper_some hc h, openWrapper_some hc' h]

theorem foldl_flags (ws : List Wrapper) (evt : Event β F V) :
    ∃ g, ∀ f, ws.foldl openWrapper { evt with flags := f } = { ws.foldl openWrapper evt with flags := f.merge g } := by
  induction ws generalizing evt with
  | nil => exact ⟨{}, fun f => by rw [Flags.merge_empty]; rfl⟩
  | cons w ws ih =>
    obtain ⟨g, hg⟩ := openWrapper_flags evt w
    obtain ⟨g', hg'⟩ := ih (openWrapper evt w)
    refine ⟨g.merge g', fun f => ?_⟩
    rw [List.foldl_cons, List.foldl_cons, hg, hg', Flags.merge_assoc]

/-! ## The context in the end -/

theorem inheritContext_of_own (h : ∃ m, evt.message = .own m) : (inheritContext evt).raw = evt.raw := by
  obtain ⟨m, hm⟩ := h
  have hset : ∀ ctx, (evt.setContext ctx).raw = evt.raw := by
    intro ctx
    rw [Event.setContext, hm]
  unfold inheritContext
  split
  · split
    · exact hset _
    · rfl
  · rfl

theorem inheritContext_of_context (hc : evt.content = some m) (hctx : m.context ≠ none) : inheritContext evt = evt := by
  obtain ⟨ctx, hctx⟩ := ne_none_iff_exists'.1 hctx
  cases hraw : evt.raw <;> simp only [inheritContext, hc, hraw, hctx]

theorem inheritContext_of_none {raw : Message β F V} (hraw : evt.raw = some raw) (hctx : raw.context = none) :
    inheritContext evt = evt := by
  cases hc : evt.content with
  | none => simp only [inheritContext, hc, hraw]
  | some m => cases hm : m.context <;> simp only [inheritContext, hc, hraw, hctx, hm]

/-- the raw message keeps its context, or needs none -/
def Keeps (raw : Message β F V) : Prop :=
  raw.context = none ∨ copies order raw = true ∨ (innermost order raw).context ≠ none

theorem content_start {raw : Message β F V} (hraw : evt.raw = some raw) :
    Event.content { evt with message := .raw [] } = some raw := by
  show evt.raw.bind (Message.get []) = some raw
  rw [hraw]
  rfl

theorem unwrapRaw_eq_of_no_copy {raw : Message β F V} (hraw : evt.raw = some raw) (hno : copies order raw = false) :
    unwrapRaw evt = inheritContext
      { evt with message := .raw (route order raw), flags := evt.flags.merge (flagsOf order raw) } := by
  rw [unwrapRaw, foldl_route order rfl (content_start hraw) hno]
  rfl

theorem content_route {raw : Message β F V} (hraw : evt.raw = some raw) (flags : Flags) :
    Event.content { evt with message := .raw (route order raw), flags } = some (innermost order raw) := by
  show evt.raw.bind (Message.get (route order raw)) = some (innermost order raw)
  rw [hraw]
  exact get_route order raw

theorem unwrapRaw_keeps (h : ∀ raw, evt.raw = some raw → Keeps raw) : (unwrapRaw evt).raw = evt.raw := by
  cases hraw : evt.raw with
  | none =>
    have hfold : (order.foldl openWrapper { evt with message := .raw [] }).raw = none := by
      rw [foldl_raw]
      exact hraw
    rw [unwrapRaw, inheritContext, hfold]
    split
    · rename_i heq
      cases heq
    · exact hfold
  | some raw =>
    have hfold : (order.foldl openWrapper { evt with message := .raw [] }).raw = some raw := by
      rw [foldl_raw]
      exact hraw
    by_cases hcopied : copies order raw = true
    · rw [unwrapRaw, inheritContext_of_own (foldl_copied order (content_start hraw) hcopied), hfold]
    · rcases h raw hraw with hnone | hcopies | hsome
      · rw [unwrapRaw, inheritContext_of_none hfold hnone, hfold]
      · exact absurd hcopies hcopied
      · rw [unwrapRaw_eq_of_no_copy hraw (Bool.not_eq_true _ ▸ hcopied),
          inheritContext_of_context (content_route hraw _) hsome]
        exact hraw

/-- the context of the raw message is assigned inside the raw message -/
theorem unwrapRaw_writes {raw : Message β F V} (hraw : evt.raw = some raw) {ctx : ContextInfo F V}
    (hctx : raw.context = some ctx) (hno : copies order raw = false) (hnone : (innermost order raw).context = none) :
    unwrapRaw evt =
      { raw := some (raw.setContext ctx (route order raw)), message := .raw (route order raw),
        flags := evt.flags.merge (flagsOf order raw) } := by
  rw [unwrapRaw_eq_of_no_copy hraw hno, inheritContext, content_route hraw]
  simp only [hraw, hnone, hctx, Event.setContext, map_some]

theorem not_keeps {raw : Message β F V} (h : ¬Keeps raw) :
    ∃ ctx, raw.context = some ctx ∧ copies order raw = false ∧ (innermost order raw).context = none := by
  simp only [Keeps, not_or, not_not, Bool.not_eq_true] at h
  obtain ⟨ctx, hctx⟩ := ne_none_iff_exists'.1 h.1
  exact ⟨ctx, hctx, h.2⟩

theorem unwrapRaw_changes {raw : Message β F V} (hraw : evt.raw = some raw) (h : ¬Keeps raw) :
    (unwrapRaw evt).raw ≠ evt.raw := by
  obtain ⟨ctx, hctx, hno, hnone⟩ := not_keeps h
  rw [unwrapRaw_writes hraw hctx hno hnone, hraw]
  intro heq
  have hget := raw.get_setContext (route order raw) ctx
  rw [some.inj heq, get_route, map_some] at hget
  have hcontext := congrArg Message.context (some.inj hget)
  rw [hnone, Message.context_withContext] at hcontext
  cases hcontext

theorem inheritContext_flags (evt : Event β F V) : (inheritContext evt).flags = evt.flags := by
  unfold inheritContext Event.setContext
  split
  · split
    · split <;> rfl
    · rfl
  · rfl

/-- **A second call.** It changes nothing: not the raw message, not what the event points to, and not the flags. -/
theorem unwrapRaw_idem (evt : Event β F V) : unwrapRaw (unwrapRaw evt) = unwrapRaw evt := by
  by_cases hkeeps : ∀ raw, evt.raw = some raw → Keeps raw
  · -- the second call starts from the same raw message, with the flags of the first
    obtain ⟨g, hg⟩ := foldl_flags order { evt with message := .raw [] }
    have hfirst : order.foldl openWrapper { evt with message := .raw [] } =
        { order.foldl openWrapper { evt with message := .raw [] } with flags := evt.flags.merge g } := hg evt.flags
    have hflags : (unwrapRaw evt).flags = evt.flags.merge g := by
      rw [unwrapRaw, inheritContext_flags, hfirst]
    have hstart : ({ unwrapRaw evt with message := .raw [] } : Event β F V) =
        { evt with message := .raw [], flags := evt.flags.merge g } := by
      rw [← hflags, ← unwrapRaw_keeps hkeeps]
    calc unwrapRaw (unwrapRaw evt)
        = inheritContext (order.foldl openWrapper { evt with message := .raw [], flags := evt.flags.merge g }) := by
          rw [unwrapRaw, hstart]
      _ = inheritContext (order.foldl openWrapper { evt with message := .raw [] }) := by
          rw [hg, Flags.merge_merge_self, ← hfirst]
      _ = unwrapRaw evt := rfl
  · -- the context that was assigned is there for the second call, at the end of the same way
    obtain ⟨raw, hnot⟩ := not_forall.1 hkeeps
    obtain ⟨hraw, h⟩ := Classical.not_imp.1 hnot
    obtain ⟨ctx, hctx, hno, hnone⟩ := not_keeps h
    obtain ⟨hroute, hflags, hcopies⟩ := route_setContext order raw ctx
    have hinner : (innermost order (raw.setContext ctx (route order raw))).context ≠ none := by
      have hget := get_route order (raw.setContext ctx (route order raw))
      rw [hroute, Message.get_setContext, get_route, map_some] at hget
      rw [← some.inj hget, Message.context_withContext]
      exact some_ne_none _
    rw [unwrapRaw_writes hraw hctx hno hnone, unwrapRaw_eq_of_no_copy rfl (hcopies hno),
      inheritContext_of_context (content_route rfl _) hinner, hroute, hflags, Flags.merge_merge_self]

/-- **Raw messages that stay unmodified.** After `UnwrapRaw` the raw message is what it was before, and a second call gives
the same message and flags, iff the raw message has no context, or an associated child is opened that is wrapped in a message
with a context, or the innermost message has a context. -/
theorem raw_unmodified_iff (evt : Event β F V) :
    ((unwrapRaw evt).raw = evt.raw ∧ (unwrapRaw (unwrapRaw evt)).content = (unwrapRaw evt).content ∧
      (unwrapRaw (unwrapRaw evt)).flags = (unwrapRaw evt).flags) ↔
    ∀ raw, evt.raw = some raw →
      raw.context = none ∨ copies order raw = true ∨ (innermost order raw).context ≠ none := by
  rw [unwrapRaw_idem]
  constructor
  · rintro ⟨hsame, -⟩ raw hraw
    by_contra h
    exact unwrapRaw_changes hraw h hsame
  · intro h
    exact ⟨unwrapRaw_keeps h, rfl, rfl⟩

/-! ## Runs -/

/-- a message with the text as its body -/
def text (body : String) (context : Option (ContextInfo String String)) : Message String String String :=
  .mk body context ⟨"", ""⟩ fun _ => none

/-- a message that holds another one in a wrapper -/
def wrap (w : Wrapper) (context : Option (ContextInfo String String)) (m : Message String String String) :
    Message String String String :=
  .mk "" context ⟨"", ""⟩ fun v => if v = w then some (some m) else none

def secret (value : String) : ContextInfo String String := fun field =>
  if field = "messageSecret" then some value else none

def received (raw : Message String String String) : Event String String String where
  raw := some raw
  message := .raw []
  flags := {}

theorem raw_unmodified_iff_own_context :
    (unwrapRaw (received (wrap .ephemeral (some (secret "a")) (text "hello" (some (secret "b")))))).raw =
      some (wrap .ephemeral (some (secret "a")) (text "hello" (some (secret "b")))) := by
  refine ((raw_unmodified_iff (received (wrap .ephemeral (some (secret "a")) (text "hello" (some (secret "b")))))).2 ?_).1
  intro raw hraw
  rw [← some.inj hraw]
  exact .inr (.inr (some_ne_none _))

/-- **A context is written into the raw message.** The raw message has a context and holds a disappearing message without
one: after `UnwrapRaw` the message inside the raw message has the context of the raw message. -/
theorem ephemeral_written :
    ((received (wrap .ephemeral (some (secret "a")) (text "hello" none))).raw.bind (Message.get [.ephemeral])).bind
      Message.context = none ∧
    ((unwrapRaw (received (wrap .ephemeral (some (secret "a")) (text "hello" none)))).raw.bind
      (Message.get [.ephemeral])).bind Message.context = some (secret "a") ∧
    (unwrapRaw (received (wrap .ephemeral (some (secret "a")) (text "hello" none)))).raw ≠
      (received (wrap .ephemeral (some (secret "a")) (text "hello" none))).raw := by
  have hbefore : ((received (wrap .ephemeral (some (secret "a")) (text "hello" none))).raw.bind
      (Message.get [.ephemeral])).bind Message.context = none := rfl
  have hafter : ((unwrapRaw (received (wrap .ephemeral (some (secret "a")) (text "hello" none)))).raw.bind
      (Message.get [.ephemeral])).bind Message.context = some (secret "a") := rfl
  refine ⟨hbefore, hafter, fun heq => ?_⟩
  rw [heq, hbefore] at hafter
  cases hafter

end Hypermeow.Types.Unwrap
