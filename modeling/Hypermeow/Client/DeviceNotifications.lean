/-
Notifications about devices (`handleDeviceNotification`, `handleFBDeviceNotification`, `handleOwnDevicesNotification` of
`notification.go`, `participantListHashV2` of `send.go`).

The client caches the device lists of users. A device notification changes the lists of one user, that of its phone number
and that of its LID: each child adds or removes a device and announces the hashes of the new lists. A list that does not
have the announced hash is dropped. An `update` says only that something changed, and drops both lists.

Model: the loop works on copies of the two lists and puts them back after each child. The copies share their arrays with
the cached lists; a child that changes a copy also replaces or deletes the cached list, so that values are enough here.
SHA-256 is a parameter. Where the cache is full, `picks` says which entries go.

Results:
- `Follows`: what the children say about a cached list. It is absent, or untouched, or has the hash that the last `add` or
  `remove` announced; it is absent after an `update` that is not followed by one of these.
-/
import Hypermeow.Client.UserDevices
import Hypermeow.Lib.BoundedMap
import Hypermeow.Lib.Sort

namespace Hypermeow.Client.DeviceNotifications

open Lib Types Binary AList
open List hiding Vector

/-! ## Hashes of device lists -/

def base64Char (n : ℕ) : UInt8 :=
  (ascii "ABCDEFGHIJKLMNOPQRSTUVWXYZabcdefghijklmnopqrstuvwxyz0123456789+/").getD n 0

/-- `base64.RawStdEncoding` -/
def rawStdEncoding : Bytes → Bytes
  | [] => []
  | [a] => [base64Char (a.toNat / 4), base64Char (a.toNat % 4 * 16)]
  | [a, b] => [base64Char (a.toNat / 4), base64Char (a.toNat % 4 * 16 + b.toNat / 16), base64Char (b.toNat % 16 * 4)]
  | a :: b :: c :: rest =>
    base64Char (a.toNat / 4) :: base64Char (a.toNat % 4 * 16 + b.toNat / 16) ::
      base64Char (b.toNat % 16 * 4 + c.toNat / 64) :: base64Char (c.toNat % 64) :: rawStdEncoding rest

section

variable (sha256 : Bytes → Vector UInt8 32)

def participantListHashV2 (participants : List JID) : Bytes :=
  ascii "2:" ++ rawStdEncoding ((sha256 (sortBytes (participants.map adString)).flatten).toList.take 6)

/-! ## Model -/

/-- one child of a device notification -/
structure Change where
  tag : Bytes
  deviceHash : Bytes
  deviceLIDHash : Bytes
  changedDeviceJID : JID
  changedDeviceLID : Option JID
deriving DecidableEq

/-- a child without a `<device>` is its own device node -/
def readChange (child : Node) : Change :=
  let deviceChild := child.getChildByTag [ascii "device"]
  { tag := child.tag
    deviceHash := (Attrs.getString child.attrs (ascii "device_hash")).getD []
    deviceLIDHash := (Attrs.getString child.attrs (ascii "device_lid_hash")).getD []
    changedDeviceJID := (Attrs.getJID deviceChild.attrs (ascii "jid")).getD emptyJID
    changedDeviceLID := Attrs.getJID deviceChild.attrs (ascii "lid") }

def Change.isAdd (c : Change) : Bool := c.tag = ascii "add"
def Change.isRemove (c : Change) : Bool := c.tag = ascii "remove"
def Change.isUpdate (c : Change) : Bool := c.tag = ascii "update"

/-- the cache and the variables of the loop -/
structure DeviceLists where
  cache : UserDevicesCache
  cached : DeviceCache
  cachedLID : DeviceCache
  hasCachedLID : Bool
  /-- which entries a full cache loses next -/
  picks : List ℕ

/-- the users of the notification, and whether the list of the first is cached -/
structure Users where
  fromJID : JID
  fromLID : Option JID
  hasCachedPN : Bool

def putList (key : JID) (list : DeviceCache) (s : DeviceLists) : DeviceLists :=
  { s with
    cache := GoMap.putBounded maxUserDeviceCacheEntries (s.picks.headD 0) s.cache key list
    picks := s.picks.tail }

def deleteList (key : JID) (s : DeviceLists) : DeviceLists := { s with cache := s.cache.erase key }

/-- puts a list that has the announced hash, deletes it otherwise -/
def checkList (key : JID) (list : DeviceCache) (announced : Bytes) (s : DeviceLists) : DeviceLists :=
  if participantListHashV2 sha256 list.devices = announced then putList key list s else deleteList key s

/-- the list of the LID goes when the child does not say what becomes of it -/
def dropUnannounced (u : Users) (c : Change) (s : DeviceLists) : DeviceLists :=
  match u.fromLID with
  | some lid =>
    if s.hasCachedLID ∧ (c.changedDeviceLID = none ∨ c.deviceLIDHash = []) then
      { deleteList lid s with hasCachedLID := false }
    else s
  | none => s

/-- both copies with the device added or removed -/
def editLists (op : JID → List JID → List JID) (u : Users) (c : Change) (s : DeviceLists) : DeviceLists :=
  { s with
    cached :=
      if u.hasCachedPN then { s.cached with devices := op c.changedDeviceJID s.cached.devices } else s.cached
    cachedLID :=
      match c.changedDeviceLID with
      | some lid => if s.hasCachedLID then { s.cachedLID with devices := op lid s.cachedLID.devices } else s.cachedLID
      | none => s.cachedLID }

def checkPN (u : Users) (c : Change) (s : DeviceLists) : DeviceLists :=
  if u.hasCachedPN then checkList sha256 u.fromJID s.cached c.deviceHash s else s

def checkLID (u : Users) (c : Change) (s : DeviceLists) : DeviceLists :=
  match u.fromLID with
  | some lid =>
    if s.hasCachedLID ∧ c.changedDeviceLID ≠ none ∧ c.deviceLIDHash ≠ [] then
      checkList sha256 lid s.cachedLID c.deviceLIDHash s
    else s
  | none => s

def changeLists (op : JID → List JID → List JID) (u : Users) (s : DeviceLists) (c : Change) : DeviceLists :=
  checkLID sha256 u c (checkPN sha256 u c (editLists op u c (dropUnannounced u c s)))

def deleteBoth (u : Users) (s : DeviceLists) : DeviceLists :=
  match u.fromLID with
  | some lid => deleteList lid (deleteList u.fromJID s)
  | none => deleteList u.fromJID s

/-- one iteration -/
def handleChange (u : Users) (s : DeviceLists) (c : Change) : DeviceLists :=
  if c.isAdd then changeLists sha256 (fun device devices => devices ++ [device]) u s c
  else if c.isRemove then
    changeLists sha256 (fun device devices => devices.filter fun existing => existing ≠ device) u s c
  else if c.isUpdate then deleteBoth u s
  else s

def noDevices : DeviceCache := ⟨[], []⟩

def fromJID (node : Node) : JID := (Attrs.getJID node.attrs (ascii "from")).getD emptyJID

def fromLID (node : Node) : Option JID := Attrs.getJID node.attrs (ascii "lid")

def changes (node : Node) : List Change := node.getChildren.map readChange

def usersOf (node : Node) (cache : UserDevicesCache) : Users :=
  ⟨fromJID node, fromLID node, (cache.lookup (fromJID node)).isSome⟩

/-- the lists before the loop -/
def startLists (node : Node) (picks : List ℕ) (cache : UserDevicesCache) : DeviceLists :=
  let cachedLID := (fromLID node).bind cache.lookup
  ⟨cache, (cache.lookup (fromJID node)).getD noDevices, cachedLID.getD noDevices, cachedLID.isSome, picks⟩

def handleDeviceNotification (node : Node) (picks : List ℕ) (cache : UserDevicesCache) : UserDevicesCache :=
  let s := startLists node picks cache
  let u := usersOf node cache
  if ¬u.hasCachedPN ∧ ¬s.hasCachedLID then cache
  else ((changes node).foldl (handleChange sha256 u) s).cache

/-! ## What the children say -/

/-- `add` or `remove` -/
def Change.isListChange (c : Change) : Bool := c.isAdd || c.isRemove

/-- `add`, `remove` or `update` -/
def Change.touches (c : Change) : Bool := c.isListChange || c.isUpdate

/-- a cached list before and after the children; `announced` is the hash that a child announces for it -/
structure Follows (announced : Change → Bytes) (children : List Change) (before after : Option DeviceCache) : Prop where
  entry : after = none ∨ ((∀ c ∈ children, ¬c.touches) ∧ after = before) ∨
    ∃ list c, after = some list ∧ (children.filter Change.isListChange).getLast? = some c ∧
      participantListHashV2 sha256 list.devices = announced c
  updated : ∀ earlier c later, children = earlier ++ c :: later → c.isUpdate → (∀ d ∈ later, ¬d.isListChange) →
    after = none

variable {sha256} {announced : Change → Bytes} {u : Users} {s s' : DeviceLists} {c : Change} {cs : List Change}
  {before after : Option DeviceCache} {key other : JID}

variable (sha256) in
/-- what a child may leave: nothing, or a list with the hash that it announces -/
def Checked (announced : Change → Bytes) (c : Change) (after : Option DeviceCache) : Prop :=
  after = none ∨ c.isListChange ∧ ∃ list, after = some list ∧ participantListHashV2 sha256 list.devices = announced c

variable (sha256) in
/-- the last child that touches the lists decides -/
def Tracks (announced : Change → Bytes) (cs : List Change) (before after : Option DeviceCache) : Prop :=
  match (cs.filter Change.touches).getLast? with
  | none => after = before
  | some c => Checked sha256 announced c after

theorem not_isListChange (hc : c.isUpdate) : ¬c.isListChange := by
  unfold Change.isListChange Change.isAdd Change.isRemove
  rw [of_decide_eq_true hc]
  decide

theorem Tracks.snoc_other (h : Tracks sha256 announced cs before after) (hc : ¬c.touches) :
    Tracks sha256 announced (cs ++ [c]) before after := by
  unfold Tracks
  rw [filter_append, filter_cons_of_neg hc, filter_nil, append_nil]
  exact h

theorem Tracks.snoc_touch (hc : c.touches) (h : Checked sha256 announced c after) :
    Tracks sha256 announced (cs ++ [c]) before after := by
  unfold Tracks
  rw [filter_append, filter_cons_of_pos hc, filter_nil, getLast?_concat]
  exact h

/-- the last of the children that satisfy `q`, if it also satisfies `p` -/
theorem getLast?_filter_of_last {p q : Change → Bool} (hpq : ∀ d, p d → q d) (hlast : (cs.filter q).getLast? = some c)
    (hc : p c) : (cs.filter p).getLast? = some c := by
  obtain ⟨front, hfront⟩ := getLast?_eq_some_iff.1 hlast
  have hfilter : cs.filter p = (cs.filter q).filter p := by
    rw [filter_filter]
    refine filter_congr fun d _ => ?_
    have := hpq d
    cases hp : p d <;> cases hq : q d <;> simp_all
  rw [hfilter, hfront, filter_append, filter_cons_of_pos hc, filter_nil, getLast?_concat]

theorem Tracks.follows (h : Tracks sha256 announced cs before after) : Follows sha256 announced cs before after := by
  unfold Tracks at h
  constructor
  · cases hlast : (cs.filter Change.touches).getLast? with
    | none =>
      rw [hlast] at h
      rw [getLast?_eq_none_iff] at hlast
      exact .inr (.inl ⟨fun c hc => filter_eq_nil_iff.1 hlast c hc, h⟩)
    | some c =>
      rw [hlast] at h
      rcases h with h | ⟨hc, list, hlist, hhash⟩
      · exact .inl h
      · refine .inr (.inr ⟨list, c, hlist, ?_, hhash⟩)
        exact getLast?_filter_of_last (fun d hd => by rw [Change.touches, hd]; rfl) hlast hc
  · rintro earlier c later rfl hc hlater
    have htouch : c.touches = true := by rw [Change.touches, hc, Bool.or_true]
    -- the last child that touches the lists is the update or comes after it
    obtain ⟨d, hd⟩ := Option.isSome_iff_exists.1 (getLast?_isSome.2 (cons_ne_nil c (later.filter Change.touches)))
    rw [filter_append, filter_cons_of_pos htouch, getLast?_append, hd, Option.some_or] at h
    rcases h with h | ⟨hlist, -⟩
    · exact h
    · rcases mem_cons.1 (mem_of_getLast? hd) with rfl | hmem
      · exact absurd hlist (not_isListChange hc)
      · exact absurd hlist (hlater d (mem_of_mem_filter hmem))

theorem follows_absent (h : after = none) : Follows sha256 announced cs before after :=
  ⟨.inl h, fun _ _ _ _ _ _ => h⟩

/-! ## One child -/

/-- an entry that stays or goes -/
def Fades (before after : Option DeviceCache) : Prop := after = none ∨ after = before

theorem Checked.fade (h : Checked sha256 announced c before) (hf : Fades before after) :
    Checked sha256 announced c after := by
  rcases hf with rfl | rfl
  · exact .inl rfl
  · exact h

theorem Fades.absent (hf : Fades before after) (h : before = none) : after = none := by
  rcases hf with hf | hf
  · exact hf
  · exact hf.trans h

/-- the list is put if it has the announced hash, and is gone otherwise -/
theorem lookup_checkList (sha256 : Bytes → Vector UInt8 32) (key : JID) (list : DeviceCache) (hash : Bytes) (s : DeviceLists) :
    (checkList sha256 key list hash s).cache.lookup key = none ∨
      (checkList sha256 key list hash s).cache.lookup key = some list ∧ participantListHashV2 sha256 list.devices = hash := by
  unfold checkList
  split_ifs with hhash
  · obtain ⟨m, -, hput⟩ := GoMap.putBounded_eq maxUserDeviceCacheEntries (s.picks.headD 0) s.cache key list
    refine .inr ⟨?_, hhash⟩
    rw [putList, hput, lookup_insert]
  · exact .inl (lookup_erase key s.cache)

theorem fades_checkList {list : DeviceCache} {hash : Bytes} (h : other ≠ key) :
    Fades (s.cache.lookup other) ((checkList sha256 key list hash s).cache.lookup other) := by
  unfold checkList
  split_ifs
  · cases hl : (putList key list s).cache.lookup other with
    | none => exact .inl rfl
    | some old =>
      rcases GoMap.lookup_putBounded hl with ⟨hk, -⟩ | ⟨-, hold⟩
      · exact absurd hk h
      · exact .inr hold.symm
  · exact .inr (lookup_erase_ne h)

theorem hasCachedLID_checkList (key : JID) (list : DeviceCache) (hash : Bytes) (s : DeviceLists) :
    (checkList sha256 key list hash s).hasCachedLID = s.hasCachedLID := by
  unfold checkList
  split_ifs <;> rfl

section

variable {op : JID → List JID → List JID}

/-- the users of the notification are two -/
def Users.Distinct (u : Users) : Prop := ∀ lid, u.fromLID = some lid → lid ≠ u.fromJID

/-- a list that is not cached is absent -/
def PNKnown (u : Users) (s : DeviceLists) : Prop := u.hasCachedPN = false → s.cache.lookup u.fromJID = none

def LIDKnown (lid : JID) (s : DeviceLists) : Prop := s.hasCachedLID = false → s.cache.lookup lid = none

theorem lookup_dropUnannounced (hu : u.Distinct) (c : Change) (s : DeviceLists) :
    (dropUnannounced u c s).cache.lookup u.fromJID = s.cache.lookup u.fromJID := by
  unfold dropUnannounced
  split
  · rename_i lid hlid
    split_ifs
    · exact lookup_erase_ne (hu lid hlid).symm
    · rfl
  · rfl

variable {lid : JID}

/-- after the list of the LID was dropped or kept: if it is still cached, the child says what becomes of it -/
theorem dropUnannounced_lid (hlid : u.fromLID = some lid) (hs : LIDKnown lid s) :
    LIDKnown lid (dropUnannounced u c s) ∧
      ((dropUnannounced u c s).hasCachedLID = true → c.changedDeviceLID ≠ none ∧ c.deviceLIDHash ≠ []) := by
  unfold dropUnannounced
  rw [hlid]
  dsimp only
  split_ifs with hdrop
  · exact ⟨fun _ => lookup_erase lid s.cache, fun h => h.elim⟩
  · refine ⟨hs, fun h => ?_⟩
    rw [not_and, not_or] at hdrop
    exact hdrop h

theorem fades_checkPN (h : other ≠ u.fromJID) : Fades (s.cache.lookup other) ((checkPN sha256 u c s).cache.lookup other) := by
  unfold checkPN
  split_ifs
  · exact fades_checkList h
  · exact .inr rfl

theorem hasCachedLID_checkPN (u : Users) (c : Change) (s : DeviceLists) :
    (checkPN sha256 u c s).hasCachedLID = s.hasCachedLID := by
  unfold checkPN
  split_ifs
  · exact hasCachedLID_checkList ..
  · rfl

theorem fades_checkLID (sha256 : Bytes → Vector UInt8 32) (c : Change) (s : DeviceLists) (hu : u.Distinct) :
    Fades (s.cache.lookup u.fromJID) ((checkLID sha256 u c s).cache.lookup u.fromJID) := by
  unfold checkLID
  split
  · rename_i lid hlid
    split_ifs
    · exact fades_checkList (hu lid hlid).symm
    · exact .inr rfl
  · exact .inr rfl

theorem changeLists_pn (hu : u.Distinct) (hs : PNKnown u s) (hc : c.isListChange) :
    Checked sha256 Change.deviceHash c ((changeLists sha256 op u s c).cache.lookup u.fromJID) ∧
      PNKnown u (changeLists sha256 op u s c) := by
  have hedit : (editLists op u c (dropUnannounced u c s)).cache.lookup u.fromJID = s.cache.lookup u.fromJID :=
    lookup_dropUnannounced hu c s
  unfold changeLists PNKnown
  generalize editLists op u c (dropUnannounced u c s) = t at hedit
  have hlid := fades_checkLID sha256 c (checkPN sha256 u c t) hu
  cases hpn : u.hasCachedPN with
  | true =>
    have hcheck : checkPN sha256 u c t = checkList sha256 u.fromJID t.cached c.deviceHash t := by
      rw [checkPN, if_pos hpn]
    refine ⟨Checked.fade ?_ hlid, fun h => Bool.noConfusion h⟩
    rw [hcheck]
    rcases lookup_checkList sha256 u.fromJID t.cached c.deviceHash t with h | ⟨h, hhash⟩
    · exact .inl h
    · exact .inr ⟨hc, t.cached, h, hhash⟩
  | false =>
    have hcheck : checkPN sha256 u c t = t := by
      rw [checkPN, hpn]
      rfl
    have habsent := hlid.absent (by rw [hcheck, hedit]; exact hs hpn)
    exact ⟨.inl habsent, fun _ => habsent⟩

theorem changeLists_lid (hu : u.Distinct) (hlid : u.fromLID = some lid) (hs : LIDKnown lid s) (hc : c.isListChange) :
    Checked sha256 Change.deviceLIDHash c ((changeLists sha256 op u s c).cache.lookup lid) ∧
      LIDKnown lid (changeLists sha256 op u s c) := by
  obtain ⟨hknown, hsaid⟩ := dropUnannounced_lid (c := c) hlid hs
  have hflag : (checkPN sha256 u c (editLists op u c (dropUnannounced u c s))).hasCachedLID =
      (dropUnannounced u c s).hasCachedLID := hasCachedLID_checkPN ..
  have hfade : Fades ((dropUnannounced u c s).cache.lookup lid)
      ((checkPN sha256 u c (editLists op u c (dropUnannounced u c s))).cache.lookup lid) :=
    fades_checkPN (hu lid hlid)
  unfold changeLists
  generalize checkPN sha256 u c (editLists op u c (dropUnannounced u c s)) = t at hflag hfade
  unfold checkLID LIDKnown
  rw [hlid]
  dsimp only
  split_ifs with hif
  · rw [hasCachedLID_checkList]
    refine ⟨?_, fun h => absurd hif.1 (by rw [h]; exact Bool.false_ne_true)⟩
    rcases lookup_checkList sha256 lid t.cachedLID c.deviceLIDHash t with h | ⟨h, hhash⟩
    · exact .inl h
    · exact .inr ⟨hc, t.cachedLID, h, hhash⟩
  · have hoff : t.hasCachedLID = false := by
      rw [Bool.eq_false_iff]
      intro hon
      exact hif ⟨hon, hsaid (hflag ▸ hon)⟩
    have habsent := hfade.absent (hknown (hflag ▸ hoff))
    exact ⟨.inl habsent, fun _ => habsent⟩

/-- `add` and `remove` run the same code on the lists -/
theorem handleChange_cases (sha256 : Bytes → Vector UInt8 32) (u : Users) (s : DeviceLists) (c : Change) :
    (c.isListChange ∧ ∃ op, handleChange sha256 u s c = changeLists sha256 op u s c) ∨
      (c.isUpdate ∧ handleChange sha256 u s c = deleteBoth u s) ∨ (¬c.touches ∧ handleChange sha256 u s c = s) := by
  unfold handleChange Change.touches Change.isListChange
  split_ifs with hadd hremove hupdate
  · exact .inl ⟨by rw [hadd]; rfl, _, rfl⟩
  · exact .inl ⟨by rw [hremove, Bool.or_true], _, rfl⟩
  · exact .inr (.inl ⟨hupdate, rfl⟩)
  · exact .inr (.inr ⟨by simp [hadd, hremove, hupdate], rfl⟩)

theorem deleteBoth_pn (hu : u.Distinct) (s : DeviceLists) : (deleteBoth u s).cache.lookup u.fromJID = none := by
  unfold deleteBoth
  split
  · rename_i lid hlid
    exact (lookup_erase_ne (hu lid hlid).symm).trans (lookup_erase u.fromJID s.cache)
  · exact lookup_erase u.fromJID s.cache

theorem deleteBoth_lid (hlid : u.fromLID = some lid) (s : DeviceLists) :
    (deleteBoth u s).cache.lookup lid = none := by
  unfold deleteBoth
  rw [hlid]
  exact lookup_erase lid _

/-! ## All children -/

variable (sha256) in
/-- both lists after some children -/
structure Inv (u : Users) (start : DeviceLists) (cs : List Change) (s : DeviceLists) : Prop where
  pn : Tracks sha256 Change.deviceHash cs (start.cache.lookup u.fromJID) (s.cache.lookup u.fromJID)
  pnKnown : PNKnown u s
  lid : ∀ lid, u.fromLID = some lid → Tracks sha256 Change.deviceLIDHash cs (start.cache.lookup lid) (s.cache.lookup lid)
  lidKnown : ∀ lid, u.fromLID = some lid → LIDKnown lid s

theorem handleChange_inv {start : DeviceLists} (hu : u.Distinct) (h : Inv sha256 u start cs s) (c : Change) :
    Inv sha256 u start (cs ++ [c]) (handleChange sha256 u s c) := by
  rcases handleChange_cases sha256 u s c with ⟨hc, op, hrun⟩ | ⟨hc, hrun⟩ | ⟨hc, hrun⟩ <;> rw [hrun]
  · have htouch : c.touches = true := by rw [Change.touches, hc, Bool.true_or]
    exact {
      pn := .snoc_touch htouch (changeLists_pn hu h.pnKnown hc).1
      pnKnown := (changeLists_pn hu h.pnKnown hc).2
      lid := fun lid hlid => .snoc_touch htouch (changeLists_lid hu hlid (h.lidKnown lid hlid) hc).1
      lidKnown := fun lid hlid => (changeLists_lid hu hlid (h.lidKnown lid hlid) hc).2 }
  · have htouch : c.touches = true := by rw [Change.touches, hc, Bool.or_true]
    exact {
      pn := .snoc_touch htouch (.inl (deleteBoth_pn hu s))
      pnKnown := fun _ => deleteBoth_pn hu s
      lid := fun lid hlid => .snoc_touch htouch (.inl (deleteBoth_lid hlid s))
      lidKnown := fun lid hlid _ => deleteBoth_lid hlid s }
  · exact {
      pn := h.pn.snoc_other hc
      pnKnown := h.pnKnown
      lid := fun lid hlid => (h.lid lid hlid).snoc_other hc
      lidKnown := h.lidKnown }

theorem foldl_inv (hu : u.Distinct) (h : Inv sha256 u s [] s) (cs : List Change) :
    Inv sha256 u s cs (cs.foldl (handleChange sha256 u) s) := by
  induction cs using List.reverseRecOn with
  | nil => exact h
  | append_singleton cs c ih =>
    rw [foldl_append]
    exact handleChange_inv hu ih c

/-- the variables of the loop are set from the cache -/
theorem startLists_inv (sha256 : Bytes → Vector UInt8 32) (node : Node) (picks : List ℕ) (cache : UserDevicesCache) :
    Inv sha256 (usersOf node cache) (startLists node picks cache) [] (startLists node picks cache) where
  pn := rfl
  pnKnown h := by
    rw [usersOf, Option.isSome_eq_false_iff, Option.isNone_iff_eq_none] at h
    exact h
  lid _ _ := rfl
  lidKnown lid hlid h := by
    have hlid' : fromLID node = some lid := hlid
    simp only [startLists, hlid', Option.bind_some, Option.isSome_eq_false_iff, Option.isNone_iff_eq_none] at h
    exact h

end

/-- **Device cache matches announced hashes.** For every cache, every notification whose LID is another JID than its sender
and every choice of evicted entries, the cached lists of the sender and of its LID follow the children. -/
theorem device_cache_follows_hashes (sha256 : Bytes → Vector UInt8 32) (node : Node) (picks : List ℕ)
    (cache : UserDevicesCache) (hdistinct : ∀ lid, fromLID node = some lid → lid ≠ fromJID node) :
    Follows sha256 Change.deviceHash (changes node) (cache.lookup (fromJID node))
        ((handleDeviceNotification sha256 node picks cache).lookup (fromJID node)) ∧
      ∀ lid, fromLID node = some lid →
        Follows sha256 Change.deviceLIDHash (changes node) (cache.lookup lid)
          ((handleDeviceNotification sha256 node picks cache).lookup lid) := by
  have hstart := startLists_inv sha256 node picks cache
  by_cases hcached : ¬(usersOf node cache).hasCachedPN ∧ ¬(startLists node picks cache).hasCachedLID
  · have hrun : handleDeviceNotification sha256 node picks cache = cache := if_pos hcached
    rw [hrun]
    refine ⟨follows_absent ?_, fun lid hlid => follows_absent ?_⟩
    · exact hstart.pnKnown (Bool.eq_false_iff.2 hcached.1)
    · exact hstart.lidKnown lid hlid (Bool.eq_false_iff.2 hcached.2)
  · have hrun : handleDeviceNotification sha256 node picks cache =
        ((changes node).foldl (handleChange sha256 (usersOf node cache)) (startLists node picks cache)).cache :=
      if_neg hcached
    have hu : (usersOf node cache).Distinct := hdistinct
    have hinv := foldl_inv hu hstart (changes node)
    rw [hrun]
    exact ⟨hinv.pn.follows, fun lid hlid => (hinv.lid lid hlid).follows⟩

end

/-- a hash function for examples -/
def zeroHash (_ : Bytes) : Vector UInt8 32 := Vector.replicate 32 0

def exampleUser : JID := newJID (ascii "12") defaultUserServer

def exampleLID : JID := newJID (ascii "3") hiddenUserServer

/-- a second device of a user whose two lists are cached; there is no hash for the list of the LID -/
def addedDevice : Node :=
  ⟨ascii "notification", some [(ascii "from", .jid exampleUser), (ascii "lid", .jid exampleLID)],
    .nodes [⟨ascii "add", some [(ascii "device_hash", .string (ascii "2:AAAAAAAA"))],
      .nodes [⟨ascii "device", some [(ascii "jid", .jid { exampleUser with device := 5 })], .nil⟩]⟩]⟩

def exampleCache : UserDevicesCache :=
  (AList.singleton exampleUser ⟨[exampleUser], []⟩).insert exampleLID ⟨[exampleLID], []⟩

theorem device_cache_follows_hashes_added :
    (Follows zeroHash Change.deviceHash (changes addedDevice) (exampleCache.lookup exampleUser)
        ((handleDeviceNotification zeroHash addedDevice [] exampleCache).lookup exampleUser) ∧
      Follows zeroHash Change.deviceLIDHash (changes addedDevice) (exampleCache.lookup exampleLID)
        ((handleDeviceNotification zeroHash addedDevice [] exampleCache).lookup exampleLID)) ∧
    (handleDeviceNotification zeroHash addedDevice [] exampleCache).lookup exampleUser =
      some ⟨[exampleUser, { exampleUser with device := 5 }], []⟩ ∧
    (handleDeviceNotification zeroHash addedDevice [] exampleCache).lookup exampleLID = none := by
  have hdistinct : ∀ lid, fromLID addedDevice = some lid → lid ≠ fromJID addedDevice := by
    intro lid hlid
    have hlid' : fromLID addedDevice = some exampleLID := by decide +kernel
    rw [hlid'] at hlid
    cases hlid
    decide +kernel
  have hfollows := device_cache_follows_hashes zeroHash addedDevice [] exampleCache hdistinct
  exact ⟨⟨hfollows.1, hfollows.2 exampleLID (by decide +kernel)⟩, by decide +kernel, by decide +kernel⟩

/-! ## Own devices and Messenger users -/

def handleFBDeviceNotification (node : Node) (first : ℕ) (cache : UserDevicesCache) : UserDevicesCache :=
  GoMap.putBounded maxUserDeviceCacheEntries first cache (fromJID node)
    (parseFBDeviceList (fromJID node) (node.getChildByTag [ascii "devices"]))

/-- the devices of an own device list -/
def ownDeviceList (node : Node) : List JID :=
  node.getChildren.filterMap fun child =>
    let jid := (Attrs.getJID child.attrs (ascii "jid")).getD emptyJID
    if child.tag = ascii "device" ∧ ¬jid.isEmpty then some jid else none

/-- the other one of the two own JIDs; none for a sender that is neither -/
def altJID (ownID ownLID sender : JID) : Option JID :=
  if sender = ownID then some ownLID else if sender = ownLID then some ownID else none

section

variable (sha256 : Bytes → Vector UInt8 32)

/-- the lists for both JIDs, or none if the hash is another one -/
def storeOwnDevices (ownID ownLID sender alt : JID) (node : Node) (first first' : ℕ) (cache : UserDevicesCache) :
    UserDevicesCache :=
  let devices := ownDeviceList node
  let altDevices := devices.map fun jid => { alt with device := jid.device }
  let expectedNewHash := (Attrs.getString node.attrs (ascii "dhash")).getD []
  if participantListHashV2 sha256 devices ≠ expectedNewHash then (cache.erase ownID).erase ownLID
  else
    GoMap.putBounded maxUserDeviceCacheEntries first'
      (GoMap.putBounded maxUserDeviceCacheEntries first cache sender ⟨devices, expectedNewHash⟩)
      alt ⟨altDevices, participantListHashV2 sha256 altDevices⟩

def handleOwnDevicesNotification (ownID ownLID : JID) (node : Node) (sender : JID) (first first' : ℕ)
    (cache : UserDevicesCache) : UserDevicesCache :=
  if ownID.toNonAD.isEmpty then cache
  else
    match altJID ownID.toNonAD ownLID.toNonAD sender.toNonAD with
    | none => cache
    | some alt => storeOwnDevices sha256 ownID.toNonAD ownLID.toNonAD sender.toNonAD alt node first first' cache

end

end Hypermeow.Client.DeviceNotifications
