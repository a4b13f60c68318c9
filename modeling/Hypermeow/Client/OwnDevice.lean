/-
Whether `GetUserDevices` returns the client's own device (`user.go`).

The server has a device list for every user; bots have none and stand for themselves. The documentation of `GetUserDevices`
promises all devices of the users except the local one. The code merges cached, fetched and Messenger lists and removes
nothing, so that the promise is kept by the users that are asked for: it fails as soon as the own user is among them and
its list has this device.

Model: `UserDevices`. The lists of the server are a function `listed`; the cache agrees with it, and so do the answers as
far as the users are concerned that were asked for. An answer may have other users as well, whose devices are stray.

Results:
- `getUserDevices_run`, `fetched_iff`: the returned list has the devices of the users and the stray ones.
-/
import Hypermeow.Client.UserDevices

namespace Hypermeow.Client.OwnDevice

open Lib Types Binary Go List AList

/-! ## Both queries -/

variable {α : Type} {env : DeviceEnv} {cache : UserDevicesCache} {jids : List JID} {device : JID}

theorem flatten_toChunks_go (n : ℕ) (xs : List α) (acc : Array α) (done : Array (List α)) :
    (List.toChunks.go n xs acc done).flatten = done.toList.flatten ++ acc.toList ++ xs := by
  induction xs generalizing acc done with
  | nil => simp [List.toChunks.go]
  | cons x xs ih =>
    unfold List.toChunks.go
    split_ifs
    · rw [ih]
      simp
    · rw [ih]
      simp

/-- chunks of a positive size have all elements -/
theorem flatten_toChunks (n : ℕ) (xs : List α) : (xs.toChunks (n + 1)).flatten = xs := by
  cases xs with
  | nil =>
    rw [List.toChunks]
    rfl
  | cons x xs =>
    rw [List.toChunks]
    · exact flatten_toChunks_go (n + 1) xs #[x] #[]
    · exact Nat.succ_ne_zero n

theorem syncDevices_run (cache : UserDevicesCache) (h : jids ≠ [] → ∃ list, usync env jids = .ok list) :
    ∃ devices cache', syncDevices env jids cache = (.ok devices, cache') ∧
      ∀ device, device ∈ devices ↔ jids ≠ [] ∧ ∃ list, usync env jids = .ok list ∧
        ∃ entry ∈ userEntries (usyncEntry env) list, device ∈ entry.2.devices := by
  by_cases hne : jids = []
  · refine ⟨[], cache, ?_, ?_⟩
    · rw [hne]
      rfl
    · simp [hne]
  · obtain ⟨list, hlist⟩ := h hne
    refine ⟨(userEntries (usyncEntry env) list).flatMap fun e => e.2.devices,
      (storeEntries env (userEntries (usyncEntry env) list) cache).2, ?_, fun device => ?_⟩
    · rw [syncDevices, if_pos (length_pos_iff.2 hne), hlist]
      rfl
    · simp [hne, hlist]

theorem getFBIDDevices_run {chunks : List (List JID)} (cache : UserDevicesCache)
    (h : ∀ chunk ∈ chunks, ∃ list, getFBIDDevicesInternal env chunk = .ok list) :
    ∃ devices cache', getFBIDDevices env chunks cache = (.ok devices, cache') ∧
      ∀ device, device ∈ devices ↔ ∃ chunk ∈ chunks, ∃ list, getFBIDDevicesInternal env chunk = .ok list ∧
        ∃ entry ∈ userEntries parseFBDeviceList list, device ∈ entry.2.devices := by
  induction chunks generalizing cache with
  | nil => exact ⟨[], cache, rfl, by simp⟩
  | cons chunk chunks ih =>
    obtain ⟨list, hlist⟩ := h chunk mem_cons_self
    obtain ⟨rest, cache', hrest, hmem⟩ := ih (storeEntries env (userEntries parseFBDeviceList list) cache).2
      fun c hc => h c (mem_cons_of_mem chunk hc)
    refine ⟨((userEntries parseFBDeviceList list).flatMap fun e => e.2.devices) ++ rest, cache', ?_, fun device => ?_⟩
    · have hstore : storeEntries env (userEntries parseFBDeviceList list) cache =
          (.ok ((userEntries parseFBDeviceList list).flatMap fun e => e.2.devices),
            (storeEntries env (userEntries parseFBDeviceList list) cache).2) := rfl
      rw [getFBIDDevices, hlist]
      exact (bind_ok hstore).trans (bind_ok hrest)
    · simp [hmem, hlist]

/-! ## The lists of the server -/

/-- what the server has for a user; bots stand for themselves -/
def serverDevices (listed : JID → List JID) (jid : JID) : List JID := if jid.isBot then [jid] else listed jid

/-- a cached list that is used has the devices of its user -/
def CacheConsistent (listed : JID → List JID) (cache : UserDevicesCache) : Prop :=
  ∀ jid devices, cachedDevices cache jid = some devices → ∀ device, device ∈ devices ↔ device ∈ serverDevices listed jid

/-- the entries of an answer for the users that were asked for have the devices of these users -/
def AnswersFor (listed : JID → List JID) (asked : List JID) (entries : List (JID × DeviceCache)) : Prop :=
  ∀ jid ∈ asked, ∀ device, (∃ entry ∈ entries, entry.1 = jid ∧ device ∈ entry.2.devices) ↔ device ∈ listed jid

/-- the queries of the call succeed, and the answers agree with the lists of the server -/
structure Answered (env : DeviceEnv) (listed : JID → List JID) (cache : UserDevicesCache) (jids : List JID) : Prop where
  usync : jids.filter (needsSync cache) ≠ [] → ∃ list, usync env (jids.filter (needsSync cache)) = .ok list ∧
    AnswersFor listed (jids.filter (needsSync cache)) (userEntries (usyncEntry env) list)
  fbid : ∀ chunk ∈ (jids.filter (needsFBSync cache)).toChunks 15, ∃ list, getFBIDDevicesInternal env chunk = .ok list ∧
    AnswersFor listed chunk (userEntries parseFBDeviceList list)

/-- a device that an answer has for a user who was not asked for -/
inductive Stray (env : DeviceEnv) (cache : UserDevicesCache) (jids : List JID) (device : JID) : Prop
  | usync {list : Node} {entry : JID × DeviceCache} (hne : jids.filter (needsSync cache) ≠ [])
      (hl : usync env (jids.filter (needsSync cache)) = .ok list) (he : entry ∈ userEntries (usyncEntry env) list)
      (hd : device ∈ entry.2.devices) (hj : entry.1 ∉ jids.filter (needsSync cache)) : Stray env cache jids device
  | fbid {chunk : List JID} {list : Node} {entry : JID × DeviceCache}
      (hc : chunk ∈ (jids.filter (needsFBSync cache)).toChunks 15) (hl : getFBIDDevicesInternal env chunk = .ok list)
      (he : entry ∈ userEntries parseFBDeviceList list) (hd : device ∈ entry.2.devices) (hj : entry.1 ∉ chunk) :
      Stray env cache jids device

variable {listed : JID → List JID} {jid : JID}

/-- a device of an answer belongs to a user who was asked for, or is stray -/
theorem AnswersFor.mem_iff {asked : List JID} {entries : List (JID × DeviceCache)} (h : AnswersFor listed asked entries) :
    (∃ entry ∈ entries, device ∈ entry.2.devices) ↔
      (∃ jid ∈ asked, device ∈ listed jid) ∨ ∃ entry ∈ entries, device ∈ entry.2.devices ∧ entry.1 ∉ asked := by
  constructor
  · rintro ⟨entry, he, hd⟩
    by_cases hj : entry.1 ∈ asked
    · exact .inl ⟨entry.1, hj, (h entry.1 hj device).1 ⟨entry, he, rfl, hd⟩⟩
    · exact .inr ⟨entry, he, hd, hj⟩
  · rintro (⟨jid, hj, hd⟩ | ⟨entry, he, hd, -⟩)
    · obtain ⟨entry, he, -, hd⟩ := (h jid hj device).2 hd
      exact ⟨entry, he, hd⟩
    · exact ⟨entry, he, hd⟩

/-- a user is answered from the cache or as a bot, or has to be fetched in one of two ways -/
theorem user_cases (cache : UserDevicesCache) (jid : JID) :
    (∃ devices, cachedDevices cache jid = some devices) ∨
      cachedDevices cache jid = none ∧ (needsFBSync cache jid = true ∨ jid.isBot = true ∨ needsSync cache jid = true) := by
  cases hc : cachedDevices cache jid with
  | some devices => exact .inl ⟨devices, rfl⟩
  | none =>
    refine .inr ⟨rfl, ?_⟩
    simp only [needsFBSync, needsSync, hc]
    by_cases hm : jid.server = messengerServer
    · simp [hm]
    · cases hb : jid.isBot <;> simp [hm]

theorem isBot_of_needsFBSync (h : needsFBSync cache jid = true) : ¬jid.isBot = true := by
  have hm : jid.server = messengerServer := by
    rw [needsFBSync, Bool.and_eq_true, decide_eq_true_eq] at h
    exact h.2
  rw [JID.isBot, hm, show (messengerServer == defaultUserServer) = false by decide,
    show (messengerServer == botServer) = false by decide]
  exact Bool.false_ne_true

theorem isBot_of_needsSync (h : needsSync cache jid = true) : ¬jid.isBot = true := by
  rw [needsSync, Bool.and_eq_true, Bool.not_eq_true'] at h
  rw [h.2]
  exact Bool.false_ne_true

theorem mem_knownDevices (hc : CacheConsistent listed cache) (h : device ∈ knownDevices cache jid) :
    device ∈ serverDevices listed jid := by
  unfold knownDevices at h
  cases hcached : cachedDevices cache jid with
  | some devices =>
    rw [hcached] at h
    exact (hc jid devices hcached device).1 h
  | none =>
    rw [hcached] at h
    dsimp only at h
    split_ifs at h with hbot
    · rw [serverDevices, if_pos hbot.2]
      exact h
    · cases h

/-- the devices that are known without a query, and those of the answers -/
def Fetched (env : DeviceEnv) (cache : UserDevicesCache) (jids : List JID) (device : JID) : Prop :=
  (∃ jid ∈ jids, device ∈ knownDevices cache jid) ∨
    (jids.filter (needsSync cache) ≠ [] ∧ ∃ list, usync env (jids.filter (needsSync cache)) = .ok list ∧
      ∃ entry ∈ userEntries (usyncEntry env) list, device ∈ entry.2.devices) ∨
    ∃ chunk ∈ (jids.filter (needsFBSync cache)).toChunks 15, ∃ list, getFBIDDevicesInternal env chunk = .ok list ∧
      ∃ entry ∈ userEntries parseFBDeviceList list, device ∈ entry.2.devices

theorem getUserDevices_run (hs : env.isShadow = false) (h : Answered env listed cache jids) :
    ∃ devices cache', getUserDevices env jids cache = (.ok devices, cache') ∧
      ∀ device, device ∈ devices ↔ Fetched env cache jids device := by
  obtain ⟨synced, cache₁, hsync, hsynced⟩ := syncDevices_run cache fun hne => (h.usync hne).imp fun _ hl => hl.1
  obtain ⟨fb, cache', hfb, hfbs⟩ := getFBIDDevices_run cache₁ fun chunk hc => (h.fbid chunk hc).imp fun _ hl => hl.1
  refine ⟨jids.flatMap (knownDevices cache) ++ synced ++ fb, cache', ?_, fun device => ?_⟩
  · have hrun : getUserDevices env jids cache =
        (do
          let synced ← syncDevices env (jids.filter (needsSync cache))
          let fb ← getFBIDDevices env ((jids.filter (needsFBSync cache)).toChunks 15)
          pure (jids.flatMap (knownDevices cache) ++ synced ++ fb) : Go UserDevicesCache DeviceListError _) cache := by
      rw [getUserDevices, hs, if_neg Bool.false_ne_true, get_bind, foldl_lookup]
      rfl
    rw [hrun, bind_ok hsync, bind_ok hfb]
    rfl
  · rw [mem_append, mem_append, mem_flatMap, hsynced, hfbs, or_assoc]
    rfl

theorem mem_of_mem_chunk {chunk xs : List JID} {n : ℕ} (hc : chunk ∈ xs.toChunks (n + 1)) (hj : jid ∈ chunk) :
    jid ∈ xs := by
  rw [← flatten_toChunks n xs]
  exact mem_flatten.2 ⟨chunk, hc, hj⟩

/-- what the server lists for a user is known, or is in an answer -/
theorem fetched_of_served (hc : CacheConsistent listed cache) (h : Answered env listed cache jids) (hj : jid ∈ jids)
    (hd : device ∈ serverDevices listed jid) : Fetched env cache jids device := by
  rcases user_cases cache jid with ⟨devices, hcached⟩ | ⟨hcached, hfb | hbot | hsync⟩
  · refine .inl ⟨jid, hj, ?_⟩
    rw [knownDevices, hcached]
    exact (hc jid devices hcached device).2 hd
  · rw [serverDevices, if_neg (isBot_of_needsFBSync hfb)] at hd
    have hmem : jid ∈ ((jids.filter (needsFBSync cache)).toChunks 15).flatten := by
      rw [flatten_toChunks]
      exact mem_filter.2 ⟨hj, hfb⟩
    obtain ⟨chunk, hchunk, hjid⟩ := mem_flatten.1 hmem
    obtain ⟨list, hlist, hanswers⟩ := h.fbid chunk hchunk
    exact .inr (.inr ⟨chunk, hchunk, list, hlist, hanswers.mem_iff.2 (.inl ⟨jid, hjid, hd⟩)⟩)
  · rw [serverDevices, if_pos hbot] at hd
    refine .inl ⟨jid, hj, ?_⟩
    have hm : jid.server ≠ messengerServer := fun hm =>
      isBot_of_needsFBSync (show needsFBSync cache jid = true by simp [needsFBSync, hcached, hm]) hbot
    rw [knownDevices, hcached]
    dsimp only
    rw [if_pos ⟨hm, hbot⟩]
    exact hd
  · rw [serverDevices, if_neg (isBot_of_needsSync hsync)] at hd
    have hmem : jid ∈ jids.filter (needsSync cache) := mem_filter.2 ⟨hj, hsync⟩
    obtain ⟨list, hlist, hanswers⟩ := h.usync (ne_nil_of_mem hmem)
    exact .inr (.inl ⟨ne_nil_of_mem hmem, list, hlist, hanswers.mem_iff.2 (.inl ⟨jid, hmem, hd⟩)⟩)

/-- the devices of the users and the stray ones -/
theorem fetched_iff (hc : CacheConsistent listed cache) (h : Answered env listed cache jids) :
    Fetched env cache jids device ↔
      (∃ jid ∈ jids, device ∈ serverDevices listed jid) ∨ Stray env cache jids device := by
  constructor
  · rintro (⟨jid, hj, hd⟩ | ⟨hne, list, hlist, hd⟩ | ⟨chunk, hchunk, list, hlist, hd⟩)
    · exact .inl ⟨jid, hj, mem_knownDevices hc hd⟩
    · obtain ⟨list', hlist', hanswers⟩ := h.usync hne
      cases hlist.symm.trans hlist'
      rcases hanswers.mem_iff.1 hd with ⟨jid, hj, hd⟩ | ⟨entry, he, hd, hj⟩
      · obtain ⟨hj, hneeds⟩ := mem_filter.1 hj
        refine .inl ⟨jid, hj, ?_⟩
        rw [serverDevices, if_neg (isBot_of_needsSync hneeds)]
        exact hd
      · exact .inr (.usync hne hlist he hd hj)
    · obtain ⟨list', hlist', hanswers⟩ := h.fbid chunk hchunk
      cases hlist.symm.trans hlist'
      rcases hanswers.mem_iff.1 hd with ⟨jid, hj, hd⟩ | ⟨entry, he, hd, hj⟩
      · obtain ⟨hj, hneeds⟩ := mem_filter.1 (mem_of_mem_chunk hchunk hj)
        refine .inl ⟨jid, hj, ?_⟩
        rw [serverDevices, if_neg (isBot_of_needsFBSync hneeds)]
        exact hd
      · exact .inr (.fbid hchunk hlist he hd hj)
  · rintro (⟨jid, hj, hd⟩ | hstray)
    · exact fetched_of_served hc h hj hd
    · cases hstray with
      | usync hne hl he hd _ => exact .inr (.inl ⟨hne, _, hl, _, he, hd⟩)
      | fbid hc hl he hd _ => exact .inr (.inr ⟨_, hc, _, hl, _, he, hd⟩)

/-! ## The own device -/

/-- the client's own device, as a device of its phone number and of its LID -/
structure Own where
  ownID : JID
  ownLID : JID

def Own.Is (own : Own) (device : JID) : Prop := device = own.ownID ∨ device = own.ownLID

/-- **The own device is excluded exactly where it is not listed.** For every list of users, every consistent cache and every
answer: the call returns, and the devices in its list are those that the server lists for the users without the own device,
if and only if the own device is in none of these lists and every stray device is in one of them. -/
theorem own_device_excluded_iff (env : DeviceEnv) (hs : env.isShadow = false) (own : Own) (listed : JID → List JID)
    (cache : UserDevicesCache) (jids : List JID) (hc : CacheConsistent listed cache)
    (h : Answered env listed cache jids) :
    ∃ devices cache', getUserDevices env jids cache = (.ok devices, cache') ∧
      ((∀ device, device ∈ devices ↔ (∃ jid ∈ jids, device ∈ serverDevices listed jid) ∧ ¬own.Is device) ↔
        (∀ jid ∈ jids, ∀ device ∈ serverDevices listed jid, ¬own.Is device) ∧
          ∀ device, Stray env cache jids device → ∃ jid ∈ jids, device ∈ serverDevices listed jid) := by
  obtain ⟨devices, cache', hrun, hmem⟩ := getUserDevices_run hs h
  refine ⟨devices, cache', hrun, ?_⟩
  have hreturned : ∀ device, device ∈ devices ↔
      (∃ jid ∈ jids, device ∈ serverDevices listed jid) ∨ Stray env cache jids device :=
    fun device => (hmem device).trans (fetched_iff hc h)
  constructor
  · intro hset
    refine ⟨fun jid hj device hd => ?_, fun device hstray => ?_⟩
    · exact ((hset device).1 ((hreturned device).2 (.inl ⟨jid, hj, hd⟩))).2
    · exact ((hset device).1 ((hreturned device).2 (.inr hstray))).1
  · rintro ⟨hown, hstray⟩ device
    rw [hreturned]
    constructor
    · intro hd
      obtain ⟨jid, hj, hd⟩ := hd.elim id (hstray device)
      exact ⟨⟨jid, hj, hd⟩, hown jid hj device hd⟩
    · exact fun hd => .inl hd.1

/-! ## The own user among the users -/

/-- a user with two devices -/
def home : JID := newJID (ascii "1") defaultUserServer

def homeDevices : List JID := [home, { home with device := 2 }]

/-- the server has the devices of one user only -/
def homeListed (jid : JID) : List JID := if jid = home then homeDevices else []

def homeCache : UserDevicesCache := AList.insert home ⟨homeDevices, []⟩ ∅

def deviceNode (id : String) : Node := ⟨ascii "device", some [(ascii "id", .string (ascii id))], .nil⟩

/-- the answer to a usync query for the user -/
def homeAnswer : Node :=
  ⟨ascii "iq", none, .nodes [⟨ascii "usync", none, .nodes [⟨ascii "list", none, .nodes
    [⟨ascii "user", some [(ascii "jid", .jid home)], .nodes
      [⟨ascii "devices", none, .nodes [⟨ascii "device-list", none, .nodes [deviceNode "0", deviceNode "2"]⟩]⟩]⟩]⟩]⟩]⟩

def homeEnv : DeviceEnv where
  isShadow := false
  relayDevices _ := none
  usyncResponse _ := some homeAnswer
  fbidResponse _ := none
  participantListHashV2 _ := []
  evicted _ := 0

theorem consistent_homeCache : CacheConsistent homeListed homeCache := by
  intro jid devices hcached device
  unfold cachedDevices homeCache at hcached
  by_cases hj : jid = home
  · subst hj
    rw [lookup_insert] at hcached
    cases hcached
    rfl
  · rw [lookup_insert_ne hj, lookup_empty] at hcached
    cases hcached

theorem consistent_empty (listed : JID → List JID) : CacheConsistent listed ∅ := by
  intro jid devices hcached
  rw [cachedDevices, lookup_empty] at hcached
  cases hcached

/-- no query is needed for a cached user -/
theorem homeCache_filters : [home].filter (needsSync homeCache) = [] ∧ [home].filter (needsFBSync homeCache) = [] := by
  decide +kernel

theorem answered_homeCache : Answered homeEnv homeListed homeCache [home] where
  usync hne := absurd homeCache_filters.1 hne
  fbid chunk hchunk := by
    rw [homeCache_filters.2, List.toChunks] at hchunk
    cases hchunk

theorem answered_empty : Answered homeEnv homeListed ∅ [home] where
  usync _ := by
    have hfilter : [home].filter (needsSync ∅) = [home] := by decide +kernel
    have hlist : ∃ list, usync homeEnv [home] = .ok list ∧
        userEntries (usyncEntry homeEnv) list = [(home, ⟨homeDevices, []⟩)] := ⟨_, rfl, by decide +kernel⟩
    obtain ⟨list, hrun, hentries⟩ := hlist
    rw [hfilter]
    refine ⟨list, hrun, ?_⟩
    intro jid hj device
    rw [mem_singleton.1 hj, hentries]
    simp [homeListed]
  fbid chunk hchunk := by
    have hfilter : [home].filter (needsFBSync ∅) = [] := by decide +kernel
    rw [hfilter, List.toChunks] at hchunk
    cases hchunk

theorem own_device_excluded_iff_stranger :
    ∃ devices cache', getUserDevices homeEnv [home] homeCache = (.ok devices, cache') ∧
      ∀ device, device ∈ devices ↔ (∃ jid ∈ [home], device ∈ serverDevices homeListed jid) ∧
        ¬Own.Is ⟨newJID (ascii "9") defaultUserServer, newJID (ascii "8") hiddenUserServer⟩ device := by
  obtain ⟨devices, cache', hrun, hiff⟩ := own_device_excluded_iff homeEnv rfl
    ⟨newJID (ascii "9") defaultUserServer, newJID (ascii "8") hiddenUserServer⟩ homeListed homeCache [home]
    consistent_homeCache answered_homeCache
  refine ⟨devices, cache', hrun, hiff.2 ⟨?_, ?_⟩⟩
  · intro jid hj device hd
    have hdevices : serverDevices homeListed home = homeDevices := by decide +kernel
    rw [mem_singleton.1 hj, hdevices] at hd
    rcases mem_pair.1 hd with rfl | rfl
    · exact not_or.2 ⟨by decide, by decide⟩
    · exact not_or.2 ⟨by decide, by decide⟩
  · intro device hstray
    cases hstray with
    | usync hne _ _ _ _ => exact absurd homeCache_filters.1 hne
    | fbid hc _ _ _ _ =>
      rw [homeCache_filters.2, List.toChunks] at hc
      cases hc

/-- **The own device comes back.** This device is the second one of the user. A call for the user returns it, from the cache
and from the answer of the server. -/
theorem own_device_returned :
    (CacheConsistent homeListed homeCache ∧ Answered homeEnv homeListed homeCache [home] ∧
      (getUserDevices homeEnv [home] homeCache).1 = .ok [home, { home with device := 2 }]) ∧
    (CacheConsistent homeListed ∅ ∧ Answered homeEnv homeListed ∅ [home] ∧
      (getUserDevices homeEnv [home] ∅).1 = .ok [home, { home with device := 2 }]) ∧
    Own.Is ⟨{ home with device := 2 }, emptyJID⟩ { home with device := 2 } :=
  ⟨⟨consistent_homeCache, answered_homeCache, by decide +kernel⟩,
    ⟨consistent_empty homeListed, answered_empty, by decide +kernel⟩, .inl rfl⟩

end Hypermeow.Client.OwnDevice
