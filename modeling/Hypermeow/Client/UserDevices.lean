/-
Device lists of users (`GetUserDevices`, `getFBIDDevices`, `usync` and the two list parsers of `user.go`,
`putBoundedCache` of `cache.go`).

The client knows the devices of a user from its cache, or asks the server: usync for WhatsApp users, fbid for Messenger
users. Bots have no devices and stand for themselves. A shadow client has no socket and asks its relay.

Model: the receiver is `userDevicesCache`. The server's answers, the relay's and the entry that a full cache loses are
parameters, given for the one call. An answer is a node of the binary format and is taken apart as the source does it.

- `DeviceOf`: what it means to be a device of one of the users, said without the order of the lookups.
-/
import Hypermeow.Binary.Attrs
import Hypermeow.Lib.Go
import Mathlib.Data.List.AList

namespace Hypermeow.Client

open Lib Types Binary Go List

/-! ## The cache -/

structure DeviceCache where
  devices : List JID
  dhash : Bytes
deriving DecidableEq, Repr

abbrev UserDevicesCache := AList fun _ : JID => DeviceCache

def maxUserDeviceCacheEntries : ℕ := 2048

/-- a new key of a full map takes the place of another one, which the iteration order of the map decides -/
def putBoundedCache {κ ν : Type} [DecidableEq κ] (cache : AList fun _ : κ => ν) (key : κ) (value : ν) (limit : ℕ)
    (first : ℕ) : AList fun _ : κ => ν :=
  if key ∉ cache ∧ limit ≤ cache.keys.length then
    match cache.keys[first % cache.keys.length]? with
    | some oldKey => (cache.erase oldKey).insert key value
    | none => cache.insert key value
  else cache.insert key value

/-! ## Device lists in answers -/

/-- one `<device>` of a list; its number is cut to 16 bits -/
def parseDevice (user : JID) (device : Node) : Option JID :=
  if device.tag = ascii "device" then
    (Attrs.getInt64 device.attrs (ascii "id")).map fun deviceID =>
      let user := { user with device := deviceID.toUInt64.toUInt16 }
      if Attrs.bool device.attrs (ascii "is_hosted") then
        if user.server = hiddenUserServer then { user with server := hostedLIDServer }
        else { user with server := hostedServer }
      else user
  else none

def parseDeviceList (user : JID) (deviceNode : Node) : List JID :=
  let deviceList := deviceNode.getChildByTag [ascii "device-list"]
  if deviceNode.tag ≠ ascii "devices" ∨ deviceList.tag ≠ ascii "device-list" then []
  else deviceList.getChildren.filterMap (parseDevice user)

/-- one `<device>` of a Messenger list -/
def parseFBDevice (user : JID) (device : Node) : Option JID :=
  if device.tag = ascii "device" then
    (Attrs.getInt64 device.attrs (ascii "id")).map fun deviceID =>
      { user with device := deviceID.toUInt64.toUInt16 }
  else none

def parseFBDeviceList (user : JID) (deviceList : Node) : DeviceCache where
  devices := deviceList.getChildren.filterMap (parseFBDevice user)
  dhash := (Attrs.getString deviceList.attrs (ascii "dhash")).getD []

/-- the `<user>` children of a list that have a JID, each with its devices -/
def userEntries (parse : JID → Node → DeviceCache) (list : Node) : List (JID × DeviceCache) :=
  list.getChildren.filterMap fun user =>
    if user.tag = ascii "user" then
      (Attrs.getJID user.attrs (ascii "jid")).map fun jid => (jid, parse jid (user.getChildByTag [ascii "devices"]))
    else none

/-! ## Queries -/

inductive DeviceListError where
  | unknownUserServer
  | requestFailed
  | elementMissing
  | relay
deriving DecidableEq, Repr

/-- what the client is told during one call -/
structure DeviceEnv where
  isShadow : Bool
  /-- `shadowRelay.GetUserDevices`; `none` is an error -/
  relayDevices : List JID → Option (List JID)
  /-- the response to a usync query for devices; `none` if `sendIQ` returns an error -/
  usyncResponse : List JID → Option Node
  /-- the response to a fbid query -/
  fbidResponse : List JID → Option Node
  participantListHashV2 : List JID → Bytes
  /-- the position of the entry that the cache loses for a new key -/
  evicted : JID → ℕ

variable (env : DeviceEnv)

def knownUserServer (server : Bytes) : Bool :=
  server = legacyUserServer ∨ server = defaultUserServer ∨ server = hiddenUserServer

/-- the `<list>` in the response to a usync query -/
def usync (jids : List JID) : Except DeviceListError Node :=
  if jids.all fun jid => knownUserServer jid.server then
    match env.usyncResponse (jids.map JID.toNonAD) with
    | none => .error .requestFailed
    | some resp =>
      match resp.getOptionalChildByTag [ascii "usync", ascii "list"] with
      | (list, true) => .ok list
      | (_, false) => .error .elementMissing
  else .error .unknownUserServer

def getFBIDDevicesInternal (jids : List JID) : Except DeviceListError Node :=
  match env.fbidResponse jids with
  | none => .error .requestFailed
  | some resp =>
    match resp.getOptionalChildByTag [ascii "users"] with
    | (list, true) => .ok list
    | (_, false) => .error .elementMissing

def usyncEntry (jid : JID) (devices : Node) : DeviceCache :=
  ⟨parseDeviceList jid devices, env.participantListHashV2 (parseDeviceList jid devices)⟩

/-- caches the entries one after the other and returns their devices -/
def storeEntries (entries : List (JID × DeviceCache)) : Go UserDevicesCache DeviceListError (List JID) := do
  Go.modify fun cache => entries.foldl
    (fun cache e => putBoundedCache cache e.1 e.2 maxUserDeviceCacheEntries (env.evicted e.1)) cache
  pure (entries.flatMap fun e => e.2.devices)

/-- the usync part of `GetUserDevices` -/
def syncDevices (jidsToSync : List JID) : Go UserDevicesCache DeviceListError (List JID) :=
  if 0 < jidsToSync.length then
    match usync env jidsToSync with
    | .error e => Go.throw e
    | .ok list => storeEntries env (userEntries (usyncEntry env) list)
  else pure []

/-- fifteen users at a time -/
def getFBIDDevices : List (List JID) → Go UserDevicesCache DeviceListError (List JID)
  | [] => pure []
  | chunk :: chunks =>
    match getFBIDDevicesInternal env chunk with
    | .error e => Go.throw e
    | .ok list => do
      let devices ← storeEntries env (userEntries parseFBDeviceList list)
      let rest ← getFBIDDevices chunks
      pure (devices ++ rest)

/-! ## `GetUserDevices` -/

/-- the variables of the first loop -/
structure DeviceLookup where
  devices : List JID
  jidsToSync : List JID
  fbJIDsToSync : List JID

/-- the cached devices of a user, if there are any -/
def cachedDevices (cache : UserDevicesCache) (jid : JID) : Option (List JID) :=
  match cache.lookup jid with
  | some cached => if 0 < cached.devices.length then some cached.devices else none
  | none => none

def DeviceLookup.add (cache : UserDevicesCache) (l : DeviceLookup) (jid : JID) : DeviceLookup :=
  match cachedDevices cache jid with
  | some cached => { l with devices := l.devices ++ cached }
  | none =>
    if jid.server = messengerServer then { l with fbJIDsToSync := l.fbJIDsToSync ++ [jid] }
    else if jid.isBot then { l with devices := l.devices ++ [jid] }
    else { l with jidsToSync := l.jidsToSync ++ [jid] }

/-- a shadow client: bots as they are, everyone else through the relay -/
def getShadowDevices (jids : List JID) : Go UserDevicesCache DeviceListError (List JID) :=
  let devices := jids.filter JID.isBot
  let others := jids.filter fun jid => !jid.isBot
  if 0 < others.length then
    match env.relayDevices others with
    | none => Go.throw .relay
    | some resolved => pure (devices ++ resolved)
  else pure devices

def getUserDevices (jids : List JID) : Go UserDevicesCache DeviceListError (List JID) :=
  if env.isShadow then getShadowDevices env jids
  else do
    let cache ← Go.get
    let l := jids.foldl (DeviceLookup.add cache) ⟨[], [], []⟩
    let synced ← syncDevices env l.jidsToSync
    let fb ← getFBIDDevices env (l.fbJIDsToSync.toChunks 15)
    pure (l.devices ++ synced ++ fb)

/-! ## Which devices the list has -/

variable {env} {cache cache' : UserDevicesCache} {jids devices : List JID}

def needsSync (cache : UserDevicesCache) (jid : JID) : Bool :=
  (cachedDevices cache jid).isNone && jid.server ≠ messengerServer && !jid.isBot

def needsFBSync (cache : UserDevicesCache) (jid : JID) : Bool :=
  (cachedDevices cache jid).isNone && jid.server = messengerServer

/-- what the first loop appends for a user -/
def knownDevices (cache : UserDevicesCache) (jid : JID) : List JID :=
  match cachedDevices cache jid with
  | some cached => cached
  | none => if jid.server ≠ messengerServer ∧ jid.isBot then [jid] else []

/-- a device of one of the users, as far as the client knows or is told: cached, a bot itself, or in the server's answer
for the users that are not cached; for a shadow client a bot itself or in the relay's answer -/
inductive DeviceOf (env : DeviceEnv) (cache : UserDevicesCache) (jids : List JID) : JID → Prop
  | cached {jid device : JID} {entry : DeviceCache} (hs : env.isShadow = false) (hj : jid ∈ jids)
      (hc : cache.lookup jid = some entry) (hd : device ∈ entry.devices) : DeviceOf env cache jids device
  | bot {jid : JID} (hs : env.isShadow = false) (hj : jid ∈ jids) (hc : cachedDevices cache jid = none)
      (hm : jid.server ≠ messengerServer) (hb : jid.isBot = true) : DeviceOf env cache jids jid
  | synced {device : JID} {list : Node} {entry : JID × DeviceCache} (hs : env.isShadow = false)
      (hne : jids.filter (needsSync cache) ≠ []) (hl : usync env (jids.filter (needsSync cache)) = .ok list)
      (he : entry ∈ userEntries (usyncEntry env) list) (hd : device ∈ entry.2.devices) : DeviceOf env cache jids device
  | fbSynced {device : JID} {chunk : List JID} {list : Node} {entry : JID × DeviceCache} (hs : env.isShadow = false)
      (hc : chunk ∈ (jids.filter (needsFBSync cache)).toChunks 15) (hl : getFBIDDevicesInternal env chunk = .ok list)
      (he : entry ∈ userEntries parseFBDeviceList list) (hd : device ∈ entry.2.devices) : DeviceOf env cache jids device
  | relayBot {jid : JID} (hs : env.isShadow = true) (hj : jid ∈ jids) (hb : jid.isBot = true) :
      DeviceOf env cache jids jid
  | relayed {device : JID} {resolved : List JID} (hs : env.isShadow = true)
      (hne : (jids.filter fun jid => !jid.isBot) ≠ [])
      (hr : env.relayDevices (jids.filter fun jid => !jid.isBot) = some resolved) (hd : device ∈ resolved) :
      DeviceOf env cache jids device

theorem foldl_lookup (cache : UserDevicesCache) (jids : List JID) (l : DeviceLookup) :
    jids.foldl (DeviceLookup.add cache) l =
      { devices := l.devices ++ jids.flatMap (knownDevices cache)
        jidsToSync := l.jidsToSync ++ jids.filter (needsSync cache)
        fbJIDsToSync := l.fbJIDsToSync ++ jids.filter (needsFBSync cache) } := by
  induction jids generalizing l with
  | nil => simp
  | cons jid jids ih =>
    rw [foldl_cons, ih]
    rcases hc : cachedDevices cache jid with _ | cached
    · by_cases hm : jid.server = messengerServer
      · simp [DeviceLookup.add, knownDevices, needsSync, needsFBSync, hc, hm]
      · by_cases hb : jid.isBot = true
        · simp [DeviceLookup.add, knownDevices, needsSync, needsFBSync, hc, hm, hb]
        · simp [DeviceLookup.add, knownDevices, needsSync, needsFBSync, hc, hm, hb]
    · simp [DeviceLookup.add, knownDevices, needsSync, needsFBSync, hc]

variable {device : JID}

end Hypermeow.Client
