/-
The names and usernames in the contact table, after calls for one contact and after a mass insert.

The calls for one contact compare with the cached contact and leave out a write that changes nothing. Where the cached
contacts are right, what they leave is the last name and username of each contact. `PutAllContactNames` leaves the first.

`ContactsAgreeOn`: the cached contacts of some JIDs are what reading their rows gives. If these JIDs have different texts, the calls
for them keep the agreement.

Results:
- `putContact_names`, `storeEntry_names`: what a call leaves under each text.
- `storeEntries_names`: what a list of calls leaves; `storeEntries_null`: a JID without a server leaves a row with the key
  NULL, unless all its names are empty.
- `putAllContactNames_names`: what a mass insert leaves.
-/
import Hypermeow.Store.ContactCache

namespace Hypermeow.Store

open Lib Types Session Go List Option

/-! ## Names -/

/-- first name, full name, username -/
abbrev Names := Bytes × Bytes × Bytes

def noNames : Names := ([], [], [])

def ContactInfo.names (info : ContactInfo) : Names := (info.firstName, info.fullName, info.username)

def ContactEntry.names (entry : ContactEntry) : Names := (entry.firstName, entry.fullName, entry.username)

/-- the names in the row of a text; NULL, and no row, are read as empty names -/
def storedNames (t : ContactTable) (text : Bytes) : Names := (contactInfo (t.rows.lookup text)).names

/-- the same names are stored, under texts and under NULL -/
def SameNames (t t' : ContactTable) : Prop :=
  (∀ text, storedNames t text = storedNames t' text) ∧
    t.nullRows.map (fun row => (contactInfo (some row)).names) = t'.nullRows.map fun row => (contactInfo (some row)).names

variable {s : ContactSession} {user other : JID} {set : ContactRow → ContactRow} {assign : ContactInfo → ContactInfo}

/-! ## One call -/

theorem value_of_no_server (h : user.server = []) : user.value = none :=
  if_pos (length_eq_zero_iff.2 h)

theorem value_eq_some {text : Bytes} : user.value = some text ↔ user.server ≠ [] ∧ user.string = text := by
  by_cases h : user.server = []
  · rw [value_of_no_server h]
    exact iff_of_false (some_ne_none text).symm fun hne => hne.1 h
  · rw [value_of_server h, some.injEq, and_iff_right h]

theorem nullRows_upsert_le (t : ContactTable) (key : Option Bytes) :
    t.nullRows.length ≤ (t.upsert key set).nullRows.length := by
  cases key with
  | some text => exact le_rfl
  | none =>
    show t.nullRows.length ≤ (t.nullRows ++ [set {}]).length
    rw [length_append]
    exact Nat.le_add_right _ _

/-- rows with the key NULL are only ever added -/
theorem putContact_nullRows_le (user : JID) (differs : ContactInfo → Bool) (set : ContactRow → ContactRow)
    (assign : ContactInfo → ContactInfo) (hs : s.Quiet) :
    ∃ previous s', putContact user differs set assign s = (.ok previous, s') ∧ s'.Quiet ∧
      s.tables.nullRows.length ≤ s'.tables.nullRows.length := by
  obtain ⟨s', hrun, hquiet, htables, -⟩ := putContact_run user differs set assign hs
  refine ⟨_, s', hrun, hquiet, ?_⟩
  rw [htables]
  split_ifs
  · exact nullRows_upsert_le _ _
  · exact le_rfl

/-! ## Where the cache is right -/

/-- the cached contacts of some JIDs are right, and no call fails -/
def ContactsAgreeOn (P : JID → Prop) (s : ContactSession) : Prop :=
  s.Quiet ∧ ∀ user info, P user → s.memory.lookup user = some info → info = readContact s.tables user

/-- JIDs with different texts -/
def DistinctTexts (P : JID → Prop) : Prop := ∀ a b, P a → P b → a.string = b.string → a = b

variable {P : JID → Prop}

theorem ContactsAgreeOn.seen_eq (h : ContactsAgreeOn P s) (hu : P user) : s.seen user = readContact s.tables user := by
  unfold ContactSession.seen
  cases hl : s.memory.lookup user with
  | none => rfl
  | some info => exact h.2 user info hu hl

theorem readContact_of_server (t : ContactTable) (h : user.server ≠ []) :
    readContact t user = contactInfo (t.rows.lookup user.string) := by
  unfold readContact
  rw [value_of_server h]
  rfl

theorem readContact_of_no_server (t : ContactTable) (h : user.server = []) : readContact t user = {} := by
  unfold readContact
  rw [value_of_no_server h]
  rfl

/-- a text that is not the one of the row -/
theorem value_ne_of_ne (hP : DistinctTexts P) (hu : P user) (ho : P other) (hne : other ≠ user) :
    other.value ≠ some user.string := by
  intro hv
  exact hne (hP other user ho hu (value_eq_some.1 hv).2)

/-- what a statement does to the names -/
def SetsNames (set : ContactRow → ContactRow) (setNames : Names → Names) : Prop :=
  ∀ row : Option ContactRow, (contactInfo (some (set (row.getD {})))).names = setNames (contactInfo row).names

theorem storedNames_upsert (t : ContactTable) (text text' : Bytes) {setNames : Names → Names}
    (hset : SetsNames set setNames) :
    storedNames (t.upsert (some text) set) text' =
      if text' = text then setNames (storedNames t text') else storedNames t text' := by
  unfold storedNames
  show (contactInfo ((t.rows.insert text (set ((t.rows.lookup text).getD {}))).lookup text')).names = _
  rw [GoMap.lookup_insert_eq]
  split_ifs with h
  · rw [hset, h]
  · rfl

/-- the names after a call for a contact with a server -/
theorem putContact_names (differs : ContactInfo → Bool) {setNames : Names → Names} (hP : DistinctTexts P)
    (h : ContactsAgreeOn P s) (hu : P user) (hserver : user.server ≠ []) (htracks : Tracks set assign)
    (hset : SetsNames set setNames) (hskip : ∀ info, differs info = false → setNames info.names = info.names) :
    ∃ previous s', putContact user differs set assign s = (.ok previous, s') ∧ ContactsAgreeOn P s' ∧
      s'.tables.nullRows = s.tables.nullRows ∧
      ∀ text, storedNames s'.tables text =
        if text = user.string then setNames (storedNames s.tables text) else storedNames s.tables text := by
  obtain ⟨s', hrun, hquiet, htables, hcache⟩ := putContact_run user differs set assign h.1
  rw [h.seen_eq hu] at htables hcache
  have hvalue := value_of_server hserver
  cases hdiffers : differs (readContact s.tables user) with
  | true =>
    rw [hdiffers, if_pos rfl, hvalue] at htables
    simp only [hdiffers, if_true] at hcache
    refine ⟨_, s', hrun, ⟨hquiet, fun other info ho hl => ?_⟩, ?_, fun text => ?_⟩
    · rw [htables]
      rcases hcache other info hl with ⟨rfl, rfl⟩ | ⟨hne, hold⟩
      · rw [readContact_upsert_self hvalue htracks]
      · rw [readContact_upsert_of_ne (value_ne_of_ne hP hu ho hne)]
        exact h.2 other info ho hold
    · rw [htables]
      rfl
    · rw [htables]
      exact storedNames_upsert _ _ _ hset
  | false =>
    rw [hdiffers, if_neg Bool.false_ne_true] at htables
    simp only [hdiffers, Bool.false_eq_true, if_false] at hcache
    refine ⟨_, s', hrun, ⟨hquiet, fun other info ho hl => ?_⟩, by rw [htables], fun text => ?_⟩
    · rw [htables]
      rcases hcache other info hl with ⟨rfl, rfl⟩ | ⟨-, hold⟩
      · rfl
      · exact h.2 other info ho hold
    · rw [htables]
      split_ifs with htext
      · rw [readContact_of_server _ hserver, ← htext] at hdiffers
        exact (hskip _ hdiffers).symm
      · rfl

/-- a call for a contact without a server that has nothing to write -/
theorem putContact_blank (differs : ContactInfo → Bool) (h : ContactsAgreeOn P s) (hu : P user) (hserver : user.server = [])
    (hblank : differs {} = false) :
    ∃ previous s', putContact user differs set assign s = (.ok previous, s') ∧ ContactsAgreeOn P s' ∧ s'.tables = s.tables := by
  obtain ⟨s', hrun, hquiet, htables, hcache⟩ := putContact_run user differs set assign h.1
  have hread := readContact_of_no_server s.tables hserver
  rw [h.seen_eq hu, hread, hblank, if_neg Bool.false_ne_true] at htables
  refine ⟨_, s', hrun, ⟨hquiet, fun other info ho hl => ?_⟩, htables⟩
  rw [htables]
  rcases hcache other info hl with ⟨rfl, rfl⟩ | ⟨-, hold⟩
  · rw [h.seen_eq hu, hread, hblank, if_neg Bool.false_ne_true]
  · exact h.2 other info ho hold

/-- a call for a contact without a server that has something to write -/
theorem putContact_null (differs : ContactInfo → Bool) (h : ContactsAgreeOn P s) (hu : P user) (hserver : user.server = [])
    (hdiffers : differs {} = true) :
    ∃ previous s', putContact user differs set assign s = (.ok previous, s') ∧ s'.Quiet ∧
      s.tables.nullRows.length < s'.tables.nullRows.length := by
  obtain ⟨s', hrun, hquiet, htables, -⟩ := putContact_run user differs set assign h.1
  refine ⟨_, s', hrun, hquiet, ?_⟩
  rw [htables, h.seen_eq hu, readContact_of_no_server _ hserver, hdiffers, if_pos rfl, value_of_no_server hserver]
  show s.tables.nullRows.length < (s.tables.nullRows ++ [set {}]).length
  rw [length_append]
  exact Nat.lt_succ_self _

/-! ## One contact after the other -/

variable (D : Deduplication)

/-- the calls that store one contact -/
def entryOps (entry : ContactEntry) : List ContactOp :=
  [.putContactName entry.jid entry.firstName entry.fullName, .putContactUsername entry.jid entry.username]

/-- the comparisons of `PutContactName` and of `PutContactUsername` -/
def ContactEntry.nameDiffers (entry : ContactEntry) (cached : ContactInfo) : Bool :=
  cached.firstName != entry.firstName || cached.fullName != entry.fullName

def ContactEntry.usernameDiffers (entry : ContactEntry) (cached : ContactInfo) : Bool := cached.username != entry.username

def storeEntry (s : ContactSession) (entry : ContactEntry) : ContactSession :=
  run (ContactSession.step D) s (entryOps entry)

variable {D} {entry : ContactEntry} {entries : List ContactEntry}

theorem setsNames_contactName (firstName fullName : Bytes) :
    SetsNames (putContactNameQuery firstName fullName) fun names => (firstName, fullName, names.2.2) := by
  intro row
  cases row <;> rfl

theorem setsNames_username (username : Bytes) :
    SetsNames (putContactUsernameQuery username) fun names => (names.1, names.2.1, username) := by
  intro row
  cases row <;> rfl

/-- storing a contact is two calls, each of which compares with the cached contact -/
theorem storeEntry_of_run {previous previous' : Option ContactInfo} {s₁ s₂ : ContactSession}
    (h₁ : putContact entry.jid entry.nameDiffers (putContactNameQuery entry.firstName entry.fullName)
      (fun cached => { cached with firstName := entry.firstName, fullName := entry.fullName }) s = (.ok previous, s₁))
    (h₂ : putContact entry.jid entry.usernameDiffers (putContactUsernameQuery entry.username)
      (fun cached => { cached with username := entry.username }) s₁ = (.ok previous', s₂)) :
    storeEntry D s entry = s₂ := by
  have hname : (putContactName entry.jid entry.firstName entry.fullName s).2 = s₁ := congrArg Prod.snd (bind_ok h₁)
  have husername : (putContactUsername entry.jid entry.username s₁).2 = s₂ := congrArg Prod.snd (bind_ok h₂)
  rw [← husername, ← hname]
  rfl

/-- the names after a contact with a server is stored -/
theorem storeEntry_names (hP : DistinctTexts P) (h : ContactsAgreeOn P s) (hu : P entry.jid) (hserver : entry.jid.server ≠ []) :
    ContactsAgreeOn P (storeEntry D s entry) ∧ (storeEntry D s entry).tables.nullRows = s.tables.nullRows ∧
      ∀ text, storedNames (storeEntry D s entry).tables text =
        if text = entry.jid.string then entry.names else storedNames s.tables text := by
  obtain ⟨_, s₁, hrun₁, h₁, hnull₁, hnames₁⟩ := putContact_names entry.nameDiffers hP h hu hserver
    (tracks_contactName entry.firstName entry.fullName) (setsNames_contactName _ _) (by
      intro info hsame
      simp only [ContactEntry.nameDiffers, Bool.or_eq_false_iff, bne_eq_false_iff_eq] at hsame
      rw [ContactInfo.names, hsame.1, hsame.2])
  obtain ⟨_, s₂, hrun₂, h₂, hnull₂, hnames₂⟩ := putContact_names entry.usernameDiffers hP h₁ hu hserver
    (tracks_username entry.username) (setsNames_username _) (by
      intro info hsame
      rw [ContactInfo.names, bne_eq_false_iff_eq.1 hsame])
  rw [storeEntry_of_run hrun₁ hrun₂]
  refine ⟨h₂, hnull₂.trans hnull₁, fun text => ?_⟩
  rw [hnames₂, hnames₁]
  split_ifs <;> rfl

theorem nameDiffers_empty :
    entry.names = noNames ↔ entry.nameDiffers {} = false ∧ entry.usernameDiffers {} = false := by
  simp only [ContactEntry.names, noNames, ContactEntry.nameDiffers, ContactEntry.usernameDiffers, Prod.mk.injEq,
    Bool.or_eq_false_iff, bne_eq_false_iff_eq, and_assoc, eq_comm (a := ([] : Bytes))]

/-- a contact without a server and without names leaves no trace -/
theorem storeEntry_blank (h : ContactsAgreeOn P s) (hu : P entry.jid) (hserver : entry.jid.server = [])
    (hblank : entry.names = noNames) :
    ContactsAgreeOn P (storeEntry D s entry) ∧ (storeEntry D s entry).tables = s.tables := by
  have hnames : entry.nameDiffers {} = false ∧ entry.usernameDiffers {} = false := nameDiffers_empty.1 hblank
  obtain ⟨_, s₁, hrun₁, h₁, htables₁⟩ := putContact_blank entry.nameDiffers h hu hserver hnames.1
  obtain ⟨_, s₂, hrun₂, h₂, htables₂⟩ := putContact_blank entry.usernameDiffers h₁ hu hserver hnames.2
  rw [storeEntry_of_run hrun₁ hrun₂]
  exact ⟨h₂, htables₂.trans htables₁⟩

theorem storeEntry_nullRows_le (entry : ContactEntry) (hs : s.Quiet) :
    (storeEntry D s entry).Quiet ∧ s.tables.nullRows.length ≤ (storeEntry D s entry).tables.nullRows.length := by
  obtain ⟨_, s₁, hrun₁, h₁, hle₁⟩ := putContact_nullRows_le entry.jid entry.nameDiffers _ _ hs
  obtain ⟨_, s₂, hrun₂, h₂, hle₂⟩ := putContact_nullRows_le entry.jid entry.usernameDiffers _ _ h₁
  rw [storeEntry_of_run hrun₁ hrun₂]
  exact ⟨h₂, hle₁.trans hle₂⟩

/-- a contact without a server that has a name or a username leaves a row -/
theorem storeEntry_null (h : ContactsAgreeOn P s) (hu : P entry.jid) (hserver : entry.jid.server = [])
    (hnames : entry.names ≠ noNames) :
    (storeEntry D s entry).Quiet ∧ s.tables.nullRows.length < (storeEntry D s entry).tables.nullRows.length := by
  cases hdiffers : entry.nameDiffers {} with
  | true =>
    obtain ⟨_, s₁, hrun₁, h₁, hlt⟩ := putContact_null entry.nameDiffers h hu hserver hdiffers
    obtain ⟨_, s₂, hrun₂, h₂, hle⟩ := putContact_nullRows_le entry.jid entry.usernameDiffers _ _ h₁
    rw [storeEntry_of_run hrun₁ hrun₂]
    exact ⟨h₂, hlt.trans_le hle⟩
  | false =>
    have husername : entry.usernameDiffers {} = true := by
      by_contra hnot
      exact hnames (nameDiffers_empty.2 ⟨hdiffers, Bool.eq_false_of_not_eq_true hnot⟩)
    obtain ⟨_, s₁, hrun₁, h₁, htables⟩ := putContact_blank entry.nameDiffers h hu hserver hdiffers
    obtain ⟨_, s₂, hrun₂, h₂, hlt⟩ := putContact_null entry.usernameDiffers h₁ hu hserver husername
    rw [storeEntry_of_run hrun₁ hrun₂]
    rw [htables] at hlt
    exact ⟨h₂, hlt⟩

/-! ## A list of contacts -/

/-- no contact without a server has a name -/
def NoNullNames (entries : List ContactEntry) : Prop :=
  ∀ entry ∈ entries, entry.jid.server = [] → entry.names = noNames

theorem storeEntries_names (hP : DistinctTexts P) (h : ContactsAgreeOn P s) (hu : ∀ entry ∈ entries, P entry.jid)
    (hblank : NoNullNames entries) :
    (run (storeEntry D) s entries).tables.nullRows = s.tables.nullRows ∧
      ∀ text, storedNames (run (storeEntry D) s entries).tables text =
        (lastWrite (fun entry : ContactEntry => entry.jid.value) ContactEntry.names entries text).getD
          (storedNames s.tables text) := by
  have hstep : ∀ s', ∀ entry ∈ entries, ContactsAgreeOn P s' ∧ s'.tables.nullRows = s.tables.nullRows →
      (ContactsAgreeOn P (storeEntry D s' entry) ∧ (storeEntry D s' entry).tables.nullRows = s.tables.nullRows) ∧
        ∀ text, storedNames (storeEntry D s' entry).tables text =
          if entry.jid.value = some text then entry.names else storedNames s'.tables text := by
    rintro s' entry hmem ⟨h', hnull⟩
    by_cases hserver : entry.jid.server = []
    · obtain ⟨hnext, htables⟩ := storeEntry_blank (D := D) h' (hu entry hmem) hserver (hblank entry hmem hserver)
      refine ⟨⟨hnext, by rw [htables, hnull]⟩, fun text => ?_⟩
      rw [htables, value_of_no_server hserver, if_neg (some_ne_none text).symm]
    · obtain ⟨hnext, hnull', hnames⟩ := storeEntry_names (D := D) hP h' (hu entry hmem) hserver
      refine ⟨⟨hnext, hnull'.trans hnull⟩, fun text => ?_⟩
      rw [hnames, value_of_server hserver]
      simp only [some.injEq, eq_comm]
  obtain ⟨⟨-, hnull⟩, hnames⟩ := run_lastWrite (storeEntry D) (fun entry => entry.jid.value) ContactEntry.names
    (fun s text => storedNames s.tables text) (fun s' => ContactsAgreeOn P s' ∧ s'.tables.nullRows = s.tables.nullRows) hstep
    ⟨h, rfl⟩
  exact ⟨hnull, hnames⟩

theorem storeEntries_nullRows_le (entries : List ContactEntry) (hs : s.Quiet) :
    s.tables.nullRows.length ≤ (run (storeEntry D) s entries).tables.nullRows.length := by
  induction entries generalizing s with
  | nil => exact le_rfl
  | cons entry entries ih =>
    obtain ⟨hquiet, hle⟩ := storeEntry_nullRows_le (D := D) entry hs
    exact hle.trans (ih hquiet)

/-- a name of a contact without a server is left in a row with the key NULL -/
theorem storeEntries_null (hP : DistinctTexts P) (h : ContactsAgreeOn P s) (hu : ∀ entry ∈ entries, P entry.jid)
    (hnames : ¬NoNullNames entries) :
    s.tables.nullRows.length < (run (storeEntry D) s entries).tables.nullRows.length := by
  induction entries generalizing s with
  | nil => exact absurd (fun entry hmem => absurd hmem not_mem_nil) hnames
  | cons entry entries ih =>
    obtain ⟨huentry, hurest⟩ := forall_mem_cons.1 hu
    rw [run_cons]
    by_cases hserver : entry.jid.server = []
    · by_cases hblank : entry.names = noNames
      · obtain ⟨hnext, htables⟩ := storeEntry_blank (D := D) h huentry hserver hblank
        rw [← htables]
        refine ih hnext hurest fun hrest => hnames (forall_mem_cons.2 ⟨fun _ => hblank, hrest⟩)
      · obtain ⟨hquiet, hlt⟩ := storeEntry_null (D := D) h huentry hserver hblank
        exact hlt.trans_le (storeEntries_nullRows_le entries hquiet)
    · obtain ⟨hnext, hnull, -⟩ := storeEntry_names (D := D) hP h huentry hserver
      rw [← hnull]
      exact ih hnext hurest fun hrest => hnames (forall_mem_cons.2 ⟨fun hno => absurd hno hserver, hrest⟩)

/-! ## All contacts at once -/

/-- the first entry of each JID is kept, and no other one -/
def Deduplication.KeepsFirst (D : Deduplication) : Prop :=
  ∀ {α : Type} (jid : α → JID) (entries : List α) (key : JID),
    (D.overwrite jid entries).filter (fun entry => jid entry = key) = (entries.find? fun entry => jid entry = key).toList

/-- an entry is added if there is none for its JID -/
theorem firstEntries_concat {α : Type} (jid : α → JID) (entries : List α) (entry : α) :
    firstEntries jid (entries ++ [entry]) =
      if ∀ e ∈ firstEntries jid entries, jid entry ≠ jid e then firstEntries jid entries ++ [entry]
      else firstEntries jid entries := by
  unfold firstEntries
  rw [reverse_append, reverse_singleton, singleton_append]
  simp only [mem_reverse]
  split_ifs with h
  · rw [pwFilter_cons_of_pos h, reverse_cons]
  · rw [pwFilter_cons_of_neg h]

theorem keepFirst_keepsFirst : keepFirst.KeepsFirst := by
  intro α jid entries key
  show (firstEntries jid entries).filter (fun entry => jid entry = key) = (entries.find? fun entry => jid entry = key).toList
  induction entries using List.reverseRecOn with
  | nil => rfl
  | append_singleton entries entry ih =>
    rw [firstEntries_concat, find?_append]
    by_cases hkey : jid entry = key
    · -- the entry is kept if no earlier one has the key
      have hkept : (∀ e ∈ firstEntries jid entries, jid entry ≠ jid e) ↔
          (entries.find? fun entry => jid entry = key) = none := by
        rw [← toList_eq_nil_iff, ← ih, filter_eq_nil_iff]
        simp only [hkey, decide_eq_true_eq, ne_comm (a := key)]
      cases hfind : entries.find? fun entry => decide (jid entry = key) with
      | none =>
        rw [if_pos (hkept.2 hfind), filter_append, ih, hfind]
        simp [hkey]
      | some first =>
        rw [if_neg fun hno => some_ne_none first (hfind.symm.trans (hkept.1 hno)), ih, hfind]
        rfl
    · split_ifs
      · rw [filter_append, ih]
        simp [hkey]
      · rw [ih]
        simp [hkey]

theorem setsNames_contactNames (entry : ContactEntry) :
    SetsNames (putContactNamesQuery entry.firstName entry.fullName entry.username) fun _ => entry.names := by
  intro row
  cases row <;> rfl

theorem upsertMany_names (t : ContactTable) (entries : List ContactEntry) :
    let t' := t.upsertMany ContactEntry.jid
      (fun contact => putContactNamesQuery contact.firstName contact.fullName contact.username) entries
    t'.nullRows = t.nullRows ∧ ∀ text, storedNames t' text =
      (lastWrite (fun entry : ContactEntry => some entry.jid.string) ContactEntry.names entries text).getD
        (storedNames t text) := by
  refine run_lastWrite (fun t entry => t.upsert (some entry.jid.string)
      (putContactNamesQuery entry.firstName entry.fullName entry.username)) (fun entry => some entry.jid.string)
    ContactEntry.names storedNames (fun t' => t'.nullRows = t.nullRows) (fun t' entry _ hnull => ⟨hnull, fun text => ?_⟩) rfl
  rw [storedNames_upsert _ _ _ (setsNames_contactNames entry)]
  simp only [some.injEq, eq_comm]

theorem putAllContactNames_tables (hs : s.Quiet) (husername : ∀ entry ∈ entries, entry.usernameSet = true) :
    (putAllContactNames D entries s).2.tables = s.tables.upsertMany ContactEntry.jid
      (fun contact => putContactNamesQuery contact.firstName contact.fullName contact.username)
      (D.overwrite ContactEntry.jid entries) := by
  unfold putAllContactNames
  split_ifs with hnil
  · have hempty : D.overwrite ContactEntry.jid entries = [] := by
      rw [hnil]
      exact subset_nil.1 (D.subset _ _)
    rw [hempty]
    rfl
  · have hall : ∀ entry ∈ D.overwrite ContactEntry.jid entries, entry.hasUsername = true := by
      intro entry hmem
      rw [ContactEntry.hasUsername, husername entry (D.subset _ _ hmem), Bool.true_or]
    have hsplit : splitContactNameEntries (D.overwrite ContactEntry.jid entries) =
        (D.overwrite ContactEntry.jid entries, []) := by
      unfold splitContactNameEntries
      rw [filter_eq_self.2 hall, filter_eq_nil_iff.2 fun entry hmem => by simp [hall entry hmem]]
    have hbody : (do
        putContactBatches ContactEntry.jid
          (fun contact => putContactNamesQuery contact.firstName contact.fullName contact.username)
          (splitContactNameEntries (D.overwrite ContactEntry.jid entries)).1
        putContactBatches ContactEntry.jid
          (fun contact => putContactNameQuery contact.firstName contact.fullName)
          (splitContactNameEntries (D.overwrite ContactEntry.jid entries)).2 : Go ContactSession ContactError Unit) s =
        (.ok (), ⟨s.memory, s.tables.upsertMany ContactEntry.jid
          (fun contact => putContactNamesQuery contact.firstName contact.fullName contact.username)
          (D.overwrite ContactEntry.jid entries), s.faults, s.picks⟩) := by
      rw [bind_ok (putContactBatches_ok _ _ _ hs), hsplit]
      exact putContactBatches_ok _ _ [] hs
    rw [bind_ok (transaction_ok hs hbody hs)]
    rfl

/-- where the JIDs have different texts, the last entry that is kept for a text is the first one that there was -/
theorem lastWrite_overwrite (hD : D.KeepsFirst) (hdistinct : DistinctTexts fun jid => ∃ e ∈ entries, e.jid = jid)
    (text : Bytes) :
    lastWrite (fun entry : ContactEntry => some entry.jid.string) ContactEntry.names
      (D.overwrite ContactEntry.jid entries) text =
    (entries.find? fun entry => entry.jid.string = text).map ContactEntry.names := by
  unfold lastWrite
  congr 1
  simp only [some.injEq]
  by_cases htext : ∃ e ∈ entries, e.jid.string = text
  · obtain ⟨e, he, rfl⟩ := htext
    have hsame : ∀ entry ∈ entries, decide (entry.jid.string = e.jid.string) = decide (entry.jid = e.jid) := by
      intro entry hmem
      rw [decide_eq_decide]
      exact ⟨hdistinct _ _ ⟨entry, hmem, rfl⟩ ⟨e, he, rfl⟩, fun heq => by rw [heq]⟩
    rw [find?_congr hsame, ← head?_filter, filter_reverse,
      filter_congr fun entry hmem => hsame entry (D.subset _ _ hmem), hD ContactEntry.jid entries e.jid]
    cases entries.find? fun entry => decide (entry.jid = e.jid) <;> rfl
  · have hnone : ∀ entry ∈ entries, ¬decide (entry.jid.string = text) = true := by
      intro entry hmem heq
      exact htext ⟨entry, hmem, of_decide_eq_true heq⟩
    rw [find?_eq_none.2 hnone, find?_eq_none.2]
    intro entry hmem
    exact hnone entry (D.subset _ _ (mem_reverse.1 hmem))

/-- the names after all contacts were inserted at once -/
theorem putAllContactNames_names (hD : D.KeepsFirst) (hs : s.Quiet)
    (husername : ∀ entry ∈ entries, entry.usernameSet = true)
    (hdistinct : DistinctTexts fun jid => ∃ e ∈ entries, e.jid = jid) :
    (putAllContactNames D entries s).2.tables.nullRows = s.tables.nullRows ∧
      ∀ text, storedNames (putAllContactNames D entries s).2.tables text =
        ((entries.find? fun entry => entry.jid.string = text).map ContactEntry.names).getD (storedNames s.tables text) := by
  obtain ⟨hnull, hnames⟩ := upsertMany_names s.tables (D.overwrite ContactEntry.jid entries)
  rw [putAllContactNames_tables hs husername]
  refine ⟨hnull, fun text => ?_⟩
  rw [hnames, lastWrite_overwrite hD hdistinct]

end Hypermeow.Store
