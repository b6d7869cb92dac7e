import Mathlib.Data.Finset.Card
import Mathlib.Order.Interval.Finset.Nat
import VendorMediatek.CStrings
import VendorMediatek.NetlinkAttributes

/-!
# What vendor replies are copied to

handleResponse of GetChannelListCommand and of GetFeatureSetCommand in wifi_hal.cpp. The log has
every read, by the attribute whose data it starts at, and every write to the caller's array.
-/

namespace WifiReplyCopies

open NetlinkAttributes

def NL80211_CMD_VENDOR : ℕ := 103
def NL80211_ATTR_VENDOR_DATA : ℕ := 197
def WIFI_ATTRIBUTE_NUM_CHANNELS : ℕ := 2
def WIFI_ATTRIBUTE_CHANNEL_LIST : ℕ := 3
def WIFI_ATTRIBUTE_ROAMING_CAPABILITIES : ℕ := 12

inductive NlAction where
  | NL_OK | NL_SKIP
  deriving DecidableEq, Repr

/-- The vendor data attribute: the length of its data, and the memory from there on. -/
structure VendorData where
  len : ℕ
  mem : Memory

def VendorData.attributes (v : VendorData) : List Attr := Iterator.attributes v.mem ⟨0, v.len⟩

structure Reply where
  cmd : ℕ
  vendorData : Option VendorData

/-- The data of a reply that is not skipped. -/
def Reply.data (reply : Reply) : Option VendorData :=
  if reply.cmd ≠ NL80211_CMD_VENDOR then none
  else reply.vendorData.filter fun v => v.len ≠ 0

structure Log where
  reads : List (Attr × ℕ)
  writes : List (ℕ × ℕ)
  deriving DecidableEq, Repr

def Log.empty : Log := ⟨[], []⟩

def Log.read (log : Log) (a : Attr) (bytes : ℕ) : Log :=
  { log with reads := log.reads ++ [(a, bytes)] }

def Log.write (log : Log) (offset bytes : ℕ) : Log :=
  { log with writes := log.writes ++ [(offset, bytes)] }

/-- The first bytes of an array are overwritten. -/
def memcpy (array source : Memory) (data size : ℕ) : Memory := fun k =>
  if k < size then source (data + k) else array k

/-- What a size_t of so many bits has of a value. -/
def sizeT (bits : ℕ) (x : ℤ) : ℕ := (x % 2 ^ bits).toNat

/-! ## GetChannelListCommand -/

structure ChannelState where
  num_channels : ℤ
  mNumOfChannel : ℤ
  mChannels : Memory
  log : Log

/-- A count is narrowed to an int before it is compared. -/
def channelCount (mMaxChannels : ℕ) (m : Memory) (a : Attr) : ℤ :=
  let num_channels := CStrings.toInt (nla_get_u32 m a)
  if (mMaxChannels : ℤ) < num_channels then mMaxChannels else num_channels

/-- sizeof(wifi_channel) * num_channels -/
def channelBytes (bits : ℕ) (num_channels : ℤ) : ℕ := sizeT bits (4 * num_channels)

def channelTurn (bits mMaxChannels : ℕ) (m : Memory) (s : ChannelState) (a : Attr) :
    ChannelState :=
  if a.type = WIFI_ATTRIBUTE_NUM_CHANNELS then
    { s with
      num_channels := channelCount mMaxChannels m a
      mNumOfChannel := channelCount mMaxChannels m a
      log := s.log.read a 4 }
  else if a.type = WIFI_ATTRIBUTE_CHANNEL_LIST ∧ s.num_channels ≠ 0 then
    let size := channelBytes bits s.num_channels
    { s with
      mChannels := memcpy s.mChannels m a.data size
      log := (s.log.read a size).write 0 size }
  else s

/-- From what the caller has in *num_channels and the array. -/
def GetChannelListCommand.handleResponse (bits mMaxChannels : ℕ) (mNumOfChannel : ℤ)
    (mChannels : Memory) (reply : Reply) : NlAction × ChannelState :=
  let s : ChannelState := ⟨0, mNumOfChannel, mChannels, .empty⟩
  match reply.data with
  | none => (.NL_SKIP, s)
  | some v => (.NL_OK, v.attributes.foldl (channelTurn bits mMaxChannels v.mem) s)

/-! ## GetFeatureSetCommand -/

inductive FeatureType where
  | FEATURE_SET | ROAMING_CAPABILITIES
  | other (type : ℤ)
  deriving DecidableEq, Repr

/-- The arguments of the constructor; of the pointers whether they are set. -/
structure FeatureRequest where
  feature_type : FeatureType
  fset : Bool
  feature_matrix : Bool
  fm_size : Bool
  set_size_max : ℕ
  deriving DecidableEq, Repr

/-- fm_size is what is stored to it, if anything is. -/
structure FeatureState where
  fset : Memory
  feature_matrix : ℕ → ℕ
  fm_size : Option ℤ
  i : ℕ
  log : Log

/-- sizeof(feature_set) -/
def featureSetBytes : ℕ := 4

/-- max has the limits for the black and for the white list. -/
def featureTurn (max : ℕ → ℕ) (set_size_max : ℕ) (m : Memory) (s : FeatureState) (a : Attr) :
    FeatureState :=
  if a.type = WIFI_ATTRIBUTE_ROAMING_CAPABILITIES ∧ s.i < set_size_max then
    let capability := if max s.i < nla_get_u32 m a then max s.i else nla_get_u32 m a
    { s with
      feature_matrix := fun k => if k = s.i then capability else s.feature_matrix k
      i := s.i + 1
      log := (s.log.read a 4).write (featureSetBytes * s.i) featureSetBytes }
  else s

def GetFeatureSetCommand.handleResponse (max : ℕ → ℕ) (request : FeatureRequest) (fset : Memory)
    (feature_matrix : ℕ → ℕ) (reply : Reply) : NlAction × FeatureState :=
  let s : FeatureState := ⟨fset, feature_matrix, none, 0, .empty⟩
  match reply.data with
  | none => (.NL_SKIP, s)
  | some v =>
    match request.feature_type with
    | .FEATURE_SET =>
      if request.fset = false then (.NL_SKIP, s)
      else
        let size := min v.len featureSetBytes
        (.NL_OK,
          { s with
            fset := memcpy s.fset v.mem 0 size
            log := (s.log.read ⟨0, v.len, NL80211_ATTR_VENDOR_DATA⟩ size).write 0 size })
    | .ROAMING_CAPABILITIES =>
      if request.feature_matrix = false ∨ request.fm_size = false then (.NL_SKIP, s)
      else
        (.NL_OK, v.attributes.foldl (featureTurn max request.set_size_max v.mem)
          { s with fm_size := some request.set_size_max })
    | .other _ => (.NL_OK, s)

/-! ## What the caller relies on -/

/-- The bytes of the caller's array that were written. -/
def filled (writes : List (ℕ × ℕ)) : Finset ℕ :=
  writes.foldr (fun w bytes => Finset.Ico w.1 (w.1 + w.2) ∪ bytes) ∅

/-- How many entries of the caller's array, of 4 bytes each, were copied from the reply. -/
def Log.entries (log : Log) : ℕ := (filled log.writes).card / 4

/-- The reported count fits the caller's array and is the number of entries copied; what is read is
inside its attribute, and what is written inside the array. -/
structure Sound (room : ℕ) (reported : Option ℤ) (log : Log) : Prop where
  count : ∀ r ∈ reported, 0 ≤ r ∧ r ≤ room ∧ r = log.entries
  inside : ∀ x ∈ log.reads, x.2 ≤ x.1.len
  within : ∀ w ∈ log.writes, w.1 + w.2 ≤ 4 * room

/-- The last of the counts. -/
def lastCount (mMaxChannels : ℕ) (m : Memory) (attrs : List Attr) : Option ℤ :=
  (attrs.filter fun a => a.type = WIFI_ATTRIBUTE_NUM_CHANNELS).getLast?.map
    (channelCount mMaxChannels m)

/-- Among the attributes is this channel list, and the last count before it is c, which is not 0. -/
def Listed (mMaxChannels : ℕ) (m : Memory) (attrs : List Attr) (a : Attr) (c : ℤ) : Prop :=
  a.type = WIFI_ATTRIBUTE_CHANNEL_LIST ∧ c ≠ 0 ∧
    ∃ before after, attrs = before ++ a :: after ∧ lastCount mMaxChannels m before = some c

/-- Every count has its 4 bytes, every list has the bytes of the count before it and these fit the
array, and the count reported at the end is that of the largest list, or 0 if there is none. -/
structure ChannelsFit (bits mMaxChannels : ℕ) (mNumOfChannel : ℤ) (m : Memory)
    (attrs : List Attr) : Prop where
  counts : ∀ a ∈ attrs, a.type = WIFI_ATTRIBUTE_NUM_CHANNELS → 4 ≤ a.len
  lists : ∀ a c, Listed mMaxChannels m attrs a c →
    channelBytes bits c ≤ a.len ∧ channelBytes bits c ≤ 4 * mMaxChannels
  reported : ∃ r : ℕ, (lastCount mMaxChannels m attrs).getD mNumOfChannel = r ∧ r ≤ mMaxChannels ∧
    (∀ a c, Listed mMaxChannels m attrs a c → channelBytes bits c / 4 ≤ r) ∧
    (r = 0 ∨ ∃ a c, Listed mMaxChannels m attrs a c ∧ channelBytes bits c / 4 = r)

def capabilities (attrs : List Attr) : List Attr :=
  attrs.filter fun a => a.type = WIFI_ATTRIBUTE_ROAMING_CAPABILITIES

/-- There are capabilities for the whole array, and those that go into it have their 4 bytes. -/
def CapabilitiesFit (set_size_max : ℕ) (attrs : List Attr) : Prop :=
  set_size_max ≤ (capabilities attrs).length ∧
    ∀ a ∈ (capabilities attrs).take set_size_max, 4 ≤ a.len

/-- Capabilities are asked for with both pointers set. -/
def FeatureRequest.CapabilitiesAsked (request : FeatureRequest) : Prop :=
  request.feature_type = .ROAMING_CAPABILITIES ∧ request.feature_matrix ∧ request.fm_size

/-! ## The bytes that were written -/

@[simp] theorem mem_filled {writes : List (ℕ × ℕ)} {k : ℕ} :
    k ∈ filled writes ↔ ∃ w ∈ writes, w.1 ≤ k ∧ k < w.1 + w.2 := by
  induction writes with
  | nil => simp [filled]
  | cons w writes ih =>
    have hunion : filled (w :: writes) = Finset.Ico w.1 (w.1 + w.2) ∪ filled writes := rfl
    simp [hunion, ih]

/-- Writes that all start at the array's start are as good as the longest. -/
theorem exists_longest {writes : List (ℕ × ℕ)} (hstart : ∀ w ∈ writes, w.1 = 0) :
    ∃ n, (∀ w ∈ writes, w.2 ≤ n) ∧ (n = 0 ∨ ∃ w ∈ writes, w.2 = n) ∧
      filled writes = Finset.range n := by
  induction writes with
  | nil => exact ⟨0, by simp, .inl rfl, rfl⟩
  | cons w writes ih =>
    rcases List.forall_mem_cons.mp hstart with ⟨hw, hstart⟩
    obtain ⟨n, hle, hlongest, hfilled⟩ := ih hstart
    refine ⟨max w.2 n, ?_, ?_, ?_⟩
    · rw [List.forall_mem_cons]
      exact ⟨le_max_left _ _, fun v hv => (hle v hv).trans (le_max_right _ _)⟩
    · rcases max_choice w.2 n with h | h
      · exact .inr ⟨w, List.mem_cons_self, h.symm⟩
      · rcases hlongest with hn | ⟨v, hv, hvn⟩
        · exact .inl (h.trans hn)
        · exact .inr ⟨v, List.mem_cons_of_mem _ hv, hvn.trans h.symm⟩
    · ext k
      have hk := congrArg (k ∈ ·) hfilled
      simp only [mem_filled, Finset.mem_range, eq_iff_iff] at hk
      simp only [mem_filled, List.exists_mem_cons_iff, hk, hw, Finset.mem_range, lt_max_iff]
      omega

theorem entries_eq_iff {log : Log} (hstart : ∀ w ∈ log.writes, w.1 = 0) (r : ℕ) :
    log.entries = r ↔
      (∀ w ∈ log.writes, w.2 / 4 ≤ r) ∧ (r = 0 ∨ ∃ w ∈ log.writes, w.2 / 4 = r) := by
  obtain ⟨n, hle, hlongest, hfilled⟩ := exists_longest hstart
  have hentries : log.entries = n / 4 := by
    rw [Log.entries, hfilled, Finset.card_range]
  rw [hentries]
  constructor
  · rintro rfl
    refine ⟨fun w hw => Nat.div_le_div_right (hle w hw), ?_⟩
    rcases hlongest with rfl | ⟨w, hw, rfl⟩
    · exact .inl rfl
    · exact .inr ⟨w, hw, rfl⟩
  · rintro ⟨hbound, hattained⟩
    apply Nat.le_antisymm
    · rcases hlongest with rfl | ⟨w, hw, rfl⟩
      · exact Nat.zero_le r
      · exact hbound w hw
    · rcases hattained with rfl | ⟨w, hw, rfl⟩
      · exact Nat.zero_le _
      · exact Nat.div_le_div_right (hle w hw)

/-! ## The run over the channel attributes -/

section Channels

variable (bits mMaxChannels : ℕ) (m : Memory)

theorem lastCount_append (attrs : List Attr) (b : Attr) :
    lastCount mMaxChannels m (attrs ++ [b]) =
      if b.type = WIFI_ATTRIBUTE_NUM_CHANNELS then some (channelCount mMaxChannels m b)
      else lastCount mMaxChannels m attrs := by
  unfold lastCount
  split_ifs with h
  · simp [List.filter_append, h]
  · simp [List.filter_append, h]

theorem listed_append {attrs : List Attr} {a b : Attr} {c : ℤ} :
    Listed mMaxChannels m (attrs ++ [b]) a c ↔
      Listed mMaxChannels m attrs a c ∨
        (a = b ∧ b.type = WIFI_ATTRIBUTE_CHANNEL_LIST ∧ c ≠ 0 ∧
          lastCount mMaxChannels m attrs = some c) := by
  constructor
  · rintro ⟨htype, hc, before, after, hattrs, hcount⟩
    rcases List.eq_nil_or_concat after with rfl | ⟨after, last, rfl⟩
    · obtain ⟨rfl, hlast⟩ := List.append_inj' hattrs rfl
      cases hlast
      exact .inr ⟨rfl, htype, hc, hcount⟩
    · have hsplit : attrs ++ [b] = (before ++ a :: after) ++ [last] := by simpa using hattrs
      obtain ⟨hfront, -⟩ := List.append_inj' hsplit rfl
      exact .inl ⟨htype, hc, before, after, hfront, hcount⟩
  · rintro (⟨htype, hc, before, after, rfl, hcount⟩ | ⟨rfl, htype, hc, hcount⟩)
    · exact ⟨htype, hc, before, after ++ [b], by simp, hcount⟩
    · exact ⟨htype, hc, attrs, [], rfl, hcount⟩

theorem lastCount_append_of_ne {attrs : List Attr} {b : Attr}
    (h : b.type ≠ WIFI_ATTRIBUTE_NUM_CHANNELS) :
    lastCount mMaxChannels m (attrs ++ [b]) = lastCount mMaxChannels m attrs :=
  (lastCount_append mMaxChannels m attrs b).trans (if_neg h)

/-- An attribute that is no list, or comes when no count is in force, is not listed. -/
theorem listed_append_of_not {attrs : List Attr} {b : Attr}
    (h : ¬(b.type = WIFI_ATTRIBUTE_CHANNEL_LIST ∧ (lastCount mMaxChannels m attrs).getD 0 ≠ 0))
    (a : Attr) (c : ℤ) :
    Listed mMaxChannels m (attrs ++ [b]) a c ↔ Listed mMaxChannels m attrs a c := by
  rw [listed_append]
  refine or_iff_left ?_
  rintro ⟨-, htype, hc, hcount⟩
  exact h ⟨htype, by rw [hcount]; exact hc⟩

theorem listed_append_of_inForce {attrs : List Attr} {b : Attr} {n : ℤ}
    (htype : b.type = WIFI_ATTRIBUTE_CHANNEL_LIST)
    (hn : n = (lastCount mMaxChannels m attrs).getD 0) (hne : n ≠ 0) (a : Attr) (c : ℤ) :
    Listed mMaxChannels m (attrs ++ [b]) a c ↔
      Listed mMaxChannels m attrs a c ∨ (a = b ∧ c = n) := by
  have hcount : lastCount mMaxChannels m attrs = some n := by
    cases h : lastCount mMaxChannels m attrs with
    | none => exact absurd (hn.trans (by rw [h]; rfl)) hne
    | some c => exact congrArg some (by rw [hn, h]; rfl)
  rw [listed_append, hcount]
  grind

/-- What the loop leaves behind the attributes it has gone over. -/
structure ChannelRun (mNumOfChannel : ℤ) (attrs : List Attr) (s : ChannelState) : Prop where
  inForce : s.num_channels = (lastCount mMaxChannels m attrs).getD 0
  reported : s.mNumOfChannel = (lastCount mMaxChannels m attrs).getD mNumOfChannel
  reads : ∀ x, x ∈ s.log.reads ↔
    (∃ a ∈ attrs, a.type = WIFI_ATTRIBUTE_NUM_CHANNELS ∧ x = (a, 4)) ∨
      ∃ a c, Listed mMaxChannels m attrs a c ∧ x = (a, channelBytes bits c)
  writes : ∀ w, w ∈ s.log.writes ↔
    ∃ a c, Listed mMaxChannels m attrs a c ∧ w = (0, channelBytes bits c)

theorem channelRun_nil (mNumOfChannel : ℤ) (mChannels : Memory) :
    ChannelRun bits mMaxChannels m mNumOfChannel [] ⟨0, mNumOfChannel, mChannels, .empty⟩ := by
  have hnone : ∀ a c, ¬Listed mMaxChannels m [] a c := by
    rintro a c ⟨-, -, before, after, h, -⟩
    exact absurd h (by simp)
  exact
    { inForce := rfl
      reported := rfl
      reads := by simp [Log.empty, hnone]
      writes := by simp [Log.empty, hnone] }

variable {bits mMaxChannels m}

theorem channelRun_append {mNumOfChannel : ℤ} {attrs : List Attr} {s : ChannelState}
    (run : ChannelRun bits mMaxChannels m mNumOfChannel attrs s) (b : Attr) :
    ChannelRun bits mMaxChannels m mNumOfChannel (attrs ++ [b])
      (channelTurn bits mMaxChannels m s b) := by
  obtain ⟨inForce, reported, reads, writes⟩ := run
  unfold channelTurn
  split_ifs with hnum hlist
  · -- a count
    have hlast : lastCount mMaxChannels m (attrs ++ [b]) = some (channelCount mMaxChannels m b) := by
      rw [lastCount_append, if_pos hnum]
    have hlisted := @listed_append_of_not mMaxChannels m attrs b fun h =>
      absurd (hnum.symm.trans h.1) (by decide)
    exact
      { inForce := by rw [hlast, Option.getD_some]
        reported := by rw [hlast, Option.getD_some]
        reads := fun x => by
          simp only [Log.read, List.mem_append, List.mem_singleton, reads, hlisted]
          grind
        writes := fun w => by simp only [Log.read, writes, hlisted] }
  · -- a list that is copied
    have hlast := @lastCount_append_of_ne mMaxChannels m attrs b hnum
    have hlisted := @listed_append_of_inForce mMaxChannels m attrs b _ hlist.1 inForce hlist.2
    exact
      { inForce := by rw [hlast]; exact inForce
        reported := by rw [hlast]; exact reported
        reads := fun x => by
          simp only [Log.read, Log.write, List.mem_append, List.mem_singleton, reads, hlisted]
          grind
        writes := fun w => by
          simp only [Log.read, Log.write, List.mem_append, List.mem_singleton, writes, hlisted]
          grind }
  · -- an attribute that is ignored
    have hlast := @lastCount_append_of_ne mMaxChannels m attrs b hnum
    have hlisted := @listed_append_of_not mMaxChannels m attrs b (by rwa [← inForce])
    exact
      { inForce := by rw [hlast]; exact inForce
        reported := by rw [hlast]; exact reported
        reads := fun x => by
          simp only [reads, hlisted, List.mem_append, List.mem_singleton]
          grind
        writes := fun w => by simp only [writes, hlisted] }

theorem channelRun_foldl (mNumOfChannel : ℤ) (mChannels : Memory) (attrs : List Attr) :
    ChannelRun bits mMaxChannels m mNumOfChannel attrs
      (attrs.foldl (channelTurn bits mMaxChannels m)
        ⟨0, mNumOfChannel, mChannels, .empty⟩) := by
  induction attrs using List.reverseRecOn with
  | nil => exact channelRun_nil bits mMaxChannels m mNumOfChannel mChannels
  | append_singleton attrs b ih =>
    rw [List.foldl_append]
    exact channelRun_append ih b

theorem ChannelRun.sound_iff {mNumOfChannel : ℤ} {attrs : List Attr} {s : ChannelState}
    (run : ChannelRun bits mMaxChannels m mNumOfChannel attrs s) :
    Sound mMaxChannels (some s.mNumOfChannel) s.log ↔
      ChannelsFit bits mMaxChannels mNumOfChannel m attrs := by
  have hstart : ∀ w ∈ s.log.writes, w.1 = 0 := by
    intro w hw
    obtain ⟨a, c, -, rfl⟩ := (run.writes w).mp hw
    rfl
  have hentries := entries_eq_iff hstart
  constructor
  · rintro ⟨count, inside, within⟩
    obtain ⟨hnonneg, hroom, hcopied⟩ := count _ rfl
    obtain ⟨hbound, hlongest⟩ := (hentries s.log.entries).mp rfl
    refine ⟨fun a ha htype => ?_, fun a c hlisted => ⟨?_, ?_⟩, s.log.entries, ?_, ?_, ?_, ?_⟩
    · exact inside (a, 4) ((run.reads _).mpr (.inl ⟨a, ha, htype, rfl⟩))
    · exact inside (a, channelBytes bits c) ((run.reads _).mpr (.inr ⟨a, c, hlisted, rfl⟩))
    · have hw := within (0, channelBytes bits c) ((run.writes _).mpr ⟨a, c, hlisted, rfl⟩)
      simpa using hw
    · rw [← run.reported, hcopied]
    · omega
    · intro a c hlisted
      exact hbound (0, channelBytes bits c) ((run.writes _).mpr ⟨a, c, hlisted, rfl⟩)
    · refine hlongest.imp_right ?_
      rintro ⟨w, hw, hentry⟩
      obtain ⟨a, c, hlisted, rfl⟩ := (run.writes w).mp hw
      exact ⟨a, c, hlisted, hentry⟩
  · rintro ⟨counts, lists, r, hreported, hroom, hbound, hlongest⟩
    have hcopied : s.log.entries = r := by
      refine (hentries r).mpr ⟨fun w hw => ?_, hlongest.imp_right ?_⟩
      · obtain ⟨a, c, hlisted, rfl⟩ := (run.writes w).mp hw
        exact hbound a c hlisted
      · rintro ⟨a, c, hlisted, hentry⟩
        exact ⟨_, (run.writes _).mpr ⟨a, c, hlisted, rfl⟩, hentry⟩
    refine ⟨?_, fun x hx => ?_, fun w hw => ?_⟩
    · rintro count ⟨⟩
      rw [run.reported, hreported]
      omega
    · rcases (run.reads x).mp hx with ⟨a, ha, htype, rfl⟩ | ⟨a, c, hlisted, rfl⟩
      · exact counts a ha htype
      · exact (lists a c hlisted).1
    · obtain ⟨a, c, hlisted, rfl⟩ := (run.writes w).mp hw
      simpa using (lists a c hlisted).2

theorem ChannelRun.reads_inside {v : VendorData} {mNumOfChannel : ℤ} {s : ChannelState}
    (run : ChannelRun bits mMaxChannels v.mem mNumOfChannel v.attributes s) {room : ℕ}
    {reported : Option ℤ} (sound : Sound room reported s.log) :
    ∀ x ∈ s.log.reads, x.1.data + x.2 ≤ v.len := by
  intro x hx
  have hmem : x.1 ∈ v.attributes := by
    rcases (run.reads x).mp hx with ⟨a, ha, -, rfl⟩ | ⟨a, c, hlisted, rfl⟩
    · exact ha
    · obtain ⟨-, -, before, after, hattrs, -⟩ := hlisted
      simp [hattrs]
  have inside : (x.1.data + x.1.len : ℤ) ≤ (0 : ℕ) + (v.len : ℤ) :=
    (Iterator.attributes_inside hmem).2
  have hlen := sound.inside x hx
  omega

end Channels

/-! ## The run over the capabilities -/

section Capabilities

variable {max : ℕ → ℕ} {set_size_max : ℕ} {m : Memory}

/-- What the loop leaves behind the attributes it has gone over. -/
structure FeatureRun (set_size_max : ℕ) (fm_size : Option ℤ) (attrs : List Attr)
    (s : FeatureState) : Prop where
  size : s.fm_size = fm_size
  taken : s.i = min set_size_max (capabilities attrs).length
  reads : s.log.reads = ((capabilities attrs).take set_size_max).map fun a => (a, 4)
  writes : s.log.writes = (List.range s.i).map fun k => (featureSetBytes * k, featureSetBytes)

theorem featureRun_append {fm_size : Option ℤ} {attrs : List Attr} {s : FeatureState}
    (run : FeatureRun set_size_max fm_size attrs s) (b : Attr) :
    FeatureRun set_size_max fm_size (attrs ++ [b]) (featureTurn max set_size_max m s b) := by
  obtain ⟨size, taken, reads, writes⟩ := run
  by_cases hstored : b.type = WIFI_ATTRIBUTE_ROAMING_CAPABILITIES ∧ s.i < set_size_max
  · rw [featureTurn, if_pos hstored]
    obtain ⟨htype, hroom⟩ := hstored
    have hcaps : capabilities (attrs ++ [b]) = capabilities attrs ++ [b] := by
      simp [capabilities, htype]
    have hfew : (capabilities attrs).length < set_size_max := by omega
    refine ⟨size, ?_, ?_, ?_⟩
    · rw [hcaps, List.length_append, List.length_singleton]
      show s.i + 1 = min set_size_max ((capabilities attrs).length + 1)
      omega
    · have htake : (capabilities attrs ++ [b]).take set_size_max = capabilities attrs ++ [b] :=
        List.take_of_length_le (by rw [List.length_append]; exact hfew)
      rw [List.take_of_length_le (Nat.le_of_lt hfew)] at reads
      simp only [Log.read, Log.write, reads, hcaps, htake, List.map_append, List.map_singleton]
    · simp only [Log.read, Log.write, writes, List.range_succ, List.map_append,
        List.map_singleton]
  · rw [featureTurn, if_neg hstored]
    refine ⟨size, ?_, ?_, writes⟩
    · by_cases htype : b.type = WIFI_ATTRIBUTE_ROAMING_CAPABILITIES
      · have hfull : set_size_max ≤ s.i := Nat.not_lt.mp fun h => hstored ⟨htype, h⟩
        simp [capabilities, htype] at *
        omega
      · simpa [capabilities, htype] using taken
    · by_cases htype : b.type = WIFI_ATTRIBUTE_ROAMING_CAPABILITIES
      · have hfull : set_size_max ≤ (capabilities attrs).length := by
          have h : set_size_max ≤ s.i := Nat.not_lt.mp fun h => hstored ⟨htype, h⟩
          omega
        have hcaps : capabilities (attrs ++ [b]) = capabilities attrs ++ [b] := by
          simp [capabilities, htype]
        rw [hcaps, List.take_append_of_le_length hfull]
        exact reads
      · simpa [capabilities, htype] using reads

theorem featureRun_foldl (fset : Memory) (feature_matrix : ℕ → ℕ) (fm_size : Option ℤ)
    (attrs : List Attr) :
    FeatureRun set_size_max fm_size attrs
      (attrs.foldl (featureTurn max set_size_max m)
        ⟨fset, feature_matrix, fm_size, 0, .empty⟩) := by
  induction attrs using List.reverseRecOn with
  | nil => exact ⟨rfl, (Nat.min_zero _).symm, by simp [capabilities, Log.empty], rfl⟩
  | append_singleton attrs b ih =>
    rw [List.foldl_append]
    exact featureRun_append ih b

theorem filled_range (n : ℕ) :
    filled ((List.range n).map fun k => (featureSetBytes * k, featureSetBytes)) =
      Finset.range (4 * n) := by
  ext k
  simp only [mem_filled, List.mem_map, List.mem_range, Finset.mem_range, featureSetBytes]
  constructor
  · rintro ⟨w, ⟨j, hj, rfl⟩, hk⟩
    omega
  · intro hk
    exact ⟨_, ⟨k / 4, by omega, rfl⟩, by omega⟩

theorem FeatureRun.entries {fm_size : Option ℤ} {attrs : List Attr} {s : FeatureState}
    (run : FeatureRun set_size_max fm_size attrs s) : s.log.entries = s.i := by
  rw [Log.entries, run.writes, filled_range, Finset.card_range]
  omega

theorem FeatureRun.sound_iff {attrs : List Attr} {s : FeatureState}
    (run : FeatureRun set_size_max (some set_size_max) attrs s) :
    Sound set_size_max s.fm_size s.log ↔ CapabilitiesFit set_size_max attrs := by
  have taken := run.taken
  have hinside : (∀ x ∈ s.log.reads, x.2 ≤ x.1.len) ↔
      ∀ a ∈ (capabilities attrs).take set_size_max, 4 ≤ a.len := by
    rw [run.reads]
    exact List.forall_mem_map
  constructor
  · rintro ⟨count, inside, -⟩
    have hall := (count set_size_max (by rw [run.size]; rfl)).2.2
    rw [run.entries] at hall
    refine ⟨?_, hinside.mp inside⟩
    show set_size_max ≤ (capabilities attrs).length
    omega
  · rintro ⟨hall, inside⟩
    have hlength : set_size_max ≤ (capabilities attrs).length := hall
    refine ⟨?_, hinside.mpr inside, ?_⟩
    · rw [run.size, run.entries]
      rintro r ⟨⟩
      omega
    · rw [run.writes]
      refine List.forall_mem_map.mpr fun k hk => ?_
      have hk := List.mem_range.mp hk
      simp only [featureSetBytes]
      omega

end Capabilities

/-! ## Every reply -/

def ChannelReplySound (bits mMaxChannels : ℕ) (mNumOfChannel : ℤ) (mChannels : Memory)
    (reply : Reply) : Prop :=
  let s := GetChannelListCommand.handleResponse bits mMaxChannels mNumOfChannel mChannels reply
  s.1 = .NL_OK → Sound mMaxChannels (some s.2.mNumOfChannel) s.2.log

/-- How many entries the caller has room for. -/
def FeatureRequest.room (request : FeatureRequest) : ℕ :=
  match request.feature_type with
  | .FEATURE_SET => 1
  | _ => request.set_size_max

def FeatureReplySound (max : ℕ → ℕ) (request : FeatureRequest) (fset : Memory)
    (feature_matrix : ℕ → ℕ) (reply : Reply) : Prop :=
  let s := GetFeatureSetCommand.handleResponse max request fset feature_matrix reply
  s.1 = .NL_OK → Sound request.room s.2.fm_size s.2.log

theorem channelReplySound_iff (bits mMaxChannels : ℕ) (mNumOfChannel : ℤ) (mChannels : Memory)
    (reply : Reply) :
    ChannelReplySound bits mMaxChannels mNumOfChannel mChannels reply ↔
      ∀ v ∈ reply.data, ChannelsFit bits mMaxChannels mNumOfChannel v.mem v.attributes := by
  unfold ChannelReplySound GetChannelListCommand.handleResponse
  cases reply.data with
  | none => exact iff_of_true nofun nofun
  | some v =>
    have run : ChannelRun bits mMaxChannels v.mem mNumOfChannel v.attributes _ :=
      channelRun_foldl mNumOfChannel mChannels v.attributes
    constructor
    · rintro h w ⟨⟩
      exact run.sound_iff.mp (h rfl)
    · intro h
      exact fun _ => run.sound_iff.mpr (h v rfl)

/-- A feature set is never copied past the attribute nor past the set. -/
theorem sound_featureSet (len : ℕ) :
    Sound 1 none ((Log.empty.read ⟨0, len, NL80211_ATTR_VENDOR_DATA⟩
      (min len featureSetBytes)).write 0 (min len featureSetBytes)) := by
  refine ⟨nofun, fun x hx => ?_, fun w hw => ?_⟩
  · obtain rfl := List.mem_singleton.mp hx
    exact Nat.min_le_left _ _
  · obtain rfl := List.mem_singleton.mp hw
    simp only [featureSetBytes]
    omega

theorem sound_empty (room : ℕ) : Sound room none Log.empty := ⟨nofun, nofun, nofun⟩

theorem featureReplySound_iff (max : ℕ → ℕ) (request : FeatureRequest) (fset : Memory)
    (feature_matrix : ℕ → ℕ) (reply : Reply) :
    FeatureReplySound max request fset feature_matrix reply ↔
      (request.CapabilitiesAsked →
        ∀ v ∈ reply.data, CapabilitiesFit request.set_size_max v.attributes) := by
  obtain ⟨feature_type, fset_set, matrix_set, size_set, set_size_max⟩ := request
  unfold FeatureReplySound GetFeatureSetCommand.handleResponse
  cases reply.data with
  | none => exact iff_of_true nofun nofun
  | some v =>
    cases feature_type with
    | FEATURE_SET =>
      refine iff_of_true ?_ fun asked => nomatch asked.1
      cases fset_set with
      | false => exact nofun
      | true => exact fun _ => sound_featureSet v.len
    | other type => exact iff_of_true (fun _ => sound_empty _) fun asked => nomatch asked.1
    | ROAMING_CAPABILITIES =>
      by_cases hnull : matrix_set = false ∨ size_set = false
      · simp only [if_pos hnull]
        refine iff_of_true nofun fun asked => ?_
        rcases hnull with rfl | rfl
        · exact nomatch asked.2.1
        · exact nomatch asked.2.2
      · have run : FeatureRun set_size_max (some set_size_max) v.attributes _ :=
          @featureRun_foldl max set_size_max v.mem fset feature_matrix _ v.attributes
        have hset : matrix_set = true ∧ size_set = true := by simpa using hnull
        simp only [if_neg hnull]
        constructor
        · rintro h - w ⟨⟩
          exact run.sound_iff.mp (h trivial)
        · intro h _
          exact run.sound_iff.mpr (h ⟨rfl, hset⟩ v rfl)

/-- Both handlers copy soundly from a reply exactly when its attributes fit. -/
theorem handleResponse_sound_iff (bits mMaxChannels : ℕ) (mNumOfChannel : ℤ)
    (mChannels : Memory) (max : ℕ → ℕ) (request : FeatureRequest) (fset : Memory)
    (feature_matrix : ℕ → ℕ) (reply : Reply) :
    (ChannelReplySound bits mMaxChannels mNumOfChannel mChannels reply ↔
        ∀ v ∈ reply.data, ChannelsFit bits mMaxChannels mNumOfChannel v.mem v.attributes) ∧
      (FeatureReplySound max request fset feature_matrix reply ↔
        (request.CapabilitiesAsked →
          ∀ v ∈ reply.data, CapabilitiesFit request.set_size_max v.attributes)) :=
  ⟨channelReplySound_iff bits mMaxChannels mNumOfChannel mChannels reply,
    featureReplySound_iff max request fset feature_matrix reply⟩

/-- A count of two and a list of one channel. -/
def shortListReply : Reply where
  cmd := NL80211_CMD_VENDOR
  vendorData := some ⟨16, fun k => [8, 0, 2, 0, 2, 0, 0, 0, 8, 0, 3, 0, 36, 0, 0, 0].getD k 0⟩

/-- Two channels are copied out of a list that has one. -/
theorem shortListReply_overread :
    ¬∀ (bits mMaxChannels : ℕ) (mNumOfChannel : ℤ) (mChannels : Memory) (max : ℕ → ℕ)
        (request : FeatureRequest) (fset : Memory) (feature_matrix : ℕ → ℕ) (reply : Reply),
      ChannelReplySound bits mMaxChannels mNumOfChannel mChannels reply ∧
        FeatureReplySound max request fset feature_matrix reply := by
  intro h
  have sound := (h 64 4 0 (fun _ => 0) (fun _ => 0) ⟨.other 0, false, false, false, 2⟩
    (fun _ => 0) (fun _ => 0) shortListReply).1 rfl
  have outside := sound.inside (⟨12, 4, 3⟩, 8) (by decide)
  exact absurd outside (by decide)

end WifiReplyCopies
