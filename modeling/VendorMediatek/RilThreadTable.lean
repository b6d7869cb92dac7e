import VendorMediatek.Faults
import VendorMediatek.RecencyLists

/-!
# The table of threads and their channels

The table is an array with a fixed number of entries; an entry with the thread 0 is not used.
-/

namespace RilThreadTable

open Faults RecencyLists

structure ThreadProxyId where
  cid : ℤ
  pthread : ℤ
  deriving DecidableEq, Repr

def MAX_RIL_CHANNELS (SIM_COUNT : ℕ) : ℕ :=
  if 3 < SIM_COUNT then 24 else if 2 < SIM_COUNT then 18 else if 1 < SIM_COUNT then 12 else 6

/-- The table after RIL_register and RIL_registerSocket have set it to zero. -/
def clearedTable (SIM_COUNT : ℕ) : List ThreadProxyId :=
  List.replicate (MAX_RIL_CHANNELS SIM_COUNT) ⟨0, 0⟩

/-! ## addThreadPid -/

/-- The first loop, with the number of entries from i to the bound. -/
def findEntry (threadPid : List ThreadProxyId) (tid : ℤ) : ℕ → ℕ → Checked ℕ
  | 0, i => pure i
  | left + 1, i => do
    let entry ← read threadPid i
    if entry.pthread ≠ 0 ∧ entry.pthread ≠ tid then findEntry threadPid tid left (i + 1)
    else pure i

/-- The second loop, from j down. -/
def moveDown (threadPid : List ThreadProxyId) : ℕ → Checked (List ThreadProxyId)
  | 0 => pure threadPid
  | j + 1 => do
    let entry ← read threadPid j
    let changed ← put threadPid (j + 1) entry
    moveDown changed j

def addThreadPid (max : ℕ) (threadPid : List ThreadProxyId) (cid tid : ℤ) :
    Checked (List ThreadProxyId) := do
  let found ← findEntry threadPid tid max 0
  let i := if found = max then max - 1 else found
  let moved ← moveDown threadPid i
  put moved 0 ⟨cid, tid⟩

/-- Calls made one after another. -/
def addThreadPids (max : ℕ) (threadPid : List ThreadProxyId) (calls : List ThreadProxyId) :
    Checked (List ThreadProxyId) :=
  calls.foldlM (fun table call => addThreadPid max table call.cid call.pthread) threadPid

/-! ## RIL_myProxyIdByThread -/

/-- The loop tests the entry before the bound. -/
def findSelf (threadPid : List ThreadProxyId) (self : ℤ) : ℕ → ℕ → Checked ℕ
  | left, i => do
    let entry ← read threadPid i
    match left with
    | 0 => pure i
    | left + 1 => if entry.pthread ≠ self then findSelf threadPid self left (i + 1) else pure i

/-- The index the search stops at and the channel that is taken from there. -/
def searchChannel (max : ℕ) (threadPid : List ThreadProxyId) (self : ℤ) : Checked (ℕ × ℤ) := do
  let i ← findSelf threadPid self max 0
  if i < max then
    let entry ← read threadPid i
    pure (i, entry.cid)
  else pure (i, -1)

/-- The function gives what the library gives, not what the search found. -/
def RIL_myProxyIdByThread (max : ℕ) (threadPid : List ThreadProxyId) (self : ℤ)
    (RIL_queryMyProxyIdByThread : ℤ) : Checked ℤ := do
  let _ ← searchChannel max threadPid self
  pure RIL_queryMyProxyIdByThread

/-! ## What one call does to the array -/

def stopsAt (tid : ℤ) (entry : ThreadProxyId) : Bool := entry.pthread = 0 ∨ entry.pthread = tid

theorem findEntry_eq {threadPid : List ThreadProxyId} (tid : ℤ) {left i : ℕ}
    (h : i + left = threadPid.length) :
    findEntry threadPid tid left i = .ok (i + (threadPid.drop i).findIdx (stopsAt tid)) := by
  induction left generalizing i with
  | zero =>
    rw [findEntry, List.drop_of_length_le (by omega)]
    rfl
  | succ left ih =>
    have hi : i < threadPid.length := by omega
    have hread : read threadPid i = .ok threadPid[i] :=
      read_eq_ok.mpr (List.getElem?_eq_getElem hi)
    rw [findEntry, bind_of_ok hread, List.drop_eq_getElem_cons hi, List.findIdx_cons]
    by_cases hstop : stopsAt tid threadPid[i] = true
    · have hnot : ¬ (threadPid[i].pthread ≠ 0 ∧ threadPid[i].pthread ≠ tid) := by
        rw [← not_or, not_not]
        exact of_decide_eq_true hstop
      rw [if_neg hnot, hstop]
      rfl
    · have hgo : threadPid[i].pthread ≠ 0 ∧ threadPid[i].pthread ≠ tid :=
        not_or.mp fun h => hstop (decide_eq_true h)
      rw [if_pos hgo, ih (by omega), Bool.eq_false_iff.mpr hstop, cond_false]
      congr 1
      omega

theorem moveDown_eq {threadPid : List ThreadProxyId} {j : ℕ} (h : j < threadPid.length) :
    moveDown threadPid j = .ok (threadPid.take 1 ++ threadPid.eraseIdx j) := by
  induction j generalizing threadPid with
  | zero =>
    rw [List.eraseIdx_zero, ← List.drop_one, List.take_append_drop]
    rfl
  | succ j ih =>
    have hj : j < threadPid.length := by omega
    have hread : read threadPid j = .ok threadPid[j] :=
      read_eq_ok.mpr (List.getElem?_eq_getElem hj)
    have hput : put threadPid (j + 1) threadPid[j] = .ok (threadPid.set (j + 1) threadPid[j]) :=
      if_pos h
    have hset : j + 1 < (threadPid.set (j + 1) threadPid[j]).length := by rwa [List.length_set]
    rw [moveDown, bind_of_ok hread, bind_of_ok hput, ih (by omega),
      List.eraseIdx_eq_take_drop_succ, List.eraseIdx_eq_take_drop_succ,
      List.take_set_of_le (by omega), List.take_set_of_le (by omega),
      List.drop_eq_getElem_cons hset, List.getElem_set_self, List.drop_set_of_lt (by omega),
      List.take_succ_eq_append_getElem hj, List.append_assoc (threadPid.take j)]
    rfl

theorem addThreadPid_eq {threadPid : List ThreadProxyId} {max i : ℕ} (cid tid : ℤ)
    (hmax : threadPid.length = max) (hpos : 0 < max)
    (hi : (if threadPid.findIdx (stopsAt tid) = max then max - 1
      else threadPid.findIdx (stopsAt tid)) = i) :
    addThreadPid max threadPid cid tid = .ok (⟨cid, tid⟩ :: threadPid.eraseIdx i) := by
  have hle : threadPid.findIdx (stopsAt tid) ≤ threadPid.length := List.findIdx_le_length
  have hlt : i < threadPid.length := by split_ifs at hi <;> omega
  have hfind : findEntry threadPid tid max 0 = .ok (threadPid.findIdx (stopsAt tid)) := by
    rw [findEntry_eq tid (by omega), List.drop_zero, Nat.zero_add]
  obtain ⟨first, rest, rfl⟩ := List.exists_cons_of_length_pos (hmax ▸ hpos)
  rw [addThreadPid, bind_of_ok hfind]
  simp only [hi]
  rw [bind_of_ok (moveDown_eq hlt)]
  rfl

/-! ## The table in terms of its entries -/

abbrev pthreadOf (entry : ThreadProxyId) : ℤ := entry.pthread

/-- The entries that are used, and after them the ones that are not. -/
def padded (max : ℕ) (entries : List ThreadProxyId) : List ThreadProxyId :=
  entries ++ List.replicate (max - entries.length) ⟨0, 0⟩

theorem padded_length {max : ℕ} {entries : List ThreadProxyId} (h : entries.length ≤ max) :
    (padded max entries).length = max := by
  rw [padded, List.length_append, List.length_replicate]
  omega

theorem eraseIdx_findIdx (entries : List ThreadProxyId) (p : ThreadProxyId → Bool) :
    entries.eraseIdx (entries.findIdx p) = entries.eraseP p := by
  induction entries with
  | nil => rfl
  | cons entry entries ih =>
    rw [List.findIdx_cons]
    by_cases h : p entry = true
    · rw [List.eraseP_cons_of_pos h, h]
      rfl
    · rw [List.eraseP_cons_of_neg h, Bool.eq_false_iff.mpr h, cond_false, List.eraseIdx_cons_succ,
        ih]

section Step

variable {max : ℕ} {entries : List ThreadProxyId} {tid : ℤ}

/-- Among entries that are used, the loop can only stop at the thread's own. -/
theorem stopsAt_of_used {entry : ThreadProxyId} (h : entry.pthread ≠ 0) :
    stopsAt tid entry = decide (pthreadOf entry = tid) := by
  rw [stopsAt, decide_eq_decide]
  exact or_iff_right h

theorem eraseP_stopsAt (hused : ∀ entry ∈ entries, entry.pthread ≠ 0) :
    entries.eraseP (stopsAt tid) = entries.eraseP (fun entry => pthreadOf entry = tid) := by
  induction entries with
  | nil => rfl
  | cons entry entries ih =>
    rcases List.forall_mem_cons.mp hused with ⟨hentry, hrest⟩
    rw [List.eraseP_cons, List.eraseP_cons, stopsAt_of_used hentry, ih hrest]

theorem stops_among_used (hused : ∀ entry ∈ entries, entry.pthread ≠ 0) :
    (∃ entry ∈ entries, stopsAt tid entry = true) ↔ tid ∈ entries.map pthreadOf := by
  rw [List.mem_map]
  refine exists_congr fun entry => and_congr_right fun hentry => ?_
  rw [stopsAt_of_used (hused entry hentry), decide_eq_true_iff]

theorem addThreadPid_found (cid : ℤ) (hle : entries.length ≤ max)
    (hused : ∀ entry ∈ entries, entry.pthread ≠ 0) (hmem : tid ∈ entries.map pthreadOf) :
    addThreadPid max (padded max entries) cid tid =
      .ok (padded max (touch pthreadOf max entries ⟨cid, tid⟩)) := by
  have hlt : entries.findIdx (stopsAt tid) < entries.length :=
    List.findIdx_lt_length.mpr ((stops_among_used hused).mpr hmem)
  have hi : (if (padded max entries).findIdx (stopsAt tid) = max then max - 1
      else (padded max entries).findIdx (stopsAt tid)) = entries.findIdx (stopsAt tid) := by
    rw [padded, List.findIdx_append, if_pos hlt, if_neg (by omega)]
  have hlength : (entries.eraseP (stopsAt tid)).length + 1 = entries.length := by
    rw [← eraseIdx_findIdx, List.length_eraseIdx_of_lt hlt]
    omega
  have htouch : touch pthreadOf max entries ⟨cid, tid⟩ =
      ⟨cid, tid⟩ :: entries.eraseP (stopsAt tid) := by
    rw [touch, ← eraseP_stopsAt hused]
    exact List.take_of_length_le (Nat.le_trans (Nat.le_of_eq hlength) hle)
  rw [addThreadPid_eq cid tid (padded_length hle) (by omega) hi, padded,
    List.eraseIdx_append_of_lt_length hlt, eraseIdx_findIdx, htouch, padded, List.length_cons,
    hlength]
  rfl

theorem findIdx_of_new (hused : ∀ entry ∈ entries, entry.pthread ≠ 0)
    (hmem : tid ∉ entries.map pthreadOf) : entries.findIdx (stopsAt tid) = entries.length := by
  have hnot := mt (stops_among_used hused).mp hmem
  rw [← List.findIdx_lt_length] at hnot
  exact Nat.le_antisymm List.findIdx_le_length (Nat.not_lt.mp hnot)

theorem touch_of_new (cid : ℤ) (hmem : tid ∉ entries.map pthreadOf) :
    touch pthreadOf max entries ⟨cid, tid⟩ = (⟨cid, tid⟩ :: entries).take max := by
  rw [touch, List.eraseP_of_forall_not]
  intro entry hentry h
  exact hmem (List.mem_map.mpr ⟨entry, hentry, of_decide_eq_true h⟩)

theorem addThreadPid_free (cid : ℤ) (hlt : entries.length < max)
    (hused : ∀ entry ∈ entries, entry.pthread ≠ 0) (hmem : tid ∉ entries.map pthreadOf) :
    addThreadPid max (padded max entries) cid tid =
      .ok (padded max (touch pthreadOf max entries ⟨cid, tid⟩)) := by
  have hfree : max - entries.length = (max - (entries.length + 1)) + 1 := by omega
  have hi : (if (padded max entries).findIdx (stopsAt tid) = max then max - 1
      else (padded max entries).findIdx (stopsAt tid)) = entries.length := by
    rw [padded, List.findIdx_append, findIdx_of_new hused hmem, if_neg (Nat.lt_irrefl _), hfree,
      List.replicate_succ, List.findIdx_cons]
    show (if 0 + entries.length = max then max - 1 else 0 + entries.length) = entries.length
    rw [Nat.zero_add, if_neg (by omega)]
  rw [addThreadPid_eq cid tid (padded_length (Nat.le_of_lt hlt)) (by omega) hi, padded,
    List.eraseIdx_append_of_length_le (Nat.le_refl _), Nat.sub_self, hfree, List.replicate_succ,
    List.eraseIdx_zero, List.tail_cons, touch_of_new cid hmem,
    List.take_of_length_le (by rw [List.length_cons]; omega), padded, List.length_cons]
  rfl

/-- The thread has no entry and none is free: the last one is dropped. -/
theorem addThreadPid_full (cid : ℤ) (hpos : 0 < max) (hfull : entries.length = max)
    (hused : ∀ entry ∈ entries, entry.pthread ≠ 0) (hmem : tid ∉ entries.map pthreadOf) :
    addThreadPid max (padded max entries) cid tid =
      .ok (padded max (touch pthreadOf max entries ⟨cid, tid⟩)) := by
  have hpadded : padded max entries = entries := by
    rw [padded, hfull, Nat.sub_self, List.replicate_zero, List.append_nil]
  have hi : (if entries.findIdx (stopsAt tid) = max then max - 1
      else entries.findIdx (stopsAt tid)) = max - 1 := by
    rw [findIdx_of_new hused hmem, if_pos hfull]
  obtain ⟨n, rfl⟩ := Nat.exists_eq_add_one_of_ne_zero (Nat.ne_of_gt hpos)
  rw [hpadded, addThreadPid_eq cid tid hfull hpos hi, touch_of_new cid hmem, List.take_succ_cons,
    List.eraseIdx_eq_take_drop_succ, Nat.add_sub_cancel, List.drop_of_length_le (Nat.le_of_eq hfull),
    List.append_nil, padded, List.length_cons, List.length_take, hfull,
    Nat.min_eq_left (Nat.le_succ n), Nat.sub_self, List.replicate_zero, List.append_nil]

theorem addThreadPid_padded (cid : ℤ) (hpos : 0 < max) (hle : entries.length ≤ max)
    (hused : ∀ entry ∈ entries, entry.pthread ≠ 0) :
    addThreadPid max (padded max entries) cid tid =
      .ok (padded max (touch pthreadOf max entries ⟨cid, tid⟩)) := by
  by_cases hmem : tid ∈ entries.map pthreadOf
  · exact addThreadPid_found cid hle hused hmem
  rcases Nat.lt_or_eq_of_le hle with hlt | hfull
  · exact addThreadPid_free cid hlt hused hmem
  · exact addThreadPid_full cid hpos hfull hused hmem

end Step

/-! ## Runs -/

theorem maxRilChannels_pos (SIM_COUNT : ℕ) : 0 < MAX_RIL_CHANNELS SIM_COUNT := by
  unfold MAX_RIL_CHANNELS
  split_ifs <;> decide

theorem used_of_touches {n : ℕ} {calls : List ThreadProxyId}
    (hcalls : ∀ call ∈ calls, call.pthread ≠ 0) :
    ∀ entry ∈ touches pthreadOf n calls, entry.pthread ≠ 0 := by
  intro entry hentry
  have hlatest := latest_of_mem_touches hentry
  exact hcalls entry (List.mem_reverse.mp (List.mem_of_find?_eq_some hlatest))

theorem addThreadPids_eq {max : ℕ} {calls : List ThreadProxyId} (hpos : 0 < max)
    (hcalls : ∀ call ∈ calls, call.pthread ≠ 0) :
    addThreadPids max (List.replicate max ⟨0, 0⟩) calls =
      .ok (padded max (touches pthreadOf max calls)) := by
  induction calls using List.reverseRecOn with
  | nil => rfl
  | append_singleton calls call ih =>
    have hbefore : ∀ call ∈ calls, call.pthread ≠ 0 := fun c hc =>
      hcalls c (List.mem_append_left _ hc)
    rw [addThreadPids, List.foldlM_append, touches_concat]
    refine (bind_of_ok (ih hbefore)).trans ?_
    rw [List.foldlM_cons,
      bind_of_ok (addThreadPid_padded call.cid hpos (touches_length_le max calls)
        (used_of_touches hbefore))]
    rfl

/-! ## The search -/

theorem findSelf_found {threadPid : List ThreadProxyId} {self : ℤ} {left i : ℕ}
    (h : i + left = threadPid.length) (hmem : self ∈ (threadPid.drop i).map pthreadOf) :
    ∃ k entry, findSelf threadPid self left i = .ok k ∧ threadPid[k]? = some entry ∧
      entry.pthread = self := by
  induction left generalizing i with
  | zero =>
    rw [List.drop_of_length_le (by omega)] at hmem
    nomatch hmem
  | succ left ih =>
    have hi : i < threadPid.length := by omega
    have hread : read threadPid i = .ok threadPid[i] :=
      read_eq_ok.mpr (List.getElem?_eq_getElem hi)
    rw [findSelf, bind_of_ok hread]
    by_cases hself : threadPid[i].pthread = self
    · exact ⟨i, threadPid[i], if_neg (not_not_intro hself), List.getElem?_eq_getElem hi, hself⟩
    · rw [List.drop_eq_getElem_cons hi, List.map_cons, List.mem_cons] at hmem
      rcases ih (by omega) (hmem.resolve_left (Ne.symm hself)) with ⟨k, entry, hk, hentry⟩
      exact ⟨k, entry, (if_pos hself).trans hk, hentry⟩

/-- Without an entry of the thread the loop reads the entry after the last one. -/
theorem findSelf_lost {threadPid : List ThreadProxyId} {self : ℤ} {left i : ℕ}
    (h : i + left = threadPid.length) (hmem : self ∉ (threadPid.drop i).map pthreadOf) :
    findSelf threadPid self left i = .error .outside := by
  induction left generalizing i with
  | zero =>
    have hread : read threadPid i = .error .outside := by
      rw [Faults.read, List.getElem?_eq_none (by omega)]
    rw [findSelf, hread]
    rfl
  | succ left ih =>
    have hi : i < threadPid.length := by omega
    have hread : read threadPid i = .ok threadPid[i] :=
      read_eq_ok.mpr (List.getElem?_eq_getElem hi)
    rw [List.drop_eq_getElem_cons hi, List.map_cons, List.mem_cons, not_or] at hmem
    rw [findSelf, bind_of_ok hread]
    exact (if_pos (Ne.symm hmem.1)).trans (ih (by omega) hmem.2)

/-- The threads of the last calls. -/
def keptThreads (max : ℕ) (calls : List ThreadProxyId) : List ℤ :=
  (recent (calls.map pthreadOf)).take max

/-- The search stays inside the table and finds the thread's last channel exactly when the thread
is kept. -/
def FindsLatest (max : ℕ) (calls threadPid : List ThreadProxyId) (self : ℤ) : Prop :=
  ∃ i cid, searchChannel max threadPid self = .ok (i, cid) ∧
    (i < max ↔ self ∈ keptThreads max calls) ∧
    (self ∈ keptThreads max calls →
      (latest pthreadOf calls self).map ThreadProxyId.cid = some cid)

section Search

variable {max : ℕ} {calls : List ThreadProxyId} {self : ℤ}

theorem mem_padded {entries : List ThreadProxyId} {entry : ThreadProxyId}
    (h : entry ∈ padded max entries) (hused : entry.pthread ≠ 0) : entry ∈ entries := by
  rcases List.mem_append.mp h with hentry | hfree
  · exact hentry
  · rw [List.eq_of_mem_replicate hfree] at hused
    exact absurd rfl hused

theorem searchChannel_kept (hcalls : ∀ call ∈ calls, call.pthread ≠ 0)
    (hkept : self ∈ keptThreads max calls) :
    ∃ i entry, i < max ∧ latest pthreadOf calls self = some entry ∧
      searchChannel max (padded max (touches pthreadOf max calls)) self = .ok (i, entry.cid) := by
  have hlength := padded_length (@touches_length_le _ _ _ pthreadOf max calls)
  rw [keptThreads, ← map_key_touches] at hkept
  have hmem : self ∈ ((padded max (touches pthreadOf max calls)).drop 0).map pthreadOf := by
    rw [List.drop_zero, padded, List.map_append]
    exact List.mem_append_left _ hkept
  rcases findSelf_found ((Nat.zero_add max).trans hlength.symm) hmem with
    ⟨i, entry, hfind, hentry, rfl⟩
  have hi : i < max := hlength ▸ (List.getElem?_eq_some_iff.mp hentry).1
  rcases List.mem_map.mp hkept with ⟨own, hown, hthread⟩
  have hused : entry.pthread ≠ 0 := hthread ▸ used_of_touches hcalls own hown
  refine ⟨i, entry, hi, ?_, ?_⟩
  · exact latest_of_mem_touches (mem_padded (List.mem_of_getElem? hentry) hused)
  · rw [searchChannel, bind_of_ok hfind, if_pos hi, bind_of_ok (read_eq_ok.mpr hentry)]
    rfl

theorem lt_of_searchChannel {threadPid : List ThreadProxyId} {i : ℕ} {cid : ℤ}
    (hlength : threadPid.length = max) (h : searchChannel max threadPid self = .ok (i, cid)) :
    i < max := by
  rcases bind_eq_ok.mp h with ⟨k, hfind, hrest⟩
  by_cases hmem : self ∈ (threadPid.drop 0).map pthreadOf
  · rcases findSelf_found ((Nat.zero_add max).trans hlength.symm) hmem with ⟨k', entry, hk, hentry, -⟩
    cases hfind.symm.trans hk
    have hlt : k < max := hlength ▸ (List.getElem?_eq_some_iff.mp hentry).1
    rw [if_pos hlt, bind_of_ok (read_eq_ok.mpr hentry)] at hrest
    cases hrest
    exact hlt
  · rw [findSelf_lost ((Nat.zero_add max).trans hlength.symm) hmem] at hfind
    nomatch hfind

theorem findsLatest_iff (hcalls : ∀ call ∈ calls, call.pthread ≠ 0) :
    FindsLatest max calls (padded max (touches pthreadOf max calls)) self ↔
      self ∈ keptThreads max calls := by
  constructor
  · rintro ⟨i, cid, hsearch, hfound, -⟩
    exact hfound.mp (lt_of_searchChannel (padded_length (touches_length_le max calls)) hsearch)
  · intro hkept
    rcases searchChannel_kept hcalls hkept with ⟨i, entry, hi, hlatest, hsearch⟩
    refine ⟨i, entry.cid, hsearch, iff_of_true hi hkept, fun _ => ?_⟩
    rw [hlatest]
    rfl

/-- A thread that is kept gets the answer of the library, whatever channel the search found. -/
theorem RIL_myProxyIdByThread_kept (hcalls : ∀ call ∈ calls, call.pthread ≠ 0)
    (hkept : self ∈ keptThreads max calls) (RIL_queryMyProxyIdByThread : ℤ) :
    RIL_myProxyIdByThread max (padded max (touches pthreadOf max calls)) self
      RIL_queryMyProxyIdByThread = .ok RIL_queryMyProxyIdByThread := by
  rcases searchChannel_kept hcalls hkept with ⟨i, entry, -, -, hsearch⟩
  rw [RIL_myProxyIdByThread, bind_of_ok hsearch]
  rfl

end Search

/-- What a sequence of calls leaves in the table. -/
structure Holds (max : ℕ) (calls threadPid entries : List ThreadProxyId) : Prop where
  table : threadPid = entries ++ List.replicate (max - entries.length) ⟨0, 0⟩
  kept : entries.map pthreadOf = keptThreads max calls
  once : (entries.map pthreadOf).Nodup
  newestFirst : (entries.map pthreadOf).Pairwise (UsedAfter (calls.map pthreadOf))
  latestCid : ∀ entry ∈ entries, latest pthreadOf calls entry.pthread = some entry

theorem touches_holds (max : ℕ) (calls : List ThreadProxyId) :
    Holds max calls (padded max (touches pthreadOf max calls)) (touches pthreadOf max calls) where
  table := rfl
  kept := map_key_touches max calls
  once := touches_nodup max calls
  newestFirst := by
    rw [map_key_touches]
    exact (recent_pairwise _).sublist (List.take_sublist max _)
  latestCid := fun _ hentry => latest_of_mem_touches hentry

/-- The table follows the calls; the search is right exactly for the threads that are kept, and for
any other thread it reads past the table. -/
theorem thread_table_follows_calls (SIM_COUNT : ℕ) (calls : List ThreadProxyId) (self : ℤ)
    (hcalls : ∀ call ∈ calls, call.pthread ≠ 0) :
    ∃ threadPid entries,
      addThreadPids (MAX_RIL_CHANNELS SIM_COUNT) (clearedTable SIM_COUNT) calls = .ok threadPid ∧
      Holds (MAX_RIL_CHANNELS SIM_COUNT) calls threadPid entries ∧
      (FindsLatest (MAX_RIL_CHANNELS SIM_COUNT) calls threadPid self ↔
        self ∈ keptThreads (MAX_RIL_CHANNELS SIM_COUNT) calls) :=
  ⟨_, _, addThreadPids_eq (maxRilChannels_pos SIM_COUNT) hcalls, touches_holds _ calls,
    findsLatest_iff hcalls⟩

theorem thread_table_follows_two_calls :
    ∃ threadPid entries,
      addThreadPids (MAX_RIL_CHANNELS 2) (clearedTable 2) [⟨3, 7⟩, ⟨4, 8⟩] = .ok threadPid ∧
      Holds (MAX_RIL_CHANNELS 2) [⟨3, 7⟩, ⟨4, 8⟩] threadPid entries ∧
      (FindsLatest (MAX_RIL_CHANNELS 2) [⟨3, 7⟩, ⟨4, 8⟩] threadPid 7 ↔
        (7 : ℤ) ∈ keptThreads (MAX_RIL_CHANNELS 2) [⟨3, 7⟩, ⟨4, 8⟩]) :=
  thread_table_follows_calls 2 [⟨3, 7⟩, ⟨4, 8⟩] 7 (by decide)

/-- A thread that has made no call. -/
theorem search_reads_past_table :
    ∃ threadPid, addThreadPids (MAX_RIL_CHANNELS 2) (clearedTable 2) [⟨3, 7⟩] = .ok threadPid ∧
      searchChannel (MAX_RIL_CHANNELS 2) threadPid 9 = .error .outside ∧
      ¬ FindsLatest (MAX_RIL_CHANNELS 2) [⟨3, 7⟩] threadPid 9 := by
  refine ⟨⟨3, 7⟩ :: List.replicate 11 ⟨0, 0⟩, rfl, rfl, ?_⟩
  rintro ⟨i, cid, h, -⟩
  nomatch h

end RilThreadTable
