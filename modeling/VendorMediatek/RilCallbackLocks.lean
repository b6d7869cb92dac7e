import VendorMediatek.RilCallbacks

/-!
# Who holds a lock of the callbacks

What a step of a thread does, and that the read and write locks that a thread holds are told by the
functions on its stack, in any interleaving.
-/

namespace RilCallbacks

open LabelledRuns ReadWriteLock
open RilChannelQueue (RILSocketId)

/-! ## What a step does -/

def Stage.Quiet : Stage → Prop
  | .running | .inVendor => True
  | _ => False

/-- The stages that a function goes through. -/
inductive Transition (s : State) (slotId : RILSocketId) (ok : Bool) :
    Stage → Stage → Op → Option (Service × Callbacks) → Prop where
  | quiet {a b : Stage} (ha : a.Quiet) (hb : b.Quiet) : Transition s slotId ok a b .keep none
  | call (service : Service) (member : Member) : Transition s slotId ok .running
      (.calling ⟨service, member, (s.callbacks slotId service).get member,
        s.updates slotId service⟩) .keep none
  | well (u : Used) (hok : ok = true) : Transition s slotId ok (.calling u) .running .keep none
  | fails (u : Used) (hok : ok = false) :
      Transition s slotId ok (.calling u) (.entered u) .keep none
  | note (u : Used) :
      Transition s slotId ok (.entered u) (.noted u (s.mCounter slotId u.service)) .keep none
  | unlock (u : Used) (counter : ℕ) :
      Transition s slotId ok (.noted u counter) (.unlocked u counter) .unlock none
  | wrlock (u : Used) (counter : ℕ) :
      Transition s slotId ok (.unlocked u counter) (.wrlocked u counter) .wrlock none
  | compare (u : Used) (counter : ℕ) : Transition s slotId ok (.wrlocked u counter) .written .keep
      (if s.mCounter slotId u.service = counter then some (u.service, ⟨0, 0⟩) else none)
  | release : Transition s slotId ok .written .released .unlock none
  | rdlock : Transition s slotId ok .released .running .rdlock none

inductive Step (s : State) : Event → Effect → Prop where
  | register {t slotId service callbacks} (h : s.threads t = []) :
      Step s (.setResponseFunctions t slotId service callbacks)
        ⟨slotId, [.setResponseFunctions slotId service (some callbacks)], .wrlock, none⟩
  | send {t sender slotId function} (h : MayStart sender (s.threads t)) :
      Step s (.send t sender slotId function)
        ⟨slotId, .sending ⟨sender, slotId, function.body, .running⟩ :: s.threads t,
          if sender.rdlocks then .rdlock else .keep, none⟩
  | assign {t ok slotId service callbacks below}
      (h : s.threads t = .setResponseFunctions slotId service (some callbacks) :: below) :
      Step s (.proceed t ok) ⟨slotId, .setResponseFunctions slotId service none :: below, .keep,
        some (service, callbacks)⟩
  | registered {t ok slotId service below}
      (h : s.threads t = .setResponseFunctions slotId service none :: below) :
      Step s (.proceed t ok) ⟨slotId, below, .unlock, none⟩
  | leave {t ok r below} (h : s.threads t = .sending r :: below) (hstage : r.stage = .running) :
      Step s (.proceed t ok)
        ⟨r.slotId, below, if r.sender.rdlocks then .unlock else .keep, none⟩
  | refuse {t ok r below function} (body : List Statement) (h : s.threads t = .sending r :: below)
      (hstage : r.stage = .running) : Step s (.proceed t ok)
        ⟨r.slotId, .sending ⟨.sendErrorResponse, r.slotId, function, .running⟩ ::
          .sending { r with body := body, stage := .running } :: below, .keep, none⟩
  | goes {t ok r below lock assigned} (body : List Statement) {stage : Stage}
      (h : s.threads t = .sending r :: below)
      (htransition : Transition s r.slotId ok r.stage stage lock assigned) :
      Step s (.proceed t ok)
        ⟨r.slotId, .sending { r with body := body, stage := stage } :: below, lock, assigned⟩

theorem proceed_step {s : State} {t : Thread} {r : Sending} {below : List Frame} {ok : Bool}
    {f : Effect} (h : s.threads t = .sending r :: below) (hf : r.proceed s below ok = some f) :
    Step s (.proceed t ok) f := by
  have hgoes : ∀ (body : List Statement) {stage stage' : Stage} {lock : Op}
      {assigned : Option (Service × Callbacks)}, r.stage = stage →
      Sending.goes { r with body := body } below stage' lock assigned = f →
      Transition s r.slotId ok stage stage' lock assigned → Step s (.proceed t ok) f := by
    rintro body _ stage' lock assigned rfl rfl htransition
    have hstep := Step.goes body h htransition
    exact hstep
  unfold Sending.proceed at hf
  cases hstage : r.stage with
  | running =>
    simp only [hstage] at hf
    split at hf
    · obtain rfl := Option.some.inj hf
      exact .leave h hstage
    · exact hgoes _ hstage (Option.some.inj hf) (.quiet trivial trivial)
    · split at hf
      · cases hf
      · exact hgoes _ hstage (Option.some.inj hf) (.call _ _)
    · split at hf
      · exact hgoes _ hstage (Option.some.inj hf) (.quiet trivial trivial)
      · obtain ⟨function, _, rfl⟩ := Option.map_eq_some_iff.mp hf
        exact .refuse _ h hstage
    · exact hgoes _ hstage (Option.some.inj hf) (.quiet trivial trivial)
  | inVendor =>
    simp only [hstage] at hf
    exact hgoes r.body hstage (Option.some.inj hf) (.quiet trivial trivial)
  | calling u =>
    simp only [hstage] at hf
    cases ok with
    | true => exact hgoes r.body hstage (Option.some.inj hf) (.well u rfl)
    | false => exact hgoes r.body hstage (Option.some.inj hf) (.fails u rfl)
  | entered u =>
    simp only [hstage] at hf
    exact hgoes r.body hstage (Option.some.inj hf) (.note u)
  | noted u counter =>
    simp only [hstage] at hf
    exact hgoes r.body hstage (Option.some.inj hf) (.unlock u counter)
  | unlocked u counter =>
    simp only [hstage] at hf
    exact hgoes r.body hstage (Option.some.inj hf) (.wrlock u counter)
  | wrlocked u counter =>
    simp only [hstage] at hf
    exact hgoes r.body hstage (Option.some.inj hf) (.compare u counter)
  | written =>
    simp only [hstage] at hf
    exact hgoes r.body hstage (Option.some.inj hf) .release
  | released =>
    simp only [hstage] at hf
    exact hgoes r.body hstage (Option.some.inj hf) .rdlock

theorem effect_step {s : State} {e : Event} {f : Effect} (hf : effect s e = some f) :
    Step s e f := by
  cases e with
  | setResponseFunctions t slotId service callbacks =>
    simp only [effect] at hf
    split at hf
    · rename_i h
      obtain rfl := Option.some.inj hf
      exact .register h
    · cases hf
  | send t sender slotId function =>
    simp only [effect] at hf
    split at hf
    · rename_i h
      obtain rfl := Option.some.inj hf
      exact .send h.2
    · cases hf
  | proceed t ok =>
    simp only [effect] at hf
    split at hf
    · cases hf
    · rename_i frame below h
      cases frame with
      | setResponseFunctions slotId service callbacks =>
        cases callbacks with
        | none =>
          obtain rfl := Option.some.inj hf
          exact .registered h
        | some callbacks =>
          obtain rfl := Option.some.inj hf
          exact .assign h
      | sending r => exact proceed_step h hf

/-! ## Who holds a lock -/

/-- checkReturnStatus has given up a read lock and not taken it again. -/
def Stage.lacks : Stage → Bool
  | .unlocked _ _ | .wrlocked _ _ | .written | .released => true
  | _ => false

def Stage.writes : Stage → Bool
  | .wrlocked _ _ | .written => true
  | _ => false

theorem Stage.Quiet.of_running {a : Stage} (h : a = .running) : a.Quiet := by
  rw [h]
  trivial

theorem Stage.Quiet.lacks {a : Stage} (h : a.Quiet) : a.lacks = false := by
  cases a <;> first | rfl | exact h.elim

theorem Stage.Quiet.writes {a : Stage} (h : a.Quiet) : a.writes = false := by
  cases a <;> first | rfl | exact h.elim

namespace Frame

def slotId : Frame → RILSocketId
  | .setResponseFunctions slotId _ _ => slotId
  | .sending r => r.slotId

def lock (f : Frame) : RwlockName := getRadioServiceRwlock f.slotId

def rdlocks : Frame → Bool
  | .setResponseFunctions _ _ _ => false
  | .sending r => r.sender.rdlocks

def lacks : Frame → Bool
  | .setResponseFunctions _ _ _ => false
  | .sending r => r.stage.lacks

def writes : Frame → Bool
  | .setResponseFunctions _ _ _ => true
  | .sending r => r.stage.writes

def Quiet : Frame → Prop
  | .setResponseFunctions _ _ _ => False
  | .sending r => r.stage.Quiet

/-- setResponseFunctions does not call. -/
def Idle : Frame → Prop
  | .setResponseFunctions _ _ _ => True
  | .sending r => r.stage.Quiet

theorem Quiet.idle {f : Frame} (h : f.Quiet) : f.Idle := by
  cases f with
  | setResponseFunctions => trivial
  | sending r => exact h

theorem Quiet.lacks {f : Frame} (h : f.Quiet) : f.lacks = false := by
  cases f with
  | setResponseFunctions => rfl
  | sending r => exact Stage.Quiet.lacks h

theorem Quiet.writes {f : Frame} (h : f.Quiet) : f.writes = false := by
  cases f with
  | setResponseFunctions => exact h.elim
  | sending r => exact Stage.Quiet.writes h

end Frame

/-- How many functions of a stack have taken a read lock. -/
def lockers (l : RwlockName) (frames : List Frame) : ℕ :=
  frames.countP fun f => f.rdlocks && f.lock = l

/-- How many of the read locks are given up at the moment. -/
def lacking (l : RwlockName) : List Frame → ℕ
  | [] => 0
  | f :: _ => if f.lacks = true ∧ f.lock = l then 1 else 0

def Writing (l : RwlockName) : List Frame → Prop
  | [] => False
  | f :: _ => f.writes = true ∧ f.lock = l

/-- A function that has called another is at rest. -/
def Settled (frames : List Frame) : Prop := ∀ f ∈ frames.tail, f.Quiet

structure Accounted (s : State) (t : Thread) : Prop where
  held : ∀ l, (s.locks l).holds t + lacking l (s.threads t) = lockers l (s.threads t)
  writer : ∀ l, (s.locks l).writer = some t ↔ Writing l (s.threads t)

theorem lacking_of_quiet {f : Frame} {below : List Frame} (h : f.Quiet) (l : RwlockName) :
    lacking l (f :: below) = 0 := by
  simp [lacking, h.lacks]

theorem not_writing_of_quiet {f : Frame} {below : List Frame} (h : f.Quiet) (l : RwlockName) :
    ¬ Writing l (f :: below) := by
  simp [Writing, h.writes]

theorem Settled.lacking_tail {f : Frame} {below : List Frame} (h : Settled (f :: below))
    (l : RwlockName) : lacking l below = 0 := by
  cases below with
  | nil => rfl
  | cons g rest => exact lacking_of_quiet (h g List.mem_cons_self) l

theorem Settled.not_writing_tail {f : Frame} {below : List Frame} (h : Settled (f :: below))
    (l : RwlockName) : ¬ Writing l below := by
  cases below with
  | nil => exact id
  | cons g rest => exact not_writing_of_quiet (h g List.mem_cons_self) l

theorem not_writing_of_stage {r : Sending} {a : Stage} {below : List Frame} {l : RwlockName}
    (ha : r.stage = a) (hwrites : a.writes = false) : ¬ Writing l (.sending r :: below) := by
  rintro ⟨hwriting, _⟩
  change r.stage.writes = true at hwriting
  rw [ha, hwrites] at hwriting
  exact Bool.false_ne_true hwriting

theorem lockers_cons (f : Frame) (below : List Frame) (l : RwlockName) :
    lockers l (f :: below) = lockers l below + if f.rdlocks = true ∧ f.lock = l then 1 else 0 := by
  simp only [lockers, List.countP_cons, Bool.and_eq_true, decide_eq_true_eq]

theorem lockers_goes (r : Sending) (body : List Statement) (stage : Stage) (below : List Frame)
    (l : RwlockName) : lockers l (.sending { r with body := body, stage := stage } :: below) =
      lockers l (.sending r :: below) := by
  rw [lockers_cons, lockers_cons]
  rfl

/-- The operation of a step on the lock l' goes with the change of the stack. -/
def Balanced (l' : RwlockName) (old new : List Frame) : Op → Prop
  | .keep => ∀ l, lacking l new + lockers l old = lacking l old + lockers l new ∧
      (Writing l new ↔ Writing l old)
  | .rdlock => ∀ l, lacking l new + lockers l old + (if l' = l then 1 else 0) =
      lacking l old + lockers l new ∧ (Writing l new ↔ Writing l old)
  | .wrlock => ∀ l, lacking l new + lockers l old = lacking l old + lockers l new ∧
      (Writing l new ↔ l' = l) ∧ ¬ Writing l old
  | .unlock =>
    (∀ l, lacking l new + lockers l old = lacking l old + lockers l new ∧
      ¬ Writing l new ∧ (Writing l old ↔ l' = l)) ∨
    ∀ l, lacking l new + lockers l old = lacking l old + lockers l new + (if l' = l then 1 else 0) ∧
      ¬ Writing l new ∧ ¬ Writing l old

theorem goes_balanced {s : State} {ok : Bool} {r : Sending} {a b : Stage} {lock : Op}
    {assigned : Option (Service × Callbacks)} (ha : r.stage = a)
    (h : Transition s r.slotId ok a b lock assigned) (body : List Statement) (below : List Frame) :
    Balanced (getRadioServiceRwlock r.slotId) (.sending r :: below)
      (.sending { r with body := body, stage := b } :: below) lock := by
  have hlockers := lockers_goes r body b below
  have hsame : a.lacks = b.lacks → a.writes = b.writes → Balanced (getRadioServiceRwlock r.slotId)
      (.sending r :: below) (.sending { r with body := body, stage := b } :: below) .keep := by
    intro hlacks hwrites l
    simp only [lacking, Writing, Frame.lacks, Frame.writes, ha, hlacks, hwrites, hlockers]
    exact ⟨rfl, Iff.rfl⟩
  cases h with
  | quiet hqa hqb => exact hsame (hqa.lacks.trans hqb.lacks.symm) (hqa.writes.trans hqb.writes.symm)
  | call => exact hsame rfl rfl
  | well => exact hsame rfl rfl
  | fails => exact hsame rfl rfl
  | note => exact hsame rfl rfl
  | compare => exact hsame rfl rfl
  | unlock u counter =>
    refine Or.inr fun l => ?_
    simp [lacking, Writing, Frame.lacks, Frame.writes, ha, hlockers, Stage.lacks, Stage.writes,
      Frame.lock, Frame.slotId, Nat.add_comm]
  | wrlock u counter =>
    intro l
    simp [lacking, Writing, Frame.lacks, Frame.writes, ha, hlockers, Stage.lacks, Stage.writes,
      Frame.lock, Frame.slotId]
  | release =>
    refine Or.inl fun l => ?_
    simp [lacking, Writing, Frame.lacks, Frame.writes, ha, hlockers, Stage.lacks, Stage.writes,
      Frame.lock, Frame.slotId]
  | rdlock =>
    intro l
    simp [lacking, Writing, Frame.lacks, Frame.writes, ha, hlockers, Stage.lacks, Stage.writes,
      Frame.lock, Frame.slotId, Nat.add_comm]

theorem MayStart.quiet {sender : Sender} {frames : List Frame} (h : MayStart sender frames) :
    ∀ f ∈ frames.head?, f.Quiet := by
  cases frames with
  | nil => rintro f ⟨⟩
  | cons f below =>
    rintro _ ⟨⟩
    cases f with
    | setResponseFunctions => exact h.elim
    | sending r =>
      change r.stage.Quiet
      rw [h.2]
      trivial

/-- What is called from a function at rest, or from none, has the whole change. -/
theorem push_balanced {frames : List Frame} (hq : ∀ f ∈ frames.head?, f.Quiet) {g : Frame}
    (hg : g.Quiet) : Balanced g.lock frames (g :: frames) (if g.rdlocks then .rdlock else .keep) := by
  have hlacking : ∀ l, lacking l frames = 0 := by
    intro l
    cases frames with
    | nil => rfl
    | cons f below => exact lacking_of_quiet (hq f rfl) l
  have hwriting : ∀ l, ¬ Writing l frames := by
    intro l
    cases frames with
    | nil => exact id
    | cons f below => exact not_writing_of_quiet (hq f rfl) l
  split
  · rename_i hrd
    intro l
    rw [lacking_of_quiet hg, hlacking, lockers_cons, hrd]
    exact ⟨by simp, iff_of_false (not_writing_of_quiet hg l) (hwriting l)⟩
  · rename_i hrd
    intro l
    rw [lacking_of_quiet hg, hlacking, lockers_cons, if_neg fun h => hrd h.1]
    exact ⟨rfl, iff_of_false (not_writing_of_quiet hg l) (hwriting l)⟩

theorem pop_balanced {f : Frame} {below : List Frame} (settled : Settled (f :: below))
    (hf : f.Quiet) : Balanced f.lock (f :: below) below (if f.rdlocks then .unlock else .keep) := by
  split
  · rename_i hrd
    refine Or.inr fun l => ?_
    rw [lacking_of_quiet hf, settled.lacking_tail, lockers_cons, hrd]
    exact ⟨by simp, settled.not_writing_tail l, not_writing_of_quiet hf l⟩
  · rename_i hrd
    intro l
    rw [lacking_of_quiet hf, settled.lacking_tail, lockers_cons, if_neg fun h => hrd h.1]
    exact ⟨rfl, iff_of_false (settled.not_writing_tail l) (not_writing_of_quiet hf l)⟩

theorem step_balanced {s : State} {e : Event} {f : Effect} (h : Step s e f)
    (settled : Settled (s.threads e.thread)) :
    Balanced (getRadioServiceRwlock f.slotId) (s.threads e.thread) f.frames f.lock := by
  cases h with
  | register h =>
    simp only [Event.thread] at settled ⊢
    rw [h]
    intro l
    simp [lacking, lockers, Writing, Frame.lacks, Frame.writes, Frame.rdlocks, Frame.lock,
      Frame.slotId]
  | @send t sender slotId function h =>
    have hnew : (Frame.sending ⟨sender, slotId, function.body, .running⟩).Quiet := trivial
    exact push_balanced h.quiet hnew
  | assign h =>
    simp only [Event.thread] at settled ⊢
    rw [h]
    intro l
    simp [lacking, lockers, Writing, Frame.lacks, Frame.writes, Frame.rdlocks, Frame.lock,
      Frame.slotId]
  | registered h =>
    simp only [Event.thread] at settled ⊢
    rw [h] at settled ⊢
    refine Or.inl fun l => ?_
    rw [settled.lacking_tail, lockers_cons]
    refine ⟨?_, settled.not_writing_tail l, ?_⟩
    · simp [lacking, Frame.lacks, Frame.rdlocks]
    · simp [Writing, Frame.writes, Frame.lock, Frame.slotId]
  | leave h hstage =>
    simp only [Event.thread] at settled ⊢
    rw [h] at settled ⊢
    apply pop_balanced settled
    change Stage.Quiet _
    rw [hstage]
    trivial
  | @refuse t ok r below function body h hstage =>
    simp only [Event.thread]
    rw [h]
    have hlockers : ∀ l, lockers l (.sending ⟨.sendErrorResponse, r.slotId, function, .running⟩ ::
        .sending { r with body := body, stage := .running } :: below) =
          lockers l (.sending r :: below) := by
      intro l
      rw [lockers_cons, if_neg fun h => Bool.false_ne_true h.1]
      exact lockers_goes r body .running below l
    intro l
    rw [hlockers]
    simp [lacking, Writing, Frame.lacks, Frame.writes, hstage, Stage.lacks, Stage.writes]
  | goes body h htransition =>
    simp only [Event.thread]
    rw [h]
    exact goes_balanced rfl htransition body _

@[simp] theorem apply_threads (s : State) (t : Thread) (f : Effect) :
    (s.apply t f).threads = Function.update s.threads t f.frames := by
  unfold State.apply
  split <;> rfl

theorem apply_own (s : State) (t : Thread) (f : Effect) : (s.apply t f).threads t = f.frames := by
  rw [apply_threads, Function.update_self]

@[simp] theorem apply_locks (s : State) (t : Thread) (f : Effect) : (s.apply t f).locks =
    Function.update s.locks (getRadioServiceRwlock f.slotId)
      ((s.locks (getRadioServiceRwlock f.slotId)).apply t f.lock) := by
  unfold State.apply
  split <;> rfl

theorem apply_locks_of_ne {s : State} {t : Thread} {f : Effect} {l : RwlockName}
    (h : getRadioServiceRwlock f.slotId ≠ l) : (s.apply t f).locks l = s.locks l := by
  rw [apply_locks, Function.update_of_ne (Ne.symm h)]

theorem apply_other {s : State} {t t' : Thread} {f : Effect}
    (available : (s.locks (getRadioServiceRwlock f.slotId)).Available t f.lock) (hne : t ≠ t')
    (l : RwlockName) : ((s.apply t f).locks l).holds t' = (s.locks l).holds t' ∧
      (((s.apply t f).locks l).writer = some t' ↔ (s.locks l).writer = some t') := by
  by_cases hl : getRadioServiceRwlock f.slotId = l
  · subst hl
    rw [apply_locks, Function.update_self]
    exact Rwlock.apply_other available hne
  · rw [apply_locks_of_ne hl]
    exact ⟨rfl, Iff.rfl⟩

/-- An operation that goes with the change of a stack goes with what the thread holds. -/
theorem balanced_lock {k : Rwlock Thread} {t : Thread} {op : Op} {l : RwlockName}
    {old new : List Frame} (available : k.Available t op) (hb : Balanced l old new op)
    (hheld : k.holds t + lacking l old = lockers l old)
    (hwriter : k.writer = some t ↔ Writing l old) :
    (k.apply t op).holds t + lacking l new = lockers l new ∧
      ((k.apply t op).writer = some t ↔ Writing l new) := by
  cases op with
  | keep =>
    obtain ⟨hcount, hwriting⟩ := hb l
    simp only [Rwlock.apply]
    exact ⟨by omega, hwriter.trans hwriting.symm⟩
  | rdlock =>
    obtain ⟨hcount, hwriting⟩ := hb l
    rw [if_pos rfl] at hcount
    simp only [Rwlock.apply, Rwlock.holds_rdlock available, Rwlock.writer_rdlock, if_true]
    exact ⟨by omega, hwriter.trans hwriting.symm⟩
  | wrlock =>
    obtain ⟨hcount, hwriting, _⟩ := hb l
    simp only [Rwlock.apply, Rwlock.holds_wrlock, Rwlock.writer_wrlock _ t available.2]
    exact ⟨by omega, iff_of_true trivial (hwriting.mpr rfl)⟩
  | unlock =>
    simp only [Rwlock.apply]
    rcases hb with hb | hb
    · obtain ⟨hcount, hnew, hold⟩ := hb l
      have hw := hwriter.mpr (hold.mpr rfl)
      rw [Rwlock.holds_unlock_writer hw, Rwlock.writer_unlock_writer hw]
      exact ⟨by omega, iff_of_false (fun h => Option.some_ne_none t h.symm) hnew⟩
    · obtain ⟨hcount, hnew, hold⟩ := hb l
      have hw : k.writer ≠ some t := fun h => hold (hwriter.mp h)
      have hunlock := Rwlock.holds_unlock hw (available.resolve_left hw) t
      rw [if_pos rfl] at hcount hunlock
      rw [Rwlock.writer_unlock hw]
      exact ⟨by omega, iff_of_false hw hnew⟩

theorem balanced_elsewhere {l l' : RwlockName} {old new : List Frame} {op : Op}
    (hb : Balanced l old new op) (hl : l ≠ l') :
    lacking l' new + lockers l' old = lacking l' old + lockers l' new ∧
      (Writing l' new ↔ Writing l' old) := by
  cases op with
  | keep => exact hb l'
  | rdlock =>
    obtain ⟨hcount, hwriting⟩ := hb l'
    rw [if_neg hl] at hcount
    exact ⟨hcount, hwriting⟩
  | wrlock =>
    obtain ⟨hcount, hwriting, hold⟩ := hb l'
    exact ⟨hcount, iff_of_false (fun h => hl (hwriting.mp h)) hold⟩
  | unlock =>
    rcases hb with hb | hb
    · obtain ⟨hcount, hnew, hold⟩ := hb l'
      exact ⟨hcount, iff_of_false hnew fun h => hl (hold.mp h)⟩
    · obtain ⟨hcount, hnew, hold⟩ := hb l'
      rw [if_neg hl] at hcount
      exact ⟨hcount, iff_of_false hnew hold⟩

/-- What a thread holds after a step that goes with the change of its stack. -/
theorem accounted_own {s : State} {t : Thread} {f : Effect} (ha : Accounted s t)
    (available : (s.locks (getRadioServiceRwlock f.slotId)).Available t f.lock)
    (hb : Balanced (getRadioServiceRwlock f.slotId) (s.threads t) f.frames f.lock) :
    Accounted (s.apply t f) t := by
  have hown : ∀ l, ((s.apply t f).locks l).holds t + lacking l f.frames = lockers l f.frames ∧
      (((s.apply t f).locks l).writer = some t ↔ Writing l f.frames) := by
    intro l
    have hheld := ha.held l
    have hwriter := ha.writer l
    by_cases hl : getRadioServiceRwlock f.slotId = l
    · subst hl
      rw [apply_locks, Function.update_self]
      exact balanced_lock available hb hheld hwriter
    · obtain ⟨hcount, hwriting⟩ := balanced_elsewhere hb hl
      rw [apply_locks_of_ne hl]
      exact ⟨by omega, hwriter.trans hwriting.symm⟩
  constructor
  · intro l
    rw [apply_own]
    exact (hown l).1
  · intro l
    rw [apply_own]
    exact (hown l).2

theorem accounted_next {s : State} {e : Event} {f : Effect} (ha : ∀ t, Accounted s t)
    (hs : ∀ t, Settled (s.threads t)) (h : Step s e f)
    (available : (s.locks (getRadioServiceRwlock f.slotId)).Available e.thread f.lock)
    (t : Thread) : Accounted (s.apply e.thread f) t := by
  by_cases ht : e.thread = t
  · subst ht
    exact accounted_own (ha _) available (step_balanced h (hs _))
  · constructor
    · intro l
      rw [(apply_other available ht l).1, apply_threads, Function.update_of_ne (Ne.symm ht)]
      exact (ha t).held l
    · intro l
      rw [(apply_other available ht l).2, apply_threads, Function.update_of_ne (Ne.symm ht)]
      exact (ha t).writer l

theorem step_settled {s : State} {e : Event} {f : Effect} (h : Step s e f)
    (settled : Settled (s.threads e.thread)) : Settled f.frames := by
  cases h with
  | register h => rintro g ⟨⟩
  | @send t sender slotId function h =>
    intro g hg
    change g ∈ s.threads t at hg
    cases hframes : s.threads t with
    | nil =>
      rw [hframes] at hg
      cases hg
    | cons top below =>
      simp only [Event.thread] at settled
      rw [hframes] at hg h settled
      rcases List.mem_cons.mp hg with rfl | hg
      · exact h.quiet g rfl
      · exact settled g hg
  | assign h =>
    simp only [Event.thread] at settled
    rw [h] at settled
    exact settled
  | registered h =>
    simp only [Event.thread] at settled
    rw [h] at settled
    exact fun g hg => settled g (List.mem_of_mem_tail hg)
  | leave h _ =>
    simp only [Event.thread] at settled
    rw [h] at settled
    exact fun g hg => settled g (List.mem_of_mem_tail hg)
  | refuse body h hstage =>
    simp only [Event.thread] at settled
    rw [h] at settled
    intro g hg
    rcases List.mem_cons.mp hg with rfl | hg
    · trivial
    · exact settled g hg
  | goes body h _ =>
    simp only [Event.thread] at settled
    rw [h] at settled
    exact settled

end RilCallbacks
