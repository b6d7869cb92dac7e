import VendorMediatek.RilCallbackLocks
import Mathlib.Data.Nat.ModEq

/-!
# What checkReturnStatus replaces

With which locks `checkReturnStatus` is entered, and which objects it resets, in any interleaving of
the threads.
-/

namespace RilCallbacks

open LabelledRuns ReadWriteLock
open RilChannelQueue (RILSocketId)

/-! ## What a call has used -/

/-- The object is registered as it was when the call used it. -/
def Used.Current (s : State) (slotId : RILSocketId) (u : Used) : Prop :=
  s.updates slotId u.service = u.since ∧ (s.callbacks slotId u.service).get u.member = u.object

/-- It is so unless the objects were replaced since. -/
def Used.Past (s : State) (slotId : RILSocketId) (u : Used) : Prop :=
  u.since ≤ s.updates slotId u.service ∧
    (s.updates slotId u.service = u.since → u.Current s slotId)

/-- What a stage knows of the object, where reading says whether the thread has a read lock. -/
def Stage.Knows (s : State) (slotId : RILSocketId) (reading : Prop) : Stage → Prop
  | .calling u | .entered u => reading → u.Current s slotId
  | .noted u counter => reading → u.Current s slotId ∧ counter = u.since % 2 ^ 32
  | .unlocked u counter | .wrlocked u counter => u.Past s slotId ∧ counter = u.since % 2 ^ 32
  | _ => True

def Knowing (s : State) (t : Thread) : Prop := ∀ r below, s.threads t = .sending r :: below →
  r.stage.Knows s r.slotId (t ∈ (s.locks (getRadioServiceRwlock r.slotId)).readers)

structure Inv (s : State) : Prop where
  accounted : ∀ t, Accounted s t
  settled : ∀ t, Settled (s.threads t)
  knowing : ∀ t, Knowing s t

theorem Stage.Quiet.knows {a : Stage} (h : a.Quiet) (s : State) (slotId : RILSocketId)
    (reading : Prop) : a.Knows s slotId reading := by
  cases a <;> trivial

theorem Used.Current.past {s : State} {slotId : RILSocketId} {u : Used} (h : u.Current s slotId) :
    u.Past s slotId := ⟨h.1.ge, fun _ => h⟩

/-- The objects of the slot are the same. -/
def SameSlot (s s' : State) (slotId : RILSocketId) : Prop :=
  s'.callbacks slotId = s.callbacks slotId ∧ s'.updates slotId = s.updates slotId

theorem apply_same {s : State} {t : Thread} {f : Effect} {slotId : RILSocketId}
    (h : f.assigned = none ∨ slotId ≠ f.slotId) : SameSlot s (s.apply t f) slotId := by
  unfold State.apply
  split
  · exact ⟨rfl, rfl⟩
  · rename_i hassigned
    have hne : slotId ≠ f.slotId := by
      rcases h with hnone | hne
      · rw [hassigned] at hnone
        cases hnone
      · exact hne
    exact ⟨Function.update_of_ne hne .., Function.update_of_ne hne ..⟩

theorem SameSlot.current {s s' : State} {slotId : RILSocketId} (h : SameSlot s s' slotId)
    {u : Used} : u.Current s' slotId ↔ u.Current s slotId := by
  unfold Used.Current
  rw [h.1, h.2]

theorem SameSlot.past {s s' : State} {slotId : RILSocketId} (h : SameSlot s s' slotId)
    {u : Used} : u.Past s' slotId ↔ u.Past s slotId := by
  unfold Used.Past
  rw [h.current, h.2]

theorem SameSlot.knows {s s' : State} {slotId : RILSocketId} (h : SameSlot s s' slotId)
    (a : Stage) (reading : Prop) : a.Knows s' slotId reading ↔ a.Knows s slotId reading := by
  cases a <;> simp only [Stage.Knows, h.current, h.past]

theorem Used.Past.apply {s : State} {slotId : RILSocketId} {u : Used} (h : u.Past s slotId)
    (t : Thread) (f : Effect) : u.Past (s.apply t f) slotId := by
  by_cases hsame : f.assigned = none ∨ slotId ≠ f.slotId
  · exact (apply_same hsame).past.mpr h
  · push Not at hsame
    obtain ⟨hassigned, rfl⟩ := hsame
    obtain ⟨⟨service, callbacks⟩, hassigned⟩ := Option.ne_none_iff_exists'.mp hassigned
    unfold State.apply
    simp only [hassigned]
    unfold Used.Past Used.Current at *
    simp only [State.setCallbacks, Function.update_self]
    by_cases hservice : u.service = service
    · subst hservice
      rw [Function.update_self]
      refine ⟨by omega, fun heq => ?_⟩
      omega
    · rw [Function.update_of_ne hservice, Function.update_of_ne hservice]
      exact h

theorem step_writing {s : State} {e : Event} {f : Effect} (h : Step s e f)
    (hassigned : f.assigned ≠ none) :
    Writing (getRadioServiceRwlock f.slotId) (s.threads e.thread) := by
  cases h with
  | assign h =>
    simp only [Event.thread]
    rw [h]
    exact ⟨rfl, rfl⟩
  | @goes t ok r below lock assigned body stage h htransition =>
    simp only [Event.thread]
    rw [h]
    refine ⟨?_, rfl⟩
    change r.stage.writes = true
    generalize r.stage = a at htransition
    cases htransition with
    | compare => rfl
    | _ => exact absurd rfl hassigned
  | _ => exact absurd rfl hassigned

theorem knowing_other {s : State} {e : Event} {f : Effect} (inv : Inv s) (h : Step s e f)
    (available : (s.locks (getRadioServiceRwlock f.slotId)).Available e.thread f.lock) {t : Thread}
    (ht : e.thread ≠ t) : Knowing (s.apply e.thread f) t := by
  intro r below hframes
  rw [apply_threads, Function.update_of_ne (Ne.symm ht)] at hframes
  have hknows := inv.knowing t r below hframes
  have hreading : t ∈ ((s.apply e.thread f).locks (getRadioServiceRwlock r.slotId)).readers ↔
      t ∈ (s.locks (getRadioServiceRwlock r.slotId)).readers := by
    rw [← Rwlock.holds_pos, ← Rwlock.holds_pos, (apply_other available ht _).1]
  rw [hreading]
  by_cases hsame : f.assigned = none ∨ r.slotId ≠ f.slotId
  · exact ((apply_same hsame).knows _ _).mpr hknows
  · push Not at hsame
    obtain ⟨hassigned, hslot⟩ := hsame
    rw [← hslot] at available
    have hwriting := step_writing h hassigned
    rw [← hslot] at hwriting
    have hfree : t ∉ (s.locks (getRadioServiceRwlock r.slotId)).readers := by
      rw [← Rwlock.holds_pos, Rwlock.holds_of_writer (((inv.accounted _).writer _).mpr hwriting)]
      exact Nat.lt_irrefl 0
    cases hstage : r.stage with
    | calling u => exact fun hmem => absurd hmem hfree
    | entered u => exact fun hmem => absurd hmem hfree
    | noted u counter => exact fun hmem => absurd hmem hfree
    | unlocked u counter =>
      rw [hstage] at hknows
      exact ⟨hknows.1.apply _ f, hknows.2⟩
    | wrlocked u counter =>
      rw [hstage] at hknows
      exact ⟨hknows.1.apply _ f, hknows.2⟩
    | _ => trivial

theorem Settled.tail_idle {f : Frame} {below : List Frame} (h : Settled (f :: below)) :
    ∀ g ∈ below.head?, g.Idle := fun g hg => (h g (List.mem_of_mem_head? hg)).idle

/-- A step begins and ends with functions that are at rest, or a function goes on. -/
theorem step_idle_or_goes {s : State} {e : Event} {f : Effect} (h : Step s e f)
    (settled : Settled (s.threads e.thread)) :
    ((∀ g ∈ (s.threads e.thread).head?, g.Idle) ∧ ∀ g ∈ f.frames.head?, g.Idle) ∨
      ∃ t ok r below body stage lock assigned, e = .proceed t ok ∧
        s.threads t = .sending r :: below ∧ Transition s r.slotId ok r.stage stage lock assigned ∧
        f = ⟨r.slotId, .sending { r with body := body, stage := stage } :: below, lock,
          assigned⟩ := by
  cases h with
  | @register t slotId service callbacks h =>
    refine Or.inl ⟨?_, ?_⟩
    · change ∀ g ∈ (s.threads t).head?, g.Idle
      rw [h]
      rintro g ⟨⟩
    · rintro _ ⟨⟩
      trivial
  | send h =>
    refine Or.inl ⟨fun g hg => (h.quiet g hg).idle, ?_⟩
    rintro _ ⟨⟩
    trivial
  | @assign t ok slotId service callbacks below h =>
    refine Or.inl ⟨?_, ?_⟩
    · change ∀ g ∈ (s.threads t).head?, g.Idle
      rw [h]
      rintro _ ⟨⟩
      trivial
    · rintro _ ⟨⟩
      trivial
  | @registered t ok slotId service below h =>
    change Settled (s.threads t) at settled
    rw [h] at settled
    refine Or.inl ⟨?_, settled.tail_idle⟩
    change ∀ g ∈ (s.threads t).head?, g.Idle
    rw [h]
    rintro _ ⟨⟩
    trivial
  | @leave t ok r below h hstage =>
    change Settled (s.threads t) at settled
    rw [h] at settled
    refine Or.inl ⟨?_, settled.tail_idle⟩
    change ∀ g ∈ (s.threads t).head?, g.Idle
    rw [h]
    rintro _ ⟨⟩
    exact Stage.Quiet.of_running hstage
  | @refuse t ok r below function body h hstage =>
    refine Or.inl ⟨?_, ?_⟩
    · change ∀ g ∈ (s.threads t).head?, g.Idle
      rw [h]
      rintro _ ⟨⟩
      exact Stage.Quiet.of_running hstage
    · rintro _ ⟨⟩
      trivial
  | goes body h htransition => exact Or.inr ⟨_, _, _, _, body, _, _, _, rfl, h, htransition, rfl⟩

theorem knowing_idle {s : State} {t : Thread} (h : ∀ f ∈ (s.threads t).head?, f.Idle) :
    Knowing s t := by
  intro r below hframes
  rw [hframes] at h
  exact Stage.Quiet.knows (h _ rfl) ..

theorem knowing_own {s : State} {e : Event} {f : Effect} (inv : Inv s) (h : Step s e f)
    (available : (s.locks (getRadioServiceRwlock f.slotId)).Available e.thread f.lock) :
    Knowing (s.apply e.thread f) e.thread := by
  rcases step_idle_or_goes h (inv.settled _) with
    hidle | ⟨t, ok, r, below, body, stage, lock, assigned, rfl, hframes, htransition, rfl⟩
  · apply knowing_idle
    rw [apply_own]
    exact hidle.2
  · have hknows := inv.knowing t r below hframes
    have hwriter := (inv.accounted t).writer (getRadioServiceRwlock r.slotId)
    rw [hframes] at hwriter
    intro r' below' hframes'
    rw [apply_own] at hframes'
    obtain ⟨hr, _⟩ := List.cons.inj hframes'
    obtain rfl := Frame.sending.inj hr
    dsimp only [Event.thread] at available ⊢
    generalize hstage : r.stage = a at htransition
    rw [hstage] at hknows
    have hkeep : (s.locks (getRadioServiceRwlock r.slotId)).apply t .keep =
      s.locks (getRadioServiceRwlock r.slotId) := rfl
    cases htransition with
    | quiet _ hb => exact hb.knows ..
    | call service member => exact fun _ => (apply_same (Or.inl rfl)).current.mpr ⟨rfl, rfl⟩
    | well => trivial
    | fails u _ =>
      intro hreading
      rw [apply_locks, hkeep, Function.update_self] at hreading
      exact (apply_same (Or.inl rfl)).current.mpr (hknows hreading)
    | note u =>
      intro hreading
      rw [apply_locks, hkeep, Function.update_self] at hreading
      have hcurrent := hknows hreading
      exact ⟨(apply_same (Or.inl rfl)).current.mpr hcurrent, congrArg (· % 2 ^ 32) hcurrent.1⟩
    | unlock u counter =>
      have hreading : t ∈ (s.locks (getRadioServiceRwlock r.slotId)).readers :=
        available.resolve_left fun hw => not_writing_of_stage hstage rfl (hwriter.mp hw)
      obtain ⟨hcurrent, hcounter⟩ := hknows hreading
      exact ⟨hcurrent.past.apply t _, hcounter⟩
    | wrlock u counter => exact ⟨hknows.1.apply t _, hknows.2⟩
    | compare => trivial
    | release => trivial
    | rdlock => trivial

theorem next_of_effect {s : State} {e : Event} {f : Effect} (hf : effect s e = some f) :
    system.next s e = s.apply e.thread f := by
  change (effect s e).elim s _ = _
  rw [hf, Option.elim_some]

theorem inv_next {s : State} {e : Event} (inv : Inv s) (enabled : system.Enabled s e) :
    Inv (system.next s e) := by
  obtain ⟨f, hf, available⟩ := enabled
  have h := effect_step hf
  rw [next_of_effect hf]
  constructor
  · exact accounted_next inv.accounted inv.settled h available
  · intro t
    rw [apply_threads]
    by_cases ht : e.thread = t
    · subst ht
      rw [Function.update_self]
      exact step_settled h (inv.settled _)
    · rw [Function.update_of_ne (Ne.symm ht)]
      exact inv.settled t
  · intro t
    by_cases ht : e.thread = t
    · subst ht
      exact knowing_own inv h available
    · exact knowing_other inv h available ht

theorem inv_initial : Inv initial := by
  constructor
  · intro t
    constructor
    · intro l
      rfl
    · intro l
      exact iff_of_false (fun h => Option.some_ne_none t h.symm) id
  · intro t f hf
    cases hf
  · intro t r below hframes
    cases hframes

/-! ## What a run keeps -/

/-- checkReturnStatus is entered with one read lock, waits for the write lock with none, and resets
the objects only if they are those that the failed call used. -/
def Stage.Safe (s : State) (slotId : RILSocketId) (holds : ℕ) : Stage → Prop
  | .entered _ | .noted _ _ => holds = 1
  | .unlocked _ _ => holds = 0
  | .wrlocked u counter => s.mCounter slotId u.service = counter → u.Current s slotId
  | _ => True

def SafeThread (s : State) (t : Thread) : Prop := ∀ r below, s.threads t = .sending r :: below →
  r.stage.Safe s r.slotId ((s.locks (getRadioServiceRwlock r.slotId)).holds t)

def Safe (s : State) : Prop := ∀ t, SafeThread s t

/-- A call that fails is made inside one of the functions that take the read lock, and the objects
are not replaced a multiple of 2 ^ 32 times before the write lock is taken. -/
def Stage.Guarded (s : State) (slotId : RILSocketId) (frames : List Frame) (ok : Bool) :
    Stage → Prop
  | .calling _ => ok = true ∨ lockers (getRadioServiceRwlock slotId) frames = 1
  | .unlocked u _ => s.updates slotId u.service ≡ u.since [MOD 2 ^ 32] →
      s.updates slotId u.service = u.since
  | _ => True

def Guarded (s : State) : Event → Prop
  | .proceed t ok => match s.threads t with
    | .sending r :: below => r.stage.Guarded s r.slotId (.sending r :: below) ok
    | _ => True
  | _ => True

instance (s : State) (e : Event) : Decidable (Guarded s e) := by
  cases e with
  | proceed t ok =>
    unfold Guarded
    dsimp only
    split
    · rename_i r below _
      cases r.stage <;> simp only [Stage.Guarded] <;> infer_instance
    · infer_instance
  | _ => exact instDecidableTrue

theorem Stage.Quiet.guarded {a : Stage} (h : a.Quiet) (s : State) (slotId : RILSocketId)
    (frames : List Frame) (ok : Bool) : a.Guarded s slotId frames ok := by
  cases a <;> trivial

theorem Stage.Quiet.safe {a : Stage} (h : a.Quiet) (s : State) (slotId : RILSocketId)
    (holds : ℕ) : a.Safe s slotId holds := by
  cases a <;> trivial

theorem safe_other {s : State} {e : Event} {f : Effect} (inv : Inv s) (h : Step s e f)
    (available : (s.locks (getRadioServiceRwlock f.slotId)).Available e.thread f.lock) {t : Thread}
    (ht : e.thread ≠ t) (safe : SafeThread s t) : SafeThread (s.apply e.thread f) t := by
  intro r below hframes
  rw [apply_threads, Function.update_of_ne (Ne.symm ht)] at hframes
  have hsafe := safe r below hframes
  rw [(apply_other available ht _).1]
  cases hstage : r.stage with
  | wrlocked u counter =>
    rw [hstage] at hsafe
    have hwriting : Writing (getRadioServiceRwlock r.slotId) (s.threads t) := by
      rw [hframes]
      exact ⟨congrArg Stage.writes hstage, rfl⟩
    have hsame : SameSlot s (s.apply e.thread f) r.slotId := by
      apply apply_same
      by_contra hboth
      push Not at hboth
      have hwriting' := step_writing h hboth.1
      rw [← hboth.2] at hwriting'
      have hw := ((inv.accounted t).writer _).mpr hwriting
      rw [((inv.accounted _).writer _).mpr hwriting'] at hw
      exact ht (Option.some.inj hw)
    intro hcounter
    rw [State.mCounter, hsame.2] at hcounter
    exact hsame.current.mpr (hsafe hcounter)
  | _ =>
    rw [hstage] at hsafe
    exact hsafe

theorem safe_idle {s : State} {t : Thread} (h : ∀ f ∈ (s.threads t).head?, f.Idle) :
    SafeThread s t := by
  intro r below hframes
  rw [hframes] at h
  exact Stage.Quiet.safe (h _ rfl) ..

theorem guarded_idle {s : State} {e : Event} (h : ∀ f ∈ (s.threads e.thread).head?, f.Idle) :
    Guarded s e := by
  cases e with
  | proceed t ok =>
    unfold Guarded
    dsimp only
    split
    · rename_i r below hframes
      change ∀ f ∈ (s.threads t).head?, f.Idle at h
      rw [hframes] at h
      exact Stage.Quiet.guarded (h _ rfl) ..
    · trivial
  | _ => trivial

theorem safeThread_goes {s : State} {t : Thread} {r : Sending} {below : List Frame}
    (h : s.threads t = .sending r :: below) : SafeThread s t ↔
      r.stage.Safe s r.slotId ((s.locks (getRadioServiceRwlock r.slotId)).holds t) := by
  constructor
  · exact fun hsafe => hsafe r below h
  · intro hsafe r' below' h'
    obtain ⟨hr, _⟩ := List.cons.inj (h.symm.trans h')
    obtain rfl := Frame.sending.inj hr
    exact hsafe

theorem safe_own_iff {s : State} {e : Event} {f : Effect} (inv : Inv s) (h : Step s e f)
    (available : (s.locks (getRadioServiceRwlock f.slotId)).Available e.thread f.lock)
    (safe : SafeThread s e.thread) : SafeThread (s.apply e.thread f) e.thread ↔ Guarded s e := by
  rcases step_idle_or_goes h (inv.settled _) with
    hidle | ⟨t, ok, r, below, body, stage, lock, assigned, rfl, hframes, htransition, rfl⟩
  · refine iff_of_true (safe_idle ?_) (guarded_idle hidle.1)
    rw [apply_own]
    exact hidle.2
  · have hknows := inv.knowing t r below hframes
    have hheld := (inv.accounted t).held (getRadioServiceRwlock r.slotId)
    have hwriter := (inv.accounted t).writer (getRadioServiceRwlock r.slotId)
    rw [hframes] at hheld hwriter
    have hguarded : Guarded s (.proceed t ok) =
        r.stage.Guarded s r.slotId (.sending r :: below) ok := by
      simp only [Guarded, hframes]
    have hsafe := (safeThread_goes hframes).mp safe
    rw [safeThread_goes (apply_own ..), hguarded, apply_locks, Function.update_self]
    dsimp only [Event.thread] at available ⊢
    generalize hstage : r.stage = a at htransition
    rw [hstage] at hknows hsafe
    cases htransition with
    | quiet ha hb => exact iff_of_true (hb.safe ..) (ha.guarded ..)
    | call => exact iff_of_true trivial trivial
    | well u hok => exact iff_of_true trivial (Or.inl hok)
    | fails u hok =>
      have hlacking : lacking (getRadioServiceRwlock r.slotId) (.sending r :: below) = 0 := by
        simp only [lacking, Frame.lacks, hstage, Stage.lacks, Bool.false_eq_true, false_and, if_false]
      rw [hlacking, Nat.add_zero] at hheld
      change (s.locks (getRadioServiceRwlock r.slotId)).holds t = 1 ↔ ok = true ∨ _ = 1
      rw [hheld, hok]
      exact ⟨Or.inr, fun h => h.resolve_left Bool.false_ne_true⟩
    | note => exact iff_of_true hsafe trivial
    | unlock u counter =>
      refine iff_of_true ?_ trivial
      have hw : (s.locks (getRadioServiceRwlock r.slotId)).writer ≠ some t :=
        fun hw => not_writing_of_stage hstage rfl (hwriter.mp hw)
      have hunlock := Rwlock.holds_unlock hw (available.resolve_left hw) t
      change (s.locks (getRadioServiceRwlock r.slotId)).holds t = 1 at hsafe
      change ((s.locks (getRadioServiceRwlock r.slotId)).unlock t).holds t = 0
      rw [if_pos rfl] at hunlock
      omega
    | wrlock u counter =>
      obtain ⟨hpast, rfl⟩ := hknows
      have hsame : SameSlot s (s.apply t ⟨r.slotId,
          .sending { r with body := body, stage := .wrlocked u (u.since % 2 ^ 32) } :: below,
          .wrlock, none⟩) r.slotId := apply_same (Or.inl rfl)
      change (State.mCounter _ _ _ = _ → Used.Current _ _ _) ↔ (_ → _)
      rw [hsame.current, State.mCounter, hsame.2]
      exact forall_congr' fun _ => ⟨fun h => h.1, fun h => hpast.2 h⟩
    | compare => exact iff_of_true trivial trivial
    | release => exact iff_of_true trivial trivial
    | rdlock => exact iff_of_true trivial trivial

theorem safe_next_iff {s : State} {e : Event} (inv : Inv s) (safe : Safe s)
    (enabled : system.Enabled s e) : Safe (system.next s e) ↔ Guarded s e := by
  obtain ⟨f, hf, available⟩ := enabled
  have h := effect_step hf
  rw [next_of_effect hf, ← safe_own_iff inv h available (safe _)]
  constructor
  · exact fun hsafe => hsafe e.thread
  · intro hown t
    by_cases ht : e.thread = t
    · subst ht
      exact hown
    · exact safe_other inv h available ht (safe t)

/-- Over a run checkReturnStatus is entered with just one read lock and erases no newer objects, if
and only if the calls that fail are guarded. -/
theorem objects_kept_iff {es : List Event} (legal : system.Legal initial es) :
    (∀ pre, pre <+: es → Safe (system.run initial pre)) ↔ system.Along Guarded initial es := by
  apply always_iff_guarded system (I := Inv) _ _ inv_initial _ legal
  · exact fun s e inv enabled => inv_next inv enabled
  · exact fun s e inv safe enabled => safe_next_iff inv safe enabled
  · intro t r below hframes
    cases hframes

/-- An indication that fails resets the objects. -/
theorem failed_indication_kept : Safe (system.run initial
    [.setResponseFunctions 1 .socket1 .radio ⟨5, 6⟩, .proceed 1 true, .proceed 1 true,
      .send 2 .sendUnsolResponse .socket1 (.callback .radio .indication), .proceed 2 true,
      .proceed 2 true, .proceed 2 false, .proceed 2 true, .proceed 2 true, .proceed 2 true,
      .proceed 2 true, .proceed 2 true, .proceed 2 true, .proceed 2 true]) := by
  refine (objects_kept_iff ?_).mpr ?_ _ List.prefix_rfl
  · decide +kernel
  · decide +kernel

/-- The error that getSignalStrength is answered with enters checkReturnStatus without a lock. -/
theorem refused_call_unlocked : ¬ ∀ es, system.Legal initial es → Safe (system.run initial es) := by
  intro h
  have hlegal : system.Legal initial [.setResponseFunctions 1 .socket1 .radio ⟨5, 6⟩,
      .proceed 1 true, .proceed 1 true,
      .send 2 .sendErrorResponse .socket1 (.callback .radio .response), .proceed 2 true,
      .proceed 2 true, .proceed 2 false] := by
    decide +kernel
  have hholds := h _ hlegal 2 _ _ rfl
  cases hholds

end RilCallbacks
