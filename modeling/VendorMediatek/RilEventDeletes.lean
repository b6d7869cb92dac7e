import VendorMediatek.RilEventTimers

/-!
# Deleted events

ril_event_del takes an event out of the watch table only. An event that is in neither list when it
is deleted is not called again before it is added again.
-/

namespace RilEventLoop

open LabelledRuns CircularList TimerQueue

variable {s : State} {timers pending : List ℕ} {e : Event}

/-- No event is called that has been deleted and not added since. -/
def CallsNoneDeleted (s : State) : Event → Prop
  | .firePending ev => s.deleted ev = false
  | _ => True

/-- The event that is deleted is neither in the timer list nor pending. -/
def DeletesUnlisted (s : State) : Event → Prop
  | .rilEventDel ev => ¬ s.Linked ev
  | _ => True

instance (s : State) (e : Event) : Decidable (CallsNoneDeleted s e) := by
  cases e <;> simp only [CallsNoneDeleted] <;> infer_instance

instance (s : State) (e : Event) : Decidable (DeletesUnlisted s e) := by
  cases e <;> simp only [DeletesUnlisted] <;> infer_instance

def Gone (s : State) (timers pending : List ℕ) : Prop :=
  ∀ ev, s.deleted ev = true → ¬ s.InTable ev ∧ ev ∉ timers ∧ ev ∉ pending

theorem gone_next {u : State} {timers' pending' : List ℕ} (hg : Gone s timers pending)
    (henters : Enters s u timers pending timers' pending' e)
    (hdel : ∀ ev, e = .rilEventDel ev → ev ∉ timers ∧ ev ∉ pending) : Gone u timers' pending' := by
  intro ev hdeleted
  have hadded : ∀ {p : Prop}, (∃ tv, e = .rilTimerAdd ev (some tv)) ∨ e = .rilEventAdd ev → p := by
    intro p hadd
    rw [henters.added ev hadd] at hdeleted
    cases hdeleted
  rcases henters.deleted ev hdeleted with hold | rfl
  · obtain ⟨htable, htimers, hpending⟩ := hg ev hold
    have hlisted : ¬ (ev ∈ timers' ∨ ev ∈ pending') := by
      intro hmem
      rcases henters.listed ev hmem with (h | h) | h | h
      · exact htimers h
      · exact hpending h
      · exact htable h.1
      · exact hadded (.inl h)
    rw [not_or] at hlisted
    refine ⟨?_, hlisted⟩
    intro hin
    rcases henters.watched ev hin with h | h
    · exact htable h
    · exact hadded (.inr h)
  · obtain ⟨htimers, hpending⟩ := hdel ev rfl
    refine ⟨henters.removed ev rfl, ?_⟩
    rw [← not_or]
    intro hmem
    rcases henters.listed ev hmem with (h | h) | h | h
    · exact htimers h
    · exact hpending h
    · exact h.2 rfl
    · exact hadded (.inl h)

theorem calls_none_deleted (h : Sound s timers pending) (hg : Gone s timers pending)
    (he : Enabled s e) : CallsNoneDeleted s e := by
  cases e with
  | firePending ev =>
    have hcursor := follows_cursor h.follows (.inl he)
    have hmem : ev ∈ pending := by
      cases hpending : pending with
      | nil => simp [hpending] at hcursor
      | cons first rest =>
        obtain rfl : ev = first := by simpa [hpending] using hcursor
        exact List.mem_cons_self
    cases hdeleted : s.deleted ev with
    | false => exact hdeleted
    | true => exact absurd hmem (hg ev hdeleted).2.2
  | rilEventSet | rilEventAdd | rilTimerAdd | rilEventDel | clock | calcNextTimeout | interrupted
    | processTimeouts | processReadReadies | callbackReturns | endOfPass => trivial

theorem calls_along (h : Sound s timers pending) (hg : Gone s timers pending) {es : List Event}
    (legal : loop.Legal s es) (used : loop.Along WellUsed s es)
    (unlisted : loop.Along DeletesUnlisted s es) : loop.Along CallsNoneDeleted s es := by
  induction es generalizing s timers pending with
  | nil => trivial
  | cons e es ih =>
    obtain ⟨timers', pending', hsound, -, -, henters⟩ := sound_next h legal.1 used.1
    have hdel : ∀ ev, e = .rilEventDel ev → ev ∉ timers ∧ ev ∉ pending := by
      rintro ev rfl
      exact h.represents.notMem_of_not_linked unlisted.1
    exact ⟨calls_none_deleted h hg legal.1,
      ih hsound (gone_next hg henters hdel) legal.2 used.2 unlisted.2⟩

/-- If every event that is deleted is in neither list at that moment, no deleted event is called
before it is added again. -/
theorem deleted_events_stay_silent (clock : TimeVal) (es : List Event)
    (legal : loop.Legal (rilEventInit clock) es)
    (used : loop.Along WellUsed (rilEventInit clock) es)
    (unlisted : loop.Along DeletesUnlisted (rilEventInit clock) es) :
    loop.Along CallsNoneDeleted (rilEventInit clock) es := by
  apply calls_along (sound_init clock) _ legal used unlisted
  rintro ev ⟨⟩

/-- Two events are watched and become ready in one pass; the callback of the first runs. -/
def twoReady : List Event :=
  [.rilEventSet 1 3 true 0 0, .rilEventSet 2 4 true 0 0, .rilEventAdd 1, .rilEventAdd 2,
    .calcNextTimeout, .processTimeouts, .processReadReadies (fun _ => true) 2, .firePending 1]

theorem deleted_events_stay_silent_own :
    loop.Along CallsNoneDeleted (rilEventInit ⟨0, 0⟩)
      (twoReady ++ [.rilEventDel 1, .callbackReturns, .firePending 2]) := by
  apply deleted_events_stay_silent
  · exact ⟨trivial, trivial, trivial, trivial, rfl, ⟨_, rfl⟩, rfl, rfl, trivial, ⟨_, rfl⟩, rfl,
      trivial⟩
  · decide
  · decide

/-- A callback deletes the other event that is ready in the same pass; it is called all the
same. -/
theorem pending_event_is_called_after_delete :
    ¬ ∀ clock es, loop.Legal (rilEventInit clock) es →
      loop.Along WellUsed (rilEventInit clock) es →
      loop.Along CallsNoneDeleted (rilEventInit clock) es := by
  intro h
  have hlegal : loop.Legal (rilEventInit ⟨0, 0⟩)
      (twoReady ++ [.rilEventDel 2, .callbackReturns, .firePending 2]) :=
    ⟨trivial, trivial, trivial, trivial, rfl, ⟨_, rfl⟩, rfl, rfl, trivial, ⟨_, rfl⟩, rfl, trivial⟩
  exact absurd (h _ _ hlegal (by decide)) (by decide)

end RilEventLoop
