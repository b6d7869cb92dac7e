import VendorMediatek.FirmwareInit

/-!
# VendorInterface::Close while the firmware is brought up

Close deletes the HCI object before it calls BT_Cleanup, so the init thread of the session may
still be about to send. An event may arrive at any time here; the code stops its watcher before.
-/

namespace FirmwareTeardown

open FirmwareInit LabelledRuns

/-- Whether hci_ is there, and whether notify_thread_exit has run in this session. -/
structure State extends FirmwareInit.State where
  hci : Bool
  notified : Bool
  deriving DecidableEq, Repr

def initial : State := ⟨FirmwareInit.initial, false, false⟩

inductive Event where
  | radiomod (e : FirmwareInit.Event)
  | deleteHci
  deriving DecidableEq, Repr

/-- Open makes hci_ before it calls BT_InitDevice, Close deletes it before it calls BT_Cleanup. -/
def Enabled (s : State) : Event → Prop
  | .radiomod e => FirmwareInit.Enabled s.toState e ∧ (e = .cleanup → !s.hci)
  | .deleteHci => s.client = .up ∧ s.hci

instance (s : State) (e : Event) : Decidable (Enabled s e) := by
  cases e <;> simp only [Enabled] <;> infer_instance

def next (s : State) : Event → State
  | .radiomod (.initDevice addr) =>
    ⟨FirmwareInit.next s.toState (.initDevice addr), true, false⟩
  | .radiomod .notifyThreadExit =>
    ⟨FirmwareInit.next s.toState .notifyThreadExit, s.hci, true⟩
  | .radiomod e => ⟨FirmwareInit.next s.toState e, s.hci, s.notified⟩
  | .deleteHci => { s with hci := false }

def system : System State Event := ⟨Enabled, next⟩

instance (s : State) (e : Event) : Decidable (system.Enabled s e) :=
  inferInstanceAs (Decidable (Enabled s e))

/-- The step calls hci_->Send. -/
def Sends (s : State) (e : Event) : Prop :=
  e = .radiomod .initThread ∧
    match s.thread with
    | .command .send _ _ => True
    | _ => False

/-- The step finds the session's command status open under the mutex. -/
def PassesLock (s : State) (e : Event) : Prop :=
  e = .radiomod .initThread ∧ s.cmdStatus ≠ .terminate ∧
    match s.thread with
    | .command .lock _ _ => True
    | _ => False

/-- No command is sent after CMD_TERMINATE was set or hci_ was deleted. -/
def SendsInTime (s : State) (e : Event) : Prop := Sends s e → s.hci ∧ !s.notified

/-- hci_ is not deleted under a thread that goes on to send, and the thread does not start to
send when hci_ is gone. -/
def Separated (s : State) (e : Event) : Prop :=
  (e = .deleteHci → ¬s.thread.BeforeSend) ∧ (PassesLock s e → s.hci)

instance (s : State) (e : Event) : Decidable (Sends s e) := by
  rw [Sends]
  cases s.thread with
  | command phase i c => cases phase <;> infer_instance
  | _ => infer_instance

instance (s : State) (e : Event) : Decidable (PassesLock s e) := by
  rw [PassesLock]
  cases s.thread with
  | command phase i c => cases phase <;> infer_instance
  | _ => infer_instance

instance (s : State) (e : Event) : Decidable (SendsInTime s e) :=
  inferInstanceAs (Decidable (_ → _))

instance (s : State) (e : Event) : Decidable (Separated s e) :=
  inferInstanceAs (Decidable (_ ∧ _))

/-! ## What a step does to the thread -/

theorem beforeSend_gormFwInitThread {s : FirmwareInit.State}
    (h : (gormFwInitThread s).thread.BeforeSend) :
    s.thread.BeforeSend ∨
      (s.cmdStatus ≠ .terminate ∧ ∃ i c, s.thread = .command .lock i c) := by
  cases ht : s.thread with
  | command phase i c =>
    cases phase with
    | lock =>
      right
      refine ⟨fun hs => ?_, i, c, rfl⟩
      simp only [gormFwInitThread, ht, hs] at h
      exact h
    | wait =>
      simp only [gormFwInitThread, ht] at h
      cases hs : s.cmdStatus <;> simp only [hs, ht] at h <;> exact h.elim
    | _ => exact Or.inl trivial
  | loopTest i =>
    simp only [gormFwInitThread, ht] at h
    split at h
    · exact h.elim
    · split at h <;> exact h.elim
  | _ =>
    simp only [gormFwInitThread, ht] at h
    exact h.elim

theorem gormFwInitThread_client (s : FirmwareInit.State) :
    (gormFwInitThread s).client = s.client := by
  rw [gormFwInitThread]
  cases s.thread with
  | loopTest i =>
    dsimp only
    split
    · rfl
    · split <;> rfl
  | command phase i c =>
    cases phase with
    | lock =>
      dsimp only
      split <;> rfl
    | wait =>
      dsimp only
      split <;> rfl
    | _ => rfl
  | _ => rfl

theorem handleIncomingEvent_frame (s : FirmwareInit.State) (ev : HciEvent) :
    (handleIncomingEvent s ev).thread = s.thread ∧
      (handleIncomingEvent s ev).client = s.client := by
  rw [handleIncomingEvent]
  cases s.internalCommand.cb with
  | none => exact ⟨rfl, rfl⟩
  | some cb =>
    dsimp only
    split <;> exact ⟨rfl, rfl⟩

/-! ## Sessions -/

structure Invariant (s : State) : Prop where
  idle : s.client = .idle → s.thread = .absent
  closing : s.client = .notifying ∨ s.client = .joining → !s.hci
  told : s.notified → !s.hci

theorem initial_invariant : Invariant initial := ⟨fun _ => rfl, nofun, nofun⟩

theorem gormFwInitThread_absent {s : FirmwareInit.State} (h : s.thread = .absent) :
    (gormFwInitThread s).thread = .absent := by
  rw [gormFwInitThread, h]
  exact h

theorem next_invariant {s : State} {e : Event} (h : Invariant s) (he : Enabled s e) :
    Invariant (next s e) := by
  cases e with
  | deleteHci =>
    exact ⟨h.idle, fun _ => rfl, fun _ => rfl⟩
  | radiomod e =>
    obtain ⟨hbase, hcleanup⟩ := he
    cases e with
    | initDevice addr => exact ⟨nofun, nofun, nofun⟩
    | setRunning => exact ⟨nofun, nofun, h.told⟩
    | initThread =>
      refine ⟨fun hc => ?_, fun hc => ?_, h.told⟩
      · exact gormFwInitThread_absent (h.idle ((gormFwInitThread_client _).symm.trans hc))
      · change (gormFwInitThread s.toState).client = _ ∨
          (gormFwInitThread s.toState).client = _ at hc
        rw [gormFwInitThread_client] at hc
        exact h.closing hc
    | incomingEvent ev =>
      obtain ⟨hthread, hclient⟩ := handleIncomingEvent_frame s.toState ev
      refine ⟨fun hc => ?_, fun hc => ?_, h.told⟩
      · exact hthread.trans (h.idle (hclient.symm.trans hc))
      · change (handleIncomingEvent s.toState ev).client = _ ∨
          (handleIncomingEvent s.toState ev).client = _ at hc
        rw [hclient] at hc
        exact h.closing hc
    | cleanup =>
      refine ⟨fun hc => ?_, fun _ => hcleanup rfl, h.told⟩
      change (if s.workerThreadRunning then Client.notifying else .joining) = .idle at hc
      split at hc <;> cases hc
    | notifyThreadExit =>
      exact ⟨nofun, fun _ => h.closing (Or.inl hbase), fun _ => h.closing (Or.inl hbase)⟩
    | join => exact ⟨fun _ => rfl, nofun, h.told⟩

/-- A step leaves a thread about to send that was so before or has passed the test. -/
theorem beforeSend_next {s : State} {e : Event} (h : (next s e).thread.BeforeSend) :
    s.thread.BeforeSend ∨ PassesLock s e := by
  cases e with
  | deleteHci => exact Or.inl h
  | radiomod e =>
    cases e with
    | initDevice addr => exact h.elim
    | initThread =>
      rcases beforeSend_gormFwInitThread h with hb | ⟨hs, i, c, ht⟩
      · exact Or.inl hb
      · refine Or.inr ⟨rfl, hs, ?_⟩
        rw [ht]
        trivial
    | incomingEvent ev =>
      left
      rw [← (handleIncomingEvent_frame s.toState ev).1]
      exact h
    | join => exact h.elim
    | setRunning => exact Or.inl h
    | cleanup => exact Or.inl h
    | notifyThreadExit => exact Or.inl h

/-- hci_ is there for a thread that is about to send. -/
structure Safe (s : State) : Prop extends Invariant s where
  sending : s.thread.BeforeSend → s.hci

theorem initial_safe : Safe initial := ⟨initial_invariant, nofun⟩

theorem next_hci {s : State} {e : Event} (h : s.hci) (hd : e ≠ .deleteHci) : (next s e).hci := by
  cases e with
  | deleteHci => exact absurd rfl hd
  | radiomod e => cases e <;> first | exact h | rfl

theorem next_safe {s : State} {e : Event} (h : Safe s) (he : Enabled s e) (hg : Separated s e) :
    Safe (next s e) where
  toInvariant := next_invariant h.toInvariant he
  sending hb := by
    by_cases hd : e = .deleteHci
    · subst hd
      exact absurd hb (hg.1 rfl)
    · rcases beforeSend_next hb with hs | hp
      · exact next_hci (h.sending hs) hd
      · exact next_hci (hg.2 hp) hd

theorem beforeSend_of_sends {s : State} {e : Event} (h : Sends s e) : s.thread.BeforeSend := by
  have hsend := h.2
  cases ht : s.thread with
  | command phase i c =>
    rw [ht] at hsend
    cases phase <;> trivial
  | _ =>
    rw [ht] at hsend
    exact hsend.elim

theorem sendsInTime_of_safe {s : State} {e : Event} (h : Safe s) : SendsInTime s e := by
  intro hs
  have hhci := h.sending (beforeSend_of_sends hs)
  refine ⟨hhci, ?_⟩
  cases hn : s.notified with
  | false => rfl
  | true =>
    have := h.told hn
    rw [hhci] at this
    cases this

/-! ## The condition is the exact one -/

/-- A thread that is about to send when hci_ is gone. -/
def Doomed (s : State) : Prop := s.thread.BeforeSend ∧ !s.hci

theorem doomed_of_not_separated {s : State} {e : Event} (h : ¬Separated s e) :
    Doomed (next s e) := by
  by_cases hd : e = .deleteHci ∧ s.thread.BeforeSend
  · rw [hd.1]
    exact ⟨hd.2, rfl⟩
  · have hp : PassesLock s e ∧ !s.hci := by
      by_contra hn
      refine h ⟨fun he hb => hd ⟨he, hb⟩, fun hp => ?_⟩
      cases hh : s.hci with
      | true => rfl
      | false => exact absurd ⟨hp, by rw [hh]; rfl⟩ hn
    obtain ⟨⟨rfl, hs, hlock⟩, hh⟩ := hp
    refine ⟨?_, hh⟩
    change (gormFwInitThread s.toState).thread.BeforeSend
    cases ht : s.thread with
    | command phase i c =>
      rw [ht] at hlock
      cases phase with
      | lock =>
        simp only [gormFwInitThread, ht, if_pos hs]
        trivial
      | _ => exact hlock.elim
    | _ =>
      rw [ht] at hlock
      exact hlock.elim

theorem beforeSend_kept {s : FirmwareInit.State} (h : s.thread.BeforeSend)
    (hs : ∀ i c, s.thread ≠ .command .send i c) : (gormFwInitThread s).thread.BeforeSend := by
  cases ht : s.thread with
  | command phase i c =>
    rw [ht] at h
    cases phase with
    | send => exact absurd ht (hs i c)
    | lock => exact h.elim
    | wait => exact h.elim
    | _ => simp only [gormFwInitThread, ht, InitThread.BeforeSend]
  | _ =>
    rw [ht] at h
    exact h.elim

theorem doomed_next {s : State} {e : Event} (hi : Invariant s) (he : Enabled s e) (h : Doomed s)
    (hq : SendsInTime s e) : Doomed (next s e) := by
  obtain ⟨hb, hh⟩ := h
  cases e with
  | deleteHci => exact ⟨hb, rfl⟩
  | radiomod e =>
    cases e with
    | initDevice addr =>
      have ht := hi.idle he.1
      rw [ht] at hb
      exact hb.elim
    | initThread =>
      refine ⟨beforeSend_kept hb fun i c ht => ?_, hh⟩
      have := (hq ⟨rfl, by rw [ht]; trivial⟩).1
      rw [this] at hh
      cases hh
    | incomingEvent ev =>
      refine ⟨?_, hh⟩
      change (handleIncomingEvent s.toState ev).thread.BeforeSend
      rw [(handleIncomingEvent_frame s.toState ev).1]
      exact hb
    | join =>
      rw [he.1.2] at hb
      exact hb.elim
    | setRunning => exact ⟨hb, hh⟩
    | cleanup => exact ⟨hb, hh⟩
    | notifyThreadExit => exact ⟨hb, hh⟩

theorem doomed_run {s : State} {es : List Event} (hi : Invariant s) (h : Doomed s)
    (legal : system.Legal s es) (hq : system.Along SendsInTime s es) : Doomed (system.run s es) :=
  (invariant_run (I := fun s => Invariant s ∧ Doomed s) (Q := SendsInTime) system
    (fun _ _ hs he hq => ⟨next_invariant hs.1 he, doomed_next hs.1 he hs.2 hq⟩) ⟨hi, h⟩ legal hq).2

theorem separated_of_sendsInTime {s : State} {es : List Event} (hi : Invariant s)
    (legal : system.Legal s es) (hq : system.Along SendsInTime s es)
    (hend : ¬(system.run s es).thread.BeforeSend) : system.Along Separated s es := by
  induction es generalizing s with
  | nil => trivial
  | cons e es ih =>
    have hn := next_invariant hi legal.1
    refine ⟨?_, ih hn legal.2 hq.2 hend⟩
    by_contra hsep
    exact hend (doomed_run hn (doomed_of_not_separated hsep) legal.2 hq.2).1

/-- In a run where hci_ is not deleted under a thread that is about to send and no thread
gets there without hci_, no command is sent after CMD_TERMINATE or the deletion. In a run that
leaves no thread about to send it is so only if these hold. -/
theorem sendsInTime_of_separated (es : List Event) (legal : system.Legal initial es) :
    (system.Along Separated initial es → system.Along SendsInTime initial es) ∧
      (¬(system.run initial es).thread.BeforeSend →
        system.Along SendsInTime initial es → system.Along Separated initial es) :=
  ⟨fun h => along_of_invariant system (fun _ _ hs he hg => next_safe hs he hg) initial_safe legal h
      fun _ _ hs _ _ => sendsInTime_of_safe hs,
    fun hend hq => separated_of_sendsInTime initial_invariant legal hq hend⟩

/-- A session that Close ends while the thread waits for the answer to its first command. -/
def closedInTime : List Event :=
  [.radiomod (.initDevice [0, 8, 34, 1, 2, 3]), .radiomod .setRunning] ++
    List.replicate 7 (.radiomod .initThread) ++
    [.deleteHci, .radiomod .cleanup, .radiomod .notifyThreadExit] ++
    List.replicate 4 (.radiomod .initThread) ++ [.radiomod .join]

theorem closedInTime_sendsInTime : system.Along SendsInTime initial closedInTime :=
  (sendsInTime_of_separated closedInTime (by decide +kernel)).1 (by decide +kernel)

/-- Close comes between the test under the mutex and the send. -/
def closedTooLate : List Event :=
  [.radiomod (.initDevice [0, 8, 34, 1, 2, 3]), .radiomod .setRunning] ++
    List.replicate 3 (.radiomod .initThread) ++
    [.deleteHci, .radiomod .cleanup, .radiomod .notifyThreadExit] ++
    List.replicate 4 (.radiomod .initThread)

theorem closedTooLate_sends :
    system.Legal initial closedTooLate ∧ ¬system.Along SendsInTime initial closedTooLate := by
  decide +kernel

end FirmwareTeardown
