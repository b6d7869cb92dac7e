import Mathlib.Data.List.Basic
import VendorMediatek.LabelledRuns

/-!
# Bluetooth firmware bring-up

radiomod.c: the init thread of a session, the two completion callbacks and BT_Cleanup, with
the dispatch of command-complete events in vendor_interface.cc. The statics outlive a
session. Each access of the thread to shared data is a step of its own; an arriving event is one.
-/

namespace FirmwareInit

open LabelledRuns

inductive HciCmdStatus where
  | success | fail | pending | terminate
  deriving DecidableEq, Repr

inductive VndOpResult where
  | success | fail
  deriving DecidableEq, Repr

/-- GORMevt_HCE_Get_Local_BD_Addr and GORMevt_HCE_Common_Complete. -/
inductive CompletionCallback where
  | getLocalBdAddr | commonComplete
  deriving DecidableEq, Repr

/-- What a GORMcmd_HCC function does besides its parameters: the opcode it sets, the callback
it transmits with, and whether it clears fgGetEFUSE. -/
structure HciCommand where
  opcode : UInt16
  callback : CompletionCallback
  clearsEfuse : Bool
  deriving DecidableEq, Repr

def gormcmdHccGetLocalBdAddr : HciCommand := ⟨0x1009, .getLocalBdAddr, false⟩
def gormcmdHccSetLocalBdAddr : HciCommand := ⟨0xFC1A, .commonComplete, true⟩
def gormcmdHccSetPcm : HciCommand := ⟨0xFC72, .commonComplete, false⟩
def gormcmdHccSetRadio : HciCommand := ⟨0xFC79, .commonComplete, false⟩
def gormcmdHccSetTxPowerOffset : HciCommand := ⟨0xFC93, .commonComplete, false⟩
def gormcmdHccSetSleepTimeout : HciCommand := ⟨0xFC7A, .commonComplete, false⟩
def gormcmdHccCoexPerformanceAdjust : HciCommand := ⟨0xFC22, .commonComplete, false⟩
def gormcmdHccSetFwSysLog : HciCommand := ⟨0xFCBE, .commonComplete, false⟩
def gormcmdHccSetSspDebugMode : HciCommand := ⟨0x1804, .commonComplete, false⟩

def btInitPreloadScript6630 : List HciCommand :=
  [gormcmdHccGetLocalBdAddr, gormcmdHccSetLocalBdAddr, gormcmdHccSetPcm, gormcmdHccSetRadio,
    gormcmdHccSetTxPowerOffset, gormcmdHccSetSleepTimeout, gormcmdHccCoexPerformanceAdjust,
    gormcmdHccSetFwSysLog, gormcmdHccSetSspDebugMode]

def ucDefaultAddr : List UInt8 := [0x00, 0x00, 0x46, 0x66, 0x30, 0x01]
def ucZeroAddr : List UInt8 := [0, 0, 0, 0, 0, 0]

/-- From the test under the mutex to the wait for the event. -/
inductive CmdPhase where
  | lock | setOpcode | setCallback | setInternalOpcode | send | wait
  deriving DecidableEq, Repr

inductive InitThread where
  | absent
  | starting
  | loopTest (i : ℕ)
  | command (phase : CmdPhase) (i : ℕ) (c : HciCommand)
  | exit (ret : VndOpResult)
  | clearRunning
  | finished
  deriving DecidableEq, Repr

/-- Where the caller of BT_InitDevice and BT_Cleanup stands. -/
inductive Client where
  | idle | creating | up | notifying | joining
  deriving DecidableEq, Repr

/-- What a session has done: the script positions sent, and those answered with status 0. -/
structure Session where
  start : ℕ
  sent : List ℕ
  answered : List ℕ
  deriving DecidableEq, Repr

/-- A call of callFirmwareConfigured. -/
structure Report where
  ret : VndOpResult
  session : Session
  deriving DecidableEq, Repr

structure InternalCommand where
  cb : Option CompletionCallback
  opcode : UInt16
  deriving DecidableEq, Repr

structure State where
  cmdStatus : HciCmdStatus
  fgGetEfuse : Bool
  addr : List UInt8
  wOpCode : UInt16
  internalCommand : InternalCommand
  workerThreadRunning : Bool
  thread : InitThread
  client : Client
  session : Session
  reports : List Report
  deriving DecidableEq, Repr

/-- Statics start as zero, which is CMD_SUCCESS for cmd_status. -/
def initial : State where
  cmdStatus := .success
  fgGetEfuse := false
  addr := ucZeroAddr
  wOpCode := 0
  internalCommand := ⟨none, 0⟩
  workerThreadRunning := false
  thread := .absent
  client := .idle
  session := ⟨0, [], []⟩
  reports := []

/-- One step of GORM_FW_Init_Thread. transmit_old never fails, and alloc_buffer throws instead. -/
def gormFwInitThread (s : State) : State :=
  match s.thread with
  | .absent => s
  | .starting =>
    let efuse := s.fgGetEfuse || decide (s.addr = ucDefaultAddr) || decide (s.addr = ucZeroAddr)
    let i := if efuse then 0 else 1
    { s with fgGetEfuse := efuse, thread := .loopTest i, session := ⟨i, [], []⟩ }
  | .loopTest i =>
    match btInitPreloadScript6630[i]? with
    | none => { s with thread := .exit .success }
    | some c =>
      if s.cmdStatus ≠ .terminate then { s with thread := .command .lock i c }
      else { s with thread := .exit .success }
  | .command .lock i c =>
    if s.cmdStatus ≠ .terminate then
      { s with cmdStatus := .pending, thread := .command .setOpcode i c }
    else { s with thread := .exit .success }
  | .command .setOpcode i c =>
    { s with
      wOpCode := c.opcode
      fgGetEfuse := s.fgGetEfuse && !c.clearsEfuse
      thread := .command .setCallback i c }
  | .command .setCallback i c =>
    { s with
      internalCommand := { s.internalCommand with cb := some c.callback }
      thread := .command .setInternalOpcode i c }
  | .command .setInternalOpcode i c =>
    { s with
      internalCommand := { s.internalCommand with opcode := s.wOpCode }
      thread := .command .send i c }
  | .command .send i c =>
    { s with
      session := { s.session with sent := s.session.sent ++ [i] }
      thread := .command .wait i c }
  | .command .wait i _ =>
    match s.cmdStatus with
    | .pending => s
    | .fail => { s with thread := .exit .fail }
    | .success | .terminate => { s with thread := .loopTest (i + 1) }
  | .exit ret =>
    { s with reports := s.reports ++ [⟨ret, s.session⟩], thread := .clearRunning }
  | .clearRunning => { s with workerThreadRunning := false, thread := .finished }
  | .finished => s

structure HciEvent where
  code : UInt8
  opcode : UInt16
  status : UInt8
  bdAddr : List UInt8
  deriving DecidableEq, Repr

def hciCommandCompleteEvent : UInt8 := 0x0E

/-- The opcode a completion callback asks for. -/
def CompletionCallback.opcode (s : State) : CompletionCallback → UInt16
  | .getLocalBdAddr => 0x1009
  | .commonComplete => s.wOpCode

def CompletionCallback.success (s : State) (cb : CompletionCallback) (ev : HciEvent) : Bool :=
  ev.code = hciCommandCompleteEvent ∧ ev.opcode = cb.opcode s ∧ ev.status = 0

def internalCommandEventMatch (s : State) (ev : HciEvent) : Bool :=
  ev.code = hciCommandCompleteEvent ∧ ev.opcode = s.internalCommand.opcode

/-- The positions sent in this session that an event with status 0 answers. -/
def Session.answers (session : Session) (ev : HciEvent) : List ℕ :=
  session.sent.filter fun i =>
    ev.status = 0 ∧ btInitPreloadScript6630[i]?.map HciCommand.opcode = some ev.opcode

def CompletionCallback.run (s : State) (cb : CompletionCallback) (ev : HciEvent) : State :=
  { s with
    cmdStatus := if cb.success s ev then .success else .fail
    addr := match cb with
      | .getLocalBdAddr => ev.bdAddr
      | .commonComplete => s.addr
    session := { s.session with answered := s.session.answered ++ s.session.answers ev } }

def handleIncomingEvent (s : State) (ev : HciEvent) : State :=
  match s.internalCommand.cb with
  | none => s
  | some cb =>
    if internalCommandEventMatch s ev then
      cb.run { s with internalCommand := { s.internalCommand with cb := none } } ev
    else s

inductive Event where
  | initDevice (addr : List UInt8)
  | setRunning
  | initThread
  | incomingEvent (ev : HciEvent)
  | cleanup
  | notifyThreadExit
  | join
  deriving DecidableEq, Repr

/-- Sessions follow one another, since BT_Cleanup joins the thread; their steps interleave freely. -/
def Enabled (s : State) : Event → Prop
  | .initDevice _ => s.client = .idle
  | .setRunning => s.client = .creating
  | .initThread => s.thread ≠ .absent ∧ s.thread ≠ .finished
  | .incomingEvent _ => True
  | .cleanup => s.client = .up
  | .notifyThreadExit => s.client = .notifying
  | .join => s.client = .joining ∧ s.thread = .finished

instance (s : State) (e : Event) : Decidable (Enabled s e) := by
  cases e <;> simp only [Enabled] <;> infer_instance

def next (s : State) : Event → State
  | .initDevice addr =>
    { s with workerThreadRunning := false, addr, thread := .starting, client := .creating }
  | .setRunning => { s with workerThreadRunning := true, client := .up }
  | .initThread => gormFwInitThread s
  | .incomingEvent ev => handleIncomingEvent s ev
  | .cleanup => { s with client := if s.workerThreadRunning then .notifying else .joining }
  | .notifyThreadExit => { s with cmdStatus := .terminate, client := .joining }
  | .join => { s with thread := .absent, client := .idle }

def system : System State Event := ⟨Enabled, next⟩

instance (s : State) (e : Event) : Decidable (system.Enabled s e) :=
  inferInstanceAs (Decidable (Enabled s e))

/-! ## Success reported -/

/-- Every position from the start up to i was sent and answered. -/
def Session.Done (session : Session) (i : ℕ) : Prop :=
  ∀ j, session.start ≤ j → j < i → j ∈ session.sent ∧ j ∈ session.answered

def Report.Sound (r : Report) : Prop :=
  r.ret = .success → r.session.Done btInitPreloadScript6630.length

def BringUpSound (s : State) : Prop := ∀ r ∈ s.reports, r.Sound

/-- CMD_PENDING is set for a command that is not sent yet. -/
def InitThread.BeforeSend : InitThread → Prop
  | .command .setOpcode _ _ | .command .setCallback _ _ | .command .setInternalOpcode _ _
  | .command .send _ _ => True
  | _ => False

instance (t : InitThread) : Decidable t.BeforeSend := by
  unfold InitThread.BeforeSend
  split <;> infer_instance

/-- The event reaches a completion callback and makes it write CMD_SUCCESS. -/
def Accepted (s : State) (ev : HciEvent) : Prop :=
  internalCommandEventMatch s ev ∧ ∃ cb, s.internalCommand.cb = some cb ∧ cb.success s ev

instance (s : State) (ev : HciEvent) : Decidable (Accepted s ev) :=
  match h : s.internalCommand.cb with
  | none => isFalse fun ha => by
      obtain ⟨_, cb, hcb, _⟩ := ha
      rw [h] at hcb
      cases hcb
  | some cb =>
    decidable_of_iff (internalCommandEventMatch s ev ∧ cb.success s ev) (by
      simp [Accepted, h])

/-- The thread does not find CMD_TERMINATE while commands are open, and no event completes
a command between its CMD_PENDING and its transmission. -/
def Undisturbed (s : State) : Event → Prop
  | .initThread =>
    s.cmdStatus = .terminate →
      match s.thread with
      | .loopTest i => btInitPreloadScript6630.length ≤ i
      | .command .lock _ _ => False
      | .command .wait i _ => i ∈ s.session.answered
      | _ => True
  | .incomingEvent ev => s.thread.BeforeSend → ¬ Accepted s ev
  | _ => True

instance (s : State) (e : Event) : Decidable (Undisturbed s e) := by
  cases e with
  | initThread =>
    simp only [Undisturbed]
    cases s.thread with
    | command phase i c => cases phase <;> infer_instance
    | _ => infer_instance
  | incomingEvent ev => exact inferInstanceAs (Decidable (_ → _))
  | _ => exact isTrue trivial

/-- What is known of a command under way. A success that the thread finds at its wait was
written after the command was sent, by an event with the command's opcode. -/
def CommandInv (s : State) : CmdPhase → ℕ → HciCommand → Prop
  | .lock, _, _ => True
  | .setOpcode, _, _ => s.cmdStatus ≠ .success
  | .setCallback, _, c => s.cmdStatus ≠ .success ∧ s.wOpCode = c.opcode
  | .setInternalOpcode, _, c => s.cmdStatus ≠ .success ∧ s.wOpCode = c.opcode
  | .send, _, c => s.cmdStatus ≠ .success ∧ s.internalCommand.opcode = c.opcode
  | .wait, i, c =>
    i ∈ s.session.sent ∧ s.internalCommand.opcode = c.opcode ∧
      (s.cmdStatus = .success → i ∈ s.session.answered)

def ThreadInv (s : State) : Prop :=
  match s.thread with
  | .loopTest i => s.session.Done i
  | .command phase i c =>
    s.session.Done i ∧ btInitPreloadScript6630[i]? = some c ∧ CommandInv s phase i c
  | .exit ret => ret = .success → s.session.Done btInitPreloadScript6630.length
  | _ => True

structure Invariant (s : State) : Prop where
  reports : BringUpSound s
  thread : ThreadInv s

theorem initial_invariant : Invariant initial := ⟨by simp [BringUpSound, initial], trivial⟩

theorem done_of_le {session : Session} {i j : ℕ} (h : session.Done i) (hj : j ≤ i) :
    session.Done j := fun k hs hk => h k hs (by omega)

theorem done_start (i : ℕ) : Session.Done ⟨i, [], []⟩ i := fun j hs hj => by
  change i ≤ j at hs
  omega

theorem done_succ {session : Session} {i : ℕ} (h : session.Done i) (sent : i ∈ session.sent)
    (answered : i ∈ session.answered) : session.Done (i + 1) := by
  intro j hs hj
  by_cases he : j = i
  · exact he ▸ ⟨sent, answered⟩
  · exact h j hs (by omega)

theorem done_extend {session : Session} {i : ℕ} (h : session.Done i) (sent answered : List ℕ) :
    Session.Done ⟨session.start, session.sent ++ sent, session.answered ++ answered⟩ i :=
  fun j hs hj =>
    ⟨List.mem_append_left _ (h j hs hj).1, List.mem_append_left _ (h j hs hj).2⟩

theorem script_length_le {i : ℕ} (h : btInitPreloadScript6630[i]? = none) :
    btInitPreloadScript6630.length ≤ i := List.getElem?_eq_none_iff.mp h

theorem gormFwInitThread_invariant {s : State} (h : Invariant s)
    (undisturbed : Undisturbed s .initThread) : Invariant (gormFwInitThread s) := by
  obtain ⟨reports, thread⟩ := h
  unfold ThreadInv at thread
  simp only [Undisturbed] at undisturbed
  unfold gormFwInitThread
  split <;> rename_i ht <;> simp only [ht] at thread undisturbed
  · -- absent
    exact ⟨reports, by simp [ThreadInv, ht]⟩
  · -- starting
    exact ⟨reports, done_start _⟩
  · -- loopTest
    split
    · rename_i hnone
      exact ⟨reports, fun _ => done_of_le thread (script_length_le hnone)⟩
    · rename_i c hc
      split
      · exact ⟨reports, thread, hc, trivial⟩
      · rename_i hstatus
        exact ⟨reports, fun _ => done_of_le thread (undisturbed (not_not.mp hstatus))⟩
  · -- lock
    split
    · exact ⟨reports, thread.1, thread.2.1, by simp [CommandInv]⟩
    · rename_i hstatus
      exact (undisturbed (not_not.mp hstatus)).elim
  · -- setOpcode
    exact ⟨reports, thread.1, thread.2.1, thread.2.2, rfl⟩
  · -- setCallback
    exact ⟨reports, thread.1, thread.2.1, thread.2.2⟩
  · -- setInternalOpcode
    exact ⟨reports, thread.1, thread.2.1, thread.2.2⟩
  · -- send
    rename_i i c
    refine ⟨reports, ?_, thread.2.1, ?_, thread.2.2.2, fun hs => absurd hs thread.2.2.1⟩
    · simpa using done_extend thread.1 [i] []
    · exact List.mem_append_right _ (List.mem_singleton.mpr rfl)
  · -- wait
    obtain ⟨hdone, hc, hsent, hopcode, hanswered⟩ := thread
    split
    · rename_i hs
      refine ⟨reports, ?_⟩
      simp only [ThreadInv, ht]
      exact ⟨hdone, hc, hsent, hopcode, hanswered⟩
    · exact ⟨reports, fun hf => by cases hf⟩
    · rename_i hs
      exact ⟨reports, done_succ hdone hsent (hanswered hs)⟩
    · rename_i hs
      exact ⟨reports, done_succ hdone hsent (undisturbed hs)⟩
  · -- exit
    refine ⟨?_, trivial⟩
    intro r hr
    rcases List.mem_append.mp hr with hr | hr
    · exact reports r hr
    · rw [List.mem_singleton.mp hr]
      exact thread
  · -- clearRunning
    exact ⟨reports, trivial⟩
  · -- finished
    exact ⟨reports, by simp [ThreadInv, ht]⟩

/-- An event that completes a command answers the command whose opcode was transmitted. -/
theorem mem_answers {s : State} {ev : HciEvent} {i : ℕ} {c : HciCommand}
    (ha : Accepted s ev) (hc : btInitPreloadScript6630[i]? = some c)
    (hsent : i ∈ s.session.sent) (hopcode : s.internalCommand.opcode = c.opcode) :
    i ∈ s.session.answers ev := by
  obtain ⟨hm, cb, _, hs⟩ := ha
  simp only [internalCommandEventMatch, decide_eq_true_eq] at hm
  simp only [CompletionCallback.success, decide_eq_true_eq] at hs
  simp [Session.answers, hsent, hc, hs.2.2, hm.2, hopcode]

theorem handleIncomingEvent_invariant {s : State} (h : Invariant s) {ev : HciEvent}
    (undisturbed : Undisturbed s (.incomingEvent ev)) : Invariant (handleIncomingEvent s ev) := by
  obtain ⟨reports, thread⟩ := h
  unfold handleIncomingEvent
  split
  · exact ⟨reports, thread⟩
  · rename_i cb hcb
    split
    · rename_i hm
      have accepted : cb.success s ev = true → Accepted s ev := fun hs => ⟨hm, cb, hcb, hs⟩
      have hext : ∀ {i}, s.session.Done i → Session.Done ⟨s.session.start, s.session.sent,
          s.session.answered ++ s.session.answers ev⟩ i := fun hd => by
        simpa using done_extend hd [] (s.session.answers ev)
      refine ⟨reports, ?_⟩
      unfold ThreadInv at thread ⊢
      simp only [CompletionCallback.run]
      split <;> rename_i ht <;> simp only [ht] at thread
      · exact hext thread
      · rename_i phase i c
        obtain ⟨hdone, hc, hcmd⟩ := thread
        refine ⟨hext hdone, hc, ?_⟩
        have unsent : InitThread.BeforeSend (.command phase i c) →
            (if cb.success s ev then HciCmdStatus.success else .fail) ≠ .success := by
          intro hb
          rw [if_neg fun hs => undisturbed (ht ▸ hb) (accepted hs)]
          decide
        cases phase with
        | lock => trivial
        | setOpcode => exact unsent trivial
        | setCallback => exact ⟨unsent trivial, hcmd.2⟩
        | setInternalOpcode => exact ⟨unsent trivial, hcmd.2⟩
        | send => exact ⟨unsent trivial, hcmd.2⟩
        | wait =>
          refine ⟨hcmd.1, hcmd.2.1, fun hstatus => List.mem_append_right _ ?_⟩
          by_cases hs : cb.success s ev = true
          · exact mem_answers (accepted hs) hc hcmd.1 hcmd.2.1
          · change (if cb.success s ev then HciCmdStatus.success else .fail) = .success at hstatus
            rw [if_neg hs] at hstatus
            cases hstatus
      · exact fun hr => hext (thread hr)
      · trivial
    · exact ⟨reports, thread⟩

theorem next_invariant {s : State} (h : Invariant s) {e : Event} (undisturbed : Undisturbed s e) :
    Invariant (next s e) := by
  cases e with
  | initDevice addr => exact ⟨h.reports, trivial⟩
  | setRunning => exact ⟨h.reports, h.thread⟩
  | initThread => exact gormFwInitThread_invariant h undisturbed
  | incomingEvent ev => exact handleIncomingEvent_invariant h undisturbed
  | cleanup => exact ⟨h.reports, h.thread⟩
  | notifyThreadExit =>
    refine ⟨h.reports, ?_⟩
    have ht := h.thread
    unfold ThreadInv at ht ⊢
    simp only [next]
    split <;> rename_i hs <;> simp only [hs] at ht
    · exact ht
    · rename_i phase i c
      refine ⟨ht.1, ht.2.1, ?_⟩
      cases phase <;> simp_all [CommandInv]
    · exact ht
    · trivial
  | join => exact ⟨h.reports, trivial⟩

/-- In a run where the thread finds no early CMD_TERMINATE and no event completes a command
that is not sent yet, success is reported only for a script that was carried out. -/
theorem firmware_configured_sound (es : List Event) (legal : system.Legal initial es)
    (undisturbed : system.Along Undisturbed initial es) :
    ∀ pre, pre <+: es → BringUpSound (system.run initial pre) := by
  intro pre hp
  have hi := invariant_run system (I := Invariant) (Q := Undisturbed)
    (fun s e h _ hu => next_invariant h hu) initial_invariant
    (along_of_le system legal hp) (along_of_le system undisturbed hp)
  exact hi.reports

/-- A session whose address needs no eFUSE look-up, each command answered in turn. -/
def completeSession : List Event :=
  [.initDevice [0, 8, 34, 1, 2, 3], .initThread, .setRunning] ++
    (btInitPreloadScript6630.drop 1).flatMap (fun c =>
      List.replicate 6 .initThread ++
        [.incomingEvent ⟨hciCommandCompleteEvent, c.opcode, 0, []⟩, .initThread]) ++
    [.initThread, .initThread, .initThread, .cleanup, .join]

theorem completeSession_sound : system.Legal initial completeSession ∧
    ∀ pre, pre <+: completeSession → BringUpSound (system.run initial pre) :=
  ⟨by decide +kernel,
    firmware_configured_sound completeSession (by decide +kernel) (by decide +kernel)⟩

example : (system.run initial completeSession).reports =
    [⟨.success, ⟨1, [1, 2, 3, 4, 5, 6, 7, 8], [1, 2, 3, 4, 5, 6, 7, 8]⟩⟩] := by decide +kernel

/-- BT_Cleanup before the first command: the thread reports success with nothing sent. -/
def cancelledSession : List Event :=
  [.initDevice [0, 8, 34, 1, 2, 3], .setRunning, .initThread, .cleanup, .notifyThreadExit,
    .initThread, .initThread]

theorem cancelledSession_reports_success : ¬ ∀ es, system.Legal initial es →
    ∀ pre, pre <+: es → BringUpSound (system.run initial pre) := by
  intro h
  have hr := h cancelledSession (by decide) _ (List.prefix_refl _) ⟨.success, ⟨1, [], []⟩⟩
    (by decide) rfl 1 le_rfl (by decide)
  cases hr.1

end FirmwareInit
