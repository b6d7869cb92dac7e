import Mathlib.Data.List.Basic
import VendorMediatek.LabelledRuns

/-!
# Leaving the event loop of the Wi-Fi HAL

wifi_event_loop and wifi_cleanup of wifi_hal.cpp run on two threads. wifi_cleanup writes "Exit" into
its end of a socket pair and waits for "Done"; then it cancels the commands and frees the handle,
which the loop uses wherever it is not in poll.
-/

namespace WifiEventLoop

open LabelledRuns

/-- What poll shows, in the order in which the loop looks at it. -/
inductive PollResult where
  | fails | error | hangup | event | exit | other
  deriving DecidableEq

/-- Why the loop was left: "Exit" was read and answered or not, the netlink socket was hung up, or
clean_up was set. -/
inductive Left where
  | answered | unanswered | hungUp | cleanUp
  deriving DecidableEq

/-- The loop is in poll, in internal_pollin_handler, at the test of clean_up or before the answer to
"Exit". -/
inductive Loop where
  | notStarted | polling | handling | testing | answering
  | left (why : Left)
  deriving DecidableEq

inductive Cleanup where
  | notCalled | called | waiting | cancelling | freed
  deriving DecidableEq

/-- Whether "Exit" and "Done" are in the socket pair. -/
structure State where
  loop : Loop
  cleanup : Cleanup
  exit : Bool
  done : Bool
  clean_up : Bool
  deriving DecidableEq

def initial : State := ⟨.notStarted, .notCalled, false, false, false⟩

/-- The steps of wifi_event_loop, and those of wifi_cleanup from the call on. The writes may fail. -/
inductive Event where
  | start
  | poll (result : PollResult)
  | handled
  | test
  | answer (written : Bool)
  | cleanup
  | writeExit (written : Bool)
  | readDone
  | free
  deriving DecidableEq

def polled : PollResult → Loop
  | .hangup => .left .hungUp
  | .event => .handling
  | .exit => .answering
  | .fails | .error | .other => .testing

def next (s : State) : Event → State
  | .start => { s with loop := .polling }
  | .poll result => { s with loop := polled result, exit := s.exit && result != .exit }
  | .handled => { s with loop := .testing }
  | .test => { s with loop := if s.clean_up then .left .cleanUp else .polling }
  | .answer written =>
    { s with loop := .left (if written then .answered else .unanswered), done := s.done || written }
  | .cleanup => { s with cleanup := .called }
  | .writeExit written =>
    if written then { s with cleanup := .waiting, exit := true }
    else { s with cleanup := .cancelling, clean_up := true }
  | .readDone => { s with cleanup := .cancelling, clean_up := true, done := false }
  | .free => { s with cleanup := .freed }

/-- The loop is started once, with a handle that is still there. -/
def Enabled (s : State) : Event → Prop
  | .start => s.loop = .notStarted ∧ s.cleanup ≠ .freed
  | .poll result => s.loop = .polling ∧ (result = .exit → s.exit = true)
  | .handled => s.loop = .handling
  | .test => s.loop = .testing
  | .answer _ => s.loop = .answering
  | .cleanup => s.cleanup = .notCalled
  | .writeExit _ => s.cleanup = .called
  | .readDone => s.cleanup = .waiting ∧ s.done = true
  | .free => s.cleanup = .cancelling

def system : System State Event := ⟨Enabled, next⟩

instance (s : State) (e : Event) : Decidable (system.Enabled s e) := by
  cases e <;> simp only [system, Enabled] <;> infer_instance

def Loop.running : Loop → Bool
  | .polling | .handling | .testing | .answering => true
  | _ => false

def Cleanup.past : Cleanup → Bool
  | .cancelling | .freed => true
  | _ => false

def Loop.told : Loop → Bool
  | .answering | .left .answered | .left .unanswered => true
  | _ => false

/-- What the two threads have said to each other. -/
structure Inv (s : State) : Prop where
  exit : s.exit = true → s.cleanup = .waiting
  answering : s.loop = .answering → s.cleanup = .waiting
  done : s.done = true → s.cleanup = .waiting ∧ s.loop = .left .answered
  answered : s.cleanup = .waiting → s.loop = .left .answered → s.done = true
  clean_up : s.clean_up = true → s.cleanup.past = true
  left : s.loop = .left .cleanUp → s.cleanup.past = true
  told : s.loop.told = true → s.exit = false ∧ (s.cleanup = .waiting ∨ s.cleanup.past = true)
  waiting : s.cleanup = .waiting → s.exit = true ∨ s.loop.told = true

theorem inv_initial : Inv initial := by
  constructor <;> decide

theorem Inv.done_false {s : State} (h : Inv s) (hloop : s.loop ≠ .left .answered) : s.done = false := by
  by_contra hdone
  exact hloop (h.done (by simpa using hdone)).2

/-- While wifi_cleanup does not wait, "Exit" has not been written or has been answered. -/
theorem Inv.exit_false {s : State} (h : Inv s) (hcleanup : s.cleanup ≠ .waiting) :
    s.exit = false ∧ s.done = false ∧ s.loop ≠ .answering := by
  refine ⟨?_, ?_, fun hloop => hcleanup (h.answering hloop)⟩
  · by_contra hexit
    exact hcleanup (h.exit (by simpa using hexit))
  · by_contra hdone
    exact hcleanup (h.done (by simpa using hdone)).1

theorem Inv.moves {s : State} (h : Inv s) {loop : Loop} (hbefore : s.loop.told = false)
    (hafter : loop.told = false) (hclean : loop = .left .cleanUp → s.clean_up = true) :
    Inv { s with loop := loop } := by
  have hnot : s.loop ≠ .left .answered := by
    intro hloop
    rw [hloop] at hbefore
    cases hbefore
  refine ⟨h.exit, ?_, fun hdone => absurd (h.done hdone).2 hnot, ?_, h.clean_up,
    fun hloop => h.clean_up (hclean hloop), fun htold => absurd htold (by simp [hafter]),
    fun hwaiting => .inl ?_⟩
  · rintro rfl
    cases hafter
  · rintro - rfl
    cases hafter
  · rcases h.waiting hwaiting with hexit | htold
    · exact hexit
    · exact absurd htold (by simp [hbefore])

theorem inv_poll {s : State} (h : Inv s) {result : PollResult} (he : Enabled s (.poll result)) :
    Inv (next s (.poll result)) := by
  obtain ⟨hpolling, hexit⟩ := he
  by_cases hresult : result = .exit
  · subst hresult
    have hwaiting := h.exit (hexit rfl)
    have hdone := h.done_false (by rw [hpolling]; nofun)
    have hread : (next s (.poll .exit)).exit = false := by simp [next]
    exact ⟨fun hn => absurd hn (by simp [hread]), fun _ => hwaiting,
      fun hn => absurd hn (by simp [next, hdone]), fun _ hn => (nomatch hn), h.clean_up, nofun,
      fun _ => ⟨hread, .inl hwaiting⟩, fun _ => .inr rfl⟩
  · have hnext : next s (.poll result) = { s with loop := polled result } := by
      cases result <;> first | exact absurd rfl hresult | simp [next]
    have htold : (polled result).told = false := by
      cases result <;> first | exact absurd rfl hresult | rfl
    rw [hnext]
    refine h.moves (by rw [hpolling]; rfl) htold fun hloop => ?_
    cases result <;> cases hloop

theorem inv_step (s : State) (e : Event) (h : Inv s) (he : Enabled s e) : Inv (next s e) := by
  cases e with
  | start => exact h.moves (by rw [he.1]; rfl) rfl nofun
  | poll result => exact inv_poll h he
  | handled => exact h.moves (by rw [show s.loop = .handling from he]; rfl) rfl nofun
  | test =>
    refine h.moves (by rw [show s.loop = .testing from he]; rfl) ?_ fun hloop => ?_
    · split <;> rfl
    · split at hloop
      · next hclean => exact hclean
      · cases hloop
  | answer written =>
    have hanswering : s.loop = .answering := he
    have hwaiting := h.answering hanswering
    have hexit := (h.told (by rw [hanswering]; rfl)).1
    have hdone := h.done_false (by rw [hanswering]; nofun)
    cases written with
    | true =>
      exact ⟨h.exit, nofun, fun _ => ⟨hwaiting, rfl⟩, fun _ _ => by simp [next], h.clean_up, nofun,
        fun _ => ⟨hexit, .inl hwaiting⟩, fun _ => .inr rfl⟩
    | false =>
      exact ⟨h.exit, nofun, fun hn => absurd hn (by simp [next, hdone]), fun _ hn => (nomatch hn),
        h.clean_up, nofun, fun _ => ⟨hexit, .inl hwaiting⟩, fun _ => .inr rfl⟩
  | cleanup =>
    have hnot : s.cleanup = .notCalled := he
    obtain ⟨hexit, hdone, hloop⟩ := h.exit_false (by rw [hnot]; nofun)
    have hpast : ¬s.cleanup.past = true := by rw [hnot]; nofun
    refine ⟨fun hn => absurd hn (by simp [next, hexit]), fun hn => absurd hn hloop,
      fun hn => absurd hn (by simp [next, hdone]), nofun, fun hn => absurd (h.clean_up hn) hpast,
      fun hn => absurd (h.left hn) hpast, fun hn => ?_, nofun⟩
    rcases (h.told hn).2 with hwaiting | hn
    · rw [hnot] at hwaiting
      cases hwaiting
    · exact absurd hn hpast
  | writeExit written =>
    have hcalled : s.cleanup = .called := he
    obtain ⟨hexit, hdone, hloop⟩ := h.exit_false (by rw [hcalled]; nofun)
    have hpast : ¬s.cleanup.past = true := by rw [hcalled]; nofun
    have htold : ¬s.loop.told = true := fun hn => by
      rcases (h.told hn).2 with hwaiting | hn
      · rw [hcalled] at hwaiting
        cases hwaiting
      · exact absurd hn hpast
    cases written with
    | true =>
      exact ⟨fun _ => rfl, fun _ => rfl, fun hn => absurd hn (by simp [next, hdone]),
        fun _ (hn : s.loop = _) => absurd (by rw [hn]; rfl) htold,
        fun hn => absurd (h.clean_up hn) hpast, fun hn => absurd (h.left hn) hpast,
        fun hn => absurd hn htold, fun _ => .inl rfl⟩
    | false =>
      exact ⟨fun hn => absurd hn (by simp [next, hexit]), fun hn => absurd hn hloop,
        fun hn => absurd hn (by simp [next, hdone]), nofun, fun _ => rfl, fun _ => rfl,
        fun _ => ⟨hexit, .inr rfl⟩, nofun⟩
  | readDone =>
    have hanswered := (h.done he.2).2
    have hexit := (h.told (by rw [hanswered]; rfl)).1
    have hloop : s.loop ≠ .answering := by rw [hanswered]; nofun
    exact ⟨fun hn => absurd hn (by simp [next, hexit]), fun hn => absurd hn hloop, nofun, nofun,
      fun _ => rfl, fun _ => rfl, fun _ => ⟨hexit, .inr rfl⟩, nofun⟩
  | free =>
    have hcancelling : s.cleanup = .cancelling := he
    obtain ⟨hexit, hdone, hloop⟩ := h.exit_false (by rw [hcancelling]; nofun)
    exact ⟨fun hn => absurd hn (by simp [next, hexit]), fun hn => absurd hn hloop,
      fun hn => absurd hn (by simp [next, hdone]), nofun, fun _ => rfl, fun _ => rfl,
      fun _ => ⟨hexit, .inr rfl⟩, nofun⟩

/-! ## The handle outlives the loop -/

/-- wifi_cleanup has gone on to cancel and free only if the loop is not running. -/
def LoopLeft (s : State) : Prop := s.cleanup.past = true → s.loop.running = false

/-- "Exit" is lost only while the loop is not running, and the loop is not started behind it. -/
def Guard (s : State) (e : Event) : Prop :=
  (e = .writeExit false → s.loop.running = false) ∧ (e = .start → s.cleanup.past = false)

theorem loopLeft_step {s : State} {e : Event} (h : Inv s) (hleft : LoopLeft s) (he : Enabled s e) :
    LoopLeft (next s e) ↔ Guard s e := by
  have hfalse : ∀ b : Bool, b ≠ true → b = false := fun b hb => by simpa using hb
  have hrunning : s.loop.running = true → s.cleanup.past = false := fun hrun =>
    hfalse _ fun hpast => by rw [hleft hpast] at hrun; cases hrun
  have loopStep : ∀ loop, s.loop.running = true → LoopLeft { s with loop := loop } :=
    fun loop hrun hpast => absurd hpast (by simp [hrunning hrun])
  cases e with
  | start =>
    constructor
    · intro hnext
      refine ⟨nofun, fun _ => hfalse _ fun hpast => ?_⟩
      cases hnext hpast
    · intro hguard hpast
      exact absurd hpast (by simp [next, hguard.2 rfl])
  | poll result =>
    refine iff_of_true (fun hpast => ?_) ⟨nofun, nofun⟩
    exact loopStep (polled result) (by rw [he.1]; rfl) hpast
  | handled => exact iff_of_true (loopStep _ (by rw [show s.loop = .handling from he]; rfl)) ⟨nofun, nofun⟩
  | test => exact iff_of_true (loopStep _ (by rw [show s.loop = .testing from he]; rfl)) ⟨nofun, nofun⟩
  | answer written =>
    refine iff_of_true (fun hpast => ?_) ⟨nofun, nofun⟩
    exact loopStep _ (by rw [show s.loop = .answering from he]; rfl) hpast
  | cleanup => exact iff_of_true nofun ⟨nofun, nofun⟩
  | writeExit written =>
    cases written with
    | true => exact iff_of_true nofun ⟨nofun, nofun⟩
    | false => exact ⟨fun hnext => ⟨fun _ => hnext rfl, nofun⟩, fun hguard _ => hguard.1 rfl⟩
  | readDone =>
    refine iff_of_true (fun _ => ?_) ⟨nofun, nofun⟩
    rw [show (next s .readDone).loop = s.loop from rfl, (h.done he.2).2]
    rfl
  | free =>
    refine iff_of_true (fun _ => ?_) ⟨nofun, nofun⟩
    exact hleft (by rw [show s.cleanup = .cancelling from he]; rfl)

/-- In every state of a run wifi_cleanup is past its wait only when the loop is not running, exactly
when "Exit" was not lost on a running loop and no loop was started behind a lost "Exit". -/
theorem always_loopLeft_iff {es : List Event} (legal : system.Legal initial es) :
    (∀ pre, pre <+: es → LoopLeft (system.run initial pre)) ↔ system.Along Guard initial es :=
  always_iff_guarded system inv_step (fun _ _ h hleft he => loopLeft_step h hleft he) inv_initial
    nofun legal

/-- The loop is handling an event when wifi_cleanup is called. -/
theorem always_loopLeft_iff_event :
    let es : List Event := [.start, .poll .event, .cleanup, .writeExit true, .handled, .test,
      .poll .exit, .answer true, .readDone, .free]
    (∀ pre, pre <+: es → LoopLeft (system.run initial pre)) ↔ system.Along Guard initial es :=
  always_loopLeft_iff (by decide)

def Event.usesHandle : Event → Bool
  | .start | .handled | .test => true
  | _ => false

/-- With the guard the loop does not use a handle that has been freed. -/
theorem along_handle_alive {es : List Event} (legal : system.Legal initial es)
    (guarded : system.Along Guard initial es) :
    system.Along (fun s e => e.usesHandle = true → s.cleanup ≠ .freed) initial es := by
  refine along_of_invariant (I := fun s => Inv s ∧ LoopLeft s) system
    (fun s e h he hg => ⟨inv_step s e h.1 he, (loopLeft_step h.1 h.2 he).mpr hg⟩)
    ⟨inv_initial, nofun⟩ legal guarded ?_
  intro s e h he _ huses hfreed
  have hidle := h.2 (by rw [hfreed]; rfl)
  cases e with
  | start => exact he.2 hfreed
  | handled => exact absurd hidle (by rw [show s.loop = .handling from he]; nofun)
  | test => exact absurd hidle (by rw [show s.loop = .testing from he]; nofun)
  | _ => cases huses

/-! ## A wait without an end -/

/-- The loop was left without an answer to "Exit". -/
def Loop.silent : Loop → Bool
  | .left .hungUp | .left .unanswered => true
  | _ => false

theorem not_enabled_of_silent {s : State} (h : Inv s) (hwaiting : s.cleanup = .waiting)
    (hsilent : s.loop.silent = true) (e : Event) : ¬Enabled s e := by
  have hloop : ∀ loop : Loop, loop.silent = false → s.loop ≠ loop := by
    rintro loop hloop rfl
    rw [hsilent] at hloop
    cases hloop
  intro he
  cases e with
  | start => exact hloop _ rfl he.1
  | poll result => exact hloop _ rfl he.1
  | handled => exact hloop _ rfl he
  | test => exact hloop _ rfl he
  | answer written => exact hloop _ rfl he
  | readDone => exact hloop _ rfl (h.done he.2).2
  | cleanup => exact absurd he (by simp [Enabled, hwaiting])
  | writeExit written => exact absurd he (by simp [Enabled, hwaiting])
  | free => exact absurd he (by simp [Enabled, hwaiting])

/-- From a state that still has its answer to come the two threads can go on to the end. -/
theorem ends_of_answering (s : State) (hloop : s.loop = .answering) (hwaiting : s.cleanup = .waiting) :
    system.Legal s [.answer true, .readDone, .free] ∧
      (system.run s [.answer true, .readDone, .free]).cleanup = .freed :=
  ⟨⟨hloop, ⟨hwaiting, Bool.or_true _⟩, rfl, trivial⟩, rfl⟩

theorem ends_of_polling (s : State) (hloop : s.loop = .polling) (hexit : s.exit = true)
    (hwaiting : s.cleanup = .waiting) :
    system.Legal s [.poll .exit, .answer true, .readDone, .free] ∧
      (system.run s [.poll .exit, .answer true, .readDone, .free]).cleanup = .freed := by
  have hrest := ends_of_answering (next s (.poll .exit)) rfl hwaiting
  exact ⟨⟨⟨hloop, fun _ => hexit⟩, hrest.1⟩, hrest.2⟩

theorem ends_of_testing (s : State) (hloop : s.loop = .testing) (hexit : s.exit = true)
    (hwaiting : s.cleanup = .waiting) (hclean : s.clean_up = false) :
    system.Legal s [.test, .poll .exit, .answer true, .readDone, .free] ∧
      (system.run s [.test, .poll .exit, .answer true, .readDone, .free]).cleanup = .freed := by
  have hpolling : (next s .test).loop = .polling := if_neg (by rw [hclean]; nofun)
  have hrest := ends_of_polling (next s .test) hpolling hexit hwaiting
  exact ⟨⟨hloop, hrest.1⟩, hrest.2⟩

/-- A wifi_cleanup that waits for "Done" can come to its end exactly when the loop has not been left
for a hangup or without its answer; otherwise it waits for ever. -/
theorem waiting_ends_iff {es : List Event} {s : State} (legal : system.Legal initial es)
    (hs : system.run initial es = s) (hwaiting : s.cleanup = .waiting) :
    (∃ more, system.Legal s more ∧ (system.run s more).cleanup = .freed) ↔
      s.loop.silent = false := by
  have h : Inv s := hs ▸ invariant_legal system inv_step inv_initial legal
  constructor
  · rintro ⟨more, hlegal, hfreed⟩
    by_contra hsilent
    cases more with
    | nil =>
      rw [run_nil, hwaiting] at hfreed
      cases hfreed
    | cons e more => exact not_enabled_of_silent h hwaiting (by simpa using hsilent) e hlegal.1
  · intro hspeaks
    have hclean : s.clean_up = false := by
      by_contra hclean
      have hpast := h.clean_up (by simpa using hclean)
      rw [hwaiting] at hpast
      cases hpast
    have hexit : s.loop.told = false → s.exit = true := fun htold => by
      rcases h.waiting hwaiting with hexit | hn
      · exact hexit
      · exact absurd hn (by simp [htold])
    cases hloop : s.loop with
    | notStarted =>
      have hend := ends_of_polling (next s .start) rfl (hexit (by rw [hloop]; rfl)) hwaiting
      exact ⟨.start :: _, ⟨⟨hloop, by rw [hwaiting]; nofun⟩, hend.1⟩, hend.2⟩
    | polling => exact ⟨_, ends_of_polling s hloop (hexit (by rw [hloop]; rfl)) hwaiting⟩
    | handling =>
      have hend := ends_of_testing (next s .handled) rfl (hexit (by rw [hloop]; rfl)) hwaiting hclean
      exact ⟨.handled :: _, ⟨hloop, hend.1⟩, hend.2⟩
    | testing => exact ⟨_, ends_of_testing s hloop (hexit (by rw [hloop]; rfl)) hwaiting hclean⟩
    | answering => exact ⟨_, ends_of_answering s hloop hwaiting⟩
    | left why =>
      cases why with
      | answered =>
        have hdone := h.answered hwaiting hloop
        exact ⟨[.readDone, .free], ⟨⟨hwaiting, hdone⟩, rfl, trivial⟩, rfl⟩
      | cleanUp =>
        have hpast := h.left hloop
        rw [hwaiting] at hpast
        cases hpast
      | hungUp =>
        rw [hloop] at hspeaks
        cases hspeaks
      | unanswered =>
        rw [hloop] at hspeaks
        cases hspeaks

/-- The socket is hung up before wifi_cleanup is called. -/
theorem waiting_ends_iff_hungUp :
    (∃ more, system.Legal ⟨.left .hungUp, .waiting, true, false, false⟩ more ∧
      (system.run ⟨.left .hungUp, .waiting, true, false, false⟩ more).cleanup = .freed) ↔
      (Loop.left .hungUp).silent = false := by
  have legal : system.Legal initial [.start, .poll .hangup, .cleanup, .writeExit true] := by decide
  exact waiting_ends_iff legal rfl rfl

end WifiEventLoop
