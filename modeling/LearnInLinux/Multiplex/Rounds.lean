import LearnInLinux.Multiplex.EpollServer
import LearnInLinux.Multiplex.Servers

/-!
# Rounds of the multiplexing servers

A round begins with the report of `select`, `poll` or `epoll_wait`. The pass behind it
closes connections and accepts one, so that the table it runs over changes under it.
Still every socket of the report gets its call, and no socket gets a second one or one
that it was not reported for.
-/

namespace LearnInLinux
namespace Multiplex

/-! ## The calls of a round -/

/-- The sockets that `accept` and `recv` were called on through the descriptor since the
last round has begun. -/
def calls : List Event → Fd → List (Option Socket)
  | [], _ => []
  | .round _ :: _, _ => []
  | .accept called socket :: history, fd =>
      if called = fd then socket :: calls history fd else calls history fd
  | .recv called socket :: history, fd =>
      if called = fd then socket :: calls history fd else calls history fd
  | .accepted _ _ :: history, fd => calls history fd
  | .close _ _ :: history, fd => calls history fd

/-- What the last round has reported for the descriptor was called once, and nothing
else. -/
def Attended (history : List Event) (fd : Fd) : Prop :=
  calls history fd = (reported history fd).toList.map some

/-- Every round was attended to before the next one. -/
def Complete : List Event → Prop
  | [] => True
  | .round _ :: history => (∀ fd, Attended history fd) ∧ Complete history
  | _ :: history => Complete history

/-- A pass that still has the descriptors `ahead` in front of it. -/
structure Ongoing (ahead : Fd → Prop) (history : List Event) : Prop where
  untouched : ∀ fd, ahead fd → calls history fd = []
  attended : ∀ fd, ¬ahead fd → Attended history fd
  complete : Complete history

/-- The event is the call on a ready descriptor. -/
def Event.isCall (event : Event) (fd : Fd) (socket : Option Socket) : Prop :=
  event = .accept fd socket ∨ event = .recv fd socket

/-- The event says nothing about the calls of a round. -/
def Event.isAside : Event → Prop
  | .accepted _ _ => True
  | .close _ _ => True
  | _ => False

namespace Ongoing

variable {ahead before : Fd → Prop} {history : List Event} {event : Event}

theorem start
    {ready : Fd → Option Socket}
    (attended : ∀ fd, Attended history fd)
    (complete : Complete history)
    (whole : ∀ fd, ready fd ≠ none → ahead fd) :
    Ongoing ahead (.round ready :: history) where
  untouched _ _ := rfl
  attended := by
    intro fd notAhead
    have nothing : ready fd = none := by
      by_contra isReady
      exact notAhead (whole fd isReady)
    rw [Attended, reported, nothing]
    rfl
  complete := ⟨attended, complete⟩

/-- The descriptors in front of the pass are the same. -/
theorem congr
    (ongoing : Ongoing before history)
    (same : ∀ fd, ahead fd ↔ before fd) :
    Ongoing ahead history where
  untouched fd isAhead := ongoing.untouched fd ((same fd).mp isAhead)
  attended fd notAhead := ongoing.attended fd (mt (same fd).mpr notAhead)
  complete := ongoing.complete

/-- The descriptor that is next is called. -/
theorem call
    {next : Fd}
    {socket : Option Socket}
    (ongoing : Ongoing before history)
    (isCall : event.isCall next socket)
    (isNext : before next)
    (isOpen : socket ≠ none)
    (isReported : reported history next = socket)
    (rest : ∀ fd, ahead fd ↔ before fd ∧ fd ≠ next) :
    Ongoing ahead (event :: history) := by
  have called (fd : Fd) : calls (event :: history) fd =
      if next = fd then socket :: calls history fd else calls history fd := by
    rcases isCall with rfl | rfl
    · rfl
    · rfl
  have sameReport : reported (event :: history) = reported history := by
    rcases isCall with rfl | rfl
    · rfl
    · rfl
  constructor
  · intro fd isAhead
    obtain ⟨wasAhead, different⟩ := (rest fd).mp isAhead
    rw [called, if_neg different.symm]
    exact ongoing.untouched fd wasAhead
  · intro fd notAhead
    rw [Attended, called, sameReport]
    by_cases isCalled : next = fd
    · obtain ⟨ready, rfl⟩ := Option.ne_none_iff_exists'.mp isOpen
      rw [if_pos isCalled, ← isCalled, ongoing.untouched next isNext, isReported]
      rfl
    · rw [if_neg isCalled]
      apply ongoing.attended fd
      intro wasAhead
      exact notAhead ((rest fd).mpr ⟨wasAhead, Ne.symm isCalled⟩)
  · rcases isCall with rfl | rfl
    · exact ongoing.complete
    · exact ongoing.complete

theorem aside
    (ongoing : Ongoing ahead history)
    (isAside : event.isAside) :
    Ongoing ahead (event :: history) := by
  cases event with
  | accepted fd number => exact ⟨ongoing.untouched, ongoing.attended, ongoing.complete⟩
  | close fd socket => exact ⟨ongoing.untouched, ongoing.attended, ongoing.complete⟩
  | round ready => exact isAside.elim
  | accept fd socket => exact isAside.elim
  | recv fd socket => exact isAside.elim

end Ongoing

/-! ## The server of slots -/

namespace Slots
namespace State

variable {R : Type} {device : Device R} {listensock : Fd} {s t : State R}

/-- The descriptor is in a ready slot that the pass has not visited. -/
def Ahead (device : Device R) (i : Nat) (report : R) (s : State R) (fd : Fd) : Prop :=
  ∃ j, i ≤ j ∧ j < device.size ∧ s.slot j = some fd ∧ device.ready report j fd = true

/-- What holds of the calls at a point of the server. -/
def Rounds (device : Device R) (s : State R) : Prop :=
  match s.point with
  | .waiting => (∀ fd, Attended s.history fd) ∧ Complete s.history
  | .visiting i report => Ongoing (s.Ahead device i report) s.history

theorem rounds_waiting
    (here : s.point = .waiting) :
    s.Rounds device ↔ (∀ fd, Attended s.history fd) ∧ Complete s.history := by
  rw [Rounds, here]

theorem rounds_visiting
    {i : Nat}
    {report : R}
    (here : s.point = .visiting i report) :
    s.Rounds device ↔ Ongoing (s.Ahead device i report) s.history := by
  rw [Rounds, here]

theorem Rounds.complete (rounds : s.Rounds device) : Complete s.history := by
  cases here : s.point with
  | waiting => exact ((rounds_waiting here).mp rounds).2
  | visiting i report => exact ((rounds_visiting here).mp rounds).complete

theorem Rounds.report
    {report : R}
    {ready : Fd → Option Socket}
    (rounds : s.Rounds device)
    (here : s.point = .waiting)
    (whole : ∀ fd, ready fd ≠ none → s.Ahead device 0 report fd) :
    ({ s with point := .visiting 0 report, history := .round ready :: s.history } :
      State R).Rounds device := by
  obtain ⟨attended, complete⟩ := (rounds_waiting here).mp rounds
  exact Ongoing.start attended complete whole

theorem Rounds.finish
    {report : R}
    (rounds : s.Rounds device)
    (here : s.point = .visiting device.size report) :
    ({ s with point := .waiting } : State R).Rounds device := by
  have ongoing := (rounds_visiting here).mp rounds
  refine ⟨?_, ongoing.complete⟩
  intro fd
  apply ongoing.attended fd
  rintro ⟨j, behind, inside, -⟩
  exact absurd inside (Nat.not_lt.mpr behind)

/-- A slot that is not ready is left alone. -/
theorem Rounds.skip
    {i : Nat}
    {report : R}
    (rounds : s.Rounds device)
    (here : s.point = .visiting i report)
    (notReady : ∀ fd, s.slot i = some fd → device.ready report i fd = false) :
    ({ s with point := .visiting (i + 1) report } : State R).Rounds device := by
  apply ((rounds_visiting here).mp rounds).congr
  intro fd
  constructor
  · rintro ⟨j, behind, rest⟩
    exact ⟨j, Nat.le_of_succ_le behind, rest⟩
  · rintro ⟨j, behind, inside, present, isReady⟩
    refine ⟨j, Nat.lt_of_le_of_ne behind ?_, inside, present, isReady⟩
    rintro rfl
    rw [notReady fd present] at isReady
    exact Bool.false_ne_true isReady

/-- What is ahead behind the call on slot `i`, when the later slots that matter stay what
they were. -/
theorem ahead_of_call
    {i : Nat}
    {report : R}
    {next : Fd}
    (order : s.InOrder device.size listensock)
    (present : s.slot i = some next)
    (kept : ∀ j fd, i < j → device.ready report j fd = true →
      (t.slot j = some fd ↔ s.slot j = some fd))
    (fd : Fd) :
    t.Ahead device (i + 1) report fd ↔ s.Ahead device i report fd ∧ fd ≠ next := by
  constructor
  · rintro ⟨j, behind, inside, atJ, ready⟩
    have wasAtJ := (kept j fd behind ready).mp atJ
    refine ⟨⟨j, Nat.le_of_succ_le behind, inside, wasAtJ, ready⟩, ?_⟩
    rintro rfl
    exact Nat.ne_of_gt behind (order.distinct j i fd wasAtJ present)
  · rintro ⟨⟨j, behind, inside, atJ, ready⟩, different⟩
    have later : i < j := by
      refine Nat.lt_of_le_of_ne behind ?_
      rintro rfl
      exact different (Option.some.inj (atJ.symm.trans present))
    exact ⟨j, later, inside, (kept j fd later ready).mpr atJ, ready⟩

/-- A slot is visited and something is called there. -/
theorem Rounds.visit
    {i : Nat}
    {report : R}
    (rounds : s.Rounds device)
    (truthful : device.Truthful)
    (order : s.InOrder device.size listensock)
    (current : s.Current device)
    (here : s.point = .visiting i report)
    (stepped : Step device listensock s t)
    (called : s.history.length < t.history.length) :
    t.Rounds device := by
  have ongoing := (rounds_visiting here).mp rounds
  have reach {next : Fd} {history : List Event} {event : Event} {slot : Nat → Option Fd}
      {kernel : Kernel}
      (isCall : event.isCall next (s.kernel.socket next))
      (visited : i < device.size)
      (present : s.slot i = some next)
      (isReady : device.ready report i next = true)
      (kept : ∀ j fd, i < j → device.ready report j fd = true →
        (slot j = some fd ↔ s.slot j = some fd)) :
      Ongoing ((⟨slot, kernel, .visiting (i + 1) report, history⟩ : State R).Ahead device
        (i + 1) report) (event :: s.history) := by
    obtain ⟨⟨isOpen, isReported⟩, -⟩ := current.call order here visited present isReady
    apply ongoing.call isCall ⟨i, Nat.le_refl i, visited, present, isReady⟩ isOpen isReported
    exact ahead_of_call order present kept
  cases stepped with
  | report waiting reports known =>
      rw [here] at waiting
      exact absurd waiting.symm (Point.waiting_ne i report)
  | finish visiting => exact absurd called (Nat.lt_irrefl _)
  | skip visiting => exact absurd called (Nat.lt_irrefl _)
  | fail visiting visited present isReady =>
      obtain ⟨rfl, rfl⟩ := Point.visiting.inj (here.symm.trans visiting)
      exact reach (.inl rfl) visited present isReady fun _ _ _ _ => Iff.rfl
  | @assign _ pos _ sock visiting visited present isReady unused notFirst inside free =>
      obtain ⟨rfl, rfl⟩ := Point.visiting.inj (here.symm.trans visiting)
      refine (reach (.inl rfl) visited present isReady ?_).aside trivial
      intro j fd _ ready
      by_cases isPos : j = pos
      · rw [isPos] at ready
        rw [isPos, Function.update_self, free]
        apply iff_of_false _ (Option.some_ne_none fd).symm
        intro isNew
        obtain rfl := Option.some.inj isNew
        rw [current.not_ready_of_new truthful order here present unused inside free] at ready
        exact Bool.false_ne_true ready
      · rw [Function.update_of_ne isPos]
  | refuse visiting visited present isReady unused =>
      obtain ⟨rfl, rfl⟩ := Point.visiting.inj (here.symm.trans visiting)
      apply Ongoing.aside
      · refine (reach (.inl rfl) visited present isReady ?_).aside trivial
        exact fun _ _ _ _ => Iff.rfl
      · trivial
  | receive visiting visited present isReady =>
      obtain ⟨rfl, rfl⟩ := Point.visiting.inj (here.symm.trans visiting)
      exact reach (.inr rfl) visited present isReady fun _ _ _ _ => Iff.rfl
  | release visiting visited present isReady isClient =>
      obtain ⟨rfl, rfl⟩ := Point.visiting.inj (here.symm.trans visiting)
      refine (reach (.inr rfl) visited present isReady ?_).aside trivial
      intro j fd behind _
      rw [Function.update_of_ne (Nat.ne_of_gt behind)]

end State
end Slots

/-! ## The servers -/

namespace PollServer
namespace State

variable {listensock : Fd} {s t : State}

/-- `accept` is called whatever becomes of it. -/
theorem length_history_Accepter
    {sock : Fd}
    (accepted : s.Accepter listensock sock = some t) :
    s.history.length < t.history.length := by
  rcases Accepter_cases accepted with rfl | ⟨-, -, ⟨pos, -, -, -, rfl⟩ | ⟨-, rfl⟩⟩
  · exact Nat.lt_succ_self _
  · exact Nat.lt_add_of_pos_right (by decide : 0 < 2)
  · exact Nat.lt_add_of_pos_right (by decide : 0 < 3)

theorem length_history_Recver (pos : Nat) (n : Int) :
    s.history.length < (s.Recver pos n).history.length := by
  rw [Recver]
  split
  · exact Nat.lt_succ_self _
  · exact Nat.lt_add_of_pos_right (by decide : 0 < 2)

/-- A turn of the loop passes over a slot that is free or not ready, and calls something
on any other. -/
theorem HandlerEvent_turn
    {i : Nat}
    {result : Int}
    (handled : s.HandlerEvent listensock i result = some t) :
    (t = s.goto (.handling (i + 1)) ∧
        ((s.fds i).fd = FD_NONE ∨ (s.fds i).revents &&& POLLIN = 0)) ∨
      s.history.length < t.history.length := by
  rw [HandlerEvent] at handled
  split at handled
  · rename_i free
    exact .inl ⟨(Option.some.inj handled).symm, .inl free⟩
  · split at handled
    · right
      split at handled
      · obtain ⟨accepting, accepted, rfl⟩ := Option.map_eq_some_iff.mp handled
        have longer := length_history_Accepter accepted
        exact longer
      · obtain rfl := Option.some.inj handled
        exact length_history_Recver i result
    · rename_i nothing
      exact .inl ⟨(Option.some.inj handled).symm, .inr (not_not.mp nothing)⟩

end State

theorem rounds
    {poll : Poll}
    (reports : Reports poll)
    (listensock : Fd) :
    (machine poll listensock).Invariant fun s => s.view.Rounds (device poll) := by
  apply Transition.Machine.invariant_of_steps
  · rintro s ⟨-, kernel, -, rfl⟩
    exact ⟨fun fd => rfl, trivial⟩
  · intro s t reached rounds stepped
    have slots := reachable_view reached
    have order := Slots.inOrder (device poll) listensock s.view slots
    have current := Slots.current (truthful reports) listensock s.view slots
    cases stepped with
    | @poll n revents here returned =>
        have polled : (s.poll revents).view.Rounds (device poll) := by
          rw [State.view_poll here]
          exact rounds
        rw [State.switch]
        split
        · exact polled
        · split
          · exact polled
          · rename_i notZero notFailed
            have waiting : (s.poll revents).view.point = .waiting :=
              State.view_eq_waiting here
            apply polled.report waiting
            intro fd isReady
            obtain ⟨bound, cleared⟩ := reports _ _ _ _ _ returned
            obtain ⟨i, inside, atI, found⟩ :
                ∃ i < nfds, ((s.poll revents).fds i).fd = fd ∧
                  ((s.poll revents).fds i).revents &&& POLLIN ≠ 0 := by
              by_contra nowhere
              exact isReady (if_neg nowhere)
            refine ⟨i, Nat.zero_le i, inside, Slots.slot_eq_some_iff.mpr ⟨atI, ?_⟩,
              decide_eq_true found⟩
            rintro rfl
            have same := State.fds_poll revents s i
            rw [if_pos inside] at same
            rw [same] at atI found
            apply found
            change revents i &&& POLLIN = 0
            rw [cleared (by omega) i inside atI]
            decide
    | @turn i result t here inside handled =>
        have visiting := State.view_eq_visiting here
        rcases State.HandlerEvent_turn handled with ⟨rfl, notReady⟩ | called
        · apply rounds.skip visiting
          intro fd present
          obtain ⟨rfl, taken⟩ := Slots.slot_eq_some_iff.mp present
          apply decide_eq_false
          exact not_not_intro (notReady.resolve_left taken)
        · exact rounds.visit (truthful reports) order current visiting
            (State.view_turn here inside handled) called
    | finish here => exact rounds.finish (State.view_eq_visiting here)

end PollServer

namespace SelectServer
namespace State

variable {listensock : Fd} {s t : State}

/-- `accept` is called whatever becomes of it. -/
theorem length_history_Accepter
    {sock : Fd}
    (accepted : s.Accepter listensock sock = some t) :
    s.history.length < t.history.length := by
  rcases Accepter_cases accepted with rfl | ⟨-, -, ⟨pos, -, -, -, rfl⟩ | ⟨-, rfl⟩⟩
  · exact Nat.lt_succ_self _
  · exact Nat.lt_add_of_pos_right (by decide : 0 < 2)
  · exact Nat.lt_add_of_pos_right (by decide : 0 < 3)

theorem length_history_Recver (pos : Nat) (n : Int) :
    s.history.length < (s.Recver pos n).history.length := by
  rw [Recver]
  split
  · exact Nat.lt_succ_self _
  · exact Nat.lt_add_of_pos_right (by decide : 0 < 2)

/-- A turn of the loop passes over a slot that is free or not ready, is undefined, or
calls something. -/
theorem HandlerEvent_turn
    {i : Nat}
    {rfds : FdSet}
    {result : Int}
    (handled : s.HandlerEvent listensock i rfds result = some t) :
    (t = s.goto (.handling (i + 1) rfds) ∧
        (s.fdArray i = FD_NONE ∨ s.fdArray i ∉ rfds)) ∨
      t = s.goto .undefined ∨
      s.history.length < t.history.length := by
  rw [HandlerEvent] at handled
  split at handled
  · rename_i free
    exact .inl ⟨(Option.some.inj handled).symm, .inl free⟩
  · split at handled
    · exact .inr (.inl (Option.some.inj handled).symm)
    · rename_i notSet
      refine .inl ⟨(Option.some.inj handled).symm, .inr ?_⟩
      rw [FD_ISSET] at notSet
      split at notSet
      · exact of_decide_eq_false (Option.some.inj notSet)
      · exact absurd notSet (by simp)
    · refine .inr (.inr ?_)
      split at handled
      · obtain ⟨accepting, accepted, rfl⟩ := Option.map_eq_some_iff.mp handled
        have longer := length_history_Accepter accepted
        exact longer
      · obtain rfl := Option.some.inj handled
        exact length_history_Recver i result

/-- In front of a round and in a pass the rounds are as they should be; behind an
undefined call the rounds before are. -/
def Rounds (select : Select) (s : State) : Prop :=
  Complete s.history ∧ (s.point ≠ .undefined → s.view.Rounds (device select))

theorem Rounds.of_view
    {select : Select}
    (rounds : s.view.Rounds (device select)) :
    s.Rounds select :=
  ⟨rounds.complete, fun _ => rounds⟩

end State

theorem rounds
    {select : Select}
    (reports : Reports select)
    (listensock : Fd) :
    (machine select listensock).Invariant (State.Rounds select) := by
  apply Transition.Machine.invariant_of_steps
  · rintro s ⟨-, kernel, -, rfl⟩
    exact ⟨trivial, fun _ => ⟨fun fd => rfl, trivial⟩⟩
  · rintro s t reached ⟨complete, rounds⟩ stepped
    have slots := reachable_view reached
    have order := Slots.inOrder (device select) listensock s.view slots
    have current := Slots.current (truthful reports) listensock s.view slots
    cases stepped with
    | @select rfds result maxfd n here collected returned =>
        rw [State.switch]
        split
        · exact ⟨complete, rounds⟩
        · split
          · exact ⟨complete, rounds⟩
          · rename_i notZero notFailed
            have defined : s.point ≠ .undefined := by simp [here]
            have waiting : s.view.point = .waiting := by rw [State.view, here]
            apply State.Rounds.of_view
            apply (rounds defined).report waiting
            intro fd isReady
            obtain ⟨bound, subset⟩ := reports _ _ _ _ returned
            have found : fd ∈ result := by
              by_contra absent
              exact isReady (if_neg absent)
            rcases mem_of_collect collected (subset (by omega) found) with
              nothing | ⟨j, inside, atJ⟩
            · exact absurd nothing (Finset.notMem_empty fd)
            · rw [Nat.zero_add] at inside
              exact ⟨j, Nat.zero_le j, inside, atJ, decide_eq_true found⟩
    | undefined here overflow => exact ⟨complete, fun defined => absurd rfl defined⟩
    | @turn i rfds result t here inside handled =>
        have visiting := State.view_eq_visiting here
        have inPass := rounds (by simp [here])
        rcases State.HandlerEvent_turn handled with ⟨rfl, notReady⟩ | rfl | called
        · apply State.Rounds.of_view
          apply inPass.skip visiting
          intro fd present
          obtain ⟨rfl, taken⟩ := Slots.slot_eq_some_iff.mp present
          exact decide_eq_false (notReady.resolve_left taken)
        · exact ⟨complete, fun defined => absurd rfl defined⟩
        · apply State.Rounds.of_view
          exact inPass.visit (truthful reports) order current visiting
            (State.view_turn here inside handled) called
    | finish here =>
        apply State.Rounds.of_view
        exact (rounds (by simp [here])).finish (State.view_eq_visiting here)

end SelectServer

namespace EpollServer
namespace State

variable {listensock : Fd} {s t : State} {i n : Nat}

/-- The descriptor is in a ready event that the pass has not looked at. -/
def Ahead (i n : Nat) (s : State) (fd : Fd) : Prop :=
  ∃ j, i ≤ j ∧ j < n ∧ (s.revs j).fd = fd ∧ (s.revs j).events &&& EPOLLIN ≠ 0

/-- What holds of the calls at a point of the server. -/
def RoundsAt (s : State) : Point → Prop
  | .waiting => (∀ fd, Attended s.history fd) ∧ Complete s.history
  | .handling i n => Ongoing (s.Ahead i n) s.history
  | .aborted => True

/-- An event that is not ready is left alone. -/
theorem ongoing_skip
    (ongoing : Ongoing (s.Ahead i n) s.history)
    (notReady : (s.revs i).events &&& EPOLLIN = 0) :
    Ongoing (s.Ahead (i + 1) n) s.history := by
  apply ongoing.congr
  intro fd
  constructor
  · rintro ⟨j, behind, rest⟩
    exact ⟨j, Nat.le_of_succ_le behind, rest⟩
  · rintro ⟨j, behind, inside, isFd, isReady⟩
    refine ⟨j, Nat.lt_of_le_of_ne behind ?_, inside, isFd, isReady⟩
    rintro rfl
    exact isReady notReady

/-- No other event is about the descriptor of event `i`. -/
theorem ahead_of_call
    (pending : Pending i n s)
    (revs : t.revs = s.revs)
    (fd : Fd) :
    t.Ahead (i + 1) n fd ↔ s.Ahead i n fd ∧ fd ≠ (s.revs i).fd := by
  rw [Ahead, revs]
  constructor
  · rintro ⟨j, behind, inside, rfl, isReady⟩
    refine ⟨⟨j, Nat.le_of_succ_le behind, inside, rfl, isReady⟩, ?_⟩
    exact (pending.once i j (Nat.le_refl i) behind inside).symm
  · rintro ⟨⟨j, behind, inside, rfl, isReady⟩, different⟩
    refine ⟨j, Nat.lt_of_le_of_ne behind ?_, inside, rfl, isReady⟩
    rintro rfl
    exact different rfl

/-- A turn of the loop passes over an event that is not ready, and calls something on
any other. -/
theorem HandlerEvents_turn
    {answer : Answer}
    (handled : s.HandlerEvents listensock i n answer = some t) :
    (t = s.goto (.handling (i + 1) n) ∧ (s.revs i).events &&& EPOLLIN = 0) ∨
      ((s.revs i).events &&& EPOLLIN ≠ 0 ∧
        (((s.revs i).fd = listensock ∧
            (s.goto (.handling (i + 1) n)).Accepter listensock answer.result
              answer.room = some t) ∨
          (s.goto (.handling (i + 1) n)).Recver (s.revs i).fd answer.result
            answer.data = some t)) := by
  rw [HandlerEvents] at handled
  split at handled
  · rename_i found
    refine .inr ⟨found, ?_⟩
    split at handled
    · rename_i listening
      exact .inl ⟨listening, handled⟩
    · exact .inr handled
  · rename_i nothing
    exact .inl ⟨(Option.some.inj handled).symm, not_not.mp nothing⟩

theorem ongoing_turn
    {answer : Answer}
    (sound : Sound listensock s)
    (ongoing : Ongoing (s.Ahead i n) s.history)
    (here : s.point = .handling i n)
    (inside : i < n)
    (handled : s.HandlerEvents listensock i n answer = some t) :
    Ongoing (t.Ahead (i + 1) n) t.history ∧ t.point = .handling (i + 1) n := by
  have pending := sound.pending here
  rcases HandlerEvents_turn handled with ⟨rfl, notReady⟩ | ⟨found, outcome⟩
  · exact ⟨ongoing_skip ongoing notReady, rfl⟩
  · obtain ⟨isOpen, isReported⟩ := sound.reported_here here inside found
    have called {event : Event}
        (isCall : event.isCall (s.revs i).fd (s.kernel.socket (s.revs i).fd))
        (revs : t.revs = s.revs) :
        Ongoing (t.Ahead (i + 1) n) (event :: s.history) :=
      ongoing.call isCall ⟨i, Nat.le_refl i, inside, rfl, found⟩ isOpen isReported
        (ahead_of_call pending revs)
    rcases outcome with ⟨listening, accepted⟩ | received
    · rw [listening] at called
      rcases Accepter_cases accepted with rfl | ⟨-, ⟨-, rfl⟩ | rfl⟩
      · exact ⟨called (.inl rfl) rfl, rfl⟩
      · exact ⟨(called (.inl rfl) rfl).aside trivial, rfl⟩
      · exact ⟨(called (.inl rfl) rfl).aside trivial, rfl⟩
    · have watched : (s.goto (.handling (i + 1) n)).interest (s.revs i).fd ≠ none :=
        pending.watched i (Nat.le_refl i) inside
      rcases Recver_cases watched received with ⟨request, rfl, -⟩ | rfl
      · exact ⟨called (.inr rfl) rfl, rfl⟩
      · exact ⟨(called (.inr rfl) rfl).aside trivial, rfl⟩

end State

theorem rounds
    {epollWait : EpollWait}
    (reports : Reports epollWait)
    (listensock : Fd) :
    (machine epollWait listensock).Invariant fun s => s.RoundsAt s.point := by
  apply Transition.Machine.invariant_of_steps
  · rintro s ⟨-, revs, kernel, -, rfl⟩
    exact ⟨fun fd => rfl, trivial⟩
  · intro s t reached rounds stepped
    have sound := sound reports listensock s reached
    cases stepped with
    | @wait count revs here returned =>
        rw [here] at rounds
        have stays : (s.WaitEpoll count revs).RoundsAt (s.WaitEpoll count revs).point := by
          change (s.WaitEpoll count revs).RoundsAt s.point
          rw [here]
          exact rounds
        rw [State.loopOnce]
        split
        · exact stays
        · split
          · exact stays
          · split
            · apply Ongoing.start rounds.1 rounds.2
              intro fd isReady
              obtain ⟨j, inside, isFd, found⟩ :
                  ∃ j < count.toNat, ((s.WaitEpoll count revs).revs j).fd = fd ∧
                    ((s.WaitEpoll count revs).revs j).events &&& EPOLLIN ≠ 0 := by
                by_contra nowhere
                exact isReady (if_neg nowhere)
              exact ⟨j, Nat.zero_le j, inside, isFd, found⟩
            · trivial
    | turn here inside handled =>
        rw [here] at rounds
        obtain ⟨ongoing, next⟩ := State.ongoing_turn sound rounds here inside handled
        rw [next]
        exact ongoing
    | finish here =>
        rw [here] at rounds
        refine ⟨?_, rounds.complete⟩
        intro fd
        apply rounds.attended fd
        rintro ⟨j, behind, inside, -⟩
        exact absurd inside (Nat.not_lt.mpr behind)

end EpollServer

/-! ## Runs -/

/-- Whatever is closed and accepted in the pass of a round, before the next round every
socket of its report has been called once, and no other socket. -/
theorem rounds_complete
    (select : SelectServer.Select) (poll : PollServer.Poll)
    (epollWait : EpollServer.EpollWait) (listensock : Fd)
    (selectReports : SelectServer.Reports select)
    (pollReports : PollServer.Reports poll)
    (epollReports : EpollServer.Reports epollWait) :
    ((SelectServer.machine select listensock).Invariant fun s =>
        Complete s.history ∧ (s.point = .waiting → ∀ fd, Attended s.history fd)) ∧
      ((PollServer.machine poll listensock).Invariant fun s =>
        Complete s.history ∧ (s.point = .waiting → ∀ fd, Attended s.history fd)) ∧
      (EpollServer.machine epollWait listensock).Invariant fun s =>
        Complete s.history ∧ (s.point = .waiting → ∀ fd, Attended s.history fd) := by
  refine ⟨?_, ?_, ?_⟩
  · intro s reached
    obtain ⟨complete, rounds⟩ := SelectServer.rounds selectReports listensock s reached
    refine ⟨complete, ?_⟩
    intro here
    have waiting : s.view.point = .waiting := by rw [SelectServer.State.view, here]
    exact ((Slots.State.rounds_waiting waiting).mp (rounds (by simp [here]))).1
  · intro s reached
    have rounds := PollServer.rounds pollReports listensock s reached
    refine ⟨rounds.complete, ?_⟩
    intro here
    exact ((Slots.State.rounds_waiting (PollServer.State.view_eq_waiting here)).mp rounds).1
  · intro s reached
    have rounds : s.RoundsAt s.point :=
      EpollServer.rounds epollReports listensock s reached
    cases here : s.point with
    | waiting =>
        rw [here] at rounds
        exact ⟨rounds.2, fun _ => rounds.1⟩
    | handling i n =>
        rw [here] at rounds
        exact ⟨rounds.complete, fun waiting => EpollServer.Point.noConfusion waiting⟩
    | aborted =>
        have sound := EpollServer.sound epollReports listensock s reached
        have inPass := sound.inPass
        rw [here] at inPass
        exact inPass.elim

/-- `select` and `poll` may report everything that was asked for, and `epoll_wait` any of
the descriptors that it watches. -/
theorem rounds_complete_everything :
    ((SelectServer.machine (fun _ set n result => n = 1 ∧ result = set) 3).Invariant fun s =>
        Complete s.history ∧ (s.point = .waiting → ∀ fd, Attended s.history fd)) ∧
      ((PollServer.machine (fun fds _ _ n revents => n = 1 ∧
          revents = fun i => if (fds i).fd = FD_NONE then 0 else PollServer.POLLIN)
          3).Invariant fun s =>
        Complete s.history ∧ (s.point = .waiting → ∀ fd, Attended s.history fd)) ∧
      (EpollServer.machine EpollServer.several 3).Invariant fun s =>
        Complete s.history ∧ (s.point = .waiting → ∀ fd, Attended s.history fd) := by
  apply rounds_complete
  · rintro nfds set n result ⟨rfl, rfl⟩
    exact ⟨by decide, fun _ => Finset.Subset.refl result⟩
  · rintro fds nfds timeout n revents ⟨rfl, rfl⟩
    exact ⟨by decide, fun _ i _ free => if_pos free⟩
  · exact EpollServer.reports_several

end Multiplex
end LearnInLinux
